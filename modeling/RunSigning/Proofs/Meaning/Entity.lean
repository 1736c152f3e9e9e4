import RunSigning.Proofs.Meaning.Content

/-
This file says what references to entities in content mean. An entity is well-formed if its
replacement text is content of its own; then every run of text stands for the same nodes wherever
it is read.
-/

namespace RunSigning.Markup
open RunSigning.Text

/-- Every replacement text is content with whole elements. -/
def Entities.WellFormed (entities : Entities) : Prop :=
  ∀ pair ∈ entities, ∃ content : Content, content.Separated ∧ pair.2.rest = content.render

theorem Entities.wellFormed_of_eq_nil {entities : Entities} (undeclared : entities = []) :
    entities.WellFormed := by
  rw [undeclared]
  intro pair member
  cases member

/-- Something that a builder does stands for the same nodes in every builder that is ready. -/
structure StandsFor (entities : Entities) (scope : Scope) (references : Nat)
    (goOn : Builder → Except Failure Builder) (nodes : List Node) (after : Nat) : Prop where
  grows : ∀ builder : Builder, builder.Ready entities scope references →
    ∃ grown, goOn builder = .ok grown ∧ builder.GrownBy nodes after grown
  allowed : AllowedTexts nodes
  before : ∀ bound, entities.Before bound →
    ∀ element ∈ elements nodes, element.tag.span.start < bound

/-- References to declared entities stand for the same nodes wherever they are followed. -/
def ReadsReferences (entities : Entities) (room : Nat) : Prop :=
  ∀ (name : String) (replacement : Cursor) (scope : Scope) (references stop : Nat)
    (builder grown : Builder),
    entities.find? name = some replacement → builder.Ready entities scope references →
      Builder.follow room stop replacement builder = .ok grown →
        ∃ nodes after, ∀ stop', StandsFor entities scope references
          (Builder.follow room stop' replacement) nodes after

section
variable {entities : Entities} {scope : Scope} {references between after : Nat}
  {first second : List Node} {one two : Builder → Except Failure Builder}

theorem StandsFor.congr (stands : StandsFor entities scope references one first after)
    (same : ∀ builder : Builder, builder.Ready entities scope references →
      two builder = one builder) : StandsFor entities scope references two first after where
  grows := by
    intro builder ready
    rw [same builder ready]
    exact stands.grows builder ready
  allowed := stands.allowed
  before := stands.before

theorem StandsFor.trans (begins : StandsFor entities scope references one first between)
    (ends : StandsFor entities scope between two second after) :
    StandsFor entities scope references (fun builder => one builder >>= two) (first ++ second)
      after where
  grows := by
    intro builder ready
    obtain ⟨middle, success, growth⟩ := begins.grows builder ready
    obtain ⟨grown, success', growth'⟩ := ends.grows middle (growth.ready ready)
    exact ⟨grown, bind_eq_ok_iff.mpr ⟨middle, success, success'⟩,
      growth.trans ready.opened growth'⟩
  allowed := begins.allowed.append ends.allowed
  before := by
    intro bound declared element member
    rw [elements_append] at member
    rcases List.mem_append.mp member with left | right
    · exact begins.before bound declared element left
    · exact ends.before bound declared element right

/-- What a buffer stands for when it is flushed. -/
def flushed (buffer : List Char) : List Node :=
  if buffer.isEmpty then [] else [.text (String.ofList buffer.reverse)]

theorem standsFor_flush {buffer : List Char} (allowed : ∀ c ∈ buffer, isAllowed c = true) :
    StandsFor entities scope references (fun builder => .ok (builder.flush buffer))
      (flushed buffer) references where
  grows := by
    intro builder ready
    refine ⟨_, rfl, ?_⟩
    rw [Builder.flush, flushed]
    split
    · exact .refl ready
    · exact ready.addText_grows _
  allowed := by
    intro content member c held
    rw [flushed] at member
    split at member
    · cases member
    · obtain rfl := Node.text.inj (List.mem_singleton.mp member)
      exact allowed c (by simpa using held)
  before := by
    intro bound _ element member
    rw [flushed] at member
    split at member <;> cases member

/-- A chunk stands for characters that a document may hold, or for an entity. -/
def Chunk.Allowed : Chunk → Prop
  | .literal c => isAllowed c = true
  | .character c _ => isAllowed c = true
  | .entity _ _ _ => True
  | .malformed _ => True

theorem isAllowed_of_predefined {name : String} {c : Char} (known : predefined? name = some c) :
    isAllowed c = true := by
  unfold predefined? at known
  split at known <;> cases known <;> decide

theorem isAllowed_of_characterOfDigits {base : Nat} {digits : List Char} {c : Char}
    (names : characterOfDigits? base digits = some c) : isAllowed c = true := by
  rw [characterOfDigits?] at names
  split at names
  · cases names
  · rename_i fine
    obtain rfl := Option.some.inj names
    simp only [Bool.or_eq_true, not_or, Bool.not_eq_true', Bool.not_eq_false] at fine
    exact fine.2

theorem Chunk.allowed_of_reference {offset : Nat} {taken : List Char} {chunk : Chunk}
    (reads : Reader.ReferenceRun offset taken chunk) : chunk.Allowed := by
  cases reads with
  | decimal digits c counted names => exact isAllowed_of_characterOfDigits names
  | hexadecimal digits c counted names => exact isAllowed_of_characterOfDigits names
  | predefined run c named known => exact isAllowed_of_predefined known
  | entity run named unknown => trivial

/-- The chunks of a text that a document may hold stand for such characters. -/
theorem Chunk.allowed_split {text : List Char} (allowed : ∀ c ∈ text, isAllowed c = true)
    (offset : Nat) : ∀ chunk ∈ Chunk.split ⟨offset, text⟩, chunk.Allowed := by
  induction length : text.length using Nat.strongRecOn generalizing offset text with
  | ind length ih =>
      subst length
      cases text with
      | nil => simp
      | cons c rest =>
          by_cases plain : c = '&'
          · subst plain
            by_cases reads : ∃ chunk stop, Reader.reference.read ⟨offset, '&' :: rest⟩ =
                .ok (chunk, stop)
            · obtain ⟨chunk, stop, reads⟩ := reads
              have shorter := Reader.Advances.reference _ _ _ reads
              obtain ⟨taken, equal, -, takes⟩ := Reader.takes_of_read reads
              dsimp only at equal shorter takes
              rw [equal] at allowed ⊢
              rw [Chunk.split_reference takes, List.forall_mem_cons]
              exact ⟨Chunk.allowed_of_reference (Reader.takes_reference_iff.mp takes),
                ih _ shorter (fun d held => allowed d (by simp [held])) _ rfl⟩
            · have fails : ∀ chunk stop, Reader.reference.read ⟨offset, '&' :: rest⟩ ≠
                  .ok (chunk, stop) := fun chunk stop success => reads ⟨chunk, stop, success⟩
              rw [Chunk.split_malformed fails, List.forall_mem_cons]
              exact ⟨trivial, by simp⟩
          · rw [Chunk.split_literal plain, List.forall_mem_cons]
            exact ⟨allowed c (by simp),
              ih _ (by simp) (fun d held => allowed d (by simp [held])) _ rfl⟩

theorem allowed_pushLiteral {buffer : List Char} {c : Char} {isLast : Bool}
    (allowed : ∀ d ∈ buffer, isAllowed d = true) (fits : isAllowed c = true) :
    ∀ d ∈ pushLiteral buffer c isLast, isAllowed d = true := by
  have shown : isAllowed (if isLast = true ∧ c = '\r' then '\n' else c) = true := by
    split
    · decide
    · exact fits
  have lineFeed : isAllowed '\n' = true := by decide
  unfold pushLiteral
  dsimp only
  generalize (if isLast = true ∧ c = '\r' then '\n' else c) = last at shown ⊢
  split
  · rename_i earlier
    rw [List.forall_mem_cons] at allowed
    split
    · exact List.forall_mem_cons.mpr ⟨lineFeed, allowed.2⟩
    · exact List.forall_mem_cons.mpr ⟨shown, List.forall_mem_cons.mpr ⟨lineFeed, allowed.2⟩⟩
  · exact List.forall_mem_cons.mpr ⟨shown, allowed⟩

theorem Chunk.isEmpty_eq {chunks chunks' : List Chunk}
    (same : chunks'.map Chunk.unplaced = chunks.map Chunk.unplaced) :
    chunks'.isEmpty = chunks.isEmpty := by
  rw [← List.isEmpty_map, same, List.isEmpty_map]

theorem Chunk.exists_cons {chunk : Chunk} {rest chunks : List Chunk}
    (same : chunks.map Chunk.unplaced = (chunk :: rest).map Chunk.unplaced) :
    ∃ chunk' rest', chunks = chunk' :: rest' ∧ chunk'.unplaced = chunk.unplaced ∧
      rest'.map Chunk.unplaced = rest.map Chunk.unplaced := by
  cases chunks with
  | nil => cases same
  | cons chunk' rest' =>
      obtain ⟨first, later⟩ := List.cons.inj same
      exact ⟨chunk', rest', rfl, first, later⟩

section
variable {outermost unchanged : Bool} {rest : List Chunk} {buffer : List Char} {c : Char}
  {follow : Nat → Cursor → Builder → Except Failure Builder}

theorem extend_literal :
    Builder.extend outermost follow (.literal c :: rest) buffer unchanged =
      Builder.extend outermost follow rest
        (if unchanged then c :: buffer else pushLiteral buffer c rest.isEmpty) false := by
  funext builder
  rw [Builder.extend]
  cases unchanged <;> rfl

theorem extend_character {start : Nat} :
    Builder.extend outermost follow (.character c start :: rest) buffer unchanged =
      Builder.extend outermost follow rest
        (if outermost then c :: buffer else pushLiteral buffer c rest.isEmpty)
        (outermost || unchanged) := by
  funext builder
  rw [Builder.extend]
  cases outermost <;> rfl

theorem extend_entity {name : String} {replacement : Cursor} {start stop : Nat}
    {builder : Builder} (found : builder.entities.find? name = some replacement) :
    Builder.extend outermost follow (.entity name start stop :: rest) buffer unchanged builder =
      follow stop replacement (builder.flush buffer) >>=
        Builder.extend outermost follow rest [] false := by
  rw [Builder.extend, found]
  dsimp only
  cases follow stop replacement (builder.flush buffer) <;> rfl

theorem allowed_ite {condition : Bool} {first second : List Char}
    (one : ∀ d ∈ first, isAllowed d = true) (two : ∀ d ∈ second, isAllowed d = true) :
    ∀ d ∈ if condition then first else second, isAllowed d = true := by
  split
  · exact one
  · exact two

end

/-- What chunks stand for does not depend on the builder or on places. -/
theorem extend_standsFor {room : Nat} (referencesRead : ReadsReferences entities room)
    {outermost unchanged : Bool} {chunks : List Chunk} {buffer : List Char}
    {builder grown : Builder} (fits : ∀ chunk ∈ chunks, chunk.Allowed)
    (allowed : ∀ c ∈ buffer, isAllowed c = true)
    (ready : builder.Ready entities scope references)
    (success : builder.extend outermost (Builder.follow room) chunks buffer unchanged =
      .ok grown) :
    ∃ nodes after, ∀ chunks', chunks'.map Chunk.unplaced = chunks.map Chunk.unplaced →
      StandsFor entities scope references
        (Builder.extend outermost (Builder.follow room) chunks' buffer unchanged) nodes after := by
  induction chunks generalizing buffer unchanged references builder with
  | nil =>
      refine ⟨flushed buffer, references, ?_⟩
      intro chunks' same
      obtain rfl := List.map_eq_nil_iff.mp same
      exact standsFor_flush allowed
  | cons chunk rest ih =>
      obtain ⟨fit, restFits⟩ := List.forall_mem_cons.mp fits
      cases chunk with
      | literal c =>
          rw [extend_literal] at success
          obtain ⟨nodes, after, stands⟩ := ih restFits
            (allowed_ite (List.forall_mem_cons.mpr ⟨fit, allowed⟩)
              (allowed_pushLiteral allowed fit)) ready success
          refine ⟨nodes, after, ?_⟩
          intro chunks' same
          obtain ⟨chunk', rest', rfl, first, later⟩ := Chunk.exists_cons same
          cases chunk' <;> cases first
          rw [extend_literal, Chunk.isEmpty_eq later]
          exact stands rest' later
      | character c start =>
          rw [extend_character] at success
          obtain ⟨nodes, after, stands⟩ := ih restFits
            (allowed_ite (List.forall_mem_cons.mpr ⟨fit, allowed⟩)
              (allowed_pushLiteral allowed fit)) ready success
          refine ⟨nodes, after, ?_⟩
          intro chunks' same
          obtain ⟨chunk', rest', rfl, first, later⟩ := Chunk.exists_cons same
          cases chunk' <;> cases first
          rw [extend_character, Chunk.isEmpty_eq later]
          exact stands rest' later
      | entity name start stop =>
          rw [Builder.extend] at success
          split at success
          · cases success
          rename_i replacement found
          split at success
          · cases success
          rename_i followed goesOn
          rw [ready.entities_eq] at found
          have flushes := @standsFor_flush entities scope references buffer allowed
          obtain ⟨_, flush, growth⟩ := flushes.grows builder ready
          obtain rfl := Except.ok.inj flush
          obtain ⟨middle, between, follows⟩ := referencesRead name replacement scope references stop
            _ _ found (growth.ready ready) goesOn
          obtain ⟨followed', goesOn', growth'⟩ := (follows stop).grows _ (growth.ready ready)
          rw [goesOn] at goesOn'
          obtain rfl := Except.ok.inj goesOn'
          obtain ⟨nodes, after, stands⟩ := ih restFits (by simp)
            (growth'.ready (growth.ready ready)) success
          refine ⟨flushed buffer ++ middle ++ nodes, after, ?_⟩
          intro chunks' same
          obtain ⟨chunk', rest', rfl, first, later⟩ := Chunk.exists_cons same
          cases chunk' <;> cases first
          rename_i start' stop'
          refine ((flushes.trans (follows stop')).trans (stands rest' later)).congr ?_
          intro builder' ready'
          rw [← ready'.entities_eq] at found
          exact extend_entity found
      | malformed start => cases success

/-- A run of text stands for the same nodes if references do. -/
theorem ReadsReferences.texts {room : Nat} (referencesRead : ReadsReferences entities room) :
    ReadsTexts entities room := by
  intro run scope references offset builder grown fits ready success
  obtain ⟨nodes, after, stands⟩ := extend_standsFor referencesRead
    (Chunk.allowed_split fits.allowed offset) (by simp) ready success
  have moved (offset' : Nat) := stands _ (Chunk.split_moved offset' offset run)
  exact ⟨nodes, after, fun offset' builder' ready' => (moved offset').grows builder' ready',
    (moved offset).allowed, (moved offset).before⟩

theorem mem_of_find {name : String} {replacement : Cursor}
    (found : entities.find? name = some replacement) : ∃ pair ∈ entities, pair.2 = replacement := by
  obtain ⟨before, rest, equal, -⟩ := List.lookup_eq_some_iff.mp found
  exact ⟨(name, replacement), by simp [equal], rfl⟩

/-- The scan of a replacement text that is content gives the tokens of the content. -/
theorem scan_replacement {content : Content} (separated : content.Separated)
    {replacement : Cursor} (equal : replacement.rest = content.render) :
    Scan.replacement replacement = ⟨content.tokens replacement.offset, none⟩ := by
  have run := @Content.run content separated .replacement 0 replacement.offset [] (by simp)
  rw [List.append_nil, ← equal, Scan.run.eq_def _ _ ⟨_, []⟩] at run
  rw [Scan.replacement, run]
  simp [Scan.prepend]

/-- A reference is followed by counting it and adding the content that it stands for. -/
theorem Builder.follow_succ_eq_ok_iff {room stop : Nat} {builder grown : Builder}
    {content : Content} (separated : content.Separated) {replacement : Cursor}
    (equal : replacement.rest = content.render) :
    Builder.follow (room + 1) stop replacement builder = .ok grown ↔
      ∃ references filled, countReference (room + 1) stop builder.references = .ok references ∧
        Builder.addTokens room { builder with tag? := none, references := references }
          (content.tokens replacement.offset) = .ok filled ∧
        grown = { filled with
          tag? := builder.tag?
          references := settleReferences (room + 1) filled.references } := by
  rw [Builder.follow]
  simp only [bind_eq_ok_iff, Builder.addScan, scan_replacement separated equal]
  constructor
  · rintro ⟨references, counted, filled, ⟨added, reads, same⟩, ends⟩
    have same := Except.ok.inj same
    subst same
    exact ⟨references, added, counted, reads, (Except.ok.inj ends).symm⟩
  · rintro ⟨references, filled, counted, reads, rfl⟩
    exact ⟨references, counted, filled, ⟨filled, reads, rfl⟩, rfl⟩

/-- In well-formed entities references can be followed to any depth. -/
theorem Entities.WellFormed.readsReferences (formed : entities.WellFormed) (room : Nat) :
    ReadsReferences entities room := by
  induction room with
  | zero =>
      intro name replacement scope references stop builder grown found ready success
      cases success
  | succ room ih =>
      intro name replacement scope references stop builder grown found ready success
      obtain ⟨pair, declared, rfl⟩ := mem_of_find found
      obtain ⟨content, separated, equal⟩ := formed pair declared
      rw [Builder.follow_succ_eq_ok_iff separated equal] at success
      obtain ⟨counted, filled, counts, reads, -⟩ := success
      have inside {builder : Builder} (ready : builder.Ready entities scope references) :
          Builder.Ready { builder with tag? := none, references := counted } entities scope
            counted :=
        ⟨ready.opened, ready.unbound, ready.settled, ready.entities_eq, ready.scope_eq, rfl,
          ready.joins⟩
      obtain ⟨nodes, after, content_reads⟩ := content.exists_reads ih.texts (inside ready) reads
      refine ⟨nodes pair.2.offset, settleReferences (room + 1) after, ?_⟩
      intro stop'
      refine ⟨?_, content_reads.allowed _, ?_⟩
      · intro builder' ready'
        obtain ⟨filled', reads', growth⟩ := content_reads.grows pair.2.offset (inside ready')
        refine ⟨_, (Builder.follow_succ_eq_ok_iff separated equal).mpr
          ⟨counted, filled', ?_, reads', rfl⟩, ?_⟩
        · rw [ready.references_eq, ← ready'.references_eq] at counts
          exact countReference_moved stop' counts
        · exact ⟨growth.frames_eq.trans (Builder.frames_joined rfl rfl), growth.nodes_eq,
            growth.unbound, growth.settled, growth.entities_eq,
            congrArg (settleReferences (room + 1)) growth.references_eq, growth.hasDoctype_eq, id,
            growth.joins⟩
      · intro bound before
        have ends := before pair declared
        rw [equal] at ends
        exact content_reads.before before ends

/-- In well-formed entities every run of text can be read. -/
theorem Entities.WellFormed.readsTexts (formed : entities.WellFormed) (room : Nat) :
    ReadsTexts entities room :=
  (formed.readsReferences room).texts

end

end RunSigning.Markup
