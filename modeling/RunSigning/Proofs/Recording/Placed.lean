import RunSigning.Proofs.Recording.Shift

/-
This file finds the places of a tree in its text. Wherever an element comes from, from the text
itself or from the replacement text of an entity, a tag opens where it begins, and the text can be
cut where it ends. Its end may come before its beginning.
-/

namespace RunSigning.Text

variable {text : List Char} {offset : Nat} {span : Span}

/-- The offset stands between two characters of the text, or at an end of it. -/
def IsCut (text : List Char) (offset : Nat) : Prop :=
  ∃ before after, text = before ++ after ∧ byteLength before = offset

/-- A tag opens at the offset. -/
def Opens (text : List Char) (offset : Nat) : Prop :=
  ∃ before after, text = before ++ '<' :: after ∧ byteLength before = offset

/-- The text can be cut at both ends of the span, and these are in order. -/
structure Span.IsPlaced (span : Span) (text : List Char) : Prop where
  start : IsCut text span.start
  stop : IsCut text span.stop
  ordered : span.start ≤ span.stop

theorem isCut_iff : IsCut text offset ↔ (splitAt? offset text).isSome = true := by
  rw [Option.isSome_iff_exists]
  constructor
  · rintro ⟨before, after, rfl, length⟩
    exact ⟨(before, after), splitAt?_eq_some_iff.mpr ⟨rfl, length⟩⟩
  · rintro ⟨⟨before, after⟩, split⟩
    exact ⟨before, after, splitAt?_eq_some_iff.mp split⟩

theorem Opens.isCut (opens : Opens text offset) : IsCut text offset := by
  obtain ⟨before, after, equal, length⟩ := opens
  exact ⟨before, '<' :: after, equal, length⟩

/-- An edit of a span is accepted exactly if the span is placed. -/
theorem isSome_around?_iff : (around? span text).isSome = true ↔ span.IsPlaced text := by
  rw [around?]
  constructor
  · intro some
    split at some
    · rename_i ordered
      cases left : splitAt? span.start text with
      | none => simp [left] at some
      | some front =>
          cases right : splitAt? span.stop text with
          | none => simp [left, right] at some
          | some back =>
              exact ⟨isCut_iff.mpr (by simp [left]), isCut_iff.mpr (by simp [right]), ordered⟩
    · cases some
  · rintro ⟨start, stop, ordered⟩
    obtain ⟨front, left⟩ := Option.isSome_iff_exists.mp (isCut_iff.mp start)
    obtain ⟨back, right⟩ := Option.isSome_iff_exists.mp (isCut_iff.mp stop)
    rw [if_pos ordered, left, right]
    rfl

end RunSigning.Text

namespace RunSigning.Markup
open RunSigning.Text

variable {text : List Char}

/-- The text can be cut behind every part of the text of a cursor within it. -/
theorem isCut_of_within {offset : Nat} (first last : List Char)
    (within : Cursor.Within ⟨offset, first ++ last⟩ ⟨0, text⟩) :
    IsCut text (offset + byteLength first) := by
  obtain ⟨before, after, equal, place⟩ := within
  refine ⟨before ++ first, last ++ after, by simpa using equal, ?_⟩
  rw [byteLength_append]
  simp only [Nat.zero_add] at place
  rw [place]

theorem opens_of_within {offset : Nat} {last : List Char}
    (within : Cursor.Within ⟨offset, '<' :: last⟩ ⟨0, text⟩) : Opens text offset := by
  obtain ⟨before, after, equal, place⟩ := within
  exact ⟨before, last ++ after, by simpa using equal, by simpa using place.symm⟩

/-- Where the values of signatures are written, they are placed. -/
def WrittenAttribute.IsPlaced (written : WrittenAttribute) (text : List Char) : Prop :=
  written.name.IsPlain "value" → written.valueSpan.IsPlaced text

/-- What a token says about places is true of the text. -/
def Token.IsPlaced (text : List Char) : Token → Prop
  | .entity _ replacement => replacement.Within ⟨0, text⟩
  | .tagName _ start => Opens text start
  | .attr written => written.IsPlaced text
  | .tagEnd _ stop => IsCut text stop
  | .endTag _ span => IsCut text span.stop
  | _ => True

theorem AttributeSource.isPlaced (source : AttributeSource) {offset : Nat} {rest : List Char}
    (within : Cursor.Within ⟨offset, source.render ++ rest⟩ ⟨0, text⟩) :
    (source.written offset).IsPlaced text := by
  intro plain
  have opening := source.held_append_spare
  rw [source.valueSpan_eq plain]
  refine ⟨?_, ?_, ?_⟩
  · refine isCut_of_within source.held (source.spare ++ (source.value ++ source.quote :: rest)) ?_
    rw [← List.append_assoc, opening]
    simpa [AttributeSource.render] using within
  · dsimp only
    rw [Nat.add_assoc, ← byteLength_append]
    refine isCut_of_within _ (source.quote :: rest) ?_
    simpa [AttributeSource.render] using within
  · have length := congrArg byteLength opening
    rw [byteLength_append] at length
    dsimp only
    omega

theorem AsideSource.isPlaced (source : AsideSource) : source.token.IsPlaced text := by
  cases source <;> trivial

theorem OutsideStep.isPlaced {offset : Nat} {taken rest : List Char} {mode : Mode}
    {value : List Token × Mode} (passed : OutsideStep offset taken mode value)
    (within : Cursor.Within ⟨offset, taken ++ rest⟩ ⟨0, text⟩) :
    ∀ token ∈ value.1, token.IsPlaced text := by
  intro token member
  cases passed with
  | blanks mode => cases member
  | aside mode source =>
      obtain rfl := List.mem_singleton.mp member
      exact source.isPlaced
  | doctype next outside =>
      obtain rfl := List.mem_singleton.mp member
      trivial
  | entity start tokens declares =>
      obtain ⟨name, replacement, rfl, inner, -⟩ := declares token member
      exact inner.trans (.trans ⟨[], rest, rfl, rfl⟩ within)
  | subsetEnd start => cases member

/-- The tokens that a step of the scanner finds are placed. -/
theorem Reader.Takes.isPlaced {mode next : Mode} {offset : Nat} {taken rest : List Char}
    {tokens : List Token} (takes : mode.step.Takes offset taken rest (tokens, next))
    (within : Cursor.Within ⟨offset, taken ++ rest⟩ ⟨0, text⟩) :
    ∀ token ∈ tokens, token.IsPlaced text := by
  by_cases outside : mode.isOutside = true
  · rcases takes.outsideStep outside with passed | ⟨-, written, rfl, equal⟩
    · exact passed.isPlaced within
    · cases equal
      exact List.forall_mem_singleton.mpr (opens_of_within within)
  cases mode with
  | prolog => exact absurd rfl outside
  | preamble => exact absurd rfl outside
  | subset start => exact absurd rfl outside
  | tag level =>
      cases takes_tagStep_iff.mp takes with
      | close gap blank selfClosing =>
          exact List.forall_mem_singleton.mpr (isCut_of_within _ rest within)
      | another source => exact List.forall_mem_singleton.mpr (source.isPlaced within)
  | content level =>
      cases takes_contentStep_iff.mp takes with
      | aside source => exact List.forall_mem_singleton.mpr source.isPlaced
      | marked source => exact List.forall_mem_singleton.mpr trivial
      | text run fits ends => exact List.forall_mem_singleton.mpr trivial
      | startTag written ends => exact List.forall_mem_singleton.mpr (opens_of_within within)
      | endTag source => exact List.forall_mem_singleton.mpr (isCut_of_within _ rest within)
  | epilog =>
      cases takes_epilogStep_iff.mp takes with
      | blanks gap filled blank ends => simp
      | aside source => exact List.forall_mem_singleton.mpr source.isPlaced

/-- All tokens of a scan are placed, whether it succeeds or not. -/
theorem Scan.run_isPlaced (extent : Extent) (mode : Mode) {start : Cursor}
    (within : start.Within ⟨0, text⟩) :
    ∀ token ∈ (Scan.run extent mode start).tokens, token.IsPlaced text := by
  fun_induction Scan.run extent mode start with
  | case1 => exact List.forall_mem_nil _
  | case2 => exact List.forall_mem_nil _
  | case3 mode start goesOn tokens next stop step later ih =>
      obtain ⟨offset, whole⟩ := start
      obtain ⟨taken, rfl, place, takes⟩ := Reader.takes_of_read step
      have behind : stop.Within ⟨0, text⟩ := .trans ⟨taken, [], by simp, place⟩ within
      intro token member
      rcases List.mem_append.mp member with first | last
      · exact takes.isPlaced within token first
      · exact ih behind token last

theorem Scan.document_isPlaced (text : List Char) :
    ∀ token ∈ (Scan.document text).tokens, token.IsPlaced text := by
  rw [Scan.document]
  split
  · exact List.forall_mem_nil _
  · rename_i start opened
    obtain ⟨taken, equal, place⟩ := Reader.opening.reaches opened
    exact Scan.run_isPlaced .document .prolog ⟨taken, [], by simpa using equal, place⟩

/-- An attribute that may hold a signature is placed. -/
def Attribute.IsPlaced (held : Attribute) (text : List Char) : Prop :=
  held.name.localName = "value" → held.uri? = none → held.valueSpan.IsPlaced text

/-- Every element of the tree begins where a tag opens and ends where the text can be cut. -/
inductive Node.IsPlaced (text : List Char) : Node → Prop where
  | element {tag : Tag} {children : List Node} (opens : Opens text tag.span.start)
      (stop : IsCut text tag.span.stop)
      (attributes : ∀ held ∈ tag.attributes, held.IsPlaced text)
      (inner : ∀ child ∈ children, child.IsPlaced text) : IsPlaced text (.element tag children)
  | text (content : String) : IsPlaced text (.text content)
  | comment (content : String) : IsPlaced text (.comment content)
  | instruction (target data : String) : IsPlaced text (.instruction target data)

structure Frame.IsPlaced (frame : Frame) (text : List Char) : Prop where
  opens : Opens text frame.start
  attributes : ∀ held ∈ frame.attributes, held.IsPlaced text
  children : ∀ child ∈ frame.children, child.IsPlaced text

/-- Everything that the builder holds is placed. -/
structure Builder.IsPlaced (builder : Builder) (text : List Char) : Prop where
  frames : ∀ frame ∈ builder.frames, frame.IsPlaced text
  nodes : ∀ node ∈ builder.nodes, node.IsPlaced text
  tag : ∀ opened ∈ builder.tag?, Opens text opened.2
  attributes : ∀ pending ∈ builder.attributes, pending.written.IsPlaced text
  entities : ∀ pair ∈ builder.entities, pair.2.Within ⟨0, text⟩

theorem Scope.isPlaced_resolveAttributes {scope : Scope} {waiting : List PendingAttribute}
    {attributes : List Attribute} (resolves : scope.resolveAttributes [] waiting = .ok attributes)
    (placed : ∀ pending ∈ waiting, pending.written.IsPlaced text) :
    ∀ held ∈ attributes, held.IsPlaced text := by
  obtain ⟨bound, -, rfl⟩ := (Scope.resolveAttributes_eq_ok_iff (by simp)).mp resolves
  intro held member named outside
  obtain ⟨pending, waits, rfl⟩ := List.mem_map.mp member
  exact placed pending waits ⟨Scope.qualifier_of_attributeUri (bound pending waits) outside, named⟩

theorem mem_of_find? {entities : Entities} {name : String} {replacement : Cursor}
    (found : entities.find? name = some replacement) : (name, replacement) ∈ entities := by
  obtain ⟨before, after, equal, -⟩ := List.lookup_eq_some_iff.mp found
  simp [equal]

namespace Builder

variable {builder changed : Builder}

theorem isPlaced_empty : Builder.empty.IsPlaced text where
  frames := List.forall_mem_nil _
  nodes := List.forall_mem_nil _
  tag := by simp [empty]
  attributes := List.forall_mem_nil _
  entities := List.forall_mem_nil _

theorem IsPlaced.siblings (placed : builder.IsPlaced text) :
    ∀ node ∈ builder.siblings, node.IsPlaced text := by
  rw [Builder.siblings]
  split
  · exact placed.nodes
  · rename_i frame outer frames
    exact (placed.frames frame (by simp [frames])).children

theorem IsPlaced.withSiblings (placed : builder.IsPlaced text) {siblings : List Node}
    (inner : ∀ node ∈ siblings, node.IsPlaced text) :
    (builder.withSiblings siblings).IsPlaced text := by
  rw [Builder.withSiblings]
  split
  · exact { placed with nodes := inner }
  · rename_i frame outer frames
    have here := placed.frames frame (by simp [frames])
    refine { placed with frames := ?_ }
    rintro other member
    rcases List.mem_cons.mp member with rfl | last
    · exact { here with children := inner }
    · exact placed.frames other (by simp [frames, last])

theorem IsPlaced.addNode (placed : builder.IsPlaced text) {node : Node}
    (inner : node.IsPlaced text) : (builder.addNode node).IsPlaced text :=
  placed.withSiblings (List.forall_mem_cons.mpr ⟨inner, placed.siblings⟩)

theorem IsPlaced.addText (placed : builder.IsPlaced text) (content : List Char) :
    (builder.addText content).IsPlaced text := by
  have joining : IsPlaced { builder with joinsText := true } text := { placed with }
  rw [Builder.addText]
  split
  · rename_i joined earlier last
    refine joining.withSiblings (List.forall_mem_cons.mpr ⟨.text _, ?_⟩)
    intro node member
    exact placed.siblings node (by simp [last, member])
  · exact joining.withSiblings (List.forall_mem_cons.mpr ⟨.text _, placed.siblings⟩)

theorem IsPlaced.flush (placed : builder.IsPlaced text) (buffer : List Char) :
    (builder.flush buffer).IsPlaced text := by
  rw [Builder.flush]
  split
  · exact placed
  · exact placed.addText _

theorem IsPlaced.endStartTag (placed : builder.IsPlaced text) {selfClosing : Bool} {stop : Nat}
    (cut : IsCut text stop) (success : builder.endStartTag selfClosing stop = .ok changed) :
    changed.IsPlaced text := by
  rw [Builder.endStartTag] at success
  split at success
  · obtain rfl := Except.ok.inj success
    exact placed
  · rename_i name start opened
    obtain ⟨attributes, resolves, success⟩ := bind_eq_ok_iff.mp success
    obtain ⟨uri?, -, success⟩ := bind_eq_ok_iff.mp success
    have opens : Opens text start := placed.tag (name, start) opened
    have attributed := Scope.isPlaced_resolveAttributes resolves placed.attributes
    have settled : IsPlaced { builder with bindings := [], attributes := [] } text :=
      { placed with attributes := List.forall_mem_nil _ }
    split at success
    · obtain rfl := Except.ok.inj success
      exact settled.addNode (.element opens cut attributed (List.forall_mem_nil _))
    · obtain rfl := Except.ok.inj success
      exact { settled with
        frames := List.forall_mem_cons.mpr
          ⟨⟨opens, attributed, List.forall_mem_nil _⟩, placed.frames⟩ }

theorem IsPlaced.endElement (placed : builder.IsPlaced text) {name : QualifiedName} {span : Span}
    (cut : IsCut text span.stop) (success : builder.endElement name span = .ok changed) :
    changed.IsPlaced text := by
  rw [Builder.endElement] at success
  split at success
  · cases success
  · obtain ⟨attributes, -, success⟩ := bind_eq_ok_iff.mp success
    rw [closeElement] at success
    split at success
    · cases success
    · rename_i frame outer frames
      have here := placed.frames frame (by simp [show builder.frames = _ from frames])
      have settled : IsPlaced { builder with bindings := [], attributes := [], frames := outer }
          text :=
        { placed with
          attributes := List.forall_mem_nil _
          frames := fun other member =>
            placed.frames other (by simp [show builder.frames = _ from frames, member]) }
      split at success
      · obtain rfl := Except.ok.inj success
        refine settled.addNode (.element here.opens cut here.attributes ?_)
        intro child member
        exact here.children child (List.mem_reverse.mp member)
      · cases success

/-- Going on keeps everything placed. -/
def KeepsPlaces (text : List Char) (goOn : Builder → Except Failure Builder) : Prop :=
  ∀ builder changed : Builder, goOn builder = .ok changed → builder.IsPlaced text →
    changed.IsPlaced text

section
variable {follow : Nat → Cursor → Builder → Except Failure Builder}

theorem keepsPlaces_extend
    (follows : ∀ stop replacement, replacement.Within ⟨0, text⟩ →
      KeepsPlaces text (follow stop replacement))
    (outermost unchanged : Bool) (chunks : List Chunk) (buffer : List Char) :
    KeepsPlaces text (Builder.extend outermost follow chunks buffer unchanged) := by
  intro builder changed success placed
  induction chunks generalizing builder buffer unchanged with
  | nil =>
      obtain rfl := Except.ok.inj success
      exact placed.flush buffer
  | cons chunk chunks ih =>
      cases chunk with
      | literal c =>
          rw [extend_literal] at success
          exact ih _ _ _ success placed
      | character c start =>
          rw [extend_character] at success
          exact ih _ _ _ success placed
      | entity name start stop =>
          cases found : builder.entities.find? name with
          | none =>
              rw [Builder.extend, found] at success
              cases success
          | some replacement =>
              rw [extend_entity found] at success
              obtain ⟨followed, one, success⟩ := bind_eq_ok_iff.mp success
              have within : replacement.Within ⟨0, text⟩ :=
                placed.entities (name, replacement) (mem_of_find? found)
              exact ih _ _ _ success (follows stop replacement within _ _ one (placed.flush buffer))
      | malformed start => cases success

theorem keepsPlaces_add (room : Nat)
    (follows : ∀ stop replacement, replacement.Within ⟨0, text⟩ →
      KeepsPlaces text (follow stop replacement)) {token : Token} (places : token.IsPlaced text) :
    KeepsPlaces text fun builder => Builder.add room follow builder token := by
  intro builder changed success placed
  cases token with
  | doctype =>
      obtain rfl := Except.ok.inj success
      exact { placed with }
  | entity name replacement =>
      obtain rfl := Except.ok.inj success
      refine { placed with entities := ?_ }
      intro pair member
      rcases List.mem_append.mp member with earlier | last
      · exact placed.entities pair earlier
      · obtain rfl := List.mem_singleton.mp last
        exact places
  | comment content =>
      obtain rfl := Except.ok.inj success
      exact placed.addNode (.comment content)
  | instruction target data =>
      obtain rfl := Except.ok.inj success
      exact placed.addNode (.instruction target data)
  | tagName name start =>
      dsimp only [Builder.add] at success
      split at success
      · cases success
      · obtain rfl := Except.ok.inj success
        refine { placed with tag := ?_ }
        rintro _ ⟨⟩
        exact places
  | attr written =>
      obtain ⟨⟨value, references⟩, -, success⟩ := bind_eq_ok_iff.mp success
      obtain ⟨-, rfl⟩ := addAttribute_eq_ok_iff.mp success
      refine { placed with attributes := ?_ }
      intro waits member
      rcases List.mem_append.mp member with earlier | last
      · exact placed.attributes waits earlier
      · rw [pending] at last
        split at last
        · cases last
        · obtain rfl := List.mem_singleton.mp last
          exact places
  | tagEnd selfClosing stop => exact placed.endStartTag places success
  | endTag name span => exact placed.endElement places success
  | text written => exact keepsPlaces_extend follows _ _ _ _ _ _ success placed
  | verbatim content =>
      obtain rfl := Except.ok.inj success
      exact placed.addText _

theorem keepsPlaces_foldlM (room : Nat)
    (follows : ∀ stop replacement, replacement.Within ⟨0, text⟩ →
      KeepsPlaces text (follow stop replacement))
    {tokens : List Token} (places : ∀ token ∈ tokens, token.IsPlaced text) :
    KeepsPlaces text fun builder => tokens.foldlM (Builder.add room follow) builder := by
  intro builder changed success placed
  induction tokens generalizing builder with
  | nil =>
      obtain rfl := Except.ok.inj success
      exact placed
  | cons token tokens ih =>
      obtain ⟨first, later⟩ := List.forall_mem_cons.mp places
      obtain ⟨middle, one, success⟩ := bind_eq_ok_iff.mp success
      exact ih later _ success (keepsPlaces_add room follows first _ _ one placed)

theorem keepsPlaces_addScan (room : Nat)
    (follows : ∀ stop replacement, replacement.Within ⟨0, text⟩ →
      KeepsPlaces text (follow stop replacement))
    {scan : Scan} (places : ∀ token ∈ scan.tokens, token.IsPlaced text) :
    KeepsPlaces text fun builder => builder.addScan room follow scan := by
  intro builder changed success placed
  obtain ⟨middle, tokens, success⟩ := bind_eq_ok_iff.mp success
  split at success
  · cases success
  · obtain rfl := Except.ok.inj success
    exact keepsPlaces_foldlM room follows places _ _ tokens placed

end

theorem keepsPlaces_follow (room stop : Nat) {replacement : Cursor}
    (within : replacement.Within ⟨0, text⟩) :
    KeepsPlaces text (Builder.follow room stop replacement) := by
  induction room generalizing stop replacement with
  | zero =>
      intro builder changed success
      cases success
  | succ room ih =>
      intro builder changed success placed
      obtain ⟨references, -, success⟩ := bind_eq_ok_iff.mp success
      obtain ⟨grown, grows, success⟩ := bind_eq_ok_iff.mp success
      obtain rfl := Except.ok.inj success
      have inside : IsPlaced { builder with tag? := none, references := references } text :=
        { placed with tag := by simp }
      have kept := keepsPlaces_addScan room (fun stop _ => ih stop)
        (Scan.run_isPlaced .replacement (.content 0) within) _ _ grows inside
      exact { kept with tag := placed.tag }

end Builder

/-- Everything in the tree of a text is placed in it, whatever entities the text declares. -/
theorem Tree.isPlaced {text : String} {tree : Tree} (success : Tree.parse text = .ok tree) :
    ∀ node ∈ tree.nodes, node.IsPlaced text.toList := by
  obtain ⟨builder, grows, finishes⟩ := bind_eq_ok_iff.mp success
  have placed := Builder.keepsPlaces_addScan nestingLimit
    (fun stop _ => Builder.keepsPlaces_follow nestingLimit stop)
    (Scan.document_isPlaced text.toList) _ _ grows Builder.isPlaced_empty
  rw [Builder.finish] at finishes
  split at finishes
  · cases finishes
  · split at finishes
    · obtain rfl := Except.ok.inj finishes
      intro node member
      exact placed.nodes node (List.mem_reverse.mp member)
    · cases finishes

end RunSigning.Markup
