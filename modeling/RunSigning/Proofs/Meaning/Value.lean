import RunSigning.Markup.Entity
import RunSigning.Proofs.Grammar.Leaf

/-
This file shows that a value does not depend on where it stands in the text: the references in it
are the same at every offset, and so is what they stand for.
-/

namespace RunSigning.Markup
open RunSigning.Text

/-- A chunk without its places. -/
def Chunk.unplaced : Chunk → Chunk
  | .literal c => .literal c
  | .character c _ => .character c 0
  | .entity name _ _ => .entity name 0 0
  | .malformed _ => .malformed 0

namespace Reader

variable {offset : Nat} {taken rest : List Char}

/-- A run of characters that is a name. -/
structure IsName (run : List Char) : Prop where
  begins : beginsLikeName run = true
  nameCharacters : ∀ c ∈ run, isNameCharacter c = true

/-- What a reference is, and the chunk that it gives. -/
inductive ReferenceRun (offset : Nat) : List Char → Chunk → Prop where
  | decimal (digits : List Char) (c : Char) (counted : ∀ d ∈ digits, d.isDigit = true)
      (names : characterOfDigits? 10 digits = some c) :
      ReferenceRun offset ('&' :: '#' :: (digits ++ [';'])) (.character c offset)
  | hexadecimal (digits : List Char) (c : Char)
      (counted : ∀ d ∈ digits, isHexadecimalDigit d = true)
      (names : characterOfDigits? 16 digits = some c) :
      ReferenceRun offset ('&' :: '#' :: 'x' :: (digits ++ [';'])) (.character c offset)
  | predefined (run : List Char) (c : Char) (named : IsName run)
      (known : predefined? (String.ofList run) = some c) :
      ReferenceRun offset ('&' :: (run ++ [';'])) (.character c offset)
  | entity (run : List Char) (named : IsName run)
      (unknown : predefined? (String.ofList run) = none) :
      ReferenceRun offset ('&' :: (run ++ [';']))
        (.entity (String.ofList run) offset (offset + byteLength ('&' :: (run ++ [';']))))

/-- A name before a semicolon is read whole, and is no number. -/
theorem IsName.reads {run : List Char} (named : IsName run) (rest : List Char) :
    startsWith "#".toList (run ++ [';'] ++ rest) = false ∧
      beginsLikeName (run ++ ([';'] ++ rest)) = true ∧
      ∀ c ∈ ([';'] ++ rest).head?, isNameCharacter c = false := by
  obtain ⟨begins, -⟩ := named
  cases run with
  | nil => cases begins
  | cons c run =>
      have other : '#' ≠ c := by
        rintro rfl
        cases begins
      refine ⟨by simp [startsWith, strip?, other], begins, ?_⟩
      simp only [List.cons_append, List.nil_append, List.head?_cons, Option.mem_def,
        Option.some.injEq, forall_eq']
      decide

theorem isDigit_semicolon : Char.isDigit ';' = false ∧ isHexadecimalDigit ';' = false := by decide

theorem takes_reference_iff {value : Chunk} :
    reference.Takes offset taken rest value ↔ ReferenceRun offset taken value := by
  simp only [reference, takes_offset_bind_iff, takes_literal_bind_iff, takes_sees_bind_iff]
  constructor
  · rintro ⟨after, rfl, takes⟩
    split at takes
    · simp only [takes_literal_bind_iff, takes_sees_bind_iff, takes_optionally_bind_iff] at takes
      obtain ⟨body, rfl, takes⟩ := takes
      split at takes
      · simp only [takes_takeWhile_bind_iff, takes_byte_bind_iff] at takes
        obtain ⟨_, rfl, digits, _, rfl, counted, -, last, rfl, takes⟩ := takes
        split at takes
        · rename_i c names
          obtain ⟨rfl, rfl⟩ := takes_pure_iff.mp takes
          exact .hexadecimal digits c counted names
        · exact absurd takes not_takes_failAt
      · simp only [takes_takeWhile_bind_iff, takes_byte_bind_iff] at takes
        obtain ⟨digits, _, rfl, counted, -, last, rfl, takes⟩ := takes
        split at takes
        · rename_i c names
          obtain ⟨rfl, rfl⟩ := takes_pure_iff.mp takes
          exact .decimal digits c counted names
        · exact absurd takes not_takes_failAt
    · simp only [takes_name_bind_iff, takes_byte_bind_iff, takes_offset_bind_iff] at takes
      obtain ⟨run, _, rfl, begins, nameCharacters, -, last, rfl, takes⟩ := takes
      have named : IsName run := by
        refine ⟨?_, nameCharacters⟩
        cases run with
        | nil =>
            simp only [beginsLikeName, List.nil_append, List.cons_append, List.head?_cons,
              Option.any_some] at begins
            cases begins
        | cons c run => exact begins
      split at takes
      · rename_i c known
        obtain ⟨rfl, rfl⟩ := takes_pure_iff.mp takes
        exact .predefined run c named known
      · rename_i unknown
        obtain ⟨rfl, rfl⟩ := takes_pure_iff.mp takes
        have reads : Reader.ReferenceRun offset _ _ := .entity run named unknown
        simpa [Nat.add_assoc] using reads
  · intro reads
    cases reads with
    | decimal digits c counted names =>
        have filled : digits ≠ [] := by
          rintro rfl
          cases names
        obtain ⟨d, more, rfl⟩ := List.exists_cons_of_ne_nil filled
        have other : 'x' ≠ d := by
          rintro rfl
          have := counted 'x' (by simp)
          cases this
        refine ⟨_, rfl, ?_⟩
        rw [if_pos (by simp [startsWith, strip?])]
        simp only [takes_literal_bind_iff, takes_sees_bind_iff, takes_optionally_bind_iff]
        refine ⟨d :: more ++ [';'], rfl, ?_⟩
        have unseen : startsWith "x".toList (d :: more ++ [';'] ++ rest) = false := by
          simp [startsWith, strip?, other]
        rw [unseen]
        simp only [Bool.false_eq_true, if_false, takes_takeWhile_bind_iff, takes_byte_bind_iff]
        refine ⟨_, _, rfl, counted, by simp [isDigit_semicolon], _, rfl, ?_⟩
        rw [names]
        exact takes_pure_iff.mpr ⟨rfl, rfl⟩
    | hexadecimal digits c counted names =>
        refine ⟨_, rfl, ?_⟩
        rw [if_pos (by simp [startsWith, strip?])]
        simp only [takes_literal_bind_iff, takes_sees_bind_iff, takes_optionally_bind_iff]
        refine ⟨_, rfl, ?_⟩
        have seen : startsWith "x".toList ('x' :: (digits ++ [';']) ++ rest) = true := by
          simp [startsWith, strip?]
        rw [seen]
        simp only [if_true, takes_takeWhile_bind_iff, takes_byte_bind_iff]
        refine ⟨_, rfl, _, _, rfl, counted, by simp [isDigit_semicolon], _, rfl, ?_⟩
        rw [names]
        exact takes_pure_iff.mpr ⟨rfl, rfl⟩
    | predefined run c named known =>
        obtain ⟨plain, begins, ends⟩ := named.reads rest
        refine ⟨run ++ [';'], rfl, ?_⟩
        rw [if_neg (by rw [plain]; exact Bool.false_ne_true)]
        simp only [takes_name_bind_iff, takes_byte_bind_iff, takes_offset_bind_iff]
        refine ⟨run, [';'], rfl, begins, named.nameCharacters, ends, [], rfl, ?_⟩
        rw [known]
        exact takes_pure_iff.mpr ⟨rfl, rfl⟩
    | entity run named unknown =>
        obtain ⟨plain, begins, ends⟩ := named.reads rest
        refine ⟨run ++ [';'], rfl, ?_⟩
        rw [if_neg (by rw [plain]; exact Bool.false_ne_true)]
        simp only [takes_name_bind_iff, takes_byte_bind_iff, takes_offset_bind_iff]
        refine ⟨run, [';'], rfl, begins, named.nameCharacters, ends, [], rfl, ?_⟩
        rw [unknown]
        exact takes_pure_iff.mpr ⟨rfl, by simp [Nat.add_assoc]⟩

/-- A reference gives the same chunk at every offset, apart from the places in it. -/
theorem Takes.reference_moved {value : Chunk} (takes : reference.Takes offset taken rest value)
    (offset' : Nat) :
    ∃ value', value'.unplaced = value.unplaced ∧ reference.Takes offset' taken rest value' := by
  cases takes_reference_iff.mp takes with
  | decimal digits c counted names =>
      exact ⟨.character c offset', rfl, takes_reference_iff.mpr (.decimal digits c counted names)⟩
  | hexadecimal digits c counted names =>
      exact ⟨.character c offset', rfl,
        takes_reference_iff.mpr (.hexadecimal digits c counted names)⟩
  | predefined run c named known =>
      exact ⟨.character c offset', rfl, takes_reference_iff.mpr (.predefined run c named known)⟩
  | entity run named unknown =>
      exact ⟨.entity (String.ofList run) offset' (offset' + byteLength ('&' :: (run ++ [';']))), rfl,
        takes_reference_iff.mpr (.entity run named unknown)⟩

end Reader

theorem Chunk.splitFrom_eq (before : List Chunk) (start : Cursor) :
    Chunk.splitFrom before start = before.reverse ++ Chunk.split start := by
  obtain ⟨offset, text⟩ := start
  induction length : text.length using Nat.strongRecOn generalizing before offset text with
  | ind length ih =>
      subst length
      rw [Chunk.split, Chunk.splitFrom, Chunk.splitFrom]
      dsimp only
      split
      · simp
      · rename_i c rest
        split
        · split
          · simp
          · rename_i chunk stop reads
            have shorter := Reader.Advances.reference _ _ _ reads
            obtain ⟨place, rest'⟩ := stop
            rw [ih _ shorter (chunk :: before) place rest' rfl,
              ih _ shorter [chunk] place rest' rfl]
            simp
        · rw [ih _ (by simp) _ _ rest rfl, ih _ (by simp) [.literal c] _ rest rfl]
          simp

@[simp] theorem Chunk.split_nil (offset : Nat) : Chunk.split ⟨offset, []⟩ = [] := by
  rw [Chunk.split, Chunk.splitFrom]
  rfl

/-- A character that begins no reference stands for itself. -/
theorem Chunk.split_literal {c : Char} (plain : c ≠ '&') (offset : Nat) (rest : List Char) :
    Chunk.split ⟨offset, c :: rest⟩ = .literal c :: Chunk.split ⟨offset + c.utf8Size, rest⟩ := by
  rw [Chunk.split, Chunk.splitFrom]
  dsimp only
  rw [if_neg plain, Chunk.splitFrom_eq]
  rfl

/-- A reference is one chunk. -/
theorem Chunk.split_reference {offset : Nat} {taken rest : List Char} {chunk : Chunk}
    (takes : Reader.reference.Takes offset taken rest chunk) :
    Chunk.split ⟨offset, taken ++ rest⟩ =
      chunk :: Chunk.split ⟨offset + byteLength taken, rest⟩ := by
  have begins : ∃ more, taken ++ rest = '&' :: more := by
    cases Reader.takes_reference_iff.mp takes <;> exact ⟨_, rfl⟩
  obtain ⟨more, equal⟩ := begins
  rw [Reader.Takes, equal] at takes
  rw [equal, Chunk.split, Chunk.splitFrom]
  dsimp only
  rw [if_pos rfl]
  split
  · rename_i failure fails
    rw [takes] at fails
    cases fails
  · rename_i chunk' stop reads
    rw [takes] at reads
    cases reads
    rw [Chunk.splitFrom_eq]
    rfl

/-- What looks like a reference and is none ends the chunks. -/
theorem Chunk.split_malformed {offset : Nat} {rest : List Char}
    (fails : ∀ chunk stop, Reader.reference.read ⟨offset, '&' :: rest⟩ ≠ .ok (chunk, stop)) :
    Chunk.split ⟨offset, '&' :: rest⟩ = [.malformed offset] := by
  rw [Chunk.split, Chunk.splitFrom]
  dsimp only
  rw [if_pos rfl]
  split
  · rfl
  · rename_i chunk stop reads
    exact absurd reads (fails chunk stop)

/-- The chunks of a text are the same at every offset, apart from the places in them. -/
theorem Chunk.split_moved (offset offset' : Nat) (text : List Char) :
    (Chunk.split ⟨offset, text⟩).map Chunk.unplaced =
      (Chunk.split ⟨offset', text⟩).map Chunk.unplaced := by
  induction length : text.length using Nat.strongRecOn generalizing offset offset' text with
  | ind length ih =>
      subst length
      cases text with
      | nil => rw [Chunk.split_nil, Chunk.split_nil]
      | cons c rest =>
          by_cases plain : c = '&'
          · subst plain
            by_cases reads : ∃ chunk stop, Reader.reference.read ⟨offset, '&' :: rest⟩ =
                .ok (chunk, stop)
            · obtain ⟨chunk, stop, reads⟩ := reads
              have shorter := Reader.Advances.reference _ _ _ reads
              obtain ⟨taken, equal, -, takes⟩ := Reader.takes_of_read reads
              obtain ⟨chunk', same, takes'⟩ := takes.reference_moved offset'
              dsimp only at equal shorter takes
              rw [equal, Chunk.split_reference takes, Chunk.split_reference takes', List.map_cons,
                List.map_cons, same, ih _ shorter _ _ stop.rest rfl]
            · have fails : ∀ chunk stop, Reader.reference.read ⟨offset, '&' :: rest⟩ ≠
                  .ok (chunk, stop) := fun chunk stop success => reads ⟨chunk, stop, success⟩
              have fails' : ∀ chunk stop, Reader.reference.read ⟨offset', '&' :: rest⟩ ≠
                  .ok (chunk, stop) := by
                intro chunk stop success
                obtain ⟨taken, equal, -, takes⟩ := Reader.takes_of_read success
                obtain ⟨chunk', -, takes'⟩ := takes.reference_moved offset
                dsimp only at equal takes'
                rw [Reader.Takes, ← equal] at takes'
                exact fails _ _ takes'
              rw [Chunk.split_malformed fails, Chunk.split_malformed fails']
              rfl
          · rw [Chunk.split_literal plain, Chunk.split_literal plain, List.map_cons, List.map_cons,
              ih rest.length (by simp) _ _ rest rfl]

/-- Whether a literal character comes first does not depend on places. -/
theorem Chunk.head?_eq_literal_iff {chunks : List Chunk} {c : Char} :
    chunks.head? = some (.literal c) ↔
      (chunks.map Chunk.unplaced).head? = some (.literal c) := by
  cases chunks with
  | nil => simp
  | cons chunk rest => cases chunk <;> simp [Chunk.unplaced]

section
variable {entities : Entities} {outermost : Bool}

/-- What chunks stand for does not depend on their places. -/
theorem ValueState.extend_moved
    {follow : Nat → Cursor → ValueState → Except Failure ValueState}
    (steady : ∀ stop stop' replacement state result,
      follow stop replacement state = .ok result → follow stop' replacement state = .ok result)
    {chunks chunks' : List Chunk} (same : chunks.map Chunk.unplaced = chunks'.map Chunk.unplaced)
    {state result : ValueState}
    (success : ValueState.extend entities outermost follow chunks state = .ok result) :
    ValueState.extend entities outermost follow chunks' state = .ok result := by
  induction chunks generalizing chunks' state with
  | nil =>
      obtain rfl := List.map_eq_nil_iff.mp same.symm
      exact success
  | cons chunk rest ih =>
      cases chunks' with
      | nil => cases same
      | cons chunk' rest' =>
          obtain ⟨first, later⟩ := List.cons.inj same
          cases chunk <;> cases chunk' <;> cases first
          case cons.cons.literal.literal.refl c =>
            have head : rest'.head? = some (.literal '\n') ↔ rest.head? = some (.literal '\n') := by
              refine Chunk.head?_eq_literal_iff.trans (Iff.trans ?_ Chunk.head?_eq_literal_iff.symm)
              rw [later]
            simp only [ValueState.extend, head] at success ⊢
            split at success
            · rename_i dropped
              rw [if_pos dropped]
              exact ih later success
            · rename_i kept
              rw [if_neg kept]
              exact ih later success
          case cons.cons.character.character.refl c start start' =>
            simp only [ValueState.extend] at success ⊢
            split at success
            · rename_i unchanged
              rw [if_pos unchanged]
              exact ih later success
            · rename_i inside
              split at success
              · cases success
              · rename_i other
                rw [if_neg inside, if_neg other]
                exact ih later success
          case cons.cons.entity.entity.refl name start stop start' stop' =>
            simp only [ValueState.extend] at success ⊢
            split at success
            · cases success
            · rename_i replacement found
              split at success
              · cases success
              · rename_i followed goesOn
                rw [steady _ stop' _ _ _ goesOn]
                exact ih later success
          case cons.cons.malformed.malformed.refl start start' => cases success

theorem countReference_moved {room stop references result : Nat} (stop' : Nat)
    (success : countReference room stop references = .ok result) :
    countReference room stop' references = .ok result := by
  rw [countReference] at success ⊢
  split at success
  · rename_i outer
    rw [if_pos outer]
    exact success
  · rename_i inner
    split at success
    · cases success
    · rename_i more
      rw [if_neg inner, if_neg more]
      exact success

theorem ValueState.follow_moved {room stop : Nat} (stop' : Nat) {replacement : Cursor}
    {state result : ValueState}
    (success : ValueState.follow entities room stop replacement state = .ok result) :
    ValueState.follow entities room stop' replacement state = .ok result := by
  cases room with
  | zero => cases success
  | succ room =>
      rw [ValueState.follow] at success ⊢
      dsimp only at success ⊢
      cases counted : countReference (room + 1) stop state.references with
      | error failure =>
          rw [counted] at success
          cases success
      | ok references =>
          rw [counted] at success
          rw [countReference_moved stop' counted]
          exact success

/-- A written value has the same value at every offset. -/
theorem normalizeValue_moved {room references : Nat} {offset : Nat} (offset' : Nat)
    {text : List Char} {result : String × Nat}
    (success : normalizeValue entities room references ⟨offset, text⟩ = .ok result) :
    normalizeValue entities room references ⟨offset', text⟩ = .ok result := by
  rw [normalizeValue] at success ⊢
  cases extended : ValueState.extend entities (isOutermost room)
      (ValueState.follow entities room) (Chunk.split ⟨offset, text⟩) ⟨[], references⟩ with
  | error failure =>
      rw [extended] at success
      cases success
  | ok state =>
      rw [extended] at success
      have steady (stop stop' : Nat) (replacement : Cursor) (state result : ValueState) :=
        @ValueState.follow_moved entities room stop stop' replacement state result
      rw [ValueState.extend_moved steady (Chunk.split_moved offset offset' text) extended]
      exact success

end

end RunSigning.Markup
