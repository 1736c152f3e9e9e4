import RunSigning.Markup.Escape
import RunSigning.Proofs.Meaning.Value

/-
This file says that an escaped text reads back as the text. It also says which escaped texts may
stand between quotes.
-/

namespace RunSigning.Markup
open RunSigning.Text

/-- A character that is written as itself between the given quotes. -/
structure IsPlain (quote c : Char) : Prop where
  unreferenced : c ≠ '&'
  unbracketed : c ≠ '<'
  unquoted : quote = '\'' ∨ quote = '"' → c ≠ quote
  unblank : c ≠ '\t' ∧ c ≠ '\n' ∧ c ≠ '\r'

/-- A character that is written as a reference to it. -/
structure IsReferenced (c : Char) (written : List Char) : Prop where
  allowed : isAllowed c = true
  fits : ∀ d ∈ written, isAllowed d = true ∧ d ≠ '\'' ∧ d ≠ '"' ∧ d ≠ '<'
  reads : ∀ offset, Reader.ReferenceRun offset written (.character c offset)

/-- A character is written as itself or as a reference to it. -/
theorem escapeCharacter_reads (quote c : Char) :
    escapeCharacter quote c = [c] ∧ IsPlain quote c ∨
      IsReferenced c (escapeCharacter quote c) := by
  have named {name : String} (known : predefined? name = some c)
      (begins : beginsLikeName name.toList = true)
      (nameCharacters : ∀ d ∈ name.toList, isNameCharacter d = true) (offset : Nat) :
      Reader.ReferenceRun offset ('&' :: (name.toList ++ [';'])) (.character c offset) :=
    .predefined _ c ⟨begins, nameCharacters⟩ (by rwa [String.ofList_toList])
  have coded (digit : Char) (counted : isHexadecimalDigit digit = true)
      (names : characterOfDigits? 16 [digit] = some c) (offset : Nat) :
      Reader.ReferenceRun offset ('&' :: '#' :: 'x' :: ([digit] ++ [';'])) (.character c offset) :=
    .hexadecimal _ c (by simpa using counted) names
  unfold escapeCharacter
  split
  · rename_i equal
    subst equal
    exact .inr ⟨by decide, by decide, @named "amp" rfl (by decide) (by decide)⟩
  rename_i unreferenced
  split
  · rename_i equal
    subst equal
    exact .inr ⟨by decide, by decide, @named "lt" rfl (by decide) (by decide)⟩
  rename_i unbracketed
  split
  · rename_i equal
    obtain ⟨rfl, -⟩ := equal
    exact .inr ⟨by decide, by decide, @named "quot" rfl (by decide) (by decide)⟩
  rename_i notDouble
  split
  · rename_i equal
    obtain ⟨rfl, -⟩ := equal
    exact .inr ⟨by decide, by decide, @named "apos" rfl (by decide) (by decide)⟩
  rename_i notSingle
  split
  · rename_i equal
    subst equal
    exact .inr ⟨by decide, by decide, coded '9' (by decide) (by decide)⟩
  rename_i notTab
  split
  · rename_i equal
    subst equal
    exact .inr ⟨by decide, by decide, coded 'A' (by decide) (by decide)⟩
  rename_i notFeed
  split
  · rename_i equal
    subst equal
    exact .inr ⟨by decide, by decide, coded 'D' (by decide) (by decide)⟩
  rename_i notReturn
  refine .inl ⟨rfl, unreferenced, unbracketed, ?_, notTab, notFeed, notReturn⟩
  rintro (rfl | rfl) rfl
  · exact notSingle ⟨rfl, rfl⟩
  · exact notDouble ⟨rfl, rfl⟩

/-- The chunks of an escaped text stand for its characters. -/
theorem ValueState.extend_escape {entities : Entities}
    {follow : Nat → Cursor → ValueState → Except Failure ValueState} (quote : Char)
    (text : List Char) (offset : Nat) (state : ValueState) :
    ValueState.extend entities true follow (Chunk.split ⟨offset, escape quote text⟩) state =
      .ok { state with text := text.reverse ++ state.text } := by
  induction text generalizing offset state with
  | nil => simp [ValueState.extend]
  | cons c text ih =>
      rw [escape_cons]
      rcases escapeCharacter_reads quote c with ⟨equal, plain⟩ | ⟨-, -, reads⟩
      · have shown : blankToSpace c = c := by simp [blankToSpace, plain.unblank]
        rw [equal, List.singleton_append, Chunk.split_literal plain.unreferenced,
          ValueState.extend, if_neg (by simp [plain.unblank]), ih, shown]
        simp [ValueState.push]
      · rw [Chunk.split_reference (Reader.takes_reference_iff.mpr (reads offset)),
          ValueState.extend, if_pos rfl, ih]
        simp [ValueState.push]

/-- An escaped value reads back as the value. -/
theorem normalizeValue_escape (entities : Entities) (references offset : Nat) (quote : Char)
    (text : List Char) :
    normalizeValue entities nestingLimit references ⟨offset, escape quote text⟩ =
      .ok (String.ofList text, references) := by
  rw [normalizeValue, show isOutermost nestingLimit = true from rfl, ValueState.extend_escape]
  simp [bind, Except.bind, pure, Except.pure]

/-- An escaped text may stand between its quotes if a document may hold its characters. -/
theorem escape_fits {quote : Char} (fits : quote = '\'' ∨ quote = '"') {text : List Char}
    (allowed : ∀ c ∈ text, isAllowed c = true) :
    ∀ c ∈ escape quote text, isAllowed c = true ∧ c ≠ quote ∧ c ≠ '<' := by
  intro c member
  obtain ⟨d, held, written⟩ := List.mem_flatMap.mp member
  rcases escapeCharacter_reads quote d with ⟨equal, plain⟩ | referenced
  · rw [equal] at written
    obtain rfl := List.mem_singleton.mp written
    exact ⟨allowed c held, plain.unquoted fits, plain.unbracketed⟩
  · obtain ⟨shown, notSingle, notDouble, unbracketed⟩ := referenced.fits c written
    refine ⟨shown, ?_, unbracketed⟩
    rcases fits with rfl | rfl
    · exact notSingle
    · exact notDouble

/-- No bracket stays in an escaped text. -/
theorem not_mem_escape (quote : Char) (text : List Char) : '<' ∉ escape quote text := by
  intro member
  obtain ⟨c, -, written⟩ := List.mem_flatMap.mp member
  rcases escapeCharacter_reads quote c with ⟨equal, plain⟩ | referenced
  · rw [equal] at written
    exact plain.unbracketed (List.mem_singleton.mp written).symm
  · exact (referenced.fits '<' written).2.2.2 rfl

/-- What a document may not hold stays in an escaped text. -/
theorem mem_escape_of_not_allowed {quote c : Char} {text : List Char} (member : c ∈ text)
    (forbidden : isAllowed c = false) : c ∈ escape quote text := by
  refine List.mem_flatMap.mpr ⟨c, member, ?_⟩
  rcases escapeCharacter_reads quote c with ⟨equal, -⟩ | referenced
  · rw [equal]
    exact List.mem_singleton_self c
  · rw [referenced.allowed] at forbidden
    cases forbidden

end RunSigning.Markup
