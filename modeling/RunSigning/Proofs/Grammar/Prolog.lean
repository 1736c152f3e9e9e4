import RunSigning.Proofs.Grammar.Content
import RunSigning.Proofs.Grammar.Locality

/-
This file describes what stands before the root element. The scanner passes it step by step, and
passes it in the same way if the root tag goes on differently.
-/

namespace RunSigning.Markup
open RunSigning.Text

/-- The modes before the root element. -/
def Mode.isOutside : Mode → Bool
  | .prolog => true
  | .preamble => true
  | .subset _ => true
  | _ => false

/-- The text of one cursor is a part of the text of another, at its offset. -/
def Cursor.Within (inner outer : Cursor) : Prop :=
  ∃ before after, outer.rest = before ++ (inner.rest ++ after) ∧
    inner.offset = outer.offset + byteLength before

theorem Cursor.Within.trans {first second third : Cursor} (one : first.Within second)
    (two : second.Within third) : first.Within third := by
  obtain ⟨before, after, rest, offset⟩ := one
  obtain ⟨before', after', rest', offset'⟩ := two
  refine ⟨before' ++ before, after ++ after', by simp [rest, rest'], ?_⟩
  rw [offset, offset', byteLength_append, Nat.add_assoc]

/-- A step before the root element, up to its tag. -/
inductive OutsideStep (offset : Nat) (taken : List Char) : Mode → List Token × Mode → Prop where
  | blanks (mode : Mode) : OutsideStep offset taken mode ([], mode)
  | aside (mode : Mode) (source : AsideSource) :
      OutsideStep offset taken mode ([source.token], mode)
  | doctype (next : Mode) (outside : next.isOutside = true) :
      OutsideStep offset taken .prolog ([.doctype], next)
  | entity (doctypeStart : Nat) (tokens : List Token)
      (declares : ∀ token ∈ tokens, ∃ name replacement, token = .entity name replacement ∧
        replacement.Within ⟨offset, taken⟩ ∧
        replacement.offset + byteLength replacement.rest < offset + byteLength taken) :
      OutsideStep offset taken (.subset doctypeStart) (tokens, .subset doctypeStart)
  | subsetEnd (doctypeStart : Nat) :
      OutsideStep offset taken (.subset doctypeStart) ([], .preamble)

namespace Reader

variable {offset : Nat} {taken rest : List Char}

theorem Takes.aside_of_comment {value : Token} (takes : comment.Takes offset taken rest value) :
    ∃ source : AsideSource, source.render = taken ∧ source.token = value := by
  have anywhere := takes.comment_anywhere
  obtain ⟨text, -, -, -, -, rfl⟩ := takes_comment_iff.mp takes
  exact ⟨.comment _ _ anywhere, rfl, rfl⟩

theorem Takes.aside_of_instruction {value : Token}
    (takes : instruction.Takes offset taken rest value) :
    ∃ source : AsideSource, source.render = taken ∧ source.token = value := by
  have anywhere := takes.instruction_anywhere
  obtain ⟨target, gap, data, -, -, -, -, -, -, -, -, -, rfl⟩ := takes_instruction_iff.mp takes
  exact ⟨.instruction _ _ _ anywhere, rfl, rfl⟩

/-- A quoted text stands between two quotes. -/
theorem Takes.quoted_eq {value : List Char} (takes : quoted.Takes offset taken rest value) :
    ∃ delimiter, delimiter.utf8Size = 1 ∧ taken = delimiter :: (value ++ [delimiter]) := by
  simp only [quoted, takes_quote_bind_iff, takes_takeWhile_bind_iff, takes_byte_bind_iff,
    takes_pure_iff] at takes
  obtain ⟨delimiter, _, rfl, fits, text, _, rfl, -, -, _, rfl, rfl, rfl⟩ := takes
  exact ⟨delimiter, by rcases fits with rfl | rfl <;> rfl, rfl⟩

/-- A declared replacement text stands in its definition and ends before its closing quote. -/
theorem Takes.definition_ends {isParameter : Bool} {replacement : Cursor}
    (takes : (definition isParameter).Takes offset taken rest (some replacement)) :
    replacement.Within ⟨offset, taken⟩ ∧
      replacement.offset + byteLength replacement.rest < offset + byteLength taken := by
  rw [definition, takes_bind_iff] at takes
  obtain ⟨_, _, after, rfl, looks, takes⟩ := takes
  obtain ⟨rfl, rfl⟩ := takes_cursor_iff.mp looks
  split at takes
  · exact absurd takes not_takes_fail
  split at takes
  · rw [takes_offset_bind_iff, takes_bind_iff] at takes
    obtain ⟨text, before, after, rfl, reads, ends⟩ := takes
    obtain ⟨rfl, equal⟩ := takes_pure_iff.mp ends
    cases equal
    obtain ⟨delimiter, size, rfl⟩ := reads.quoted_eq
    exact ⟨⟨[delimiter], [delimiter], by simp, by simp [size]⟩, by simp [size]; omega⟩
  split at takes
  · simp only [takes_bind_iff, takes_pure_iff] at takes
    obtain ⟨_, _, _, -, -, _, _, _, -, -, _, _, _, -, -, -, equal⟩ := takes
    cases equal
  · exact absurd takes not_takes_fail

/-- Every entity that is declared stands in its declaration and ends before that does. -/
theorem Takes.entity_declares {tokens : List Token}
    (takes : entity.Takes offset taken rest tokens) :
    ∀ token ∈ tokens, ∃ name replacement, token = .entity name replacement ∧
      replacement.Within ⟨offset, taken⟩ ∧
      replacement.offset + byteLength replacement.rest < offset + byteLength taken := by
  rw [entity, takes_literal_bind_iff] at takes
  obtain ⟨_, rfl, takes⟩ := takes
  obtain ⟨_, spaces, _, rfl, -, takes⟩ := takes_bind_iff.mp takes
  rw [takes_sees_bind_iff] at takes
  obtain ⟨_, mark, _, rfl, -, takes⟩ := takes_bind_iff.mp takes
  obtain ⟨entityName, name, _, rfl, -, takes⟩ := takes_bind_iff.mp takes
  obtain ⟨_, gap, _, rfl, -, takes⟩ := takes_bind_iff.mp takes
  obtain ⟨replacement?, body, _, rfl, defines, takes⟩ := takes_bind_iff.mp takes
  simp only [takes_spaces_bind_iff, takes_byte_bind_iff, takes_pure_iff] at takes
  obtain ⟨last, _, rfl, -, -, _, rfl, rfl, rfl⟩ := takes
  intro token member
  cases replacement? with
  | none => cases member
  | some replacement =>
      obtain rfl := List.mem_singleton.mp member
      obtain ⟨within, ends⟩ := defines.definition_ends
      refine ⟨entityName, replacement, rfl, ?_, ?_⟩
      · refine within.trans ⟨"<!ENTITY".toList ++ (spaces ++ (mark ++ (name ++ gap))),
          last ++ ['>'], by simp, ?_⟩
        simp only [byteLength_append]
        omega
      · simp only [byteLength_append] at ends ⊢
        omega

theorem Takes.prologStep {mode : Mode} {value : List Token × Mode}
    (takes : (prologStep mode).Takes offset taken rest value) :
    OutsideStep offset taken mode value ∨ ∃ written : WrittenName, taken = '<' :: written.run ∧
      value = ([.tagName written.name offset], .tag 0) := by
  rw [Reader.prologStep, takes_seesSpace_bind_iff] at takes
  split at takes
  · simp only [takes_bind_iff, takes_pure_iff] at takes
    obtain ⟨_, _, _, -, -, -, rfl⟩ := takes
    exact .inl (.blanks mode)
  rw [takes_sees_bind_iff] at takes
  split at takes
  · obtain ⟨token, reads, rfl⟩ := takes_token_iff.mp takes
    obtain ⟨source, -, rfl⟩ := reads.aside_of_comment
    exact .inl (.aside mode source)
  rw [takes_sees_bind_iff] at takes
  split at takes
  · obtain ⟨token, reads, rfl⟩ := takes_token_iff.mp takes
    obtain ⟨source, -, rfl⟩ := reads.aside_of_instruction
    exact .inl (.aside mode source)
  rw [takes_sees_bind_iff] at takes
  split at takes
  · rename_i doctype
    simp only [Bool.and_eq_true, beq_iff_eq] at doctype
    obtain ⟨rfl, -⟩ := doctype
    rw [takes_offset_bind_iff, takes_bind_iff] at takes
    obtain ⟨hasSubset, _, _, rfl, -, gives⟩ := takes
    obtain ⟨-, rfl⟩ := takes_pure_iff.mp gives
    cases hasSubset <;> exact .inl (.doctype _ rfl)
  rw [takes_sees_bind_iff] at takes
  split at takes
  · obtain ⟨token, reads, rfl⟩ := takes_token_iff.mp takes
    obtain ⟨written, rfl, rfl, -⟩ := takes_startTag_iff.mp reads
    exact .inr ⟨written, rfl, rfl⟩
  · exact absurd takes not_takes_fail

theorem Takes.subsetStep {doctypeStart : Nat} {value : List Token × Mode}
    (takes : (subsetStep doctypeStart).Takes offset taken rest value) :
    OutsideStep offset taken (.subset doctypeStart) value := by
  have skipped {keyword : String} (takes : (do
      skippedDeclaration doctypeStart keyword
      return ([], .subset doctypeStart) : Reader (List Token × Mode)).Takes offset taken rest
        value) : OutsideStep offset taken (.subset doctypeStart) value := by
    obtain ⟨_, _, _, rfl, -, gives⟩ := takes_bind_iff.mp takes
    obtain ⟨-, rfl⟩ := takes_pure_iff.mp gives
    exact .blanks _
  rw [Reader.subsetStep, takes_seesSpace_bind_iff] at takes
  split at takes
  · simp only [takes_bind_iff, takes_pure_iff] at takes
    obtain ⟨_, _, _, -, -, _, _, _, -, -, _, _, _, -, -, -, rfl⟩ := takes
    exact .blanks _
  rw [takes_sees_bind_iff] at takes
  split at takes
  · obtain ⟨tokens, before, after, rfl, reads, gives⟩ := takes_bind_iff.mp takes
    obtain ⟨rfl, rfl⟩ := takes_pure_iff.mp gives
    rw [List.append_nil]
    exact .entity doctypeStart tokens reads.entity_declares
  rw [takes_sees_bind_iff] at takes
  split at takes
  · obtain ⟨token, reads, rfl⟩ := takes_token_iff.mp takes
    obtain ⟨source, -, rfl⟩ := reads.aside_of_comment
    exact .aside _ source
  rw [takes_sees_bind_iff] at takes
  split at takes
  · obtain ⟨token, reads, rfl⟩ := takes_token_iff.mp takes
    obtain ⟨source, -, rfl⟩ := reads.aside_of_instruction
    exact .aside _ source
  rw [takes_sees_bind_iff] at takes
  split at takes
  · obtain ⟨_, _, _, rfl, -, gives⟩ := takes_bind_iff.mp takes
    obtain ⟨-, rfl⟩ := takes_pure_iff.mp gives
    exact .subsetEnd doctypeStart
  rw [takes_sees_bind_iff] at takes
  split at takes
  · exact skipped takes
  rw [takes_sees_bind_iff] at takes
  split at takes
  · exact skipped takes
  rw [takes_sees_bind_iff] at takes
  split at takes
  · exact skipped takes
  · exact absurd takes not_takes_fail

/-- A step before the root element passes something or begins the root tag. -/
theorem Takes.outsideStep {mode : Mode} (outside : mode.isOutside = true)
    {value : List Token × Mode} (takes : mode.step.Takes offset taken rest value) :
    OutsideStep offset taken mode value ∨
      ((∀ start, mode ≠ .subset start) ∧ ∃ written : WrittenName, taken = '<' :: written.run ∧
        value = ([.tagName written.name offset], .tag 0)) := by
  cases mode with
  | prolog => exact takes.prologStep.imp id fun begins => ⟨by simp, begins⟩
  | preamble => exact takes.prologStep.imp id fun begins => ⟨by simp, begins⟩
  | subset start => exact .inl takes.subsetStep
  | tag level => cases outside
  | content level => cases outside
  | epilog => cases outside

/-- The root tag begins where the prolog lets it begin. -/
theorem takes_prologStep_startTag (mode : Mode) (written : WrittenName)
    (ends : ∀ c ∈ rest.head?, isNameCharacter c = false) :
    (prologStep mode).Takes offset ('<' :: written.run) rest
      ([.tagName written.name offset], .tag 0) := by
  obtain ⟨c, run, equal, start⟩ := written.exists_cons
  have bang : '!' ≠ c := by rintro rfl; cases start
  have mark : '?' ≠ c := by rintro rfl; cases start
  rw [Reader.prologStep, takes_seesSpace_bind_iff, if_neg (by simp; decide), takes_sees_bind_iff,
    if_neg (by simp [equal, startsWith, strip?, bang]), takes_sees_bind_iff,
    if_neg (by simp [equal, startsWith, strip?, mark]), takes_sees_bind_iff,
    if_neg (by simp [equal, startsWith, strip?, bang]), takes_sees_bind_iff,
    if_pos (by simp [startsWith, strip?])]
  exact takes_token_iff.mpr ⟨_, takes_startTag_iff.mpr ⟨written, rfl, rfl, ends⟩, rfl⟩

theorem Local.step {mode : Mode} (outside : mode.isOutside = true) : mode.step.Local := by
  cases mode with
  | prolog => exact .prologStep _
  | preamble => exact .prologStep _
  | subset start => exact .subsetStep _
  | tag level => cases outside
  | content level => cases outside
  | epilog => cases outside

end Reader

/-- The scanner passes text before the root element. -/
inductive Passes (rest : List Char) : Mode → Nat → List Char → List Token → Mode → Prop where
  | stay (mode : Mode) (offset : Nat) : Passes rest mode offset [] [] mode
  | step {mode next final : Mode} {offset : Nat} {taken more : List Char}
      {tokens later : List Token} (outside : mode.isOutside = true)
      (takes : mode.step.Takes offset taken (more ++ rest) (tokens, next))
      (goesOn : Passes rest next (offset + byteLength taken) more later final) :
      Passes rest mode offset (taken ++ more) (tokens ++ later) final

namespace Passes

variable {rest : List Char} {mode final : Mode} {offset : Nat} {taken : List Char}
  {tokens : List Token}

theorem run (passes : Passes rest mode offset taken tokens final) :
    Scan.run .document mode ⟨offset, taken ++ rest⟩ =
      (Scan.run .document final ⟨offset + byteLength taken, rest⟩).prepend tokens := by
  induction passes with
  | stay mode offset => rfl
  | step outside takes goesOn ih =>
      rw [List.append_assoc, Scan.run_of_takes (Extent.stopsIn_document _) takes, ih,
        Scan.prepend_prepend, byteLength_append, Nat.add_assoc]

/-- The same text is passed before another root tag with the same first letter. -/
theorem moved {n : Char} {body : List Char} (named : isNameStart n = true)
    (passes : Passes ('<' :: n :: body) mode offset taken tokens final) (body' : List Char) :
    Passes ('<' :: n :: body') mode offset taken tokens final := by
  induction passes with
  | stay mode offset => exact .stay mode offset
  | step outside takes goesOn ih =>
      exact .step outside (Reader.Local.step outside _ _ _ _ _ body' _ named takes) ih

end Passes

/-- The tokens that may stand outside the root element. -/
inductive Token.IsOutside : Token → Prop where
  | doctype : IsOutside .doctype
  | entity (name : String) (replacement : Cursor) : IsOutside (.entity name replacement)
  | aside (source : AsideSource) : IsOutside source.token

/-- The entity that a token declares. -/
def Token.entity? : Token → Option (String × Cursor)
  | .entity name replacement => some (name, replacement)
  | _ => none

/-- The node that a token outside the root element adds. -/
def Token.node? : Token → Option Node
  | .comment content => some (.comment content)
  | .instruction target data => some (.instruction target data)
  | _ => none

section
variable {mode : Mode} {offset : Nat} {taken : List Char} {value : List Token × Mode}

theorem OutsideStep.tokens_outside (passed : OutsideStep offset taken mode value) :
    ∀ token ∈ value.1, token.IsOutside := by
  intro token member
  cases passed with
  | blanks mode => cases member
  | aside mode source =>
      obtain rfl := List.mem_singleton.mp member
      exact .aside source
  | doctype next outside =>
      obtain rfl := List.mem_singleton.mp member
      exact .doctype
  | entity start tokens declares =>
      obtain ⟨name, replacement, rfl, -⟩ := declares token member
      exact .entity name replacement
  | subsetEnd start => cases member

theorem OutsideStep.entities_before (passed : OutsideStep offset taken mode value) :
    ∀ pair ∈ value.1.filterMap Token.entity?,
      pair.2.offset + byteLength pair.2.rest < offset + byteLength taken := by
  intro pair member
  obtain ⟨token, held, names⟩ := List.mem_filterMap.mp member
  cases passed with
  | blanks mode => cases held
  | aside mode source =>
      obtain rfl := List.mem_singleton.mp held
      cases source <;> cases names
  | doctype next outside =>
      obtain rfl := List.mem_singleton.mp held
      cases names
  | entity start tokens declares =>
      obtain ⟨name, replacement, rfl, -, ends⟩ := declares token held
      cases names
      exact ends
  | subsetEnd start => cases held

theorem OutsideStep.next_outside (passed : OutsideStep offset taken mode value)
    (outside : mode.isOutside = true) : value.2.isOutside = true := by
  cases passed with
  | blanks mode => exact outside
  | aside mode source => exact outside
  | doctype next outside' => exact outside'
  | entity start tokens declares => rfl
  | subsetEnd start => rfl

/-- Without a document type declaration nothing is declared. -/
theorem OutsideStep.plain (passed : OutsideStep offset taken mode value)
    (plain : ∀ start, mode ≠ .subset start) (undeclared : .doctype ∉ value.1) :
    (∀ start, value.2 ≠ .subset start) ∧ value.1.filterMap Token.entity? = [] := by
  cases passed with
  | blanks mode => exact ⟨plain, rfl⟩
  | aside mode source => exact ⟨plain, by cases source <;> rfl⟩
  | doctype next outside => exact absurd List.mem_cons_self undeclared
  | entity start tokens declares => exact absurd rfl (plain start)
  | subsetEnd start => exact absurd rfl (plain start)

end

/-- The scanner passes text from one mode to another, and all it finds stands outside the root
element. -/
structure PassesOutside (rest : List Char) (mode : Mode) (offset : Nat) (taken : List Char)
    (tokens : List Token) (final : Mode) : Prop where
  passes : Passes rest mode offset taken tokens final
  outside : ∀ token ∈ tokens, token.IsOutside
  before : ∀ pair ∈ tokens.filterMap Token.entity?,
    pair.2.offset + byteLength pair.2.rest < offset + byteLength taken
  plain : (∀ start, mode ≠ .subset start) → .doctype ∉ tokens →
    tokens.filterMap Token.entity? = []

theorem PassesOutside.stay (rest : List Char) (mode : Mode) (offset : Nat) :
    PassesOutside rest mode offset [] [] mode :=
  ⟨.stay mode offset, by simp, by simp, fun _ _ => rfl⟩

theorem PassesOutside.step {rest : List Char} {mode next final : Mode} {offset : Nat}
    {taken more : List Char} {tokens later : List Token} (outside : mode.isOutside = true)
    (takes : mode.step.Takes offset taken (more ++ rest) (tokens, next))
    (passed : OutsideStep offset taken mode (tokens, next))
    (goesOn : PassesOutside rest next (offset + byteLength taken) more later final) :
    PassesOutside rest mode offset (taken ++ more) (tokens ++ later) final where
  passes := .step outside takes goesOn.passes
  outside := List.forall_mem_append.mpr ⟨passed.tokens_outside, goesOn.outside⟩
  before := by
    rw [List.filterMap_append, List.forall_mem_append]
    refine ⟨?_, ?_⟩
    · intro pair member
      have := passed.entities_before pair member
      simp only [byteLength_append]
      omega
    · intro pair member
      have := goesOn.before pair member
      simp only [byteLength_append]
      omega
  plain := by
    intro plain undeclared
    rw [List.mem_append, not_or] at undeclared
    obtain ⟨plain', first⟩ := passed.plain plain undeclared.1
    rw [List.filterMap_append, first, goesOn.plain plain' undeclared.2]
    rfl

/-- A scan from before the root element comes to a root tag or ends without one. -/
theorem exists_passesOutside {mode : Mode} {offset : Nat} {text : List Char}
    {tokens : List Token} (outside : mode.isOutside = true)
    (success : Scan.run .document mode ⟨offset, text⟩ = ⟨tokens, none⟩) :
    (∀ token ∈ tokens, token.IsOutside) ∨
      ∃ taken written rest first later final,
        text = taken ++ '<' :: (written : WrittenName).run ++ rest ∧
        PassesOutside ('<' :: written.run ++ rest) mode offset taken first final ∧
        (final = .prolog ∨ final = .preamble) ∧
        tokens = first ++ .tagName written.name (offset + byteLength taken) :: later ∧
        Scan.run .document (.tag 0)
          ⟨offset + byteLength taken + byteLength ('<' :: written.run), rest⟩ = ⟨later, none⟩ := by
  induction length : text.length using Nat.strongRecOn generalizing mode offset text tokens with
  | ind length ih =>
      subst length
      by_cases filled : text = []
      · subst filled
        rw [Scan.run] at success
        cases success
        exact .inl (by simp)
      obtain ⟨taken, rest, first, next, later, rfl, shorter, takes, rfl, goesOn⟩ :=
        Scan.takes_of_run filled success
      rcases takes.outsideStep outside with passed | ⟨plain, written, rfl, equal⟩
      · rcases ih _ shorter (passed.next_outside outside) goesOn rfl with ends |
          ⟨more, written, body, middle, last, final, rfl, passes, place, rfl, tag⟩
        · exact .inl (List.forall_mem_append.mpr ⟨passed.tokens_outside, ends⟩)
        · refine .inr ⟨taken ++ more, written, body, first ++ middle, last, final, by simp, ?_,
            place, ?_, ?_⟩
          · exact .step outside (by simpa using takes) passed passes
          · simp [Nat.add_assoc]
          · simpa [Nat.add_assoc] using tag
      · cases equal
        refine .inr ⟨[], written, rest, [], later, mode, rfl, .stay _ _ _, ?_, rfl, goesOn⟩
        cases mode with
        | prolog => exact .inl rfl
        | preamble => exact .inr rfl
        | subset start => exact absurd rfl (plain start)
        | tag level => cases outside
        | content level => cases outside
        | epilog => cases outside

end RunSigning.Markup
