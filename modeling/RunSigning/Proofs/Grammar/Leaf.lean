import Mathlib.Data.List.Basic
import RunSigning.Markup.Node
import RunSigning.Proofs.Grammar.Tag

/-
This file describes what stands between tags as it is written: comments, instructions, marked
sections and runs of text. All but text end with a bracket of their own, so they are read in the
same way whatever follows them.
-/

namespace RunSigning.Text

theorem startsWith_iff {start text : List Char} :
    startsWith start text = true ↔ ∃ rest, text = start ++ rest := by
  rw [startsWith, Option.isSome_iff_exists]
  simp only [strip?_eq_some_iff]

/-- A text that is long enough decides alone what it starts with. -/
theorem startsWith_append_of_length_le {start text : List Char} (rest : List Char)
    (long : start.length ≤ text.length) :
    startsWith start (text ++ rest) = startsWith start text := by
  induction start generalizing text with
  | nil => rfl
  | cons c start ih =>
      cases text with
      | nil => simp at long
      | cons d text =>
          by_cases same : c = d
          · simpa [startsWith, strip?, same] using ih (by simpa using long)
          · simp [startsWith, strip?, same]

/-- A text decides alone what it starts with if it holds a character that the start lacks. -/
theorem startsWith_append_of_mem {start text : List Char} (rest : List Char) {c : Char}
    (held : c ∈ text) (lacking : c ∉ start) :
    startsWith start (text ++ rest) = startsWith start text := by
  induction start generalizing text with
  | nil => rfl
  | cons d start ih =>
      cases text with
      | nil => cases held
      | cons e text =>
          by_cases same : d = e
          · subst same
            have later : c ∈ text := by
              rcases List.mem_cons.mp held with rfl | later
              · exact absurd (List.mem_cons_self ..) lacking
              · exact later
            simpa [startsWith, strip?] using
              ih later fun inside => lacking (List.mem_cons_of_mem d inside)
          · simp [startsWith, strip?, same]

/-- Where a text breaks at its closing mark does not depend on what follows the mark. -/
theorem breakAt_startsWith_closed {close text : List Char} {rest : List Char}
    (other : List Char) (broken : breakAt (startsWith close) (text ++ (close ++ rest)) =
      (text, close ++ rest)) :
    breakAt (startsWith close) (text ++ (close ++ other)) = (text, close ++ other) := by
  rw [breakAt_eq_iff] at broken ⊢
  refine ⟨rfl, ?_, fun _ => startsWith_iff.mpr ⟨other, rfl⟩⟩
  intro before after filled equal
  have open' := broken.2.1 before after filled equal
  rw [← List.append_assoc, startsWith_append_of_length_le _ (by simp)] at open' ⊢
  exact open'

end RunSigning.Text

namespace RunSigning.Markup
open RunSigning.Text

namespace Reader

variable {offset : Nat} {taken rest : List Char}

theorem takes_comment_iff {value : Token} :
    comment.Takes offset taken rest value ↔
      ∃ text, taken = "<!--".toList ++ (text ++ "-->".toList) ∧
        (∀ c ∈ text, isAllowed c = true) ∧
        breakAt (startsWith "-->".toList) (text ++ ("-->".toList ++ rest)) =
          (text, "-->".toList ++ rest) ∧
        (occurs "--".toList text || text.getLast? == some '-') = false ∧
        value = .comment (String.ofList text) := by
  simp only [comment, takes_offset_bind_iff, takes_literal_bind_iff, takes_characters_bind_iff,
    takes_refuseAt_bind_iff, takes_pure_iff]
  constructor
  · rintro ⟨_, rfl, text, _, rfl, allowed, broken, _, rfl, fine, rfl, rfl⟩
    exact ⟨text, by simp, allowed, by simpa using broken, fine, rfl⟩
  · rintro ⟨text, rfl, allowed, broken, fine, rfl⟩
    exact ⟨_, rfl, text, "-->".toList, rfl, allowed, broken, [], by simp, fine, rfl, rfl⟩

/-- A comment is read in the same way wherever it stands. -/
theorem Takes.comment_anywhere {value : Token} (takes : comment.Takes offset taken rest value)
    (offset' : Nat) (rest' : List Char) : comment.Takes offset' taken rest' value := by
  obtain ⟨text, rfl, allowed, broken, fine, rfl⟩ := takes_comment_iff.mp takes
  exact takes_comment_iff.mpr
    ⟨text, rfl, allowed, breakAt_startsWith_closed rest' broken, fine, rfl⟩

theorem takes_markedSection_iff {value : Token} :
    markedSection.Takes offset taken rest value ↔
      ∃ text, taken = "<![CDATA[".toList ++ (text ++ "]]>".toList) ∧
        (∀ c ∈ text, isAllowed c = true) ∧
        breakAt (startsWith "]]>".toList) (text ++ ("]]>".toList ++ rest)) =
          (text, "]]>".toList ++ rest) ∧
        value = .verbatim text := by
  simp only [markedSection, takes_literal_bind_iff, takes_characters_bind_iff, takes_pure_iff]
  constructor
  · rintro ⟨_, rfl, text, _, rfl, allowed, broken, _, rfl, rfl, rfl⟩
    exact ⟨text, by simp, allowed, by simpa using broken, rfl⟩
  · rintro ⟨text, rfl, allowed, broken, rfl⟩
    exact ⟨_, rfl, text, "]]>".toList, rfl, allowed, broken, [], by simp, rfl, rfl⟩

/-- A marked section is read in the same way wherever it stands. -/
theorem Takes.markedSection_anywhere {value : Token}
    (takes : markedSection.Takes offset taken rest value) (offset' : Nat) (rest' : List Char) :
    markedSection.Takes offset' taken rest' value := by
  obtain ⟨text, rfl, allowed, broken, rfl⟩ := takes_markedSection_iff.mp takes
  exact takes_markedSection_iff.mpr
    ⟨text, rfl, allowed, breakAt_startsWith_closed rest' broken, rfl⟩

theorem takes_name_bind_iff {A : Type} {next : String → Reader A} {value : A} :
    (name >>= next).Takes offset taken rest value ↔
      ∃ run after, taken = run ++ after ∧ beginsLikeName (run ++ (after ++ rest)) = true ∧
        (∀ c ∈ run, isNameCharacter c = true) ∧
        (∀ c ∈ (after ++ rest).head?, isNameCharacter c = false) ∧
        (next (String.ofList run)).Takes (offset + byteLength run) after rest value := by
  rw [takes_bind_iff]
  simp only [name]
  constructor
  · rintro ⟨middle, before, after, rfl, takes, goesOn⟩
    obtain ⟨place, _, before, rfl, looks, takes⟩ := takes_bind_iff.mp takes
    obtain ⟨rfl, rfl⟩ := takes_cursor_iff.mp looks
    split at takes
    · rename_i begins
      obtain ⟨run, before, _, rfl, runs, gives⟩ := takes_bind_iff.mp takes
      obtain ⟨rfl, rfl⟩ := takes_pure_iff.mp gives
      obtain ⟨rfl, named, ends⟩ := takes_takeWhile_iff.mp runs
      exact ⟨run, after, by simp, by simpa using begins, named, by simpa using ends,
        by simpa using goesOn⟩
    · exact absurd takes not_takes_fail
  · rintro ⟨run, after, rfl, begins, named, ends, goesOn⟩
    refine ⟨String.ofList run, run, after, rfl, ?_, goesOn⟩
    refine .look _ (takes_cursor_iff.mpr ⟨rfl, rfl⟩) ?_
    rw [if_pos begins, takes_bind_iff]
    exact ⟨run, run, [], by simp, takes_takeWhile_iff.mpr ⟨rfl, named, ends⟩,
      takes_pure_iff.mpr ⟨rfl, rfl⟩⟩

theorem takes_instruction_iff {value : Token} :
    instruction.Takes offset taken rest value ↔
      ∃ target gap data, taken = "<?".toList ++ (target ++ (gap ++ (data ++ "?>".toList))) ∧
        startsWith "<?xml ".toList (taken ++ rest) = false ∧
        beginsLikeName (target ++ (gap ++ (data ++ "?>".toList) ++ rest)) = true ∧
        (∀ c ∈ target, isNameCharacter c = true) ∧
        (∀ c ∈ (gap ++ (data ++ "?>".toList) ++ rest).head?, isNameCharacter c = false) ∧
        (∀ c ∈ gap, isSpace c = true) ∧
        (∀ c ∈ (data ++ "?>".toList ++ rest).head?, isSpace c = false) ∧
        (∀ c ∈ data, isAllowed c = true) ∧
        breakAt (startsWith "?>".toList) (data ++ ("?>".toList ++ rest)) =
          (data, "?>".toList ++ rest) ∧
        value = .instruction (String.ofList target) (String.ofList data) := by
  simp only [instruction, takes_sees_bind_iff, takes_refuse_bind_iff, takes_literal_bind_iff,
    takes_name_bind_iff, takes_spaces_bind_iff, takes_characters_bind_iff, takes_pure_iff]
  constructor
  · rintro ⟨placed, _, rfl, target, _, rfl, begins, named, nameEnds, gap, _, rfl, blank, gapEnds,
      data, _, rfl, allowed, broken, _, rfl, rfl, rfl⟩
    refine ⟨target, gap, data, by simp, placed, ?_, named, ?_, blank, ?_, allowed, ?_, rfl⟩ <;>
      simp_all
  · rintro ⟨target, gap, data, rfl, placed, begins, named, nameEnds, blank, gapEnds, allowed,
      broken, rfl⟩
    exact ⟨placed, _, rfl, target, _, rfl, by simpa using begins, named, nameEnds, gap, _, rfl,
      blank, gapEnds, data, "?>".toList, rfl, allowed, broken, [], by simp, rfl, rfl⟩

/-- An instruction is read in the same way wherever it stands. -/
theorem Takes.instruction_anywhere {value : Token}
    (takes : instruction.Takes offset taken rest value) (offset' : Nat) (rest' : List Char) :
    instruction.Takes offset' taken rest' value := by
  obtain ⟨target, gap, data, rfl, placed, begins, named, nameEnds, blank, gapEnds, allowed,
    broken, rfl⟩ := takes_instruction_iff.mp takes
  have close : data ++ "?>".toList ≠ [] := by simp
  have gapClose : gap ++ (data ++ "?>".toList) ≠ [] := by simp
  have targetClose : target ++ (gap ++ (data ++ "?>".toList)) ≠ [] := by simp
  rw [List.head?_append_of_ne_nil _ gapClose] at nameEnds
  rw [List.head?_append_of_ne_nil _ close] at gapEnds
  rw [beginsLikeName, ← List.append_assoc, List.head?_append_of_ne_nil _ targetClose] at begins
  refine takes_instruction_iff.mpr ⟨target, gap, data, rfl, ?_, ?_, named, ?_, blank, ?_, allowed,
    breakAt_startsWith_closed rest' broken, rfl⟩
  · have held : '>' ∈ "<?".toList ++ (target ++ (gap ++ (data ++ "?>".toList))) := by simp
    rw [startsWith_append_of_mem _ held (by simp)] at placed ⊢
    exact placed
  · rw [beginsLikeName, ← List.append_assoc, List.head?_append_of_ne_nil _ targetClose]
    exact begins
  · rw [List.head?_append_of_ne_nil _ gapClose]
    exact nameEnds
  · rw [List.head?_append_of_ne_nil _ close]
    exact gapEnds

/-- A run of text holds at least one character, no opening bracket and no end of a section. -/
structure IsTextRun (run : List Char) : Prop where
  filled : run ≠ []
  allowed : ∀ c ∈ run, isAllowed c = true
  unbracketed : '<' ∉ run
  unclosed : occurs "]]>".toList run = false

theorem takes_characterData_iff {value : Token} :
    characterData.Takes offset taken rest value ↔
      IsTextRun taken ∧ value = .text ⟨offset, taken⟩ ∧ ∀ c ∈ rest.head?, c = '<' := by
  have stop_eq : (fun rest : List Char => rest.head? == some '<') =
      fun rest => rest.head?.any fun c => !(c != '<') := by
    funext rest
    cases rest <;> simp [bne]
  rw [characterData, takes_offset_bind_iff, takes_characters_bind_iff, stop_eq]
  have broken := fun text rest => @breakWhile_eq_iff (· != '<') (text ++ rest) text rest
  simp only [breakWhile] at broken
  simp only [broken, bne_iff_ne, bne_eq_false_iff_eq, true_and]
  constructor
  · rintro ⟨text, after, rfl, allowed, ⟨unbracketed, ends⟩, takes⟩
    split at takes
    · exact absurd takes not_takes_fail
    split at takes
    · exact absurd takes not_takes_fail
    rename_i filled unclosed
    obtain ⟨rfl, rfl⟩ := takes_pure_iff.mp takes
    rw [List.append_nil]
    exact ⟨⟨by simpa using filled, allowed, fun inside => unbracketed _ inside rfl,
      by simpa using unclosed⟩, rfl, by simpa using ends⟩
  · rintro ⟨⟨filled, allowed, unbracketed, unclosed⟩, rfl, ends⟩
    refine ⟨taken, [], by simp, allowed, ⟨?_, by simpa using ends⟩, ?_⟩
    · rintro c inside rfl
      exact unbracketed inside
    · rw [if_neg (by simpa using filled), if_neg (by rw [unclosed]; exact Bool.false_ne_true)]
      exact takes_pure_iff.mpr ⟨rfl, rfl⟩

end Reader

/-- A comment or an instruction as it is written. -/
inductive AsideSource where
  | comment (source : List Char) (text : String)
      (reads : ∀ offset rest, Reader.comment.Takes offset source rest (.comment text))
  | instruction (source : List Char) (target data : String)
      (reads : ∀ offset rest,
        Reader.instruction.Takes offset source rest (.instruction target data))

def AsideSource.render : AsideSource → List Char
  | .comment source _ _ => source
  | .instruction source _ _ _ => source

def AsideSource.token : AsideSource → Token
  | .comment _ text _ => .comment text
  | .instruction _ target data _ => .instruction target data

def AsideSource.node : AsideSource → Node
  | .comment _ text _ => .comment text
  | .instruction _ target data _ => .instruction target data

/-- A marked section as it is written. -/
structure SectionSource where
  render : List Char
  text : List Char
  reads : ∀ offset rest, Reader.markedSection.Takes offset render rest (.verbatim text)

theorem AsideSource.exists_render (source : AsideSource) :
    ∃ c rest, source.render = '<' :: c :: rest ∧ (c = '!' ∨ c = '?') := by
  cases source with
  | comment text token reads =>
      obtain ⟨text, equal, -⟩ := Reader.takes_comment_iff.mp (reads 0 [])
      exact ⟨'!', _, by simpa [render] using equal, .inl rfl⟩
  | instruction text target data reads =>
      obtain ⟨target, gap, data, equal, -⟩ := Reader.takes_instruction_iff.mp (reads 0 [])
      exact ⟨'?', _, by simpa [render] using equal, .inr rfl⟩

theorem SectionSource.exists_render (source : SectionSource) :
    ∃ rest, source.render = '<' :: '!' :: '[' :: rest := by
  obtain ⟨text, equal, -⟩ := Reader.takes_markedSection_iff.mp (source.reads 0 [])
  exact ⟨_, by simpa using equal⟩

namespace Reader

variable {offset : Nat} {taken rest : List Char}

/-- What a step in content takes. -/
inductive ContentStep (level offset : Nat) (rest : List Char) :
    List Char → List Token × Mode → Prop where
  | aside (source : AsideSource) :
      ContentStep level offset rest source.render ([source.token], .content level)
  | marked (source : SectionSource) :
      ContentStep level offset rest source.render ([.verbatim source.text], .content level)
  | text (run : List Char) (fits : IsTextRun run) (ends : ∀ c ∈ rest.head?, c = '<') :
      ContentStep level offset rest run ([.text ⟨offset, run⟩], .content level)
  | startTag (written : WrittenName) (ends : ∀ c ∈ rest.head?, isNameCharacter c = false) :
      ContentStep level offset rest ('<' :: written.run)
        ([.tagName written.name offset], .tag (level + 1))
  | endTag (source : EndSource) :
      ContentStep level offset rest source.render
        ([.endTag source.name.name ⟨offset, offset + byteLength source.render⟩],
          .afterElement level)

/-- A step that reads one token takes what its token takes. -/
theorem takes_token_iff {reader : Reader Token} {mode : Mode} {value : List Token × Mode} :
    (do
      let token ← reader
      return ([token], mode) : Reader _).Takes offset taken rest value ↔
      ∃ token, reader.Takes offset taken rest token ∧ value = ([token], mode) := by
  simp only [takes_bind_iff, takes_pure_iff]
  constructor
  · rintro ⟨token, before, _, rfl, reads, rfl, rfl⟩
    exact ⟨token, by simpa using reads, rfl⟩
  · rintro ⟨token, reads, rfl⟩
    exact ⟨token, taken, [], by simp, by simpa using reads, rfl, rfl⟩

theorem takes_contentStep_iff {level : Nat} {value : List Token × Mode} :
    (contentStep level).Takes offset taken rest value ↔
      ContentStep level offset rest taken value := by
  rw [contentStep, takes_sees_bind_iff]
  constructor
  · intro takes
    split at takes
    · obtain ⟨token, reads, rfl⟩ := takes_token_iff.mp takes
      have anywhere := reads.comment_anywhere
      obtain ⟨text, -, -, -, -, rfl⟩ := takes_comment_iff.mp reads
      exact .aside (.comment _ _ anywhere)
    rw [takes_sees_bind_iff] at takes
    split at takes
    · obtain ⟨token, reads, rfl⟩ := takes_token_iff.mp takes
      have anywhere := reads.markedSection_anywhere
      obtain ⟨text, -, -, -, rfl⟩ := takes_markedSection_iff.mp reads
      exact .marked ⟨_, _, anywhere⟩
    rw [takes_sees_bind_iff] at takes
    split at takes
    · exact absurd takes not_takes_fail
    rw [takes_sees_bind_iff] at takes
    split at takes
    · obtain ⟨token, reads, rfl⟩ := takes_token_iff.mp takes
      have anywhere := reads.instruction_anywhere
      obtain ⟨target, gap, data, -, -, -, -, -, -, -, -, -, rfl⟩ := takes_instruction_iff.mp reads
      exact .aside (.instruction _ _ _ anywhere)
    rw [takes_sees_bind_iff] at takes
    split at takes
    · obtain ⟨token, reads, rfl⟩ := takes_token_iff.mp takes
      obtain ⟨source, rfl, rfl⟩ := takes_endTag_iff.mp reads
      exact .endTag source
    rw [takes_seesLoneBracket_bind_iff] at takes
    split at takes
    · exact absurd takes not_takes_fail
    rw [takes_sees_bind_iff] at takes
    split at takes
    · obtain ⟨token, reads, rfl⟩ := takes_token_iff.mp takes
      obtain ⟨written, rfl, rfl, ends⟩ := takes_startTag_iff.mp reads
      exact .startTag written ends
    · obtain ⟨token, reads, rfl⟩ := takes_token_iff.mp takes
      obtain ⟨fits, rfl, ends⟩ := takes_characterData_iff.mp reads
      exact .text _ fits ends
  · intro step
    cases step with
    | aside source =>
        cases source with
        | comment source text reads =>
            obtain ⟨_, equal, -⟩ := takes_comment_iff.mp (reads 0 [])
            rw [AsideSource.render, if_pos (by rw [equal]; simp [startsWith, strip?])]
            exact takes_token_iff.mpr ⟨_, reads offset rest, rfl⟩
        | instruction source target data reads =>
            obtain ⟨_, _, _, equal, -⟩ := takes_instruction_iff.mp (reads 0 [])
            rw [AsideSource.render, if_neg (by rw [equal]; simp [startsWith, strip?]),
              takes_sees_bind_iff, if_neg (by rw [equal]; simp [startsWith, strip?]),
              takes_sees_bind_iff, if_neg (by rw [equal]; simp [startsWith, strip?]),
              takes_sees_bind_iff, if_pos (by rw [equal]; simp [startsWith, strip?])]
            exact takes_token_iff.mpr ⟨_, reads offset rest, rfl⟩
    | marked source =>
        obtain ⟨_, equal, -⟩ := takes_markedSection_iff.mp (source.reads 0 [])
        rw [if_neg (by rw [equal]; simp [startsWith, strip?]), takes_sees_bind_iff,
          if_pos (by rw [equal]; simp [startsWith, strip?])]
        exact takes_token_iff.mpr ⟨_, source.reads offset rest, rfl⟩
    | text run fits ends =>
        obtain ⟨c, more, rfl⟩ := List.exists_cons_of_ne_nil fits.filled
        have other : '<' ≠ c := fun same =>
          fits.unbracketed (same ▸ List.mem_cons_self)
        rw [if_neg (by simp [startsWith, strip?, other]), takes_sees_bind_iff,
          if_neg (by simp [startsWith, strip?, other]), takes_sees_bind_iff,
          if_neg (by simp [startsWith, strip?, other]), takes_sees_bind_iff,
          if_neg (by simp [startsWith, strip?, other]), takes_sees_bind_iff,
          if_neg (by simp [startsWith, strip?, other]), takes_seesLoneBracket_bind_iff,
          if_neg (by simp [other.symm]), takes_sees_bind_iff,
          if_neg (by simp [startsWith, strip?, other])]
        exact takes_token_iff.mpr ⟨_, takes_characterData_iff.mpr ⟨fits, rfl, ends⟩, rfl⟩
    | startTag written ends =>
        obtain ⟨c, run, equal, start⟩ := written.exists_cons
        have bang : '!' ≠ c := by rintro rfl; cases start
        have mark : '?' ≠ c := by rintro rfl; cases start
        have slash : '/' ≠ c := by rintro rfl; cases start
        rw [if_neg (by simp [equal, startsWith, strip?, bang]), takes_sees_bind_iff,
          if_neg (by simp [equal, startsWith, strip?, bang]), takes_sees_bind_iff,
          if_neg (by simp [equal, startsWith, strip?, bang]), takes_sees_bind_iff,
          if_neg (by simp [equal, startsWith, strip?, mark]), takes_sees_bind_iff,
          if_neg (by simp [equal, startsWith, strip?, slash]), takes_seesLoneBracket_bind_iff,
          if_neg (by simp [equal]), takes_sees_bind_iff,
          if_pos (by simp [startsWith, strip?])]
        exact takes_token_iff.mpr ⟨_, takes_startTag_iff.mpr ⟨written, rfl, rfl, ends⟩, rfl⟩
    | endTag source =>
        have equal : source.render = '<' :: '/' :: (source.name.run ++ (source.gap ++ ['>'])) := by
          simp [EndSource.render]
        rw [if_neg (by rw [equal]; simp [startsWith, strip?]), takes_sees_bind_iff,
          if_neg (by rw [equal]; simp [startsWith, strip?]), takes_sees_bind_iff,
          if_neg (by rw [equal]; simp [startsWith, strip?]), takes_sees_bind_iff,
          if_neg (by rw [equal]; simp [startsWith, strip?]), takes_sees_bind_iff,
          if_pos (by rw [equal]; simp [startsWith, strip?])]
        exact takes_token_iff.mpr ⟨_, takes_endTag_iff.mpr ⟨source, rfl, rfl⟩, rfl⟩

/-- What a step after the root element takes. It does not depend on where it is taken. -/
inductive EpilogStep (rest : List Char) : List Char → List Token × Mode → Prop where
  | blanks (gap : List Char) (filled : gap ≠ []) (blank : ∀ c ∈ gap, isSpace c = true)
      (ends : ∀ c ∈ rest.head?, isSpace c = false) : EpilogStep rest gap ([], .epilog)
  | aside (source : AsideSource) : EpilogStep rest source.render ([source.token], .epilog)

theorem takes_epilogStep_iff {value : List Token × Mode} :
    epilogStep.Takes offset taken rest value ↔ EpilogStep rest taken value := by
  rw [epilogStep, takes_seesSpace_bind_iff]
  constructor
  · intro takes
    split at takes
    · simp only [takes_bind_iff, takes_someSpaces_iff, takes_pure_iff] at takes
      obtain ⟨_, gap, _, rfl, ⟨filled, blank, ends⟩, rfl, rfl⟩ := takes
      rw [List.append_nil]
      exact .blanks gap filled blank (by simpa using ends)
    rw [takes_sees_bind_iff] at takes
    split at takes
    · obtain ⟨token, reads, rfl⟩ := takes_token_iff.mp takes
      have anywhere := reads.comment_anywhere
      obtain ⟨text, -, -, -, -, rfl⟩ := takes_comment_iff.mp reads
      exact .aside (.comment _ _ anywhere)
    rw [takes_sees_bind_iff] at takes
    split at takes
    · obtain ⟨token, reads, rfl⟩ := takes_token_iff.mp takes
      have anywhere := reads.instruction_anywhere
      obtain ⟨target, gap, data, -, -, -, -, -, -, -, -, -, rfl⟩ := takes_instruction_iff.mp reads
      exact .aside (.instruction _ _ _ anywhere)
    · exact absurd takes not_takes_fail
  · intro step
    cases step with
    | blanks gap filled blank ends =>
        obtain ⟨c, more, rfl⟩ := List.exists_cons_of_ne_nil filled
        rw [if_pos (by simpa using blank c (by simp)), takes_bind_iff]
        exact ⟨(), c :: more, [], by simp, takes_someSpaces_iff.mpr ⟨filled, blank, ends⟩,
          takes_pure_iff.mpr ⟨rfl, rfl⟩⟩
    | aside source =>
        cases source with
        | comment source text reads =>
            obtain ⟨_, equal, -⟩ := takes_comment_iff.mp (reads 0 [])
            rw [AsideSource.render, if_neg (by rw [equal]; simp; decide), takes_sees_bind_iff,
              if_pos (by rw [equal]; simp [startsWith, strip?])]
            exact takes_token_iff.mpr ⟨_, reads offset rest, rfl⟩
        | instruction source target data reads =>
            obtain ⟨_, _, _, equal, -⟩ := takes_instruction_iff.mp (reads 0 [])
            rw [AsideSource.render, if_neg (by rw [equal]; simp; decide), takes_sees_bind_iff,
              if_neg (by rw [equal]; simp [startsWith, strip?]), takes_sees_bind_iff,
              if_pos (by rw [equal]; simp [startsWith, strip?])]
            exact takes_token_iff.mpr ⟨_, reads offset rest, rfl⟩

end Reader

end RunSigning.Markup
