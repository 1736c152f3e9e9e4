import RunSigning.Proofs.Grammar.Reading

/-
This file describes tags as they are written. Every written tag is read as its tokens wherever it
stands, and whatever is read as a tag was written as one.
-/

namespace RunSigning.Markup
open RunSigning.Text

/-- A run of name characters and the qualified name that it spells. -/
structure WrittenName where
  run : List Char
  name : QualifiedName
  nameCharacters : ∀ c ∈ run, isNameCharacter c = true
  spells : QualifiedName.ofRun? run = some name

theorem QualifiedName.written_of_ofRun? {run : List Char} {name : QualifiedName}
    (spells : QualifiedName.ofRun? run = some name) : name.written.toList = run := by
  have whole := breakAt_append (fun rest => rest.head?.any fun c => !(c != ':')) run
  rw [QualifiedName.ofRun?, breakWhile] at spells
  split at spells
  · rename_i text equal
    split at spells
    · cases spells
      rw [equal] at whole
      simpa [QualifiedName.written] using whole
    · cases spells
  · rename_i qualifier colon text equal
    split at spells
    · cases spells
    · cases spells
      rw [equal] at whole
      have colon_eq := (breakWhile_eq_iff.mp equal).2.2 colon (by simp)
      simp only [bne_eq_false_iff_eq] at colon_eq
      rw [← whole, colon_eq]
      simp [QualifiedName.written]

theorem QualifiedName.run_of_ofRun? {run : List Char} {name : QualifiedName}
    (spells : QualifiedName.ofRun? run = some name) :
    ∃ c rest, run = c :: rest ∧ isNameStart c = true := by
  rw [QualifiedName.ofRun?] at spells
  split at spells
  · rename_i text equal
    have whole := (breakWhile_eq_iff.mp equal).1
    split at spells
    · rename_i begins
      cases text with
      | nil => cases begins
      | cons c rest => exact ⟨c, rest, by simpa using whole, begins⟩
    · cases spells
  · rename_i qualifier colon text equal
    obtain ⟨whole, -, ends⟩ := breakWhile_eq_iff.mp equal
    have colon_eq : colon = ':' := by simpa using ends colon (by simp)
    split at spells
    · cases spells
    · rename_i fine
      cases qualifier with
      | nil => exact ⟨':', text, by simpa [colon_eq] using whole, by decide⟩
      | cons c rest =>
          simp only [List.isEmpty_cons, Bool.false_or, Bool.or_eq_true, not_or] at fine
          exact ⟨c, rest ++ colon :: text, by simpa using whole,
            by simpa [beginsLikeName] using fine.1.2⟩

/-- The name stands in the text as its run. -/
theorem WrittenName.toList_written (written : WrittenName) :
    written.name.written.toList = written.run :=
  QualifiedName.written_of_ofRun? written.spells

theorem WrittenName.exists_cons (written : WrittenName) :
    ∃ c rest, written.run = c :: rest ∧ isNameStart c = true :=
  QualifiedName.run_of_ofRun? written.spells

theorem WrittenName.run_ne_nil (written : WrittenName) : written.run ≠ [] := by
  obtain ⟨c, rest, equal, -⟩ := written.exists_cons
  simp [equal]

theorem isNameCharacter_of_isNameStart {c : Char} (start : isNameStart c = true) :
    isNameCharacter c = true := by
  simp [isNameCharacter, start]

theorem not_isNameCharacter_of_isSpace {c : Char} (space : isSpace c = true) :
    isNameCharacter c = false := by
  simp only [isSpace, Bool.or_eq_true, beq_iff_eq] at space
  rcases space with ((rfl | rfl) | rfl) | rfl <;> decide

theorem not_isSpace_of_isNameCharacter {c : Char} (named : isNameCharacter c = true) :
    isSpace c = false := by
  cases space : isSpace c with
  | false => rfl
  | true =>
      rw [not_isNameCharacter_of_isSpace space] at named
      cases named

/-- An attribute as it is written, with the blanks before it. -/
structure AttributeSource where
  lead : List Char
  name : WrittenName
  before : List Char
  after : List Char
  quote : Char
  value : List Char
  lead_filled : lead ≠ []
  lead_blank : ∀ c ∈ lead, isSpace c = true
  before_blank : ∀ c ∈ before, isSpace c = true
  after_blank : ∀ c ∈ after, isSpace c = true
  quote_fits : quote = '\'' ∨ quote = '"'
  value_fits : ∀ c ∈ value, isAllowed c = true ∧ c ≠ quote ∧ c ≠ '<'

/-- The equals sign with the blanks around it. -/
def AttributeSource.equals (source : AttributeSource) : List Char :=
  source.before ++ '=' :: source.after

/-- The attribute up to its opening quote. -/
def AttributeSource.opening (source : AttributeSource) : List Char :=
  source.lead ++ source.name.run ++ source.equals ++ [source.quote]

def AttributeSource.render (source : AttributeSource) : List Char :=
  source.opening ++ source.value ++ [source.quote]

/-- The attribute as a token if its leading blanks begin at the given offset. -/
def AttributeSource.written (source : AttributeSource) (offset : Nat) : WrittenAttribute :=
  let start := offset + byteLength source.lead
  let nameStop := start + byteLength source.name.run
  let quotePlace := nameStop + byteLength source.equals
  ⟨source.name.name, start, nameStop, quotePlace, ⟨quotePlace + 1, source.value⟩⟩

/-- A start tag up to its closing bracket. -/
structure TagSource where
  name : WrittenName
  attributes : List AttributeSource
  gap : List Char
  gap_blank : ∀ c ∈ gap, isSpace c = true

/-- The end tag of an element. -/
structure EndSource where
  name : WrittenName
  gap : List Char
  gap_blank : ∀ c ∈ gap, isSpace c = true

def EndSource.render (source : EndSource) : List Char :=
  ['<', '/'] ++ source.name.run ++ source.gap ++ ['>']

/-- The brackets that end a start tag. -/
def closing (selfClosing : Bool) : List Char := if selfClosing then ['/', '>'] else ['>']

theorem closing_ne_nil (selfClosing : Bool) : closing selfClosing ≠ [] := by
  cases selfClosing <;> simp [closing]

/-- The mode after a start tag. -/
def Mode.afterTag (level : Nat) (selfClosing : Bool) : Mode :=
  if selfClosing then .afterElement level else .content level

theorem byteLength_quote {c : Char} (fits : c = '\'' ∨ c = '"') : byteLength [c] = 1 := by
  rcases fits with rfl | rfl <;> rfl

namespace Reader

variable {offset : Nat} {taken rest : List Char}

theorem takes_qualifiedName_iff {value : QualifiedName} :
    qualifiedName.Takes offset taken rest value ↔
      ∃ written : WrittenName, taken = written.run ∧ value = written.name ∧
        ∀ c ∈ rest.head?, isNameCharacter c = false := by
  rw [qualifiedName, takes_offset_bind_iff, takes_bind_iff]
  simp only [takes_takeWhile_iff]
  constructor
  · rintro ⟨run, before, after, rfl, ⟨rfl, named, ends⟩, spells⟩
    split at spells
    · rename_i name equal
      obtain ⟨rfl, rfl⟩ := takes_pure_iff.mp spells
      exact ⟨⟨run, value, named, equal⟩, by simp, rfl, by simpa using ends⟩
    · exact absurd spells not_takes_failAt
  · rintro ⟨written, rfl, rfl, ends⟩
    refine ⟨_, written.run, [], by simp,
      ⟨rfl, written.nameCharacters, by simpa using ends⟩, ?_⟩
    rw [written.spells]
    exact takes_pure_iff.mpr ⟨rfl, rfl⟩

theorem takes_qualifiedName_bind_iff {A : Type} {next : QualifiedName → Reader A} {value : A} :
    (qualifiedName >>= next).Takes offset taken rest value ↔
      ∃ (written : WrittenName) (after : List Char), taken = written.run ++ after ∧
        (∀ c ∈ (after ++ rest).head?, isNameCharacter c = false) ∧
        (next written.name).Takes (offset + byteLength written.run) after rest value := by
  simp only [takes_bind_iff, takes_qualifiedName_iff]
  constructor
  · rintro ⟨name, before, after, rfl, ⟨written, rfl, rfl, ends⟩, goesOn⟩
    exact ⟨written, after, rfl, ends, goesOn⟩
  · rintro ⟨written, after, rfl, ends, goesOn⟩
    exact ⟨written.name, written.run, after, rfl, ⟨written, rfl, rfl, ends⟩, goesOn⟩

/-- A value runs up to its quote. -/
theorem breakAt_value_iff {quote : Char} {value rest : List Char} :
    breakAt (fun rest => rest.head?.any fun c => c == quote || c == '<') (value ++ rest) =
        (value, rest) ↔
      (∀ c ∈ value, c ≠ quote ∧ c ≠ '<') ∧ ∀ c ∈ rest.head?, c = quote ∨ c = '<' := by
  have broken := @breakWhile_eq_iff (fun c => !(c == quote || c == '<')) (value ++ rest) value rest
  simp only [breakWhile, Bool.not_not, true_and, Bool.not_eq_true', Bool.not_eq_false',
    Bool.or_eq_true, Bool.or_eq_false_iff, beq_iff_eq, beq_eq_false_iff_ne] at broken
  exact broken

theorem takes_writtenAttribute_iff {value : WrittenAttribute} :
    writtenAttribute.Takes offset taken rest value ↔
      ∃ (name : WrittenName) (before after text : List Char) (quote : Char),
        taken = name.run ++ (before ++ '=' :: (after ++ (quote :: (text ++ [quote])))) ∧
        (∀ c ∈ before, isSpace c = true) ∧ (∀ c ∈ after, isSpace c = true) ∧
        (quote = '\'' ∨ quote = '"') ∧
        (∀ c ∈ text, isAllowed c = true ∧ c ≠ quote ∧ c ≠ '<') ∧
        value = ⟨name.name, offset, offset + byteLength name.run,
          offset + byteLength name.run + byteLength (before ++ '=' :: after),
          ⟨offset + byteLength name.run + byteLength (before ++ '=' :: after) + 1, text⟩⟩ := by
  simp only [writtenAttribute, takes_offset_bind_iff, takes_qualifiedName_bind_iff,
    takes_spaces_bind_iff, takes_byte_bind_iff, takes_quote_bind_iff, takes_characters_bind_iff,
    takes_pure_iff]
  constructor
  · rintro ⟨name, _, rfl, -, before, _, rfl, beforeBlank, -, _, rfl, after, _, rfl, afterBlank, -,
      quote, _, rfl, fits, text, _, rfl, allowed, broken, _, rfl, rfl, rfl⟩
    refine ⟨name, before, after, text, quote, rfl, beforeBlank, afterBlank, fits, ?_, ?_⟩
    · intro c member
      exact ⟨allowed c member, (breakAt_value_iff.mp broken).1 c member⟩
    · simp [Nat.add_assoc]
  · rintro ⟨name, before, after, text, quote, rfl, beforeBlank, afterBlank, fits, valueFits, rfl⟩
    refine ⟨name, _, rfl, ?_, before, _, rfl, beforeBlank, ?_, _, rfl, after, _, rfl, afterBlank, ?_,
      quote, _, rfl, fits, text, _, rfl, fun c member => (valueFits c member).1,
      breakAt_value_iff.mpr ⟨fun c member => (valueFits c member).2, by simp⟩, _, rfl, rfl, ?_⟩
    · cases before with
      | nil =>
          simp only [List.nil_append, List.cons_append, List.head?_cons, Option.mem_def,
            Option.some.injEq, forall_eq']
          decide
      | cons c before =>
          simpa using not_isNameCharacter_of_isSpace (beforeBlank c (by simp))
    · simp only [List.cons_append, List.head?_cons, Option.mem_def, Option.some.injEq, forall_eq']
      decide
    · simp only [List.cons_append, List.head?_cons, Option.mem_def, Option.some.injEq, forall_eq']
      rcases fits with rfl | rfl <;> decide
    · simp [Nat.add_assoc]

theorem takes_startTag_iff {value : Token} :
    startTag.Takes offset taken rest value ↔
      ∃ written : WrittenName, taken = '<' :: written.run ∧ value = .tagName written.name offset ∧
        ∀ c ∈ rest.head?, isNameCharacter c = false := by
  simp only [startTag, takes_offset_bind_iff, takes_literal_bind_iff,
    takes_qualifiedName_bind_iff, takes_pure_iff]
  constructor
  · rintro ⟨_, rfl, written, _, rfl, ends, rfl, rfl⟩
    exact ⟨written, by simp, rfl, ends⟩
  · rintro ⟨written, rfl, rfl, ends⟩
    exact ⟨written.run, by simp, written, [], by simp, ends, rfl, rfl⟩

theorem takes_endTag_iff {value : Token} :
    endTag.Takes offset taken rest value ↔
      ∃ source : EndSource, taken = source.render ∧
        value = .endTag source.name.name ⟨offset, offset + byteLength source.render⟩ := by
  simp only [endTag, takes_offset_bind_iff, takes_literal_bind_iff, takes_qualifiedName_bind_iff,
    takes_spaces_bind_iff, takes_byte_bind_iff, takes_pure_iff]
  constructor
  · rintro ⟨_, rfl, name, _, rfl, -, gap, _, rfl, blank, -, _, rfl, rfl, rfl⟩
    refine ⟨⟨name, gap, blank⟩, by simp [EndSource.render], ?_⟩
    simp [EndSource.render, Nat.add_assoc]
  · rintro ⟨⟨name, gap, blank⟩, rfl, rfl⟩
    refine ⟨name.run ++ (gap ++ ['>']), by simp [EndSource.render], name, _, rfl, ?_,
      gap, ['>'], rfl, blank, ?_, [], rfl, rfl, ?_⟩
    · cases gap with
      | nil =>
          simp only [List.nil_append, List.cons_append, List.head?_cons, Option.mem_def,
            Option.some.injEq, forall_eq']
          decide
      | cons c gap => simpa using not_isNameCharacter_of_isSpace (blank c (by simp))
    · simp only [List.cons_append, List.head?_cons, Option.mem_def, Option.some.injEq, forall_eq']
      decide
    · simp [EndSource.render, Nat.add_assoc]

/-- What a step inside a start tag takes: the end of the tag or one more attribute. -/
inductive TagStep (level offset : Nat) : List Char → List Token × Mode → Prop where
  | close (gap : List Char) (blank : ∀ c ∈ gap, isSpace c = true) (selfClosing : Bool) :
      TagStep level offset (gap ++ closing selfClosing)
        ([.tagEnd selfClosing (offset + byteLength (gap ++ closing selfClosing))],
          .afterTag level selfClosing)
  | another (source : AttributeSource) :
      TagStep level offset source.render ([.attr (source.written offset)], .tag level)

theorem any_isSpace_eq_false {text : List Char} (ends : ∀ c ∈ text.head?, isSpace c = false) :
    text.head?.any isSpace = false := by
  cases text with
  | nil => rfl
  | cons c text => exact ends c rfl

theorem not_takes_someSpaces {value : Unit}
    (ends : ∀ c ∈ (taken ++ rest).head?, isSpace c = false) :
    ¬ someSpaces.Takes offset taken rest value := by
  rw [takes_someSpaces_iff]
  rintro ⟨filled, blank, -⟩
  obtain ⟨c, more, rfl⟩ := List.exists_cons_of_ne_nil filled
  have := blank c (by simp)
  rw [ends c rfl] at this
  cases this

theorem takes_tagStep_iff {level : Nat} {value : List Token × Mode} :
    (tagStep level).Takes offset taken rest value ↔ TagStep level offset taken value := by
  simp only [tagStep, takes_seesSpace_bind_iff, takes_spaces_bind_iff, takes_atEnd_bind_iff]
  constructor
  · rintro ⟨gap, after, rfl, blank, ends, takes⟩
    split at takes
    · exact absurd takes not_takes_fail
    rw [takes_sees_bind_iff] at takes
    split at takes
    · simp only [takes_literal_bind_iff, takes_byte_bind_iff, takes_offset_bind_iff,
        takes_pure_iff] at takes
      obtain ⟨_, rfl, _, rfl, rfl, rfl⟩ := takes
      have step : TagStep level offset _ _ := .close gap blank true
      simpa [closing, Mode.afterTag, Nat.add_assoc] using step
    rw [takes_sees_bind_iff] at takes
    split at takes
    · simp only [takes_literal_bind_iff, takes_offset_bind_iff, takes_pure_iff] at takes
      obtain ⟨_, rfl, rfl, rfl⟩ := takes
      have step : TagStep level offset _ _ := .close gap blank false
      simpa [closing, Mode.afterTag, Nat.add_assoc] using step
    rw [takes_bind_iff] at takes
    obtain ⟨_, lead, body, rfl, spaced, takes⟩ := takes
    simp only [takes_bind_iff, takes_writtenAttribute_iff, takes_pure_iff] at takes
    obtain ⟨_, _, _, rfl, ⟨name, before, after, text, quote, rfl, beforeBlank, afterBlank, fits,
      valueFits, rfl⟩, rfl, rfl⟩ := takes
    have led : lead = [] ∧ gap ≠ [] := by
      cases gap with
      | nil =>
          have unspaced := any_isSpace_eq_false ends
          rw [List.append_assoc] at unspaced ends
          rw [List.nil_append, List.append_assoc, unspaced] at spaced
          exact absurd spaced (not_takes_someSpaces ends)
      | cons c gap =>
          simp only [optionally, List.cons_append, List.head?_cons, Option.any_some,
            blank c (by simp), Bool.not_true, Bool.false_eq_true, if_false, takes_pure_iff] at spaced
          exact ⟨spaced.1, by simp⟩
    obtain ⟨rfl, filled⟩ := led
    have step : TagStep level offset _ _ := .another
      ⟨gap, name, before, after, quote, text, filled, blank, beforeBlank, afterBlank, fits, valueFits⟩
    simpa [AttributeSource.render, AttributeSource.opening, AttributeSource.equals,
      AttributeSource.written, Nat.add_assoc] using step
  · rintro (⟨gap, blank, _ | _⟩ | source)
    · refine ⟨gap, ['>'], rfl, blank, by simp; decide, ?_⟩
      rw [if_neg (by simp), takes_sees_bind_iff, if_neg (by simp [startsWith, strip?]),
        takes_sees_bind_iff, if_pos (by simp [startsWith, strip?])]
      simp only [takes_literal_bind_iff, takes_offset_bind_iff, takes_pure_iff]
      exact ⟨[], by simp, rfl, by simp [closing, Mode.afterTag, Nat.add_assoc]⟩
    · refine ⟨gap, ['/', '>'], rfl, blank, by simp; decide, ?_⟩
      rw [if_neg (by simp), takes_sees_bind_iff, if_pos (by simp [startsWith, strip?])]
      simp only [takes_literal_bind_iff, takes_byte_bind_iff, takes_offset_bind_iff,
        takes_pure_iff]
      exact ⟨['>'], by simp, [], rfl, rfl, by simp [closing, Mode.afterTag, Nat.add_assoc]⟩
    · obtain ⟨c, run, equal, start⟩ := source.name.exists_cons
      have named := isNameCharacter_of_isNameStart start
      have slash : c ≠ '/' := by rintro rfl; cases named
      have bracket : c ≠ '>' := by rintro rfl; cases named
      refine ⟨source.lead, source.name.run ++ (source.before ++ '=' :: (source.after ++
        (source.quote :: (source.value ++ [source.quote])))), ?_, source.lead_blank, ?_, ?_⟩
      · simp [AttributeSource.render, AttributeSource.opening, AttributeSource.equals]
      · simpa [equal] using not_isSpace_of_isNameCharacter named
      · rw [if_neg (by simp [equal]), takes_sees_bind_iff,
          if_neg (by simp [equal, startsWith, strip?, slash.symm]), takes_sees_bind_iff,
          if_neg (by simp [equal, startsWith, strip?, bracket.symm])]
        have spaced : (source.render ++ rest).head?.any isSpace = true := by
          obtain ⟨d, lead, led⟩ := List.exists_cons_of_ne_nil source.lead_filled
          simpa [AttributeSource.render, AttributeSource.opening, led] using
            source.lead_blank d (by simp [led])
        rw [spaced]
        refine .look () (takes_pure_iff.mpr ⟨rfl, rfl⟩) ?_
        simp only [takes_bind_iff, takes_writtenAttribute_iff, takes_pure_iff]
        refine ⟨_, _, [], (List.append_nil _).symm, ⟨source.name, source.before, source.after,
          source.value, source.quote, rfl, source.before_blank, source.after_blank,
          source.quote_fits, source.value_fits, rfl⟩, rfl, ?_⟩
        simp [AttributeSource.written, AttributeSource.equals]

end Reader

end RunSigning.Markup
