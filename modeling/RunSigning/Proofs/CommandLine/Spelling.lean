import RunSigning.CommandLine.Arguments
import RunSigning.Proofs.Grammar.Reading

/-
This file gives the rules of the command line. Arguments spell items, one after the other, and an
invocation gathers the items. One argument is read as what it spells.
-/

namespace RunSigning.CommandLine
open RunSigning.Text

/-- One thing that arguments say. -/
inductive Item where
  | flag (flag : Flag)
  | setting (setting : Setting) (value : String)
  | positional (text : String)
  deriving DecidableEq, Repr

def Flag.name : Flag → String
  | .strict => "strict"
  | .dryRun => "dry-run"

def Setting.name : Setting → String
  | .signer => "signer"
  | .key => "key"
  | .logLevel => "log-level"

/-- The options that stand for a setting. Only the key has a short one. -/
def Setting.options : Setting → List String
  | .key => ["--key", "-k"]
  | setting => ["--" ++ setting.name]

/-- An argument that is no option: it does not begin with a hyphen, unless it is just one. -/
def IsPlain (argument : String) : Prop := argument.toList.head? = some '-' → argument = "-"

instance (argument : String) : Decidable (IsPlain argument) :=
  inferInstanceAs (Decidable (_ → _))

/-- The ways in which arguments say one thing. -/
inductive Item.Spelled : Item → List String → Prop where
  | flag (flag : Flag) : Spelled (.flag flag) ["--" ++ flag.name]
  | apart {setting : Setting} {option value : String} (named : option ∈ setting.options)
      (plain : IsPlain value) : Spelled (.setting setting value) [option, value]
  | joined {setting : Setting} {option : String} (named : option ∈ setting.options)
      (value : String) : Spelled (.setting setting value) [option ++ "=" ++ value]
  | short {first : Char} {rest : List Char} (differs : first ≠ '=') :
      Spelled (.setting .key (String.ofList (first :: rest)))
        ["-k" ++ String.ofList (first :: rest)]
  | positional {text : String} (plain : IsPlain text) : Spelled (.positional text) [text]

/-- Arguments say one thing after the other. Two hyphens make all that follow positional. -/
inductive Spelled : List Item → List String → Prop where
  | nil : Spelled [] []
  | separator (texts : List String) : Spelled (texts.map .positional) ("--" :: texts)
  | cons {item : Item} {items : List Item} {arguments rest : List String}
      (first : item.Spelled arguments) (later : Spelled items rest) :
      Spelled (item :: items) (arguments ++ rest)

def Item.positional? : Item → Option String
  | .positional text => some text
  | _ => none

def Item.value? (setting : Setting) : Item → Option String
  | .setting other value => if other = setting then some value else none
  | _ => none

def positionalTexts (items : List Item) : List String := items.filterMap Item.positional?

def givenValues (setting : Setting) (items : List Item) : List String :=
  items.filterMap (Item.value? setting)

@[simp] theorem positionalTexts_nil : positionalTexts [] = [] := rfl

@[simp] theorem positionalTexts_append (items later : List Item) :
    positionalTexts (items ++ later) = positionalTexts items ++ positionalTexts later :=
  List.filterMap_append

@[simp] theorem positionalTexts_cons (item : Item) (items : List Item) :
    positionalTexts (item :: items) = item.positional?.toList ++ positionalTexts items := by
  cases item <;> rfl

@[simp] theorem givenValues_nil (setting : Setting) : givenValues setting [] = [] := rfl

@[simp] theorem givenValues_append (setting : Setting) (items later : List Item) :
    givenValues setting (items ++ later) = givenValues setting items ++ givenValues setting later :=
  List.filterMap_append

@[simp] theorem givenValues_cons (setting : Setting) (item : Item) (items : List Item) :
    givenValues setting (item :: items) =
      (item.value? setting).toList ++ givenValues setting items := by
  rw [givenValues, List.filterMap_cons]
  cases spoken : item.value? setting <;> rfl

/-- What a setting is if it is not given. -/
def Setting.default : Setting → String
  | .signer => Layout.defaultSigner.text
  | .key => Layout.defaultKey.text
  | .logLevel => "info"

def Invocation.value (invocation : Invocation) : Setting → String
  | .signer => invocation.signer.text
  | .key => invocation.key.text
  | .logLevel => invocation.logFilter

def Invocation.isRaised (invocation : Invocation) : Flag → Bool
  | .strict => invocation.strict
  | .dryRun => invocation.dryRun

/-- An invocation says what the items say, and what they leave open is at its default. No option
is given twice, and no text but the log filter is empty. -/
structure Invocation.Gathers (invocation : Invocation) (items : List Item) : Prop where
  texts : positionalTexts items = [invocation.binary, invocation.runDirectory.text]
  proper : "" ∉ positionalTexts items
  given : ∀ setting, givenValues setting items = [] ∧ invocation.value setting = setting.default ∨
    givenValues setting items = [invocation.value setting]
  valued : ∀ setting, setting ≠ .logLevel → "" ∉ givenValues setting items
  raised : ∀ flag, items.count (.flag flag) = (invocation.isRaised flag).toNat

/-- The arguments of an invocation, by the rules of the command line. -/
def Invocation.SpelledBy (invocation : Invocation) (arguments : List String) : Prop :=
  ∃ items, Spelled items arguments ∧ invocation.Gathers items

/-- What follows a long option in the same argument. -/
def joinedValue (value? : Option String) : String := value?.elim "" ("=" ++ ·)

theorem joinedValue_some (value : String) : joinedValue (some value) = "=" ++ value := rfl

theorem Word.ofArgument_long {name : String} (filled : name ≠ "") (plain : '=' ∉ name.toList)
    (value? : Option String) :
    Word.ofArgument ("--" ++ name ++ joinedValue value?) = .ofLong name value? := by
  obtain ⟨c, rest, spelled⟩ := List.exists_cons_of_ne_nil
    (show name.toList ≠ [] by simpa [String.toList_eq_nil_iff] using filled)
  have broken : breakWhile (· != '=') (name.toList ++ (joinedValue value?).toList) =
      (name.toList, (joinedValue value?).toList) := by
    rw [breakWhile_eq_iff]
    refine ⟨rfl, ?_, ?_⟩
    · rintro d member
      simp only [bne_iff_ne, ne_eq]
      rintro rfl
      exact plain member
    · cases value? <;> simp [joinedValue]
  have whole : ("--" ++ name ++ joinedValue value?).toList =
      '-' :: '-' :: c :: (rest ++ (joinedValue value?).toList) := by
    simp [String.toList_append, spelled]
  rw [spelled, List.cons_append] at broken
  rw [Word.ofArgument, whole]
  simp only
  rw [broken, ← spelled]
  cases value? with
  | none => simp [joinedValue]
  | some value => simp [joinedValue]

/-- The forms of an argument. -/
theorem Word.ofArgument_cases (argument : String) :
    argument = "--" ∧ Word.ofArgument argument = .separator ∨
    (∃ name value?, argument = "--" ++ name ++ joinedValue value? ∧
      Word.ofArgument argument = .ofLong name value?) ∨
    (∃ option, argument = "-" ++ String.ofList option ∧
      Word.ofArgument argument = .ofShort option) ∨
    IsPlain argument ∧ Word.ofArgument argument = .positional argument := by
  rw [Word.ofArgument]
  split
  · rename_i spelled
    exact .inl ⟨String.toList_inj.mp spelled, rfl⟩
  · rename_i option apart spelled
    refine .inr (.inl ?_)
    split
    · rename_i name broken
      obtain ⟨equal, -⟩ := breakWhile_eq_iff.mp broken
      refine ⟨String.ofList name, none, String.toList_inj.mp ?_, rfl⟩
      simp [spelled, equal, joinedValue]
    · rename_i name sign value broken
      obtain ⟨equal, -, ends⟩ := breakWhile_eq_iff.mp broken
      have sign' : sign = '=' := by simpa using ends
      refine ⟨String.ofList name, some (String.ofList value), String.toList_inj.mp ?_, rfl⟩
      simp [spelled, equal, joinedValue, sign']
  · rename_i c option separator long spelled
    refine .inr (.inr (.inl ⟨c :: option, String.toList_inj.mp ?_, rfl⟩))
    simp [spelled]
  · rename_i separator long short
    refine .inr (.inr (.inr ⟨?_, rfl⟩))
    intro hyphen
    obtain ⟨rest, spelled⟩ := List.head?_eq_some_iff.mp hyphen
    cases rest with
    | nil => exact String.toList_inj.mp spelled
    | cons c rest => exact absurd spelled (short c rest)

theorem Word.ofArgument_plain {argument : String} (plain : IsPlain argument) :
    Word.ofArgument argument = .positional argument := by
  rw [Word.ofArgument]
  have apart (c : Char) (rest : List Char) : argument.toList ≠ '-' :: c :: rest := by
    intro spelled
    have equal := plain (by simp [spelled])
    simp [equal] at spelled
  split
  · rename_i spelled
    exact absurd spelled (apart _ _)
  · rename_i spelled
    exact absurd spelled (apart _ _)
  · rename_i spelled
    exact absurd spelled (apart _ _)
  · rfl

theorem Word.ofArgument_short {c : Char} (differs : c ≠ '-') (rest : List Char) :
    Word.ofArgument ("-" ++ String.ofList (c :: rest)) = .ofShort (c :: rest) := by
  rw [Word.ofArgument, show ("-" ++ String.ofList (c :: rest)).toList = '-' :: c :: rest by
    simp [String.toList_append]]
  split
  · rename_i spelled
    simp_all
  · rename_i spelled
    simp_all
  · rename_i spelled
    cases spelled
    rfl
  · rename_i other
    exact absurd rfl (other c rest)


theorem Word.ofLong_eq_flag {name : String} {value? : Option String} {flag : Flag}
    (read : Word.ofLong name value? = .flag flag) : name = flag.name ∧ value? = none := by
  unfold Word.ofLong at read
  split at read <;> cases read <;> exact ⟨rfl, rfl⟩

theorem Word.ofLong_eq_setting {name : String} {value? given? : Option String} {setting : Setting}
    (read : Word.ofLong name value? = .setting setting given?) :
    name = setting.name ∧ given? = value? := by
  unfold Word.ofLong at read
  split at read <;> cases read <;> exact ⟨rfl, rfl⟩

theorem Word.ofShort_eq_setting {option : List Char} {given? : Option String} {setting : Setting}
    (read : Word.ofShort option = .setting setting given?) :
    setting = .key ∧ (option = ['k'] ∧ given? = none ∨
      (∃ value, option = 'k' :: '=' :: value ∧ given? = some (String.ofList value)) ∨
      ∃ first rest, first ≠ '=' ∧ option = 'k' :: first :: rest ∧
        given? = some (String.ofList (first :: rest))) := by
  unfold Word.ofShort at read
  split at read
  · cases read
  · cases read
  · cases read
    exact ⟨rfl, .inl ⟨rfl, rfl⟩⟩
  · cases read
    exact ⟨rfl, .inr (.inl ⟨_, rfl, rfl⟩)⟩
  · rename_i value filled differs
    cases read
    refine ⟨rfl, .inr (.inr ?_)⟩
    cases value with
    | nil => exact absurd rfl filled
    | cons first rest => exact ⟨first, rest, fun equal => differs rest (by rw [equal]), rfl, rfl⟩
  · cases read

theorem Word.ofLong_name (setting : Setting) (value? : Option String) :
    Word.ofLong setting.name value? = .setting setting value? := by
  cases setting <;> rfl

theorem Word.ofLong_ne_positional (name : String) (value? : Option String) (text : String) :
    Word.ofLong name value? ≠ .positional text := by
  unfold Word.ofLong
  split <;> simp

theorem Word.ofLong_ne_separator (name : String) (value? : Option String) :
    Word.ofLong name value? ≠ .separator := by
  unfold Word.ofLong
  split <;> simp

theorem Word.ofShort_ne_positional (option : List Char) (text : String) :
    Word.ofShort option ≠ .positional text := by
  unfold Word.ofShort
  split <;> simp

theorem Word.ofShort_ne_separator (option : List Char) : Word.ofShort option ≠ .separator := by
  unfold Word.ofShort
  split <;> simp

theorem Word.ofShort_ne_flag (option : List Char) (flag : Flag) :
    Word.ofShort option ≠ .flag flag := by
  unfold Word.ofShort
  split <;> simp

theorem Word.eq_separator {argument : String} (read : Word.ofArgument argument = .separator) :
    argument = "--" := by
  rcases Word.ofArgument_cases argument with
    ⟨equal, -⟩ | ⟨name, value?, -, long⟩ | ⟨option, -, short⟩ | ⟨-, positional⟩
  · exact equal
  · exact absurd (long.symm.trans read) (Word.ofLong_ne_separator name value?)
  · exact absurd (short.symm.trans read) (Word.ofShort_ne_separator option)
  · cases positional.symm.trans read

theorem Word.spelled_flag {argument : String} {flag : Flag}
    (read : Word.ofArgument argument = .flag flag) : Item.Spelled (.flag flag) [argument] := by
  rcases Word.ofArgument_cases argument with
    ⟨-, separator⟩ | ⟨name, value?, equal, long⟩ | ⟨option, -, short⟩ | ⟨-, positional⟩
  · cases separator.symm.trans read
  · obtain ⟨rfl, rfl⟩ := Word.ofLong_eq_flag (long.symm.trans read)
    rw [equal, joinedValue, Option.elim_none, String.append_empty]
    exact .flag flag
  · exact absurd (short.symm.trans read) (Word.ofShort_ne_flag option flag)
  · cases positional.symm.trans read

theorem Word.ofArgument_eq_positional_iff {argument text : String} :
    Word.ofArgument argument = .positional text ↔ text = argument ∧ IsPlain argument := by
  constructor
  · intro read
    rcases Word.ofArgument_cases argument with
      ⟨-, separator⟩ | ⟨name, value?, -, long⟩ | ⟨option, -, short⟩ | ⟨plain, positional⟩
    · cases separator.symm.trans read
    · exact absurd (long.symm.trans read) (Word.ofLong_ne_positional name value? text)
    · exact absurd (short.symm.trans read) (Word.ofShort_ne_positional option text)
    · cases positional.symm.trans read
      exact ⟨rfl, plain⟩
  · rintro ⟨rfl, plain⟩
    exact Word.ofArgument_plain plain

theorem looksLikeOption_eq_false_iff {argument : String} :
    looksLikeOption argument = false ↔ IsPlain argument := by
  have plain := @Word.ofArgument_eq_positional_iff argument argument
  rw [looksLikeOption]
  split
  · rename_i text read
    simpa using (Word.ofArgument_eq_positional_iff.mp read).2
  · rename_i other
    simp only [Bool.true_eq_false, false_iff]
    exact fun isPlain => other argument (plain.mpr ⟨rfl, isPlain⟩)

/-- The options of a setting, without a value in the same argument or with one. -/
theorem Word.setting_cases {argument : String} {setting : Setting} {value? : Option String}
    (read : Word.ofArgument argument = .setting setting value?) :
    value?.elim (argument ∈ setting.options) fun value =>
      Item.Spelled (.setting setting value) [argument] := by
  rcases Word.ofArgument_cases argument with
    ⟨-, separator⟩ | ⟨name, given?, equal, long⟩ | ⟨option, equal, short⟩ | ⟨-, positional⟩
  · cases separator.symm.trans read
  · obtain ⟨rfl, rfl⟩ := Word.ofLong_eq_setting (long.symm.trans read)
    have named : "--" ++ setting.name ∈ setting.options := by cases setting <;> decide
    cases value? with
    | none => simpa [joinedValue, equal] using named
    | some value =>
        rw [equal, joinedValue_some, ← String.append_assoc]
        exact .joined named value
  · obtain ⟨rfl, ⟨rfl, rfl⟩ | ⟨value, rfl, rfl⟩ | ⟨first, rest, differs, rfl, rfl⟩⟩ :=
      Word.ofShort_eq_setting (short.symm.trans read)
    · rw [Option.elim_none, equal]
      decide
    · have joined : argument = "-k" ++ "=" ++ String.ofList value := by
        rw [equal]
        exact String.toList_inj.mp (by simp)
      rw [joined]
      exact .joined (by decide) _
    · have joined : argument = "-k" ++ String.ofList (first :: rest) := by
        rw [equal]
        exact String.toList_inj.mp (by simp)
      rw [joined]
      exact .short differs
  · cases positional.symm.trans read

/-- An option that stands for a setting is read as that. -/
theorem Word.ofArgument_option {setting : Setting} {option : String}
    (named : option ∈ setting.options) : Word.ofArgument option = .setting setting none := by
  cases setting <;> simp only [Setting.options, List.mem_cons, List.not_mem_nil, or_false] at named
  · rw [named]
    rfl
  · rcases named with rfl | rfl <;> rfl
  · rw [named]
    rfl

theorem Word.ofArgument_joined {setting : Setting} {option : String}
    (named : option ∈ setting.options) (value : String) :
    Word.ofArgument (option ++ "=" ++ value) = .setting setting (some value) := by
  have long : Word.ofArgument ("--" ++ setting.name ++ "=" ++ value) =
      .setting setting (some value) := by
    have filled : setting.name ≠ "" := by cases setting <;> decide
    have plain : '=' ∉ setting.name.toList := by cases setting <;> decide
    rw [String.append_assoc, ← joinedValue_some, Word.ofArgument_long filled plain,
      Word.ofLong_name]
  have short : Word.ofArgument ("-k" ++ "=" ++ value) = .setting .key (some value) := by
    rw [show "-k" ++ "=" ++ value = "-" ++ String.ofList ('k' :: '=' :: value.toList) from
      String.toList_inj.mp (by simp), Word.ofArgument_short (by decide), Word.ofShort,
      String.ofList_toList]
  cases setting <;> simp only [Setting.options, List.mem_cons, List.not_mem_nil, or_false] at named
  · rwa [named]
  · rcases named with rfl | rfl
    · exact long
    · exact short
  · rwa [named]

end RunSigning.CommandLine
