import RunSigning.Proofs.CommandLine.Spelling

/-
This file says which arguments are accepted, and as what. What is read so far is what the items so
far say, so exactly those arguments are accepted that spell the items of an invocation.
-/

namespace RunSigning.CommandLine

namespace Progress

/-- What the arguments read so far say, and one item more. -/
def take (progress : Progress) : Item → Option Progress
  | .flag flag => progress.raise flag
  | .setting setting value => progress.set setting value
  | .positional text => progress.add text

def takeAll (progress : Progress) : List Item → Option Progress
  | [] => some progress
  | item :: items => (progress.take item).bind fun next => next.takeAll items

theorem addAll_eq_takeAll (progress : Progress) (texts : List String) :
    progress.addAll texts = progress.takeAll (texts.map .positional) := by
  induction texts generalizing progress with
  | nil => rfl
  | cons text texts ih =>
      rw [addAll, List.map_cons, takeAll, take]
      simp only [ih]

/-- The request after some items are taken, if none is refused. -/
def requestAfter (progress : Progress) (items : List Item) : Request :=
  (progress.takeAll items).elim .invalid finish

/-- Arguments that say one item are read as it, whatever follows. -/
theorem read_spelled {item : Item} {arguments : List String} (spelled : item.Spelled arguments)
    (progress : Progress) (rest : List String) :
    progress.read (arguments ++ rest) =
      (progress.take item).elim .invalid fun next => next.read rest := by
  cases spelled with
  | flag flag =>
      have word : Word.ofArgument ("--" ++ flag.name) = .flag flag := by cases flag <;> rfl
      rw [List.singleton_append, read, word, take]
      dsimp only
      cases progress.raise flag <;> rfl
  | @apart setting option value named plain =>
      rw [List.cons_append, List.singleton_append, read, Word.ofArgument_option named, take]
      dsimp only
      rw [looksLikeOption_eq_false_iff.mpr plain, if_neg Bool.false_ne_true]
      cases progress.set setting value <;> rfl
  | @joined setting option named value =>
      rw [List.singleton_append, read, Word.ofArgument_joined named value, take]
      dsimp only
      cases progress.set setting value <;> rfl
  | @short first rest' differs =>
      have word : Word.ofArgument ("-k" ++ String.ofList (first :: rest')) =
          .setting .key (some (String.ofList (first :: rest'))) := by
        rw [show "-k" ++ String.ofList (first :: rest') =
            "-" ++ String.ofList ('k' :: first :: rest') from String.toList_inj.mp (by simp),
          Word.ofArgument_short (by decide)]
        unfold Word.ofShort
        simp [differs]
      rw [List.singleton_append, read, word, take]
      dsimp only
      cases progress.set .key (String.ofList (first :: rest')) <;> rfl
  | @positional text plain =>
      rw [List.singleton_append, read, Word.ofArgument_plain plain, take]
      dsimp only
      cases progress.add text <;> rfl

/-- Arguments that say items are read as these. -/
theorem read_of_spelled {items : List Item} {arguments : List String}
    (spelled : Spelled items arguments) (progress : Progress) :
    progress.read arguments = progress.requestAfter items := by
  induction spelled generalizing progress with
  | nil => rfl
  | separator texts =>
      rw [read, show Word.ofArgument "--" = .separator from rfl, requestAfter, ← addAll_eq_takeAll]
  | cons first later ih =>
      rw [read_spelled first, requestAfter, takeAll]
      cases progress.take _ with
      | none => rfl
      | some next => exact ih next

/-- Arguments that are accepted say items. -/
theorem exists_spelled_of_read {progress : Progress} {arguments : List String}
    {invocation : Invocation} (accepted : progress.read arguments = .accepted invocation) :
    ∃ items, Spelled items arguments := by
  fun_induction read progress arguments with
  | case1 => exact ⟨[], .nil⟩
  | case2 progress argument rest separator =>
      rw [Word.eq_separator separator]
      exact ⟨_, .separator rest⟩
  | case6 progress argument rest flag word next raised ih =>
      obtain ⟨items, later⟩ := ih accepted
      exact ⟨_, .cons (Word.spelled_flag word) later⟩
  | case8 progress argument rest text word next added ih =>
      obtain ⟨items, later⟩ := ih accepted
      obtain ⟨rfl, plain⟩ := Word.ofArgument_eq_positional_iff.mp word
      exact ⟨_, .cons (.positional plain) later⟩
  | case10 progress argument rest setting value word next set ih =>
      obtain ⟨items, later⟩ := ih accepted
      exact ⟨_, .cons (Word.setting_cases word) later⟩
  | case14 progress argument setting word value rest plain next set ih =>
      obtain ⟨items, later⟩ := ih accepted
      have named := Word.setting_cases word
      have plain' := looksLikeOption_eq_false_iff.mp (Bool.eq_false_iff.mpr plain)
      exact ⟨_, .cons (.apart named plain') later⟩
  | _ => cases accepted

def value? (progress : Progress) : Setting → Option String
  | .signer => progress.signer?
  | .key => progress.key?
  | .logLevel => progress.logLevel?

def isRaised (progress : Progress) : Flag → Bool
  | .strict => progress.strict
  | .dryRun => progress.dryRun

/-- Everything that the arguments read so far say. -/
theorem eq_of_view {progress other : Progress} (texts : progress.positionals = other.positionals)
    (values : ∀ setting, progress.value? setting = other.value? setting)
    (flags : ∀ flag, progress.isRaised flag = other.isRaised flag) : progress = other := by
  obtain ⟨_, _, _, _, _, _⟩ := progress
  obtain ⟨_, _, _, _, _, _⟩ := other
  have signer := values .signer
  have key := values .key
  have logLevel := values .logLevel
  have strict := flags .strict
  have dryRun := flags .dryRun
  simp_all [value?, isRaised]

/-- What is read with the value of a setting in it. -/
def withValue (progress : Progress) (setting : Setting) (value : String) : Progress :=
  match setting with
  | .signer => { progress with signer? := some value }
  | .key => { progress with key? := some value }
  | .logLevel => { progress with logLevel? := some value }

def withFlag (progress : Progress) (flag : Flag) : Progress :=
  match flag with
  | .strict => { progress with strict := true }
  | .dryRun => { progress with dryRun := true }

def withText (progress : Progress) (text : String) : Progress :=
  { progress with positionals := progress.positionals ++ [text] }

theorem set_eq_some_iff {progress next : Progress} {setting : Setting} {value : String} :
    progress.set setting value = some next ↔ progress.value? setting = none ∧
      (setting ≠ .logLevel → value ≠ "") ∧ progress.withValue setting value = next := by
  cases setting <;> simp [set, value?, withValue, and_assoc]

theorem raise_eq_some_iff {progress next : Progress} {flag : Flag} :
    progress.raise flag = some next ↔
      progress.isRaised flag = false ∧ progress.withFlag flag = next := by
  cases flag <;> simp [raise, isRaised, withFlag]

theorem add_eq_some_iff {progress next : Progress} {text : String} :
    progress.add text = some next ↔
      text ≠ "" ∧ progress.positionals.length < 2 ∧ progress.withText text = next := by
  simp [add, withText, and_assoc]

@[simp] theorem positionals_withValue (progress : Progress) (setting : Setting) (value : String) :
    (progress.withValue setting value).positionals = progress.positionals := by
  cases setting <;> rfl

@[simp] theorem positionals_withFlag (progress : Progress) (flag : Flag) :
    (progress.withFlag flag).positionals = progress.positionals := by
  cases flag <;> rfl

@[simp] theorem value?_withValue (progress : Progress) (setting other : Setting) (value : String) :
    (progress.withValue setting value).value? other =
      if setting = other then some value else progress.value? other := by
  cases setting <;> cases other <;> rfl

@[simp] theorem value?_withFlag (progress : Progress) (flag : Flag) (setting : Setting) :
    (progress.withFlag flag).value? setting = progress.value? setting := by
  cases flag <;> cases setting <;> rfl

@[simp] theorem isRaised_withValue (progress : Progress) (setting : Setting) (value : String)
    (flag : Flag) : (progress.withValue setting value).isRaised flag = progress.isRaised flag := by
  cases setting <;> cases flag <;> rfl

@[simp] theorem isRaised_withFlag (progress : Progress) (flag other : Flag) :
    (progress.withFlag flag).isRaised other =
      if flag = other then true else progress.isRaised other := by
  cases flag <;> cases other <;> rfl

@[simp] theorem positionals_withText (progress : Progress) (text : String) :
    (progress.withText text).positionals = progress.positionals ++ [text] := rfl

@[simp] theorem value?_withText (progress : Progress) (text : String) (setting : Setting) :
    (progress.withText text).value? setting = progress.value? setting := by
  cases setting <;> rfl

@[simp] theorem isRaised_withText (progress : Progress) (text : String) (flag : Flag) :
    (progress.withText text).isRaised flag = progress.isRaised flag := by
  cases flag <;> rfl

/-- What is read is what the items say. -/
structure Holds (progress : Progress) (items : List Item) : Prop where
  texts : progress.positionals = positionalTexts items
  few : (positionalTexts items).length ≤ 2
  proper : "" ∉ positionalTexts items
  given : ∀ setting, (progress.value? setting).toList = givenValues setting items
  valued : ∀ setting, setting ≠ .logLevel → "" ∉ givenValues setting items
  raised : ∀ flag, items.count (.flag flag) = (progress.isRaised flag).toNat

theorem holds_empty : empty.Holds [] where
  texts := rfl
  few := Nat.zero_le 2
  proper := List.not_mem_nil
  given := by
    intro setting
    cases setting <;> rfl
  valued := fun _ _ => List.not_mem_nil
  raised := by
    intro flag
    cases flag <;> rfl

theorem Holds.eq {progress other : Progress} {items : List Item} (holds : progress.Holds items)
    (holds' : other.Holds items) : progress = other := by
  refine eq_of_view (holds.texts.trans holds'.texts.symm) ?_ ?_
  · intro setting
    have lists := (holds.given setting).trans (holds'.given setting).symm
    cases one : progress.value? setting <;> cases two : other.value? setting <;> simp_all
  · intro flag
    have counts := (holds.raised flag).symm.trans (holds'.raised flag)
    cases one : progress.isRaised flag <;> cases two : other.isRaised flag <;> simp_all

section
variable {progress next : Progress} {items : List Item} {item : Item}

theorem Holds.take_flag {flag : Flag} (holds : progress.Holds items)
    (lowered : progress.isRaised flag = false) :
    (progress.withFlag flag).Holds (items ++ [.flag flag]) where
  texts := by simpa [Item.positional?] using holds.texts
  few := by simpa [Item.positional?] using holds.few
  proper := by simpa [Item.positional?] using holds.proper
  given := by
    intro setting
    simpa [Item.value?] using holds.given setting
  valued := by
    intro setting named
    simpa [Item.value?] using holds.valued setting named
  raised := by
    intro other
    by_cases same : flag = other
    · subst same
      simp [holds.raised, lowered]
    · simp [holds.raised, same]

theorem Holds.take_setting {setting : Setting} {value : String} (holds : progress.Holds items)
    (fresh : progress.value? setting = none) (filled : setting ≠ .logLevel → value ≠ "") :
    (progress.withValue setting value).Holds (items ++ [.setting setting value]) where
  texts := by simpa [Item.positional?] using holds.texts
  few := by simpa [Item.positional?] using holds.few
  proper := by simpa [Item.positional?] using holds.proper
  given := by
    intro other
    have before := holds.given other
    by_cases same : setting = other
    · subst same
      rw [fresh] at before
      simp [Item.value?, ← before]
    · simpa [Item.value?, same] using before
  valued := by
    intro other named
    have before := holds.valued other named
    by_cases same : setting = other
    · subst same
      simpa [Item.value?, before] using filled named
    · simpa [Item.value?, same] using before
  raised := by
    intro flag
    simpa using holds.raised flag

theorem Holds.take_positional {text : String} (holds : progress.Holds items) (filled : text ≠ "")
    (room : progress.positionals.length < 2) :
    (progress.withText text).Holds (items ++ [.positional text]) where
  texts := by simp [Item.positional?, holds.texts]
  few := by
    rw [holds.texts] at room
    simpa [Item.positional?] using Nat.le_of_lt_succ room
  proper := by simpa [Item.positional?, Ne.symm filled] using holds.proper
  given := by
    intro setting
    simpa [Item.value?] using holds.given setting
  valued := by
    intro setting named
    simpa [Item.value?] using holds.valued setting named
  raised := by
    intro flag
    simpa using holds.raised flag

/-- Taking an item is saying it as well. -/
theorem Holds.take (holds : progress.Holds items) (taken : progress.take item = some next) :
    next.Holds (items ++ [item]) := by
  cases item with
  | flag flag =>
      obtain ⟨lowered, rfl⟩ := raise_eq_some_iff.mp taken
      exact holds.take_flag lowered
  | setting setting value =>
      obtain ⟨fresh, filled, rfl⟩ := set_eq_some_iff.mp taken
      exact holds.take_setting fresh filled
  | positional text =>
      obtain ⟨filled, room, rfl⟩ := add_eq_some_iff.mp taken
      exact holds.take_positional filled room

/-- An item is taken if it may be said as well, perhaps before others. -/
theorem Holds.exists_take {later : List Item} {final : Progress} (holds : progress.Holds items)
    (whole : final.Holds (items ++ item :: later)) : ∃ next, progress.take item = some next := by
  cases item with
  | flag flag =>
      have once := whole.raised flag
      have lowered : progress.isRaised flag = false := by
        have most := Bool.toNat_le (final.isRaised flag)
        rw [List.count_append, List.count_cons_self, holds.raised] at once
        cases raised : progress.isRaised flag with
        | false => rfl
        | true =>
            rw [raised, Bool.toNat_true] at once
            omega
      exact ⟨_, raise_eq_some_iff.mpr ⟨lowered, rfl⟩⟩
  | setting setting value =>
      have once := whole.given setting
      have fresh : progress.value? setting = none := by
        cases given : progress.value? setting with
        | none => rfl
        | some old =>
            cases last : final.value? setting <;>
              simp [Item.value?, ← holds.given, given, last] at once
      have filled : setting ≠ .logLevel → value ≠ "" := by
        rintro named rfl
        exact whole.valued setting named (by simp [Item.value?])
      exact ⟨_, set_eq_some_iff.mpr ⟨fresh, filled, rfl⟩⟩
  | positional text =>
      have filled : text ≠ "" := by
        rintro rfl
        exact whole.proper (by simp [Item.positional?])
      have room : progress.positionals.length < 2 := by
        have few := whole.few
        simp only [positionalTexts_append, positionalTexts_cons, Item.positional?,
          Option.toList_some, List.length_append, List.length_singleton] at few
        rw [holds.texts]
        omega
      exact ⟨_, add_eq_some_iff.mpr ⟨filled, room, rfl⟩⟩

/-- Items are all taken exactly if they may all be said. -/
theorem takeAll_eq_some_iff {later : List Item} {final : Progress} (holds : progress.Holds items) :
    progress.takeAll later = some final ↔ final.Holds (items ++ later) := by
  induction later generalizing progress items with
  | nil =>
      rw [takeAll, List.append_nil]
      constructor
      · rintro ⟨⟩
        exact holds
      · intro holds'
        rw [holds.eq holds']
  | cons item later ih =>
      rw [takeAll]
      constructor
      · intro taken
        obtain ⟨next, first, rest⟩ := Option.bind_eq_some_iff.mp taken
        simpa using (ih (holds.take first)).mp rest
      · intro whole
        obtain ⟨next, first⟩ := holds.exists_take whole
        rw [first, Option.bind_some]
        exact (ih (holds.take first)).mpr (by simpa using whole)

/-- An invocation takes the value of a setting from what is read, or the default. -/
theorem Holds.value_iff (holds : progress.Holds items) (setting : Setting) (value : String) :
    (givenValues setting items = [] ∧ value = setting.default ∨
      givenValues setting items = [value]) ↔
      (progress.value? setting).getD setting.default = value := by
  rw [← holds.given]
  cases progress.value? setting <;> simp [eq_comm]

theorem Holds.count_flag_iff (holds : progress.Holds items) (flag : Flag) (raised : Bool) :
    items.count (.flag flag) = raised.toNat ↔ progress.isRaised flag = raised := by
  rw [holds.raised]
  cases progress.isRaised flag <;> cases raised <;> simp

/-- A path is known by its text, whether it is given or the default. -/
theorem pathOr_eq_iff (given? : Option String) (default path : Path) :
    (given?.map Path.mk).getD default = path ↔ given?.getD default.text = path.text := by
  obtain ⟨standard⟩ := default
  obtain ⟨text⟩ := path
  cases given? <;> simp

/-- What is read is finished as the invocation that gathers the same items. -/
theorem Holds.finish_eq_accepted_iff {invocation : Invocation} (holds : progress.Holds items) :
    progress.finish = .accepted invocation ↔ invocation.Gathers items := by
  have signer := pathOr_eq_iff progress.signer? Layout.defaultSigner
  have key := pathOr_eq_iff progress.key? Layout.defaultKey
  obtain ⟨binary, runDirectory, signerPath, keyPath, strict, dryRun, logFilter⟩ := invocation
  have texts := holds.texts
  rw [finish]
  split
  · rename_i first second two
    rw [two] at texts
    simp only [Request.accepted.injEq, Invocation.mk.injEq, signer, key]
    constructor
    · rintro ⟨rfl, rfl, signed, keyed, rfl, rfl, logged⟩
      refine ⟨texts.symm, holds.proper, ?_, holds.valued, ?_⟩
      · intro setting
        rw [holds.value_iff]
        cases setting
        · exact signed
        · exact keyed
        · exact logged
      · intro flag
        rw [holds.count_flag_iff]
        cases flag <;> rfl
    · intro gathers
      have spoken := texts.trans gathers.texts
      simp only [List.cons.injEq, and_true] at spoken
      obtain ⟨rfl, rfl⟩ := spoken
      refine ⟨rfl, rfl, ?_, ?_, ?_, ?_, ?_⟩
      · exact (holds.value_iff .signer _).mp (gathers.given .signer)
      · exact (holds.value_iff .key _).mp (gathers.given .key)
      · exact (holds.count_flag_iff .strict _).mp (gathers.raised .strict)
      · exact (holds.count_flag_iff .dryRun _).mp (gathers.raised .dryRun)
      · exact (holds.value_iff .logLevel _).mp (gathers.given .logLevel)
  · rename_i other
    simp only [reduceCtorEq, false_iff]
    intro gathers
    exact other _ _ (texts.trans gathers.texts)

end

end Progress

/-- What an invocation gathers can be read. -/
theorem Invocation.Gathers.exists_holds {invocation : Invocation} {items : List Item}
    (gathers : invocation.Gathers items) : ∃ progress : Progress, progress.Holds items := by
  refine ⟨⟨positionalTexts items, (givenValues .signer items).head?, (givenValues .key items).head?,
    (givenValues .logLevel items).head?, invocation.strict, invocation.dryRun⟩, rfl, ?_,
    gathers.proper, ?_, gathers.valued, ?_⟩
  · rw [gathers.texts]
    exact Nat.le_refl 2
  · intro setting
    have single : (givenValues setting items).head?.toList = givenValues setting items := by
      rcases gathers.given setting with ⟨none, -⟩ | one
      · simp [none]
      · simp [one]
    cases setting <;> exact single
  · intro flag
    rw [gathers.raised]
    cases flag <;> rfl

/-- Arguments are accepted exactly if they spell an invocation, and as that one. -/
theorem Request.ofArguments_eq_accepted_iff {arguments : List String} {invocation : Invocation} :
    Request.ofArguments arguments = .accepted invocation ↔ invocation.SpelledBy arguments := by
  constructor
  · intro accepted
    obtain ⟨items, spelled⟩ := Progress.exists_spelled_of_read accepted
    rw [ofArguments, Progress.read_of_spelled spelled, Progress.requestAfter] at accepted
    cases taken : Progress.empty.takeAll items with
    | none => simp [taken] at accepted
    | some final =>
        have holds := (Progress.takeAll_eq_some_iff Progress.holds_empty).mp taken
        rw [taken, Option.elim_some] at accepted
        exact ⟨items, spelled, holds.finish_eq_accepted_iff.mp accepted⟩
  · rintro ⟨items, spelled, gathers⟩
    obtain ⟨final, holds⟩ := gathers.exists_holds
    rw [ofArguments, Progress.read_of_spelled spelled, Progress.requestAfter,
      (Progress.takeAll_eq_some_iff Progress.holds_empty).mpr holds, Option.elim_some]
    exact holds.finish_eq_accepted_iff.mpr gathers

end RunSigning.CommandLine
