import RunSigning.Markup.Token.Scan

/-
This file says what readers take. A reader takes a piece of text in front of a rest, and a
reader that is put together takes the pieces of its parts one after the other.
-/

namespace RunSigning.Text

/-- What holds of all characters of a text is decided on the text, and not on all characters. -/
instance decidableForallMem {keep : Char → Prop} [DecidablePred keep] (text : List Char) :
    Decidable (∀ c, c ∈ text → keep c) :=
  List.decidableBAll keep text

theorem breakAt_eq_iff {stop : List Char → Bool} {text first second : List Char} :
    breakAt stop text = (first, second) ↔
      text = first ++ second ∧ (∀ before after, after ≠ [] → first = before ++ after →
        stop (after ++ second) = false) ∧ (second ≠ [] → stop second = true) := by
  induction text generalizing first with
  | nil =>
      rw [breakAt_nil]
      constructor
      · rintro ⟨⟩
        simp +contextual
      · rintro ⟨equal, -, -⟩
        obtain ⟨rfl, rfl⟩ := List.append_eq_nil_iff.mp equal.symm
        rfl
  | cons c rest ih =>
      rw [breakAt_cons]
      by_cases stops : stop (c :: rest)
      · rw [if_pos stops]
        constructor
        · rintro ⟨⟩
          simp +contextual [stops]
        · rintro ⟨equal, goesOn, -⟩
          cases first with
          | nil => simpa using equal
          | cons d more =>
              have := goesOn [] (d :: more) (by simp) rfl
              rw [← equal, stops] at this
              cases this
      · rw [if_neg stops]
        have inner := @ih first.tail
        cases first with
        | nil =>
            simp only [Prod.mk.injEq, reduceCtorEq, false_and, List.nil_append, false_iff]
            rintro ⟨rfl, -, stops'⟩
            exact stops (stops' (by simp))
        | cons d more =>
            rw [Prod.mk.injEq, List.cons.injEq, and_assoc, ← Prod.mk.injEq, Prod.eta]
            rw [List.tail_cons] at inner
            rw [inner]
            constructor
            · rintro ⟨rfl, rfl, goesOn, ends⟩
              refine ⟨rfl, ?_, ends⟩
              intro before after filled equal
              cases before with
              | nil =>
                  rw [List.nil_append] at equal
                  rw [← equal]
                  simpa using stops
              | cons e before =>
                  rw [List.cons_append, List.cons.injEq] at equal
                  exact goesOn before after filled equal.2
            · rintro ⟨equal, goesOn, ends⟩
              rw [List.cons_append, List.cons.injEq] at equal
              refine ⟨equal.1, equal.2, ?_, ends⟩
              intro before after filled split
              exact goesOn (d :: before) after filled (by simp [split])

theorem breakWhile_eq_iff {keep : Char → Bool} {text first second : List Char} :
    breakWhile keep text = (first, second) ↔
      text = first ++ second ∧ (∀ c ∈ first, keep c = true) ∧
        (∀ c ∈ second.head?, keep c = false) := by
  rw [breakWhile, breakAt_eq_iff]
  constructor
  · rintro ⟨equal, goesOn, ends⟩
    refine ⟨equal, ?_, ?_⟩
    · intro c member
      obtain ⟨before, after, rfl⟩ := List.append_of_mem member
      simpa using goesOn before (c :: after) (by simp) rfl
    · intro c head
      cases second with
      | nil => cases head
      | cons d more =>
          cases head
          simpa using ends (by simp)
  · rintro ⟨equal, kept, ends⟩
    refine ⟨equal, ?_, ?_⟩
    · rintro before after filled rfl
      obtain ⟨c, more, rfl⟩ := List.exists_cons_of_ne_nil filled
      simpa using kept c (by simp)
    · intro filled
      obtain ⟨c, more, rfl⟩ := List.exists_cons_of_ne_nil filled
      simpa using ends c (by simp)

end RunSigning.Text

namespace RunSigning.Markup
open RunSigning.Text

namespace Reader

variable {A B : Type} {offset : Nat} {taken rest : List Char}

/-- The reader takes a piece of text in front of a rest and gives a value. -/
def Takes (reader : Reader A) (offset : Nat) (taken rest : List Char) (value : A) : Prop :=
  reader.read ⟨offset, taken ++ rest⟩ = .ok (value, ⟨offset + byteLength taken, rest⟩)

/-- A reader that succeeds has taken the text up to where it stops. -/
theorem takes_of_read {reader : Reader A} {start stop : Cursor} {value : A}
    (success : reader.read start = .ok (value, stop)) :
    ∃ taken, start.rest = taken ++ stop.rest ∧
      stop.offset = start.offset + byteLength taken ∧
      reader.Takes start.offset taken stop.rest value := by
  obtain ⟨taken, equal, place⟩ := reader.reaches success
  refine ⟨taken, equal, place, ?_⟩
  rw [Takes, ← equal, ← place]
  exact success

theorem takes_bind_iff {first : Reader A} {next : A → Reader B} {value : B} :
    (first >>= next).Takes offset taken rest value ↔
      ∃ middle before after, taken = before ++ after ∧
        first.Takes offset before (after ++ rest) middle ∧
        (next middle).Takes (offset + byteLength before) after rest value := by
  constructor
  · intro takes
    rw [Takes, read_bind] at takes
    split at takes
    · cases takes
    · rename_i middle place one
      obtain ⟨before, equal, offset', takes'⟩ := takes_of_read one
      obtain ⟨after, equal', -, takes''⟩ := takes_of_read takes
      dsimp only at *
      have split : taken = before ++ after := by
        rw [equal', ← List.append_assoc] at equal
        exact List.append_cancel_right equal
      rw [equal'] at takes'
      rw [offset'] at takes''
      exact ⟨middle, before, after, split, takes', takes''⟩
  · rintro ⟨middle, before, after, rfl, one, two⟩
    rw [Takes, read_bind, List.append_assoc, one]
    dsimp only
    rw [two, byteLength_append, Nat.add_assoc]

theorem Takes.bind {first : Reader A} {next : A → Reader B} {value : B} {middle : A}
    (before after : List Char) (one : first.Takes offset before (after ++ rest) middle)
    (two : (next middle).Takes (offset + byteLength before) after rest value) :
    (first >>= next).Takes offset (before ++ after) rest value :=
  takes_bind_iff.mpr ⟨middle, before, after, rfl, one, two⟩

/-- A first part that only looks leaves the text to the second one. -/
theorem Takes.look {first : Reader A} {next : A → Reader B} {value : B} (middle : A)
    (one : first.Takes offset [] (taken ++ rest) middle)
    (two : (next middle).Takes offset taken rest value) :
    (first >>= next).Takes offset taken rest value :=
  one.bind [] taken two

@[simp] theorem takes_pure_iff {value value' : A} :
    (pure value : Reader A).Takes offset taken rest value' ↔ taken = [] ∧ value' = value := by
  simp only [Takes, read_pure, Except.ok.injEq, Prod.mk.injEq, Cursor.mk.injEq]
  constructor
  · rintro ⟨rfl, -, equal⟩
    exact ⟨List.append_left_eq_self.mp equal, rfl⟩
  · rintro ⟨rfl, rfl⟩
    simp

@[simp] theorem not_takes_failAt {place : Nat} {fault : Fault} {value : A} :
    ¬ (failAt place fault : Reader A).Takes offset taken rest value := by
  simp [Takes]

@[simp] theorem takes_cursor_iff {value : Cursor} :
    cursor.Takes offset taken rest value ↔ taken = [] ∧ value = ⟨offset, rest⟩ := by
  simp only [Takes, cursor, Except.ok.injEq, Prod.mk.injEq, Cursor.mk.injEq]
  constructor
  · rintro ⟨rfl, -, equal⟩
    obtain rfl := List.append_left_eq_self.mp equal
    simp
  · rintro ⟨rfl, rfl⟩
    simp

/-- A reader that only looks takes nothing. -/
theorem takes_look_iff {f : Cursor → A} {value : A} :
    (do return f (← cursor) : Reader A).Takes offset taken rest value ↔
      taken = [] ∧ value = f ⟨offset, rest⟩ := by
  rw [takes_bind_iff]
  constructor
  · rintro ⟨middle, before, after, rfl, looks, gives⟩
    obtain ⟨rfl, rfl⟩ := takes_cursor_iff.mp looks
    obtain ⟨rfl, rfl⟩ := takes_pure_iff.mp gives
    exact ⟨rfl, rfl⟩
  · rintro ⟨rfl, rfl⟩
    exact ⟨⟨offset, rest⟩, [], [], by simp, by simp, by simp⟩

@[simp] theorem takes_offset_iff {value : Nat} :
    Reader.offset.Takes offset taken rest value ↔ taken = [] ∧ value = offset :=
  takes_look_iff

@[simp] theorem takes_atEnd_iff {value : Bool} :
    atEnd.Takes offset taken rest value ↔ taken = [] ∧ value = rest.isEmpty :=
  takes_look_iff

@[simp] theorem takes_sees_iff {literal : String} {value : Bool} :
    (sees literal).Takes offset taken rest value ↔
      taken = [] ∧ value = startsWith literal.toList rest :=
  takes_look_iff

@[simp] theorem takes_seesSpace_iff {value : Bool} :
    seesSpace.Takes offset taken rest value ↔ taken = [] ∧ value = rest.head?.any isSpace :=
  takes_look_iff

@[simp] theorem takes_seesLoneBracket_iff {value : Bool} :
    seesLoneBracket.Takes offset taken rest value ↔ taken = [] ∧ value = (rest == ['<']) :=
  takes_look_iff

@[simp] theorem not_takes_fail {fault : Fault} {value : A} :
    ¬ (fail fault : Reader A).Takes offset taken rest value := by
  rw [fail, takes_bind_iff]
  rintro ⟨middle, before, after, -, -, fails⟩
  exact not_takes_failAt fails

theorem takes_refuse_iff {wrong : Bool} {fault : Fault} {value : Unit} :
    (refuse wrong fault).Takes offset taken rest value ↔ taken = [] ∧ wrong = false := by
  cases wrong <;> simp [refuse]

theorem takes_refuseAt_iff {place : Nat} {wrong : Bool} {fault : Fault} {value : Unit} :
    (refuseAt place wrong fault).Takes offset taken rest value ↔ taken = [] ∧ wrong = false := by
  cases wrong <;> simp [refuseAt]

theorem takes_takeUntil_iff {stop : List Char → Bool} {value : List Char} :
    (takeUntil stop).Takes offset taken rest value ↔
      value = taken ∧ breakAt stop (taken ++ rest) = (taken, rest) := by
  simp only [Takes, takeUntil, Except.ok.injEq, Prod.mk.injEq, Cursor.mk.injEq]
  constructor
  · rintro ⟨rfl, -, equal⟩
    have whole := breakAt_append stop (taken ++ rest)
    rw [equal] at whole
    have first := List.append_cancel_right whole
    exact ⟨first, Prod.ext first equal⟩
  · rintro ⟨rfl, equal⟩
    simp [equal]

theorem takes_takeWhile_iff {keep : Char → Bool} {value : List Char} :
    (takeWhile keep).Takes offset taken rest value ↔
      value = taken ∧ (∀ c ∈ taken, keep c = true) ∧ (∀ c ∈ rest.head?, keep c = false) := by
  rw [takeWhile, takes_takeUntil_iff]
  have := @breakWhile_eq_iff keep (taken ++ rest) taken rest
  rw [breakWhile] at this
  simp [this]

theorem takes_literal_iff {text : String} {value : Unit} :
    (literal text).Takes offset taken rest value ↔ taken = text.toList := by
  simp only [Takes, literal]
  split
  · rename_i found equal
    have whole := strip?_eq_some_iff.mp equal
    simp only [Except.ok.injEq, Prod.mk.injEq, Cursor.mk.injEq, true_and]
    constructor
    · rintro ⟨-, rfl⟩
      exact List.append_cancel_right whole
    · rintro rfl
      exact ⟨rfl, (List.append_cancel_left whole).symm⟩
  · rename_i missing
    simp only [reduceCtorEq, false_iff]
    rintro rfl
    rw [strip?_eq_some_iff.mpr rfl] at missing
    cases missing

theorem takes_one_iff {expected : Expected} {accept : Char → Bool} {value : Char} :
    (one expected accept).Takes offset taken rest value ↔
      taken = [value] ∧ accept value = true := by
  simp only [Takes, one]
  split
  · rename_i empty
    simp only [reduceCtorEq, false_iff]
    rintro ⟨rfl, -⟩
    cases empty
  · rename_i c after remaining
    split
    · rename_i accepted
      simp only [Except.ok.injEq, Prod.mk.injEq, Cursor.mk.injEq]
      constructor
      · rintro ⟨rfl, -, rfl⟩
        exact ⟨List.append_cancel_right (remaining.trans (List.singleton_append).symm), accepted⟩
      · rintro ⟨rfl, -⟩
        simp only [List.cons_append, List.nil_append, List.cons.injEq] at remaining
        simp [remaining]
    · rename_i refused
      simp only [reduceCtorEq, false_iff]
      rintro ⟨rfl, accepted⟩
      simp only [List.cons_append, List.nil_append, List.cons.injEq] at remaining
      rw [remaining.1] at accepted
      exact refused accepted

theorem takes_byte_iff {c : Char} {value : Unit} :
    (byte c).Takes offset taken rest value ↔ taken = [c] := by
  simp only [byte, takes_bind_iff, takes_one_iff, takes_pure_iff, beq_iff_eq]
  constructor
  · rintro ⟨middle, before, after, rfl, ⟨rfl, rfl⟩, rfl, -⟩
    rfl
  · rintro rfl
    exact ⟨c, [c], [], rfl, ⟨rfl, rfl⟩, rfl, trivial⟩

theorem takes_quote_iff {value : Char} :
    quote.Takes offset taken rest value ↔ taken = [value] ∧ (value = '\'' ∨ value = '"') := by
  simp [quote, takes_one_iff]

theorem takes_spaces_iff {value : Unit} :
    spaces.Takes offset taken rest value ↔
      (∀ c ∈ taken, isSpace c = true) ∧ (∀ c ∈ rest.head?, isSpace c = false) := by
  simp only [spaces, takes_bind_iff, takes_takeWhile_iff, takes_pure_iff]
  constructor
  · rintro ⟨middle, before, after, rfl, ⟨rfl, blank, ends⟩, rfl, -⟩
    simpa using ⟨blank, ends⟩
  · rintro ⟨blank, ends⟩
    exact ⟨taken, taken, [], by simp, ⟨rfl, blank, by simpa using ends⟩, rfl, trivial⟩

theorem takes_someSpaces_iff {value : Unit} :
    someSpaces.Takes offset taken rest value ↔
      taken ≠ [] ∧ (∀ c ∈ taken, isSpace c = true) ∧ (∀ c ∈ rest.head?, isSpace c = false) := by
  simp only [someSpaces, takes_bind_iff, takes_one_iff, takes_spaces_iff]
  constructor
  · rintro ⟨middle, before, after, rfl, ⟨rfl, first⟩, blank, ends⟩
    refine ⟨by simp, ?_, ends⟩
    intro c member
    rcases List.mem_cons.mp member with rfl | later
    · exact first
    · exact blank c later
  · rintro ⟨filled, blank, ends⟩
    obtain ⟨c, more, rfl⟩ := List.exists_cons_of_ne_nil filled
    exact ⟨c, [c], more, rfl, ⟨rfl, blank c (by simp)⟩,
      fun d member => blank d (List.mem_cons_of_mem c member), ends⟩

theorem forbidden?_eq_none_iff {place : Nat} {text : List Char} :
    forbidden? place text = none ↔ ∀ c ∈ text, isAllowed c = true := by
  induction text generalizing place with
  | nil => simp [forbidden?]
  | cons c rest ih =>
      by_cases allowed : isAllowed c
      · simp [forbidden?, allowed, ih]
      · simp [forbidden?, allowed]

theorem takes_characters_iff {stop : List Char → Bool} {value : List Char} :
    (characters stop).Takes offset taken rest value ↔
      value = taken ∧ (∀ c ∈ taken, isAllowed c = true) ∧
        breakAt stop (taken ++ rest) = (taken, rest) := by
  simp only [characters, takes_bind_iff, takes_takeUntil_iff, takes_offset_iff]
  constructor
  · rintro ⟨place, before, after, rfl, ⟨rfl, rfl⟩, text, before, after, rfl, ⟨rfl, broken⟩, ends⟩
    split at ends
    · exact absurd ends not_takes_failAt
    · rename_i allowed
      obtain ⟨rfl, rfl⟩ := takes_pure_iff.mp ends
      rw [forbidden?_eq_none_iff] at allowed
      simpa using ⟨allowed, broken⟩
  · rintro ⟨rfl, allowed, broken⟩
    refine ⟨offset, [], value, by simp, by simp, value, value, [], by simp,
      ⟨rfl, by simpa using broken⟩, ?_⟩
    rw [forbidden?_eq_none_iff.mpr allowed]
    simp

section
variable {next : A → Reader B} {value : B}

theorem takes_look_bind_iff {f : Cursor → A} :
    ((do return f (← cursor) : Reader A) >>= next).Takes offset taken rest value ↔
      (next (f ⟨offset, taken ++ rest⟩)).Takes offset taken rest value := by
  rw [takes_bind_iff]
  constructor
  · rintro ⟨middle, before, after, rfl, looks, goesOn⟩
    obtain ⟨rfl, rfl⟩ := takes_look_iff.mp looks
    exact goesOn
  · intro goesOn
    exact ⟨_, [], taken, rfl, takes_look_iff.mpr ⟨rfl, rfl⟩, goesOn⟩

end

section
variable {value : B}

theorem takes_offset_bind_iff {next : Nat → Reader B} :
    (Reader.offset >>= next).Takes offset taken rest value ↔
      (next offset).Takes offset taken rest value :=
  takes_look_bind_iff

theorem takes_atEnd_bind_iff {next : Bool → Reader B} :
    (atEnd >>= next).Takes offset taken rest value ↔
      (next (taken ++ rest).isEmpty).Takes offset taken rest value :=
  takes_look_bind_iff

theorem takes_sees_bind_iff {literal : String} {next : Bool → Reader B} :
    (sees literal >>= next).Takes offset taken rest value ↔
      (next (startsWith literal.toList (taken ++ rest))).Takes offset taken rest value :=
  takes_look_bind_iff

theorem takes_seesSpace_bind_iff {next : Bool → Reader B} :
    (seesSpace >>= next).Takes offset taken rest value ↔
      (next ((taken ++ rest).head?.any isSpace)).Takes offset taken rest value :=
  takes_look_bind_iff

theorem takes_seesLoneBracket_bind_iff {next : Bool → Reader B} :
    (seesLoneBracket >>= next).Takes offset taken rest value ↔
      (next (taken ++ rest == ['<'])).Takes offset taken rest value :=
  takes_look_bind_iff

theorem takes_literal_bind_iff {text : String} {next : Unit → Reader B} :
    (literal text >>= next).Takes offset taken rest value ↔
      ∃ after, taken = text.toList ++ after ∧
        (next ()).Takes (offset + byteLength text.toList) after rest value := by
  simp only [takes_bind_iff, takes_literal_iff]
  constructor
  · rintro ⟨middle, before, after, rfl, rfl, goesOn⟩
    exact ⟨after, rfl, goesOn⟩
  · rintro ⟨after, rfl, goesOn⟩
    exact ⟨(), _, after, rfl, rfl, goesOn⟩

theorem takes_byte_bind_iff {c : Char} {next : Unit → Reader B} :
    (byte c >>= next).Takes offset taken rest value ↔
      ∃ after, taken = c :: after ∧ (next ()).Takes (offset + c.utf8Size) after rest value := by
  simp only [takes_bind_iff, takes_byte_iff]
  constructor
  · rintro ⟨middle, before, after, rfl, rfl, goesOn⟩
    exact ⟨after, rfl, by simpa using goesOn⟩
  · rintro ⟨after, rfl, goesOn⟩
    exact ⟨(), [c], after, rfl, rfl, by simpa using goesOn⟩

theorem takes_quote_bind_iff {next : Char → Reader B} :
    (quote >>= next).Takes offset taken rest value ↔
      ∃ delimiter after, taken = delimiter :: after ∧ (delimiter = '\'' ∨ delimiter = '"') ∧
        (next delimiter).Takes (offset + 1) after rest value := by
  simp only [takes_bind_iff, takes_quote_iff]
  constructor
  · rintro ⟨delimiter, before, after, rfl, ⟨rfl, fits⟩, goesOn⟩
    refine ⟨delimiter, after, rfl, fits, ?_⟩
    rcases fits with rfl | rfl <;> exact goesOn
  · rintro ⟨delimiter, after, rfl, fits, goesOn⟩
    refine ⟨delimiter, [delimiter], after, rfl, ⟨rfl, fits⟩, ?_⟩
    rcases fits with rfl | rfl <;> exact goesOn

theorem takes_spaces_bind_iff {next : Unit → Reader B} :
    (spaces >>= next).Takes offset taken rest value ↔
      ∃ gap after, taken = gap ++ after ∧ (∀ c ∈ gap, isSpace c = true) ∧
        (∀ c ∈ (after ++ rest).head?, isSpace c = false) ∧
        (next ()).Takes (offset + byteLength gap) after rest value := by
  simp only [takes_bind_iff, takes_spaces_iff]
  constructor
  · rintro ⟨middle, gap, after, rfl, ⟨blank, ends⟩, goesOn⟩
    exact ⟨gap, after, rfl, blank, ends, goesOn⟩
  · rintro ⟨gap, after, rfl, blank, ends, goesOn⟩
    exact ⟨(), gap, after, rfl, ⟨blank, ends⟩, goesOn⟩

theorem takes_optionally_bind_iff {wanted : Bool} {reader : Reader Unit}
    {next : Unit → Reader B} :
    (optionally wanted reader >>= next).Takes offset taken rest value ↔
      if wanted then (reader >>= next).Takes offset taken rest value
      else (next ()).Takes offset taken rest value := by
  cases wanted with
  | true => rfl
  | false => rfl

theorem takes_takeWhile_bind_iff {keep : Char → Bool} {next : List Char → Reader B} :
    (takeWhile keep >>= next).Takes offset taken rest value ↔
      ∃ run after, taken = run ++ after ∧ (∀ c ∈ run, keep c = true) ∧
        (∀ c ∈ (after ++ rest).head?, keep c = false) ∧
        (next run).Takes (offset + byteLength run) after rest value := by
  simp only [takes_bind_iff, takes_takeWhile_iff]
  constructor
  · rintro ⟨middle, run, after, rfl, ⟨rfl, kept, ends⟩, goesOn⟩
    exact ⟨middle, after, rfl, kept, ends, goesOn⟩
  · rintro ⟨run, after, rfl, kept, ends, goesOn⟩
    exact ⟨run, run, after, rfl, ⟨rfl, kept, ends⟩, goesOn⟩

theorem takes_characters_bind_iff {stop : List Char → Bool} {next : List Char → Reader B} :
    (characters stop >>= next).Takes offset taken rest value ↔
      ∃ text after, taken = text ++ after ∧ (∀ c ∈ text, isAllowed c = true) ∧
        breakAt stop (text ++ (after ++ rest)) = (text, after ++ rest) ∧
        (next text).Takes (offset + byteLength text) after rest value := by
  simp only [takes_bind_iff, takes_characters_iff]
  constructor
  · rintro ⟨middle, text, after, rfl, ⟨rfl, allowed, broken⟩, goesOn⟩
    exact ⟨middle, after, rfl, allowed, broken, goesOn⟩
  · rintro ⟨text, after, rfl, allowed, broken, goesOn⟩
    exact ⟨text, text, after, rfl, ⟨rfl, allowed, broken⟩, goesOn⟩

theorem takes_refuse_bind_iff {wrong : Bool} {fault : Fault} {next : Unit → Reader B} :
    (refuse wrong fault >>= next).Takes offset taken rest value ↔
      wrong = false ∧ (next ()).Takes offset taken rest value := by
  simp only [takes_bind_iff, takes_refuse_iff]
  constructor
  · rintro ⟨middle, _, after, rfl, ⟨rfl, fine⟩, goesOn⟩
    exact ⟨fine, goesOn⟩
  · rintro ⟨fine, goesOn⟩
    exact ⟨(), [], taken, rfl, ⟨rfl, fine⟩, goesOn⟩

theorem takes_refuseAt_bind_iff {place : Nat} {wrong : Bool} {fault : Fault}
    {next : Unit → Reader B} :
    (refuseAt place wrong fault >>= next).Takes offset taken rest value ↔
      wrong = false ∧ (next ()).Takes offset taken rest value := by
  simp only [takes_bind_iff, takes_refuseAt_iff]
  constructor
  · rintro ⟨middle, _, after, rfl, ⟨rfl, fine⟩, goesOn⟩
    exact ⟨fine, goesOn⟩
  · rintro ⟨fine, goesOn⟩
    exact ⟨(), [], taken, rfl, ⟨rfl, fine⟩, goesOn⟩

end

end Reader

end RunSigning.Markup
