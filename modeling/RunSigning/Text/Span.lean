/-
This file measures text in bytes of its UTF-8 form and cuts it at byte offsets.
A cut succeeds exactly when the offset stands between two characters.
-/

namespace RunSigning.Text

/-- A span holds the bytes from `start` up to `stop`. -/
structure Span where
  start : Nat
  stop : Nat
  deriving DecidableEq, Repr

/-- The byte length of a text is the sum of the sizes of its characters. -/
def byteLength (text : List Char) : Nat :=
  text.foldr (fun c length => c.utf8Size + length) 0

@[simp] theorem byteLength_nil : byteLength [] = 0 := rfl

@[simp] theorem byteLength_cons (c : Char) (rest : List Char) :
    byteLength (c :: rest) = c.utf8Size + byteLength rest := rfl

@[simp] theorem byteLength_append (first second : List Char) :
    byteLength (first ++ second) = byteLength first + byteLength second := by
  induction first with
  | nil => simp
  | cons c rest ih => simp [ih, Nat.add_assoc]

/-- The bytes of characters that take one byte each. -/
theorem byteLength_eq_length {text : List Char} (single : ∀ c ∈ text, c.utf8Size = 1) :
    byteLength text = text.length := by
  induction text with
  | nil => rfl
  | cons c text ih =>
      rw [byteLength_cons, List.length_cons, single c (by simp),
        ih fun d member => single d (List.mem_cons_of_mem c member), Nat.add_comm]

theorem utf8ByteSize_ofList (text : List Char) :
    (String.ofList text).utf8ByteSize = byteLength text := by
  induction text with
  | nil => rfl
  | cons c rest ih =>
      rw [String.ofList_cons, String.utf8ByteSize_append, String.utf8ByteSize_singleton, ih,
        byteLength_cons]

/-- The cut moves characters to `before` until the offset is used up. -/
def splitFrom (before : List Char) : Nat → List Char → Option (List Char × List Char)
  | 0, text => some (before.reverse, text)
  | _ + 1, [] => none
  | offset + 1, c :: rest =>
      if c.utf8Size ≤ offset + 1 then
        splitFrom (c :: before) (offset + 1 - c.utf8Size) rest
      else none

/-- The text before a byte offset and the text from it on. -/
def splitAt? (offset : Nat) (text : List Char) : Option (List Char × List Char) :=
  splitFrom [] offset text

theorem splitFrom_eq_some_iff (before text first second : List Char) (offset : Nat) :
    splitFrom before offset text = some (first, second) ↔
      ∃ taken, first = before.reverse ++ taken ∧ text = taken ++ second ∧
        byteLength taken = offset := by
  induction text generalizing before offset with
  | nil =>
      cases offset with
      | zero =>
          simp only [splitFrom, Option.some.injEq, Prod.mk.injEq]
          constructor
          · rintro ⟨rfl, rfl⟩
            exact ⟨[], by simp⟩
          · rintro ⟨taken, rfl, empty, _⟩
            obtain ⟨rfl, rfl⟩ := List.append_eq_nil_iff.mp empty.symm
            simp
      | succ offset =>
          simp only [splitFrom, reduceCtorEq, false_iff]
          rintro ⟨taken, _, empty, length⟩
          have : taken = [] := (List.append_eq_nil_iff.mp empty.symm).1
          subst this
          simp at length
  | cons c rest ih =>
      cases offset with
      | zero =>
          simp only [splitFrom, Option.some.injEq, Prod.mk.injEq]
          constructor
          · rintro ⟨rfl, rfl⟩
            exact ⟨[], by simp⟩
          · rintro ⟨taken, rfl, equal, length⟩
            cases taken with
            | nil => simpa using equal
            | cons d more =>
                have := d.utf8Size_pos
                simp at length
                omega
      | succ offset =>
          have positive := c.utf8Size_pos
          simp only [splitFrom]
          split
          · rename_i fits
            rw [ih]
            constructor
            · rintro ⟨taken, rfl, rfl, length⟩
              exact ⟨c :: taken, by simp, by simp, by simp [length]; omega⟩
            · rintro ⟨taken, rfl, equal, length⟩
              cases taken with
              | nil => simp at length
              | cons d more =>
                  simp only [List.cons_append, List.cons.injEq] at equal
                  obtain ⟨rfl, rfl⟩ := equal
                  refine ⟨more, by simp, rfl, ?_⟩
                  simp at length
                  omega
          · rename_i tooLarge
            simp only [reduceCtorEq, false_iff]
            rintro ⟨taken, _, equal, length⟩
            cases taken with
            | nil => simp at length
            | cons d more =>
                simp only [List.cons_append, List.cons.injEq] at equal
                obtain ⟨rfl, _⟩ := equal
                simp at length
                omega

/-- A cut gives two parts of the text, the first as long as the offset says. -/
theorem splitAt?_eq_some_iff {offset : Nat} {text first second : List Char} :
    splitAt? offset text = some (first, second) ↔
      text = first ++ second ∧ byteLength first = offset := by
  rw [splitAt?, splitFrom_eq_some_iff]
  constructor
  · rintro ⟨taken, rfl, rfl, length⟩
    exact ⟨by simp, by simpa using length⟩
  · rintro ⟨rfl, length⟩
    exact ⟨first, by simp, rfl, length⟩

/-- The text before a byte offset, empty if no cut is possible there. -/
def before (offset : Nat) (text : List Char) : List Char :=
  (splitAt? offset text).elim [] Prod.fst

/-- The text from a byte offset on, empty if no cut is possible there. -/
def after (offset : Nat) (text : List Char) : List Char :=
  (splitAt? offset text).elim [] Prod.snd

/-- The text that a span covers. -/
def slice (span : Span) (text : List Char) : List Char :=
  before (span.stop - span.start) (after span.start text)

/-- The text before a span and after it, if the span lies in the text and cuts no character. -/
def around? (span : Span) (text : List Char) : Option (List Char × List Char) :=
  if span.start ≤ span.stop then
    match splitAt? span.start text, splitAt? span.stop text with
    | some (before, _), some (_, after) => some (before, after)
    | _, _ => none
  else none

/-- The part of the text before the first place where `stop` holds, and the rest. -/
def breakFrom (stop : List Char → Bool) (before : List Char) :
    List Char → List Char × List Char
  | [] => (before.reverse, [])
  | c :: rest =>
      if stop (c :: rest) then (before.reverse, c :: rest)
      else breakFrom stop (c :: before) rest

/-- The longest beginning of the text in which `stop` holds nowhere, and the rest. -/
def breakAt (stop : List Char → Bool) (text : List Char) : List Char × List Char :=
  breakFrom stop [] text

theorem breakFrom_eq (stop : List Char → Bool) (before text : List Char) :
    breakFrom stop before text =
      (before.reverse ++ (breakAt stop text).1, (breakAt stop text).2) := by
  induction text generalizing before with
  | nil => simp [breakFrom, breakAt]
  | cons c rest ih =>
      simp only [breakAt, breakFrom]
      split
      · simp
      · rw [ih, ih [c]]
        simp

@[simp] theorem breakAt_nil (stop : List Char → Bool) : breakAt stop [] = ([], []) := rfl

theorem breakAt_cons (stop : List Char → Bool) (c : Char) (rest : List Char) :
    breakAt stop (c :: rest) =
      if stop (c :: rest) then ([], c :: rest)
      else (c :: (breakAt stop rest).1, (breakAt stop rest).2) := by
  rw [breakAt, breakFrom]
  split
  · rfl
  · rw [breakFrom_eq]
    simp

/-- Breaking a text loses nothing. -/
theorem breakAt_append (stop : List Char → Bool) (text : List Char) :
    (breakAt stop text).1 ++ (breakAt stop text).2 = text := by
  induction text with
  | nil => rfl
  | cons c rest ih =>
      rw [breakAt_cons]
      split
      · rfl
      · simp [ih]

/-- The longest beginning whose characters satisfy `keep`, and the rest. -/
def breakWhile (keep : Char → Bool) (text : List Char) : List Char × List Char :=
  breakAt (fun rest => rest.head?.any fun c => !keep c) text

/-- The rest of the text after the given beginning. -/
def strip? : List Char → List Char → Option (List Char)
  | [], text => some text
  | _ :: _, [] => none
  | c :: start, d :: text => if c = d then strip? start text else none

theorem strip?_eq_some_iff {start text rest : List Char} :
    strip? start text = some rest ↔ text = start ++ rest := by
  induction start generalizing text with
  | nil => simp [strip?, eq_comm]
  | cons c start ih =>
      cases text with
      | nil => simp [strip?]
      | cons d text =>
          by_cases same : c = d
          · simp [strip?, same, ih]
          · simp [strip?, same, Ne.symm same]

/-- The text begins with `start`. -/
def startsWith (start : List Char) (text : List Char) : Bool := (strip? start text).isSome

/-- The text contains `part` somewhere. -/
def occurs (part text : List Char) : Bool := !(breakAt (startsWith part) text).2.isEmpty

/-- The byte offset of the last place where `found` holds, counted from `offset`. -/
def lastFrom (found : List Char → Bool) (offset : Nat) (last : Option Nat) :
    List Char → Option Nat
  | [] => last
  | c :: rest =>
      lastFrom found (offset + c.utf8Size) (if found (c :: rest) then some offset else last) rest

/-- The byte offset of the last occurrence of `part` in the text. -/
def lastOccurrence? (part text : List Char) : Option Nat :=
  lastFrom (startsWith part) 0 none text

end RunSigning.Text
