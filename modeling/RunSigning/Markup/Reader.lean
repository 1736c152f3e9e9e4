import RunSigning.Markup.Character
import RunSigning.Markup.Failure

/-
This file defines readers over the remaining text. A reader fails, or gives a value and a later
place of the same text: the place it stops at is reached from its start by passing characters.
-/

namespace RunSigning.Markup
open RunSigning.Text

/-- A cursor holds the text that remains and the byte offset at which it begins. -/
structure Cursor where
  offset : Nat
  rest : List Char
  deriving DecidableEq, Repr

/-- One cursor reaches another if it gets there by passing characters. -/
def Cursor.Reaches (start stop : Cursor) : Prop :=
  ∃ taken, start.rest = taken ++ stop.rest ∧ stop.offset = start.offset + byteLength taken

theorem Cursor.Reaches.refl (cursor : Cursor) : cursor.Reaches cursor := ⟨[], by simp, by simp⟩

theorem Cursor.Reaches.trans {first second third : Cursor}
    (one : first.Reaches second) (two : second.Reaches third) : first.Reaches third := by
  obtain ⟨taken, equal, offset⟩ := one
  obtain ⟨more, equal', offset'⟩ := two
  exact ⟨taken ++ more, by simp [equal, equal'], by simp [offset, offset']; omega⟩

theorem Cursor.Reaches.length_le {start stop : Cursor} (reaches : start.Reaches stop) :
    stop.rest.length ≤ start.rest.length := by
  obtain ⟨taken, equal, _⟩ := reaches
  simp [equal]

/-- A reader never steps back. -/
structure Reader (A : Type) where
  read : Cursor → Except Failure (A × Cursor)
  reaches : ∀ {start stop : Cursor} {value : A},
    read start = .ok (value, stop) → start.Reaches stop

namespace Reader

/-- This reader takes nothing. -/
protected def pure {A : Type} (value : A) : Reader A where
  read start := .ok (value, start)
  reaches := by
    rintro start stop value' equal
    simp only [Except.ok.injEq, Prod.mk.injEq] at equal
    rw [← equal.2]
    exact .refl start

/-- The second reader starts where the first one stops. -/
protected def bind {A B : Type} (first : Reader A) (next : A → Reader B) : Reader B where
  read start :=
    match first.read start with
    | .error failure => .error failure
    | .ok (value, middle) => (next value).read middle
  reaches := by
    intro start stop value equal
    split at equal
    · cases equal
    · rename_i one
      exact (first.reaches one).trans ((next _).reaches equal)

instance : Monad Reader where
  pure := Reader.pure
  bind := Reader.bind

@[simp] theorem read_pure {A : Type} (value : A) (start : Cursor) :
    (pure value : Reader A).read start = .ok (value, start) := rfl

@[simp] theorem read_bind {A B : Type} (first : Reader A) (next : A → Reader B)
    (start : Cursor) :
    (first >>= next).read start =
      match first.read start with
      | .error failure => .error failure
      | .ok (value, middle) => (next value).read middle := rfl

/-- This reader fails with a fault that shows at the given offset. -/
def failAt {A : Type} (offset : Nat) (fault : Fault) : Reader A where
  read _ := .error ⟨fault, offset⟩
  reaches := by
    intro start stop value equal
    cases equal

@[simp] theorem read_failAt {A : Type} (offset : Nat) (fault : Fault) (start : Cursor) :
    (failAt offset fault : Reader A).read start = .error ⟨fault, offset⟩ := rfl

/-- This reader gives the cursor itself. -/
def cursor : Reader Cursor where
  read start := .ok (start, start)
  reaches := by
    rintro start stop value equal
    simp only [Except.ok.injEq, Prod.mk.injEq] at equal
    rw [← equal.2]
    exact .refl start

def offset : Reader Nat := do return (← cursor).offset

def atEnd : Reader Bool := do return (← cursor).rest.isEmpty

/-- Whether the remaining text begins with a literal. -/
def sees (literal : String) : Reader Bool := do
  return startsWith literal.toList (← cursor).rest

/-- This reader fails with a fault that shows where it stands. -/
def fail {A : Type} (fault : Fault) : Reader A := do failAt (← offset) fault

/-- This reader fails if something is wrong. -/
def refuse (wrong : Bool) (fault : Fault) : Reader Unit :=
  if wrong then fail fault else pure ()

/-- This reader fails at an earlier place if something is wrong. -/
def refuseAt (offset : Nat) (wrong : Bool) (fault : Fault) : Reader Unit :=
  if wrong then failAt offset fault else pure ()

/-- This reader runs another one if that one is wanted. -/
def optionally (wanted : Bool) (reader : Reader Unit) : Reader Unit :=
  if wanted then reader else pure ()

/-- This reader takes the text before the first place where `stop` holds. -/
def takeUntil (stop : List Char → Bool) : Reader (List Char) where
  read start :=
    let parts := breakAt stop start.rest
    .ok (parts.1, ⟨start.offset + byteLength parts.1, parts.2⟩)
  reaches := by
    rintro start stop' value equal
    simp only [Except.ok.injEq, Prod.mk.injEq] at equal
    rw [← equal.2]
    exact ⟨_, (breakAt_append stop start.rest).symm, rfl⟩

def takeWhile (keep : Char → Bool) : Reader (List Char) :=
  takeUntil fun rest => rest.head?.any fun c => !keep c

/-- This reader takes one literal. -/
def literal (text : String) : Reader Unit where
  read start :=
    match strip? text.toList start.rest with
    | some rest => .ok ((), ⟨start.offset + byteLength text.toList, rest⟩)
    | none => .error ⟨.literalMissing text, start.offset⟩
  reaches := by
    intro start stop value equal
    split at equal
    · rename_i found
      simp only [Except.ok.injEq, Prod.mk.injEq] at equal
      rw [← equal.2]
      exact ⟨_, strip?_eq_some_iff.mp found, rfl⟩
    · cases equal

/-- This reader takes one character if it is accepted. -/
def one (expected : Expected) (accept : Char → Bool) : Reader Char where
  read start :=
    match start.rest with
    | [] => .error ⟨.endUnexpected, start.offset⟩
    | c :: rest =>
        if accept c then .ok (c, ⟨start.offset + c.utf8Size, rest⟩)
        else .error ⟨.byteUnexpected expected (Utf8.leadByte c), start.offset⟩
  reaches := by
    intro start stop value equal
    split at equal
    · cases equal
    · rename_i c rest remaining
      split at equal
      · simp only [Except.ok.injEq, Prod.mk.injEq] at equal
        rw [← equal.2]
        exact ⟨[c], by simp [remaining], by simp⟩
      · cases equal

def byte (c : Char) : Reader Unit := do let _ ← one (.character c) (· == c)

def quote : Reader Char := one .quote fun c => c == '\'' || c == '"'

/-- Any number of blanks. -/
def spaces : Reader Unit := do let _ ← takeWhile isSpace

/-- At least one blank. -/
def someSpaces : Reader Unit := do
  let _ ← one .whitespace isSpace
  spaces

/-- The byte offset of the first character of a text that a document may not hold. -/
def forbidden? (offset : Nat) : List Char → Option (Char × Nat)
  | [] => none
  | c :: rest => if isAllowed c then forbidden? (offset + c.utf8Size) rest else some (c, offset)

/-- The characters before the first place where `stop` holds, all of them allowed. -/
def characters (stop : List Char → Bool) : Reader (List Char) := do
  let start ← offset
  let text ← takeUntil stop
  match forbidden? start text with
  | some (c, place) => failAt place (.characterForbidden c)
  | none => pure text

/-- The text up to the next quote of the same kind, and that quote. -/
def quoted : Reader (List Char) := do
  let delimiter ← quote
  let text ← takeWhile (· != delimiter)
  byte delimiter
  return text

/-- A reader advances if it succeeds only by taking some character. -/
def Advances {A : Type} (reader : Reader A) : Prop :=
  ∀ (start stop : Cursor) (value : A),
    reader.read start = .ok (value, stop) → stop.rest.length < start.rest.length

theorem Advances.bind_left {A B : Type} {first : Reader A} {next : A → Reader B}
    (advances : first.Advances) : (first >>= next).Advances := by
  intro start stop value equal
  rw [read_bind] at equal
  split at equal
  · cases equal
  · rename_i one
    exact Nat.lt_of_le_of_lt ((next _).reaches equal).length_le (advances _ _ _ one)

theorem Advances.bind_right {A B : Type} {first : Reader A} {next : A → Reader B}
    (advances : ∀ value, (next value).Advances) : (first >>= next).Advances := by
  intro start stop value equal
  rw [read_bind] at equal
  split at equal
  · cases equal
  · rename_i one
    exact Nat.lt_of_lt_of_le (advances _ _ _ _ equal) (first.reaches one).length_le

theorem Advances.failAt {A : Type} (offset : Nat) (fault : Fault) :
    (Reader.failAt offset fault : Reader A).Advances := by
  intro start stop value equal
  cases equal

theorem Advances.fail {A : Type} (fault : Fault) : (Reader.fail fault : Reader A).Advances :=
  .bind_right fun _ => .failAt _ _

theorem Advances.one (expected : Expected) (accept : Char → Bool) :
    (Reader.one expected accept).Advances := by
  intro start stop value equal
  simp only [Reader.one] at equal
  split at equal
  · cases equal
  · rename_i c rest remaining
    split at equal
    · simp only [Except.ok.injEq, Prod.mk.injEq] at equal
      simp [← equal.2, remaining]
    · cases equal

theorem Advances.byte (c : Char) : (Reader.byte c).Advances := .bind_left (.one _ _)

theorem Advances.literal {text : String} (filled : text.toList ≠ []) :
    (Reader.literal text).Advances := by
  intro start stop value equal
  simp only [Reader.literal] at equal
  split at equal
  · rename_i found
    simp only [Except.ok.injEq, Prod.mk.injEq] at equal
    have shape := congrArg List.length (strip?_eq_some_iff.mp found)
    have := List.length_pos_iff.mpr filled
    simp only [List.length_append] at shape
    rw [← equal.2]
    simp only
    omega
  · cases equal

theorem Advances.someSpaces : Reader.someSpaces.Advances := .bind_left (.one _ _)

/-- A reader yields if its value is exactly the text that it takes. -/
def Yields (reader : Reader (List Char)) : Prop :=
  ∀ (start stop : Cursor) (text : List Char),
    reader.read start = .ok (text, stop) → start.rest = text ++ stop.rest

theorem Yields.takeUntil (stop : List Char → Bool) : (Reader.takeUntil stop).Yields := by
  intro start stop' text equal
  simp only [Reader.takeUntil, Except.ok.injEq, Prod.mk.injEq] at equal
  rw [← equal.1, ← equal.2]
  exact (breakAt_append stop start.rest).symm

theorem Yields.characters (stop : List Char → Bool) : (Reader.characters stop).Yields := by
  intro start stop' text equal
  simp only [Reader.characters, Reader.offset, read_bind, Reader.cursor, read_pure] at equal
  split at equal
  · cases equal
  · rename_i value middle taken
    have yields := Yields.takeUntil stop start middle value taken
    split at equal
    · cases equal
    · simp only [read_pure, Except.ok.injEq, Prod.mk.injEq] at equal
      rw [← equal.1, ← equal.2]
      exact yields

/-- Taking text advances if what follows refuses to have taken nothing. -/
theorem Advances.yields_bind {B : Type} {first : Reader (List Char)}
    {next : List Char → Reader B} (yields : first.Yields)
    (refuses : ∀ start result, (next []).read start ≠ .ok result) :
    (first >>= next).Advances := by
  intro start stop value equal
  rw [read_bind] at equal
  split at equal
  · cases equal
  · rename_i text middle one
    have shape := congrArg List.length (yields _ _ _ one)
    have least := ((next _).reaches equal).length_le
    have filled : text ≠ [] := by
      rintro rfl
      exact refuses _ _ equal
    have := List.length_pos_iff.mpr filled
    simp only [List.length_append] at shape
    omega

/-- A choice advances if both of its branches do. -/
theorem Advances.ite {A : Type} {condition : Prop} [Decidable condition] {yes no : Reader A}
    (whenTrue : yes.Advances) (whenFalse : no.Advances) :
    (if condition then yes else no).Advances := by
  split
  · exact whenTrue
  · exact whenFalse

end Reader

end RunSigning.Markup
