import RunSigning.Pattern.Bracket
import RunSigning.Text.Alphanumeric
import RunSigning.Text.Blank

/-
This file defines how far a pattern has been read, and what each part of it adds to that. A part
that cannot stand where it does stops the reading.
-/

namespace RunSigning.Pattern
open RunSigning.Text

/-- What the next character is read as. -/
inductive Mode where
  | plain
  /-- A question mark still belongs to the repetition. -/
  | repeated
  | escaped
  /-- Hexadecimal digits: how many are missing, and the value of those before. -/
  | digits (isByte : Bool) (missing value : Nat)
  /-- Behind an opening parenthesis, then a question mark, then an angle bracket. -/
  | opened
  | questioned
  | angled
  | named (name : List Char)
  /-- The flags so far, their letters, and what the next letter means. -/
  | flags (flags : Flags) (letters : List Char) (value isDangling : Bool)
  /-- Behind an opening bracket, then a circumflex, then hyphens. -/
  | bracket
  | firstItem
  | hyphens
  | items
  /-- Behind a character or, without one, a class. -/
  | item (literal? : Option Char)
  /-- Behind the hyphen of a range. -/
  | range (lower : Char)
  deriving DecidableEq, Repr

/-- How far a pattern has been read. -/
structure Reading where
  mode : Mode
  groups : Groups
  brackets : List Bracket
  /-- The lower end of a range whose upper end is escaped. -/
  lower? : Option Char
  inComment : Bool
  /-- How many characters have been read ahead. -/
  ahead : Nat
  deriving DecidableEq, Repr

def Reading.start : Reading := ⟨.plain, .empty, [], none, false, 0⟩

def Reading.flagsNow (reading : Reading) : Flags := reading.groups.flags

def Reading.turn (reading : Reading) (mode : Mode) : Reading := { reading with mode := mode }

/-- A part outside of brackets. -/
def Reading.addPart? (reading : Reading) (allowed : Bool) : Option Reading :=
  if allowed then some { reading with mode := .plain, groups := reading.groups.add .single }
  else none

/-- An item in the innermost brackets. -/
def Reading.addItem? (reading : Reading) (allowed : Bool) (mode : Mode) : Option Reading :=
  match reading.brackets with
  | [] => none
  | bracket :: outer =>
      if allowed then some { reading with mode := mode, brackets := bracket.add 0 :: outer }
      else none

/-- The range between two characters of a set. -/
def Reading.addRange? (reading : Reading) (lower upper : Char) : Option Reading :=
  let flags := reading.flagsNow
  Reading.addItem? { reading with lower? := none }
    (lower.toNat ≤ upper.toNat && flags.allowsMember lower && flags.allowsMember upper) .items

/-- A character that has been written with an escape. -/
def Reading.addEscaped? (reading : Reading) (literal : Literal) : Option Reading :=
  match reading.brackets, reading.lower? with
  | [], _ => reading.addPart? (reading.flagsNow.allowsLiteral literal)
  | _, some lower => reading.addRange? lower literal.char
  | _, none => some (reading.turn (.item (some literal.char)))

/-- A class that has been written with an escape. It is no end of a range. -/
def Reading.addClass? (reading : Reading) (isComplement : Bool) : Option Reading :=
  let allowed := reading.flagsNow.allowsClass isComplement
  match reading.brackets, reading.lower? with
  | [], _ => reading.addPart? allowed
  | _, some _ => none
  | _, none => if allowed then some (reading.turn (.item none)) else none

/-- A place between characters has no place in a set. -/
def Reading.addPlace? (reading : Reading) (allowed : Bool) : Option Reading :=
  if reading.brackets.isEmpty then reading.addPart? allowed else none

/-- The innermost brackets close. -/
def Reading.closeBracket? (reading : Reading) : Option Reading :=
  match reading.brackets with
  | [] => none
  | [bracket] =>
      some { reading with
        mode := .plain
        brackets := []
        groups := reading.groups.add (.around bracket.depth) }
  | bracket :: parent :: outer =>
      some { reading with
        mode := .items
        brackets := parent.add (depthAround [bracket.depth]) :: outer }

/-- An operator between the items of a set. -/
def Reading.operate (reading : Reading) : Reading :=
  { reading with
    mode := .items
    brackets := reading.brackets.modifyHead Bracket.operate
    ahead := 1 }

/-- The characters that escapes stand for, apart from those that stand for themselves. -/
def escapedCharacters : List (Char × Char) :=
  [('a', '\x07'), ('f', '\x0c'), ('t', '\t'), ('n', '\n'), ('r', '\r'), ('v', '\x0b')]

/-- How many hexadecimal digits follow a letter. -/
def digitCounts : List (Char × Nat) := [('x', 2), ('u', 4), ('U', 8)]

/-- The character behind a backslash. All of ASCII but letters, digits and angle brackets stands
for itself. -/
def Reading.escape? (reading : Reading) (c : Char) : Option Reading :=
  match escapedCharacters.lookup c, digitCounts.lookup c with
  | some char, _ => reading.addEscaped? ⟨char, false⟩
  | none, some count => some (reading.turn (.digits (c == 'x') count 0))
  | none, none =>
      if ['d', 's', 'w'].contains c then reading.addClass? false
      else if ['D', 'S', 'W'].contains c then reading.addClass? true
      else if ['A', 'z'].contains c then reading.addPlace? true
      else if ['b', 'B', '<', '>'].contains c then
        reading.addPlace? reading.flagsNow.allowsWordEdge
      else if isAscii c && !c.isAlphanum then reading.addEscaped? ⟨c, false⟩
      else none

end RunSigning.Pattern
