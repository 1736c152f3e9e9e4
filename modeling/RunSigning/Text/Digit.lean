/-
This file reads digits and says which texts are numerals.
-/

namespace RunSigning.Text

/-- The value of a decimal or hexadecimal digit. -/
def digitValue (c : Char) : Nat :=
  if c.isDigit then c.toNat - '0'.toNat
  else if c.isLower then c.toNat - 'a'.toNat + 10
  else c.toNat - 'A'.toNat + 10

def isHexadecimalDigit (c : Char) : Bool :=
  c.isDigit || ('a' ≤ c && c ≤ 'f') || ('A' ≤ c && c ≤ 'F')

/-- The text behind a sign, if it begins with one. -/
def withoutSign : List Char → List Char
  | '+' :: rest => rest
  | '-' :: rest => rest
  | text => text

/-- An exponent is the letter e and an integer. -/
def isExponent : List Char → Bool
  | [] => true
  | e :: rest =>
      let digits := withoutSign rest
      (e == 'e' || e == 'E') && !digits.isEmpty && digits.all Char.isDigit

/-- Digits, a point in, before or behind them, and an exponent, which may both be left out. -/
def isUnsignedNumeral (text : List Char) : Bool :=
  let whole := text.takeWhile Char.isDigit
  match text.dropWhile Char.isDigit with
  | '.' :: rest =>
      (!whole.isEmpty || (rest.head?.any Char.isDigit)) && isExponent (rest.dropWhile Char.isDigit)
  | rest => !whole.isEmpty && isExponent rest

/-- The names of what is no finite number. -/
def nonFiniteNames : List String := ["inf", "infinity", "nan"]

/-- A numeral may have a sign. What is no finite number has a name, in any case of its letters. -/
def isNumeral (text : List Char) : Bool :=
  let unsigned := withoutSign text
  isUnsignedNumeral unsigned ||
    nonFiniteNames.contains (String.ofList (unsigned.map Char.toLower))

end RunSigning.Text
