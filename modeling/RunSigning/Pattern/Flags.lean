/-
This file defines the flags of patterns and what they allow. Tables of classes and of cases are at
hand for ASCII only, and without Unicode nothing may match part of a character.
-/

namespace RunSigning.Pattern

structure Flags where
  ignoresCase : Bool
  isUnicode : Bool
  /-- Blanks and comments between the parts of a pattern are passed over. -/
  skipsBlanks : Bool
  deriving DecidableEq, Repr

def Flags.standard : Flags := ⟨false, true, false⟩

/-- The letters that name flags. -/
def flagLetters : List Char := ['i', 'm', 's', 'U', 'u', 'R', 'x']

/-- Only three flags change which patterns are well-formed. -/
def Flags.set (flags : Flags) (letter : Char) (value : Bool) : Flags :=
  match letter with
  | 'i' => { flags with ignoresCase := value }
  | 'u' => { flags with isUnicode := value }
  | 'x' => { flags with skipsBlanks := value }
  | _ => flags

/-- A character that a pattern stands for. One that is written with two hexadecimal digits is a
byte where Unicode is off. -/
structure Literal where
  char : Char
  isByte : Bool
  deriving DecidableEq, Repr

def isAscii (c : Char) : Bool := c.toNat < 0x80

/-- A character outside a set. -/
def Flags.allowsLiteral (flags : Flags) (literal : Literal) : Bool :=
  if flags.isUnicode then !flags.ignoresCase else isAscii literal.char || !literal.isByte

/-- A character in a set. -/
def Flags.allowsMember (flags : Flags) (c : Char) : Bool :=
  if flags.isUnicode then !flags.ignoresCase else isAscii c

/-- A class that is written as an escaped letter. -/
def Flags.allowsClass (flags : Flags) (isComplement : Bool) : Bool :=
  !flags.isUnicode && !isComplement

/-- A class in a set that is written as a name between colons. -/
def Flags.allowsNamedClass (flags : Flags) (isComplement : Bool) : Bool :=
  if flags.isUnicode then !flags.ignoresCase else !isComplement

/-- The complement of a set, and the full stop. -/
def Flags.allowsComplement (flags : Flags) : Bool := flags.isUnicode

/-- The edges of words, which need the table of the characters in words. -/
def Flags.allowsWordEdge (flags : Flags) : Bool := !flags.isUnicode

end RunSigning.Pattern
