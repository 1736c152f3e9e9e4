import RunSigning.Pattern.Group

/-
This file reads the sets of characters that stand in brackets. A set may hold other sets, and
operators may stand between its items.
-/

namespace RunSigning.Pattern

/-- A set of which a beginning has been read: the depths of the items after the last operator, and
of all that stands before it. -/
structure Bracket where
  items : List Nat
  left? : Option Nat
  deriving DecidableEq, Repr

def Bracket.empty : Bracket := ⟨[], none⟩

def Bracket.add (bracket : Bracket) (depth : Nat) : Bracket :=
  { bracket with items := depth :: bracket.items }

def Bracket.depth (bracket : Bracket) : Nat :=
  match bracket.left? with
  | none => depthTogether bracket.items
  | some left => depthAround [left, depthTogether bracket.items]

/-- An operator takes all that stands before it. -/
def Bracket.operate (bracket : Bracket) : Bracket := ⟨[], some bracket.depth⟩

/-- The signs of the operators, which are written twice. -/
def operatorSigns : List Char := ['&', '-', '~']

/-- The names of classes that may stand between colons. -/
def classNames : List (List Char) :=
  ["alnum", "alpha", "ascii", "blank", "cntrl", "digit", "graph", "lower", "print", "punct",
    "space", "upper", "word", "xdigit"].map String.toList

/-- A class by its name, which a circumflex turns into its complement. -/
structure NamedClass where
  isComplement : Bool
  /-- The number of characters after the opening bracket. -/
  length : Nat
  deriving DecidableEq, Repr

/-- The named class behind an opening bracket. -/
def NamedClass.ofText? : List Char → Option NamedClass
  | ':' :: rest =>
      let isComplement := rest.head? == some '^'
      let name := (if isComplement then rest.tail else rest).takeWhile (· != ':')
      let length := 1 + (if isComplement then 1 else 0) + name.length
      if classNames.contains name && (rest.drop (length - 1)).take 2 == [':', ']'] then
        some ⟨isComplement, length + 2⟩
      else none
  | _ => none

end RunSigning.Pattern
