import RunSigning.Text.Span

/-
This file turns byte offsets into rows and columns. Rows are separated by line feeds and
columns count characters; both start at one.
-/

namespace RunSigning.Text

structure Position where
  row : Nat
  column : Nat
  deriving DecidableEq, Repr

/-- A line feed starts the next row. -/
def Position.advance (position : Position) (c : Char) : Position :=
  if c = '\n' then ⟨position.row + 1, 1⟩ else ⟨position.row, position.column + 1⟩

/-- The position moves over whole characters until the offset is used up. -/
def Position.move (position : Position) : Nat → List Char → Position
  | 0, _ => position
  | _, [] => position
  | offset, c :: rest => (position.advance c).move (offset - c.utf8Size) rest

/-- The position of a byte offset in the text. -/
def Position.of (text : List Char) (offset : Nat) : Position :=
  (Position.mk 1 1).move offset text

def Position.render (position : Position) : String :=
  toString position.row ++ ":" ++ toString position.column

end RunSigning.Text
