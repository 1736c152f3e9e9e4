import RunSigning.Error

/-
This file defines edits of a text. An edit replaces the bytes of a span and leaves all others as
they are.
-/

namespace RunSigning
open RunSigning.Text

structure TextEdit where
  span : Span
  replacement : String
  deriving DecidableEq, Repr

/-- An insertion removes nothing. -/
def TextEdit.insert (place : Nat) (text : String) : TextEdit := ⟨⟨place, place⟩, text⟩

/-- The edited text. -/
def TextEdit.apply (edit : TextEdit) (text : String) : Except Error String :=
  match around? edit.span text.toList with
  | some (before, after) =>
      .ok (String.ofList before ++ edit.replacement ++ String.ofList after)
  | none => .error (.refusedEdit (.outOfRange edit.span (byteLength text.toList)))

end RunSigning
