import RunSigning.Text.Span

/-
This file defines file paths as text. Joining and taking the directory part work on the text
alone and normalise nothing else.
-/

namespace RunSigning

structure Path where
  text : String
  deriving DecidableEq, Repr

/-- A path from the root of the file tree. -/
def Path.isAbsolute (path : Path) : Bool := path.text.toList.head? == some '/'

/-- An absolute second path replaces the first one; any other is put after it and one slash. -/
def Path.join (first second : Path) : Path :=
  if second.isAbsolute then second
  else if first.text.toList.isEmpty || first.text.toList.getLast? == some '/' then
    ⟨first.text ++ second.text⟩
  else ⟨first.text ++ "/" ++ second.text⟩

/-- The pieces of a text between its slashes. -/
def splitSlashes : List Char → List (List Char)
  | [] => [[]]
  | c :: rest =>
      if c = '/' then [] :: splitSlashes rest
      else
        match splitSlashes rest with
        | [] => [[c]]
        | piece :: pieces => (c :: piece) :: pieces

/-- The names in a path, empty ones included. -/
def Path.names (path : Path) : List String :=
  (splitSlashes path.text.toList).map String.ofList

/-- A name that leads nowhere else. -/
def isIdleName (name : String) : Bool := name == "" || name == "."

/-- The names before the last one that leads somewhere else. -/
def Path.parents (path : Path) : List String :=
  ((path.names.reverse.dropWhile isIdleName).drop 1).reverse

/-- The directory part of a path: its text up to the last name that leads somewhere else, without
the idle names before that one. It is `.` if nothing is left. -/
def Path.directory (path : Path) : Path :=
  match ((path.names.reverse.dropWhile isIdleName).drop 1).dropWhile isIdleName with
  | [] => if path.isAbsolute then ⟨"/"⟩ else ⟨"."⟩
  | backwards => ⟨String.intercalate "/" backwards.reverse⟩

end RunSigning
