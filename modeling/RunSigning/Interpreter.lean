import RunSigning.Path
import RunSigning.Program

/-
This file reads the first line of a text program. The line begins with a number sign and an
exclamation mark, and names the program that the text is for.
-/

namespace RunSigning
open RunSigning.Text

/-- What the first line of a text program names: the program that reads it, and an argument for
that one. -/
structure Interpreter where
  program : Path
  argument? : Option Argument
  deriving DecidableEq, Repr

/-- The number of bytes at the beginning of a file that decide how it is run. -/
def headLength : Nat := 256

/-- The beginning of a file, with NUL for the bytes after its end. -/
def fileHead (content : List UInt8) : List UInt8 :=
  (content ++ List.replicate headLength 0).take headLength

def isLineBlank (byte : UInt8) : Bool := byte == 0x20 || byte == 0x09

/-- The line that names an interpreter. It may go on past the beginning of the file only after the
interpreter's own name. -/
def interpreterLine? (rest : List UInt8) : Option (List UInt8) :=
  if rest.contains 0x0A then some (rest.takeWhile (· != 0x0A))
  else if (rest.dropWhile isLineBlank).any fun byte => isLineBlank byte || byte == 0 then
    some rest.dropLast
  else none

/-- Blanks around the line do not count. NUL ends the name and ends the argument, which may hold
blanks. An empty name stands for the working directory. -/
def Interpreter.ofLine? (line : List UInt8) : Option Interpreter :=
  match (line.reverse.dropWhile isLineBlank).reverse.dropWhile isLineBlank with
  | [] => none
  | trimmed =>
      let isNameByte := fun byte => !(isLineBlank byte || byte == 0)
      let name := Utf8.decodeLossy (trimmed.takeWhile isNameByte)
      let more := trimmed.dropWhile isNameByte
      let argument := (more.dropWhile isLineBlank).takeWhile (· != 0)
      some ⟨⟨if name.isEmpty then "." else String.ofList name⟩,
        if more.head?.any isLineBlank then some argument else none⟩

/-- The interpreter of a file, if it begins like a text program. -/
def Interpreter.ofContent? (content : List UInt8) : Option Interpreter :=
  match fileHead content with
  | 0x23 :: 0x21 :: rest => (interpreterLine? rest).bind Interpreter.ofLine?
  | _ => none

end RunSigning
