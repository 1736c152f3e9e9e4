import RunSigning.Markup.Name
import RunSigning.Text.Digit

/-
This file cuts text into characters and references. A character reference names a code point,
and five names stand for the characters of markup; any other name stands for an entity.
-/

namespace RunSigning.Markup
open RunSigning.Text

inductive Chunk where
  | literal (c : Char)
  /-- A character reference and the place of its ampersand. -/
  | character (c : Char) (start : Nat)
  /-- An entity reference with the places of its ampersand and after its semicolon. -/
  | entity (name : String) (start stop : Nat)
  | malformed (start : Nat)
  deriving DecidableEq, Repr

/-- The character with a code point, or U+FFFD if the code point belongs to none. -/
def characterOfCode (code : Nat) : Char :=
  if code.isValidChar then Char.ofNat code else '\ufffd'

/-- The character that digits name. Their number fits 32 bits, and a document may hold the
character. -/
def characterOfDigits? (base : Nat) (digits : List Char) : Option Char :=
  let code := digits.foldl (fun value digit => value * base + digitValue digit) 0
  let c := characterOfCode code
  if digits.isEmpty || 0x100000000 ≤ code || !isAllowed c then none else some c

/-- The characters that have names without any declaration. -/
def predefined? (name : String) : Option Char :=
  match name with
  | "quot" => some '"'
  | "amp" => some '&'
  | "apos" => some '\''
  | "lt" => some '<'
  | "gt" => some '>'
  | _ => none

namespace Reader

def reference : Reader Chunk := do
  let start ← offset
  literal "&"
  let numeric ← sees "#"
  if numeric then
    literal "#"
    let hexadecimal ← sees "x"
    optionally hexadecimal (literal "x")
    let digits ← takeWhile (if hexadecimal then isHexadecimalDigit else Char.isDigit)
    byte ';'
    match characterOfDigits? (if hexadecimal then 16 else 10) digits with
    | some c => return .character c start
    | none => failAt start .referenceMalformed
  else
    let entityName ← name
    byte ';'
    let stop ← offset
    match predefined? entityName with
    | some c => return .character c start
    | none => return .entity entityName start stop

theorem Advances.reference : Reader.reference.Advances :=
  .bind_right fun _ => .bind_left (.literal (by decide))

end Reader

/-- A malformed reference ends the chunks. -/
def Chunk.splitFrom (before : List Chunk) (start : Cursor) : List Chunk :=
  match _remaining : start.rest with
  | [] => before.reverse
  | c :: rest =>
      if c = '&' then
        match _taken : Reader.reference.read start with
        | .error _ => (Chunk.malformed start.offset :: before).reverse
        | .ok (chunk, stop) => Chunk.splitFrom (chunk :: before) stop
      else Chunk.splitFrom (.literal c :: before) ⟨start.offset + c.utf8Size, rest⟩
termination_by start.rest.length
decreasing_by
  · exact Reader.Advances.reference _ _ _ _taken
  · simp [_remaining]

/-- The characters and references of a text. -/
def Chunk.split (start : Cursor) : List Chunk := Chunk.splitFrom [] start

end RunSigning.Markup
