import RunSigning.Markup.Name

/-
This file defines the tokens of a document. A token says what stands in the text and where; it
does not say what the references in it stand for.
-/

namespace RunSigning.Markup
open RunSigning.Text

/-- An attribute as it is written. Its value ends where the cursor's text ends. -/
structure WrittenAttribute where
  name : QualifiedName
  start : Nat
  nameStop : Nat
  quote : Nat
  value : Cursor
  deriving DecidableEq, Repr

inductive Token where
  /-- The beginning of a document type declaration. -/
  | doctype
  /-- An entity and its replacement text. -/
  | entity (name : String) (replacement : Cursor)
  | comment (text : String)
  | instruction (target data : String)
  /-- The name in a start tag, with the place of its opening bracket. -/
  | tagName (name : QualifiedName) (start : Nat)
  | attr (written : WrittenAttribute)
  /-- The end of a start tag, with the place after its closing bracket. -/
  | tagEnd (selfClosing : Bool) (stop : Nat)
  | endTag (name : QualifiedName) (span : Span)
  /-- Character data, references included. -/
  | text (written : Cursor)
  /-- The characters of a section in which nothing is a reference. -/
  | verbatim (text : List Char)
  deriving DecidableEq, Repr

namespace Reader

def writtenAttribute : Reader WrittenAttribute := do
  let start ← offset
  let name ← qualifiedName
  let nameStop ← offset
  spaces
  byte '='
  spaces
  let quotePlace ← offset
  let delimiter ← quote
  let valueStart ← offset
  let value ← characters fun rest => rest.head?.any fun c => c == delimiter || c == '<'
  byte delimiter
  return ⟨name, start, nameStop, quotePlace, ⟨valueStart, value⟩⟩

theorem Advances.writtenAttribute : Reader.writtenAttribute.Advances :=
  .bind_right fun _ => .bind_left .qualifiedName

def startTag : Reader Token := do
  let start ← offset
  literal "<"
  let name ← qualifiedName
  return .tagName name start

theorem Advances.startTag : Reader.startTag.Advances :=
  .bind_right fun _ => .bind_left (.literal (by decide))

def endTag : Reader Token := do
  let start ← offset
  literal "</"
  let name ← qualifiedName
  spaces
  byte '>'
  let stop ← offset
  return .endTag name ⟨start, stop⟩

theorem Advances.endTag : Reader.endTag.Advances :=
  .bind_right fun _ => .bind_left (.literal (by decide))

/-- Two hyphens stand in a comment only before its closing bracket. -/
def comment : Reader Token := do
  let start ← offset
  literal "<!--"
  let text ← characters (startsWith "-->".toList)
  literal "-->"
  refuseAt start (occurs "--".toList text || text.getLast? == some '-') .commentWithHyphens
  return .comment (String.ofList text)

theorem Advances.comment : Reader.comment.Advances :=
  .bind_right fun _ => .bind_left (.literal (by decide))

/-- The declaration of the document itself is no instruction. -/
def instruction : Reader Token := do
  let misplaced ← sees "<?xml "
  refuse misplaced .declarationMisplaced
  literal "<?"
  let target ← name
  spaces
  let data ← characters (startsWith "?>".toList)
  literal "?>"
  return .instruction target (String.ofList data)

theorem Advances.instruction : Reader.instruction.Advances :=
  .bind_right fun _ => .bind_right fun _ => .bind_left (.literal (by decide))

def markedSection : Reader Token := do
  literal "<![CDATA["
  let text ← characters (startsWith "]]>".toList)
  literal "]]>"
  return .verbatim text

theorem Advances.markedSection : Reader.markedSection.Advances :=
  .bind_left (.literal (by decide))

/-- Character data runs up to the next opening bracket. -/
def characterData : Reader Token := do
  let start ← offset
  let text ← characters fun rest => rest.head? == some '<'
  if text.isEmpty then fail .tokenUnknown
  else if occurs "]]>".toList text then fail .textWithSectionEnd
  else return .text ⟨start, text⟩

theorem Advances.characterData : Reader.characterData.Advances := by
  refine .bind_right fun start => .yields_bind (.characters _) ?_
  intro place result
  simp [Reader.fail, Reader.offset, cursor]

end Reader

end RunSigning.Markup
