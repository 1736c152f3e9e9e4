import RunSigning.Markup.Token.Basic

/-
This file reads what may stand before the root element: the declaration of the document and the
document type declaration with its internal subset.
-/

namespace RunSigning.Markup.Reader
open RunSigning.Text

/-- Blanks are needed in the declaration unless it closes or the text ends. -/
def declarationSpaces : Reader Unit := do
  match (← cursor).rest with
  | [] => return ()
  | c :: _ =>
      if isSpace c then spaces
      else if ← sees "?>" then return ()
      else fail (.byteUnexpected .whitespace (Utf8.leadByte c))

/-- The declaration of the document names a version, then at most an encoding and a standalone
flag, whose values are free. -/
def declaration : Reader Unit := do
  literal "<?xml"
  declarationSpaces
  let versioned ← sees "version"
  refuse (!versioned) (.literalMissing "version")
  let _ ← writtenAttribute
  declarationSpaces
  let encoded ← sees "encoding"
  optionally encoded do
    let _ ← writtenAttribute
    declarationSpaces
  let flagged ← sees "standalone"
  optionally flagged do
    let _ ← writtenAttribute
  spaces
  literal "?>"

/-- A byte order mark and the declaration may begin a document. -/
def opening : Reader Unit := do
  let marked ← sees "\ufeff"
  optionally marked (literal "\ufeff")
  let declared ← sees "<?xml "
  optionally declared declaration

/-- An external identifier, if one begins here. -/
def externalId : Reader Bool := do
  if ← sees "SYSTEM" then
    literal "SYSTEM"
    someSpaces
    let _ ← quoted
    return true
  else if ← sees "PUBLIC" then
    literal "PUBLIC"
    someSpaces
    let _ ← quoted
    someSpaces
    let _ ← quoted
    return true
  else return false

/-- The document type declaration up to its internal subset, and whether it has one. -/
def doctype : Reader Bool := do
  literal "<!DOCTYPE"
  someSpaces
  nameUnlessAtEnd
  spaces
  let _ ← externalId
  spaces
  let next ← one .subsetOrEnd fun c => c == '[' || c == '>'
  return next == '['

theorem Advances.doctype : Reader.doctype.Advances := .bind_left (.literal (by decide))

/-- The notation of an entity that is no text. -/
def notationName : Reader Unit := do
  spaces
  let named ← sees "NDATA"
  optionally named do
    literal "NDATA"
    someSpaces
    nameUnlessAtEnd

/-- The definition of an entity is its replacement text or the place of an external one. -/
def definition (isParameter : Bool) : Reader (Option Cursor) := do
  match (← cursor).rest with
  | [] => fail .endUnexpected
  | c :: _ =>
      if c == '\'' || c == '"' then
        let start ← offset
        let text ← quoted
        return some ⟨start + 1, text⟩
      else if c == 'S' || c == 'P' then
        let external ← externalId
        refuse (!external) .externalIdInvalid
        optionally (!isParameter) notationName
        return none
      else fail (.byteUnexpected .definition (Utf8.leadByte c))

/-- An entity with replacement text is declared; any other one is passed over. -/
def entity : Reader (List Token) := do
  literal "<!ENTITY"
  someSpaces
  let isParameter ← sees "%"
  optionally isParameter do
    literal "%"
    someSpaces
  let entityName ← name
  someSpaces
  let replacement? ← definition isParameter
  spaces
  byte '>'
  return replacement?.toList.map fun replacement => .entity entityName replacement

theorem Advances.entity : Reader.entity.Advances := .bind_left (.literal (by decide))

/-- A declaration without effect ends at the next closing bracket. -/
def skippedDeclaration (doctypeStart : Nat) (keyword : String) : Reader Unit := do
  literal keyword
  let _ ← takeWhile (· != '>')
  let unclosed ← atEnd
  refuseAt doctypeStart unclosed .tokenUnknown
  byte '>'

theorem Advances.skippedDeclaration (doctypeStart : Nat) {keyword : String}
    (filled : keyword.toList ≠ []) :
    (Reader.skippedDeclaration doctypeStart keyword).Advances :=
  .bind_left (.literal filled)

def subsetEnd : Reader Unit := do
  literal "]"
  spaces
  byte '>'

theorem Advances.subsetEnd : Reader.subsetEnd.Advances := .bind_left (.literal (by decide))

end RunSigning.Markup.Reader
