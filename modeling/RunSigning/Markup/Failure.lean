import RunSigning.Text.Position
import RunSigning.Text.Utf8

/-
This file lists what can be wrong with a document and says it in words. A failure is a fault
and the byte offset at which it shows.
-/

namespace RunSigning.Markup
open RunSigning.Text

/-- What the grammar asks for in place of a byte. -/
inductive Expected where
  | character (c : Char)
  | whitespace
  | quote
  | subsetOrEnd
  | definition
  deriving DecidableEq, Repr

def Expected.describe : Expected → String
  | .character c => "'" ++ c.toString ++ "'"
  | .whitespace => "a whitespace"
  | .quote => "a quote"
  | .subsetOrEnd => "'[' or '>'"
  | .definition => "a quote, SYSTEM or PUBLIC"

inductive Fault where
  | reservedNameRebound
  | reservedUriBound
  | declarationUriBound
  | declarationElement
  | namespaceRepeated (name : String)
  | namespaceUnknown (name : String)
  | endTagMismatch (expected found : String)
  | endTagInReplacement
  /-- An end tag after the replacement text of an entity has closed the root element. -/
  | endTagAfterRoot
  | referenceMalformed
  | referenceUnknown (name : String)
  | referenceLoop
  | lessInValue
  | attributeRepeated (name : String)
  | rootMissing
  | rootUnclosed
  | declarationMisplaced
  | nameInvalid
  | characterForbidden (c : Char)
  | byteUnexpected (expected : Expected) (found : Char)
  | literalMissing (literal : String)
  | externalIdInvalid
  | commentWithHyphens
  | textWithSectionEnd
  | tokenUnknown
  | endUnexpected
  deriving DecidableEq, Repr

/-- A fatal fault is not reported. -/
def Fault.isFatal (fault : Fault) : Bool := fault == .endTagAfterRoot

structure Failure where
  fault : Fault
  offset : Nat
  deriving DecidableEq, Repr

/-- The digits of a code point in hexadecimal. -/
def hexadecimal (code : Nat) : String := String.ofList (Nat.toDigits 16 code)

/-- A forbidden character is shown in quotes as an escape. -/
def showForbidden (c : Char) : String :=
  if c.toNat = 0 then "'\\0'"
  else "'\\u\x7b" ++ hexadecimal c.toNat ++ "\x7d'"

/-- The wording of a fault that shows at a position. -/
def Fault.message (position : Position) : Fault → String
  | .reservedNameRebound =>
      "'xml' namespace prefix mapped to wrong URI at " ++ position.render
  | .reservedUriBound =>
      "the 'xml' namespace URI is used for not 'xml' prefix at " ++ position.render
  | .declarationUriBound =>
      "the 'xmlns' URI is used at " ++ position.render ++ ", but it must not be declared"
  | .declarationElement =>
      "the 'xmlns' prefix is used at " ++ position.render ++ ", but it must not be"
  | .namespaceRepeated name =>
      "namespace '" ++ name ++ "' at " ++ position.render ++ " is already defined"
  | .namespaceUnknown name =>
      "an unknown namespace prefix '" ++ name ++ "' at " ++ position.render
  | .endTagMismatch expected found =>
      "expected '" ++ expected ++ "' tag, not '" ++ found ++ "' at " ++ position.render
  | .endTagInReplacement => "unexpected close tag at " ++ position.render
  | .endTagAfterRoot => "no element to close at " ++ position.render
  | .referenceMalformed => "malformed entity reference at " ++ position.render
  | .referenceUnknown name =>
      "unknown entity reference '" ++ name ++ "' at " ++ position.render
  | .referenceLoop => "a possible entity reference loop is detected at " ++ position.render
  | .lessInValue => "unescaped '<' found at " ++ position.render
  | .attributeRepeated name =>
      "attribute '" ++ name ++ "' at " ++ position.render ++ " is already defined"
  | .rootMissing => "the document does not have a root node"
  | .rootUnclosed => "the root node was opened but never closed"
  | .declarationMisplaced => "unexpected XML declaration at " ++ position.render
  | .nameInvalid => "invalid name token at " ++ position.render
  | .characterForbidden c =>
      "a non-XML character " ++ showForbidden c ++ " found at " ++ position.render
  | .byteUnexpected expected found =>
      "expected " ++ expected.describe ++ " not '" ++ found.toString ++ "' at " ++
        position.render
  | .literalMissing literal => "expected '" ++ literal ++ "' at " ++ position.render
  | .externalIdInvalid => "invalid ExternalID at " ++ position.render
  | .commentWithHyphens => "comment at " ++ position.render ++ " contains '--'"
  | .textWithSectionEnd =>
      "']]>' at " ++ position.render ++ " is not allowed inside a character data"
  | .tokenUnknown => "unknown token at " ++ position.render
  | .endUnexpected => "unexpected end of stream"

end RunSigning.Markup
