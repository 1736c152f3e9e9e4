import RunSigning.Declaration.Basic
import RunSigning.Markup.Escape
import RunSigning.Text.Blank

/-
This file records signatures. Recording is an edit of the text: it replaces the value of an
existing signature element, adds a value to one that has none, or appends a new element.
-/

namespace RunSigning
open RunSigning.Text RunSigning.Markup

/-- The name in the start tag that begins at the given offset. -/
def tagNameAt (text : List Char) (start : Nat) : List Char :=
  (breakWhile (fun c => !(isAsciiBlank c || c == '/' || c == '>')) (after (start + 1) text)).1

/-- White space from its last line feed on. Any other text has no indentation. -/
def lineIndent (content : List Char) : List Char :=
  if content.all isWhiteSpace then
    match lastOccurrence? ['\n'] content with
    | some place => after place content
    | none => content
  else []

/-- The indentation of the line that holds a node, given the nodes before it, nearest first.
Comments and instructions stand on the same line. -/
def indentAfter : List Node → List Char
  | .text content :: _ => lineIndent content.toList
  | .comment _ :: earlier => indentAfter earlier
  | .instruction _ _ :: earlier => indentAfter earlier
  | _ => []

/-- The last element among nodes given last one first, with the nodes before it. -/
def lastElement? : List Node → Option (Element × List Node)
  | [] => none
  | node :: earlier =>
      match node.element? with
      | some element => some (element, earlier)
      | none => lastElement? earlier

/-- The attribute that holds a signature. -/
def valueAttribute (value : String) : List Char :=
  "value=\"".toList ++ escape '"' value.toList ++ ['"']

/-- The element that holds a signature. -/
def signatureElement (value : String) : List Char :=
  "<signature ".toList ++ valueAttribute value ++ "/>".toList

/-- The new element comes after the last element in the declaration, on a line of its own if that
one has such a line. A declaration without end tag is given one. -/
def Declaration.append (declaration : Declaration) (text : List Char) (value : String) :
    TextEdit :=
  let span := declaration.element.tag.span
  let source := slice span text
  if startsWith ['>', '/'] source.reverse then
    ⟨⟨span.stop - 2, span.stop⟩, String.ofList
      ('>' :: signatureElement value ++ "</".toList ++ tagNameAt text span.start ++ ['>'])⟩
  else
    match lastElement? declaration.element.children.reverse with
    | some (last, earlier) =>
        .insert last.tag.span.stop (String.ofList (indentAfter earlier ++ signatureElement value))
    | none =>
        let place :=
          match lastOccurrence? "</".toList source with
          | some within => span.start + within
          | none => span.stop
        .insert place (String.ofList (signatureElement value))

/-- The quote that stands before an offset, a double one unless it is single. -/
def quoteBefore (text : List Char) (offset : Nat) : Char :=
  if (before offset text).getLast? = some '\'' then '\'' else '"'

/-- The edit that records a signature in a declaration of the given text. -/
def Declaration.record (declaration : Declaration) (text : List Char) (value : String) :
    TextEdit :=
  match declaration.signature? with
  | none => declaration.append text value
  | some signature =>
      match signature.attribute? "value" with
      | some existing =>
          ⟨existing.valueSpan,
            escapeString (quoteBefore text existing.valueSpan.start) value⟩
      | none =>
          let start := signature.tag.span.start
          .insert (start + 1 + byteLength (tagNameAt text start))
            (String.ofList (' ' :: valueAttribute value))

/-- The edit that records a signature in a declaration of the document. -/
def Document.record (document : Document) (declaration : Declaration) (value : String) :
    TextEdit :=
  declaration.record document.text.toList value

/-- Whether what a record looks at can be cut out of the text: the whole declaration, or what stands
before the value of its signature. The end tag of a declaration may stand in the replacement text
of an entity, and so before its start tag. -/
def Declaration.isPlaced (declaration : Declaration) (text : List Char) : Bool :=
  match declaration.signature? with
  | none => (around? declaration.element.tag.span text).isSome
  | some signature =>
      (signature.attribute? "value").all fun existing =>
        (splitAt? existing.valueSpan.start text).isSome

/-- The edit that records a signature, if the declaration can be cut out of the text. -/
def Document.recording (document : Document) (declaration : Declaration) (value : String) :
    Except Error TextEdit :=
  if declaration.isPlaced document.text.toList then .ok (document.record declaration value)
  else .error (.refusedEdit (.unplaced declaration.element.tag.span))

end RunSigning
