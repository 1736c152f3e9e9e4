import RunSigning.Markup.Entity
import RunSigning.Markup.Namespace
import RunSigning.Markup.Node
import RunSigning.Markup.Token.Scan

/-
This file builds the tree of a document from its tokens. The builder keeps the open elements,
innermost first, and takes one token at a time; the replacement text of an entity in content is
read as tokens of its own.
-/

namespace RunSigning.Markup
open RunSigning.Text

/-- An open element. Its children stand last one first. -/
structure Frame where
  name : QualifiedName
  uri? : Option String
  attributes : List Attribute
  start : Nat
  scope : Scope
  children : List Node

/-- An attribute of the tag being read, before its qualifier is resolved. -/
structure PendingAttribute where
  written : WrittenAttribute
  value : String
  deriving DecidableEq, Repr

structure Builder where
  frames : List Frame
  /-- The nodes outside any open element, last one first. -/
  nodes : List Node
  /-- The name of the last start tag and the place of its opening bracket. -/
  tag? : Option (QualifiedName × Nat)
  bindings : Scope
  attributes : List PendingAttribute
  entities : Entities
  references : Nat
  /-- Text that comes next may join the text before it: no start tag has begun in between. -/
  joinsText : Bool
  hasDoctype : Bool

def Builder.empty : Builder := ⟨[], [], none, [], [], [], 0, false, false⟩

/-- The children of the innermost open element, last one first. -/
def Builder.siblings (builder : Builder) : List Node :=
  match builder.frames with
  | [] => builder.nodes
  | frame :: _ => frame.children

def Builder.withSiblings (builder : Builder) (siblings : List Node) : Builder :=
  match builder.frames with
  | [] => { builder with nodes := siblings }
  | frame :: outer => { builder with frames := { frame with children := siblings } :: outer }

def Builder.addNode (builder : Builder) (node : Node) : Builder :=
  builder.withSiblings (node :: builder.siblings)

/-- Text next to text makes one node. The beginning of a start tag parts them, even of one that
is never finished and so adds no element. -/
def Builder.addText (builder : Builder) (text : List Char) : Builder :=
  let joining := { builder with joinsText := true }
  match builder.joinsText, builder.siblings with
  | true, .text content :: earlier =>
      joining.withSiblings (.text (content ++ String.ofList text) :: earlier)
  | _, siblings => joining.withSiblings (.text (String.ofList text) :: siblings)

/-- The bindings around the innermost open element. -/
def Builder.scope (builder : Builder) : Scope :=
  match builder.frames with
  | [] => []
  | frame :: _ => frame.scope

/-- The name is held in at most sixteen bits, and the equals sign with its blanks in at most
eight; what does not fit counts as the greatest number that does. -/
def WrittenAttribute.valueSpan (written : WrittenAttribute) : Span where
  start := written.start + min 65535 (written.nameStop - written.start) +
    min 255 (written.quote - written.nameStop) + 1
  stop := written.value.offset + byteLength written.value.rest

/-- An attribute that declares a namespace adds a binding to the tag being read. -/
def Builder.addAttribute (builder : Builder) (written : WrittenAttribute) (value : String) :
    Except Failure Builder :=
  let localName := written.name.localName
  if written.name.qualifier = "xmlns" then
    if value = declarationUri then .error ⟨.declarationUriBound, written.start⟩
    else if localName = "xml" ∧ value ≠ xmlUri then .error ⟨.reservedNameRebound, written.start⟩
    else if localName ≠ "xml" ∧ value = xmlUri then .error ⟨.reservedUriBound, written.start⟩
    else if builder.bindings.binds localName then
      .error ⟨.namespaceRepeated localName, written.start⟩
    else if localName = "xml" then .ok builder
    else .ok { builder with bindings := builder.bindings ++ [⟨some localName, value⟩] }
  else if localName = "xmlns" then
    if value = xmlUri then .error ⟨.reservedUriBound, written.start⟩
    else if value = declarationUri then .error ⟨.declarationUriBound, written.start⟩
    else .ok { builder with bindings := builder.bindings ++ [⟨none, value⟩] }
  else .ok { builder with attributes := builder.attributes ++ [⟨written, value⟩] }

/-- The namespace of an attribute. An unqualified one is in none. -/
def Scope.resolveAttribute (scope : Scope) (written : WrittenAttribute) :
    Except Failure (Option String) :=
  let qualifier := written.name.qualifier
  if qualifier = "xml" then .ok (some xmlUri)
  else if qualifier = "" then .ok none
  else
    match scope.find? qualifier with
    | some uri => .ok (some uri)
    | none => .error ⟨.namespaceUnknown qualifier, written.start⟩

/-- No two attributes of a tag have the same name in the same namespace. -/
def Scope.resolveAttributes (scope : Scope) (resolved : List Attribute) :
    List PendingAttribute → Except Failure (List Attribute)
  | [] => .ok resolved
  | ⟨written, value⟩ :: rest => do
      let uri? ← scope.resolveAttribute written
      let localName := written.name.localName
      if resolved.any fun other => other.name.localName == localName && other.uri? == uri? then
        .error ⟨.attributeRepeated localName, written.start⟩
      else
        scope.resolveAttributes (resolved ++ [⟨written.name, uri?, value, written.valueSpan⟩]) rest

/-- The namespace of an element. An unqualified one may be in none. -/
def Scope.resolveElement (scope : Scope) (name : QualifiedName) (start : Nat) :
    Except Failure (Option String) :=
  match scope.find? name.qualifier with
  | some uri => .ok (some uri)
  | none =>
      if name.qualifier = "" then .ok none
      else .error ⟨.namespaceUnknown name.qualifier, start + 1⟩

/-- The end of a start tag adds an element, or opens one. -/
def Builder.endStartTag (builder : Builder) (selfClosing : Bool) (stop : Nat) :
    Except Failure Builder :=
  match builder.tag? with
  | none => .ok builder
  | some (name, start) => do
      let scope := builder.bindings ++ builder.scope
      let attributes ← scope.resolveAttributes [] builder.attributes
      let uri? ← scope.resolveElement name start
      let settled := { builder with bindings := [], attributes := [] }
      if selfClosing then
        return settled.addNode (.element ⟨name, uri?, attributes, ⟨start, stop⟩, true⟩ [])
      else
        return { settled with
          frames := ⟨name, uri?, attributes, start, scope, []⟩ :: settled.frames }

/-- An end tag closes the innermost open element, whose name it repeats as written. -/
def Builder.closeElement (builder : Builder) (name : QualifiedName) (span : Span) :
    Except Failure Builder :=
  match builder.frames with
  | [] => .error ⟨.endTagAfterRoot, span.start⟩
  | frame :: outer =>
      if name.qualifier = frame.name.qualifier ∧ name.localName = frame.name.localName then
        let tag : Tag :=
          ⟨frame.name, frame.uri?, frame.attributes, ⟨frame.start, span.stop⟩, false⟩
        .ok (Builder.addNode { builder with frames := outer }
          (.element tag frame.children.reverse))
      else .error ⟨.endTagMismatch frame.name.shown name.shown, span.start⟩

/-- An end tag needs a start tag before it in the same text. Attributes that no start tag has
claimed are resolved and dropped. -/
def Builder.endElement (builder : Builder) (name : QualifiedName) (span : Span) :
    Except Failure Builder :=
  match builder.tag? with
  | none => .error ⟨.endTagInReplacement, span.start⟩
  | some _ => do
      let scope := builder.bindings ++ builder.scope
      let _ ← scope.resolveAttributes [] builder.attributes
      Builder.closeElement { builder with bindings := [], attributes := [] } name span

/-- A literal character joins the text, last character first. A carriage return becomes a line
feed, and swallows a line feed after it. -/
def pushLiteral (buffer : List Char) (c : Char) (isLast : Bool) : List Char :=
  let shown := if isLast ∧ c = '\r' then '\n' else c
  match buffer with
  | '\r' :: earlier => if c = '\n' then '\n' :: earlier else shown :: '\n' :: earlier
  | _ => shown :: buffer

def Builder.flush (builder : Builder) (buffer : List Char) : Builder :=
  if buffer.isEmpty then builder else builder.addText buffer.reverse

/-- The content that chunks stand for. An outermost character reference stands for its character
unchanged, and so does the literal character right after it. -/
def Builder.extend (outermost : Bool)
    (follow : Nat → Cursor → Builder → Except Failure Builder) :
    List Chunk → List Char → Bool → Builder → Except Failure Builder
  | [], buffer, _, builder => .ok (builder.flush buffer)
  | .literal c :: rest, buffer, unchanged, builder =>
      if unchanged then extend outermost follow rest (c :: buffer) false builder
      else extend outermost follow rest (pushLiteral buffer c rest.isEmpty) false builder
  | .character c _ :: rest, buffer, unchanged, builder =>
      if outermost then extend outermost follow rest (c :: buffer) true builder
      else extend outermost follow rest (pushLiteral buffer c rest.isEmpty) unchanged builder
  | .entity name start stop :: rest, buffer, _, builder =>
      match builder.entities.find? name with
      | none => .error ⟨.referenceUnknown name, start⟩
      | some replacement =>
          match follow stop replacement (builder.flush buffer) with
          | .error failure => .error failure
          | .ok followed => extend outermost follow rest [] false followed
  | .malformed start :: _, _, _, _ => .error ⟨.referenceMalformed, start⟩

/-- In a marked section each line break becomes a line feed. -/
def foldLineBreaks : List Char → List Char
  | '\r' :: '\n' :: rest => '\n' :: foldLineBreaks rest
  | '\r' :: rest => '\n' :: foldLineBreaks rest
  | c :: rest => c :: foldLineBreaks rest
  | [] => []

/-- The tree grows by one token. -/
def Builder.add (room : Nat) (follow : Nat → Cursor → Builder → Except Failure Builder)
    (builder : Builder) : Token → Except Failure Builder
  | .doctype => .ok { builder with hasDoctype := true }
  | .entity name replacement =>
      .ok { builder with entities := builder.entities ++ [(name, replacement)] }
  | .comment text => .ok (builder.addNode (.comment text))
  | .instruction target data => .ok (builder.addNode (.instruction target data))
  | .tagName name start =>
      if name.qualifier = "xmlns" then .error ⟨.declarationElement, start + 1⟩
      else .ok { builder with tag? := some (name, start), joinsText := false }
  | .attr written => do
      let (value, references) ←
        normalizeValue builder.entities room builder.references written.value
      Builder.addAttribute { builder with references := references } written value
  | .tagEnd selfClosing stop => builder.endStartTag selfClosing stop
  | .endTag name span => builder.endElement name span
  | .text written =>
      builder.extend (isOutermost room) follow (Chunk.split written) [] false
  | .verbatim text => .ok (builder.addText (foldLineBreaks text))

/-- The tree grows by the tokens of a scan, and the failure of the scan comes last. -/
def Builder.addScan (room : Nat) (follow : Nat → Cursor → Builder → Except Failure Builder)
    (builder : Builder) (scan : Scan) : Except Failure Builder := do
  let grown ← scan.tokens.foldlM (Builder.add room follow) builder
  match scan.failure? with
  | some failure => .error failure
  | none => return grown

/-- The tree goes on with the replacement text of an entity, if there is room. -/
def Builder.follow : Nat → Nat → Cursor → Builder → Except Failure Builder
  | 0 => fun stop _ _ => .error ⟨.referenceLoop, stop⟩
  | room + 1 => fun stop replacement builder => do
      let references ← countReference (room + 1) stop builder.references
      let inside := { builder with tag? := none, references := references }
      let grown ← inside.addScan room (Builder.follow room) (Scan.replacement replacement)
      return { grown with
        tag? := builder.tag?
        references := settleReferences (room + 1) grown.references }

/-- The tree of a document, in which every element is closed and one is at the top. -/
def Builder.finish (builder : Builder) : Except Failure Tree :=
  if !builder.frames.isEmpty then .error ⟨.rootUnclosed, 0⟩
  else if builder.nodes.any fun node => node.element?.isSome then
    .ok ⟨builder.nodes.reverse, builder.hasDoctype⟩
  else .error ⟨.rootMissing, 0⟩

/-- The tree that a text spells, or the first failure. -/
def Tree.parse (text : String) : Except Failure Tree := do
  let builder ← Builder.empty.addScan nestingLimit (Builder.follow nestingLimit)
    (Scan.document text.toList)
  builder.finish

end RunSigning.Markup
