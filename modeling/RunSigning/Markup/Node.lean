import RunSigning.Markup.Name

/-
This file defines the tree of a document: elements with attributes and children, text, comments
and instructions. Elements and values carry the spans of text that they were read from.
-/

namespace RunSigning.Markup
open RunSigning.Text

structure Attribute where
  name : QualifiedName
  uri? : Option String
  value : String
  /-- The place of the value in the text, without its quotes. -/
  valueSpan : Span
  deriving DecidableEq, Repr

/-- What an element says about itself, apart from its children. -/
structure Tag where
  name : QualifiedName
  uri? : Option String
  attributes : List Attribute
  /-- The element from its opening bracket to the last bracket of its end. -/
  span : Span
  selfClosing : Bool
  deriving DecidableEq, Repr

inductive Node where
  | element (tag : Tag) (children : List Node)
  | text (content : String)
  | comment (content : String)
  | instruction (target data : String)

structure Element where
  tag : Tag
  children : List Node

def Node.element? : Node → Option Element
  | .element tag children => some ⟨tag, children⟩
  | _ => none

/-- The value of an attribute that is in no namespace. -/
def Element.attribute? (element : Element) (name : String) : Option Attribute :=
  element.tag.attributes.find? fun candidate =>
    candidate.name.localName == name && candidate.uri? == none

/-- An element has a plain name if it is in no namespace or in the one with the empty name. -/
def Element.isNamed (element : Element) (name : String) : Bool :=
  element.tag.name.localName == name && element.tag.uri?.getD "" == ""

/-- The first child with a plain name. -/
def Element.child? (element : Element) (name : String) : Option Element :=
  (element.children.filterMap Node.element?).find? (·.isNamed name)

/-- The nodes at the top of a document. -/
structure Tree where
  nodes : List Node
  hasDoctype : Bool

def Tree.root? (tree : Tree) : Option Element := tree.nodes.findSome? Node.element?

end RunSigning.Markup
