import RunSigning.Document

/-
This file views the start declarations of a config. They are the start elements directly below
the root element; each is matched by one effective name.
-/

namespace RunSigning
open RunSigning.Markup

structure Declaration where
  element : Element

def Declaration.name? (declaration : Declaration) : Option String :=
  (declaration.element.attribute? "name").map Attribute.value

def Declaration.binary? (declaration : Declaration) : Option Element :=
  declaration.element.child? "binary"

def Declaration.binaryName? (declaration : Declaration) : Option String :=
  declaration.binary?.bind fun binary => (binary.attribute? "name").map Attribute.value

/-- The name of the binary child counts, even a missing one. Without such a child the
declaration goes by its own name. -/
def Declaration.effectiveName? (declaration : Declaration) : Option String :=
  if declaration.binary?.isSome then declaration.binaryName? else declaration.name?

def Declaration.signature? (declaration : Declaration) : Option Element :=
  declaration.element.child? "signature"

def Declaration.signatureValue? (declaration : Declaration) : Option String :=
  declaration.signature?.bind fun signature =>
    (signature.attribute? "value").map Attribute.value

/-- The start declarations below the root element, in order. -/
def Markup.Tree.declarations (tree : Tree) : List Declaration :=
  match tree.root? with
  | none => []
  | some root =>
      ((root.children.filterMap Node.element?).filter (·.isNamed "start")).map Declaration.mk

def Document.declarations (document : Document) : List Declaration := document.tree.declarations

/-- Whether the effective name of a declaration is the given one. -/
def Declaration.matches (declaration : Declaration) (binary : String) : Bool :=
  declaration.effectiveName? == some binary

/-- The first declaration whose effective name is the given one. -/
def Document.find? (document : Document) (binary : String) : Option Declaration :=
  document.declarations.find? (·.matches binary)

def Document.findIndex? (document : Document) (binary : String) : Option Nat :=
  document.declarations.findIdx? (·.matches binary)

end RunSigning
