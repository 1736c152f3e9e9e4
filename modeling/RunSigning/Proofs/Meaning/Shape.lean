import RunSigning.Markup.Build

/-
This file defines the shape of a tree: all that it holds apart from the places in the text that it
was read from. It also says how nodes join the nodes before them.
-/

namespace RunSigning.Markup
open RunSigning.Text

/-- An attribute without its place. -/
structure AttributeShape where
  name : QualifiedName
  uri? : Option String
  value : String
  deriving DecidableEq, Repr

def Attribute.shape (held : Attribute) : AttributeShape := ⟨held.name, held.uri?, held.value⟩

/-- A node without its places. -/
inductive Shape where
  | element (name : QualifiedName) (uri? : Option String) (attributes : List AttributeShape)
      (children : List Shape)
  | text (content : String)
  | comment (content : String)
  | instruction (target data : String)

def Node.shape : Node → Shape
  | .element tag children =>
      .element tag.name tag.uri? (tag.attributes.map Attribute.shape) (children.map Node.shape)
  | .text content => .text content
  | .comment content => .comment content
  | .instruction target data => .instruction target data

def Element.shape (element : Element) : Shape := Node.shape (.element element.tag element.children)

theorem Element.shape_eq (element : Element) :
    element.shape = .element element.tag.name element.tag.uri?
      (element.tag.attributes.map Attribute.shape) (element.children.map Node.shape) := by
  rw [Element.shape, Node.shape]

/-- The elements among nodes. -/
def elements (nodes : List Node) : List Element := nodes.filterMap Node.element?

@[simp] theorem elements_nil : elements [] = [] := rfl

@[simp] theorem elements_append (first second : List Node) :
    elements (first ++ second) = elements first ++ elements second :=
  List.filterMap_append

@[simp] theorem elements_reverse (nodes : List Node) :
    elements nodes.reverse = (elements nodes).reverse :=
  List.filterMap_reverse

/-- A node joins the nodes before it, which stand last one first. Text next to text makes one
node. -/
def joinNode : List Node → Node → List Node
  | .text content :: earlier, .text more => .text (content ++ more) :: earlier
  | siblings, node => node :: siblings

/-- Nodes join the nodes before them one after the other. -/
def joinNodes (siblings nodes : List Node) : List Node := nodes.foldl joinNode siblings

@[simp] theorem joinNodes_nil (siblings : List Node) : joinNodes siblings [] = siblings := rfl

@[simp] theorem joinNodes_append (siblings first second : List Node) :
    joinNodes siblings (first ++ second) = joinNodes (joinNodes siblings first) second :=
  List.foldl_append

theorem joinNodes_cons (siblings : List Node) (node : Node) (nodes : List Node) :
    joinNodes siblings (node :: nodes) = joinNodes (joinNode siblings node) nodes := rfl

def Node.isText : Node → Bool
  | .text _ => true
  | _ => false

/-- What is no text is added as it is. -/
theorem joinNode_of_not_isText {node : Node} (apart : node.isText = false)
    (siblings : List Node) : joinNode siblings node = node :: siblings := by
  cases siblings with
  | nil => cases node <;> rfl
  | cons last earlier =>
      cases node with
      | text content => cases apart
      | element tag children => cases last <;> rfl
      | comment content => cases last <;> rfl
      | instruction target data => cases last <;> rfl

/-- Nothing joins text across a node that is none. -/
theorem joinNodes_across {node : Node} (apart : node.isText = false)
    (siblings earlier nodes : List Node) :
    joinNodes (siblings ++ node :: earlier) nodes = joinNodes siblings nodes ++ node :: earlier := by
  induction nodes generalizing siblings with
  | nil => rfl
  | cons first later ih =>
      have step : joinNode (siblings ++ node :: earlier) first =
          joinNode siblings first ++ node :: earlier := by
        cases siblings with
        | nil =>
            cases node with
            | text content => cases apart
            | element tag children => cases first <;> rfl
            | comment content => cases first <;> rfl
            | instruction target data => cases first <;> rfl
        | cons last siblings => cases last <;> cases first <;> rfl
      rw [joinNodes_cons, step, ih, joinNodes_cons]

theorem elements_joinNode (siblings : List Node) (node : Node) :
    elements (joinNode siblings node) = elements [node] ++ elements siblings := by
  cases siblings with
  | nil => cases node <;> rfl
  | cons last siblings => cases last <;> cases node <;> rfl

/-- Joining text neither adds nor hides elements. -/
theorem elements_joinNodes (siblings nodes : List Node) :
    elements (joinNodes siblings nodes) = (elements nodes).reverse ++ elements siblings := by
  induction nodes generalizing siblings with
  | nil => rfl
  | cons node nodes ih =>
      have split : elements (node :: nodes) = elements [node] ++ elements nodes :=
        elements_append [node] nodes
      have alone : (elements [node]).reverse = elements [node] := by
        cases node <;> rfl
      rw [joinNodes_cons, ih, elements_joinNode, split, List.reverse_append, alone,
        List.append_assoc]

/-- A shape joins the shapes before it as its node does. -/
def joinShape : List Shape → Shape → List Shape
  | .text content :: earlier, .text more => .text (content ++ more) :: earlier
  | siblings, shape => shape :: siblings

theorem map_shape_joinNode (siblings : List Node) (node : Node) :
    (joinNode siblings node).map Node.shape = joinShape (siblings.map Node.shape) node.shape := by
  cases siblings with
  | nil => cases node <;> simp [joinNode, joinShape, Node.shape]
  | cons last earlier => cases last <;> cases node <;> simp [joinNode, joinShape, Node.shape]

theorem joinNode_shape {siblings siblings' : List Node} {node node' : Node}
    (same : siblings.map Node.shape = siblings'.map Node.shape) (alike : node.shape = node'.shape) :
    (joinNode siblings node).map Node.shape = (joinNode siblings' node').map Node.shape := by
  rw [map_shape_joinNode, map_shape_joinNode, same, alike]

/-- How nodes join depends on their shapes only. -/
theorem joinNodes_shape {siblings siblings' nodes nodes' : List Node}
    (same : siblings.map Node.shape = siblings'.map Node.shape)
    (alike : nodes.map Node.shape = nodes'.map Node.shape) :
    (joinNodes siblings nodes).map Node.shape = (joinNodes siblings' nodes').map Node.shape := by
  induction nodes generalizing siblings siblings' nodes' with
  | nil =>
      obtain rfl := List.map_eq_nil_iff.mp alike.symm
      exact same
  | cons node nodes ih =>
      cases nodes' with
      | nil => cases alike
      | cons node' nodes' =>
          obtain ⟨first, later⟩ := List.cons.inj alike
          rw [joinNodes_cons, joinNodes_cons]
          exact ih (joinNode_shape same first) later

end RunSigning.Markup
