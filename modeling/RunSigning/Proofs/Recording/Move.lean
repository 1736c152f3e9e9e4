import RunSigning.Proofs.Recording.Declaration

/-
This file moves elements. Where nothing is declared, an element is read behind more text as it is
read without it, with its spans moved by the length of that text.
-/

namespace RunSigning.Markup
open RunSigning.Text

/-- The attribute as it is read behind more text. -/
def Attribute.movedBy (held : Attribute) (offset : Nat) : Attribute :=
  { held with valueSpan := held.valueSpan.movedBy offset }

/-- The tag as it is read behind more text. -/
def Tag.movedBy (tag : Tag) (offset : Nat) : Tag :=
  { tag with
    attributes := tag.attributes.map (·.movedBy offset)
    span := tag.span.movedBy offset }

/-- The node as it is read behind more text. -/
def Node.movedBy (offset : Nat) : Node → Node
  | .element tag children => .element (tag.movedBy offset) (children.map (Node.movedBy offset))
  | .text content => .text content
  | .comment content => .comment content
  | .instruction target data => .instruction target data

/-- The element as it is read behind more text. -/
def Element.movedBy (element : Element) (offset : Nat) : Element :=
  ⟨element.tag.movedBy offset, element.children.map (Node.movedBy offset)⟩

@[simp] theorem Element.node_movedBy (element : Element) (offset : Nat) :
    (element.movedBy offset).node = element.node.movedBy offset := by
  rw [node, node, Node.movedBy]
  rfl

@[simp] theorem Node.element?_movedBy (node : Node) (offset : Nat) :
    (node.movedBy offset).element? = node.element?.map (·.movedBy offset) := by
  cases node <;> rw [movedBy] <;> rfl

theorem elements_map_movedBy (nodes : List Node) (offset : Nat) :
    elements (nodes.map (Node.movedBy offset)) = (elements nodes).map (·.movedBy offset) := by
  rw [elements, elements, List.filterMap_map, List.map_filterMap]
  exact List.filterMap_congr fun node _ => node.element?_movedBy offset

/-- Only elements have a place. -/
theorem map_movedBy_of_elements {nodes : List Node} (none : elements nodes = []) (offset : Nat) :
    nodes.map (Node.movedBy offset) = nodes := by
  rw [elements, List.filterMap_eq_nil_iff] at none
  refine (List.map_congr_left fun node member => ?_).trans (List.map_id nodes)
  have apart := none node member
  cases node with
  | element tag children => cases apart
  | text content => rw [Node.movedBy, id]
  | comment content => rw [Node.movedBy, id]
  | instruction target data => rw [Node.movedBy, id]

theorem joinNode_movedBy (siblings : List Node) (node : Node) (offset : Nat) :
    (joinNode siblings node).map (Node.movedBy offset) =
      joinNode (siblings.map (Node.movedBy offset)) (node.movedBy offset) := by
  cases siblings with
  | nil => cases node <;> simp [joinNode, Node.movedBy]
  | cons last earlier => cases last <;> cases node <;> simp [joinNode, Node.movedBy]

theorem joinNodes_movedBy (siblings nodes : List Node) (offset : Nat) :
    (joinNodes siblings nodes).map (Node.movedBy offset) =
      joinNodes (siblings.map (Node.movedBy offset)) (nodes.map (Node.movedBy offset)) := by
  induction nodes generalizing siblings with
  | nil => rfl
  | cons node nodes ih => rw [joinNodes_cons, ih, joinNode_movedBy, List.map_cons, joinNodes_cons]

@[simp] theorem Element.isNamed_movedBy (element : Element) (offset : Nat) (name : String) :
    (element.movedBy offset).isNamed name = element.isNamed name := rfl

@[simp] theorem Element.child?_movedBy (element : Element) (offset : Nat) (name : String) :
    (element.movedBy offset).child? name = (element.child? name).map (·.movedBy offset) := by
  have children := elements_map_movedBy element.children offset
  rw [elements, elements] at children
  rw [child?, child?, movedBy, children, List.find?_map]
  rfl

@[simp] theorem Element.attribute?_movedBy (element : Element) (offset : Nat) (name : String) :
    (element.movedBy offset).attribute? name =
      (element.attribute? name).map (·.movedBy offset) := by
  rw [attribute?, attribute?, movedBy, Tag.movedBy, List.find?_map]
  rfl

theorem settle_movedBy (scope : Scope) (attr : AttributeSource) (value : String)
    (place offset : Nat) :
    scope.settle ⟨attr.written (place + offset), value⟩ =
      (scope.settle ⟨attr.written offset, value⟩).movedBy place := by
  simp only [Scope.settle, Attribute.movedBy, AttributeSource.written, WrittenAttribute.valueSpan,
    Span.movedBy, Attribute.mk.injEq, Span.mk.injEq, true_and]
  constructor <;> omega

/-- Attributes are read behind more text as they are read without it. -/
theorem map_settle_pendingFrom_movedBy (scope : Scope) (valued : List (AttributeSource × String))
    (place offset : Nat) :
    (pendingFrom (place + offset) valued).map scope.settle =
      ((pendingFrom offset valued).map scope.settle).map (·.movedBy place) := by
  induction valued generalizing offset with
  | nil => rfl
  | cons pair valued ih =>
      obtain ⟨attr, value⟩ := pair
      rw [pendingFrom, pendingFrom, List.map_append, List.map_append, List.map_append,
        Nat.add_assoc, ih]
      refine congrArg (· ++ _) ?_
      have settled := settle_movedBy scope attr value place offset
      cases declares : attr.name.name.declares with
      | true => simp [pending, AttributeSource.written, declares]
      | false =>
          rw [pending, pending, if_neg (by simpa [AttributeSource.written] using declares),
            if_neg (by simpa [AttributeSource.written] using declares)]
          exact congrArg (fun held => [held]) settled

theorem TagSource.Reading.tag_movedBy {source : TagSource} {entities : Entities} {room : Nat}
    {scope : Scope} {references : Nat} (reading : source.Reading entities room scope references)
    (place offset length : Nat) (selfClosing : Bool) :
    reading.tag (place + offset) length selfClosing =
      (reading.tag offset length selfClosing).movedBy place := by
  simp only [tag, Tag.movedBy, attributes, Tag.mk.injEq, Span.movedBy, Nat.add_assoc]
  exact ⟨trivial, trivial, map_settle_pendingFrom_movedBy _ _ _ _, trivial, trivial⟩

/-- Where nothing is declared, content is read behind more text as it is read without it. -/
theorem Content.Reads.movedBy {entities : Entities} {room : Nat} {scope : Scope}
    {references after : Nat} {content : Content} {nodes : Nat → List Node}
    (reads : content.Reads entities room scope references nodes after)
    (undeclared : entities = []) (place offset : Nat) :
    nodes (place + offset) = (nodes offset).map (Node.movedBy place) := by
  subst undeclared
  induction reads generalizing offset with
  | nil scope references => rfl
  | @text scope references between after run fits rest nodes more reads later ih =>
      have none : elements nodes = [] := by
        rw [List.eq_nil_iff_forall_not_mem]
        intro element member
        exact Nat.not_lt_zero _ (reads.before 0 (by simp [Entities.Before]) element member)
      dsimp only
      rw [List.map_append, map_movedBy_of_elements none, Nat.add_assoc, ih]
  | marked later ih =>
      dsimp only
      rw [List.map_cons, Nat.add_assoc, ih, Node.movedBy]
  | @aside scope references after source rest more later ih =>
      have still : source.node.movedBy place = source.node := by
        cases source <;> rw [AsideSource.node, Node.movedBy]
      dsimp only
      rw [List.map_cons, Nat.add_assoc, ih, still]
  | empty reading later ih =>
      dsimp only
      rw [List.map_cons, Nat.add_assoc, ih, Node.movedBy, ← reading.tag_movedBy]
      rfl
  | filled reading inside matching later innerIh ih =>
      dsimp only
      rw [List.map_cons, Node.movedBy, ← reading.tag_movedBy, List.map_reverse, joinNodes_movedBy,
        ← innerIh, Nat.add_assoc, Nat.add_assoc, ih]
      rfl

/-- Where nothing is declared, an element is read behind more text as it is read without it. -/
theorem ElementSource.Reads.movedBy {entities : Entities} {room : Nat} {scope : Scope}
    {references after : Nat} {source : ElementSource} {reading : Nat → Element}
    (reads : source.Reads entities room scope references reading after)
    (undeclared : entities = []) (place offset : Nat) :
    reading (place + offset) = (reading offset).movedBy place := by
  have whole := (reads.before (.nil scope after)).movedBy undeclared place offset
  rw [List.map_cons, ← Element.node_movedBy] at whole
  have node_eq := (List.cons.inj whole).1
  rw [Element.node, Element.node] at node_eq
  obtain ⟨tag_eq, children_eq⟩ := Node.element.inj node_eq
  exact congrArg₂ Element.mk tag_eq children_eq

end RunSigning.Markup
