import RunSigning.Declaration.Record
import RunSigning.Proofs.Meaning.Shape

/-
This file says how recording a signature changes a tree: one declaration gets the signature, and
everything else keeps its shape. What a declaration says can be read off its shape.
-/

namespace RunSigning.Markup
open RunSigning.Text

def Shape.isElement : Shape → Bool
  | .element _ _ _ _ => true
  | _ => false

/-- Whether a shape is an element with a plain name. -/
def Shape.isNamed : Shape → String → Bool
  | .element name uri? _ _, plain => name.localName == plain && uri?.getD "" == ""
  | _, _ => false

/-- Whether an attribute has a name and is in no namespace. -/
def AttributeShape.isPlain (held : AttributeShape) (name : String) : Bool :=
  held.name.localName == name && held.uri? == none

def Shape.attribute? : Shape → String → Option AttributeShape
  | .element _ _ attributes _, name => attributes.find? (·.isPlain name)
  | _, _ => none

def Shape.child? : Shape → String → Option Shape
  | .element _ _ _ children, name => children.find? (·.isNamed name)
  | _, _ => none

theorem Element.isNamed_shape (element : Element) (name : String) :
    element.shape.isNamed name = element.isNamed name := by
  rw [element.shape_eq]
  rfl

theorem Element.attribute?_shape (element : Element) (name : String) :
    element.shape.attribute? name = (element.attribute? name).map Attribute.shape := by
  rw [element.shape_eq, Shape.attribute?, List.find?_map, Element.attribute?]
  rfl

theorem Shape.isElement_of_isNamed {shape : Shape} {name : String}
    (named : shape.isNamed name = true) : shape.isElement = true := by
  cases shape with
  | element name uri? attributes children => rfl
  | text content => cases named
  | comment content => cases named
  | instruction target data => cases named

/-- The elements among nodes are those among their shapes. -/
theorem map_shape_elements (nodes : List Node) :
    (elements nodes).map Element.shape = (nodes.map Node.shape).filter Shape.isElement := by
  induction nodes with
  | nil => rfl
  | cons node nodes ih =>
      have apart (outside : node.shape.isElement = false) :
          (nodes.map Node.shape).filter Shape.isElement =
            (node.shape :: nodes.map Node.shape).filter Shape.isElement := by
        rw [List.filter_cons, if_neg (by simp [outside])]
      cases node with
      | element tag children =>
          have inside : (Node.shape (.element tag children)).isElement = true := by
            rw [Node.shape]
            rfl
          rw [List.map_cons, List.filter_cons, if_pos inside, ← ih]
          rfl
      | text content => exact ih.trans (apart (by rw [Node.shape]; rfl))
      | comment content => exact ih.trans (apart (by rw [Node.shape]; rfl))
      | instruction target data => exact ih.trans (apart (by rw [Node.shape]; rfl))

/-- Named children are found among the shapes of all children. -/
theorem map_shape_filter_isNamed (nodes : List Node) (name : String) :
    ((elements nodes).filter (·.isNamed name)).map Element.shape =
      (nodes.map Node.shape).filter (·.isNamed name) := by
  have named : (fun element : Element => element.isNamed name) =
      (fun shape : Shape => shape.isNamed name) ∘ Element.shape := by
    funext element
    exact (element.isNamed_shape name).symm
  rw [named, ← List.filter_map, map_shape_elements, List.filter_filter]
  refine List.filter_congr fun shape _ => ?_
  cases known : shape.isNamed name with
  | false => rfl
  | true => rw [Shape.isElement_of_isNamed known]; rfl

theorem Element.child?_shape (element : Element) (name : String) :
    element.shape.child? name = (element.child? name).map Element.shape := by
  rw [element.shape_eq, Shape.child?, Element.child?, ← List.head?_filter,
    ← List.head?_filter, ← map_shape_filter_isNamed, List.head?_map]
  rfl

/-- What a declaration says about itself. -/
structure DeclarationView where
  name? : Option String
  binaryName? : Option String
  effectiveName? : Option String
  isSigned : Bool
  signatureValue? : Option String
  deriving DecidableEq, Repr

/-- What a start element says about itself, read off its shape. -/
def Shape.view (shape : Shape) : DeclarationView :=
  let name? := (shape.attribute? "name").map AttributeShape.value
  let binaryName? := (shape.child? "binary").bind fun binary =>
    (binary.attribute? "name").map AttributeShape.value
  { name? := name?
    binaryName? := binaryName?
    effectiveName? := if (shape.child? "binary").isSome then binaryName? else name?
    isSigned := (shape.child? "signature").isSome
    signatureValue? := (shape.child? "signature").bind fun signature =>
      (signature.attribute? "value").map AttributeShape.value }

end RunSigning.Markup

namespace RunSigning
open RunSigning.Markup

/-- What a declaration says about itself. -/
def Declaration.view (declaration : Declaration) : DeclarationView where
  name? := declaration.name?
  binaryName? := declaration.binaryName?
  effectiveName? := declaration.effectiveName?
  isSigned := declaration.signature?.isSome
  signatureValue? := declaration.signatureValue?

theorem Declaration.view_shape (declaration : Declaration) :
    declaration.element.shape.view = declaration.view := by
  have value (found : Option Element) (name : String) :
      ((found.map Element.shape).bind fun held =>
        (held.attribute? name).map AttributeShape.value) =
      found.bind fun held => (held.attribute? name).map Attribute.value := by
    cases found with
    | none => rfl
    | some held =>
        rw [Option.map_some, Option.bind_some, Option.bind_some, held.attribute?_shape,
          Option.map_map]
        rfl
  simp only [Shape.view, view, Element.child?_shape, Element.attribute?_shape, Option.isSome_map,
    Option.map_map, value]
  rfl

end RunSigning

namespace RunSigning.Markup
open RunSigning.Text

/-- The shapes of the start declarations of a tree. -/
theorem Tree.map_shape_declarations {tree : Tree} {front back children : List Shape}
    {name : QualifiedName} {uri? : Option String} {attributes : List AttributeShape}
    (outside : ∀ shape ∈ front, shape.isElement = false)
    (nodes : tree.nodes.map Node.shape = front ++ .element name uri? attributes children :: back) :
    tree.declarations.map (·.element.shape) = children.filter (·.isNamed "start") := by
  obtain ⟨earlier, others, nodes_eq, rfl, rest⟩ := List.map_eq_append_iff.mp nodes
  obtain ⟨node, later, rfl, root, rfl⟩ := List.map_eq_cons_iff.mp rest
  have skipped : earlier.findSome? Node.element? = none := by
    rw [List.findSome?_eq_none_iff]
    intro other member
    have apart := outside other.shape (List.mem_map_of_mem member)
    cases other with
    | element tag children =>
        rw [Node.shape] at apart
        cases apart
    | text content => rfl
    | comment content => rfl
    | instruction target data => rfl
  cases node with
  | element tag kids =>
      rw [Node.shape, Shape.element.injEq] at root
      obtain ⟨-, -, -, rfl⟩ := root
      have found : tree.root? = some ⟨tag, kids⟩ := by
        rw [Tree.root?, nodes_eq, List.findSome?_append, skipped]
        rfl
      rw [Tree.declarations, found, List.map_map]
      exact map_shape_filter_isNamed kids "start"
  | text content => rw [Node.shape] at root; cases root
  | comment content => rw [Node.shape] at root; cases root
  | instruction target data => rw [Node.shape] at root; cases root

/-- New white space before a new element: nothing, or one text. -/
inductive IsBlankGap : List Shape → Prop where
  | none : IsBlankGap []
  | text (content : String) (blank : ∀ c ∈ content.toList, isWhiteSpace c = true) :
      IsBlankGap [.text content]

/-- How recording a signature changes a start element. A new signature element is in the given
namespace. -/
inductive Shape.Records (value : String) (signatureUri? : Option String) : Shape → Shape → Prop where
  | rewritten {name signatureName : QualifiedName} {uri? signatureUri'? : Option String}
      {attributes front back : List AttributeShape} {held : AttributeShape}
      {first rest children : List Shape}
      (unsigned : ∀ shape ∈ first, shape.isNamed "signature" = false)
      (signed : signatureName.localName = "signature" ∧ signatureUri'?.getD "" = "")
      (valued : held.isPlain "value" = true)
      (unvalued : ∀ other ∈ front, other.isPlain "value" = false) :
      Records value signatureUri?
        (.element name uri? attributes (first ++
          .element signatureName signatureUri'? (front ++ held :: back) children :: rest))
        (.element name uri? attributes (first ++
          .element signatureName signatureUri'? (front ++ { held with value := value } :: back)
            children :: rest))
  | added {name signatureName : QualifiedName} {uri? signatureUri'? : Option String}
      {attributes others : List AttributeShape} {first rest children : List Shape}
      (unsigned : ∀ shape ∈ first, shape.isNamed "signature" = false)
      (signed : signatureName.localName = "signature" ∧ signatureUri'?.getD "" = "")
      (unvalued : ∀ other ∈ others, other.isPlain "value" = false) :
      Records value signatureUri?
        (.element name uri? attributes (first ++
          .element signatureName signatureUri'? others children :: rest))
        (.element name uri? attributes (first ++
          .element signatureName signatureUri'? (⟨⟨none, "value"⟩, none, value⟩ :: others)
            children :: rest))
  | appended {name : QualifiedName} {uri? : Option String} {attributes : List AttributeShape}
      {first gap rest : List Shape}
      (unsigned : ∀ shape ∈ first, shape.isNamed "signature" = false)
      (last : ∀ shape ∈ rest, shape.isElement = false)
      (blank : IsBlankGap gap) :
      Records value signatureUri?
        (.element name uri? attributes (first ++ rest))
        (.element name uri? attributes (first ++ (gap ++
          .element ⟨none, "signature"⟩ signatureUri? [⟨⟨none, "value"⟩, none, value⟩] [] :: rest)))

/-- How recording a signature in a start declaration changes a tree. -/
inductive Tree.RecordedAt (value : String) (signatureUri? : Option String) (index : Nat)
    (tree changed : Tree) : Prop where
  | intro {front back first rest : List Shape} {name : QualifiedName} {uri? : Option String}
      {attributes : List AttributeShape} {old new : Shape}
      (outside : ∀ shape ∈ front, shape.isElement = false)
      (placed : (first.filter (·.isNamed "start")).length = index)
      (declares : old.isNamed "start" = true)
      (records : Shape.Records value signatureUri? old new)
      (before : tree.nodes.map Node.shape =
        front ++ .element name uri? attributes (first ++ old :: rest) :: back)
      (after : changed.nodes.map Node.shape =
        front ++ .element name uri? attributes (first ++ new :: rest) :: back)
      (doctype : changed.hasDoctype = tree.hasDoctype)

section
variable {value : String} {signatureUri? : Option String} {old new : Shape} {index : Nat}
  {tree changed : Tree}

theorem Shape.Records.isNamed_eq (records : Shape.Records value signatureUri? old new)
    (name : String) : new.isNamed name = old.isNamed name := by
  cases records <;> rfl

theorem Shape.Records.attribute?_eq (records : Shape.Records value signatureUri? old new)
    (name : String) : new.attribute? name = old.attribute? name := by
  cases records <;> rfl

/-- Only children named as signatures are touched. -/
theorem Shape.Records.child?_eq (records : Shape.Records value signatureUri? old new)
    {name : String} (other : name ≠ "signature") : new.child? name = old.child? name := by
  have unnamed {uri? : Option String} {attributes : List AttributeShape} {children : List Shape}
      {signatureName : QualifiedName} (signed : signatureName.localName = "signature") :
      (Shape.element signatureName uri? attributes children).isNamed name = false := by
    simp [isNamed, signed, Ne.symm other]
  cases records with
  | rewritten unsigned signed valued unvalued =>
      simp [child?, List.find?_append, unnamed signed.1]
  | added unsigned signed unvalued =>
      simp [child?, List.find?_append, unnamed signed.1]
  | appended unsigned last blank =>
      have gapless : ∀ rest : List Shape, ∀ gap, IsBlankGap gap →
          (gap ++ rest).find? (·.isNamed name) = rest.find? (·.isNamed name) := by
        intro rest gap blank
        cases blank <;> rfl
      simp [child?, List.find?_append, gapless _ _ blank, unnamed]

/-- Afterwards the first signature holds the value, unless it is a new one that is not found. -/
theorem Shape.Records.exists_signature (records : Shape.Records value signatureUri? old new)
    (plain : old.child? "signature" = none → signatureUri?.getD "" = "") :
    ∃ signature held, new.child? "signature" = some signature ∧
      signature.attribute? "value" = some held ∧ held.value = value := by
  have skip {first rest : List Shape} {shape : Shape}
      (unsigned : ∀ shape ∈ first, shape.isNamed "signature" = false)
      (signed : shape.isNamed "signature" = true) :
      (first ++ shape :: rest).find? (·.isNamed "signature") = some shape := by
    rw [List.find?_append, List.find?_eq_none.mpr (by simpa using unsigned), List.find?_cons,
      signed]
    rfl
  cases records with
  | @rewritten name signatureName uri? signatureUri'? attributes front back held first rest children
      unsigned signed valued unvalued =>
      refine ⟨_, { held with value := value }, skip unsigned (by simp [isNamed, signed]), ?_, rfl⟩
      rw [attribute?, List.find?_append, List.find?_eq_none.mpr (by simpa using unvalued),
        List.find?_cons, show AttributeShape.isPlain { held with value := value } "value" = true
        from valued]
      rfl
  | added unsigned signed unvalued =>
      exact ⟨_, ⟨⟨none, "value"⟩, none, value⟩, skip unsigned (by simp [isNamed, signed]), rfl, rfl⟩
  | @appended name uri? attributes first gap rest unsigned last blank =>
      have missing : (Shape.element name uri? attributes (first ++ rest)).child? "signature" =
          none := by
        rw [child?, List.find?_eq_none]
        intro shape member named
        rcases List.mem_append.mp member with left | right
        · rw [unsigned shape left] at named
          cases named
        · have element := Shape.isElement_of_isNamed named
          rw [last shape right] at element
          cases element
      refine ⟨.element ⟨none, "signature"⟩ signatureUri? [⟨⟨none, "value"⟩, none, value⟩] [],
        ⟨⟨none, "value"⟩, none, value⟩, ?_, rfl, rfl⟩
      rw [child?, ← List.append_assoc]
      refine skip ?_ (by simp [isNamed, plain missing])
      intro shape member
      rcases List.mem_append.mp member with left | right
      · exact unsigned shape left
      · cases blank with
        | none => cases right
        | text content blank =>
            obtain rfl := List.mem_singleton.mp right
            rfl

/-- Recording a signature changes what a declaration says about its signature, and nothing else. -/
theorem Shape.Records.view_eq (records : Shape.Records value signatureUri? old new)
    (plain : old.child? "signature" = none → signatureUri?.getD "" = "") :
    new.view = { old.view with isSigned := true, signatureValue? := some value } := by
  obtain ⟨signature, held, found, valued, rfl⟩ := records.exists_signature plain
  have binary := records.child?_eq (show "binary" ≠ "signature" by decide)
  simp [view, records.attribute?_eq, binary, found, valued]

theorem Tree.RecordedAt.shapes (recorded : tree.RecordedAt value signatureUri? index changed) :
    ∃ old new, Shape.Records value signatureUri? old new ∧
      (tree.declarations.map (·.element.shape))[index]? = some old ∧
      changed.declarations.map (·.element.shape) =
        (tree.declarations.map (·.element.shape)).set index new := by
  obtain ⟨outside, rfl, declares, records, before, after, -⟩ := recorded
  refine ⟨_, _, records, ?_, ?_⟩
  · rw [map_shape_declarations outside before, List.filter_append, List.filter_cons, if_pos declares]
    simp
  · rw [map_shape_declarations outside before, map_shape_declarations outside after,
      List.filter_append, List.filter_append, List.filter_cons, List.filter_cons, if_pos declares,
      if_pos (by rw [records.isNamed_eq]; exact declares)]
    simp

theorem Tree.map_view_declarations (tree : Tree) :
    tree.declarations.map Declaration.view =
      (tree.declarations.map (·.element.shape)).map Shape.view := by
  rw [List.map_map]
  refine List.map_congr_left fun declaration _ => ?_
  exact declaration.view_shape.symm

/-- Recording a signature changes what one declaration says, and only about its signature. -/
theorem Tree.RecordedAt.views (recorded : tree.RecordedAt value signatureUri? index changed)
    (plain : ∀ view, (tree.declarations.map Declaration.view)[index]? = some view →
      view.isSigned = false → signatureUri?.getD "" = "") :
    ∃ view, (tree.declarations.map Declaration.view)[index]? = some view ∧
      changed.declarations.map Declaration.view = (tree.declarations.map Declaration.view).set index
        { view with isSigned := true, signatureValue? := some value } := by
  obtain ⟨old, new, records, found, same⟩ := recorded.shapes
  have viewed : (tree.declarations.map Declaration.view)[index]? = some old.view := by
    rw [map_view_declarations, List.getElem?_map, found]
    rfl
  have plain' (missing : old.child? "signature" = none) : signatureUri?.getD "" = "" :=
    plain old.view viewed (by simp [Shape.view, missing])
  refine ⟨old.view, viewed, ?_⟩
  rw [map_view_declarations, same, List.map_set, records.view_eq plain', map_view_declarations]

/-- All other declarations say what they said before. -/
theorem Tree.RecordedAt.others (recorded : tree.RecordedAt value signatureUri? index changed) :
    changed.declarations.length = tree.declarations.length ∧
      ∀ other, other ≠ index → (changed.declarations.map Declaration.view)[other]? =
        (tree.declarations.map Declaration.view)[other]? := by
  obtain ⟨old, new, records, found, same⟩ := recorded.shapes
  refine ⟨?_, ?_⟩
  · have lengths := congrArg List.length same
    simpa using lengths
  · intro other apart
    rw [map_view_declarations, same, List.map_set, map_view_declarations,
      List.getElem?_set_ne (Ne.symm apart)]

end

end RunSigning.Markup
