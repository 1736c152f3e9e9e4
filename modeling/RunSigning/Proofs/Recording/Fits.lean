import RunSigning.Proofs.Recording.Change
import RunSigning.Proofs.Recording.Value

/-
This file keeps track of where signatures are written. Where nothing is declared the child
elements of an element are the ones that are written in it, in order.
-/

namespace RunSigning.Markup
open RunSigning.Text

/-- The sources of the elements in content, without those inside them. -/
def Content.sources : Content → List ElementSource
  | .nil => []
  | .text _ _ rest => rest.sources
  | .marked _ rest => rest.sources
  | .aside _ rest => rest.sources
  | .empty tag rest => .empty tag :: rest.sources
  | .filled tag inner ending rest => .filled tag inner ending :: rest.sources

@[simp] theorem Content.sources_append (first second : Content) :
    (first.append second).sources = first.sources ++ second.sources := by
  induction first with
  | nil => rfl
  | text run fits rest ih => exact ih
  | marked source rest ih => exact ih
  | aside source rest ih => exact ih
  | empty tag rest ih => exact congrArg (List.cons _) ih
  | filled tag inner ending rest innerIh ih => exact congrArg (List.cons _) ih

@[simp] theorem ElementSource.sources_before (source : ElementSource) (rest : Content) :
    (source.before rest).sources = source :: rest.sources := by
  cases source <;> rfl

/-- Where nothing is declared, every element is written. -/
theorem Content.Reads.length_sources {entities : Entities} {room : Nat} {scope : Scope}
    {references after : Nat} {content : Content} {nodes : Nat → List Node}
    (reads : content.Reads entities room scope references nodes after)
    (undeclared : entities = []) (offset : Nat) :
    (elements (nodes offset)).length = content.sources.length := by
  subst undeclared
  induction reads generalizing offset with
  | nil scope references => rfl
  | @text scope references between after run fits rest nodes more reads later ih =>
      have none : elements nodes = [] := by
        rw [List.eq_nil_iff_forall_not_mem]
        intro element member
        exact Nat.not_lt_zero _ (reads.before 0 (by simp [Entities.Before]) element member)
      rw [elements_append, none]
      exact ih _
  | marked later ih => exact ih _
  | aside later ih =>
      rw [elements_aside_cons]
      exact ih _
  | empty reading later ih => exact congrArg Nat.succ (ih _)
  | filled reading inside matching later innerIh ih => exact congrArg Nat.succ (ih _)

/-- The shapes of the child elements. -/
def Shape.elements : Shape → List Shape
  | .element _ _ _ children => children.filter Shape.isElement
  | _ => []

/-- The place of the first signature among the child elements. -/
def Shape.signatureIndex? (shape : Shape) : Option Nat :=
  shape.elements.findIdx? (·.isNamed "signature")

/-- The value attribute of the first signature fits. -/
def ElementSource.SignatureFits (source : ElementSource) (shape : Shape) : Prop :=
  ∀ index ∈ shape.signatureIndex?, ∀ signature ∈ source.inner.sources[index]?, signature.ValueFits

/-- The value fits if the first signature is where it is written. -/
theorem ElementSource.signatureFits_of_split {source signature : ElementSource}
    {before behind : List ElementSource} {name : QualifiedName} {uri? : Option String}
    {attributes : List AttributeShape} {first rest : List Shape} {shape : Shape}
    (unsigned : ∀ shape ∈ first, shape.isNamed "signature" = false)
    (signed : shape.isNamed "signature" = true)
    (sources : source.inner.sources = before ++ signature :: behind)
    (placed : (first.filter Shape.isElement).length = before.length)
    (fits : signature.ValueFits) :
    source.SignatureFits (.element name uri? attributes (first ++ shape :: rest)) := by
  have index : (Shape.element name uri? attributes (first ++ shape :: rest)).signatureIndex? =
      some before.length := by
    have none : (first.filter Shape.isElement).findIdx? (·.isNamed "signature") = none := by
      rw [List.findIdx?_eq_none_iff]
      intro other member
      exact unsigned other (List.mem_of_mem_filter member)
    rw [Shape.signatureIndex?, Shape.elements, List.filter_append, List.filter_cons,
      if_pos (Shape.isElement_of_isNamed signed), List.findIdx?_append, none, List.findIdx?_cons,
      if_pos signed]
    simp [placed]
  intro place member other written
  rw [index] at member
  obtain rfl := Option.some.inj member
  rw [sources, List.getElem?_append_right (Nat.le_refl _), Nat.sub_self] at written
  obtain rfl := Option.some.inj written
  exact fits

/-- The values of the signatures of all start declarations fit. -/
def ElementSource.DeclarationsFit (source : ElementSource) (shape : Shape) : Prop :=
  ∀ (index : Nat), ∀ child ∈ shape.elements[index]?, child.isNamed "start" = true →
    ∀ declaration ∈ source.inner.sources[index]?, declaration.SignatureFits child

/-- A list with another item differs at one place only. -/
theorem getElem?_across {α : Type} (first rest : List α) (item other : α) {index : Nat}
    (apart : index ≠ first.length) :
    (first ++ other :: rest)[index]? = (first ++ item :: rest)[index]? := by
  have swapped : first ++ other :: rest = (first ++ item :: rest).set first.length other := by
    simp
  rw [swapped, List.getElem?_set_ne (Ne.symm apart)]

/-- The values still fit if one declaration is swapped for another one that fits. -/
theorem ElementSource.DeclarationsFit.swap {source changed : ElementSource}
    {before behind : List ElementSource} {held swapped : ElementSource}
    {name : QualifiedName} {uri? : Option String} {attributes : List AttributeShape}
    {first rest : List Shape} {child shape : Shape}
    (fit : source.DeclarationsFit (.element name uri? attributes (first ++ child :: rest)))
    (sources : source.inner.sources = before ++ held :: behind)
    (sources' : changed.inner.sources = before ++ swapped :: behind)
    (placed : (first.filter Shape.isElement).length = before.length)
    (inside : child.isElement = true) (inside' : shape.isElement = true)
    (fits : swapped.SignatureFits shape) :
    changed.DeclarationsFit (.element name uri? attributes (first ++ shape :: rest)) := by
  have elements {other : Shape} (is : other.isElement = true) :
      (Shape.element name uri? attributes (first ++ other :: rest)).elements =
        first.filter Shape.isElement ++ other :: rest.filter Shape.isElement := by
    rw [Shape.elements, List.filter_append, List.filter_cons, if_pos is]
  intro index found member named declaration written
  rw [elements inside'] at member
  rw [sources'] at written
  by_cases here : index = before.length
  · subst here
    rw [← placed, List.getElem?_append_right (Nat.le_refl _), Nat.sub_self] at member
    rw [List.getElem?_append_right (Nat.le_refl _), Nat.sub_self] at written
    obtain rfl := Option.some.inj member
    obtain rfl := Option.some.inj written
    exact fits
  · rw [getElem?_across _ _ child _ (placed ▸ here)] at member
    rw [getElem?_across _ _ held _ here] at written
    rw [← elements inside] at member
    rw [← sources] at written
    exact fit index found member named declaration written

/-- Child elements keep their number when texts are joined. -/
theorem length_filter_childShapes (nodes : List Node) :
    ((childShapes nodes).filter Shape.isElement).length = (elements nodes).length := by
  rw [childShapes, ← map_shape_elements, List.length_map, elements_reverse, elements_joinNodes]
  simp

end RunSigning.Markup
