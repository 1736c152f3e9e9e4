import RunSigning.Proofs.Recording.Refinement

/-
This file says which documents store signatures: recording a value in one of their declarations
changes the signature of this declaration, and the changed document stores signatures as well.
-/

namespace RunSigning
open RunSigning.Text RunSigning.Markup

def Markup.Shape.Unqualified : Shape → Prop
  | .element name _ _ _ => name.qualifier = ""
  | _ => True

/-- Recording a signature keeps the name of the declaration. -/
theorem Markup.Shape.Records.unqualified_iff {value : String} {signatureUri? : Option String}
    {old new : Shape} (records : Shape.Records value signatureUri? old new) :
    new.Unqualified ↔ old.Unqualified := by
  cases records <;> rfl

theorem Markup.Element.unqualified_shape (element : Element) :
    element.shape.Unqualified ↔ element.tag.name.qualifier = "" := by
  rw [element.shape_eq]
  rfl

/-- A document stores signatures if nothing is declared in it, if its start declarations are
unqualified and if the values of their signatures fit wherever they are written. -/
inductive Document.IsStore (document : Document) : Prop where
  | intro (source : DocumentSource) (root : Nat → Element)
      (written : source.render = document.text.toList) (undeclared : source.entities = [])
      (reads : source.root.Reads source.entities nestingLimit [] 0 root 0)
      (tree_eq : document.tree = source.tree (root source.start))
      (fits : source.root.DeclarationsFit (root source.start).shape)
      (unqualified : ∀ declaration ∈ document.declarations,
        declaration.element.tag.name.qualifier = "")

/-- A document without document type declaration stores signatures if all declarations are
unqualified and all values fit. -/
theorem Document.isStore {document : Document} (plain : document.tree.hasDoctype = false)
    (unqualified : ∀ declaration ∈ document.declarations,
      declaration.element.tag.name.qualifier = "")
    (fits : ∀ declaration ∈ document.declarations, document.ValueFits declaration) :
    document.IsStore := by
  have undeclared := declaredEntities_eq_nil document.spelled plain
  obtain ⟨source, root, written, entities, reads, tree_eq⟩ :=
    exists_documentReads (Entities.wellFormed_of_eq_nil undeclared)
  have undeclared' : source.entities = [] := entities.trans undeclared
  refine .intro source root written undeclared' reads tree_eq ?_ unqualified
  intro index child found named declaration written'
  rw [Element.elements_shape, List.getElem?_map, Option.mem_def, Option.map_eq_some_iff] at found
  obtain ⟨element, found, rfl⟩ := found
  rw [element.isNamed_shape] at named
  obtain ⟨small, equal⟩ := List.getElem?_eq_some_iff.mp found
  have split := List.take_append_drop index (elements (root source.start).children)
  rw [List.drop_eq_getElem_cons small, equal] at split
  obtain ⟨tag, inner, ending, reading, nodes, located, root_eq, matching, shape_eq⟩ :=
    (source.site reads).exists_child split.symm (not_forall_before_nil undeclared' _)
  have place := located.getElem?_sources undeclared'
  rw [List.length_take_of_le (Nat.le_of_lt small)] at place
  have inside : source.root.inner.sources[index]? = some located.source := by
    rw [show source.root = _ from root_eq]
    exact place
  rw [inside] at written'
  obtain rfl := Option.some.inj written'
  have member : Declaration.mk element ∈ document.declarations := by
    rw [Document.declarations, tree_eq, DocumentSource.declarations_tree]
    exact List.mem_map_of_mem (List.mem_filter.mpr ⟨List.mem_of_getElem? found, named⟩)
  let site : DeclarationSite document _ (Declaration.mk element).element :=
    ⟨source, written, root, reads, tree_eq, tag, inner, ending, reading, nodes, _, _, located,
      root_eq, matching, shape_eq, named, rfl⟩
  have signatureFits : site.site.SignatureFits := site.signatureFits (fits _ member)
  exact signatureFits.sources undeclared'

section
variable {document : Document} {index : Nat} {declaration : Declaration}

/-- In a document that stores signatures every declaration is found where it is written, and the
value of its signature fits. -/
theorem exists_storeSite {source : DocumentSource} {root : Nat → Element}
    (written : source.render = document.text.toList) (undeclared : source.entities = [])
    (reads : source.root.Reads source.entities nestingLimit [] 0 root 0)
    (tree_eq : document.tree = source.tree (root source.start))
    (fits : source.root.DeclarationsFit (root source.start).shape)
    (declared : document.declarations[index]? = some declaration) :
    ∃ place : DeclarationSite document index declaration.element,
      place.source = source ∧ place.root = root ∧ place.site.SignatureFits := by
  obtain ⟨place, rfl, rfl⟩ := exists_declarationSite written reads tree_eq declared
    (not_forall_before_nil undeclared _)
  refine ⟨place, rfl, rfl, place.site.signatureFits_of_sources undeclared ?_⟩
  have front : ((childShapes (place.located.firstNodes 0)).filter Shape.isElement).length =
      place.earlier.length := by
    rw [place.located.firstReads.childShapes_eq 0, length_filter_childShapes,
      place.located.earlier_eq]
  have named : declaration.element.shape.isNamed "start" = true := by
    rw [declaration.element.isNamed_shape]
    exact place.named
  have child : (place.root place.source.start).shape.elements[place.earlier.length]? =
      some declaration.element.shape := by
    rw [place.shape_eq, Shape.elements, List.filter_append,
      List.filter_cons_of_pos (Shape.isElement_of_isNamed named), ← front,
      List.getElem?_append_right (Nat.le_refl _), Nat.sub_self]
    rfl
  refine fits _ _ child named place.located.source ?_
  rw [show place.source.root = _ from place.root_eq]
  exact place.located.getElem?_sources undeclared

/-- Recording a value in a document that stores signatures changes what one declaration says about
its signature, and the changed document stores signatures. -/
theorem Document.IsStore.recorded (store : document.IsStore)
    (declared : document.declarations[index]? = some declaration) {value : String}
    {changed : Document} (success : document.recorded declaration value = .ok changed) :
    changed.IsStore ∧ ∃ view, (document.declarations.map Declaration.view)[index]? = some view ∧
      changed.declarations.map Declaration.view = (document.declarations.map Declaration.view).set
        index { view with isSigned := true, signatureValue? := some value } := by
  obtain ⟨source, root, written, undeclared, reads, tree_eq, fits, unqualified⟩ := store
  obtain ⟨place, rfl, rfl, signatureFits⟩ :=
    exists_storeSite written undeclared reads tree_eq fits declared
  have formed := Entities.wellFormed_of_eq_nil undeclared
  have own : declaration.element.IsOwn place.source.entities := by
    rw [undeclared]
    exact declaration.isOwn_nil.element
  have named := unqualified declaration (List.mem_of_getElem? declared)
  obtain ⟨slot, applies, holds⟩ := place.exists_slot formed own signatureFits
  rw [Document.recorded_eq (place.isPlaced (place.edits own signatureFits))] at success
  obtain ⟨other, rootSource, rootNamed, separated, reading, spot, text, render, -, rootReads,
    records, tree_eq'⟩ := holds value
      ((place.exists_apply_iff formed own signatureFits).mp ⟨changed, success⟩)
  have applied : document.apply (document.record declaration value) = .ok other :=
    Document.apply_eq_ok_iff.mpr ((applies value).trans (congrArg _ text.symm))
  obtain rfl := Except.ok.inj (success.symm.trans applied)
  obtain ⟨signatureUri?, uri, recorded⟩ := records.recordedAt
  rw [← tree_eq'] at recorded
  have plainUri : signatureUri?.getD "" = "" := by
    rw [uri named]
    exact Declaration.uri_plain declared
  refine ⟨.intro (place.source.withRoot rootSource rootNamed separated) reading ?_ undeclared
    rootReads tree_eq' ?_ ?_, recorded.views fun _ _ _ => plainUri⟩
  · rw [render, text, String.toList_ofList]
  · obtain ⟨plain, rootFits, -, -, -, -, records, -, -⟩ := records
    exact rootFits undeclared (by rw [plain named]; exact Declaration.uri_plain declared) fits
  · obtain ⟨old, new, change, found, shapes⟩ := recorded.shapes
    intro other member
    have shape : other.element.shape ∈ changed.tree.declarations.map (·.element.shape) :=
      List.mem_map_of_mem member
    rw [shapes] at shape
    rw [← other.element.unqualified_shape]
    have all : ∀ shape ∈ document.tree.declarations.map (·.element.shape), shape.Unqualified := by
      intro shape held
      obtain ⟨kept, member, rfl⟩ := List.mem_map.mp held
      exact kept.element.unqualified_shape.mpr (unqualified kept member)
    rcases List.mem_or_eq_of_mem_set shape with kept | replaced
    · exact all _ kept
    · rw [replaced, change.unqualified_iff]
      exact all _ (List.mem_of_getElem? found)

end

end RunSigning
