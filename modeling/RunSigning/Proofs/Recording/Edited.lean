import RunSigning.Proofs.Recording.Rescan

/-
This file says which values are recorded in a declaration. Whether a document accepts one depends
on the text that is written for the declaration, and not on the text around it.
-/

namespace RunSigning.Markup
open RunSigning.Text

/-- A signature without value fits. -/
theorem Site.signatureFits_of_unvalued {scope : Scope} {element : Element}
    (site : Site [] scope element)
    (unvalued : ∀ signature ∈ element.child? "signature", signature.attribute? "value" = none) :
    site.SignatureFits := by
  refine site.signatureFits fun signature found existing valued => ?_
  rw [unvalued signature found] at valued
  cases valued

/-- Either there is a signature with a value, or no signature has one. -/
theorem Element.valued_or_unvalued (element : Element) :
    (∃ signature existing, element.child? "signature" = some signature ∧
      signature.attribute? "value" = some existing) ∨
    ∀ signature ∈ element.child? "signature", signature.attribute? "value" = none := by
  by_cases unvalued : ∀ signature ∈ element.child? "signature", signature.attribute? "value" = none
  · exact .inr unvalued
  · push Not at unvalued
    obtain ⟨signature, found, valued⟩ := unvalued
    obtain ⟨existing, valued⟩ := Option.ne_none_iff_exists'.mp valued
    exact .inl ⟨signature, existing, found, valued⟩

namespace DeclarationSource

variable {scope : Scope} (declaration : DeclarationSource scope)

/-- A declaration whose signature has a value is taken apart around it. -/
theorem exists_signedSource {signature : Element} {existing : Attribute}
    (found : (declaration.reading 0).child? "signature" = some signature)
    (valued : signature.attribute? "value" = some existing) :
    ∃ (source : SignedSource scope) (quote : Char), source.element = declaration.source ∧
      ∀ value, declaration.edit value = ⟨⟨byteLength source.opened, byteLength source.opened +
        byteLength (source.attr.spare ++ source.attr.value)⟩, escapeString quote value⟩ := by
  obtain ⟨signed, earlier, later, split, -⟩ := Element.child?_eq_some found
  obtain ⟨tag, inner, ending, reading, nodes, located, written, matching, shape_eq⟩ :=
    declaration.site.exists_child split (not_forall_before_nil rfl _)
  obtain ⟨front, attr, back, attributes, plain, -, span⟩ :=
    (declaration.site.ofChild reading located written).exists_value valued
  have named := declaration.named 0
  rw [← Element.isNamed_shape, shape_eq, Shape.isNamed, Bool.and_eq_true, beq_iff_eq,
    beq_iff_eq] at named
  have signedName : located.source.tag.name.name.localName = "signature" := by
    obtain ⟨reading', -, shape, -⟩ := (declaration.site.ofChild reading located
      written).reads.exists_reading (byteLength (declaration.site.ofChild reading located
        written).front)
    rw [(declaration.site.ofChild reading located written).element_eq] at shape
    rw [← Element.isNamed_shape, shape, Shape.isNamed, Bool.and_eq_true, beq_iff_eq] at signed
    exact signed.1
  have parts := declaration.separated
  rw [show declaration.source = _ from written] at parts
  obtain ⟨firstSeparated, separated, restSeparated⟩ := located.separated_iff.mp parts
  obtain ⟨firstReads, signatureReads, restReads⟩ := located.reads
  let source : SignedSource scope :=
    { tag, ending, reading, matching, named, first := located.first, signature := located.source
      rest := located.rest, firstNodes := located.firstNodes, signatureReading := located.reading
      restNodes := located.restNodes, firstReads, signatureReads, restReads, firstSeparated
      separated, restSeparated, signed := signedName, earlier := front, attr, later := back
      attributes_eq := attributes }
  have opening := congrArg byteLength attr.held_append_spare
  rw [byteLength_append] at opening
  refine ⟨source, quoteBefore declaration.source.render existing.valueSpan.start, ?_,
    fun value => ?_⟩
  · rw [SignedSource.element, show declaration.source = _ from written, ← located.content_eq]
  · rw [edit, Declaration.record_rewrite found valued]
    refine congrArg₂ TextEdit.mk ?_ rfl
    have opened : source.opened = (tag.render ++ closing false) ++ (located.first.render ++
        ('<' :: located.source.tag.name.run ++ (front.flatMap AttributeSource.render ++
          attr.held))) := rfl
    rw [span, attr.valueSpan_eq plain, opened, show source.attr = attr from rfl]
    simp only [Site.ofChild, site, List.nil_append, byteLength_append, Span.mk.injEq]
    omega

/-- The declaration with a value recorded in it, whether or not a document accepts it. -/
def edited (value : String) : List Char :=
  match (declaration.edit value).apply (String.ofList declaration.source.render) with
  | .ok text => text.toList
  | .error _ => []

theorem edited_eq {value : String} {text : List Char}
    (applied : (declaration.edit value).apply (String.ofList declaration.source.render) =
      .ok (String.ofList text)) : declaration.edited value = text := by
  rw [edited, applied]
  exact String.toList_ofList

/-- A value is rewritten between two texts that do not depend on it. -/
theorem apply_rewrite {source : SignedSource scope} {quote : Char}
    (element_eq : source.element = declaration.source) {value : String}
    (edit_eq : declaration.edit value = ⟨⟨byteLength source.opened, byteLength source.opened +
      byteLength (source.attr.spare ++ source.attr.value)⟩, escapeString quote value⟩) :
    (declaration.edit value).apply (String.ofList declaration.source.render) =
      .ok (String.ofList (source.opened ++ (escape quote value.toList ++ source.closed))) := by
  rw [edit_eq, ← element_eq, source.render_element, TextEdit.apply_append rfl rfl]
  simp [escapeString]

/-- A declaration whose signature has no value is edited by writing one. -/
theorem edits_of_unvalued
    (unvalued : ∀ signature ∈ (declaration.reading 0).child? "signature",
      signature.attribute? "value" = none) :
    declaration.site.Edits declaration.edit (Recorded [] (declaration.reading 0)) := by
  have edits := declaration.site.edits_record
    ⟨fun _ _ => not_forall_before_nil rfl _, fun _ _ _ => not_forall_before_nil rfl _⟩
    (declaration.site.signatureFits_of_unvalued unvalued)
  rwa [declaration.text_site] at edits

/-- The edit that records a value can be applied. -/
theorem apply_edit (value : String) :
    (declaration.edit value).apply (String.ofList declaration.source.render) =
      .ok (String.ofList (declaration.edited value)) := by
  rcases (declaration.reading 0).valued_or_unvalued with
    ⟨signature, existing, found, valued⟩ | unvalued
  · obtain ⟨source, quote, element_eq, edit_eq⟩ := declaration.exists_signedSource found valued
    have applied := declaration.apply_rewrite element_eq (edit_eq value)
    rw [declaration.edited_eq applied, applied]
  · obtain ⟨slot, applies, -⟩ := declaration.edits_of_unvalued unvalued
    have applied := applies value
    rw [declaration.text_site] at applied
    rw [declaration.edited_eq applied, applied]

end DeclarationSource

namespace Hole

variable (hole : Hole) (declaration : DeclarationSource hole.scope)

/-- Only a text that a document may hold is accepted in the hole. -/
theorem allAllowed_of_parse {middle : List Char} {tree : Tree}
    (success : Tree.parse (String.ofList (hole.text middle)) = .ok tree) : AllAllowed middle := by
  obtain ⟨tokens, scan⟩ := Tree.exists_scan success
  obtain ⟨c, tail, render, ends⟩ := hole.tag.exists_tail false
  have text : hole.text middle = hole.source.opening ++ (hole.source.prolog ++
      ('<' :: hole.source.root.tag.name.run ++
        (c :: tail ++ (hole.first.render ++ (middle ++ hole.behind))))) := by
    rw [Hole.text, front, render, hole.tag_eq]
    simp
  rw [String.toList_ofList, text] at scan
  have allowed := hole.source.allAllowed_of_scan (by simpa using ends.not_isNameCharacter) scan
  simp only [allAllowed_append] at allowed
  exact allowed.2.2.1

/-- An edited declaration is accepted exactly if it is a declaration by itself. -/
theorem parse_edited_iff (value : String) :
    (∃ tree, Tree.parse (String.ofList (hole.text (declaration.edited value))) = .ok tree) ↔
      IsDeclaration hole.scope (declaration.edited value) := by
  constructor
  · rintro ⟨tree, success⟩
    rcases (declaration.reading 0).valued_or_unvalued with
      ⟨signature, existing, found, valued⟩ | unvalued
    · obtain ⟨source, quote, element_eq, edit_eq⟩ := declaration.exists_signedSource found valued
      rw [declaration.edited_eq (declaration.apply_rewrite element_eq (edit_eq value))]
        at success ⊢
      exact hole.isDeclaration_of_parse source (not_mem_escape quote value.toList) success
    · obtain ⟨slot, applies, accepts⟩ := declaration.edits_of_unvalued unvalued
      have applied := applies value
      rw [declaration.text_site] at applied
      have edited : declaration.edited value = slot.fill value := by
        rw [declaration.edited_eq applied]
        simp [Site.around, DeclarationSource.site]
      rw [edited] at success ⊢
      have allowed := hole.allAllowed_of_parse success
      rw [Slot.fill, allAllowed_append, allAllowed_append] at allowed
      have allowedValue : AllAllowed value.toList := by
        intro d member
        by_contra forbidden
        exact forbidden (allowed.2.1 d
          (mem_escape_of_not_allowed member (Bool.eq_false_iff.mpr forbidden)))
      obtain ⟨source, reading, render, ⟨-, separated, reads⟩, -, -, -, records, after⟩ :=
        accepts value allowedValue
      refine ⟨⟨source, reading, separated, reads, fun place => ?_⟩, render⟩
      rw [← Element.isNamed_shape, after, records.isNamed_eq, Element.isNamed_shape]
      exact declaration.named 0
  · rintro ⟨changed, render⟩
    rw [← render]
    exact ⟨_, hole.parse_text changed⟩

end Hole

end RunSigning.Markup
