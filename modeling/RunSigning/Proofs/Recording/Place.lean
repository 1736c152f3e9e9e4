import RunSigning.Proofs.Recording.Declaration

/-
This file finds the start declarations of a document where they are written.
-/

namespace RunSigning.Markup
open RunSigning.Text

/-- A member of a filtered list in the list itself. -/
theorem exists_split_of_filter {α : Type} {p : α → Bool} {items : List α} {index : Nat} {item : α}
    (found : (items.filter p)[index]? = some item) :
    ∃ front back, items = front ++ item :: back ∧ p item = true ∧
      (front.filter p).length = index := by
  obtain ⟨small, equal⟩ := List.getElem?_eq_some_iff.mp found
  have split := List.take_append_drop index (items.filter p)
  rw [List.drop_eq_getElem_cons small, equal] at split
  obtain ⟨first, second, rfl, kept, rest⟩ := List.filter_eq_append_iff.mp split.symm
  obtain ⟨skipped, back, rfl, dropped, holds, -⟩ := List.filter_eq_cons_iff.mp rest
  refine ⟨first ++ skipped, back, by simp, holds, ?_⟩
  have none : skipped.filter p = [] := List.filter_eq_nil_iff.mpr (by simpa using dropped)
  rw [List.filter_append, none, List.append_nil, kept, List.length_take]
  omega

theorem mem_attributeTokens (front back : List AttributeSource) (attr : AttributeSource)
    (offset : Nat) :
    .attr (attr.written (offset + byteLength (front.flatMap AttributeSource.render))) ∈
      attributeTokens offset (front ++ attr :: back) := by
  induction front generalizing offset with
  | nil => simp [attributeTokens]
  | cons other front ih =>
      have later := ih (offset + byteLength other.render)
      simp only [List.cons_append, attributeTokens, List.mem_cons]
      exact .inr (by simpa [Nat.add_assoc] using later)

theorem ElementSource.mem_tokens_of_tag {source : ElementSource} {offset : Nat} {token : Token}
    (member : token ∈ attributeTokens (offset + byteLength ('<' :: source.tag.name.run))
      source.tag.attributes) : token ∈ source.tokens offset := by
  cases source with
  | empty tag =>
      rw [tokens, TagSource.tokens]
      exact List.mem_append_left _ (List.mem_cons_of_mem _ member)
  | filled tag inner ending =>
      rw [tokens, TagSource.tokens]
      exact List.mem_append_left _ (List.mem_append_left _
        (List.mem_append_left _ (List.mem_cons_of_mem _ member)))

/-- An attribute that is read with the name of a value attribute is among the settled ones. -/
theorem mem_key_settledShapes {scope : Scope} {valued : List (AttributeSource × String)}
    {attr : AttributeSource} (member : attr ∈ valued.map Prod.fst)
    (plain : attr.name.name.IsPlain "value") :
    ("value", none) ∈ (settledShapes scope valued).map AttributeShape.key := by
  obtain ⟨⟨attr, old⟩, held, rfl⟩ := List.mem_map.mp member
  obtain ⟨front, back, rfl⟩ := List.append_of_mem held
  rw [settledShapes_append, settledShapes_value_cons _ plain, List.map_append, List.map_cons]
  refine List.mem_append_right _ (List.mem_cons.mpr (.inl ?_))
  rw [AttributeShape.key, plain.localName_eq]

/-- An attribute fits if eight bits hold the equals sign with the blanks around it. -/
def WrittenAttribute.Fits (written : WrittenAttribute) : Prop :=
  written.quote - written.nameStop ≤ 255

instance (written : WrittenAttribute) : Decidable written.Fits :=
  inferInstanceAs (Decidable (_ ≤ _))

section
variable {entities : Entities} {scope : Scope} {element : Element}

/-- The value that is read from an element is the one of the only attribute in its tag that may
hold it. -/
theorem Site.exists_value (site : Site entities scope element)
    {existing : Attribute} (found : element.attribute? "value" = some existing) :
    ∃ (earlier : List AttributeSource) (attr : AttributeSource) (later : List AttributeSource),
      site.source.tag.attributes = earlier ++ attr :: later ∧
      attr.name.name.IsPlain "value" ∧
      (∀ other ∈ site.source.tag.attributes, other.name.name.IsPlain "value" → other = attr) ∧
      existing.valueSpan = (attr.written (byteLength (site.front ++ ('<' ::
        site.source.tag.name.run ++ earlier.flatMap AttributeSource.render)))).valueSpan := by
  obtain ⟨reading, attributes, -, -⟩ := site.reads.exists_reading (byteLength site.front)
  rw [site.element_eq] at attributes
  rw [Element.attribute?, attributes] at found
  obtain ⟨front, attr, old, back, valued, plain, span, -, unvalued⟩ := reading.exists_value found
  refine ⟨front.map Prod.fst, attr, back.map Prod.fst, ?_, plain, ?_, ?_⟩
  · rw [← reading.sources, valued]
    simp
  · intro other member otherPlain
    rw [← reading.sources, valued] at member
    by_contra apart
    refine unvalued (mem_key_settledShapes ?_ otherPlain)
    simpa [apart] using member
  · rw [span, byteLength_append, byteLength_append, Nat.add_assoc]

/-- The value of an element fits if the attribute that it is read from does. -/
theorem Site.valueFits (site : Site entities scope element)
    (fits : ∀ existing ∈ element.attribute? "value", ∀ written,
      .attr written ∈ site.source.tokens (byteLength site.front) →
        written.valueSpan = existing.valueSpan → written.Fits) : site.source.ValueFits := by
  intro attr member plain
  cases found : element.attribute? "value" with
  | none =>
      obtain ⟨reading, attributes, -, -⟩ := site.reads.exists_reading (byteLength site.front)
      rw [site.element_eq] at attributes
      rw [Element.attribute?, attributes] at found
      rw [← reading.sources] at member
      exact absurd (mem_key_settledShapes member plain) (reading.no_value found)
  | some existing =>
      obtain ⟨earlier, held, later, sources, -, only, span⟩ := site.exists_value found
      obtain rfl := only attr member plain
      have token := mem_attributeTokens earlier later attr
        (byteLength site.front + byteLength ('<' :: site.source.tag.name.run))
      rw [← sources] at token
      rw [byteLength_append, byteLength_append, ← Nat.add_assoc] at span
      have fits := fits existing found _ (ElementSource.mem_tokens_of_tag token) span.symm
      simpa [WrittenAttribute.Fits, AttributeSource.written] using fits

/-- The tokens of a child stand together among those of its parent. -/
theorem Located.tokens_infix {room references after offset place : Nat} {content : Content}
    {nodes : Nat → List Node} {earlier later : List Element} {child : Element}
    (located : Located entities room scope references content nodes after offset earlier child later)
    {source : ElementSource} {tag : TagSource} {ending : EndSource}
    (written : source = .filled tag content ending) :
    located.source.tokens (place + byteLength (tag.render ++ closing false) +
      byteLength located.first.render) <:+: source.tokens place := by
  have split := congrArg (fun held => held.tokens (place + byteLength (tag.render ++ closing false)))
    located.content_eq
  rw [Content.tokens_append, ElementSource.tokens_before] at split
  rw [written, ElementSource.tokens, split]
  exact (List.infix_append' _ _ _).trans
    ((List.suffix_append _ _).isInfix.trans (List.prefix_append _ _).isInfix)

/-- The signature of the element at a site fits if the attribute of its value does. -/
theorem Site.signatureFits (site : Site entities scope element)
    (fits : ∀ signature ∈ element.child? "signature", ∀ existing ∈ signature.attribute? "value",
      ∀ written, .attr written ∈ site.source.tokens (byteLength site.front) →
        written.valueSpan = existing.valueSpan → written.Fits) : site.SignatureFits := by
  intro tag inner ending reading nodes earlier later signature located written found split others
  refine (site.ofChild reading located written).valueFits ?_
  intro existing valued attr member span
  refine fits signature found existing valued attr ?_ span
  refine (located.tokens_infix written).subset ?_
  have place : byteLength (site.ofChild reading located written).front =
      byteLength site.front + byteLength (tag.render ++ closing false) +
        byteLength located.first.render := by
    simp only [Site.ofChild, byteLength_append]
  rwa [← place]

/-- The child elements are counted among the shapes of all children. -/
theorem Element.elements_shape (element : Element) :
    element.shape.elements = (elements element.children).map Element.shape := by
  rw [element.shape_eq, Shape.elements, map_shape_elements]

/-- Where nothing is declared, an element stands among its siblings where it is written. -/
theorem Located.getElem?_sources {room references after offset : Nat} {content : Content}
    {nodes : Nat → List Node} {earlier later : List Element} {child : Element}
    (located : Located entities room scope references content nodes after offset earlier child later)
    (undeclared : entities = []) : content.sources[earlier.length]? = some located.source := by
  have count := located.firstReads.length_sources undeclared offset
  rw [located.earlier_eq] at count
  rw [congrArg Content.sources located.content_eq, Content.sources_append,
    ElementSource.sources_before, count, List.getElem?_append_right (Nat.le_refl _), Nat.sub_self]
  rfl

/-- The place of the first signature among the child elements. -/
theorem Element.signatureIndex?_eq {signature : Element} {earlier later : List Element}
    (split : elements element.children = earlier ++ signature :: later)
    (named : signature.isNamed "signature" = true)
    (others : ∀ other ∈ earlier, other.isNamed "signature" = false) :
    element.shape.signatureIndex? = some earlier.length := by
  have lacking : (earlier.map Element.shape).findIdx? (·.isNamed "signature") = none := by
    rw [List.findIdx?_eq_none_iff]
    intro shape member
    obtain ⟨other, held, rfl⟩ := List.mem_map.mp member
    rw [other.isNamed_shape]
    exact others other held
  rw [Shape.signatureIndex?, element.elements_shape, split, List.map_append, List.map_cons,
    List.findIdx?_append, lacking, List.findIdx?_cons, if_pos (by rwa [signature.isNamed_shape])]
  simp

/-- Where nothing is declared, the signature of the element at a site is where it is written. -/
theorem Site.signatureFits_of_sources (site : Site entities scope element)
    (undeclared : entities = []) (fits : site.source.SignatureFits element.shape) :
    site.SignatureFits := by
  intro tag inner ending reading nodes earlier later signature located written found split others
  have named : signature.isNamed "signature" = true := (element.child?_eq_some found).1
  refine fits _ (Element.signatureIndex?_eq split named others) located.source ?_
  rw [written]
  exact located.getElem?_sources undeclared

/-- Where nothing is declared, the signature of the element at a site fits if it does where it is
located. -/
theorem Site.signatureFits_of_located (site : Site entities scope element) (undeclared : entities = []) {tag : TagSource}
    {inner : Content} {ending : EndSource} {reading : tag.Reading entities nestingLimit scope 0}
    {nodes : Nat → List Node} {earlier later : List Element} {signature : Element}
    (located : Located entities nestingLimit reading.inner 0 inner nodes 0
      (byteLength (site.front ++ (tag.render ++ closing false))) earlier signature later)
    (written : site.source = .filled tag inner ending)
    (split : elements element.children = earlier ++ signature :: later)
    (named : signature.isNamed "signature" = true)
    (others : ∀ other ∈ earlier, other.isNamed "signature" = false)
    (fits : located.source.ValueFits) : site.SignatureFits := by
  refine site.signatureFits_of_sources undeclared ?_
  intro index placed source found
  rw [Element.signatureIndex?_eq split named others] at placed
  obtain rfl := Option.some.inj placed
  rw [written] at found
  obtain rfl := Option.some.inj ((located.getElem?_sources undeclared).symm.trans found)
  exact fits

/-- Where the signature is written, it fits if it does where it is read. -/
theorem Site.SignatureFits.sources {site : Site entities scope element}
    (fits : site.SignatureFits) (undeclared : entities = []) :
    site.source.SignatureFits element.shape := by
  intro index placed source written
  have found : (element.child? "signature").isSome = true := by
    rw [← Option.isSome_map, ← element.child?_shape, element.shape_eq, Shape.child?,
      List.find?_isSome]
    rw [Shape.signatureIndex?, element.elements_shape, map_shape_elements] at placed
    obtain ⟨small, named, -⟩ := List.findIdx?_eq_some_iff_getElem.mp placed
    exact ⟨_, List.mem_of_mem_filter (List.getElem_mem small), named⟩
  obtain ⟨signature, found⟩ := Option.isSome_iff_exists.mp found
  obtain ⟨named, earlier, later, split, others⟩ := element.child?_eq_some found
  obtain ⟨tag, inner, ending, reading, nodes, located, filled, -, -⟩ := site.exists_child split
    (not_forall_before_nil undeclared _)
  rw [Element.signatureIndex?_eq split named others] at placed
  obtain rfl := Option.some.inj placed
  rw [filled] at written
  obtain rfl := Option.some.inj ((located.getElem?_sources undeclared).symm.trans written)
  exact fits located filled found split others

end

end RunSigning.Markup
