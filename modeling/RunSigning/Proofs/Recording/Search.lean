import RunSigning.Proofs.Recording.Outside

/-
This file compares what recording looks for in the text with what the scanner finds there. A search
knows nothing of comments, sections or values. It does not have to: a name ends in front of the
first blank, slash or bracket, and no bracket is opened between the end tag of an element and its
end.
-/

namespace RunSigning.Markup
open RunSigning.Text

/-- An element encloses itself, its children and everything below them. -/
inductive Element.Encloses (outer : Element) : Element → Prop where
  | itself : outer.Encloses outer
  | child {parent child : Element} (encloses : outer.Encloses parent)
      (member : child ∈ elements parent.children) : outer.Encloses child

/-- The tokens of a start tag that ends at the given offset. -/
def Tag.startTokens (tag : Tag) (attributes : List WrittenAttribute) (selfClosing : Bool)
    (stop : Nat) : List Token :=
  .tagName tag.name tag.span.start :: attributes.map .attr ++ [.tagEnd selfClosing stop]

/-- How many elements are open behind a token, if it closes none but those that are counted. -/
def Token.openAfter? (depth : Nat) : Token → Option Nat
  | .tagEnd false _ => some (depth + 1)
  | .endTag _ _ => if depth = 0 then none else some (depth - 1)
  | _ => some depth

/-- As many elements are opened as are closed, and each is open when it is closed. -/
def IsBalanced (tokens : List Token) : Prop := tokens.foldlM Token.openAfter? 0 = some 0

instance (tokens : List Token) : Decidable (IsBalanced tokens) :=
  inferInstanceAs (Decidable (_ = _))

theorem exists_attributeTokens (offset : Nat) (sources : List AttributeSource) :
    ∃ attributes : List WrittenAttribute,
      attributeTokens offset sources = attributes.map .attr := by
  induction sources generalizing offset with
  | nil => exact ⟨[], rfl⟩
  | cons source rest ih =>
      obtain ⟨attributes, equal⟩ := ih (offset + byteLength source.render)
      exact ⟨source.written offset :: attributes, by rw [attributeTokens, equal, List.map_cons]⟩

/-- Attributes open and close nothing. -/
theorem foldlM_openAfter?_attributes (attributes : List WrittenAttribute) (depth : Nat) :
    (attributes.map Token.attr).foldlM Token.openAfter? depth = some depth := by
  induction attributes with
  | nil => rfl
  | cons written attributes ih => exact ih

/-- A start tag is a name, attributes and an end. -/
theorem TagSource.exists_tokens (tag : TagSource) (offset : Nat) (selfClosing : Bool) :
    ∃ attributes : List WrittenAttribute, tag.tokens offset selfClosing =
      .tagName tag.name.name offset :: attributes.map .attr ++
        [.tagEnd selfClosing (offset + byteLength (tag.render ++ closing selfClosing))] := by
  obtain ⟨attributes, equal⟩ :=
    exists_attributeTokens (offset + byteLength ('<' :: tag.name.run)) tag.attributes
  exact ⟨attributes, by rw [tokens, equal]⟩

/-- A start tag opens an element unless it closes it at once. -/
theorem TagSource.foldlM_openAfter? (tag : TagSource) (offset depth : Nat) (selfClosing : Bool) :
    (tag.tokens offset selfClosing).foldlM Token.openAfter? depth =
      some (if selfClosing then depth else depth + 1) := by
  obtain ⟨attributes, equal⟩ := tag.exists_tokens offset selfClosing
  rw [equal, List.foldlM_append, List.foldlM_cons]
  change (attributes.map Token.attr).foldlM Token.openAfter? depth >>= _ = _
  rw [foldlM_openAfter?_attributes]
  cases selfClosing <;> rfl

/-- Content closes what it opens, however many elements are open around it. -/
theorem Content.foldlM_openAfter? (content : Content) (offset depth : Nat) :
    (content.tokens offset).foldlM Token.openAfter? depth = some depth := by
  induction content generalizing offset depth with
  | nil => rfl
  | text run fits rest ih => exact ih _ _
  | marked source rest ih => exact ih _ _
  | aside source rest ih => cases source <;> exact ih _ _
  | empty tag rest ih =>
      rw [tokens, List.foldlM_append, tag.foldlM_openAfter?]
      exact ih _ _
  | filled tag inner ending rest innerIh ih =>
      rw [tokens, List.append_assoc, List.foldlM_append, tag.foldlM_openAfter?]
      have inside := innerIh (offset + byteLength (tag.render ++ closing false)) (depth + 1)
      simp only [Bool.false_eq_true, if_false, Option.bind_eq_bind, Option.bind_some,
        List.foldlM_append, inside]
      exact ih _ _

/-- What is read of an element says its name, and whether it has an end tag. -/
theorem ElementSource.Reads.tag_eq {entities : Entities} {room references after : Nat}
    {scope : Scope} {source : ElementSource} {reading : Nat → Element}
    (reads : source.Reads entities room scope references reading after) (place : Nat) :
    (reading place).tag.name = source.tag.name.name ∧
      (reading place).tag.selfClosing = source.isEmpty := by
  cases reads <;> exact ⟨rfl, rfl⟩

section
variable {entities : Entities} {scope : Scope} {element : Element}

theorem Site.tag_eq (site : Site entities scope element) :
    element.tag.name = site.source.tag.name.name ∧
      element.tag.selfClosing = site.source.isEmpty := by
  have tag_eq := site.reads.tag_eq (byteLength site.front)
  rwa [site.element_eq] at tag_eq

/-- The name that is searched for is the one that was read. -/
theorem Site.tagNameAt_eq_written (site : Site entities scope element) :
    tagNameAt site.text element.tag.span.start = element.tag.name.written.toList := by
  rw [site.tagNameAt_eq, site.tag_eq.1, WrittenName.toList_written]

/-- The last brackets of an element tell whether it has an end tag. -/
theorem Site.endsEmpty_iff (site : Site entities scope element) :
    startsWith ['>', '/'] (slice element.tag.span site.text).reverse = true ↔
      element.tag.selfClosing = true := by
  rw [site.slice_eq, endsEmpty, site.tag_eq.2]

/-- The tokens of an element without end tag are those of its start tag. -/
theorem Site.exists_startTokens (site : Site entities scope element)
    (closes : element.tag.selfClosing = true) :
    ∃ attributes, site.source.tokens (byteLength site.front) =
      element.tag.startTokens attributes true element.tag.span.stop := by
  obtain ⟨name, empty⟩ := site.tag_eq
  rw [closes] at empty
  cases written : site.source with
  | empty tag =>
      rw [written] at name
      obtain ⟨attributes, equal⟩ := tag.exists_tokens (byteLength site.front) true
      refine ⟨attributes, ?_⟩
      rw [ElementSource.tokens, equal, Tag.startTokens, site.span_eq, name, written]
      rfl
  | filled tag inner ending =>
      rw [written] at empty
      cases empty

/-- The tokens of another element end with an end tag that begins where the last opening bracket and
slash are found, and what is opened in between is closed there. -/
theorem Site.exists_endToken (site : Site entities scope element)
    (goesOn : element.tag.selfClosing = false) :
    ∃ attributes opened inner name within, site.source.tokens (byteLength site.front) =
        element.tag.startTokens attributes false opened ++ inner ++
          [.endTag name ⟨element.tag.span.start + within, element.tag.span.stop⟩] ∧
      IsBalanced inner ∧ name.Matches element.tag.name ∧
      lastOccurrence? "</".toList (slice element.tag.span site.text) = some within := by
  obtain ⟨name, empty⟩ := site.tag_eq
  rw [goesOn] at empty
  have reads := site.reads
  cases written : site.source with
  | empty tag =>
      rw [written] at empty
      cases empty
  | filled tag inner ending =>
      rw [written] at name reads
      obtain ⟨-, -, -, matching, -⟩ := reads.filled_inv
      obtain ⟨attributes, equal⟩ := tag.exists_tokens (byteLength site.front) false
      let opened := byteLength site.front + byteLength (tag.render ++ closing false)
      refine ⟨attributes, opened, inner.tokens opened, ending.name.name,
        byteLength (tag.render ++ closing false) + byteLength inner.render, ?_,
        inner.foldlM_openAfter? opened 0, by rwa [name], ?_⟩
      · rw [ElementSource.tokens, equal, Tag.startTokens, site.span_eq, name, written,
          ← Nat.add_assoc]
        rfl
      · rw [site.slice_eq, written, lastOccurrence_endTag]

/-- Whatever an element encloses has a site in the same text. -/
theorem Site.exists_site (site : Site entities scope element) (undeclared : entities = [])
    {inner : Element} (encloses : element.Encloses inner) :
    ∃ (innerScope : Scope) (innerSite : Site entities innerScope inner),
      innerSite.text = site.text ∧
      innerSite.source.tokens (byteLength innerSite.front) <:+:
        site.source.tokens (byteLength site.front) := by
  induction encloses with
  | itself => exact ⟨scope, site, rfl, List.infix_rfl⟩
  | child encloses member ih =>
      obtain ⟨_, parentSite, text, tokens⟩ := ih
      obtain ⟨_, childSite, text', -, tokens'⟩ := parentSite.exists_childSite undeclared member
      exact ⟨_, childSite, text'.trans text, tokens'.trans tokens⟩

end

end RunSigning.Markup

namespace RunSigning
open RunSigning.Text RunSigning.Markup

variable {document : Document} {declaration : Declaration} {element : Element}

/-- Every element of a declaration has a site in the document. -/
theorem Document.exists_elementSite (plain : document.tree.hasDoctype = false)
    (declared : declaration ∈ document.declarations)
    (encloses : declaration.element.Encloses element) :
    ∃ (entities : Entities) (scope : Scope) (site : Site entities scope element),
      site.text = document.text.toList ∧
      site.source.tokens (byteLength site.front) <:+:
        (Scan.document document.text.toList).tokens := by
  obtain ⟨index, found⟩ := List.mem_iff_getElem?.mp declared
  have undeclared := declaredEntities_eq_nil document.spelled plain
  obtain ⟨place, entities⟩ := exists_ownSite (Entities.wellFormed_of_eq_nil undeclared) found
    (undeclared ▸ declaration.isOwn_nil)
  obtain ⟨_, site, text, tokens⟩ := place.site.exists_site (entities.trans undeclared) encloses
  exact ⟨_, _, site, text.trans place.text_site, tokens.trans place.tokens_infix⟩

/-- What recording looks for in the text is what the scanner found there. Take a declaration in a
document without document type declaration, or any element in it, such as its signature. The name
that is found behind its bracket is the one in its start tag. Its source ends with a slash and a
bracket exactly if it has no end tag, and its tokens are then those of this start tag. Otherwise
they end with the end tag that belongs to the start tag, and the last opening bracket with a slash
in the source is where this end tag begins. -/
theorem Document.search_agrees (plain : document.tree.hasDoctype = false)
    (declared : declaration ∈ document.declarations)
    (encloses : declaration.element.Encloses element) :
    let text := document.text.toList
    let tokens := (Scan.document text).tokens
    let span := element.tag.span
    tagNameAt text span.start = element.tag.name.written.toList ∧
    (startsWith ['>', '/'] (slice span text).reverse = true ↔ element.tag.selfClosing = true) ∧
    (element.tag.selfClosing = true →
      ∃ attributes, element.tag.startTokens attributes true span.stop <:+: tokens) ∧
    (element.tag.selfClosing = false → ∃ attributes opened inner name within,
      element.tag.startTokens attributes false opened ++ inner ++
          [.endTag name ⟨span.start + within, span.stop⟩] <:+: tokens ∧
      IsBalanced inner ∧ name.Matches element.tag.name ∧
      lastOccurrence? "</".toList (slice span text) = some within) := by
  obtain ⟨entities, scope, site, text, inside⟩ := exists_elementSite plain declared encloses
  rw [← text] at inside ⊢
  refine ⟨site.tagNameAt_eq_written, site.endsEmpty_iff, ?_, ?_⟩
  · intro closes
    obtain ⟨attributes, equal⟩ := site.exists_startTokens closes
    exact ⟨attributes, equal ▸ inside⟩
  · intro goesOn
    obtain ⟨attributes, opened, inner, name, within, equal, rest⟩ := site.exists_endToken goesOn
    exact ⟨attributes, opened, inner, name, within, equal ▸ inside, rest⟩

/-- A config whose declaration is full of brackets that close nothing. -/
def crowdedConfig : Document :=
  (Document.ofText ("<config><start name='/>' ><!-- </start> --><![CDATA[</x>]]><?p </q>?>" ++
    "<b></b><signature value = '>'/></start
></config>")).toOption.get (by decide +kernel)

theorem crowdedConfig_tags : (crowdedConfig.tree.hasDoctype,
    crowdedConfig.declarations.map fun declaration =>
      (declaration.element.tag.selfClosing, declaration.signature?.map (·.tag.selfClosing),
        lastOccurrence? "</".toList
          (slice declaration.element.tag.span crowdedConfig.text.toList))) =
      (false, [(false, some true, some 92)]) := by
  decide +kernel

/-- The last place that may be taken for an end tag is the end tag. -/
theorem Document.search_agrees_crowdedConfig :
    ∃ declaration ∈ crowdedConfig.declarations, ∃ signature ∈ declaration.signature?,
      (∃ name, .endTag name ⟨declaration.element.tag.span.start + 92,
        declaration.element.tag.span.stop⟩ ∈ (Scan.document crowdedConfig.text.toList).tokens) ∧
      .tagName signature.tag.name signature.tag.span.start ∈
        (Scan.document crowdedConfig.text.toList).tokens := by
  obtain ⟨plain, tags⟩ := Prod.mk.inj crowdedConfig_tags
  obtain ⟨declaration, single, view⟩ := List.map_eq_singleton_iff.mp tags
  simp only [Prod.mk.injEq, Option.map_eq_some_iff] at view
  obtain ⟨goesOn, ⟨signature, signed, closes⟩, found⟩ := view
  have declared : declaration ∈ crowdedConfig.declarations := by simp [single]
  have member : signature ∈ elements declaration.element.children :=
    List.mem_of_find?_eq_some signed
  obtain ⟨-, -, -, ending⟩ := Document.search_agrees plain declared .itself
  obtain ⟨-, -, opening, -⟩ := Document.search_agrees plain declared (.child .itself member)
  obtain ⟨attributes, opened, inner, name, within, inside, -, -, last⟩ := ending goesOn
  obtain rfl := Option.some.inj (found.symm.trans last)
  obtain ⟨held, inside'⟩ := opening closes
  exact ⟨declaration, declared, signature, signed, ⟨name, inside.subset (by simp)⟩,
    inside'.subset (by simp [Tag.startTokens])⟩

end RunSigning
