import RunSigning.Proofs.Recording.Again
import RunSigning.Proofs.Recording.Characters
import RunSigning.Proofs.Recording.Search

/-
This file says in which namespace a new signature is. It is written without a qualifier, so it is in
the namespace that the start tags around it bind for unqualified names, and it is found again only
if this is the one of plain names.
-/

namespace RunSigning.Markup
open RunSigning.Text

/-- The attributes that tokens begin with. -/
def leadingAttributes : List Token → List WrittenAttribute
  | .attr written :: rest => written :: leadingAttributes rest
  | _ => []

/-- The attributes of the start tag that begins at the given offset. -/
def attributesAt (start : Nat) : List Token → List WrittenAttribute
  | [] => []
  | .tagName _ place :: rest =>
      if place = start then leadingAttributes rest else attributesAt start rest
  | _ :: rest => attributesAt start rest

/-- What an attribute binds where no entity is declared. -/
def WrittenAttribute.bindings (written : WrittenAttribute) : Scope :=
  match normalizeValue [] nestingLimit 0 written.value with
  | .ok (value, _) => written.name.binding value
  | .error _ => []

/-- What the start tag at the given offset binds. -/
def bindingsAt (start : Nat) (tokens : List Token) : Scope :=
  (attributesAt start tokens).flatMap WrittenAttribute.bindings

end RunSigning.Markup

namespace RunSigning
open RunSigning.Markup

/-- The namespace of unqualified names in a declaration is bound in its own start tag, or else in
the one of the root element. -/
def Document.defaultUri? (document : Document) (declaration : Declaration) : Option String :=
  let tokens := (Scan.document document.text.toList).tokens
  let outer := (document.tree.root?.map fun root => bindingsAt root.tag.span.start tokens).getD []
  Scope.find? (bindingsAt declaration.element.tag.span.start tokens ++ outer) ""

end RunSigning

namespace RunSigning.Markup
open RunSigning.Text

/-- Tokens in which no tag begins at an offset are skipped. -/
theorem attributesAt_append {start : Nat} {first : List Token}
    (apart : ∀ name, .tagName name start ∉ first) (rest : List Token) :
    attributesAt start (first ++ rest) = attributesAt start rest := by
  induction first with
  | nil => rfl
  | cons token first ih =>
      have later := ih fun name member => apart name (List.mem_cons_of_mem _ member)
      cases token with
      | tagName name place =>
          have other : place ≠ start := by
            rintro rfl
            exact apart name List.mem_cons_self
          rw [List.cons_append, attributesAt, if_neg other, later]
      | _ => exact later

/-- The bindings of attributes that are read one after the other. -/
theorem ReadsAttributes.bindings_eq {bindings final : Scope} {references after : Nat}
    {valued : List (AttributeSource × String)}
    (reads : ReadsAttributes [] nestingLimit bindings references valued final after)
    (settled : references = 0) (offset : Nat) (selfClosing : Bool) (stop : Nat)
    (rest : List Token) :
    final = bindings ++ (leadingAttributes (attributeTokens offset (valued.map Prod.fst) ++
      .tagEnd selfClosing stop :: rest)).flatMap WrittenAttribute.bindings := by
  induction reads generalizing offset with
  | nil bindings references => exact (List.append_nil _).symm
  | @cons bindings final references between after source value valued reads admits later ih =>
      subst settled
      have binds : (source.written offset).bindings = source.name.name.binding value := by
        rw [WrittenAttribute.bindings, AttributeSource.written]
        dsimp only
        rw [reads]
      have later := ih (normalizeValue_settles (reads 0)) (offset + byteLength source.render)
      rw [later, List.map_cons, attributeTokens, List.cons_append, leadingAttributes,
        List.flatMap_cons, binds, List.append_assoc]

/-- The bindings of a tag are found where it begins. -/
theorem TagSource.Reading.bindingsAt_eq {tag : TagSource} {scope : Scope}
    (reading : tag.Reading [] nestingLimit scope 0) (offset : Nat) (selfClosing : Bool)
    (rest : List Token) :
    bindingsAt offset (tag.tokens offset selfClosing ++ rest) = reading.bindings := by
  have bindings := reading.reads.bindings_eq rfl (offset + byteLength ('<' :: tag.name.run))
    selfClosing (offset + byteLength (tag.render ++ closing selfClosing)) rest
  rw [reading.sources, List.nil_append] at bindings
  rw [bindings, bindingsAt, TagSource.tokens, List.cons_append, List.cons_append, attributesAt,
    if_pos rfl, List.append_assoc, List.singleton_append]

/-- The scope inside an element with this tag. -/
def TagSource.scope (tag : TagSource) (outer : Scope) : Scope :=
  bindingsAt 0 (tag.tokens 0 false) ++ outer

/-- The scope inside an element does not depend on how its tag is read. -/
theorem TagSource.Reading.inner_eq {tag : TagSource} {scope : Scope}
    (reading : tag.Reading [] nestingLimit scope 0) : reading.inner = tag.scope scope := by
  have bindings := reading.bindingsAt_eq 0 false []
  rw [List.append_nil] at bindings
  rw [inner, TagSource.scope, bindings]

/-- A start tag begins one element only. -/
theorem TagSource.eq_of_tagName {tag : TagSource} {offset place : Nat} {selfClosing : Bool}
    {name : QualifiedName} (member : .tagName name place ∈ tag.tokens offset selfClosing) :
    place = offset := by
  obtain ⟨attributes, equal⟩ := tag.exists_tokens offset selfClosing
  rw [equal] at member
  simp only [List.cons_append, List.mem_cons, List.mem_append, List.mem_map, Token.tagName.injEq,
    reduceCtorEq, and_false, exists_false, List.not_mem_nil, or_false] at member
  exact member.2

/-- The tags in content begin in front of its end. -/
theorem Content.lt_of_tagName {content : Content} {offset place : Nat} {name : QualifiedName}
    (member : .tagName name place ∈ content.tokens offset) :
    place < offset + byteLength content.render := by
  induction content generalizing offset with
  | nil => cases member
  | text run fits rest ih =>
      have later := ih ((List.mem_cons.mp member).resolve_left (by simp))
      rwa [render, byteLength_append, ← Nat.add_assoc]
  | marked source rest ih =>
      have later := ih ((List.mem_cons.mp member).resolve_left (by simp))
      rwa [render, byteLength_append, ← Nat.add_assoc]
  | aside source rest ih =>
      have apart : .tagName name place ≠ source.token := by
        cases source <;> exact Token.noConfusion
      have later := ih ((List.mem_cons.mp member).resolve_left apart)
      rwa [render, byteLength_append, ← Nat.add_assoc]
  | empty tag rest ih =>
      rw [render, byteLength_append]
      rcases List.mem_append.mp member with opening | later
      · have here := TagSource.eq_of_tagName opening
        have positive := tag.byteLength_render_pos
        rw [byteLength_append]
        omega
      · have behind := ih later
        omega
  | filled tag inner ending rest innerIh ih =>
      simp only [render, filledRender, byteLength_append]
      have positive := tag.byteLength_render_pos
      rw [tokens, List.append_assoc] at member
      rcases List.mem_append.mp member with opening | member
      · have here := TagSource.eq_of_tagName opening
        omega
      rcases List.mem_append.mp member with inside | member
      · have within := innerIh inside
        simp only [byteLength_append] at within
        omega
      · have behind := ih ((List.mem_cons.mp member).resolve_left (by simp))
        simp only [filledRender, byteLength_append] at behind
        omega

/-- No tag begins outside the root element. -/
theorem Token.IsOutside.ne_tagName {token : Token} (outside : token.IsOutside)
    (name : QualifiedName) (place : Nat) : token ≠ .tagName name place := by
  cases outside with
  | doctype => exact Token.noConfusion
  | entity name replacement => exact Token.noConfusion
  | aside source => cases source <;> exact Token.noConfusion

namespace Hole

variable (hole : Hole) (declaration : DeclarationSource hole.scope)

/-- The tokens of a declaration stand behind those of the root tag and of the content in front. -/
theorem exists_tokens : ∃ rest,
    (Scan.document (hole.fill declaration).text.toList).tokens =
      hole.source.prologTokens ++ (hole.tag.tokens hole.source.start false ++
        (hole.first.tokens (hole.source.start + byteLength (hole.tag.render ++ closing false)) ++
          (declaration.source.tokens (byteLength hole.front) ++ rest))) := by
  have scan := (hole.documentSource declaration.source declaration.separated).scan
  rw [hole.render_documentSource] at scan
  have tokens : (hole.documentSource declaration.source declaration.separated).tokens =
      hole.source.prologTokens ++ ((hole.root declaration.source).tokens hole.source.start ++
        hole.source.asides.map AsideSource.token) := rfl
  rw [text_fill, String.toList_ofList, scan]
  dsimp only
  rw [tokens, root, ElementSource.tokens, Content.tokens_append, ElementSource.tokens_before,
    hole.length_front]
  simp only [List.append_assoc, List.append_cancel_left_eq]
  exact ⟨_, rfl⟩

/-- What the root element binds is found where it begins. -/
theorem bindingsAt_root :
    bindingsAt hole.source.start (Scan.document (hole.fill declaration).text.toList).tokens =
      hole.reading.bindings := by
  obtain ⟨rest, tokens⟩ := hole.exists_tokens declaration
  rw [tokens, bindingsAt, attributesAt_append, ← bindingsAt, hole.reading.bindingsAt_eq]
  intro name member
  exact (hole.source.passes.outside _ member).ne_tagName name _ rfl

/-- What a declaration binds is found where it begins. -/
theorem bindingsAt_declaration
    (reading : declaration.source.tag.Reading [] nestingLimit hole.scope 0) :
    bindingsAt (byteLength hole.front)
      (Scan.document (hole.fill declaration).text.toList).tokens = reading.bindings := by
  obtain ⟨rest, tokens⟩ := hole.exists_tokens declaration
  have place := hole.length_front
  have positive := hole.tag.byteLength_render_pos
  obtain ⟨rest', tokens'⟩ : ∃ rest', declaration.source.tokens (byteLength hole.front) =
      declaration.source.tag.tokens (byteLength hole.front) declaration.source.isEmpty ++
        rest' := by
    cases declaration.source with
    | empty tag => exact ⟨[], (List.append_nil _).symm⟩
    | filled tag inner ending => exact ⟨_, List.append_assoc _ _ _⟩
  rw [tokens, bindingsAt, attributesAt_append, attributesAt_append, attributesAt_append, tokens',
    List.append_assoc, ← bindingsAt, reading.bindingsAt_eq]
  · intro name member
    have within := Content.lt_of_tagName member
    omega
  · intro name member
    have here := TagSource.eq_of_tagName member
    rw [byteLength_append] at place
    omega
  · intro name member
    exact (hole.source.passes.outside _ member).ne_tagName name _ rfl

/-- The default namespace in a declaration is the one of its scope. -/
theorem defaultUri?_fill :
    (hole.fill declaration).defaultUri? ⟨declaration.reading (byteLength hole.front)⟩ =
      (declaration.source.tag.scope hole.scope).find? "" := by
  obtain ⟨reading, -⟩ := declaration.reads.exists_reading 0
  have root : (hole.fill declaration).tree.root? = some
      (hole.rootReading declaration.source declaration.reading hole.source.start) :=
    hole.source.root?_tree _
  have outer : hole.reading.bindings = hole.scope := (List.append_nil _).symm
  rw [Document.defaultUri?, root]
  dsimp only [Option.map_some, Option.getD_some]
  have start : (hole.rootReading declaration.source declaration.reading
      hole.source.start).tag.span.start = hole.source.start := rfl
  rw [declaration.reads.span, hole.bindingsAt_declaration declaration reading, start,
    hole.bindingsAt_root, outer, ← reading.inner_eq]
  rfl

end Hole

end RunSigning.Markup

namespace RunSigning
open RunSigning.Text RunSigning.Markup

/-- A declaration in the place of another one has more elements, the last of which is a new
signature. It is found if its namespace is a plain one, and otherwise no signature is. -/
structure Declaration.GrownBy (declaration : Declaration) (count : Nat) (uri? : Option String)
    (value : String) (grown : Declaration) : Prop where
  length_eq : (elements grown.element.children).length =
    (elements declaration.element.children).length + count
  last : ∃ appended, (elements grown.element.children).getLast? = some appended ∧
    appended.tag.name = ⟨none, "signature"⟩ ∧ appended.tag.uri? = uri? ∧
    (appended.attribute? "value").map Attribute.value = some value ∧
    grown.signature? = if uri?.getD "" = "" then some appended else none

/-- What grows again has grown by all that was added. -/
theorem Declaration.GrownBy.trans {first second third : Declaration} {count more : Nat}
    {uri? : Option String} {value other : String} (grown : first.GrownBy count uri? value second)
    (again : second.GrownBy more uri? other third) :
    first.GrownBy (count + more) uri? other third :=
  ⟨by rw [again.length_eq, grown.length_eq, Nat.add_assoc], again.last⟩

end RunSigning

namespace RunSigning.Markup
open RunSigning.Text

/-- An appended signature is the last element, and the namespace of unqualified names decides
whether it is found. -/
theorem Appended.grownBy {scope : Scope} {element : Element} {site : Site [] scope element}
    {value : String} {spot : Span} {source : ElementSource} {reading : Nat → Element}
    (appended : Appended site value spot source reading)
    (unsigned : element.child? "signature" = none) (place : Nat) :
    Declaration.GrownBy ⟨element⟩ 1 ((site.source.tag.scope scope).find? "") value
      ⟨reading place⟩ := by
  obtain ⟨last, blank, -, -, ⟨tagReading, uri_eq⟩, -, -, -, before, after⟩ := appended
  rename_i name uri? signatureUri? attributes first gap rest
  rw [← tagReading.inner_eq, ← uri_eq]
  have gapless : gap.filter Shape.isElement = [] := by
    cases blank <;> rfl
  have ended : rest.filter Shape.isElement = [] :=
    List.filter_eq_nil_iff.mpr (by simpa using last)
  have old : (elements element.children).map Element.shape = first.filter Shape.isElement := by
    rw [← element.elements_shape, before, Shape.elements, List.filter_append, ended,
      List.append_nil]
  have new : (elements (reading place).children).map Element.shape =
      first.filter Shape.isElement ++ [signatureShape value signatureUri?] := by
    rw [← (reading place).elements_shape, after, Shape.elements, List.filter_append,
      List.filter_append, gapless, List.nil_append, List.filter_cons, ended]
    rfl
  obtain ⟨front, final, split, front_eq, final_eq⟩ := List.map_eq_append_iff.mp new
  obtain ⟨signature, rfl, shape⟩ := List.map_eq_singleton_iff.mp final_eq
  have unnamed : ∀ held ∈ front, held.isNamed "signature" = false :=
    unnamed_of_shapes (front_eq.trans old.symm) fun other member => by
      simpa using List.find?_eq_none.mp unsigned other member
  have valued : (signature.attribute? "value").map Attribute.value = some value := by
    have held := signature.attribute?_shape "value"
    rw [shape] at held
    have values := congrArg (Option.map AttributeShape.value) held
    rw [Option.map_map] at values
    exact values.symm
  have found : (reading place).child? "signature" =
      if signatureUri?.getD "" = "" then some signature else none := by
    split
    · rename_i plain
      exact Element.child?_of_split split unnamed
        (by rw [← Element.isNamed_shape, shape, isNamed_signatureShape value plain])
    · rename_i apart
      have hidden : signature.isNamed "signature" = false := by
        rw [← Element.isNamed_shape, shape]
        simp [signatureShape, Shape.isNamed, apart]
      rw [Element.child?, show (reading place).children.filterMap Node.element? = _ from split,
        List.find?_eq_none]
      simpa [or_imp, forall_and, hidden] using unnamed
  rw [signature.shape_eq, signatureShape, Shape.element.injEq] at shape
  refine ⟨?_, signature, by rw [split]; simp, shape.1, shape.2.1, valued, found⟩
  have lengths := congrArg List.length new
  have lengths' := congrArg List.length old
  simp only [List.length_map, List.length_append, List.length_singleton] at lengths lengths'
  dsimp only
  omega

namespace DeclarationSource

variable {scope : Scope} (declaration : DeclarationSource scope)

/-- A declaration grows by one signature wherever it stands. -/
theorem grownBy_appended {value : String} {spot : Span} {signed : DeclarationSource scope}
    (unsigned : (declaration.reading 0).child? "signature" = none)
    (appended : Appended declaration.site value spot signed.source signed.reading) (place : Nat) :
    Declaration.GrownBy ⟨declaration.reading place⟩ 1
      ((declaration.source.tag.scope scope).find? "") value ⟨signed.reading place⟩ := by
  obtain ⟨length, last⟩ := appended.grownBy unsigned place
  refine ⟨?_, last⟩
  have shapes := congrArg Shape.elements (declaration.reads.shape_eq place 0)
  rw [Element.elements_shape, Element.elements_shape] at shapes
  have lengths := congrArg List.length shapes
  simp only [List.length_map] at lengths
  rw [lengths, length]

/-- Where a signature that is appended is found, the next value takes the place of its value. -/
theorem edited_again {signed : DeclarationSource scope} {slot : Slot}
    (edited : ∀ value, declaration.edited value = slot.fill value) {first : String}
    (render : signed.source.render = slot.fill first)
    (held : HoldsSignatureAt (slot.spot first) signed.reading) (second : String) :
    signed.edited second = declaration.edited second := by
  obtain ⟨signature, existing, found, valued, span⟩ := held 0
  have edit_eq : signed.edit second = ⟨slot.spot first,
      escapeString (quoteBefore (slot.fill first) (slot.spot first).start) second⟩ := by
    rw [edit, Declaration.record_rewrite found valued, span, render,
      show (slot.spot first).movedBy 0 = slot.spot first by simp [Span.movedBy]]
  have applied := slot.apply_rewrite first second
  rw [← edit_eq, ← render] at applied
  rw [signed.edited_eq applied, edited]

end DeclarationSource

/-- Where the namespace of unqualified names is a plain one, the value is read from the appended
signature. -/
theorem Appended.holdsSignature {scope : Scope} {element : Element} {site : Site [] scope element}
    {value : String} {spot : Span} {source : ElementSource} {reading : Nat → Element}
    (appended : Appended site value spot source reading)
    (unsigned : element.child? "signature" = none)
    (plain : ((site.source.tag.scope scope).find? "").getD "" = "") :
    HoldsSignatureAt spot reading := by
  obtain ⟨-, -, -, -, ⟨tagReading, uri_eq⟩, -, -, placed, before, -⟩ := appended
  rw [← tagReading.inner_eq, ← uri_eq] at plain
  refine placed plain fun shape member => ?_
  have none := element.child?_shape "signature"
  rw [unsigned, before, Shape.child?, Option.map_none, List.find?_eq_none] at none
  simpa using none shape (List.mem_append_left _ member)

namespace Hole

variable (hole : Hole)

/-- What is written for a declaration is recorded in its hole. -/
theorem recorded_fill {declaration signed : DeclarationSource hole.scope} {value : String}
    (render : signed.source.render = declaration.edited value) :
    (hole.fill declaration).recorded ⟨declaration.reading (byteLength hole.front)⟩ value =
      .ok (hole.fill signed) := by
  rw [Document.recorded, hole.recording_fill]
  exact hole.apply_of_edited render

/-- Values are recorded in the declaration one after the other. -/
def Records (values : List String) (document final : Document) : Prop :=
  ∃ answers,
    document.session (values.map fun value => .record (.index hole.index) value) =
      .ok (final, answers)

theorem Records.cons {declaration signed : DeclarationSource hole.scope} {value : String}
    (render : signed.source.render = declaration.edited value) {values : List String}
    {final : Document} (rest : hole.Records values (hole.fill signed) final) :
    hole.Records (value :: values) (hole.fill declaration) final := by
  obtain ⟨answer, step⟩ := Document.exists_step_record (hole.declarations_fill declaration)
    (hole.recorded_fill render)
  obtain ⟨answers, session⟩ := rest
  exact ⟨answer :: answers, Document.session_cons step session⟩

/-- Where signatures are found, one is appended, and later values take the place of its value. -/
theorem session_found {declaration : DeclarationSource hole.scope}
    (unsigned : (declaration.reading 0).child? "signature" = none)
    (plain : ((declaration.source.tag.scope hole.scope).find? "").getD "" = "") {slot : Slot}
    (edited : ∀ value, declaration.edited value = slot.fill value)
    (holds : ∀ value, AllAllowed value.toList → ∃ signed : DeclarationSource hole.scope,
      signed.source.render = slot.fill value ∧
      Appended declaration.site value (slot.spot value) signed.source signed.reading)
    {values : List String} (allowed : ∀ value ∈ values, AllAllowed value.toList) {first : String}
    {signed : DeclarationSource hole.scope} (render : signed.source.render = slot.fill first)
    (appended : Appended declaration.site first (slot.spot first) signed.source signed.reading) :
    ∃ (value : String) (last : DeclarationSource hole.scope),
      (first :: values).getLast? = some value ∧
      hole.Records values (hole.fill signed) (hole.fill last) ∧
      Appended declaration.site value (slot.spot value) last.source last.reading := by
  induction values generalizing first signed with
  | nil => exact ⟨first, signed, rfl, ⟨[], rfl⟩, appended⟩
  | cons value values ih =>
      obtain ⟨new, later⟩ := List.forall_mem_cons.mp allowed
      obtain ⟨next, written, again⟩ := holds value new
      have held := appended.holdsSignature unsigned plain
      have render' : next.source.render = signed.edited value := by
        rw [declaration.edited_again edited render held, written, edited]
      obtain ⟨value, last, ends, session, appended⟩ := ih later written again
      refine ⟨value, last, ?_, .cons hole render' session, appended⟩
      rwa [List.getLast?_cons_cons]

/-- Where signatures are not found, each value is appended behind those before it. -/
theorem session_hidden {declaration : Declaration} {uri? : Option String}
    (apart : uri?.getD "" ≠ "") {values : List String}
    (allowed : ∀ value ∈ values, AllAllowed value.toList) {first : String} {count : Nat}
    {signed : DeclarationSource hole.scope}
    (default : (signed.source.tag.scope hole.scope).find? "" = uri?)
    (grown : declaration.GrownBy count uri? first ⟨signed.reading (byteLength hole.front)⟩) :
    ∃ (value : String) (last : DeclarationSource hole.scope),
      (first :: values).getLast? = some value ∧
      hole.Records values (hole.fill signed) (hole.fill last) ∧
      declaration.GrownBy (count + values.length) uri? value
        ⟨last.reading (byteLength hole.front)⟩ := by
  induction values generalizing first count signed with
  | nil => exact ⟨first, signed, rfl, ⟨[], rfl⟩, grown⟩
  | cons value values ih =>
      obtain ⟨new, later⟩ := List.forall_mem_cons.mp allowed
      obtain ⟨-, appended, -, -, -, -, found⟩ := id grown
      rw [if_neg apart] at found
      have unsigned := signed.unsigned_reading found
      obtain ⟨slot, edited, holds⟩ := signed.exists_slot_appended unsigned
      obtain ⟨next, written, appended⟩ := holds value new
      have tag_eq : next.source.tag = signed.source.tag := by
        obtain ⟨-, -, -, tag_eq, -, -, -, -, -, -⟩ := appended
        exact tag_eq
      have more := signed.grownBy_appended unsigned appended (byteLength hole.front)
      rw [default] at more
      obtain ⟨latest, last, ends, session, grown⟩ :=
        ih later (by rw [tag_eq, default]) (grown.trans more)
      refine ⟨latest, last, ?_, .cons hole (written.trans (edited value).symm) session, ?_⟩
      · rwa [List.getLast?_cons_cons]
      · rwa [List.length_cons, Nat.add_comm values.length, ← Nat.add_assoc]

end Hole

end RunSigning.Markup

namespace RunSigning
open RunSigning.Text RunSigning.Markup

/-- A new signature is in the namespace that its declaration has for unqualified names, and this
namespace decides whether it is found again. In a document without document type declaration, every
value that a document may hold is recorded in a declaration without signature, in a new element
behind all others. If the namespace is none or has the empty name, this element is the signature of
the declaration, and further values take the place of the first one. Otherwise the declaration has
no signature afterwards, and further values are appended in elements of their own. A declaration
without qualifier is in this namespace itself, so its signature is always found. -/
theorem Document.recorded_defaultUri {document : Document} {index : Nat} {declaration : Declaration}
    (plain : document.tree.hasDoctype = false)
    (declared : document.declarations[index]? = some declaration)
    (unsigned : declaration.signature? = none) :
    let uri? := document.defaultUri? declaration
    (declaration.element.tag.name.qualifier = "" → uri? = declaration.element.tag.uri?) ∧
    ∀ first : String, (∀ c ∈ first.toList, isAllowed c = true) →
      ∃ changed signed, document.recorded declaration first = .ok changed ∧
        changed.declarations[index]? = some signed ∧ declaration.GrownBy 1 uri? first signed ∧
        ∀ values : List String, (∀ value ∈ values, ∀ c ∈ value.toList, isAllowed c = true) →
          ∃ final answers last value, (first :: values).getLast? = some value ∧
            changed.session (values.map fun value => .record (.index index) value) =
              .ok (final, answers) ∧
            final.declarations[index]? = some last ∧
            declaration.GrownBy (if uri?.getD "" = "" then 1 else values.length + 1) uri? value
              last := by
  obtain ⟨hole, old, rfl, rfl⟩ := exists_hole plain (List.getElem?_eq_some_iff.mp declared).choose
  obtain rfl := Option.some.inj ((hole.declarations_fill old).symm.trans declared)
  have unsigned' := old.unsigned_reading unsigned
  obtain ⟨slot, edited, holds⟩ := old.exists_slot_appended unsigned'
  rw [hole.defaultUri?_fill]
  dsimp only
  refine ⟨fun unqualified => ?_, fun first allowed => ?_⟩
  · obtain ⟨reading, -, shape, -⟩ := old.reads.exists_reading (byteLength hole.front)
    rw [Element.shape_eq, Shape.element.injEq] at shape
    have unqualified : old.source.tag.name.name.qualifier = "" := by
      rw [← shape.1]
      exact unqualified
    rw [shape.2.1, ← reading.inner_eq]
    exact (Scope.eq_find?_of_unqualified unqualified reading.resolves).symm
  obtain ⟨new, written, appended⟩ := holds first allowed
  have grown := old.grownBy_appended unsigned' appended (byteLength hole.front)
  refine ⟨_, _, hole.recorded_fill (written.trans (edited first).symm), hole.declarations_fill new,
    grown, fun values others => ?_⟩
  by_cases found : ((old.source.tag.scope hole.scope).find? "").getD "" = ""
  · obtain ⟨value, last, ends, ⟨answers, session⟩, again⟩ :=
      hole.session_found unsigned' found edited holds others written appended
    refine ⟨_, answers, _, value, ends, session, hole.declarations_fill last, ?_⟩
    rw [if_pos found]
    exact old.grownBy_appended unsigned' again (byteLength hole.front)
  · have default : (new.source.tag.scope hole.scope).find? "" =
        (old.source.tag.scope hole.scope).find? "" := by
      obtain ⟨-, -, -, tag_eq, -, -, -, -, -, -⟩ := appended
      rw [tag_eq]
      rfl
    obtain ⟨value, last, ends, ⟨answers, session⟩, more⟩ :=
      hole.session_hidden found others default grown
    refine ⟨_, answers, _, value, ends, session, hole.declarations_fill last, ?_⟩
    rw [if_neg found, Nat.add_comm]
    exact more

/-- A config up to the end of the tag of its only declaration. The declaration is in the namespace
with the empty name, and unqualified names are in another one. -/
def foreignFront : List Char :=
  "<config xmlns=\"urn:x\" xmlns:p=\"\"><p:start name=\"a\"".toList

def foreignBehind : List Char := "</config>".toList

/-- A config whose declaration is qualified. -/
def foreignConfig : Document :=
  Document.ofList (foreignFront ++ ("/>".toList ++ foreignBehind)) (by decide +kernel)

/-- The end of the declaration with a signature in it. -/
def foreignSigned : List Char := '>' :: signatureElement "S" ++ "</p:start>".toList

/-- The config with a signature, which is not found. -/
def signedForeignConfig : Document :=
  Document.ofList (foreignFront ++ (foreignSigned ++ foreignBehind)) (by decide +kernel)

theorem foreignConfig_declarations :
    foreignConfig.declarations.map (fun declaration => (declaration.signature?.isNone,
      declaration.isPlaced foreignConfig.text.toList, foreignConfig.record declaration "S",
      foreignConfig.defaultUri? declaration, (elements declaration.element.children).length)) =
        [(true, true, ⟨⟨byteLength foreignFront, byteLength foreignFront + 2⟩,
          String.ofList foreignSigned⟩, some "urn:x", 0)] := by
  decide +kernel

theorem signedForeignConfig_declarations :
    signedForeignConfig.declarations.map (·.signature?.isNone) = [true] := by
  decide +kernel

/-- The second value is appended behind the first one. -/
theorem Document.recorded_defaultUri_foreignConfig :
    ∃ declaration changed final answers last,
      foreignConfig.declarations[0]? = some declaration ∧
      foreignConfig.recorded declaration "S" = .ok changed ∧
      changed.session [.record (.index 0) "S"] = .ok (final, answers) ∧
      final.declarations[0]? = some last ∧
      (elements last.element.children).length = 2 ∧ last.signature? = none := by
  obtain ⟨declaration, single, view⟩ := List.map_eq_singleton_iff.mp foreignConfig_declarations
  simp only [Prod.mk.injEq, Option.isNone_iff_eq_none] at view
  obtain ⟨unsigned, -, -, default, childless⟩ := view
  have declared : foreignConfig.declarations[0]? = some declaration := by rw [single]; rfl
  obtain ⟨-, records⟩ := Document.recorded_defaultUri (show foreignConfig.tree.hasDoctype = false by
    decide +kernel) declared unsigned
  obtain ⟨changed, -, success, -, -, runs⟩ := records "S" (by decide)
  obtain ⟨final, answers, last, _, -, session, found, grown⟩ := runs ["S"] (by decide)
  obtain ⟨length, appended, -, -, -, -, hidden⟩ := grown
  rw [default] at length hidden
  rw [childless] at length
  exact ⟨declaration, changed, final, answers, last, declared, success, session, found, length,
    hidden⟩

/-- A signature is not found after it was recorded. -/
theorem Document.exists_hidden_signature :
    ∃ (document changed : Document) (declaration signed : Declaration),
      document.tree.hasDoctype = false ∧ document.declarations[0]? = some declaration ∧
      declaration.signature? = none ∧ (∀ c ∈ "S".toList, isAllowed c = true) ∧
      document.recorded declaration "S" = .ok changed ∧
      changed.declarations[0]? = some signed ∧ signed.signature? = none := by
  obtain ⟨declaration, single, view⟩ := List.map_eq_singleton_iff.mp foreignConfig_declarations
  obtain ⟨signed, alone, hidden⟩ := List.map_eq_singleton_iff.mp signedForeignConfig_declarations
  simp only [Prod.mk.injEq, Option.isNone_iff_eq_none] at view hidden
  obtain ⟨unsigned, placed, edit_eq, -, -⟩ := view
  exact ⟨foreignConfig, signedForeignConfig, declaration, signed, by decide +kernel,
    by rw [single]; rfl, unsigned, by decide,
    Document.recorded_ofList placed edit_eq rfl (by decide +kernel) String.toList_ofList _,
    by rw [alone]; rfl, hidden⟩

end RunSigning
