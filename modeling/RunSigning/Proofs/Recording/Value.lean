import RunSigning.Proofs.Recording.Change
import RunSigning.Proofs.Recording.Site

/-
This file records a value in a signature element that exists. The value of its value attribute is
rewritten, or a value attribute is added to its tag.
-/

namespace RunSigning.Markup
open RunSigning.Text

/-- The equals signs of the value attributes with the blanks around them fit eight bits. -/
def ElementSource.ValueFits (source : ElementSource) : Prop :=
  ∀ attr ∈ source.tag.attributes, attr.name.name.IsPlain "value" → byteLength attr.equals ≤ 255

namespace ElementSource

/-- What is written behind the start tag, from its closing bracket on. -/
def behindTag : ElementSource → List Char
  | .empty _ => closing true
  | .filled _ inner ending => closing false ++ (inner.render ++ ending.render)

/-- The element with another start tag. -/
def withTag : ElementSource → TagSource → ElementSource
  | .empty _, tag => .empty tag
  | .filled _ inner ending, tag => .filled tag inner ending

theorem render_eq_tag (source : ElementSource) :
    source.render = source.tag.render ++ source.behindTag := by
  cases source with
  | empty tag => rfl
  | filled tag inner ending => simp [render, filledRender, ElementSource.tag, behindTag]

@[simp] theorem tag_withTag (source : ElementSource) (tag : TagSource) :
    (source.withTag tag).tag = tag := by
  cases source <;> rfl

@[simp] theorem inner_withTag (source : ElementSource) (tag : TagSource) :
    (source.withTag tag).inner = source.inner := by
  cases source <;> rfl

@[simp] theorem behindTag_withTag (source : ElementSource) (tag : TagSource) :
    (source.withTag tag).behindTag = source.behindTag := by
  cases source <;> rfl

end ElementSource

/-- The start tag of an element has a reading, and another tag with a reading may take its place. -/
theorem ElementSource.Reads.exists_reading {entities : Entities} {scope : Scope} {after : Nat}
    {source : ElementSource} {reads : Nat → Element}
    (written : source.Reads entities nestingLimit scope 0 reads after) (place : Nat) :
    ∃ reading : source.tag.Reading entities nestingLimit scope 0,
      (reads place).tag.attributes = reading.attributes place ∧
      (reads place).shape = .element source.tag.name.name reading.uri?
        (settledShapes reading.inner reading.valued) ((reads place).children.map Node.shape) ∧
      ∀ (changed : TagSource) (reading' : changed.Reading entities nestingLimit scope 0),
        changed.name = source.tag.name → reading'.inner = reading.inner →
          ∃ reads', (source.withTag changed).Reads entities nestingLimit scope 0 reads' 0 ∧
            (∀ place', (reads' place').tag.attributes = reading'.attributes place') ∧
            ∀ place', (reads' place').shape = .element changed.name.name reading'.uri?
              (settledShapes reading'.inner reading'.valued)
              ((reads place).children.map Node.shape) := by
  have settled := written.settles rfl
  cases written with
  | @empty tag reading =>
      refine ⟨reading, rfl, reading.shape_element _ _ true [], ?_⟩
      intro changed reading' named inner
      have empty := ElementSource.Reads.empty reading'
      rw [reading'.settles rfl] at empty
      exact ⟨_, empty, fun _ => rfl, fun place' => reading'.shape_element place' _ true []⟩
  | @filled tag inner ending nodes after reading inside matching =>
      subst settled
      refine ⟨reading, rfl, reading.shape_element _ _ false _, ?_⟩
      intro changed reading' named inner_eq
      have inside' : inner.Reads entities nestingLimit reading'.inner reading'.after nodes 0 := by
        rw [inner_eq, reading'.settles rfl]
        rwa [reading.settles rfl] at inside
      have matching' : ending.name.name.Matches changed.name.name := by
        rw [named]
        exact matching
      refine ⟨_, .filled reading' inside' matching', fun _ => rfl, ?_⟩
      intro place'
      rw [reading'.shape_element]
      exact congrArg _ (inside.childShapes_eq _ _)

/-- The characters of an unqualified name before its attribute value are few. -/
theorem QualifiedName.IsPlain.byteLength_run {written : WrittenName}
    (plain : written.name.IsPlain "value") : byteLength written.run ≤ 6 := by
  rw [← written.toList_written]
  obtain ⟨unqualified, named⟩ := plain
  rw [QualifiedName.written, named]
  split
  · decide +kernel
  · rename_i qualifier equal
    rw [QualifiedName.qualifier, equal] at unqualified
    rw [show qualifier = "" from unqualified]
    decide +kernel

/-- The span of a value is exact if its name and its equals sign are short. -/
theorem AttributeSource.valueSpan_written {attr : AttributeSource}
    (plain : attr.name.name.IsPlain "value") (fits : byteLength attr.equals ≤ 255) (offset : Nat) :
    (attr.written offset).valueSpan = ⟨offset + byteLength attr.opening,
      offset + byteLength attr.opening + byteLength attr.value⟩ := by
  have named := plain.byteLength_run
  have quote := byteLength_quote attr.quote_fits
  rw [WrittenAttribute.valueSpan]
  simp only [written, opening, byteLength_append, quote, Span.mk.injEq]
  omega

theorem AttributeShape.isPlain_iff {held : AttributeShape} {name : String} :
    held.isPlain name = true ↔ held.key = (name, none) := by
  rw [isPlain, key, Bool.and_eq_true, beq_iff_eq, beq_iff_eq, Prod.mk.injEq]

theorem AttributeShape.isPlain_eq_false {shapes : List AttributeShape} {name : String}
    (lacking : (name, none) ∉ shapes.map AttributeShape.key) :
    ∀ held ∈ shapes, held.isPlain name = false := by
  intro held member
  rw [Bool.eq_false_iff]
  intro plain
  exact lacking (List.mem_map.mpr ⟨held, member, isPlain_iff.mp plain⟩)

theorem mem_pendingFrom {waiting : PendingAttribute} {offset : Nat}
    {valued : List (AttributeSource × String)} (member : waiting ∈ pendingFrom offset valued) :
    ∃ front attr old back, valued = front ++ (attr, old) :: back ∧
      attr.name.name.declares = false ∧ waiting = ⟨attr.written (offset + byteLength
        ((front.map Prod.fst).flatMap AttributeSource.render)), old⟩ := by
  induction valued generalizing offset with
  | nil => cases member
  | cons pair valued ih =>
      obtain ⟨attr, old⟩ := pair
      rw [pendingFrom] at member
      rcases List.mem_append.mp member with first | later
      · rw [pending] at first
        split at first
        · cases first
        · rename_i plain
          obtain rfl := List.mem_singleton.mp first
          exact ⟨[], attr, old, valued, rfl, by simpa [AttributeSource.written] using plain, rfl⟩
      · obtain ⟨front, other, text, back, rfl, plain, rfl⟩ := ih later
        refine ⟨(attr, old) :: front, other, text, back, rfl, plain, ?_⟩
        simp [Nat.add_assoc]

/-- An attribute in no namespace is unqualified. -/
theorem Scope.qualifier_of_attributeUri {scope : Scope} {name : QualifiedName}
    (bound : (scope.attributeUri? name).isSome = true)
    (outside : (scope.attributeUri? name).join = none) : name.qualifier = "" := by
  rw [attributeUri?] at bound outside
  split at outside
  · cases outside
  split at outside
  · assumption
  · rename_i reserved qualified
    rw [if_neg reserved, if_neg qualified] at bound
    cases found : scope.find? name.qualifier with
    | none =>
        rw [found] at bound
        cases bound
    | some uri =>
        rw [found] at outside
        cases outside

/-- The value attribute that is found in a tag is one that is written in it. -/
theorem TagSource.Reading.exists_value {source : TagSource} {entities : Entities} {room : Nat}
    {scope : Scope} {references : Nat} (reading : source.Reading entities room scope references)
    {place : Nat} {existing : Attribute}
    (found : (reading.attributes place).find? (fun candidate =>
      candidate.name.localName == "value" && candidate.uri? == none) = some existing) :
    ∃ front attr old back, reading.valued = front ++ (attr, old) :: back ∧
      attr.name.name.IsPlain "value" ∧
      existing.valueSpan = (attr.written (place + byteLength ('<' :: source.name.run) +
        byteLength ((front.map Prod.fst).flatMap AttributeSource.render))).valueSpan ∧
      settledShapes reading.inner reading.valued = settledShapes reading.inner front ++
        ⟨attr.name.name, none, old⟩ :: settledShapes reading.inner back ∧
      ("value", none) ∉ (settledShapes reading.inner (front ++ back)).map AttributeShape.key := by
  have named := List.find?_some found
  obtain ⟨waiting, member, rfl⟩ := List.mem_map.mp (List.mem_of_find?_eq_some found)
  obtain ⟨front, attr, old, back, valued, plain, rfl⟩ := mem_pendingFrom member
  have bound := reading.knows (attr, old) (by simp [valued]) plain
  rw [Bool.and_eq_true, beq_iff_eq, beq_iff_eq] at named
  obtain ⟨localName, outside⟩ := named
  have isPlain : attr.name.name.IsPlain "value" :=
    ⟨Scope.qualifier_of_attributeUri bound outside, localName⟩
  have shapes : settledShapes reading.inner (front ++ (attr, old) :: back) =
      settledShapes reading.inner front ++
        ⟨attr.name.name, none, old⟩ :: settledShapes reading.inner back := by
    rw [settledShapes_append, settledShapes_value_cons _ isPlain]
  refine ⟨front, attr, old, back, valued, isPlain, rfl, by rw [valued, shapes], ?_⟩
  have distinct := reading.distinct
  rw [valued] at distinct
  change ((settledShapes reading.inner _).map AttributeShape.key).Nodup at distinct
  rw [shapes, List.map_append, List.map_cons, List.perm_middle.nodup_iff, List.nodup_cons,
    ← List.map_append, ← settledShapes_append] at distinct
  rw [show ("value", none) = AttributeShape.key ⟨attr.name.name, none, old⟩ by
    rw [AttributeShape.key, isPlain.localName_eq]]
  exact distinct.1

theorem pendingFrom_append (offset : Nat) (first second : List (AttributeSource × String)) :
    pendingFrom offset (first ++ second) = pendingFrom offset first ++
      pendingFrom (offset + byteLength ((first.map Prod.fst).flatMap AttributeSource.render))
        second := by
  induction first generalizing offset with
  | nil => rfl
  | cons pair first ih =>
      obtain ⟨attr, value⟩ := pair
      rw [List.cons_append, pendingFrom, pendingFrom, ih, List.append_assoc]
      simp [Nat.add_assoc]

/-- The first value attribute that is written in a tag is the one that is found. -/
theorem TagSource.Reading.find_value {source : TagSource} {entities : Entities} {room : Nat}
    {scope : Scope} {references : Nat} (reading : source.Reading entities room scope references)
    {front back : List (AttributeSource × String)} {attr : AttributeSource} {value : String}
    (valued : reading.valued = front ++ (attr, value) :: back)
    (plain : attr.name.name.IsPlain "value")
    (unvalued : ("value", none) ∉ (settledShapes reading.inner front).map AttributeShape.key)
    (place : Nat) :
    (reading.attributes place).find? (fun candidate =>
        candidate.name.localName == "value" && candidate.uri? == none) =
      some ⟨attr.name.name, none, value, (attr.written (place +
        byteLength ('<' :: source.name.run) +
          byteLength ((front.map Prod.fst).flatMap AttributeSource.render))).valueSpan⟩ := by
  have lacking : ((pendingFrom (place + byteLength ('<' :: source.name.run)) front).map
      reading.inner.settle).find? (fun candidate =>
        candidate.name.localName == "value" && candidate.uri? == none) = none := by
    rw [List.find?_eq_none]
    intro held member found
    rw [Bool.and_eq_true, beq_iff_eq, beq_iff_eq] at found
    refine unvalued ?_
    rw [← map_shape_settle_pendingFrom _ (place + byteLength ('<' :: source.name.run)),
      List.map_map]
    exact List.mem_map.mpr ⟨held, member, by simp [AttributeShape.key, Attribute.shape, found]⟩
  have settled (offset : Nat) : reading.inner.settle ⟨attr.written offset, value⟩ =
      ⟨attr.name.name, none, value, (attr.written offset).valueSpan⟩ := by
    rw [Scope.settle, show (attr.written offset).name = attr.name.name from rfl,
      plain.attributeUri]
    rfl
  rw [attributes, valued, pendingFrom_append, List.map_append, List.find?_append, lacking,
    pendingFrom, pending, show (attr.written _).name.declares = false from plain.declares (by decide)]
  simp [settled, plain.localName_eq]

/-- The tag has no value attribute if none is found. -/
theorem TagSource.Reading.no_value {source : TagSource} {entities : Entities} {room : Nat}
    {scope : Scope} {references : Nat} (reading : source.Reading entities room scope references)
    {place : Nat}
    (missing : (reading.attributes place).find? (fun candidate =>
      candidate.name.localName == "value" && candidate.uri? == none) = none) :
    ("value", none) ∉ (settledShapes reading.inner reading.valued).map AttributeShape.key := by
  intro member
  rw [← reading.map_shape_attributes place, List.map_map, List.mem_map] at member
  obtain ⟨held, member, same⟩ := member
  have none := List.find?_eq_none.mp missing held member
  obtain ⟨localName, outside⟩ := Prod.mk.inj same
  exact none (by simp [show held.name.localName = _ from localName,
    show held.uri? = _ from outside])

/-- An attribute with another value. -/
def AttributeSource.withValue (attr : AttributeSource) (value : String)
    (allowed : AllAllowed value.toList) : AttributeSource :=
  { attr with
    value := escape attr.quote value.toList
    value_fits := escape_fits attr.quote_fits allowed }

/-- A tag with other attributes. -/
def TagSource.withAttributes (tag : TagSource) (attributes : List AttributeSource) : TagSource :=
  { tag with attributes := attributes }

section
variable {entities : Entities} {scope : Scope} {element : Element}

theorem ElementSource.Reads.span {room references after : Nat} {source : ElementSource}
    {reading : Nat → Element}
    (reads : source.Reads entities room scope references reading after) (place : Nat) :
    (reading place).tag.span = ⟨place, place + byteLength source.render⟩ := by
  cases reads <;> rfl

/-- The span of the element is where it is written. -/
theorem Site.span_eq (site : Site entities scope element) :
    element.tag.span =
      ⟨byteLength site.front, byteLength site.front + byteLength site.source.render⟩ := by
  have span := site.reads.span (byteLength site.front)
  rwa [site.element_eq] at span

theorem Site.span_start (site : Site entities scope element) :
    element.tag.span.start = byteLength site.front := by
  rw [site.span_eq]

/-- The name that is read at the site of an element is the name of its tag. -/
theorem Site.tagNameAt_eq (site : Site entities scope element) :
    tagNameAt site.text element.tag.span.start = site.source.tag.name.run := by
  obtain ⟨c, tail, render, ends⟩ := site.source.exists_tail
  have split : site.text = site.front ++ ('<' :: site.source.tag.name.run ++
      c :: (tail ++ site.behind)) := by
    rw [Site.text, Site.around, render]
    simp
  rw [split, site.span_start, tagNameAt_append _ ends]

/-- Wherever the element stands, its value attribute is read from the given span of it. -/
def HoldsValueAt (spot : Span) (reading : Nat → Element) : Prop :=
  ∀ place, ∃ existing, (reading place).attribute? "value" = some existing ∧
    existing.valueSpan = spot.movedBy place

/-- What rewriting the value of a signature element does. -/
inductive Rewritten (element : Element) (value : String) (spot : Span) (source : ElementSource)
    (reading : Nat → Element) : Prop where
  | intro {name : QualifiedName} {uri? : Option String} {front back : List AttributeShape}
      {held : AttributeShape} (fits : source.ValueFits) (placed : HoldsValueAt spot reading)
      (valued : held.isPlain "value" = true)
      (unvalued : ∀ other ∈ front, other.isPlain "value" = false)
      (before : element.shape =
        .element name uri? (front ++ held :: back) (element.children.map Node.shape))
      (after : ∀ place, (reading place).shape =
        .element name uri? (front ++ { held with value := value } :: back)
          (element.children.map Node.shape))

/-- The value of a signature element is rewritten in place. -/
theorem Site.edits_value (site : Site entities scope element) {existing : Attribute}
    (found : element.attribute? "value" = some existing) (fits : site.source.ValueFits) :
    site.Edits (fun value => ⟨existing.valueSpan,
      escapeString (quoteBefore site.text existing.valueSpan.start) value⟩)
      (Rewritten element) := by
  obtain ⟨reading, attributes, shape, accepts⟩ := site.reads.exists_reading (byteLength site.front)
  rw [site.element_eq] at attributes shape accepts
  rw [Element.attribute?, attributes] at found
  obtain ⟨front, attr, old, back, valued, plain, span, shapes, unvalued⟩ :=
    reading.exists_value found
  have sources : site.source.tag.attributes =
      front.map Prod.fst ++ attr :: back.map Prod.fst := by
    rw [← reading.sources, valued]
    simp
  have fits' := fits attr (by simp [sources]) plain
  rw [AttributeSource.valueSpan_written plain fits'] at span
  let ahead := '<' :: site.source.tag.name.run ++
    (front.map Prod.fst).flatMap AttributeSource.render ++
    (attr.lead ++ attr.name.run ++ attr.equals)
  let closed := [attr.quote] ++ (back.map Prod.fst).flatMap AttributeSource.render ++
    site.source.tag.gap ++ site.source.behindTag
  have render : site.source.render = ahead ++ [attr.quote] ++ (attr.value ++ closed) := by
    rw [ElementSource.render_eq_tag, TagSource.render, sources]
    simp [ahead, closed, AttributeSource.render, AttributeSource.opening]
  have opening := byteLength_quote attr.quote_fits
  have start : existing.valueSpan.start = byteLength (site.front ++ ahead) + 1 := by
    simp only [span, ahead, AttributeSource.opening, byteLength_append, opening]
    omega
  have stop : existing.valueSpan.stop = existing.valueSpan.start + byteLength attr.value := by
    rw [span]
  have quote : quoteBefore site.text existing.valueSpan.start = attr.quote := by
    have split : site.text = (site.front ++ ahead) ++ attr.quote ::
        (attr.value ++ closed ++ site.behind) := by
      rw [Site.text, Site.around, render]
      simp
    rw [split, start, quoteBefore_append attr.quote_fits]
  rw [quote]
  refine ⟨⟨attr.quote, ahead ++ [attr.quote], closed, attr.quote_fits, List.getLast?_concat⟩, ?_, ?_⟩
  · intro value
    have split : site.text = (site.front ++ (ahead ++ [attr.quote])) ++
        (attr.value ++ (closed ++ site.behind)) := by
      rw [Site.text, Site.around, render]
      simp
    have place : byteLength (site.front ++ (ahead ++ [attr.quote])) =
        byteLength (site.front ++ ahead) + 1 := by
      rw [← List.append_assoc, byteLength_append, opening]
    rw [split, TextEdit.apply_append (start.trans place.symm)
      (by rw [stop, start, place])]
    simp [escapeString, Site.around, Slot.fill]
  · intro value allowed
    let changed := site.source.tag.withAttributes
      (front.map Prod.fst ++ attr.withValue value allowed :: back.map Prod.fst)
    obtain ⟨reading', inner, uri, valued', shapes'⟩ := reading.exists_revalued
      (show reading.valued = front ++ ([(attr, old)] ++ back) from valued) (by simpa using plain)
      (show (attr.withValue value allowed).name.name.IsPlain "value" from plain) rfl
      (show changed.attributes = _ from rfl) rfl unvalued
    obtain ⟨reads, accepted, attributes', shape'⟩ := accepts changed reading' rfl inner
    refine ⟨site.source.withTag changed, reads, ?_, ⟨?_, ?_, accepted⟩, ?_⟩
    · rw [ElementSource.render_eq_tag, TagSource.render]
      simp [Slot.fill, changed, ahead, closed, TagSource.withAttributes, AttributeSource.withValue,
        AttributeSource.render, AttributeSource.opening, AttributeSource.equals]
    · rw [ElementSource.tag_withTag]
      rfl
    · rw [ElementSource.inner_withTag]
      exact site.separated
    · have held : AttributeShape.isPlain ⟨attr.name.name, none, old⟩ "value" = true := by
        rw [AttributeShape.isPlain_iff, AttributeShape.key, plain.localName_eq]
      rw [settledShapes_append, List.map_append, List.mem_append, not_or] at unvalued
      rw [shapes] at shape
      refine .intro ?_ ?_ held (AttributeShape.isPlain_eq_false unvalued.1) shape ?_
      · intro other member otherPlain
        rw [ElementSource.tag_withTag] at member
        rcases List.mem_append.mp member with before | rest
        · exact fits other (by rw [sources]; exact List.mem_append_left _ before) otherPlain
        rcases List.mem_cons.mp rest with rfl | after
        · exact fits'
        · exact fits other (by rw [sources]; simp [after]) otherPlain
      · intro place
        have found := reading'.find_value valued' plain (by rw [inner]; exact unvalued.1) place
        have span' := @AttributeSource.valueSpan_written (attr.withValue value allowed) plain fits'
        refine ⟨_, (congrArg _ (attributes' place)).trans found, (span' _).trans ?_⟩
        simp [Slot.spot, Span.movedBy, ahead, AttributeSource.opening, AttributeSource.withValue,
          AttributeSource.equals, changed, TagSource.withAttributes, Nat.add_assoc]
      · intro place
        rw [shape', shapes', uri]
        rfl

/-- What adding a value to a signature element does. -/
inductive Added (element : Element) (value : String) (spot : Span) (source : ElementSource)
    (reading : Nat → Element) : Prop where
  | intro {name : QualifiedName} {uri? : Option String} {others : List AttributeShape}
      (fits : source.ValueFits) (placed : HoldsValueAt spot reading)
      (unvalued : ∀ other ∈ others, other.isPlain "value" = false)
      (before : element.shape = .element name uri? others (element.children.map Node.shape))
      (after : ∀ place, (reading place).shape =
        .element name uri? (⟨⟨none, "value"⟩, none, value⟩ :: others)
          (element.children.map Node.shape))

/-- A signature element without value is given one behind its name. -/
theorem Site.edits_added (site : Site entities scope element)
    (missing : element.attribute? "value" = none) (fits : site.source.ValueFits) :
    site.Edits (fun value => .insert (element.tag.span.start + 1 +
        byteLength (tagNameAt site.text element.tag.span.start))
      (String.ofList (' ' :: valueAttribute value))) (Added element) := by
  obtain ⟨reading, attributes, shape, accepts⟩ := site.reads.exists_reading (byteLength site.front)
  rw [site.element_eq] at attributes shape accepts
  rw [Element.attribute?, attributes] at missing
  have unvalued := reading.no_value missing
  obtain ⟨c, tail, render, ends⟩ := site.source.exists_tail
  rw [site.tagNameAt_eq, site.span_start]
  have place : byteLength (site.front ++ '<' :: site.source.tag.name.run) =
      byteLength site.front + 1 + byteLength site.source.tag.name.run := by
    rw [byteLength_append, byteLength_cons, Nat.add_assoc]
    rfl
  obtain ⟨opening, quoted, valueAttribute_eq, opening_eq⟩ := exists_opening_valueAttribute
  have quoted' : ('<' :: site.source.tag.name.run ++ ' ' :: opening).getLast? = some '"' := by
    rw [List.getLast?_append, List.getLast?_cons, quoted]
    rfl
  refine ⟨⟨'"', _, '"' :: c :: tail, .inr rfl, quoted'⟩, ?_, ?_⟩
  · intro value
    have split : site.text = (site.front ++ '<' :: site.source.tag.name.run) ++
        (c :: tail ++ site.behind) := by
      rw [Site.text, Site.around, render]
      simp
    rw [split, TextEdit.apply_insert _ place.symm]
    simp [Site.around, valueAttribute_eq, Slot.fill]
  · intro value allowed
    let changed := site.source.tag.withAttributes
      (valueSource value allowed :: site.source.tag.attributes)
    have sources : changed.attributes = ([] : List (AttributeSource × String)).map Prod.fst ++
        valueSource value allowed :: reading.valued.map Prod.fst := by
      rw [reading.sources]
      rfl
    obtain ⟨reading', inner, uri, valued', shapes'⟩ := reading.exists_revalued
      (show reading.valued = [] ++ ([] ++ reading.valued) from rfl) (by simp)
      (show (valueSource value allowed).name.name.IsPlain "value" from isPlain_valueName) rfl
      sources rfl unvalued
    obtain ⟨reads, accepted, attributes', shape'⟩ := accepts changed reading' rfl inner
    refine ⟨site.source.withTag changed, reads, ?_, ⟨?_, ?_, accepted⟩, ?_⟩
    · have behindName : site.source.tag.attributes.flatMap AttributeSource.render ++
          (site.source.tag.gap ++ site.source.behindTag) = c :: tail := by
        rw [ElementSource.render_eq_tag, TagSource.render] at render
        simpa using render
      rw [ElementSource.render_eq_tag, TagSource.render, ElementSource.tag_withTag,
        ElementSource.behindTag_withTag, ← behindName]
      simp only [Slot.fill, changed, TagSource.withAttributes, List.flatMap_cons, render_valueSource,
        valueAttribute_eq, List.append_assoc, List.cons_append, List.nil_append]
    · rw [ElementSource.tag_withTag]
      rfl
    · rw [ElementSource.inner_withTag]
      exact site.separated
    · refine .intro ?_ ?_ (AttributeShape.isPlain_eq_false unvalued) shape ?_
      · intro other member otherPlain
        rw [ElementSource.tag_withTag] at member
        rcases List.mem_cons.mp member with rfl | held
        · rw [equals_valueSource]
          decide
        · exact fits other held otherPlain
      · intro place
        have found := reading'.find_value valued' isPlain_valueName List.not_mem_nil place
        have span' := @AttributeSource.valueSpan_written (valueSource value allowed)
          isPlain_valueName (by rw [equals_valueSource]; decide)
        refine ⟨_, (congrArg _ (attributes' place)).trans found, (span' _).trans ?_⟩
        rw [opening_eq]
        simp [Slot.spot, Span.movedBy, changed, TagSource.withAttributes, valueSource, Nat.add_assoc]
      · intro place
        rw [shape', shapes', uri]
        rfl

end

end RunSigning.Markup
