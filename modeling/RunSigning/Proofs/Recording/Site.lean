import RunSigning.Proofs.Meaning.Swap
import RunSigning.Proofs.Recording.Attribute
import RunSigning.Proofs.Recording.Change
import RunSigning.Proofs.Recording.Text

/-
This file defines the sites of elements in a text. An edit at a site writes another element in its
place, and an edit at the site of a child is one at the site of its parent.
-/

namespace RunSigning.Markup
open RunSigning.Text

/-- An element where it is written, with the text around it. -/
structure Site (entities : Entities) (scope : Scope) (element : Element) where
  front : List Char
  behind : List Char
  source : ElementSource
  reading : Nat → Element
  separated : source.inner.Separated
  reads : source.Reads entities nestingLimit scope 0 reading 0
  element_eq : reading (byteLength front) = element

/-- The text with something else in place of the element. -/
def Site.around {entities : Entities} {scope : Scope} {element : Element}
    (site : Site entities scope element) (middle : List Char) : List Char :=
  site.front ++ (middle ++ site.behind)

/-- The text in which the element is written. -/
def Site.text {entities : Entities} {scope : Scope} {element : Element}
    (site : Site entities scope element) : List Char := site.around site.source.render

/-- Another element may be written at the site. -/
structure Site.Accepts {entities : Entities} {scope : Scope} {element : Element}
    (site : Site entities scope element) (source : ElementSource) (reading : Nat → Element) :
    Prop where
  named : source.tag.name = site.source.tag.name
  separated : source.inner.Separated
  reads : source.Reads entities nestingLimit scope 0 reading 0

/-- Edits write elements with given values at a site, where all of them have the same place. The
edited text holds an element if a document may hold the value. -/
inductive Site.Edits {entities : Entities} {scope : Scope} {element : Element}
    (site : Site entities scope element) (edit : String → TextEdit)
    (Result : String → Span → ElementSource → (Nat → Element) → Prop) : Prop where
  | intro (slot : Slot)
      (applies : ∀ value, (edit value).apply (String.ofList site.text) =
        .ok (String.ofList (site.around (slot.fill value))))
      (accepts : ∀ value, AllAllowed value.toList → ∃ source reading,
        source.render = slot.fill value ∧ site.Accepts source reading ∧
          Result value (slot.spot value) source reading)

section
variable {entities : Entities} {scope : Scope} {tag : TagSource} {inner : Content}
  {ending : EndSource} {nodes : Nat → List Node} {earlier later : List Element}
  {element child : Element} {edit : String → TextEdit}

/-- The site of a child of an element. -/
def Site.ofChild (site : Site entities scope element)
    (reading : tag.Reading entities nestingLimit scope 0)
    (located : Located entities nestingLimit reading.inner 0 inner nodes 0
      (byteLength (site.front ++ (tag.render ++ closing false))) earlier child later)
    (written : site.source = .filled tag inner ending) :
    Site entities reading.inner child where
  front := site.front ++ (tag.render ++ closing false) ++ located.first.render
  behind := located.rest.render ++ (ending.render ++ site.behind)
  source := located.source
  reading := located.reading
  separated := by
    have separated := site.separated
    rw [written] at separated
    exact (located.separated_iff.mp separated).2.1
  reads := located.reads.2.1
  element_eq := (congrArg located.reading (byteLength_append _ _)).trans located.element_eq

/-- A child of an element is found where it is written. -/
theorem Site.exists_child (site : Site entities scope element)
    (split : elements element.children = earlier ++ child :: later)
    (own : ¬ ∀ bound, entities.Before bound → child.tag.span.start < bound) :
    ∃ (tag : TagSource) (inner : Content) (ending : EndSource)
      (reading : tag.Reading entities nestingLimit scope 0) (nodes : Nat → List Node)
      (located : Located entities nestingLimit reading.inner 0 inner nodes 0
        (byteLength (site.front ++ (tag.render ++ closing false))) earlier child later),
      site.source = .filled tag inner ending ∧ ending.name.name.Matches tag.name.name ∧
        element.shape = .element tag.name.name reading.uri?
          (settledShapes reading.inner reading.valued) (childShapes (located.firstNodes 0) ++
            child.shape :: childShapes (located.restNodes 0)) := by
  have reads := site.reads
  have element_eq := site.element_eq
  cases written : site.source with
  | empty tag =>
      rw [written] at reads
      obtain ⟨reading, reading_eq⟩ := reads.empty_inv
      rw [← element_eq, reading_eq] at split
      simp at split
  | filled tag inner ending =>
      rw [written] at reads
      obtain ⟨reading, nodes, inside, matching, reading_eq⟩ := reads.filled_inv
      rw [reading.settles rfl] at inside
      rw [reading_eq] at element_eq
      have start : byteLength (site.front ++ (tag.render ++ closing false)) =
          byteLength site.front + byteLength (tag.render ++ closing false) := byteLength_append _ _
      have children : elements (nodes (byteLength (site.front ++ (tag.render ++ closing false)))) =
          earlier ++ child :: later := by
        have same := congrArg (fun held => elements held.children) element_eq
        rw [elements_reverse, elements_joinNodes, split, ← start] at same
        simpa using same
      obtain ⟨located⟩ := (inside.locate children).resolve_right own
      refine ⟨tag, inner, ending, reading, nodes, located, rfl, matching, ?_⟩
      refine (congrArg Element.shape element_eq).symm.trans ?_
      rw [reading.shape_element, located.childShapes_eq _ 0]

/-- Something else in place of the child. -/
theorem Site.around_ofChild (site : Site entities scope element)
    (reading : tag.Reading entities nestingLimit scope 0)
    (located : Located entities nestingLimit reading.inner 0 inner nodes 0
      (byteLength (site.front ++ (tag.render ++ closing false))) earlier child later)
    (written : site.source = .filled tag inner ending) (middle : List Char) :
    (site.ofChild reading located written).around middle =
      site.around ((tag.render ++ closing false) ++ (located.first.render ++
        (middle ++ (located.rest.render ++ ending.render)))) := by
  simp [Site.around, Site.ofChild]

/-- A child is written in the same text. -/
theorem Site.text_ofChild (site : Site entities scope element)
    (reading : tag.Reading entities nestingLimit scope 0)
    (located : Located entities nestingLimit reading.inner 0 inner nodes 0
      (byteLength (site.front ++ (tag.render ++ closing false))) earlier child later)
    (written : site.source = .filled tag inner ending) :
    (site.ofChild reading located written).text = site.text := by
  have inside := located.render_eq
  rw [Site.text, around_ofChild, Site.text, written]
  simp [ElementSource.render, filledRender, inside, Site.ofChild]

/-- Edits that do something do what follows from it. -/
theorem Site.Edits.imp {site : Site entities scope element}
    {Result Weaker : String → Span → ElementSource → (Nat → Element) → Prop}
    (edits : site.Edits edit Result)
    (follows : ∀ value spot source reading,
      Result value spot source reading → Weaker value spot source reading) :
    site.Edits edit Weaker := by
  obtain ⟨slot, applies, accepts⟩ := edits
  refine ⟨slot, applies, fun value allowed => ?_⟩
  obtain ⟨source, reading, render, accepted, result⟩ := accepts value allowed
  exact ⟨source, reading, render, accepted, follows value _ source reading result⟩

/-- What an edit at the site of a child does to the parent: another child is written, and what is
said of it holds of a child of the parent. -/
inductive ChildResult (tag : TagSource) (ending : EndSource) (uri? : Option String)
    (attributes : List AttributeShape) (first rest : Content) (firstNodes restNodes : Nat → List Node)
    (earlier : List Element) (Result : Span → ElementSource → (Nat → Element) → Prop)
    (spot : Span) (reading : Nat → Element) : ElementSource → Prop where
  | intro {childSource : ElementSource} {childReading : Nat → Element} {childSpot : Span}
      {lead : Nat} (result : Result childSpot childSource childReading)
      (spot_eq : spot = childSpot.movedBy lead)
      (shapes : ∀ place place', (reading place).shape = .element tag.name.name uri? attributes
        (childShapes (firstNodes place') ++
          (childReading place').shape :: childShapes (restNodes place')))
      (children : ∀ place, ∃ before behind, elements (reading place).children =
        before ++ childReading (place + lead) :: behind ∧
          before.map Element.shape = earlier.map Element.shape) :
      ChildResult tag ending uri? attributes first rest firstNodes restNodes earlier Result spot
        reading (.filled tag (first.append (childSource.before rest)) ending)

/-- The elements among what content stands for keep their shapes wherever it stands. -/
theorem Content.Reads.map_shape_elements_eq {room references after : Nat} {content : Content}
    {nodes : Nat → List Node} (reads : content.Reads entities room scope references nodes after)
    (offset offset' : Nat) :
    (elements (nodes offset)).map Element.shape = (elements (nodes offset')).map Element.shape := by
  rw [map_shape_elements, map_shape_elements, reads.shape_eq offset offset']

/-- An edit at the site of a child is an edit at the site of its parent. -/
theorem Site.Edits.ofChild {site : Site entities scope element}
    {reading : tag.Reading entities nestingLimit scope 0}
    {located : Located entities nestingLimit reading.inner 0 inner nodes 0
      (byteLength (site.front ++ (tag.render ++ closing false))) earlier child later}
    {written : site.source = .filled tag inner ending}
    (matching : ending.name.name.Matches tag.name.name)
    {Result : String → Span → ElementSource → (Nat → Element) → Prop}
    (edits : (site.ofChild reading located written).Edits edit Result) :
    site.Edits edit fun value spot source reading' =>
      ChildResult tag ending reading.uri? (settledShapes reading.inner reading.valued)
        located.first located.rest located.firstNodes located.restNodes earlier (Result value)
        spot reading' source := by
  obtain ⟨slot, applies, accepts⟩ := edits
  refine ⟨slot.within ((tag.render ++ closing false) ++ located.first.render)
    (located.rest.render ++ ending.render), ?_, ?_⟩
  · intro value
    rw [← site.text_ofChild reading located written, applies, site.around_ofChild]
    simp
  · intro value allowed
    obtain ⟨source, childReading, render, ⟨named, separated, reads⟩, result⟩ :=
      accepts value allowed
    have reads' : source.Reads entities nestingLimit reading.inner located.between childReading
        located.beyond := by
      rwa [located.between_eq, located.beyond_eq]
    obtain ⟨swappedNodes, swapped, swapped_eq, shapes⟩ := located.swap reads'
    have parts := site.separated
    rw [written] at parts
    obtain ⟨firstSeparated, -, restSeparated⟩ := located.separated_iff.mp parts
    refine ⟨.filled tag (located.first.append (source.before located.rest)) ending, _, ?_,
      ⟨?_, ?_, reading.reads_filled swapped matching⟩,
      .intro result (slot.spot_within _ _ value) ?_ ?_⟩
    · rw [ElementSource.render, filledRender, Content.render_append, ElementSource.render_before,
        render]
      simp
    · rw [written]
      rfl
    · refine (Content.separated_append (source.beginsWithText_before _)).mpr ⟨firstSeparated, ?_⟩
      exact (source.separated_before _).mpr ⟨separated, restSeparated⟩
    · intro place place'
      rw [reading.shape_element, shapes _ place']
    · intro place
      refine ⟨elements (located.firstNodes (place + byteLength (tag.render ++ closing false))),
        elements (located.restNodes (place + byteLength (tag.render ++ closing false) +
          byteLength located.first.render + byteLength source.render)), ?_, ?_⟩
      · rw [swapped_eq, elements_joinNodes_across, byteLength_append _ located.first.render,
          Nat.add_assoc place]
      · exact (located.firstReads.map_shape_elements_eq _ _).trans
          (congrArg (List.map Element.shape) located.earlier_eq)

end

end RunSigning.Markup
