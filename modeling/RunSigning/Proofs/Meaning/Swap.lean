import RunSigning.Proofs.Meaning.Count

/-
This file swaps a child of an element for another one. What is read before and behind the child
stays as it is, and so do the shapes of all other nodes.
-/

namespace RunSigning.Markup
open RunSigning.Text

theorem Content.beginsWithText_append {first second : Content}
    (apart : second.beginsWithText = false) :
    (first.append second).beginsWithText = first.beginsWithText := by
  cases first with
  | nil => exact apart
  | text run fits rest => rfl
  | marked source rest => rfl
  | aside source rest => rfl
  | empty tag rest => rfl
  | filled tag inner ending rest => rfl

/-- Content that goes on with markup is separated if its parts are. -/
theorem Content.separated_append {first second : Content} (apart : second.beginsWithText = false) :
    (first.append second).Separated ↔ first.Separated ∧ second.Separated := by
  induction first with
  | nil => simp [append, Separated]
  | text run fits rest ih =>
      rw [append, Separated, Separated, beginsWithText_append apart, ih, and_assoc]
  | marked source rest ih => rw [append, Separated, Separated, ih]
  | aside source rest ih => rw [append, Separated, Separated, ih]
  | empty tag rest ih => rw [append, Separated, Separated, ih]
  | filled tag inner ending rest innerIh ih => rw [append, Separated, Separated, ih, and_assoc]

/-- Around an element the children of its parent are joined apart. -/
theorem reverse_joinNodes_across (first rest : List Node) (element : Element) :
    (joinNodes [] (first ++ element.node :: rest)).reverse =
      (joinNodes [] first).reverse ++ element.node :: (joinNodes [] rest).reverse := by
  have apart : element.node.isText = false := rfl
  have across := joinNodes_across apart [] (joinNodes [] first) rest
  rw [List.nil_append] at across
  rw [joinNodes_append, joinNodes_cons, joinNode_of_not_isText apart, across]
  simp

/-- The child elements around an element. -/
theorem elements_joinNodes_across (first rest : List Node) (element : Element) :
    elements (joinNodes [] (first ++ element.node :: rest)).reverse =
      elements first ++ element :: elements rest := by
  rw [elements_reverse, elements_joinNodes]
  simp

theorem Element.shape_node (element : Element) : element.node.shape = element.shape := rfl

/-- An element that is read from the beginning counts no references. -/
theorem TagSource.Reading.reads_filled {tag : TagSource} {entities : Entities} {scope : Scope}
    (reading : tag.Reading entities nestingLimit scope 0) {inner : Content}
    {nodes : Nat → List Node} (inside : inner.Reads entities nestingLimit reading.inner 0 nodes 0)
    {ending : EndSource} (matching : ending.name.name.Matches tag.name.name) :
    (ElementSource.filled tag inner ending).Reads entities nestingLimit scope 0
      (fun offset => ⟨reading.tag offset (byteLength (filledRender tag inner.render ending)) false,
        (joinNodes [] (nodes (offset + byteLength (tag.render ++ closing false)))).reverse⟩) 0 := by
  refine .filled reading ?_ matching
  rw [reading.settles rfl]
  exact inside

/-- The shapes of the children that nodes make. -/
def childShapes (nodes : List Node) : List Shape := (joinNodes [] nodes).reverse.map Node.shape

theorem childShapes_across (first rest : List Node) (element : Element) :
    childShapes (first ++ element.node :: rest) =
      childShapes first ++ element.shape :: childShapes rest := by
  rw [childShapes, reverse_joinNodes_across, List.map_append, List.map_cons, element.shape_node]
  rfl

/-- The shape of an element with nodes in it. -/
theorem TagSource.Reading.shape_element {source : TagSource} {entities : Entities} {room : Nat}
    {scope : Scope} {references : Nat} (reading : source.Reading entities room scope references)
    (offset length : Nat) (selfClosing : Bool) (nodes : List Node) :
    (⟨reading.tag offset length selfClosing, (joinNodes [] nodes).reverse⟩ : Element).shape =
      .element source.name.name reading.uri? (settledShapes reading.inner reading.valued)
        (childShapes nodes) := by
  rw [Element.shape_eq, ← reading.map_shape_attributes offset]
  rfl

theorem Content.Reads.childShapes_eq {entities : Entities} {room : Nat} {scope : Scope}
    {references after : Nat} {content : Content} {nodes : Nat → List Node}
    (reads : content.Reads entities room scope references nodes after) (offset offset' : Nat) :
    childShapes (nodes offset) = childShapes (nodes offset') := by
  rw [childShapes, childShapes, List.map_reverse, List.map_reverse,
    joinNodes_shape rfl (reads.shape_eq offset offset')]

theorem ElementSource.Reads.shape_eq {entities : Entities} {room : Nat} {scope : Scope}
    {references after : Nat} {source : ElementSource} {reading : Nat → Element}
    (reads : source.Reads entities room scope references reading after) (offset offset' : Nat) :
    (reading offset).shape = (reading offset').shape := by
  have whole := (reads.before (.nil scope after)).shape_eq offset offset'
  exact (List.cons.inj whole).1

namespace Located

variable {entities : Entities} {room : Nat} {scope : Scope} {references after offset : Nat}
  {content : Content} {nodes : Nat → List Node} {earlier later : List Element}
  {element : Element}

variable (located : Located entities room scope references content nodes after offset earlier
  element later)

theorem render_eq :
    content.render = located.first.render ++ (located.source.render ++ located.rest.render) := by
  have whole := congrArg Content.render located.content_eq
  rwa [Content.render_append, ElementSource.render_before] at whole

theorem separated_iff :
    content.Separated ↔ located.first.Separated ∧ located.source.inner.Separated ∧
      located.rest.Separated := by
  have whole := congrArg Content.Separated located.content_eq
  rw [Content.separated_append (located.source.beginsWithText_before _),
    ElementSource.separated_before] at whole
  rw [whole]

/-- The children around the element. -/
theorem childShapes_eq (place place' : Nat) :
    childShapes (nodes place) = childShapes (located.firstNodes place') ++
      element.shape :: childShapes (located.restNodes place') := by
  rw [located.nodes_eq, childShapes_across, located.firstReads.childShapes_eq place place',
    located.restReads.childShapes_eq _ place',
    located.sourceReads.shape_eq _ (offset + byteLength located.first.render), located.element_eq]

/-- Another element may be read in place of the element. -/
theorem swap {source : ElementSource} {reading : Nat → Element}
    (reads : source.Reads entities room scope located.between reading located.beyond) :
    ∃ swappedNodes,
      (located.first.append (source.before located.rest)).Reads entities room scope references
        swappedNodes after ∧
      (∀ place, swappedNodes place = located.firstNodes place ++
        (reading (place + byteLength located.first.render)).node ::
          located.restNodes (place + byteLength located.first.render +
            byteLength source.render)) ∧
      ∀ place place', childShapes (swappedNodes place) =
        childShapes (located.firstNodes place') ++ (reading place').shape ::
          childShapes (located.restNodes place') := by
  refine ⟨_, located.firstReads.append (reads.before located.restReads), fun _ => rfl, ?_⟩
  intro place place'
  rw [childShapes_across, located.firstReads.childShapes_eq place place',
    located.restReads.childShapes_eq _ place', reads.shape_eq _ place']

end Located

section
variable {entities : Entities} {scope : Scope} {after offset : Nat} {content : Content}
  {nodes : Nat → List Node} {earlier later : List Element} {element : Element}
  (located : Located entities nestingLimit scope 0 content nodes after offset earlier element later)

theorem Located.between_eq : located.between = 0 := located.firstReads.settles rfl

theorem Located.beyond_eq : located.beyond = 0 := located.sourceReads.settles located.between_eq

/-- Nothing around the element counts a reference. -/
theorem Located.reads : located.first.Reads entities nestingLimit scope 0 located.firstNodes 0 ∧
    located.source.Reads entities nestingLimit scope 0 located.reading 0 ∧
    located.rest.Reads entities nestingLimit scope 0 located.restNodes after := by
  have first := located.firstReads
  have source := located.sourceReads
  have rest := located.restReads
  rw [located.between_eq] at first source
  rw [located.beyond_eq] at source rest
  exact ⟨first, source, rest⟩

end

end RunSigning.Markup
