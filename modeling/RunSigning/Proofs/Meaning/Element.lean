import RunSigning.Proofs.Meaning.Entity

/-
This file finds elements in content. Every element that content stands for is written in it, or
comes from the replacement text of an entity.
-/

namespace RunSigning.Markup
open RunSigning.Text

def Element.node (element : Element) : Node := .element element.tag element.children

@[simp] theorem elements_node_cons (element : Element) (nodes : List Node) :
    elements (element.node :: nodes) = element :: elements nodes := rfl

@[simp] theorem elements_text_cons (content : String) (nodes : List Node) :
    elements (.text content :: nodes) = elements nodes := rfl

@[simp] theorem elements_aside_cons (source : AsideSource) (nodes : List Node) :
    elements (source.node :: nodes) = elements nodes := by
  cases source <;> rfl

/-- A written element is read in a scope, after a count of references. -/
inductive ElementSource.Reads (entities : Entities) (room : Nat) (scope : Scope)
    (references : Nat) : ElementSource → (Nat → Element) → Nat → Prop where
  | empty {tag : TagSource} (reading : tag.Reading entities room scope references) :
      Reads entities room scope references (.empty tag)
        (fun offset =>
          ⟨reading.tag offset (byteLength (tag.render ++ closing true)) true, []⟩)
        reading.after
  | filled {tag : TagSource} {inner : Content} {ending : EndSource} {nodes : Nat → List Node}
      {after : Nat} (reading : tag.Reading entities room scope references)
      (inside : inner.Reads entities room reading.inner reading.after nodes after)
      (matching : ending.name.name.Matches tag.name.name) :
      Reads entities room scope references (.filled tag inner ending)
        (fun offset =>
          ⟨reading.tag offset (byteLength (filledRender tag inner.render ending)) false,
            (joinNodes [] (nodes (offset + byteLength (tag.render ++ closing false)))).reverse⟩)
        after

section
variable {entities : Entities} {room : Nat} {scope : Scope} {references between after : Nat}

theorem ElementSource.Reads.empty_inv {tag : TagSource} {reading : Nat → Element}
    (reads : (ElementSource.empty tag).Reads entities room scope references reading after) :
    ∃ tagReading : tag.Reading entities room scope references, ∀ place, reading place =
      ⟨tagReading.tag place (byteLength (tag.render ++ closing true)) true, []⟩ := by
  cases reads with
  | empty tagReading => exact ⟨tagReading, fun _ => rfl⟩

theorem ElementSource.Reads.filled_inv {tag : TagSource} {inner : Content} {ending : EndSource}
    {reading : Nat → Element}
    (reads : (ElementSource.filled tag inner ending).Reads entities room scope references reading
      after) :
    ∃ (tagReading : tag.Reading entities room scope references) (nodes : Nat → List Node),
      inner.Reads entities room tagReading.inner tagReading.after nodes after ∧
      ending.name.name.Matches tag.name.name ∧ ∀ place, reading place =
        ⟨tagReading.tag place (byteLength (filledRender tag inner.render ending)) false,
          (joinNodes [] (nodes (place + byteLength (tag.render ++ closing false)))).reverse⟩ := by
  cases reads with
  | filled tagReading inside matching => exact ⟨tagReading, _, inside, matching, fun _ => rfl⟩

theorem ElementSource.Reads.before {source : ElementSource} {element : Nat → Element}
    {rest : Content} {nodes : Nat → List Node}
    (reads : source.Reads entities room scope references element between)
    (later : rest.Reads entities room scope between nodes after) :
    (source.before rest).Reads entities room scope references
      (fun offset => (element offset).node :: nodes (offset + byteLength source.render)) after := by
  cases reads with
  | empty reading => exact .empty reading later
  | filled reading inside matching => exact .filled reading inside matching later

theorem Content.Reads.append {first second : Content} {nodes more : Nat → List Node}
    (reads : first.Reads entities room scope references nodes between)
    (later : second.Reads entities room scope between more after) :
    (first.append second).Reads entities room scope references
      (fun offset => nodes offset ++ more (offset + byteLength first.render)) after := by
  induction reads with
  | nil scope references => simpa [Content.append, render] using later
  | @text scope references between after run fits rest nodes more reads goesOn ih =>
      have whole := @Content.Reads.text _ _ _ _ _ _ _ fits _ _ _ reads (ih later)
      simpa [Content.append, render, Nat.add_assoc] using whole
  | @marked scope references after source rest more goesOn ih =>
      have whole := @Content.Reads.marked _ _ _ _ _ source _ _ (ih later)
      simpa [Content.append, render, Nat.add_assoc] using whole
  | @aside scope references after source rest more goesOn ih =>
      have whole := @Content.Reads.aside _ _ _ _ _ source _ _ (ih later)
      simpa [Content.append, render, Nat.add_assoc] using whole
  | empty reading goesOn ih =>
      have whole := Content.Reads.empty reading (ih later)
      simpa [Content.append, render, Nat.add_assoc] using whole
  | filled reading inside matching goesOn innerIh ih =>
      have whole := Content.Reads.filled reading inside matching (ih later)
      simpa [Content.append, render, Nat.add_assoc] using whole

/-- An element that stands in content, with what is written before and behind it. -/
structure Located (entities : Entities) (room : Nat) (scope : Scope) (references : Nat)
    (content : Content) (nodes : Nat → List Node) (after offset : Nat)
    (earlier : List Element) (element : Element) (later : List Element) where
  first : Content
  source : ElementSource
  rest : Content
  firstNodes : Nat → List Node
  reading : Nat → Element
  restNodes : Nat → List Node
  between : Nat
  beyond : Nat
  content_eq : content = first.append (source.before rest)
  firstReads : first.Reads entities room scope references firstNodes between
  sourceReads : source.Reads entities room scope between reading beyond
  restReads : rest.Reads entities room scope beyond restNodes after
  nodes_eq : ∀ place, nodes place = firstNodes place ++
    (reading (place + byteLength first.render)).node ::
      restNodes (place + byteLength first.render + byteLength source.render)
  earlier_eq : elements (firstNodes offset) = earlier
  element_eq : reading (offset + byteLength first.render) = element
  later_eq :
    elements (restNodes (offset + byteLength first.render + byteLength source.render)) = later

namespace Located

variable {content : Content} {nodes : Nat → List Node} {offset : Nat}
  {earlier later : List Element} {element : Element}

/-- The element stands first. -/
def head {source : ElementSource} {rest : Content} {reading : Nat → Element}
    {restNodes : Nat → List Node}
    (reads : source.Reads entities room scope references reading between)
    (goesOn : rest.Reads entities room scope between restNodes after) (offset : Nat) :
    Located entities room scope references (source.before rest)
      (fun place => (reading place).node :: restNodes (place + byteLength source.render)) after
      offset [] (reading offset) (elements (restNodes (offset + byteLength source.render))) where
  first := .nil
  source := source
  rest := rest
  firstNodes := fun _ => []
  reading := reading
  restNodes := restNodes
  between := references
  beyond := between
  content_eq := rfl
  firstReads := .nil scope references
  sourceReads := reads
  restReads := goesOn
  nodes_eq := by simp [Content.render]
  earlier_eq := rfl
  element_eq := by simp [Content.render]
  later_eq := by simp [Content.render]

/-- The element stands behind more content. -/
def behind {front : Content} {frontNodes : Nat → List Node}
    (reads : front.Reads entities room scope references frontNodes between)
    (located : Located entities room scope between content nodes after
      (offset + byteLength front.render) earlier element later) :
    Located entities room scope references (front.append content)
      (fun place => frontNodes place ++ nodes (place + byteLength front.render)) after offset
      (elements (frontNodes offset) ++ earlier) element later where
  first := front.append located.first
  source := located.source
  rest := located.rest
  firstNodes := fun place =>
    frontNodes place ++ located.firstNodes (place + byteLength front.render)
  reading := located.reading
  restNodes := located.restNodes
  between := located.between
  beyond := located.beyond
  content_eq := (congrArg front.append located.content_eq).trans
    (Content.append_append _ _ _).symm
  firstReads := reads.append located.firstReads
  sourceReads := located.sourceReads
  restReads := located.restReads
  nodes_eq := by simp [located.nodes_eq, Nat.add_assoc]
  earlier_eq := by rw [elements_append, located.earlier_eq]
  element_eq := by simpa [Nat.add_assoc] using located.element_eq
  later_eq := by simpa [Nat.add_assoc] using located.later_eq

end Located

/-- An element at the head of content or one behind it. -/
theorem ElementSource.Reads.locate {source : ElementSource} {reading : Nat → Element}
    {rest : Content} {nodes : Nat → List Node}
    (reads : source.Reads entities room scope references reading between)
    (goesOn : rest.Reads entities room scope between nodes after)
    (further : ∀ {offset : Nat} {earlier : List Element},
      elements (nodes offset) = earlier ++ element :: later →
        Nonempty (Located entities room scope between rest nodes after offset earlier element
            later) ∨
          ∀ bound, entities.Before bound → element.tag.span.start < bound)
    {offset : Nat} {earlier : List Element}
    (split : elements ((reading offset).node :: nodes (offset + byteLength source.render)) =
      earlier ++ element :: later) :
    Nonempty (Located entities room scope references (source.before rest)
        (fun place => (reading place).node :: nodes (place + byteLength source.render)) after offset
        earlier element later) ∨
      ∀ bound, entities.Before bound → element.tag.span.start < bound := by
  rw [elements_node_cons] at split
  cases earlier with
  | nil =>
      obtain ⟨rfl, rfl⟩ := List.cons.inj split
      exact .inl ⟨.head reads goesOn offset⟩
  | cons other earlier =>
      obtain ⟨rfl, behind⟩ := List.cons.inj split
      refine (further behind).imp ?_ id
      rintro ⟨located⟩
      have whole := Located.behind (reads.before (.nil scope between))
        (by simpa [Content.render] using located)
      exact ⟨by simpa [Content.append, Content.render] using whole⟩

/-- What a run of text stands for in front of an element comes from an entity or is no element. -/
theorem elements_split {first second : List Node} {earlier later : List Element}
    {element : Element}
    (split : elements (first ++ second) = earlier ++ element :: later) :
    element ∈ elements first ∨
      ∃ earlier', earlier = elements first ++ earlier' ∧
        elements second = earlier' ++ element :: later := by
  rw [elements_append, List.append_eq_append_iff] at split
  rcases split with ⟨middle, rfl, equal⟩ | ⟨middle, equal, rest⟩
  · exact .inr ⟨middle, rfl, equal⟩
  · cases middle with
    | nil => exact .inr ⟨[], by simpa using equal.symm, by simpa using rest.symm⟩
    | cons other middle =>
        obtain ⟨rfl, -⟩ := List.cons.inj rest
        exact .inl (by simp [equal])

/-- Every element among the nodes stands in the content or comes from the replacement text of an
entity. -/
theorem Content.Reads.locate {content : Content} {nodes : Nat → List Node}
    (reads : content.Reads entities room scope references nodes after) {offset : Nat}
    {earlier later : List Element} {element : Element}
    (split : elements (nodes offset) = earlier ++ element :: later) :
    Nonempty (Located entities room scope references content nodes after offset earlier element
        later) ∨
      ∀ bound, entities.Before bound → element.tag.span.start < bound := by
  induction reads generalizing offset earlier with
  | nil scope references => simp at split
  | @text scope references between after run fits rest nodes more reads goesOn ih =>
      rcases elements_split split with entity | ⟨earlier, rfl, behind⟩
      · exact .inr fun bound declared => reads.before bound declared element entity
      · refine (ih behind).imp ?_ id
        rintro ⟨located⟩
        have front := @Content.Reads.text _ _ _ _ _ _ _ fits _ _ _ reads (.nil _ _)
        have whole := Located.behind front (by simpa [render] using located)
        exact ⟨by simpa [render, Content.append] using whole⟩
  | @marked scope references after source rest more goesOn ih =>
      refine (ih split).imp ?_ id
      rintro ⟨located⟩
      have front := @Content.Reads.marked entities room _ _ _ source _ _ (.nil scope references)
      have whole := Located.behind front (by simpa [render] using located)
      exact ⟨by simpa [render, Content.append] using whole⟩
  | @aside scope references after source rest more goesOn ih =>
      refine (ih (by simpa using split)).imp ?_ id
      rintro ⟨located⟩
      have front := @Content.Reads.aside entities room _ _ _ source _ _ (.nil scope references)
      have whole := Located.behind front (by simpa [render] using located)
      exact ⟨by simpa [render, Content.append] using whole⟩
  | empty reading goesOn ih =>
      exact (ElementSource.Reads.empty reading).locate goesOn ih split
  | filled reading inside matching goesOn innerIh ih =>
      exact (ElementSource.Reads.filled reading inside matching).locate goesOn ih split

end

end RunSigning.Markup
