import RunSigning.Proofs.Recording.Append

/-
This file records a value in a declaration, whichever of the edits that takes. Another declaration
is written in its place.
-/

namespace RunSigning.Markup
open RunSigning.Text

/-- The signature of a declaration and the element behind which one would be appended stand in the
text themselves, and not in the replacement text of an entity. -/
structure Element.IsOwn (element : Element) (entities : Entities) : Prop where
  signature : ∀ signature ∈ element.child? "signature",
    ¬ ∀ bound, entities.Before bound → signature.tag.span.start < bound
  last : element.child? "signature" = none → ∀ last ∈ (elements element.children).getLast?,
    ¬ ∀ bound, entities.Before bound → last.tag.span.start < bound

/-- Nothing comes from an entity where none is declared. -/
theorem not_forall_before_nil {entities : Entities} (undeclared : entities = []) (start : Nat) :
    ¬ ∀ bound, entities.Before bound → start < bound := by
  subst undeclared
  exact fun within => Nat.not_lt_zero _ (within 0 (by simp [Entities.Before]))

/-- The value of the signature of the element at a site fits wherever it is written. -/
def Site.SignatureFits {entities : Entities} {scope : Scope} {element : Element}
    (site : Site entities scope element) : Prop :=
  ∀ {tag : TagSource} {inner : Content} {ending : EndSource}
    {reading : tag.Reading entities nestingLimit scope 0} {nodes : Nat → List Node}
    {earlier later : List Element} {signature : Element}
    (located : Located entities nestingLimit reading.inner 0 inner nodes 0
      (byteLength (site.front ++ (tag.render ++ closing false))) earlier signature later),
    site.source = .filled tag inner ending → element.child? "signature" = some signature →
      elements element.children = earlier ++ signature :: later →
        (∀ other ∈ earlier, other.isNamed "signature" = false) → located.source.ValueFits

/-- What recording a value in a declaration does. -/
inductive Recorded (entities : Entities) (element : Element) (value : String) (spot : Span)
    (source : ElementSource) (reading : Nat → Element) : Prop where
  | intro {signatureUri? : Option String} {changed : Shape}
      (plain : element.tag.name.qualifier = "" → signatureUri? = element.tag.uri?)
      (fits : entities = [] → signatureUri?.getD "" = "" → source.SignatureFits changed)
      (placed : signatureUri?.getD "" = "" → HoldsSignatureAt spot reading)
      (records : Shape.Records value signatureUri? element.shape changed)
      (after : ∀ place, (reading place).shape = changed)

section
variable {entities : Entities} {scope : Scope} {element : Element}

theorem getLast?_of_lastElement? {nodes earlier : List Node} {last : Element}
    (found : lastElement? nodes.reverse = some (last, earlier)) :
    (elements nodes).getLast? = some last := by
  obtain ⟨skipped, split, none⟩ := lastElement?_eq_some found
  have equal := congrArg elements split
  rw [elements_reverse, elements_append, elements_node_cons, none, List.nil_append] at equal
  rw [← List.reverse_reverse (elements nodes), equal]
  simp

/-- A signature is appended to an element without one. -/
theorem Site.edits_append (site : Site entities scope element)
    (missing : element.child? "signature" = none) (own : element.IsOwn entities) :
    site.Edits (Declaration.append ⟨element⟩ site.text) (Appended site) := by
  cases written : site.source with
  | empty tag => exact site.edits_append_empty written
  | filled tag inner ending =>
      cases found : lastElement? element.children.reverse with
      | none => exact site.edits_append_none written found
      | some pair =>
          obtain ⟨last, earlier⟩ := pair
          have final := getLast?_of_lastElement? found
          exact site.edits_append_last written found (own.last missing last final)

/-- Appending a signature records its value. -/
theorem Appended.recorded {site : Site entities scope element} {value : String} {spot : Span}
    {source : ElementSource} {reading : Nat → Element}
    (missing : element.child? "signature" = none)
    (appended : Appended site value spot source reading) :
    Recorded entities element value spot source reading := by
  obtain ⟨last, blank, -, -, -, plain, fits, placed, before, after⟩ := appended
  rename_i name uri? signatureUri? attributes first gap rest
  have unsigned : ∀ shape ∈ first, shape.isNamed "signature" = false := by
    have none := element.child?_shape "signature"
    rw [missing, before, Shape.child?, Option.map_none, List.find?_eq_none] at none
    intro shape member
    simpa using none shape (List.mem_append_left rest member)
  refine .intro plain (fun undeclared plainUri => fits undeclared plainUri unsigned)
    (fun plainUri => placed plainUri unsigned) ?_ after
  rw [before]
  exact .appended unsigned last blank

/-- The first child element of a name, and the elements around it. -/
theorem Element.child?_eq_some {name : String} {child : Element}
    (found : element.child? name = some child) :
    child.isNamed name = true ∧ ∃ earlier later,
      elements element.children = earlier ++ child :: later ∧
        ∀ other ∈ earlier, other.isNamed name = false := by
  obtain ⟨named, earlier, later, split, others⟩ := List.find?_eq_some_iff_append.mp found
  exact ⟨named, earlier, later, split, by simpa using others⟩

/-- What recording a value in a signature element does. -/
inductive Resigned (signature : Element) (value : String) (spot : Span) (source : ElementSource)
    (reading : Nat → Element) : Prop where
  | intro {changed : Shape} (fits : source.ValueFits) (placed : HoldsValueAt spot reading)
      (signed : changed.isNamed "signature" = true)
      (records : ∀ {name : QualifiedName} {uri? signatureUri? : Option String}
        {attributes : List AttributeShape} {first rest : List Shape},
        (∀ shape ∈ first, shape.isNamed "signature" = false) →
          Shape.Records value signatureUri?
            (.element name uri? attributes (first ++ signature.shape :: rest))
            (.element name uri? attributes (first ++ changed :: rest)))
      (after : ∀ place, (reading place).shape = changed)

theorem Rewritten.resigned {value : String} {spot : Span} {source : ElementSource}
    {reading : Nat → Element} (rewritten : Rewritten element value spot source reading)
    (named : element.isNamed "signature" = true) : Resigned element value spot source reading := by
  obtain ⟨fits, placed, valued, unvalued, before, after⟩ := rewritten
  rw [← element.isNamed_shape, before] at named
  refine .intro fits placed (by simpa [Shape.isNamed] using named) ?_ after
  intro name uri? signatureUri? attributes first rest unsigned
  rw [before]
  exact .rewritten unsigned (by simpa [Shape.isNamed] using named) valued unvalued

theorem Added.resigned {value : String} {spot : Span} {source : ElementSource}
    {reading : Nat → Element} (added : Added element value spot source reading)
    (named : element.isNamed "signature" = true) : Resigned element value spot source reading := by
  obtain ⟨fits, placed, unvalued, before, after⟩ := added
  rw [← element.isNamed_shape, before] at named
  refine .intro fits placed (by simpa [Shape.isNamed] using named) ?_ after
  intro name uri? signatureUri? attributes first rest unsigned
  rw [before]
  exact .added unsigned (by simpa [Shape.isNamed] using named) unvalued

/-- The value of a signature that has one is rewritten. -/
theorem Declaration.record_rewrite {declaration : Declaration} {signature : Element}
    {existing : Attribute} (found : declaration.signature? = some signature)
    (valued : signature.attribute? "value" = some existing) (text : List Char) (value : String) :
    declaration.record text value = ⟨existing.valueSpan,
      escapeString (quoteBefore text existing.valueSpan.start) value⟩ := by
  rw [Declaration.record, found]
  dsimp only
  rw [valued]

/-- The edit that records a value in a declaration with a signature writes another signature in its
place. -/
theorem Site.edits_resigned (site : Site entities scope element)
    {declaration : Declaration} (found : declaration.signature? = some element)
    (named : element.isNamed "signature" = true) (fits : site.source.ValueFits) :
    site.Edits (declaration.record site.text) (Resigned element) := by
  cases valued : element.attribute? "value" with
  | none =>
      have edit_eq : declaration.record site.text = fun value => .insert (element.tag.span.start +
          1 + byteLength (tagNameAt site.text element.tag.span.start))
            (String.ofList (' ' :: valueAttribute value)) := by
        funext value
        rw [Declaration.record, found]
        dsimp only
        rw [valued]
      rw [edit_eq]
      exact (site.edits_added valued fits).imp fun _ _ _ _ added => added.resigned named
  | some existing =>
      rw [funext (Declaration.record_rewrite found valued site.text)]
      exact (site.edits_value valued fits).imp fun _ _ _ _ rewritten => rewritten.resigned named

/-- A new signature in place of the first one is the first one. -/
theorem Located.signatureFits {room references after offset : Nat} {content : Content}
    {nodes : Nat → List Node} {earlier later : List Element} {signature : Element}
    (located : Located [] room scope references content nodes after offset earlier signature later)
    {tag : TagSource} {ending : EndSource} {source : ElementSource} {changed : Shape}
    (unsigned : ∀ shape ∈ childShapes (located.firstNodes 0), shape.isNamed "signature" = false)
    (signed : changed.isNamed "signature" = true) (fits : source.ValueFits)
    {name : QualifiedName} {uri? : Option String} {attributes : List AttributeShape} :
    (ElementSource.filled tag (located.first.append (source.before located.rest))
      ending).SignatureFits (.element name uri? attributes (childShapes (located.firstNodes 0) ++
        changed :: childShapes (located.restNodes 0))) := by
  have sources : (ElementSource.filled tag (located.first.append (source.before located.rest))
      ending).inner.sources = located.first.sources ++ source :: located.rest.sources := by
    rw [ElementSource.inner, Content.sources_append, ElementSource.sources_before]
  have placed := length_filter_childShapes (located.firstNodes 0)
  rw [located.firstReads.length_sources rfl] at placed
  exact ElementSource.signatureFits_of_split unsigned signed sources placed fits

/-- Names are read off shapes. -/
theorem unnamed_of_shapes {first second : List Element} {name : String}
    (same : first.map Element.shape = second.map Element.shape)
    (unnamed : ∀ other ∈ second, other.isNamed name = false) :
    ∀ other ∈ first, other.isNamed name = false := by
  intro other member
  have held : other.shape ∈ second.map Element.shape := same ▸ List.mem_map_of_mem member
  obtain ⟨twin, twinMember, equal⟩ := List.mem_map.mp held
  rw [← other.isNamed_shape, ← equal, twin.isNamed_shape]
  exact unnamed twin twinMember

/-- Recording a value in a declaration with a signature writes another declaration at its site. -/
theorem Site.edits_signed (site : Site entities scope element) {signature : Element}
    (found : element.child? "signature" = some signature)
    (own : ¬ ∀ bound, entities.Before bound → signature.tag.span.start < bound)
    (fits : site.SignatureFits) :
    site.Edits (Declaration.record ⟨element⟩ site.text) (Recorded entities element) := by
  obtain ⟨named, earlier, later, split, others⟩ := element.child?_eq_some found
  obtain ⟨tag, inner, ending, reading, nodes, located, written, matching, before⟩ :=
    site.exists_child split own
  have childFits := fits located written found split others
  have edits := ((site.ofChild reading located written).edits_resigned
    (show Declaration.signature? ⟨element⟩ = some signature from found) named childFits).ofChild
      matching
  rw [site.text_ofChild reading located written] at edits
  have unsigned : ∀ shape ∈ childShapes (located.firstNodes 0),
      shape.isNamed "signature" = false := by
    rw [located.firstReads.childShapes_eq 0
      (byteLength (site.front ++ (tag.render ++ closing false)))]
    refine unsigned_childShapes ?_
    rw [located.earlier_eq]
    exact others
  refine edits.imp ?_
  rintro value spot source reading' ⟨⟨valueFits, placed, signed, records, after⟩, rfl, shapes,
    children⟩
  refine .intro (fun _ => rfl) ?_ ?_ ?_ (fun place => shapes place 0)
  · intro undeclared _
    subst undeclared
    rw [after]
    exact located.signatureFits unsigned signed valueFits
  · intro _
    refine placed.signature (fun place => ?_) fun place => ?_
    · rw [← Element.isNamed_shape, after, signed]
    · obtain ⟨front, behind, split', same⟩ := children place
      exact ⟨front, behind, split', unnamed_of_shapes same others⟩
  · rw [before, after]
    exact records unsigned

/-- Recording a value in a declaration writes another one at its site. -/
theorem Site.edits_record (site : Site entities scope element) (own : element.IsOwn entities)
    (fits : site.SignatureFits) :
    site.Edits (Declaration.record ⟨element⟩ site.text) (Recorded entities element) := by
  cases found : element.child? "signature" with
  | some signature => exact site.edits_signed found (own.signature signature found) fits
  | none =>
      have edit_eq : Declaration.record ⟨element⟩ site.text =
          Declaration.append ⟨element⟩ site.text := by
        funext value
        rw [Declaration.record, show Declaration.signature? ⟨element⟩ = none from found]
      rw [edit_eq]
      exact (site.edits_append found own).imp fun _ _ _ _ appended => appended.recorded found

end

end RunSigning.Markup
