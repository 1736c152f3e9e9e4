import RunSigning.Proofs.Recording.Fits
import RunSigning.Proofs.Recording.Indent

/-
This file records a value in a declaration without signature. A new signature element becomes its
last element, on a line of its own if the element before it has one.
-/

namespace RunSigning.Markup
open RunSigning.Text

/-- A new signature element as it is written. -/
def signatureSource (value : String) (allowed : AllAllowed value.toList) : ElementSource :=
  .empty ⟨signatureName, [valueSource value allowed], [], blank_nil⟩

/-- Where the value stands in a new signature element. -/
def signatureSpot (value : String) (allowed : AllAllowed value.toList) : Span :=
  let start := byteLength ('<' :: signatureName.run) +
    byteLength (valueSource value allowed).opening
  ⟨start, start + byteLength (escape '"' value.toList)⟩

/-- A new signature element is the value, escaped, between two fixed texts. -/
theorem exists_opening_signatureElement :
    ∃ opening closed, opening.getLast? = some '"' ∧
      (∀ value, signatureElement value = opening ++ (escape '"' value.toList ++ closed)) ∧
      ∀ value allowed, (signatureSource value allowed).render =
          opening ++ (escape '"' value.toList ++ closed) ∧
        signatureSpot value allowed = ⟨byteLength opening,
          byteLength opening + byteLength (escape '"' value.toList)⟩ := by
  obtain ⟨opening, quoted, equal, opening_eq⟩ := exists_opening_valueAttribute
  have name : "<signature ".toList = '<' :: signatureName.run ++ [' '] := by decide +kernel
  refine ⟨'<' :: signatureName.run ++ ' ' :: opening, ['"'] ++ closing true, ?_, fun value => ?_,
    fun value allowed => ⟨?_, ?_⟩⟩
  · rw [List.getLast?_append, List.getLast?_cons, quoted]
    rfl
  · have brackets : "/>".toList = closing true := by decide +kernel
    unfold signatureElement
    rw [name, brackets, equal]
    simp only [List.append_assoc, List.cons_append, List.nil_append]
  · rw [signatureSource, ElementSource.render, TagSource.render]
    simp only [List.flatMap_cons, List.flatMap_nil, render_valueSource, equal, List.append_assoc,
      List.cons_append, List.nil_append, List.append_nil]
  · rw [signatureSpot, opening_eq, byteLength_append]

/-- The shape of a new signature element. -/
def signatureShape (value : String) (uri? : Option String) : Shape :=
  .element ⟨none, "signature"⟩ uri? [⟨⟨none, "value"⟩, none, value⟩] []

/-- The namespace of an element depends on its qualifier only. -/
theorem Scope.elementUri?_congr {scope : Scope} {name other : QualifiedName}
    (same : name.qualifier = other.qualifier) :
    scope.elementUri? name = scope.elementUri? other := by
  rw [elementUri?, elementUri?, same]

theorem Scope.exists_elementUri {scope : Scope} {name : QualifiedName}
    (unqualified : name.qualifier = "") : ∃ uri?, scope.elementUri? name = some uri? := by
  rw [elementUri?]
  split
  · exact ⟨_, rfl⟩
  · rw [if_pos unqualified]
    exact ⟨_, rfl⟩

/-- An unqualified element is in the namespace that is bound for unqualified names. -/
theorem Scope.eq_find?_of_unqualified {scope : Scope} {name : QualifiedName} {uri? : Option String}
    (unqualified : name.qualifier = "") (found : scope.elementUri? name = some uri?) :
    uri? = scope.find? "" := by
  rw [elementUri?, unqualified] at found
  cases bound : scope.find? "" with
  | some uri =>
      rw [bound] at found
      exact (Option.some.inj found).symm
  | none =>
      rw [bound, if_pos rfl] at found
      exact (Option.some.inj found).symm

/-- A new signature element is in the namespace of an unqualified element around it. -/
theorem TagSource.Reading.signatureUri_eq {tag : TagSource} {entities : Entities} {room : Nat}
    {scope : Scope} {references : Nat} (reading : tag.Reading entities room scope references)
    (unqualified : tag.name.name.qualifier = "") {uri? : Option String}
    (found : reading.inner.elementUri? signatureName.name = some uri?) : uri? = reading.uri? := by
  have same : tag.name.name.qualifier = signatureName.name.qualifier := unqualified
  have resolves := reading.resolves
  rw [Scope.elementUri?_congr same] at resolves
  exact Option.some.inj (found.symm.trans resolves)

/-- A new signature element can be read in every scope. -/
theorem exists_reads_signature (entities : Entities) (scope : Scope) {value : String}
    (allowed : AllAllowed value.toList) :
    ∃ uri? reads, scope.elementUri? signatureName.name = some uri? ∧
      (signatureSource value allowed).Reads entities nestingLimit scope 0 reads 0 ∧
      HoldsValueAt (signatureSpot value allowed) reads ∧
      ∀ place, (reads place).shape = signatureShape value uri? := by
  obtain ⟨uri?, found⟩ := @Scope.exists_elementUri scope signatureName.name rfl
  have valueReads (offset : Nat) : normalizeValue entities nestingLimit 0
      ⟨offset, (valueSource value allowed).value⟩ = .ok (value, 0) :=
    (normalizeValue_escape entities 0 offset '"' value.toList).trans
      (by rw [String.ofList_toList])
  have plain := isPlain_valueName
  have shapes : settledShapes scope [(valueSource value allowed, value)] =
      [⟨⟨none, "value"⟩, none, value⟩] := settledShapes_value_cons scope plain value []
  let reading : TagSource.Reading ⟨signatureName, [valueSource value allowed], [], blank_nil⟩
      entities nestingLimit scope 0 :=
    { valued := [(valueSource value allowed, value)]
      bindings := []
      after := 0
      uri? := uri?
      sources := rfl
      unreserved := show signatureName.name.qualifier ≠ "xmlns" by decide
      reads := .cons valueReads (plain.admits (by decide) _ _) (.nil _ _)
      knows := by
        intro pair member _
        rw [List.mem_singleton.mp member]
        rfl
      distinct := by
        rw [List.nil_append, shapes]
        simp
      resolves := found }
  refine ⟨uri?, _, found, .empty reading, ?_, ?_⟩
  · intro place
    have held := @TagSource.Reading.find_value _ _ _ _ _ reading [] [] (valueSource value allowed)
      value rfl plain List.not_mem_nil place
    have span := @AttributeSource.valueSpan_written (valueSource value allowed) plain
      (by rw [equals_valueSource]; decide)
    refine ⟨_, held, (span _).trans ?_⟩
    simp [signatureSpot, Span.movedBy, valueSource, Nat.add_assoc]
  intro place
  have shape := reading.shape_element place
    (byteLength (TagSource.render ⟨signatureName, [valueSource value allowed], [], blank_nil⟩ ++
      closing true)) true []
  rw [show settledShapes reading.inner reading.valued = _ from shapes] at shape
  exact shape

theorem isNamed_signatureShape (value : String) {uri? : Option String}
    (plain : uri?.getD "" = "") : (signatureShape value uri?).isNamed "signature" = true := by
  simp [signatureShape, Shape.isNamed, plain]

theorem valueFits_signatureSource {value : String} (allowed : AllAllowed value.toList) :
    (signatureSource value allowed).ValueFits := by
  intro attr member plain
  rw [List.mem_singleton.mp member, equals_valueSource]
  decide

/-- Named children are counted among the shapes of all children. -/
theorem filter_isNamed_childShapes (nodes : List Node) (name : String) :
    (childShapes nodes).filter (·.isNamed name) =
      ((elements nodes).filter (·.isNamed name)).map Element.shape := by
  rw [childShapes, ← map_shape_filter_isNamed, elements_reverse, elements_joinNodes]
  simp

/-- Nothing is named as a signature where no element is. -/
theorem unsigned_childShapes {nodes : List Node} {name : String}
    (unnamed : ∀ element ∈ elements nodes, element.isNamed name = false) :
    ∀ shape ∈ childShapes nodes, shape.isNamed name = false := by
  have nothing : (elements nodes).filter (·.isNamed name) = [] :=
    List.filter_eq_nil_iff.mpr (by simpa using unnamed)
  have none := filter_isNamed_childShapes nodes name
  rw [nothing, List.map_nil, List.filter_eq_nil_iff] at none
  simpa using none

/-- The first child element of a name behind others that have another name. -/
theorem Element.child?_of_split {name : String} {element child : Element}
    {before behind : List Element} (split : elements element.children = before ++ child :: behind)
    (unnamed : ∀ other ∈ before, other.isNamed name = false) (named : child.isNamed name = true) :
    element.child? name = some child := by
  rw [child?, show element.children.filterMap Node.element? = _ from split, List.find?_append,
    List.find?_eq_none.mpr (by simpa using unnamed), List.find?_cons, named]
  rfl

/-- Wherever the element stands, the value of its signature is read from the given span of it. -/
def HoldsSignatureAt (spot : Span) (reading : Nat → Element) : Prop :=
  ∀ place, ∃ signature existing, (reading place).child? "signature" = some signature ∧
    signature.attribute? "value" = some existing ∧ existing.valueSpan = spot.movedBy place

/-- A child that holds a value is the signature if no child before it is one. -/
theorem HoldsValueAt.signature {spot : Span} {lead : Nat} {reading signature : Nat → Element}
    (held : HoldsValueAt spot signature)
    (named : ∀ place, (signature place).isNamed "signature" = true)
    (split : ∀ place, ∃ before behind,
      elements (reading place).children = before ++ signature (place + lead) :: behind ∧
        ∀ other ∈ before, other.isNamed "signature" = false) :
    HoldsSignatureAt (spot.movedBy lead) reading := by
  intro place
  obtain ⟨before, behind, children, unnamed⟩ := split place
  obtain ⟨existing, valued, span⟩ := held (place + lead)
  refine ⟨_, existing, Element.child?_of_split children unnamed (named _), valued, ?_⟩
  rw [span, Span.movedBy_movedBy]

/-- What appending a signature element at a site does. The new element is in the namespace of
unqualified names. -/
inductive Appended {entities : Entities} {scope : Scope} {element : Element}
    (site : Site entities scope element) (value : String) (spot : Span) (source : ElementSource)
    (reading : Nat → Element) : Prop where
  | intro {name : QualifiedName} {uri? signatureUri? : Option String}
      {attributes : List AttributeShape} {first gap rest : List Shape}
      (last : ∀ shape ∈ rest, shape.isElement = false) (blank : IsBlankGap gap)
      (spaced : gap = indentGap element.indent) (tag_eq : source.tag = site.source.tag)
      (default : ∃ tagReading : site.source.tag.Reading entities nestingLimit scope 0,
        signatureUri? = tagReading.inner.find? "")
      (plain : element.tag.name.qualifier = "" → signatureUri? = element.tag.uri?)
      (fits : entities = [] → signatureUri?.getD "" = "" →
        (∀ shape ∈ first, shape.isNamed "signature" = false) →
          source.SignatureFits (.element name uri? attributes
            (first ++ (gap ++ signatureShape value signatureUri? :: rest))))
      (placed : signatureUri?.getD "" = "" →
        (∀ shape ∈ first, shape.isNamed "signature" = false) → HoldsSignatureAt spot reading)
      (before : element.shape = .element name uri? attributes (first ++ rest))
      (after : ∀ place, (reading place).shape = .element name uri? attributes
        (first ++ (gap ++ signatureShape value signatureUri? :: rest)))

/-- A new signature behind elements that are written is found where it is written. -/
theorem signatureFits_appended {source : ElementSource} {value : String}
    {allowed : AllAllowed value.toList} {before behind : List ElementSource}
    (sources : source.inner.sources = before ++ signatureSource value allowed :: behind)
    {first gap rest : List Shape} (blank : IsBlankGap gap)
    (placed : (first.filter Shape.isElement).length = before.length)
    {name : QualifiedName} {uri? signatureUri? : Option String}
    {attributes : List AttributeShape} (plain : signatureUri?.getD "" = "")
    (unsigned : ∀ shape ∈ first, shape.isNamed "signature" = false) :
    source.SignatureFits (.element name uri? attributes
      (first ++ (gap ++ signatureShape value signatureUri? :: rest))) := by
  have gapless : gap.filter Shape.isElement = [] := by
    cases blank <;> rfl
  rw [← List.append_assoc]
  refine ElementSource.signatureFits_of_split ?_ (isNamed_signatureShape value plain) sources ?_
    (valueFits_signatureSource allowed)
  · intro shape member
    rcases List.mem_append.mp member with left | right
    · exact unsigned shape left
    · cases blank with
      | none => cases right
      | text content white =>
          rw [List.mem_singleton.mp right]
          rfl
  · rw [List.filter_append, gapless, List.append_nil, placed]

/-- White space is content of its own, or none. -/
theorem IsBlank.exists_content {indent : List Char} (blank : IsBlank indent)
    (entities : Entities) (scope : Scope) :
    ∃ (gap : Content) (nodes : List Node), gap.render = indent ∧ gap.Separated ∧
      gap.sources = [] ∧ gap.Reads entities nestingLimit scope 0 (fun _ => nodes) 0 ∧
      childShapes nodes = indentGap indent ∧ IsBlankGap (indentGap indent) := by
  by_cases filled : indent = []
  · subst filled
    exact ⟨.nil, [], rfl, trivial, rfl, .nil scope 0, rfl, .none⟩
  · obtain ⟨white, reads⟩ := blank.textReads filled entities nestingLimit scope 0
    have gap : indentGap indent = [.text (String.ofList (foldLineBreaks indent))] := by
      rw [indentGap, if_neg (by simpa using filled)]
    refine ⟨.text indent (blank.isTextRun filled) .nil, _, ?_, ⟨rfl, trivial⟩, rfl,
      .text reads (.nil scope 0), ?_, ?_⟩
    · rw [Content.render, Content.render, List.append_nil]
    · rw [gap, childShapes, show joinNodes [] _ = [_] from rfl]
      simp [Node.shape]
    · rw [gap]
      exact .text _ (by rwa [String.toList_ofList])

/-- The last element among nodes, and what stands around it. -/
theorem lastElement?_eq_some {nodes earlier : List Node} {last : Element}
    (found : lastElement? nodes = some (last, earlier)) :
    ∃ skipped, nodes = skipped ++ last.node :: earlier ∧ elements skipped = [] := by
  induction nodes with
  | nil => cases found
  | cons node nodes ih =>
      rw [lastElement?] at found
      cases node with
      | element tag children =>
          obtain ⟨rfl, rfl⟩ := Prod.mk.inj (Option.some.inj found)
          exact ⟨[], rfl, rfl⟩
      | text content =>
          obtain ⟨skipped, rfl, none⟩ := ih found
          exact ⟨.text content :: skipped, rfl, none⟩
      | comment content =>
          obtain ⟨skipped, rfl, none⟩ := ih found
          exact ⟨.comment content :: skipped, rfl, none⟩
      | instruction target data =>
          obtain ⟨skipped, rfl, none⟩ := ih found
          exact ⟨.instruction target data :: skipped, rfl, none⟩

section
variable {entities : Entities} {scope : Scope} {element : Element}

theorem Site.slice_eq (site : Site entities scope element) :
    slice element.tag.span site.text = site.source.render := by
  have start : element.tag.span.start = byteLength site.front := site.span_start
  have stop : element.tag.span.stop = byteLength site.front + byteLength site.source.render := by
    rw [site.span_eq]
  exact slice_append start stop

/-- The end tag that a declaration without one is given. -/
def endOf (tag : TagSource) : EndSource := ⟨tag.name, [], blank_nil⟩

theorem render_endOf (tag : TagSource) : (endOf tag).render = "</".toList ++ tag.name.run ++ ['>'] := by
  have brackets : "</".toList = ['<', '/'] := by decide +kernel
  rw [brackets]
  simp [endOf, EndSource.render]

/-- An element without end tag ends with the two characters that close its start tag. -/
theorem Site.ends_empty (site : Site entities scope element) {tag : TagSource}
    (written : site.source = .empty tag) :
    site.text = (site.front ++ tag.render) ++ (closing true ++ site.behind) ∧
      element.tag.span.stop - 2 = byteLength (site.front ++ tag.render) ∧
      element.tag.span.stop =
        byteLength (site.front ++ tag.render) + byteLength (closing true) := by
  have stop : element.tag.span.stop =
      byteLength (site.front ++ tag.render) + byteLength (closing true) := by
    rw [site.span_eq, written, ElementSource.render, byteLength_append, byteLength_append,
      Nat.add_assoc]
  refine ⟨?_, ?_, stop⟩
  · rw [Site.text, Site.around, written, ElementSource.render]
    simp
  · rw [stop, show byteLength (closing true) = 2 from rfl, Nat.add_sub_cancel]

/-- A declaration without end tag is given one behind its signature. -/
theorem Site.edits_append_empty (site : Site entities scope element) {tag : TagSource}
    (written : site.source = .empty tag) :
    site.Edits (Declaration.append ⟨element⟩ site.text) (Appended site) := by
  obtain ⟨opening, closed, quoted, equal, renders⟩ := exists_opening_signatureElement
  have reads := site.reads
  rw [written] at reads
  obtain ⟨reading, reading_eq⟩ := reads.empty_inv
  have element_eq := site.element_eq
  rw [reading_eq] at element_eq
  obtain ⟨split, place, final⟩ := site.ends_empty written
  have named : tagNameAt site.text element.tag.span.start = tag.name.run := by
    rw [site.tagNameAt_eq, written]
    rfl
  have empty : startsWith ['>', '/'] (slice element.tag.span site.text).reverse = true := by
    rw [site.slice_eq, endsEmpty, written]
    rfl
  have quoted' : (tag.render ++ '>' :: opening).getLast? = some '"' := by
    rw [List.getLast?_append, List.getLast?_cons, quoted]
    rfl
  refine ⟨⟨'"', _, closed ++ (endOf tag).render, .inr rfl, quoted'⟩, ?_, ?_⟩
  · intro value
    rw [Declaration.append]
    dsimp only
    rw [if_pos empty, named]
    rw [split, TextEdit.apply_append place final]
    simp [Site.around, equal, render_endOf, Slot.fill]
  · intro value allowed
    obtain ⟨uri?, signatureReads, found, signature, held, shape⟩ :=
      exists_reads_signature entities reading.inner allowed
    have inside := signature.before (Content.Reads.nil reading.inner 0)
    refine ⟨.filled tag ((signatureSource value allowed).before .nil) (endOf tag), _, ?_,
      ⟨?_, ?_, reading.reads_filled inside ⟨rfl, rfl⟩⟩, ?_⟩
    · rw [ElementSource.render, filledRender, ElementSource.render_before, (renders value allowed).1]
      simp [Slot.fill, Content.render, closing]
    · rw [written]
      rfl
    · exact ((signatureSource value allowed).separated_before .nil).mpr ⟨trivial, trivial⟩
    · have unspaced : [] = indentGap element.indent := by
        rw [← element_eq]
        rfl
      have alone (place : Nat) : childShapes [(signatureReads place).node] =
          [] ++ ([] ++ signatureShape value uri? :: []) := by
        rw [← shape place]
        exact childShapes_across [] [] (signatureReads place)
      have before : element.shape = .element tag.name.name reading.uri?
          (settledShapes reading.inner reading.valued) ([] ++ []) := by
        rw [← element_eq]
        exact reading.shape_element _ _ true []
      have plain (unqualified : element.tag.name.qualifier = "") : uri? = element.tag.uri? := by
        rw [← element_eq] at unqualified ⊢
        exact reading.signatureUri_eq unqualified found
      have sources : (ElementSource.filled tag ((signatureSource value allowed).before .nil)
          (endOf tag)).inner.sources = [] ++ signatureSource value allowed :: [] :=
        (signatureSource value allowed).sources_before .nil
      have default : ∃ tagReading : site.source.tag.Reading entities nestingLimit scope 0,
          uri? = tagReading.inner.find? "" := by
        rw [written]
        exact ⟨reading, Scope.eq_find?_of_unqualified rfl found⟩
      refine .intro (by simp) .none unspaced (by rw [written]; rfl) default plain ?_ ?_ before ?_
      · intro _ plainUri unsigned
        exact signatureFits_appended sources .none rfl plainUri unsigned
      · intro plainUri _
        have spot : Slot.spot ⟨'"', _, closed ++ (endOf tag).render, .inr rfl, quoted'⟩ value =
              (signatureSpot value allowed).movedBy (byteLength (tag.render ++ closing false)) := by
          simp [Slot.spot, Span.movedBy, (renders value allowed).2, closing, Nat.add_assoc]
        rw [spot]
        refine held.signature (fun _ => ?_) fun place => ⟨[], [], ?_, by simp⟩
        · rw [← Element.isNamed_shape, shape]
          exact isNamed_signatureShape value plainUri
        · rw [elements_reverse, elements_joinNodes]
          rfl
      · intro place
        rw [reading.shape_element, alone]

/-- A new signature element is written between two parts of the content. -/
theorem Site.edits_append_at (site : Site entities scope element) {tag : TagSource}
    {inner indented behind : Content} {ending : EndSource} {ahead indent : List Char}
    {nodes : List Node} {indentedNodes behindNodes : Nat → List Node} {length : Nat}
    {first gap rest : List Shape}
    (written : site.source = .filled tag inner ending)
    (inside : inner.render = ahead ++ behind.render) (render : indented.render = ahead ++ indent)
    (separated : indented.Separated ∧ behind.Separated)
    (reading : tag.Reading entities nestingLimit scope 0)
    (matching : ending.name.name.Matches tag.name.name)
    (element_eq : ⟨reading.tag (byteLength site.front) length false, (joinNodes [] nodes).reverse⟩ =
      element)
    (aheadReads : indented.Reads entities nestingLimit reading.inner 0 indentedNodes 0)
    (behindReads : behind.Reads entities nestingLimit reading.inner 0 behindNodes 0)
    (children : childShapes nodes = first ++ rest)
    (aheadShapes : ∀ place, childShapes (indentedNodes place) = first ++ gap)
    (behindShapes : ∀ place, childShapes (behindNodes place) = rest)
    (blank : IsBlankGap gap) (spaced : gap = indentGap element.indent)
    (last : ∀ shape ∈ rest, shape.isElement = false) :
    site.Edits (fun value =>
        .insert (byteLength (site.front ++ (tag.render ++ closing false) ++ ahead))
          (String.ofList (indent ++ signatureElement value))) (Appended site) := by
  obtain ⟨opening, closed, quoted, equal, renders⟩ := exists_opening_signatureElement
  have quoted' : (tag.render ++ closing false ++ ahead ++ indent ++ opening).getLast? =
      some '"' := by
    rw [List.getLast?_append, quoted]
    rfl
  refine ⟨⟨'"', _, closed ++ behind.render ++ ending.render, .inr rfl, quoted'⟩, ?_, ?_⟩
  · intro value
    have text : site.text = (site.front ++ (tag.render ++ closing false) ++ ahead) ++
        (behind.render ++ (ending.render ++ site.behind)) := by
      rw [Site.text, Site.around, written, ElementSource.render, filledRender, inside]
      simp
    rw [text, TextEdit.apply_insert _ rfl]
    simp [Site.around, equal, Slot.fill]
  · intro value allowed
    obtain ⟨uri?, signatureReads, found, signature, held, shape⟩ :=
      exists_reads_signature entities reading.inner allowed
    have whole := aheadReads.append (signature.before behindReads)
    have sources : (ElementSource.filled tag
        (indented.append ((signatureSource value allowed).before behind)) ending).inner.sources =
          indented.sources ++ signatureSource value allowed :: behind.sources := by
      rw [ElementSource.inner, Content.sources_append, ElementSource.sources_before]
    have newSeparated := ((signatureSource value allowed).separated_before behind).mpr
      ⟨trivial, separated.2⟩
    refine ⟨.filled tag (indented.append ((signatureSource value allowed).before behind)) ending, _,
      ?_, ⟨?_, ?_, reading.reads_filled whole matching⟩, ?_⟩
    · rw [ElementSource.render, filledRender, Content.render_append, ElementSource.render_before,
        render, (renders value allowed).1]
      simp [Slot.fill]
    · rw [written]
      rfl
    · exact (Content.separated_append (ElementSource.beginsWithText_before _ _)).mpr
        ⟨separated.1, newSeparated⟩
    · have before : element.shape = .element tag.name.name reading.uri?
          (settledShapes reading.inner reading.valued) (first ++ rest) := by
        rw [← element_eq, reading.shape_element, children]
      have plain (unqualified : element.tag.name.qualifier = "") : uri? = element.tag.uri? := by
        rw [← element_eq] at unqualified ⊢
        exact reading.signatureUri_eq unqualified found
      have default : ∃ tagReading : site.source.tag.Reading entities nestingLimit scope 0,
          uri? = tagReading.inner.find? "" := by
        rw [written]
        exact ⟨reading, Scope.eq_find?_of_unqualified rfl found⟩
      refine .intro last blank spaced (by rw [written]; rfl) default plain ?_ ?_ before ?_
      · intro undeclared plainUri unsigned
        have count := length_filter_childShapes (indentedNodes 0)
        have gapless : gap.filter Shape.isElement = [] := by
          cases blank <;> rfl
        rw [aheadShapes, aheadReads.length_sources undeclared, List.filter_append, gapless,
          List.append_nil] at count
        exact signatureFits_appended sources blank count plainUri unsigned
      · intro plainUri unsigned
        have spot : Slot.spot ⟨'"', _, closed ++ behind.render ++ ending.render, .inr rfl, quoted'⟩
            value = (signatureSpot value allowed).movedBy
                  (byteLength (tag.render ++ closing false) + byteLength indented.render) := by
          simp [Slot.spot, Span.movedBy, (renders value allowed).2, render, Nat.add_assoc]
        rw [spot]
        refine held.signature (fun _ => ?_) fun place => ?_
        · rw [← Element.isNamed_shape, shape]
          exact isNamed_signatureShape value plainUri
        · refine ⟨_, _, (elements_joinNodes_across _ _ _).trans (by rw [Nat.add_assoc place]), ?_⟩
          have shapes := filter_isNamed_childShapes
            (indentedNodes (place + byteLength (tag.render ++ closing false))) "signature"
          have gapless : gap.filter (·.isNamed "signature") = [] := by
            cases blank <;> rfl
          rw [aheadShapes, List.filter_append, gapless, List.filter_eq_nil_iff.mpr
            (by simpa using unsigned), List.append_nil, eq_comm, List.map_eq_nil_iff,
            List.filter_eq_nil_iff] at shapes
          simpa using shapes
      · intro place
        rw [reading.shape_element, childShapes_across, shape, aheadShapes, behindShapes,
          List.append_assoc]

/-- A new signature element stands behind the last element, on a line of its own if that one has
such a line. -/
theorem Site.edits_append_last (site : Site entities scope element) {tag : TagSource}
    {inner : Content} {ending : EndSource} (written : site.source = .filled tag inner ending)
    {last : Element} {earlier : List Node}
    (found : lastElement? element.children.reverse = some (last, earlier))
    (own : ¬ ∀ bound, entities.Before bound → last.tag.span.start < bound) :
    site.Edits (Declaration.append ⟨element⟩ site.text) (Appended site) := by
  have reads := site.reads
  rw [written] at reads
  obtain ⟨reading, nodes, inside, matching, reading_eq⟩ := reads.filled_inv
  rw [reading.settles rfl] at inside
  have element_eq := site.element_eq
  rw [reading_eq] at element_eq
  have filled : startsWith ['>', '/'] (slice element.tag.span site.text).reverse = false := by
    rw [site.slice_eq, endsEmpty, written]
    rfl
  have start : byteLength (site.front ++ (tag.render ++ closing false)) =
      byteLength site.front + byteLength (tag.render ++ closing false) := byteLength_append _ _
  obtain ⟨skipped, split, none⟩ := lastElement?_eq_some found
  have children : elements (nodes (byteLength (site.front ++ (tag.render ++ closing false)))) =
      elements earlier.reverse ++ last :: [] := by
    have reversed : element.children = earlier.reverse ++ last.node :: skipped.reverse := by
      rw [← List.reverse_reverse element.children, split]
      simp
    have same := congrArg elements reversed
    rw [← element_eq, elements_reverse, elements_joinNodes, ← start, elements_append,
      elements_node_cons, elements_reverse skipped, none] at same
    simpa using same
  have indent : IsBlank (indentAfter earlier) := by
    have allowed : AllowedTexts element.children.reverse := by
      rw [← element_eq, List.reverse_reverse]
      exact AllowedTexts.joinNodes (by simp [AllowedTexts]) (inside.allowed _)
    rw [split] at allowed
    exact indentAfter_blank fun content member =>
      allowed content (List.mem_append_right _ (List.mem_cons_of_mem _ member))
  have edit_eq : Declaration.append ⟨element⟩ site.text = fun value => .insert last.tag.span.stop
      (String.ofList (indentAfter earlier ++ signatureElement value)) := by
    funext value
    rw [Declaration.append]
    dsimp only
    rw [if_neg (by simp [filled]), found]
  obtain ⟨located⟩ := (inside.locate children).resolve_right own
  have stop : last.tag.span.stop = byteLength (site.front ++ (tag.render ++ closing false) ++
      (located.first.render ++ located.source.render)) := by
    rw [(site.ofChild reading located written).span_eq, ← List.append_assoc, byteLength_append _
      located.source.render]
    rfl
  obtain ⟨gap, gapNodes, gapRender, gapSeparated, -, gapReads, gapShapes, blank⟩ :=
    indent.exists_content entities reading.inner
  have spaced : childShapes gapNodes = indentGap element.indent := by
    rw [gapShapes, Element.indent, found]
  rw [← gapShapes] at blank
  have parts := site.separated
  rw [written] at parts
  obtain ⟨firstSeparated, lastSeparated, restSeparated⟩ := located.separated_iff.mp parts
  obtain ⟨firstReads, sourceReads, restReads⟩ := located.reads
  have children : childShapes (nodes (byteLength site.front +
      byteLength (tag.render ++ closing false))) =
        (childShapes (located.firstNodes 0) ++ [last.shape]) ++
          childShapes (located.restNodes 0) := by
    rw [located.childShapes_eq _ 0]
    simp
  have aheadShapes (place : Nat) : childShapes (located.firstNodes place ++
      (located.reading (place + byteLength located.first.render)).node :: gapNodes) =
        (childShapes (located.firstNodes 0) ++ [last.shape]) ++ childShapes gapNodes := by
    have lastShape := located.sourceReads.shape_eq (place + byteLength located.first.render)
      (byteLength (site.front ++ (tag.render ++ closing false)) + byteLength located.first.render)
    rw [located.element_eq] at lastShape
    rw [childShapes_across, firstReads.childShapes_eq place 0, lastShape]
    simp
  have lacking : ∀ shape ∈ childShapes (located.restNodes 0), shape.isElement = false := by
    have count := length_filter_childShapes (located.restNodes
      (byteLength (site.front ++ (tag.render ++ closing false)) + byteLength located.first.render +
        byteLength located.source.render))
    rw [located.later_eq, restReads.childShapes_eq _ 0, List.length_nil, List.length_eq_zero_iff,
      List.filter_eq_nil_iff] at count
    simpa using count
  have separated : (located.first.append (located.source.before gap)).Separated :=
    (Content.separated_append (ElementSource.beginsWithText_before _ _)).mpr
      ⟨firstSeparated, (ElementSource.separated_before _ _).mpr ⟨lastSeparated, gapSeparated⟩⟩
  have render : (located.first.append (located.source.before gap)).render =
      (located.first.render ++ located.source.render) ++ indentAfter earlier := by
    rw [Content.render_append, ElementSource.render_before, gapRender, List.append_assoc]
  have inside' : inner.render =
      (located.first.render ++ located.source.render) ++ located.rest.render := by
    rw [located.render_eq, List.append_assoc]
  rw [edit_eq, stop]
  exact site.edits_append_at written inside' render ⟨separated, restSeparated⟩ reading matching
    element_eq (firstReads.append (sourceReads.before gapReads)) restReads children aheadShapes
    (fun place => restReads.childShapes_eq place 0) blank spaced lacking

/-- A new signature element stands in front of the end tag if there is no other element. -/
theorem Site.edits_append_none (site : Site entities scope element) {tag : TagSource}
    {inner : Content} {ending : EndSource} (written : site.source = .filled tag inner ending)
    (missing : lastElement? element.children.reverse = none) :
    site.Edits (Declaration.append ⟨element⟩ site.text) (Appended site) := by
  have reads := site.reads
  rw [written] at reads
  obtain ⟨reading, nodes, inside, matching, reading_eq⟩ := reads.filled_inv
  rw [reading.settles rfl] at inside
  have element_eq := site.element_eq
  rw [reading_eq] at element_eq
  have filled : startsWith ['>', '/'] (slice element.tag.span site.text).reverse = false := by
    rw [site.slice_eq, endsEmpty, written]
    rfl
  have place : lastOccurrence? "</".toList (slice element.tag.span site.text) =
      some (byteLength (tag.render ++ closing false) + byteLength inner.render) := by
    rw [site.slice_eq, written, lastOccurrence_endTag]
  have edit_eq : Declaration.append ⟨element⟩ site.text = fun value =>
      .insert (byteLength (site.front ++ (tag.render ++ closing false) ++ inner.render))
        (String.ofList ([] ++ signatureElement value)) := by
    funext value
    rw [Declaration.append]
    dsimp only
    rw [if_neg (by simp [filled]), missing, place, site.span_start]
    simp [byteLength_append, Nat.add_assoc]
  have separated := site.separated
  rw [written] at separated
  have whole : inner.render = inner.render ++ Content.nil.render := (List.append_nil _).symm
  rw [edit_eq]
  exact site.edits_append_at written whole (List.append_nil _).symm
    ⟨separated, trivial⟩ reading matching element_eq inside (.nil reading.inner 0)
    (List.append_nil _).symm (fun place => by rw [List.append_nil, inside.childShapes_eq place])
    (fun _ => rfl) .none (by rw [Element.indent, missing]; rfl) (by simp)

end

end RunSigning.Markup
