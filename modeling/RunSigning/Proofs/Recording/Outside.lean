import RunSigning.Proofs.Recording.Order
import RunSigning.Proofs.Recording.Range

/-
This file says what recording leaves alone. The text around the declaration survives, and the
declarations behind it are moved as a whole, all by the same number of bytes.
-/

namespace RunSigning.Markup
open RunSigning.Text

section
variable {scope : Scope} {element child : Element}

theorem ElementSource.byteLength_render_pos (source : ElementSource) :
    0 < byteLength source.render := by
  rw [render_eq_tag, byteLength_append]
  exact Nat.add_pos_left source.tag.byteLength_render_pos _

/-- A child begins behind the start tag of its parent, and its tokens are among those of it. -/
theorem Site.exists_childSite {entities : Entities} (site : Site entities scope element)
    (undeclared : entities = []) (member : child ∈ elements element.children) :
    ∃ (inner : Scope) (childSite : Site entities inner child), childSite.text = site.text ∧
      byteLength site.front < byteLength childSite.front ∧
      childSite.source.tokens (byteLength childSite.front) <:+:
        site.source.tokens (byteLength site.front) := by
  obtain ⟨earlier, later, split⟩ := List.append_of_mem member
  obtain ⟨tag, inner, ending, reading, nodes, located, written, -⟩ :=
    site.exists_child split (not_forall_before_nil undeclared _)
  have place : byteLength (site.ofChild reading located written).front =
      byteLength site.front + byteLength (tag.render ++ closing false) +
        byteLength located.first.render := by
    simp only [ofChild, byteLength_append]
  refine ⟨_, site.ofChild reading located written, site.text_ofChild reading located written,
    ?_, ?_⟩
  · have filled := tag.byteLength_render_pos
    rw [place, byteLength_append]
    omega
  · rw [place]
    exact located.tokens_infix written

end

end RunSigning.Markup

namespace RunSigning
open RunSigning.Text RunSigning.Markup

section
variable {scope : Scope} {element : Element}

/-- A signature is appended behind the beginning of the declaration. -/
theorem Declaration.start_lt_append (site : Site [] scope element) (value : String) :
    byteLength site.front < (Declaration.append ⟨element⟩ site.text value).span.start := by
  rw [append]
  dsimp only
  rw [site.slice_eq, endsEmpty]
  cases written : site.source with
  | empty tag =>
      have filled := tag.byteLength_render_pos
      rw [ElementSource.isEmpty, if_pos rfl, site.span_eq, written, ElementSource.render,
        byteLength_append, show byteLength (closing true) = 2 from rfl]
      dsimp only
      omega
  | filled tag inner ending =>
      rw [ElementSource.isEmpty, if_neg Bool.false_ne_true]
      cases found : lastElement? element.children.reverse with
      | some pair =>
          obtain ⟨last, earlier⟩ := pair
          obtain ⟨inside, lastSite, -, behind, -⟩ :=
            site.exists_childSite rfl (List.mem_of_getLast? (getLast?_of_lastElement? found))
          dsimp only [TextEdit.insert]
          rw [lastSite.span_eq]
          exact Nat.lt_add_right _ behind
      | none =>
          have filled := tag.byteLength_render_pos
          rw [lastOccurrence_endTag, site.span_start]
          simp only [TextEdit.insert, byteLength_append]
          omega

/-- A value is recorded behind the beginning of the declaration. -/
theorem Declaration.start_lt_record (site : Site [] scope element) (value : String) :
    byteLength site.front < (Declaration.record ⟨element⟩ site.text value).span.start := by
  rw [record]
  cases found : signature? ⟨element⟩ with
  | none => exact start_lt_append site value
  | some signature =>
      have member : signature ∈ elements element.children := List.mem_of_find?_eq_some found
      obtain ⟨inside, signatureSite, same, behind, -⟩ := site.exists_childSite rfl member
      dsimp only
      cases valued : signature.attribute? "value" with
      | none =>
          dsimp only [TextEdit.insert]
          rw [signatureSite.span_start]
          omega
      | some existing =>
          obtain ⟨earlier, attr, later, -, plain, -, span⟩ := signatureSite.exists_value valued
          dsimp only
          rw [span, attr.valueSpan_eq plain, byteLength_append]
          dsimp only
          omega

end

end RunSigning

namespace RunSigning.Markup
open RunSigning.Text

/-- A value is recorded within the declaration. -/
theorem DeclarationSource.edit_inside {scope : Scope} (declaration : DeclarationSource scope)
    (value : String) :
    0 < (declaration.edit value).span.start ∧
      (declaration.edit value).span.start ≤ (declaration.edit value).span.stop ∧
      (declaration.edit value).span.stop ≤ byteLength declaration.source.render := by
  have applied := declaration.apply_edit value
  rw [TextEdit.apply, String.toList_ofList] at applied
  have placed : (declaration.edit value).span.IsPlaced declaration.source.render := by
    rw [← isSome_around?_iff]
    cases cut : around? (declaration.edit value).span declaration.source.render with
    | none => simp [cut] at applied
    | some parts => rfl
  obtain ⟨-, ⟨front, last, split, stop⟩, ordered⟩ := placed
  refine ⟨?_, ordered, ?_⟩
  · have behind := Declaration.start_lt_record declaration.site value
    rwa [declaration.text_site] at behind
  · have length := congrArg byteLength split
    rw [byteLength_append] at length
    omega

namespace Hole

variable (hole : Hole) (declaration : DeclarationSource hole.scope)

/-- A declaration in which a value is recorded leaves another one in its hole. -/
theorem exists_refilled {held : Declaration}
    (declared : (hole.fill declaration).declarations[hole.index]? = some held) {value : String}
    {changed : Document} (success : (hole.fill declaration).recorded held value = .ok changed) :
    ∃ other : DeclarationSource hole.scope, changed = hole.fill other := by
  obtain rfl := Option.some.inj ((hole.declarations_fill declaration).symm.trans declared)
  rw [Document.recorded, recording_fill] at success
  have text := (Document.apply_eq_ok_iff.mp success).symm.trans (hole.apply_fill declaration value)
  have spelled := changed.spelled
  rw [Except.ok.inj text] at spelled
  obtain ⟨other, written⟩ := (hole.parse_edited_iff declaration value).mp ⟨_, spelled⟩
  refine ⟨other, Document.eq_of_text ?_⟩
  rw [Except.ok.inj text, text_fill, written]

/-- The hole is as large as what stands in it. -/
theorem span_reading : (declaration.reading (byteLength hole.front)).tag.span =
    ⟨byteLength hole.front, byteLength hole.front + byteLength declaration.source.render⟩ :=
  declaration.reads.span _

theorem length_fill : byteLength (hole.fill declaration).text.toList =
    byteLength hole.front + byteLength declaration.source.render + byteLength hole.behind := by
  rw [text_fill, String.toList_ofList, Hole.text, byteLength_append, byteLength_append,
    Nat.add_assoc]

/-- What is in the hole makes no difference to the number of declarations. -/
theorem length_declarations_fill (other : DeclarationSource hole.scope) :
    (hole.fill declaration).declarations.length = (hole.fill other).declarations.length := by
  have count (held : DeclarationSource hole.scope) : (hole.fill held).declarations.length =
      hole.index + (((elements (hole.restNodes 0)).filter (·.isNamed "start")).length + 1) := by
    have first (place : Nat) := hole.firstReads.length_filter_elements "start" place 0
    have rest (place : Nat) := hole.restReads.length_filter_elements "start" place 0
    rw [Document.declarations, fill, hole.source.declarations_tree, List.length_map, rootReading,
      elements_joinNodes_across, List.filter_append, List.filter_cons, if_pos (held.named _),
      List.length_append, List.length_cons, first, rest]
    rfl
  rw [count, count]

end Hole

end RunSigning.Markup

namespace RunSigning
open RunSigning.Text RunSigning.Markup

/-- The spans of the start declarations, in order. -/
def Document.spans (document : Document) : List Span :=
  document.declarations.map (·.element.tag.span)

/-- The documents differ in one declaration at most, which has grown by a number of bytes, below
zero if it has shrunk. The text around it is the same, the declarations in front of it stay where
they were, and those behind it are moved by the number of bytes. -/
structure Document.Resized (document : Document) (index : Nat) (growth : Int)
    (changed : Document) : Prop where
  grows : (byteLength changed.text.toList : Int) = byteLength document.text.toList + growth
  around : ∀ span ∈ document.spans[index]?, ∃ first old new last,
    document.text.toList = first ++ (old ++ last) ∧
    changed.text.toList = first ++ (new ++ last) ∧
    span = ⟨byteLength first, byteLength first + byteLength old⟩
  declared : changed.spans.length = document.spans.length
  unmoved : ∀ other < index, changed.spans[other]? = document.spans[other]?
  resized : ∀ span ∈ document.spans[index]?, ∃ stop, changed.spans[index]? = some ⟨span.start, stop⟩ ∧
    (stop : Int) = span.stop + growth
  moved : ∀ other > index, ∀ span ∈ document.spans[other]?, ∃ moved,
    changed.spans[other]? = some moved ∧ (moved.start : Int) = span.start + growth ∧
      (moved.stop : Int) = span.stop + growth ∧
      slice moved changed.text.toList = slice span document.text.toList

/-- A declaration of a document stands in a hole of it. -/
theorem Document.exists_hole {document : Document} (plain : document.tree.hasDoctype = false)
    {index : Nat} (declared : index < document.declarations.length) :
    ∃ (hole : Hole) (declaration : DeclarationSource hole.scope),
      document = hole.fill declaration ∧ hole.index = index := by
  obtain ⟨tags, content, nodes, place, separated, reads, text, declarations_eq⟩ :=
    exists_rootTags plain (List.ne_nil_of_length_pos (Nat.zero_lt_of_lt declared))
  rw [declarations_eq, List.length_map] at declared
  obtain ⟨earlier, later, split, named, placed⟩ :=
    exists_split_of_filter (List.getElem?_eq_getElem declared)
  obtain ⟨located⟩ := (reads.locate split).resolve_right (not_forall_before_nil rfl _)
  obtain ⟨firstSeparated, sourceSeparated, restSeparated⟩ := located.separated_iff.mp separated
  obtain ⟨firstReads, -, restReads⟩ := located.reads
  refine ⟨⟨tags, located.first, located.rest, located.firstNodes, located.restNodes, firstReads,
    restReads, firstSeparated, restSeparated⟩, .ofLocated located sourceSeparated named,
    Document.eq_of_text ?_, ?_⟩
  · rw [text, located.render_eq, Hole.text_fill]
    simp [RootTags.around, Hole.text, Hole.front, Hole.behind, DeclarationSource.ofLocated]
  · have first := located.firstReads.length_filter_elements "start" 0 place
    rw [located.earlier_eq, placed] at first
    exact first

end RunSigning

namespace RunSigning.Markup
open RunSigning.Text

namespace Hole

variable (hole : Hole) (declaration : DeclarationSource hole.scope)

theorem spans_fill : (hole.fill declaration).spans[hole.index]? = some
    ⟨byteLength hole.front, byteLength hole.front + byteLength declaration.source.render⟩ := by
  rw [Document.spans, List.getElem?_map, hole.declarations_fill, Option.map_some,
    hole.span_reading]

/-- The declaration is cut out of the text. -/
theorem slice_fill {span : Span}
    (found : (hole.fill declaration).spans[hole.index]? = some span) :
    slice span (hole.fill declaration).text.toList = declaration.source.render := by
  rw [spans_fill] at found
  obtain rfl := Option.some.inj found
  rw [text_fill, String.toList_ofList, Hole.text, slice_append rfl rfl]

end Hole

namespace TwoHoles

variable (holes : TwoHoles) (first second : DeclarationSource holes.scope)

/-- The second hole is behind what stands in the first one. -/
theorem byteLength_front_right : byteLength (holes.right first).front =
    byteLength (holes.left second).front + byteLength first.source.render +
      byteLength holes.middle.render := by
  simp [left, right, Hole.front, Nat.add_assoc]

theorem spans_left : (holes.fill first second).spans[holes.leftIndex]? = some
    ⟨byteLength (holes.left second).front,
      byteLength (holes.left second).front + byteLength first.source.render⟩ :=
  (holes.left second).spans_fill first

theorem spans_right : (holes.fill first second).spans[holes.rightIndex]? = some
    ⟨byteLength (holes.right first).front,
      byteLength (holes.right first).front + byteLength second.source.render⟩ := by
  rw [fill_eq_right, ← holes.index_right first]
  exact (holes.right first).spans_fill second

/-- A declaration in the second hole leaves the first one where it was. -/
theorem spans_left_eq (other : DeclarationSource holes.scope) :
    (holes.fill first other).spans[holes.leftIndex]? =
      (holes.fill first second).spans[holes.leftIndex]? := by
  rw [spans_left, spans_left]
  rfl

/-- A declaration in the first hole moves the second one, as it is. -/
theorem moved_right (other : DeclarationSource holes.scope) {span : Span}
    (found : (holes.fill first second).spans[holes.rightIndex]? = some span) :
    ∃ moved, (holes.fill other second).spans[holes.rightIndex]? = some moved ∧
      moved.start + byteLength first.source.render =
        span.start + byteLength other.source.render ∧
      moved.stop + byteLength first.source.render =
        span.stop + byteLength other.source.render ∧
      slice moved (holes.fill other second).text.toList =
        slice span (holes.fill first second).text.toList := by
  have cut (held : DeclarationSource holes.scope) {span : Span}
      (found : (holes.fill held second).spans[holes.rightIndex]? = some span) :
      slice span (holes.fill held second).text.toList = second.source.render := by
    rw [fill_eq_right, ← holes.index_right held] at found
    rw [fill_eq_right]
    exact (holes.right held).slice_fill second found
  have moved := holes.spans_right other second
  refine ⟨_, moved, ?_, ?_, (cut other moved).trans (cut first found).symm⟩
  · rw [spans_right] at found
    obtain rfl := Option.some.inj found
    rw [byteLength_front_right _ _ second, byteLength_front_right _ _ second]
    dsimp only
    omega
  · rw [spans_right] at found
    obtain rfl := Option.some.inj found
    rw [byteLength_front_right _ _ second, byteLength_front_right _ _ second]
    dsimp only
    omega

end TwoHoles

end RunSigning.Markup

namespace RunSigning
open RunSigning.Text RunSigning.Markup

variable {document : Document}

theorem Document.length_spans (document : Document) :
    document.spans.length = document.declarations.length :=
  List.length_map _

/-- Declarations do not overlap, and stand in the order in which they are listed. -/
theorem Document.spans_apart (plain : document.tree.hasDoctype = false) :
    document.spans.Pairwise fun first second => first.stop ≤ second.start := by
  rw [List.pairwise_iff_getElem]
  intro first second inside inside' ordered
  rw [document.length_spans] at inside'
  obtain ⟨holes, left, right, rfl, rfl, rfl⟩ := document.exists_twoHoles plain ordered inside'
  obtain ⟨_, one⟩ := List.getElem?_eq_some_iff.mp (holes.spans_left left right)
  obtain ⟨_, two⟩ := List.getElem?_eq_some_iff.mp (holes.spans_right left right)
  rw [one, two, holes.byteLength_front_right left right]
  exact Nat.le_add_right _ _

section
variable {changed : Document} {index : Nat} {declaration : Declaration} {value : String}

/-- A value is recorded in a hole of the document. -/
theorem Document.exists_refilled (plain : document.tree.hasDoctype = false)
    (declared : document.declarations[index]? = some declaration)
    (success : document.recorded declaration value = .ok changed) :
    ∃ (hole : Hole) (old new : DeclarationSource hole.scope),
      document = hole.fill old ∧ changed = hole.fill new ∧ hole.index = index := by
  obtain ⟨hole, old, rfl, rfl⟩ :=
    exists_hole plain (List.getElem?_eq_some_iff.mp declared).choose
  obtain ⟨new, rfl⟩ := hole.exists_refilled old declared success
  exact ⟨hole, old, new, rfl, rfl, rfl⟩

/-- Declarations in front of the recorded one stay where they were. -/
theorem Document.unmoved_of_recorded (plain : document.tree.hasDoctype = false)
    (declared : document.declarations[index]? = some declaration)
    (success : document.recorded declaration value = .ok changed) {other : Nat}
    (earlier : other < index) : changed.spans[other]? = document.spans[other]? := by
  obtain ⟨holes, left, right, rfl, rfl, rfl⟩ := document.exists_twoHoles plain earlier
    (List.getElem?_eq_some_iff.mp declared).choose
  rw [holes.fill_eq_right, ← holes.index_right left] at declared
  rw [holes.fill_eq_right] at success
  obtain ⟨new, rfl⟩ := (holes.right left).exists_refilled right declared success
  have filled := holes.fill_eq_right left new
  rw [← filled]
  exact holes.spans_left_eq left right new

/-- Declarations behind the recorded one are moved, as they are. -/
theorem Document.moved_of_recorded (plain : document.tree.hasDoctype = false)
    (declared : document.declarations[index]? = some declaration)
    (success : document.recorded declaration value = .ok changed) {other : Nat}
    (later : index < other) {span : Span} (found : document.spans[other]? = some span) :
    ∃ moved, changed.spans[other]? = some moved ∧
      moved.start + byteLength document.text.toList =
        span.start + byteLength changed.text.toList ∧
      moved.stop + byteLength document.text.toList =
        span.stop + byteLength changed.text.toList ∧
      slice moved changed.text.toList = slice span document.text.toList := by
  have inside := (List.getElem?_eq_some_iff.mp found).choose
  rw [document.length_spans] at inside
  obtain ⟨holes, left, right, rfl, rfl, rfl⟩ := document.exists_twoHoles plain later inside
  obtain ⟨new, rfl⟩ := (holes.left right).exists_refilled left declared success
  obtain ⟨moved, found', start, stop, same⟩ := holes.moved_right left right new found
  have old := (holes.left right).length_fill left
  have length := (holes.left right).length_fill new
  change byteLength (holes.fill left right).text.toList = _ at old
  exact ⟨moved, found', by omega, by omega, same⟩

/-- Recording resizes the declaration and nothing else. -/
theorem Document.resized_of_recorded (plain : document.tree.hasDoctype = false)
    (declared : document.declarations[index]? = some declaration)
    (success : document.recorded declaration value = .ok changed) :
    document.Resized index
      ((byteLength changed.text.toList : Int) - byteLength document.text.toList) changed := by
  obtain ⟨hole, old, new, document_eq, changed_eq, index_eq⟩ :=
    exists_refilled plain declared success
  refine ⟨by omega, ?_, ?_, fun other => unmoved_of_recorded plain declared success, ?_, ?_⟩
  · subst document_eq changed_eq index_eq
    intro span found
    rw [hole.spans_fill] at found
    obtain rfl := Option.some.inj found
    exact ⟨hole.front, old.source.render, new.source.render, hole.behind,
      by rw [Hole.text_fill, String.toList_ofList, Hole.text],
      by rw [Hole.text_fill, String.toList_ofList, Hole.text], rfl⟩
  · subst document_eq changed_eq
    rw [length_spans, length_spans, hole.length_declarations_fill]
  · subst document_eq changed_eq index_eq
    intro span found
    rw [hole.spans_fill] at found
    obtain rfl := Option.some.inj found
    refine ⟨_, hole.spans_fill new, ?_⟩
    rw [hole.length_fill, hole.length_fill]
    push_cast
    omega
  · intro other later span found
    obtain ⟨moved, found', start, stop, same⟩ :=
      moved_of_recorded plain declared success later found
    exact ⟨moved, found', by omega, by omega, same⟩

end

/-- In a document without document type declaration the start declarations stand one behind the
other. Recording a value edits the text within one of them, behind its first byte. If the edit is
accepted, the text around this declaration survives, the declarations in front of it stay where
they were, and those behind it are moved, as they are, by the number of bytes by which the text has
grown. -/
theorem Document.recorded_outside (plain : document.tree.hasDoctype = false) :
    (∀ span ∈ document.spans, span.start < span.stop) ∧
    (document.spans.Pairwise fun first second => first.stop ≤ second.start) ∧
    ∀ (index : Nat) (declaration : Declaration) (value : String),
      document.declarations[index]? = some declaration →
        ∃ edit, document.recording declaration value = .ok edit ∧
          declaration.element.tag.span.start < edit.span.start ∧
          edit.span.start ≤ edit.span.stop ∧
          edit.span.stop ≤ declaration.element.tag.span.stop ∧
          ∀ changed, document.apply edit = .ok changed → ∃ growth,
            document.Resized index growth changed := by
  refine ⟨?_, spans_apart plain, ?_⟩
  · intro span member
    obtain ⟨index, inside, rfl⟩ := List.mem_iff_getElem.mp member
    obtain ⟨hole, declaration, rfl, rfl⟩ := exists_hole plain (document.length_spans ▸ inside)
    obtain ⟨_, found⟩ := List.getElem?_eq_some_iff.mp (hole.spans_fill declaration)
    have filled := declaration.source.byteLength_render_pos
    rw [found]
    dsimp only
    omega
  · intro index declaration value declared
    have resized (changed : Document)
        (success : document.recorded declaration value = .ok changed) :=
      resized_of_recorded plain declared success
    obtain ⟨hole, old, rfl, rfl⟩ :=
      exists_hole plain (List.getElem?_eq_some_iff.mp declared).choose
    have declared' := (hole.declarations_fill old).symm.trans declared
    obtain rfl := Option.some.inj declared'
    have recording := hole.recording_fill old value
    obtain ⟨start, ordered, stop⟩ := old.edit_inside value
    refine ⟨_, recording, ?_, ?_, ?_, ?_⟩
    · rw [hole.span_reading]
      simp only [TextEdit.movedBy, Span.movedBy]
      omega
    · simp only [TextEdit.movedBy, Span.movedBy]
      omega
    · rw [hole.span_reading]
      simp only [TextEdit.movedBy, Span.movedBy]
      omega
    · intro changed success
      refine ⟨_, resized changed ?_⟩
      rw [recorded, recording]
      exact success

theorem Document.recorded_outside_sampleConfig :
    ∃ edit changed growth, sampleConfig.declarations[0]? = some (sampleDeclaration 0) ∧
      sampleConfig.recording (sampleDeclaration 0) "longer" = .ok edit ∧
      sampleConfig.apply edit = .ok changed ∧ sampleConfig.Resized 0 growth changed := by
  have accepted : (sampleConfig.recorded (sampleDeclaration 0) "longer").toOption.isSome = true := by
    decide +kernel
  obtain ⟨-, -, outside⟩ :=
    Document.recorded_outside (show sampleConfig.tree.hasDoctype = false by decide +kernel)
  obtain ⟨edit, recording, -, -, -, resized⟩ :=
    outside 0 (sampleDeclaration 0) "longer" (getElem?_sampleConfig 0)
  rw [Document.recorded, recording] at accepted
  cases applied : sampleConfig.apply edit with
  | error error =>
      rw [show (Except.ok edit >>= sampleConfig.apply) = sampleConfig.apply edit from rfl,
        applied] at accepted
      cases accepted
  | ok changed =>
      obtain ⟨growth, resized⟩ := resized changed applied
      exact ⟨edit, changed, growth, getElem?_sampleConfig 0, recording, applied, resized⟩

end RunSigning
