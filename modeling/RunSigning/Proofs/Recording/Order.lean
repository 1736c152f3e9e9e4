import RunSigning.Proofs.Meaning.Reported
import RunSigning.Proofs.Recording.Edited
import RunSigning.Proofs.Recording.Refinement
import RunSigning.Proofs.Recording.Session

/-
This file records values in two declarations of a document. Neither edit is seen by the other, so
the order in which they are made does not matter, also if one of them is refused. Without declared
entities no edit stops the parser.
-/

namespace RunSigning
open RunSigning.Text RunSigning.Markup

/-- A document is known by its text. -/
theorem Document.eq_of_text {first second : Document} (same : first.text = second.text) :
    first = second :=
  Except.ok.inj ((ofText_eq_ok_iff.mpr rfl).symm.trans (ofText_eq_ok_iff.mpr same.symm))

/-- An edited text that declares no entity is accepted or refused. -/
theorem Document.isFatal_of_undeclared {document : Document} {edit : TextEdit} {edited : String}
    (applied : edit.apply document.text = .ok edited) (undeclared : declaredEntities edited = [])
    {refusal : Error} (refused : document.apply edit = .error refusal) :
    refusal.isFatal = false := by
  cases parsed : Tree.parse edited with
  | ok tree =>
      have accepted : document.apply edit = .ok ⟨edited, tree, parsed⟩ := by
        rw [apply_eq_ok_iff, applied]
      cases refused.symm.trans accepted
  | error failure =>
      rw [apply, applied] at refused
      dsimp only at refused
      rw [ofText_eq_error parsed] at refused
      obtain rfl := Except.error.inj refused
      exact (Tree.parse_gives undeclared).reports parsed

end RunSigning

namespace RunSigning.Markup
open RunSigning.Text

open Classical in
/-- The declaration after an attempt to record a value in it. -/
noncomputable def DeclarationSource.attempt {scope : Scope} (declaration : DeclarationSource scope)
    (value : String) : DeclarationSource scope :=
  if written : IsDeclaration scope (declaration.edited value) then written.choose else declaration

namespace Hole

variable (hole : Hole) (declaration : DeclarationSource hole.scope)

/-- In a document the value is recorded by the same edit, moved to the hole. -/
theorem recording_fill (value : String) :
    (hole.fill declaration).recording ⟨declaration.reading (byteLength hole.front)⟩ value =
      .ok ((declaration.edit value).movedBy (byteLength hole.front)) := by
  have text : (hole.fill declaration).text.toList =
      hole.front ++ (declaration.source.render ++ hole.behind) := by
    rw [text_fill, String.toList_ofList, Hole.text]
  rw [Document.recording, Document.record, text, declaration.isPlaced, if_pos rfl,
    declaration.record_eq]

/-- The edit writes the edited declaration into the hole. -/
theorem apply_fill (value : String) :
    ((declaration.edit value).movedBy (byteLength hole.front)).apply (hole.fill declaration).text =
      .ok (String.ofList (hole.text (declaration.edited value))) :=
  TextEdit.apply_movedBy (declaration.apply_edit value) hole.front hole.behind

variable {declaration} in
/-- An edited declaration that is a declaration again is accepted in the hole. -/
theorem apply_of_edited {signed : DeclarationSource hole.scope} {value : String}
    (render : signed.source.render = declaration.edited value) :
    (hole.fill declaration).apply ((declaration.edit value).movedBy (byteLength hole.front)) =
      .ok (hole.fill signed) := by
  rw [Document.apply_eq_ok_iff, hole.apply_fill, ← render]
  rfl

/-- Whatever is written in the hole declares no entity. -/
theorem undeclared_text (middle : List Char) :
    declaredEntities (String.ofList (hole.text middle)) = [] := by
  have written : hole.text middle = hole.source.opening ++ (hole.source.prolog ++
      (hole.tag.render ++ closing false ++ (hole.first.render ++ (middle ++ hole.behind)))) := by
    simp [Hole.text, Hole.front]
  rw [declaredEntities, String.toList_ofList, written, hole.source.scan_into hole.tag_eq,
    Scan.prepend]
  dsimp only
  rw [List.filterMap_append, List.filterMap_append, hole.tag.tokens_entity,
    Scan.undeclared_inside rfl, List.append_nil, List.append_nil]
  exact hole.undeclared

/-- In a document, recording a value in the declaration attempts this edit. -/
theorem step_eq (value : String) :
    (hole.fill declaration).step (.record (.index hole.index) value) =
      (hole.fill declaration).attempt ((declaration.edit value).movedBy (byteLength hole.front)) := by
  have found : (hole.fill declaration).target? (.index hole.index) = some _ :=
    hole.declarations_fill declaration
  rw [Document.step_record found, recording_fill]
  rfl

/-- Recording a value in the declaration changes what is in the hole, or is refused. -/
theorem step_record (value : String) :
    ∃ answer, (hole.fill declaration).step (.record (.index hole.index) value) =
        .ok (hole.fill (declaration.attempt value), answer) ∧
      (answer.isAccepted = true ↔ IsDeclaration hole.scope (declaration.edited value)) := by
  rw [step_eq]
  by_cases written : IsDeclaration hole.scope (declaration.edited value)
  · have attempted : declaration.attempt value = written.choose := dif_pos written
    rw [Document.attempt_of_apply (hole.apply_of_edited written.choose_spec), attempted]
    exact ⟨_, rfl, iff_of_true rfl written⟩
  · have attempted : declaration.attempt value = declaration := dif_neg written
    rw [attempted]
    cases refused : (hole.fill declaration).apply
        ((declaration.edit value).movedBy (byteLength hole.front)) with
    | ok changed =>
        rw [Document.apply_eq_ok_iff, hole.apply_fill] at refused
        have spelled := changed.spelled
        rw [← Except.ok.inj refused] at spelled
        exact absurd ((hole.parse_edited_iff declaration value).mp ⟨_, spelled⟩) written
    | error refusal =>
        have reported := Document.isFatal_of_undeclared (hole.apply_fill declaration value)
          (hole.undeclared_text _) refused
        rw [Document.attempt_of_refused refused reported]
        exact ⟨_, rfl, iff_of_false (by simp [SessionAnswer.isAccepted]) written⟩

end Hole

/-- What is written in a document around two start declarations. -/
structure TwoHoles extends RootTags where
  first : Content
  middle : Content
  rest : Content
  firstNodes : Nat → List Node
  middleNodes : Nat → List Node
  restNodes : Nat → List Node
  firstReads : first.Reads [] nestingLimit reading.inner 0 firstNodes 0
  middleReads : middle.Reads [] nestingLimit reading.inner 0 middleNodes 0
  restReads : rest.Reads [] nestingLimit reading.inner 0 restNodes 0
  firstSeparated : first.Separated
  middleSeparated : middle.Separated
  restSeparated : rest.Separated

namespace TwoHoles

variable (holes : TwoHoles)

/-- The first hole, with a declaration in the second one. -/
def left (second : DeclarationSource holes.scope) : Hole where
  toRootTags := holes.toRootTags
  first := holes.first
  rest := holes.middle.append (second.source.before holes.rest)
  firstNodes := holes.firstNodes
  restNodes := _
  firstReads := holes.firstReads
  restReads := holes.middleReads.append (second.reads.before holes.restReads)
  firstSeparated := holes.firstSeparated
  restSeparated := (Content.separated_append (second.source.beginsWithText_before _)).mpr
    ⟨holes.middleSeparated,
      (second.source.separated_before _).mpr ⟨second.separated, holes.restSeparated⟩⟩

/-- The second hole, with a declaration in the first one. -/
def right (first : DeclarationSource holes.scope) : Hole where
  toRootTags := holes.toRootTags
  first := holes.first.append (first.source.before holes.middle)
  rest := holes.rest
  firstNodes := _
  restNodes := holes.restNodes
  firstReads := holes.firstReads.append (first.reads.before holes.middleReads)
  restReads := holes.restReads
  firstSeparated := (Content.separated_append (first.source.beginsWithText_before _)).mpr
    ⟨holes.firstSeparated,
      (first.source.separated_before _).mpr ⟨first.separated, holes.middleSeparated⟩⟩
  restSeparated := holes.restSeparated

/-- The document with both declarations. -/
def fill (first second : DeclarationSource holes.scope) : Document := (holes.left second).fill first

theorem text_fill (first second : DeclarationSource holes.scope) :
    (holes.fill first second).text = String.ofList (holes.around (holes.first.render ++
      (first.source.render ++ (holes.middle.render ++ (second.source.render ++
        holes.rest.render))))) := by
  refine congrArg String.ofList (show (holes.left second).text first.source.render = _ from ?_)
  simp [left, Hole.text, Hole.front, Hole.behind, RootTags.around]

theorem fill_eq_right (first second : DeclarationSource holes.scope) :
    holes.fill first second = (holes.right first).fill second := by
  refine Document.eq_of_text ((holes.text_fill first second).trans (congrArg String.ofList ?_))
  simp [right, Hole.text, Hole.front, Hole.behind, RootTags.around]

/-- The number of start declarations in front of the first hole. -/
def leftIndex : Nat := ((elements (holes.firstNodes 0)).filter (·.isNamed "start")).length

/-- The number of start declarations in front of the second hole. -/
def rightIndex : Nat :=
  holes.leftIndex + (((elements (holes.middleNodes 0)).filter (·.isNamed "start")).length + 1)

theorem index_right (first : DeclarationSource holes.scope) :
    (holes.right first).index = holes.rightIndex := by
  have middle (place : Nat) := holes.middleReads.length_filter_elements "start" place 0
  rw [Hole.index, right]
  dsimp only
  rw [elements_append, elements_node_cons, List.filter_append, List.filter_cons,
    if_pos (first.named _), List.length_append, List.length_cons, middle]
  rfl

/-- A step in one hole leaves the other one alone. -/
theorem step_left (first second : DeclarationSource holes.scope) (value : String) :
    ∃ answer, (holes.fill first second).step (.record (.index holes.leftIndex) value) =
        .ok (holes.fill (first.attempt value) second, answer) ∧
      (answer.isAccepted = true ↔ IsDeclaration holes.scope (first.edited value)) :=
  (holes.left second).step_record first value

theorem step_right (first second : DeclarationSource holes.scope) (value : String) :
    ∃ answer, (holes.fill first second).step (.record (.index holes.rightIndex) value) =
        .ok (holes.fill first (second.attempt value), answer) ∧
      (answer.isAccepted = true ↔ IsDeclaration holes.scope (second.edited value)) := by
  rw [holes.fill_eq_right, holes.fill_eq_right, ← holes.index_right first]
  exact (holes.right first).step_record second value

section
variable (tags : RootTags) {content : Content} {nodes : Nat → List Node} {place place' : Nat}
  {earlier between behind later : List Element} {one two : Element}
  (located : Located [] nestingLimit tags.scope 0 content nodes 0 place earlier one behind)
  (located' : Located [] nestingLimit tags.scope 0 located.rest located.restNodes 0 place' between
    two later)
  (separated : content.Separated)

/-- The holes where two elements are located, the second one behind the first one. -/
def ofLocated : TwoHoles where
  toRootTags := tags
  first := located.first
  middle := located'.first
  rest := located'.rest
  firstNodes := located.firstNodes
  middleNodes := located'.firstNodes
  restNodes := located'.restNodes
  firstReads := located.reads.1
  middleReads := located'.reads.1
  restReads := located'.reads.2.2
  firstSeparated := (located.separated_iff.mp separated).1
  middleSeparated := (located'.separated_iff.mp (located.separated_iff.mp separated).2.2).1
  restSeparated := (located'.separated_iff.mp (located.separated_iff.mp separated).2.2).2.2

theorem leftIndex_ofLocated : (ofLocated tags located located' separated).leftIndex =
    (earlier.filter (·.isNamed "start")).length := by
  have first := located.firstReads.length_filter_elements "start" 0 place
  rw [located.earlier_eq] at first
  exact first

theorem rightIndex_ofLocated : (ofLocated tags located located' separated).rightIndex =
    (earlier.filter (·.isNamed "start")).length +
      ((between.filter (·.isNamed "start")).length + 1) := by
  have middle := located'.firstReads.length_filter_elements "start" 0 place'
  rw [located'.earlier_eq] at middle
  rw [rightIndex, leftIndex_ofLocated, ← middle]
  rfl

end

end TwoHoles

end RunSigning.Markup

namespace RunSigning
open RunSigning.Text RunSigning.Markup

/-- Two members of a filtered list in the list itself. -/
theorem exists_two_of_filter {α : Type} {p : α → Bool} {items : List α} {first second : Nat}
    (ordered : first < second) (declared : second < (items.filter p).length) :
    ∃ front one between two last, items = front ++ one :: (between ++ two :: last) ∧
      p one = true ∧ p two = true ∧ (front.filter p).length = first ∧
      first + ((between.filter p).length + 1) = second := by
  obtain ⟨front, back, split, holds, placed⟩ := exists_split_of_filter
    (List.getElem?_eq_getElem (Nat.lt_trans ordered declared))
  have count := congrArg (fun held => (held.filter p).length) split
  simp only [List.filter_append, List.filter_cons, if_pos holds, List.length_append,
    List.length_cons, placed] at count
  have behind : second - (first + 1) < (back.filter p).length := by omega
  obtain ⟨between, last, split', holds', placed'⟩ := exists_split_of_filter
    (List.getElem?_eq_getElem behind)
  exact ⟨front, _, between, _, last, by rw [← split']; exact split, holds, holds', placed, by omega⟩

/-- Two declarations of a document stand in two holes of it. -/
theorem Document.exists_twoHoles {document : Document} (plain : document.tree.hasDoctype = false)
    {first second : Nat} (ordered : first < second)
    (declared : second < document.declarations.length) :
    ∃ (holes : TwoHoles) (left right : DeclarationSource holes.scope),
      document = holes.fill left right ∧ holes.leftIndex = first ∧ holes.rightIndex = second := by
  obtain ⟨tags, content, nodes, place, separated, reads, text, declarations_eq⟩ :=
    exists_rootTags plain (List.ne_nil_of_length_pos (Nat.zero_lt_of_lt declared))
  rw [declarations_eq, List.length_map] at declared
  obtain ⟨earlier, one, between, two, later, split, named, named', placed, placed'⟩ :=
    exists_two_of_filter ordered declared
  -- the second declaration is located in what stands behind the first one
  obtain ⟨located⟩ := (reads.locate split).resolve_right (not_forall_before_nil rfl _)
  obtain ⟨located'⟩ := (located.reads.2.2.locate located.later_eq).resolve_right
    (not_forall_before_nil rfl _)
  obtain ⟨-, leftSeparated, behindSeparated⟩ := located.separated_iff.mp separated
  obtain ⟨-, rightSeparated, -⟩ := located'.separated_iff.mp behindSeparated
  refine ⟨.ofLocated tags located located' separated, .ofLocated located leftSeparated named,
    .ofLocated located' rightSeparated named', Document.eq_of_text ?_, ?_, ?_⟩
  · rw [TwoHoles.text_fill, text, located.render_eq, located'.render_eq]
    rfl
  · rw [TwoHoles.leftIndex_ofLocated, placed]
  · rw [TwoHoles.rightIndex_ofLocated, placed, placed']

/-- Two steps, and what is answered. -/
theorem Document.session_pair {document middle final : Document} {first second : SessionStep}
    {answer answer' : SessionAnswer} (one : document.step first = .ok (middle, answer))
    (two : middle.step second = .ok (final, answer')) :
    document.session [first, second] = .ok (final, [answer, answer']) :=
  session_cons one (session_cons two rfl)

/-- The order in which values are recorded in two declarations does not matter. -/
theorem Document.session_record_swap (document : Document)
    (plain : document.tree.hasDoctype = false) {first second : Nat} (ordered : first < second)
    (declared : second < document.declarations.length) (value other : String) :
    ∃ final answers answers',
      document.session [.record (.index first) value, .record (.index second) other] =
        .ok (final, answers) ∧
      document.session [.record (.index second) other, .record (.index first) value] =
        .ok (final, answers') ∧
      answers.map SessionAnswer.isAccepted = (answers'.map SessionAnswer.isAccepted).reverse := by
  obtain ⟨holes, left, right, rfl, rfl, rfl⟩ := document.exists_twoHoles plain ordered declared
  obtain ⟨one, first, accepts⟩ := holes.step_left left right value
  obtain ⟨two, second, accepts'⟩ := holes.step_right (left.attempt value) right other
  obtain ⟨two', second', again'⟩ := holes.step_right left right other
  obtain ⟨one', first', again⟩ := holes.step_left left (right.attempt other) value
  refine ⟨_, _, _, session_pair first second, session_pair second' first', ?_⟩
  simp only [List.map_cons, List.map_nil, List.reverse_cons, List.reverse_nil, List.nil_append,
    List.cons_append, List.cons.injEq, and_true]
  exact ⟨Bool.eq_iff_iff.mpr (accepts.trans again.symm),
    Bool.eq_iff_iff.mpr (accepts'.trans again'.symm)⟩

/-- In a document without document type declaration, values are recorded in two different
declarations in either order: both sessions come to their end, the final text is the same, and each
value is accepted in one order exactly if it is accepted in the other. -/
theorem Document.session_record_comm (document : Document)
    (plain : document.tree.hasDoctype = false) {first second : Nat} (different : first ≠ second)
    (declared : first < document.declarations.length)
    (declared' : second < document.declarations.length) (value other : String) :
    ∃ one two,
      document.session [.record (.index first) value, .record (.index second) other] = .ok one ∧
      document.session [.record (.index second) other, .record (.index first) value] = .ok two ∧
      one.1.text = two.1.text ∧
      one.2.map SessionAnswer.isAccepted = (two.2.map SessionAnswer.isAccepted).reverse := by
  rcases Nat.lt_or_gt_of_ne different with ordered | ordered
  · obtain ⟨final, answers, answers', one, two, same⟩ :=
      document.session_record_swap plain ordered declared' value other
    exact ⟨_, _, one, two, rfl, same⟩
  · obtain ⟨final, answers, answers', one, two, same⟩ :=
      document.session_record_swap plain ordered declared other value
    refine ⟨_, _, two, one, rfl, ?_⟩
    rw [same, List.reverse_reverse]

theorem Document.session_record_comm_sampleConfig :
    1 < sampleConfig.declarations.length ∧ ∃ one two,
      sampleConfig.session [.record (.index 0) "S", .record (.index 1) "T"] = .ok one ∧
      sampleConfig.session [.record (.index 1) "T", .record (.index 0) "S"] = .ok two ∧
      one.1.text = two.1.text ∧
      one.2.map SessionAnswer.isAccepted = (two.2.map SessionAnswer.isAccepted).reverse :=
  ⟨by decide +kernel, Document.session_record_comm sampleConfig (by decide +kernel) Nat.zero_ne_one
    (by decide +kernel) (by decide +kernel) "S" "T"⟩

end RunSigning
