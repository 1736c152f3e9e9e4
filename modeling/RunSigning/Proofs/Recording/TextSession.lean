import RunSigning.Proofs.Recording.Order
import RunSigning.Proofs.Recording.Placed

/-
This file runs sessions on texts alone. The text is parsed anew wherever a step needs its
declarations, and nothing guarantees that this succeeds. It always does, because a step either
leaves the text as it is or gives one that was parsed before it was accepted. A session may end
early all the same, where the parser stops at an edited text.
-/

namespace RunSigning
open RunSigning.Text RunSigning.Markup

def Markup.Tree.target? (tree : Tree) : Target → Option Declaration
  | .binary name => tree.declarations.find? (·.matches name)
  | .index place => tree.declarations[place]?

namespace TextSession

/-- Why a session goes no further. -/
inductive Halt where
  /-- The text that the steps led to cannot be parsed anew. -/
  | unparsed (failure : Failure)
  /-- A fatal error ends the whole program. -/
  | stopped (error : Error)

def parse (text : String) : Except Halt Tree :=
  match Tree.parse text with
  | .ok tree => .ok tree
  | .error failure => .error (.unparsed failure)

/-- The text after an edit, if it spells a document. -/
def attempt (text : String) (edit : TextEdit) : Except Halt (String × SessionAnswer) :=
  match edit.apply text with
  | .error refusal => .ok (text, .edited edit text (some refusal))
  | .ok edited =>
      match Tree.parse edited with
      | .ok _ => .ok (edited, .edited edit edited none)
      | .error failure =>
          let refusal : Error := .refusedEdit (.illFormed (.ofFailure edited failure))
          if failure.fault.isFatal then .error (.stopped refusal)
          else .ok (text, .edited edit text (some refusal))

/-- A step parses the text unless it brings its own edit. -/
def step (text : String) : SessionStep → Except Halt (String × SessionAnswer)
  | .find name => do
      let tree ← parse text
      return (text, .declaration (tree.target? (.binary name)))
  | .edit edit => attempt text edit
  | .record target value => do
      let tree ← parse text
      match tree.target? target with
      | none => return (text, .declaration none)
      | some declaration =>
          if declaration.isPlaced text.toList then
            attempt text (declaration.record text.toList value)
          else .error (.stopped (.refusedEdit (.unplaced declaration.element.tag.span)))

def run (text : String) : List SessionStep → Except Halt (String × List SessionAnswer)
  | [] => return (text, [])
  | first :: rest => do
      let (changed, answer) ← step text first
      let (final, answers) ← run changed rest
      return (final, answer :: answers)

/-- The edit that a step makes, if it makes one. -/
def editOf? (text : String) (tree : Tree) : SessionStep → Option TextEdit
  | .find _ => none
  | .edit edit => some edit
  | .record target value =>
      match tree.target? target with
      | none => none
      | some declaration =>
          if declaration.isPlaced text.toList then some (declaration.record text.toList value)
          else none

/-- Why an edit is refused: it does not begin and end, in this order, between two characters of the
text, or the edited text spells no document and the parser reports that. -/
inductive Refuses (text : String) (edit : TextEdit) : EditFault → Prop where
  | span (misplaced : ¬ edit.span.IsPlaced text.toList) :
      Refuses text edit (.outOfRange edit.span (byteLength text.toList))
  | markup {edited : String} {failure : Failure} (applied : edit.apply text = .ok edited)
      (faulty : Tree.parse edited = .error failure) (reported : failure.fault.isFatal = false) :
      Refuses text edit (.illFormed (.ofFailure edited failure))

/-- What an edit of a text came to. It was refused if there is a reason for that, and then the text
is as it was. -/
structure Attempted (before after : String) (edit : TextEdit) (refusal? : Option Error) :
    Prop where
  isSome_iff : refusal?.isSome = true ↔ ∃ fault, Refuses before edit fault
  refused : ∀ refusal, refusal? = some refusal →
    after = before ∧ ∃ fault, refusal = .refusedEdit fault ∧ Refuses before edit fault
  made : refusal? = none → edit.apply before = .ok after

/-- Why a step ends the session: the edited text has a fault that the parser stops at, or the
declaration cannot be cut out of the text. -/
inductive Stops (text : String) (tree : Tree) : SessionStep → EditFault → Prop where
  | markup {step : SessionStep} {edit : TextEdit} {edited : String} {failure : Failure}
      (makes : editOf? text tree step = some edit) (applied : edit.apply text = .ok edited)
      (faulty : Tree.parse edited = .error failure) (fatal : failure.fault.isFatal = true) :
      Stops text tree step (.illFormed (.ofFailure edited failure))
  | unplaced {target : Target} {value : String} {declaration : Declaration}
      (found : tree.target? target = some declaration)
      (apart : declaration.isPlaced text.toList = false) :
      Stops text tree (.record target value) (.unplaced declaration.element.tag.span)

/-- The steps that were accepted. -/
def accepted (steps : List SessionStep) (answers : List SessionAnswer) : List SessionStep :=
  ((steps.zip answers).filter fun item => item.2.isAccepted).map Prod.fst

theorem apply_eq_ok_iff_isPlaced {text : String} {edit : TextEdit} :
    (∃ edited, edit.apply text = .ok edited) ↔ edit.span.IsPlaced text.toList := by
  rw [← isSome_around?_iff, TextEdit.apply]
  cases around? edit.span text.toList <;> simp

/-- An edit is made, or refused for a reason, or the parser stops at the edited text. -/
theorem attempt_explained (text : String) (edit : TextEdit) :
    (∃ after refusal?, attempt text edit = .ok (after, .edited edit after refusal?) ∧
      Attempted text after edit refusal?) ∨
    ∃ edited failure, edit.apply text = .ok edited ∧ Tree.parse edited = .error failure ∧
      failure.fault.isFatal = true ∧
      attempt text edit =
        .error (.stopped (.refusedEdit (.illFormed (.ofFailure edited failure)))) := by
  cases applied : edit.apply text with
  | error refusal =>
      have misplaced : ¬ edit.span.IsPlaced text.toList := by
        rw [← apply_eq_ok_iff_isPlaced, applied]
        simp
      have reason : refusal = .refusedEdit (.outOfRange edit.span (byteLength text.toList)) := by
        rw [TextEdit.apply] at applied
        split at applied
        · cases applied
        · exact (Except.error.inj applied).symm
      have refuses := Refuses.span misplaced
      refine .inl ⟨text, some refusal, by rw [attempt, applied], ?_, ?_, by simp⟩
      · exact iff_of_true rfl ⟨_, refuses⟩
      · intro _ same
        obtain rfl := Option.some.inj same
        exact ⟨rfl, _, reason, refuses⟩
  | ok edited =>
      cases parsed : Tree.parse edited with
      | ok tree =>
          refine .inl ⟨edited, none, by rw [attempt, applied]; dsimp only; rw [parsed], ?_,
            by simp, fun _ => applied⟩
          refine iff_of_false (by simp) ?_
          rintro ⟨fault, refuses⟩
          cases refuses with
          | span misplaced => exact misplaced (apply_eq_ok_iff_isPlaced.mp ⟨_, applied⟩)
          | markup applied' faulty reported =>
              obtain rfl := Except.ok.inj (applied.symm.trans applied')
              rw [parsed] at faulty
              cases faulty
      | error failure =>
          have attempted : attempt text edit = if failure.fault.isFatal then
              .error (.stopped (.refusedEdit (.illFormed (.ofFailure edited failure))))
              else .ok (text, .edited edit text
                (some (.refusedEdit (.illFormed (.ofFailure edited failure))))) := by
            rw [attempt, applied]
            dsimp only
            rw [parsed]
          cases fatal : failure.fault.isFatal with
          | true =>
              rw [fatal, if_pos rfl] at attempted
              exact .inr ⟨edited, failure, rfl, parsed, fatal, attempted⟩
          | false =>
              have refuses := Refuses.markup applied parsed fatal
              rw [fatal, if_neg Bool.false_ne_true] at attempted
              refine .inl ⟨text, _, attempted, iff_of_true rfl ⟨_, refuses⟩, ?_, by simp⟩
              intro _ same
              obtain rfl := Option.some.inj same
              exact ⟨rfl, _, rfl, refuses⟩

theorem target?_eq (document : Document) (target : Target) :
    document.tree.target? target = document.target? target := by
  cases target <;> rfl

/-- What happens to a document happens to its text. -/
def ofDocument {A : Type} : Except Error (Document × A) → Except Halt (String × A)
  | .ok (document, answer) => .ok (document.text, answer)
  | .error error => .error (.stopped error)

theorem parse_text (document : Document) : parse document.text = .ok document.tree := by
  rw [parse, document.spelled]

theorem attempt_eq (document : Document) (edit : TextEdit) :
    attempt document.text edit = ofDocument (document.attempt edit) := by
  rw [attempt, Document.attempt, Document.apply]
  cases applied : edit.apply document.text with
  | error refusal =>
      have reported : refusal.isFatal = false := by
        rw [TextEdit.apply] at applied
        split at applied
        · cases applied
        · obtain rfl := Except.error.inj applied
          rfl
      dsimp only
      rw [if_neg (by simp [reported])]
      rfl
  | ok edited =>
      dsimp only
      cases parsed : Tree.parse edited with
      | error failure =>
          rw [Document.ofText_eq_error parsed]
          have same : Error.isFatal (.refusedEdit (.illFormed (.ofFailure edited failure))) =
              failure.fault.isFatal := rfl
          dsimp only
          rw [same]
          split
          · rfl
          · rfl
      | ok tree =>
          have spelled : Document.ofText edited = .ok ⟨edited, tree, parsed⟩ :=
            Document.ofText_eq_ok_iff.mpr rfl
          rw [spelled]
          rfl

/-- A step on the text of a document is a step on the document. -/
theorem step_eq (document : Document) (step' : SessionStep) :
    step document.text step' = ofDocument (document.step step') := by
  cases step' with
  | find name =>
      rw [step, parse_text]
      rfl
  | edit edit => exact attempt_eq document edit
  | record target value =>
      rw [step, parse_text]
      dsimp only [bind, Except.bind]
      rw [target?_eq]
      cases found : document.target? target with
      | none =>
          rw [Document.step, found]
          rfl
      | some declaration =>
          rw [Document.step_record found, Document.recording, Document.record]
          dsimp only
          split
          · exact attempt_eq document _
          · rfl

theorem run_eq (document : Document) (steps : List SessionStep) :
    run document.text steps = ofDocument (document.session steps) := by
  induction steps generalizing document with
  | nil => rfl
  | cons first rest ih =>
      rw [run, step_eq, Document.session]
      cases document.step first with
      | error error => rfl
      | ok result =>
          dsimp only [ofDocument, bind, Except.bind]
          rw [ih]
          cases result.1.session rest with
          | error error => rfl
          | ok final => rfl

theorem run_eq_ok_iff {document : Document} {steps : List SessionStep} {final : String}
    {answers : List SessionAnswer} :
    run document.text steps = .ok (final, answers) ↔
      ∃ last : Document, last.text = final ∧ document.session steps = .ok (last, answers) := by
  rw [run_eq]
  cases document.session steps with
  | error error => simp [ofDocument]
  | ok result =>
      obtain ⟨last, given⟩ := result
      simp only [ofDocument, Except.ok.injEq, Prod.mk.injEq]
      constructor
      · rintro ⟨rfl, rfl⟩
        exact ⟨last, rfl, rfl, rfl⟩
      · rintro ⟨_, rfl, rfl, rfl⟩
        exact ⟨rfl, rfl⟩

theorem run_eq_error_iff {document : Document} {steps : List SessionStep} {halt : Halt} :
    run document.text steps = .error halt ↔
      ∃ error, document.session steps = .error error ∧ halt = .stopped error := by
  rw [run_eq]
  cases document.session steps with
  | error error => simp [ofDocument, eq_comm]
  | ok result => simp [ofDocument]

/-- A step that makes an edit attempts it. Any other one changes nothing, or ends the session. -/
theorem step_of_editOf (document : Document) (step' : SessionStep) :
    (∃ edit, editOf? document.text document.tree step' = some edit ∧
      document.step step' = document.attempt edit) ∨
    editOf? document.text document.tree step' = none ∧
      ((∃ found?, document.step step' = .ok (document, .declaration found?)) ∨
        ∃ target value declaration, step' = .record target value ∧
          document.tree.target? target = some declaration ∧
          declaration.isPlaced document.text.toList = false ∧
          document.step step' = .error (.refusedEdit (.unplaced declaration.element.tag.span))) := by
  cases step' with
  | find name => exact .inr ⟨rfl, .inl ⟨_, rfl⟩⟩
  | edit edit => exact .inl ⟨edit, rfl, rfl⟩
  | record target value =>
      rw [editOf?, target?_eq]
      cases found : document.target? target with
      | none =>
          refine .inr ⟨rfl, .inl ⟨none, ?_⟩⟩
          rw [Document.step, found]
      | some declaration =>
          have held : document.tree.target? target = some declaration :=
            (target?_eq document target).trans found
          rw [Document.step_record found, Document.recording]
          dsimp only
          cases placed : declaration.isPlaced document.text.toList with
          | true => exact .inl ⟨_, rfl, rfl⟩
          | false => exact .inr ⟨rfl, .inr ⟨target, value, declaration, rfl, held, placed, rfl⟩⟩

/-- An attempt ends the session exactly if the parser stops at the edited text. -/
theorem attempt_eq_error_iff {document : Document} {edit : TextEdit} {error : Error} :
    document.attempt edit = .error error ↔ ∃ edited failure,
      edit.apply document.text = .ok edited ∧ Tree.parse edited = .error failure ∧
        failure.fault.isFatal = true ∧
        error = .refusedEdit (.illFormed (.ofFailure edited failure)) := by
  constructor
  · intro stopped
    have same := attempt_eq document edit
    rw [stopped] at same
    obtain ⟨_, _, attempted, -⟩ | ⟨edited, failure, applied, faulty, fatal, attempted⟩ :=
      attempt_explained document.text edit
    · cases attempted.symm.trans same
    · have halted := Except.error.inj (attempted.symm.trans same)
      exact ⟨edited, failure, applied, faulty, fatal, (Halt.stopped.inj halted).symm⟩
  · rintro ⟨edited, failure, applied, faulty, fatal, rfl⟩
    rw [Document.attempt, Document.apply, applied]
    dsimp only
    rw [Document.ofText_eq_error faulty]
    exact if_pos fatal

/-- A step ends the session exactly for one of the reasons. -/
theorem step_eq_error_iff {document : Document} {step' : SessionStep} {error : Error} :
    document.step step' = .error error ↔
      ∃ fault, Stops document.text document.tree step' fault ∧ error = .refusedEdit fault := by
  obtain ⟨edit, makes, attempts⟩ | ⟨silent, harmless | unplaced⟩ := step_of_editOf document step'
  · rw [attempts, attempt_eq_error_iff]
    constructor
    · rintro ⟨edited, failure, applied, faulty, fatal, rfl⟩
      exact ⟨_, .markup makes applied faulty fatal, rfl⟩
    · rintro ⟨fault, stops, rfl⟩
      cases stops with
      | markup makes' applied faulty fatal =>
          obtain rfl := Option.some.inj (makes.symm.trans makes')
          exact ⟨_, _, applied, faulty, fatal, rfl⟩
      | unplaced found apart =>
          rw [editOf?, found] at makes
          dsimp only at makes
          rw [apart] at makes
          cases makes
  · obtain ⟨found?, kept⟩ := harmless
    rw [kept]
    refine iff_of_false (fun same => by cases same) ?_
    rintro ⟨fault, stops, rfl⟩
    cases stops with
    | markup makes => cases silent.symm.trans makes
    | unplaced found apart =>
        rw [target?_eq] at found
        rw [Document.step_record found, Document.recording, apart] at kept
        cases kept
  · obtain ⟨target, value, declaration, rfl, held, apart, ended⟩ := unplaced
    rw [ended]
    constructor
    · intro same
      obtain rfl := Except.error.inj same
      exact ⟨_, .unplaced held apart, rfl⟩
    · rintro ⟨fault, stops, rfl⟩
      cases stops with
      | markup makes => cases silent.symm.trans makes
      | unplaced found apart' =>
          obtain rfl := Option.some.inj (held.symm.trans found)
          rfl

/-- What a step does to a document if it does not end the session. -/
theorem step_explained {document changed : Document} {step' : SessionStep} {answer : SessionAnswer}
    (goesOn : document.step step' = .ok (changed, answer)) :
    (editOf? document.text document.tree step' = none →
      changed = document ∧ answer.isAccepted = false) ∧
    ∀ edit, editOf? document.text document.tree step' = some edit → ∃ refusal?,
      answer = .edited edit changed.text refusal? ∧
        Attempted document.text changed.text edit refusal? := by
  obtain ⟨edit, makes, attempts⟩ | ⟨silent, ⟨found?, kept⟩ | ⟨_, _, _, -, -, -, ended⟩⟩ :=
    step_of_editOf document step'
  · refine ⟨fun none => ?_, fun edit' makes' => ?_⟩
    · cases none.symm.trans makes
    · obtain rfl := Option.some.inj (makes.symm.trans makes')
      have same := attempt_eq document edit
      rw [← attempts, goesOn] at same
      obtain ⟨after, refusal?, attempted, explained⟩ | ⟨_, _, -, -, -, stopped⟩ :=
        attempt_explained document.text edit
      · obtain ⟨rfl, rfl⟩ := Prod.mk.inj (Except.ok.inj (attempted.symm.trans same))
        exact ⟨refusal?, rfl, explained⟩
      · cases stopped.symm.trans same
  · obtain ⟨rfl, rfl⟩ := Prod.mk.inj (Except.ok.inj (kept.symm.trans goesOn))
    exact ⟨fun _ => ⟨rfl, rfl⟩, fun edit makes => by cases silent.symm.trans makes⟩
  · cases ended.symm.trans goesOn

/-- A step that is not accepted leaves the document as it was. -/
theorem step_of_not_isAccepted {document changed : Document} {step' : SessionStep}
    {answer : SessionAnswer} (goesOn : document.step step' = .ok (changed, answer))
    (refused : answer.isAccepted = false) : changed = document := by
  obtain ⟨edit, -, attempts⟩ | ⟨-, ⟨found?, kept⟩ | ⟨_, _, _, -, -, -, ended⟩⟩ :=
    step_of_editOf document step'
  · exact Document.attempt_of_not_isAccepted (attempts.symm.trans goesOn) refused
  · exact (Prod.mk.inj (Except.ok.inj (kept.symm.trans goesOn))).1.symm
  · cases ended.symm.trans goesOn

/-- Steps that are not accepted may be left out. -/
theorem session_accepted {document final : Document} {steps : List SessionStep}
    {answers : List SessionAnswer} (success : document.session steps = .ok (final, answers)) :
    document.session (accepted steps answers) = .ok (final, answers.filter (·.isAccepted)) := by
  induction steps generalizing document answers with
  | nil =>
      obtain ⟨rfl, rfl⟩ := Prod.mk.inj (Except.ok.inj success)
      rfl
  | cons first rest ih =>
      obtain ⟨changed, answer, final', answers', one, goesOn, same⟩ :=
        Document.session_cons_eq_ok_iff.mp success
      obtain ⟨rfl, rfl⟩ := Prod.mk.inj same
      rw [accepted, List.zip_cons_cons, List.filter_cons, List.filter_cons]
      dsimp only
      split
      · rw [List.map_cons, ← accepted]
        exact Document.session_cons one (ih goesOn)
      · -- The step is left out, and the rest begins with the same document.
        rename_i refused
        obtain rfl := step_of_not_isAccepted one (Bool.not_eq_true _ ▸ refused)
        exact ih goesOn

/-- A text that spells a document goes on to spell one through every session. Before each step the
text can be parsed, and after it, so that a session ends early only where a step is fatal: where the
parser stops at an edited text, or the declaration of a record cannot be cut out of the text. In a
session that comes to its end, a step that makes no edit changes nothing. One that makes an edit
answers with it, and the edit is refused exactly if its span does not begin and end, in this order,
between two characters of the text, or the edited text spells no document; then the text is as it
was, and otherwise it is the edited one. If all steps that are not accepted are left out, the
session ends with the same text, and the others answer the same. -/
theorem run_accepted {text : String} {tree : Tree} (spelled : Tree.parse text = .ok tree)
    (steps : List SessionStep) :
    (∀ halt, run text steps = .error halt ↔
      ∃ earlier step' later before first current fault, steps = earlier ++ step' :: later ∧
        run text earlier = .ok (before, first) ∧ Tree.parse before = .ok current ∧
        Stops before current step' fault ∧ halt = .stopped (.refusedEdit fault)) ∧
    ∀ final answers, run text steps = .ok (final, answers) →
      (∃ last, Tree.parse final = .ok last) ∧
      (∀ earlier step' later, steps = earlier ++ step' :: later →
        ∃ before current first answer after next rest,
          run text earlier = .ok (before, first) ∧ Tree.parse before = .ok current ∧
          step before step' = .ok (after, answer) ∧ Tree.parse after = .ok next ∧
          run after later = .ok (final, rest) ∧ answers = first ++ answer :: rest ∧
          (editOf? before current step' = none → after = before ∧ answer.isAccepted = false) ∧
          ∀ edit, editOf? before current step' = some edit → ∃ refusal?,
            answer = .edited edit after refusal? ∧ Attempted before after edit refusal?) ∧
      run text (accepted steps answers) = .ok (final, answers.filter (·.isAccepted)) := by
  let document : Document := ⟨text, tree, spelled⟩
  refine ⟨fun halt => ?_, fun final answers success => ?_⟩
  · rw [@run_eq_error_iff document]
    simp only [Document.session_eq_error_iff, step_eq_error_iff]
    constructor
    · rintro ⟨_, ⟨earlier, step', later, before, first, rfl, goesOn, fault, stops, rfl⟩, rfl⟩
      exact ⟨earlier, step', later, before.text, first, before.tree, fault, rfl,
        run_eq_ok_iff.mpr ⟨before, rfl, goesOn⟩, before.spelled, stops, rfl⟩
    · rintro ⟨earlier, step', later, _, first, current, fault, rfl, runs, parsed, stops, rfl⟩
      obtain ⟨before, rfl, goesOn⟩ := (@run_eq_ok_iff document).mp runs
      obtain rfl := Except.ok.inj (before.spelled.symm.trans parsed)
      exact ⟨_, ⟨earlier, step', later, before, first, rfl, goesOn, fault, stops, rfl⟩, rfl⟩
  · obtain ⟨last, rfl, session⟩ := (@run_eq_ok_iff document).mp success
    refine ⟨⟨_, last.spelled⟩, ?_, ?_⟩
    · rintro earlier step' later rfl
      obtain ⟨before, first, rest, start, goesOn, rfl⟩ :=
        Document.session_append_eq_ok_iff.mp session
      obtain ⟨after, answer, _, answers, one, behind, same⟩ :=
        Document.session_cons_eq_ok_iff.mp goesOn
      obtain ⟨rfl, rfl⟩ := Prod.mk.inj same
      obtain ⟨silent, edits⟩ := step_explained one
      refine ⟨before.text, before.tree, first, answer, after.text, after.tree, answers,
        run_eq_ok_iff.mpr ⟨before, rfl, start⟩, before.spelled, ?_, after.spelled,
        run_eq_ok_iff.mpr ⟨_, rfl, behind⟩, rfl, fun none => ?_, edits⟩
      · rw [step_eq, one]
        rfl
      · obtain ⟨rfl, refused⟩ := silent none
        exact ⟨rfl, refused⟩
    · exact (@run_eq_ok_iff document).mpr ⟨last, rfl, session_accepted session⟩

/-- The first of the steps breaks the root element and is refused, the second one is not. -/
def sampleSteps : List SessionStep := [.edit ⟨⟨0, 1⟩, ""⟩, .record (.index 1) "S"]

/-- Only the second of the steps is accepted, and the session comes to its end. -/
theorem accepted_sampleSteps :
    (sampleConfig.session sampleSteps).toOption.map (fun result => accepted sampleSteps result.2) =
      some [.record (.index 1) "S"] := by
  decide +kernel

theorem run_accepted_sampleConfig :
    ∃ final answers, run sampleConfig.text sampleSteps = .ok (final, answers) ∧
      run sampleConfig.text [.record (.index 1) "S"] =
        .ok (final, answers.filter (·.isAccepted)) := by
  have kept := accepted_sampleSteps
  cases session : sampleConfig.session sampleSteps with
  | error error =>
      rw [session] at kept
      cases kept
  | ok result =>
      obtain ⟨last, answers⟩ := result
      rw [session] at kept
      have success := run_eq_ok_iff.mpr ⟨last, rfl, session⟩
      have left := ((run_accepted sampleConfig.spelled sampleSteps).2 _ _ success).2.2
      have second : accepted sampleSteps answers = [.record (.index 1) "S"] := Option.some.inj kept
      rw [second] at left
      exact ⟨last.text, answers, success, left⟩

/-- The replacement text of the entity closes the root element, so that its own end tag comes too
late. -/
def stoppingEdit : TextEdit :=
  ⟨⟨0, 4⟩, "<!DOCTYPE a [<!ENTITY e \"<b></b></a>\">]><a>&e;</a>"⟩

/-- An edit that gives no document is not refused, but ends the session. -/
theorem exists_stopped_run :
    ∃ (text : String) (edit : TextEdit) (edited : String) (failure : Failure),
      (∃ tree, Tree.parse text = .ok tree) ∧ edit.apply text = .ok edited ∧
      Tree.parse edited = .error failure ∧ ∀ result, run text [.edit edit] ≠ .ok result := by
  have spelled : (Tree.parse "<a/>").toBool = true := by decide +kernel
  have applied : stoppingEdit.apply "<a/>" = .ok stoppingEdit.replacement := by decide +kernel
  have fatal : (match Tree.parse stoppingEdit.replacement with
      | .ok _ => false
      | .error failure => failure.fault.isFatal) = true := by decide +kernel
  cases parsed : Tree.parse "<a/>" with
  | error failure =>
      rw [parsed] at spelled
      cases spelled
  | ok tree =>
      cases faulty : Tree.parse stoppingEdit.replacement with
      | ok tree =>
          rw [faulty] at fatal
          cases fatal
      | error failure =>
          rw [faulty] at fatal
          refine ⟨"<a/>", stoppingEdit, _, failure, ⟨tree, parsed⟩, applied, faulty, ?_⟩
          intro result success
          rw [run, step, attempt, applied] at success
          dsimp only at success
          rw [faulty] at success
          dsimp only at success
          rw [if_pos fatal] at success
          cases success

end TextSession

end RunSigning
