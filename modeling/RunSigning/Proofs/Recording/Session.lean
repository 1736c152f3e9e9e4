import RunSigning.Proofs.Meaning.Tag
import RunSigning.Session

/-
This file takes sessions apart. A session goes on step by step, and ends where a step ends it.
-/

namespace RunSigning
open RunSigning.Text RunSigning.Markup

/-- Whether an edit was made. -/
def SessionAnswer.isAccepted : SessionAnswer → Bool
  | .edited _ _ none => true
  | _ => false

/-- What a text lacks that spells no document. -/
theorem Document.ofText_eq_error {text : String} {failure : Failure}
    (parsed : Tree.parse text = .error failure) :
    Document.ofText text = .error (.ofFailure text failure) := by
  rw [ofText]
  split
  · rename_i tree spelled
    rw [parsed] at spelled
    cases spelled
  · rename_i other failed
    rw [parsed] at failed
    rw [Except.error.inj failed]

namespace Document

variable {document changed : Document} {edit : TextEdit}

theorem attempt_of_apply (accepted : document.apply edit = .ok changed) :
    document.attempt edit = .ok (changed, .edited edit changed.text none) := by
  rw [attempt, accepted]

theorem attempt_of_refused {refusal : Error} (refused : document.apply edit = .error refusal)
    (reported : refusal.isFatal = false) :
    document.attempt edit = .ok (document, .edited edit document.text (some refusal)) := by
  rw [attempt, refused]
  exact if_neg (by simp [reported])

/-- An attempt is made, refused, or the end of everything. -/
theorem attempt_cases (document : Document) (edit : TextEdit) :
    (∃ changed, document.apply edit = .ok changed ∧
      document.attempt edit = .ok (changed, .edited edit changed.text none)) ∨
    (∃ refusal, document.apply edit = .error refusal ∧ refusal.isFatal = false ∧
      document.attempt edit = .ok (document, .edited edit document.text (some refusal))) ∨
    ∃ refusal, document.apply edit = .error refusal ∧ refusal.isFatal = true ∧
      document.attempt edit = .error refusal := by
  cases applied : document.apply edit with
  | ok changed => exact .inl ⟨changed, rfl, attempt_of_apply applied⟩
  | error refusal =>
      cases fatal : refusal.isFatal with
      | false => exact .inr (.inl ⟨refusal, rfl, fatal, attempt_of_refused applied fatal⟩)
      | true =>
          refine .inr (.inr ⟨refusal, rfl, fatal, ?_⟩)
          rw [attempt, applied]
          exact if_pos fatal

theorem step_record {target : Target} {declaration : Declaration}
    (found : document.target? target = some declaration) (value : String) :
    document.step (.record target value) =
      document.recording declaration value >>= document.attempt := by
  rw [step, found]

theorem session_cons_eq_ok_iff {step : SessionStep} {steps : List SessionStep}
    {result : Document × List SessionAnswer} :
    document.session (step :: steps) = .ok result ↔
      ∃ changed answer final answers, document.step step = .ok (changed, answer) ∧
        changed.session steps = .ok (final, answers) ∧ result = (final, answer :: answers) := by
  rw [session]
  constructor
  · intro success
    obtain ⟨⟨changed, answer⟩, one, success⟩ := bind_eq_ok_iff.mp success
    obtain ⟨⟨final, answers⟩, rest, success⟩ := bind_eq_ok_iff.mp success
    exact ⟨changed, answer, final, answers, one, rest, (Except.ok.inj success).symm⟩
  · rintro ⟨changed, answer, final, answers, one, rest, rfl⟩
    rw [one]
    dsimp only [bind, Except.bind]
    rw [rest]
    rfl

theorem session_cons_eq_error_iff {step : SessionStep} {steps : List SessionStep} {error : Error} :
    document.session (step :: steps) = .error error ↔
      document.step step = .error error ∨
        ∃ changed answer, document.step step = .ok (changed, answer) ∧
          changed.session steps = .error error := by
  rw [session]
  cases document.step step with
  | error other => simp [bind, Except.bind]
  | ok result =>
      obtain ⟨changed, answer⟩ := result
      dsimp only [bind, Except.bind]
      cases rest : changed.session steps <;> simp [rest, pure, Except.pure]

/-- A session goes on after its first step. -/
theorem session_cons {step : SessionStep} {steps : List SessionStep} {answer : SessionAnswer}
    {final : Document} {answers : List SessionAnswer}
    (first : document.step step = .ok (changed, answer))
    (rest : changed.session steps = .ok (final, answers)) :
    document.session (step :: steps) = .ok (final, answer :: answers) :=
  session_cons_eq_ok_iff.mpr ⟨changed, answer, final, answers, first, rest, rfl⟩

section
variable {final : Document} {answers : List SessionAnswer}

theorem session_append_eq_ok_iff {earlier later : List SessionStep} :
    document.session (earlier ++ later) = .ok (final, answers) ↔
      ∃ middle first rest, document.session earlier = .ok (middle, first) ∧
        middle.session later = .ok (final, rest) ∧ answers = first ++ rest := by
  induction earlier generalizing document answers with
  | nil =>
      constructor
      · intro success
        exact ⟨document, [], answers, rfl, success, rfl⟩
      · rintro ⟨middle, first, rest, start, success, rfl⟩
        obtain ⟨rfl, rfl⟩ := Prod.mk.inj (Except.ok.inj start)
        exact success
  | cons step steps ih =>
      rw [List.cons_append, session_cons_eq_ok_iff]
      constructor
      · rintro ⟨changed, answer, final', answers', one, success, same⟩
        obtain ⟨rfl, rfl⟩ := Prod.mk.inj same
        obtain ⟨middle, first, rest, two, goesOn, rfl⟩ := ih.mp success
        exact ⟨middle, answer :: first, rest, session_cons one two, goesOn, rfl⟩
      · rintro ⟨middle, first, rest, success, goesOn, rfl⟩
        obtain ⟨changed, answer, final', answers', one, two, same⟩ :=
          session_cons_eq_ok_iff.mp success
        obtain ⟨rfl, rfl⟩ := Prod.mk.inj same
        exact ⟨changed, answer, final, answers' ++ rest, one,
          ih.mpr ⟨_, _, _, two, goesOn, rfl⟩, rfl⟩

/-- A session ends early exactly where a step ends it. -/
theorem session_eq_error_iff {steps : List SessionStep} {error : Error} :
    document.session steps = .error error ↔
      ∃ earlier step later before first, steps = earlier ++ step :: later ∧
        document.session earlier = .ok (before, first) ∧ before.step step = .error error := by
  induction steps generalizing document with
  | nil => simp [session]
  | cons step steps ih =>
      rw [session_cons_eq_error_iff]
      constructor
      · rintro (fails | ⟨changed, answer, one, fails⟩)
        · exact ⟨[], step, steps, document, [], rfl, rfl, fails⟩
        · obtain ⟨earlier, last, later, before, first, rfl, success, ends⟩ := ih.mp fails
          exact ⟨step :: earlier, last, later, before, answer :: first, rfl,
            session_cons one success, ends⟩
      · rintro ⟨earlier, last, later, before, first, split, success, ends⟩
        cases earlier with
        | nil =>
            obtain ⟨rfl, rfl⟩ := List.cons.inj split
            obtain ⟨rfl, rfl⟩ := Prod.mk.inj (Except.ok.inj success)
            exact .inl ends
        | cons _ earlier =>
            obtain ⟨rfl, rfl⟩ := List.cons.inj split
            obtain ⟨changed, answer, _, answers, one, goesOn, same⟩ :=
              session_cons_eq_ok_iff.mp success
            obtain ⟨rfl, rfl⟩ := Prod.mk.inj same
            exact .inr ⟨changed, answer, one,
              ih.mpr ⟨earlier, last, later, _, answers, rfl, goesOn, ends⟩⟩

theorem attempt_of_not_isAccepted {edit : TextEdit} {changed : Document} {answer : SessionAnswer}
    (attempted : document.attempt edit = .ok (changed, answer))
    (refused : answer.isAccepted = false) : changed = document := by
  obtain ⟨made, -, made_eq⟩ | ⟨refusal, -, -, refused_eq⟩ | ⟨refusal, -, -, stopped⟩ :=
    document.attempt_cases edit
  · obtain ⟨rfl, rfl⟩ := Prod.mk.inj (Except.ok.inj (made_eq.symm.trans attempted))
    cases refused
  · exact (Prod.mk.inj (Except.ok.inj (refused_eq.symm.trans attempted))).1.symm
  · cases stopped.symm.trans attempted

end

end Document

end RunSigning
