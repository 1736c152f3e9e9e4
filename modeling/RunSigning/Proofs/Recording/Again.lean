import RunSigning.Proofs.Recording.Refinement
import RunSigning.Proofs.Recording.Session

/-
This file records values in one declaration again and again. Only the last value is seen: the text
is as if nothing had been recorded before it.
-/

namespace RunSigning
open RunSigning.Text RunSigning.Markup

/-- The signatures among the children of a declaration. -/
def Declaration.signatures (declaration : Declaration) : List Element :=
  (elements declaration.element.children).filter (·.isNamed "signature")

/-- How many children of a shape have a plain name. -/
def Markup.Shape.count : Shape → String → Nat
  | .element _ _ _ children, name => children.countP (·.isNamed name)
  | _, _ => 0

theorem Declaration.length_signatures (declaration : Declaration) :
    declaration.signatures.length = declaration.element.shape.count "signature" := by
  rw [Element.shape_eq, Shape.count, List.countP_eq_length_filter, ← map_shape_filter_isNamed,
    List.length_map]
  rfl

/-- Behind others that are none, the first signature counts. -/
theorem countP_signature {first rest : List Shape} {shape : Shape}
    (unsigned : ∀ shape ∈ first, shape.isNamed "signature" = false)
    (signed : shape.isNamed "signature" = true) :
    (first ++ shape :: rest).countP (·.isNamed "signature") =
      rest.countP (·.isNamed "signature") + 1 := by
  rw [List.countP_append, List.countP_eq_zero.mpr (by simpa using unsigned), Nat.zero_add,
    List.countP_cons, if_pos signed]

/-- Recording adds a signature only where there is none. -/
theorem Markup.Shape.Records.count_eq {value : String} {signatureUri? : Option String}
    {old new : Shape} (records : Shape.Records value signatureUri? old new)
    (plain : signatureUri?.getD "" = "") :
    new.count "signature" = max 1 (old.count "signature") := by
  cases records with
  | rewritten unsigned signed valued unvalued =>
      rw [Shape.count, Shape.count,
        countP_signature unsigned (by simpa [Shape.isNamed] using signed),
        countP_signature unsigned (by simpa [Shape.isNamed] using signed)]
      omega
  | added unsigned signed unvalued =>
      rw [Shape.count, Shape.count,
        countP_signature unsigned (by simpa [Shape.isNamed] using signed),
        countP_signature unsigned (by simpa [Shape.isNamed] using signed)]
      omega
  | @appended name uri? attributes first gap rest unsigned last blank =>
      have none : rest.countP (·.isNamed "signature") = 0 := by
        rw [List.countP_eq_zero]
        intro shape member signed
        have outside := last shape member
        rw [Shape.isElement_of_isNamed signed] at outside
        cases outside
      have gapless : gap.countP (·.isNamed "signature") = 0 := by
        cases blank <;> rfl
      have named : (Shape.element ⟨Option.none, "signature"⟩ signatureUri?
          [⟨⟨Option.none, "value"⟩, Option.none, value⟩] []).isNamed "signature" = true := by
        simp [Shape.isNamed, plain]
      rw [Shape.count, Shape.count, List.countP_append, List.countP_append, List.countP_append,
        List.countP_eq_zero.mpr (by simpa using unsigned), gapless, List.countP_cons, if_pos named,
        none]
      rfl

/-- What a tree says about the recorded declaration is what the change of its shape says. -/
theorem Markup.Tree.RecordedAt.exists_records {value : String} {signatureUri? : Option String}
    {index : Nat} {tree changed : Tree}
    (recorded : tree.RecordedAt value signatureUri? index changed)
    {declaration redeclared : Declaration}
    (declared : tree.declarations[index]? = some declaration)
    (found : changed.declarations[index]? = some redeclared) :
    Shape.Records value signatureUri? declaration.element.shape redeclared.element.shape := by
  obtain ⟨old, new, records, before, after⟩ := recorded.shapes
  have same : (changed.declarations.map (·.element.shape))[index]? = some new := by
    rw [after, List.getElem?_set_self (List.getElem?_eq_some_iff.mp before).1]
  rw [List.getElem?_map, declared] at before
  rw [List.getElem?_map, found] at same
  obtain rfl := Option.some.inj before
  obtain rfl := Option.some.inj same
  exact records

/-- Edits that give the same text are accepted or refused alike. -/
theorem Document.apply_congr {document other : Document} {edit edit' : TextEdit}
    (same : edit.apply document.text = edit'.apply other.text) :
    document.apply edit = other.apply edit' := by
  rw [apply, apply, same]

/-- The first value is overwritten by the second one. -/
theorem Document.RecordsAt.exists_again {document changed : Document} {index : Nat}
    {declaration : Declaration} {slot : Slot} {first : String}
    (records : document.RecordsAt index declaration slot)
    (unqualified : declaration.element.tag.name.qualifier = "")
    (success : document.recorded declaration first = .ok changed) :
    ∃ again, changed.declarations[index]? = some again ∧
      ∀ second, changed.recorded again second = document.recorded declaration second := by
  obtain ⟨again, signature, existing, found, signed, valued, span⟩ :=
    records.rewrites success unqualified
  have text : changed.text = String.ofList (slot.fill first) := by
    rw [Document.recorded_eq records.placed, Document.apply_eq_ok_iff, records.applies] at success
    exact (Except.ok.inj success).symm
  have rewrite (second : String) : (changed.record again second).apply changed.text =
      .ok (String.ofList (slot.fill second)) := by
    rw [Document.record, Declaration.record_rewrite signed valued, span, text, String.toList_ofList]
    exact slot.apply_rewrite first second
  have placed : again.isPlaced changed.text.toList = true := by
    have within := TextEdit.isSome_of_apply (rewrite "")
    rw [Document.record, Declaration.record_rewrite signed valued] at within
    rw [Declaration.isPlaced, signed]
    dsimp only
    rw [valued]
    exact within
  refine ⟨again, found, fun second => ?_⟩
  rw [Document.recorded_eq placed, Document.recorded_eq records.placed]
  exact Document.apply_congr ((rewrite second).trans (records.applies second).symm)

/-- A session goes on with the document in which a value is recorded. -/
theorem Document.exists_step_record {document changed : Document} {index : Nat}
    {declaration : Declaration} (declared : document.declarations[index]? = some declaration)
    {value : String} (success : document.recorded declaration value = .ok changed) :
    ∃ answer, document.step (.record (.index index) value) = .ok (changed, answer) := by
  obtain ⟨edit, recording, applied⟩ := bind_eq_ok_iff.mp success
  have found : document.target? (.index index) = some declaration := declared
  refine ⟨.edited edit changed.text none, ?_⟩
  rw [step_record found, recording]
  exact attempt_of_apply applied

/-- A session that records allowed values in one declaration comes to its end, and the document is as
if only the last value had been recorded. -/
theorem Document.RecordsAt.session {document : Document} {index : Nat} {declaration : Declaration}
    {slot : Slot} (records : document.RecordsAt index declaration slot)
    (unqualified : declaration.element.tag.name.qualifier = "")
    (accepted : ∀ {value : String}, AllAllowed value.toList →
      ∃ changed, document.recorded declaration value = .ok changed)
    {values : List String} (allowed : ∀ value ∈ values, AllAllowed value.toList) {first : String}
    {changed : Document} (success : document.recorded declaration first = .ok changed) :
    ∃ final answers,
      changed.session (values.map fun value => .record (.index index) value) =
        .ok (final, answers) ∧
      document.recorded declaration ((first :: values).getLast (List.cons_ne_nil _ _)) =
        .ok final := by
  induction values generalizing first changed with
  | nil => exact ⟨changed, [], rfl, success⟩
  | cons value values ih =>
      obtain ⟨new, later⟩ := List.forall_mem_cons.mp allowed
      obtain ⟨again, found, same⟩ := records.exists_again unqualified success
      obtain ⟨next, recorded⟩ := accepted new
      obtain ⟨answer, step⟩ := Document.exists_step_record found ((same value).trans recorded)
      obtain ⟨final, answers, goesOn, last⟩ := ih later recorded
      exact ⟨final, answer :: answers, Document.session_cons step goesOn, last⟩

/-- In a document without document type declaration, the last value that is recorded in an
unqualified start declaration decides over the whole text. Recording it once more changes nothing,
and however often values are recorded, at most one signature is added. -/
theorem Document.recorded_last {document : Document} {index : Nat} {declaration : Declaration}
    (plain : document.tree.hasDoctype = false)
    (declared : document.declarations[index]? = some declaration)
    (unqualified : declaration.element.tag.name.qualifier = "")
    (fits : document.ValueFits declaration) :
    (∀ first second : String, (∀ c ∈ first.toList, isAllowed c = true) →
      (∀ c ∈ second.toList, isAllowed c = true) →
        ∃ changed again final, document.recorded declaration first = .ok changed ∧
          changed.declarations[index]? = some again ∧ changed.recorded again second = .ok final ∧
          document.recorded declaration second = .ok final ∧
          changed.recorded again first = .ok changed) ∧
    ∀ (values : List String) (filled : values ≠ []),
      (∀ value ∈ values, ∀ c ∈ value.toList, isAllowed c = true) →
        ∃ final answers again,
          document.session (values.map fun value => .record (.index index) value) =
            .ok (final, answers) ∧
          document.recorded declaration (values.getLast filled) = .ok final ∧
          final.declarations[index]? = some again ∧
          again.signatures.length = max 1 declaration.signatures.length := by
  have undeclared := declaredEntities_eq_nil document.spelled plain
  have formed := Entities.wellFormed_of_eq_nil undeclared
  have own : declaration.IsOwn (declaredEntities document.text) := by
    rw [undeclared]
    exact declaration.isOwn_nil
  obtain ⟨slot, records⟩ := exists_recordsAt formed declared own fits
  have accepted {value : String} (allowed : AllAllowed value.toList) :=
    (exists_recorded_iff formed declared own fits value).mpr allowed
  refine ⟨?_, ?_⟩
  · intro first second firstAllowed secondAllowed
    obtain ⟨changed, success⟩ := accepted firstAllowed
    obtain ⟨final, recorded⟩ := accepted secondAllowed
    obtain ⟨again, found, same⟩ := records.exists_again unqualified success
    exact ⟨changed, again, final, success, found, (same second).trans recorded, recorded,
      (same first).trans success⟩
  · intro values filled allowed
    obtain ⟨first, later, rfl⟩ := List.exists_cons_of_ne_nil filled
    obtain ⟨new, others⟩ := List.forall_mem_cons.mp allowed
    obtain ⟨changed, success⟩ := accepted new
    obtain ⟨answer, step⟩ := Document.exists_step_record declared success
    obtain ⟨final, answers, goesOn, last⟩ := records.session unqualified accepted others success
    obtain ⟨again, -, -, found, -⟩ := records.rewrites last unqualified
    obtain ⟨signatureUri?, uri, recorded⟩ := records.recordedAt last
    have count := (recorded.exists_records declared found).count_eq
      (by rw [uri unqualified]; exact Declaration.uri_plain declared)
    rw [← Declaration.length_signatures, ← Declaration.length_signatures] at count
    exact ⟨final, answer :: answers, again, session_cons step goesOn, last, found, count⟩

theorem Document.recorded_last_sampleConfig :
    ∃ changed again final, sampleConfig.recorded (sampleDeclaration 1) "'\"\n" = .ok changed ∧
      changed.declarations[1]? = some again ∧ changed.recorded again "last" = .ok final ∧
      sampleConfig.recorded (sampleDeclaration 1) "last" = .ok final ∧
      ∃ signed, final.declarations[1]? = some signed ∧ signed.signatures.length = 1 := by
  obtain ⟨pairs, runs⟩ := Document.recorded_last (show sampleConfig.tree.hasDoctype = false by
    decide +kernel) (getElem?_sampleConfig 1) (by decide +kernel) (by decide +kernel)
  obtain ⟨changed, again, final, first, found, second, once, -⟩ :=
    pairs "'\"\n" "last" (by decide +kernel) (by decide +kernel)
  obtain ⟨final', -, signed, -, once', declared, count⟩ := runs ["last"] (by decide) (by decide +kernel)
  obtain rfl := Except.ok.inj (once.symm.trans once')
  refine ⟨changed, again, final, first, found, second, once, signed, declared, ?_⟩
  rw [count]
  decide +kernel

end RunSigning
