import RunSigning.Proofs.Meaning.Element

/-
This file says that the count of references starts anew after every outermost reference. A
document that is read from its beginning therefore counts nothing outside references.
-/

namespace RunSigning.Markup
open RunSigning.Text

theorem ValueState.follow_settles {entities : Entities} {stop : Nat} {replacement : Cursor}
    {state followed : ValueState}
    (success : ValueState.follow entities nestingLimit stop replacement state = .ok followed) :
    followed.references = 0 := by
  rw [show nestingLimit = 9 + 1 from rfl, ValueState.follow] at success
  obtain ⟨references, -, success⟩ := bind_eq_ok_iff.mp success
  obtain ⟨filled, -, success⟩ := bind_eq_ok_iff.mp success
  obtain rfl := Except.ok.inj success
  rfl

theorem ValueState.extend_settles {entities : Entities} {outermost : Bool} {chunks : List Chunk}
    {state extended : ValueState} (settled : state.references = 0)
    (success : ValueState.extend entities outermost (ValueState.follow entities nestingLimit)
      chunks state = .ok extended) : extended.references = 0 := by
  induction chunks generalizing state with
  | nil =>
      obtain rfl := Except.ok.inj success
      exact settled
  | cons chunk chunks ih =>
      have pushed (c : Char) : (state.push c).references = 0 := settled
      cases chunk with
      | literal c =>
          rw [ValueState.extend] at success
          split at success
          · exact ih settled success
          · exact ih (pushed _) success
      | character c start =>
          rw [ValueState.extend] at success
          split at success
          · exact ih (pushed _) success
          split at success
          · cases success
          · exact ih (pushed _) success
      | entity name start stop =>
          rw [ValueState.extend] at success
          split at success
          · cases success
          split at success
          · cases success
          rename_i followed follows
          exact ih (follow_settles follows) success
      | malformed start => cases success

/-- No value counts references outside entities. -/
theorem normalizeValue_settles {entities : Entities} {written : Cursor} {value : String}
    {after : Nat} (success : normalizeValue entities nestingLimit 0 written = .ok (value, after)) :
    after = 0 := by
  obtain ⟨state, extended, same⟩ := bind_eq_ok_iff.mp success
  obtain ⟨rfl, rfl⟩ := Prod.mk.inj (Except.ok.inj same)
  exact ValueState.extend_settles rfl extended

theorem ReadsAttributes.settles {entities : Entities} {bindings final : Scope}
    {valued : List (AttributeSource × String)} {references after : Nat}
    (reads : ReadsAttributes entities nestingLimit bindings references valued final after)
    (settled : references = 0) : after = 0 := by
  induction reads with
  | nil bindings references => exact settled
  | cons reads admits later ih =>
      subst settled
      exact ih (normalizeValue_settles (reads 0))

@[simp] theorem Builder.references_withSiblings (builder : Builder) (siblings : List Node) :
    (builder.withSiblings siblings).references = builder.references := by
  rw [withSiblings]
  split <;> rfl

@[simp] theorem Builder.references_flush (builder : Builder) (buffer : List Char) :
    (builder.flush buffer).references = builder.references := by
  rw [flush]
  split
  · rfl
  · rw [addText]
    split <;> simp

theorem Builder.follow_settles {stop : Nat} {replacement : Cursor} {builder grown : Builder}
    (success : Builder.follow nestingLimit stop replacement builder = .ok grown) :
    grown.references = 0 := by
  rw [show nestingLimit = 9 + 1 from rfl, Builder.follow] at success
  obtain ⟨references, -, success⟩ := bind_eq_ok_iff.mp success
  obtain ⟨filled, -, success⟩ := bind_eq_ok_iff.mp success
  obtain rfl := Except.ok.inj success
  rfl

theorem Builder.extend_settles {outermost unchanged : Bool} {chunks : List Chunk}
    {buffer : List Char} {builder grown : Builder} (settled : builder.references = 0)
    (success : builder.extend outermost (Builder.follow nestingLimit) chunks buffer unchanged =
      .ok grown) : grown.references = 0 := by
  induction chunks generalizing builder buffer unchanged with
  | nil =>
      obtain rfl := Except.ok.inj success
      simpa using settled
  | cons chunk chunks ih =>
      cases chunk with
      | literal c =>
          rw [extend_literal] at success
          exact ih settled success
      | character c start =>
          rw [extend_character] at success
          exact ih settled success
      | entity name start stop =>
          rw [Builder.extend] at success
          split at success
          · cases success
          split at success
          · cases success
          rename_i followed follows
          exact ih (follow_settles follows) success
      | malformed start => cases success

/-- Every scope and every count is that of some builder that is ready. -/
theorem Builder.exists_ready (entities : Entities) (scope : Scope) (references : Nat) :
    ∃ builder : Builder, builder.Ready entities scope references := by
  refine ⟨⟨[⟨⟨"", ""⟩, none, [], 0, scope, []⟩], [], none, [], [], entities, references, false,
    false⟩, List.cons_ne_nil _ _, rfl, rfl, rfl, rfl, rfl, ?_⟩
  intro content earlier equal
  cases equal

theorem TextReads.settles {entities : Entities} {scope : Scope} {references after : Nat}
    {run : List Char} {nodes : List Node}
    (reads : TextReads entities nestingLimit scope references run nodes after)
    (settled : references = 0) : after = 0 := by
  obtain ⟨builder, ready⟩ := Builder.exists_ready entities scope references
  obtain ⟨grown, success, growth⟩ := reads.grows 0 builder ready
  rw [← growth.references_eq]
  exact Builder.extend_settles (ready.references_eq.trans settled) success

theorem TagSource.Reading.settles {source : TagSource} {entities : Entities} {scope : Scope}
    {references : Nat} (reading : source.Reading entities nestingLimit scope references)
    (settled : references = 0) : reading.after = 0 :=
  reading.reads.settles settled

/-- Content counts no references outside entities. -/
theorem Content.Reads.settles {entities : Entities} {scope : Scope} {references after : Nat}
    {content : Content} {nodes : Nat → List Node}
    (reads : content.Reads entities nestingLimit scope references nodes after)
    (settled : references = 0) : after = 0 := by
  induction reads with
  | nil scope references => exact settled
  | text reads later ih => exact ih (reads.settles settled)
  | marked later ih => exact ih settled
  | aside later ih => exact ih settled
  | empty reading later ih => exact ih (reading.settles settled)
  | filled reading inside matching later innerIh ih =>
      exact ih (innerIh (reading.settles settled))

theorem ElementSource.Reads.settles {entities : Entities} {scope : Scope}
    {references after : Nat} {source : ElementSource} {reading : Nat → Element}
    (reads : source.Reads entities nestingLimit scope references reading after)
    (settled : references = 0) : after = 0 :=
  (reads.before (.nil scope after)).settles settled

end RunSigning.Markup
