import RunSigning.Proofs.Meaning.Doctype
import RunSigning.Proofs.Recording.Document

/-
This file says that the edit of a text refines a change of its tree. Recording a value is accepted
exactly if a document may hold the value, and then one declaration has the value and everything
else in the tree is as it was.
-/

namespace RunSigning
open RunSigning.Text RunSigning.Markup

/-- The document with a value recorded in a declaration, if the edit is accepted. -/
def Document.recorded (document : Document) (declaration : Declaration) (value : String) :
    Except Error Document :=
  document.recording declaration value >>= document.apply

/-- Before the value of the signature, the equals sign and the blanks around it take at most 255
bytes. -/
def Document.ValueFits (document : Document) (declaration : Declaration) : Prop :=
  ∀ signature ∈ declaration.signature?, ∀ existing ∈ signature.attribute? "value",
    ∀ written, .attr written ∈ (Scan.document document.text.toList).tokens →
      written.valueSpan = existing.valueSpan → written.Fits

/-- Whether a token is no attribute with the given place of its value, or one that fits. -/
def Markup.Token.fitsAt (span : Span) : Token → Bool
  | .attr written => written.valueSpan != span || decide written.Fits
  | _ => true

/-- Fitting can be checked token by token. -/
theorem Document.valueFits_iff {document : Document} {declaration : Declaration} :
    document.ValueFits declaration ↔
      ∀ signature ∈ declaration.signature?, ∀ existing ∈ signature.attribute? "value",
        ((Scan.document document.text.toList).tokens.all fun token =>
          token.fitsAt existing.valueSpan) = true := by
  constructor
  · intro fits signature found existing valued
    rw [List.all_eq_true]
    intro token member
    cases token with
    | attr written =>
        have held := fits signature found existing valued written member
        simpa [Token.fitsAt, Decidable.imp_iff_not_or] using held
    | _ => rfl
  · intro checked signature found existing valued written member span
    have held := List.all_eq_true.mp (checked signature found existing valued) _ member
    simpa [Token.fitsAt, span] using held

instance (document : Document) (declaration : Declaration) :
    Decidable (document.ValueFits declaration) :=
  decidable_of_iff _ Document.valueFits_iff.symm

/-- A declaration stands in the text itself, behind all replacement texts, and so do its signature
or, if it has none, the element that one would be appended to. -/
structure Declaration.IsOwn (declaration : Declaration) (entities : Entities) : Prop where
  itself : entities.Before declaration.element.tag.span.start
  signature : ∀ signature ∈ declaration.signature?, entities.Before signature.tag.span.start
  last : declaration.signature? = none →
    ∀ last ∈ (elements declaration.element.children).getLast?, entities.Before last.tag.span.start

theorem Declaration.isOwn_nil (declaration : Declaration) : declaration.IsOwn [] :=
  ⟨by simp [Entities.Before], by simp [Entities.Before], by simp [Entities.Before]⟩

/-- What stands behind all replacement texts comes from none of them. -/
theorem not_forall_before {entities : Entities} {start : Nat} (before : entities.Before start) :
    ¬ ∀ bound, entities.Before bound → start < bound :=
  fun within => Nat.lt_irrefl start (within start before)

theorem Declaration.IsOwn.element {declaration : Declaration} {entities : Entities}
    (own : declaration.IsOwn entities) : declaration.element.IsOwn entities :=
  ⟨fun signature found => not_forall_before (own.signature signature found),
    fun missing last final => not_forall_before (own.last missing last final)⟩

section
variable {document : Document} {index : Nat} {declaration : Declaration}

/-- A declaration of its own is found where it is written. -/
theorem exists_ownSite (formed : (declaredEntities document.text).WellFormed)
    (declared : document.declarations[index]? = some declaration)
    (own : declaration.IsOwn (declaredEntities document.text)) :
    ∃ place : DeclarationSite document index declaration.element,
      place.source.entities = declaredEntities document.text := by
  obtain ⟨source, root, written, entities, reads, tree_eq⟩ := exists_documentReads formed
  obtain ⟨place, rfl, -⟩ := exists_declarationSite written reads tree_eq declared
    (not_forall_before (entities ▸ own.itself))
  exact ⟨place, entities⟩

theorem Markup.DeclarationSite.signatureFits
    (place : DeclarationSite document index declaration.element)
    (fits : document.ValueFits declaration) : place.site.SignatureFits :=
  place.site.signatureFits fun signature found existing valued written member span =>
    fits signature found existing valued written (place.tokens_infix.subset member) span

/-- Recording is an edit of the text if the declaration can be cut out of it. -/
theorem Document.recorded_eq (placed : declaration.isPlaced document.text.toList = true)
    (value : String) :
    document.recorded declaration value =
      document.apply (document.record declaration value) := by
  rw [recorded, recording, if_pos placed]
  rfl

/-- A value is recorded in a declaration of its own exactly if a document may hold it. -/
theorem exists_recorded_iff (formed : (declaredEntities document.text).WellFormed)
    (declared : document.declarations[index]? = some declaration)
    (own : declaration.IsOwn (declaredEntities document.text))
    (fits : document.ValueFits declaration) (value : String) :
    (∃ changed, document.recorded declaration value = .ok changed) ↔ AllAllowed value.toList := by
  obtain ⟨place, entities⟩ := exists_ownSite formed declared own
  have fits' : place.site.SignatureFits := place.signatureFits fits
  rw [← entities] at formed own
  rw [Document.recorded_eq (place.isPlaced (place.edits own.element fits'))]
  exact place.exists_apply_iff formed own.element fits'

/-- What recording a value in a declaration does to a document, whatever the value is: it has one
place in the text, and the changed text spells the recorded tree. -/
structure Document.RecordsAt (document : Document) (index : Nat) (declaration : Declaration)
    (slot : Slot) : Prop where
  placed : declaration.isPlaced document.text.toList = true
  applies : ∀ value, (document.record declaration value).apply document.text =
    .ok (String.ofList (slot.fill value))
  recordedAt : ∀ {value changed}, document.recorded declaration value = .ok changed →
    ∃ signatureUri?, (declaration.element.tag.name.qualifier = "" →
        signatureUri? = declaration.element.tag.uri?) ∧
      document.tree.RecordedAt value signatureUri? index changed.tree
  rewrites : ∀ {value changed}, document.recorded declaration value = .ok changed →
    declaration.element.tag.name.qualifier = "" →
      ∃ redeclared signature existing, changed.declarations[index]? = some redeclared ∧
        redeclared.signature? = some signature ∧ signature.attribute? "value" = some existing ∧
          existing.valueSpan = slot.spot value

/-- Recording a value in a declaration of its own changes this declaration and nothing else. -/
theorem exists_recordsAt (formed : (declaredEntities document.text).WellFormed)
    (declared : document.declarations[index]? = some declaration)
    (own : declaration.IsOwn (declaredEntities document.text))
    (fits : document.ValueFits declaration) :
    ∃ slot, document.RecordsAt index declaration slot := by
  have accepted := exists_recorded_iff formed declared own fits
  obtain ⟨place, entities⟩ := exists_ownSite formed declared own
  have fits' : place.site.SignatureFits := place.signatureFits fits
  rw [← entities] at formed own
  obtain ⟨slot, applies, holds⟩ := place.exists_slot formed own.element fits'
  have placed := place.isPlaced (place.edits own.element fits')
  have known {value : String} {changed : Document}
      (success : document.recorded declaration value = .ok changed) :
      ∃ root reading spot, slot.spot value = spot.movedBy place.source.start ∧
        place.RecordsIn value spot root reading ∧
        changed.tree = place.source.tree (reading place.source.start) := by
    obtain ⟨other, root, -, -, reading, spot, text, -, spot_eq, -, records, tree_eq⟩ :=
      holds value ((accepted value).mp ⟨changed, success⟩)
    have applied : document.recorded declaration value = .ok other := by
      rw [Document.recorded_eq placed]
      exact Document.apply_eq_ok_iff.mpr ((applies value).trans (congrArg _ text.symm))
    obtain rfl := Except.ok.inj (success.symm.trans applied)
    exact ⟨root, reading, spot, spot_eq, records, tree_eq⟩
  refine ⟨slot, placed, applies, ?_, ?_⟩
  · intro value changed success
    obtain ⟨root, reading, spot, -, records, tree_eq⟩ := known success
    rw [tree_eq]
    exact records.recordedAt
  · intro value changed success unqualified
    obtain ⟨root, reading, spot, spot_eq, records, tree_eq⟩ := known success
    rw [spot_eq]
    exact records.exists_declaration unqualified tree_eq

end

theorem Declaration.uri_plain {document : Document} {index : Nat} {declaration : Declaration}
    (declared : document.declarations[index]? = some declaration) :
    declaration.element.tag.uri?.getD "" = "" := by
  have member := List.mem_of_getElem? declared
  rw [Document.declarations, Tree.declarations] at member
  split at member
  · cases member
  · obtain ⟨element, found, rfl⟩ := List.mem_map.mp member
    have named := (List.mem_filter.mp found).2
    rw [Element.isNamed, Bool.and_eq_true, beq_iff_eq, beq_iff_eq] at named
    exact named.2

/-- In a document without document type declaration, recording a value in an unqualified start
declaration is accepted exactly if a document may hold the value. The tree is then the old one
except that the declaration has the value: in its first signature, or in a new one behind its
last element. -/
theorem Document.recorded_refines {document : Document} {index : Nat} {declaration : Declaration}
    (plain : document.tree.hasDoctype = false)
    (declared : document.declarations[index]? = some declaration)
    (unqualified : declaration.element.tag.name.qualifier = "")
    (fits : document.ValueFits declaration) (value : String) :
    ((∃ changed, document.recorded declaration value = .ok changed) ↔
      ∀ c ∈ value.toList, isAllowed c = true) ∧
    ∀ changed, document.recorded declaration value = .ok changed →
      declaration.element.tag.uri?.getD "" = "" ∧
      document.tree.RecordedAt value declaration.element.tag.uri? index changed.tree := by
  have undeclared := declaredEntities_eq_nil document.spelled plain
  have formed : (declaredEntities document.text).WellFormed := by
    simp [undeclared, Entities.WellFormed]
  have own : declaration.IsOwn (declaredEntities document.text) := by
    rw [undeclared]
    exact declaration.isOwn_nil
  refine ⟨exists_recorded_iff formed declared own fits value, ?_⟩
  intro changed success
  obtain ⟨slot, records⟩ := exists_recordsAt formed declared own fits
  obtain ⟨signatureUri?, uri, recorded⟩ := records.recordedAt success
  rw [uri unqualified] at recorded
  exact ⟨Declaration.uri_plain declared, recorded⟩

set_option maxRecDepth 10000 in
/-- A config with a signed declaration and one that is not signed. -/
def sampleConfig : Document :=
  (Document.ofText ("<config>\n <start name='a'><signature value = 'old'/></start>\n" ++
    " <start name='b'/>\n</config>")).toOption.get (by decide +kernel)

theorem length_sampleConfig : sampleConfig.declarations.length = 2 := by decide +kernel

def sampleDeclaration (index : Fin 2) : Declaration :=
  sampleConfig.declarations.get (index.cast length_sampleConfig.symm)

theorem getElem?_sampleConfig (index : Fin 2) :
    sampleConfig.declarations[index.val]? = some (sampleDeclaration index) :=
  List.getElem?_eq_getElem _

theorem Document.recorded_refines_sampleConfig :
    ∃ changed, sampleConfig.declarations[0]? = some (sampleDeclaration 0) ∧
      sampleConfig.recorded (sampleDeclaration 0) "a\t\"b\"" = .ok changed ∧
      sampleConfig.tree.RecordedAt "a\t\"b\"" (sampleDeclaration 0).element.tag.uri? 0
        changed.tree := by
  have refines := Document.recorded_refines (show sampleConfig.tree.hasDoctype = false by
    decide +kernel) (getElem?_sampleConfig 0) (by decide +kernel) (by decide +kernel) "a\t\"b\""
  obtain ⟨changed, success⟩ := refines.1.mpr (by decide +kernel)
  exact ⟨changed, getElem?_sampleConfig 0, success, (refines.2 changed success).2⟩

end RunSigning
