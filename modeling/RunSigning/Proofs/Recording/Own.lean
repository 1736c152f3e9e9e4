import RunSigning.Proofs.Recording.Append
import RunSigning.Proofs.Recording.Literal

/-
This file records values in documents that declare entities. A replacement text is shared by all
references to it, and it is quoted once more where it is declared. What stands behind all
replacement texts is written once and quoted once, so a value that is recorded there is kept as it
is, and no other declaration sees it.
-/

namespace RunSigning
open RunSigning.Text RunSigning.Markup

instance (entities : Entities) (bound : Nat) : Decidable (entities.Before bound) :=
  inferInstanceAs (Decidable (∀ pair ∈ entities, _))

/-- That a declaration is own can be checked place by place. -/
theorem Declaration.isOwn_iff {declaration : Declaration} {entities : Entities} :
    declaration.IsOwn entities ↔ entities.Before declaration.element.tag.span.start ∧
      (∀ signature ∈ declaration.signature?, entities.Before signature.tag.span.start) ∧
      (declaration.signature? = none → ∀ last ∈ (elements declaration.element.children).getLast?,
        entities.Before last.tag.span.start) :=
  ⟨fun ⟨itself, signature, last⟩ => ⟨itself, signature, last⟩,
    fun ⟨itself, signature, last⟩ => ⟨itself, signature, last⟩⟩

instance (declaration : Declaration) (entities : Entities) :
    Decidable (declaration.IsOwn entities) :=
  decidable_of_iff _ Declaration.isOwn_iff.symm

/-- All replacement texts are in front of the root element. -/
theorem Document.before_root {document : Document} {root : Element}
    (formed : (declaredEntities document.text).WellFormed)
    (found : document.tree.root? = some root) :
    (declaredEntities document.text).Before root.tag.span.start := by
  obtain ⟨source, reading, -, entities, reads, tree_eq⟩ := exists_documentReads formed
  rw [tree_eq, source.root?_tree] at found
  obtain rfl := Option.some.inj found
  have place : byteLength (source.site reads).front = source.start := byteLength_append _ _
  rw [← entities, (source.site reads).span_start, place]
  exact source.entities_before

/-- A declaration is own if it is in the text of the root element, with what it is edited at. -/
theorem Declaration.isOwn_of_root {document : Document} {root : Element} {declaration : Declaration}
    (formed : (declaredEntities document.text).WellFormed)
    (found : document.tree.root? = some root)
    (itself : root.tag.span.start ≤ declaration.element.tag.span.start)
    (signature : ∀ signature ∈ declaration.signature?,
      root.tag.span.start ≤ signature.tag.span.start)
    (last : ∀ last ∈ (elements declaration.element.children).getLast?,
      root.tag.span.start ≤ last.tag.span.start) :
    declaration.IsOwn (declaredEntities document.text) := by
  have before {place : Nat} (behind : root.tag.span.start ≤ place) :
      (declaredEntities document.text).Before place :=
    fun pair member => Nat.le_trans (Document.before_root formed found pair member) behind
  exact ⟨before itself, fun held member => before (signature held member),
    fun _ held member => before (last held member)⟩

/-- A signature element with its value in single quotes. -/
def singleQuotedSource : ElementSource :=
  let attr : AttributeSource :=
    { valueSource "old" (show ∀ c ∈ "old".toList, _ by decide) with
      quote := '\''
      value := "old".toList
      quote_fits := .inl rfl
      value_fits := by decide }
  .empty ⟨signatureName, [attr], [], blank_nil⟩

/-- A config up to the value in a signature element that is declared as an entity. -/
def entityFront : List Char := "<!DOCTYPE config [<!ENTITY s \"<signature value='".toList

/-- The config behind the value, with the given start elements. -/
def entityBehind (starts : String) : List Char :=
  "'/>\">]><config>".toList ++ (starts.toList ++ "</config>".toList)

def entityText (value starts : String) : List Char :=
  entityFront ++ (value.toList ++ entityBehind starts)

/-- A config that declares a signature element as an entity. -/
def entityConfig (value starts : String)
    (accepted : (Tree.parseList (entityText value starts)).toOption.isSome = true) : Document :=
  Document.ofList (entityText value starts) accepted

/-- A declaration whose signature comes from the entity, and one that has none. -/
def mixedConfig : Document :=
  entityConfig "old" "<start name=\"a\">&s;</start><start name=\"b\"/>" (by decide +kernel)

theorem mixedConfig_entities :
    declaredEntities mixedConfig.text = [("s", ⟨30, singleQuotedSource.render⟩)] := by
  decide +kernel

theorem mixedConfig_wellFormed : (declaredEntities mixedConfig.text).WellFormed := by
  rw [mixedConfig_entities]
  intro pair member
  obtain rfl := List.mem_singleton.mp member
  refine ⟨singleQuotedSource.before .nil, ?_, ?_⟩
  · exact (singleQuotedSource.separated_before .nil).mpr ⟨trivial, trivial⟩
  · simp [Content.render]

/-- Recording a value in a declaration that stands behind all replacement texts, with its signature
or its last element, changes no other declaration, also if those come from replacement texts. -/
theorem Document.recorded_others {document changed : Document} {index : Nat}
    {declaration : Declaration} {value : String}
    (formed : (declaredEntities document.text).WellFormed)
    (declared : document.declarations[index]? = some declaration)
    (own : declaration.IsOwn (declaredEntities document.text))
    (fits : document.ValueFits declaration)
    (success : document.recorded declaration value = .ok changed) :
    changed.declarations.length = document.declarations.length ∧
      ∀ other, other ≠ index → (changed.declarations.map Declaration.view)[other]? =
        (document.declarations.map Declaration.view)[other]? := by
  obtain ⟨slot, records⟩ := exists_recordsAt formed declared own fits
  obtain ⟨signatureUri?, -, recorded⟩ := records.recordedAt success
  exact recorded.others

theorem mixedConfig_views : mixedConfig.declarations.map Declaration.view =
    [⟨some "a", none, some "a", true, some "old"⟩, ⟨some "b", none, some "b", false, none⟩] := by
  decide +kernel

theorem length_mixedConfig : mixedConfig.declarations.length = 2 := by
  simpa using congrArg List.length mixedConfig_views

/-- The declaration without signature. -/
def mixedDeclaration : Declaration :=
  mixedConfig.declarations.get ⟨1, by rw [length_mixedConfig]; decide⟩

theorem mixedDeclaration_declared : mixedConfig.declarations[1]? = some mixedDeclaration :=
  List.getElem?_eq_getElem _

theorem mixedDeclaration_isOwn : mixedDeclaration.IsOwn (declaredEntities mixedConfig.text) := by
  rw [mixedConfig_entities]
  decide +kernel

theorem mixedDeclaration_valueFits : mixedConfig.ValueFits mixedDeclaration := by decide +kernel

/-- The signature from the entity is kept. -/
theorem Document.recorded_others_mixedConfig :
    ∃ changed, mixedConfig.recorded mixedDeclaration "S" = .ok changed ∧
      changed.declarations.length = 2 ∧
      (changed.declarations.map Declaration.view)[0]? =
        some ⟨some "a", none, some "a", true, some "old"⟩ := by
  obtain ⟨changed, success⟩ := (exists_recorded_iff mixedConfig_wellFormed mixedDeclaration_declared
    mixedDeclaration_isOwn mixedDeclaration_valueFits "S").mpr (show ∀ c ∈ "S".toList, _ by decide)
  obtain ⟨length, others⟩ := Document.recorded_others mixedConfig_wellFormed
    mixedDeclaration_declared mixedDeclaration_isOwn mixedDeclaration_valueFits success
  refine ⟨changed, success, length.trans length_mixedConfig, ?_⟩
  rw [others 0 (by decide), mixedConfig_views]
  rfl

/-- Two declarations whose signatures come from the entity. -/
def sharedStarts : String := "<start name=\"a\">&s;</start><start name=\"b\">&s;</start>"

def sharedConfig : Document := entityConfig "old" sharedStarts (by decide +kernel)

def signedSharedConfig : Document := entityConfig "S" sharedStarts (by decide +kernel)

theorem sharedConfig_declarations :
    sharedConfig.declarations.map (fun declaration => (
      declaration.isPlaced sharedConfig.text.toList, sharedConfig.record declaration "S",
      declaration.signatureValue?)) =
        List.replicate 2 (true,
          ⟨⟨byteLength entityFront, byteLength entityFront + 3⟩, "S"⟩, some "old") := by
  decide +kernel

theorem signedSharedConfig_declarations :
    signedSharedConfig.declarations.map Declaration.signatureValue? = [some "S", some "S"] := by
  decide +kernel

/-- A value that is recorded in a replacement text is the value of all who refer to it. -/
theorem Document.exists_shared_value :
    ∃ (document changed : Document) (declaration other signed : Declaration),
      document.tree.hasDoctype = true ∧ document.declarations = [declaration, other] ∧
      document.recorded declaration "S" = .ok changed ∧
      changed.declarations[1]? = some signed ∧
      signed.signatureValue? ≠ other.signatureValue? := by
  obtain ⟨declaration, rest, listed, view, others⟩ :=
    List.map_eq_cons_iff.mp sharedConfig_declarations
  obtain ⟨other, rfl, otherView⟩ := List.map_eq_singleton_iff.mp others
  obtain ⟨first, rest, signedListed, -, after⟩ :=
    List.map_eq_cons_iff.mp signedSharedConfig_declarations
  obtain ⟨signed, rfl, read⟩ := List.map_eq_singleton_iff.mp after
  simp only [Prod.mk.injEq] at view otherView
  refine ⟨sharedConfig, signedSharedConfig, declaration, other, signed, by decide +kernel, listed,
    Document.recorded_ofList view.1 view.2.1 rfl rfl rfl _, by rw [signedListed]; rfl, ?_⟩
  rw [read, otherView.2.2]
  decide

/-- Recording a value in a declaration that stands behind all replacement texts, with its signature
or its last element, is accepted exactly if a document may hold the value, and the value is read
back as it is. A new signature is found because its declaration is not qualified. -/
theorem Document.recorded_value {document : Document} {index : Nat} {declaration : Declaration}
    (formed : (declaredEntities document.text).WellFormed)
    (declared : document.declarations[index]? = some declaration)
    (own : declaration.IsOwn (declaredEntities document.text))
    (fits : document.ValueFits declaration)
    (unqualified : declaration.signature? = none → declaration.element.tag.name.qualifier = "")
    (value : String) :
    ((∃ changed, document.recorded declaration value = .ok changed) ↔
      ∀ c ∈ value.toList, isAllowed c = true) ∧
    ∀ changed, document.recorded declaration value = .ok changed →
      ∃ signed, changed.declarations[index]? = some signed ∧
        signed.signatureValue? = some value := by
  refine ⟨exists_recorded_iff formed declared own fits value, fun changed success => ?_⟩
  obtain ⟨slot, records⟩ := exists_recordsAt formed declared own fits
  obtain ⟨signatureUri?, uri, recorded⟩ := records.recordedAt success
  have viewed : (document.tree.declarations.map Declaration.view)[index]? =
      some declaration.view := by
    rw [List.getElem?_map, ← Document.declarations, declared]
    rfl
  have plain : ∀ view, (document.tree.declarations.map Declaration.view)[index]? = some view →
      view.isSigned = false → signatureUri?.getD "" = "" := by
    intro view found unsigned
    obtain rfl := Option.some.inj (viewed.symm.trans found)
    have missing : declaration.signature? = none := by
      simpa [Declaration.view] using unsigned
    rw [uri (unqualified missing)]
    exact Declaration.uri_plain declared
  obtain ⟨view, found, views⟩ := recorded.views plain
  have signed := congrArg (fun views => views[index]?) views
  rw [List.getElem?_set_self (List.getElem?_eq_some_iff.mp found).choose, List.getElem?_map,
    Option.map_eq_some_iff] at signed
  obtain ⟨signed, declared', view_eq⟩ := signed
  exact ⟨signed, declared', congrArg DeclarationView.signatureValue? view_eq⟩

/-- The value is read back from the declaration, and a tab in it is kept. -/
theorem Document.recorded_value_mixedConfig :
    ∃ changed signed, mixedConfig.recorded mixedDeclaration "a\tb" = .ok changed ∧
      changed.declarations[1]? = some signed ∧ signed.signatureValue? = some "a\tb" := by
  obtain ⟨accepted, reads⟩ := Document.recorded_value mixedConfig_wellFormed
    mixedDeclaration_declared mixedDeclaration_isOwn mixedDeclaration_valueFits
    (show mixedDeclaration.signature? = none → _ by decide +kernel) "a\tb"
  obtain ⟨changed, success⟩ := accepted.mpr (by decide)
  obtain ⟨signed, declared, value⟩ := reads changed success
  exact ⟨changed, signed, success, declared, value⟩

/-- One declaration whose signature comes from the entity. -/
def loneStarts : String := "<start name=\"a\">&s;</start>"

def loneConfig : Document := entityConfig "old" loneStarts (by decide +kernel)

def signedLoneConfig : Document := entityConfig "a&#x9;b" loneStarts (by decide +kernel)

theorem loneConfig_declarations :
    loneConfig.declarations.map (fun declaration => (
      declaration.isPlaced loneConfig.text.toList, loneConfig.record declaration "a\tb")) =
        [(true, ⟨⟨byteLength entityFront, byteLength entityFront + 3⟩, "a&#x9;b"⟩)] := by
  decide +kernel

theorem signedLoneConfig_declarations :
    signedLoneConfig.declarations.map Declaration.signatureValue? = [some "a b"] := by
  decide +kernel

/-- A tab is a blank again where the replacement text is read, and becomes a space. -/
theorem Document.exists_altered_value :
    ∃ (document changed : Document) (declaration signed : Declaration),
      document.tree.hasDoctype = true ∧ document.declarations[0]? = some declaration ∧
      document.recorded declaration "a\tb" = .ok changed ∧
      changed.declarations[0]? = some signed ∧ signed.signatureValue? ≠ some "a\tb" := by
  obtain ⟨declaration, single, view⟩ := List.map_eq_singleton_iff.mp loneConfig_declarations
  obtain ⟨signed, alone, read⟩ := List.map_eq_singleton_iff.mp signedLoneConfig_declarations
  simp only [Prod.mk.injEq] at view
  refine ⟨loneConfig, signedLoneConfig, declaration, signed, by decide +kernel,
    by rw [single]; rfl, Document.recorded_ofList view.1 view.2 rfl rfl rfl _, by rw [alone]; rfl, ?_⟩
  rw [read]
  decide

end RunSigning
