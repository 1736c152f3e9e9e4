import RunSigning.Proofs.Recording.Refinement
import RunSigning.Proofs.Signing.Write

/-
This file splits a signing at the moment when the config is loaded. Everything after it depends on
the loaded document alone, except that the file tree takes what is written.
-/

namespace RunSigning

/-- A signature recorded in a document, with the one that was there before. -/
structure Draft where
  previous? : Option String
  signature : String
  document : Document

def Draft.outcome (draft : Draft) (binary : String) (written : Bool) : Outcome :=
  .signed binary draft.previous? draft.signature draft.document written

/-- Whether the config at a path can be loaded and declares a binary under the given name. -/
def FileTree.Declares (tree : FileTree) (config : Path) (binary : String) : Prop :=
  ∃ document, tree.load config = .ok document ∧
    ∃ declaration ∈ document.declarations, declaration.effectiveName? = some binary

theorem Document.find?_eq_none_iff {document : Document} {binary : String} :
    document.find? binary = none ↔
      ∀ declaration ∈ document.declarations, declaration.effectiveName? ≠ some binary := by
  rw [find?, List.find?_eq_none]
  simp [Declaration.matches]

theorem FileTree.declares_iff {tree : FileTree} {config : Path} {binary : String}
    {document : Document} (loads : tree.load config = .ok document) :
    tree.Declares config binary ↔ document.find? binary ≠ none := by
  rw [ne_eq, Document.find?_eq_none_iff]
  constructor
  · rintro ⟨document', loads', declaration, declared, named⟩ none
    obtain rfl := Except.ok.inj (loads.symm.trans loads')
    exact none declaration declared named
  · intro some
    push Not at some
    exact ⟨document, loads, some⟩

namespace SignContext

variable (context : SignContext) (tree : FileTree) (disk : Disk) (runDirectory : Path)
  (binary : String)

/-- The signer's answer, recorded in a declaration of the document. -/
def draft (document : Document) (declaration : Declaration) : Except Error Draft :=
  match context.signer.sign (Layout.binary runDirectory binary) context.key with
  | .error error => .error error
  | .ok signature =>
      match document.recorded declaration signature with
      | .error error => .error error
      | .ok changed => .ok ⟨declaration.signatureValue?, signature, changed⟩

/-- The draft in the first declaration that a binary matches, if there is one. -/
def draft? (document : Document) : Option (Except Error Draft) :=
  (document.find? binary).map (context.draft runDirectory binary document)

/-- What a draft leads to: the result, and the file tree with the config saved if it is to be. -/
def conclude (config : Path) : Option (Except Error Draft) → Except Error Outcome × FileTree
  | none => (if context.strict then .error (.noMatch binary) else .ok .noMatch, tree)
  | some (.error error) => (.error error, tree)
  | some (.ok draft) =>
      if context.dryRun then (.ok (draft.outcome binary false), tree)
      else
        match tree.save disk config draft.document with
        | (.error error, after) => (.error error, after)
        | (.ok (), after) => (.ok (draft.outcome binary true), after)

/-- The part of a signing that follows the load. -/
def proceed (document : Document) : Signing :=
  match document.find? binary with
  | some declaration => context.ask tree disk runDirectory document declaration binary
  | none =>
      if context.strict then ⟨.error (.noMatch binary), tree, [], [.signing]⟩
      else ⟨.ok .noMatch, tree, [], [.signing, .declarationMissing]⟩

/-- A binary without a name is not signed. -/
theorem sign_empty : context.sign tree disk runDirectory "" =
    ⟨.error (.usage "binary name must not be empty"), tree, [], []⟩ := rfl

variable {tree disk runDirectory binary}

theorem sign_load_error {error : Error} (named : binary ≠ "")
    (fails : tree.load (Layout.config runDirectory) = .error error) :
    context.sign tree disk runDirectory binary = ⟨.error error, tree, [], [.signing]⟩ := by
  rw [sign, if_neg named, fails]

/-- Signing is the load and what follows it. -/
theorem sign_eq_proceed {document : Document} (named : binary ≠ "")
    (loads : tree.load (Layout.config runDirectory) = .ok document) :
    context.sign tree disk runDirectory binary =
      context.proceed tree disk runDirectory binary document := by
  rw [sign, if_neg named, loads]
  rfl

variable (tree disk runDirectory binary)

/-- A declaration that is found is drafted, and the draft concluded. -/
theorem ask_eq_conclude (document : Document) (declaration : Declaration) :
    ((context.ask tree disk runDirectory document declaration binary).result,
      (context.ask tree disk runDirectory document declaration binary).tree) =
      context.conclude tree disk binary (Layout.config runDirectory)
        (some (context.draft runDirectory binary document declaration)) := by
  rw [ask, draft]
  cases context.signer.sign (Layout.binary runDirectory binary) context.key with
  | error error => rfl
  | ok signature =>
      dsimp only
      rw [record, ← Document.recorded]
      cases document.recorded declaration signature with
      | error error => rfl
      | ok changed =>
          dsimp only [conclude]
          split
          · rfl
          · obtain ⟨error | ⟨⟩, after⟩ := tree.save disk (Layout.config runDirectory) changed
            · rfl
            · rfl

/-- Past the load, result and file tree are what the draft leads to. -/
theorem proceed_eq_conclude (document : Document) :
    ((context.proceed tree disk runDirectory binary document).result,
      (context.proceed tree disk runDirectory binary document).tree) =
      context.conclude tree disk binary (Layout.config runDirectory)
        (context.draft? runDirectory binary document) := by
  rw [proceed, draft?]
  cases document.find? binary with
  | none =>
      dsimp only [Option.map_none, conclude]
      split <;> rfl
  | some declaration =>
      exact context.ask_eq_conclude tree disk runDirectory binary document declaration

theorem ask_calls (document : Document) (declaration : Declaration) :
    (context.ask tree disk runDirectory document declaration binary).calls =
      [(Layout.binary runDirectory binary, context.key)] := by
  rw [ask]
  cases context.signer.sign (Layout.binary runDirectory binary) context.key with
  | error error => rfl
  | ok signature =>
      dsimp only
      rw [record]
      cases document.recording declaration signature >>= document.apply with
      | error error => rfl
      | ok changed =>
          dsimp only
          split
          · rfl
          · obtain ⟨error | ⟨⟩, after⟩ := tree.save disk (Layout.config runDirectory) changed
            · rfl
            · rfl

/-- The signer is asked once if a declaration matches. -/
theorem proceed_calls (document : Document) :
    (context.proceed tree disk runDirectory binary document).calls =
      if document.find? binary = none then []
      else [(Layout.binary runDirectory binary, context.key)] := by
  rw [proceed]
  cases document.find? binary with
  | none =>
      dsimp only
      rw [if_pos rfl]
      split <;> rfl
  | some declaration =>
      rw [if_neg (Option.some_ne_none _)]
      exact context.ask_calls tree disk runDirectory binary document declaration

end SignContext

end RunSigning
