import RunSigning.Proofs.Signing.Draft

/-
This file compares signings that differ in their flags only. All of them make the same draft; the
flags say what becomes of it.
-/

namespace RunSigning

/-- Signing with the two flags left open. -/
def Signer.signWith (signer : Signer) (key : Path) (tree : FileTree) (disk : Disk)
    (runDirectory : Path) (binary : String) (strict dryRun : Bool) : Signing :=
  SignContext.sign ⟨signer, key, strict, dryRun⟩ tree disk runDirectory binary

/-- The outcome of the same signing if nothing had been written. -/
def Outcome.unwritten : Outcome → Outcome
  | .signed binary previous? signature document _ =>
      .signed binary previous? signature document false
  | .noMatch => .noMatch

/-- The result of the same signing, and the file tree after it, if the document is to be written. -/
def Outcome.realize (tree : FileTree) (disk : Disk) (config : Path) :
    Outcome → Except Error Outcome × FileTree
  | .signed binary previous? signature document _ =>
      match tree.save disk config document with
      | (.error error, after) => (.error error, after)
      | (.ok (), after) => (.ok (.signed binary previous? signature document true), after)
  | .noMatch => (.ok .noMatch, tree)

namespace Signer

variable (signer : Signer) (key : Path) (tree : FileTree) (disk : Disk) (runDirectory : Path)
  (binary : String)

/-- The draft of a document, which no flag has a part in. -/
def draft? (document : Document) : Option (Except Error Draft) :=
  SignContext.draft? ⟨signer, key, false, false⟩ runDirectory binary document

/-- What becomes of a draft under the given flags. -/
def concludeWith (document : Document) (strict dryRun : Bool) : Except Error Outcome × FileTree :=
  SignContext.conclude ⟨signer, key, strict, dryRun⟩ tree disk binary (Layout.config runDirectory)
    (signer.draft? key runDirectory binary document)

/-- Signings that differ in their flags fail alike before they have a document, or they have the
same one. -/
inductive Flagged (sign : Bool → Bool → Signing) : Prop where
  | failed (error : Error)
      (unloaded : binary = "" ∨ ∀ document, tree.load (Layout.config runDirectory) ≠ .ok document)
      (results : ∀ strict dryRun, (sign strict dryRun).result = .error error)
      (trees : ∀ strict dryRun, (sign strict dryRun).tree = tree)
      (calls : ∀ strict dryRun, (sign strict dryRun).calls = [])
  | loaded (document : Document) (named : binary ≠ "")
      (loads : tree.load (Layout.config runDirectory) = .ok document)
      (results : ∀ strict dryRun, (sign strict dryRun).result =
        (signer.concludeWith key tree disk runDirectory binary document strict dryRun).1)
      (trees : ∀ strict dryRun, (sign strict dryRun).tree =
        (signer.concludeWith key tree disk runDirectory binary document strict dryRun).2)
      (calls : ∀ strict dryRun, (sign strict dryRun).calls =
        if document.find? binary = none then [] else [(Layout.binary runDirectory binary, key)])

theorem Flagged.of_eq {sign : Bool → Bool → Signing} {error : Error} {events : List Event}
    (unloaded : binary = "" ∨ ∀ document, tree.load (Layout.config runDirectory) ≠ .ok document)
    (same : ∀ strict dryRun, sign strict dryRun = ⟨.error error, tree, [], events⟩) :
    signer.Flagged key tree disk runDirectory binary sign :=
  .failed error unloaded (by simp [same]) (by simp [same]) (by simp [same])

theorem flagged_signWith : signer.Flagged key tree disk runDirectory binary
    (signer.signWith key tree disk runDirectory binary) := by
  by_cases named : binary = ""
  · subst named
    exact .of_eq _ _ _ _ _ _ (.inl rfl) fun _ _ => SignContext.sign_empty _ tree disk runDirectory
  · cases loads : tree.load (Layout.config runDirectory) with
    | error error =>
        exact .of_eq _ _ _ _ _ _ (.inr (by simp [loads])) fun _ _ =>
          SignContext.sign_load_error _ named loads
    | ok document =>
        have proceeds strict dryRun : signer.signWith key tree disk runDirectory binary strict dryRun =
            SignContext.proceed ⟨signer, key, strict, dryRun⟩ tree disk runDirectory binary document :=
          SignContext.sign_eq_proceed _ named loads
        refine .loaded document named loads ?_ ?_ ?_
        · intro strict dryRun
          rw [proceeds]
          exact congrArg Prod.fst (SignContext.proceed_eq_conclude _ tree disk runDirectory binary _)
        · intro strict dryRun
          rw [proceeds]
          exact congrArg Prod.snd (SignContext.proceed_eq_conclude _ tree disk runDirectory binary _)
        · intro strict dryRun
          rw [proceeds]
          exact SignContext.proceed_calls _ tree disk runDirectory binary document

/-- Whatever the flags, the signer is asked once for a binary that has a name and is declared, and
never for any other. -/
theorem signWith_calls (strict dryRun : Bool) :
    let calls := (signer.signWith key tree disk runDirectory binary strict dryRun).calls
    let declared := binary ≠ "" ∧ tree.Declares (Layout.config runDirectory) binary
    (declared → calls = [(Layout.binary runDirectory binary, key)]) ∧ (¬ declared → calls = []) := by
  cases signer.flagged_signWith key tree disk runDirectory binary with
  | failed error unloaded results trees calls =>
      refine ⟨?_, fun _ => calls strict dryRun⟩
      rintro ⟨named, document, loads, -⟩
      rcases unloaded with unnamed | unloaded
      · exact absurd unnamed named
      · exact absurd loads (unloaded document)
  | loaded document named loads results trees calls =>
      dsimp only
      rw [calls, FileTree.declares_iff loads]
      by_cases missing : document.find? binary = none <;> simp [missing, named]

/-- A strict signing leaves the file tree that any other leaves, and differs in its result only if
the config loads and declares no such binary. -/
theorem signWith_strict (dryRun : Bool) :
    let sign := signer.signWith key tree disk runDirectory binary
    let missed := binary ≠ "" ∧ (∃ document, tree.load (Layout.config runDirectory) = .ok document) ∧
      ¬ tree.Declares (Layout.config runDirectory) binary
    (sign true dryRun).tree = (sign false dryRun).tree ∧
    (missed → (sign true dryRun).result = .error (.noMatch binary) ∧
      (sign false dryRun).result = .ok .noMatch) ∧
    (¬ missed → (sign true dryRun).result = (sign false dryRun).result) := by
  dsimp only
  cases signer.flagged_signWith key tree disk runDirectory binary with
  | failed error unloaded results trees calls =>
      rw [trees, trees, results, results]
      refine ⟨rfl, ?_, fun _ => rfl⟩
      rintro ⟨named, ⟨document, loads⟩, -⟩
      rcases unloaded with unnamed | unloaded
      · exact absurd unnamed named
      · exact absurd loads (unloaded document)
  | loaded document named loads results trees calls =>
      rw [trees, trees, results, results, FileTree.declares_iff loads]
      simp only [concludeWith, draft?, SignContext.draft?]
      cases found : document.find? binary with
      | none =>
          refine ⟨rfl, fun _ => ⟨rfl, rfl⟩, ?_⟩
          intro declared
          exact absurd ⟨named, ⟨document, loads⟩, by simp⟩ declared
      | some declaration =>
          rw [Option.map_some]
          refine ⟨?_, ?_, fun _ => ?_⟩
          · cases SignContext.draft ⟨signer, key, false, false⟩ runDirectory binary document
              declaration <;> rfl
          · rintro ⟨-, -, missing⟩
            exact absurd (Option.some_ne_none _) missing
          · cases SignContext.draft ⟨signer, key, false, false⟩ runDirectory binary document
              declaration <;> rfl

/-- A dry run changes no file. The real run fails as it does, or goes on to write the document that
the dry run returns; this may fail too. A real run that succeeds has written that document, and it
can be read back. -/
theorem signWith_dryRun (strict : Bool) :
    let config := Layout.config runDirectory
    let dry := signer.signWith key tree disk runDirectory binary strict true
    let real := signer.signWith key tree disk runDirectory binary strict false
    dry.tree = tree ∧
    (∀ error, dry.result = .error error → real.result = .error error ∧ real.tree = tree) ∧
    (∀ outcome, dry.result = .ok outcome →
      (real.result, real.tree) = outcome.realize tree disk config) ∧
    (∀ outcome, real.result = .ok outcome → dry.result = .ok outcome.unwritten) ∧
    ∀ name previous? signature document written,
      real.result = .ok (.signed name previous? signature document written) →
        written = true ∧ real.tree.read config = .ok document.bytes := by
  dsimp only
  cases signer.flagged_signWith key tree disk runDirectory binary with
  | failed error unloaded results trees calls =>
      rw [trees, trees, results, results]
      exact ⟨rfl, fun _ same => ⟨same, rfl⟩, by simp, by simp, by simp⟩
  | loaded document named loads results trees calls =>
      rw [trees, trees, results, results, concludeWith, concludeWith]
      cases signer.draft? key runDirectory binary document with
      | none =>
          cases strict <;>
            simp [SignContext.conclude, Outcome.realize, Outcome.unwritten]
      | some drafted =>
          cases drafted with
          | error error => simp [SignContext.conclude]
          | ok draft =>
              obtain ⟨location, file, traced, held, saved⟩ :=
                FileTree.exists_save_of_load loads disk draft.document
              have readable := FileTree.read_set loads traced held draft.document.bytes
              cases obstructed : tree.obstacle? disk location with
              | some error =>
                  rw [obstructed] at saved
                  simp [SignContext.conclude, Draft.outcome, Outcome.realize, saved]
              | none =>
                  rw [obstructed] at saved
                  simp only [SignContext.conclude, Draft.outcome, saved]
                  refine ⟨rfl, by simp, ?_, ?_, ?_⟩
                  · rintro _ ⟨⟩
                    simp [Outcome.realize, saved]
                  · rintro _ ⟨⟩
                    rfl
                  · rintro _ _ _ _ _ ⟨⟩
                    exact ⟨rfl, readable⟩

/-- A binary that is declared is signed as its signer says: the signer's error is the result under
all flags, and the signer's signature is recorded in the declaration. -/
theorem signWith_declared {document : Document} {declaration : Declaration} (named : binary ≠ "")
    (loads : tree.load (Layout.config runDirectory) = .ok document)
    (found : document.find? binary = some declaration) (strict : Bool) :
    let sign := signer.signWith key tree disk runDirectory binary strict
    (∀ error, signer.sign (Layout.binary runDirectory binary) key = .error error →
      ∀ dryRun, (sign dryRun).result = .error error) ∧
    ∀ signature, signer.sign (Layout.binary runDirectory binary) key = .ok signature →
      (sign true).result = (document.recorded declaration signature).map fun changed =>
        .signed binary declaration.signatureValue? signature changed false := by
  dsimp only
  cases signer.flagged_signWith key tree disk runDirectory binary with
  | failed error unloaded results trees calls =>
      rcases unloaded with unnamed | unloaded
      · exact absurd unnamed named
      · exact absurd loads (unloaded document)
  | loaded document' named' loads' results trees calls =>
      obtain rfl := Except.ok.inj (loads.symm.trans loads')
      simp only [results, concludeWith, draft?, SignContext.draft?, found, Option.map_some,
        SignContext.draft]
      refine ⟨?_, ?_⟩
      · intro error refused dryRun
        rw [refused]
        rfl
      · intro signature answered
        rw [answered]
        dsimp only
        cases document.recorded declaration signature <;> rfl

/-- The two flags have no part in anything else. Whatever they are, the signer is asked the same:
once for a binary that has a name and is declared in the config, and never for any other; and its
answer decides, as an error or as the signature that is recorded. A strict signing differs only if
nothing matches. A real run fails as the dry run does, or writes the document that the dry run
returns, which may fail too. -/
theorem signWith_flags :
    let config := Layout.config runDirectory
    let declared := binary ≠ "" ∧ tree.Declares config binary
    let missed := binary ≠ "" ∧ (∃ document, tree.load config = .ok document) ∧
      ¬ tree.Declares config binary
    let sign := signer.signWith key tree disk runDirectory binary
    (∀ strict dryRun, (declared → (sign strict dryRun).calls =
        [(Layout.binary runDirectory binary, key)]) ∧
      (¬ declared → (sign strict dryRun).calls = [])) ∧
    (∀ document declaration, binary ≠ "" → tree.load config = .ok document →
      document.find? binary = some declaration → ∀ strict,
        (∀ error, signer.sign (Layout.binary runDirectory binary) key = .error error →
          ∀ dryRun, (sign strict dryRun).result = .error error) ∧
        ∀ signature, signer.sign (Layout.binary runDirectory binary) key = .ok signature →
          (sign strict true).result = (document.recorded declaration signature).map fun changed =>
            .signed binary declaration.signatureValue? signature changed false) ∧
    (∀ dryRun, (sign true dryRun).tree = (sign false dryRun).tree ∧
      (missed → (sign true dryRun).result = .error (.noMatch binary) ∧
        (sign false dryRun).result = .ok .noMatch) ∧
      (¬ missed → (sign true dryRun).result = (sign false dryRun).result)) ∧
    ∀ strict, (sign strict true).tree = tree ∧
      (∀ error, (sign strict true).result = .error error →
        (sign strict false).result = .error error ∧ (sign strict false).tree = tree) ∧
      (∀ outcome, (sign strict true).result = .ok outcome →
        ((sign strict false).result, (sign strict false).tree) =
          outcome.realize tree disk config) ∧
      (∀ outcome, (sign strict false).result = .ok outcome →
        (sign strict true).result = .ok outcome.unwritten) ∧
      ∀ name previous? signature document written,
        (sign strict false).result = .ok (.signed name previous? signature document written) →
          written = true ∧ (sign strict false).tree.read config = .ok document.bytes :=
  ⟨signer.signWith_calls key tree disk runDirectory binary,
    fun _ _ => signer.signWith_declared key tree disk runDirectory binary,
    signer.signWith_strict key tree disk runDirectory binary,
    signer.signWith_dryRun key tree disk runDirectory binary⟩

end Signer

end RunSigning
