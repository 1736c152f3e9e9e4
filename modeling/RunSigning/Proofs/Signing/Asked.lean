import RunSigning.Proofs.FileTree.Names
import RunSigning.Proofs.Signing.Draft
import RunSigning.Proofs.Signing.Run

/-
This file says which file the signer is asked to sign. A binary with a relative name is asked for in
the directory of the config, whatever the path of that directory looks like. An absolute name takes
the place of this path.
-/

namespace RunSigning

namespace Layout

variable (runDirectory : Path)

theorem getLast?_names_genode : (runDirectory.join genode).names.getLast? = some "genode" := by
  obtain ⟨before, split⟩ := @Path.exists_names_join runDirectory genode rfl
  rw [split, List.getLast?_append_of_ne_nil _ (Path.names_ne_nil _)]
  rfl

/-- The config stands in the directory of the binaries. -/
theorem directory_config : (config runDirectory).directory = runDirectory.join genode :=
  Path.directory_join (getLast?_names_genode runDirectory) rfl rfl rfl rfl

/-- A relative name stands behind the directory of the config and one slash. -/
theorem binary_of_relative {name : String} (relative : Path.isAbsolute ⟨name⟩ = false) :
    binary runDirectory name = ⟨(config runDirectory).directory.text ++ "/" ++ name⟩ := by
  rw [directory_config, binary,
    Path.join_of_named (getLast?_names_genode runDirectory) (by decide) relative]

/-- An absolute name stands alone. -/
theorem binary_of_absolute {name : String} (absolute : Path.isAbsolute ⟨name⟩ = true) :
    binary runDirectory name = ⟨name⟩ := by
  rw [binary, Path.join, if_pos absolute]

/-- Exactly the relative names lead into the directory of the config by their spelling. -/
theorem text_binary_iff {name : String} :
    (binary runDirectory name).text = (config runDirectory).directory.text ++ "/" ++ name ↔
      Path.isAbsolute ⟨name⟩ = false := by
  constructor
  · intro spelled
    by_contra absolute
    rw [binary_of_absolute runDirectory (by simpa using absolute)] at spelled
    have lengths := congrArg String.length spelled
    simp only [String.length_append, show "/".length = 1 from rfl] at lengths
    omega
  · intro relative
    rw [binary_of_relative runDirectory relative]

end Layout

namespace SignContext

variable (context : SignContext) (tree : FileTree) (disk : Disk) (runDirectory : Path)
  (binary : String)

/-- A signer that is asked at all is asked once, about the binary of a declaration. -/
theorem exists_found_of_mem_calls {call : Path × Path}
    (asked : call ∈ (context.sign tree disk runDirectory binary).calls) :
    (context.sign tree disk runDirectory binary).calls = [call] ∧
    call = (Layout.binary runDirectory binary, context.key) ∧
    ∃ document declaration, tree.load (Layout.config runDirectory) = .ok document ∧
      document.find? binary = some declaration := by
  by_cases unnamed : binary = ""
  · rw [unnamed, sign_empty] at asked
    cases asked
  cases loads : tree.load (Layout.config runDirectory) with
  | error error =>
      rw [context.sign_load_error unnamed loads] at asked
      cases asked
  | ok document =>
      rw [context.sign_eq_proceed unnamed loads, proceed_calls] at asked ⊢
      cases found : document.find? binary with
      | none =>
          rw [if_pos found] at asked
          cases asked
      | some declaration =>
          rw [found, if_neg (Option.some_ne_none _)] at asked
          rw [if_neg (Option.some_ne_none _), ← List.mem_singleton.mp asked]
          exact ⟨rfl, rfl, document, declaration, rfl, found⟩

/-- What the signer is asked to sign. It is asked at most once, with the key of the context, and
only about the effective name of a declaration in the config that was loaded. The path it gets is
the directory of the config, one slash and this name exactly if the name is relative. Its names are
then those of the directory and those of the name, whatever they are. An absolute name is passed on
as it is, and nothing ties it to the run directory. -/
theorem sign_asks {call : Path × Path}
    (asked : call ∈ (context.sign tree disk runDirectory binary).calls) :
    let directory := (Layout.config runDirectory).directory
    (context.sign tree disk runDirectory binary).calls = [call] ∧ call.2 = context.key ∧
    (∃ document declaration, tree.load (Layout.config runDirectory) = .ok document ∧
      document.find? binary = some declaration ∧ declaration.effectiveName? = some binary) ∧
    (call.1.text = directory.text ++ "/" ++ binary ↔ Path.isAbsolute ⟨binary⟩ = false) ∧
    (Path.isAbsolute ⟨binary⟩ = false →
      call.1.names = directory.names ++ Path.names ⟨binary⟩) ∧
    (Path.isAbsolute ⟨binary⟩ = true → call.1 = ⟨binary⟩) := by
  obtain ⟨once, rfl, document, declaration, loads, found⟩ :=
    context.exists_found_of_mem_calls tree disk runDirectory binary asked
  have named : declaration.effectiveName? = some binary := by
    simpa [Declaration.matches] using List.find?_some found
  refine ⟨once, rfl, ⟨document, declaration, loads, found, named⟩,
    Layout.text_binary_iff runDirectory, ?_, Layout.binary_of_absolute runDirectory⟩
  intro relative
  rw [Layout.binary_of_relative runDirectory relative, Path.names_slash]

end SignContext

/-- A signer that gives the same signature for everything. -/
def sampleContext : SignContext := .ofSigner (.constant (.ok "S"))

theorem sampleContext_calls {tree : FileTree} {disk : Disk} {document : Document}
    {binary : String} (loads : tree.load (Layout.config ⟨"run"⟩) = .ok document) (named : binary ≠ "")
    (found : document.find? binary ≠ none) :
    (sampleContext.sign tree disk ⟨"run"⟩ binary).calls =
      [(Layout.binary ⟨"run"⟩ binary, ⟨"bin/private.key"⟩)] := by
  rw [sampleContext.sign_eq_proceed named loads, SignContext.proceed_calls, if_neg found]
  rfl

theorem SignContext.sign_asks_sampleRun :
    (⟨"run/genode/b"⟩, ⟨"bin/private.key"⟩) ∈
      (sampleContext.sign sampleRun .standard ⟨"run"⟩ "b").calls ∧
    ∃ document declaration, sampleRun.load (Layout.config ⟨"run"⟩) = .ok document ∧
      document.find? "b" = some declaration ∧ declaration.effectiveName? = some "b" := by
  have asked : (⟨"run/genode/b"⟩, ⟨"bin/private.key"⟩) ∈
      (sampleContext.sign sampleRun .standard ⟨"run"⟩ "b").calls := by
    rw [sampleContext_calls load_sampleRun (by decide) (by decide +kernel), List.mem_singleton]
    rfl
  exact ⟨asked, (sampleContext.sign_asks sampleRun .standard ⟨"run"⟩ "b" asked).2.2.1⟩

/-- A config with a declaration whose name is an absolute path. -/
def absoluteConfig : Document :=
  (Document.ofText "<config><start name=\"/b\"/></config>").toOption.get (by decide +kernel)

/-- A run directory with this config. -/
def absoluteRun : FileTree :=
  sampleRun.set ["run", "genode", "config"] (.file ⟨0o644, absoluteConfig.bytes, none⟩)

theorem load_absoluteRun : absoluteRun.load (Layout.config ⟨"run"⟩) = .ok absoluteConfig :=
  FileTree.load_set load_sampleRun rfl rfl absoluteConfig

/-- The signer is asked to sign a file outside of the run directory. -/
theorem SignContext.sign_asks_outside :
    (⟨"/b"⟩, ⟨"bin/private.key"⟩) ∈ (sampleContext.sign absoluteRun .standard ⟨"run"⟩ "/b").calls ∧
    (Layout.config ⟨"run"⟩).directory = ⟨"run/genode"⟩ ∧
    "/b" ≠ (Layout.config ⟨"run"⟩).directory.text ++ "/" ++ "/b" := by
  refine ⟨?_, by rw [Layout.directory_config]; rfl, ?_⟩
  · rw [sampleContext_calls load_absoluteRun (by decide) (by decide +kernel), List.mem_singleton]
    rfl
  · rw [Layout.directory_config]
    decide

end RunSigning
