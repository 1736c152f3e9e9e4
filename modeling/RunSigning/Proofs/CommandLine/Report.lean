import RunSigning.CommandLine.Report
import RunSigning.Proofs.CommandLine.Arguments
import RunSigning.Proofs.Signing.Write

/-
This file says that the command does what the signing does that its arguments ask for, and shows
how that went: by the exit code, the output and the error.
-/

namespace RunSigning

/-- A signing that fails leaves the file tree as it was. -/
theorem SignContext.sign_tree_of_error {context : SignContext} {tree : FileTree} {disk : Disk}
    {runDirectory : Path} {binary : String} {error : Error}
    (fails : (context.sign tree disk runDirectory binary).result = .error error) :
    (context.sign tree disk runDirectory binary).tree = tree := by
  cases context.effect_sign tree disk runDirectory binary with
  | unchanged kept unwritten => exact kept
  | written loads traced held signed changed => cases fails.symm.trans signed

/-- So does a signing whose document was not written. -/
theorem SignContext.sign_tree_of_unwritten {context : SignContext} {tree : FileTree} {disk : Disk}
    {runDirectory : Path} {binary name : String} {previous? : Option String} {signature : String}
    {document : Document}
    (succeeds : (context.sign tree disk runDirectory binary).result =
      .ok (.signed name previous? signature document false)) :
    (context.sign tree disk runDirectory binary).tree = tree := by
  cases context.effect_sign tree disk runDirectory binary with
  | unchanged kept unwritten => exact kept
  | written loads traced held signed changed => cases succeeds.symm.trans signed

theorem Outcome.unwritten_or_silent (outcome : Outcome) :
    (∃ name previous? signature document,
      outcome = .signed name previous? signature document false) ∨
    ∀ name previous? signature document,
      outcome ≠ .signed name previous? signature document false := by
  cases outcome with
  | noMatch => exact .inr nofun
  | signed name previous? signature document written =>
      cases written with
      | false => exact .inl ⟨name, previous?, signature, document, rfl⟩
      | true => exact .inr nofun

end RunSigning

namespace RunSigning.CommandLine

theorem versionText_ne : versionText ≠ "" := by decide

/-- How a signing went, as its report shows it. -/
structure Report.Shows (report : Report) (signing : Signing) (surroundings : Surroundings) :
    Prop where
  tree : report.tree = signing.tree
  usage : report.showsUsage = false
  exitCode : report.exitCode = if report.error?.isSome then 1 else 0
  printed : Signing.printed signing surroundings = (report.output, report.error?)

theorem Invocation.report_shows {invocation : Invocation} {surroundings : Surroundings}
    {tree : FileTree} (runs : (invocation.report surroundings tree).stops = false) :
    (invocation.report surroundings tree).Shows (invocation.sign surroundings.disk tree)
      surroundings := by
  rw [Invocation.report] at runs ⊢
  split at runs
  · rw [Signing.report] at runs ⊢
    dsimp only at runs ⊢
    split at runs
    · cases runs
    · rename_i tame
      rw [if_neg tame]
      exact ⟨rfl, rfl, rfl, rfl⟩
  · cases runs

namespace Report.Shows

variable {report : Report} {signing : Signing} {surroundings : Surroundings}

theorem exitCode_cases (shows : report.Shows signing surroundings) :
    report.exitCode = 0 ∨ report.exitCode = 1 := by
  rw [shows.exitCode]
  split
  · exact .inr rfl
  · exact .inl rfl

/-- A signing that fails prints nothing, and the report shows its error. -/
theorem of_error (shows : report.Shows signing surroundings) {error : Error}
    (fails : signing.result = .error error) :
    report.exitCode = 1 ∧ report.output = "" ∧ report.error? = some error := by
  have printed := shows.printed
  rw [Signing.printed, fails, Prod.mk.injEq] at printed
  obtain ⟨output, error?⟩ := printed
  exact ⟨by rw [shows.exitCode, ← error?]; rfl, output.symm, error?.symm⟩

/-- Nor does a signing print anything whose document was written or that has none. -/
theorem of_silent (shows : report.Shows signing surroundings) {outcome : Outcome}
    (succeeds : signing.result = .ok outcome)
    (silent : ∀ name previous? signature document,
      outcome ≠ .signed name previous? signature document false) :
    report.exitCode = 0 ∧ report.output = "" ∧ report.error? = none := by
  have nothing : Signing.printed signing surroundings = ("", none) := by
    rw [Signing.printed, succeeds]
    split
    · rename_i same
      exact absurd (Except.ok.inj same) (silent _ _ _ _)
    · rfl
    · rename_i same
      cases same
  obtain ⟨output, error?⟩ := Prod.mk.inj (shows.printed.symm.trans nothing)
  exact ⟨by rw [shows.exitCode, error?]; rfl, output, error?⟩

/-- A document that was not written is printed as far as the output takes it. -/
theorem of_unwritten (shows : report.Shows signing surroundings) {name : String}
    {previous? : Option String} {signature : String} {document : Document}
    (succeeds : signing.result = .ok (.signed name previous? signature document false)) :
    report.output = (surroundings.prints document.text).1 ∧
      report.error? = (surroundings.prints document.text).2.map fun refusal =>
        .io (.system refusal) := by
  have printed := shows.printed
  rw [Signing.printed, succeeds, Prod.mk.injEq] at printed
  exact ⟨printed.1.symm, printed.2.symm⟩

/-- An output that refuses the text of a document makes the command fail. -/
theorem of_refused (shows : report.Shows signing surroundings) {name : String}
    {previous? : Option String} {signature : String} {document : Document} {refusal : SystemError}
    (succeeds : signing.result = .ok (.signed name previous? signature document false))
    (refused : (surroundings.prints document.text).2 = some refusal) :
    report.exitCode = 1 ∧
      report.errorText? = some ("Error: " ++ (Error.io (.system refusal)).message ++ "\n") := by
  have error? := (shows.of_unwritten succeeds).2
  rw [refused] at error?
  exact ⟨by rw [shows.exitCode, error?]; rfl, by rw [errorText?, error?]; rfl⟩

/-- An output that takes all texts shows how the signing went, and nothing else. -/
theorem of_prints (shows : report.Shows signing surroundings)
    (prints : ∀ text, surroundings.prints text = (text, none)) :
    (report.exitCode = 0 ↔ ∃ outcome, signing.result = .ok outcome) ∧
    (∀ name previous? signature document,
      signing.result = .ok (.signed name previous? signature document false) →
        report.output = document.text) ∧
    ((∀ name previous? signature document,
      signing.result ≠ .ok (.signed name previous? signature document false)) →
        report.output = "") ∧
    (∀ outcome, signing.result = .ok outcome → report.errorText? = none) ∧
    ∀ error, signing.result = .error error →
      report.errorText? = some ("Error: " ++ error.message ++ "\n") := by
  have unfailing {outcome : Outcome} (succeeds : signing.result = .ok outcome) :
      report.error? = none := by
    obtain ⟨name, previous?, signature, document, rfl⟩ | silent := outcome.unwritten_or_silent
    · rw [(shows.of_unwritten succeeds).2, prints]
      rfl
    · exact (shows.of_silent succeeds silent).2.2
  refine ⟨?_, ?_, ?_, ?_, ?_⟩
  · constructor
    · intro exits
      cases result : signing.result with
      | ok outcome => exact ⟨outcome, rfl⟩
      | error error => cases exits.symm.trans (shows.of_error result).1
    · rintro ⟨outcome, succeeds⟩
      rw [shows.exitCode, unfailing succeeds]
      rfl
  · intro name previous? signature document succeeds
    rw [(shows.of_unwritten succeeds).1, prints]
  · intro unsigned
    cases result : signing.result with
    | error error => exact (shows.of_error result).2.1
    | ok outcome =>
        refine (shows.of_silent result ?_).2.1
        rintro name previous? signature document rfl
        exact unsigned name previous? signature document result
  · intro outcome succeeds
    rw [errorText?, unfailing succeeds]
    rfl
  · intro error fails
    rw [errorText?, (shows.of_error fails).2.2]
    rfl

end Report.Shows

/-- A run that fails, or shows how it is used or its version, changes no file. -/
theorem Report.Shows.tree_eq {report : Report} {invocation : Invocation}
    {surroundings : Surroundings} {tree : FileTree}
    (shows : report.Shows (invocation.sign surroundings.disk tree) surroundings)
    (silent : report.exitCode = 1 ∨ report.showsUsage = true ∨ report.output = versionText) :
    report.tree = tree := by
  rw [shows.tree]
  cases result : (invocation.sign surroundings.disk tree).result with
  | error error => exact SignContext.sign_tree_of_error result
  | ok outcome =>
      obtain ⟨name, previous?, signature, document, rfl⟩ | written := outcome.unwritten_or_silent
      · exact SignContext.sign_tree_of_unwritten result
      · obtain ⟨succeeds, output, -⟩ := shows.of_silent result written
        rw [succeeds, shows.usage, output] at silent
        exact absurd silent (by simp [versionText_ne.symm])

/-- The command agrees with the signing that its arguments ask for. A run that is not stopped exits
with 0 or 1, and changes no file if it exits with 1 or shows how it is used or its version. If the
arguments spell an invocation, the file tree is the one that the signing leaves. If the output takes
all texts, the command exits with 0 exactly if the signing succeeds, its output is the text of a
document that was signed but not written, and the error that it shows is the one of the signing. An
output that refuses the text of such a document makes the command fail with that error. -/
theorem report_agrees {arguments : List String} {surroundings : Surroundings} {tree : FileTree}
    (runs : (report arguments surroundings tree).stops = false) :
    let shown := report arguments surroundings tree
    (shown.exitCode = 0 ∨ shown.exitCode = 1) ∧
    (shown.exitCode = 1 ∨ shown.showsUsage = true ∨ shown.output = versionText →
      shown.tree = tree) ∧
    (∀ invocation : Invocation, invocation.SpelledBy arguments →
      let context : SignContext := ⟨ExternalSigner.inTree ⟨invocation.signer, []⟩ tree,
        invocation.key, invocation.strict, invocation.dryRun⟩
      let signing :=
        context.sign tree surroundings.disk invocation.runDirectory invocation.binary
      shown.tree = signing.tree ∧
      ((∀ text, surroundings.prints text = (text, none)) →
        (shown.exitCode = 0 ↔ ∃ outcome, signing.result = .ok outcome) ∧
        (∀ name previous? signature document,
          signing.result = .ok (.signed name previous? signature document false) →
            shown.output = document.text) ∧
        ((∀ name previous? signature document,
          signing.result ≠ .ok (.signed name previous? signature document false)) →
            shown.output = "") ∧
        (∀ outcome, signing.result = .ok outcome → shown.errorText? = none) ∧
        ∀ error, signing.result = .error error →
          shown.errorText? = some ("Error: " ++ error.message ++ "\n")) ∧
      ∀ name previous? signature document refusal,
        signing.result = .ok (.signed name previous? signature document false) →
        (surroundings.prints document.text).2 = some refusal →
          shown.exitCode = 1 ∧
          shown.errorText? =
            some ("Error: " ++ (Error.io (.system refusal)).message ++ "\n")) ∧
    ((∀ invocation : Invocation, ¬ invocation.SpelledBy arguments) →
      shown.tree = tree ∧
        (shown.showsUsage = true ∨ shown.output = (surroundings.prints versionText).1)) := by
  dsimp only
  simp only [← Request.ofArguments_eq_accepted_iff]
  rw [report] at runs ⊢
  cases asked : Request.ofArguments arguments with
  | help => exact ⟨.inl rfl, fun _ => rfl, by simp, fun _ => ⟨rfl, .inl rfl⟩⟩
  | version => exact ⟨.inl rfl, fun _ => rfl, by simp, fun _ => ⟨rfl, .inr rfl⟩⟩
  | invalid => exact ⟨.inr rfl, fun _ => rfl, by simp, fun _ => ⟨rfl, .inl rfl⟩⟩
  | accepted invocation =>
      rw [asked] at runs
      have shows := invocation.report_shows runs
      refine ⟨shows.exitCode_cases, shows.tree_eq, ?_, ?_⟩
      · rintro _ ⟨⟩
        exact ⟨shows.tree, shows.of_prints, fun _ _ _ _ _ => shows.of_refused⟩
      · intro unspelled
        exact absurd rfl (unspelled invocation)

/-- A run directory whose config declares nothing. -/
def bareRun : FileTree where
  current := []
  entries := [(["run"], .directory), (["run", "genode"], .directory),
    (["run", "genode", "config"], .file ⟨0o644, encodeString "<config/>", none⟩)]

def bareArguments : List String := ["b", "-k", "-", "--log-level=", "--", "run"]

def bareInvocation : Invocation where
  binary := "b"
  runDirectory := ⟨"run"⟩
  signer := Layout.defaultSigner
  key := ⟨"-"⟩
  strict := false
  dryRun := false
  logFilter := ""

theorem bareInvocation_spelledBy : bareInvocation.SpelledBy bareArguments := by
  have key : Item.Spelled (.setting .key "-") ["-k", "-"] := .apart (by decide) (by decide)
  have logLevel : Item.Spelled (.setting .logLevel "") ["--log-level="] :=
    @Item.Spelled.joined .logLevel "--log-level" (by decide) ""
  refine ⟨[.positional "b", .setting .key "-", .setting .logLevel "", .positional "run"], ?_, ?_⟩
  · exact .cons (.positional (by decide)) (.cons key (.cons logLevel (.separator ["run"])))
  · refine ⟨rfl, by decide, ?_, ?_, ?_⟩
    · intro setting
      cases setting <;> decide
    · intro setting
      cases setting <;> decide
    · intro flag
      cases flag <;> decide

theorem report_agrees_bareRun :
    (report bareArguments .standard bareRun).stops = false ∧
    ((report bareArguments .standard bareRun).exitCode = 0 ↔
      ∃ outcome, (bareInvocation.sign .standard bareRun).result = .ok outcome) := by
  have runs : (report bareArguments .standard bareRun).stops = false := by decide +kernel
  obtain ⟨-, -, agrees, -⟩ := report_agrees runs
  exact ⟨runs, ((agrees bareInvocation bareInvocation_spelledBy).2.1 fun _ => rfl).1⟩

end RunSigning.CommandLine
