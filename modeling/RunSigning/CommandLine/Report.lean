import RunSigning.CommandLine.Arguments
import RunSigning.CommandLine.LogFilter
import RunSigning.Signing.Sign

/-
This file defines what the command does: it reads its arguments, signs one binary with an external
signer, and reports the outcome.
-/

namespace RunSigning.CommandLine

/-- What the command meets with outside the file tree. -/
structure Surroundings where
  disk : Disk
  /-- What the output shows of a text, and the error that is reported if it does not take it. -/
  prints : String → String × Option SystemError

/-- Nothing is refused, and every text is shown. -/
def Surroundings.standard : Surroundings := ⟨.standard, fun text => (text, none)⟩

/-- What a run of the command leaves behind and shows. -/
structure Report where
  exitCode : Nat
  tree : FileTree
  /-- Help or a hint at the right usage is shown. -/
  showsUsage : Bool
  logged : List Event
  output : String
  error? : Option Error
  /-- The command ended in the middle of its work, and says only that. -/
  stops : Bool

def versionText : String := programName ++ " 0.1.0\n"

def usageText : String :=
  "Usage: " ++ programName ++ " [OPTIONS] <BINARY_NAME> <RUN_DIR>\n\n" ++
    "      --signer <SIGNER>        signer program [default: " ++ Layout.defaultSigner.text ++
    "]\n" ++
    "  -k, --key <KEY>              private key for the signer [default: " ++
    Layout.defaultKey.text ++ "]\n" ++
    "      --strict                 fail when no declaration names the binary\n" ++
    "      --dry-run                print the updated config instead of writing it\n" ++
    "      --log-level <LOG_LEVEL>  log filter [default: info]\n" ++
    "  -h, --help                   print help\n" ++
    "  -V, --version                print the version\n"

def Invocation.context (invocation : Invocation) (tree : FileTree) : SignContext where
  signer := ExternalSigner.inTree ⟨invocation.signer, []⟩ tree
  key := invocation.key
  strict := invocation.strict
  dryRun := invocation.dryRun

/-- The signing that an invocation asks for. -/
def Invocation.sign (invocation : Invocation) (disk : Disk) (tree : FileTree) : Signing :=
  (invocation.context tree).sign tree disk invocation.runDirectory invocation.binary

/-- What the command says when it ends in the middle of its work. -/
def stopText : String := programName ++ " has stopped"

/-- The exit code of a command that ended in the middle of its work. -/
def stopCode : Nat := 101

/-- What the command prints after a signing, and the error that it ends with, if any. Only the text
of a document that was not written is printed, and the output may refuse it. -/
def Signing.printed (signing : Signing) (surroundings : Surroundings) : String × Option Error :=
  match signing.result with
  | .ok (.signed _ _ _ document false) =>
      let (shown, refusal?) := surroundings.prints document.text
      (shown, refusal?.map fun refusal => .io (.system refusal))
  | .ok _ => ("", none)
  | .error error => ("", some error)

def Signing.report (signing : Signing) (surroundings : Surroundings) (events : List Event) :
    Report :=
  let (shown, error?) := Signing.printed signing surroundings
  if error?.any Error.isFatal then ⟨stopCode, signing.tree, false, events, "", none, true⟩
  else ⟨if error?.isSome then 1 else 0, signing.tree, false, events, shown, error?, false⟩

def Invocation.report (invocation : Invocation) (surroundings : Surroundings) (tree : FileTree) :
    Report :=
  let signing := invocation.sign surroundings.disk tree
  match logged invocation.logFilter (.arguments :: signing.events) with
  | some events => Signing.report signing surroundings events
  | none => ⟨stopCode, tree, false, [], "", none, true⟩

/-- The report of the command with the given arguments. Whether the version could be printed is not
asked. -/
def report (arguments : List String) (surroundings : Surroundings) (tree : FileTree) : Report :=
  match Request.ofArguments arguments with
  | .help => ⟨0, tree, true, [], "", none, false⟩
  | .version => ⟨0, tree, false, [], (surroundings.prints versionText).1, none, false⟩
  | .invalid => ⟨1, tree, true, [], "", none, false⟩
  | .accepted invocation => invocation.report surroundings tree

/-- What is shown for an error. -/
def Report.errorText? (report : Report) : Option String :=
  report.error?.map fun error => "Error: " ++ error.message ++ "\n"

end RunSigning.CommandLine
