import RunSigning.Layout
import RunSigning.Text.Span

/-
This file reads the arguments of the command line. Options and positional arguments mix, and two
hyphens make everything after them positional. The first fault or request for help decides.
-/

namespace RunSigning.CommandLine
open RunSigning.Text

/-- What the arguments ask for. -/
structure Invocation where
  binary : String
  runDirectory : Path
  signer : Path
  key : Path
  strict : Bool
  dryRun : Bool
  logFilter : String
  deriving DecidableEq, Repr

inductive Request where
  | help
  | version
  | invalid
  | accepted (invocation : Invocation)
  deriving DecidableEq, Repr

/-- The options that take a value. -/
inductive Setting where
  | signer
  | key
  | logLevel
  deriving DecidableEq, Repr

inductive Flag where
  | strict
  | dryRun
  deriving DecidableEq, Repr

/-- What one argument is. A setting without value takes the next argument. -/
inductive Word where
  | separator
  | help
  | version
  | flag (flag : Flag)
  | setting (setting : Setting) (value? : Option String)
  | positional (text : String)
  | unknown
  deriving DecidableEq, Repr

/-- A long option may be joined to its value by an equals sign; flags take no value. -/
def Word.ofLong (name : String) (value? : Option String) : Word :=
  match name, value? with
  | "help", none => .help
  | "version", none => .version
  | "strict", none => .flag .strict
  | "dry-run", none => .flag .dryRun
  | "signer", value? => .setting .signer value?
  | "key", value? => .setting .key value?
  | "log-level", value? => .setting .logLevel value?
  | _, _ => .unknown

/-- A short option may be joined to its value, with or without an equals sign. -/
def Word.ofShort : List Char → Word
  | 'h' :: _ => .help
  | 'V' :: _ => .version
  | ['k'] => .setting .key none
  | 'k' :: '=' :: value => .setting .key (some (String.ofList value))
  | 'k' :: value => .setting .key (some (String.ofList value))
  | _ => .unknown

/-- A lone hyphen is an ordinary argument. -/
def Word.ofArgument (argument : String) : Word :=
  match argument.toList with
  | ['-', '-'] => .separator
  | '-' :: '-' :: option =>
      match breakWhile (· != '=') option with
      | (name, []) => .ofLong (String.ofList name) none
      | (name, _ :: value) => .ofLong (String.ofList name) (some (String.ofList value))
  | '-' :: c :: option => .ofShort (c :: option)
  | _ => .positional argument

/-- An argument that cannot be the value of the option before it. -/
def looksLikeOption (argument : String) : Bool :=
  match Word.ofArgument argument with
  | .positional _ => false
  | _ => true

/-- The arguments read so far. -/
structure Progress where
  positionals : List String
  signer? : Option String
  key? : Option String
  logLevel? : Option String
  strict : Bool
  dryRun : Bool
  deriving DecidableEq, Repr

def Progress.empty : Progress := ⟨[], none, none, none, false, false⟩

/-- No option is given twice, and only the log filter may be empty. -/
def Progress.set (progress : Progress) (setting : Setting) (value : String) : Option Progress :=
  match setting with
  | .signer =>
      if progress.signer?.isSome || value = "" then none
      else some { progress with signer? := some value }
  | .key =>
      if progress.key?.isSome || value = "" then none
      else some { progress with key? := some value }
  | .logLevel =>
      if progress.logLevel?.isSome then none
      else some { progress with logLevel? := some value }

def Progress.raise (progress : Progress) (flag : Flag) : Option Progress :=
  match flag with
  | .strict => if progress.strict then none else some { progress with strict := true }
  | .dryRun => if progress.dryRun then none else some { progress with dryRun := true }

/-- There are at most two positional arguments, and none is empty. -/
def Progress.add (progress : Progress) (text : String) : Option Progress :=
  if text = "" || 2 ≤ progress.positionals.length then none
  else some { progress with positionals := progress.positionals ++ [text] }

def Progress.addAll (progress : Progress) : List String → Option Progress
  | [] => some progress
  | text :: rest => (progress.add text).bind fun next => next.addAll rest

/-- Both positional arguments are needed. -/
def Progress.finish (progress : Progress) : Request :=
  match progress.positionals with
  | [binary, runDirectory] =>
      .accepted {
        binary := binary
        runDirectory := ⟨runDirectory⟩
        signer := (progress.signer?.map Path.mk).getD Layout.defaultSigner
        key := (progress.key?.map Path.mk).getD Layout.defaultKey
        strict := progress.strict
        dryRun := progress.dryRun
        logFilter := progress.logLevel?.getD "info" }
  | _ => .invalid

def Progress.read (progress : Progress) : List String → Request
  | [] => progress.finish
  | argument :: rest =>
      match Word.ofArgument argument with
      | .separator => (progress.addAll rest).elim .invalid Progress.finish
      | .help => .help
      | .version => .version
      | .unknown => .invalid
      | .flag flag =>
          match progress.raise flag with
          | some next => next.read rest
          | none => .invalid
      | .positional text =>
          match progress.add text with
          | some next => next.read rest
          | none => .invalid
      | .setting setting (some value) =>
          match progress.set setting value with
          | some next => next.read rest
          | none => .invalid
      | .setting setting none =>
          match rest with
          | [] => .invalid
          | value :: rest =>
              if looksLikeOption value then .invalid
              else
                match progress.set setting value with
                | some next => next.read rest
                | none => .invalid

/-- What a list of arguments asks for. -/
def Request.ofArguments (arguments : List String) : Request := Progress.empty.read arguments

end RunSigning.CommandLine
