import RunSigning.Declaration.Record
import RunSigning.FileTree.Store
import RunSigning.Signing.Signer

/-
This file signs binaries. The config of a run is loaded, the binary is signed and its signature
recorded. The config is written only after everything else succeeded. Writing it may still fail.
-/

namespace RunSigning

structure SignContext where
  signer : Signer
  key : Path
  /-- A missing declaration is an error. -/
  strict : Bool
  /-- The config is not written. -/
  dryRun : Bool

def SignContext.ofSigner (signer : Signer) : SignContext :=
  ⟨signer, Layout.defaultKey, false, false⟩

inductive Outcome where
  | signed (binary : String) (previous? : Option String) (signature : String)
      (document : Document) (written : Bool)
  | noMatch

/-- What signing leads to: its result, the file tree after it, the binaries and keys that the
signer was asked about, and the events on the way. -/
structure Signing where
  result : Except Error Outcome
  tree : FileTree
  calls : List (Path × Path)
  events : List Event

/-- A signature is recorded in the document, and the document is written unless this is a dry
run. -/
def SignContext.record (context : SignContext) (tree : FileTree) (disk : Disk) (config : Path)
    (document : Document) (declaration : Declaration) (binary signature : String)
    (calls : List (Path × Path)) (events : List Event) : Signing :=
  match document.recording declaration signature >>= document.apply with
  | .error error => ⟨.error error, tree, calls, events⟩
  | .ok changed =>
      let signed := Outcome.signed binary declaration.signatureValue? signature changed
      if context.dryRun then ⟨.ok (signed false), tree, calls, events⟩
      else
        match tree.save disk config changed with
        | (.error error, after) => ⟨.error error, after, calls, events⟩
        | (.ok (), after) =>
            ⟨.ok (signed true), after, calls, events ++ [.documentWritten, .signatureRecorded]⟩

/-- The signer is asked for a signature of the binary that a declaration names. -/
def SignContext.ask (context : SignContext) (tree : FileTree) (disk : Disk) (runDirectory : Path)
    (document : Document) (declaration : Declaration) (binary : String) : Signing :=
  let file := Layout.binary runDirectory binary
  let calls := [(file, context.key)]
  let events := .signing :: .declarationFound :: .previous declaration.signatureValue? ::
    context.signer.events file context.key
  match context.signer.sign file context.key with
  | .error error => ⟨.error error, tree, calls, events⟩
  | .ok signature =>
      context.record tree disk (Layout.config runDirectory) document declaration binary signature
        calls events

/-- A binary of a run is signed, and its signature recorded in the config of the run. -/
def SignContext.sign (context : SignContext) (tree : FileTree) (disk : Disk) (runDirectory : Path)
    (binary : String) : Signing :=
  if binary = "" then ⟨.error (.usage "binary name must not be empty"), tree, [], []⟩
  else
    match tree.load (Layout.config runDirectory) with
    | .error error => ⟨.error error, tree, [], [.signing]⟩
    | .ok document =>
        match document.find? binary with
        | some declaration => context.ask tree disk runDirectory document declaration binary
        | none =>
            if context.strict then ⟨.error (.noMatch binary), tree, [], [.signing]⟩
            else ⟨.ok .noMatch, tree, [], [.signing, .declarationMissing]⟩

end RunSigning
