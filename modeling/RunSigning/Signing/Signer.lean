import RunSigning.FileTree.Run
import RunSigning.Layout

/-
This file defines signers. A signer gives a signature for a binary and a key, or fails. An
external signer takes its signature from what a program prints.
-/

namespace RunSigning
open RunSigning.Text

/-- What is reported while signing. -/
inductive Event where
  | arguments
  | signing
  | declarationMissing
  | declarationFound
  | previous (signature? : Option String)
  | signerStarted
  | signerFinished
  | signerUnreadable
  | documentWritten
  | signatureRecorded
  deriving DecidableEq, Repr

def Event.message : Event → String
  | .arguments => "arguments"
  | .signing => "signing binary"
  | .declarationMissing => "no start declaration for binary, nothing to do"
  | .declarationFound => "binary found"
  | .previous (some _) => "existing signature"
  | .previous none => "no existing signature"
  | .signerStarted => "running signer"
  | .signerFinished => "signer finished"
  | .signerUnreadable => "signer output is not valid UTF-8"
  | .documentWritten => "config written"
  | .signatureRecorded => "signature recorded"

structure Signer where
  sign : (binary key : Path) → Except Error String
  events : (binary key : Path) → List Event

/-- This signer gives the same answer for every binary and key. -/
def Signer.constant (answer : Except Error String) : Signer := ⟨fun _ _ => answer, fun _ _ => []⟩

structure ExternalSigner where
  program : Path
  arguments : List String
  deriving DecidableEq, Repr

def ExternalSigner.standard : ExternalSigner := ⟨Layout.defaultSigner, []⟩

/-- The run of the program. The binary and the key come last among its arguments, and its standard
input is empty. -/
def ExternalSigner.run (signer : ExternalSigner) (tree : FileTree) (binary key : Path) :
    Except IoError ProgramRun :=
  tree.run [] signer.program (signer.arguments ++ [binary.text, key.text])

/-- One line feed at the end of the output is no part of it. -/
def dropLineFeed (text : List Char) : List Char :=
  if text.getLast? = some '\n' then text.dropLast else text

/-- The signature that a run prints. Both streams lead into the pipe that it is read from. Output
that is not UTF-8 fails whatever the status, and is shown whole. -/
def ProgramRun.signature (run : ProgramRun) : Except Error String :=
  match Utf8.decode run.output with
  | .error _ =>
      .error (.signing (run.ending.describe ++ ", output is not valid UTF-8")
        (String.ofList (Utf8.decodeLossy run.output)))
  | .ok text =>
      let output := String.ofList (dropLineFeed text)
      if run.ending.isSuccess then .ok output
      else .error (.signing run.ending.describe output)

def ProgramRun.event (run : ProgramRun) : Event :=
  match Utf8.decode run.output with
  | .error _ => .signerUnreadable
  | .ok _ => .signerFinished

/-- An external signer at work in a file tree. -/
def ExternalSigner.inTree (signer : ExternalSigner) (tree : FileTree) : Signer where
  sign binary key :=
    match signer.run tree binary key with
    | .error cause => .error (.signerSpawn signer.program cause)
    | .ok run => run.signature
  events binary key :=
    match signer.run tree binary key with
    | .error _ => [.signerStarted]
    | .ok run => [.signerStarted, run.event]

end RunSigning
