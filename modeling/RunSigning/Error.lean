import RunSigning.Markup.Failure
import RunSigning.Path
import RunSigning.SystemError

/-
This file lists the ways in which signing can fail. An error holds its cause; the words for it
are chosen in one place.
-/

namespace RunSigning
open RunSigning.Text

inductive IoError where
  | system (error : SystemError)
  | nulInPath
  | nulInArgument
  /-- All names for a temporary file are taken. -/
  | namesExhausted
  deriving DecidableEq, Repr

def IoError.message : IoError → String
  | .system error => error.describe ++ " (os error " ++ toString error.number ++ ")"
  | .nulInPath => "file name contained an unexpected NUL byte"
  | .nulInArgument => "nul byte found in provided data"
  | .namesExhausted => "too many temporary files exist"

/-- Why bytes are no document. -/
inductive DocumentFault where
  | encoding (fault : Utf8.Fault)
  | markup (fault : Markup.Fault) (position : Position)
  | inFile (path : Path) (fault : DocumentFault)
  | stated (text : String)
  deriving DecidableEq, Repr

def DocumentFault.message : DocumentFault → String
  | .encoding fault => "invalid UTF-8: " ++ fault.message
  | .markup fault position => fault.message position
  | .inFile path fault => path.text ++ ": " ++ fault.message
  | .stated text => text

/-- Whether the fault is one after which nothing is reported. -/
def DocumentFault.isFatal : DocumentFault → Bool
  | .markup fault _ => fault.isFatal
  | .inFile _ fault => fault.isFatal
  | _ => false

/-- Why a change of a document is refused. -/
inductive EditFault where
  | outOfRange (span : Span) (length : Nat)
  /-- A declaration whose place in the text cannot be cut out of it. -/
  | unplaced (span : Span)
  | illFormed (fault : DocumentFault)
  | stated (text : String)
  deriving DecidableEq, Repr

def parsingMessage (fault : DocumentFault) : String := "XML parsing error: " ++ fault.message

def EditFault.message : EditFault → String
  | .outOfRange span length =>
      "edit range " ++ toString span.start ++ ".." ++ toString span.stop ++
        " is outside the document (" ++ toString length ++ " bytes)"
  | .unplaced span =>
      "no text at " ++ toString span.start ++ ".." ++ toString span.stop ++ " can be cut out"
  | .illFormed fault => "edit produced invalid XML: " ++ parsingMessage fault
  | .stated text => text

inductive Error where
  | usage (text : String)
  | configNotFound (path : Path)
  | illFormed (fault : DocumentFault)
  | refusedEdit (fault : EditFault)
  | noMatch (binary : String)
  | signerSpawn (program : Path) (cause : IoError)
  | signing (status output : String)
  | io (cause : IoError)
  /-- No temporary file could be made or filled next to the file to replace. Its name, which is
  drawn at random, is no part of the message here. -/
  | temporaryFile (cause : IoError)
  deriving DecidableEq, Repr

def Error.message : Error → String
  | .usage text => "usage: " ++ text
  | .configNotFound path => "configuration not found: " ++ path.text
  | .illFormed fault => parsingMessage fault
  | .refusedEdit fault => "invalid XML structure: " ++ fault.message
  | .noMatch binary => "no start declaration for binary: " ++ binary
  | .signerSpawn program cause =>
      "failed to run signer " ++ program.text ++ ": " ++ cause.message
  | .signing status output => "signing error (" ++ status ++ "): " ++ output
  | .io cause => "I/O error: " ++ cause.message
  | .temporaryFile cause => "I/O error: " ++ cause.message

/-- A fatal error ends the program at once: it is not reported, and nothing is done after it. -/
def Error.isFatal : Error → Bool
  | .illFormed fault => fault.isFatal
  | .refusedEdit (.illFormed fault) => fault.isFatal
  | .refusedEdit (.unplaced _) => true
  | _ => false

end RunSigning
