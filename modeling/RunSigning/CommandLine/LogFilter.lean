import RunSigning.CommandLine.Directive
import RunSigning.Signing.Signer

/-
This file says which events are logged. A filter is a list of directives; for every event the most
specific directive counts.
-/

namespace RunSigning.CommandLine
open RunSigning.Text

/-- The name of the program, with which the targets of all its events begin. -/
def programName : String := "cfgsign"

/-- What an event is logged with: its level, the part of the program that it comes from, and the
names of the fields that go with its message. -/
structure LogEntry where
  level : Level
  target : String
  fields : List String
  deriving DecidableEq, Repr

/-- The target of the events on the way from the config to its signature. -/
def signingTarget : String := programName ++ "_config::sign"

/-- The target of the events around a run of the signer. -/
def signerTarget : String := programName ++ "_signer::external"

/-- The target of the events of documents. -/
def documentTarget : String := programName ++ "_xml::document"

def logEntry : Event → LogEntry
  | .arguments => ⟨.info, programName, ["binary", "run_dir", "signer", "key"]⟩
  | .signing => ⟨.info, signingTarget, ["binary", "run_dir", "config"]⟩
  | .declarationMissing => ⟨.warn, signingTarget, ["binary"]⟩
  | .declarationFound => ⟨.info, signingTarget, ["name", "start"]⟩
  | .previous (some _) => ⟨.info, signingTarget, ["signature"]⟩
  | .previous none => ⟨.info, signingTarget, []⟩
  | .signerStarted => ⟨.debug, signerTarget, ["program", "binary", "key"]⟩
  | .signerFinished => ⟨.info, signerTarget, ["status", "output"]⟩
  | .signerUnreadable => ⟨.warn, signerTarget, ["status", "output"]⟩
  | .documentWritten => ⟨.debug, documentTarget, ["path", "bytes"]⟩
  | .signatureRecorded => ⟨.info, signingTarget, ["config"]⟩

/-- Errors are logged if there is no directive, and a filter that cannot be read is the one for
information. A filter that would cut a character is none. -/
def directivesOf? (text : String) : Option (List Directive) :=
  match directives text with
  | .error .unreadable => some [.forAll Level.info.rank]
  | .error .cutCharacter => none
  | .ok [] => some [.forAll Level.error.rank]
  | .ok directives => some directives

/-- A directive covers an event if its target begins that of the event, and its field goes with
the event. No event stands in a span, and no field is compared with a value. -/
def Directive.covers (directive : Directive) (entry : LogEntry) : Bool :=
  directive.span?.isNone &&
    directive.target?.all (fun target => startsWith target entry.target.toList) &&
    directive.field?.all fun field => ("message" :: entry.fields).contains (String.ofList field)

/-- A longer target counts before a shorter one, then a field before none, and of two fields the
later in the alphabet. -/
def Directive.isLessSpecific (first second : Directive) : Bool :=
  let firstLength := first.target?.elim 0 fun target => target.length + 1
  let secondLength := second.target?.elim 0 fun target => target.length + 1
  if firstLength = secondLength then
    match first.field?, second.field? with
    | none, some _ => true
    | some one, some other => one < other
    | _, none => false
  else firstLength < secondLength

/-- Of two directives the later one counts unless it is less specific. -/
def strongest (best? : Option Directive) (directive : Directive) : Option Directive :=
  match best? with
  | none => some directive
  | some best => if directive.isLessSpecific best then some best else some directive

/-- The threshold of the directives for an event. An event that none covers is not logged. -/
def thresholdFor (directives : List Directive) (entry : LogEntry) : Threshold :=
  ((directives.filter fun directive => directive.covers entry).foldl strongest none).elim 0
    Directive.threshold

def isLogged (directives : List Directive) (event : Event) : Bool :=
  (logEntry event).level.rank ≤ thresholdFor directives (logEntry event)

/-- The events that a filter lets through, if it is one. -/
def logged (filter : String) (events : List Event) : Option (List Event) :=
  (directivesOf? filter).map fun directives => events.filter (isLogged directives)

end RunSigning.CommandLine
