import RunSigning.Declaration.Record

/-
This file defines sessions: sequences of steps on one document. A refused step leaves the document
as it was, but a fatal error ends the session with the whole program.
-/

namespace RunSigning

/-- Which declaration a step means. -/
inductive Target where
  | binary (name : String)
  | index (place : Nat)
  deriving DecidableEq, Repr

def Document.target? (document : Document) : Target → Option Declaration
  | .binary name => document.find? name
  | .index place => document.declarations[place]?

inductive SessionStep where
  | find (name : String)
  | edit (edit : TextEdit)
  | record (target : Target) (value : String)
  deriving DecidableEq, Repr

/-- What a step answers: a declaration, or an edit with the text after it and why it was refused,
if it was. -/
inductive SessionAnswer where
  | declaration (found? : Option Declaration)
  | edited (edit : TextEdit) (text : String) (refusal? : Option Error)

/-- The document after an edit, which is the old one if the edit is refused. An edit that stops the
parser is not refused: nothing is done after it. -/
def Document.attempt (document : Document) (edit : TextEdit) :
    Except Error (Document × SessionAnswer) :=
  match document.apply edit with
  | .ok changed => .ok (changed, .edited edit changed.text none)
  | .error refusal =>
      if refusal.isFatal then .error refusal
      else .ok (document, .edited edit document.text (some refusal))

/-- A declaration that cannot be cut out of the text ends the session as well. -/
def Document.step (document : Document) : SessionStep → Except Error (Document × SessionAnswer)
  | .find name => .ok (document, .declaration (document.find? name))
  | .edit edit => document.attempt edit
  | .record target value =>
      match document.target? target with
      | none => .ok (document, .declaration none)
      | some declaration => document.recording declaration value >>= document.attempt

/-- The document after all steps, and the answer of each, unless an error ends the session. -/
def Document.session (document : Document) :
    List SessionStep → Except Error (Document × List SessionAnswer)
  | [] => .ok (document, [])
  | step :: steps => do
      let (changed, answer) ← document.step step
      let (final, answers) ← changed.session steps
      return (final, answer :: answers)

end RunSigning
