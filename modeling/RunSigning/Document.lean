import RunSigning.Markup.Build
import RunSigning.TextEdit

/-
This file defines documents. A document is a text together with the tree that it spells, so
every document is well-formed.
-/

namespace RunSigning
open RunSigning.Text

structure Document where
  text : String
  tree : Markup.Tree
  spelled : Markup.Tree.parse text = .ok tree

/-- The fault of a failure, with its place as row and column. -/
def DocumentFault.ofFailure (text : String) (failure : Markup.Failure) : DocumentFault :=
  .markup failure.fault (Position.of text.toList failure.offset)

/-- The document that a text spells, or why it spells none. -/
def Document.ofText (text : String) : Except DocumentFault Document :=
  match spelled : Markup.Tree.parse text with
  | .ok tree => .ok ⟨text, tree, spelled⟩
  | .error failure => .error (.ofFailure text failure)

/-- The document that bytes encode. -/
def Document.ofBytes (bytes : List UInt8) : Except DocumentFault Document :=
  match Utf8.decode bytes with
  | .ok text => Document.ofText (String.ofList text)
  | .error fault => .error (.encoding fault)

/-- The bytes of the text. -/
def Document.bytes (document : Document) : List UInt8 := Utf8.encode document.text.toList

/-- An edit gives a document only if the edited text spells one. -/
def Document.apply (document : Document) (edit : TextEdit) : Except Error Document :=
  match edit.apply document.text with
  | .error error => .error error
  | .ok edited =>
      match Document.ofText edited with
      | .ok changed => .ok changed
      | .error fault => .error (.refusedEdit (.illFormed fault))

end RunSigning
