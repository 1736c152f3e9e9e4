import RunSigning.Markup.Reader

/-
This file reads names. A qualified name has at most one colon, and the parts before and after
it begin like names.
-/

namespace RunSigning.Markup
open RunSigning.Text

/-- A qualified name, with the part before the colon if there is a colon. -/
structure QualifiedName where
  qualifier? : Option String
  localName : String
  deriving DecidableEq, Repr

/-- A name that begins with a colon counts as unqualified. -/
def QualifiedName.qualifier (name : QualifiedName) : String := name.qualifier?.getD ""

/-- The name as it stands in the text. -/
def QualifiedName.written (name : QualifiedName) : String :=
  match name.qualifier? with
  | none => name.localName
  | some qualifier => qualifier ++ ":" ++ name.localName

/-- The name as it is shown in messages, without an empty qualifier. -/
def QualifiedName.shown (name : QualifiedName) : String :=
  if name.qualifier = "" then name.localName else name.qualifier ++ ":" ++ name.localName

def beginsLikeName (text : List Char) : Bool := text.head?.any isNameStart

/-- The qualified name that a run of name characters spells. -/
def QualifiedName.ofRun? (run : List Char) : Option QualifiedName :=
  match breakWhile (· != ':') run with
  | (text, []) =>
      if beginsLikeName text then some ⟨none, String.ofList text⟩ else none
  | (qualifier, _ :: text) =>
      if text.contains ':' || !(qualifier.isEmpty || beginsLikeName qualifier) ||
          !beginsLikeName text then none
      else some ⟨some (String.ofList qualifier), String.ofList text⟩

namespace Reader

def qualifiedName : Reader QualifiedName := do
  let start ← offset
  let run ← takeWhile isNameCharacter
  match QualifiedName.ofRun? run with
  | some name => return name
  | none => failAt start .nameInvalid

/-- A name in which colons have no meaning. -/
def name : Reader String := do
  let first ← cursor
  if beginsLikeName first.rest then
    return String.ofList (← takeWhile isNameCharacter)
  else fail .nameInvalid

/-- A name that may be missing at the end of the text. -/
def nameUnlessAtEnd : Reader Unit := do
  let ended ← atEnd
  optionally (!ended) do
    let _ ← name

theorem Advances.qualifiedName : Reader.qualifiedName.Advances := by
  refine .bind_right fun start => .yields_bind (.takeUntil _) ?_
  intro place result
  simp [QualifiedName.ofRun?, breakWhile, beginsLikeName]

end Reader

end RunSigning.Markup
