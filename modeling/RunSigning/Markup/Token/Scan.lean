import RunSigning.Markup.Token.Prolog

/-
This file cuts a text into tokens. The scanner is in one of a few modes; every step takes at
least one character, gives the tokens that it finds and names the next mode.
-/

namespace RunSigning.Markup
open RunSigning.Text

/-- Where the scanner stands. A level counts the elements that enclose the current one. -/
inductive Mode where
  | prolog
  | preamble
  | subset (doctypeStart : Nat)
  | tag (level : Nat)
  | content (level : Nat)
  | epilog
  deriving DecidableEq, Repr

/-- The mode after an element that is enclosed by `level` others. -/
def Mode.afterElement : Nat → Mode
  | 0 => .epilog
  | level + 1 => .content level

namespace Reader

def seesSpace : Reader Bool := do return (← cursor).rest.head?.any isSpace

/-- Before the root element stand blanks, comments and instructions, and at most one document
type declaration. -/
def prologStep (mode : Mode) : Reader (List Token × Mode) := do
  if ← seesSpace then
    someSpaces
    return ([], mode)
  else if ← sees "<!--" then
    let token ← comment
    return ([token], mode)
  else if ← sees "<?" then
    let token ← instruction
    return ([token], mode)
  else if mode == .prolog && (← sees "<!DOCTYPE") then
    let start ← offset
    let hasSubset ← doctype
    return ([.doctype], if hasSubset then .subset start else .preamble)
  else if ← sees "<" then
    let token ← startTag
    return ([token], .tag 0)
  else fail .tokenUnknown

/-- The internal subset declares entities. -/
def subsetStep (doctypeStart : Nat) : Reader (List Token × Mode) := do
  if ← seesSpace then
    someSpaces
    let unclosed ← atEnd
    refuse unclosed .tokenUnknown
    return ([], .subset doctypeStart)
  else if ← sees "<!ENTITY" then
    let tokens ← entity
    return (tokens, .subset doctypeStart)
  else if ← sees "<!--" then
    let token ← comment
    return ([token], .subset doctypeStart)
  else if ← sees "<?" then
    let token ← instruction
    return ([token], .subset doctypeStart)
  else if ← sees "]" then
    subsetEnd
    return ([], .preamble)
  else if ← sees "<!ELEMENT" then
    skippedDeclaration doctypeStart "<!ELEMENT"
    return ([], .subset doctypeStart)
  else if ← sees "<!ATTLIST" then
    skippedDeclaration doctypeStart "<!ATTLIST"
    return ([], .subset doctypeStart)
  else if ← sees "<!NOTATION" then
    skippedDeclaration doctypeStart "<!NOTATION"
    return ([], .subset doctypeStart)
  else fail .tokenUnknown

/-- A start tag holds attributes, each after a blank, up to its closing bracket. -/
def tagStep (level : Nat) : Reader (List Token × Mode) := do
  let spaced ← seesSpace
  spaces
  if ← atEnd then fail .endUnexpected
  else if ← sees "/" then
    literal "/"
    byte '>'
    let stop ← offset
    return ([.tagEnd true stop], .afterElement level)
  else if ← sees ">" then
    literal ">"
    let stop ← offset
    return ([.tagEnd false stop], .content level)
  else
    optionally (!spaced) someSpaces
    let written ← writtenAttribute
    return ([.attr written], .tag level)

/-- Whether the remaining text is a single opening bracket. -/
def seesLoneBracket : Reader Bool := do return (← cursor).rest == ['<']

/-- Content ends with an end tag. -/
def contentStep (level : Nat) : Reader (List Token × Mode) := do
  if ← sees "<!--" then
    let token ← comment
    return ([token], .content level)
  else if ← sees "<![CDATA[" then
    let token ← markedSection
    return ([token], .content level)
  else if ← sees "<!" then fail .tokenUnknown
  else if ← sees "<?" then
    let token ← instruction
    return ([token], .content level)
  else if ← sees "</" then
    let token ← endTag
    return ([token], .afterElement level)
  else if ← seesLoneBracket then fail .tokenUnknown
  else if ← sees "<" then
    let token ← startTag
    return ([token], .tag (level + 1))
  else
    let token ← characterData
    return ([token], .content level)

/-- After the root element stand blanks, comments and instructions only. -/
def epilogStep : Reader (List Token × Mode) := do
  if ← seesSpace then
    someSpaces
    return ([], .epilog)
  else if ← sees "<!--" then
    let token ← comment
    return ([token], .epilog)
  else if ← sees "<?" then
    let token ← instruction
    return ([token], .epilog)
  else fail .tokenUnknown

theorem Advances.prologStep (mode : Mode) : (Reader.prologStep mode).Advances := by
  refine .bind_right fun _ => .ite (.bind_left .someSpaces) ?_
  refine .bind_right fun _ => .ite (.bind_left .comment) ?_
  refine .bind_right fun _ => .ite (.bind_left .instruction) ?_
  refine .bind_right fun _ => .ite (.bind_right fun _ => .bind_left .doctype) ?_
  exact .bind_right fun _ => .ite (.bind_left .startTag) (.fail _)

theorem Advances.subsetStep (doctypeStart : Nat) : (Reader.subsetStep doctypeStart).Advances := by
  refine .bind_right fun _ => .ite (.bind_left .someSpaces) ?_
  refine .bind_right fun _ => .ite (.bind_left .entity) ?_
  refine .bind_right fun _ => .ite (.bind_left .comment) ?_
  refine .bind_right fun _ => .ite (.bind_left .instruction) ?_
  refine .bind_right fun _ => .ite (.bind_left .subsetEnd) ?_
  refine .bind_right fun _ => .ite (.bind_left (.skippedDeclaration _ (by decide))) ?_
  refine .bind_right fun _ => .ite (.bind_left (.skippedDeclaration _ (by decide))) ?_
  exact .bind_right fun _ =>
    .ite (.bind_left (.skippedDeclaration _ (by decide))) (.fail _)

theorem Advances.tagStep (level : Nat) : (Reader.tagStep level).Advances := by
  refine .bind_right fun _ => .bind_right fun _ => .bind_right fun _ => .ite (.fail _) ?_
  refine .bind_right fun _ => .ite (.bind_left (.literal (by decide))) ?_
  refine .bind_right fun _ => .ite (.bind_left (.literal (by decide))) ?_
  exact .bind_right fun _ => .bind_left .writtenAttribute

theorem Advances.contentStep (level : Nat) : (Reader.contentStep level).Advances := by
  refine .bind_right fun _ => .ite (.bind_left .comment) ?_
  refine .bind_right fun _ => .ite (.bind_left .markedSection) ?_
  refine .bind_right fun _ => .ite (.fail _) ?_
  refine .bind_right fun _ => .ite (.bind_left .instruction) ?_
  refine .bind_right fun _ => .ite (.bind_left .endTag) ?_
  refine .bind_right fun _ => .ite (.fail _) ?_
  exact .bind_right fun _ => .ite (.bind_left .startTag) (.bind_left .characterData)

theorem Advances.epilogStep : Reader.epilogStep.Advances := by
  refine .bind_right fun _ => .ite (.bind_left .someSpaces) ?_
  refine .bind_right fun _ => .ite (.bind_left .comment) ?_
  exact .bind_right fun _ => .ite (.bind_left .instruction) (.fail _)

end Reader

def Mode.step : Mode → Reader (List Token × Mode)
  | .prolog => .prologStep .prolog
  | .preamble => .prologStep .preamble
  | .subset doctypeStart => .subsetStep doctypeStart
  | .tag level => .tagStep level
  | .content level => .contentStep level
  | .epilog => .epilogStep

/-- Every step of the scanner takes some character. -/
theorem Mode.step_advances (mode : Mode) : mode.step.Advances := by
  cases mode with
  | prolog => exact .prologStep _
  | preamble => exact .prologStep _
  | subset doctypeStart => exact .subsetStep _
  | tag level => exact .tagStep _
  | content level => exact .contentStep _
  | epilog => exact .epilogStep

/-- The replacement text of an entity is read only up to an end tag of an element around it. -/
inductive Extent where
  | document
  | replacement
  deriving DecidableEq, Repr

/-- The tokens of a text, and the failure that ended the scan if there was one. -/
structure Scan where
  tokens : List Token
  failure? : Option Failure
  deriving DecidableEq, Repr

def Scan.run (extent : Extent) (mode : Mode) (start : Cursor) : Scan :=
  if start.rest.isEmpty || (extent == .replacement && mode == .epilog) then ⟨[], none⟩
  else
    match _step : mode.step.read start with
    | .error failure => ⟨[], some failure⟩
    | .ok ((tokens, next), stop) =>
        let later := Scan.run extent next stop
        ⟨tokens ++ later.tokens, later.failure?⟩
termination_by start.rest.length
decreasing_by exact mode.step_advances _ _ _ _step

/-- The tokens of a whole document. -/
def Scan.document (text : List Char) : Scan :=
  match Reader.opening.read ⟨0, text⟩ with
  | .error failure => ⟨[], some failure⟩
  | .ok (_, start) => Scan.run .document .prolog start

/-- The tokens of the replacement text of an entity. -/
def Scan.replacement (text : Cursor) : Scan := Scan.run .replacement (.content 0) text

end RunSigning.Markup
