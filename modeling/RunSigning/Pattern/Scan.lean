import RunSigning.Pattern.Reading
import RunSigning.Text.Digit

/-
This file says which texts are patterns. A pattern is read from the left, one character after the
other; no braces close in it, so that none may open outside of brackets.
-/

namespace RunSigning.Pattern
open RunSigning.Text

/-- The character behind the hyphen of a range. Blanks before it and one sign of a comment do not
count. -/
def behindHyphen? (flags : Flags) (rest : List Char) : Option Char :=
  if flags.skipsBlanks then
    match rest.dropWhile isWhiteSpace with
    | '#' :: comment => (comment.dropWhile isWhiteSpace).head?
    | text => text.head?
  else rest.head?

/-- A character outside of brackets. -/
def Reading.readPlain? (reading : Reading) (c : Char) : Option Reading :=
  let flags := reading.flagsNow
  match c with
  | '(' => some (reading.turn .opened)
  | ')' => reading.groups.close?.map fun groups =>
      { reading with mode := .plain, groups := groups }
  | '|' => some { reading with mode := .plain, groups := reading.groups.branch }
  | '[' => some { reading with mode := .bracket, brackets := [.empty] }
  | '\x7b' => none
  | '\\' => some (reading.turn .escaped)
  | '.' => reading.addPart? flags.allowsComplement
  | _ =>
      if ['?', '*', '+'].contains c then
        reading.groups.repeatLast?.map fun groups =>
          { reading with mode := .repeated, groups := groups }
      else if ['^', '$'].contains c then reading.addPart? true
      else reading.addPart? (flags.allowsLiteral ⟨c, false⟩)

/-- A character among the items of a set. -/
def Reading.readItem? (reading : Reading) (c : Char) (rest : List Char) : Option Reading :=
  match c with
  | ']' => reading.closeBracket?
  | '\\' => some (reading.turn .escaped)
  | '[' =>
      match NamedClass.ofText? rest with
      | some named =>
          Reading.addItem? { reading with ahead := named.length }
            (reading.flagsNow.allowsNamedClass named.isComplement) .items
      | none => some { reading with mode := .bracket, brackets := .empty :: reading.brackets }
  | _ =>
      if operatorSigns.contains c && rest.head? == some c then some reading.operate
      else some (reading.turn (.item (some c)))

/-- The first item of a set may be a closing bracket, and hyphens before it stand for
themselves. -/
def Reading.readFirstItem? (reading : Reading) (c : Char) (rest : List Char) : Option Reading :=
  let allowed := reading.flagsNow.allowsMember c
  match c with
  | '-' => reading.addItem? allowed .hyphens
  | ']' => reading.addItem? allowed .items
  | _ => reading.readItem? c rest

/-- Behind an item a hyphen makes a range, unless a closing bracket or another hyphen follows. -/
def Reading.readAfterItem? (reading : Reading) (literal? : Option Char) (c : Char)
    (rest : List Char) : Option Reading :=
  let behind? := behindHyphen? reading.flagsNow rest
  if c == '-' && behind? != some ']' && behind? != some '-' then
    literal?.map fun lower => reading.turn (.range lower)
  else
    (reading.addItem? (literal?.all reading.flagsNow.allowsMember) .items).bind fun next =>
      next.readItem? c rest

/-- A character in the flags behind an opening parenthesis. A colon begins a group with these
flags; without it they count for the rest of the group around. -/
def Reading.readFlags? (reading : Reading) (flags : Flags) (letters : List Char)
    (value isDangling : Bool) (c : Char) : Option Reading :=
  match c with
  | ':' =>
      if isDangling then none
      else some { reading with mode := .plain, groups := reading.groups.start flags }
  | ')' =>
      if isDangling || letters.isEmpty then none
      else
        some { reading with
          mode := .plain
          groups := { reading.groups.add .ofFlags with flags := flags } }
  | '-' => if value then some (reading.turn (.flags flags letters false true)) else none
  | _ =>
      if flagLetters.contains c && !letters.contains c then
        some (reading.turn (.flags (flags.set c value) (c :: letters) value false))
      else none

/-- A character in the name of a group. -/
def isNameCharacter (isFirst : Bool) (c : Char) : Bool :=
  if isFirst then c == '_' || isAlphabetic c
  else ['_', '.', '[', ']'].contains c || isAlphanumeric c

def Reading.readName? (reading : Reading) (name : List Char) (c : Char) : Option Reading :=
  if c == '>' then
    (reading.groups.startNamed? name).map fun groups =>
      { reading with mode := .plain, groups := groups }
  else if isNameCharacter name.isEmpty c then some (reading.turn (.named (name ++ [c])))
  else none

/-- A character behind an opening parenthesis with a question mark. -/
def Reading.readQuestioned? (reading : Reading) (c : Char) (rest : List Char) : Option Reading :=
  if c == '<' then some (reading.turn .angled)
  else if c == 'P' && rest.head? == some '<' then
    some { reading with mode := .named [], ahead := 1 }
  else reading.readFlags? reading.flagsNow [] true false c

/-- The last digit completes the number of a character. -/
def Reading.readDigit? (reading : Reading) (isByte : Bool) (missing value : Nat) (c : Char) :
    Option Reading :=
  let next := value * 16 + digitValue c
  if !isHexadecimalDigit c then none
  else if 1 < missing then some (reading.turn (.digits isByte (missing - 1) next))
  else if next.isValidChar then reading.addEscaped? ⟨Char.ofNat next, isByte⟩
  else none

/-- A mode in which blanks and comments may be passed over. -/
def Mode.isBetweenParts : Mode → Bool
  | .plain | .digits .. | .opened | .bracket | .firstItem | .hyphens | .items => true
  | .item .. | .range .. => true
  | .repeated | .escaped | .questioned | .angled | .named .. | .flags .. => false

/-- A character that is read in its mode. -/
def Reading.readInMode? (reading : Reading) (c : Char) (rest : List Char) : Option Reading :=
  match reading.mode with
  | .plain | .repeated => reading.readPlain? c
  | .escaped => reading.escape? c
  | .digits isByte missing value => reading.readDigit? isByte missing value c
  | .opened =>
      if c == '?' then some (reading.turn .questioned)
      else
        Reading.readPlain? { reading with groups := reading.groups.start reading.flagsNow } c
  | .questioned => reading.readQuestioned? c rest
  | .angled => reading.readName? [] c
  | .named name => reading.readName? name c
  | .flags flags letters value isDangling => reading.readFlags? flags letters value isDangling c
  | .bracket =>
      if c == '^' then
        if reading.flagsNow.allowsComplement then some (reading.turn .firstItem) else none
      else reading.readFirstItem? c rest
  | .firstItem => reading.readFirstItem? c rest
  | .hyphens =>
      if c == '-' then reading.addItem? (reading.flagsNow.allowsMember c) .hyphens
      else reading.readItem? c rest
  | .items => reading.readItem? c rest
  | .item literal? => reading.readAfterItem? literal? c rest
  | .range lower =>
      if c == '\\' then some { reading with mode := .escaped, lower? := some lower }
      else reading.addRange? lower c

/-- Where blanks are passed over, a number sign begins a comment up to the end of the line. -/
def Reading.readCharacter? (reading : Reading) (c : Char) (rest : List Char) : Option Reading :=
  if reading.mode.isBetweenParts && reading.flagsNow.skipsBlanks then
    if isWhiteSpace c then some reading
    else if c == '#' then some { reading with inComment := true }
    else reading.readInMode? c rest
  else reading.readInMode? c rest

/-- One character, with those after it in sight. -/
def Reading.step? (reading : Reading) (c : Char) (rest : List Char) : Option Reading :=
  match reading.ahead with
  | ahead + 1 => some { reading with ahead := ahead }
  | 0 =>
      if reading.inComment then some { reading with inComment := c != '\n' }
      else if reading.mode = .repeated then
        if c == '?' then some (reading.turn .plain)
        else (reading.turn .plain).readCharacter? c rest
      else reading.readCharacter? c rest

def Reading.run? (reading : Reading) : List Char → Option Reading
  | [] => some reading
  | c :: rest => (reading.step? c rest).bind fun next => next.run? rest

/-- A pattern may end between parts that need no more. -/
def Reading.isComplete (reading : Reading) : Bool :=
  (reading.mode = .plain || reading.mode = .repeated) && reading.groups.isComplete

/-- A text is a pattern if it can be read to its end. -/
def isPattern (text : List Char) : Bool := (Reading.start.run? text).any Reading.isComplete

end RunSigning.Pattern
