import RunSigning.Pattern.Scan
import RunSigning.Text.Digit
import RunSigning.Text.Span

/-
This file reads the directives of log filters. A directive tells which events it is for, and the
level up to which they are logged. White space around a directive is passed over when it is read,
but its parts are cut out at the same offsets of the whole text.
-/

namespace RunSigning.CommandLine
open RunSigning.Text

inductive Level where
  | error
  | warn
  | info
  | debug
  | trace
  deriving DecidableEq, Repr

def Level.rank : Level → Nat
  | .error => 1
  | .warn => 2
  | .info => 3
  | .debug => 4
  | .trace => 5

/-- A threshold logs the levels up to its rank; rank zero logs nothing. -/
abbrev Threshold := Nat

/-- A number in decimal digits, which a plus sign may precede. -/
def numberOf? (text : List Char) : Option Nat :=
  let digits := if text.head? = some '+' then text.tail else text
  if digits.isEmpty || !digits.all Char.isDigit then none
  else some (digits.foldl (fun value digit => value * 10 + (digit.toNat - '0'.toNat)) 0)

/-- A threshold by its name in any case. -/
def namedThreshold? (text : List Char) : Option Threshold :=
  [("off", 0), ("error", 1), ("warn", 2), ("info", 3), ("debug", 4), ("trace", 5)].lookup
    (String.ofList (text.map Char.toLower))

/-- A threshold by its rank or by its name. -/
def thresholdOf? (text : List Char) : Option Threshold :=
  match numberOf? text with
  | some rank => if rank ≤ Level.trace.rank then some rank else none
  | none => namedThreshold? text

/-- A directive may ask for a target, for a named span around an event, and for a field. -/
structure Directive where
  target? : Option (List Char)
  span? : Option (List Char)
  field? : Option (List Char)
  threshold : Threshold
  deriving DecidableEq, Repr

/-- A directive for all events. -/
def Directive.forAll (threshold : Threshold) : Directive := ⟨none, none, none, threshold⟩

/-- Why a filter gives no directives. -/
inductive FilterFault where
  | unreadable
  /-- A part of a directive would begin or end within a character. -/
  | cutCharacter
  deriving DecidableEq, Repr

/-- A part of a text. -/
def part (span : Span) (text : List Char) : Except FilterFault (List Char) :=
  match around? span text with
  | some _ => .ok (slice span text)
  | none => .error .cutCharacter

/-- A level, all of them if it is left out. -/
def levelOf (text : List Char) : Except FilterFault Threshold :=
  if text.isEmpty then .ok Level.trace.rank
  else
    match thresholdOf? text with
    | some threshold => .ok threshold
    | none => .error .unreadable

/-- What may follow the part of a directive that tells its events: nothing, or a level. -/
def Directive.finish (text : List Char) (directive : Directive) (offset : Nat) :
    List Char → Except FilterFault Directive
  | [] => .ok directive
  | '=' :: _ => do
      let threshold ← levelOf (← part ⟨offset + 1, byteLength text⟩ text)
      return { directive with threshold := threshold }
  | _ => .error .unreadable

/-- The value that a field is compared with, if there is one. It stands between the first two
equals signs. -/
def comparedValue? (field : List Char) : Option (List Char) :=
  match field.dropWhile (· != '=') with
  | [] => none
  | _ :: rest => some (rest.takeWhile (· != '='))

/-- A field is compared with a number or with a pattern. -/
def isField (field : List Char) : Bool :=
  !field.isEmpty &&
    (comparedValue? field).all fun value => isNumeral value || Pattern.isPattern value

/-- A field stands in braces, and the span ends after it. -/
def Directive.ofField (text : List Char) (target? span? : Option (List Char)) (start : Nat)
    (rest : List Char) : Except FilterFault Directive :=
  match breakWhile (· != '\x7d') rest with
  | (name, _ :: more) => do
      let stop := start + byteLength name
      let field ← part ⟨start, stop⟩ text
      if !isField field then throw .unreadable
      match more with
      | ']' :: rest =>
          Directive.finish text ⟨target?, span?, some field, Level.trace.rank⟩ (stop + 2) rest
      | _ => throw .unreadable
  | _ => .error .unreadable

/-- A span stands in brackets, with its field. Without a field even the empty name is the name of
a span. -/
def Directive.ofSpan (text : List Char) (target? : Option (List Char)) (start : Nat)
    (rest : List Char) : Except FilterFault Directive :=
  match breakWhile (fun c => c != ']' && c != '\x7b') rest with
  | (name, ']' :: rest) => do
      let stop := start + byteLength name
      let shown ← part ⟨start, stop⟩ text
      Directive.finish text ⟨target?, some shown, none, Level.trace.rank⟩ (stop + 1) rest
  | (name, '\x7b' :: more) => do
      let stop := start + byteLength name
      let shown ← part ⟨start, stop⟩ text
      Directive.ofField text target? (if shown.isEmpty then none else some shown) (stop + 1) more
  | _ => .error .unreadable

/-- The characters that a directive may begin with, apart from an opening bracket. -/
def beginsDirective (c : Char) : Bool := c == '-' || c == ':' || c == '_' || isAlphanumeric c

/-- The text without the white space around it. -/
def trimWhiteSpace (text : List Char) : List Char :=
  ((text.dropWhile isWhiteSpace).reverse.dropWhile isWhiteSpace).reverse

/-- A directive that is only one word is a level for all events, or else a target. -/
def Directive.ofWord (text : List Char) : Directive :=
  match thresholdOf? text with
  | some threshold => .forAll threshold
  | none => ⟨some text, none, none, Level.trace.rank⟩

/-- A directive may begin with a target, and end with a level for its events. -/
def Directive.ofTarget (text : List Char) (trimmed : List Char) : Except FilterFault Directive :=
  match breakWhile (fun c => c != '=' && c != '[') trimmed with
  | (_, []) => .ok (Directive.ofWord text)
  | (name, sign :: rest) => do
      let stop := byteLength name
      let target ← part ⟨0, stop⟩ text
      if sign == '[' then Directive.ofSpan text (some target) (stop + 1) rest
      else
        Directive.finish text ⟨some target, none, none, Level.trace.rank⟩ stop (sign :: rest)

/-- The directive that a text spells. -/
def Directive.ofText (text : List Char) : Except FilterFault Directive :=
  match trimWhiteSpace text with
  | '[' :: rest => Directive.ofSpan text none 1 rest
  | first :: rest =>
      if beginsDirective first then Directive.ofTarget text (first :: rest)
      else .error .unreadable
  | [] => .error .unreadable

/-- The pieces of a text between its commas. -/
def splitCommas : List Char → List (List Char)
  | [] => [[]]
  | c :: rest =>
      if c = ',' then [] :: splitCommas rest
      else
        match splitCommas rest with
        | [] => [[c]]
        | piece :: pieces => (c :: piece) :: pieces

/-- The directives in a text, if each of them can be read. -/
def directives (text : String) : Except FilterFault (List Directive) :=
  ((splitCommas text.toList).filter (· != [])).mapM Directive.ofText

end RunSigning.CommandLine
