import RunSigning.Text.Digit
import RunSigning.Text.Utf8

/-
This file defines what programs do when they run: they print pieces in order, each to one of two
streams, and then end. Some pieces depend on the arguments or the standard input.
-/

namespace RunSigning
open RunSigning.Text

/-- An argument is any bytes but NUL; it need not be UTF-8. -/
abbrev Argument := List UInt8

/-- Where a program prints. -/
inductive Stream where
  | output
  | error
  deriving DecidableEq, Repr

inductive OutputPiece where
  | bytes (fixed : List UInt8)
  /-- All that is left of the standard input. -/
  | input
  /-- An argument by its place, counted from one; nothing if there is none. -/
  | argument (place : Nat)
  | argumentCount
  /-- All arguments on one line, without the options at their beginning. -/
  | line
  deriving DecidableEq, Repr

def encodeString (text : String) : List UInt8 := Utf8.encode text.toList

/-- An option of a line is a hyphen with some of the letters n, e and E. -/
def isLineOption : Argument → Bool
  | 0x2D :: letters => !letters.isEmpty && letters.all (encodeString "neE").contains
  | _ => false

/-- The bytes that letters behind a backslash stand for. -/
def escapedBytes : List (UInt8 × UInt8) :=
  [(0x5C, 0x5C), (0x61, 0x07), (0x62, 0x08), (0x65, 0x1B), (0x66, 0x0C), (0x6E, 0x0A),
    (0x72, 0x0D), (0x74, 0x09), (0x76, 0x0B)]

/-- The value of a digit, if it is one in the base. -/
def byteDigit? (base : Nat) (byte : UInt8) : Option Nat :=
  let c := Char.ofNat byte.toNat
  if isHexadecimalDigit c && digitValue c < base then some (digitValue c) else none

/-- The number that up to a number of digits spell, added to a value for the digits before, and
how many digits they are. -/
def spelledNumber (base : Nat) : Nat → Nat → Argument → Nat × Nat
  | 0, value, _ => (value, 0)
  | room + 1, value, bytes =>
      match bytes with
      | [] => (value, 0)
      | byte :: rest =>
          match byteDigit? base byte with
          | none => (value, 0)
          | some digit =>
              let (number, count) := spelledNumber base room (value * base + digit) rest
              (number, count + 1)

/-- The byte that is spelled behind a backslash in digits, and how many bytes spell it: three
octal digits, with one more zero before them if there is one, or x and two hexadecimal ones. -/
def spelledByte? : Argument → Option (UInt8 × Nat)
  | 0x30 :: rest =>
      let (number, count) := spelledNumber 8 3 0 rest
      some (UInt8.ofNat number, count + 1)
  | 0x78 :: rest =>
      let (number, count) := spelledNumber 16 2 0 rest
      if count = 0 then none else some (UInt8.ofNat number, count + 1)
  | bytes =>
      let (number, count) := spelledNumber 8 3 0 bytes
      if count = 0 then none else some (UInt8.ofNat number, count)

/-- The bytes that an argument stands for where a backslash escapes, and whether they are to be the
last ones of the line. The first number counts bytes that have been read ahead. -/
def unescapeBytes : Nat → Argument → Argument × Bool
  | _, [] => ([], false)
  | ahead + 1, _ :: rest => unescapeBytes ahead rest
  | 0, byte :: rest =>
      let (shown, ahead) : Argument × Nat :=
        if byte != 0x5C then ([byte], 0)
        else
          match rest with
          | [] => ([byte], 0)
          | letter :: _ =>
              match escapedBytes.lookup letter, spelledByte? rest with
              | some escaped, _ => ([escaped], 1)
              | none, some (spelled, count) => ([spelled], count)
              | none, none => ([byte, letter], 1)
      if byte == 0x5C && rest.head? == some 0x63 then ([], true)
      else
        let (after, isLast) := unescapeBytes ahead rest
        (shown ++ after, isLast)

/-- The line of unescaped arguments, and whether it is cut short. -/
def unescapeLine : List Argument → Argument × Bool
  | [] => ([], false)
  | argument :: rest =>
      let (shown, isLast) := unescapeBytes 0 argument
      if isLast || rest.isEmpty then (shown, isLast)
      else
        let (after, isCut) := unescapeLine rest
        (shown ++ encodeString " " ++ after, isCut)

/-- Whether the last of the options e and E is e. -/
def unescapes (options : List Argument) : Bool :=
  (options.flatten.filter fun letter => letter == 0x65 || letter == 0x45).getLast? == some 0x65

/-- The arguments between single spaces. The option n leaves the line without its end. -/
def printLine (arguments : List Argument) : List UInt8 :=
  let options := arguments.takeWhile isLineOption
  let rest := arguments.dropWhile isLineOption
  let (shown, isCut) :=
    if unescapes options then unescapeLine rest
    else (List.intercalate (encodeString " ") rest, false)
  if isCut || options.any fun option => option.contains 0x6E then shown
  else shown ++ encodeString "\n"

def OutputPiece.print (input : List UInt8) (arguments : List Argument) :
    OutputPiece → List UInt8
  | .bytes fixed => fixed
  | .input => input
  | .argument 0 => []
  | .argument (place + 1) => arguments[place]?.getD []
  | .argumentCount => encodeString (toString arguments.length)
  | .line => printLine arguments

/-- What is left of the standard input after a piece. -/
def OutputPiece.unread (input : List UInt8) : OutputPiece → List UInt8
  | .input => []
  | _ => input

/-- The writes of pieces, in their order. -/
def printPieces (arguments : List Argument) :
    List UInt8 → List (Stream × OutputPiece) → List (Stream × List UInt8)
  | _, [] => []
  | input, (stream, piece) :: rest =>
      (stream, piece.print input arguments) :: printPieces arguments (piece.unread input) rest

inductive Ending where
  | exited (status : UInt8)
  | killed (signal : Nat)
  deriving DecidableEq, Repr

def Ending.isSuccess (ending : Ending) : Bool := ending == .exited 0

/-- The names of signals, beginning with that of signal 1. -/
def signalNames : List String :=
  ["SIGHUP", "SIGINT", "SIGQUIT", "SIGILL", "SIGTRAP", "SIGABRT", "SIGBUS", "SIGFPE", "SIGKILL",
    "SIGUSR1", "SIGSEGV", "SIGUSR2", "SIGPIPE", "SIGALRM", "SIGTERM", "SIGSTKFLT", "SIGCHLD",
    "SIGCONT", "SIGSTOP", "SIGTSTP", "SIGTTIN", "SIGTTOU", "SIGURG", "SIGXCPU", "SIGXFSZ",
    "SIGVTALRM", "SIGPROF", "SIGWINCH", "SIGIO", "SIGPWR", "SIGSYS"]

def signalName? : Nat → Option String
  | 0 => none
  | place + 1 => signalNames[place]?

/-- The signals that a program takes no notice of. Zero is none at all. -/
def idleSignals : List Nat := [0, 17, 18, 23, 28]

/-- How a program ends that sends itself a signal as the last thing it does. -/
def Ending.ofSignal (signal : Nat) : Ending :=
  if idleSignals.contains signal then .exited 0 else .killed signal

def Ending.describe : Ending → String
  | .exited status => "exit status: " ++ toString status
  | .killed signal =>
      "signal: " ++ toString signal ++
        ((signalName? signal).elim "" fun name => " (" ++ name ++ ")")

structure Program where
  pieces : List (Stream × OutputPiece)
  ending : Ending
  deriving DecidableEq, Repr

/-- What a program wrote to its streams and how it ended. -/
structure ProgramRun where
  writes : List (Stream × List UInt8)
  ending : Ending
  deriving DecidableEq, Repr

/-- What one pipe receives that both streams lead into: all writes, in their order. -/
def ProgramRun.output (run : ProgramRun) : List UInt8 := run.writes.flatMap Prod.snd

/-- The run of a program that finds the given bytes on its standard input. -/
def Program.run (program : Program) (input : List UInt8) (arguments : List Argument) :
    ProgramRun :=
  ⟨printPieces arguments input program.pieces, program.ending⟩

/-- This program prints its arguments. -/
def Program.echo : Program := ⟨[(.output, .line)], .exited 0⟩

/-- This program only succeeds. -/
def Program.succeed : Program := ⟨[], .exited 0⟩

/-- This program only fails. -/
def Program.fail : Program := ⟨[], .exited 1⟩

end RunSigning
