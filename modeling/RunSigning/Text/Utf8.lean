/-
This file decodes UTF-8. A lead byte says which ranges the bytes after it must lie in, so that
overlong forms, surrogates and values past the last code point are never accepted.
-/

namespace RunSigning.Text.Utf8

/-- A range of bytes, both ends included. -/
structure Range where
  low : UInt8
  high : UInt8
  deriving DecidableEq, Repr

def Range.contains (range : Range) (byte : UInt8) : Bool :=
  range.low ≤ byte && byte ≤ range.high

/-- Any continuation byte. -/
def Range.continuation : Range := ⟨0x80, 0xBF⟩

/-- The ranges of the bytes that follow a lead byte, if it is one. -/
def followers? (lead : UInt8) : Option (List Range) :=
  if lead ≤ 0x7F then some []
  else if lead < 0xC2 then none
  else if lead ≤ 0xDF then some [.continuation]
  else if lead = 0xE0 then some [⟨0xA0, 0xBF⟩, .continuation]
  else if lead = 0xED then some [⟨0x80, 0x9F⟩, .continuation]
  else if lead ≤ 0xEF then some [.continuation, .continuation]
  else if lead = 0xF0 then some [⟨0x90, 0xBF⟩, .continuation, .continuation]
  else if lead ≤ 0xF3 then some [.continuation, .continuation, .continuation]
  else if lead = 0xF4 then some [⟨0x80, 0x8F⟩, .continuation, .continuation]
  else none

/-- What the bytes after a lead byte are, measured against their ranges. -/
inductive Match where
  | complete
  | broken (length : Nat)
  | cut
  deriving DecidableEq, Repr

/-- A sequence is broken by the first byte outside its range. -/
def matchRanges (length : Nat) : List Range → List UInt8 → Match
  | [], _ => .complete
  | _ :: _, [] => .cut
  | range :: ranges, byte :: bytes =>
      if range.contains byte then matchRanges (length + 1) ranges bytes else .broken length

/-- The lead byte keeps its low bits, and each follower adds six. -/
def codePoint (lead : UInt8) (bytes : List UInt8) : Nat :=
  let leadBits :=
    match bytes.length with
    | 0 => lead.toNat
    | 1 => lead.toNat % 32
    | 2 => lead.toNat % 16
    | _ => lead.toNat % 8
  bytes.foldl (fun value byte => value * 64 + byte.toNat % 64) leadBits

/-- The bytes begin with a character, with an ill-formed part, or end within a character. -/
inductive Head where
  | character (c : Char) (size : Nat)
  | illFormed (size : Nat)
  | incomplete
  deriving DecidableEq, Repr

def head (lead : UInt8) (bytes : List UInt8) : Head :=
  match followers? lead with
  | none => .illFormed 1
  | some ranges =>
      match matchRanges 1 ranges bytes with
      | .complete =>
          .character (Char.ofNat (codePoint lead (bytes.take ranges.length))) ranges.length
      | .broken length => .illFormed length
      | .cut => .incomplete

/-- The first fault of a byte string: where its bad sequence starts and how many bytes of it
are ill-formed, or that the bytes end within a sequence. -/
structure Fault where
  index : Nat
  length? : Option Nat
  deriving DecidableEq, Repr

def Fault.message (fault : Fault) : String :=
  match fault.length? with
  | some length =>
      "invalid utf-8 sequence of " ++ toString length ++ " bytes from index " ++
        toString fault.index
  | none => "incomplete utf-8 byte sequence from index " ++ toString fault.index

def decodeFrom (index : Nat) (before : List Char) (bytes : List UInt8) :
    Except Fault (List Char) :=
  match bytes with
  | [] => .ok before.reverse
  | lead :: rest =>
      match head lead rest with
      | .character c size => decodeFrom (index + 1 + size) (c :: before) (rest.drop size)
      | .illFormed length => .error ⟨index, some length⟩
      | .incomplete => .error ⟨index, none⟩
termination_by bytes.length
decreasing_by simp only [List.length_drop, List.length_cons]; omega

/-- The text that the bytes encode, or the first fault in them. -/
def decode (bytes : List UInt8) : Except Fault (List Char) := decodeFrom 0 [] bytes

def decodeLossyFrom (before : List Char) (bytes : List UInt8) : List Char :=
  match bytes with
  | [] => before.reverse
  | lead :: rest =>
      match head lead rest with
      | .character c size => decodeLossyFrom (c :: before) (rest.drop size)
      | .illFormed length => decodeLossyFrom ('\ufffd' :: before) (rest.drop (length - 1))
      | .incomplete => ('\ufffd' :: before).reverse
termination_by bytes.length
decreasing_by all_goals simp only [List.length_drop, List.length_cons]; omega

/-- The text of the bytes with each maximal ill-formed part replaced by U+FFFD. -/
def decodeLossy (bytes : List UInt8) : List Char := decodeLossyFrom [] bytes

/-- The bytes of a text. -/
def encode (text : List Char) : List UInt8 := text.flatMap String.utf8EncodeChar

/-- The first byte of a character, read as a code point of its own. -/
def leadByte (c : Char) : Char := Char.ofNat ((String.utf8EncodeChar c).headD 0).toNat

end RunSigning.Text.Utf8
