/-
This file measures how deep the parts of a pattern are nested.
-/

namespace RunSigning.Pattern

/-- The most levels that the parts of a pattern may be nested. -/
def depthLimit : Nat := 250

/-- A part that holds others is one level deeper than the deepest of them. -/
def depthAround (depths : List Nat) : Nat := depths.foldl max 0 + 1

/-- A single part counts as itself, and several parts are held together by one more level. -/
def depthTogether : List Nat → Nat
  | [] => 0
  | [depth] => depth
  | depths => depthAround depths

/-- A part of a pattern. Flags alone cannot be repeated. -/
structure Part where
  depth : Nat
  isRepeatable : Bool
  deriving DecidableEq, Repr

/-- A part without parts of its own. -/
def Part.single : Part := ⟨0, true⟩

def Part.ofFlags : Part := ⟨0, false⟩

/-- A part that holds one of a given depth. -/
def Part.around (depth : Nat) : Part := ⟨depthAround [depth], true⟩

end RunSigning.Pattern
