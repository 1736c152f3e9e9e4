import RunSigning.Markup.Reference

/-
This file says which entities are declared and how far references to them may nest. Nesting is
bounded in depth, and the references inside one outermost reference are bounded in number.
-/

namespace RunSigning.Markup

/-- Declared entities in order, with their replacement texts. -/
abbrev Entities := List (String × Cursor)

/-- The first declaration of a name counts. -/
def Entities.find? (entities : Entities) (name : String) : Option Cursor := entities.lookup name

/-- References nest at most this deep. -/
def nestingLimit : Nat := 10

/-- At most this many references are followed inside one outermost reference. -/
def referenceLimit : Nat := 255

/-- The room is the depth of nesting that is left. Nothing is nested while all of it is. -/
def isOutermost (room : Nat) : Bool := room == nestingLimit

/-- A nested reference is counted before it is followed. -/
def countReference (room stop references : Nat) : Except Failure Nat :=
  if isOutermost room then .ok references
  else if references = referenceLimit then .error ⟨.referenceLoop, stop⟩
  else .ok (references + 1)

/-- The count starts anew after an outermost reference. -/
def settleReferences (room references : Nat) : Nat :=
  if isOutermost room then 0 else references

/-- A character of a value as attributes hold it: blanks become spaces. -/
def blankToSpace (c : Char) : Char :=
  if c = '\t' ∨ c = '\n' ∨ c = '\r' then ' ' else c

/-- The characters of a value so far, last one first, and the count of nested references. -/
structure ValueState where
  text : List Char
  references : Nat
  deriving DecidableEq, Repr

def ValueState.push (state : ValueState) (c : Char) : ValueState :=
  { state with text := c :: state.text }

/-- The characters that chunks stand for in a value. A literal carriage return before a line feed
is dropped. An outermost character reference stands for its character unchanged; inside an entity
it is treated like a literal one, and may not stand for an opening bracket. -/
def ValueState.extend (entities : Entities) (outermost : Bool)
    (follow : Nat → Cursor → ValueState → Except Failure ValueState) :
    List Chunk → ValueState → Except Failure ValueState
  | [], state => .ok state
  | .literal c :: rest, state =>
      if c = '\r' ∧ rest.head? = some (.literal '\n') then
        extend entities outermost follow rest state
      else extend entities outermost follow rest (state.push (blankToSpace c))
  | .character c start :: rest, state =>
      if outermost then extend entities outermost follow rest (state.push c)
      else if c = '<' then .error ⟨.lessInValue, start⟩
      else extend entities outermost follow rest (state.push (blankToSpace c))
  | .entity name start stop :: rest, state =>
      match entities.find? name with
      | none => .error ⟨.referenceUnknown name, start⟩
      | some replacement =>
          match follow stop replacement state with
          | .error failure => .error failure
          | .ok followed => extend entities outermost follow rest followed
  | .malformed start :: _, _ => .error ⟨.referenceMalformed, start⟩

/-- The value goes on with the replacement text of an entity, if there is room. -/
def ValueState.follow (entities : Entities) :
    Nat → Nat → Cursor → ValueState → Except Failure ValueState
  | 0 => fun stop _ _ => .error ⟨.referenceLoop, stop⟩
  | room + 1 => fun stop replacement state => do
      let references ← countReference (room + 1) stop state.references
      let followed ← ValueState.extend entities false (ValueState.follow entities room)
        (Chunk.split replacement) { state with references := references }
      return { followed with references := settleReferences (room + 1) followed.references }

/-- The value that an attribute has, and the count of nested references after it. -/
def normalizeValue (entities : Entities) (room references : Nat) (written : Cursor) :
    Except Failure (String × Nat) := do
  let state ← ValueState.extend entities (isOutermost room) (ValueState.follow entities room)
    (Chunk.split written) ⟨[], references⟩
  return (String.ofList state.text.reverse, state.references)

end RunSigning.Markup
