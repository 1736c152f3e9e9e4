import RunSigning.Pattern.Flags
import RunSigning.Pattern.Nesting

/-
This file reads the groups of patterns. A group holds branches, a branch holds parts, and the whole
pattern is read like a group that is never closed.
-/

namespace RunSigning.Pattern

/-- A group of which a beginning has been read. The parts of the last branch stand last one
first. -/
structure Group where
  branches : List Nat
  parts : List Part
  deriving DecidableEq, Repr

def Group.empty : Group := ⟨[], []⟩

def Group.add (group : Group) (part : Part) : Group := { group with parts := part :: group.parts }

/-- The depth of the last branch. -/
def Group.branchDepth (group : Group) : Nat := depthTogether (group.parts.map Part.depth)

/-- The depth of what the group holds. -/
def Group.depth (group : Group) : Nat := depthTogether (group.branchDepth :: group.branches)

/-- The next branch begins. -/
def Group.branch (group : Group) : Group := ⟨group.branchDepth :: group.branches, []⟩

/-- The last part is repeated, if there is one and it can be. -/
def Group.repeatLast? (group : Group) : Option Group :=
  match group.parts with
  | [] => none
  | part :: parts =>
      if part.isRepeatable then some ⟨group.branches, .around part.depth :: parts⟩ else none

/-- The innermost open group with the flags in it, and the groups around it with theirs. -/
structure Groups where
  flags : Flags
  inner : Group
  outer : List (Flags × Group)
  names : List (List Char)
  deriving DecidableEq, Repr

def Groups.empty : Groups := ⟨.standard, .empty, [], []⟩

def Groups.add (groups : Groups) (part : Part) : Groups :=
  { groups with inner := groups.inner.add part }

def Groups.branch (groups : Groups) : Groups := { groups with inner := groups.inner.branch }

def Groups.repeatLast? (groups : Groups) : Option Groups :=
  groups.inner.repeatLast?.map fun inner => { groups with inner := inner }

/-- A group begins, with flags of its own. -/
def Groups.start (groups : Groups) (flags : Flags) : Groups :=
  { groups with
    flags := flags
    inner := .empty
    outer := (groups.flags, groups.inner) :: groups.outer }

/-- A group with a name begins. No two groups have the same name. -/
def Groups.startNamed? (groups : Groups) (name : List Char) : Option Groups :=
  if name.isEmpty || groups.names.contains name then none
  else some { groups.start groups.flags with names := name :: groups.names }

/-- The innermost group ends, and with it what its flags say. -/
def Groups.close? (groups : Groups) : Option Groups :=
  match groups.outer with
  | [] => none
  | (flags, group) :: outer =>
      some { groups with
        flags := flags
        inner := group.add (.around groups.inner.depth)
        outer := outer }

/-- All groups are closed, and the whole is not too deep. -/
def Groups.isComplete (groups : Groups) : Bool :=
  groups.outer.isEmpty && groups.inner.depth ≤ depthLimit

end RunSigning.Pattern
