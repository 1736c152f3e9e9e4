import RunSigning.Path
import RunSigning.Program

/-
This file defines file trees. An entry stands at a location, the list of names that leads to it
from the root; the root itself is always a directory.
-/

namespace RunSigning

abbrev Location := List String

/-- A regular file. One that is a program can also be run. -/
structure File where
  mode : Nat
  content : List UInt8
  program? : Option Program
  deriving DecidableEq, Repr

/-- The modes in which the owner of a file may read it, write to it and run it. -/
def File.mayRead (file : File) : Bool := file.mode &&& 0o400 != 0

def File.mayWrite (file : File) : Bool := file.mode &&& 0o200 != 0

def File.mayRun (file : File) : Bool := file.mode &&& 0o100 != 0

inductive Entry where
  | directory
  | file (file : File)
  | link (target : Path)
  deriving DecidableEq, Repr

/-- A file tree with the working directory, where relative paths begin. -/
structure FileTree where
  current : Location
  entries : List (Location × Entry)
  deriving DecidableEq, Repr

def FileTree.get? (tree : FileTree) (location : Location) : Option Entry :=
  if location = [] then some .directory else tree.entries.lookup location

/-- An entry takes the place of the one at its location, or comes after all others. -/
def setEntry (location : Location) (entry : Entry) :
    List (Location × Entry) → List (Location × Entry)
  | [] => [(location, entry)]
  | (place, old) :: rest =>
      if place = location then (place, entry) :: rest
      else (place, old) :: setEntry location entry rest

def FileTree.set (tree : FileTree) (location : Location) (entry : Entry) : FileTree :=
  { tree with entries := setEntry location entry tree.entries }

def FileTree.remove (tree : FileTree) (location : Location) : FileTree :=
  { tree with entries := tree.entries.filter fun item => item.1 != location }

theorem lookup_setEntry (location other : Location) (entry : Entry)
    (entries : List (Location × Entry)) :
    (setEntry location entry entries).lookup other =
      if other = location then some entry else entries.lookup other := by
  induction entries with
  | nil =>
      by_cases same : other = location
      · simp [setEntry, same]
      · have differs : (other == location) = false := by simp [same]
        simp [setEntry, List.lookup_cons, same, differs]
  | cons item rest ih =>
      obtain ⟨place, old⟩ := item
      by_cases here : place = location
      · subst here
        by_cases same : other = place
        · simp [setEntry, same]
        · have differs : (other == place) = false := by simp [same]
          simp [setEntry, List.lookup_cons, same, differs]
      · by_cases same : other = place
        · subst same
          simp [setEntry, here]
        · have differs : (other == place) = false := by simp [same]
          simp [setEntry, here, List.lookup_cons, differs, ih]

/-- Setting an entry changes what stands at its location and nowhere else. -/
theorem FileTree.get?_set (tree : FileTree) {location : Location} (other : Location)
    (entry : Entry) (proper : location ≠ []) :
    (tree.set location entry).get? other =
      if other = location then some entry else tree.get? other := by
  by_cases root : other = []
  · subst root
    simp [FileTree.get?, Ne.symm proper]
  · simp [FileTree.get?, FileTree.set, root, lookup_setEntry]

/-- The entries below the working directory with their locations as seen from there. -/
def FileTree.listing (tree : FileTree) : List (Location × Entry) :=
  tree.entries.filterMap fun (location, entry) =>
    if tree.current.isPrefixOf location && tree.current != location then
      some (location.drop tree.current.length, entry)
    else none

/-- Only the twelve lowest bits of a mode count. -/
def Entry.regular (mode : Nat) (content : List UInt8) : Entry :=
  .file ⟨mode % 0o10000, content, none⟩

def Entry.mayRead : Entry → Bool
  | .file held => held.mayRead
  | _ => true

/-- The listing, if all that is listed may be read. -/
def FileTree.listing? (tree : FileTree) : Option (List (Location × Entry)) :=
  if tree.listing.all fun item => item.2.mayRead then some tree.listing else none

end RunSigning
