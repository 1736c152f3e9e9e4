import RunSigning.Error
import RunSigning.FileTree.Basic

/-
This file finds the entry that a path leads to. Every name in a path is looked up in a directory,
links are followed, and a bounded number of them may lie on the way.
-/

namespace RunSigning

/-- Where a path leads: to an entry, or to a free name in a directory. -/
inductive Place where
  | found (location : Location)
  | vacant (location : Location)
  deriving DecidableEq, Repr

/-- The most links that may lie on the way. -/
def linkLimit : Nat := 40

/-- The most bytes of a name. -/
def nameLimit : Nat := 255

/-- The most bytes of a path. -/
def pathLimit : Nat := 4095

/-- The walk takes one name after the other. A name that is not there may only be the last, and
at a link the walk goes on as `follow` says. -/
def FileTree.walkNames (tree : FileTree)
    (follow : Location → List String → Except SystemError Place) (location : Location) :
    List String → Except SystemError Place
  | [] => .ok (.found location)
  | name :: rest =>
      if tree.get? location ≠ some .directory then .error .notDirectory
      else if name = "" ∨ name = "." then tree.walkNames follow location rest
      else if name = ".." then tree.walkNames follow location.dropLast rest
      else if nameLimit < name.utf8ByteSize then .error .nameTooLong
      else
        let next := location ++ [name]
        match tree.get? next with
        | none => if rest.isEmpty then .ok (.vacant next) else .error .notFound
        | some (.link target) =>
            follow (if target.isAbsolute then [] else location) (target.names ++ rest)
        | some _ => tree.walkNames follow next rest

/-- The walk follows as many links as are left. -/
def FileTree.walk (tree : FileTree) :
    Nat → Location → List String → Except SystemError Place
  | 0 => tree.walkNames fun _ _ => .error .linkLoop
  | links + 1 => tree.walkNames (tree.walk links)

/-- The location at which a path begins. -/
def FileTree.origin (tree : FileTree) (path : Path) : Location :=
  if path.isAbsolute then [] else tree.current

def Path.hasNul (path : Path) : Bool := path.text.toList.contains '\x00'

/-- The place that a path leads to through all links. -/
def FileTree.locate (tree : FileTree) (path : Path) : Except IoError Place :=
  if path.hasNul then .error .nulInPath
  else if path.text = "" then .error (.system .notFound)
  else
    match tree.walk linkLimit (tree.origin path) path.names with
    | .ok place => .ok place
    | .error error => .error (.system error)

/-- The location of the entry that a path leads to through all links. The path is taken name by
name, so it may be of any length. -/
def FileTree.trace (tree : FileTree) (path : Path) : Except IoError Location :=
  match tree.locate path with
  | .ok (.found location) => .ok location
  | .ok (.vacant _) => .error (.system .notFound)
  | .error cause => .error cause

/-- A path that is used as a whole may not be too long. -/
def Path.isTooLong (path : Path) : Bool := pathLimit < path.text.utf8ByteSize

/-- The location of the entry that a path leads to, if the path may be used as a whole. -/
def FileTree.resolve (tree : FileTree) (path : Path) : Except IoError Location :=
  if path.isTooLong && !path.hasNul then .error (.system .nameTooLong) else tree.trace path

/-- The location that a path names itself: its last name is not followed if it is a link. -/
def FileTree.destination (tree : FileTree) (path : Path) : Except SystemError Location :=
  let backwards := path.names.reverse
  if path.isTooLong then .error .nameTooLong
  else
    match backwards.dropWhile (· == "") with
    | [] => .error .notFound
    | last :: before =>
        match tree.walk linkLimit (tree.origin path) before.reverse with
        | .error error => .error error
        | .ok (.vacant _) => .error .notFound
        | .ok (.found directory) =>
            if tree.get? directory ≠ some .directory then .error .notDirectory
            else if last = "." ∨ last = ".." then .error .busy
            else if backwards.head? = some "" then .error .notDirectory
            else .ok (directory ++ [last])

/-- The path from the root to a location. -/
def Path.ofLocation (location : Location) : Path := ⟨"/" ++ String.intercalate "/" location⟩

/-- The path from the root that a path stands for, seen from the working directory. -/
def FileTree.absolute (tree : FileTree) (path : Path) : Path :=
  (Path.ofLocation tree.current).join path

end RunSigning
