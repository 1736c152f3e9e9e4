import RunSigning.Document
import RunSigning.FileTree.Write

/-
This file reads files, and loads and saves documents. It also makes, changes and removes entries
at once, as a user of the tree does.
-/

namespace RunSigning

/-- The content of the file that a path leads to. -/
def FileTree.read (tree : FileTree) (path : Path) : Except IoError (List UInt8) :=
  match tree.resolve path with
  | .error cause => .error cause
  | .ok location =>
      match tree.get? location with
      | some (.file file) =>
          if file.mayRead then .ok file.content else .error (.system .permissionDenied)
      | some .directory => .error (.system .isDirectory)
      | _ => .error (.system .notFound)

/-- The document in the file that a path leads to. A missing file is told from other failures. -/
def FileTree.load (tree : FileTree) (path : Path) : Except Error Document :=
  match tree.read path with
  | .error (.system .notFound) => .error (.configNotFound path)
  | .error cause => .error (.io cause)
  | .ok bytes =>
      match Document.ofBytes bytes with
      | .ok document => .ok document
      | .error fault => .error (.illFormed (.inFile path fault))

/-- A document is written where a path leads. -/
def FileTree.save (tree : FileTree) (disk : Disk) (path : Path) (document : Document) :
    Except Error Unit × FileTree :=
  tree.write disk path document.bytes

/-- Directories are made along the names. Nothing else may stand in their places, not even a link
that leads nowhere. -/
def FileTree.makeDirectories (tree : FileTree) (location : Location) :
    List String → Except SystemError FileTree
  | [] => .ok tree
  | name :: rest =>
      match tree.walk linkLimit location [name] with
      | .error error => .error error
      | .ok (.found next) =>
          if tree.get? next = some .directory then tree.makeDirectories next rest
          else .error .alreadyExists
      | .ok (.vacant next) =>
          if next = location ++ [name] then (tree.set next .directory).makeDirectories next rest
          else .error .alreadyExists

/-- A file is written where a path leads. One that is there keeps its place. -/
def FileTree.putFile (tree : FileTree) (path : Path) (file : File) : Except IoError FileTree :=
  match tree.locate path with
  | .error cause => .error cause
  | .ok (.vacant location) => .ok (tree.set location (.file file))
  | .ok (.found location) =>
      match tree.get? location with
      | some (.file old) =>
          if old.mayWrite then .ok (tree.set location (.file file))
          else .error (.system .permissionDenied)
      | _ => .error (.system .isDirectory)

/-- A link is made at the place that a path itself names, if that is free. -/
def FileTree.putLink (tree : FileTree) (path target : Path) : Except IoError FileTree :=
  match tree.destination path with
  | .error error => .error (.system error)
  | .ok location =>
      if (tree.get? location).isSome then .error (.system .alreadyExists)
      else if target.text = "" then .error (.system .notFound)
      else if target.isTooLong then .error (.system .nameTooLong)
      else .ok (tree.set location (.link target))

/-- An entry is put where a path leads, and the directories on the way are made. -/
def FileTree.put (tree : FileTree) (path : Path) (entry : Entry) : Except IoError FileTree :=
  if path.hasNul then .error .nulInPath
  else if (tree.absolute path).isTooLong then .error (.system .nameTooLong)
  else
    match tree.makeDirectories (tree.origin path)
      (if entry = .directory then path.names else path.parents) with
    | .error error => .error (.system error)
    | .ok ready =>
        match entry with
        | .directory => .ok ready
        | .file file => ready.putFile path file
        | .link target => ready.putLink path target

/-- The file or link that a path itself names is removed. -/
def FileTree.delete (tree : FileTree) (path : Path) : Except IoError FileTree :=
  match tree.destination path with
  | .error error => .error (.system error)
  | .ok location =>
      match tree.get? location with
      | none => .error (.system .notFound)
      | some .directory => .error (.system .isDirectory)
      | some _ => .ok (tree.remove location)

end RunSigning
