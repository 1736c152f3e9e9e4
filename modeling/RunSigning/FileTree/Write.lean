import RunSigning.FileTree.Resolve

/-
This file writes files. The new content is put into a temporary file next to the place where it
belongs, and that file is then moved there. Every step may be refused; the temporary file is then
removed again.
-/

namespace RunSigning

/-- The name of a temporary file. Letters and digits that are drawn at random tell it from
others. -/
structure TemporaryName where
  letters : List Char
  count : letters.length = 6
  plain : letters.all Char.isAlphanum = true
  deriving DecidableEq

def TemporaryName.text (name : TemporaryName) : String := ".tmp" ++ String.ofList name.letters

/-- The steps of a write. -/
inductive WriteStep where
  /-- The path is followed to the file that it leads to. -/
  | resolve
  /-- An empty temporary file is made. -/
  | create
  | fill
  /-- The temporary file takes over the mode of the file to replace. -/
  | setMode
  /-- The content is brought to the disk before the file is moved. -/
  | sync
  | rename
  deriving DecidableEq, Repr

/-- What a write meets with that the tree does not tell: the temporary names that are drawn one
after the other, and the steps that are refused. What the tree does tell is told without fail, so
that no path is said to lead nowhere because of the disk. A file that was made can be removed
again. -/
structure Disk where
  names : List TemporaryName
  refuses? : WriteStep → Option SystemError
  leads : refuses? .resolve ≠ some .notFound

/-- A disk that refuses nothing. -/
def Disk.sound (names : List TemporaryName) : Disk := ⟨names, fun _ => none, nofun⟩

def TemporaryName.repeated (letter : Char) (plain : letter.isAlphanum = true) : TemporaryName :=
  ⟨List.replicate 6 letter, List.length_replicate, by simp [plain]⟩

/-- A sound disk with a few names. -/
def Disk.standard : Disk :=
  .sound [.repeated 'a' rfl, .repeated 'b' rfl, .repeated 'c' rfl, .repeated 'd' rfl]

/-- Where a file is written: to the location that its path leads to, or to what the path itself
names. -/
inductive Goal where
  | location (location : Location)
  | path (path : Path)
  deriving DecidableEq

/-- The path of the directory next to a goal. -/
def Goal.directory : Goal → Path
  | .location place => if place = [] then ⟨"."⟩ else .ofLocation place.dropLast
  | .path named => named.directory

/-- The mode of a file that was not there before. -/
def newMode : Nat := 0o600

/-- The mode of an entry. Only that of a file matters, as no directory is replaced. -/
def Entry.mode : Entry → Nat
  | .file held => held.mode
  | _ => newMode

namespace FileTree

variable (tree : FileTree)

/-- The goal of a path. The location that it leads to needs a path that is not too long. -/
def goal (path : Path) : Except IoError Goal :=
  match tree.trace path with
  | .ok location =>
      if (Path.ofLocation location).isTooLong then .error (.system .nameTooLong)
      else .ok (.location location)
  | .error (.system .notFound) => .ok (.path path)
  | .error cause => .error cause

/-- The location of the directory next to a goal. -/
def workplace : Goal → Except IoError Location
  | .location location => .ok (if location = [] then tree.current else location.dropLast)
  | .path path =>
      match tree.trace path.directory with
      | .error cause => .error cause
      | .ok directory =>
          if tree.get? directory = some .directory then .ok directory
          else .error (.system .notDirectory)

/-- The location of the temporary file: the first of the names is taken that no entry has. -/
def temporary (goal : Goal) : List TemporaryName → Except IoError Location
  | [] => .error .namesExhausted
  | name :: rest =>
      if (tree.absolute (goal.directory.join ⟨name.text⟩)).isTooLong then
        .error (.system .nameTooLong)
      else
        match tree.workplace goal with
        | .error cause => .error cause
        | .ok directory =>
            if tree.get? (directory ++ [name.text]) = none then .ok (directory ++ [name.text])
            else temporary goal rest

/-- The mode that is taken over, if there is an entry to take it from. -/
def modeFor? : Goal → Option Nat
  | .location location => (tree.get? location).map Entry.mode
  | .path path =>
      match tree.resolve path with
      | .ok location => (tree.get? location).map Entry.mode
      | .error _ => none

/-- Where the temporary file is moved to. -/
def endpoint : Goal → Except SystemError Location
  | .location location => .ok location
  | .path path => tree.destination path

/-- An entry is moved. It takes the place of what is there, unless that is a directory. -/
def move (source location : Location) : Except SystemError FileTree :=
  match tree.get? source with
  | none => .error .notFound
  | some entry =>
      if location = source then .ok tree
      else if location = [] then .error .busy
      else if tree.get? location = some .directory then .error .isDirectory
      else .ok ((tree.set location entry).remove source)

/-- A file is changed in its place. -/
def amend (location : Location) (change : File → File) : FileTree :=
  match tree.get? location with
  | some (.file file) => tree.set location (.file (change file))
  | _ => tree

end FileTree

/-- The steps that are taken once a temporary name is found. -/
def WriteStep.staged : List WriteStep := [.create, .fill, .setMode, .sync, .rename]

/-- The error of a step that fails. -/
def WriteStep.failure (step : WriteStep) (error : SystemError) : Error :=
  if step = .create ∨ step = .fill then .temporaryFile (.system error) else .io (.system error)

/-- A mode is only set if there is one to take over. -/
def WriteStep.isDue (mode? : Option Nat) (step : WriteStep) : Bool :=
  step != .setMode || mode?.isSome

/-- A write that has found its goal and the location of its temporary file. -/
structure Staging where
  goal : Goal
  temporary : Location
  content : List UInt8

namespace Staging

variable (staging : Staging) (disk : Disk) (tree : FileTree)

/-- What a step makes of the temporary file. -/
def revise (mode? : Option Nat) (step : WriteStep) (file : File) : File :=
  match step with
  | .fill => { file with content := staging.content }
  | .setMode => { file with mode := mode?.getD file.mode }
  | _ => file

/-- What a step makes of the tree if it is not refused. -/
def perform : WriteStep → Except SystemError FileTree
  | .create => .ok (tree.set staging.temporary (.file ⟨newMode, [], none⟩))
  | .rename => tree.endpoint staging.goal >>= tree.move staging.temporary
  | step => .ok (tree.amend staging.temporary (staging.revise (tree.modeFor? staging.goal) step))

/-- The tree after a step, or why the step fails. -/
def attempt (step : WriteStep) : Except Error FileTree :=
  if step.isDue (tree.modeFor? staging.goal) then
    match disk.refuses? step, staging.perform tree step with
    | some error, _ => .error (step.failure error)
    | none, .error error => .error (step.failure error)
    | none, .ok after => .ok after
  else .ok tree

/-- The steps are taken one after the other. The first that fails is the last, and the temporary
file is removed. -/
def run (tree : FileTree) : List WriteStep → Except Error Unit × FileTree
  | [] => (.ok (), tree)
  | step :: rest =>
      match staging.attempt disk tree step with
      | .ok after => run after rest
      | .error error => (.error error, tree.remove staging.temporary)

end Staging

/-- The content of the file that a path leads to is replaced. The file keeps its mode, and the
links that lead to it stay. If the path leads nowhere, a new file takes the place that the path
itself names. -/
def FileTree.write (tree : FileTree) (disk : Disk) (path : Path) (content : List UInt8) :
    Except Error Unit × FileTree :=
  match tree.goal path with
  | .error cause => (.error (.io cause), tree)
  | .ok goal =>
      match disk.refuses? .resolve with
      | some error => (.error (WriteStep.failure .resolve error), tree)
      | none =>
          match tree.temporary goal disk.names with
          | .error cause => (.error (.temporaryFile cause), tree)
          | .ok temporary =>
              Staging.run ⟨goal, temporary, content⟩ disk tree WriteStep.staged

end RunSigning
