import RunSigning.FileTree.Resolve
import RunSigning.Interpreter

/-
This file runs programs that stand in a file tree. A program without a slash in its name is
searched for; any other one is found by its path.
-/

namespace RunSigning

/-- The file that a path leads to, if its owner may run it. -/
def FileTree.executable (tree : FileTree) (path : Path) : Except IoError File :=
  match tree.resolve path with
  | .error cause => .error cause
  | .ok location =>
      match tree.get? location with
      | some (.file file) =>
          if file.mayRun then .ok file else .error (.system .permissionDenied)
      | _ => .error (.system .permissionDenied)

/-- At most this many interpreters may be needed one for another. -/
def interpreterLimit : Nat := 5

/-- A file that begins like a text program is run if its interpreter is. That one is given its
argument and the path before the arguments. Any other file is run if it is a program. -/
def FileTree.start (tree : FileTree) (input : List UInt8) :
    Nat → Path → File → List Argument → Except IoError ProgramRun
  | interpreters, path, file, arguments =>
      match Interpreter.ofContent? file.content with
      | none =>
          match file.program? with
          | some program => .ok (program.run input arguments)
          | none => .error (.system .notExecutableFormat)
      | some interpreter =>
          match tree.executable interpreter.program with
          | .error cause => .error cause
          | .ok reader =>
              match interpreters with
              | 0 => .error (.system .linkLoop)
              | left + 1 =>
                  match file.program? with
                  | some program => .ok (program.run input arguments)
                  | none =>
                      tree.start input left interpreter.program reader
                        (interpreter.argument?.toList ++ encodeString path.text :: arguments)

/-- The most bytes of an argument. -/
def argumentLimit : Nat := 131071

/-- The run of the file that a path leads to. -/
def FileTree.execute (tree : FileTree) (input : List UInt8) (path : Path)
    (arguments : List Argument) : Except IoError ProgramRun :=
  match tree.executable path with
  | .error cause => .error cause
  | .ok file =>
      if arguments.any fun argument => argumentLimit < argument.length then
        .error (.system .argumentsTooLong)
      else tree.start input interpreterLimit path file arguments

/-- Whether a program can be given the arguments at all. -/
def mayPass (arguments : List String) : Bool :=
  (arguments.map encodeString).all fun argument =>
    !argument.contains 0 && argument.length ≤ argumentLimit

/-- Where programs are searched for. -/
def searchDirectories : List Path :=
  [⟨"/usr/local/sbin"⟩, ⟨"/usr/local/bin"⟩, ⟨"/usr/sbin"⟩, ⟨"/usr/bin"⟩, ⟨"/sbin"⟩, ⟨"/bin"⟩]

/-- The search goes on past directories without the program. One that may not be run is reported
if there is no other. -/
def FileTree.search (tree : FileTree) (input : List UInt8) (name : String)
    (arguments : List Argument) (verdict : SystemError) :
    List Path → Except IoError ProgramRun
  | [] => .error (.system verdict)
  | directory :: rest =>
      match tree.execute input (directory.join ⟨name⟩) arguments with
      | .error (.system .permissionDenied) =>
          tree.search input name arguments .permissionDenied rest
      | .error (.system .notFound) => tree.search input name arguments verdict rest
      | .error (.system .notDirectory) => tree.search input name arguments verdict rest
      | result => result

/-- The run of a program with its standard input and its arguments, or why it cannot be
started. -/
def FileTree.run (tree : FileTree) (input : List UInt8) (program : Path)
    (arguments : List String) : Except IoError ProgramRun :=
  let encoded := arguments.map encodeString
  if program.hasNul || encoded.any (·.contains 0) then .error .nulInArgument
  else if program.text = "" then .error (.system .notFound)
  else if program.text.toList.contains '/' then tree.execute input program encoded
  else tree.search input program.text encoded .notFound searchDirectories

end RunSigning
