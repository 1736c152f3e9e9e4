import RunSigning.FileTree.Run

/-
This file says which program is run, and with which arguments, when a name is run in a file tree.
The name leads to a file, and the file to a program, its own or that of an interpreter.
-/

namespace RunSigning

/-- A file is started as a program with arguments. A file that begins like a text program is read by
its interpreter, which is given its argument and the path before the arguments. -/
inductive FileTree.Starts (tree : FileTree) :
    Path → File → List Argument → Program → List Argument → Prop where
  | binary {path : Path} {file : File} {arguments : List Argument} {program : Program}
      (plain : Interpreter.ofContent? file.content = none)
      (holds : file.program? = some program) :
      Starts tree path file arguments program arguments
  /-- What the interpreter makes of the file is known as a program. -/
  | script {path : Path} {file reader : File} {arguments : List Argument} {program : Program}
      {interpreter : Interpreter}
      (interpreted : Interpreter.ofContent? file.content = some interpreter)
      (allowed : tree.executable interpreter.program = .ok reader)
      (holds : file.program? = some program) :
      Starts tree path file arguments program arguments
  | reader {path : Path} {file reader : File} {arguments passed : List Argument}
      {program : Program} {interpreter : Interpreter}
      (interpreted : Interpreter.ofContent? file.content = some interpreter)
      (allowed : tree.executable interpreter.program = .ok reader)
      (unknown : file.program? = none)
      (next : Starts tree interpreter.program reader
        (interpreter.argument?.toList ++ encodeString path.text :: arguments) program passed) :
      Starts tree path file arguments program passed

/-- A path leads to a file that may be run and is started as the program. -/
def FileTree.Reaches (tree : FileTree) (path : Path) (arguments : List Argument)
    (program : Program) (passed : List Argument) : Prop :=
  ∃ file, tree.executable path = .ok file ∧ tree.Starts path file arguments program passed

/-- The search for a program goes on where it meets one of these. -/
def passedOver : List SystemError := [.permissionDenied, .notFound, .notDirectory]

/-- A name with a slash is the path of its program. Any other one leads to the first directory of
the search where there is something to run. -/
inductive FileTree.Leads (tree : FileTree) :
    Path → List Argument → Program → List Argument → Prop where
  | direct {path : Path} {arguments passed : List Argument} {program : Program}
      (slashed : '/' ∈ path.text.toList)
      (reaches : tree.Reaches path arguments program passed) :
      Leads tree path arguments program passed
  | searched {path directory : Path} {before after : List Path}
      {arguments passed : List Argument} {program : Program}
      (plain : '/' ∉ path.text.toList)
      (places : searchDirectories = before ++ directory :: after)
      (missed : ∀ earlier ∈ before, ∃ cause ∈ passedOver,
        tree.execute [] (earlier.join path) arguments = .error (.system cause))
      (reaches : tree.Reaches (directory.join path) arguments program passed) :
      Leads tree path arguments program passed

variable {tree : FileTree} {input : List UInt8} {path : Path} {run : ProgramRun}

/-- A file that is started runs as the program that it is started as. -/
theorem FileTree.starts_of_start {interpreters : Nat} {file : File} {arguments : List Argument}
    (starts : tree.start input interpreters path file arguments = .ok run) :
    ∃ program passed, tree.Starts path file arguments program passed ∧
      run = program.run input passed := by
  fun_induction FileTree.start tree input interpreters path file arguments with
  | case1 interpreters path file arguments plain program holds =>
      exact ⟨program, arguments, .binary plain holds, (Except.ok.inj starts).symm⟩
  | case5 path file arguments interpreter interpreted reader allowed left program holds =>
      exact ⟨program, arguments, .script interpreted allowed holds, (Except.ok.inj starts).symm⟩
  | case6 path file arguments interpreter interpreted reader allowed left unknown ih =>
      obtain ⟨program, passed, next, ran⟩ := ih starts
      exact ⟨program, passed, .reader interpreted allowed unknown next, ran⟩
  | case2 => cases starts
  | case3 => cases starts
  | case4 => cases starts

theorem FileTree.reaches_of_execute {arguments : List Argument}
    (starts : tree.execute input path arguments = .ok run) :
    ∃ program passed, tree.Reaches path arguments program passed ∧
      run = program.run input passed := by
  rw [execute] at starts
  split at starts
  · cases starts
  · rename_i file allowed
    split at starts
    · cases starts
    · obtain ⟨program, passed, next, ran⟩ := starts_of_start starts
      exact ⟨program, passed, ⟨file, allowed, next⟩, ran⟩

/-- A directory of a search has something to run, or it is passed over and the rest is searched. -/
theorem FileTree.execute_of_search {name : String} {arguments : List Argument}
    {verdict : SystemError} {directory : Path} {rest : List Path}
    (starts : tree.search input name arguments verdict (directory :: rest) = .ok run) :
    tree.execute input (directory.join ⟨name⟩) arguments = .ok run ∨
      (∃ cause ∈ passedOver,
        tree.execute input (directory.join ⟨name⟩) arguments = .error (.system cause)) ∧
      ∃ later, tree.search input name arguments later rest = .ok run := by
  unfold search at starts
  split at starts
  · exact .inr ⟨⟨.permissionDenied, by decide, ‹_›⟩, _, starts⟩
  · exact .inr ⟨⟨.notFound, by decide, ‹_›⟩, _, starts⟩
  · exact .inr ⟨⟨.notDirectory, by decide, ‹_›⟩, _, starts⟩
  · exact .inl starts

/-- A search ends in the first directory that it does not pass over. -/
theorem FileTree.reaches_of_search {name : String} {arguments : List Argument}
    {verdict : SystemError} {directories : List Path}
    (starts : tree.search input name arguments verdict directories = .ok run) :
    ∃ before directory after program passed, directories = before ++ directory :: after ∧
      (∀ earlier ∈ before, ∃ cause ∈ passedOver,
        tree.execute input (earlier.join ⟨name⟩) arguments = .error (.system cause)) ∧
      tree.Reaches (directory.join ⟨name⟩) arguments program passed ∧
      run = program.run input passed := by
  induction directories generalizing verdict with
  | nil => cases starts
  | cons directory rest ih =>
      obtain executed | ⟨miss, later, starts⟩ := execute_of_search starts
      · obtain ⟨program, passed, reaches, ran⟩ := reaches_of_execute executed
        exact ⟨[], directory, rest, program, passed, rfl, nofun, reaches, ran⟩
      · obtain ⟨before, place, after, program, passed, rfl, missed, reaches, ran⟩ := ih starts
        refine ⟨directory :: before, place, after, program, passed, rfl, ?_, reaches, ran⟩
        exact List.forall_mem_cons.2 ⟨miss, missed⟩

/-- What runs under a name, with nothing on its standard input, is the program that the name leads
to. -/
theorem FileTree.leads_of_run {arguments : List String}
    (starts : tree.run [] path arguments = .ok run) :
    ∃ program passed, tree.Leads path (arguments.map encodeString) program passed ∧
      run = program.run [] passed := by
  rw [FileTree.run] at starts
  split at starts
  · cases starts
  split at starts
  · cases starts
  split at starts
  · rename_i slashed
    obtain ⟨program, passed, reaches, ran⟩ := reaches_of_execute starts
    exact ⟨program, passed, .direct (List.contains_iff_mem.1 slashed) reaches, ran⟩
  · rename_i plain
    obtain ⟨before, directory, after, program, passed, places, missed, reaches, ran⟩ :=
      reaches_of_search starts
    refine ⟨program, passed, .searched ?_ places missed reaches, ran⟩
    exact fun slashed => plain (List.contains_iff_mem.2 slashed)

/-- A program that finds nothing on its standard input prints its pieces each for itself. -/
theorem printPieces_nil (arguments : List Argument) (pieces : List (Stream × OutputPiece)) :
    printPieces arguments [] pieces =
      pieces.map fun item => (item.1, item.2.print [] arguments) := by
  induction pieces with
  | nil => rfl
  | cons item rest ih =>
      have nothing : item.2.unread [] = [] := by cases item.2 <;> rfl
      rw [printPieces, nothing, ih, List.map_cons]

end RunSigning
