import RunSigning.FileTree.Store

/-
This file gives the file tree of a system with a few standard programs and an empty working
directory.
-/

namespace RunSigning

/-- A program that is run as it stands. -/
def Program.toBinary (program : Program) : Entry :=
  .file ⟨0o755, encodeString "\x7fELF", some program⟩

/-- A program that is run by the shell. -/
def Program.toScript (program : Program) : Entry :=
  .file ⟨0o755, encodeString "#!/bin/sh\n", some program⟩

def FileTree.standard : FileTree where
  current := ["home", "user", "work"]
  entries :=
    [(["home"], .directory), (["home", "user"], .directory),
      (["home", "user", "work"], .directory), (["tmp"], .directory), (["etc"], .directory),
      (["etc", "passwd"], .file ⟨0o644, [], none⟩),
      (["usr"], .directory), (["usr", "bin"], .directory), (["bin"], .link ⟨"usr/bin"⟩),
      (["usr", "bin", "echo"], Program.echo.toBinary),
      (["usr", "bin", "true"], Program.succeed.toBinary),
      (["usr", "bin", "false"], Program.fail.toBinary),
      (["usr", "bin", "sh"], Program.fail.toBinary)]

/-- The standard file tree with more entries, if each of them can be put. -/
def FileTree.ofEntries (entries : List (Path × Entry)) : Except IoError FileTree :=
  entries.foldlM (fun tree item => tree.put item.1 item.2) FileTree.standard

/-- The file tree with another program as the shell. -/
def FileTree.withShell (tree : FileTree) (program : Program) : FileTree :=
  tree.set ["usr", "bin", "sh"] program.toBinary

end RunSigning
