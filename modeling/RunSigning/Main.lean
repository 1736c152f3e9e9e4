import RunSigning.CommandLine.Report
import RunSigning.FileTree.Standard

/-
The command line. The config is read from the disk and written back if it changed. This program
starts no other one: what the signer prints is read from the standard input.
-/

namespace RunSigning.CommandLine

/-- The content of a file on the disk, if it can be read. -/
def contentOnDisk? (path : Path) : IO (Option (List UInt8)) := do
  try
    let content ← IO.FS.readBinFile path.text
    return some content.toList
  catch _ => return none

/-- A program that prints fixed bytes, at the place where the signer is looked for. -/
def signerEntry (signer : Path) (printed : List UInt8) : Path × Entry :=
  let place : Path := if signer.text.toList.contains '/' then signer else ⟨"/bin/" ++ signer.text⟩
  (place, Program.toBinary ⟨[(.output, .bytes printed)], .exited 0⟩)

/-- The file tree that an invocation needs. -/
def Invocation.treeOnDisk (invocation : Invocation) : IO FileTree := do
  let config := Layout.config invocation.runDirectory
  let printed ← (← IO.getStdin).readToEnd
  let signer := signerEntry invocation.signer (encodeString printed)
  let content? ← contentOnDisk? config
  let file := content?.toList.map fun content => (config, Entry.regular newMode content)
  match FileTree.ofEntries (signer :: file) with
  | .ok tree => return tree
  | .error _ => return FileTree.standard

/-- The config is written to the disk if it is not what it was. -/
def writeBack (config : Path) (earlier later : FileTree) : IO Unit := do
  match earlier.read config, later.read config with
  | .ok old, .ok new =>
      if old != new then IO.FS.writeBinFile config.text ⟨new.toArray⟩
  | _, _ => return ()

def printReport (report : Report) : IO UInt32 := do
  for event in report.logged do
    IO.eprintln event.message
  if report.stops then IO.eprintln stopText
  if report.showsUsage then IO.print usageText
  IO.print report.output
  match report.errorText? with
  | some text => IO.eprint text
  | none => pure ()
  return UInt32.ofNat report.exitCode

/-- The command at work on the disk. -/
def runOnDisk (arguments : List String) : IO UInt32 := do
  match Request.ofArguments arguments with
  | .accepted invocation =>
      let tree ← invocation.treeOnDisk
      let outcome := report arguments .standard tree
      writeBack (Layout.config invocation.runDirectory) tree outcome.tree
      printReport outcome
  | _ => printReport (report arguments .standard FileTree.standard)

end RunSigning.CommandLine

def main (arguments : List String) : IO UInt32 := RunSigning.CommandLine.runOnDisk arguments
