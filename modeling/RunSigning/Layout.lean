import RunSigning.Path

/-
This file names the files of a run: the config and the binaries in its directory, and the
default signer and key in the working directory.
-/

namespace RunSigning.Layout

/-- The directory in a run directory that holds the config and the binaries. -/
def genode : Path := ⟨"genode"⟩

def config (runDirectory : Path) : Path := (runDirectory.join genode).join ⟨"config"⟩

def binary (runDirectory : Path) (name : String) : Path := (runDirectory.join genode).join ⟨name⟩

def defaultSigner : Path := ⟨"bin/signfile"⟩

def defaultKey : Path := ⟨"bin/private.key"⟩

end RunSigning.Layout
