import RunSigning.Main
import RunSigning.Session
import RunSigning.Proofs.CommandLine.Report
import RunSigning.Proofs.FileTree.Saved
import RunSigning.Proofs.Recording.Again
import RunSigning.Proofs.Recording.Characters
import RunSigning.Proofs.Recording.Literal
import RunSigning.Proofs.Recording.Namespace
import RunSigning.Proofs.Recording.Own
import RunSigning.Proofs.Recording.Splice
import RunSigning.Proofs.Signing.Asked
import RunSigning.Proofs.Signing.Flags
import RunSigning.Proofs.Signing.Interleaved
import RunSigning.Proofs.Signing.Output
import RunSigning.Proofs.Text.Fault
import RunSigning.Proofs.Writing.Config
import RunSigning.Proofs.Writing.Unescape
