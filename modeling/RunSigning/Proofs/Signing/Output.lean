import RunSigning.FileTree.Standard
import RunSigning.Proofs.FileTree.Run
import RunSigning.Proofs.Text.Repair
import RunSigning.Signing.Signer

/-
This file says what an external signer makes of the output of its program. Output that is UTF-8
is taken without its last line feed, and all other output is shown whole where it is no signature.
-/

namespace RunSigning
open RunSigning.Text RunSigning.Text.Utf8

/-- The line feed that ends the bytes, if one does. -/
def lastLineFeed (bytes : List UInt8) : List UInt8 :=
  if bytes.getLast? = some 0x0A then [0x0A] else []

/-- The bytes of a text end in a line feed exactly if the text does. -/
theorem getLast?_encode (text : List Char) :
    (encode text).getLast? = some 0x0A ↔ text.getLast? = some '\n' := by
  rcases List.eq_nil_or_concat text with rfl | ⟨front, c, rfl⟩
  · simp
  · obtain ⟨lead, bytes, ranges, encoded, -, -⟩ := exists_followers c
    have lineFeed : String.utf8EncodeChar '\n' = [0x0A] := by decide
    rw [List.concat_eq_append, encode_append, encode_cons, encode_nil, List.append_nil,
      List.getLast?_append_of_ne_nil _ String.utf8EncodeChar_ne_nil, List.getLast?_concat,
      Option.some.injEq]
    constructor
    · intro ends
      rcases List.eq_nil_or_concat bytes with rfl | ⟨middle, last, rfl⟩
      · rw [encoded, List.getLast?_singleton, Option.some.injEq] at ends
        subst ends
        exact (encode_append_inj (congrArg (· ++ []) (encoded.trans lineFeed.symm))).1
      · -- A later byte of a character continues it, and a line feed continues nothing.
        rw [List.concat_eq_append] at encoded
        have begins := isBeginning_encode c
        rw [encoded, ← List.cons_append, List.getLast?_concat, Option.some.injEq] at ends
        rw [encoded, ends] at begins
        have continues := begins.contains_follower (List.mem_append_right middle List.mem_cons_self)
        exact absurd continues (by decide)
    · rintro rfl
      rw [lineFeed, List.getLast?_singleton]

/-- Taking the line feed from a text takes it from its bytes. -/
theorem encode_dropLineFeed (text : List Char) :
    encode (dropLineFeed text) ++ lastLineFeed (encode text) = encode text := by
  rw [dropLineFeed, lastLineFeed]
  simp only [getLast?_encode]
  split
  · rename_i ends
    obtain ⟨front, rfl⟩ := List.getLast?_eq_some_iff.1 ends
    rw [List.dropLast_concat, encode_append]
    rfl
  · exact List.append_nil _

theorem Ending.isSuccess_iff {ending : Ending} : ending.isSuccess = true ↔ ending = .exited 0 :=
  beq_iff_eq

/-- Only the bytes of one text end like the output and are the output without its line feed. -/
theorem eq_of_encodeString_append {text other : String} {ending : List UInt8}
    (same : encodeString text ++ ending = encodeString other ++ ending) : text = other :=
  String.toList_inj.1 (encode_injective (List.append_cancel_right same))

namespace ProgramRun

/-- UTF-8 output without its last line feed is the signature of a run that succeeds, and is shown
of any other one. -/
theorem signature_of_wellFormed {run : ProgramRun} (wellFormed : IsWellFormed run.output) :
    ∃ printed, run.output = encodeString printed ++ lastLineFeed run.output ∧
      run.signature = if run.ending.isSuccess then .ok printed
        else .error (.signing run.ending.describe printed) := by
  obtain ⟨text, encoded⟩ := wellFormed
  refine ⟨String.ofList (dropLineFeed text), ?_, ?_⟩
  · rw [encodeString, String.toList_ofList, ← encoded, encode_dropLineFeed]
  · rw [signature, decode_eq_ok_iff.2 encoded]

/-- All other output is shown whole, however the run ends. -/
theorem signature_of_not_wellFormed {run : ProgramRun} (illFormed : ¬IsWellFormed run.output) :
    run.signature = .error (.signing (run.ending.describe ++ ", output is not valid UTF-8")
      (String.ofList (decodeLossy run.output))) := by
  rw [signature]
  cases decoded : decode run.output with
  | error fault => rfl
  | ok text => exact absurd ⟨text, decode_eq_ok_iff.1 decoded⟩ illFormed

/-- Output that is some text, with or without a line feed, is UTF-8. -/
theorem isWellFormed_of_eq {bytes : List UInt8} {text : String}
    (same : bytes = encodeString text ++ lastLineFeed bytes) : IsWellFormed bytes := by
  have lineFeed : encode ['\n'] = [0x0A] := by decide
  rw [lastLineFeed] at same
  split at same
  · exact ⟨text.toList ++ ['\n'], by rw [encode_append, lineFeed]; exact same.symm⟩
  · exact ⟨text.toList, by rw [List.append_nil] at same; exact same.symm⟩

/-- A run gives a signature exactly if it succeeds and its output is that text, with one more line
feed if the output ends in one. -/
theorem signature_eq_ok_iff {run : ProgramRun} {signature : String} :
    run.signature = .ok signature ↔ run.ending = .exited 0 ∧
      run.output = encodeString signature ++ lastLineFeed run.output := by
  rw [← Ending.isSuccess_iff]
  by_cases wellFormed : IsWellFormed run.output
  · obtain ⟨printed, output, answer⟩ := signature_of_wellFormed wellFormed
    rw [answer]
    constructor
    · intro given
      split at given
      · rename_i succeeds
        cases given
        exact ⟨succeeds, output⟩
      · cases given
    · rintro ⟨succeeds, same⟩
      rw [if_pos succeeds, eq_of_encodeString_append (output.symm.trans same)]
  · rw [signature_of_not_wellFormed wellFormed]
    constructor
    · rintro ⟨⟩
    · exact fun both => absurd (isWellFormed_of_eq both.2) wellFormed

end ProgramRun

/-- The signature of an external signer is the output of the program that its name leads to, which
is given the binary and the key last: all that the program writes, to either stream, in its order.
A run that succeeds with UTF-8 gives that text without one last line feed, and a run that fails with
it shows the same text. Output that is not UTF-8 is an error whatever the status and is shown whole:
every well-formed stretch of it is kept, and each maximal ill-formed part is one replacement
character. -/
theorem ExternalSigner.sign_output {signer : ExternalSigner} {tree : FileTree} {binary key : Path}
    {run : ProgramRun} (starts : signer.run tree binary key = .ok run) :
    (∃ program passed,
      tree.Leads signer.program
        ((signer.arguments ++ [binary.text, key.text]).map encodeString) program passed ∧
      run.writes = program.pieces.map (fun item => (item.1, item.2.print [] passed)) ∧
      run.output = (program.pieces.map fun item => item.2.print [] passed).flatten ∧
      run.ending = program.ending) ∧
    (∀ signature, (signer.inTree tree).sign binary key = .ok signature ↔
      run.ending = .exited 0 ∧
        run.output = encodeString signature ++ lastLineFeed run.output) ∧
    ((∃ signature, (signer.inTree tree).sign binary key = .ok signature) ↔
      run.ending = .exited 0 ∧ IsWellFormed run.output) ∧
    (∀ printed, run.ending = .exited 0 → run.output = encodeString printed ++ [0x0A] →
      (signer.inTree tree).sign binary key = .ok printed) ∧
    (IsWellFormed run.output → run.ending ≠ .exited 0 →
      ∃ printed, run.output = encodeString printed ++ lastLineFeed run.output ∧
        (signer.inTree tree).sign binary key = .error (.signing run.ending.describe printed)) ∧
    (¬IsWellFormed run.output → ∃ shown,
      (signer.inTree tree).sign binary key =
        .error (.signing (run.ending.describe ++ ", output is not valid UTF-8") shown) ∧
      Repaired run.output shown.toList ∧
      ∀ before kept after, kept ≠ [] → run.output = before ++ encode kept ++ after →
        shown.toList = decodeLossy before ++ kept ++ decodeLossy after) := by
  have answers : (signer.inTree tree).sign binary key = run.signature := by
    simp only [inTree, starts]
  rw [answers]
  have exact (signature : String) := @ProgramRun.signature_eq_ok_iff run signature
  refine ⟨?_, exact, ?_, ?_, ?_, ?_⟩
  · obtain ⟨program, passed, leads, rfl⟩ := FileTree.leads_of_run starts
    have writes := printPieces_nil passed program.pieces
    refine ⟨program, passed, leads, writes, ?_, rfl⟩
    rw [ProgramRun.output, List.flatMap_def, Program.run, writes, List.map_map]
    rfl
  · constructor
    · rintro ⟨signature, given⟩
      obtain ⟨succeeds, same⟩ := (exact signature).1 given
      exact ⟨succeeds, ProgramRun.isWellFormed_of_eq same⟩
    · rintro ⟨succeeds, wellFormed⟩
      obtain ⟨printed, same, -⟩ := ProgramRun.signature_of_wellFormed wellFormed
      exact ⟨printed, (exact printed).2 ⟨succeeds, same⟩⟩
  · intro printed succeeds same
    refine (exact printed).2 ⟨succeeds, ?_⟩
    rw [lastLineFeed, same, List.getLast?_concat, if_pos rfl]
  · intro wellFormed fails
    obtain ⟨printed, same, answer⟩ := ProgramRun.signature_of_wellFormed wellFormed
    rw [if_neg (fails ∘ Ending.isSuccess_iff.1)] at answer
    exact ⟨printed, same, answer⟩
  · intro illFormed
    refine ⟨_, ProgramRun.signature_of_not_wellFormed illFormed, ?_, ?_⟩
    · exact repaired_iff.2 (String.toList_ofList)
    · rintro before kept after filled same
      rw [String.toList_ofList, same, decodeLossy_stretch before filled after]

/-- This program reports to both streams, reads its input to the end and shows a line. -/
def linePrinter : Program :=
  ⟨[(.error, .bytes (encodeString "A")), (.output, .bytes (encodeString "BC")), (.output, .input),
    (.output, .bytes [0x0A])], .exited 0⟩

theorem ExternalSigner.sign_output_linePrinter :
    (⟨⟨"sh"⟩, []⟩ : ExternalSigner).run (FileTree.standard.withShell linePrinter) ⟨"b"⟩ ⟨"k"⟩ =
      .ok ⟨[(.error, encodeString "A"), (.output, encodeString "BC"), (.output, []),
        (.output, [0x0A])], .exited 0⟩ ∧
    ((⟨⟨"sh"⟩, []⟩ : ExternalSigner).inTree (FileTree.standard.withShell linePrinter)).sign
      ⟨"b"⟩ ⟨"k"⟩ = .ok "ABC" := by
  have starts : (⟨⟨"sh"⟩, []⟩ : ExternalSigner).run (FileTree.standard.withShell linePrinter)
      ⟨"b"⟩ ⟨"k"⟩ = .ok ⟨[(.error, encodeString "A"), (.output, encodeString "BC"), (.output, []),
        (.output, [0x0A])], .exited 0⟩ := by decide +kernel
  exact ⟨starts, (ExternalSigner.sign_output starts).2.2.2.1 "ABC" rfl rfl⟩

end RunSigning
