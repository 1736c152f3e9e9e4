import RunSigning.Proofs.FileTree.Staged
import RunSigning.Proofs.Signing.Run

/-
This file says what saving a document does to a file tree, and when the document can be loaded
again by the path that it was saved by.
-/

namespace RunSigning
open RunSigning.Text

namespace FileTree

variable {tree after : FileTree} {disk : Disk} {path : Path}

theorem Replaced.location_ne_nil {location : Location} {mode : Nat}
    (replaced : tree.Replaced path location mode) : location ≠ [] := by
  cases replaced with
  | file traced held => exact ne_nil_of_file held
  | new lost named free => exact (nonempty_newPlace lost named).some.location_ne_nil

/-- The path leads to what was written. -/
theorem Replaced.trace_set {location : Location} {mode : Nat}
    (replaced : tree.Replaced path location mode) (file : File) :
    (tree.set location (.file file)).trace path = .ok location := by
  have proper := replaced.location_ne_nil
  cases replaced with
  | file traced held => rw [(alike_set held file).trace_eq, traced]
  | new lost named free =>
      obtain ⟨place⟩ := nonempty_newPlace lost named
      have held : (tree.set location (.file file)).get? location = some (.file file) := by
        rw [get?_set _ _ _ proper, if_pos rfl]
      refine place.trace_eq rfl (fun other apart => ?_) held
      rw [get?_set _ _ _ proper, if_neg apart]

/-- A document that is saved is the content of one changed entry. -/
theorem exists_replaced (closed : tree.IsClosed)
    (fresh : ∀ name ∈ disk.names, tree.IsFresh path name.text) {document : Document}
    (success : tree.save disk path document = (.ok (), after)) :
    ∃ location mode, tree.Replaced path location mode ∧
      after = tree.set location (.file ⟨mode, document.bytes, none⟩) := by
  rw [save] at success
  rcases write_cases closed fresh document.bytes with
    ⟨error, failed⟩ | ⟨location, mode, replaced, written⟩
  · rw [failed] at success
    cases success
  · rw [written] at success
    exact ⟨location, mode, replaced, (Prod.mk.inj success).2.symm⟩

/-- What is saved stands in a directory. -/
theorem IsClosed.save (closed : tree.IsClosed)
    (fresh : ∀ name ∈ disk.names, tree.IsFresh path name.text) {document : Document}
    (success : tree.save disk path document = (.ok (), after)) : after.IsClosed := by
  obtain ⟨location, mode, replaced, rfl⟩ := exists_replaced closed fresh success
  cases replaced with
  | file traced held => exact closed.set_of_held held (by simp) _
  | new lost named free =>
      obtain ⟨place⟩ := nonempty_newPlace lost named
      rw [place.location_eq] at free ⊢
      refine closed.set place.inside (fun held => ?_) _
      rw [held] at free
      simp at free

/-- The owner of a new file may read it. -/
theorem mayRead_new (content : List UInt8) : File.mayRead ⟨newMode, content, none⟩ = true := by
  simp [File.mayRead, newMode]

/-- A path that leads to an entry has no null character. -/
theorem hasNul_of_trace {location : Location} (traced : tree.trace path = .ok location) :
    path.hasNul = false := by
  by_cases nul : path.hasNul = true
  · rw [trace, locate, if_pos nul] at traced
    cases traced
  · exact Bool.not_eq_true _ ▸ nul

/-- A document that stands where a path leads is loaded if the path is not too long and the file
may be read. -/
theorem load_iff {location : Location} {file : File} {document : Document}
    (traced : tree.trace path = .ok location) (held : tree.get? location = some (.file file))
    (written : file.content = document.bytes) :
    tree.load path = .ok document ↔ path.isTooLong = false ∧ file.mayRead = true := by
  constructor
  · intro loads
    obtain ⟨location', file', resolved, traced', held', mayRead, -⟩ := exists_file_of_load loads
    obtain rfl := Except.ok.inj (traced.symm.trans traced')
    obtain rfl := Entry.file.inj (Option.some.inj (held.symm.trans held'))
    rw [resolve, hasNul_of_trace traced, Bool.not_false, Bool.and_true] at resolved
    split at resolved
    · cases resolved
    · rename_i short
      exact ⟨Bool.not_eq_true _ ▸ short, mayRead⟩
  · rintro ⟨short, mayRead⟩
    have readable : tree.read path = .ok file.content := by
      rw [read, resolve, short, Bool.false_and, if_neg (by simp), traced]
      dsimp only
      rw [held]
      dsimp only
      rw [if_pos mayRead]
    rw [load, readable, written]
    dsimp only
    rw [document.ofBytes_bytes]

/-- Saving a document either fails, at whatever step, and leaves the tree as it was, without a
temporary file, or it changes one entry. That one becomes a file that holds the text of the
document, and the path leads to it. If the path led to a file before, it is this one, with the mode
that it had. If the path led nowhere, it is a new file at the place that the path itself names,
where nothing was or a link that led nowhere. The document is loaded again by the same path if the
path is not too long to be used as a whole and the mode lets the owner read; a new file is always
loaded. -/
theorem save_load (closed : tree.IsClosed)
    (fresh : ∀ name ∈ disk.names, tree.IsFresh path name.text) (document : Document) :
    (∀ error after, tree.save disk path document = (.error error, after) → after = tree) ∧
    ∀ after, tree.save disk path document = (.ok (), after) →
      ∃ location changed, tree.Replaced path location changed.mode ∧
        after.get? location = some (.file changed) ∧ changed.content = document.bytes ∧
        (∀ other, other ≠ location → after.get? other = tree.get? other) ∧
        after.current = tree.current ∧ after.trace path = .ok location ∧
        (after.load path = .ok document ↔ path.isTooLong = false ∧ changed.mayRead = true) ∧
        (tree.trace path = .error (.system .notFound) → after.load path = .ok document) := by
  refine ⟨fun error after failed => ?_, fun after success => ?_⟩
  · rw [save] at failed
    rcases write_cases closed fresh document.bytes with
      ⟨other, unwritten⟩ | ⟨location, mode, -, written⟩
    · rw [unwritten] at failed
      exact (Prod.mk.inj failed).2.symm
    · rw [written] at failed
      cases failed
  · obtain ⟨location, mode, replaced, rfl⟩ := exists_replaced closed fresh success
    have proper := replaced.location_ne_nil
    have traced := replaced.trace_set ⟨mode, document.bytes, none⟩
    have held : (tree.set location (.file ⟨mode, document.bytes, none⟩)).get? location =
        some (.file ⟨mode, document.bytes, none⟩) := by
      rw [get?_set _ _ _ proper, if_pos rfl]
    have loads := load_iff traced held rfl
    refine ⟨location, _, replaced, held, rfl, ?_, rfl, traced, loads, ?_⟩
    · intro other apart
      rw [get?_set _ _ _ proper, if_neg apart]
    · intro lost
      refine loads.mpr ?_
      cases replaced with
      | file traced' held' =>
          rw [lost] at traced'
          cases traced'
      | new lost named free =>
          obtain ⟨place⟩ := nonempty_newPlace lost named
          exact ⟨place.short, mayRead_new document.bytes⟩

/-- A file and a link to it. -/
def linkedFile (mode : Nat) : FileTree where
  current := []
  entries := [(["f"], .file ⟨mode, [], none⟩), (["l"], .link ⟨"f"⟩)]

theorem isClosed_linkedFile (mode : Nat) : (linkedFile mode).IsClosed := by
  refine isClosed_of_entries ?_
  simp [linkedFile, get?]

/-- On a sound disk the file is replaced by every path that leads to it. -/
theorem save_linkedFile {mode : Nat} (traced : (linkedFile mode).trace path = .ok ["f"])
    (document : Document) :
    (linkedFile mode).save .standard path document =
      (.ok (), (linkedFile mode).set ["f"] (.file ⟨mode, document.bytes, none⟩)) := by
  have unobstructed : (linkedFile mode).obstacle? .standard ["f"] = none := by rfl
  rw [save, write_of_file traced (show (linkedFile mode).get? ["f"] = _ from rfl), unobstructed]

theorem save_load_linkedFile :
    (∀ name ∈ Disk.standard.names, (linkedFile 0o640).IsFresh ⟨"l"⟩ name.text) ∧
    ∃ after, (linkedFile 0o640).save .standard ⟨"l"⟩ sampleConfig = (.ok (), after) ∧
      after.load ⟨"l"⟩ = .ok sampleConfig := by
  have fresh : ∀ name ∈ Disk.standard.names, (linkedFile 0o640).IsFresh ⟨"l"⟩ name.text := by
    intro name member
    have unnamed : ∀ name ∈ Disk.standard.names, name.text ∉ Path.names ⟨"l"⟩ ∧
        name.text ∉ Path.names ⟨"f"⟩ := by decide
    refine isFresh_of_entries (unnamed name member).1 ?_
    simp [linkedFile, unnamed name member]
  have traced : (linkedFile 0o640).trace ⟨"l"⟩ = .ok ["f"] := by decide
  have success := save_linkedFile traced sampleConfig
  obtain ⟨-, saved⟩ := save_load (isClosed_linkedFile 0o640) fresh sampleConfig
  obtain ⟨location, changed, replaced, held, -, -, -, -, loads, -⟩ := saved _ success
  refine ⟨fresh, _, success, loads.mpr ⟨by decide, ?_⟩⟩
  rw [File.mayRead]
  generalize changed.mode = mode at replaced
  cases replaced with
  | file traced' held' =>
      obtain rfl := Except.ok.inj (traced.symm.trans traced')
      obtain rfl := Entry.file.inj (Option.some.inj held')
      decide
  | new lost named free =>
      rw [traced] at lost
      cases lost

/-- A path to the file `f` in the working directory, with slashes that change nothing. -/
def slashedPath (slashes : Nat) : Path :=
  ⟨String.ofList ('.' :: '/' :: (List.replicate slashes '/' ++ ['f']))⟩

theorem names_slashedPath (slashes : Nat) :
    (slashedPath slashes).names = "." :: (List.replicate slashes "" ++ ["f"]) := by
  have pieces : splitSlashes (List.replicate slashes '/' ++ ['f']) =
      List.replicate slashes [] ++ [['f']] := by
    induction slashes with
    | zero => rfl
    | succ slashes ih =>
        rw [List.replicate_succ, List.cons_append, splitSlashes, if_pos rfl, ih]
        rfl
  rw [slashedPath, Path.names, String.toList_ofList, splitSlashes, if_neg (by decide),
    splitSlashes, if_pos rfl, pieces]
  simp

theorem trace_slashedPath (slashes : Nat) {file : File}
    (inside : tree.get? tree.current = some .directory)
    (held : tree.get? (tree.current ++ ["f"]) = some (.file file)) :
    tree.trace (slashedPath slashes) = .ok (tree.current ++ ["f"]) := by
  have names : (slashedPath slashes).names = ("." :: List.replicate slashes "") ++ ["f"] :=
    names_slashedPath slashes
  have unbroken : ¬ (slashedPath slashes).hasNul = true := by
    simp [Path.hasNul, slashedPath]
  have filled : (slashedPath slashes).text ≠ "" := text_ne_empty names (by decide)
  have origin : tree.origin (slashedPath slashes) = tree.current := by
    rw [FileTree.origin, Path.isAbsolute, slashedPath, String.toList_ofList]
    rfl
  have passed : tree.Passes ⟨linkLimit, tree.current, (slashedPath slashes).names⟩
      ⟨linkLimit, tree.current, ["f"]⟩ := by
    rw [names]
    refine passes_idle inside fun name member => ?_
    rcases List.mem_cons.mp member with dot | idle
    · exact .inr dot
    · exact .inl (List.eq_of_mem_replicate idle)
  have entered : tree.Step ⟨linkLimit, tree.current, ["f"]⟩
      ⟨linkLimit, tree.current ++ ["f"], []⟩ :=
    .enter inside ⟨by decide, by decide, by decide⟩ held (by simp)
  rw [trace, locate, if_neg unbroken, if_neg filled, origin, passed.walk_eq, entered.walk_eq,
    walk_nil]

theorem isTooLong_slashedPath (slashes : Nat) :
    (slashedPath slashes).isTooLong = decide (pathLimit < slashes + 3) := by
  have length : byteLength (List.replicate slashes '/') = slashes := by
    rw [byteLength_eq_length fun c member => ?_, List.length_replicate]
    rw [List.eq_of_mem_replicate member]
    rfl
  have sum : ('.'.utf8Size + ('/'.utf8Size + (slashes + byteLength ['f']))) = slashes + 3 := by
    rw [show '.'.utf8Size = 1 from rfl, show '/'.utf8Size = 1 from rfl,
      show byteLength ['f'] = 1 from rfl]
    omega
  rw [Path.isTooLong, slashedPath, utf8ByteSize_ofList, byteLength_cons, byteLength_cons,
    byteLength_append, length, sum]

/-- A document that is saved by a path with many slashes is loaded by that path if these are not
too many and the file may be read. -/
theorem exists_save_slashedPath (mode slashes : Nat) (document : Document) :
    ∃ after, (linkedFile mode).save .standard (slashedPath slashes) document = (.ok (), after) ∧
      (after.load (slashedPath slashes) = .ok document ↔
        slashes + 3 ≤ pathLimit ∧ File.mayRead ⟨mode, [], none⟩ = true) := by
  have held : (linkedFile mode).get? ["f"] = some (.file ⟨mode, [], none⟩) := rfl
  have traced : (linkedFile mode).trace (slashedPath slashes) = .ok ["f"] :=
    trace_slashedPath slashes rfl held
  refine ⟨_, save_linkedFile traced document, ?_⟩
  let written : File := ⟨mode, document.bytes, none⟩
  have traced' := ((alike_set held written).trace_eq (slashedPath slashes)).trans traced
  rw [load_iff traced' (get?_set _ _ _ (by simp)) rfl, isTooLong_slashedPath,
    decide_eq_false_iff_not, Nat.not_lt]
  rfl

/-- A document may be saved by a path by which it is not loaded: one that is too long to be used as
a whole, or one to a file whose mode does not let its owner read. -/
theorem exists_save_unloaded :
    (∃ (tree after : FileTree) (path : Path) (document : Document), tree.IsClosed ∧
      tree.save .standard path document = (.ok (), after) ∧ path.isTooLong = true ∧
      after.load path ≠ .ok document) ∧
    ∃ (tree after : FileTree) (path : Path) (document : Document), tree.IsClosed ∧
      tree.save .standard path document = (.ok (), after) ∧ path.isTooLong = false ∧
      after.load path ≠ .ok document := by
  obtain ⟨after, success, loads⟩ := exists_save_slashedPath 0o644 4094 sampleConfig
  obtain ⟨after', success', loads'⟩ := exists_save_slashedPath 0o200 0 sampleConfig
  refine ⟨⟨_, after, _, sampleConfig, isClosed_linkedFile _, success, ?_, ?_⟩,
    ⟨_, after', _, sampleConfig, isClosed_linkedFile _, success', ?_, ?_⟩⟩
  · rw [isTooLong_slashedPath]
    decide
  · rw [ne_eq, loads]
    exact fun readable => absurd readable.1 (by decide)
  · rw [isTooLong_slashedPath]
    decide
  · rw [ne_eq, loads']
    exact fun readable => absurd readable.2 (by decide)

end FileTree

end RunSigning
