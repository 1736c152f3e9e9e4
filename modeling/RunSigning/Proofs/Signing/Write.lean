import RunSigning.Proofs.FileTree.Write
import RunSigning.Signing.Sign

/-
This file says what signing writes. A file that takes the place of a file changes no way through
the tree, so the config is the only entry that a signing may change, and it changes only if the
signing says so. A write that fails is taken back, wherever it fails.
-/

namespace RunSigning

/-- Two file trees differ at most in their files, which stand at the same locations. -/
structure FileTree.Alike (tree other : FileTree) : Prop where
  current_eq : other.current = tree.current
  entries : ∀ location, other.get? location = tree.get? location ∨
    ∃ file changed, tree.get? location = some (.file file) ∧
      other.get? location = some (.file changed)

namespace FileTree

variable {tree other : FileTree}

/-- A file may be put in the place of a file. -/
theorem alike_set {location : Location} {file : File}
    (held : tree.get? location = some (.file file)) (changed : File) :
    tree.Alike (tree.set location (.file changed)) where
  current_eq := rfl
  entries := by
    intro place
    rw [get?_set tree place _ (ne_nil_of_file held)]
    split
    · rename_i here
      exact .inr ⟨file, changed, here ▸ held, rfl⟩
    · exact .inl rfl

theorem Alike.directory_iff (alike : tree.Alike other) (location : Location) :
    other.get? location = some .directory ↔ tree.get? location = some .directory := by
  rcases alike.entries location with same | ⟨file, changed, held, held'⟩
  · rw [same]
  · simp [held, held']

/-- A walk does not look into files. -/
theorem Alike.walkNames_eq (alike : tree.Alike other)
    {follow : Location → List String → Except SystemError Place} (location : Location)
    (names : List String) :
    other.walkNames follow location names = tree.walkNames follow location names := by
  induction names generalizing location with
  | nil => rfl
  | cons name rest ih =>
      rw [walkNames, walkNames]
      simp only [ne_eq, alike.directory_iff, ih]
      rcases alike.entries (location ++ [name]) with same | ⟨file, changed, held, held'⟩
      · rw [same]
      · rw [held, held']

theorem Alike.walk_eq (alike : tree.Alike other) (links : Nat) :
    other.walk links = tree.walk links := by
  induction links with
  | zero =>
      funext location names
      exact alike.walkNames_eq location names
  | succ links ih =>
      funext location names
      rw [walk, walk, ih]
      exact alike.walkNames_eq location names

/-- A path leads to the same place in trees that differ in their files only. -/
theorem Alike.trace_eq (alike : tree.Alike other) (path : Path) :
    other.trace path = tree.trace path := by
  simp only [trace, locate, origin, alike.walk_eq, alike.current_eq]

theorem Alike.resolve_eq (alike : tree.Alike other) (path : Path) :
    other.resolve path = tree.resolve path := by
  rw [resolve, resolve, alike.trace_eq]

/-- What a file tree says about a path that can be loaded. -/
theorem exists_file_of_load {path : Path} {document : Document}
    (success : tree.load path = .ok document) :
    ∃ location file, tree.resolve path = .ok location ∧ tree.trace path = .ok location ∧
      tree.get? location = some (.file file) ∧ file.mayRead = true ∧
      Document.ofBytes file.content = .ok document := by
  rw [load] at success
  split at success
  · cases success
  · cases success
  · rename_i bytes readable
    rw [read] at readable
    split at readable
    · cases readable
    · rename_i location resolved
      split at readable
      · rename_i file held
        split at readable
        · rename_i mayRead
          obtain rfl := Except.ok.inj readable
          split at success
          · rename_i document' spelled
            obtain rfl := Except.ok.inj success
            have traced := resolved
            rw [resolve] at traced
            split at traced
            · cases traced
            · exact ⟨location, file, resolved, traced, held, mayRead, spelled⟩
          · cases success
        · cases readable
      · cases readable
      · cases readable

/-- A document that takes the place of the config can be read from there. -/
theorem read_set {path : Path} {loaded : Document} {location : Location} {file : File}
    (loads : tree.load path = .ok loaded) (traced : tree.trace path = .ok location)
    (held : tree.get? location = some (.file file)) (content : List UInt8) :
    (tree.set location (.file ⟨file.mode, content, none⟩)).read path = .ok content := by
  obtain ⟨location', file', resolved, traced', held', mayRead, -⟩ := exists_file_of_load loads
  obtain rfl := Except.ok.inj (traced.symm.trans traced')
  obtain rfl := Entry.file.inj (Option.some.inj (held.symm.trans held'))
  have proper := ne_nil_of_file held
  have same := (alike_set held ⟨file.mode, content, none⟩).resolve_eq path
  have readable : File.mayRead ⟨file.mode, content, none⟩ = true := mayRead
  rw [read, same, resolved]
  dsimp only
  rw [get?_set _ _ _ proper, if_pos rfl]
  dsimp only
  rw [if_pos readable]

/-- A config that can be loaded is replaced in its place, or nothing changes. -/
theorem exists_save_of_load {path : Path} {loaded : Document}
    (loads : tree.load path = .ok loaded) (disk : Disk) (changed : Document) :
    ∃ location file, tree.trace path = .ok location ∧ tree.get? location = some (.file file) ∧
      tree.save disk path changed =
        match tree.obstacle? disk location with
        | some error => (.error error, tree)
        | none => (.ok (), tree.set location (.file ⟨file.mode, changed.bytes, none⟩)) := by
  obtain ⟨location, file, -, traced, held, -⟩ := exists_file_of_load loads
  exact ⟨location, file, traced, held, write_of_file traced held changed.bytes⟩

end FileTree

/-- What a signing did to the file tree: nothing, or it wrote a document into the config that it
could load. -/
inductive SignContext.Effect (tree : FileTree) (config : Path) : Signing → Prop where
  | unchanged {signing : Signing} (kept : signing.tree = tree)
      (unwritten : ∀ binary previous? signature document,
        signing.result ≠ .ok (.signed binary previous? signature document true)) :
      Effect tree config signing
  | written {signing : Signing} {binary signature : String} {previous? : Option String}
      {document loaded : Document} {location : Location} {file : File}
      (loads : tree.load config = .ok loaded) (traced : tree.trace config = .ok location)
      (held : tree.get? location = some (.file file))
      (signed : signing.result = .ok (.signed binary previous? signature document true))
      (changed : signing.tree = tree.set location (.file ⟨file.mode, document.bytes, none⟩)) :
      Effect tree config signing

namespace SignContext

variable (context : SignContext) (tree : FileTree) (disk : Disk) (runDirectory : Path)

/-- Recording writes the config that was loaded, or nothing. -/
theorem effect_record {document : Document}
    (loads : tree.load (Layout.config runDirectory) = .ok document) (declaration : Declaration)
    (binary signature : String) (calls : List (Path × Path)) (events : List Event) :
    Effect tree (Layout.config runDirectory) (context.record tree disk
      (Layout.config runDirectory) document declaration binary signature calls events) := by
  rw [record]
  split
  · exact .unchanged rfl (by simp)
  · rename_i changed recorded
    split
    · exact .unchanged rfl (by simp)
    · obtain ⟨location, file, traced, held, saved⟩ :=
        FileTree.exists_save_of_load loads disk changed
      rw [saved]
      cases tree.obstacle? disk location with
      | some error => exact .unchanged rfl (by simp)
      | none => exact .written loads traced held rfl rfl

theorem effect_ask {document : Document}
    (loads : tree.load (Layout.config runDirectory) = .ok document) (declaration : Declaration)
    (binary : String) :
    Effect tree (Layout.config runDirectory)
      (context.ask tree disk runDirectory document declaration binary) := by
  rw [ask]
  split
  · exact .unchanged rfl (by simp)
  · exact effect_record context tree disk runDirectory loads _ _ _ _ _

/-- Every signing writes the config or nothing. -/
theorem effect_sign (binary : String) :
    Effect tree (Layout.config runDirectory) (context.sign tree disk runDirectory binary) := by
  rw [sign]
  split
  · exact .unchanged rfl (by simp)
  · split
    · exact .unchanged rfl (by simp)
    · rename_i document loads
      split
      · exact effect_ask context tree disk runDirectory loads _ _
      · split
        · exact .unchanged rfl (by simp)
        · exact .unchanged rfl (by simp)

/-- A signing that does not say that it wrote leaves the file tree as it was, also if it fails in
the middle of the write. One that says so has changed the content of a single file, the one that
the path of the config leads to through all links: it holds the text of the document that is
returned, its mode is the old one, and the path leads to it as before. -/
theorem sign_tree (binary : String) :
    let signing := context.sign tree disk runDirectory binary
    ((∀ name previous? signature document,
        signing.result ≠ .ok (.signed name previous? signature document true)) →
      signing.tree = tree) ∧
    ∀ name previous? signature document,
      signing.result = .ok (.signed name previous? signature document true) →
        ∃ location file changed, tree.trace (Layout.config runDirectory) = .ok location ∧
          tree.get? location = some (.file file) ∧
          signing.tree.get? location = some (.file changed) ∧
          changed.content = document.bytes ∧ changed.mode = file.mode ∧
          (∀ other, other ≠ location → signing.tree.get? other = tree.get? other) ∧
          signing.tree.current = tree.current ∧
          signing.tree.trace (Layout.config runDirectory) = .ok location := by
  dsimp only
  cases context.effect_sign tree disk runDirectory binary with
  | unchanged kept unwritten =>
      refine ⟨fun _ => kept, ?_⟩
      intro name previous? signature document signed
      exact absurd signed (unwritten _ _ _ _)
  | @written _ _ _ document' loaded location file loads traced held signed changed =>
      refine ⟨fun unwritten => absurd signed (unwritten _ _ _ _), ?_⟩
      intro name previous? signature document signed'
      rw [signed] at signed'
      cases signed'
      have proper := FileTree.ne_nil_of_file held
      refine ⟨location, file, ⟨file.mode, document'.bytes, none⟩, traced, held, ?_, rfl, rfl, ?_,
        ?_, ?_⟩
      · rw [changed, FileTree.get?_set _ _ _ proper, if_pos rfl]
      · intro other apart
        rw [changed, FileTree.get?_set _ _ _ proper, if_neg apart]
      · rw [changed]
        rfl
      · rw [changed, (FileTree.alike_set held _).trace_eq, traced]

end SignContext

end RunSigning
