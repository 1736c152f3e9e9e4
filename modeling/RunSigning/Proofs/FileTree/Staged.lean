import RunSigning.Proofs.FileTree.Closed
import RunSigning.Proofs.FileTree.Write

/-
This file says what writes do in every file tree, whatever their path leads to. The name of the
temporary file must be mentioned nowhere; then nothing on the way is seen of the file.
-/

namespace RunSigning

/-- A name that no path in question and no link mentions. -/
structure FileTree.IsFresh (tree : FileTree) (path : Path) (name : String) : Prop where
  unnamed : name ∉ path.names
  unlinked : ∀ location target, tree.get? location = some (.link target) → name ∉ target.names

namespace FileTree

/-- Whether a name is fresh is seen from the entries. -/
theorem isFresh_of_entries {tree : FileTree} {path : Path} {name : String}
    (unnamed : name ∉ path.names)
    (others : ∀ item ∈ tree.entries,
      name ∉ (match item.2 with | .link target => target.names | _ => [])) :
    tree.IsFresh path name where
  unnamed := unnamed
  unlinked := by
    intro location target held
    have proper : location ≠ [] := by
      rintro rfl
      cases held
    exact others _ (mem_entries proper held)

/-- The place that a written file takes, and the mode that it has there: those of the file that the
path leads to, or else the place that the path itself names, if that holds nothing but a link. -/
inductive Replaced (tree : FileTree) (path : Path) : Location → Nat → Prop where
  | file {location : Location} {file : File} (traced : tree.trace path = .ok location)
      (held : tree.get? location = some (.file file)) : Replaced tree path location file.mode
  | new {location : Location} (lost : tree.trace path = .error (.system .notFound))
      (named : tree.destination path = .ok location)
      (free : tree.get? location = none ∨ ∃ target, tree.get? location = some (.link target)) :
      Replaced tree path location newMode

variable {tree : FileTree} {directory : Location} {name : String}

section Unmentioned
variable (unlinked : ∀ location target, tree.get? location = some (.link target) →
    name ∉ target.names)
  (free : tree.get? (directory ++ [name]) = none) (file : File)
include unlinked free

/-- A walk that is not about a name does not see a file of that name. -/
theorem walkNames_set {follow further : Location → List String → Except SystemError Place}
    (agree : ∀ location names, name ∉ names → further location names = follow location names)
    {location : Location} {names : List String} (unnamed : name ∉ names) :
    (tree.set (directory ++ [name]) (.file file)).walkNames further location names =
      tree.walkNames follow location names := by
  induction names generalizing location with
  | nil => rfl
  | cons next rest ih =>
      obtain ⟨other, ahead⟩ := not_or.mp (mt List.mem_cons.mpr unnamed)
      rw [walkNames, walkNames]
      have looked : (tree.set (directory ++ [name]) (.file file)).get? (location ++ [next]) =
          tree.get? (location ++ [next]) := by
        rw [get?_set _ _ _ (by simp), if_neg]
        intro same
        exact other (List.singleton_inj.mp (List.append_inj' same rfl).2).symm
      simp only [ne_eq, directory_set_iff free, looked, ih ahead]
      cases held : tree.get? (location ++ [next]) with
      | none => rfl
      | some entry =>
          cases entry with
          | directory => rfl
          | file file => rfl
          | link target =>
              have unnamed : name ∉ target.names ++ rest := by
                simp [ahead, unlinked _ _ held]
              dsimp only
              rw [agree _ _ unnamed]

theorem walk_set (links : Nat) {location : Location} {names : List String}
    (unnamed : name ∉ names) :
    (tree.set (directory ++ [name]) (.file file)).walk links location names =
      tree.walk links location names := by
  induction links generalizing location names with
  | zero => exact walkNames_set unlinked free file (fun _ _ _ => rfl) unnamed
  | succ links ih => exact walkNames_set unlinked free file (fun _ _ ahead => ih ahead) unnamed

end Unmentioned

section Fresh
variable {path : Path} (fresh : tree.IsFresh path name)
  (free : tree.get? (directory ++ [name]) = none) (file : File)
include fresh free

theorem IsFresh.trace_set :
    (tree.set (directory ++ [name]) (.file file)).trace path = tree.trace path := by
  have origin : (tree.set (directory ++ [name]) (.file file)).origin path = tree.origin path := rfl
  rw [trace, trace, locate, locate, origin, walk_set fresh.unlinked free file _ fresh.unnamed]

theorem IsFresh.destination_set :
    (tree.set (directory ++ [name]) (.file file)).destination path = tree.destination path := by
  have origin : (tree.set (directory ++ [name]) (.file file)).origin path = tree.origin path := rfl
  rw [destination, destination, origin]
  split
  · rfl
  split
  · rfl
  rename_i last before stripped
  have unnamed : name ∉ before.reverse := by
    intro member
    have kept : name ∈ path.names.reverse.dropWhile (· == "") := by
      rw [stripped]
      exact List.mem_cons_of_mem _ (List.mem_reverse.mp member)
    exact fresh.unnamed (List.mem_reverse.mp ((List.dropWhile_sublist _).mem kept))
  simp only [walk_set fresh.unlinked free file _ unnamed, ne_eq, directory_set_iff free]

end Fresh

variable {disk : Disk} {path : Path}

/-- A path that leads to no file and not to nothing is no goal. -/
theorem goal_of_error {cause : IoError} (failed : tree.trace path = .error cause)
    (other : cause ≠ .system .notFound) : tree.goal path = .error cause := by
  rw [goal, failed]
  split
  · rename_i impossible
    cases impossible
  · rename_i same
    exact absurd (Except.error.inj same) other
  · rename_i same
    rw [Except.error.inj same]

variable (disk) in
/-- A write with a goal fails before it changes anything, or it takes its steps. -/
theorem write_of_goal {goal : Goal} (aimed : tree.goal path = .ok goal) (content : List UInt8) :
    (∃ error, tree.write disk path content = (.error error, tree)) ∨
    ∃ temporary, tree.temporary goal disk.names = .ok temporary ∧
      tree.write disk path content =
        Staging.run ⟨goal, temporary, content⟩ disk tree WriteStep.staged := by
  rw [write, aimed]
  dsimp only
  cases disk.refuses? .resolve with
  | some error => exact .inl ⟨_, rfl⟩
  | none =>
      cases found : tree.temporary goal disk.names with
      | error cause => exact .inl ⟨_, rfl⟩
      | ok temporary => exact .inr ⟨temporary, rfl, rfl⟩

/-- A directory is not replaced. -/
theorem write_of_directory {location : Location} (traced : tree.trace path = .ok location)
    (inside : tree.get? location = some .directory) (content : List UInt8) :
    ∃ error, tree.write disk path content = (.error error, tree) := by
  cases aimed : tree.goal path with
  | error cause => exact ⟨.io cause, by rw [write, aimed]⟩
  | ok goal =>
      have located : goal = .location location := by
        rw [FileTree.goal, traced] at aimed
        dsimp only at aimed
        split at aimed
        · cases aimed
        · exact (Except.ok.inj aimed).symm
      subst located
      rcases write_of_goal disk aimed content with failed | ⟨temporary, found, steps⟩
      · exact failed
      obtain ⟨free, -⟩ := exists_of_temporary found
      have taken (file : File) : (tree.set temporary (.file file)).modeFor? (.location location) =
          some newMode := by
        rw [modeFor?, (directory_set_iff free file location).mpr inside]
        rfl
      rw [steps, Staging.run_staged ⟨.location location, temporary, content⟩ free
        taken fun _ => rfl]
      dsimp only [endpoint, bind, Except.bind]
      rw [move_set_directory free _ inside]
      cases WriteStep.staged.findSome? (disk.refusal? (some newMode)) with
      | some error => exact ⟨error, rfl⟩
      | none => exact ⟨_, rfl⟩

/-- Where a path leads nowhere, a new file takes the place that the path names, or nothing
changes. -/
theorem write_of_lost (fresh : ∀ name ∈ disk.names, tree.IsFresh path name.text)
    (lost : tree.trace path = .error (.system .notFound)) (content : List UInt8) :
    (∃ error, tree.write disk path content = (.error error, tree)) ∨
    ∃ location, tree.Replaced path location newMode ∧
      tree.write disk path content =
        (.ok (), tree.set location (.file ⟨newMode, content, none⟩)) := by
  have aimed : tree.goal path = .ok (.path path) := by rw [goal, lost]
  rcases write_of_goal disk aimed content with failed | ⟨temporary, found, steps⟩
  · exact .inl failed
  obtain ⟨free, directory, -, name, member, rfl⟩ := exists_of_temporary found
  have unseen := fresh name member
  -- With the temporary file the path still leads nowhere, and it names the same place.
  have taken (file : File) : (tree.set (directory ++ [name.text]) (.file file)).modeFor?
      (.path path) = none := by
    rw [modeFor?, resolve, unseen.trace_set free, lost]
    split
    · rename_i impossible
      split at impossible <;> cases impossible
    · rfl
  rw [steps, Staging.run_staged ⟨.path path, _, content⟩ free taken
    fun file => unseen.destination_set free file]
  dsimp only [endpoint]
  cases named : tree.destination path with
  | error error =>
      dsimp only [bind, Except.bind]
      cases WriteStep.staged.findSome? (disk.refusal? none) with
      | some error => exact .inl ⟨error, rfl⟩
      | none => exact .inl ⟨_, rfl⟩
  | ok location =>
      obtain ⟨place⟩ := nonempty_newPlace lost named
      have solid : tree.get? location ≠ some .directory := by
        rcases place.free_or_link with vacant | ⟨target, link⟩
        · simp [vacant]
        · simp [link]
      dsimp only [bind, Except.bind]
      rw [move_set free _ place.location_ne_nil (place.location_ne unseen.unnamed _) solid]
      cases WriteStep.staged.findSome? (disk.refusal? none) with
      | some error => exact .inl ⟨error, rfl⟩
      | none => exact .inr ⟨location, .new lost named place.free_or_link, rfl⟩

/-- A write changes one entry, or it fails and changes nothing. -/
theorem write_cases (closed : tree.IsClosed)
    (fresh : ∀ name ∈ disk.names, tree.IsFresh path name.text) (content : List UInt8) :
    (∃ error, tree.write disk path content = (.error error, tree)) ∨
    ∃ location mode, tree.Replaced path location mode ∧
      tree.write disk path content =
        (.ok (), tree.set location (.file ⟨mode, content, none⟩)) := by
  cases traced : tree.trace path with
  | error cause =>
      by_cases lost : cause = .system .notFound
      · subst lost
        rcases write_of_lost fresh traced content with failed | ⟨location, replaced, success⟩
        · exact .inl failed
        · exact .inr ⟨location, newMode, replaced, success⟩
      · exact .inl ⟨.io cause, by rw [write, goal_of_error traced lost]⟩
  | ok location =>
      obtain ⟨entry, held, solid⟩ := exists_solid_of_trace closed traced
      cases entry with
      | link target => exact absurd rfl (solid target)
      | directory => exact .inl (write_of_directory traced held content)
      | file file =>
          rw [write_of_file traced held]
          cases tree.obstacle? disk location with
          | some error => exact .inl ⟨error, rfl⟩
          | none => exact .inr ⟨location, file.mode, .file traced held, rfl⟩

end FileTree

end RunSigning
