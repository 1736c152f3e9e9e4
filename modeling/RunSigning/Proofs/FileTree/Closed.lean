import RunSigning.FileTree.Standard
import RunSigning.Proofs.FileTree.Names
import RunSigning.Proofs.FileTree.NewPlace

/-
This file shows that entries stand in directories. This holds of every file tree that is put
together, and it goes on to hold whatever is put, saved or deleted.
-/

namespace RunSigning

/-- Entries stand in directories. -/
def FileTree.IsClosed (tree : FileTree) : Prop :=
  ∀ location name entry, tree.get? (location ++ [name]) = some entry →
    tree.get? location = some .directory

namespace FileTree

variable {tree : FileTree}

theorem mem_entries {location : Location} {entry : Entry} (proper : location ≠ [])
    (held : tree.get? location = some entry) : (location, entry) ∈ tree.entries := by
  rw [get?, if_neg proper, List.lookup_eq_some_iff] at held
  obtain ⟨before, after, split, -⟩ := held
  simp [split]

/-- Whether a tree is closed is seen from its entries. -/
theorem isClosed_of_entries
    (inside : ∀ item ∈ tree.entries, tree.get? item.1.dropLast = some .directory) :
    tree.IsClosed := by
  intro location name entry held
  have parent := inside _ (mem_entries (by simp) held)
  rwa [List.dropLast_concat] at parent

/-- A step of a walk ends at a directory or at a file. -/
theorem Step.exists_solid {first second : Walker} (closed : tree.IsClosed)
    (step : tree.Step first second) : ∃ entry, tree.get? second.location = some entry ∧
      ∀ target, entry ≠ .link target := by
  cases step with
  | stay inside idle => exact ⟨_, inside, by simp⟩
  | @leave links location rest inside =>
      refine ⟨.directory, ?_, by simp⟩
      rcases List.eq_nil_or_concat location with rfl | ⟨parent, last, rfl⟩
      · exact inside
      · rw [List.concat_eq_append] at inside ⊢
        rw [List.dropLast_concat]
        exact closed parent last _ inside
  | enter inside proper held solid => exact ⟨_, held, solid⟩
  | @follow links location name rest target inside proper held =>
      refine ⟨.directory, ?_, by simp⟩
      dsimp only
      rw [Path.base]
      split
      · rfl
      · exact inside

theorem walk_of_locate {path : Path} {place : Place} (located : tree.locate path = .ok place) :
    tree.walk linkLimit (tree.origin path) path.names = .ok place := by
  rw [locate] at located
  split at located
  · cases located
  split at located
  · cases located
  split at located
  · rename_i walked
    rw [walked, Except.ok.inj located]
  · cases located

/-- A path leads to a directory or to a file. -/
theorem exists_solid_of_trace {path : Path} {location : Location} (closed : tree.IsClosed)
    (traced : tree.trace path = .ok location) :
    ∃ entry, tree.get? location = some entry ∧ ∀ target, entry ≠ .link target := by
  rw [trace] at traced
  split at traced
  · rename_i found
    obtain rfl := Except.ok.inj traced
    obtain ⟨left, passes⟩ := exists_passes (walk_of_locate found)
    rcases Relation.ReflTransGen.cases_tail passes with same | ⟨before, -, step⟩
    · have names : [] = path.names := congrArg Walker.names same
      exact absurd names.symm path.names_ne_nil
    · exact step.exists_solid closed
  · cases traced
  · cases traced

theorem get?_remove {location : Location} (proper : location ≠ []) (other : Location) :
    (tree.remove location).get? other = if other = location then none else tree.get? other := by
  have lookup (entries : List (Location × Entry)) :
      (entries.filter fun item => item.1 != location).lookup other =
        if other = location then none else entries.lookup other := by
    induction entries with
    | nil => simp
    | cons item rest ih =>
        obtain ⟨place, entry⟩ := item
        by_cases here : place = location
        · subst here
          by_cases same : other = place
          · simpa [same] using ih
          · have differs : (other == place) = false := by simp [same]
            simpa [same, List.lookup_cons, differs] using ih
        · by_cases same : other = place
          · subst same
            simp [here]
          · have differs : (other == place) = false := by simp [same]
            simpa [here, List.lookup_cons, differs] using ih
  rw [get?, get?, remove, lookup]
  by_cases root : other = []
  · subst root
    simp [Ne.symm proper]
  · simp [root]

namespace IsClosed

variable (closed : tree.IsClosed)
include closed

/-- An entry may be put in a directory, in the place of anything but a directory. -/
theorem set {directory : Location} {name : String}
    (inside : tree.get? directory = some .directory)
    (leaf : tree.get? (directory ++ [name]) ≠ some .directory) (entry : Entry) :
    (tree.set (directory ++ [name]) entry).IsClosed := by
  -- No directory is replaced, so what stood in one still does.
  have kept {location : Location} (held : tree.get? location = some .directory) :
      (tree.set (directory ++ [name]) entry).get? location = some .directory := by
    rw [get?_set _ _ _ (by simp), if_neg, held]
    rintro rfl
    exact leaf held
  intro location last other held
  rw [get?_set _ _ _ (by simp)] at held
  split at held
  · rename_i here
    obtain ⟨rfl, -⟩ := List.append_inj' here rfl
    exact kept inside
  · exact kept (closed location last other held)

/-- An entry may take the place of a file or a link. -/
theorem set_of_held {location : Location} {old : Entry} (held : tree.get? location = some old)
    (leaf : old ≠ .directory) (entry : Entry) : (tree.set location entry).IsClosed := by
  rcases List.eq_nil_or_concat location with rfl | ⟨directory, name, rfl⟩
  · exact absurd (Option.some.inj held).symm leaf
  · rw [List.concat_eq_append] at held ⊢
    refine closed.set (closed directory name old held) ?_ entry
    rw [held]
    simpa using leaf

/-- Anything but a directory may be removed. -/
theorem remove {location : Location} (leaf : tree.get? location ≠ some .directory) :
    (tree.remove location).IsClosed := by
  have proper : location ≠ [] := by
    rintro rfl
    exact leaf rfl
  intro place last other held
  rw [get?_remove proper] at held ⊢
  split at held
  · cases held
  · have inside := closed place last other held
    rw [if_neg, inside]
    rintro rfl
    exact leaf inside

theorem makeDirectories {location : Location} {names : List String} {made : FileTree}
    (success : tree.makeDirectories location names = .ok made) : made.IsClosed := by
  induction names generalizing tree location with
  | nil =>
      obtain rfl := Except.ok.inj success
      exact closed
  | cons name rest ih =>
      rw [FileTree.makeDirectories] at success
      split at success
      · cases success
      · split at success
        · exact ih closed success
        · cases success
      · rename_i next walked
        split at success
        · rename_i here
          obtain ⟨last, -, arrived⟩ := exists_arrived walked
          cases arrived with
          | vacant inside free => exact ih (closed.set inside (by simp [free]) _) success
        · cases success

theorem putFile {path : Path} {file : File} {after : FileTree}
    (success : tree.putFile path file = .ok after) : after.IsClosed := by
  rw [FileTree.putFile] at success
  split at success
  · cases success
  · rename_i location located
    obtain rfl := Except.ok.inj success
    obtain ⟨last, -, arrived⟩ := exists_arrived (walk_of_locate located)
    cases arrived with
    | vacant inside free => exact closed.set inside (by simp [free]) _
  · rename_i location located
    split at success
    · rename_i old held
      split at success
      · obtain rfl := Except.ok.inj success
        exact closed.set_of_held held (by simp) _
      · cases success
    · cases success

theorem putLink {path target : Path} {after : FileTree}
    (success : tree.putLink path target = .ok after) : after.IsClosed := by
  rw [FileTree.putLink] at success
  split at success
  · cases success
  rename_i location named
  obtain ⟨directory, last, -, rfl, -, -, -, -, -, inside⟩ := exists_of_destination named
  split at success
  · cases success
  rename_i free
  split at success
  · cases success
  split at success
  · cases success
  obtain rfl := Except.ok.inj success
  refine closed.set inside ?_ _
  intro held
  simp [held] at free

/-- Whatever is put into a file tree stands in a directory. -/
theorem put {path : Path} {entry : Entry} {after : FileTree}
    (success : tree.put path entry = .ok after) : after.IsClosed := by
  rw [FileTree.put] at success
  split at success
  · cases success
  split at success
  · cases success
  split at success
  · cases success
  rename_i ready made
  have prepared := closed.makeDirectories made
  cases entry with
  | directory =>
      obtain rfl := Except.ok.inj success
      exact prepared
  | file file => exact prepared.putFile success
  | link target => exact prepared.putLink success

theorem delete {path : Path} {after : FileTree} (success : tree.delete path = .ok after) :
    after.IsClosed := by
  rw [FileTree.delete] at success
  split at success
  · cases success
  split at success
  · cases success
  · cases success
  · rename_i entry solid held
    obtain rfl := Except.ok.inj success
    refine closed.remove fun inside => ?_
    exact solid (Option.some.inj (held.symm.trans inside))

end IsClosed

theorem IsClosed.foldlM_put {entries : List (Path × Entry)} {made : FileTree}
    (closed : tree.IsClosed)
    (success : entries.foldlM (fun tree item => tree.put item.1 item.2) tree = .ok made) :
    made.IsClosed := by
  induction entries generalizing tree with
  | nil =>
      obtain rfl := Except.ok.inj success
      exact closed
  | cons item rest ih =>
      rw [List.foldlM_cons] at success
      cases placed : tree.put item.1 item.2 with
      | error cause =>
          rw [placed] at success
          cases success
      | ok next =>
          rw [placed] at success
          exact ih (closed.put placed) success

/-- Every file tree that is put together is closed. -/
theorem isClosed_ofEntries {entries : List (Path × Entry)} {made : FileTree}
    (success : ofEntries entries = .ok made) : made.IsClosed :=
  IsClosed.foldlM_put (isClosed_of_entries (by decide)) success

end FileTree

end RunSigning
