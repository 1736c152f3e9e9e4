import RunSigning.FileTree.Store

/-
This file says how a write ends. As long as its steps succeed, the tree differs from the first one
by the temporary file only; the first step that fails takes that file away again, and the last one
moves it to its goal.
-/

namespace RunSigning

section Entries
variable {location place : Location} {entry other : Entry} {entries : List (Location × Entry)}

theorem setEntry_setEntry :
    setEntry location other (setEntry location entry entries) =
      setEntry location other entries := by
  induction entries with
  | nil => simp [setEntry]
  | cons item rest ih =>
      obtain ⟨here, old⟩ := item
      by_cases same : here = location
      · simp [setEntry, same]
      · simp [setEntry, same, ih]

/-- Other entries stay in their order when one is left out. -/
theorem filter_setEntry_of_ne (apart : location ≠ place) :
    (setEntry location entry entries).filter (fun item => item.1 != place) =
      setEntry location entry (entries.filter fun item => item.1 != place) := by
  induction entries with
  | nil => simp [setEntry, apart]
  | cons item rest ih =>
      obtain ⟨here, old⟩ := item
      by_cases same : here = location
      · subst same
        simp [setEntry, apart]
      · by_cases left : here = place
        · subst left
          simp [setEntry, same, ih]
        · simp [setEntry, same, left, ih]

/-- Entries that are not at a location stay. -/
theorem filter_of_free (free : entries.lookup location = none) :
    entries.filter (fun item => item.1 != location) = entries := by
  rw [List.filter_eq_self]
  intro item member
  rw [List.lookup_eq_none_iff] at free
  have apart := free item member
  simp only [bne_iff_ne, ne_eq]
  rintro rfl
  simp at apart

/-- A new entry can be left out again. -/
theorem filter_setEntry_of_free (free : entries.lookup location = none) :
    (setEntry location entry entries).filter (fun item => item.1 != location) = entries := by
  induction entries with
  | nil => simp [setEntry]
  | cons item rest ih =>
      obtain ⟨here, old⟩ := item
      by_cases same : location = here
      · subst same
        simp at free
      · have differs : (location == here) = false := by simp [same]
        rw [List.lookup_cons, differs] at free
        simp [setEntry, Ne.symm same, ih free]

end Entries

namespace FileTree

section Places
variable {tree : FileTree} {location place : Location}

theorem ne_nil_of_file {file : File} (held : tree.get? location = some (.file file)) :
    location ≠ [] := by
  rintro rfl
  rw [get?, if_pos rfl] at held
  cases held

theorem ne_nil_of_free (free : tree.get? location = none) : location ≠ [] := by
  rintro rfl
  cases free

theorem set_set (entry other : Entry) :
    (tree.set location entry).set location other = tree.set location other := by
  rw [set, set, setEntry_setEntry, set]

theorem remove_set_of_ne (apart : location ≠ place) (entry : Entry) :
    (tree.set location entry).remove place = (tree.remove place).set location entry := by
  rw [set, remove, remove, set, filter_setEntry_of_ne apart]

theorem remove_of_free (free : tree.get? location = none) : tree.remove location = tree := by
  rw [get?, if_neg (ne_nil_of_free free)] at free
  rw [remove, filter_of_free free]

theorem remove_set_of_free (free : tree.get? location = none) (entry : Entry) :
    (tree.set location entry).remove location = tree := by
  rw [get?, if_neg (ne_nil_of_free free)] at free
  rw [set, remove, filter_setEntry_of_free free]

theorem amend_set (proper : location ≠ []) (file : File) (change : File → File) :
    (tree.set location (.file file)).amend location change =
      tree.set location (.file (change file)) := by
  rw [amend, get?_set _ _ _ proper, if_pos rfl]
  dsimp only
  rw [set_set]

/-- A new file hides no directory. -/
theorem directory_set_iff (free : tree.get? place = none) (file : File) (location : Location) :
    (tree.set place (.file file)).get? location = some .directory ↔
      tree.get? location = some .directory := by
  rw [get?_set _ _ _ (ne_nil_of_free free)]
  split
  · rename_i here
    rw [here, free]
    simp
  · rfl

/-- A new file is moved to a place where no directory is. -/
theorem move_set (free : tree.get? place = none) (file : File) (proper : location ≠ [])
    (apart : location ≠ place) (solid : tree.get? location ≠ some .directory) :
    (tree.set place (.file file)).move place location = .ok (tree.set location (.file file)) := by
  rw [move, get?_set _ _ _ (ne_nil_of_free free), if_pos rfl]
  dsimp only
  rw [if_neg apart, if_neg proper, if_neg (mt (directory_set_iff free file location).mp solid),
    remove_set_of_ne apart, remove_set_of_free free]

/-- It is not moved over a directory. -/
theorem move_set_directory (free : tree.get? place = none) (file : File)
    (inside : tree.get? location = some .directory) :
    (tree.set place (.file file)).move place location =
      .error (if location = [] then .busy else .isDirectory) := by
  have apart : location ≠ place := by
    rintro rfl
    rw [free] at inside
    cases inside
  rw [move, get?_set _ _ _ (ne_nil_of_free free), if_pos rfl]
  dsimp only
  rw [if_neg apart, if_pos ((directory_set_iff free file location).mpr inside)]
  split <;> rfl

end Places

/-- The temporary file is made under a name that is free in the directory next to the goal. -/
theorem exists_of_temporary {tree : FileTree} {goal : Goal} {names : List TemporaryName}
    {location : Location} (success : tree.temporary goal names = .ok location) :
    tree.get? location = none ∧ ∃ directory, tree.workplace goal = .ok directory ∧
      ∃ name ∈ names, location = directory ++ [name.text] := by
  induction names with
  | nil => cases success
  | cons name rest ih =>
      rw [temporary] at success
      split at success
      · cases success
      split at success
      · cases success
      · rename_i directory worked
        split at success
        · rename_i free
          obtain rfl := Except.ok.inj success
          exact ⟨free, directory, worked, name, List.mem_cons_self, rfl⟩
        · obtain ⟨free, directory', worked', other, member, named⟩ := ih success
          exact ⟨free, directory', worked', other, List.mem_cons_of_mem _ member, named⟩

end FileTree

/-- Why a step that is due is refused, if it is. -/
def Disk.refusal? (disk : Disk) (mode? : Option Nat) (step : WriteStep) : Option Error :=
  if step.isDue mode? then (disk.refuses? step).map step.failure else none

/-- A step changes the temporary file at most. -/
def WriteStep.isLocal (step : WriteStep) : Bool := step != .create && step != .rename

namespace Staging

variable {staging : Staging} {disk : Disk} {tree : FileTree} {mode? : Option Nat}

/-- A mode is taken over or kept. -/
theorem revise_of_not_due {step : WriteStep} (idle : step.isDue mode? = false) (file : File) :
    staging.revise mode? step file = file := by
  cases step with
  | setMode =>
      cases mode? with
      | none => rfl
      | some mode => cases idle
  | _ => cases idle

/-- The first step adds the temporary file. -/
theorem attempt_create : staging.attempt disk tree .create =
    match disk.refusal? mode? .create with
    | some error => .error error
    | none => .ok (tree.set staging.temporary (.file ⟨newMode, [], none⟩)) := by
  rw [attempt, Disk.refusal?]
  dsimp only [WriteStep.isDue, perform]
  cases disk.refuses? .create <;> rfl

section Steps
variable (free : tree.get? staging.temporary = none)
  (taken : ∀ file, (tree.set staging.temporary (.file file)).modeFor? staging.goal = mode?)
include free taken

/-- A local step revises the temporary file. -/
theorem attempt_local {step : WriteStep} (within : step.isLocal = true) (file : File) :
    staging.attempt disk (tree.set staging.temporary (.file file)) step =
      match disk.refusal? mode? step with
      | some error => .error error
      | none => .ok (tree.set staging.temporary (.file (staging.revise mode? step file))) := by
  have performed : staging.perform (tree.set staging.temporary (.file file)) step =
      .ok (tree.set staging.temporary (.file (staging.revise mode? step file))) := by
    rw [← FileTree.amend_set (FileTree.ne_nil_of_free free), ← taken file]
    cases step with
    | create => cases within
    | rename => cases within
    | _ => rfl
  rw [attempt, Disk.refusal?, taken, performed]
  cases due : step.isDue mode? with
  | true => cases disk.refuses? step <;> rfl
  | false => rw [revise_of_not_due due]; rfl

/-- Local steps revise the temporary file one after the other, or one of them is refused and the
file is removed. -/
theorem run_local {steps : List WriteStep} (within : steps.all WriteStep.isLocal = true)
    (last : List WriteStep) (file : File) :
    staging.run disk (tree.set staging.temporary (.file file)) (steps ++ last) =
      match steps.findSome? (disk.refusal? mode?) with
      | some error => (.error error, tree)
      | none => staging.run disk (tree.set staging.temporary
          (.file (steps.foldl (fun file step => staging.revise mode? step file) file))) last := by
  induction steps generalizing file with
  | nil => rfl
  | cons step rest ih =>
      rw [List.all_cons, Bool.and_eq_true] at within
      rw [List.cons_append, run, attempt_local free taken within.1, List.findSome?_cons]
      cases disk.refusal? mode? step with
      | some error =>
          dsimp only
          rw [FileTree.remove_set_of_free free]
      | none => exact ih within.2 _

/-- The last step moves the temporary file, or the file is removed. -/
theorem run_rename {file : File}
    (ends : (tree.set staging.temporary (.file file)).endpoint staging.goal =
      tree.endpoint staging.goal) :
    staging.run disk (tree.set staging.temporary (.file file)) [.rename] =
      match disk.refusal? mode? .rename, tree.endpoint staging.goal >>=
        (tree.set staging.temporary (.file file)).move staging.temporary with
      | some error, _ => (.error error, tree)
      | none, .error error => (.error (.io (.system error)), tree)
      | none, .ok after => (.ok (), after) := by
  have removed := FileTree.remove_set_of_free free (.file file)
  rw [run, attempt, Disk.refusal?, taken]
  dsimp only [WriteStep.isDue, perform]
  rw [ends]
  cases disk.refuses? .rename with
  | some error => exact congrArg _ removed
  | none =>
      cases tree.endpoint staging.goal >>=
          (tree.set staging.temporary (.file file)).move staging.temporary with
      | error error => exact congrArg _ removed
      | ok after => rfl

variable (staging) in
/-- All steps together put a file with the content at the goal, or leave the tree as it was. -/
theorem run_staged (ends : ∀ file, (tree.set staging.temporary (.file file)).endpoint staging.goal =
    tree.endpoint staging.goal) :
    staging.run disk tree WriteStep.staged =
      match WriteStep.staged.findSome? (disk.refusal? mode?), tree.endpoint staging.goal >>=
        (tree.set staging.temporary
          (.file ⟨mode?.getD newMode, staging.content, none⟩)).move staging.temporary with
      | some error, _ => (.error error, tree)
      | none, .error error => (.error (.io (.system error)), tree)
      | none, .ok after => (.ok (), after) := by
  have between : [WriteStep.fill, .setMode, .sync].all WriteStep.isLocal = true := by decide
  have revised : [WriteStep.fill, .setMode, .sync].foldl
      (fun file step => staging.revise mode? step file) ⟨newMode, [], none⟩ =
        ⟨mode?.getD newMode, staging.content, none⟩ := rfl
  have split : WriteStep.staged = .create :: ([.fill, .setMode, .sync] ++ [.rename]) := rfl
  rw [split, run, attempt_create, List.findSome?_cons, List.findSome?_append]
  cases disk.refusal? mode? .create with
  | some error => exact congrArg _ (FileTree.remove_of_free free)
  | none =>
      dsimp only
      rw [run_local free taken between, revised, run_rename free taken (ends _)]
      cases [WriteStep.fill, .setMode, .sync].findSome? (disk.refusal? mode?) with
      | some error => rfl
      | none =>
          rw [List.findSome?_singleton]
          rfl

end Steps

end Staging

namespace FileTree

variable {tree : FileTree} {disk : Disk} {path : Path}

/-- Why a file at a location is not replaced, if it is not. -/
def obstacle? (tree : FileTree) (disk : Disk) (location : Location) : Option Error :=
  if (Path.ofLocation location).isTooLong then some (.io (.system .nameTooLong))
  else
    match disk.refuses? .resolve, tree.temporary (.location location) disk.names with
    | some error, _ => some (.io (.system error))
    | none, .error cause => some (.temporaryFile cause)
    | none, .ok _ =>
        WriteStep.staged.findSome? fun step => (disk.refuses? step).map step.failure

/-- A file that a path leads to is replaced in its place, or nothing changes. -/
theorem write_of_file {location : Location} {file : File}
    (traced : tree.trace path = .ok location) (held : tree.get? location = some (.file file))
    (content : List UInt8) :
    tree.write disk path content =
      match tree.obstacle? disk location with
      | some error => (.error error, tree)
      | none => (.ok (), tree.set location (.file ⟨file.mode, content, none⟩)) := by
  rw [write, goal, traced, obstacle?]
  dsimp only
  by_cases long : (Path.ofLocation location).isTooLong = true
  · rw [if_pos long, if_pos long]
  rw [if_neg long, if_neg long]
  dsimp only
  cases disk.refuses? .resolve with
  | some error => rfl
  | none =>
      cases found : tree.temporary (.location location) disk.names with
      | error cause => rfl
      | ok temporary =>
          dsimp only
          obtain ⟨free, -⟩ := exists_of_temporary found
          have apart : location ≠ temporary := by
            rintro rfl
            rw [held] at free
            cases free
          have taken (other : File) : (tree.set temporary (.file other)).modeFor?
              (.location location) = some file.mode := by
            rw [modeFor?, get?_set _ _ _ (ne_nil_of_free free), if_neg apart, held]
            rfl
          have moved := move_set free ⟨file.mode, content, none⟩ (ne_nil_of_file held) apart
            (by simp [held])
          have due : (fun step => (disk.refuses? step).map step.failure) =
              disk.refusal? (some file.mode) := by
            funext step
            cases step <;> rfl
          rw [Staging.run_staged ⟨.location location, temporary, content⟩ free taken
            (fun other => rfl), due]
          dsimp only [endpoint, bind, Except.bind, Option.getD_some]
          rw [moved]
          cases WriteStep.staged.findSome? (disk.refusal? (some file.mode)) <;> rfl

end FileTree

end RunSigning
