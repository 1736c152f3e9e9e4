import RunSigning.FileTree.Store
import RunSigning.Proofs.FileTree.Walk

/-
This file describes the place that a path names if it leads nowhere. Nothing stands there, or a
link that leads nowhere. No walk that finds something passes that place, so something may be put
there, and then the path leads to it.
-/

namespace RunSigning

namespace FileTree

variable {tree other : FileTree}

/-- A walk that comes to a name in a directory finds nothing: there is no entry, or there is a link
whose target is not found even by a walk that may follow more links. -/
inductive Dangling (tree : FileTree) (links : Nat) (directory : Location) (name : String) :
    Prop where
  | free (vacant : tree.get? (directory ++ [name]) = none) : Dangling tree links directory name
  | lost {target : Path} (held : tree.get? (directory ++ [name]) = some (.link target))
      (nowhere : ∀ more, links ≤ more → ∀ place,
        tree.walk more (target.base directory) target.names ≠ .ok (.found place)) :
      Dangling tree links directory name

section Frame
variable {links : Nat} {directory : Location} {name : String}

/-- What is neither free nor a link stands elsewhere. -/
theorem Dangling.apart (dangling : tree.Dangling links directory name) {place : Location}
    {entry : Entry} (held : tree.get? place = some entry)
    (solid : ∀ target, entry ≠ .link target) : place ≠ directory ++ [name] := by
  rintro rfl
  cases dangling with
  | free vacant =>
      rw [vacant] at held
      cases held
  | lost held' => exact solid _ (Option.some.inj (held.symm.trans held'))

/-- A step on the way to something does not depend on what stands at the dangling name: it would
have to follow the link there. -/
theorem Step.frame (dangling : tree.Dangling links directory name)
    (same : ∀ place, place ≠ directory ++ [name] → other.get? place = tree.get? place)
    {first second : Walker} {goal : Location} (step : tree.Step first second)
    (onward : tree.Passes second ⟨links, goal, []⟩) : other.Step first second := by
  have directory_same {location : Location} (inside : tree.get? location = some .directory) :
      other.get? location = some .directory := by
    rw [same location (dangling.apart inside (by simp)), inside]
  cases step with
  | stay inside idle => exact .stay (directory_same inside) idle
  | leave inside => exact .leave (directory_same inside)
  | enter inside proper held solid =>
      refine .enter (directory_same inside) proper ?_ solid
      rw [same _ (dangling.apart held solid), held]
  | @follow left location next rest target inside proper held =>
      refine .follow (directory_same inside) proper ?_
      rw [same, held]
      -- The link at the dangling name would be followed, and its target found.
      intro here
      obtain ⟨rfl, last⟩ := List.append_inj' here rfl
      obtain rfl := List.singleton_inj.mp last
      cases dangling with
      | free vacant =>
          rw [vacant] at held
          cases held
      | lost held' nowhere =>
          obtain rfl := Entry.link.inj (Option.some.inj (held.symm.trans held'))
          have found : ∃ place,
              tree.walk left (target.base location) target.names = .ok (.found place) :=
            @Passes.exists_found tree ⟨left, target.base location, target.names⟩ _ rest onward rfl
          obtain ⟨place, found⟩ := found
          exact nowhere left onward.links_le place found

theorem Passes.frame (dangling : tree.Dangling links directory name)
    (same : ∀ place, place ≠ directory ++ [name] → other.get? place = tree.get? place)
    {walker : Walker} {goal : Location} (passes : tree.Passes walker ⟨links, goal, []⟩) :
    other.Passes walker ⟨links, goal, []⟩ := by
  induction passes using Relation.ReflTransGen.head_induction_on with
  | refl => exact .refl
  | head step onward ih => exact .head (step.frame dangling same onward) ih

end Frame

/-- The place that a path names itself, and the way to its directory. -/
structure NewPlace (tree : FileTree) (path : Path) (location : Location) where
  directory : Location
  name : String
  before : List String
  links : Nat
  location_eq : location = directory ++ [name]
  names_eq : path.names = before ++ [name]
  proper : IsEntryName name
  inside : tree.get? directory = some .directory
  passes : tree.Passes ⟨linkLimit, tree.origin path, before⟩ ⟨links, directory, []⟩
  dangling : tree.Dangling links directory name
  short : path.isTooLong = false
  unbroken : path.hasNul = false

/-- Where a walk comes to its last name and finds nothing, the name dangles. -/
theorem dangling_of_walk {links : Nat} {directory : Location} {name : String}
    (inside : tree.get? directory = some .directory) (proper : IsEntryName name)
    (lost : (∃ place, tree.walk links directory [name] = .ok (.vacant place)) ∨
      tree.walk links directory [name] = .error .notFound) :
    tree.Dangling links directory name := by
  rw [walk_entry inside proper] at lost
  split at lost
  · rename_i vacant
    exact .free vacant
  · rename_i target held
    cases links with
    | zero => simp [beyond] at lost
    | succ links =>
        rw [beyond, List.append_nil] at lost
        refine .lost held fun more le => ?_
        refine walk_ne_found_of_le ?_ ?_ (Nat.le_of_succ_le le)
        · rcases lost with ⟨place, vacant⟩ | missing
          · simp [vacant]
          · simp [missing]
        · rcases lost with ⟨place, vacant⟩ | missing
          · simp [vacant]
          · simp [missing]
  · rw [walk_nil] at lost
    simp at lost

/-- A path that leads nowhere is empty, or the walk along its names finds nothing. -/
theorem walk_of_trace {path : Path} (lost : tree.trace path = .error (.system .notFound)) :
    path.hasNul = false ∧ (path.text = "" ∨
      (∃ place, tree.walk linkLimit (tree.origin path) path.names = .ok (.vacant place)) ∨
      tree.walk linkLimit (tree.origin path) path.names = .error .notFound) := by
  rw [trace, locate] at lost
  by_cases nul : path.hasNul = true
  · rw [if_pos nul] at lost
    cases lost
  rw [if_neg nul] at lost
  refine ⟨Bool.not_eq_true _ ▸ nul, ?_⟩
  by_cases empty : path.text = ""
  · exact .inl empty
  rw [if_neg empty] at lost
  cases walked : tree.walk linkLimit (tree.origin path) path.names with
  | ok place =>
      cases place with
      | found location => simp [walked] at lost
      | vacant location => simp
  | error error =>
      rw [walked] at lost
      exact .inr (.inr (congrArg Except.error (IoError.system.inj (Except.error.inj lost))))

/-- The last name of a path that names a place of its own. -/
theorem names_of_stripped {path : Path} {last : String} {backwards : List String}
    (stripped : path.names.reverse.dropWhile (· == "") = last :: backwards)
    (ending : path.names.reverse.head? ≠ some "") :
    path.names = backwards.reverse ++ [last] ∧ last ≠ "" := by
  rw [← List.reverse_reverse path.names]
  cases split : path.names.reverse with
  | nil =>
      rw [split] at stripped
      cases stripped
  | cons name rest =>
      have filled : name ≠ "" := by
        rw [split] at ending
        simpa using ending
      rw [split, List.dropWhile_cons_of_neg (by simpa using filled)] at stripped
      rw [stripped, List.reverse_cons]
      exact ⟨rfl, (List.cons.inj stripped).1 ▸ filled⟩

/-- A path with a last name is not empty. -/
theorem text_ne_empty {path : Path} {before : List String} {last : String}
    (names_eq : path.names = before ++ [last]) (filled : last ≠ "") : path.text ≠ "" := by
  intro empty
  have names : path.names = [""] := by
    rw [Path.names, empty]
    rfl
  obtain ⟨-, same⟩ := List.append_inj' (names_eq.symm.trans names : before ++ [last] = [] ++ [""]) rfl
  exact filled (List.singleton_inj.mp same)

/-- A path names a place in the directory that its names before the last lead to. -/
theorem exists_of_destination {path : Path} {location : Location}
    (named : tree.destination path = .ok location) :
    ∃ (directory : Location) (last : String) (backwards : List String),
      location = directory ++ [last] ∧ path.isTooLong = false ∧
      path.names = backwards.reverse ++ [last] ∧ last ≠ "" ∧ ¬ (last = "." ∨ last = "..") ∧
      tree.walk linkLimit (tree.origin path) backwards.reverse = .ok (.found directory) ∧
      tree.get? directory = some .directory := by
  rw [destination] at named
  split at named
  · cases named
  rename_i short
  split at named
  · cases named
  rename_i last backwards stripped
  split at named
  · cases named
  · cases named
  rename_i directory found
  split at named
  · cases named
  rename_i inside
  split at named
  · cases named
  rename_i solid
  split at named
  · cases named
  rename_i ending
  obtain ⟨names_eq, filled⟩ := names_of_stripped stripped ending
  exact ⟨directory, last, backwards, (Except.ok.inj named).symm, Bool.not_eq_true _ ▸ short,
    names_eq, filled, solid, found, Decidable.not_not.mp inside⟩

/-- A path that leads nowhere, but names a place, names a new one. -/
theorem nonempty_newPlace {path : Path} {location : Location}
    (lost : tree.trace path = .error (.system .notFound))
    (named : tree.destination path = .ok location) :
    Nonempty (tree.NewPlace path location) := by
  obtain ⟨directory, last, backwards, rfl, short, names_eq, filled, solid, found, inside⟩ :=
    exists_of_destination named
  obtain ⟨links, passes⟩ := exists_passes found
  have onward := (passes.extend [last]).walk_eq
  rw [Walker.extend, Walker.extend, List.nil_append, ← names_eq] at onward
  obtain ⟨unbroken, empty | ends⟩ := walk_of_trace lost
  · exact absurd empty (text_ne_empty names_eq filled)
  rw [onward] at ends
  have proper : IsEntryName last := by
    have busy : ¬ (last = "" ∨ last = ".") :=
      fun idle => idle.elim filled fun dot => solid (.inl dot)
    refine ⟨busy, fun up => solid (.inr up), fun long => ?_⟩
    rw [walk_eq, walkNames, if_neg (not_not_intro inside), if_neg busy,
      if_neg fun up => solid (.inr up), if_pos long] at ends
    simp at ends
  exact ⟨⟨directory, last, backwards.reverse, links, rfl, names_eq, proper, inside, passes,
    dangling_of_walk inside proper ends, short, unbroken⟩⟩

namespace NewPlace

variable {path : Path} {location : Location} (place : tree.NewPlace path location)

include place

theorem location_ne_nil : location ≠ [] := by
  rw [place.location_eq]
  simp

/-- The name at the place is the last of the path. -/
theorem location_ne {name : String} (unnamed : name ∉ path.names) (directory : Location) :
    location ≠ directory ++ [name] := by
  rw [place.location_eq]
  intro same
  rw [place.names_eq, ← List.singleton_inj.mp (List.append_inj' same rfl).2] at unnamed
  simp at unnamed

/-- Nothing stands there but a link. -/
theorem free_or_link : tree.get? location = none ∨
    ∃ target, tree.get? location = some (.link target) := by
  rw [place.location_eq]
  cases place.dangling with
  | free vacant => exact .inl vacant
  | lost held => exact .inr ⟨_, held⟩

/-- The path leads to what is put at its place. -/
theorem trace_eq {file : File} (current : other.current = tree.current)
    (same : ∀ other', other' ≠ location → other.get? other' = tree.get? other')
    (held : other.get? location = some (.file file)) : other.trace path = .ok location := by
  obtain ⟨directory, name, before, links, rfl, names_eq, proper, inside, passes, dangling, short,
    unbroken⟩ := place
  have arrives := ((passes.frame dangling same).extend [name]).walk_eq
  have inside' : other.get? directory = some .directory := by
    rw [same directory (dangling.apart inside (by simp)), inside]
  rw [Walker.extend, Walker.extend, List.nil_append, ← names_eq, walk_entry inside' proper, held]
    at arrives
  dsimp only at arrives
  rw [walk_nil] at arrives
  have origin : other.origin path = tree.origin path := by rw [origin, origin, current]
  have filled := text_ne_empty names_eq fun empty => proper.busy (.inl empty)
  rw [trace, locate, if_neg (by simp [unbroken]), if_neg filled, origin, arrives]

end NewPlace

end FileTree

end RunSigning
