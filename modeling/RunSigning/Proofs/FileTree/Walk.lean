import Mathlib.Logic.Relation
import RunSigning.FileTree.Resolve

/-
This file takes the walk through a file tree apart into steps. A walk that finds something is a
run of steps, and each step looks at one entry only. So a walk goes the same way in any tree that
has the same entries on its way.
-/

namespace RunSigning

/-- How far a walk has come: the links that it may still follow, where it is, and the names that
are ahead. -/
structure Walker where
  links : Nat
  location : Location
  names : List String

/-- A walk with more names behind its own. -/
def Walker.extend (walker : Walker) (more : List String) : Walker :=
  { walker with names := walker.names ++ more }

/-- A name that an entry of a directory may have. -/
structure IsEntryName (name : String) : Prop where
  busy : ¬ (name = "" ∨ name = ".")
  down : name ≠ ".."
  short : ¬ nameLimit < name.utf8ByteSize

/-- Where the target of a link begins. -/
def Path.base (target : Path) (location : Location) : Location :=
  if target.isAbsolute then [] else location

namespace FileTree

variable {tree : FileTree}

/-- The walk takes one name, and at a link the names of its target come first. -/
inductive Step (tree : FileTree) : Walker → Walker → Prop where
  | stay {links : Nat} {location : Location} {name : String} {rest : List String}
      (inside : tree.get? location = some .directory) (idle : name = "" ∨ name = ".") :
      Step tree ⟨links, location, name :: rest⟩ ⟨links, location, rest⟩
  | leave {links : Nat} {location : Location} {rest : List String}
      (inside : tree.get? location = some .directory) :
      Step tree ⟨links, location, ".." :: rest⟩ ⟨links, location.dropLast, rest⟩
  | enter {links : Nat} {location : Location} {name : String} {rest : List String} {entry : Entry}
      (inside : tree.get? location = some .directory) (proper : IsEntryName name)
      (held : tree.get? (location ++ [name]) = some entry)
      (solid : ∀ target, entry ≠ .link target) :
      Step tree ⟨links, location, name :: rest⟩ ⟨links, location ++ [name], rest⟩
  | follow {links : Nat} {location : Location} {name : String} {rest : List String} {target : Path}
      (inside : tree.get? location = some .directory) (proper : IsEntryName name)
      (held : tree.get? (location ++ [name]) = some (.link target)) :
      Step tree ⟨links + 1, location, name :: rest⟩
        ⟨links, target.base location, target.names ++ rest⟩

/-- A walk comes from one place to another by steps. -/
def Passes (tree : FileTree) : Walker → Walker → Prop := Relation.ReflTransGen tree.Step

/-- How the walk goes on at a link. -/
def beyond (tree : FileTree) : Nat → Location → List String → Except SystemError Place
  | 0, _, _ => .error .linkLoop
  | links + 1, location, names => tree.walk links location names

theorem walk_eq (tree : FileTree) (links : Nat) :
    tree.walk links = tree.walkNames (tree.beyond links) := by
  cases links <;> rfl

theorem walk_nil (links : Nat) (location : Location) :
    tree.walk links location [] = .ok (.found location) := by
  rw [walk_eq, walkNames]

/-- A name of an entry is looked up in a directory. -/
theorem walk_entry {links : Nat} {location : Location} {name : String} {rest : List String}
    (inside : tree.get? location = some .directory) (proper : IsEntryName name) :
    tree.walk links location (name :: rest) =
      match tree.get? (location ++ [name]) with
      | none => if rest.isEmpty then .ok (.vacant (location ++ [name])) else .error .notFound
      | some (.link target) =>
          tree.beyond links (target.base location) (target.names ++ rest)
      | some _ => tree.walk links (location ++ [name]) rest := by
  rw [walk_eq, walkNames, if_neg (not_not_intro inside), if_neg proper.busy, if_neg proper.down,
    if_neg proper.short]
  rfl

theorem Step.walk_eq {first second : Walker} (step : tree.Step first second) :
    tree.walk first.links first.location first.names =
      tree.walk second.links second.location second.names := by
  cases step with
  | stay inside idle =>
      rw [FileTree.walk_eq, walkNames, if_neg (not_not_intro inside), if_pos idle]
  | leave inside =>
      rw [FileTree.walk_eq, walkNames, if_neg (not_not_intro inside), if_neg (by decide),
        if_pos rfl]
  | enter inside proper held solid =>
      rw [walk_entry inside proper, held]
      split
      · contradiction
      · rename_i target same
        exact absurd (Option.some.inj same) (solid target)
      · rfl
  | follow inside proper held =>
      rw [walk_entry inside proper, held]
      rfl

theorem Passes.walk_eq {first second : Walker} (passes : tree.Passes first second) :
    tree.walk first.links first.location first.names =
      tree.walk second.links second.location second.names := by
  induction passes with
  | refl => rfl
  | tail _ step ih => rw [ih, step.walk_eq]

/-- Where a walk ends that does not fail: at an entry, or before a name that no entry of the
directory has. -/
inductive Arrived (tree : FileTree) : Walker → Place → Prop where
  | found {links : Nat} {location : Location} :
      Arrived tree ⟨links, location, []⟩ (.found location)
  | vacant {links : Nat} {location : Location} {name : String}
      (inside : tree.get? location = some .directory)
      (free : tree.get? (location ++ [name]) = none) :
      Arrived tree ⟨links, location, [name]⟩ (.vacant (location ++ [name]))

/-- A walk that does not fail takes its next name or ends there. -/
theorem exists_step {links : Nat} {location : Location} {place : Place} {name : String}
    {rest : List String} (ends : tree.walk links location (name :: rest) = .ok place) :
    (∃ next, tree.Step ⟨links, location, name :: rest⟩ next) ∨
      tree.Arrived ⟨links, location, name :: rest⟩ place := by
  by_cases inside : tree.get? location = some .directory
  · by_cases idle : name = "" ∨ name = "."
    · exact .inl ⟨_, .stay inside idle⟩
    by_cases up : name = ".."
    · subst up
      exact .inl ⟨_, .leave inside⟩
    by_cases long : nameLimit < name.utf8ByteSize
    · rw [FileTree.walk_eq, walkNames, if_neg (not_not_intro inside), if_neg idle, if_neg up,
        if_pos long] at ends
      cases ends
    have proper : IsEntryName name := ⟨idle, up, long⟩
    rw [walk_entry inside proper] at ends
    split at ends
    · rename_i free
      split at ends
      · rename_i last
        obtain rfl := Except.ok.inj ends
        obtain rfl := List.isEmpty_iff.mp last
        exact .inr (.vacant inside free)
      · cases ends
    · rename_i target held
      cases links with
      | zero => cases ends
      | succ links => exact .inl ⟨_, .follow inside proper held⟩
    · rename_i entry solid held
      exact .inl ⟨_, .enter inside proper held solid⟩
  · rw [FileTree.walk_eq, walkNames, if_pos inside] at ends
    cases ends

/-- A walk that does not fail is a run of steps. The induction is on the links that are left, and
for the same links on the names ahead. -/
theorem exists_arrived {links : Nat} {location : Location} {place : Place} {names : List String}
    (ends : tree.walk links location names = .ok place) :
    ∃ last, tree.Passes ⟨links, location, names⟩ last ∧ tree.Arrived last place := by
  induction links using Nat.strongRecOn generalizing location names with
  | ind links fewer =>
      induction names generalizing location with
      | nil =>
          rw [walk_nil] at ends
          cases ends
          exact ⟨_, .refl, .found⟩
      | cons name rest ih =>
          rcases exists_step ends with ⟨next, step⟩ | arrived
          · have onward : ∃ last, tree.Passes next last ∧ tree.Arrived last place := by
              rw [step.walk_eq] at ends
              cases step with
              | stay => exact ih ends
              | leave => exact ih ends
              | enter => exact ih ends
              | follow => exact fewer _ (Nat.lt_succ_self _) ends
            obtain ⟨last, passes, arrived⟩ := onward
            exact ⟨last, .head step passes, arrived⟩
          · exact ⟨_, .refl, arrived⟩

theorem exists_passes {links : Nat} {location place : Location} {names : List String}
    (found : tree.walk links location names = .ok (.found place)) :
    ∃ left, tree.Passes ⟨links, location, names⟩ ⟨left, place, []⟩ := by
  obtain ⟨last, passes, arrived⟩ := exists_arrived found
  cases arrived with
  | @found left => exact ⟨left, passes⟩

/-- Idle names are passed by. -/
theorem passes_idle {links : Nat} {location : Location} {idle rest : List String}
    (inside : tree.get? location = some .directory) (idles : ∀ name ∈ idle, name = "" ∨ name = ".") :
    tree.Passes ⟨links, location, idle ++ rest⟩ ⟨links, location, rest⟩ := by
  induction idle with
  | nil => exact .refl
  | cons name idle ih =>
      exact .head (.stay inside (idles name (by simp)))
        (ih fun other member => idles other (by simp [member]))

theorem Step.extend {first second : Walker} (step : tree.Step first second)
    (more : List String) : tree.Step (first.extend more) (second.extend more) := by
  cases step with
  | stay inside idle => exact .stay inside idle
  | leave inside => exact .leave inside
  | enter inside proper held solid => exact .enter inside proper held solid
  | follow inside proper held =>
      rw [Walker.extend, Walker.extend, List.append_assoc]
      exact .follow inside proper held

theorem Passes.extend {first second : Walker} (passes : tree.Passes first second)
    (more : List String) : tree.Passes (first.extend more) (second.extend more) := by
  induction passes with
  | refl => exact .refl
  | tail _ step ih => exact .tail ih (step.extend more)

/-- A step that takes a name does not see the names behind. -/
theorem Step.exists_shorter {links : Nat} {location : Location} {name : String}
    {rest more : List String} {next : Walker}
    (step : tree.Step ⟨links, location, name :: (rest ++ more)⟩ next) :
    ∃ shorter : Walker, next = shorter.extend more ∧
      tree.Step ⟨links, location, name :: rest⟩ shorter := by
  cases step with
  | stay inside idle => exact ⟨⟨_, _, _⟩, rfl, .stay inside idle⟩
  | leave inside => exact ⟨⟨_, _, _⟩, rfl, .leave inside⟩
  | enter inside proper held solid => exact ⟨⟨_, _, _⟩, rfl, .enter inside proper held solid⟩
  | follow inside proper held =>
      refine ⟨⟨_, _, _⟩, ?_, .follow inside proper held⟩
      rw [Walker.extend, List.append_assoc]

/-- On the way to something is all that the first of the names lead to. -/
theorem Passes.exists_found {walker goal : Walker} {more : List String}
    (passes : tree.Passes (walker.extend more) goal) (arrived : goal.names = []) :
    ∃ place, tree.walk walker.links walker.location walker.names = .ok (.found place) := by
  generalize start : walker.extend more = first at passes
  induction passes using Relation.ReflTransGen.head_induction_on generalizing walker with
  | refl =>
      have done : walker.names ++ more = [] := (congrArg Walker.names start).trans arrived
      exact ⟨walker.location, by rw [(List.append_eq_nil_iff.mp done).1, walk_nil]⟩
  | head step _ ih =>
      obtain ⟨links, location, names⟩ := walker
      cases names with
      | nil => exact ⟨location, walk_nil links location⟩
      | cons name rest =>
          obtain ⟨shorter, rfl, step'⟩ := Step.exists_shorter (start ▸ step)
          obtain ⟨place, found⟩ := ih rfl
          exact ⟨place, step'.walk_eq.trans found⟩

theorem Passes.links_le {first second : Walker} (passes : tree.Passes first second) :
    second.links ≤ first.links := by
  induction passes with
  | refl => exact Nat.le_refl _
  | tail _ step ih =>
      refine Nat.le_trans ?_ ih
      cases step with
      | stay => exact Nat.le_refl _
      | leave => exact Nat.le_refl _
      | enter => exact Nat.le_refl _
      | follow => exact Nat.le_succ _

/-- A walk depends on how it goes on at links only if it comes to one. -/
theorem walkNames_congr {follow further : Location → List String → Except SystemError Place}
    (agree : ∀ location names, follow location names ≠ .error .linkLoop →
      further location names = follow location names)
    {location : Location} {names : List String}
    (ends : tree.walkNames follow location names ≠ .error .linkLoop) :
    tree.walkNames further location names = tree.walkNames follow location names := by
  induction names generalizing location with
  | nil => rfl
  | cons name rest ih =>
      rw [walkNames] at ends ⊢
      rw [walkNames]
      dsimp only at ends ⊢
      split
      · rfl
      rename_i inside
      rw [if_neg inside] at ends
      split
      · rename_i idle
        rw [if_pos idle] at ends
        exact ih ends
      rename_i busy
      rw [if_neg busy] at ends
      split
      · rename_i up
        rw [if_pos up] at ends
        exact ih ends
      rename_i down
      rw [if_neg down] at ends
      split
      · rfl
      rename_i short
      rw [if_neg short] at ends
      split
      · rfl
      · rename_i target held
        rw [held] at ends
        exact agree _ _ ends
      · rename_i entry solid held
        rw [held] at ends
        refine ih ?_
        cases entry with
        | link target => exact absurd rfl (solid target)
        | directory => exact ends
        | file file => exact ends

/-- A walk that does not end because there are too many links ends the same way if more of them
may be followed. -/
theorem walk_add {links : Nat} {location : Location} {names : List String}
    (ends : tree.walk links location names ≠ .error .linkLoop) (more : Nat) :
    tree.walk (links + more) location names = tree.walk links location names := by
  induction links generalizing location names with
  | zero =>
      rw [walk_eq tree 0] at ends
      rw [walk_eq, walk_eq tree 0]
      exact walkNames_congr (fun location names other => absurd rfl other) ends
  | succ links ih =>
      rw [walk_eq] at ends
      rw [walk_eq, walk_eq tree (links + 1), Nat.add_right_comm]
      exact walkNames_congr (fun location names other => ih other) ends

/-- A walk that finds nothing does not find anything if more links may be followed, unless it
ended because of its links. -/
theorem walk_ne_found_of_le {fewer links : Nat} {location : Location} {names : List String}
    (ends : tree.walk fewer location names ≠ .error .linkLoop)
    (lost : ∀ place, tree.walk fewer location names ≠ .ok (.found place)) (le : fewer ≤ links)
    (place : Location) : tree.walk links location names ≠ .ok (.found place) := by
  obtain ⟨more, rfl⟩ := Nat.exists_eq_add_of_le le
  rw [walk_add ends]
  exact lost place

end FileTree

end RunSigning
