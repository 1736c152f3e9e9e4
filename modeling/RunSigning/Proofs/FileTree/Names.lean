import Mathlib.Data.List.Basic
import RunSigning.Path

/-
This file takes paths apart. A path is cut into names at its slashes, so what was joined can be told
apart again, and the directory part of a joined path is the path that came first.
-/

namespace RunSigning

/-- Slashes split a text as any separator does. -/
theorem splitSlashes_eq_splitOn (text : List Char) : splitSlashes text = text.splitOn '/' := by
  induction text with
  | nil => rfl
  | cons c rest ih =>
      rw [splitSlashes, List.splitOn_cons_eq_if_modifyHead, ih]
      by_cases slash : c = '/'
      · rw [if_pos slash, if_pos (beq_iff_eq.mpr slash)]
      · rw [if_neg slash, if_neg (by simpa using slash)]
        cases pieces : rest.splitOn '/' with
        | nil => exact absurd pieces (List.splitOn_ne_nil _ _)
        | cons piece others => rfl

namespace Path

variable {first second : Path} {name : String}

theorem names_eq_splitOn (path : Path) :
    path.names = (path.text.toList.splitOn '/').map String.ofList := by
  rw [names, splitSlashes_eq_splitOn]

theorem names_ne_nil (path : Path) : path.names ≠ [] := by
  rw [names_eq_splitOn, ne_eq, List.map_eq_nil_iff]
  exact List.splitOn_ne_nil _ _

/-- A path is its names with slashes between them. -/
theorem intercalate_names (path : Path) : String.intercalate "/" path.names = path.text := by
  rw [names_eq_splitOn, ← String.toList_inj, String.toList_intercalate, List.map_map]
  have whole (pieces : List (List Char)) :
      pieces.map (String.toList ∘ String.ofList) = pieces := by simp [Function.comp_def]
  rw [whole]
  exact List.intercalate_splitOn '/'

/-- A slash ends a name. -/
theorem names_slash (before after : String) :
    names ⟨before ++ "/" ++ after⟩ = names ⟨before⟩ ++ names ⟨after⟩ := by
  rw [names_eq_splitOn, names_eq_splitOn, names_eq_splitOn, String.toList_append,
    String.toList_append, List.append_assoc, ← List.map_append]
  exact congrArg _ (List.splitOn_append_cons_self _ _)

theorem exists_slash_of_getLast? (ends : first.text.toList.getLast? = some '/') :
    ∃ before, first.text = before ++ "/" := by
  obtain ⟨before, split⟩ := List.getLast?_eq_some_iff.mp ends
  exact ⟨String.ofList before, String.toList_inj.mp (by simpa using split)⟩

/-- The names of a relative path stay the last ones when it is joined to another. -/
theorem exists_names_join (relative : second.isAbsolute = false) :
    ∃ before, (first.join second).names = before ++ second.names := by
  rw [join, if_neg (by simp [relative])]
  split
  · rename_i closed
    rcases Bool.or_eq_true_iff.mp closed with empty | ends
    · have nothing : first.text = "" := by simpa using empty
      exact ⟨[], by rw [nothing, String.empty_append, List.nil_append]⟩
    · obtain ⟨before, split⟩ := exists_slash_of_getLast? (beq_iff_eq.mp ends)
      rw [split, names_slash]
      exact ⟨_, rfl⟩
  · rw [names_slash]
    exact ⟨_, rfl⟩

/-- What is joined to a path that ends in a name comes behind one slash. -/
theorem join_of_named (ends : first.names.getLast? = some name) (named : name ≠ "")
    (relative : second.isAbsolute = false) :
    first.join second = ⟨first.text ++ "/" ++ second.text⟩ := by
  rw [join, if_neg (by simp [relative]), if_neg]
  intro closed
  apply named
  rcases Bool.or_eq_true_iff.mp closed with empty | slash
  · have nothing : first.text = "" := by simpa using empty
    rw [names, nothing] at ends
    exact (Option.some.inj ends).symm
  · obtain ⟨before, split⟩ := exists_slash_of_getLast? (beq_iff_eq.mp slash)
    rw [show first = ⟨before ++ "/" ++ ""⟩ by rw [String.append_empty, ← split], names_slash,
      List.getLast?_append_of_ne_nil _ (names_ne_nil _)] at ends
    exact (Option.some.inj ends).symm

/-- The directory part of a joined path is the first of the two, if each ends in a name that leads
somewhere else and the second has no other. -/
theorem directory_join {last : String} (ends : first.names.getLast? = some name)
    (leads : isIdleName name = false) (single : second.names = [last])
    (leads' : isIdleName last = false) (relative : second.isAbsolute = false) :
    (first.join second).directory = first := by
  have named : name ≠ "" := by
    rintro rfl
    cases leads
  obtain ⟨before, split⟩ := List.getLast?_eq_some_iff.mp ends
  rw [directory, join_of_named ends named relative, names_slash, single, List.reverse_append,
    List.reverse_singleton, List.singleton_append, List.dropWhile_cons_of_neg (by simp [leads']),
    List.drop_one, List.tail_cons, split, List.reverse_append, List.reverse_singleton,
    List.singleton_append, List.dropWhile_cons_of_neg (by simp [leads])]
  dsimp only
  rw [← List.singleton_append, ← List.reverse_singleton, ← List.reverse_append,
    List.reverse_reverse, ← split, intercalate_names]

end Path

end RunSigning
