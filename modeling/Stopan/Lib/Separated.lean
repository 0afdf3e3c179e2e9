import Mathlib

namespace Stopan.Lib

variable {α : Type} {sep : α} {names kept : List (List α)}

def joinSep (sep : α) (components : List (List α)) : List α := [sep].intercalate components

theorem joinSep_cons (name : List α) (some : names ≠ []) :
    joinSep sep (name :: names) = name ++ sep :: joinSep sep names := by
  cases names with
  | nil => exact absurd rfl some
  | cons next rest => simp [joinSep, List.intercalate_cons_cons]

theorem joinSep_append (some : kept ≠ []) (others : names ≠ []) :
    joinSep sep (kept ++ names) = joinSep sep kept ++ sep :: joinSep sep names := by
  induction kept with
  | nil => exact absurd rfl some
  | cons first rest ih =>
      by_cases empty : rest = []
      · rw [empty]
        simpa [joinSep] using joinSep_cons first others
      · rw [List.cons_append, joinSep_cons first (by simp [empty]), ih empty,
          joinSep_cons first empty]
        simp

/-- A text of proper components does not begin with the separator. -/
theorem head_joinSep (named : ∀ name ∈ names, name ≠ [] ∧ sep ∉ name) :
    (joinSep sep names).head? ≠ some sep := by
  cases names with
  | nil => simp [joinSep]
  | cons name rest =>
      obtain ⟨nonempty, whole⟩ := named name List.mem_cons_self
      cases name with
      | nil => exact absurd rfl nonempty
      | cons char chars =>
          have first : (joinSep sep ((char :: chars) :: rest)).head? = some char := by
            by_cases empty : rest = []
            · simp [joinSep, empty]
            · simp [joinSep_cons _ empty]
          rw [first]
          intro same
          cases same
          exact whole List.mem_cons_self

/-- Nor does it end with it. -/
theorem getLast_joinSep (some : names ≠ []) (named : ∀ name ∈ names, name ≠ [] ∧ sep ∉ name) :
    ∃ last, (joinSep sep names).getLast? = Option.some last ∧ last ≠ sep := by
  induction names with
  | nil => exact absurd rfl some
  | cons name rest ih =>
      by_cases empty : rest = []
      · obtain ⟨nonempty, whole⟩ := named name List.mem_cons_self
        refine ⟨name.getLast nonempty,
          by simp [joinSep, empty, List.getLast?_eq_some_getLast nonempty], ?_⟩
        intro same
        exact whole (same ▸ List.getLast_mem nonempty)
      · obtain ⟨last, found, other⟩ :=
          ih empty fun later member => named later (List.mem_cons_of_mem name member)
        have someText : joinSep sep rest ≠ [] := by
          intro none
          simp [none] at found
        refine ⟨last, ?_, other⟩
        rw [joinSep_cons name empty, List.getLast?_append_of_ne_nil _ (by simp),
          List.getLast?_cons_of_ne_nil someText]
        exact found

theorem joinSep_ne_nil (some : names ≠ []) (named : ∀ name ∈ names, name ≠ [] ∧ sep ∉ name) :
    joinSep sep names ≠ [] := by
  obtain ⟨last, ends, -⟩ := getLast_joinSep some named
  intro none
  simp [none] at ends

theorem splitOn_joinSep [BEq α] [LawfulBEq α] (some : names ≠ [])
    (whole : ∀ name ∈ names, sep ∉ name) : (joinSep sep names).splitOn sep = names :=
  List.splitOn_intercalate sep whole some

theorem joinSep_injective [BEq α] [LawfulBEq α] {left right : List (List α)}
    (lefts : ∀ name ∈ left, name ≠ [] ∧ sep ∉ name)
    (rights : ∀ name ∈ right, name ≠ [] ∧ sep ∉ name)
    (same : joinSep sep left = joinSep sep right) : left = right := by
  have proper : ∀ {names : List (List α)}, (∀ name ∈ names, name ≠ [] ∧ sep ∉ name) →
      ((joinSep sep names).splitOn sep).filter (fun name => !name.isEmpty) = names := by
    intro names named
    by_cases empty : names = []
    · rw [empty]
      simp [joinSep]
    · rw [splitOn_joinSep empty fun name member => (named name member).2]
      exact List.filter_eq_self.mpr fun name member => by simpa using (named name member).1
  rw [← proper lefts, same, proper rights]

theorem splitOn_map {β : Type} [BEq α] [LawfulBEq α] [BEq β] [LawfulBEq β]
    {f : α → β} {text : List α} (injective : Function.Injective f) :
    (text.map f).splitOn (f sep) = (text.splitOn sep).map (List.map f) := by
  rw [List.splitOn, List.splitOn]
  induction text with
  | nil => simp
  | cons char chars ih =>
      rw [List.map_cons, List.splitOnP_cons_eq_if_modifyHead,
        List.splitOnP_cons_eq_if_modifyHead, ih]
      have same : (f char == f sep) = (char == sep) := by
        rw [Bool.eq_iff_iff, beq_iff_eq, beq_iff_eq]
        exact injective.eq_iff
      rw [same]
      split
      · rfl
      · cases chars.splitOnP (· == sep) with
        | nil => rfl
        | cons first rest => rfl

end Stopan.Lib
