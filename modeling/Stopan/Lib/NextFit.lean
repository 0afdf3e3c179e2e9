import Mathlib

namespace Stopan.Lib

/-- The bins that are closed, in order, and the open one. -/
structure Bins (α : Type) where
  closed : List (List α)
  current : List α

namespace Bins

variable {α : Type}

def items (bins : Bins α) : List α := bins.closed.flatten ++ bins.current

/-- Close the open bin, unless nothing is in it. -/
def close (bins : Bins α) : Bins α :=
  match bins.current with
  | [] => bins
  | first :: rest => ⟨bins.closed ++ [first :: rest], []⟩

def add (bins : Bins α) (item : α) : Bins α := { bins with current := bins.current ++ [item] }

def load (size : α → Nat) (bin : List α) : Nat := (bin.map size).sum

structure Fits (size : α → Nat) (target : Nat) (bins : Bins α) : Prop where
  closed : ∀ bin ∈ bins.closed, 1 < bin.length → load size bin ≤ target
  current : 1 < bins.current.length → load size bins.current ≤ target

variable {size : α → Nat} {target : Nat} {bins : Bins α} {item : α}

theorem close_of_empty (empty : bins.current = []) : bins.close = bins := by rw [close, empty]

theorem close_of_filled (filled : bins.current ≠ []) :
    bins.close = ⟨bins.closed ++ [bins.current], []⟩ := by
  rw [close]
  cases held : bins.current with
  | nil => exact absurd held filled
  | cons first rest => rfl

theorem current_close : bins.close.current = [] := by
  by_cases empty : bins.current = []
  · rw [close_of_empty empty, empty]
  · rw [close_of_filled empty]

theorem items_close : bins.close.items = bins.items := by
  by_cases empty : bins.current = []
  · rw [close_of_empty empty]
  · rw [close_of_filled empty]
    simp [items]

theorem items_add : (bins.add item).items = bins.items ++ [item] := by
  simp [items, add]

theorem load_append (bin : List α) : load size (bin ++ [item]) = load size bin + size item := by
  simp [load]

theorem Fits.close (fits : bins.Fits size target) : bins.close.Fits size target := by
  by_cases empty : bins.current = []
  · rw [close_of_empty empty]
    exact fits
  · rw [close_of_filled empty]
    refine ⟨fun bin member => ?_, fun several => by cases several⟩
    rcases List.mem_append.mp member with earlier | last
    · exact fits.closed bin earlier
    · rw [List.mem_singleton.mp last]
      exact fits.current

/-- An item is added where it fits, or as the first of its bin. -/
theorem Fits.add (fits : bins.Fits size target)
    (room : bins.current ≠ [] → load size bins.current + size item ≤ target) :
    (bins.add item).Fits size target := by
  refine ⟨fits.closed, fun several => ?_⟩
  have filled : bins.current ≠ [] := fun empty => by
    rw [Bins.add, empty] at several
    cases several with
    | step impossible => cases impossible
  rw [Bins.add, load_append]
  exact room filled

end Bins

end Stopan.Lib
