import Mathlib

namespace Stopan.Lib

variable {σ ι κ α : Type} [DecidableEq κ] [LinearOrder α]

/-- The update function raises the entry of the update's key to the rank of the update. -/
def KeepsLatest (apply : σ → ι → σ) (view : σ → κ → WithBot α) (key : ι → κ) (rank : ι → α)
    (admits : σ → ι → Prop) : Prop :=
  ∀ state update, admits state update → ∀ entry,
    view (apply state update) entry =
      if key update = entry then max (view state entry) (rank update) else view state entry

/-- The greatest rank of the updates with the given key. -/
def latest (key : ι → κ) (rank : ι → α) (updates : List ι) (entry : κ) : WithBot α :=
  ((updates.filter fun update => key update = entry).map rank).maximum

variable {apply : σ → ι → σ} {view : σ → κ → WithBot α} {key : ι → κ} {rank : ι → α} {entry : κ}
variable {admits : σ → ι → Prop}

theorem latest_cons (update : ι) (rest : List ι) :
    latest key rank (update :: rest) entry =
      if key update = entry then max (rank update : WithBot α) (latest key rank rest entry)
      else latest key rank rest entry := by
  by_cases same : key update = entry <;> simp [latest, same, List.maximum_cons]

theorem latest_eq_coe_iff {updates : List ι} {best : α} :
    latest key rank updates entry = best ↔
      (∃ update ∈ updates, key update = entry ∧ rank update = best) ∧
        ∀ update ∈ updates, key update = entry → rank update ≤ best := by
  simp only [latest, List.maximum_eq_coe_iff, List.mem_map, List.mem_filter,
    decide_eq_true_eq, and_assoc, forall_exists_index, and_imp]
  refine and_congr_right fun _ => ?_
  constructor
  · intro bound update member same
    exact bound _ update member same rfl
  · intro bound value update member same equal
    exact equal ▸ bound update member same

theorem latest_eq_bot_iff {updates : List ι} :
    latest key rank updates entry = ⊥ ↔ ∀ update ∈ updates, key update ≠ entry := by
  simp [latest, List.maximum_eq_bot, List.filter_eq_nil_iff]

/-- The updates of a whole list raise every entry to the greatest rank for its key. -/
theorem KeepsLatest.foldl (keeps : KeepsLatest apply view key rank admits)
    (updates : List ι) (state : σ)
    (stable : ∀ state update, admits state update → ∀ other ∈ updates, admits state other →
      admits (apply state update) other)
    (admitted : ∀ update ∈ updates, admits state update) :
    view (updates.foldl apply state) entry = max (view state entry)
      (latest key rank updates entry) := by
  induction updates generalizing state with
  | nil => simp [latest]
  | cons update rest ih =>
      have first := admitted update (by simp)
      have later : ∀ other ∈ rest, admits (apply state update) other := fun other member =>
        stable state update first other (by simp [member]) (admitted other (by simp [member]))
      rw [List.foldl_cons, ih (apply state update)
        (fun state update allowed other member => stable state update allowed other
          (by simp [member])) later,
        keeps state update first, latest_cons]
      by_cases same : key update = entry
      · rw [if_pos same, if_pos same, max_assoc]
      · rw [if_neg same, if_neg same]

end Stopan.Lib
