import Mathlib

namespace Stopan.Lib

variable {α : Type} {measure : α → Nat} {before after : α → Prop} [DecidablePred before]
  [DecidablePred after]
variable {items : List α} {item : α}

def tally (measure : α → Nat) (holds : α → Prop) [DecidablePred holds] (items : List α) : Nat :=
  (items.map fun item => if holds item then measure item else 0).sum

theorem tally_congr (same : ∀ item ∈ items, before item ↔ after item) :
    tally measure before items = tally measure after items := by
  refine congrArg List.sum (List.map_congr_left fun item member => ?_)
  by_cases holds : before item
  · rw [if_pos holds, if_pos ((same item member).mp holds)]
  · rw [if_neg holds, if_neg fun later => holds ((same item member).mpr later)]

/-- Where one item comes to satisfy the condition, the sum grows by its measure. -/
theorem tally_insert [DecidableEq α] (distinct : items.Nodup) (member : item ∈ items)
    (was : ¬ before item)
    (becomes : after item) (others : ∀ other, other ≠ item → (before other ↔ after other)) :
    tally measure after items = tally measure before items + measure item := by
  induction items with
  | nil => cases member
  | cons first rest ih =>
      obtain ⟨fresh, distinctRest⟩ := List.nodup_cons.mp distinct
      by_cases same : first = item
      · have unchanged : tally measure before rest = tally measure after rest := by
          refine tally_congr fun other later => others other ?_
          rintro rfl
          exact fresh (same ▸ later)
        rw [tally, tally, List.map_cons, List.map_cons, List.sum_cons, List.sum_cons, same,
          if_pos becomes, if_neg was]
        rw [tally, tally] at unchanged
        omega
      · have later := (List.mem_cons.mp member).resolve_left fun equal => same equal.symm
        have restTally := ih distinctRest later
        have firstSame := others first same
        rw [tally, tally] at restTally
        rw [tally, tally, List.map_cons, List.map_cons, List.sum_cons, List.sum_cons, restTally]
        by_cases holds : before first
        · rw [if_pos holds, if_pos (firstSame.mp holds)]
          omega
        · rw [if_neg holds, if_neg fun now => holds (firstSame.mpr now)]
          omega

/-- Two conditions of which exactly one holds share out the whole sum. -/
theorem tally_add (exclusive : ∀ item ∈ items, before item ↔ ¬ after item) :
    tally measure before items + tally measure after items = (items.map measure).sum := by
  induction items with
  | nil => rfl
  | cons first rest ih =>
      have firstOne := exclusive first List.mem_cons_self
      have restSum := ih fun item member => exclusive item (List.mem_cons_of_mem first member)
      rw [tally, tally] at restSum
      rw [tally, tally, List.map_cons, List.map_cons, List.map_cons, List.sum_cons,
        List.sum_cons, List.sum_cons]
      by_cases holds : after first
      · rw [if_neg fun now => firstOne.mp now holds, if_pos holds]
        omega
      · rw [if_pos (firstOne.mpr holds), if_neg holds]
        omega

end Stopan.Lib
