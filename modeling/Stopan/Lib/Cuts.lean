import Mathlib

namespace Stopan.Lib

variable {α : Type}

/-- How long the next piece of a nonempty sequence is. -/
structure CutRule (α : Type) where
  length : List α → Nat
  positive : ∀ {rest}, rest ≠ [] → 0 < length rest
  within : ∀ {rest}, rest ≠ [] → length rest ≤ rest.length

namespace CutRule

variable {rule : CutRule α} {start point : Nat} {rest more : List α}

/-- The ends of the pieces, as offsets of a sequence of which `rest` begins at `start`. -/
def points (rule : CutRule α) (start : Nat) (rest : List α) : List Nat :=
  if left : rest = [] then []
  else
    have _positive := rule.positive left
    have _nonempty := List.length_pos_iff.mpr left
    (start + rule.length rest) :: rule.points (start + rule.length rest)
      (rest.drop (rule.length rest))
termination_by rest.length
decreasing_by
  rw [List.length_drop]
  omega

@[simp] theorem points_nil : rule.points start [] = [] := by rw [points, dif_pos rfl]

theorem points_of_ne_nil (left : rest ≠ []) : rule.points start rest =
    (start + rule.length rest) :: rule.points (start + rule.length rest)
      (rest.drop (rule.length rest)) := by
  rw [points, dif_neg left]

/-- The cut points move with the sequence. -/
theorem points_shift (distance : Nat) :
    rule.points (distance + start) rest = (rule.points start rest).map (distance + ·) := by
  fun_induction rule.points start rest with
  | case1 => simp
  | case2 start rest left positive nonempty ih =>
      rw [points_of_ne_nil left, List.map_cons, Nat.add_assoc, ih]

theorem bounds_of_mem_points (member : point ∈ rule.points start rest) :
    start < point ∧ point ≤ start + rest.length := by
  fun_induction rule.points start rest with
  | case1 => simp at member
  | case2 start rest left positive nonempty ih =>
      have within := rule.within left
      rcases List.mem_cons.mp member with rfl | later
      · omega
      · have bounded := ih later
        rw [List.length_drop] at bounded
        omega

theorem points_pairwise : (rule.points start rest).Pairwise (· < ·) := by
  fun_induction rule.points start rest with
  | case1 => exact List.Pairwise.nil
  | case2 start rest left positive nonempty ih =>
      exact List.pairwise_cons.mpr ⟨fun point later => (bounds_of_mem_points later).1, ih⟩

theorem points_getLast? (left : rest ≠ []) :
    (rule.points start rest).getLast? = some (start + rest.length) := by
  fun_induction rule.points start rest with
  | case1 => exact absurd rfl left
  | case2 start rest _ positive nonempty ih =>
      have within := rule.within left
      by_cases last : rest.drop (rule.length rest) = []
      · have reached := List.drop_eq_nil_iff.mp last
        rw [last, points_nil, List.getLast?_singleton]
        have whole : rule.length rest = rest.length := by omega
        rw [whole]
      · have later := ih last
        rw [List.length_drop] at later
        rw [List.getLast?_cons, later, Option.getD_some]
        have total : start + rule.length rest + (rest.length - rule.length rest) =
            start + rest.length := by omega
        rw [total]

/-- After one of its cut points a sequence is cut as what is left there. -/
theorem points_after (member : point ∈ rule.points start rest) :
    (rule.points start rest).filter (fun other => decide (point < other)) =
      rule.points point (rest.drop (point - start)) := by
  fun_induction rule.points start rest with
  | case1 => simp at member
  | case2 start rest left positive nonempty ih =>
      rcases List.mem_cons.mp member with rfl | later
      · have all : ∀ other ∈ rule.points (start + rule.length rest) (rest.drop (rule.length rest)),
            decide (start + rule.length rest < other) = true := by
          intro other listed
          exact decide_eq_true (bounds_of_mem_points listed).1
        rw [List.filter_cons_of_neg (by simp), List.filter_eq_self.mpr all, Nat.add_sub_cancel_left]
      · have beyond := (bounds_of_mem_points later).1
        have skipped : ¬ decide (point < start + rule.length rest) = true := by
          rw [decide_eq_true_eq]
          omega
        rw [List.filter_cons, if_neg skipped, ih later, List.drop_drop]
        have total : rule.length rest + (point - (start + rule.length rest)) =
            point - start := by omega
        rw [total]

/-- Two sequences that end alike are cut alike after a cut point that both have where the common end
begins. -/
theorem points_after_eq {left right common : List α}
    (leftCut : left.length ∈ rule.points 0 (left ++ common))
    (rightCut : right.length ∈ rule.points 0 (right ++ common)) :
    ((rule.points 0 (left ++ common)).filter (fun other => decide (left.length < other))).map
      (· - left.length) =
      ((rule.points 0 (right ++ common)).filter (fun other => decide (right.length < other))).map
        (· - right.length) := by
  have shifted : ∀ before : List α, before.length ∈ rule.points 0 (before ++ common) →
      ((rule.points 0 (before ++ common)).filter (fun other => decide (before.length < other))).map
        (· - before.length) = rule.points 0 common := by
    intro before cut
    rw [points_after cut, Nat.sub_zero, List.drop_left]
    have moved := @points_shift _ rule 0 common before.length
    rw [Nat.add_zero] at moved
    rw [moved, List.map_map]
    have back : (fun other => other - before.length) ∘ (fun other => before.length + other) =
        id := by
      funext other
      exact Nat.add_sub_cancel_left ..
    rw [back, List.map_id]
  rw [shifted left leftCut, shifted right rightCut]

/-- A cut that is not the end of the sequence does not depend on what follows the sequence. -/
def Local (rule : CutRule α) : Prop :=
  ∀ rest more, rest ≠ [] → rule.length rest < rest.length →
    rule.length (rest ++ more) = rule.length rest

/-- The cut points before the end stay, in their places, when something is appended. -/
theorem Local.points_append (isLocal : rule.Local) (more : List α) :
    (rule.points start rest).filter (fun point => decide (point < start + rest.length)) <+:
      rule.points start (rest ++ more) := by
  fun_induction rule.points start rest with
  | case1 => exact List.nil_prefix
  | case2 start rest left positive nonempty ih =>
      have within := rule.within left
      by_cases early : rule.length rest < rest.length
      · have appended : rest ++ more ≠ [] := by simp [left]
        rw [points_of_ne_nil appended, isLocal rest more left early,
          List.drop_append_of_le_length within]
        rw [List.filter_cons_of_pos (by rw [decide_eq_true_eq]; omega), List.prefix_cons_inj]
        rw [List.length_drop] at ih
        have total : start + rule.length rest + (rest.length - rule.length rest) =
            start + rest.length := by omega
        rw [total] at ih
        exact ih
      · have whole : rest.drop (rule.length rest) = [] := List.drop_eq_nil_iff.mpr (by omega)
        rw [whole, points_nil, List.filter_cons_of_neg (by rw [decide_eq_true_eq]; omega)]
        exact List.nil_prefix

theorem Local.mem_points_append (isLocal : rule.Local) (member : point ∈ rule.points start rest)
    (early : point < start + rest.length) : point ∈ rule.points start (rest ++ more) :=
  (isLocal.points_append more).subset (List.mem_filter.mpr ⟨member, decide_eq_true early⟩)

/-- Appending adds no cut point before one that was there. -/
theorem Local.mem_points_of_append {early : Nat} (isLocal : rule.Local)
    (member : point ∈ rule.points start rest) (inside : point < start + rest.length)
    (cut : early ∈ rule.points start (rest ++ more)) (before : early ≤ point) :
    early ∈ rule.points start rest := by
  obtain ⟨tail, split⟩ := @Local.points_append _ rule start rest isLocal more
  have listed : point ∈ (rule.points start rest).filter
      (fun point => decide (point < start + rest.length)) :=
    List.mem_filter.mpr ⟨member, decide_eq_true inside⟩
  rw [← split] at cut
  rcases List.mem_append.mp cut with kept | added
  · exact List.mem_of_mem_filter kept
  · have ordered := @points_pairwise _ rule start (rest ++ more)
    rw [← split, List.pairwise_append] at ordered
    have later := ordered.2.2 point listed early added
    omega

end CutRule

variable {start stop : Nat} {data : List α} {points : List Nat}

/-- How long the pieces between consecutive points are. -/
def gaps : Nat → List Nat → List Nat
  | _, [] => []
  | start, point :: rest => (point - start) :: gaps point rest

/-- The pieces of `data` between consecutive points. -/
def slices (data : List α) : Nat → List Nat → List (List α)
  | _, [] => []
  | start, point :: rest => (data.take point).drop start :: slices data point rest

/-- Where consecutive pieces end, when the first begins at `start`. -/
def pieceEnds : Nat → List (List α) → List Nat
  | _, [] => []
  | start, piece :: rest => (start + piece.length) :: pieceEnds (start + piece.length) rest

theorem CutRule.slices_flatten {rule : CutRule α} (within : start ≤ data.length) :
    (slices data start (rule.points start (data.drop start))).flatten = data.drop start := by
  generalize same : data.drop start = rest
  fun_induction rule.points start rest with
  | case1 => simp [slices]
  | case2 start rest left positive nonempty ih =>
      have bounded := rule.within left
      have size : rest.length = data.length - start := by rw [← same, List.length_drop]
      have later : data.drop (start + rule.length rest) = rest.drop (rule.length rest) := by
        rw [← same, List.drop_drop]
      rw [slices, List.flatten_cons, ih (by omega) later, List.drop_take,
        Nat.add_sub_cancel_left, same, List.take_append_drop]

theorem CutRule.pieceEnds_slices {rule : CutRule α} (within : start ≤ data.length) :
    pieceEnds start (slices data start (rule.points start (data.drop start))) =
      rule.points start (data.drop start) := by
  generalize same : data.drop start = rest
  fun_induction rule.points start rest with
  | case1 => rfl
  | case2 start rest left positive nonempty ih =>
      have bounded := rule.within left
      have size : rest.length = data.length - start := by rw [← same, List.length_drop]
      have later : data.drop (start + rule.length rest) = rest.drop (rule.length rest) := by
        rw [← same, List.drop_drop]
      have long : ((data.take (start + rule.length rest)).drop start).length =
          rule.length rest := by
        rw [List.length_drop, List.length_take]
        omega
      rw [slices, pieceEnds, long, ih (by omega) later]

/-- Every piece is as long as the rule says of some rest, and every piece but the last of a rest
that it does not exhaust. -/
theorem CutRule.gaps_points {rule : CutRule α} {good : Nat → Prop}
    (early : ∀ rest : List α, rest ≠ [] → rule.length rest < rest.length →
      good (rule.length rest)) :
    ∀ length ∈ (gaps start (rule.points start rest)).dropLast, good length := by
  fun_induction rule.points start rest with
  | case1 => simp [gaps]
  | case2 start rest left positive nonempty ih =>
      have within := rule.within left
      rw [gaps, Nat.add_sub_cancel_left]
      by_cases last : rest.drop (rule.length rest) = []
      · simp [last, gaps]
      · have unfinished : rule.length rest < rest.length := by
          by_contra finished
          exact last (List.drop_eq_nil_iff.mpr (by omega))
        have others : gaps (start + rule.length rest)
            (rule.points (start + rule.length rest) (rest.drop (rule.length rest))) ≠ [] := by
          rw [points_of_ne_nil last]
          simp [gaps]
        rw [List.dropLast_cons_of_ne_nil others]
        intro length member
        rcases List.mem_cons.mp member with rfl | later
        · exact early rest left unfinished
        · exact ih length later

theorem CutRule.gaps_points_all {rule : CutRule α} {good : Nat → Prop}
    (each : ∀ rest : List α, rest ≠ [] → good (rule.length rest)) :
    ∀ length ∈ gaps start (rule.points start rest), good length := by
  fun_induction rule.points start rest with
  | case1 => simp [gaps]
  | case2 start rest left positive nonempty ih =>
      rw [gaps, Nat.add_sub_cancel_left]
      intro length member
      rcases List.mem_cons.mp member with rfl | later
      · exact each rest left
      · exact ih length later

end Stopan.Lib
