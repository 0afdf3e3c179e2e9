import Mathlib

namespace Stopan.Lib

variable {α κ : Type} {le : α → α → Prop} [DecidableRel le]

/-- What a stable sort of `before ++ item :: after` puts in front of the item: what stands before it
and is not larger, and what stands behind it and is smaller. -/
def sortedAhead (le : α → α → Prop) [DecidableRel le] (before : List α) (item : α)
    (after : List α) : List α :=
  before.filter (fun other => le other item) ++ after.filter fun other => ¬ le item other

variable {before after items front back : List α} {item value : α}

theorem sortedAhead_cons_of_le (first : le value item) :
    sortedAhead le (value :: before) item after = value :: sortedAhead le before item after := by
  simp [sortedAhead, first]

theorem sortedAhead_cons_of_not_le (later : ¬ le value item) :
    sortedAhead le (value :: before) item after = sortedAhead le before item after := by
  simp [sortedAhead, later]

/-- Where an insertion puts the value. -/
theorem exists_orderedInsert_eq [IsTrans α le] {sorted : List α} (ordered : sorted.Pairwise le)
    (value : α) :
    ∃ smaller others, sorted.orderedInsert le value = smaller ++ value :: others ∧
      sorted = smaller ++ others ∧
      (∀ other ∈ smaller, ¬ le value other) ∧ ∀ other ∈ others, le value other := by
  induction sorted with
  | nil => exact ⟨[], [], rfl, rfl, by simp, by simp⟩
  | cons head rest ih =>
      rw [List.pairwise_cons] at ordered
      by_cases first : le value head
      · refine ⟨[], head :: rest, List.orderedInsert_cons_of_le _ _ first, rfl, by simp,
          fun other member => ?_⟩
        rcases List.mem_cons.mp member with rfl | later
        · exact first
        · exact IsTrans.trans _ _ _ first (ordered.1 other later)
      · obtain ⟨smaller, others, inserted, split, below, above⟩ := ih ordered.2
        refine ⟨head :: smaller, others, ?_, by rw [split]; rfl, ?_, above⟩
        · rw [List.orderedInsert_of_not_le _ _ first, inserted, List.cons_append]
        · intro other member
          rcases List.mem_cons.mp member with rfl | later
          · exact first
          · exact below other later

theorem perm_sortedAhead_of_split {rest smaller others : List α}
    (split : rest.insertionSort le = smaller ++ others)
    (below : ∀ other ∈ smaller, ¬ le value other) (above : ∀ other ∈ others, le value other) :
    smaller.Perm (sortedAhead le [] value rest) := by
  have ahead : smaller = (rest.insertionSort le).filter fun other => ¬ le value other := by
    rw [split, List.filter_append, List.filter_eq_self.mpr (by simpa using below),
      List.filter_eq_nil_iff.mpr (by simpa using above), List.append_nil]
  rw [ahead]
  exact (List.perm_insertionSort le rest).filter _

variable [Std.Total le] [IsTrans α le]

/-- Every place of the sorted list is that of one item, which has `sortedAhead` in front of it. -/
theorem exists_split_of_insertionSort (sorted : items.insertionSort le = front ++ item :: back) :
    ∃ before after, items = before ++ item :: after ∧
      front.Perm (sortedAhead le before item after) := by
  induction items generalizing front back with
  | nil => simp at sorted
  | cons value rest ih =>
      obtain ⟨smaller, others, inserted, split, below, above⟩ :=
        exists_orderedInsert_eq (List.pairwise_insertionSort le rest) value
      have own := perm_sortedAhead_of_split split below above
      rw [List.insertionSort_cons, inserted] at sorted
      rcases List.append_eq_append_iff.mp sorted with ⟨middle, rfl, tail⟩ | ⟨middle, rfl, tail⟩
      · cases middle with
        | nil =>
            rw [List.nil_append, List.cons.injEq] at tail
            obtain ⟨rfl, rfl⟩ := tail
            exact ⟨[], rest, rfl, (List.append_nil smaller).symm ▸ own⟩
        | cons head middle =>
            -- an item behind the value
            rw [List.cons_append, List.cons.injEq] at tail
            obtain ⟨rfl, rfl⟩ := tail
            rw [← List.append_assoc] at split
            obtain ⟨before, after, rfl, ahead⟩ := ih split
            refine ⟨value :: before, after, rfl, ?_⟩
            rw [sortedAhead_cons_of_le (above item (by simp))]
            exact List.perm_middle.trans (ahead.cons value)
      · cases middle with
        | nil =>
            rw [List.nil_append, List.cons.injEq] at tail
            obtain ⟨rfl, rfl⟩ := tail
            exact ⟨[], rest, rfl, List.append_nil front ▸ own⟩
        | cons head middle =>
            -- an item in front of the value
            rw [List.cons_append, List.cons.injEq] at tail
            obtain ⟨rfl, rfl⟩ := tail
            rw [List.append_assoc, List.cons_append] at split
            obtain ⟨before, after, rfl, ahead⟩ := ih split
            refine ⟨value :: before, after, rfl, ?_⟩
            rw [sortedAhead_cons_of_not_le (below item (by simp))]
            exact ahead

/-- Every item has a place in the sorted list, with `sortedAhead` in front of it. -/
theorem exists_insertionSort_of_split (before : List α) (item : α) (after : List α) :
    ∃ front back, (before ++ item :: after).insertionSort le = front ++ item :: back ∧
      front.Perm (sortedAhead le before item after) := by
  induction before with
  | nil =>
      obtain ⟨smaller, others, inserted, split, below, above⟩ :=
        exists_orderedInsert_eq (List.pairwise_insertionSort le after) item
      exact ⟨smaller, others, inserted, perm_sortedAhead_of_split split below above⟩
  | cons value rest ih =>
      obtain ⟨front, back, sorted, ahead⟩ := ih
      obtain ⟨smaller, others, inserted, split, below, above⟩ :=
        exists_orderedInsert_eq (List.pairwise_insertionSort le (rest ++ item :: after)) value
      rw [List.cons_append, List.insertionSort_cons, inserted]
      rcases List.append_eq_append_iff.mp (split.symm.trans sorted) with ⟨middle, rfl, rfl⟩ |
        ⟨middle, rfl, tail⟩
      · refine ⟨smaller ++ value :: middle, back, by simp, ?_⟩
        rw [sortedAhead_cons_of_le (above item (by simp))]
        exact List.perm_middle.trans (ahead.cons value)
      · cases middle with
        | nil =>
            rw [List.nil_append] at tail
            refine ⟨front ++ [value], back, by simp [tail], ?_⟩
            rw [sortedAhead_cons_of_le (above item (by simp [← tail]))]
            exact (List.perm_append_singleton value front).trans (ahead.cons value)
        | cons head middle =>
            rw [List.cons_append, List.cons.injEq] at tail
            obtain ⟨rfl, rfl⟩ := tail
            refine ⟨front, middle ++ value :: others, by simp, ?_⟩
            rw [sortedAhead_cons_of_not_le (below item (by simp))]
            exact ahead

omit [DecidableRel le] [Std.Total le] [IsTrans α le] in
theorem take_append_cons {count : Nat} (inside : front.length < count) (item : α) (back : List α) :
    (front ++ item :: back).take count = front ++ item :: back.take (count - front.length - 1) := by
  obtain ⟨more, rfl⟩ := Nat.exists_eq_add_of_lt inside
  rw [List.take_append, List.take_of_length_le (by omega)]
  have rest : front.length + more + 1 - front.length = more + 1 := by omega
  rw [rest, List.take_succ_cons, Nat.add_sub_cancel]

/-- The items that the sorted list begins with are those with few items ahead of them. -/
theorem forall_take_insertionSort_iff {P : α → Prop} {count : Nat} :
    (∀ item ∈ (items.insertionSort le).take count, P item) ↔
      ∀ before item after, items = before ++ item :: after →
        (sortedAhead le before item after).length < count → P item := by
  constructor
  · rintro each before item after rfl few
    obtain ⟨front, back, sorted, ahead⟩ :=
      @exists_insertionSort_of_split _ le _ _ _ before item after
    rw [sorted, take_append_cons (ahead.length_eq ▸ few)] at each
    exact each item (by simp)
  · intro each item member
    obtain ⟨front, back, taken⟩ := List.append_of_mem member
    have sorted := List.take_append_drop count (items.insertionSort le)
    rw [taken, List.append_assoc, List.cons_append] at sorted
    obtain ⟨before, after, split, ahead⟩ := exists_split_of_insertionSort sorted.symm
    refine each before item after split ?_
    have size := congrArg List.length taken
    rw [List.length_take, List.length_append, List.length_cons] at size
    rw [← ahead.length_eq]
    omega

omit [DecidableRel le] [Std.Total le] [IsTrans α le] in
theorem nodup_map_iff_split {key : α → κ} :
    (items.map key).Nodup ↔ ∀ front item back, items = front ++ item :: back →
      key item ∉ front.map key := by
  constructor
  · rintro distinct front item back rfl repeated
    rw [List.map_append, List.nodup_append] at distinct
    exact distinct.2.2 _ repeated _ (List.mem_map_of_mem List.mem_cons_self) rfl
  · intro fresh
    induction items using List.reverseRecOn with
    | nil => exact .nil
    | append_singleton first last ih =>
        rw [List.map_append, List.nodup_append]
        refine ⟨ih fun front item back split => fresh front item (back ++ [last]) (by simp [split]),
          by simp, ?_⟩
        rintro _ listed _ isLast rfl
        rw [List.map_singleton, List.mem_singleton] at isLast
        exact fresh first last [] rfl (isLast ▸ listed)

/-- Their keys are distinct if none of them has the key of an item that stood before it. -/
theorem nodup_take_insertionSort_iff {key : α → κ}
    (ties : ∀ left right, key left = key right → le left right) {count : Nat} :
    (((items.insertionSort le).take count).map key).Nodup ↔
      ∀ before item after, items = before ++ item :: after →
        (sortedAhead le before item after).length < count → key item ∉ before.map key := by
  rw [nodup_map_iff_split]
  constructor
  · rintro fresh before item after rfl few repeated
    obtain ⟨other, earlier, same⟩ := List.mem_map.mp repeated
    obtain ⟨front, back, sorted, ahead⟩ :=
      @exists_insertionSort_of_split _ le _ _ _ before item after
    rw [sorted, take_append_cons (ahead.length_eq ▸ few)] at fresh
    refine fresh front item _ rfl (List.mem_map.mpr ⟨other, ahead.mem_iff.mpr ?_, same⟩)
    rw [sortedAhead, List.mem_append, List.mem_filter]
    exact .inl ⟨earlier, decide_eq_true (ties other item same)⟩
  · intro fresh front item back taken repeated
    obtain ⟨other, inFront, same⟩ := List.mem_map.mp repeated
    have sorted := List.take_append_drop count (items.insertionSort le)
    rw [taken, List.append_assoc, List.cons_append] at sorted
    obtain ⟨before, after, split, ahead⟩ := exists_split_of_insertionSort sorted.symm
    have size := congrArg List.length taken
    rw [List.length_take, List.length_append, List.length_cons] at size
    refine fresh before item after split (by rw [← ahead.length_eq]; omega)
      (List.mem_map.mpr ⟨other, ?_, same⟩)
    have isAhead := ahead.mem_iff.mp inFront
    rw [sortedAhead, List.mem_append, List.mem_filter, List.mem_filter] at isAhead
    rcases isAhead with ⟨earlier, -⟩ | ⟨-, smaller⟩
    · exact earlier
    · simp [ties item other same.symm] at smaller

end Stopan.Lib
