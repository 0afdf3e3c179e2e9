import Mathlib

namespace Stopan.Lib

variable {α : Type} (le : α → α → Prop) [DecidableRel le]

def keepLargest (k : Nat) (heap : List α) (item : α) : List α :=
  if heap.length < k then heap.orderedInsert le item
  else match heap with
    | [] => []
    | smallest :: rest =>
        if ¬ le item smallest then rest.orderedInsert le item else smallest :: rest

/-- The tail of a sorted list is a heap, and pushing on it gives the tail of the longer list. -/
theorem keepLargest_drop [IsTrans α le] {sorted : List α} (ordered : sorted.Pairwise le)
    (k : Nat) (item : α) :
    keepLargest le k (sorted.drop (sorted.length - k)) item =
      (sorted.orderedInsert le item).drop (sorted.length + 1 - k) := by
  induction sorted with
  | nil =>
      cases k with
      | zero => rfl
      | succ k => simp [keepLargest]
  | cons first rest ih =>
      rw [List.pairwise_cons] at ordered
      rw [List.length_cons]
      by_cases room : rest.length + 1 < k
      · have whole : rest.length + 1 - k = 0 := by omega
        have longer : rest.length + 1 + 1 - k = 0 := by omega
        rw [whole, longer, List.drop_zero, List.drop_zero, keepLargest,
          List.length_cons, if_pos room]
      by_cases full : rest.length + 1 = k
      · have whole : rest.length + 1 - k = 0 := by omega
        have longer : rest.length + 1 + 1 - k = 1 := by omega
        rw [whole, longer, List.drop_zero, keepLargest, List.length_cons, if_neg room,
          List.orderedInsert_cons]
        by_cases below : le item first
        · simp [below]
        · simp [below]
      · have dropped : rest.length + 1 - k = rest.length - k + 1 := by omega
        have longer : rest.length + 1 + 1 - k = rest.length + 1 - k + 1 := by omega
        rw [longer, List.orderedInsert_cons]
        by_cases below : le item first
        · rw [if_pos below, List.drop_succ_cons, dropped, List.drop_succ_cons]
          have count : (rest.drop (rest.length - k)).length = k := by
            rw [List.length_drop]
            omega
          cases kept : rest.drop (rest.length - k) with
          | nil =>
              rw [kept, List.length_nil] at count
              simp [keepLargest, ← count]
          | cons smallest others =>
              have member : smallest ∈ rest := List.mem_of_mem_drop (kept ▸ List.mem_cons_self)
              have above : le item smallest := IsTrans.trans _ _ _ below (ordered.1 smallest member)
              rw [kept] at count
              simp [keepLargest, count, above]
        · rw [if_neg below, List.drop_succ_cons, ← ih ordered.2, dropped, List.drop_succ_cons]

theorem foldl_keepLargest [IsTrans α le] [Std.Total le] (k : Nat) (items : List α) {sorted : List α}
    (ordered : sorted.Pairwise le) :
    ∃ all : List α, all.Pairwise le ∧ all.Perm (items ++ sorted) ∧
      items.foldl (keepLargest le k) (sorted.drop (sorted.length - k)) = all.drop
        (all.length - k) := by
  induction items generalizing sorted with
  | nil => exact ⟨sorted, ordered, .refl sorted, rfl⟩
  | cons item rest ih =>
      obtain ⟨all, allOrdered, permuted, folded⟩ := ih (ordered.orderedInsert item sorted)
      refine ⟨all, allOrdered, ?_, ?_⟩
      · have inserted : (rest ++ sorted.orderedInsert le item).Perm (rest ++ item :: sorted) :=
          (List.perm_orderedInsert le item sorted).append_left rest
        exact permuted.trans (inserted.trans List.perm_middle)
      · rw [List.foldl_cons, keepLargest_drop le ordered, ← folded, List.orderedInsert_length]

/-- An item is in the tail of a sorted list exactly if fewer than `k` items are larger. -/
theorem mem_drop_iff_of_sorted [Std.Refl le] [Std.Antisymm le] {sorted : List α} {item : α}
    (ordered : sorted.Pairwise le) (distinct : sorted.Nodup) (member : item ∈ sorted) (k : Nat) :
    item ∈ sorted.drop (sorted.length - k) ↔ sorted.countP (fun other => ¬ le other item) < k := by
  induction sorted with
  | nil => cases member
  | cons first rest ih =>
      rw [List.pairwise_cons] at ordered
      rw [List.nodup_cons] at distinct
      have below : le first item := by
        rcases List.mem_cons.mp member with rfl | later
        · exact Std.Refl.refl item
        · exact ordered.1 item later
      have counted : (first :: rest).countP (fun other => ¬ le other item) =
          rest.countP (fun other => ¬ le other item) := by
        rw [List.countP_cons_of_neg]
        simpa using below
      rw [counted, List.length_cons]
      by_cases room : rest.length + 1 ≤ k
      · have whole : rest.length + 1 - k = 0 := by omega
        have atMost : rest.countP (fun other => ¬ le other item) ≤ rest.length :=
          List.countP_le_length
        rw [whole, List.drop_zero]
        exact iff_of_true member (by omega)
      · have dropped : rest.length + 1 - k = rest.length - k + 1 := by omega
        rw [dropped, List.drop_succ_cons]
        rcases List.mem_cons.mp member with rfl | later
        · -- the smallest item: every other one is larger
          have all : rest.countP (fun other => ¬ le other item) = rest.length := by
            rw [List.countP_eq_length]
            intro other listed
            have larger : ¬ le other item := by
              intro reverse
              have same := antisymm (ordered.1 other listed) reverse
              exact distinct.1 (same ▸ listed)
            simpa using larger
          rw [all]
          exact iff_of_false (fun kept => distinct.1 (List.mem_of_mem_drop kept)) (by omega)
        · exact ih ordered.2 distinct.2 later

/-- What a bounded heap keeps of distinct items: those with fewer than `k` larger ones. -/
theorem mem_foldl_keepLargest_iff [IsTrans α le] [Std.Total le] [Std.Antisymm le] {items : List α}
    (distinct : items.Nodup) (k : Nat) (item : α) :
    item ∈ items.foldl (keepLargest le k) [] ↔ item ∈ items ∧
      items.countP (fun other => ¬ le other item) < k := by
  obtain ⟨all, ordered, permuted, folded⟩ := @foldl_keepLargest α le _ _ _ k items [] .nil
  rw [List.append_nil] at permuted
  rw [List.drop_nil] at folded
  rw [folded]
  have known : item ∈ all ↔ item ∈ items := permuted.mem_iff
  by_cases member : item ∈ all
  · rw [mem_drop_iff_of_sorted le ordered (permuted.nodup_iff.mpr distinct) member k,
      permuted.countP_eq]
    simp [known.mp member]
  · refine iff_of_false (fun kept => member (List.mem_of_mem_drop kept)) ?_
    exact fun present => member (known.mpr present.1)

/-- A bounded heap read backwards is the beginning of the items sorted from the largest on. -/
theorem reverse_foldl_keepLargest [IsTrans α le] [Std.Total le] [Std.Antisymm le]
    (k : Nat) (items : List α) : (items.foldl (keepLargest le k) []).reverse =
      (items.insertionSort fun left right => le right left).take k := by
  have total : Std.Total fun left right => le right left :=
    ⟨fun left right => Std.Total.total right left⟩
  have trans : IsTrans α fun left right => le right left :=
    ⟨fun _ _ _ first second => IsTrans.trans _ _ _ second first⟩
  have antisymm : Std.Antisymm fun left right => le right left :=
    ⟨fun left right first second => Std.Antisymm.antisymm left right second first⟩
  obtain ⟨all, ordered, permuted, folded⟩ := @foldl_keepLargest α le _ _ _ k items [] .nil
  rw [List.append_nil] at permuted
  rw [List.drop_nil] at folded
  have descending : all.reverse = items.insertionSort fun left right => le right left := by
    refine List.Perm.eq_of_pairwise' (List.pairwise_reverse.mpr ordered)
      (List.pairwise_insertionSort _ items) ?_
    exact (List.reverse_perm all).trans (permuted.trans (List.perm_insertionSort _ items).symm)
  rw [folded, ← descending, List.take_reverse]

section Ranking

variable {α : Type} [BEq α] [LawfulBEq α] {ranking : List α} {item : α} {k : Nat}

/-- What is not among the first `k` can be removed without a change to them. -/
theorem take_erase_of_not_mem (outside : item ∉ ranking.take k) :
    (ranking.erase item).take k = ranking.take k := by
  induction ranking generalizing k with
  | nil => rfl
  | cons first rest ih =>
      cases k with
      | zero => simp
      | succ k =>
          rw [List.take_succ_cons, List.mem_cons, not_or] at outside
          have different : ¬ (first == item) = true :=
            fun same => outside.1 (beq_iff_eq.mp same).symm
          rw [List.erase_cons, if_neg different, List.take_succ_cons,
            List.take_succ_cons, ih outside.2]

/-- A new item takes at most the last of the first `k` places from another one. -/
theorem erase_take_insert {before after : List α} (fresh : item ∉ before ++ after) :
    ((before ++ item :: after).take k).erase item = (before ++ after).take k ∨
      (item ∈ (before ++ item :: after).take k ∧ ((before ++ after).take k).length = k ∧
        ((before ++ item :: after).take k).erase item = ((before ++ after).take k).dropLast) := by
  have absent : item ∉ before := fun member => fresh (List.mem_append_left after member)
  by_cases beyond : k ≤ before.length
  · left
    rw [List.take_append_of_le_length beyond, List.take_append_of_le_length beyond]
    exact List.erase_of_not_mem fun member => absent (List.mem_of_mem_take member)
  · obtain ⟨room, size⟩ : ∃ room, k = before.length + (room + 1) :=
      ⟨k - before.length - 1, by omega⟩
    have taken : (before ++ item :: after).take k = before ++ item :: after.take room := by
      rw [size, List.take_append, List.take_of_length_le (by omega)]
      simp
    have erased : ((before ++ item :: after).take k).erase item = (before ++ after).take
        (before.length + room) := by
      have whole : before.take (before.length + room) = before := List.take_of_length_le (by omega)
      rw [taken, List.erase_append_right _ absent, List.erase_cons_head, List.take_append, whole]
      simp
    rw [erased]
    by_cases short : after.length ≤ room
    · left
      rw [List.take_of_length_le (by rw [List.length_append]; omega),
        List.take_of_length_le (by rw [List.length_append]; omega)]
    · have full : ((before ++ after).take k).length = k := by
        rw [List.length_take, List.length_append]
        omega
      right
      refine ⟨by simp [taken], full, ?_⟩
      rw [List.dropLast_eq_take, full, List.take_take]
      congr 1
      omega

end Ranking

end Stopan.Lib
