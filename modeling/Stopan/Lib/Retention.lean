import Mathlib

namespace Stopan.Lib

variable {α : Type}

section Sorting

variable {le : α → α → Prop} [DecidableRel le]

theorem filter_orderedInsert [IsTrans α le] (keep : α → Bool) (item : α) {items : List α}
    (sorted : items.Pairwise le) : (items.orderedInsert le item).filter keep =
      if keep item then (items.filter keep).orderedInsert le item else items.filter keep := by
  induction items with
  | nil => cases kept : keep item <;> simp [kept]
  | cons first rest ih =>
      obtain ⟨below, sortedRest⟩ := List.pairwise_cons.mp sorted
      by_cases before : le item first
      · have head : ∀ other ∈ (first :: rest).filter keep, le item other := by
          intro other member
          rcases List.mem_cons.mp (List.mem_of_mem_filter member) with rfl | later
          · exact before
          · exact IsTrans.trans item first other before (below other later)
        have inserted : ((first :: rest).filter keep).orderedInsert le item =
            item :: (first :: rest).filter keep := by
          cases filtered : (first :: rest).filter keep with
          | nil => rfl
          | cons other others =>
              rw [List.orderedInsert, if_pos (head other (filtered ▸ List.mem_cons_self))]
        rw [List.orderedInsert, if_pos before, List.filter_cons, inserted]
      · rw [List.orderedInsert, if_neg before, List.filter_cons, ih sortedRest, List.filter_cons]
        cases kept : keep first with
        | false => simp
        | true =>
            cases keptItem : keep item with
            | false => simp
            | true => simp [before]

/-- Sorting is stable, so a filter may come before or after. -/
theorem filter_insertionSort [IsTrans α le] [Std.Total le] (keep : α → Bool) (items : List α) :
    (items.insertionSort le).filter keep = (items.filter keep).insertionSort le := by
  induction items with
  | nil => rfl
  | cons item rest ih =>
      rw [List.insertionSort_cons,
        filter_orderedInsert keep item (List.pairwise_insertionSort le rest), ih, List.filter_cons]
      split <;> rfl

end Sorting

section Release

variable {size weight : α → Nat} {bytes count : Nat} {items : List α}

def total (measure : α → Nat) (items : List α) : Nat := (items.map measure).sum

@[simp] theorem total_cons (measure : α → Nat) (item : α) (rest : List α) :
    total measure (item :: rest) = measure item + total measure rest := by
  simp [total]

@[simp] theorem total_nil (measure : α → Nat) : total measure ([] : List α) = 0 := rfl

@[simp] theorem total_append (measure : α → Nat) (left right : List α) :
    total measure (left ++ right) = total measure left + total measure right := by
  simp [total]

@[simp] theorem total_one (items : List α) : total (fun _ => 1) items = items.length := by
  simp [total]

theorem total_perm {measure : α → Nat} {left right : List α} (same : left.Perm right) :
    total measure left = total measure right := (same.map measure).sum_eq

theorem total_le_of_sublist {measure : α → Nat} {left right : List α} (part : left.Sublist right) :
    total measure left ≤ total measure right :=
  (part.map measure).sum_le_sum fun _ _ => Nat.zero_le _

/-- The items that are let go, in order, until both needs are met. -/
def released (size weight : α → Nat) : Nat → Nat → List α → List α
  | _, _, [] => []
  | bytes, count, item :: rest =>
      if bytes = 0 ∧ count = 0 then []
      else item :: released size weight (bytes - size item) (count - weight item) rest

theorem released_of_met : released size weight 0 0 items = [] := by
  cases items with
  | nil => rfl
  | cons item rest => exact if_pos ⟨rfl, rfl⟩

theorem released_initial : released size weight bytes count items <+: items := by
  induction items generalizing bytes count with
  | nil => exact List.prefix_refl _
  | cons item rest ih =>
      rw [released]
      split
      · exact List.nil_prefix
      · exact List.prefix_cons_inj item |>.mpr ih

/-- Needs that all items together can meet are met. -/
theorem released_enough (enoughBytes : bytes ≤ total size items)
    (enoughCount : count ≤ total weight items) :
    bytes ≤ total size (released size weight bytes count items) ∧
      count ≤ total weight (released size weight bytes count items) := by
  induction items generalizing bytes count with
  | nil => exact ⟨enoughBytes, enoughCount⟩
  | cons item rest ih =>
      rw [released]
      split
      · rename_i met
        simp [met]
      · rw [total_cons] at enoughBytes enoughCount
        have later := @ih (bytes - size item) (count - weight item) (by omega) (by omega)
        rw [total_cons, total_cons]
        omega

/-- Two measures of the count that agree on what is let go let the same items go. -/
theorem released_congr {other : α → Nat}
    (agree : ∀ item ∈ released size weight bytes count items, weight item = other item) :
    released size other bytes count items = released size weight bytes count items := by
  induction items generalizing bytes count with
  | nil => rfl
  | cons item rest ih =>
      rw [released] at agree
      rw [released, released]
      split
      · rfl
      · rename_i unmet
        rw [if_neg unmet] at agree
        rw [← agree item List.mem_cons_self,
          ih fun later member => agree later (List.mem_cons_of_mem item member)]

end Release

section Newest

variable {fits : List α → Prop} [DecidablePred fits] {items : List α}

/-- The longest suffix that fits. -/
def newest (fits : List α → Prop) [DecidablePred fits] : List α → List α
  | [] => []
  | item :: rest => if fits (item :: rest) then item :: rest else newest fits rest

theorem newest_suffix : newest fits items <:+ items := by
  induction items with
  | nil => exact List.suffix_refl _
  | cons item rest ih =>
      rw [newest]
      split
      · exact List.suffix_refl _
      · exact ih.trans (List.suffix_cons item rest)

/-- To meet the excess over two limits item by item is to keep the newest items within the
limits. -/
theorem released_append_newest {size : α → Nat} {maxBytes maxCount : Nat} :
    released size (fun _ => 1) (total size items - maxBytes) (items.length - maxCount) items ++
      newest (fun kept => total size kept ≤ maxBytes ∧ kept.length ≤ maxCount) items = items := by
  induction items with
  | nil => rfl
  | cons item rest ih =>
      by_cases fit : total size (item :: rest) ≤ maxBytes ∧ (item :: rest).length ≤ maxCount
      · have met : total size (item :: rest) - maxBytes = 0 ∧
          (item :: rest).length - maxCount = 0 := by omega
        rw [released, newest, if_pos met, if_pos fit, List.nil_append]
      · have unmet : ¬ (total size (item :: rest) - maxBytes = 0 ∧
          (item :: rest).length - maxCount = 0) := by omega
        have bytes : total size (item :: rest) - maxBytes - size item =
            total size rest - maxBytes := by
          rw [total_cons]
          omega
        have count : (item :: rest).length - maxCount - 1 = rest.length - maxCount := by
          rw [List.length_cons]
          omega
        rw [released, newest, if_neg unmet, if_neg fit, bytes, count, List.cons_append, ih]

/-- What fits matters only for the suffixes of the list. -/
theorem newest_congr {other : List α → Prop} [DecidablePred other]
    (agree : ∀ kept, kept <:+ items → (fits kept ↔ other kept)) :
    newest fits items = newest other items := by
  induction items with
  | nil => rfl
  | cons item rest ih =>
      rw [newest, newest,
        ih fun kept suffix => agree kept (suffix.trans (List.suffix_cons item rest))]
      by_cases fit : fits (item :: rest)
      · rw [if_pos fit, if_pos ((agree _ (List.suffix_refl _)).mp fit)]
      · rw [if_neg fit, if_neg fun otherFit => fit ((agree _ (List.suffix_refl _)).mpr otherFit)]

/-- The same without a limit on the number of items. -/
theorem released_append_newest_bytes {size : α → Nat} {maxBytes : Nat} :
    released size (fun _ => 1) (total size items - maxBytes) 0 items ++ newest
      (fun kept => total size kept ≤ maxBytes) items = items := by
  have unlimited : newest (fun kept => total size kept ≤ maxBytes) items =
      newest (fun kept => total size kept ≤ maxBytes ∧ kept.length ≤ items.length) items :=
    newest_congr fun kept suffix => ⟨fun fit => ⟨fit, suffix.length_le⟩, And.left⟩
  have limited := @released_append_newest _ items size maxBytes items.length
  rwa [Nat.sub_self, ← unlimited] at limited

end Newest

end Stopan.Lib
