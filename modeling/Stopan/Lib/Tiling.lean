import Mathlib

namespace Stopan.Lib

variable {α : Type} {offset length : α → Nat} {start stop position : Nat} {pieces : List α}

/-- Nonempty pieces that follow each other from `start` to `stop`. -/
def Tiles (offset length : α → Nat) : Nat → List α → Nat → Prop
  | start, [], stop => start = stop
  | start, piece :: rest, stop =>
      offset piece = start ∧ 0 < length piece ∧ Tiles offset length (start + length piece) rest stop

theorem Tiles.start_le (tiled : Tiles offset length start pieces stop) : start ≤ stop := by
  induction pieces generalizing start with
  | nil => exact tiled.le
  | cons piece rest ih =>
      have later := ih tiled.2.2
      omega

theorem Tiles.count_le (tiled : Tiles offset length start pieces stop) :
    start + pieces.length ≤ stop := by
  induction pieces generalizing start with
  | nil => exact tiled.le
  | cons piece rest ih =>
      have later := ih tiled.2.2
      have positive := tiled.2.1
      rw [List.length_cons]
      omega

theorem Tiles.bounds (tiled : Tiles offset length start pieces stop) {piece : α}
    (member : piece ∈ pieces) :
    start ≤ offset piece ∧ 0 < length piece ∧ offset piece + length piece ≤ stop := by
  induction pieces generalizing start with
  | nil => cases member
  | cons first rest ih =>
      obtain ⟨here, positive, others⟩ := tiled
      cases member with
      | head =>
          have after := others.start_le
          omega
      | tail _ later =>
          have bounded := ih others later
          omega

/-- A position is inside a piece. -/
def Covers (offset length : α → Nat) (piece : α) (position : Nat) : Prop :=
  offset piece ≤ position ∧ position < offset piece + length piece

/-- No gap and no overlap: every position of the range is inside exactly one piece. -/
theorem Tiles.existsUnique (tiled : Tiles offset length start pieces stop) (low : start ≤ position)
    (high : position < stop) : ∃! piece, piece ∈ pieces ∧ Covers offset length piece position := by
  induction pieces generalizing start with
  | nil =>
      have none : start = stop := tiled
      omega
  | cons first rest ih =>
      obtain ⟨here, positive, others⟩ := tiled
      by_cases inside : position < start + length first
      · refine ⟨first, ⟨by simp, by omega, by omega⟩, ?_⟩
        rintro other ⟨member, covers⟩
        cases member with
        | head => rfl
        | tail _ later =>
            have bounded := others.bounds later
            have reaches := covers.1
            omega
      · obtain ⟨piece, ⟨member, covers⟩, unique⟩ := ih others (by omega)
        refine ⟨piece, ⟨.tail _ member, covers⟩, ?_⟩
        rintro other ⟨listed, covered⟩
        cases listed with
        | head =>
            have reaches := covered.2
            omega
        | tail _ later => exact unique other ⟨later, covered⟩

/-- A tiling cannot go on after it has reached the end. -/
theorem Tiles.eq_nil_of_append {more : List α}
    (tiled : Tiles offset length start (pieces ++ more) stop)
    (reached : Tiles offset length start pieces stop) : more = [] := by
  induction pieces generalizing start with
  | nil =>
      cases more with
      | nil => rfl
      | cons piece rest =>
          have after := tiled.2.2.start_le
          have positive := tiled.2.1
          have same : start = stop := reached
          omega
  | cons piece rest ih => exact ih tiled.2.2 reached.2.2

theorem Tiles.concat {piece : α} (tiled : Tiles offset length start pieces stop)
    (here : offset piece = stop) (positive : 0 < length piece) :
    Tiles offset length start (pieces ++ [piece]) (stop + length piece) := by
  induction pieces generalizing start with
  | nil =>
      have same : start = stop := tiled
      subst same
      exact ⟨here, positive, rfl⟩
  | cons first rest ih => exact ⟨tiled.1, tiled.2.1, ih tiled.2.2⟩

theorem Tiles.map {β : Type} {otherOffset otherLength : β → Nat} {change : α → β}
    (tiled : Tiles offset length start pieces stop)
    (sameOffset : ∀ piece, otherOffset (change piece) = offset piece)
    (sameLength : ∀ piece, otherLength (change piece) = length piece) :
    Tiles otherOffset otherLength start (pieces.map change) stop := by
  induction pieces generalizing start with
  | nil => exact tiled
  | cons piece rest ih =>
      refine ⟨(sameOffset piece).trans tiled.1, (sameLength piece).symm ▸ tiled.2.1, ?_⟩
      rw [sameLength]
      exact ih tiled.2.2

variable {key : α → Nat} {rows stored : List α}

/-- The rows carry the numbers `0, 1, 2, …` in this order. -/
def Numbered (key : α → Nat) (rows : List α) : Prop := rows.map key = List.range rows.length

theorem Numbered.key_getElem (numbered : Numbered key rows) {index : Nat}
    (bound : index < rows.length) :
    key rows[index] = index := by
  have same := congrArg (·[index]?) numbered
  simpa [bound] using same

theorem Numbered.lt_length (numbered : Numbered key rows) {row : α} (member : row ∈ rows) :
    key row < rows.length := by
  have listed : key row ∈ rows.map key := List.mem_map_of_mem member
  rw [numbered] at listed
  exact List.mem_range.mp listed

theorem Numbered.exists_row (numbered : Numbered key rows) {index : Nat}
    (bound : index < rows.length) :
    ∃ row ∈ rows, key row = index :=
  ⟨rows[index], List.getElem_mem bound, numbered.key_getElem bound⟩

theorem Numbered.injective (numbered : Numbered key rows) {left right : α}
    (leftMember : left ∈ rows)
    (rightMember : right ∈ rows) (same : key left = key right) : left = right := by
  have distinct : (rows.map key).Nodup := numbered ▸ List.nodup_range
  exact List.inj_on_of_nodup_map distinct leftMember rightMember same

theorem Numbered.nodup (numbered : Numbered key rows) : rows.Nodup := by
  apply List.Nodup.of_map key
  rw [numbered]
  exact List.nodup_range

theorem Numbered.take (numbered : Numbered key rows) (count : Nat) :
    Numbered key (rows.take count) := by
  have same := congrArg (List.take count) numbered
  rw [← List.map_take, List.take_range] at same
  rw [Numbered, List.length_take]
  exact same

theorem Numbered.concat {row : α} (numbered : Numbered key rows) (next : key row = rows.length) :
    Numbered key (rows ++ [row]) := by
  rw [Numbered, List.map_append, numbered, List.length_append,
    List.length_singleton, List.range_succ]
  simp [next]

/-- Numbered rows that all occur among other numbered rows are their beginning. -/
theorem Numbered.isPrefix (numbered : Numbered key rows) (others : Numbered key stored)
    (known : ∀ row ∈ rows, row ∈ stored) : rows <+: stored := by
  have short : rows.length ≤ stored.length := (numbered.nodup.subperm known).length_le
  rw [List.prefix_iff_eq_take]
  apply List.ext_getElem (by simp [short])
  intro index bound within
  rw [List.getElem_take]
  refine others.injective (known _ (List.getElem_mem bound)) (List.getElem_mem _) ?_
  rw [numbered.key_getElem bound, others.key_getElem]

/-- Two numbered tilings of one range, the first of which repeats the pieces of the second as far as
the numbers of the second go, are the same. -/
theorem Numbered.eq_of_tiles (numbered : Numbered key rows) (others : Numbered key stored)
    (tiled : Tiles offset length start rows stop) (reached : Tiles offset length start stored stop)
    (repeats : ∀ row ∈ rows, key row < stored.length → row ∈ stored) : rows = stored := by
  have beginning : rows.take stored.length <+: stored := by
    refine (numbered.take _).isPrefix others ?_
    intro row member
    have bound := (numbered.take stored.length).lt_length member
    rw [List.length_take] at bound
    exact repeats row (List.mem_of_mem_take member) (by omega)
  obtain ⟨missing, split⟩ := beginning
  by_cases longer : stored.length ≤ rows.length
  · have complete : rows.take stored.length = stored := by
      apply List.IsPrefix.eq_of_length ⟨missing, split⟩
      rw [List.length_take]
      omega
    rw [← List.take_append_drop stored.length rows, complete] at tiled
    have rest := tiled.eq_nil_of_append reached
    rw [← List.take_append_drop stored.length rows, complete, rest, List.append_nil]
  · rw [List.take_of_length_le (by omega)] at split
    rw [← split] at reached
    have rest := reached.eq_nil_of_append tiled
    rw [← split, rest, List.append_nil]

/-- Reading a set of rows in the order of their numbers. -/
def readInOrder (key : α → Nat) (stored : List α) : List α :=
  stored.insertionSort fun left right => key left ≤ key right

theorem mem_readInOrder {row : α} : row ∈ readInOrder key stored ↔ row ∈ stored :=
  List.mem_insertionSort _

theorem readInOrder_eq_of_numbered (numbered : Numbered key rows) (distinct : stored.Nodup)
    (same : ∀ row, row ∈ stored ↔ row ∈ rows) : readInOrder key stored = rows := by
  have permuted : (readInOrder key stored).Perm rows :=
    (List.perm_insertionSort _ stored).trans
      ((List.perm_ext_iff_of_nodup distinct numbered.nodup).mpr same)
  have ordered : (readInOrder key stored).Pairwise fun left right => key left ≤ key right := by
    have total : Std.Total fun left right : α => key left ≤ key right :=
      ⟨fun left right => Nat.le_total _ _⟩
    have transitive : IsTrans α fun left right => key left ≤ key right :=
      ⟨fun _ _ _ => Nat.le_trans⟩
    exact List.pairwise_insertionSort _ stored
  have increasing : rows.Pairwise fun left right => key left ≤ key right := by
    have sorted : (rows.map key).Pairwise (· ≤ ·) := numbered ▸ List.pairwise_le_range
    exact List.pairwise_map.mp sorted
  refine List.Perm.eq_of_pairwise ?_ ordered increasing permuted
  intro left right _ rightMember below above
  exact numbered.injective (permuted.mem_iff.mp ‹_›) rightMember (Nat.le_antisymm below above)

end Stopan.Lib
