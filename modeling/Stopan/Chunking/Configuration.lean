import Stopan.Chunking.FileChunker

namespace Stopan.Chunking

open Stopan.Lib Stopan.Common

section Accepted

variable {avgSize minSize maxSize : Int} {chunker : FileChunker}

end Accepted

namespace BoundaryIterator

variable {iterator : BoundaryIterator}

end BoundaryIterator

/-- Where a search can begin: behind some whole chunks, each of which has a size between the
smallest and the largest. -/
def BoundaryIterator.AtSearchStart (iterator : BoundaryIterator) : Prop :=
  ∃ count : Nat, count * iterator.minSize ≤ iterator.lastSplit ∧
    iterator.lastSplit ≤ count * iterator.maxSize

/-- The sums of the search fit wherever it can begin in a buffer of this length. -/
def FastCdcSizes.SumsFit (sizes : FastCdcSizes) (length : Nat) : Prop :=
  ∀ iterator : BoundaryIterator, iterator.toFastCdcSizes = sizes → iterator.data.length = length →
    iterator.inNext = false → iterator.AtSearchStart → iterator.iternext.1 ≠ .overflowed

namespace BoundaryIterator

variable {iterator : BoundaryIterator}

/-- The next search begins behind the chunk that was found, if that was not the last one. -/
theorem AtSearchStart.moveTo (start : iterator.AtSearchStart) {offset : Nat}
    (found : offset = iterator.lastSplit + iterator.cutLength
      (iterator.data.drop iterator.lastSplit)) :
    (iterator.moveTo offset).AtSearchStart ∨ iterator.data.length ≤ offset := by
  have rest : (iterator.data.drop iterator.lastSplit).length = iterator.data.length -
      iterator.lastSplit :=
    List.length_drop
  by_cases unfinished :
      iterator.cutLength (iterator.data.drop iterator.lastSplit) <
        (iterator.data.drop iterator.lastSplit).length
  · obtain ⟨count, least, most⟩ := start
    have smallest := FastCdcSizes.minSize_le_of_unfinished unfinished
    have largest := @FastCdcSizes.cutLength_le_maxSize
      (iterator.data.drop iterator.lastSplit) iterator.toFastCdcSizes
    refine .inl ⟨count + 1, ?_, ?_⟩
    · change (count + 1) * iterator.minSize ≤ offset
      rw [Nat.succ_mul]
      omega
    · change offset ≤ (count + 1) * iterator.maxSize
      rw [Nat.succ_mul]
      omega
  · right
    omega

end BoundaryIterator

namespace FastCdcSizes

variable {sizes : FastCdcSizes}

/-- Then the iteration over such a buffer does without an overflow to its end. -/
theorem SumsFit.drain {data : Bytes} (fit : sizes.SumsFit data.length) (fuel : Nat)
    (iterator : BoundaryIterator) (same : iterator.toFastCdcSizes = sizes)
    (sameData : iterator.data = data) (idle : iterator.inNext = false)
    (start : iterator.AtSearchStart ∨ data.length ≤ iterator.lastSplit) :
    (iterator.drain fuel).2 ≠ .overflowed := by
  induction fuel generalizing iterator with
  | zero => exact StreamEnd.noConfusion
  | succ fuel ih =>
      rw [BoundaryIterator.drain]
      rcases BoundaryIterator.iternext_cases idle with ⟨-, stop⟩ |
        ⟨left, overflow, -⟩ | ⟨left, found⟩
      · rw [stop]
        exact StreamEnd.noConfusion
      · rcases start with start | past
        · exact absurd overflow (fit iterator same (congrArg List.length sameData) idle start)
        · exact absurd (List.drop_eq_nil_of_le (sameData ▸ past)) left
      · rw [found]
        rcases start with start | past
        · exact ih _ same sameData idle (sameData ▸ start.moveTo rfl)
        · exact absurd (List.drop_eq_nil_of_le (sameData ▸ past)) left

end FastCdcSizes

end Stopan.Chunking
