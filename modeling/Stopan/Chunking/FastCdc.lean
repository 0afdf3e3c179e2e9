import Stopan.Lib.Cuts
import Stopan.Lib.Result
import Stopan.Common.Basic

/-!
The native FastCDC boundary iterator (`stopan/chunking/fastcdc.c`).

`Py_ssize_t` values are numbers whose sums are checked: a sum that does not fit is undefined in C,
and the model says so instead of giving a result.
-/

namespace Stopan.Chunking

open Stopan.Lib Stopan.Common

def gearSeed : UInt64 := 0x123456789abcdef0

def gearNext (value : UInt64) : UInt64 :=
  let value := value ^^^ (value <<< 13)
  let value := value ^^^ (value >>> 7)
  value ^^^ (value <<< 17)

/-- The loop of `init_tables`. -/
def gearValues : Nat → UInt64 → List UInt64
  | 0, _ => []
  | count + 1, value => gearNext value :: gearValues count (gearNext value)

def gearTable (byte : UInt8) : UInt64 := (gearValues 256 gearSeed).getD byte.toNat 0

def fastcdcWindowBits : Int := 48
def fastcdcNormalizationLevel : Int := 2
def fastcdcMaskS8k : UInt64 := 0x0000d9f003530000
def fastcdcMaskL8k : UInt64 := 0x0000d90003530000

/-- The number of halvings is the position of the only bit. -/
def powerOfTwoLog2 (value : Int) : Int :=
  if value ≤ 0 then -1
  else if value.toNat &&& (value.toNat - 1) ≠ 0 then -1
  else Nat.log2 value.toNat

def spreadMask (effectiveBits : Int) : UInt64 :=
  if effectiveBits ≤ 0 ∨ fastcdcWindowBits < effectiveBits then 0
  else if effectiveBits = 1 then (1 : UInt64) <<< 47
  else
    (List.range effectiveBits.toNat).foldl
      (fun mask index =>
        mask ||| ((1 : UInt64) <<< UInt64.ofNat (index * 47 / (effectiveBits.toNat - 1)))) 0

/-- The masks before and after the average size. -/
def buildMasks (avgSize : Int) : Option (UInt64 × UInt64) :=
  let avgBits := powerOfTwoLog2 avgSize
  if avgBits < 0 then none
  else
    let strongBits := avgBits + fastcdcNormalizationLevel
    let relaxedBits := avgBits - fastcdcNormalizationLevel
    if relaxedBits ≤ 0 ∨ fastcdcWindowBits < strongBits then none
    else if avgSize = 8192 then some (fastcdcMaskS8k, fastcdcMaskL8k)
    else if spreadMask strongBits ≠ 0 ∧ spreadMask relaxedBits ≠ 0 then
      some (spreadMask strongBits, spreadMask relaxedBits)
    else none

def pySsizeMax : Nat := 2 ^ 63 - 1

/-- A sum of two `Py_ssize_t` values, when it fits. -/
def addSsize (left right : Nat) : Option Nat :=
  if left + right ≤ pySsizeMax then some (left + right) else none

/-- What `iter_boundaries` accepts. -/
structure FastCdcSizes where
  minSize : Nat
  avgSize : Nat
  maxSize : Nat
  preAvgMask : UInt64
  postAvgMask : UInt64
  minPositive : 0 < minSize
  minLeAvg : minSize ≤ avgSize
  avgLeMax : avgSize ≤ maxSize

structure BoundaryIterator extends FastCdcSizes where
  data : Bytes
  lastSplit : Nat
  inNext : Bool

/-- How one of the two loops of `BoundaryIterator_next_boundary` is left. -/
inductive LoopExit where
  | cut (candidate : Nat)
  | passed (candidate : Nat) (fingerprint : UInt64)
  deriving DecidableEq, Repr

/-- `for (; candidate < limit; candidate++)`, which has `limit - candidate` rounds. -/
def gearLoop (data : Bytes) (mask : UInt64) : Nat → Nat → UInt64 → LoopExit
  | 0, candidate, fingerprint => .passed candidate fingerprint
  | rounds + 1, candidate, fingerprint =>
      let rolled := (fingerprint <<< 1) + gearTable (data.getD (candidate - 1) 0)
      if rolled &&& mask = 0 then .cut candidate
        else gearLoop data mask rounds (candidate + 1) rolled

/-- The strict loop up to `normalSplit`, then the relaxed one up to `maxSplit`. -/
def scanBoundary (sizes : FastCdcSizes) (data : Bytes)
    (candidate normalSplit maxSplit : Nat) : Nat :=
  match gearLoop data sizes.preAvgMask (normalSplit - candidate) candidate 0 with
  | .cut found => found
  | .passed reached fingerprint =>
      match gearLoop data sizes.postAvgMask (maxSplit - reached) reached fingerprint with
      | .cut found => found
      | .passed _ _ => maxSplit

def BoundaryIterator.nextBoundary (iterator : BoundaryIterator) : Option Nat := do
  let farthest ← addSsize iterator.lastSplit iterator.maxSize
  let maxSplit := if farthest > iterator.data.length then iterator.data.length else farthest
  let normal ← addSsize iterator.lastSplit iterator.avgSize
  let normalSplit := if normal > maxSplit then maxSplit else normal
  let candidate ← addSsize iterator.lastSplit iterator.minSize
  return scanBoundary iterator.toFastCdcSizes iterator.data candidate normalSplit maxSplit

/-- What a call of `next()` does. -/
inductive NextResult where
  | stopIteration
  | boundary (offset : Nat)
  | raised (error : StopanError)
  | overflowed
  deriving DecidableEq, Repr

def BoundaryIterator.iternext (iterator : BoundaryIterator) : NextResult × BoundaryIterator :=
  if iterator.data.length ≤ iterator.lastSplit then (.stopIteration, iterator)
  else if iterator.data.length - iterator.lastSplit ≤ iterator.minSize then
    (.boundary iterator.data.length, { iterator with lastSplit := iterator.data.length })
  else if iterator.inNext then
    (.raised (.runtime "BoundaryIterator no admite next() concurrente"), iterator)
  else
    match iterator.nextBoundary with
    | none => (.overflowed, { iterator with inNext := true })
    | some splitPoint =>
        (.boundary splitPoint, { iterator with lastSplit := splitPoint, inNext := false })

/-- A Python integer as a `Py_ssize_t` argument. -/
def parseSsize (value : Int) : Except StopanError Int :=
  if -(2 ^ 63) ≤ value ∧ value < 2 ^ 63 then .ok value
  else .error (.overflow "Python int too large to convert to C ssize_t")

/-- The checks of `iter_boundaries`. -/
def acceptSizes (minSize avgSize maxSize : Int) : Except StopanError FastCdcSizes := do
  let minSize ← parseSsize minSize
  let avgSize ← parseSsize avgSize
  let maxSize ← parseSsize maxSize
  if minWrong : minSize ≤ 0 then .error (.value "min_size debe ser > 0")
  else if avgWrong : avgSize < minSize then .error (.value "avg_size debe ser >= min_size")
  else if maxWrong : maxSize < avgSize then .error (.value "max_size debe ser >= avg_size")
  else
    match buildMasks avgSize with
    | none => .error (.value
      "avg_size debe ser una potencia de 2 compatible con las máscaras FastCDC")
    | some (preAvgMask, postAvgMask) =>
        return {
          minSize := minSize.toNat
          avgSize := avgSize.toNat
          maxSize := maxSize.toNat
          preAvgMask
          postAvgMask
          minPositive := by omega
          minLeAvg := by omega
          avgLeMax := by omega }

def BoundaryIterator.create (sizes : FastCdcSizes) (data : Bytes) : BoundaryIterator :=
  { sizes with data, lastSplit := 0, inNext := false }

def iterBoundaries (data : Bytes) (minSize avgSize maxSize : Int) :
    Except StopanError BoundaryIterator := do
  let sizes ← acceptSizes minSize avgSize maxSize
  return .create sizes data

/-- How the consumer of an iterator or of a stream sees it end. -/
inductive StreamEnd where
  | finished
  | raised (error : StopanError)
  | overflowed
  | outOfFuel
  deriving DecidableEq, Repr

/-- Calls of `next()` until the iterator stops. -/
def BoundaryIterator.drain : Nat → BoundaryIterator → List Nat × StreamEnd
  | 0, _ => ([], .outOfFuel)
  | fuel + 1, iterator =>
      match iterator.iternext with
      | (.stopIteration, _) => ([], .finished)
      | (.raised error, _) => ([], .raised error)
      | (.overflowed, _) => ([], .overflowed)
      | (.boundary offset, next) => (offset :: (drain fuel next).1, (drain fuel next).2)

variable {data rest : Bytes} {mask : UInt64}

theorem gearLoop_cases (data : Bytes) (mask : UInt64) (rounds candidate : Nat)
    (fingerprint : UInt64) :
    (∃ found, gearLoop data mask rounds candidate fingerprint = .cut found ∧ candidate ≤ found ∧
      found < candidate + rounds) ∨
    ∃ rolled, gearLoop data mask rounds candidate fingerprint = .passed
      (candidate + rounds) rolled := by
  induction rounds generalizing candidate fingerprint with
  | zero => exact .inr ⟨fingerprint, rfl⟩
  | succ rounds ih =>
      rw [gearLoop]
      split
      · exact .inl ⟨candidate, rfl, le_rfl, by omega⟩
      · rcases ih (candidate + 1)
          ((fingerprint <<< 1) + gearTable (data.getD (candidate - 1) 0)) with
          ⟨found, left, low, high⟩ | ⟨rolled, passed⟩
        · exact .inl ⟨found, left, by omega, by omega⟩
        · exact .inr ⟨rolled, by rw [passed, Nat.add_assoc, Nat.add_comm 1]⟩

def LoopExit.shift (distance : Nat) : LoopExit → LoopExit
  | .cut candidate => .cut (distance + candidate)
  | .passed candidate fingerprint => .passed (distance + candidate) fingerprint

/-- The loop reads the bytes before its candidates only, wherever the chunk begins. -/
theorem gearLoop_drop (start rounds candidate : Nat) (fingerprint : UInt64)
    (positive : 0 < candidate) :
    gearLoop data mask rounds (start + candidate) fingerprint =
      (gearLoop (data.drop start) mask rounds candidate fingerprint).shift start := by
  induction rounds generalizing candidate fingerprint with
  | zero => rfl
  | succ rounds ih =>
      have same : data.getD (start + candidate - 1) 0 = (data.drop start).getD
          (candidate - 1) 0 := by
        rw [List.getD_eq_getElem?_getD, List.getD_eq_getElem?_getD, List.getElem?_drop,
          Nat.add_sub_assoc positive]
      rw [gearLoop, gearLoop, same]
      split
      · rfl
      · exact ih (candidate + 1) _ (by omega)

theorem gearLoop_append (more : Bytes) (rounds candidate : Nat) (fingerprint : UInt64)
    (positive : 0 < candidate) (inside : candidate + rounds ≤ rest.length + 1) :
    gearLoop (rest ++ more) mask rounds candidate fingerprint =
      gearLoop rest mask rounds candidate fingerprint := by
  induction rounds generalizing candidate fingerprint with
  | zero => rfl
  | succ rounds ih =>
      have same : (rest ++ more).getD (candidate - 1) 0 = rest.getD (candidate - 1) 0 := by
        rw [List.getD_eq_getElem?_getD, List.getD_eq_getElem?_getD,
          List.getElem?_append_left (by omega)]
      rw [gearLoop, gearLoop, same]
      split
      · rfl
      · exact ih (candidate + 1) _ (by omega) (by omega)

/-- A cut is found in the same round however many rounds there are left. -/
theorem gearLoop_add {rounds candidate found : Nat} {fingerprint : UInt64} (extra : Nat)
    (cut : gearLoop data mask rounds candidate fingerprint = .cut found) :
    gearLoop data mask (rounds + extra) candidate fingerprint = .cut found := by
  induction rounds generalizing candidate fingerprint with
  | zero => cases cut
  | succ rounds ih =>
      rw [gearLoop] at cut
      rw [Nat.add_right_comm, gearLoop]
      split at cut
      · rename_i here
        rw [if_pos here]
        exact cut
      · rename_i onward
        rw [if_neg onward]
        exact ih cut

theorem scanBoundary_bounds (sizes : FastCdcSizes) (data : Bytes)
    {candidate normalSplit maxSplit : Nat}
    (begins : candidate ≤ normalSplit) (ends : normalSplit ≤ maxSplit) :
    candidate ≤ scanBoundary sizes data candidate normalSplit maxSplit ∧
      scanBoundary sizes data candidate normalSplit maxSplit ≤ maxSplit := by
  rw [scanBoundary]
  rcases gearLoop_cases data sizes.preAvgMask (normalSplit - candidate) candidate 0 with
    ⟨found, left, low, high⟩ | ⟨rolled, passed⟩
  · rw [left]
    dsimp only
    omega
  · rw [passed]
    dsimp only
    rcases gearLoop_cases data sizes.postAvgMask
      (maxSplit - (candidate + (normalSplit - candidate)))
      (candidate + (normalSplit - candidate)) rolled with ⟨found, left, low, high⟩ |
        ⟨again, passedAgain⟩
    · rw [left]
      dsimp only
      omega
    · rw [passedAgain]
      dsimp only
      omega

theorem scanBoundary_drop (sizes : FastCdcSizes) (start : Nat)
    {candidate normalSplit maxSplit : Nat} (positive : 0 < candidate) :
    scanBoundary sizes data (start + candidate) (start + normalSplit) (start + maxSplit) =
      start + scanBoundary sizes (data.drop start) candidate normalSplit maxSplit := by
  rw [scanBoundary, scanBoundary, gearLoop_drop _ _ _ _ positive, Nat.add_sub_add_left]
  rcases gearLoop_cases (data.drop start) sizes.preAvgMask
    (normalSplit - candidate) candidate 0 with
    ⟨found, left, -, -⟩ | ⟨rolled, passed⟩
  · rw [left]
    rfl
  · rw [passed]
    dsimp only [LoopExit.shift]
    rw [gearLoop_drop _ _ _ _ (by omega), Nat.add_sub_add_left]
    rcases gearLoop_cases (data.drop start) sizes.postAvgMask
      (maxSplit - (candidate + (normalSplit - candidate)))
      (candidate + (normalSplit - candidate)) rolled with ⟨found, left, -, -⟩ | ⟨again, passedAgain⟩
    · rw [left]
      rfl
    · rw [passedAgain]
      rfl

namespace FastCdcSizes

variable {sizes : FastCdcSizes}

/-- The length of the next chunk, as a function of the bytes that are left. -/
def cutLength (sizes : FastCdcSizes) (rest : Bytes) : Nat :=
  if rest.length ≤ sizes.minSize then rest.length
  else
    scanBoundary sizes rest sizes.minSize (min sizes.avgSize (min sizes.maxSize rest.length))
      (min sizes.maxSize rest.length)

theorem cutLength_of_short (short : rest.length ≤ sizes.minSize) :
    sizes.cutLength rest = rest.length :=
  if_pos short

theorem cutLength_bounds (long : sizes.minSize < rest.length) :
    sizes.minSize ≤ sizes.cutLength rest ∧ sizes.cutLength rest ≤ sizes.maxSize ∧
      sizes.cutLength rest ≤ rest.length := by
  have minLeAvg := sizes.minLeAvg
  have avgLeMax := sizes.avgLeMax
  rw [cutLength, if_neg (by omega)]
  have bounds := scanBoundary_bounds sizes rest
    (show sizes.minSize ≤ min sizes.avgSize (min sizes.maxSize rest.length) by omega)
      (Nat.min_le_right _ _)
  omega

theorem cutLength_le_maxSize : sizes.cutLength rest ≤ sizes.maxSize := by
  have minLeAvg := sizes.minLeAvg
  have avgLeMax := sizes.avgLeMax
  by_cases short : rest.length ≤ sizes.minSize
  · rw [cutLength_of_short short]
    omega
  · exact (cutLength_bounds (by omega)).2.1

def rule (sizes : FastCdcSizes) : CutRule UInt8 where
  length := sizes.cutLength
  positive := by
    intro rest left
    have nonempty := List.length_pos_iff.mpr left
    have minPositive := sizes.minPositive
    by_cases short : rest.length ≤ sizes.minSize
    · rw [cutLength_of_short short]
      exact nonempty
    · have bounds := @cutLength_bounds rest sizes (by omega)
      omega
  within := by
    intro rest _
    by_cases short : rest.length ≤ sizes.minSize
    · rw [cutLength_of_short short]
    · exact (cutLength_bounds (by omega)).2.2

theorem minSize_le_of_unfinished (unfinished : sizes.cutLength rest < rest.length) :
    sizes.minSize ≤ sizes.cutLength rest := by
  by_cases short : rest.length ≤ sizes.minSize
  · rw [cutLength_of_short short] at unfinished
    omega
  · exact (cutLength_bounds (by omega)).1

/-- Before the average size only the strict loop has looked. -/
theorem cutLength_append_of_early (more : Bytes) (long : sizes.minSize < rest.length)
    (early : rest.length ≤ sizes.avgSize) (unfinished : sizes.cutLength rest < rest.length) :
    sizes.cutLength (rest ++ more) = sizes.cutLength rest := by
  have minPositive := sizes.minPositive
  have avgLeMax := sizes.avgLeMax
  have total : (rest ++ more).length = rest.length + more.length := List.length_append
  have normal : min sizes.avgSize (min sizes.maxSize rest.length) = rest.length := by omega
  rw [cutLength, if_neg (by omega), scanBoundary, normal] at unfinished
  rw [cutLength, if_neg (by omega), cutLength, if_neg (by omega), scanBoundary,
    scanBoundary, normal]
  rcases gearLoop_cases rest sizes.preAvgMask (rest.length - sizes.minSize) sizes.minSize 0 with
    ⟨found, cut, -, -⟩ | ⟨rolled, passed⟩
  · rw [cut]
    have longer : min sizes.avgSize (min sizes.maxSize (rest ++ more).length) - sizes.minSize =
        (rest.length - sizes.minSize) +
          (min sizes.avgSize (min sizes.maxSize (rest ++ more).length) - rest.length) := by omega
    rw [← gearLoop_append more _ _ _ minPositive (by omega)] at cut
    rw [longer, gearLoop_add _ cut]
  · rw [passed] at unfinished
    have reached : sizes.minSize + (rest.length - sizes.minSize) = rest.length := by omega
    have none : min sizes.maxSize rest.length - rest.length = 0 := by omega
    dsimp only at unfinished
    rw [reached, none, gearLoop] at unfinished
    dsimp only at unfinished
    omega

/-- After the average size both loops go through the same candidates as in the longer buffer. -/
theorem cutLength_append_of_late (more : Bytes) (late : sizes.avgSize < rest.length)
    (unfinished : sizes.cutLength rest < rest.length) :
    sizes.cutLength (rest ++ more) = sizes.cutLength rest := by
  have minPositive := sizes.minPositive
  have minLeAvg := sizes.minLeAvg
  have avgLeMax := sizes.avgLeMax
  have total : (rest ++ more).length = rest.length + more.length := List.length_append
  have normal : min sizes.avgSize (min sizes.maxSize rest.length) = sizes.avgSize := by omega
  have sameNormal : min sizes.avgSize (min sizes.maxSize (rest ++ more).length) =
      sizes.avgSize := by omega
  rw [cutLength, if_neg (by omega), scanBoundary, normal] at unfinished
  rw [cutLength, if_neg (by omega), cutLength, if_neg (by omega), scanBoundary,
    scanBoundary, normal, sameNormal, gearLoop_append more _ _ _ minPositive (by omega)]
  rcases gearLoop_cases rest sizes.preAvgMask (sizes.avgSize - sizes.minSize) sizes.minSize 0 with
    ⟨found, cut, -, -⟩ | ⟨rolled, passed⟩
  · rw [cut]
  · rw [passed] at unfinished ⊢
    dsimp only at unfinished ⊢
    have reached : sizes.minSize + (sizes.avgSize - sizes.minSize) = sizes.avgSize := by omega
    rw [reached] at unfinished ⊢
    rcases gearLoop_cases rest sizes.postAvgMask
      (min sizes.maxSize rest.length - sizes.avgSize) sizes.avgSize
      rolled with ⟨found, cut, -, -⟩ | ⟨again, passedAgain⟩
    · rw [cut]
      have longer : min sizes.maxSize (rest ++ more).length - sizes.avgSize =
          (min sizes.maxSize rest.length - sizes.avgSize) +
            (min sizes.maxSize (rest ++ more).length - min sizes.maxSize rest.length) := by omega
      rw [← gearLoop_append more _ _ _ (by omega) (by omega)] at cut
      rw [longer, gearLoop_add _ cut]
    · -- the forced cut is the maximum size, which the longer buffer reaches too
      rw [passedAgain] at unfinished
      dsimp only at unfinished
      have sameMax : min sizes.maxSize (rest ++ more).length = min sizes.maxSize rest.length := by
        omega
      rw [sameMax, gearLoop_append more _ _ _ (by omega) (by omega), passedAgain]

theorem rule_isLocal (sizes : FastCdcSizes) : sizes.rule.Local := by
  intro rest more left unfinished
  by_cases short : rest.length ≤ sizes.minSize
  · change sizes.cutLength rest < rest.length at unfinished
    rw [cutLength_of_short short] at unfinished
    omega
  · by_cases early : rest.length ≤ sizes.avgSize
    · exact cutLength_append_of_early more (by omega) early unfinished
    · exact cutLength_append_of_late more (by omega) unfinished

end FastCdcSizes

namespace BoundaryIterator

variable {iterator : BoundaryIterator}

/-- The iterator after a cut. -/
def moveTo (iterator : BoundaryIterator) (offset : Nat) : BoundaryIterator :=
  { iterator with lastSplit := offset }

@[simp] theorem moveTo_inNext (offset : Nat) : (iterator.moveTo offset).inNext = iterator.inNext :=
  rfl

theorem addSsize_of_le {left right : Nat} (fits : left + right ≤ pySsizeMax) :
    addSsize left right = some (left + right) := if_pos fits

theorem addSsize_eq_some {left right sum : Nat} (added : addSsize left right = some sum) :
    sum = left + right := by
  unfold addSsize at added
  split at added
  · cases added
    rfl
  · cases added

/-- Both limits are clamped to what is left. -/
theorem nextBoundary_eq {offset : Nat}
    (long : iterator.minSize < iterator.data.length - iterator.lastSplit)
    (found : iterator.nextBoundary = some offset) :
    offset = iterator.lastSplit + iterator.cutLength (iterator.data.drop iterator.lastSplit) := by
  have minPositive := iterator.minPositive
  have avgLeMax := iterator.avgLeMax
  simp only [nextBoundary, Option.bind_eq_bind, Option.bind_eq_some_iff, Option.pure_def,
    Option.some.injEq] at found
  obtain ⟨farthest, farthestSum, normal, normalSum, candidate, candidateSum, rfl⟩ := found
  rw [addSsize_eq_some farthestSum, addSsize_eq_some normalSum, addSsize_eq_some candidateSum]
  have size : (iterator.data.drop iterator.lastSplit).length = iterator.data.length -
      iterator.lastSplit :=
    List.length_drop
  have clampMax : (if iterator.lastSplit + iterator.maxSize > iterator.data.length then
      iterator.data.length
      else iterator.lastSplit + iterator.maxSize) =
      iterator.lastSplit + min iterator.maxSize (iterator.data.drop iterator.lastSplit).length := by
    split <;> omega
  rw [clampMax]
  have clampNormal : (if iterator.lastSplit + iterator.avgSize >
      iterator.lastSplit + min iterator.maxSize (iterator.data.drop iterator.lastSplit).length then
      iterator.lastSplit + min iterator.maxSize (iterator.data.drop iterator.lastSplit).length
      else iterator.lastSplit + iterator.avgSize) = iterator.lastSplit +
        min iterator.avgSize
          (min iterator.maxSize (iterator.data.drop iterator.lastSplit).length) := by
    split <;> omega
  rw [clampNormal, scanBoundary_drop _ _ minPositive, FastCdcSizes.cutLength, if_neg (by omega)]

/-- One call of `next()`: the iterator stops at the end of the buffer, and before it either the sums
overflow or the next cut point of the rule comes out. -/
theorem iternext_cases (idle : iterator.inNext = false) :
    (iterator.data.drop iterator.lastSplit = [] ∧ iterator.iternext = (.stopIteration, iterator)) ∨
    (iterator.data.drop iterator.lastSplit ≠ [] ∧ iterator.iternext.1 = .overflowed ∧
      pySsizeMax < iterator.data.length + iterator.maxSize) ∨
    (iterator.data.drop iterator.lastSplit ≠ [] ∧ iterator.iternext =
      (.boundary (iterator.lastSplit + iterator.cutLength (iterator.data.drop iterator.lastSplit)),
        iterator.moveTo
          (iterator.lastSplit + iterator.cutLength (iterator.data.drop iterator.lastSplit)))) := by
  have size : (iterator.data.drop iterator.lastSplit).length = iterator.data.length -
      iterator.lastSplit :=
    List.length_drop
  unfold iternext
  split
  · rename_i past
    exact .inl ⟨List.drop_eq_nil_iff.mpr past, rfl⟩
  · rename_i inside
    have left : iterator.data.drop iterator.lastSplit ≠ [] := by
      rw [Ne, List.drop_eq_nil_iff]
      exact inside
    right
    split
    · rename_i short
      right
      refine ⟨left, ?_⟩
      have whole : iterator.lastSplit + iterator.cutLength (iterator.data.drop iterator.lastSplit) =
          iterator.data.length := by
        rw [FastCdcSizes.cutLength_of_short (by omega)]
        omega
      rw [whole, moveTo]
    · rename_i long
      rw [idle, if_neg (by decide)]
      cases found : iterator.nextBoundary with
      | none =>
          left
          refine ⟨left, rfl, ?_⟩
          by_contra fits
          have minLeAvg := iterator.minLeAvg
          have avgLeMax := iterator.avgLeMax
          simp [nextBoundary,
            addSsize_of_le (show iterator.lastSplit + iterator.maxSize ≤ pySsizeMax by omega),
            addSsize_of_le (show iterator.lastSplit + iterator.avgSize ≤ pySsizeMax by omega),
            addSsize_of_le (show iterator.lastSplit + iterator.minSize ≤ pySsizeMax by omega)]
              at found
      | some offset =>
          right
          refine ⟨left, ?_⟩
          rw [nextBoundary_eq (by omega) found, moveTo, idle]

/-- Calls of `next()` until the end give the cut points of the rule, if no sum overflows on the
way. -/
theorem drain_finished {fuel : Nat} (idle : iterator.inNext = false)
    (ended : (iterator.drain fuel).2 = .finished) :
    (iterator.drain fuel).1 = iterator.rule.points iterator.lastSplit
      (iterator.data.drop iterator.lastSplit) := by
  induction fuel generalizing iterator with
  | zero => cases ended
  | succ fuel ih =>
      rw [drain] at ended ⊢
      rcases iternext_cases idle with ⟨past, stop⟩ | ⟨-, overflow, -⟩ | ⟨left, found⟩
      · rw [stop, past, CutRule.points_nil]
      · rcases shape : iterator.iternext with ⟨result, next⟩
        rw [shape] at overflow ended
        cases overflow
        cases ended
      · rw [found] at ended ⊢
        dsimp only at ended ⊢
        rw [ih ((moveTo_inNext _).trans idle) ended, CutRule.points_of_ne_nil left]
        dsimp only [moveTo]
        rw [← List.drop_drop]
        rfl

theorem drain_eq_points {fuel : Nat} (idle : iterator.inNext = false)
    (fits : iterator.data.length + iterator.maxSize ≤ pySsizeMax)
    (enough : iterator.data.length - iterator.lastSplit < fuel) :
    iterator.drain fuel =
      (iterator.rule.points iterator.lastSplit (iterator.data.drop iterator.lastSplit),
        .finished) := by
  suffices ended : (iterator.drain fuel).2 = .finished from Prod.ext
      (drain_finished idle ended) ended
  induction fuel generalizing iterator with
  | zero => omega
  | succ fuel ih =>
      rw [drain]
      rcases iternext_cases idle with ⟨past, stop⟩ | ⟨-, -, overflow⟩ | ⟨left, found⟩
      · rw [stop]
      · omega
      · rw [found]
        have positive := iterator.rule.positive left
        change 0 < iterator.cutLength (iterator.data.drop iterator.lastSplit) at positive
        have inside : iterator.lastSplit < iterator.data.length := by
          rw [Ne, List.drop_eq_nil_iff] at left
          omega
        refine ih ((moveTo_inNext (iterator.lastSplit + iterator.cutLength _)).trans idle) fits ?_
        dsimp only [moveTo]
        omega

end BoundaryIterator

/-- The boundaries of a buffer: the sizes are accepted, and the iterator ends without a sum that C
leaves undefined. -/
def boundaries (minSize avgSize maxSize : Int) (data : Bytes) : Option (List Nat) :=
  match iterBoundaries data minSize avgSize maxSize with
  | .error _ => none
  | .ok iterator =>
      match iterator.drain (data.length + 1) with
      | (offsets, .finished) => some offsets
      | _ => none

theorem iterBoundaries_eq_ok {minSize avgSize maxSize : Int} {iterator : BoundaryIterator}
    (accepted : iterBoundaries data minSize avgSize maxSize = .ok iterator) :
    ∃ sizes, acceptSizes minSize avgSize maxSize = .ok sizes ∧ iterator = .create sizes data := by
  unfold iterBoundaries at accepted
  cases checked : acceptSizes minSize avgSize maxSize with
  | error error =>
      rw [checked] at accepted
      cases accepted
  | ok sizes =>
      rw [checked] at accepted
      cases accepted
      exact ⟨sizes, rfl, rfl⟩

theorem boundaries_eq_some {minSize avgSize maxSize : Int} {offsets : List Nat}
    (cut : boundaries minSize avgSize maxSize data = some offsets) :
    ∃ sizes, acceptSizes minSize avgSize maxSize = .ok sizes ∧
      offsets = sizes.rule.points 0 data := by
  unfold boundaries at cut
  split at cut
  · cases cut
  · rename_i iterator accepted
    obtain ⟨sizes, checked, rfl⟩ := iterBoundaries_eq_ok accepted
    split at cut
    · rename_i found ended
      cases cut
      have points := @BoundaryIterator.drain_finished (.create sizes data) (data.length + 1) rfl
        (by rw [ended])
      rw [ended] at points
      exact ⟨sizes, checked, points⟩
    · cases cut

theorem acceptSizes_eq_ok {minSize avgSize maxSize : Int} {sizes : FastCdcSizes}
    (checked : acceptSizes minSize avgSize maxSize = .ok sizes) :
    (sizes.minSize : Int) = minSize ∧ (sizes.avgSize : Int) = avgSize ∧
      (sizes.maxSize : Int) = maxSize := by
  have parse : ∀ {value parsed : Int}, parseSsize value = .ok parsed → parsed = value := by
    intro value parsed done
    unfold parseSsize at done
    split at done
    · cases done
      rfl
    · cases done
  unfold acceptSizes at checked
  simp only [bind_eq_ok_iff] at checked
  obtain ⟨parsedMin, minDone, parsedAvg, avgDone, parsedMax, maxDone, checked⟩ := checked
  rw [parse minDone, parse avgDone, parse maxDone] at checked
  split at checked
  · cases checked
  · split at checked
    · cases checked
    · split at checked
      · cases checked
      · split at checked
        · cases checked
        · cases checked
          dsimp only
          omega

end Stopan.Chunking
