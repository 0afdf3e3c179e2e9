import Stopan.Chunking.FastCdc

/-!
Splitting a file into chunks (`stopan/chunking/chunker.py`), and what the boundaries of a buffer
have to do with those of its parts.
-/

namespace Stopan.Chunking

open Stopan.Lib Stopan.Common

structure FileChunker where
  avgChunkSize : Nat
  minChunkSize : Nat
  maxChunkSize : Nat
  avgPowerOfTwo : avgChunkSize &&& (avgChunkSize - 1) = 0
  minPositive : 0 < minChunkSize
  minLeAvg : minChunkSize ≤ avgChunkSize
  avgLeMax : avgChunkSize ≤ maxChunkSize

def defaultAvgChunkSize : Int := 65536
def defaultMinChunkSize : Int := 16384
def defaultMaxChunkSize : Int := 262144

def FileChunker.create (avgChunkSize : Int := defaultAvgChunkSize)
    (minChunkSize : Int := defaultMinChunkSize)
    (maxChunkSize : Int := defaultMaxChunkSize) : Except StopanError FileChunker :=
  if avgWrong : avgChunkSize ≤ 0 then .error (.configValue "avg_chunk_size debe ser > 0")
  else if powerWrong : avgChunkSize.toNat &&& (avgChunkSize.toNat - 1) ≠ 0 then
    .error (.configValue "avg_chunk_size debe ser potencia de 2")
  else if minWrong : minChunkSize ≤ 0 then .error (.configValue "min_chunk_size debe ser > 0")
  else if orderWrong : avgChunkSize < minChunkSize then
    .error (.configValue "avg_chunk_size debe ser >= min_chunk_size")
  else if maxWrong : maxChunkSize < avgChunkSize then
    .error (.configValue "max_chunk_size debe ser >= avg_chunk_size")
  else
    .ok {
      avgChunkSize := avgChunkSize.toNat
      minChunkSize := minChunkSize.toNat
      maxChunkSize := maxChunkSize.toNat
      avgPowerOfTwo := by simpa using powerWrong
      minPositive := by omega
      minLeAvg := by omega
      avgLeMax := by omega }

/-- What the calls of `_chunk_fastcdc` see of the file: its size, its first bytes, its size again
and the mapped contents. -/
structure FileReads where
  firstSize : Nat
  contents : Bytes
  secondSize : Nat
  mapped : Bytes

/-- A file that does not change between the calls. -/
def FileReads.unchanging (contents : Bytes) : FileReads where
  firstSize := contents.length
  contents := contents
  secondSize := contents.length
  mapped := contents

def hashedChunk (blake3 : Blake3) (chunkData : Bytes) : Text × Bytes :=
  (blake3HexDigest blake3 chunkData, chunkData)

/-- The loop over the boundaries of the mapped file. -/
def chunkMapped (blake3 : Blake3) (fileSize : Nat) :
    Nat → Nat → BoundaryIterator → List (Text × Bytes) × StreamEnd
  | 0, _, _ => ([], .outOfFuel)
  | fuel + 1, start, iterator =>
      match iterator.iternext with
      | (.stopIteration, _) =>
          if start < fileSize then
            ([hashedChunk blake3 ((iterator.data.take fileSize).drop start)], .finished)
          else ([], .finished)
      | (.raised error, _) => ([], .raised error)
      | (.overflowed, _) => ([], .overflowed)
      | (.boundary stop, next) =>
          if stop ≤ start then
            let text :=
              s!"fastcdc devolvió puntos de corte no crecientes: start={start} end={stop} file_size={fileSize}"
            ([], .raised (.runtime text))
          else if stop > fileSize then
            let text :=
              s!"fastcdc devolvió un punto de corte más allá del EOF: end={stop} file_size={fileSize}"
            ([], .raised (.runtime text))
          else
            (hashedChunk blake3 ((iterator.data.take stop).drop start) ::
              (chunkMapped blake3 fileSize fuel stop next).1,
              (chunkMapped blake3 fileSize fuel stop next).2)

namespace FileChunker

/-- Mapping an empty file is an error of `mmap`. -/
def chunkByBoundaries (blake3 : Blake3) (chunker : FileChunker) (fileSize : Nat) (mapped : Bytes) :
    List (Text × Bytes) × StreamEnd :=
  if mapped = [] then ([], .raised (.value "cannot mmap an empty file"))
  else
    match iterBoundaries mapped chunker.minChunkSize chunker.avgChunkSize chunker.maxChunkSize with
    | .error error => ([], .raised error)
    | .ok iterator => chunkMapped blake3 fileSize (mapped.length + 1) 0 iterator

/-- A file of at most `min_chunk_size` bytes is read as one chunk, unless it has grown meanwhile. -/
def chunkFastcdc (blake3 : Blake3) (chunker : FileChunker) (file : FileReads) :
    List (Text × Bytes) × StreamEnd :=
  if file.firstSize = 0 then ([], .finished)
  else if file.firstSize ≤ chunker.minChunkSize then
    let chunkData := file.contents.take (chunker.minChunkSize + 1)
    if chunkData.length ≤ chunker.minChunkSize then
      (if chunkData = [] then [] else [hashedChunk blake3 chunkData], .finished)
    else chunker.chunkByBoundaries blake3 file.secondSize file.mapped
  else chunker.chunkByBoundaries blake3 file.firstSize file.mapped

def chunkStream (blake3 : Blake3) (chunker : FileChunker) (file : FileReads) :
    List (Text × Bytes) × StreamEnd :=
  chunker.chunkFastcdc blake3 file

end FileChunker

variable {blake3 : Blake3} {data : Bytes} {iterator : BoundaryIterator}

theorem chunkMapped_eq {fuel : Nat} (idle : iterator.inNext = false)
    (fits : iterator.data.length + iterator.maxSize ≤ pySsizeMax)
    (begun : iterator.lastSplit ≤ iterator.data.length)
    (enough : iterator.data.length - iterator.lastSplit < fuel) :
    chunkMapped blake3 iterator.data.length fuel iterator.lastSplit iterator =
      ((slices iterator.data iterator.lastSplit
        (iterator.rule.points iterator.lastSplit (iterator.data.drop iterator.lastSplit))).map
          (hashedChunk blake3),
        .finished) := by
  induction fuel generalizing iterator with
  | zero => omega
  | succ fuel ih =>
      rw [chunkMapped]
      rcases BoundaryIterator.iternext_cases idle with ⟨past, stop⟩ |
        ⟨-, -, overflow⟩ | ⟨left, found⟩
      · rw [stop, past, CutRule.points_nil]
        have reached := List.drop_eq_nil_iff.mp past
        dsimp only
        rw [if_neg (by omega)]
        rfl
      · omega
      · have positive := iterator.rule.positive left
        have within := iterator.rule.within left
        rw [List.length_drop] at within
        have next := ih
          ((BoundaryIterator.moveTo_inNext
            (iterator.lastSplit + iterator.rule.length _)).trans idle) fits
          (show iterator.lastSplit + iterator.rule.length (iterator.data.drop iterator.lastSplit) ≤
            iterator.data.length by omega)
          (show iterator.data.length - (iterator.lastSplit + iterator.rule.length
            (iterator.data.drop iterator.lastSplit)) < fuel by omega)
        rw [found, CutRule.points_of_ne_nil left, slices, List.map_cons, List.drop_drop]
        change iterator.cutLength (iterator.data.drop iterator.lastSplit) ≤ _ at within
        change 0 < iterator.cutLength (iterator.data.drop iterator.lastSplit) at positive
        dsimp only
        rw [if_neg (by omega), if_neg (by omega)]
        have chunks := congrArg Prod.fst next
        have ending := congrArg Prod.snd next
        exact Prod.ext (congrArg (List.cons _) chunks) ending

/-- Both paths give the pieces between the cut points: a short file has a single one. -/
theorem chunkStream_unchanging {chunker : FileChunker} {sizes : FastCdcSizes}
    (accepted : acceptSizes chunker.minChunkSize chunker.avgChunkSize chunker.maxChunkSize =
      .ok sizes)
    (fits : data.length + sizes.maxSize ≤ pySsizeMax) :
    chunker.chunkStream blake3 (.unchanging data) =
      ((slices data 0 (sizes.rule.points 0 data)).map (hashedChunk blake3), .finished) := by
  have sameMin : sizes.minSize = chunker.minChunkSize :=
    Int.ofNat_inj.mp (acceptSizes_eq_ok accepted).1
  rw [FileChunker.chunkStream, FileChunker.chunkFastcdc, FileReads.unchanging]
  dsimp only
  by_cases empty : data = []
  · subst empty
    rw [CutRule.points_nil]
    rfl
  · have nonempty := List.length_pos_iff.mpr empty
    rw [if_neg (by omega)]
    by_cases short : data.length ≤ chunker.minChunkSize
    · have whole : data.take (chunker.minChunkSize + 1) = data := List.take_of_length_le (by omega)
      have single : sizes.rule.length data = data.length :=
        FastCdcSizes.cutLength_of_short (by omega)
      rw [if_pos short, whole, if_pos short, if_neg empty, CutRule.points_of_ne_nil empty,
        single, List.drop_length,
        CutRule.points_nil, slices, slices, Nat.zero_add, List.take_length, List.drop_zero]
      rfl
    · rw [if_neg short, FileChunker.chunkByBoundaries, if_neg empty, iterBoundaries, accepted]
      exact @chunkMapped_eq blake3 (.create sizes data) _ rfl fits (Nat.zero_le _) (by
        change data.length - 0 < data.length + 1
        omega)

/-- The native iterator partitions every buffer, and the chunks of a file are that partition. -/
theorem fastcdc_partitions (blake3 : Blake3) (data : Bytes) (minSize avgSize maxSize : Int)
    (iterator : BoundaryIterator)
    (accepted : iterBoundaries data minSize avgSize maxSize = .ok iterator)
    (fits : data.length + maxSize ≤ pySsizeMax) :
    ∃ offsets : List Nat,
      (∀ fuel, data.length < fuel → iterator.drain fuel = (offsets, .finished)) ∧
      offsets.Pairwise (· < ·) ∧ offsets.getLastD 0 = data.length ∧
      (∀ length ∈ (gaps 0 offsets).dropLast, minSize ≤ length ∧ length ≤ maxSize) ∧
      (∀ length ∈ (gaps 0 offsets).getLast?, length ≤ maxSize) ∧
      ∀ chunker : FileChunker, chunker.minChunkSize = minSize → chunker.avgChunkSize = avgSize →
        chunker.maxChunkSize = maxSize →
        ∃ chunks, chunker.chunkStream blake3 (.unchanging data) = (chunks, .finished) ∧
          (∀ chunk ∈ chunks, chunk.1 = blake3HexDigest blake3 chunk.2) ∧
          (chunks.map Prod.snd).flatten = data ∧ pieceEnds 0 (chunks.map Prod.snd) = offsets := by
  obtain ⟨sizes, checked, rfl⟩ := iterBoundaries_eq_ok accepted
  obtain ⟨sameMin, sameAvg, sameMax⟩ := acceptSizes_eq_ok checked
  have room : data.length + sizes.maxSize ≤ pySsizeMax := by omega
  refine ⟨sizes.rule.points 0 data, ?_, CutRule.points_pairwise, ?_, ?_, ?_, ?_⟩
  · intro fuel enough
    exact @BoundaryIterator.drain_eq_points (.create sizes data) _ rfl room enough
  · by_cases empty : data = []
    · subst empty
      rw [CutRule.points_nil]
      rfl
    · rw [List.getLastD_eq_getLast?, CutRule.points_getLast? empty, Nat.zero_add]
      rfl
  · apply CutRule.gaps_points
    intro rest _ unfinished
    have lower := FastCdcSizes.minSize_le_of_unfinished unfinished
    have upper := @FastCdcSizes.cutLength_le_maxSize rest sizes
    change minSize ≤ sizes.cutLength rest ∧ (sizes.cutLength rest : Int) ≤ maxSize
    omega
  · intro length last
    have each : ∀ length ∈ gaps 0 (sizes.rule.points 0 data), length ≤ sizes.maxSize :=
      CutRule.gaps_points_all fun rest _ => FastCdcSizes.cutLength_le_maxSize
    have bounded := each length (List.mem_of_getLast? last)
    omega
  · intro chunker minGiven avgGiven maxGiven
    subst minGiven avgGiven maxGiven
    have pieces : ((slices data 0 (sizes.rule.points 0 data)).map
        (hashedChunk blake3)).map Prod.snd = slices data 0 (sizes.rule.points 0 data) := by
      rw [List.map_map]
      exact List.map_id _
    refine ⟨_, chunkStream_unchanging checked room, ?_, ?_, ?_⟩
    · intro chunk member
      obtain ⟨piece, -, rfl⟩ := List.mem_map.mp member
      rfl
    · rw [pieces]
      exact @CutRule.slices_flatten _ 0 data sizes.rule (Nat.zero_le _)
    · rw [pieces]
      exact @CutRule.pieceEnds_slices _ 0 data sizes.rule (Nat.zero_le _)

def twelveBytes : Bytes := [7, 0, 200, 3, 9, 11, 250, 4, 66, 1, 2, 90]

/-- The twelve bytes are cut after the fourth one. -/
theorem twelveBytes_partitioned :
    ∃ iterator, iterBoundaries twelveBytes 2 8 16 = .ok iterator ∧
      iterator.drain 13 = ([4, 12], .finished) ∧
      ∀ chunker : FileChunker, chunker.minChunkSize = 2 → chunker.avgChunkSize = 8 →
        chunker.maxChunkSize = 16 →
        ∃ chunks, chunker.chunkStream (.ofTable []) (.unchanging twelveBytes) =
          (chunks, .finished) ∧
          (chunks.map Prod.snd).flatten = twelveBytes ∧
            pieceEnds 0 (chunks.map Prod.snd) = [4, 12] := by
  have seen : (iterBoundaries twelveBytes 2 8 16).toOption.map (·.drain 13) = some
      ([4, 12], .finished) := by decide +kernel
  obtain ⟨iterator, accepted⟩ : ∃ iterator, iterBoundaries twelveBytes 2 8 16 = .ok iterator :=
    ⟨_, rfl⟩
  obtain ⟨offsets, drains, -, -, -, -, streams⟩ :=
    fastcdc_partitions (Blake3.ofTable []) twelveBytes 2 8 16 iterator accepted (by decide)
  have drained := drains 13 (by decide)
  rw [accepted] at seen
  cases drained.symm.trans (Option.some.inj seen)
  refine ⟨iterator, accepted, drained, fun chunker minGiven avgGiven maxGiven => ?_⟩
  obtain ⟨chunks, streamed, -, whole, ends⟩ := streams chunker (by omega) (by omega) (by omega)
  exact ⟨chunks, streamed, whole, ends⟩

/-- Appended data leaves the boundaries before the old end alone, and after a common boundary equal
data is cut equally. -/
theorem boundaries_are_local (minSize avgSize maxSize : Int) :
    (∀ (data more : Bytes) (before after : List Nat),
      boundaries minSize avgSize maxSize data = some before →
      boundaries minSize avgSize maxSize (data ++ more) = some after →
      (∀ point ∈ before, point < data.length → point ∈ after) ∧
      ∀ last ∈ before, last < data.length → ∀ point ∈ after, point ≤ last → point ∈ before) ∧
    ∀ (left right common : Bytes) (leftPoints rightPoints : List Nat),
      boundaries minSize avgSize maxSize (left ++ common) = some leftPoints →
      boundaries minSize avgSize maxSize (right ++ common) = some rightPoints →
      left.length ∈ leftPoints → right.length ∈ rightPoints →
      (leftPoints.filter fun point => decide (left.length < point)).map (· - left.length) =
        (rightPoints.filter fun point => decide (right.length < point)).map (· - right.length) := by
  constructor
  · intro data more before after cut cutMore
    obtain ⟨sizes, checked, rfl⟩ := boundaries_eq_some cut
    obtain ⟨sameSizes, checkedAgain, rfl⟩ := boundaries_eq_some cutMore
    cases checked.symm.trans checkedAgain
    have isLocal := sizes.rule_isLocal
    constructor
    · intro point member early
      exact isLocal.mem_points_append member (by omega)
    · intro last member early point cut below
      exact isLocal.mem_points_of_append member (by omega) cut below
  · intro left right common leftPoints rightPoints cutLeft cutRight leftCut rightCut
    obtain ⟨sizes, checked, rfl⟩ := boundaries_eq_some cutLeft
    obtain ⟨sameSizes, checkedAgain, rfl⟩ := boundaries_eq_some cutRight
    cases checked.symm.trans checkedAgain
    exact CutRule.points_after_eq leftCut rightCut

theorem twelveBytes_cutAlike :
    boundaries 2 8 16 twelveBytes = some [4, 12] ∧
    (∀ point ∈ [4, 12], point < twelveBytes.length → point ∈ [4, 12, 15]) ∧
    (([4, 12].filter fun point => decide (4 < point)).map (· - 4) =
      ([4, 12, 20].filter fun point => decide (12 < point)).map (· - 12)) := by
  have short : boundaries 2 8 16 twelveBytes = some [4, 12] := by decide +kernel
  have extended : boundaries 2 8 16 (twelveBytes ++ [5, 6, 7]) = some [4, 12, 15] := by
    decide +kernel
  have first : boundaries 2 8 16 ([7, 0, 200, 3] ++ twelveBytes.drop 4) = some [4, 12] := by
    decide +kernel
  have second : boundaries 2 8 16 (twelveBytes ++ twelveBytes.drop 4) = some [4, 12, 20] := by
    decide +kernel
  obtain ⟨appended, shifted⟩ := boundaries_are_local 2 8 16
  exact ⟨short, (appended _ _ _ _ short extended).1,
    shifted _ _ _ _ _ first second (by decide) (by decide)⟩

end Stopan.Chunking
