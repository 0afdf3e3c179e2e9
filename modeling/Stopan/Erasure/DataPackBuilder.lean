import Stopan.Erasure.PackMetadata
import Stopan.Erasure.RoundTrip
import Stopan.Lib.NextFit

/-!
Packing of new chunks (`DataPackBuilder` in `stopan/protection/ec/packer.py` and the loop over the
pending chunks in `pusher.py`): what has been read, what has been flushed and what the builder still
holds.
-/

namespace Stopan.Erasure

open Stopan.Lib Stopan.Common Stopan.Metadata

theorem packPayload_nil_length : 0 = (packPayload []).length := rfl

theorem packPayload_concat_length (chunks : List (Text × Bytes)) (chunkHash : Text) (data : Bytes) :
    (packPayload (chunks ++ [(chunkHash, data)])).length =
      (packPayload chunks).length + data.length := by
  simp [packPayload]

structure DataPackBuilder where
  spec : ErasureSpec
  targetSizeBytes : Nat
  chunks : List (Text × Bytes)
  currentSize : Nat
  size_eq : currentSize = (packPayload chunks).length

namespace DataPackBuilder

/-- `__init__`. -/
def create (spec : ErasureSpec) (targetSizeBytes : Int) : Coded DataPackBuilder := do
  ensure (decide (0 < targetSizeBytes)) (.coding "target_size_bytes debe ser > 0")
  return {
    spec
    targetSizeBytes := targetSizeBytes.toNat
    chunks := []
    currentSize := 0
    size_eq := packPayload_nil_length }

variable (builder : DataPackBuilder)

def wouldExceedTarget (dataSize : Nat) : Bool :=
  !builder.chunks.isEmpty && decide (builder.targetSizeBytes < builder.currentSize + dataSize)

theorem size_add (chunkHash : Text) (data : Bytes) :
    builder.currentSize + data.length =
      (packPayload (builder.chunks ++ [(chunkHash, data)])).length := by
  rw [packPayload_concat_length, builder.size_eq]

/-- The builder with a chunk more. -/
def append (chunkHash : Text) (data : Bytes) : DataPackBuilder :=
  { builder with
    chunks := builder.chunks ++ [(chunkHash, data)]
    currentSize := builder.currentSize + data.length
    size_eq := builder.size_add chunkHash data }

/-- `_append_validated_chunk`, with whether the pack has to be flushed. -/
def appendValidatedChunk (chunkHash : Text) (data : Bytes) : Coded (DataPackBuilder × Bool) :=
  if builder.wouldExceedTarget data.length then
    .error (.coding
      "el chunk excedería target_size_bytes del pack abierto; debe hacerse flush antes de añadirlo")
  else
    let added := builder.append chunkHash data
    .ok (added, decide (added.targetSizeBytes ≤ added.currentSize))

def addChunk (blake3 : Blake3) (chunkHash : Text) (data : Bytes) :
    Coded (DataPackBuilder × Bool) := do
  let chunk ← validatedChunkPayload blake3 chunkHash data
  builder.appendValidatedChunk chunk.1 chunk.2

/-- `_add_prevalidated_chunk`. -/
def addPrevalidatedChunk (chunkHash : Text) (data : Bytes) : Coded (DataPackBuilder × Bool) :=
  builder.appendValidatedChunk chunkHash data

def clear : DataPackBuilder :=
  { builder with chunks := [], currentSize := 0, size_eq := packPayload_nil_length }

def flush (blake3 : Blake3) (zfec : Zfec) : Coded (Option EncodedDataPack × DataPackBuilder) :=
  if builder.chunks.isEmpty then .ok (none, builder)
  else do
    let encoded ← buildDataPackFromValidatedChunks blake3 zfec builder.chunks builder.spec
    return (some encoded, builder.clear)

end DataPackBuilder

/-- What the loop itself counts. -/
structure PackCounts where
  missingLocalChunks : Nat
  failedChunks : Nat
  packedChunks : Nat
  processedBytes : Nat
  deriving DecidableEq, Repr

/-- What happens to a pack outside of the loop: `_push_pack` and the writing of the collected
updates. -/
structure PackDelivery (σ : Type) where
  push : σ → EncodedDataPack → σ × Except StopanError ErasureDataPackPushUpdate
  apply : σ → List ErasureDataPackPushUpdate → List ErasureDataPackPushErrorUpdate →
    σ × Option StopanError
  commitEvery : Nat

/-- The state of the loop, with the packs that its flushes have built so far. -/
structure PackLoop (σ : Type) where
  host : σ
  builder : DataPackBuilder
  packs : List EncodedDataPack
  pendingUpdates : List ErasureDataPackPushUpdate
  pendingErrorUpdates : List ErasureDataPackPushErrorUpdate
  counts : PackCounts

section Loop

variable {σ : Type} (blake3 : Blake3) (zfec : Zfec) (delivery : PackDelivery σ)

def flushPushUpdates (loop : PackLoop σ) : PackLoop σ × Option StopanError :=
  if loop.pendingUpdates.isEmpty && loop.pendingErrorUpdates.isEmpty then (loop, none)
  else
    match delivery.apply loop.host loop.pendingUpdates loop.pendingErrorUpdates with
    | (host, some reason) => ({ loop with host }, some reason)
    | (host, none) => ({ loop with host, pendingUpdates := [], pendingErrorUpdates := [] }, none)

def flushAndPushPack (loop : PackLoop σ) :
    PackLoop σ × Except StopanError (Option ErasureDataPackPushUpdate) :=
  match loop.builder.flush blake3 zfec with
  | .error reason => (loop, .error (.erasure (describe reason)))
  | .ok (none, builder) => ({ loop with builder }, .ok none)
  | .ok (some pack, builder) =>
      let pushed := delivery.push loop.host pack
      ({ loop with host := pushed.1, builder, packs := loop.packs ++ [pack] }, pushed.2.map some)

/-- A flush in the loop: its update is collected, and written when there are enough of them. -/
def flushInLoop (loop : PackLoop σ) : PackLoop σ × Option StopanError :=
  match flushAndPushPack blake3 zfec delivery loop with
  | (flushed, .error reason) => (flushed, some reason)
  | (flushed, .ok none) => (flushed, none)
  | (flushed, .ok (some update)) =>
      let collected := { flushed with pendingUpdates := flushed.pendingUpdates ++ [update] }
      if delivery.commitEvery ≤ collected.pendingUpdates.length then
        flushPushUpdates delivery collected
      else (collected, none)

/-- A chunk that has been read: flush before it if it would exceed the target, and after it if the
pack is full. -/
def packReadChunk (loop : PackLoop σ) (chunkHash : Text) (data : Bytes) :
    PackLoop σ × Option StopanError :=
  match if loop.builder.wouldExceedTarget data.length then flushInLoop blake3 zfec delivery loop
    else (loop, none) with
  | (flushed, some reason) => (flushed, some reason)
  | (flushed, none) =>
      match flushed.builder.addPrevalidatedChunk chunkHash data with
      | .error _ => ({ flushed with counts.failedChunks := flushed.counts.failedChunks + 1 }, none)
      | .ok (builder, mustFlush) =>
          let added := { flushed with
            builder
            counts.packedChunks := flushed.counts.packedChunks + 1
            counts.processedBytes := flushed.counts.processedBytes + data.length }
          if mustFlush then flushInLoop blake3 zfec delivery added else (added, none)

def packPendingChunk (repo : Text → LocalChunk) (loop : PackLoop σ) (chunkHash : Text) :
    PackLoop σ × Option StopanError :=
  match repo chunkHash with
  | .absent =>
      ({ loop with
        counts.missingLocalChunks := loop.counts.missingLocalChunks + 1
        counts.failedChunks := loop.counts.failedChunks + 1 }, none)
  | .unreadable _ => ({ loop with counts.failedChunks := loop.counts.failedChunks + 1 }, none)
  | .found data => packReadChunk blake3 zfec delivery loop chunkHash data

def packPendingChunks (repo : Text → LocalChunk) : PackLoop σ → List Text →
    PackLoop σ × Option StopanError
  | loop, [] => (loop, none)
  | loop, chunkHash :: rest =>
      match packPendingChunk blake3 zfec delivery repo loop chunkHash with
      | (packed, some reason) => (packed, some reason)
      | (packed, none) => packPendingChunks repo packed rest

/-- The part of `push_erasure_data_packs_to_network` about new chunks, up to the last write of the
updates. -/
def pushNewChunks (repo : Text → LocalChunk) (loop : PackLoop σ) (pendingChunks : List Text) :
    PackLoop σ × Option StopanError :=
  match packPendingChunks blake3 zfec delivery repo loop pendingChunks with
  | (ended, some reason) => (ended, some reason)
  | (ended, none) =>
      match flushAndPushPack blake3 zfec delivery ended with
      | (flushed, .error reason) => (flushed, some reason)
      | (flushed, .ok update) =>
          flushPushUpdates delivery
            { flushed with pendingUpdates := flushed.pendingUpdates ++ update.toList }

def readChunks (repo : Text → LocalChunk) (chunkHashes : List Text) : List (Text × Bytes) :=
  chunkHashes.filterMap fun chunkHash => (repo chunkHash).payload chunkHash

/-- The counts after some of the pending chunks: a chunk that could be read is packed, never
rejected. -/
def countedChunks (repo : Text → LocalChunk) (start : PackCounts)
    (done : List Text) : PackCounts where
  missingLocalChunks :=
    start.missingLocalChunks + done.countP fun chunkHash => repo chunkHash == .absent
  failedChunks :=
    start.failedChunks + done.countP fun chunkHash => ((repo chunkHash).payload chunkHash).isNone
  packedChunks := start.packedChunks + (readChunks repo done).length
  processedBytes := start.processedBytes + (packPayload (readChunks repo done)).length

/-- The packs and the builder are the bins of next-fit over the chunks read so far. -/
structure PackedBins (blake3 : Blake3) (zfec : Zfec) (read : List (Text × Bytes))
    (loop : PackLoop σ) (bins : Bins (Text × Bytes)) : Prop where
  current : bins.current = loop.builder.chunks
  closed : List.Forall₂
    (fun chunks pack => buildDataPackFromValidatedChunks blake3 zfec chunks loop.builder.spec =
      .ok pack)
    bins.closed loop.packs
  items : bins.items = read
  fits : bins.Fits (fun chunk => chunk.2.length) loop.builder.targetSizeBytes

structure Packed (blake3 : Blake3) (zfec : Zfec) (repo : Text → LocalChunk)
    (start loop : PackLoop σ) (done : List Text) :
    Prop where
  spec : loop.builder.spec = start.builder.spec
  target : loop.builder.targetSizeBytes = start.builder.targetSizeBytes
  counts : loop.counts = countedChunks repo start.counts done
  bins : ∃ bins, PackedBins blake3 zfec (readChunks repo done) loop bins

variable {blake3 zfec} {repo : Text → LocalChunk} {start loop other : PackLoop σ} {done : List Text}
variable {chunkHash : Text} {data : Bytes} {read : List (Text × Bytes)} {bins : Bins (Text × Bytes)}

theorem load_eq_packPayload (chunks : List (Text × Bytes)) :
    Bins.load (fun chunk : Text × Bytes => chunk.2.length) chunks =
      (packPayload chunks).length := by
  simp [Bins.load, packPayload, Function.comp_def]

theorem Packed.congr (packed : Packed blake3 zfec repo start loop done)
    (builder : other.builder = loop.builder)
    (packs : other.packs = loop.packs) (counts : other.counts = loop.counts) :
    Packed blake3 zfec repo start other done := by
  obtain ⟨bins, inBins⟩ := packed.bins
  refine ⟨by rw [builder, packed.spec], by rw [builder, packed.target],
    by rw [counts, packed.counts], bins, ?_, ?_, inBins.items, ?_⟩
  · rw [builder]
    exact inBins.current
  · rw [builder, packs]
    exact inBins.closed
  · rw [builder]
    exact inBins.fits

theorem flushPushUpdates_keeps (delivery : PackDelivery σ) (loop : PackLoop σ) :
    (flushPushUpdates delivery loop).1.builder = loop.builder ∧
      (flushPushUpdates delivery loop).1.packs = loop.packs ∧
      (flushPushUpdates delivery loop).1.counts = loop.counts := by
  rw [flushPushUpdates]
  split
  · exact ⟨rfl, rfl, rfl⟩
  · split <;> exact ⟨rfl, rfl, rfl⟩

/-- A flush closes the open bin, or raises before or after that. -/
theorem Packed.flushAndPushPack (packed : Packed blake3 zfec repo start loop done)
    (delivery : PackDelivery σ) :
    Packed blake3 zfec repo start (flushAndPushPack blake3 zfec delivery loop).1 done ∧
      ∀ update, (Erasure.flushAndPushPack blake3 zfec delivery loop).2 = .ok update →
        (Erasure.flushAndPushPack blake3 zfec delivery loop).1.builder.chunks = [] := by
  rw [Erasure.flushAndPushPack, DataPackBuilder.flush]
  by_cases empty : loop.builder.chunks.isEmpty = true
  · rw [if_pos empty]
    exact ⟨packed, fun _ _ => List.isEmpty_iff.mp empty⟩
  · rw [if_neg empty]
    cases built : buildDataPackFromValidatedChunks blake3 zfec loop.builder.chunks
      loop.builder.spec with
    | error reason => exact ⟨packed, fun _ impossible => by cases impossible⟩
    | ok pack =>
        refine ⟨?_, fun _ _ => rfl⟩
        obtain ⟨bins, inBins⟩ := packed.bins
        have filled : bins.current ≠ [] := by
          rw [inBins.current]
          simpa using empty
        refine ⟨packed.spec, packed.target, packed.counts, bins.close, Bins.current_close, ?_,
          ?_, inBins.fits.close⟩
        · rw [Bins.close_of_filled filled]
          refine List.rel_append inBins.closed (.cons ?_ .nil)
          rw [inBins.current]
          exact built
        · rw [Bins.items_close, inBins.items]

theorem Packed.flushInLoop (packed : Packed blake3 zfec repo start loop done)
    (delivery : PackDelivery σ) :
    Packed blake3 zfec repo start (flushInLoop blake3 zfec delivery loop).1 done ∧
      ((Erasure.flushInLoop blake3 zfec delivery loop).2 = none →
        (Erasure.flushInLoop blake3 zfec delivery loop).1.builder.chunks = []) := by
  have flushed := packed.flushAndPushPack delivery
  rw [Erasure.flushInLoop]
  generalize Erasure.flushAndPushPack blake3 zfec delivery loop = result at flushed ⊢
  obtain ⟨after, outcome⟩ := result
  cases outcome with
  | error reason => exact ⟨flushed.1, fun impossible => by cases impossible⟩
  | ok update =>
      have cleared := flushed.2 update rfl
      cases update with
      | none => exact ⟨flushed.1, fun _ => cleared⟩
      | some update =>
          dsimp only
          split
          · obtain ⟨builder, packs, counts⟩ := flushPushUpdates_keeps delivery
              { after with pendingUpdates := after.pendingUpdates ++ [update] }
            exact ⟨flushed.1.congr builder packs counts, fun _ => by rw [builder]; exact cleared⟩
          · exact ⟨flushed.1.congr rfl rfl rfl, fun _ => cleared⟩

theorem payload_found (found : repo chunkHash = .found data) :
    (repo chunkHash).payload chunkHash = some (chunkHash, data) := by
  rw [found, LocalChunk.payload]

theorem readChunks_concat (chunkHash : Text) :
    readChunks repo (done ++ [chunkHash]) = readChunks repo done ++
      ((repo chunkHash).payload chunkHash).toList := by
  rw [readChunks, List.filterMap_append]
  cases payload : (repo chunkHash).payload chunkHash <;> simp [readChunks, payload]

/-- A chunk that is not read leaves the bins and is counted. -/
theorem Packed.skip (packed : Packed blake3 zfec repo start loop done)
    (unread : (repo chunkHash).payload chunkHash = none) {counts : PackCounts}
    (counted : counts = { loop.counts with
      missingLocalChunks :=
        loop.counts.missingLocalChunks + if repo chunkHash = .absent then 1 else 0
      failedChunks := loop.counts.failedChunks + 1 }) :
    Packed blake3 zfec repo start { loop with counts } (done ++ [chunkHash]) := by
  have same : readChunks repo (done ++ [chunkHash]) = readChunks repo done := by
    rw [readChunks_concat, unread]
    exact List.append_nil _
  obtain ⟨bins, inBins⟩ := packed.bins
  refine ⟨packed.spec, packed.target, ?_, bins, inBins.current, inBins.closed, ?_, inBins.fits⟩
  · rw [counted, packed.counts]
    simp [countedChunks, same, unread, List.countP_append, List.countP_singleton, Nat.add_assoc]
  · rw [same]
    exact inBins.items

/-- A chunk that does not exceed the open pack is taken. -/
theorem Packed.add (packed : Packed blake3 zfec repo start loop done)
    (found : repo chunkHash = .found data)
    (room : loop.builder.wouldExceedTarget data.length = false) :
    Packed blake3 zfec repo start { loop with
      builder := loop.builder.append chunkHash data
      counts.packedChunks := loop.counts.packedChunks + 1
      counts.processedBytes := loop.counts.processedBytes + data.length }
        (done ++ [chunkHash]) := by
  have read : readChunks repo (done ++ [chunkHash]) = readChunks repo done ++
      [(chunkHash, data)] := by
    rw [readChunks_concat, payload_found found]
    rfl
  obtain ⟨bins, inBins⟩ := packed.bins
  refine ⟨packed.spec, packed.target, ?_, bins.add (chunkHash, data), ?_, inBins.closed, ?_,
    inBins.fits.add fun filled => ?_⟩
  · rw [packed.counts]
    simp [countedChunks, read, found, LocalChunk.payload, List.countP_append,
      packPayload_concat_length, Nat.add_assoc]
  · exact congrArg (· ++ [(chunkHash, data)]) inBins.current
  · rw [Bins.items_add, inBins.items, read]
  · rw [inBins.current] at filled
    rw [inBins.current, load_eq_packPayload, ← loop.builder.size_eq]
    simpa [DataPackBuilder.wouldExceedTarget, filled] using room

theorem wouldExceedTarget_of_empty {builder : DataPackBuilder} (empty : builder.chunks = [])
    (dataSize : Nat) :
    builder.wouldExceedTarget dataSize = false := by
  simp [DataPackBuilder.wouldExceedTarget, empty]

/-- The chunk is done, or an exception has stopped the loop before it was taken. -/
def Advanced (blake3 : Blake3) (zfec : Zfec) (repo : Text → LocalChunk)
    (start : PackLoop σ) (done : List Text)
    (chunkHash : Text) (after : PackLoop σ × Option StopanError) : Prop :=
  Packed blake3 zfec repo start after.1 (done ++ [chunkHash]) ∨
    after.2 ≠ none ∧ Packed blake3 zfec repo start after.1 done

theorem Packed.packReadChunk (packed : Packed blake3 zfec repo start loop done)
    (delivery : PackDelivery σ) (found : repo chunkHash = .found data) :
    Advanced blake3 zfec repo start done chunkHash
      (packReadChunk blake3 zfec delivery loop chunkHash data) := by
  have ready : ∃ ready, (if loop.builder.wouldExceedTarget data.length then
        Erasure.flushInLoop blake3 zfec delivery loop
        else (loop, none)) = ready ∧ Packed blake3 zfec repo start ready.1 done ∧
      (ready.2 = none → ready.1.builder.wouldExceedTarget data.length = false) := by
    cases exceeds : loop.builder.wouldExceedTarget data.length with
    | true =>
        obtain ⟨flushed, cleared⟩ := packed.flushInLoop delivery
        exact ⟨_, rfl, flushed, fun returned => wouldExceedTarget_of_empty (cleared returned) _⟩
    | false => exact ⟨(loop, none), rfl, packed, fun _ => exceeds⟩
  obtain ⟨⟨flushed, failure⟩, same, flushedPacked, room⟩ := ready
  rw [Erasure.packReadChunk, same]
  cases failure with
  | some reason => exact .inr ⟨by simp, flushedPacked⟩
  | none =>
      have added := flushedPacked.add found (room rfl)
      dsimp only
      rw [DataPackBuilder.addPrevalidatedChunk, DataPackBuilder.appendValidatedChunk, room rfl]
      dsimp only [Bool.false_eq_true, if_false]
      rw [if_neg Bool.false_ne_true]
      dsimp only
      split
      · exact .inl (added.flushInLoop delivery).1
      · exact .inl added

theorem Packed.packPendingChunk (packed : Packed blake3 zfec repo start loop done)
    (delivery : PackDelivery σ) (chunkHash : Text) :
    Advanced blake3 zfec repo start done chunkHash
      (packPendingChunk blake3 zfec delivery repo loop chunkHash) := by
  rw [Erasure.packPendingChunk]
  cases found : repo chunkHash with
  | absent =>
      refine .inl (packed.skip ?_ ?_)
      · simp [found, LocalChunk.payload]
      · simp [found]
  | unreadable reason =>
      refine .inl (packed.skip ?_ ?_)
      · simp [found, LocalChunk.payload]
      · simp [found]
  | found data => exact packed.packReadChunk delivery found

/-- The loop goes through the pending chunks, or stops at an exception after some of them. -/
theorem Packed.packPendingChunks (packed : Packed blake3 zfec repo start loop done)
    (delivery : PackDelivery σ) (pending : List Text) :
    ∃ passed rest, pending = passed ++ rest ∧
      Packed blake3 zfec repo start (packPendingChunks blake3 zfec delivery repo loop pending).1
        (done ++ passed) ∧
      ((Erasure.packPendingChunks blake3 zfec delivery repo loop pending).2 = none →
        rest = []) := by
  induction pending generalizing loop done with
  | nil => exact ⟨[], [], rfl, by rw [List.append_nil]; exact packed, fun _ => rfl⟩
  | cons chunkHash pending ih =>
      have advanced := packed.packPendingChunk delivery chunkHash
      rw [Erasure.packPendingChunks]
      generalize Erasure.packPendingChunk blake3 zfec delivery repo loop chunkHash =
        result at advanced ⊢
      obtain ⟨after, failure⟩ := result
      cases failure with
      | some reason =>
          rcases advanced with taken | ⟨-, before⟩
          · exact ⟨[chunkHash], pending, rfl, taken, fun impossible => by cases impossible⟩
          · exact ⟨[], chunkHash :: pending, rfl, by simpa using before,
              fun impossible => by cases impossible⟩
      | none =>
          rcases advanced with taken | ⟨raised, -⟩
          · obtain ⟨passed, rest, split, packedAfter, ended⟩ := ih taken
            refine ⟨chunkHash :: passed, rest, congrArg (chunkHash :: ·) split, ?_, ended⟩
            rw [List.append_cons]
            exact packedAfter
          · exact absurd rfl raised

theorem Packed.pushNewChunks (packed : Packed blake3 zfec repo start start [])
    (delivery : PackDelivery σ) (pending : List Text) :
    ∃ passed rest, pending = passed ++ rest ∧
      Packed blake3 zfec repo start
        (pushNewChunks blake3 zfec delivery repo start pending).1 passed ∧
      ((Erasure.pushNewChunks blake3 zfec delivery repo start pending).2 = none → rest = [] ∧
        (Erasure.pushNewChunks blake3 zfec delivery repo start pending).1.builder.chunks = []) := by
  obtain ⟨passed, rest, split, packedAfter, ended⟩ := packed.packPendingChunks delivery pending
  rw [List.nil_append] at packedAfter
  rw [Erasure.pushNewChunks]
  generalize Erasure.packPendingChunks blake3 zfec delivery repo start pending =
    result at packedAfter ended ⊢
  obtain ⟨after, failure⟩ := result
  cases failure with
  | some reason => exact ⟨passed, rest, split, packedAfter, fun impossible => by cases impossible⟩
  | none =>
      have flushed := packedAfter.flushAndPushPack delivery
      refine ⟨passed, rest, split, ?_⟩
      dsimp only
      generalize Erasure.flushAndPushPack blake3 zfec delivery after = final at flushed ⊢
      obtain ⟨finished, outcome⟩ := final
      cases outcome with
      | error reason => exact ⟨flushed.1, fun impossible => by cases impossible⟩
      | ok update =>
          obtain ⟨builder, packs, counts⟩ := flushPushUpdates_keeps delivery
            { finished with pendingUpdates := finished.pendingUpdates ++ update.toList }
          exact ⟨flushed.1.congr builder packs counts,
            fun _ => ⟨ended rfl, by rw [builder]; exact flushed.2 update rfl⟩⟩

/-- No push and no write of updates raises. -/
structure PackDelivery.Succeeds (delivery : PackDelivery σ) : Prop where
  push : ∀ host pack, ∃ update, (delivery.push host pack).2 = .ok update
  apply : ∀ host updates errors, (delivery.apply host updates errors).2 = none

variable {delivery : PackDelivery σ}

theorem flushPushUpdates_succeeds (succeeds : delivery.Succeeds) (loop : PackLoop σ) :
    (flushPushUpdates delivery loop).2 = none := by
  have applied := succeeds.apply loop.host loop.pendingUpdates loop.pendingErrorUpdates
  rw [flushPushUpdates]
  split
  · rfl
  · generalize delivery.apply loop.host loop.pendingUpdates loop.pendingErrorUpdates =
      result at applied ⊢
    obtain ⟨host, failure⟩ := result
    cases applied
    rfl

/-- What is read under a hash has this hash and is not empty. -/
def ReadsChunks (blake3 : Blake3) (repo : Text → LocalChunk) (chunkHashes : List Text) : Prop :=
  ∀ chunkHash ∈ chunkHashes, ∀ data, repo chunkHash = .found data → IsChunk blake3 (chunkHash, data)

theorem isChunk_of_mem_readChunks (reads : ReadsChunks blake3 repo done) {chunk : Text × Bytes}
    (member : chunk ∈ readChunks repo done) : IsChunk blake3 chunk := by
  obtain ⟨chunkHash, listed, payload⟩ := List.mem_filterMap.mp member
  cases found : repo chunkHash with
  | absent => simp [found, LocalChunk.payload] at payload
  | unreadable reason => simp [found, LocalChunk.payload] at payload
  | found data =>
      rw [payload_found found] at payload
      cases payload
      exact reads chunkHash listed data found

theorem Packed.flushAndPushPack_succeeds (packed : Packed blake3 zfec repo start loop done)
    (succeeds : delivery.Succeeds)
    (mds : zfec.Mds loop.builder.spec.dataShards loop.builder.spec.totalShards)
    (reads : ReadsChunks blake3 repo done) :
    ∃ update, (Erasure.flushAndPushPack blake3 zfec delivery loop).2 = .ok update := by
  rw [Erasure.flushAndPushPack, DataPackBuilder.flush]
  by_cases empty : loop.builder.chunks.isEmpty = true
  · rw [if_pos empty]
    exact ⟨none, rfl⟩
  · obtain ⟨bins, inBins⟩ := packed.bins
    have chunks : ∀ chunk ∈ loop.builder.chunks, IsChunk blake3 chunk := by
      intro chunk member
      refine isChunk_of_mem_readChunks reads ?_
      rw [← inBins.items, Bins.items, inBins.current]
      exact List.mem_append_right _ member
    have filled : loop.builder.chunks ≠ [] := by simpa using empty
    obtain ⟨update, pushed⟩ :=
      succeeds.push loop.host (packOf blake3 zfec loop.builder.chunks loop.builder.spec)
    rw [if_neg empty, buildDataPackFromValidatedChunks_of_mds mds filled chunks]
    refine ⟨some update, ?_⟩
    change (delivery.push loop.host _).2.map some = _
    rw [pushed]
    rfl

theorem Packed.flushInLoop_succeeds (packed : Packed blake3 zfec repo start loop done)
    (succeeds : delivery.Succeeds)
    (mds : zfec.Mds loop.builder.spec.dataShards loop.builder.spec.totalShards)
    (reads : ReadsChunks blake3 repo done) :
    (Erasure.flushInLoop blake3 zfec delivery loop).2 = none := by
  obtain ⟨update, returned⟩ := packed.flushAndPushPack_succeeds succeeds mds reads
  rw [Erasure.flushInLoop]
  generalize Erasure.flushAndPushPack blake3 zfec delivery loop = result at returned ⊢
  obtain ⟨after, outcome⟩ := result
  cases returned
  cases update with
  | none => rfl
  | some update =>
      dsimp only
      split
      · exact flushPushUpdates_succeeds succeeds _
      · rfl

theorem Packed.packReadChunk_succeeds (packed : Packed blake3 zfec repo start loop done)
    (succeeds : delivery.Succeeds)
    (mds : zfec.Mds start.builder.spec.dataShards start.builder.spec.totalShards)
    (reads : ReadsChunks blake3 repo (done ++ [chunkHash])) (found : repo chunkHash = .found data) :
    (Erasure.packReadChunk blake3 zfec delivery loop chunkHash data).2 = none := by
  have earlier : ReadsChunks blake3 repo done :=
    fun other member => reads other (List.mem_append_left _ member)
  have ready : ∃ flushed, (if loop.builder.wouldExceedTarget data.length then
        Erasure.flushInLoop blake3 zfec delivery loop
        else (loop, none)) = (flushed, none) ∧ Packed blake3 zfec repo start flushed done ∧
      flushed.builder.wouldExceedTarget data.length = false := by
    cases exceeds : loop.builder.wouldExceedTarget data.length with
    | true =>
        obtain ⟨flushed, cleared⟩ := packed.flushInLoop delivery
        have returned := packed.flushInLoop_succeeds succeeds (packed.spec ▸ mds) earlier
        exact ⟨_, Prod.ext rfl returned, flushed, wouldExceedTarget_of_empty (cleared returned) _⟩
    | false => exact ⟨loop, rfl, packed, exceeds⟩
  obtain ⟨flushed, same, flushedPacked, room⟩ := ready
  have added := flushedPacked.add found room
  rw [Erasure.packReadChunk, same]
  dsimp only
  rw [DataPackBuilder.addPrevalidatedChunk, DataPackBuilder.appendValidatedChunk, room,
    if_neg Bool.false_ne_true]
  dsimp only
  split
  · exact added.flushInLoop_succeeds succeeds (added.spec ▸ mds) reads
  · rfl

theorem Packed.packPendingChunks_succeeds (packed : Packed blake3 zfec repo start loop done)
    (succeeds : delivery.Succeeds)
    (mds : zfec.Mds start.builder.spec.dataShards start.builder.spec.totalShards)
    {pending : List Text} (reads : ReadsChunks blake3 repo (done ++ pending)) :
    (Erasure.packPendingChunks blake3 zfec delivery repo loop pending).2 = none := by
  induction pending generalizing loop done with
  | nil => rfl
  | cons chunkHash pending ih =>
      rw [List.append_cons] at reads
      have upTo : ReadsChunks blake3 repo (done ++ [chunkHash]) := fun other member =>
        reads other (List.mem_append_left _ member)
      have returned : (Erasure.packPendingChunk blake3 zfec delivery repo loop chunkHash).2 =
          none := by
        rw [Erasure.packPendingChunk]
        cases found : repo chunkHash with
        | absent => rfl
        | unreadable reason => rfl
        | found data => exact packed.packReadChunk_succeeds succeeds mds upTo found
      have advanced := packed.packPendingChunk delivery chunkHash
      rw [Erasure.packPendingChunks]
      generalize Erasure.packPendingChunk blake3 zfec delivery repo loop chunkHash =
        result at advanced returned ⊢
      obtain ⟨after, failure⟩ := result
      cases returned
      rcases advanced with taken | ⟨raised, -⟩
      · exact ih taken reads
      · exact absurd rfl raised

theorem Packed.pushNewChunks_succeeds (packed : Packed blake3 zfec repo start start [])
    (succeeds : delivery.Succeeds)
    (mds : zfec.Mds start.builder.spec.dataShards start.builder.spec.totalShards)
    {pending : List Text} (reads : ReadsChunks blake3 repo pending) :
    (Erasure.pushNewChunks blake3 zfec delivery repo start pending).2 = none := by
  obtain ⟨passed, rest, split, packedAfter, -⟩ := packed.packPendingChunks delivery pending
  have returned := packed.packPendingChunks_succeeds succeeds mds reads
  rw [List.nil_append] at packedAfter
  rw [Erasure.pushNewChunks]
  generalize Erasure.packPendingChunks blake3 zfec delivery repo start pending =
    result at packedAfter returned ⊢
  obtain ⟨after, failure⟩ := result
  cases returned
  have passedReads : ReadsChunks blake3 repo passed :=
    fun other member => reads other (split ▸ List.mem_append_left _ member)
  obtain ⟨update, flushed⟩ :=
    packedAfter.flushAndPushPack_succeeds succeeds (packedAfter.spec ▸ mds) passedReads
  dsimp only
  generalize Erasure.flushAndPushPack blake3 zfec delivery after = final at flushed ⊢
  obtain ⟨finished, outcome⟩ := final
  cases flushed
  exact flushPushUpdates_succeeds succeeds _

theorem readChunks_names (repo : Text → LocalChunk) (done : List Text) :
    ((readChunks repo done).map Prod.fst).Sublist done := by
  induction done with
  | nil => exact .slnil
  | cons chunkHash rest ih =>
      cases found : repo chunkHash with
      | absent => simpa [readChunks, found, LocalChunk.payload] using ih.cons chunkHash
      | unreadable reason => simpa [readChunks, found, LocalChunk.payload] using ih.cons chunkHash
      | found data => simpa [readChunks, found, LocalChunk.payload] using ih

theorem packed_start {builder : DataPackBuilder} {spec : ErasureSpec} {targetSizeBytes : Int}
    (created : DataPackBuilder.create spec targetSizeBytes = .ok builder)
    (same : start.builder = builder)
    (fresh : start.packs = []) : Packed blake3 zfec repo start start [] := by
  rw [DataPackBuilder.create, ensure_bind_eq_ok_iff] at created
  cases pure_eq_ok_iff.mp created.2
  refine ⟨rfl, rfl, rfl, ⟨[], []⟩, ?_, ?_, rfl, ?_⟩
  · rw [same]
  · rw [fresh]
    exact .nil
  · exact ⟨fun _ none => (List.not_mem_nil none).elim, fun several => by cases several⟩

/-- The chunks that can be read are in the packs, each in one and in their order, and what is still
in the builder when an exception stops the loop; packs of several chunks do not exceed the target,
and no chunk is rejected. Only a failed push stops the loop, and at its end the builder is empty. -/
theorem pushNewChunks_packsEach {spec : ErasureSpec} {targetSizeBytes : Int}
    (created : DataPackBuilder.create spec targetSizeBytes = .ok start.builder)
    (fresh : start.packs = []) {pending : List Text} (distinct : pending.Nodup) :
    let run := pushNewChunks blake3 zfec delivery repo start pending
    ∃ groups passed rest, pending = passed ++ rest ∧
      List.Forall₂ (fun chunks pack => buildDataPackFromValidatedChunks blake3 zfec chunks spec =
        .ok pack) groups run.1.packs ∧
      groups.flatten ++ run.1.builder.chunks = readChunks repo passed ∧
      (groups.flatten.map Prod.fst).Nodup ∧
      (∀ group ∈ groups, 1 < group.length → ((packPayload group).length : Int) ≤ targetSizeBytes) ∧
      run.1.counts = countedChunks repo start.counts passed ∧
      (run.2 = none → rest = [] ∧ run.1.builder.chunks = []) ∧
      (delivery.Succeeds → zfec.Mds spec.dataShards spec.totalShards →
        ReadsChunks blake3 repo pending → run.2 = none) := by
  have packed : Packed blake3 zfec repo start start [] := packed_start created rfl fresh
  have built := created
  rw [DataPackBuilder.create, ensure_bind_eq_ok_iff, decide_eq_true_eq] at built
  have builder := pure_eq_ok_iff.mp built.2
  have sameSpec : start.builder.spec = spec := by rw [← builder]
  have sameTarget : (start.builder.targetSizeBytes : Int) = targetSizeBytes := by
    rw [← builder]
    exact Int.toNat_of_nonneg built.1.le
  obtain ⟨passed, rest, split, packedAfter, ended⟩ := packed.pushNewChunks delivery pending
  obtain ⟨bins, inBins⟩ := packedAfter.bins
  have items := inBins.items
  rw [Bins.items, inBins.current] at items
  refine ⟨bins.closed, passed, rest, split, ?_, items, ?_, ?_, packedAfter.counts, ended,
    fun succeeds mds reads => ?_⟩
  · have closed := inBins.closed
    rw [packedAfter.spec, sameSpec] at closed
    exact closed
  · have passedDistinct : passed.Nodup := (List.nodup_append.mp (split ▸ distinct)).1
    have names := passedDistinct.sublist (readChunks_names repo passed)
    rw [← items, List.map_append] at names
    exact (List.nodup_append.mp names).1
  · intro group member several
    have within := inBins.fits.closed group member several
    rw [load_eq_packPayload, packedAfter.target] at within
    omega
  · exact packed.pushNewChunks_succeeds succeeds (sameSpec ▸ mds) reads

end Loop

namespace ThreeReadable

def chunks : List (Text × Bytes) :=
  [Striping.named [1], Striping.named [2, 3], Striping.named [1, 2]]

/-- The second chunk is not there. -/
def pending : List Text :=
  [(Striping.named [1]).1, List.replicate 64 '0', (Striping.named [2, 3]).1,
    (Striping.named [1, 2]).1]

def repo (chunkHash : Text) : LocalChunk :=
  match chunks.lookup chunkHash with
  | some data => .found data
  | none => .absent

/-- A delivery that only counts. -/
def delivery : PackDelivery Nat where
  push count pack := (count + 1, .ok {
    packHash := pack.packHash
    codec := "zfec".toList
    dataShards := pack.spec.dataShards
    parityShards := pack.spec.parityShards
    payloadSize := pack.payloadSize
    paddedSize := pack.paddedSize
    shardSize := pack.shardSize
    chunks := []
    shards := []
    protectionState := .placed
    placementEpoch := none
    pushedAt := ⟨0⟩ })
  apply count _ _ := (count, none)
  commitEvery := 1

def builder : DataPackBuilder where
  spec := Striping.spec
  targetSizeBytes := 3
  chunks := []
  currentSize := 0
  size_eq := packPayload_nil_length

def start : PackLoop Nat where
  host := 0
  builder := builder
  packs := []
  pendingUpdates := []
  pendingErrorUpdates := []
  counts := { missingLocalChunks := 0, failedChunks := 0, packedChunks := 0, processedBytes := 0 }

end ThreeReadable

/-- The first two chunks that are there fill a pack, and the last one is in a pack of its own. -/
theorem threeReadable_packed :
    ∃ groups, List.Forall₂ (fun chunks pack =>
        buildDataPackFromValidatedChunks Striping.blake3 Striping.zfec chunks Striping.spec =
          .ok pack) groups
        (pushNewChunks Striping.blake3 Striping.zfec ThreeReadable.delivery
          ThreeReadable.repo ThreeReadable.start
          ThreeReadable.pending).1.packs ∧
      groups.flatten = ThreeReadable.chunks ∧
      (pushNewChunks Striping.blake3 Striping.zfec ThreeReadable.delivery
        ThreeReadable.repo ThreeReadable.start
        ThreeReadable.pending).1.packs.map (·.payloadSize) = [3, 2] := by
  have distinct : ThreeReadable.pending.Nodup := by decide +kernel
  have succeeds : ThreeReadable.delivery.Succeeds := ⟨fun _ _ => ⟨_, rfl⟩, fun _ _ _ => rfl⟩
  have reads : ReadsChunks Striping.blake3 ThreeReadable.repo ThreeReadable.pending := by
    intro chunkHash _ data found
    have names : (ThreeReadable.chunks.map Prod.fst).Nodup := by decide +kernel
    have listed : (chunkHash, data) ∈ ThreeReadable.chunks := by
      rw [ThreeReadable.repo] at found
      split at found
      · rename_i stored located
        cases found
        exact (lookup_eq_some_iff_mem names).mp located
      · cases found
    have sound : ∀ chunk ∈ ThreeReadable.chunks, chunk.1 = blake3HexDigest Striping.blake3 chunk.2 ∧
        chunk.2 ≠ [] := by
      simp [ThreeReadable.chunks, Striping.named]
    exact sound _ listed
  have created : DataPackBuilder.create Striping.spec 3 = .ok ThreeReadable.start.builder := rfl
  obtain ⟨groups, passed, rest, split, built, items, -, -, -, ended, returns⟩ :=
    @pushNewChunks_packsEach _ Striping.blake3 Striping.zfec ThreeReadable.repo ThreeReadable.start
      ThreeReadable.delivery _ _
      created rfl _ distinct
  obtain ⟨all, cleared⟩ := ended (returns succeeds (Striping.mds 3) reads)
  refine ⟨groups, built, ?_, by decide +kernel⟩
  rw [cleared, List.append_nil] at items
  rw [all, List.append_nil] at split
  rw [items, ← split]
  decide +kernel

end Stopan.Erasure
