import Stopan.Erasure.DataPack

namespace Stopan.Erasure

open Stopan.Lib Stopan.Common

/-- What is relied on of `zfec` for `K` of `N`: blocks of one length are encoded to `N` blocks of
that length, any `K` of which decode to the blocks encoded. -/
structure Zfec.Mds (zfec : Zfec) (dataShards totalShards : Nat) : Prop where
  count : ∀ blocks size, blocks.length = dataShards → (∀ block ∈ blocks, block.length = size) →
    (zfec.encode dataShards totalShards blocks (List.range totalShards)).length = totalShards
  size : ∀ blocks size, blocks.length = dataShards → (∀ block ∈ blocks, block.length = size) →
    ∀ raw ∈ zfec.encode dataShards totalShards blocks (List.range totalShards), raw.length = size
  recovers : ∀ blocks size indexes, blocks.length = dataShards →
    (∀ block ∈ blocks, block.length = size) →
    indexes.Nodup → indexes.length = dataShards → (∀ index ∈ indexes, index < totalShards) →
    zfec.decode dataShards totalShards
      (indexes.map fun index =>
        (zfec.encode dataShards totalShards blocks (List.range totalShards)).getD index [])
      indexes = blocks

/-- What is relied on besides where shards may be forged: any `K` blocks of one length are shards of
some blocks, and nothing is decoded from blocks of different lengths, which `zfec` refuses. -/
structure Zfec.Strict (zfec : Zfec) (dataShards totalShards : Nat) :
    Prop extends zfec.Mds dataShards totalShards where
  covers : ∀ (shares : List Bytes) (size : Nat) (indexes : List Nat), shares.length = dataShards →
    (∀ share ∈ shares, share.length = size) → indexes.Nodup → indexes.length = dataShards →
    (∀ index ∈ indexes, index < totalShards) →
    ∃ blocks, blocks.length = dataShards ∧ (∀ block ∈ blocks, block.length = size) ∧
      shares = indexes.map fun index =>
        (zfec.encode dataShards totalShards blocks (List.range totalShards)).getD index []
  refuses : ∀ (shares : List Bytes) (indexes : List Nat),
    (∃ left ∈ shares, ∃ right ∈ shares, left.length ≠ right.length) →
      zfec.decode dataShards totalShards shares indexes = []

/-- A chunk as the packer accepts it: named by its hash and not empty. -/
def IsChunk (blake3 : Blake3) (chunk : Text × Bytes) : Prop :=
  chunk.1 = blake3HexDigest blake3 chunk.2 ∧ chunk.2 ≠ []

def EncodedDataPack.manifest (pack : EncodedDataPack) : DataPackManifest where
  packHash := pack.packHash
  payloadSize := pack.payloadSize
  paddedSize := pack.paddedSize
  shardSize := pack.shardSize
  spec := pack.spec
  entries := pack.entries

section Splitting

variable {data : Bytes} {count size : Nat}

theorem flatten_slices (data : Bytes) (count size : Nat) :
    ((List.range count).map fun index => (data.take ((index + 1) * size)).drop
      (index * size)).flatten = data.take (count * size) := by
  induction count with
  | zero => simp
  | succ count ih =>
      have shorter : (data.take ((count + 1) * size)).take (count * size) = data.take
          (count * size) := by
        rw [List.take_take, Nat.min_eq_left (Nat.mul_le_mul_right size (Nat.le_succ count))]
      rw [List.range_succ, List.map_append, List.flatten_append, ih, ← shorter]
      simp only [List.map_cons, List.map_nil, List.flatten_cons, List.flatten_nil, List.append_nil]
      exact List.take_append_drop (count * size) (data.take ((count + 1) * size))

theorem slice_length {index : Nat} (enough : count * size ≤ data.length) (inside : index < count) :
    ((data.take ((index + 1) * size)).drop (index * size)).length = size := by
  have within : (index + 1) * size ≤ count * size := Nat.mul_le_mul_right size inside
  rw [List.length_drop, List.length_take, Nat.min_eq_left (within.trans enough), Nat.succ_mul]
  omega

theorem primaryShardSize_eq_max (payload : Bytes) (dataShards : Nat) :
    primaryShardSize payload dataShards = max
      ((payload.length + dataShards - 1) / dataShards) 1 := by
  unfold primaryShardSize
  generalize (payload.length + dataShards - 1) / dataShards = rounded
  split <;> omega

theorem length_le_primaryShardSize (payload : Bytes) {dataShards : Nat}
    (positive : 0 < dataShards) :
    payload.length ≤ primaryShardSize payload dataShards * dataShards := by
  have rounded : payload.length ≤ (payload.length + dataShards - 1) / dataShards * dataShards := by
    have division := Nat.div_add_mod (payload.length + dataShards - 1) dataShards
    have remainder := Nat.mod_lt (payload.length + dataShards - 1) positive
    rw [Nat.mul_comm] at division
    omega
  rw [primaryShardSize_eq_max]
  exact rounded.trans (Nat.mul_le_mul_right _ (Nat.le_max_left ..))

theorem padPayload_length (payload : Bytes) (dataShards : Nat) :
    dataShards * primaryShardSize payload dataShards ≤ (padPayload payload dataShards).length := by
  have padding : ∀ count, ((List.replicate count paddingText).flatten).length = count * 4 := by
    intro count
    simp [paddingText]
  rw [padPayload, List.length_append, padding, Nat.mul_comm]
  omega

theorem padPayload_take (payload : Bytes) (dataShards : Nat) :
    (padPayload payload dataShards).take payload.length = payload := by
  rw [padPayload, List.take_left]

variable {payload : Bytes} {dataShards : Nat}

theorem splitPrimaryBlocks_count :
    (splitPrimaryBlocks payload dataShards).1.length = dataShards := by
  simp [splitPrimaryBlocks]

theorem splitPrimaryBlocks_size (payload : Bytes) (dataShards : Nat) (block : Bytes)
    (member : block ∈ (splitPrimaryBlocks payload dataShards).1) :
    block.length = primaryShardSize payload dataShards := by
  obtain ⟨index, inside, rfl⟩ := List.mem_map.mp member
  exact slice_length (padPayload_length payload dataShards) (List.mem_range.mp inside)

/-- Cutting the blocks off at the length of the payload takes the padding away again. -/
theorem splitPrimaryBlocks_joined (positive : 0 < dataShards) :
    (splitPrimaryBlocks payload dataShards).1.flatten.take payload.length = payload := by
  have longer := length_le_primaryShardSize payload positive
  rw [splitPrimaryBlocks]
  dsimp only
  rw [flatten_slices, List.take_take, Nat.mul_comm, Nat.min_eq_left longer, padPayload_take]

/-- Blocks of one size that together are the payload followed by zero bytes. -/
structure ZeroPadded (payload : Bytes) (dataShards : Nat) (split : List Bytes × Nat) : Prop where
  count : split.1.length = dataShards
  shardSize : split.2 = max 1 (payload.length ⌈/⌉ dataShards)
  size : ∀ block ∈ split.1, block.length = split.2
  joined : ∃ zeros, split.1.flatten = payload ++ List.replicate zeros 0

theorem splitPrimaryBlocks_shardSize (payload : Bytes) (dataShards : Nat) :
    (splitPrimaryBlocks payload dataShards).2 = max 1 (payload.length ⌈/⌉ dataShards) := by
  rw [Nat.ceilDiv_eq_add_pred_div, max_comm]
  exact primaryShardSize_eq_max payload dataShards

/-- The blocks together, with the padding that is cut off behind the last one. -/
theorem splitPrimaryBlocks_flatten (positive : 0 < dataShards) :
    (splitPrimaryBlocks payload dataShards).1.flatten = payload ++
      ((List.replicate (primaryShardSize payload dataShards * dataShards - payload.length)
        paddingText).flatten).take
        (primaryShardSize payload dataShards * dataShards - payload.length) := by
  have longer := length_le_primaryShardSize payload positive
  rw [splitPrimaryBlocks]
  dsimp only
  rw [flatten_slices, Nat.mul_comm, padPayload, List.take_append, List.take_of_length_le longer]

/-- Nothing is filled up for a payload that the shards divide. -/
theorem primaryShardSize_mul_eq_iff (positive : 0 < dataShards) :
    primaryShardSize payload dataShards * dataShards = payload.length ↔ payload ≠ [] ∧
      dataShards ∣ payload.length := by
  constructor
  · intro tight
    refine ⟨?_, tight ▸ Nat.dvd_mul_left dataShards _⟩
    rintro rfl
    have atLeastOne : 1 ≤ primaryShardSize [] dataShards := by
      rw [primaryShardSize_eq_max]
      exact Nat.le_max_right ..
    have area : 1 * 1 ≤ primaryShardSize [] dataShards * dataShards :=
      Nat.mul_le_mul atLeastOne positive
    rw [tight] at area
    simp at area
  · rintro ⟨nonempty, count, divided⟩
    have filled : 0 < count := by
      rcases Nat.eq_zero_or_pos count with rfl | filled
      · exact absurd (List.eq_nil_of_length_eq_zero (by simpa using divided)) nonempty
      · exact filled
    have rounded : (payload.length + dataShards - 1) / dataShards = count := by
      rw [divided, Nat.add_sub_assoc positive, Nat.mul_add_div positive,
        Nat.div_eq_of_lt (by omega), Nat.add_zero]
    rw [primaryShardSize_eq_max, rounded, Nat.max_eq_left filled, divided, Nat.mul_comm]

/-- The padding is the text of an escape and no zero byte: only a payload that needs none is split
into zero-padded blocks. -/
theorem splitPrimaryBlocks_zeroPadded_iff (payload : Bytes) (positive : 0 < dataShards) :
    ZeroPadded payload dataShards (splitPrimaryBlocks payload dataShards) ↔
      payload ≠ [] ∧ dataShards ∣ payload.length := by
  rw [← primaryShardSize_mul_eq_iff positive]
  have longer := length_le_primaryShardSize payload positive
  have whole := @splitPrimaryBlocks_flatten payload dataShards positive
  constructor
  · rintro ⟨-, -, -, zeros, joined⟩
    rw [whole] at joined
    have padded := List.append_cancel_left joined
    cases missing : primaryShardSize payload dataShards * dataShards - payload.length with
    | zero => omega
    | succ missing =>
        rw [missing, List.replicate_succ, List.flatten_cons, paddingText, List.cons_append,
          List.take_succ_cons] at padded
        cases zeros with
        | zero => simp at padded
        | succ zeros =>
            rw [List.replicate_succ, List.cons.injEq] at padded
            exact absurd padded.1 (by decide)
  · intro divided
    refine ⟨splitPrimaryBlocks_count, splitPrimaryBlocks_shardSize payload dataShards,
      splitPrimaryBlocks_size payload dataShards, 0, ?_⟩
    rw [whole, divided, Nat.sub_self, List.take_zero, List.replicate_zero]

theorem fourBytes_zeroPadded : ZeroPadded [1, 2, 3, 4] 2 ([[1, 2], [3, 4]], 2) :=
  (@splitPrimaryBlocks_zeroPadded_iff 2 [1, 2, 3, 4] (by decide)).mpr ⟨by decide, by decide⟩

/-- One byte for two shards: the second block is a backslash. -/
theorem oneByte_notZeroPadded : ¬ ZeroPadded [1] 2 (splitPrimaryBlocks [1] 2) := by
  have split : splitPrimaryBlocks [1] 2 = ([[1], [0x5c]], 1) := by decide
  rw [split]
  rintro ⟨-, -, -, zeros, joined⟩
  cases zeros with
  | zero => cases joined
  | succ zeros =>
      rw [List.replicate_succ] at joined
      simp at joined

end Splitting

section Encoding

variable {blake3 : Blake3} {zfec : Zfec} {spec : ErasureSpec} {packHash : Text} {payload : Bytes}

def rawShards (zfec : Zfec) (spec : ErasureSpec) (payload : Bytes) : List Bytes :=
  zfec.encode spec.dataShards spec.totalShards (splitPrimaryBlocks payload spec.dataShards).1
    (List.range spec.totalShards)

def shardOf (blake3 : Blake3) (packHash : Text) (raw : Nat × Bytes) : DataPackShard where
  packHash
  shardIndex := raw.1
  data := raw.2
  shardHash := blake3HexDigest blake3 raw.2

theorem encodeShards_of_sizes {shardSize : Nat} (valid : isValidBlake3Hex packHash = true)
    (raws : List (Nat × Bytes)) (sizes : ∀ raw ∈ raws, raw.2.length = shardSize) :
    encodeShards blake3 packHash shardSize raws = .ok (raws.map (shardOf blake3 packHash)) := by
  induction raws with
  | nil => rfl
  | cons raw rest ih =>
      rw [encodeShards, ensure_bind_eq_ok_iff]
      refine ⟨decide_eq_true (sizes raw (by simp)), ?_⟩
      rw [dataPackShardFromPrehashed, requireHash_of_valid valid,
        requireHash_of_valid (blake3HexDigest_valid blake3 raw.2),
        ih fun other member => sizes other (by simp [member])]
      rfl

theorem encode_of_mds (mds : zfec.Mds spec.dataShards spec.totalShards)
    (valid : isValidBlake3Hex packHash = true) :
    encode blake3 zfec packHash payload spec =
      .ok (((List.range spec.totalShards).zip (rawShards zfec spec payload)).map
        (shardOf blake3 packHash)) := by
  have count := mds.count _ _ splitPrimaryBlocks_count (splitPrimaryBlocks_size payload _)
  have sizes := mds.size _ _ splitPrimaryBlocks_count (splitPrimaryBlocks_size payload _)
  rw [encode]
  dsimp only
  rw [ensure_bind_eq_ok_iff]
  refine ⟨by simp [count], ?_⟩
  apply encodeShards_of_sizes valid
  intro raw member
  exact sizes raw.2 (List.of_mem_zip member).2

theorem checkShards_of_shardOf {shardSize totalShards : Nat}
    (raws : List (Nat × Bytes)) (seen : List Nat)
    (sizes : ∀ raw ∈ raws, raw.2.length = shardSize) (bounded : ∀ raw ∈ raws, raw.1 < totalShards)
    (distinct : (raws.map Prod.fst).Nodup) (fresh : ∀ raw ∈ raws, raw.1 ∉ seen) :
    checkShards packHash totalShards shardSize seen
      (raws.map (shardOf blake3 packHash)) = .ok () := by
  induction raws generalizing seen with
  | nil => rfl
  | cons raw rest ih =>
      rw [List.map_cons, List.nodup_cons] at distinct
      rw [List.map_cons, checkShards, ensure_bind_eq_ok_iff, ensure_bind_eq_ok_iff,
        ensure_bind_eq_ok_iff, ensure_bind_eq_ok_iff]
      refine ⟨decide_eq_true rfl, decide_eq_true (bounded raw (by simp)),
        decide_eq_true (fresh raw (by simp)), decide_eq_true (sizes raw (by simp)), ?_⟩
      apply ih
      · exact fun other member => sizes other (by simp [member])
      · exact fun other member => bounded other (by simp [member])
      · exact distinct.2
      · intro other member inside
        rcases List.mem_cons.mp inside with same | earlier
        · exact distinct.1 (List.mem_map.mpr ⟨other, member, same⟩)
        · exact fresh other (by simp [member]) earlier

/-- The entries that a sequence of chunks gets from an offset and an ordinal on. -/
def entriesOf (offset ordinal : Nat) : List (Text × Bytes) → List DataPackEntry
  | [] => []
  | (chunkHash, data) :: rest =>
      { chunkHash, offset, length := data.length, ordinal } :: entriesOf
        (offset + data.length) (ordinal + 1) rest

theorem packEntries_of_chunks (chunks : List (Text × Bytes)) (offset ordinal : Nat)
    (chunk : ∀ chunk ∈ chunks, IsChunk blake3 chunk) :
    packEntries offset ordinal chunks = .ok (entriesOf offset ordinal chunks) := by
  induction chunks generalizing offset ordinal with
  | nil => rfl
  | cons first rest ih =>
      obtain ⟨named, filled⟩ := chunk first (by simp)
      have valid : isValidBlake3Hex first.1 = true := named ▸ blake3HexDigest_valid blake3 _
      have positive : decide (0 < first.2.length) = true :=
        decide_eq_true (List.length_pos_iff.mpr filled)
      rw [packEntries, createDataPackEntry, requireHash_of_valid valid,
        ih _ _ fun other member => chunk other (by simp [member])]
      simp only [positive, ensure, if_true]
      rfl

theorem checkEntries_entriesOf (chunks : List (Text × Bytes)) (offset ordinal : Nat) :
    checkEntries ordinal offset (entriesOf offset ordinal chunks) = .ok
      (offset + (packPayload chunks).length) := by
  induction chunks generalizing offset ordinal with
  | nil => rfl
  | cons first rest ih =>
      rw [entriesOf, checkEntries, ensure_bind_eq_ok_iff, ensure_bind_eq_ok_iff]
      refine ⟨decide_eq_true rfl, decide_eq_true rfl, ?_⟩
      rw [ih]
      simp [packPayload, Nat.add_assoc]

/-- The pack that is built from a sequence of chunks. -/
def packOf (blake3 : Blake3) (zfec : Zfec) (chunks : List (Text × Bytes)) (spec : ErasureSpec) :
    EncodedDataPack where
  packHash := blake3HexDigest blake3 (packPayload chunks)
  payloadSize := (packPayload chunks).length
  paddedSize := primaryShardSize (packPayload chunks) spec.dataShards * spec.dataShards
  shardSize := primaryShardSize (packPayload chunks) spec.dataShards
  spec
  entries := entriesOf 0 0 chunks
  shards :=
    sortedByIndex (((List.range spec.totalShards).zip
      (rawShards zfec spec (packPayload chunks))).map
    (shardOf blake3 (blake3HexDigest blake3 (packPayload chunks))))

theorem buildDataPackFromValidatedChunks_of_mds {chunks : List (Text × Bytes)}
    (mds : zfec.Mds spec.dataShards spec.totalShards) (filled : chunks ≠ [])
    (chunk : ∀ chunk ∈ chunks, IsChunk blake3 chunk) :
    buildDataPackFromValidatedChunks blake3 zfec chunks spec = .ok
      (packOf blake3 zfec chunks spec) := by
  have valid := blake3HexDigest_valid blake3 (packPayload chunks)
  have count :=
    mds.count _ _ splitPrimaryBlocks_count (splitPrimaryBlocks_size (packPayload chunks) _)
  have sizes :=
    mds.size _ _ splitPrimaryBlocks_count (splitPrimaryBlocks_size (packPayload chunks) _)
  rw [buildDataPackFromValidatedChunks, ensure_bind_eq_ok_iff]
  refine ⟨by simpa using filled, ?_⟩
  rw [packEntries_of_chunks chunks 0 0 chunk, bind_eq_ok_iff]
  refine ⟨_, rfl, ?_⟩
  dsimp only
  rw [encode_of_mds mds valid, bind_eq_ok_iff]
  refine ⟨_, rfl, ?_⟩
  rw [← primaryShardSize_eq_max, createEncodedDataPack, requireHash_of_valid valid, bind_eq_ok_iff]
  refine ⟨_, rfl, ?_⟩
  rw [ensure_bind_eq_ok_iff, ensure_bind_eq_ok_iff, ensure_bind_eq_ok_iff, bind_eq_ok_iff]
  refine ⟨decide_eq_true rfl, decide_eq_true (length_le_primaryShardSize _ spec.positive), ?_,
    _, checkEntries_entriesOf chunks 0 0, ?_⟩
  · simp [rawShards, count]
  · rw [ensure_bind_eq_ok_iff]
    refine ⟨by simp, ?_⟩
    rw [checkShards_of_shardOf]
    · rfl
    · exact fun raw member => sizes raw.2 (List.of_mem_zip member).2
    · exact fun raw member => List.mem_range.mp (List.of_mem_zip member).1
    · rw [List.map_fst_zip (by simp [rawShards, count])]
      exact List.nodup_range
    · exact fun _ _ inside => nomatch inside

theorem buildDataPack_of_mds {chunks : List (Text × Bytes)}
    (mds : zfec.Mds spec.dataShards spec.totalShards)
    (filled : chunks ≠ []) (chunk : ∀ chunk ∈ chunks, IsChunk blake3 chunk) :
    buildDataPack blake3 zfec chunks spec = .ok (packOf blake3 zfec chunks spec) := by
  have validated : (chunks.mapM fun chunk => validatedChunkPayload blake3 chunk.1 chunk.2) =
      .ok chunks := by
    rw [mapM_eq_ok_iff, List.forall₂_same]
    intro item member
    obtain ⟨named, -⟩ := chunk item member
    have valid : isValidBlake3Hex item.1 = true := named ▸ blake3HexDigest_valid blake3 _
    rw [validatedChunkPayload, requireHash_of_valid valid, bind_eq_ok_iff]
    refine ⟨_, rfl, ?_⟩
    rw [ensure_bind_eq_ok_iff]
    exact ⟨decide_eq_true named.symm, rfl⟩
  rw [buildDataPack, validated, bind_eq_ok_iff]
  exact ⟨_, rfl, buildDataPackFromValidatedChunks_of_mds mds filled chunk⟩

end Encoding

section Decoding

variable {blake3 : Blake3} {zfec : Zfec} {spec : ErasureSpec} {packHash : Text} {payload : Bytes}

theorem mem_sortedByIndex {shards : List DataPackShard} {shard : DataPackShard} :
    shard ∈ sortedByIndex shards ↔ shard ∈ shards :=
  (List.perm_insertionSort _ shards).mem_iff

theorem checkSelected_of_distinct {totalShards : Nat} (shards : List DataPackShard)
    (seen : List Nat)
    (belong : ∀ shard ∈ shards, shard.packHash = packHash ∧ shard.shardIndex < totalShards)
    (distinct : (shards.map (·.shardIndex)).Nodup)
    (fresh : ∀ shard ∈ shards, shard.shardIndex ∉ seen) :
    checkSelected packHash totalShards seen shards = .ok () := by
  induction shards generalizing seen with
  | nil => rfl
  | cons shard rest ih =>
      obtain ⟨same, bounded⟩ := belong shard (by simp)
      rw [List.map_cons, List.nodup_cons] at distinct
      rw [checkSelected, ensure_bind_eq_ok_iff, ensure_bind_eq_ok_iff, ensure_bind_eq_ok_iff]
      refine ⟨decide_eq_true same, decide_eq_true bounded,
        decide_eq_true (fresh shard (by simp)), ?_⟩
      apply ih
      · exact fun other member => belong other (by simp [member])
      · exact distinct.2
      · intro other member inside
        rcases List.mem_cons.mp inside with equal | earlier
        · exact distinct.1 (List.mem_map.mpr ⟨other, member, equal⟩)
        · exact fresh other (by simp [member]) earlier

/-- A shard of the encoding of the payload. -/
def IsShardOf (zfec : Zfec) (spec : ErasureSpec) (packHash : Text) (payload : Bytes)
    (shard : DataPackShard) : Prop :=
  shard.packHash = packHash ∧ (rawShards zfec spec payload)[shard.shardIndex]? = some shard.data

theorem isShardOf_shardOf {raw : Nat × Bytes}
    (member : raw ∈ (List.range spec.totalShards).zip (rawShards zfec spec payload)) :
    IsShardOf zfec spec packHash payload (shardOf blake3 packHash raw) := by
  refine ⟨rfl, ?_⟩
  obtain ⟨place, located⟩ := List.mem_iff_getElem?.mp member
  obtain ⟨first, second⟩ := List.getElem?_zip_eq_some.mp located
  obtain ⟨inside, ranged⟩ := List.getElem?_eq_some_iff.mp first
  rw [List.getElem_range] at ranged
  change (rawShards zfec spec payload)[raw.1]? = some raw.2
  rw [← ranged]
  exact second

/-- Any `K` shards of an encoding with distinct indexes, in any order, give the payload back. -/
theorem decode_of_mds {shards : List DataPackShard}
    (mds : zfec.Mds spec.dataShards spec.totalShards)
    (members : ∀ shard ∈ shards, IsShardOf zfec spec (blake3HexDigest blake3 payload) payload shard)
    (distinct : (shards.map (·.shardIndex)).Nodup) (enough : spec.dataShards ≤ shards.length) :
    decode blake3 zfec shards spec payload.length
      (blake3HexDigest blake3 payload) = .ok payload := by
  have count := mds.count _ _ splitPrimaryBlocks_count (splitPrimaryBlocks_size payload _)
  have sorted :=
    List.perm_insertionSort
      (fun left right : DataPackShard => left.shardIndex ≤ right.shardIndex) shards
  generalize chosen : (sortedByIndex shards).take spec.dataShards = selected
  have among : ∀ shard ∈ selected, shard ∈ shards := by
    intro shard member
    rw [← chosen] at member
    exact mem_sortedByIndex.mp (List.mem_of_mem_take member)
  have length : selected.length = spec.dataShards := by
    rw [← chosen, List.length_take, sortedByIndex, sorted.length_eq, Nat.min_eq_left enough]
  have indexes : (selected.map (·.shardIndex)).Nodup := by
    rw [← chosen]
    exact ((sorted.map (·.shardIndex)).nodup_iff.mpr distinct).sublist
      ((List.take_sublist _ _).map _)
  have bounded : ∀ shard ∈ selected, shard.shardIndex < spec.totalShards := by
    intro shard member
    have inside := (List.getElem?_eq_some_iff.mp (members shard (among shard member)).2).1
    rwa [rawShards, count] at inside
  have contents : selected.map (·.data) =
      (selected.map (·.shardIndex)).map
        fun index => (rawShards zfec spec payload).getD index [] := by
    rw [List.map_map]
    apply List.map_congr_left
    intro shard member
    simp [List.getD, (members shard (among shard member)).2]
  have decoded := mds.recovers _ _ (selected.map (·.shardIndex)) splitPrimaryBlocks_count
    (splitPrimaryBlocks_size payload _) indexes (by simpa using length) (by simpa using bounded)
  rw [decode]
  dsimp only
  rw [chosen, ensure_bind_eq_ok_iff]
  refine ⟨decide_eq_true length.ge, ?_⟩
  rw [checkSelected_of_distinct selected [] (fun shard member =>
    ⟨(members shard (among shard member)).1, bounded shard member⟩) indexes (by simp),
      bind_eq_ok_iff]
  refine ⟨(), rfl, ?_⟩
  rw [contents]
  change (do ensure (decide (blake3HexDigest blake3 ((zfec.decode _ _ (List.map (fun index =>
    (rawShards zfec spec payload).getD index []) _) _).flatten.take _) = _)) _; _) = _
  rw [rawShards, decoded, splitPrimaryBlocks_joined spec.positive, ensure_bind_eq_ok_iff]
  exact ⟨decide_eq_true rfl, rfl⟩

end Decoding

section Extracting

variable {blake3 : Blake3}

/-- The contents of the dictionary after the entries of some chunks have been extracted. -/
theorem extractEntries_of_chunks (chunks : List (Text × Bytes)) (before : Bytes) (ordinal : Nat)
    (found : Dict Text Bytes) (chunk : ∀ chunk ∈ chunks, IsChunk blake3 chunk) :
    ∃ extracted, extractEntries blake3 (before ++ packPayload chunks) none found
        (entriesOf before.length ordinal chunks) = .ok extracted ∧
      (∀ chunkHash data, extracted.get? chunkHash = some data →
        (chunkHash, data) ∈ chunks ∨ found.get? chunkHash = some data) ∧
      ∀ chunkHash, (∃ data, (chunkHash, data) ∈ chunks) ∨ (found.get? chunkHash).isSome →
        (extracted.get? chunkHash).isSome := by
  induction chunks generalizing before ordinal found with
  | nil => exact ⟨found, rfl, fun _ _ located => .inr located, fun _ known => by simpa using known⟩
  | cons first rest ih =>
      obtain ⟨named, -⟩ := chunk first (by simp)
      have joined : before ++ packPayload (first :: rest) = (before ++ first.2) ++
          packPayload rest := by
        simp [packPayload]
      have sliced : ((before ++ packPayload (first :: rest)).take
          (before.length + first.2.length)).drop before.length = first.2 := by
        rw [joined, ← List.length_append, List.take_left, List.drop_left]
      obtain ⟨extracted, ran, sound, complete⟩ :=
        ih (before ++ first.2) (ordinal + 1) (found.set first.1 first.2)
        (fun other member => chunk other (by simp [member]))
      refine ⟨extracted, ?_, ?_, ?_⟩
      · rw [entriesOf, extractEntries]
        dsimp only
        rw [if_neg (by simp), sliced, ensure_bind_eq_ok_iff, joined]
        rw [List.length_append] at ran
        exact ⟨decide_eq_true named.symm, ran⟩
      · intro chunkHash data located
        rcases sound chunkHash data located with later | known
        · exact .inl (by simp [later])
        · rw [Dict.get?_set] at known
          split at known
          · rename_i same
            cases known
            exact .inl (by simp [same])
          · exact .inr known
      · intro chunkHash known
        apply complete
        rw [Dict.get?_set]
        rcases known with ⟨data, member⟩ | known
        · rcases List.mem_cons.mp member with rfl | later
          · exact .inr (by simp)
          · exact .inl ⟨data, later⟩
        · right
          split
          · rfl
          · exact known

end Extracting

/-- Every sequence of chunks is built into a pack, and from any shards of the pack with distinct
indexes, in any order and at least `K` of them, the chunks get exactly their bytes back. -/
theorem dataPack_roundTrip (blake3 : Blake3) (zfec : Zfec) (spec : ErasureSpec)
    (chunks : List (Text × Bytes))
    (mds : zfec.Mds spec.dataShards spec.totalShards) (filled : chunks ≠ [])
    (chunk : ∀ chunk ∈ chunks, IsChunk blake3 chunk)
    (collisionFree : CollisionFree blake3 fun data => ∃ chunkHash, (chunkHash, data) ∈ chunks) :
    ∃ pack, buildDataPack blake3 zfec chunks spec = .ok pack ∧
      ∀ shards : List DataPackShard, (∀ shard ∈ shards, shard ∈ pack.shards) →
        (shards.map (·.shardIndex)).Nodup → spec.dataShards ≤ shards.length →
        ∃ extracted, (do
            let payload ← reconstructPayload blake3 zfec pack.manifest shards
            extractPackChunks blake3 payload pack.manifest []) = .ok extracted ∧
          ∀ chunkHash data, extracted.get? chunkHash = some data ↔ (chunkHash, data) ∈ chunks := by
  refine ⟨_, buildDataPack_of_mds mds filled chunk, ?_⟩
  intro shards members distinct enough
  have belong : ∀ shard ∈ shards,
      IsShardOf zfec spec (blake3HexDigest blake3 (packPayload chunks))
        (packPayload chunks) shard := by
    intro shard member
    obtain ⟨raw, listed, rfl⟩ := List.mem_map.mp (mem_sortedByIndex.mp (members shard member))
    exact isShardOf_shardOf listed
  have decoded := decode_of_mds mds belong distinct enough
  obtain ⟨extracted, ran, sound, complete⟩ := extractEntries_of_chunks chunks [] 0 .empty chunk
  refine ⟨extracted, ?_, ?_⟩
  · rw [bind_eq_ok_iff]
    exact ⟨packPayload chunks, decoded, ran⟩
  · intro chunkHash data
    constructor
    · intro located
      rcases sound chunkHash data located with member | absent
      · exact member
      · cases absent
    · intro member
      obtain ⟨other, located⟩ :=
        Option.isSome_iff_exists.mp (complete chunkHash (.inl ⟨data, member⟩))
      rcases sound chunkHash other located with listed | absent
      · have same := (chunk _ listed).1.symm.trans (chunk _ member).1
        rw [located, collisionFree other data ⟨chunkHash, listed⟩ ⟨chunkHash, member⟩ same]
      · cases absent

namespace Striping

/-- `zfec` without parity: the shards are the blocks themselves. -/
def zfec : Zfec where
  encode _ _ blocks indexes := indexes.map fun index => blocks.getD index []
  decode dataShards _ blocks indexes :=
    (List.range dataShards).map fun index => ((indexes.zip blocks).lookup index).getD []

theorem lookup_zip_map (indexes : List Nat) (value : Nat → Bytes) {index : Nat}
    (member : index ∈ indexes) :
    (indexes.zip (indexes.map value)).lookup index = some (value index) := by
  induction indexes with
  | nil => cases member
  | cons first rest ih =>
      rw [List.map_cons, List.zip_cons_cons, List.lookup_cons]
      by_cases same : index = first
      · simp [same]
      · have later := (List.mem_cons.mp member).resolve_left same
        simp only [beq_eq_false_iff_ne.mpr same]
        exact ih later

theorem mds (count : Nat) : zfec.Mds count count where
  count _ _ _ _ := by simp [zfec]
  size blocks size length sizes raw member := by
    obtain ⟨index, inside, rfl⟩ := List.mem_map.mp member
    have bound : index < blocks.length := length ▸ List.mem_range.mp inside
    rw [List.getD_eq_getElem _ _ bound]
    exact sizes _ (List.getElem_mem bound)
  recovers blocks size indexes length sizes distinct counted bounded := by
    have all : ∀ index < count, index ∈ indexes := by
      have contained : indexes ⊆ List.range count :=
        fun index member => List.mem_range.mpr (bounded index member)
      have same := (distinct.subperm contained).perm_of_length_le (by simp [counted])
      exact fun index inside => same.mem_iff.mpr (List.mem_range.mpr inside)
    apply List.ext_getElem
    · simp [zfec, length]
    · intro index left right
      have inside : index < count := length ▸ right
      simp only [zfec, List.getElem_map, List.getElem_range]
      rw [lookup_zip_map _ _ (all index inside)]
      simp [List.getD, inside, right]

def blake3 : Blake3 := .ofTable
  [([1], 0x48fc721fbbc172e0925fa27af1671de225ba927134802998b10a1568a188652b),
    ([2, 3], 0x75e17c8ba66d20921eaa70500cef20295d04532f44598a5d770c57d2a33c0b67),
    ([1, 2, 3, 1], 0x0683df787b56b4194a1cb27138e59bd7e489266a186bed829ef0e1ba78f05ae9),
    ([1, 2], 0xb7d770040f780e9deff6bc038abea66e108b88d098d16d24cd7486eb671060b2),
    ([3, 1], 0x07ebe7a47eaab849b52b90eb949cd42f6bba8faddf479ab0e7718f9e82c5476a),
    ([0x5c, 0x78], 0xb0d04c15115dab6c4b9261b5964645eccd0387c1b055550505f0ce160fe9ef29)]

def spec : ErasureSpec where
  dataShards := 3
  parityShards := 0
  positive := by decide
  bounded := by decide

def named (data : Bytes) : Text × Bytes := (blake3HexDigest blake3 data, data)

/-- A payload of four bytes over three shards, with one chunk twice. -/
def chunks : List (Text × Bytes) := [named [1], named [2, 3], named [1]]

theorem collisionFree :
    CollisionFree blake3 fun data => ∃ chunkHash, (chunkHash, data) ∈ chunks := by
  have contents : ∀ data, (∃ chunkHash, (chunkHash, data) ∈ chunks) →
      data = [1] ∨ data = [2, 3] := by
    rintro data ⟨chunkHash, member⟩
    simp only [chunks, named, List.mem_cons, Prod.mk.injEq, List.not_mem_nil, or_false] at member
    rcases member with ⟨-, rfl⟩ | ⟨-, rfl⟩ | ⟨-, rfl⟩ <;> simp
  have different : blake3HexDigest blake3 [1] ≠ blake3HexDigest blake3 [2, 3] := by decide +kernel
  intro left right leftKnown rightKnown equal
  rcases contents left leftKnown with rfl | rfl <;> rcases contents right rightKnown with rfl | rfl
  · rfl
  · exact absurd equal different
  · exact absurd equal.symm different
  · rfl

end Striping

namespace Parity

def add (left right : Bytes) : Bytes := List.zipWith (· ^^^ ·) left right

/-- Two blocks and their sum. -/
def shares : List Bytes → List Bytes
  | [left, right] => [left, right, add left right]
  | _ => []

/-- The blocks that two shares with these indexes come from. -/
def blocks (index other : Nat) (share otherShare : Bytes) : List Bytes := [
  if index = 0 then share else if other = 0 then otherShare else add share otherShare,
  if index = 1 then share else if other = 1 then otherShare else add share otherShare]

/-- `zfec` for two shards of three. -/
def zfec : Zfec where
  encode _ _ blocks indexes := indexes.map fun index => (shares blocks).getD index []
  decode _ _ received indexes :=
    match indexes, received with
    | [index, other], [share, otherShare] =>
        if share.length = otherShare.length then blocks index other share otherShare else []
    | _, _ => []

theorem add_length {left right : Bytes} (same : left.length = right.length) :
    (add left right).length = left.length := by
  simp [add, same]

theorem add_comm (left right : Bytes) : add left right = add right left := by
  rw [add, add, List.zipWith_comm]
  simp only [UInt8.xor_comm]

theorem add_add_self {left right : Bytes} (same : left.length = right.length) :
    add left (add left right) = right := by
  induction left generalizing right with
  | nil => exact (List.eq_nil_of_length_eq_zero same.symm).symm
  | cons first rest ih =>
      cases right with
      | nil => cases same
      | cons other others =>
          have tail := ih (Nat.succ.inj same)
          simp only [add, List.zipWith_cons_cons, List.cons.injEq] at tail ⊢
          exact ⟨by rw [← UInt8.xor_assoc, UInt8.xor_self, UInt8.zero_xor], tail⟩

theorem add_self_add {left right : Bytes} (same : left.length = right.length) :
    add (add left right) right = left := by
  rw [add_comm, add_comm left, add_add_self same.symm]

theorem add_add_other {left right : Bytes} (same : left.length = right.length) :
    add right (add left right) = left := by
  rw [add_comm, add_self_add same]

theorem add_other_add {left right : Bytes} (same : left.length = right.length) :
    add (add left right) left = right := by
  rw [add_comm, add_add_self same]

/-- The pairs of distinct indexes below three. -/
theorem index_cases {index other : Nat} (distinct : index ≠ other) (inside : index < 3)
    (otherInside : other < 3) :
    index = 0 ∧ other = 1 ∨ index = 0 ∧ other = 2 ∨ index = 1 ∧ other = 0 ∨ index = 1 ∧ other = 2 ∨
      index = 2 ∧ other = 0 ∨ index = 2 ∧ other = 1 := by
  omega

theorem encode_eq (left right : Bytes) :
    zfec.encode 2 3 [left, right] (List.range 3) = [left, right, add left right] := rfl

/-- Two shares are those of the blocks that are decoded from them. -/
theorem shares_blocks {index other : Nat} {share otherShare : Bytes}
    (same : share.length = otherShare.length)
    (distinct : index ≠ other) (inside : index < 3) (otherInside : other < 3) :
    (∀ block ∈ blocks index other share otherShare, block.length = share.length) ∧
      (shares (blocks index other share otherShare)).getD index [] = share ∧
      (shares (blocks index other share otherShare)).getD other [] = otherShare := by
  have sum := add_length same
  have otherSum : add otherShare share = add share otherShare := add_comm otherShare share
  rcases index_cases distinct inside otherInside with
    ⟨rfl, rfl⟩ | ⟨rfl, rfl⟩ | ⟨rfl, rfl⟩ | ⟨rfl, rfl⟩ | ⟨rfl, rfl⟩ | ⟨rfl, rfl⟩ <;>
    simp [blocks, shares, same, sum, otherSum, add_add_self same, add_self_add same,
      add_add_other same, add_other_add same]

theorem blocks_shares {index other : Nat} {left right : Bytes} (same : left.length = right.length)
    (distinct : index ≠ other) (inside : index < 3) (otherInside : other < 3) :
    blocks index other ((shares [left, right]).getD index [])
      ((shares [left, right]).getD other []) = [left, right] := by
  rcases index_cases distinct inside otherInside with
    ⟨rfl, rfl⟩ | ⟨rfl, rfl⟩ | ⟨rfl, rfl⟩ | ⟨rfl, rfl⟩ | ⟨rfl, rfl⟩ | ⟨rfl, rfl⟩ <;>
    simp [blocks, shares, add_add_self same, add_self_add same,
      add_add_other same, add_other_add same]

theorem strict : zfec.Strict 2 3 where
  count _ _ _ _ := rfl
  size received size length sizes raw member := by
    obtain ⟨left, right, rfl⟩ := List.length_eq_two.mp length
    have same : left.length = right.length :=
      (sizes left (by simp)).trans (sizes right (by simp)).symm
    rw [encode_eq] at member
    simp only [List.mem_cons, List.not_mem_nil, or_false] at member
    rcases member with rfl | rfl | rfl
    · exact sizes raw (by simp)
    · exact sizes raw (by simp)
    · exact (add_length same).trans (sizes left (by simp))
  recovers received size indexes length sizes distinct counted bounded := by
    obtain ⟨left, right, rfl⟩ := List.length_eq_two.mp length
    obtain ⟨index, other, rfl⟩ := List.length_eq_two.mp counted
    have same : left.length = right.length :=
      (sizes left (by simp)).trans (sizes right (by simp)).symm
    have different : index ≠ other := by simpa using distinct
    have inside : index < 3 := bounded index (by simp)
    have otherInside : other < 3 := bounded other (by simp)
    have decoded := blocks_shares same different inside otherInside
    have sum := add_length same
    rcases index_cases different inside otherInside with
      ⟨rfl, rfl⟩ | ⟨rfl, rfl⟩ | ⟨rfl, rfl⟩ | ⟨rfl, rfl⟩ | ⟨rfl, rfl⟩ | ⟨rfl, rfl⟩ <;>
      simpa [zfec, shares, same, sum] using decoded
  covers received size indexes length sizes distinct counted bounded := by
    obtain ⟨share, otherShare, rfl⟩ := List.length_eq_two.mp length
    obtain ⟨index, other, rfl⟩ := List.length_eq_two.mp counted
    have same : share.length = otherShare.length :=
      (sizes share (by simp)).trans (sizes otherShare (by simp)).symm
    have different : index ≠ other := by simpa using distinct
    obtain ⟨level, first, second⟩ :=
      shares_blocks same different (bounded index (by simp)) (bounded other (by simp))
    refine ⟨blocks index other share otherShare, rfl, fun block member => ?_, ?_⟩
    · exact (level block member).trans (sizes share (by simp))
    · rw [List.map_cons, List.map_singleton, List.cons.injEq, List.cons.injEq]
      exact ⟨first.symm, second.symm, rfl⟩
  refuses received indexes different := by
    obtain ⟨left, isLeft, right, isRight, different⟩ := different
    rcases received with _ | ⟨share, _ | ⟨otherShare, _ | ⟨third, rest⟩⟩⟩
    · cases isLeft
    · rw [List.mem_singleton.mp isLeft, List.mem_singleton.mp isRight] at different
      exact absurd rfl different
    · have lengths : share.length ≠ otherShare.length := by
        intro same
        simp only [List.mem_cons, List.not_mem_nil, or_false] at isLeft isRight
        rcases isLeft with rfl | rfl <;> rcases isRight with rfl | rfl <;> simp [same] at different
      rcases indexes with _ | ⟨index, _ | ⟨other, _ | ⟨later, more⟩⟩⟩ <;> simp [zfec, lengths]
    · rcases indexes with _ | ⟨index, _ | ⟨other, _ | ⟨later, more⟩⟩⟩ <;> rfl

def spec : ErasureSpec where
  dataShards := 2
  parityShards := 1
  positive := by decide
  bounded := by decide

end Parity

/-- The payload of the three chunks in two blocks and their sum, without the first block. -/
theorem parityChunks_roundTrip :
    ∃ pack, buildDataPack Striping.blake3 Parity.zfec Striping.chunks Parity.spec = .ok pack ∧
      (pack.shards.drop 1).reverse.map (·.shardIndex) = [2, 1] ∧
      ∃ extracted, (do
          let payload ← reconstructPayload Striping.blake3 Parity.zfec pack.manifest
            (pack.shards.drop 1).reverse
          extractPackChunks Striping.blake3 payload pack.manifest []) = .ok extracted ∧
        ∀ chunkHash data, extracted.get? chunkHash = some data ↔
          (chunkHash, data) ∈ Striping.chunks := by
  have chunk : ∀ chunk ∈ Striping.chunks, IsChunk Striping.blake3 chunk := by
    simp [Striping.chunks, Striping.named, IsChunk]
  obtain ⟨pack, built, recovered⟩ :=
    dataPack_roundTrip Striping.blake3 Parity.zfec Parity.spec Striping.chunks
    Parity.strict.toMds (by decide) chunk Striping.collisionFree
  have indexes : (buildDataPack Striping.blake3 Parity.zfec Striping.chunks
      Parity.spec).toOption.map
      (fun pack => (pack.shards.drop 1).reverse.map (·.shardIndex)) = some [2, 1] := by
        decide +kernel
  rw [built] at indexes
  have others : (pack.shards.drop 1).reverse.map (·.shardIndex) = [2, 1] := Option.some.inj indexes
  refine ⟨pack, built, others, recovered _ ?_ (by rw [others]; decide) ?_⟩
  · intro shard member
    exact List.mem_of_mem_drop (List.mem_reverse.mp member)
  · have length := congrArg List.length others
    rw [List.length_map] at length
    exact length.ge

end Stopan.Erasure
