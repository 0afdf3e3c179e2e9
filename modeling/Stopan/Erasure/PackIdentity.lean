import Stopan.Erasure.CatalogRuns
import Stopan.Erasure.PackMetadata
import Stopan.Erasure.RoundTrip

namespace Stopan.Erasure

open Stopan.Lib Stopan.Common Stopan.Cluster Stopan.Metadata Stopan.Protection

/-- A node for every shard index: distinct nodes with proper names. -/
structure ValidPlacement (totalShards : Nat) (placements : List ShardPlacement) : Prop where
  indexes : placements.map (·.shardIndex) = List.range totalShards
  nodes : (placements.map (·.nodeId)).Nodup
  named : ∀ placement ∈ placements, strip placement.nodeId = placement.nodeId ∧
    placement.nodeId ≠ []

section Arguments

theorem checkErasureChunkRows_of_tiles {rows : List ErasureChunkEntry}
    {expectedOrdinal previousEnd covered : Nat}
    (numbers : rows.map ErasureChunkEntry.ordinal = List.range' expectedOrdinal rows.length)
    (tiled : Tiles ErasureChunkEntry.offset ErasureChunkEntry.length previousEnd rows covered) :
    checkErasureChunkRows expectedOrdinal previousEnd rows = .ok covered := by
  induction rows generalizing expectedOrdinal previousEnd with
  | nil => exact congrArg _ tiled
  | cons row rest ih =>
      rw [List.map_cons, List.length_cons, List.range'_succ, List.cons.injEq] at numbers
      rw [checkErasureChunkRows, ensure_bind_eq_ok_iff, ensure_bind_eq_ok_iff]
      refine ⟨decide_eq_true numbers.1, decide_eq_true tiled.1, ?_⟩
      rw [tiled.1]
      exact ih numbers.2 tiled.2.2

theorem requireNonNegativeInt_natCast (name : String) (value : Nat) :
    requireNonNegativeInt name value = .ok value := by
  simp [requireNonNegativeInt]

theorem requirePositiveInt_natCast (name : String) {value : Nat} (positive : 0 < value) :
    requirePositiveInt name value = .ok value := by
  simp [requirePositiveInt, requireNonNegativeInt_natCast, positive.ne']

def chunkArg (entry : ErasureChunkEntry) : ErasureChunkArg where
  chunkHash := entry.chunkHash
  offset := entry.offset
  length := entry.length
  ordinal := entry.ordinal

def shardArg (entry : ErasureShardEntry) : ErasureShardArg where
  shardIndex := entry.shardIndex
  shardHash := entry.shardHash
  nodeId := entry.nodeId
  size := entry.size

theorem mapM_map_ok {α β : Type} {check : α → Except StopanError β}
    {present : β → α} {entries : List β}
    (accepted : ∀ entry ∈ entries, check (present entry) = .ok entry) :
    (entries.map present).mapM check = .ok entries := by
  rw [mapM_eq_ok_iff, List.forall₂_map_left_iff, List.forall₂_same]
  exact accepted

theorem normalizeErasureChunkRows_of_tiles {rows : List ErasureChunkEntry} {payloadSize : Nat}
    (filled : rows ≠ []) (valid : ∀ row ∈ rows, isValidBlake3Hex row.chunkHash = true)
    (numbered : Numbered ErasureChunkEntry.ordinal rows)
    (tiled : Tiles ErasureChunkEntry.offset ErasureChunkEntry.length 0 rows payloadSize) :
    normalizeErasureChunkRows (rows.map chunkArg) payloadSize = .ok rows := by
  have accepted : (rows.map chunkArg).mapM requireErasureChunk = .ok rows := by
    apply mapM_map_ok
    intro row member
    have positive := (tiled.bounds member).2.1
    simp only [requireErasureChunk, chunkArg, requireHash64_of_valid (valid row member),
      requireNonNegativeInt_natCast, requirePositiveInt_natCast _ positive]
    rfl
  have sorted : readInOrder ErasureChunkEntry.ordinal rows = rows :=
    readInOrder_eq_of_numbered numbered numbered.nodup fun _ => Iff.rfl
  have numbers : rows.map ErasureChunkEntry.ordinal = List.range' 0 rows.length := by
    rw [numbered, List.range_eq_range']
  rw [normalizeErasureChunkRows, accepted, bind_eq_ok_iff]
  refine ⟨rows, rfl, ?_⟩
  rw [ensure_bind_eq_ok_iff]
  refine ⟨by simpa using filled, ?_⟩
  dsimp only
  rw [sorted, checkErasureChunkRows_of_tiles numbers tiled, bind_eq_ok_iff]
  refine ⟨payloadSize, rfl, ?_⟩
  rw [ensure_bind_eq_ok_iff]
  exact ⟨decide_eq_true rfl, rfl⟩

theorem normalizeErasureShardRows_of_indexes {rows : List ErasureShardEntry} {totalShards : Nat}
    (indexes : rows.map ErasureShardEntry.shardIndex = List.range totalShards)
    (nodes : (rows.map ErasureShardEntry.nodeId).Nodup)
    (valid : ∀ row ∈ rows, isValidBlake3Hex row.shardHash = true ∧ strip row.nodeId = row.nodeId ∧
      row.nodeId ≠ [] ∧ 0 < row.size) :
    normalizeErasureShardRows (rows.map shardArg) totalShards = .ok rows := by
  have accepted : (rows.map shardArg).mapM requireErasureShard = .ok rows := by
    apply mapM_map_ok
    intro row member
    obtain ⟨hash, stripped, named, positive⟩ := valid row member
    have text : requireNonEmptyText "node_id" row.nodeId = .ok row.nodeId := by
      simp [requireNonEmptyText, stripped, named]
    simp only [requireErasureShard, shardArg, requireHash64_of_valid hash,
      requireNonNegativeInt_natCast, text, requirePositiveInt_natCast _ positive]
    rfl
  have numbered : Numbered ErasureShardEntry.shardIndex rows := by
    have count : rows.length = totalShards := by simpa using congrArg List.length indexes
    rw [Numbered, indexes, count]
  have sorted : readInOrder ErasureShardEntry.shardIndex rows = rows :=
    readInOrder_eq_of_numbered numbered numbered.nodup fun _ => Iff.rfl
  rw [normalizeErasureShardRows, accepted, bind_eq_ok_iff]
  refine ⟨rows, rfl, ?_⟩
  dsimp only
  rw [sorted, ensure_bind_eq_ok_iff, ensure_bind_eq_ok_iff]
  exact ⟨decide_eq_true indexes, decide_eq_true nodes, rfl⟩

end Arguments

section Inserts

variable {db : MetadataDB} {packHash : Text}

theorem bindNat_of_lt {value : Nat} (fits : value < 2 ^ 63) : bindNat value = .ok () := by
  have inside : -(2 ^ 63 : Int) ≤ value ∧ (value : Int) < 2 ^ 63 := by omega
  simp only [bindNat, bindInteger, if_pos inside]
  rfl

theorem bindNat_ok {value : Nat} (bound : bindNat value = .ok ()) : value < 2 ^ 63 := by
  by_contra large
  have outside : ¬ (-(2 ^ 63 : Int) ≤ value ∧ (value : Int) < 2 ^ 63) := by omega
  simp only [bindNat, bindInteger, if_neg outside] at bound
  cases bound

/-- Rows of chunks that are known and not in a pack can be added to a pack that has none of their
ordinals. -/
theorem insertErasurePackChunksOnce_of_fresh {rows : List ErasureChunkEntry}
    (registered : db.erasureDataPacks.contains packHash = true)
    (known : ∀ row ∈ rows, db.chunks.contains row.chunkHash = true)
    (unassigned : ∀ row ∈ rows, db.erasurePackChunks.get? row.chunkHash = none)
    (free : ∀ row ∈ rows, ∀ stored ∈ db.getErasurePackChunks packHash, stored.ordinal ≠ row.ordinal)
    (hashes : (rows.map ErasureChunkEntry.chunkHash).Nodup)
    (ordinals : (rows.map ErasureChunkEntry.ordinal).Nodup)
    (fits : ∀ row ∈ rows, row.offset < 2 ^ 63 ∧ row.length < 2 ^ 63 ∧ row.ordinal < 2 ^ 63) :
    ∃ after, db.insertErasurePackChunksOnce packHash rows = .ok after := by
  induction rows generalizing db with
  | nil => exact ⟨db, rfl⟩
  | cons row rest ih =>
      rw [List.map_cons, List.nodup_cons] at hashes ordinals
      have absent := unassigned row (by simp)
      obtain ⟨offset, length, ordinal⟩ := fits row (by simp)
      have unique : (db.erasurePackChunks.entries.all fun stored =>
          !(decide (stored.2.packHash = packHash) &&
            decide (stored.2.chunkOrdinal = row.ordinal))) = true := by
        rw [List.all_eq_true]
        rintro ⟨chunkHash, stored⟩ member
        by_cases own : stored.packHash = packHash
        · have present : stored.entry chunkHash ∈ db.getErasurePackChunks packHash := by
            rw [mem_getErasurePackChunks, Dict.get?_eq_some_iff]
            subst own
            exact member
          have different := free row (by simp) _ present
          simp only [ErasurePackChunkRow.entry] at different
          simp [different]
        · simp [own]
      have missing : db.erasurePackChunks.contains row.chunkHash = false := by
        simp [Dict.contains, absent]
      have inserted : MetadataDB.insertErasurePackChunkOnce packHash db row =
          .ok { db with erasurePackChunks := db.erasurePackChunks.set row.chunkHash
                          (row.row packHash) } := by
        simp only [MetadataDB.insertErasurePackChunkOnce, absent, MetadataDB.insertErasurePackChunk,
          bindNat_of_lt offset,
          bindNat_of_lt length, bindNat_of_lt ordinal, unique, known row (by simp),
            registered, missing]
        rfl
      have added := insertErasurePackChunkOnce_added inserted
      rw [MetadataDB.insertErasurePackChunksOnce, List.foldlM_cons, inserted]
      refine ih registered
        (fun other member => known other (.tail _ member)) ?_ ?_ hashes.2 ordinals.2
        fun other member => fits other (.tail _ member)
      · intro other member
        have different : other.chunkHash ≠ row.chunkHash := fun same =>
          hashes.1 (same ▸ List.mem_map_of_mem member)
        rw [Dict.get?_set_of_ne _ _ different]
        exact unassigned other (.tail _ member)
      · intro other member stored present
        rw [mem_getErasurePackChunks, added.found] at present
        rcases present with old | ⟨entry, single, sameHash, sameRow⟩
        · exact free other (.tail _ member) stored (mem_getErasurePackChunks.mpr old)
        · rw [← ErasureChunkEntry.eq_of_row sameHash sameRow, List.mem_singleton.mp single]
          exact fun same => ordinals.1 (same ▸ List.mem_map_of_mem member)

/-- Rows of shards can be added to a pack that has none of their indexes. -/
theorem insertErasurePackShardsOnce_of_fresh {rows : List ErasureShardEntry}
    {protectionState : ProtectionState}
    {lastPushAt : Option PyFloat} (registered : db.erasureDataPacks.contains packHash = true)
    (free : ∀ row ∈ rows, db.erasurePackShards.get? (packHash, row.shardIndex) = none)
    (indexes : (rows.map ErasureShardEntry.shardIndex).Nodup)
    (fits : ∀ row ∈ rows, row.shardIndex < 2 ^ 63 ∧ row.size < 2 ^ 63) :
    ∃ after, db.insertErasurePackShardsOnce packHash rows protectionState lastPushAt =
      .ok after := by
  induction rows generalizing db with
  | nil => exact ⟨db, rfl⟩
  | cons row rest ih =>
      rw [List.map_cons, List.nodup_cons] at indexes
      obtain ⟨index, size⟩ := fits row (by simp)
      have absent := free row (by simp)
      have missing : db.erasurePackShards.contains (packHash, row.shardIndex) = false := by
        simp [Dict.contains, absent]
      have inserted : MetadataDB.insertErasurePackShardOnce packHash
          protectionState lastPushAt db row = .ok { db with
            erasurePackShards :=
              db.erasurePackShards.set (packHash, row.shardIndex)
                (row.row protectionState (lastPushAt.bind bindReal)) } := by
        simp only [MetadataDB.insertErasurePackShardOnce, bindNat_of_lt index, absent,
          MetadataDB.insertErasurePackShard,
          ErasureShardEntry.row, bindNat_of_lt size, registered, missing]
        rfl
      rw [MetadataDB.insertErasurePackShardsOnce, List.foldlM_cons, inserted]
      refine ih registered ?_ indexes.2 fun other member => fits other (.tail _ member)
      intro other member
      have different : other.shardIndex ≠ row.shardIndex := fun same =>
        indexes.1 (same ▸ List.mem_map_of_mem member)
      rw [Dict.get?_set_of_ne _ _ (by simp [different])]
      exact free other (.tail _ member)

end Inserts

section Built

variable {blake3 : Blake3} {zfec : Zfec} {spec : ErasureSpec} {chunks : List (Text × Bytes)}
  {placements : List ShardPlacement}

def DataPackEntry.chunkEntry (entry : DataPackEntry) : ErasureChunkEntry where
  chunkHash := entry.chunkHash
  offset := entry.offset
  length := entry.length
  ordinal := entry.ordinal

def plannedNode (placements : List ShardPlacement) (shardIndex : Nat) : Text :=
  (((placementByIndex placements).get? shardIndex).map (·.nodeId)).getD []

def DataPackShard.shardEntry (placements : List ShardPlacement) (shard : DataPackShard) :
    ErasureShardEntry where
  shardIndex := shard.shardIndex
  shardHash := shard.shardHash
  nodeId := plannedNode placements shard.shardIndex
  size := shard.data.length

theorem entriesOf_chunkHashes (chunks : List (Text × Bytes)) (offset ordinal : Nat) :
    (entriesOf offset ordinal chunks).map DataPackEntry.chunkHash = chunks.map Prod.fst := by
  induction chunks generalizing offset ordinal with
  | nil => rfl
  | cons chunk rest ih => simp [entriesOf, ih]

theorem entriesOf_ordinals (chunks : List (Text × Bytes)) (offset ordinal : Nat) :
    (entriesOf offset ordinal chunks).map DataPackEntry.ordinal =
      List.range' ordinal chunks.length := by
  induction chunks generalizing offset ordinal with
  | nil => rfl
  | cons chunk rest ih => simp [entriesOf, ih, List.range'_succ]

theorem entriesOf_tiles (chunks : List (Text × Bytes)) (offset ordinal : Nat)
    (filled : ∀ chunk ∈ chunks, chunk.2 ≠ []) :
    Tiles DataPackEntry.offset DataPackEntry.length offset (entriesOf offset ordinal chunks)
      (offset + (packPayload chunks).length) := by
  induction chunks generalizing offset ordinal with
  | nil => rfl
  | cons chunk rest ih =>
      have tiled := ih (offset + chunk.2.length) (ordinal + 1) fun other member =>
        filled other (.tail _ member)
      refine ⟨rfl, List.length_pos_iff.mpr (filled chunk (by simp)), ?_⟩
      simpa [packPayload, Nat.add_assoc] using tiled

/-- The chunk rows of the pack built from these chunks. -/
def chunkRows (chunks : List (Text × Bytes)) : List ErasureChunkEntry :=
  (entriesOf 0 0 chunks).map DataPackEntry.chunkEntry

theorem chunkRows_hashes :
    (chunkRows chunks).map ErasureChunkEntry.chunkHash = chunks.map Prod.fst := by
  rw [chunkRows, List.map_map, ← entriesOf_chunkHashes chunks 0 0]
  rfl

theorem chunkRows_length : (chunkRows chunks).length = chunks.length := by
  simpa using congrArg List.length (@chunkRows_hashes chunks)

theorem chunkRows_numbered : Numbered ErasureChunkEntry.ordinal (chunkRows chunks) := by
  rw [Numbered, chunkRows_length, chunkRows, List.map_map, List.range_eq_range',
    ← entriesOf_ordinals chunks 0 0]
  rfl

theorem chunkRows_tiles (filled : ∀ chunk ∈ chunks, chunk.2 ≠ []) :
    Tiles ErasureChunkEntry.offset ErasureChunkEntry.length 0 (chunkRows chunks)
      (packPayload chunks).length := by
  have tiled := entriesOf_tiles chunks 0 0 filled
  rw [Nat.zero_add] at tiled
  exact tiled.map (fun _ => rfl) fun _ => rfl

theorem packOf_indexes (blake3 : Blake3) (chunks : List (Text × Bytes))
    (mds : zfec.Mds spec.dataShards spec.totalShards) :
    (packOf blake3 zfec chunks spec).shards.map DataPackShard.shardIndex =
      List.range spec.totalShards := by
  have count :=
    mds.count _ _ splitPrimaryBlocks_count (splitPrimaryBlocks_size (packPayload chunks) _)
  generalize encoded : ((List.range spec.totalShards).zip
    (rawShards zfec spec (packPayload chunks))).map
    (shardOf blake3 (blake3HexDigest blake3 (packPayload chunks))) = shards
  have indexes : shards.map DataPackShard.shardIndex = List.range spec.totalShards := by
    rw [← encoded, List.map_map]
    exact List.map_fst_zip (by simp [rawShards, count])
  have numbered : Numbered DataPackShard.shardIndex shards := by
    have length : shards.length = spec.totalShards := by simpa using congrArg List.length indexes
    rw [Numbered, indexes, length]
  have sorted : sortedByIndex shards = shards :=
    readInOrder_eq_of_numbered numbered numbered.nodup fun _ => Iff.rfl
  rw [packOf]
  dsimp only
  rw [encoded, sorted]
  exact indexes

theorem packOf_shards (mds : zfec.Mds spec.dataShards spec.totalShards) {shard : DataPackShard}
    (member : shard ∈ (packOf blake3 zfec chunks spec).shards) :
    isValidBlake3Hex shard.shardHash = true ∧
      shard.data.length = (packOf blake3 zfec chunks spec).shardSize := by
  obtain ⟨raw, listed, rfl⟩ := List.mem_map.mp (mem_sortedByIndex.mp member)
  refine ⟨blake3HexDigest_valid blake3 raw.2, ?_⟩
  exact mds.size _ _ splitPrimaryBlocks_count (splitPrimaryBlocks_size (packPayload chunks) _) raw.2
    (List.of_mem_zip listed).2

/-- The shard rows of the pack built from these chunks. -/
def shardRows (blake3 : Blake3) (zfec : Zfec) (spec : ErasureSpec) (chunks : List (Text × Bytes))
    (placements : List ShardPlacement) : List ErasureShardEntry :=
  (packOf blake3 zfec chunks spec).shards.map (DataPackShard.shardEntry placements)

theorem ValidPlacement.located {totalShards shardIndex : Nat}
    (placed : ValidPlacement totalShards placements) (inside : shardIndex < totalShards) :
    ∃ placement ∈ placements, placement.shardIndex = shardIndex ∧
      (placementByIndex placements).get? shardIndex = some placement := by
  have listed : shardIndex ∈ placements.map (·.shardIndex) := by
    rw [placed.indexes]
    exact List.mem_range.mpr inside
  obtain ⟨placement, member, rfl⟩ := List.mem_map.mp listed
  refine ⟨placement, member, rfl, ?_⟩
  apply Dict.get?_ofList_of_mem
  · rw [List.map_map]
    change (placements.map (·.shardIndex)).Nodup
    rw [placed.indexes]
    exact List.nodup_range
  · exact List.mem_map.mpr ⟨placement, member, rfl⟩

theorem ValidPlacement.plannedNode {totalShards shardIndex : Nat}
    (placed : ValidPlacement totalShards placements) (inside : shardIndex < totalShards) :
    ∃ placement ∈ placements, placement.shardIndex = shardIndex ∧
      Erasure.plannedNode placements shardIndex = placement.nodeId := by
  obtain ⟨placement, member, same, found⟩ := placed.located inside
  exact ⟨placement, member, same, by simp [Erasure.plannedNode, found]⟩

theorem shardRows_indexes (mds : zfec.Mds spec.dataShards spec.totalShards) :
    (shardRows blake3 zfec spec chunks placements).map ErasureShardEntry.shardIndex =
      List.range spec.totalShards := by
  rw [shardRows, List.map_map, ← packOf_indexes blake3 chunks mds]
  rfl

theorem shardRows_valid (mds : zfec.Mds spec.dataShards spec.totalShards)
    (placed : ValidPlacement spec.totalShards placements) {row : ErasureShardEntry}
    (member : row ∈ shardRows blake3 zfec spec chunks placements) :
    isValidBlake3Hex row.shardHash = true ∧ strip row.nodeId = row.nodeId ∧ row.nodeId ≠ [] ∧
      row.size = (packOf blake3 zfec chunks spec).shardSize := by
  obtain ⟨shard, listed, rfl⟩ := List.mem_map.mp member
  have inside : shard.shardIndex < spec.totalShards := by
    have known := List.mem_map_of_mem (f := DataPackShard.shardIndex) listed
    rw [packOf_indexes blake3 chunks mds] at known
    exact List.mem_range.mp known
  obtain ⟨placement, chosen, -, node⟩ := placed.plannedNode inside
  obtain ⟨hash, size⟩ := packOf_shards mds listed
  obtain ⟨stripped, named⟩ := placed.named placement chosen
  refine ⟨hash, ?_, ?_, size⟩
  · rw [DataPackShard.shardEntry, node]
    exact stripped
  · rw [DataPackShard.shardEntry, node]
    exact named

theorem shardRows_nodes (mds : zfec.Mds spec.dataShards spec.totalShards)
    (placed : ValidPlacement spec.totalShards placements) :
    ((shardRows blake3 zfec spec chunks placements).map ErasureShardEntry.nodeId).Nodup := by
  have nodes : (shardRows blake3 zfec spec chunks placements).map ErasureShardEntry.nodeId =
      (List.range spec.totalShards).map (plannedNode placements) := by
    rw [← packOf_indexes blake3 chunks mds, shardRows, List.map_map, List.map_map]
    rfl
  rw [nodes]
  refine List.Nodup.map_on ?_ List.nodup_range
  intro left leftInside right rightInside same
  obtain ⟨leftPlaced, leftMember, leftIndex, leftNode⟩ :=
    placed.plannedNode (List.mem_range.mp leftInside)
  obtain ⟨rightPlaced, rightMember, rightIndex, rightNode⟩ :=
    placed.plannedNode (List.mem_range.mp rightInside)
  rw [leftNode, rightNode] at same
  rw [← leftIndex, ← rightIndex, List.inj_on_of_nodup_map placed.nodes leftMember rightMember same]

/-- The definition under which the pack built from these chunks is registered. -/
def definitionOf (spec : ErasureSpec) (payload : Bytes) : ErasureDefinition where
  codec := "zfec".toList
  dataShards := spec.dataShards
  parityShards := spec.parityShards
  payloadSize := payload.length
  paddedSize := primaryShardSize payload spec.dataShards * spec.dataShards
  shardSize := primaryShardSize payload spec.dataShards

def argsOf (blake3 : Blake3) (zfec : Zfec) (spec : ErasureSpec) (chunks : List (Text × Bytes))
    (placements : List ShardPlacement) : ErasurePackArgs where
  packHash := blake3HexDigest blake3 (packPayload chunks)
  codec := "zfec".toList
  dataShards := spec.dataShards
  parityShards := spec.parityShards
  payloadSize := (packPayload chunks).length
  paddedSize := (primaryShardSize (packPayload chunks) spec.dataShards * spec.dataShards : Nat)
  shardSize := primaryShardSize (packPayload chunks) spec.dataShards
  chunks := (chunkRows chunks).map chunkArg
  shards := (shardRows blake3 zfec spec chunks placements).map shardArg

theorem primaryShardSize_pos (payload : Bytes) (dataShards : Nat) :
    0 < primaryShardSize payload dataShards := by
  rw [primaryShardSize_eq_max]
  exact Nat.lt_of_lt_of_le Nat.one_pos (Nat.le_max_right ..)

theorem packMetadataArgs_packOf (mds : zfec.Mds spec.dataShards spec.totalShards)
    (placed : ValidPlacement spec.totalShards placements) :
    packMetadataArgs (packOf blake3 zfec chunks spec) placements = .ok
      (argsOf blake3 zfec spec chunks placements) := by
  have rows : (packOf blake3 zfec chunks spec).shards.mapM
      (shardMetadataRow (placementByIndex placements)) =
      .ok ((packOf blake3 zfec chunks spec).shards.map fun shard => shardArg
        (shard.shardEntry placements)) := by
    rw [mapM_eq_ok_iff, List.forall₂_map_right_iff, List.forall₂_same]
    intro shard member
    have known := List.mem_map_of_mem (f := DataPackShard.shardIndex) member
    rw [packOf_indexes blake3 chunks mds] at known
    obtain ⟨placement, -, -, found⟩ := placed.located (List.mem_range.mp known)
    simp [shardMetadataRow, found, shardArg, DataPackShard.shardEntry, plannedNode]
  rw [packMetadataArgs, rows, argsOf, shardRows, List.map_map, chunkRows, List.map_map]
  rfl

theorem requireErasureDefinition_argsOf :
    requireErasureDefinition (argsOf blake3 zfec spec chunks placements) =
      .ok (blake3HexDigest blake3 (packPayload chunks),
        definitionOf spec (packPayload chunks)) := by
  have codec : requireNonEmptyText "codec" "zfec".toList = .ok "zfec".toList := by decide
  simp only [requireErasureDefinition, argsOf,
    requireHash64_of_valid (blake3HexDigest_valid blake3 _), codec,
    requireNonNegativeInt_natCast, requirePositiveInt_natCast _ spec.positive,
    requirePositiveInt_natCast _ (primaryShardSize_pos _ _)]
  rfl

theorem requireErasureRows_argsOf (mds : zfec.Mds spec.dataShards spec.totalShards)
    (filled : chunks ≠ []) (chunk : ∀ chunk ∈ chunks, IsChunk blake3 chunk)
    (placed : ValidPlacement spec.totalShards placements) :
    requireErasureRows (argsOf blake3 zfec spec chunks placements)
      (definitionOf spec (packPayload chunks)) =
      .ok (chunkRows chunks, shardRows blake3 zfec spec chunks placements) := by
  have nonempty : chunkRows chunks ≠ [] := by
    intro none
    have length := @chunkRows_length chunks
    rw [none] at length
    exact filled (List.length_eq_zero_iff.mp length.symm)
  have valid : ∀ row ∈ chunkRows chunks, isValidBlake3Hex row.chunkHash = true := by
    intro row member
    have listed : row.chunkHash ∈ chunks.map Prod.fst :=
      chunkRows_hashes ▸ List.mem_map_of_mem member
    obtain ⟨item, present, same⟩ := List.mem_map.mp listed
    rw [← same, (chunk item present).1]
    exact blake3HexDigest_valid blake3 _
  have chunksChecked := normalizeErasureChunkRows_of_tiles nonempty valid chunkRows_numbered
    (chunkRows_tiles fun item member => (chunk item member).2)
  have shardsValid : ∀ row ∈ shardRows blake3 zfec spec chunks placements,
      isValidBlake3Hex row.shardHash = true ∧
      strip row.nodeId = row.nodeId ∧ row.nodeId ≠ [] ∧ 0 < row.size := by
    intro row member
    obtain ⟨hash, stripped, named, size⟩ := shardRows_valid mds placed member
    exact ⟨hash, stripped, named, size.symm ▸ primaryShardSize_pos _ _⟩
  have shardsChecked := normalizeErasureShardRows_of_indexes (shardRows_indexes mds)
    (shardRows_nodes mds placed)
    shardsValid
  rw [requireErasureRows, ensure_bind_eq_ok_iff, ensure_bind_eq_ok_iff]
  refine ⟨decide_eq_true rfl, decide_eq_true (length_le_primaryShardSize _ spec.positive), ?_⟩
  simp only [argsOf, definitionOf, ErasureDefinition.totalShards] at chunksChecked shardsChecked ⊢
  rw [chunksChecked]
  change (normalizeErasureShardRows _ spec.totalShards >>= _) = _
  rw [shardsChecked]
  rfl

theorem packLayout_argsOf (mds : zfec.Mds spec.dataShards spec.totalShards) (filled : chunks ≠ [])
    (chunk : ∀ chunk ∈ chunks, IsChunk blake3 chunk)
    (placed : ValidPlacement spec.totalShards placements) :
    PackLayout (definitionOf spec (packPayload chunks)) (chunkRows chunks)
      (shardRows blake3 zfec spec chunks placements) :=
  requireErasureRows_layout (requireErasureRows_argsOf mds filled chunk placed)

end Built

section Registration

variable {blake3 : Blake3} {zfec : Zfec} {spec : ErasureSpec} {chunks : List (Text × Bytes)}
  {placements : List ShardPlacement} {db after : MetadataDB} {protectionState : ProtectionState}
  {placementEpoch : Option Text} {now : PyFloat}

theorem insertErasureDataPackOnce_of_absent {packHash : Text} {definition : ErasureDefinition}
    {lastPushAt : Option PyFloat}
    (absent : db.getErasureDataPack packHash = none) (clock : bindReal now = some now)
    (fits : definition.dataShards < 2 ^ 63 ∧ definition.parityShards < 2 ^ 63 ∧
      definition.payloadSize < 2 ^ 63 ∧
      definition.paddedSize < 2 ^ 63 ∧ definition.shardSize < 2 ^ 63) :
    ∃ after, db.insertErasureDataPackOnce packHash definition protectionState placementEpoch now
      lastPushAt = .ok after := by
  obtain ⟨data, parity, payload, padded, shard⟩ := fits
  have missing : db.erasureDataPacks.contains packHash = false := by
    rw [MetadataDB.getErasureDataPack] at absent
    simp [Dict.contains, absent]
  simp only [MetadataDB.insertErasureDataPackOnce, absent, clock, requireNotNull,
    MetadataDB.insertErasureDataPack,
    bindNat_of_lt data, bindNat_of_lt parity, bindNat_of_lt payload, bindNat_of_lt padded,
      bindNat_of_lt shard, missing]
  exact ⟨_, rfl⟩

/-- A pack that is not registered and whose sizes fit the columns is registered. -/
theorem registerErasureDataPack_of_absent (sound : db.ErasureSound)
    (mds : zfec.Mds spec.dataShards spec.totalShards) (filled : chunks ≠ [])
    (chunk : ∀ chunk ∈ chunks, IsChunk blake3 chunk) (distinct : (chunks.map Prod.fst).Nodup)
    (known : ∀ chunk ∈ chunks, db.chunks.contains chunk.1 = true)
    (unassigned : ∀ chunk ∈ chunks, db.erasurePackChunks.get? chunk.1 = none)
    (placed : ValidPlacement spec.totalShards placements) (clock : bindReal now = some now)
    (fits : (definitionOf spec (packPayload chunks)).paddedSize < 2 ^ 63)
    (absent : db.getErasureDataPack (blake3HexDigest blake3 (packPayload chunks)) = none) :
    ∃ after, db.registerErasureDataPack
      (argsOf blake3 zfec spec chunks placements) protectionState placementEpoch now =
      .ok after := by
  have layout := packLayout_argsOf mds filled chunk placed
  have payloadFits : (packPayload chunks).length < 2 ^ 63 := layout.within.trans_lt fits
  have shardFits : primaryShardSize (packPayload chunks) spec.dataShards < 2 ^ 63 :=
    (Nat.le_mul_of_pos_right _ spec.positive).trans_lt fits
  have total := spec.bounded
  obtain ⟨noChunks, noShards⟩ := sound.unregistered absent
  have chunkOf : ∀ row ∈ chunkRows chunks, ∃ item ∈ chunks, item.1 = row.chunkHash := by
    intro row member
    exact List.mem_map.mp (chunkRows_hashes ▸ List.mem_map_of_mem member)
  have packing : ∃ middle, db.insertErasureDataPackOnce
      (blake3HexDigest blake3 (packPayload chunks))
      (definitionOf spec (packPayload chunks)) protectionState placementEpoch now
      (if protectionState ≠ .pending then some now else none) = .ok middle :=
    insertErasureDataPackOnce_of_absent absent clock
      ⟨show spec.dataShards < _ by omega, show spec.parityShards < _ by omega,
        payloadFits, fits, shardFits⟩
  obtain ⟨middle, packed⟩ := packing
  obtain ⟨pack, rest, own, -, -, -⟩ := insertErasureDataPackOnce_ok packed
  have registered : middle.erasureDataPacks.contains
      (blake3HexDigest blake3 (packPayload chunks)) = true := by
    rw [MetadataDB.getErasureDataPack] at own
    simp [Dict.contains, own]
  have chunking : ∃ last, middle.insertErasurePackChunksOnce
      (blake3HexDigest blake3 (packPayload chunks))
      (chunkRows chunks) = .ok last := by
    refine insertErasurePackChunksOnce_of_fresh registered ?_ ?_ ?_
      (chunkRows_hashes ▸ distinct) ?_ ?_
    · intro row member
      obtain ⟨item, present, same⟩ := chunkOf row member
      rw [rest, ← same]
      exact known item present
    · intro row member
      obtain ⟨item, present, same⟩ := chunkOf row member
      rw [rest, ← same]
      exact unassigned item present
    · intro row _ stored present
      have none : middle.getErasurePackChunks
          (blake3HexDigest blake3 (packPayload chunks)) = [] := by
        rw [rest]
        exact noChunks
      simp [none] at present
    · rw [chunkRows_numbered]
      exact List.nodup_range
    · intro row member
      have bounds := layout.tiled.bounds member
      have ordinal := layout.ordinals.lt_length member
      have count := layout.tiled.count_le
      have size : (definitionOf spec (packPayload chunks)).payloadSize < 2 ^ 63 := payloadFits
      omega
  obtain ⟨last, chunked⟩ := chunking
  have added := foldlM_chunksAdded (fun _ _ _ => insertErasurePackChunkOnce_added) chunked
  have sharding : ∃ after, last.insertErasurePackShardsOnce
      (blake3HexDigest blake3 (packPayload chunks))
      (shardRows blake3 zfec spec chunks placements) protectionState
      (if protectionState ≠ .pending then some now else none) = .ok after := by
    refine insertErasurePackShardsOnce_of_fresh ?_ ?_ ?_ ?_
    · rw [added.rest]
      exact registered
    · intro row member
      rw [added.rest, rest]
      cases found : db.erasurePackShards.get? (blake3HexDigest blake3 (packPayload chunks),
        row.shardIndex) with
      | none => rfl
      | some stored =>
          have present : stored.entry row.shardIndex ∈
              db.getErasurePackShards (blake3HexDigest blake3 (packPayload chunks)) :=
            mem_getErasurePackShards.mpr ⟨stored, found, rfl⟩
          simp [noShards] at present
    · rw [shardRows_indexes mds]
      exact List.nodup_range
    · intro row member
      have index : row.shardIndex < spec.totalShards := by
        have listed := List.mem_map_of_mem (f := ErasureShardEntry.shardIndex) member
        rw [shardRows_indexes mds] at listed
        exact List.mem_range.mp listed
      have size := (shardRows_valid mds placed member).2.2.2
      refine ⟨?_, size ▸ shardFits⟩
      rw [ErasureSpec.totalShards] at index
      omega
  obtain ⟨after, sharded⟩ := sharding
  refine ⟨after, ?_⟩
  rw [MetadataDB.registerErasureDataPack, bind_eq_ok_iff]
  refine ⟨_, requireErasureDefinition_argsOf, ?_⟩
  rw [bind_eq_ok_iff]
  refine ⟨_, requireErasureRows_argsOf mds filled chunk placed, ?_⟩
  rw [bind_eq_ok_iff]
  refine ⟨middle, packed, ?_⟩
  rw [bind_eq_ok_iff]
  exact ⟨last, chunked, sharded⟩

/-- A pack that is registered names chunks already, and its sizes fit the columns. -/
theorem absent_of_registerErasureDataPack (sound : db.ErasureSound)
    (mds : zfec.Mds spec.dataShards spec.totalShards)
    (filled : chunks ≠ []) (chunk : ∀ chunk ∈ chunks, IsChunk blake3 chunk)
    (unassigned : ∀ chunk ∈ chunks, db.erasurePackChunks.get? chunk.1 = none)
    (placed : ValidPlacement spec.totalShards placements)
    (registered : db.registerErasureDataPack
      (argsOf blake3 zfec spec chunks placements) protectionState placementEpoch
      now = .ok after) :
    (definitionOf spec (packPayload chunks)).paddedSize < 2 ^ 63 ∧
      db.getErasureDataPack (blake3HexDigest blake3 (packPayload chunks)) = none := by
  obtain ⟨packHash, definition, rows, shards, scalars, checked, -, earlier⟩ :=
    registerErasureDataPack_ok sound registered
  rw [requireErasureDefinition_argsOf, Except.ok.injEq, Prod.mk.injEq] at scalars
  obtain ⟨rfl, rfl⟩ := scalars
  rw [requireErasureRows_argsOf mds filled chunk placed, Except.ok.injEq, Prod.mk.injEq] at checked
  obtain ⟨rfl, rfl⟩ := checked
  have absent : db.getErasureDataPack (blake3HexDigest blake3 (packPayload chunks)) = none := by
    rcases earlier with absent | same
    · exact absent
    · -- the rows that the pack already has are those of these chunks, which belong to no pack
      obtain ⟨first, others, rfl⟩ := List.exists_cons_of_ne_nil filled
      have member : (⟨first.1, 0, first.2.length, 0⟩ : ErasureChunkEntry) ∈ chunkRows
          (first :: others) := .head _
      rw [← same, mem_getErasurePackChunks] at member
      rw [unassigned first (by simp)] at member
      cases member
  refine ⟨?_, absent⟩
  rw [MetadataDB.registerErasureDataPack, requireErasureDefinition_argsOf,
    bind_eq_ok_iff] at registered
  obtain ⟨_, same, registered⟩ := registered
  cases same
  obtain ⟨⟨rows, shards⟩, -, registered⟩ := bind_eq_ok_iff.mp registered
  obtain ⟨middle, packed, -⟩ := bind_eq_ok_iff.mp registered
  simp only [MetadataDB.insertErasureDataPackOnce, absent, MetadataDB.insertErasureDataPack,
    bind_eq_ok_iff] at packed
  obtain ⟨-, -, -, -, -, -, -, -, ⟨⟩, padded, -⟩ := packed
  exact bindNat_ok padded

theorem packHash_of_built {pack : EncodedDataPack}
    (built : buildDataPackFromValidatedChunks blake3 zfec chunks spec = .ok pack) :
    pack.packHash = blake3HexDigest blake3 (packPayload chunks) := by
  rw [buildDataPackFromValidatedChunks, ensure_bind_eq_ok_iff, bind_eq_ok_iff] at built
  obtain ⟨-, entries, -, rest⟩ := built
  obtain ⟨shards, -, created⟩ := bind_eq_ok_iff.mp rest
  simp only [createEncodedDataPack, bind_eq_ok_iff, pure_eq_ok_iff] at created
  obtain ⟨packHash, hashed, -, -, -, -, -, -, -, -, -, -, -, -, rfl⟩ := created
  rw [requireHash_of_valid (blake3HexDigest_valid blake3 _), Except.ok.injEq] at hashed
  exact hashed.symm

/-- Chunks that no pack has can be packed and registered exactly if no pack is registered under the
digest of their joined bytes, and two packs share that digest exactly if their chunks join to the
same bytes, however they are split. -/
theorem packRegistration_succeeds_iff (blake3 : Blake3) (zfec : Zfec) (spec : ErasureSpec)
    (events : List CatalogEvent) (chunks : List (Text × Bytes)) (placements : List ShardPlacement)
    (placementEpoch : Text) (now : PyFloat)
    (mds : zfec.Mds spec.dataShards spec.totalShards) (filled : chunks ≠ [])
    (chunk : ∀ chunk ∈ chunks, IsChunk blake3 chunk) (distinct : (chunks.map Prod.fst).Nodup)
    (known : ∀ chunk ∈ chunks, (events.foldl catalogStep .empty).chunks.contains chunk.1 = true)
    (unassigned : ∀ chunk ∈ chunks,
      (events.foldl catalogStep .empty).erasurePackChunks.get? chunk.1 = none)
    (placed : ValidPlacement spec.totalShards placements) (clock : bindReal now = some now) :
    ((∃ pack after, buildDataPackFromValidatedChunks blake3 zfec chunks spec = .ok pack ∧
        registerDataPackMetadata
          (events.foldl catalogStep .empty) pack placements .pending placementEpoch now =
          .ok after) ↔
      primaryShardSize (packPayload chunks) spec.dataShards * spec.dataShards < 2 ^ 63 ∧
        ∀ packHash pack, (events.foldl catalogStep .empty).getErasureDataPack packHash = some pack →
          packHash ≠ blake3HexDigest blake3 (packPayload chunks)) ∧
    ∀ others otherSpec pack otherPack,
      CollisionFree blake3 (fun data => data = packPayload chunks ∨ data = packPayload others) →
      buildDataPackFromValidatedChunks blake3 zfec chunks spec = .ok pack →
      buildDataPackFromValidatedChunks blake3 zfec others otherSpec = .ok otherPack →
      (pack.packHash = otherPack.packHash ↔ packPayload chunks = packPayload others) := by
  have sound := foldl_catalogStep_sound events erasureSound_empty
  generalize events.foldl catalogStep .empty = db at known unassigned sound
  have built := buildDataPackFromValidatedChunks_of_mds mds filled chunk
  have registers : ∀ after, registerDataPackMetadata db
      (packOf blake3 zfec chunks spec) placements .pending placementEpoch
      now = .ok after ↔
        db.registerErasureDataPack (argsOf blake3 zfec spec chunks placements) .pending
        (some placementEpoch) now = .ok after := by
    intro after
    rw [registerDataPackMetadata, packMetadataArgs_packOf mds placed]
  refine ⟨⟨?_, ?_⟩, ?_⟩
  · rintro ⟨pack, after, packed, registered⟩
    rw [built, Except.ok.injEq] at packed
    rw [← packed, registers] at registered
    obtain ⟨fits, absent⟩ :=
      absent_of_registerErasureDataPack sound mds filled chunk unassigned placed registered
    refine ⟨fits, ?_⟩
    rintro packHash pack found rfl
    rw [absent] at found
    cases found
  · rintro ⟨fits, free⟩
    have absent : db.getErasureDataPack (blake3HexDigest blake3 (packPayload chunks)) = none := by
      cases found : db.getErasureDataPack (blake3HexDigest blake3 (packPayload chunks)) with
      | none => rfl
      | some pack => exact absurd rfl (free _ pack found)
    obtain ⟨after, registered⟩ :=
      registerErasureDataPack_of_absent sound mds filled chunk distinct known unassigned placed
      clock fits absent
    exact ⟨_, after, built, (registers after).mpr registered⟩
  · intro others otherSpec pack otherPack collisionFree packed otherPacked
    rw [packHash_of_built packed, packHash_of_built otherPacked]
    constructor
    · exact collisionFree _ _ (.inl rfl) (.inr rfl)
    · exact congrArg (blake3HexDigest blake3)

end Registration

namespace Resplit

/-- The three bytes `1 2 3` as one chunk of two bytes and one of one byte, or the other way
round. -/
def blake3 : Blake3 := .ofTable
  [([1], 0x48fc721fbbc172e0925fa27af1671de225ba927134802998b10a1568a188652b),
    ([2, 3], 0x75e17c8ba66d20921eaa70500cef20295d04532f44598a5d770c57d2a33c0b67),
    ([1, 2], 0xb7d770040f780e9deff6bc038abea66e108b88d098d16d24cd7486eb671060b2),
    ([3], 0xe1e0e81d6ea39b0cf8b86ffd440921011f57400cbc3f76a8a171906a9b8d7505),
    ([1, 2, 3], 0xb177ec1bf26dfb3b7010d473e6d44713b29b765b99c6e60ecbfae742de496543)]

def spec : ErasureSpec where
  dataShards := 1
  parityShards := 0
  positive := by decide
  bounded := by decide

def named (data : Bytes) : Text × Bytes := (blake3HexDigest blake3 data, data)

def first : List (Text × Bytes) := [named [1, 2], named [3]]

def second : List (Text × Bytes) := [named [1], named [2, 3]]

def placements : List ShardPlacement :=
  [{ packHash := blake3HexDigest blake3 [1, 2, 3], shardIndex := 0, nodeId := "n1".toList,
     address := "a1".toList }]

def tables : MetadataDB :=
  { MetadataDB.empty with
    chunks := .ofList ((first ++ second).map fun chunk => (chunk.1, chunk.2.length)) }

def now : PyFloat := ⟨0⟩

/-- The catalog after the first sequence has been packed. -/
def events : List CatalogEvent :=
  [.elsewhere tables, .register (argsOf blake3 Striping.zfec spec first placements) .pending
    (some []) now]

theorem placed : ValidPlacement spec.totalShards placements where
  indexes := rfl
  nodes := by decide
  named := by decide

end Resplit

/-- The same bytes split in another way get the name of the first pack, and their registration
raises. -/
theorem resplitPayload_refused :
    (∀ chunk ∈ Resplit.second, IsChunk Resplit.blake3 chunk) ∧ (Resplit.second.map Prod.fst).Nodup ∧
    (∀ chunk ∈ Resplit.second,
      (Resplit.events.foldl catalogStep .empty).chunks.contains chunk.1 = true) ∧
    (∀ chunk ∈ Resplit.second,
      (Resplit.events.foldl catalogStep .empty).erasurePackChunks.get? chunk.1 = none) ∧
    ValidPlacement Resplit.spec.totalShards Resplit.placements ∧
    Resplit.first ≠ Resplit.second ∧
    (buildDataPackFromValidatedChunks Resplit.blake3 Striping.zfec Resplit.first
      Resplit.spec).toOption.map (·.packHash) =
      (buildDataPackFromValidatedChunks Resplit.blake3 Striping.zfec Resplit.second
        Resplit.spec).toOption.map (·.packHash) ∧
    (buildDataPackFromValidatedChunks Resplit.blake3 Striping.zfec Resplit.second
      Resplit.spec).toOption.map (fun pack =>
        registerDataPackMetadata (Resplit.events.foldl catalogStep .empty) pack Resplit.placements
          .pending [] Resplit.now) =
      some (.error (.integrity
        "UNIQUE constraint failed: erasure_data_pack_chunks.pack_hash, erasure_data_pack_chunks.chunk_ordinal")) := by
  refine ⟨by simp [Resplit.second, Resplit.named, IsChunk], by decide +kernel,
    by decide +kernel, by decide +kernel,
    Resplit.placed, by decide +kernel, by decide +kernel, by decide +kernel⟩

/-- Before the first sequence is packed, the second one can be. -/
theorem firstSplit_registered :
    ∃ pack after, buildDataPackFromValidatedChunks Resplit.blake3 Striping.zfec Resplit.second
      Resplit.spec = .ok pack ∧
      registerDataPackMetadata
        ([CatalogEvent.elsewhere Resplit.tables].foldl catalogStep .empty) pack Resplit.placements
        .pending [] Resplit.now = .ok after := by
  have chunk : ∀ chunk ∈ Resplit.second, IsChunk Resplit.blake3 chunk := by
    simp [Resplit.second, Resplit.named, IsChunk]
  have exact_iff := (packRegistration_succeeds_iff Resplit.blake3 Striping.zfec Resplit.spec
    [.elsewhere Resplit.tables] Resplit.second Resplit.placements [] Resplit.now
      (Striping.mds 1) (by decide) chunk
    (by decide +kernel) (by decide +kernel) (by decide +kernel) Resplit.placed (by decide)).1
  refine exact_iff.mpr ⟨by decide, ?_⟩
  intro packHash pack found
  cases found

end Stopan.Erasure
