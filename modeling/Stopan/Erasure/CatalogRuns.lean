import Stopan.Metadata.ErasureLayout
import Stopan.Objects.ErasureRecords

namespace Stopan.Erasure

open Stopan.Lib Stopan.Common Stopan.Metadata Stopan.Protection Stopan.Objects.Exchange

theorem requireInt_ok {name : String} {minValue number : Nat} {value : PyJson}
    (checked : requireInt name minValue value = .ok number) : minValue ≤ number := by
  unfold requireInt at checked
  split at checked
  · rw [ensure_bind_eq_ok_iff, decide_eq_true_eq] at checked
    have same := pure_eq_ok_iff.mp checked.2
    have bound := checked.1
    omega
  · cases checked

/-- The rows gathered so far are numbered and tile the payload up to the end of the last one. -/
structure ChunksTile (state : ChunkRowsState) : Prop where
  ordinals : Numbered ErasureChunkEntry.ordinal state.rows
  tiled : Tiles ErasureChunkEntry.offset ErasureChunkEntry.length 0 state.rows state.previousEnd

theorem erasureChunkRow_tiles {chunkSizes : Dict Text Nat} {state next : ChunkRowsState}
    {item : PyJson} (tiles : ChunksTile state)
    (read : erasureChunkRow chunkSizes state item = .ok next) : ChunksTile next := by
  simp only [erasureChunkRow, bind_eq_ok_iff, ensure_eq_ok_iff, pure_eq_ok_iff,
    decide_eq_true_eq] at read
  obtain ⟨fields, -, chunkHash, -, -, -, -, -, -, -, offset, -, length, checked, ordinal, -, -,
    numbered, -, placed, rfl⟩ := read
  subst placed
  exact ⟨tiles.ordinals.concat numbered, tiles.tiled.concat rfl (requireInt_ok checked)⟩

theorem erasureChunkRows_ok {chunkSizes : Dict Text Nat} {record : Objects.Fields}
    {seen seenAfter : List Text} {rows : List ErasureChunkEntry} {payloadSize : Nat}
    (size : requireInt "erasure_data_pack.payload_size" 0
      (get record "payload_size") = .ok payloadSize)
    (read : erasureChunkRows chunkSizes record seen = .ok (rows, seenAfter)) :
    Numbered ErasureChunkEntry.ordinal rows ∧
      Tiles ErasureChunkEntry.offset ErasureChunkEntry.length 0 rows payloadSize := by
  rw [erasureChunkRows, bind_eq_ok_iff] at read
  obtain ⟨rawChunks, -, read⟩ := read
  obtain ⟨state, folded, read⟩ := bind_eq_ok_iff.mp read
  have tiles : ChunksTile state := by
    refine foldlM_invariant ChunksTile (fun _ _ _ _ => erasureChunkRow_tiles) ?_ folded
    exact ⟨rfl, rfl⟩
  obtain ⟨total, found, read⟩ := bind_eq_ok_iff.mp read
  rw [size, Except.ok.injEq] at found
  rw [ensure_bind_eq_ok_iff, ensure_bind_eq_ok_iff, decide_eq_true_eq, pure_eq_ok_iff] at read
  obtain ⟨-, covered, same⟩ := read
  cases same
  exact ⟨tiles.ordinals, found ▸ covered ▸ tiles.tiled⟩

theorem erasureShardRow_nodup {rows next : List (Nat × ErasurePackShardRow)} {item : PyJson}
    (distinct : (rows.map fun row => row.2.nodeId).Nodup)
    (read : erasureShardRow rows item = .ok next) : (next.map fun row => row.2.nodeId).Nodup := by
  simp only [erasureShardRow, bind_eq_ok_iff, ensure_eq_ok_iff, pure_eq_ok_iff] at read
  obtain ⟨fields, -, shardIndex, -, shardHash, -, nodeId, -, size, -, protectionState, -,
    lastPushAt, -, lastVerifyAt, -, lastError, -, -, fresh, rfl⟩ := read
  rw [List.map_append, List.map_singleton, List.nodup_append]
  refine ⟨distinct, List.nodup_singleton _, ?_⟩
  intro left member right single same
  rw [List.mem_singleton.mp single] at same
  subst same
  simp only [Bool.not_eq_true', List.contains_eq_mem, decide_eq_false_iff_not] at fresh
  exact fresh member

theorem erasureShardRows_ok {record : Objects.Fields} {rows : List (Nat × ErasurePackShardRow)}
    {dataShards parityShards : Nat}
    (data : requireInt "erasure_data_pack.data_shards" 1
      (get record "data_shards") = .ok dataShards)
    (parity : requireInt "erasure_data_pack.parity_shards" 0
      (get record "parity_shards") = .ok parityShards)
    (read : erasureShardRows record = .ok rows) :
    rows.map Prod.fst = List.range (dataShards + parityShards) ∧
      (rows.map fun row => row.2.nodeId).Nodup := by
  rw [erasureShardRows, bind_eq_ok_iff] at read
  obtain ⟨rawShards, -, read⟩ := read
  simp only [data, parity, bind_eq_ok_iff, ensure_eq_ok_iff, decide_eq_true_eq, pure_eq_ok_iff,
    Except.ok.injEq] at read
  obtain ⟨_, rfl, _, rfl, built, folded, -, indexes, rfl⟩ := read
  refine ⟨indexes, ?_⟩
  exact foldlM_invariant (fun rows => (rows.map fun row => row.2.nodeId).Nodup)
    (fun _ _ _ _ => erasureShardRow_nodup)
    (by simp) folded

/-- The shard rows of an imported record, as the catalog will show them. -/
def shardEntries (record : ErasureDataPackImportRows) : List ErasureShardEntry :=
  record.shards.map fun shard => shard.2.entry shard.1

theorem erasureDataPackImportRows_layout {chunkSizes : Dict Text Nat}
    {record : Objects.Fields} {packHash : Text}
    {seen seenAfter : List Text} {rows : ErasureDataPackImportRows}
    (read : erasureDataPackImportRows chunkSizes record packHash seen = .ok (rows, seenAfter)) :
    PackLayout rows.pack.definition rows.chunks (shardEntries rows) := by
  simp only [erasureDataPackImportRows, bind_eq_ok_iff, ensure_eq_ok_iff,
    pure_eq_ok_iff, decide_eq_true_eq, Prod.exists] at read
  obtain ⟨codec, -, dataShards, data, parityShards, parity, payloadSize, payload, paddedSize, -,
    shardSize, -, -, padded,
    -, within, protectionState, -, placementEpoch, -, createdAt, -, lastPushAt, -, lastVerifyAt, -,
    lastError, -, chunks, seenChunks, chunkRows, shards, shardRows, same⟩ := read
  cases same
  obtain ⟨ordinals, tiled⟩ := erasureChunkRows_ok payload chunkRows
  obtain ⟨indexes, nodes⟩ := erasureShardRows_ok data parity shardRows
  refine ⟨ordinals, tiled, ?_, ?_, padded, within⟩
  · rw [shardEntries, List.map_map]
    exact indexes
  · rw [shardEntries, List.map_map]
    exact nodes

/-- Every record that an import reads has the layout of a pack. -/
def LaidOut (state : ImportState) : Prop :=
  ∀ rows ∈ state.out, PackLayout rows.pack.definition rows.chunks (shardEntries rows)

theorem loadErasureDataPackRecord_laidOut {chunkSizes : Dict Text Nat} {hexPrefix : Text}
    {state next : ImportState} {record : PyJson} (laidOut : LaidOut state)
    (read : loadErasureDataPackRecord chunkSizes hexPrefix state record = .ok next) :
    LaidOut next := by
  simp only [loadErasureDataPackRecord, bind_eq_ok_iff, ensure_eq_ok_iff, pure_eq_ok_iff,
    Prod.exists] at read
  obtain ⟨fields, -, packHash, -, -, -, -, -, rows, seenChunks, converted, rfl⟩ := read
  intro listed member
  rcases List.mem_append.mp member with earlier | last
  · exact laidOut listed earlier
  · rw [List.mem_singleton.mp last]
    exact erasureDataPackImportRows_layout converted

theorem loadErasureDataPackShard_laidOut {reader : Payloads} {chunkSizes : Dict Text Nat}
    {state next : ImportState} {shardRef : PyJson} (laidOut : LaidOut state)
    (read : loadErasureDataPackShard reader chunkSizes state shardRef = .ok next) :
    LaidOut next := by
  simp only [loadErasureDataPackShard, bind_eq_ok_iff] at read
  obtain ⟨-, -, hexPrefix, -, -, -, -, -, -, -, records, -, folded⟩ := read
  exact foldlM_invariant LaidOut (fun _ _ _ _ => loadErasureDataPackRecord_laidOut) laidOut folded

theorem loadErasureDataPackRows_laidOut {reader : Payloads} {catalog : Objects.Fields}
    {chunkSizes : Dict Text Nat} {records : List ErasureDataPackImportRows}
    (loaded : loadErasureDataPackRows reader catalog chunkSizes = .ok records) :
    ∀ rows ∈ records, PackLayout rows.pack.definition rows.chunks (shardEntries rows) := by
  rw [loadErasureDataPackRows, bind_eq_ok_iff] at loaded
  obtain ⟨indexHash, -, loaded⟩ := loaded
  cases indexHash with
  | none =>
      cases pure_eq_ok_iff.mp loaded
      simp
  | some indexHash =>
      simp only [bind_eq_ok_iff, pure_eq_ok_iff] at loaded
      obtain ⟨-, -, shards, -, state, folded, -, -, rfl⟩ := loaded
      exact foldlM_invariant LaidOut (fun _ _ _ _ => loadErasureDataPackShard_laidOut)
        (by simp [LaidOut]) folded

/-- The catalog with the other tables as another catalog has them. -/
def withTablesOf (db tables : MetadataDB) : MetadataDB :=
  { tables with
    erasureDataPacks := db.erasureDataPacks
    erasurePackChunks := db.erasurePackChunks
    erasurePackShards := db.erasurePackShards }

/-- The part of `import_latest` that concerns data packs. The reader stands for any object store and
`tables` for the tables that the import fills before; its chunks are the known chunks of the
graph. -/
def importLatest (db : MetadataDB) (reader : Payloads) (catalog : Objects.Fields)
    (tables : MetadataDB) (includeProtection : Bool) : Except StopanError MetadataDB := do
  let records ← loadErasureDataPackRows reader catalog tables.chunks
  db.requireEmptyOperationalDb
  if includeProtection then
    (withTablesOf db tables).objectImportInsertErasureDataPackRecords records
  else return withTablesOf db tables

/-- A call on the catalog with all its arguments. -/
inductive CatalogEvent where
  | register (args : ErasurePackArgs) (protectionState : ProtectionState)
      (placementEpoch : Option Text) (now : PyFloat)
  | pushResults (pushUpdates : List ErasureDataPackPushUpdate)
      (errorUpdates : List ErasureDataPackPushErrorUpdate)
  | verifications (updates : List ErasureDataPackVerificationUpdate) (now : PyFloat)
  | markState (packHash : Text) (protectionState : ProtectionState)
      (placementEpoch error : Option Text) (now : PyFloat)
  | importLatest (reader : Payloads) (catalog : Objects.Fields) (tables : MetadataDB)
      (includeProtection : Bool)
  /-- A statement on the other tables. -/
  | elsewhere (tables : MetadataDB)

def performCatalogEvent (db : MetadataDB) : CatalogEvent → Except StopanError MetadataDB
  | .register args protectionState placementEpoch now =>
      db.registerErasureDataPack args protectionState placementEpoch now
  | .pushResults pushUpdates errorUpdates =>
      db.applyErasureDataPackPushResultBatch pushUpdates errorUpdates
  | .verifications updates now => db.applyErasureDataPackVerifications updates now
  | .markState packHash protectionState placementEpoch error now =>
      db.markErasureDataPackState packHash protectionState placementEpoch error now
  | .importLatest reader catalog tables includeProtection =>
      importLatest db reader catalog tables includeProtection
  | .elsewhere tables => .ok (withTablesOf db tables)

/-- A call that raises changes nothing. -/
def catalogStep (db : MetadataDB) (event : CatalogEvent) : MetadataDB :=
  match performCatalogEvent db event with
  | .ok next => next
  | .error _ => db

theorem withTablesOf_sound {db : MetadataDB} (sound : db.ErasureSound) (tables : MetadataDB) :
    (withTablesOf db tables).ErasureSound :=
  sound.evidence (fun _ => rfl) rfl fun _ => rfl

theorem importLatest_sound {db next : MetadataDB} {reader : Payloads} {catalog : Objects.Fields}
    {tables : MetadataDB} {includeProtection : Bool} (sound : db.ErasureSound)
    (imported : importLatest db reader catalog tables includeProtection = .ok next) :
    next.ErasureSound := by
  rw [importLatest] at imported
  obtain ⟨records, loaded, imported⟩ := bind_eq_ok_iff.mp imported
  obtain ⟨-, -, imported⟩ := bind_eq_ok_iff.mp imported
  have layouts := loadErasureDataPackRows_laidOut loaded
  have start := withTablesOf_sound sound tables
  split at imported
  · refine foldlM_invariant MetadataDB.ErasureSound ?_ start imported
    intro rebuilt record member after held inserted
    exact held.written (layouts record member)
      (objectImportInsertErasureDataPackRecord_written held (layouts record member) inserted)
  · cases pure_eq_ok_iff.mp imported
    exact start

theorem catalogStep_sound {db : MetadataDB} (event : CatalogEvent) (sound : db.ErasureSound) :
    (catalogStep db event).ErasureSound := by
  unfold catalogStep
  cases performed : performCatalogEvent db event with
  | error reason => exact sound
  | ok next =>
      cases event with
      | register args protectionState placementEpoch now =>
          exact registerErasureDataPack_sound sound performed
      | pushResults pushUpdates errorUpdates =>
          exact applyErasureDataPackPushResultBatch_sound sound performed
      | verifications updates now =>
          exact foldlM_invariant MetadataDB.ErasureSound
            (fun _ _ _ _ => applyErasureDataPackVerificationUpdate_sound) sound performed
      | markState packHash protectionState placementEpoch error now =>
          exact markErasureDataPackState_sound sound performed
      | importLatest reader catalog tables includeProtection =>
          exact importLatest_sound sound performed
      | elsewhere tables =>
          cases performed
          exact withTablesOf_sound sound tables

theorem foldl_catalogStep_sound {db : MetadataDB} (events : List CatalogEvent)
    (sound : db.ErasureSound) : (events.foldl catalogStep db).ErasureSound := by
  induction events generalizing db with
  | nil => exact sound
  | cons event rest ih => exact ih (catalogStep_sound event sound)

theorem erasureSound_empty : MetadataDB.empty.ErasureSound where
  chunkRows _ _ found := nomatch found
  shardRows _ _ found := nomatch found
  layout _ _ found := nomatch found

/-- In every catalog that a run reaches, each pack has the layout of its definition, so that every
byte of its payload is in exactly one of its chunks, and no chunk is in two packs. -/
theorem erasureCatalog_laidOut (events : List CatalogEvent) :
    (∀ packHash pack, (events.foldl catalogStep .empty).getErasureDataPack packHash = some pack →
      PackLayout pack.definition ((events.foldl catalogStep .empty).getErasurePackChunks packHash)
          ((events.foldl catalogStep .empty).getErasurePackShards packHash) ∧
        ∀ position < pack.payloadSize,
          ∃! chunk, chunk ∈ (events.foldl catalogStep .empty).getErasurePackChunks packHash ∧
            Covers ErasureChunkEntry.offset ErasureChunkEntry.length chunk position) ∧
    ∀ left right leftChunk rightChunk,
      leftChunk ∈ (events.foldl catalogStep .empty).getErasurePackChunks left →
      rightChunk ∈ (events.foldl catalogStep .empty).getErasurePackChunks right →
      leftChunk.chunkHash = rightChunk.chunkHash → left = right := by
  have sound := foldl_catalogStep_sound events erasureSound_empty
  constructor
  · intro packHash pack registered
    have layout := sound.layout packHash pack registered
    exact ⟨layout, fun position bound => layout.tiled.existsUnique (Nat.zero_le _) bound⟩
  · intro left right leftChunk rightChunk leftMember rightMember same
    have leftRow := mem_getErasurePackChunks.mp leftMember
    have rightRow := mem_getErasurePackChunks.mp rightMember
    rw [same, rightRow, Option.some.injEq] at leftRow
    have packs := congrArg ErasurePackChunkRow.packHash leftRow
    exact packs.symm

end Stopan.Erasure
