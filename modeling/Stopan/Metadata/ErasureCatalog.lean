import Stopan.Lib.Result
import Stopan.Lib.Tiling
import Stopan.Metadata.Schema

namespace Stopan.Metadata

open Stopan.Lib Stopan.Common Stopan.Protection

/-- A chunk of a pack as a caller passes it. -/
structure ErasureChunkArg where
  chunkHash : Text
  offset : Int
  length : Int
  ordinal : Int
  deriving DecidableEq, Repr

/-- A shard of a pack as a caller passes it. -/
structure ErasureShardArg where
  shardIndex : Int
  shardHash : Text
  nodeId : Text
  size : Int
  deriving DecidableEq, Repr

/-- The part of the arguments that registration and push results share. -/
structure ErasurePackArgs where
  packHash : Text
  codec : Text
  dataShards : Int
  parityShards : Int
  payloadSize : Int
  paddedSize : Int
  shardSize : Int
  chunks : List ErasureChunkArg
  shards : List ErasureShardArg
  deriving DecidableEq, Repr

structure ErasureDataPackPushUpdate extends ErasurePackArgs where
  protectionState : ProtectionState
  placementEpoch : Option Text
  pushedAt : PyFloat
  deriving DecidableEq, Repr

structure ErasureDataPackPushErrorUpdate where
  packHash : Text
  error : Text
  deriving DecidableEq, Repr

structure ErasureDataPackVerificationUpdate where
  packHash : Text
  protectionState : ProtectionState
  verifiedShardIndexes : List Int
  error : Option Text
  deriving DecidableEq, Repr

structure ErasureChunkEntry where
  chunkHash : Text
  offset : Nat
  length : Nat
  ordinal : Nat
  deriving DecidableEq, Repr

structure ErasureShardEntry where
  shardIndex : Nat
  shardHash : Text
  nodeId : Text
  size : Nat
  deriving DecidableEq, Repr

/-- The columns that every later statement about a pack must repeat. -/
structure ErasureDefinition where
  codec : Text
  dataShards : Nat
  parityShards : Nat
  payloadSize : Nat
  paddedSize : Nat
  shardSize : Nat
  deriving DecidableEq, Repr

def ErasureDefinition.totalShards (definition : ErasureDefinition) : Nat :=
  definition.dataShards + definition.parityShards

def ErasureDataPackRow.definition (row : ErasureDataPackRow) : ErasureDefinition where
  codec := row.codec
  dataShards := row.dataShards
  parityShards := row.parityShards
  payloadSize := row.payloadSize
  paddedSize := row.paddedSize
  shardSize := row.shardSize

def ErasureChunkEntry.row (packHash : Text) (entry : ErasureChunkEntry) : ErasurePackChunkRow where
  packHash
  chunkOffset := entry.offset
  chunkLength := entry.length
  chunkOrdinal := entry.ordinal

def ErasurePackChunkRow.entry (chunkHash : Text) (row : ErasurePackChunkRow) :
    ErasureChunkEntry where
  chunkHash
  offset := row.chunkOffset
  length := row.chunkLength
  ordinal := row.chunkOrdinal

def ErasurePackShardRow.entry (shardIndex : Nat) (row : ErasurePackShardRow) :
    ErasureShardEntry where
  shardIndex
  shardHash := row.shardHash
  nodeId := row.nodeId
  size := row.size

def ErasureShardEntry.row (protectionState : ProtectionState) (lastPushAt : Option PyFloat)
    (entry : ErasureShardEntry) : ErasurePackShardRow where
  shardHash := entry.shardHash
  nodeId := entry.nodeId
  size := entry.size
  protectionState
  lastPushAt
  lastVerifyAt := none
  lastError := none

def requireNonEmptyText (name : String) (value : Text) : Except StopanError Text :=
  if (strip value).isEmpty then .error (.metadataDatabase s!"{name} no puede estar vacío")
    else .ok (strip value)

def requireErasureChunk (chunk : ErasureChunkArg) : Except StopanError ErasureChunkEntry := do
  let chunkHash ← requireHash64 "chunk_hash" chunk.chunkHash
  let offset ← requireNonNegativeInt "chunk_offset" chunk.offset
  let length ← requirePositiveInt "chunk_length" chunk.length
  let ordinal ← requireNonNegativeInt "chunk_ordinal" chunk.ordinal
  return { chunkHash, offset, length, ordinal }

/-- The loop over the sorted rows; it returns the end of the last one. -/
def checkErasureChunkRows (expectedOrdinal previousEnd : Nat) : List ErasureChunkEntry →
    Except StopanError Nat
  | [] => .ok previousEnd
  | row :: rest => do
      ensure (decide (row.ordinal = expectedOrdinal))
        (.metadataDatabase "los chunks EC deben tener ordinales consecutivos desde 0")
      ensure (decide (row.offset = previousEnd))
        (.metadataDatabase "los chunks EC deben cubrir el payload de forma contigua")
      checkErasureChunkRows (expectedOrdinal + 1) (row.offset + row.length) rest

def normalizeErasureChunkRows (chunks : List ErasureChunkArg) (payloadSize : Nat) :
    Except StopanError (List ErasureChunkEntry) := do
  let rows ← chunks.mapM requireErasureChunk
  ensure (!rows.isEmpty) (.metadataDatabase "un data pack EC debe contener al menos un chunk")
  let sorted := readInOrder ErasureChunkEntry.ordinal rows
  let previousEnd ← checkErasureChunkRows 0 0 sorted
  ensure (decide (previousEnd = payloadSize))
    (.metadataDatabase "los chunks EC no cubren exactamente payload_size")
  return sorted

def requireErasureShard (shard : ErasureShardArg) : Except StopanError ErasureShardEntry := do
  let shardIndex ← requireNonNegativeInt "shard_index" shard.shardIndex
  let shardHash ← requireHash64 "shard_hash" shard.shardHash
  let nodeId ← requireNonEmptyText "node_id" shard.nodeId
  let size ← requirePositiveInt "shard_size" shard.size
  return { shardIndex, shardHash, nodeId, size }

def normalizeErasureShardRows (shards : List ErasureShardArg) (totalShards : Nat) :
    Except StopanError (List ErasureShardEntry) := do
  let rows ← shards.mapM requireErasureShard
  let sorted := readInOrder ErasureShardEntry.shardIndex rows
  ensure (decide (sorted.map ErasureShardEntry.shardIndex = List.range totalShards))
    (.metadataDatabase "los shards EC deben cubrir todos los índices esperados")
  ensure (decide (sorted.map ErasureShardEntry.nodeId).Nodup)
    (.metadataDatabase "los shards EC de un pack deben ir a nodos distintos")
  return sorted

/-- The scalar checks, in the order of the source. -/
def requireErasureDefinition (args : ErasurePackArgs) :
    Except StopanError (Text × ErasureDefinition) := do
  let packHash ← requireHash64 "pack_hash" args.packHash
  let codec ← requireNonEmptyText "codec" args.codec
  let dataShards ← requirePositiveInt "data_shards" args.dataShards
  let parityShards ← requireNonNegativeInt "parity_shards" args.parityShards
  let payloadSize ← requireNonNegativeInt "payload_size" args.payloadSize
  let paddedSize ← requireNonNegativeInt "padded_size" args.paddedSize
  let shardSize ← requirePositiveInt "shard_size" args.shardSize
  return (packHash, { codec, dataShards, parityShards, payloadSize, paddedSize, shardSize })

/-- The checks on the sizes and rows of a pack. -/
def requireErasureRows (args : ErasurePackArgs) (definition : ErasureDefinition) :
    Except StopanError (List ErasureChunkEntry × List ErasureShardEntry) := do
  ensure (decide (definition.paddedSize = definition.shardSize * definition.dataShards))
    (.metadataDatabase "padded_size debe coincidir con shard_size * data_shards")
  ensure (decide (definition.payloadSize ≤ definition.paddedSize))
    (.metadataDatabase "payload_size no puede ser mayor que padded_size")
  let chunkRows ← normalizeErasureChunkRows args.chunks definition.payloadSize
  let shardRows ← normalizeErasureShardRows args.shards definition.totalShards
  return (chunkRows, shardRows)

/-- `sqlite3` stores a float that is not a number as NULL. -/
def bindReal (value : PyFloat) : Option PyFloat :=
  if 2047 * 2 ^ 52 < value.bits.toNat % 2 ^ 63 then none else some value

/-- A NOT NULL column refuses NULL. -/
def requireNotNull (column : String) (value : Option PyFloat) : Except StopanError PyFloat :=
  match value with
  | some bound => .ok bound
  | none => .error (.integrity s!"NOT NULL constraint failed: {column}")

def bindNat (value : Nat) : Except StopanError Unit := do
  let _ ← bindInteger value

def foreignKeyFailed : StopanError := .integrity "FOREIGN KEY constraint failed"

namespace MetadataDB

def getErasureDataPack (db : MetadataDB) (packHash : Text) : Option ErasureDataPackRow :=
  db.erasureDataPacks.get? packHash

/-- The chunk rows of a pack, `ORDER BY chunk_ordinal`. -/
def getErasurePackChunks (db : MetadataDB) (packHash : Text) : List ErasureChunkEntry :=
  readInOrder ErasureChunkEntry.ordinal
    ((db.erasurePackChunks.entries.filter fun entry => decide (entry.2.packHash = packHash)).map
      fun entry =>
      entry.2.entry entry.1)

/-- The shard rows of a pack, `ORDER BY shard_index`. -/
def getErasurePackShards (db : MetadataDB) (packHash : Text) : List ErasureShardEntry :=
  readInOrder ErasureShardEntry.shardIndex
    ((db.erasurePackShards.entries.filter fun entry => decide (entry.1.1 = packHash)).map
      fun entry =>
      entry.2.entry entry.1.2)

/-- `INSERT INTO erasure_data_packs`. -/
def insertErasureDataPack (db : MetadataDB) (packHash : Text) (row : ErasureDataPackRow) :
    Except StopanError MetadataDB := do
  bindNat row.dataShards
  bindNat row.parityShards
  bindNat row.payloadSize
  bindNat row.paddedSize
  bindNat row.shardSize
  ensure (!db.erasureDataPacks.contains packHash)
    (.integrity "UNIQUE constraint failed: erasure_data_packs.pack_hash")
  return { db with erasureDataPacks := db.erasureDataPacks.set packHash row }

/-- `INSERT INTO erasure_data_pack_chunks`. -/
def insertErasurePackChunk (db : MetadataDB) (packHash : Text) (entry : ErasureChunkEntry) :
    Except StopanError MetadataDB := do
  bindNat entry.offset
  bindNat entry.length
  bindNat entry.ordinal
  ensure (!db.erasurePackChunks.contains entry.chunkHash)
    (.integrity "UNIQUE constraint failed: erasure_data_pack_chunks.chunk_hash")
  ensure (db.erasurePackChunks.entries.all fun stored =>
      !(decide (stored.2.packHash = packHash) && decide (stored.2.chunkOrdinal = entry.ordinal)))
    (.integrity
      "UNIQUE constraint failed: erasure_data_pack_chunks.pack_hash, erasure_data_pack_chunks.chunk_ordinal")
  ensure (db.chunks.contains entry.chunkHash &&
    db.erasureDataPacks.contains packHash) foreignKeyFailed
  return { db with erasurePackChunks := db.erasurePackChunks.set entry.chunkHash
                     (entry.row packHash) }

/-- `INSERT INTO erasure_data_pack_shards`. -/
def insertErasurePackShard (db : MetadataDB) (packHash : Text) (shardIndex : Nat)
    (row : ErasurePackShardRow) :
    Except StopanError MetadataDB := do
  bindNat shardIndex
  bindNat row.size
  ensure (!db.erasurePackShards.contains (packHash, shardIndex))
    (.integrity
      "UNIQUE constraint failed: erasure_data_pack_shards.pack_hash, erasure_data_pack_shards.shard_index")
  ensure (db.erasureDataPacks.contains packHash) foreignKeyFailed
  return { db with erasurePackShards := db.erasurePackShards.set (packHash, shardIndex) row }

def insertErasureDataPackOnce (db : MetadataDB) (packHash : Text) (definition : ErasureDefinition)
    (protectionState : ProtectionState) (placementEpoch : Option Text) (createdAt : PyFloat)
    (lastPushAt : Option PyFloat) : Except StopanError MetadataDB :=
  match db.getErasureDataPack packHash with
  | some existing =>
      if existing.definition ≠ definition then
        .error (.metadataDatabase s!"erasure data pack inconsistente: {String.ofList packHash}")
      else .ok db
  | none => do
      let createdAt ← requireNotNull "erasure_data_packs.created_at" (bindReal createdAt)
      db.insertErasureDataPack packHash {
        codec := definition.codec
        dataShards := definition.dataShards
        parityShards := definition.parityShards
        payloadSize := definition.payloadSize
        paddedSize := definition.paddedSize
        shardSize := definition.shardSize
        protectionState
        placementEpoch
        createdAt
        lastPushAt := lastPushAt.bind bindReal
        lastVerifyAt := none
        lastError := none }

def insertErasurePackChunkOnce (packHash : Text) (db : MetadataDB) (entry : ErasureChunkEntry) :
    Except StopanError MetadataDB :=
  match db.erasurePackChunks.get? entry.chunkHash with
  | some existing =>
      if existing ≠ entry.row packHash then
        .error (.metadataDatabase
          s!"chunk EC ya asignado a otro pack: {String.ofList entry.chunkHash}")
      else .ok db
  | none => db.insertErasurePackChunk packHash entry

def insertErasurePackChunksOnce (db : MetadataDB) (packHash : Text)
    (rows : List ErasureChunkEntry) :
    Except StopanError MetadataDB :=
  rows.foldlM (insertErasurePackChunkOnce packHash) db

def insertErasurePackShardOnce (packHash : Text) (protectionState : ProtectionState)
    (lastPushAt : Option PyFloat)
    (db : MetadataDB) (entry : ErasureShardEntry) : Except StopanError MetadataDB := do
  bindNat entry.shardIndex
  match db.erasurePackShards.get? (packHash, entry.shardIndex) with
  | some existing =>
      if existing.entry entry.shardIndex ≠ entry then
        .error (.metadataDatabase
          s!"shard EC inconsistente: pack={String.ofList packHash} index={entry.shardIndex}")
      else .ok db
  | none => db.insertErasurePackShard packHash entry.shardIndex (entry.row protectionState
    (lastPushAt.bind bindReal))

def insertErasurePackShardsOnce (db : MetadataDB) (packHash : Text) (rows : List ErasureShardEntry)
    (protectionState : ProtectionState) (lastPushAt : Option PyFloat) :
    Except StopanError MetadataDB :=
  rows.foldlM (insertErasurePackShardOnce packHash protectionState lastPushAt) db

def registerErasureDataPack (db : MetadataDB) (args : ErasurePackArgs)
    (protectionState : ProtectionState)
    (placementEpoch : Option Text) (now : PyFloat) : Except StopanError MetadataDB := do
  let (packHash, definition) ← requireErasureDefinition args
  let (chunkRows, shardRows) ← requireErasureRows args definition
  let lastPushAt := if protectionState ≠ .pending then some now else none
  let db ← db.insertErasureDataPackOnce packHash definition protectionState
    placementEpoch now lastPushAt
  let db ← db.insertErasurePackChunksOnce packHash chunkRows
  db.insertErasurePackShardsOnce packHash shardRows protectionState lastPushAt

/-- One row of `_upsert_erasure_pack_shards_for_push`. -/
def upsertErasurePackShard (packHash : Text) (protectionState : ProtectionState)
    (lastPushAt : PyFloat)
    (db : MetadataDB) (entry : ErasureShardEntry) : Except StopanError MetadataDB := do
  bindNat entry.shardIndex
  if db.erasurePackShards.contains (packHash, entry.shardIndex) then do
    bindNat entry.size
    return { db with
      erasurePackShards := db.erasurePackShards.set (packHash, entry.shardIndex)
        (entry.row protectionState (bindReal lastPushAt)) }
  else
    db.insertErasurePackShard packHash entry.shardIndex
      (entry.row protectionState (bindReal lastPushAt))

def upsertErasurePackShardsForPush (db : MetadataDB) (packHash : Text)
    (rows : List ErasureShardEntry)
    (protectionState : ProtectionState) (lastPushAt : PyFloat) : Except StopanError MetadataDB := do
  let seenIndexes := rows.map ErasureShardEntry.shardIndex
  let db ← rows.foldlM (upsertErasurePackShard packHash protectionState lastPushAt) db
  if seenIndexes.isEmpty then return db
  else return { db with erasurePackShards := db.erasurePackShards.filter fun key _ =>
    !(decide (key.1 = packHash) && !seenIndexes.contains key.2) }

/-- The name of a state, as it is stored. -/
def protectionStateName : ProtectionState → String
  | .pending => "PENDING"
  | .placed => "PLACED"
  | .degraded => "DEGRADED"
  | .verified => "VERIFIED"
  | .failed => "FAILED"

/-- What a push result leaves in the row of the pack. -/
def pushedPackRow (update : ErasureDataPackPushUpdate) (row : ErasureDataPackRow) :
    ErasureDataPackRow :=
  { row with
    protectionState := update.protectionState
    placementEpoch := update.placementEpoch
    lastPushAt := bindReal update.pushedAt
    lastVerifyAt := none
    lastError := none }

def applyErasureDataPackPushUpdate (db : MetadataDB) (update : ErasureDataPackPushUpdate) :
    Except StopanError MetadataDB := do
  let (packHash, definition) ← requireErasureDefinition update.toErasurePackArgs
  ensure ([ProtectionState.placed, .degraded, .failed].contains update.protectionState)
    (.metadataDatabaseValue
      s!"estado inválido para push EC: {protectionStateName update.protectionState}")
  let (chunkRows, shardRows) ← requireErasureRows update.toErasurePackArgs definition
  match db.getErasureDataPack packHash with
  | none => .error (.metadataDatabase s!"erasure data pack no registrado: {String.ofList packHash}")
  | some existing => do
      ensure (decide (existing.definition = definition))
        (.metadataDatabase s!"erasure data pack inconsistente: {String.ofList packHash}")
      ensure (decide (db.getErasurePackChunks packHash = chunkRows))
        (.metadataDatabase s!"chunks EC inconsistentes para pack: {String.ofList packHash}")
      ({ db with erasureDataPacks := db.erasureDataPacks.set packHash
                   (pushedPackRow update existing) } :
        MetadataDB).upsertErasurePackShardsForPush packHash shardRows
          update.protectionState update.pushedAt

def applyErasureDataPackPushError (db : MetadataDB) (update : ErasureDataPackPushErrorUpdate) :
    Except StopanError MetadataDB := do
  let packHash ← requireHash64 "pack_hash" update.packHash
  let error ← requireNonEmptyText "error" update.error
  match db.getErasureDataPack packHash with
  | none => .error (.metadataDatabase s!"erasure data pack no registrado: {String.ofList packHash}")
  | some existing =>
      return { db with
        erasureDataPacks :=
          db.erasureDataPacks.set packHash { existing with lastError := some (error.take 1800) } }

/-- `apply_erasure_data_pack_push_result_batch`: every result and then every local failure. -/
def applyErasureDataPackPushResultBatch (db : MetadataDB)
    (pushUpdates : List ErasureDataPackPushUpdate)
    (errorUpdates : List ErasureDataPackPushErrorUpdate) : Except StopanError MetadataDB := do
  let db ← pushUpdates.foldlM applyErasureDataPackPushUpdate db
  errorUpdates.foldlM applyErasureDataPackPushError db

/-- What a verification leaves in a shard row of the pack. -/
def verifiedShardRow (update : ErasureDataPackVerificationUpdate) (verifiedIndexes : List Nat)
    (verifiedAt : PyFloat) (shardIndex : Nat) (row : ErasurePackShardRow) : ErasurePackShardRow :=
  if shardIndex ∈ verifiedIndexes then
    { row with protectionState := .verified, lastVerifyAt := bindReal verifiedAt,
               lastError := none }
  else
    { row with
      protectionState := if update.protectionState = .failed then .failed else .degraded
      lastVerifyAt := bindReal verifiedAt
      lastError := update.error }

def applyErasureDataPackVerificationUpdate (verifiedAt : PyFloat) (db : MetadataDB)
    (update : ErasureDataPackVerificationUpdate) : Except StopanError MetadataDB := do
  let packHash ← requireHash64 "pack_hash" update.packHash
  ensure ([ProtectionState.verified, .degraded, .failed].contains update.protectionState)
    (.metadataDatabaseValue
      s!"estado inválido para verificación EC: {protectionStateName update.protectionState}")
  let verifiedIndexes ← update.verifiedShardIndexes.mapM
    (requireNonNegativeInt "verified_shard_index")
  match db.getErasureDataPack packHash with
  | none => .error (.metadataDatabase s!"erasure data pack no registrado: {String.ofList packHash}")
  | some existing => do
      verifiedIndexes.forM bindNat
      return { db with
        erasureDataPacks := db.erasureDataPacks.set packHash { existing with
          protectionState := update.protectionState
          lastVerifyAt := bindReal verifiedAt
          lastError := update.error }
        erasurePackShards := db.erasurePackShards.mapValues fun key row =>
          if key.1 = packHash then verifiedShardRow update verifiedIndexes verifiedAt key.2 row
            else row }

def applyErasureDataPackVerifications (db : MetadataDB)
    (updates : List ErasureDataPackVerificationUpdate)
    (now : PyFloat) : Except StopanError MetadataDB :=
  updates.foldlM (applyErasureDataPackVerificationUpdate now) db

/-- `mark_erasure_data_pack_state`: an UPDATE of the pack and of all its shards, if there is one. -/
def markErasureDataPackState (db : MetadataDB) (packHash : Text) (protectionState : ProtectionState)
    (placementEpoch error : Option Text) (now : PyFloat) : Except StopanError MetadataDB := do
  let packHash ← requireHash64 "pack_hash" packHash
  let pushedAt := if [ProtectionState.placed, .degraded, .failed].contains protectionState then
    bindReal now else none
  let verifiedAt := if protectionState = .verified then bindReal now else none
  return { db with
    erasureDataPacks := db.erasureDataPacks.adjust packHash fun row => { row with
      protectionState
      placementEpoch := placementEpoch.or row.placementEpoch
      lastPushAt := pushedAt.or row.lastPushAt
      lastVerifyAt := verifiedAt.or row.lastVerifyAt
      lastError := error }
    erasurePackShards := db.erasurePackShards.mapValues fun key row =>
      if key.1 = packHash then
        { row with
          protectionState
          lastPushAt := pushedAt.or row.lastPushAt
          lastVerifyAt := verifiedAt.or row.lastVerifyAt
          lastError := error }
      else row }

end MetadataDB

/-- The rows of a pack, as an object graph describes them. -/
structure ErasureDataPackImportRows where
  packHash : Text
  pack : ErasureDataPackRow
  chunks : List ErasureChunkEntry
  shards : List (Nat × ErasurePackShardRow)
  deriving DecidableEq, Repr

namespace MetadataDB

def objectImportInsertErasureDataPackRecord (db : MetadataDB) (record : ErasureDataPackImportRows) :
    Except StopanError MetadataDB := do
  let db ← db.insertErasureDataPack record.packHash record.pack
  let db ← record.chunks.foldlM (fun db entry => db.insertErasurePackChunk record.packHash entry) db
  record.shards.foldlM
    (fun db shard => db.insertErasurePackShard record.packHash shard.1 shard.2) db

def objectImportInsertErasureDataPackRecords (db : MetadataDB)
    (records : List ErasureDataPackImportRows) :
    Except StopanError MetadataDB :=
  records.foldlM objectImportInsertErasureDataPackRecord db

/-- `require_empty_operational_db`. -/
def requireEmptyOperationalDb (db : MetadataDB) : Except StopanError Unit :=
  let counts := [("snapshots", db.snapshots.length), ("snapshot_items", db.snapshotItems.length),
    ("recipes", db.recipes.length), ("recipe_chunks", db.recipeChunks.length),
    ("chunks", db.chunks.length),
    ("chunk_protection", db.chunkProtection.length),
    ("erasure_data_packs", db.erasureDataPacks.length),
    ("erasure_data_pack_chunks", db.erasurePackChunks.length),
    ("erasure_data_pack_shards", db.erasurePackShards.length)]
  let nonEmpty :=
    ", ".intercalate ((counts.filter fun entry => decide (0 < entry.2)).map fun entry =>
    s!"{entry.1}={entry.2}")
  ensure (counts.all fun entry => decide (entry.2 = 0)) (.metadataObjectImport
    s!"import-object-graph requiere una DB nueva o vacía; se encontró metadata existente: {nonEmpty}")

end MetadataDB

end Stopan.Metadata
