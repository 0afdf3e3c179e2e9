import Stopan.Objects.Models

/-!
Canonical encoding of metadata objects (`stopan/metadata/objects/codec.py`): the payload of every
object type, its decoder, and the round trip between them.
-/

namespace Stopan.Objects

open Stopan.Lib Stopan.Common Stopan.Metadata Stopan.Protection

abbrev Fields := List (Text × PyJson)

def joinText (separator : String) (texts : List Text) : String :=
  separator.intercalate (texts.map String.ofList)

/-- The fields of the payload of a class, once it is known to have no others. -/
def dataclassFields (path : String) (allowed : List String) : PyJson → Checked Fields
  | .obj fields => do
      let extras :=
        (fields.map Prod.fst).filter fun key => !(allowed.map String.toList).contains key
      let listed := joinText ", " (extras.insertionSort fun left right => left ≤ right)
      ensure extras.isEmpty (.object s!"{path} contiene campos no soportados: {listed}")
      return fields
  | other => .error (.object s!"{path} debe ser objeto JSON; recibido {typeName other}")

def requiredField (path : String) (fields : Fields) (name : String) : Checked PyJson :=
  match fields.lookup name.toList with
  | some value => .ok value
  | none => .error (.object s!"{path}.{name} es obligatorio")

/-- A field with a default; its decoder runs only when the field is there. -/
def defaultField {α : Type} (fields : Fields) (name : String) (default : α)
    (decode : PyJson → Checked α) : Checked α :=
  match fields.lookup name.toList with
  | some value => decode value
  | none => .ok default

def decodeItems {α : Type} (decode : String → PyJson → Checked α) (path : String) :
    Nat → List PyJson → Checked (List α)
  | _, [] => .ok []
  | index, item :: rest => do
      let first ← decode s!"{path}[{index}]" item
      return first :: (← decodeItems decode path (index + 1) rest)

/-- `tuple[T, ...]`. -/
def decodeTuple {α : Type} (decode : String → PyJson → Checked α) (path : String) :
    PyJson → Checked (List α)
  | .arr items => decodeItems decode path 0 items
  | other => .error (.object s!"{path} debe ser lista JSON; recibido {typeName other}")

/-- `T | None` of a dataclass. -/
def decodeOptional {α : Type} (decode : String → PyJson → Checked α) (path : String) :
    PyJson → Checked (Option α)
  | .null => .ok none
  | value =>
      match decode path value with
      | .ok found => .ok (some found)
      | .error (.object reason) =>
          .error (.object s!"{path} no coincide con ninguno de los tipos permitidos: {reason}")
      | .error other => .error other

def field (name : String) (value : PyJson) : Text × PyJson := (name.toList, value)

def decodeObjectType (path : String) : PyJson → Checked MetadataObjectType
  | .str text =>
      match MetadataObjectType.ofText? text with
      | some type => .ok type
      | none => .error (.object s!"{path} no es un valor válido de MetadataObjectType")
  | _ => .error (.object s!"{path} no es un valor válido de MetadataObjectType")

def ObjectRef.toJson (ref : ObjectRef) : PyJson :=
  .obj [field "object_type" (.str ref.objectType.value), field "object_hash" (.str ref.objectHash)]

def ObjectRef.decode (path : String) (payload : PyJson) : Checked ObjectRef := do
  let fields ← dataclassFields path ["object_type", "object_hash"] payload
  let objectType ← decodeObjectType s!"{path}.object_type"
    (← requiredField path fields "object_type")
  ObjectRef.make objectType (← requiredField path fields "object_hash")

def ChunkRef.toJson (chunk : ChunkRef) : PyJson :=
  .obj [field "order" (natJson chunk.order), field "chunk_hash" (.str chunk.chunkHash),
    field "size" (natJson chunk.size)]

def ChunkRef.decode (path : String) (payload : PyJson) : Checked ChunkRef := do
  let fields ← dataclassFields path ["order", "chunk_hash", "size"] payload
  ChunkRef.make (← requiredField path fields "order") (← requiredField path fields "chunk_hash")
    (← requiredField path fields "size")

def ChunkListObject.toJson (object : ChunkListObject) : PyJson :=
  .obj [field "chunks" (.arr (object.chunks.map ChunkRef.toJson))]

def ChunkListObject.decode (path : String) (payload : PyJson) : Checked ChunkListObject := do
  let fields ← dataclassFields path ["chunks"] payload
  ChunkListObject.make
    (← decodeTuple ChunkRef.decode s!"{path}.chunks" (← requiredField path fields "chunks"))

def RecipeObject.toJson (object : RecipeObject) : PyJson :=
  .obj [field "recipe_hash" (.str object.recipeHash),
    field "chunk_count" (natJson object.chunkCount),
    field "total_size" (natJson object.totalSize), field "chunk_list" object.chunkList.toJson]

def RecipeObject.decode (path : String) (payload : PyJson) : Checked RecipeObject := do
  let fields ← dataclassFields path ["recipe_hash", "chunk_count", "total_size",
    "chunk_list"] payload
  let recipeHash ← requiredField path fields "recipe_hash"
  let chunkCount ← requiredField path fields "chunk_count"
  let totalSize ← requiredField path fields "total_size"
  let chunkList ← ObjectRef.decode s!"{path}.chunk_list" (← requiredField path fields "chunk_list")
  RecipeObject.make recipeHash chunkCount totalSize chunkList

def FileObject.toJson (object : FileObject) : PyJson :=
  .obj [field "size" (natJson object.size), field "recipe_hash" (.str object.recipeHash),
    field "recipe" object.recipe.toJson]

def FileObject.decode (path : String) (payload : PyJson) : Checked FileObject := do
  let fields ← dataclassFields path ["size", "recipe_hash", "recipe"] payload
  let size ← requiredField path fields "size"
  let recipeHash ← requiredField path fields "recipe_hash"
  let recipe ← ObjectRef.decode s!"{path}.recipe" (← requiredField path fields "recipe")
  FileObject.make size recipeHash recipe

def TreeEntry.toJson (entry : TreeEntry) : PyJson :=
  .obj [field "name" (.str entry.name), field "item_type" (.str entry.itemType.text),
    field "size" (natJson entry.size),
    field "mode" (natJson entry.mode), field "mtime" entry.mtime.toJson,
    field "mtime_ns" (natJson entry.mtimeNs),
    field "uid" (natJson entry.uid), field "gid" (natJson entry.gid), field "ref" entry.ref.toJson]

def TreeEntry.decode (path : String) (payload : PyJson) : Checked TreeEntry := do
  let fields ← dataclassFields path ["name", "item_type", "size", "mode", "mtime", "mtime_ns",
    "uid", "gid", "ref"] payload
  let name ← requiredField path fields "name"
  let itemType ← requiredField path fields "item_type"
  let size ← requiredField path fields "size"
  let mode ← requiredField path fields "mode"
  let mtime ← requiredField path fields "mtime"
  let mtimeNs ← requiredField path fields "mtime_ns"
  let uid ← requiredField path fields "uid"
  let gid ← requiredField path fields "gid"
  let ref ← ObjectRef.decode s!"{path}.ref" (← requiredField path fields "ref")
  TreeEntry.make name itemType size mode mtime mtimeNs uid gid ref

def TreeObject.toJson (object : TreeObject) : PyJson :=
  .obj [field "entries" (.arr (object.entries.map TreeEntry.toJson))]

def TreeObject.decode (path : String) (payload : PyJson) : Checked TreeObject := do
  let fields ← dataclassFields path ["entries"] payload
  TreeObject.make
    (← decodeTuple TreeEntry.decode s!"{path}.entries" (← requiredField path fields "entries"))

def SnapshotRootObject.toJson (object : SnapshotRootObject) : PyJson :=
  .obj [field "snapshot_uuid" (.str object.snapshotUuid), field "root_path" (.str object.rootPath),
    field "origin_node_id" (.str object.originNodeId), field "created_at" (.str object.createdAt),
    field "total_size" (natJson object.totalSize), field "total_files" (natJson object.totalFiles),
    field "root_tree" object.rootTree.toJson]

def SnapshotRootObject.decode (path : String) (payload : PyJson) : Checked SnapshotRootObject := do
  let fields ← dataclassFields path
    ["snapshot_uuid", "root_path", "origin_node_id", "created_at", "total_size", "total_files",
      "root_tree"] payload
  let snapshotUuid ← requiredField path fields "snapshot_uuid"
  let rootPath ← requiredField path fields "root_path"
  let originNodeId ← requiredField path fields "origin_node_id"
  let createdAt ← requiredField path fields "created_at"
  let totalSize ← requiredField path fields "total_size"
  let totalFiles ← requiredField path fields "total_files"
  let rootTree ← ObjectRef.decode s!"{path}.root_tree" (← requiredField path fields "root_tree")
  SnapshotRootObject.make snapshotUuid rootPath originNodeId createdAt totalSize totalFiles rootTree

def SnapshotIndexEntry.toJson (entry : SnapshotIndexEntry) : PyJson :=
  .obj [field "snapshot_uuid" (.str entry.snapshotUuid),
    field "status" (.str (snapshotStatusText entry.status)),
    field "root_path" (.str entry.rootPath), field "origin_node_id" (.str entry.originNodeId),
    field "created_at" (.str entry.createdAt), field "total_size" (natJson entry.totalSize),
    field "total_files" (natJson entry.totalFiles),
    field "snapshot_root" (optionalJson ObjectRef.toJson entry.snapshotRoot),
    field "error" (optionalJson .str entry.error)]

def SnapshotIndexEntry.decode (path : String) (payload : PyJson) : Checked SnapshotIndexEntry := do
  let fields ← dataclassFields path ["snapshot_uuid", "status", "root_path", "origin_node_id",
    "created_at", "total_size", "total_files", "snapshot_root", "error"] payload
  let snapshotUuid ← requiredField path fields "snapshot_uuid"
  let status ← requiredField path fields "status"
  let rootPath ← requiredField path fields "root_path"
  let originNodeId ← requiredField path fields "origin_node_id"
  let createdAt ← requiredField path fields "created_at"
  let totalSize ← requiredField path fields "total_size"
  let totalFiles ← requiredField path fields "total_files"
  let snapshotRoot ← defaultField fields "snapshot_root" none
    (decodeOptional ObjectRef.decode s!"{path}.snapshot_root")
  let error ← defaultField fields "error" .null .ok
  SnapshotIndexEntry.make snapshotUuid status rootPath originNodeId createdAt totalSize
    totalFiles snapshotRoot error

def SnapshotIndexObject.toJson (object : SnapshotIndexObject) : PyJson :=
  .obj [field "snapshots" (.arr (object.snapshots.map SnapshotIndexEntry.toJson))]

def SnapshotIndexObject.decode (path : String) (payload : PyJson) :
    Checked SnapshotIndexObject := do
  let fields ← dataclassFields path ["snapshots"] payload
  SnapshotIndexObject.make
    (← decodeTuple SnapshotIndexEntry.decode s!"{path}.snapshots"
      (← requiredField path fields "snapshots"))

def KnownChunkRecord.toJson (record : KnownChunkRecord) : PyJson :=
  .obj [field "chunk_hash" (.str record.chunkHash), field "size" (natJson record.size)]

def KnownChunkRecord.decode (path : String) (payload : PyJson) : Checked KnownChunkRecord := do
  let fields ← dataclassFields path ["chunk_hash", "size"] payload
  KnownChunkRecord.make (← requiredField path fields "chunk_hash")
    (← requiredField path fields "size")

def KnownChunkShardObject.toJson (object : KnownChunkShardObject) : PyJson :=
  .obj [field "prefix" (.str object.hexPrefix),
    field "chunks" (.arr (object.chunks.map KnownChunkRecord.toJson))]

def KnownChunkShardObject.decode (path : String) (payload : PyJson) :
    Checked KnownChunkShardObject := do
  let fields ← dataclassFields path ["prefix", "chunks"] payload
  let hexPrefix ← requiredField path fields "prefix"
  KnownChunkShardObject.make hexPrefix
    (← decodeTuple KnownChunkRecord.decode s!"{path}.chunks" (← requiredField path fields "chunks"))

def IndexShardRef.toJson (shard : IndexShardRef) : PyJson :=
  .obj [field "prefix" (.str shard.hexPrefix), field "count" (natJson shard.count),
    field "ref" shard.ref.toJson]

def IndexShardRef.decode (path : String) (payload : PyJson) : Checked IndexShardRef := do
  let fields ← dataclassFields path ["prefix", "count", "ref"] payload
  let hexPrefix ← requiredField path fields "prefix"
  let count ← requiredField path fields "count"
  IndexShardRef.make hexPrefix count
    (← ObjectRef.decode s!"{path}.ref" (← requiredField path fields "ref"))

def KnownChunkIndexObject.toJson (object : KnownChunkIndexObject) : PyJson :=
  .obj [field "shards" (.arr (object.shards.map IndexShardRef.toJson)),
    field "total_chunks" (natJson object.totalChunks)]

def KnownChunkIndexObject.decode (path : String) (payload : PyJson) :
    Checked KnownChunkIndexObject := do
  let fields ← dataclassFields path ["shards", "total_chunks"] payload
  let shards ← decodeTuple IndexShardRef.decode s!"{path}.shards"
    (← requiredField path fields "shards")
  KnownChunkIndexObject.make shards (← requiredField path fields "total_chunks")

def ProtectionRecordObject.toJson (record : ProtectionRecordObject) : PyJson :=
  .obj [field "chunk_hash" (.str record.chunkHash), field "desired_rf" (natJson record.desiredRf),
    field "protection_state" (.str (protectionStateText record.protectionState)),
    field "protected_remote_copies" (natJson record.protectedRemoteCopies),
    field "placement_epoch" (optionalJson .str record.placementEpoch),
    field "last_push_at" (optionalJson PyNumber.toJson record.lastPushAt),
    field "last_verify_at" (optionalJson PyNumber.toJson record.lastVerifyAt),
    field "last_error" (optionalJson .str record.lastError)]

def ProtectionRecordObject.decode (path : String) (payload : PyJson) :
    Checked ProtectionRecordObject := do
  let fields ← dataclassFields path ["chunk_hash", "desired_rf", "protection_state",
    "protected_remote_copies",
    "placement_epoch", "last_push_at", "last_verify_at", "last_error"] payload
  ProtectionRecordObject.make (← requiredField path fields "chunk_hash")
    (← requiredField path fields "desired_rf")
    (← requiredField path fields "protection_state")
      (← requiredField path fields "protected_remote_copies")
    (← requiredField path fields "placement_epoch") (← requiredField path fields "last_push_at")
    (← requiredField path fields "last_verify_at") (← requiredField path fields "last_error")

def ProtectionShardObject.toJson (object : ProtectionShardObject) : PyJson :=
  .obj [field "prefix" (.str object.hexPrefix),
    field "records" (.arr (object.records.map ProtectionRecordObject.toJson))]

def ProtectionShardObject.decode (path : String) (payload : PyJson) :
    Checked ProtectionShardObject := do
  let fields ← dataclassFields path ["prefix", "records"] payload
  let hexPrefix ← requiredField path fields "prefix"
  ProtectionShardObject.make hexPrefix
    (← decodeTuple ProtectionRecordObject.decode s!"{path}.records"
      (← requiredField path fields "records"))

def ProtectionIndexObject.toJson (object : ProtectionIndexObject) : PyJson :=
  .obj [field "shards" (.arr (object.shards.map IndexShardRef.toJson)),
    field "total_records" (natJson object.totalRecords)]

def ProtectionIndexObject.decode (path : String) (payload : PyJson) :
    Checked ProtectionIndexObject := do
  let fields ← dataclassFields path ["shards", "total_records"] payload
  let shards ← decodeTuple IndexShardRef.decode s!"{path}.shards"
    (← requiredField path fields "shards")
  ProtectionIndexObject.make shards (← requiredField path fields "total_records")

def ErasureDataPackChunkObject.toJson (chunk : ErasureDataPackChunkObject) : PyJson :=
  .obj [field "chunk_hash" (.str chunk.chunkHash), field "offset" (natJson chunk.offset),
    field "length" (natJson chunk.length), field "ordinal" (natJson chunk.ordinal)]

def ErasureDataPackChunkObject.decode (path : String) (payload : PyJson) :
    Checked ErasureDataPackChunkObject := do
  let fields ← dataclassFields path ["chunk_hash", "offset", "length", "ordinal"] payload
  ErasureDataPackChunkObject.make (← requiredField path fields "chunk_hash")
    (← requiredField path fields "offset")
    (← requiredField path fields "length") (← requiredField path fields "ordinal")

def ErasureDataPackShardPlacementObject.toJson
    (shard : ErasureDataPackShardPlacementObject) : PyJson :=
  .obj [field "shard_index" (natJson shard.shardIndex), field "shard_hash" (.str shard.shardHash),
    field "node_id" (.str shard.nodeId), field "size" (natJson shard.size),
    field "protection_state" (.str (protectionStateText shard.protectionState)),
    field "last_push_at" (optionalJson PyNumber.toJson shard.lastPushAt),
    field "last_verify_at" (optionalJson PyNumber.toJson shard.lastVerifyAt),
    field "last_error" (optionalJson .str shard.lastError)]

def ErasureDataPackShardPlacementObject.decode (path : String) (payload : PyJson) :
    Checked ErasureDataPackShardPlacementObject := do
  let fields ← dataclassFields path ["shard_index", "shard_hash", "node_id", "size",
    "protection_state", "last_push_at", "last_verify_at", "last_error"] payload
  ErasureDataPackShardPlacementObject.make (← requiredField path fields "shard_index")
    (← requiredField path fields "shard_hash") (← requiredField path fields "node_id")
      (← requiredField path fields "size")
    (← requiredField path fields "protection_state") (← requiredField path fields "last_push_at")
    (← requiredField path fields "last_verify_at") (← requiredField path fields "last_error")

def ErasureDataPackRecordObject.toJson (record : ErasureDataPackRecordObject) : PyJson :=
  .obj [field "pack_hash" (.str record.packHash), field "codec" (.str record.codec),
    field "data_shards" (natJson record.dataShards),
    field "parity_shards" (natJson record.parityShards),
    field "payload_size" (natJson record.payloadSize),
    field "padded_size" (natJson record.paddedSize), field "shard_size" (natJson record.shardSize),
    field "protection_state" (.str (protectionStateText record.protectionState)),
    field "placement_epoch" (optionalJson .str record.placementEpoch),
    field "created_at" record.createdAt.toJson,
    field "last_push_at" (optionalJson PyNumber.toJson record.lastPushAt),
    field "last_verify_at" (optionalJson PyNumber.toJson record.lastVerifyAt),
    field "last_error" (optionalJson .str record.lastError),
    field "chunks" (.arr (record.chunks.map ErasureDataPackChunkObject.toJson)),
    field "shards" (.arr (record.shards.map ErasureDataPackShardPlacementObject.toJson))]

def ErasureDataPackRecordObject.decode (path : String) (payload : PyJson) :
    Checked ErasureDataPackRecordObject := do
  let fields ← dataclassFields path ["pack_hash", "codec", "data_shards", "parity_shards",
    "payload_size", "padded_size",
    "shard_size", "protection_state", "placement_epoch", "created_at", "last_push_at",
    "last_verify_at", "last_error", "chunks", "shards"] payload
  let packHash ← requiredField path fields "pack_hash"
  let codec ← requiredField path fields "codec"
  let dataShards ← requiredField path fields "data_shards"
  let parityShards ← requiredField path fields "parity_shards"
  let payloadSize ← requiredField path fields "payload_size"
  let paddedSize ← requiredField path fields "padded_size"
  let shardSize ← requiredField path fields "shard_size"
  let protectionState ← requiredField path fields "protection_state"
  let placementEpoch ← requiredField path fields "placement_epoch"
  let createdAt ← requiredField path fields "created_at"
  let lastPushAt ← requiredField path fields "last_push_at"
  let lastVerifyAt ← requiredField path fields "last_verify_at"
  let lastError ← requiredField path fields "last_error"
  let chunks ← decodeTuple ErasureDataPackChunkObject.decode s!"{path}.chunks"
    (← requiredField path fields "chunks")
  let shards ← decodeTuple ErasureDataPackShardPlacementObject.decode s!"{path}.shards"
    (← requiredField path fields "shards")
  ErasureDataPackRecordObject.make packHash codec dataShards parityShards payloadSize paddedSize
    shardSize protectionState
    placementEpoch createdAt lastPushAt lastVerifyAt lastError chunks shards

def ErasureDataPackShardObject.toJson (object : ErasureDataPackShardObject) : PyJson :=
  .obj [field "prefix" (.str object.hexPrefix),
    field "records" (.arr (object.records.map ErasureDataPackRecordObject.toJson))]

def ErasureDataPackShardObject.decode (path : String) (payload : PyJson) :
    Checked ErasureDataPackShardObject := do
  let fields ← dataclassFields path ["prefix", "records"] payload
  let hexPrefix ← requiredField path fields "prefix"
  ErasureDataPackShardObject.make hexPrefix
    (← decodeTuple ErasureDataPackRecordObject.decode s!"{path}.records"
      (← requiredField path fields "records"))

def ErasureDataPackIndexObject.toJson (object : ErasureDataPackIndexObject) : PyJson :=
  .obj [field "shards" (.arr (object.shards.map IndexShardRef.toJson)),
    field "total_packs" (natJson object.totalPacks),
    field "total_chunks" (natJson object.totalChunks),
      field "total_shards" (natJson object.totalShards)]

def ErasureDataPackIndexObject.decode (path : String) (payload : PyJson) :
    Checked ErasureDataPackIndexObject := do
  let fields ← dataclassFields path ["shards", "total_packs", "total_chunks",
    "total_shards"] payload
  let shards ← decodeTuple IndexShardRef.decode s!"{path}.shards"
    (← requiredField path fields "shards")
  ErasureDataPackIndexObject.make shards (← requiredField path fields "total_packs")
    (← requiredField path fields "total_chunks") (← requiredField path fields "total_shards")

def CatalogObject.toJson (object : CatalogObject) : PyJson :=
  .obj [field "vault_id" (.str object.vaultId), field "snapshot_index" object.snapshotIndex.toJson,
    field "known_chunk_index" object.knownChunkIndex.toJson,
    field "protection_index" (optionalJson ObjectRef.toJson object.protectionIndex),
    field "snapshot_count" (natJson object.snapshotCount),
    field "known_chunk_count" (natJson object.knownChunkCount),
    field "protection_record_count" (natJson object.protectionRecordCount),
    field "erasure_data_pack_index" (optionalJson ObjectRef.toJson object.erasureDataPackIndex),
    field "erasure_data_pack_count" (natJson object.erasureDataPackCount),
    field "erasure_data_pack_chunk_count" (natJson object.erasureDataPackChunkCount),
    field "erasure_data_pack_shard_count" (natJson object.erasureDataPackShardCount)]

def CatalogObject.decode (path : String) (payload : PyJson) : Checked CatalogObject := do
  let fields ← dataclassFields path ["vault_id", "snapshot_index", "known_chunk_index",
    "protection_index", "snapshot_count",
    "known_chunk_count", "protection_record_count", "erasure_data_pack_index",
    "erasure_data_pack_count",
    "erasure_data_pack_chunk_count", "erasure_data_pack_shard_count"] payload
  let vaultId ← requiredField path fields "vault_id"
  let snapshotIndex ← ObjectRef.decode s!"{path}.snapshot_index"
    (← requiredField path fields "snapshot_index")
  let knownChunkIndex ← ObjectRef.decode s!"{path}.known_chunk_index"
    (← requiredField path fields "known_chunk_index")
  let protectionIndex ← decodeOptional ObjectRef.decode s!"{path}.protection_index"
    (← requiredField path fields "protection_index")
  let snapshotCount ← requiredField path fields "snapshot_count"
  let knownChunkCount ← requiredField path fields "known_chunk_count"
  let protectionRecordCount ← requiredField path fields "protection_record_count"
  let erasureDataPackIndex ← defaultField fields "erasure_data_pack_index" none
    (decodeOptional ObjectRef.decode s!"{path}.erasure_data_pack_index")
  let erasureDataPackCount ← defaultField fields "erasure_data_pack_count" (natJson 0) .ok
  let erasureDataPackChunkCount ← defaultField fields "erasure_data_pack_chunk_count"
    (natJson 0) .ok
  let erasureDataPackShardCount ← defaultField fields "erasure_data_pack_shard_count"
    (natJson 0) .ok
  CatalogObject.make vaultId snapshotIndex knownChunkIndex protectionIndex
    snapshotCount knownChunkCount
    protectionRecordCount erasureDataPackIndex erasureDataPackCount erasureDataPackChunkCount
      erasureDataPackShardCount

/-- `object_payload`. -/
def objectPayload : MetadataPlainObject → PyJson
  | .catalog object => object.toJson
  | .snapshotIndex object => object.toJson
  | .snapshotRoot object => object.toJson
  | .tree object => object.toJson
  | .file object => object.toJson
  | .recipe object => object.toJson
  | .chunkList object => object.toJson
  | .knownChunkIndex object => object.toJson
  | .knownChunkShard object => object.toJson
  | .protectionIndex object => object.toJson
  | .protectionShard object => object.toJson
  | .erasureDataPackIndex object => object.toJson
  | .erasureDataPackShard object => object.toJson

/-- `_decode_model_dataclass` with the class of the type. -/
def decodeModel (type : MetadataObjectType) (payload : PyJson) : Checked MetadataPlainObject :=
  match type with
  | .catalog => .catalog <$> CatalogObject.decode type.name payload
  | .snapshotIndex => .snapshotIndex <$> SnapshotIndexObject.decode type.name payload
  | .snapshotRoot => .snapshotRoot <$> SnapshotRootObject.decode type.name payload
  | .tree => .tree <$> TreeObject.decode type.name payload
  | .file => .file <$> FileObject.decode type.name payload
  | .recipe => .recipe <$> RecipeObject.decode type.name payload
  | .chunkList => .chunkList <$> ChunkListObject.decode type.name payload
  | .knownChunkIndex => .knownChunkIndex <$> KnownChunkIndexObject.decode type.name payload
  | .knownChunkShard => .knownChunkShard <$> KnownChunkShardObject.decode type.name payload
  | .protectionIndex => .protectionIndex <$> ProtectionIndexObject.decode type.name payload
  | .protectionShard => .protectionShard <$> ProtectionShardObject.decode type.name payload
  | .erasureDataPackIndex =>
      .erasureDataPackIndex <$> ErasureDataPackIndexObject.decode type.name payload
  | .erasureDataPackShard =>
      .erasureDataPackShard <$> ErasureDataPackShardObject.decode type.name payload

/-- Rebuild the object and require that its own payload is the one given, as dictionaries
compare. -/
def decodeMetadataObjectPayload (type : MetadataObjectType) (payload : PyJson) :
    Checked MetadataPlainObject := do
  let object ← decodeModel type payload
  ensure (decide ((objectPayload object).sorted = payload.sorted))
    (.object s!"payload de {type.name} no coincide con su representación canónica de modelo")
  return object

def metadataObjectFormat : Text := "stopan.metadata_object".toList

def metadataObjectVersion : Nat := 1

def objectEnvelope (object : MetadataPlainObject) : PyJson :=
  .obj [field "format" (.str metadataObjectFormat), field "version" (natJson metadataObjectVersion),
    field "object_type" (.str object.objectType.value), field "payload" (objectPayload object)]

def canonicalObjectBytes (object : MetadataPlainObject) : Bytes :=
  canonicalJsonBytes (objectEnvelope object)

structure EncodedMetadataObject where
  objectType : MetadataObjectType
  objectHash : Text
  canonicalBytes : Bytes
  deriving DecidableEq, Repr

def encodeMetadataObject (blake3 : Blake3) (object : MetadataPlainObject) :
    EncodedMetadataObject where
  objectType := object.objectType
  objectHash := blake3HexDigest blake3 (canonicalObjectBytes object)
  canonicalBytes := canonicalObjectBytes object

end Stopan.Objects
