import Stopan.Lib.Result
import Stopan.Common.Json
import Stopan.Metadata.Schema

/-!
The canonical model of metadata objects (`stopan/metadata/objects/models.py`). A constructor takes
scalars as they come, checks them in the order of the source and returns the typed object.
-/

namespace Stopan.Objects

open Stopan.Lib Stopan.Common Stopan.Metadata Stopan.Protection

/-- The exceptions of the metadata object layer. -/
inductive ObjectsError where
  | object (message : String)
  | walk (message : String)
  | store (message : String)
  | missing (message : String)
  | authentication (message : String)
  | pack (message : String)
  | importing (message : String)
  | overflow (message : String)
  | jsonFile (message : String)
  | encoding (message : String)
  | storageOS (message : String)
  | value (message : String)
  deriving DecidableEq, Repr

def ObjectsError.message : ObjectsError → String
  | .object text | .walk text | .store text | .missing text | .authentication text
  | .pack text | .importing text
  | .overflow text | .jsonFile text | .encoding text | .storageOS text | .value text => text

abbrev Checked (α : Type) := Except ObjectsError α

inductive MetadataObjectType where
  | catalog
  | snapshotIndex
  | snapshotRoot
  | tree
  | file
  | recipe
  | chunkList
  | knownChunkIndex
  | knownChunkShard
  | protectionIndex
  | protectionShard
  | erasureDataPackIndex
  | erasureDataPackShard
  deriving DecidableEq, Repr

namespace MetadataObjectType

def all : List MetadataObjectType :=
  [.catalog, .snapshotIndex, .snapshotRoot, .tree, .file, .recipe, .chunkList,
    .knownChunkIndex, .knownChunkShard,
    .protectionIndex, .protectionShard, .erasureDataPackIndex, .erasureDataPackShard]

def name : MetadataObjectType → String
  | .catalog => "catalog"
  | .snapshotIndex => "snapshot_index"
  | .snapshotRoot => "snapshot_root"
  | .tree => "tree"
  | .file => "file"
  | .recipe => "recipe"
  | .chunkList => "chunk_list"
  | .knownChunkIndex => "known_chunk_index"
  | .knownChunkShard => "known_chunk_shard"
  | .protectionIndex => "protection_index"
  | .protectionShard => "protection_shard"
  | .erasureDataPackIndex => "erasure_data_pack_index"
  | .erasureDataPackShard => "erasure_data_pack_shard"

def value (type : MetadataObjectType) : Text := type.name.toList

def ofText? (text : Text) : Option MetadataObjectType :=
  all.find? fun type => decide (type.value = text)

theorem ofText?_value (type : MetadataObjectType) : ofText? type.value = some type := by
  cases type <;> decide

end MetadataObjectType

/-- `type(value).__name__`. -/
def typeName : PyJson → String
  | .null => "NoneType"
  | .bool _ => "bool"
  | .int _ => "int"
  | .float _ => "float"
  | .str _ => "str"
  | .arr _ => "list"
  | .obj _ => "dict"

def requireStr (name : String) (allowEmpty : Bool) : PyJson → Checked Text
  | .str text => do
      ensure (allowEmpty || !text.isEmpty) (.object s!"{name} no puede estar vacío")
      return text
  | other => .error (.object s!"{name} debe ser str. Recibido {typeName other}")

def requireInt (name : String) (minValue : Nat) : PyJson → Checked Nat
  | .int value => do
      ensure (decide ((minValue : Int) ≤ value))
        (.object s!"{name} debe ser >= {minValue}. Recibido {value}")
      return value.toNat
  | other => .error (.object s!"{name} debe ser int. Recibido {typeName other}")

/-- A value that the code accepts as a number: an integer, or a float that is finite. It is kept as
it comes. -/
inductive PyNumber where
  | int (value : Int)
  | float (value : PyFloat) (finite : value.isFinite = true)
  deriving DecidableEq, Repr

def PyNumber.toJson : PyNumber → PyJson
  | .int value => .int value
  | .float value _ => .float value

/-- `str` of a float. -/
def floatStr (value : PyFloat) : Text :=
  if value.isFinite then floatText value
  else if value.pattern = Binary64.infinity then
    (if value.negative then "-inf".toList else "inf".toList)
  else "nan".toList

/-- The least magnitude of an integer that `float` refuses. -/
def floatLimit : Nat := 2 ^ 1024 - 2 ^ 970

def requireNumber (name : String) (nonNegative : Bool) : PyJson → Checked PyNumber
  | .int value => do
      ensure (decide (value.natAbs < floatLimit)) (.overflow "int too large to convert to float")
      ensure (!nonNegative || decide (0 ≤ value))
        (.object s!"{name} debe ser >= 0.0. Recibido {value}")
      return .int value
  | .float value =>
      if finite : value.isFinite = true then do
        ensure (!nonNegative || !value.negative || decide (value.pattern = 0))
          (.object s!"{name} debe ser >= 0.0. Recibido {String.ofList (floatStr value)}")
        return .float value finite
      else .error (.object s!"{name} debe ser finito. Recibido {String.ofList (floatStr value)}")
  | other => .error (.object s!"{name} debe ser numérico. Recibido {typeName other}")

def isLowerHex (length : Nat) (text : Text) : Bool :=
  decide (text.length = length) && text.all fun char => hexLower.contains char

/-- `_UUID_RE`. -/
def isCanonicalUuid (text : Text) : Bool :=
  decide (text.length = 36) && text.zipIdx.all fun entry =>
    if [8, 13, 18, 23].contains entry.2 then entry.1 == '-' else hexLower.contains entry.1

def requireHash64 (name : String) (value : PyJson) : Checked Text := do
  let text ← requireStr name false value
  ensure (isLowerHex 64 text) (.object s!"{name} debe tener 64 caracteres hexadecimales lowercase")
  return text

def requireNodeId (name : String) (value : PyJson) : Checked Text := do
  let text ← requireStr name false value
  ensure (isLowerHex 32 text) (.object s!"{name} debe tener 32 caracteres hexadecimales lowercase")
  return text

def requireVaultId (name : String) (value : PyJson) : Checked Text := requireNodeId name value

def requireUuid (name : String) (value : PyJson) : Checked Text := do
  let text ← requireStr name false value
  ensure (isCanonicalUuid text) (.object s!"{name} debe ser UUID canónico lowercase")
  return text

/-- A field that may be `None`. -/
def optional {α : Type} (check : PyJson → Checked α) : PyJson → Checked (Option α)
  | .null => .ok none
  | value => do return some (← check value)

def optionalJson {α : Type} (toJson : α → PyJson) : Option α → PyJson
  | none => .null
  | some value => toJson value

def natJson (value : Nat) : PyJson := .int value

/-- A text that must be one of the names of an enumeration. -/
def requireName {α : Type} (name : String) (reason : String) (named : Text → Option α)
    (value : PyJson) : Checked α := do
  let text ← requireStr name false value
  match named text with
  | some found => .ok found
  | none => .error (.object reason)

inductive EntryType where
  | file
  | dir
  deriving DecidableEq, Repr

def EntryType.text : EntryType → Text
  | .file => "file".toList
  | .dir => "dir".toList

def EntryType.ofText? (text : Text) : Option EntryType :=
  [EntryType.file, .dir].find? fun type => decide (type.text = text)

def EntryType.objectType : EntryType → MetadataObjectType
  | .file => .file
  | .dir => .tree

def snapshotStatusText : SnapshotStatus → Text
  | .creating => "CREATING".toList
  | .complete => "COMPLETE".toList
  | .failed => "FAILED".toList

def snapshotStatusOf? (text : Text) : Option SnapshotStatus :=
  [SnapshotStatus.creating, .complete, .failed].find? fun status => decide
    (snapshotStatusText status = text)

def protectionStateText : ProtectionState → Text
  | .pending => "PENDING".toList
  | .placed => "PLACED".toList
  | .degraded => "DEGRADED".toList
  | .verified => "VERIFIED".toList
  | .failed => "FAILED".toList

def protectionStateOf? (text : Text) : Option ProtectionState :=
  [ProtectionState.pending, .placed, .degraded, .verified, .failed].find? fun state =>
    decide (protectionStateText state = text)

/-- The loop over entries that must have distinct keys and be in order. The own check of an entry
comes first. -/
def checkEntries {α : Type} (check : α → Checked Unit) (key : α → Text) (before : α → α → Bool)
    (duplicate : α → String) (unordered : String) : List Text → Option α → List α → Checked Unit
  | _, _, [] => .ok ()
  | seen, previous, entry :: rest => do
      check entry
      ensure (!seen.contains (key entry)) (.object (duplicate entry))
      ensure (previous.all fun other => !before entry other) (.object unordered)
      checkEntries check key before duplicate unordered (key entry :: seen) (some entry) rest

def textBefore {α : Type} (key : α → Text) (left right : α) : Bool := decide (key left < key right)

structure ObjectRef where
  objectType : MetadataObjectType
  objectHash : Text
  deriving DecidableEq, Repr

def ObjectRef.make (objectType : MetadataObjectType) (objectHash : PyJson) : Checked ObjectRef := do
  return { objectType, objectHash := ← requireHash64 "object_ref.object_hash" objectHash }

/-- A field that must refer to an object of the given type. -/
def requireRef (ref : ObjectRef) (expected : MetadataObjectType) (reason : String) : Checked Unit :=
  ensure (decide (ref.objectType = expected)) (.object reason)

structure ChunkRef where
  order : Nat
  chunkHash : Text
  size : Nat
  deriving DecidableEq, Repr

def ChunkRef.make (order chunkHash size : PyJson) : Checked ChunkRef := do
  let order ← requireInt "chunk.order" 0 order
  let chunkHash ← requireHash64 "chunk.chunk_hash" chunkHash
  let size ← requireInt "chunk.size" 1 size
  return { order, chunkHash, size }

structure ChunkListObject where
  chunks : List ChunkRef
  deriving DecidableEq, Repr

def checkChunkOrders : Nat → List ChunkRef → Checked Unit
  | _, [] => .ok ()
  | expectedOrder, chunk :: rest => do
      ensure (decide (chunk.order = expectedOrder)) (.object
        ("órdenes de chunk_list deben ser contiguos desde 0. " ++
          s!"Esperado {expectedOrder}, recibido {chunk.order}"))
      checkChunkOrders (expectedOrder + 1) rest

def ChunkListObject.make (chunks : List ChunkRef) : Checked ChunkListObject := do
  checkChunkOrders 0 chunks
  return { chunks }

structure RecipeObject where
  recipeHash : Text
  chunkCount : Nat
  totalSize : Nat
  chunkList : ObjectRef
  deriving DecidableEq, Repr

def RecipeObject.make (recipeHash chunkCount totalSize : PyJson) (chunkList : ObjectRef) :
    Checked RecipeObject := do
  let recipeHash ← requireHash64 "recipe.recipe_hash" recipeHash
  let chunkCount ← requireInt "recipe.chunk_count" 0 chunkCount
  let totalSize ← requireInt "recipe.total_size" 0 totalSize
  requireRef chunkList .chunkList "recipe.chunk_list debe referenciar un objeto chunk_list"
  return { recipeHash, chunkCount, totalSize, chunkList }

structure FileObject where
  size : Nat
  recipeHash : Text
  recipe : ObjectRef
  deriving DecidableEq, Repr

def FileObject.make (size recipeHash : PyJson) (recipe : ObjectRef) : Checked FileObject := do
  let size ← requireInt "file.size" 0 size
  let recipeHash ← requireHash64 "file.recipe_hash" recipeHash
  requireRef recipe .recipe "file.recipe debe referenciar un objeto recipe"
  return { size, recipeHash, recipe }

structure TreeEntry where
  name : Text
  itemType : EntryType
  size : Nat
  mode : Nat
  mtime : PyNumber
  mtimeNs : Nat
  uid : Nat
  gid : Nat
  ref : ObjectRef
  deriving DecidableEq, Repr

def TreeEntry.make (name itemType size mode mtime mtimeNs uid gid : PyJson) (ref : ObjectRef) :
    Checked TreeEntry := do
  let name ← requireStr "tree_entry.name" false name
  ensure (!name.contains '/' && !decide (name = ['.']) && !decide (name = ['.', '.']))
    (.object "nombre de tree entry inválido")
  let itemType ← requireName "tree_entry.item_type" "item_type de tree entry inválido"
    EntryType.ofText? itemType
  let size ← requireInt "tree_entry.size" 0 size
  let mode ← requireInt "tree_entry.mode" 0 mode
  let mtime ← requireNumber "tree_entry.mtime" false mtime
  let mtimeNs ← requireInt "tree_entry.mtime_ns" 0 mtimeNs
  let uid ← requireInt "tree_entry.uid" 0 uid
  let gid ← requireInt "tree_entry.gid" 0 gid
  requireRef ref itemType.objectType
    ("tree_entry.ref debe referenciar " ++
      s!"{itemType.objectType.name}. Recibido {ref.objectType.name}")
  return { name, itemType, size, mode, mtime, mtimeNs, uid, gid, ref }

structure TreeObject where
  entries : List TreeEntry
  deriving DecidableEq, Repr

def TreeObject.make (entries : List TreeEntry) : Checked TreeObject := do
  checkEntries (fun _ => .ok ()) TreeEntry.name (textBefore TreeEntry.name)
    (fun _ => "nombre de tree entry duplicado")
    "tree.entries debe estar ordenado por name" [] none entries
  return { entries }

structure SnapshotRootObject where
  snapshotUuid : Text
  rootPath : Text
  originNodeId : Text
  createdAt : Text
  totalSize : Nat
  totalFiles : Nat
  rootTree : ObjectRef
  deriving DecidableEq, Repr

def SnapshotRootObject.make
    (snapshotUuid rootPath originNodeId createdAt totalSize totalFiles : PyJson)
    (rootTree : ObjectRef) : Checked SnapshotRootObject := do
  let snapshotUuid ← requireUuid "snapshot_root.snapshot_uuid" snapshotUuid
  let rootPath ← requireStr "snapshot_root.root_path" true rootPath
  let originNodeId ← requireNodeId "snapshot_root.origin_node_id" originNodeId
  let createdAt ← requireStr "snapshot_root.created_at" false createdAt
  let totalSize ← requireInt "snapshot_root.total_size" 0 totalSize
  let totalFiles ← requireInt "snapshot_root.total_files" 0 totalFiles
  requireRef rootTree .tree "snapshot_root.root_tree debe referenciar un objeto tree"
  return { snapshotUuid, rootPath, originNodeId, createdAt, totalSize, totalFiles, rootTree }

structure SnapshotIndexEntry where
  snapshotUuid : Text
  status : SnapshotStatus
  rootPath : Text
  originNodeId : Text
  createdAt : Text
  totalSize : Nat
  totalFiles : Nat
  snapshotRoot : Option ObjectRef
  error : Option Text
  deriving DecidableEq, Repr

/-- A reference that may be absent. -/
def requireOptionalRef (ref : Option ObjectRef) (expected : MetadataObjectType)
    (reason : String) : Checked Unit :=
  match ref with
  | none => .ok ()
  | some ref => requireRef ref expected reason

def SnapshotIndexEntry.make
    (snapshotUuid status rootPath originNodeId createdAt totalSize totalFiles : PyJson)
    (snapshotRoot : Option ObjectRef) (error : PyJson) : Checked SnapshotIndexEntry := do
  let snapshotUuid ← requireUuid "snapshot_index_entry.snapshot_uuid" snapshotUuid
  let status ← requireName "snapshot_index_entry.status" "estado de snapshot inválido"
    snapshotStatusOf? status
  let rootPath ← requireStr "snapshot_index_entry.root_path" true rootPath
  let originNodeId ← requireNodeId "snapshot_index_entry.origin_node_id" originNodeId
  let createdAt ← requireStr "snapshot_index_entry.created_at" false createdAt
  let totalSize ← requireInt "snapshot_index_entry.total_size" 0 totalSize
  let totalFiles ← requireInt "snapshot_index_entry.total_files" 0 totalFiles
  requireOptionalRef snapshotRoot .snapshotRoot
    "snapshot_root debe referenciar un objeto snapshot_root"
  ensure (!decide (status = .complete) || snapshotRoot.isSome)
    (.object "snapshots COMPLETE deben referenciar un objeto snapshot_root")
  let error ← optional (requireStr "snapshot_index_entry.error" true) error
  return { snapshotUuid, status, rootPath, originNodeId, createdAt, totalSize, totalFiles,
           snapshotRoot, error }

structure SnapshotIndexObject where
  snapshots : List SnapshotIndexEntry
  deriving DecidableEq, Repr

/-- The order of `(created_at, snapshot_uuid)`. -/
def SnapshotIndexEntry.before (left right : SnapshotIndexEntry) : Bool :=
  decide (left.createdAt < right.createdAt) ||
    (decide (left.createdAt = right.createdAt) && decide (left.snapshotUuid < right.snapshotUuid))

def SnapshotIndexObject.make (snapshots : List SnapshotIndexEntry) :
    Checked SnapshotIndexObject := do
  checkEntries (fun _ => .ok ()) SnapshotIndexEntry.snapshotUuid SnapshotIndexEntry.before
    (fun entry => s!"snapshot uuid duplicado: {String.ofList entry.snapshotUuid}")
    "snapshot_index.snapshots debe estar ordenado por created_at, snapshot_uuid" [] none snapshots
  return { snapshots }

def requireHexPrefix (name : String) (value : PyJson) : Checked Text := do
  let text ← requireStr name false value
  ensure (isLowerHex 2 text) (.object s!"{name} debe tener dos caracteres hexadecimales lowercase")
  return text

/-- The loop over the records of a shard. -/
def checkRecords {α : Type} (label listed record sortKey : String) (key : α → Text) (prefix_ : Text)
    (records : List α) : Checked Unit :=
  checkEntries (fun item => ensure (prefix_.isPrefixOf (key item))
    (.object s!"{label} contiene un record fuera de su prefix"))
    key (textBefore key) (fun item => s!"{record} duplicado: {String.ofList (key item)}")
    s!"{label}.{listed} debe estar ordenado por {sortKey}" [] none records

structure KnownChunkRecord where
  chunkHash : Text
  size : Nat
  deriving DecidableEq, Repr

def KnownChunkRecord.make (chunkHash size : PyJson) : Checked KnownChunkRecord := do
  let chunkHash ← requireHash64 "known_chunk.chunk_hash" chunkHash
  let size ← requireInt "known_chunk.size" 1 size
  return { chunkHash, size }

structure KnownChunkShardObject where
  hexPrefix : Text
  chunks : List KnownChunkRecord
  deriving DecidableEq, Repr

def KnownChunkShardObject.make (hexPrefix : PyJson) (chunks : List KnownChunkRecord) :
    Checked KnownChunkShardObject := do
  let hexPrefix ← requireHexPrefix "known_chunk_shard.prefix" hexPrefix
  checkRecords "known_chunk_shard" "chunks" "known chunk" "chunk_hash"
    KnownChunkRecord.chunkHash hexPrefix chunks
  return { hexPrefix, chunks }

structure IndexShardRef where
  hexPrefix : Text
  count : Nat
  ref : ObjectRef
  deriving DecidableEq, Repr

def IndexShardRef.make (hexPrefix count : PyJson) (ref : ObjectRef) : Checked IndexShardRef := do
  let hexPrefix ← requireHexPrefix "index_shard_ref.prefix" hexPrefix
  let count ← requireInt "index_shard_ref.count" 0 count
  return { hexPrefix, count, ref }

/-- The loop over the shards of an index and the check of its total. -/
def checkShards (label total : String) (expected : MetadataObjectType) (shards : List IndexShardRef)
    (declared : Nat) :
    Checked Unit := do
  checkEntries (fun shard =>
    requireRef shard.ref expected s!"{label} shard ref debe referenciar {expected.name}")
    IndexShardRef.hexPrefix (textBefore IndexShardRef.hexPrefix)
    (fun shard => s!"prefix de {label} duplicado: {String.ofList shard.hexPrefix}")
    s!"{label}.shards debe estar ordenado por prefix" [] none shards
  ensure (decide ((shards.map IndexShardRef.count).sum = declared))
    (.object s!"{label}.{total} no coincide con los contadores de shards")

structure KnownChunkIndexObject where
  shards : List IndexShardRef
  totalChunks : Nat
  deriving DecidableEq, Repr

def KnownChunkIndexObject.make (shards : List IndexShardRef) (totalChunks : PyJson) :
    Checked KnownChunkIndexObject := do
  let totalChunks ← requireInt "known_chunk_index.total_chunks" 0 totalChunks
  checkShards "known_chunk_index" "total_chunks" .knownChunkShard shards totalChunks
  return { shards, totalChunks }

structure ProtectionRecordObject where
  chunkHash : Text
  desiredRf : Nat
  protectionState : ProtectionState
  protectedRemoteCopies : Nat
  placementEpoch : Option Text
  lastPushAt : Option PyNumber
  lastVerifyAt : Option PyNumber
  lastError : Option Text
  deriving DecidableEq, Repr

def ProtectionRecordObject.make
    (chunkHash desiredRf protectionState protectedRemoteCopies placementEpoch lastPushAt
    lastVerifyAt lastError : PyJson) : Checked ProtectionRecordObject := do
  let chunkHash ← requireHash64 "protection.chunk_hash" chunkHash
  let desiredRf ← requireInt "protection.desired_rf" 0 desiredRf
  let protectionState ← requireName "protection.protection_state" "estado de protection inválido"
    protectionStateOf?
    protectionState
  let protectedRemoteCopies ← requireInt "protection.protected_remote_copies" 0
    protectedRemoteCopies
  let placementEpoch ← optional (requireStr "protection.placement_epoch" true) placementEpoch
  let lastPushAt ← optional (requireNumber "protection.last_push_at" true) lastPushAt
  let lastVerifyAt ← optional (requireNumber "protection.last_verify_at" true) lastVerifyAt
  let lastError ← optional (requireStr "protection.last_error" true) lastError
  return { chunkHash, desiredRf, protectionState, protectedRemoteCopies, placementEpoch, lastPushAt,
           lastVerifyAt, lastError }

structure ProtectionShardObject where
  hexPrefix : Text
  records : List ProtectionRecordObject
  deriving DecidableEq, Repr

def ProtectionShardObject.make (hexPrefix : PyJson) (records : List ProtectionRecordObject) :
    Checked ProtectionShardObject := do
  let hexPrefix ← requireHexPrefix "protection_shard.prefix" hexPrefix
  checkRecords "protection_shard" "records" "protection record" "chunk_hash"
    ProtectionRecordObject.chunkHash hexPrefix records
  return { hexPrefix, records }

structure ProtectionIndexObject where
  shards : List IndexShardRef
  totalRecords : Nat
  deriving DecidableEq, Repr

def ProtectionIndexObject.make (shards : List IndexShardRef) (totalRecords : PyJson) :
    Checked ProtectionIndexObject := do
  let totalRecords ← requireInt "protection_index.total_records" 0 totalRecords
  checkShards "protection_index" "total_records" .protectionShard shards totalRecords
  return { shards, totalRecords }

structure ErasureDataPackChunkObject where
  chunkHash : Text
  offset : Nat
  length : Nat
  ordinal : Nat
  deriving DecidableEq, Repr

def ErasureDataPackChunkObject.make (chunkHash offset length ordinal : PyJson) :
    Checked ErasureDataPackChunkObject := do
  let chunkHash ← requireHash64 "erasure_pack_chunk.chunk_hash" chunkHash
  let offset ← requireInt "erasure_pack_chunk.offset" 0 offset
  let length ← requireInt "erasure_pack_chunk.length" 1 length
  let ordinal ← requireInt "erasure_pack_chunk.ordinal" 0 ordinal
  return { chunkHash, offset, length, ordinal }

structure ErasureDataPackShardPlacementObject where
  shardIndex : Nat
  shardHash : Text
  nodeId : Text
  size : Nat
  protectionState : ProtectionState
  lastPushAt : Option PyNumber
  lastVerifyAt : Option PyNumber
  lastError : Option Text
  deriving DecidableEq, Repr

def ErasureDataPackShardPlacementObject.make
    (shardIndex shardHash nodeId size protectionState lastPushAt lastVerifyAt
    lastError : PyJson) : Checked ErasureDataPackShardPlacementObject := do
  let shardIndex ← requireInt "erasure_pack_shard.shard_index" 0 shardIndex
  let shardHash ← requireHash64 "erasure_pack_shard.shard_hash" shardHash
  let nodeId ← requireNodeId "erasure_pack_shard.node_id" nodeId
  let size ← requireInt "erasure_pack_shard.size" 1 size
  let protectionState ← requireName "erasure_pack_shard.protection_state"
    "estado de erasure pack shard inválido"
    protectionStateOf? protectionState
  let lastPushAt ← optional (requireNumber "erasure_pack_shard.last_push_at" true) lastPushAt
  let lastVerifyAt ← optional (requireNumber "erasure_pack_shard.last_verify_at" true) lastVerifyAt
  let lastError ← optional (requireStr "erasure_pack_shard.last_error" true) lastError
  return { shardIndex, shardHash, nodeId, size, protectionState, lastPushAt,
           lastVerifyAt, lastError }

structure ErasureDataPackRecordObject where
  packHash : Text
  codec : Text
  dataShards : Nat
  parityShards : Nat
  payloadSize : Nat
  paddedSize : Nat
  shardSize : Nat
  protectionState : ProtectionState
  placementEpoch : Option Text
  createdAt : PyNumber
  lastPushAt : Option PyNumber
  lastVerifyAt : Option PyNumber
  lastError : Option Text
  chunks : List ErasureDataPackChunkObject
  shards : List ErasureDataPackShardPlacementObject
  deriving DecidableEq, Repr

/-- The loop over the chunks of a pack; it returns the end of the last one. -/
def checkPackChunks : List Text → Nat → Nat → List ErasureDataPackChunkObject → Checked Nat
  | _, _, previousEnd, [] => .ok previousEnd
  | seenChunks, expectedOrdinal, previousEnd, chunk :: rest => do
      ensure (!seenChunks.contains chunk.chunkHash)
        (.object s!"chunk EC duplicado: {String.ofList chunk.chunkHash}")
      ensure (decide (chunk.ordinal = expectedOrdinal))
        (.object "chunks de erasure_data_pack deben tener ordinales consecutivos desde 0")
      ensure (decide (chunk.offset = previousEnd))
        (.object "chunks de erasure_data_pack deben cubrir el payload de forma contigua")
      checkPackChunks (chunk.chunkHash :: seenChunks) (expectedOrdinal + 1)
        (chunk.offset + chunk.length) rest

def checkPackNodes : List Text → List ErasureDataPackShardPlacementObject → Checked Unit
  | _, [] => .ok ()
  | nodeIds, shard :: rest => do
      ensure (!nodeIds.contains shard.nodeId)
        (.object "shards de erasure_data_pack deben estar en nodos distintos")
      checkPackNodes (shard.nodeId :: nodeIds) rest

def ErasureDataPackRecordObject.make
    (packHash codec dataShards parityShards payloadSize paddedSize shardSize
    protectionState placementEpoch createdAt lastPushAt lastVerifyAt lastError : PyJson)
    (chunks : List ErasureDataPackChunkObject) (shards : List ErasureDataPackShardPlacementObject) :
    Checked ErasureDataPackRecordObject := do
  let packHash ← requireHash64 "erasure_data_pack.pack_hash" packHash
  let codec ← requireStr "erasure_data_pack.codec" false codec
  let dataShards ← requireInt "erasure_data_pack.data_shards" 1 dataShards
  let parityShards ← requireInt "erasure_data_pack.parity_shards" 0 parityShards
  let payloadSize ← requireInt "erasure_data_pack.payload_size" 0 payloadSize
  let paddedSize ← requireInt "erasure_data_pack.padded_size" 0 paddedSize
  let shardSize ← requireInt "erasure_data_pack.shard_size" 1 shardSize
  ensure (decide (paddedSize = shardSize * dataShards))
    (.object "erasure_data_pack.padded_size debe coincidir con shard_size * data_shards")
  ensure (decide (payloadSize ≤ paddedSize))
    (.object "erasure_data_pack.payload_size no puede ser mayor que padded_size")
  let protectionState ← requireName "erasure_data_pack.protection_state"
    "estado de erasure data pack inválido"
    protectionStateOf? protectionState
  let placementEpoch ← optional (requireStr "erasure_data_pack.placement_epoch" true) placementEpoch
  let createdAt ← requireNumber "erasure_data_pack.created_at" true createdAt
  let lastPushAt ← optional (requireNumber "erasure_data_pack.last_push_at" true) lastPushAt
  let lastVerifyAt ← optional (requireNumber "erasure_data_pack.last_verify_at" true) lastVerifyAt
  let lastError ← optional (requireStr "erasure_data_pack.last_error" true) lastError
  ensure (!chunks.isEmpty) (.object "erasure_data_pack debe contener al menos un chunk")
  let previousEnd ← checkPackChunks [] 0 0 chunks
  ensure (decide (previousEnd = payloadSize))
    (.object "chunks de erasure_data_pack no cubren exactamente payload_size")
  checkPackNodes [] shards
  ensure (decide (shards.map ErasureDataPackShardPlacementObject.shardIndex = List.range
    (dataShards + parityShards)))
    (.object "shards de erasure_data_pack deben cubrir todos los índices esperados")
  return { packHash, codec, dataShards, parityShards, payloadSize, paddedSize, shardSize,
           protectionState, placementEpoch,
           createdAt, lastPushAt, lastVerifyAt, lastError, chunks, shards }

structure ErasureDataPackShardObject where
  hexPrefix : Text
  records : List ErasureDataPackRecordObject
  deriving DecidableEq, Repr

def ErasureDataPackShardObject.make (hexPrefix : PyJson)
    (records : List ErasureDataPackRecordObject) :
    Checked ErasureDataPackShardObject := do
  let hexPrefix ← requireHexPrefix "erasure_data_pack_shard.prefix" hexPrefix
  checkRecords "erasure_data_pack_shard" "records" "erasure data pack" "pack_hash"
    ErasureDataPackRecordObject.packHash
    hexPrefix records
  return { hexPrefix, records }

structure ErasureDataPackIndexObject where
  shards : List IndexShardRef
  totalPacks : Nat
  totalChunks : Nat
  totalShards : Nat
  deriving DecidableEq, Repr

def ErasureDataPackIndexObject.make (shards : List IndexShardRef)
    (totalPacks totalChunks totalShards : PyJson) :
    Checked ErasureDataPackIndexObject := do
  let totalPacks ← requireInt "erasure_data_pack_index.total_packs" 0 totalPacks
  let totalChunks ← requireInt "erasure_data_pack_index.total_chunks" 0 totalChunks
  let totalShards ← requireInt "erasure_data_pack_index.total_shards" 0 totalShards
  checkShards "erasure_data_pack_index" "total_packs" .erasureDataPackShard shards totalPacks
  return { shards, totalPacks, totalChunks, totalShards }

structure CatalogObject where
  vaultId : Text
  snapshotIndex : ObjectRef
  knownChunkIndex : ObjectRef
  protectionIndex : Option ObjectRef
  snapshotCount : Nat
  knownChunkCount : Nat
  protectionRecordCount : Nat
  erasureDataPackIndex : Option ObjectRef
  erasureDataPackCount : Nat
  erasureDataPackChunkCount : Nat
  erasureDataPackShardCount : Nat
  deriving DecidableEq, Repr

def CatalogObject.make (vaultId : PyJson) (snapshotIndex knownChunkIndex : ObjectRef)
    (protectionIndex : Option ObjectRef)
    (snapshotCount knownChunkCount protectionRecordCount : PyJson)
    (erasureDataPackIndex : Option ObjectRef)
    (erasureDataPackCount erasureDataPackChunkCount erasureDataPackShardCount : PyJson) :
    Checked CatalogObject := do
  let vaultId ← requireVaultId "catalog.vault_id" vaultId
  requireRef snapshotIndex .snapshotIndex "catalog.snapshot_index debe referenciar snapshot_index"
  requireRef knownChunkIndex .knownChunkIndex
    "catalog.known_chunk_index debe referenciar known_chunk_index"
  requireOptionalRef protectionIndex .protectionIndex
    "catalog.protection_index debe referenciar protection_index"
  let snapshotCount ← requireInt "catalog.snapshot_count" 0 snapshotCount
  let knownChunkCount ← requireInt "catalog.known_chunk_count" 0 knownChunkCount
  let protectionRecordCount ← requireInt "catalog.protection_record_count" 0 protectionRecordCount
  requireOptionalRef erasureDataPackIndex .erasureDataPackIndex
    "catalog.erasure_data_pack_index debe referenciar erasure_data_pack_index"
  let erasureDataPackCount ← requireInt "catalog.erasure_data_pack_count" 0 erasureDataPackCount
  let erasureDataPackChunkCount ← requireInt "catalog.erasure_data_pack_chunk_count" 0
    erasureDataPackChunkCount
  let erasureDataPackShardCount ← requireInt "catalog.erasure_data_pack_shard_count" 0
    erasureDataPackShardCount
  return { vaultId, snapshotIndex, knownChunkIndex, protectionIndex, snapshotCount, knownChunkCount,
           protectionRecordCount,
           erasureDataPackIndex, erasureDataPackCount, erasureDataPackChunkCount,
             erasureDataPackShardCount }

inductive MetadataPlainObject where
  | catalog (object : CatalogObject)
  | snapshotIndex (object : SnapshotIndexObject)
  | snapshotRoot (object : SnapshotRootObject)
  | tree (object : TreeObject)
  | file (object : FileObject)
  | recipe (object : RecipeObject)
  | chunkList (object : ChunkListObject)
  | knownChunkIndex (object : KnownChunkIndexObject)
  | knownChunkShard (object : KnownChunkShardObject)
  | protectionIndex (object : ProtectionIndexObject)
  | protectionShard (object : ProtectionShardObject)
  | erasureDataPackIndex (object : ErasureDataPackIndexObject)
  | erasureDataPackShard (object : ErasureDataPackShardObject)
  deriving DecidableEq, Repr

def MetadataPlainObject.objectType : MetadataPlainObject → MetadataObjectType
  | .catalog _ => .catalog
  | .snapshotIndex _ => .snapshotIndex
  | .snapshotRoot _ => .snapshotRoot
  | .tree _ => .tree
  | .file _ => .file
  | .recipe _ => .recipe
  | .chunkList _ => .chunkList
  | .knownChunkIndex _ => .knownChunkIndex
  | .knownChunkShard _ => .knownChunkShard
  | .protectionIndex _ => .protectionIndex
  | .protectionShard _ => .protectionShard
  | .erasureDataPackIndex _ => .erasureDataPackIndex
  | .erasureDataPackShard _ => .erasureDataPackShard

end Stopan.Objects
