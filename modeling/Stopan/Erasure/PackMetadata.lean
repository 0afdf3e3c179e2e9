import Stopan.Cluster.Placement
import Stopan.Erasure.ShardPush
import Stopan.Metadata.ErasureCatalog

/-!
Placement of the shards of a pack, its rows in the catalog, and the push and retry of one pack
(`placement.py`, `metadata_adapter.py`, `push_execution.py` and `pusher.py` of
`stopan/protection/ec`).
-/

namespace Stopan.Erasure

open Stopan.Lib Stopan.Common Stopan.Cluster Stopan.Metadata Stopan.Protection

/-- `DataPackShardPlacement.__post_init__`. -/
def createShardPlacement (packHash : Text) (shardIndex : Nat) (nodeId address : Text) :
    Coded ShardPlacement := do
  let packHash ← requireHash "pack_hash" packHash
  ensure (!(strip nodeId).isEmpty) (.network "node_id no puede estar vacío")
  ensure (!(strip address).isEmpty) (.network "address no puede estar vacío")
  return { packHash, shardIndex, nodeId := strip nodeId, address := strip address }

def planDataPackShardPlacement (blake3 : Blake3) (packHash : Text) (spec : ErasureSpec)
    (cluster : ClusterView) (originNodeId clusterToken : Text) : Coded (List ShardPlacement) := do
  let packHash ← requireHash "pack_hash" packHash
  let originNodeId := strip originNodeId
  ensure (!originNodeId.isEmpty) (.config "origin_node_id no puede estar vacío")
  ensure ((cluster.members.map ClusterMember.nodeId).contains originNodeId
      || decide (originNodeId = strip (cluster.selfNodeId.getD [])))
    (.config
      "origin_node_id no pertenece a la vista de membership ni coincide con ClusterView.self_node_id; usa la identidad canónica del nodo origen al colocar shards EC")
  let members :=
    cluster.hrwTargetsExcluding blake3 packHash spec.totalShards clusterToken [originNodeId]
  ensure (decide (spec.totalShards ≤ members.length)) (.network
    s!"no hay suficientes nodos remotos para colocar shards EC: necesarios={spec.totalShards} disponibles={members.length}")
  let placements ← members.zipIdx.mapM fun placed =>
    createShardPlacement packHash placed.2 placed.1.nodeId placed.1.address
  ensure (decide (placements.map (·.nodeId)).Nodup)
    (.coding "los shards EC de un pack deben ir a nodos distintos")
  return placements

/-- `_data_pack_metadata_rows`, the part for one shard. -/
def shardMetadataRow (placements : Dict Nat ShardPlacement) (shard : DataPackShard) :
    Coded ErasureShardArg :=
  match placements.get? shard.shardIndex with
  | none => .error (.value s!"KeyError: {shard.shardIndex}")
  | some placement => .ok {
      shardIndex := shard.shardIndex
      shardHash := shard.shardHash
      nodeId := placement.nodeId
      size := shard.data.length }

def chunkMetadataRow (entry : DataPackEntry) : ErasureChunkArg where
  chunkHash := entry.chunkHash
  offset := entry.offset
  length := entry.length
  ordinal := entry.ordinal

/-- The arguments with which the catalog is told about a pack. -/
def packMetadataArgs (pack : EncodedDataPack) (placements : List ShardPlacement) :
    Coded ErasurePackArgs := do
  let shards ← pack.shards.mapM (shardMetadataRow (placementByIndex placements))
  return {
    packHash := pack.packHash
    codec := "zfec".toList
    dataShards := pack.spec.dataShards
    parityShards := pack.spec.parityShards
    payloadSize := pack.payloadSize
    paddedSize := pack.paddedSize
    shardSize := pack.shardSize
    chunks := pack.entries.map chunkMetadataRow
    shards }

def registerDataPackMetadata (db : MetadataDB) (pack : EncodedDataPack)
    (placements : List ShardPlacement) (protectionState : ProtectionState) (placementEpoch : Text)
    (now : PyFloat) : Except StopanError MetadataDB :=
  match packMetadataArgs pack placements with
  | .error reason => .error (.erasure (describe reason))
  | .ok args => db.registerErasureDataPack args protectionState (some placementEpoch) now

def buildDataPackPushUpdate (pack : EncodedDataPack) (placements : List ShardPlacement)
    (protectionState : ProtectionState) (placementEpoch : Text) (pushedAt : PyFloat) :
    Coded ErasureDataPackPushUpdate := do
  let args ← packMetadataArgs pack placements
  return { args with protectionState, placementEpoch := some placementEpoch, pushedAt }

def validateDataPackDeliveryLimits (pack : EncodedDataPack) (maxShardSize maxMessageBytes : Int) :
    Coded Unit := do
  ensure (decide (0 < maxShardSize)) (.config "storage.max_chunk_size debe ser > 0")
  pack.shards.forM fun shard => do
    ensure (decide (shard.data.length ≤ maxShardSize)) (.config
      s!"shard EC excede el límite de almacenamiento remoto: shard_size={shard.data.length} > max_shard_size={maxShardSize}; pack_hash={String.ofList pack.packHash} shard_index={shard.shardIndex}")
    let ref ← createShardRef pack.packHash shard.shardIndex shard.shardHash
    let payload ← createShardPayload ref shard.data
    ensureShardFitsTransport maxMessageBytes payload

/-- What a push meets: the cluster it sees, its limits, and what the targets answer in which
order. -/
structure PushContext where
  cluster : ClusterView
  originNodeId : Text
  clusterToken : Text
  maxShardSize : Int
  maxMessageBytes : Int
  answers : Text → TargetAnswer
  completionOrder : List TargetBatch → List TargetBatch
  pushedAt : PyFloat

/-- `_push_pack` with `refresh_existing=True`, without the statistics. -/
def refreshPack (blake3 : Blake3) (context : PushContext) (pack : EncodedDataPack)
    (placementEpoch : Text) :
    Coded ErasureDataPackPushUpdate := do
  validateDataPackDeliveryLimits pack context.maxShardSize context.maxMessageBytes
  let placements ← planDataPackShardPlacement blake3 pack.packHash pack.spec context.cluster
    context.originNodeId
    context.clusterToken
  let batches ← targetBatches pack placements
  let pushed := pushDataPackShards context.maxMessageBytes context.answers
    (context.completionOrder batches)
  let protectionState :=
    dataPackState pushed.successfulIndexes.card pack.spec.dataShards pack.spec.totalShards
  buildDataPackPushUpdate pack placements protectionState placementEpoch context.pushedAt

/-- `spec_from_erasure_metadata`. -/
def specFromErasureMetadata (row : ErasureDataPackRow) : Coded ErasureSpec :=
  createErasureSpec row.dataShards row.parityShards (String.ofList row.codec)

/-- What `repo.get` does for a chunk. -/
inductive LocalChunk where
  | absent
  | unreadable (reason : String)
  | found (data : Bytes)
  deriving DecidableEq, Repr

def LocalChunk.error (chunkHash : Text) : LocalChunk → Option String
  | .absent => some s!"chunk local ausente: {String.ofList chunkHash}"
  | .unreadable reason => some s!"chunk local ilegible {String.ofList chunkHash}: {reason}"
  | .found _ => none

def LocalChunk.payload (chunkHash : Text) : LocalChunk → Option (Text × Bytes)
  | .found data => some (chunkHash, data)
  | _ => none

inductive RetryResult where
  | push (update : ErasureDataPackPushUpdate)
  | error (update : ErasureDataPackPushErrorUpdate)
  deriving DecidableEq, Repr

/-- `_pack_push_error`. -/
def packPushError (packHash : Text) (error : String) : ErasureDataPackPushErrorUpdate where
  packHash
  error := error.toList.take 1800

/-- `_retry_existing_pack`, without the statistics. -/
def retryExistingPack (blake3 : Blake3) (zfec : Zfec) (db : MetadataDB) (repo : Text → LocalChunk)
    (context : PushContext)
    (packHash : Text) (record : ErasureDataPackRow) : Coded RetryResult := do
  let chunks := db.getErasurePackChunks packHash
  if chunks.isEmpty then
    return .error (packPushError packHash
      "reintento EC imposible: el paquete no tiene chunks registrados")
  else
    let spec ← specFromErasureMetadata record
    let placementEpoch :=
      context.cluster.placementEpochExcluding blake3 spec.totalShards context.clusterToken
      [context.originNodeId]
    let localErrors := chunks.filterMap fun chunk => (repo chunk.chunkHash).error chunk.chunkHash
    if !localErrors.isEmpty then
      return .error (packPushError packHash ("; ".intercalate localErrors))
    else
      let materialized :=
        chunks.filterMap fun chunk => (repo chunk.chunkHash).payload chunk.chunkHash
      match buildDataPackFromValidatedChunks blake3 zfec materialized spec with
      | .error (.value reason) => .error (.value reason)
      | .error reason =>
          let detail := describe reason
          return .error (packPushError packHash
            s!"reintento EC: no se pudo reconstruir el paquete: {detail}")
      | .ok pack =>
          if pack.packHash ≠ packHash then
            return .error (packPushError packHash
              "reintento EC: la reconstrucción no coincide con el pack_hash registrado")
          else
            return .push (← refreshPack blake3 context pack placementEpoch)

end Stopan.Erasure
