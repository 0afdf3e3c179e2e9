import Stopan.Objects.Codec
import Stopan.Metadata.ErasureCatalog

/-!
The data pack records of an object graph as rows of the catalog
(`stopan/metadata/objects/exchange/erasure_records.py`). The payloads are JSON values as they were
loaded, and every field is checked again before it becomes a column.
-/

namespace Stopan.Objects.Exchange

open Stopan.Lib Stopan.Common Stopan.Metadata Stopan.Protection

abbrev Imported := Except StopanError

/-- `dict.get`. -/
def get (fields : Fields) (name : String) : PyJson := (fields.lookup name.toList).getD .null

def requireStr (name : String) (allowEmpty : Bool) : PyJson → Imported Text
  | .str text => do
      ensure (allowEmpty || !text.isEmpty) (.metadataObjectImport s!"{name} no puede estar vacío")
      return text
  | other => .error (.metadataObjectImport s!"{name} debe ser string; recibido {typeName other}")

def requireInt (name : String) (minValue : Nat) : PyJson → Imported Nat
  | .int value => do
      ensure (decide ((minValue : Int) ≤ value))
        (.metadataObjectImport s!"{name} debe ser >= {minValue}; recibido {value}")
      return value.toNat
  | other => .error (.metadataObjectImport s!"{name} debe ser entero; recibido {typeName other}")

/-- `float` of an integer within range. -/
def floatOfInt (value : Int) : PyFloat :=
  .ofParts (decide (value < 0)) (Binary64.nearest (value.natAbs * Binary64.unitsOfOne))

/-- `require_number` with `min_value=0.0`. -/
def requireNumber (name : String) : PyJson → Imported PyFloat
  | .int value => do
      ensure (decide (value.natAbs < floatLimit)) (.overflow "int too large to convert to float")
      ensure (decide (0 ≤ value))
        (.metadataObjectImport s!"{name} debe ser >= 0.0; recibido {value}")
      return floatOfInt value
  | .float value => do
      ensure value.isFinite
        (.metadataObjectImport
          s!"{name} debe ser finito; recibido {String.ofList (floatStr value)}")
      ensure (!value.negative || decide (value.pattern = 0))
        (.metadataObjectImport
          s!"{name} debe ser >= 0.0; recibido {String.ofList (floatStr value)}")
      return value
  | other => .error (.metadataObjectImport s!"{name} debe ser numérico; recibido {typeName other}")

def requireHash64 (name : String) (value : PyJson) : Imported Text := do
  let text ← requireStr name false value
  ensure (isLowerHex 64 text)
    (.metadataObjectImport s!"{name} debe ser hex lowercase de 64 caracteres")
  return text

/-- `require_ref`, with the `repr` of another type left out of the message. -/
def requireRef (name : String) (expected : MetadataObjectType) : PyJson → Imported Text
  | .obj fields => do
      let named := match get fields "object_type" with
        | .str text => decide (text = expected.value)
        | _ => false
      ensure named (.metadataObjectImport s!"{name} debe referenciar {expected.name}")
      requireHash64 s!"{name}.object_hash" (get fields "object_hash")
  | _ => .error (.metadataObjectImport s!"{name} debe ser ObjectRef")

/-- A value that may be `None`. -/
def optional {α : Type} (check : PyJson → Imported α) : PyJson → Imported (Option α)
  | .null => .ok none
  | value => do return some (← check value)

def requireProtectionState (name : String) (value : PyJson) : Imported ProtectionState := do
  let text ← requireStr name false value
  match protectionStateOf? text with
  | some state => .ok state
  | none => .error (.metadataObjectImport s!"{name} no es un estado de protección válido")

def requireList (reason : String) : PyJson → Imported (List PyJson)
  | .arr items => .ok items
  | _ => .error (.metadataObjectImport reason)

def requireDict (reason : String) : PyJson → Imported Fields
  | .obj fields => .ok fields
  | _ => .error (.metadataObjectImport reason)

/-- The state of the loop over the chunks of a pack. -/
structure ChunkRowsState where
  rows : List ErasureChunkEntry
  previousEnd : Nat
  seenPackChunks : List Text
  seenGlobalChunks : List Text

def erasureChunkRow (chunkSizes : Dict Text Nat) (state : ChunkRowsState) (item : PyJson) :
    Imported ChunkRowsState := do
  let fields ← requireDict "erasure_data_pack chunk inválido" item
  let chunkHash ← requireHash64 "erasure_pack_chunk.chunk_hash" (get fields "chunk_hash")
  ensure (!state.seenPackChunks.contains chunkHash)
    (.metadataObjectImport
      s!"erasure_data_pack contiene chunk duplicado: {String.ofList chunkHash}")
  ensure (!state.seenGlobalChunks.contains chunkHash)
    (.metadataObjectImport s!"chunk EC duplicado entre data packs: {String.ofList chunkHash}")
  ensure (chunkSizes.contains chunkHash)
    (.metadataObjectImport
      s!"erasure_data_pack referencia chunk inexistente: {String.ofList chunkHash}")
  let offset ← requireInt "erasure_pack_chunk.offset" 0 (get fields "offset")
  let length ← requireInt "erasure_pack_chunk.length" 1 (get fields "length")
  let ordinal ← requireInt "erasure_pack_chunk.ordinal" 0 (get fields "ordinal")
  ensure (decide (ordinal = state.rows.length))
    (.metadataObjectImport "chunks EC deben tener ordinales consecutivos desde 0")
  ensure (decide (offset = state.previousEnd))
    (.metadataObjectImport "chunks EC deben cubrir el payload de forma contigua")
  return {
    rows := state.rows ++ [{ chunkHash, offset, length, ordinal }]
    previousEnd := offset + length
    seenPackChunks := chunkHash :: state.seenPackChunks
    seenGlobalChunks := chunkHash :: state.seenGlobalChunks }

def erasureChunkRows (chunkSizes : Dict Text Nat) (record : Fields) (seenGlobalChunks : List Text) :
    Imported (List ErasureChunkEntry × List Text) := do
  let rawChunks ← requireList "erasure_data_pack.chunks debe ser lista" (get record "chunks")
  let state ← rawChunks.foldlM (erasureChunkRow chunkSizes)
    { rows := [], previousEnd := 0, seenPackChunks := [], seenGlobalChunks }
  let payloadSize ← requireInt "erasure_data_pack.payload_size" 0 (get record "payload_size")
  ensure (!state.rows.isEmpty)
    (.metadataObjectImport "erasure_data_pack debe contener al menos un chunk")
  ensure (decide (state.previousEnd = payloadSize))
    (.metadataObjectImport "chunks EC no cubren exactamente payload_size")
  return (state.rows, state.seenGlobalChunks)

def erasureShardRow (rows : List (Nat × ErasurePackShardRow)) (item : PyJson) :
    Imported (List (Nat × ErasurePackShardRow)) := do
  let fields ← requireDict "erasure_data_pack shard inválido" item
  let shardIndex ← requireInt "erasure_pack_shard.shard_index" 0 (get fields "shard_index")
  let shardHash ← requireHash64 "erasure_pack_shard.shard_hash" (get fields "shard_hash")
  let nodeId ← requireStr "erasure_pack_shard.node_id" false (get fields "node_id")
  let size ← requireInt "erasure_pack_shard.size" 1 (get fields "size")
  let protectionState ← requireProtectionState "erasure_pack_shard.protection_state"
    (get fields "protection_state")
  let lastPushAt ← optional (requireNumber "erasure_pack_shard.last_push_at")
    (get fields "last_push_at")
  let lastVerifyAt ← optional (requireNumber "erasure_pack_shard.last_verify_at")
    (get fields "last_verify_at")
  let lastError ← optional (requireStr "erasure_pack_shard.last_error" true)
    (get fields "last_error")
  ensure (!(rows.map fun row => row.2.nodeId).contains nodeId)
    (.metadataObjectImport "shards EC de un pack deben ir a nodos distintos")
  let row : ErasurePackShardRow :=
    { shardHash, nodeId, size, protectionState, lastPushAt, lastVerifyAt, lastError }
  return rows ++ [(shardIndex, row)]

def erasureShardRows (record : Fields) : Imported (List (Nat × ErasurePackShardRow)) := do
  let rawShards ← requireList "erasure_data_pack.shards debe ser lista" (get record "shards")
  let dataShards ← requireInt "erasure_data_pack.data_shards" 1 (get record "data_shards")
  let parityShards ← requireInt "erasure_data_pack.parity_shards" 0 (get record "parity_shards")
  let rows ← rawShards.foldlM erasureShardRow []
  ensure (decide (rows.map Prod.fst = List.range (dataShards + parityShards)))
    (.metadataObjectImport "shards EC deben cubrir todos los índices esperados")
  return rows

def erasureDataPackImportRows (chunkSizes : Dict Text Nat) (record : Fields) (packHash : Text)
    (seenGlobalChunks : List Text) : Imported (ErasureDataPackImportRows × List Text) := do
  let codec ← requireStr "erasure_data_pack.codec" false (get record "codec")
  let dataShards ← requireInt "erasure_data_pack.data_shards" 1 (get record "data_shards")
  let parityShards ← requireInt "erasure_data_pack.parity_shards" 0 (get record "parity_shards")
  let payloadSize ← requireInt "erasure_data_pack.payload_size" 0 (get record "payload_size")
  let paddedSize ← requireInt "erasure_data_pack.padded_size" 0 (get record "padded_size")
  let shardSize ← requireInt "erasure_data_pack.shard_size" 1 (get record "shard_size")
  ensure (decide (paddedSize = shardSize * dataShards))
    (.metadataObjectImport
      "erasure_data_pack.padded_size debe coincidir con shard_size * data_shards")
  ensure (decide (payloadSize ≤ paddedSize))
    (.metadataObjectImport "erasure_data_pack.payload_size no puede ser mayor que padded_size")
  let protectionState ← requireProtectionState "erasure_data_pack.protection_state"
    (get record "protection_state")
  let placementEpoch ← optional (requireStr "erasure_data_pack.placement_epoch" true)
    (get record "placement_epoch")
  let createdAt ← requireNumber "erasure_data_pack.created_at" (get record "created_at")
  let lastPushAt ← optional (requireNumber "erasure_data_pack.last_push_at")
    (get record "last_push_at")
  let lastVerifyAt ← optional (requireNumber "erasure_data_pack.last_verify_at")
    (get record "last_verify_at")
  let lastError ← optional (requireStr "erasure_data_pack.last_error" true)
    (get record "last_error")
  let (chunks, seenGlobalChunks) ← erasureChunkRows chunkSizes record seenGlobalChunks
  let shards ← erasureShardRows record
  let pack : ErasureDataPackRow :=
    { codec, dataShards, parityShards, payloadSize, paddedSize, shardSize, protectionState,
      placementEpoch, createdAt, lastPushAt, lastVerifyAt, lastError }
  return ({ packHash, pack, chunks, shards }, seenGlobalChunks)

/-- What the traversal of the index has gathered. -/
structure ImportState where
  out : List ErasureDataPackImportRows
  seenChunks : List Text

def loadErasureDataPackRecord (chunkSizes : Dict Text Nat) (hexPrefix : Text)
    (state : ImportState) (record : PyJson) :
    Imported ImportState := do
  let record ← requireDict "erasure data pack record inválido" record
  let packHash ← requireHash64 "erasure_data_pack.pack_hash" (get record "pack_hash")
  ensure (hexPrefix.isPrefixOf packHash)
    (.metadataObjectImport "erasure data pack record fuera de su shard")
  ensure (!(state.out.map (·.packHash)).contains packHash)
    (.metadataObjectImport s!"erasure data pack duplicado: {String.ofList packHash}")
  let (rows, seenChunks) ← erasureDataPackImportRows chunkSizes record packHash state.seenChunks
  return { out := state.out ++ [rows], seenChunks }

/-- The reader of an object store: the payload of an object of the expected type. -/
abbrev Payloads := Text → MetadataObjectType → Imported Fields

def loadErasureDataPackShard (reader : Payloads) (chunkSizes : Dict Text Nat) (state : ImportState)
    (shardRef : PyJson) :
    Imported ImportState := do
  let fields ← requireDict "erasure_data_pack_index shard inválido" shardRef
  let hexPrefix ← requireStr "erasure_data_pack_index.shard.prefix" false (get fields "prefix")
  let shardHash ← requireRef "erasure_data_pack_index.shard.ref" .erasureDataPackShard
    (get fields "ref")
  let shard ← reader shardHash .erasureDataPackShard
  let same := match get shard "prefix" with
    | .str text => decide (text = hexPrefix)
    | _ => false
  ensure same (.metadataObjectImport "prefix de erasure_data_pack shard no coincide")
  let records ← requireList "erasure_data_pack_shard.records debe ser lista" (get shard "records")
  records.foldlM (loadErasureDataPackRecord chunkSizes hexPrefix) state

def requireTotal (name : String) (index : Fields) (loaded : Nat) : Imported Unit := do
  let expected ← requireInt s!"erasure_data_pack_index.{name}" 0 (get index name)
  ensure (decide (loaded = expected)) (.metadataObjectImport
    s!"erasure_data_pack_index {name} no coincide: total={expected} cargados={loaded}")

/-- The three totals are read before any of them is compared. -/
def requireTotals (index : Fields) (out : List ErasureDataPackImportRows) : Imported Unit := do
  let _ ← requireInt "erasure_data_pack_index.total_packs" 0 (get index "total_packs")
  let _ ← requireInt "erasure_data_pack_index.total_chunks" 0 (get index "total_chunks")
  let _ ← requireInt "erasure_data_pack_index.total_shards" 0 (get index "total_shards")
  requireTotal "total_packs" index out.length
  requireTotal "total_chunks" index (out.map fun rows => rows.chunks.length).sum
  requireTotal "total_shards" index (out.map fun rows => rows.shards.length).sum

def loadErasureDataPackRows (reader : Payloads) (catalog : Fields) (chunkSizes : Dict Text Nat) :
    Imported (List ErasureDataPackImportRows) := do
  let indexHash ← optional (requireRef "catalog.erasure_data_pack_index" .erasureDataPackIndex)
    (get catalog "erasure_data_pack_index")
  match indexHash with
  | none => return []
  | some indexHash => do
      let index ← reader indexHash .erasureDataPackIndex
      let shards ← requireList "erasure_data_pack_index.shards debe ser lista" (get index "shards")
      let state ← shards.foldlM (loadErasureDataPackShard reader chunkSizes)
        { out := [], seenChunks := [] }
      requireTotals index state.out
      return state.out

end Stopan.Objects.Exchange
