import Stopan.Erasure.DataPack
import Stopan.Protection.Policy

/-!
Delivery of the shards of a data pack (`push_execution.py`, with the part of `remote_client.py` that
it calls). What a target answers is arbitrary: the missing shards it lists, the results it streams,
where the stream breaks off and the order in which the targets complete.
-/

namespace Stopan.Erasure

open Stopan.Lib Stopan.Common Stopan.Protection

/-- `RemoteDataPackShardRef`, which is its own `identity_key`. -/
structure ShardRef where
  packHash : Text
  shardIndex : Nat
  shardHash : Text
  deriving DecidableEq, Repr

def createShardRef (packHash : Text) (shardIndex : Nat) (shardHash : Text) : Coded ShardRef := do
  let packHash ← requireHash "pack_hash" packHash
  let shardHash ← requireHash "shard_hash" shardHash
  return { packHash, shardIndex, shardHash }

structure ShardPayload where
  ref : ShardRef
  data : Bytes
  deriving DecidableEq, Repr

def createShardPayload (ref : ShardRef) (data : Bytes) : Coded ShardPayload := do
  ensure (!data.isEmpty) (.coding "data no puede estar vacío")
  return { ref, data }

/-- The protobuf enumeration, which is open. -/
inductive ShardStoreStatus where
  | unspecified
  | stored
  | alreadyPresent
  | rejectedHashMismatch
  | rejectedInvalidArgument
  | rejectedTooLarge
  | error
  | unrecognized (number : Int)
  deriving DecidableEq, Repr

structure ShardStoreResult where
  ref : ShardRef
  status : ShardStoreStatus
  detail : String
  deriving DecidableEq, Repr

def ShardStoreResult.isSuccess (result : ShardStoreResult) : Bool :=
  result.status == .stored || result.status == .alreadyPresent

/-- A `DataPackShardRef` message; the index is a `uint32`. -/
structure RefMessage where
  packHash : Text
  shardIndex : UInt32
  shardHash : Text
  deriving DecidableEq, Repr

structure StoreMessage where
  ref : RefMessage
  status : ShardStoreStatus
  detail : String
  deriving DecidableEq, Repr

def RefMessage.parse (message : RefMessage) : Coded ShardRef :=
  createShardRef message.packHash message.shardIndex.toNat message.shardHash

/-- What a target does with the two calls of one batch. -/
structure TargetAnswer where
  /-- An exception that leaves the task itself. -/
  taskError : Option String
  probe : Except String (List RefMessage)
  /-- The call of `ReplicateDataPackShards` fails before there is a stream. -/
  refused : Option String
  stream : List StoreMessage
  /-- The stream breaks off after its messages. -/
  broken : Option String

def describe : ErasureError → String
  | .coding message | .config message | .network message | .value message => message

/-- `probe_missing_shards`: a malformed ref of the response makes the call fail. -/
def probeMissingShards (answer : TargetAnswer) : Except String (List ShardRef) :=
  match answer.probe with
  | .error reason => .error reason
  | .ok messages =>
      match messages.mapM RefMessage.parse with
      | .error reason => .error (describe reason)
      | .ok refs => .ok refs

/-- The results read from the stream, with what stopped the reading. -/
def readStream (broken : Option String) : List StoreMessage → List ShardStoreResult × Option String
  | [] => ([], broken)
  | message :: rest =>
      match message.ref.parse with
      | .error reason => ([], some (describe reason))
      | .ok ref =>
          let (results, failure) := readStream broken rest
          ({ ref, status := message.status, detail := message.detail } :: results, failure)

def varintSize (value : Nat) : Nat := if value < 0x80 then 1 else varintSize (value >>> 7) + 1
termination_by value
decreasing_by
  rw [Nat.shiftRight_eq_div_pow]
  omega

def indexFieldSize (shardIndex : Nat) : Nat := if shardIndex = 0 then 0
    else 1 + varintSize shardIndex

def replicateRequestSize (item : ShardPayload) : Nat :=
  66 + 66 + indexFieldSize item.ref.shardIndex +
    (1 + varintSize item.data.length + item.data.length)

def retrieveResponseSize (item : ShardPayload) : Nat :=
  let inner :=
    66 + 66 + indexFieldSize item.ref.shardIndex + 2 +
      (1 + varintSize item.data.length + item.data.length) + 4
  1 + varintSize inner + inner

/-- `ensure_data_pack_shard_fits_transport`. -/
def ensureShardFitsTransport (maxMessageBytes : Int) (item : ShardPayload) : Coded Unit := do
  ensure (decide (0 < maxMessageBytes)) (.config "grpc.max_message_bytes debe ser > 0")
  ensure (decide (replicateRequestSize item ≤ maxMessageBytes)) (.config
    s!"shard EC demasiado grande para un mensaje gRPC: request_size={replicateRequestSize item} > max_message_bytes={maxMessageBytes}; shard_size={item.data.length} shard_index={item.ref.shardIndex}")
  ensure (decide (retrieveResponseSize item ≤ maxMessageBytes)) (.config
    s!"shard EC demasiado grande para recuperarse en un mensaje gRPC: response_size={retrieveResponseSize item} > max_message_bytes={maxMessageBytes}; shard_size={item.data.length} shard_index={item.ref.shardIndex}")

/-- `_dedupe_payloads`, where refs with other data are refused. -/
def dedupePayloads (ordered : Dict ShardRef ShardPayload) : List ShardPayload →
    Coded (List ShardPayload)
  | [] => .ok ordered.values
  | payload :: rest =>
      match ordered.get? payload.ref with
      | none => dedupePayloads (ordered.set payload.ref payload) rest
      | some existing => do
          ensure (decide (existing.data = payload.data))
            (.coding "payload duplicado con datos distintos")
          dedupePayloads ordered rest

/-- `replicate_shards` as its caller sees it: the results there are, and the text of a failure. -/
def replicateShards (maxMessageBytes : Int) (answer : TargetAnswer) (payloads : List ShardPayload) :
    List ShardStoreResult × Option String :=
  match dedupePayloads .empty payloads with
  | .error reason => ([], some s!"replicación remota falló: {describe reason}")
  | .ok [] => ([], none)
  | .ok ordered =>
      match ordered.mapM (ensureShardFitsTransport maxMessageBytes) with
      | .error reason => ([], some s!"replicación remota falló: {describe reason}")
      | .ok _ =>
          match answer.refused with
          | some reason => ([], some s!"replicación remota falló: {reason}")
          | none =>
              let (results, failure) := readStream answer.broken answer.stream
              (results, failure.map fun reason => s!"ReplicateDataPackShards falló: {reason}")

structure ShardPlacement where
  packHash : Text
  shardIndex : Nat
  nodeId : Text
  address : Text
  deriving DecidableEq, Repr

structure TargetBatch where
  address : Text
  payloads : List ShardPayload
  deriving DecidableEq, Repr

structure ShardPushResult where
  successfulIndexes : Finset Nat
  storedShards : Nat
  alreadyPresentShards : Nat
  failedResults : List (Text × ShardStoreResult)

def ShardPushResult.failedShards (result : ShardPushResult) : Nat := result.failedResults.length

def placementByIndex (placements : List ShardPlacement) : Dict Nat ShardPlacement :=
  Dict.ofList (placements.map fun placement => (placement.shardIndex, placement))

/-- The payload of a shard with the address at which it is to be stored. -/
def addressedPayload (packHash : Text) (placements : Dict Nat ShardPlacement)
    (shard : DataPackShard) :
    Coded (Text × ShardPayload) :=
  match placements.get? shard.shardIndex with
  | none => .error (.value s!"KeyError: {shard.shardIndex}")
  | some placement => do
      let ref ← createShardRef packHash shard.shardIndex shard.shardHash
      let payload ← createShardPayload ref shard.data
      return (placement.address, payload)

/-- `_target_batches`: one batch for each address, with its payloads in the order of the shards. -/
def targetBatches (pack : EncodedDataPack) (placements : List ShardPlacement) :
    Coded (List TargetBatch) := do
  let addressed ← pack.shards.mapM (addressedPayload pack.packHash (placementByIndex placements))
  let addresses := (orderedUnique (addressed.map Prod.fst)).insertionSort (· ≤ ·)
  return addresses.map fun address =>
    { address, payloads := (addressed.filter fun item => item.1 = address).map Prod.snd }

def failedResult (address : Text) (status : ShardStoreStatus) (detail : String) (ref : ShardRef) :
    Text × ShardStoreResult :=
  (address, { ref, status, detail })

structure AckState where
  acknowledged : Finset ShardRef
  successful : Finset Nat
  stored : Nat
  alreadyPresent : Nat
  failed : List (Text × ShardStoreResult)

/-- One result of the stream; only the first one about an expected shard counts. -/
def foldAck (address : Text) (expected : Finset ShardRef) (state : AckState)
    (result : ShardStoreResult) : AckState :=
  if result.ref ∉ expected ∨ result.ref ∈ state.acknowledged then state
  else
    let known := { state with acknowledged := insert result.ref state.acknowledged }
    if result.isSuccess then
      if result.status = .stored then
        { known with successful := insert result.ref.shardIndex state.successful,
                     stored := state.stored + 1 }
      else
        { known with
          successful := insert result.ref.shardIndex state.successful
          alreadyPresent := state.alreadyPresent + 1 }
    else { known with failed := state.failed ++ [(address, result)] }

def noShard : ShardPushResult where
  successfulIndexes := ∅
  storedShards := 0
  alreadyPresentShards := 0
  failedResults := []

/-- `_push_target_batch`. -/
def pushTargetBatch (maxMessageBytes : Int) (answer : TargetAnswer) (batch : TargetBatch) :
    ShardPushResult :=
  let refs := batch.payloads.map (·.ref)
  match probeMissingShards answer with
  | .error reason =>
      { noShard with
        failedResults :=
          refs.map (failedResult batch.address .error s!"probe remoto falló: {reason}") }
  | .ok missingRefs =>
      let missing := (missingRefs.filter fun ref => ref ∈ refs).toFinset
      let present := refs.length - missing.card
      let successful := ((refs.filter fun ref => ref ∉ missing).map (·.shardIndex)).toFinset
      if missing = ∅ then { noShard with successfulIndexes := successful,
                                         alreadyPresentShards := present }
      else
        let toSend := batch.payloads.filter fun item => item.ref ∈ missing
        let (results, failure) := replicateShards maxMessageBytes answer toSend
        let state := results.foldl (foldAck batch.address (toSend.map (·.ref)).toFinset)
          { acknowledged := ∅, successful, stored := 0, alreadyPresent := present, failed := [] }
        let unanswered := toSend.filter fun item => item.ref ∉ state.acknowledged
        { successfulIndexes := state.successful
          storedShards := state.stored
          alreadyPresentShards := state.alreadyPresent
          failedResults := state.failed ++ unanswered.map fun item =>
            failedResult batch.address .error
              (failure.getD "sin ACK remoto para el shard") item.ref }

/-- The result of the task of a batch, as the caller takes it up. -/
def completedBatch (maxMessageBytes : Int) (answers : Text → TargetAnswer) (batch : TargetBatch) :
    ShardPushResult :=
  match (answers batch.address).taskError with
  | some reason =>
      let detail := s!"ejecución del target falló: {reason}"
      { noShard with failedResults := (batch.payloads.map (·.ref)).map
                       (failedResult batch.address .error detail) }
  | none => pushTargetBatch maxMessageBytes (answers batch.address) batch

def ShardPushResult.add (total result : ShardPushResult) : ShardPushResult where
  successfulIndexes := total.successfulIndexes ∪ result.successfulIndexes
  storedShards := total.storedShards + result.storedShards
  alreadyPresentShards := total.alreadyPresentShards + result.alreadyPresentShards
  failedResults := total.failedResults ++ result.failedResults

def failedKeyLe (left right : Text × ShardStoreResult) : Bool :=
  decide (left.1 < right.1 ∨ left.1 = right.1 ∧ (left.2.ref.shardIndex < right.2.ref.shardIndex ∨
    left.2.ref.shardIndex = right.2.ref.shardIndex ∧ left.2.ref.shardHash ≤ right.2.ref.shardHash))

/-- `push_data_pack_shards` when the tasks of the batches complete in the order of `completed`. -/
def pushDataPackShards (maxMessageBytes : Int) (answers : Text → TargetAnswer)
    (completed : List TargetBatch) :
    ShardPushResult :=
  let total :=
    (completed.map (completedBatch maxMessageBytes answers)).foldl ShardPushResult.add noShard
  { total with failedResults := total.failedResults.insertionSort fun left right =>
                 failedKeyLe left right = true }

/-- `data_pack_state`. -/
def dataPackState (protectedShards dataShards totalShards : Nat) : ProtectionState :=
  protectionStateFromThresholds protectedShards totalShards dataShards .placed

end Stopan.Erasure
