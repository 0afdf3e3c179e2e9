import Stopan.Metadata.Scope
import Stopan.Replication.Plan

/-!
Push of pending chunks: the remote client, the execution of each target's work, the aggregation
of acknowledgements and the update of `chunk_protection`
(`remote_client.py`, `push_execution.py` and `pusher.py` of `stopan/protection/replication`).
-/

namespace Stopan.Replication

open Stopan.Lib Stopan.Common Stopan.Cluster Stopan.Protection Stopan.Metadata

/-- The reply to one `ProbeMissingChunks` call: the hashes reported missing, or an RPC failure. -/
abbrev ProbeReply := Except Text (List Text)

inductive StoreStatus where
  | unspecified
  | stored
  | alreadyPresent
  | rejectedCorrupt
  | rejectedHashMismatch
  | error
  | unrecognized (code : Int)
  deriving DecidableEq, Repr

structure ReplicateResponse where
  chunkHash : Text
  status : StoreStatus
  detail : Text
  deriving DecidableEq, Repr

/-- What happens during one `ReplicateChunks` stream: how many hashes the sender thread took, which
local reads failed, the responses received in order and the errors of either side. -/
structure StreamRun where
  attempted : Nat
  readFailure : Text → Option Text
  responses : List ReplicateResponse
  senderAlive : Bool
  senderError : Option Text
  streamError : Option Text

/-- Everything the outside does to one target task of a push. -/
structure PushAnswers where
  probe : Nat → ProbeReply
  stream : Except Text StreamRun
  taskError : Option Text

structure TargetAck where
  chunkHash : Text
  nodeId : Text
  address : Text
  status : StoreStatus
  detail : Text
  deriving DecidableEq, Repr

def TargetAck.isSuccess (ack : TargetAck) : Bool :=
  ack.status == .stored || ack.status == .alreadyPresent

def TargetAck.isAlreadyPresent (ack : TargetAck) : Bool := ack.status == .alreadyPresent

def TargetAck.isStored (ack : TargetAck) : Bool := ack.status == .stored

def probeBatches (reply : Nat → ProbeReply) : Nat → List (List Text) → List Text →
    Except Text (List Text)
  | _, [], missing => .ok missing
  | call, _ :: rest, missing =>
      match reply call with
      | .error reason => .error reason
      | .ok hashes =>
          probeBatches reply (call + 1) rest (missing ++ hashes.filter fun hash => !hash.isEmpty)

def probeMissingHashes (probeBatchHashes : Nat) (reply : Nat → ProbeReply)
    (chunkHashes : List Text) :
    Except Text (List Text) :=
  probeBatches reply 0 (iterBatches (orderedUnique chunkHashes) probeBatchHashes) []

/-- `StreamingReplicationError` keeps the acknowledgements received before the failure. -/
inductive ReplicationFailure where
  | streaming (message : Text) (acks : Dict Text TargetAck)
  | other (message : Text)

/-- The acknowledgement that stands for a hash the client itself could not get stored. -/
def errorAck (nodeId address chunkHash detail : Text) : TargetAck :=
  { chunkHash, nodeId, address, status := .error, detail }

def responseAcks (nodeId address : Text) (responses : List ReplicateResponse) :
    Dict Text TargetAck :=
  .ofList ((responses.filter fun response => !response.chunkHash.isEmpty).map fun response =>
    (response.chunkHash, {
      chunkHash := response.chunkHash, nodeId, address, status :=
        response.status, detail := response.detail }))

def localFailureAcks (nodeId address : Text) (run : StreamRun) (orderedHashes : List Text) :
    List (Text × TargetAck) :=
  (orderedHashes.take run.attempted).filterMap fun chunkHash =>
    (run.readFailure chunkHash).map fun reason =>
      (chunkHash, errorAck nodeId address chunkHash ("lectura local falló: ".toList ++ reason))

def replicateMissingHashes (nodeId address : Text) (chunkHashes : List Text)
    (stream : Except Text StreamRun) :
    Except ReplicationFailure (Dict Text TargetAck) :=
  let orderedHashes := orderedUnique chunkHashes
  match stream with
  | .error reason => .error (.other reason)
  | .ok run =>
      if orderedHashes.isEmpty then .ok .empty
      else
        let acks := (responseAcks nodeId address run.responses).update
          (localFailureAcks nodeId address run orderedHashes)
        if run.senderAlive then
          .error (.streaming
            "el productor de requests no se detuvo tras completar/cancelar el stream".toList acks)
        else match run.senderError, run.streamError with
          | some reason, _ =>
              .error (.streaming ("el productor de requests falló: ".toList ++ reason) acks)
          | none, some reason =>
              .error (.streaming ("replicación por stream falló: ".toList ++ reason) acks)
          | none, none =>
              .ok (acks.update ((orderedHashes.filter fun chunkHash => !acks.contains chunkHash).map
                fun chunkHash =>
                (chunkHash, errorAck nodeId address chunkHash
                  "el stream terminó sin ACK para el chunk".toList)))

structure TargetExecutionResult where
  nodeId : Text
  address : Text
  acks : Dict Text TargetAck
  transportError : Option Text

def executeTargetPlan (probeBatchHashes : Nat) (target : ClusterMember) (chunkHashes : List Text)
    (answers : PushAnswers) : TargetExecutionResult :=
  let orderedHashes := orderedUnique chunkHashes
  let result (acks : Dict Text TargetAck) (transportError : Option Text) : TargetExecutionResult :=
    { nodeId := target.nodeId, address := target.address, acks, transportError }
  match probeMissingHashes probeBatchHashes answers.probe orderedHashes with
  | .error reason => result .empty (some ("probe falló: ".toList ++ reason))
  | .ok missing =>
      let toSend := orderedHashes.filter fun chunkHash => missing.contains chunkHash
      let present : Dict Text TargetAck :=
        .ofList ((orderedHashes.filter fun chunkHash => !missing.contains chunkHash).map
          fun chunkHash =>
          (chunkHash, {
            chunkHash, nodeId := target.nodeId, address :=
              target.address, status := .alreadyPresent,
            detail := "ya presente en target remoto".toList }))
      if toSend.isEmpty then result present none
      else match replicateMissingHashes target.nodeId target.address toSend answers.stream with
        | .ok acks => result (present.update acks.entries) none
        | .error (.streaming message acks) => result (present.update acks.entries) (some message)
        | .error (.other reason) =>
            result present (some ("replicación por stream falló: ".toList ++ reason))

structure ChunkAccumulator where
  requiredRemoteCopies : Nat
  storedRemoteCopies : Nat
  alreadyPresentRemoteCopies : Nat
  errors : List Text
  deriving DecidableEq, Repr

def ChunkAccumulator.protectedRemoteCopies (accumulator : ChunkAccumulator) : Nat :=
  accumulator.storedRemoteCopies + accumulator.alreadyPresentRemoteCopies

def ChunkAccumulator.addError (accumulator : ChunkAccumulator)
    (message : Text) : ChunkAccumulator :=
  { accumulator with errors := accumulator.errors ++ [message] }

def targetLabel (nodeId address : Text) : Text := nodeId.take 8 ++ '@' :: address ++ ": ".toList

/-- What one planned occurrence of a chunk adds to its accumulator. -/
def accumulateAck (result : TargetExecutionResult) (chunkHash : Text)
    (accumulator : ChunkAccumulator) :
    ChunkAccumulator :=
  match result.acks.get? chunkHash with
  | none =>
      match result.transportError with
      | some (char :: message) =>
          accumulator.addError (targetLabel result.nodeId result.address ++ char :: message)
      | _ => accumulator.addError (targetLabel result.nodeId result.address ++ "falta ACK".toList)
  | some ack =>
      if ack.isSuccess then
        if ack.isAlreadyPresent then
          { accumulator with
            alreadyPresentRemoteCopies := accumulator.alreadyPresentRemoteCopies + 1 }
        else if ack.isStored then
          { accumulator with storedRemoteCopies := accumulator.storedRemoteCopies + 1 }
        else accumulator
      else accumulator.addError (targetLabel ack.nodeId ack.address ++ ack.detail)

def applyTargetResult (plannedHashes : List Text) (result : TargetExecutionResult)
    (accumulators : Dict Text ChunkAccumulator) : Dict Text ChunkAccumulator :=
  plannedHashes.foldl
    (fun table chunkHash => table.adjust chunkHash (accumulateAck result chunkHash)) accumulators

/-- The result the aggregation sees for a target, whether its task returned or raised. -/
def completedResult (probeBatchHashes : Nat) (plan : ReplicationTargetPlan)
    (answers : Text → PushAnswers) (address : Text) : Option TargetExecutionResult :=
  (plan.targetMembers.get? address).map fun target =>
    match (answers address).taskError with
    | some reason =>
        { nodeId := target.nodeId, address := target.address, acks := .empty,
          transportError := some ("ejecución del target falló: ".toList ++ reason) }
    | none => executeTargetPlan probeBatchHashes target (plan.assigned address) (answers address)

/-- One completed target, in the order in which the tasks finish. -/
def applyCompleted (probeBatchHashes : Nat) (plan : ReplicationTargetPlan)
    (answers : Text → PushAnswers)
    (accumulators : Dict Text ChunkAccumulator) (address : Text) : Dict Text ChunkAccumulator :=
  match completedResult probeBatchHashes plan answers address with
  | none => accumulators
  | some result => applyTargetResult (plan.assigned address) result accumulators

structure ChunkReplicationOutcome where
  chunkHash : Text
  requiredRemoteCopies : Nat
  protectedRemoteCopies : Nat
  storedRemoteCopies : Nat
  alreadyPresentRemoteCopies : Nat
  error : Option Text
  deriving DecidableEq, Repr

def joinSemicolon : List Text → Text
  | [] => []
  | [text] => text
  | text :: rest => text ++ "; ".toList ++ joinSemicolon rest

def chunkOutcome (plan : ReplicationTargetPlan) (accumulators : Dict Text ChunkAccumulator)
    (requiredRemoteCopies : Nat) (chunkHash : Text) : ChunkReplicationOutcome :=
  match plan.chunkTargets.get? chunkHash, accumulators.get? chunkHash with
  | some (_ :: _), some accumulator =>
      { chunkHash
        requiredRemoteCopies := accumulator.requiredRemoteCopies
        protectedRemoteCopies := accumulator.protectedRemoteCopies
        storedRemoteCopies := accumulator.storedRemoteCopies
        alreadyPresentRemoteCopies := accumulator.alreadyPresentRemoteCopies
        error := if accumulator.errors.isEmpty then none
          else some (joinSemicolon accumulator.errors) }
  | _, _ =>
      { chunkHash
        requiredRemoteCopies
        protectedRemoteCopies := 0
        storedRemoteCopies := 0
        alreadyPresentRemoteCopies := 0
        error := some "no se planificaron targets remotos para el chunk".toList }

def initialAccumulators (plan : ReplicationTargetPlan) (orderedHashes : List Text) :
    Dict Text ChunkAccumulator :=
  .ofList (orderedHashes.map fun chunkHash =>
    (chunkHash, {
      requiredRemoteCopies := ((plan.chunkTargets.get? chunkHash).getD []).length
      storedRemoteCopies := 0
      alreadyPresentRemoteCopies := 0
      errors := [] }))

/-- The cluster side of a push or a verification. -/
structure RemoteContext where
  cluster : ClusterView
  originNodeId : Text
  clusterToken : Text

/-- One outcome for each chunk, after every target task has completed in the given order. -/
def pushChunkReplicas (blake3 : Blake3) (context : RemoteContext) (chunkHashes : List Text)
    (requiredRemoteCopies : Nat) (probeBatchHashes : Nat) (answers : Text → PushAnswers)
    (completionOrder : List Text) : Except StopanError (List ChunkReplicationOutcome) := do
  let orderedHashes := orderedUnique chunkHashes
  let plan ← planChunkReplicationTargets blake3 context.cluster orderedHashes requiredRemoteCopies
    context.clusterToken context.originNodeId
  let accumulators := completionOrder.foldl (applyCompleted probeBatchHashes plan answers)
    (initialAccumulators plan orderedHashes)
  return orderedHashes.map (chunkOutcome plan accumulators requiredRemoteCopies)

def natText (value : Nat) : Text := Nat.toDigits 10 value

def pushUpdate (desiredRf : Nat) (placementEpoch : Text) (outcome : ChunkReplicationOutcome) :
    ChunkProtectionUpdate :=
  let state := replicationPushState outcome.protectedRemoteCopies desiredRf
  { chunkHash := outcome.chunkHash
    desiredRf := desiredRf
    protectionState := state
    protectedRemoteCopies := outcome.protectedRemoteCopies
    placementEpoch := some placementEpoch
    error := match state with
      | .placed => none
      | .degraded =>
          let partialMessage := "placement parcial: protected_remote_copies=".toList ++
            natText outcome.protectedRemoteCopies ++ '/' :: natText desiredRf ++
            " (planned_targets=".toList ++ natText outcome.requiredRemoteCopies ++ [')']
          some (match outcome.error with
            | some (char :: message) => partialMessage ++ "; ".toList ++ char :: message
            | _ => partialMessage)
      | _ =>
          some (match outcome.error with
            | some (char :: message) => char :: message
            | _ => "replicación fallida sin copias remotas protegidas".toList) }

/-- The loop that flushes `pending_updates` whenever `commit_every` of them are waiting. The result
is the catalog together with the error that stopped the loop, if any. -/
def recordUpdates (commitEvery : Nat) (clock : Nat → PyFloat) :
    Nat → MetadataDB → List ChunkProtectionUpdate → List ChunkProtectionUpdate →
      MetadataDB × Option StopanError
  | flush, db, waiting, [] =>
      match db.applyChunkPushUpdates (clock flush) waiting with
      | .error reason => (db, some reason)
      | .ok next => (next, none)
  | flush, db, waiting, update :: rest =>
      if commitEvery ≤ (waiting ++ [update]).length then
        match db.applyChunkPushUpdates (clock flush) (waiting ++ [update]) with
        | .error reason => (db, some reason)
        | .ok next => recordUpdates commitEvery clock (flush + 1) next [] rest
      else recordUpdates commitEvery clock flush db (waiting ++ [update]) rest

structure PushRequest where
  rf : Int
  strictRf : Bool
  scope : ProtectionScope
  limit : Option Int
  commitEvery : Nat
  probeBatchHashes : Nat
  interruptedAfter : Option Nat

def RemoteContext.placementEpoch (blake3 : Blake3) (context : RemoteContext)
    (remoteTargets : Nat) : Text :=
  context.cluster.placementEpochExcluding blake3 remoteTargets context.clusterToken
    [context.originNodeId]

/-- The catalog on which a push works: the default scope first marks stale evidence. -/
def markedForPush (blake3 : Blake3) (context : RemoteContext) (db : MetadataDB)
    (request : PushRequest) :
    MetadataDB :=
  if request.scope = .pending then
    db.markStaleProtection request.rf (some (context.placementEpoch blake3 request.rf.toNat))
  else db

/-- The chunks that a push selects. -/
def selectedForPush (blake3 : Blake3) (context : RemoteContext) (db : MetadataDB)
    (request : PushRequest) :
    Except StopanError (List Text) :=
  (markedForPush blake3 context db request).scopedReplicationPushChunks request.scope request.rf
    (some (context.placementEpoch blake3 request.rf.toNat)) request.limit

/-- `push_to_network` once the remote context is resolved. An interruption leaves the outcomes that
were not yet consumed unrecorded. -/
def pushToNetwork (blake3 : Blake3) (context : RemoteContext) (db : MetadataDB)
    (request : PushRequest)
    (answers : Text → PushAnswers) (completionOrder : List Text) (clock : Nat → PyFloat) :
    MetadataDB × Option StopanError :=
  if request.rf < 1 then (db, some (.configValue "push requiere rf >= 1."))
  else
    let desiredRf := request.rf.toNat
    let candidates := context.cluster.candidateNodeIdsExcluding [context.originNodeId]
    if request.strictRf && decide (candidates.length < desiredRf) then (db, none)
    else
      let marked := markedForPush blake3 context db request
      match selectedForPush blake3 context db request with
      | .error reason => (marked, some reason)
      | .ok pendingChunks =>
          if pendingChunks.isEmpty then (marked, none)
          else match pushChunkReplicas blake3 context pendingChunks desiredRf
              request.probeBatchHashes answers
              completionOrder with
            | .error reason => (marked, some reason)
            | .ok outcomes =>
                let consumed := match request.interruptedAfter with
                  | none => outcomes
                  | some count => outcomes.take count
                recordUpdates (max 1 request.commitEvery) clock 0 marked []
                  (consumed.map (pushUpdate desiredRf (context.placementEpoch blake3 desiredRf)))

end Stopan.Replication
