import Stopan.Replication.Push

/-!
Verification of remote copies: the placement is planned again for each replication factor and
every target is probed without transferring blobs (`verifier.py` and `verify_models.py` of
`stopan/protection/replication`).
-/

namespace Stopan.Replication

open Stopan.Lib Stopan.Common Stopan.Cluster Stopan.Protection Stopan.Metadata

/-- Everything the outside does to one target task of a verification. -/
structure VerifyAnswers where
  connect : Option Text
  probe : Nat → ProbeReply
  taskError : Option Text

structure ProbeExecutionResult where
  nodeId : Text
  address : Text
  requestedHashes : List Text
  completedHashes : List Text
  presentHashes : List Text
  transportError : Option Text
  rpcFailedCalls : Nat

/-- The batches of a probe, which keep the evidence of the calls that returned. -/
def probeTargetBatches (reply : Nat → ProbeReply) :
    Nat → List (List Text) → List Text → List Text → List Text × List Text × Option Text
  | _, [], completed, missing => (completed, missing, none)
  | call, batch :: rest, completed, missing =>
      match reply call with
      | .error reason => (completed, missing, some reason)
      | .ok hashes =>
          probeTargetBatches reply (call + 1) rest (completed ++ batch)
            (missing ++ hashes.filter fun hash => !hash.isEmpty)

def probeTarget (probeBatchHashes : Nat) (target : ClusterMember) (chunkHashes : List Text)
    (answers : VerifyAnswers) : ProbeExecutionResult :=
  let orderedHashes := orderedUnique chunkHashes
  if orderedHashes.isEmpty then
    { nodeId := target.nodeId, address := target.address, requestedHashes := [],
      completedHashes := [], presentHashes := [], transportError := none, rpcFailedCalls := 0 }
  else match answers.connect with
    | some reason =>
        { nodeId := target.nodeId, address := target.address, requestedHashes := orderedHashes,
          completedHashes := [], presentHashes := [], transportError :=
            some reason, rpcFailedCalls := 1 }
    | none =>
        let (completed, missing, failure) :=
          probeTargetBatches answers.probe 0 (iterBatches orderedHashes probeBatchHashes) [] []
        { nodeId := target.nodeId
          address := target.address
          requestedHashes := orderedHashes
          completedHashes := completed
          presentHashes := completed.filter fun chunkHash => !missing.contains chunkHash
          transportError := failure
          rpcFailedCalls := if failure.isSome then 1 else 0 }

structure VerificationAccumulator where
  desiredRf : Nat
  placementEpoch : Text
  requiredRemoteCopies : Nat
  verifiedRemoteCopies : Nat
  errors : List Text
  deriving DecidableEq, Repr

def VerificationAccumulator.errorSummary (accumulator : VerificationAccumulator) : Option Text :=
  if accumulator.requiredRemoteCopies ≤ accumulator.verifiedRemoteCopies then none
  else
    let summary := "verified_remote_copies=".toList ++ natText accumulator.verifiedRemoteCopies ++
      '/' :: natText accumulator.requiredRemoteCopies
    if accumulator.errors.isEmpty then some summary
    else some (summary ++ "; ".toList ++ (joinSemicolon accumulator.errors).take 1800)

/-- The state of `_plan` while it goes through the groups of candidates. -/
structure VerificationPlan where
  accumulators : Dict Text VerificationAccumulator
  targetChunks : Dict Text (List Text)
  targetMembers : Dict Text ClusterMember

def candidatesByRf (candidates : List VerificationCandidate) :
    Dict Nat (List VerificationCandidate) :=
  candidates.foldl (fun groups candidate => groups.modify candidate.desiredRf []
    (· ++ [candidate])) .empty

def initialAccumulator (plan : ReplicationTargetPlan) (placementEpoch : Text)
    (candidate : VerificationCandidate) :
    VerificationAccumulator :=
  let planned := ((plan.chunkTargets.get? candidate.chunkHash).getD []).length
  { desiredRf := candidate.desiredRf
    placementEpoch
    requiredRemoteCopies := candidate.desiredRf
    verifiedRemoteCopies := 0
    errors := if planned < candidate.desiredRf then
        ["targets remotos elegibles insuficientes: planned=".toList ++ natText planned ++
          " required_remote_copies=".toList ++ natText candidate.desiredRf ++
          " desired_rf=".toList ++ natText candidate.desiredRf]
      else [] }

def groupAccumulators (plan : ReplicationTargetPlan) (placementEpoch : Text)
    (accumulators : Dict Text VerificationAccumulator) (group : List VerificationCandidate) :
    Dict Text VerificationAccumulator :=
  group.foldl (fun table candidate =>
    table.set candidate.chunkHash (initialAccumulator plan placementEpoch candidate)) accumulators

def planGroup (blake3 : Blake3) (context : RemoteContext) (state : VerificationPlan)
    (entry : Nat × List VerificationCandidate) : Except StopanError VerificationPlan := do
  let plan ← planChunkReplicationTargets blake3 context.cluster (entry.2.map (·.chunkHash)) entry.1
    context.clusterToken context.originNodeId
  let placementEpoch := context.placementEpoch blake3 entry.1
  return {
    accumulators := groupAccumulators plan placementEpoch state.accumulators entry.2
    targetChunks := plan.targetChunks.entries.foldl (fun table target =>
      table.modify target.1 [] (· ++ target.2)) state.targetChunks
    targetMembers := state.targetMembers.update plan.targetMembers.entries }

def planVerification (blake3 : Blake3) (context : RemoteContext)
    (candidates : List VerificationCandidate) :
    Except StopanError VerificationPlan :=
  (candidatesByRf candidates).entries.foldlM (planGroup blake3 context)
    { accumulators := .empty, targetChunks := .empty, targetMembers := .empty }

/-- The result the aggregation sees for a target, whether its task returned or raised. -/
def completedProbe (probeBatchHashes : Nat) (plan : VerificationPlan)
    (answers : Text → VerifyAnswers) (address : Text) : Option ProbeExecutionResult :=
  (plan.targetMembers.get? address).map fun target =>
    let planned := (plan.targetChunks.get? address).getD []
    match (answers address).taskError with
    | some reason =>
        { nodeId := target.nodeId, address := target.address, requestedHashes := planned,
          completedHashes := [],
          presentHashes := [], transportError := some ("probe del target falló: ".toList ++ reason),
          rpcFailedCalls := 1 }
    | none => probeTarget probeBatchHashes target planned (answers address)

def countPresent (result : ProbeExecutionResult)
    (accumulators : Dict Text VerificationAccumulator) :
    Dict Text VerificationAccumulator :=
  result.completedHashes.foldl (fun table chunkHash =>
    if result.presentHashes.contains chunkHash then
      table.adjust chunkHash fun accumulator =>
        { accumulator with verifiedRemoteCopies := accumulator.verifiedRemoteCopies + 1 }
    else table) accumulators

def reportUnverified (result : ProbeExecutionResult)
    (accumulators : Dict Text VerificationAccumulator) :
    Dict Text VerificationAccumulator :=
  match result.transportError with
  | some (char :: message) =>
      (result.requestedHashes.filter fun chunkHash =>
        !result.completedHashes.contains chunkHash).foldl
        (fun table chunkHash => table.adjust chunkHash fun accumulator =>
          { accumulator with errors := accumulator.errors ++
            ["RPC ".toList ++ targetLabel result.nodeId result.address ++ char :: message] })
              accumulators
  | _ => accumulators

def applyProbe (probeBatchHashes : Nat) (plan : VerificationPlan) (answers : Text → VerifyAnswers)
    (accumulators : Dict Text VerificationAccumulator) (address : Text) :
    Dict Text VerificationAccumulator :=
  match completedProbe probeBatchHashes plan answers address with
  | none => accumulators
  | some result => reportUnverified result (countPresent result accumulators)

structure VerificationOutcome where
  chunkHash : Text
  desiredRf : Nat
  placementEpoch : Text
  requiredRemoteCopies : Nat
  verifiedRemoteCopies : Nat
  error : Option Text
  deriving DecidableEq, Repr

def verifyCandidates (blake3 : Blake3) (context : RemoteContext)
    (candidates : List VerificationCandidate)
    (probeBatchHashes : Nat) (answers : Text → VerifyAnswers) (completionOrder : List Text) :
    Except StopanError (List VerificationOutcome) := do
  let plan ← planVerification blake3 context candidates
  let accumulators :=
    completionOrder.foldl (applyProbe probeBatchHashes plan answers) plan.accumulators
  return candidates.filterMap fun candidate =>
    (accumulators.get? candidate.chunkHash).map fun accumulator =>
      { chunkHash := candidate.chunkHash
        desiredRf := accumulator.desiredRf
        placementEpoch := accumulator.placementEpoch
        requiredRemoteCopies := accumulator.requiredRemoteCopies
        verifiedRemoteCopies := accumulator.verifiedRemoteCopies
        error := accumulator.errorSummary }

def verificationUpdate (outcome : VerificationOutcome) : ChunkProtectionUpdate :=
  let state := replicationVerifyState outcome.verifiedRemoteCopies outcome.requiredRemoteCopies
  { chunkHash := outcome.chunkHash
    desiredRf := outcome.desiredRf
    protectionState := state
    protectedRemoteCopies := outcome.verifiedRemoteCopies
    placementEpoch := some outcome.placementEpoch
    error := if state = .verified then none
      else some (match outcome.error with
        | some (char :: message) => char :: message
        | _ => "verificación fallida".toList) }

/-- `ChunkProtectionVerifier.verify`. -/
def verify (blake3 : Blake3) (context : RemoteContext) (db : MetadataDB)
    (candidates : List VerificationCandidate) (probeBatchHashes : Nat)
    (answers : Text → VerifyAnswers) (completionOrder : List Text) (now : PyFloat) :
    Except StopanError MetadataDB :=
  let remote := candidates.filter fun candidate => candidate.desiredRf ≠ 0
  if remote.isEmpty then .ok db
  else do
    let outcomes ← verifyCandidates blake3 context remote probeBatchHashes answers completionOrder
    db.applyChunkVerificationUpdates now (outcomes.map verificationUpdate)

/-- `verify_remote_protection` once the remote context is resolved. -/
def verifyRemoteProtection (blake3 : Blake3) (context : RemoteContext) (db : MetadataDB)
    (scope : ProtectionScope) (includeVerified : Bool) (limit : Option Int) (probeBatchHashes : Nat)
    (answers : Text → VerifyAnswers)
    (completionOrder : List Text) (now : PyFloat) : Except StopanError MetadataDB := do
  let candidates ← db.scopedReplicationVerificationCandidates scope includeVerified limit
  verify blake3 context db candidates probeBatchHashes answers completionOrder now

end Stopan.Replication
