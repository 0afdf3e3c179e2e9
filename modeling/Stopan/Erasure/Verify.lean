import Stopan.Erasure.CatalogRuns
import Stopan.Lib.Batches
import Stopan.Metadata.HashQueries
import Stopan.Restore.ErasureFetch

/-!
Verification of data packs (`protection/ec/verifier.py`): the shards of all packs are grouped by the
address of their nodes, each address is probed in batches, and a pack is verified by the shards that
its addresses did not report missing.
-/

namespace Stopan.Erasure

open Stopan.Lib Stopan.Common Stopan.Protection Stopan.Metadata Stopan.Restore

/-- Everything the outside does to the task of one address. -/
structure ShardProbeAnswers where
  /-- An exception that leaves the task itself. -/
  taskError : Option String
  /-- The answer to the probe of each batch. -/
  probe : Nat → TargetAnswer

structure AddressProbeOutcome where
  completedKeys : List ShardRef
  missingKeys : List ShardRef
  error : Option String
  rpcFailedCalls : Nat

/-- `_probe_address`. -/
def probeAddress (probeBatchHashes : Nat) (refs : List ShardRef) (answers : ShardProbeAnswers) :
    AddressProbeOutcome :=
  let (completed, missing, failure) :=
    askBatches (fun call => probeMissingShards (answers.probe call)) 0
      (iterBatches refs probeBatchHashes) [] []
  { completedKeys := completed
    missingKeys := missing
    error := failure
    rpcFailedCalls := if failure.isSome then 1 else 0 }

structure PackVerificationAccumulator where
  pack : ErasureDataPackRecord
  totalShards : Nat
  verifiedShardIndexes : Finset Nat
  errors : List String
  metadataComplete : Bool

def PackVerificationAccumulator.errorSummary (accumulator : PackVerificationAccumulator) :
    Option Text :=
  if accumulator.errors.isEmpty then none
  else some (("; ".intercalate accumulator.errors).toList.take 1800)

def erasureShardMetadataError (shardRows : List ErasureShardEntry) (totalShards : Nat) :
    Option String :=
  let indexes := (shardRows.map (·.shardIndex)).insertionSort (· ≤ ·)
  let expectedIndexes := List.range totalShards
  if indexes ≠ expectedIndexes then
    some s!"metadata EC incoherente: shard_indexes={indexes} expected={expectedIndexes}"
  else if ¬ (shardRows.map (·.nodeId)).Nodup then
    some "metadata EC incoherente: los shards deben estar asignados a nodos distintos"
  else none

/-- The errors of `group_erasure_shard_refs_by_address` with short node ids. -/
def offlineErrors (nodeAddresses : Dict Text Text) (shardRows : List ErasureShardEntry) :
    List String :=
  (shardRows.filter fun row => (nodeAddresses.get? row.nodeId).isNone).map fun row =>
    let nodeLabel := short row.nodeId
    s!"shard={row.shardIndex}: nodo {nodeLabel} offline/ilocalizable"

/-- The state of `_verify_candidates` while it goes through the packs. -/
structure PackVerificationPlan where
  accumulators : Dict Text PackVerificationAccumulator
  refsByAddress : Dict Text (List ShardRef)

def PackVerificationPlan.planned (plan : PackVerificationPlan) (address : Text) : List ShardRef :=
  (plan.refsByAddress.get? address).getD []

def planPack (db : MetadataDB) (nodeAddresses : Dict Text Text) (plan : PackVerificationPlan)
    (pack : ErasureDataPackRecord) : Except StopanError PackVerificationPlan :=
  let shardRows := db.getErasurePackShards pack.1
  let totalShards := pack.2.dataShards + pack.2.parityShards
  match erasureShardMetadataError shardRows totalShards with
  | some metadataError =>
      .ok { plan with
        accumulators := plan.accumulators.set pack.1 {
          pack, totalShards, verifiedShardIndexes := ∅, errors :=
            [metadataError], metadataComplete := false } }
  | none =>
      match groupErasureShardRefsByAddress pack.1 nodeAddresses shardRows with
      | .error reason => .error (.erasure (describe reason))
      | .ok groups =>
          .ok {
            accumulators := plan.accumulators.set pack.1 {
              pack, totalShards, verifiedShardIndexes := ∅, errors :=
                offlineErrors nodeAddresses shardRows,
              metadataComplete := true }
            refsByAddress := groups.refsByAddress.entries.foldl (fun table target =>
              table.modify target.1 [] (· ++ target.2)) plan.refsByAddress }

def planPacks (db : MetadataDB) (nodeAddresses : Dict Text Text)
    (candidates : List ErasureDataPackRecord) :
    Except StopanError PackVerificationPlan := do
  let _ ← uniqueHashes (candidates.map Prod.fst)
  candidates.foldlM (planPack db nodeAddresses) { accumulators := .empty, refsByAddress := .empty }

/-- What the aggregation sees for an address, whether its task returned or raised. -/
def completedProbe (probeBatchHashes : Nat) (plan : PackVerificationPlan)
    (answers : Text → ShardProbeAnswers) (address : Text) : AddressProbeOutcome :=
  match (answers address).taskError with
  | some reason =>
      { completedKeys := [], missingKeys := [], error := some reason, rpcFailedCalls := 1 }
  | none => probeAddress probeBatchHashes (plan.planned address) (answers address)

/-- The shard was probed at the address and not reported missing. -/
def AddressProbeOutcome.confirms (outcome : AddressProbeOutcome) (ref : ShardRef) : Bool :=
  outcome.completedKeys.contains ref && !outcome.missingKeys.contains ref

def addVerified (outcome : AddressProbeOutcome)
    (accumulators : Dict Text PackVerificationAccumulator) (ref : ShardRef) :
    Dict Text PackVerificationAccumulator :=
  if outcome.confirms ref then
    accumulators.adjust ref.packHash fun accumulator =>
      { accumulator with
        verifiedShardIndexes := insert ref.shardIndex accumulator.verifiedShardIndexes }
  else accumulators

def addPackError (message : String) (accumulators : Dict Text PackVerificationAccumulator)
    (packHash : Text) :
    Dict Text PackVerificationAccumulator :=
  accumulators.adjust packHash fun accumulator =>
    { accumulator with errors := accumulator.errors ++ [message] }

/-- The shards that were probed and reported missing, by pack. -/
def missingByPack (outcome : AddressProbeOutcome) (refs : List ShardRef) : Dict Text (List Nat) :=
  (refs.filter fun ref => outcome.completedKeys.contains ref &&
    outcome.missingKeys.contains ref).foldl
    (fun groups ref => groups.modify ref.packHash [] (· ++ [ref.shardIndex])) .empty

def reportMissing (address : Text) (outcome : AddressProbeOutcome) (refs : List ShardRef)
    (accumulators : Dict Text PackVerificationAccumulator) :
    Dict Text PackVerificationAccumulator :=
  (missingByPack outcome refs).entries.foldl (fun table group =>
    let indexes := group.2.insertionSort (· ≤ ·)
    let label := String.ofList address
    addPackError s!"{label}: missing_shards={indexes}" table group.1) accumulators

def reportUnprobed (address : Text) (outcome : AddressProbeOutcome) (refs : List ShardRef)
    (accumulators : Dict Text PackVerificationAccumulator) :
    Dict Text PackVerificationAccumulator :=
  match outcome.error with
  | none => accumulators
  | some reason =>
      let label := String.ofList address
      (orderedUnique ((refs.filter fun ref => !outcome.completedKeys.contains ref).map
        (·.packHash))).foldl
        (addPackError s!"RPC {label}: {reason}") accumulators

def applyAddressOutcome (probeBatchHashes : Nat) (plan : PackVerificationPlan)
    (answers : Text → ShardProbeAnswers) (accumulators : Dict Text PackVerificationAccumulator)
    (address : Text) : Dict Text PackVerificationAccumulator :=
  let outcome := completedProbe probeBatchHashes plan answers address
  let refs := plan.planned address
  reportUnprobed address outcome refs
    (reportMissing address outcome refs (refs.foldl (addVerified outcome) accumulators))

structure PackVerificationOutcome where
  protectionState : ProtectionState
  verifiedShardIndexes : Finset Nat
  error : Option Text

def PackVerificationAccumulator.outcome (accumulator : PackVerificationAccumulator) :
    PackVerificationOutcome :=
  let confirmed := accumulator.verifiedShardIndexes.card
  if !accumulator.metadataComplete then
    { protectionState := .failed
      verifiedShardIndexes := accumulator.verifiedShardIndexes
      error := accumulator.errorSummary }
  else if accumulator.totalShards ≤ confirmed then
    { protectionState := .verified, verifiedShardIndexes := accumulator.verifiedShardIndexes,
      error := none }
  else
    { protectionState := dataPackState confirmed accumulator.pack.2.dataShards
        accumulator.totalShards
      verifiedShardIndexes := accumulator.verifiedShardIndexes
      error := match accumulator.errorSummary with
        | some (char :: summary) => some (char :: summary)
        | _ => some s!"verified_shards={confirmed}/{accumulator.totalShards}".toList }

def packUpdate (pack : ErasureDataPackRecord) (outcome : PackVerificationOutcome) :
    ErasureDataPackVerificationUpdate where
  packHash := pack.1
  protectionState := outcome.protectionState
  verifiedShardIndexes := (outcome.verifiedShardIndexes.sort (· ≤ ·)).map Int.ofNat
  error := outcome.error

/-- `ErasureDataPackVerifier.verify`. -/
def verifyPacks (db : MetadataDB) (nodeAddresses : Dict Text Text)
    (candidates : List ErasureDataPackRecord) (probeBatchHashes : Nat)
    (answers : Text → ShardProbeAnswers) (completionOrder : List Text) (now : PyFloat) :
    Except StopanError MetadataDB :=
  if candidates.isEmpty then .ok db
  else do
    let plan ← planPacks db nodeAddresses candidates
    let accumulators :=
      completionOrder.foldl (applyAddressOutcome probeBatchHashes plan answers) plan.accumulators
    let updates := candidates.filterMap fun pack =>
      (accumulators.get? pack.1).map fun accumulator => packUpdate pack accumulator.outcome
    db.applyErasureDataPackVerifications updates now

end Stopan.Erasure
