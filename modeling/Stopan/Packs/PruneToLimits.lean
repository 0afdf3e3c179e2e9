import Stopan.Packs.DistributedStore

namespace Stopan.Packs

open Stopan.Lib Stopan.Common

/-- A pruning loop with a reporter: the records whose paths it has been given. -/
structure PruneRun where
  state : PruneState
  candidates : List PackRecord

def PruneRun.start (store : PackStore) (bytesNeeded countNeeded : Nat) (errors : List String) :
    PruneRun where
  state := .start store bytesNeeded countNeeded errors
  candidates := []

section Loops

variable (config : PackStoreConfig) (deletionError : PackKey → Option String) (dryRun : Bool)

/-- One record of a loop. A dry run takes the size of the record for what would be deleted. -/
def visitRecord (run : PruneRun) (record : PackRecord) : PruneRun where
  state :=
    if dryRun then
      { run.state with
        prunedCount := run.state.prunedCount + 1
        prunedBytes := run.state.prunedBytes + record.sizeBytes
        remainingBytes := run.state.remainingBytes - record.sizeBytes
        remainingCount := run.state.remainingCount - 1 }
    else pruneOne config deletionError run.state record
  candidates := run.candidates ++ [record]

def visitLoop : List PackRecord → PruneRun → PruneRun
  | [], run => run
  | record :: rest, run =>
      if run.state.remainingBytes = 0 ∧ run.state.remainingCount = 0 then run
      else visitLoop rest (visitRecord config deletionError dryRun run record)

/-- `_prune_records_unlocked`. -/
def pruneRecordsReporting (store : PackStore) (candidates : List PackRecord)
    (bytesNeeded countNeeded : Nat)
    (protectedPackHash : Text) (errors : List String) : PruneRun × Option PackStoreError :=
  let ordered :=
    sortedByAge (candidates.filter fun record => record.key.packHash != protectedPackHash)
  let run :=
    visitLoop config deletionError dryRun ordered (.start store bytesNeeded countNeeded errors)
  if run.state.remainingBytes > 0 ∨ run.state.remainingCount > 0 then (run, some pruneShortage)
    else (run, none)

def cutoffOf (now : Int) : Option Int :=
  if config.maxAgeDays = 0 then none else some (now - config.maxAgeDays * nanosecondsPerDay)

/-- `_prune_expired_records_unlocked`. -/
def pruneExpiredReporting (store : PackStore) (records : List PackRecord)
    (protectedPackHash : Text) (now : Int) (errors : List String) : PruneRun × Option Int :=
  match cutoffOf config now with
  | none => (.start store 0 0 errors, none)
  | some cutoff =>
      let expired := sortedByAge (records.filter fun record =>
        record.key.packHash != protectedPackHash && decide (record.storedAt < cutoff))
      (expired.foldl (visitRecord config deletionError dryRun) (.start store 0 0 errors),
        some cutoff)

end Loops

/-- The quota passes so far; `records` are the packs that the passes still count. -/
structure PruneTotals where
  store : PackStore
  records : List PackRecord
  candidates : List PackRecord
  quotaCount : Nat
  quotaBytes : Nat
  errors : List String

section Passes

variable (blake3 : Blake3) (config : PackStoreConfig) (deletionError : PackKey → Option String)
  (dryRun : Bool)

def PruneTotals.add (totals : PruneTotals) (run : PruneRun) : PruneTotals :=
  { totals with
    store := run.state.store
    candidates := totals.candidates ++ run.candidates
    quotaCount := totals.quotaCount + run.state.prunedCount
    quotaBytes := totals.quotaBytes + run.state.prunedBytes
    errors := run.state.errors }

def recordsOfOwner (records : List PackRecord) (ownerId : Text) : List PackRecord :=
  records.filter fun record => record.key.ownerId == ownerId

/-- A dry run takes the packs that it has counted as pruned from the packs in memory. -/
def forgetPruned (records ownerRecords : List PackRecord) (count : Nat) : List PackRecord :=
  let deletedKeys := ((sortedByAge ownerRecords).take count).map PackRecord.key
  records.filter fun record => decide (record.key ∉ deletedKeys)

/-- The pass over one owner. -/
def pruneOwnerToLimits (totals : PruneTotals) (ownerId : Text) :
    PruneTotals × Option PackStoreError :=
  let ownerRecords := recordsOfOwner totals.records ownerId
  let countExcess := ownerRecords.length - config.maxPacksPerOwner
  let bytesExcess := totalSize ownerRecords - config.maxTotalBytesPerOwner
  if countExcess = 0 ∧ bytesExcess = 0 then (totals, none)
  else
    match pruneRecordsReporting config deletionError dryRun totals.store ownerRecords
        bytesExcess countExcess []
        totals.errors with
    | (run, some reason) => (totals.add run, some reason)
    | (run, none) =>
        let pruned := totals.add run
        (if dryRun then
          { pruned with records := forgetPruned totals.records ownerRecords run.state.prunedCount }
          else pruned, none)

def pruneOwnersToLimits : List Text → PruneTotals → PruneTotals × Option PackStoreError
  | [], totals => (totals, none)
  | ownerId :: rest, totals =>
      match pruneOwnerToLimits config deletionError dryRun totals ownerId with
      | (totals, some reason) => (totals, some reason)
      | (totals, none) => pruneOwnersToLimits rest totals

/-- The pass over all owners. -/
def pruneStoreToLimits (totals : PruneTotals) : PruneTotals × Option PackStoreError :=
  let globalRecords := if dryRun then totals.records else allPackRecords blake3 totals.store
  let bytesExcess := totalSize globalRecords - config.maxTotalStoreBytes
  if bytesExcess = 0 then (totals, none)
  else
    let (run, shortage) :=
      pruneRecordsReporting config deletionError dryRun totals.store globalRecords bytesExcess 0 []
      totals.errors
    (totals.add run, shortage)

structure PruneResult where
  rootDir : String
  dryRun : Bool
  maxAgeDays : Nat
  cutoff : Option Int
  packsSeen : Nat
  ownersSeen : Nat
  expiredPacks : Nat
  quotaPacks : Nat
  prunedPacks : Nat
  prunedBytes : Nat
  errors : List String
  deriving DecidableEq, Repr

/-- The store as a call leaves it, the paths it has reported, and its result or the exception. -/
structure PruneReport where
  store : PackStore
  reported : List String
  result : Except PackStoreError PruneResult

def ownersOf (records : List PackRecord) : List Text :=
  orderedUnique (records.map fun record => record.key.ownerId)

/-- The packs that the owner passes start from: a dry run leaves the expired ones out, else the disk
is listed again. -/
def recordsAfterExpiry (initial : List PackRecord) (cutoff : Option Int) (store : PackStore) :
    List PackRecord :=
  if dryRun then
    match cutoff with
    | none => initial
    | some cutoff => initial.filter fun record => decide (cutoff ≤ record.storedAt)
  else allPackRecords blake3 store

/-- The passes over the owners and over all of them. -/
def pruneQuotas (start : PruneTotals) : PruneTotals × Option PackStoreError :=
  match pruneOwnersToLimits config deletionError dryRun
    ((ownersOf start.records).insertionSort (· ≤ ·)) start with
  | (totals, some reason) => (totals, some reason)
  | (totals, none) => pruneStoreToLimits blake3 config deletionError dryRun totals

/-- `prune_to_limits`. -/
def pruneToLimits (store : PackStore) (now : Int) : PruneReport :=
  let initial := allPackRecords blake3 store
  let (expired, cutoff) := pruneExpiredReporting config deletionError dryRun store initial [] now []
  let records := recordsAfterExpiry blake3 dryRun initial cutoff expired.state.store
  let (totals, failure) := pruneQuotas blake3 config deletionError dryRun {
    store := expired.state.store
    records
    candidates := expired.candidates
    quotaCount := 0
    quotaBytes := 0
    errors := expired.state.errors }
  {
    store := totals.store
    reported := totals.candidates.map fun record => packPath config record.key
    result := match failure with
      | some reason => .error reason
      | none => .ok {
          rootDir := config.rootDir
          dryRun
          maxAgeDays := config.maxAgeDays
          cutoff
          packsSeen := initial.length
          ownersSeen := (ownersOf initial).length
          expiredPacks := expired.state.prunedCount
          quotaPacks := totals.quotaCount
          prunedPacks := expired.state.prunedCount + totals.quotaCount
          prunedBytes := expired.state.prunedBytes + totals.quotaBytes
          errors := totals.errors }
  }

end Passes

end Stopan.Packs
