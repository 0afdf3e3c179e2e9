import Stopan.Metadata.HashQueries

/-!
Protection scopes as push and verify resolve them (`stopan/protection/scope.py`): which statements
a scope takes and when SQLite accepts them.
-/

namespace Stopan.Protection

open Stopan.Lib Stopan.Common Stopan.Metadata

/-- `normalize_protection_scope`, with the `repr` of an unknown scope left out of the message. -/
def normalizeProtectionScope (scope : Option Text) (snapshotId : Option Nat) :
    Except StopanError ProtectionScope := do
  let value := strip (match scope with
    | none | some [] => "pending".toList
    | some text => text)
  match snapshotId with
  | some snapshotId =>
      let _ ← ensure (value == "pending".toList || value == "snapshot".toList)
        (.metadataDatabaseValue
          "--snapshot-id no se puede combinar con --scope distinto de snapshot.")
      return .snapshot snapshotId
  | none =>
      if value = "pending".toList then
        return .pending
      else if value = "snapshot".toList then
        throw (.metadataDatabaseValue "--scope snapshot requiere --snapshot-id.")
      else if value = "all-reachable".toList then
        return .allReachable
      else if value = "all-known-chunks".toList then
        return .allKnownChunks
      else throw (.metadataDatabaseValue "Scope de protección no soportado")

def chunkHashesForScope (db : MetadataDB) : ProtectionScope → Queried (List Text)
  | .pending => .check (db.chunkHashesForScope .pending)
  | .snapshot snapshotId => db.selectSnapshotChunkHashes snapshotId
  | .allReachable => .select 0 db.allReachableChunkHashes
  | .allKnownChunks => .select 0 db.allKnownChunkHashes

/-- The packs of a scope; every known pack for all known chunks. -/
def packHashesForScope (db : MetadataDB) (scope : ProtectionScope) : Queried (List Text) :=
  if scope = .allKnownChunks then db.allErasurePackHashes
  else do
    let chunkHashes ← chunkHashesForScope db scope
    db.erasurePackHashesForChunks chunkHashes

def replicationVerificationCandidatesForScope (db : MetadataDB) (scope : ProtectionScope)
    (includeVerified : Bool) (limit : Option Int) : Queried (List VerificationCandidate) := do
  let chunkHashes ← chunkHashesForScope db scope
  db.selectVerificationCandidatesForHashes chunkHashes includeVerified limit

def erasureVerificationCandidatesForScope (db : MetadataDB) (scope : ProtectionScope)
    (includeVerified : Bool) (limit : Option Int) : Queried (List ErasureDataPackRecord) := do
  let packHashes ← packHashesForScope db scope
  db.erasureDataPacksByHashes packHashes includeVerified limit

def erasurePackByHash (db : MetadataDB) (packHash : Text) :
    Queried (Option ErasureDataPackRecord) := do
  let records ← db.erasureDataPacksByHashes [packHash] true none
  return records.head?

def replicationPushChunksForScope (db : MetadataDB) (scope : ProtectionScope) (desiredRf : Int)
    (currentEpoch : Option Text) (limit : Option Int) : Queried (List Text) := do
  let chunkHashes ← chunkHashesForScope db scope
  db.selectPendingProtectionChunksForHashes chunkHashes desiredRf currentEpoch limit

/-- The query of `_pending_erasure_packs_by_remote_targets` for one number of shards. -/
def pendingErasurePacksFor (db : MetadataDB) (packHashes : Option (List Text))
    (target : Int × Text) :
    Queried (List ErasureDataPackRecord) :=
  match packHashes with
  | none => db.getPendingErasureDataPacks (some target.2) (some target.1) none
  | some hashes => db.pendingErasureDataPacksByHashes hashes (some target.2) (some target.1) none

def sortedTargets (currentEpochs : Dict Int Text) : List (Int × Text) :=
  currentEpochs.entries.insertionSort fun left right => left.1 ≤ right.1

def sortedByPackHash (records : List ErasureDataPackRecord) : List ErasureDataPackRecord :=
  records.insertionSort fun left right => textLe left.1 right.1 = true

def pendingErasurePacksByRemoteTargets (db : MetadataDB) (packHashes : Option (List Text))
    (currentEpochs : Dict Int Text) (limit : Option Int) :
    Queried (List ErasureDataPackRecord) := do
  let selected ← Logged.forEach (pendingErasurePacksFor db packHashes) (sortedTargets currentEpochs)
  let records := sortedByPackHash selected.flatten
  match limit with
  | none => return records
  | some bound => return records.take bound.toNat

def erasurePushRetryPacksForScope (db : MetadataDB) (scope : ProtectionScope)
    (currentEpochs : Dict Int Text)
    (limit : Option Int) : Queried (List ErasureDataPackRecord) := do
  let packHashes ← packHashesForScope db scope
  pendingErasurePacksByRemoteTargets db (some packHashes) currentEpochs limit

def erasurePushNewChunksForScope (db : MetadataDB) (scope : ProtectionScope) (limit : Option Int) :
    Queried (List Text) := do
  let chunkHashes ← chunkHashesForScope db scope
  db.erasureUnprotectedChunksForHashes chunkHashes limit

def scopedReplicationVerificationCandidates (db : MetadataDB) (scope : Option Text)
    (snapshotId : Option Nat)
    (includeVerified : Bool) (limit : Option Int) : Queried (List VerificationCandidate) := do
  let scopeValue ← .check (normalizeProtectionScope scope snapshotId)
  if scopeValue = .pending then db.selectVerificationCandidates includeVerified limit
  else replicationVerificationCandidatesForScope db scopeValue includeVerified limit

def scopedErasureVerificationCandidates (db : MetadataDB) (scope : Option Text)
    (snapshotId : Option Nat) (packHash : Option Text) (includeVerified : Bool)
    (limit : Option Int) : Queried (List ErasureDataPackRecord) :=
  match packHash with
  | some packHash => do
      let normalizedPackHash := (strip packHash).map Char.toLower
      let _ ← .check (ensure (scope == none || scope == some "pending".toList)
        (.metadataDatabaseValue "--pack-hash no se puede combinar con --scope."))
      let _ ← .check (ensure snapshotId.isNone
        (.metadataDatabaseValue "--pack-hash no se puede combinar con --snapshot-id."))
      let record ← erasurePackByHash db normalizedPackHash
      return record.toList
  | none => do
      let scopeValue ← .check (normalizeProtectionScope scope snapshotId)
      if scopeValue = .pending then db.getErasureVerificationCandidates includeVerified limit
      else erasureVerificationCandidatesForScope db scopeValue includeVerified limit

def scopedReplicationPushChunks (db : MetadataDB) (scope : Option Text)
    (snapshotId : Option Nat) (desiredRf : Int)
    (currentEpoch : Option Text) (limit : Option Int) : Queried (List Text) := do
  let scopeValue ← .check (normalizeProtectionScope scope snapshotId)
  if scopeValue = .pending then db.selectPendingProtectionChunks desiredRf currentEpoch limit
  else replicationPushChunksForScope db scopeValue desiredRf currentEpoch limit

def scopedErasurePushRetryPacks (db : MetadataDB) (scope : Option Text) (snapshotId : Option Nat)
    (currentEpochs : Dict Int Text) (limit : Option Int) :
    Queried (List ErasureDataPackRecord) := do
  let scopeValue ← .check (normalizeProtectionScope scope snapshotId)
  if scopeValue = .pending then pendingErasurePacksByRemoteTargets db none currentEpochs limit
  else erasurePushRetryPacksForScope db scopeValue currentEpochs limit

def scopedErasurePushNewChunks (db : MetadataDB) (scope : Option Text) (snapshotId : Option Nat)
    (limit : Option Int) : Queried (List Text) := do
  let scopeValue ← .check (normalizeProtectionScope scope snapshotId)
  if scopeValue = .pending then db.getErasureUnprotectedChunks limit
  else erasurePushNewChunksForScope db scopeValue limit

/-- The chunks that a scope names, none when it names no set of chunks. -/
def scopeChunks (db : MetadataDB) (scope : ProtectionScope) : List Text :=
  match db.chunkHashesForScope scope with
  | .ok hashes => hashes
  | .error _ => []

def scopePacks (db : MetadataDB) (scope : ProtectionScope) : List Text :=
  if scope = .allKnownChunks then db.knownPackHashes
    else db.packHashesOfChunks (scopeChunks db scope)

/-- A scope that the catalog can represent: the pending work, or a set of chunks that it has. -/
def Representable (db : MetadataDB) (scope : ProtectionScope) : Prop :=
  scope = .pending ∨ ∃ hashes, db.chunkHashesForScope scope = .ok hashes

section Scopes

variable {db : MetadataDB} {scope : ProtectionScope}

theorem chunkHashesForScope_result :
    (chunkHashesForScope db scope).result = db.chunkHashesForScope scope := by
  cases scope with
  | pending => rfl
  | snapshot snapshotId =>
      simp only [chunkHashesForScope, MetadataDB.selectSnapshotChunkHashes,
        MetadataDB.chunkHashesForScope]
      rw [Logged.result_bind_of_ok (Queried.result_select (by decide))]
      cases found : db.snapshots.get? snapshotId with
      | none => rfl
      | some snapshot =>
          cases status : snapshot.status <;>
            simp [status, Queried.result_select (show 1 ≤ maxVariableNumber by decide)]
  | allReachable => exact Queried.result_select (by decide)
  | allKnownChunks => exact Queried.result_select (by decide)

theorem chunkHashesForScope_withinLimit : (chunkHashesForScope db scope).WithinLimit := by
  cases scope with
  | pending => exact Logged.every_check _
  | snapshot snapshotId =>
      refine Logged.every_bind_iff.mpr ⟨Queried.withinLimit_select_iff.mpr (by decide), ?_⟩
      intro status _
      split
      · exact Logged.every_check _
      · exact Queried.withinLimit_select_iff.mpr (by decide)
      · exact Logged.every_check _
  | allReachable => exact Queried.withinLimit_select_iff.mpr (by decide)
  | allKnownChunks => exact Queried.withinLimit_select_iff.mpr (by decide)

theorem scopeChunks_listed (linked : db.Linked) : DistinctHashes (scopeChunks db scope) := by
  unfold scopeChunks
  cases resolved : db.chunkHashesForScope scope with
  | error reason => exact distinctHashes_nil
  | ok hashes => exact linked.scopeChunks resolved

theorem scopePacks_listed (linked : db.Linked) : DistinctHashes (scopePacks db scope) := by
  unfold scopePacks
  split
  · exact linked.knownPacks
  · exact linked.packsOfChunks _

/-- A query about the chunks of a scope runs on the chunks that the scope names. -/
theorem withinLimit_onChunks_iff {α : Type} {query : List Text → Queried α}
    (empty : (query []).WithinLimit) : (chunkHashesForScope db scope >>= query).WithinLimit ↔
      (query (scopeChunks db scope)).WithinLimit := by
  unfold scopeChunks
  cases resolved : db.chunkHashesForScope scope with
  | ok hashes =>
      have returned := chunkHashesForScope_result.trans resolved
      exact (Logged.every_bind_of_ok returned).trans (and_iff_right chunkHashesForScope_withinLimit)
  | error reason =>
      refine iff_of_true (Logged.every_bind_iff.mpr ⟨chunkHashesForScope_withinLimit, ?_⟩) empty
      intro hashes returned
      rw [chunkHashesForScope_result, resolved] at returned
      cases returned

theorem scopeChunks_pending : scopeChunks db .pending = [] := rfl

theorem scopeChunks_of_resolved {hashes : List Text}
    (resolved : db.chunkHashesForScope scope = .ok hashes) :
    scopeChunks db scope = hashes := by
  rw [scopeChunks, resolved]

theorem packHashesOfChunks_nil : db.packHashesOfChunks [] = [] := by
  have nothing : (db.erasurePackChunks.filter fun _ _ => false).values = [] := by
    simp [Dict.filter, Dict.values]
  simp [MetadataDB.packHashesOfChunks, nothing, sortedDistinct, orderedUnique_of_nodup]

/-- The packs of a scope are found through its chunks, in one statement that names them all. -/
def PacksListable (db : MetadataDB) (scope : ProtectionScope) : Prop :=
  scope = .allKnownChunks ∨ (scopeChunks db scope).length ≤ maxVariableNumber

theorem packHashesForScope_withinLimit_iff (linked : db.Linked) :
    (packHashesForScope db scope).WithinLimit ↔ PacksListable db scope := by
  unfold packHashesForScope PacksListable
  by_cases known : scope = .allKnownChunks
  · rw [if_pos known]
    exact iff_of_true (Queried.withinLimit_select_iff.mpr (by decide)) (.inl known)
  · have none : (db.erasurePackHashesForChunks []).WithinLimit :=
      (Queried.withinLimit_byHashes_iff distinctHashes_nil (by decide)).mpr (by decide)
    rw [if_neg known, withinLimit_onChunks_iff none, or_iff_right known]
    exact Queried.withinLimit_byHashes_iff (scopeChunks_listed linked) (by decide)

theorem packHashesForScope_result (linked : db.Linked) (listable : PacksListable db scope)
    {hashes : List Text} (resolved : db.chunkHashesForScope scope = .ok hashes) :
    (packHashesForScope db scope).result = .ok (scopePacks db scope) := by
  unfold packHashesForScope scopePacks
  by_cases known : scope = .allKnownChunks
  · rw [if_pos known, if_pos known]
    exact Queried.result_select (by decide)
  · rw [if_neg known, if_neg known,
      Logged.result_bind_of_ok (chunkHashesForScope_result.trans resolved)]
    have few := listable.resolve_left known
    rw [scopeChunks_of_resolved resolved] at few ⊢
    exact (Queried.result_byHashes_eq_ok_iff (linked.scopeChunks resolved) (by decide)
      packHashesOfChunks_nil).mpr ⟨few, rfl⟩

theorem packHashesForScope_fails
    (unresolved : ¬ ∃ hashes, db.chunkHashesForScope scope = .ok hashes) {packs : List Text} :
    (packHashesForScope db scope).result ≠ .ok packs := by
  unfold packHashesForScope
  split
  · rename_i known
    subst known
    exact absurd ⟨_, rfl⟩ unresolved
  · intro returned
    obtain ⟨hashes, resolved, -⟩ := Logged.result_bind_eq_ok_iff.mp returned
    exact unresolved ⟨hashes, chunkHashesForScope_result.symm.trans resolved⟩

theorem scopePacks_of_unresolved
    (unresolved : ¬ ∃ hashes, db.chunkHashesForScope scope = .ok hashes) :
    scopePacks db scope = [] := by
  have none : scopeChunks db scope = [] := by
    unfold scopeChunks
    cases resolved : db.chunkHashesForScope scope with
    | ok hashes => exact absurd ⟨hashes, resolved⟩ unresolved
    | error reason => rfl
  have other : scope ≠ .allKnownChunks := by
    rintro rfl
    exact unresolved ⟨_, rfl⟩
  rw [scopePacks, if_neg other, none, packHashesOfChunks_nil]

/-- A query about the packs of a scope takes the statement that finds them first. -/
theorem withinLimit_onPacks_iff {α : Type} {query : List Text → Queried α} (linked : db.Linked)
    (empty : (query []).WithinLimit) :
    (packHashesForScope db scope >>= query).WithinLimit ↔
      PacksListable db scope ∧ (query (scopePacks db scope)).WithinLimit := by
  rw [← packHashesForScope_withinLimit_iff linked]
  by_cases resolvable : ∃ hashes, db.chunkHashesForScope scope = .ok hashes
  · obtain ⟨hashes, resolved⟩ := resolvable
    by_cases within : (packHashesForScope db scope).WithinLimit
    · have listable := (packHashesForScope_withinLimit_iff linked).mp within
      exact Logged.every_bind_of_ok (packHashesForScope_result linked listable resolved)
    · exact iff_of_false (fun all => within (Logged.every_bind_iff.mp all).1)
        fun both => within both.1
  · have failing : ∀ packs, (packHashesForScope db scope).result = .ok packs →
      (query packs).WithinLimit :=
      fun packs returned => absurd returned (packHashesForScope_fails resolvable)
    rw [scopePacks_of_unresolved resolvable]
    constructor
    · intro all
      exact ⟨(Logged.every_bind_iff.mp all).1, empty⟩
    · intro both
      exact Logged.every_bind_iff.mpr ⟨both.1, failing⟩

end Scopes

end Stopan.Protection
