import Stopan.Lib.Logged
import Stopan.Metadata.Links
import Stopan.Metadata.Scope

namespace Stopan.Metadata

open Stopan.Lib Stopan.Common Stopan.Protection

/-- SQLite's default `SQLITE_MAX_VARIABLE_NUMBER`. -/
def maxVariableNumber : Nat := 32766

/-- A read of the catalog, which records the number of parameters of each statement. -/
abbrev Queried (α : Type) := Logged Nat StopanError α

def Queried.WithinLimit {α : Type} (query : Queried α) : Prop := query.Every (· ≤ maxVariableNumber)

/-- A SELECT, which SQLite refuses to prepare when it has too many parameters. -/
def Queried.select {α : Type} (parameters : Nat) (rows : α) : Queried α :=
  .note parameters
    (if parameters ≤ maxVariableNumber then .ok rows
      else .error (.operational "too many SQL variables"))

/-- `_unique_hashes`. -/
def uniqueHashes (values : List Text) : Except StopanError (List Text) := do
  let hashes ← values.mapM (requireHash64 "hash")
  return orderedUnique hashes

/-- A query by hashes: no statement without hashes, else one that names each of them and has some
more parameters. -/
def Queried.byHashes {α : Type} (values : List Text) (parameters : Nat)
    (rows : List Text → List α) :
    Queried (List α) := do
  let hashes ← .check (uniqueHashes values)
  if hashes = [] then
    return []
  .select (hashes.length + parameters) (rows hashes)

/-- The parameters of the epoch condition, which is left out without an epoch. -/
def epochParameters (currentEpoch : Option Text) : Nat :=
  match currentEpoch with
  | none => 0
  | some _ => 3

/-- The states of the queries by hashes. -/
def verifiableStates (includeVerified : Bool) : List ProtectionState :=
  [.pending, .placed, .degraded, .failed] ++ if includeVerified then [.verified] else []

/-- A pack with its `pack_hash`. -/
abbrev ErasureDataPackRecord := Text × ErasureDataPackRow

/-- The state condition of `get_pending_erasure_data_packs`. -/
def isPendingErasurePack (currentEpoch : Option Text) (row : ErasureDataPackRow) : Bool :=
  (row.protectionState == .pending || row.protectionState == .degraded ||
    row.protectionState == .failed)
    || match currentEpoch with
      | none => false
      | some epoch =>
          (row.protectionState == .placed || row.protectionState == .verified)
            && (row.placementEpoch.isNone || row.placementEpoch != some epoch)

/-- `(data_shards + parity_shards) = ?`, without which every pack has the right number of shards. -/
def hasRemoteTargets (remoteTargets : Option Int) (row : ErasureDataPackRow) : Bool :=
  match remoteTargets with
  | none => true
  | some count => decide (((row.dataShards + row.parityShards : Nat) : Int) = count)

namespace MetadataDB

/-- The packs that meet a condition, `ORDER BY pack_hash`. -/
def erasurePacksWhere (db : MetadataDB) (condition : Text → ErasureDataPackRow → Bool) :
    List ErasureDataPackRecord :=
  (db.erasureDataPacks.filter condition).entries.insertionSort fun left right =>
    textLe left.1 right.1 = true

def getPendingErasureDataPacks (db : MetadataDB) (currentEpoch : Option Text)
    (remoteTargets limit : Option Int) :
    Queried (List ErasureDataPackRecord) :=
  .select (3 + epochParameters currentEpoch + remoteTargets.toList.length + limit.toList.length)
    (applyLimit limit (db.erasurePacksWhere fun _ row =>
      isPendingErasurePack currentEpoch row && hasRemoteTargets remoteTargets row))

def pendingErasureDataPacksByHashes (db : MetadataDB) (packHashes : List Text)
    (currentEpoch : Option Text)
    (remoteTargets limit : Option Int) : Queried (List ErasureDataPackRecord) :=
  .byHashes packHashes
    (3 + epochParameters currentEpoch + remoteTargets.toList.length + limit.toList.length)
    fun hashes => applyLimit limit (db.erasurePacksWhere fun packHash row =>
      hashes.contains packHash && isPendingErasurePack currentEpoch row &&
        hasRemoteTargets remoteTargets row)

def getErasureVerificationCandidates (db : MetadataDB) (includeVerified : Bool)
    (limit : Option Int) :
    Queried (List ErasureDataPackRecord) :=
  let states := [ProtectionState.placed, .degraded, .failed] ++ if includeVerified then [.verified]
    else []
  .select (states.length + limit.toList.length)
    (applyLimit limit (db.erasurePacksWhere fun _ row => states.contains row.protectionState))

/-- `erasure_data_packs_by_hashes`, with `_select_erasure_data_pack_rows_by_hashes`. -/
def erasureDataPacksByHashes (db : MetadataDB) (packHashes : List Text) (includeVerified : Bool)
    (limit : Option Int) : Queried (List ErasureDataPackRecord) :=
  let states := verifiableStates includeVerified
  .byHashes packHashes (states.length + limit.toList.length) fun hashes =>
    applyLimit limit (db.erasurePacksWhere fun packHash row =>
      hashes.contains packHash && states.contains row.protectionState)

def packHashesOfChunks (db : MetadataDB) (hashes : List Text) : List Text :=
  sortedDistinct
    ((db.erasurePackChunks.filter fun chunkHash _ => hashes.contains chunkHash).values.map
      (·.packHash))

def erasurePackHashesForChunks (db : MetadataDB) (chunkHashes : List Text) : Queried (List Text) :=
  .byHashes chunkHashes 0 db.packHashesOfChunks

def knownPackHashes (db : MetadataDB) : List Text :=
  db.erasureDataPacks.keys.insertionSort fun left right => textLe left right = true

def allErasurePackHashes (db : MetadataDB) : Queried (List Text) := .select 0 db.knownPackHashes

/-- Chunks that no pack holds and that meet a condition. -/
def unprotectedChunks (db : MetadataDB) (condition : Text → Bool) : List Text :=
  (db.chunks.keys.filter fun hash => condition hash &&
    !db.erasurePackChunks.contains hash).insertionSort
    fun left right => textLe left right = true

def getErasureUnprotectedChunks (db : MetadataDB) (limit : Option Int) : Queried (List Text) :=
  .select limit.toList.length (applyLimit limit (db.unprotectedChunks fun _ => true))

def erasureUnprotectedChunksForHashes (db : MetadataDB) (chunkHashes : List Text)
    (limit : Option Int) :
    Queried (List Text) :=
  .byHashes chunkHashes limit.toList.length fun hashes => applyLimit limit
    (db.unprotectedChunks hashes.contains)

/-- `get_pending_protection_chunks` as a statement. -/
def selectPendingProtectionChunks (db : MetadataDB) (desiredRf : Int) (currentEpoch : Option Text)
    (limit : Option Int) : Queried (List Text) :=
  .select (4 + epochParameters currentEpoch + limit.toList.length)
    (db.getPendingProtectionChunks desiredRf currentEpoch limit)

/-- `pending_protection_chunks_for_hashes` as a statement. -/
def selectPendingProtectionChunksForHashes (db : MetadataDB)
    (chunkHashes : List Text) (desiredRf : Int)
    (currentEpoch : Option Text) (limit : Option Int) : Queried (List Text) :=
  .byHashes chunkHashes (4 + epochParameters currentEpoch + limit.toList.length)
    fun hashes => db.pendingProtectionChunksForHashes hashes desiredRf currentEpoch limit

/-- `get_verification_candidates` as a statement. -/
def selectVerificationCandidates (db : MetadataDB) (includeVerified : Bool) (limit : Option Int) :
    Queried (List VerificationCandidate) :=
  let states := [ProtectionState.placed, .degraded] ++ if includeVerified then [.verified] else []
  .select (states.length + limit.toList.length) (db.getVerificationCandidates includeVerified limit)

/-- `chunk_protection_verification_candidates_for_hashes` as a statement. -/
def selectVerificationCandidatesForHashes (db : MetadataDB) (chunkHashes : List Text)
    (includeVerified : Bool) (limit : Option Int) : Queried (List VerificationCandidate) :=
  .byHashes chunkHashes ((verifiableStates includeVerified).length + limit.toList.length)
    fun hashes => db.verificationCandidatesForHashes hashes includeVerified limit

/-- `snapshot_chunk_hashes`, after the query for the status of the snapshot. -/
def selectSnapshotChunkHashes (db : MetadataDB) (snapshotId : Nat) : Queried (List Text) := do
  let status ← .select 1 ((db.snapshots.get? snapshotId).map (·.status))
  match status with
  | none => .check (.error (.metadataDatabaseValue s!"Snapshot no existe: {snapshotId}"))
  | some .complete => .select 1 (db.snapshotChunkHashes snapshotId)
  | some status =>
      .check (.error (.metadataDatabaseValue
        s!"Snapshot no está completo: {snapshotId} status={status.value}"))

end MetadataDB

theorem orderedUnique_of_nodup {hashes : List Text} (distinct : hashes.Nodup) :
    orderedUnique hashes = hashes := by
  have pairs : ((hashes.map fun hash => (hash, ())).map Prod.fst) = hashes := by
    rw [List.map_map]
    exact List.map_id hashes
  rw [orderedUnique, Dict.keys, Dict.ofList,
    Dict.entries_update_of_disjoint (by rwa [pairs]) (by simp)]
  exact pairs

/-- What the catalog itself lists: well formed and without repetitions. -/
structure DistinctHashes (hashes : List Text) : Prop where
  valid : ∀ hash ∈ hashes, isValidBlake3Hex hash = true
  distinct : hashes.Nodup

/-- Such hashes go through the check unchanged. -/
theorem DistinctHashes.unique {hashes : List Text} (listed : DistinctHashes hashes) :
    uniqueHashes hashes = .ok hashes := by
  have checked : hashes.mapM (requireHash64 "hash") = .ok hashes := by
    rw [mapM_eq_ok_iff]
    exact List.forall₂_same.mpr fun hash member => requireHash64_of_valid (listed.valid hash member)
  rw [uniqueHashes, checked]
  exact congrArg Except.ok (orderedUnique_of_nodup listed.distinct)

theorem distinctHashes_nil : DistinctHashes [] where
  valid := by
    intro hash member
    cases member
  distinct := List.nodup_nil

theorem sortedDistinct_nodup (hashes : List Text) : (sortedDistinct hashes).Nodup :=
  (List.perm_insertionSort _ _).nodup_iff.mpr (orderedUnique_nodup hashes)

section Listed

variable {db : MetadataDB} (linked : db.Linked)

include linked

theorem MetadataDB.Linked.selectedChunks (selected : Nat → Bool) :
    DistinctHashes (db.selectedChunkHashes selected) where
  valid := by
    intro hash member
    obtain ⟨recipeId, -, member⟩ := List.mem_flatMap.mp (mem_sortedDistinct.mp member)
    obtain ⟨chunk, present, rfl⟩ := List.mem_map.mp member
    exact linked.chunkNames _ (linked.recipes recipeId chunk present)
  distinct := sortedDistinct_nodup _

theorem MetadataDB.Linked.allKnownChunks : DistinctHashes db.allKnownChunkHashes where
  valid := by
    intro hash member
    exact linked.chunkNames hash ((List.mem_insertionSort _).mp member)
  distinct := (List.perm_insertionSort _ _).nodup_iff.mpr db.chunks.keys_nodup

theorem MetadataDB.Linked.scopeChunks {scope : ProtectionScope} {hashes : List Text}
    (resolved : db.chunkHashesForScope scope = .ok hashes) : DistinctHashes hashes := by
  cases scope with
  | pending => cases resolved
  | snapshot snapshotId =>
      simp only [MetadataDB.chunkHashesForScope] at resolved
      split at resolved
      · cases resolved
      · split at resolved
        · cases resolved
          exact linked.selectedChunks _
        · cases resolved
  | allReachable =>
      cases resolved
      exact linked.selectedChunks _
  | allKnownChunks =>
      cases resolved
      exact linked.allKnownChunks

theorem MetadataDB.Linked.packsOfChunks (hashes : List Text) :
    DistinctHashes (db.packHashesOfChunks hashes) where
  valid := by
    intro packHash member
    obtain ⟨row, present, rfl⟩ := List.mem_map.mp (mem_sortedDistinct.mp member)
    obtain ⟨entry, stored, rfl⟩ := List.mem_map.mp present
    have found := (Dict.get?_filter_eq_some_iff ..).mp (Dict.get?_eq_some_iff.mpr stored)
    exact linked.packNames _ (linked.packChunks _ _ found.1)
  distinct := sortedDistinct_nodup _

theorem MetadataDB.Linked.knownPacks : DistinctHashes db.knownPackHashes where
  valid := by
    intro hash member
    exact linked.packNames hash ((List.mem_insertionSort _).mp member)
  distinct := (List.perm_insertionSort _ _).nodup_iff.mpr db.erasureDataPacks.keys_nodup

end Listed

namespace Queried

variable {α : Type}

theorem withinLimit_select_iff {parameters : Nat} {rows : α} :
    (select parameters rows).WithinLimit ↔ parameters ≤ maxVariableNumber := Logged.every_note_iff

theorem result_select {parameters : Nat} {rows : α} (fits : parameters ≤ maxVariableNumber) :
    (select parameters rows).result = .ok rows := by
  rw [select, Logged.result_note, if_pos fits]

theorem result_select_eq_ok_iff {parameters : Nat} {rows answer : α} :
    (select parameters rows).result = .ok answer ↔
      parameters ≤ maxVariableNumber ∧ answer = rows := by
  rw [select, Logged.result_note]
  split
  · rename_i fits
    simp [fits, eq_comm]
  · rename_i refused
    simp [refused]

variable {hashes : List Text} {parameters : Nat} {rows : List Text → List α}

/-- A query by the hashes of the catalog, whose other parameters fit. -/
theorem byHashes_eq (listed : DistinctHashes hashes) :
    byHashes hashes parameters rows =
      if hashes = [] then pure [] else select (hashes.length + parameters) (rows hashes) := by
  rw [byHashes, listed.unique, Logged.check_ok_bind]

theorem withinLimit_byHashes_iff (listed : DistinctHashes hashes)
    (few : parameters ≤ maxVariableNumber) : (byHashes hashes parameters rows).WithinLimit ↔
      hashes.length + parameters ≤ maxVariableNumber := by
  rw [byHashes_eq listed]
  split
  · rename_i nothing
    subst nothing
    simpa using ⟨fun _ => few, fun _ => Logged.every_pure _⟩
  · exact withinLimit_select_iff

/-- It returns its rows if and only if SQLite accepts the statement. -/
theorem result_byHashes_eq_ok_iff (listed : DistinctHashes hashes)
    (few : parameters ≤ maxVariableNumber) (nothing : rows [] = []) {answer : List α} :
    (byHashes hashes parameters rows).result = .ok answer ↔
      hashes.length + parameters ≤ maxVariableNumber ∧ answer = rows hashes := by
  rw [byHashes_eq listed]
  split
  · rename_i empty
    subst empty
    rw [Logged.result_pure, nothing]
    simp [few, eq_comm]
  · exact result_select_eq_ok_iff

end Queried

end Stopan.Metadata
