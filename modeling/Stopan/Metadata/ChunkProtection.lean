import Stopan.Lib.Result
import Stopan.Metadata.Schema

namespace Stopan.Metadata

open Stopan.Lib Stopan.Common Stopan.Protection

/-- One conflict resolution of `_ensure_recipe_protection`. -/
def ensureProtectionRow (desiredRf : Nat) (table : Dict Text ProtectionRecord) (chunkHash : Text) :
    Dict Text ProtectionRecord :=
  match table.get? chunkHash with
  | none =>
      table.set chunkHash {
        desiredRf
        protectionState := .pending
        protectedRemoteCopies := 0
        placementEpoch := none
        lastPushAt := none
        lastVerifyAt := none
        lastError := none }
  | some row =>
      if row.desiredRf < desiredRf then
        table.set chunkHash { row with
          desiredRf := max row.desiredRf desiredRf
          protectionState := if row.isProtected then .degraded else row.protectionState
          lastError := if row.isProtected then some "desired_rf increased".toList
            else row.lastError }
      else table

/-- `SELECT DISTINCT chunk_hash` over the rows of a recipe. -/
def MetadataDB.recipeChunkHashes (db : MetadataDB) (recipeId : Nat) : List Text :=
  orderedUnique ((db.recipeChunkEntries recipeId).map (·.chunkHash))

def MetadataDB.ensureRecipeProtection (db : MetadataDB) (recipeId desiredRf : Nat) : MetadataDB :=
  { db with
    chunkProtection :=
      (db.recipeChunkHashes recipeId).foldl (ensureProtectionRow desiredRf) db.chunkProtection }

def MetadataDB.getChunkProtection (db : MetadataDB) (chunkHash : Text) : Option ProtectionRecord :=
  db.chunkProtection.get? chunkHash

def MetadataDB.isChunkRemotelyProtected (db : MetadataDB) (chunkHash : Text) (requiredRf : Int)
    (currentEpoch : Option Text) : Except StopanError Bool :=
  isRecordSufficient (db.getChunkProtection chunkHash) requiredRf currentEpoch

/-- The WHERE clause of `get_pending_protection_chunks`. -/
def isPendingProtection (desiredRf : Int) (currentEpoch : Option Text)
    (row : ProtectionRecord) : Bool :=
  (row.protectionState == .pending || row.protectionState == .degraded ||
    row.protectionState == .failed)
    || decide ((row.desiredRf : Int) < desiredRf)
    || match currentEpoch with
      | none => false
      | some epoch =>
          (row.protectionState == .placed || row.protectionState == .verified)
            && (row.placementEpoch.isNone || row.placementEpoch != some epoch)

/-- SQL `LIMIT`: absent or negative means every row. -/
def applyLimit {α : Type} (limit : Option Int) (rows : List α) : List α :=
  match limit with
  | none => rows
  | some bound => if bound < 0 then rows else rows.take bound.toNat

def MetadataDB.getPendingProtectionChunks (db : MetadataDB) (desiredRf : Int)
    (currentEpoch : Option Text) (limit : Option Int) : List Text :=
  applyLimit limit
    ((db.chunkProtection.filter
      fun _ row => isPendingProtection desiredRf currentEpoch row).keys.insertionSort
      fun left right => textLe left right = true)

structure VerificationCandidate where
  chunkHash : Text
  desiredRf : Nat
  protectionState : ProtectionState
  deriving DecidableEq, Repr

def MetadataDB.getVerificationCandidates (db : MetadataDB) (includeVerified : Bool)
    (limit : Option Int) :
    List VerificationCandidate :=
  applyLimit limit
    (((db.chunkProtection.filter fun _ row =>
        row.protectionState == .placed || row.protectionState == .degraded
          || (includeVerified && row.protectionState == .verified)).entries.insertionSort
      fun left right => textLe left.1 right.1 = true).map fun entry =>
        { chunkHash := entry.1, desiredRf := entry.2.desiredRf,
          protectionState := entry.2.protectionState })

/-- First UPDATE of `mark_stale_protection`. -/
def markStaleRf (desiredRf : Int) (row : ProtectionRecord) : ProtectionRecord :=
  if (row.desiredRf : Int) < desiredRf ∧ row.isProtected then
    { row with protectionState := .degraded, lastError := some "desired_rf increased".toList }
  else row

/-- Second UPDATE of `mark_stale_protection`. -/
def markStaleEpoch (currentEpoch : Option Text) (row : ProtectionRecord) : ProtectionRecord :=
  match currentEpoch with
  | none => row
  | some epoch =>
      if row.isProtected ∧ row.placementEpoch ≠ some epoch then
        { row with protectionState := .degraded,
                   lastError := some "placement_epoch changed".toList }
      else row

def MetadataDB.markStaleProtection (db : MetadataDB) (desiredRf : Int)
    (currentEpoch : Option Text) :
    MetadataDB :=
  { db with
    chunkProtection := db.chunkProtection.mapValues fun _ row =>
      markStaleEpoch currentEpoch (markStaleRf desiredRf row) }

/-- `ChunkProtectionPushUpdate` and `ChunkProtectionVerificationUpdate`, which have the same
fields. -/
structure ChunkProtectionUpdate where
  chunkHash : Text
  desiredRf : Int
  protectionState : ProtectionState
  protectedRemoteCopies : Int
  placementEpoch : Option Text
  error : Option Text
  deriving DecidableEq, Repr

/-- A validated update: the row to upsert and its key. -/
structure ProtectionUpsert where
  chunkHash : Text
  desiredRf : Nat
  protectionState : ProtectionState
  protectedRemoteCopies : Nat
  placementEpoch : Option Text
  error : Option Text
  deriving DecidableEq, Repr

def validateProtectionUpdate (allowed : List ProtectionState) (context : String)
    (update : ChunkProtectionUpdate) : Except StopanError ProtectionUpsert := do
  if !allowed.contains update.protectionState then
    throw (.metadataDatabaseValue s!"estado inválido para {context}")
  let chunkHash ← requireHash64 "chunk_hash" update.chunkHash
  let desiredRf ← requireNonNegativeInt "desired_rf" update.desiredRf
  let copies ← requireNonNegativeInt "protected_remote_copies" update.protectedRemoteCopies
  return {
    chunkHash
    desiredRf
    protectionState := update.protectionState
    protectedRemoteCopies := copies
    placementEpoch := update.placementEpoch
    error := update.error }

/-- An upsert into `chunk_protection`, guarded by its foreign key to `chunks`. -/
def MetadataDB.upsertProtection (db : MetadataDB) (chunkHash : Text)
    (row : Option ProtectionRecord → ProtectionRecord) :
    Except StopanError MetadataDB :=
  if db.chunkProtection.contains chunkHash || db.chunks.contains chunkHash then
    .ok { db with chunkProtection := db.chunkProtection.set chunkHash
                    (row (db.chunkProtection.get? chunkHash)) }
  else .error (.integrity "FOREIGN KEY constraint failed")

/-- `_CHUNK_PROTECTION_PUSH_UPSERT_SQL` overwrites every column. -/
def pushedRow (now : PyFloat) (upsert : ProtectionUpsert) : Option ProtectionRecord →
    ProtectionRecord := fun _ =>
  { desiredRf := upsert.desiredRf
    protectionState := upsert.protectionState
    protectedRemoteCopies := upsert.protectedRemoteCopies
    placementEpoch := upsert.placementEpoch
    lastPushAt := some now
    lastVerifyAt := none
    lastError := upsert.error }

/-- `_CHUNK_PROTECTION_VERIFY_UPSERT_SQL` keeps `last_push_at` of an existing row. -/
def verifiedRow (now : PyFloat) (upsert : ProtectionUpsert) : Option ProtectionRecord →
    ProtectionRecord := fun old =>
  { desiredRf := upsert.desiredRf
    protectionState := upsert.protectionState
    protectedRemoteCopies := upsert.protectedRemoteCopies
    placementEpoch := upsert.placementEpoch
    lastPushAt := old.bind (·.lastPushAt)
    lastVerifyAt := some now
    lastError := upsert.error }

def MetadataDB.applyProtectionUpserts
    (rowOf : ProtectionUpsert → Option ProtectionRecord → ProtectionRecord) :
    MetadataDB → List ProtectionUpsert → Except StopanError MetadataDB
  | db, [] => .ok db
  | db, upsert :: rest =>
      match db.upsertProtection upsert.chunkHash (rowOf upsert) with
      | .error reason => .error reason
      | .ok next => next.applyProtectionUpserts rowOf rest

def MetadataDB.applyChunkPushUpdates (db : MetadataDB) (now : PyFloat)
    (updates : List ChunkProtectionUpdate) :
    Except StopanError MetadataDB :=
  match updates.mapM
    (validateProtectionUpdate [.placed, .degraded, .failed] "push de replicación") with
  | .error reason => .error reason
  | .ok rows => db.applyProtectionUpserts (pushedRow now) rows

def MetadataDB.applyChunkVerificationUpdates (db : MetadataDB) (now : PyFloat)
    (updates : List ChunkProtectionUpdate) : Except StopanError MetadataDB :=
  match updates.mapM
    (validateProtectionUpdate [.verified, .degraded] "verificación de replicación") with
  | .error reason => .error reason
  | .ok rows => db.applyProtectionUpserts (verifiedRow now) rows

section Invariant

variable {table : Dict Text ProtectionRecord} {db after : MetadataDB} {now : PyFloat}

/-- Registering a recipe never touches a row whose desired replication factor is already met. -/
theorem ensureProtectionRow_keeps {desiredRf : Nat} {chunkHash other : Text}
    {row : ProtectionRecord}
    (found : table.get? chunkHash = some row) (enough : desiredRf ≤ row.desiredRf) :
    (ensureProtectionRow desiredRf table other).get? chunkHash = some row := by
  unfold ensureProtectionRow
  cases stored : table.get? other with
  | none =>
      have distinct : chunkHash ≠ other := by
        rintro rfl
        simp [found] at stored
      exact (Dict.get?_set_of_ne _ _ distinct).trans found
  | some older =>
      dsimp only
      split
      · rename_i low
        have distinct : chunkHash ≠ other := by
          rintro rfl
          rw [found, Option.some.injEq] at stored
          subst stored
          omega
        exact (Dict.get?_set_of_ne _ _ distinct).trans found
      · exact found

theorem foldl_ensureProtectionRow_keeps {desiredRf : Nat} {chunkHash : Text}
    {row : ProtectionRecord} (hashes : List Text) (found : table.get? chunkHash = some row)
    (enough : desiredRf ≤ row.desiredRf) :
    (hashes.foldl (ensureProtectionRow desiredRf) table).get? chunkHash = some row := by
  induction hashes generalizing table with
  | nil => exact found
  | cons other rest ih => exact ih (ensureProtectionRow_keeps found enough)

theorem requireNonNegativeInt_ok {name : String} {value : Int} {number : Nat}
    (checked : requireNonNegativeInt name value = .ok number) : (number : Int) = value := by
  unfold requireNonNegativeInt at checked
  split at checked
  · cases checked
  · cases checked
    omega

/-- A validated update carries over its state and its two counters. -/
theorem validateProtectionUpdate_ok {allowed : List ProtectionState} {context : String}
    {update : ChunkProtectionUpdate} {upsert : ProtectionUpsert}
    (validated : validateProtectionUpdate allowed context update = .ok upsert) :
    requireHash64 "chunk_hash" update.chunkHash = .ok upsert.chunkHash ∧
      upsert.protectionState = update.protectionState ∧
      (upsert.desiredRf : Int) = update.desiredRf ∧
      (upsert.protectedRemoteCopies : Int) = update.protectedRemoteCopies := by
  unfold validateProtectionUpdate at validated
  split at validated
  · cases validated
  · obtain ⟨chunkHash, hash, validated⟩ := bind_eq_ok_iff.mp validated
    obtain ⟨desiredRf, rf, validated⟩ := bind_eq_ok_iff.mp validated
    obtain ⟨count, copies, validated⟩ := bind_eq_ok_iff.mp validated
    cases pure_eq_ok_iff.mp validated
    exact ⟨hash, rfl, requireNonNegativeInt_ok rf, requireNonNegativeInt_ok copies⟩

theorem upsertProtection_ok {chunkHash : Text} {row : Option ProtectionRecord → ProtectionRecord}
    (written : db.upsertProtection chunkHash row = .ok after) :
    after = { db with
      chunkProtection :=
        db.chunkProtection.set chunkHash (row (db.chunkProtection.get? chunkHash)) } := by
  unfold MetadataDB.upsertProtection at written
  split at written
  · cases written
    rfl
  · cases written

end Invariant

section Rows

variable {db after : MetadataDB} {now : PyFloat}
  {rowOf : ProtectionUpsert → Option ProtectionRecord → ProtectionRecord}

theorem applyProtectionUpserts_of_not_mem {upserts : List ProtectionUpsert} {chunkHash : Text}
    (absent : chunkHash ∉ upserts.map (·.chunkHash))
    (applied : db.applyProtectionUpserts rowOf upserts = .ok after) :
    after.chunkProtection.get? chunkHash = db.chunkProtection.get? chunkHash := by
  induction upserts generalizing db with
  | nil =>
      cases applied
      rfl
  | cons upsert rest ih =>
      simp only [List.map_cons, List.mem_cons, not_or] at absent
      cases written : db.upsertProtection upsert.chunkHash (rowOf upsert) with
      | error reason => simp [MetadataDB.applyProtectionUpserts, written] at applied
      | ok next =>
          have continued : next.applyProtectionUpserts rowOf rest = .ok after := by
            simpa only [MetadataDB.applyProtectionUpserts, written] using applied
          rw [ih absent.2 continued, upsertProtection_ok written, Dict.get?_set_of_ne _ _ absent.1]

theorem applyProtectionUpserts_of_mem {upserts : List ProtectionUpsert} {upsert : ProtectionUpsert}
    (distinct : (upserts.map (·.chunkHash)).Nodup) (member : upsert ∈ upserts)
    (applied : db.applyProtectionUpserts rowOf upserts = .ok after) :
    ∃ old, after.chunkProtection.get? upsert.chunkHash = some (rowOf upsert old) := by
  induction upserts generalizing db with
  | nil => cases member
  | cons first rest ih =>
      simp only [List.map_cons, List.nodup_cons] at distinct
      cases written : db.upsertProtection first.chunkHash (rowOf first) with
      | error reason => simp [MetadataDB.applyProtectionUpserts, written] at applied
      | ok next =>
          have continued : next.applyProtectionUpserts rowOf rest = .ok after := by
            simpa only [MetadataDB.applyProtectionUpserts, written] using applied
          cases member with
          | head =>
              refine ⟨db.chunkProtection.get? upsert.chunkHash, ?_⟩
              rw [applyProtectionUpserts_of_not_mem distinct.1 continued,
                upsertProtection_ok written, Dict.get?_set_self]
          | tail _ later => exact ih distinct.2 later continued

/-- Updates of distinct valid hashes are validated into upserts of the same hashes. -/
theorem mapM_validate_hashes {allowed : List ProtectionState} {context : String}
    {updates : List ChunkProtectionUpdate} {upserts : List ProtectionUpsert}
    (valid : ∀ update ∈ updates, isValidBlake3Hex update.chunkHash = true)
    (validated : updates.mapM (validateProtectionUpdate allowed context) = .ok upserts) :
    List.Forall₂ (fun update upsert => upsert.chunkHash = update.chunkHash ∧
      (upsert.protectedRemoteCopies : Int) = update.protectedRemoteCopies) updates upserts := by
  have related := mapM_eq_ok_iff.mp validated
  clear validated
  induction related with
  | nil => exact .nil
  | cons checked rest ih =>
      refine .cons ?_ (ih fun update present => valid update (by simp [present]))
      obtain ⟨hash, -, -, copies⟩ := validateProtectionUpdate_ok checked
      rw [requireHash64_of_valid (valid _ (by simp)), Except.ok.injEq] at hash
      exact ⟨hash.symm, copies⟩

theorem forall₂_chunkHashes {updates : List ChunkProtectionUpdate} {upserts : List ProtectionUpsert}
    (related : List.Forall₂ (fun update upsert => upsert.chunkHash = update.chunkHash ∧
      (upsert.protectedRemoteCopies : Int) = update.protectedRemoteCopies) updates upserts) :
    upserts.map (·.chunkHash) = updates.map (·.chunkHash) := by
  induction related with
  | nil => rfl
  | cons first rest ih => simp [first.1, ih]

private theorem applyUpdates_copies {allowed : List ProtectionState} {context : String}
    {updates : List ChunkProtectionUpdate} {upserts : List ProtectionUpsert}
    {update : ChunkProtectionUpdate}
    (keeps : ∀ upsert old, (rowOf upsert old).protectedRemoteCopies = upsert.protectedRemoteCopies)
    (valid : ∀ update ∈ updates, isValidBlake3Hex update.chunkHash = true)
    (distinct : (updates.map (·.chunkHash)).Nodup) (member : update ∈ updates)
    (validated : updates.mapM (validateProtectionUpdate allowed context) = .ok upserts)
    (applied : db.applyProtectionUpserts rowOf upserts = .ok after) :
    ∃ row, after.chunkProtection.get? update.chunkHash = some row ∧
      (row.protectedRemoteCopies : Int) = update.protectedRemoteCopies := by
  have related := mapM_validate_hashes valid validated
  obtain ⟨upsert, present, hash, copies⟩ := forall₂_mem_left related member
  rw [← forall₂_chunkHashes related] at distinct
  obtain ⟨old, found⟩ := applyProtectionUpserts_of_mem distinct present applied
  refine ⟨rowOf upsert old, hash ▸ found, ?_⟩
  rw [keeps, copies]

theorem applyChunkPushUpdates_copies {updates : List ChunkProtectionUpdate}
    {update : ChunkProtectionUpdate}
    (valid : ∀ update ∈ updates, isValidBlake3Hex update.chunkHash = true)
    (distinct : (updates.map (·.chunkHash)).Nodup) (member : update ∈ updates)
    (applied : db.applyChunkPushUpdates now updates = .ok after) :
    ∃ row, after.chunkProtection.get? update.chunkHash = some row ∧
      (row.protectedRemoteCopies : Int) = update.protectedRemoteCopies := by
  unfold MetadataDB.applyChunkPushUpdates at applied
  cases validated : updates.mapM
      (validateProtectionUpdate [.placed, .degraded, .failed] "push de replicación") with
  | error reason => simp [validated] at applied
  | ok upserts =>
      rw [validated] at applied
      exact applyUpdates_copies (fun _ _ => rfl) valid distinct member validated applied

theorem applyChunkPushUpdates_of_not_mem {updates : List ChunkProtectionUpdate} {chunkHash : Text}
    (valid : ∀ update ∈ updates, isValidBlake3Hex update.chunkHash = true)
    (absent : chunkHash ∉ updates.map (·.chunkHash))
    (applied : db.applyChunkPushUpdates now updates = .ok after) :
    after.chunkProtection.get? chunkHash = db.chunkProtection.get? chunkHash := by
  unfold MetadataDB.applyChunkPushUpdates at applied
  cases validated : updates.mapM
      (validateProtectionUpdate [.placed, .degraded, .failed] "push de replicación") with
  | error reason => simp [validated] at applied
  | ok upserts =>
      rw [validated] at applied
      rw [← forall₂_chunkHashes (mapM_validate_hashes valid validated)] at absent
      exact applyProtectionUpserts_of_not_mem absent applied

theorem applyChunkVerificationUpdates_copies {updates : List ChunkProtectionUpdate}
    {update : ChunkProtectionUpdate}
    (valid : ∀ update ∈ updates, isValidBlake3Hex update.chunkHash = true)
    (distinct : (updates.map (·.chunkHash)).Nodup) (member : update ∈ updates)
    (applied : db.applyChunkVerificationUpdates now updates = .ok after) :
    ∃ row, after.chunkProtection.get? update.chunkHash = some row ∧
      (row.protectedRemoteCopies : Int) = update.protectedRemoteCopies := by
  unfold MetadataDB.applyChunkVerificationUpdates at applied
  cases validated : updates.mapM
      (validateProtectionUpdate [.verified, .degraded] "verificación de replicación") with
  | error reason => simp [validated] at applied
  | ok upserts =>
      rw [validated] at applied
      exact applyUpdates_copies (fun _ _ => rfl) valid distinct member validated applied

end Rows

end Stopan.Metadata
