import Stopan.Metadata.ChunkProtection

/-!
The sets of chunks that snapshots reach and the protection scopes built on them (the scope
queries of `MetadataDB` and `stopan/protection/scope.py`).
-/

namespace Stopan.Metadata

open Stopan.Lib Stopan.Common Stopan.Protection

def sortedDistinct (hashes : List Text) : List Text :=
  (orderedUnique hashes).insertionSort fun left right => textLe left right = true

theorem mem_sortedDistinct {hashes : List Text} {hash : Text} :
    hash ∈ sortedDistinct hashes ↔ hash ∈ hashes := by
  simp [sortedDistinct, mem_orderedUnique]

/-- The recipes that the file items of the selected snapshots refer to. -/
def MetadataDB.itemRecipeIds (db : MetadataDB) (selected : Nat → Bool) : List Nat :=
  db.snapshotItems.entries.filterMap fun entry =>
    if selected entry.2.snapshotId && entry.2.itemType == .file then entry.2.recipeId else none

def MetadataDB.selectedChunkHashes (db : MetadataDB) (selected : Nat → Bool) : List Text :=
  sortedDistinct ((db.itemRecipeIds selected).flatMap fun recipeId =>
    (db.recipeChunkEntries recipeId).map (·.chunkHash))

theorem MetadataDB.mem_selectedChunkHashes {db : MetadataDB} {selected : Nat → Bool}
    {itemId recipeId : Nat} {item : SnapshotItemRow} {chunk : RecipeChunk}
    (stored : db.snapshotItems.get? itemId = some item) (chosen : selected item.snapshotId = true)
    (file : item.itemType = .file) (recipe : item.recipeId = some recipeId)
    (member : chunk ∈ db.recipeChunkEntries recipeId) :
    chunk.chunkHash ∈ db.selectedChunkHashes selected := by
  refine mem_sortedDistinct.mpr (List.mem_flatMap.mpr ⟨recipeId, ?_, List.mem_map_of_mem member⟩)
  refine List.mem_filterMap.mpr ⟨(itemId, item), Dict.get?_eq_some_iff.mp stored, ?_⟩
  simp [chosen, file, recipe]

/-- The text of a status in its column. -/
def SnapshotStatus.value : SnapshotStatus → String
  | .creating => "CREATING"
  | .complete => "COMPLETE"
  | .failed => "FAILED"

def MetadataDB.hasStatus (db : MetadataDB) (statuses : List SnapshotStatus)
    (snapshotId : Nat) : Bool :=
  match db.snapshots.get? snapshotId with
  | none => false
  | some snapshot => statuses.contains snapshot.status

def MetadataDB.snapshotChunkHashes (db : MetadataDB) (snapshotId : Nat) : List Text :=
  db.selectedChunkHashes fun other => other == snapshotId

def MetadataDB.allReachableChunkHashes (db : MetadataDB) : List Text :=
  db.selectedChunkHashes (db.hasStatus [.complete])

/-- Hashes that the local garbage collector must keep. -/
def MetadataDB.gcProtectedChunkHashes (db : MetadataDB) : List Text :=
  db.selectedChunkHashes (db.hasStatus [.creating, .complete])

def MetadataDB.allKnownChunkHashes (db : MetadataDB) : List Text :=
  db.chunks.keys.insertionSort fun left right => textLe left right = true

def MetadataDB.pendingProtectionChunksForHashes (db : MetadataDB)
    (hashes : List Text) (desiredRf : Int)
    (currentEpoch : Option Text) (limit : Option Int) : List Text :=
  applyLimit limit
    ((db.chunkProtection.filter fun chunkHash row =>
        hashes.contains chunkHash &&
          isPendingProtection desiredRf currentEpoch row).keys.insertionSort
      fun left right => textLe left right = true)

def MetadataDB.verificationCandidatesForHashes (db : MetadataDB) (hashes : List Text)
    (includeVerified : Bool) (limit : Option Int) : List VerificationCandidate :=
  applyLimit limit
    (((db.chunkProtection.filter fun chunkHash row =>
        hashes.contains chunkHash &&
          (includeVerified || row.protectionState != .verified)).entries.insertionSort
      fun left right => textLe left.1 right.1 = true).map fun entry =>
        { chunkHash := entry.1, desiredRf := entry.2.desiredRf,
          protectionState := entry.2.protectionState })

inductive ProtectionScope where
  | pending
  | snapshot (snapshotId : Nat)
  | allReachable
  | allKnownChunks
  deriving DecidableEq, Repr

/-- The chunks of a scope that names a set of chunks. -/
def MetadataDB.chunkHashesForScope (db : MetadataDB) : ProtectionScope →
    Except StopanError (List Text)
  | .pending => .error (.metadataDatabaseValue
      "Scope de protección no resoluble como conjunto de chunks: 'pending'")
  | .snapshot snapshotId =>
      match db.snapshots.get? snapshotId with
      | none => .error (.metadataDatabaseValue s!"Snapshot no existe: {snapshotId}")
      | some snapshot =>
          if snapshot.status = .complete then .ok (db.snapshotChunkHashes snapshotId)
          else
            .error (.metadataDatabaseValue
              s!"Snapshot no está completo: {snapshotId} status={snapshot.status.value}")
  | .allReachable => .ok db.allReachableChunkHashes
  | .allKnownChunks => .ok db.allKnownChunkHashes

def MetadataDB.scopedReplicationPushChunks (db : MetadataDB)
    (scope : ProtectionScope) (desiredRf : Int)
    (currentEpoch : Option Text) (limit : Option Int) : Except StopanError (List Text) :=
  match scope with
  | .pending => .ok (db.getPendingProtectionChunks desiredRf currentEpoch limit)
  | scope =>
      match db.chunkHashesForScope scope with
      | .error reason => .error reason
      | .ok hashes => .ok (db.pendingProtectionChunksForHashes hashes desiredRf currentEpoch limit)

def MetadataDB.scopedReplicationVerificationCandidates (db : MetadataDB) (scope : ProtectionScope)
    (includeVerified : Bool) (limit : Option Int) :
    Except StopanError (List VerificationCandidate) :=
  match scope with
  | .pending => .ok (db.getVerificationCandidates includeVerified limit)
  | scope =>
      match db.chunkHashesForScope scope with
      | .error reason => .error reason
      | .ok hashes => .ok (db.verificationCandidatesForHashes hashes includeVerified limit)

end Stopan.Metadata
