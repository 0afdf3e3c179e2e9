import Stopan.Protection.Policy

namespace Stopan.Metadata

open Stopan.Lib Stopan.Common Stopan.Protection

inductive SnapshotStatus where
  | creating
  | complete
  | failed
  deriving DecidableEq, Repr

inductive ItemType where
  | file
  | dir
  | other (name : Text)
  deriving DecidableEq, Repr

structure SnapshotRow where
  uuid : Text
  rootPath : Text
  originNodeId : Text
  status : SnapshotStatus
  error : Option Text
  totalSize : Nat
  totalFiles : Nat
  createdAt : Text
  deriving DecidableEq, Repr

structure RecipeRow where
  recipeHash : Text
  chunkCount : Nat
  totalSize : Nat
  deriving DecidableEq, Repr

structure SnapshotItemRow where
  snapshotId : Nat
  path : Text
  itemType : ItemType
  size : Nat
  mode : Nat
  mtime : PyFloat
  mtimeNs : Int
  ctimeNs : Option Int
  uid : Nat
  gid : Nat
  recipeId : Option Nat
  deriving DecidableEq, Repr

/-- A recipe entry as the code passes it around: order, chunk hash, chunk size. -/
structure RecipeChunk where
  order : Nat
  chunkHash : Text
  chunkSize : Nat
  deriving DecidableEq, Repr

structure RecipeChunkRow where
  chunkHash : Text
  chunkSize : Nat
  deriving DecidableEq, Repr

structure ErasureDataPackRow where
  codec : Text
  dataShards : Nat
  parityShards : Nat
  payloadSize : Nat
  paddedSize : Nat
  shardSize : Nat
  protectionState : ProtectionState
  placementEpoch : Option Text
  createdAt : PyFloat
  lastPushAt : Option PyFloat
  lastVerifyAt : Option PyFloat
  lastError : Option Text
  deriving DecidableEq, Repr

structure ErasurePackChunkRow where
  packHash : Text
  chunkOffset : Nat
  chunkLength : Nat
  chunkOrdinal : Nat
  deriving DecidableEq, Repr

structure ErasurePackShardRow where
  shardHash : Text
  nodeId : Text
  size : Nat
  protectionState : ProtectionState
  lastPushAt : Option PyFloat
  lastVerifyAt : Option PyFloat
  lastError : Option Text
  deriving DecidableEq, Repr

/-- The catalog. The `last…Id` fields are the AUTOINCREMENT counters. -/
structure MetadataDB where
  vaultId : Option Text
  snapshots : Dict Nat SnapshotRow
  lastSnapshotId : Nat
  recipes : Dict Nat RecipeRow
  lastRecipeId : Nat
  chunks : Dict Text Nat
  snapshotItems : Dict Nat SnapshotItemRow
  lastItemId : Nat
  recipeChunks : Dict (Nat × Nat) RecipeChunkRow
  chunkProtection : Dict Text ProtectionRecord
  erasureDataPacks : Dict Text ErasureDataPackRow
  erasurePackChunks : Dict Text ErasurePackChunkRow
  erasurePackShards : Dict (Text × Nat) ErasurePackShardRow
  deriving DecidableEq

def MetadataDB.empty : MetadataDB where
  vaultId := none
  snapshots := .empty
  lastSnapshotId := 0
  recipes := .empty
  lastRecipeId := 0
  chunks := .empty
  snapshotItems := .empty
  lastItemId := 0
  recipeChunks := .empty
  chunkProtection := .empty
  erasureDataPacks := .empty
  erasurePackChunks := .empty
  erasurePackShards := .empty

/-- `sqlite3` refuses to bind an integer that does not fit a signed 64-bit column. -/
def bindInteger (value : Int) : Except StopanError Int :=
  if -(2 ^ 63) ≤ value ∧ value < 2 ^ 63 then .ok value
  else .error (.overflow "Python int too large to convert to SQLite INTEGER")

/-- SQLite text is UTF-8, which has no encoding for a lone surrogate. -/
def bindText (text : PyText) : Except StopanError Text :=
  match text.mapM PyChar.toScalar? with
  | some scalars => .ok scalars
  | none => .error (.unicodeEncode "'utf-8' codec can't encode character: surrogates not allowed")

theorem mapM_toScalar? {text : PyText} {scalars : Text}
    (mapped : text.mapM PyChar.toScalar? = some scalars) :
    scalars = text.filterMap PyChar.toScalar? := by
  induction text generalizing scalars with
  | nil =>
      cases mapped
      rfl
  | cons char rest ih =>
      simp only [List.mapM_cons, Option.bind_eq_bind, Option.bind_eq_some_iff, Option.pure_def,
        Option.some.injEq] at mapped
      obtain ⟨first, converted, tail, others, rfl⟩ := mapped
      rw [List.filterMap_cons_some converted, ih others]

/-- A text that binds is its own sequence of scalar values. -/
theorem bindText_ok {text : PyText} {bound : Text} (binding : bindText text = .ok bound) :
    bound = text.filterMap PyChar.toScalar? := by
  unfold bindText at binding
  split at binding
  · rename_i scalars mapped
    cases binding
    exact mapM_toScalar? mapped
  · cases binding

/-- The order of SQLite's BINARY collation, which is also Python's string order. -/
def textLe (left right : Text) : Bool := decide (left ≤ right)

/-- The rows of a recipe in `chunk_order`. -/
def MetadataDB.recipeChunkEntries (db : MetadataDB) (recipeId : Nat) : List RecipeChunk :=
  ((db.recipeChunks.entries.filter fun entry => entry.1.1 == recipeId).map fun entry =>
    { order := entry.1.2, chunkHash := entry.2.chunkHash,
      chunkSize := entry.2.chunkSize }).insertionSort
      fun left right => left.order ≤ right.order

/-- The items of a snapshot with their ids, `ORDER BY path`. -/
def MetadataDB.snapshotItemRows (db : MetadataDB) (snapshotId : Nat) :
    List (Nat × SnapshotItemRow) :=
  (db.snapshotItems.entries.filter fun entry => entry.2.snapshotId == snapshotId).insertionSort
    fun left right => textLe left.2.path right.2.path = true

end Stopan.Metadata
