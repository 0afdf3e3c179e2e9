import Stopan.Metadata.ChunkProtection

namespace Stopan.Metadata

open Stopan.Lib Stopan.Common Stopan.Protection

/-- The fields of `os.stat_result` that the code reads. -/
structure StatInfo where
  size : Nat
  mode : Nat
  mtime : PyFloat
  mtimeNs : Int
  ctimeNs : Int
  uid : Nat
  gid : Nat
  deriving DecidableEq, Repr

/-- An emission of the tree walk as `add_items` receives it. -/
structure WalkEntry where
  relPath : PyText
  stat : StatInfo
  itemType : ItemType
  deriving DecidableEq, Repr

namespace MetadataDB

def createSnapshot (db : MetadataDB) (snapshotUuid createdAt : Text) (rootPath : PyText)
    (originNodeId : Text) :
    Except StopanError (MetadataDB × Nat) := do
  let _ ← ensure (!(strip originNodeId).isEmpty)
    (.value "create_snapshot requires a non-empty origin_node_id.")
  let root ← bindText rootPath
  let _ ← ensure (!db.snapshots.values.any fun row => row.uuid == snapshotUuid)
    (.integrity "UNIQUE constraint failed: snapshots.uuid")
  let snapshotId := db.lastSnapshotId + 1
  return ({ db with
    lastSnapshotId := snapshotId
    snapshots := db.snapshots.set snapshotId {
      uuid := snapshotUuid
      rootPath := root
      originNodeId := strip originNodeId
      status := .creating
      error := none
      totalSize := 0
      totalFiles := 0
      createdAt } }, snapshotId)

def finishSnapshot (db : MetadataDB) (snapshotId totalSize totalFiles : Nat) :
    Except StopanError MetadataDB := do
  match db.snapshots.get? snapshotId with
  | none => .error (.metadataDatabase s!"snapshot no registrado: {snapshotId}")
  | some row =>
      let _ ← ensure (row.status == .creating)
        (.metadataDatabase s!"snapshot {snapshotId} no está en CREATING")
      match (db.snapshotItemRows snapshotId).find? fun entry =>
          entry.2.itemType == .file && entry.2.recipeId.isNone with
      | some incomplete =>
          .error (.metadataDatabase
            (s!"snapshot contiene archivos sin receta: snapshot_id={snapshotId} "
            ++ s!"path={String.ofList incomplete.2.path}"))
      | none =>
          let _ ← bindInteger totalSize
          let _ ← bindInteger totalFiles
          return { db with
            snapshots := db.snapshots.set snapshotId
              { row with totalSize, totalFiles, status := .complete, error := none } }

def failSnapshot (db : MetadataDB) (snapshotId : Nat) (error : Text) :
    Except StopanError MetadataDB :=
  match db.snapshots.get? snapshotId with
  | none => .error (.metadataDatabase s!"snapshot no registrado: {snapshotId}")
  | some row =>
      match row.status with
      | .creating =>
          .ok { db with snapshots := db.snapshots.set snapshotId { row with status := .failed,
                                                                            error := some error } }
      | .failed => .ok db
      | .complete =>
          .error (.metadataDatabase
            s!"snapshot {snapshotId} no puede pasar a FAILED desde COMPLETE")

/-- `ORDER BY id DESC LIMIT 1` over the complete snapshots of the same root. -/
def getPrevSnapshotId (db : MetadataDB) (rootPath : Text) (currentSnapshotId : Nat) : Option Nat :=
  ((db.snapshots.filter fun snapshotId row =>
    row.rootPath == rootPath && decide (snapshotId < currentSnapshotId) &&
      row.status == .complete).keys).max?

/-- The integer columns of an item, in binding order. -/
def bindStat (stat : StatInfo) : Except StopanError (List Int) :=
  [(stat.size : Int), stat.mode, stat.mtimeNs, stat.ctimeNs, stat.uid, stat.gid].mapM bindInteger

def newItemRow (snapshotId : Nat) (path : Text) (entry : WalkEntry) : SnapshotItemRow where
  snapshotId
  path
  itemType := entry.itemType
  size := entry.stat.size
  mode := entry.stat.mode
  mtime := entry.stat.mtime
  mtimeNs := entry.stat.mtimeNs
  ctimeNs := some entry.stat.ctimeNs
  uid := entry.stat.uid
  gid := entry.stat.gid
  recipeId := none

def addItem (db : MetadataDB) (snapshotId : Nat) (entry : WalkEntry) :
    Except StopanError (MetadataDB × Nat) := do
  let path ← bindText entry.relPath
  let _ ← bindStat entry.stat
  let _ ← ensure (!db.snapshotItems.values.any fun row => row.snapshotId == snapshotId &&
    row.path == path)
    (.integrity "UNIQUE constraint failed: snapshot_items.snapshot_id, snapshot_items.path")
  let _ ← ensure (db.snapshots.contains snapshotId) (.integrity "FOREIGN KEY constraint failed")
  let itemId := db.lastItemId + 1
  return ({ db with
    lastItemId := itemId
    snapshotItems := db.snapshotItems.set itemId (newItemRow snapshotId path entry) }, itemId)

def addItems (db : MetadataDB) (snapshotId : Nat) : List WalkEntry →
    Except StopanError (MetadataDB × List Nat)
  | [] => .ok (db, [])
  | entry :: rest => do
      let added ← db.addItem snapshotId entry
      let others ← added.1.addItems snapshotId rest
      return (others.1, added.2 :: others.2)

/-- The file items of a snapshot under the requested paths, keyed by path. -/
def getFileItemsByPaths (db : MetadataDB) (snapshotId : Nat) (relPaths : List Text) :
    Dict Text SnapshotItemRow :=
  .ofList ((db.snapshotItems.values.filter fun row =>
    row.snapshotId == snapshotId && row.itemType == .file && relPaths.contains row.path).map
      fun row =>
      (row.path, row))

def setItemRecipe (db : MetadataDB) (itemId recipeId : Nat) : Except StopanError MetadataDB :=
  match db.snapshotItems.get? itemId with
  | none => .error (.metadataDatabase s!"snapshot item no registrado: {itemId}")
  | some row =>
      .ok { db with snapshotItems := db.snapshotItems.set itemId { row with
        recipeId := some recipeId } }

section Specifications

variable {db after : MetadataDB}

theorem createSnapshot_ok {snapshotUuid createdAt originNodeId : Text}
    {rootPath : PyText} {snapshotId : Nat}
    (created : db.createSnapshot snapshotUuid createdAt rootPath originNodeId = .ok
      (after, snapshotId)) :
    snapshotId = db.lastSnapshotId + 1 ∧ ∃ row : SnapshotRow, row.status = .creating ∧
      bindText rootPath = .ok row.rootPath ∧
      after = { db with lastSnapshotId := snapshotId,
                        snapshots := db.snapshots.set snapshotId row } := by
  unfold createSnapshot at created
  obtain ⟨-, -, created⟩ := bind_eq_ok_iff.mp created
  obtain ⟨root, bound, created⟩ := bind_eq_ok_iff.mp created
  obtain ⟨-, -, created⟩ := bind_eq_ok_iff.mp created
  have built := pure_eq_ok_iff.mp created
  rw [Prod.mk.injEq] at built
  obtain ⟨rfl, rfl⟩ := built
  exact ⟨rfl, _, rfl, bound, rfl⟩

/-- A snapshot that finishes was being created and leaves no file without a recipe. -/
theorem finishSnapshot_ok {snapshotId totalSize totalFiles : Nat}
    (finished : db.finishSnapshot snapshotId totalSize totalFiles = .ok after) :
    ∃ row, db.snapshots.get? snapshotId = some row ∧ row.status = .creating ∧
      (∀ itemId item, db.snapshotItems.get? itemId = some item → item.snapshotId = snapshotId →
        item.itemType = .file → item.recipeId.isSome = true) ∧
      after = { db with
        snapshots := db.snapshots.set snapshotId
          { row with totalSize, totalFiles, status := .complete, error := none } } := by
  unfold finishSnapshot at finished
  cases found : db.snapshots.get? snapshotId with
  | none => simp [found] at finished
  | some row =>
      simp only [found] at finished
      obtain ⟨creating, finished⟩ := ensure_bind_eq_ok_iff.mp finished
      have status : row.status = .creating := by simpa using creating
      refine ⟨row, rfl, status, ?_⟩
      cases search : (db.snapshotItemRows snapshotId).find? fun entry =>
          entry.2.itemType == .file && entry.2.recipeId.isNone with
      | some incomplete => simp [search] at finished
      | none =>
          simp only [search] at finished
          obtain ⟨-, -, finished⟩ := bind_eq_ok_iff.mp finished
          obtain ⟨-, -, finished⟩ := bind_eq_ok_iff.mp finished
          refine ⟨?_, (pure_eq_ok_iff.mp finished).symm⟩
          intro itemId item stored owner file
          have listed : (itemId, item) ∈ db.snapshotItemRows snapshotId := by
            rw [snapshotItemRows, List.mem_insertionSort, List.mem_filter]
            exact ⟨Dict.get?_eq_some_iff.mp stored, by simp [owner]⟩
          have complete := List.find?_eq_none.mp search (itemId, item) listed
          cases recipe : item.recipeId with
          | none => simp [file, recipe] at complete
          | some recipeId => rfl

theorem failSnapshot_ok {snapshotId : Nat} {error : Text}
    (failed : db.failSnapshot snapshotId error = .ok after) :
    after = db ∨ ∃ row, db.snapshots.get? snapshotId = some row ∧ row.status = .creating ∧
      after = { db with
        snapshots :=
          db.snapshots.set snapshotId { row with status := .failed, error := some error } } := by
  unfold failSnapshot at failed
  cases found : db.snapshots.get? snapshotId with
  | none => simp [found] at failed
  | some row =>
      cases status : row.status with
      | creating =>
          simp only [found, status, Except.ok.injEq] at failed
          exact .inr ⟨row, rfl, status, failed.symm⟩
      | complete => simp [found, status] at failed
      | failed =>
          simp only [found, status, Except.ok.injEq] at failed
          exact .inl failed.symm

theorem getPrevSnapshotId_complete {rootPath : Text} {current previous : Nat}
    (found : db.getPrevSnapshotId rootPath current = some previous) :
    ∃ row, db.snapshots.get? previous = some row ∧ row.status = .complete ∧
      row.rootPath = rootPath ∧ previous < current := by
  have member := List.max?_mem found
  obtain ⟨row, stored⟩ := (Dict.mem_keys_iff _ _).mp member
  obtain ⟨present, kept⟩ := (Dict.get?_filter_eq_some_iff _).mp stored
  simp only [Bool.and_eq_true, beq_iff_eq, decide_eq_true_eq] at kept
  exact ⟨row, present, kept.2, kept.1.1, kept.1.2⟩

theorem addItem_ok {snapshotId itemId : Nat} {entry : WalkEntry}
    (added : db.addItem snapshotId entry = .ok (after, itemId)) :
    itemId = db.lastItemId + 1 ∧ ∃ path, bindText entry.relPath = .ok path ∧
      after = { db with
        lastItemId := itemId
        snapshotItems := db.snapshotItems.set itemId (newItemRow snapshotId path entry) } := by
  unfold addItem at added
  obtain ⟨path, bound, added⟩ := bind_eq_ok_iff.mp added
  obtain ⟨-, -, added⟩ := bind_eq_ok_iff.mp added
  obtain ⟨-, -, added⟩ := bind_eq_ok_iff.mp added
  obtain ⟨-, -, added⟩ := bind_eq_ok_iff.mp added
  have built := pure_eq_ok_iff.mp added
  rw [Prod.mk.injEq] at built
  obtain ⟨rfl, rfl⟩ := built
  exact ⟨rfl, path, bound, rfl⟩

theorem addItems_frame {snapshotId : Nat} {entries : List WalkEntry} {itemIds : List Nat}
    (added : db.addItems snapshotId entries = .ok (after, itemIds)) :
    ∃ lastItemId snapshotItems, after = { db with lastItemId, snapshotItems } := by
  induction entries generalizing db itemIds with
  | nil =>
      cases added
      exact ⟨_, _, rfl⟩
  | cons entry rest ih =>
      obtain ⟨⟨middle, first⟩, one, added⟩ := bind_eq_ok_iff.mp added
      obtain ⟨⟨final, others⟩, more, added⟩ := bind_eq_ok_iff.mp added
      cases pure_eq_ok_iff.mp added
      obtain ⟨-, path, -, rfl⟩ := addItem_ok one
      obtain ⟨lastItemId, snapshotItems, rfl⟩ := ih more
      exact ⟨lastItemId, snapshotItems, rfl⟩

/-- Item ids come from the AUTOINCREMENT counter. -/
def ItemIdsBounded (db : MetadataDB) : Prop :=
  ∀ itemId item, db.snapshotItems.get? itemId = some item → itemId ≤ db.lastItemId

theorem addItem_idsBounded {snapshotId itemId : Nat} {entry : WalkEntry}
    (bounded : ItemIdsBounded db)
    (added : db.addItem snapshotId entry = .ok (after, itemId)) : ItemIdsBounded after := by
  obtain ⟨rfl, path, -, rfl⟩ := addItem_ok added
  intro otherId item stored
  rw [Dict.get?_set] at stored
  split at stored
  · rename_i same
    exact Nat.le_of_eq same
  · exact Nat.le_succ_of_le (bounded otherId item stored)

theorem addItem_keeps {snapshotId itemId otherId : Nat} {entry : WalkEntry} {item : SnapshotItemRow}
    (bounded : ItemIdsBounded db) (added : db.addItem snapshotId entry = .ok (after, itemId))
    (stored : db.snapshotItems.get? otherId = some item) :
    after.snapshotItems.get? otherId = some item := by
  obtain ⟨rfl, path, -, rfl⟩ := addItem_ok added
  have below := bounded otherId item stored
  exact (Dict.get?_set_of_ne _ _ (by omega)).trans stored

/-- What a batch of new items adds: fresh ids in order, each with the row of its entry. -/
structure ItemsAdded (db after : MetadataDB) (snapshotId : Nat) (entries : List WalkEntry)
    (itemIds : List Nat) :
    Prop where
  bounded : ItemIdsBounded after
  aligned : List.Forall₂ (fun itemId entry => ∃ path, bindText entry.relPath = .ok path ∧
    after.snapshotItems.get? itemId = some (newItemRow snapshotId path entry)) itemIds entries
  kept : ∀ itemId item, db.snapshotItems.get? itemId = some item →
    after.snapshotItems.get? itemId = some item
  known : ∀ itemId item, after.snapshotItems.get? itemId = some item →
    db.snapshotItems.get? itemId = some item ∨
    ∃ entry path, (itemId, entry) ∈ itemIds.zip entries ∧ bindText entry.relPath = .ok path ∧
      item = newItemRow snapshotId path entry

theorem addItems_ok {snapshotId : Nat} {entries : List WalkEntry} {itemIds : List Nat}
    (bounded : ItemIdsBounded db) (added : db.addItems snapshotId entries = .ok (after, itemIds)) :
    ItemsAdded db after snapshotId entries itemIds := by
  induction entries generalizing db itemIds with
  | nil =>
      cases added
      exact ⟨bounded, .nil, fun _ _ stored => stored, fun _ _ stored => .inl stored⟩
  | cons entry rest ih =>
      obtain ⟨⟨middle, first⟩, one, added⟩ := bind_eq_ok_iff.mp added
      obtain ⟨⟨final, others⟩, more, added⟩ := bind_eq_ok_iff.mp added
      cases pure_eq_ok_iff.mp added
      have later := ih (addItem_idsBounded bounded one) more
      obtain ⟨-, path, bound, rfl⟩ := addItem_ok one
      have stored : { db with
          lastItemId := first
          snapshotItems :=
            db.snapshotItems.set first
              (newItemRow snapshotId path entry) }.snapshotItems.get? first =
            some (newItemRow snapshotId path entry) := Dict.get?_set_self ..
      refine ⟨later.bounded, .cons ⟨path, bound, later.kept first _ stored⟩ later.aligned, ?_, ?_⟩
      · intro itemId item located
        exact later.kept itemId item (addItem_keeps bounded one located)
      · intro itemId item located
        rcases later.known itemId item located with earlier | ⟨other, otherPath, member, bind, same⟩
        · rw [Dict.get?_set] at earlier
          split at earlier
          · rename_i same
            cases earlier
            exact .inr ⟨entry, path, by simp [same], bound, rfl⟩
          · exact .inl earlier
        · exact .inr ⟨other, otherPath, .tail _ member, bind, same⟩

theorem mem_getFileItemsByPaths {snapshotId : Nat} {relPaths : List Text} {path : Text}
    {item : SnapshotItemRow}
    (found : (db.getFileItemsByPaths snapshotId relPaths).get? path = some item) :
    item.path = path ∧ item.snapshotId = snapshotId ∧ item.itemType = .file ∧
      ∃ itemId, db.snapshotItems.get? itemId = some item := by
  have member : (path, item) ∈ (db.snapshotItems.values.filter fun row =>
      row.snapshotId == snapshotId && row.itemType == .file && relPaths.contains row.path).map
        fun row =>
        (row.path, row) := Dict.mem_of_get?_ofList found
  obtain ⟨row, kept, same⟩ := List.mem_map.mp member
  rw [Prod.mk.injEq] at same
  obtain ⟨rfl, rfl⟩ := same
  obtain ⟨listed, conditions⟩ := List.mem_filter.mp kept
  obtain ⟨⟨itemId, stored⟩, inside, same⟩ := List.mem_map.mp listed
  simp only [Bool.and_eq_true, beq_iff_eq] at conditions
  subst same
  exact ⟨rfl, conditions.1.1, conditions.1.2, itemId, Dict.get?_eq_some_iff.mpr inside⟩

end Specifications

end MetadataDB

end Stopan.Metadata
