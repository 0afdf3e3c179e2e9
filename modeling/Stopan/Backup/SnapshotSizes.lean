import Stopan.Backup.Ownership
import Stopan.Restore.Checks

namespace Stopan.Backup

open Stopan.Lib Stopan.Common Stopan.Cas Stopan.Chunking Stopan.Metadata Stopan.Restore

/-- Every file of every complete snapshot passes the checks of a restore on its recipe. -/
def CompleteRestorable (db : MetadataDB) : Prop :=
  ∀ itemId item row, db.snapshotItems.get? itemId = some item → item.itemType = .file →
    db.snapshots.get? item.snapshotId = some row → row.status = .complete →
      ∃ summary, checkFileItem db item = .ok summary

/-- When a worker reaches the end of its file it has read as many bytes as the walk reported. -/
def readsWalkedSize (node : Node) : NodeEvent → Bool
  | .backup runId (.worker itemId .endOfStream) =>
      match (node.runs.get? runId).bind fun run => run.tasks.get? itemId,
        node.host.db.snapshotItems.get? itemId with
      | some task, some item =>
          match task.worker with
          | .running worker => worker.fileSize == item.size
          | .returned _ | .failed _ => true
      | _, _ => true
  | .backup _ _ | .start _ | .kill _ | .tick _ => true

structure CatalogSizes (db : MetadataDB) : Prop where
  recipes : ∀ recipeId row, db.recipes.get? recipeId = some row →
    (row.chunkCount = 0 ↔ row.totalSize = 0)
  items : ∀ itemId item recipeId, db.snapshotItems.get? itemId = some item →
    item.recipeId = some recipeId →
    ∃ row, db.recipes.get? recipeId = some row ∧ item.size = row.totalSize
  complete : ∀ itemId item row, db.snapshotItems.get? itemId = some item → item.itemType = .file →
    db.snapshots.get? item.snapshotId = some row → row.status = .complete →
      item.recipeId.isSome = true

section Catalog

variable {db after : MetadataDB}

theorem catalogSizes_empty : CatalogSizes .empty where
  recipes _ _ stored := by cases stored
  items _ _ _ stored := by cases stored
  complete _ _ _ stored := by cases stored

theorem completeRestorable_of_sizes (sizes : CatalogSizes db) : CompleteRestorable db := by
  intro itemId item row stored file located status
  obtain ⟨recipeId, recipe⟩ :=
    Option.isSome_iff_exists.mp (sizes.complete itemId item row stored file located status)
  obtain ⟨recipeRow, found, size⟩ := sizes.items itemId item recipeId stored recipe
  exact ⟨_, checkFileItem_ok recipe found (sizes.recipes recipeId recipeRow found) size⟩

/-- Changing the row of a snapshot keeps the sizes, unless it completes with a file that has no
recipe. -/
theorem catalogSizes_setSnapshot {snapshotId lastSnapshotId : Nat} {row : SnapshotRow}
    (sizes : CatalogSizes db)
    (assigned : row.status = .complete → ∀ itemId item, db.snapshotItems.get? itemId = some item →
      item.snapshotId = snapshotId → item.itemType = .file → item.recipeId.isSome = true) :
    CatalogSizes { db with lastSnapshotId, snapshots := db.snapshots.set snapshotId row } where
  recipes := sizes.recipes
  items := sizes.items
  complete := by
    intro itemId item other stored file located status
    rw [Dict.get?_set] at located
    split at located
    · rename_i owner
      cases located
      exact assigned status itemId item stored owner file
    · exact sizes.complete itemId item other stored file located status

theorem catalogSizes_addItems {snapshotId : Nat} {entries : List WalkEntry}
    {itemIds : List Nat} {row : SnapshotRow} (sizes : CatalogSizes db) (bounded : db.ItemIdsBounded)
    (owner : db.snapshots.get? snapshotId = some row) (creating : row.status = .creating)
    (added : db.addItems snapshotId entries = .ok (after, itemIds)) : CatalogSizes after := by
  have spec := MetadataDB.addItems_ok bounded added
  obtain ⟨lastItemId, snapshotItems, rfl⟩ := MetadataDB.addItems_frame added
  refine ⟨sizes.recipes, ?_, ?_⟩
  · intro itemId item recipeId stored recipe
    rcases spec.known itemId item stored with older | ⟨entry, path, -, -, rfl⟩
    · exact sizes.items itemId item recipeId older recipe
    · cases recipe
  · intro itemId item other stored file located status
    rcases spec.known itemId item stored with older | ⟨entry, path, -, -, rfl⟩
    · exact sizes.complete itemId item other older file located status
    · have same : some row = some other := owner.symm.trans located
      cases same
      simp [creating] at status

/-- Assigning recipes of the right size to items keeps the sizes. -/
theorem catalogSizes_assign {items : Dict Nat SnapshotItemRow} (sizes : CatalogSizes db)
    (assigned : ∀ itemId item, items.get? itemId = some item →
      ∃ old, db.snapshotItems.get? itemId = some old ∧
      (item = old ∨ ∃ recipeId row, item = { old with recipeId := some recipeId } ∧
        db.recipes.get? recipeId = some row ∧ old.size = row.totalSize)) :
    CatalogSizes { db with snapshotItems := items } where
  recipes := sizes.recipes
  items := by
    intro itemId item recipeId stored recipe
    obtain ⟨old, located, outcome⟩ := assigned itemId item stored
    rcases outcome with rfl | ⟨newId, row, rfl, found, size⟩
    · exact sizes.items itemId item recipeId located recipe
    · cases recipe
      exact ⟨row, found, size⟩
  complete := by
    intro itemId item row stored file located status
    obtain ⟨old, present, outcome⟩ := assigned itemId item stored
    rcases outcome with rfl | ⟨newId, recipeRow, rfl, -, -⟩
    · exact sizes.complete itemId item row present file located status
    · rfl

theorem catalogSizes_registered {recipeId desiredRf : Nat} {chunks : List RecipeChunk}
    (sizes : CatalogSizes db) (recipeIds : db.RecipeIdsBounded)
    (registered : db.RecipeRegistered after recipeId chunks desiredRf) : CatalogSizes after := by
  have frame := registered.frame
  refine ⟨?_, ?_, ?_⟩
  · intro otherId row stored
    rcases registered.known stored with older | ⟨-, count, total⟩
    · exact sizes.recipes otherId row older
    · rw [count, total]
      exact registered.consistent
  · intro itemId item otherId stored recipe
    rw [frame.snapshotItems] at stored
    obtain ⟨row, found, size⟩ := sizes.items itemId item otherId stored recipe
    exact ⟨row, registered.kept recipeIds found, size⟩
  · intro itemId item row stored file located status
    rw [frame.snapshotItems] at stored
    rw [frame.snapshots] at located
    exact sizes.complete itemId item row stored file located status

theorem catalogSizes_consolidate {itemId recipeId desiredRf : Nat} {recipeHash : Text}
    {chunks : List RecipeChunk}
    {item : SnapshotItemRow} (sizes : CatalogSizes db) (recipeIds : db.RecipeIdsBounded)
    (stored : db.snapshotItems.get? itemId = some item)
    (whole : MetadataDB.recipeTotalSize chunks = item.size)
    (consolidated : db.consolidateItemRecipe itemId recipeHash chunks desiredRf = .ok
      (after, recipeId)) :
    CatalogSizes after := by
  obtain ⟨registered, own, spec, located, rfl⟩ := MetadataDB.consolidateItemRecipe_ok consolidated
  have same : some own = some item := located.symm.trans stored
  cases same
  refine catalogSizes_assign (catalogSizes_registered sizes recipeIds spec) ?_
  intro otherId other found
  rw [spec.frame.snapshotItems]
  rw [Dict.get?_set] at found
  split at found
  · rename_i equal
    cases found
    obtain ⟨row, present, -, total⟩ := spec.row
    exact ⟨item, equal ▸ stored, .inr ⟨recipeId, row, rfl, present, by rw [total, whole]⟩⟩
  · exact ⟨other, found, .inl rfl⟩

theorem catalogSizes_reuse {assignments : List (Nat × Nat)} {desiredRf : Nat}
    (sizes : CatalogSizes db)
    (matching : ∀ assignment ∈ assignments, ∀ item, db.snapshotItems.get? assignment.1 = some item →
      ∃ row, db.recipes.get? assignment.2 = some row ∧ item.size = row.totalSize)
    (reused : db.reuseItemRecipes assignments desiredRf = .ok after) : CatalogSizes after := by
  obtain ⟨hashes, rfl⟩ := MetadataDB.reuseItemRecipes_ok reused
  have assigned : CatalogSizes
      { db with snapshotItems := MetadataDB.assignRecipes db.snapshotItems assignments } := by
    refine catalogSizes_assign sizes ?_
    intro itemId item found
    obtain ⟨old, located, outcome⟩ := MetadataDB.get?_assignRecipes found
    refine ⟨old, located, ?_⟩
    rcases outcome with same | ⟨recipeId, member, same⟩
    · exact .inl same
    · obtain ⟨row, present, size⟩ := matching (itemId, recipeId) member old located
      exact .inr ⟨recipeId, row, same, present, size⟩
  exact ⟨assigned.recipes, assigned.items, assigned.complete⟩

end Catalog

/-- What a worker has read so far, and what it has read in total once it has returned. -/
def ReadSizes (size : Nat) : WorkerState → Prop
  | .running worker => MetadataDB.recipeTotalSize (worker.entries.map Prod.fst) = worker.fileSize
  | .returned result => MetadataDB.recipeTotalSize result.chunks = size
  | .failed _ => True

def TasksRead (db : MetadataDB) (run : BackupRun) : Prop :=
  ∀ itemId task item, run.tasks.get? itemId = some task → db.snapshotItems.get? itemId = some item →
    ReadSizes item.size task.worker

structure NodeSizes (node : Node) : Prop where
  owned : NodeOwned node
  catalog : CatalogSizes node.host.db
  tasks : ∀ runId run, node.runs.get? runId = some run → TasksRead node.host.db run

section Runs

variable {zstd : Zstd} {blake3 : Blake3} {db after : MetadataDB} {host changed : Host}
  {run next : BackupRun}

theorem readSizes_finishChunk {size : Nat} {worker : RunningWorker} {chunk : CurrentChunk}
    {decision : ChunkDecision} {written : Bool} (read : ReadSizes size (.running worker)) :
    ReadSizes size (.running (worker.finishChunk chunk decision written)) := by
  have earlier : MetadataDB.recipeTotalSize (worker.entries.map Prod.fst) = worker.fileSize := read
  simp only [MetadataDB.recipeTotalSize] at earlier
  simp [ReadSizes, RunningWorker.finishChunk, MetadataDB.recipeTotalSize, ← earlier]

/-- A worker step keeps the sizes, the end of the stream under the condition that the whole size
has been read. -/
theorem readSizes_step {size : Nat} {settings : PlannerSettings} {now : Int} {cas stored : CasFiles}
    {index known : ChunkIndex} {worker : RunningWorker} {event : WorkerEvent} {state : WorkerState}
    (read : ReadSizes size (.running worker))
    (whole : event = .endOfStream → worker.fileSize = size)
    (stepped : workerStep zstd blake3 settings db now cas index worker event = some
      (stored, known, state)) :
    ReadSizes size state := by
  rcases workerStep_cases stepped with ⟨-, -, outcome⟩ |
    ⟨chunk, outcome, inode, result, -, -, -, rfl⟩
  · rcases outcome with ⟨reason, -, rfl⟩ | ⟨data, -, -, rfl⟩ | ⟨ended, -, rfl⟩
    · trivial
    · exact read
    · unfold finishWorker
      split
      · trivial
      · exact Eq.trans read (whole ended)
  · cases result with
    | goto phase => exact read
    | decided decision written => exact readSizes_finishChunk read
    | raised reason => trivial

/-- Tasks read the sizes of items whose size never changes. -/
theorem TasksRead.mono {snapshotId : Nat} (reads : TasksRead db run) (owns : RunOwns db run)
    (effect : CatalogEffect snapshotId db after) : TasksRead after run := by
  intro itemId task item found stored
  obtain ⟨older, located, -⟩ := owns.tasks itemId task found
  obtain ⟨moved, present, same, -⟩ := effect.items itemId older located
  have equal : some moved = some item := present.symm.trans stored
  cases equal
  rw [same.size]
  exact reads itemId task older found located

theorem tasksRead_transition {event : BackupEvent} (owns : RunOwns host.db run)
    (reads : TasksRead host.db run)
    (whole : ∀ itemId task current item, event = .worker itemId .endOfStream →
      run.tasks.get? itemId = some task →
      task.worker = .running current → host.db.snapshotItems.get? itemId = some item →
        current.fileSize = item.size)
    (effect : CatalogEffect run.snapshotId host.db changed.db)
    (transition : BackupTransition zstd blake3 host run event changed next) :
    TasksRead changed.db next := by
  intro itemId task item found stored
  rcases transition.tasks found with older | started | ⟨older, current, workerEvent, rfl, located,
    working, stepped, same⟩
  · exact reads.mono owns effect itemId task item older stored
  · rw [started]
    rfl
  · rw [same] at stored
    have before := reads itemId older item located stored
    rw [working] at before
    refine readSizes_step before ?_ stepped
    intro ended
    exact whole itemId older current item (by rw [ended]) located working stored

/-- Every step of a backup keeps the sizes of the catalog. -/
theorem catalogSizes_transition {event : BackupEvent} (bounded : host.db.ItemIdsBounded)
    (owns : RunOwns host.db run) (recipeIds : host.db.RecipeIdsBounded)
    (catalog : CatalogSizes host.db) (reads : TasksRead host.db run)
    (transition : BackupTransition zstd blake3 host run event changed next) :
    CatalogSizes changed.db := by
  cases transition with
  | addBatch phase added =>
      obtain ⟨row, located, status, -⟩ := owns.creating (by rw [phase]; rfl)
      exact catalogSizes_addItems catalog bounded located status added
  | reuseBatch phase reused =>
      refine catalogSizes_reuse catalog ?_ reused
      intro assignment member item stored
      obtain ⟨registered, inside, owner, -, previousSnapshotId, previousId, previous, -, -,
        located, -, -, -, unchanged, recipe⟩ := mem_reusedAssignments member
      obtain ⟨own, present, entry⟩ := owns.batch registered (by rw [phase]; exact inside)
      have same : some own = some item := by rw [← present, owner, stored]
      cases same
      obtain ⟨row, found, total⟩ := catalog.items previousId previous assignment.2 located recipe
      refine ⟨row, found, ?_⟩
      rw [entry.size, ← total, isUnchangedFile_size unchanged]
      rfl
  | collect found finished collecting consolidated =>
      obtain ⟨item, stored, -⟩ := owns.tasks _ _ found
      have read := reads _ _ item found stored
      rw [finished] at read
      exact catalogSizes_consolidate catalog recipeIds stored read consolidated
  | finish phase idle finished =>
      obtain ⟨row, -, -, assigned, rfl⟩ := MetadataDB.finishSnapshot_ok finished
      exact catalogSizes_setSnapshot catalog fun _ => assigned
  | fail phase failed =>
      rcases MetadataDB.failSnapshot_ok failed with rfl | ⟨row, -, -, rfl⟩
      · exact catalog
      · exact catalogSizes_setSnapshot catalog fun impossible => by cases impossible
  | resolvePrevious phase => exact catalog
  | submit phase => exact catalog
  | submitted phase => exact catalog
  | worker found working stepped => exact catalog
  | collectFailed found failed => exact catalog
  | collectRaised => exact catalog
  | close phase => exact catalog
  | raised => exact catalog

end Runs

section Node

variable {zstd : Zstd} {blake3 : Blake3} {node after : Node}

theorem nodeSizes_fresh (cas : CasFiles) (clock : Int) : NodeSizes (.fresh cas clock) where
  owned := nodeOwned_fresh cas clock
  catalog := catalogSizes_empty
  tasks _ _ found := by cases found

theorem nodeSizes_backup {runId : Nat} {run next : BackupRun} {event : BackupEvent} {host : Host}
    (sizes : NodeSizes node) (found : node.runs.get? runId = some run)
    (whole : readsWalkedSize node (.backup runId event) = true)
    (transition : BackupTransition zstd blake3 node.host run event host next) :
    NodeSizes { node with host, runs := node.runs.set runId next } := by
  have owns := sizes.owned.runs runId run found
  have reads := sizes.tasks runId run found
  have step := ownedStep_transition sizes.owned.itemIds owns transition
  refine ⟨nodeOwned_backup sizes.owned found step,
    catalogSizes_transition sizes.owned.itemIds owns sizes.owned.recipes.recipeIds sizes.catalog
      reads transition, ?_⟩
  intro otherId other located
  rw [Dict.get?_set] at located
  split at located
  · cases located
    refine tasksRead_transition owns reads ?_ step.effect transition
    intro itemId task current item ended present working stored
    rw [ended] at whole
    simpa [readsWalkedSize, found, present, working, stored] using whole
  · exact (sizes.tasks otherId other located).mono
      (sizes.owned.runs otherId other located) step.effect

/-- Every step of the node keeps the sizes, given that a read that ends has the walked size. -/
theorem nodeSizes_step {event : NodeEvent} (sizes : NodeSizes node)
    (whole : readsWalkedSize node event = true)
    (stepped : nodeStep zstd blake3 node event = some after) : NodeSizes after := by
  have owned := nodeOwned_step sizes.owned stepped
  rcases nodeStep_cases stepped with ⟨-, -, rfl⟩ | ⟨request, db, run, -, started, rfl⟩ |
    ⟨runId, run, backupEvent, host, next, rfl, found, transition, rfl⟩ |
    ⟨runId, -, rfl⟩ | ⟨now, -, -, rfl⟩
  · exact sizes
  · obtain ⟨policy, row, -, status, -, rfl, rfl⟩ := startBackup_ok started
    refine ⟨owned, ?_, ?_⟩
    · refine catalogSizes_setSnapshot sizes.catalog ?_
      intro complete
      rw [status] at complete
      cases complete
    · intro runId other found
      rw [Dict.get?_set] at found
      split at found
      · cases found
        intro itemId task item located
        cases located
      · exact sizes.tasks runId other found
  · exact nodeSizes_backup sizes found whole transition
  · refine ⟨owned, sizes.catalog, ?_⟩
    intro otherId other located
    exact sizes.tasks otherId other (Dict.get?_of_get?_erase located)
  · exact ⟨owned, sizes.catalog, sizes.tasks⟩

/-- In every state that backups reach from a new catalog, with every read that ends yielding the
size that the walk reported, a restore finds a matching recipe for each file of each complete
snapshot. -/
theorem completeSnapshots_restorable {cas : CasFiles} {clock : Int} {events : List NodeEvent}
    (whole : EventsMeet (nodeStep zstd blake3) (fun node event => readsWalkedSize node event = true)
      (.fresh cas clock) events)
    (ran : runEvents (nodeStep zstd blake3) (.fresh cas clock) events = some after) :
    CompleteRestorable after.host.db := by
  have sizes : NodeSizes after := runEvents_invariant NodeSizes
    (fun _ _ _ holds meets stepped => nodeSizes_step holds meets stepped)
      (nodeSizes_fresh cas clock) whole ran
  exact completeRestorable_of_sizes sizes.catalog

end Node

namespace OneFileBackup

def blake3 : Blake3 := .ofTable [
  (encodeUtf8 "abc".toList, 0x6437b3ac38465133ffb63b75273a8db548c558465d79db03fd359c6cd5bd9d85),
  (recipeHashDomain
      ++ toBytesBig 4 0 ++
        toBytesBig 32 0x6437b3ac38465133ffb63b75273a8db548c558465d79db03fd359c6cd5bd9d85
      ++ toBytesBig 8 3,
    0xad6c7d8ee1b9630a1714d5bea401980e1919c21c5c361b7ac7e1c6d24c7dfb24)]

def request : BackupRequest where
  policy := {
    desiredRf := 0
    membershipSeed := none
    clusterToken := []
    membership := fun _ => none
    fastLocalEnabled := true
    fastRemoteEnabled := false
    safeMode := false
    originNodeId := "o".toList }
  rootPath := toPyText "/d".toList
  snapshotUuid := "u1".toList
  createdAt := "2024-01-01 00:00:00".toList

def entry (size : Nat) : WalkEntry where
  relPath := toPyText "f".toList
  stat := { size, mode := 33188, mtime := ⟨0⟩, mtimeNs := 0, ctimeNs := 0, uid := 0, gid := 0 }
  itemType := .file

def step (inode : Nat) : BackupEvent := .worker 1 (.advance .done inode)

/-- The walk reports `size` bytes and the worker reads the three bytes `abc`. -/
def backupEvents (size : Nat) : List BackupEvent :=
  let before : List BackupEvent :=
    [.resolvePrevious, .addBatch [entry size], .reuseBatch, .submit,
      .worker 1 (.nextChunk (encodeUtf8 "abc".toList))]
  let after : List BackupEvent := [.worker 1 .endOfStream, .submit, .collect 1, .finish]
  before ++ List.replicate 7 (step 7) ++ [step 8] ++ after

def events (size : Nat) : List NodeEvent := .start request :: (backupEvents size).map (.backup 1)

/-- What a restore finds for the only item after the run. -/
def restoreCheck (size : Nat) : Option (SnapshotStatus × Option (Nat × Nat × Nat)) := do
  let node ← runEvents (nodeStep .rawBlock blake3) (.fresh .empty 0) (events size)
  let item ← node.host.db.snapshotItems.get? 1
  let row ← node.host.db.snapshots.get? item.snapshotId
  if item.itemType = .file then some (row.status, (checkFileItem node.host.db item).toOption)
    else none

theorem restoreCheck_some {size : Nat} {status : SnapshotStatus}
    {summary : Option (Nat × Nat × Nat)} (checked : restoreCheck size = some (status, summary)) :
    ∃ node item row, runEvents (nodeStep .rawBlock blake3) (.fresh .empty 0)
      (events size) = some node ∧
      node.host.db.snapshotItems.get? 1 = some item ∧ item.itemType = .file ∧
      node.host.db.snapshots.get? item.snapshotId = some row ∧ row.status = status ∧
      (checkFileItem node.host.db item).toOption = summary := by
  simp only [restoreCheck, Option.bind_eq_bind, Option.bind_eq_some_iff] at checked
  obtain ⟨node, ran, item, stored, row, located, checked⟩ := checked
  split at checked
  · rename_i file
    rw [Option.some.injEq, Prod.mk.injEq] at checked
    exact ⟨node, item, row, ran, stored, file, located, checked.1, checked.2⟩
  · cases checked

end OneFileBackup

/-- The file shrinks from five to three bytes between the walk and the read: the snapshot
completes and its only file cannot be restored. -/
theorem shrunkFile_not_restorable :
    ¬ ∀ zstd blake3 cas clock events node, runEvents (nodeStep zstd blake3)
      (.fresh cas clock) events = some node → CompleteRestorable node.host.db := by
  intro restorable
  have checked : OneFileBackup.restoreCheck 5 = some (.complete, none) := by decide +kernel
  obtain ⟨node, item, row, ran, stored, file, located, status, rejected⟩ :=
    OneFileBackup.restoreCheck_some checked
  obtain ⟨summary, accepted⟩ := restorable _ _ _ _ _ node ran 1 item row stored file located status
  rw [accepted] at rejected
  cases rejected

theorem stableFile_restorable :
    ∃ node, runEvents (nodeStep .rawBlock OneFileBackup.blake3) (.fresh .empty 0)
      (OneFileBackup.events 3) = some node ∧
      (∃ itemId item row, node.host.db.snapshotItems.get? itemId = some item ∧
        item.itemType = .file ∧
        node.host.db.snapshots.get? item.snapshotId = some row ∧ row.status = .complete) ∧
      CompleteRestorable node.host.db := by
  have checked : OneFileBackup.restoreCheck 3 = some (.complete, some (1, 1, 3)) := by
    decide +kernel
  obtain ⟨node, item, row, ran, stored, file, located, status, -⟩ :=
    OneFileBackup.restoreCheck_some checked
  have whole : checkEvents (nodeStep .rawBlock OneFileBackup.blake3) readsWalkedSize
      (.fresh .empty 0)
      (OneFileBackup.events 3) = true := by decide +kernel
  exact ⟨node, ran, ⟨1, item, row, stored, file, located, status⟩,
    completeSnapshots_restorable (eventsMeet_of_checkEvents whole) ran⟩

end Stopan.Backup
