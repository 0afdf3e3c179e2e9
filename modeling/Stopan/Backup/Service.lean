import Stopan.Backup.Policy
import Stopan.Backup.Worker

/-!
The backup service (`stopan/backup/service.py`): the coordinator that walks a tree, registers its
entries, reuses or submits files, consolidates the recipes of finished workers and closes the
snapshot. A backup is a machine whose steps are the transactions of the coordinator and the steps
of its workers, in any order in which the threads may take them.
-/

namespace Stopan.Backup

open Stopan.Lib Stopan.Common Stopan.Cas Stopan.Chunking Stopan.Metadata

/-- What all processes of the node share: the catalog, the CAS and the clock of the filesystem. -/
structure Host where
  db : MetadataDB
  cas : CasFiles
  clock : Int

structure BackupRunStats where
  files : Nat := 0
  size : Nat := 0
  chunksTotal : Nat := 0
  processed : Nat := 0
  written : Nat := 0
  skipped : Nat := 0
  skippedLocal : Nat := 0
  skippedRemote : Nat := 0
  deriving DecidableEq, Repr

def BackupRunStats.addWorkerFile (totals : BackupRunStats) (fileSize : Nat) (stats : WorkerStats) :
    BackupRunStats where
  files := totals.files + 1
  size := totals.size + fileSize
  chunksTotal := totals.chunksTotal + stats.chunksTotal
  processed := totals.processed + stats.processed
  written := totals.written + stats.written
  skipped := totals.skipped + stats.skipped
  skippedLocal := totals.skippedLocal + stats.skippedLocal
  skippedRemote := totals.skippedRemote + stats.skippedRemote

def BackupRunStats.addReusedFile (totals : BackupRunStats) (fileSize : Nat) : BackupRunStats :=
  { totals with files := totals.files + 1, size := totals.size + fileSize }

def snapshotItemBatchSize : Nat := 32

/-- A walk entry that has been registered, with its item id and its path in the catalog. -/
structure RegisteredEntry where
  itemId : Nat
  path : Text
  entry : WalkEntry
  deriving DecidableEq, Repr

/-- A submitted file: the value of its future. -/
structure Task where
  path : Text
  worker : WorkerState
  deriving DecidableEq, Repr

/-- Where the coordinator stands. -/
inductive RunPhase where
  | created
  | walking
  | registered (batch : List RegisteredEntry)
  | submitting (pending : List RegisteredEntry)
  | failing (reason : StopanError)
  | closed
  deriving DecidableEq, Repr

structure BackupRun where
  policy : BackupPolicy
  safeMode : Bool
  rootPath : Text
  snapshotId : Nat
  previousSnapshotId : Option Nat
  index : ChunkIndex
  phase : RunPhase
  tasks : Dict Nat Task
  failedFiles : List (Text × StopanError)
  totals : BackupRunStats

/-- A backup right after `create_snapshot`. -/
def BackupRun.start (policy : BackupPolicy) (safeMode : Bool) (rootPath : Text)
    (snapshotId : Nat) : BackupRun where
  policy
  safeMode
  rootPath
  snapshotId
  previousSnapshotId := none
  index := .create
  phase := .created
  tasks := .empty
  failedFiles := []
  totals := {}

def BackupRun.settings (run : BackupRun) : PlannerSettings where
  fastPathEnabled := run.policy.fastLocalEnabled
  safeMode := run.safeMode
  allowRemoteProtectedSkip := run.policy.fastRemoteEnabled
  desiredRf := run.policy.desiredRf
  placementEpoch := run.policy.placementEpoch

def isUnchangedFile (previous : SnapshotItemRow) (stat : StatInfo) : Bool :=
  previous.size == stat.size
    && previous.mode == stat.mode
    && previous.uid == stat.uid
    && previous.gid == stat.gid
    && previous.mtimeNs == stat.mtimeNs
    && previous.ctimeNs.isSome
    && previous.ctimeNs == some stat.ctimeNs
    && previous.recipeId.isSome

/-- The catalog text of a path that `add_items` accepted. -/
def entryPath (entry : WalkEntry) : Text := entry.relPath.filterMap PyChar.toScalar?

def registerEntries (itemIds : List Nat) (entries : List WalkEntry) : List RegisteredEntry :=
  List.zipWith (fun itemId entry => { itemId, path := entryPath entry, entry }) itemIds entries

def isFileEntry (registered : RegisteredEntry) : Bool := registered.entry.itemType == .file

/-- `previous_items` for a batch. -/
def BackupRun.previousItems (run : BackupRun) (db : MetadataDB) (batch : List RegisteredEntry) :
    Dict Text SnapshotItemRow :=
  match run.previousSnapshotId with
  | none => .empty
  | some previous =>
      if run.safeMode then .empty
      else db.getFileItemsByPaths previous ((batch.filter isFileEntry).map (·.path))

/-- The recipe that a file takes over from the previous snapshot, if its stat is unchanged. -/
def reusedRecipe (previousItems : Dict Text SnapshotItemRow) (registered : RegisteredEntry) :
    Option Nat :=
  match previousItems.get? registered.path with
  | none => none
  | some previous =>
      if isUnchangedFile previous registered.entry.stat then previous.recipeId else none

def reusedAssignments (previousItems : Dict Text SnapshotItemRow) (batch : List RegisteredEntry) :
    List (Nat × Nat) :=
  (batch.filter isFileEntry).filterMap fun registered =>
    (reusedRecipe previousItems registered).map fun recipeId => (registered.itemId, recipeId)

def pendingProcessing (previousItems : Dict Text SnapshotItemRow) (batch : List RegisteredEntry) :
    List RegisteredEntry :=
  (batch.filter isFileEntry).filter fun registered => (reusedRecipe previousItems registered).isNone

def countReused (previousItems : Dict Text SnapshotItemRow) (batch : List RegisteredEntry)
    (totals : BackupRunStats) : BackupRunStats :=
  ((batch.filter isFileEntry).filter fun registered =>
    (reusedRecipe previousItems registered).isSome).foldl
    (fun totals registered => totals.addReusedFile registered.entry.stat.size) totals

/-- The steps of one backup. Finished futures are collected between submissions and at the end;
at which of these moments is left open, and so is the number of threads. -/
inductive BackupEvent where
  | resolvePrevious
  | addBatch (entries : List WalkEntry)
  | reuseBatch
  | submit
  | worker (itemId : Nat) (event : WorkerEvent)
  | collect (itemId : Nat)
  | finish
  | interrupt (reason : StopanError)
  | fail
  deriving DecidableEq, Repr

/-- The exception leaves the coordinator's loop; the catalog stays as the transactions left it. -/
def BackupRun.raise (run : BackupRun) (reason : StopanError) : BackupRun :=
  { run with phase := .failing reason }

def BackupRun.collects (run : BackupRun) : Bool :=
  match run.phase with
  | .walking | .submitting _ => true
  | .created | .registered _ | .failing _ | .closed => false

def failedFilesPreview (failedFiles : List (Text × StopanError)) : String :=
  let shown :=
    (failedFiles.take 5).map fun failed => s!"{String.ofList failed.1}: {failed.2.message}"
  let rest := if 5 < failedFiles.length then s!"; ... (+{failedFiles.length - 5} más)" else ""
  String.intercalate "; " shown ++ rest

def raiseIfFailedFiles (failedFiles : List (Text × StopanError)) : Except StopanError Unit :=
  ensure failedFiles.isEmpty
    (.storage
      s!"Backup incompleto: fallaron {failedFiles.length} archivo(s). {failedFilesPreview failedFiles}")

/-- The text with which the coordinator marks its snapshot as failed. -/
def failureText : StopanError → Text
  | .keyboardInterrupt => "backup interrumpido por el usuario".toList
  | reason => reason.message.toList

def addBatchStep (host : Host) (run : BackupRun) (entries : List WalkEntry) : Host × BackupRun :=
  match host.db.addItems run.snapshotId entries with
  | .error reason => (host, run.raise reason)
  | .ok (db, itemIds) =>
      ({ host with db }, { run with phase := .registered (registerEntries itemIds entries) })

def reuseBatchStep (host : Host) (run : BackupRun) (batch : List RegisteredEntry) :
    Host × BackupRun :=
  let previousItems := run.previousItems host.db batch
  match host.db.reuseItemRecipes (reusedAssignments previousItems batch) run.policy.desiredRf with
  | .error reason => (host, run.raise reason)
  | .ok db =>
      ({ host with db }, { run with
        phase := .submitting (pendingProcessing previousItems batch)
        totals := countReused previousItems batch run.totals })

def submitStep (host : Host) (run : BackupRun) : List RegisteredEntry → Host × BackupRun
  | [] => (host, { run with phase := .walking })
  | next :: rest =>
      (host, { run with
        phase := .submitting rest
        tasks := run.tasks.set next.itemId { path := next.path, worker := .running .start } })

def collectStep (host : Host) (run : BackupRun) (itemId : Nat) (task : Task) :
    Option (Host × BackupRun) :=
  match task.worker with
  | .running _ => none
  | .failed reason =>
      some (host, { run with
        tasks := run.tasks.erase itemId
        failedFiles := run.failedFiles ++ [(task.path, reason)] })
  | .returned result =>
      match host.db.consolidateItemRecipe itemId result.recipeHash result.chunks
        run.policy.desiredRf with
      | .error reason => some (host, { run with tasks := run.tasks.erase itemId }.raise reason)
      | .ok (db, _) =>
          some ({ host with db }, { run with
            tasks := run.tasks.erase itemId
            totals := run.totals.addWorkerFile result.fileSize result.stats })

def finishStep (host : Host) (run : BackupRun) : Host × BackupRun :=
  match raiseIfFailedFiles run.failedFiles with
  | .error reason => (host, run.raise reason)
  | .ok _ =>
      match host.db.finishSnapshot run.snapshotId run.totals.size run.totals.files with
      | .error reason => (host, run.raise reason)
      | .ok db => ({ host with db }, { run with phase := .closed })

/-- The handler of the coordinator's exceptions; an error of `fail_snapshot` itself is dropped. -/
def failStep (host : Host) (run : BackupRun) (reason : StopanError) : Host × BackupRun :=
  match host.db.failSnapshot run.snapshotId (failureText reason) with
  | .error _ => (host, { run with phase := .closed })
  | .ok db => ({ host with db }, { run with phase := .closed })

def stepWorker (zstd : Zstd) (blake3 : Blake3) (host : Host) (run : BackupRun)
    (itemId : Nat) (task : Task) (event : WorkerEvent) : Option (Host × BackupRun) :=
  match task.worker with
  | .running worker =>
      match workerStep zstd blake3 run.settings host.db host.clock host.cas
        run.index worker event with
      | none => none
      | some (cas, index, state) =>
          some ({ host with cas },
            { run with index, tasks := run.tasks.set itemId { task with worker := state } })
  | .returned _ | .failed _ => none

/-- One step of a backup; `none` when the event cannot happen in the state. -/
def backupStep (zstd : Zstd) (blake3 : Blake3) (state : Host × BackupRun) (event : BackupEvent) :
    Option (Host × BackupRun) :=
  match event with
  | .resolvePrevious =>
      match state.2.phase with
      | .created =>
          some (state.1, { state.2 with
            phase := .walking
            previousSnapshotId :=
              state.1.db.getPrevSnapshotId state.2.rootPath state.2.snapshotId })
      | _ => none
  | .addBatch entries =>
      match state.2.phase with
      | .walking =>
          if entries.isEmpty || decide (snapshotItemBatchSize < entries.length) then none
          else some (addBatchStep state.1 state.2 entries)
      | _ => none
  | .reuseBatch =>
      match state.2.phase with
      | .registered batch => some (reuseBatchStep state.1 state.2 batch)
      | _ => none
  | .submit =>
      match state.2.phase with
      | .submitting pending => some (submitStep state.1 state.2 pending)
      | _ => none
  | .worker itemId event =>
      match state.2.tasks.get? itemId with
      | none => none
      | some task => stepWorker zstd blake3 state.1 state.2 itemId task event
  | .collect itemId =>
      match state.2.tasks.get? itemId with
      | none => none
      | some task => if state.2.collects then collectStep state.1 state.2 itemId task else none
  | .finish =>
      match state.2.phase with
      | .walking => if state.2.tasks.keys.isEmpty then some (finishStep state.1 state.2) else none
      | _ => none
  | .interrupt reason =>
      match state.2.phase with
      | .failing _ | .closed => none
      | _ => some (state.1, state.2.raise reason)
  | .fail =>
      match state.2.phase with
      | .failing reason =>
          if state.2.tasks.values.all (·.worker.finished) then
            some (failStep state.1 state.2 reason) else none
      | _ => none

theorem get?_previousItems {run : BackupRun} {db : MetadataDB} {batch : List RegisteredEntry}
    {path : Text}
    {previous : SnapshotItemRow} (found : (run.previousItems db batch).get? path = some previous) :
    ∃ previousSnapshotId previousId, run.previousSnapshotId = some previousSnapshotId ∧
      run.safeMode = false ∧
      db.snapshotItems.get? previousId = some previous ∧ previous.snapshotId = previousSnapshotId ∧
      previous.itemType = .file ∧ previous.path = path := by
  unfold BackupRun.previousItems at found
  split at found
  · cases found
  · rename_i previousSnapshotId recorded
    split at found
    · cases found
    · rename_i mode
      obtain ⟨same, owner, kind, previousId, stored⟩ := MetadataDB.mem_getFileItemsByPaths found
      exact ⟨previousSnapshotId, previousId, recorded, by simpa using mode,
        stored, owner, kind, same⟩

theorem reusedRecipe_some {previousItems : Dict Text SnapshotItemRow} {registered : RegisteredEntry}
    {recipeId : Nat} (reused : reusedRecipe previousItems registered = some recipeId) :
    ∃ previous, previousItems.get? registered.path = some previous ∧
      isUnchangedFile previous registered.entry.stat = true ∧
        previous.recipeId = some recipeId := by
  unfold reusedRecipe at reused
  split at reused
  · cases reused
  · rename_i previous found
    split at reused
    · rename_i unchanged
      exact ⟨previous, found, unchanged, reused⟩
    · cases reused

theorem mem_reusedAssignments_iff {previousItems : Dict Text SnapshotItemRow}
    {batch : List RegisteredEntry}
    {itemId recipeId : Nat} : (itemId, recipeId) ∈ reusedAssignments previousItems batch ↔
      ∃ registered ∈ batch, registered.itemId = itemId ∧ registered.entry.itemType = .file ∧
        reusedRecipe previousItems registered = some recipeId := by
  simp only [reusedAssignments, List.mem_filterMap, List.mem_filter, Option.map_eq_some_iff,
    Prod.mk.injEq, isFileEntry, beq_iff_eq]
  constructor
  · rintro ⟨registered, ⟨listed, file⟩, recipe, reused, rfl, rfl⟩
    exact ⟨registered, listed, rfl, file, reused⟩
  · rintro ⟨registered, listed, rfl, file, reused⟩
    exact ⟨registered, ⟨listed, file⟩, recipeId, reused, rfl, rfl⟩

/-- A reused recipe comes from an unchanged file of the previous snapshot. -/
theorem mem_reusedAssignments {run : BackupRun} {db : MetadataDB} {batch : List RegisteredEntry}
    {itemId recipeId : Nat}
    (member : (itemId, recipeId) ∈ reusedAssignments (run.previousItems db batch) batch) :
    ∃ registered ∈ batch, registered.itemId = itemId ∧ registered.entry.itemType = .file ∧
      ∃ previousSnapshotId previousId previous, run.previousSnapshotId = some previousSnapshotId ∧
        run.safeMode = false ∧ db.snapshotItems.get? previousId = some previous ∧
        previous.snapshotId = previousSnapshotId ∧ previous.itemType = .file ∧
        previous.path = registered.path ∧
        isUnchangedFile previous registered.entry.stat = true ∧
          previous.recipeId = some recipeId := by
  obtain ⟨registered, listed, rfl, file, reused⟩ := mem_reusedAssignments_iff.mp member
  obtain ⟨previous, found, unchanged, recipe⟩ := reusedRecipe_some reused
  obtain ⟨previousSnapshotId, previousId, recorded, mode, stored, owner, kind, path⟩ :=
    get?_previousItems found
  exact ⟨registered, listed, rfl, file, previousSnapshotId, previousId, previous, recorded, mode,
    stored, owner, kind, path, unchanged, recipe⟩

theorem isUnchangedFile_size {previous : SnapshotItemRow} {stat : StatInfo}
    (unchanged : isUnchangedFile previous stat = true) : previous.size = stat.size := by
  simp only [isUnchangedFile, Bool.and_eq_true, beq_iff_eq] at unchanged
  exact unchanged.1.1.1.1.1.1.1

theorem isUnchangedFile_ctimeNs {previous : SnapshotItemRow} {stat : StatInfo}
    (unchanged : isUnchangedFile previous stat = true) : previous.ctimeNs = some stat.ctimeNs := by
  simp only [isUnchangedFile, Bool.and_eq_true, beq_iff_eq] at unchanged
  exact unchanged.1.2

/-- Everything that a step of a backup can do to the node and to the backup itself. -/
inductive BackupTransition (zstd : Zstd) (blake3 : Blake3) (host : Host) (run : BackupRun) :
    BackupEvent → Host → BackupRun → Prop where
  | resolvePrevious (phase : run.phase = .created) :
      BackupTransition zstd blake3 host run .resolvePrevious host { run with
        phase := .walking
        previousSnapshotId := host.db.getPrevSnapshotId run.rootPath run.snapshotId }
  | addBatch {entries db itemIds} (phase : run.phase = .walking)
      (added : host.db.addItems run.snapshotId entries = .ok (db, itemIds)) :
      BackupTransition zstd blake3 host run (.addBatch entries) { host with db }
        { run with phase := .registered (registerEntries itemIds entries) }
  | reuseBatch {batch db} (phase : run.phase = .registered batch)
      (reused : host.db.reuseItemRecipes (reusedAssignments (run.previousItems host.db batch) batch)
        run.policy.desiredRf = .ok db) :
      BackupTransition zstd blake3 host run .reuseBatch { host with db } { run with
        phase := .submitting (pendingProcessing (run.previousItems host.db batch) batch)
        totals := countReused (run.previousItems host.db batch) batch run.totals }
  | submit {next rest} (phase : run.phase = .submitting (next :: rest)) :
      BackupTransition zstd blake3 host run .submit host { run with
        phase := .submitting rest
        tasks := run.tasks.set next.itemId { path := next.path, worker := .running .start } }
  | submitted (phase : run.phase = .submitting []) :
      BackupTransition zstd blake3 host run .submit host { run with phase := .walking }
  | worker {itemId task current event cas index state} (found : run.tasks.get? itemId = some task)
      (working : task.worker = .running current)
      (stepped : workerStep zstd blake3 run.settings host.db host.clock host.cas
        run.index current event = some (cas, index, state)) :
      BackupTransition zstd blake3 host run (.worker itemId event) { host with cas }
        { run with index, tasks := run.tasks.set itemId { task with worker := state } }
  | collect {itemId task result db recipeId} (found : run.tasks.get? itemId = some task)
      (finished : task.worker = .returned result) (collecting : run.collects = true)
      (consolidated : host.db.consolidateItemRecipe itemId result.recipeHash result.chunks
        run.policy.desiredRf = .ok (db, recipeId)) :
      BackupTransition zstd blake3 host run (.collect itemId) { host with db } { run with
        tasks := run.tasks.erase itemId
        totals := run.totals.addWorkerFile result.fileSize result.stats }
  | collectFailed {itemId task reason} (found : run.tasks.get? itemId = some task)
      (failed : task.worker = .failed reason) :
      BackupTransition zstd blake3 host run (.collect itemId) host { run with
        tasks := run.tasks.erase itemId
        failedFiles := run.failedFiles ++ [(task.path, reason)] }
  | collectRaised {itemId reason} :
      BackupTransition zstd blake3 host run (.collect itemId) host
        ({ run with tasks := run.tasks.erase itemId }.raise reason)
  | finish {db} (phase : run.phase = .walking) (idle : run.tasks.keys = [])
      (finished : host.db.finishSnapshot run.snapshotId run.totals.size run.totals.files = .ok db) :
      BackupTransition zstd blake3 host run .finish { host with db } { run with phase := .closed }
  | fail {reason db} (phase : run.phase = .failing reason)
      (failed : host.db.failSnapshot run.snapshotId (failureText reason) = .ok db) :
      BackupTransition zstd blake3 host run .fail { host with db } { run with phase := .closed }
  | close {reason} (phase : run.phase = .failing reason) :
      BackupTransition zstd blake3 host run .fail host { run with phase := .closed }
  | raised {event reason} : BackupTransition zstd blake3 host run event host (run.raise reason)

variable {zstd : Zstd} {blake3 : Blake3} {host after : Host} {run next : BackupRun}

theorem addBatchStep_transition {entries : List WalkEntry} (phase : run.phase = .walking)
    (stepped : addBatchStep host run entries = (after, next)) :
    BackupTransition zstd blake3 host run (.addBatch entries) after next := by
  cases added : host.db.addItems run.snapshotId entries with
  | error reason =>
      simp only [addBatchStep, added, Prod.mk.injEq] at stepped
      obtain ⟨rfl, rfl⟩ := stepped
      exact .raised
  | ok result =>
      simp only [addBatchStep, added, Prod.mk.injEq] at stepped
      obtain ⟨rfl, rfl⟩ := stepped
      exact .addBatch phase added

theorem reuseBatchStep_transition {batch : List RegisteredEntry}
    (phase : run.phase = .registered batch)
    (stepped : reuseBatchStep host run batch = (after, next)) :
    BackupTransition zstd blake3 host run .reuseBatch after next := by
  cases reused : host.db.reuseItemRecipes
      (reusedAssignments (run.previousItems host.db batch) batch)
      run.policy.desiredRf with
  | error reason =>
      simp only [reuseBatchStep, reused, Prod.mk.injEq] at stepped
      obtain ⟨rfl, rfl⟩ := stepped
      exact .raised
  | ok db =>
      simp only [reuseBatchStep, reused, Prod.mk.injEq] at stepped
      obtain ⟨rfl, rfl⟩ := stepped
      exact .reuseBatch phase reused

theorem submitStep_transition {pending : List RegisteredEntry}
    (phase : run.phase = .submitting pending)
    (stepped : submitStep host run pending = (after, next)) :
    BackupTransition zstd blake3 host run .submit after next := by
  cases pending with
  | nil =>
      cases stepped
      exact .submitted phase
  | cons entry rest =>
      cases stepped
      exact .submit phase

theorem stepWorker_transition {itemId : Nat} {task : Task} {event : WorkerEvent}
    (found : run.tasks.get? itemId = some task)
    (stepped : stepWorker zstd blake3 host run itemId task event = some (after, next)) :
    BackupTransition zstd blake3 host run (.worker itemId event) after next := by
  cases working : task.worker with
  | running current =>
      cases ran : workerStep zstd blake3 run.settings host.db host.clock host.cas
        run.index current event with
      | none => simp [stepWorker, working, ran] at stepped
      | some outcome =>
          simp only [stepWorker, working, ran, Option.some.injEq, Prod.mk.injEq] at stepped
          obtain ⟨rfl, rfl⟩ := stepped
          exact .worker found working ran
  | returned result => simp [stepWorker, working] at stepped
  | failed reason => simp [stepWorker, working] at stepped

theorem collectStep_transition {itemId : Nat} {task : Task}
    (found : run.tasks.get? itemId = some task) (collecting : run.collects = true)
    (stepped : collectStep host run itemId task = some (after, next)) :
    BackupTransition zstd blake3 host run (.collect itemId) after next := by
  cases state : task.worker with
  | running current => simp [collectStep, state] at stepped
  | failed reason =>
      simp only [collectStep, state, Option.some.injEq, Prod.mk.injEq] at stepped
      obtain ⟨rfl, rfl⟩ := stepped
      exact .collectFailed found state
  | returned result =>
      cases consolidated : host.db.consolidateItemRecipe itemId result.recipeHash result.chunks
          run.policy.desiredRf with
      | error reason =>
          simp only [collectStep, state, consolidated, Option.some.injEq, Prod.mk.injEq] at stepped
          obtain ⟨rfl, rfl⟩ := stepped
          exact .collectRaised
      | ok outcome =>
          simp only [collectStep, state, consolidated, Option.some.injEq, Prod.mk.injEq] at stepped
          obtain ⟨rfl, rfl⟩ := stepped
          exact .collect found state collecting consolidated

theorem finishStep_transition (phase : run.phase = .walking) (idle : run.tasks.keys = [])
    (stepped : finishStep host run = (after, next)) :
    BackupTransition zstd blake3 host run .finish after next := by
  cases failures : raiseIfFailedFiles run.failedFiles with
  | error reason =>
      simp only [finishStep, failures, Prod.mk.injEq] at stepped
      obtain ⟨rfl, rfl⟩ := stepped
      exact .raised
  | ok done =>
      cases finished : host.db.finishSnapshot run.snapshotId run.totals.size run.totals.files with
      | error reason =>
          simp only [finishStep, failures, finished, Prod.mk.injEq] at stepped
          obtain ⟨rfl, rfl⟩ := stepped
          exact .raised
      | ok db =>
          simp only [finishStep, failures, finished, Prod.mk.injEq] at stepped
          obtain ⟨rfl, rfl⟩ := stepped
          exact .finish phase idle finished

theorem failStep_transition {reason : StopanError} (phase : run.phase = .failing reason)
    (stepped : failStep host run reason = (after, next)) :
    BackupTransition zstd blake3 host run .fail after next := by
  cases failed : host.db.failSnapshot run.snapshotId (failureText reason) with
  | error problem =>
      simp only [failStep, failed, Prod.mk.injEq] at stepped
      obtain ⟨rfl, rfl⟩ := stepped
      exact .close phase
  | ok db =>
      simp only [failStep, failed, Prod.mk.injEq] at stepped
      obtain ⟨rfl, rfl⟩ := stepped
      exact .fail phase failed

theorem backupStep_transition {event : BackupEvent}
    (stepped : backupStep zstd blake3 (host, run) event = some (after, next)) :
    BackupTransition zstd blake3 host run event after next := by
  cases event with
  | resolvePrevious =>
      cases phase : run.phase <;> simp only [backupStep, phase, reduceCtorEq] at stepped
      cases stepped
      exact .resolvePrevious phase
  | addBatch entries =>
      cases phase : run.phase <;> simp only [backupStep, phase, reduceCtorEq] at stepped
      split at stepped
      · cases stepped
      · exact addBatchStep_transition phase (Option.some.inj stepped)
  | reuseBatch =>
      cases phase : run.phase <;> simp only [backupStep, phase, reduceCtorEq] at stepped
      exact reuseBatchStep_transition phase (Option.some.inj stepped)
  | submit =>
      cases phase : run.phase <;> simp only [backupStep, phase, reduceCtorEq] at stepped
      exact submitStep_transition phase (Option.some.inj stepped)
  | worker itemId event =>
      cases found : run.tasks.get? itemId with
      | none => simp [backupStep, found] at stepped
      | some task =>
          simp only [backupStep, found] at stepped
          exact stepWorker_transition found stepped
  | collect itemId =>
      cases found : run.tasks.get? itemId with
      | none => simp [backupStep, found] at stepped
      | some task =>
          simp only [backupStep, found] at stepped
          split at stepped
          · rename_i collecting
            exact collectStep_transition found collecting stepped
          · cases stepped
  | finish =>
      cases phase : run.phase <;> simp only [backupStep, phase, reduceCtorEq] at stepped
      split at stepped
      · rename_i idle
        exact finishStep_transition phase (List.isEmpty_iff.mp idle) (Option.some.inj stepped)
      · cases stepped
  | interrupt reason =>
      cases phase : run.phase <;> simp only [backupStep, phase, reduceCtorEq, Option.some.injEq,
        Prod.mk.injEq] at stepped <;>
      · obtain ⟨rfl, rfl⟩ := stepped
        exact .raised
  | fail =>
      cases phase : run.phase <;> simp only [backupStep, phase, reduceCtorEq] at stepped
      split at stepped
      · exact failStep_transition phase (Option.some.inj stepped)
      · cases stepped

/-- Where the workers after a step come from: they were there before, they have just started, or
the step was theirs. -/
theorem BackupTransition.tasks {event : BackupEvent} {itemId : Nat} {task : Task}
    (transition : BackupTransition zstd blake3 host run event after next)
    (found : next.tasks.get? itemId = some task) :
    run.tasks.get? itemId = some task ∨ task.worker = .running .start ∨
      ∃ older current workerEvent, event = .worker itemId workerEvent ∧
        run.tasks.get? itemId = some older ∧ older.worker = .running current ∧
        workerStep zstd blake3 run.settings host.db host.clock host.cas run.index
          current workerEvent = some (after.cas, next.index, task.worker) ∧ after.db = host.db := by
  have erased : ∀ otherId, (run.tasks.erase otherId).get? itemId = some task →
      run.tasks.get? itemId = some task :=
    fun _ located => Dict.get?_of_get?_erase located
  cases transition with
  | submit phase =>
      rw [Dict.get?_set] at found
      split at found
      · cases found
        exact .inr (.inl rfl)
      · exact .inl found
  | worker located working stepped =>
      rw [Dict.get?_set] at found
      split at found
      · rename_i same
        subst same
        cases found
        exact .inr (.inr ⟨_, _, _, rfl, located, working, stepped, rfl⟩)
      · exact .inl found
  | collect located finished collecting consolidated => exact .inl (erased _ found)
  | collectFailed located failed => exact .inl (erased _ found)
  | collectRaised => exact .inl (erased _ found)
  | resolvePrevious phase => exact .inl found
  | addBatch phase added => exact .inl found
  | reuseBatch phase reused => exact .inl found
  | submitted phase => exact .inl found
  | finish phase idle finished => exact .inl found
  | fail phase failed => exact .inl found
  | close phase => exact .inl found
  | raised => exact .inl found

end Stopan.Backup
