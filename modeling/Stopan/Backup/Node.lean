import Stopan.Lib.Runs
import Stopan.Backup.Service

namespace Stopan.Backup

open Stopan.Lib Stopan.Common Stopan.Cas Stopan.Chunking Stopan.Metadata

structure Node where
  host : Host
  runs : Dict Nat BackupRun
  lastRunId : Nat

/-- A node whose catalog has just been created. -/
def Node.fresh (cas : CasFiles) (clock : Int) : Node where
  host := { db := .empty, cas, clock }
  runs := .empty
  lastRunId := 0

/-- The arguments of `backup_directory`, with the values that the environment chooses. -/
structure BackupRequest where
  policy : PolicyRequest
  rootPath : PyText
  snapshotUuid : Text
  createdAt : Text

inductive NodeEvent where
  | start (request : BackupRequest)
  | backup (runId : Nat) (event : BackupEvent)
  | kill (runId : Nat)
  | tick (now : Int)

/-- `backup_directory` up to and including `create_snapshot`. -/
def startBackup (blake3 : Blake3) (db : MetadataDB) (request : BackupRequest) :
    Except StopanError (MetadataDB × BackupRun) := do
  let policy ← buildBackupFastPathPolicy blake3 request.policy
  let created ← db.createSnapshot request.snapshotUuid request.createdAt request.rootPath
    request.policy.originNodeId
  return (created.1, .start policy request.policy.safeMode
    (request.rootPath.filterMap PyChar.toScalar?) created.2)

/-- One step of the node; `none` when the event cannot happen in the state. -/
def nodeStep (zstd : Zstd) (blake3 : Blake3) (node : Node) (event : NodeEvent) : Option Node :=
  match event with
  | .start request =>
      match startBackup blake3 node.host.db request with
      | .error _ => some node
      | .ok started =>
          some {
            host := { node.host with db := started.1 }
            runs := node.runs.set (node.lastRunId + 1) started.2
            lastRunId := node.lastRunId + 1 }
  | .backup runId event =>
      match node.runs.get? runId with
      | none => none
      | some run =>
          match backupStep zstd blake3 (node.host, run) event with
          | none => none
          | some stepped =>
              some { node with host := stepped.1, runs := node.runs.set runId stepped.2 }
  | .kill runId => some { node with runs := node.runs.erase runId }
  | .tick now =>
      if node.host.clock ≤ now then some { node with host := { node.host with clock := now } }
        else none

theorem startBackup_ok {blake3 : Blake3} {db after : MetadataDB}
    {request : BackupRequest} {run : BackupRun}
    (started : startBackup blake3 db request = .ok (after, run)) :
    ∃ policy row, buildBackupFastPathPolicy blake3 request.policy = .ok policy ∧
      row.status = .creating ∧ row.rootPath = run.rootPath ∧
      run = .start policy request.policy.safeMode (request.rootPath.filterMap PyChar.toScalar?)
        (db.lastSnapshotId + 1) ∧
      after = { db with
        lastSnapshotId := db.lastSnapshotId + 1
        snapshots := db.snapshots.set (db.lastSnapshotId + 1) row } := by
  obtain ⟨policy, built, started⟩ := bind_eq_ok_iff.mp started
  obtain ⟨⟨created, snapshotId⟩, creation, started⟩ := bind_eq_ok_iff.mp started
  have result := pure_eq_ok_iff.mp started
  rw [Prod.mk.injEq] at result
  obtain ⟨rfl, rfl⟩ := result
  obtain ⟨rfl, row, status, root, rfl⟩ := MetadataDB.createSnapshot_ok creation
  exact ⟨policy, row, built, status, bindText_ok root, rfl, rfl⟩

/-- Everything that a step of the node can do. -/
theorem nodeStep_cases {zstd : Zstd} {blake3 : Blake3} {node after : Node} {event : NodeEvent}
    (stepped : nodeStep zstd blake3 node event = some after) :
    (∃ request, event = .start request ∧ after = node) ∨
    (∃ request db run, event = .start request ∧ startBackup blake3 node.host.db request = .ok
      (db, run) ∧ after = {
      host := { node.host with db }
      runs := node.runs.set (node.lastRunId + 1) run
      lastRunId := node.lastRunId + 1 }) ∨
    (∃ runId run backupEvent host next, event = .backup runId backupEvent ∧
      node.runs.get? runId = some run ∧
      BackupTransition zstd blake3 node.host run backupEvent host next ∧
      after = { node with host, runs := node.runs.set runId next }) ∨
    (∃ runId, event = .kill runId ∧ after = { node with runs := node.runs.erase runId }) ∨
    ∃ now, event = .tick now ∧ node.host.clock ≤ now ∧
      after = { node with host := { node.host with clock := now } } := by
  cases event with
  | start request =>
      cases started : startBackup blake3 node.host.db request with
      | error reason =>
          simp only [nodeStep, started, Option.some.injEq] at stepped
          exact .inl ⟨request, rfl, stepped.symm⟩
      | ok result =>
          simp only [nodeStep, started, Option.some.injEq] at stepped
          exact .inr (.inl ⟨request, result.1, result.2, rfl, started, stepped.symm⟩)
  | backup runId event =>
      cases found : node.runs.get? runId with
      | none => simp [nodeStep, found] at stepped
      | some run =>
          cases ran : backupStep zstd blake3 (node.host, run) event with
          | none => simp [nodeStep, found, ran] at stepped
          | some result =>
              simp only [nodeStep, found, ran, Option.some.injEq] at stepped
              exact .inr (.inr
                (.inl ⟨runId, run, event, result.1, result.2, rfl, found, backupStep_transition ran,
                stepped.symm⟩))
  | kill runId =>
      simp only [nodeStep, Option.some.injEq] at stepped
      exact .inr (.inr (.inr (.inl ⟨runId, rfl, stepped.symm⟩)))
  | tick now =>
      simp only [nodeStep] at stepped
      split at stepped
      · rename_i later
        exact .inr (.inr (.inr (.inr ⟨now, rfl, later, (Option.some.inj stepped).symm⟩)))
      · cases stepped

end Stopan.Backup
