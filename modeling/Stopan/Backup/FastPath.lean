import Stopan.Lib.Runs
import Stopan.Backup.Service

namespace Stopan.Backup

open Stopan.Lib Stopan.Common Stopan.Cas Stopan.Chunking Stopan.Cluster
  Stopan.Metadata Stopan.Protection

def InCas (cas : CasFiles) (chunkHash : Text) : Prop := ∃ file, cas.get? chunkHash = some file

/-- The policy skips on remote evidence, asks for at least one remote copy, and the record of the
chunk is sufficient for what it asks. -/
def RemoteEvidence (policy : BackupPolicy) (db : MetadataDB) (chunkHash : Text) : Prop :=
  policy.fastRemoteEnabled = true ∧ 1 ≤ policy.desiredRf ∧
    isRecordSufficient (db.getChunkProtection chunkHash) policy.desiredRf policy.placementEpoch =
      .ok true

/-- The invariant of a backup whose policy is `policy`. -/
structure FastPathSound (zstd : Zstd) (blake3 : Blake3) (policy : BackupPolicy)
    (host : Host) (run : BackupRun) :
    Prop where
  policyKept : run.policy = policy
  intact : IntactCas zstd blake3 host.cas
  index : IndexSound (InCas host.cas) (RemoteEvidence policy host.db) run.index
  workers : ∀ itemId task, run.tasks.get? itemId = some task →
    WorkerSound zstd blake3 run.settings (InCas host.cas)
      (RemoteEvidence policy host.db) task.worker

section Preservation

variable {zstd : Zstd} {blake3 : Blake3} {policy : BackupPolicy} {host after : Host}
  {run next : BackupRun}

/-- A sufficient record stays sufficient when recipes are registered under the same policy. -/
theorem remoteEvidence_registered {db registered : MetadataDB}
    {hashes : List Text} {chunkHash : Text} (protection : registered.chunkProtection =
      hashes.foldl (ensureProtectionRow policy.desiredRf) db.chunkProtection)
    (evidence : RemoteEvidence policy db chunkHash) :
    RemoteEvidence policy registered chunkHash := by
  obtain ⟨enabled, positive, sufficient⟩ := evidence
  refine ⟨enabled, positive, ?_⟩
  cases found : db.chunkProtection.get? chunkHash with
  | none =>
      have nonZero : policy.desiredRf ≠ 0 := by omega
      simp [MetadataDB.getChunkProtection, found, isRecordSufficient, normalizeRemoteRf_ofNat,
        nonZero] at sufficient
  | some row =>
      simp only [MetadataDB.getChunkProtection, found] at sufficient
      have enough := ((isRecordSufficient_iff positive).mp sufficient).2.1
      rw [MetadataDB.getChunkProtection, protection,
        foldl_ensureProtectionRow_keeps hashes found enough]
      exact sufficient

/-- A step that leaves the store, the indexes and the running workers alone. -/
theorem fastPathSound_coordinator (sound : FastPathSound zstd blake3 policy host run)
    (sameCas : after.cas = host.cas) (sameIndex : next.index = run.index)
    (samePolicy : next.policy = run.policy) (sameMode : next.safeMode = run.safeMode)
    (evidence : ∀ chunkHash, RemoteEvidence policy host.db chunkHash →
      RemoteEvidence policy after.db chunkHash)
    (tasks : ∀ itemId task, next.tasks.get? itemId = some task →
      run.tasks.get? itemId = some task ∨ task.worker = .running .start) :
    FastPathSound zstd blake3 policy after next := by
  have sameSettings : next.settings = run.settings := by
    simp [BackupRun.settings, samePolicy, sameMode]
  refine ⟨samePolicy.trans sound.policyKept, sameCas ▸ sound.intact, ?_, ?_⟩
  · rw [sameCas, sameIndex]
    exact sound.index.mono (fun _ present => present) evidence
  · intro itemId task found
    rw [sameCas, sameSettings]
    rcases tasks itemId task found with older | started
    · exact (sound.workers itemId task older).mono (fun _ present => present) evidence
    · rw [started]
      exact workerSound_start ..

theorem fastPathSound_worker {itemId : Nat} {task : Task} {current : RunningWorker}
    {event : WorkerEvent} {cas : CasFiles} {index : ChunkIndex} {state : WorkerState}
    (remote : policy.fastRemoteEnabled = true → 1 ≤ policy.desiredRf)
    (sound : FastPathSound zstd blake3 policy host run)
    (found : run.tasks.get? itemId = some task) (working : task.worker = .running current)
    (stepped : workerStep zstd blake3 run.settings host.db host.clock host.cas
      run.index current event = some (cas, index, state)) :
    FastPathSound zstd blake3 policy { host with cas }
      { run with index, tasks := run.tasks.set itemId { task with worker := state } } := by
  have grown : ∀ chunkHash, InCas host.cas chunkHash → InCas cas chunkHash := by
    intro chunkHash present
    obtain ⟨file, located⟩ := present
    exact workerStep_keeps located stepped
  have keep : ∀ chunkHash, RemoteEvidence policy host.db chunkHash →
      RemoteEvidence policy host.db chunkHash :=
    fun _ evidence => evidence
  have before : WorkerSound zstd blake3 run.settings (InCas host.cas)
      (RemoteEvidence policy host.db)
      (.running current) := working ▸ sound.workers itemId task found
  have evidenced : ∀ chunkHash, run.settings.allowRemoteProtectedSkip = true →
      host.db.isChunkRemotelyProtected chunkHash run.settings.desiredRf
        run.settings.placementEpoch = .ok true → RemoteEvidence policy host.db chunkHash := by
    intro chunkHash allowed answer
    have enabled : policy.fastRemoteEnabled = true := sound.policyKept ▸ allowed
    refine ⟨enabled, remote enabled, ?_⟩
    rw [← sound.policyKept]
    exact answer
  obtain ⟨indexSound, stateSound⟩ :=
    workerStep_sound stepped (sound.index.mono grown keep) (before.mono grown keep)
    (fun _ _ _ file current advancing relied =>
      ⟨file, workerStep_relied stepped current advancing relied⟩) evidenced
  refine ⟨sound.policyKept, workerStep_intact stepped before sound.intact, indexSound, ?_⟩
  intro otherId other located
  rw [Dict.get?_set] at located
  split at located
  · cases located
    exact stateSound
  · exact (sound.workers otherId other located).mono grown keep

theorem erase_tasks {itemId : Nat} (otherId : Nat) (task : Task)
    (found : (run.tasks.erase itemId).get? otherId = some task) :
    run.tasks.get? otherId = some task ∨ task.worker = .running .start :=
  .inl (Dict.get?_of_get?_erase found)

/-- Every step of a backup keeps the invariant. -/
theorem fastPathSound_step {event : BackupEvent}
    (remote : policy.fastRemoteEnabled = true → 1 ≤ policy.desiredRf)
    (sound : FastPathSound zstd blake3 policy host run)
    (transition : BackupTransition zstd blake3 host run event after next) :
    FastPathSound zstd blake3 policy after next := by
  have keep : ∀ chunkHash, RemoteEvidence policy host.db chunkHash →
      RemoteEvidence policy host.db chunkHash :=
    fun _ evidence => evidence
  have unchanged : ∀ itemId task, run.tasks.get? itemId = some task →
      run.tasks.get? itemId = some task ∨ task.worker = .running .start :=
        fun _ _ found => .inl found
  cases transition with
  | resolvePrevious phase => exact fastPathSound_coordinator sound rfl rfl rfl rfl keep unchanged
  | addBatch phase added =>
      obtain ⟨lastItemId, snapshotItems, rfl⟩ := MetadataDB.addItems_frame added
      exact fastPathSound_coordinator sound rfl rfl rfl rfl keep unchanged
  | reuseBatch phase reused =>
      obtain ⟨hashes, rfl⟩ := MetadataDB.reuseItemRecipes_ok reused
      refine fastPathSound_coordinator sound rfl rfl rfl rfl ?_ unchanged
      intro chunkHash evidence
      exact remoteEvidence_registered (by rw [← sound.policyKept]) evidence
  | submit phase =>
      refine fastPathSound_coordinator sound rfl rfl rfl rfl keep ?_
      intro itemId task found
      rw [Dict.get?_set] at found
      split at found
      · cases found
        exact .inr rfl
      · exact .inl found
  | submitted phase => exact fastPathSound_coordinator sound rfl rfl rfl rfl keep unchanged
  | worker found working stepped => exact fastPathSound_worker remote sound found working stepped
  | collect found finished collecting consolidated =>
      obtain ⟨registered, item, spec, -, rfl⟩ := MetadataDB.consolidateItemRecipe_ok consolidated
      refine fastPathSound_coordinator sound rfl rfl rfl rfl ?_ erase_tasks
      intro chunkHash evidence
      exact remoteEvidence_registered (by rw [← sound.policyKept]; exact spec.protection) evidence
  | collectFailed found failed =>
      exact fastPathSound_coordinator sound rfl rfl rfl rfl keep erase_tasks
  | collectRaised => exact fastPathSound_coordinator sound rfl rfl rfl rfl keep erase_tasks
  | finish phase idle finished =>
      obtain ⟨row, -, -, -, rfl⟩ := MetadataDB.finishSnapshot_ok finished
      exact fastPathSound_coordinator sound rfl rfl rfl rfl keep unchanged
  | fail phase failed =>
      rcases MetadataDB.failSnapshot_ok failed with rfl | ⟨row, -, -, rfl⟩
      · exact fastPathSound_coordinator sound rfl rfl rfl rfl keep unchanged
      · exact fastPathSound_coordinator sound rfl rfl rfl rfl keep unchanged
  | close phase => exact fastPathSound_coordinator sound rfl rfl rfl rfl keep unchanged
  | raised => exact fastPathSound_coordinator sound rfl rfl rfl rfl keep unchanged

theorem fastPathSound_start {safeMode : Bool} {rootPath : Text} {snapshotId : Nat}
    (intact : IntactCas zstd blake3 host.cas) :
    FastPathSound zstd blake3 policy host (.start policy safeMode rootPath snapshotId) where
  policyKept := rfl
  intact := intact
  index := indexSound_create ..
  workers := by
    intro itemId task found
    cases found

theorem fastPathSound_run {start : Host} {began : BackupRun} {events : List BackupEvent}
    (remote : policy.fastRemoteEnabled = true → 1 ≤ policy.desiredRf)
    (initial : FastPathSound zstd blake3 policy start began)
    (ran : runEvents (backupStep zstd blake3) (start, began) events = some (host, run)) :
    FastPathSound zstd blake3 policy host run :=
  runEvents_preserves (fun state => FastPathSound zstd blake3 policy state.1 state.2)
    (fun _ _ _ sound stepped => fastPathSound_step remote sound (backupStep_transition stepped))
    initial ran

/-- Whatever the policy, the catalog and the store, each chunk of a recipe that a worker has
returned is readable in the CAS, or its record is sufficient for at least one remote copy at the
epoch of the cluster view from which the policy was built. -/
theorem returned_chunk_available {request : PolicyRequest} {start : Host} {rootPath : Text}
    {snapshotId itemId : Nat}
    {events : List BackupEvent} {task : Task} {result : WorkerResult} {chunk : RecipeChunk}
    (built : buildBackupFastPathPolicy blake3 request = .ok policy)
    (intact : IntactCas zstd blake3 start.cas)
    (ran : runEvents (backupStep zstd blake3)
      (start, .start policy request.safeMode rootPath snapshotId) events = some (host, run))
    (found : run.tasks.get? itemId = some task) (returned : task.worker = .returned result)
    (member : chunk ∈ result.chunks) :
    (∃ raw, get zstd blake3 host.cas chunk.chunkHash = .ok raw) ∨
      1 ≤ policy.desiredRf ∧
        ∃ view, tryClusterView request.membershipSeed request.membership = some view ∧
        isRecordSufficient (host.db.getChunkProtection chunk.chunkHash) policy.desiredRf
          (some (view.placementEpochExcluding blake3 policy.desiredRf request.clusterToken
            [strip request.originNodeId])) = .ok true := by
  have remote : policy.fastRemoteEnabled = true → 1 ≤ policy.desiredRf := fun enabled =>
    (buildBackupFastPathPolicy_remote built enabled).1
  have sound := fastPathSound_run remote (fastPathSound_start intact) ran
  have entries : EntriesSound (InCas host.cas) (RemoteEvidence policy host.db) result.entries := by
    have worker := sound.workers itemId task found
    rw [returned] at worker
    exact worker
  obtain ⟨entry, listed, rfl⟩ := List.mem_map.mp member
  have decision := entries entry listed
  have readable : InCas host.cas entry.1.chunkHash →
      ∃ raw, get zstd blake3 host.cas entry.1.chunkHash = .ok raw := by
    intro present
    obtain ⟨file, located⟩ := present
    exact get_of_intact sound.intact located
  cases kind : entry.2 with
  | process =>
      rw [kind] at decision
      exact .inl (readable decision)
  | skipLocal =>
      rw [kind] at decision
      exact .inl (readable decision)
  | skipSynced =>
      rw [kind] at decision
      obtain ⟨enabled, positive, sufficient⟩ := decision
      obtain ⟨-, view, resolved, epoch⟩ := buildBackupFastPathPolicy_remote built enabled
      exact .inr ⟨positive, view, resolved, epoch ▸ sufficient⟩

end Preservation

namespace ProtectedChunkBackup

def blake3 : Blake3 := .ofTable [
  (encodeUtf8 "abc".toList, 0x6437b3ac38465133ffb63b75273a8db548c558465d79db03fd359c6cd5bd9d85),
  (encodeUtf8 "xyz".toList, 0xf006b5ee4890b66656cf6c23998e25196a163644665dc9d4b47da1fca3037023),
  (encodeUtf8 ("\x7b\"cluster_token\":\"t\",\"desired_rf\":1,\"eligible_node_ids\":[\"n1\"],".toList
      ++ "\"format\":\"stopan.placement-epoch.v1\",\"placement_scheme\":\"hrw-blake3-v1\"\x7d".toList),
    0x1094552c6ed2908b9658c8ee8471d70ba697e2d356b3bb0ea83941ec152cab7a),
  (recipeHashDomain
      ++ toBytesBig 4 0 ++
        toBytesBig 32 0x6437b3ac38465133ffb63b75273a8db548c558465d79db03fd359c6cd5bd9d85
      ++ toBytesBig 8 3
      ++ toBytesBig 4 1 ++
        toBytesBig 32 0xf006b5ee4890b66656cf6c23998e25196a163644665dc9d4b47da1fca3037023
      ++ toBytesBig 8 3,
    0x2e96d03c86f0108642d2cc3ec53099af715e58e31e93f13a6504c1da4ed4a58f)]

def view : ClusterView where
  selfNodeId := some "o".toList
  members := [⟨"o".toList, "h:0".toList⟩, ⟨"n1".toList, "h:1".toList⟩]
  distinct := by decide

def request : PolicyRequest where
  desiredRf := 1
  membershipSeed := some "h:0".toList
  clusterToken := "t".toList
  membership := fun _ => some view
  fastLocalEnabled := false
  fastRemoteEnabled := true
  safeMode := false
  originNodeId := "o".toList

def epoch : Text := "1094552c6ed2908b9658c8ee8471d70ba697e2d356b3bb0ea83941ec152cab7a".toList

def policy : BackupPolicy where
  desiredRf := 1
  fastLocalEnabled := true
  fastRemoteEnabled := true
  placementEpoch := some epoch

def abcHash : Text := "6437b3ac38465133ffb63b75273a8db548c558465d79db03fd359c6cd5bd9d85".toList

def xyzHash : Text := "f006b5ee4890b66656cf6c23998e25196a163644665dc9d4b47da1fca3037023".toList

/-- The catalog knows a placed copy of the chunk `abc`, and the CAS is empty. -/
def start : Host where
  db := { MetadataDB.empty with
    lastSnapshotId := 1
    snapshots := Dict.empty.set 1 {
      uuid := "u1".toList
      rootPath := "/d".toList
      originNodeId := "o".toList
      status := .creating
      error := none
      totalSize := 0
      totalFiles := 0
      createdAt := "2024-01-01 00:00:00".toList }
    chunks := Dict.empty.set abcHash 3
    chunkProtection := Dict.empty.set abcHash {
      desiredRf := 1
      protectionState := .placed
      protectedRemoteCopies := 1
      placementEpoch := some epoch
      lastPushAt := none
      lastVerifyAt := none
      lastError := none } }
  cas := .empty
  clock := 0

def entry : WalkEntry where
  relPath := toPyText "f".toList
  stat := { size := 6, mode := 33188, mtime := ⟨0⟩, mtimeNs := 0, ctimeNs := 0, uid := 0, gid := 0 }
  itemType := .file

def step (inode : Nat) : BackupEvent := .worker 1 (.advance .done inode)

/-- The chunk `abc` takes the six steps of a remote skip, the chunk `xyz` ten up to its put. -/
def events : List BackupEvent :=
  let before : List BackupEvent :=
    [.resolvePrevious, .addBatch [entry], .reuseBatch, .submit,
      .worker 1 (.nextChunk (encodeUtf8 "abc".toList))]
  let between : List BackupEvent := [.worker 1 (.nextChunk (encodeUtf8 "xyz".toList))]
  let after : List BackupEvent := [.worker 1 .endOfStream]
  before ++ List.replicate 6 (step 7) ++ between ++ List.replicate 9 (step 7) ++ [step 8] ++ after

def result : WorkerResult where
  entries := [({ order := 0, chunkHash := abcHash, chunkSize := 3 }, .skipSynced),
    ({ order := 1, chunkHash := xyzHash, chunkSize := 3 }, .process)]
  fileSize := 6
  recipeHash := "2e96d03c86f0108642d2cc3ec53099af715e58e31e93f13a6504c1da4ed4a58f".toList
  stats := { chunksTotal := 2, processed := 1, skipped := 1, skippedLocal := 0,
             skippedRemote := 1, written := 1 }

theorem outcome : buildBackupFastPathPolicy blake3 request = .ok policy ∧
    ((runEvents (backupStep .rawBlock blake3)
      (start, .start policy false "/d".toList 1) events).bind fun state =>
      state.2.tasks.get? 1).map (·.worker) = some (.returned result) := by decide +kernel

end ProtectedChunkBackup

open ProtectedChunkBackup in
theorem protectedChunkBackup_available :
    ∃ host run task, runEvents (backupStep .rawBlock blake3)
        (start, .start policy false "/d".toList 1) events = some (host, run) ∧
      run.tasks.get? 1 = some task ∧ task.worker = .returned result ∧
      ∀ chunk ∈ result.chunks, (∃ raw, get .rawBlock blake3 host.cas chunk.chunkHash = .ok raw) ∨
        1 ≤ policy.desiredRf ∧
          ∃ view, tryClusterView request.membershipSeed request.membership = some view ∧
          isRecordSufficient (host.db.getChunkProtection chunk.chunkHash) policy.desiredRf
            (some (view.placementEpochExcluding blake3 policy.desiredRf request.clusterToken
              [strip request.originNodeId])) = .ok true := by
  obtain ⟨built, ended⟩ := outcome
  obtain ⟨task, found, returned⟩ := Option.map_eq_some_iff.mp ended
  obtain ⟨⟨host, run⟩, ran, found⟩ := Option.bind_eq_some_iff.mp found
  refine ⟨host, run, task, ran, found, returned, ?_⟩
  intro chunk member
  have intact : IntactCas .rawBlock blake3 start.cas := by
    intro chunkHash file stored
    cases stored
  exact returned_chunk_available built intact ran found returned member

end Stopan.Backup
