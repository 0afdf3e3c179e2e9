import Stopan.Backup.SnapshotSizes
import Stopan.Gc.LocalFiles

namespace Stopan.Gc

open Stopan.Lib Stopan.Common Stopan.Cas Stopan.Chunking Stopan.Metadata
  Stopan.Protection Stopan.Backup

/-- Each chunk of a recipe of a live snapshot that its worker decided was locally available is in
the CAS, or was protected remotely when a collection read its set. -/
def ChunksKept (state : GcNode) : Prop :=
  ∀ itemId item recipeId row record chunk,
    state.node.host.db.snapshotItems.get? itemId = some item →
    item.recipeId = some recipeId → state.node.host.db.snapshots.get? item.snapshotId = some row →
    row.status ≠ .failed → state.decided.get? itemId = some record → record.recipeId = recipeId →
    chunk ∈ state.node.host.db.recipeChunkEntries recipeId → chunk.chunkHash ∈ record.hashes →
    (∃ file, state.node.host.cas.get? chunk.chunkHash = some file) ∨
      chunk.chunkHash ∈ state.exempted

def presentHashes (index : ChunkIndex) : List Text :=
  (index.localExists.data.filter fun _ present => present).keys

/-- The work on a chunk has found it in the CAS or put it there. -/
def reliesOnCas : ChunkPhase → Bool
  | .rememberLocal found => found
  | .rememberWritten _ => true
  | .lookupLocal | .checkLocal | .lookupRemote | .queryRemote
  | .rememberRemote _ | .write _ => false

def workerHashes : WorkerState → List Text
  | .running worker =>
      localHashes worker.entries ++
        ((worker.current.filter fun chunk => reliesOnCas chunk.phase).map (·.chunkHash)).toList
  | .returned result => localHashes result.entries
  | .failed _ => []

/-- The chunks that a live backup takes to be in the CAS. -/
def runHashes (run : BackupRun) : List Text :=
  if run.phase.active then presentHashes run.index ++ run.tasks.values.flatMap
    fun task => workerHashes task.worker
  else []

/-- The chunks that backups and the recipes of live snapshots take to be in the CAS. -/
def GcNode.reliedHashes (state : GcNode) : List Text :=
  state.node.runs.values.flatMap runHashes ++
    (state.decided.filter fun itemId _ =>
      (state.node.host.db.snapshotItems.get? itemId).any
        (liveItem state.node.host.db)).values.flatMap (·.hashes)

/-- The collection will not unlink the file as it stands. -/
def GcRun.spares (gc : GcRun) (chunkHash : Text) (file : CasFile) : Bool :=
  gc.protectedHashes.contains chunkHash || match gc.phase with
    | .loaded => true
    | .scanning cutoff => decide (cutoff < file.mtime)
    | .examined cutoff candidate inode =>
        decide (cutoff < file.mtime) && !(candidate == chunkHash && inode == file.inode)
    | .confirmed cutoff candidate => decide (cutoff < file.mtime) && candidate != chunkHash

/-- The condition on a step. When a collection computes its cutoff, the chunks that backups rely on
and that no recipe recorded when it read its set are spared by the set or by their age. When a
worker comes to rely on a file, every collection under way spares that file. -/
def sparesRelied (state : GcNode) : GcNodeEvent → Bool
  | .gc gcId .computeCutoff =>
      (state.collections.get? gcId).all fun gc =>
        state.reliedHashes.all fun chunkHash =>
          gc.recorded.contains chunkHash || state.exempted.contains chunkHash ||
            (state.node.host.cas.get? chunkHash).all fun file =>
              { gc with phase := .scanning (state.node.host.clock - gc.maxAge) }.spares
                chunkHash file
  | .node (.backup runId (.worker itemId (.advance outcome _))) =>
      match (state.node.runs.get? runId).bind fun run => run.tasks.get? itemId with
      | none => true
      | some task =>
          match task.worker with
          | .running worker => worker.current.all fun chunk =>
              (reliedFile state.node.host.cas chunk.chunkHash outcome chunk.phase).all fun file =>
                state.exempted.contains chunk.chunkHash ||
                  state.collections.values.all fun gc => gc.spares chunk.chunkHash file
          | .returned _ | .failed _ => true
  | _ => true

section Relying

variable {zstd : Zstd} {blake3 : Blake3} {settings : PlannerSettings} {available : Text → Prop}

theorem mem_presentHashes {index : ChunkIndex} {chunkHash : Text} :
    chunkHash ∈ presentHashes index ↔ index.localExists.get chunkHash = some true := by
  rw [presentHashes, Dict.mem_keys_iff]
  simp only [Dict.get?_filter_eq_some_iff, FastBoolCache.get]
  constructor
  · rintro ⟨value, stored, present⟩
    rw [present] at stored
    exact stored
  · intro stored
    exact ⟨true, stored, rfl⟩

theorem mem_localHashes {entries : List (RecipeChunk × ChunkDecision)} {chunkHash : Text} :
    chunkHash ∈ localHashes entries ↔ ∃ entry ∈ entries, entry.2 ≠ .skipSynced ∧
      entry.1.chunkHash = chunkHash := by
  simp only [localHashes, List.mem_map, List.mem_filter, bne_iff_ne, ne_eq, and_assoc]

/-- A worker that is sound for a predicate relies on nothing else. -/
theorem available_of_workerSound {state : WorkerState} {chunkHash : Text}
    (sound : WorkerSound zstd blake3 settings available (fun _ => True) state)
    (relied : chunkHash ∈ workerHashes state) :
    available chunkHash := by
  have decided : ∀ entries, EntriesSound available (fun _ => True) entries →
      chunkHash ∈ localHashes entries → available chunkHash := by
    intro entries each member
    obtain ⟨entry, listed, kind, rfl⟩ := mem_localHashes.mp member
    have decision := each entry listed
    cases choice : entry.2 <;> rw [choice] at decision kind
    · exact decision
    · exact decision
    · exact absurd rfl kind
  cases state with
  | failed reason => cases relied
  | returned result => exact decided result.entries sound relied
  | running worker =>
      rcases List.mem_append.mp relied with older | current
      · exact decided worker.entries sound.1 older
      · obtain ⟨chunk, chosen, rfl⟩ := Option.map_eq_some_iff.mp (Option.mem_toList.mp current)
        obtain ⟨working, relies⟩ := Option.filter_eq_some_iff.mp chosen
        have phase := (sound.2 chunk working).2
        cases place : chunk.phase <;> rw [place] at phase relies <;> try cases relies
        · exact phase rfl
        · exact phase

/-- A worker that relies on available chunks only is sound for availability. -/
theorem workerSound_of_available {state : WorkerState}
    (formed : WorkerSound zstd blake3 settings (fun _ => True) (fun _ => True) state)
    (relied : ∀ chunkHash ∈ workerHashes state, available chunkHash) :
    WorkerSound zstd blake3 settings available (fun _ => True) state := by
  have decided : ∀ entries, (∀ chunkHash ∈ localHashes entries, available chunkHash) →
      EntriesSound available (fun _ => True) entries := by
    intro entries each entry listed
    cases choice : entry.2 with
    | process => exact each _ (mem_localHashes.mpr ⟨entry, listed, by simp [choice], rfl⟩)
    | skipLocal => exact each _ (mem_localHashes.mpr ⟨entry, listed, by simp [choice], rfl⟩)
    | skipSynced => trivial
  cases state with
  | failed reason => trivial
  | returned result => exact decided result.entries relied
  | running worker =>
      refine ⟨decided worker.entries fun chunkHash member => relied chunkHash
        (List.mem_append_left _ member), ?_⟩
      intro chunk working
      obtain ⟨hash, phase⟩ := formed.2 chunk working
      refine ⟨hash, ?_⟩
      have current : reliesOnCas chunk.phase = true → available chunk.chunkHash := by
        intro relies
        refine relied _ (List.mem_append_right _ (Option.mem_toList.mpr ?_))
        exact Option.map_eq_some_iff.mpr
          ⟨chunk, Option.filter_eq_some_iff.mpr ⟨working, relies⟩, rfl⟩
      cases place : chunk.phase <;> rw [place] at phase current
      · trivial
      · trivial
      · exact current
      · trivial
      · exact phase
      · exact fun _ => trivial
      · exact phase
      · exact current rfl

end Relying

/-- A chunk that no collection under way will unlink, or that was protected remotely. -/
def Available (exempted : List Text) (collections : Dict Nat GcRun) (cas : CasFiles)
    (chunkHash : Text) : Prop :=
  chunkHash ∈ exempted ∨ ∃ file, cas.get? chunkHash = some file ∧
    ∀ gcId gc, collections.get? gcId = some gc → gc.spares chunkHash file = true

def GcNode.Available (state : GcNode) (chunkHash : Text) : Prop :=
  Gc.Available state.exempted state.collections state.node.host.cas chunkHash

/-- What a collection holds: the recorded decisions are protected, its candidate is not. -/
structure GcRunHolds (gc : GcRun) : Prop where
  recorded : ∀ chunkHash ∈ gc.recorded, chunkHash ∈ gc.protectedHashes
  examined : ∀ cutoff chunkHash inode, gc.phase = .examined cutoff chunkHash inode →
    chunkHash ∉ gc.protectedHashes
  confirmed : ∀ cutoff chunkHash, gc.phase = .confirmed cutoff chunkHash →
    chunkHash ∉ gc.protectedHashes

/-- The row of a decided item: a file whose recipe holds the decided chunks. -/
structure DecidedItem (db : MetadataDB) (record : DecidedRecipe) (item : SnapshotItemRow)
    (row : SnapshotRow) : Prop where
  file : item.itemType = .file
  owner : db.snapshots.get? item.snapshotId = some row
  recipe : ∃ recipeRow, db.recipes.get? record.recipeId = some recipeRow
  chunks : ∀ chunkHash ∈ record.hashes, ∃ chunk ∈ db.recipeChunkEntries record.recipeId,
    chunk.chunkHash = chunkHash

structure GcSafe (zstd : Zstd) (blake3 : Blake3) (state : GcNode) : Prop where
  owned : NodeOwned state.node
  collections : ∀ gcId gc, state.collections.get? gcId = some gc → GcRunHolds gc
  workers : ∀ runId run itemId task, state.node.runs.get? runId = some run →
    run.tasks.get? itemId = some task →
    WorkerSound zstd blake3 run.settings (fun _ => True) (fun _ => True) task.worker
  live : ∀ runId run chunkHash, state.node.runs.get? runId = some run → chunkHash ∈ runHashes run →
    state.Available chunkHash
  decided : ∀ itemId record, state.decided.get? itemId = some record → ∃ item row,
    state.node.host.db.snapshotItems.get? itemId = some item ∧
    DecidedItem state.node.host.db record item row ∧
    (row.status ≠ .failed → ∀ chunkHash ∈ record.hashes, state.Available chunkHash)

theorem chunksKept_of_safe {zstd : Zstd} {blake3 : Blake3} {state : GcNode}
    (safe : GcSafe zstd blake3 state) :
    ChunksKept state := by
  intro itemId item recipeId row record chunk stored _ located status known _ _ decided
  obtain ⟨own, ownRow, present, behind, available⟩ := safe.decided itemId record known
  rw [stored, Option.some.injEq] at present
  subst present
  have same : some ownRow = some row := behind.owner.symm.trans located
  cases same
  rcases available status chunk.chunkHash decided with exempt | ⟨file, found, -⟩
  · exact .inr exempt
  · exact .inl ⟨file, found⟩

theorem gcSafe_fresh (zstd : Zstd) (blake3 : Blake3) (cas : CasFiles) (clock : Int) :
    GcSafe zstd blake3 (.fresh cas clock) where
  owned := nodeOwned_fresh cas clock
  collections _ _ found := by cases found
  workers _ _ _ _ found := by cases found
  live _ _ _ found := by cases found
  decided _ _ known := by cases known

section Collections

variable {zstd : Zstd} {blake3 : Blake3} {state : GcNode} {exempted : List Text}
  {collections : Dict Nat GcRun}
  {cas after : CasFiles} {gc next : GcRun} {gcId : Nat} {now : Int} {event : GcEvent}

/-- Everything that one step of a collection can do. -/
theorem gcRunStep_cases (stepped : gcRunStep now cas gc event = some (after, next)) :
    (after = cas ∧ next = gc) ∨
    (event = .computeCutoff ∧ gc.phase = .loaded ∧ after = cas ∧
      next = { gc with phase := .scanning (now - gc.maxAge) }) ∨
    (∃ cutoff chunkHash file, gc.phase = .scanning cutoff ∧ cas.get? chunkHash = some file ∧
      chunkHash ∉ gc.protectedHashes ∧ file.mtime ≤ cutoff ∧ after = cas ∧
      next = { gc with phase := .examined cutoff chunkHash file.inode }) ∨
    (∃ cutoff chunkHash inode, gc.phase = .examined cutoff chunkHash inode ∧ after = cas ∧
      next = { gc with phase := .scanning cutoff }) ∨
    (∃ cutoff chunkHash file, gc.phase = .examined cutoff chunkHash file.inode ∧
      cas.get? chunkHash = some file ∧
      after = cas ∧ next = { gc with phase := .confirmed cutoff chunkHash }) ∨
    ∃ cutoff chunkHash, gc.phase = .confirmed cutoff chunkHash ∧
      (after = cas ∨ after = cas.erase chunkHash) ∧
      next = { gc with phase := .scanning cutoff } := by
  unfold gcRunStep at stepped
  split at stepped
  · rename_i phase
    cases stepped
    exact .inr (.inl ⟨rfl, phase, rfl, rfl⟩)
  · rename_i chunkHash cutoff phase
    split at stepped
    · cases stepped
      exact .inl ⟨rfl, rfl⟩
    · rename_i file found
      split at stepped
      · cases stepped
        exact .inl ⟨rfl, rfl⟩
      · rename_i unprotected
        split at stepped
        · cases stepped
          exact .inl ⟨rfl, rfl⟩
        · rename_i old
          cases stepped
          exact .inr (.inr (.inl ⟨cutoff, chunkHash, file, phase, found, by simpa using unprotected,
            by omega, rfl, rfl⟩))
  · rename_i cutoff chunkHash inode phase
    split at stepped
    · cases stepped
      exact .inr (.inr (.inr (.inl ⟨cutoff, chunkHash, inode, phase, rfl, rfl⟩)))
    · rename_i file found
      split at stepped
      · rename_i same
        cases stepped
        exact .inr (.inr
          (.inr (.inr (.inl ⟨cutoff, chunkHash, file, same ▸ phase, found, rfl, rfl⟩))))
      · cases stepped
        exact .inr (.inr (.inr (.inl ⟨cutoff, chunkHash, inode, phase, rfl, rfl⟩)))
  · rename_i cutoff chunkHash phase
    cases stepped
    exact .inr (.inr (.inr (.inr (.inr ⟨cutoff, chunkHash, phase, .inr rfl, rfl⟩))))
  · rename_i cutoff chunkHash phase
    cases stepped
    exact .inr (.inr (.inr (.inr (.inr ⟨cutoff, chunkHash, phase, .inl rfl, rfl⟩))))
  · cases stepped

theorem gcRunStep_computeCutoff
    (stepped : gcRunStep now cas gc .computeCutoff = some (after, next)) :
    after = cas ∧ next = { gc with phase := .scanning (now - gc.maxAge) } := by
  cases phase : gc.phase with
  | loaded =>
      simp only [gcRunStep, phase, Option.some.injEq, Prod.mk.injEq] at stepped
      exact ⟨stepped.1.symm, stepped.2.symm⟩
  | scanning cutoff => simp [gcRunStep, phase] at stepped
  | examined cutoff chunkHash inode => simp [gcRunStep, phase] at stepped
  | confirmed cutoff chunkHash => simp [gcRunStep, phase] at stepped

theorem gcRunHolds_step (holds : GcRunHolds gc)
    (stepped : gcRunStep now cas gc event = some (after, next)) :
    GcRunHolds next := by
  rcases gcRunStep_cases stepped with ⟨-, rfl⟩ | ⟨-, -, -, rfl⟩ |
    ⟨cutoff, chunkHash, file, -, -, unprotected, -, -, rfl⟩ |
    ⟨cutoff, chunkHash, inode, -, -, rfl⟩ | ⟨cutoff, chunkHash, file, phase, -, -, rfl⟩ |
    ⟨cutoff, chunkHash, -, -, rfl⟩
  · exact holds
  · exact ⟨holds.recorded, fun _ _ _ impossible => (by cases impossible),
      fun _ _ impossible => (by cases impossible)⟩
  · refine ⟨holds.recorded, ?_, fun _ _ impossible => (by cases impossible)⟩
    intro _ _ _ same
    cases same
    exact unprotected
  · exact ⟨holds.recorded, fun _ _ _ impossible => (by cases impossible),
      fun _ _ impossible => (by cases impossible)⟩
  · refine ⟨holds.recorded, fun _ _ _ impossible => (by cases impossible), ?_⟩
    intro _ _ same
    cases same
    exact holds.examined cutoff chunkHash file.inode phase
  · exact ⟨holds.recorded, fun _ _ _ impossible => (by cases impossible),
      fun _ _ impossible => (by cases impossible)⟩

theorem spares_of_protected {chunkHash : Text} (file : CasFile)
    (kept : chunkHash ∈ gc.protectedHashes) :
    gc.spares chunkHash file = true := by
  simp [GcRun.spares, kept]

/-- A step other than the computation of the cutoff keeps sparing what the collection spared, and
unlinks none of it. -/
theorem spares_step {chunkHash : Text} {file : CasFile} (holds : GcRunHolds gc)
    (stepped : gcRunStep now cas gc event = some (after, next)) (scanning : event ≠ .computeCutoff)
    (stored : cas.get? chunkHash = some file) (spared : gc.spares chunkHash file = true) :
    after.get? chunkHash = some file ∧ next.spares chunkHash file = true := by
  rcases gcRunStep_cases stepped with ⟨rfl, rfl⟩ | ⟨first, -⟩ |
    ⟨cutoff, candidate, other, phase, found, unprotected, old, rfl, rfl⟩ |
    ⟨cutoff, candidate, inode, phase, rfl, rfl⟩ |
    ⟨cutoff, candidate, other, phase, found, rfl, rfl⟩ | ⟨cutoff, candidate, phase, outcome, rfl⟩
  · exact ⟨stored, spared⟩
  · exact absurd first scanning
  · refine ⟨stored, ?_⟩
    by_cases kept : chunkHash ∈ gc.protectedHashes
    · exact spares_of_protected file kept
    · have young : cutoff < file.mtime := by simpa [GcRun.spares, phase, kept] using spared
      have different : candidate ≠ chunkHash := by
        intro same
        rw [same, stored, Option.some.injEq] at found
        rw [← found] at old
        omega
      simp [GcRun.spares, young, different]
  · refine ⟨stored, ?_⟩
    by_cases kept : chunkHash ∈ gc.protectedHashes
    · exact spares_of_protected file kept
    · simp only [GcRun.spares, phase, kept, List.contains_eq_mem, decide_false, Bool.false_or,
        Bool.and_eq_true] at spared
      simpa [GcRun.spares, kept] using spared.1
  · refine ⟨stored, ?_⟩
    by_cases kept : chunkHash ∈ gc.protectedHashes
    · exact spares_of_protected file kept
    · simp only [GcRun.spares, phase, kept, List.contains_eq_mem, decide_false,
        Bool.false_or, Bool.and_eq_true, decide_eq_true_eq] at spared
      have different : candidate ≠ chunkHash := by
        intro same
        rw [same, stored, Option.some.injEq] at found
        simp [same, found] at spared
      simp [GcRun.spares, spared.1, different]
  · have different : candidate ≠ chunkHash := by
      intro same
      have unprotected := holds.confirmed cutoff candidate phase
      rw [same] at unprotected
      simp [GcRun.spares, phase, unprotected, same] at spared
    refine ⟨?_, ?_⟩
    · rcases outcome with rfl | rfl
      · exact stored
      · rw [Dict.get?_erase, if_neg (Ne.symm different)]
        exact stored
    · by_cases kept : chunkHash ∈ gc.protectedHashes
      · exact spares_of_protected file kept
      · simp only [GcRun.spares, phase, kept, List.contains_eq_mem, decide_false,
          Bool.false_or, Bool.and_eq_true]
          at spared
        simpa [GcRun.spares, kept] using spared.1

/-- What is available stays so while a collection moves on. -/
theorem Available.collection {chunkHash : Text}
    (available : Available exempted collections cas chunkHash)
    (found : collections.get? gcId = some gc)
    (kept : ∀ file, cas.get? chunkHash = some file → gc.spares chunkHash file = true →
      after.get? chunkHash = some file ∧ next.spares chunkHash file = true) :
    Available exempted (collections.set gcId next) after chunkHash := by
  rcases available with exempt | ⟨file, stored, spared⟩
  · exact .inl exempt
  · obtain ⟨present, still⟩ := kept file stored (spared gcId gc found)
    refine .inr ⟨file, present, ?_⟩
    intro otherId other located
    rw [Dict.get?_set] at located
    split at located
    · cases located
      exact still
    · exact spared otherId other located

theorem Available.started {chunkHash : Text}
    (available : Available exempted collections cas chunkHash)
    (more : List Text) (loaded : gc.phase = .loaded) :
    Available (exempted ++ more) (collections.set gcId gc) cas chunkHash := by
  rcases available with exempt | ⟨file, stored, spared⟩
  · exact .inl (List.mem_append_left _ exempt)
  · refine .inr ⟨file, stored, ?_⟩
    intro otherId other located
    rw [Dict.get?_set] at located
    split at located
    · cases located
      simp [GcRun.spares, loaded]
    · exact spared otherId other located

theorem Available.finished {chunkHash : Text}
    (available : Available exempted collections cas chunkHash) :
    Available exempted (collections.erase gcId) cas chunkHash := by
  rcases available with exempt | ⟨file, stored, spared⟩
  · exact .inl exempt
  · refine .inr ⟨file, stored, ?_⟩
    intro otherId other located
    exact spared otherId other (Dict.get?_of_get?_erase located)

theorem mem_reliedHashes_run {runId : Nat} {run : BackupRun} {chunkHash : Text}
    (found : state.node.runs.get? runId = some run) (relied : chunkHash ∈ runHashes run) :
    chunkHash ∈ state.reliedHashes :=
  List.mem_append_left _
    (List.mem_flatMap.mpr ⟨run, List.mem_map_of_mem (Dict.get?_eq_some_iff.mp found), relied⟩)

theorem liveItem_of_status {db : MetadataDB} {item : SnapshotItemRow} {row : SnapshotRow}
    (located : db.snapshots.get? item.snapshotId = some row) (status : row.status ≠ .failed) :
    liveItem db item = true := by
  simp only [liveItem, MetadataDB.hasStatus, located]
  cases kind : row.status with
  | creating => rfl
  | complete => rfl
  | failed => exact absurd kind status

theorem mem_reliedHashes_decided {itemId : Nat} {record : DecidedRecipe}
    {item : SnapshotItemRow} {row : SnapshotRow}
    {chunkHash : Text} (known : state.decided.get? itemId = some record)
    (stored : state.node.host.db.snapshotItems.get? itemId = some item)
    (located : state.node.host.db.snapshots.get? item.snapshotId = some row)
    (status : row.status ≠ .failed)
    (relied : chunkHash ∈ record.hashes) : chunkHash ∈ state.reliedHashes := by
  refine List.mem_append_right _ (List.mem_flatMap.mpr ⟨record, ?_, relied⟩)
  refine List.mem_map_of_mem (f := Prod.snd)
    (Dict.get?_eq_some_iff.mp ((Dict.get?_filter_eq_some_iff _).mpr ⟨known, ?_⟩))
  simp [stored, liveItem_of_status located status]

/-- What was recorded when a collection reads its set is in the set. -/
theorem GcSafe.recorded_protected {chunkHash : Text} (safe : GcSafe zstd blake3 state)
    (recorded : chunkHash ∈ state.recordedHashes) :
    chunkHash ∈ state.node.host.db.gcProtectedChunkHashes := by
  obtain ⟨record, listed, member⟩ := List.mem_flatMap.mp recorded
  obtain ⟨⟨itemId, other⟩, inside, rfl⟩ := List.mem_map.mp listed
  obtain ⟨known, kept⟩ := (Dict.get?_filter_eq_some_iff _).mp (Dict.get?_eq_some_iff.mpr inside)
  obtain ⟨item, row, stored, behind, -⟩ := safe.decided itemId _ known
  simp only [stored, Option.any_some, Bool.and_eq_true, beq_iff_eq] at kept
  obtain ⟨chunk, entry, rfl⟩ := behind.chunks chunkHash member
  exact MetadataDB.mem_selectedChunkHashes stored kept.1 behind.file kept.2 entry

/-- Collections may move while everything that is relied on stays available. -/
theorem GcSafe.collected {exempted : List Text} {collections : Dict Nat GcRun} {cas : CasFiles}
    (safe : GcSafe zstd blake3 state)
    (hold : ∀ gcId gc, collections.get? gcId = some gc → GcRunHolds gc)
    (kept : ∀ chunkHash ∈ state.reliedHashes, state.Available chunkHash →
      Available exempted collections cas chunkHash) :
    GcSafe zstd blake3 { state with
      node := { state.node with host := { state.node.host with cas } }
      collections
      exempted } where
  owned := ⟨safe.owned.itemIds, safe.owned.snapshotIds, safe.owned.recipes,
    safe.owned.runs, safe.owned.runIds, safe.owned.distinct⟩
  collections := hold
  workers := safe.workers
  live runId run chunkHash found relied :=
    kept chunkHash (mem_reliedHashes_run found relied) (safe.live runId run chunkHash found relied)
  decided itemId record known := by
    obtain ⟨item, row, stored, behind, available⟩ := safe.decided itemId record known
    refine ⟨item, row, stored, behind, ?_⟩
    intro status chunkHash relied
    exact kept chunkHash (mem_reliedHashes_decided known stored behind.owner status relied)
      (available status chunkHash relied)

theorem gcSafe_readProtected {maxAge : Nat} (safe : GcSafe zstd blake3 state) :
    GcSafe zstd blake3 { state with
      exempted := state.exempted ++ remotelyProtectedHashes state.node.host.db
      collections := state.collections.set gcId {
        maxAge
        protectedHashes := state.node.host.db.gcProtectedChunkHashes
        recorded := state.recordedHashes
        phase := .loaded } } := by
  refine safe.collected ?_ fun chunkHash _ available => available.started _ rfl
  intro otherId other found
  rw [Dict.get?_set] at found
  split at found
  · cases found
    exact ⟨fun _ recorded => safe.recorded_protected recorded,
      fun _ _ _ impossible => (by cases impossible), fun _ _ impossible => (by cases impossible)⟩
  · exact safe.collections otherId other found

theorem gcSafe_gc (safe : GcSafe zstd blake3 state) (found : state.collections.get? gcId = some gc)
    (spared : sparesRelied state (.gc gcId event) = true)
    (stepped : gcRunStep state.node.host.clock state.node.host.cas gc event = some (after, next)) :
    GcSafe zstd blake3 { state with
      node := { state.node with host := { state.node.host with cas := after } }
      collections := state.collections.set gcId next } := by
  have holds := safe.collections gcId gc found
  refine safe.collected ?_ ?_
  · intro otherId other located
    rw [Dict.get?_set] at located
    split at located
    · cases located
      exact gcRunHolds_step holds stepped
    · exact safe.collections otherId other located
  · intro chunkHash relied available
    by_cases first : event = .computeCutoff
    · subst first
      by_cases exempt : chunkHash ∈ state.exempted
      · exact .inl exempt
      refine available.collection found ?_
      intro file stored before
      obtain ⟨rfl, rfl⟩ := gcRunStep_computeCutoff stepped
      refine ⟨stored, ?_⟩
      simp only [sparesRelied, found, Option.all_some, List.all_eq_true, Bool.or_eq_true,
        List.contains_iff_mem] at spared
      rcases spared chunkHash relied with (recorded | exempted) | young
      · exact spares_of_protected file (holds.recorded chunkHash recorded)
      · exact absurd exempted exempt
      · simpa [stored] using young
    · exact available.collection found fun file stored before =>
        spares_step holds stepped first stored before

end Collections

section Backups

variable {zstd : Zstd} {blake3 : Blake3} {state after : GcNode} {host : Host}
  {run next : BackupRun} {runId : Nat}
  {event : BackupEvent}

/-- A worker publishes at most the file on which it relies from then on, so other chunks stay
available. -/
theorem GcNode.Available.published {settings : PlannerSettings} {worker : RunningWorker}
    {workerEvent : WorkerEvent}
    {index known : ChunkIndex} {cas : CasFiles} {result : WorkerState} {chunkHash : Text}
    (available : state.Available chunkHash)
    (spared : ∀ chunk outcome inode file, worker.current = some chunk →
      workerEvent = .advance outcome inode →
      reliedFile state.node.host.cas chunk.chunkHash outcome chunk.phase = some file →
      Gc.Available state.exempted state.collections cas chunk.chunkHash)
    (stepped : workerStep zstd blake3 settings state.node.host.db state.node.host.clock
      state.node.host.cas index worker
      workerEvent = some (cas, known, result)) :
    Gc.Available state.exempted state.collections cas chunkHash := by
  rcases workerStep_cases stepped with ⟨rfl, -, -⟩ |
    ⟨chunk, outcome, inode, phase, advancing, working, advanced, -⟩
  · exact available
  · rcases (advancePhase_relied advanced).2 with rfl | ⟨file, relied, rfl⟩
    · exact available
    · by_cases same : chunkHash = chunk.chunkHash
      · rw [same]
        exact spared chunk outcome inode file working advancing relied
      · rcases available with exempt | ⟨other, stored, kept⟩
        · exact .inl exempt
        · exact .inr ⟨other, (Dict.get?_set_of_ne _ _ same).trans stored, kept⟩

/-- The condition on a worker's step, for the file on which it comes to rely. -/
theorem available_of_spared {itemId : Nat} {task : Task} {worker : RunningWorker}
    {chunk : CurrentChunk} {outcome : IoOutcome} {inode : Nat} {file : CasFile} {cas : CasFiles}
    (spared : sparesRelied state
      (.node (.backup runId (.worker itemId (.advance outcome inode)))) = true)
    (found : state.node.runs.get? runId = some run) (located : run.tasks.get? itemId = some task)
    (running : task.worker = .running worker) (working : worker.current = some chunk)
    (relied : reliedFile state.node.host.cas chunk.chunkHash outcome chunk.phase = some file)
    (stored : cas.get? chunk.chunkHash = some file) :
    Gc.Available state.exempted state.collections cas chunk.chunkHash := by
  simp only [sparesRelied, found, Option.bind_some, located, running, working, Option.all_some,
    relied, Bool.or_eq_true, List.contains_iff_mem, List.all_eq_true] at spared
  rcases spared with exempt | kept
  · exact .inl exempt
  · refine .inr ⟨file, stored, ?_⟩
    intro gcId gc present
    exact kept gc (List.mem_map_of_mem (Dict.get?_eq_some_iff.mp present))

theorem mem_runHashes {chunkHash : Text} : chunkHash ∈ runHashes run ↔ run.phase.active = true ∧
    (run.index.localExists.get chunkHash = some true ∨
      ∃ itemId task, run.tasks.get? itemId = some task ∧ chunkHash ∈ workerHashes task.worker) := by
  unfold runHashes
  split
  · rename_i active
    simp only [List.mem_append, mem_presentHashes, List.mem_flatMap, active, true_and]
    refine or_congr_right ⟨?_, ?_⟩
    · rintro ⟨task, listed, member⟩
      obtain ⟨⟨itemId, other⟩, inside, rfl⟩ := List.mem_map.mp listed
      exact ⟨itemId, other, Dict.get?_eq_some_iff.mpr inside, member⟩
    · rintro ⟨itemId, task, found, member⟩
      exact ⟨task, List.mem_map_of_mem (f := Prod.snd) (Dict.get?_eq_some_iff.mp found), member⟩
  · rename_i inactive
    simp [inactive]

theorem transition_settings {before : Host}
    (transition : BackupTransition zstd blake3 before run event host next) :
    next.settings = run.settings := by
  cases transition <;> rfl

/-- Apart from the step of a worker, a backup changes neither the CAS nor its index, and its workers
are older or new. -/
theorem transition_aside {before : Host}
    (transition : BackupTransition zstd blake3 before run event host next)
    (aside : ∀ itemId workerEvent, event ≠ .worker itemId workerEvent) :
    host.cas = before.cas ∧ next.index = run.index ∧
      (next.phase.active = true → run.phase.active = true) ∧
      ∀ itemId task, next.tasks.get? itemId = some task →
        run.tasks.get? itemId = some task ∨ task.worker = .running .start := by
  have tasks : ∀ itemId task, next.tasks.get? itemId = some task →
      run.tasks.get? itemId = some task ∨ task.worker = .running .start := by
    intro itemId task found
    rcases transition.tasks found with older | started | ⟨-, -, workerEvent, same, -⟩
    · exact .inl older
    · exact .inr started
    · exact absurd same (aside itemId workerEvent)
  cases transition with
  | worker found working stepped => exact absurd rfl (aside _ _)
  | resolvePrevious phase => exact ⟨rfl, rfl, fun _ => by rw [phase]; rfl, tasks⟩
  | addBatch phase added => exact ⟨rfl, rfl, fun _ => by rw [phase]; rfl, tasks⟩
  | reuseBatch phase reused => exact ⟨rfl, rfl, fun _ => by rw [phase]; rfl, tasks⟩
  | submit phase => exact ⟨rfl, rfl, fun _ => by rw [phase]; rfl, tasks⟩
  | submitted phase => exact ⟨rfl, rfl, fun _ => by rw [phase]; rfl, tasks⟩
  | collect found finished collecting consolidated => exact ⟨rfl, rfl, fun active => active, tasks⟩
  | collectFailed found failed => exact ⟨rfl, rfl, fun active => active, tasks⟩
  | collectRaised => exact ⟨rfl, rfl, fun impossible => (by cases impossible), tasks⟩
  | finish phase idle finished => exact ⟨rfl, rfl, fun impossible => (by cases impossible), tasks⟩
  | fail phase failed => exact ⟨rfl, rfl, fun impossible => (by cases impossible), tasks⟩
  | close phase => exact ⟨rfl, rfl, fun impossible => (by cases impossible), tasks⟩
  | raised => exact ⟨rfl, rfl, fun impossible => (by cases impossible), tasks⟩

/-- The chunks that were available stay so, and those on which the backup relies after a step are
available. -/
theorem GcSafe.relied_transition (safe : GcSafe zstd blake3 state)
    (found : state.node.runs.get? runId = some run)
    (spared : sparesRelied state (.node (.backup runId event)) = true)
    (transition : BackupTransition zstd blake3 state.node.host run event host next) :
    (∀ chunkHash, state.Available chunkHash →
      Gc.Available state.exempted state.collections host.cas chunkHash) ∧
      ∀ chunkHash ∈ runHashes next,
        Gc.Available state.exempted state.collections host.cas chunkHash := by
  by_cases working : ∃ itemId workerEvent, event = .worker itemId workerEvent
  · obtain ⟨itemId, workerEvent, rfl⟩ := working
    cases transition with
    | raised =>
        refine ⟨fun _ available => available, ?_⟩
        intro chunkHash relied
        cases (mem_runHashes.mp relied).1
    | worker located running stepped =>
        rename_i task current cas index result
        have fresh : ∀ chunk outcome inode file, current.current = some chunk →
            workerEvent = .advance outcome inode →
            reliedFile state.node.host.cas chunk.chunkHash outcome chunk.phase = some file →
            Gc.Available state.exempted state.collections cas chunk.chunkHash := by
          intro chunk outcome inode file chosen same relied
          have stored := workerStep_relied stepped chosen same relied
          subst same
          exact available_of_spared spared found located running chosen relied stored
        have kept : ∀ chunkHash, state.Available chunkHash →
            Gc.Available state.exempted state.collections cas chunkHash :=
          fun _ available => available.published fresh stepped
        refine ⟨kept, ?_⟩
        intro chunkHash relied
        obtain ⟨active, source⟩ := mem_runHashes.mp relied
        have before : ∀ otherHash, run.index.localExists.get otherHash = some true ∨
            (∃ otherId other, run.tasks.get? otherId = some other ∧
              otherHash ∈ workerHashes other.worker) →
            Gc.Available state.exempted state.collections cas otherHash := fun otherHash reason =>
          kept otherHash (safe.live runId run otherHash found (mem_runHashes.mpr ⟨active, reason⟩))
        have formed := safe.workers runId run itemId task found located
        rw [running] at formed
        obtain ⟨indexSound, workerSound⟩ := workerStep_sound stepped
          ⟨fun otherHash cached => before otherHash (.inl cached), fun _ _ => trivial⟩
          (workerSound_of_available formed fun otherHash member =>
            before otherHash (.inr ⟨itemId, task, located, running ▸ member⟩)) fresh
              (fun _ _ _ => trivial)
        rcases source with cached | ⟨otherId, other, present, member⟩
        · exact indexSound.localExists chunkHash cached
        · rw [Dict.get?_set] at present
          split at present
          · cases present
            exact available_of_workerSound workerSound member
          · exact before chunkHash (.inr ⟨otherId, other, present, member⟩)
  · have aside : ∀ itemId workerEvent, event ≠ .worker itemId workerEvent :=
      fun itemId workerEvent same =>
      working ⟨itemId, workerEvent, same⟩
    obtain ⟨cas, index, active, tasks⟩ := transition_aside transition aside
    rw [cas]
    refine ⟨fun _ available => available, ?_⟩
    intro chunkHash relied
    obtain ⟨running, source⟩ := mem_runHashes.mp relied
    refine safe.live runId run chunkHash found (mem_runHashes.mpr ⟨active running, ?_⟩)
    rw [index] at source
    rcases source with cached | ⟨itemId, task, present, member⟩
    · exact .inl cached
    · rcases tasks itemId task present with older | started
      · exact .inr ⟨itemId, task, older, member⟩
      · rw [started] at member
        cases member

theorem GcSafe.workers_transition {itemId : Nat} {task : Task} (safe : GcSafe zstd blake3 state)
    (found : state.node.runs.get? runId = some run)
    (transition : BackupTransition zstd blake3 state.node.host run event host next)
    (located : next.tasks.get? itemId = some task) :
    WorkerSound zstd blake3 next.settings (fun _ => True) (fun _ => True) task.worker := by
  rw [transition_settings transition]
  rcases transition.tasks located with older | started | ⟨older, current, workerEvent, -, present,
    working, stepped, -⟩
  · exact safe.workers runId run itemId task found older
  · rw [started]
    exact workerSound_start ..
  · have formed := safe.workers runId run itemId older found present
    rw [working] at formed
    exact (workerStep_sound stepped ⟨fun _ _ => trivial, fun _ _ => trivial⟩ formed
      (fun _ _ _ _ _ _ _ => trivial)
      (fun _ _ _ => trivial)).2

/-- A failed snapshot stays failed. -/
theorem transition_failed {before : Host} {snapshotId : Nat} {row later : SnapshotRow}
    (transition : BackupTransition zstd blake3 before run event host next)
    (located : before.db.snapshots.get? snapshotId = some row) (failed : row.status = .failed)
    (found : host.db.snapshots.get? snapshotId = some later) : later.status = .failed := by
  have unchanged : host.db.snapshots = before.db.snapshots → later.status = .failed := by
    intro same
    rw [same, located, Option.some.injEq] at found
    exact found ▸ failed
  -- only the end of a backup writes the row of a snapshot, and it finds that row in creation
  have closed : ∀ ownId own changed, before.db.snapshots.get? ownId = some own →
      own.status = .creating →
      host.db.snapshots = before.db.snapshots.set ownId changed → later.status = .failed := by
    intro ownId own changed present creating same
    rw [same, Dict.get?_set] at found
    split at found
    · rename_i equal
      rw [equal, present, Option.some.injEq] at located
      rw [← located, creating] at failed
      cases failed
    · rw [located, Option.some.injEq] at found
      exact found ▸ failed
  cases transition with
  | addBatch phase added =>
      obtain ⟨lastItemId, snapshotItems, rfl⟩ := MetadataDB.addItems_frame added
      exact unchanged rfl
  | reuseBatch phase reused =>
      obtain ⟨hashes, rfl⟩ := MetadataDB.reuseItemRecipes_ok reused
      exact unchanged rfl
  | collect located finished collecting consolidated =>
      obtain ⟨registered, own, spec, -, rfl⟩ := MetadataDB.consolidateItemRecipe_ok consolidated
      exact unchanged spec.frame.snapshots
  | finish phase idle finished =>
      obtain ⟨own, present, creating, -, rfl⟩ := MetadataDB.finishSnapshot_ok finished
      exact closed _ own _ present creating rfl
  | fail phase failing =>
      rcases MetadataDB.failSnapshot_ok failing with rfl | ⟨own, present, creating, rfl⟩
      · exact unchanged rfl
      · exact closed _ own _ present creating rfl
  | resolvePrevious phase => exact unchanged rfl
  | submit phase => exact unchanged rfl
  | submitted phase => exact unchanged rfl
  | worker located working stepped => exact unchanged rfl
  | collectFailed located failed => exact unchanged rfl
  | collectRaised => exact unchanged rfl
  | close phase => exact unchanged rfl
  | raised => exact unchanged rfl

theorem DecidedItem.moved {before : Host} {record : DecidedRecipe}
    {item : SnapshotItemRow} {row : SnapshotRow}
    (behind : DecidedItem before.db record item row) (owns : RunOwns before.db run)
    (bounded : before.db.ItemIdsBounded) (recipes : CatalogRecipes before.db) {itemId : Nat}
    (stored : before.db.snapshotItems.get? itemId = some item)
    (transition : BackupTransition zstd blake3 before run event host next) :
    ∃ moved later, host.db.snapshotItems.get? itemId = some moved ∧
      DecidedItem host.db record moved later ∧ (later.status ≠ .failed → row.status ≠ .failed) := by
  have step := ownedStep_transition bounded owns transition
  obtain ⟨moved, present, same, -⟩ := step.effect.items itemId item stored
  obtain ⟨later, located, -, -⟩ := step.effect.snapshots item.snapshotId row behind.owner
  obtain ⟨recipeRow, known⟩ := behind.recipe
  obtain ⟨kept, entries⟩ := (step.recipes recipes).2 record.recipeId recipeRow known
  refine ⟨moved, later, present, ⟨same.itemType.trans behind.file, same.snapshotId ▸ located,
    ⟨recipeRow, kept⟩, ?_⟩, ?_⟩
  · rw [entries]
    exact behind.chunks
  · intro alive failed
    exact alive (transition_failed transition behind.owner failed located)

/-- Where a recorded decision comes from: it is older, or its recipe has just been consolidated. -/
theorem decidedAfter_cases {after : Node} {itemId : Nat} {record : DecidedRecipe}
    (found : state.node.runs.get? runId = some run) (stepped : after.runs.get? runId = some next)
    (known : (state.decidedAfter after (.backup runId event)).get? itemId = some record) :
    state.decided.get? itemId = some record ∨ ∃ task result, event = .collect itemId ∧
      run.tasks.get? itemId = some task ∧ task.worker = .returned result ∧ next.collects = true ∧
      (after.host.db.snapshotItems.get? itemId).bind (·.recipeId) = some record.recipeId ∧
      record.hashes = localHashes result.entries := by
  cases event with
  | collect collected =>
      simp only [GcNode.decidedAfter, found, Option.bind_some, stepped, Option.any_some] at known
      split at known
      · rename_i task recipeId located recipe
        split at known
        · rename_i result finished
          split at known
          · rename_i collecting
            rw [Dict.get?_set] at known
            split at known
            · rename_i same
              subst same
              cases known
              exact .inr ⟨task, result, rfl, located, finished, collecting, recipe, rfl⟩
            · exact .inl known
          · exact .inl known
        · exact .inl known
        · exact .inl known
      · exact .inl known
  | resolvePrevious => exact .inl known
  | addBatch entries => exact .inl known
  | reuseBatch => exact .inl known
  | submit => exact .inl known
  | worker working workerEvent => exact .inl known
  | finish => exact .inl known
  | interrupt reason => exact .inl known
  | fail => exact .inl known

/-- A recipe that has just been consolidated holds the chunks that its worker decided on. -/
theorem decidedItem_consolidated {before : Host} {itemId : Nat} {task : Task}
    {result : WorkerResult} {record : DecidedRecipe} (owns : RunOwns before.db run)
    (transition : BackupTransition zstd blake3 before run (.collect itemId) host next)
    (located : run.tasks.get? itemId = some task) (finished : task.worker = .returned result)
    (collecting : next.collects = true)
    (recipe : (host.db.snapshotItems.get? itemId).bind (·.recipeId) = some record.recipeId)
    (hashes : record.hashes = localHashes result.entries) :
    run.phase.active = true ∧ ∃ item row, host.db.snapshotItems.get? itemId = some item ∧
      DecidedItem host.db record item row := by
  cases transition with
  | raised => cases collecting
  | collectRaised => cases collecting
  | collectFailed found failed =>
      rw [located, Option.some.injEq] at found
      rw [found, failed] at finished
      cases finished
  | collect found returned active consolidated =>
      rw [located, Option.some.injEq] at found
      subst found
      rw [finished, WorkerState.returned.injEq] at returned
      subst returned
      have running : run.phase.active = true := by
        cases phase : run.phase <;> simp [BackupRun.collects, phase] at active <;> rfl
      obtain ⟨row, snapshot, -, -⟩ := owns.creating running
      obtain ⟨item, stored, owner, -, file⟩ := owns.tasks itemId task located
      obtain ⟨registered, own, spec, present, rfl⟩ :=
        MetadataDB.consolidateItemRecipe_ok consolidated
      rw [stored, Option.some.injEq] at present
      subst present
      rw [Dict.get?_set_self] at recipe
      cases recipe
      obtain ⟨recipeRow, known, -⟩ := spec.row
      refine ⟨running, _, row, Dict.get?_set_self .., file, ?_, ⟨recipeRow, known⟩, ?_⟩
      · exact (congrArg (Dict.get? · item.snapshotId) spec.frame.snapshots).trans (owner ▸ snapshot)
      · intro chunkHash member
        rw [hashes] at member
        obtain ⟨entry, listed, -, rfl⟩ := mem_localHashes.mp member
        refine ⟨entry.1, ?_, rfl⟩
        change entry.1 ∈ registered.recipeChunkEntries record.recipeId
        rw [spec.entries, if_pos rfl]
        exact List.mem_map_of_mem listed

/-- A step of a backup that meets the condition keeps everything that is relied on. -/
theorem gcSafe_backup (safe : GcSafe zstd blake3 state)
    (found : state.node.runs.get? runId = some run)
    (spared : sparesRelied state (.node (.backup runId event)) = true)
    (transition : BackupTransition zstd blake3 state.node.host run event host next) :
    GcSafe zstd blake3 { state with
      node := { state.node with host, runs := state.node.runs.set runId next }
      decided := state.decidedAfter { state.node with host, runs := state.node.runs.set runId next }
        (.backup runId event) } := by
  have owns := safe.owned.runs runId run found
  have step := ownedStep_transition safe.owned.itemIds owns transition
  obtain ⟨kept, relied⟩ := safe.relied_transition found spared transition
  refine ⟨nodeOwned_backup safe.owned found step, safe.collections, ?_, ?_, ?_⟩
  · intro otherId other itemId task present located
    rw [Dict.get?_set] at present
    split at present
    · cases present
      exact safe.workers_transition found transition located
    · exact safe.workers otherId other itemId task present located
  · intro otherId other chunkHash present member
    rw [Dict.get?_set] at present
    split at present
    · cases present
      exact relied chunkHash member
    · exact kept chunkHash (safe.live otherId other chunkHash present member)
  · intro itemId record known
    rcases decidedAfter_cases found (Dict.get?_set_self ..) known with
      older | ⟨task, result, rfl, located, finished, collecting, recipe, hashes⟩
    · obtain ⟨item, row, stored, behind, available⟩ := safe.decided itemId record older
      obtain ⟨moved, later, present, still, alive⟩ :=
        behind.moved owns safe.owned.itemIds safe.owned.recipes stored
        transition
      refine ⟨moved, later, present, still, ?_⟩
      intro status chunkHash member
      exact kept chunkHash (available (alive status) chunkHash member)
    · obtain ⟨active, item, row, stored, behind⟩ :=
        decidedItem_consolidated owns transition located finished collecting
        recipe hashes
      refine ⟨item, row, stored, behind, ?_⟩
      intro _ chunkHash member
      refine kept chunkHash (safe.live runId run chunkHash found
        (mem_runHashes.mpr ⟨active, .inr ⟨itemId, task, located, ?_⟩⟩))
      rw [hashes] at member
      rw [finished]
      exact member

/-- Every step of the node that meets the condition keeps everything that is relied on. -/
theorem gcSafe_node {event : NodeEvent} {node : Node} (safe : GcSafe zstd blake3 state)
    (spared : sparesRelied state (.node event) = true)
    (stepped : nodeStep zstd blake3 state.node event = some node) :
    GcSafe zstd blake3 { state with node, decided := state.decidedAfter node event } := by
  have owned := nodeOwned_step safe.owned stepped
  rcases nodeStep_cases stepped with ⟨request, rfl, rfl⟩ | ⟨request, db, run, rfl, started, rfl⟩ |
    ⟨runId, run, backupEvent, host, next, rfl, found, transition, rfl⟩ | ⟨runId, rfl, rfl⟩ |
    ⟨now, rfl, later, rfl⟩
  · exact safe
  · obtain ⟨policy, row, -, -, -, rfl, rfl⟩ := startBackup_ok started
    refine ⟨owned, safe.collections, ?_, ?_, ?_⟩
    · intro otherId other itemId task present located
      rw [Dict.get?_set] at present
      split at present
      · cases present
        cases located
      · exact safe.workers otherId other itemId task present located
    · intro otherId other chunkHash present member
      rw [Dict.get?_set] at present
      split at present
      · cases present
        cases member
      · exact safe.live otherId other chunkHash present member
    · intro itemId record known
      obtain ⟨item, row, stored, behind, available⟩ := safe.decided itemId record known
      have older := safe.owned.snapshotIds _ row behind.owner
      refine ⟨item, row, stored, ⟨behind.file, ?_, behind.recipe, behind.chunks⟩, available⟩
      exact (Dict.get?_set_of_ne _ _ (by omega)).trans behind.owner
  · exact gcSafe_backup safe found spared transition
  · refine ⟨owned, safe.collections, ?_, ?_, safe.decided⟩
    · intro otherId other itemId task present
      exact safe.workers otherId other itemId task (Dict.get?_of_get?_erase present)
    · intro otherId other chunkHash present
      exact safe.live otherId other chunkHash (Dict.get?_of_get?_erase present)
  · exact ⟨owned, safe.collections, safe.workers, safe.live, safe.decided⟩

end Backups

section Runs

variable {zstd : Zstd} {blake3 : Blake3} {state after : GcNode}

theorem gcSafe_step {event : GcNodeEvent} (safe : GcSafe zstd blake3 state)
    (spared : sparesRelied state event = true)
    (stepped : gcNodeStep zstd blake3 state event = some after) : GcSafe zstd blake3 after := by
  cases event with
  | node event =>
      obtain ⟨node, moved, stepped⟩ := Option.bind_eq_some_iff.mp stepped
      cases stepped
      exact gcSafe_node safe spared moved
  | readProtected gcId maxAge =>
      simp only [gcNodeStep] at stepped
      split at stepped
      · cases stepped
      · cases stepped
        exact gcSafe_readProtected safe
  | gc gcId event =>
      obtain ⟨gc, found, stepped⟩ := Option.bind_eq_some_iff.mp stepped
      obtain ⟨⟨cas, next⟩, moved, stepped⟩ := Option.bind_eq_some_iff.mp stepped
      cases stepped
      exact gcSafe_gc safe found spared moved
  | finish gcId =>
      cases stepped
      refine safe.collected ?_ fun chunkHash _ available => available.finished
      intro otherId other found
      exact safe.collections otherId other (Dict.get?_of_get?_erase found)

/-- In every run of backups and collections from a new catalog whose steps spare what backups rely
on, every chunk that a worker decided was locally available, and that belongs to a recipe of a live
snapshot, is in the CAS or was protected remotely. -/
theorem sparingRun_keeps_chunks {cas : CasFiles} {clock : Int} {events : List GcNodeEvent}
    (spared : EventsMeet (gcNodeStep zstd blake3)
      (fun state event => sparesRelied state event = true)
      (.fresh cas clock) events)
    (ran : runEvents (gcNodeStep zstd blake3) (.fresh cas clock) events = some after) :
    ChunksKept after := by
  have safe : GcSafe zstd blake3 after := runEvents_invariant (GcSafe zstd blake3)
    (fun _ _ _ holds meets stepped => gcSafe_step holds meets stepped)
      (gcSafe_fresh zstd blake3 cas clock) spared ran
  exact chunksKept_of_safe safe

end Runs

namespace FoundChunk

def abcHash : Text := "6437b3ac38465133ffb63b75273a8db548c558465d79db03fd359c6cd5bd9d85".toList

/-- The chunk `abc` is in the CAS since `mtime`, left there by an earlier backup. -/
def cas (mtime : Int) : CasFiles :=
  Dict.empty.set abcHash { data := Zstd.rawBlock.compress (encodeUtf8 "abc".toList), mtime,
                           inode := 7 }

def step : GcNodeEvent := .node (.backup 1 (.worker 1 (.advance .done 9)))

/-- The worker finds the chunk and skips it. -/
def firstHalf : List GcNodeEvent :=
  let before : List GcNodeEvent :=
    [.node (.start OneFileBackup.request), .node (.backup 1 .resolvePrevious),
      .node (.backup 1 (.addBatch [OneFileBackup.entry 3])), .node (.backup 1 .reuseBatch),
      .node (.backup 1 .submit),
      .node (.backup 1 (.worker 1 (.nextChunk (encodeUtf8 "abc".toList))))]
  before ++ List.replicate 3 step

def secondHalf : List GcNodeEvent :=
  [.node (.backup 1 (.worker 1 .endOfStream)), .node (.backup 1 .submit),
    .node (.backup 1 (.collect 1)), .node (.backup 1 .finish)]

/-- A collection with a grace period of ten, all of it between the skip and the end of the file. -/
def events (collection : List GcEvent) : List GcNodeEvent :=
  firstHalf ++ .readProtected 1 10 :: collection.map (.gc 1) ++ secondHalf

structure Outcome where
  status : SnapshotStatus
  recipe : Option Nat
  chunks : List RecipeChunk
  record : DecidedRecipe
  present : Bool
  exempted : List Text
  deriving DecidableEq

def outcome (mtime : Int) (collection : List GcEvent) : Option Outcome := do
  let state ← runEvents (gcNodeStep .rawBlock OneFileBackup.blake3)
    (.fresh (cas mtime) 100) (events collection)
  let item ← state.node.host.db.snapshotItems.get? 1
  let row ← state.node.host.db.snapshots.get? item.snapshotId
  let record ← state.decided.get? 1
  some {
    status := row.status
    recipe := item.recipeId
    chunks := state.node.host.db.recipeChunkEntries record.recipeId
    record
    present := state.node.host.cas.contains abcHash
    exempted := state.exempted }

theorem outcome_some {mtime : Int} {collection : List GcEvent} {result : Outcome}
    (seen : outcome mtime collection = some result) :
    ∃ state item row, runEvents (gcNodeStep .rawBlock OneFileBackup.blake3) (.fresh (cas mtime) 100)
        (events collection) = some state ∧
      state.node.host.db.snapshotItems.get? 1 = some item ∧ item.recipeId = result.recipe ∧
      state.node.host.db.snapshots.get? item.snapshotId = some row ∧ row.status = result.status ∧
      state.decided.get? 1 = some result.record ∧
      state.node.host.db.recipeChunkEntries result.record.recipeId = result.chunks ∧
      state.node.host.cas.contains abcHash = result.present ∧ state.exempted = result.exempted := by
  simp only [outcome, Option.bind_eq_bind, Option.bind_eq_some_iff] at seen
  obtain ⟨state, ran, item, stored, row, located, record, known, seen⟩ := seen
  cases seen
  exact ⟨state, item, row, ran, stored, rfl, located, rfl, known, rfl, rfl, rfl⟩

def chunk : RecipeChunk := { order := 0, chunkHash := abcHash, chunkSize := 3 }

def record : DecidedRecipe := { recipeId := 1, hashes := [abcHash] }

end FoundChunk

/-- The chunk is older than the grace period: the collection unlinks it after the worker has
skipped it, and the snapshot completes without it. -/
theorem skippedChunk_collected :
    ¬ ∀ zstd blake3 cas clock events state,
      runEvents (gcNodeStep zstd blake3) (.fresh cas clock) events = some state →
        ChunksKept state := by
  intro kept
  have seen : FoundChunk.outcome 0 [.computeCutoff, .examine FoundChunk.abcHash,
      .confirm, .unlink] = some {
      status := .complete
      recipe := some 1
      chunks := [FoundChunk.chunk]
      record := FoundChunk.record
      present := false
      exempted := [] } := by decide +kernel
  obtain ⟨state, item, row, ran, stored, recipe, located, status, known, chunks,
    absent, exempted⟩ :=
    FoundChunk.outcome_some seen
  have alive : row.status ≠ .failed := by
    rw [status]
    decide
  have member : FoundChunk.chunk ∈ state.node.host.db.recipeChunkEntries
      FoundChunk.record.recipeId := by
    rw [chunks]
    exact List.mem_singleton_self _
  rcases kept _ _ _ _ _ state ran 1 item 1 row FoundChunk.record FoundChunk.chunk stored recipe
    located alive known rfl
    member (List.mem_singleton_self _) with ⟨file, found⟩ | exempt
  · have present : state.node.host.cas.contains FoundChunk.abcHash = true :=
      Option.isSome_iff_exists.mpr ⟨file, found⟩
    rw [absent] at present
    cases present
  · rw [exempted] at exempt
    cases exempt

/-- A chunk within the grace period survives the same collection. -/
theorem youngChunk_kept :
    ∃ state item row, runEvents (gcNodeStep .rawBlock OneFileBackup.blake3)
        (.fresh (FoundChunk.cas 95) 100)
        (FoundChunk.events [.computeCutoff, .examine FoundChunk.abcHash]) = some state ∧
      state.node.host.db.snapshotItems.get? 1 = some item ∧ item.recipeId = some 1 ∧
      state.node.host.db.snapshots.get? item.snapshotId = some row ∧ row.status = .complete ∧
      state.decided.get? 1 = some FoundChunk.record ∧ ChunksKept state := by
  have seen : FoundChunk.outcome 95 [.computeCutoff, .examine FoundChunk.abcHash] = some {
      status := .complete
      recipe := some 1
      chunks := [FoundChunk.chunk]
      record := FoundChunk.record
      present := true
      exempted := [] } := by decide +kernel
  have spared : checkEvents (gcNodeStep .rawBlock OneFileBackup.blake3) sparesRelied
      (.fresh (FoundChunk.cas 95) 100)
      (FoundChunk.events [.computeCutoff, .examine FoundChunk.abcHash]) = true := by decide +kernel
  obtain ⟨state, item, row, ran, stored, recipe, located, status, known, -⟩ :=
    FoundChunk.outcome_some seen
  exact ⟨state, item, row, ran, stored, recipe, located, status, known,
    sparingRun_keeps_chunks (eventsMeet_of_checkEvents spared) ran⟩

end Stopan.Gc
