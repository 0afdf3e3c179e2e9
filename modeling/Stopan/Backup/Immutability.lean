import Stopan.Backup.SnapshotSizes

namespace Stopan.Backup

open Stopan.Lib Stopan.Common Stopan.Cas Stopan.Chunking Stopan.Metadata

/-- A status stays, or leaves CREATING. -/
def StatusMoves (before after : SnapshotStatus) : Prop :=
  after = before ∨ before = .creating ∧ (after = .complete ∨ after = .failed)

/-- What a step does to the statuses: no snapshot goes away, and a new one is CREATING. -/
structure StatusStep (db after : MetadataDB) : Prop where
  moved : ∀ snapshotId row, db.snapshots.get? snapshotId = some row →
    ∃ next, after.snapshots.get? snapshotId = some next ∧ StatusMoves row.status next.status
  created : ∀ snapshotId row, after.snapshots.get? snapshotId = some row →
    db.snapshots.get? snapshotId = none → row.status = .creating

/-- The snapshot has the same row, the same items and the same recipes. -/
structure SnapshotKept (snapshotId : Nat) (db after : MetadataDB) : Prop where
  row : after.snapshots.get? snapshotId = db.snapshots.get? snapshotId
  items : ∀ itemId item, item.snapshotId = snapshotId →
    (after.snapshotItems.get? itemId = some item ↔ db.snapshotItems.get? itemId = some item)
  recipes : ∀ itemId item recipeId, db.snapshotItems.get? itemId = some item →
    item.snapshotId = snapshotId →
    item.recipeId = some recipeId → after.recipes.get? recipeId = db.recipes.get? recipeId ∧
      after.recipeChunkEntries recipeId = db.recipeChunkEntries recipeId

/-- Every file of the snapshot has a recipe that the catalog has. -/
def HasRecipes (db : MetadataDB) (snapshotId : Nat) : Prop :=
  ∀ itemId item, db.snapshotItems.get? itemId = some item → item.snapshotId = snapshotId →
    item.itemType = .file →
    ∃ recipeId recipe, item.recipeId = some recipeId ∧ db.recipes.get? recipeId = some recipe

def IsComplete (db : MetadataDB) (snapshotId : Nat) : Prop :=
  ∃ row, db.snapshots.get? snapshotId = some row ∧ row.status = .complete

section Kept

variable {snapshotId : Nat} {db middle after : MetadataDB}

theorem SnapshotKept.refl (snapshotId : Nat) (db : MetadataDB) : SnapshotKept snapshotId db db where
  row := rfl
  items _ _ _ := .rfl
  recipes _ _ _ _ _ _ := ⟨rfl, rfl⟩

theorem SnapshotKept.trans (first : SnapshotKept snapshotId db middle)
    (second : SnapshotKept snapshotId middle after) :
    SnapshotKept snapshotId db after where
  row := second.row.trans first.row
  items itemId item owner := (second.items itemId item owner).trans (first.items itemId item owner)
  recipes itemId item recipeId stored owner recipe := by
    obtain ⟨row, entries⟩ := first.recipes itemId item recipeId stored owner recipe
    obtain ⟨laterRow, laterEntries⟩ :=
      second.recipes itemId item recipeId ((first.items itemId item owner).mpr stored) owner recipe
    exact ⟨laterRow.trans row, laterEntries.trans entries⟩

theorem SnapshotKept.complete (kept : SnapshotKept snapshotId db after)
    (complete : IsComplete db snapshotId) :
    IsComplete after snapshotId := by
  obtain ⟨row, located, status⟩ := complete
  exact ⟨row, kept.row.trans located, status⟩

/-- A kept snapshot keeps the recipes of its files. -/
theorem SnapshotKept.hasRecipes (kept : SnapshotKept snapshotId db after)
    (has : HasRecipes db snapshotId) :
    HasRecipes after snapshotId := by
  intro itemId item stored owner file
  have older := (kept.items itemId item owner).mp stored
  obtain ⟨recipeId, recipe, assigned, present⟩ := has itemId item older owner file
  exact ⟨recipeId, recipe, assigned,
    (kept.recipes itemId item recipeId older owner assigned).1.trans present⟩

/-- Only the row of another snapshot changes. -/
theorem snapshotKept_setSnapshot {otherId lastSnapshotId : Nat} {row : SnapshotRow}
    (different : snapshotId ≠ otherId) :
    SnapshotKept snapshotId db { db with lastSnapshotId,
                                         snapshots := db.snapshots.set otherId row } where
  row := Dict.get?_set_of_ne _ _ different
  items _ _ _ := .rfl
  recipes _ _ _ _ _ _ := ⟨rfl, rfl⟩

end Kept

section Steps

variable {zstd : Zstd} {blake3 : Blake3} {host changed : Host} {run next : BackupRun}
  {event : BackupEvent}

/-- A step of a backup keeps every complete snapshot. -/
theorem snapshotKept_transition {snapshotId : Nat} (bounded : host.db.ItemIdsBounded)
    (recipes : CatalogRecipes host.db) (owns : RunOwns host.db run)
    (transition : BackupTransition zstd blake3 host run event changed next)
    (complete : IsComplete host.db snapshotId) : SnapshotKept snapshotId host.db changed.db := by
  obtain ⟨row, located, status⟩ := complete
  have step := ownedStep_transition bounded owns transition
  have sameRow : changed.db.snapshots.get? snapshotId = some row := by
    by_cases own : snapshotId = run.snapshotId
    · subst own
      exact step.finished row located status
    · obtain ⟨kept, found, -, same⟩ := step.effect.snapshots snapshotId row located
      exact same own ▸ found
  have backwards : ∀ itemId item, changed.db.snapshotItems.get? itemId = some item →
      item.snapshotId = snapshotId →
      host.db.snapshotItems.get? itemId = some item := fun itemId item stored owner =>
    (itemTransition bounded transition stored).complete owns located status owner
  refine ⟨sameRow.trans located.symm, ?_, ?_⟩
  · intro itemId item owner
    refine ⟨fun stored => backwards itemId item stored owner, ?_⟩
    intro stored
    obtain ⟨moved, found, same, -⟩ := step.effect.items itemId item stored
    have older := backwards itemId moved found (same.snapshotId.trans owner)
    rw [stored, Option.some.injEq] at older
    exact older ▸ found
  · intro itemId item recipeId stored owner recipe
    obtain ⟨existing, present⟩ := recipes.assigned itemId item recipeId stored recipe
    obtain ⟨kept, entries⟩ := (step.recipes recipes).2 recipeId existing present
    exact ⟨kept.trans present.symm, entries⟩

theorem statusStep_transition
    (transition : BackupTransition zstd blake3 host run event changed next) :
    StatusStep host.db changed.db := by
  have same : host.db.snapshots = changed.db.snapshots → StatusStep host.db changed.db := by
    intro equal
    refine ⟨fun _ row located => ⟨row, equal ▸ located, .inl rfl⟩, ?_⟩
    intro snapshotId row located absent
    rw [equal, located] at absent
    cases absent
  have closed : ∀ row changedRow, host.db.snapshots.get? run.snapshotId = some row →
      row.status = .creating → changedRow.status = .complete ∨ changedRow.status = .failed →
      changed.db.snapshots = host.db.snapshots.set run.snapshotId changedRow →
        StatusStep host.db changed.db := by
    intro row changedRow located creating final written
    refine ⟨?_, ?_⟩
    · intro snapshotId other found
      rw [written, Dict.get?_set]
      split
      · rename_i here
        rw [here, located, Option.some.injEq] at found
        exact ⟨changedRow, rfl, .inr ⟨found ▸ creating, final⟩⟩
      · exact ⟨other, found, .inl rfl⟩
    · intro snapshotId other found absent
      rw [written, Dict.get?_set] at found
      split at found
      · rename_i here
        rw [here, located] at absent
        cases absent
      · rw [found] at absent
        cases absent
  cases transition with
  | addBatch phase added =>
      obtain ⟨lastItemId, snapshotItems, frame⟩ := MetadataDB.addItems_frame added
      exact same (by rw [frame])
  | reuseBatch phase reused =>
      obtain ⟨hashes, frame⟩ := MetadataDB.reuseItemRecipes_ok reused
      exact same (by rw [frame])
  | collect found finished collecting consolidated =>
      obtain ⟨registered, own, spec, -, frame⟩ := MetadataDB.consolidateItemRecipe_ok consolidated
      exact same (by rw [frame]; exact spec.frame.snapshots.symm)
  | finish phase idle finished =>
      obtain ⟨row, located, creating, -, frame⟩ := MetadataDB.finishSnapshot_ok finished
      exact closed row _ located creating (.inl rfl) (by rw [frame])
  | fail phase failed =>
      rcases MetadataDB.failSnapshot_ok failed with frame | ⟨row, located, creating, frame⟩
      · exact same (by rw [frame])
      · exact closed row _ located creating (.inr rfl) (by rw [frame])
  | resolvePrevious phase => exact same rfl
  | submit phase => exact same rfl
  | submitted phase => exact same rfl
  | worker found working stepped => exact same rfl
  | collectFailed found failed => exact same rfl
  | collectRaised => exact same rfl
  | close phase => exact same rfl
  | raised => exact same rfl

/-- A snapshot that a step of a backup completes has a recipe for each of its files. -/
theorem hasRecipes_completed {snapshotId : Nat} (bounded : host.db.ItemIdsBounded)
    (recipes : CatalogRecipes host.db) (owns : RunOwns host.db run)
    (transition : BackupTransition zstd blake3 host run event changed next)
    (before : ∀ snapshotId, IsComplete host.db snapshotId → HasRecipes host.db snapshotId)
    (complete : IsComplete changed.db snapshotId) : HasRecipes changed.db snapshotId := by
  by_cases earlier : IsComplete host.db snapshotId
  · exact (snapshotKept_transition bounded recipes owns transition earlier).hasRecipes
      (before snapshotId earlier)
  have unmoved : host.db.snapshots = changed.db.snapshots → HasRecipes changed.db snapshotId := by
    intro equal
    unfold IsComplete at earlier complete
    rw [equal] at earlier
    exact absurd complete earlier
  cases transition with
  | finish phase idle finished =>
      obtain ⟨row, located, creating, assigned, rfl⟩ := MetadataDB.finishSnapshot_ok finished
      have own : snapshotId = run.snapshotId := by
        by_contra different
        obtain ⟨other, found, status⟩ := complete
        rw [Dict.get?_set, if_neg different] at found
        exact earlier ⟨other, found, status⟩
      intro itemId item stored owner file
      obtain ⟨recipeId, recipe⟩ :=
        Option.isSome_iff_exists.mp (assigned itemId item stored (owner.trans own) file)
      obtain ⟨existing, present⟩ := recipes.assigned itemId item recipeId stored recipe
      exact ⟨recipeId, existing, recipe, present⟩
  | fail phase failed =>
      rcases MetadataDB.failSnapshot_ok failed with frame | ⟨row, located, creating, rfl⟩
      · exact unmoved (by rw [frame])
      · obtain ⟨other, found, status⟩ := complete
        rw [Dict.get?_set] at found
        split at found
        · cases found
          cases status
        · exact absurd ⟨other, found, status⟩ earlier
  | addBatch phase added =>
      obtain ⟨lastItemId, snapshotItems, frame⟩ := MetadataDB.addItems_frame added
      exact unmoved (by rw [frame])
  | reuseBatch phase reused =>
      obtain ⟨hashes, frame⟩ := MetadataDB.reuseItemRecipes_ok reused
      exact unmoved (by rw [frame])
  | collect found finished collecting consolidated =>
      obtain ⟨registered, own, spec, -, frame⟩ := MetadataDB.consolidateItemRecipe_ok consolidated
      exact unmoved (by rw [frame]; exact spec.frame.snapshots.symm)
  | resolvePrevious phase => exact unmoved rfl
  | submit phase => exact unmoved rfl
  | submitted phase => exact unmoved rfl
  | worker found working stepped => exact unmoved rfl
  | collectFailed found failed => exact unmoved rfl
  | collectRaised => exact unmoved rfl
  | close phase => exact unmoved rfl
  | raised => exact unmoved rfl

end Steps

/-- The backups own their snapshots, and complete snapshots have their recipes. -/
structure NodeFinished (node : Node) : Prop where
  owned : NodeOwned node
  recipes : ∀ snapshotId, IsComplete node.host.db snapshotId → HasRecipes node.host.db snapshotId

section Node

variable {zstd : Zstd} {blake3 : Blake3} {node after : Node} {event : NodeEvent}

theorem nodeFinished_fresh (cas : CasFiles) (clock : Int) : NodeFinished (.fresh cas clock) where
  owned := nodeOwned_fresh cas clock
  recipes := by
    rintro snapshotId ⟨row, located, -⟩
    cases located

theorem snapshotKept_step {snapshotId : Nat} (owned : NodeOwned node)
    (stepped : nodeStep zstd blake3 node event = some after)
    (complete : IsComplete node.host.db snapshotId) :
    SnapshotKept snapshotId node.host.db after.host.db := by
  rcases nodeStep_cases stepped with ⟨-, -, rfl⟩ | ⟨request, db, run, -, started, rfl⟩ |
    ⟨runId, run, backupEvent, host, next, rfl, found, transition, rfl⟩ |
    ⟨runId, -, rfl⟩ | ⟨now, -, -, rfl⟩
  · exact .refl _ _
  · obtain ⟨policy, row, -, -, -, -, rfl⟩ := startBackup_ok started
    obtain ⟨own, located, -⟩ := complete
    have below := owned.snapshotIds snapshotId own located
    exact snapshotKept_setSnapshot (by omega)
  · exact snapshotKept_transition owned.itemIds owned.recipes
      (owned.runs runId run found) transition complete
  · exact .refl _ _
  · exact .refl _ _

theorem statusStep_step (owned : NodeOwned node)
    (stepped : nodeStep zstd blake3 node event = some after) :
    StatusStep node.host.db after.host.db := by
  have same : StatusStep node.host.db node.host.db := by
    refine ⟨fun _ row located => ⟨row, located, .inl rfl⟩, ?_⟩
    intro snapshotId row located absent
    rw [located] at absent
    cases absent
  rcases nodeStep_cases stepped with ⟨-, -, rfl⟩ | ⟨request, db, run, -, started, rfl⟩ |
    ⟨runId, run, backupEvent, host, next, rfl, found, transition, rfl⟩ |
    ⟨runId, -, rfl⟩ | ⟨now, -, -, rfl⟩
  · exact same
  · obtain ⟨policy, row, -, creating, -, -, rfl⟩ := startBackup_ok started
    refine ⟨?_, ?_⟩
    · intro snapshotId other located
      have below := owned.snapshotIds snapshotId other located
      exact ⟨other, (Dict.get?_set_of_ne _ _ (by omega)).trans located, .inl rfl⟩
    · intro snapshotId other located absent
      rw [Dict.get?_set] at located
      split at located
      · cases located
        exact creating
      · rw [located] at absent
        cases absent
  · exact statusStep_transition transition
  · exact same
  · exact same

theorem nodeFinished_step (finished : NodeFinished node)
    (stepped : nodeStep zstd blake3 node event = some after) :
    NodeFinished after := by
  refine ⟨nodeOwned_step finished.owned stepped, ?_⟩
  intro snapshotId complete
  rcases nodeStep_cases stepped with ⟨-, -, rfl⟩ | ⟨request, db, run, -, started, rfl⟩ |
    ⟨runId, run, backupEvent, host, next, rfl, found, transition, rfl⟩ |
    ⟨runId, -, rfl⟩ | ⟨now, -, -, rfl⟩
  · exact finished.recipes snapshotId complete
  · obtain ⟨policy, row, -, creating, -, -, rfl⟩ := startBackup_ok started
    obtain ⟨other, located, status⟩ := complete
    rw [Dict.get?_set] at located
    split at located
    · cases located
      rw [creating] at status
      cases status
    · exact finished.recipes snapshotId ⟨other, located, status⟩
  · exact hasRecipes_completed finished.owned.itemIds finished.owned.recipes
      (finished.owned.runs runId run found)
      transition finished.recipes complete
  · exact finished.recipes snapshotId complete
  · exact finished.recipes snapshotId complete

theorem snapshotKept_run {snapshotId : Nat} {events : List NodeEvent} (finished : NodeFinished node)
    (ran : runEvents (nodeStep zstd blake3) node events = some after)
    (complete : IsComplete node.host.db snapshotId) :
    SnapshotKept snapshotId node.host.db after.host.db := by
  refine (runEvents_preserves (fun reached : Node => NodeFinished reached ∧
    SnapshotKept snapshotId node.host.db reached.host.db) ?_ ⟨finished, .refl _ _⟩ ran).2
  rintro state event next ⟨reached, kept⟩ stepped
  exact ⟨nodeFinished_step reached stepped,
    kept.trans (snapshotKept_step reached.owned stepped (kept.complete complete))⟩

/-- In every state that any backups reach, a step moves a status only from CREATING to COMPLETE or
FAILED, a complete snapshot stays as it is whatever follows, and the previous snapshot of a backup
is complete and has a recipe for each of its files. -/
theorem finishedSnapshots_immutable {cas : CasFiles} {clock : Int} {events : List NodeEvent}
    (ran : runEvents (nodeStep zstd blake3) (.fresh cas clock) events = some node) :
    (∀ event after, nodeStep zstd blake3 node event = some after →
      StatusStep node.host.db after.host.db) ∧
    (∀ later after, runEvents (nodeStep zstd blake3) node later = some after → ∀ snapshotId,
      IsComplete node.host.db snapshotId → SnapshotKept snapshotId node.host.db after.host.db) ∧
    ∀ runId run previousId, node.runs.get? runId = some run →
      run.previousSnapshotId = some previousId →
      IsComplete node.host.db previousId ∧ HasRecipes node.host.db previousId := by
  have finished : NodeFinished node := runEvents_preserves NodeFinished
    (fun _ _ _ reached stepped => nodeFinished_step reached stepped)
      (nodeFinished_fresh cas clock) ran
  refine ⟨?_, ?_, ?_⟩
  · intro event after stepped
    exact statusStep_step finished.owned stepped
  · intro later after continued snapshotId complete
    exact snapshotKept_run finished continued complete
  · intro runId run previousId found recorded
    obtain ⟨-, row, located, status, -⟩ :=
      (finished.owned.runs runId run found).previous previousId recorded
    have complete : IsComplete node.host.db previousId := ⟨row, located, status⟩
    exact ⟨complete, finished.recipes previousId complete⟩

end Node

namespace ThreeBackups

open OneFileBackup

/-- The second backup starts while the first one works and is killed; the third one follows. -/
def events : List NodeEvent :=
  let second : List NodeEvent :=
    [.start { request with snapshotUuid := "u2".toList }, .backup 2 .resolvePrevious,
      .backup 2 (.addBatch [entry 3])]
  let killed : List NodeEvent := [.backup 2 .reuseBatch, .kill 2, .backup 1 .finish]
  let third : List NodeEvent :=
    [.start { request with snapshotUuid := "u3".toList }, .backup 3 .resolvePrevious]
  .start request :: ((backupEvents 3).take 6).map (.backup 1) ++ second ++
    ((backupEvents 3).drop 6).dropLast.map (.backup 1) ++ killed ++ third

/-- The states of the first two snapshots, and the previous snapshot of the third backup. -/
def outcome : Option (Option SnapshotStatus × Option SnapshotStatus × Option Nat) := do
  let node ← runEvents (nodeStep .rawBlock blake3) (.fresh .empty 0) events
  let run ← node.runs.get? 3
  return ((node.host.db.snapshots.get? 1).map (·.status),
    (node.host.db.snapshots.get? 2).map (·.status), run.previousSnapshotId)

end ThreeBackups

open ThreeBackups in
/-- The finished snapshot is kept and is the previous one of the third backup; the killed backup
leaves its own unfinished. -/
theorem interleavedBackups_immutable :
    ∃ node run, runEvents (nodeStep .rawBlock OneFileBackup.blake3)
      (.fresh .empty 0) events = some node ∧
      ¬ IsComplete node.host.db 2 ∧ node.runs.get? 3 = some run ∧ run.previousSnapshotId = some 1 ∧
      IsComplete node.host.db 1 ∧ HasRecipes node.host.db 1 ∧
      ∀ later after, runEvents (nodeStep .rawBlock OneFileBackup.blake3) node later = some after →
        SnapshotKept 1 node.host.db after.host.db := by
  have seen : outcome = some (some .complete, some .creating, some 1) := by decide +kernel
  simp only [outcome, Option.bind_eq_bind, Option.bind_eq_some_iff, Option.pure_def,
    Option.some.injEq, Prod.mk.injEq] at seen
  obtain ⟨node, ran, run, found, -, second, previous⟩ := seen
  obtain ⟨-, kept, resolved⟩ := finishedSnapshots_immutable ran
  obtain ⟨complete, recipes⟩ := resolved 3 run 1 found previous
  have unfinished : ¬ IsComplete node.host.db 2 := by
    rintro ⟨row, located, status⟩
    rw [located, Option.map_some, status] at second
    cases second
  exact ⟨node, run, ran, unfinished, found, previous, complete, recipes,
    fun later after continued => kept later after continued 1 complete⟩

end Stopan.Backup
