import Stopan.Backup.Node

namespace Stopan.Backup

open Stopan.Lib Stopan.Common Stopan.Cas Stopan.Chunking Stopan.Metadata

/-- The same row up to its recipe. -/
structure SameItem (item moved : SnapshotItemRow) : Prop where
  row : moved = { item with recipeId := moved.recipeId }

/-- The effect on the catalog of a step that a backup takes for its snapshot. -/
structure CatalogEffect (snapshotId : Nat) (db after : MetadataDB) : Prop where
  lastSnapshotId : after.lastSnapshotId = db.lastSnapshotId
  snapshots : ∀ otherId row, db.snapshots.get? otherId = some row → ∃ kept,
    after.snapshots.get? otherId = some kept ∧ kept.rootPath = row.rootPath ∧
      (otherId ≠ snapshotId → kept = row)
  items : ∀ itemId item, db.snapshotItems.get? itemId = some item → ∃ moved,
    after.snapshotItems.get? itemId = some moved ∧ SameItem item moved ∧
      (item.snapshotId ≠ snapshotId → moved = item)

/-- Recipes are numbered, counted, and exist for every item that names one. -/
structure CatalogRecipes (db : MetadataDB) : Prop where
  recipeIds : db.RecipeIdsBounded
  counted : db.RecipesCounted
  assigned : ∀ itemId item recipeId, db.snapshotItems.get? itemId = some item →
    item.recipeId = some recipeId → ∃ row, db.recipes.get? recipeId = some row

def RunPhase.active : RunPhase → Bool
  | .created | .walking | .registered _ | .submitting _ => true
  | .failing _ | .closed => false

def RunPhase.batch : RunPhase → List RegisteredEntry
  | .registered batch | .submitting batch => batch
  | .created | .walking | .failing _ | .closed => []

/-- The row of a registered entry, up to its recipe. -/
def IsRowOf (snapshotId : Nat) (registered : RegisteredEntry) (item : SnapshotItemRow) : Prop :=
  SameItem (MetadataDB.newItemRow snapshotId registered.path registered.entry) item

structure RunOwns (db : MetadataDB) (run : BackupRun) : Prop where
  files : ∀ pending, run.phase = .submitting pending →
    ∀ registered ∈ pending, registered.entry.itemType = .file
  bounded : run.snapshotId ≤ db.lastSnapshotId
  root : ∃ row, db.snapshots.get? run.snapshotId = some row ∧ row.rootPath = run.rootPath
  creating : run.phase.active = true → ∃ row, db.snapshots.get? run.snapshotId = some row ∧
    row.status = .creating ∧ row.rootPath = run.rootPath
  previous : ∀ previousId, run.previousSnapshotId = some previousId → previousId < run.snapshotId ∧
    ∃ row, db.snapshots.get? previousId = some row ∧ row.status = .complete ∧
      row.rootPath = run.rootPath
  batch : ∀ registered ∈ run.phase.batch, ∃ item,
    db.snapshotItems.get? registered.itemId = some item ∧ IsRowOf run.snapshotId registered item
  tasks : ∀ itemId task, run.tasks.get? itemId = some task →
    ∃ item, db.snapshotItems.get? itemId = some item ∧
    item.snapshotId = run.snapshotId ∧ item.path = task.path ∧ item.itemType = .file

section Items

variable {item moved later : SnapshotItemRow}

theorem sameItem_refl (item : SnapshotItemRow) : SameItem item item := ⟨rfl⟩

theorem SameItem.trans (same : SameItem item moved) (right : SameItem moved later) :
    SameItem item later := by
  have row := right.row
  rw [same.row] at row
  exact ⟨row⟩

theorem SameItem.snapshotId (same : SameItem item moved) : moved.snapshotId = item.snapshotId := by
  rw [same.row]

theorem SameItem.path (same : SameItem item moved) : moved.path = item.path := by
  rw [same.row]

theorem SameItem.itemType (same : SameItem item moved) : moved.itemType = item.itemType := by
  rw [same.row]

theorem SameItem.size (same : SameItem item moved) : moved.size = item.size := by
  rw [same.row]

theorem SameItem.ctimeNs (same : SameItem item moved) : moved.ctimeNs = item.ctimeNs := by
  rw [same.row]

end Items

section Effects

variable {db after : MetadataDB} {snapshotId : Nat}

theorem sameItem_assign (item : SnapshotItemRow) (recipeId : Option Nat) :
    SameItem item { item with recipeId } := ⟨rfl⟩

theorem CatalogEffect.refl (snapshotId : Nat) (db : MetadataDB) :
    CatalogEffect snapshotId db db where
  lastSnapshotId := rfl
  snapshots _ row located := ⟨row, located, rfl, fun _ => rfl⟩
  items _ item stored := ⟨item, stored, sameItem_refl item, fun _ => rfl⟩

theorem CatalogEffect.root {otherId effectId : Nat} {rootPath : Text}
    (effect : CatalogEffect effectId db after)
    (known : ∃ row, db.snapshots.get? otherId = some row ∧ row.rootPath = rootPath) :
    ∃ row, after.snapshots.get? otherId = some row ∧ row.rootPath = rootPath := by
  obtain ⟨row, located, root⟩ := known
  obtain ⟨kept, found, same, -⟩ := effect.snapshots otherId row located
  exact ⟨kept, found, same.trans root⟩

theorem catalogEffect_setSnapshot {row changed : SnapshotRow}
    (located : db.snapshots.get? snapshotId = some row) (root : changed.rootPath = row.rootPath) :
    CatalogEffect snapshotId db { db with snapshots := db.snapshots.set snapshotId changed } where
  lastSnapshotId := rfl
  snapshots otherId other found := by
    by_cases same : otherId = snapshotId
    · subst same
      rw [located, Option.some.injEq] at found
      subst found
      exact ⟨changed, Dict.get?_set_self .., root, fun different => absurd rfl different⟩
    · exact ⟨other, (Dict.get?_set_of_ne _ _ same).trans found, rfl, fun _ => rfl⟩
  items _ item stored := ⟨item, stored, sameItem_refl item, fun _ => rfl⟩

theorem catalogEffect_addItems {entries : List WalkEntry} {itemIds : List Nat}
    (bounded : db.ItemIdsBounded) (added : db.addItems snapshotId entries = .ok (after, itemIds)) :
    CatalogEffect snapshotId db after := by
  have spec := MetadataDB.addItems_ok bounded added
  obtain ⟨lastItemId, snapshotItems, rfl⟩ := MetadataDB.addItems_frame added
  refine ⟨rfl, fun _ row located => ⟨row, located, rfl, fun _ => rfl⟩, ?_⟩
  intro itemId item stored
  exact ⟨item, spec.kept itemId item stored, sameItem_refl item, fun _ => rfl⟩

theorem get?_assignRecipes_same (items : Dict Nat SnapshotItemRow) (assignments : List (Nat × Nat))
    {itemId : Nat} {item : SnapshotItemRow} (stored : items.get? itemId = some item) :
    ∃ moved, (MetadataDB.assignRecipes items assignments).get? itemId = some moved ∧
      SameItem item moved ∧ (itemId ∉ assignments.map Prod.fst → moved = item) := by
  induction assignments generalizing items item with
  | nil => exact ⟨item, stored, sameItem_refl item, fun _ => rfl⟩
  | cons assignment rest ih =>
      by_cases same : itemId = assignment.1
      · have assigned : (items.adjust assignment.1
          fun row => { row with recipeId := some assignment.2 }).get? itemId =
            some { item with recipeId := some assignment.2 } := by
          rw [Dict.get?_adjust, if_pos same, ← same, stored]
          rfl
        obtain ⟨moved, found, equal, -⟩ := ih _ assigned
        refine ⟨moved, found, (sameItem_assign item (some assignment.2)).trans equal, ?_⟩
        intro absent
        simp [same] at absent
      · have skipped : (items.adjust assignment.1
          fun row => { row with recipeId := some assignment.2 }).get? itemId =
            some item := by
          rw [Dict.get?_adjust, if_neg same]
          exact stored
        obtain ⟨moved, found, equal, untouched⟩ := ih _ skipped
        refine ⟨moved, found, equal, ?_⟩
        intro absent
        simp only [List.map_cons, List.mem_cons, not_or] at absent
        exact untouched absent.2

theorem catalogEffect_reuse {assignments : List (Nat × Nat)} {desiredRf : Nat}
    (owned : ∀ assignment ∈ assignments, ∀ item, db.snapshotItems.get? assignment.1 = some item →
      item.snapshotId = snapshotId)
    (reused : db.reuseItemRecipes assignments desiredRf = .ok after) :
    CatalogEffect snapshotId db after := by
  obtain ⟨hashes, rfl⟩ := MetadataDB.reuseItemRecipes_ok reused
  refine ⟨rfl, fun _ row located => ⟨row, located, rfl, fun _ => rfl⟩, ?_⟩
  intro itemId item stored
  obtain ⟨moved, found, equal, untouched⟩ := get?_assignRecipes_same _ assignments stored
  refine ⟨moved, found, equal, ?_⟩
  intro foreign
  apply untouched
  intro member
  obtain ⟨assignment, inside, rfl⟩ := List.mem_map.mp member
  exact foreign (owned assignment inside item stored)

theorem catalogEffect_consolidate {itemId recipeId desiredRf : Nat} {recipeHash : Text}
    {chunks : List RecipeChunk} {item : SnapshotItemRow}
    (stored : db.snapshotItems.get? itemId = some item) (owner : item.snapshotId = snapshotId)
    (consolidated : db.consolidateItemRecipe itemId recipeHash chunks desiredRf = .ok
      (after, recipeId)) :
    CatalogEffect snapshotId db after := by
  obtain ⟨registered, own, spec, located, rfl⟩ := MetadataDB.consolidateItemRecipe_ok consolidated
  have same : some own = some item := located.symm.trans stored
  cases same
  refine ⟨spec.frame.lastSnapshotId, ?_, ?_⟩
  · intro otherId row found
    refine ⟨row, ?_, rfl, fun _ => rfl⟩
    exact (congrArg (Dict.get? · otherId) spec.frame.snapshots).trans found
  · intro otherId other present
    by_cases same : otherId = itemId
    · subst same
      rw [stored, Option.some.injEq] at present
      subst present
      exact ⟨{ item with recipeId := some recipeId }, Dict.get?_set_self .., sameItem_assign item _,
        fun foreign => absurd owner foreign⟩
    · exact ⟨other, (Dict.get?_set_of_ne _ _ same).trans present, sameItem_refl other, fun _ => rfl⟩

end Effects

section Recipes

variable {db after : MetadataDB}

theorem catalogRecipes_empty : CatalogRecipes .empty where
  recipeIds _ _ stored := by cases stored
  counted _ _ stored := by cases stored
  assigned _ _ _ stored := by cases stored

theorem recipesKept_refl : MetadataDB.RecipesKept db db := fun _ _ stored => ⟨stored, rfl⟩

/-- Changing items in a way that only assigns existing recipes. -/
theorem catalogRecipes_items {items : Dict Nat SnapshotItemRow} {lastItemId : Nat}
    (recipes : CatalogRecipes db)
    (assigned : ∀ itemId item recipeId, items.get? itemId = some item →
      item.recipeId = some recipeId → ∃ row, db.recipes.get? recipeId = some row) :
    CatalogRecipes { db with snapshotItems := items, lastItemId } :=
  ⟨recipes.recipeIds, recipes.counted, assigned⟩

theorem catalogRecipes_addItems {snapshotId : Nat} {entries : List WalkEntry} {itemIds : List Nat}
    (recipes : CatalogRecipes db) (bounded : db.ItemIdsBounded)
    (added : db.addItems snapshotId entries = .ok (after, itemIds)) : CatalogRecipes after := by
  have spec := MetadataDB.addItems_ok bounded added
  obtain ⟨lastItemId, snapshotItems, rfl⟩ := MetadataDB.addItems_frame added
  refine catalogRecipes_items recipes ?_
  intro itemId item recipeId stored recipe
  rcases spec.known itemId item stored with older | ⟨entry, path, -, -, rfl⟩
  · exact recipes.assigned itemId item recipeId older recipe
  · cases recipe

theorem catalogRecipes_reuse {assignments : List (Nat × Nat)} {desiredRf : Nat}
    (recipes : CatalogRecipes db)
    (exist : ∀ assignment ∈ assignments, ∃ row, db.recipes.get? assignment.2 = some row)
    (reused : db.reuseItemRecipes assignments desiredRf = .ok after) : CatalogRecipes after := by
  obtain ⟨hashes, rfl⟩ := MetadataDB.reuseItemRecipes_ok reused
  refine ⟨recipes.recipeIds, recipes.counted, ?_⟩
  intro itemId item recipeId stored recipe
  obtain ⟨old, located, outcome⟩ := MetadataDB.get?_assignRecipes stored
  rcases outcome with rfl | ⟨newId, member, rfl⟩
  · exact recipes.assigned itemId item recipeId located recipe
  · cases recipe
    exact exist (itemId, recipeId) member

theorem catalogRecipes_consolidate {itemId recipeId desiredRf : Nat} {recipeHash : Text}
    {chunks : List RecipeChunk} (recipes : CatalogRecipes db)
    (consolidated : db.consolidateItemRecipe itemId recipeHash chunks desiredRf = .ok
      (after, recipeId)) :
    CatalogRecipes after ∧ MetadataDB.RecipesKept db after := by
  obtain ⟨registered, own, spec, located, rfl⟩ := MetadataDB.consolidateItemRecipe_ok consolidated
  have kept := spec.recipesKept recipes.recipeIds recipes.counted
  refine ⟨⟨spec.idsBounded recipes.recipeIds, spec.counted recipes.counted, ?_⟩, kept⟩
  intro otherId other otherRecipe stored recipe
  rw [Dict.get?_set] at stored
  split at stored
  · cases stored
    cases recipe
    obtain ⟨row, present, -⟩ := spec.row
    exact ⟨row, present⟩
  · obtain ⟨row, present⟩ := recipes.assigned otherId other otherRecipe stored recipe
    exact ⟨row, (kept otherRecipe row present).1⟩

end Recipes

section Runs

variable {zstd : Zstd} {blake3 : Blake3} {db after : MetadataDB} {host changed : Host}
  {run next : BackupRun}

/-- Another backup's step leaves a backup's own part of the catalog alone. -/
theorem RunOwns.mono {snapshotId : Nat} (owns : RunOwns db run)
    (effect : CatalogEffect snapshotId db after) (foreign : run.snapshotId ≠ snapshotId)
    (finished : ∀ row, db.snapshots.get? snapshotId = some row →
      row.status = .complete → after.snapshots.get? snapshotId = some row) : RunOwns after run where
  files := owns.files
  bounded := effect.lastSnapshotId ▸ owns.bounded
  root := effect.root owns.root
  creating active := by
    obtain ⟨row, located, status, root⟩ := owns.creating active
    obtain ⟨kept, found, -, same⟩ := effect.snapshots _ row located
    exact ⟨row, same foreign ▸ found, status, root⟩
  previous previousId recorded := by
    obtain ⟨distinct, row, located, status, root⟩ := owns.previous previousId recorded
    refine ⟨distinct, row, ?_, status, root⟩
    by_cases same : previousId = snapshotId
    · subst same
      exact finished row located status
    · obtain ⟨kept, found, -, equal⟩ := effect.snapshots _ row located
      exact equal same ▸ found
  batch registered member := by
    obtain ⟨item, stored, row⟩ := owns.batch registered member
    obtain ⟨moved, found, same, -⟩ := effect.items _ item stored
    exact ⟨moved, found, row.trans same⟩
  tasks itemId task found := by
    obtain ⟨item, stored, owner, path, file⟩ := owns.tasks itemId task found
    obtain ⟨moved, located, same, -⟩ := effect.items _ item stored
    exact ⟨moved, located, same.snapshotId.trans owner, same.path.trans path,
      same.itemType.trans file⟩

/-- What one step of a backup establishes about ownership. -/
structure OwnedStep (db after : MetadataDB) (run next : BackupRun) : Prop where
  owns : RunOwns after next
  effect : CatalogEffect run.snapshotId db after
  snapshotId : next.snapshotId = run.snapshotId
  itemIds : after.ItemIdsBounded
  recipes : CatalogRecipes db → CatalogRecipes after ∧ MetadataDB.RecipesKept db after
  finished : ∀ row, db.snapshots.get? run.snapshotId = some row → row.status = .complete →
    after.snapshots.get? run.snapshotId = some row
  snapshotIds : ∀ otherId row, after.snapshots.get? otherId = some row →
    ∃ older, db.snapshots.get? otherId = some older

/-- A step that leaves the catalog alone and only drops tasks and pending entries, or starts the
worker of a pending entry. -/
theorem ownedStep_coordinator (bounded : db.ItemIdsBounded) (owns : RunOwns db run)
    (snapshotId : next.snapshotId = run.snapshotId) (rootPath : next.rootPath = run.rootPath)
    (previousId : next.previousSnapshotId = run.previousSnapshotId)
    (active : next.phase.active = true → run.phase.active = true)
    (files : ∀ pending, next.phase = .submitting pending →
      ∀ registered ∈ pending, registered.entry.itemType = .file)
    (batch : ∀ registered ∈ next.phase.batch, registered ∈ run.phase.batch)
    (tasks : ∀ itemId task, next.tasks.get? itemId = some task →
      (∃ older, run.tasks.get? itemId = some older ∧ older.path = task.path) ∨
      ∃ registered ∈ run.phase.batch, registered.itemId = itemId ∧ registered.path = task.path ∧
        registered.entry.itemType = .file) :
    OwnedStep db db run next where
  effect := .refl _ _
  snapshotId := snapshotId
  itemIds := bounded
  recipes := fun recipes => ⟨recipes, recipesKept_refl⟩
  finished _ located _ := located
  snapshotIds _ row located := ⟨row, located⟩
  owns := {
    files
    bounded := snapshotId ▸ owns.bounded
    root := by
      rw [snapshotId, rootPath]
      exact owns.root
    creating := fun running => by
      rw [snapshotId, rootPath]
      exact owns.creating (active running)
    previous := fun recordedId recorded => by
      rw [snapshotId, rootPath]
      exact owns.previous recordedId (previousId ▸ recorded)
    batch := fun registered member => by
      rw [snapshotId]
      exact owns.batch registered (batch registered member)
    tasks := by
      intro itemId task found
      rw [snapshotId]
      rcases tasks itemId task found with ⟨older, located, path⟩ |
        ⟨registered, member, rfl, path, file⟩
      · rw [← path]
        exact owns.tasks itemId older located
      · obtain ⟨item, stored, row⟩ := owns.batch registered member
        exact ⟨item, stored, row.snapshotId, row.path.trans path, row.itemType.trans file⟩ }

/-- The part of a backup's ownership that a step of its own on the catalog keeps as it is. -/
theorem RunOwns.moved (owns : RunOwns db run) (effect : CatalogEffect run.snapshotId db after) :
    (∀ previousId, run.previousSnapshotId = some previousId → previousId < run.snapshotId ∧
      ∃ row, after.snapshots.get? previousId = some row ∧ row.status = .complete ∧
        row.rootPath = run.rootPath) ∧
    (∀ registered ∈ run.phase.batch, ∃ item,
      after.snapshotItems.get? registered.itemId = some item ∧
      IsRowOf run.snapshotId registered item) ∧
    ∀ itemId task, run.tasks.get? itemId = some task →
      ∃ item, after.snapshotItems.get? itemId = some item ∧
      item.snapshotId = run.snapshotId ∧ item.path = task.path ∧ item.itemType = .file := by
  refine ⟨?_, ?_, ?_⟩
  · intro previousId recorded
    obtain ⟨below, row, located, status, root⟩ := owns.previous previousId recorded
    obtain ⟨kept, found, -, same⟩ := effect.snapshots _ row located
    exact ⟨below, row, same (Nat.ne_of_lt below) ▸ found, status, root⟩
  · intro registered member
    obtain ⟨item, stored, row⟩ := owns.batch registered member
    obtain ⟨moved, found, same, -⟩ := effect.items _ item stored
    exact ⟨moved, found, row.trans same⟩
  · intro itemId task found
    obtain ⟨item, stored, owner, path, file⟩ := owns.tasks itemId task found
    obtain ⟨moved, located, same, -⟩ := effect.items _ item stored
    exact ⟨moved, located, same.snapshotId.trans owner, same.path.trans path,
      same.itemType.trans file⟩

theorem mem_registerEntries {itemIds : List Nat} {entries : List WalkEntry}
    {registered : RegisteredEntry} (member : registered ∈ registerEntries itemIds entries) :
    (registered.itemId, registered.entry) ∈ itemIds.zip entries ∧
      registered.path = entryPath registered.entry := by
  simp only [registerEntries, ← List.map_uncurry_zip_eq_zipWith, List.mem_map] at member
  obtain ⟨pair, inside, rfl⟩ := member
  exact ⟨inside, rfl⟩

theorem ownedStep_addBatch {entries : List WalkEntry} {itemIds : List Nat}
    (bounded : db.ItemIdsBounded) (owns : RunOwns db run) (phase : run.phase = .walking)
    (added : db.addItems run.snapshotId entries = .ok (after, itemIds)) :
    OwnedStep db after run { run with phase := .registered (registerEntries itemIds entries) } := by
  have spec := MetadataDB.addItems_ok bounded added
  have effect := catalogEffect_addItems bounded added
  obtain ⟨previous, -, tasks⟩ := owns.moved effect
  obtain ⟨lastItemId, snapshotItems, rfl⟩ := MetadataDB.addItems_frame added
  refine ⟨⟨fun _ impossible => (by cases impossible), owns.bounded, effect.root owns.root,
    fun _ => owns.creating (by rw [phase]; rfl), previous, ?_, tasks⟩, effect, rfl, spec.bounded,
    fun recipes => ⟨catalogRecipes_addItems recipes bounded added, recipesKept_refl⟩,
    fun _ located _ => located, fun _ row located => ⟨row, located⟩⟩
  intro registered member
  obtain ⟨paired, path⟩ := mem_registerEntries member
  obtain ⟨bound, binding, stored⟩ := (List.forall₂_iff_zip.mp spec.aligned).2 paired
  have same : bound = registered.path := (bindText_ok binding).trans path.symm
  exact ⟨_, same ▸ stored, sameItem_refl _⟩

theorem ownedStep_reuse {batch : List RegisteredEntry} (bounded : db.ItemIdsBounded)
    (owns : RunOwns db run) (phase : run.phase = .registered batch)
    (reused : db.reuseItemRecipes
      (reusedAssignments (run.previousItems db batch) batch) run.policy.desiredRf = .ok after) :
    OwnedStep db after run { run with
      phase := .submitting (pendingProcessing (run.previousItems db batch) batch)
      totals := countReused (run.previousItems db batch) batch run.totals } := by
  have effect : CatalogEffect run.snapshotId db after := by
    refine catalogEffect_reuse ?_ reused
    intro assignment member item stored
    obtain ⟨registered, inside, owner, -⟩ := mem_reusedAssignments member
    obtain ⟨own, present, row⟩ := owns.batch registered (by rw [phase]; exact inside)
    have same : some own = some item := by rw [← present, owner, stored]
    cases same
    exact row.snapshotId
  obtain ⟨previous, entries, tasks⟩ := owns.moved effect
  obtain ⟨hashes, rfl⟩ := MetadataDB.reuseItemRecipes_ok reused
  refine ⟨⟨?_, owns.bounded, effect.root owns.root, fun _ => owns.creating (by rw [phase]; rfl),
    previous, ?_, tasks⟩, effect, rfl, ?_,
    fun recipes => ⟨catalogRecipes_reuse recipes ?_ reused, recipesKept_refl⟩,
    fun _ located _ => located, fun _ row located => ⟨row, located⟩⟩
  · intro pending same registered member
    cases same
    simpa [isFileEntry] using (List.mem_filter.mp (List.mem_filter.mp member).1).2
  · intro registered member
    refine entries registered ?_
    rw [phase]
    exact (List.mem_filter.mp (List.mem_filter.mp member).1).1
  · intro itemId item stored
    obtain ⟨old, located, -⟩ := MetadataDB.get?_assignRecipes stored
    exact bounded itemId old located
  · intro assignment member
    obtain ⟨registered, -, -, -, previousSnapshotId, previousId, item, -, -, stored,
      -, -, -, -, recipe⟩ :=
      mem_reusedAssignments member
    exact recipes.assigned previousId item assignment.2 stored recipe

theorem ownedStep_collect {itemId recipeId : Nat} {task : Task} {result : WorkerResult}
    (bounded : db.ItemIdsBounded)
    (owns : RunOwns db run) (found : run.tasks.get? itemId = some task)
    (consolidated : db.consolidateItemRecipe itemId result.recipeHash result.chunks
      run.policy.desiredRf = .ok (after, recipeId)) :
    OwnedStep db after run { run with
      tasks := run.tasks.erase itemId
      totals := run.totals.addWorkerFile result.fileSize result.stats } := by
  obtain ⟨item, stored, owner, -, -⟩ := owns.tasks itemId task found
  have effect := catalogEffect_consolidate stored owner consolidated
  obtain ⟨previous, batch, tasks⟩ := owns.moved effect
  obtain ⟨registered, own, spec, located, rfl⟩ := MetadataDB.consolidateItemRecipe_ok consolidated
  have sameSnapshots : ∀ otherId, registered.snapshots.get? otherId = db.snapshots.get? otherId :=
    fun otherId =>
    congrArg (Dict.get? · otherId) spec.frame.snapshots
  refine ⟨⟨owns.files, ?_, effect.root owns.root, ?_, previous, batch, ?_⟩, effect, rfl, ?_,
    fun recipes => catalogRecipes_consolidate recipes consolidated,
    fun _ present _ => (sameSnapshots _).trans present,
    fun _ row present => ⟨row, (sameSnapshots _).symm.trans present⟩⟩
  · exact spec.frame.lastSnapshotId ▸ owns.bounded
  · intro active
    obtain ⟨row, present, status⟩ := owns.creating active
    exact ⟨row, (sameSnapshots _).trans present, status⟩
  · intro otherId other inside
    exact tasks otherId other (Dict.get?_of_get?_erase inside)
  · intro otherId other present
    change otherId ≤ registered.lastItemId
    rw [spec.frame.lastItemId]
    rw [Dict.get?_set] at present
    split at present
    · rename_i same
      exact same ▸ bounded itemId own located
    · exact bounded otherId other present

/-- Writing the row of the backup's own snapshot when it closes. -/
theorem ownedStep_close {row changed : SnapshotRow} (bounded : db.ItemIdsBounded)
    (owns : RunOwns db run)
    (located : db.snapshots.get? run.snapshotId = some row) (creating : row.status = .creating)
    (root : changed.rootPath = row.rootPath) :
    OwnedStep db { db with snapshots := db.snapshots.set run.snapshotId changed } run
      { run with phase := .closed } := by
  have effect := catalogEffect_setSnapshot located root
  obtain ⟨previous, -, tasks⟩ := owns.moved effect
  refine ⟨⟨fun _ impossible => (by cases impossible), owns.bounded, effect.root owns.root,
    fun impossible => (by cases impossible), previous, ?_, tasks⟩, effect, rfl, bounded,
    fun recipes => ⟨⟨recipes.recipeIds, recipes.counted, recipes.assigned⟩, recipesKept_refl⟩, ?_,
      ?_⟩
  · intro registered member
    cases member
  · intro other found complete
    rw [located, Option.some.injEq] at found
    subst found
    rw [creating] at complete
    cases complete
  · intro otherId other found
    rw [Dict.get?_set] at found
    split at found
    · rename_i same
      exact ⟨row, same ▸ located⟩
    · exact ⟨other, found⟩

/-- Every step of a backup keeps it the owner of its snapshot. -/
theorem ownedStep_transition {event : BackupEvent} (bounded : host.db.ItemIdsBounded)
    (owns : RunOwns host.db run)
    (transition : BackupTransition zstd blake3 host run event changed next) :
    OwnedStep host.db changed.db run next := by
  have dropped : ∀ registered ∈ ([] : List RegisteredEntry), registered ∈ run.phase.batch := by
    intro registered member
    cases member
  have unchanged : ∀ itemId task, run.tasks.get? itemId = some task →
      (∃ older, run.tasks.get? itemId = some older ∧ older.path = task.path) ∨
      ∃ registered ∈ run.phase.batch, registered.itemId = itemId ∧ registered.path = task.path ∧
        registered.entry.itemType = .file := fun _ task found => .inl ⟨task, found, rfl⟩
  have erased : ∀ itemId otherId task, (run.tasks.erase itemId).get? otherId = some task →
      (∃ older, run.tasks.get? otherId = some older ∧ older.path = task.path) ∨
      ∃ registered ∈ run.phase.batch, registered.itemId = otherId ∧ registered.path = task.path ∧
        registered.entry.itemType = .file :=
          fun _ _ task found => .inl ⟨task, Dict.get?_of_get?_erase found, rfl⟩
  cases transition with
  | resolvePrevious phase =>
      refine ⟨⟨fun _ impossible => (by cases impossible), owns.bounded, owns.root,
        fun _ => owns.creating (by rw [phase]; rfl), ?_, ?_, owns.tasks⟩, .refl _ _, rfl, bounded,
          fun recipes => ⟨recipes, recipesKept_refl⟩, fun _ located _ => located,
        fun _ row located => ⟨row, located⟩⟩
      · intro previousId recorded
        obtain ⟨row, located, status, root, below⟩ := MetadataDB.getPrevSnapshotId_complete recorded
        exact ⟨below, row, located, status, root⟩
      · intro registered member
        cases member
  | addBatch phase added => exact ownedStep_addBatch bounded owns phase added
  | reuseBatch phase reused => exact ownedStep_reuse bounded owns phase reused
  | submit phase =>
      rename_i entry rest
      have files := owns.files _ phase
      refine ownedStep_coordinator bounded owns rfl rfl rfl (fun _ => by rw [phase]; rfl) ?_ ?_ ?_
      · intro pending same registered member
        cases same
        exact files registered (List.mem_cons_of_mem entry member)
      · intro registered member
        rw [phase]
        exact List.mem_cons_of_mem entry member
      · intro itemId task found
        rw [Dict.get?_set] at found
        split at found
        · rename_i same
          cases found
          exact .inr ⟨entry, by rw [phase]; exact List.mem_cons_self, same.symm, rfl,
            files entry List.mem_cons_self⟩
        · exact unchanged itemId task found
  | submitted phase =>
      exact ownedStep_coordinator bounded owns rfl rfl rfl (fun _ => by rw [phase]; rfl)
        (fun _ impossible => by cases impossible) dropped unchanged
  | worker found working stepped =>
      rename_i itemId task current event cas index state
      refine ownedStep_coordinator bounded owns rfl rfl rfl (fun active => active) owns.files
        (fun _ member => member) ?_
      intro otherId other located
      rw [Dict.get?_set] at located
      split at located
      · rename_i same
        cases located
        exact .inl ⟨task, by rw [same]; exact found, rfl⟩
      · exact unchanged otherId other located
  | collect found finished collecting consolidated =>
      exact ownedStep_collect bounded owns found consolidated
  | collectFailed found failed =>
      exact ownedStep_coordinator bounded owns rfl rfl rfl (fun active => active) owns.files
        (fun _ member => member)
        (erased _)
  | collectRaised =>
      exact ownedStep_coordinator bounded owns rfl rfl rfl (fun impossible => by cases impossible)
        (fun _ impossible => by cases impossible) dropped (erased _)
  | finish phase idle finished =>
      obtain ⟨row, located, creating, -, rfl⟩ := MetadataDB.finishSnapshot_ok finished
      exact ownedStep_close bounded owns located creating rfl
  | fail phase failed =>
      rcases MetadataDB.failSnapshot_ok failed with rfl | ⟨row, located, creating, rfl⟩
      · exact ownedStep_coordinator bounded owns rfl rfl rfl (fun impossible => by cases impossible)
          (fun _ impossible => by cases impossible) dropped unchanged
      · exact ownedStep_close bounded owns located creating rfl
  | close phase =>
      exact ownedStep_coordinator bounded owns rfl rfl rfl (fun impossible => by cases impossible)
        (fun _ impossible => by cases impossible) dropped unchanged
  | raised =>
      exact ownedStep_coordinator bounded owns rfl rfl rfl (fun impossible => by cases impossible)
        (fun _ impossible => by cases impossible) dropped unchanged

/-- How a step of a backup has changed the row of an item. -/
inductive ItemTransition (host : Host) (run : BackupRun) (after : MetadataDB) (itemId : Nat) :
    BackupEvent → SnapshotItemRow → Prop where
  | same {event item} (stored : host.db.snapshotItems.get? itemId = some item) :
      ItemTransition host run after itemId event item
  | added {entries itemIds entry} (phase : run.phase = .walking)
      (member : (itemId, entry) ∈ itemIds.zip entries)
      (added : host.db.addItems run.snapshotId entries = .ok (after, itemIds))
      (bound : bindText entry.relPath = .ok (entryPath entry)) :
      ItemTransition host run after itemId (.addBatch entries)
        (MetadataDB.newItemRow run.snapshotId (entryPath entry) entry)
  | reused {batch registered item recipeId} (phase : run.phase = .registered batch)
      (member : registered ∈ batch)
      (owner : registered.itemId = itemId) (file : registered.entry.itemType = .file)
      (reused : reusedRecipe (run.previousItems host.db batch) registered = some recipeId)
      (stored : host.db.snapshotItems.get? itemId = some item) :
      ItemTransition host run after itemId .reuseBatch { item with recipeId := some recipeId }
  | consolidated {task result item recipeId} (found : run.tasks.get? itemId = some task)
      (finished : task.worker = .returned result) (collecting : run.collects = true)
      (entries : after.recipeChunkEntries recipeId = result.chunks)
      (stored : host.db.snapshotItems.get? itemId = some item) :
      ItemTransition host run after itemId (.collect itemId) { item with recipeId := some recipeId }

theorem itemTransition {event : BackupEvent} {itemId : Nat} {item : SnapshotItemRow}
    (bounded : host.db.ItemIdsBounded)
    (transition : BackupTransition zstd blake3 host run event changed next)
    (stored : changed.db.snapshotItems.get? itemId = some item) :
    ItemTransition host run changed.db itemId event item := by
  cases transition with
  | addBatch phase added =>
      rcases (MetadataDB.addItems_ok bounded added).known itemId item stored with older | ⟨entry,
        path, member, bound, rfl⟩
      · exact .same older
      · have named : path = entryPath entry := bindText_ok bound
        subst named
        exact .added phase member added bound
  | reuseBatch phase reused =>
      obtain ⟨hashes, rfl⟩ := MetadataDB.reuseItemRecipes_ok reused
      obtain ⟨older, located, same | ⟨recipeId, member, rfl⟩⟩ :=
        MetadataDB.get?_assignRecipes stored
      · exact .same (same ▸ located)
      · obtain ⟨registered, listed, owner, file, recipe⟩ := mem_reusedAssignments_iff.mp member
        exact .reused phase listed owner file recipe located
  | collect found finished collecting consolidated =>
      rename_i collected task result db recipeId
      obtain ⟨registered, own, spec, located, rfl⟩ :=
        MetadataDB.consolidateItemRecipe_ok consolidated
      rw [Dict.get?_set] at stored
      split at stored
      · rename_i same
        subst same
        cases stored
        refine .consolidated found finished collecting ?_ located
        exact (spec.entries recipeId).trans (if_pos rfl)
      · exact .same stored
  | finish phase idle finished =>
      obtain ⟨row, -, -, -, rfl⟩ := MetadataDB.finishSnapshot_ok finished
      exact .same stored
  | fail phase failed =>
      rcases MetadataDB.failSnapshot_ok failed with rfl | ⟨row, -, -, rfl⟩ <;> exact .same stored
  | resolvePrevious phase => exact .same stored
  | submit phase => exact .same stored
  | submitted phase => exact .same stored
  | worker found working stepped => exact .same stored
  | collectFailed found failed => exact .same stored
  | collectRaised => exact .same stored
  | close phase => exact .same stored
  | raised => exact .same stored

/-- The items of a complete snapshot are those it completed with. -/
theorem ItemTransition.complete {event : BackupEvent} {itemId snapshotId : Nat}
    {item : SnapshotItemRow} {row : SnapshotRow}
    (transition : ItemTransition host run after itemId event item) (owns : RunOwns host.db run)
    (located : host.db.snapshots.get? snapshotId = some row) (complete : row.status = .complete)
    (owner : item.snapshotId = snapshotId) : host.db.snapshotItems.get? itemId = some item := by
  have foreign : run.phase.active = true → run.snapshotId ≠ snapshotId := by
    intro active same
    obtain ⟨own, present, creating, -⟩ := owns.creating active
    rw [same, located, Option.some.injEq] at present
    rw [← present, complete] at creating
    cases creating
  cases transition with
  | same stored => exact stored
  | added phase => exact absurd owner (foreign (by rw [phase]; rfl))
  | reused phase member identity file reused stored =>
      rename_i batch registered older recipeId
      obtain ⟨own, present, entry⟩ := owns.batch registered (by rw [phase]; exact member)
      rw [identity, stored, Option.some.injEq] at present
      subst present
      exact absurd (entry.snapshotId.symm.trans owner) (foreign (by rw [phase]; rfl))
  | consolidated found finished collecting entries stored =>
      obtain ⟨own, present, mine, -⟩ := owns.tasks _ _ found
      rw [stored, Option.some.injEq] at present
      subst present
      refine absurd (mine.symm.trans owner) (foreign ?_)
      cases phase : run.phase <;> simp [BackupRun.collects, phase] at collecting <;> rfl

end Runs

structure NodeOwned (node : Node) : Prop where
  itemIds : node.host.db.ItemIdsBounded
  snapshotIds : ∀ snapshotId row, node.host.db.snapshots.get? snapshotId = some row →
    snapshotId ≤ node.host.db.lastSnapshotId
  recipes : CatalogRecipes node.host.db
  runs : ∀ runId run, node.runs.get? runId = some run → RunOwns node.host.db run
  runIds : ∀ runId run, node.runs.get? runId = some run → runId ≤ node.lastRunId
  distinct : ∀ runId otherId run other, node.runs.get? runId = some run →
    node.runs.get? otherId = some other → run.snapshotId = other.snapshotId → runId = otherId

section Node

variable {zstd : Zstd} {blake3 : Blake3} {node after : Node}

theorem nodeOwned_fresh (cas : CasFiles) (clock : Int) : NodeOwned (.fresh cas clock) where
  itemIds _ _ stored := by cases stored
  snapshotIds _ _ located := by cases located
  recipes := catalogRecipes_empty
  runs _ _ found := by cases found
  runIds _ _ found := by cases found
  distinct _ _ _ _ found := by cases found

/-- A new snapshot has an id that no backup owns. -/
theorem NodeOwned.fresh_snapshot (owned : NodeOwned node) {runId : Nat} {run : BackupRun}
    (found : node.runs.get? runId = some run) :
    run.snapshotId ≠ node.host.db.lastSnapshotId + 1 := by
  have below := (owned.runs runId run found).bounded
  omega

theorem nodeOwned_start {request : BackupRequest} {db : MetadataDB} {run : BackupRun}
    (owned : NodeOwned node) (started : startBackup blake3 node.host.db request = .ok (db, run)) :
    NodeOwned {
      host := { node.host with db }
      runs := node.runs.set (node.lastRunId + 1) run
      lastRunId := node.lastRunId + 1 } := by
  obtain ⟨policy, row, -, status, root, rfl, rfl⟩ := startBackup_ok started
  refine ⟨owned.itemIds, ?_,
    ⟨owned.recipes.recipeIds, owned.recipes.counted, owned.recipes.assigned⟩, ?_, ?_, ?_⟩
  · intro snapshotId other found
    rw [Dict.get?_set] at found
    split at found
    · rename_i same
      exact Nat.le_of_eq same
    · exact Nat.le_succ_of_le (owned.snapshotIds snapshotId other found)
  · intro runId other found
    rw [Dict.get?_set] at found
    split at found
    · cases found
      refine ⟨fun _ impossible => (by cases impossible), Nat.le_refl _,
        ⟨row, Dict.get?_set_self .., root⟩,
        fun _ => ⟨row, Dict.get?_set_self .., status, root⟩,
          fun _ impossible => (by cases impossible), ?_, ?_⟩
      · intro registered member
        cases member
      · intro itemId task located
        cases located
    · have owns := owned.runs runId other found
      refine ⟨owns.files, Nat.le_succ_of_le owns.bounded, ?_, ?_, ?_, owns.batch, owns.tasks⟩
      · obtain ⟨otherRow, located, otherRoot⟩ := owns.root
        exact ⟨otherRow, (Dict.get?_set_of_ne _ _ (owned.fresh_snapshot found)).trans located,
          otherRoot⟩
      · intro active
        obtain ⟨otherRow, located, creating⟩ := owns.creating active
        exact ⟨otherRow, (Dict.get?_set_of_ne _ _ (owned.fresh_snapshot found)).trans located,
          creating⟩
      · intro previousId recorded
        obtain ⟨below, otherRow, located, complete⟩ := owns.previous previousId recorded
        have older : previousId ≠ node.host.db.lastSnapshotId + 1 := by
          have bound := owns.bounded
          omega
        exact ⟨below, otherRow, (Dict.get?_set_of_ne _ _ older).trans located, complete⟩
  · intro runId other found
    rw [Dict.get?_set] at found
    split at found
    · rename_i same
      exact Nat.le_of_eq same
    · exact Nat.le_succ_of_le (owned.runIds runId other found)
  · intro leftId rightId left right leftFound rightFound same
    rw [Dict.get?_set] at leftFound rightFound
    split at leftFound
    · rename_i leftNew
      cases leftFound
      split at rightFound
      · rename_i rightNew
        exact leftNew.trans rightNew.symm
      · exact absurd same.symm (owned.fresh_snapshot rightFound)
    · split at rightFound
      · cases rightFound
        exact absurd same (owned.fresh_snapshot leftFound)
      · exact owned.distinct leftId rightId left right leftFound rightFound same

theorem nodeOwned_backup {runId : Nat} {run next : BackupRun} {host : Host} (owned : NodeOwned node)
    (found : node.runs.get? runId = some run) (step : OwnedStep node.host.db host.db run next) :
    NodeOwned { node with host, runs := node.runs.set runId next } := by
  refine ⟨step.itemIds, ?_, (step.recipes owned.recipes).1, ?_, ?_, ?_⟩
  · intro snapshotId row found
    obtain ⟨older, located⟩ := step.snapshotIds snapshotId row found
    change snapshotId ≤ host.db.lastSnapshotId
    rw [step.effect.lastSnapshotId]
    exact owned.snapshotIds snapshotId older located
  · intro otherId other located
    rw [Dict.get?_set] at located
    split at located
    · cases located
      exact step.owns
    · rename_i different
      have foreign : other.snapshotId ≠ run.snapshotId := fun same =>
        different (owned.distinct otherId runId other run located found same)
      exact (owned.runs otherId other located).mono step.effect foreign step.finished
  · intro otherId other located
    rw [Dict.get?_set] at located
    split at located
    · rename_i same
      exact same ▸ owned.runIds runId run found
    · exact owned.runIds otherId other located
  · intro leftId rightId left right leftFound rightFound same
    rw [Dict.get?_set] at leftFound rightFound
    split at leftFound
    · rename_i leftHere
      cases leftFound
      split at rightFound
      · rename_i rightHere
        exact leftHere.trans rightHere.symm
      · rw [step.snapshotId] at same
        exact leftHere.trans (owned.distinct runId rightId run right found rightFound same)
    · split at rightFound
      · rename_i rightHere
        cases rightFound
        rw [step.snapshotId] at same
        exact (owned.distinct leftId runId left run leftFound found same).trans rightHere.symm
      · exact owned.distinct leftId rightId left right leftFound rightFound same

theorem nodeOwned_kill (owned : NodeOwned node) (runId : Nat) :
    NodeOwned { node with runs := node.runs.erase runId } := by
  have kept : ∀ otherId other, (node.runs.erase runId).get? otherId = some other →
      node.runs.get? otherId = some other := fun _ _ located => Dict.get?_of_get?_erase located
  refine ⟨owned.itemIds, owned.snapshotIds, owned.recipes, ?_, ?_, ?_⟩
  · exact fun otherId other located => owned.runs otherId other (kept otherId other located)
  · exact fun otherId other located => owned.runIds otherId other (kept otherId other located)
  · exact fun leftId rightId left right leftFound rightFound same =>
      owned.distinct leftId rightId left right (kept leftId left leftFound)
        (kept rightId right rightFound) same

/-- Every step of the node keeps the backups the owners of their snapshots. -/
theorem nodeOwned_step {event : NodeEvent} (owned : NodeOwned node)
    (stepped : nodeStep zstd blake3 node event = some after) : NodeOwned after := by
  rcases nodeStep_cases stepped with ⟨-, -, rfl⟩ | ⟨request, db, run, -, started, rfl⟩ |
    ⟨runId, run, backupEvent, host, next, rfl, found, transition, rfl⟩ |
    ⟨runId, -, rfl⟩ | ⟨now, -, -, rfl⟩
  · exact owned
  · exact nodeOwned_start owned started
  · exact nodeOwned_backup owned found
      (ownedStep_transition owned.itemIds (owned.runs runId run found) transition)
  · exact nodeOwned_kill owned runId
  · exact ⟨owned.itemIds, owned.snapshotIds, owned.recipes, owned.runs,
      owned.runIds, owned.distinct⟩

end Node

end Stopan.Backup
