import Stopan.Backup.FileHistory
import Stopan.Backup.SnapshotSizes

namespace Stopan.Backup

open Stopan.Lib Stopan.Common Stopan.Cas Stopan.Chunking Stopan.Metadata

/-- The chunks of a recipe are those of the content, in order. -/
def Describes (blake3 : Blake3) (chunks : List RecipeChunk) (content : Bytes) : Prop :=
  ∃ parts : List Bytes, parts.flatten = content ∧
    chunks.map (fun chunk => (chunk.chunkHash, chunk.chunkSize)) =
      parts.map fun part => (blake3HexDigest blake3 part, part.length)

/-- No file at the path has a change time before the stamp, now or later. -/
def StampedBy (clock : Int) (files : Dict Text FileState) (path : Text) (stamp : Int) : Prop :=
  stamp ≤ clock ∧ ∀ file, files.get? path = some file → stamp ≤ file.ctimeNs

def FilesStamped (clock : Int) (files : Dict Text FileState) : Prop :=
  ∀ path file, files.get? path = some file → file.ctimeNs ≤ clock

structure ReadHolds (clock : Int) (files : Dict Text FileState) (read : FileRead) : Prop where
  stamped : StampedBy clock files read.path read.stamp
  writes : ∀ stamp ∈ read.writes, read.stamp ≤ stamp ∧ StampedBy clock files read.path stamp
  content : read.writes = [] → ∀ file, files.get? read.path = some file →
    file.content = read.content

/-- What happens to the files, a write to one of them apart: they keep their content, and a change
has the stamp of the clock. -/
structure FilesKept (clock now : Int) (files after : Dict Text FileState) : Prop where
  later : clock ≤ now
  kept : ∀ path file, after.get? path = some file → ∃ older, files.get? path = some older ∧
    file.content = older.content ∧ (file.ctimeNs = older.ctimeNs ∨ file.ctimeNs = now)

section Stamps

variable {clock now : Int} {files after : Dict Text FileState} {path : Text}
  {stamp : Int} {read : FileRead}

theorem StampedBy.kept (stamped : StampedBy clock files path stamp)
    (kept : FilesKept clock now files after) :
    StampedBy now after path stamp := by
  refine ⟨stamped.1.trans kept.later, ?_⟩
  intro file found
  obtain ⟨older, located, -, same | fresh⟩ := kept.kept path file found
  · exact same ▸ stamped.2 older located
  · exact fresh ▸ stamped.1.trans kept.later

theorem StampedBy.write {file : FileState} {changed : Text}
    (stamped : StampedBy clock files path stamp)
    (fresh : file.ctimeNs = clock) : StampedBy clock (files.set changed file) path stamp := by
  refine ⟨stamped.1, ?_⟩
  intro other found
  rw [Dict.get?_set] at found
  split at found
  · cases found
    exact fresh ▸ stamped.1
  · exact stamped.2 other found

theorem FilesStamped.kept (stamped : FilesStamped clock files)
    (kept : FilesKept clock now files after) :
    FilesStamped now after := by
  intro path file found
  obtain ⟨older, located, -, same | fresh⟩ := kept.kept path file found
  · exact same ▸ (stamped path older located).trans kept.later
  · exact Int.le_of_eq fresh

theorem FilesStamped.write {file : FileState} (stamped : FilesStamped clock files)
    (fresh : file.ctimeNs = clock) :
    FilesStamped clock (files.set path file) := by
  intro other found located
  rw [Dict.get?_set] at located
  split at located
  · cases located
    exact Int.le_of_eq fresh
  · exact stamped other found located

theorem ReadHolds.kept (holds : ReadHolds clock files read)
    (kept : FilesKept clock now files after) :
    ReadHolds now after read where
  stamped := holds.stamped.kept kept
  writes stamp member := ⟨(holds.writes stamp member).1, (holds.writes stamp member).2.kept kept⟩
  content quiet file found := by
    obtain ⟨older, located, same, -⟩ := kept.kept read.path file found
    exact same.trans (holds.content quiet older located)

/-- A write leaves its stamp on every read of the file. -/
theorem ReadHolds.write {file : FileState} (holds : ReadHolds clock files read)
    (fresh : file.ctimeNs = clock) :
    ReadHolds clock (files.set path file) (read.mark path clock) := by
  unfold FileRead.mark
  split
  · rename_i same
    refine ⟨holds.stamped.write fresh, ?_, ?_⟩
    · intro stamp member
      rcases List.mem_append.mp member with older | new
      · exact ⟨(holds.writes stamp older).1, (holds.writes stamp older).2.write fresh⟩
      · cases List.mem_singleton.mp new
        refine ⟨holds.stamped.1, Int.le_refl _, ?_⟩
        intro found located
        rw [same, Dict.get?_set_self, Option.some.injEq] at located
        exact Int.le_of_eq (located ▸ fresh.symm)
    · intro quiet
      simp at quiet
  · rename_i different
    refine ⟨holds.stamped.write fresh, ?_, ?_⟩
    · intro stamp member
      exact ⟨(holds.writes stamp member).1, (holds.writes stamp member).2.write fresh⟩
    · intro quiet found located
      rw [Dict.get?_set_of_ne _ _ different] at located
      exact holds.content quiet found located

/-- While the change time is the one that the walk recorded, an undisturbed read has no write
behind it. -/
theorem ReadHolds.current {file : FileState} (holds : ReadHolds clock files read)
    (found : files.get? read.path = some file) (unchanged : file.ctimeNs = read.stamp)
    (undisturbed : read.disturbed = false) : read.writes = [] ∧ file.content = read.content := by
  have quiet : read.writes = [] := by
    refine List.eq_nil_iff_forall_not_mem.mpr ?_
    intro stamp member
    obtain ⟨above, below⟩ := holds.writes stamp member
    have same : stamp = read.stamp := Int.le_antisymm (unchanged ▸ below.2 file found) above
    simp [FileRead.disturbed, same ▸ member] at undisturbed
  exact ⟨quiet, holds.content quiet file found⟩

theorem mark_path (path : Text) (now : Int) (read : FileRead) :
    (read.mark path now).path = read.path := by
  unfold FileRead.mark
  split <;> rfl

theorem mark_stamp (path : Text) (now : Int) (read : FileRead) :
    (read.mark path now).stamp = read.stamp := by
  unfold FileRead.mark
  split <;> rfl

theorem mark_content (path : Text) (now : Int) (read : FileRead) :
    (read.mark path now).content = read.content := by
  unfold FileRead.mark
  split <;> rfl

theorem mark_quiet {path : Text} {now : Int} {read : FileRead}
    (quiet : (read.mark path now).writes = []) :
    read.writes = [] := by
  unfold FileRead.mark at quiet
  split at quiet
  · simp at quiet
  · exact quiet

end Stamps

/-- The chunks behind a worker are a prefix of the content, and its current chunk comes next. -/
def ReadsPrefix (blake3 : Blake3) (worker : RunningWorker) (content : Bytes) : Prop :=
  ∃ (parts : List Bytes) (rest : Bytes), content = parts.flatten ++ rest ∧
    worker.fileSize = parts.flatten.length ∧
    (worker.entries.map fun entry => (entry.1.chunkHash, entry.1.chunkSize)) =
      parts.map (fun part => (blake3HexDigest blake3 part, part.length)) ∧
    ∀ chunk, worker.current = some chunk → chunk.chunkHash = blake3HexDigest blake3 chunk.data ∧
      chunk.data <+: rest

/-- How far a worker is with its read. A file that was written since may have yielded anything. -/
def ReadProgress (blake3 : Blake3) (read : Option FileRead) : WorkerState → Prop
  | .running worker =>
      worker = .start ∨ ∃ opened, read = some opened ∧
        (opened.writes = [] → ReadsPrefix blake3 worker opened.content)
  | .returned result =>
      ∃ opened, read = some opened ∧
        (opened.writes = [] → Describes blake3 result.chunks opened.content)
  | .failed _ => True

section Workers

variable {zstd : Zstd} {blake3 : Blake3} {worker : RunningWorker} {content : Bytes}
  {read : Option FileRead}

theorem readsPrefix_start (blake3 : Blake3) (content : Bytes) : ReadsPrefix blake3 .start content :=
  ⟨[], content, rfl, rfl, rfl, fun _ impossible => by cases impossible⟩

theorem ReadProgress.readsSoFar (progress : ReadProgress blake3 read (.running worker))
    {opened : FileRead} (reading : read = some opened) (quiet : opened.writes = []) :
    ReadsPrefix blake3 worker opened.content := by
  rcases progress with rfl | ⟨other, same, reads⟩
  · exact readsPrefix_start blake3 opened.content
  · rw [reading, Option.some.injEq] at same
    subst same
    exact reads quiet

theorem ReadsPrefix.finishChunk {chunk : CurrentChunk} {decision : ChunkDecision} {written : Bool}
    (reads : ReadsPrefix blake3 worker content) (current : worker.current = some chunk) :
    ReadsPrefix blake3 (worker.finishChunk chunk decision written) content := by
  obtain ⟨parts, rest, whole, size, entries, next⟩ := reads
  obtain ⟨hash, tail, remaining⟩ := next chunk current
  refine ⟨parts ++ [chunk.data], tail, ?_, ?_, ?_, fun _ impossible => by cases impossible⟩
  · simp [whole, ← remaining]
  · simp [RunningWorker.finishChunk, size]
  · simp [RunningWorker.finishChunk, entries, hash]

/-- The step of a worker between two reads. -/
theorem ReadProgress.advance {chunk : CurrentChunk} {result : PhaseResult}
    (progress : ReadProgress blake3 read (.running worker))
    (current : worker.current = some chunk) :
    ReadProgress blake3 read (worker.resume chunk result) := by
  rcases progress with rfl | ⟨opened, reading, reads⟩
  · cases current
  · cases result with
    | raised reason => trivial
    | decided decision written =>
        exact .inr ⟨opened, reading, fun quiet => (reads quiet).finishChunk current⟩
    | goto phase =>
        refine .inr ⟨opened, reading, ?_⟩
        intro quiet
        obtain ⟨parts, rest, whole, size, entries, next⟩ := reads quiet
        refine ⟨parts, rest, whole, size, entries, ?_⟩
        intro other same
        cases same
        exact next chunk current

theorem ReadProgress.nextChunk {opened : FileRead} {data : Bytes} {phase : ChunkPhase}
    (progress : ReadProgress blake3 (some opened) (.running worker))
    (yielded : opened.yields worker.fileSize data = true) :
    ReadProgress blake3 (some opened) (.running { worker with
      current := some { chunkHash := blake3HexDigest blake3 data, data, phase } }) := by
  refine .inr ⟨opened, rfl, ?_⟩
  intro quiet
  obtain ⟨parts, rest, whole, size, entries, -⟩ := progress.readsSoFar rfl quiet
  refine ⟨parts, rest, whole, size, entries, ?_⟩
  intro chunk same
  cases same
  refine ⟨rfl, ?_⟩
  have next : data ≠ [] ∧ data <+: rest := by
    simpa [FileRead.yields, quiet, whole, size] using yielded
  exact next.2

theorem ReadProgress.endOfStream {opened : FileRead}
    (progress : ReadProgress blake3 (some opened) (.running worker))
    (ended : opened.endsAt worker.fileSize = true) :
    ReadProgress blake3 (some opened) (finishWorker blake3 worker) := by
  unfold finishWorker
  split
  · trivial
  · refine ⟨opened, rfl, ?_⟩
    intro quiet
    obtain ⟨parts, rest, whole, size, entries, -⟩ := progress.readsSoFar rfl quiet
    refine ⟨parts, ?_, ?_⟩
    · have lengths : parts.flatten.length = opened.content.length := by
        simpa [FileRead.endsAt, quiet, size] using ended
      rw [whole, List.length_append] at lengths
      have empty : rest = [] := List.length_eq_zero_iff.mp (by omega)
      rw [whole, empty, List.append_nil]
    · simpa [WorkerResult.chunks, Function.comp_def] using entries

theorem ReadProgress.mark {state : WorkerState} {path : Text} {now : Int}
    (progress : ReadProgress blake3 read state) :
    ReadProgress blake3 (read.map (FileRead.mark path now)) state := by
  cases state with
  | failed reason => trivial
  | running worker =>
      rcases progress with rfl | ⟨opened, rfl, reads⟩
      · exact .inl rfl
      · refine .inr ⟨opened.mark path now, rfl, ?_⟩
        intro quiet
        rw [mark_content]
        exact reads (mark_quiet quiet)
  | returned result =>
      obtain ⟨opened, rfl, describes⟩ := progress
      refine ⟨opened.mark path now, rfl, ?_⟩
      intro quiet
      rw [mark_content]
      exact describes (mark_quiet quiet)

end Workers

/-- What every step of the node keeps in the catalog. -/
structure CatalogMoved (db after : MetadataDB) : Prop where
  roots : ∀ snapshotId row, db.snapshots.get? snapshotId = some row → ∃ kept,
    after.snapshots.get? snapshotId = some kept ∧ kept.rootPath = row.rootPath
  items : ∀ itemId item, db.snapshotItems.get? itemId = some item → ∃ moved,
    after.snapshotItems.get? itemId = some moved ∧ SameItem item moved
  recipes : MetadataDB.RecipesKept db after
  complete : ∀ snapshotId row itemId item, db.snapshots.get? snapshotId = some row →
    row.status = .complete →
    after.snapshotItems.get? itemId = some item → item.snapshotId = snapshotId →
    db.snapshotItems.get? itemId = some item

/-- The read is one of the file of the item, under the change time of the item. -/
structure ReadFor (db : MetadataDB) (item : SnapshotItemRow) (read : FileRead) : Prop where
  stamp : item.ctimeNs = some read.stamp
  path : ∃ row, db.snapshots.get? item.snapshotId = some row ∧
    read.path = fullPath row.rootPath item.path

def ItemStamped (clock : Int) (files : Dict Text FileState) (db : MetadataDB)
    (item : SnapshotItemRow) : Prop :=
  ∃ row stamp, db.snapshots.get? item.snapshotId = some row ∧ item.ctimeNs = some stamp ∧
    StampedBy clock files (fullPath row.rootPath item.path) stamp

/-- Whatever the previous snapshot holds under the path and the change time of a walked entry
describes the content at its stat, unless the read behind it was disturbed by then. -/
def StatSound (blake3 : Blake3) (db : MetadataDB) (previousSnapshotId : Option Nat)
    (walked : WalkedEntry) : Prop :=
  ∀ previousId previous recipeId, previousSnapshotId = some previous.snapshotId →
    db.snapshotItems.get? previousId = some previous → previous.path = entryPath walked.entry →
    previous.ctimeNs = some walked.entry.stat.ctimeNs → previous.recipeId = some recipeId →
    ∃ read, walked.reads.get? previousId = some read ∧
      (read.disturbed = false → Describes blake3 (db.recipeChunkEntries recipeId) walked.content)

section Catalog

variable {zstd : Zstd} {blake3 : Blake3} {db after : MetadataDB} {item later : SnapshotItemRow}
  {read : FileRead}

theorem CatalogMoved.refl (db : MetadataDB) : CatalogMoved db db where
  roots _ row located := ⟨row, located, rfl⟩
  items _ item stored := ⟨item, stored, sameItem_refl item⟩
  recipes := recipesKept_refl
  complete _ _ _ _ _ _ stored _ := stored

theorem ReadFor.moved (reading : ReadFor db item read) (kept : CatalogMoved db after)
    (same : SameItem item later) :
    ReadFor after later read where
  stamp := same.ctimeNs.trans reading.stamp
  path := by
    obtain ⟨row, located, path⟩ := reading.path
    obtain ⟨renewed, found, root⟩ := kept.roots _ row located
    exact ⟨renewed, same.snapshotId ▸ found, by rw [root, same.path, path]⟩

theorem ItemStamped.moved {clock : Int} {files : Dict Text FileState}
    (stamped : ItemStamped clock files db item) (kept : CatalogMoved db after)
    (same : SameItem item later) : ItemStamped clock files after later := by
  obtain ⟨row, stamp, located, recorded, bounded⟩ := stamped
  obtain ⟨renewed, found, root⟩ := kept.roots _ row located
  exact ⟨renewed, stamp, same.snapshotId ▸ found, same.ctimeNs.trans recorded,
    by rw [root, same.path]; exact bounded⟩

theorem ItemStamped.files {clock now : Int} {files later : Dict Text FileState}
    (stamped : ItemStamped clock files db item)
    (kept : ∀ path stamp, StampedBy clock files path stamp → StampedBy now later path stamp) :
    ItemStamped now later db item := by
  obtain ⟨row, stamp, located, recorded, bounded⟩ := stamped
  exact ⟨row, stamp, located, recorded, kept _ _ bounded⟩

/-- A read under the change time of an item is bounded as the item is. -/
theorem ReadFor.describes {clock : Int} {files : Dict Text FileState}
    {file : FileState} {row : SnapshotRow} {chunks : List RecipeChunk}
    (reading : ReadFor db item read) (holds : ReadHolds clock files read)
    (located : db.snapshots.get? item.snapshotId = some row)
    (found : files.get? (fullPath row.rootPath item.path) = some file)
    (stamp : item.ctimeNs = some file.ctimeNs)
    (describes : read.writes = [] → Describes blake3 chunks read.content)
    (undisturbed : read.disturbed = false) :
    Describes blake3 chunks file.content := by
  obtain ⟨own, present, path⟩ := reading.path
  rw [located, Option.some.injEq] at present
  subst present
  rw [← path] at found
  have same : file.ctimeNs = read.stamp := Option.some.inj (stamp.symm.trans reading.stamp)
  obtain ⟨quiet, content⟩ := holds.current found same undisturbed
  rw [content]
  exact describes quiet

theorem StatSound.moved {run : BackupRun} {walked : WalkedEntry}
    (sound : StatSound blake3 db run.previousSnapshotId walked) (kept : CatalogMoved db after)
    (recipes : CatalogRecipes db) (owns : RunOwns db run) :
    StatSound blake3 after run.previousSnapshotId walked := by
  intro previousId previous recipeId recorded stored path stamp recipe
  obtain ⟨-, row, located, complete, -⟩ := owns.previous _ recorded
  have older := kept.complete _ row previousId previous located complete stored rfl
  obtain ⟨read, known, describes⟩ :=
    sound previousId previous recipeId recorded older path stamp recipe
  obtain ⟨recipeRow, present⟩ := recipes.assigned previousId previous recipeId older recipe
  refine ⟨read, known, ?_⟩
  rw [(kept.recipes recipeId recipeRow present).2]
  exact describes

theorem catalogMoved_transition {host changed : Host} {run next : BackupRun} {event : BackupEvent}
    (bounded : host.db.ItemIdsBounded) (recipes : CatalogRecipes host.db)
    (owns : RunOwns host.db run)
    (transition : BackupTransition zstd blake3 host run event changed next) :
    CatalogMoved host.db changed.db := by
  have step := ownedStep_transition bounded owns transition
  refine ⟨?_, ?_, (step.recipes recipes).2, ?_⟩
  · intro snapshotId row located
    obtain ⟨kept, found, root, -⟩ := step.effect.snapshots snapshotId row located
    exact ⟨kept, found, root⟩
  · intro itemId item stored
    obtain ⟨moved, found, same, -⟩ := step.effect.items itemId item stored
    exact ⟨moved, found, same⟩
  · intro snapshotId row itemId item located complete stored owner
    exact (itemTransition bounded transition stored).complete owns located complete owner

theorem catalogMoved_start {node : Node} {request : BackupRequest} {run : BackupRun}
    (owned : NodeOwned node)
    (started : startBackup blake3 node.host.db request = .ok (after, run)) :
    CatalogMoved node.host.db after := by
  obtain ⟨policy, row, -, -, -, -, rfl⟩ := startBackup_ok started
  refine ⟨?_, fun _ item stored => ⟨item, stored, sameItem_refl item⟩, recipesKept_refl,
    fun _ _ _ _ _ _ stored _ => stored⟩
  intro snapshotId older located
  have below := owned.snapshotIds snapshotId older located
  exact ⟨older, (Dict.get?_set_of_ne _ _ (by omega)).trans located, rfl⟩

end Catalog

def RunPhase.walkStarted : RunPhase → Bool
  | .walking | .registered _ | .submitting _ => true
  | .created | .failing _ | .closed => false

structure WalkSound (blake3 : Blake3) (clock : Int) (files : Dict Text FileState)
    (db : MetadataDB) (run : BackupRun) (walked : WalkedEntry) : Prop where
  stamped : StampedBy clock files
    (fullPath run.rootPath (entryPath walked.entry)) walked.entry.stat.ctimeNs
  stat : StatSound blake3 db run.previousSnapshotId walked

/-- The walked entry behind a registered one. -/
structure WalkedAs (blake3 : Blake3) (db : MetadataDB) (run : BackupRun)
    (registered : RegisteredEntry) (walked : WalkedEntry) : Prop where
  entry : walked.entry = registered.entry
  path : registered.path = entryPath registered.entry
  stat : registered.entry.itemType = .file → StatSound blake3 db run.previousSnapshotId walked

structure HistoryHolds (blake3 : Blake3) (history : History) : Prop where
  owned : NodeOwned history.node
  files : FilesStamped history.node.host.clock history.files
  items : ∀ itemId item, history.node.host.db.snapshotItems.get? itemId = some item →
    item.itemType = .file →
    ItemStamped history.node.host.clock history.files history.node.host.db item
  reads : ∀ itemId read, history.reads.get? itemId = some read →
    ReadHolds history.node.host.clock history.files read ∧
    ∃ item, history.node.host.db.snapshotItems.get? itemId = some item ∧
      ReadFor history.node.host.db item read
  origins : ∀ itemId read, history.origins.get? itemId = some read →
    ReadHolds history.node.host.clock history.files read
  recipes : ∀ itemId item recipeId, history.node.host.db.snapshotItems.get? itemId = some item →
    item.recipeId = some recipeId → ∃ read, history.origins.get? itemId = some read ∧
      ReadFor history.node.host.db item read ∧
      (read.writes = [] →
        Describes blake3 (history.node.host.db.recipeChunkEntries recipeId) read.content)
  tasks : ∀ runId run itemId task, history.node.runs.get? runId = some run →
    run.tasks.get? itemId = some task → ReadProgress blake3 (history.reads.get? itemId) task.worker
  walked : ∀ runId run batch walked, history.node.runs.get? runId = some run →
    run.phase.walkStarted = true →
    history.walked.get? runId = some batch → walked ∈ batch → namesFile walked.entry = true →
    WalkSound blake3 history.node.host.clock history.files history.node.host.db run walked
  registered : ∀ runId run batch, history.node.runs.get? runId = some run →
    run.phase = .registered batch → ∃ walked, history.batches.get? runId = some walked ∧
      List.Forall₂ (WalkedAs blake3 history.node.host.db run) batch walked

section Files

variable {blake3 : Blake3} {history : History}

theorem WalkSound.files {clock now : Int} {files later : Dict Text FileState}
    {db : MetadataDB} {run : BackupRun}
    {walked : WalkedEntry} (sound : WalkSound blake3 clock files db run walked)
    (kept : ∀ path stamp, StampedBy clock files path stamp → StampedBy now later path stamp) :
    WalkSound blake3 now later db run walked :=
  ⟨kept _ _ sound.stamped, sound.stat⟩

theorem historyHolds_fresh (blake3 : Blake3) (cas : CasFiles) (clock : Int) :
    HistoryHolds blake3 (.fresh cas clock) where
  owned := nodeOwned_fresh cas clock
  files _ _ found := by cases found
  items _ _ stored := by cases stored
  reads _ _ opened := by cases opened
  origins _ _ known := by cases known
  recipes _ _ _ stored := by cases stored
  tasks _ _ _ _ found := by cases found
  walked _ _ _ _ found := by cases found
  registered _ _ _ found := by cases found

/-- Changes of attributes, removals and the passing of time. -/
theorem HistoryHolds.filesKept {now : Int} {files : Dict Text FileState}
    (holds : HistoryHolds blake3 history)
    (kept : FilesKept history.node.host.clock now history.files files) :
    HistoryHolds blake3 { history with
      node := { history.node with host := { history.node.host with clock := now } }
      files } where
  owned := ⟨holds.owned.itemIds, holds.owned.snapshotIds, holds.owned.recipes,
    holds.owned.runs, holds.owned.runIds, holds.owned.distinct⟩
  files := holds.files.kept kept
  items itemId item stored file :=
    (holds.items itemId item stored file).files fun _ _ stamped => stamped.kept kept
  reads itemId read opened :=
    ⟨(holds.reads itemId read opened).1.kept kept, (holds.reads itemId read opened).2⟩
  origins itemId read known := (holds.origins itemId read known).kept kept
  recipes := holds.recipes
  tasks := holds.tasks
  walked runId run batch walked found phase located member file :=
    (holds.walked runId run batch walked found phase located member file).files
      fun _ _ stamped => stamped.kept kept
  registered := holds.registered

theorem ReadFor.mark {db : MetadataDB} {item : SnapshotItemRow} {read : FileRead}
    (reading : ReadFor db item read)
    (path : Text) (now : Int) : ReadFor db item (read.mark path now) :=
  ⟨mark_stamp path now read ▸ reading.stamp, mark_path path now read ▸ reading.path⟩

theorem HistoryHolds.write {path : Text} {file : FileState} (holds : HistoryHolds blake3 history)
    (fresh : file.ctimeNs = history.node.host.clock) :
    HistoryHolds blake3 { history with
      files := history.files.set path file
      reads := history.reads.mapValues fun _ => FileRead.mark path history.node.host.clock
      origins :=
        history.origins.mapValues fun _ => FileRead.mark path history.node.host.clock } where
  owned := holds.owned
  files := holds.files.write fresh
  items itemId item stored kind := (holds.items itemId item stored kind).files
    fun _ _ stamped => stamped.write fresh
  reads itemId read opened := by
    rw [Dict.get?_mapValues] at opened
    obtain ⟨older, located, rfl⟩ := Option.map_eq_some_iff.mp opened
    obtain ⟨held, item, stored, reading⟩ := holds.reads itemId older located
    exact ⟨held.write fresh, item, stored, reading.mark path _⟩
  origins itemId read known := by
    rw [Dict.get?_mapValues] at known
    obtain ⟨older, located, rfl⟩ := Option.map_eq_some_iff.mp known
    exact (holds.origins itemId older located).write fresh
  recipes itemId item recipeId stored recipe := by
    obtain ⟨read, known, reading, describes⟩ := holds.recipes itemId item recipeId stored recipe
    refine ⟨read.mark path history.node.host.clock, ?_, reading.mark path _, ?_⟩
    · rw [Dict.get?_mapValues, known]
      rfl
    · intro quiet
      rw [mark_content]
      exact describes (mark_quiet quiet)
  tasks runId run itemId task found located := by
    rw [Dict.get?_mapValues]
    exact (holds.tasks runId run itemId task found located).mark
  walked runId run batch walked found phase located member named :=
    (holds.walked runId run batch walked found phase located member named).files
      fun _ _ stamped => stamped.write fresh
  registered := holds.registered

end Files

section Walks

variable {blake3 : Blake3} {history after : History} {runId : Nat} {run : BackupRun}

theorem entryPath_toPyText (relPath : Text) (stat : StatInfo) (itemType : ItemType) :
    entryPath { relPath := toPyText relPath, stat, itemType } = relPath := by
  simp [entryPath, toPyText, List.filterMap_map, PyChar.toScalar?, Function.comp_def]

/-- The stat of a walk sees the content that the recipe of an unchanged file describes. -/
theorem HistoryHolds.statSound {file : FileState} {relPath : Text}
    (holds : HistoryHolds blake3 history) (found : history.node.runs.get? runId = some run)
    (located : history.files.get? (fullPath run.rootPath relPath) = some file) :
    StatSound blake3 history.node.host.db run.previousSnapshotId {
      entry := { relPath := toPyText relPath, stat := file.stat, itemType := .file }
      content := file.content
      reads := history.origins } := by
  intro previousId previous recipeId recorded stored path stamp recipe
  rw [entryPath_toPyText] at path
  obtain ⟨-, row, present, -, root⟩ := (holds.owned.runs runId run found).previous _ recorded
  obtain ⟨read, known, reading, describes⟩ :=
    holds.recipes previousId previous recipeId stored recipe
  refine ⟨read, known, ?_⟩
  intro undisturbed
  exact reading.describes (holds.origins previousId read known) present
    (by rw [root, path]; exact located) stamp describes
    undisturbed

theorem HistoryHolds.recordWalk {walked : WalkedEntry} (holds : HistoryHolds blake3 history)
    (found : history.node.runs.get? runId = some run)
    (sound : namesFile walked.entry = true →
      WalkSound blake3 history.node.host.clock history.files history.node.host.db run walked)
    (recorded : history.recordWalk runId run walked = some after) : HistoryHolds blake3 after := by
  unfold History.recordWalk at recorded
  split at recorded
  · cases recorded
    refine { holds with walked := ?_ }
    intro otherId other batch entry present phase located member named
    change (history.walked.modify runId [] (· ++ [walked])).get? otherId = some batch at located
    rw [Dict.get?_modify] at located
    split at located
    · rename_i same
      subst same
      cases located
      rw [found, Option.some.injEq] at present
      subst present
      rcases List.mem_append.mp member with older | new
      · cases stored : history.walked.get? otherId with
        | none => simp [stored] at older
        | some earlier =>
            rw [stored] at older
            exact holds.walked otherId run earlier entry found phase stored older named
      · cases List.mem_singleton.mp new
        exact sound named
    · exact holds.walked otherId other batch entry present phase located member named
  · cases recorded

theorem HistoryHolds.openFile {itemId : Nat} {task : Task} {item : SnapshotItemRow}
    {stamp : Int} {file : FileState}
    (holds : HistoryHolds blake3 history) (found : history.node.runs.get? runId = some run)
    (located : run.tasks.get? itemId = some task)
    (stored : history.node.host.db.snapshotItems.get? itemId = some item)
    (recorded : item.ctimeNs = some stamp)
    (present : history.files.get? (fullPath run.rootPath task.path) = some file)
    (unread : task.worker = .running .start) :
    HistoryHolds blake3 { history with
      reads := history.reads.set itemId {
        path := fullPath run.rootPath task.path
        stamp
        content := file.content
        writes := [] } } := by
  obtain ⟨own, same, owner, path, kind⟩ :=
    (holds.owned.runs runId run found).tasks itemId task located
  rw [stored, Option.some.injEq] at same
  subst same
  refine { holds with reads := ?_, tasks := ?_ }
  · intro otherId read opened
    change (history.reads.set itemId _).get? otherId = some read at opened
    rw [Dict.get?_set] at opened
    split at opened
    · rename_i same
      subst same
      cases opened
      obtain ⟨row, snapshot, root⟩ := (holds.owned.runs runId run found).root
      obtain ⟨again, bound, known, same, stamped⟩ := holds.items otherId item stored kind
      rw [owner, snapshot, Option.some.injEq] at known
      subst known
      rw [recorded, Option.some.injEq] at same
      subst same
      rw [root, path] at stamped
      refine ⟨⟨stamped, fun _ impossible => (by cases impossible), ?_⟩, item, stored, recorded,
        row, owner ▸ snapshot, by rw [root, path]⟩
      intro quiet other again
      rw [present, Option.some.injEq] at again
      rw [again]
    · exact holds.reads otherId read opened
  · intro otherRun other otherId otherTask inside working
    change ReadProgress blake3 ((history.reads.set itemId _).get? otherId) otherTask.worker
    rw [Dict.get?_set]
    split
    · rename_i same
      subst same
      obtain ⟨again, equal, otherOwner, -⟩ :=
        (holds.owned.runs otherRun other inside).tasks otherId otherTask working
      rw [stored, Option.some.injEq] at equal
      subst equal
      have sameRun := holds.owned.distinct otherRun runId other run inside found
        (otherOwner.symm.trans owner)
      subst sameRun
      rw [found, Option.some.injEq] at inside
      subst inside
      rw [located, Option.some.injEq] at working
      subst working
      rw [unread]
      exact .inl rfl
    · exact holds.tasks otherRun other otherId otherTask inside working

end Walks

section Steps

variable {zstd : Zstd} {blake3 : Blake3} {history after : History} {host : Host} {runId : Nat}
  {run next : BackupRun}
variable {event : BackupEvent}

theorem BackupTransition.clock {changed : Host}
    (transition : BackupTransition zstd blake3 host run event changed next) :
    changed.clock = host.clock := by
  cases transition <;> rfl

/-- What a step of a backup leaves of the position of its walk. -/
theorem BackupTransition.walk {changed : Host}
    (transition : BackupTransition zstd blake3 host run event changed next) :
    next.rootPath = run.rootPath ∧ (event = .resolvePrevious ∧ next.phase = .walking ∨
      next.previousSnapshotId = run.previousSnapshotId ∧
      (next.phase.walkStarted = true → run.phase.walkStarted = true)) := by
  cases transition with
  | resolvePrevious phase => exact ⟨rfl, .inl ⟨rfl, rfl⟩⟩
  | addBatch phase added => exact ⟨rfl, .inr ⟨rfl, fun _ => by rw [phase]; rfl⟩⟩
  | reuseBatch phase reused => exact ⟨rfl, .inr ⟨rfl, fun _ => by rw [phase]; rfl⟩⟩
  | submit phase => exact ⟨rfl, .inr ⟨rfl, fun _ => by rw [phase]; rfl⟩⟩
  | submitted phase => exact ⟨rfl, .inr ⟨rfl, fun _ => by rw [phase]; rfl⟩⟩
  | worker found working stepped => exact ⟨rfl, .inr ⟨rfl, fun started => started⟩⟩
  | collect found finished collecting consolidated =>
      exact ⟨rfl, .inr ⟨rfl, fun started => started⟩⟩
  | collectFailed found failed => exact ⟨rfl, .inr ⟨rfl, fun started => started⟩⟩
  | collectRaised => exact ⟨rfl, .inr ⟨rfl, fun impossible => by cases impossible⟩⟩
  | finish phase idle finished => exact ⟨rfl, .inr ⟨rfl, fun impossible => by cases impossible⟩⟩
  | fail phase failed => exact ⟨rfl, .inr ⟨rfl, fun impossible => by cases impossible⟩⟩
  | close phase => exact ⟨rfl, .inr ⟨rfl, fun impossible => by cases impossible⟩⟩
  | raised => exact ⟨rfl, .inr ⟨rfl, fun impossible => by cases impossible⟩⟩

theorem BackupTransition.registered {changed : Host} {batch : List RegisteredEntry}
    (transition : BackupTransition zstd blake3 host run event changed next)
    (phase : next.phase = .registered batch) :
    run.phase = .registered batch ∧ (∀ entries, event ≠ .addBatch entries) ∨
      ∃ entries itemIds, event = .addBatch entries ∧ run.phase = .walking ∧
      host.db.addItems run.snapshotId entries = .ok (changed.db, itemIds) ∧
        batch = registerEntries itemIds entries := by
  cases transition with
  | addBatch walking added =>
      cases phase
      exact .inr ⟨_, _, rfl, walking, added, rfl⟩
  | worker found working stepped => exact .inl ⟨phase, fun _ same => by cases same⟩
  | collect found finished collecting consolidated =>
      exact .inl ⟨phase, fun _ same => by cases same⟩
  | collectFailed found failed => exact .inl ⟨phase, fun _ same => by cases same⟩
  | resolvePrevious walking => cases phase
  | reuseBatch walking reused => cases phase
  | submit walking => cases phase
  | submitted walking => cases phase
  | collectRaised => cases phase
  | finish walking idle finished => cases phase
  | fail walking failed => cases phase
  | close walking => cases phase
  | raised => cases phase

/-- The data that a worker gets from its file, and the end of it, are those of its read. -/
def ReadsFile (history : History) (run : BackupRun) (event : BackupEvent) : Prop :=
  ∀ itemId task current, run.tasks.get? itemId = some task → task.worker = .running current →
    (∀ data, event = .worker itemId (.nextChunk data) →
      ∃ read, history.reads.get? itemId = some read ∧ read.yields current.fileSize data = true) ∧
    (event = .worker itemId .endOfStream →
      ∃ read, history.reads.get? itemId = some read ∧ read.endsAt current.fileSize = true)

theorem HistoryHolds.tasks_transition {itemId : Nat} {task : Task}
    (holds : HistoryHolds blake3 history)
    (found : history.node.runs.get? runId = some run) (reading : ReadsFile history run event)
    (transition : BackupTransition zstd blake3 history.node.host run event host next)
    (located : next.tasks.get? itemId = some task) :
    ReadProgress blake3 (history.reads.get? itemId) task.worker := by
  rcases transition.tasks located with older | started | ⟨older, current, workerEvent, rfl, present,
    working, stepped, -⟩
  · exact holds.tasks runId run itemId task found older
  · rw [started]
    exact .inl rfl
  · have progress := holds.tasks runId run itemId older found present
    rw [working] at progress
    obtain ⟨data, ending⟩ := reading itemId older current present working
    rcases workerStep_cases stepped with ⟨-, -, outcome⟩ |
      ⟨chunk, outcome, inode, result, -, chosen, -, same⟩
    · rcases outcome with ⟨reason, -, same⟩ | ⟨bytes, rfl, -, same⟩ | ⟨rfl, -, same⟩
      · rw [same]
        trivial
      · obtain ⟨read, opened, yielded⟩ := data bytes rfl
        rw [same, opened]
        rw [opened] at progress
        exact progress.nextChunk yielded
      · obtain ⟨read, opened, ended⟩ := ending rfl
        rw [same, opened]
        rw [opened] at progress
        exact progress.endOfStream ended
    · rw [same]
      exact progress.advance chosen

theorem HistoryHolds.items_transition {itemId : Nat} {item : SnapshotItemRow}
    (holds : HistoryHolds blake3 history) (found : history.node.runs.get? runId = some run)
    (walked : ∀ entries entry, event = .addBatch entries → run.phase = .walking → entry ∈ entries →
      namesFile entry = true → StampedBy history.node.host.clock history.files
        (fullPath run.rootPath (entryPath entry)) entry.stat.ctimeNs)
    (transition : BackupTransition zstd blake3 history.node.host run event host next)
    (stored : host.db.snapshotItems.get? itemId = some item) (file : item.itemType = .file) :
    ItemStamped history.node.host.clock history.files host.db item := by
  have owns := holds.owned.runs runId run found
  have moved := catalogMoved_transition holds.owned.itemIds holds.owned.recipes owns transition
  cases itemTransition holds.owned.itemIds transition stored with
  | same older => exact (holds.items itemId item older file).moved moved (sameItem_refl item)
  | reused phase member owner kind reused older =>
      exact (holds.items itemId _ older file).moved moved (sameItem_assign _ _)
  | consolidated located finished collecting entries older =>
      exact (holds.items itemId _ older file).moved moved (sameItem_assign _ _)
  | added phase member added bound =>
      rename_i entries itemIds entry
      obtain ⟨row, snapshot, root⟩ := owns.root
      obtain ⟨kept, present, sameRoot⟩ := moved.roots _ row snapshot
      have named : namesFile entry = true := by
        have kind : entry.itemType = .file := file
        simp [namesFile, kind, bound, Except.toOption]
      refine ⟨kept, entry.stat.ctimeNs, present, rfl, ?_⟩
      rw [sameRoot, root]
      exact walked entries entry rfl phase (List.of_mem_zip member).2 named

/-- The read behind the recipe of an item, as the history knows it. -/
def OriginFor (blake3 : Blake3) (db : MetadataDB) (item : SnapshotItemRow) (recipeId : Nat)
    (read : FileRead) : Prop :=
  ReadFor db item read ∧
    (read.writes = [] → Describes blake3 (db.recipeChunkEntries recipeId) read.content)

theorem OriginFor.moved {db changed : MetadataDB} {item later : SnapshotItemRow}
    {recipeId : Nat} {read : FileRead} (origin : OriginFor blake3 db item recipeId read)
    (kept : CatalogMoved db changed) (same : SameItem item later)
    (known : ∃ row, db.recipes.get? recipeId = some row) :
    OriginFor blake3 changed later recipeId read := by
  obtain ⟨row, present⟩ := known
  refine ⟨origin.1.moved kept same, ?_⟩
  rw [(kept.recipes recipeId row present).2]
  exact origin.2

theorem HistoryHolds.origin {itemId recipeId : Nat} {item : SnapshotItemRow}
    (holds : HistoryHolds blake3 history)
    (stored : history.node.host.db.snapshotItems.get? itemId = some item)
    (recipe : item.recipeId = some recipeId) :
    ∃ read, history.origins.get? itemId = some read ∧
      OriginFor blake3 history.node.host.db item recipeId read := by
  obtain ⟨read, known, reading, describes⟩ := holds.recipes itemId item recipeId stored recipe
  exact ⟨read, known, reading, describes⟩

theorem readOfRow_some {db : MetadataDB} {origins : Dict Nat FileRead}
    {row : SnapshotItemRow} {read : FileRead} (known : readOfRow db origins row = some read) :
    ∃ itemId, db.snapshotItems.get? itemId = some row ∧ origins.get? itemId = some read := by
  obtain ⟨entry, found, present⟩ := Option.bind_eq_some_iff.mp known
  have same : entry.2 = row := by simpa using List.find?_some found
  refine ⟨entry.1, Dict.get?_eq_some_iff.mpr ?_, present⟩
  rw [← same]
  exact List.mem_of_find?_eq_some found

theorem HistoryHolds.readOfRow {itemId recipeId : Nat} {item : SnapshotItemRow}
    (holds : HistoryHolds blake3 history)
    (stored : history.node.host.db.snapshotItems.get? itemId = some item)
    (recipe : item.recipeId = some recipeId) :
    ∃ read, Backup.readOfRow history.node.host.db history.origins item = some read := by
  have listed := Dict.get?_eq_some_iff.mp stored
  cases found : history.node.host.db.snapshotItems.entries.find? fun entry => entry.2 == item with
  | none =>
      have absent := List.find?_eq_none.mp found (itemId, item) listed
      simp at absent
  | some entry =>
      have same : entry.2 = item := by simpa using List.find?_some found
      have present : history.node.host.db.snapshotItems.get? entry.1 = some item := by
        rw [← same]
        exact Dict.get?_eq_some_iff.mpr (List.mem_of_find?_eq_some found)
      obtain ⟨read, known, -⟩ := holds.origin present recipe
      exact ⟨read, by simp [Backup.readOfRow, found, known]⟩

/-- The read that a reused recipe inherits is one of the new item's file, under its change time. -/
theorem HistoryHolds.reusedOrigin {itemId : Nat} {read : FileRead} {changed : MetadataDB}
    (holds : HistoryHolds blake3 history) (found : history.node.runs.get? runId = some run)
    (inherited : (itemId, read) ∈ inheritedReads history.node.host.db changed history.origins run) :
    (∃ previousId, history.origins.get? previousId = some read) ∧
      ∃ recipeId, itemRecipe changed itemId = some recipeId ∧
        (∃ row, history.node.host.db.recipes.get? recipeId = some row) ∧
        ∀ item, history.node.host.db.snapshotItems.get? itemId = some item →
          OriginFor blake3 history.node.host.db item recipeId read := by
  obtain ⟨registered, listed, inherited⟩ := List.mem_filterMap.mp inherited
  have member := (List.mem_filter.mp listed).1
  have owns := holds.owned.runs runId run found
  simp only [Backup.reusedOrigin, Option.bind_eq_bind, Option.bind_eq_some_iff] at inherited
  obtain ⟨previous, recorded, recipeId, reused, origin, known, inherited⟩ := inherited
  split at inherited
  · rename_i assigned
    cases inherited
    obtain ⟨again, same, unchanged, recipe⟩ := reusedRecipe_some reused
    rw [recorded, Option.some.injEq] at same
    subst same
    obtain ⟨previousSnapshotId, -, before, -, -, owner, -, path⟩ := get?_previousItems recorded
    obtain ⟨previousId, stored, behind⟩ := readOfRow_some known
    refine ⟨⟨previousId, behind⟩, recipeId, assigned,
      holds.owned.recipes.assigned previousId previous recipeId stored recipe, ?_⟩
    intro item present
    obtain ⟨own, located, row⟩ := owns.batch registered member
    rw [present, Option.some.injEq] at located
    subst located
    obtain ⟨again, equal, reading, describes⟩ := holds.origin stored recipe
    rw [behind, Option.some.injEq] at equal
    subst equal
    refine ⟨⟨?_, ?_⟩, describes⟩
    · rw [row.ctimeNs, ← reading.stamp, isUnchangedFile_ctimeNs unchanged]
      rfl
    · obtain ⟨-, previousRow, previousLocated, -, previousRoot⟩ :=
        owns.previous previousSnapshotId before
      obtain ⟨ownRow, ownLocated, ownRoot⟩ := owns.root
      obtain ⟨other, otherLocated, readPath⟩ := reading.path
      rw [owner, previousLocated, Option.some.injEq] at otherLocated
      subst otherLocated
      refine ⟨ownRow, row.snapshotId ▸ ownLocated, ?_⟩
      have samePath : item.path = registered.path := row.path
      rw [readPath, ownRoot, previousRoot, path, samePath]
  · cases inherited

theorem HistoryHolds.origins_backup {itemId : Nat} {read : FileRead} {changed : MetadataDB}
    (holds : HistoryHolds blake3 history) (found : history.node.runs.get? runId = some run)
    (known : (history.originsAfter changed (.backup runId event)).get? itemId = some read) :
    ReadHolds history.node.host.clock history.files read := by
  cases event with
  | collect collected =>
      simp only [History.originsAfter] at known
      split at known
      · exact holds.origins itemId read known
      · rename_i opened reading
        split at known
        · exact holds.origins itemId read known
        · rw [Dict.get?_set] at known
          split at known
          · cases known
            exact (holds.reads collected read reading).1
          · exact holds.origins itemId read known
  | reuseBatch =>
      simp only [History.originsAfter, found] at known
      rcases Dict.get?_update_cases known with inherited | ⟨-, older⟩
      · obtain ⟨⟨previousId, behind⟩, -⟩ := holds.reusedOrigin found inherited
        exact holds.origins previousId read behind
      · exact holds.origins itemId read older
  | resolvePrevious => exact holds.origins itemId read known
  | addBatch entries => exact holds.origins itemId read known
  | submit => exact holds.origins itemId read known
  | worker working workerEvent => exact holds.origins itemId read known
  | finish => exact holds.origins itemId read known
  | interrupt reason => exact holds.origins itemId read known
  | fail => exact holds.origins itemId read known

/-- An item whose row a step leaves alone keeps a read behind its recipe. -/
theorem HistoryHolds.origin_same {itemId recipeId : Nat} {item : SnapshotItemRow}
    {changed : MetadataDB} (event : BackupEvent) (holds : HistoryHolds blake3 history)
    (found : history.node.runs.get? runId = some run)
    (older : history.node.host.db.snapshotItems.get? itemId = some item)
    (stored : changed.snapshotItems.get? itemId = some item)
    (recipe : item.recipeId = some recipeId) :
    ∃ read, (history.originsAfter changed (.backup runId event)).get? itemId = some read ∧
      OriginFor blake3 history.node.host.db item recipeId read := by
  obtain ⟨read, known, origin⟩ := holds.origin older recipe
  cases event with
  | collect collected =>
      simp only [History.originsAfter]
      split
      · exact ⟨read, known, origin⟩
      · split
        · exact ⟨read, known, origin⟩
        · rename_i changedRecipe
          have different : itemId ≠ collected := by
            intro same
            subst same
            simp [itemRecipe, older, stored] at changedRecipe
          exact ⟨read, (Dict.get?_set_of_ne _ _ different).trans known, origin⟩
  | reuseBatch =>
      simp only [History.originsAfter, found]
      have present : itemId ∈ history.origins.keys := (Dict.mem_keys_iff _ _).mpr ⟨read, known⟩
      have kept :=
        (Dict.mem_keys_update _ _
          (inheritedReads history.node.host.db changed history.origins run)).mpr
        (.inr present)
      obtain ⟨later, located⟩ := (Dict.mem_keys_iff _ _).mp kept
      refine ⟨later, located, ?_⟩
      rcases Dict.get?_update_cases located with inherited | ⟨-, same⟩
      · obtain ⟨-, otherId, assigned, -, origins⟩ := holds.reusedOrigin found inherited
        have equal : otherId = recipeId := by
          simpa [itemRecipe, stored, recipe, eq_comm] using assigned
        exact equal ▸ origins item older
      · rw [known, Option.some.injEq] at same
        exact same ▸ origin
  | resolvePrevious => exact ⟨read, known, origin⟩
  | addBatch entries => exact ⟨read, known, origin⟩
  | submit => exact ⟨read, known, origin⟩
  | worker working workerEvent => exact ⟨read, known, origin⟩
  | finish => exact ⟨read, known, origin⟩
  | interrupt reason => exact ⟨read, known, origin⟩
  | fail => exact ⟨read, known, origin⟩

/-- Every recipe of the catalog after a step has a read behind it. -/
theorem HistoryHolds.recipes_transition {itemId recipeId : Nat} {item : SnapshotItemRow}
    (holds : HistoryHolds blake3 history) (found : history.node.runs.get? runId = some run)
    (transition : BackupTransition zstd blake3 history.node.host run event host next)
    (stored : host.db.snapshotItems.get? itemId = some item)
    (recipe : item.recipeId = some recipeId) :
    ∃ read, (history.originsAfter host.db (.backup runId event)).get? itemId = some read ∧
      OriginFor blake3 host.db item recipeId read := by
  have owns := holds.owned.runs runId run found
  have moved := catalogMoved_transition holds.owned.itemIds holds.owned.recipes owns transition
  cases itemTransition holds.owned.itemIds transition stored with
  | same older =>
      obtain ⟨read, known, origin⟩ := holds.origin_same event found older stored recipe
      exact ⟨read, known, origin.moved moved (sameItem_refl item)
        (holds.owned.recipes.assigned itemId item recipeId older recipe)⟩
  | reused phase member owner kind reused older =>
      rename_i batch registered before newId
      cases recipe
      subst owner
      simp only [History.originsAfter, found]
      obtain ⟨previous, recorded, -, previousRecipe⟩ := reusedRecipe_some reused
      obtain ⟨-, previousId, -, -, present, -⟩ := get?_previousItems recorded
      obtain ⟨read, behind⟩ := holds.readOfRow present previousRecipe
      have listed : (registered.itemId, read) ∈ inheritedReads history.node.host.db host.db
          history.origins run := by
        refine List.mem_filterMap.mpr
          ⟨registered, List.mem_filter.mpr ⟨?_, by simpa [isFileEntry] using kind⟩, ?_⟩
        · rw [phase]
          exact member
        · have batched : run.phase.batch = batch := by
            rw [phase]
            rfl
          simp [Backup.reusedOrigin, batched, recorded, reused, behind, itemRecipe, stored]
      have kept :=
        (Dict.mem_keys_update history.origins _ _).mpr (.inl (List.mem_map_of_mem listed))
      obtain ⟨later, located⟩ := (Dict.mem_keys_iff _ _).mp kept
      refine ⟨later, located, ?_⟩
      rcases Dict.get?_update_cases located with inherited | ⟨absent, -⟩
      · obtain ⟨-, otherId, assigned, recipeKnown, origins⟩ := holds.reusedOrigin found inherited
        have equal : otherId = recipeId := by
          simpa [itemRecipe, stored, eq_comm] using assigned
        subst equal
        exact (origins before older).moved moved (sameItem_assign _ _) recipeKnown
      · exact absurd (List.mem_map_of_mem listed) absent
  | added phase member added bound => cases recipe
  | consolidated located finished collecting entries older =>
      rename_i task result before newId
      cases recipe
      have progress := holds.tasks runId run itemId task found located
      rw [finished] at progress
      obtain ⟨opened, reading, describes⟩ := progress
      simp only [History.originsAfter, reading]
      split
      · rename_i unchanged
        have earlier : before.recipeId = some recipeId := by
          simpa [itemRecipe, older, stored] using unchanged
        obtain ⟨read, known, origin⟩ := holds.origin older earlier
        exact ⟨read, known, origin.moved moved (sameItem_assign _ _)
          (holds.owned.recipes.assigned itemId before recipeId older earlier)⟩
      · obtain ⟨-, same, present, reads⟩ := holds.reads itemId opened reading
        rw [older, Option.some.injEq] at present
        subst present
        refine ⟨opened, Dict.get?_set_self .., reads.moved moved (sameItem_assign _ _), ?_⟩
        rw [entries]
        exact describes

theorem walkedAs_registerEntries {db : MetadataDB} {accepted : Nat → WalkEntry → Prop}
    {itemIds : List Nat}
    {walked : List WalkedEntry} (aligned : List.Forall₂ accepted itemIds (walked.map (·.entry)))
    (sound : ∀ entry ∈ walked, ∀ itemId, accepted itemId entry.entry →
      entry.entry.itemType = .file → StatSound blake3 db run.previousSnapshotId entry) :
    List.Forall₂ (WalkedAs blake3 db run)
      (registerEntries itemIds (walked.map (·.entry))) walked := by
  induction walked generalizing itemIds with
  | nil =>
      cases aligned
      exact .nil
  | cons first rest ih =>
      cases aligned with
      | cons head tail =>
          refine .cons ⟨rfl, rfl, sound first List.mem_cons_self _ head⟩ (ih tail ?_)
          intro entry member
          exact sound entry (List.mem_cons_of_mem first member)

theorem WalkedAs.moved {db changed : MetadataDB} {registered : RegisteredEntry}
    {walked : WalkedEntry} (behind : WalkedAs blake3 db run registered walked)
    (kept : CatalogMoved db changed) (recipes : CatalogRecipes db)
    (owns : RunOwns db run) (previous : next.previousSnapshotId = run.previousSnapshotId) :
    WalkedAs blake3 changed next registered walked :=
  ⟨behind.entry, behind.path, fun file => previous ▸ (behind.stat file).moved kept recipes owns⟩

/-- A step of a backup keeps the history, for a batch that was walked and data that were read. -/
theorem HistoryHolds.backup {walked batches : Dict Nat (List WalkedEntry)}
    (holds : HistoryHolds blake3 history)
    (found : history.node.runs.get? runId = some run) (reading : ReadsFile history run event)
    (transition : BackupTransition zstd blake3 history.node.host run event host next)
    (walkedKept : ∀ otherId entries, walked.get? otherId = some entries → entries = [] ∨
      history.walked.get? otherId = some entries ∧ (otherId = runId → event ≠ .resolvePrevious))
    (batchesKept : ∀ otherId, (otherId = runId → ∀ entries, event ≠ .addBatch entries) →
      batches.get? otherId = history.batches.get? otherId)
    (added : ∀ entries, event = .addBatch entries → run.phase = .walking →
      ∃ batch, batches.get? runId = some batch ∧
      batch.map (·.entry) = entries ∧ ∀ entry ∈ batch, namesFile entry.entry = true →
        WalkSound blake3 history.node.host.clock history.files history.node.host.db run entry) :
    HistoryHolds blake3 { history with
      node := { history.node with host, runs := history.node.runs.set runId next }
      walked
      batches
      origins := history.originsAfter host.db (.backup runId event) } := by
  have owns := holds.owned.runs runId run found
  have moved := catalogMoved_transition holds.owned.itemIds holds.owned.recipes owns transition
  have clock := transition.clock
  have step := ownedStep_transition holds.owned.itemIds owns transition
  refine ⟨nodeOwned_backup holds.owned found step, ?_, ?_, ?_, ?_, ?_, ?_, ?_, ?_⟩
  · exact clock.symm ▸ holds.files
  · intro itemId item stored file
    refine clock.symm ▸ holds.items_transition found ?_ transition stored file
    intro entries entry same walking member named
    obtain ⟨batch, -, rfl, sound⟩ := added entries same walking
    obtain ⟨walkedEntry, inside, rfl⟩ := List.mem_map.mp member
    exact (sound walkedEntry inside named).stamped
  · intro itemId read opened
    obtain ⟨held, item, stored, reads⟩ := holds.reads itemId read opened
    obtain ⟨later, present, same⟩ := moved.items itemId item stored
    exact ⟨clock.symm ▸ held, later, present, reads.moved moved same⟩
  · intro itemId read known
    exact clock.symm ▸ holds.origins_backup found known
  · intro itemId item recipeId stored recipe
    exact holds.recipes_transition found transition stored recipe
  · intro otherId other itemId task present located
    rw [Dict.get?_set] at present
    split at present
    · cases present
      exact holds.tasks_transition found reading transition located
    · exact holds.tasks otherId other itemId task present located
  · intro otherId other entries entry present phase located member named
    rcases walkedKept otherId entries located with rfl | ⟨older, notFirst⟩
    · cases member
    · rw [Dict.get?_set] at present
      split at present
      · rename_i same
        subst same
        cases present
        obtain ⟨root, ⟨first, -⟩ | ⟨previous, started⟩⟩ := transition.walk
        · exact absurd first (notFirst rfl)
        · have sound :=
            holds.walked otherId run entries entry found (started phase) older member named
          refine ⟨?_, ?_⟩
          · rw [root]
            exact clock.symm ▸ sound.stamped
          · rw [previous]
            exact sound.stat.moved moved holds.owned.recipes owns
      · have sound := holds.walked otherId other entries entry present phase older member named
        exact ⟨clock.symm ▸ sound.stamped,
          sound.stat.moved moved holds.owned.recipes (holds.owned.runs otherId other present)⟩
  · intro otherId other batch present phase
    rw [Dict.get?_set] at present
    split at present
    · rename_i same
      subst same
      cases present
      rcases transition.registered phase with ⟨before, notAdded⟩ |
        ⟨entries, itemIds, rfl, walking, stored, rfl⟩
      · obtain ⟨-, ⟨-, walking⟩ | ⟨previous, -⟩⟩ := transition.walk
        · rw [walking] at phase
          cases phase
        · obtain ⟨entries, located, aligned⟩ := holds.registered otherId run batch found before
          exact ⟨entries, (batchesKept otherId fun _ => notAdded).trans located,
            aligned.imp fun _ _ behind => behind.moved moved holds.owned.recipes owns previous⟩
      · obtain ⟨-, ⟨first, -⟩ | ⟨previous, -⟩⟩ := transition.walk
        · cases first
        · obtain ⟨entries, located, rfl, sound⟩ := added _ rfl walking
          have spec := MetadataDB.addItems_ok holds.owned.itemIds stored
          refine ⟨entries, located, walkedAs_registerEntries spec.aligned ?_⟩
          intro entry member itemId accepted file
          obtain ⟨path, bound, -⟩ := accepted
          have named : namesFile entry.entry = true := by
            simp [namesFile, file, bound, Except.toOption]
          rw [previous]
          exact (sound entry member named).stat.moved moved holds.owned.recipes owns
    · rename_i different
      obtain ⟨entries, located, aligned⟩ := holds.registered otherId other batch present phase
      exact ⟨entries, (batchesKept otherId fun same => absurd same different).trans located,
        aligned.imp fun _ _ behind => behind.moved moved holds.owned.recipes
          (holds.owned.runs otherId other present) rfl⟩

end Steps

section Runs

variable {zstd : Zstd} {blake3 : Blake3} {history after : History}

theorem HistoryHolds.start {request : BackupRequest} {db : MetadataDB} {run : BackupRun}
    (holds : HistoryHolds blake3 history)
    (started : startBackup blake3 history.node.host.db request = .ok (db, run)) :
    HistoryHolds blake3 { history with
      node := {
        host := { history.node.host with db }
        runs := history.node.runs.set (history.node.lastRunId + 1) run
        lastRunId := history.node.lastRunId + 1 } } := by
  have moved := catalogMoved_start holds.owned started
  have owned := nodeOwned_start holds.owned started
  have fresh : run.phase = .created ∧ run.tasks = .empty := by
    obtain ⟨policy, row, -, -, -, rfl, -⟩ := startBackup_ok started
    exact ⟨rfl, rfl⟩
  have items : ∀ itemId item, db.snapshotItems.get? itemId = some item →
      history.node.host.db.snapshotItems.get? itemId = some item := by
    obtain ⟨policy, row, -, -, -, -, rfl⟩ := startBackup_ok started
    exact fun _ _ stored => stored
  refine ⟨owned, holds.files, ?_, ?_, holds.origins, ?_, ?_, ?_, ?_⟩
  · intro itemId item stored file
    exact (holds.items itemId item (items itemId item stored) file).moved moved (sameItem_refl item)
  · intro itemId read opened
    obtain ⟨held, item, stored, reads⟩ := holds.reads itemId read opened
    obtain ⟨later, present, same⟩ := moved.items itemId item stored
    exact ⟨held, later, present, reads.moved moved same⟩
  · intro itemId item recipeId stored recipe
    have older := items itemId item stored
    obtain ⟨read, known, origin⟩ := holds.origin older recipe
    exact ⟨read, known, origin.moved moved (sameItem_refl item)
      (holds.owned.recipes.assigned itemId item recipeId older recipe)⟩
  · intro otherId other itemId task present located
    rw [Dict.get?_set] at present
    split at present
    · cases present
      rw [fresh.2] at located
      cases located
    · exact holds.tasks otherId other itemId task present located
  · intro otherId other entries entry present phase located member named
    rw [Dict.get?_set] at present
    split at present
    · cases present
      rw [fresh.1] at phase
      cases phase
    · have sound := holds.walked otherId other entries entry present phase located member named
      exact ⟨sound.stamped, sound.stat.moved moved holds.owned.recipes
        (holds.owned.runs otherId other present)⟩
  · intro otherId other batch present phase
    rw [Dict.get?_set] at present
    split at present
    · cases present
      rw [fresh.1] at phase
      cases phase
    · obtain ⟨entries, located, aligned⟩ := holds.registered otherId other batch present phase
      exact ⟨entries, located,
        aligned.imp fun _ _ behind => behind.moved moved holds.owned.recipes
          (holds.owned.runs otherId other present) rfl⟩

theorem HistoryHolds.kill (holds : HistoryHolds blake3 history) (runId : Nat) :
    HistoryHolds blake3
      { history with node := { history.node with runs := history.node.runs.erase runId } } := by
  have kept : ∀ otherId other, (history.node.runs.erase runId).get? otherId = some other →
      history.node.runs.get? otherId = some other :=
        fun _ _ located => Dict.get?_of_get?_erase located
  exact { holds with
    owned := nodeOwned_kill holds.owned runId
    tasks := fun otherId other itemId task found => holds.tasks otherId other itemId task
      (kept otherId other found)
    walked := fun otherId other entries entry found => holds.walked otherId other entries entry
      (kept otherId other found)
    registered := fun otherId other batch found => holds.registered otherId other batch
      (kept otherId other found) }

theorem walkedAfter_backup {runId otherId : Nat} {event : BackupEvent} {entries : List WalkedEntry}
    (located : (history.walkedAfter (.backup runId event)).get? otherId = some entries) :
    entries = [] ∨ history.walked.get? otherId = some entries ∧
      (otherId = runId → event ≠ .resolvePrevious) := by
  by_cases first : event = .resolvePrevious
  · subst first
    change (history.walked.set runId []).get? otherId = some entries at located
    rw [Dict.get?_set] at located
    split at located
    · cases located
      exact .inl rfl
    · rename_i different
      exact .inr ⟨located, fun same => absurd same different⟩
  · refine .inr ⟨?_, fun _ => first⟩
    cases event <;> first | exact located | exact absurd rfl first

/-- The steps of a node that no file takes part in. -/
theorem HistoryHolds.node {event : NodeEvent} {node : Node} (holds : HistoryHolds blake3 history)
    (aside : event.touchesFiles = false)
    (stepped : nodeStep zstd blake3 history.node event = some node) :
    HistoryHolds blake3 { history with
      node
      walked := history.walkedAfter event
      origins := history.originsAfter node.host.db event } := by
  rcases nodeStep_cases stepped with ⟨request, rfl, rfl⟩ | ⟨request, db, run, rfl, started, rfl⟩ |
    ⟨runId, run, backupEvent, host, next, rfl, found, transition, rfl⟩ | ⟨runId, rfl, rfl⟩ |
    ⟨now, rfl, later, rfl⟩
  · exact holds
  · exact holds.start started
  · refine holds.backup found ?_ transition ?_ (fun _ _ => rfl) ?_
    · intro itemId task current located working
      refine ⟨?_, ?_⟩
      · intro data same
        rw [same] at aside
        cases aside
      · intro same
        rw [same] at aside
        cases aside
    · intro otherId entries located
      exact walkedAfter_backup located
    · intro entries same
      rw [same] at aside
      cases aside
  · exact holds.kill runId
  · exact holds.filesKept ⟨later, fun path file found => ⟨file, found, rfl, .inl rfl⟩⟩

/-- The step of a worker on the file that it has open. -/
theorem HistoryHolds.work {runId itemId : Nat} {workerEvent : WorkerEvent}
    {reading : FileRead × Nat} {node : Node} (holds : HistoryHolds blake3 history)
    (running : history.runningRead runId itemId = some reading)
    (data : ∀ bytes, workerEvent = .nextChunk bytes → reading.1.yields reading.2 bytes = true)
    (ending : workerEvent = .endOfStream → reading.1.endsAt reading.2 = true)
    (stepped : nodeStep zstd blake3 history.node (.backup runId (.worker itemId workerEvent)) =
      some node) :
    HistoryHolds blake3 { history with node } := by
  obtain ⟨request, impossible, -⟩ | ⟨request, -, -, impossible, -⟩ |
    ⟨otherId, run, backupEvent, host, next, same, found, transition, rfl⟩ |
    ⟨otherId, impossible, -⟩ |
    ⟨now, impossible, -⟩ := nodeStep_cases stepped
  · cases impossible
  · cases impossible
  · cases same
    refine holds.backup found ?_ transition
      (fun _ entries located => .inr ⟨located, fun _ impossible => by cases impossible⟩)
      (fun _ _ => rfl) (fun _ impossible => by cases impossible)
    intro other task current located working
    have opened : itemId = other → history.reads.get? other = some reading.1 ∧
        current.fileSize = reading.2 := by
      intro same
      subst same
      simp only [History.runningRead, found, located, Option.bind_eq_bind, Option.bind_some,
        Option.bind_eq_some_iff, working] at running
      obtain ⟨read, known, same⟩ := running
      cases same
      exact ⟨known, rfl⟩
    refine ⟨?_, ?_⟩
    · intro bytes same
      cases same
      obtain ⟨known, size⟩ := opened rfl
      exact ⟨reading.1, known, size ▸ data bytes rfl⟩
    · intro same
      cases same
      obtain ⟨known, size⟩ := opened rfl
      exact ⟨reading.1, known, size ▸ ending rfl⟩
  · cases impossible
  · cases impossible

theorem HistoryHolds.register {runId : Nat} {batch : List WalkedEntry} {node : Node}
    (holds : HistoryHolds blake3 history) (located : history.walked.get? runId = some batch)
    (stepped : nodeStep zstd blake3 history.node (.backup runId (.addBatch (batch.map (·.entry)))) =
      some node) :
    HistoryHolds blake3 { history with
      node
      walked := history.walked.set runId []
      batches := history.batches.set runId batch } := by
  obtain ⟨request, impossible, -⟩ | ⟨request, -, -, impossible, -⟩ |
    ⟨otherId, run, backupEvent, host, next, same, found, transition, rfl⟩ |
    ⟨otherId, impossible, -⟩ |
    ⟨now, impossible, -⟩ := nodeStep_cases stepped
  · cases impossible
  · cases impossible
  · cases same
    refine holds.backup found (fun _ _ _ _ _ => ⟨fun _ impossible => (by cases impossible),
      fun impossible => (by cases impossible)⟩) transition ?_ ?_ ?_
    · intro otherId entries present
      rw [Dict.get?_set] at present
      split at present
      · cases present
        exact .inl rfl
      · exact .inr ⟨present, fun _ impossible => by cases impossible⟩
    · intro otherId notHere
      refine Dict.get?_set_of_ne _ _ ?_
      intro same
      exact notHere same _ rfl
    · intro entries same walking
      cases same
      refine ⟨batch, Dict.get?_set_self .., rfl, ?_⟩
      intro entry member named
      exact holds.walked runId run batch entry found (by rw [walking]; rfl) located member named
  · cases impossible
  · cases impossible

theorem historyHolds_step {event : HistoryEvent} (holds : HistoryHolds blake3 history)
    (stepped : historyStep zstd blake3 history event = some after) : HistoryHolds blake3 after := by
  cases event with
  | write path content attributes =>
      cases stepped
      exact holds.write rfl
  | setAttributes path attributes =>
      obtain ⟨file, found, stepped⟩ := Option.bind_eq_some_iff.mp stepped
      cases stepped
      refine holds.filesKept ⟨Int.le_refl _, ?_⟩
      intro other changed located
      rw [Dict.get?_set] at located
      split at located
      · rename_i same
        cases located
        exact ⟨file, same ▸ found, rfl, .inr rfl⟩
      · exact ⟨changed, located, rfl, .inl rfl⟩
  | remove path =>
      cases stepped
      refine holds.filesKept ⟨Int.le_refl _, ?_⟩
      intro other file located
      exact ⟨file, Dict.get?_of_get?_erase located, rfl, .inl rfl⟩
  | walkFile runId relPath =>
      obtain ⟨run, found, stepped⟩ := Option.bind_eq_some_iff.mp stepped
      obtain ⟨file, located, recorded⟩ := Option.bind_eq_some_iff.mp stepped
      refine holds.recordWalk found (fun _ => ⟨?_, holds.statSound found located⟩) recorded
      refine ⟨holds.files _ file located, ?_⟩
      intro other again
      rw [entryPath_toPyText, located, Option.some.injEq] at again
      exact Int.le_of_eq (again ▸ rfl)
  | walkOther runId entry =>
      obtain ⟨run, found, stepped⟩ := Option.bind_eq_some_iff.mp stepped
      split at stepped
      · cases stepped
      · rename_i unnamed
        exact holds.recordWalk found (fun named => absurd named unnamed) stepped
  | register runId =>
      obtain ⟨batch, located, stepped⟩ := Option.bind_eq_some_iff.mp stepped
      obtain ⟨node, moved, stepped⟩ := Option.bind_eq_some_iff.mp stepped
      cases stepped
      exact holds.register located moved
  | openFile runId itemId =>
      simp only [historyStep, Option.bind_eq_bind, Option.bind_eq_some_iff] at stepped
      obtain ⟨run, found, task, located, item, stored, stamp, recorded, file, present, stepped⟩ :=
        stepped
      split at stepped
      · rename_i unread
        cases stepped
        exact holds.openFile found located stored recorded present unread
      · cases stepped
  | readChunk runId itemId data =>
      obtain ⟨reading, running, stepped⟩ := Option.bind_eq_some_iff.mp stepped
      split at stepped
      · rename_i yielded
        obtain ⟨node, moved, stepped⟩ := Option.bind_eq_some_iff.mp stepped
        cases stepped
        exact holds.work running (fun _ same => by cases same; exact yielded)
          (fun impossible => by cases impossible) moved
      · cases stepped
  | endRead runId itemId =>
      obtain ⟨reading, running, stepped⟩ := Option.bind_eq_some_iff.mp stepped
      split at stepped
      · rename_i ended
        obtain ⟨node, moved, stepped⟩ := Option.bind_eq_some_iff.mp stepped
        cases stepped
        exact holds.work running (fun _ impossible => by cases impossible) (fun _ => ended) moved
      · cases stepped
  | node event =>
      simp only [historyStep] at stepped
      split at stepped
      · cases stepped
      · rename_i aside
        obtain ⟨node, moved, stepped⟩ := Option.bind_eq_some_iff.mp stepped
        cases stepped
        exact holds.node (by simpa using aside) moved

/-- Every recipe that a backup is about to reuse describes the content that its walk has seen. -/
def ReuseSound (blake3 : Blake3) (history : History) : Prop :=
  ∀ runId run batch entries registered walked recipeId, history.node.runs.get? runId = some run →
    run.phase = .registered batch → history.batches.get? runId = some entries →
    (registered, walked) ∈ batch.zip entries → registered.entry.itemType = .file →
    reusedRecipe (run.previousItems history.node.host.db batch) registered = some recipeId →
    Describes blake3 (history.node.host.db.recipeChunkEntries recipeId) walked.content

/-- In every history, a recipe that a backup reuses describes the content of the file at the stat
of its walk, if no write between the read behind the recipe and that stat has the change time that
the walk before that read had recorded. -/
theorem undisturbedReuse_describes {cas : CasFiles} {clock : Int} {events : List HistoryEvent}
    {runId recipeId : Nat} {run : BackupRun} {batch : List RegisteredEntry}
    {entries : List WalkedEntry} {registered : RegisteredEntry} {walked : WalkedEntry}
    (ran : runEvents (historyStep zstd blake3) (.fresh cas clock) events = some history)
    (found : history.node.runs.get? runId = some run) (phase : run.phase = .registered batch)
    (located : history.batches.get? runId = some entries)
    (paired : (registered, walked) ∈ batch.zip entries) (file : registered.entry.itemType = .file)
    (reused : reusedRecipe (run.previousItems history.node.host.db batch) registered =
      some recipeId) :
    ∃ previousId previous read,
      (run.previousItems history.node.host.db batch).get? registered.path = some previous ∧
      history.node.host.db.snapshotItems.get? previousId = some previous ∧
      walked.reads.get? previousId = some read ∧ (read.disturbed = false →
        Describes blake3 (history.node.host.db.recipeChunkEntries recipeId) walked.content) := by
  have holds : HistoryHolds blake3 history := runEvents_preserves (HistoryHolds blake3)
    (fun _ _ _ held stepped => historyHolds_step held stepped)
      (historyHolds_fresh blake3 cas clock) ran
  obtain ⟨known, same, aligned⟩ := holds.registered runId run batch found phase
  rw [located, Option.some.injEq] at same
  subst same
  have behind := (List.forall₂_iff_zip.mp aligned).2 paired
  obtain ⟨previous, recorded, unchanged, recipe⟩ := reusedRecipe_some reused
  obtain ⟨previousSnapshotId, previousId, before, -, stored, owner, -, path⟩ :=
    get?_previousItems recorded
  obtain ⟨read, known, describes⟩ :=
    behind.stat file previousId previous recipeId (before.trans (owner ▸ rfl)) stored
    (by rw [path, behind.path, behind.entry])
      (by rw [behind.entry]; exact isUnchangedFile_ctimeNs unchanged) recipe
  exact ⟨previousId, previous, read, recorded, stored, known, describes⟩

end Runs

namespace OneTick

def blake3 : Blake3 := .ofTable [
  (encodeUtf8 "abc".toList, 0x6437b3ac38465133ffb63b75273a8db548c558465d79db03fd359c6cd5bd9d85),
  (encodeUtf8 "xyz".toList, 0xf006b5ee4890b66656cf6c23998e25196a163644665dc9d4b47da1fca3037023),
  (recipeHashDomain
      ++ toBytesBig 4 0 ++
        toBytesBig 32 0x6437b3ac38465133ffb63b75273a8db548c558465d79db03fd359c6cd5bd9d85
      ++ toBytesBig 8 3,
    0xad6c7d8ee1b9630a1714d5bea401980e1919c21c5c361b7ac7e1c6d24c7dfb24)]

def attributes : FileAttributes where
  mode := 33188
  uid := 0
  gid := 0
  mtime := ⟨0⟩
  mtimeNs := 0

def write (path text : String) : HistoryEvent :=
  .write path.toList (encodeUtf8 text.toList) attributes

def step (inode : Nat) : HistoryEvent := .node (.backup 1 (.worker 1 (.advance .done inode)))

def firstBackup : List HistoryEvent :=
  let before : List HistoryEvent :=
    [.node (.start OneFileBackup.request), .node (.backup 1 .resolvePrevious),
      .walkFile 1 "f".toList, .register 1,
      .node (.backup 1 .reuseBatch), .node (.backup 1 .submit), .openFile 1 1,
      .readChunk 1 1 (encodeUtf8 "abc".toList)]
  let after : List HistoryEvent :=
    [.endRead 1 1, .node (.backup 1 .submit), .node (.backup 1 (.collect 1)),
      .node (.backup 1 .finish)]
  before ++ List.replicate 7 (step 7) ++ [step 8] ++ after

def secondBackup : List HistoryEvent :=
  [.node (.start { OneFileBackup.request with snapshotUuid := "u2".toList }),
    .node (.backup 2 .resolvePrevious), .walkFile 2 "f".toList, .register 2]

/-- Write `abc`, back it up, make the changes, walk the file again for a second backup, and go
on. -/
def events (changes later : List HistoryEvent) : List HistoryEvent :=
  write "/d/f" "abc" :: firstBackup ++ changes ++ secondBackup ++ later

structure Outcome where
  recipeId : Nat
  chunks : List RecipeChunk
  content : Bytes
  disturbed : Bool
  deriving DecidableEq

/-- What the second backup is about to do with the only entry of its batch. -/
def outcome (events : List HistoryEvent) : Option Outcome := do
  let history ← runEvents (historyStep .rawBlock blake3) (.fresh .empty 0) events
  let run ← history.node.runs.get? 2
  let entries ← history.batches.get? 2
  match run.phase with
  | .registered batch =>
      let pair ← (batch.zip entries).head?
      let recipeId ← reusedRecipe (run.previousItems history.node.host.db batch) pair.1
      if pair.1.entry.itemType = .file then
        some {
          recipeId
          chunks := history.node.host.db.recipeChunkEntries recipeId
          content := pair.2.content
          disturbed := pair.2.reads.values.any (·.disturbed) }
      else none
  | _ => none

theorem outcome_some {events : List HistoryEvent} {result : Outcome}
    (seen : outcome events = some result) :
    ∃ history run batch entries registered walked,
      runEvents (historyStep .rawBlock blake3) (.fresh .empty 0) events = some history ∧
      history.node.runs.get? 2 = some run ∧ run.phase = .registered batch ∧
      history.batches.get? 2 = some entries ∧
      (registered, walked) ∈ batch.zip entries ∧ registered.entry.itemType = .file ∧
      reusedRecipe (run.previousItems history.node.host.db batch) registered =
        some result.recipeId ∧
      history.node.host.db.recipeChunkEntries result.recipeId = result.chunks ∧
      walked.content = result.content ∧
      walked.reads.values.any (·.disturbed) = result.disturbed := by
  simp only [outcome, Option.bind_eq_bind, Option.bind_eq_some_iff] at seen
  obtain ⟨history, ran, run, found, entries, located, seen⟩ := seen
  split at seen
  · rename_i batch phase
    obtain ⟨pair, first, seen⟩ := Option.bind_eq_some_iff.mp seen
    obtain ⟨recipeId, reused, seen⟩ := Option.bind_eq_some_iff.mp seen
    split at seen
    · rename_i file
      cases seen
      exact ⟨history, run, batch, entries, pair.1, pair.2, ran, found, phase, located,
        List.mem_of_mem_head? first, file, reused, rfl, rfl, rfl⟩
    · cases seen
  · cases seen

def chunks : List RecipeChunk :=
  [{ order := 0,
     chunkHash := "6437b3ac38465133ffb63b75273a8db548c558465d79db03fd359c6cd5bd9d85".toList,
       chunkSize := 3 }]

/-- Another file comes and goes between the walks of the file. -/
def otherFile : List HistoryEvent :=
  [.node (.tick 5), write "/d/g" "xyz",
    .setAttributes "/d/g".toList { attributes with mode := 33152 },
    .node (.tick 8), .remove "/d/g".toList]

/-- The file itself is overwritten once the second backup has walked it. -/
def lateWrite : List HistoryEvent := [.node (.tick 9), write "/d/f" "xyz"]

end OneTick

/-- The file changes from `abc` to `xyz` within the tick of its first backup: the second backup
reuses the recipe of `abc`. -/
theorem sameTickWrite_not_described :
    ¬ ∀ zstd blake3 cas clock events history,
      runEvents (historyStep zstd blake3) (.fresh cas clock) events = some history →
        ReuseSound blake3 history := by
  intro sound
  have seen : OneTick.outcome (OneTick.events [OneTick.write "/d/f" "xyz"] []) = some {
      recipeId := 1
      chunks := OneTick.chunks
      content := encodeUtf8 "xyz".toList
      disturbed := true } := by decide +kernel
  obtain ⟨history, run, batch, entries, registered, walked, ran, found, phase, located, paired,
    file, reused, chunks, content, -⟩ := OneTick.outcome_some seen
  obtain ⟨parts, whole, described⟩ :=
    sound _ _ _ _ _ history ran 2 run batch entries registered walked 1 found phase
    located paired file reused
  rw [chunks] at described
  rw [content] at whole
  have single : parts.length = 1 := by
    have lengths := congrArg List.length described
    simpa [OneTick.chunks] using lengths.symm
  obtain ⟨part, rfl⟩ := List.length_eq_one_iff.mp single
  rw [List.flatten_cons, List.flatten_nil, List.append_nil] at whole
  subst whole
  have digests : OneTick.chunks.map (fun chunk => (chunk.chunkHash, chunk.chunkSize)) ≠
      [encodeUtf8 "xyz".toList].map
        fun part => (blake3HexDigest OneTick.blake3 part, part.length) := by
    decide +kernel
  exact digests described

/-- What is written after the walk is not what the reused recipe describes. -/
theorem lateWrite_described :
    ∃ history run batch entries registered walked recipeId,
      runEvents (historyStep .rawBlock OneTick.blake3) (.fresh .empty 0)
        (OneTick.events OneTick.otherFile OneTick.lateWrite) = some history ∧
      history.node.runs.get? 2 = some run ∧ run.phase = .registered batch ∧
      history.batches.get? 2 = some entries ∧ (registered, walked) ∈ batch.zip entries ∧
      reusedRecipe (run.previousItems history.node.host.db batch) registered = some recipeId ∧
      walked.content = encodeUtf8 "abc".toList ∧
      Describes OneTick.blake3
        (history.node.host.db.recipeChunkEntries recipeId) walked.content := by
  have seen : OneTick.outcome (OneTick.events OneTick.otherFile OneTick.lateWrite) = some {
      recipeId := 1
      chunks := OneTick.chunks
      content := encodeUtf8 "abc".toList
      disturbed := false } := by decide +kernel
  obtain ⟨history, run, batch, entries, registered, walked, ran, found, phase, located, paired,
    file, reused, -, content, undisturbed⟩ := OneTick.outcome_some seen
  obtain ⟨previousId, previous, read, -, -, known, describes⟩ :=
    undisturbedReuse_describes ran found phase located paired file reused
  refine ⟨history, run, batch, entries, registered, walked, 1, ran, found, phase, located,
    paired, reused, content, describes ?_⟩
  have listed : read ∈ walked.reads.values := List.mem_map_of_mem (Dict.get?_eq_some_iff.mp known)
  simpa using List.any_eq_false.mp undisturbed read listed

end Stopan.Backup
