import Stopan.Backup.Ownership

/-!
Backups of files that change. A history interleaves the changes that programs make to the files
with the steps of the backups that walk and read them. Every change stamps the clock of the
filesystem, which may stand still between two of them.
-/

namespace Stopan.Backup

open Stopan.Lib Stopan.Common Stopan.Cas Stopan.Chunking Stopan.Metadata

/-- The attributes of a file that its owner can choose. -/
structure FileAttributes where
  mode : Nat
  uid : Nat
  gid : Nat
  mtime : PyFloat
  mtimeNs : Int
  deriving DecidableEq, Repr

structure FileState where
  content : Bytes
  attributes : FileAttributes
  ctimeNs : Int
  deriving DecidableEq, Repr

def FileState.stat (file : FileState) : StatInfo where
  size := file.content.length
  mode := file.attributes.mode
  mtime := file.attributes.mtime
  mtimeNs := file.attributes.mtimeNs
  ctimeNs := file.ctimeNs
  uid := file.attributes.uid
  gid := file.attributes.gid

/-- The path of an entry below the root of its walk. -/
def fullPath (rootPath relPath : Text) : Text :=
  if rootPath = ['/'] then '/' :: relPath else rootPath ++ '/' :: relPath

/-- The read of a file by a worker: the change time that the walk recorded for the file, the
content when the worker opened it, and the stamps of the writes since then. -/
structure FileRead where
  path : Text
  stamp : Int
  content : Bytes
  writes : List Int
  deriving DecidableEq, Repr

/-- Some write since the worker opened the file has the stamp that the walk recorded. -/
def FileRead.disturbed (read : FileRead) : Bool := read.writes.contains read.stamp

def FileRead.mark (path : Text) (now : Int) (read : FileRead) : FileRead :=
  if read.path = path then { read with writes := read.writes ++ [now] } else read

/-- An emission of the walk with what its stat saw: the content of the file, and how the reads
behind the recipes of the catalog stood at that moment. -/
structure WalkedEntry where
  entry : WalkEntry
  content : Bytes
  reads : Dict Nat FileRead
  deriving DecidableEq

/-- The node and the files, with the record of what was walked and read. `walked` has the entries
of a run that are not registered yet, `batches` those of its last batch, `reads` the files that
workers have opened and `origins` the read behind the recipe of an item. -/
structure History where
  node : Node
  files : Dict Text FileState
  walked : Dict Nat (List WalkedEntry)
  batches : Dict Nat (List WalkedEntry)
  reads : Dict Nat FileRead
  origins : Dict Nat FileRead

def History.fresh (cas : CasFiles) (clock : Int) : History where
  node := .fresh cas clock
  files := .empty
  walked := .empty
  batches := .empty
  reads := .empty
  origins := .empty

inductive HistoryEvent where
  | write (path : Text) (content : Bytes) (attributes : FileAttributes)
  | setAttributes (path : Text) (attributes : FileAttributes)
  | remove (path : Text)
  | walkFile (runId : Nat) (relPath : Text)
  | walkOther (runId : Nat) (entry : WalkEntry)
  | register (runId : Nat)
  | openFile (runId itemId : Nat)
  | readChunk (runId itemId : Nat) (data : Bytes)
  | endRead (runId itemId : Nat)
  | node (event : NodeEvent)

/-- The steps of the node that depend on the files. They have events of their own. -/
def NodeEvent.touchesFiles : NodeEvent → Bool
  | .backup _ (.addBatch _) | .backup _ (.worker _ (.nextChunk _))
  | .backup _ (.worker _ .endOfStream) => true
  | _ => false

/-- A file whose name the catalog accepts. -/
def namesFile (entry : WalkEntry) : Bool :=
  entry.itemType == .file && (bindText entry.relPath).toOption.isSome

def History.recordWalk (history : History) (runId : Nat) (run : BackupRun) (walked : WalkedEntry) :
    Option History :=
  if run.phase = .walking then
    some { history with walked := history.walked.modify runId [] (· ++ [walked]) }
  else none

def itemRecipe (db : MetadataDB) (itemId : Nat) : Option Nat :=
  (db.snapshotItems.get? itemId).bind (·.recipeId)

/-- The read behind the recipe of a row of the catalog. -/
def readOfRow (db : MetadataDB) (origins : Dict Nat FileRead) (row : SnapshotItemRow) :
    Option FileRead :=
  (db.snapshotItems.entries.find? fun entry => entry.2 == row).bind
    fun entry => origins.get? entry.1

def reusedOrigin (db after : MetadataDB) (origins : Dict Nat FileRead)
    (previousItems : Dict Text SnapshotItemRow)
    (registered : RegisteredEntry) : Option (Nat × FileRead) := do
  let previous ← previousItems.get? registered.path
  let recipeId ← reusedRecipe previousItems registered
  let read ← readOfRow db origins previous
  if itemRecipe after registered.itemId = some recipeId then
    some (registered.itemId, read) else none

/-- The reads that the items of a batch inherit with the recipes they reuse. -/
def inheritedReads (db after : MetadataDB) (origins : Dict Nat FileRead) (run : BackupRun) :
    List (Nat × FileRead) :=
  (run.phase.batch.filter isFileEntry).filterMap
    (reusedOrigin db after origins (run.previousItems db run.phase.batch))

/-- A consolidated recipe comes from the read of its worker, a reused one from the read behind the
recipe of the previous item. -/
def History.originsAfter (history : History) (after : MetadataDB) : NodeEvent → Dict Nat FileRead
  | .backup _ (.collect itemId) =>
      match history.reads.get? itemId with
      | none => history.origins
      | some read =>
          if itemRecipe history.node.host.db itemId = itemRecipe after itemId then history.origins
          else history.origins.set itemId read
  | .backup runId .reuseBatch =>
      match history.node.runs.get? runId with
      | none => history.origins
      | some run =>
          history.origins.update (inheritedReads history.node.host.db after history.origins run)
  | _ => history.origins

/-- The walk of a run begins when its previous snapshot is known. -/
def History.walkedAfter (history : History) : NodeEvent → Dict Nat (List WalkedEntry)
  | .backup runId .resolvePrevious => history.walked.set runId []
  | _ => history.walked

/-- What a read can yield after `offset` bytes. A file that was written since it was opened may
yield anything. -/
def FileRead.yields (read : FileRead) (offset : Nat) (data : Bytes) : Bool :=
  !data.isEmpty && (!read.writes.isEmpty || data.isPrefixOf (read.content.drop offset))

def FileRead.endsAt (read : FileRead) (offset : Nat) : Bool :=
  !read.writes.isEmpty || offset == read.content.length

/-- The read of a task that is still running, with the bytes that the worker has behind it. -/
def History.runningRead (history : History) (runId itemId : Nat) : Option (FileRead × Nat) := do
  let run ← history.node.runs.get? runId
  let task ← run.tasks.get? itemId
  let read ← history.reads.get? itemId
  match task.worker with
  | .running worker => some (read, worker.fileSize)
  | .returned _ | .failed _ => none

/-- One step of a history; `none` when the event cannot happen in the state. -/
def historyStep (zstd : Zstd) (blake3 : Blake3) (history : History) : HistoryEvent → Option History
  | .write path content attributes =>
      let now := history.node.host.clock
      some { history with
        files := history.files.set path { content, attributes := { attributes with mtimeNs := now },
                                          ctimeNs := now }
        reads := history.reads.mapValues fun _ => FileRead.mark path now
        origins := history.origins.mapValues fun _ => FileRead.mark path now }
  | .setAttributes path attributes => do
      let file ← history.files.get? path
      some { history with
        files :=
          history.files.set path { file with attributes, ctimeNs := history.node.host.clock } }
  | .remove path => some { history with files := history.files.erase path }
  | .walkFile runId relPath => do
      let run ← history.node.runs.get? runId
      let file ← history.files.get? (fullPath run.rootPath relPath)
      history.recordWalk runId run {
        entry := { relPath := toPyText relPath, stat := file.stat, itemType := .file }
        content := file.content
        reads := history.origins }
  | .walkOther runId entry => do
      let run ← history.node.runs.get? runId
      if namesFile entry then none
      else history.recordWalk runId run { entry, content := [], reads := history.origins }
  | .register runId => do
      let batch ← history.walked.get? runId
      let node ← nodeStep zstd blake3 history.node (.backup runId (.addBatch (batch.map (·.entry))))
      some { history with
        node
        walked := history.walked.set runId []
        batches := history.batches.set runId batch }
  | .openFile runId itemId => do
      let run ← history.node.runs.get? runId
      let task ← run.tasks.get? itemId
      let item ← history.node.host.db.snapshotItems.get? itemId
      let stamp ← item.ctimeNs
      let file ← history.files.get? (fullPath run.rootPath task.path)
      if task.worker = .running .start then
        some { history with
          reads := history.reads.set itemId {
            path := fullPath run.rootPath task.path
            stamp
            content := file.content
            writes := [] } }
      else none
  | .readChunk runId itemId data => do
      let reading ← history.runningRead runId itemId
      if reading.1.yields reading.2 data then
        let node ← nodeStep zstd blake3 history.node
          (.backup runId (.worker itemId (.nextChunk data)))
        some { history with node }
      else none
  | .endRead runId itemId => do
      let reading ← history.runningRead runId itemId
      if reading.1.endsAt reading.2 then
        let node ← nodeStep zstd blake3 history.node (.backup runId (.worker itemId .endOfStream))
        some { history with node }
      else none
  | .node event =>
      if event.touchesFiles then none
      else do
        let node ← nodeStep zstd blake3 history.node event
        some { history with
          node
          walked := history.walkedAfter event
          origins := history.originsAfter node.host.db event }

end Stopan.Backup
