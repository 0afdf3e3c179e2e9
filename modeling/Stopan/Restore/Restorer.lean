import Stopan.Lib.Crash
import Stopan.Lib.FileTree
import Stopan.Metadata.Scope
import Stopan.Restore.Checks
import Stopan.Restore.Paths
import Stopan.Restore.Prefetcher

/-!
The restore of a snapshot into a directory (`stopan/restore/restorer.py`): a working tree beside the
final one, a partial file for each item that can be resumed, and the renaming that publishes the
result.
-/

namespace Stopan.Restore

open Stopan.Lib Stopan.Lib.PosixPath Stopan.Common Stopan.Metadata

structure RegularFile where
  data : Bytes
  mode : Nat
  links : Nat
  deriving DecidableEq, Repr

inductive Leaf where
  | file (file : RegularFile)
  | link (toDirectory : Bool)
  | special
  deriving DecidableEq, Repr

/-- The filesystem, with the modes of its directories. -/
abbrev Files := FileTree Component Nat Leaf

inductive Raised where
  | osError (message : String)
  | fileNotFound (message : String)
  | fileExists (message : String)
  | restorePath (message : String)
  | error (reason : StopanError)
  deriving DecidableEq, Repr

namespace Raised

def message : Raised → String
  | .osError text | .fileNotFound text | .fileExists text | .restorePath text => text
  | .error reason => reason.message

def isOSError : Raised → Bool
  | .osError _ | .fileNotFound _ | .fileExists _ => true
  | .restorePath _ | .error _ => false

/-- `except Exception` leaves an interruption through. -/
def isException (raised : Raised) : Bool := decide (raised ≠ .error .keyboardInterrupt)

def ofPathFailure : PathFailure → Raised
  | .restorePath message => .restorePath message
  | .osError => .osError "lstat"
  | .valueError => .error (.value "embedded null byte")

end Raised

/-- Where the restore runs: what the call of a number raises instead of doing its work, and the real
path of what no link leads to. -/
structure RestoreHost where
  cwd : Text
  umask : Nat
  raises : Nat → Option Raised
  realpath : Files → Text → Except PathFailure Text
  cwdAbsolute : isAbs cwd = true

def lstatOf (files : Files) (names : List Component) : Lstat :=
  match files.get? names with
  | some (.directory _) => .found .directory
  | some (.leaf (.link _)) => .found .symlink
  | some (.leaf _) => .found .other
  | none => if names.inits.any fun above => (files.get?
    above).any fun entry => !entry.isDirectory then .osError else .missing

theorem lstatOf_found {files : Files} {names : List Component} {kind : FileKind}
    (found : lstatOf files names = .found kind) :
    ∃ entry, files.get? names = some entry := by
  unfold lstatOf at found
  split at found
  · exact ⟨_, ‹_›⟩
  · exact ⟨_, ‹_›⟩
  · exact ⟨_, ‹_›⟩
  · split at found <;> cases found

theorem lstatOf_below {files : Files} {names : List Component} (name : Component)
    (absent : ∀ kind, lstatOf files names ≠ .found kind) (kind : FileKind) :
    lstatOf files (names ++ [name]) ≠ .found kind := by
  intro found
  obtain ⟨entry, there⟩ := lstatOf_found found
  obtain ⟨info, directory⟩ := files.inDirectories _ _ _ there
  apply absent .directory
  have same : files.get? names = some (.directory info) := directory
  rw [lstatOf, same]

/-- The filesystem as the check of a path sees it. -/
def RestoreHost.fileSystem (host : RestoreHost) (files : Files) : FileSystem where
  cwd := host.cwd
  lstat path := lstatOf files (resolve host.cwd path)
  realpath := host.realpath files
  cwdAbsolute := host.cwdAbsolute
  nothingBelow path component _ name absent kind := by
    rw [resolve_join host.cwdAbsolute path name]
    exact lstatOf_below component absent kind

structure RestoreCounters where
  processedItems : Nat
  successfulItems : Nat
  directoriesCreated : Nat
  filesRestored : Nat
  filesFailed : Nat
  filesReused : Nat
  filesResumed : Nat
  chunksReused : Nat
  bytesReused : Nat
  bytesWritten : Nat
  deriving DecidableEq, Repr

def RestoreCounters.start : RestoreCounters := ⟨0, 0, 0, 0, 0, 0, 0, 0, 0, 0⟩

/-- The files, what the restore counts, the service that fetches chunks, whether the name of the
open partial is known to be durable, and the number of calls that were made. -/
structure RestoreState (σ : Type) where
  files : Files
  stats : RestoreCounters
  service : σ
  resumeNameSynced : Bool
  calls : Nat

abbrev RestoreTask (σ : Type) := Task (RestoreState σ) Raised

structure RestoreResult where
  snapshotId : Nat
  completed : Bool
  interrupted : Bool
  processedItems : Nat
  successfulItems : Nat
  finalDir : Option Text
  workDir : Option Text
  error : Option String
  deriving DecidableEq, Repr

structure RestorePaths where
  finalDir : Text
  incompleteDir : Text
  resumeDir : Text

def RestorePaths.forSnapshot (baseOutputDir snapshotUuid : Text) : RestorePaths :=
  let finalDir := join baseOutputDir ("snapshot_".toList ++ snapshotUuid)
  { finalDir, incompleteDir := finalDir ++ ".incomplete".toList,
    resumeDir := finalDir ++ ".incomplete".toList ++ ".resume".toList }

def RestorePaths.resumeFile (paths : RestorePaths) (blake3 : Blake3) (relPath : Text) : Text :=
  join paths.resumeDir (blake3HexDigest blake3 (encodeUtf8 relPath) ++ ".part".toList)

section Calls

variable {σ α : Type} (host : RestoreHost)

def counting (change : RestoreCounters → RestoreCounters) : RestoreTask σ Unit :=
  Task.operate fun state => { state with stats := change state.stats }

def lifted (outcome : Except StopanError α) : RestoreTask σ α :=
  Task.inspect fun _ => outcome.mapError .error

/-- One call of the operating system. -/
def call (act : Files → Except Raised (Files × α)) : RestoreTask σ α := do
  let number ← Task.inspect fun state => .ok state.calls
  Task.operate fun state => { state with calls := state.calls + 1 }
  match host.raises number with
  | some reason => Task.raise reason
  | none => do
      let (files, value) ← Task.inspect fun state => act state.files
      Task.operate fun state => { state with files }
      return value

/-- A call that only reads. -/
def look (read : Files → Except Raised α) : RestoreTask σ α :=
  call host fun files => (read files).map fun value => (files, value)

def changed (reason : Raised) : Option Files → Except Raised (Files × Unit)
  | some after => .ok (after, ())
  | none => .error reason

def makeDir (names : List Component) (mode : Nat) (files : Files) : Except Raised (Files × Unit) :=
  match files.get? names with
  | some _ => .error (.fileExists "File exists")
  | none => changed (.osError "No such file or directory") (files.put names (.directory mode))

/-- Whether `os.path.isdir` holds. -/
def isDir (files : Files) (names : List Component) : Bool :=
  match files.get? names with
  | some (.directory _) => true
  | some (.leaf (.link toDirectory)) => toDirectory
  | _ => false

def ensureDirectory (names : List Component) (mode : Nat) : RestoreTask σ Unit := do
  let present ← Task.inspect fun state => .ok (isDir state.files names)
  if present then return ()
  call host (makeDir names (mode - (mode &&& host.umask)))

/-- `os.makedirs(path, mode, exist_ok=True)`; the mode is that of the last directory. -/
def makedirs (path : Text) (mode : Nat) : RestoreTask σ Unit := do
  let names := resolve host.cwd path
  let _ ← Task.forEach (fun above => ensureDirectory host above 0o777) names.inits.dropLast
  ensureDirectory host names mode

def chmodNames (names : List Component) (mode : Nat) (files : Files) :
    Except Raised (Files × Unit) :=
  match files.get? names with
  | some (.directory _) =>
      changed (.osError "chmod") (files.put names (.directory (mode &&& 0o7777)))
  | some (.leaf (.file file)) =>
      changed (.osError "chmod")
        (files.put names (.leaf (.file { file with mode := mode &&& 0o7777 })))
  | some (.leaf _) => .ok (files, ())
  | none => .error (.fileNotFound "No such file or directory")

def chmod (path : Text) (mode : Nat) : RestoreTask σ Unit :=
  call host (chmodNames (resolve host.cwd path) mode)

/-- The mode that `os.stat` without following links finds. -/
def statMode (names : List Component) (files : Files) : Except Raised Nat :=
  match files.get? names with
  | some (.directory mode) => .ok mode
  | some (.leaf (.file file)) => .ok file.mode
  | some (.leaf _) => .ok 0o777
  | none => .error (.fileNotFound "No such file or directory")

/-- `_ensure_work_directory_permissions`. -/
def ensureWorkDirectoryPermissions (path : Text) : RestoreTask σ Unit := do
  let currentMode ← look host (statMode (resolve host.cwd path))
  let workMode := currentMode ||| 0o700
  if workMode ≠ currentMode then chmod host path workMode

/-- `os.path.lexists`, which takes an error for an absence. -/
def lexists (path : Text) : RestoreTask σ Bool := do
  match ← Task.attempt (look host fun files => .ok (files.get? (resolve host.cwd path)).isSome) with
  | .ok present => return present
  | .error reason => if reason.isOSError then return false else Task.raise reason

def checkRoot (path : Text) : RestoreTask σ Unit :=
  look host fun files =>
    ((validateRestoreRoot (host.fileSystem files) path).mapError .ofPathFailure).map fun _ => ()

def safePath (baseDir relPath : Text) : RestoreTask σ Text :=
  look host fun files =>
    (safeRestorePath (host.fileSystem files) baseDir relPath).mapError .ofPathFailure

def unlinkNames (names : List Component) (files : Files) : Except Raised (Files × Unit) :=
  match files.get? names with
  | some (.leaf _) => changed (.osError "unlink") (files.remove names)
  | some (.directory _) => .error (.osError "Is a directory")
  | none => .error (.fileNotFound "No such file or directory")

/-- `os.rmdir`. -/
def rmdirNames (names : List Component) (files : Files) : Except Raised (Files × Unit) :=
  match files.get? names with
  | some (.directory _) => changed (.osError "Directory not empty") (files.remove names)
  | some (.leaf _) => .error (.osError "Not a directory")
  | none => .error (.fileNotFound "No such file or directory")

/-- `os.replace` of what is no directory. -/
def replaceNames (source target : List Component) (files : Files) : Except Raised (Files × Unit) :=
  match files.get? source, files.get? target with
  | none, _ => .error (.fileNotFound "No such file or directory")
  | some (.directory _), _ => .error (.osError "Not a directory")
  | some (.leaf _), some (.directory _) => .error (.osError "Is a directory")
  | some (.leaf content), _ => changed (.osError "No such file or directory")
      ((files.remove source).bind fun middle => middle.put target (.leaf content))

/-- `atomic_rename_noreplace` of a directory. -/
def renameNames (source target : List Component) (files : Files) : Except Raised (Files × Unit) :=
  match files.get? source, files.get? target with
  | _, some _ => .error (.fileExists "File exists")
  | some (.directory _), none => changed (.osError "rename") (files.rename source target)
  | _, none => .error (.osError "rename")

/-- `apply_item_metadata`; the time of the item is set but not kept here. -/
def applyItemMetadata (path : Text) (item : SnapshotItemRow) : RestoreTask σ Unit := do
  match ← Task.attempt (do chmod host path item.mode; look host fun _ => .ok ()) with
  | .ok () => return ()
  | .error reason => if reason.isOSError then return () else Task.raise reason

end Calls

section Checking

variable (blake3 : Blake3) (recipeId expectedChunkCount expectedSize : Nat) (data : Bytes)

def notContiguous (expected found : Nat) : StopanError :=
  .restoreData s!"Receta no contigua: recipe_id={recipeId} esperado={expected} obtenido={found}"

/-- What `_read_exact` reads at a position. -/
def readExact (position size : Nat) : Bytes := (data.drop position).take size

/-- The loop of `_validate_completed_file`: the chunks and bytes verified, or nothing once a chunk
differs. -/
def completedChunks : Nat → Nat → List RecipeChunk → Except StopanError (Option (Nat × Nat))
  | verifiedChunks, verifiedBytes, [] => .ok (some (verifiedChunks, verifiedBytes))
  | verifiedChunks, verifiedBytes, row :: rest =>
      if row.order ≠ verifiedChunks then .error (notContiguous recipeId verifiedChunks row.order)
      else if (readExact data verifiedBytes row.chunkSize).length ≠ row.chunkSize then .ok none
      else if blake3HexDigest blake3 (readExact data verifiedBytes row.chunkSize) ≠
        row.chunkHash then .ok none
      else completedChunks (verifiedChunks + 1) (verifiedBytes + row.chunkSize) rest

/-- `_validate_completed_file` once the file is open. -/
def completedContent (rows : Generated RecipeChunk) : Except StopanError Bool := do
  match ← completedChunks blake3 recipeId data 0 0 rows.yielded with
  | none => return false
  | some (verifiedChunks, verifiedBytes) =>
      match rows.failure with
      | some reason => .error reason
      | none => do
          let _ ← ensure (verifiedChunks == expectedChunkCount)
            (.restoreData (s!"Número de chunks inconsistente en "
            ++ s!"recipe_id={recipeId}: esperado={expectedChunkCount} obtenido={verifiedChunks}"))
          let _ ← ensure (verifiedBytes == expectedSize)
            (.restoreData (s!"Tamaño de receta inconsistente en "
            ++ s!"recipe_id={recipeId}: esperado={expectedSize} obtenido={verifiedBytes}"))
          return (data.drop verifiedBytes).isEmpty

/-- The loop of `_verify_resume_prefix`, and whether it went through all rows. -/
def verifiedRows : Nat → Nat → List RecipeChunk → Except StopanError (Nat × Nat × Bool)
  | verifiedChunks, verifiedBytes, [] => .ok (verifiedChunks, verifiedBytes, true)
  | verifiedChunks, verifiedBytes, row :: rest =>
      if row.order ≠ verifiedChunks then .error (notContiguous recipeId verifiedChunks row.order)
      else if data.length < verifiedBytes + row.chunkSize then
        .ok (verifiedChunks, verifiedBytes, false)
      else if (readExact data verifiedBytes row.chunkSize).length ≠ row.chunkSize then
        .ok (verifiedChunks, verifiedBytes, false)
      else if blake3HexDigest blake3 (readExact data verifiedBytes row.chunkSize) ≠
        row.chunkHash then
        .ok (verifiedChunks, verifiedBytes, false)
      else if verifiedChunks + 1 = expectedChunkCount then
        .ok (verifiedChunks + 1, verifiedBytes + row.chunkSize, false)
      else verifiedRows (verifiedChunks + 1) (verifiedBytes + row.chunkSize) rest

/-- `_verify_resume_prefix` before it truncates the file. -/
def verifiedPrefix (rows : Generated RecipeChunk) : Except StopanError (Nat × Nat) := do
  let (chunks, bytes, exhausted) ← verifiedRows blake3 recipeId expectedChunkCount
    data 0 0 rows.yielded
  match exhausted, rows.failure with
  | true, some reason => .error reason
  | _, _ => do
      let _ ← ensure (decide (chunks ≤ expectedChunkCount) && decide (bytes ≤ expectedSize))
        (.restoreData
        (s!"Prefijo fuera de la receta: recipe_id={recipeId} chunks={chunks}/{expectedChunkCount} " ++
          s!"bytes={bytes}/{expectedSize}"))
      return (chunks, bytes)

/-- `os.lstat`. -/
def entryAt (names : List Component) (files : Files) : Except Raised (TreeEntry Nat Leaf) :=
  match files.get? names with
  | some entry => .ok entry
  | none => .error (.fileNotFound "No such file or directory")

/-- What `_open_regular_file` finds of a file that is there. -/
def openedFile (writable : Bool) : TreeEntry Nat Leaf → Except Raised RegularFile
  | .leaf (.file file) =>
      if file.links ≠ 1 then
        .error (.restorePath "El estado de restore tiene enlaces adicionales y no es reutilizable")
      else .ok file
  | .leaf (.link _) => .error (.osError "Too many levels of symbolic links")
  | .leaf .special => .error (.restorePath "El estado de restore no es un archivo regular")
  | .directory _ =>
      if writable then .error (.osError "Is a directory")
      else .error (.restorePath "El estado de restore no es un archivo regular")

end Checking

def restoreResumeSyncBytes : Nat := 64 * 1024 * 1024

structure SnapshotRestorer (σ : Type) where
  db : MetadataDB
  blake3 : Blake3
  host : RestoreHost
  baseOutputDir : Text
  prefetcher : OrderedBatchChunkPrefetcher σ

namespace SnapshotRestorer

variable {σ : Type} (restorer : SnapshotRestorer σ)

def names (path : Text) : List Component := resolve restorer.host.cwd path

/-- `_validate_completed_file`. -/
def validateCompletedFile (path : Text) (recipeId expectedChunkCount expectedSize : Nat) :
    RestoreTask σ Bool := do
  match ← Task.attempt (look restorer.host (entryAt (restorer.names path))) with
  | .error reason => if reason.isOSError then return false else Task.raise reason
  | .ok (.directory _) => return false
  | .ok (.leaf (.link _)) => return false
  | .ok (.leaf .special) => return false
  | .ok (.leaf (.file file)) =>
      if file.links ≠ 1 ∨ file.data.length ≠ expectedSize then return false
      -- an earlier attempt may have given the file a mode under which it cannot be read
      let readable ← Task.attempt (if file.mode &&& 0o400 = 0 then chmod restorer.host path
        (file.mode ||| 0o400) else return ())
      match readable with
      | .error reason => if reason.isOSError then return false else Task.raise reason
      | .ok () =>
          match ← Task.attempt (look restorer.host fun files => do
              let opened ← entryAt (restorer.names path) files >>= openedFile false
              (completedContent restorer.blake3 recipeId expectedChunkCount expectedSize opened.data
                (iterRecipeChunkEntries restorer.db recipeId 0)).mapError .error) with
          | .ok same => return same
          | .error (.restorePath _) => return false
          | .error reason => if reason.isOSError then return false else Task.raise reason

/-- `_open_resume_file`: the partial is created when it is not there. -/
def openResumeFile (path : Text) : RestoreTask σ Unit :=
  call restorer.host fun files =>
    match files.get? (restorer.names path) with
    | none => changed (.fileNotFound "No such file or directory")
        (files.put (restorer.names path) (.leaf (.file { data := [], mode := 0o600, links := 1 })))
    | some entry => do
        let file ← openedFile true entry
        changed (.osError "fchmod")
          (files.put (restorer.names path) (.leaf (.file { file with mode := 0o600 })))

/-- What the open partial holds. -/
def partialData (files : Files) (path : Text) : Bytes :=
  match files.get? (restorer.names path) with
  | some (.leaf (.file file)) => file.data
  | _ => []

/-- Change what the open partial holds. -/
def rewritePartial (path : Text) (change : Bytes → Bytes) : RestoreTask σ Unit :=
  call restorer.host fun files =>
    match files.get? (restorer.names path) with
    | some (.leaf (.file file)) =>
        changed (.osError "write")
          (files.put (restorer.names path) (.leaf (.file { file with data := change file.data })))
    | _ => .error (.osError "write")

/-- `_verify_resume_prefix`: what cannot be verified is cut off. -/
def verifyResumePrefix (path : Text) (recipeId expectedChunkCount expectedSize : Nat) :
    RestoreTask σ (Nat × Nat) := do
  let verified ← look restorer.host fun files =>
    (verifiedPrefix restorer.blake3 recipeId expectedChunkCount expectedSize
      (restorer.partialData files path)
      (iterRecipeChunkEntries restorer.db recipeId 0)).mapError .error
  rewritePartial restorer path (·.take verified.2)
  return verified

/-- `_sync_resume_checkpoint`. -/
def syncResumeCheckpoint (syncParent : Bool) : RestoreTask σ Unit := do
  look restorer.host fun _ => .ok ()
  if syncParent then look restorer.host fun _ => .ok ()

/-- The checkpoint of a file that is being written. -/
def checkpoint : RestoreTask σ Unit := do
  let synced ← Task.inspect fun state => .ok state.resumeNameSynced
  restorer.syncResumeCheckpoint (!synced)
  Task.operate fun state => { state with resumeNameSynced := true }

/-- The order of the next chunk, and the bytes written since the last checkpoint. -/
structure Writing where
  nextOrder : Nat
  bytesSinceSync : Nat

variable (item : SnapshotItemRow) (resumePath : Text) (durable : Bool)

/-- What the loop over the fetched records does with one of them. -/
def writeRecord (writing : Writing) (record : RecipeChunk × Bytes) : RestoreTask σ Writing := do
  lifted (ensure (record.1.order == writing.nextOrder)
    (.restoreData (s!"Orden de chunk inesperado en "
    ++ s!"{String.ofList item.path}: esperado={writing.nextOrder} obtenido={record.1.order}")))
  lifted (ensure (record.2.length == record.1.chunkSize)
    (.restoreData (s!"Tamaño de chunk inconsistente en "
    ++ s!"{String.ofList item.path}: hash={short record.1.chunkHash} esperado={record.1.chunkSize} "
    ++ s!"obtenido={record.2.length}")))
  rewritePartial restorer resumePath (· ++ record.2)
  counting fun stats => { stats with bytesWritten := stats.bytesWritten + record.2.length }
  let bytesSinceSync := writing.bytesSinceSync + record.2.length
  if durable ∧ restoreResumeSyncBytes ≤ bytesSinceSync then
    restorer.checkpoint
    return { nextOrder := writing.nextOrder + 1, bytesSinceSync := 0 }
  return { nextOrder := writing.nextOrder + 1, bytesSinceSync }

/-- A window is fetched as a whole, then its records are written one by one. -/
def writeWindow (windowRecords : List RecipeChunk) (writing : Writing) : RestoreTask σ Writing := do
  let (service, emitted) ← Task.inspect fun state => .ok
    (restorer.prefetcher.flushRecordWindow state.service windowRecords)
  Task.operate fun state => { state with service }
  let written ← Task.foldEach (restorer.writeRecord item resumePath durable) writing emitted.yielded
  match emitted.failure with
  | some reason => Task.raise (.error reason)
  | none => return written

/-- The loop over `iter_raw_chunk_records`, which asks for a window when the records before it are
written. -/
def writeRecords (failure : Option StopanError) : List RecipeChunk → List RecipeChunk → Writing →
    RestoreTask σ Writing
  | windowRecords, [], writing =>
      match failure with
      | some reason => Task.raise (.error reason)
      | none =>
          if windowRecords = [] then return writing
          else restorer.writeWindow item resumePath durable windowRecords writing
  | windowRecords, record :: rest, writing =>
      if restorer.prefetcher.window ≤ (windowRecords ++ [record]).length then do
        writeRecords failure [] rest
          (← restorer.writeWindow item resumePath durable (windowRecords ++ [record]) writing)
      else writeRecords failure (windowRecords ++ [record]) rest writing

/-- What happens while the partial is open. -/
def writePartial (resumeExisted : Bool) (recipeId expectedChunkCount expectedSize : Nat) :
    RestoreTask σ Unit := do
  let (chunks, bytes) ← restorer.verifyResumePrefix resumePath recipeId
    expectedChunkCount expectedSize
  counting fun stats => { stats with
    chunksReused := stats.chunksReused + chunks
    bytesReused := stats.bytesReused + bytes
    filesResumed := stats.filesResumed + if resumeExisted &&
      (decide (0 < chunks) || expectedChunkCount == 0) then 1 else 0 }
  let records := iterRecipeChunkEntries restorer.db recipeId chunks
  let written ← restorer.writeRecords item resumePath durable records.failure [] records.yielded
    { nextOrder := chunks, bytesSinceSync := 0 }
  let finalSize ← look restorer.host fun files => .ok (restorer.partialData files resumePath).length
  lifted (ensure (written.nextOrder == expectedChunkCount)
    (.restoreData (s!"Receta incompleta para "
    ++ s!"{String.ofList item.path}: esperados={expectedChunkCount} procesados={written.nextOrder}")))
  lifted (ensure (finalSize == expectedSize) (.restoreData (s!"Tamaño final inconsistente para "
    ++ s!"{String.ofList item.path}: esperado={expectedSize} obtenido={finalSize}")))
  if durable then restorer.checkpoint

/-- An interruption makes the last part durable too, if it can, and goes on. -/
def keepProgress (reason : Raised) : RestoreTask σ Unit := do
  if reason.isException then Task.raise reason
  let size ← look restorer.host fun files => .ok (restorer.partialData files resumePath).length
  if 0 < size then
    let synced ← Task.inspect fun state => .ok state.resumeNameSynced
    match ← Task.attempt (restorer.syncResumeCheckpoint (!synced)) with
    | .ok () => Task.raise reason
    | .error failure => if failure.isOSError then Task.raise reason else Task.raise failure
  else Task.raise reason

def discardResumeFile (path : Text) : RestoreTask σ Unit := do
  match ← Task.attempt (call restorer.host (unlinkNames (restorer.names path))) with
  | .ok () => return ()
  | .error (.fileNotFound _) => return ()
  | .error reason => Task.raise reason

/-- The body of the `try` of a file: whether the file was there already. -/
def restoreContent (fullPath : Text) : RestoreTask σ Bool := do
  let (recipeId, expectedChunkCount, expectedSize) ← lifted (checkFileItem restorer.db item)
  if ← restorer.validateCompletedFile fullPath recipeId expectedChunkCount expectedSize then
    restorer.discardResumeFile resumePath
    applyItemMetadata restorer.host fullPath item
    counting fun stats => { stats with
      filesReused := stats.filesReused + 1
      filesRestored := stats.filesRestored + 1
      chunksReused := stats.chunksReused + expectedChunkCount
      bytesReused := stats.bytesReused + expectedSize
      successfulItems := stats.successfulItems + 1 }
    return true
  let resumeExisted ← lexists restorer.host resumePath
  Task.operate fun state => { state with resumeNameSynced := resumeExisted }
  restorer.openResumeFile resumePath
  match ← Task.attempt (restorer.writePartial item resumePath
      (decide (restoreResumeSyncBytes ≤ expectedSize)) resumeExisted
      recipeId expectedChunkCount expectedSize) with
  | .ok () => return false
  | .error reason => do
      restorer.keepProgress resumePath reason
      return false

/-- The path is checked again before the file is moved there. -/
def publishFile (incompleteDir : Text) : RestoreTask σ Unit := do
  let fullPath ← safePath restorer.host incompleteDir item.path
  call restorer.host (replaceNames (restorer.names resumePath) (restorer.names fullPath))
  applyItemMetadata restorer.host fullPath item
  counting fun stats => { stats with filesRestored := stats.filesRestored + 1,
                                     successfulItems := stats.successfulItems + 1 }

def countFailed : RestoreTask σ Unit :=
  counting fun stats => { stats with filesFailed := stats.filesFailed + 1 }

/-- `except Exception` around a file. -/
def failFile (reason : Raised) : RestoreTask σ Unit :=
  if reason.isException then countFailed else Task.raise reason

def restoreFile (paths : RestorePaths) (fullPath : Text) : RestoreTask σ Unit := do
  let resumePath := paths.resumeFile restorer.blake3 item.path
  match ← Task.attempt (restorer.restoreContent item resumePath fullPath) with
  | .ok true => return ()
  | .ok false =>
      match ← Task.attempt (restorer.publishFile item resumePath paths.incompleteDir) with
      | .ok () => return ()
      | .error reason => failFile reason
  | .error reason => failFile reason

/-- The directories that are ready for files, and those whose metadata are to be applied in the
end. -/
structure Prepared where
  preparedDirs : List Text
  directories : List (Text × SnapshotItemRow)

def prepareParent (prepared : Prepared) (fullPath : Text) : RestoreTask σ Prepared := do
  let parentDir := dirname fullPath
  if prepared.preparedDirs.any fun other => decide (other = parentDir) then return prepared
  makedirs restorer.host parentDir 0o777
  ensureWorkDirectoryPermissions restorer.host parentDir
  return { prepared with preparedDirs := prepared.preparedDirs ++ [parentDir] }

/-- The body of the loop over the items. -/
def restoreItem (paths : RestorePaths) (prepared : Prepared) (item : SnapshotItemRow) :
    RestoreTask σ Prepared := do
  counting fun stats => { stats with processedItems := stats.processedItems + 1 }
  match ← Task.attempt (safePath restorer.host paths.incompleteDir item.path) with
  | .error (.restorePath _) => return prepared
  | .error reason => Task.raise reason
  | .ok fullPath =>
      match item.itemType with
      | .dir => do
          makedirs restorer.host fullPath 0o777
          ensureWorkDirectoryPermissions restorer.host fullPath
          counting fun stats => { stats with
            directoriesCreated := stats.directoriesCreated + 1
            successfulItems := stats.successfulItems + 1 }
          return {
            preparedDirs := prepared.preparedDirs ++ [fullPath]
            directories := prepared.directories ++ [(fullPath, item)] }
      | .other _ => return prepared
      | .file => do
          let ready ← restorer.prepareParent prepared fullPath
          if ← Task.inspect fun state => .ok (isDir state.files (restorer.names fullPath)) then
            countFailed
            return ready
          restorer.restoreFile item paths fullPath
          return ready

def prepare (paths : RestorePaths) : RestoreTask σ Unit := do
  makedirs restorer.host paths.incompleteDir 0o777
  checkRoot restorer.host paths.incompleteDir
  ensureWorkDirectoryPermissions restorer.host paths.incompleteDir
  makedirs restorer.host paths.resumeDir 0o700
  checkRoot restorer.host paths.resumeDir
  chmod restorer.host paths.resumeDir 0o700

def resultOf (snapshotId : Nat) (state : RestoreState σ) (error : Option String) :
    RestoreResult where
  snapshotId := snapshotId
  completed := false
  interrupted := false
  processedItems := state.stats.processedItems
  successfulItems := state.stats.successfulItems
  finalDir := none
  workDir := none
  error := error

def returning (result : RestoreState σ → RestoreResult) : RestoreTask σ RestoreResult :=
  Task.inspect fun state => .ok (result state)

/-- The message for a snapshot that is not complete, with the reason that was recorded if there is
one. -/
def notRestorable (snapshotId : Nat) (snapshot : SnapshotRow) : String :=
  s!"Snapshot {snapshotId} no es restaurable (status={snapshot.status.value})." ++
    match snapshot.error with
    | none => ""
    | some text => if text = [] then "" else s!" {String.ofList text}"

def finalDirExists (paths : RestorePaths) : String :=
  s!"El destino final apareció durante la restauración y no se sobrescribirá: {String.ofList paths.finalDir}. " ++
    s!"El resultado permanece en {String.ofList paths.incompleteDir}."

/-- `_restore_work_directory_permissions`. -/
def restoreWorkDirectoryPermissions (paths : RestorePaths)
    (directories : List (Text × SnapshotItemRow)) : RestoreTask σ Unit := do
  let ordered :=
    (directories.insertionSort fun left right => left.1.length ≤ right.1.length).map (·.1)
  let _ ← Task.forEach (fun path => do
    match ← Task.attempt (ensureWorkDirectoryPermissions restorer.host path) with
    | .ok () => return ()
    | .error reason => if reason.isOSError then return () else Task.raise reason)
    (paths.incompleteDir :: ordered.filter fun path => decide (path ≠ paths.incompleteDir))
  return ()

/-- The renaming that publishes the tree, and what is reported when it fails. -/
def publishTree (snapshotId : Nat) (paths : RestorePaths)
    (directories : List (Text × SnapshotItemRow)) :
    RestoreTask σ RestoreResult := do
  match ← Task.attempt (call restorer.host
      (renameNames (restorer.names paths.incompleteDir) (restorer.names paths.finalDir))) with
  | .ok () => returning fun state => { resultOf snapshotId state none with completed := true,
                                                                           finalDir :=
                                                                             some paths.finalDir }
  | .error (.fileExists _) => do
      restorer.restoreWorkDirectoryPermissions paths directories
      returning fun state => { resultOf snapshotId state (some (finalDirExists paths)) with
        finalDir := some paths.finalDir, workDir := some paths.incompleteDir }
  | .error reason =>
      if reason.isOSError then do
        restorer.restoreWorkDirectoryPermissions paths directories
        returning fun state =>
          { resultOf snapshotId state
              (some s!"Error al publicar la carpeta final: {reason.message}") with
          workDir := some paths.incompleteDir }
      else Task.raise reason

/-- What is done once every item was restored. -/
def publish (snapshotId : Nat) (paths : RestorePaths)
    (directories : List (Text × SnapshotItemRow)) :
    RestoreTask σ RestoreResult := do
  let closed ← Task.attempt (call restorer.host (rmdirNames (restorer.names paths.resumeDir)))
  let blocked ← match closed with
    | .ok () => pure none
    | .error (.fileNotFound _) => pure none
    | .error reason => if reason.isOSError then pure (some reason) else Task.raise reason
  match blocked with
  | some reason =>
      returning fun state => { resultOf snapshotId state
        (some s!"No se pudo cerrar el estado de reanudación antes de publicar el restore: {reason.message}") with
        workDir := some paths.incompleteDir }
  | none => do
      if ← lexists restorer.host paths.finalDir then
        returning fun state => { resultOf snapshotId state (some (finalDirExists paths)) with
          finalDir := some paths.finalDir, workDir := some paths.incompleteDir }
      else do
        let _ ← Task.forEach
          (fun directory => applyItemMetadata restorer.host directory.1 directory.2)
          (directories.insertionSort fun left right => right.1.length ≤ left.1.length)
        restorer.publishTree snapshotId paths directories

/-- What follows the loop over the items. -/
def finish (snapshotId : Nat) (paths : RestorePaths) (prepared : Prepared) :
    RestoreTask σ RestoreResult := do
  let stats ← Task.inspect fun state => .ok state.stats
  if stats.successfulItems = stats.processedItems ∧ 0 < stats.processedItems then
    restorer.publish snapshotId paths prepared.directories
  else
    returning fun state => { resultOf snapshotId state
      (some s!"restore incompleto: {stats.successfulItems}/{stats.processedItems} items") with
      workDir := some paths.incompleteDir }

/-- The restore of the items of a snapshot. -/
def restoreItems (snapshotId : Nat) (paths : RestorePaths) (items : List SnapshotItemRow) :
    RestoreTask σ RestoreResult := do
  match ← Task.attempt (restorer.prepare paths) with
  | .error (.restorePath message) => Task.raise (.error (.storage
      s!"No se pudo preparar el estado de restore de {String.ofList paths.incompleteDir}: {message}"))
  | .error reason =>
      if reason.isOSError then Task.raise (.error (.storage
        s!"No se pudo preparar el estado de restore de {String.ofList paths.incompleteDir}: {reason.message}"))
      else Task.raise reason
  | .ok () =>
      match ← Task.attempt (Task.foldEach (restorer.restoreItem paths)
          { preparedDirs := [paths.incompleteDir], directories := [] } items) with
      | .ok prepared => restorer.finish snapshotId paths prepared
      | .error reason =>
          if reason.isException then Task.raise reason
          else returning fun state => { resultOf snapshotId state (some "restore interrumpido") with
            interrupted := true, workDir := some paths.incompleteDir }

/-- `restore`. -/
def restore (snapshotId : Nat) : RestoreTask σ RestoreResult := do
  match restorer.db.snapshots.get? snapshotId with
  | none => returning fun state => resultOf snapshotId state (some
    s!"No existe el Snapshot ID {snapshotId}.")
  | some snapshot =>
      if snapshot.status ≠ .complete then
        returning fun state => resultOf snapshotId state (some (notRestorable snapshotId snapshot))
      else if snapshot.uuid = [] then Task.raise (.error (.restoreData "Snapshot sin UUID"))
      else do
        let paths := RestorePaths.forSnapshot restorer.baseOutputDir snapshot.uuid
        if ← lexists restorer.host paths.finalDir then
          returning fun state => { resultOf snapshotId state (some
            (s!"El destino final ya existe y no se sobrescribirá: {String.ofList paths.finalDir}. " ++
              "Utiliza otro directorio base o retira el destino existente antes de reintentar.")) with
            finalDir := some paths.finalDir }
        else
          let items := (restorer.db.snapshotItemRows snapshotId).map (·.2)
          if items = [] then
            returning fun state =>
              { resultOf snapshotId state (some s!"Snapshot {snapshotId} está vacío.") with
              workDir := some paths.incompleteDir }
          else restorer.restoreItems snapshotId paths items

end SnapshotRestorer

end Stopan.Restore
