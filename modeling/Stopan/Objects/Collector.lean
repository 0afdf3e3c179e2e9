import Stopan.Packs.Import

/-!
Mark and sweep of the object store (`stopan/metadata/objects/gc.py`) together with the writers of
the store: whatever runs and wherever it is cut off, what the published root reaches stays readable.
-/

namespace Stopan.Objects

open Stopan.Lib Stopan.Common Stopan.Packs

/-- The arguments of a collection, with the names in the order in which the directories list them.
The sweep of local packs works in another directory and is left out. -/
structure CollectRequest where
  objectGraceSeconds : Nat
  dryRun : Bool
  includeObjects : Bool
  listing : List StorePath

structure ObjectSweepStats where
  filesSeen : Nat
  filesLive : Nat
  filesCollectable : Nat
  filesDeleted : Nat
  filesSkippedByGrace : Nat
  filesMalformed : Nat
  bytesCollectable : Nat
  bytesDeleted : Nat
  errors : List String
  deriving DecidableEq, Repr

def ObjectSweepStats.start : ObjectSweepStats where
  filesSeen := 0
  filesLive := 0
  filesCollectable := 0
  filesDeleted := 0
  filesSkippedByGrace := 0
  filesMalformed := 0
  bytesCollectable := 0
  bytesDeleted := 0
  errors := []

/-- `_iter_object_files`: the directory and the name of a file that the sweep looks at. -/
def objectFileOf : StorePath → Option (Text × Text)
  | [root, directory, name] =>
      if root = objectsDir ∧ directory.length = 2 ∧ objectSuffix.isSuffixOf name then
        some (directory, name) else none
  | _ => none

/-- The storage id in the name, when the file is well named and in its own directory. -/
def wellNamed (directory name : Text) : Option Text :=
  let id := name.take (name.length - objectSuffix.length)
  if isLowerHex 64 id ∧ id ++ objectSuffix = name ∧ directory = id.take 2 then some id else none

/-- `path.unlink()` of a candidate, once its second stat agrees with the first. A failure is
kept. -/
def unlinkCandidate (environment : StoreEnvironment) (path : StorePath) (file : StoredFile)
    (stats : ObjectSweepStats) :
    StoreTask ObjectSweepStats := do
  let current ← Task.inspect fun files => .ok (files.get? path)
  match current with
  | some (.file again) =>
      if again.inode ≠ file.inode then
        return { stats with
          errors := stats.errors ++ [s!"object cambió antes del borrado, omitido {pathText path}"] }
      else
        match environment.fails (.unlink path) with
        | some text =>
            return { stats with
              errors := stats.errors ++ [s!"borrado de object falló {pathText path}: {text}"] }
        | none =>
            Task.operate fun files => files.erase path
            return { stats with
              filesDeleted := stats.filesDeleted + 1
              bytesDeleted := stats.bytesDeleted + again.data.length }
  | _ => return { stats with
    errors := stats.errors ++ [s!"borrado de object falló {pathText path}"] }

/-- One file of the sweep. -/
def sweepFile (environment : StoreEnvironment) (liveIds : List Text) (cutoff : Int)
    (dryRun : Bool) (path : StorePath)
    (directory name : Text) (seen : ObjectSweepStats) : StoreTask ObjectSweepStats :=
  let stats := { seen with filesSeen := seen.filesSeen + 1 }
  match wellNamed directory name with
  | none => return { stats with filesMalformed := stats.filesMalformed + 1 }
  | some id =>
      if liveIds.contains id then return { stats with filesLive := stats.filesLive + 1 }
      else do
        let entry ← Task.inspect fun files => .ok (files.get? path)
        match entry with
        | some (.file file) =>
            if cutoff < file.mtime then
              return { stats with filesSkippedByGrace := stats.filesSkippedByGrace + 1 }
            else
              let candidate := { stats with
                filesCollectable := stats.filesCollectable + 1
                bytesCollectable := stats.bytesCollectable + file.data.length }
              if dryRun then return candidate
              else unlinkCandidate environment path file candidate
        | _ => return { stats with
          errors :=
            stats.errors ++ [s!"candidato de GC no es un fichero regular: {pathText path}"] }

def sweepObjects (environment : StoreEnvironment) (liveIds : List Text)
    (cutoff : Int) (dryRun : Bool) :
    List StorePath → ObjectSweepStats → StoreTask ObjectSweepStats
  | [], stats => return stats
  | path :: rest, stats =>
      match objectFileOf path with
      | none => sweepObjects environment liveIds cutoff dryRun rest stats
      | some (directory, name) => do
          let after ← sweepFile environment liveIds cutoff dryRun path directory name stats
          sweepObjects environment liveIds cutoff dryRun rest after

def nanosecondsPerSecond : Int := 1000000000

/-- The mark: every object that the root of the pointer reaches. The walk reads distinct files, so
their number bounds it. -/
def markLive (blake3 : Blake3) (keys : StoreKeys) (catalogHash : Text) (files : StoreFiles) :
    Checked (List Text) :=
  (collectReachableObjectHashes blake3 catalogHash
    (fun objectHash => getObjectBytes blake3 keys files objectHash none)
    (files.length + 1)).getD (.error (.walk "el recorrido no termina"))

def collect (blake3 : Blake3) (keys : StoreKeys) (environment : StoreEnvironment)
    (request : CollectRequest) :
    StoreTask (List Text × ObjectSweepStats) := do
  let latest ← Task.inspect fun files => readLatestPointer keys files
  let live ← Task.inspect fun files => markLive blake3 keys latest.catalogHash files
  if request.includeObjects then
    let cutoff := environment.now - request.objectGraceSeconds * nanosecondsPerSecond
    let stats ← sweepObjects environment
      (live.map (idOf keys)) cutoff request.dryRun request.listing .start
    return (live, stats)
  else return (live, .start)

inductive StoreOperation where
  | putGraph (graph : MetadataObjectGraph)
  | importPack (payload : Fields)
  | collect (request : CollectRequest)

/-- An operation under the lock of the store. It stops at one of its moments: the last when it ends
by itself, an earlier one when it is cut off. -/
structure StoreRun where
  operation : StoreOperation
  environment : StoreEnvironment
  stopsAt : Nat

def StoreRun.moments (blake3 : Blake3) (keys : StoreKeys) (run : StoreRun) (files : StoreFiles) :
    List StoreFiles :=
  match run.operation with
  | .putGraph graph => (Objects.putGraph blake3 keys run.environment graph).moments files
  | .importPack payload => (importPackPayload blake3 keys run.environment payload).moments files
  | .collect request => (Objects.collect blake3 keys run.environment request).moments files

def storeStep (blake3 : Blake3) (keys : StoreKeys) (files : StoreFiles) (run : StoreRun) :
    Option StoreFiles :=
  (run.moments blake3 keys files)[run.stopsAt]?

section Reaching

variable {blake3 : Blake3} {keys : StoreKeys} {files after : StoreFiles}
  {root objectHash : Text} {data : Bytes}

/-- The objects that a root reaches through the references of the objects that can be read. -/
def Reaches (blake3 : Blake3) (keys : StoreKeys) (files : StoreFiles)
    (root objectHash : Text) : Prop :=
  Relation.ReflTransGen (RefersTo blake3 (readObject blake3 keys files)) root objectHash

/-- Everything that the root reaches is in the store and can be read. -/
def Complete (blake3 : Blake3) (keys : StoreKeys) (files : StoreFiles) (root : Text) : Prop :=
  ∀ objectHash, Reaches blake3 keys files root objectHash →
    ∃ data, readObject blake3 keys files objectHash = .ok data

/-- The root that `latest.json` names is complete. -/
def Published (blake3 : Blake3) (keys : StoreKeys) (files : StoreFiles) : Prop :=
  ∀ latest, readLatestPointer keys files = .ok latest →
    Complete blake3 keys files latest.catalogHash

theorem refersTo_congr {read other : Text → Checked Bytes}
    (same : other objectHash = read objectHash) {referred : Text}
    (refers : RefersTo blake3 other objectHash referred) :
    RefersTo blake3 read objectHash referred := by
  obtain ⟨label, references, visited, member⟩ := refers
  refine ⟨label, references, ?_, member⟩
  rw [visitObject, same] at visited
  exact visited

/-- Nothing more is reached when the objects that were reached are as before. -/
theorem reaches_of_same (same : ∀ objectHash, Reaches blake3 keys files root objectHash →
      readObject blake3 keys after objectHash = readObject blake3 keys files objectHash)
    (reached : Reaches blake3 keys after root objectHash) :
    Reaches blake3 keys files root objectHash := by
  induction reached with
  | refl => exact .refl
  | tail _ refers ih => exact ih.tail (refersTo_congr (same _ ih) refers)

theorem Complete.of_same (complete : Complete blake3 keys files root)
    (same : ∀ objectHash, Reaches blake3 keys files root objectHash →
      readObject blake3 keys after objectHash = readObject blake3 keys files objectHash) :
    Complete blake3 keys after root := by
  intro objectHash reached
  have before := reaches_of_same same reached
  rw [same objectHash before]
  exact complete objectHash before

theorem readLatestPointer_congr (same : after.get? latestPath = files.get? latestPath) :
    readLatestPointer keys after = readLatestPointer keys files := by
  simp only [readLatestPointer, loadJsonFile, same]

theorem Published.of_same (published : Published blake3 keys files)
    (latest : after.get? latestPath = files.get? latestPath)
    (same : ∀ objectHash data, readObject blake3 keys files objectHash = .ok data →
      readObject blake3 keys after objectHash = .ok data) : Published blake3 keys after := by
  intro pointer read
  rw [readLatestPointer_congr latest] at read
  apply (published pointer read).of_same
  intro objectHash reached
  obtain ⟨data, found⟩ := published pointer read objectHash reached
  rw [found, same objectHash data found]

end Reaching

end Stopan.Objects
