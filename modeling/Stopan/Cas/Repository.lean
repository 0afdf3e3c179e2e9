import Stopan.Lib.Result
import Stopan.Common.Basic

/-!
The local content-addressed store of compressed chunks (`stopan/cas/repository.py`). A path is
derived from the chunk hash alone, so the store is a dictionary from hashes to files.
-/

namespace Stopan.Cas

open Stopan.Lib Stopan.Common

/-- The external Zstandard codec. -/
structure Zstd where
  compress : Bytes → Bytes
  decompress : Bytes → Option Bytes
  roundTrip : ∀ data, decompress (compress data) = some data

/-- The codec restricted to frames with one raw block, the form that Zstandard itself gives to a
short input that does not compress. -/
def Zstd.rawBlock : Zstd where
  compress data :=
    [0x28, 0xb5, 0x2f, 0xfd, 0x20, UInt8.ofNat data.length, UInt8.ofNat (8 * data.length + 1),
      UInt8.ofNat ((8 * data.length + 1) / 256),
        UInt8.ofNat ((8 * data.length + 1) / 65536)] ++ data
  decompress frame := if frame.length < 9 then none else some (frame.drop 9)
  roundTrip data := by simp

structure CasFile where
  data : Bytes
  mtime : Int
  inode : Nat
  deriving DecidableEq, Repr

abbrev CasFiles := Dict Text CasFile

def existsLocal (cas : CasFiles) (chunkHash : Text) : Bool := cas.contains chunkHash

def getCompressed (cas : CasFiles) (chunkHash : Text) : Except StopanError Bytes :=
  match cas.get? chunkHash with
  | none => .error (.storage s!"Chunk no encontrado en CAS: {String.ofList chunkHash}")
  | some file => .ok file.data

def decompressAndValidate (zstd : Zstd) (blake3 : Blake3) (chunkHash : Text) (compressed : Bytes) :
    Except StopanError Bytes :=
  match zstd.decompress compressed with
  | none => .error (.storage s!"Chunk comprimido corrupto en CAS: {String.ofList chunkHash}")
  | some raw =>
      if blake3HexDigest blake3 raw = chunkHash then .ok raw
      else .error (.storage s!"Chunk corrupto en CAS: se esperaba {String.ofList chunkHash}")

/-- `CASRepository.get`. -/
def get (zstd : Zstd) (blake3 : Blake3) (cas : CasFiles) (chunkHash : Text) :
    Except StopanError Bytes := do
  let compressed ← getCompressed cas chunkHash
  decompressAndValidate zstd blake3 chunkHash compressed

/-- How one filesystem call ends: success, `FileNotFoundError`, or another `OSError`. -/
inductive IoOutcome where
  | done
  | missing
  | failed
  deriving DecidableEq, Repr

/-- Where a call of `_write_once` stands. A temporary file is already complete when it is
published, so nothing of it is visible before `os.replace`. -/
inductive PutStage where
  | checkExisting
  | prepare (attempt : Nat)
  | publish (attempt : Nat) (temporary : CasFile)
  | recheck
  deriving DecidableEq, Repr

inductive PutProgress where
  | running (stage : PutStage)
  | returned (written : Bool)
  | raised (reason : StopanError)
  deriving DecidableEq, Repr

/-- One filesystem call of `_write_once`. -/
def writeOnceStep (chunkHash : Text) (compressed : Bytes) (now : Int) (inode : Nat)
    (outcome : IoOutcome) (cas : CasFiles) : PutStage → CasFiles × PutProgress
  | .checkExisting =>
      if existsLocal cas chunkHash then (cas, .returned false) else (cas, .running (.prepare 0))
  | .prepare attempt =>
      match outcome with
      | .done => (cas, .running (.publish attempt { data := compressed, mtime := now, inode }))
      | .missing | .failed => (cas, .raised (.storage "No se pudo escribir archivo temporal CAS"))
  | .publish attempt temporary =>
      match outcome with
      | .done => (cas.set chunkHash temporary, .returned true)
      | .missing =>
          if attempt = 0 then (cas, .running (.prepare 1))
          else (cas, .raised (.storage "No se pudo publicar chunk CAS"))
      | .failed => (cas, .running .recheck)
  | .recheck =>
      if existsLocal cas chunkHash then (cas, .returned false)
      else (cas, .raised (.storage "No se pudo publicar chunk CAS"))

/-- What a call of `_write_once` that nothing interleaves with meets. -/
structure WriteContext where
  now : Int
  inode : Nat
  outcomes : Nat → IoOutcome

def runWriteOnce (context : WriteContext) (chunkHash : Text) (compressed : Bytes) :
    Nat → CasFiles → PutStage → CasFiles × PutProgress
  | 0, cas, stage => (cas, .running stage)
  | calls + 1, cas, stage =>
      match writeOnceStep chunkHash compressed context.now context.inode
        (context.outcomes calls) cas stage with
      | (after, .running next) => runWriteOnce context chunkHash compressed calls after next
      | ended => ended

/-- `put_compressed`; two attempts make at most six calls. -/
def putCompressed (context : WriteContext) (cas : CasFiles) (chunkHash : Text)
    (compressed : Bytes) :
    CasFiles × PutProgress :=
  runWriteOnce context chunkHash compressed 6 cas .checkExisting

def put (zstd : Zstd) (context : WriteContext) (cas : CasFiles) (chunkHash : Text) (raw : Bytes) :
    CasFiles × PutProgress :=
  putCompressed context cas chunkHash (zstd.compress raw)

/-- `get_validated_compressed`. -/
def getValidatedCompressed (zstd : Zstd) (blake3 : Blake3) (cas : CasFiles) (chunkHash : Text) :
    Except StopanError Bytes := do
  let compressed ← getCompressed cas chunkHash
  let _ ← decompressAndValidate zstd blake3 chunkHash compressed
  return compressed

/-- A file that decompresses to content with the given hash. -/
def IntactFile (zstd : Zstd) (blake3 : Blake3) (chunkHash : Text) (file : CasFile) : Prop :=
  ∃ raw, zstd.decompress file.data = some raw ∧ blake3HexDigest blake3 raw = chunkHash

def IntactCas (zstd : Zstd) (blake3 : Blake3) (cas : CasFiles) : Prop :=
  ∀ chunkHash file, cas.get? chunkHash = some file → IntactFile zstd blake3 chunkHash file

/-- The temporary file that a stage is about to publish holds the chunk. -/
def StageHolds (compressed : Bytes) : PutStage → Prop
  | .publish _ temporary => temporary.data = compressed
  | .checkExisting | .prepare _ | .recheck => True

section Publication

variable {zstd : Zstd} {blake3 : Blake3} {cas after : CasFiles} {chunkHash : Text}
  {compressed : Bytes} {now : Int}
  {inode : Nat} {outcome : IoOutcome} {stage : PutStage} {progress : PutProgress}

theorem get_of_intact {file : CasFile} (intact : IntactCas zstd blake3 cas)
    (stored : cas.get? chunkHash = some file) :
    ∃ raw, get zstd blake3 cas chunkHash = .ok raw := by
  obtain ⟨raw, decompressed, hash⟩ := intact chunkHash file stored
  refine ⟨raw, ?_⟩
  simp [get, getCompressed, stored, bind, Except.bind, decompressAndValidate, decompressed, hash]

/-- A call of `_write_once` changes the store only by publishing its temporary file. -/
theorem writeOnceStep_cas
    (stepped : writeOnceStep chunkHash compressed now inode outcome cas stage = (after, progress)) :
    after = cas ∨ ∃ attempt temporary, stage = .publish attempt temporary ∧
      after = cas.set chunkHash temporary ∧ progress = .returned true := by
  cases stage with
  | checkExisting =>
      left
      rw [writeOnceStep] at stepped
      split at stepped <;> exact (congrArg Prod.fst stepped).symm
  | prepare attempt =>
      left
      cases outcome <;> exact (congrArg Prod.fst stepped).symm
  | publish attempt temporary =>
      cases outcome with
      | done => exact .inr ⟨attempt, temporary, rfl, (congrArg Prod.fst stepped).symm,
        (congrArg Prod.snd stepped).symm⟩
      | missing =>
          left
          dsimp only [writeOnceStep] at stepped
          split at stepped <;> exact (congrArg Prod.fst stepped).symm
      | failed => exact .inl (congrArg Prod.fst stepped).symm
  | recheck =>
      left
      rw [writeOnceStep] at stepped
      split at stepped <;> exact (congrArg Prod.fst stepped).symm

theorem writeOnceStep_stageHolds {next : PutStage}
    (stepped : writeOnceStep chunkHash compressed now inode outcome cas stage =
      (after, .running next)) :
    StageHolds compressed next := by
  cases stage with
  | checkExisting =>
      rw [writeOnceStep] at stepped
      split at stepped
      · cases stepped
      · cases stepped
        trivial
  | prepare attempt =>
      cases outcome with
      | done =>
          cases stepped
          rfl
      | missing => cases stepped
      | failed => cases stepped
  | publish attempt temporary =>
      cases outcome with
      | done => cases stepped
      | missing =>
          dsimp only [writeOnceStep] at stepped
          split at stepped
          · cases stepped
            trivial
          · cases stepped
      | failed =>
          cases stepped
          trivial
  | recheck =>
      rw [writeOnceStep] at stepped
      split at stepped <;> cases stepped

theorem writeOnceStep_intact {raw : Bytes} (hash : blake3HexDigest blake3 raw = chunkHash)
    (holds : StageHolds (zstd.compress raw) stage) (intact : IntactCas zstd blake3 cas)
    (stepped : writeOnceStep chunkHash (zstd.compress raw) now inode outcome cas stage =
      (after, progress)) :
    IntactCas zstd blake3 after := by
  rcases writeOnceStep_cas stepped with rfl | ⟨attempt, temporary, rfl, rfl, -⟩
  · exact intact
  · intro other file stored
    rw [Dict.get?_set] at stored
    split at stored
    · rename_i same
      cases stored
      have content : temporary.data = zstd.compress raw := holds
      exact ⟨raw, content ▸ zstd.roundTrip raw, same ▸ hash⟩
    · exact intact other file stored

theorem writeOnceStep_keeps {other : Text} {file : CasFile} (stored : cas.get? other = some file)
    (stepped : writeOnceStep chunkHash compressed now inode outcome cas stage = (after, progress)) :
    ∃ file, after.get? other = some file := by
  rcases writeOnceStep_cas stepped with rfl | ⟨attempt, temporary, rfl, rfl, -⟩
  · exact ⟨file, stored⟩
  · by_cases same : other = chunkHash
    · exact ⟨temporary, same ▸ Dict.get?_set_self ..⟩
    · exact ⟨file, (Dict.get?_set_of_ne _ _ same).trans stored⟩

end Publication

end Stopan.Cas
