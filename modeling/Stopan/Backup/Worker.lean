import Stopan.Cas.Repository
import Stopan.Chunking.Planner

/-!
The file worker of a backup (`stopan/backup/worker.py`), which runs the planner's decision and the
publication of a chunk in the small steps between which other threads and processes may act.
-/

namespace Stopan.Backup

open Stopan.Lib Stopan.Common Stopan.Cas Stopan.Chunking Stopan.Metadata

structure WorkerStats where
  chunksTotal : Nat := 0
  processed : Nat := 0
  skipped : Nat := 0
  skippedLocal : Nat := 0
  skippedRemote : Nat := 0
  written : Nat := 0
  deriving DecidableEq, Repr

/-- Where the worker stands with its current chunk. The phases up to `rememberRemote` are
`ChunkPlanner.decide`, the remaining two are `CASRepository.put` and what follows it. -/
inductive ChunkPhase where
  | lookupLocal
  | checkLocal
  | rememberLocal (found : Bool)
  | lookupRemote
  | queryRemote
  | rememberRemote (sufficient : Bool)
  | write (stage : PutStage)
  | rememberWritten (written : Bool)
  deriving DecidableEq, Repr

structure CurrentChunk where
  chunkHash : Text
  data : Bytes
  phase : ChunkPhase
  deriving DecidableEq, Repr

/-- The chunks finished so far, each with the decision that was taken for it. -/
structure RunningWorker where
  entries : List (RecipeChunk × ChunkDecision)
  fileSize : Nat
  stats : WorkerStats
  current : Option CurrentChunk
  deriving DecidableEq, Repr

structure WorkerResult where
  entries : List (RecipeChunk × ChunkDecision)
  fileSize : Nat
  recipeHash : Text
  stats : WorkerStats
  deriving DecidableEq, Repr

def WorkerResult.chunks (result : WorkerResult) : List RecipeChunk := result.entries.map Prod.fst

inductive WorkerState where
  | running (worker : RunningWorker)
  | returned (result : WorkerResult)
  | failed (reason : StopanError)
  deriving DecidableEq, Repr

def WorkerState.finished : WorkerState → Bool
  | .running _ => false
  | .returned _ | .failed _ => true

def RunningWorker.start : RunningWorker :=
  { entries := [], fileSize := 0, stats := {}, current := none }

/-- What the file and the filesystem do to a worker: the next chunk of the stream with its data,
the outcome of one filesystem call, the end of the stream, or an exception while reading. -/
inductive WorkerEvent where
  | nextChunk (data : Bytes)
  | advance (outcome : IoOutcome) (inode : Nat)
  | endOfStream
  | readError (reason : StopanError)
  deriving DecidableEq, Repr

inductive PhaseResult where
  | goto (phase : ChunkPhase)
  | decided (decision : ChunkDecision) (written : Bool)
  | raised (reason : StopanError)
  deriving DecidableEq, Repr

def firstPhase (settings : PlannerSettings) : ChunkPhase :=
  if settings.skips then .lookupLocal else .write .checkExisting

/-- One step of the work on a chunk. -/
def advancePhase (settings : PlannerSettings) (db : MetadataDB) (now : Int) (chunkHash : Text)
    (compressed : Bytes) (outcome : IoOutcome) (inode : Nat) (cas : CasFiles) (index : ChunkIndex) :
    ChunkPhase → CasFiles × ChunkIndex × PhaseResult
  | .lookupLocal =>
      match index.localExists.get chunkHash with
      | none => (cas, index, .goto .checkLocal)
      | some true => (cas, index, .decided .skipLocal false)
      | some false => (cas, index, .goto .lookupRemote)
  | .checkLocal => (cas, index, .goto (.rememberLocal (existsLocal cas chunkHash)))
  | .rememberLocal found =>
      (cas, { index with localExists := index.localExists.set chunkHash found },
        if found then .decided .skipLocal false else .goto .lookupRemote)
  | .lookupRemote =>
      if !settings.allowRemoteProtectedSkip then (cas, index, .goto (.write .checkExisting))
      else match index.remotelyProtected.get chunkHash with
        | none => (cas, index, .goto .queryRemote)
        | some true => (cas, index, .decided .skipSynced false)
        | some false => (cas, index, .goto (.write .checkExisting))
  | .queryRemote =>
      match db.isChunkRemotelyProtected chunkHash settings.desiredRf settings.placementEpoch with
      | .error reason => (cas, index, .raised reason)
      | .ok sufficient => (cas, index, .goto (.rememberRemote sufficient))
  | .rememberRemote sufficient =>
      (cas, { index with remotelyProtected := index.remotelyProtected.set chunkHash sufficient },
        if sufficient then .decided .skipSynced false else .goto (.write .checkExisting))
  | .write stage =>
      match writeOnceStep chunkHash compressed now inode outcome cas stage with
      | (stored, .running next) => (stored, index, .goto (.write next))
      | (stored, .returned written) => (stored, index, .goto (.rememberWritten written))
      | (stored, .raised reason) => (stored, index, .raised reason)
  | .rememberWritten written =>
      (cas, { index with localExists := index.localExists.set chunkHash true },
        .decided .process written)

def WorkerStats.count (stats : WorkerStats) (decision : ChunkDecision)
    (written : Bool) : WorkerStats :=
  match decision with
  | .process =>
      { stats with
        chunksTotal := stats.chunksTotal + 1
        processed := stats.processed + 1
        written := if written then stats.written + 1 else stats.written }
  | .skipLocal =>
      { stats with
        chunksTotal := stats.chunksTotal + 1
        skipped := stats.skipped + 1
        skippedLocal := stats.skippedLocal + 1 }
  | .skipSynced =>
      { stats with
        chunksTotal := stats.chunksTotal + 1
        skipped := stats.skipped + 1
        skippedRemote := stats.skippedRemote + 1 }

def RunningWorker.finishChunk (worker : RunningWorker) (chunk : CurrentChunk)
    (decision : ChunkDecision) (written : Bool) : RunningWorker where
  entries := worker.entries ++
    [({ order := worker.entries.length, chunkHash := chunk.chunkHash,
        chunkSize := chunk.data.length }, decision)]
  fileSize := worker.fileSize + chunk.data.length
  stats := worker.stats.count decision written
  current := none

def finishWorker (blake3 : Blake3) (worker : RunningWorker) : WorkerState :=
  match computeRecipeHash blake3 (worker.entries.map Prod.fst) with
  | .error reason => .failed reason
  | .ok recipeHash =>
      .returned { entries := worker.entries, fileSize := worker.fileSize, recipeHash,
                  stats := worker.stats }

/-- The worker after a step of the work on its current chunk. -/
def RunningWorker.resume (worker : RunningWorker) (chunk : CurrentChunk) : PhaseResult → WorkerState
  | .goto phase => .running { worker with current := some { chunk with phase } }
  | .decided decision written => .running (worker.finishChunk chunk decision written)
  | .raised reason => .failed reason

/-- One step of `process_file_worker`; `none` when the event cannot happen in the state. -/
def workerStep (zstd : Zstd) (blake3 : Blake3) (settings : PlannerSettings)
    (db : MetadataDB) (now : Int)
    (cas : CasFiles) (index : ChunkIndex) (worker : RunningWorker) (event : WorkerEvent) :
    Option (CasFiles × ChunkIndex × WorkerState) :=
  match event, worker.current with
  | .readError reason, _ => some (cas, index, .failed reason)
  | .nextChunk data, none =>
      some (cas, index, .running { worker with
        current :=
          some { chunkHash := blake3HexDigest blake3 data, data, phase := firstPhase settings } })
  | .endOfStream, none => some (cas, index, finishWorker blake3 worker)
  | .advance outcome inode, some chunk =>
      if cas.values.any fun file => file.inode == inode then none
      else
        let stepped := advancePhase settings db now chunk.chunkHash
          (zstd.compress chunk.data) outcome inode cas index
          chunk.phase
        some (stepped.1, stepped.2.1, worker.resume chunk stepped.2.2)
  | .nextChunk _, some _ | .endOfStream, some _ | .advance _ _, none => none

/-- The file on which a step of the work on a chunk lets the backup rely from then on. -/
def reliedFile (cas : CasFiles) (chunkHash : Text) (outcome : IoOutcome) :
    ChunkPhase → Option CasFile
  | .checkLocal | .write .checkExisting | .write .recheck => cas.get? chunkHash
  | .write (.publish _ temporary) => if outcome = .done then some temporary else none
  | .lookupLocal | .rememberLocal _ | .lookupRemote | .queryRemote | .rememberRemote _
  | .write (.prepare _)
  | .rememberWritten _ => none

section Soundness

variable (zstd : Zstd) (blake3 : Blake3) (settings : PlannerSettings)
  (available evidence : Text → Prop)

/-- `available` stands for what a local decision promises about a chunk and `evidence` for what a
decision on remote protection promises. -/
structure IndexSound (index : ChunkIndex) : Prop where
  localExists : ∀ chunkHash, index.localExists.get chunkHash = some true → available chunkHash
  remotelyProtected : ∀ chunkHash, index.remotelyProtected.get chunkHash = some true →
    evidence chunkHash

def DecisionSound (chunkHash : Text) : ChunkDecision → Prop
  | .process | .skipLocal => available chunkHash
  | .skipSynced => evidence chunkHash

def PhaseSound (chunkHash : Text) (compressed : Bytes) : ChunkPhase → Prop
  | .lookupLocal | .checkLocal | .lookupRemote => True
  | .rememberLocal found => found = true → available chunkHash
  | .queryRemote => settings.allowRemoteProtectedSkip = true
  | .rememberRemote sufficient => sufficient = true → evidence chunkHash
  | .write stage => StageHolds compressed stage
  | .rememberWritten _ => available chunkHash

def EntriesSound (entries : List (RecipeChunk × ChunkDecision)) : Prop :=
  ∀ entry ∈ entries, DecisionSound available evidence entry.1.chunkHash entry.2

def ChunkSound (chunk : CurrentChunk) : Prop :=
  blake3HexDigest blake3 chunk.data = chunk.chunkHash ∧
    PhaseSound settings available evidence chunk.chunkHash (zstd.compress chunk.data) chunk.phase

def WorkerSound : WorkerState → Prop
  | .running worker =>
      EntriesSound available evidence worker.entries ∧
        ∀ chunk, worker.current = some chunk →
          ChunkSound zstd blake3 settings available evidence chunk
  | .returned result => EntriesSound available evidence result.entries
  | .failed _ => True

theorem indexSound_create : IndexSound available evidence .create := by
  refine ⟨?_, ?_⟩ <;>
  · intro chunkHash cached
    cases cached

theorem workerSound_start : WorkerSound zstd blake3 settings available evidence
    (.running .start) := by
  refine ⟨?_, ?_⟩
  · intro entry member
    cases member
  · intro chunk none
    cases none

variable {zstd blake3 settings available evidence}
variable {available' evidence' : Text → Prop}

theorem IndexSound.mono {index : ChunkIndex} (sound : IndexSound available evidence index)
    (keepAvailable : ∀ chunkHash, available chunkHash → available' chunkHash)
    (keepEvidence : ∀ chunkHash, evidence chunkHash → evidence' chunkHash) :
    IndexSound available' evidence' index where
  localExists chunkHash cached := keepAvailable chunkHash (sound.localExists chunkHash cached)
  remotelyProtected chunkHash cached :=
    keepEvidence chunkHash (sound.remotelyProtected chunkHash cached)

theorem DecisionSound.mono {chunkHash : Text} {decision : ChunkDecision}
    (sound : DecisionSound available evidence chunkHash decision)
    (keepAvailable : ∀ chunkHash, available chunkHash → available' chunkHash)
    (keepEvidence : ∀ chunkHash, evidence chunkHash → evidence' chunkHash) :
    DecisionSound available' evidence' chunkHash decision := by
  cases decision with
  | process => exact keepAvailable _ sound
  | skipLocal => exact keepAvailable _ sound
  | skipSynced => exact keepEvidence _ sound

theorem PhaseSound.mono {chunkHash : Text} {compressed : Bytes} {phase : ChunkPhase}
    (sound : PhaseSound settings available evidence chunkHash compressed phase)
    (keepAvailable : ∀ chunkHash, available chunkHash → available' chunkHash)
    (keepEvidence : ∀ chunkHash, evidence chunkHash → evidence' chunkHash) :
    PhaseSound settings available' evidence' chunkHash compressed phase := by
  cases phase with
  | rememberLocal found => exact fun yes => keepAvailable _ (sound yes)
  | rememberRemote sufficient => exact fun yes => keepEvidence _ (sound yes)
  | rememberWritten written => exact keepAvailable _ sound
  | lookupLocal => trivial
  | checkLocal => trivial
  | lookupRemote => trivial
  | queryRemote => exact sound
  | write stage => exact sound

theorem WorkerSound.mono {state : WorkerState}
    (sound : WorkerSound zstd blake3 settings available evidence state)
    (keepAvailable : ∀ chunkHash, available chunkHash → available' chunkHash)
    (keepEvidence : ∀ chunkHash, evidence chunkHash → evidence' chunkHash) :
    WorkerSound zstd blake3 settings available' evidence' state := by
  cases state with
  | running worker =>
      refine ⟨?_, ?_⟩
      · intro entry member
        exact (sound.1 entry member).mono keepAvailable keepEvidence
      · intro chunk current
        obtain ⟨hash, phase⟩ := sound.2 chunk current
        exact ⟨hash, phase.mono keepAvailable keepEvidence⟩
  | returned result =>
      intro entry member
      exact (sound entry member).mono keepAvailable keepEvidence
  | failed reason => trivial

section Steps

variable {db : MetadataDB} {now : Int} {cas stored : CasFiles} {index known : ChunkIndex}

/-- What the result of a step promises, given what the store and the catalog say. -/
def ResultSound (settings : PlannerSettings) (available evidence : Text → Prop) (chunkHash : Text)
    (compressed : Bytes) : PhaseResult → Prop
  | .goto phase => PhaseSound settings available evidence chunkHash compressed phase
  | .decided decision _ => DecisionSound available evidence chunkHash decision
  | .raised _ => True

theorem reliedFile_returned {chunkHash : Text} {compressed : Bytes}
    {outcome : IoOutcome} {inode : Nat} {stage : PutStage} {written : Bool}
    (stepped : writeOnceStep chunkHash compressed now inode outcome cas stage = (stored,
      .returned written)) :
    ∃ file, reliedFile cas chunkHash outcome (.write stage) = some file := by
  cases stage with
  | checkExisting =>
      rw [writeOnceStep] at stepped
      split at stepped
      · rename_i present
        exact Option.isSome_iff_exists.mp present
      · cases stepped
  | prepare attempt => cases outcome <;> cases stepped
  | publish attempt temporary =>
      cases outcome with
      | done => exact ⟨temporary, rfl⟩
      | missing =>
          dsimp only [writeOnceStep] at stepped
          split at stepped <;> cases stepped
      | failed => cases stepped
  | recheck =>
      rw [writeOnceStep] at stepped
      split at stepped
      · rename_i present
        exact Option.isSome_iff_exists.mp present
      · cases stepped

theorem advancePhase_sound {chunkHash : Text} {compressed : Bytes}
    {outcome : IoOutcome} {inode : Nat} {phase : ChunkPhase} {result : PhaseResult}
    (stepped : advancePhase settings db now chunkHash compressed outcome inode cas index phase =
      (stored, known, result))
    (indexSound : IndexSound available evidence index)
    (phaseSound : PhaseSound settings available evidence chunkHash compressed phase)
    (present : ∀ file, reliedFile cas chunkHash outcome phase = some file → available chunkHash)
    (evidenced : settings.allowRemoteProtectedSkip = true →
      db.isChunkRemotelyProtected chunkHash settings.desiredRf settings.placementEpoch = .ok true →
        evidence chunkHash) :
    IndexSound available evidence known ∧
      ResultSound settings available evidence chunkHash compressed result := by
  cases phase with
  | lookupLocal =>
      cases cached : index.localExists.get chunkHash with
      | none =>
          simp only [advancePhase, cached, Prod.mk.injEq] at stepped
          obtain ⟨-, rfl, rfl⟩ := stepped
          exact ⟨indexSound, trivial⟩
      | some answer =>
          cases answer with
          | true =>
              simp only [advancePhase, cached, Prod.mk.injEq] at stepped
              obtain ⟨-, rfl, rfl⟩ := stepped
              exact ⟨indexSound, indexSound.localExists chunkHash cached⟩
          | false =>
              simp only [advancePhase, cached, Prod.mk.injEq] at stepped
              obtain ⟨-, rfl, rfl⟩ := stepped
              exact ⟨indexSound, trivial⟩
  | checkLocal =>
      simp only [advancePhase, Prod.mk.injEq] at stepped
      obtain ⟨rfl, rfl, rfl⟩ := stepped
      refine ⟨indexSound, ?_⟩
      intro found
      obtain ⟨file, located⟩ := Option.isSome_iff_exists.mp found
      exact present file located
  | rememberLocal found =>
      simp only [advancePhase, Prod.mk.injEq] at stepped
      obtain ⟨-, rfl, rfl⟩ := stepped
      refine ⟨⟨?_, indexSound.remotelyProtected⟩, ?_⟩
      · intro other cached
        rcases FastBoolCache.get_set cached with ⟨rfl, same⟩ | older
        · exact phaseSound same.symm
        · exact indexSound.localExists other older
      · cases found with
        | true => exact phaseSound rfl
        | false => trivial
  | lookupRemote =>
      cases allowed : settings.allowRemoteProtectedSkip with
      | false =>
          simp only [advancePhase, allowed, Bool.not_false, if_true, Prod.mk.injEq] at stepped
          obtain ⟨-, rfl, rfl⟩ := stepped
          exact ⟨indexSound, trivial⟩
      | true =>
          cases cached : index.remotelyProtected.get chunkHash with
          | none =>
              simp only [advancePhase, allowed, cached, Bool.not_true, Bool.false_eq_true, if_false,
                Prod.mk.injEq] at stepped
              obtain ⟨-, rfl, rfl⟩ := stepped
              exact ⟨indexSound, allowed⟩
          | some answer =>
              cases answer with
              | true =>
                  simp only [advancePhase, allowed, cached, Bool.not_true,
                    Bool.false_eq_true, if_false, Prod.mk.injEq] at stepped
                  obtain ⟨-, rfl, rfl⟩ := stepped
                  exact ⟨indexSound, indexSound.remotelyProtected chunkHash cached⟩
              | false =>
                  simp only [advancePhase, allowed, cached, Bool.not_true,
                    Bool.false_eq_true, if_false, Prod.mk.injEq] at stepped
                  obtain ⟨-, rfl, rfl⟩ := stepped
                  exact ⟨indexSound, trivial⟩
  | queryRemote =>
      cases answer : db.isChunkRemotelyProtected chunkHash settings.desiredRf
        settings.placementEpoch with
      | error reason =>
          simp only [advancePhase, answer, Prod.mk.injEq] at stepped
          obtain ⟨-, rfl, rfl⟩ := stepped
          exact ⟨indexSound, trivial⟩
      | ok sufficient =>
          simp only [advancePhase, answer, Prod.mk.injEq] at stepped
          obtain ⟨-, rfl, rfl⟩ := stepped
          refine ⟨indexSound, ?_⟩
          intro yes
          exact evidenced phaseSound (yes ▸ answer)
  | rememberRemote sufficient =>
      simp only [advancePhase, Prod.mk.injEq] at stepped
      obtain ⟨-, rfl, rfl⟩ := stepped
      refine ⟨⟨indexSound.localExists, ?_⟩, ?_⟩
      · intro other cached
        rcases FastBoolCache.get_set cached with ⟨rfl, same⟩ | older
        · exact phaseSound same.symm
        · exact indexSound.remotelyProtected other older
      · cases sufficient with
        | true => exact phaseSound rfl
        | false => trivial
  | write stage =>
      cases wrote : writeOnceStep chunkHash compressed now inode outcome cas stage with
      | mk files progress =>
          cases progress with
          | running next =>
              simp only [advancePhase, wrote, Prod.mk.injEq] at stepped
              obtain ⟨-, rfl, rfl⟩ := stepped
              exact ⟨indexSound, writeOnceStep_stageHolds wrote⟩
          | returned written =>
              simp only [advancePhase, wrote, Prod.mk.injEq] at stepped
              obtain ⟨rfl, rfl, rfl⟩ := stepped
              obtain ⟨file, relied⟩ := reliedFile_returned wrote
              exact ⟨indexSound, present file relied⟩
          | raised reason =>
              simp only [advancePhase, wrote, Prod.mk.injEq] at stepped
              obtain ⟨-, rfl, rfl⟩ := stepped
              exact ⟨indexSound, trivial⟩
  | rememberWritten written =>
      simp only [advancePhase, Prod.mk.injEq] at stepped
      obtain ⟨-, rfl, rfl⟩ := stepped
      refine ⟨⟨?_, indexSound.remotelyProtected⟩, phaseSound⟩
      intro other cached
      rcases FastBoolCache.get_set cached with ⟨rfl, -⟩ | older
      · exact phaseSound
      · exact indexSound.localExists other older

/-- The store changes only while a chunk is being written. -/
theorem advancePhase_cas {chunkHash : Text} {compressed : Bytes} {outcome : IoOutcome} {inode : Nat}
    {phase : ChunkPhase} {result : PhaseResult}
    (stepped : advancePhase settings db now chunkHash compressed outcome inode cas index phase =
      (stored, known, result)) :
    stored = cas ∨ ∃ stage progress, phase = .write stage ∧
      writeOnceStep chunkHash compressed now inode outcome cas stage = (stored, progress) := by
  cases phase with
  | lookupLocal =>
      left
      simp only [advancePhase] at stepped
      split at stepped <;> exact (congrArg Prod.fst stepped).symm
  | checkLocal => exact .inl (congrArg Prod.fst stepped).symm
  | rememberLocal found => exact .inl (congrArg Prod.fst stepped).symm
  | lookupRemote =>
      left
      simp only [advancePhase] at stepped
      split at stepped
      · exact (congrArg Prod.fst stepped).symm
      · split at stepped <;> exact (congrArg Prod.fst stepped).symm
  | queryRemote =>
      left
      simp only [advancePhase] at stepped
      split at stepped <;> exact (congrArg Prod.fst stepped).symm
  | rememberRemote sufficient => exact .inl (congrArg Prod.fst stepped).symm
  | write stage =>
      right
      cases wrote : writeOnceStep chunkHash compressed now inode outcome cas stage with
      | mk files progress =>
          refine ⟨stage, progress, rfl, ?_⟩
          cases progress <;> simp only [advancePhase, wrote, Prod.mk.injEq] at stepped <;>
            rw [← stepped.1, wrote]
  | rememberWritten written => exact .inl (congrArg Prod.fst stepped).symm

theorem writeOnceStep_relied {chunkHash : Text} {compressed : Bytes}
    {outcome : IoOutcome} {inode : Nat} {stage : PutStage} {progress : PutProgress}
    (stepped : writeOnceStep chunkHash compressed now inode outcome cas stage =
      (stored, progress)) :
    (∀ file, reliedFile cas chunkHash outcome (.write stage) = some file →
      stored.get? chunkHash = some file) ∧
      (stored = cas ∨ ∃ file, reliedFile cas chunkHash outcome (.write stage) = some file ∧
        stored = cas.set chunkHash file) := by
  cases stage with
  | checkExisting =>
      rw [writeOnceStep] at stepped
      split at stepped <;>
      · cases stepped
        exact ⟨fun _ relied => relied, .inl rfl⟩
  | prepare attempt =>
      refine ⟨fun _ impossible => (by cases impossible), .inl ?_⟩
      cases outcome <;> exact (congrArg Prod.fst stepped).symm
  | publish attempt temporary =>
      cases outcome with
      | done =>
          cases stepped
          refine ⟨?_, .inr ⟨temporary, rfl, rfl⟩⟩
          intro file relied
          cases relied
          exact Dict.get?_set_self ..
      | missing =>
          refine ⟨fun _ impossible => (by cases impossible), .inl ?_⟩
          dsimp only [writeOnceStep] at stepped
          split at stepped <;> exact (congrArg Prod.fst stepped).symm
      | failed =>
          exact ⟨fun _ impossible => (by cases impossible), .inl (congrArg Prod.fst stepped).symm⟩
  | recheck =>
      rw [writeOnceStep] at stepped
      split at stepped <;>
      · cases stepped
        exact ⟨fun _ relied => relied, .inl rfl⟩

/-- The file that a step relies on is in the store after it, and only a publication changes the
store. -/
theorem advancePhase_relied {chunkHash : Text} {compressed : Bytes}
    {outcome : IoOutcome} {inode : Nat} {phase : ChunkPhase} {result : PhaseResult}
    (stepped : advancePhase settings db now chunkHash compressed outcome inode cas index phase =
      (stored, known, result)) :
    (∀ file, reliedFile cas chunkHash outcome phase = some file →
      stored.get? chunkHash = some file) ∧
      (stored = cas ∨ ∃ file, reliedFile cas chunkHash outcome phase = some file ∧
        stored = cas.set chunkHash file) := by
  rcases advancePhase_cas stepped with rfl | ⟨stage, progress, rfl, wrote⟩
  · refine ⟨?_, .inl rfl⟩
    intro file relied
    cases phase with
    | checkLocal => exact relied
    | write stage =>
        cases wrote : writeOnceStep chunkHash compressed now inode outcome stored stage with
        | mk files progress =>
            have same : files = stored := by
              cases progress <;> simp only [advancePhase, wrote, Prod.mk.injEq] at stepped <;>
                exact stepped.1
            rw [same] at wrote
            exact (writeOnceStep_relied wrote).1 file relied
    | lookupLocal => cases relied
    | rememberLocal found => cases relied
    | lookupRemote => cases relied
    | queryRemote => cases relied
    | rememberRemote sufficient => cases relied
    | rememberWritten written => cases relied
  · exact writeOnceStep_relied wrote

/-- Everything that one step of a worker can do. -/
theorem workerStep_cases {worker : RunningWorker} {event : WorkerEvent} {after : WorkerState}
    (stepped : workerStep zstd blake3 settings db now cas index worker event = some
      (stored, known, after)) :
    (stored = cas ∧ known = index ∧
      ((∃ reason, event = .readError reason ∧ after = .failed reason) ∨
        (∃ data, event = .nextChunk data ∧ worker.current = none ∧ after = .running { worker with
          current := some { chunkHash := blake3HexDigest blake3 data, data,
                            phase := firstPhase settings } }) ∨
        (event = .endOfStream ∧ worker.current = none ∧ after = finishWorker blake3 worker))) ∨
      ∃ chunk outcome inode result, event = .advance outcome inode ∧ worker.current = some chunk ∧
        advancePhase settings db now chunk.chunkHash
          (zstd.compress chunk.data) outcome inode cas index chunk.phase =
          (stored, known, result) ∧ after = worker.resume chunk result := by
  unfold workerStep at stepped
  split at stepped
  · rename_i reason
    cases stepped
    exact .inl ⟨rfl, rfl, .inl ⟨reason, rfl, rfl⟩⟩
  · rename_i data idle
    cases stepped
    exact .inl ⟨rfl, rfl, .inr (.inl ⟨data, rfl, idle, rfl⟩)⟩
  · rename_i idle
    cases stepped
    exact .inl ⟨rfl, rfl, .inr (.inr ⟨rfl, idle, rfl⟩)⟩
  · rename_i outcome inode chunk current
    split at stepped
    · cases stepped
    · cases stepped
      exact .inr ⟨chunk, outcome, inode, _, rfl, current, rfl, rfl⟩
  · cases stepped
  · cases stepped
  · cases stepped

/-- A step keeps the indexes and the worker sound for anything that covers the store afterwards
and the answers of the catalog. -/
theorem workerStep_sound {worker : RunningWorker} {event : WorkerEvent} {after : WorkerState}
    (stepped : workerStep zstd blake3 settings db now cas index worker event = some
      (stored, known, after))
    (indexSound : IndexSound available evidence index)
    (workerSound : WorkerSound zstd blake3 settings available evidence (.running worker))
    (present : ∀ chunk outcome inode file, worker.current = some chunk →
      event = .advance outcome inode →
      reliedFile cas chunk.chunkHash outcome chunk.phase = some file → available chunk.chunkHash)
    (evidenced : ∀ chunkHash, settings.allowRemoteProtectedSkip = true →
      db.isChunkRemotelyProtected chunkHash settings.desiredRf settings.placementEpoch = .ok true →
        evidence chunkHash) :
    IndexSound available evidence known ∧
      WorkerSound zstd blake3 settings available evidence after := by
  obtain ⟨entries, current⟩ := workerSound
  rcases workerStep_cases stepped with ⟨-, rfl, outcome⟩ |
    ⟨chunk, outcome, inode, result, rfl, working, advanced, rfl⟩
  · refine ⟨indexSound, ?_⟩
    rcases outcome with ⟨reason, -, rfl⟩ | ⟨data, -, -, rfl⟩ | ⟨-, -, rfl⟩
    · trivial
    · refine ⟨entries, ?_⟩
      intro chunk started
      cases started
      refine ⟨rfl, ?_⟩
      simp only [firstPhase]
      split <;> trivial
    · unfold finishWorker
      split
      · trivial
      · exact entries
  · obtain ⟨hash, phase⟩ := current chunk working
    obtain ⟨knownSound, resultSound⟩ := advancePhase_sound advanced indexSound phase
      (fun file relied => present chunk outcome inode file working rfl relied)
        (evidenced chunk.chunkHash)
    refine ⟨knownSound, ?_⟩
    cases result with
    | goto next =>
        refine ⟨entries, ?_⟩
        intro moved same
        cases same
        exact ⟨hash, resultSound⟩
    | decided decision written =>
        refine ⟨?_, ?_⟩
        · intro entry member
          rcases List.mem_append.mp member with older | newest
          · exact entries entry older
          · rw [List.mem_singleton.mp newest]
            exact resultSound
        · intro moved same
          cases same
    | raised reason => trivial

theorem workerStep_intact {worker : RunningWorker} {event : WorkerEvent} {after : WorkerState}
    (stepped : workerStep zstd blake3 settings db now cas index worker event = some
      (stored, known, after))
    (workerSound : WorkerSound zstd blake3 settings available evidence (.running worker))
    (intact : IntactCas zstd blake3 cas) : IntactCas zstd blake3 stored := by
  rcases workerStep_cases stepped with ⟨rfl, -, -⟩ |
    ⟨chunk, outcome, inode, result, -, working, advanced, -⟩
  · exact intact
  · obtain ⟨hash, phase⟩ := workerSound.2 chunk working
    rcases advancePhase_cas advanced with rfl | ⟨stage, progress, writing, wrote⟩
    · exact intact
    · rw [writing] at phase
      exact writeOnceStep_intact hash phase intact wrote

/-- What a step relies on is in the store after it. -/
theorem workerStep_relied {worker : RunningWorker} {event : WorkerEvent} {after : WorkerState}
    {chunk : CurrentChunk} {outcome : IoOutcome} {inode : Nat} {file : CasFile}
    (stepped : workerStep zstd blake3 settings db now cas index worker event = some
      (stored, known, after))
    (working : worker.current = some chunk) (advancing : event = .advance outcome inode)
    (relied : reliedFile cas chunk.chunkHash outcome chunk.phase = some file) :
    stored.get? chunk.chunkHash = some file := by
  rcases workerStep_cases stepped with ⟨-, -, other⟩ |
    ⟨chosen, reported, number, result, same, current, advanced, -⟩
  · rcases other with ⟨reason, same, -⟩ | ⟨data, same, -⟩ | ⟨same, -⟩ <;>
    · rw [advancing] at same
      cases same
  · rw [advancing] at same
    cases same
    rw [working] at current
    cases current
    exact (advancePhase_relied advanced).1 file relied

theorem workerStep_keeps {worker : RunningWorker} {event : WorkerEvent} {after : WorkerState}
    {other : Text} {file : CasFile} (located : cas.get? other = some file)
    (stepped : workerStep zstd blake3 settings db now cas index worker event = some
      (stored, known, after)) :
    ∃ file, stored.get? other = some file := by
  rcases workerStep_cases stepped with ⟨rfl, -, -⟩ |
    ⟨chunk, outcome, inode, result, -, -, advanced, -⟩
  · exact ⟨file, located⟩
  · rcases advancePhase_cas advanced with rfl | ⟨stage, progress, -, wrote⟩
    · exact ⟨file, located⟩
    · exact writeOnceStep_keeps located wrote

end Steps

end Soundness

end Stopan.Backup
