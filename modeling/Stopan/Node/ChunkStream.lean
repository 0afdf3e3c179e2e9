import Stopan.Cas.Repository
import Stopan.Lib.BoundedQueue
import Stopan.Lib.Runs

/-!
The stream of chunks that a node stores for another (`ReplicateChunks` of
`stopan/node/services/storage_rpc.py`, over `stopan/node/storage/commit_engine.py`).

A reader thread submits the requests to the commit engine and hands each future over in a bounded
queue, the workers of the engine complete the futures, and the generator of the responses takes them
from the queue. They interleave between the operations on the queue, on the stop event and on the
context.
-/

namespace Stopan.Node

open Stopan.Lib Stopan.Common

inductive StoreStatus where
  | stored
  | alreadyPresent
  | rejectedCorrupt
  | rejectedHashMismatch
  | error
  deriving DecidableEq, Repr

structure StorageCommitResult where
  chunkHash : Text
  status : StoreStatus
  detail : String
  deriving DecidableEq, Repr

structure ReplicateChunkRequest where
  chunkHash : Text
  chunkData : Bytes
  deriving DecidableEq, Repr

/-- How the bounded decompression of the received data ends. -/
inductive Decompression where
  | corrupt
  | tooLarge
  | raw (data : Bytes)
  deriving DecidableEq, Repr

/-- What a worker meets while it commits one chunk: the file of the chunk, the decompressor, and the
publication, which writes, finds the chunk there, or raises. -/
structure CommitContext where
  present : Bool
  decompression : Decompression
  published : Except String Bool

def processOne (blake3 : Blake3) (context : CommitContext) (request : ReplicateChunkRequest) :
    StorageCommitResult :=
  let chunkHash := request.chunkHash
  if !isValidBlake3Hex chunkHash then
    { chunkHash, status := .rejectedHashMismatch
      detail := "chunk_hash inválido: se esperaba BLAKE3 hex lowercase de 64 caracteres" }
  else if context.present then { chunkHash, status := .alreadyPresent,
                                 detail := "Chunk ya presente" }
  else
    match context.decompression with
    | .corrupt => { chunkHash, status := .rejectedCorrupt, detail := "zstd corrupto" }
    | .tooLarge =>
        { chunkHash, status := .rejectedCorrupt, detail := "salida descomprimida demasiado grande" }
    | .raw data =>
        if blake3HexDigest blake3 data ≠ chunkHash then
          { chunkHash, status := .rejectedHashMismatch, detail := "hash no coincide" }
        else
          match context.published with
          | .error detail => { chunkHash, status := .error, detail }
          | .ok true => { chunkHash, status := .stored, detail := "guardado" }
          | .ok false => { chunkHash, status := .alreadyPresent, detail := "chunk ya presente" }

/-- A future of the engine: the chunk that was submitted, and its result once a worker is done. -/
structure Commit where
  request : ReplicateChunkRequest
  result : Option StorageCommitResult
  deriving DecidableEq, Repr

/-- How `submit` ends: with a future, or with an error because the engine is closed, because the
stop event is set, or from the executor. -/
inductive Submission where
  | scheduled
  | closed
  | cancelled
  | failed (detail : String)
  deriving DecidableEq, Repr

/-- Futures are named by their position among the commits of the call. -/
inductive QueueEntry where
  | future (index : Nat)
  | sentinel
  deriving DecidableEq, Repr

def QueueEntry.future? : QueueEntry → Option Nat
  | .future index => some index
  | .sentinel => none

/-- The operation that the reader thread performs next. -/
inductive ReaderAt where
  /-- It waits for the next request. -/
  | iterates
  | readsStop (request : ReplicateChunkRequest)
  | readsActive (request : ReplicateChunkRequest)
  | setsStop
  | submits (request : ReplicateChunkRequest)
  | enqueueReadsStop (future : Nat)
  | enqueueReadsActive (future : Nat)
  | enqueueSetsStop
  | enqueuePuts (future : Nat)
  /-- An exception has left the loop. -/
  | raised (detail : String)
  | sentinelReadsStop
  | sentinelReadsActive
  /-- The first branch of `enqueue_sentinel` empties the queue. -/
  | sentinelDrains
  | sentinelPutsNowait
  /-- The second branch waits for room. -/
  | sentinelPuts
  | sentinelRereadsStop
  | sentinelRereadsActive
  | sentinelSetsStop
  | finished
  deriving DecidableEq, Repr

/-- The operation that the generator of the responses performs next. -/
inductive GeneratorAt where
  | drains
  | readsActive
  | takes
  /-- It waits for a future in flight. -/
  | waits
  | yields (done : List Nat)
  /-- It has yielded a response and has not been asked for the next one. -/
  | suspended (done : List Nat)
  | setsStop
  /-- It is out of its loop. -/
  | left
  | finalizes
  | joins
  | ended
  deriving DecidableEq, Repr

structure StreamCall where
  queue : BoundedQueue QueueEntry
  stopEvent : Bool
  /-- `context.is_active()`. -/
  active : Bool
  readerErrors : List String
  reader : ReaderAt
  generator : GeneratorAt
  inflight : List Nat
  readerFinished : Bool
  commits : List Commit
  /-- The responses, each with the future that it answers. -/
  yielded : List (Nat × StorageCommitResult)
  /-- The details of an INTERNAL status. -/
  details : Option String
  /-- Everything that the request iterator has given. -/
  received : List ReplicateChunkRequest

inductive StreamEvent where
  | receive (request : ReplicateChunkRequest)
  | requestsEnd
  | requestsFail (detail : String)
  | submit (submission : Submission)
  /-- The reader performs its next operation. -/
  | reader
  /-- A worker completes a future. -/
  | commit (index : Nat) (context : CommitContext)
  /-- The generator performs its next operation, or is asked for the next response. -/
  | generator
  /-- `futures.wait` returns the futures that it found completed, none of them after its timeout. -/
  | waitReturns (done : List Nat)
  /-- The client cancels or disappears. -/
  | contextEnds
  /-- The context runs the callback that was registered for its end. -/
  | callback
  /-- The server drops the generator of a call that is over. -/
  | close
  /-- The reader has not finished when the time for joining it is over. -/
  | joinTimesOut

namespace StreamCall

def initial (maxPending : Int) : StreamCall where
  queue := .create (max 1 maxPending).toNat
  stopEvent := false
  active := true
  readerErrors := []
  reader := .iterates
  generator := .drains
  inflight := []
  readerFinished := false
  commits := []
  yielded := []
  details := none
  received := []

def result? (call : StreamCall) (index : Nat) : Option StorageCommitResult :=
  call.commits[index]?.bind Commit.result

def responses (call : StreamCall) : List StorageCommitResult := call.yielded.map Prod.snd

def submitStep (call : StreamCall) (request : ReplicateChunkRequest) :
    Submission → Option StreamCall
  | .scheduled => some { call with
      commits := call.commits ++ [{ request, result := none }]
      reader := .enqueueReadsStop call.commits.length }
  | .closed => some { call with reader := .raised "commit engine cerrado" }
  | .cancelled =>
      if call.stopEvent then some { call with reader := .raised "submit de commit cancelado" }
        else none
  | .failed detail => some { call with reader := .raised detail }

def readerStep (call : StreamCall) : Option StreamCall :=
  match call.reader with
  | .iterates | .submits _ | .finished => none
  | .readsStop request =>
      if call.stopEvent then some { call with reader := .setsStop }
      else some { call with reader := .readsActive request }
  | .readsActive request =>
      if !call.active then some { call with reader := .setsStop }
      else if request.chunkHash = [] then some { call with reader := .iterates }
      else some { call with reader := .submits request }
  | .setsStop => some { call with stopEvent := true, reader := .sentinelReadsStop }
  | .enqueueReadsStop future =>
      if call.stopEvent then some { call with reader := .sentinelReadsStop }
      else some { call with reader := .enqueueReadsActive future }
  | .enqueueReadsActive future =>
      if call.active then some { call with reader := .enqueuePuts future }
      else some { call with reader := .enqueueSetsStop }
  | .enqueueSetsStop => some { call with stopEvent := true, reader := .sentinelReadsStop }
  | .enqueuePuts future =>
      match call.queue.put? (.future future) with
      | some queue => some { call with queue, reader := .iterates }
      | none => some { call with reader := .enqueueReadsStop future }
  | .raised detail =>
      if call.stopEvent then some { call with reader := .sentinelReadsStop }
      else some { call with readerErrors := call.readerErrors ++ [detail],
                            reader := .sentinelReadsStop }
  | .sentinelReadsStop =>
      if call.stopEvent then some { call with reader := .sentinelDrains }
      else some { call with reader := .sentinelReadsActive }
  | .sentinelReadsActive =>
      if call.active then some { call with reader := .sentinelPuts }
      else some { call with reader := .sentinelDrains }
  | .sentinelDrains =>
      match call.queue.get? with
      | some (_, queue) => some { call with queue }
      | none => some { call with reader := .sentinelPutsNowait }
  | .sentinelPutsNowait =>
      match call.queue.put? .sentinel with
      | some queue => some { call with queue, reader := .finished }
      | none => some { call with reader := .finished }
  | .sentinelPuts =>
      match call.queue.put? .sentinel with
      | some queue => some { call with queue, reader := .finished }
      | none => some { call with reader := .sentinelRereadsStop }
  | .sentinelRereadsStop =>
      if call.stopEvent then some { call with reader := .sentinelSetsStop }
      else some { call with reader := .sentinelRereadsActive }
  | .sentinelRereadsActive =>
      if call.active then some { call with reader := .sentinelPuts }
      else some { call with reader := .sentinelSetsStop }
  | .sentinelSetsStop => some { call with stopEvent := true, reader := .sentinelPuts }

def takeEntry (call : StreamCall) (queue : BoundedQueue QueueEntry) : QueueEntry → StreamCall
  | .future index => { call with queue, inflight := call.inflight ++ [index], generator := .drains }
  | .sentinel => { call with queue, readerFinished := true, generator := .drains }

def generatorStep (call : StreamCall) : Option StreamCall :=
  match call.generator with
  | .waits | .ended => none
  | .drains =>
      match call.queue.get? with
      | some (entry, queue) => some (call.takeEntry queue entry)
      | none =>
          if call.inflight = [] ∧ call.readerFinished then some { call with generator := .left }
          else some { call with generator := .readsActive }
  | .readsActive =>
      if !call.active then some { call with generator := .setsStop }
      else if call.inflight = [] then some { call with generator := .takes }
      else some { call with generator := .waits }
  | .takes =>
      match call.queue.get? with
      | some (entry, queue) => some (call.takeEntry queue entry)
      | none => some { call with generator := .drains }
  | .yields [] | .suspended [] => some { call with generator := .drains }
  | .yields (future :: rest) =>
      (call.result? future).map fun result =>
        { call with yielded := call.yielded ++ [(future, result)], generator := .suspended rest }
  | .suspended rest => some { call with generator := .yields rest }
  | .setsStop => some { call with stopEvent := true, generator := .left }
  | .left => some { call with details := call.readerErrors.head?, generator := .finalizes }
  | .finalizes => some { call with stopEvent := true, generator := .joins }
  | .joins => if call.reader = .finished then some { call with generator := .ended } else none

/-- One operation of one thread, or something that happens to the call; `none` when it cannot
happen. -/
def step (blake3 : Blake3) (call : StreamCall) : StreamEvent → Option StreamCall
  | .receive request => do
      guard (call.reader = .iterates)
      return { call with reader := .readsStop request, received := call.received ++ [request] }
  | .requestsEnd => do
      guard (call.reader = .iterates)
      return { call with reader := .sentinelReadsStop }
  | .requestsFail detail => do
      guard (call.reader = .iterates)
      return { call with reader := .raised detail }
  | .submit submission =>
      match call.reader with
      | .submits request => call.submitStep request submission
      | _ => none
  | .reader => call.readerStep
  | .commit index context => do
      let commit ← call.commits[index]?
      guard (commit.result = none)
      return { call with
        commits :=
          call.commits.set index
            { commit with result := some (processOne blake3 context commit.request) } }
  | .generator => call.generatorStep
  | .waitReturns done => do
      guard (call.generator = .waits ∧ done.Nodup ∧ ∀ index ∈ done, index ∈ call.inflight ∧
        (call.result? index).isSome)
      return { call with
        inflight := call.inflight.filter fun index => !done.contains index
        generator := .yields done }
  | .contextEnds => some { call with active := false }
  | .callback => do
      guard (call.active = false)
      return { call with stopEvent := true }
  | .close =>
      match call.active, call.generator with
      | false, .suspended _ => some { call with generator := .finalizes }
      | _, _ => none
  | .joinTimesOut => do
      guard (call.generator = .joins ∧ call.reader ≠ .finished)
      return { call with
        details := some "el reader del stream de storage no se detuvo tras la cancelación"
        generator := .ended }

variable {blake3 : Blake3} {call after : StreamCall} {event : StreamEvent} {maxPending : Int}

/-- What each event leaves, with what it needs. -/
inductive Stepped (blake3 : Blake3) (call : StreamCall) : StreamEvent → StreamCall → Prop where
  | receive {request : ReplicateChunkRequest} (iterates : call.reader = .iterates) :
      Stepped blake3 call (.receive request)
        { call with reader := .readsStop request, received := call.received ++ [request] }
  | requestsEnd (iterates : call.reader = .iterates) :
      Stepped blake3 call .requestsEnd { call with reader := .sentinelReadsStop }
  | requestsFail {detail : String} (iterates : call.reader = .iterates) :
      Stepped blake3 call (.requestsFail detail) { call with reader := .raised detail }
  | scheduled {request : ReplicateChunkRequest} (submits : call.reader = .submits request) :
      Stepped blake3 call (.submit .scheduled)
        { call with
          commits := call.commits ++ [{ request, result := none }]
          reader := .enqueueReadsStop call.commits.length }
  | refused {request : ReplicateChunkRequest} {submission : Submission} {detail : String}
      (submits : call.reader = .submits request) (failed : submission ≠ .scheduled) :
      Stepped blake3 call (.submit submission) { call with reader := .raised detail }
  | reader {after : StreamCall} (stepped : call.readerStep = some after) :
      Stepped blake3 call .reader after
  | commit {index : Nat} {context : CommitContext} {commit : Commit}
      (position : call.commits[index]? = some commit) (pending : commit.result = none) :
      Stepped blake3 call (.commit index context)
        { call with
          commits :=
            call.commits.set index
              { commit with result := some (processOne blake3 context commit.request) } }
  | generator {after : StreamCall} (stepped : call.generatorStep = some after) :
      Stepped blake3 call .generator after
  | waitReturns {done : List Nat} (waits : call.generator = .waits) (distinct : done.Nodup)
      (among : ∀ index ∈ done, index ∈ call.inflight ∧ (call.result? index).isSome) :
      Stepped blake3 call (.waitReturns done)
        { call with
          inflight := call.inflight.filter fun index => !done.contains index
          generator := .yields done }
  | contextEnds : Stepped blake3 call .contextEnds { call with active := false }
  | callback (inactive : call.active = false) :
      Stepped blake3 call .callback { call with stopEvent := true }
  | close {rest : List Nat} (inactive : call.active = false)
      (suspended : call.generator = .suspended rest) :
      Stepped blake3 call .close { call with generator := .finalizes }
  | joinTimesOut (joins : call.generator = .joins) (running : call.reader ≠ .finished) :
      Stepped blake3 call .joinTimesOut
        { call with
          details := some "el reader del stream de storage no se detuvo tras la cancelación"
          generator := .ended }

theorem submitStep_cases {request : ReplicateChunkRequest} {submission : Submission}
    (submits : call.reader = .submits request)
    (stepped : call.submitStep request submission = some after) :
    Stepped blake3 call (.submit submission) after := by
  cases submission with
  | scheduled =>
      cases stepped
      exact .scheduled submits
  | closed | failed detail =>
      cases stepped
      exact .refused submits (by simp)
  | cancelled =>
      simp only [submitStep] at stepped
      split at stepped <;> cases stepped
      exact .refused submits (by simp)

theorem step_cases (stepped : call.step blake3 event = some after) :
    Stepped blake3 call event after := by
  cases event with
  | submit submission =>
      simp only [step] at stepped
      split at stepped
      case h_1 request submits => exact submitStep_cases submits stepped
      case h_2 => cases stepped
  | reader => exact .reader stepped
  | generator => exact .generator stepped
  | contextEnds =>
      cases stepped
      exact .contextEnds
  | close =>
      simp only [step] at stepped
      split at stepped <;> cases stepped
      rename_i inactive suspended
      exact .close inactive suspended
  | commit index context =>
      obtain ⟨commit, position, guarded⟩ := Option.bind_eq_some_iff.mp stepped
      obtain ⟨pending, rfl⟩ := guarded_eq_some.mp guarded
      exact .commit position pending
  | receive request =>
      obtain ⟨iterates, rfl⟩ := guarded_eq_some.mp stepped
      exact .receive iterates
  | requestsEnd =>
      obtain ⟨iterates, rfl⟩ := guarded_eq_some.mp stepped
      exact .requestsEnd iterates
  | requestsFail detail =>
      obtain ⟨iterates, rfl⟩ := guarded_eq_some.mp stepped
      exact .requestsFail iterates
  | waitReturns done =>
      obtain ⟨⟨waits, distinct, among⟩, rfl⟩ := guarded_eq_some.mp stepped
      exact .waitReturns waits distinct among
  | callback =>
      obtain ⟨inactive, rfl⟩ := guarded_eq_some.mp stepped
      exact .callback inactive
  | joinTimesOut =>
      obtain ⟨⟨joins, running⟩, rfl⟩ := guarded_eq_some.mp stepped
      exact .joinTimesOut joins running

/-- In the second branch of `enqueue_sentinel`. -/
def waitsForRoom : ReaderAt → Bool
  | .sentinelPuts | .sentinelRereadsStop | .sentinelRereadsActive | .sentinelSetsStop => true
  | _ => false

/-- The generator will not take from the queue again. -/
def gone : GeneratorAt → Bool
  | .setsStop | .left | .finalizes | .joins | .ended => true
  | _ => false

def full (call : StreamCall) : Bool := decide (call.queue.maxsize ≤ call.queue.items.length)

/-- Only a further take from the full queue can end the loop that the reader is in, and there is
nobody left to take. -/
def stranded (call : StreamCall) : Bool :=
  gone call.generator && waitsForRoom call.reader && call.full

/-- The generator does not leave its loop, because the context is over or because it is dropped,
while the reader waits for room in a full queue. -/
def leavesRoom (call : StreamCall) : StreamEvent → Bool
  | .generator =>
      match call.generator, call.active with
      | .readsActive, false => !(waitsForRoom call.reader && call.full)
      | _, _ => true
  | .close => !(waitsForRoom call.reader && call.full)
  | _ => true

/-- The sentinel is the last thing that the reader does; before that the generator gives up only
when the context is over. -/
structure Ordered (call : StreamCall) : Prop where
  quiet : call.reader ≠ .finished → .sentinel ∉ call.queue.items ∧ call.readerFinished = false
  leaves : gone call.generator = true → call.active = false ∨ call.readerFinished = true

theorem ordered_initial : (initial maxPending).Ordered where
  quiet _ := ⟨by simp [initial, BoundedQueue.create], rfl⟩
  leaves absurdly := by cases absurdly

/-- What the reader changes: its place, the stop event, its errors, the commits, and the queue,
where a sentinel stands only once it is finished. -/
theorem Ordered.reader (ordered : call.Ordered) (unfinished : call.reader ≠ .finished)
    (generator : after.generator = call.generator) (active : after.active = call.active)
    (finished : after.readerFinished = call.readerFinished)
    (queue : after.reader ≠ .finished → ∀ entry ∈ after.queue.items, entry ∈ call.queue.items ∨
      entry ≠ .sentinel) :
    after.Ordered := by
  obtain ⟨absent, unset⟩ := ordered.quiet unfinished
  constructor
  · intro running
    refine ⟨fun member => ?_, finished.trans unset⟩
    rcases queue running _ member with earlier | other
    · exact absent earlier
    · exact other rfl
  · intro left
    rw [active, finished]
    exact ordered.leaves (generator ▸ left)

theorem Ordered.readerStep (ordered : call.Ordered) (stepped : call.readerStep = some after) :
    after.Ordered := by
  have unfinished : call.reader ≠ .finished := by
    intro finished
    simp [StreamCall.readerStep, finished] at stepped
  have same : ∀ entry ∈ call.queue.items, entry ∈ call.queue.items ∨ entry ≠ QueueEntry.sentinel :=
    fun entry member => .inl member
  cases point : call.reader with
  | iterates => simp [StreamCall.readerStep, point] at stepped
  | submits request => simp [StreamCall.readerStep, point] at stepped
  | finished => exact absurd point unfinished
  | setsStop | enqueueSetsStop | sentinelSetsStop =>
      simp only [StreamCall.readerStep, point] at stepped
      cases stepped
      exact ordered.reader unfinished rfl rfl rfl fun _ => same
  | readsStop request | enqueueReadsStop future | enqueueReadsActive future
  | raised detail | sentinelReadsStop
    | sentinelReadsActive | sentinelRereadsStop | sentinelRereadsActive =>
      simp only [StreamCall.readerStep, point] at stepped
      split at stepped <;> cases stepped <;>
        exact ordered.reader unfinished rfl rfl rfl fun _ => same
  | readsActive request =>
      simp only [StreamCall.readerStep, point] at stepped
      split at stepped
      · cases stepped
        exact ordered.reader unfinished rfl rfl rfl fun _ => same
      · split at stepped <;> cases stepped <;>
          exact ordered.reader unfinished rfl rfl rfl fun _ => same
  | enqueuePuts future =>
      simp only [StreamCall.readerStep, point] at stepped
      cases put : call.queue.put? (.future future) with
      | none =>
          rw [put] at stepped
          cases stepped
          exact ordered.reader unfinished rfl rfl rfl fun _ => same
      | some queue =>
          rw [put] at stepped
          cases stepped
          refine ordered.reader unfinished rfl rfl rfl fun _ entry member => ?_
          rw [BoundedQueue.items_of_put put, List.mem_append, List.mem_singleton] at member
          rcases member with earlier | rfl
          · exact .inl earlier
          · exact .inr (by simp)
  | sentinelDrains =>
      simp only [StreamCall.readerStep, point] at stepped
      cases taken : call.queue.get? with
      | none =>
          rw [taken] at stepped
          cases stepped
          exact ordered.reader unfinished rfl rfl rfl fun _ => same
      | some found =>
          obtain ⟨entry, queue⟩ := found
          rw [taken] at stepped
          cases stepped
          refine ordered.reader unfinished rfl rfl rfl fun _ entry member => .inl ?_
          rw [BoundedQueue.items_of_get taken]
          exact List.mem_cons_of_mem _ member
  | sentinelPutsNowait =>
      simp only [StreamCall.readerStep, point] at stepped
      split at stepped <;> cases stepped <;>
        exact ordered.reader unfinished rfl rfl rfl fun running => absurd rfl running
  | sentinelPuts =>
      simp only [StreamCall.readerStep, point] at stepped
      split at stepped <;> cases stepped
      · exact ordered.reader unfinished rfl rfl rfl fun running => absurd rfl running
      · exact ordered.reader unfinished rfl rfl rfl fun _ => same

theorem Ordered.takeEntry {entry : QueueEntry} {queue : BoundedQueue QueueEntry}
    (ordered : call.Ordered)
    (taken : call.queue.get? = some (entry, queue)) : (call.takeEntry queue entry).Ordered := by
  have items := BoundedQueue.items_of_get taken
  cases entry with
  | future index =>
      refine ⟨fun running => ?_, fun left => by cases left⟩
      obtain ⟨absent, unset⟩ := ordered.quiet running
      rw [items, List.mem_cons, not_or] at absent
      exact ⟨absent.2, unset⟩
  | sentinel =>
      refine ⟨fun running => ?_, fun left => by cases left⟩
      exact absurd (by rw [items]; exact List.mem_cons_self) (ordered.quiet running).1

theorem Ordered.generatorStep (ordered : call.Ordered) (stepped : call.generatorStep = some after) :
    after.Ordered := by
  cases point : call.generator with
  | waits | ended => simp [StreamCall.generatorStep, point] at stepped
  | drains =>
      simp only [StreamCall.generatorStep, point] at stepped
      cases taken : call.queue.get? with
      | some found =>
          rw [taken] at stepped
          cases stepped
          exact ordered.takeEntry taken
      | none =>
          rw [taken] at stepped
          dsimp only at stepped
          split at stepped <;> cases stepped
          · rename_i complete
            exact ⟨ordered.quiet, fun _ => .inr complete.2⟩
          · exact ⟨ordered.quiet, fun left => by cases left⟩
  | readsActive =>
      simp only [StreamCall.generatorStep, point] at stepped
      split at stepped
      · rename_i inactive
        cases stepped
        exact ⟨ordered.quiet, fun _ => .inl (by simpa using inactive)⟩
      · split at stepped <;> cases stepped <;> exact ⟨ordered.quiet, fun left => by cases left⟩
  | takes =>
      simp only [StreamCall.generatorStep, point] at stepped
      cases taken : call.queue.get? with
      | some found =>
          rw [taken] at stepped
          cases stepped
          exact ordered.takeEntry taken
      | none =>
          rw [taken] at stepped
          cases stepped
          exact ⟨ordered.quiet, fun left => by cases left⟩
  | yields done =>
      cases done with
      | nil =>
          simp only [StreamCall.generatorStep, point] at stepped
          cases stepped
          exact ⟨ordered.quiet, fun left => by cases left⟩
      | cons future rest =>
          simp only [StreamCall.generatorStep, point, Option.map_eq_some_iff] at stepped
          obtain ⟨result, -, equal⟩ := stepped
          cases equal
          exact ⟨ordered.quiet, fun left => by cases left⟩
  | suspended done =>
      cases done <;> simp only [StreamCall.generatorStep, point] at stepped <;> cases stepped <;>
        exact ⟨ordered.quiet, fun left => by cases left⟩
  | setsStop | left | finalizes =>
      simp only [StreamCall.generatorStep, point] at stepped
      cases stepped
      exact ⟨ordered.quiet, fun _ => ordered.leaves (by rw [point]; rfl)⟩
  | joins =>
      simp only [StreamCall.generatorStep, point] at stepped
      split at stepped <;> cases stepped
      exact ⟨ordered.quiet, fun _ => ordered.leaves (by rw [point]; rfl)⟩

theorem Ordered.step (ordered : call.Ordered) (stepped : call.step blake3 event = some after) :
    after.Ordered := by
  have moves : ∀ {place : ReaderAt}, call.reader = place → place ≠ .finished →
      call.reader ≠ .finished := fun found running finished => running (found.symm.trans finished)
  have same : ∀ entry ∈ call.queue.items, entry ∈ call.queue.items ∨ entry ≠ QueueEntry.sentinel :=
    fun entry member => .inl member
  cases step_cases stepped with
  | receive iterates | requestsEnd iterates | requestsFail iterates =>
      exact ordered.reader (moves iterates (by simp)) rfl rfl rfl fun _ => same
  | scheduled submits | refused submits =>
      exact ordered.reader (moves submits (by simp)) rfl rfl rfl fun _ => same
  | reader stepped => exact ordered.readerStep stepped
  | commit | callback => exact ⟨ordered.quiet, ordered.leaves⟩
  | generator stepped => exact ordered.generatorStep stepped
  | waitReturns => exact ⟨ordered.quiet, fun left => by cases left⟩
  | contextEnds => exact ⟨ordered.quiet, fun _ => .inl rfl⟩
  | close inactive => exact ⟨ordered.quiet, fun _ => .inl inactive⟩
  | joinTimesOut joins =>
      exact ⟨ordered.quiet, fun _ => ordered.leaves (by rw [joins]; rfl)⟩

theorem free_of_same (free : call.stranded = false)
    (generator : gone after.generator = gone call.generator)
    (reader : waitsForRoom after.reader = waitsForRoom call.reader)
    (queue : after.queue = call.queue) :
    after.stranded = false := by
  have same : after.stranded = call.stranded := by
    simp only [stranded, full, generator, reader, queue]
  exact same.trans free

theorem stranded_of_moving (moves : waitsForRoom call.reader = false) : call.stranded = false := by
  simp [stranded, moves]

theorem stranded_of_staying (stays : gone call.generator = false) : call.stranded = false := by
  simp [stranded, stays]

/-- The reader does not strand itself: while the context is active the generator has not given
up. -/
theorem Ordered.readerStep_stranded (ordered : call.Ordered)
    (stepped : call.readerStep = some after)
    (free : call.stranded = false) : after.stranded = false := by
  cases point : call.reader with
  | iterates => simp [StreamCall.readerStep, point] at stepped
  | submits request => simp [StreamCall.readerStep, point] at stepped
  | finished => simp [StreamCall.readerStep, point] at stepped
  | setsStop | enqueueSetsStop =>
      simp only [StreamCall.readerStep, point] at stepped
      cases stepped
      exact stranded_of_moving rfl
  | readsStop request | enqueueReadsStop future | enqueueReadsActive future
  | raised detail | sentinelReadsStop
    | enqueuePuts future | sentinelDrains | sentinelPutsNowait =>
      simp only [StreamCall.readerStep, point] at stepped
      split at stepped <;> cases stepped <;> exact stranded_of_moving rfl
  | readsActive request =>
      simp only [StreamCall.readerStep, point] at stepped
      split at stepped
      · cases stepped
        exact stranded_of_moving rfl
      · split at stepped <;> cases stepped <;> exact stranded_of_moving rfl
  | sentinelReadsActive =>
      simp only [StreamCall.readerStep, point] at stepped
      split at stepped <;> cases stepped
      · rename_i active
        refine stranded_of_staying ?_
        cases left : gone call.generator with
        | false => rfl
        | true =>
            have unset := (ordered.quiet (by rw [point]; simp)).2
            rcases ordered.leaves left with inactive | set
            · rw [inactive] at active
              cases active
            · rw [unset] at set
              cases set
      · exact stranded_of_moving rfl
  | sentinelPuts =>
      simp only [StreamCall.readerStep, point] at stepped
      split at stepped <;> cases stepped
      · exact stranded_of_moving rfl
      · exact free_of_same free rfl (by rw [point]; rfl) rfl
  | sentinelRereadsStop | sentinelRereadsActive =>
      simp only [StreamCall.readerStep, point] at stepped
      split at stepped <;> cases stepped <;> exact free_of_same free rfl (by rw [point]; rfl) rfl
  | sentinelSetsStop =>
      simp only [StreamCall.readerStep, point] at stepped
      cases stepped
      exact free_of_same free rfl (by rw [point]; rfl) rfl

theorem Ordered.generatorStep_stranded (ordered : call.Ordered)
    (stepped : call.generatorStep = some after)
    (free : call.stranded = false) : after.stranded = !call.leavesRoom .generator := by
  cases point : call.generator with
  | waits | ended => simp [StreamCall.generatorStep, point] at stepped
  | drains =>
      simp only [StreamCall.generatorStep, point] at stepped
      simp only [leavesRoom, point, Bool.not_true]
      cases taken : call.queue.get? with
      | some found =>
          rw [taken] at stepped
          cases stepped
          cases found.1 <;> exact stranded_of_staying rfl
      | none =>
          rw [taken] at stepped
          dsimp only at stepped
          split at stepped <;> cases stepped
          · rename_i complete
            refine stranded_of_moving ?_
            cases reader : call.reader with
            | finished => rfl
            | _ =>
                have unset := (ordered.quiet (by rw [reader]; simp)).2
                rw [complete.2] at unset
                cases unset
          · exact stranded_of_staying rfl
  | readsActive =>
      simp only [StreamCall.generatorStep, point] at stepped
      split at stepped
      · rename_i inactive
        cases stepped
        rw [Bool.not_eq_true'] at inactive
        simp only [leavesRoom, point, inactive, Bool.not_not, stranded, gone, Bool.true_and]
        rfl
      · rename_i active
        rw [Bool.not_eq_true', Bool.not_eq_false] at active
        simp only [leavesRoom, point, active, Bool.not_true]
        split at stepped <;> cases stepped <;> exact stranded_of_staying rfl
  | takes =>
      simp only [StreamCall.generatorStep, point] at stepped
      simp only [leavesRoom, point, Bool.not_true]
      cases taken : call.queue.get? with
      | some found =>
          rw [taken] at stepped
          cases stepped
          cases found.1 <;> exact stranded_of_staying rfl
      | none =>
          rw [taken] at stepped
          cases stepped
          exact stranded_of_staying rfl
  | yields done =>
      simp only [leavesRoom, point, Bool.not_true]
      cases done with
      | nil =>
          simp only [StreamCall.generatorStep, point] at stepped
          cases stepped
          exact stranded_of_staying rfl
      | cons future rest =>
          simp only [StreamCall.generatorStep, point, Option.map_eq_some_iff] at stepped
          obtain ⟨result, -, equal⟩ := stepped
          cases equal
          exact stranded_of_staying rfl
  | suspended done =>
      simp only [leavesRoom, point, Bool.not_true]
      cases done <;> simp only [StreamCall.generatorStep, point] at stepped <;> cases stepped <;>
        exact stranded_of_staying rfl
  | setsStop | left | finalizes =>
      simp only [StreamCall.generatorStep, point] at stepped
      simp only [leavesRoom, point, Bool.not_true]
      cases stepped
      exact free_of_same free (by rw [point]; rfl) rfl rfl
  | joins =>
      simp only [StreamCall.generatorStep, point] at stepped
      simp only [leavesRoom, point, Bool.not_true]
      split at stepped <;> cases stepped
      exact free_of_same free (by rw [point]; rfl) rfl rfl

/-- A step strands the reader exactly when it is the generator that does not leave it room. -/
theorem Ordered.step_stranded (ordered : call.Ordered)
    (stepped : call.step blake3 event = some after)
    (free : call.stranded = false) : after.stranded = !call.leavesRoom event := by
  cases step_cases stepped with
  | receive | requestsEnd | requestsFail | scheduled | refused => exact stranded_of_moving rfl
  | reader stepped => exact ordered.readerStep_stranded stepped free
  | commit | contextEnds | callback => exact free_of_same free rfl rfl rfl
  | generator stepped => exact ordered.generatorStep_stranded stepped free
  | waitReturns => exact stranded_of_staying rfl
  | close =>
      simp only [leavesRoom, Bool.not_not, stranded, gone, Bool.true_and]
      rfl
  | joinTimesOut joins => exact free_of_same free (by rw [joins]; rfl) rfl rfl

/-- In the queue, the place of the generator and the place of the reader nothing moves any more. -/
theorem stranded_step (stuck : call.stranded = true)
    (stepped : call.step blake3 event = some after) :
    after.stranded = true := by
  simp only [stranded, Bool.and_eq_true] at stuck
  obtain ⟨⟨left, waits⟩, packed⟩ := stuck
  have refused : call.queue.put? .sentinel = none := by
    rw [BoundedQueue.put_eq_none_iff]
    simpa [full] using packed
  have kept : ∀ {other : StreamCall}, gone other.generator = true →
      waitsForRoom other.reader = true → other.queue = call.queue → other.stranded = true := by
    intro other gone waiting queue
    simp only [stranded, gone, waiting, Bool.true_and, full, queue]
    exact packed
  have still : ∀ {place : ReaderAt}, call.reader = place → waitsForRoom place = true :=
    fun found => found ▸ waits
  cases step_cases stepped with
  | receive iterates | requestsEnd iterates | requestsFail iterates => cases still iterates
  | scheduled submits | refused submits => cases still submits
  | commit | contextEnds | callback => exact kept left waits rfl
  | close | joinTimesOut => exact kept rfl waits rfl
  | waitReturns found =>
      rw [found] at left
      cases left
  | reader stepped =>
      cases point : call.reader with
      | sentinelPuts =>
          simp only [StreamCall.readerStep, point, refused] at stepped
          cases stepped
          exact kept left rfl rfl
      | sentinelRereadsStop | sentinelRereadsActive =>
          simp only [StreamCall.readerStep, point] at stepped
          split at stepped <;> cases stepped <;> exact kept left rfl rfl
      | sentinelSetsStop =>
          simp only [StreamCall.readerStep, point] at stepped
          cases stepped
          exact kept left rfl rfl
      | _ => cases still point
  | generator stepped =>
      cases point : call.generator with
      | setsStop | left | finalizes =>
          simp only [StreamCall.generatorStep, point] at stepped
          cases stepped
          exact kept rfl waits rfl
      | joins =>
          simp only [StreamCall.generatorStep, point] at stepped
          split at stepped <;> cases stepped
          exact kept rfl waits rfl
      | ended => simp [StreamCall.generatorStep, point] at stepped
      | _ =>
          rw [point] at left
          cases left

/-- A stranded reader never finishes. -/
theorem stranded_forever {events : List StreamEvent} (stuck : call.stranded = true)
    (ran : runEvents (step blake3) call events = some after) : after.reader ≠ .finished := by
  have still : after.stranded = true :=
    runEvents_preserves (fun call => call.stranded = true)
      (fun _ _ _ stuck stepped => stranded_step stuck stepped)
      stuck ran
  intro finished
  rw [stranded, finished] at still
  simp [waitsForRoom] at still

/-- The reader is stranded in no state of a run exactly when the generator never leaves its loop
early while the reader, past the check for a cancellation, waits to put the sentinel into a full
queue. -/
theorem reader_canStop_iff {events : List StreamEvent}
    (ran : runEvents (step blake3) (initial maxPending) events = some call) :
    (∀ earlier later reached, events = earlier ++ later →
      runEvents (step blake3) (initial maxPending) earlier = some reached →
        reached.stranded = false) ↔
    EventsMeet (step blake3) (fun call event => call.leavesRoom event = true)
      (initial maxPending) events := by
  refine safeAlong_iff_eventsMeet Ordered
    (fun call => call.stranded = false) ?_ ?_ ordered_initial rfl ran
  · intro state event next ordered stepped
    exact ordered.step stepped
  · intro state event next ordered free stepped
    rw [ordered.step_stranded stepped free, Bool.not_eq_false']

def oneChunk : ReplicateChunkRequest where
  chunkHash := ['a']
  chunkData := []

/-- The client sends one chunk and half-closes, the generator has seen the queue empty, and the
reader fills the queue and is past its check when the client cancels. -/
def cancelledStream : List StreamEvent :=
  [.receive oneChunk, .reader, .reader, .submit .scheduled, .reader, .reader, .generator,
    .reader, .requestsEnd, .reader, .reader, .contextEnds, .generator]

theorem reader_cannotStop : ¬ ∀ (maxPending : Int) (events : List StreamEvent) (call : StreamCall),
    runEvents (step (.ofTable [])) (initial maxPending) events = some call →
      call.stranded = false := by
  intro always
  have ends : (runEvents (step (.ofTable [])) (initial 1) cancelledStream).map stranded =
      some true := by decide
  obtain ⟨call, ran, stuck⟩ := Option.map_eq_some_iff.mp ends
  rw [always 1 cancelledStream call ran] at stuck
  cases stuck

/-- The generator takes the future before the reader comes to the sentinel. -/
def answeredStream : List StreamEvent :=
  [.receive oneChunk, .reader, .reader, .submit .scheduled, .reader, .reader, .reader,
    .generator, .requestsEnd,
    .reader, .reader, .reader, .commit 0 ⟨true, .corrupt, .ok true⟩, .generator,
    .generator, .generator,
    .waitReturns [0], .generator, .generator, .generator, .generator, .generator, .generator]

theorem answeredStream_canStop :
    ∃ call, runEvents (step (.ofTable [])) (initial 1) answeredStream = some call ∧
    call.reader = .finished ∧ ∀ earlier later reached, answeredStream = earlier ++ later →
      runEvents (step (.ofTable [])) (initial 1) earlier = some reached →
        reached.stranded = false := by
  have ends : (runEvents (step (.ofTable [])) (initial 1) answeredStream).map StreamCall.reader =
      some .finished := by
    decide
  obtain ⟨call, ran, finished⟩ := Option.map_eq_some_iff.mp ends
  have checked : checkEvents (step (.ofTable [])) leavesRoom (initial 1) answeredStream = true := by
    decide
  exact ⟨call, ran, finished, (reader_canStop_iff ran).mpr (eventsMeet_of_checkEvents checked)⟩

/-- The future that the reader has still to hand over. -/
def hand : ReaderAt → List Nat
  | .enqueueReadsStop future | .enqueueReadsActive future | .enqueuePuts future => [future]
  | _ => []

/-- The completed futures that the generator has still to answer. -/
def unanswered : GeneratorAt → List Nat
  | .yields done | .suspended done => done
  | _ => []

def queued (call : StreamCall) : List Nat := call.queue.items.filterMap QueueEntry.future?

/-- Not in a branch that is only taken after a cancellation. -/
def undisturbed : ReaderAt → Bool
  | .setsStop | .enqueueSetsStop | .sentinelDrains | .sentinelPutsNowait
  | .sentinelSetsStop => false
  | _ => true

def isFinished : ReaderAt → Bool
  | .finished => true
  | _ => false

/-- Where the sentinel is: not yet put, after every future, or taken. -/
inductive SentinelAt : Bool → Bool → List QueueEntry → Prop where
  | reading (futures : List Nat) : SentinelAt false false (futures.map .future)
  | queued (futures : List Nat) : SentinelAt true false (futures.map .future ++ [.sentinel])
  | taken : SentinelAt true true []

/-- The futures of the call are in the hand of the reader, queued, in flight, about to be answered
or answered, each in one of these places. -/
structure Flowing (call : StreamCall) : Prop where
  active : call.active = true
  unstopped : gone call.generator = false → call.stopEvent = false
  generator : call.generator ≠ .setsStop
  reader : undisturbed call.reader = true
  complete : gone call.generator = true → call.readerFinished = true ∧ call.inflight = []
  sentinel : SentinelAt (isFinished call.reader) call.readerFinished call.queue.items
  counted : ∀ future, (List.range call.commits.length).count future =
    (hand call.reader).count future + call.queued.count future + call.inflight.count future +
      (unanswered call.generator).count future + (call.yielded.map Prod.fst).count future
  resolved : ∀ pair ∈ call.yielded, call.result? pair.1 = some pair.2

theorem flowing_initial : (initial maxPending).Flowing where
  active := rfl
  unstopped _ := rfl
  generator := by simp [initial]
  reader := rfl
  complete absurdly := by cases absurdly
  sentinel := .reading []
  counted _ := rfl
  resolved := by simp [initial]

theorem Flowing.unfinished (flowing : call.Flowing) (running : isFinished call.reader = false) :
    call.readerFinished = false ∧ gone call.generator = false ∧ call.stopEvent = false := by
  have unset : call.readerFinished = false := by
    have sentinel := flowing.sentinel
    rw [running] at sentinel
    generalize call.queue.items = items at sentinel
    generalize call.readerFinished = finished at sentinel ⊢
    cases sentinel
    rfl
  have looping : gone call.generator = false := by
    cases left : gone call.generator with
    | false => rfl
    | true =>
        rw [(flowing.complete left).1] at unset
        cases unset
  exact ⟨unset, looping, flowing.unstopped looping⟩

theorem SentinelAt.put {finished : Bool} {items : List QueueEntry}
    (sentinel : SentinelAt false finished items)
    (future : Nat) : SentinelAt false finished (items ++ [.future future]) := by
  cases sentinel with
  | reading futures => simpa using SentinelAt.reading (futures ++ [future])

theorem SentinelAt.finish {finished : Bool} {items : List QueueEntry}
    (sentinel : SentinelAt false finished items) :
    SentinelAt true finished (items ++ [.sentinel]) := by
  cases sentinel with
  | reading futures => exact .queued futures

theorem SentinelAt.takeFuture {reader finished : Bool} {future : Nat} {rest : List QueueEntry}
    (sentinel : SentinelAt reader finished (.future future :: rest)) :
    SentinelAt reader finished rest := by
  generalize items : QueueEntry.future future :: rest = queue at sentinel
  cases sentinel with
  | reading futures =>
      cases futures with
      | nil => cases items
      | cons first later =>
          cases items
          exact .reading later
  | queued futures =>
      cases futures with
      | nil => cases items
      | cons first later =>
          cases items
          exact .queued later
  | taken => cases items

theorem SentinelAt.take {reader finished : Bool} {rest : List QueueEntry}
    (sentinel : SentinelAt reader finished (.sentinel :: rest)) : SentinelAt reader true rest := by
  generalize items : QueueEntry.sentinel :: rest = queue at sentinel
  cases sentinel with
  | reading futures => cases futures <;> cases items
  | queued futures =>
      cases futures with
      | nil =>
          cases items
          exact .taken
      | cons first later => cases items
  | taken => cases items

/-- The reader goes on to another place, with nothing handed over. -/
theorem Flowing.moveReader {place : ReaderAt} {errors : List String}
    {received : List ReplicateChunkRequest} (flowing : call.Flowing)
    (reader : undisturbed place = true) (finished : isFinished place = isFinished call.reader)
    (held : hand place = hand call.reader) :
    Flowing { call with reader := place, readerErrors := errors, received } :=
  { flowing with
    reader := reader
    sentinel := by
      rw [finished]
      exact flowing.sentinel
    counted := by
      rw [held]
      exact flowing.counted }

theorem queued_of_put {entry : QueueEntry} {queue : BoundedQueue QueueEntry}
    (put : call.queue.put? entry = some queue) :
    queue.items.filterMap QueueEntry.future? = call.queued ++ entry.future?.toList :=
  BoundedQueue.filterMap_of_put QueueEntry.future? put

theorem queued_of_get {entry : QueueEntry} {queue : BoundedQueue QueueEntry}
    (taken : call.queue.get? = some (entry, queue)) :
    call.queued = entry.future?.toList ++ queue.items.filterMap QueueEntry.future? :=
  BoundedQueue.filterMap_of_get QueueEntry.future? taken

theorem Flowing.readerStep (flowing : call.Flowing) (stepped : call.readerStep = some after) :
    after.Flowing := by
  cases point : call.reader with
  | iterates => simp [StreamCall.readerStep, point] at stepped
  | submits request => simp [StreamCall.readerStep, point] at stepped
  | finished => simp [StreamCall.readerStep, point] at stepped
  | setsStop | enqueueSetsStop | sentinelDrains | sentinelPutsNowait | sentinelSetsStop =>
      have reader := flowing.reader
      rw [point] at reader
      cases reader
  | readsStop request | enqueueReadsStop future | raised detail | sentinelReadsStop
  | sentinelRereadsStop =>
      obtain ⟨-, -, unstopped⟩ := flowing.unfinished (by rw [point]; rfl)
      simp only [StreamCall.readerStep, point] at stepped
      rw [if_neg (by rw [unstopped]; decide)] at stepped
      cases stepped
      exact flowing.moveReader rfl (by rw [point]; rfl) (by rw [point]; rfl)
  | readsActive request =>
      simp only [StreamCall.readerStep, point] at stepped
      rw [if_neg (by rw [flowing.active]; decide)] at stepped
      split at stepped <;> cases stepped <;>
        exact flowing.moveReader rfl (by rw [point]; rfl) (by rw [point]; rfl)
  | enqueueReadsActive future | sentinelReadsActive | sentinelRereadsActive =>
      simp only [StreamCall.readerStep, point] at stepped
      rw [if_pos flowing.active] at stepped
      cases stepped
      exact flowing.moveReader rfl (by rw [point]; rfl) (by rw [point]; rfl)
  | enqueuePuts future =>
      simp only [StreamCall.readerStep, point] at stepped
      cases put : call.queue.put? (.future future) with
      | none =>
          rw [put] at stepped
          cases stepped
          exact flowing.moveReader rfl (by rw [point]; rfl) (by rw [point]; rfl)
      | some queue =>
          rw [put] at stepped
          cases stepped
          have sentinel := flowing.sentinel
          rw [point] at sentinel
          refine { flowing with reader := rfl, sentinel := ?_, counted := ?_ }
          · rw [BoundedQueue.items_of_put put]
            exact sentinel.put future
          · intro other
            have counted := flowing.counted other
            have joined : queued { call with queue } = call.queued ++ [future] := queued_of_put put
            simp only [queued] at joined
            simp only [point, hand, queued, joined, List.count_append, List.count_nil] at counted ⊢
            omega
  | sentinelPuts =>
      simp only [StreamCall.readerStep, point] at stepped
      cases put : call.queue.put? .sentinel with
      | none =>
          rw [put] at stepped
          cases stepped
          exact flowing.moveReader rfl (by rw [point]; rfl) (by rw [point]; rfl)
      | some queue =>
          rw [put] at stepped
          cases stepped
          have sentinel := flowing.sentinel
          rw [point] at sentinel
          refine { flowing with reader := rfl, sentinel := ?_, counted := ?_ }
          · rw [BoundedQueue.items_of_put put]
            exact sentinel.finish
          · intro other
            have counted := flowing.counted other
            have joined : queued { call with queue } = call.queued ++ [] := queued_of_put put
            simp only [queued, List.append_nil] at joined
            simp only [point, hand, queued, joined] at counted ⊢
            exact counted

theorem Flowing.takeEntry {entry : QueueEntry} {queue : BoundedQueue QueueEntry}
    (flowing : call.Flowing)
    (looping : gone call.generator = false) (idle : unanswered call.generator = [])
    (taken : call.queue.get? = some (entry, queue)) : (call.takeEntry queue entry).Flowing := by
  have left := queued_of_get taken
  have sentinel := flowing.sentinel
  have unstopped := flowing.unstopped looping
  rw [BoundedQueue.items_of_get taken] at sentinel
  cases entry with
  | future index =>
      refine { flowing with
        unstopped := fun _ => unstopped, generator := by
          simp [StreamCall.takeEntry], sentinel := sentinel.takeFuture
        complete := fun left => by cases left
        counted := ?_ }
      intro other
      have counted := flowing.counted other
      rw [left, idle] at counted
      simp only [StreamCall.takeEntry, queued, unanswered, QueueEntry.future?,
        Option.toList_some, List.count_append, List.count_nil] at counted ⊢
      omega
  | sentinel =>
      refine { flowing with
        unstopped := fun _ => unstopped, generator := by
          simp [StreamCall.takeEntry], sentinel := sentinel.take
        complete := fun left => by cases left
        counted := ?_ }
      intro other
      have counted := flowing.counted other
      rw [left, idle] at counted
      simp only [StreamCall.takeEntry, queued, unanswered, QueueEntry.future?,
        Option.toList_none, List.nil_append]
        at counted ⊢
      exact counted

theorem Flowing.generatorStep (flowing : call.Flowing) (stepped : call.generatorStep = some after) :
    after.Flowing := by
  have counted := flowing.counted
  cases point : call.generator with
  | waits | ended => simp [StreamCall.generatorStep, point] at stepped
  | setsStop => exact absurd point flowing.generator
  | drains =>
      have unstopped := flowing.unstopped (by rw [point]; rfl)
      simp only [StreamCall.generatorStep, point] at stepped
      rw [point] at counted
      cases taken : call.queue.get? with
      | some found =>
          rw [taken] at stepped
          cases stepped
          exact flowing.takeEntry (by rw [point]; rfl) (by rw [point]; rfl) taken
      | none =>
          rw [taken] at stepped
          dsimp only at stepped
          split at stepped <;> cases stepped
          · rename_i complete
            exact { flowing with
              unstopped := fun _ => unstopped, generator := by
                simp, complete := fun _ => ⟨complete.2, complete.1⟩
              counted := counted }
          · exact { flowing with
              unstopped := fun _ => unstopped, generator := by
                simp, complete := fun left => by cases left
              counted := counted }
  | readsActive =>
      have unstopped := flowing.unstopped (by rw [point]; rfl)
      simp only [StreamCall.generatorStep, point] at stepped
      rw [point] at counted
      rw [if_neg (by rw [flowing.active]; decide)] at stepped
      split at stepped <;> cases stepped <;>
        exact { flowing with
          unstopped := fun _ => unstopped, generator := by
            simp, complete := fun left => by cases left
          counted := counted }
  | takes =>
      have unstopped := flowing.unstopped (by rw [point]; rfl)
      simp only [StreamCall.generatorStep, point] at stepped
      rw [point] at counted
      cases taken : call.queue.get? with
      | some found =>
          rw [taken] at stepped
          cases stepped
          exact flowing.takeEntry (by rw [point]; rfl) (by rw [point]; rfl) taken
      | none =>
          rw [taken] at stepped
          cases stepped
          exact { flowing with
            unstopped := fun _ => unstopped, generator := by
              simp, complete := fun left => by cases left
            counted := counted }
  | yields done =>
      have unstopped := flowing.unstopped (by rw [point]; rfl)
      rw [point] at counted
      cases done with
      | nil =>
          simp only [StreamCall.generatorStep, point] at stepped
          cases stepped
          exact { flowing with
            unstopped := fun _ => unstopped, generator := by
              simp, complete := fun left => by cases left
            counted := counted }
      | cons future rest =>
          simp only [StreamCall.generatorStep, point, Option.map_eq_some_iff] at stepped
          obtain ⟨result, completed, equal⟩ := stepped
          cases equal
          refine { flowing with
            unstopped := fun _ => unstopped, generator := by
              simp, complete := fun left => by cases left
            counted := ?_, resolved := ?_ }
          · intro other
            have before := counted other
            simp only [unanswered, List.map_append, List.map_cons, List.map_nil,
              List.count_append, List.count_cons, List.count_nil, queued] at before ⊢
            omega
          · intro pair member
            rcases List.mem_append.mp member with earlier | last
            · exact flowing.resolved pair earlier
            · rw [List.mem_singleton.mp last]
              exact completed
  | suspended done =>
      have unstopped := flowing.unstopped (by rw [point]; rfl)
      rw [point] at counted
      cases done <;> simp only [StreamCall.generatorStep, point] at stepped <;> cases stepped <;>
        exact { flowing with
          unstopped := fun _ => unstopped, generator := by
            simp, complete := fun left => by cases left
          counted := counted }
  | left | finalizes =>
      have complete := flowing.complete (by rw [point]; rfl)
      simp only [StreamCall.generatorStep, point] at stepped
      rw [point] at counted
      cases stepped
      exact { flowing with
        unstopped := fun looping => by cases looping
        generator := by simp, complete := fun _ => complete, counted := counted }
  | joins =>
      have complete := flowing.complete (by rw [point]; rfl)
      simp only [StreamCall.generatorStep, point] at stepped
      rw [point] at counted
      split at stepped <;> cases stepped
      exact { flowing with
        unstopped := fun looping => by cases looping
        generator := by simp, complete := fun _ => complete, counted := counted }

theorem result_of_append {commit : Commit} {index : Nat} {result : StorageCommitResult}
    (found : call.result? index = some result) :
    result? { call with commits := call.commits ++ [commit] } index = some result := by
  simp only [result?, Option.bind_eq_some_iff] at found ⊢
  obtain ⟨older, position, completed⟩ := found
  exact ⟨older, List.getElem?_append_left (List.getElem?_eq_some_iff.mp position).1 ▸ position,
    completed⟩

theorem result_of_set {index completed : Nat} {commit new : Commit} {result : StorageCommitResult}
    (position : call.commits[completed]? = some commit) (pending : commit.result = none)
    (found : call.result? index = some result) :
    result? { call with commits := call.commits.set completed new } index = some result := by
  simp only [result?, Option.bind_eq_some_iff] at found ⊢
  obtain ⟨older, place, done⟩ := found
  have other : completed ≠ index := by
    rintro rfl
    rw [position, Option.some.injEq] at place
    rw [place, done] at pending
    cases pending
  exact ⟨older, (List.getElem?_set_ne other).trans place, done⟩

/-- The completed futures leave the flight, each once. -/
theorem count_filter_done {inflight done : List Nat} (distinct : inflight.Nodup)
    (doneDistinct : done.Nodup) (among : ∀ index ∈ done, index ∈ inflight) (future : Nat) :
    inflight.count future = (inflight.filter fun index => !done.contains index).count future +
      done.count future := by
  by_cases member : future ∈ done
  · have absent : future ∉ inflight.filter fun index => !done.contains index := by simp [member]
    rw [List.count_eq_one_of_mem distinct (among future member),
      List.count_eq_zero_of_not_mem absent, List.count_eq_one_of_mem doneDistinct member]
  · rw [List.count_filter (by simp [member]), List.count_eq_zero_of_not_mem member, Nat.add_zero]

theorem Flowing.nodup_inflight (flowing : call.Flowing) : call.inflight.Nodup := by
  rw [List.nodup_iff_count_le_one]
  intro future
  have counted := flowing.counted future
  have once := List.nodup_iff_count_le_one.mp (List.nodup_range (n := call.commits.length)) future
  omega

theorem Flowing.step (flowing : call.Flowing) (other : event ≠ .contextEnds)
    (stepped : call.step blake3 event = some after) : after.Flowing := by
  cases step_cases stepped with
  | receive iterates | requestsEnd iterates | requestsFail iterates =>
      exact flowing.moveReader rfl (by rw [iterates]; rfl) (by rw [iterates]; rfl)
  | scheduled submits =>
      have sentinel := flowing.sentinel
      rw [submits] at sentinel
      refine { flowing with reader := rfl, sentinel := sentinel,
                            counted := ?_, resolved := ?_ }
      · intro future
        have counted := flowing.counted future
        simp only [submits, hand, queued, List.length_append, List.length_singleton,
          List.range_succ, List.count_append, List.count_nil] at counted ⊢
        omega
      · intro pair member
        exact result_of_append (flowing.resolved pair member)
  | refused submits =>
      exact flowing.moveReader rfl (by rw [submits]; rfl) (by rw [submits]; rfl)
  | reader stepped => exact flowing.readerStep stepped
  | commit position pending =>
      refine { flowing with counted := ?_, resolved := ?_ }
      · intro future
        rw [List.length_set]
        exact flowing.counted future
      · intro pair member
        exact result_of_set position pending (flowing.resolved pair member)
  | generator stepped => exact flowing.generatorStep stepped
  | waitReturns waits distinct among =>
      have unstopped := flowing.unstopped (by rw [waits]; rfl)
      refine { flowing with
        unstopped := fun _ => unstopped, generator := by simp, complete := fun left => by cases left
        counted := ?_ }
      intro future
      have counted := flowing.counted future
      have parted := count_filter_done flowing.nodup_inflight distinct
        (fun index member => (among index member).1) future
      simp only [waits, unanswered, queued, List.count_nil] at counted ⊢
      omega
  | contextEnds => exact absurd rfl other
  | callback inactive | close inactive =>
      rw [flowing.active] at inactive
      cases inactive
  | joinTimesOut joins =>
      have counted := flowing.counted
      rw [joins] at counted
      exact { flowing with
        unstopped := fun looping => by cases looping
        generator := by simp
        complete := fun _ => flowing.complete (by rw [joins]; rfl)
        counted := counted }

theorem processOne_chunkHash (context : CommitContext) (request : ReplicateChunkRequest) :
    (processOne blake3 context request).chunkHash = request.chunkHash := by
  simp only [processOne]
  split
  · rfl
  split
  · rfl
  split
  · rfl
  · rfl
  split
  · rfl
  split <;> rfl

theorem takeEntry_frame (queue : BoundedQueue QueueEntry) (entry : QueueEntry) :
    (call.takeEntry queue entry).commits = call.commits ∧
      (call.takeEntry queue entry).reader = call.reader ∧
      (call.takeEntry queue entry).received = call.received := by
  cases entry <;> exact ⟨rfl, rfl, rfl⟩

/-- The generator leaves the commits, the requests and the place of the reader alone. -/
theorem generatorStep_frame (stepped : call.generatorStep = some after) :
    after.commits = call.commits ∧ after.reader = call.reader ∧ after.received = call.received := by
  revert stepped
  fun_cases generatorStep <;> intro stepped <;> grind [takeEntry_frame, Option.map_eq_some_iff]

theorem readerStep_frame (stepped : call.readerStep = some after) :
    after.commits = call.commits ∧ after.received = call.received := by
  revert stepped
  fun_cases readerStep <;> intro stepped <;> grind

/-- The result of a commit is about the chunk that was submitted. -/
def Answering (call : StreamCall) : Prop :=
  ∀ commit ∈ call.commits, ∀ result, commit.result = some result →
    result.chunkHash = commit.request.chunkHash

theorem Answering.step (answering : call.Answering)
    (stepped : call.step blake3 event = some after) :
    after.Answering := by
  cases step_cases stepped with
  | receive | requestsEnd | requestsFail | refused | waitReturns | contextEnds | callback | close
  | joinTimesOut => exact answering
  | scheduled =>
      intro commit member result completed
      rcases List.mem_append.mp member with earlier | last
      · exact answering commit earlier result completed
      · rw [List.mem_singleton.mp last] at completed
        cases completed
  | reader stepped =>
      rw [Answering, (readerStep_frame stepped).1]
      exact answering
  | commit =>
      intro other member result completed
      rcases List.mem_or_eq_of_mem_set member with earlier | rfl
      · exact answering other earlier result completed
      · cases completed
        exact processOne_chunkHash _ _
  | generator stepped =>
      rw [Answering, (generatorStep_frame stepped).1]
      exact answering

/-- The request that the reader has received and not submitted yet. -/
def carried : ReaderAt → List ReplicateChunkRequest
  | .readsStop request | .readsActive request | .submits request => [request]
  | _ => []

def hasHash (request : ReplicateChunkRequest) : Bool := !request.chunkHash.isEmpty

/-- What has been received is submitted, in order, but for the requests without a hash. -/
structure Submitting (call : StreamCall) : Prop where
  requests : call.commits.map Commit.request ++ (carried call.reader).filter hasHash =
    call.received.filter hasHash
  proper : ∀ request, call.reader = .submits request → hasHash request = true

theorem submitting_initial : (initial maxPending).Submitting where
  requests := rfl
  proper request submits := by cases submits

theorem Submitting.readerStep (submitting : call.Submitting) (flowing : call.Flowing)
    (stepped : call.readerStep = some after) : after.Submitting := by
  obtain ⟨commits, received⟩ := readerStep_frame stepped
  have requests := submitting.requests
  cases point : call.reader with
  | readsStop request =>
      obtain ⟨-, -, unstopped⟩ := flowing.unfinished (by rw [point]; rfl)
      simp only [StreamCall.readerStep, point] at stepped
      rw [if_neg (by rw [unstopped]; decide)] at stepped
      rw [point] at requests
      cases stepped
      exact ⟨requests, fun other submits => by cases submits⟩
  | readsActive request =>
      simp only [StreamCall.readerStep, point] at stepped
      rw [if_neg (by rw [flowing.active]; decide)] at stepped
      rw [point] at requests
      split at stepped
      · rename_i empty
        cases stepped
        refine ⟨?_, fun other submits => by cases submits⟩
        simpa [carried, hasHash, empty] using requests
      · rename_i named
        cases stepped
        refine ⟨requests, fun other submits => ?_⟩
        cases submits
        simpa [hasHash] using named
  | iterates | submits request | finished => simp [StreamCall.readerStep, point] at stepped
  | _ =>
      have places : carried after.reader = [] ∧ ∀ request, after.reader ≠ .submits request := by
        simp only [StreamCall.readerStep, point] at stepped
        grind [carried]
      rw [point] at requests
      refine ⟨?_, fun other submits => absurd submits (places.2 other)⟩
      rw [commits, received, places.1]
      exact requests

theorem Submitting.step (submitting : call.Submitting) (flowing : call.Flowing)
    (other : event ≠ .contextEnds)
    (scheduled : ∀ submission, event = .submit submission → submission = .scheduled)
    (stepped : call.step blake3 event = some after) : after.Submitting := by
  have requests := submitting.requests
  cases step_cases stepped with
  | receive iterates =>
      rw [iterates] at requests
      refine ⟨?_, fun other submits => by cases submits⟩
      rw [List.filter_append, ← requests]
      simp [carried]
  | requestsEnd iterates | requestsFail iterates =>
      rw [iterates] at requests
      exact ⟨requests, fun other submits => by cases submits⟩
  | @scheduled request submits =>
      have named := submitting.proper request submits
      rw [submits] at requests
      refine ⟨?_, fun other submits => by cases submits⟩
      simpa [carried, named] using requests
  | refused _ failed => exact absurd (scheduled _ rfl) failed
  | reader stepped => exact submitting.readerStep flowing stepped
  | @commit index context commit position =>
      refine ⟨?_, submitting.proper⟩
      have same : (call.commits.set index
          { commit with result := some (processOne blake3 context commit.request) }).map
            Commit.request = call.commits.map Commit.request := by
        obtain ⟨inRange, rfl⟩ := List.getElem?_eq_some_iff.mp position
        rw [List.map_set]
        have inMapped : index < (call.commits.map Commit.request).length := by simpa using inRange
        simpa using List.set_getElem_self inMapped
      rw [same]
      exact requests
  | generator stepped =>
      obtain ⟨commits, reader, received⟩ := generatorStep_frame stepped
      refine ⟨?_, fun request submits => submitting.proper request (reader ▸ submits)⟩
      rw [commits, reader, received]
      exact requests
  | waitReturns | callback | close | joinTimesOut => exact ⟨requests, submitting.proper⟩
  | contextEnds => exact absurd rfl other

theorem flowing_of_run {events : List StreamEvent}
    (ran : runEvents (step blake3) (initial maxPending) events = some call)
    (active : ∀ event ∈ events, event ≠ .contextEnds) : call.Flowing := by
  refine runEvents_invariant Flowing ?_ flowing_initial (eventsMeet_of_forall active) ran
  intro state event next flowing other stepped
  exact flowing.step other stepped

theorem submitting_of_run {events : List StreamEvent}
    (ran : runEvents (step blake3) (initial maxPending) events = some call)
    (active : ∀ event ∈ events, event ≠ .contextEnds)
    (scheduled : ∀ submission, .submit submission ∈ events → submission = .scheduled) :
    call.Submitting := by
  have meets : ∀ event ∈ events, event ≠ .contextEnds ∧
      ∀ submission, event = .submit submission → submission = .scheduled := by
    intro event member
    exact ⟨active event member, fun submission equal => scheduled submission (equal ▸ member)⟩
  refine (runEvents_invariant (fun call => call.Flowing ∧ call.Submitting) ?_
    ⟨flowing_initial, submitting_initial⟩ (eventsMeet_of_forall meets) ran).2
  intro state event next kept condition stepped
  exact ⟨kept.1.step condition.1 stepped, kept.2.step kept.1 condition.1 condition.2 stepped⟩

/-- When the generator has ended the reader has finished, and nothing is left on the way. -/
theorem Flowing.finished (flowing : call.Flowing) (ended : call.generator = .ended) :
    call.reader = .finished ∧ call.queue.items = [] ∧ call.inflight = [] := by
  obtain ⟨finished, landed⟩ := flowing.complete (by rw [ended]; rfl)
  have sentinel := flowing.sentinel
  have reader : isFinished call.reader = true ∧ call.queue.items = [] := by
    rw [finished] at sentinel
    generalize call.queue.items = items at sentinel ⊢
    generalize isFinished call.reader = done at sentinel ⊢
    cases sentinel
    exact ⟨rfl, rfl⟩
  refine ⟨?_, reader.2, landed⟩
  cases point : call.reader with
  | finished => rfl
  | _ =>
      rw [point] at reader
      cases reader.1

theorem Flowing.answered (flowing : call.Flowing) (ended : call.generator = .ended) :
    (call.yielded.map Prod.fst).Perm (List.range call.commits.length) := by
  obtain ⟨reader, empty, landed⟩ := flowing.finished ended
  rw [List.perm_iff_count]
  intro future
  have counted := flowing.counted future
  simp only [reader, hand, queued, empty, landed, ended, unanswered, List.filterMap_nil,
    List.count_nil] at counted
  omega

/-- A call whose context stays active until the generator has ended answers each chunk that was
submitted with the result of its commit, once, and nothing else, however the requests ended. If the
engine takes every chunk, the chunks that were submitted are those received. -/
theorem replicateChunks_acksEach {events : List StreamEvent}
    (ran : runEvents (step blake3) (initial maxPending) events = some call)
    (active : ∀ event ∈ events, event ≠ .contextEnds) (ended : call.generator = .ended) :
    (call.responses.map some).Perm (call.commits.map Commit.result) ∧
    (call.responses.map StorageCommitResult.chunkHash).Perm
      (call.commits.map fun commit => commit.request.chunkHash) ∧
    ((∀ submission, .submit submission ∈ events → submission = .scheduled) →
      call.commits.map Commit.request = call.received.filter hasHash) := by
  have flowing := flowing_of_run ran active
  have answering : call.Answering :=
    runEvents_preserves Answering (fun _ _ _ answering stepped => answering.step stepped)
      (by simp [Answering, initial]) ran
  have results : (call.responses.map some).Perm (call.commits.map Commit.result) := by
    have paired : call.responses.map some = (call.yielded.map Prod.fst).map call.result? := by
      rw [responses, List.map_map, List.map_map]
      refine List.map_congr_left fun pair member => ?_
      exact (flowing.resolved pair member).symm
    have positions : (List.range call.commits.length).map call.result? =
        call.commits.map Commit.result := by
      refine List.ext_getElem (by simp) fun index inRange _ => ?_
      simp only [List.length_map, List.length_range] at inRange
      simp [result?, List.getElem?_eq_getElem inRange]
    rw [paired, ← positions]
    exact (flowing.answered ended).map call.result?
  refine ⟨results, ?_, fun scheduled => ?_⟩
  · have hashes := (results.map (Option.map StorageCommitResult.chunkHash)).filterMap id
    have left : ((call.responses.map some).map
        (Option.map StorageCommitResult.chunkHash)).filterMap id =
        call.responses.map StorageCommitResult.chunkHash := by
      simp [List.filterMap_map]
    have right : ((call.commits.map Commit.result).map
        (Option.map StorageCommitResult.chunkHash)).filterMap id =
        call.commits.map fun commit => commit.request.chunkHash := by
      rw [List.map_map, List.filterMap_map, ← List.filterMap_eq_map]
      refine List.filterMap_congr fun commit member => ?_
      have resolved : commit.result ∈ call.responses.map some :=
        results.mem_iff.mpr (List.mem_map_of_mem member)
      obtain ⟨result, -, completed⟩ := List.mem_map.mp resolved
      simp [← completed, answering commit member result completed.symm]
    rwa [left, right] at hashes
  · have submitting := submitting_of_run ran active scheduled
    have requests := submitting.requests
    rw [(flowing.finished ended).1] at requests
    simpa [carried] using requests

/-- The digest of everything under an empty table. -/
def zeroChunk : ReplicateChunkRequest where
  chunkHash := List.replicate 64 '0'
  chunkData := [1]

/-- Two chunks are submitted and then the requests fail; the second chunk is committed first. -/
def failingStream : List StreamEvent :=
  [.receive oneChunk, .reader, .reader, .submit .scheduled, .reader, .reader, .reader,
    .receive zeroChunk, .generator,
    .reader, .reader, .submit .scheduled, .reader, .reader, .reader, .requestsFail "RST_STREAM",
    .generator, .reader,
    .reader, .reader, .reader, .generator, .generator, .generator,
    .commit 1 ⟨false, .raw [1], .ok true⟩,
    .commit 0 ⟨true, .corrupt, .ok true⟩, .waitReturns [1], .generator, .generator,
    .generator, .generator,
    .waitReturns [0], .generator, .generator, .generator, .generator, .generator, .generator]

theorem failingStream_acked :
    ∃ call, runEvents (step (.ofTable [])) (initial 1) failingStream = some call ∧
    call.generator = .ended ∧ call.readerErrors = ["RST_STREAM"] ∧
    call.responses.map StorageCommitResult.status = [.stored, .rejectedHashMismatch] ∧
    (call.responses.map some).Perm (call.commits.map Commit.result) ∧
    (call.responses.map StorageCommitResult.chunkHash).Perm
      [oneChunk.chunkHash, zeroChunk.chunkHash] ∧
    call.commits.map Commit.request = call.received.filter hasHash := by
  have ends : (runEvents (step (.ofTable [])) (initial 1) failingStream).map
      (fun call => (call.generator, call.readerErrors,
      call.responses.map StorageCommitResult.status, call.commits.map Commit.request)) =
      some (.ended, ["RST_STREAM"], [.stored, .rejectedHashMismatch], [oneChunk, zeroChunk]) := by
        decide +kernel
  obtain ⟨call, ran, found⟩ := Option.map_eq_some_iff.mp ends
  simp only [Prod.mk.injEq] at found
  obtain ⟨ended, errors, statuses, requests⟩ := found
  have active : ∀ event ∈ failingStream, event ≠ .contextEnds := by simp [failingStream]
  have scheduled : ∀ submission, .submit submission ∈ failingStream → submission = .scheduled := by
    simp [failingStream]
  obtain ⟨results, hashes, submitted⟩ := replicateChunks_acksEach ran active ended
  have answered : call.commits.map (fun commit => commit.request.chunkHash) = [oneChunk.chunkHash,
      zeroChunk.chunkHash] := by
    have mapped := congrArg (List.map ReplicateChunkRequest.chunkHash) requests
    rwa [List.map_map] at mapped
  exact ⟨call, ran, ended, errors, statuses, results, answered ▸ hashes, submitted scheduled⟩

end StreamCall

end Stopan.Node
