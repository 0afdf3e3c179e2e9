import Stopan.Lib.BoundedQueue
import Stopan.Lib.Runs

/-!
The queue between the thread that reads the chunks to replicate and the stream that sends them
(`stopan/protection/replication/queue_iterator.py`).

One producer puts items and then finishes, any number of threads cancel, and one consumer asks for
the next item. They interleave between the operations on the queue, on the three events and on the
lock.
-/

namespace Stopan.Replication

open Stopan.Lib

variable {α : Type}

inductive Message (α : Type) where
  | item (value : α)
  | sentinel
  deriving DecidableEq, Repr

def Message.value? : Message α → Option α
  | .item value => some value
  | .sentinel => none

structure QueueIterator (α : Type) where
  queue : BoundedQueue (Message α)
  finished : Bool
  cancelled : Bool
  sentinelEnqueued : Bool
  /-- Whether somebody holds the lock of `finish` and `cancel`. -/
  finalizeLock : Bool

def QueueIterator.create (maxsize : Int) : QueueIterator α where
  queue := .create (max 1 maxsize).toNat
  finished := false
  cancelled := false
  sentinelEnqueued := false
  finalizeLock := false

/-- In `_force_sentinel_after_cancel`. Each thread is at the operation that it performs next. -/
inductive ForceAt where
  | getNowait
  | putNowait
  | setEnqueued
  deriving DecidableEq, Repr

inductive ProducerAt (α : Type) where
  /-- Between two calls. -/
  | idle
  | putReadsCancelled (item : α)
  | putReadsFinished (item : α)
  | putsItem (item : α)
  | finishAcquires
  | finishReadsEnqueued
  | finishSetsFinished
  | finishReadsCancelled
  | finishPutsSentinel
  | finishSetsEnqueued
  | finishForces (point : ForceAt)
  | finishReleases
  /-- `finish` has returned. -/
  | done
  deriving DecidableEq, Repr

inductive CancelAt where
  | setsCancelled
  | acquires
  | readsEnqueued
  | forces (point : ForceAt)
  | releases
  | returned
  deriving DecidableEq, Repr

inductive ConsumerAt where
  /-- Between two calls of `__next__`. -/
  | idle
  | readsCancelled
  | readsEmpty
  | gets
  /-- After `queue.Empty`. -/
  | rereadsCancelled
  deriving DecidableEq, Repr

/-- What a call of `__next__` ends with. -/
inductive Delivery (α : Type) where
  | item (value : α)
  | stopIteration
  deriving DecidableEq, Repr

def Delivery.value? : Delivery α → Option α
  | .item value => some value
  | .stopIteration => none

/-- The iterator, its threads, and what their calls have come to: the outcome of each `put`, what
the consumer has got, and the items that were thrown away. -/
structure QueueRun (α : Type) where
  iterator : QueueIterator α
  producer : ProducerAt α
  cancels : List CancelAt
  consumer : ConsumerAt
  puts : List (α × Bool)
  deliveries : List (Delivery α)
  discarded : List α

inductive QueueEvent (α : Type) where
  /-- The producer calls `put`. -/
  | put (item : α)
  | finish
  /-- Some thread calls `cancel`. -/
  | cancel
  /-- The consumer calls `__next__`. -/
  | next
  /-- The producer performs its next operation. -/
  | producer
  | canceller (index : Nat)
  | consumer
  deriving DecidableEq, Repr

namespace QueueRun

def initial (maxsize : Int) : QueueRun α where
  iterator := .create maxsize
  producer := .idle
  cancels := []
  consumer := .idle
  puts := []
  deliveries := []
  discarded := []

/-- The items whose `put` has returned `True`. -/
def accepted (run : QueueRun α) : List α :=
  run.puts.filterMap fun (item, accepted) => if accepted then some item else none

def received (run : QueueRun α) : List α := run.deliveries.filterMap Delivery.value?

def queued (run : QueueRun α) : List α := run.iterator.queue.items.filterMap Message.value?

/-- One operation of `_force_sentinel_after_cancel`: the point after it, or `none` when it
returns. -/
def force (run : QueueRun α) : ForceAt → Option ForceAt × QueueRun α
  | .getNowait =>
      match run.iterator.queue.get? with
      | some (message, queue) =>
          (some .getNowait, { run with
            iterator := { run.iterator with queue }
            discarded := run.discarded ++ message.value?.toList })
      | none => (some .putNowait, run)
  | .putNowait =>
      match run.iterator.queue.put? .sentinel with
      | some queue => (some .setEnqueued, { run with iterator := { run.iterator with queue } })
      | none => (none, run)
  | .setEnqueued => (none, { run with iterator := { run.iterator with sentinelEnqueued := true } })

def putReturns (run : QueueRun α) (item : α) (accepted : Bool) : QueueRun α :=
  { run with producer := .idle, puts := run.puts ++ [(item, accepted)] }

def finishForces (run : QueueRun α) (point : ForceAt) : QueueRun α :=
  { (run.force point).2 with
    producer := ((run.force point).1.map .finishForces).getD .finishReleases }

def producerStep (run : QueueRun α) : Option (QueueRun α) :=
  match run.producer with
  | .idle | .done => none
  | .putReadsCancelled item =>
      if run.iterator.cancelled then some (run.putReturns item false)
      else some { run with producer := .putReadsFinished item }
  | .putReadsFinished item =>
      if run.iterator.finished then some (run.putReturns item false)
      else some { run with producer := .putsItem item }
  | .putsItem item =>
      match run.iterator.queue.put? (.item item) with
      | some queue =>
          some ({ run with iterator := { run.iterator with queue } }.putReturns item true)
      | none => some { run with producer := .putReadsCancelled item }
  | .finishAcquires =>
      if run.iterator.finalizeLock then none
      else some { run with
        iterator := { run.iterator with finalizeLock := true }
        producer := .finishReadsEnqueued }
  | .finishReadsEnqueued =>
      if run.iterator.sentinelEnqueued then some { run with producer := .finishReleases }
      else some { run with producer := .finishSetsFinished }
  | .finishSetsFinished =>
      some { run with iterator := { run.iterator with finished := true },
                      producer := .finishReadsCancelled }
  | .finishReadsCancelled =>
      if run.iterator.cancelled then some { run with producer := .finishForces .getNowait }
      else some { run with producer := .finishPutsSentinel }
  | .finishPutsSentinel =>
      match run.iterator.queue.put? .sentinel with
      | some queue =>
          some { run with iterator := { run.iterator with queue }, producer := .finishSetsEnqueued }
      | none => some { run with producer := .finishReadsCancelled }
  | .finishSetsEnqueued =>
      some { run with iterator := { run.iterator with sentinelEnqueued := true },
                      producer := .finishReleases }
  | .finishForces point => some (run.finishForces point)
  | .finishReleases =>
      some { run with iterator := { run.iterator with finalizeLock := false }, producer := .done }

def atCancel (run : QueueRun α) (index : Nat) (point : CancelAt) : QueueRun α :=
  { run with cancels := run.cancels.set index point }

def cancelForces (run : QueueRun α) (index : Nat) (point : ForceAt) : QueueRun α :=
  (run.force point).2.atCancel index (((run.force point).1.map .forces).getD .releases)

def cancelStep (run : QueueRun α) (index : Nat) : CancelAt → Option (QueueRun α)
  | .setsCancelled =>
      some ({ run with iterator := { run.iterator with cancelled := true } }.atCancel
        index .acquires)
  | .acquires =>
      if run.iterator.finalizeLock then none
      else some ({ run with iterator := { run.iterator with finalizeLock := true } }.atCancel
        index .readsEnqueued)
  | .readsEnqueued =>
      if run.iterator.sentinelEnqueued then some (run.atCancel index .releases)
      else some (run.atCancel index (.forces .getNowait))
  | .forces point => some (run.cancelForces index point)
  | .releases =>
      some ({ run with iterator := { run.iterator with finalizeLock := false } }.atCancel
        index .returned)
  | .returned => none

def nextReturns (run : QueueRun α) (delivery : Delivery α) : QueueRun α :=
  { run with consumer := .idle, deliveries := run.deliveries ++ [delivery] }

def consumerStep (run : QueueRun α) : Option (QueueRun α) :=
  match run.consumer with
  | .idle => none
  | .readsCancelled =>
      if run.iterator.cancelled then some { run with consumer := .readsEmpty }
      else some { run with consumer := .gets }
  | .readsEmpty =>
      if run.iterator.queue.items.isEmpty then some (run.nextReturns .stopIteration)
      else some { run with consumer := .gets }
  | .gets =>
      match run.iterator.queue.get? with
      | none => some { run with consumer := .rereadsCancelled }
      | some (message, queue) =>
          let run := { run with iterator := { run.iterator with queue } }
          match message with
          | .sentinel => some (run.nextReturns .stopIteration)
          | .item value => some (run.nextReturns (.item value))
  | .rereadsCancelled =>
      if run.iterator.cancelled then some (run.nextReturns .stopIteration)
      else some { run with consumer := .readsCancelled }

/-- One operation of one thread, or a call that it begins; `none` when no thread is at that
point. -/
def step (run : QueueRun α) : QueueEvent α → Option (QueueRun α)
  | .put item =>
      match run.producer with
      | .idle => some { run with producer := .putReadsCancelled item }
      | _ => none
  | .finish =>
      match run.producer with
      | .idle => some { run with producer := .finishAcquires }
      | _ => none
  | .cancel => some { run with cancels := run.cancels ++ [.setsCancelled] }
  | .next =>
      match run.consumer with
      | .idle => some { run with consumer := .readsCancelled }
      | _ => none
  | .producer => run.producerStep
  | .canceller index => run.cancels[index]?.bind (run.cancelStep index)
  | .consumer => run.consumerStep

/-- What has become of the items, as the two ends of the queue see it. -/
@[ext] structure Ledger (α : Type) where
  accepted : List α
  received : List α
  discarded : List α
  queued : List α

namespace Ledger

/-- An item joins the queue at its end, and leaves it at its head for the consumer or for nobody. -/
inductive Moves : Ledger α → Ledger α → Prop where
  | stays (ledger : Ledger α) : Moves ledger ledger
  | accepts (ledger : Ledger α) (item : α) :
      Moves ledger { ledger with accepted := ledger.accepted ++ [item],
                                 queued := ledger.queued ++ [item] }
  | delivers (ledger : Ledger α) (item : α) (rest : List α) (head : ledger.queued = item :: rest) :
      Moves ledger { ledger with received := ledger.received ++ [item], queued := rest }
  | discards (ledger : Ledger α) (item : α) (rest : List α) (head : ledger.queued = item :: rest) :
      Moves ledger { ledger with discarded := ledger.discarded ++ [item], queued := rest }

/-- Every accepted item is received, thrown away or queued; the first and the last are in the order
of their acceptance, and until something is thrown away they are all of it. -/
structure Conserved (ledger : Ledger α) : Prop where
  counted : ledger.accepted.Perm (ledger.received ++ ledger.discarded ++ ledger.queued)
  ordered : (ledger.received ++ ledger.queued).Sublist ledger.accepted
  whole : ledger.discarded = [] → ledger.received ++ ledger.queued = ledger.accepted

theorem Conserved.moves {before after : Ledger α} (conserved : before.Conserved)
    (moved : Moves before after) :
    after.Conserved := by
  cases moved with
  | stays => exact conserved
  | accepts item =>
      refine ⟨?_, ?_, ?_⟩
      · simpa [List.append_assoc] using conserved.counted.append_right [item]
      · simpa [List.append_assoc] using conserved.ordered.append_right [item]
      · intro none
        simpa [List.append_assoc] using congrArg (· ++ [item]) (conserved.whole none)
  | delivers item rest head =>
      obtain ⟨counted, ordered, whole⟩ := conserved
      rw [head] at counted ordered whole
      refine ⟨counted.trans ?_, by simpa using ordered, fun none => by simpa using whole none⟩
      simpa [List.append_assoc] using (List.perm_middle (a := item)).append_left before.received
  | discards item rest head =>
      obtain ⟨counted, ordered, -⟩ := conserved
      rw [head] at counted ordered
      refine ⟨by simpa [List.append_assoc] using counted, ?_, fun none => by simp at none⟩
      exact ((List.sublist_cons_self item rest).append_left before.received).trans ordered

end Ledger

def ledger (run : QueueRun α) : Ledger α where
  accepted := run.accepted
  received := run.received
  discarded := run.discarded
  queued := run.queued

variable {run after : QueueRun α} {item : α}

theorem queued_of_put {queue : BoundedQueue (Message α)} {message : Message α}
    (put : run.iterator.queue.put? message = some queue) :
    queue.items.filterMap Message.value? = run.queued ++ message.value?.toList :=
  BoundedQueue.filterMap_of_put Message.value? put

theorem queued_of_get {queue : BoundedQueue (Message α)} {message : Message α}
    (taken : run.iterator.queue.get? = some (message, queue)) :
    run.queued = message.value?.toList ++ queue.items.filterMap Message.value? :=
  BoundedQueue.filterMap_of_get Message.value? taken

/-- A sentinel that leaves or joins the queue moves no item. -/
theorem ledger_of_queue {queue : BoundedQueue (Message α)}
    (same : queue.items.filterMap Message.value? = run.queued) :
    ledger { run with iterator := { run.iterator with queue } } = run.ledger :=
  Ledger.ext rfl rfl rfl same

theorem ledger_of_sentinel {queue : BoundedQueue (Message α)}
    (put : run.iterator.queue.put? .sentinel = some queue) :
    ledger { run with iterator := { run.iterator with queue } } = run.ledger :=
  ledger_of_queue (by rw [queued_of_put put]; exact List.append_nil _)

theorem ledger_putReturns_false (run : QueueRun α) (item : α) :
    (run.putReturns item false).ledger = run.ledger :=
  Ledger.ext (by simp [ledger, accepted, putReturns]) rfl rfl rfl

theorem Ledger.Moves.of_eq {before after : Ledger α} (same : after = before) : Moves before after :=
  same ▸ .stays after

theorem force_moves (run : QueueRun α) (point : ForceAt) :
    Ledger.Moves run.ledger (run.force point).2.ledger := by
  cases point with
  | getNowait =>
      cases taken : run.iterator.queue.get? with
      | none =>
          simp only [force, taken]
          exact .stays _
      | some found =>
          obtain ⟨message, queue⟩ := found
          have left := queued_of_get taken
          simp only [force, taken]
          cases message with
          | sentinel => exact .of_eq (Ledger.ext rfl rfl (List.append_nil _) left.symm)
          | item value => exact .discards _ value _ left
  | putNowait =>
      cases put : run.iterator.queue.put? .sentinel with
      | none =>
          simp only [force, put]
          exact .stays _
      | some queue =>
          simp only [force, put]
          exact .of_eq (ledger_of_sentinel put)
  | setEnqueued => exact .stays _

theorem producerStep_moves (stepped : run.producerStep = some after) :
    Ledger.Moves run.ledger after.ledger := by
  cases point : run.producer with
  | idle => simp [producerStep, point] at stepped
  | done => simp [producerStep, point] at stepped
  | putReadsCancelled item =>
      simp only [producerStep, point] at stepped
      split at stepped <;> cases stepped
      · exact .of_eq (ledger_putReturns_false run item)
      · exact .stays _
  | putReadsFinished item =>
      simp only [producerStep, point] at stepped
      split at stepped <;> cases stepped
      · exact .of_eq (ledger_putReturns_false run item)
      · exact .stays _
  | putsItem item =>
      simp only [producerStep, point] at stepped
      cases put : run.iterator.queue.put? (.item item) with
      | none =>
          rw [put] at stepped
          cases stepped
          exact .stays _
      | some queue =>
          rw [put] at stepped
          cases stepped
          have joined := queued_of_put put
          have moved := Ledger.Moves.accepts run.ledger item
          convert moved using 1
          exact Ledger.ext (by simp [ledger, accepted, putReturns]) rfl rfl joined
  | finishAcquires =>
      simp only [producerStep, point] at stepped
      split at stepped <;> cases stepped
      exact .stays _
  | finishReadsEnqueued | finishReadsCancelled =>
      simp only [producerStep, point] at stepped
      split at stepped <;> cases stepped <;> exact .stays _
  | finishSetsFinished | finishSetsEnqueued | finishReleases =>
      simp only [producerStep, point] at stepped
      cases stepped
      exact .stays _
  | finishPutsSentinel =>
      simp only [producerStep, point] at stepped
      cases put : run.iterator.queue.put? .sentinel with
      | none =>
          rw [put] at stepped
          cases stepped
          exact .stays _
      | some queue =>
          rw [put] at stepped
          cases stepped
          exact .of_eq (ledger_of_sentinel put)
  | finishForces force =>
      simp only [producerStep, point] at stepped
      cases stepped
      exact force_moves run force

theorem cancelStep_moves {index : Nat} {point : CancelAt}
    (stepped : run.cancelStep index point = some after) :
    Ledger.Moves run.ledger after.ledger := by
  cases point with
  | setsCancelled | releases =>
      simp only [cancelStep] at stepped
      cases stepped
      exact .stays _
  | acquires =>
      simp only [cancelStep] at stepped
      split at stepped <;> cases stepped
      exact .stays _
  | readsEnqueued =>
      simp only [cancelStep] at stepped
      split at stepped <;> cases stepped <;> exact .stays _
  | forces force =>
      simp only [cancelStep] at stepped
      cases stepped
      exact force_moves run force
  | returned => simp [cancelStep] at stepped

theorem ledger_nextReturns_stop (run : QueueRun α) :
    (run.nextReturns .stopIteration).ledger = run.ledger :=
  Ledger.ext rfl (by simp [ledger, received, nextReturns, Delivery.value?]) rfl rfl

theorem consumerStep_moves (stepped : run.consumerStep = some after) :
    Ledger.Moves run.ledger after.ledger := by
  cases point : run.consumer with
  | idle => simp [consumerStep, point] at stepped
  | readsCancelled =>
      simp only [consumerStep, point] at stepped
      split at stepped <;> cases stepped <;> exact .stays _
  | readsEmpty | rereadsCancelled =>
      simp only [consumerStep, point] at stepped
      split at stepped <;> cases stepped
      · exact .of_eq (ledger_nextReturns_stop run)
      · exact .stays _
  | gets =>
      simp only [consumerStep, point] at stepped
      cases taken : run.iterator.queue.get? with
      | none =>
          rw [taken] at stepped
          cases stepped
          exact .stays _
      | some found =>
          obtain ⟨message, queue⟩ := found
          rw [taken] at stepped
          have left := queued_of_get taken
          cases message with
          | sentinel =>
              cases stepped
              exact .of_eq ((ledger_nextReturns_stop _).trans (ledger_of_queue left.symm))
          | item value =>
              cases stepped
              have moved := Ledger.Moves.delivers run.ledger value _ left
              convert moved using 1
              exact Ledger.ext rfl (by simp [ledger, received, nextReturns,
                Delivery.value?]) rfl rfl

/-- Every operation of every thread moves the items as a first-in first-out queue does. -/
theorem step_moves {event : QueueEvent α} (stepped : run.step event = some after) :
    Ledger.Moves run.ledger after.ledger := by
  cases event with
  | put item | finish | next =>
      simp only [step] at stepped
      split at stepped <;> cases stepped
      exact .stays _
  | cancel =>
      cases stepped
      exact .stays _
  | producer => exact producerStep_moves stepped
  | canceller index =>
      obtain ⟨point, -, performed⟩ := Option.bind_eq_some_iff.mp stepped
      exact cancelStep_moves performed
  | consumer => exact consumerStep_moves stepped

theorem conserved_of_run {maxsize : Int} {events : List (QueueEvent α)}
    (ran : runEvents step (initial maxsize) events = some run) : run.ledger.Conserved := by
  refine runEvents_preserves (fun run => run.ledger.Conserved) ?_ ?_ ran
  · intro run event after conserved stepped
    exact conserved.moves (step_moves stepped)
  · exact ⟨.refl _, .refl _, fun _ => rfl⟩

/-- Whether `finish` has put the sentinel. -/
def sentinelPut : ProducerAt α → Bool
  | .finishSetsEnqueued | .finishReleases | .done => true
  | _ => false

def forcing : ProducerAt α → Bool
  | .finishForces _ => true
  | _ => false

/-- The sentinel stands after every item, and the consumer stops when it gets it. -/
inductive Stage : Bool → List (Message α) → List (Delivery α) → Prop where
  | running (queued received : List α) : Stage false (queued.map .item) (received.map .item)
  | finished (queued received : List α) :
      Stage true (queued.map .item ++ [.sentinel]) (received.map .item)
  | stopped (received : List α) : Stage true [] (received.map .item ++ [.stopIteration])

structure Uncancelled (run : QueueRun α) : Prop where
  unset : run.iterator.cancelled = false
  cancels : run.cancels = []
  kept : run.discarded = []
  consumer : run.consumer ≠ .readsEmpty
  unforced : forcing run.producer = false
  unmarked : sentinelPut run.producer = false → run.iterator.sentinelEnqueued = false
  stage : Stage (sentinelPut run.producer) run.iterator.queue.items run.deliveries

theorem uncancelled_initial (maxsize : Int) : (initial maxsize : QueueRun α).Uncancelled where
  unset := rfl
  cancels := rfl
  kept := rfl
  consumer := by simp [initial]
  unforced := rfl
  unmarked := fun _ => rfl
  stage := .running [] []

theorem Stage.put {items : List (Message α)} {deliveries : List (Delivery α)}
    (stage : Stage false items deliveries)
    (item : α) : Stage false (items ++ [.item item]) deliveries := by
  cases stage with
  | running queued received => simpa using Stage.running (queued ++ [item]) received

theorem Stage.finish {items : List (Message α)} {deliveries : List (Delivery α)}
    (stage : Stage false items deliveries) :
    Stage true (items ++ [.sentinel]) deliveries := by
  cases stage with
  | running queued received => exact .finished queued received

theorem Stage.deliver {put : Bool} {item : α} {rest : List (Message α)}
    {deliveries : List (Delivery α)} (stage : Stage put (.item item :: rest) deliveries) :
    Stage put rest (deliveries ++ [.item item]) := by
  generalize items : Message.item item :: rest = queue at stage
  cases stage with
  | running queued received =>
      cases queued with
      | nil => cases items
      | cons first later =>
          cases items
          simpa using Stage.running later (received ++ [item])
  | finished queued received =>
      cases queued with
      | nil => cases items
      | cons first later =>
          cases items
          simpa using Stage.finished later (received ++ [item])
  | stopped received => cases items

theorem Stage.stop {put : Bool} {rest : List (Message α)} {deliveries : List (Delivery α)}
    (stage : Stage put (.sentinel :: rest) deliveries) :
    Stage put rest (deliveries ++ [.stopIteration]) := by
  generalize items : Message.sentinel :: rest = queue at stage
  cases stage with
  | running queued received => cases queued <;> cases items
  | finished queued received =>
      cases queued with
      | nil =>
          cases items
          exact .stopped received
      | cons first later => cases items
  | stopped received => cases items

theorem Uncancelled.producerStep (uncancelled : run.Uncancelled)
    (stepped : run.producerStep = some after) :
    after.Uncancelled := by
  obtain ⟨unset, cancels, kept, consumer, unforced, unmarked, stage⟩ := uncancelled
  cases point : run.producer with
  | idle => simp [QueueRun.producerStep, point] at stepped
  | done => simp [QueueRun.producerStep, point] at stepped
  | putReadsCancelled item =>
      rw [point] at unmarked stage
      simp only [QueueRun.producerStep, point, unset, Bool.false_eq_true, if_false] at stepped
      cases stepped
      exact ⟨unset, cancels, kept, consumer, rfl, unmarked, stage⟩
  | putReadsFinished item =>
      rw [point] at unmarked stage
      simp only [QueueRun.producerStep, point] at stepped
      split at stepped <;> cases stepped <;>
        exact ⟨unset, cancels, kept, consumer, rfl, unmarked, stage⟩
  | putsItem item =>
      rw [point] at unmarked stage
      simp only [QueueRun.producerStep, point] at stepped
      cases put : run.iterator.queue.put? (.item item) with
      | none =>
          rw [put] at stepped
          cases stepped
          exact ⟨unset, cancels, kept, consumer, rfl, unmarked, stage⟩
      | some queue =>
          rw [put] at stepped
          cases stepped
          refine ⟨unset, cancels, kept, consumer, rfl, unmarked, ?_⟩
          have longer := stage.put item
          rw [← BoundedQueue.items_of_put put] at longer
          exact longer
  | finishAcquires =>
      rw [point] at unmarked stage
      simp only [QueueRun.producerStep, point] at stepped
      split at stepped <;> cases stepped
      exact ⟨unset, cancels, kept, consumer, rfl, unmarked, stage⟩
  | finishReadsEnqueued =>
      rw [point] at unmarked stage
      simp only [QueueRun.producerStep, point, unmarked rfl, Bool.false_eq_true,
        if_false] at stepped
      cases stepped
      exact ⟨unset, cancels, kept, consumer, rfl, unmarked, stage⟩
  | finishSetsFinished =>
      rw [point] at unmarked stage
      simp only [QueueRun.producerStep, point] at stepped
      cases stepped
      exact ⟨unset, cancels, kept, consumer, rfl, unmarked, stage⟩
  | finishReadsCancelled =>
      rw [point] at unmarked stage
      simp only [QueueRun.producerStep, point, unset, Bool.false_eq_true, if_false] at stepped
      cases stepped
      exact ⟨unset, cancels, kept, consumer, rfl, unmarked, stage⟩
  | finishPutsSentinel =>
      rw [point] at unmarked stage
      simp only [QueueRun.producerStep, point] at stepped
      cases put : run.iterator.queue.put? .sentinel with
      | none =>
          rw [put] at stepped
          cases stepped
          exact ⟨unset, cancels, kept, consumer, rfl, unmarked, stage⟩
      | some queue =>
          rw [put] at stepped
          cases stepped
          refine ⟨unset, cancels, kept, consumer, rfl, (by intro before; cases before), ?_⟩
          have longer := stage.finish
          rw [← BoundedQueue.items_of_put put] at longer
          exact longer
  | finishSetsEnqueued | finishReleases =>
      rw [point] at stage
      simp only [QueueRun.producerStep, point] at stepped
      cases stepped
      exact ⟨unset, cancels, kept, consumer, rfl, (by intro before; cases before), stage⟩
  | finishForces force =>
      rw [point] at unforced
      cases unforced

theorem Uncancelled.consumerStep (uncancelled : run.Uncancelled)
    (stepped : run.consumerStep = some after) :
    after.Uncancelled := by
  obtain ⟨unset, cancels, kept, consumer, unforced, unmarked, stage⟩ := uncancelled
  cases point : run.consumer with
  | idle => simp [QueueRun.consumerStep, point] at stepped
  | readsCancelled | rereadsCancelled =>
      simp only [QueueRun.consumerStep, point, unset, Bool.false_eq_true, if_false] at stepped
      cases stepped
      exact ⟨unset, cancels, kept, by simp, unforced, unmarked, stage⟩
  | readsEmpty => exact absurd point consumer
  | gets =>
      simp only [QueueRun.consumerStep, point] at stepped
      cases taken : run.iterator.queue.get? with
      | none =>
          rw [taken] at stepped
          cases stepped
          exact ⟨unset, cancels, kept, by simp, unforced, unmarked, stage⟩
      | some found =>
          obtain ⟨message, queue⟩ := found
          rw [taken] at stepped
          rw [BoundedQueue.items_of_get taken] at stage
          cases message with
          | sentinel =>
              cases stepped
              exact ⟨unset, cancels, kept, by simp [nextReturns], unforced, unmarked, stage.stop⟩
          | item value =>
              cases stepped
              exact ⟨unset, cancels, kept, by simp [nextReturns], unforced, unmarked, stage.deliver⟩

theorem Uncancelled.step {event : QueueEvent α} (uncancelled : run.Uncancelled)
    (other : event ≠ .cancel) (stepped : run.step event = some after) : after.Uncancelled := by
  cases event with
  | put item | finish =>
      obtain ⟨unset, cancels, kept, consumer, unforced, unmarked, stage⟩ := uncancelled
      simp only [QueueRun.step] at stepped
      split at stepped <;> cases stepped
      rename_i point
      rw [point] at unmarked stage
      exact ⟨unset, cancels, kept, consumer, rfl, unmarked, stage⟩
  | cancel => exact absurd rfl other
  | next =>
      obtain ⟨unset, cancels, kept, consumer, unforced, unmarked, stage⟩ := uncancelled
      simp only [QueueRun.step] at stepped
      split at stepped <;> cases stepped
      exact ⟨unset, cancels, kept, by simp, unforced, unmarked, stage⟩
  | producer => exact uncancelled.producerStep stepped
  | canceller index => simp [QueueRun.step, uncancelled.cancels] at stepped
  | consumer => exact uncancelled.consumerStep stepped

theorem uncancelled_of_run {maxsize : Int} {events : List (QueueEvent α)}
    (ran : runEvents step (initial maxsize) events = some run)
    (uncalled : ∀ event ∈ events, event ≠ .cancel) :
    run.Uncancelled := by
  refine runEvents_invariant QueueRun.Uncancelled ?_ (uncancelled_initial maxsize)
    (eventsMeet_of_forall uncalled) ran
  intro run event after uncancelled other stepped
  exact uncancelled.step other stepped

theorem received_of_deliveries {received : List α} {rest : List (Delivery α)}
    (deliveries : run.deliveries = received.map .item ++ rest)
    (stops : rest.filterMap Delivery.value? = []) :
    run.received = received := by
  rw [QueueRun.received, deliveries, List.filterMap_append, stops,
    List.append_nil, List.filterMap_map]
  exact List.filterMap_some

/-- A stop without a cancellation comes after everything that was accepted, and nothing comes after
it. -/
theorem Uncancelled.deliveries_eq (uncancelled : run.Uncancelled) (conserved : run.ledger.Conserved)
    (stopped : .stopIteration ∈ run.deliveries) :
    run.deliveries = run.accepted.map .item ++ [.stopIteration] := by
  have stage := uncancelled.stage
  generalize put : sentinelPut run.producer = sentinel at stage
  generalize items : run.iterator.queue.items = queue at stage
  generalize deliveries : run.deliveries = delivered at stage stopped ⊢
  cases stage with
  | running queued received => simp at stopped
  | finished queued received => simp at stopped
  | stopped received =>
      have whole : run.received ++ run.queued = run.accepted := conserved.whole uncancelled.kept
      have empty : run.queued = [] := by rw [QueueRun.queued, items]; rfl
      have same : run.received = received := received_of_deliveries deliveries rfl
      rw [empty, List.append_nil, same] at whole
      rw [whole]

/-- Once a cancellation throws items away the consumer may get later ones, but always each item at
most once and in the order of acceptance, and a prefix of what was accepted until then. Without a
cancellation it gets everything before it is stopped, and nothing after. -/
theorem queueIterator_deliversInOrder {maxsize : Int} {events : List (QueueEvent α)}
    (ran : runEvents step (initial maxsize) events = some run) :
    run.received.Sublist run.accepted ∧
    run.accepted.Perm (run.received ++ run.discarded ++ run.queued) ∧
    (run.discarded = [] → run.received <+: run.accepted) ∧
    ((∀ event ∈ events, event ≠ .cancel) →
      run.received <+: run.accepted ∧
      (.stopIteration ∈ run.deliveries →
        run.deliveries = run.accepted.map .item ++ [.stopIteration])) := by
  have conserved := conserved_of_run ran
  have ordered : run.discarded = [] → run.received <+: run.accepted := by
    intro kept
    exact ⟨run.queued, conserved.whole kept⟩
  refine ⟨(List.sublist_append_left _ _).trans conserved.ordered, conserved.counted, ordered, ?_⟩
  intro uncalled
  have uncancelled := uncancelled_of_run ran uncalled
  exact ⟨ordered uncancelled.kept, uncancelled.deliveries_eq conserved⟩

/-- The producer puts two items and finishes while the consumer takes both and the sentinel. -/
def finishedRun : List (QueueEvent Nat) :=
  [.put 1, .producer, .producer, .producer, .put 2, .producer, .producer, .producer, .next,
    .consumer, .consumer,
    .finish, .producer, .producer, .producer, .producer, .producer, .producer, .producer,
    .next, .consumer, .consumer, .next, .consumer, .consumer]

theorem finishedRun_delivered : ∃ run : QueueRun Nat,
    runEvents step (initial 2) finishedRun = some run ∧ .stopIteration ∈ run.deliveries ∧
      run.deliveries = run.accepted.map .item ++ [.stopIteration] := by
  have stops : ((runEvents step (initial 2) finishedRun).any fun run =>
      run.deliveries.contains Delivery.stopIteration) = true := by decide
  cases ran : runEvents step (initial 2 : QueueRun Nat) finishedRun with
  | none => simp [ran] at stops
  | some run =>
      have stopped : .stopIteration ∈ run.deliveries := by simpa [ran] using stops
      have uncalled : ∀ event ∈ finishedRun, event ≠ QueueEvent.cancel := by decide
      exact ⟨run, rfl, stopped, ((queueIterator_deliversInOrder ran).2.2.2 uncalled).2 stopped⟩

/-- Two items are queued when a cancellation begins to empty the queue; the consumer takes the
second after the first has been thrown away. -/
def interruptedDrain : List (QueueEvent Nat) :=
  [.put 1, .producer, .producer, .producer, .put 2, .producer, .producer, .producer,
    .cancel, .canceller 0, .canceller 0, .canceller 0, .canceller 0, .next, .consumer,
      .consumer, .consumer]

theorem received_not_prefix :
    ¬ ∀ (maxsize : Int) (events : List (QueueEvent Nat)) (run : QueueRun Nat),
    runEvents step (initial maxsize) events = some run → run.received <+: run.accepted := by
  intro always
  have ends : (runEvents step (initial 2) interruptedDrain).map
      (fun run => (run.accepted, run.received)) = some ([1, 2], [2]) := by decide
  obtain ⟨run, ran, lists⟩ := Option.map_eq_some_iff.mp ends
  have isPrefix := always 2 interruptedDrain run ran
  rw [Prod.mk.injEq] at lists
  rw [lists.1, lists.2] at isPrefix
  revert isPrefix
  decide

/-- The producer is about to put its item when a cancellation empties the queue and forces the
sentinel in; the consumer takes the sentinel, and then the item. -/
def lateItem : List (QueueEvent Nat) :=
  [.put 1, .producer, .producer, .cancel, .canceller 0, .canceller 0, .canceller 0, .canceller 0,
    .canceller 0, .canceller 0, .canceller 0, .next, .consumer, .consumer, .consumer, .producer,
    .next, .consumer, .consumer, .consumer]

theorem stopIteration_notLast :
    ¬ ∀ (maxsize : Int) (events : List (QueueEvent Nat)) (run : QueueRun Nat),
    runEvents step (initial maxsize) events = some run → .stopIteration ∈ run.deliveries →
      run.deliveries = run.accepted.map .item ++ [.stopIteration] := by
  intro always
  have ends : (runEvents step (initial 2) lateItem).map
      (fun run => (run.accepted, run.deliveries)) =
      some ([1], [.stopIteration, .item 1]) := by decide
  obtain ⟨run, ran, lists⟩ := Option.map_eq_some_iff.mp ends
  obtain ⟨accepted, deliveries⟩ := Prod.mk.injEq .. ▸ lists
  have last := always 2 lateItem run ran (by rw [deliveries]; exact List.mem_cons_self)
  rw [accepted, deliveries] at last
  revert last
  decide

end QueueRun

end Stopan.Replication
