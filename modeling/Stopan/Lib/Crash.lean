import Mathlib

/-!
Computations that may be cut off after any of their operations. A task over a state returns a
result or raises, and also says which states it goes through, so that an invariant can be asked of
every moment at which it may stop.
-/

namespace Stopan.Lib

/-- `passed` has the state after each operation, in order. -/
structure Outcome (σ ε α : Type) where
  passed : List σ
  final : σ
  result : Except ε α

def Task (σ ε α : Type) := σ → Outcome σ ε α

namespace Task

variable {σ ε α β : Type}

def done (value : α) : Task σ ε α :=
  fun state => { passed := [], final := state, result := .ok value }

def andThen (task : Task σ ε α) (next : α → Task σ ε β) : Task σ ε β := fun state =>
  let first := task state
  match first.result with
  | .error reason => { passed := first.passed, final := first.final, result := .error reason }
  | .ok value =>
      let rest := next value first.final
      { passed := first.passed ++ rest.passed, final := rest.final, result := rest.result }

instance : Monad (Task σ ε) where
  pure := done
  bind := andThen

def raise (reason : ε) : Task σ ε α :=
  fun state => { passed := [], final := state, result := .error reason }

/-- Look at the state and return or raise. -/
def inspect (look : σ → Except ε α) : Task σ ε α :=
  fun state => { passed := [], final := state, result := look state }

/-- One operation on the state. -/
def operate (change : σ → σ) : Task σ ε Unit := fun state =>
  { passed := [change state], final := change state, result := .ok () }

/-- Clean up after a failure, which is raised again; what the cleaning raises is ignored. -/
def cleaning (task : Task σ ε α) (cleanup : Task σ ε Unit) : Task σ ε α := fun state =>
  let first := task state
  match first.result with
  | .ok value => { passed := first.passed, final := first.final, result := .ok value }
  | .error reason =>
      let rest := cleanup first.final
      { passed := first.passed ++ rest.passed, final := rest.final, result := .error reason }

/-- What the task returns or raises, as a value. -/
def attempt (task : Task σ ε α) : Task σ ε (Except ε α) := fun state =>
  let first := task state
  { passed := first.passed, final := first.final, result := .ok first.result }

/-- The task for each item, collecting what it returns. -/
def forEach (task : α → Task σ ε β) : List α → Task σ ε (List β)
  | [] => done []
  | item :: rest => do
      let first ← task item
      return first :: (← forEach task rest)

/-- The task for each item, from what it returned for the item before. -/
def foldEach (task : α → β → Task σ ε α) : α → List β → Task σ ε α
  | value, [] => done value
  | value, item :: rest => do foldEach task (← task value item) rest

/-- Every state at which the task may be cut off, the one before its first operation included. -/
def moments (task : Task σ ε α) (state : σ) : List σ :=
  state :: ((task state).passed ++ [(task state).final])

/-- `always` at every moment after the start, and `post` if a value is returned. -/
structure Meets (always : σ → Prop) (post : α → σ → Prop) (outcome : Outcome σ ε α) : Prop where
  passed : ∀ moment ∈ outcome.passed, always moment
  final : always outcome.final
  returned : ∀ value, outcome.result = .ok value → post value outcome.final

/-- From a state in `pre` the task keeps `always` at every moment, and `post` holds if it
returns. -/
def Keeps (always pre : σ → Prop) (task : Task σ ε α) (post : α → σ → Prop) : Prop :=
  ∀ state, pre state → Meets always post (task state)

variable {always pre : σ → Prop} {post : α → σ → Prop} {task : Task σ ε α}

theorem Keeps.moments (keeps : Keeps always pre task post) {state moment : σ} (holds : pre state)
    (start : always state) (member : moment ∈ task.moments state) : always moment := by
  simp only [Task.moments, List.mem_cons, List.mem_append, List.not_mem_nil, or_false] at member
  rcases member with rfl | inside | rfl
  · exact start
  · exact (keeps state holds).passed moment inside
  · exact (keeps state holds).final

theorem Keeps.weaken {pre' : σ → Prop} {post' : α → σ → Prop} (keeps : Keeps always pre task post)
    (stronger : ∀ state, pre' state → pre state)
    (weaker : ∀ value state, post value state → post' value state) :
    Keeps always pre' task post' := by
  intro state holds
  have met := keeps state (stronger state holds)
  exact ⟨met.passed, met.final, fun value result => weaker value _ (met.returned value result)⟩

theorem Keeps.weakenAlways {always' : σ → Prop} (keeps : Keeps always pre task post)
    (weaker : ∀ state, always state → always' state) : Keeps always' pre task post := by
  intro state holds
  have met := keeps state holds
  exact ⟨fun moment member => weaker moment (met.passed moment member),
    weaker _ met.final, met.returned⟩

/-- What is known beforehand and does not depend on the state is known afterwards. -/
theorem keeps_fact {fact : Prop} (task : Task σ ε α) :
    Keeps (fun _ => True) (fun _ => fact) task fun _ _ => fact :=
  fun _ known => ⟨fun _ _ => trivial, trivial, fun _ _ => known⟩

theorem keeps_done {value : α} (holds : ∀ state, pre state → always state ∧ post value state) :
    Keeps always pre (pure value : Task σ ε α) post := by
  intro state start
  refine ⟨fun _ member => (by cases member), (holds state start).1, fun other result => ?_⟩
  cases result
  exact (holds state start).2

theorem keeps_raise {reason : ε} (holds : ∀ state, pre state → always state) :
    Keeps always pre (raise reason) post := by
  intro state start
  exact ⟨fun _ member => (by cases member), holds state start, fun _ result => (by cases result)⟩

theorem keeps_inspect {look : σ → Except ε α}
    (holds : ∀ state, pre state → always state ∧ ∀ value, look state = .ok value →
      post value state) :
    Keeps always pre (inspect look) post := by
  intro state start
  exact ⟨fun _ member => (by cases member), (holds state start).1, (holds state start).2⟩

theorem keeps_operate {change : σ → σ} {after : Unit → σ → Prop}
    (holds : ∀ state, pre state → always (change state) ∧ after () (change state)) :
    Keeps always pre (operate change : Task σ ε Unit) after := by
  intro state start
  refine ⟨fun moment member => ?_, (holds state start).1, fun _ _ => (holds state start).2⟩
  rw [List.mem_singleton.mp member]
  exact (holds state start).1

theorem Keeps.bind (middle : α → σ → Prop) {after : β → σ → Prop} {next : α → Task σ ε β}
    (first : Keeps always pre task middle)
    (rest : ∀ value, Keeps always (middle value) (next value) after) :
    Keeps always pre (task >>= next) after := by
  intro state start
  have met := first state start
  change Meets always after (andThen task next state)
  rw [andThen]
  cases ran : (task state).result with
  | error reason => exact ⟨met.passed, met.final, fun _ result => (by cases result)⟩
  | ok value =>
      have later := rest value _ (met.returned value ran)
      refine ⟨fun moment member => ?_, later.final, later.returned⟩
      rcases List.mem_append.mp member with early | late
      · exact met.passed moment early
      · exact later.passed moment late

theorem Keeps.cleaning {cleanup : Task σ ε Unit} (keeps : Keeps always pre task post)
    (cleans : Keeps always always cleanup fun _ _ => True) :
    Keeps always pre (task.cleaning cleanup) post := by
  intro state start
  have met := keeps state start
  rw [Task.cleaning]
  cases ran : (task state).result with
  | ok value =>
      refine ⟨met.passed, met.final, fun other result => ?_⟩
      cases result
      exact met.returned value ran
  | error reason =>
      have later := cleans _ met.final
      refine ⟨fun moment member => ?_, later.final, fun _ result => (by cases result)⟩
      rcases List.mem_append.mp member with early | late
      · exact met.passed moment early
      · exact later.passed moment late

/-- A failure is a value, in a state of which nothing more is known. -/
theorem Keeps.attempt (keeps : Keeps always pre task post) :
    Keeps always pre task.attempt fun outcome state => always state ∧ ∀ value, outcome = .ok value →
      post value state := by
  intro state start
  have met := keeps state start
  refine ⟨met.passed, met.final, fun outcome result => ⟨met.final, fun value ended => ?_⟩⟩
  have same : (task state).result = outcome := Except.ok.inj result
  exact met.returned value (same.trans ended)

/-- A loop keeps what holds between its rounds, which may depend on the items already done. -/
theorem keeps_forEach {each : α → Task σ ε β} (between : List α → σ → Prop) {all : List α}
    (holds : ∀ finished state, between finished state → always state)
    (round : ∀ finished item rest, all = finished ++ item :: rest →
      Keeps always (between finished) (each item) fun _ => between (finished ++ [item]))
    (items finished : List α) (whole : all = finished ++ items) :
    Keeps always (between finished) (forEach each items) fun _ => between all := by
  induction items generalizing finished with
  | nil =>
      rw [whole, List.append_nil]
      exact keeps_done fun state start => ⟨holds finished state start, start⟩
  | cons item rest ih =>
      apply (round finished item rest whole).bind _
      intro first
      apply (ih (finished ++ [item]) (by simp [whole])).bind _
      intro more
      exact keeps_done fun state start => ⟨holds all state start, start⟩

theorem keeps_foldEach {each : α → β → Task σ ε α} (between : List β → α → σ → Prop) {all : List β}
    (holds : ∀ finished value state, between finished value state → always state)
    (round : ∀ finished item rest value, all = finished ++ item :: rest →
      Keeps always (between finished value) (each value item) fun next => between
        (finished ++ [item]) next)
    (items finished : List β) (value : α) (whole : all = finished ++ items) :
    Keeps always (between finished value) (foldEach each value items)
      fun last => between all last := by
  induction items generalizing finished value with
  | nil =>
      rw [whole, List.append_nil]
      exact keeps_done fun state start => ⟨holds finished value state start, start⟩
  | cons item rest ih =>
      apply (round finished item rest value whole).bind _
      intro next
      exact ih (finished ++ [item]) next (by simp [whole])

/-- From `state` the task returns `value` and leaves `after`. -/
def Returns (task : Task σ ε α) (state : σ) (value : α) (after : σ) : Prop :=
  (task state).result = .ok value ∧ (task state).final = after

variable {state after : σ} {value : α}

theorem returns_bind_iff {next : α → Task σ ε β} {result : β} :
    Returns (task >>= next) state result after ↔
      ∃ value middle, Returns task state value middle ∧
        Returns (next value) middle result after := by
  change Returns (andThen task next) state result after ↔ _
  unfold Returns andThen
  cases ran : (task state).result with
  | error reason => simp [ran]
  | ok value => simp [ran]

theorem returns_pure_iff {other : α} :
    Returns (pure other : Task σ ε α) state value after ↔ other = value ∧ state = after := by
  change (Except.ok other = Except.ok value ∧ state = after) ↔ _
  rw [Except.ok.injEq]

theorem returns_inspect_iff {look : σ → Except ε α} :
    Returns (inspect look) state value after ↔ look state = .ok value ∧ state = after := Iff.rfl

theorem returns_operate_iff {change : σ → σ} {done : Unit} :
    Returns (operate change : Task σ ε Unit) state done after ↔ change state = after := by
  change (Except.ok () = Except.ok done ∧ change state = after) ↔ _
  simp

/-- What was looked up is known. -/
theorem returns_inspect_bind {look : σ → Except ε α} {next : α → Task σ ε β} {result : β}
    (looked : look state = .ok value) :
    Returns (inspect look >>= next) state result after ↔
      Returns (next value) state result after := by
  simp [returns_bind_iff, returns_inspect_iff, looked]

theorem returns_operate_bind {change : σ → σ} {next : Unit → Task σ ε β} {result : β} :
    Returns (operate change >>= next) state result after ↔
      Returns (next ()) (change state) result after := by
  rw [returns_bind_iff]
  constructor
  · rintro ⟨_, middle, operated, rest⟩
    exact returns_operate_iff.mp operated ▸ rest
  · exact fun rest => ⟨(), _, returns_operate_iff.mpr rfl, rest⟩

theorem returns_raise_iff {reason : ε} :
    Returns (raise reason : Task σ ε α) state value after ↔ False := by
  change (Except.error reason = Except.ok value ∧ state = after) ↔ False
  simp

end Task

/-- A task that is undone when it raises. -/
def atomically {σ ε α : Type} (task : Task σ ε α) (state : σ) : Except ε α × σ :=
  match (task state).result with
  | .ok value => (.ok value, (task state).final)
  | .error reason => (.error reason, state)

theorem atomically_eq_ok_iff {σ ε α : Type} {task : Task σ ε α} {state : σ} {value : α} :
    (atomically task state).1 = .ok value ↔ task.Returns state value (atomically task state).2 := by
  unfold atomically Task.Returns
  cases ran : (task state).result with
  | error reason => simp
  | ok value => simp

theorem atomically_eq_error {σ ε α : Type} {task : Task σ ε α} {state : σ} {reason : ε}
    (raised : (atomically task state).1 = .error reason) : (atomically task state).2 = state := by
  unfold atomically at raised ⊢
  cases ran : (task state).result with
  | error reason => rfl
  | ok value =>
      rw [ran] at raised
      cases raised

end Stopan.Lib
