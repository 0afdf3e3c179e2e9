import Mathlib

namespace Stopan.Lib

/-- What a computation recorded, in order, and what it returned or raised. -/
structure Logged (ω ε α : Type) where
  log : List ω
  result : Except ε α

namespace Logged

variable {ω ε α β : Type}

def done (value : α) : Logged ω ε α := { log := [], result := .ok value }

def andThen (first : Logged ω ε α) (next : α → Logged ω ε β) : Logged ω ε β :=
  match first.result with
  | .error reason => { log := first.log, result := .error reason }
  | .ok value => { log := first.log ++ (next value).log, result := (next value).result }

instance : Monad (Logged ω ε) where
  pure := done
  bind := andThen

/-- A step that records nothing. -/
def check (outcome : Except ε α) : Logged ω ε α := { log := [], result := outcome }

/-- An operation that is recorded whether it returns or raises. -/
def note (entry : ω) (outcome : Except ε α) : Logged ω ε α := { log := [entry], result := outcome }

/-- The computation for each item, collecting what it returns. -/
def forEach (step : α → Logged ω ε β) : List α → Logged ω ε (List β)
  | [] => done []
  | item :: rest => do
      let first ← step item
      return first :: (← forEach step rest)

/-- A check that passes can be left out. -/
theorem check_ok_bind (value : α) (next : α → Logged ω ε β) :
    (check (.ok value) >>= next) = next value := rfl

@[simp] theorem result_pure (value : α) : (pure value : Logged ω ε α).result = .ok value := rfl

@[simp] theorem result_check (outcome : Except ε α) :
    (check outcome : Logged ω ε α).result = outcome := rfl

@[simp] theorem result_note (entry : ω) (outcome : Except ε α) :
    (note entry outcome).result = outcome := rfl

theorem result_bind_eq_ok_iff {first : Logged ω ε α} {next : α → Logged ω ε β} {value : β} :
    (first >>= next).result = .ok value ↔ ∃ middle, first.result = .ok middle ∧
      (next middle).result = .ok value := by
  change (andThen first next).result = .ok value ↔ _
  unfold andThen
  cases returned : first.result with
  | error reason => simp
  | ok middle => simp

/-- What follows a step that returned decides the result. -/
theorem result_bind_of_ok {first : Logged ω ε α} {next : α → Logged ω ε β} {value : α}
    (returned : first.result = .ok value) : (first >>= next).result = (next value).result := by
  change (andThen first next).result = _
  unfold andThen
  rw [returned]

/-- Every recorded operation is one of the allowed ones. -/
def Every (allowed : ω → Prop) (task : Logged ω ε α) : Prop := ∀ entry ∈ task.log, allowed entry

variable {allowed : ω → Prop}

theorem every_pure (value : α) : Every allowed (pure value : Logged ω ε α) := by
  intro entry member
  cases member

theorem every_check (outcome : Except ε α) : Every allowed (check outcome : Logged ω ε α) := by
  intro entry member
  cases member

@[simp] theorem every_note_iff {entry : ω} {outcome : Except ε α} :
    Every allowed (note entry outcome) ↔ allowed entry := by
  simp [Every, note]

theorem every_bind_iff {first : Logged ω ε α} {next : α → Logged ω ε β} :
    Every allowed (first >>= next) ↔
      Every allowed first ∧ ∀ value, first.result = .ok value → Every allowed (next value) := by
  change Every allowed (andThen first next) ↔ _
  unfold andThen Every
  cases returned : first.result with
  | error reason => simp
  | ok value => simp [or_imp, forall_and]

theorem every_bind_of_ok {first : Logged ω ε α} {next : α → Logged ω ε β} {value : α}
    (returned : first.result = .ok value) :
    Every allowed (first >>= next) ↔ Every allowed first ∧ Every allowed (next value) := by
  rw [every_bind_iff]
  constructor
  · rintro ⟨before, after⟩
    exact ⟨before, after value returned⟩
  · rintro ⟨before, after⟩
    refine ⟨before, ?_⟩
    intro other same
    cases returned.symm.trans same
    exact after

/-- A loop whose steps return when they record only allowed operations gets to each of its items. -/
theorem every_forEach_iff {step : α → Logged ω ε β} {items : List α}
    (settled : ∀ item ∈ items, Every allowed (step item) →
      ∃ value, (step item).result = .ok value) :
    Every allowed (forEach step items) ↔ ∀ item ∈ items, Every allowed (step item) := by
  induction items with
  | nil => simp [forEach, Every, done]
  | cons item rest ih =>
      have tail := ih fun other member => settled other (by simp [member])
      rw [forEach, every_bind_iff, List.forall_mem_cons]
      constructor
      · rintro ⟨first, after⟩
        obtain ⟨value, returned⟩ := settled item (by simp) first
        exact ⟨first, tail.mp (every_bind_iff.mp (after value returned)).1⟩
      · rintro ⟨first, others⟩
        refine ⟨first, ?_⟩
        intro value returned
        exact every_bind_iff.mpr ⟨tail.mpr others, fun _ _ => every_pure _⟩

theorem result_forEach {step : α → Logged ω ε β} {items : List α} {answer : α → β}
    (answers : ∀ item ∈ items, (step item).result = .ok (answer item)) :
    (forEach step items).result = .ok (items.map answer) := by
  induction items with
  | nil => rfl
  | cons item rest ih =>
      have tail := ih fun other member => answers other (by simp [member])
      rw [forEach, result_bind_of_ok (answers item (by simp)), result_bind_of_ok tail]
      rfl

end Logged

end Stopan.Lib
