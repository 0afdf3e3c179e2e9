import Mathlib

namespace Stopan.Lib

variable {σ ι : Type}

/-- Perform the events in order; a refused event leaves the run undefined. -/
def runEvents (step : σ → ι → Option σ) : σ → List ι → Option σ
  | state, [] => some state
  | state, event :: rest => (step state event).bind fun next => runEvents step next rest

/-- Every event of the run meets a condition in the state in which it happens. -/
def EventsMeet (step : σ → ι → Option σ) (condition : σ → ι → Prop) : σ → List ι → Prop
  | _, [] => True
  | state, event :: rest =>
      condition state event ∧ ∀ next, step state event = some next →
        EventsMeet step condition next rest

variable {step : σ → ι → Option σ} {condition : σ → ι → Prop} {state after : σ}

/-- A step that needs a condition. -/
theorem guarded_eq_some {needed : Prop} [Decidable needed] {next : σ} :
    (do guard needed; return next : Option σ) = some after ↔ needed ∧ next = after := by
  by_cases holds : needed <;> simp [guard, holds]

theorem runEvents_cons {event : ι} {rest : List ι}
    (ran : runEvents step state (event :: rest) = some after) :
    ∃ next, step state event = some next ∧ runEvents step next rest = some after := by
  simpa [runEvents, Option.bind_eq_some_iff] using ran

theorem runEvents_append (events more : List ι) :
    runEvents step state (events ++ more) =
      (runEvents step state events).bind fun middle => runEvents step middle more := by
  induction events generalizing state with
  | nil => rfl
  | cons event rest ih =>
      simp only [List.cons_append, runEvents, Option.bind_assoc]
      exact Option.bind_congr fun next _ => ih

theorem eventsMeet_true (events : List ι) : EventsMeet step (fun _ _ => True) state events := by
  induction events generalizing state with
  | nil => trivial
  | cons event rest ih => exact ⟨trivial, fun next _ => ih⟩

theorem eventsMeet_of_forall {condition : ι → Prop} {events : List ι}
    (all : ∀ event ∈ events, condition event) :
    EventsMeet step (fun _ event => condition event) state events := by
  induction events generalizing state with
  | nil => trivial
  | cons event rest ih =>
      refine ⟨all event List.mem_cons_self, fun next _ => ih ?_⟩
      intro later member
      exact all later (List.mem_cons_of_mem event member)

/-- The condition on a run in two parts, the second from the state that the first reaches. -/
theorem EventsMeet.split {middle : σ} {earlier later : List ι}
    (meets : EventsMeet step condition state (earlier ++ later))
    (ran : runEvents step state earlier = some middle) :
    EventsMeet step condition state earlier ∧ EventsMeet step condition middle later := by
  induction earlier generalizing state with
  | nil =>
      cases ran
      exact ⟨trivial, meets⟩
  | cons event rest ih =>
      obtain ⟨next, stepped, continued⟩ := runEvents_cons ran
      obtain ⟨left, right⟩ := ih (meets.2 next stepped) continued
      refine ⟨⟨meets.1, fun other reached => ?_⟩, right⟩
      rw [stepped, Option.some.injEq] at reached
      exact reached ▸ left

/-- An invariant that every event meeting the condition preserves holds after the whole run. -/
theorem runEvents_invariant (invariant : σ → Prop) {events : List ι}
    (preserved : ∀ state event next, invariant state → condition state event →
      step state event = some next → invariant next)
    (initial : invariant state) (meets : EventsMeet step condition state events)
    (ran : runEvents step state events = some after) : invariant after := by
  induction events generalizing state with
  | nil =>
      cases ran
      exact initial
  | cons event rest ih =>
      obtain ⟨next, stepped, continued⟩ := runEvents_cons ran
      exact ih (preserved state event next initial meets.1 stepped) (meets.2 next stepped) continued

/-- Where a step from a safe state ends in a safe state exactly when it meets a condition, a run
goes through safe states only exactly when all its events meet it. -/
theorem safeAlong_iff_eventsMeet (invariant safe : σ → Prop) {events : List ι}
    (preserved : ∀ state event next, invariant state → step state event = some next →
      invariant next)
    (decided : ∀ state event next, invariant state → safe state → step state event = some next →
      (safe next ↔ condition state event))
    (initial : invariant state) (start : safe state)
    (ran : runEvents step state events = some after) :
    (∀ earlier later reached, events = earlier ++ later →
      runEvents step state earlier = some reached →
      safe reached) ↔ EventsMeet step condition state events := by
  induction events generalizing state with
  | nil =>
      refine ⟨fun _ => trivial, fun _ earlier later reached split reaches => ?_⟩
      obtain ⟨rfl, rfl⟩ := List.append_eq_nil_iff.mp split.symm
      cases reaches
      exact start
  | cons event rest ih =>
      obtain ⟨next, stepped, continued⟩ := runEvents_cons ran
      have kept := preserved state event next initial stepped
      have equivalent := decided state event next initial start stepped
      constructor
      · intro safeAlong
        have reached : safe next := safeAlong [event] rest next rfl (by simp [runEvents, stepped])
        refine ⟨equivalent.mp reached, fun other steppedTo => ?_⟩
        rw [stepped, Option.some.injEq] at steppedTo
        rw [← steppedTo]
        refine (ih kept reached continued).mp fun earlier later middle split reaches => ?_
        exact safeAlong (event :: earlier) later middle (by rw [split]; rfl)
          (by simp [runEvents, stepped, reaches])
      · intro meets earlier later reached split reaches
        have safeNext := equivalent.mpr meets.1
        cases earlier with
        | nil =>
            cases reaches
            exact start
        | cons first more =>
            cases split
            obtain ⟨middle, steppedTo, onward⟩ := runEvents_cons reaches
            rw [stepped, Option.some.injEq] at steppedTo
            rw [← steppedTo] at onward
            exact (ih kept safeNext continued).mpr
              (meets.2 next stepped) more later reached rfl onward

/-- The same for what holds of the steps themselves besides the states they end in. -/
theorem safeSteps_iff_eventsMeet (invariant safe : σ → Prop)
    (sound : σ → ι → Prop) {events : List ι} (preserved : ∀ state event next, invariant state →
      step state event = some next → invariant next)
    (decided : ∀ state event next, invariant state → safe state → step state event = some next →
      (safe next ∧ sound state event ↔ condition state event))
    (initial : invariant state) (start : safe state)
    (ran : runEvents step state events = some after) :
    (∀ earlier event later reached next, events = earlier ++ event :: later →
      runEvents step state earlier = some reached → step reached event = some next →
        safe next ∧ sound reached event) ↔ EventsMeet step condition state events := by
  induction events generalizing state with
  | nil =>
      refine ⟨fun _ => trivial, fun _ earlier event later _ _ split => ?_⟩
      exact absurd split.symm (List.append_ne_nil_of_right_ne_nil _ (List.cons_ne_nil _ _))
  | cons first rest ih =>
      obtain ⟨next, stepped, continued⟩ := runEvents_cons ran
      have kept := preserved state first next initial stepped
      have equivalent := decided state first next initial start stepped
      constructor
      · intro steps
        have here := steps [] first rest state next rfl rfl stepped
        refine ⟨equivalent.mp here, fun other steppedTo => ?_⟩
        rw [stepped, Option.some.injEq] at steppedTo
        rw [← steppedTo]
        refine (ih kept here.1 continued).mp
          fun earlier event later middle onward split reaches => ?_
        exact steps (first :: earlier) event later middle onward (by rw [split]; rfl)
          (by simp [runEvents, stepped, reaches])
      · intro meets earlier event later reached onward split reaches steppedOn
        have here := equivalent.mpr meets.1
        cases earlier with
        | nil =>
            cases reaches
            cases split
            rw [stepped, Option.some.injEq] at steppedOn
            exact steppedOn ▸ here
        | cons head more =>
            cases split
            obtain ⟨middle, steppedTo, remaining⟩ := runEvents_cons reaches
            rw [stepped, Option.some.injEq] at steppedTo
            rw [← steppedTo] at remaining
            exact (ih kept here.1 continued).mpr
              (meets.2 next stepped) more event later reached onward rfl remaining steppedOn

/-- An executable check that every event of a run meets a decidable condition. -/
def checkEvents (step : σ → ι → Option σ) (condition : σ → ι → Bool) : σ → List ι → Bool
  | _, [] => true
  | state, event :: rest =>
      condition state event && match step state event with
        | none => true
        | some next => checkEvents step condition next rest

theorem eventsMeet_of_checkEvents {condition : σ → ι → Bool} {events : List ι}
    (checked : checkEvents step condition state events = true) :
    EventsMeet step (fun state event => condition state event = true) state events := by
  induction events generalizing state with
  | nil => trivial
  | cons event rest ih =>
      simp only [checkEvents, Bool.and_eq_true] at checked
      refine ⟨checked.1, ?_⟩
      intro next stepped
      have later := checked.2
      rw [stepped] at later
      exact ih later

/-- The rule for invariants that need no condition on the events. -/
theorem runEvents_preserves (invariant : σ → Prop) {events : List ι}
    (preserved : ∀ state event next, invariant state → step state event = some next →
      invariant next)
    (initial : invariant state) (ran : runEvents step state events = some after) :
    invariant after :=
  runEvents_invariant invariant
    (fun state event next holds _ stepped => preserved state event next holds stepped)
    initial (eventsMeet_true events) ran

end Stopan.Lib
