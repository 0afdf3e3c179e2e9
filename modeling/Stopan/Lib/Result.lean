import Mathlib

namespace Stopan.Lib

variable {ε α β : Type}

theorem bind_eq_ok_iff {computation : Except ε α} {next : α → Except ε β} {result : β} :
    (computation >>= next) = .ok result ↔ ∃ value, computation = .ok value ∧
      next value = .ok result := by
  cases computation with
  | error reason => simp [bind, Except.bind]
  | ok value => simp [bind, Except.bind]

theorem bind_eq_error_iff {computation : Except ε α} {next : α → Except ε β} {reason : ε} :
    (computation >>= next) = .error reason ↔
      computation = .error reason ∨ ∃ value, computation = .ok value ∧
        next value = .error reason := by
  cases computation with
  | error other => simp [bind, Except.bind]
  | ok value => simp [bind, Except.bind]

theorem map_eq_ok_iff {computation : Except ε α} {change : α → β} {result : β} :
    change <$> computation = .ok result ↔ ∃ value, computation = .ok value ∧
      change value = result := by
  cases computation with
  | error reason => simp [Functor.map, Except.map]
  | ok value => simp [Functor.map, Except.map]

theorem pure_eq_ok_iff {value result : α} : (pure value : Except ε α) = .ok result ↔
    value = result := by
  simp [pure, Except.pure]

/-- A guard: raise `reason` unless the condition holds. -/
def ensure (condition : Bool) (reason : ε) : Except ε Unit :=
  if condition then .ok () else .error reason

theorem ensure_eq_ok_iff {condition : Bool} {reason : ε} {done : Unit} :
    ensure condition reason = .ok done ↔ condition = true := by
  cases condition <;> simp [ensure]

theorem ensure_bind_eq_ok_iff {condition : Bool} {reason : ε}
    {next : Unit → Except ε β} {result : β} :
    (ensure condition reason >>= next) = .ok result ↔ condition = true ∧ next () = .ok result := by
  cases condition <;> simp [ensure, bind, Except.bind]

theorem mapM_eq_ok_iff {check : α → Except ε β} {items : List α} {results : List β} :
    items.mapM check = .ok results ↔
      List.Forall₂ (fun item result => check item = .ok result) items results := by
  induction items generalizing results with
  | nil => cases results <;> simp [pure_eq_ok_iff]
  | cons item rest ih =>
      rw [List.mapM_cons, bind_eq_ok_iff]
      constructor
      · intro ran
        obtain ⟨first, checked, remaining⟩ := ran
        obtain ⟨tail, others, built⟩ := bind_eq_ok_iff.mp remaining
        cases pure_eq_ok_iff.mp built
        exact .cons checked (ih.mp others)
      · intro related
        cases related with
        | cons checked others => exact ⟨_, checked, bind_eq_ok_iff.mpr ⟨_, ih.mpr others, rfl⟩⟩

/-- A traversal raises what the check of one of its items raises. -/
theorem exists_of_mapM_error {check : α → Except ε β} {items : List α} {reason : ε}
    (failed : items.mapM check = .error reason) : ∃ item ∈ items, check item = .error reason := by
  induction items with
  | nil => cases failed
  | cons item rest ih =>
      rw [List.mapM_cons, bind_eq_error_iff] at failed
      rcases failed with here | ⟨value, -, later⟩
      · exact ⟨item, List.mem_cons_self, here⟩
      rcases bind_eq_error_iff.mp later with further | ⟨values, -, returned⟩
      · obtain ⟨found, member, raised⟩ := ih further
        exact ⟨found, List.mem_cons_of_mem item member, raised⟩
      · cases returned

theorem exists_mapM_ok {check : α → Except ε β} {items : List α}
    (each : ∀ item ∈ items, ∃ result, check item = .ok result) :
    ∃ results, items.mapM check = .ok results := by
  induction items with
  | nil => exact ⟨[], rfl⟩
  | cons item rest ih =>
      obtain ⟨first, checked⟩ := each item (by simp)
      obtain ⟨others, rest⟩ := ih fun other member => each other (by simp [member])
      exact ⟨first :: others, by rw [List.mapM_cons, checked, rest]; rfl⟩

/-- A fold whose steps return from the states that satisfy an invariant returns. -/
theorem exists_foldlM_ok {step : α → β → Except ε α} (invariant : α → Prop)
    {items : List β} {start : α} (each : ∀ state, ∀ item ∈ items, invariant state →
      ∃ next, step state item = .ok next ∧ invariant next)
    (held : invariant start) : ∃ stop, items.foldlM step start = .ok stop := by
  induction items generalizing start with
  | nil => exact ⟨start, rfl⟩
  | cons item rest ih =>
      obtain ⟨next, stepped, kept⟩ := each start item (by simp) held
      obtain ⟨stop, ran⟩ := ih (fun state other member => each state other (by simp [member])) kept
      exact ⟨stop, by rw [List.foldlM_cons, stepped]; exact ran⟩

/-- What every step of a loop that may raise preserves holds after the loop. -/
theorem foldlM_invariant {step : α → β → Except ε α} (invariant : α → Prop)
    {items : List β} {start stop : α}
    (preserved : ∀ state, ∀ item ∈ items, ∀ next, invariant state → step state item = .ok next →
      invariant next)
    (initial : invariant start) (ran : items.foldlM step start = .ok stop) : invariant stop := by
  induction items generalizing start with
  | nil =>
      cases ran
      exact initial
  | cons item rest ih =>
      rw [List.foldlM_cons] at ran
      obtain ⟨middle, first, others⟩ := bind_eq_ok_iff.mp ran
      refine ih ?_ (preserved start item (by simp) middle initial first) others
      exact fun state later member => preserved state later (.tail _ member)

theorem forall₂_mem_right {relation : α → β → Prop} {items : List α} {results : List β} {result : β}
    (related : List.Forall₂ relation items results) (member : result ∈ results) :
    ∃ item ∈ items, relation item result := by
  induction related with
  | nil => cases member
  | cons first rest ih =>
      cases member with
      | head => exact ⟨_, by simp, first⟩
      | tail _ later =>
          obtain ⟨item, present, holds⟩ := ih later
          exact ⟨item, by simp [present], holds⟩

theorem forall₂_mem_left {relation : α → β → Prop} {items : List α} {results : List β} {item : α}
    (related : List.Forall₂ relation items results) (member : item ∈ items) :
    ∃ result ∈ results, relation item result := by
  obtain ⟨result, present, holds⟩ := forall₂_mem_right related.flip member
  exact ⟨result, present, holds⟩

end Stopan.Lib
