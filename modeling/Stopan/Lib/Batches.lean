import Mathlib

namespace Stopan.Lib

variable {κ ε : Type}

/-- What was asked and answered, what the answers reported, and the failure that stopped the
asking. -/
def askBatches (reply : Nat → Except ε (List κ)) :
    Nat → List (List κ) → List κ → List κ → List κ × List κ × Option ε
  | _, [], answered, reported => (answered, reported, none)
  | call, batch :: rest, answered, reported =>
      match reply call with
      | .error reason => (answered, reported, some reason)
      | .ok items => askBatches reply (call + 1) rest (answered ++ batch) (reported ++ items)

/-- What a number of answers from a call on reported. -/
def reportedFrom (reply : Nat → Except ε (List κ)) (call count : Nat) : List κ :=
  (List.range count).flatMap fun index =>
    match reply (call + index) with
    | .error _ => []
    | .ok items => items

theorem reportedFrom_succ {reply : Nat → Except ε (List κ)} {call count : Nat} {items : List κ}
    (answer : reply call = .ok items) :
    reportedFrom reply call (count + 1) = items ++ reportedFrom reply (call + 1) count := by
  unfold reportedFrom
  rw [List.range_succ_eq_map, List.flatMap_cons, Nat.add_zero, answer, List.flatMap_map]
  congr 1
  apply List.flatMap_congr
  intro index _
  rw [show call + Nat.succ index = call + 1 + index by omega]

/-- A failure at some batch keeps the evidence of exactly the earlier batches. -/
theorem askBatches_failed {reply : Nat → Except ε (List κ)} {batches : List (List κ)}
    {call failing : Nat} {reason : ε} (answered reported : List κ)
    (earlier : ∀ index < failing, ∃ items, reply (call + index) = .ok items)
    (failed : reply (call + failing) = .error reason) (inside : failing < batches.length) :
    askBatches reply call batches answered reported =
      (answered ++ (batches.take failing).flatten, reported ++ reportedFrom reply call failing,
        some reason) := by
  induction failing generalizing call batches answered reported with
  | zero =>
      cases batches with
      | nil => cases inside
      | cons batch rest =>
          rw [Nat.add_zero] at failed
          simp [askBatches, failed, reportedFrom]
  | succ failing ih =>
      cases batches with
      | nil => cases inside
      | cons batch rest =>
          obtain ⟨items, answer⟩ := earlier 0 (by omega)
          rw [Nat.add_zero] at answer
          have moved : ∀ index, call + 1 + index = call + (index + 1) := by
            intro index
            omega
          have later : ∀ index < failing, ∃ items, reply (call + 1 + index) = .ok items := by
            intro index before
            rw [moved]
            exact earlier (index + 1) (by omega)
          have continued :=
            ih (answered ++ batch) (reported ++ items) later ((moved failing).symm ▸ failed)
            (by simpa using inside)
          rw [askBatches, answer, reportedFrom_succ answer, List.take_succ_cons, List.flatten_cons]
          dsimp only
          rw [continued, List.append_assoc, List.append_assoc]

/-- Without a failure every batch is answered. -/
theorem askBatches_finished {reply : Nat → Except ε (List κ)} {batches : List (List κ)} {call : Nat}
    (answered reported : List κ)
    (answers : ∀ index < batches.length, ∃ items, reply (call + index) = .ok items) :
    askBatches reply call batches answered reported =
      (answered ++ batches.flatten, reported ++ reportedFrom reply call batches.length, none) := by
  induction batches generalizing call answered reported with
  | nil => simp [askBatches, reportedFrom]
  | cons batch rest ih =>
      obtain ⟨items, answer⟩ := answers 0 (by simp)
      rw [Nat.add_zero] at answer
      have later : ∀ index < rest.length, ∃ items, reply (call + 1 + index) = .ok items := by
        intro index before
        rw [show call + 1 + index = call + (index + 1) by omega]
        exact answers (index + 1) (by simpa using before)
      have continued := ih (answered ++ batch) (reported ++ items) later
      rw [askBatches, answer, List.length_cons, reportedFrom_succ answer, List.flatten_cons]
      dsimp only
      rw [continued, List.append_assoc, List.append_assoc]

end Stopan.Lib
