import Stopan.Common.Basic

/-!
Remote protection of chunks: the persisted states and the rules that decide whether the
evidence of a `chunk_protection` row is still sufficient (`stopan/protection/policy.py`).
-/

namespace Stopan.Protection

open Stopan.Common

inductive ProtectionState where
  | pending
  | placed
  | degraded
  | verified
  | failed
  deriving DecidableEq, Repr

def ProtectionState.countsAsProtected : ProtectionState → Bool
  | .placed | .verified => true
  | .pending | .degraded | .failed => false

/-- A row of `chunk_protection` without its key, the chunk hash. -/
structure ProtectionRecord where
  desiredRf : Nat
  protectionState : ProtectionState
  protectedRemoteCopies : Nat
  placementEpoch : Option Text
  lastPushAt : Option PyFloat
  lastVerifyAt : Option PyFloat
  lastError : Option Text
  deriving DecidableEq, Repr

def ProtectionRecord.isProtected (record : ProtectionRecord) : Bool :=
  record.protectionState.countsAsProtected

def normalizeRemoteRf (value : Int) (fieldName : String) : Except StopanError Nat :=
  if value < 0 then .error (.configValue s!"{fieldName} debe ser >= 0") else .ok value.toNat

/-- Whether a row permits trusting that the chunk is protected remotely. -/
def isRecordSufficient (record : Option ProtectionRecord) (requiredRf : Int)
    (currentEpoch : Option Text) : Except StopanError Bool :=
  match normalizeRemoteRf requiredRf "required_rf" with
  | .error reason => .error reason
  | .ok required =>
      if required = 0 then .ok true
      else match record with
        | none => .ok false
        | some record =>
            if !record.isProtected then .ok false
            else if record.desiredRf < required then .ok false
            else if currentEpoch.isSome ∧ record.placementEpoch ≠ currentEpoch then .ok false
            else if record.protectedRemoteCopies < required then .ok false
            else .ok true

def protectionStateFromThresholds (confirmed successThreshold degradedThreshold : Nat)
    (successState : ProtectionState) (degradedState : ProtectionState := .degraded)
    (failedState : ProtectionState := .failed) : ProtectionState :=
  if successThreshold ≤ confirmed then successState
  else if degradedThreshold ≤ confirmed then degradedState
  else failedState

def replicationPushState (protectedRemoteCopies requiredRemoteCopies : Nat) : ProtectionState :=
  protectionStateFromThresholds protectedRemoteCopies requiredRemoteCopies 1 .placed

def replicationVerifyState (verifiedRemoteCopies requiredRemoteCopies : Nat) : ProtectionState :=
  protectionStateFromThresholds verifiedRemoteCopies requiredRemoteCopies 0
    .verified .degraded .degraded

theorem normalizeRemoteRf_ofNat (rf : Nat) (fieldName : String) :
    normalizeRemoteRf rf fieldName = .ok rf := by
  have nonNegative : ¬ (rf : Int) < 0 := by omega
  simp [normalizeRemoteRf, nonNegative]

/-- What acceptance says about the row once at least one remote copy is required. -/
theorem isRecordSufficient_iff {record : ProtectionRecord} {rf : Nat} {epoch : Option Text}
    (positive : 1 ≤ rf) :
    isRecordSufficient (some record) rf epoch = .ok true ↔
      record.isProtected = true ∧ rf ≤ record.desiredRf ∧
        (epoch = none ∨ record.placementEpoch = epoch) ∧ rf ≤ record.protectedRemoteCopies := by
  have nonZero : rf ≠ 0 := by omega
  simp only [isRecordSufficient, normalizeRemoteRf_ofNat, nonZero, if_false]
  cases state : record.isProtected with
  | false => simp
  | true =>
      cases epoch with
      | none =>
          simp only [Bool.not_true, Bool.false_eq_true, if_false,
            Option.isSome_none, false_and, true_or, true_and]
          split
          · rename_i low
            simp only [Except.ok.injEq, Bool.false_eq_true, false_iff]
            omega
          · split
            · simp only [Except.ok.injEq, Bool.false_eq_true, false_iff]
              omega
            · simp only [true_iff]
              omega
      | some epoch =>
          simp only [Bool.not_true, Bool.false_eq_true, if_false, Option.isSome_some,
            true_and, reduceCtorEq, false_or]
          split
          · simp only [Except.ok.injEq, Bool.false_eq_true, false_iff]
            omega
          · split
            · rename_i differs
              simp [differs]
            · rename_i same
              rw [not_not] at same
              split
              · simp only [Except.ok.injEq, Bool.false_eq_true, false_iff]
                omega
              · simp only [same, true_and, true_iff]
                omega

end Stopan.Protection
