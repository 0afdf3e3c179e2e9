import Stopan.Cluster.Placement
import Stopan.Protection.Policy

/-!
The effective fast-path policy of a backup (`stopan/backup/policy.py`).
-/

namespace Stopan.Backup

open Stopan.Lib Stopan.Common Stopan.Cluster Stopan.Protection

structure BackupPolicy where
  desiredRf : Nat
  fastLocalEnabled : Bool
  fastRemoteEnabled : Bool
  placementEpoch : Option Text
  deriving DecidableEq, Repr

/-- The arguments of `build_backup_fast_path_policy`. `membership` is what the membership server
of a seed answers, `none` standing for any failure of the call. -/
structure PolicyRequest where
  desiredRf : Int
  membershipSeed : Option Text
  clusterToken : Text
  membership : Text → Option ClusterView
  fastLocalEnabled : Bool
  fastRemoteEnabled : Bool
  safeMode : Bool
  originNodeId : Text

def tryClusterView (membershipSeed : Option Text) (membership : Text → Option ClusterView) :
    Option ClusterView :=
  let seed := strip (membershipSeed.getD [])
  if seed.isEmpty then none
  else match membership seed with
    | none => none
    | some view => if view.members.isEmpty then none else some view

def resolveRemotePlacementEpoch (blake3 : Blake3) (request : PolicyRequest) (desiredRf : Nat) :
    Except StopanError (Option Text) :=
  let originNodeId := strip request.originNodeId
  if originNodeId.isEmpty then
    .error (.configValue "resolve_remote_placement_epoch requiere un origin_node_id.")
  else match tryClusterView request.membershipSeed request.membership with
    | none => .ok none
    | some view =>
        match normalizeRemoteRf desiredRf "desired_rf" with
        | .error reason => .error reason
        | .ok required =>
            if required = 0 then .ok none
            else .ok (some
              (view.placementEpochExcluding blake3 required request.clusterToken [originNodeId]))

def BackupPolicy.disabled (desiredRf : Nat) : BackupPolicy :=
  { desiredRf, fastLocalEnabled := false, fastRemoteEnabled := false, placementEpoch := none }

def BackupPolicy.localOnly (desiredRf : Nat) : BackupPolicy :=
  { desiredRf, fastLocalEnabled := true, fastRemoteEnabled := false, placementEpoch := none }

def buildBackupFastPathPolicy (blake3 : Blake3) (request : PolicyRequest) :
    Except StopanError BackupPolicy :=
  match normalizeRemoteRf request.desiredRf "desired_rf" with
  | .error reason => .error reason
  | .ok desiredRf =>
      if (strip request.originNodeId).isEmpty then
        .error (.configValue
          "La política de fast-path de backup requiere un origin_node_id no vacío.")
      else if request.safeMode then .ok (.disabled desiredRf)
      else if !(request.fastLocalEnabled || request.fastRemoteEnabled) then
        .ok (.disabled desiredRf)
      else if !request.fastRemoteEnabled then .ok (.localOnly desiredRf)
      else if desiredRf = 0 then .ok (.localOnly desiredRf)
      else if (request.membershipSeed.getD []).isEmpty then .ok (.localOnly desiredRf)
      else match resolveRemotePlacementEpoch blake3 request desiredRf with
        | .error _ => .ok (.localOnly desiredRf)
        | .ok none => .ok (.localOnly desiredRf)
        | .ok (some epoch) =>
            .ok { desiredRf, fastLocalEnabled := true, fastRemoteEnabled := true,
                  placementEpoch := some epoch }

/-- The epoch is the one that the cluster view gives for the remote copies of this origin. -/
theorem resolveRemotePlacementEpoch_some {blake3 : Blake3} {request : PolicyRequest}
    {desiredRf : Nat} {epoch : Text}
    (resolved : resolveRemotePlacementEpoch blake3 request desiredRf = .ok (some epoch)) :
    1 ≤ desiredRf ∧ ∃ view, tryClusterView request.membershipSeed request.membership = some view ∧
      epoch = view.placementEpochExcluding blake3 desiredRf request.clusterToken
        [strip request.originNodeId] := by
  simp only [resolveRemotePlacementEpoch, normalizeRemoteRf_ofNat] at resolved
  split at resolved
  · cases resolved
  · cases found : tryClusterView request.membershipSeed request.membership with
    | none => simp [found] at resolved
    | some view =>
        simp only [found] at resolved
        split at resolved
        · cases resolved
        · rename_i positive
          cases resolved
          exact ⟨Nat.one_le_iff_ne_zero.mpr positive, view, rfl, rfl⟩

/-- Skipping on remote evidence is allowed only with at least one remote copy required, outside
of safe mode, and at the placement epoch of the current cluster view. -/
theorem buildBackupFastPathPolicy_remote {blake3 : Blake3} {request : PolicyRequest}
    {policy : BackupPolicy} (built : buildBackupFastPathPolicy blake3 request = .ok policy)
    (remote : policy.fastRemoteEnabled = true) :
    1 ≤ policy.desiredRf ∧
      ∃ view, tryClusterView request.membershipSeed request.membership = some view ∧
      policy.placementEpoch = some
        (view.placementEpochExcluding blake3 policy.desiredRf request.clusterToken
          [strip request.originNodeId]) := by
  unfold buildBackupFastPathPolicy at built
  cases normalized : normalizeRemoteRf request.desiredRf "desired_rf" with
  | error reason => simp [normalized] at built
  | ok desiredRf =>
      simp only [normalized] at built
      split at built
      · cases built
      split at built
      · cases built
        cases remote
      split at built
      · cases built
        cases remote
      split at built
      · cases built
        cases remote
      split at built
      · cases built
        cases remote
      split at built
      · cases built
        cases remote
      cases resolved : resolveRemotePlacementEpoch blake3 request desiredRf with
      | error reason =>
          simp only [resolved, Except.ok.injEq] at built
          subst built
          cases remote
      | ok answer =>
          cases answer with
          | none =>
              simp only [resolved, Except.ok.injEq] at built
              subst built
              cases remote
          | some epoch =>
              simp only [resolved, Except.ok.injEq] at built
              subst built
              obtain ⟨positive, view, found, same⟩ := resolveRemotePlacementEpoch_some resolved
              exact ⟨positive, view, found, congrArg some same⟩

end Stopan.Backup
