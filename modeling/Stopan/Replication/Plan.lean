import Stopan.Cluster.Placement
import Stopan.Lib.Result
import Stopan.Protection.Policy

/-!
HRW placement of full copies: the targets of each chunk and the work grouped by address
(`stopan/protection/replication/placement.py`).
-/

namespace Stopan.Replication

open Stopan.Lib Stopan.Common Stopan.Cluster Stopan.Protection

structure ReplicationTargetPlan where
  chunkTargets : Dict Text (List ClusterMember)
  targetChunks : Dict Text (List Text)
  targetMembers : Dict Text ClusterMember
  deriving DecidableEq

def ReplicationTargetPlan.empty : ReplicationTargetPlan :=
  { chunkTargets := .empty, targetChunks := .empty, targetMembers := .empty }

def excludedOrigin (originNodeId : Text) : Except StopanError (List Text) :=
  if (strip originNodeId).isEmpty then
    .error (.configValue "origin_node_id no puede estar vacío para placement remoto.")
  else .ok [strip originNodeId]

def selectRemoteChunkTargets (blake3 : Blake3) (cluster : ClusterView) (chunkHash : Text)
    (requiredRemoteCopies : Int) (clusterToken originNodeId : Text) :
    Except StopanError (List ClusterMember) := do
  let required ← normalizeRemoteRf requiredRemoteCopies "required_remote_copies"
  if required = 0 then return []
  let excluded ← excludedOrigin originNodeId
  return cluster.hrwTargetsExcluding blake3 chunkHash required clusterToken excluded

/-- The targets of one chunk among the candidate members. -/
def plannedTargets (blake3 : Blake3) (candidates : List ClusterMember) (k : Nat)
    (salt chunkHash : Text) :
    List ClusterMember :=
  if k = 0 then []
  else
    (hrwTopKNodeIds blake3 chunkHash (candidates.map ClusterMember.nodeId) k salt).filterMap
      (Dict.ofList (candidates.map fun nodeMember => (nodeMember.nodeId, nodeMember))).get?

/-- `target_chunks[member.address].append(chunk_hash)` for every target of a chunk. -/
def appendToTargets (chunkHash : Text) (targets : List ClusterMember)
    (work : Dict Text (List Text)) :
    Dict Text (List Text) :=
  targets.foldl (fun work target => work.modify target.address [] (· ++ [chunkHash])) work

def planChunk (targetsOf : Text → List ClusterMember) (plan : ReplicationTargetPlan)
    (chunkHash : Text) :
    ReplicationTargetPlan :=
  { chunkTargets := plan.chunkTargets.set chunkHash (targetsOf chunkHash)
    targetChunks := appendToTargets chunkHash (targetsOf chunkHash) plan.targetChunks
    targetMembers :=
      (targetsOf chunkHash).foldl (fun table target => table.set target.address target)
      plan.targetMembers }

def planChunkReplicationTargets (blake3 : Blake3) (cluster : ClusterView) (chunkHashes : List Text)
    (requiredRemoteCopies : Int) (clusterToken originNodeId : Text) :
    Except StopanError ReplicationTargetPlan := do
  let required ← normalizeRemoteRf requiredRemoteCopies "required_remote_copies"
  let excluded ← excludedOrigin originNodeId
  let candidates := cluster.candidateMembersExcluding excluded
  let k := min required candidates.length
  return (orderedUnique chunkHashes).foldl
    (planChunk (plannedTargets blake3 candidates k clusterToken)) .empty

/-- The chunks assigned to an address, with one occurrence for each target that has the address. -/
def ReplicationTargetPlan.assigned (plan : ReplicationTargetPlan) (address : Text) : List Text :=
  (plan.targetChunks.get? address).getD []

/-- How many of the members listen on an address. -/
def targetsAt (address : Text) (targets : List ClusterMember) : Nat :=
  targets.countP fun target => target.address == address

theorem targetsAt_pos_iff {address : Text} {targets : List ClusterMember} :
    0 < targetsAt address targets ↔ address ∈ targets.map (·.address) := by
  rw [targetsAt, List.countP_pos_iff, List.mem_map]
  simp

theorem targetsAt_le_one {targets : List ClusterMember}
    (distinct : (targets.map ClusterMember.address).Nodup)
    (address : Text) : targetsAt address targets ≤ 1 := by
  have counted : targetsAt address targets = (targets.map ClusterMember.address).count address := by
    rw [targetsAt, List.count, List.countP_map]
    rfl
  rw [counted]
  exact List.nodup_iff_count_le_one.mp distinct address

section Plan

variable {targetsOf : Text → List ClusterMember} {plan : ReplicationTargetPlan}
  {chunkHash address : Text}

theorem appendToTargets_assigned (targets : List ClusterMember) (work : Dict Text (List Text)) :
    ((appendToTargets chunkHash targets work).get? address).getD [] =
      (work.get? address).getD [] ++ List.replicate (targetsAt address targets) chunkHash := by
  rw [appendToTargets, Dict.get?_foldl_group, targetsAt, List.countP_eq_length_filter]
  rw [← List.map_eq_flatMap, List.map_const']
  simp only [beq_eq_decide]

theorem appendToTargets_keys (targets : List ClusterMember) (work : Dict Text (List Text)) :
    address ∈ (appendToTargets chunkHash targets work).keys ↔
      address ∈ work.keys ∨ 0 < targetsAt address targets := by
  rw [appendToTargets, Dict.mem_keys_foldl_group, targetsAt, List.countP_pos_iff]
  simp

theorem foldl_planChunk_assigned (hashes : List Text) :
    (hashes.foldl (planChunk targetsOf) plan).assigned address =
      plan.assigned address ++
        hashes.flatMap fun chunkHash => List.replicate
          (targetsAt address (targetsOf chunkHash)) chunkHash := by
  induction hashes generalizing plan with
  | nil => simp
  | cons chunkHash rest ih =>
      have step : (planChunk targetsOf plan chunkHash).assigned address =
          plan.assigned address ++ List.replicate
            (targetsAt address (targetsOf chunkHash)) chunkHash :=
        appendToTargets_assigned _ _
      simp only [List.foldl_cons, List.flatMap_cons]
      rw [ih, step, List.append_assoc]

theorem foldl_planChunk_keys (hashes : List Text) :
    address ∈ (hashes.foldl (planChunk targetsOf) plan).targetChunks.keys ↔
      address ∈ plan.targetChunks.keys ∨ ∃ chunkHash ∈ hashes, 0 < targetsAt address
        (targetsOf chunkHash) := by
  induction hashes generalizing plan with
  | nil => simp
  | cons chunkHash rest ih =>
      have step : address ∈ (planChunk targetsOf plan chunkHash).targetChunks.keys ↔
          address ∈ plan.targetChunks.keys ∨ 0 < targetsAt address (targetsOf chunkHash) :=
        appendToTargets_keys _ _
      simp only [List.foldl_cons, List.mem_cons, exists_eq_or_imp]
      rw [ih, step, or_assoc]

theorem foldl_planChunk_targets (hashes : List Text) :
    (hashes.foldl (planChunk targetsOf) plan).chunkTargets.get? chunkHash =
      if chunkHash ∈ hashes then some (targetsOf chunkHash)
        else plan.chunkTargets.get? chunkHash := by
  induction hashes generalizing plan with
  | nil => simp
  | cons first rest ih =>
      have step : (planChunk targetsOf plan first).chunkTargets.get? chunkHash =
          if chunkHash = first then some (targetsOf first) else plan.chunkTargets.get? chunkHash :=
        Dict.get?_set _ _ _ _
      simp only [List.foldl_cons, List.mem_cons]
      rw [ih, step]
      by_cases inside : chunkHash ∈ rest
      · simp [inside]
      · by_cases here : chunkHash = first
        · subst here
          simp [inside]
        · simp [inside, here]

theorem count_flatMap_replicate {items : List Text} (copies : Text → Nat) {item : Text}
    (distinct : items.Nodup) :
    (items.flatMap fun other => List.replicate (copies other) other).count item =
      if item ∈ items then copies item else 0 := by
  induction items with
  | nil => simp
  | cons first rest ih =>
      simp only [List.nodup_cons] at distinct
      rw [List.flatMap_cons, List.count_append, ih distinct.2, List.count_replicate]
      by_cases here : item = first
      · subst here
        simp [distinct.1]
      · have elsewhere : ¬ first = item := fun equal => here equal.symm
        simp [here, elsewhere]

end Plan

section Targets

variable {blake3 : Blake3} {cluster : ClusterView} {chunkHashes : List Text} {rf : Nat}
  {clusterToken originNodeId : Text} {plan : ReplicationTargetPlan}

/-- The targets that the planner gives to a chunk once the origin is excluded. -/
def clusterTargets (blake3 : Blake3) (cluster : ClusterView) (rf : Nat) (clusterToken : Text)
    (excluded : List Text) (chunkHash : Text) : List ClusterMember :=
  plannedTargets blake3 (cluster.candidateMembersExcluding excluded)
    (min rf (cluster.candidateMembersExcluding excluded).length) clusterToken chunkHash

theorem planChunkReplicationTargets_ok
    (planned : planChunkReplicationTargets blake3 cluster chunkHashes rf clusterToken originNodeId =
      .ok plan) :
    ∃ excluded, excludedOrigin originNodeId = .ok excluded ∧
      plan = (orderedUnique chunkHashes).foldl
        (planChunk (clusterTargets blake3 cluster rf clusterToken excluded)) .empty := by
  unfold planChunkReplicationTargets at planned
  rw [normalizeRemoteRf_ofNat] at planned
  change (excludedOrigin originNodeId >>= _) = _ at planned
  obtain ⟨excluded, origin, built⟩ := bind_eq_ok_iff.mp planned
  exact ⟨excluded, origin, (pure_eq_ok_iff.mp built).symm⟩

/-- An address is assigned a chunk once for each of the chunk's targets that listens on it. -/
theorem plan_assigned_count {excluded : List Text} {chunkHash : Text}
    (member : chunkHash ∈ chunkHashes) (address : Text) :
    (((orderedUnique chunkHashes).foldl
      (planChunk (clusterTargets blake3 cluster rf clusterToken excluded)) .empty).assigned
        address).count chunkHash =
        targetsAt address (clusterTargets blake3 cluster rf clusterToken excluded chunkHash) := by
  have nothing : ReplicationTargetPlan.empty.assigned address = [] := rfl
  rw [foldl_planChunk_assigned, nothing, List.nil_append,
    count_flatMap_replicate _ (orderedUnique_nodup _), if_pos (mem_orderedUnique.mpr member)]

theorem plan_keys_iff {excluded : List Text} (address : Text) :
    address ∈ ((orderedUnique chunkHashes).foldl
      (planChunk (clusterTargets blake3 cluster rf clusterToken excluded))
        .empty).targetChunks.keys ↔ ∃ chunkHash ∈ chunkHashes,
          0 < targetsAt address
            (clusterTargets blake3 cluster rf clusterToken excluded chunkHash) := by
  rw [foldl_planChunk_keys]
  simp [ReplicationTargetPlan.empty, mem_orderedUnique]

/-- The planner and the cluster view choose the same targets. -/
theorem clusterTargets_eq_hrwTargetsExcluding (excluded : List Text) (chunkHash : Text) :
    clusterTargets blake3 cluster rf clusterToken excluded chunkHash =
      cluster.hrwTargetsExcluding blake3 chunkHash rf clusterToken excluded := by
  unfold clusterTargets plannedTargets ClusterView.hrwTargetsExcluding
  simp only [Int.toNat_natCast]
  split
  · rfl
  · apply List.filterMap_congr
    intro nodeId ranked
    have candidate := mem_of_mem_hrwTopKNodeIds blake3 ranked
    obtain ⟨target, eligible, rfl⟩ := List.mem_map.mp candidate
    have known : target ∈ cluster.members := (List.mem_filter.mp eligible).1
    have byId : (Dict.ofList ((cluster.candidateMembersExcluding excluded).map fun nodeMember =>
        (nodeMember.nodeId, nodeMember))).get? target.nodeId = some target := by
      apply Dict.get?_ofList_of_mem
      · rw [List.map_map]
        exact cluster.candidateNodeIdsExcluding_nodup excluded
      · exact List.mem_map.mpr ⟨target, eligible, rfl⟩
    have byAddress : cluster.nodeAddresses.get? target.nodeId = some target.address := by
      apply Dict.get?_ofList_of_mem
      · simpa [List.map_map, Function.comp_def] using cluster.distinct
      · exact List.mem_map.mpr ⟨target, known, rfl⟩
    rw [byId, byAddress]
    rfl

variable (blake3 cluster clusterToken) in
/-- `select_remote_chunk_targets` returns the targets that the planner uses. -/
theorem selectRemoteChunkTargets_eq {excluded : List Text} (chunkHash : Text) (positive : 1 ≤ rf)
    (origin : excludedOrigin originNodeId = .ok excluded) :
    selectRemoteChunkTargets blake3 cluster chunkHash rf clusterToken originNodeId =
      .ok (clusterTargets blake3 cluster rf clusterToken excluded chunkHash) := by
  have nonZero : rf ≠ 0 := by omega
  rw [clusterTargets_eq_hrwTargetsExcluding]
  simp [selectRemoteChunkTargets, normalizeRemoteRf_ofNat, origin, nonZero, bind,
    Except.bind, pure, Except.pure]

end Targets

end Stopan.Replication
