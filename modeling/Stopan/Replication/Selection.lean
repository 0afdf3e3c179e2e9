import Stopan.Cluster.RankStability
import Stopan.Replication.Plan

namespace Stopan.Replication

open Stopan.Lib Stopan.Common Stopan.Cluster Stopan.Protection

theorem selectRemoteChunkTargets_eq_plan {blake3 : Blake3}
    {cluster : ClusterView} {chunkHash : Text}
    {chunkHashes : List Text} {clusterToken originNodeId : Text} (requiredRemoteCopies : Int)
    (origin : strip originNodeId ≠ []) (listed : chunkHash ∈ chunkHashes) :
    selectRemoteChunkTargets blake3 cluster chunkHash requiredRemoteCopies
      clusterToken originNodeId =
      (planChunkReplicationTargets blake3 cluster chunkHashes requiredRemoteCopies
        clusterToken originNodeId).map
        fun plan => (plan.chunkTargets.get? chunkHash).getD [] := by
  have excluded : excludedOrigin originNodeId = .ok [strip originNodeId] := by
    simp [excludedOrigin, origin]
  rw [selectRemoteChunkTargets, planChunkReplicationTargets]
  cases copies : normalizeRemoteRf requiredRemoteCopies "required_remote_copies" with
  | error reason => rfl
  | ok required =>
      have planned :=
        @foldl_planChunk_targets
          (clusterTargets blake3 cluster required clusterToken [strip originNodeId])
        .empty chunkHash (orderedUnique chunkHashes)
      rw [if_pos (mem_orderedUnique.mpr listed), clusterTargets_eq_hrwTargetsExcluding] at planned
      change (if required = 0 then pure [] else excludedOrigin originNodeId >>= _) =
        Except.map _ (excludedOrigin
        originNodeId >>= _)
      rw [excluded]
      have entry : Except.map
          (fun plan : ReplicationTargetPlan => (plan.chunkTargets.get? chunkHash).getD [])
          (.ok ((orderedUnique chunkHashes).foldl
            (planChunk (clusterTargets blake3 cluster required clusterToken
            [strip originNodeId])) .empty) : Except StopanError ReplicationTargetPlan) =
          .ok (cluster.hrwTargetsExcluding blake3 chunkHash required clusterToken
            [strip originNodeId]) := by
        simp [Except.map, planned]
      refine Eq.trans ?_ entry.symm
      split
      · rename_i none
        subst none
        simp [ClusterView.hrwTargetsExcluding, pure, Except.pure]
      · rfl

theorem selectRemoteChunkTargets_ne_origin {blake3 : Blake3}
    {cluster : ClusterView} {chunkHash : Text}
    {clusterToken originNodeId : Text} {requiredRemoteCopies : Int} {targets : List ClusterMember}
    (selected : selectRemoteChunkTargets blake3 cluster chunkHash requiredRemoteCopies
      clusterToken originNodeId =
      .ok targets) : ∀ target ∈ targets, target.nodeId ≠ strip originNodeId := by
  simp only [selectRemoteChunkTargets, bind_eq_ok_iff] at selected
  obtain ⟨required, -, selected⟩ := selected
  split at selected
  · cases pure_eq_ok_iff.mp selected
    simp
  · obtain ⟨excluded, origin, built⟩ := bind_eq_ok_iff.mp selected
    cases pure_eq_ok_iff.mp built
    intro target member
    have allowed := (mem_candidateMembersExcluding.mp (mem_hrwTargetsExcluding_iff.mp member).1).2.2
    rw [excludedOrigin] at origin
    split at origin
    · cases origin
    · cases origin
      simpa using allowed

/-- The selection is the beginning of the ranking, so it does not depend on the order of the nodes,
a node outside it can leave, and a new one takes at most the last place. The planner and the
selection for one chunk agree and leave the origin out, which is `strip originNodeId`, as callers
pass it. -/
theorem hrwSelection_is_topK (blake3 : Blake3) (chunkHash salt : Text) (k : Nat)
    (nodeIds : List Text) (named : [] ∉ nodeIds) :
    hrwTopKNodeIds blake3 chunkHash nodeIds k salt =
      (hrwRanking blake3 chunkHash salt nodeIds).take k ∧
    (∀ others, others.Perm nodeIds →
      hrwTopKNodeIds blake3 chunkHash others k salt =
        hrwTopKNodeIds blake3 chunkHash nodeIds k salt) ∧
    (∀ removed, removed ∉ hrwTopKNodeIds blake3 chunkHash nodeIds k salt →
      hrwTopKNodeIds blake3 chunkHash (nodeIds.erase removed) k salt =
        hrwTopKNodeIds blake3 chunkHash nodeIds k salt) ∧
    (∀ added others, added ∉ nodeIds → added ≠ [] → others.Perm (added :: nodeIds) →
      (hrwTopKNodeIds blake3 chunkHash others k salt).erase added =
        hrwTopKNodeIds blake3 chunkHash nodeIds k salt ∨
      (added ∈ hrwTopKNodeIds blake3 chunkHash others k salt ∧
        (hrwTopKNodeIds blake3 chunkHash nodeIds k salt).length = k ∧
        (hrwTopKNodeIds blake3 chunkHash others k salt).erase added =
          (hrwTopKNodeIds blake3 chunkHash nodeIds k salt).dropLast)) ∧
    ∀ cluster chunkHashes requiredRemoteCopies clusterToken originNodeId, strip originNodeId ≠ [] →
      chunkHash ∈ chunkHashes →
      selectRemoteChunkTargets blake3 cluster chunkHash requiredRemoteCopies
        clusterToken originNodeId =
        (planChunkReplicationTargets blake3 cluster chunkHashes requiredRemoteCopies
          clusterToken originNodeId).map
          (fun plan => (plan.chunkTargets.get? chunkHash).getD []) ∧
      ∀ targets, selectRemoteChunkTargets blake3 cluster chunkHash requiredRemoteCopies
        clusterToken originNodeId =
        .ok targets → ∀ target ∈ targets, target.nodeId ≠ strip originNodeId := by
  have selected := @hrwTopKNodeIds_eq_take blake3 chunkHash salt
  refine ⟨selected named k, ?_, ?_, ?_, ?_⟩
  · intro others permuted
    have otherNamed : [] ∉ others := fun member => named (permuted.mem_iff.mp member)
    rw [selected named, selected otherNamed,
      hrwRanking_unique ((List.perm_insertionSort _ nodeIds).trans permuted.symm)
      hrwRanking_pairwise]
    rfl
  · intro removed outside
    have otherNamed : [] ∉ nodeIds.erase removed :=
      fun member => named (List.mem_of_mem_erase member)
    rw [selected named] at outside ⊢
    rw [selected otherNamed, hrwRanking_erase, take_erase_of_not_mem outside]
  · intro added others fresh nonempty permuted
    have otherNamed : [] ∉ others := by
      intro member
      rcases List.mem_cons.mp (permuted.mem_iff.mp member) with same | known
      · exact nonempty same.symm
      · exact named known
    obtain ⟨before, after, old, new⟩ := @hrwRanking_cons blake3 chunkHash salt nodeIds added
    have ranking : hrwRanking blake3 chunkHash salt others = before ++ added :: after := by
      rw [← new]
      exact hrwRanking_unique
        ((List.perm_insertionSort _ _).trans permuted.symm) hrwRanking_pairwise
    rw [selected named, selected otherNamed, ranking, old]
    apply erase_take_insert
    rw [← old, mem_hrwRanking]
    exact fresh
  · intro cluster chunkHashes requiredRemoteCopies clusterToken originNodeId origin listed
    exact ⟨selectRemoteChunkTargets_eq_plan requiredRemoteCopies origin listed,
      fun targets => selectRemoteChunkTargets_ne_origin⟩

namespace TwoNodes

/-- The digests of `c|a|h` and `c|b|h`. -/
def blake3 : Blake3 := .ofTable
  [([99, 124, 97, 124, 104], 0xe54353a3bcb16dcb7195c98a3b0a296093fe1ec7ea7a36d7876485d9d0d0ec0e),
    ([99, 124, 98, 124, 104], 0xcead74e54b975ef43468c1d4bde4e810edf501213aedec27775dba39c5796bf1)]

end TwoNodes

theorem twoNodes_selection :
    hrwTopKNodeIds TwoNodes.blake3 ['h'] [['b'], ['a']] 1 ['c'] = [['a']] ∧
      hrwTopKNodeIds TwoNodes.blake3 ['h'] [['b'], ['a']] 1 ['c'] =
        (hrwRanking TwoNodes.blake3 ['h'] ['c'] [['b'], ['a']]).take 1 :=
  ⟨by decide +kernel,
    (hrwSelection_is_topK TwoNodes.blake3 ['h'] ['c'] 1 [['b'], ['a']] (by decide)).1⟩

end Stopan.Replication
