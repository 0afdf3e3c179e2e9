import Stopan.Cluster.RankStability
import Stopan.Common.Json

namespace Stopan.Cluster

open Stopan.Lib Stopan.Common

/-- The node ids that the epoch covers: the non-empty ones without repetition, in order. -/
def epochNodeIds (eligibleNodeIds : List Text) : List Text :=
  (orderedUnique (eligibleNodeIds.filter fun nodeId => !nodeId.isEmpty)).insertionSort
    (fun left right => left ≤ right)

/-- The material of an epoch, which holds no fractional number. -/
def epochFields (F : Type) (clusterToken : Text) (desiredRf : Nat) (eligibleNodeIds : List Text) :
    List (Text × Json F) :=
  [("format".toList, .str placementEpochFormat),
    ("placement_scheme".toList, .str hrwPlacementScheme),
    ("cluster_token".toList, .str clusterToken),
    ("desired_rf".toList, .int desiredRf),
    ("eligible_node_ids".toList, .arr ((epochNodeIds eligibleNodeIds).map .str))]

def epochBytes (clusterToken : Text) (desiredRf : Nat) (eligibleNodeIds : List Text) : Bytes :=
  canonicalJsonBytes (.obj (epochFields Empty clusterToken desiredRf eligibleNodeIds))

section Epoch

variable {blake3 : Blake3} {clusterToken otherToken : Text} {desiredRf otherRf : Nat}
  {eligibleNodeIds otherNodeIds : List Text}

theorem computePlacementEpoch_eq :
    computePlacementEpoch blake3 clusterToken desiredRf eligibleNodeIds =
      blake3HexDigest blake3 (epochBytes clusterToken desiredRf eligibleNodeIds) := rfl

theorem epochFields_keys_nodup (F : Type) (clusterToken : Text) (desiredRf : Nat)
    (eligibleNodeIds : List Text) :
    ((epochFields F clusterToken desiredRf eligibleNodeIds).map Prod.fst).Nodup := by
  change ["format".toList, "placement_scheme".toList, "cluster_token".toList, "desired_rf".toList,
    "eligible_node_ids".toList].Nodup
  decide

theorem epochBytes_eq_canonical (clusterToken : Text) (desiredRf : Nat)
    (eligibleNodeIds : List Text) :
    epochBytes clusterToken desiredRf eligibleNodeIds =
      Common.canonicalJsonBytes
        (.obj (epochFields PyFloat clusterToken desiredRf eligibleNodeIds)) := by
  simp only [epochBytes, canonicalJsonBytes, Common.canonicalJsonBytes, canonicalJsonText,
    Json.dumped, epochFields,
    Json.dumps, Json.dumpFields, Json.dumpItems_eq_map, List.map_map, Function.comp_def]

theorem epochFields_encodable (clusterToken : Text) (desiredRf : Nat)
    (eligibleNodeIds : List Text) :
    Encodable (.obj (epochFields PyFloat clusterToken desiredRf eligibleNodeIds)) := by
  refine .obj (epochFields_keys_nodup ..) ?_
  intro field member
  simp only [epochFields, List.mem_cons, List.not_mem_nil, or_false] at member
  rcases member with rfl | rfl | rfl | rfl | rfl
  · exact .str _
  · exact .str _
  · exact .str _
  · exact .int _
  · refine .arr ?_
    intro item listed
    obtain ⟨nodeId, -, rfl⟩ := List.mem_map.mp listed
    exact .str nodeId

/-- The bytes give back everything that went into them. -/
theorem epochBytes_injective
    (same : epochBytes clusterToken desiredRf eligibleNodeIds =
      epochBytes otherToken otherRf otherNodeIds) :
    clusterToken = otherToken ∧ desiredRf = otherRf ∧
      epochNodeIds eligibleNodeIds = epochNodeIds otherNodeIds := by
  rw [epochBytes_eq_canonical, epochBytes_eq_canonical] at same
  have objects :=
    canonicalJsonBytes_injective (epochFields_encodable ..) (epochFields_encodable ..) same
  rw [Json.sorted_obj, Json.sorted_obj, Json.obj.injEq] at objects
  have values : ∀ key,
      ((epochFields PyFloat clusterToken desiredRf eligibleNodeIds).lookup key).map Json.sorted =
      ((epochFields PyFloat otherToken otherRf otherNodeIds).lookup key).map Json.sorted := by
    intro key
    rw [← Json.lookup_readFields (epochFields_keys_nodup ..),
      ← Json.lookup_readFields (epochFields_keys_nodup ..)]
    exact congrArg (List.lookup key) objects
  have token : some (Json.str clusterToken) = some (Json.str otherToken : PyJson) :=
    values "cluster_token".toList
  have copies : some (Json.int desiredRf) = some (Json.int otherRf : PyJson) :=
    values "desired_rf".toList
  have nodes : some (Json.arr ((epochNodeIds eligibleNodeIds).map Json.str)).sorted =
      some (Json.arr ((epochNodeIds otherNodeIds).map Json.str) : PyJson).sorted :=
        values "eligible_node_ids".toList
  refine ⟨Json.str.inj (Option.some.inj token),
    Int.ofNat.inj (Json.int.inj (Option.some.inj copies)), ?_⟩
  rw [Json.sorted_arr, Json.sorted_arr, List.map_map, List.map_map, Option.some.injEq,
    Json.arr.injEq] at nodes
  exact List.map_injective_iff.mpr (fun _ _ equal => Json.str.inj equal) nodes

theorem mem_epochNodeIds {nodeId : Text} : nodeId ∈ epochNodeIds eligibleNodeIds ↔
    nodeId ∈ eligibleNodeIds ∧ nodeId ≠ [] := by
  simp [epochNodeIds, mem_orderedUnique]

/-- Lists with the same non-empty node ids have the same ordered ids. -/
theorem epochNodeIds_congr
    (same : ∀ nodeId, nodeId ≠ [] → (nodeId ∈ eligibleNodeIds ↔ nodeId ∈ otherNodeIds)) :
    epochNodeIds eligibleNodeIds = epochNodeIds otherNodeIds := by
  have distinct : ∀ nodeIds, (epochNodeIds nodeIds).Nodup := fun nodeIds =>
    (List.perm_insertionSort _ _).nodup_iff.mpr (orderedUnique_nodup _)
  have ordered : ∀ nodeIds, (epochNodeIds nodeIds).Pairwise (· ≤ ·) :=
    fun nodeIds => List.pairwise_insertionSort _ _
  refine List.Perm.eq_of_pairwise (fun _ _ _ _ => le_antisymm) (ordered _) (ordered _) ?_
  rw [List.perm_ext_iff_of_nodup (distinct _) (distinct _)]
  intro nodeId
  rw [mem_epochNodeIds, mem_epochNodeIds]
  exact and_congr_left (same nodeId)

end Epoch

/-- Two epochs agree exactly if token, copies and the set of nodes do, and views with the same epoch
give every chunk the same targets in the same order. -/
theorem placementEpoch_identifies_context (blake3 : Blake3) (clusterToken otherToken : Text)
    (desiredRf otherRf : Nat) (eligibleNodeIds otherNodeIds : List Text)
    (collisionFree : CollisionFree blake3
      fun data => data = epochBytes clusterToken desiredRf eligibleNodeIds ∨
      data = epochBytes otherToken otherRf otherNodeIds) :
    (computePlacementEpoch blake3 clusterToken desiredRf eligibleNodeIds =
        computePlacementEpoch blake3 otherToken otherRf otherNodeIds ↔
      clusterToken = otherToken ∧ desiredRf = otherRf ∧
        ∀ nodeId, nodeId ≠ [] → (nodeId ∈ eligibleNodeIds ↔ nodeId ∈ otherNodeIds)) ∧
    ∀ view otherView : ClusterView, ∀ excluded otherExcluded : List Text,
      view.candidateNodeIdsExcluding excluded = eligibleNodeIds →
      otherView.candidateNodeIdsExcluding otherExcluded = otherNodeIds →
      view.placementEpochExcluding blake3 desiredRf clusterToken excluded =
        otherView.placementEpochExcluding blake3 otherRf otherToken otherExcluded →
      ∀ chunkHash,
        (view.hrwTargetsExcluding blake3 chunkHash desiredRf clusterToken excluded).map
          ClusterMember.nodeId =
          (otherView.hrwTargetsExcluding blake3 chunkHash otherRf otherToken otherExcluded).map
            ClusterMember.nodeId := by
  have exact_iff : computePlacementEpoch blake3 clusterToken desiredRf eligibleNodeIds =
        computePlacementEpoch blake3 otherToken otherRf otherNodeIds ↔
      clusterToken = otherToken ∧ desiredRf = otherRf ∧
        ∀ nodeId, nodeId ≠ [] → (nodeId ∈ eligibleNodeIds ↔ nodeId ∈ otherNodeIds) := by
    rw [computePlacementEpoch_eq, computePlacementEpoch_eq]
    constructor
    · intro same
      obtain ⟨token, copies, nodes⟩ :=
        epochBytes_injective (collisionFree _ _ (.inl rfl) (.inr rfl) same)
      refine ⟨token, copies, ?_⟩
      intro nodeId named
      have covered : nodeId ∈ epochNodeIds eligibleNodeIds ↔
          nodeId ∈ epochNodeIds otherNodeIds := by rw [nodes]
      rw [mem_epochNodeIds, mem_epochNodeIds] at covered
      simpa [named] using covered
    · rintro ⟨rfl, rfl, same⟩
      rw [epochBytes, epochBytes, epochFields, epochFields, epochNodeIds_congr same]
  refine ⟨exact_iff, ?_⟩
  rintro view otherView excluded otherExcluded rfl rfl same chunkHash
  obtain ⟨rfl, rfl, nodes⟩ := exact_iff.mp same
  have permuted : (otherView.candidateNodeIdsExcluding otherExcluded).Perm
      (view.candidateNodeIdsExcluding excluded) := by
    rw [List.perm_ext_iff_of_nodup (otherView.candidateNodeIdsExcluding_nodup _)
      (view.candidateNodeIdsExcluding_nodup _)]
    intro nodeId
    by_cases named : nodeId = []
    · subst named
      exact iff_of_false (candidateNodeIdsExcluding_named _ _) (candidateNodeIdsExcluding_named _ _)
    · exact (nodes nodeId named).symm
  rw [hrwTargetsExcluding_nodeIds, hrwTargetsExcluding_nodeIds,
    hrwRanking_unique ((List.perm_insertionSort _ _).trans permuted) hrwRanking_pairwise]
  rfl

namespace TwoTokens

def blake3 : Blake3 := .ofTable
  [(epochBytes ['c'] 1 [['a'], ['b']],
    0x566c5204c3af2f01bc91675193097dfd4c46fdd6411c0ad4985345182d4a95db),
    (epochBytes ['d'] 1 [['a'], ['b']],
      0xb1b38d6b286169e0237f04b07cbea1966936d7af901792d184b2c49d7f7dd0d9)]

theorem collisionFree : CollisionFree blake3 fun data =>
    data = epochBytes ['c'] 1 [['b'], ['a'], ['b']] ∨ data = epochBytes ['d'] 1 [['a'], ['b']] := by
  have different : blake3HexDigest blake3 (epochBytes ['c'] 1 [['b'], ['a'], ['b']]) ≠
      blake3HexDigest blake3 (epochBytes ['d'] 1 [['a'], ['b']]) := by decide +kernel
  rintro left right (rfl | rfl) (rfl | rfl) same
  · rfl
  · exact absurd same different
  · exact absurd same.symm different
  · rfl

end TwoTokens

theorem twoTokens_epochs_differ :
    computePlacementEpoch TwoTokens.blake3 ['c'] 1 [['b'], ['a'], ['b']] ≠
      computePlacementEpoch TwoTokens.blake3 ['d'] 1 [['a'], ['b']] := by
  intro same
  have context :=
    (placementEpoch_identifies_context TwoTokens.blake3 ['c'] ['d'] 1 1 [['b'], ['a'], ['b']]
    [['a'], ['b']] TwoTokens.collisionFree).1.mp same
  exact absurd context.1 (by decide)

end Stopan.Cluster
