import Stopan.Common.Basic
import Stopan.Lib.Json

/-!
Rendezvous placement over the eligible members of a cluster: the HRW ranking, the placement
epoch and the cluster view (`stopan/placement`, `stopan/cluster/view.py`).
-/

namespace Stopan.Cluster

open Stopan.Lib Stopan.Common

/-- `int.from_bytes(data, "big")`. -/
def fromBytesBig (data : Bytes) : Nat := data.foldl (fun value byte => value * 256 + byte.toNat) 0

def hrwScore (blake3 : Blake3) (chunkHash nodeId salt : Text) : Nat :=
  fromBytesBig (blake3.digest (encodeUtf8 (salt ++ '|' :: nodeId ++ '|' :: chunkHash)))

/-- The order of the `(score, node_id)` tuples. -/
def rankLe (left right : Nat × Text) : Bool :=
  decide (left.1 < right.1) || (left.1 == right.1 && decide (left.2 ≤ right.2))

def rankInsert (item : Nat × Text) (heap : List (Nat × Text)) : List (Nat × Text) :=
  heap.orderedInsert (fun left right => rankLe left right = true) item

/-- One iteration of the bounded heap. The heap is kept in ascending order, so its minimum is its
head and replacing the minimum drops the head. -/
def hrwPush (k : Nat) (heap : List (Nat × Text)) (item : Nat × Text) : List (Nat × Text) :=
  if heap.length < k then rankInsert item heap
  else match heap with
    | [] => []
    | smallest :: rest => if !rankLe item smallest then rankInsert item rest else smallest :: rest

def hrwTopKNodeIds (blake3 : Blake3) (chunkHash : Text) (nodeIds : List Text)
    (k : Nat) (salt : Text) :
    List Text :=
  if k = 0 then []
  else
    (((nodeIds.filter fun nodeId => !nodeId.isEmpty).map fun nodeId =>
      (hrwScore blake3 chunkHash nodeId salt, nodeId)).foldl (hrwPush k) []).reverse.map Prod.snd

theorem rankInsert_perm (item : Nat × Text) (heap : List (Nat × Text)) :
    (rankInsert item heap).Perm (item :: heap) :=
  List.perm_orderedInsert _ item heap

theorem hrwPush_subperm (k : Nat) (heap : List (Nat × Text)) (item : Nat × Text) :
    (hrwPush k heap item).Subperm (item :: heap) := by
  unfold hrwPush
  split
  · exact (rankInsert_perm item heap).subperm
  · cases heap with
    | nil => exact List.nil_subperm
    | cons smallest rest =>
        dsimp only
        split
        · exact (rankInsert_perm item rest).subperm.trans
            ((List.sublist_cons_self smallest rest).cons_cons item).subperm
        · exact (List.sublist_cons_self item (smallest :: rest)).subperm

theorem hrwPush_foldl_subperm (k : Nat) (items heap : List (Nat × Text)) :
    (items.foldl (hrwPush k) heap).Subperm (items ++ heap) := by
  induction items generalizing heap with
  | nil => exact List.Subperm.refl heap
  | cons item rest ih =>
      have first : (rest ++ hrwPush k heap item).Subperm (rest ++ item :: heap) :=
        (List.subperm_append_left rest).mpr (hrwPush_subperm k heap item)
      exact ((ih (hrwPush k heap item)).trans first).trans List.perm_middle.subperm

private theorem subperm_map {α β : Type} (project : α → β) {left right : List α}
    (inside : left.Subperm right) : (left.map project).Subperm (right.map project) := by
  obtain ⟨arranged, permuted, sublist⟩ := inside
  exact ⟨arranged.map project, permuted.map project, sublist.map project⟩

/-- The ranking never invents a node and never repeats one. -/
theorem hrwTopKNodeIds_subperm (blake3 : Blake3) (chunkHash : Text) (nodeIds : List Text) (k : Nat)
    (salt : Text) : (hrwTopKNodeIds blake3 chunkHash nodeIds k salt).Subperm nodeIds := by
  unfold hrwTopKNodeIds
  split
  · exact List.nil_subperm
  · have ranked := hrwPush_foldl_subperm k
      ((nodeIds.filter fun nodeId => !nodeId.isEmpty).map fun nodeId =>
        (hrwScore blake3 chunkHash nodeId salt, nodeId)) []
    rw [List.append_nil] at ranked
    have projected := subperm_map Prod.snd ((List.reverse_perm _).subperm.trans ranked)
    simp only [List.map_map, Function.comp_def, List.map_id'] at projected
    exact projected.trans List.filter_sublist.subperm

theorem mem_of_mem_hrwTopKNodeIds (blake3 : Blake3) {chunkHash nodeId : Text} {nodeIds : List Text}
    {k : Nat} {salt : Text} (member : nodeId ∈ hrwTopKNodeIds blake3 chunkHash nodeIds k salt) :
    nodeId ∈ nodeIds :=
  (hrwTopKNodeIds_subperm blake3 chunkHash nodeIds k salt).subset member

theorem hrwPush_length_le {k : Nat} {heap : List (Nat × Text)} (item : Nat × Text)
    (bounded : heap.length ≤ k) : (hrwPush k heap item).length ≤ k := by
  unfold hrwPush
  split
  · rename_i room
    rw [(rankInsert_perm item heap).length_eq, List.length_cons]
    omega
  · cases heap with
    | nil => exact bounded
    | cons smallest rest =>
        dsimp only
        split
        · rw [(rankInsert_perm item rest).length_eq]
          exact bounded
        · exact bounded

theorem foldl_hrwPush_length_le {k : Nat} (items : List (Nat × Text)) {heap : List (Nat × Text)}
    (bounded : heap.length ≤ k) : (items.foldl (hrwPush k) heap).length ≤ k := by
  induction items generalizing heap with
  | nil => exact bounded
  | cons item rest ih => exact ih (hrwPush_length_le item bounded)

theorem hrwTopKNodeIds_length_le (blake3 : Blake3) (chunkHash : Text) (nodeIds : List Text)
    (k : Nat) (salt : Text) : (hrwTopKNodeIds blake3 chunkHash nodeIds k salt).length ≤ k := by
  unfold hrwTopKNodeIds
  split
  · exact Nat.zero_le k
  · rw [List.length_map, List.length_reverse]
    exact foldl_hrwPush_length_le _ (Nat.zero_le k)

def hrwPlacementScheme : Text := "hrw-blake3-v1".toList

def placementEpochFormat : Text := "stopan.placement-epoch.v1".toList

/-- The canonical bytes of a JSON value that holds no fractional number. -/
def canonicalJsonBytes (value : Json Empty) : Bytes :=
  encodeUtf8 (value.dumps fun number => nomatch number)

def computePlacementEpoch (blake3 : Blake3) (clusterToken : Text) (desiredRf : Nat)
    (eligibleNodeIds : List Text) : Text :=
  blake3HexDigest blake3 (canonicalJsonBytes (.obj [
    ("format".toList, .str placementEpochFormat),
    ("placement_scheme".toList, .str hrwPlacementScheme),
    ("cluster_token".toList, .str clusterToken),
    ("desired_rf".toList, .int desiredRf),
    ("eligible_node_ids".toList, .arr
      (((orderedUnique (eligibleNodeIds.filter fun nodeId => !nodeId.isEmpty)).insertionSort
        (fun left right => left ≤ right)).map .str))]))

structure ClusterMember where
  nodeId : Text
  address : Text
  deriving DecidableEq, Repr

/-- The eligible members. Membership answers are keyed by node id, so ids never repeat. -/
structure ClusterView where
  selfNodeId : Option Text
  members : List ClusterMember
  distinct : (members.map ClusterMember.nodeId).Nodup

namespace ClusterView

def nodeAddresses (view : ClusterView) : Dict Text Text :=
  .ofList (view.members.map fun nodeMember => (nodeMember.nodeId, nodeMember.address))

def candidateMembersExcluding (view : ClusterView) (excluded : List Text) : List ClusterMember :=
  view.members.filter fun nodeMember => !nodeMember.nodeId.isEmpty &&
    !excluded.contains nodeMember.nodeId

def candidateNodeIdsExcluding (view : ClusterView) (excluded : List Text) : List Text :=
  (view.candidateMembersExcluding excluded).map ClusterMember.nodeId

def hrwTargetsExcluding (blake3 : Blake3) (view : ClusterView) (chunkHash : Text)
    (rf : Int) (salt : Text) (excluded : List Text) : List ClusterMember :=
  let candidates := view.candidateMembersExcluding excluded
  let k := min rf.toNat candidates.length
  if k = 0 then []
  else
    (hrwTopKNodeIds blake3 chunkHash (candidates.map ClusterMember.nodeId) k salt).filterMap
      fun nodeId =>
      (view.nodeAddresses.get? nodeId).map fun address => { nodeId, address }

def placementEpochExcluding (blake3 : Blake3) (view : ClusterView) (desiredRf : Nat)
    (clusterToken : Text) (excluded : List Text) : Text :=
  computePlacementEpoch blake3 clusterToken desiredRf (view.candidateNodeIdsExcluding excluded)

theorem candidateNodeIdsExcluding_nodup (view : ClusterView) (excluded : List Text) :
    (view.candidateNodeIdsExcluding excluded).Nodup :=
  view.distinct.sublist (List.filter_sublist.map _)

theorem hrwTargetsExcluding_length_le (blake3 : Blake3) (view : ClusterView) (chunkHash : Text)
    (rf : Nat) (salt : Text) (excluded : List Text) :
    (view.hrwTargetsExcluding blake3 chunkHash rf salt excluded).length ≤ rf := by
  unfold hrwTargetsExcluding
  dsimp only
  split
  · exact Nat.zero_le rf
  · have ranked := hrwTopKNodeIds_length_le blake3 chunkHash
      ((view.candidateMembersExcluding excluded).map ClusterMember.nodeId)
      (min (rf : Int).toNat (view.candidateMembersExcluding excluded).length) salt
    exact (List.length_filterMap_le _ _).trans (ranked.trans (Nat.min_le_left _ _))

end ClusterView

end Stopan.Cluster
