import Stopan.Cluster.Placement
import Stopan.Lib.TopK

namespace Stopan.Cluster

open Stopan.Lib Stopan.Common

theorem rankLe_iff (left right : Nat × Text) : rankLe left right = true ↔
    toLex left ≤ toLex right := by
  rw [Prod.Lex.toLex_le_toLex, rankLe, Bool.or_eq_true, Bool.and_eq_true, decide_eq_true_eq,
    decide_eq_true_eq, beq_iff_eq]

theorem rankLe_total (left right : Nat × Text) : rankLe left right = true ∨
    rankLe right left = true := by
  rw [rankLe_iff, rankLe_iff]
  exact le_total _ _

theorem rankLe_trans {first second third : Nat × Text} (lower : rankLe first second = true)
    (upper : rankLe second third = true) : rankLe first third = true :=
  (rankLe_iff _ _).mpr (((rankLe_iff _ _).mp lower).trans ((rankLe_iff _ _).mp upper))

theorem rankLe_antisymm {left right : Nat × Text} (first : rankLe left right = true)
    (second : rankLe right left = true) :
    left = right := by
  have same := ((rankLe_iff _ _).mp first).antisymm ((rankLe_iff _ _).mp second)
  exact toLex.injective same

instance : IsTrans (Nat × Text) fun left right => rankLe left right = true :=
  ⟨fun _ _ _ => rankLe_trans⟩

instance : Std.Total fun left right : Nat × Text => rankLe left right = true := ⟨rankLe_total⟩

instance : Std.Antisymm fun left right : Nat × Text => rankLe left right = true :=
  ⟨fun _ _ => rankLe_antisymm⟩

theorem hrwPush_eq_keepLargest (k : Nat) :
    hrwPush k = keepLargest (fun left right : Nat × Text => rankLe left right = true) k := by
  funext heap item
  unfold hrwPush keepLargest rankInsert
  cases heap with
  | nil => rfl
  | cons smallest rest => cases rankLe item smallest <;> simp

/-- `other` comes before `nodeId` in the ranking for a chunk. -/
def outranks (blake3 : Blake3) (chunkHash salt other nodeId : Text) : Bool :=
  !rankLe (hrwScore blake3 chunkHash other salt, other)
    (hrwScore blake3 chunkHash nodeId salt, nodeId)

section Selection

variable {blake3 : Blake3} {chunkHash salt : Text}

theorem filter_named {nodeIds : List Text} (named : [] ∉ nodeIds) :
    (nodeIds.filter fun nodeId => !nodeId.isEmpty) = nodeIds := by
  rw [List.filter_eq_self]
  intro listed member
  cases listed with
  | nil => exact absurd member named
  | cons letter rest => rfl

theorem mem_hrwTopKNodeIds_iff {nodeIds : List Text} (distinct : nodeIds.Nodup)
    (named : [] ∉ nodeIds) (k : Nat) (nodeId : Text) :
    nodeId ∈ hrwTopKNodeIds blake3 chunkHash nodeIds k salt ↔
      nodeId ∈ nodeIds ∧
        nodeIds.countP (fun other => outranks blake3 chunkHash salt other nodeId) < k := by
  have ranked : (nodeIds.map fun nodeId => (hrwScore blake3 chunkHash nodeId salt, nodeId)).Nodup :=
    distinct.map fun _ _ same => (Prod.mk.inj same).2
  have kept :=
    mem_foldl_keepLargest_iff (fun left right : Nat × Text => rankLe left right = true) ranked k
  unfold hrwTopKNodeIds
  rw [filter_named named]
  split
  · rename_i none
    subst none
    simp
  · rw [hrwPush_eq_keepLargest, List.mem_map]
    constructor
    · rintro ⟨entry, listed, rfl⟩
      obtain ⟨member, few⟩ := (kept entry).mp (List.mem_reverse.mp listed)
      obtain ⟨other, present, rfl⟩ := List.mem_map.mp member
      rw [List.countP_map] at few
      refine ⟨present, ?_⟩
      simpa [outranks, Function.comp_def] using few
    · rintro ⟨member, few⟩
      refine ⟨(hrwScore blake3 chunkHash nodeId salt, nodeId), ?_, rfl⟩
      rw [List.mem_reverse, kept]
      refine ⟨List.mem_map_of_mem member, ?_⟩
      rw [List.countP_map]
      simpa [outranks, Function.comp_def] using few

theorem mem_candidateMembersExcluding {view : ClusterView} {excluded : List Text}
    {nodeMember : ClusterMember} :
    nodeMember ∈ view.candidateMembersExcluding excluded ↔
      nodeMember ∈ view.members ∧ nodeMember.nodeId ≠ [] ∧ nodeMember.nodeId ∉ excluded := by
  simp [ClusterView.candidateMembersExcluding]

theorem nodeAddresses_get? {view : ClusterView} {nodeMember : ClusterMember}
    (member : nodeMember ∈ view.members) :
    view.nodeAddresses.get? nodeMember.nodeId = some nodeMember.address := by
  apply Dict.get?_ofList_of_mem
  · rw [List.map_map]
    exact view.distinct
  · exact List.mem_map_of_mem
      (f := fun nodeMember => (nodeMember.nodeId, nodeMember.address)) member

theorem candidateNodeIdsExcluding_named (view : ClusterView) (excluded : List Text) :
    [] ∉ view.candidateNodeIdsExcluding excluded := by
  intro listed
  obtain ⟨nodeMember, member, unnamed⟩ := List.mem_map.mp listed
  exact (mem_candidateMembersExcluding.mp member).2.1 unnamed

/-- A member is a target exactly if it is a candidate that fewer than `rf` candidates outrank. -/
theorem mem_hrwTargetsExcluding_iff {view : ClusterView} {rf : Nat} {excluded : List Text}
    {target : ClusterMember} :
    target ∈ view.hrwTargetsExcluding blake3 chunkHash rf salt excluded ↔
      target ∈ view.candidateMembersExcluding excluded ∧
        (view.candidateNodeIdsExcluding excluded).countP
          (fun other => outranks blake3 chunkHash salt other target.nodeId) < rf := by
  have distinct := view.candidateNodeIdsExcluding_nodup excluded
  have named := candidateNodeIdsExcluding_named view excluded
  have located : ∀ nodeId ∈ view.candidateNodeIdsExcluding excluded, ∃ nodeMember,
      nodeMember ∈ view.candidateMembersExcluding excluded ∧ nodeMember.nodeId = nodeId ∧
        (view.nodeAddresses.get? nodeId).map
          (fun address => ({ nodeId, address } : ClusterMember)) = some nodeMember := by
    intro nodeId listed
    obtain ⟨nodeMember, member, rfl⟩ := List.mem_map.mp listed
    refine ⟨nodeMember, member, rfl, ?_⟩
    rw [nodeAddresses_get? (mem_candidateMembersExcluding.mp member).1]
    rfl
  -- the target itself is a candidate that does not outrank itself, so the minimum does not matter
  have bounded : target.nodeId ∈ view.candidateNodeIdsExcluding excluded →
      (view.candidateNodeIdsExcluding excluded).countP
        (fun other => outranks blake3 chunkHash salt other target.nodeId) <
          (view.candidateMembersExcluding excluded).length := by
    intro listed
    rw [← List.length_map ClusterMember.nodeId]
    apply lt_of_le_of_ne List.countP_le_length
    intro every
    have self := List.countP_eq_length.mp every target.nodeId listed
    simp [outranks, rankLe] at self
  unfold ClusterView.hrwTargetsExcluding
  dsimp only
  rw [Int.toNat_natCast]
  have selected := @mem_hrwTopKNodeIds_iff blake3 chunkHash salt _ distinct named
    (min rf (view.candidateMembersExcluding excluded).length)
  split
  · rename_i none
    refine iff_of_false List.not_mem_nil ?_
    rintro ⟨member, few⟩
    have fewer := bounded (List.mem_map_of_mem member)
    omega
  · rw [List.mem_filterMap]
    constructor
    · rintro ⟨nodeId, listed, found⟩
      obtain ⟨present, few⟩ := (selected nodeId).mp listed
      obtain ⟨nodeMember, member, same, address⟩ := located nodeId present
      rw [address, Option.some.injEq] at found
      subst found same
      exact ⟨member, few.trans_le (Nat.min_le_left _ _)⟩
    · rintro ⟨member, few⟩
      have present : target.nodeId ∈ view.candidateNodeIdsExcluding excluded :=
        List.mem_map_of_mem member
      refine ⟨target.nodeId, (selected target.nodeId).mpr ⟨present, lt_min few (bounded present)⟩,
        ?_⟩
      rw [nodeAddresses_get? (mem_candidateMembersExcluding.mp member).1]
      rfl

/-- The candidates of a later view that an earlier view does not have. -/
def addedNodeIds (view later : ClusterView) (excluded : List Text) : List Text :=
  (later.candidateNodeIdsExcluding excluded).filter
    fun nodeId => nodeId ∉ view.candidateNodeIdsExcluding excluded

/-- The targets of the earlier view that outrank `nodeId` and are still candidates. -/
def betterSurvivors (blake3 : Blake3) (view later : ClusterView) (chunkHash : Text)
    (rf : Nat) (salt : Text) (excluded : List Text) (nodeId : Text) : List Text :=
  ((view.hrwTargetsExcluding blake3 chunkHash rf salt excluded).map ClusterMember.nodeId).filter
    fun other =>
    outranks blake3 chunkHash salt other nodeId &&
      decide (other ∈ later.candidateNodeIdsExcluding excluded)

/-- How many candidates of the later view outrank `nodeId`: new ones, and targets of the earlier
view. -/
def overtakers (blake3 : Blake3) (view later : ClusterView) (chunkHash : Text) (rf : Nat)
    (salt : Text) (excluded : List Text) (nodeId : Text) : Nat :=
  ((addedNodeIds view later excluded).countP
    fun other => outranks blake3 chunkHash salt other nodeId) +
    (betterSurvivors blake3 view later chunkHash rf salt excluded nodeId).length

theorem outranks_trans {first second third : Text}
    (upper : outranks blake3 chunkHash salt first second = true)
    (lower : outranks blake3 chunkHash salt second third = true) :
    outranks blake3 chunkHash salt first third = true := by
  simp only [outranks, Bool.not_eq_true', ← Bool.not_eq_true, rankLe_iff, not_le] at *
  exact lower.trans upper

/-- A target that is still there stays a target while fewer than `rf` candidates have overtaken
it. -/
theorem target_of_survivor {view later : ClusterView} {rf : Nat} {excluded : List Text}
    {target survivor : ClusterMember}
    (selected : target ∈ view.hrwTargetsExcluding blake3 chunkHash rf salt excluded)
    (present : survivor ∈ later.members) (same : survivor.nodeId = target.nodeId)
    (few : overtakers blake3 view later chunkHash rf salt excluded target.nodeId < rf) :
    survivor ∈ later.hrwTargetsExcluding blake3 chunkHash rf salt excluded := by
  rw [mem_hrwTargetsExcluding_iff] at selected ⊢
  obtain ⟨candidate, rank⟩ := selected
  obtain ⟨-, named, allowed⟩ := mem_candidateMembersExcluding.mp candidate
  refine ⟨mem_candidateMembersExcluding.mpr ⟨present, same ▸ named, same ▸ allowed⟩, ?_⟩
  rw [same]
  refine lt_of_le_of_lt ?_ few
  -- whoever outranks the target now is new, or was a target itself
  rw [overtakers, List.countP_eq_length_filter, List.countP_eq_length_filter, ← List.length_append]
  apply List.Subperm.length_le
  apply List.subperm_of_subset ((later.candidateNodeIdsExcluding_nodup excluded).filter _)
  intro other listed
  obtain ⟨current, above⟩ := List.mem_filter.mp listed
  rw [List.mem_append]
  by_cases known : other ∈ view.candidateNodeIdsExcluding excluded
  · right
    obtain ⟨nodeMember, member, rfl⟩ := List.mem_map.mp known
    refine List.mem_filter.mpr
      ⟨List.mem_map_of_mem (mem_hrwTargetsExcluding_iff.mpr ⟨member, ?_⟩), ?_⟩
    · refine lt_of_le_of_lt (List.countP_mono_left ?_) rank
      exact fun better _ upper => outranks_trans upper above
    · simp [above, current]
  · left
    exact List.mem_filter.mpr ⟨List.mem_filter.mpr ⟨current, decide_eq_true known⟩, above⟩

end Selection

/-- `left` comes no later than `right` when nodes are ordered by `(score, node_id)`, the best
first. -/
def hrwBefore (blake3 : Blake3) (chunkHash salt left right : Text) : Bool :=
  rankLe (hrwScore blake3 chunkHash right salt, right) (hrwScore blake3 chunkHash left salt, left)

def hrwRanking (blake3 : Blake3) (chunkHash salt : Text) (nodeIds : List Text) : List Text :=
  nodeIds.insertionSort fun left right => hrwBefore blake3 chunkHash salt left right = true

section Ranking

variable {blake3 : Blake3} {chunkHash salt : Text} {nodeIds : List Text}

theorem hrwBefore_antisymm {left right : Text}
    (first : hrwBefore blake3 chunkHash salt left right = true)
    (second : hrwBefore blake3 chunkHash salt right left = true) : left = right :=
  (Prod.mk.inj (rankLe_antisymm second first)).2

theorem hrwRanking_pairwise :
    (hrwRanking blake3 chunkHash salt nodeIds).Pairwise fun left right =>
      hrwBefore blake3 chunkHash salt left right = true := by
  have total : Std.Total fun left right : Text =>
      hrwBefore blake3 chunkHash salt left right = true :=
    ⟨fun _ _ => rankLe_total _ _⟩
  have trans : IsTrans Text fun left right => hrwBefore blake3 chunkHash salt left right = true :=
    ⟨fun _ _ _ first second => rankLe_trans second first⟩
  exact List.pairwise_insertionSort _ nodeIds

/-- A ranking is determined by its members. -/
theorem hrwRanking_unique {ranked : List Text} (permuted : ranked.Perm nodeIds)
    (ordered : ranked.Pairwise fun left right =>
      hrwBefore blake3 chunkHash salt left right = true) :
    hrwRanking blake3 chunkHash salt nodeIds = ranked := by
  refine List.Perm.eq_of_pairwise ?_ hrwRanking_pairwise ordered ?_
  · exact fun _ _ _ _ => hrwBefore_antisymm
  · exact (List.perm_insertionSort _ nodeIds).trans permuted.symm

theorem mem_hrwRanking {nodeId : Text} : nodeId ∈ hrwRanking blake3 chunkHash salt nodeIds ↔
    nodeId ∈ nodeIds :=
  List.mem_insertionSort _

theorem hrwTopKNodeIds_eq_take (named : [] ∉ nodeIds) (k : Nat) :
    hrwTopKNodeIds blake3 chunkHash nodeIds k salt =
      (hrwRanking blake3 chunkHash salt nodeIds).take k := by
  unfold hrwTopKNodeIds
  split
  · rename_i none
    rw [none, List.take_zero]
  · rw [filter_named named, hrwPush_eq_keepLargest, reverse_foldl_keepLargest, List.map_take]
    congr 1
    symm
    apply hrwRanking_unique
    · have permuted :=
        (List.perm_insertionSort (fun left right : Nat × Text => rankLe right left = true)
        (nodeIds.map fun nodeId => (hrwScore blake3 chunkHash nodeId salt, nodeId))).map Prod.snd
      rwa [List.map_map, Function.comp_def, List.map_id'] at permuted
    · have ordered :=
        List.pairwise_insertionSort (fun left right : Nat × Text => rankLe right left = true)
        (nodeIds.map fun nodeId => (hrwScore blake3 chunkHash nodeId salt, nodeId))
      rw [List.pairwise_map]
      refine ordered.imp_of_mem ?_
      intro left right leftListed rightListed below
      obtain ⟨leftId, -, rfl⟩ := List.mem_map.mp ((List.mem_insertionSort _).mp leftListed)
      obtain ⟨rightId, -, rfl⟩ := List.mem_map.mp ((List.mem_insertionSort _).mp rightListed)
      exact below

/-- The ranking of the remaining nodes is what remains of the ranking. -/
theorem hrwRanking_erase (nodeId : Text) :
    hrwRanking blake3 chunkHash salt (nodeIds.erase nodeId) =
      (hrwRanking blake3 chunkHash salt nodeIds).erase nodeId := by
  apply hrwRanking_unique
  · exact (List.perm_insertionSort _ nodeIds).erase nodeId
  · exact hrwRanking_pairwise.sublist List.erase_sublist

/-- A new node enters the ranking in one place. -/
theorem hrwRanking_cons (nodeId : Text) : ∃ before after,
    hrwRanking blake3 chunkHash salt nodeIds = before ++ after ∧
      hrwRanking blake3 chunkHash salt (nodeId :: nodeIds) = before ++ nodeId :: after :=
  ⟨_, _, List.takeWhile_append_dropWhile.symm,
    List.insertionSort_cons_eq_take_drop _ nodeId nodeIds⟩

/-- The targets of a view are the first of the ranking of its candidates. -/
theorem hrwTargetsExcluding_nodeIds (view : ClusterView) (rf : Nat) (excluded : List Text) :
    (view.hrwTargetsExcluding blake3 chunkHash rf salt excluded).map ClusterMember.nodeId =
      (hrwRanking blake3 chunkHash salt (view.candidateNodeIdsExcluding excluded)).take rf := by
  have count : (hrwRanking blake3 chunkHash salt (view.candidateNodeIdsExcluding excluded)).length =
      (view.candidateMembersExcluding excluded).length := by
    rw [hrwRanking, List.length_insertionSort, ClusterView.candidateNodeIdsExcluding,
      List.length_map]
  have whole : (hrwRanking blake3 chunkHash salt (view.candidateNodeIdsExcluding excluded)).take
      (min rf (view.candidateMembersExcluding excluded).length) =
        (hrwRanking blake3 chunkHash salt (view.candidateNodeIdsExcluding excluded)).take rf := by
    rw [← count, ← List.take_take, List.take_length]
  unfold ClusterView.hrwTargetsExcluding
  dsimp only
  rw [Int.toNat_natCast]
  split
  · rename_i none
    rw [← whole, none]
    rfl
  · rw [← whole, ← hrwTopKNodeIds_eq_take (candidateNodeIdsExcluding_named view excluded),
      List.map_filterMap, ClusterView.candidateNodeIdsExcluding]
    conv_rhs => rw [← List.filterMap_some (l := hrwTopKNodeIds _ _ _ _ _)]
    apply List.filterMap_congr
    intro nodeId ranked
    obtain ⟨nodeMember, member, rfl⟩ := List.mem_map.mp (mem_of_mem_hrwTopKNodeIds blake3 ranked)
    rw [nodeAddresses_get? (mem_candidateMembersExcluding.mp member).1]
    rfl

end Ranking

end Stopan.Cluster
