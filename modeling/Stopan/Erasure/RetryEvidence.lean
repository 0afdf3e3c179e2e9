import Stopan.Erasure.PackIdentity
import Stopan.Erasure.PushEvidence

namespace Stopan.Erasure

open Stopan.Lib Stopan.Common Stopan.Cluster Stopan.Metadata Stopan.Protection

/-- The shard rows of a pack whose node really stores the shard. -/
def storedRows (db : MetadataDB) (packHash : Text) (stored : Text → Nat → Bool) : Nat :=
  (db.getErasurePackShards packHash).countP fun entry => stored entry.nodeId entry.shardIndex

/-- The nodes that the view ranks for the shards of a pack, in the order of the shard indexes. -/
def rankedNodes (blake3 : Blake3) (context : PushContext) (packHash : Text) (totalShards : Nat) :
    List Text :=
  (context.cluster.hrwTargetsExcluding blake3 packHash totalShards context.clusterToken
    [strip context.originNodeId]).map fun member => strip member.nodeId

section Rows

variable {packHash : Text}

theorem mem_normalizeErasureShardRows {shards : List ErasureShardArg} {totalShards : Nat}
    {rows : List ErasureShardEntry} {entry : ErasureShardEntry}
    (normalized : normalizeErasureShardRows shards totalShards = .ok rows) (member : entry ∈ rows) :
    ∃ shard ∈ shards, requireErasureShard shard = .ok entry := by
  rw [normalizeErasureShardRows, bind_eq_ok_iff] at normalized
  obtain ⟨accepted, mapped, remaining⟩ := normalized
  rw [ensure_bind_eq_ok_iff, ensure_bind_eq_ok_iff, pure_eq_ok_iff] at remaining
  obtain ⟨-, -, rfl⟩ := remaining
  obtain ⟨shard, listed, checked⟩ :=
    forall₂_mem_right (mapM_eq_ok_iff.mp mapped) (mem_readInOrder.mp member)
  exact ⟨shard, listed, checked⟩

theorem requireErasureShard_ok {shard : ErasureShardArg} {entry : ErasureShardEntry}
    (accepted : requireErasureShard shard = .ok entry) :
    entry.shardIndex = shard.shardIndex.toNat ∧ entry.nodeId = strip shard.nodeId := by
  simp only [requireErasureShard, bind_eq_ok_iff, pure_eq_ok_iff] at accepted
  obtain ⟨shardIndex, index, shardHash, -, nodeId, node, size, -, rfl⟩ := accepted
  constructor
  · rw [requireNonNegativeInt] at index
    split at index
    · cases index
    · cases index
      rfl
  · rw [requireNonEmptyText] at node
    split at node
    · cases node
    · cases node
      rfl

theorem placementByIndex_sound {placements : List ShardPlacement} {shardIndex : Nat}
    {placement : ShardPlacement}
    (found : (placementByIndex placements).get? shardIndex = some placement) :
    placement ∈ placements ∧ placement.shardIndex = shardIndex := by
  obtain ⟨listed, member, same⟩ := List.mem_map.mp (Dict.mem_of_get?_ofList found)
  cases same
  exact ⟨member, rfl⟩

/-- A row of a pack's arguments names the node of the placement of its index. -/
theorem packMetadataArgs_node {pack : EncodedDataPack} {placements : List ShardPlacement}
    {args : ErasurePackArgs} {shard : ErasureShardArg}
    (built : packMetadataArgs pack placements = .ok args) (member : shard ∈ args.shards) :
    ∃ placement ∈ placements, (placement.shardIndex : Int) = shard.shardIndex ∧
      placement.nodeId = shard.nodeId := by
  rw [packMetadataArgs, bind_eq_ok_iff] at built
  obtain ⟨shards, mapped, made⟩ := built
  cases pure_eq_ok_iff.mp made
  obtain ⟨source, -, row⟩ := forall₂_mem_right (mapM_eq_ok_iff.mp mapped) member
  rw [shardMetadataRow] at row
  split at row
  · cases row
  · rename_i placement found
    cases row
    obtain ⟨listed, index⟩ := placementByIndex_sound found
    exact ⟨placement, listed, congrArg _ index, rfl⟩

/-- What a plan consists of: as many nodes as there are shards, each with the index of its rank. -/
theorem planDataPackShardPlacement_ok {blake3 : Blake3} {spec : ErasureSpec} {context : PushContext}
    {placements : List ShardPlacement} (valid : isValidBlake3Hex packHash = true)
    (planned : planDataPackShardPlacement blake3 packHash spec context.cluster context.originNodeId
      context.clusterToken = .ok placements) :
    (rankedNodes blake3 context packHash spec.totalShards).length = spec.totalShards ∧
      ∀ placement ∈ placements,
        (rankedNodes blake3 context packHash spec.totalShards)[placement.shardIndex]? =
          some placement.nodeId := by
  rw [planDataPackShardPlacement, requireHash_of_valid valid, bind_eq_ok_iff] at planned
  obtain ⟨_, ⟨⟩, planned⟩ := planned
  dsimp only at planned
  rw [ensure_bind_eq_ok_iff, ensure_bind_eq_ok_iff, ensure_bind_eq_ok_iff,
    bind_eq_ok_iff] at planned
  obtain ⟨-, -, enough, created, mapped, planned⟩ := planned
  rw [ensure_bind_eq_ok_iff, pure_eq_ok_iff] at planned
  obtain ⟨-, rfl⟩ := planned
  constructor
  · have atMost :=
      context.cluster.hrwTargetsExcluding_length_le blake3 packHash spec.totalShards
        context.clusterToken
      [strip context.originNodeId]
    rw [rankedNodes, List.length_map]
    exact Nat.le_antisymm atMost (of_decide_eq_true enough)
  · intro placement member
    obtain ⟨⟨target, index⟩, ranked, made⟩ := forall₂_mem_right (mapM_eq_ok_iff.mp mapped) member
    simp only [createShardPlacement, bind_eq_ok_iff, ensure_eq_ok_iff, pure_eq_ok_iff] at made
    obtain ⟨_, -, -, -, -, -, rfl⟩ := made
    rw [rankedNodes, List.getElem?_map, List.mem_zipIdx_iff_getElem?.mp ranked]
    rfl

theorem mem_requireErasureRows {args : ErasurePackArgs} {definition : ErasureDefinition}
    {chunks : List ErasureChunkEntry} {shards : List ErasureShardEntry} {entry : ErasureShardEntry}
    (checked : requireErasureRows args definition = .ok (chunks, shards))
    (member : entry ∈ shards) :
    ∃ shard ∈ args.shards, requireErasureShard shard = .ok entry := by
  simp only [requireErasureRows, bind_eq_ok_iff, ensure_eq_ok_iff, pure_eq_ok_iff] at checked
  obtain ⟨-, -, -, -, chunkRows, -, shardRows, normalized, made⟩ := checked
  cases made
  exact mem_normalizeErasureShardRows normalized member

theorem requireErasureDefinition_packMetadataArgs {pack : EncodedDataPack}
    {placements : List ShardPlacement}
    {args : ErasurePackArgs} {packHash : Text} {definition : ErasureDefinition}
    (valid : isValidBlake3Hex pack.packHash = true)
    (built : packMetadataArgs pack placements = .ok args)
    (scalars : requireErasureDefinition args = .ok (packHash, definition)) :
    packHash = pack.packHash ∧ definition.totalShards = pack.spec.totalShards := by
  rw [packMetadataArgs, bind_eq_ok_iff] at built
  obtain ⟨shards, -, made⟩ := built
  cases pure_eq_ok_iff.mp made
  simp only [requireErasureDefinition, requireHash64_of_valid valid, requireNonNegativeInt_natCast,
    requirePositiveInt_natCast _ pack.spec.positive, bind_eq_ok_iff, pure_eq_ok_iff] at scalars
  obtain ⟨_, ⟨⟩, _, -, _, ⟨⟩, _, ⟨⟩, _, ⟨⟩, _, ⟨⟩, _, -, same⟩ := scalars
  cases same
  exact ⟨rfl, rfl⟩

theorem strip_rankedNode {blake3 : Blake3} {context : PushContext}
    {totalShards rank : Nat} {nodeId : Text}
    (ranked : (rankedNodes blake3 context packHash totalShards)[rank]? = some nodeId) :
    strip nodeId = nodeId := by
  rw [rankedNodes, List.getElem?_map, Option.map_eq_some_iff] at ranked
  obtain ⟨target, -, rfl⟩ := ranked
  exact strip_strip target.nodeId

/-- Rows that are numbered from zero and take their nodes from a list are that list, numbered. -/
theorem shardRows_eq_zipIdx {rows : List ErasureShardEntry} {nodes : List Text}
    (indexes : rows.map ErasureShardEntry.shardIndex = List.range nodes.length)
    (named : ∀ entry ∈ rows, nodes[entry.shardIndex]? = some entry.nodeId) :
    rows.map (fun entry => (entry.nodeId, entry.shardIndex)) = nodes.zipIdx := by
  have count : rows.length = nodes.length := by simpa using congrArg List.length indexes
  apply List.ext_getElem
  · simpa using count
  · intro position inside listed
    rw [List.length_map] at inside
    have index : rows[position].shardIndex = position := by
      have numbered := congrArg (·[position]?) indexes
      simpa [inside, count ▸ inside] using numbered
    have node := named rows[position] (List.getElem_mem inside)
    rw [index, List.getElem?_eq_getElem (count ▸ inside), Option.some.injEq] at node
    simp [index, node]

/-- After an update of a pack its rows are the ranked nodes in their order. -/
theorem storedRows_of_applied {blake3 : Blake3} {context : PushContext} {pack : EncodedDataPack}
    {placements : List ShardPlacement} {update : ErasureDataPackPushUpdate} {db after : MetadataDB}
    (sound : db.ErasureSound) (valid : isValidBlake3Hex pack.packHash = true)
    (planned : planDataPackShardPlacement blake3 pack.packHash pack.spec context.cluster
      context.originNodeId
      context.clusterToken = .ok placements)
    (args : packMetadataArgs pack placements = .ok update.toErasurePackArgs)
    (applied : db.applyErasureDataPackPushUpdate update = .ok after) (stored : Text → Nat → Bool) :
    storedRows after pack.packHash stored =
      (rankedNodes blake3 context pack.packHash pack.spec.totalShards).zipIdx.countP
        fun row => stored row.1 row.2 := by
  obtain ⟨length, ranks⟩ := planDataPackShardPlacement_ok valid planned
  obtain ⟨packHash, definition, chunks, shards, scalars, rows, written⟩ :=
    applyErasureDataPackPushUpdate_ok sound applied
  obtain ⟨same, total⟩ := requireErasureDefinition_packMetadataArgs valid args scalars
  have layout := requireErasureRows_layout rows
  have indexes : shards.map ErasureShardEntry.shardIndex =
      List.range (rankedNodes blake3 context pack.packHash pack.spec.totalShards).length := by
    rw [length, layout.indexes, total]
  have named : ∀ entry ∈ shards,
      (rankedNodes blake3 context pack.packHash pack.spec.totalShards)[entry.shardIndex]? =
        some entry.nodeId := by
    intro entry member
    obtain ⟨shard, listed, accepted⟩ := mem_requireErasureRows rows member
    obtain ⟨index, node⟩ := requireErasureShard_ok accepted
    obtain ⟨placement, planned, placedIndex, placedNode⟩ := packMetadataArgs_node args listed
    have rank := ranks placement planned
    rw [← placedIndex, Int.toNat_natCast] at index
    rw [index, rank, node, ← placedNode, strip_rankedNode rank]
  rw [same] at written
  rw [storedRows, written.shards, ← shardRows_eq_zipIdx indexes named, List.countP_map]
  rfl

end Rows

section Retries

variable {blake3 : Blake3} {context : PushContext} {packHash : Text}
  {update : ErasureDataPackPushUpdate}

theorem refreshPack_ok {pack : EncodedDataPack} {placementEpoch : Text}
    (refreshed : refreshPack blake3 context pack placementEpoch = .ok update) :
    ∃ placements, planDataPackShardPlacement blake3 pack.packHash pack.spec context.cluster
        context.originNodeId
        context.clusterToken = .ok placements ∧
      packMetadataArgs pack placements = .ok update.toErasurePackArgs := by
  simp only [refreshPack, buildDataPackPushUpdate, bind_eq_ok_iff, pure_eq_ok_iff] at refreshed
  obtain ⟨_, -, placements, planned, _, -, args, built, rfl⟩ := refreshed
  exact ⟨placements, planned, built⟩

theorem retryExistingPack_push {zfec : Zfec} {db : MetadataDB} {repo : Text → LocalChunk}
    {record : ErasureDataPackRow}
    (retried : retryExistingPack blake3 zfec db repo context packHash record = .ok (.push update)) :
    ∃ spec pack chunks placementEpoch, specFromErasureMetadata record = .ok spec ∧
      buildDataPackFromValidatedChunks blake3 zfec chunks spec = .ok pack ∧
      pack.packHash = packHash ∧ refreshPack blake3 context pack placementEpoch = .ok update := by
  rw [retryExistingPack] at retried
  dsimp only at retried
  split at retried
  · cases retried
  · obtain ⟨spec, built, retried⟩ := bind_eq_ok_iff.mp retried
    split at retried
    · cases retried
    · split at retried
      · cases retried
      · cases retried
      · rename_i pack packed
        split at retried
        · cases retried
        · rename_i same
          obtain ⟨pushed, refreshed, made⟩ := bind_eq_ok_iff.mp retried
          cases pure_eq_ok_iff.mp made
          exact ⟨spec, pack, _, _, built, packed, not_not.mp same, refreshed⟩

theorem specFromErasureMetadata_ok {record : ErasureDataPackRow} {spec : ErasureSpec}
    (created : specFromErasureMetadata record = .ok spec) :
    spec.dataShards = record.dataShards ∧ spec.parityShards = record.parityShards := by
  simp only [specFromErasureMetadata, createErasureSpec, requireConfigPositiveInt,
    requireConfigNonNegativeInt, bind_eq_ok_iff, ensure_eq_ok_iff, pure_eq_ok_iff] at created
  obtain ⟨data, ⟨_, ⟨_, -, rfl⟩, _, -, rfl⟩, parity, ⟨_, -, rfl⟩, created⟩ := created
  split at created
  · split at created
    · simp only [bind_eq_ok_iff, ensure_eq_ok_iff, pure_eq_ok_iff] at created
      obtain ⟨_, -, rfl⟩ := created
      exact ⟨Int.toNat_natCast _, Int.toNat_natCast _⟩
    · cases created
  · cases created

end Retries

/-- What is recorded after a retry is recoverable exactly if enough of the nodes that the view ranks
for the pack have the shard of their rank when the push is over, from before or committed in it. -/
theorem retry_recoverable_iff (blake3 : Blake3) (zfec : Zfec) (events : List CatalogEvent)
    (repo : Text → LocalChunk) (context : PushContext) (packHash : Text)
    (record : ErasureDataPackRow) (update : ErasureDataPackPushUpdate)
    (after : MetadataDB) (stored : Text → Nat → Bool)
    (retried : retryExistingPack blake3 zfec
      (events.foldl catalogStep .empty) repo context packHash record = .ok (.push update))
    (applied : (events.foldl catalogStep .empty).applyErasureDataPackPushUpdate update =
      .ok after) :
    record.dataShards ≤ storedRows after packHash stored ↔
      record.dataShards ≤ (rankedNodes blake3 context packHash
        (record.dataShards + record.parityShards)).zipIdx.countP
        fun ranked => stored ranked.1 ranked.2 := by
  have sound := foldl_catalogStep_sound events erasureSound_empty
  obtain ⟨spec, pack, chunks, placementEpoch, created, built, rfl, refreshed⟩ :=
    retryExistingPack_push retried
  obtain ⟨placements, planned, args⟩ := refreshPack_ok refreshed
  obtain ⟨deliverable, same⟩ := deliverable_of_built built
  obtain ⟨data, parity⟩ := specFromErasureMetadata_ok created
  have total : record.dataShards + record.parityShards = pack.spec.totalShards := by
    rw [ErasureSpec.totalShards, same, data, parity]
  rw [storedRows_of_applied sound deliverable.packHash planned args applied, total]

namespace Departed

/-- The pack of the first split, whose only shard is on `n1`. -/
def db : MetadataDB := Resplit.events.foldl catalogStep .empty

def packHash : Text := blake3HexDigest Resplit.blake3 [1, 2, 3]

def record : ErasureDataPackRow where
  codec := "zfec".toList
  dataShards := 1
  parityShards := 0
  payloadSize := 3
  paddedSize := 3
  shardSize := 3
  protectionState := .pending
  placementEpoch := some []
  createdAt := Resplit.now
  lastPushAt := none
  lastVerifyAt := none
  lastError := none

def repo (chunkHash : Text) : LocalChunk :=
  match Resplit.first.lookup chunkHash with
  | some data => .found data
  | none => .absent

def stored (nodeId : Text) (shardIndex : Nat) : Bool := nodeId == "n1".toList && shardIndex == 0

/-- A view without `n1`, in which no call gets through. -/
def context : PushContext where
  cluster := {
    selfNodeId := some "o".toList
    members := [{ nodeId := "o".toList, address := "a0".toList },
      { nodeId := "n2".toList, address := "a2".toList }]
    distinct := by decide }
  originNodeId := "o".toList
  clusterToken := "c".toList
  maxShardSize := 1024
  maxMessageBytes := 4096
  answers := fun _ => {
    taskError := none
    probe := .error "UNAVAILABLE"
    refused := none
    stream := []
    broken := none }
  completionOrder := id
  pushedAt := Resplit.now

def placements : List ShardPlacement :=
  [{ packHash, shardIndex := 0, nodeId := "n2".toList, address := "a2".toList }]

def update : ErasureDataPackPushUpdate where
  toErasurePackArgs := argsOf Resplit.blake3 Striping.zfec Resplit.spec Resplit.first placements
  protectionState := .failed
  placementEpoch :=
    some (context.cluster.placementEpochExcluding Resplit.blake3 1 context.clusterToken
      ["o".toList])
  pushedAt := Resplit.now

end Departed

/-- A retry in which every delivery fails moves the only row to a node that has nothing. -/
theorem failedRetry_losesPack :
    Departed.db.getErasureDataPack Departed.packHash = some Departed.record ∧
    Departed.record.dataShards ≤ storedRows Departed.db Departed.packHash Departed.stored ∧
    retryExistingPack Resplit.blake3 Striping.zfec Departed.db Departed.repo
      Departed.context Departed.packHash
      Departed.record = .ok (.push Departed.update) ∧
    (Departed.db.applyErasureDataPackPushUpdate Departed.update).toOption.map (fun after =>
        decide (Departed.record.dataShards ≤ storedRows after Departed.packHash Departed.stored)) =
          some false := by
  decide +kernel

namespace Replaced

def chunks : List (Text × Bytes) := [Striping.named [1, 2], Striping.named [3, 1]]

def packHash : Text := blake3HexDigest Striping.blake3 [1, 2, 3, 1]

def placement (shardIndex : Nat) (nodeId address : String) : ShardPlacement where
  packHash
  shardIndex
  nodeId := nodeId.toList
  address := address.toList

def tables : MetadataDB :=
  { MetadataDB.empty with chunks := .ofList (chunks.map fun chunk => (chunk.1, chunk.2.length)) }

/-- The pack has two data shards and a parity shard, on `n1`, `n4` and `n3`. -/
def events : List CatalogEvent :=
  [.elsewhere tables,
    .register (argsOf Striping.blake3 Parity.zfec Parity.spec chunks
      [placement 0 "n1" "a1", placement 1 "n4" "a4", placement 2 "n3" "a3"]) .pending
        (some []) Resplit.now]

def record : ErasureDataPackRow where
  codec := "zfec".toList
  dataShards := 2
  parityShards := 1
  payloadSize := 4
  paddedSize := 4
  shardSize := 2
  protectionState := .pending
  placementEpoch := some []
  createdAt := Resplit.now
  lastPushAt := none
  lastVerifyAt := none
  lastError := none

def repo (chunkHash : Text) : LocalChunk :=
  match chunks.lookup chunkHash with
  | some data => .found data
  | none => .absent

def message : RefMessage where
  packHash
  shardIndex := 0
  shardHash := blake3HexDigest Striping.blake3 [1, 2]

/-- `n5` is sent the shard that it lists as missing, `n4` lists none, and `n2` does not answer. -/
def answers (address : Text) : TargetAnswer where
  taskError := none
  probe := if address = "a5".toList then .ok [message] else if address = "a4".toList then .ok []
    else .error "UNAVAILABLE"
  refused := none
  stream := if address = "a5".toList then [{ ref := message, status := .stored, detail := "" }]
    else []
  broken := none

/-- The view after `n1` and `n3` have departed. -/
def context : PushContext := { Departed.context with
  cluster := {
    selfNodeId := some "o".toList
    members := ["o", "n2", "n4", "n5"].map fun nodeId => ⟨nodeId.toList, 'a' :: nodeId.toList.tail⟩
    distinct := by decide }
  answers }

def update : ErasureDataPackPushUpdate where
  toErasurePackArgs := argsOf Striping.blake3 Parity.zfec Parity.spec chunks
    [placement 0 "n5" "a5", placement 1 "n4" "a4", placement 2 "n2" "a2"]
  protectionState := .degraded
  placementEpoch :=
    some (context.cluster.placementEpochExcluding Striping.blake3 3 context.clusterToken
      ["o".toList])
  pushedAt := Resplit.now

def before (nodeId : Text) (shardIndex : Nat) : Bool :=
  [("n1", 0), ("n4", 1), ("n3", 2)].any fun row => nodeId == row.1.toList && shardIndex == row.2

def delivered (nodeId : Text) (shardIndex : Nat) : Bool := nodeId == "n5".toList && shardIndex == 0

/-- What the nodes have when the push is over. -/
def stored (nodeId : Text) (shardIndex : Nat) : Bool :=
  before nodeId shardIndex || delivered nodeId shardIndex

end Replaced

open Replaced in
/-- Two of the three rows move, the shard of one of them is delivered, and the pack stays
recoverable. -/
theorem deliveredShard_keepsPack :
    retryExistingPack Striping.blake3 Parity.zfec
      (events.foldl catalogStep .empty) repo context packHash record = .ok (.push update) ∧
    ∃ after, (events.foldl catalogStep .empty).applyErasureDataPackPushUpdate update = .ok after ∧
      (after.getErasurePackShards packHash).map (·.nodeId) = ["n5".toList,
        "n4".toList, "n2".toList] ∧
      record.dataShards ≤ storedRows after packHash stored := by
  have retried : retryExistingPack Striping.blake3 Parity.zfec
      (events.foldl catalogStep .empty) repo context packHash
      record = .ok (.push update) := by decide +kernel
  have rows : ((events.foldl catalogStep .empty).applyErasureDataPackPushUpdate update).toOption.map
      (fun after => (after.getErasurePackShards packHash).map (·.nodeId)) =
        some ["n5".toList, "n4".toList, "n2".toList] := by decide +kernel
  refine ⟨retried, ?_⟩
  cases applied : (events.foldl catalogStep .empty).applyErasureDataPackPushUpdate update with
  | error reason =>
      rw [applied] at rows
      cases rows
  | ok after =>
      rw [applied] at rows
      refine ⟨after, rfl, Option.some.inj rows, ?_⟩
      apply (retry_recoverable_iff Striping.blake3 Parity.zfec events repo context packHash
        record update after stored
        retried applied).mpr
      decide +kernel

end Stopan.Erasure
