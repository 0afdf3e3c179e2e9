import Stopan.Erasure.PackIdentity
import Stopan.Lib.StableSort
import Stopan.Restore.ErasureFetch

namespace Stopan.Restore

open Stopan.Lib Stopan.Common Stopan.Cluster Stopan.Erasure Stopan.Metadata
  Stopan.Protection Stopan.Rpc

section Packs

/-- The catalog rows of a pack that was built from these chunks, with its shards on any nodes. -/
structure HoldsPack (db : MetadataDB) (blake3 : Blake3) (zfec : Zfec) (spec : ErasureSpec)
    (chunks : List (Text × Bytes)) :
    Prop where
  pack : ∃ row, db.getErasureDataPack (blake3HexDigest blake3 (packPayload chunks)) = some row ∧
    row.definition = definitionOf spec (packPayload chunks)
  chunkEntries : db.getErasurePackChunks (blake3HexDigest blake3 (packPayload chunks)) =
    chunkRows chunks
  shardEntries : (db.getErasurePackShards (blake3HexDigest blake3 (packPayload chunks))).map
    (fun row => (row.shardIndex, row.shardHash)) =
      (packOf blake3 zfec chunks spec).shards.map fun shard => (shard.shardIndex, shard.shardHash)

variable {db : MetadataDB} {blake3 : Blake3} {zfec : Zfec} {spec : ErasureSpec}
  {chunks : List (Text × Bytes)}

/-- Registration leaves such rows. -/
theorem holdsPack_of_registered {before : MetadataDB} {placements : List ShardPlacement}
    {protectionState : ProtectionState}
    {placementEpoch : Option Text} {now : PyFloat} (sound : before.ErasureSound)
    (mds : zfec.Mds spec.dataShards spec.totalShards) (filled : chunks ≠ [])
    (chunk : ∀ chunk ∈ chunks, IsChunk blake3 chunk)
    (placed : ValidPlacement spec.totalShards placements)
    (registered : before.registerErasureDataPack
      (argsOf blake3 zfec spec chunks placements) protectionState placementEpoch
      now = .ok db) : HoldsPack db blake3 zfec spec chunks := by
  obtain ⟨packHash, definition, rows, shards, scalars, checked, written, -⟩ :=
    registerErasureDataPack_ok sound registered
  rw [requireErasureDefinition_argsOf, Except.ok.injEq, Prod.mk.injEq] at scalars
  obtain ⟨rfl, rfl⟩ := scalars
  rw [requireErasureRows_argsOf mds filled chunk placed, Except.ok.injEq, Prod.mk.injEq] at checked
  obtain ⟨rfl, rfl⟩ := checked
  refine ⟨written.own, written.chunks, ?_⟩
  rw [written.shards, shardRows, List.map_map]
  rfl

theorem createDataPackEntry_of_chunks (entries : List (Text × Bytes)) (offset ordinal : Nat)
    (chunk : ∀ chunk ∈ entries, IsChunk blake3 chunk) :
    ((entriesOf offset ordinal entries).map DataPackEntry.chunkEntry).mapM (fun item =>
      createDataPackEntry item.chunkHash item.offset item.length item.ordinal) = .ok
        (entriesOf offset ordinal entries) := by
  rw [mapM_eq_ok_iff, List.forall₂_map_left_iff, List.forall₂_same]
  intro entry member
  induction entries generalizing offset ordinal with
  | nil => cases member
  | cons first rest ih =>
      obtain ⟨named, some⟩ := chunk first (by simp)
      rcases List.mem_cons.mp member with rfl | later
      · have positive : decide (0 < first.2.length) = true :=
          decide_eq_true (List.length_pos_iff.mpr some)
        rw [DataPackEntry.chunkEntry, createDataPackEntry]
        dsimp only
        rw [requireHash_of_valid (named ▸ blake3HexDigest_valid blake3 _)]
        simp only [positive, ensure, if_true]
        rfl
      · exact ih _ _ (fun other listed => chunk other (List.mem_cons_of_mem _ listed)) later

theorem requireConfigNonNegativeInt_natCast (name : String) (value : Nat) :
    requireConfigNonNegativeInt name value = .ok value := by
  rw [requireConfigNonNegativeInt, ensure_bind_eq_ok_iff]
  exact ⟨decide_eq_true (Int.natCast_nonneg value), rfl⟩

theorem requireConfigPositiveInt_natCast (name : String) {value : Nat} (positive : 0 < value) :
    requireConfigPositiveInt name value = .ok value := by
  rw [requireConfigPositiveInt, requireConfigNonNegativeInt_natCast, bind_eq_ok_iff]
  refine ⟨value, rfl, ?_⟩
  rw [ensure_bind_eq_ok_iff]
  exact ⟨decide_eq_true positive, rfl⟩

theorem specFromErasureMetadata_definitionOf {row : ErasureDataPackRow} {payload : Bytes}
    (defined : row.definition = definitionOf spec payload) :
    specFromErasureMetadata row = .ok spec := by
  obtain ⟨codec, data, parity, -⟩ := ErasureDefinition.mk.inj defined
  rw [specFromErasureMetadata, codec, data, parity, createErasureSpec,
    requireConfigPositiveInt_natCast _ spec.positive, bind_eq_ok_iff]
  refine ⟨_, rfl, ?_⟩
  rw [requireConfigNonNegativeInt_natCast, bind_eq_ok_iff]
  refine ⟨_, rfl, ?_⟩
  rw [dif_pos spec.bounded, dif_pos spec.positive, ensure_bind_eq_ok_iff]
  exact ⟨by decide, rfl⟩

theorem manifestFromErasureMetadata_definitionOf (chunk : ∀ chunk ∈ chunks, IsChunk blake3 chunk)
    {row : ErasureDataPackRow} (defined : row.definition = definitionOf spec (packPayload chunks)) :
    manifestFromErasureMetadata (blake3HexDigest blake3 (packPayload chunks)) row
      (chunkRows chunks) = .ok (packOf blake3 zfec chunks spec).manifest := by
  obtain ⟨-, -, -, payload, padded, shard⟩ := ErasureDefinition.mk.inj defined
  rw [manifestFromErasureMetadata, specFromErasureMetadata_definitionOf defined, bind_eq_ok_iff]
  refine ⟨_, rfl, ?_⟩
  rw [chunkRows, createDataPackEntry_of_chunks chunks 0 0 chunk, bind_eq_ok_iff]
  refine ⟨_, rfl, ?_⟩
  rw [createDataPackManifest, requireHash_of_valid (blake3HexDigest_valid blake3 _), bind_eq_ok_iff]
  refine ⟨_, rfl, ?_⟩
  rw [ensure_bind_eq_ok_iff, payload, padded, shard]
  exact ⟨decide_eq_true rfl, rfl⟩

/-- The job of a registered pack has the manifest with which the pack was built. -/
theorem buildRecoveryJob_of_holds (holds : HoldsPack db blake3 zfec spec chunks)
    (mds : zfec.Mds spec.dataShards spec.totalShards) (filled : chunks ≠ [])
    (chunk : ∀ chunk ∈ chunks, IsChunk blake3 chunk) (wantedHashes : List Text) :
    buildRecoveryJob db (blake3HexDigest blake3 (packPayload chunks)) wantedHashes = .ok {
      packHash := blake3HexDigest blake3 (packPayload chunks)
      manifest := (packOf blake3 zfec chunks spec).manifest
      shardRows := db.getErasurePackShards (blake3HexDigest blake3 (packPayload chunks))
      wantedHashes } := by
  obtain ⟨row, found, defined⟩ := holds.pack
  have data : row.dataShards = spec.dataShards := (ErasureDefinition.mk.inj defined).2.1
  have someChunks : (!(chunkRows chunks).isEmpty) = true := by
    cases rows : chunkRows chunks with
    | nil =>
        have count := @chunkRows_length chunks
        rw [rows] at count
        exact absurd (List.length_eq_zero_iff.mp count.symm) filled
    | cons entry rest => rfl
  have total : (db.getErasurePackShards (blake3HexDigest blake3 (packPayload chunks))).length =
      spec.totalShards := by
    have counts := congrArg List.length holds.shardEntries
    have indexes := congrArg List.length (packOf_indexes blake3 chunks mds)
    simp only [List.length_map, List.length_range] at counts indexes
    exact counts.trans indexes
  have enough : row.dataShards ≤ spec.totalShards := data ▸ Nat.le_add_right ..
  rw [buildRecoveryJob, found]
  dsimp only
  rw [holds.chunkEntries, ensure_bind_eq_ok_iff, ensure_bind_eq_ok_iff, total,
    manifestFromErasureMetadata_definitionOf chunk defined]
  exact ⟨someChunks, decide_eq_true enough, rfl⟩

/-- What is kept of one result: the shard that it names, if its bytes have the hash that it
names. -/
def acceptedShard (blake3 : Blake3) (item : ShardRetrieveResult) : Option DataPackShard :=
  if item.status ≠ .found then none
  else (createDataPackShard blake3 item.ref.packHash item.ref.shardIndex item.data
    item.ref.shardHash).toOption

/-- The shards of all results of the calls, in the order in which the calls complete. -/
def acceptedShards (blake3 : Blake3) (answers : Text → ShardAnswer)
    (calls : List (Text × List ShardRef)) :
    List DataPackShard :=
  calls.flatMap fun call =>
    match retrieveShardBatch (answers call.1) call.2 with
    | .error _ => []
    | .ok results => results.values.filterMap (acceptedShard blake3)

/-- The calls for the shards of a pack: the refs by the address of their nodes. -/
def shardCalls (view : ClusterView) (packHash : Text) (rows : List ErasureShardEntry) :
    List (Text × List ShardRef) :=
  match groupErasureShardRefsByAddress packHash view.nodeAddresses rows with
  | .error _ => []
  | .ok groups => groups.refsByAddress.entries

/-- The addresses of the recorded shards whose nodes are in the view. -/
def onlineAddresses (view : ClusterView) (rows : List ErasureShardEntry) : List Text :=
  (rows.filterMap fun row => view.nodeAddresses.get? row.nodeId).dedup

theorem foldl_takeShardResult (address : Text) (items : List ShardRetrieveResult)
    (state : List DataPackShard × List String) :
    (items.foldl (takeShardResult blake3 address) state).1 = state.1 ++ items.filterMap
      (acceptedShard blake3) := by
  induction items generalizing state with
  | nil => simp
  | cons item rest ih =>
      rw [List.foldl_cons, ih, List.filterMap_cons, takeShardResult, acceptedShard]
      dsimp only
      split
      · rfl
      · cases created : createDataPackShard blake3 item.ref.packHash item.ref.shardIndex item.data
          item.ref.shardHash with
        | error reason => rfl
        | ok shard => simp [Except.toOption]

theorem foldl_takeShardCall (answers : Text → ShardAnswer) (calls : List (Text × List ShardRef))
    (state : List DataPackShard × List String) :
    (calls.foldl (takeShardCall blake3 answers) state).1 = state.1 ++
      acceptedShards blake3 answers calls := by
  induction calls generalizing state with
  | nil => simp [acceptedShards]
  | cons call rest ih =>
      have first : (takeShardCall blake3 answers state call).1 = state.1 ++
          acceptedShards blake3 answers [call] := by
        rw [takeShardCall, acceptedShards, List.flatMap_singleton]
        cases retrieveShardBatch (answers call.1) call.2 with
        | error failure => exact (List.append_nil _).symm
        | ok results => exact foldl_takeShardResult _ _ _
      rw [List.foldl_cons, ih, first, List.append_assoc, acceptedShards, acceptedShards,
        ← List.flatMap_append]
      rfl

variable {packHash address : Text} {view : ClusterView} {rows : List ErasureShardEntry}

theorem addShardTarget_keys {groups next : ShardTargetGroups} {nodeAddresses : Dict Text Text}
    {row : ErasureShardEntry}
    (added : addShardTarget packHash nodeAddresses groups row = .ok next) :
    address ∈ next.refsByAddress.keys ↔ address ∈ groups.refsByAddress.keys ∨
      nodeAddresses.get? row.nodeId = some address := by
  rw [addShardTarget] at added
  split at added
  · rename_i offline
    cases added
    simp [offline]
  · rename_i target located
    obtain ⟨ref, -, grouped⟩ := bind_eq_ok_iff.mp added
    cases pure_eq_ok_iff.mp grouped
    rw [Dict.modify, Dict.mem_keys_set, located, Option.some.injEq, or_comm, eq_comm]

theorem foldlM_addShardTarget_keys {nodeAddresses : Dict Text Text}
    {groups next : ShardTargetGroups}
    (grouped : rows.foldlM (addShardTarget packHash nodeAddresses) groups = .ok next) :
    address ∈ next.refsByAddress.keys ↔ address ∈ groups.refsByAddress.keys ∨
      ∃ row ∈ rows, nodeAddresses.get? row.nodeId = some address := by
  induction rows generalizing groups with
  | nil =>
      cases pure_eq_ok_iff.mp grouped
      simp
  | cons row rest ih =>
      rw [List.foldlM_cons] at grouped
      obtain ⟨middle, first, others⟩ := bind_eq_ok_iff.mp grouped
      rw [ih others, addShardTarget_keys first, or_assoc, List.exists_mem_cons_iff]

/-- As many calls are planned as there are addresses. -/
theorem shardCalls_length {groups : ShardTargetGroups}
    (grouped : groupErasureShardRefsByAddress packHash view.nodeAddresses rows = .ok groups) :
    groups.refsByAddress.length = (onlineAddresses view rows).length := by
  have same : groups.refsByAddress.keys.Perm (onlineAddresses view rows) := by
    refine (List.perm_ext_iff_of_nodup (Dict.keys_nodup _) (List.nodup_dedup _)).mpr
      fun address => ?_
    rw [foldlM_addShardTarget_keys grouped, List.mem_dedup, List.mem_filterMap]
    simp
  rw [← same.length_eq, Dict.keys, List.length_map]
  rfl

theorem groupErasureShardRefsByAddress_returns (nodeAddresses : Dict Text Text)
    (named : isValidBlake3Hex packHash = true)
    (hashes : ∀ row ∈ rows, isValidBlake3Hex row.shardHash = true) :
    ∃ groups, groupErasureShardRefsByAddress packHash nodeAddresses rows = .ok groups := by
  rw [groupErasureShardRefsByAddress]
  refine exists_foldlM_ok (fun _ => True) (fun groups row member _ => ?_) trivial
  rw [addShardTarget]
  split
  · exact ⟨_, rfl, trivial⟩
  · rw [createShardRef, requireHash_of_valid named, requireHash_of_valid (hashes row member)]
    exact ⟨_, rfl, trivial⟩

/-- `sorted(found)[:required]`. -/
def firstShards (shards : List DataPackShard) (required : Nat) : List DataPackShard :=
  (sortedByIndex shards).take required

theorem sortedByIndex_firstShards (shards : List DataPackShard) (required : Nat) :
    sortedByIndex (firstShards shards required) = firstShards shards required := by
  have total : Std.Total fun left right : DataPackShard => left.shardIndex ≤ right.shardIndex :=
    ⟨fun _ _ => Nat.le_total _ _⟩
  have trans : IsTrans DataPackShard fun left right => left.shardIndex ≤ right.shardIndex :=
    ⟨fun _ _ _ => Nat.le_trans⟩
  exact List.Pairwise.insertionSort_eq
    ((List.pairwise_insertionSort _ shards).sublist (List.take_sublist _ _))

theorem checkSelected_eq_ok_iff {totalShards : Nat} (shards : List DataPackShard)
    (seen : List Nat) :
    checkSelected packHash totalShards seen shards = .ok () ↔
      (∀ shard ∈ shards, shard.packHash = packHash ∧ shard.shardIndex < totalShards) ∧
        (shards.map (·.shardIndex)).Nodup ∧ ∀ shard ∈ shards, shard.shardIndex ∉ seen := by
  refine ⟨fun checked => ?_,
    fun ⟨belong, distinct, fresh⟩ => checkSelected_of_distinct shards seen belong distinct fresh⟩
  induction shards generalizing seen with
  | nil => simp
  | cons shard rest ih =>
      rw [checkSelected, ensure_bind_eq_ok_iff, ensure_bind_eq_ok_iff,
        ensure_bind_eq_ok_iff] at checked
      obtain ⟨same, bounded, fresh, later⟩ := checked
      obtain ⟨belong, distinct, others⟩ := ih _ later
      refine ⟨fun other member => ?_, ?_, fun other member => ?_⟩
      · rcases List.mem_cons.mp member with rfl | listed
        · exact ⟨of_decide_eq_true same, of_decide_eq_true bounded⟩
        · exact belong other listed
      · rw [List.map_cons, List.nodup_cons]
        refine ⟨fun repeated => ?_, distinct⟩
        obtain ⟨other, listed, equal⟩ := List.mem_map.mp repeated
        exact others other listed (equal ▸ List.mem_cons_self)
      · rcases List.mem_cons.mp member with rfl | listed
        · exact of_decide_eq_true fresh
        · exact fun earlier => others other listed (List.mem_cons_of_mem _ earlier)

/-- The bytes that the codec gives for shards, without the padding. -/
def decodedPayload (zfec : Zfec) (spec : ErasureSpec) (payloadSize : Nat)
    (shards : List DataPackShard) : Bytes :=
  (zfec.decode spec.dataShards spec.totalShards (shards.map (·.data))
    (shards.map (·.shardIndex))).flatten.take payloadSize

theorem firstShards_length {shards : List DataPackShard} {required : Nat}
    (enough : required ≤ shards.length) : (firstShards shards required).length = required := by
  rw [firstShards, List.length_take, sortedByIndex, List.length_insertionSort,
    Nat.min_eq_left enough]

theorem decode_firstShards_eq_ok_iff {found : Bytes} {payloadSize : Nat}
    {shards : List DataPackShard} (enough : spec.dataShards ≤ shards.length) :
    decode blake3 zfec (firstShards shards spec.dataShards) spec payloadSize packHash = .ok found ↔
      (∀ shard ∈ firstShards shards spec.dataShards, shard.packHash = packHash ∧
        shard.shardIndex < spec.totalShards) ∧
      ((firstShards shards spec.dataShards).map (·.shardIndex)).Nodup ∧
      decodedPayload zfec spec payloadSize (firstShards shards spec.dataShards) = found ∧
      blake3HexDigest blake3 found = packHash := by
  have selected : (sortedByIndex (firstShards shards spec.dataShards)).take spec.dataShards =
      firstShards shards spec.dataShards := by
    rw [sortedByIndex_firstShards]
    exact List.take_of_length_le (firstShards_length enough).le
  rw [decode]
  dsimp only
  rw [selected, ensure_bind_eq_ok_iff, firstShards_length enough, bind_eq_ok_iff]
  constructor
  · rintro ⟨-, ⟨⟩, checked, later⟩
    obtain ⟨belong, distinct, -⟩ := (checkSelected_eq_ok_iff _ _).mp checked
    obtain ⟨hash, returned⟩ := ensure_bind_eq_ok_iff.mp later
    have decoded := pure_eq_ok_iff.mp returned
    exact ⟨belong, distinct, decoded, decoded ▸ of_decide_eq_true hash⟩
  · rintro ⟨belong, distinct, rfl, hash⟩
    refine ⟨decide_eq_true (Nat.le_refl _), (),
      (checkSelected_eq_ok_iff _ _).mpr ⟨belong, distinct, by simp⟩, ?_⟩
    rw [ensure_bind_eq_ok_iff]
    exact ⟨decide_eq_true hash, rfl⟩

/-- Blocks of one length that begin with the payload, whatever fills them up behind it. -/
structure PaddedPayload (payload : Bytes) (dataShards : Nat) (blocks : List Bytes) : Prop where
  count : blocks.length = dataShards
  level : ∃ size, ∀ block ∈ blocks, block.length = size
  joined : blocks.flatten.take payload.length = payload

/-- The shard that these blocks have at an index. -/
def shardAt (zfec : Zfec) (spec : ErasureSpec) (blocks : List Bytes) (index : Nat) : Bytes :=
  (zfec.encode spec.dataShards spec.totalShards blocks (List.range spec.totalShards)).getD index []

/-- Shards with distinct indexes decode to the payload if they are shards of a padded payload, and
only then. -/
theorem decodedPayload_eq_iff {payload : Bytes} {shards : List DataPackShard}
    (strict : zfec.Strict spec.dataShards spec.totalShards) (some : payload ≠ [])
    (counted : shards.length = spec.dataShards) (distinct : (shards.map (·.shardIndex)).Nodup)
    (bounded : ∀ shard ∈ shards, shard.shardIndex < spec.totalShards) :
    decodedPayload zfec spec payload.length shards = payload ↔
      ∃ blocks, PaddedPayload payload spec.dataShards blocks ∧
        ∀ shard ∈ shards, shard.data = shardAt zfec spec blocks shard.shardIndex := by
  have indexCount : (shards.map (·.shardIndex)).length = spec.dataShards := by
    rw [List.length_map, counted]
  have indexBound : ∀ index ∈ shards.map (·.shardIndex), index < spec.totalShards := by
    simpa using bounded
  constructor
  · intro decodes
    by_cases level : ∃ left ∈ shards.map (·.data), ∃ right ∈ shards.map (·.data),
      left.length ≠ right.length
    · rw [decodedPayload, strict.refuses _ _ level] at decodes
      exact absurd (by simpa using decodes.symm) some
    push Not at level
    obtain ⟨first, rest, listed⟩ := List.exists_cons_of_length_pos (counted ▸ spec.positive)
    have sizes : ∀ share ∈ shards.map (·.data), share.length = first.data.length := by
      intro share member
      exact level share member first.data (by simp [listed])
    obtain ⟨blocks, count, blockSizes, shares⟩ := strict.covers _ _ (shards.map (·.shardIndex))
      (by rw [List.length_map, counted]) sizes distinct indexCount indexBound
    refine ⟨blocks, ⟨count, ⟨_, blockSizes⟩, ?_⟩, fun shard member => ?_⟩
    · rw [decodedPayload, shares,
        strict.recovers _ _ _ count blockSizes distinct indexCount indexBound] at decodes
      exact decodes
    · rw [List.map_map] at shares
      exact List.map_inj_left.mp shares shard member
  · rintro ⟨blocks, ⟨count, ⟨size, sizes⟩, joined⟩, shares⟩
    have data : shards.map (·.data) = (shards.map (·.shardIndex)).map
        (shardAt zfec spec blocks) := by
      rw [List.map_map]
      exact List.map_congr_left shares
    rw [decodedPayload, data]
    change (zfec.decode _ _ ((shards.map (·.shardIndex)).map fun index =>
      (zfec.encode _ _ blocks (List.range _)).getD index []) _).flatten.take _ = _
    rw [strict.recovers _ _ _ count sizes distinct indexCount indexBound, joined]

/-- An item that passes for a shard: it was found, and its bytes have the hash that it names
itself. -/
def ShardRetrieveResult.isSound (blake3 : Blake3) (item : ShardRetrieveResult) : Bool :=
  decide (item.status = .found ∧ blake3HexDigest blake3 item.data = item.ref.shardHash)

def ShardRetrieveResult.shard (item : ShardRetrieveResult) : DataPackShard where
  packHash := item.ref.packHash
  shardIndex := item.ref.shardIndex
  data := item.data
  shardHash := item.ref.shardHash

/-- The order in which the items are decoded. -/
def byIndex (left right : ShardRetrieveResult) : Prop := left.ref.shardIndex ≤ right.ref.shardIndex

instance : DecidableRel byIndex :=
  fun left right => Nat.decLe left.ref.shardIndex right.ref.shardIndex

instance : Std.Total byIndex := ⟨fun _ _ => Nat.le_total _ _⟩

instance : IsTrans ShardRetrieveResult byIndex := ⟨fun _ _ _ => Nat.le_trans⟩

def IsValidShardRef (ref : ShardRef) : Prop := isValidBlake3Hex ref.packHash = true ∧
    isValidBlake3Hex ref.shardHash = true

theorem createShardRef_isValid {shardHash : Text} {shardIndex : Nat} {ref : ShardRef}
    (created : createShardRef packHash shardIndex shardHash = .ok ref) : IsValidShardRef ref := by
  obtain ⟨pack, packChecked, rest⟩ := bind_eq_ok_iff.mp created
  obtain ⟨shard, shardChecked, same⟩ := bind_eq_ok_iff.mp rest
  cases pure_eq_ok_iff.mp same
  exact ⟨requireHash_eq_ok packChecked, requireHash_eq_ok shardChecked⟩

def HoldsValidRefs (results : Dict ShardRef ShardRetrieveResult) : Prop :=
  ∀ key item, results.get? key = some item → IsValidShardRef item.ref

theorem HoldsValidRefs.set {results : Dict ShardRef ShardRetrieveResult}
    (holds : HoldsValidRefs results) {key : ShardRef} {item : ShardRetrieveResult}
    (valid : IsValidShardRef item.ref) : HoldsValidRefs (results.set key item) := by
  intro other found located
  rw [Dict.get?_set] at located
  split at located
  · cases located
    exact valid
  · exact holds other found located

theorem takeShardMessage_validRefs {results next : Dict ShardRef ShardRetrieveResult}
    {message : ShardRetrieveMessage} (holds : HoldsValidRefs results)
    (taken : takeShardMessage results message = .ok next) : HoldsValidRefs next := by
  rw [takeShardMessage] at taken
  split at taken
  · cases taken
    exact holds
  · cases parsed : message.ref.parse with
    | error reason =>
        rw [parsed] at taken
        cases taken
    | ok ref =>
        rw [parsed] at taken
        cases taken
        exact holds.set (createShardRef_isValid parsed)

theorem retrieveShardBatch_validRefs {answer : ShardAnswer} {refs : List ShardRef}
    {results : Dict ShardRef ShardRetrieveResult} (asked : ∀ ref ∈ refs, IsValidShardRef ref)
    (returned : retrieveShardBatch answer refs = .ok results) : HoldsValidRefs results := by
  have empty : HoldsValidRefs (.empty : Dict ShardRef ShardRetrieveResult) := by
    intro key item located
    rw [Dict.get?_empty] at located
    cases located
  unfold retrieveShardBatch at returned
  dsimp only at returned
  split at returned
  · cases returned
    exact empty
  · refine runAdaptiveBatch_holds (fun left right first second => ?_)
      (fun batch answered within once => ?_) returned
    · intro key item located
      rcases Dict.get?_update_cases located with later | ⟨-, earlier⟩
      · exact second key item (Dict.get?_eq_some_iff.mpr later)
      · exact first key item earlier
    · obtain ⟨messages, -, rest⟩ := bind_eq_ok_iff.mp once
      obtain ⟨taken, folded, same⟩ := bind_eq_ok_iff.mp rest
      cases pure_eq_ok_iff.mp same
      have fromMessages : HoldsValidRefs taken :=
        foldlM_invariant HoldsValidRefs (fun state message _ next holds stepped =>
          takeShardMessage_validRefs holds stepped) empty folded
      refine List.foldlRecOn (motive := HoldsValidRefs) _ _ fromMessages
        fun state holds ref member => ?_
      split
      · exact holds
      · exact holds.set (asked ref (mem_orderedUnique.mp (within member)))

theorem shardCalls_validRefs {call : Text × List ShardRef}
    (planned : call ∈ shardCalls view packHash rows) :
    ∀ ref ∈ call.2, IsValidShardRef ref := by
  rw [shardCalls] at planned
  cases grouped : groupErasureShardRefsByAddress packHash view.nodeAddresses rows with
  | error reason => simp [grouped] at planned
  | ok groups =>
      rw [grouped] at planned
      have each : ∀ address refs, groups.refsByAddress.get? address = some refs →
          ∀ ref ∈ refs, IsValidShardRef ref := by
        refine foldlM_invariant (fun groups : ShardTargetGroups => ∀ address refs,
          groups.refsByAddress.get? address = some refs →
            ∀ ref ∈ refs, IsValidShardRef ref) ?_ ?_ grouped
        · intro state row _ next holds added
          rw [addShardTarget] at added
          split at added
          · cases added
            exact holds
          · obtain ⟨created, made, same⟩ := bind_eq_ok_iff.mp added
            cases pure_eq_ok_iff.mp same
            intro address refs located ref member
            rw [Dict.get?_modify] at located
            split at located
            · cases located
              rcases List.mem_append.mp member with earlier | own
              · cases known : state.refsByAddress.get? address with
                | none => simp_all
                | some others => exact holds address others known ref (by simp_all)
              · rw [List.mem_singleton.mp own]
                exact createShardRef_isValid made
            · exact holds address refs located ref member
        · intro address refs located
          simp at located
      exact each call.1 call.2 (Dict.get?_eq_some_iff.mpr planned)

theorem acceptedShard_of_valid {item : ShardRetrieveResult} (valid : IsValidShardRef item.ref) :
    acceptedShard blake3 item =
      (Option.guard (·.isSound blake3) item).map ShardRetrieveResult.shard := by
  rw [acceptedShard, createDataPackShard, requireHash_of_valid valid.1,
    requireHash_of_valid valid.2, Option.guard]
  by_cases found : item.status = .found
  · by_cases same : blake3HexDigest blake3 item.data = item.ref.shardHash
    · simp [ShardRetrieveResult.isSound, ShardRetrieveResult.shard, found, same, ensure, bind,
        Except.bind, pure, Except.pure, Except.toOption]
    · simp [ShardRetrieveResult.isSound, found, same, ensure, bind, Except.bind, Except.toOption]
  · simp [ShardRetrieveResult.isSound, found]

section Recovery

variable {context : ErasureContext}

/-- The shards that a recovery accepts, in the order in which its calls complete. -/
def recoveredShards (context : ErasureContext) (view : ClusterView) (packHash : Text)
    (rows : List ErasureShardEntry) :
    List DataPackShard :=
  acceptedShards context.blake3 context.answers
    (context.calls.arrange (shardCalls view packHash rows))

/-- The items that the calls return, in the order in which the calls complete. -/
def returnedItems (context : ErasureContext) (view : ClusterView) (packHash : Text)
    (rows : List ErasureShardEntry) :
    List ShardRetrieveResult :=
  (context.calls.arrange (shardCalls view packHash rows)).flatMap fun call =>
    match retrieveShardBatch (context.answers call.1) call.2 with
    | .error _ => []
    | .ok results => results.values

/-- The items among them that pass for shards. -/
def soundItems (context : ErasureContext) (view : ClusterView) (packHash : Text)
    (rows : List ErasureShardEntry) :
    List ShardRetrieveResult :=
  (returnedItems context view packHash rows).filter (·.isSound context.blake3)

theorem recoveredShards_eq :
    recoveredShards context view packHash rows =
      (soundItems context view packHash rows).map ShardRetrieveResult.shard := by
  have valid : ∀ item ∈ returnedItems context view packHash rows, IsValidShardRef item.ref := by
    intro item member
    obtain ⟨call, arranged, member⟩ := List.mem_flatMap.mp member
    have planned := (context.calls.permuted _).mem_iff.mp arranged
    cases returned : retrieveShardBatch (context.answers call.1) call.2 with
    | error failure => simp [returned] at member
    | ok results =>
        rw [returned] at member
        obtain ⟨⟨key, other⟩, entry, rfl⟩ := List.mem_map.mp member
        exact retrieveShardBatch_validRefs (shardCalls_validRefs planned) returned key other
          (Dict.get?_eq_some_iff.mpr entry)
  have accepted : recoveredShards context view packHash rows =
      (returnedItems context view packHash rows).filterMap (acceptedShard context.blake3) := by
    rw [recoveredShards, acceptedShards, returnedItems, List.filterMap_flatMap]
    congr 1
    funext call
    cases retrieveShardBatch (context.answers call.1) call.2 <;> rfl
  rw [accepted, List.filterMap_congr fun item member => acceptedShard_of_valid
    (valid item member), soundItems, ← List.map_filterMap, List.filterMap_eq_filter]

theorem retrievePackShards_eq_ok_iff {required : Nat} {shards : List DataPackShard}
    (cluster : context.cluster = .ok view) (named : isValidBlake3Hex packHash = true)
    (hashes : ∀ row ∈ rows, isValidBlake3Hex row.shardHash = true) :
    retrievePackShards context packHash rows required = .ok shards ↔
      required ≤ (onlineAddresses view rows).length ∧
        required ≤ (recoveredShards context view packHash rows).length ∧
        firstShards (recoveredShards context view packHash rows) required = shards := by
  obtain ⟨groups, grouped⟩ := groupErasureShardRefsByAddress_returns view.nodeAddresses named hashes
  have accepted : ((context.calls.arrange groups.refsByAddress.entries).foldl
      (takeShardCall context.blake3 context.answers) ([], groups.offlineErrors)).1 =
        recoveredShards context view packHash rows := by
    rw [foldl_takeShardCall, recoveredShards, shardCalls, grouped]
    exact List.nil_append _
  rw [retrievePackShards, cluster]
  dsimp only
  rw [grouped]
  dsimp only
  rw [shardCalls_length grouped, accepted]
  split
  · rename_i few
    simp only [reduceCtorEq, false_iff, not_and]
    omega
  · rename_i addresses
    split
    · rename_i few
      simp only [reduceCtorEq, false_iff, not_and]
      omega
    · rename_i enough
      rw [Except.ok.injEq, ← firstShards]
      exact ⟨fun same => ⟨by omega, by omega, same⟩, fun known => known.2.2⟩

/-- Every chunk of the pack comes back with its exact bytes, and nothing else. -/
def RecoversChunks (context : ErasureContext) (job : ErasurePackRecoveryJob)
    (chunks : List (Text × Bytes)) : Prop :=
  ∃ recovered, recoverPackChunks context job = .ok recovered ∧
    ∀ chunkHash data, recovered.get? chunkHash = some data ↔ (chunkHash, data) ∈ chunks

theorem describing_eq_ok_iff {α : Type} {result : Coded α} {value : α} :
    describing result = .ok value ↔ result = .ok value := by
  cases result <;> simp [describing]

/-- The item carries the shard that these blocks have at its index, as one of this pack. -/
def ShardRetrieveResult.IsShardOf (zfec : Zfec) (spec : ErasureSpec) (packHash : Text)
    (blocks : List Bytes) (item : ShardRetrieveResult) : Prop :=
  item.ref.packHash = packHash ∧ item.ref.shardIndex < spec.totalShards ∧
    item.data = shardAt zfec spec blocks item.ref.shardIndex

/-- What the view and the answers are like when a pack is recovered. The recorded shards that are
online have enough addresses. Enough returned items pass for shards. And each of these that has
fewer than `K` of them ahead, by index and then by arrival, is a shard of the payload, padded in one
way for all of them, and the first with its index. -/
structure Recoverable (context : ErasureContext) (view : ClusterView) (spec : ErasureSpec)
    (packHash : Text) (payload : Bytes) (rows : List ErasureShardEntry) : Prop where
  addresses : spec.dataShards ≤ (onlineAddresses view rows).length
  enough : spec.dataShards ≤ (soundItems context view packHash rows).length
  leading : ∃ blocks, PaddedPayload payload spec.dataShards blocks ∧
    ∀ before item after, soundItems context view packHash rows = before ++ item :: after →
      (sortedAhead byIndex before item after).length < spec.dataShards →
        item.IsShardOf context.zfec spec packHash blocks ∧
          item.ref.shardIndex ∉ before.map (·.ref.shardIndex)

theorem firstShards_recoveredShards (required : Nat) :
    firstShards (recoveredShards context view packHash rows) required =
      (((soundItems context view packHash rows).insertionSort byIndex).take required).map
        ShardRetrieveResult.shard := by
  have sorted := List.map_insertionSort byIndex
    (fun left right : DataPackShard => left.shardIndex ≤ right.shardIndex)
    ShardRetrieveResult.shard (soundItems context view packHash rows) fun _ _ _ _ => Iff.rfl
  rw [recoveredShards_eq, firstShards, sortedByIndex, List.map_take, sorted]

/-- The shards that are decoded, by the items ahead of them. -/
theorem leadingItems_iff {blocks : List Bytes} {required : Nat} :
    (∀ before item after, soundItems context view packHash rows = before ++ item :: after →
      (sortedAhead byIndex before item after).length < required →
        item.IsShardOf context.zfec spec packHash blocks ∧
          item.ref.shardIndex ∉ before.map (·.ref.shardIndex)) ↔
    (∀ shard ∈ firstShards (recoveredShards context view packHash rows) required,
      (shard.packHash = packHash ∧ shard.shardIndex < spec.totalShards) ∧
        shard.data = shardAt context.zfec spec blocks shard.shardIndex) ∧
    ((firstShards (recoveredShards context view packHash rows) required).map
      (·.shardIndex)).Nodup := by
  have ties : ∀ left right : ShardRetrieveResult, left.ref.shardIndex = right.ref.shardIndex →
      byIndex left right :=
    fun left right same => same.le
  have shards : (∀ shard ∈ firstShards (recoveredShards context view packHash rows) required,
      (shard.packHash = packHash ∧ shard.shardIndex < spec.totalShards) ∧
        shard.data = shardAt context.zfec spec blocks shard.shardIndex) ↔
      ∀ item ∈ ((soundItems context view packHash rows).insertionSort byIndex).take required,
        item.IsShardOf context.zfec spec packHash blocks := by
    rw [firstShards_recoveredShards, List.forall_mem_map]
    exact forall₂_congr fun item _ => and_assoc
  have indexes : (firstShards (recoveredShards context view packHash rows) required).map
      (·.shardIndex) =
      (((soundItems context view packHash rows).insertionSort byIndex).take required).map
        (·.ref.shardIndex) := by
    rw [firstShards_recoveredShards, List.map_map]
    rfl
  rw [shards, indexes, forall_take_insertionSort_iff, nodup_take_insertionSort_iff ties]
  constructor
  · intro leading
    exact ⟨fun before item after split few => (leading before item after split few).1,
      fun before item after split few => (leading before item after split few).2⟩
  · rintro ⟨shares, fresh⟩ before item after split few
    exact ⟨shares before item after split few, fresh before item after split few⟩

/-- The items that an address sends for a batch, in the responses to it or to the halves into which
it is split. -/
def sentItems (answer : ShardAnswer) (refs : List ShardRef) : List ShardRetrieveMessage :=
  (adaptiveRun (fun peer batch => (peer, retrieveShardBatchOnce answer batch)) ()
    (orderedUnique refs)).calls.flatMap
    fun call =>
      match answer call.batch with
      | .error _ => []
      | .ok messages => messages

/-- The shard of a row comes back: the address of its node sends an item that names it, found, with
bytes that have the recorded hash. -/
def comesBack (context : ErasureContext) (view : ClusterView) (packHash : Text)
    (rows : List ErasureShardEntry) (row : ErasureShardEntry) : Bool :=
  (shardCalls view packHash rows).any fun call => decide
    (view.nodeAddresses.get? row.nodeId = some call.1) &&
    (sentItems (context.answers call.1) call.2).any fun message =>
      decide (message.ref.parse.toOption = some { packHash, shardIndex := row.shardIndex,
                                                  shardHash := row.shardHash } ∧
        message.status = .found ∧ blake3HexDigest context.blake3 message.shardData = row.shardHash)

theorem packPayload_ne_nil (filled : chunks ≠ []) (chunk : ∀ chunk ∈ chunks, IsChunk blake3 chunk) :
    packPayload chunks ≠ [] := by
  obtain ⟨first, rest, rfl⟩ := List.exists_cons_of_ne_nil filled
  have some := (chunk first List.mem_cons_self).2
  simp [packPayload, some]

/-- If `K` recorded shards of a registered pack come back, the pack is recovered exactly if it is
recoverable. -/
theorem recoverPackChunks_iff {wantedHashes : List Text} {job : ErasurePackRecoveryJob}
    (strict : context.zfec.Strict spec.dataShards spec.totalShards) (filled : chunks ≠ [])
    (chunk : ∀ chunk ∈ chunks, IsChunk context.blake3 chunk)
    (holds : HoldsPack db context.blake3 context.zfec spec chunks)
    (built : buildRecoveryJob db
      (blake3HexDigest context.blake3 (packPayload chunks)) wantedHashes = .ok job)
    (cluster : context.cluster = .ok view)
    (free : CollisionFree context.blake3 fun data => (∃ chunkHash, (chunkHash, data) ∈ chunks) ∨
      data = packPayload chunks ∨
      data = decodedPayload context.zfec spec (packPayload chunks).length
        (firstShards (recoveredShards context view job.packHash job.shardRows) spec.dataShards)) :
    spec.dataShards ≤ job.shardRows.countP (comesBack context view job.packHash job.shardRows) →
      (RecoversChunks context job chunks ↔
        Recoverable context view spec job.packHash (packPayload chunks) job.shardRows) := by
  rw [buildRecoveryJob_of_holds holds strict.toMds filled chunk, Except.ok.injEq] at built
  subst built
  intro _
  dsimp only at free ⊢
  have hashes : ∀ row ∈ db.getErasurePackShards (blake3HexDigest context.blake3
      (packPayload chunks)), isValidBlake3Hex row.shardHash = true := by
    intro row member
    have listed :=
      List.mem_map_of_mem
        (f := fun row : ErasureShardEntry => (row.shardIndex, row.shardHash)) member
    rw [holds.shardEntries] at listed
    obtain ⟨shard, present, same⟩ := List.mem_map.mp listed
    rw [← (Prod.mk.inj same).2]
    exact (packOf_shards strict.toMds present).1
  have named := blake3HexDigest_valid context.blake3 (packPayload chunks)
  have some := packPayload_ne_nil filled chunk
  have counts : (recoveredShards context view (blake3HexDigest context.blake3 (packPayload chunks))
      (db.getErasurePackShards (blake3HexDigest context.blake3 (packPayload chunks)))).length =
      (soundItems context view (blake3HexDigest context.blake3 (packPayload chunks))
        (db.getErasurePackShards
          (blake3HexDigest context.blake3 (packPayload chunks)))).length := by
    rw [recoveredShards_eq, List.length_map]
  constructor
  · rintro ⟨recovered, succeeded, -⟩
    obtain ⟨shards, gathered, later⟩ := bind_eq_ok_iff.mp succeeded
    obtain ⟨payload, decoded, -⟩ := bind_eq_ok_iff.mp later
    obtain ⟨addresses, enough, rfl⟩ :=
      (retrievePackShards_eq_ok_iff cluster named hashes).mp gathered
    obtain ⟨belong, distinct, decodes, hash⟩ :=
      (decode_firstShards_eq_ok_iff enough).mp (describing_eq_ok_iff.mp decoded)
    have same : payload = packPayload chunks :=
      free payload _ (.inr (.inr decodes.symm)) (.inr (.inl rfl)) hash
    obtain ⟨blocks, padded, shares⟩ :=
      (decodedPayload_eq_iff strict some (firstShards_length enough) distinct
      fun shard member => (belong shard member).2).mp (decodes.trans same)
    exact ⟨addresses, counts ▸ enough, blocks, padded,
      leadingItems_iff.mpr
        ⟨fun shard member => ⟨belong shard member, shares shard member⟩, distinct⟩⟩
  · rintro ⟨addresses, enough, blocks, padded, leading⟩
    obtain ⟨shares, distinct⟩ := leadingItems_iff.mp leading
    have belong := fun shard member => (shares shard member).1
    have decodes :=
      (decodedPayload_eq_iff strict some (firstShards_length (counts ▸ enough)) distinct
      fun shard member => (belong shard member).2).mpr
        ⟨blocks, padded, fun shard member => (shares shard member).2⟩
    obtain ⟨extracted, ran, sound, complete⟩ := extractEntries_of_chunks chunks [] 0 .empty chunk
    refine ⟨extracted, ?_, fun chunkHash data => ⟨fun located => ?_, fun member => ?_⟩⟩
    · rw [recoverPackChunks, bind_eq_ok_iff]
      refine ⟨_, (retrievePackShards_eq_ok_iff cluster named hashes).mpr
        ⟨addresses, counts ▸ enough, rfl⟩, ?_⟩
      rw [bind_eq_ok_iff]
      exact ⟨packPayload chunks,
        describing_eq_ok_iff.mpr ((decode_firstShards_eq_ok_iff (counts ▸ enough)).mpr
        ⟨belong, distinct, decodes, rfl⟩), describing_eq_ok_iff.mpr ran⟩
    · rcases sound chunkHash data located with member | absent
      · exact member
      · cases absent
    · obtain ⟨other, located⟩ :=
        Option.isSome_iff_exists.mp (complete chunkHash (.inl ⟨data, member⟩))
      rcases sound chunkHash other located with listed | absent
      · have same := (chunk _ listed).1.symm.trans (chunk _ member).1
        rw [located, free other data (.inl ⟨chunkHash, listed⟩) (.inl ⟨chunkHash, member⟩) same]
      · cases absent

end Recovery

end Packs

namespace TwoShards

theorem positive : 0 < 2 := by decide

theorem bounded : 2 + 0 ≤ 256 := by decide

def spec : ErasureSpec where
  dataShards := 2
  parityShards := 0
  positive := positive
  bounded := bounded

/-- The shards of this payload are its two chunks. -/
def chunks : List (Text × Bytes) := [Striping.named [1, 2], Striping.named [3, 1]]

def packHash : Text := blake3HexDigest Striping.blake3 [1, 2, 3, 1]

def placements : List ShardPlacement := [
  { packHash, shardIndex := 0, nodeId := "n0".toList, address := "a0".toList },
  { packHash, shardIndex := 1, nodeId := "n1".toList, address := "a1".toList }]

def packRow : ErasureDataPackRow where
  codec := "zfec".toList
  dataShards := 2
  parityShards := 0
  payloadSize := 4
  paddedSize := 4
  shardSize := 2
  protectionState := .pending
  placementEpoch := none
  createdAt := ⟨0⟩
  lastPushAt := none
  lastVerifyAt := none
  lastError := none

def db : MetadataDB :=
  { MetadataDB.empty with
    erasureDataPacks := .ofList [(packHash, packRow)]
    erasurePackChunks :=
      .ofList ((chunkRows chunks).map fun entry => (entry.chunkHash, entry.row packHash))
    erasurePackShards :=
      .ofList ((shardRows Striping.blake3 Striping.zfec spec chunks placements).map fun entry =>
      ((packHash, entry.shardIndex), entry.row .pending none)) }

theorem holds : HoldsPack db Striping.blake3 Striping.zfec spec chunks where
  pack := ⟨packRow, by decide +kernel, by decide⟩
  chunkEntries := by decide +kernel
  shardEntries := by decide +kernel

theorem nodes_distinct (first second : Text) :
    ([⟨"n0".toList, first⟩, ⟨"n1".toList, second⟩].map ClusterMember.nodeId).Nodup := by
  simp only [List.map_cons, List.map_nil]
  decide

/-- The two nodes, at these addresses. -/
def view (first second : Text) : ClusterView where
  selfNodeId := none
  members := [⟨"n0".toList, first⟩, ⟨"n1".toList, second⟩]
  distinct := nodes_distinct first second

/-- The recorded bytes of every shard that is asked for, and whatever comes with them. -/
def answering (unsolicited : List ShardRetrieveMessage) : ShardAnswer := fun refs =>
  .ok (refs.map (fun ref => {
    ref := { packHash := ref.packHash, shardIndex := UInt32.ofNat ref.shardIndex,
             shardHash := ref.shardHash }
    status := .found
    shardData := if ref.shardIndex = 0 then [1, 2] else [3, 1]
    detail := "" }) ++ unsolicited)

/-- A shard of another pack. -/
def stranger : ShardRetrieveMessage where
  ref := { packHash := List.replicate 64 '0', shardIndex := 0,
           shardHash := blake3HexDigest Striping.blake3 [1] }
  status := .found
  shardData := [1]
  detail := ""

def context (view : ClusterView) (unsolicited : List ShardRetrieveMessage) : ErasureContext where
  blake3 := Striping.blake3
  zfec := Striping.zfec
  cluster := .ok view
  answers _ := answering unsolicited
  calls := .inOrder _
  packs := .inOrder _

def job : ErasurePackRecoveryJob where
  packHash := packHash
  manifest := (packOf Striping.blake3 Striping.zfec chunks spec).manifest
  shardRows := db.getErasurePackShards packHash
  wantedHashes := chunks.map Prod.fst

theorem chunk : ∀ chunk ∈ chunks, IsChunk Striping.blake3 chunk := by
  simp [chunks, Striping.named, IsChunk]

theorem built : buildRecoveryJob db packHash (chunks.map Prod.fst) = .ok job :=
  buildRecoveryJob_of_holds holds (Striping.mds 2) (by decide) chunk _

theorem notRecovered_of_error {context : ErasureContext}
    (failed : (recoverPackChunks context job).isOk = false) :
    ¬ RecoversChunks context job chunks := by
  rintro ⟨recovered, succeeded, -⟩
  rw [succeeded] at failed
  cases failed

end TwoShards

/-- Both shards of the pack come back, but the nodes share an address, or one of them adds a shard
of another pack: nothing is recovered. -/
theorem goodShards_notRecovered :
    (HoldsPack TwoShards.db Striping.blake3 Striping.zfec TwoShards.spec TwoShards.chunks ∧
      buildRecoveryJob TwoShards.db TwoShards.packHash (TwoShards.chunks.map Prod.fst) =
        .ok TwoShards.job) ∧
    (TwoShards.job.shardRows.all
      (comesBack (TwoShards.context (TwoShards.view "a".toList "a".toList) [])
        (TwoShards.view "a".toList "a".toList) TwoShards.packHash TwoShards.job.shardRows) = true ∧
      ¬ RecoversChunks (TwoShards.context (TwoShards.view "a".toList "a".toList)
        []) TwoShards.job TwoShards.chunks) ∧
    TwoShards.job.shardRows.all
      (comesBack (TwoShards.context (TwoShards.view "a0".toList "a1".toList) [TwoShards.stranger])
        (TwoShards.view "a0".toList "a1".toList) TwoShards.packHash TwoShards.job.shardRows) =
          true ∧
      ¬ RecoversChunks (TwoShards.context (TwoShards.view "a0".toList "a1".toList)
        [TwoShards.stranger]) TwoShards.job
        TwoShards.chunks :=
  ⟨⟨TwoShards.holds, TwoShards.built⟩,
    ⟨by decide +kernel, TwoShards.notRecovered_of_error (by decide +kernel)⟩,
    by decide +kernel, TwoShards.notRecovered_of_error (by decide +kernel)⟩

namespace LostShard

open TwoShards

/-- The same chunks with a parity shard. -/
def db : MetadataDB :=
  { MetadataDB.empty with
    erasureDataPacks := .ofList [(packHash, { packRow with parityShards := 1 })]
    erasurePackChunks :=
      .ofList ((chunkRows chunks).map fun entry => (entry.chunkHash, entry.row packHash))
    erasurePackShards :=
      .ofList ((shardRows Striping.blake3 Parity.zfec Parity.spec chunks (placements ++
      [{ packHash, shardIndex := 2, nodeId := "n2".toList, address := "a2".toList }])).map
        fun entry =>
        ((packHash, entry.shardIndex), entry.row .pending none)) }

theorem holds : HoldsPack db Striping.blake3 Parity.zfec Parity.spec chunks where
  pack := ⟨{ packRow with parityShards := 1 }, by decide +kernel, by decide⟩
  chunkEntries := by decide +kernel
  shardEntries := by decide +kernel

def view : ClusterView where
  selfNodeId := none
  members := [⟨"n0".toList, "a0".toList⟩, ⟨"n1".toList, "a1".toList⟩, ⟨"n2".toList, "a2".toList⟩]
  distinct := by
    simp only [List.map_cons, List.map_nil]
    decide

/-- A shard of another pack, with an index above those of this one. -/
def stranger : ShardRetrieveMessage :=
  { TwoShards.stranger with ref := { TwoShards.stranger.ref with shardIndex := 3 } }

/-- What the nodes send for a ref: the first one has lost its shard and sends other bytes. -/
def context : ErasureContext where
  blake3 := Striping.blake3
  zfec := Parity.zfec
  cluster := .ok view
  answers _ refs := .ok (refs.map (fun ref => {
    ref := { packHash := ref.packHash, shardIndex := UInt32.ofNat ref.shardIndex,
             shardHash := ref.shardHash }
    status := .found
    shardData := if ref.shardIndex = 1 then [3, 1] else [2, 3]
    detail := "" }) ++ [stranger])
  calls := ⟨List.reverse, fun tasks => tasks.reverse_perm⟩
  packs := .inOrder _

def job : ErasurePackRecoveryJob where
  packHash := packHash
  manifest := (packOf Striping.blake3 Parity.zfec chunks Parity.spec).manifest
  shardRows := db.getErasurePackShards packHash
  wantedHashes := chunks.map Prod.fst

theorem built : buildRecoveryJob db packHash (chunks.map Prod.fst) = .ok job :=
  buildRecoveryJob_of_holds holds Parity.strict.toMds (by decide) chunk _

def decoded : Bytes :=
  decodedPayload Parity.zfec Parity.spec (packPayload chunks).length
    (firstShards (recoveredShards context view job.packHash job.shardRows) Parity.spec.dataShards)

/-- Enough shards come back, the first ones decode to the payload, and the bytes of the pack have
hashes of their own. -/
theorem answered : Parity.spec.dataShards ≤
      job.shardRows.countP (comesBack context view job.packHash job.shardRows) ∧
    decoded = [1, 2, 3, 1] ∧
    ∀ left ∈ [[1, 2], [3, 1], [1, 2, 3, 1]], ∀ right ∈ [[1, 2], [3, 1], [1, 2, 3, 1]],
      blake3HexDigest Striping.blake3 left = blake3HexDigest Striping.blake3 right →
        left = right := by
  decide +kernel

theorem collisionFree :
    CollisionFree Striping.blake3 fun data => (∃ chunkHash, (chunkHash, data) ∈ chunks) ∨
    data = packPayload chunks ∨ data = decoded := by
  obtain ⟨-, decoded_eq, distinct⟩ := answered
  rw [decoded_eq]
  have contents : ∀ data, ((∃ chunkHash, (chunkHash, data) ∈ chunks) ∨ data = packPayload chunks ∨
      data = [1, 2, 3, 1]) → data ∈ [[1, 2], [3, 1], [1, 2, 3, 1]] := by
    rintro data (⟨chunkHash, member⟩ | rfl | rfl)
    · simp only [chunks, Striping.named, List.mem_cons, Prod.mk.injEq,
        List.not_mem_nil, or_false] at member
      rcases member with ⟨-, rfl⟩ | ⟨-, rfl⟩ <;> decide
    · decide
    · decide
  exact fun left right leftKnown rightKnown => distinct left (contents left leftKnown) right
    (contents right rightKnown)

theorem recoverable :
    Recoverable context view Parity.spec job.packHash (packPayload chunks) job.shardRows where
  addresses := by decide +kernel
  enough := by decide +kernel
  leading := ⟨[[1, 2], [3, 1]], ⟨rfl, ⟨2, by decide⟩, by decide⟩,
    leadingItems_iff.mpr ⟨by decide +kernel, by decide +kernel⟩⟩

end LostShard

/-- One node has lost its shard, and all of them send a shard of another pack besides. -/
theorem lostShard_recovered : RecoversChunks LostShard.context LostShard.job TwoShards.chunks :=
  (@recoverPackChunks_iff LostShard.db Parity.spec TwoShards.chunks LostShard.view LostShard.context
    (TwoShards.chunks.map Prod.fst) LostShard.job Parity.strict
      (by decide) TwoShards.chunk LostShard.holds LostShard.built
    rfl LostShard.collisionFree LostShard.answered.1).mpr LostShard.recoverable

end Stopan.Restore
