import Stopan.Erasure.RetryEvidence
import Stopan.Erasure.VerifyEvidence
import Stopan.Metadata.Links

namespace Stopan.Erasure

open Stopan.Lib Stopan.Common Stopan.Metadata Stopan.Protection Stopan.Restore
  Stopan.Objects.Exchange

theorem requireHash64_valid {name : String} {value hash : Text}
    (checked : Common.requireHash64 name value = .ok hash) :
    isValidBlake3Hex hash = true := by
  unfold Common.requireHash64 at checked
  split at checked
  · rename_i valid
    cases checked
    exact valid
  · cases checked

theorem requireErasureRows_hashes {args : ErasurePackArgs} {definition : ErasureDefinition}
    {chunks : List ErasureChunkEntry} {shards : List ErasureShardEntry}
    (checked : requireErasureRows args definition = .ok (chunks, shards)) :
    ∀ entry ∈ shards, isValidBlake3Hex entry.shardHash = true := by
  intro entry member
  rw [requireErasureRows, ensure_bind_eq_ok_iff, ensure_bind_eq_ok_iff] at checked
  obtain ⟨-, -, checked⟩ := checked
  obtain ⟨chunkRows, -, checked⟩ := bind_eq_ok_iff.mp checked
  obtain ⟨shardRows, normalized, built⟩ := bind_eq_ok_iff.mp checked
  cases pure_eq_ok_iff.mp built
  obtain ⟨shard, -, accepted⟩ := mem_normalizeErasureShardRows normalized member
  simp only [requireErasureShard, bind_eq_ok_iff, pure_eq_ok_iff] at accepted
  obtain ⟨shardIndex, -, shardHash, hash, nodeId, -, size, -, rfl⟩ := accepted
  exact requireHash64_valid hash

theorem importedHash_valid {name : String} {value : PyJson} {hash : Text}
    (checked : Objects.Exchange.requireHash64 name value = .ok hash) :
    isValidBlake3Hex hash = true := by
  simp only [Objects.Exchange.requireHash64, bind_eq_ok_iff, ensure_eq_ok_iff,
    pure_eq_ok_iff] at checked
  obtain ⟨text, -, -, valid, rfl⟩ := checked
  exact valid

/-- Pack hashes and shard hashes are well formed, and shard indexes are integers that SQLite has
bound. -/
structure PacksNamed (db : MetadataDB) : Prop where
  packs : ∀ hash ∈ db.erasureDataPacks.keys, isValidBlake3Hex hash = true
  shards : ∀ key row, db.erasurePackShards.get? key = some row →
    isValidBlake3Hex row.shardHash = true ∧ key.2 < 2 ^ 63

/-- The statements store no shard with a hash of their own, other than well-formed ones. -/
def ShardsKept (db after : MetadataDB) : Prop :=
  ∀ key row, after.erasurePackShards.get? key = some row →
    (∃ old, db.erasurePackShards.get? key = some old ∧ old.shardHash = row.shardHash) ∨
      isValidBlake3Hex row.shardHash = true ∧ key.2 < 2 ^ 63

section Statements

variable {db after : MetadataDB} {packHash : Text}

theorem shardsKept_of_eq (same : after.erasurePackShards = db.erasurePackShards) :
    ShardsKept db after := by
  intro key row found
  rw [same] at found
  exact .inl ⟨row, found, rfl⟩

theorem ShardsKept.refl (db : MetadataDB) : ShardsKept db db := shardsKept_of_eq rfl

theorem ShardsKept.trans {middle : MetadataDB} (first : ShardsKept db middle)
    (second : ShardsKept middle after) :
    ShardsKept db after := by
  intro key row found
  rcases second key row found with ⟨old, stored, same⟩ | valid
  · rw [← same]
    exact first key old stored
  · exact .inr valid

theorem shardsKept_foldlM {α : Type} {step : MetadataDB → α → Except StopanError MetadataDB}
    {items : List α}
    (single : ∀ state, ∀ item ∈ items, ∀ next, step state item = .ok next → ShardsKept state next)
    (ran : items.foldlM step db = .ok after) : ShardsKept db after :=
  foldlM_invariant (ShardsKept db) (fun state item member next reached stepped =>
    reached.trans (single state item member next stepped)) (.refl db) ran

/-- Rows that are rewritten in place keep their hashes. -/
theorem shardsKept_mapValues {change : Text × Nat → ErasurePackShardRow → ErasurePackShardRow}
    {packs : Dict Text ErasureDataPackRow}
    (hash : ∀ key row, (change key row).shardHash = row.shardHash) :
    ShardsKept db { db with
      erasureDataPacks := packs
      erasurePackShards := db.erasurePackShards.mapValues change } := by
  intro key row found
  rw [Dict.get?_mapValues] at found
  obtain ⟨old, stored, rfl⟩ := Option.map_eq_some_iff.mp found
  exact .inl ⟨old, stored, (hash key old).symm⟩

theorem shardsKept_set {shardIndex : Nat} {row : ErasurePackShardRow}
    (valid : isValidBlake3Hex row.shardHash = true) (bound : shardIndex < 2 ^ 63) :
    ShardsKept db
      { db with erasurePackShards := db.erasurePackShards.set (packHash, shardIndex) row } := by
  intro key other found
  rw [Dict.get?_set] at found
  split at found
  · rename_i same
    cases found
    exact .inr ⟨valid, same ▸ bound⟩
  · exact .inl ⟨other, found, rfl⟩

theorem shardsKept_insert {shardIndex : Nat} {row : ErasurePackShardRow}
    (valid : isValidBlake3Hex row.shardHash = true)
    (inserted : db.insertErasurePackShard packHash shardIndex row = .ok after) :
    ShardsKept db after := by
  simp only [MetadataDB.insertErasurePackShard, bind_eq_ok_iff, ensure_eq_ok_iff,
    pure_eq_ok_iff] at inserted
  obtain ⟨_, bound, -, -, -, -, -, -, rfl⟩ := inserted
  exact shardsKept_set valid (bindNat_ok bound)

theorem shardsKept_insertPack {pack : ErasureDataPackRow}
    (inserted : db.insertErasureDataPack packHash pack = .ok after) :
    ShardsKept db after := by
  obtain ⟨-, rfl⟩ := insertErasureDataPack_ok inserted
  exact shardsKept_of_eq rfl

theorem shardsKept_insertChunk {entry : ErasureChunkEntry}
    (inserted : db.insertErasurePackChunk packHash entry = .ok after) : ShardsKept db after := by
  rw [(insertErasurePackChunk_added inserted).rest]
  exact shardsKept_of_eq rfl

theorem shardsKept_insertOnce {protectionState : ProtectionState} {lastPushAt : Option PyFloat}
    {entry : ErasureShardEntry} (valid : isValidBlake3Hex entry.shardHash = true)
    (inserted : MetadataDB.insertErasurePackShardOnce packHash protectionState lastPushAt db entry =
      .ok after) :
    ShardsKept db after := by
  rw [MetadataDB.insertErasurePackShardOnce] at inserted
  obtain ⟨-, -, inserted⟩ := bind_eq_ok_iff.mp inserted
  split at inserted
  · split at inserted
    · cases inserted
    · cases inserted
      exact .refl db
  · exact shardsKept_insert valid inserted

theorem shardsKept_upsert {protectionState : ProtectionState} {lastPushAt : PyFloat}
    {entry : ErasureShardEntry} (valid : isValidBlake3Hex entry.shardHash = true)
    (upserted : MetadataDB.upsertErasurePackShard packHash protectionState lastPushAt db entry =
      .ok after) :
    ShardsKept db after := by
  rw [MetadataDB.upsertErasurePackShard] at upserted
  obtain ⟨_, bound, upserted⟩ := bind_eq_ok_iff.mp upserted
  split at upserted
  · simp only [bind_eq_ok_iff, pure_eq_ok_iff] at upserted
    obtain ⟨-, -, rfl⟩ := upserted
    exact shardsKept_set valid (bindNat_ok bound)
  · exact shardsKept_insert valid upserted

theorem shardsKept_register {args : ErasurePackArgs} {protectionState : ProtectionState}
    {placementEpoch : Option Text} {now : PyFloat}
    (registered : db.registerErasureDataPack args protectionState placementEpoch now = .ok after) :
    ShardsKept db after := by
  rw [MetadataDB.registerErasureDataPack] at registered
  obtain ⟨⟨packHash, definition⟩, -, registered⟩ := bind_eq_ok_iff.mp registered
  obtain ⟨⟨chunks, shards⟩, rows, registered⟩ := bind_eq_ok_iff.mp registered
  obtain ⟨middle, packed, registered⟩ := bind_eq_ok_iff.mp registered
  obtain ⟨last, chunked, sharded⟩ := bind_eq_ok_iff.mp registered
  have first : ShardsKept db middle := by
    unfold MetadataDB.insertErasureDataPackOnce at packed
    split at packed
    · split at packed
      · cases packed
      · cases packed
        exact .refl db
    · obtain ⟨created, -, written⟩ := bind_eq_ok_iff.mp packed
      exact shardsKept_insertPack written
  have second : ShardsKept middle last := by
    refine shardsKept_foldlM ?_ chunked
    intro state entry _ next inserted
    rw [(insertErasurePackChunkOnce_added inserted).rest]
    exact shardsKept_of_eq rfl
  have third : ShardsKept last after :=
    shardsKept_foldlM (fun _ entry member _ => shardsKept_insertOnce
      (requireErasureRows_hashes rows entry member)) sharded
  exact (first.trans second).trans third

theorem shardsKept_pushUpdate {update : ErasureDataPackPushUpdate}
    (applied : db.applyErasureDataPackPushUpdate update = .ok after) : ShardsKept db after := by
  rw [MetadataDB.applyErasureDataPackPushUpdate] at applied
  obtain ⟨⟨packHash, definition⟩, -, applied⟩ := bind_eq_ok_iff.mp applied
  obtain ⟨-, applied⟩ := ensure_bind_eq_ok_iff.mp applied
  obtain ⟨⟨chunks, shards⟩, rows, applied⟩ := bind_eq_ok_iff.mp applied
  dsimp only at applied
  split at applied
  · cases applied
  · obtain ⟨-, applied⟩ := ensure_bind_eq_ok_iff.mp applied
    obtain ⟨-, applied⟩ := ensure_bind_eq_ok_iff.mp applied
    rw [MetadataDB.upsertErasurePackShardsForPush] at applied
    obtain ⟨middle, upserted, applied⟩ := bind_eq_ok_iff.mp applied
    have written : ShardsKept db middle := fun key row =>
      (shardsKept_foldlM
        (fun _ entry member _ => shardsKept_upsert (requireErasureRows_hashes rows entry member))
        upserted) key row
    split at applied
    · cases pure_eq_ok_iff.mp applied
      exact written
    · cases pure_eq_ok_iff.mp applied
      intro key row found
      exact written key row ((Dict.get?_filter_eq_some_iff _).mp found).1

theorem shardsKept_pushError {update : ErasureDataPackPushErrorUpdate}
    (applied : db.applyErasureDataPackPushError update = .ok after) : ShardsKept db after := by
  rw [MetadataDB.applyErasureDataPackPushError] at applied
  obtain ⟨packHash, -, applied⟩ := bind_eq_ok_iff.mp applied
  obtain ⟨error, -, applied⟩ := bind_eq_ok_iff.mp applied
  split at applied
  · cases applied
  · cases pure_eq_ok_iff.mp applied
    exact shardsKept_of_eq rfl

theorem shardsKept_pushResults {pushUpdates : List ErasureDataPackPushUpdate}
    {errorUpdates : List ErasureDataPackPushErrorUpdate}
    (applied : db.applyErasureDataPackPushResultBatch pushUpdates errorUpdates = .ok after) :
    ShardsKept db after := by
  rw [MetadataDB.applyErasureDataPackPushResultBatch] at applied
  obtain ⟨middle, pushed, failed⟩ := bind_eq_ok_iff.mp applied
  exact (shardsKept_foldlM (fun _ _ _ _ => shardsKept_pushUpdate) pushed).trans
    (shardsKept_foldlM (fun _ _ _ _ => shardsKept_pushError) failed)

theorem shardsKept_verification {verifiedAt : PyFloat} {update : ErasureDataPackVerificationUpdate}
    (applied : MetadataDB.applyErasureDataPackVerificationUpdate verifiedAt db update = .ok after) :
    ShardsKept db after := by
  rw [MetadataDB.applyErasureDataPackVerificationUpdate] at applied
  obtain ⟨packHash, -, applied⟩ := bind_eq_ok_iff.mp applied
  obtain ⟨-, applied⟩ := ensure_bind_eq_ok_iff.mp applied
  obtain ⟨indexes, -, applied⟩ := bind_eq_ok_iff.mp applied
  split at applied
  · cases applied
  · obtain ⟨-, -, applied⟩ := bind_eq_ok_iff.mp applied
    cases pure_eq_ok_iff.mp applied
    apply shardsKept_mapValues
    intro key row
    rw [MetadataDB.verifiedShardRow]
    split
    · split <;> rfl
    · rfl

theorem shardsKept_markState {packHash : Text} {protectionState : ProtectionState}
    {placementEpoch error : Option Text} {now : PyFloat}
    (marked : db.markErasureDataPackState packHash protectionState placementEpoch error now =
      .ok after) :
    ShardsKept db after := by
  rw [MetadataDB.markErasureDataPackState] at marked
  obtain ⟨hash, -, marked⟩ := bind_eq_ok_iff.mp marked
  cases pure_eq_ok_iff.mp marked
  apply shardsKept_mapValues
  intro key row
  split <;> rfl

theorem shardsKept_import {record : ErasureDataPackImportRows}
    (valid : ∀ shard ∈ record.shards, isValidBlake3Hex shard.2.shardHash = true)
    (inserted : db.objectImportInsertErasureDataPackRecord record = .ok after) :
    ShardsKept db after := by
  rw [MetadataDB.objectImportInsertErasureDataPackRecord] at inserted
  obtain ⟨middle, packed, inserted⟩ := bind_eq_ok_iff.mp inserted
  obtain ⟨last, chunked, sharded⟩ := bind_eq_ok_iff.mp inserted
  exact ((shardsKept_insertPack packed).trans
    (shardsKept_foldlM (fun _ _ _ _ => shardsKept_insertChunk) chunked)).trans
    (shardsKept_foldlM (fun _ shard member _ => shardsKept_insert (valid shard member)) sharded)

end Statements

/-- An imported record with well-formed hashes. -/
def RecordNamed (rows : ErasureDataPackImportRows) : Prop :=
  isValidBlake3Hex rows.packHash = true ∧
    ∀ shard ∈ rows.shards, isValidBlake3Hex shard.2.shardHash = true

theorem erasureShardRows_named {record : Objects.Fields} {rows : List (Nat × ErasurePackShardRow)}
    (read : erasureShardRows record = .ok rows) :
    ∀ shard ∈ rows, isValidBlake3Hex shard.2.shardHash = true := by
  simp only [erasureShardRows, bind_eq_ok_iff, ensure_eq_ok_iff, pure_eq_ok_iff] at read
  obtain ⟨rawShards, -, dataShards, -, parityShards, -, built, folded, -, -, rfl⟩ := read
  refine foldlM_invariant (fun rows : List (Nat × ErasurePackShardRow) =>
    ∀ shard ∈ rows, isValidBlake3Hex shard.2.shardHash = true) ?_ (by simp) folded
  intro rows item _ next named read
  simp only [erasureShardRow, bind_eq_ok_iff, ensure_eq_ok_iff, pure_eq_ok_iff] at read
  obtain ⟨fields, -, shardIndex, -, shardHash, hash, nodeId, -, size, -, protectionState, -,
    lastPushAt, -, lastVerifyAt, -, lastError, -, -, -, rfl⟩ := read
  intro shard member
  rcases List.mem_append.mp member with earlier | last
  · exact named shard earlier
  · rw [List.mem_singleton.mp last]
    exact importedHash_valid hash

theorem erasureDataPackImportRows_named {chunkSizes : Dict Text Nat}
    {record : Objects.Fields} {packHash : Text} {seen seenAfter : List Text}
    {rows : ErasureDataPackImportRows} (valid : isValidBlake3Hex packHash = true)
    (read : erasureDataPackImportRows chunkSizes record packHash seen = .ok (rows, seenAfter)) :
    RecordNamed rows := by
  simp only [erasureDataPackImportRows, bind_eq_ok_iff, ensure_eq_ok_iff, pure_eq_ok_iff,
    Prod.exists] at read
  obtain ⟨codec, -, dataShards, -, parityShards, -, payloadSize, -, paddedSize, -,
    shardSize, -, -, -, -, -,
    protectionState, -, placementEpoch, -, createdAt, -, lastPushAt, -, lastVerifyAt, -,
    lastError, -, chunks, seenChunks, -, shards, shardRows, same⟩ := read
  cases same
  exact ⟨valid, erasureShardRows_named shardRows⟩

theorem loadErasureDataPackRows_named {reader : Payloads} {catalog : Objects.Fields}
    {chunkSizes : Dict Text Nat} {records : List ErasureDataPackImportRows}
    (loaded : loadErasureDataPackRows reader catalog chunkSizes = .ok records) :
    ∀ rows ∈ records, RecordNamed rows := by
  have one : ∀ hexPrefix (state : ImportState) (record : PyJson) next,
      (∀ rows ∈ state.out, RecordNamed rows) →
      loadErasureDataPackRecord chunkSizes hexPrefix state record = .ok next →
        ∀ rows ∈ next.out, RecordNamed rows := by
    intro hexPrefix state record next named read
    simp only [loadErasureDataPackRecord, bind_eq_ok_iff, ensure_eq_ok_iff, pure_eq_ok_iff,
      Prod.exists] at read
    obtain ⟨fields, -, packHash, hash, -, -, -, -, rows, seenChunks, converted, rfl⟩ := read
    intro listed member
    rcases List.mem_append.mp member with earlier | last
    · exact named listed earlier
    · rw [List.mem_singleton.mp last]
      exact erasureDataPackImportRows_named (importedHash_valid hash) converted
  have shard : ∀ (state : ImportState) (shardRef : PyJson) next,
      (∀ rows ∈ state.out, RecordNamed rows) →
      loadErasureDataPackShard reader chunkSizes state shardRef = .ok next →
        ∀ rows ∈ next.out, RecordNamed rows := by
    intro state shardRef next named read
    simp only [loadErasureDataPackShard, bind_eq_ok_iff] at read
    obtain ⟨-, -, hexPrefix, -, -, -, -, -, -, -, items, -, folded⟩ := read
    exact foldlM_invariant (fun state : ImportState => ∀ rows ∈ state.out, RecordNamed rows)
      (fun state item _ next => one hexPrefix state item next) named folded
  rw [loadErasureDataPackRows, bind_eq_ok_iff] at loaded
  obtain ⟨indexHash, -, loaded⟩ := loaded
  cases indexHash with
  | none =>
      cases pure_eq_ok_iff.mp loaded
      simp
  | some indexHash =>
      simp only [bind_eq_ok_iff, pure_eq_ok_iff] at loaded
      obtain ⟨-, -, shards, -, state, folded, -, -, rfl⟩ := loaded
      exact foldlM_invariant (fun state : ImportState => ∀ rows ∈ state.out, RecordNamed rows)
        (fun state item _ next => shard state item next) (by simp) folded

theorem PacksNamed.step {db after : MetadataDB} (named : PacksNamed db)
    (changed : MetadataDB.PacksChanged db after)
    (kept : ShardsKept db after) : PacksNamed after where
  packs := by
    intro hash member
    rcases changed.names hash member with older | valid
    · exact named.packs hash older
    · exact valid
  shards := by
    intro key row found
    rcases kept key row found with ⟨old, stored, same⟩ | valid
    · rw [← same]
      exact named.shards key old stored
    · exact valid

theorem importLatest_named {db next : MetadataDB} {reader : Payloads} {catalog : Objects.Fields}
    {tables : MetadataDB} {includeProtection : Bool} (named : PacksNamed db)
    (imported : importLatest db reader catalog tables includeProtection = .ok next) :
    PacksNamed next := by
  rw [importLatest] at imported
  obtain ⟨records, loaded, imported⟩ := bind_eq_ok_iff.mp imported
  obtain ⟨-, -, imported⟩ := bind_eq_ok_iff.mp imported
  have valid := loadErasureDataPackRows_named loaded
  have start : PacksNamed (withTablesOf db tables) := ⟨named.packs, named.shards⟩
  split at imported
  · refine foldlM_invariant PacksNamed ?_ start imported
    intro rebuilt record member after held inserted
    exact held.step (MetadataDB.packsChanged_import (valid record member).1 inserted)
      (shardsKept_import (valid record member).2 inserted)
  · cases pure_eq_ok_iff.mp imported
    exact start

theorem catalogStep_named {db : MetadataDB} (event : CatalogEvent) (named : PacksNamed db) :
    PacksNamed (catalogStep db event) := by
  unfold catalogStep
  cases performed : performCatalogEvent db event with
  | error reason => exact named
  | ok next =>
      cases event with
      | register args protectionState placementEpoch now =>
          exact named.step (MetadataDB.packsChanged_register performed)
            (shardsKept_register performed)
      | pushResults pushUpdates errorUpdates =>
          exact named.step (MetadataDB.packsChanged_pushResults performed)
            (shardsKept_pushResults performed)
      | verifications updates now =>
          exact named.step (MetadataDB.packsChanged_foldlM
            (fun _ _ _ _ => MetadataDB.packsChanged_verification) performed)
            (shardsKept_foldlM (fun _ _ _ _ => shardsKept_verification) performed)
      | markState packHash protectionState placementEpoch error now =>
          exact named.step (MetadataDB.packsChanged_markState performed)
            (shardsKept_markState performed)
      | importLatest reader catalog tables includeProtection =>
          exact importLatest_named named performed
      | elsewhere tables =>
          cases performed
          exact ⟨named.packs, named.shards⟩

theorem packsNamed_reached (events : List CatalogEvent) :
    PacksNamed (events.foldl catalogStep .empty) := by
  suffices general : ∀ db, PacksNamed db → PacksNamed (events.foldl catalogStep db) by
    refine general .empty ⟨?_, ?_⟩
    · intro hash member
      cases member
    · intro key row found
      cases found
  induction events with
  | nil => exact fun _ named => named
  | cons event rest ih => exact fun db named => ih _ (catalogStep_named event named)

section Returns

variable {db : MetadataDB} {now : PyFloat} {nodeAddresses : Dict Text Text}
  {candidates : List ErasureDataPackRecord}
  {plan : PackVerificationPlan} {probeBatchHashes : Nat} {answers : Text → ShardProbeAnswers}
  {order : List Text}

theorem candidate_valid (named : PacksNamed db)
    (stored : ∀ pack ∈ candidates, db.getErasureDataPack pack.1 = some pack.2) :
    ∀ pack ∈ candidates, isValidBlake3Hex pack.1 = true := fun pack member =>
  named.packs pack.1 ((Dict.mem_keys_iff ..).mpr ⟨pack.2, stored pack member⟩)

theorem shardEntry_named (named : PacksNamed db) {packHash : Text} {row : ErasureShardEntry}
    (member : row ∈ db.getErasurePackShards packHash) :
    isValidBlake3Hex row.shardHash = true ∧ row.shardIndex < 2 ^ 63 := by
  obtain ⟨stored, found, same⟩ := mem_getErasurePackShards.mp member
  have valid := named.shards _ stored found
  rw [← same]
  exact ⟨valid.1, same ▸ valid.2⟩

theorem createShardRef_of_valid {packHash shardHash : Text} (shardIndex : Nat)
    (packValid : isValidBlake3Hex packHash = true)
    (shardValid : isValidBlake3Hex shardHash = true) :
    createShardRef packHash shardIndex shardHash = .ok { packHash, shardIndex, shardHash } := by
  rw [createShardRef, requireHash_of_valid packValid, requireHash_of_valid shardValid]
  rfl

theorem planPacks_returns (sound : db.ErasureSound) (named : PacksNamed db)
    (stored : ∀ pack ∈ candidates, db.getErasureDataPack pack.1 = some pack.2) :
    ∃ plan, planPacks db nodeAddresses candidates = .ok plan := by
  have valid := candidate_valid named stored
  obtain ⟨hashes, checked⟩ : ∃ hashes, uniqueHashes (candidates.map Prod.fst) = .ok hashes := by
    obtain ⟨hashes, mapped⟩ :=
      @exists_mapM_ok _ _ _ (Common.requireHash64 "hash") (candidates.map Prod.fst) (by
      intro hash member
      obtain ⟨pack, listed, rfl⟩ := List.mem_map.mp member
      exact ⟨pack.1, requireHash64_of_valid (valid pack listed)⟩)
    exact ⟨orderedUnique hashes, by rw [uniqueHashes, mapped]; rfl⟩
  rw [planPacks, checked]
  apply exists_foldlM_ok (fun _ => True) _ trivial
  intro state pack member _
  have grouped : ∃ groups, groupErasureShardRefsByAddress pack.1 nodeAddresses
      (db.getErasurePackShards pack.1) = .ok groups := by
    apply exists_foldlM_ok (fun _ => True) _ trivial
    intro groups row listed _
    rw [addShardTarget, createShardRef_of_valid row.shardIndex (valid pack member)
      (shardEntry_named named listed).1]
    cases nodeAddresses.get? row.nodeId with
    | none => exact ⟨_, rfl, trivial⟩
    | some address => exact ⟨_, rfl, trivial⟩
  obtain ⟨groups, grouped⟩ := grouped
  simp only [planPack, shardMetadata_complete sound (stored pack member), grouped]
  exact ⟨_, rfl, trivial⟩

theorem forM_bindNat_of_lt {numbers : List Nat} (small : ∀ number ∈ numbers, number < 2 ^ 63) :
    numbers.forM bindNat = .ok () := by
  induction numbers with
  | nil => rfl
  | cons number rest ih =>
      have first := bindNat_of_lt (small number (by simp))
      have others := ih fun other listed => small other (by simp [listed])
      rw [List.forM_eq_forM] at others ⊢
      rw [List.forM_cons, first]
      exact others

theorem applyErasureDataPackVerifications_returns {updates : List ErasureDataPackVerificationUpdate}
    (each : ∀ update ∈ updates, isValidBlake3Hex update.packHash = true ∧
      [ProtectionState.verified, .degraded, .failed].contains update.protectionState = true ∧
      (∀ index ∈ update.verifiedShardIndexes, 0 ≤ index ∧ index < 2 ^ 63) ∧
      (db.getErasureDataPack update.packHash).isSome = true) :
    ∃ after, db.applyErasureDataPackVerifications updates now = .ok after := by
  apply exists_foldlM_ok (fun state : MetadataDB => ∀ update ∈ updates,
    (state.getErasureDataPack update.packHash).isSome = true) _ fun update member =>
      (each update member).2.2.2
  intro state update member present
  obtain ⟨valid, allowed, indexes, -⟩ := each update member
  obtain ⟨existing, stored⟩ := Option.isSome_iff_exists.mp (present update member)
  obtain ⟨numbers, mapped⟩ := @exists_mapM_ok _ _ _ (requireNonNegativeInt "verified_shard_index")
    update.verifiedShardIndexes (by
      intro index inside
      refine ⟨index.toNat, ?_⟩
      rw [requireNonNegativeInt, if_neg (not_lt.mpr (indexes index inside).1)])
  have bound : numbers.forM bindNat = .ok () := by
    have small : ∀ number ∈ numbers, number < 2 ^ 63 := by
      intro number listed
      obtain ⟨index, inside, same⟩ := forall₂_mem_right (mapM_eq_ok_iff.mp mapped) listed
      have limits := indexes index inside
      rw [requireNonNegativeInt, if_neg (not_lt.mpr limits.1)] at same
      cases same
      omega
    exact forM_bindNat_of_lt small
  have applied : ∃ packs shards,
      MetadataDB.applyErasureDataPackVerificationUpdate now state update =
      .ok { state with erasureDataPacks := state.erasureDataPacks.set update.packHash packs,
                       erasurePackShards := shards } := by
    rw [MetadataDB.applyErasureDataPackVerificationUpdate, requireHash64_of_valid valid, mapped]
    simp only [ensure, allowed, if_true, stored, bound, bind, Except.bind, pure, Except.pure]
    exact ⟨_, _, rfl⟩
  obtain ⟨packs, shards, applied⟩ := applied
  refine ⟨_, applied, ?_⟩
  intro other listed
  rw [MetadataDB.getErasureDataPack, Dict.get?_set]
  split
  · rfl
  · exact present other listed

theorem outcome_allowed (accumulator : PackVerificationAccumulator) :
    [ProtectionState.verified, .degraded, .failed].contains accumulator.outcome.protectionState =
      true := by
  unfold PackVerificationAccumulator.outcome
  dsimp only
  split
  · rfl
  · split
    · rfl
    · rename_i few
      simp only [dataPackState, protectionStateFromThresholds, if_neg few]
      split <;> rfl

theorem packUpdate_indexes {pack : ErasureDataPackRecord}
    {accumulator : PackVerificationAccumulator} {index : Int}
    (member : index ∈ (packUpdate pack accumulator.outcome).verifiedShardIndexes) :
    ∃ number ∈ accumulator.verifiedShardIndexes, index = number := by
  obtain ⟨number, listed, same⟩ := List.mem_map.mp member
  rw [Finset.mem_sort] at listed
  refine ⟨number, ?_, same.symm⟩
  unfold PackVerificationAccumulator.outcome at listed
  dsimp only at listed
  split at listed
  · exact listed
  · split at listed <;> exact listed

/-- A verification of recorded packs records its verdicts, whatever the answers. -/
theorem verifyPacks_returns (sound : db.ErasureSound) (named : PacksNamed db)
    (distinct : (candidates.map Prod.fst).Nodup)
    (stored : ∀ pack ∈ candidates, db.getErasureDataPack pack.1 = some pack.2)
    (planned : planPacks db nodeAddresses candidates = .ok plan)
    (completed : order.Perm plan.refsByAddress.keys) :
    ∃ after, verifyPacks db nodeAddresses candidates probeBatchHashes answers order now =
      .ok after := by
  have valid := candidate_valid named stored
  obtain ⟨updates, written, -, listed⟩ :=
    @verifyPacks_eq db now nodeAddresses candidates plan probeBatchHashes
    answers order sound valid distinct stored planned completed
  rw [written]
  apply applyErasureDataPackVerifications_returns
  intro update member
  obtain ⟨pack, present, accumulator, found, rfl⟩ := (listed update).mp member
  obtain ⟨other, again, -, -, indexes⟩ :=
    @finalAccumulators_get? db nodeAddresses candidates plan probeBatchHashes
    answers order pack sound valid distinct stored planned completed present
  rw [found, Option.some.injEq] at again
  subst again
  refine ⟨valid pack present, outcome_allowed accumulator, ?_,
    by rw [packUpdate, stored pack present]; rfl⟩
  intro index inside
  obtain ⟨number, verified, rfl⟩ := packUpdate_indexes inside
  obtain ⟨row, recorded, rfl, -⟩ := (indexes number).mp verified
  have small := (shardEntry_named named recorded).2
  omega

end Returns

end Stopan.Erasure
