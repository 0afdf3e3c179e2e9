import Stopan.Metadata.ErasureLayout
import Stopan.Metadata.RecipeCalls

namespace Stopan.Metadata

open Stopan.Lib Stopan.Common Stopan.Protection

/-- Hashes are well formed, and what refers to a chunk or to a pack refers to one that is there. -/
structure MetadataDB.Linked (db : MetadataDB) : Prop where
  recipeIds : MetadataDB.RecipeIdsBounded db
  chunkNames : ∀ hash ∈ db.chunks.keys, isValidBlake3Hex hash = true
  recipes : ∀ recipeId, ∀ chunk ∈ db.recipeChunkEntries recipeId, chunk.chunkHash ∈ db.chunks.keys
  protection : ∀ hash ∈ db.chunkProtection.keys, hash ∈ db.chunks.keys
  packNames : ∀ hash ∈ db.erasureDataPacks.keys, isValidBlake3Hex hash = true
  packChunks : ∀ hash row, db.erasurePackChunks.get? hash = some row →
    row.packHash ∈ db.erasureDataPacks.keys

namespace MetadataDB

variable {db after : MetadataDB}

theorem linked_empty : Linked .empty where
  recipeIds := by
    intro recipeId row stored
    cases stored
  chunkNames := by
    intro hash member
    cases member
  recipes := by
    intro recipeId chunk member
    cases member
  protection := by
    intro hash member
    cases member
  packNames := by
    intro hash member
    cases member
  packChunks := by
    intro hash row stored
    cases stored

/-- Only the protection rows change, and the new ones are about known chunks. -/
theorem Linked.withProtection (linked : Linked db) {table : Dict Text ProtectionRecord}
    (known : ∀ hash ∈ table.keys, hash ∈ db.chunkProtection.keys ∨ hash ∈ db.chunks.keys) :
    Linked { db with chunkProtection := table } :=
  { linked with
    protection := by
      intro hash member
      rcases known hash member with older | present
      · exact linked.protection hash older
      · exact present }

theorem Linked.ensureRecipeProtection (linked : Linked db) (recipeId desiredRf : Nat) :
    Linked (db.ensureRecipeProtection recipeId desiredRf) := by
  apply linked.withProtection
  intro hash member
  rcases mem_keys_foldl_ensureProtectionRow.mp member with listed | older
  · obtain ⟨chunk, present, rfl⟩ := mem_recipeChunkHashes.mp listed
    exact .inr (linked.recipes recipeId chunk present)
  · exact .inl older

theorem Linked.register (linked : Linked db) {recipeHash : Text} {recipeId desiredRf : Nat}
    {chunks : List RecipeChunk}
    (created : db.getOrCreateRecipe recipeHash chunks desiredRf = .ok (after, recipeId)) :
    Linked after := by
  have registered := getOrCreateRecipe_ok created
  have sizes := getOrCreateRecipe_sizes created
  have kept : ∀ hash ∈ db.chunks.keys, hash ∈ after.chunks.keys := by
    intro hash member
    obtain ⟨size, stored⟩ := (Dict.mem_keys_iff ..).mp member
    exact (Dict.mem_keys_iff ..).mpr ⟨size, sizes.kept hash size stored⟩
  have sized : ∀ chunk ∈ chunks, chunk.chunkHash ∈ after.chunks.keys := fun chunk member =>
    (Dict.mem_keys_iff ..).mpr ⟨chunk.chunkSize, sizes.sized chunk member⟩
  refine ⟨registered.idsBounded linked.recipeIds, ?_, ?_, ?_, ?_, ?_⟩
  · intro hash member
    rcases sizes.added hash member with older | ⟨chunk, listed, rfl⟩
    · exact linked.chunkNames hash older
    · exact (registered.valid chunk listed).1
  · intro otherId chunk member
    rw [registered.entries] at member
    split at member
    · exact sized chunk member
    · exact kept _ (linked.recipes otherId chunk member)
  · intro hash member
    rw [registered.protection, mem_keys_foldl_ensureProtectionRow,
      mem_recipeChunkHashes, registered.entries, if_pos rfl] at member
    rcases member with ⟨chunk, listed, rfl⟩ | older
    · exact sized chunk listed
    · exact kept hash (linked.protection hash older)
  · rw [registered.erasure.1]
    exact linked.packNames
  · rw [registered.erasure.1, registered.erasure.2.1]
    exact linked.packChunks

theorem Linked.recipeCall (linked : Linked db) (call : RecipeCall) :
    Linked (db.performRecipeCall call).2 := by
  cases outcome : (db.performRecipeCall call).1 with
  | error reason =>
      rw [performRecipeCall_error outcome]
      exact linked
  | ok done =>
      cases call with
      | createSnapshot snapshotUuid createdAt rootPath originNodeId =>
          rw [performRecipeCall] at outcome ⊢
          cases created : db.createSnapshot snapshotUuid createdAt rootPath originNodeId with
          | error reason =>
              rw [created] at outcome
              cases outcome
          | ok result =>
              unfold createSnapshot at created
              simp only [bind_eq_ok_iff, pure_eq_ok_iff] at created
              obtain ⟨-, -, root, -, -, -, rfl⟩ := created
              exact { linked with }
      | addItems snapshotId entries =>
          rw [performRecipeCall] at outcome ⊢
          cases added : db.addItems snapshotId entries with
          | error reason =>
              rw [added] at outcome
              cases outcome
          | ok result =>
              obtain ⟨lastItemId, snapshotItems, same⟩ :=
                @addItems_frame _ result.1 _ _ result.2 added
              rw [autocommit]
              dsimp only
              rw [same]
              exact { linked with }
      | getOrCreateRecipe recipeHash chunks desiredRf =>
          have ran := atomically_eq_ok_iff.mp outcome
          simp only [Task.returns_bind_iff, Task.returns_pure_iff] at ran
          obtain ⟨recipeId, reached, created, -, same⟩ := ran
          obtain ⟨entries, created⟩ := Statements.returns_getOrCreateRecipe linked.recipeIds created
          exact same ▸ linked.register created
      | consolidateItemRecipe itemId recipeHash chunks desiredRf =>
          have ran := atomically_eq_ok_iff.mp outcome
          simp only [Task.returns_bind_iff, Task.returns_pure_iff] at ran
          obtain ⟨recipeId, reached, consolidated, -, same⟩ := ran
          obtain ⟨registered, entries, snapshotItems, created, rfl⟩ :=
            Statements.returns_consolidateItemRecipe linked.recipeIds consolidated
          have held : Linked { registered with snapshotItems } := { linked.register created with }
          exact same ▸ held
      | reuseItemRecipes assignments desiredRf =>
          rw [performRecipeCall] at outcome ⊢
          by_cases empty : assignments.isEmpty = true
          · rw [if_pos empty]
            exact linked
          · rw [if_neg empty] at outcome ⊢
            obtain ⟨snapshotItems, same⟩ :=
              Statements.returns_reuseItemRecipes (atomically_eq_ok_iff.mp outcome)
            rw [transaction, same]
            have items : Linked { db with snapshotItems } := { linked with }
            apply items.withProtection
            intro hash member
            rcases mem_keys_foldl_ensureProtectionRow.mp member with listed | older
            · obtain ⟨recipeId, -, inside⟩ := List.mem_flatMap.mp listed
              obtain ⟨chunk, present, rfl⟩ := mem_recipeChunkHashes.mp inside
              exact .inr (linked.recipes recipeId chunk present)
            · exact .inl older

theorem Linked.upserts (linked : Linked db)
    {rowOf : ProtectionUpsert → Option ProtectionRecord → ProtectionRecord}
    {upserts : List ProtectionUpsert}
    (applied : db.applyProtectionUpserts rowOf upserts = .ok after) : Linked after := by
  induction upserts generalizing db with
  | nil =>
      cases applied
      exact linked
  | cons upsert rest ih =>
      rw [applyProtectionUpserts] at applied
      split at applied
      · cases applied
      · rename_i next written
        refine ih ?_ applied
        unfold upsertProtection at written
        split at written
        · rename_i present
          cases written
          apply linked.withProtection
          intro hash member
          rcases (Dict.mem_keys_set ..).mp member with rfl | older
          · rw [Bool.or_eq_true] at present
            exact present.imp (Dict.contains_iff ..).mp (Dict.contains_iff ..).mp
          · exact .inl older
        · cases written

theorem Linked.markStaleProtection (linked : Linked db) (desiredRf : Int)
    (currentEpoch : Option Text) :
    Linked (db.markStaleProtection desiredRf currentEpoch) := by
  apply linked.withProtection
  intro hash member
  rw [Dict.keys_mapValues] at member
  exact .inl member

/-- What a statement on the tables of the data packs may do: packs stay, new ones have well-formed
hashes, and new chunk rows belong to a pack that is there. -/
structure PacksChanged (db after : MetadataDB) : Prop where
  rest : after = { db with
    erasureDataPacks := after.erasureDataPacks
    erasurePackChunks := after.erasurePackChunks
    erasurePackShards := after.erasurePackShards }
  kept : ∀ hash ∈ db.erasureDataPacks.keys, hash ∈ after.erasureDataPacks.keys
  names : ∀ hash ∈ after.erasureDataPacks.keys, hash ∈ db.erasureDataPacks.keys ∨
    isValidBlake3Hex hash = true
  chunks : ∀ hash row, after.erasurePackChunks.get? hash = some row →
    db.erasurePackChunks.get? hash = some row ∨ row.packHash ∈ after.erasureDataPacks.keys

theorem PacksChanged.refl (db : MetadataDB) : PacksChanged db db where
  rest := rfl
  kept _ member := member
  names _ member := .inl member
  chunks _ _ stored := .inl stored

theorem PacksChanged.trans {middle : MetadataDB} (first : PacksChanged db middle)
    (second : PacksChanged middle after) :
    PacksChanged db after where
  rest := by rw [second.rest, first.rest]
  kept hash member := second.kept hash (first.kept hash member)
  names := by
    intro hash member
    rcases second.names hash member with earlier | valid
    · exact first.names hash earlier
    · exact .inr valid
  chunks := by
    intro hash row stored
    rcases second.chunks hash row stored with earlier | present
    · exact (first.chunks hash row earlier).imp_right (second.kept _)
    · exact .inr present

theorem Linked.packs (linked : Linked db) (changed : PacksChanged db after) : Linked after := by
  have names : ∀ hash ∈ after.erasureDataPacks.keys, isValidBlake3Hex hash = true := by
    intro hash member
    rcases changed.names hash member with older | valid
    · exact linked.packNames hash older
    · exact valid
  have chunks : ∀ hash row, after.erasurePackChunks.get? hash = some row →
      row.packHash ∈ after.erasureDataPacks.keys := by
    intro hash row stored
    rcases changed.chunks hash row stored with older | present
    · exact changed.kept _ (linked.packChunks hash row older)
    · exact present
  have rest := changed.rest
  generalize after.erasureDataPacks = packs, after.erasurePackChunks = packChunks,
    after.erasurePackShards = shards at *
  subst rest
  exact { linked with packNames := names, packChunks := chunks }

theorem packsChanged_foldlM {α : Type} {step : MetadataDB → α → Except StopanError MetadataDB}
    {items : List α}
    (single : ∀ state, ∀ item ∈ items, ∀ next, step state item = .ok next → PacksChanged state next)
    (ran : items.foldlM step db = .ok after) : PacksChanged db after :=
  foldlM_invariant (PacksChanged db) (fun state item member next reached stepped =>
    reached.trans (single state item member next stepped)) (.refl db) ran

/-- Rewriting the row of a registered pack. -/
theorem packsChanged_set {packHash : Text} {existing row : ErasureDataPackRow}
    {shards : Dict (Text × Nat) ErasurePackShardRow}
    (stored : db.getErasureDataPack packHash = some existing) :
    PacksChanged db { db with
      erasureDataPacks := db.erasureDataPacks.set packHash row
      erasurePackShards := shards } where
  rest := rfl
  kept _ member := (Dict.mem_keys_set ..).mpr (.inr member)
  names := by
    intro hash member
    rcases (Dict.mem_keys_set ..).mp member with rfl | older
    · exact .inl ((Dict.mem_keys_iff ..).mpr ⟨existing, stored⟩)
    · exact .inl older
  chunks _ _ found := .inl found

theorem packsChanged_shards {shards : Dict (Text × Nat) ErasurePackShardRow} :
    PacksChanged db { db with erasurePackShards := shards } where
  rest := rfl
  kept _ member := member
  names _ member := .inl member
  chunks _ _ stored := .inl stored

theorem packsChanged_insertErasureDataPack {packHash : Text} {row : ErasureDataPackRow}
    (valid : isValidBlake3Hex packHash = true)
    (inserted : db.insertErasureDataPack packHash row = .ok after) :
    PacksChanged db after := by
  obtain ⟨-, rfl⟩ := insertErasureDataPack_ok inserted
  refine ⟨rfl, fun _ member => (Dict.mem_keys_set ..).mpr (.inr member), ?_,
    fun _ _ stored => .inl stored⟩
  intro hash member
  rcases (Dict.mem_keys_set ..).mp member with rfl | older
  · exact .inr valid
  · exact .inl older

theorem packsChanged_insertErasurePackChunk {packHash : Text} {entry : ErasureChunkEntry}
    (inserted : db.insertErasurePackChunk packHash entry = .ok after) : PacksChanged db after := by
  simp only [insertErasurePackChunk, bind_eq_ok_iff, ensure_eq_ok_iff, pure_eq_ok_iff] at inserted
  obtain ⟨-, -, -, -, -, -, -, -, -, -, -, present, rfl⟩ := inserted
  refine ⟨rfl, fun _ member => member, fun _ member => .inl member, ?_⟩
  intro hash row stored
  rw [Dict.get?_set] at stored
  split at stored
  · cases stored
    rw [Bool.and_eq_true] at present
    exact .inr ((Dict.contains_iff ..).mp present.2)
  · exact .inl stored

theorem packsChanged_insertErasurePackShard {packHash : Text} {shardIndex : Nat}
    {row : ErasurePackShardRow}
    (inserted : db.insertErasurePackShard packHash shardIndex row = .ok after) :
    PacksChanged db after := by
  rw [(insertErasurePackShard_written inserted).rest]
  exact packsChanged_shards

theorem requireErasureDefinition_valid {args : ErasurePackArgs} {packHash : Text}
    {definition : ErasureDefinition}
    (required : requireErasureDefinition args = .ok (packHash, definition)) :
    isValidBlake3Hex packHash = true := by
  simp only [requireErasureDefinition, bind_eq_ok_iff, pure_eq_ok_iff, Prod.mk.injEq] at required
  obtain ⟨hash, checked, -, -, -, -, -, -, -, -, -, -, -, -, rfl, -⟩ := required
  unfold requireHash64 at checked
  split at checked
  · rename_i valid
    cases checked
    exact valid
  · cases checked

theorem packsChanged_register {args : ErasurePackArgs} {protectionState : ProtectionState}
    {placementEpoch : Option Text} {now : PyFloat}
    (registered : db.registerErasureDataPack args protectionState placementEpoch now = .ok after) :
    PacksChanged db after := by
  rw [registerErasureDataPack] at registered
  obtain ⟨⟨packHash, definition⟩, scalars, registered⟩ := bind_eq_ok_iff.mp registered
  obtain ⟨⟨chunks, shards⟩, -, registered⟩ := bind_eq_ok_iff.mp registered
  obtain ⟨middle, packed, registered⟩ := bind_eq_ok_iff.mp registered
  obtain ⟨last, chunked, sharded⟩ := bind_eq_ok_iff.mp registered
  have first : PacksChanged db middle := by
    unfold insertErasureDataPackOnce at packed
    split at packed
    · split at packed
      · cases packed
      · cases packed
        exact .refl db
    · obtain ⟨created, -, written⟩ := bind_eq_ok_iff.mp packed
      exact packsChanged_insertErasureDataPack (requireErasureDefinition_valid scalars) written
  have second : PacksChanged middle last := by
    refine packsChanged_foldlM ?_ chunked
    intro state entry _ next inserted
    unfold insertErasurePackChunkOnce at inserted
    split at inserted
    · split at inserted
      · cases inserted
      · cases inserted
        exact .refl state
    · exact packsChanged_insertErasurePackChunk inserted
  have third : PacksChanged last after := by
    refine packsChanged_foldlM ?_ sharded
    intro state entry _ next inserted
    rw [(insertErasurePackShardOnce_written inserted).rest]
    exact packsChanged_shards
  exact (first.trans second).trans third

theorem packsChanged_pushUpdate {update : ErasureDataPackPushUpdate}
    (applied : db.applyErasureDataPackPushUpdate update = .ok after) : PacksChanged db after := by
  rw [applyErasureDataPackPushUpdate] at applied
  obtain ⟨⟨packHash, definition⟩, -, applied⟩ := bind_eq_ok_iff.mp applied
  obtain ⟨-, applied⟩ := ensure_bind_eq_ok_iff.mp applied
  obtain ⟨⟨chunks, shards⟩, -, applied⟩ := bind_eq_ok_iff.mp applied
  dsimp only at applied
  split at applied
  · cases applied
  · rename_i existing stored
    obtain ⟨-, applied⟩ := ensure_bind_eq_ok_iff.mp applied
    obtain ⟨-, applied⟩ := ensure_bind_eq_ok_iff.mp applied
    rw [upsertErasurePackShardsForPush] at applied
    obtain ⟨middle, upserted, applied⟩ := bind_eq_ok_iff.mp applied
    have first :=
      @packsChanged_set db _ existing (pushedPackRow update existing) db.erasurePackShards stored
    have second := packsChanged_foldlM (fun state entry _ next upserted => by
      rw [(upsertErasurePackShard_written upserted).rest]
      exact packsChanged_shards) upserted
    split at applied
    · cases pure_eq_ok_iff.mp applied
      exact first.trans second
    · cases pure_eq_ok_iff.mp applied
      exact (first.trans second).trans packsChanged_shards

theorem packsChanged_pushError {update : ErasureDataPackPushErrorUpdate}
    (applied : db.applyErasureDataPackPushError update = .ok after) : PacksChanged db after := by
  rw [applyErasureDataPackPushError] at applied
  obtain ⟨packHash, -, applied⟩ := bind_eq_ok_iff.mp applied
  obtain ⟨error, -, applied⟩ := bind_eq_ok_iff.mp applied
  split at applied
  · cases applied
  · rename_i existing stored
    cases pure_eq_ok_iff.mp applied
    exact packsChanged_set stored

theorem packsChanged_pushResults {pushUpdates : List ErasureDataPackPushUpdate}
    {errorUpdates : List ErasureDataPackPushErrorUpdate}
    (applied : db.applyErasureDataPackPushResultBatch pushUpdates errorUpdates = .ok after) :
    PacksChanged db after := by
  rw [applyErasureDataPackPushResultBatch] at applied
  obtain ⟨middle, pushed, failed⟩ := bind_eq_ok_iff.mp applied
  exact (packsChanged_foldlM (fun _ _ _ _ => packsChanged_pushUpdate) pushed).trans
    (packsChanged_foldlM (fun _ _ _ _ => packsChanged_pushError) failed)

theorem packsChanged_verification {verifiedAt : PyFloat}
    {update : ErasureDataPackVerificationUpdate}
    (applied : applyErasureDataPackVerificationUpdate verifiedAt db update = .ok after) :
    PacksChanged db after := by
  rw [applyErasureDataPackVerificationUpdate] at applied
  obtain ⟨packHash, -, applied⟩ := bind_eq_ok_iff.mp applied
  obtain ⟨-, applied⟩ := ensure_bind_eq_ok_iff.mp applied
  obtain ⟨indexes, -, applied⟩ := bind_eq_ok_iff.mp applied
  split at applied
  · cases applied
  · rename_i existing stored
    obtain ⟨-, -, applied⟩ := bind_eq_ok_iff.mp applied
    cases pure_eq_ok_iff.mp applied
    exact packsChanged_set stored

theorem packsChanged_markState {packHash : Text} {protectionState : ProtectionState}
    {placementEpoch error : Option Text} {now : PyFloat}
    (marked : db.markErasureDataPackState packHash protectionState placementEpoch error now =
      .ok after) :
    PacksChanged db after := by
  rw [markErasureDataPackState] at marked
  obtain ⟨hash, -, marked⟩ := bind_eq_ok_iff.mp marked
  cases pure_eq_ok_iff.mp marked
  have keys : ∀ change : ErasureDataPackRow → ErasureDataPackRow, ∀ other,
      other ∈ (db.erasureDataPacks.adjust hash change).keys ↔ other ∈ db.erasureDataPacks.keys := by
    intro change other
    rw [← Dict.contains_iff, ← Dict.contains_iff, Dict.contains, Dict.contains, Dict.get?_adjust]
    split
    · rename_i same
      rw [same, Option.isSome_map]
    · rfl
  exact ⟨rfl, fun other member => (keys _ other).mpr member,
    fun other member => .inl ((keys _ other).mp member), fun _ _ stored => .inl stored⟩

theorem packsChanged_import {record : ErasureDataPackImportRows}
    (valid : isValidBlake3Hex record.packHash = true)
    (inserted : db.objectImportInsertErasureDataPackRecord record = .ok after) :
    PacksChanged db after := by
  rw [objectImportInsertErasureDataPackRecord] at inserted
  obtain ⟨middle, packed, inserted⟩ := bind_eq_ok_iff.mp inserted
  obtain ⟨last, chunked, sharded⟩ := bind_eq_ok_iff.mp inserted
  exact ((packsChanged_insertErasureDataPack valid packed).trans
    (packsChanged_foldlM (fun _ _ _ _ => packsChanged_insertErasurePackChunk) chunked)).trans
    (packsChanged_foldlM (fun _ _ _ _ => packsChanged_insertErasurePackShard) sharded)

end MetadataDB

/-- The tables that an import fills before the data packs. The importer has checked the hashes, and
inserts no recipe entry and no protection row of a chunk that it has not inserted. -/
structure ImportedTables where
  tables : MetadataDB
  recipeIds : MetadataDB.RecipeIdsBounded tables
  chunkNames : ∀ hash ∈ tables.chunks.keys, isValidBlake3Hex hash = true
  recipes : ∀ recipeId, ∀ chunk ∈ tables.recipeChunkEntries recipeId,
    chunk.chunkHash ∈ tables.chunks.keys
  protection : ∀ hash ∈ tables.chunkProtection.keys, hash ∈ tables.chunks.keys

/-- A call that writes the catalog. -/
inductive CatalogCall where
  | recipe (call : RecipeCall)
  | ensureRecipeProtection (recipeId desiredRf : Nat)
  | finishSnapshot (snapshotId totalSize totalFiles : Nat)
  | failSnapshot (snapshotId : Nat) (error : Text)
  | pushUpdates (now : PyFloat) (updates : List ChunkProtectionUpdate)
  | verificationUpdates (now : PyFloat) (updates : List ChunkProtectionUpdate)
  | markStale (desiredRf : Int) (currentEpoch : Option Text)
  | registerPack (args : ErasurePackArgs) (protectionState : ProtectionState)
      (placementEpoch : Option Text) (now : PyFloat)
  | packPushResults (pushUpdates : List ErasureDataPackPushUpdate)
      (errorUpdates : List ErasureDataPackPushErrorUpdate)
  | packVerifications (updates : List ErasureDataPackVerificationUpdate) (now : PyFloat)
  | markPackState (packHash : Text) (protectionState : ProtectionState)
      (placementEpoch error : Option Text) (now : PyFloat)
  | importGraph (imported : ImportedTables) (records : List ErasureDataPackImportRows)

/-- An import into an empty catalog. The importer has checked the pack hashes too. -/
def MetadataDB.importGraph (db : MetadataDB) (imported : ImportedTables)
    (records : List ErasureDataPackImportRows) :
    Except StopanError MetadataDB := do
  db.requireEmptyOperationalDb
  ensure (records.all fun record => isValidBlake3Hex record.packHash)
    (.metadataObjectImport
      "erasure_data_packs.pack_hash debe tener 64 caracteres hexadecimales lowercase")
  let filled := { imported.tables with
    erasureDataPacks := db.erasureDataPacks
    erasurePackChunks := db.erasurePackChunks
    erasurePackShards := db.erasurePackShards }
  filled.objectImportInsertErasureDataPackRecords records

/-- The catalog after a call, which is as before when the call raises. -/
def MetadataDB.afterCall (db : MetadataDB) (outcome : Except StopanError MetadataDB) : MetadataDB :=
  match outcome with
  | .ok after => after
  | .error _ => db

def MetadataDB.performCatalogCall (db : MetadataDB) : CatalogCall → MetadataDB
  | .recipe call => (db.performRecipeCall call).2
  | .ensureRecipeProtection recipeId desiredRf => db.ensureRecipeProtection recipeId desiredRf
  | .finishSnapshot snapshotId totalSize totalFiles =>
      db.afterCall (db.finishSnapshot snapshotId totalSize totalFiles)
  | .failSnapshot snapshotId error => db.afterCall (db.failSnapshot snapshotId error)
  | .pushUpdates now updates => db.afterCall (db.applyChunkPushUpdates now updates)
  | .verificationUpdates now updates => db.afterCall (db.applyChunkVerificationUpdates now updates)
  | .markStale desiredRf currentEpoch => db.markStaleProtection desiredRf currentEpoch
  | .registerPack args protectionState placementEpoch now =>
      db.afterCall (db.registerErasureDataPack args protectionState placementEpoch now)
  | .packPushResults pushUpdates errorUpdates =>
      db.afterCall (db.applyErasureDataPackPushResultBatch pushUpdates errorUpdates)
  | .packVerifications updates now =>
      db.afterCall (db.applyErasureDataPackVerifications updates now)
  | .markPackState packHash protectionState placementEpoch error now =>
      db.afterCall (db.markErasureDataPackState packHash protectionState placementEpoch error now)
  | .importGraph imported records => db.afterCall (db.importGraph imported records)

namespace MetadataDB

variable {db after : MetadataDB}

theorem Linked.afterCall (linked : Linked db) {outcome : Except StopanError MetadataDB}
    (succeeds : ∀ after, outcome = .ok after → Linked after) : Linked (db.afterCall outcome) := by
  cases outcome with
  | error reason => exact linked
  | ok after => exact succeeds after rfl

theorem Linked.importGraph (linked : Linked db) {imported : ImportedTables}
    {records : List ErasureDataPackImportRows}
    (done : db.importGraph imported records = .ok after) : Linked after := by
  rw [MetadataDB.importGraph] at done
  obtain ⟨-, -, done⟩ := bind_eq_ok_iff.mp done
  obtain ⟨valid, done⟩ := ensure_bind_eq_ok_iff.mp done
  rw [List.all_eq_true] at valid
  have filled : Linked { imported.tables with
      erasureDataPacks := db.erasureDataPacks
      erasurePackChunks := db.erasurePackChunks
      erasurePackShards := db.erasurePackShards } :=
    { recipeIds := imported.recipeIds
      chunkNames := imported.chunkNames
      recipes := imported.recipes
      protection := imported.protection
      packNames := linked.packNames
      packChunks := linked.packChunks }
  exact filled.packs
    (packsChanged_foldlM (fun _ record member _ => packsChanged_import (valid record member)) done)

theorem Linked.perform (linked : Linked db) (call : CatalogCall) :
    Linked (db.performCatalogCall call) := by
  cases call with
  | recipe call => exact linked.recipeCall call
  | ensureRecipeProtection recipeId desiredRf =>
      exact linked.ensureRecipeProtection recipeId desiredRf
  | finishSnapshot snapshotId totalSize totalFiles =>
      apply linked.afterCall
      intro after finished
      obtain ⟨snapshots, rfl⟩ : ∃ snapshots, after = { db with snapshots } := by
        unfold MetadataDB.finishSnapshot at finished
        split at finished
        · cases finished
        · obtain ⟨-, finished⟩ := ensure_bind_eq_ok_iff.mp finished
          split at finished
          · cases finished
          · obtain ⟨-, -, finished⟩ := bind_eq_ok_iff.mp finished
            obtain ⟨-, -, finished⟩ := bind_eq_ok_iff.mp finished
            exact ⟨_, (pure_eq_ok_iff.mp finished).symm⟩
      exact { linked with }
  | failSnapshot snapshotId error =>
      apply linked.afterCall
      intro after failed
      obtain ⟨snapshots, rfl⟩ : ∃ snapshots, after = { db with snapshots } := by
        unfold MetadataDB.failSnapshot at failed
        split at failed
        · cases failed
        · split at failed
          · cases failed
            exact ⟨_, rfl⟩
          · cases failed
            exact ⟨_, rfl⟩
          · cases failed
      exact { linked with }
  | pushUpdates now updates =>
      apply linked.afterCall
      intro after applied
      unfold applyChunkPushUpdates at applied
      split at applied
      · cases applied
      · exact linked.upserts applied
  | verificationUpdates now updates =>
      apply linked.afterCall
      intro after applied
      unfold applyChunkVerificationUpdates at applied
      split at applied
      · cases applied
      · exact linked.upserts applied
  | markStale desiredRf currentEpoch => exact linked.markStaleProtection desiredRf currentEpoch
  | registerPack args protectionState placementEpoch now =>
      exact linked.afterCall fun _ registered => linked.packs (packsChanged_register registered)
  | packPushResults pushUpdates errorUpdates =>
      exact linked.afterCall fun _ applied => linked.packs (packsChanged_pushResults applied)
  | packVerifications updates now =>
      exact linked.afterCall fun _ applied =>
        linked.packs (packsChanged_foldlM (fun _ _ _ _ => packsChanged_verification) applied)
  | markPackState packHash protectionState placementEpoch error now =>
      exact linked.afterCall fun _ marked => linked.packs (packsChanged_markState marked)
  | importGraph imported records => exact linked.afterCall fun _ done => linked.importGraph done

/-- The catalog after a sequence of calls. -/
def reached (calls : List CatalogCall) : MetadataDB := calls.foldl performCatalogCall .empty

theorem linked_reached (calls : List CatalogCall) : Linked (reached calls) := by
  suffices general : ∀ db, Linked db →
      Linked (calls.foldl performCatalogCall db) from general .empty linked_empty
  induction calls with
  | nil => exact fun _ linked => linked
  | cons call rest ih => exact fun db linked => ih _ (linked.perform call)

end MetadataDB

end Stopan.Metadata
