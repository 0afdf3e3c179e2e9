import Stopan.Metadata.ErasureCatalog

namespace Stopan.Metadata

open Stopan.Lib Stopan.Common Stopan.Protection

/-- The chunks tile the payload in the order of their ordinals; the shards have every index once and
each its own node. -/
structure PackLayout (definition : ErasureDefinition) (chunks : List ErasureChunkEntry)
    (shards : List ErasureShardEntry) : Prop where
  ordinals : Numbered ErasureChunkEntry.ordinal chunks
  tiled : Tiles ErasureChunkEntry.offset ErasureChunkEntry.length 0 chunks definition.payloadSize
  indexes : shards.map ErasureShardEntry.shardIndex = List.range definition.totalShards
  nodes : (shards.map ErasureShardEntry.nodeId).Nodup
  padded : definition.paddedSize = definition.shardSize * definition.dataShards
  within : definition.payloadSize ≤ definition.paddedSize

theorem PackLayout.numbered {definition : ErasureDefinition} {chunks : List ErasureChunkEntry}
    {shards : List ErasureShardEntry} (layout : PackLayout definition chunks shards) :
    Numbered ErasureShardEntry.shardIndex shards := by
  have count : shards.length = definition.totalShards := by
    simpa using congrArg List.length layout.indexes
  rw [Numbered, layout.indexes, count]

/-- The shard rows of two layouts of one definition have the same indexes. -/
theorem PackLayout.indexes_bounded {definition : ErasureDefinition}
    {chunks otherChunks : List ErasureChunkEntry}
    {shards others : List ErasureShardEntry} (layout : PackLayout definition chunks shards)
    (other : PackLayout definition otherChunks others) :
    ∀ entry ∈ others, entry.shardIndex < shards.length := by
  intro entry member
  have listed : entry.shardIndex ∈ others.map ErasureShardEntry.shardIndex :=
    List.mem_map_of_mem member
  rw [other.indexes, ← layout.indexes, layout.numbered] at listed
  exact List.mem_range.mp listed

/-- Every row belongs to a registered pack, and the rows of every pack have its layout. -/
structure MetadataDB.ErasureSound (db : MetadataDB) : Prop where
  chunkRows : ∀ chunkHash row, db.erasurePackChunks.get? chunkHash = some row →
    ∃ pack, db.getErasureDataPack row.packHash = some pack
  shardRows : ∀ key row, db.erasurePackShards.get? key = some row →
    ∃ pack, db.getErasureDataPack key.1 = some pack
  layout : ∀ packHash pack, db.getErasureDataPack packHash = some pack →
    PackLayout pack.definition (db.getErasurePackChunks packHash) (db.getErasurePackShards packHash)

theorem ErasureChunkEntry.eq_of_row {packHash : Text} {left right : ErasureChunkEntry}
    (sameHash : left.chunkHash = right.chunkHash)
    (sameRow : left.row packHash = right.row packHash) : left = right := by
  cases left
  cases right
  simp_all [ErasureChunkEntry.row]

section Reads

variable {db : MetadataDB} {packHash : Text}

theorem mem_getErasurePackChunks {entry : ErasureChunkEntry} :
    entry ∈ db.getErasurePackChunks packHash ↔
      db.erasurePackChunks.get? entry.chunkHash = some (entry.row packHash) := by
  rw [MetadataDB.getErasurePackChunks, mem_readInOrder, List.mem_map, Dict.get?_eq_some_iff]
  constructor
  · rintro ⟨⟨chunkHash, row⟩, member, rfl⟩
    obtain ⟨stored, named⟩ := List.mem_filter.mp member
    have same : row.packHash = packHash := by simpa using named
    subst same
    exact stored
  · intro stored
    exact ⟨(entry.chunkHash, entry.row packHash),
      List.mem_filter.mpr ⟨stored, by simp [ErasureChunkEntry.row]⟩, rfl⟩

theorem mem_getErasurePackShards {entry : ErasureShardEntry} :
    entry ∈ db.getErasurePackShards packHash ↔
      ∃ row, db.erasurePackShards.get? (packHash, entry.shardIndex) = some row ∧
        row.entry entry.shardIndex = entry := by
  rw [MetadataDB.getErasurePackShards, mem_readInOrder, List.mem_map]
  constructor
  · rintro ⟨⟨⟨stored, shardIndex⟩, row⟩, member, rfl⟩
    obtain ⟨listed, named⟩ := List.mem_filter.mp member
    have same : stored = packHash := by simpa using named
    subst same
    exact ⟨row, Dict.get?_eq_some_iff.mpr listed, rfl⟩
  · rintro ⟨row, found, same⟩
    exact ⟨((packHash, entry.shardIndex), row),
      List.mem_filter.mpr ⟨Dict.get?_eq_some_iff.mp found, by simp⟩, same⟩

theorem getErasurePackChunks_eq {rows : List ErasureChunkEntry}
    (numbered : Numbered ErasureChunkEntry.ordinal rows) (same : ∀ entry : ErasureChunkEntry,
      db.erasurePackChunks.get? entry.chunkHash = some (entry.row packHash) ↔ entry ∈ rows) :
    db.getErasurePackChunks packHash = rows := by
  refine readInOrder_eq_of_numbered numbered ?_ ?_
  · apply List.Nodup.of_map ErasureChunkEntry.chunkHash
    rw [List.map_map]
    exact db.erasurePackChunks.nodup.sublist (List.filter_sublist.map _)
  · intro entry
    rw [← same, ← mem_getErasurePackChunks, MetadataDB.getErasurePackChunks, mem_readInOrder]

theorem getErasurePackShards_eq {rows : List ErasureShardEntry}
    (numbered : Numbered ErasureShardEntry.shardIndex rows)
    (same : ∀ entry, entry ∈ db.getErasurePackShards packHash ↔ entry ∈ rows) :
    db.getErasurePackShards packHash = rows := by
  refine readInOrder_eq_of_numbered numbered ?_ ?_
  · apply List.Nodup.of_map fun entry => (packHash, entry.shardIndex)
    rw [List.map_map]
    have keys : ((db.erasurePackShards.entries.filter fun entry => decide
        (entry.1.1 = packHash)).map Prod.fst).Nodup :=
      db.erasurePackShards.nodup.sublist (List.filter_sublist.map _)
    convert keys using 1
    apply List.map_congr_left
    rintro ⟨⟨stored, shardIndex⟩, row⟩ member
    have named := (List.mem_filter.mp member).2
    have owner : stored = packHash := by simpa using named
    simp [ErasurePackShardRow.entry, owner]
  · intro entry
    rw [← same, MetadataDB.getErasurePackShards, mem_readInOrder]

end Reads

/-- The statement left these rows for the pack and touched no other. -/
structure PackWritten (packHash : Text) (definition : ErasureDefinition)
    (chunks : List ErasureChunkEntry)
    (shards : List ErasureShardEntry) (before after : MetadataDB) : Prop where
  own : ∃ pack, after.getErasureDataPack packHash = some pack ∧ pack.definition = definition
  chunks : after.getErasurePackChunks packHash = chunks
  shards : after.getErasurePackShards packHash = shards
  otherPacks : ∀ other, other ≠ packHash →
    after.getErasureDataPack other = before.getErasureDataPack other
  otherChunks : ∀ chunkHash row, row.packHash ≠ packHash →
    (after.erasurePackChunks.get? chunkHash = some row ↔
      before.erasurePackChunks.get? chunkHash = some row)
  otherShards : ∀ key, key.1 ≠ packHash →
    after.erasurePackShards.get? key = before.erasurePackShards.get? key

theorem MetadataDB.ErasureSound.written {packHash : Text} {definition : ErasureDefinition}
    {chunks : List ErasureChunkEntry} {shards : List ErasureShardEntry} {before after : MetadataDB}
    (sound : before.ErasureSound) (layout : PackLayout definition chunks shards)
    (written : PackWritten packHash definition chunks shards before after) :
    after.ErasureSound := by
  obtain ⟨own, registered, defined⟩ := written.own
  refine ⟨?_, ?_, ?_⟩
  · intro chunkHash row found
    by_cases same : row.packHash = packHash
    · exact ⟨own, same ▸ registered⟩
    · rw [written.otherPacks _ same]
      exact sound.chunkRows chunkHash row ((written.otherChunks chunkHash row same).mp found)
  · intro key row found
    by_cases same : key.1 = packHash
    · exact ⟨own, same ▸ registered⟩
    · rw [written.otherPacks _ same]
      exact sound.shardRows key row (written.otherShards key same ▸ found)
  · intro other pack found
    by_cases same : other = packHash
    · subst same
      rw [registered, Option.some.injEq] at found
      rw [← found, defined, written.chunks, written.shards]
      exact layout
    · rw [written.otherPacks _ same] at found
      have held := sound.layout other pack found
      have sameChunks : after.getErasurePackChunks other = before.getErasurePackChunks other := by
        refine getErasurePackChunks_eq held.ordinals ?_
        intro entry
        rw [mem_getErasurePackChunks]
        exact written.otherChunks entry.chunkHash (entry.row other) same
      have sameShards : after.getErasurePackShards other = before.getErasurePackShards other := by
        refine getErasurePackShards_eq held.numbered ?_
        intro entry
        rw [mem_getErasurePackShards, mem_getErasurePackShards,
          written.otherShards (other, entry.shardIndex) same]
      rw [sameChunks, sameShards]
      exact held

theorem checkErasureChunkRows_ok {rows : List ErasureChunkEntry}
    {expectedOrdinal previousEnd covered : Nat}
    (checked : checkErasureChunkRows expectedOrdinal previousEnd rows = .ok covered)
    (positive : ∀ row ∈ rows, 0 < row.length) :
    rows.map ErasureChunkEntry.ordinal = List.range' expectedOrdinal rows.length ∧
      Tiles ErasureChunkEntry.offset ErasureChunkEntry.length previousEnd rows covered := by
  induction rows generalizing expectedOrdinal previousEnd with
  | nil =>
      cases checked
      exact ⟨rfl, rfl⟩
  | cons row rest ih =>
      rw [checkErasureChunkRows, ensure_bind_eq_ok_iff, ensure_bind_eq_ok_iff, decide_eq_true_eq,
        decide_eq_true_eq] at checked
      obtain ⟨ordinal, offset, others⟩ := checked
      obtain ⟨numbers, tiled⟩ := ih others fun later member => positive later (.tail _ member)
      refine ⟨?_, offset, positive row (by simp), offset ▸ tiled⟩
      rw [List.map_cons, numbers, ordinal, List.length_cons, List.range'_succ]

theorem requireErasureChunk_positive {chunk : ErasureChunkArg} {entry : ErasureChunkEntry}
    (checked : requireErasureChunk chunk = .ok entry) : 0 < entry.length := by
  simp only [requireErasureChunk, bind_eq_ok_iff, pure_eq_ok_iff] at checked
  obtain ⟨chunkHash, -, offset, -, length, positive, ordinal, -, rfl⟩ := checked
  unfold requirePositiveInt at positive
  split at positive
  · cases positive
  · split at positive
    · cases positive
    · rename_i nonzero
      cases positive
      exact Nat.pos_of_ne_zero nonzero

theorem normalizeErasureChunkRows_ok {chunks : List ErasureChunkArg} {payloadSize : Nat}
    {rows : List ErasureChunkEntry}
    (normalized : normalizeErasureChunkRows chunks payloadSize = .ok rows) :
    Numbered ErasureChunkEntry.ordinal rows ∧
      Tiles ErasureChunkEntry.offset ErasureChunkEntry.length 0 rows payloadSize := by
  rw [normalizeErasureChunkRows, bind_eq_ok_iff] at normalized
  obtain ⟨checkedRows, mapped, remaining⟩ := normalized
  rw [ensure_bind_eq_ok_iff] at remaining
  obtain ⟨covered, checked, last⟩ := bind_eq_ok_iff.mp remaining.2
  rw [ensure_bind_eq_ok_iff, decide_eq_true_eq, pure_eq_ok_iff] at last
  obtain ⟨whole, rfl⟩ := last
  have positive : ∀ row ∈ readInOrder ErasureChunkEntry.ordinal checkedRows, 0 < row.length := by
    intro row member
    obtain ⟨chunk, -, accepted⟩ :=
      forall₂_mem_right (mapM_eq_ok_iff.mp mapped) (mem_readInOrder.mp member)
    exact requireErasureChunk_positive accepted
  obtain ⟨numbers, tiled⟩ := checkErasureChunkRows_ok checked positive
  exact ⟨by rw [Numbered, numbers, List.range_eq_range'], whole ▸ tiled⟩

theorem normalizeErasureShardRows_ok {shards : List ErasureShardArg} {totalShards : Nat}
    {rows : List ErasureShardEntry}
    (normalized : normalizeErasureShardRows shards totalShards = .ok rows) :
    rows.map ErasureShardEntry.shardIndex = List.range totalShards ∧
      (rows.map ErasureShardEntry.nodeId).Nodup := by
  rw [normalizeErasureShardRows, bind_eq_ok_iff] at normalized
  obtain ⟨checkedRows, -, remaining⟩ := normalized
  rw [ensure_bind_eq_ok_iff, ensure_bind_eq_ok_iff, decide_eq_true_eq, decide_eq_true_eq,
    pure_eq_ok_iff] at remaining
  obtain ⟨indexes, nodes, rfl⟩ := remaining
  exact ⟨indexes, nodes⟩

theorem requireErasureRows_layout {args : ErasurePackArgs} {definition : ErasureDefinition}
    {chunks : List ErasureChunkEntry} {shards : List ErasureShardEntry}
    (checked : requireErasureRows args definition = .ok (chunks, shards)) :
    PackLayout definition chunks shards := by
  rw [requireErasureRows, ensure_bind_eq_ok_iff, ensure_bind_eq_ok_iff, decide_eq_true_eq,
    decide_eq_true_eq] at checked
  obtain ⟨padded, within, rest⟩ := checked
  obtain ⟨chunkRows, chunkChecks, rest⟩ := bind_eq_ok_iff.mp rest
  obtain ⟨shardRows, shardChecks, built⟩ := bind_eq_ok_iff.mp rest
  cases pure_eq_ok_iff.mp built
  obtain ⟨ordinals, tiled⟩ := normalizeErasureChunkRows_ok chunkChecks
  obtain ⟨indexes, nodes⟩ := normalizeErasureShardRows_ok shardChecks
  exact ⟨ordinals, tiled, indexes, nodes, padded, within⟩

section Statements

variable {before after : MetadataDB} {packHash : Text}

theorem insertErasureDataPack_ok {pack : ErasureDataPackRow}
    (inserted : before.insertErasureDataPack packHash pack = .ok after) :
    before.getErasureDataPack packHash = none ∧
      after = { before with erasureDataPacks := before.erasureDataPacks.set packHash pack } := by
  simp only [MetadataDB.insertErasureDataPack, bind_eq_ok_iff, ensure_eq_ok_iff,
    pure_eq_ok_iff] at inserted
  obtain ⟨-, -, -, -, -, -, -, -, -, -, -, absent, rfl⟩ := inserted
  refine ⟨?_, rfl⟩
  simpa [Dict.contains, MetadataDB.getErasureDataPack] using absent

/-- What inserting chunk rows for a pack leaves: the old rows and these. A row that was not there
before has an ordinal that was not there either. -/
structure ChunksAdded (packHash : Text) (rows : List ErasureChunkEntry)
    (before after : MetadataDB) : Prop where
  rest : after = { before with erasurePackChunks := after.erasurePackChunks }
  found : ∀ chunkHash row, after.erasurePackChunks.get? chunkHash = some row ↔
    before.erasurePackChunks.get? chunkHash = some row ∨
      ∃ entry ∈ rows, entry.chunkHash = chunkHash ∧ entry.row packHash = row
  fresh : ∀ entry ∈ rows, before.erasurePackChunks.get? entry.chunkHash = some
    (entry.row packHash) ∨
    ∀ stored ∈ before.getErasurePackChunks packHash, stored.ordinal ≠ entry.ordinal

theorem insertErasurePackChunk_added {entry : ErasureChunkEntry}
    (inserted : before.insertErasurePackChunk packHash entry = .ok after) :
    ChunksAdded packHash [entry] before after := by
  simp only [MetadataDB.insertErasurePackChunk, bind_eq_ok_iff, ensure_eq_ok_iff,
    pure_eq_ok_iff] at inserted
  obtain ⟨-, -, -, -, -, -, -, absent, -, ordinals, -, -, rfl⟩ := inserted
  have missing : before.erasurePackChunks.get? entry.chunkHash = none := by
    simpa [Dict.contains] using absent
  refine ⟨rfl, ?_, ?_⟩
  · intro chunkHash row
    rw [Dict.get?_set]
    by_cases same : chunkHash = entry.chunkHash
    · subst same
      simp [missing]
    · have different : entry.chunkHash ≠ chunkHash := fun equal => same equal.symm
      simp [same, different]
  · intro listed member
    rw [List.mem_singleton.mp member]
    refine .inr ?_
    intro stored present equal
    have kept := List.all_eq_true.mp ordinals _
      (Dict.get?_eq_some_iff.mp (mem_getErasurePackChunks.mp present))
    simp [ErasureChunkEntry.row, equal] at kept

theorem ChunksAdded.trans {first second : List ErasureChunkEntry} {middle : MetadataDB}
    (left : ChunksAdded packHash first before middle)
    (right : ChunksAdded packHash second middle after) :
    ChunksAdded packHash (first ++ second) before after := by
  refine ⟨?_, ?_, ?_⟩
  · rw [right.rest, left.rest]
  · intro chunkHash row
    rw [right.found, left.found, or_assoc]
    simp only [List.mem_append]
    constructor
    · rintro (old | ⟨entry, member, same⟩ | ⟨entry, member, same⟩)
      · exact .inl old
      · exact .inr ⟨entry, .inl member, same⟩
      · exact .inr ⟨entry, .inr member, same⟩
    · rintro (old | ⟨entry, member | member, same⟩)
      · exact .inl old
      · exact .inr (.inl ⟨entry, member, same⟩)
      · exact .inr (.inr ⟨entry, member, same⟩)
  · intro entry member
    have carried : ∀ stored ∈ before.getErasurePackChunks packHash,
        stored ∈ middle.getErasurePackChunks packHash := by
      intro stored present
      rw [mem_getErasurePackChunks] at present ⊢
      exact (left.found _ _).mpr (.inl present)
    rcases List.mem_append.mp member with listed | listed
    · exact left.fresh entry listed
    · rcases right.fresh entry listed with present | fresh
      · rcases (left.found _ _).mp present with old | ⟨other, earlier, sameHash, sameRow⟩
        · exact .inl old
        · exact left.fresh entry (ErasureChunkEntry.eq_of_row sameHash sameRow ▸ earlier)
      · exact .inr fun stored present => fresh stored (carried stored present)

theorem chunksAdded_nil : ChunksAdded packHash [] before before := ⟨rfl, by simp, by simp⟩

theorem foldlM_chunksAdded {insert : MetadataDB → ErasureChunkEntry → Except StopanError MetadataDB}
    (single : ∀ db entry next, insert db entry = .ok next → ChunksAdded packHash [entry] db next)
    {rows : List ErasureChunkEntry} (inserted : rows.foldlM insert before = .ok after) :
    ChunksAdded packHash rows before after := by
  induction rows generalizing before with
  | nil =>
      cases inserted
      exact chunksAdded_nil
  | cons entry rest ih =>
      rw [List.foldlM_cons] at inserted
      obtain ⟨middle, first, others⟩ := bind_eq_ok_iff.mp inserted
      exact (single before entry middle first).trans (ih others)

theorem insertErasurePackChunkOnce_added {entry : ErasureChunkEntry}
    (inserted : MetadataDB.insertErasurePackChunkOnce packHash before entry = .ok after) :
    ChunksAdded packHash [entry] before after := by
  unfold MetadataDB.insertErasurePackChunkOnce at inserted
  cases stored : before.erasurePackChunks.get? entry.chunkHash with
  | none =>
      rw [stored] at inserted
      exact insertErasurePackChunk_added inserted
  | some existing =>
      rw [stored] at inserted
      by_cases same : existing = entry.row packHash
      · simp only [same, ne_eq, not_true_eq_false, if_false, Except.ok.injEq] at inserted
        subst inserted same
        refine ⟨rfl, ?_, ?_⟩
        · intro chunkHash row
          constructor
          · exact .inl
          · rintro (old | ⟨other, member, rfl, rfl⟩)
            · exact old
            · rw [List.mem_singleton.mp member]
              exact stored
        · intro other member
          rw [List.mem_singleton.mp member]
          exact .inl stored
      · simp [same] at inserted

/-- What writing shard rows for a pack leaves: these rows at their indexes and the old ones
elsewhere. -/
structure ShardsWritten (packHash : Text) (rows : List ErasureShardEntry)
    (before after : MetadataDB) : Prop where
  rest : after = { before with erasurePackShards := after.erasurePackShards }
  present : ∀ entry ∈ rows, entry ∈ after.getErasurePackShards packHash
  others : ∀ key, (∀ entry ∈ rows, (packHash, entry.shardIndex) ≠ key) →
    after.erasurePackShards.get? key = before.erasurePackShards.get? key

theorem shardsWritten_set (shardIndex : Nat) (row : ErasurePackShardRow) :
    ShardsWritten packHash [row.entry shardIndex] before
      { before with
        erasurePackShards := before.erasurePackShards.set (packHash, shardIndex) row } := by
  refine ⟨rfl, ?_, ?_⟩
  · intro entry member
    rw [List.mem_singleton.mp member, mem_getErasurePackShards]
    exact ⟨row, Dict.get?_set_self .., rfl⟩
  · intro key distinct
    have different := distinct _ (List.mem_singleton.mpr rfl)
    exact Dict.get?_set_of_ne _ _ fun same => different same.symm

theorem insertErasurePackShard_written {shardIndex : Nat} {row : ErasurePackShardRow}
    (inserted : before.insertErasurePackShard packHash shardIndex row = .ok after) :
    ShardsWritten packHash [row.entry shardIndex] before after := by
  simp only [MetadataDB.insertErasurePackShard, bind_eq_ok_iff, ensure_eq_ok_iff,
    pure_eq_ok_iff] at inserted
  obtain ⟨-, -, -, -, -, -, -, -, rfl⟩ := inserted
  exact shardsWritten_set shardIndex row

theorem ShardsWritten.cons {entry : ErasureShardEntry} {rows : List ErasureShardEntry}
    {middle : MetadataDB} (first : ShardsWritten packHash [entry] before middle)
    (second : ShardsWritten packHash rows middle after)
    (absent : entry.shardIndex ∉ rows.map ErasureShardEntry.shardIndex) :
    ShardsWritten packHash (entry :: rows) before after := by
  have untouched : after.erasurePackShards.get? (packHash, entry.shardIndex) =
      middle.erasurePackShards.get? (packHash, entry.shardIndex) := by
    refine second.others _ ?_
    intro other member same
    exact absent (List.mem_map.mpr ⟨other, member, (Prod.mk.inj same).2⟩)
  refine ⟨?_, ?_, ?_⟩
  · rw [second.rest, first.rest]
  · intro listed member
    cases member with
    | head =>
        have held := first.present entry (List.mem_singleton.mpr rfl)
        rw [mem_getErasurePackShards] at held ⊢
        rw [untouched]
        exact held
    | tail _ later => exact second.present listed later
  · intro key distinct
    rw [second.others key fun other member => distinct other (.tail _ member)]
    refine first.others key ?_
    intro other member
    rw [List.mem_singleton.mp member]
    exact distinct entry (.head _)

theorem shardsWritten_nil : ShardsWritten packHash [] before before := ⟨rfl, by simp, by simp⟩

theorem foldlM_shardsWritten {α : Type} {write : MetadataDB → α → Except StopanError MetadataDB}
    (entryOf : α → ErasureShardEntry)
    (single : ∀ db item next, write db item = .ok next →
      ShardsWritten packHash [entryOf item] db next)
    {items : List α} (distinct : ((items.map entryOf).map ErasureShardEntry.shardIndex).Nodup)
    (written : items.foldlM write before = .ok after) :
    ShardsWritten packHash (items.map entryOf) before after := by
  induction items generalizing before with
  | nil =>
      cases written
      exact shardsWritten_nil
  | cons item rest ih =>
      rw [List.foldlM_cons] at written
      obtain ⟨middle, first, others⟩ := bind_eq_ok_iff.mp written
      rw [List.map_cons, List.map_cons, List.nodup_cons] at distinct
      exact (single before item middle first).cons (ih distinct.2 others) distinct.1

theorem insertErasurePackShardOnce_written {protectionState : ProtectionState}
    {lastPushAt : Option PyFloat} {entry : ErasureShardEntry}
    (inserted : MetadataDB.insertErasurePackShardOnce packHash protectionState lastPushAt before
      entry = .ok after) :
    ShardsWritten packHash [entry] before after := by
  rw [MetadataDB.insertErasurePackShardOnce] at inserted
  obtain ⟨-, -, matched⟩ := bind_eq_ok_iff.mp inserted
  cases stored : before.erasurePackShards.get? (packHash, entry.shardIndex) with
  | none =>
      rw [stored] at matched
      exact insertErasurePackShard_written matched
  | some existing =>
      rw [stored] at matched
      by_cases same : existing.entry entry.shardIndex = entry
      · simp only [same, ne_eq, not_true_eq_false, if_false, Except.ok.injEq] at matched
        subst matched
        refine ⟨rfl, ?_, fun key _ => rfl⟩
        intro other member
        rw [List.mem_singleton.mp member, mem_getErasurePackShards]
        exact ⟨existing, stored, same⟩
      · simp [same] at matched

theorem upsertErasurePackShard_written {protectionState : ProtectionState} {lastPushAt : PyFloat}
    {entry : ErasureShardEntry}
    (upserted : MetadataDB.upsertErasurePackShard packHash protectionState lastPushAt before entry =
      .ok after) :
    ShardsWritten packHash [entry] before after := by
  rw [MetadataDB.upsertErasurePackShard] at upserted
  obtain ⟨-, -, branches⟩ := bind_eq_ok_iff.mp upserted
  split at branches
  · simp only [bind_eq_ok_iff, pure_eq_ok_iff] at branches
    obtain ⟨-, -, rfl⟩ := branches
    exact shardsWritten_set entry.shardIndex (entry.row protectionState (bindReal lastPushAt))
  · exact insertErasurePackShard_written branches

/-- Once every index of the pack is written, its shard rows are the written ones. -/
theorem ShardsWritten.read {rows : List ErasureShardEntry}
    (written : ShardsWritten packHash rows before after)
    (numbered : Numbered ErasureShardEntry.shardIndex rows)
    (covered : ∀ entry ∈ before.getErasurePackShards packHash, entry.shardIndex < rows.length) :
    after.getErasurePackShards packHash = rows := by
  refine getErasurePackShards_eq numbered ?_
  intro entry
  refine ⟨?_, written.present entry⟩
  intro stored
  by_cases inside : entry.shardIndex < rows.length
  · obtain ⟨row, member, same⟩ := numbered.exists_row inside
    obtain ⟨found, located, reads⟩ := mem_getErasurePackShards.mp stored
    obtain ⟨other, otherLocated, otherReads⟩ :=
      mem_getErasurePackShards.mp (written.present row member)
    rw [same, located, Option.some.injEq] at otherLocated
    have equal : row = entry := by
      rw [← otherReads, ← reads, same, otherLocated]
    exact equal ▸ member
  · refine absurd (covered entry ?_) inside
    rw [mem_getErasurePackShards] at stored ⊢
    rw [← written.others]
    · exact stored
    · intro row member same
      have bound := numbered.lt_length member
      rw [(Prod.mk.inj same).2] at bound
      exact inside bound

end Statements

section Calls

variable {before after : MetadataDB} {packHash : Text}

/-- A pack that is not registered has no rows. -/
theorem MetadataDB.ErasureSound.unregistered (sound : before.ErasureSound)
    (absent : before.getErasureDataPack packHash = none) :
    before.getErasurePackChunks packHash = [] ∧ before.getErasurePackShards packHash = [] := by
  constructor
  · refine List.eq_nil_iff_forall_not_mem.mpr fun entry member => ?_
    obtain ⟨pack, found⟩ := sound.chunkRows _ _ (mem_getErasurePackChunks.mp member)
    simp [ErasureChunkEntry.row, absent] at found
  · refine List.eq_nil_iff_forall_not_mem.mpr fun entry member => ?_
    obtain ⟨row, stored, -⟩ := mem_getErasurePackShards.mp member
    obtain ⟨pack, found⟩ := sound.shardRows _ _ stored
    simp [absent] at found

/-- Rows added to a pack that is already laid out with the same definition are the rows it has. -/
theorem ChunksAdded.eq_held {definition : ErasureDefinition} {chunks : List ErasureChunkEntry}
    {shards heldShards : List ErasureShardEntry} (added : ChunksAdded packHash chunks before after)
    (layout : PackLayout definition chunks shards)
    (held : PackLayout definition (before.getErasurePackChunks packHash) heldShards) :
    chunks = before.getErasurePackChunks packHash := by
  refine layout.ordinals.eq_of_tiles held.ordinals layout.tiled held.tiled ?_
  intro entry member bound
  rcases added.fresh entry member with present | fresh
  · exact mem_getErasurePackChunks.mpr present
  · obtain ⟨stored, listed, number⟩ := held.ordinals.exists_row bound
    exact absurd number (fresh stored listed)

/-- Rows added to a pack whose own rows are none, or are already laid out with the same
definition. -/
theorem packWritten_of_added {middle last : MetadataDB} {definition : ErasureDefinition}
    {pack : ErasureDataPackRow} {chunks : List ErasureChunkEntry} {shards : List ErasureShardEntry}
    (layout : PackLayout definition chunks shards)
    (packed : middle = { before with erasureDataPacks := middle.erasureDataPacks })
    (registered : middle.getErasureDataPack packHash = some pack)
    (defined : pack.definition = definition) (otherPacks : ∀ other, other ≠ packHash →
      middle.getErasureDataPack other = before.getErasureDataPack other)
    (held : before.getErasurePackChunks packHash = [] ∧ before.getErasurePackShards packHash = [] ∨
      PackLayout definition (before.getErasurePackChunks packHash)
        (before.getErasurePackShards packHash))
    (added : ChunksAdded packHash chunks middle last)
    (written : ShardsWritten packHash shards last after) :
    PackWritten packHash definition chunks shards before after := by
  have sameChunks : middle.erasurePackChunks = before.erasurePackChunks := by rw [packed]
  have sameReads : middle.getErasurePackChunks packHash = before.getErasurePackChunks packHash := by
    rw [packed]
    rfl
  have lastShards : last.getErasurePackShards packHash = before.getErasurePackShards packHash := by
    rw [added.rest, packed]
    rfl
  have packs : after.erasureDataPacks = middle.erasureDataPacks := by rw [written.rest, added.rest]
  have chunkRows : after.erasurePackChunks = last.erasurePackChunks := by rw [written.rest]
  have old : ∀ entry ∈ before.getErasurePackChunks packHash, entry ∈ chunks := by
    rcases held with ⟨none, -⟩ | held
    · simp [none]
    · have same := added.eq_held layout (sameReads.symm ▸ held)
      rw [← sameReads, ← same]
      exact fun entry member => member
  have count : ∀ entry ∈ before.getErasurePackShards packHash,
      entry.shardIndex < shards.length := by
    rcases held with ⟨-, none⟩ | held
    · simp [none]
    · exact layout.indexes_bounded held
  refine ⟨⟨pack, ?_, defined⟩, ?_, ?_, ?_, ?_, ?_⟩
  · rw [MetadataDB.getErasureDataPack, packs]
    exact registered
  · refine getErasurePackChunks_eq layout.ordinals ?_
    intro entry
    rw [chunkRows, added.found, sameChunks]
    constructor
    · rintro (present | ⟨other, member, sameHash, sameRow⟩)
      · exact old entry (mem_getErasurePackChunks.mpr present)
      · exact ErasureChunkEntry.eq_of_row sameHash sameRow ▸ member
    · intro member
      exact .inr ⟨entry, member, rfl, rfl⟩
  · exact written.read layout.numbered (lastShards ▸ count)
  · intro other different
    rw [MetadataDB.getErasureDataPack, packs]
    exact otherPacks other different
  · intro chunkHash row different
    rw [chunkRows, added.found, sameChunks]
    constructor
    · rintro (present | ⟨entry, -, -, sameRow⟩)
      · exact present
      · exact absurd (sameRow ▸ rfl) different
    · exact .inl
  · intro key different
    rw [written.others, added.rest, packed]
    intro entry _ same
    exact different (same ▸ rfl)

theorem insertErasureDataPackOnce_ok {definition : ErasureDefinition}
    {protectionState : ProtectionState}
    {placementEpoch : Option Text} {createdAt : PyFloat} {lastPushAt : Option PyFloat}
    (inserted : before.insertErasureDataPackOnce packHash definition protectionState placementEpoch
      createdAt lastPushAt = .ok after) :
    ∃ pack, after = { before with erasureDataPacks := after.erasureDataPacks } ∧
      after.getErasureDataPack packHash = some pack ∧ pack.definition = definition ∧
      (∀ other, other ≠ packHash →
        after.getErasureDataPack other = before.getErasureDataPack other) ∧
      (before.getErasureDataPack packHash = none ∨
        before.getErasureDataPack packHash = some pack) := by
  unfold MetadataDB.insertErasureDataPackOnce at inserted
  cases stored : before.getErasureDataPack packHash with
  | some existing =>
      rw [stored] at inserted
      by_cases same : existing.definition = definition
      · simp only [same, ne_eq, not_true_eq_false, if_false, Except.ok.injEq] at inserted
        subst inserted
        exact ⟨existing, rfl, stored, same, fun _ _ => rfl, .inr rfl⟩
      · simp [same] at inserted
  | none =>
      rw [stored] at inserted
      obtain ⟨created, -, written⟩ := bind_eq_ok_iff.mp inserted
      obtain ⟨-, rfl⟩ := insertErasureDataPack_ok written
      refine ⟨_, rfl, Dict.get?_set_self .., rfl, ?_, .inl rfl⟩
      intro other different
      exact Dict.get?_set_of_ne _ _ different

/-- Registration leaves exactly the rows of its arguments. A pack that was already there had
them. -/
theorem registerErasureDataPack_ok {args : ErasurePackArgs} {protectionState : ProtectionState}
    {placementEpoch : Option Text} {now : PyFloat} (sound : before.ErasureSound)
    (registered : before.registerErasureDataPack args protectionState placementEpoch now =
      .ok after) :
    ∃ packHash definition chunks shards, requireErasureDefinition args = .ok
      (packHash, definition) ∧ requireErasureRows args definition = .ok (chunks, shards) ∧
      PackWritten packHash definition chunks shards before after ∧
      (before.getErasureDataPack packHash = none ∨
        before.getErasurePackChunks packHash = chunks) := by
  rw [MetadataDB.registerErasureDataPack] at registered
  obtain ⟨⟨packHash, definition⟩, scalars, registered⟩ := bind_eq_ok_iff.mp registered
  obtain ⟨⟨chunks, shards⟩, rows, registered⟩ := bind_eq_ok_iff.mp registered
  obtain ⟨middle, packed, registered⟩ := bind_eq_ok_iff.mp registered
  obtain ⟨last, chunked, sharded⟩ := bind_eq_ok_iff.mp registered
  have layout := requireErasureRows_layout rows
  obtain ⟨pack, rest, own, defined, others, earlier⟩ := insertErasureDataPackOnce_ok packed
  have added : ChunksAdded packHash chunks middle last :=
    foldlM_chunksAdded (fun _ _ _ => insertErasurePackChunkOnce_added) chunked
  have written : ShardsWritten packHash (shards.map id) last after := by
    refine foldlM_shardsWritten id (fun _ _ _ => insertErasurePackShardOnce_written) ?_ sharded
    rw [List.map_id, layout.indexes]
    exact List.nodup_range
  rw [List.map_id] at written
  refine ⟨packHash, definition, chunks, shards, scalars, rows, ?_⟩
  rcases earlier with absent | present
  · exact ⟨packWritten_of_added layout rest own defined others
      (.inl (sound.unregistered absent)) added written, .inl absent⟩
  · have held := sound.layout packHash pack present
    rw [defined] at held
    have sameReads : middle.getErasurePackChunks packHash =
        before.getErasurePackChunks packHash := by
      rw [rest]
      rfl
    have same := added.eq_held layout (sameReads.symm ▸ held)
    exact ⟨packWritten_of_added layout rest own defined others (.inr held) added written,
      .inr (sameReads ▸ same.symm)⟩

theorem registerErasureDataPack_sound {args : ErasurePackArgs} {protectionState : ProtectionState}
    {placementEpoch : Option Text} {now : PyFloat} (sound : before.ErasureSound)
    (registered : before.registerErasureDataPack args protectionState placementEpoch now =
      .ok after) :
    after.ErasureSound := by
  obtain ⟨packHash, definition, chunks, shards, -, rows, written, -⟩ :=
    registerErasureDataPack_ok sound registered
  exact sound.written (requireErasureRows_layout rows) written

theorem objectImportInsertErasureDataPackRecord_written {record : ErasureDataPackImportRows}
    (sound : before.ErasureSound)
    (layout : PackLayout record.pack.definition record.chunks
      (record.shards.map fun shard => shard.2.entry shard.1))
    (inserted : before.objectImportInsertErasureDataPackRecord record = .ok after) :
    PackWritten record.packHash record.pack.definition record.chunks
      (record.shards.map fun shard => shard.2.entry shard.1)
      before after := by
  rw [MetadataDB.objectImportInsertErasureDataPackRecord] at inserted
  obtain ⟨middle, packed, inserted⟩ := bind_eq_ok_iff.mp inserted
  obtain ⟨last, chunked, sharded⟩ := bind_eq_ok_iff.mp inserted
  obtain ⟨absent, rfl⟩ := insertErasureDataPack_ok packed
  have added := foldlM_chunksAdded (fun _ _ _ => insertErasurePackChunk_added) chunked
  have written := foldlM_shardsWritten (fun shard => shard.2.entry shard.1)
    (fun _ _ _ => insertErasurePackShard_written)
      (by rw [layout.indexes]; exact List.nodup_range) sharded
  have own : MetadataDB.getErasureDataPack
      { before with erasureDataPacks := before.erasureDataPacks.set record.packHash record.pack }
        record.packHash = some record.pack := Dict.get?_set_self ..
  refine packWritten_of_added layout rfl own rfl ?_ (.inl (sound.unregistered absent)) added written
  intro other different
  exact Dict.get?_set_of_ne _ _ different

/-- A statement that only updates evidence: states, times and errors. -/
theorem MetadataDB.ErasureSound.evidence (sound : before.ErasureSound)
    (packs : ∀ other, (after.getErasureDataPack other).map ErasureDataPackRow.definition =
      (before.getErasureDataPack other).map ErasureDataPackRow.definition)
    (chunks : after.erasurePackChunks = before.erasurePackChunks)
    (shards : ∀ key, (after.erasurePackShards.get? key).map (ErasurePackShardRow.entry key.2) =
      (before.erasurePackShards.get? key).map (ErasurePackShardRow.entry key.2)) :
        after.ErasureSound := by
  have registered : ∀ other pack, before.getErasureDataPack other = some pack →
      ∃ next, after.getErasureDataPack other = some next := by
    intro other pack found
    have same := packs other
    rw [found] at same
    obtain ⟨next, stored, -⟩ := Option.map_eq_some_iff.mp same
    exact ⟨next, stored⟩
  refine ⟨?_, ?_, ?_⟩
  · intro chunkHash row found
    obtain ⟨pack, present⟩ := sound.chunkRows chunkHash row (chunks ▸ found)
    exact registered _ pack present
  · intro key row found
    have same := shards key
    rw [found] at same
    obtain ⟨stored, earlier, -⟩ := Option.map_eq_some_iff.mp same.symm
    obtain ⟨pack, present⟩ := sound.shardRows key stored earlier
    exact registered _ pack present
  · intro other next found
    have same := packs other
    rw [found] at same
    obtain ⟨pack, earlier, equal⟩ := Option.map_eq_some_iff.mp same.symm
    have held := sound.layout other pack earlier
    have sameShards : after.getErasurePackShards other = before.getErasurePackShards other := by
      refine getErasurePackShards_eq held.numbered ?_
      intro entry
      have agree := shards (other, entry.shardIndex)
      rw [mem_getErasurePackShards, mem_getErasurePackShards]
      simp only [← Option.map_eq_some_iff, agree]
    rw [sameShards, ← equal, MetadataDB.getErasurePackChunks, chunks]
    exact held

/-- The DELETE of a push finds nothing once all rows of the pack have an index that the push
names. -/
theorem filter_seenIndexes_eq_self {shards : List ErasureShardEntry}
    (reads : after.getErasurePackShards packHash = shards) :
    after.erasurePackShards.filter (fun key _ =>
      !(decide (key.1 = packHash) && !(shards.map ErasureShardEntry.shardIndex).contains key.2)) =
        after.erasurePackShards := by
  apply Dict.ext_entries
  rw [Dict.filter, List.filter_eq_self]
  rintro ⟨key, row⟩ member
  by_cases own : key.1 = packHash
  · have stored : row.entry key.2 ∈ after.getErasurePackShards packHash := by
      rw [mem_getErasurePackShards]
      exact ⟨row, own ▸ Dict.get?_eq_some_iff.mpr member, rfl⟩
    rw [reads] at stored
    have listed : key.2 ∈ shards.map ErasureShardEntry.shardIndex :=
      List.mem_map.mpr ⟨_, stored, rfl⟩
    simp [listed]
  · simp [own]

theorem upsertErasurePackShardsForPush_ok {shards : List ErasureShardEntry}
    {definition : ErasureDefinition}
    {chunks : List ErasureChunkEntry} {protectionState : ProtectionState} {lastPushAt : PyFloat}
    (upserted : before.upsertErasurePackShardsForPush packHash shards protectionState lastPushAt =
      .ok after)
    (layout : PackLayout definition chunks shards)
    (held : PackLayout definition chunks (before.getErasurePackShards packHash)) :
    ShardsWritten packHash shards before after ∧ after.getErasurePackShards packHash = shards := by
  rw [MetadataDB.upsertErasurePackShardsForPush] at upserted
  obtain ⟨middle, folded, removed⟩ := bind_eq_ok_iff.mp upserted
  have distinct : ((shards.map id).map ErasureShardEntry.shardIndex).Nodup := by
    rw [List.map_id, layout.indexes]
    exact List.nodup_range
  have written :=
    foldlM_shardsWritten id (fun _ _ _ => upsertErasurePackShard_written) distinct folded
  rw [List.map_id] at written
  have reads := written.read layout.numbered (layout.indexes_bounded held)
  split at removed
  · cases removed
    exact ⟨written, reads⟩
  · rw [filter_seenIndexes_eq_self reads] at removed
    cases removed
    exact ⟨written, reads⟩

/-- A push result keeps the chunks of the pack and replaces all its shard rows. -/
theorem applyErasureDataPackPushUpdate_ok {update : ErasureDataPackPushUpdate}
    (sound : before.ErasureSound)
    (applied : before.applyErasureDataPackPushUpdate update = .ok after) :
    ∃ packHash definition chunks shards, requireErasureDefinition update.toErasurePackArgs = .ok
      (packHash, definition) ∧
      requireErasureRows update.toErasurePackArgs definition = .ok (chunks, shards) ∧
      PackWritten packHash definition chunks shards before after := by
  rw [MetadataDB.applyErasureDataPackPushUpdate] at applied
  obtain ⟨⟨packHash, definition⟩, scalars, applied⟩ := bind_eq_ok_iff.mp applied
  rw [ensure_bind_eq_ok_iff] at applied
  obtain ⟨⟨chunks, shards⟩, rows, applied⟩ := bind_eq_ok_iff.mp applied.2
  have layout := requireErasureRows_layout rows
  cases stored : before.getErasureDataPack packHash with
  | none => simp [stored] at applied
  | some existing =>
      simp only [stored, ensure_bind_eq_ok_iff, decide_eq_true_eq] at applied
      obtain ⟨same, sameChunks, upserted⟩ := applied
      have held := sound.layout packHash existing stored
      rw [same, sameChunks] at held
      obtain ⟨written, reads⟩ := upsertErasurePackShardsForPush_ok upserted layout held
      have packs : after.erasureDataPacks =
          before.erasureDataPacks.set packHash (MetadataDB.pushedPackRow update existing) := by
            rw [written.rest]
      have chunkRows : after.erasurePackChunks = before.erasurePackChunks := by rw [written.rest]
      refine ⟨packHash, definition, chunks, shards, scalars, rows,
        ⟨MetadataDB.pushedPackRow update existing, ?_, same⟩, ?_, reads, ?_, ?_, ?_⟩
      · rw [MetadataDB.getErasureDataPack, packs]
        exact Dict.get?_set_self ..
      · rw [MetadataDB.getErasurePackChunks, chunkRows]
        exact sameChunks
      · intro other different
        rw [MetadataDB.getErasureDataPack, packs]
        exact Dict.get?_set_of_ne _ _ different
      · intro chunkHash row _
        rw [chunkRows]
      · intro key different
        refine written.others key ?_
        intro entry _ equal
        exact different (equal ▸ rfl)

theorem applyErasureDataPackPushError_sound {update : ErasureDataPackPushErrorUpdate}
    (sound : before.ErasureSound)
    (applied : before.applyErasureDataPackPushError update = .ok after) : after.ErasureSound := by
  rw [MetadataDB.applyErasureDataPackPushError] at applied
  obtain ⟨packHash, -, applied⟩ := bind_eq_ok_iff.mp applied
  obtain ⟨error, -, applied⟩ := bind_eq_ok_iff.mp applied
  cases stored : before.getErasureDataPack packHash with
  | none => simp [stored] at applied
  | some existing =>
      simp only [stored, pure_eq_ok_iff] at applied
      subst applied
      refine sound.evidence ?_ rfl fun _ => rfl
      intro other
      rw [MetadataDB.getErasureDataPack, Dict.get?_set]
      by_cases same : other = packHash
      · rw [if_pos same, same, stored]
        rfl
      · rw [if_neg same]
        rfl

theorem applyErasureDataPackVerificationUpdate_sound {verifiedAt : PyFloat}
    {update : ErasureDataPackVerificationUpdate} (sound : before.ErasureSound)
    (applied : MetadataDB.applyErasureDataPackVerificationUpdate verifiedAt before update =
      .ok after) :
    after.ErasureSound := by
  rw [MetadataDB.applyErasureDataPackVerificationUpdate] at applied
  obtain ⟨packHash, -, applied⟩ := bind_eq_ok_iff.mp applied
  rw [ensure_bind_eq_ok_iff] at applied
  obtain ⟨verifiedIndexes, -, applied⟩ := bind_eq_ok_iff.mp applied.2
  cases stored : before.getErasureDataPack packHash with
  | none => simp [stored] at applied
  | some existing =>
      simp only [stored, bind_eq_ok_iff, pure_eq_ok_iff] at applied
      obtain ⟨-, -, rfl⟩ := applied
      refine sound.evidence ?_ rfl ?_
      · intro other
        rw [MetadataDB.getErasureDataPack, Dict.get?_set]
        by_cases same : other = packHash
        · rw [if_pos same, same, stored]
          rfl
        · rw [if_neg same]
          rfl
      · intro key
        rw [Dict.get?_mapValues, Option.map_map]
        congr 1
        funext row
        simp only [Function.comp, MetadataDB.verifiedShardRow]
        split
        · split <;> rfl
        · rfl

theorem markErasureDataPackState_sound {rawHash : Text} {protectionState : ProtectionState}
    {placementEpoch error : Option Text} {now : PyFloat} (sound : before.ErasureSound)
    (marked : before.markErasureDataPackState rawHash protectionState placementEpoch error now =
      .ok after) :
    after.ErasureSound := by
  rw [MetadataDB.markErasureDataPackState] at marked
  obtain ⟨packHash, -, marked⟩ := bind_eq_ok_iff.mp marked
  cases pure_eq_ok_iff.mp marked
  refine sound.evidence ?_ rfl ?_
  · intro other
    rw [MetadataDB.getErasureDataPack, Dict.get?_adjust]
    by_cases same : other = packHash
    · rw [if_pos same, same, Option.map_map]
      rfl
    · rw [if_neg same]
      rfl
  · intro key
    rw [Dict.get?_mapValues, Option.map_map]
    congr 1
    funext row
    simp only [Function.comp]
    split <;> rfl

theorem applyErasureDataPackPushResultBatch_sound {pushUpdates : List ErasureDataPackPushUpdate}
    {errorUpdates : List ErasureDataPackPushErrorUpdate} (sound : before.ErasureSound)
    (applied : before.applyErasureDataPackPushResultBatch pushUpdates errorUpdates = .ok after) :
    after.ErasureSound := by
  obtain ⟨middle, pushes, errors⟩ := bind_eq_ok_iff.mp applied
  have halfway : middle.ErasureSound := by
    refine foldlM_invariant MetadataDB.ErasureSound ?_ sound pushes
    intro db update _ next held stepped
    obtain ⟨packHash, definition, chunks, shards, -, rows, written⟩ :=
      applyErasureDataPackPushUpdate_ok held stepped
    exact held.written (requireErasureRows_layout rows) written
  exact foldlM_invariant MetadataDB.ErasureSound
    (fun _ _ _ _ => applyErasureDataPackPushError_sound) halfway errors

end Calls

end Stopan.Metadata
