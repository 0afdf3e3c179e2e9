import Stopan.Objects.Codec

namespace Stopan.Objects

open Stopan.Lib Stopan.Common Stopan.Metadata Stopan.Protection

def fieldsOf : PyJson → Fields
  | .obj fields => fields
  | _ => []

/-- The fields as they are read from the canonical text. -/
def readBack (payload : PyJson) : Fields := Json.readFields (Json.ordered (fieldsOf payload))

/-- A payload with exactly the fields of its class. -/
structure Writes (allowed : List String) (payload : PyJson) : Prop where
  object : payload = .obj (fieldsOf payload)
  keys : (fieldsOf payload).map Prod.fst = allowed.map String.toList
  distinct : allowed.Nodup

namespace Writes

variable {allowed : List String} {payload : PyJson}

theorem keys_nodup (written : Writes allowed payload) :
    ((fieldsOf payload).map Prod.fst).Nodup := by
  rw [written.keys]
  exact written.distinct.map fun _ _ same => String.toList_injective same

/-- The payload as it is read from its canonical text. -/
theorem sorted (written : Writes allowed payload) : payload.sorted = .obj (readBack payload) := by
  rw [written.object, Json.sorted_obj]
  rfl

theorem opened (written : Writes allowed payload) (path : String) :
    dataclassFields path allowed payload.sorted = .ok (readBack payload) := by
  have none : ((readBack payload).map Prod.fst).filter
      (fun key => !(allowed.map String.toList).contains key) = [] := by
    rw [List.filter_eq_nil_iff]
    intro key member
    obtain ⟨field, inside, rfl⟩ := List.mem_map.mp member
    obtain ⟨original, origin, rfl⟩ := List.mem_map.mp inside
    have allowedKey := List.mem_map_of_mem (f := Prod.fst) (Json.mem_ordered.mp origin)
    rw [written.keys] at allowedKey
    simpa using allowedKey
  rw [written.sorted]
  simp only [dataclassFields, none]
  rfl

theorem named (written : Writes allowed payload) (index : Nat) {name : String} {value : PyJson}
    (position : (fieldsOf payload)[index]? = some (field name value)) :
    (fieldsOf payload).lookup name.toList = some value := by
  apply (lookup_eq_some_iff_mem written.keys_nodup).mpr
  exact List.mem_of_getElem? position

/-- The field at a position, as the decoder of the class finds it by name. -/
theorem found (written : Writes allowed payload) (index : Nat) {name : String} {value : PyJson}
    (position : (fieldsOf payload)[index]? = some (field name value)) :
    (readBack payload).lookup name.toList = some value.sorted := by
  rw [readBack, Json.lookup_readFields written.keys_nodup, written.named index position]
  rfl

theorem required (written : Writes allowed payload) (index : Nat) {name : String}
    {value : PyJson} {path : String}
    (position : (fieldsOf payload)[index]? = some (field name value)) :
    requiredField path (readBack payload) name = .ok value.sorted := by
  rw [requiredField, written.found index position]

theorem defaulted (written : Writes allowed payload) (index : Nat) {α : Type} {name : String}
    {value : PyJson} {default : α} {decode : PyJson → Checked α}
    (position : (fieldsOf payload)[index]? = some (field name value)) :
    defaultField (readBack payload) name default decode = decode value.sorted := by
  rw [defaultField, written.found index position]

theorem encodable (written : Writes allowed payload)
    (each : ∀ field ∈ fieldsOf payload, Encodable field.2) :
    Encodable payload := by
  rw [written.object]
  exact .obj written.keys_nodup each

end Writes

-- Not a `rfl` lemma: the kernel would unfold the rest of the block at every step.
@[simp] theorem bind_ok {α β : Type} (value : α) (next : α → Checked β) :
    ((.ok value : Checked α) >>= next) = next value := by
  simp only [bind, Except.bind]

@[simp] theorem map_ok {α β : Type} (change : α → β) (value : α) :
    change <$> (.ok value : Checked α) = .ok (change value) := rfl

@[simp] theorem sorted_natJson (value : Nat) : (natJson value).sorted = natJson value := rfl

@[simp] theorem sorted_str (text : Text) : (Json.str text : PyJson).sorted = .str text := rfl

@[simp] theorem sorted_number (value : PyNumber) : value.toJson.sorted = value.toJson := by
  cases value <;> rfl

@[simp] theorem sorted_optionalStr (text : Option Text) :
    (optionalJson Json.str text : PyJson).sorted = optionalJson .str text := by
  cases text <;> rfl

@[simp] theorem sorted_optionalNumber (value : Option PyNumber) :
    (optionalJson PyNumber.toJson value).sorted = optionalJson PyNumber.toJson value := by
  cases value with
  | none => rfl
  | some number => exact sorted_number number

@[simp] theorem str_encodable (text : Text) : Encodable (.str text) := .str text

@[simp] theorem natJson_encodable (value : Nat) : Encodable (natJson value) := .int value

@[simp] theorem number_encodable (value : PyNumber) : Encodable value.toJson := by
  cases value with
  | int value => exact .int value
  | float value finite => exact .float finite

@[simp] theorem optional_encodable {α : Type} {toJson : α → PyJson}
    (each : ∀ value, Encodable (toJson value)) (value : Option α) :
    Encodable (optionalJson toJson value) := by
  cases value with
  | none => exact .null
  | some value => exact each value

@[simp] theorem items_encodable {α : Type} {toJson : α → PyJson}
    (each : ∀ value, Encodable (toJson value)) (items : List α) :
    Encodable (.arr (items.map toJson)) := by
  apply Json.Formed.arr
  intro item member
  obtain ⟨value, -, rfl⟩ := List.mem_map.mp member
  exact each value

section Sequences

variable {α : Type} {toJson : α → PyJson} {decode : String → PyJson → Checked α}

theorem decodeItems_sorted {items : List α}
    (each : ∀ item ∈ items, ∀ path, decode path (toJson item).sorted = .ok item) (path : String)
    (index : Nat) :
    decodeItems decode path index ((items.map toJson).map Json.sorted) = .ok items := by
  induction items generalizing index with
  | nil => rfl
  | cons item rest ih =>
      have first := each item List.mem_cons_self s!"{path}[{index}]"
      have later := ih (fun other member => each other (List.mem_cons_of_mem _ member)) (index + 1)
      simp only [List.map_cons, decodeItems, first, later, bind_ok]
      rfl

theorem decodeTuple_sorted {items : List α}
    (each : ∀ item ∈ items, ∀ path, decode path (toJson item).sorted = .ok item)
    (path : String) : decodeTuple decode path (Json.arr (items.map toJson)).sorted = .ok items := by
  rw [Json.sorted_arr]
  exact decodeItems_sorted each path 0

theorem decodeOptional_sorted {value : Option α}
    (each : ∀ found ∈ value, ∀ path, decode path (toJson found).sorted = .ok found)
    (object : ∀ found ∈ value, ∃ fields, (toJson found).sorted = .obj fields) (path : String) :
    decodeOptional decode path (optionalJson toJson value).sorted = .ok value := by
  cases value with
  | none => rfl
  | some found =>
      obtain ⟨fields, shape⟩ := object found rfl
      have decoded := each found rfl path
      rw [shape] at decoded
      rw [optionalJson, shape]
      simp only [decodeOptional, decoded]

end Sequences

theorem ObjectRef.writes (ref : ObjectRef) : Writes ["object_type", "object_hash"] ref.toJson :=
  ⟨rfl, by simp [fieldsOf, ObjectRef.toJson, field], by simp⟩

def ObjectRef.Valid (ref : ObjectRef) : Prop :=
  ObjectRef.make ref.objectType (.str ref.objectHash) = .ok ref

theorem ObjectRef.valid_of_hash {ref : ObjectRef}
    (proper : isValidBlake3Hex ref.objectHash = true) : ref.Valid := by
  obtain ⟨length, digits⟩ := Bool.and_eq_true_iff.mp proper
  have total : ref.objectHash.length = 64 := eq_of_beq length
  have lower : isLowerHex 64 ref.objectHash = true := by
    rw [isLowerHex, digits, decide_eq_true total, Bool.and_true]
  have filled : ref.objectHash ≠ [] := by
    intro empty
    simp [empty] at total
  simp [ObjectRef.Valid, ObjectRef.make, requireHash64, requireStr, lower, filled, ensure, bind_ok]

theorem ObjectRef.decode_toJson {ref : ObjectRef} (valid : ref.Valid) (path : String) :
    ObjectRef.decode path ref.toJson.sorted = .ok ref := by
  have written := ref.writes
  rw [ObjectRef.decode, written.opened]
  simp only [bind_ok, written.required 0 rfl, written.required 1 rfl]
  simp only [sorted_str, decodeObjectType, MetadataObjectType.ofText?_value, bind_ok]
  exact valid

theorem ObjectRef.decodeOptional_toJson {ref : Option ObjectRef}
    (valid : ∀ found ∈ ref, found.Valid) (path : String) :
    decodeOptional ObjectRef.decode path (optionalJson ObjectRef.toJson ref).sorted = .ok ref :=
  decodeOptional_sorted (fun _ member path => decode_toJson (valid _ member) path)
    (fun _ _ => ⟨_, Json.sorted_obj _⟩) path

@[simp] theorem ObjectRef.encodable (ref : ObjectRef) : Encodable ref.toJson := by
  apply ref.writes.encodable
  simp [fieldsOf, ObjectRef.toJson, field]

theorem ChunkRef.writes (chunk : ChunkRef) : Writes ["order", "chunk_hash", "size"] chunk.toJson :=
  ⟨rfl, by simp [fieldsOf, ChunkRef.toJson, field], by simp⟩

def ChunkRef.Valid (chunk : ChunkRef) : Prop :=
  ChunkRef.make (natJson chunk.order) (.str chunk.chunkHash) (natJson chunk.size) = .ok chunk

theorem ChunkRef.decode_toJson {chunk : ChunkRef} (valid : chunk.Valid) (path : String) :
    ChunkRef.decode path chunk.toJson.sorted = .ok chunk := by
  have written := chunk.writes
  rw [ChunkRef.decode, written.opened]
  simp only [bind_ok, written.required 0 rfl, written.required 1 rfl, written.required 2 rfl]
  simpa [ChunkRef.Valid] using valid

@[simp] theorem ChunkRef.encodable (chunk : ChunkRef) : Encodable chunk.toJson := by
  apply chunk.writes.encodable
  simp [fieldsOf, ChunkRef.toJson, field]

theorem ChunkListObject.writes (object : ChunkListObject) : Writes ["chunks"] object.toJson :=
  ⟨rfl, by simp [fieldsOf, ChunkListObject.toJson, field], by simp⟩

structure ChunkListObject.Valid (object : ChunkListObject) : Prop where
  made : ChunkListObject.make object.chunks = .ok object
  chunks : ∀ chunk ∈ object.chunks, chunk.Valid

theorem ChunkListObject.decode_toJson {object : ChunkListObject}
    (valid : object.Valid) (path : String) :
    ChunkListObject.decode path object.toJson.sorted = .ok object := by
  have written := object.writes
  have chunks := decodeTuple_sorted fun chunk member path => ChunkRef.decode_toJson
    (valid.chunks chunk member) path
  rw [ChunkListObject.decode, written.opened]
  simp only [bind_ok, written.required 0 rfl]
  simpa [chunks] using valid.made

@[simp] theorem ChunkListObject.encodable (object : ChunkListObject) : Encodable object.toJson := by
  apply object.writes.encodable
  simp [fieldsOf, ChunkListObject.toJson, field]

theorem RecipeObject.writes (object : RecipeObject) :
    Writes ["recipe_hash", "chunk_count", "total_size", "chunk_list"] object.toJson :=
  ⟨rfl, by simp [fieldsOf, RecipeObject.toJson, field], by simp⟩

structure RecipeObject.Valid (object : RecipeObject) : Prop where
  made : RecipeObject.make (.str object.recipeHash) (natJson object.chunkCount)
    (natJson object.totalSize) object.chunkList = .ok object
  chunkList : object.chunkList.Valid

theorem RecipeObject.decode_toJson {object : RecipeObject} (valid : object.Valid) (path : String) :
    RecipeObject.decode path object.toJson.sorted = .ok object := by
  have written := object.writes
  have chunkList := fun path => ObjectRef.decode_toJson valid.chunkList path
  rw [RecipeObject.decode, written.opened]
  simp only [bind_ok, written.required 0 rfl, written.required 1 rfl, written.required 2 rfl,
    written.required 3 rfl]
  simpa [chunkList] using valid.made

@[simp] theorem RecipeObject.encodable (object : RecipeObject) : Encodable object.toJson := by
  apply object.writes.encodable
  simp [fieldsOf, RecipeObject.toJson, field]

theorem FileObject.writes (object : FileObject) :
    Writes ["size", "recipe_hash", "recipe"] object.toJson :=
  ⟨rfl, by simp [fieldsOf, FileObject.toJson, field], by simp⟩

structure FileObject.Valid (object : FileObject) : Prop where
  made : FileObject.make (natJson object.size) (.str object.recipeHash) object.recipe = .ok object
  recipe : object.recipe.Valid

theorem FileObject.decode_toJson {object : FileObject} (valid : object.Valid) (path : String) :
    FileObject.decode path object.toJson.sorted = .ok object := by
  have written := object.writes
  have recipe := fun path => ObjectRef.decode_toJson valid.recipe path
  rw [FileObject.decode, written.opened]
  simp only [bind_ok, written.required 0 rfl, written.required 1 rfl, written.required 2 rfl]
  simpa [recipe] using valid.made

@[simp] theorem FileObject.encodable (object : FileObject) : Encodable object.toJson := by
  apply object.writes.encodable
  simp [fieldsOf, FileObject.toJson, field]

theorem TreeEntry.writes (entry : TreeEntry) :
    Writes ["name", "item_type", "size", "mode", "mtime", "mtime_ns", "uid", "gid",
      "ref"] entry.toJson :=
  ⟨rfl, by simp [fieldsOf, TreeEntry.toJson, field], by simp⟩

structure TreeEntry.Valid (entry : TreeEntry) : Prop where
  made : TreeEntry.make (.str entry.name) (.str entry.itemType.text) (natJson entry.size)
    (natJson entry.mode)
    entry.mtime.toJson (natJson entry.mtimeNs) (natJson entry.uid)
      (natJson entry.gid) entry.ref = .ok entry
  ref : entry.ref.Valid

theorem TreeEntry.decode_toJson {entry : TreeEntry} (valid : entry.Valid) (path : String) :
    TreeEntry.decode path entry.toJson.sorted = .ok entry := by
  have written := entry.writes
  have ref := fun path => ObjectRef.decode_toJson valid.ref path
  rw [TreeEntry.decode, written.opened]
  simp only [bind_ok, written.required 0 rfl, written.required 1 rfl, written.required 2 rfl,
    written.required 3 rfl,
    written.required 4 rfl, written.required 5 rfl, written.required 6 rfl, written.required 7 rfl,
    written.required 8 rfl]
  simpa [ref] using valid.made

@[simp] theorem TreeEntry.encodable (entry : TreeEntry) : Encodable entry.toJson := by
  apply entry.writes.encodable
  simp [fieldsOf, TreeEntry.toJson, field]

theorem TreeObject.writes (object : TreeObject) : Writes ["entries"] object.toJson :=
  ⟨rfl, by simp [fieldsOf, TreeObject.toJson, field], by simp⟩

structure TreeObject.Valid (object : TreeObject) : Prop where
  made : TreeObject.make object.entries = .ok object
  entries : ∀ entry ∈ object.entries, entry.Valid

theorem TreeObject.decode_toJson {object : TreeObject} (valid : object.Valid) (path : String) :
    TreeObject.decode path object.toJson.sorted = .ok object := by
  have written := object.writes
  have entries := decodeTuple_sorted fun entry member path => TreeEntry.decode_toJson
    (valid.entries entry member) path
  rw [TreeObject.decode, written.opened]
  simp only [bind_ok, written.required 0 rfl]
  simpa [entries] using valid.made

@[simp] theorem TreeObject.encodable (object : TreeObject) : Encodable object.toJson := by
  apply object.writes.encodable
  simp [fieldsOf, TreeObject.toJson, field]

theorem SnapshotRootObject.writes (object : SnapshotRootObject) :
    Writes ["snapshot_uuid", "root_path", "origin_node_id", "created_at", "total_size",
      "total_files", "root_tree"] object.toJson :=
  ⟨rfl, by simp [fieldsOf, SnapshotRootObject.toJson, field], by simp⟩

structure SnapshotRootObject.Valid (object : SnapshotRootObject) : Prop where
  made : SnapshotRootObject.make (.str object.snapshotUuid) (.str object.rootPath)
    (.str object.originNodeId)
    (.str object.createdAt) (natJson object.totalSize)
      (natJson object.totalFiles) object.rootTree = .ok object
  rootTree : object.rootTree.Valid

theorem SnapshotRootObject.decode_toJson {object : SnapshotRootObject}
    (valid : object.Valid) (path : String) :
    SnapshotRootObject.decode path object.toJson.sorted = .ok object := by
  have written := object.writes
  have rootTree := fun path => ObjectRef.decode_toJson valid.rootTree path
  rw [SnapshotRootObject.decode, written.opened]
  simp only [bind_ok, written.required 0 rfl, written.required 1 rfl, written.required 2 rfl,
    written.required 3 rfl, written.required 4 rfl, written.required 5 rfl, written.required 6 rfl]
  simpa [rootTree] using valid.made

@[simp] theorem SnapshotRootObject.encodable (object : SnapshotRootObject) :
    Encodable object.toJson := by
  apply object.writes.encodable
  simp [fieldsOf, SnapshotRootObject.toJson, field]

theorem SnapshotIndexEntry.writes (entry : SnapshotIndexEntry) :
    Writes ["snapshot_uuid", "status", "root_path", "origin_node_id", "created_at",
      "total_size", "total_files", "snapshot_root", "error"] entry.toJson :=
  ⟨rfl, by simp [fieldsOf, SnapshotIndexEntry.toJson, field], by simp⟩

structure SnapshotIndexEntry.Valid (entry : SnapshotIndexEntry) : Prop where
  made : SnapshotIndexEntry.make (.str entry.snapshotUuid) (.str (snapshotStatusText entry.status))
    (.str entry.rootPath)
    (.str entry.originNodeId) (.str entry.createdAt) (natJson entry.totalSize)
      (natJson entry.totalFiles) entry.snapshotRoot
    (optionalJson .str entry.error) = .ok entry
  snapshotRoot : ∀ ref ∈ entry.snapshotRoot, ref.Valid

theorem SnapshotIndexEntry.decode_toJson {entry : SnapshotIndexEntry}
    (valid : entry.Valid) (path : String) :
    SnapshotIndexEntry.decode path entry.toJson.sorted = .ok entry := by
  have written := entry.writes
  have snapshotRoot := fun path => ObjectRef.decodeOptional_toJson valid.snapshotRoot path
  rw [SnapshotIndexEntry.decode, written.opened]
  simp only [bind_ok, written.required 0 rfl, written.required 1 rfl, written.required 2 rfl,
    written.required 3 rfl,
    written.required 4 rfl, written.required 5 rfl, written.required 6 rfl, written.defaulted 7 rfl,
    written.defaulted 8 rfl]
  simpa [snapshotRoot] using valid.made

@[simp] theorem SnapshotIndexEntry.encodable (entry : SnapshotIndexEntry) :
    Encodable entry.toJson := by
  apply entry.writes.encodable
  simp [fieldsOf, SnapshotIndexEntry.toJson, field]

theorem SnapshotIndexObject.writes (object : SnapshotIndexObject) :
    Writes ["snapshots"] object.toJson :=
  ⟨rfl, by simp [fieldsOf, SnapshotIndexObject.toJson, field], by simp⟩

structure SnapshotIndexObject.Valid (object : SnapshotIndexObject) : Prop where
  made : SnapshotIndexObject.make object.snapshots = .ok object
  snapshots : ∀ entry ∈ object.snapshots, entry.Valid

theorem SnapshotIndexObject.decode_toJson {object : SnapshotIndexObject}
    (valid : object.Valid) (path : String) :
    SnapshotIndexObject.decode path object.toJson.sorted = .ok object := by
  have written := object.writes
  have snapshots := decodeTuple_sorted fun entry member path => SnapshotIndexEntry.decode_toJson
    (valid.snapshots entry member) path
  rw [SnapshotIndexObject.decode, written.opened]
  simp only [bind_ok, written.required 0 rfl]
  simpa [snapshots] using valid.made

@[simp] theorem SnapshotIndexObject.encodable (object : SnapshotIndexObject) :
    Encodable object.toJson := by
  apply object.writes.encodable
  simp [fieldsOf, SnapshotIndexObject.toJson, field]

theorem KnownChunkRecord.writes (record : KnownChunkRecord) :
    Writes ["chunk_hash", "size"] record.toJson :=
  ⟨rfl, by simp [fieldsOf, KnownChunkRecord.toJson, field], by simp⟩

def KnownChunkRecord.Valid (record : KnownChunkRecord) : Prop :=
  KnownChunkRecord.make (.str record.chunkHash) (natJson record.size) = .ok record

theorem KnownChunkRecord.decode_toJson {record : KnownChunkRecord}
    (valid : record.Valid) (path : String) :
    KnownChunkRecord.decode path record.toJson.sorted = .ok record := by
  have written := record.writes
  rw [KnownChunkRecord.decode, written.opened]
  simp only [bind_ok, written.required 0 rfl, written.required 1 rfl]
  simpa [KnownChunkRecord.Valid] using valid

@[simp] theorem KnownChunkRecord.encodable (record : KnownChunkRecord) :
    Encodable record.toJson := by
  apply record.writes.encodable
  simp [fieldsOf, KnownChunkRecord.toJson, field]

theorem KnownChunkShardObject.writes (object : KnownChunkShardObject) :
    Writes ["prefix", "chunks"] object.toJson :=
  ⟨rfl, by simp [fieldsOf, KnownChunkShardObject.toJson, field], by simp⟩

structure KnownChunkShardObject.Valid (object : KnownChunkShardObject) : Prop where
  made : KnownChunkShardObject.make (.str object.hexPrefix) object.chunks = .ok object
  chunks : ∀ record ∈ object.chunks, record.Valid

theorem KnownChunkShardObject.decode_toJson {object : KnownChunkShardObject}
    (valid : object.Valid) (path : String) :
    KnownChunkShardObject.decode path object.toJson.sorted = .ok object := by
  have written := object.writes
  have chunks := decodeTuple_sorted fun record member path => KnownChunkRecord.decode_toJson
    (valid.chunks record member) path
  rw [KnownChunkShardObject.decode, written.opened]
  simp only [bind_ok, written.required 0 rfl, written.required 1 rfl]
  simpa [chunks] using valid.made

@[simp] theorem KnownChunkShardObject.encodable (object : KnownChunkShardObject) :
    Encodable object.toJson := by
  apply object.writes.encodable
  simp [fieldsOf, KnownChunkShardObject.toJson, field]

theorem IndexShardRef.writes (shard : IndexShardRef) :
    Writes ["prefix", "count", "ref"] shard.toJson :=
  ⟨rfl, by simp [fieldsOf, IndexShardRef.toJson, field], by simp⟩

structure IndexShardRef.Valid (shard : IndexShardRef) : Prop where
  made : IndexShardRef.make (.str shard.hexPrefix) (natJson shard.count) shard.ref = .ok shard
  ref : shard.ref.Valid

theorem IndexShardRef.decode_toJson {shard : IndexShardRef} (valid : shard.Valid) (path : String) :
    IndexShardRef.decode path shard.toJson.sorted = .ok shard := by
  have written := shard.writes
  have ref := fun path => ObjectRef.decode_toJson valid.ref path
  rw [IndexShardRef.decode, written.opened]
  simp only [bind_ok, written.required 0 rfl, written.required 1 rfl, written.required 2 rfl]
  simpa [ref] using valid.made

@[simp] theorem IndexShardRef.encodable (shard : IndexShardRef) : Encodable shard.toJson := by
  apply shard.writes.encodable
  simp [fieldsOf, IndexShardRef.toJson, field]

theorem KnownChunkIndexObject.writes (object : KnownChunkIndexObject) :
    Writes ["shards", "total_chunks"] object.toJson :=
  ⟨rfl, by simp [fieldsOf, KnownChunkIndexObject.toJson, field], by simp⟩

structure KnownChunkIndexObject.Valid (object : KnownChunkIndexObject) : Prop where
  made : KnownChunkIndexObject.make object.shards (natJson object.totalChunks) = .ok object
  shards : ∀ shard ∈ object.shards, shard.Valid

theorem KnownChunkIndexObject.decode_toJson {object : KnownChunkIndexObject}
    (valid : object.Valid) (path : String) :
    KnownChunkIndexObject.decode path object.toJson.sorted = .ok object := by
  have written := object.writes
  have shards := decodeTuple_sorted fun shard member path => IndexShardRef.decode_toJson
    (valid.shards shard member) path
  rw [KnownChunkIndexObject.decode, written.opened]
  simp only [bind_ok, written.required 0 rfl, written.required 1 rfl]
  simpa [shards] using valid.made

@[simp] theorem KnownChunkIndexObject.encodable (object : KnownChunkIndexObject) :
    Encodable object.toJson := by
  apply object.writes.encodable
  simp [fieldsOf, KnownChunkIndexObject.toJson, field]

theorem ProtectionRecordObject.writes (record : ProtectionRecordObject) :
    Writes ["chunk_hash", "desired_rf", "protection_state", "protected_remote_copies",
      "placement_epoch", "last_push_at", "last_verify_at", "last_error"] record.toJson :=
  ⟨rfl, by simp [fieldsOf, ProtectionRecordObject.toJson, field], by simp⟩

def ProtectionRecordObject.Valid (record : ProtectionRecordObject) : Prop :=
  ProtectionRecordObject.make (.str record.chunkHash) (natJson record.desiredRf)
    (.str (protectionStateText record.protectionState)) (natJson record.protectedRemoteCopies)
    (optionalJson .str record.placementEpoch) (optionalJson PyNumber.toJson record.lastPushAt)
    (optionalJson PyNumber.toJson record.lastVerifyAt)
      (optionalJson .str record.lastError) = .ok record

theorem ProtectionRecordObject.decode_toJson {record : ProtectionRecordObject}
    (valid : record.Valid) (path : String) :
    ProtectionRecordObject.decode path record.toJson.sorted = .ok record := by
  have written := record.writes
  rw [ProtectionRecordObject.decode, written.opened]
  simp only [bind_ok, written.required 0 rfl, written.required 1 rfl, written.required 2 rfl,
    written.required 3 rfl,
    written.required 4 rfl, written.required 5 rfl, written.required 6 rfl, written.required 7 rfl]
  simpa [ProtectionRecordObject.Valid] using valid

@[simp] theorem ProtectionRecordObject.encodable (record : ProtectionRecordObject) :
    Encodable record.toJson := by
  apply record.writes.encodable
  simp [fieldsOf, ProtectionRecordObject.toJson, field]

theorem ProtectionShardObject.writes (object : ProtectionShardObject) :
    Writes ["prefix", "records"] object.toJson :=
  ⟨rfl, by simp [fieldsOf, ProtectionShardObject.toJson, field], by simp⟩

structure ProtectionShardObject.Valid (object : ProtectionShardObject) : Prop where
  made : ProtectionShardObject.make (.str object.hexPrefix) object.records = .ok object
  records : ∀ record ∈ object.records, record.Valid

theorem ProtectionShardObject.decode_toJson {object : ProtectionShardObject}
    (valid : object.Valid) (path : String) :
    ProtectionShardObject.decode path object.toJson.sorted = .ok object := by
  have written := object.writes
  have records := decodeTuple_sorted fun record member path => ProtectionRecordObject.decode_toJson
    (valid.records record member) path
  rw [ProtectionShardObject.decode, written.opened]
  simp only [bind_ok, written.required 0 rfl, written.required 1 rfl]
  simpa [records] using valid.made

@[simp] theorem ProtectionShardObject.encodable (object : ProtectionShardObject) :
    Encodable object.toJson := by
  apply object.writes.encodable
  simp [fieldsOf, ProtectionShardObject.toJson, field]

theorem ProtectionIndexObject.writes (object : ProtectionIndexObject) :
    Writes ["shards", "total_records"] object.toJson :=
  ⟨rfl, by simp [fieldsOf, ProtectionIndexObject.toJson, field], by simp⟩

structure ProtectionIndexObject.Valid (object : ProtectionIndexObject) : Prop where
  made : ProtectionIndexObject.make object.shards (natJson object.totalRecords) = .ok object
  shards : ∀ shard ∈ object.shards, shard.Valid

theorem ProtectionIndexObject.decode_toJson {object : ProtectionIndexObject}
    (valid : object.Valid) (path : String) :
    ProtectionIndexObject.decode path object.toJson.sorted = .ok object := by
  have written := object.writes
  have shards := decodeTuple_sorted fun shard member path => IndexShardRef.decode_toJson
    (valid.shards shard member) path
  rw [ProtectionIndexObject.decode, written.opened]
  simp only [bind_ok, written.required 0 rfl, written.required 1 rfl]
  simpa [shards] using valid.made

@[simp] theorem ProtectionIndexObject.encodable (object : ProtectionIndexObject) :
    Encodable object.toJson := by
  apply object.writes.encodable
  simp [fieldsOf, ProtectionIndexObject.toJson, field]

theorem ErasureDataPackChunkObject.writes (chunk : ErasureDataPackChunkObject) :
    Writes ["chunk_hash", "offset", "length", "ordinal"] chunk.toJson :=
  ⟨rfl, by simp [fieldsOf, ErasureDataPackChunkObject.toJson, field], by simp⟩

def ErasureDataPackChunkObject.Valid (chunk : ErasureDataPackChunkObject) : Prop :=
  ErasureDataPackChunkObject.make (.str chunk.chunkHash) (natJson chunk.offset)
    (natJson chunk.length)
    (natJson chunk.ordinal) = .ok chunk

theorem ErasureDataPackChunkObject.decode_toJson {chunk : ErasureDataPackChunkObject}
    (valid : chunk.Valid) (path : String) :
    ErasureDataPackChunkObject.decode path chunk.toJson.sorted = .ok chunk := by
  have written := chunk.writes
  rw [ErasureDataPackChunkObject.decode, written.opened]
  simp only [bind_ok, written.required 0 rfl, written.required 1 rfl, written.required 2 rfl,
    written.required 3 rfl]
  simpa [ErasureDataPackChunkObject.Valid] using valid

@[simp] theorem ErasureDataPackChunkObject.encodable (chunk : ErasureDataPackChunkObject) :
    Encodable chunk.toJson := by
  apply chunk.writes.encodable
  simp [fieldsOf, ErasureDataPackChunkObject.toJson, field]

theorem ErasureDataPackShardPlacementObject.writes (shard : ErasureDataPackShardPlacementObject) :
    Writes ["shard_index", "shard_hash", "node_id", "size", "protection_state",
      "last_push_at", "last_verify_at", "last_error"] shard.toJson :=
  ⟨rfl, by simp [fieldsOf, ErasureDataPackShardPlacementObject.toJson, field], by simp⟩

def ErasureDataPackShardPlacementObject.Valid
    (shard : ErasureDataPackShardPlacementObject) : Prop :=
  ErasureDataPackShardPlacementObject.make (natJson shard.shardIndex)
    (.str shard.shardHash) (.str shard.nodeId)
    (natJson shard.size) (.str (protectionStateText shard.protectionState))
      (optionalJson PyNumber.toJson shard.lastPushAt)
    (optionalJson PyNumber.toJson shard.lastVerifyAt)
      (optionalJson .str shard.lastError) = .ok shard

theorem ErasureDataPackShardPlacementObject.decode_toJson
    {shard : ErasureDataPackShardPlacementObject} (valid : shard.Valid) (path : String) :
    ErasureDataPackShardPlacementObject.decode path shard.toJson.sorted = .ok shard := by
  have written := shard.writes
  rw [ErasureDataPackShardPlacementObject.decode, written.opened]
  simp only [bind_ok, written.required 0 rfl, written.required 1 rfl, written.required 2 rfl,
    written.required 3 rfl,
    written.required 4 rfl, written.required 5 rfl, written.required 6 rfl, written.required 7 rfl]
  simpa [ErasureDataPackShardPlacementObject.Valid] using valid

@[simp] theorem ErasureDataPackShardPlacementObject.encodable
    (shard : ErasureDataPackShardPlacementObject) : Encodable shard.toJson := by
  apply shard.writes.encodable
  simp [fieldsOf, ErasureDataPackShardPlacementObject.toJson, field]

theorem ErasureDataPackRecordObject.writes (record : ErasureDataPackRecordObject) :
    Writes ["pack_hash", "codec", "data_shards", "parity_shards", "payload_size",
      "padded_size", "shard_size",
      "protection_state", "placement_epoch", "created_at", "last_push_at", "last_verify_at",
      "last_error", "chunks", "shards"] record.toJson :=
  ⟨rfl, by simp [fieldsOf, ErasureDataPackRecordObject.toJson, field], by simp⟩

structure ErasureDataPackRecordObject.Valid (record : ErasureDataPackRecordObject) : Prop where
  made : ErasureDataPackRecordObject.make (.str record.packHash) (.str record.codec)
    (natJson record.dataShards)
    (natJson record.parityShards) (natJson record.payloadSize) (natJson record.paddedSize)
      (natJson record.shardSize)
    (.str (protectionStateText record.protectionState))
      (optionalJson .str record.placementEpoch) record.createdAt.toJson
    (optionalJson PyNumber.toJson record.lastPushAt)
      (optionalJson PyNumber.toJson record.lastVerifyAt)
    (optionalJson .str record.lastError) record.chunks record.shards = .ok record
  chunks : ∀ chunk ∈ record.chunks, chunk.Valid
  shards : ∀ shard ∈ record.shards, shard.Valid

theorem ErasureDataPackRecordObject.decode_toJson {record : ErasureDataPackRecordObject}
    (valid : record.Valid) (path : String) :
    ErasureDataPackRecordObject.decode path record.toJson.sorted = .ok record := by
  have written := record.writes
  have chunks := decodeTuple_sorted fun chunk member path =>
    ErasureDataPackChunkObject.decode_toJson (valid.chunks chunk member) path
  have shards := decodeTuple_sorted fun shard member path =>
    ErasureDataPackShardPlacementObject.decode_toJson (valid.shards shard member) path
  rw [ErasureDataPackRecordObject.decode, written.opened]
  simp only [bind_ok, written.required 0 rfl, written.required 1 rfl, written.required 2 rfl,
    written.required 3 rfl,
    written.required 4 rfl, written.required 5 rfl, written.required 6 rfl, written.required 7 rfl,
    written.required 8 rfl, written.required 9 rfl, written.required 10 rfl,
    written.required 11 rfl,
    written.required 12 rfl, written.required 13 rfl, written.required 14 rfl]
  simpa [chunks, shards] using valid.made

@[simp] theorem ErasureDataPackRecordObject.encodable (record : ErasureDataPackRecordObject) :
    Encodable record.toJson := by
  apply record.writes.encodable
  simp [fieldsOf, ErasureDataPackRecordObject.toJson, field]

theorem ErasureDataPackShardObject.writes (object : ErasureDataPackShardObject) :
    Writes ["prefix", "records"] object.toJson :=
  ⟨rfl, by simp [fieldsOf, ErasureDataPackShardObject.toJson, field], by simp⟩

structure ErasureDataPackShardObject.Valid (object : ErasureDataPackShardObject) : Prop where
  made : ErasureDataPackShardObject.make (.str object.hexPrefix) object.records = .ok object
  records : ∀ record ∈ object.records, record.Valid

theorem ErasureDataPackShardObject.decode_toJson {object : ErasureDataPackShardObject}
    (valid : object.Valid) (path : String) :
    ErasureDataPackShardObject.decode path object.toJson.sorted = .ok object := by
  have written := object.writes
  have records := decodeTuple_sorted fun record member path =>
    ErasureDataPackRecordObject.decode_toJson (valid.records record member) path
  rw [ErasureDataPackShardObject.decode, written.opened]
  simp only [bind_ok, written.required 0 rfl, written.required 1 rfl]
  simpa [records] using valid.made

@[simp] theorem ErasureDataPackShardObject.encodable (object : ErasureDataPackShardObject) :
    Encodable object.toJson := by
  apply object.writes.encodable
  simp [fieldsOf, ErasureDataPackShardObject.toJson, field]

theorem ErasureDataPackIndexObject.writes (object : ErasureDataPackIndexObject) :
    Writes ["shards", "total_packs", "total_chunks", "total_shards"] object.toJson :=
  ⟨rfl, by simp [fieldsOf, ErasureDataPackIndexObject.toJson, field], by simp⟩

structure ErasureDataPackIndexObject.Valid (object : ErasureDataPackIndexObject) : Prop where
  made : ErasureDataPackIndexObject.make object.shards (natJson object.totalPacks)
    (natJson object.totalChunks)
    (natJson object.totalShards) = .ok object
  shards : ∀ shard ∈ object.shards, shard.Valid

theorem ErasureDataPackIndexObject.decode_toJson {object : ErasureDataPackIndexObject}
    (valid : object.Valid) (path : String) :
    ErasureDataPackIndexObject.decode path object.toJson.sorted = .ok object := by
  have written := object.writes
  have shards := decodeTuple_sorted fun shard member path => IndexShardRef.decode_toJson
    (valid.shards shard member) path
  rw [ErasureDataPackIndexObject.decode, written.opened]
  simp only [bind_ok, written.required 0 rfl, written.required 1 rfl, written.required 2 rfl,
    written.required 3 rfl]
  simpa [shards] using valid.made

@[simp] theorem ErasureDataPackIndexObject.encodable (object : ErasureDataPackIndexObject) :
    Encodable object.toJson := by
  apply object.writes.encodable
  simp [fieldsOf, ErasureDataPackIndexObject.toJson, field]

theorem CatalogObject.writes (object : CatalogObject) :
    Writes ["vault_id", "snapshot_index", "known_chunk_index", "protection_index", "snapshot_count",
      "known_chunk_count",
      "protection_record_count", "erasure_data_pack_index", "erasure_data_pack_count",
      "erasure_data_pack_chunk_count", "erasure_data_pack_shard_count"] object.toJson :=
  ⟨rfl, by simp [fieldsOf, CatalogObject.toJson, field], by simp⟩

structure CatalogObject.Valid (object : CatalogObject) : Prop where
  made : CatalogObject.make
    (.str object.vaultId) object.snapshotIndex object.knownChunkIndex object.protectionIndex
    (natJson object.snapshotCount) (natJson object.knownChunkCount)
      (natJson object.protectionRecordCount)
    object.erasureDataPackIndex (natJson object.erasureDataPackCount)
      (natJson object.erasureDataPackChunkCount)
    (natJson object.erasureDataPackShardCount) = .ok object
  snapshotIndex : object.snapshotIndex.Valid
  knownChunkIndex : object.knownChunkIndex.Valid
  protectionIndex : ∀ ref ∈ object.protectionIndex, ref.Valid
  erasureDataPackIndex : ∀ ref ∈ object.erasureDataPackIndex, ref.Valid

theorem CatalogObject.decode_toJson {object : CatalogObject}
    (valid : object.Valid) (path : String) :
    CatalogObject.decode path object.toJson.sorted = .ok object := by
  have written := object.writes
  have snapshotIndex := fun path => ObjectRef.decode_toJson valid.snapshotIndex path
  have knownChunkIndex := fun path => ObjectRef.decode_toJson valid.knownChunkIndex path
  have protectionIndex := fun path => ObjectRef.decodeOptional_toJson valid.protectionIndex path
  have erasureDataPackIndex :=
    fun path => ObjectRef.decodeOptional_toJson valid.erasureDataPackIndex path
  rw [CatalogObject.decode, written.opened]
  simp only [bind_ok, written.required 0 rfl, written.required 1 rfl, written.required 2 rfl,
    written.required 3 rfl,
    written.required 4 rfl, written.required 5 rfl, written.required 6 rfl, written.defaulted 7 rfl,
    written.defaulted 8 rfl, written.defaulted 9 rfl, written.defaulted 10 rfl]
  simpa [snapshotIndex, knownChunkIndex, protectionIndex, erasureDataPackIndex] using valid.made

@[simp] theorem CatalogObject.encodable (object : CatalogObject) : Encodable object.toJson := by
  apply object.writes.encodable
  simp [fieldsOf, CatalogObject.toJson, field]

/-- The constructor of the class accepts the object. -/
def MetadataPlainObject.Valid : MetadataPlainObject → Prop
  | .catalog object => object.Valid
  | .snapshotIndex object => object.Valid
  | .snapshotRoot object => object.Valid
  | .tree object => object.Valid
  | .file object => object.Valid
  | .recipe object => object.Valid
  | .chunkList object => object.Valid
  | .knownChunkIndex object => object.Valid
  | .knownChunkShard object => object.Valid
  | .protectionIndex object => object.Valid
  | .protectionShard object => object.Valid
  | .erasureDataPackIndex object => object.Valid
  | .erasureDataPackShard object => object.Valid

theorem decodeModel_objectPayload {object : MetadataPlainObject} (valid : object.Valid) :
    decodeModel object.objectType (objectPayload object).sorted = .ok object := by
  cases object with
  | catalog object =>
      have decoded := CatalogObject.decode_toJson (show object.Valid from valid)
        (MetadataObjectType.name .catalog)
      simp only [decodeModel, MetadataPlainObject.objectType, objectPayload, decoded, map_ok]
  | snapshotIndex object =>
      have decoded := SnapshotIndexObject.decode_toJson (show object.Valid from valid)
        (MetadataObjectType.name .snapshotIndex)
      simp only [decodeModel, MetadataPlainObject.objectType, objectPayload, decoded, map_ok]
  | snapshotRoot object =>
      have decoded := SnapshotRootObject.decode_toJson (show object.Valid from valid)
        (MetadataObjectType.name .snapshotRoot)
      simp only [decodeModel, MetadataPlainObject.objectType, objectPayload, decoded, map_ok]
  | tree object =>
      have decoded :=
        TreeObject.decode_toJson (show object.Valid from valid) (MetadataObjectType.name .tree)
      simp only [decodeModel, MetadataPlainObject.objectType, objectPayload, decoded, map_ok]
  | file object =>
      have decoded :=
        FileObject.decode_toJson (show object.Valid from valid) (MetadataObjectType.name .file)
      simp only [decodeModel, MetadataPlainObject.objectType, objectPayload, decoded, map_ok]
  | recipe object =>
      have decoded := RecipeObject.decode_toJson (show object.Valid from valid)
        (MetadataObjectType.name .recipe)
      simp only [decodeModel, MetadataPlainObject.objectType, objectPayload, decoded, map_ok]
  | chunkList object =>
      have decoded := ChunkListObject.decode_toJson (show object.Valid from valid)
        (MetadataObjectType.name .chunkList)
      simp only [decodeModel, MetadataPlainObject.objectType, objectPayload, decoded, map_ok]
  | knownChunkIndex object =>
      have decoded := KnownChunkIndexObject.decode_toJson (show object.Valid from valid)
        (MetadataObjectType.name .knownChunkIndex)
      simp only [decodeModel, MetadataPlainObject.objectType, objectPayload, decoded, map_ok]
  | knownChunkShard object =>
      have decoded := KnownChunkShardObject.decode_toJson (show object.Valid from valid)
        (MetadataObjectType.name .knownChunkShard)
      simp only [decodeModel, MetadataPlainObject.objectType, objectPayload, decoded, map_ok]
  | protectionIndex object =>
      have decoded := ProtectionIndexObject.decode_toJson (show object.Valid from valid)
        (MetadataObjectType.name .protectionIndex)
      simp only [decodeModel, MetadataPlainObject.objectType, objectPayload, decoded, map_ok]
  | protectionShard object =>
      have decoded := ProtectionShardObject.decode_toJson (show object.Valid from valid)
        (MetadataObjectType.name .protectionShard)
      simp only [decodeModel, MetadataPlainObject.objectType, objectPayload, decoded, map_ok]
  | erasureDataPackIndex object =>
      have decoded := ErasureDataPackIndexObject.decode_toJson (show object.Valid from valid)
        (MetadataObjectType.name .erasureDataPackIndex)
      simp only [decodeModel, MetadataPlainObject.objectType, objectPayload, decoded, map_ok]
  | erasureDataPackShard object =>
      have decoded := ErasureDataPackShardObject.decode_toJson (show object.Valid from valid)
        (MetadataObjectType.name .erasureDataPackShard)
      simp only [decodeModel, MetadataPlainObject.objectType, objectPayload, decoded, map_ok]

/-- An object is rebuilt from its payload as it is read from the canonical text. -/
theorem decodeMetadataObjectPayload_objectPayload {object : MetadataPlainObject}
    (valid : object.Valid) :
    decodeMetadataObjectPayload object.objectType (objectPayload object).sorted = .ok object := by
  have again := Json.sorted_sorted (objectPayload object)
  simp [decodeMetadataObjectPayload, decodeModel_objectPayload valid, again, ensure]

@[simp] theorem objectPayload_encodable (object : MetadataPlainObject) :
    Encodable (objectPayload object) := by
  cases object <;> simp [objectPayload]

end Stopan.Objects
