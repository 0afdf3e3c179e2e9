import Stopan.Packs.Payload

/-!
The payload that `pack_payload` writes is the one that `parse_pack_payload` accepts.
-/

namespace Stopan.Packs

open Stopan.Lib Stopan.Common Stopan.Objects

variable {blake3 : Blake3} {catalogHash : Text} {object : MetadataPlainObject}

def hashOf (blake3 : Blake3) (object : MetadataPlainObject) : Text :=
  blake3HexDigest blake3 (canonicalObjectBytes object)

/-- The entry that `pack_payload` writes for an object. -/
def entryOf (blake3 : Blake3) (object : MetadataPlainObject) : PyJson :=
  packEntry (hashOf blake3 object) object.objectType (canonicalObjectBytes object)

def encodedOf (blake3 : Blake3) (object : MetadataPlainObject) : EncodedMetadataObject where
  objectType := object.objectType
  objectHash := hashOf blake3 object
  canonicalBytes := canonicalObjectBytes object

def validatedOf (object : MetadataPlainObject) : ValidatedPackObject where
  objectType := object.objectType
  payload := (objectPayload object).sorted
  canonicalBytes := (canonicalObjectBytes object).length

theorem entryOf_writes (blake3 : Blake3) (object : MetadataPlainObject) :
    Writes ["object_hash", "object_type", "canonical_b64", "canonical_bytes"]
      (entryOf blake3 object) :=
  ⟨rfl, by simp [fieldsOf, entryOf, packEntry, field], by simp⟩

theorem fieldOrNone_readBack {allowed : List String} {payload : PyJson}
    (written : Writes allowed payload) (index : Nat) {name : String} {value : PyJson}
    (position : (fieldsOf payload)[index]? = some (field name value)) :
    fieldOrNone (readBack payload) name = value.sorted := by
  rw [fieldOrNone, written.found index position]
  rfl

/-- An entry that was written for a valid object is accepted, unless its hash came before. -/
theorem parseEntry_entryOf {index : Nat} {state : EntriesState} {vaultId : Option Text}
    (valid : object.Valid) (new : state.validated.get? (hashOf blake3 object) = none)
    (named : catalogVaultIdOf catalogHash (hashOf blake3 object)
      (object.objectType, (objectPayload object).sorted) state.catalogVaultId = .ok vaultId) :
    parseEntry blake3 catalogHash index (entryOf blake3 object).sorted state = .ok {
      catalogVaultId := vaultId
      validated := state.validated.set (hashOf blake3 object) (validatedOf object)
      objects := encodedOf blake3 object :: state.objects } := by
  have written := entryOf_writes blake3 object
  have hash : ∀ name, requireMetadataHash name (.str (hashOf blake3 object)) =
      .ok (hashOf blake3 object) := by
    intro name
    simp [requireMetadataHash, hashOf, blake3HexDigest_valid, ensure]
  have fresh : state.validated.contains (hashOf blake3 object) = false := by
    rw [Dict.contains, new]
    rfl
  have canonical : ∀ name, b64decode name (some (b64encode (canonicalObjectBytes object))) =
      .ok (canonicalObjectBytes object) := by
    intro name
    simp only [b64decode, b64encode, Base64.decode_encode]
  have decoded := @decodeObjectEnvelope_canonicalObjectBytes blake3 _ valid
    (some (hashOf blake3 object)) (by simp [hashOf])
  have size : ∀ name, requireNonNegativeInt name (natJson (canonicalObjectBytes object).length) =
      .ok (canonicalObjectBytes object).length := by
    intro name
    simp [requireNonNegativeInt, natJson, ensure]
  rw [written.sorted, parseEntry]
  simp only [fieldOrNone_readBack written 0 rfl, fieldOrNone_readBack written 3 rfl,
    written.found 1 rfl, written.found 2 rfl, sorted_str, sorted_natJson, sorted_b64encode, hash,
    bind_ok, fresh, Bool.not_false, ensure, if_true, envelopeType?,
    MetadataObjectType.ofText?_value, canonical, decoded, decide_true, named, size]
  rfl

/-- The hash of the catalog belongs to a catalog of the vault. -/
def NamesVault (blake3 : Blake3) (catalogHash vaultId : Text)
    (objects : List MetadataPlainObject) : Prop :=
  ∀ object ∈ objects, hashOf blake3 object = catalogHash →
    ∃ catalog, object = .catalog catalog ∧ catalog.vaultId = vaultId

theorem catalogVaultIdOf_eq {vaultId : Text} {previous : Option Text}
    (proper : isLowerHex 32 vaultId = true)
    (named : hashOf blake3 object = catalogHash →
      ∃ catalog, object = .catalog catalog ∧ catalog.vaultId = vaultId) :
    catalogVaultIdOf catalogHash (hashOf blake3 object)
      (object.objectType, (objectPayload object).sorted) previous =
      .ok (if hashOf blake3 object = catalogHash then some vaultId else previous) := by
  by_cases own : hashOf blake3 object = catalogHash
  · obtain ⟨catalog, rfl, rfl⟩ := named own
    have shown := fieldOrNone_readBack catalog.writes 0 rfl
    rw [if_pos own, catalogVaultIdOf, if_pos ⟨rfl, own⟩, objectPayload, catalog.writes.sorted,
      fieldsOf, shown, sorted_str]
    simp [requirePackVaultId, proper, ensure]
  · rw [if_neg own, catalogVaultIdOf, if_neg fun both => own both.2]

/-- What the entries that were written for valid objects leave. -/
theorem parseEntries_entriesOf {vaultId : Text} (proper : isLowerHex 32 vaultId = true)
    (index : Nat)
    {objects : List MetadataPlainObject} (valid : ∀ object ∈ objects, object.Valid)
    (named : NamesVault blake3 catalogHash vaultId objects) (state : EntriesState)
    (distinct : (objects.map (hashOf blake3)).Nodup)
    (new : ∀ object ∈ objects, state.validated.get? (hashOf blake3 object) = none) :
    parseEntries blake3 catalogHash index (objects.map fun object => (entryOf blake3 object).sorted)
      state = .ok {
        catalogVaultId := if catalogHash ∈ objects.map (hashOf blake3) then some vaultId
          else state.catalogVaultId
        validated := objects.foldl (fun found object =>
          found.set (hashOf blake3 object) (validatedOf object)) state.validated
        objects := (objects.map (encodedOf blake3)).reverse ++ state.objects } := by
  induction objects generalizing index state with
  | nil => rfl
  | cons object rest ih =>
      simp only [List.map_cons, List.nodup_cons] at distinct
      have first := @parseEntry_entryOf blake3 catalogHash object index state _
        (valid object List.mem_cons_self) (new object List.mem_cons_self)
        (catalogVaultIdOf_eq proper (named object List.mem_cons_self))
      rw [List.map_cons, parseEntries, first, bind_ok, ih _
        (fun other member => valid other (List.mem_cons_of_mem _ member))
        (fun other member => named other (List.mem_cons_of_mem _ member)) _ distinct.2]
      · simp only [List.map_cons, List.mem_cons, List.foldl_cons, List.reverse_cons,
          List.append_assoc, List.singleton_append]
        congr 2
        by_cases later : catalogHash ∈ rest.map (hashOf blake3)
        · simp [later]
        · by_cases own : hashOf blake3 object = catalogHash
          · simp [later, own]
          · simp [later, own, Ne.symm own]
      · intro other member
        have different : hashOf blake3 other ≠ hashOf blake3 object :=
          fun same => distinct.1 (List.mem_map.mpr ⟨other, member, same⟩)
        rw [Dict.get?_set_of_ne _ _ different]
        exact new other (List.mem_cons_of_mem _ member)

theorem requireNonNegativeInt_natJson (name : String) (value : Nat) :
    requireNonNegativeInt name (natJson value) = .ok value := by
  simp [requireNonNegativeInt, natJson, ensure]

theorem requireMetadataHash_valid (name : String) {hash : Text}
    (valid : isValidBlake3Hex hash = true) : requireMetadataHash name (.str hash) = .ok hash := by
  simp [requireMetadataHash, valid, ensure]

/-- The section `latest`. -/
def latestSection (latest : LatestMetadataPointer) : PyJson :=
  .obj [field "catalog_hash" (.str latest.catalogHash),
    field "state_digest" (.str latest.stateDigest),
    field "object_count" (natJson latest.objectCount),
    field "total_canonical_bytes" (natJson latest.totalCanonicalBytes),
    field "snapshot_count" (natJson latest.snapshotCount),
    field "known_chunk_count" (natJson latest.knownChunkCount),
    field "protection_record_count" (natJson latest.protectionRecordCount)]

theorem latestSection_writes (latest : LatestMetadataPointer) :
    Writes ["catalog_hash", "state_digest", "object_count", "total_canonical_bytes",
      "snapshot_count", "known_chunk_count", "protection_record_count"] (latestSection latest) :=
  ⟨rfl, by simp [fieldsOf, latestSection, field], by simp⟩

theorem parseLatest_latestSection (latest : LatestMetadataPointer) :
    parseLatest latest.vaultId (readBack (latestSection latest)) = .ok latest := by
  have written := latestSection_writes latest
  rw [parseLatest]
  simp only [fieldOrNone_readBack written 0 rfl, fieldOrNone_readBack written 1 rfl,
    fieldOrNone_readBack written 2 rfl, fieldOrNone_readBack written 3 rfl,
    fieldOrNone_readBack written 4 rfl, fieldOrNone_readBack written 5 rfl,
    fieldOrNone_readBack written 6 rfl, sorted_str, sorted_natJson, bind_ok,
    requireNonNegativeInt_natJson, requireMetadataHash_valid _ latest.catalog_valid,
    requireMetadataHash_valid _ latest.digest_valid]
  simp [makePointer, latest.vault_valid, latest.catalog_valid, latest.digest_valid, ensure]

/-- The section `vault`. -/
def vaultSection (vaultId : Text) (generation : Nat) (createdAt : PyFloat) : PyJson :=
  .obj [field "id" (.str vaultId), field "generation" (natJson generation),
    field "created_at_unix" (.float createdAt)]

/-- A time that a pack can have been created at. -/
def IsCreationTime (createdAt : PyFloat) : Prop :=
  (createdAt.isFinite && !createdAt.negative && decide (createdAt.pattern ≠ 0)) = true

/-- What `pack_payload` writes beside the objects is read back. -/
theorem parsePackPayloadBase_readBack {latest : LatestMetadataPointer} {generation : Nat}
    {createdAt : PyFloat} {entries : List PyJson} (proper : isLowerHex 32 latest.vaultId = true)
    (positive : 0 < generation) (clock : IsCreationTime createdAt)
    (count : entries.length = latest.objectCount) :
    parsePackPayloadBase
      (readBack (packPayloadJson latest latest.vaultId generation createdAt entries)) = .ok {
        vaultId := latest.vaultId
        latest
        entries := entries.map Json.sorted
        vaultGeneration := generation
        packCreatedAtUnix := createdAt } := by
  have written : Writes ["format", "version", "vault", "latest", "objects"]
      (packPayloadJson latest latest.vaultId generation createdAt entries) :=
    ⟨rfl, by simp [fieldsOf, packPayloadJson, field], by simp⟩
  have vault : Writes ["id", "generation", "created_at_unix"]
      (vaultSection latest.vaultId generation createdAt) :=
    ⟨rfl, by simp [fieldsOf, vaultSection, field], by simp⟩
  have vaultFound : (readBack (packPayloadJson latest latest.vaultId generation createdAt
      entries)).lookup "vault".toList =
        some (vaultSection latest.vaultId generation createdAt).sorted := written.found 2 rfl
  have latestFound : (readBack (packPayloadJson latest latest.vaultId generation createdAt
      entries)).lookup "latest".toList = some (latestSection latest).sorted := written.found 3 rfl
  have vaultId : ∀ name, requirePackVaultId name (.str latest.vaultId) = .ok latest.vaultId := by
    simp [requirePackVaultId, proper, ensure]
  have number : ∀ name, requirePositiveInt name (natJson generation) = .ok generation := by
    simp [requirePositiveInt, requireNonNegativeInt_natJson, positive, ensure]
  have created : ∀ name, requirePositiveFloat name (Json.float createdAt : PyJson).sorted =
      .ok createdAt := by
    intro name
    simp only [Json.sorted, requirePositiveFloat, ensure]
    rw [IsCreationTime] at clock
    rw [if_pos clock]
    rfl
  have listed : decide ((entries.map Json.sorted).length = latest.objectCount) = true := by
    simpa using count
  rw [parsePackPayloadBase]
  simp only [written.found 0 rfl, written.found 1 rfl, written.found 4 rfl, section?, vaultFound,
    latestFound, vault.sorted, (latestSection_writes latest).sorted, sorted_str,
    sorted_natJson, Json.sorted_arr, decide_true, ensure, if_true, bind_ok,
    fieldOrNone_readBack vault 0 rfl, fieldOrNone_readBack vault 1 rfl,
    fieldOrNone_readBack vault 2 rfl, vaultId, number, created, parseLatest_latestSection, listed]
  rfl

/-- The payload that `pack_payload` writes for valid objects is parsed, if its graph is accepted. -/
theorem parsePackPayload_readBack {latest : LatestMetadataPointer} {generation : Nat}
    {createdAt : PyFloat} {objects : List MetadataPlainObject}
    (proper : isLowerHex 32 latest.vaultId = true) (positive : 0 < generation)
    (clock : IsCreationTime createdAt) (valid : ∀ object ∈ objects, object.Valid)
    (distinct : (objects.map (hashOf blake3)).Nodup)
    (named : NamesVault blake3 latest.catalogHash latest.vaultId objects)
    (present : latest.catalogHash ∈ objects.map (hashOf blake3))
    (count : objects.length = latest.objectCount)
    (total : (objects.map fun object => (canonicalObjectBytes object).length).sum =
      latest.totalCanonicalBytes)
    (graph : validatePackPayloadGraph blake3 latest (objects.foldl (fun found object =>
      found.set (hashOf blake3 object) (validatedOf object)) .empty) = .ok ()) :
    parsePackPayload blake3 (readBack (packPayloadJson latest latest.vaultId generation createdAt
      (objects.map (entryOf blake3)))) = .ok {
        latest
        objects := objects.map (encodedOf blake3)
        vaultId := latest.vaultId
        vaultGeneration := generation
        packCreatedAtUnix := createdAt } := by
  have base := @parsePackPayloadBase_readBack latest generation createdAt
    (objects.map (entryOf blake3)) proper positive clock (by simpa using count)
  have entries := parseEntries_entriesOf proper 0 valid named .start distinct
    (by simp [EntriesState.start])
  have sum : decide (((objects.map (encodedOf blake3)).reverse.map
      fun encoded => encoded.canonicalBytes.length).sum = latest.totalCanonicalBytes) = true := by
    rw [List.map_reverse, List.sum_reverse, List.map_map]
    exact decide_eq_true total
  rw [parsePackPayload, base, bind_ok]
  simp only [List.map_map, Function.comp_def]
  rw [entries, bind_ok]
  simp only [EntriesState.start, List.append_nil, sum, if_pos present, ensure, if_true, bind_ok,
    decide_true, graph, List.reverse_reverse]
  rfl

end Stopan.Packs
