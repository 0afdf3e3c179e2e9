import Stopan.Packs.PayloadRoundTrip

namespace Stopan.Packs

open Stopan.Lib Stopan.Common Stopan.Objects

section Entries

variable {blake3 : Blake3} {catalogHash : Text} {index : Nat} {entry : PyJson}
  {entries : List PyJson}
  {state after : EntriesState}

/-- The objects read so far are those validated so far, each under its own hash. -/
structure EntriesState.Sound (blake3 : Blake3) (state : EntriesState) : Prop where
  listed : ∀ encoded ∈ state.objects, ∃ payload, decodeObjectEnvelope blake3 encoded.canonicalBytes
      (some encoded.objectHash) = .ok (encoded.objectType, payload) ∧
    state.validated.get? encoded.objectHash = some
      { objectType := encoded.objectType, payload, canonicalBytes := encoded.canonicalBytes.length }
  covered : ∀ objectHash ∈ state.validated.keys, ∃ encoded ∈ state.objects,
    encoded.objectHash = objectHash
  distinct : (state.objects.map (·.objectHash)).Nodup

theorem EntriesState.Sound.start (blake3 : Blake3) : EntriesState.start.Sound blake3 where
  listed _ member := by cases member
  covered _ member := by cases member
  distinct := by simp [EntriesState.start]

/-- What an accepted entry adds. -/
theorem parseEntry_ok (parsed : parseEntry blake3 catalogHash index entry state = .ok after) :
    ∃ encoded payload catalogVaultId, state.validated.get? encoded.objectHash = none ∧
      decodeObjectEnvelope blake3 encoded.canonicalBytes (some encoded.objectHash) = .ok
        (encoded.objectType, payload) ∧
      after = {
        catalogVaultId
        validated := state.validated.set encoded.objectHash
          { objectType := encoded.objectType, payload,
            canonicalBytes := encoded.canonicalBytes.length }
        objects := encoded :: state.objects } := by
  unfold parseEntry at parsed
  split at parsed
  case h_2 => cases parsed
  case h_1 fields =>
    obtain ⟨objectHash, -, rest⟩ := bind_eq_ok_iff.mp parsed
    obtain ⟨new, rest⟩ := ensure_bind_eq_ok_iff.mp rest
    split at rest
    case h_1 => cases rest
    case h_2 expectedType named =>
      obtain ⟨canonical, -, rest⟩ := bind_eq_ok_iff.mp rest
      obtain ⟨decoded, opened, rest⟩ := bind_eq_ok_iff.mp rest
      obtain ⟨-, rest⟩ := ensure_bind_eq_ok_iff.mp rest
      obtain ⟨catalogVaultId, -, rest⟩ := bind_eq_ok_iff.mp rest
      obtain ⟨size, -, rest⟩ := bind_eq_ok_iff.mp rest
      obtain ⟨-, returned⟩ := ensure_bind_eq_ok_iff.mp rest
      refine ⟨{ objectType := decoded.1, objectHash, canonicalBytes := canonical }, decoded.2,
        catalogVaultId, ?_, opened, (pure_eq_ok_iff.mp returned).symm⟩
      simpa [Dict.contains] using new

theorem EntriesState.Sound.add (sound : state.Sound blake3)
    (parsed : parseEntry blake3 catalogHash index entry state = .ok after) :
    after.Sound blake3 := by
  obtain ⟨encoded, payload, vaultId, new, decoded, rfl⟩ := parseEntry_ok parsed
  have absent : encoded.objectHash ∉ state.validated.keys := (Dict.get?_eq_none_iff _ _).mp new
  have apart : ∀ other ∈ state.objects, other.objectHash ≠ encoded.objectHash := by
    intro other member same
    obtain ⟨otherPayload, -, found⟩ := sound.listed other member
    rw [same, new] at found
    cases found
  refine ⟨fun other member => ?_, fun objectHash member => ?_, ?_⟩
  · rcases List.mem_cons.mp member with rfl | old
    · exact ⟨payload, decoded, Dict.get?_set_self ..⟩
    · obtain ⟨otherPayload, opened, found⟩ := sound.listed other old
      exact ⟨otherPayload, opened, (Dict.get?_set_of_ne _ _ (apart other old)).trans found⟩
  · rw [Dict.mem_keys_set] at member
    rcases member with rfl | old
    · exact ⟨encoded, List.mem_cons_self, rfl⟩
    · obtain ⟨other, inside, same⟩ := sound.covered objectHash old
      exact ⟨other, List.mem_cons_of_mem _ inside, same⟩
  · simp only [List.map_cons, List.nodup_cons]
    refine ⟨fun member => ?_, sound.distinct⟩
    obtain ⟨other, inside, same⟩ := List.mem_map.mp member
    exact apart other inside same

theorem EntriesState.Sound.addAll (sound : state.Sound blake3)
    (parsed : parseEntries blake3 catalogHash index entries state = .ok after) :
    after.Sound blake3 := by
  induction entries generalizing index state with
  | nil =>
      cases parsed
      exact sound
  | cons entry rest ih =>
      obtain ⟨next, first, later⟩ := bind_eq_ok_iff.mp parsed
      exact ih (sound.add first) later

/-- The parsed objects come from a sound state whose graph was accepted. -/
theorem parsePackPayload_ok {payload : Fields} {parsed : ParsedPack}
    (accepted : parsePackPayload blake3 payload = .ok parsed) :
    ∃ state : EntriesState, state.Sound blake3 ∧ parsed.objects = state.objects.reverse ∧
      validatePackPayloadGraph blake3 parsed.latest state.validated = .ok () := by
  obtain ⟨base, -, rest⟩ := bind_eq_ok_iff.mp accepted
  obtain ⟨state, read, rest⟩ := bind_eq_ok_iff.mp rest
  obtain ⟨-, rest⟩ := ensure_bind_eq_ok_iff.mp rest
  split at rest
  case h_1 => cases rest
  case h_2 catalogVaultId named =>
    obtain ⟨-, rest⟩ := ensure_bind_eq_ok_iff.mp rest
    obtain ⟨done, graph, returned⟩ := bind_eq_ok_iff.mp rest
    cases pure_eq_ok_iff.mp returned
    exact ⟨state, (EntriesState.Sound.start blake3).addAll read, rfl, graph⟩

end Entries

section Writes

variable {blake3 : Blake3} {keys : StoreKeys} {environment : StoreEnvironment} {files : StoreFiles}

theorem graph_distinctHashes (graph : MetadataObjectGraph) :
    DistinctHashes graph.objects.values := by
  intro left leftMember right rightMember same
  obtain ⟨leftEntry, leftInside, rfl⟩ := List.mem_map.mp leftMember
  obtain ⟨rightEntry, rightInside, rfl⟩ := List.mem_map.mp rightMember
  have leftKey := (graph.keys_match leftEntry leftInside).1
  have rightKey := (graph.keys_match rightEntry rightInside).1
  have found := Dict.get?_eq_some_iff.mpr leftInside
  rw [← leftKey, same, rightKey, Dict.get?_eq_some_iff.mpr rightInside] at found
  exact (Option.some.inj found).symm

theorem parsed_distinctHashes {payload : Fields} {parsed : ParsedPack}
    (accepted : parsePackPayload blake3 payload = .ok parsed) :
    DistinctHashes parsed.objects := by
  obtain ⟨state, sound, listed, -⟩ := parsePackPayload_ok accepted
  intro left leftMember right rightMember same
  rw [listed, List.mem_reverse] at leftMember rightMember
  exact List.inj_on_of_nodup_map sound.distinct leftMember rightMember same

theorem pathOf_ne_packGenerationPath (keys : StoreKeys) (objectHash vaultId : Text) :
    pathOf keys objectHash ≠ packGenerationPath vaultId := by
  simp [pathOf, objectPath, packGenerationPath]

theorem keeps_storePackGeneration_progress {initial : StoreFiles}
    {objects finished : List EncodedMetadataObject} (vaultId : Text) (generation : Nat) :
    Task.Keeps (fun _ => True) (Progress blake3 keys initial objects finished)
      (storePackGeneration environment vaultId generation)
      fun _ => Progress blake3 keys initial objects finished := by
  apply Task.Keeps.bind (fun _ => Progress blake3 keys initial objects finished)
  · exact Task.keeps_inspect fun files progress => ⟨trivial, fun _ _ => progress⟩
  intro stored
  split
  · exact keeps_atomicWriteBytes_progress
      (fun objectHash => pathOf_ne_packGenerationPath keys objectHash vaultId) _ true
  · exact Task.keeps_done fun files progress => ⟨trivial, progress⟩

theorem putGraph_progress (environment : StoreEnvironment) {graph : MetadataObjectGraph}
    (distinct : DistinctIds keys graph.objects.values) :
    Task.Keeps (fun _ => True) (Progress blake3 keys files graph.objects.values [])
      (putGraph blake3 keys environment graph)
      fun _ => Progress blake3 keys files graph.objects.values
        (sortedByHash graph.objects.values) := by
  apply (keeps_putObjectsBatch_progress distinct (graph_distinctHashes graph)).bind _
  intro counts
  apply (keeps_writeLatestPointer_progress graph.latest).bind _
  intro _
  exact Task.keeps_done fun files progress => ⟨trivial, progress⟩

theorem importPackPayload_progress (environment : StoreEnvironment) {payload : Fields}
    {parsed : ParsedPack} (accepted : parsePackPayload blake3 payload = .ok parsed)
    (distinct : DistinctIds keys parsed.objects) :
    Task.Keeps (fun _ => True) (Progress blake3 keys files parsed.objects [])
      (importPackPayload blake3 keys environment payload)
      fun _ => Progress blake3 keys files parsed.objects (sortedByHash parsed.objects) := by
  apply Task.Keeps.bind (fun found state => found = parsed ∧
    Progress blake3 keys files parsed.objects [] state)
  · apply Task.keeps_inspect
    intro state progress
    refine ⟨trivial, fun found result => ⟨?_, progress⟩⟩
    exact Except.ok.inj (result.symm.trans accepted)
  intro found
  by_cases same : found = parsed
  · subst same
    apply Task.Keeps.bind
      (fun _ => Progress blake3 keys files found.objects (sortedByHash found.objects))
    · exact (keeps_putObjectsBatch_progress distinct (parsed_distinctHashes accepted)).weaken
        (fun _ holds => holds.2)
        fun _ _ progress => progress
    intro counts
    apply (keeps_writeLatestPointer_progress found.latest).bind _
    intro _
    apply (keeps_storePackGeneration_progress found.vaultId found.vaultGeneration).bind _
    intro _
    exact Task.keeps_done fun state progress => ⟨trivial, progress⟩
  · exact fun state holds => absurd holds.1 same

theorem importPackPayload_parsed {payload : Fields} {parsed : ParsedPack} {counts : Nat × Nat}
    (returned : (importPackPayload blake3 keys environment payload files).result =
      .ok (parsed, counts)) :
    parsePackPayload blake3 payload = .ok parsed := by
  have keeps : Task.Keeps (fun _ => True) (fun _ => True)
      (importPackPayload blake3 keys environment payload)
      fun result _ => parsePackPayload blake3 payload = .ok result.1 := by
    apply Task.Keeps.bind (fun found _ => parsePackPayload blake3 payload = .ok found)
    · exact Task.keeps_inspect fun _ _ => ⟨trivial, fun _ accepted => accepted⟩
    intro found
    apply (Task.keeps_fact _).bind _
    intro counts
    apply (Task.keeps_fact _).bind _
    intro _
    apply (Task.keeps_fact _).bind _
    intro _
    exact Task.keeps_done fun _ accepted => ⟨trivial, accepted⟩
  exact (keeps files trivial).returned _ returned

/-- An import puts what a put of its graph does, and remembers the generation. -/
theorem importPackPayload_returns {graph : MetadataObjectGraph} {payload : Fields}
    {parsed : ParsedPack} {counts : Nat × Nat} {middle after : StoreFiles}
    (accepted : parsePackPayload blake3 payload = .ok parsed)
    (objects : parsed.objects = graph.objects.values) (latest : parsed.latest = graph.latest)
    (put : (putGraph blake3 keys environment graph).Returns files counts middle)
    (remembered : (storePackGeneration environment parsed.vaultId
      parsed.vaultGeneration).Returns middle () after) :
    (importPackPayload blake3 keys environment payload).Returns files (parsed, counts) after := by
  obtain ⟨stored, written, batch, rest⟩ := Task.returns_bind_iff.mp put
  obtain ⟨_, last, pointer, done⟩ := Task.returns_bind_iff.mp rest
  obtain ⟨rfl, rfl⟩ := Task.returns_pure_iff.mp done
  rw [← objects] at batch
  rw [← latest] at pointer
  refine Task.returns_bind_iff.mpr ⟨parsed, files, ⟨accepted, rfl⟩, ?_⟩
  refine Task.returns_bind_iff.mpr ⟨_, _, batch, ?_⟩
  refine Task.returns_bind_iff.mpr ⟨_, _, pointer, ?_⟩
  exact Task.returns_bind_iff.mpr ⟨_, _, remembered, Task.returns_pure_iff.mpr ⟨rfl, rfl⟩⟩

/-- After a graph was put or a pack imported without error, its objects are all read back exactly
when the files that had their names before could be read. -/
theorem storedObjects_readBack (blake3 : Blake3) (keys : StoreKeys) (environment : StoreEnvironment)
    (files : StoreFiles) : (∀ graph counts, DistinctIds keys graph.objects.values →
      (putGraph blake3 keys environment graph files).result = .ok counts →
      (ReadsBack blake3 keys
        (putGraph blake3 keys environment graph files).final graph.objects.values ↔
        OldFilesReadable blake3 keys files graph.objects.values)) ∧
    ∀ payload parsed counts, DistinctIds keys parsed.objects →
      (importPackPayload blake3 keys environment payload files).result = .ok (parsed, counts) →
      (ReadsBack blake3 keys
        (importPackPayload blake3 keys environment payload files).final parsed.objects ↔
        OldFilesReadable blake3 keys files parsed.objects) := by
  constructor
  · intro graph counts distinct returned
    have progress := (putGraph_progress environment distinct files .start).returned counts returned
    exact progress.readBack_iff
  · intro payload parsed counts distinct returned
    have accepted := importPackPayload_parsed returned
    have progress :=
      (importPackPayload_progress environment accepted distinct files .start).returned _ returned
    exact progress.readBack_iff

end Writes

namespace EmptyCatalog

def snapshotIndex : MetadataPlainObject := .snapshotIndex { snapshots := [] }

def knownChunkIndex : MetadataPlainObject := .knownChunkIndex { shards := [], totalChunks := 0 }

def hexText (digest : Nat) : Text := blake3HexDigest (.ofTable [([], digest)]) []

def snapshotIndexDigest : Nat := 0xcdaeb039d0f7bd2167d6dc6e99b7eac85e3cf2368cc18d22c223844eb56372d6

def knownChunkIndexDigest : Nat :=
  0xb16ea28cf1020df03b1df0e1862960baca1244cc35b6b8261c3d15401f460e05

def catalogDigest : Nat := 0xc325a4dc3f92b4d67e2de0f2d1f4ed77024bf87e4971a8f18dd140a38856b935

def chunkListDigest : Nat := 0xcf20ac9e61c707fa67edfe434fc1781821cee98dcd8565f84e345858fda48d89

def stateDigest : Nat := 0x9602e8efe14cb00f18634bec592b88692b04c56f15f944931a32478afd09222b

def snapshotIndexHash : Text := hexText snapshotIndexDigest

def knownChunkIndexHash : Text := hexText knownChunkIndexDigest

def catalogHash : Text := hexText catalogDigest

/-- Of the empty list of chunks, which the catalog does not reach. -/
def chunkListHash : Text := hexText chunkListDigest

def vaultId : Text := List.replicate 32 '0'

theorem vaultId_canonical : isLowerHex 32 vaultId = true := by simp [isLowerHex, vaultId, hexLower]

def catalog : MetadataPlainObject :=
  .catalog {
    vaultId
    snapshotIndex := { objectType := .snapshotIndex, objectHash := snapshotIndexHash }
    knownChunkIndex := { objectType := .knownChunkIndex, objectHash := knownChunkIndexHash }
    protectionIndex := none
    snapshotCount := 0
    knownChunkCount := 0
    protectionRecordCount := 0
    erasureDataPackIndex := none
    erasureDataPackCount := 0
    erasureDataPackChunkCount := 0
    erasureDataPackShardCount := 0 }

/-- What the state digest is computed from. -/
def reachableJson : PyJson :=
  .obj [field "catalog_hash" (.str catalogHash),
    field "object_hashes"
      (.arr [.str knownChunkIndexHash, .str catalogHash, .str snapshotIndexHash])]

def blake3 : Blake3 := .ofTable [
  (canonicalObjectBytes snapshotIndex, snapshotIndexDigest),
  (canonicalObjectBytes knownChunkIndex, knownChunkIndexDigest),
  (canonicalObjectBytes catalog, catalogDigest),
  (canonicalJsonBytes reachableJson, stateDigest),
  (canonicalObjectBytes emptyChunkList, chunkListDigest)]

/-- Keyed with the bytes from 0 to 31. -/
def keyed : Blake3 := .ofTable [
  (encodeUtf8 snapshotIndexHash,
    0x78d02f340d72a71a08d80aa686b666ed7d9be9d2442aa05645ff49f0157b1ce4),
  (encodeUtf8 knownChunkIndexHash,
    0xc6301628d9d4e02ca43deba5f38d6c9b2aa4d75815588d4b0f55b2e88b0bbcd6),
  (encodeUtf8 catalogHash, 0x6f5fd8c1446d1b0d389709e8bdf371b43dcea975bb69a682edde04bb49858c21),
  (encodeUtf8 chunkListHash, 0x1badda2ef2cf6261f31dd81bab3bb308a854fd509b0528152266c43cc5273c96)]

/-- A stand-in for the cipher: a tag of one byte before the data. -/
def aead : Aead where
  encrypt _ data _ := 1 :: data
  decrypt _ ciphertext _ :=
    match ciphertext with
    | 1 :: data => some data
    | _ => none
  decrypt_encrypt _ _ _ _ := rfl

def keys : StoreKeys where
  aead := aead
  keyed := keyed

def graph : MetadataObjectGraph where
  vaultId := vaultId
  catalogHash := catalogHash
  stateDigest := hexText stateDigest
  objects := .ofList [
    (knownChunkIndexHash, { objectType := .knownChunkIndex, objectHash := knownChunkIndexHash,
                            canonicalBytes := canonicalObjectBytes knownChunkIndex }),
    (catalogHash, { objectType := .catalog, objectHash := catalogHash,
                    canonicalBytes := canonicalObjectBytes catalog }),
    (snapshotIndexHash, { objectType := .snapshotIndex, objectHash := snapshotIndexHash,
                          canonicalBytes := canonicalObjectBytes snapshotIndex })]
  snapshotCount := 0
  knownChunkCount := 0
  protectionRecordCount := 0
  vault_valid := by decide +kernel
  digest_valid := by decide +kernel
  keys_match := by decide +kernel
  catalog_present := by decide +kernel

def environment : StoreEnvironment where
  now := 100
  pid := 7
  random _ := "0123456789abcdef".toList
  nonce _ := List.replicate 12 0
  nonce_length _ := by simp
  inode _ := 1
  flushed _ := 0
  fails _ := none

/-- A store in which the file of the catalog was cut to nothing. -/
def truncated : StoreFiles :=
  Dict.empty.set (pathOf keys catalogHash) (.file { data := [], mtime := 0, inode := 2 })

theorem distinctIds : DistinctIds keys graph.objects.values := by
  unfold DistinctIds
  decide +kernel

/-- The store after a first put: every object has its file. -/
def stored : StoreFiles := (putGraph blake3 keys environment graph .empty).final

/-- The first put writes all objects and the second none; a generation is then remembered. The
truncated file counts as stored, and cannot be read. -/
theorem puts : (putGraph blake3 keys environment graph .empty).result = .ok (3, 0) ∧
    (putGraph blake3 keys environment graph stored).result = .ok (0, 3) ∧
    (storePackGeneration environment vaultId 1
      (putGraph blake3 keys environment graph stored).final).result = .ok () ∧
    (putGraph blake3 keys environment graph truncated).result = .ok (2, 1) ∧
    (getObjectBytes blake3 keys truncated catalogHash none).toOption = none := by
  decide +kernel

/-- The put returns, and the catalog that `latest.json` now names cannot be read. -/
theorem truncatedCatalog_notReadBack :
    ¬ ∀ (blake3 : Blake3) (keys : StoreKeys) (environment : StoreEnvironment) (files : StoreFiles)
        (graph : MetadataObjectGraph) (counts : Nat × Nat),
      DistinctIds keys graph.objects.values →
      (putGraph blake3 keys environment graph files).result = .ok counts →
      ReadsBack blake3 keys
        (putGraph blake3 keys environment graph files).final graph.objects.values := by
  intro claimed
  obtain ⟨-, -, -, returned, refused⟩ := puts
  have readBack := claimed blake3 keys environment truncated graph (2, 1) distinctIds returned
  have progress := (putGraph_progress environment distinctIds truncated .start).returned _ returned
  have readable := progress.readBack_iff.mp readBack
  have present : (truncated.get? (pathOf keys catalogHash)).isSome = true := by
    rw [truncated, Dict.get?_set_self]
    rfl
  obtain ⟨encoded, found⟩ := (Dict.mem_keys_iff _ _).mp graph.catalog_present
  have hash : encoded.objectHash = catalogHash :=
    (graph.keys_match _ (Dict.get?_eq_some_iff.mp found)).1
  rw [← hash] at present refused
  obtain ⟨data, read⟩ := readable encoded (Dict.mem_values_of_get? found) present
  rw [read] at refused
  cases refused

def plainObjects : List MetadataPlainObject := [knownChunkIndex, catalog, snapshotIndex]

/-- What a pack of the graph holds. -/
def payload : Fields :=
  readBack (packPayloadJson graph.latest vaultId 1 ⟨0x3ff0000000000000⟩
    (plainObjects.map (entryOf blake3)))

def parsed : ParsedPack where
  latest := graph.latest
  objects := graph.objects.values
  vaultId := vaultId
  vaultGeneration := 1
  packCreatedAtUnix := ⟨0x3ff0000000000000⟩

theorem parsed_objects : parsed.objects = graph.objects.values := by rw [parsed]

theorem encodedObjects : plainObjects.map (encodedOf blake3) = graph.objects.values := by
  decide +kernel

theorem plainObjects_hashes :
    plainObjects.map (hashOf blake3) = [knownChunkIndexHash, catalogHash, snapshotIndexHash] := by
  have listed := congrArg (List.map EncodedMetadataObject.objectHash) encodedObjects
  rw [List.map_map] at listed
  exact listed

theorem plainObjects_distinct : (plainObjects.map (hashOf blake3)).Nodup := by
  rw [plainObjects_hashes]
  exact graph.objects.keys_nodup

theorem plainObjects_valid : ∀ object ∈ plainObjects, object.Valid := by
  intro object member
  simp only [plainObjects, List.mem_cons, List.not_mem_nil, or_false] at member
  rcases member with rfl | rfl | rfl
  · exact ⟨rfl, by simp⟩
  · exact ⟨by decide +kernel, ObjectRef.valid_of_hash (blake3HexDigest_valid ..),
      ObjectRef.valid_of_hash (blake3HexDigest_valid ..), by simp, by simp⟩
  · exact ⟨rfl, by simp⟩

theorem plainObjects_named : NamesVault blake3 catalogHash vaultId plainObjects := by
  intro object member own
  have distinct := plainObjects_distinct
  simp only [plainObjects, List.map_cons, List.map_nil, List.nodup_cons, List.mem_cons,
    not_or] at distinct
  have hashes := plainObjects_hashes
  simp only [plainObjects, List.map_cons, List.map_nil, List.cons.injEq, and_true] at hashes
  simp only [plainObjects, List.mem_cons, List.not_mem_nil, or_false] at member
  rcases member with rfl | rfl | rfl
  · exact absurd (own.trans hashes.2.1.symm) distinct.1.1
  · exact ⟨_, rfl, rfl⟩
  · exact absurd (own.trans hashes.2.1.symm).symm distinct.2.1.1

theorem graph_accepted :
    validatePackPayloadGraph blake3 graph.latest (plainObjects.foldl (fun found object =>
      found.set (hashOf blake3 object) (validatedOf object)) .empty) = .ok () := by
  decide +kernel

theorem payload_parsed : parsePackPayload blake3 payload = .ok parsed := by
  have present : catalogHash ∈ plainObjects.map (hashOf blake3) := by
    rw [plainObjects_hashes]
    exact List.mem_cons_of_mem _ List.mem_cons_self
  have count : plainObjects.length = graph.objects.entries.length := by
    simpa [Dict.values] using congrArg List.length encodedObjects
  have total : (plainObjects.map fun object => (canonicalObjectBytes object).length).sum =
      (graph.objects.values.map fun encoded => encoded.canonicalBytes.length).sum := by
    rw [← encodedObjects, List.map_map]
    rfl
  have accepted := @parsePackPayload_readBack blake3 graph.latest 1 ⟨0x3ff0000000000000⟩
    plainObjects vaultId_canonical Nat.one_pos (by unfold IsCreationTime; decide)
    plainObjects_valid plainObjects_distinct plainObjects_named present count total graph_accepted
  rw [encodedObjects] at accepted
  exact accepted

/-- The import puts the objects that the graph puts, and remembers the generation. -/
theorem import_stored :
    (importPackPayload blake3 keys environment payload stored).result = .ok (parsed, 0, 3) := by
  obtain ⟨-, again, remembered, -⟩ := puts
  exact (importPackPayload_returns payload_parsed parsed_objects rfl ⟨again, rfl⟩
    ⟨remembered, rfl⟩).1

/-- Where every old file is intact, the objects that are put again or imported are read back. -/
theorem intactStore_readBack :
    ReadsBack blake3 keys
      (putGraph blake3 keys environment graph stored).final graph.objects.values ∧
    ∃ parsed, (importPackPayload blake3 keys environment payload stored).result =
      .ok (parsed, 0, 3) ∧
      parsed.objects.map (·.objectHash) = graph.objects.values.map (·.objectHash) ∧
      ReadsBack blake3 keys
        (importPackPayload blake3 keys environment payload stored).final parsed.objects := by
  have first : ReadsBack blake3 keys stored graph.objects.values := by
    rw [stored]
    exact ((storedObjects_readBack blake3 keys environment .empty).1 graph _ distinctIds
      puts.1).mpr fun _ _ present => by simp at present
  have intact : OldFilesReadable blake3 keys stored graph.objects.values :=
    fun encoded member _ => (first encoded member).imp fun _ read => read.1
  obtain ⟨putAgain, imports⟩ := storedObjects_readBack blake3 keys environment stored
  refine ⟨(putAgain graph _ distinctIds puts.2.1).mpr intact, parsed, import_stored, ?_, ?_⟩
  · rw [parsed_objects]
  · refine (imports payload parsed _ ?_ import_stored).mpr ?_
    · rw [parsed_objects]
      exact distinctIds
    · rw [parsed_objects]
      exact intact

end EmptyCatalog

end Stopan.Packs
