import Stopan.Cas.Repository
import Stopan.Erasure.PackMetadata
import Stopan.Metadata.HashQueries
import Stopan.Rpc.AdaptiveBatch

/-!
Recovery of missing chunks from data packs (`restore/ec_fetch.py`, with `shard_targets.py` and the
retrieval of `remote_client.py` in `stopan/protection/ec`). What an address answers to a batch and
the order in which the calls and the packs complete are arbitrary.
-/

namespace Stopan.Restore

open Stopan.Lib Stopan.Common Stopan.Cas Stopan.Cluster Stopan.Erasure Stopan.Metadata Stopan.Rpc

/-- An order in which tasks complete. -/
structure Completion (α : Type) where
  arrange : List α → List α
  permuted : ∀ tasks, (arrange tasks).Perm tasks

def Completion.inOrder (α : Type) : Completion α := ⟨id, fun _ => .refl _⟩

/-- The protobuf enumeration, which is open. -/
inductive ShardRetrieveStatus where
  | unspecified
  | found
  | notFound
  | hashMismatch
  | error
  | unrecognized (number : Int)
  deriving DecidableEq, Repr

structure ShardRetrieveMessage where
  ref : RefMessage
  status : ShardRetrieveStatus
  shardData : Bytes
  detail : String
  deriving DecidableEq, Repr

structure ShardRetrieveResult where
  ref : ShardRef
  status : ShardRetrieveStatus
  data : Bytes
  detail : String
  deriving DecidableEq, Repr

/-- What an address answers to a batch of refs. -/
abbrev ShardAnswer := List ShardRef → Except CallError (List ShardRetrieveMessage)

/-- One item of a response; a malformed ref makes the call fail. -/
def takeShardMessage (results : Dict ShardRef ShardRetrieveResult)
    (message : ShardRetrieveMessage) :
    Except CallError (Dict ShardRef ShardRetrieveResult) :=
  if message.ref.packHash.isEmpty || message.ref.shardHash.isEmpty then .ok results
  else match message.ref.parse with
    | .error reason => .error { tooLarge := false, text := describe reason }
    | .ok ref => .ok (results.set ref {
        ref, status := message.status, data := message.shardData, detail := message.detail })

def withoutShardResult (ref : ShardRef) : ShardRetrieveResult where
  ref
  status := .error
  data := []
  detail := "Sin resultado en RetrieveDataPackShardBatch"

/-- `_retrieve_shard_batch_once`. -/
def retrieveShardBatchOnce (answer : ShardAnswer) (refs : List ShardRef) :
    Except CallError (Dict ShardRef ShardRetrieveResult) := do
  let messages ← answer refs
  let results ← messages.foldlM takeShardMessage .empty
  return refs.foldl
    (fun results ref => if results.contains ref then results
      else results.set ref (withoutShardResult ref)) results

def retrieveShardBatch (answer : ShardAnswer) (refs : List ShardRef) :
    Except CallError (Dict ShardRef ShardRetrieveResult) :=
  let ordered := orderedUnique refs
  if ordered.isEmpty then .ok .empty
    else runAdaptiveBatchCall (retrieveShardBatchOnce answer) ordered

structure ShardTargetGroups where
  refsByAddress : Dict Text (List ShardRef)
  offlineErrors : List String

def addShardTarget (packHash : Text) (nodeAddresses : Dict Text Text) (groups : ShardTargetGroups)
    (row : ErasureShardEntry) : Coded ShardTargetGroups :=
  match nodeAddresses.get? row.nodeId with
  | none => .ok { groups with offlineErrors := groups.offlineErrors ++
      [s!"shard={row.shardIndex}: nodo {String.ofList row.nodeId} offline/ilocalizable"] }
  | some address => do
      let ref ← createShardRef packHash row.shardIndex row.shardHash
      return { groups with refsByAddress := groups.refsByAddress.modify address [] (· ++ [ref]) }

def groupErasureShardRefsByAddress (packHash : Text) (nodeAddresses : Dict Text Text)
    (rows : List ErasureShardEntry) :
    Coded ShardTargetGroups :=
  rows.foldlM (addShardTarget packHash nodeAddresses) { refsByAddress := .empty,
                                                        offlineErrors := [] }

structure ErasurePackRecoveryJob where
  packHash : Text
  manifest : DataPackManifest
  shardRows : List ErasureShardEntry
  wantedHashes : List Text

/-- What a recovery meets: the view, what each address answers, and the orders of completion. -/
structure ErasureContext where
  blake3 : Blake3
  zfec : Zfec
  cluster : Except StopanError ClusterView
  answers : Text → ShardAnswer
  calls : Completion (Text × List ShardRef)
  packs : Completion (ErasurePackRecoveryJob × Except String (Dict Text Bytes))

def short (hash : Text) : String := String.ofList (hash.take 8)

/-- One result of an address: a shard that names its own hash, or an error. -/
def takeShardResult (blake3 : Blake3) (address : Text) (state : List DataPackShard × List String)
    (item : ShardRetrieveResult) : List DataPackShard × List String :=
  let (found, errors) := state
  if item.status ≠ .found then
    (found, errors ++ [s!"{String.ofList address}: shard={item.ref.shardIndex}: {item.detail}"])
  else match createDataPackShard blake3 item.ref.packHash item.ref.shardIndex item.data
    item.ref.shardHash with
    | .error reason =>
        let detail := describe reason
        (found, errors ++ [s!"{String.ofList address}: shard={item.ref.shardIndex}: {detail}"])
    | .ok shard => (found ++ [shard], errors)

/-- The call of one address as it completes. -/
def takeShardCall (blake3 : Blake3) (answers : Text → ShardAnswer)
    (state : List DataPackShard × List String)
    (call : Text × List ShardRef) : List DataPackShard × List String :=
  match retrieveShardBatch (answers call.1) call.2 with
  | .error failure => (state.1, state.2 ++ [s!"{String.ofList call.1}: {failure.text}"])
  | .ok results => results.values.foldl (takeShardResult blake3 call.1) state

/-- `_retrieve_pack_shards`. -/
def retrievePackShards (context : ErasureContext) (packHash : Text)
    (shardRows : List ErasureShardEntry) (required : Nat) : Except String (List DataPackShard) :=
  match context.cluster with
  | .error _ => .error "membership no disponible"
  | .ok cluster =>
      match groupErasureShardRefsByAddress packHash cluster.nodeAddresses shardRows with
      | .error reason => .error (describe reason)
      | .ok groups =>
          if groups.refsByAddress.length < required then
            let errors := " | ".intercalate groups.offlineErrors
            .error s!"data pack EC {short packHash}: nodos online insuficientes para K shards ({groups.refsByAddress.length}/{required}). {errors}"
          else
            let calls := context.calls.arrange groups.refsByAddress.entries
            let (found, errors) := calls.foldl (takeShardCall context.blake3 context.answers)
              ([], groups.offlineErrors)
            if found.length < required then
              let detail := " | ".intercalate errors
              .error s!"data pack EC {short packHash} no tiene K shards recuperables: {found.length}/{required}. {detail}"
            else .ok ((sortedByIndex found).take required)

/-- An `ErasureCodingError` as the caller sees it. -/
def describing {α : Type} : Coded α → Except String α
  | .ok value => .ok value
  | .error reason => .error (describe reason)

/-- `_recover_pack_chunks`. -/
def recoverPackChunks (context : ErasureContext) (job : ErasurePackRecoveryJob) :
    Except String (Dict Text Bytes) := do
  let shards ← retrievePackShards context job.packHash job.shardRows job.manifest.spec.dataShards
  let payload ← describing (reconstructPayload context.blake3 context.zfec job.manifest shards)
  describing (extractPackChunks context.blake3 payload job.manifest [])

def manifestFromErasureMetadata (packHash : Text) (pack : ErasureDataPackRow)
    (chunks : List ErasureChunkEntry) :
    Coded DataPackManifest := do
  let spec ← specFromErasureMetadata pack
  let entries ← chunks.mapM
    fun item => createDataPackEntry item.chunkHash item.offset item.length item.ordinal
  createDataPackManifest packHash pack.payloadSize pack.paddedSize pack.shardSize spec entries

/-- `_build_recovery_job`. -/
def buildRecoveryJob (db : MetadataDB) (packHash : Text) (wantedHashes : List Text) :
    Except String ErasurePackRecoveryJob :=
  match db.getErasureDataPack packHash with
  | none => .error s!"metadata de data pack EC no encontrada: {short packHash}"
  | some pack => do
      let packChunks := db.getErasurePackChunks packHash
      let packShards := db.getErasurePackShards packHash
      ensure (!packChunks.isEmpty) s!"data pack EC sin chunks: {short packHash}"
      ensure (decide (pack.dataShards ≤ packShards.length))
        s!"data pack EC sin suficientes shards registrados: {packShards.length}/{pack.dataShards}"
      let manifest ← describing (manifestFromErasureMetadata packHash pack packChunks)
      return { packHash, manifest, shardRows := packShards, wantedHashes }

/-- The bytes of a chunk, or the text of the exception that stands in their place. -/
abbrev ChunkResult := Except String Bytes

/-- The local CAS while chunks are fetched; each write meets a context of its own. -/
structure LocalRepo where
  files : CasFiles
  writes : Nat

def LocalRepo.putCompressed (contexts : Nat → WriteContext) (repo : LocalRepo) (chunkHash : Text)
    (compressed : Bytes) :
    LocalRepo × Option StopanError :=
  let (files, progress) := Cas.putCompressed (contexts repo.writes) repo.files chunkHash compressed
  ({ files, writes := repo.writes + 1 }, match progress with
    | .raised reason => some reason
    | .running _ | .returned _ => none)

/-- `get_erasure_chunk_locations`: the packs of the chunks that are in one. -/
def getErasureChunkLocations (db : MetadataDB) (chunkHashes : List Text) :
    Except StopanError (Dict Text Text) := do
  let hashes ← uniqueHashes chunkHashes
  if maxVariableNumber < hashes.length then .error (.operational "too many SQL variables")
  else return .ofList (hashes.filterMap fun chunkHash =>
    (db.erasurePackChunks.get? chunkHash).map fun row => (chunkHash, row.packHash))

/-- What the loop of `_group_missing_chunks_by_pack` does with a chunk. -/
def groupChunk (locations : Dict Text Text)
    (grouped : Dict Text (List Text) × Dict Text ChunkResult) (chunkHash : Text) :
    Dict Text (List Text) × Dict Text ChunkResult :=
  match locations.get? chunkHash with
  | none => (grouped.1, grouped.2.set chunkHash
      (.error s!"El chunk {short chunkHash} no pertenece a ningún data pack EC"))
  | some packHash => (grouped.1.modify packHash [] (· ++ [chunkHash]), grouped.2)

/-- Every wanted chunk of a pack fails with a text of its own. -/
def failAll (reason : Text → String) (results : Dict Text ChunkResult) (chunkHashes : List Text) :
    Dict Text ChunkResult :=
  chunkHashes.foldl
    (fun results chunkHash => results.set chunkHash (.error (reason chunkHash))) results

/-- What the loop of `_build_recovery_jobs` does with a pack. -/
def addRecoveryJob (db : MetadataDB) (built : List ErasurePackRecoveryJob × Dict Text ChunkResult)
    (pack : Text × List Text) : List ErasurePackRecoveryJob × Dict Text ChunkResult :=
  match buildRecoveryJob db pack.1 pack.2 with
  | .ok job => (built.1 ++ [job], built.2)
  | .error detail => (built.1, failAll (fun chunkHash =>
      s!"No se pudo preparar metadata EC del pack {short pack.1} para chunk {short chunkHash}: {detail}") built.2 pack.2)

/-- `_cache_reconstructed_pack_chunks`. -/
def cacheReconstructedPackChunks (contexts : Nat → WriteContext) (zstd : Zstd) (repo : LocalRepo)
    (recovered : Dict Text Bytes) : LocalRepo :=
  recovered.entries.foldl
    (fun repo entry => (repo.putCompressed contexts entry.1 (zstd.compress entry.2)).1) repo

/-- One wanted chunk of a pack that has been recovered. -/
def takeRecoveredChunk (packHash : Text) (recovered : Dict Text Bytes)
    (results : Dict Text ChunkResult) (chunkHash : Text) : Dict Text ChunkResult :=
  match recovered.get? chunkHash with
  | none => results.set chunkHash (.error
    s!"Data pack EC {short packHash} no devolvió chunk {short chunkHash}")
  | some data => results.set chunkHash (.ok data)

/-- A pack whose recovery has completed. -/
def takeRecoveredPack (contexts : Nat → WriteContext) (zstd : Zstd)
    (state : LocalRepo × Dict Text ChunkResult)
    (completed : ErasurePackRecoveryJob × Except String (Dict Text Bytes)) :
    LocalRepo × Dict Text ChunkResult :=
  match completed.2 with
  | .error detail => (state.1, failAll (fun chunkHash =>
      s!"No se pudo reconstruir data pack EC {short completed.1.packHash} para chunk {short chunkHash}: {detail}")
      state.2 completed.1.wantedHashes)
  | .ok recovered => (cacheReconstructedPackChunks contexts zstd state.1 recovered,
      completed.1.wantedHashes.foldl (takeRecoveredChunk completed.1.packHash recovered) state.2)

def recoverManyRawChunks (contexts : Nat → WriteContext) (zstd : Zstd)
    (context : ErasureContext) (db : MetadataDB) (repo : LocalRepo) (chunkHashes : List Text) :
    Except StopanError (LocalRepo × Dict Text ChunkResult) := do
  let ordered := orderedUnique chunkHashes
  if ordered.isEmpty then return (repo, .empty)
  let locations ← getErasureChunkLocations db ordered
  let grouped := ordered.foldl (groupChunk locations) (.empty, .empty)
  let built := grouped.1.entries.foldl (addRecoveryJob db) ([], grouped.2)
  let tasks := built.1.map fun job => (job, recoverPackChunks context job)
  return (context.packs.arrange tasks).foldl (takeRecoveredPack contexts zstd) (repo, built.2)

/-- Bytes stand only under their own hash. -/
def SoundResults (blake3 : Blake3) (results : Dict Text ChunkResult) : Prop :=
  ∀ chunkHash raw, results.get? chunkHash = some (.ok raw) → blake3HexDigest blake3 raw = chunkHash

variable {blake3 : Blake3} {results : Dict Text ChunkResult} {chunkHash : Text}

theorem SoundResults.empty : SoundResults blake3 .empty := fun _ _ found => by cases found

theorem SoundResults.set_error (sound : SoundResults blake3 results)
    (chunkHash : Text) (detail : String) :
    SoundResults blake3 (results.set chunkHash (.error detail)) := by
  intro other raw found
  rw [Dict.get?_set] at found
  split at found
  · cases found
  · exact sound other raw found

theorem SoundResults.set_ok (sound : SoundResults blake3 results) {raw : Bytes}
    (hash : blake3HexDigest blake3 raw = chunkHash) :
    SoundResults blake3 (results.set chunkHash (.ok raw)) := by
  intro other data found
  rw [Dict.get?_set] at found
  split at found
  · rename_i same
    cases found
    rw [same, hash]
  · exact sound other data found

theorem SoundResults.failAll {reason : Text → String} {chunkHashes : List Text}
    (sound : SoundResults blake3 results) :
    SoundResults blake3 (failAll reason results chunkHashes) := by
  rw [Restore.failAll]
  induction chunkHashes generalizing results with
  | nil => exact sound
  | cons chunkHash rest ih => exact ih (sound.set_error chunkHash _)

/-- Extraction checks every chunk that it hands out. -/
theorem extractEntries_sound {payload : Bytes} {wanted : Option (List Text)}
    {entries : List DataPackEntry}
    {chunks after : Dict Text Bytes} (sound : ∀ chunkHash data, chunks.get? chunkHash = some data →
      blake3HexDigest blake3 data = chunkHash)
        (extracted : extractEntries blake3 payload wanted chunks entries = .ok after) :
    ∀ chunkHash data, after.get? chunkHash = some data →
      blake3HexDigest blake3 data = chunkHash := by
  induction entries generalizing chunks with
  | nil =>
      cases extracted
      exact sound
  | cons entry rest ih =>
      rw [extractEntries] at extracted
      split at extracted
      · exact ih sound extracted
      · obtain ⟨matched, later⟩ := ensure_bind_eq_ok_iff.mp extracted
        refine ih ?_ later
        intro chunkHash data found
        rw [Dict.get?_set] at found
        split at found
        · rename_i same
          cases found
          rw [same]
          exact of_decide_eq_true matched
        · exact sound chunkHash data found

theorem recoverPackChunks_sound {context : ErasureContext} {job : ErasurePackRecoveryJob}
    {recovered : Dict Text Bytes} (succeeded : recoverPackChunks context job = .ok recovered) :
    ∀ chunkHash data, recovered.get? chunkHash = some data →
      blake3HexDigest context.blake3 data = chunkHash := by
  obtain ⟨shards, -, rest⟩ := bind_eq_ok_iff.mp succeeded
  obtain ⟨payload, -, extracted⟩ := bind_eq_ok_iff.mp rest
  cases extraction : extractPackChunks context.blake3 payload job.manifest [] with
  | error reason =>
      rw [extraction] at extracted
      cases extracted
  | ok chunks =>
      rw [extraction] at extracted
      cases extracted
      obtain ⟨wanted, -, entries⟩ := bind_eq_ok_iff.mp extraction
      exact extractEntries_sound (fun _ _ found => by cases found) entries

theorem takeRecoveredPack_sound {contexts : Nat → WriteContext} {zstd : Zstd}
    {state : LocalRepo × Dict Text ChunkResult}
    {completed : ErasurePackRecoveryJob × Except String (Dict Text Bytes)}
    (sound : SoundResults blake3 state.2) (recovery : ∀ recovered, completed.2 = .ok recovered →
      ∀ chunkHash data, recovered.get? chunkHash = some data →
        blake3HexDigest blake3 data = chunkHash) :
    SoundResults blake3 (takeRecoveredPack contexts zstd state completed).2 := by
  rw [takeRecoveredPack]
  split
  · exact sound.failAll
  · rename_i recovered known
    have chunks := recovery recovered known
    dsimp only
    clear recovery known
    generalize completed.1.wantedHashes = wanted
    generalize state.2 = results at sound ⊢
    induction wanted generalizing results with
    | nil => exact sound
    | cons chunkHash rest ih =>
        rw [List.foldl_cons]
        refine ih _ ?_
        rw [takeRecoveredChunk]
        cases found : recovered.get? chunkHash with
        | none => exact sound.set_error chunkHash _
        | some data => exact sound.set_ok (chunks chunkHash data found)

theorem groupChunk_sound {locations : Dict Text Text}
    {grouped : Dict Text (List Text) × Dict Text ChunkResult}
    (sound : SoundResults blake3 grouped.2) (chunkHash : Text) :
    SoundResults blake3 (groupChunk locations grouped chunkHash).2 := by
  rw [groupChunk]
  split
  · exact sound.set_error chunkHash _
  · exact sound

theorem addRecoveryJob_sound {db : MetadataDB}
    {built : List ErasurePackRecoveryJob × Dict Text ChunkResult}
    (sound : SoundResults blake3 built.2) (pack : Text × List Text) :
    SoundResults blake3 (addRecoveryJob db built pack).2 := by
  rw [addRecoveryJob]
  split
  · exact sound
  · exact sound.failAll

/-- What EC recovery returns as bytes has the hash that was asked for. -/
theorem recoverManyRawChunks_sound {contexts : Nat → WriteContext} {zstd : Zstd}
    {context : ErasureContext} {db : MetadataDB} {repo after : LocalRepo} {chunkHashes : List Text}
    (recovered : recoverManyRawChunks contexts zstd context db repo chunkHashes =
      .ok (after, results)) :
    SoundResults context.blake3 results := by
  rw [recoverManyRawChunks] at recovered
  dsimp only at recovered
  split at recovered
  · cases recovered
    exact .empty
  obtain ⟨locations, -, returned⟩ := bind_eq_ok_iff.mp recovered
  have ended := congrArg Prod.snd (pure_eq_ok_iff.mp returned)
  dsimp only at ended
  rw [← ended]
  refine List.foldlRecOn (motive := fun state : LocalRepo × Dict Text ChunkResult =>
    SoundResults context.blake3 state.2)
    _ (takeRecoveredPack contexts zstd) ?_ ?_
  · refine List.foldlRecOn
      (motive := fun built : List ErasurePackRecoveryJob × Dict Text ChunkResult =>
      SoundResults context.blake3 built.2) _ (addRecoveryJob db) ?_ fun built sound pack _ =>
        addRecoveryJob_sound sound pack
    exact List.foldlRecOn (motive := fun grouped : Dict Text (List Text) × Dict Text ChunkResult =>
      SoundResults context.blake3 grouped.2) _ (groupChunk locations) SoundResults.empty
      fun grouped sound chunkHash _ => groupChunk_sound sound chunkHash
  · intro state sound completed arranged
    obtain ⟨job, -, rfl⟩ := List.mem_map.mp ((context.packs.permuted _).mem_iff.mp arranged)
    exact takeRecoveredPack_sound sound fun recovered succeeded => recoverPackChunks_sound succeeded

end Stopan.Restore
