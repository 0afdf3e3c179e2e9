import Stopan.Erasure.VerifyRuns
import Stopan.Replication.CopyCounts
import Stopan.Replication.VerifyEvidence

namespace Stopan.Protection

open Stopan.Lib Stopan.Common Stopan.Cluster Stopan.Metadata Stopan.Replication Stopan.Erasure

/-- The result of a probe of chunks rests on the batches before its first failure. -/
structure ChunkProbeEvidence (probeBatchHashes : Nat) (target : ClusterMember) (hashes : List Text)
    (answers : VerifyAnswers) : Prop where
  failed : ∀ failing reason, answers.connect = none →
    failing < (iterBatches (orderedUnique hashes) probeBatchHashes).length →
    (∀ call < failing, ∃ items, answers.probe call = .ok items) →
    answers.probe failing = .error reason →
    RestsOn (probeTarget probeBatchHashes target hashes answers)
      (iterBatches (orderedUnique hashes) probeBatchHashes)
      answers.probe failing (some reason)
  unconnected : ∀ reason, orderedUnique hashes ≠ [] → answers.connect = some reason →
    RestsOn (probeTarget probeBatchHashes target hashes answers)
      (iterBatches (orderedUnique hashes) probeBatchHashes)
      answers.probe 0 (some reason)
  finished : orderedUnique hashes ≠ [] → answers.connect = none →
    (∀ call < (iterBatches (orderedUnique hashes) probeBatchHashes).length, ∃ items,
      answers.probe call = .ok items) →
    RestsOn (probeTarget probeBatchHashes target hashes answers)
      (iterBatches (orderedUnique hashes) probeBatchHashes)
      answers.probe (iterBatches (orderedUnique hashes) probeBatchHashes).length none

/-- The same of a probe of shards. -/
structure ShardProbeEvidence (probeBatchHashes : Nat) (refs : List ShardRef)
    (answers : ShardProbeAnswers) : Prop where
  failed : ∀ failing reason, failing < (iterBatches refs probeBatchHashes).length →
    (∀ call < failing, ∃ missing, probeMissingShards (answers.probe call) = .ok missing) →
    probeMissingShards (answers.probe failing) = .error reason →
    (probeAddress probeBatchHashes refs answers).RestsOn (iterBatches refs probeBatchHashes)
      (fun call => probeMissingShards (answers.probe call)) failing (some reason)
  finished : (∀ call < (iterBatches refs probeBatchHashes).length,
      ∃ missing, probeMissingShards (answers.probe call) = .ok missing) →
    (probeAddress probeBatchHashes refs answers).RestsOn (iterBatches refs probeBatchHashes)
      (fun call => probeMissingShards (answers.probe call))
        (iterBatches refs probeBatchHashes).length none

/-- A verification of these candidates records each of them, and a chunk as VERIFIED exactly when
enough addresses of its targets confirmed it. -/
def ChunkVerdicts (blake3 : Blake3) (context : RemoteContext) (db : MetadataDB)
    (candidates : List VerificationCandidate) : Prop :=
  ∃ plan, planVerification blake3 context
    (candidates.filter fun candidate => candidate.desiredRf ≠ 0) = .ok plan ∧
    ∀ probeBatchHashes answers order now, order.Perm plan.targetChunks.keys →
      ∃ after, verify blake3 context db candidates probeBatchHashes answers order now = .ok after ∧
        ∀ candidate ∈ candidates, candidate.desiredRf ≠ 0 →
          ∃ row, after.chunkProtection.get? candidate.chunkHash = some row ∧
            (row.protectionState = .verified ↔
            candidate.desiredRf ≤
              (confirmingTargets blake3 context [strip context.originNodeId] probeBatchHashes plan
              answers candidate).length)

/-- A verification of these packs records each of them, and a pack as VERIFIED exactly when each of
its recorded shards was reported. -/
def PackVerdicts (db : MetadataDB) (nodeAddresses : Dict Text Text)
    (candidates : List ErasureDataPackRecord) : Prop :=
  ∃ plan, planPacks db nodeAddresses candidates = .ok plan ∧
    ∀ probeBatchHashes answers order now, order.Perm plan.refsByAddress.keys →
      ∃ after, verifyPacks db nodeAddresses candidates probeBatchHashes answers order now =
        .ok after ∧
        ∀ pack ∈ candidates, ∃ row, after.getErasureDataPack pack.1 = some row ∧
          (row.protectionState = .verified ↔ ∀ shard ∈ db.getErasurePackShards pack.1,
            ShardReported nodeAddresses probeBatchHashes plan answers pack.1 shard)

theorem chunkVerdicts_of_linked {blake3 : Blake3} {context : RemoteContext} {db : MetadataDB}
    {candidates : List VerificationCandidate} (linked : MetadataDB.Linked db)
    (named : strip context.originNodeId ≠ []) (distinct : (candidates.map (·.chunkHash)).Nodup)
    (recorded : ∀ candidate ∈ candidates, candidate.chunkHash ∈ db.chunkProtection.keys) :
    ChunkVerdicts blake3 context db candidates := by
  have origin : excludedOrigin context.originNodeId = .ok [strip context.originNodeId] := by
    rw [excludedOrigin, if_neg]
    rwa [List.isEmpty_iff]
  have valid : ∀ candidate ∈ candidates, isValidBlake3Hex candidate.chunkHash = true :=
    fun candidate member =>
    linked.chunkNames _ (linked.protection _ (recorded candidate member))
  have known : ∀ candidate ∈ candidates,
      (db.chunkProtection.contains candidate.chunkHash ||
        db.chunks.contains candidate.chunkHash) = true := by
    intro candidate member
    rw [(Dict.contains_iff ..).mpr (recorded candidate member), Bool.true_or]
  obtain ⟨plan, planned⟩ := @planVerification_returns blake3 context _ origin
    (candidates.filter fun candidate => candidate.desiredRf ≠ 0)
  refine ⟨plan, planned, ?_⟩
  intro probeBatchHashes answers order now completed
  obtain ⟨after, verified⟩ :=
    @verify_returns blake3 context _ probeBatchHashes answers order candidates db now origin
    valid known
  refine ⟨after, verified, ?_⟩
  intro candidate member remote
  exact verify_verified_iff origin distinct valid planned completed verified member remote

theorem packVerdicts_of_sound {db : MetadataDB} {nodeAddresses : Dict Text Text}
    {candidates : List ErasureDataPackRecord} (sound : db.ErasureSound) (named : PacksNamed db)
    (distinct : (candidates.map Prod.fst).Nodup)
    (stored : ∀ pack ∈ candidates, db.getErasureDataPack pack.1 = some pack.2) :
    PackVerdicts db nodeAddresses candidates := by
  obtain ⟨plan, planned⟩ := @planPacks_returns db nodeAddresses candidates sound named stored
  refine ⟨plan, planned, ?_⟩
  intro probeBatchHashes answers order now completed
  obtain ⟨after, verified⟩ :=
    @verifyPacks_returns db now nodeAddresses candidates plan probeBatchHashes answers order
    sound named distinct stored planned completed
  refine ⟨after, verified, ?_⟩
  intro pack member
  exact verifyPacks_verified_iff sound
    (candidate_valid named stored) distinct stored planned completed verified member

/-- Verification uses only what was answered. The remote context has the origin that
`resolve_remote_protection_context` has stripped and found not to be blank; candidates are rows of
the catalog. -/
theorem verification_restsOnAnswers :
    (∀ probeBatchHashes target hashes answers,
      ChunkProbeEvidence probeBatchHashes target hashes answers) ∧
    (∀ probeBatchHashes refs answers, ShardProbeEvidence probeBatchHashes refs answers) ∧
    (∀ blake3 (context : RemoteContext) calls (candidates : List VerificationCandidate),
      strip context.originNodeId ≠ [] → (candidates.map (·.chunkHash)).Nodup →
      (∀ candidate ∈ candidates,
        candidate.chunkHash ∈ (MetadataDB.reached calls).chunkProtection.keys) →
      ChunkVerdicts blake3 context (MetadataDB.reached calls) candidates) ∧
    ∀ (events : List CatalogEvent) nodeAddresses (candidates : List ErasureDataPackRecord),
      (candidates.map Prod.fst).Nodup →
      (∀ pack ∈ candidates, (events.foldl catalogStep .empty).getErasureDataPack pack.1 =
        some pack.2) →
      PackVerdicts (events.foldl catalogStep .empty) nodeAddresses candidates := by
  refine ⟨?_, ?_, ?_, ?_⟩
  · intro probeBatchHashes target hashes answers
    exact
      { failed := fun _ _ connected inside earlier failed =>
          probeTarget_failed connected inside earlier failed
        unconnected := fun _ asked refused => probeTarget_unconnected asked refused
        finished := fun asked connected answered => probeTarget_finished asked connected answered }
  · intro probeBatchHashes refs answers
    exact
      { failed := fun _ _ inside earlier failed => probeAddress_failed inside earlier failed
        finished := fun answered => probeAddress_finished answered }
  · intro blake3 context calls candidates named distinct recorded
    exact chunkVerdicts_of_linked (MetadataDB.linked_reached calls) named distinct recorded
  · intro events nodeAddresses candidates distinct stored
    exact packVerdicts_of_sound (foldl_catalogStep_sound events erasureSound_empty)
      (packsNamed_reached events) distinct
      stored

/-- One recipe of one chunk. -/
def oneChunk : List CatalogCall :=
  [.recipe (.getOrCreateRecipe abcHash
    [{ chunkOrder := 0, chunkHash := toPyText abcHash, chunkSize := 3 }] 2)]

/-- One pack with a data shard and a parity shard. -/
def onePack : List CatalogEvent :=
  [.elsewhere exampleCatalog,
    .register {
      packHash := abcHash, codec := "zfec".toList, dataShards := 1, parityShards :=
        1, payloadSize := 3, paddedSize := 3
      shardSize := 3, chunks := [{ chunkHash := abcHash, offset := 0, length := 3, ordinal := 0 }]
      shards := [{ shardIndex := 0, shardHash := abcHash, nodeId := ['n', '1'], size := 3 },
        { shardIndex := 1, shardHash := abcHash, nodeId := ['n', '2'], size := 3 }] } .placed none
          ⟨0⟩]

/-- The first batch is answered and the second is not. -/
def secondBatchFails : VerifyAnswers where
  taskError := none
  connect := none
  probe call := if call = 0 then .ok [] else .error ['x']

theorem verification_restsOnAnswers_one :
    (probeTarget 1 ⟨['n', '1'], "h:1".toList⟩ [['a'], ['b']] secondBatchFails).completedHashes =
      [['a']] ∧
    ChunkVerdicts exampleDigests (exampleContext "h:1".toList "h:2".toList)
      (MetadataDB.reached oneChunk)
      [{ chunkHash := abcHash, desiredRf := 2, protectionState := .pending }] ∧
    PackVerdicts (onePack.foldl catalogStep .empty) (.ofList [(['n', '1'], "h:1".toList)])
      (onePack.foldl catalogStep .empty).erasureDataPacks.entries := by
  refine ⟨?_, ?_, ?_⟩
  · have first : ∀ call < 1, ∃ items, secondBatchFails.probe call = .ok items := by
      intro call before
      exact ⟨[], by simp [secondBatchFails, Nat.lt_one_iff.mp before]⟩
    exact ((verification_restsOnAnswers.1 _ _ _ _).failed 1
      ['x'] rfl (by decide +kernel) first rfl).completed
  · exact verification_restsOnAnswers.2.2.1 _ _ _ _ (by decide +kernel)
      (by decide +kernel) (by decide +kernel)
  · exact verification_restsOnAnswers.2.2.2 _ _ _ (by decide +kernel) (by decide +kernel)

end Stopan.Protection
