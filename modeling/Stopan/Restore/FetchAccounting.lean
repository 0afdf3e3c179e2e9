import Stopan.Erasure.PackIdentity
import Stopan.Restore.ChunkFetch

namespace Stopan.Restore

open Stopan.Lib Stopan.Common Stopan.Cas Stopan.Cluster Stopan.Metadata Stopan.Rpc

/-- The chunks that some counter accounts for. -/
def RestoreRunStats.accounted (stats : RestoreRunStats) : Nat :=
  stats.chunksFromLocalCas + stats.chunksFromLocalP2pCas + stats.chunksFromRemoteReplication +
    stats.chunksFromEc +
    stats.chunksFailed

def isRecovered (result : Option ChunkResult) : Bool :=
  match result with
  | some (.ok _) => true
  | some (.error _) | none => false

variable {blake3 : Blake3} {multiplicity : Text → Nat} {missing : List Text}
  {start stats : RestoreRunStats}
variable {results : Dict Text ChunkResult} {chunkHash : Text}

theorem get?_failAll {reason : Text → String} {chunkHashes : List Text} :
    (failAll reason results chunkHashes).get? chunkHash =
      if chunkHash ∈ chunkHashes then some (.error (reason chunkHash))
        else results.get? chunkHash := by
  rw [failAll]
  induction chunkHashes generalizing results with
  | nil => simp
  | cons first rest ih =>
      rw [List.foldl_cons, ih, Dict.get?_set]
      by_cases later : chunkHash ∈ rest
      · simp [later]
      · by_cases same : chunkHash = first
        · simp [same]
        · simp [later, same]

theorem mem_keys_failAll {reason : Text → String} {chunkHashes : List Text} :
    chunkHash ∈ (failAll reason results chunkHashes).keys ↔ chunkHash ∈ chunkHashes ∨
      chunkHash ∈ results.keys := by
  rw [Dict.mem_keys_iff, Dict.mem_keys_iff, get?_failAll]
  split <;> simp [*]

/-- Chunks that are looked for have one result each, and the recovered ones are counted. -/
structure Settled (blake3 : Blake3) (multiplicity : Text → Nat) (missing : List Text)
    (start stats : RestoreRunStats) (results : Dict Text ChunkResult) : Prop where
  sound : SoundResults blake3 results
  keys : ∀ chunkHash, chunkHash ∈ results.keys ↔ chunkHash ∈ missing
  counted : stats.accounted = start.accounted +
    tally multiplicity (fun chunkHash => isRecovered (results.get? chunkHash) = true) missing
  requested : stats.chunksRequested = start.chunksRequested

theorem tally_none {holds : Text → Prop} [DecidablePred holds]
    (never : ∀ chunkHash ∈ missing, ¬ holds chunkHash) :
    tally multiplicity holds missing = 0 := by
  rw [tally, List.sum_eq_zero_iff]
  intro value member
  obtain ⟨chunkHash, listed, rfl⟩ := List.mem_map.mp member
  rw [if_neg (never chunkHash listed)]

theorem settled_failAll (reason : Text → String) :
    Settled blake3 multiplicity missing start start (failAll reason .empty missing) := by
  refine ⟨SoundResults.empty.failAll, fun chunkHash => ?_, ?_, rfl⟩
  · simp [mem_keys_failAll]
  · rw [tally_none, Nat.add_zero]
    intro chunkHash member
    rw [get?_failAll, if_pos member]
    simp [isRecovered]

theorem tally_set (distinct : missing.Nodup) (member : chunkHash ∈ missing) (value : ChunkResult)
    (was : isRecovered (results.get? chunkHash) = false) :
    tally multiplicity
      (fun other => isRecovered ((results.set chunkHash value).get? other) = true) missing =
      tally multiplicity (fun other => isRecovered (results.get? other) = true) missing +
        if isRecovered (some value) then multiplicity chunkHash else 0 := by
  cases recovered : isRecovered (some value) with
  | true =>
      refine tally_insert distinct member (by simp [was]) (by simpa using recovered)
        fun other different => ?_
      rw [Dict.get?_set_of_ne _ _ different]
  | false =>
      refine tally_congr fun other _ => ?_
      by_cases same : other = chunkHash
      · simp [same, was, recovered]
      · rw [Dict.get?_set_of_ne _ _ same]

namespace ChunkFetchService

variable {service : ChunkFetchService} {state : FetchState}

theorem validateCompressedChunk_hash {compressedData raw : Bytes} {sourceLabel : String}
    (valid : service.validateCompressedChunk chunkHash compressedData sourceLabel = .ok raw) :
    blake3HexDigest service.blake3 raw = chunkHash := by
  rw [validateCompressedChunk] at valid
  split at valid
  · cases valid
  · split at valid
    · cases valid
      assumption
    · cases valid

theorem get_hash {zstd : Zstd} {files : CasFiles} {raw : Bytes}
    (found : Cas.get zstd blake3 files chunkHash = .ok raw) :
    blake3HexDigest blake3 raw = chunkHash := by
  obtain ⟨compressed, -, valid⟩ := bind_eq_ok_iff.mp found
  rw [decompressAndValidate] at valid
  split at valid
  · cases valid
  · split at valid
    · cases valid
      assumption
    · cases valid

theorem getLocal_hash {repo : LocalRepo} {raw : Bytes}
    (found : service.getLocal repo chunkHash = .found raw) :
    blake3HexDigest service.blake3 raw = chunkHash := by
  rw [getLocal] at found
  split at found
  · split at found
    · cases found
    · split at found
      · rename_i read
        cases found
        exact get_hash read
      · cases found
  · cases found

theorem getP2p_hash {store : LocalStore} {compressedData raw : Bytes}
    (found : service.getP2p store chunkHash = .found (compressedData, raw)) :
    blake3HexDigest service.blake3 raw = chunkHash := by
  rw [getP2p] at found
  split at found
  · cases found
  · split at found
    · cases found
    · split at found
      · rename_i valid
        cases found
        exact validateCompressedChunk_hash valid
      · cases found

/-- Chunks that the first loop has gone through are found and counted, or missing. -/
structure LocalDone (service : ChunkFetchService) (multiplicity : Text → Nat)
    (start : RestoreRunStats) (processed : List Text) (phase : LocalPhase) : Prop where
  sound : SoundResults service.blake3 phase.results
  keys : ∀ chunkHash, chunkHash ∈ phase.results.keys ∨ chunkHash ∈ phase.missing ↔
    chunkHash ∈ processed
  missing : phase.missing.Sublist processed
  counted : phase.state.stats.accounted + (phase.missing.map multiplicity).sum =
    start.accounted + (processed.map multiplicity).sum
  requested : phase.state.stats.chunksRequested = start.chunksRequested

variable {processed : List Text} {phase : LocalPhase}

theorem LocalDone.miss (done : LocalDone service multiplicity start processed phase)
    (errors : Dict Text (List String)) :
    LocalDone service multiplicity start (processed ++ [chunkHash])
      { phase with missing := phase.missing ++ [chunkHash], errors } := by
  refine ⟨done.sound, fun other => ?_, done.missing.append (List.Sublist.refl _), ?_,
    done.requested⟩
  · have before := done.keys other
    simp only [List.mem_append, List.mem_singleton, ← or_assoc, before]
  · have counted := done.counted
    simp only [List.map_append, List.sum_append, List.map_singleton, List.sum_singleton]
    omega

theorem LocalDone.hit {raw : Bytes} {stats : RestoreRunStats} {repo : LocalRepo}
    (done : LocalDone service multiplicity start processed phase) (errors : Dict Text (List String))
    (hash : blake3HexDigest service.blake3 raw = chunkHash)
    (counts : stats.accounted = phase.state.stats.accounted + multiplicity chunkHash)
    (requested : stats.chunksRequested = phase.state.stats.chunksRequested) :
    LocalDone service multiplicity start (processed ++ [chunkHash])
      { phase with state := { repo, stats }, results := phase.results.set chunkHash (.ok raw),
                   errors } := by
  refine ⟨done.sound.set_ok hash, fun other => ?_,
    done.missing.trans (List.sublist_append_left ..), ?_, requested.trans done.requested⟩
  · have before := done.keys other
    rw [Dict.mem_keys_set, List.mem_append, List.mem_singleton, ← before]
    tauto
  · have counted := done.counted
    simp only [List.map_append, List.sum_append, List.map_singleton, List.sum_singleton]
    omega

theorem LocalDone.fetchP2p (done : LocalDone service multiplicity start processed phase)
    (chunkHash : Text) :
    LocalDone service multiplicity start (processed ++ [chunkHash])
      (service.fetchP2p multiplicity phase chunkHash) := by
  rw [ChunkFetchService.fetchP2p]
  split
  · exact done.miss phase.errors
  · exact done.miss phase.errors
  · exact done.miss _
  · rename_i compressedData rawData found
    obtain ⟨store, -, read⟩ := Option.map_eq_some_iff.mp found
    refine done.hit _ (getP2p_hash read) ?_ rfl
    simp only [RestoreRunStats.accounted]
    omega

theorem LocalDone.fetchLocal (done : LocalDone service multiplicity start processed phase)
    (chunkHash : Text) :
    LocalDone service multiplicity start (processed ++ [chunkHash])
      (service.fetchLocal multiplicity phase chunkHash) := by
  rw [ChunkFetchService.fetchLocal]
  split
  · rename_i rawData found
    refine done.hit phase.errors (getLocal_hash found) ?_ rfl
    simp only [RestoreRunStats.accounted]
    omega
  · exact done.fetchP2p chunkHash
  · rename_i detail _
    have noted : LocalDone service multiplicity start processed
        { phase with errors := addError phase.errors chunkHash s!"CAS local: {detail}" } :=
      ⟨done.sound, done.keys, done.missing, done.counted, done.requested⟩
    exact noted.fetchP2p chunkHash

theorem localDone_foldl {chunkHashes : List Text}
    (done : LocalDone service multiplicity start processed phase) :
    LocalDone service multiplicity start (processed ++ chunkHashes)
      (chunkHashes.foldl (service.fetchLocal multiplicity) phase) := by
  induction chunkHashes generalizing processed phase with
  | nil => simpa using done
  | cons chunkHash rest ih => simpa using ih (done.fetchLocal chunkHash)

/-- A round has a result or an open question for each missing chunk. -/
structure RoundDone (service : ChunkFetchService) (multiplicity : Text → Nat) (missing : List Text)
    (start : RestoreRunStats) (round : RemoteState) : Prop where
  sound : SoundResults service.blake3 round.results
  keys : ∀ chunkHash, chunkHash ∈ round.results.keys ∨ chunkHash ∈ round.unresolved ↔
    chunkHash ∈ missing
  unresolved : ∀ chunkHash ∈ round.unresolved, round.results.get? chunkHash = none
  counted : round.state.stats.accounted = start.accounted +
    tally multiplicity (fun chunkHash => isRecovered (round.results.get? chunkHash) = true) missing
  requested : round.state.stats.chunksRequested = start.chunksRequested

variable {round : RemoteState}

theorem RoundDone.takeItem (distinct : missing.Nodup)
    (done : RoundDone service multiplicity missing start round)
    (address : Text) (batch : Dict Text BatchRetrieveItemResult) (chunkHash : Text) :
    RoundDone service multiplicity missing start
      (service.takeItem multiplicity address batch round chunkHash) := by
  have noted : ∀ errors corrupt, RoundDone service multiplicity missing start
      { round with
        state :=
          { round.state with stats := { round.state.stats with remoteChunksCorrupt := corrupt } }
        errors } :=
          fun _ _ => ⟨done.sound, done.keys, done.unresolved, done.counted, done.requested⟩
  rw [ChunkFetchService.takeItem]
  split
  · exact done
  rename_i contained
  have pending : chunkHash ∈ round.unresolved := by simpa using contained
  split
  · exact noted _ round.state.stats.remoteChunksCorrupt
  · split
    · exact noted _ round.state.stats.remoteChunksCorrupt
    · split
      · exact noted _ _
      · rename_i item _ _ rawData valid
        have isMissing := (done.keys chunkHash).mp (.inr pending)
        have none := done.unresolved chunkHash pending
        refine ⟨done.sound.set_ok (validateCompressedChunk_hash valid), fun other => ?_,
          fun other still => ?_, ?_, done.requested⟩
        · have before := done.keys other
          rw [Dict.mem_keys_set, List.mem_filter, decide_eq_true_eq, ← before]
          by_cases same : other = chunkHash
          · simp [same, pending]
          · simp [same]
        · obtain ⟨stillOpen, different⟩ := List.mem_filter.mp still
          rw [Dict.get?_set_of_ne _ _ (of_decide_eq_true different)]
          exact done.unresolved other stillOpen
        · have counted := done.counted
          rw [tally_set distinct isMissing _ (by rw [none]; rfl)]
          simp only [RestoreRunStats.accounted, isRecovered, if_true] at counted ⊢
          omega

theorem RoundDone.takeCall (distinct : missing.Nodup)
    (done : RoundDone service multiplicity missing start round)
    (access : RemoteAccess) (call : Text × List Text) :
    RoundDone service multiplicity missing start
      (service.takeCall access multiplicity round call) := by
  rw [ChunkFetchService.takeCall]
  split
  · exact ⟨done.sound, done.keys, done.unresolved, done.counted, done.requested⟩
  · exact List.foldlRecOn (motive := RoundDone service multiplicity missing start) _ _ done
      fun round done chunkHash _ => done.takeItem distinct _ _ chunkHash

theorem RoundDone.remoteRounds (distinct : missing.Nodup)
    (done : RoundDone service multiplicity missing start round)
    (access : RemoteAccess) (targets : Text → List ClusterMember) (ranks : List Nat) :
    RoundDone service multiplicity missing start
      (service.remoteRounds access multiplicity targets ranks round) := by
  induction ranks generalizing round with
  | nil => exact done
  | cons rank ranks ih =>
      rw [ChunkFetchService.remoteRounds]
      split
      · exact done
      · dsimp only
        split
        · exact done
        · refine ih (List.foldlRecOn
            (motive := RoundDone service multiplicity missing start) _ _ done
            fun round done call _ => ?_)
          exact done.takeCall distinct access call

/-- The chunks that are still open at the end have failed. -/
theorem RoundDone.settled (done : RoundDone service multiplicity missing start round)
    (reason : Text → String) :
    Settled service.blake3 multiplicity missing start round.state.stats
      (failAll reason round.results round.unresolved) := by
  refine ⟨done.sound.failAll, fun chunkHash => ?_, ?_, done.requested⟩
  · rw [← done.keys, mem_keys_failAll, or_comm]
  · rw [done.counted]
    refine congrArg _ (tally_congr fun chunkHash _ => ?_)
    rw [get?_failAll]
    split
    · rename_i still
      rw [done.unresolved chunkHash still]
      simp [isRecovered]
    · rfl

theorem roundDone_start (targets : Text → List ClusterMember)
    (initialErrors : Dict Text (List String)) :
    RoundDone service multiplicity missing state.stats
      (startRound targets state missing initialErrors) := by
  refine ⟨SoundResults.empty.failAll, fun chunkHash => ?_, fun chunkHash pending => ?_, ?_, rfl⟩
  · rw [startRound, mem_keys_failAll, List.mem_filter, List.mem_filter]
    by_cases member : chunkHash ∈ missing
    · cases (targets chunkHash).isEmpty <;> simp [member]
    · simp [member]
  · have targeted := (List.mem_filter.mp pending).2
    rw [startRound, get?_failAll, if_neg ?_]
    · rfl
    · intro untargeted
      rw [(List.mem_filter.mp untargeted).2] at targeted
      cases targeted
  · rw [tally_none, Nat.add_zero]
    · rfl
    · intro chunkHash _
      rw [startRound, get?_failAll]
      split <;> simp [isRecovered]

theorem fetchMissingManyFromRemote_settled {initialErrors : Dict Text (List String)}
    {after : FetchState} (distinct : missing.Nodup)
    (fetched : service.fetchMissingManyFromRemote multiplicity state missing initialErrors =
      .ok (after, results)) :
    Settled service.blake3 multiplicity missing state.stats after.stats results := by
  rw [fetchMissingManyFromRemote] at fetched
  split at fetched
  · cases fetched
    exact settled_failAll _
  · split at fetched
    · cases fetched
      exact settled_failAll _
    · obtain ⟨cluster, -, returned⟩ := bind_eq_ok_iff.mp fetched
      cases pure_eq_ok_iff.mp returned
      exact ((roundDone_start _ _).remoteRounds distinct _ _ _).settled _

theorem takeEcResult_settled {ecResults : Dict Text ChunkResult}
    {state : RestoreRunStats × Dict Text ChunkResult}
    (distinct : missing.Nodup) (settled : Settled blake3 multiplicity missing start state.1 state.2)
    (sound : SoundResults blake3 ecResults) (member : chunkHash ∈ missing)
    (unresolved : isFailure (state.2.get? chunkHash) = true) :
    Settled blake3 multiplicity missing start
      (takeEcResult multiplicity ecResults state chunkHash).1
      (takeEcResult multiplicity ecResults state chunkHash).2 := by
  have was : isRecovered (state.2.get? chunkHash) = false := by
    cases known : state.2.get? chunkHash with
    | none => rfl
    | some result =>
        rw [known] at unresolved
        cases result with
        | ok raw => cases unresolved
        | error detail => rfl
  have keys : ∀ value : ChunkResult, ∀ other, other ∈ (state.2.set chunkHash value).keys ↔
      other ∈ missing := by
    intro value other
    rw [Dict.mem_keys_set, settled.keys]
    constructor
    · rintro (rfl | present)
      · exact member
      · exact present
    · exact .inr
  have stillFailed : ∀ detail stats, stats.accounted = state.1.accounted →
      stats.chunksRequested = state.1.chunksRequested →
      Settled blake3 multiplicity missing start stats (state.2.set chunkHash (.error detail)) := by
    intro detail stats counts requested
    refine ⟨settled.sound.set_error chunkHash detail, keys _, ?_, requested.trans settled.requested⟩
    rw [tally_set distinct member _ was, counts, settled.counted]
    simp [isRecovered]
  rw [takeEcResult]
  split
  · exact settled
  · rename_i raw found
    refine ⟨settled.sound.set_ok (sound chunkHash raw found), keys _, ?_, settled.requested⟩
    have counted := settled.counted
    rw [tally_set distinct member _ was]
    simp only [RestoreRunStats.accounted, isRecovered, if_true] at counted ⊢
    omega
  · split
    · exact stillFailed _ _ rfl rfl
    · exact stillFailed _ _ rfl rfl
    · exact stillFailed _ _ rfl rfl

theorem takeEcResult_other {ecResults : Dict Text ChunkResult}
    {state : RestoreRunStats × Dict Text ChunkResult} {other : Text}
    (different : other ≠ chunkHash) :
    (takeEcResult multiplicity ecResults state chunkHash).2.get? other = state.2.get? other := by
  rw [takeEcResult]
  split
  · rfl
  · exact Dict.get?_set_of_ne _ _ different
  · split <;> exact Dict.get?_set_of_ne _ _ different

theorem foldl_takeEcResult {ecResults : Dict Text ChunkResult}
    {state : RestoreRunStats × Dict Text ChunkResult}
    {unresolved : List Text} (distinct : missing.Nodup) (distinctUnresolved : unresolved.Nodup)
    (settled : Settled blake3 multiplicity missing start state.1 state.2)
    (sound : SoundResults blake3 ecResults)
    (members : ∀ chunkHash ∈ unresolved, chunkHash ∈ missing)
    (failures : ∀ chunkHash ∈ unresolved, isFailure (state.2.get? chunkHash) = true) :
    Settled blake3 multiplicity missing start
      (unresolved.foldl (takeEcResult multiplicity ecResults) state).1
      (unresolved.foldl (takeEcResult multiplicity ecResults) state).2 := by
  induction unresolved generalizing state with
  | nil => exact settled
  | cons chunkHash rest ih =>
      obtain ⟨fresh, distinctRest⟩ := List.nodup_cons.mp distinctUnresolved
      refine ih distinctRest
        (takeEcResult_settled distinct settled sound (members chunkHash List.mem_cons_self)
        (failures chunkHash List.mem_cons_self))
          (fun other later => members other (List.mem_cons_of_mem _ later)) ?_
      intro other later
      have different : other ≠ chunkHash := by
        rintro rfl
        exact fresh later
      rw [takeEcResult_other different]
      exact failures other (List.mem_cons_of_mem _ later)

theorem recoverUnresolvedWithEc_settled {erasure : MetadataDB × ErasureContext} {after : FetchState}
    {remoteResults : Dict Text ChunkResult} (distinct : missing.Nodup)
    (settled : Settled service.blake3 multiplicity missing start state.stats remoteResults)
    (recovered : service.recoverUnresolvedWithEc multiplicity erasure state missing remoteResults =
      .ok (after, results)) :
    Settled service.blake3 multiplicity missing start after.stats results := by
  rw [recoverUnresolvedWithEc] at recovered
  dsimp only at recovered
  split at recovered
  · cases recovered
    exact settled
  · obtain ⟨⟨repo, ecResults⟩, fromPacks, returned⟩ := bind_eq_ok_iff.mp recovered
    cases pure_eq_ok_iff.mp returned
    have sound : SoundResults service.blake3 ecResults := recoverManyRawChunks_sound fromPacks
    exact foldl_takeEcResult distinct (distinct.filter _) settled sound
      (fun chunkHash unresolved => List.mem_of_mem_filter unresolved)
      fun chunkHash unresolved => (List.mem_filter.mp unresolved).2

theorem fetchRemote_settled {phase : LocalPhase} {after : FetchState}
    (distinct : phase.missing.Nodup)
    (fetched : service.fetchRemote multiplicity phase = .ok (after, results)) :
    Settled service.blake3 multiplicity phase.missing phase.state.stats after.stats results := by
  rw [fetchRemote] at fetched
  split at fetched
  · exact fetchMissingManyFromRemote_settled distinct fetched
  · cases fetched
    exact settled_failAll _

theorem fetchErasure_settled {after : FetchState} {remoteResults : Dict Text ChunkResult}
    (distinct : missing.Nodup)
    (settled : Settled service.blake3 multiplicity missing start state.stats remoteResults)
    (fetched : service.fetchErasure multiplicity missing (state, remoteResults) =
      .ok (after, results)) :
    Settled service.blake3 multiplicity missing start after.stats results := by
  rw [fetchErasure] at fetched
  split at fetched
  · cases fetched
    exact settled
  · exact recoverUnresolvedWithEc_settled distinct settled fetched

theorem fetchMissing_settled {phase : LocalPhase} {after : FetchState}
    (distinct : phase.missing.Nodup)
    (fetched : service.fetchMissing multiplicity phase = .ok (after, results)) :
    ∃ found, results = phase.results.update found.entries ∧ SoundResults service.blake3 found ∧
      (∀ chunkHash, chunkHash ∈ found.keys ↔ chunkHash ∈ phase.missing) ∧
      after.stats.accounted = phase.state.stats.accounted + (phase.missing.map multiplicity).sum ∧
      after.stats.chunksRequested = phase.state.stats.chunksRequested := by
  obtain ⟨⟨state, found⟩, sources, returned⟩ := bind_eq_ok_iff.mp fetched
  obtain ⟨⟨remoteState, remoteResults⟩, remote, erasure⟩ := bind_eq_ok_iff.mp sources
  cases pure_eq_ok_iff.mp returned
  have settled := fetchErasure_settled distinct (fetchRemote_settled distinct remote) erasure
  refine ⟨found, rfl, settled.sound, settled.keys, ?_, settled.requested⟩
  have shared : tally multiplicity
      (fun chunkHash => isRecovered (found.get? chunkHash) = true) phase.missing +
      tally multiplicity (fun chunkHash => isFailure (found.get? chunkHash) = true) phase.missing =
      (phase.missing.map multiplicity).sum := by
    refine tally_add fun chunkHash member => ?_
    obtain ⟨result, known⟩ := (Dict.mem_keys_iff ..).mp ((settled.keys chunkHash).mpr member)
    rw [known]
    cases result <;> simp [isRecovered, isFailure]
  have counted := settled.counted
  simp only [failed, RestoreRunStats.accounted] at counted ⊢
  omega

theorem sum_count_orderedUnique (chunkHashes : List Text) :
    ((orderedUnique chunkHashes).map fun chunkHash => chunkHashes.count chunkHash).sum =
      chunkHashes.length := by
  have same : (orderedUnique chunkHashes).Perm chunkHashes.dedup :=
    (List.perm_ext_iff_of_nodup (orderedUnique_nodup _) (List.nodup_dedup _)).mpr
      fun chunkHash => by
      rw [mem_orderedUnique, List.mem_dedup]
  rw [(same.map _).sum_eq, ← List.sum_map_count_dedup_eq_length chunkHashes]
  refine congrArg List.sum (List.map_congr_left fun chunkHash _ => ?_)
  congr 1
  exact lawful_beq_subsingleton _ _

theorem recoverManyRawChunks_returns {contexts : Nat → WriteContext} {zstd : Zstd}
    {context : ErasureContext} {db : MetadataDB} {chunkHashes : List Text} (repo : LocalRepo)
    (valid : ∀ chunkHash ∈ chunkHashes, isValidBlake3Hex chunkHash = true)
    (few : chunkHashes.length ≤ maxVariableNumber) :
    ∃ recovered, recoverManyRawChunks contexts zstd context db repo chunkHashes =
      .ok recovered := by
  have listed : DistinctHashes (orderedUnique chunkHashes) :=
    ⟨fun chunkHash member => valid chunkHash (mem_orderedUnique.mp member), orderedUnique_nodup _⟩
  have within : ¬ maxVariableNumber < (orderedUnique chunkHashes).length := by
    have shorter :=
      (List.subperm_of_subset (orderedUnique_nodup chunkHashes)
        fun _ => mem_orderedUnique.mp).length_le
    omega
  rw [recoverManyRawChunks]
  dsimp only
  split
  · exact ⟨_, rfl⟩
  · rw [getErasureChunkLocations, listed.unique]
    exact ⟨_, by rw [bind_eq_ok_iff]; exact ⟨_, if_neg within, rfl⟩⟩

/-- The lookup of data packs can take these hashes, if there is one. -/
def CanLookUp (service : ChunkFetchService) (chunkHashes : List Text) : Prop :=
  service.erasure = none ∨
    (∀ chunkHash ∈ chunkHashes, isValidBlake3Hex chunkHash = true) ∧
      chunkHashes.length ≤ maxVariableNumber

theorem fetchErasure_returns (fetched : FetchState × Dict Text ChunkResult)
    (lookup : service.CanLookUp missing) :
    ∃ found, service.fetchErasure multiplicity missing fetched = .ok found := by
  rw [fetchErasure]
  cases erasure : service.erasure with
  | none => exact ⟨_, rfl⟩
  | some context =>
      obtain ⟨valid, few⟩ := lookup.resolve_left (by simp [erasure])
      simp only [recoverUnresolvedWithEc]
      split
      · exact ⟨_, rfl⟩
      · obtain ⟨recovered, succeeded⟩ := recoverManyRawChunks_returns fetched.1.repo
          (fun chunkHash member => valid chunkHash (List.mem_of_mem_filter member))
            ((List.length_filter_le ..).trans few)
        rw [succeeded]
        exact ⟨_, rfl⟩

theorem fetchMissing_returns {phase : LocalPhase}
    (cluster : ∀ access, service.remote = some access → ∃ view, access.cluster = .ok view)
    (lookup : service.CanLookUp phase.missing) :
    ∃ fetched, service.fetchMissing multiplicity phase = .ok fetched := by
  have remote : ∃ fetched, service.fetchRemote multiplicity phase = .ok fetched := by
    rw [fetchRemote, fetchMissingManyFromRemote]
    split
    · split
      · exact ⟨_, rfl⟩
      · split
        · exact ⟨_, rfl⟩
        · rename_i access known
          obtain ⟨view, resolved⟩ := cluster access known
          rw [resolved]
          exact ⟨_, rfl⟩
    · exact ⟨_, rfl⟩
  obtain ⟨fetched, remote⟩ := remote
  obtain ⟨found, erasure⟩ : ∃ found, service.fetchErasure multiplicity phase.missing fetched =
    .ok found :=
    fetchErasure_returns fetched lookup
  rw [fetchMissing, remote]
  exact ⟨_, bind_eq_ok_iff.mpr ⟨found, erasure, rfl⟩⟩

/-- What the first loop leaves, from an empty phase. -/
theorem localDone_all (service : ChunkFetchService) (state : FetchState) (multiplicity : Text → Nat)
    (chunkHashes : List Text) :
    LocalDone service multiplicity state.stats chunkHashes
      (chunkHashes.foldl (service.fetchLocal multiplicity)
        { state, results := .empty, missing := [], errors := .empty }) := by
  have nothing : LocalDone service multiplicity state.stats []
      { state, results := .empty, missing := [], errors := .empty } :=
    ⟨SoundResults.empty, fun chunkHash => by simp, List.Sublist.refl _, rfl, rfl⟩
  simpa using localDone_foldl nothing

theorem fetchManyRawChunks_sound {after : FetchState} {chunkHashes : List Text}
    (fetched : service.fetchManyRawChunks state chunkHashes = .ok (after, results)) :
    SoundResults service.blake3 results := by
  have done :=
    localDone_all service { state with stats := requested state.stats chunkHashes.length }
    (fun chunkHash => chunkHashes.count chunkHash) (orderedUnique chunkHashes)
  rw [fetchManyRawChunks] at fetched
  generalize (orderedUnique chunkHashes).foldl _ _ = phase at done fetched
  split at fetched
  · cases fetched
    exact done.sound
  · obtain ⟨found, rfl, sound, -⟩ :=
      fetchMissing_settled ((orderedUnique_nodup _).sublist done.missing) fetched
    intro chunkHash raw known
    rcases Dict.get?_update_cases known with recovered | ⟨-, present⟩
    · exact sound chunkHash raw (Dict.get?_eq_some_iff.mpr recovered)
    · exact done.sound chunkHash raw present

theorem fetchManyRawChunks_returns {chunkHashes : List Text}
    (cluster : ∀ access, service.remote = some access → ∃ view, access.cluster = .ok view)
    (lookup : service.CanLookUp chunkHashes) :
    ∃ after results, service.fetchManyRawChunks state chunkHashes = .ok (after, results) := by
  have done :=
    localDone_all service { state with stats := requested state.stats chunkHashes.length }
    (fun chunkHash => chunkHashes.count chunkHash) (orderedUnique chunkHashes)
  rw [fetchManyRawChunks]
  generalize (orderedUnique chunkHashes).foldl _ _ = phase at done ⊢
  split
  · exact ⟨_, _, rfl⟩
  · have members : ∀ chunkHash ∈ phase.missing, chunkHash ∈ chunkHashes := fun chunkHash missing =>
      mem_orderedUnique.mp (done.missing.subset missing)
    have shorter :=
      (List.subperm_of_subset ((orderedUnique_nodup _).sublist done.missing) members).length_le
    obtain ⟨fetched, succeeded⟩ :=
      service.fetchMissing_returns cluster (lookup.imp id fun ⟨valid, few⟩ =>
      ⟨fun chunkHash missing => valid chunkHash (members chunkHash missing), shorter.trans few⟩)
    exact ⟨fetched.1, fetched.2, succeeded⟩

/-- Bytes are returned only under their own hash, every requested hash has one result and every
request is counted once; a fetch whose cluster can be resolved returns. -/
theorem fetchManyRawChunks_accounted (service : ChunkFetchService) (state : FetchState)
    (chunkHashes : List Text) :
    (∀ after results, service.fetchManyRawChunks state chunkHashes = .ok (after, results) →
      (∀ chunkHash raw, results.get? chunkHash = some (.ok raw) →
        blake3HexDigest service.blake3 raw = chunkHash) ∧
      (∀ chunkHash, chunkHash ∈ results.keys ↔ chunkHash ∈ chunkHashes) ∧ results.keys.Nodup ∧
      after.stats.chunksRequested = state.stats.chunksRequested + chunkHashes.length ∧
      after.stats.accounted = state.stats.accounted + chunkHashes.length) ∧
    ((∀ access, service.remote = some access → ∃ view, access.cluster = .ok view) →
      (∀ chunkHash ∈ chunkHashes, isValidBlake3Hex chunkHash = true) →
      chunkHashes.length ≤ maxVariableNumber →
      ∃ after results, service.fetchManyRawChunks state chunkHashes = .ok (after, results)) := by
  refine ⟨fun after results fetched => ?_,
    fun cluster valid few => fetchManyRawChunks_returns cluster (.inr ⟨valid, few⟩)⟩
  have done :=
    localDone_all service { state with stats := requested state.stats chunkHashes.length }
    (fun chunkHash => chunkHashes.count chunkHash) (orderedUnique chunkHashes)
  have weights := sum_count_orderedUnique chunkHashes
  have sound := fetchManyRawChunks_sound fetched
  rw [fetchManyRawChunks] at fetched
  generalize (orderedUnique chunkHashes).foldl _ _ = phase at done fetched
  have accounted := done.counted
  have requestedNow := done.requested
  rw [weights] at accounted
  split at fetched
  · rename_i complete
    cases fetched
    rw [complete] at accounted
    refine ⟨sound, fun chunkHash => ?_, Dict.keys_nodup _, requestedNow, accounted⟩
    have keys := done.keys chunkHash
    rw [complete, mem_orderedUnique] at keys
    simpa using keys
  · obtain ⟨found, rfl, -, keys, counted, requestedAfter⟩ :=
      fetchMissing_settled ((orderedUnique_nodup _).sublist done.missing) fetched
    refine ⟨sound, fun chunkHash => ?_, Dict.keys_nodup _, requestedAfter.trans requestedNow, ?_⟩
    · have localKeys := done.keys chunkHash
      rw [mem_orderedUnique, ← keys] at localKeys
      rw [Dict.mem_keys_update, or_comm, ← localKeys]
      rfl
    · rw [counted]
      exact accounted

def sevenDigest : Blake3 :=
  .ofTable [([7], 0x448bd8dd9624154a690f8e84dc52d6f633ba7cd545c4d3c9b4e0f6a2f6fa71f4)]

/-- The store of the local node has the chunk of the byte 7, and nothing has any other chunk. -/
def p2pOnly : ChunkFetchService where
  blake3 := sevenDigest
  zstd := .rawBlock
  decompressWithin _ data := Zstd.rawBlock.decompress data
  maxChunkSize := 64
  unreadable _ := none
  writes _ := { now := 0, inode := 1, outcomes := fun _ => .done }
  p2pLocalRepo := some {
    files :=
      .ofList [(blake3HexDigest sevenDigest [7],
        { data := Zstd.rawBlock.compress [7], mtime := 0, inode := 0 })]
    unreadable := fun _ => none }
  remote := none
  rf := 1
  clusterToken := []
  erasure := none
  remoteChunkRecovery := true

def noFetches : FetchState where
  repo := { files := .empty, writes := 0 }
  stats := {
    chunksRequested := 0
    chunksFromLocalCas := 0
    chunksFromLocalP2pCas := 0
    chunksFromRemoteReplication := 0
    chunksFromEc := 0
    chunksFailed := 0
    remoteChunksCorrupt := 0
    ecRecoveryFailures := 0 }

namespace ThreeSources

open Erasure (Resplit.blake3 Striping.zfec Resplit.events)

def hashOf (data : Bytes) : Text := blake3HexDigest Resplit.blake3 data

def view : ClusterView where
  selfNodeId := none
  members := [⟨"n1".toList, "a1".toList⟩, ⟨"n2".toList, "a2".toList⟩]
  distinct := by
    simp only [List.map_cons, List.map_nil]
    decide

/-- The second node sends other bytes for a chunk that the first one has. -/
def answers (address : Text) : ChunkAnswer := fun batch => .ok (batch.map fun chunkHash =>
  if chunkHash = hashOf [1] then
    { chunkHash
      status := .found
      chunkData := Zstd.rawBlock.compress (if address = "a1".toList then [1] else [9])
      detail := "" }
  else { chunkHash, status := .notFound, chunkData := [], detail := "" })

/-- The first node has the only shard of a pack. -/
def shardAnswers (address : Text) : ShardAnswer := fun refs =>
  if address = "a1".toList then
    .ok (refs.map fun ref => {
      ref := { packHash := ref.packHash, shardIndex := UInt32.ofNat ref.shardIndex,
               shardHash := ref.shardHash }
      status := .found
      shardData := [1, 2, 3]
      detail := "" })
  else .ok []

def fetchService : ChunkFetchService := { p2pOnly with
  blake3 := Resplit.blake3
  p2pLocalRepo := some {
    files :=
      .ofList [(hashOf [2, 3], { data := Zstd.rawBlock.compress [2, 3], mtime := 0, inode := 0 })]
    unreadable := fun _ => none }
  remote := some {
    originNodeId := "o".toList
    cluster := .ok view
    answers
    unresolvedOrder := fun _ => .inOrder _
    calls := fun _ => .inOrder _ }
  rf := 2
  erasure := some (Resplit.events.foldl Erasure.catalogStep .empty, {
    blake3 := Resplit.blake3
    zfec := Striping.zfec
    cluster := .ok view
    answers := shardAnswers
    calls := .inOrder _
    packs := .inOrder _ }) }

def requestedHashes : List Text :=
  [hashOf [2, 3], hashOf [1], hashOf [3], hashOf [2, 3], List.replicate 64 '1']

end ThreeSources

open ThreeSources in
/-- Of five requests, two are answered by the store of the local node, one by a replica and one from
a pack, and one fails. -/
theorem threeSources_accounted :
    ∃ after results, fetchService.fetchManyRawChunks noFetches requestedHashes =
      .ok (after, results) ∧ after.stats.accounted = 5 ∧ after.stats = { noFetches.stats with
        chunksRequested := 5
        chunksFromLocalP2pCas := 2
        chunksFromRemoteReplication := 1
        chunksFromEc := 1
        chunksFailed := 1
        remoteChunksCorrupt := 1
        ecRecoveryFailures := 1 } ∧
      ∀ chunkHash raw, results.get? chunkHash = some (.ok raw) →
        blake3HexDigest fetchService.blake3 raw = chunkHash := by
  have valid : ∀ chunkHash ∈ requestedHashes, isValidBlake3Hex chunkHash = true := by decide +kernel
  obtain ⟨sound, returns⟩ := fetchManyRawChunks_accounted fetchService noFetches requestedHashes
  have cluster : ∀ access, fetchService.remote = some access →
      ∃ view, access.cluster = .ok view := by
    rintro access known
    cases known
    exact ⟨view, rfl⟩
  obtain ⟨after, results, fetched⟩ := returns cluster valid (by decide)
  obtain ⟨digests, -, -, -, accounted⟩ := sound after results fetched
  have stats : (fetchService.fetchManyRawChunks noFetches requestedHashes).toOption.map
      (·.1.stats) = some {
      noFetches.stats with
      chunksRequested := 5
      chunksFromLocalP2pCas := 2
      chunksFromRemoteReplication := 1
      chunksFromEc := 1
      chunksFailed := 1
      remoteChunksCorrupt := 1
      ecRecoveryFailures := 1 } := by decide +kernel
  rw [fetched] at stats
  exact ⟨after, results, fetched, accounted, Option.some.inj stats, digests⟩

end ChunkFetchService

end Stopan.Restore
