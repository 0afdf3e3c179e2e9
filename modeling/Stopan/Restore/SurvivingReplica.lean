import Stopan.Cluster.RankStability
import Stopan.Restore.FetchAccounting

namespace Stopan.Restore

open Stopan.Lib Stopan.Common Stopan.Cas Stopan.Cluster Stopan.Metadata Stopan.Rpc

namespace ChunkFetchService

/-- Every answer of the node to a batch with the chunk holds data that decompress to it. -/
def AnswersIntact (service : ChunkFetchService) (answer : ChunkAnswer) (chunkHash : Text)
    (raw : Bytes) : Prop :=
  ∀ batch, chunkHash ∈ batch → ∃ items, answer batch = .ok items ∧
    (∃ item ∈ items, item.chunkHash = chunkHash) ∧ ∀ item ∈ items, item.chunkHash = chunkHash →
      item.status = .found ∧ ∀ limit, raw.length ≤ limit →
        service.decompressWithin limit item.chunkData = some raw

variable {service : ChunkFetchService} {multiplicity : Text → Nat} {chunkHash : Text} {raw : Bytes}

/-- What the client keeps for a chunk is an item of the response that names it. -/
theorem get?_responseItems {holds : BatchRetrieveItemResult → Prop}
    (items : List BatchRetrieveItemResult)
    (results : Dict Text BatchRetrieveItemResult) (named : chunkHash ≠ [])
    (every : ∀ item ∈ items, item.chunkHash = chunkHash → holds item)
    (known : (∃ item ∈ items, item.chunkHash = chunkHash) ∨
      ∃ item, results.get? chunkHash = some item ∧ holds item) :
    ∃ item, (items.foldl (fun results item =>
      if item.chunkHash.isEmpty then results else results.set item.chunkHash item) results).get?
        chunkHash = some item ∧ holds item := by
  induction items generalizing results with
  | nil => exact known.resolve_left fun ⟨item, nothing, _⟩ => List.not_mem_nil nothing
  | cons item rest ih =>
      rw [List.foldl_cons]
      refine ih _ (fun later member => every later (List.mem_cons_of_mem item member)) ?_
      by_cases same : item.chunkHash = chunkHash
      · have filled : item.chunkHash.isEmpty = false := by simpa [same] using named
        rw [filled, same]
        exact .inr ⟨item, Dict.get?_set_self .., every item List.mem_cons_self same⟩
      · rcases known with ⟨other, member, names⟩ | ⟨other, before, kept⟩
        · refine .inl ⟨other, (List.mem_cons.mp member).resolve_left ?_, names⟩
          rintro rfl
          exact same names
        · refine .inr ⟨other, ?_, kept⟩
          split
          · exact before
          · rw [Dict.get?_set_of_ne _ _ fun equal => same equal.symm]
            exact before

/-- Filling in the chunks without a result changes no result. -/
theorem get?_withoutResults (chunkHashes : List Text) {results : Dict Text BatchRetrieveItemResult}
    {item : BatchRetrieveItemResult} (known : results.get? chunkHash = some item) :
    (chunkHashes.foldl (fun results chunkHash =>
      if results.contains chunkHash then results
        else results.set chunkHash (withoutChunkResult chunkHash)) results).get?
        chunkHash = some item := by
  refine List.foldlRecOn (motive := fun results : Dict Text BatchRetrieveItemResult =>
    results.get? chunkHash = some item)
    chunkHashes _ known fun results known other _ => ?_
  split
  · exact known
  · rename_i absent
    by_cases same : chunkHash = other
    · subst same
      exact absurd ((Dict.contains_iff ..).mpr ((Dict.mem_keys_iff ..).mpr ⟨item, known⟩)) absent
    · rw [Dict.get?_set_of_ne _ _ same]
      exact known

theorem retrieveChunkBatch_intact {answer : ChunkAnswer} {chunkHashes : List Text}
    (intact : service.AnswersIntact answer chunkHash raw) (named : chunkHash ≠ [])
    (member : chunkHash ∈ chunkHashes) :
    ∃ batch item, retrieveChunkBatch answer chunkHashes = .ok batch ∧
      batch.get? chunkHash = some item ∧
      item.status = .found ∧ ∀ limit, raw.length ≤ limit →
        service.decompressWithin limit item.chunkData = some raw := by
  have listed : chunkHash ∈ orderedUnique chunkHashes := mem_orderedUnique.mpr member
  obtain ⟨items, answered, present, every⟩ := intact _ listed
  obtain ⟨item, kept, found⟩ := get?_responseItems items .empty named every (.inl present)
  have asked : (orderedUnique chunkHashes).isEmpty = false :=
    List.isEmpty_eq_false_iff.mpr (List.ne_nil_of_mem listed)
  refine ⟨_, item, ?_, get?_withoutResults (orderedUnique chunkHashes) kept, found⟩
  rw [retrieveChunkBatch]
  simp only [asked, Bool.false_eq_true, if_false]
  apply runAdaptiveBatchCall_of_answered
  rw [retrieveChunkBatchOnce, answered]
  rfl

def RemoteState.Answered (round : RemoteState) (chunkHash : Text) : Prop :=
  ∃ found, round.results.get? chunkHash = some (.ok found)

/-- Still to be asked for, or answered. -/
def RemoteState.Pursued (round : RemoteState) (chunkHash : Text) : Prop :=
  chunkHash ∈ round.unresolved ∨ round.Answered chunkHash

variable {round : RemoteState} {access : RemoteAccess} {targets : Text → List ClusterMember}

/-- An item of a batch leaves the results alone or answers its own chunk. -/
theorem takeItem_cases (service : ChunkFetchService) (multiplicity : Text → Nat) (address : Text)
    (batch : Dict Text BatchRetrieveItemResult) (round : RemoteState) (chunkHash : Text) :
    ((service.takeItem multiplicity address batch round chunkHash).results = round.results ∧
      (service.takeItem multiplicity address batch round chunkHash).unresolved = round.unresolved) ∨
    ∃ found, (service.takeItem multiplicity address batch round chunkHash).results =
      round.results.set chunkHash (.ok found) ∧
      (service.takeItem multiplicity address batch round chunkHash).unresolved =
        round.unresolved.filter fun other => decide (other ≠ chunkHash) := by
  rw [takeItem]
  split
  · exact .inl ⟨rfl, rfl⟩
  · split
    · exact .inl ⟨rfl, rfl⟩
    · split
      · exact .inl ⟨rfl, rfl⟩
      · split
        · exact .inl ⟨rfl, rfl⟩
        · exact .inr ⟨_, rfl, rfl⟩

theorem RemoteState.Answered.takeItem (answered : round.Answered chunkHash) (address : Text)
    (batch : Dict Text BatchRetrieveItemResult) (other : Text) :
    (service.takeItem multiplicity address batch round other).Answered chunkHash := by
  obtain ⟨found, known⟩ := answered
  rcases service.takeItem_cases multiplicity address batch round other with ⟨same, -⟩ |
    ⟨raw, set, -⟩
  · exact ⟨found, same ▸ known⟩
  · rw [RemoteState.Answered, set, Dict.get?_set]
    split
    · exact ⟨raw, rfl⟩
    · exact ⟨found, known⟩

theorem RemoteState.Pursued.takeItem (pursued : round.Pursued chunkHash) (address : Text)
    (batch : Dict Text BatchRetrieveItemResult) (other : Text) :
    (service.takeItem multiplicity address batch round other).Pursued chunkHash := by
  rcases pursued with pending | answered
  · rcases service.takeItem_cases multiplicity address batch round other with ⟨-, same⟩ |
    ⟨raw, set, left⟩
    · exact .inl (same ▸ pending)
    · by_cases same : chunkHash = other
      · exact .inr ⟨raw, by rw [set, same, Dict.get?_set_self]⟩
      · exact .inl (left ▸ List.mem_filter.mpr ⟨pending, decide_eq_true same⟩)
  · exact .inr (answered.takeItem address batch other)

/-- A chunk that is asked for is answered by a found item whose data decompress to it. -/
theorem RemoteState.Pursued.takeItem_intact (pursued : round.Pursued chunkHash) (address : Text)
    {batch : Dict Text BatchRetrieveItemResult} {item : BatchRetrieveItemResult}
    (known : batch.get? chunkHash = some item) (found : item.status = .found)
    (decompressed : service.decompressWithin service.maxChunkSize item.chunkData = some raw)
    (hash : blake3HexDigest service.blake3 raw = chunkHash) :
    (service.takeItem multiplicity address batch round chunkHash).Answered chunkHash := by
  rcases pursued with pending | answered
  · have valid : service.validateCompressedChunk chunkHash item.chunkData "chunk remoto" =
      .ok raw := by
      rw [validateCompressedChunk, decompressed]
      exact if_pos hash
    have asked : round.unresolved.contains chunkHash = true := List.contains_iff_mem.mpr pending
    rw [ChunkFetchService.takeItem]
    simp only [asked, Bool.not_true, Bool.false_eq_true, if_false, known, found, ne_eq,
      not_true_eq_false, valid]
    exact ⟨raw, Dict.get?_set_self ..⟩
  · exact answered.takeItem address batch chunkHash

theorem RemoteState.Answered.takeCall (answered : round.Answered chunkHash) (access : RemoteAccess)
    (call : Text × List Text) :
    (service.takeCall access multiplicity round call).Answered chunkHash := by
  rw [ChunkFetchService.takeCall]
  split
  · exact answered
  · exact List.foldlRecOn
      (motive := fun round : RemoteState => round.Answered chunkHash) _ _ answered
      fun round answered other _ => answered.takeItem _ _ other

theorem RemoteState.Pursued.takeCall (pursued : round.Pursued chunkHash) (access : RemoteAccess)
    (call : Text × List Text) :
    (service.takeCall access multiplicity round call).Pursued chunkHash := by
  rw [ChunkFetchService.takeCall]
  split
  · exact pursued
  · exact List.foldlRecOn (motive := fun round : RemoteState => round.Pursued chunkHash) _ _ pursued
      fun round pursued other _ => pursued.takeItem _ _ other

theorem RemoteState.Pursued.takeCall_intact (pursued : round.Pursued chunkHash)
    {call : Text × List Text} (member : chunkHash ∈ call.2)
    (intact : service.AnswersIntact (access.answers call.1) chunkHash raw)
    (within : raw.length ≤ service.maxChunkSize)
    (hash : blake3HexDigest service.blake3 raw = chunkHash) :
    (service.takeCall access multiplicity round call).Answered chunkHash := by
  have named : chunkHash ≠ [] := by
    rintro rfl
    have digits := congrArg List.length hash
    simp [blake3HexDigest, toHex_length, service.blake3.digest_length] at digits
  obtain ⟨batch, item, answered, known, found, decompresses⟩ :=
    retrieveChunkBatch_intact intact named member
  rw [ChunkFetchService.takeCall, answered]
  obtain ⟨before, after, split⟩ := List.append_of_mem member
  dsimp only
  rw [split, List.foldl_append, List.foldl_cons]
  have asked : RemoteState.Pursued
      (before.foldl (service.takeItem multiplicity call.1 batch) round) chunkHash :=
    List.foldlRecOn (motive := fun round : RemoteState => round.Pursued chunkHash) _ _ pursued
      fun round pursued other _ => pursued.takeItem _ _ other
  exact List.foldlRecOn (motive := fun round : RemoteState => round.Answered chunkHash) _ _
    (asked.takeItem_intact call.1 known found (decompresses _ within) hash)
    fun round answered other _ => answered.takeItem _ _ other

/-- A chunk that is still open is in the batch of its target at this rank. -/
theorem mem_roundGroups {rank : Nat} {unresolved : List Text} {target : ClusterMember}
    (pending : chunkHash ∈ unresolved) (ranked : (targets chunkHash)[rank]? = some target) :
    ∃ hashes, (target.address, hashes) ∈ (roundGroups targets rank unresolved).entries ∧
      chunkHash ∈ hashes := by
  have known : chunkHash ∈ unresolved ∨
      ∃ hashes, (Dict.empty : Dict Text (List Text)).get? target.address = some hashes ∧
        chunkHash ∈ hashes := .inl pending
  simp only [← Dict.get?_eq_some_iff]
  unfold roundGroups
  -- the groups built so far already hold the chunk, or it is still to come
  generalize Dict.empty = groups at known ⊢
  clear pending
  induction unresolved generalizing groups with
  | nil => exact known.resolve_left List.not_mem_nil
  | cons first rest ih =>
      rw [List.foldl_cons]
      apply ih
      by_cases same : chunkHash = first
      · subst same
        rw [ranked]
        exact .inr ⟨_, by rw [Dict.get?_modify, if_pos rfl], by simp⟩
      · rcases known with pending | ⟨hashes, here, member⟩
        · exact .inl ((List.mem_cons.mp pending).resolve_left same)
        · right
          split
          · exact ⟨hashes, here, member⟩
          · rw [Dict.get?_modify]
            split
            · rename_i address
              exact ⟨_, rfl, by simp [← address, here, member]⟩
            · exact ⟨hashes, here, member⟩

theorem RemoteState.Answered.remoteRounds (answered : round.Answered chunkHash) (ranks : List Nat) :
    (service.remoteRounds access multiplicity targets ranks round).Answered chunkHash := by
  induction ranks generalizing round with
  | nil => exact answered
  | cons rank ranks ih =>
      rw [ChunkFetchService.remoteRounds]
      split
      · exact answered
      · dsimp only
        split
        · exact answered
        · exact ih (List.foldlRecOn
            (motive := fun round : RemoteState => round.Answered chunkHash) _ _ answered
            fun round answered call _ => answered.takeCall access call)

/-- The rounds reach the rank of a target that gives the chunk back. -/
theorem RemoteState.Pursued.remoteRounds {target : ClusterMember} {rank : Nat}
    (ranked : (targets chunkHash)[rank]? = some target)
    (intact : service.AnswersIntact (access.answers target.address) chunkHash raw)
    (within : raw.length ≤ service.maxChunkSize)
    (hash : blake3HexDigest service.blake3 raw = chunkHash) {first count : Nat}
    (reached : first ≤ rank) (inside : rank < first + count) (pursued : round.Pursued chunkHash) :
    (service.remoteRounds access multiplicity targets
      (List.range' first count) round).Answered chunkHash := by
  induction count generalizing first round with
  | zero => omega
  | succ count ih =>
      rw [List.range'_succ, ChunkFetchService.remoteRounds]
      split
      · rename_i closed
        exact pursued.resolve_left (by simp [closed])
      dsimp only
      rcases pursued with pending | answered
      · have arranged : chunkHash ∈ (access.unresolvedOrder first).arrange round.unresolved :=
          ((access.unresolvedOrder first).permuted _).mem_iff.mpr pending
        obtain ⟨current, here⟩ : ∃ current, (targets chunkHash)[first]? = some current := by
          have bounded := (List.getElem?_eq_some_iff.mp ranked).1
          exact ⟨_, List.getElem?_eq_getElem (by omega)⟩
        obtain ⟨hashes, entry, member⟩ := mem_roundGroups arranged here
        rw [if_neg (List.ne_nil_of_mem entry)]
        rcases Nat.eq_or_lt_of_le reached with same | later
        · subst same
          rw [ranked, Option.some.injEq] at here
          subst here
          have called := ((access.calls first).permuted _).mem_iff.mpr entry
          obtain ⟨before, after, split⟩ := List.append_of_mem called
          refine RemoteState.Answered.remoteRounds ?_ _
          rw [split, List.foldl_append, List.foldl_cons]
          have asked : RemoteState.Pursued
              (before.foldl (service.takeCall access multiplicity) round) chunkHash :=
            List.foldlRecOn (motive := fun round : RemoteState => round.Pursued chunkHash) _ _
              (.inl pending)
              fun round pursued call _ => pursued.takeCall access call
          exact List.foldlRecOn (motive := fun round : RemoteState => round.Answered chunkHash) _ _
            (asked.takeCall_intact member intact within hash) fun round answered call _ =>
              answered.takeCall access call
        · exact ih (by omega) (by omega)
            (List.foldlRecOn (motive := fun round : RemoteState => round.Pursued chunkHash) _ _
            (.inl pending) fun round pursued call _ => pursued.takeCall access call)
      · split
        · exact answered
        · exact RemoteState.Answered.remoteRounds (List.foldlRecOn
            (motive := fun round : RemoteState => round.Answered chunkHash) _ _ answered
            fun round answered call _ => answered.takeCall access call) _

variable {missing : List Text} {state after : FetchState} {results : Dict Text ChunkResult}

/-- As many rounds as the longest list of targets has ranks answer every chunk with a target that
gives it back. -/
theorem remoteRounds_answered {initialErrors : Dict Text (List String)} {target : ClusterMember}
    (member : chunkHash ∈ missing) (selected : target ∈ targets chunkHash)
    (intact : service.AnswersIntact (access.answers target.address) chunkHash raw)
    (within : raw.length ≤ service.maxChunkSize)
    (hash : blake3HexDigest service.blake3 raw = chunkHash) :
    RemoteState.Answered (service.remoteRounds access multiplicity targets
      (List.range (((startRound targets state missing initialErrors).unresolved.map fun chunkHash =>
        (targets chunkHash).length).foldr max 0)) (startRound targets state missing initialErrors))
          chunkHash := by
  obtain ⟨rank, inside, ranked⟩ := List.mem_iff_getElem.mp selected
  have pending : chunkHash ∈ (startRound targets state missing initialErrors).unresolved := by
    refine List.mem_filter.mpr ⟨member, ?_⟩
    rw [Bool.not_eq_true', List.isEmpty_eq_false_iff]
    exact List.ne_nil_of_mem selected
  have deep :=
    List.le_max_of_le' 0
      (List.mem_map_of_mem (f := fun chunkHash => (targets chunkHash).length) pending)
    (le_refl (targets chunkHash).length)
  rw [List.range_eq_range']
  exact RemoteState.Pursued.remoteRounds
    (List.getElem?_eq_some_iff.mpr ⟨inside, ranked⟩) intact within hash (Nat.zero_le rank)
    (by omega) (.inl pending)

theorem fetchMissingManyFromRemote_answered {initialErrors : Dict Text (List String)}
    {cluster : ClusterView} {target : ClusterMember} (distinct : missing.Nodup)
    (member : chunkHash ∈ missing) (remote : service.remote = some access)
    (current : access.cluster = .ok cluster)
    (selected : target ∈ service.remoteTargetsOf access cluster chunkHash)
    (intact : service.AnswersIntact (access.answers target.address) chunkHash raw)
    (within : raw.length ≤ service.maxChunkSize)
    (hash : blake3HexDigest service.blake3 raw = chunkHash)
    (fetched : service.fetchMissingManyFromRemote multiplicity state missing initialErrors =
      .ok (after, results)) :
    ∃ found, results.get? chunkHash = some (.ok found) := by
  have replicated : service.rf ≠ 0 := by
    intro none
    have bounded :=
      cluster.hrwTargetsExcluding_length_le service.blake3 chunkHash service.rf service.clusterToken
      [access.originNodeId]
    have some := List.length_pos_of_mem selected
    rw [remoteTargetsOf] at some
    omega
  rw [fetchMissingManyFromRemote, if_neg replicated, remote] at fetched
  dsimp only at fetched
  rw [current] at fetched
  cases pure_eq_ok_iff.mp fetched
  obtain ⟨found, known⟩ : RemoteState.Answered _ chunkHash :=
    remoteRounds_answered member selected intact within hash
  have started : RoundDone service multiplicity missing state.stats
      (startRound (service.remoteTargetsOf access cluster) state missing initialErrors) :=
        roundDone_start _ _
  refine ⟨found, ?_⟩
  rw [get?_failAll, if_neg]
  · exact known
  · intro still
    rw [(started.remoteRounds distinct _ _ _).unresolved chunkHash still] at known
    cases known

/-- Recovery from data packs leaves what the replicas have answered. -/
theorem recoverUnresolvedWithEc_answered {erasure : MetadataDB × ErasureContext}
    {remoteResults : Dict Text ChunkResult}
    {found : Bytes} (known : remoteResults.get? chunkHash = some (.ok found))
    (recovered : service.recoverUnresolvedWithEc multiplicity erasure state missing remoteResults =
      .ok (after, results)) :
    results.get? chunkHash = some (.ok found) := by
  rw [recoverUnresolvedWithEc] at recovered
  dsimp only at recovered
  split at recovered
  · cases recovered
    exact known
  · obtain ⟨⟨repo, ecResults⟩, -, returned⟩ := bind_eq_ok_iff.mp recovered
    cases pure_eq_ok_iff.mp returned
    refine List.foldlRecOn (motive := fun state : RestoreRunStats × Dict Text ChunkResult =>
      state.2.get? chunkHash = some (.ok found)) _ _ known fun state kept other unresolved => ?_
    have different : chunkHash ≠ other := by
      rintro rfl
      have failure := (List.mem_filter.mp unresolved).2
      rw [known] at failure
      cases failure
    rw [takeEcResult_other different]
    exact kept

theorem fetchErasure_answered {fetched : FetchState × Dict Text ChunkResult} {found : Bytes}
    (known : fetched.2.get? chunkHash = some (.ok found))
    (recovered : service.fetchErasure multiplicity missing fetched = .ok (after, results)) :
    results.get? chunkHash = some (.ok found) := by
  rw [fetchErasure] at recovered
  split at recovered
  · cases recovered
    exact known
  · exact recoverUnresolvedWithEc_answered known recovered

/-- What the local stores give is bytes. -/
def LocalPhase.AllRead (phase : LocalPhase) : Prop :=
  ∀ chunkHash result, phase.results.get? chunkHash = some result → ∃ found, result = .ok found

variable {phase : LocalPhase}

theorem LocalPhase.AllRead.set (read : phase.AllRead) (state : FetchState)
    (errors : Dict Text (List String)) (other : Text) (found : Bytes) :
    LocalPhase.AllRead { phase with state, results := phase.results.set other (.ok found),
                                    errors } := by
  intro chunkHash result known
  rw [Dict.get?_set] at known
  split at known
  · exact ⟨found, (Option.some.inj known).symm⟩
  · exact read chunkHash result known

theorem LocalPhase.AllRead.fetchP2p (read : phase.AllRead) (other : Text) :
    (service.fetchP2p multiplicity phase other).AllRead := by
  rw [ChunkFetchService.fetchP2p]
  split
  · exact read
  · exact read
  · exact read
  · exact read.set _ _ other _

theorem LocalPhase.AllRead.fetchLocal (read : phase.AllRead) (other : Text) :
    (service.fetchLocal multiplicity phase other).AllRead := by
  rw [ChunkFetchService.fetchLocal]
  split
  · exact read.set _ _ other _
  · exact read.fetchP2p other
  · rename_i detail _
    have noted : LocalPhase.AllRead
        { phase with errors := addError phase.errors other s!"CAS local: {detail}" } := read
    exact noted.fetchP2p other

theorem allRead_all (service : ChunkFetchService) (state : FetchState) (multiplicity : Text → Nat)
    (chunkHashes : List Text) :
    LocalPhase.AllRead
      (chunkHashes.foldl (service.fetchLocal multiplicity) { state, results := .empty,
                                                             missing := [], errors := .empty }) :=
  List.foldlRecOn (motive := LocalPhase.AllRead) _ _ (fun _ _ known => by cases known)
    fun _ read other _ => read.fetchLocal other

theorem fetchManyRawChunks_answered {cluster : ClusterView} {target : ClusterMember}
    {chunkHashes : List Text} (requested : chunkHash ∈ chunkHashes)
    (enabled : service.remoteChunkRecovery = true) (remote : service.remote = some access)
    (current : access.cluster = .ok cluster)
    (selected : target ∈ service.remoteTargetsOf access cluster chunkHash)
    (intact : service.AnswersIntact (access.answers target.address) chunkHash raw)
    (within : raw.length ≤ service.maxChunkSize)
    (hash : blake3HexDigest service.blake3 raw = chunkHash)
    (fetched : service.fetchManyRawChunks state chunkHashes = .ok (after, results)) :
    ∃ found, results.get? chunkHash = some (.ok found) := by
  have done :=
    localDone_all service
      { state with stats := ChunkFetchService.requested state.stats chunkHashes.length }
    (fun chunkHash => chunkHashes.count chunkHash) (orderedUnique chunkHashes)
  have read :=
    allRead_all service
      { state with stats := ChunkFetchService.requested state.stats chunkHashes.length }
    (fun chunkHash => chunkHashes.count chunkHash) (orderedUnique chunkHashes)
  rw [fetchManyRawChunks] at fetched
  generalize (orderedUnique chunkHashes).foldl _ _ = phase at done read fetched
  have located := (done.keys chunkHash).mpr (mem_orderedUnique.mpr requested)
  split at fetched
  · rename_i complete
    cases fetched
    obtain ⟨result, known⟩ := (Dict.mem_keys_iff ..).mp (located.resolve_right (by simp [complete]))
    obtain ⟨found, rfl⟩ := read chunkHash result known
    exact ⟨found, known⟩
  · have unique := (orderedUnique_nodup _).sublist done.missing
    by_cases absent : chunkHash ∈ phase.missing
    · obtain ⟨⟨state, remoteResults⟩, sources, returned⟩ := bind_eq_ok_iff.mp fetched
      cases pure_eq_ok_iff.mp returned
      obtain ⟨replicas, fromReplicas, erasure⟩ := bind_eq_ok_iff.mp sources
      rw [fetchRemote, if_pos enabled] at fromReplicas
      obtain ⟨found, answered⟩ :=
        fetchMissingManyFromRemote_answered unique absent remote current selected intact within hash
        fromReplicas
      have kept := fetchErasure_answered answered erasure
      exact ⟨found, Dict.get?_update_of_mem _ _ _ (Dict.keys_nodup _)
        (Dict.get?_eq_some_iff.mp kept)⟩
    · obtain ⟨others, rfl, -, keys, -⟩ := fetchMissing_settled unique fetched
      obtain ⟨result, known⟩ := (Dict.mem_keys_iff ..).mp (located.resolve_right absent)
      obtain ⟨found, rfl⟩ := read chunkHash result known
      refine ⟨found, ?_⟩
      rw [Dict.get?_update_of_not_mem _ _ fun listed => absent ((keys chunkHash).mp listed)]
      exact known

/-- A copy that was placed in some view is found in a later one when its node still answers with it
and fewer than `rf` nodes have come before it in the ranking; and the call returns. -/
theorem fetchManyRawChunks_finds {view later : ClusterView} {target survivor : ClusterMember}
    {chunkHashes : List Text}
    (requested : chunkHash ∈ chunkHashes) (hash : blake3HexDigest service.blake3 raw = chunkHash)
    (within : raw.length ≤ service.maxChunkSize) (enabled : service.remoteChunkRecovery = true)
    (remote : service.remote = some access) (current : access.cluster = .ok later)
    (placed : target ∈ view.hrwTargetsExcluding service.blake3 chunkHash service.rf
      service.clusterToken [access.originNodeId])
    (present : survivor ∈ later.members) (same : survivor.nodeId = target.nodeId)
    (few : overtakers service.blake3 view later chunkHash service.rf service.clusterToken
      [access.originNodeId]
      target.nodeId < service.rf)
    (intact : service.AnswersIntact (access.answers survivor.address) chunkHash raw) :
    (∀ after results, service.fetchManyRawChunks state chunkHashes = .ok (after, results) →
      ∃ found, results.get? chunkHash = some (.ok found) ∧
        blake3HexDigest service.blake3 found = chunkHash ∧
        (CollisionFree service.blake3 (fun data => data = raw ∨ data = found) → found = raw)) ∧
    (service.CanLookUp chunkHashes → ∃ after results, service.fetchManyRawChunks state chunkHashes =
      .ok (after, results)) := by
  have selected : survivor ∈ service.remoteTargetsOf access later chunkHash :=
    target_of_survivor placed present same few
  refine ⟨fun after results fetched => ?_, fetchManyRawChunks_returns fun other known => ?_⟩
  · obtain ⟨found, known⟩ :=
      fetchManyRawChunks_answered requested enabled remote current selected
        intact within hash fetched
    have same := fetchManyRawChunks_sound fetched chunkHash found known
    exact ⟨found, known, same, fun free => free found raw (.inr rfl) (.inl rfl)
      (same.trans hash.symm)⟩
  · rw [remote, Option.some.injEq] at known
    exact ⟨later, known ▸ current⟩

def sevenHash : Text := "448bd8dd9624154a690f8e84dc52d6f633ba7cd545c4d3c9b4e0f6a2f6fa71f4".toList

/-- The hash of the byte 7, and scores that rank the nodes `a`, `c` and `b` for it in this order. -/
def rankedDigest : Blake3 := .ofTable [
  ([7], 0x448bd8dd9624154a690f8e84dc52d6f633ba7cd545c4d3c9b4e0f6a2f6fa71f4),
  (encodeUtf8 ("|a|".toList ++ sevenHash), 3),
  (encodeUtf8 ("|c|".toList ++ sevenHash), 2),
  (encodeUtf8 ("|b|".toList ++ sevenHash), 1)]

def nodeNamed (letter : Char) : ClusterMember where
  nodeId := [letter]
  address := [letter, ':', '1']

theorem firstNodes_distinct :
    ([nodeNamed 'a', nodeNamed 'b'].map ClusterMember.nodeId).Nodup := by decide

theorem grownNodes_distinct :
    ([nodeNamed 'a', nodeNamed 'b', nodeNamed 'c'].map ClusterMember.nodeId).Nodup := by decide

theorem changedNodes_distinct :
    ([nodeNamed 'b', nodeNamed 'c'].map ClusterMember.nodeId).Nodup := by decide

/-- The view in which the two copies were placed. -/
def firstView : ClusterView where
  selfNodeId := none
  members := [nodeNamed 'a', nodeNamed 'b']
  distinct := firstNodes_distinct

/-- The node `c` has joined. -/
def grownView : ClusterView where
  selfNodeId := none
  members := [nodeNamed 'a', nodeNamed 'b', nodeNamed 'c']
  distinct := grownNodes_distinct

/-- The node `c` has joined and the node `a` has left. -/
def changedView : ClusterView where
  selfNodeId := none
  members := [nodeNamed 'b', nodeNamed 'c']
  distinct := changedNodes_distinct

/-- The node `b` gives its copy back, the other nodes have none. -/
def onlyNodeB (address : Text) : ChunkAnswer := fun batch => .ok (batch.map fun chunkHash =>
  if address = (nodeNamed 'b').address then
    { chunkHash, status := .found, chunkData := Zstd.rawBlock.compress [7], detail := "" }
  else { chunkHash, status := .notFound, chunkData := [], detail := "" })

def threeNodesAccess (view : ClusterView) : RemoteAccess where
  originNodeId := "origin".toList
  cluster := .ok view
  answers := onlyNodeB
  unresolvedOrder _ := .inOrder _
  calls _ := .inOrder _

def threeNodesService (view : ClusterView) : ChunkFetchService where
  blake3 := rankedDigest
  zstd := .rawBlock
  decompressWithin limit data :=
    (Zstd.rawBlock.decompress data).filter fun raw => decide (raw.length ≤ limit)
  maxChunkSize := 64
  unreadable _ := none
  writes _ := { now := 0, inode := 1, outcomes := fun _ => .done }
  p2pLocalRepo := none
  remote := some (threeNodesAccess view)
  rf := 2
  clusterToken := []
  erasure := none
  remoteChunkRecovery := true

theorem sevenHash_digest : blake3HexDigest rankedDigest [7] = sevenHash := by decide +kernel

theorem onlyNodeB_intact (view : ClusterView) :
    (threeNodesService view).AnswersIntact
      ((threeNodesAccess view).answers (nodeNamed 'b').address) sevenHash [7] := by
  intro batch member
  refine ⟨_, rfl, ⟨_, List.mem_map_of_mem member, rfl⟩, ?_⟩
  intro item answered _
  obtain ⟨chunkHash, -, rfl⟩ := List.mem_map.mp answered
  refine ⟨rfl, fun limit within => ?_⟩
  have decompressed : Zstd.rawBlock.decompress (Zstd.rawBlock.compress [7]) = some [7] := by decide
  change (Zstd.rawBlock.decompress (Zstd.rawBlock.compress [7])).filter
    (fun raw => decide (raw.length ≤ limit)) = some [7]
  rw [decompressed]
  exact Option.filter_some_pos (decide_eq_true within)

/-- The old target `a` has left, so the new node `c` does not keep the copy of `b` from being
found. -/
theorem changedView_found :
    ∃ after results, (threeNodesService changedView).fetchManyRawChunks noFetches
      [sevenHash] = .ok (after, results) ∧ ∃ found, results.get? sevenHash = some (.ok found) := by
  obtain ⟨finds, returns⟩ := @fetchManyRawChunks_finds (threeNodesService changedView) sevenHash [7]
    (threeNodesAccess changedView) noFetches firstView changedView (nodeNamed 'b')
      (nodeNamed 'b') [sevenHash]
    List.mem_cons_self sevenHash_digest (by decide) rfl rfl rfl (by decide +kernel)
      (by decide) rfl (by decide +kernel)
    (onlyNodeB_intact changedView)
  obtain ⟨after, results, fetched⟩ := returns (.inl rfl)
  obtain ⟨found, known, -⟩ := finds after results fetched
  exact ⟨after, results, fetched, found, known⟩

/-- One node has joined and none has left, yet the copy of `b` is not asked for: `c` has taken its
place. -/
theorem grownView_notFound :
    nodeNamed 'b' ∈ firstView.hrwTargetsExcluding rankedDigest sevenHash 2 [] ["origin".toList] ∧
      nodeNamed 'b' ∈ grownView.members ∧
      (addedNodeIds firstView grownView ["origin".toList]).length < 2 ∧
      (threeNodesService grownView).AnswersIntact
        ((threeNodesAccess grownView).answers (nodeNamed 'b').address) sevenHash [7] ∧
      blake3HexDigest rankedDigest [7] = sevenHash ∧
      ((threeNodesService grownView).fetchManyRawChunks noFetches [sevenHash]).toOption.map
        (fun fetched => isFailure (fetched.2.get? sevenHash)) = some true :=
  ⟨by decide +kernel, by decide, by decide, onlyNodeB_intact grownView,
    sevenHash_digest, by decide +kernel⟩

end ChunkFetchService

end Stopan.Restore
