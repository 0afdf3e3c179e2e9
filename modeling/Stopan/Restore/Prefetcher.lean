import Stopan.Restore.FetchAccounting

/-!
Ordered prefetching of chunks for a restore (`stopan/restore/prefetcher.py`): the records of a
recipe are resolved by windows and handed out in the order in which they are written.
-/

namespace Stopan.Restore

open Stopan.Lib Stopan.Common Stopan.Cas Stopan.Metadata

/-- What a generator yields, and the exception that ends it. -/
structure Generated (α : Type) where
  yielded : List α
  failure : Option StopanError
  deriving DecidableEq, Repr

/-- The loop of `iter_recipe_chunk_entries` over the rows from an order on. -/
def recipeChunkRecords (recipeId : Nat) : Nat → List RecipeChunk → Generated RecipeChunk
  | _, [] => ⟨[], none⟩
  | expectedOrder, row :: rest =>
      if row.order ≠ expectedOrder then
        ⟨[], some (.metadataDatabase
          (s!"recipe_chunks no es contigua durante restore: recipe_id={recipeId} "
          ++ s!"esperado={expectedOrder} obtenido={row.order}"))⟩
      else if row.chunkSize < 1 then
        ⟨[], some (.metadataDatabase (s!"chunk_size inválido durante restore: recipe_id={recipeId} "
          ++ s!"order={row.order} size={row.chunkSize}"))⟩
      else
        let later := recipeChunkRecords recipeId (expectedOrder + 1) rest
        ⟨row :: later.yielded, later.failure⟩

def iterRecipeChunkEntries (db : MetadataDB) (recipeId : Nat) (startOrder : Int) :
    Generated RecipeChunk :=
  if startOrder < 0 then ⟨[], some (.value "start_order debe ser >= 0")⟩
  else
    let firstOrder := startOrder.toNat
    recipeChunkRecords recipeId firstOrder
      ((db.recipeChunkEntries recipeId).filter fun row => decide (firstOrder ≤ row.order))

/-- The service that resolves batches changes its own state. -/
structure OrderedBatchChunkPrefetcher (σ : Type) where
  fetchManyRawChunks : σ → List Text → Except StopanError (σ × Dict Text ChunkResult)
  window : Nat
  window_pos : 0 < window

/-- `__init__`. -/
def OrderedBatchChunkPrefetcher.init {σ : Type}
    (fetchManyRawChunks : σ → List Text → Except StopanError (σ × Dict Text ChunkResult))
    (window : Int) :
    OrderedBatchChunkPrefetcher σ where
  fetchManyRawChunks
  window := (max window 1).toNat
  window_pos := by omega

/-- What the result of a hash is for its record. -/
def recordResult (chunkHash : Text) (result : Option ChunkResult) : Except StopanError Bytes :=
  match result with
  | none => .error (.restoreData s!"Chunk {short chunkHash} no resuelto en ventana de restore")
  | some (.error detail) => .error (.restoreData detail)
  | some (.ok rawChunk) => .ok rawChunk

/-- Hand out the records in order until the result of one is a failure. -/
def emitRecords (result : Text → Option ChunkResult) : List RecipeChunk →
    Generated (RecipeChunk × Bytes)
  | [] => ⟨[], none⟩
  | record :: rest =>
      match recordResult record.chunkHash (result record.chunkHash) with
      | .error reason => ⟨[], some reason⟩
      | .ok rawChunk =>
          let later := emitRecords result rest
          ⟨(record, rawChunk) :: later.yielded, later.failure⟩

namespace OrderedBatchChunkPrefetcher

variable {σ : Type} (prefetcher : OrderedBatchChunkPrefetcher σ)

/-- `_flush_record_window`. -/
def flushRecordWindow (state : σ) (windowRecords : List RecipeChunk) :
    σ × Generated (RecipeChunk × Bytes) :=
  match prefetcher.fetchManyRawChunks state (windowRecords.map (·.chunkHash)) with
  | .error reason => (state, ⟨[], some reason⟩)
  | .ok (after, results) => (after, emitRecords results.get? windowRecords)

/-- `yield from` a window, and what comes after it when it ends without an exception. -/
def yieldFrom (first : σ × Generated (RecipeChunk × Bytes))
    (next : σ → σ × Generated (RecipeChunk × Bytes)) :
    σ × Generated (RecipeChunk × Bytes) :=
  match first.2.failure with
  | some reason => (first.1, ⟨first.2.yielded, some reason⟩)
  | none =>
      let later := next first.1
      (later.1, ⟨first.2.yielded ++ later.2.yielded, later.2.failure⟩)

/-- The loop of `iter_raw_chunk_records` with the records of the open window; an exception of the
records leaves that window unresolved. -/
def iterWindows (failure : Option StopanError) :
    σ → List RecipeChunk → List RecipeChunk → σ × Generated (RecipeChunk × Bytes)
  | state, windowRecords, [] =>
      match failure with
      | some reason => (state, ⟨[], some reason⟩)
      | none =>
          if windowRecords = [] then (state, ⟨[], none⟩)
            else prefetcher.flushRecordWindow state windowRecords
  | state, windowRecords, record :: rest =>
      if prefetcher.window ≤ (windowRecords ++ [record]).length then
        yieldFrom (prefetcher.flushRecordWindow state (windowRecords ++ [record])) fun after =>
          iterWindows failure after [] rest
      else iterWindows failure state (windowRecords ++ [record]) rest

def iterRawChunkRecords (state : σ) (records : Generated RecipeChunk) :
    σ × Generated (RecipeChunk × Bytes) :=
  prefetcher.iterWindows records.failure state [] records.yielded

/-- One call for each record. -/
def fetchSeparately : σ → List RecipeChunk → σ × Generated (RecipeChunk × Bytes)
  | state, [] => (state, ⟨[], none⟩)
  | state, record :: rest =>
      yieldFrom (prefetcher.flushRecordWindow state [record])
        fun after => fetchSeparately after rest

end OrderedBatchChunkPrefetcher

variable {result other : Text → Option ChunkResult} {records : List RecipeChunk}

theorem emitRecords_congr
    (same : ∀ record ∈ records, result record.chunkHash = other record.chunkHash) :
    emitRecords result records = emitRecords other records := by
  induction records with
  | nil => rfl
  | cons record rest ih =>
      have later := ih fun next member => same next (List.mem_cons_of_mem _ member)
      rw [emitRecords, emitRecords, same record List.mem_cons_self, later]

theorem emitRecords_bytes : ∀ emitted ∈ (emitRecords result records).yielded,
    result emitted.1.chunkHash = some (.ok emitted.2) := by
  induction records with
  | nil => exact fun _ none => (List.not_mem_nil none).elim
  | cons record rest ih =>
      intro emitted member
      rw [emitRecords] at member
      cases found : result record.chunkHash with
      | none =>
          rw [found] at member
          cases member
      | some value =>
          cases value with
          | error detail =>
              rw [found] at member
              cases member
          | ok raw =>
              rw [found] at member
              rcases List.mem_cons.mp member with rfl | member
              · exact found
              · exact ih emitted member

theorem emitRecords_fetched
    (fetched : ∀ record ∈ records, ∃ raw, result record.chunkHash = some (.ok raw)) :
    (emitRecords result records).yielded.map Prod.fst = records ∧
      (emitRecords result records).failure = none := by
  induction records with
  | nil => exact ⟨rfl, rfl⟩
  | cons record rest ih =>
      obtain ⟨raw, found⟩ := fetched record List.mem_cons_self
      obtain ⟨same, ended⟩ := ih fun next member => fetched next (List.mem_cons_of_mem _ member)
      rw [emitRecords, found]
      exact ⟨congrArg (record :: ·) same, ended⟩

theorem emitRecords_append (before after : List RecipeChunk) :
    emitRecords result (before ++ after) =
      match (emitRecords result before).failure with
      | some reason => ⟨(emitRecords result before).yielded, some reason⟩
      | none => ⟨(emitRecords result before).yielded ++ (emitRecords result after).yielded,
          (emitRecords result after).failure⟩ := by
  induction before with
  | nil => rfl
  | cons record rest ih =>
      rw [List.cons_append, emitRecords, emitRecords, ih]
      cases recordResult record.chunkHash (result record.chunkHash) with
      | error reason => rfl
      | ok raw => cases (emitRecords result rest).failure <;> rfl

namespace OrderedBatchChunkPrefetcher

variable {σ : Type}

/-- Each hash of a sequence has one result in every call; `held` are the states that the calls lead
through. -/
def StableResults
    (fetchManyRawChunks : σ → List Text → Except StopanError (σ × Dict Text ChunkResult))
    (chunkHashes : List Text) (result : Text → Option ChunkResult) (held : σ → Prop) : Prop :=
  ∀ state batch, held state → batch ⊆ chunkHashes →
    ∃ after results, fetchManyRawChunks state batch = .ok (after, results) ∧ held after ∧
      ∀ chunkHash ∈ batch, results.get? chunkHash = result chunkHash

variable {prefetcher : OrderedBatchChunkPrefetcher σ} {chunkHashes : List Text}
  {held : σ → Prop} {state : σ}

theorem flushRecordWindow_stable
    (stable : StableResults prefetcher.fetchManyRawChunks chunkHashes result held)
    (start : held state) (members : records.map (·.chunkHash) ⊆ chunkHashes) :
    ∃ after, held after ∧
      prefetcher.flushRecordWindow state records = (after, emitRecords result records) := by
  obtain ⟨after, results, fetched, kept, same⟩ := stable state _ start members
  refine ⟨after, kept, ?_⟩
  rw [flushRecordWindow, fetched]
  refine congrArg (Prod.mk after) (emitRecords_congr fun record member => ?_)
  exact same record.chunkHash (List.mem_map_of_mem member)

/-- What follows a window continues its emission. -/
theorem yieldFrom_emitted {first : σ × Generated (RecipeChunk × Bytes)}
    {next : σ → σ × Generated (RecipeChunk × Bytes)} {window rest : List RecipeChunk}
    (resolved : ∃ after, held after ∧ first = (after, emitRecords result window))
    (continued : ∀ after, held after → ∃ ended, held ended ∧
      next after = (ended, emitRecords result rest)) :
    ∃ ended, held ended ∧ yieldFrom first next = (ended, emitRecords result (window ++ rest)) := by
  obtain ⟨after, kept, rfl⟩ := resolved
  rw [yieldFrom, emitRecords_append]
  cases (emitRecords result window).failure with
  | some reason => exact ⟨after, kept, rfl⟩
  | none =>
      obtain ⟨ended, keptAtEnd, later⟩ := continued after kept
      exact ⟨ended, keptAtEnd, by dsimp only; rw [later]⟩

theorem iterWindows_stable
    (stable : StableResults prefetcher.fetchManyRawChunks chunkHashes result held)
    (start : held state) (windowRecords : List RecipeChunk)
    (members : (windowRecords ++ records).map (·.chunkHash) ⊆ chunkHashes) :
    ∃ after, held after ∧
      prefetcher.iterWindows none state windowRecords records = (after,
        emitRecords result (windowRecords ++ records)) := by
  induction records generalizing state windowRecords with
  | nil =>
      rw [List.append_nil] at members ⊢
      rw [iterWindows]
      split
      · rename_i empty
        exact ⟨state, start, by rw [empty]; rfl⟩
      · exact flushRecordWindow_stable stable start members
  | cons record rest ih =>
      rw [List.append_cons] at members ⊢
      rw [iterWindows]
      split
      · rw [List.map_append] at members
        refine yieldFrom_emitted ?_ fun after kept => ?_
        · exact flushRecordWindow_stable stable start fun _ member => members
            (List.mem_append_left _ member)
        · exact ih kept [] fun _ member => members (List.mem_append_right _ member)
      · exact ih start _ members

theorem fetchSeparately_stable
    (stable : StableResults prefetcher.fetchManyRawChunks chunkHashes result held)
    (start : held state) (members : records.map (·.chunkHash) ⊆ chunkHashes) :
    ∃ after, held after ∧
      prefetcher.fetchSeparately state records = (after, emitRecords result records) := by
  induction records generalizing state with
  | nil => exact ⟨state, start, rfl⟩
  | cons record rest ih =>
      rw [List.map_cons, List.cons_subset] at members
      rw [fetchSeparately]
      have first := @flushRecordWindow_stable _ [record] _ _ _ _ _ stable start
        (by simpa using members.1)
      exact yieldFrom_emitted first fun after kept => ih kept members.2

/-- Whatever the size of the windows, the prefetcher yields what one call for each record yields, up
to the first record that cannot be fetched. -/
theorem iterRawChunkRecords_eq_separately
    {fetchManyRawChunks : σ → List Text → Except StopanError (σ × Dict Text ChunkResult)}
    (stable : StableResults fetchManyRawChunks (records.map (·.chunkHash)) result held)
    (start : held state) (window : Int) :
    let prefetcher := OrderedBatchChunkPrefetcher.init fetchManyRawChunks window
    let iterated := (prefetcher.iterRawChunkRecords state ⟨records, none⟩).2
    iterated = (prefetcher.fetchSeparately state records).2 ∧
      (∀ emitted ∈ iterated.yielded, result emitted.1.chunkHash = some (.ok emitted.2)) ∧
      ((∀ record ∈ records, ∃ raw, result record.chunkHash = some (.ok raw)) →
        iterated.yielded.map Prod.fst = records ∧ iterated.failure = none) ∧
      ∀ before record after reason, records = before ++ record :: after →
        (∀ earlier ∈ before, ∃ raw, result earlier.chunkHash = some (.ok raw)) →
        recordResult record.chunkHash (result record.chunkHash) = .error reason →
        iterated.yielded.map Prod.fst = before ∧ iterated.failure = some reason := by
  intro prefetcher iterated
  have members : records.map (·.chunkHash) ⊆ records.map (·.chunkHash) := fun _ member => member
  obtain ⟨ended, -, windows⟩ := @iterWindows_stable _ _ _ prefetcher _ _ _ stable start [] members
  obtain ⟨endedEach, -, each⟩ := @fetchSeparately_stable _ _ _ prefetcher _ _ _ stable start members
  have emitted : iterated = emitRecords result records := congrArg Prod.snd windows
  rw [emitted, each]
  refine ⟨rfl, emitRecords_bytes, fun fetched => emitRecords_fetched fetched, ?_⟩
  intro before record after reason split earlier failed
  obtain ⟨all, finished⟩ := emitRecords_fetched earlier
  rw [split, emitRecords_append, finished, emitRecords, failed]
  exact ⟨by rw [List.append_nil, all], rfl⟩

end OrderedBatchChunkPrefetcher

namespace ChunkFetchService

/-- A service that has no source but the local CAS. -/
structure LocalOnly (service : ChunkFetchService) : Prop where
  p2p : service.p2pLocalRepo = none
  recovery : service.remoteChunkRecovery = false
  erasure : service.erasure = none

def foundLocally (service : ChunkFetchService) (repo : LocalRepo) (chunkHash : Text) :
    Option ChunkResult :=
  match service.getLocal repo chunkHash with
  | .found raw => some (.ok raw)
  | .missing | .failed _ => none

def localErrors (service : ChunkFetchService) (repo : LocalRepo) (chunkHash : Text) : List String :=
  match service.getLocal repo chunkHash with
  | .failed detail => [s!"CAS local: {detail}"]
  | .found _ | .missing => []

/-- What such a service says of a chunk. -/
def localResult (service : ChunkFetchService) (repo : LocalRepo) (chunkHash : Text) : ChunkResult :=
  (service.foundLocally repo chunkHash).getD
    (let detail := " | ".intercalate (service.localErrors repo chunkHash)
    .error s!"El chunk {short chunkHash} no está localmente y la recuperación remota por chunks está desactivada. {detail}")

/-- What the first loop has found out about the chunks that it has gone through. -/
structure ReadLocally (service : ChunkFetchService) (repo : LocalRepo) (processed : List Text)
    (phase : LocalPhase) : Prop where
  unchanged : phase.state.repo = repo
  results : ∀ chunkHash, phase.results.get? chunkHash =
    if chunkHash ∈ processed then service.foundLocally repo chunkHash else none
  missing : ∀ chunkHash, chunkHash ∈ phase.missing ↔ chunkHash ∈ processed ∧
    service.foundLocally repo chunkHash = none
  errors : ∀ chunkHash, (phase.errors.get? chunkHash).getD [] =
    if chunkHash ∈ processed then service.localErrors repo chunkHash else []

variable {service : ChunkFetchService} {repo : LocalRepo} {processed : List Text}
  {phase next : LocalPhase}
variable {multiplicity : Text → Nat} {chunkHash : Text}

/-- A step that reads one more chunk leaves what is known about the others. -/
theorem ReadLocally.extend (done : ReadLocally service repo processed phase)
    (unchanged : next.state.repo = phase.state.repo) (results : ∀ other, next.results.get? other =
      if other = chunkHash then service.foundLocally repo chunkHash else phase.results.get? other)
    (missing : ∀ other, other ∈ next.missing ↔
      other ∈ phase.missing ∨ other = chunkHash ∧ service.foundLocally repo chunkHash = none)
    (errors : ∀ other, (next.errors.get? other).getD [] =
      if other = chunkHash then service.localErrors repo chunkHash
        else (phase.errors.get? other).getD []) :
    ReadLocally service repo (processed ++ [chunkHash]) next := by
  refine ⟨unchanged.trans done.unchanged, fun other => ?_, fun other => ?_, fun other => ?_⟩
  · rw [results, done.results]
    by_cases same : other = chunkHash <;> simp [same]
  · rw [missing, done.missing]
    by_cases same : other = chunkHash <;> simp [same]
  · rw [errors, done.errors]
    by_cases same : other = chunkHash <;> simp [same]

theorem ReadLocally.fetchLocal (alone : service.LocalOnly)
    (done : ReadLocally service repo processed phase) (fresh : chunkHash ∉ processed) :
    ReadLocally service repo (processed ++ [chunkHash])
      (service.fetchLocal multiplicity phase chunkHash) := by
  have noErrors := done.errors chunkHash
  have noResult := done.results chunkHash
  rw [if_neg fresh] at noErrors noResult
  rw [ChunkFetchService.fetchLocal, done.unchanged]
  cases read : service.getLocal repo chunkHash with
  | found raw =>
      refine done.extend rfl (fun other => ?_) (fun other => ?_) fun other => ?_
      · simp [Dict.get?_set, foundLocally, read]
      · simp [foundLocally, read]
      · by_cases same : other = chunkHash <;> simp [same, noErrors, localErrors, read]
  | missing =>
      rw [fetchP2p, alone.p2p]
      refine done.extend rfl (fun other => ?_) (fun other => ?_) fun other => ?_
      · by_cases same : other = chunkHash <;> simp [same, noResult, foundLocally, read]
      · simp [foundLocally, read]
      · by_cases same : other = chunkHash <;> simp [same, noErrors, localErrors, read]
  | failed detail =>
      dsimp only
      rw [fetchP2p, alone.p2p]
      refine done.extend rfl (fun other => ?_) (fun other => ?_) fun other => ?_
      · by_cases same : other = chunkHash <;> simp [same, noResult, foundLocally, read]
      · simp [foundLocally, read]
      · by_cases same : other = chunkHash <;>
          simp [same, addError, Dict.get?_modify, noErrors, localErrors, read]

theorem ReadLocally.foldl (alone : service.LocalOnly)
    (done : ReadLocally service repo processed phase) (multiplicity : Text → Nat)
    (chunkHashes : List Text) (distinct : (processed ++ chunkHashes).Nodup) :
    ReadLocally service repo (processed ++ chunkHashes)
      (chunkHashes.foldl (service.fetchLocal multiplicity) phase) := by
  induction chunkHashes generalizing processed phase with
  | nil => simpa using done
  | cons chunkHash rest ih =>
      rw [List.append_cons] at distinct ⊢
      have fresh : chunkHash ∉ processed := fun member =>
        (List.nodup_append.mp (List.nodup_append.mp distinct).1).2.2 _ member _
          (List.mem_singleton_self _) rfl
      exact ih (done.fetchLocal alone fresh) distinct

/-- What is not in the local CAS fails with its errors, and the files stay as they are. -/
theorem localOnly_stable (alone : service.LocalOnly) (repo : LocalRepo) (chunkHashes : List Text) :
    OrderedBatchChunkPrefetcher.StableResults service.fetchManyRawChunks chunkHashes
      (fun chunkHash => some (service.localResult repo chunkHash)) (·.repo = repo) := by
  intro state batch held _
  rw [fetchManyRawChunks]
  dsimp only
  have nothing : ReadLocally service repo []
      { state := { state with stats := requested state.stats batch.length }, results := .empty,
        missing := [], errors := .empty } :=
    ⟨held, fun _ => by simp, fun _ => by simp, fun _ => by simp⟩
  have done := nothing.foldl alone (fun chunkHash => batch.count chunkHash) (orderedUnique batch)
    (by simpa using orderedUnique_nodup batch)
  rw [List.nil_append] at done
  generalize (orderedUnique batch).foldl _ _ = phase at done ⊢
  have results := done.results
  have missing := done.missing
  have errors := done.errors
  simp only [mem_orderedUnique] at results missing errors
  split
  · rename_i complete
    refine ⟨_, _, rfl, done.unchanged, fun chunkHash member => ?_⟩
    have found := missing chunkHash
    rw [complete] at found
    rw [results, if_pos member, localResult]
    cases known : service.foundLocally repo chunkHash with
    | none => exact absurd (found.mpr ⟨member, known⟩) List.not_mem_nil
    | some value => rfl
  · rw [fetchMissing, fetchRemote, if_neg (by simp [alone.recovery])]
    dsimp only [Bind.bind, Except.bind]
    rw [fetchErasure, alone.erasure]
    refine ⟨_, _, rfl, done.unchanged, fun chunkHash member => ?_⟩
    dsimp only
    rw [localResult]
    cases known : service.foundLocally repo chunkHash with
    | some value =>
        have absent : chunkHash ∉
            (remoteChunkRecoveryDisabledResults phase.missing phase.errors).keys := fun failed => by
          rcases mem_keys_failAll.mp failed with listed | none
          · rw [((missing chunkHash).mp listed).2] at known
            cases known
          · exact (List.not_mem_nil none).elim
        rw [Dict.get?_update_of_not_mem _ _ absent, results, if_pos member, known]
        rfl
    | none =>
        have failed : (remoteChunkRecoveryDisabledResults phase.missing phase.errors).get?
            chunkHash = some _ :=
          get?_failAll.trans (if_pos ((missing chunkHash).mpr ⟨member, known⟩))
        rw [Dict.get?_update_of_mem _ _ _ (Dict.keys_nodup _) (Dict.get?_eq_some_iff.mp failed),
          joinErrors, errors, if_pos member]
        rfl

def casOnly : ChunkFetchService :=
  { p2pOnly with p2pLocalRepo := none, remoteChunkRecovery := false }

def sevenStored : LocalRepo where
  files :=
    .ofList [(blake3HexDigest sevenDigest [7],
      { data := Zstd.rawBlock.compress [7], mtime := 0, inode := 0 })]
  writes := 0

/-- The chunk of the byte 7 twice in a window, and after a chunk that is not there. -/
def sevenRecords : List RecipeChunk := [
  { order := 0, chunkHash := blake3HexDigest sevenDigest [7], chunkSize := 1 },
  { order := 1, chunkHash := blake3HexDigest sevenDigest [7], chunkSize := 1 },
  { order := 2, chunkHash := List.replicate 64 '1', chunkSize := 1 },
  { order := 3, chunkHash := blake3HexDigest sevenDigest [7], chunkSize := 1 }]

end ChunkFetchService

namespace OrderedBatchChunkPrefetcher

open ChunkFetchService in
theorem sevenRecords_prefetched :
    let prefetcher := OrderedBatchChunkPrefetcher.init casOnly.fetchManyRawChunks 3
    let iterated :=
      (prefetcher.iterRawChunkRecords { noFetches with repo := sevenStored } ⟨sevenRecords, none⟩).2
    iterated.yielded.map Prod.fst = sevenRecords.take 2 ∧ iterated.failure.isSome := by
  have read : casOnly.localResult sevenStored (blake3HexDigest sevenDigest [7]) = .ok [7] := by
    decide +kernel
  have absent : casOnly.foundLocally sevenStored (List.replicate 64 '1') = none := by decide +kernel
  have alone : casOnly.LocalOnly := ⟨rfl, rfl, rfl⟩
  have stable := localOnly_stable alone sevenStored (sevenRecords.map (·.chunkHash))
  have start : ({ noFetches with repo := sevenStored } : FetchState).repo = sevenStored := rfl
  obtain ⟨-, -, -, stops⟩ := iterRawChunkRecords_eq_separately stable start 3
  have earlier : ∀ record ∈ sevenRecords.take 2, ∃ raw, some
      (casOnly.localResult sevenStored record.chunkHash) = some (.ok raw) := by
    intro record member
    refine ⟨[7], congrArg some ?_⟩
    rcases List.mem_cons.mp member with rfl | member
    · exact read
    · rw [List.mem_singleton.mp member]
      exact read
  obtain ⟨yielded, failed⟩ :=
    stops (sevenRecords.take 2) sevenRecords[2] (sevenRecords.drop 3) _ rfl earlier (by
    change recordResult _ (some (casOnly.localResult sevenStored (List.replicate 64 '1'))) = _
    rw [localResult, absent]
    rfl)
  exact ⟨yielded, by rw [failed]; rfl⟩

end OrderedBatchChunkPrefetcher

end Stopan.Restore
