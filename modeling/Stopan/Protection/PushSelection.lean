import Stopan.Protection.ScopeLimits

namespace Stopan.Metadata

open Stopan.Lib Stopan.Common Stopan.Protection

theorem markStale_of_unprotected {row : ProtectionRecord} (desiredRf : Int)
    (currentEpoch : Option Text) (unprotected : row.isProtected = false) :
    markStaleEpoch currentEpoch (markStaleRf desiredRf row) = row := by
  rw [markStaleRf, if_neg (by simp [unprotected])]
  cases currentEpoch with
  | none => rfl
  | some epoch => exact if_neg (by simp [unprotected])

/-- Marking leaves a row alone, or degrades one that was pending already. -/
theorem markStale_cases (desiredRf : Int) (currentEpoch : Option Text) (row : ProtectionRecord) :
    markStaleEpoch currentEpoch (markStaleRf desiredRf row) = row ∨
      isPendingProtection desiredRf currentEpoch row = true ∧
        (markStaleEpoch currentEpoch (markStaleRf desiredRf row)).protectionState = .degraded := by
  by_cases low : (row.desiredRf : Int) < desiredRf ∧ row.isProtected
  · refine .inr ⟨by simp [isPendingProtection, low.1], ?_⟩
    rw [markStaleRf, if_pos low]
    cases currentEpoch with
    | none => rfl
    | some epoch =>
        rw [markStaleEpoch,
          if_neg (by simp [ProtectionRecord.isProtected, ProtectionState.countsAsProtected])]
  · rw [markStaleRf, if_neg low]
    cases currentEpoch with
    | none => exact .inl rfl
    | some epoch =>
        by_cases moved : row.isProtected ∧ row.placementEpoch ≠ some epoch
        · rw [markStaleEpoch, if_pos moved]
          refine .inr ⟨?_, rfl⟩
          have counted := moved.1
          cases state : row.protectionState <;>
            simp [ProtectionRecord.isProtected, ProtectionState.countsAsProtected,
              state] at counted <;>
            simp [isPendingProtection, state, moved.2]
        · exact .inl (if_neg moved)

theorem isPendingProtection_markStale (desiredRf : Int) (currentEpoch : Option Text)
    (row : ProtectionRecord) :
    isPendingProtection desiredRf currentEpoch
      (markStaleEpoch currentEpoch (markStaleRf desiredRf row)) =
      isPendingProtection desiredRf currentEpoch row := by
  rcases markStale_cases desiredRf currentEpoch row with same | ⟨pending, degraded⟩
  · rw [same]
  · rw [pending]
    simp [isPendingProtection, degraded]

theorem markStale_idempotent (desiredRf : Int) (currentEpoch : Option Text)
    (row : ProtectionRecord) :
    markStaleEpoch currentEpoch
      (markStaleRf desiredRf (markStaleEpoch currentEpoch (markStaleRf desiredRf row))) =
      markStaleEpoch currentEpoch (markStaleRf desiredRf row) := by
  rcases markStale_cases desiredRf currentEpoch row with same | ⟨-, degraded⟩
  · rw [same, same]
  · apply markStale_of_unprotected
    rw [ProtectionRecord.isProtected, degraded]
    rfl

namespace MetadataDB

variable {db : MetadataDB}

theorem markStaleProtection_pending (desiredRf : Int) (currentEpoch : Option Text)
    (limit : Option Int) :
    (db.markStaleProtection desiredRf currentEpoch).getPendingProtectionChunks desiredRf
      currentEpoch limit = db.getPendingProtectionChunks desiredRf currentEpoch limit := by
  have same : ((db.markStaleProtection desiredRf currentEpoch).chunkProtection.filter fun _ row =>
      isPendingProtection desiredRf currentEpoch row).keys =
      (db.chunkProtection.filter
        fun _ row => isPendingProtection desiredRf currentEpoch row).keys := by
    simp only [markStaleProtection, Dict.keys, Dict.filter, Dict.mapValues,
      List.filter_map, List.map_map, Function.comp_def, isPendingProtection_markStale]
  rw [getPendingProtectionChunks, same, getPendingProtectionChunks]

theorem markStaleProtection_idempotent (desiredRf : Int) (currentEpoch : Option Text) :
    (db.markStaleProtection desiredRf currentEpoch).markStaleProtection desiredRf currentEpoch =
      db.markStaleProtection desiredRf currentEpoch := by
  have same : ((db.chunkProtection.mapValues fun _ row => markStaleEpoch currentEpoch
      (markStaleRf desiredRf row)).mapValues
      fun _ row => markStaleEpoch currentEpoch (markStaleRf desiredRf row)) =
      db.chunkProtection.mapValues fun _ row => markStaleEpoch currentEpoch
        (markStaleRf desiredRf row) := by
    apply Dict.ext_entries
    simp only [Dict.mapValues, List.map_map, Function.comp_def, markStale_idempotent]
  rw [markStaleProtection, markStaleProtection]
  exact congrArg (fun table => { db with chunkProtection := table }) same

theorem filter_insertionSort (keep : Text → Bool) (hashes : List Text) :
    (hashes.insertionSort fun left right => textLe left right = true).filter keep =
      (hashes.filter keep).insertionSort fun left right => textLe left right = true := by
  simp only [textLe, decide_eq_true_eq]
  have whole : (hashes.insertionSort (· ≤ ·)).Pairwise (· ≤ ·) := List.pairwise_insertionSort _ _
  have part : ((hashes.filter keep).insertionSort (· ≤ ·)).Pairwise (· ≤ ·) :=
    List.pairwise_insertionSort _ _
  refine List.Perm.eq_of_pairwise (fun _ _ _ _ => le_antisymm) (whole.filter _) part ?_
  exact ((List.perm_insertionSort _ hashes).filter keep).trans (List.perm_insertionSort _ _).symm

/-- Naming the hashes in the query selects what is pending among them. -/
theorem pendingProtectionChunksForHashes_eq (hashes : List Text) (desiredRf : Int)
    (currentEpoch : Option Text) :
    db.pendingProtectionChunksForHashes hashes desiredRf currentEpoch none =
      (db.getPendingProtectionChunks desiredRf currentEpoch none).filter hashes.contains := by
  have keys : (db.chunkProtection.filter fun chunkHash row =>
      hashes.contains chunkHash && isPendingProtection desiredRf currentEpoch row).keys =
      ((db.chunkProtection.filter
        fun _ row => isPendingProtection desiredRf currentEpoch row).keys.filter
        hashes.contains) := by
    simp only [Dict.keys, Dict.filter, List.filter_map, Function.comp_def, List.filter_filter]
  rw [pendingProtectionChunksForHashes, getPendingProtectionChunks, applyLimit, applyLimit,
    filter_insertionSort, keys]

/-- Pending chunks are known chunks. -/
theorem Linked.pending_known (linked : Linked db) {desiredRf : Int} {currentEpoch : Option Text}
    {hash : Text} (pending : hash ∈ db.getPendingProtectionChunks desiredRf currentEpoch none) :
    hash ∈ db.allKnownChunkHashes := by
  have listed := (List.mem_insertionSort _).mp pending
  obtain ⟨row, found⟩ := (Dict.mem_keys_iff ..).mp listed
  have stored := ((Dict.get?_filter_eq_some_iff ..).mp found).1
  exact (List.mem_insertionSort _).mpr
    (linked.protection hash ((Dict.mem_keys_iff ..).mpr ⟨row, stored⟩))

end MetadataDB

end Stopan.Metadata

namespace Stopan.Protection

open Stopan.Lib Stopan.Common Stopan.Metadata

/-- The pack is pending for the epoch of its own number of shards. -/
def needsRetry (currentEpochs : Dict Int Text) (row : ErasureDataPackRow) : Bool :=
  match currentEpochs.get? ((row.dataShards + row.parityShards : Nat) : Int) with
  | none => false
  | some epoch => isPendingErasurePack (some epoch) row

def isConsidered (packHashes : Option (List Text)) (packHash : Text) : Bool :=
  match packHashes with
  | none => true
  | some hashes => hashes.contains packHash

/-- The packs that a retry is for, in the order of the table. -/
def packsToRetry (db : MetadataDB) (packHashes : Option (List Text))
    (currentEpochs : Dict Int Text) :
    List ErasureDataPackRecord :=
  (db.erasureDataPacks.filter fun packHash row => isConsidered packHashes packHash &&
    needsRetry currentEpochs row).entries

section Retries

variable {db : MetadataDB} {packHashes : Option (List Text)} {currentEpochs : Dict Int Text}

def shardTotal (record : ErasureDataPackRecord) : Int :=
  ((record.2.dataShards + record.2.parityShards : Nat) : Int)

/-- The packs that the query for one number of shards selects. -/
def packsFor (db : MetadataDB) (packHashes : Option (List Text)) (target : Int × Text) :
    List ErasureDataPackRecord :=
  db.erasurePacksWhere fun packHash row =>
    isConsidered packHashes packHash && isPendingErasurePack (some target.2) row &&
      hasRemoteTargets (some target.1) row

theorem pendingErasurePacksFor_result (listed : ∀ hashes ∈ packHashes, DistinctHashes hashes)
    (few : ∀ hashes ∈ packHashes, hashes.length + 7 ≤ maxVariableNumber) (target : Int × Text) :
    (pendingErasurePacksFor db packHashes target).result = .ok (packsFor db packHashes target) := by
  cases packHashes with
  | none =>
      simp only [pendingErasurePacksFor, packsFor, isConsidered, Bool.true_and]
      exact Queried.result_select (by simp [epochParameters, maxVariableNumber])
  | some hashes =>
      refine (Queried.result_byHashes_eq_ok_iff (listed hashes rfl) ?_ ?_).mpr ⟨?_, rfl⟩
      · simp [epochParameters, maxVariableNumber]
      · simp [applyLimit, MetadataDB.erasurePacksWhere, Dict.filter]
      · simpa [epochParameters] using few hashes rfl

/-- They are the packs to retry with that number of shards. -/
theorem packsFor_perm {target : Int × Text} (member : target ∈ currentEpochs.entries) :
    (packsFor db packHashes target).Perm
      ((packsToRetry db packHashes currentEpochs).filter
        fun record => shardTotal record = target.1) := by
  have epoch : currentEpochs.get? target.1 = some target.2 := Dict.get?_eq_some_iff.mpr member
  refine (List.perm_insertionSort _ _).trans (List.Perm.of_eq ?_)
  simp only [packsToRetry, Dict.filter, List.filter_filter]
  apply List.filter_congr
  intro record _
  by_cases total : shardTotal record = target.1
  · have same : currentEpochs.get? ((record.2.dataShards + record.2.parityShards : Nat) : Int) =
      some target.2 := by
      rw [← epoch, ← total]
      rfl
    have right : hasRemoteTargets (some target.1) record.2 = true := decide_eq_true total
    simp only [total, right, needsRetry, same, decide_true, Bool.and_true, Bool.true_and]
  · have wrong : hasRemoteTargets (some target.1) record.2 = false := decide_eq_false total
    simp only [total, wrong, decide_false, Bool.and_false, Bool.false_and]

/-- The queries for the different numbers of shards neither overlap nor miss a pack. -/
theorem packsFor_flatten_perm :
    (((sortedTargets currentEpochs).map (packsFor db packHashes)).flatten).Perm
      (packsToRetry db packHashes currentEpochs) := by
  have targets : (sortedTargets currentEpochs).Perm currentEpochs.entries :=
    List.perm_insertionSort _ _
  have grouped :=
    flatMap_groups_perm shardTotal currentEpochs.keys (packsToRetry db packHashes currentEpochs)
    currentEpochs.keys_nodup (by
      intro record member
      obtain ⟨-, needed⟩ := List.mem_filter.mp member
      have retried : needsRetry currentEpochs record.2 = true := (Bool.and_eq_true_iff.mp needed).2
      unfold needsRetry at retried
      split at retried
      · cases retried
      · rename_i epoch found
        exact (Dict.mem_keys_iff ..).mpr ⟨epoch, found⟩)
  rw [← List.flatMap_def]
  refine (targets.flatMap fun target member => packsFor_perm (targets.mem_iff.mp member)).trans ?_
  rw [Dict.keys, List.flatMap_map] at grouped
  exact grouped

theorem pendingErasurePacks_result (listed : ∀ hashes ∈ packHashes, DistinctHashes hashes)
    (few : currentEpochs.entries = [] ∨
      ∀ hashes ∈ packHashes, hashes.length + 7 ≤ maxVariableNumber) :
    ∃ packs, (pendingErasurePacksByRemoteTargets db packHashes currentEpochs none).result =
      .ok packs ∧ packs.Perm (packsToRetry db packHashes currentEpochs) := by
  have answers : ∀ target ∈ sortedTargets currentEpochs,
      (pendingErasurePacksFor db packHashes target).result = .ok
        (packsFor db packHashes target) := by
    intro target member
    rcases few with none | few
    · simp [sortedTargets, none] at member
    · exact pendingErasurePacksFor_result listed few target
  refine ⟨sortedByPackHash ((sortedTargets currentEpochs).map (packsFor db packHashes)).flatten, ?_,
    ?_⟩
  · rw [pendingErasurePacksByRemoteTargets,
      Logged.result_bind_of_ok (Logged.result_forEach answers)]
    rfl
  · exact (List.perm_insertionSort _ _).trans packsFor_flatten_perm

end Retries

section Answers

variable {α β : Type}

/-- A query that has an answer was accepted. -/
def Accepted (query : Queried α) : Prop := ∀ rows, query.result = .ok rows → query.WithinLimit

theorem accepted_select {parameters : Nat} {rows : α} :
    Accepted (Queried.select parameters rows) := by
  intro answer returned
  exact Queried.withinLimit_select_iff.mpr (Queried.result_select_eq_ok_iff.mp returned).1

theorem accepted_check {outcome : Except StopanError α} :
    Accepted (Logged.check outcome : Queried α) :=
  fun _ _ => Logged.every_check _

theorem accepted_pure {value : α} : Accepted (pure value : Queried α) :=
  fun _ _ => Logged.every_pure _

theorem accepted_bind {first : Queried α} {next : α → Queried β} (before : Accepted first)
    (after : ∀ value, Accepted (next value)) : Accepted (first >>= next) := by
  intro rows returned
  obtain ⟨middle, firstReturned, nextReturned⟩ := Logged.result_bind_eq_ok_iff.mp returned
  exact (Logged.every_bind_of_ok firstReturned).mpr ⟨before middle firstReturned,
    after middle rows nextReturned⟩

theorem accepted_byHashes {values : List Text} {parameters : Nat} {rows : List Text → List α} :
    Accepted (Queried.byHashes values parameters rows) := by
  apply accepted_bind accepted_check
  intro hashes
  split
  · exact accepted_pure
  · exact accepted_select

theorem accepted_forEach {step : α → Queried β} {items : List α}
    (each : ∀ item, Accepted (step item)) :
    Accepted (Logged.forEach step items) := by
  induction items with
  | nil => exact accepted_pure
  | cons item rest ih =>
      apply accepted_bind (each item)
      intro value
      exact accepted_bind ih fun _ => accepted_pure

variable {db : MetadataDB}

theorem accepted_chunkHashesForScope {scope : ProtectionScope} :
    Accepted (chunkHashesForScope db scope) :=
  fun _ _ => chunkHashesForScope_withinLimit

theorem accepted_packHashesForScope {scope : ProtectionScope} :
    Accepted (packHashesForScope db scope) := by
  unfold packHashesForScope
  split
  · exact accepted_select
  · exact accepted_bind accepted_chunkHashesForScope fun _ => accepted_byHashes

theorem accepted_pendingErasurePacks {packHashes : Option (List Text)}
    {currentEpochs : Dict Int Text} :
    Accepted (pendingErasurePacksByRemoteTargets db packHashes currentEpochs none) := by
  apply accepted_bind
  · apply accepted_forEach
    intro target
    cases packHashes with
    | none => exact accepted_select
    | some hashes => exact accepted_byHashes
  · exact fun _ => accepted_pure

end Answers

/-- The selections of a push agree with what is pending. -/
structure SelectionAgrees (db : MetadataDB) (desiredRf : Int) (currentEpoch : Option Text)
    (scope : Option Text) (snapshotId : Option Nat) (currentEpochs : Dict Int Text) : Prop where
  restricted : ∀ named hashes, normalizeProtectionScope scope snapshotId = .ok named →
    db.chunkHashesForScope named = .ok hashes →
    (scopedReplicationPushChunks db scope snapshotId desiredRf currentEpoch none).result =
      .ok ((db.getPendingProtectionChunks desiredRf currentEpoch none).filter hashes.contains)
  allKnown : normalizeProtectionScope scope snapshotId = .ok .allKnownChunks →
    (scopedReplicationPushChunks db scope snapshotId desiredRf currentEpoch none).result =
      (scopedReplicationPushChunks db none none desiredRf currentEpoch none).result
  markedPending : (db.markStaleProtection desiredRf currentEpoch).getPendingProtectionChunks
    desiredRf currentEpoch none = db.getPendingProtectionChunks desiredRf currentEpoch none
  markedTwice : (db.markStaleProtection desiredRf currentEpoch).markStaleProtection
    desiredRf currentEpoch = db.markStaleProtection desiredRf currentEpoch
  retries : ∀ named, normalizeProtectionScope scope snapshotId = .ok named →
    Representable db named →
    ∃ packs, (scopedErasurePushRetryPacks db scope snapshotId currentEpochs none).result =
      .ok packs ∧ (packs.map Prod.fst).Nodup ∧
      ∀ packHash row, (packHash, row) ∈ packs ↔
        db.erasureDataPacks.get? packHash = some row ∧
          (named = .pending ∨ packHash ∈ scopePacks db named) ∧
          ∃ epoch, currentEpochs.get? ((row.dataShards + row.parityShards : Nat) : Int) =
            some epoch ∧ isPendingErasurePack (some epoch) row = true

section Agreement

variable {db : MetadataDB} {desiredRf : Int} {currentEpoch scope : Option Text}
  {snapshotId : Option Nat}
  {currentEpochs : Dict Int Text} {named : ProtectionScope}

theorem needsRetry_iff {row : ErasureDataPackRow} :
    needsRetry currentEpochs row = true ↔
      ∃ epoch, currentEpochs.get? ((row.dataShards + row.parityShards : Nat) : Int) = some epoch ∧
        isPendingErasurePack (some epoch) row = true := by
  unfold needsRetry
  generalize ((row.dataShards + row.parityShards : Nat) : Int) = total
  cases found : currentEpochs.get? total with
  | none => simp
  | some epoch => simp

theorem mem_packsToRetry {packHashes : Option (List Text)} {packHash : Text}
    {row : ErasureDataPackRow} : (packHash, row) ∈ packsToRetry db packHashes currentEpochs ↔
      db.erasureDataPacks.get? packHash = some row ∧ isConsidered packHashes packHash = true ∧
        ∃ epoch, currentEpochs.get? ((row.dataShards + row.parityShards : Nat) : Int) = some epoch ∧
          isPendingErasurePack (some epoch) row = true := by
  rw [packsToRetry, ← Dict.get?_eq_some_iff, Dict.get?_filter_eq_some_iff,
    Bool.and_eq_true, needsRetry_iff]

theorem packsToRetry_nodup {packHashes : Option (List Text)} :
    ((packsToRetry db packHashes currentEpochs).map Prod.fst).Nodup := Dict.keys_nodup _

/-- A list of the packs to retry in any order. -/
theorem retries_of_perm {packHashes : Option (List Text)} {packs : List ErasureDataPackRecord}
    (permuted : packs.Perm (packsToRetry db packHashes currentEpochs)) :
    (packs.map Prod.fst).Nodup ∧
      ∀ packHash row, (packHash, row) ∈ packs ↔
        db.erasureDataPacks.get? packHash = some row ∧ isConsidered packHashes packHash = true ∧
          ∃ epoch, currentEpochs.get? ((row.dataShards + row.parityShards : Nat) : Int) =
            some epoch ∧ isPendingErasurePack (some epoch) row = true := by
  refine ⟨(permuted.map Prod.fst).nodup_iff.mpr packsToRetry_nodup, ?_⟩
  intro packHash row
  rw [permuted.mem_iff, mem_packsToRetry]

theorem restricted_of_fits (linked : db.Linked)
    (normalized : normalizeProtectionScope scope snapshotId = .ok named)
    {hashes : List Text} (resolved : db.chunkHashesForScope named = .ok hashes)
    (fits : (ScopedQuery.replicationPush desiredRf currentEpoch none).Fits db named) :
    (scopedReplicationPushChunks db scope snapshotId desiredRf currentEpoch none).result =
      .ok ((db.getPendingProtectionChunks desiredRf currentEpoch none).filter hashes.contains) := by
  have other : named ≠ .pending := by
    rintro rfl
    cases resolved
  rw [ScopedQuery.Fits, scopeChunks_of_resolved resolved] at fits
  rw [scopedReplicationPushChunks, normalized, Logged.check_ok_bind, if_neg other,
    replicationPushChunksForScope,
    Logged.result_bind_of_ok (chunkHashesForScope_result.trans resolved)]
  refine (Queried.result_byHashes_eq_ok_iff (linked.scopeChunks resolved)
    (push_parameters _ _) ?_).mpr ⟨fits, ?_⟩
  · simp [MetadataDB.pendingProtectionChunksForHashes_eq]
  · rw [MetadataDB.pendingProtectionChunksForHashes_eq]

theorem pendingScope_result :
    (scopedReplicationPushChunks db none none desiredRf currentEpoch none).result =
      .ok (db.getPendingProtectionChunks desiredRf currentEpoch none) :=
  Queried.result_select (push_parameters _ _)

theorem retries_of_fits (linked : db.Linked)
    (normalized : normalizeProtectionScope scope snapshotId = .ok named)
    (representable : Representable db named)
    (fits : (ScopedQuery.erasureRetry currentEpochs none).Fits db named) :
    ∃ packs, (scopedErasurePushRetryPacks db scope snapshotId currentEpochs none).result =
      .ok packs ∧
      packs.Perm (packsToRetry db (if named = .pending then none
        else some (scopePacks db named)) currentEpochs) := by
  rw [scopedErasurePushRetryPacks, normalized, Logged.check_ok_bind]
  rcases representable with pending | ⟨hashes, resolved⟩
  · rw [if_pos pending, if_pos pending]
    exact pendingErasurePacks_result (by simp) (.inr (by simp))
  · have other : named ≠ .pending := by
      rintro rfl
      cases resolved
    rw [if_neg other, if_neg other, erasurePushRetryPacksForScope,
      Logged.result_bind_of_ok (packHashesForScope_result linked fits.1 resolved)]
    apply pendingErasurePacks_result
    · intro packs same
      cases same
      exact scopePacks_listed linked
    · refine fits.2.imp_right fun few => ?_
      intro packs same
      cases same
      exact few

theorem selectionAgrees_of_fits (linked : db.Linked)
    (fits : ∀ named, normalizeProtectionScope scope snapshotId = .ok named →
      (ScopedQuery.replicationPush desiredRf currentEpoch none).Fits db named ∧
        (ScopedQuery.erasureRetry currentEpochs none).Fits db named) :
    SelectionAgrees db desiredRf currentEpoch scope snapshotId currentEpochs where
  restricted named hashes normalized resolved :=
    restricted_of_fits linked normalized resolved (fits named normalized).1
  allKnown normalized := by
    rw [restricted_of_fits linked normalized rfl (fits _ normalized).1, pendingScope_result]
    refine congrArg Except.ok (List.filter_eq_self.mpr ?_)
    intro hash pending
    rw [List.contains_iff_mem]
    exact linked.pending_known pending
  markedPending := MetadataDB.markStaleProtection_pending desiredRf currentEpoch none
  markedTwice := MetadataDB.markStaleProtection_idempotent desiredRf currentEpoch
  retries named normalized representable := by
    obtain ⟨packs, returned, permuted⟩ :=
      retries_of_fits linked normalized representable (fits named normalized).2
    obtain ⟨distinct, members⟩ := retries_of_perm permuted
    refine ⟨packs, returned, distinct, ?_⟩
    intro packHash row
    rw [members]
    by_cases pending : named = .pending
    · simp [pending, isConsidered]
    · simp [pending, isConsidered]

/-- A scope that names no chunks fits. -/
theorem ScopedQuery.fits_of_unresolved (query : ScopedQuery)
    (unresolved : ¬ ∃ hashes, db.chunkHashesForScope named = .ok hashes) : query.Fits db named := by
  have chunks : scopeChunks db named = scopeChunks db .pending := by
    unfold scopeChunks
    cases resolved : db.chunkHashesForScope named with
    | ok hashes => exact absurd ⟨hashes, resolved⟩ unresolved
    | error reason => rfl
  have packs : scopePacks db named = scopePacks db .pending := by
    rw [scopePacks_of_unresolved unresolved, scopePacks_pending]
  have listable : PacksListable db named := .inr (by rw [chunks]; simp [scopeChunks_pending])
  have pending : query.Fits db .pending := query.fits_pending
  cases query with
  | replicationVerification includeVerified limit => simpa only [Fits, chunks] using pending
  | erasureVerification includeVerified limit =>
      exact ⟨listable, by simpa only [packs] using pending.2⟩
  | replicationPush desiredRf currentEpoch limit => simpa only [Fits, chunks] using pending
  | erasureRetry currentEpochs limit => exact ⟨listable, by simpa only [packs] using pending.2⟩
  | erasureNew limit => simpa only [Fits, chunks] using pending

theorem fits_of_selectionAgrees (linked : db.Linked)
    (agrees : SelectionAgrees db desiredRf currentEpoch scope snapshotId currentEpochs)
    (normalized : normalizeProtectionScope scope snapshotId = .ok named) :
    (ScopedQuery.replicationPush desiredRf currentEpoch none).Fits db named ∧
      (ScopedQuery.erasureRetry currentEpochs none).Fits db named := by
  by_cases resolvable : ∃ hashes, db.chunkHashesForScope named = .ok hashes
  · obtain ⟨hashes, resolved⟩ := resolvable
    constructor
    · apply (ScopedQuery.run_withinLimit_iff _ linked normalized).mp
      rw [ScopedQuery.run, withinLimit_map_iff]
      have returned := agrees.restricted named hashes normalized resolved
      refine accepted_bind accepted_check (fun scopeValue => ?_) _ returned
      split
      · exact accepted_select
      · exact accepted_bind accepted_chunkHashesForScope fun _ => accepted_byHashes
    · apply (ScopedQuery.run_withinLimit_iff _ linked normalized).mp
      rw [ScopedQuery.run, withinLimit_map_iff]
      obtain ⟨packs, returned, -⟩ := agrees.retries named normalized (.inr ⟨hashes, resolved⟩)
      refine accepted_bind accepted_check (fun scopeValue => ?_) _ returned
      split
      · exact accepted_pendingErasurePacks
      · exact accepted_bind accepted_packHashesForScope fun _ => accepted_pendingErasurePacks
  · exact ⟨ScopedQuery.fits_of_unresolved _ resolvable, ScopedQuery.fits_of_unresolved _ resolvable⟩

end Agreement

theorem pushSelection_agrees_iff (calls : List CatalogCall) (desiredRf : Int)
    (currentEpoch scope : Option Text) (snapshotId : Option Nat) (currentEpochs : Dict Int Text) :
    SelectionAgrees
      (MetadataDB.reached calls) desiredRf currentEpoch scope snapshotId currentEpochs ↔
      ∀ named, normalizeProtectionScope scope snapshotId = .ok named →
        (ScopedQuery.replicationPush desiredRf currentEpoch none).Fits
          (MetadataDB.reached calls) named ∧
          (ScopedQuery.erasureRetry currentEpochs none).Fits (MetadataDB.reached calls) named := by
  have linked := MetadataDB.linked_reached calls
  constructor
  · intro agrees named normalized
    exact fits_of_selectionAgrees linked agrees normalized
  · intro fits
    exact selectionAgrees_of_fits linked fits

/-- Without a statement that SQLite accepts there is no selection at all. -/
theorem manyChunks_notSelected :
    ¬ SelectionAgrees
      (MetadataDB.reached [.importGraph (importedChunks 32767 (by decide)) []]) 1 none
      (some "all-known-chunks".toList) none .empty := by
  intro agrees
  have fits := (fits_of_selectionAgrees (MetadataDB.linked_reached _) agrees rfl).1
  simp only [ScopedQuery.Fits, importedChunks_allKnown, maxVariableNumber] at fits
  omega

end Stopan.Protection
