import Stopan.Protection.Scope

namespace Stopan.Protection

open Stopan.Lib Stopan.Common Stopan.Metadata

/-- The queries of push and verify that take a scope. -/
inductive ScopedQuery where
  | replicationVerification (includeVerified : Bool) (limit : Option Int)
  | erasureVerification (includeVerified : Bool) (limit : Option Int)
  | replicationPush (desiredRf : Int) (currentEpoch : Option Text) (limit : Option Int)
  | erasureRetry (currentEpochs : Dict Int Text) (limit : Option Int)
  | erasureNew (limit : Option Int)

inductive ScopedAnswer where
  | candidates (rows : List VerificationCandidate)
  | packs (rows : List ErasureDataPackRecord)
  | chunks (rows : List Text)

def ScopedQuery.run (query : ScopedQuery) (db : MetadataDB) (scope : Option Text)
    (snapshotId : Option Nat) :
    Queried ScopedAnswer :=
  match query with
  | .replicationVerification includeVerified limit => do
      return .candidates
        (← scopedReplicationVerificationCandidates db scope snapshotId includeVerified limit)
  | .erasureVerification includeVerified limit => do
      return .packs (← scopedErasureVerificationCandidates db scope snapshotId none
        includeVerified limit)
  | .replicationPush desiredRf currentEpoch limit => do
      return .chunks
        (← scopedReplicationPushChunks db scope snapshotId desiredRf currentEpoch limit)
  | .erasureRetry currentEpochs limit => do
      return .packs (← scopedErasurePushRetryPacks db scope snapshotId currentEpochs limit)
  | .erasureNew limit => do
      return .chunks (← scopedErasurePushNewChunks db scope snapshotId limit)

/-- The chunks and the packs of the scope, with the other parameters of the query, are few
enough. -/
def ScopedQuery.Fits (query : ScopedQuery) (db : MetadataDB) (scope : ProtectionScope) : Prop :=
  match query with
  | .replicationVerification includeVerified limit =>
      (scopeChunks db scope).length +
        ((verifiableStates includeVerified).length + limit.toList.length)
        ≤ maxVariableNumber
  | .erasureVerification includeVerified limit =>
      PacksListable db scope ∧
        (scopePacks db scope).length +
          ((verifiableStates includeVerified).length + limit.toList.length)
          ≤ maxVariableNumber
  | .replicationPush _ currentEpoch limit =>
      (scopeChunks db scope).length + (4 + epochParameters currentEpoch + limit.toList.length) ≤
        maxVariableNumber
  | .erasureRetry currentEpochs _ =>
      PacksListable db scope ∧
        (currentEpochs.entries = [] ∨ (scopePacks db scope).length + 7 ≤ maxVariableNumber)
  | .erasureNew limit => (scopeChunks db scope).length + limit.toList.length ≤ maxVariableNumber

theorem limit_parameters (limit : Option Int) : limit.toList.length ≤ 1 := by
  cases limit <;> simp

theorem epochParameters_le (currentEpoch : Option Text) : epochParameters currentEpoch ≤ 3 := by
  cases currentEpoch <;> simp [epochParameters]

theorem verifiableStates_length (includeVerified : Bool) :
    (verifiableStates includeVerified).length ≤ 5 := by
  cases includeVerified <;> decide

theorem statesOf_length {states : List ProtectionState} (few : states.length ≤ 3)
    (includeVerified : Bool) :
    (states ++ if includeVerified then [ProtectionState.verified] else []).length ≤ 4 := by
  cases includeVerified <;> simp <;> omega

section Queries

variable {db : MetadataDB} {scope : ProtectionScope} {α β : Type}

/-- What is done with the rows afterwards takes no statement. -/
theorem withinLimit_map_iff {query : Queried α} {answer : α → β} :
    (query >>= fun rows => pure (answer rows)).WithinLimit ↔ query.WithinLimit := by
  rw [Queried.WithinLimit, Logged.every_bind_iff]
  exact and_iff_left fun _ _ => Logged.every_pure _

/-- A query that is accepted has an answer. -/
def Settled (query : Queried α) : Prop := query.WithinLimit → ∃ rows, query.result = .ok rows

theorem settled_select {parameters : Nat} {rows : α} : Settled (Queried.select parameters rows) :=
  fun within => ⟨rows, Queried.result_select (Queried.withinLimit_select_iff.mp within)⟩

theorem settled_pure {value : α} : Settled (pure value : Queried α) := fun _ => ⟨value, rfl⟩

theorem settled_bind {first : Queried α} {next : α → Queried β} (before : Settled first)
    (after : ∀ value, first.result = .ok value → Settled (next value)) :
    Settled (first >>= next) := by
  intro within
  obtain ⟨firstWithin, nextWithin⟩ := Logged.every_bind_iff.mp within
  obtain ⟨value, returned⟩ := before firstWithin
  rw [Logged.result_bind_of_ok returned]
  exact after value returned (nextWithin value returned)

theorem settled_byHashes {hashes : List Text} {parameters : Nat} {rows : List Text → List α}
    (listed : DistinctHashes hashes) : Settled (Queried.byHashes hashes parameters rows) := by
  rw [Queried.byHashes_eq listed]
  split
  · exact settled_pure
  · exact settled_select

theorem settled_forEach {step : α → Queried β} {items : List α}
    (settled : ∀ item ∈ items, Settled (step item)) :
    Settled (Logged.forEach step items) := by
  induction items with
  | nil => exact settled_pure
  | cons item rest ih =>
      apply settled_bind (settled item (by simp))
      intro value _
      apply settled_bind (ih fun other member => settled other (by simp [member]))
      intro values _
      exact settled_pure

theorem settled_chunkHashesForScope {hashes : List Text}
    (resolved : db.chunkHashesForScope scope = .ok hashes) :
    Settled (chunkHashesForScope db scope) :=
  fun _ => ⟨hashes, chunkHashesForScope_result.trans resolved⟩

/-- Queries about the chunks of a scope. -/
theorem settled_onChunks {parameters : Nat} {rows : List Text → List α} (linked : db.Linked)
    {hashes : List Text} (resolved : db.chunkHashesForScope scope = .ok hashes) :
    Settled (chunkHashesForScope db scope >>=
      fun chunks => Queried.byHashes chunks parameters rows) := by
  apply settled_bind (settled_chunkHashesForScope resolved)
  intro chunks returned
  rw [chunkHashesForScope_result] at returned
  exact settled_byHashes (linked.scopeChunks returned)

theorem withinLimit_chunks_iff {parameters : Nat} {rows : List Text → List α} (linked : db.Linked)
    (few : parameters ≤ maxVariableNumber) :
    (chunkHashesForScope db scope >>=
      fun chunks => Queried.byHashes chunks parameters rows).WithinLimit ↔
      (scopeChunks db scope).length + parameters ≤ maxVariableNumber := by
  have none : (Queried.byHashes [] parameters rows).WithinLimit :=
    (Queried.withinLimit_byHashes_iff distinctHashes_nil few).mpr (by simpa using few)
  exact Iff.trans (withinLimit_onChunks_iff none)
    (Queried.withinLimit_byHashes_iff (scopeChunks_listed linked) few)

theorem settled_packHashesForScope (linked : db.Linked) {hashes : List Text}
    (resolved : db.chunkHashesForScope scope = .ok hashes) :
    Settled (packHashesForScope db scope) := by
  intro within
  exact ⟨_, packHashesForScope_result linked
    ((packHashesForScope_withinLimit_iff linked).mp within) resolved⟩

/-- The packs that a scope returns are packs of the catalog. -/
theorem packHashesForScope_listed (linked : db.Linked) {packs : List Text}
    (returned : (packHashesForScope db scope).result = .ok packs) : DistinctHashes packs := by
  by_cases resolvable : ∃ hashes, db.chunkHashesForScope scope = .ok hashes
  · obtain ⟨hashes, resolved⟩ := resolvable
    unfold packHashesForScope at returned
    split at returned
    · cases (Queried.result_select_eq_ok_iff.mp returned).2
      exact linked.knownPacks
    · rw [Logged.result_bind_of_ok (chunkHashesForScope_result.trans resolved)] at returned
      have read := (Queried.result_byHashes_eq_ok_iff (linked.scopeChunks resolved) (by decide)
        packHashesOfChunks_nil).mp returned
      rw [read.2]
      exact linked.packsOfChunks _
  · exact absurd returned (packHashesForScope_fails resolvable)

theorem settled_pendingErasurePacksFor {packHashes : Option (List Text)}
    (listed : ∀ hashes ∈ packHashes, DistinctHashes hashes)
    (target : Int × Text) : Settled (pendingErasurePacksFor db packHashes target) := by
  cases packHashes with
  | none => exact settled_select
  | some hashes => exact settled_byHashes (listed hashes rfl)

theorem settled_pendingErasurePacks {packHashes : Option (List Text)}
    (listed : ∀ hashes ∈ packHashes, DistinctHashes hashes) (currentEpochs : Dict Int Text)
    (limit : Option Int) :
    Settled (pendingErasurePacksByRemoteTargets db packHashes currentEpochs limit) := by
  apply settled_bind (settled_forEach fun target _ => settled_pendingErasurePacksFor listed target)
  intro selected _
  dsimp only
  cases limit with
  | none => exact settled_pure
  | some bound => exact settled_pure

/-- The queries for the different numbers of shards bind the same number of parameters. -/
theorem withinLimit_pendingErasurePacks_iff {packHashes : Option (List Text)}
    (listed : ∀ hashes ∈ packHashes, DistinctHashes hashes) (currentEpochs : Dict Int Text)
    (limit : Option Int) :
    (pendingErasurePacksByRemoteTargets db packHashes currentEpochs limit).WithinLimit ↔
      currentEpochs.entries = [] ∨
        ∀ hashes ∈ packHashes, hashes.length + 7 ≤ maxVariableNumber := by
  have loop : (pendingErasurePacksByRemoteTargets db packHashes currentEpochs limit).WithinLimit ↔
      ∀ target ∈ sortedTargets currentEpochs,
        (pendingErasurePacksFor db packHashes target).WithinLimit := by
    refine Logged.every_bind_iff.trans ((and_iff_left ?_).trans ?_)
    · intro selected _
      cases limit with
      | none => exact Logged.every_pure _
      | some bound => exact Logged.every_pure _
    · exact Logged.every_forEach_iff fun target _ => settled_pendingErasurePacksFor listed target
  have each : ∀ target, (pendingErasurePacksFor db packHashes target).WithinLimit ↔
      ∀ hashes ∈ packHashes, hashes.length + 7 ≤ maxVariableNumber := by
    intro target
    cases packHashes with
    | none => exact iff_of_true (Queried.withinLimit_select_iff.mpr
      (by simp [epochParameters, maxVariableNumber])) (by simp)
    | some hashes =>
        refine (Queried.withinLimit_byHashes_iff (listed hashes rfl) ?_).trans ?_
        · simp [epochParameters, maxVariableNumber]
        · simp [epochParameters]
  rw [loop]
  simp only [each]
  by_cases none : currentEpochs.entries = []
  · simp [none, sortedTargets]
  · obtain ⟨target, member⟩ := List.exists_mem_of_ne_nil _ none
    have listedTarget : target ∈ sortedTargets currentEpochs :=
      (List.mem_insertionSort _).mpr member
    rw [or_iff_right none]
    exact ⟨fun all => all target listedTarget, fun few _ _ => few⟩

variable {named : ProtectionScope} {text : Option Text} {snapshotId : Option Nat}

theorem verification_parameters (includeVerified : Bool) (limit : Option Int) :
    (verifiableStates includeVerified).length + limit.toList.length ≤ maxVariableNumber :=
  (Nat.add_le_add (verifiableStates_length _) (limit_parameters _)).trans (by decide)

theorem pendingVerification_parameters {states : List ProtectionState} (few : states.length ≤ 3)
    (includeVerified : Bool) (limit : Option Int) :
    (states ++ if includeVerified then [ProtectionState.verified] else []).length +
      limit.toList.length ≤ maxVariableNumber :=
  (Nat.add_le_add (statesOf_length few _) (limit_parameters _)).trans (by decide)

theorem push_parameters (currentEpoch : Option Text) (limit : Option Int) :
    4 + epochParameters currentEpoch + limit.toList.length ≤ maxVariableNumber :=
  (Nat.add_le_add (Nat.add_le_add le_rfl (epochParameters_le _)) (limit_parameters _)).trans
    (by decide)

theorem scopePacks_pending : scopePacks db .pending = [] :=
  scopePacks_of_unresolved (by rintro ⟨hashes, resolved⟩; cases resolved)

/-- The pending work is found without naming hashes. -/
theorem ScopedQuery.fits_pending (query : ScopedQuery) : query.Fits db .pending := by
  have listable : PacksListable db .pending := .inr (by simp [scopeChunks_pending])
  cases query with
  | replicationVerification includeVerified limit =>
      simpa [Fits, scopeChunks_pending] using verification_parameters includeVerified limit
  | erasureVerification includeVerified limit =>
      exact ⟨listable,
        by simpa [scopePacks_pending] using verification_parameters includeVerified limit⟩
  | replicationPush desiredRf currentEpoch limit =>
      simpa [Fits, scopeChunks_pending] using push_parameters currentEpoch limit
  | erasureRetry currentEpochs limit =>
      exact ⟨listable, .inr (by simp [scopePacks_pending, maxVariableNumber])⟩
  | erasureNew limit =>
      simpa [Fits, scopeChunks_pending] using
        (limit_parameters limit).trans (show 1 ≤ maxVariableNumber by decide)

theorem withinLimit_packs_iff {parameters : Nat} {rows : List Text → List α} (linked : db.Linked)
    (few : parameters ≤ maxVariableNumber) :
    (packHashesForScope db scope >>=
      fun packs => Queried.byHashes packs parameters rows).WithinLimit ↔
      PacksListable db scope ∧ (scopePacks db scope).length + parameters ≤ maxVariableNumber := by
  have none : (Queried.byHashes [] parameters rows).WithinLimit :=
    (Queried.withinLimit_byHashes_iff distinctHashes_nil few).mpr (by simpa using few)
  rw [withinLimit_onPacks_iff linked none,
    Queried.withinLimit_byHashes_iff (scopePacks_listed linked) few]

theorem withinLimit_retry_iff (linked : db.Linked) (currentEpochs : Dict Int Text)
    (limit : Option Int) :
    (erasurePushRetryPacksForScope db scope currentEpochs limit).WithinLimit ↔
      PacksListable db scope ∧
        (currentEpochs.entries = [] ∨ (scopePacks db scope).length + 7 ≤ maxVariableNumber) := by
  have named : ∀ hashes, DistinctHashes hashes →
      ((pendingErasurePacksByRemoteTargets db (some hashes) currentEpochs limit).WithinLimit ↔
        currentEpochs.entries = [] ∨ hashes.length + 7 ≤ maxVariableNumber) := by
    intro hashes listed
    have named : ∀ other ∈ some hashes, DistinctHashes other := by
      intro other same
      cases same
      exact listed
    have all := @withinLimit_pendingErasurePacks_iff db (some hashes) named currentEpochs limit
    simpa using all
  have none := (named [] distinctHashes_nil).mpr (.inr (by decide))
  rw [erasurePushRetryPacksForScope, withinLimit_onPacks_iff linked none,
    named _ (scopePacks_listed linked)]

theorem ScopedQuery.run_withinLimit_iff (query : ScopedQuery) (linked : db.Linked)
    (normalized : normalizeProtectionScope text snapshotId = .ok named) :
    (query.run db text snapshotId).WithinLimit ↔ query.Fits db named := by
  by_cases pending : named = .pending
  · subst pending
    refine iff_of_true ?_ query.fits_pending
    cases query with
    | replicationVerification includeVerified limit =>
        rw [run, withinLimit_map_iff, scopedReplicationVerificationCandidates, normalized,
          Logged.check_ok_bind, if_pos rfl]
        exact Queried.withinLimit_select_iff.mpr (pendingVerification_parameters (by decide) _ _)
    | erasureVerification includeVerified limit =>
        rw [run, withinLimit_map_iff, scopedErasureVerificationCandidates, normalized,
          Logged.check_ok_bind, if_pos rfl]
        exact Queried.withinLimit_select_iff.mpr (pendingVerification_parameters (by decide) _ _)
    | replicationPush desiredRf currentEpoch limit =>
        rw [run, withinLimit_map_iff, scopedReplicationPushChunks, normalized,
          Logged.check_ok_bind, if_pos rfl]
        exact Queried.withinLimit_select_iff.mpr (push_parameters _ _)
    | erasureRetry currentEpochs limit =>
        rw [run, withinLimit_map_iff, scopedErasurePushRetryPacks, normalized,
          Logged.check_ok_bind, if_pos rfl]
        exact (withinLimit_pendingErasurePacks_iff (by simp) currentEpochs limit).mpr
          (.inr (by simp))
    | erasureNew limit =>
        rw [run, withinLimit_map_iff, scopedErasurePushNewChunks, normalized,
          Logged.check_ok_bind, if_pos rfl]
        exact Queried.withinLimit_select_iff.mpr ((limit_parameters limit).trans (by decide))
  · cases query with
    | replicationVerification includeVerified limit =>
        rw [run, withinLimit_map_iff, scopedReplicationVerificationCandidates, normalized,
          Logged.check_ok_bind, if_neg pending]
        exact withinLimit_chunks_iff linked (verification_parameters includeVerified limit)
    | erasureVerification includeVerified limit =>
        rw [run, withinLimit_map_iff, scopedErasureVerificationCandidates, normalized,
          Logged.check_ok_bind, if_neg pending]
        exact withinLimit_packs_iff linked (verification_parameters includeVerified limit)
    | replicationPush desiredRf currentEpoch limit =>
        rw [run, withinLimit_map_iff, scopedReplicationPushChunks, normalized,
          Logged.check_ok_bind, if_neg pending]
        exact withinLimit_chunks_iff linked (push_parameters currentEpoch limit)
    | erasureRetry currentEpochs limit =>
        rw [run, withinLimit_map_iff, scopedErasurePushRetryPacks, normalized,
          Logged.check_ok_bind, if_neg pending]
        exact withinLimit_retry_iff linked currentEpochs limit
    | erasureNew limit =>
        rw [run, withinLimit_map_iff, scopedErasurePushNewChunks, normalized,
          Logged.check_ok_bind, if_neg pending]
        exact withinLimit_chunks_iff linked ((limit_parameters limit).trans (by decide))

/-- A query on a scope that the catalog can represent fails only when SQLite refuses a statement. -/
theorem ScopedQuery.run_settled (query : ScopedQuery) (linked : db.Linked)
    (normalized : normalizeProtectionScope text snapshotId = .ok named)
    (representable : Representable db named) :
    Settled (query.run db text snapshotId) := by
  rcases representable with pending | ⟨hashes, resolved⟩
  · subst pending
    cases query with
    | replicationVerification includeVerified limit =>
        rw [run, scopedReplicationVerificationCandidates, normalized,
          Logged.check_ok_bind, if_pos rfl]
        exact settled_bind settled_select fun _ _ => settled_pure
    | erasureVerification includeVerified limit =>
        rw [run, scopedErasureVerificationCandidates, normalized, Logged.check_ok_bind, if_pos rfl]
        exact settled_bind settled_select fun _ _ => settled_pure
    | replicationPush desiredRf currentEpoch limit =>
        rw [run, scopedReplicationPushChunks, normalized, Logged.check_ok_bind, if_pos rfl]
        exact settled_bind settled_select fun _ _ => settled_pure
    | erasureRetry currentEpochs limit =>
        rw [run, scopedErasurePushRetryPacks, normalized, Logged.check_ok_bind, if_pos rfl]
        exact settled_bind (settled_pendingErasurePacks (by simp) _ _) fun _ _ => settled_pure
    | erasureNew limit =>
        rw [run, scopedErasurePushNewChunks, normalized, Logged.check_ok_bind, if_pos rfl]
        exact settled_bind settled_select fun _ _ => settled_pure
  · have other : named ≠ .pending := by
      rintro rfl
      cases resolved
    cases query with
    | replicationVerification includeVerified limit =>
        rw [run, scopedReplicationVerificationCandidates, normalized,
          Logged.check_ok_bind, if_neg other]
        exact settled_bind (settled_onChunks linked resolved) fun _ _ => settled_pure
    | erasureVerification includeVerified limit =>
        rw [run, scopedErasureVerificationCandidates, normalized,
          Logged.check_ok_bind, if_neg other]
        refine settled_bind (settled_bind (settled_packHashesForScope linked resolved) ?_)
          fun _ _ => settled_pure
        exact fun packs returned => settled_byHashes (packHashesForScope_listed linked returned)
    | replicationPush desiredRf currentEpoch limit =>
        rw [run, scopedReplicationPushChunks, normalized, Logged.check_ok_bind, if_neg other]
        exact settled_bind (settled_onChunks linked resolved) fun _ _ => settled_pure
    | erasureRetry currentEpochs limit =>
        rw [run, scopedErasurePushRetryPacks, normalized, Logged.check_ok_bind, if_neg other]
        refine settled_bind (settled_bind (settled_packHashesForScope linked resolved) ?_)
          fun _ _ => settled_pure
        intro packs returned
        apply settled_pendingErasurePacks
        intro hashes same
        cases same
        exact packHashesForScope_listed linked returned
    | erasureNew limit =>
        rw [run, scopedErasurePushNewChunks, normalized, Logged.check_ok_bind, if_neg other]
        exact settled_bind (settled_onChunks linked resolved) fun _ _ => settled_pure

/-- Few values name few hashes, whatever they are. -/
theorem withinLimit_byHashes_of_few {values : List Text} {parameters : Nat}
    {rows : List Text → List α} (few : values.length + parameters ≤ maxVariableNumber) :
    (Queried.byHashes values parameters rows).WithinLimit := by
  refine Logged.every_bind_iff.mpr ⟨Logged.every_check _, ?_⟩
  intro hashes checked
  obtain ⟨named, validated, unique⟩ := bind_eq_ok_iff.mp checked
  have same : values.length = named.length := (mapM_eq_ok_iff.mp validated).length_eq
  have fewer : hashes.length ≤ named.length := by
    rw [← pure_eq_ok_iff.mp unique]
    exact ((orderedUnique_nodup named).subperm fun _ member =>
      mem_orderedUnique.mp member).length_le
  split
  · exact Logged.every_pure _
  · exact Queried.withinLimit_select_iff.mpr (by omega)

theorem packLookup_withinLimit (packHash : Text) (includeVerified : Bool) (limit : Option Int) :
    (scopedErasureVerificationCandidates db text snapshotId
      (some packHash) includeVerified limit).WithinLimit := by
  have lookup : (erasurePackByHash db ((strip packHash).map Char.toLower)).WithinLimit :=
    withinLimit_map_iff.mpr
      (withinLimit_byHashes_of_few (by simp [verifiableStates, maxVariableNumber]))
  unfold scopedErasureVerificationCandidates
  refine Logged.every_bind_iff.mpr ⟨Logged.every_check _, fun _ _ => ?_⟩
  refine Logged.every_bind_iff.mpr ⟨Logged.every_check _, fun _ _ => ?_⟩
  exact withinLimit_map_iff.mpr lookup

end Queries

/-- SQLite accepts every statement of the query, which fails for no scope that the catalog can
represent. A lookup of one pack goes through the same queries. -/
structure ScopeAccepted (db : MetadataDB) (query : ScopedQuery) (scope : Option Text)
    (snapshotId : Option Nat) : Prop where
  bounded : (query.run db scope snapshotId).WithinLimit
  answered : ∀ named, normalizeProtectionScope scope snapshotId = .ok named →
    Representable db named → ∃ answer, (query.run db scope snapshotId).result = .ok answer
  packLookup : ∀ packHash includeVerified limit,
    (scopedErasureVerificationCandidates db scope snapshotId
      (some packHash) includeVerified limit).WithinLimit

/-- A scope that is refused as such takes no statement. -/
theorem ScopedQuery.run_of_refused {db : MetadataDB} {scope : Option Text} {snapshotId : Option Nat}
    {reason : StopanError}
    (query : ScopedQuery) (refused : normalizeProtectionScope scope snapshotId = .error reason) :
    (query.run db scope snapshotId).log = [] := by
  cases query with
  | replicationVerification includeVerified limit =>
      rw [run, scopedReplicationVerificationCandidates, refused]; rfl
  | erasureVerification includeVerified limit =>
      rw [run, scopedErasureVerificationCandidates, refused]; rfl
  | replicationPush desiredRf currentEpoch limit =>
      rw [run, scopedReplicationPushChunks, refused]; rfl
  | erasureRetry currentEpochs limit => rw [run, scopedErasurePushRetryPacks, refused]; rfl
  | erasureNew limit => rw [run, scopedErasurePushNewChunks, refused]; rfl

theorem scopedQuery_accepted_iff (calls : List CatalogCall) (query : ScopedQuery)
    (scope : Option Text) (snapshotId : Option Nat) :
    ScopeAccepted (MetadataDB.reached calls) query scope snapshotId ↔
      ∀ named, normalizeProtectionScope scope snapshotId = .ok named →
        query.Fits (MetadataDB.reached calls) named := by
  have linked := MetadataDB.linked_reached calls
  constructor
  · intro accepted named normalized
    exact (query.run_withinLimit_iff linked normalized).mp accepted.bounded
  · intro fits
    have bounded : (query.run (MetadataDB.reached calls) scope snapshotId).WithinLimit := by
      cases normalized : normalizeProtectionScope scope snapshotId with
      | ok named => exact (query.run_withinLimit_iff linked normalized).mpr (fits named normalized)
      | error reason =>
          intro parameters recorded
          rw [query.run_of_refused normalized] at recorded
          cases recorded
    exact {
      bounded
      answered := fun named normalized representable =>
        query.run_settled linked normalized representable bounded
      packLookup := fun packHash includeVerified limit =>
        packLookup_withinLimit packHash includeVerified limit }

/-- A name for each number below `2 ^ 64`. -/
def numberedHash (number : Nat) : Text :=
  (List.range 64).map fun index => if number.testBit index then '1' else '0'

theorem numberedHash_valid (number : Nat) : isValidBlake3Hex (numberedHash number) = true := by
  have digits : ∀ char ∈ numberedHash number, char = '1' ∨ char = '0' := by
    intro char member
    obtain ⟨index, -, rfl⟩ := List.mem_map.mp member
    split
    · exact .inl rfl
    · exact .inr rfl
  simp only [isValidBlake3Hex, Bool.and_eq_true, List.all_eq_true]
  refine ⟨by simp [numberedHash, blake3HexLength], ?_⟩
  intro char member
  rcases digits char member with rfl | rfl <;> decide

theorem numberedHash_injective {left right : Nat} (leftSmall : left < 2 ^ 64)
    (rightSmall : right < 2 ^ 64)
    (same : numberedHash left = numberedHash right) : left = right := by
  apply Nat.eq_of_testBit_eq
  intro index
  by_cases inside : index < 64
  · have digit := List.map_inj_left.mp same index (List.mem_range.mpr inside)
    cases leftBit : left.testBit index <;> cases rightBit : right.testBit index <;>
      simp [leftBit, rightBit] at digit ⊢
  · have large : (2 : Nat) ^ 64 ≤ 2 ^ index := Nat.pow_le_pow_right (by decide) (by omega)
    rw [Nat.testBit_lt_two_pow (leftSmall.trans_le large),
      Nat.testBit_lt_two_pow (rightSmall.trans_le large)]

def numberedChunks (count : Nat) (small : count ≤ 2 ^ 64) : Dict Text Nat where
  entries := (List.range count).map fun number => (numberedHash number, 1)
  nodup := by
    rw [List.map_map]
    apply List.Nodup.map_on _ List.nodup_range
    intro left leftMember right rightMember same
    have leftSmall := List.mem_range.mp leftMember
    have rightSmall := List.mem_range.mp rightMember
    exact numberedHash_injective (by omega) (by omega) same

theorem numberedChunks_valid {count : Nat} {small : count ≤ 2 ^ 64} {hash : Text}
    (member : hash ∈ (numberedChunks count small).keys) : isValidBlake3Hex hash = true := by
  obtain ⟨entry, listed, rfl⟩ := List.mem_map.mp member
  obtain ⟨number, -, rfl⟩ := List.mem_map.mp listed
  exact numberedHash_valid number

/-- An import of chunks only. -/
def importedChunks (count : Nat) (small : count ≤ 2 ^ 64) : ImportedTables where
  tables := { MetadataDB.empty with chunks := numberedChunks count small }
  recipeIds := MetadataDB.linked_empty.recipeIds
  chunkNames := fun hash member => @numberedChunks_valid count small hash member
  recipes := by
    intro recipeId chunk member
    cases member
  protection := by
    intro hash member
    cases member

theorem reached_importedChunks (count : Nat) (small : count ≤ 2 ^ 64) :
    MetadataDB.reached [.importGraph (importedChunks count small) []] =
      { MetadataDB.empty with chunks := numberedChunks count small } := rfl

theorem importedChunks_allKnown (count : Nat) (small : count ≤ 2 ^ 64) :
    (scopeChunks (MetadataDB.reached [.importGraph (importedChunks count small) []])
      .allKnownChunks).length = count := by
  rw [reached_importedChunks, scopeChunks_of_resolved rfl, MetadataDB.allKnownChunkHashes,
    List.length_insertionSort]
  simp [Dict.keys, numberedChunks]

/-- One chunk more than SQLite takes parameters, and a push of everything is refused. -/
theorem manyChunks_refused :
    ¬ ScopeAccepted (MetadataDB.reached [.importGraph (importedChunks 32767 (by decide)) []])
      (.replicationPush 1 none none) (some "all-known-chunks".toList) none := by
  intro accepted
  have fits :=
    (ScopedQuery.run_withinLimit_iff _ (MetadataDB.linked_reached _) rfl).mp accepted.bounded
  simp only [ScopedQuery.Fits, importedChunks_allKnown, maxVariableNumber] at fits
  omega

end Stopan.Protection
