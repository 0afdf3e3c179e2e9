import Stopan.Lib.Batches
import Stopan.Metadata.Links
import Stopan.Replication.Accounting

namespace Stopan.Replication

open Stopan.Lib Stopan.Common Stopan.Cluster Stopan.Protection Stopan.Metadata

/-- The hashes that an answer reports as missing; empty ones are dropped. -/
def missingReply (reply : Nat → ProbeReply) (call : Nat) : Except Text (List Text) :=
  (reply call).map fun hashes => hashes.filter fun hash => !hash.isEmpty

theorem probeTargetBatches_eq (reply : Nat → ProbeReply) (call : Nat) (batches : List (List Text))
    (completed missing : List Text) :
    probeTargetBatches reply call batches completed missing =
      askBatches (missingReply reply) call batches completed missing := by
  induction batches generalizing call completed missing with
  | nil => rfl
  | cons batch rest ih =>
      rw [probeTargetBatches, askBatches, missingReply]
      cases reply call with
      | error reason => rfl
      | ok hashes => exact ih ..

/-- The result of a probe rests on the first `answered` batches and on what was answered to them. -/
structure RestsOn (result : ProbeExecutionResult) (batches : List (List Text))
    (reply : Nat → ProbeReply) (answered : Nat) (failure : Option Text) : Prop where
  completed : result.completedHashes = (batches.take answered).flatten
  present : ∀ hash, hash ∈ result.presentHashes ↔
    hash ∈ result.completedHashes ∧ hash ∉ reportedFrom (missingReply reply) 0 answered
  transportError : result.transportError = failure

section Probe

variable {probeBatchHashes : Nat} {target : ClusterMember} {hashes : List Text}
  {answers : VerifyAnswers}

theorem missingReply_ok {reply : Nat → ProbeReply} {call : Nat}
    (answer : ∃ items, reply call = .ok items) :
    ∃ items, missingReply reply (0 + call) = .ok items := by
  obtain ⟨items, answer⟩ := answer
  rw [Nat.zero_add, missingReply, answer]
  exact ⟨_, rfl⟩

theorem missingReply_error {reply : Nat → ProbeReply} {call : Nat} {reason : Text}
    (failed : reply call = .error reason) :
    missingReply reply (0 + call) = .error reason := by
  rw [Nat.zero_add, missingReply, failed]
  rfl

theorem probeTarget_of_batches {completed missing : List Text} {failure : Option Text}
    (asked : orderedUnique hashes ≠ []) (connected : answers.connect = none)
    (ran : askBatches (missingReply answers.probe) 0
      (iterBatches (orderedUnique hashes) probeBatchHashes) [] [] = (completed, missing, failure)) :
    (probeTarget probeBatchHashes target hashes answers).completedHashes = completed ∧
      (probeTarget probeBatchHashes target hashes answers).presentHashes =
        completed.filter (fun chunkHash => !missing.contains chunkHash) ∧
      (probeTarget probeBatchHashes target hashes answers).transportError = failure := by
  have some_ : (orderedUnique hashes).isEmpty = false := List.isEmpty_eq_false_iff.mpr asked
  simp only [probeTarget, some_, connected, probeTargetBatches_eq, ran,
    Bool.false_eq_true, if_false]
  exact ⟨trivial, trivial, trivial⟩

theorem restsOn_of_batches {completed missing : List Text} {failure : Option Text} {answered : Nat}
    (asked : orderedUnique hashes ≠ []) (connected : answers.connect = none)
    (ran : askBatches (missingReply answers.probe) 0
      (iterBatches (orderedUnique hashes) probeBatchHashes) [] [] = (completed, missing, failure))
    (whole : completed =
      ((iterBatches (orderedUnique hashes) probeBatchHashes).take answered).flatten)
    (reported : missing = reportedFrom (missingReply answers.probe) 0 answered) :
    RestsOn (probeTarget probeBatchHashes target hashes answers)
      (iterBatches (orderedUnique hashes) probeBatchHashes)
      answers.probe answered failure := by
  obtain ⟨completedEq, presentEq, failureEq⟩ :=
    @probeTarget_of_batches _ target _ _ _ _ _ asked connected ran
  refine ⟨completedEq.trans whole, ?_, failureEq⟩
  intro hash
  rw [presentEq, completedEq, ← reported]
  simp

/-- A probe that fails at some batch has the evidence of exactly the earlier batches. -/
theorem probeTarget_failed {failing : Nat} {reason : Text} (connected : answers.connect = none)
    (inside : failing < (iterBatches (orderedUnique hashes) probeBatchHashes).length)
    (earlier : ∀ call < failing, ∃ items, answers.probe call = .ok items)
    (failed : answers.probe failing = .error reason) :
    RestsOn (probeTarget probeBatchHashes target hashes answers)
      (iterBatches (orderedUnique hashes) probeBatchHashes)
      answers.probe failing (some reason) := by
  have asked : orderedUnique hashes ≠ [] := by
    intro nothing
    rw [nothing] at inside
    exact absurd inside (Nat.not_lt_zero failing)
  have ran := askBatches_failed [] [] (fun call before => missingReply_ok (earlier call before))
    (missingReply_error failed) inside
  exact restsOn_of_batches asked connected ran (by simp) (by simp)

/-- Without a failure every requested hash is completed. -/
theorem probeTarget_finished (asked : orderedUnique hashes ≠ [])
    (connected : answers.connect = none)
    (answered : ∀ call < (iterBatches (orderedUnique hashes) probeBatchHashes).length,
      ∃ items, answers.probe call = .ok items) :
    RestsOn (probeTarget probeBatchHashes target hashes answers)
      (iterBatches (orderedUnique hashes) probeBatchHashes)
      answers.probe (iterBatches (orderedUnique hashes) probeBatchHashes).length none := by
  have ran := askBatches_finished [] [] fun call before => missingReply_ok (answered call before)
  exact restsOn_of_batches asked connected ran (by simp) (by simp)

theorem probeTarget_unconnected {reason : Text} (asked : orderedUnique hashes ≠ [])
    (refused : answers.connect = some reason) :
    RestsOn (probeTarget probeBatchHashes target hashes answers)
      (iterBatches (orderedUnique hashes) probeBatchHashes)
      answers.probe 0 (some reason) := by
  have some_ : (orderedUnique hashes).isEmpty = false := List.isEmpty_eq_false_iff.mpr asked
  simp only [probeTarget, some_, refused, Bool.false_eq_true, if_false]
  exact { completed := rfl, present := by simp, transportError := rfl }

end Probe

/-- Every accumulator is the one of a candidate and requires what that candidate desires. -/
def RequiresDesired (candidates : List VerificationCandidate)
    (table : Dict Text VerificationAccumulator) : Prop :=
  ∀ chunkHash accumulator, table.get? chunkHash = some accumulator →
    ∃ candidate ∈ candidates, candidate.chunkHash = chunkHash ∧
      accumulator.requiredRemoteCopies = candidate.desiredRf

section Required

variable {candidates : List VerificationCandidate} {table : Dict Text VerificationAccumulator}

theorem RequiresDesired.adjust (required : RequiresDesired candidates table) {chunkHash : Text}
    {change : VerificationAccumulator → VerificationAccumulator}
    (keeps : ∀ accumulator, (change accumulator).requiredRemoteCopies =
      accumulator.requiredRemoteCopies) :
    RequiresDesired candidates (table.adjust chunkHash change) := by
  intro other accumulator found
  rw [Dict.get?_adjust] at found
  split at found
  · rename_i same
    obtain ⟨before, stored, rfl⟩ := Option.map_eq_some_iff.mp found
    rw [keeps, same]
    exact required chunkHash before stored
  · exact required other accumulator found

theorem RequiresDesired.foldl {α : Type} (required : RequiresDesired candidates table)
    {step : Dict Text VerificationAccumulator → α → Dict Text VerificationAccumulator}
    {items : List α} (single : ∀ state item, RequiresDesired candidates state →
      RequiresDesired candidates (step state item)) :
    RequiresDesired candidates (items.foldl step table) := by
  induction items generalizing table with
  | nil => exact required
  | cons item rest ih => exact ih (single table item required)

theorem RequiresDesired.applyProbe (required : RequiresDesired candidates table)
    {probeBatchHashes : Nat}
    {plan : VerificationPlan} {answers : Text → VerifyAnswers} {address : Text} :
    RequiresDesired candidates (applyProbe probeBatchHashes plan answers table address) := by
  unfold Replication.applyProbe
  split
  · exact required
  · have counted : ∀ result, RequiresDesired candidates (countPresent result table) := by
      intro result
      apply RequiresDesired.foldl required
      intro state chunkHash held
      split
      · exact held.adjust fun _ => rfl
      · exact held
    unfold reportUnverified
    split
    · exact (counted _).foldl fun state chunkHash held => held.adjust fun _ => rfl
    · exact counted _

theorem RequiresDesired.planGroup {blake3 : Blake3} {context : RemoteContext}
    {state next : VerificationPlan} {entry : Nat × List VerificationCandidate}
    (grouped : ∀ candidate ∈ entry.2, candidate ∈ candidates)
    (required : RequiresDesired candidates state.accumulators)
    (planned : planGroup blake3 context state entry = .ok next) :
    RequiresDesired candidates next.accumulators := by
  rw [Replication.planGroup] at planned
  obtain ⟨plan, -, planned⟩ := bind_eq_ok_iff.mp planned
  cases pure_eq_ok_iff.mp planned
  have merged : ∀ (group : List VerificationCandidate) (table : Dict Text VerificationAccumulator),
      (∀ candidate ∈ group, candidate ∈ candidates) → RequiresDesired candidates table →
      RequiresDesired candidates
        (groupAccumulators plan (context.placementEpoch blake3 entry.1) table group) := by
    intro group
    induction group with
    | nil => exact fun _ _ held => held
    | cons candidate rest ih =>
        intro table known held
        refine ih _ (fun other member => known other (by simp [member])) ?_
        intro chunkHash accumulator found
        rw [Dict.get?_set] at found
        split at found
        · rename_i same
          cases found
          exact ⟨candidate, known candidate (by simp), same.symm, rfl⟩
        · exact held chunkHash accumulator found
  exact merged entry.2 state.accumulators grouped required

theorem planVerification_requires {blake3 : Blake3} {context : RemoteContext}
    {plan : VerificationPlan} (planned : planVerification blake3 context candidates = .ok plan) :
    RequiresDesired candidates plan.accumulators := by
  refine foldlM_invariant
    (fun state : VerificationPlan => RequiresDesired candidates state.accumulators) ?_ ?_ planned
  · intro state entry member next required stepped
    exact required.planGroup (fun candidate inside => (mem_candidatesByRf member inside).1) stepped
  · intro chunkHash accumulator found
    cases found

/-- The outcome of a candidate: what it requires, and one copy for each target that confirmed it. -/
theorem verifyCandidates_outcome {blake3 : Blake3} {context : RemoteContext} {excluded : List Text}
    {probeBatchHashes : Nat} {answers : Text → VerifyAnswers} {order : List Text}
    {outcomes : List VerificationOutcome}
    {plan : VerificationPlan} {candidate : VerificationCandidate}
    (origin : excludedOrigin context.originNodeId = .ok excluded)
    (distinct : (candidates.map (·.chunkHash)).Nodup)
    (planned : planVerification blake3 context candidates = .ok plan)
    (verified : verifyCandidates blake3 context candidates probeBatchHashes answers order =
      .ok outcomes)
    (member : candidate ∈ candidates) :
    ∃ outcome ∈ outcomes, outcome.chunkHash = candidate.chunkHash ∧
      outcome.requiredRemoteCopies = candidate.desiredRf ∧ outcome.verifiedRemoteCopies =
        order.countP (verifyConfirms probeBatchHashes plan answers candidate.chunkHash) := by
  obtain ⟨-, -, zero⟩ := planVerification_ok origin planned
  obtain ⟨accumulator, found, initial⟩ := zero candidate member
  obtain ⟨updated, final, copies⟩ :=
    foldl_applyProbe_copies probeBatchHashes plan answers order found
  have required : RequiresDesired candidates
      (order.foldl (applyProbe probeBatchHashes plan answers) plan.accumulators) :=
    (planVerification_requires planned).foldl fun state address held => held.applyProbe
  obtain ⟨other, known, same, desired⟩ := required candidate.chunkHash updated final
  have equal : other = candidate := List.inj_on_of_nodup_map distinct known member same
  rw [initial, Nat.zero_add] at copies
  unfold verifyCandidates at verified
  rw [planned] at verified
  cases pure_eq_ok_iff.mp verified
  refine ⟨{ chunkHash := candidate.chunkHash
            desiredRf := updated.desiredRf
            placementEpoch := updated.placementEpoch
            requiredRemoteCopies := updated.requiredRemoteCopies
            verifiedRemoteCopies := updated.verifiedRemoteCopies
            error := updated.errorSummary }, List.mem_filterMap.mpr ⟨candidate, member, ?_⟩, rfl,
              equal ▸ desired, copies⟩
  rw [final]
  rfl

end Required

/-- The distinct addresses of the chunk's targets that completed the probe for it and reported it
present. -/
def confirmingTargets (blake3 : Blake3) (context : RemoteContext) (excluded : List Text)
    (probeBatchHashes : Nat) (plan : VerificationPlan) (answers : Text → VerifyAnswers)
    (candidate : VerificationCandidate) : List Text :=
  (orderedUnique
    ((clusterTargets blake3 context.cluster candidate.desiredRf context.clusterToken excluded
    candidate.chunkHash).map (·.address))).filter
      (verifyConfirms probeBatchHashes plan answers candidate.chunkHash)

section Recorded

variable {blake3 : Blake3} {context : RemoteContext} {excluded : List Text} {probeBatchHashes : Nat}
  {answers : Text → VerifyAnswers} {order : List Text} {plan : VerificationPlan}
  {candidates : List VerificationCandidate} {candidate : VerificationCandidate}

/-- An address that confirms a chunk is the address of one of its targets. -/
theorem planned_of_verifyConfirms (origin : excludedOrigin context.originNodeId = .ok excluded)
    (distinct : (candidates.map (·.chunkHash)).Nodup)
    (planned : planVerification blake3 context candidates = .ok plan)
    (member : candidate ∈ candidates) {address : Text}
    (confirmed : verifyConfirms probeBatchHashes plan answers candidate.chunkHash address = true) :
    0 < targetsAt address
      (clusterTargets blake3 context.cluster candidate.desiredRf context.clusterToken excluded
        candidate.chunkHash) := by
  obtain ⟨chunks, -, -⟩ := planVerification_ok origin planned
  unfold verifyConfirms at confirmed
  cases probed : completedProbe probeBatchHashes plan answers address with
  | none => simp [probed] at confirmed
  | some result =>
      simp only [probed, Bool.and_eq_true, List.contains_iff_mem] at confirmed
      have requested := mem_orderedUnique.mp ((completedProbe_completed probed).subset confirmed.1)
      obtain ⟨other, known, same, positive⟩ := chunks address candidate.chunkHash requested
      have equal : other = candidate := List.inj_on_of_nodup_map distinct known member same
      rwa [equal] at positive

/-- Whatever the order of completion, the counted copies are the confirming targets. -/
theorem countP_verifyConfirms (origin : excludedOrigin context.originNodeId = .ok excluded)
    (distinct : (candidates.map (·.chunkHash)).Nodup)
    (planned : planVerification blake3 context candidates = .ok plan)
    (member : candidate ∈ candidates) (completed : order.Perm plan.targetChunks.keys) :
    order.countP (verifyConfirms probeBatchHashes plan answers candidate.chunkHash) =
      (confirmingTargets blake3 context excluded probeBatchHashes plan answers
        candidate).length := by
  obtain ⟨-, keys, -⟩ := planVerification_ok origin planned
  rw [completed.countP_eq, List.countP_eq_length_filter]
  apply List.Perm.length_eq
  apply (List.perm_ext_iff_of_nodup ((Dict.keys_nodup _).filter _)
    ((orderedUnique_nodup _).filter _)).mpr
  intro address
  rw [List.mem_filter, List.mem_filter, mem_orderedUnique, ← targetsAt_pos_iff]
  constructor
  · intro inside
    exact ⟨planned_of_verifyConfirms origin distinct planned member inside.2, inside.2⟩
  · intro inside
    exact ⟨keys candidate member address inside.1, inside.2⟩

theorem replicationVerifyState_eq_verified {copies required : Nat} :
    replicationVerifyState copies required = .verified ↔ required ≤ copies := by
  unfold replicationVerifyState protectionStateFromThresholds
  split
  · rename_i enough
    simp [enough]
  · rename_i few
    simp [few]

/-- The row that an applied update leaves has the state of the update. -/
theorem applyChunkVerificationUpdates_state {db after : MetadataDB} {now : PyFloat}
    {updates : List ChunkProtectionUpdate} {update : ChunkProtectionUpdate}
    (valid : ∀ update ∈ updates, isValidBlake3Hex update.chunkHash = true)
    (distinct : (updates.map (·.chunkHash)).Nodup) (member : update ∈ updates)
    (applied : db.applyChunkVerificationUpdates now updates = .ok after) :
    ∃ row, after.chunkProtection.get? update.chunkHash = some row ∧
      row.protectionState = update.protectionState := by
  unfold MetadataDB.applyChunkVerificationUpdates at applied
  cases validated : updates.mapM
      (validateProtectionUpdate [.verified, .degraded] "verificación de replicación") with
  | error reason => simp [validated] at applied
  | ok upserts =>
      rw [validated] at applied
      have related := mapM_eq_ok_iff.mp validated
      obtain ⟨upsert, present, checked⟩ := forall₂_mem_left related member
      obtain ⟨hash, state, -, -⟩ := validateProtectionUpdate_ok checked
      rw [requireHash64_of_valid (valid update member), Except.ok.injEq] at hash
      rw [← forall₂_chunkHashes (mapM_validate_hashes valid validated)] at distinct
      obtain ⟨old, found⟩ := applyProtectionUpserts_of_mem distinct present applied
      exact ⟨verifiedRow now upsert old, hash ▸ found, state⟩

/-- A chunk becomes VERIFIED exactly when enough of its targets confirmed it. -/
theorem verify_verified_iff {db after : MetadataDB} {now : PyFloat}
    (origin : excludedOrigin context.originNodeId = .ok excluded)
    (distinct : (candidates.map (·.chunkHash)).Nodup)
    (valid : ∀ candidate ∈ candidates, isValidBlake3Hex candidate.chunkHash = true)
    (planned : planVerification blake3 context
      (candidates.filter fun candidate => candidate.desiredRf ≠ 0) = .ok plan)
    (completed : order.Perm plan.targetChunks.keys)
    (verified : verify blake3 context db candidates probeBatchHashes answers order now = .ok after)
    (member : candidate ∈ candidates) (remote : candidate.desiredRf ≠ 0) :
    ∃ row, after.chunkProtection.get? candidate.chunkHash = some row ∧
      (row.protectionState = .verified ↔ candidate.desiredRf ≤
        (confirmingTargets blake3 context excluded probeBatchHashes plan answers
          candidate).length) := by
  have kept : candidate ∈ candidates.filter fun candidate => candidate.desiredRf ≠ 0 :=
    List.mem_filter.mpr ⟨member, by simpa using remote⟩
  have nonEmpty : (candidates.filter fun candidate => candidate.desiredRf ≠ 0).isEmpty = false :=
    List.isEmpty_eq_false_iff.mpr (List.ne_nil_of_mem kept)
  have remoteDistinct : ((candidates.filter fun candidate => candidate.desiredRf ≠ 0).map
      (·.chunkHash)).Nodup :=
    distinct.sublist (List.filter_sublist.map _)
  unfold verify at verified
  simp only [nonEmpty, Bool.false_eq_true, if_false] at verified
  obtain ⟨outcomes, checked, applied⟩ := bind_eq_ok_iff.mp verified
  obtain ⟨outcome, present, hash, required, copies⟩ :=
    verifyCandidates_outcome origin remoteDistinct planned checked kept
  have sublist := (verifyCandidates_hashes checked).trans (List.filter_sublist.map _)
  have updateHashes : (outcomes.map verificationUpdate).map (·.chunkHash) =
      outcomes.map (·.chunkHash) := by
    rw [List.map_map]
    rfl
  have updatesValid : ∀ update ∈ outcomes.map verificationUpdate,
      isValidBlake3Hex update.chunkHash = true := by
    intro update inside
    have listed : update.chunkHash ∈ (outcomes.map verificationUpdate).map (·.chunkHash) :=
      List.mem_map_of_mem inside
    rw [updateHashes] at listed
    obtain ⟨other, known, same⟩ := List.mem_map.mp (sublist.subset listed)
    rw [← same]
    exact valid other known
  have updatesDistinct : ((outcomes.map verificationUpdate).map (·.chunkHash)).Nodup := by
    rw [updateHashes]
    exact distinct.sublist sublist
  obtain ⟨row, found, state⟩ :=
    applyChunkVerificationUpdates_state updatesValid updatesDistinct
      (List.mem_map_of_mem present) applied
  refine ⟨row, hash ▸ found, ?_⟩
  have stateEq : row.protectionState =
      replicationVerifyState outcome.verifiedRemoteCopies outcome.requiredRemoteCopies := state
  rw [stateEq, replicationVerifyState_eq_verified, required, copies,
    countP_verifyConfirms origin remoteDistinct planned kept completed]

end Recorded

section Returns

variable {blake3 : Blake3} {context : RemoteContext} {excluded : List Text} {probeBatchHashes : Nat}
  {answers : Text → VerifyAnswers} {order : List Text} {candidates : List VerificationCandidate}
  {db : MetadataDB} {now : PyFloat}

theorem planVerification_returns (origin : excludedOrigin context.originNodeId = .ok excluded)
    (candidates : List VerificationCandidate) :
    ∃ plan, planVerification blake3 context candidates = .ok plan := by
  apply exists_foldlM_ok (fun _ => True) _ trivial
  intro state group _ _
  rw [planGroup, planChunkReplicationTargets, normalizeRemoteRf_ofNat, origin]
  exact ⟨_, rfl, trivial⟩

/-- Rows of chunks that the catalog knows can be upserted. -/
theorem applyProtectionUpserts_returns
    {rowOf : ProtectionUpsert → Option ProtectionRecord → ProtectionRecord}
    {upserts : List ProtectionUpsert}
    (known : ∀ upsert ∈ upserts, (db.chunkProtection.contains upsert.chunkHash ||
      db.chunks.contains upsert.chunkHash) = true) :
    ∃ after, db.applyProtectionUpserts rowOf upserts = .ok after := by
  induction upserts generalizing db with
  | nil => exact ⟨db, rfl⟩
  | cons upsert rest ih =>
      rw [MetadataDB.applyProtectionUpserts, MetadataDB.upsertProtection,
        if_pos (known upsert (by simp))]
      apply ih
      intro other member
      have before := known other (by simp [member])
      rw [Bool.or_eq_true] at before ⊢
      rcases before with protected_ | stored
      · left
        rw [Dict.contains_iff, Dict.mem_keys_set]
        exact .inr ((Dict.contains_iff ..).mp protected_)
      · exact .inr stored

theorem validateProtectionUpdate_returns {allowed : List ProtectionState} {label : String}
    {update : ChunkProtectionUpdate} (permitted : allowed.contains update.protectionState = true)
    (valid : isValidBlake3Hex update.chunkHash = true) (desired : 0 ≤ update.desiredRf)
    (copies : 0 ≤ update.protectedRemoteCopies) :
    ∃ upsert, validateProtectionUpdate allowed label update = .ok upsert ∧
      upsert.chunkHash = update.chunkHash := by
  rw [validateProtectionUpdate, permitted, requireHash64_of_valid valid, requireNonNegativeInt,
    requireNonNegativeInt, if_neg (Int.not_lt.mpr desired), if_neg (Int.not_lt.mpr copies)]
  exact ⟨_, rfl, rfl⟩

theorem validateProtectionUpdate_verification {outcome : VerificationOutcome}
    (valid : isValidBlake3Hex outcome.chunkHash = true) :
    ∃ upsert, validateProtectionUpdate [.verified, .degraded] "verificación de replicación"
      (verificationUpdate outcome) = .ok upsert ∧ upsert.chunkHash = outcome.chunkHash := by
  refine validateProtectionUpdate_returns ?_ valid (Int.natCast_nonneg _) (Int.natCast_nonneg _)
  simp only [verificationUpdate, replicationVerifyState, protectionStateFromThresholds]
  split
  · rfl
  · split <;> rfl

/-- A verification of known chunks records its verdicts, whatever the answers. -/
theorem verify_returns (origin : excludedOrigin context.originNodeId = .ok excluded)
    (valid : ∀ candidate ∈ candidates, isValidBlake3Hex candidate.chunkHash = true)
    (known : ∀ candidate ∈ candidates,
      (db.chunkProtection.contains candidate.chunkHash ||
        db.chunks.contains candidate.chunkHash) = true) :
    ∃ after, verify blake3 context db candidates probeBatchHashes answers order now =
      .ok after := by
  unfold verify
  extract_lets remote
  split
  · exact ⟨db, rfl⟩
  · obtain ⟨plan, planned⟩ := @planVerification_returns blake3 context excluded origin
      (candidates.filter fun candidate => candidate.desiredRf ≠ 0)
    obtain ⟨outcomes, checked⟩ : ∃ outcomes, verifyCandidates blake3 context
        (candidates.filter fun candidate => candidate.desiredRf ≠ 0) probeBatchHashes answers
          order = .ok outcomes := by
      rw [verifyCandidates, planned]
      exact ⟨_, rfl⟩
    have sublist := (verifyCandidates_hashes checked).trans (List.filter_sublist.map _)
    have listed : ∀ outcome ∈ outcomes, ∃ candidate ∈ candidates, candidate.chunkHash =
        outcome.chunkHash :=
      fun outcome member => List.mem_map.mp (sublist.subset (List.mem_map_of_mem member))
    have each : ∀ update ∈ outcomes.map verificationUpdate, ∃ upsert,
        validateProtectionUpdate [.verified, .degraded] "verificación de replicación" update =
          .ok upsert ∧
          (db.chunkProtection.contains upsert.chunkHash ||
            db.chunks.contains upsert.chunkHash) = true := by
      intro update member
      obtain ⟨outcome, inside, rfl⟩ := List.mem_map.mp member
      obtain ⟨candidate, present, same⟩ := listed outcome inside
      obtain ⟨upsert, accepted, hash⟩ :=
        validateProtectionUpdate_verification (same ▸ valid candidate present)
      exact ⟨upsert, accepted, hash ▸ same ▸ known candidate present⟩
    obtain ⟨upserts, mapped⟩ := exists_mapM_ok fun update member => (each update member).imp
      fun _ facts => facts.1
    have stored : ∀ upsert ∈ upserts,
        (db.chunkProtection.contains upsert.chunkHash ||
          db.chunks.contains upsert.chunkHash) = true := by
      intro upsert member
      obtain ⟨update, inside, accepted⟩ := forall₂_mem_right (mapM_eq_ok_iff.mp mapped) member
      obtain ⟨other, again, facts⟩ := each update inside
      rw [accepted, Except.ok.injEq] at again
      exact again ▸ facts
    rw [checked]
    simp only [bind, Except.bind, MetadataDB.applyChunkVerificationUpdates, mapped]
    exact applyProtectionUpserts_returns stored

end Returns

end Stopan.Replication
