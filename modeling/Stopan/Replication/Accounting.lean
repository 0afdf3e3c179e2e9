import Stopan.Replication.Verify

namespace Stopan.Replication

open Stopan.Lib Stopan.Common Stopan.Cluster Stopan.Protection Stopan.Metadata

/-- The final acknowledgement of a target for a chunk is a success. -/
def TargetExecutionResult.confirms (result : TargetExecutionResult) (chunkHash : Text) : Bool :=
  match result.acks.get? chunkHash with
  | none => false
  | some ack => ack.isSuccess

/-- During the push, this address confirmed holding the chunk. -/
def pushConfirms (probeBatchHashes : Nat) (plan : ReplicationTargetPlan)
    (answers : Text → PushAnswers) (chunkHash address : Text) : Bool :=
  match completedResult probeBatchHashes plan answers address with
  | none => false
  | some result => result.confirms chunkHash

/-- During the verification, this address answered the probe of the chunk and did not report it
missing. -/
def verifyConfirms (probeBatchHashes : Nat) (plan : VerificationPlan)
    (answers : Text → VerifyAnswers) (chunkHash address : Text) : Bool :=
  match completedProbe probeBatchHashes plan answers address with
  | none => false
  | some result =>
      result.completedHashes.contains chunkHash && result.presentHashes.contains chunkHash

/-- The addresses that were asked to hold the chunk and confirmed it. -/
def confirmingAddresses (probeBatchHashes : Nat) (plan : ReplicationTargetPlan)
    (answers : Text → PushAnswers) (chunkHash : Text) : List Text :=
  plan.targetChunks.keys.filter fun address =>
    (plan.assigned address).contains chunkHash &&
      pushConfirms probeBatchHashes plan answers chunkHash address

section Push

variable {probeBatchHashes : Nat} {plan : ReplicationTargetPlan} {answers : Text → PushAnswers}
  {chunkHash : Text} {accumulator : ChunkAccumulator}

theorem accumulateAck_copies (result : TargetExecutionResult) :
    (accumulateAck result chunkHash accumulator).protectedRemoteCopies =
      accumulator.protectedRemoteCopies + (result.confirms chunkHash).toNat := by
  unfold accumulateAck TargetExecutionResult.confirms
  cases found : result.acks.get? chunkHash with
  | none =>
      dsimp only
      split <;> rfl
  | some ack =>
      cases status : ack.status <;>
        simp [TargetAck.isSuccess, TargetAck.isAlreadyPresent, TargetAck.isStored, status,
          ChunkAccumulator.protectedRemoteCopies, ChunkAccumulator.addError] <;>
        omega

/-- Every planned occurrence of a confirmed chunk adds one copy. -/
theorem applyTargetResult_copies (result : TargetExecutionResult) {planned : List Text}
    {table : Dict Text ChunkAccumulator} (present : table.get? chunkHash = some accumulator) :
    ∃ updated, (applyTargetResult planned result table).get? chunkHash = some updated ∧
      updated.protectedRemoteCopies =
        accumulator.protectedRemoteCopies + planned.count chunkHash *
          (result.confirms chunkHash).toNat := by
  induction planned generalizing table accumulator with
  | nil => exact ⟨accumulator, present, by simp⟩
  | cons first rest ih =>
      have unfolded : applyTargetResult (first :: rest) result table =
          applyTargetResult rest result (table.adjust first (accumulateAck result first)) := rfl
      have adjusted := Dict.get?_adjust table first chunkHash (accumulateAck result first)
      rw [unfolded]
      by_cases here : chunkHash = first
      · subst here
        rw [if_pos rfl, present, Option.map_some] at adjusted
        obtain ⟨updated, found, copies⟩ := ih adjusted
        refine ⟨updated, found, ?_⟩
        rw [copies, accumulateAck_copies, List.count_cons_self, Nat.succ_mul]
        omega
      · rw [if_neg here, present] at adjusted
        obtain ⟨updated, found, copies⟩ := ih adjusted
        refine ⟨updated, found, ?_⟩
        rw [copies, List.count_cons_of_ne (fun equal => here equal.symm)]

theorem applyCompleted_copies {table : Dict Text ChunkAccumulator} (address : Text)
    (present : table.get? chunkHash = some accumulator) :
    ∃ updated, (applyCompleted probeBatchHashes plan answers table address).get? chunkHash =
      some updated ∧ updated.protectedRemoteCopies = accumulator.protectedRemoteCopies +
        (plan.assigned address).count chunkHash *
          (pushConfirms probeBatchHashes plan answers chunkHash address).toNat := by
  unfold applyCompleted pushConfirms
  cases completed : completedResult probeBatchHashes plan answers address with
  | none => exact ⟨accumulator, present, by simp⟩
  | some result => exact applyTargetResult_copies result present

/-- The copies of a chunk after any sequence of completed targets. -/
theorem foldl_applyCompleted_copies {table : Dict Text ChunkAccumulator} (order : List Text)
    (present : table.get? chunkHash = some accumulator) :
    ∃ updated, (order.foldl (applyCompleted probeBatchHashes plan answers) table).get? chunkHash =
      some updated ∧ updated.protectedRemoteCopies = accumulator.protectedRemoteCopies +
        (order.map fun address => (plan.assigned address).count chunkHash *
          (pushConfirms probeBatchHashes plan answers chunkHash address).toNat).sum := by
  induction order generalizing table accumulator with
  | nil => exact ⟨accumulator, present, by simp⟩
  | cons address rest ih =>
      obtain ⟨next, found, copies⟩ := applyCompleted_copies address present
      obtain ⟨updated, final, total⟩ := ih found
      refine ⟨updated, final, ?_⟩
      rw [total, copies, List.map_cons, List.sum_cons]
      omega

end Push

section Outcomes

variable {blake3 : Blake3} {context : RemoteContext} {chunkHashes : List Text}
  {rf probeBatchHashes : Nat}
  {answers : Text → PushAnswers} {order : List Text} {outcomes : List ChunkReplicationOutcome}
  {chunkHash : Text}

/-- The number of copies that a push counts for a chunk. -/
def pushedCopies (probeBatchHashes : Nat) (plan : ReplicationTargetPlan)
    (answers : Text → PushAnswers) (order : List Text) (chunkHash : Text) : Nat :=
  (order.map fun address => (plan.assigned address).count chunkHash *
    (pushConfirms probeBatchHashes plan answers chunkHash address).toNat).sum

/-- The plan of a push: the hashes are made unique once by the push and once by the planner. -/
def pushPlan (blake3 : Blake3) (context : RemoteContext) (chunkHashes : List Text) (rf : Nat)
    (excluded : List Text) : ReplicationTargetPlan :=
  (orderedUnique (orderedUnique chunkHashes)).foldl
    (planChunk (clusterTargets blake3 context.cluster rf context.clusterToken excluded)) .empty

theorem initialAccumulators_get? (plan : ReplicationTargetPlan) {hashes : List Text}
    (distinct : hashes.Nodup) (member : chunkHash ∈ hashes) :
    ∃ accumulator, (initialAccumulators plan hashes).get? chunkHash = some accumulator ∧
      accumulator.protectedRemoteCopies = 0 := by
  refine ⟨_, Dict.get?_ofList_of_mem _ _ ?_ (List.mem_map.mpr ⟨chunkHash, member, rfl⟩), rfl⟩
  simpa [List.map_map, Function.comp_def] using distinct

theorem pushChunkReplicas_ok
    (pushed : pushChunkReplicas blake3 context chunkHashes rf probeBatchHashes answers order =
      .ok outcomes) :
    ∃ excluded accumulators, excludedOrigin context.originNodeId = .ok excluded ∧
      outcomes = (orderedUnique chunkHashes).map
        (chunkOutcome (pushPlan blake3 context chunkHashes rf excluded) accumulators rf) ∧
      ∀ chunkHash ∈ chunkHashes, ∃ accumulator, accumulators.get? chunkHash = some accumulator ∧
        accumulator.protectedRemoteCopies = pushedCopies probeBatchHashes
          (pushPlan blake3 context chunkHashes rf excluded) answers order chunkHash := by
  unfold pushChunkReplicas at pushed
  obtain ⟨plan, planned, built⟩ := bind_eq_ok_iff.mp pushed
  obtain ⟨excluded, origin, shape⟩ := planChunkReplicationTargets_ok planned
  refine ⟨excluded, order.foldl (applyCompleted probeBatchHashes plan answers)
    (initialAccumulators plan (orderedUnique chunkHashes)), origin, ?_, ?_⟩
  · rw [← pure_eq_ok_iff.mp built, shape]
    rfl
  · intro chunkHash member
    have same : plan = pushPlan blake3 context chunkHashes rf excluded := shape
    rw [← same]
    obtain ⟨accumulator, present, zero⟩ := initialAccumulators_get? plan
      (orderedUnique_nodup chunkHashes) (mem_orderedUnique.mpr member)
    obtain ⟨updated, found, copies⟩ := foldl_applyCompleted_copies order present
    rw [zero, Nat.zero_add] at copies
    exact ⟨updated, found, copies⟩

theorem chunkOutcome_chunkHash (plan : ReplicationTargetPlan)
    (accumulators : Dict Text ChunkAccumulator) (required : Nat) (chunkHash : Text) :
    (chunkOutcome plan accumulators required chunkHash).chunkHash = chunkHash := by
  unfold chunkOutcome
  split <;> rfl

theorem pushChunkReplicas_hashes
    (pushed : pushChunkReplicas blake3 context chunkHashes rf probeBatchHashes answers order =
      .ok outcomes) :
    outcomes.map (·.chunkHash) = orderedUnique chunkHashes := by
  obtain ⟨excluded, accumulators, -, rfl, -⟩ := pushChunkReplicas_ok pushed
  rw [List.map_map]
  simp [Function.comp_def, chunkOutcome_chunkHash]

/-- Each chunk of a push has an outcome, whose copies are the confirmed planned occurrences. -/
theorem pushChunkReplicas_outcome
    (pushed : pushChunkReplicas blake3 context chunkHashes rf probeBatchHashes answers order =
      .ok outcomes)
    (member : chunkHash ∈ chunkHashes) :
    ∃ excluded, excludedOrigin context.originNodeId = .ok excluded ∧
      ∃ outcome ∈ outcomes, outcome.chunkHash = chunkHash ∧
        outcome.protectedRemoteCopies = pushedCopies probeBatchHashes
          (pushPlan blake3 context chunkHashes rf excluded) answers order chunkHash := by
  obtain ⟨excluded, accumulators, origin, rfl, counted⟩ := pushChunkReplicas_ok pushed
  obtain ⟨accumulator, found, copies⟩ := counted chunkHash member
  refine ⟨excluded, origin, _, List.mem_map_of_mem (mem_orderedUnique.mpr member),
    chunkOutcome_chunkHash .., ?_⟩
  · have targets : (pushPlan blake3 context chunkHashes rf excluded).chunkTargets.get? chunkHash =
        some (clusterTargets blake3 context.cluster rf context.clusterToken
          excluded chunkHash) := by
      rw [pushPlan, foldl_planChunk_targets,
        if_pos (mem_orderedUnique.mpr (mem_orderedUnique.mpr member))]
    cases planned : clusterTargets blake3 context.cluster rf context.clusterToken
      excluded chunkHash with
    | cons target rest =>
        simp only [chunkOutcome, targets, planned, found]
        exact copies
    | nil =>
        simp only [chunkOutcome, targets, planned]
        symm
        rw [pushedCopies, List.sum_eq_zero]
        intro copies counted
        obtain ⟨address, -, rfl⟩ := List.mem_map.mp counted
        rw [pushPlan, plan_assigned_count (mem_orderedUnique.mpr member), planned]
        simp [targetsAt]

end Outcomes

section Recording

variable {commitEvery : Nat} {clock : Nat → PyFloat}

theorem recordUpdates_of_not_mem {flush : Nat} {db after : MetadataDB}
    {waiting updates : List ChunkProtectionUpdate} {chunkHash : Text}
    (valid : ∀ update ∈ waiting ++ updates, isValidBlake3Hex update.chunkHash = true)
    (absent : chunkHash ∉ (waiting ++ updates).map (·.chunkHash))
    (recorded : recordUpdates commitEvery clock flush db waiting updates = (after, none)) :
    after.chunkProtection.get? chunkHash = db.chunkProtection.get? chunkHash := by
  induction updates generalizing flush db waiting with
  | nil =>
      rw [List.append_nil] at valid absent
      cases applied : db.applyChunkPushUpdates (clock flush) waiting with
      | error reason => simp [recordUpdates, applied] at recorded
      | ok next =>
          simp only [recordUpdates, applied, Prod.mk.injEq, and_true] at recorded
          subst recorded
          exact applyChunkPushUpdates_of_not_mem valid absent applied
  | cons update rest ih =>
      rw [recordUpdates] at recorded
      rw [List.append_cons] at valid absent
      split at recorded
      · cases applied : db.applyChunkPushUpdates (clock flush) (waiting ++ [update]) with
        | error reason => simp [applied] at recorded
        | ok next =>
            simp only [applied] at recorded
            rw [List.map_append, List.mem_append, not_or] at absent
            have laterValid : ∀ other ∈ [] ++ rest, isValidBlake3Hex other.chunkHash = true :=
              fun other member => valid other (List.mem_append_right _ member)
            rw [ih laterValid absent.2 recorded]
            exact applyChunkPushUpdates_of_not_mem
              (fun other member => valid other (List.mem_append_left _ member)) absent.1 applied
      · exact ih valid absent recorded

/-- A push that is not interrupted records the copies of every update, whatever the flush size. -/
theorem recordUpdates_copies {flush : Nat} {db after : MetadataDB}
    {waiting updates : List ChunkProtectionUpdate} {update : ChunkProtectionUpdate}
    (valid : ∀ update ∈ waiting ++ updates, isValidBlake3Hex update.chunkHash = true)
    (distinct : ((waiting ++ updates).map (·.chunkHash)).Nodup)
    (member : update ∈ waiting ++ updates)
    (recorded : recordUpdates commitEvery clock flush db waiting updates = (after, none)) :
    ∃ row, after.chunkProtection.get? update.chunkHash = some row ∧
      (row.protectedRemoteCopies : Int) = update.protectedRemoteCopies := by
  induction updates generalizing flush db waiting with
  | nil =>
      rw [List.append_nil] at valid distinct member
      cases applied : db.applyChunkPushUpdates (clock flush) waiting with
      | error reason => simp [recordUpdates, applied] at recorded
      | ok next =>
          simp only [recordUpdates, applied, Prod.mk.injEq, and_true] at recorded
          subst recorded
          exact applyChunkPushUpdates_copies valid distinct member applied
  | cons next rest ih =>
      rw [recordUpdates] at recorded
      rw [List.append_cons] at valid distinct member
      split at recorded
      · cases applied : db.applyChunkPushUpdates (clock flush) (waiting ++ [next]) with
        | error reason => simp [applied] at recorded
        | ok middle =>
            simp only [applied] at recorded
            have laterValid : ∀ other ∈ [] ++ rest, isValidBlake3Hex other.chunkHash = true :=
              fun other inside => valid other (List.mem_append_right _ inside)
            rw [List.map_append] at distinct
            cases List.mem_append.mp member with
            | inr later => exact ih laterValid distinct.of_append_right later recorded
            | inl flushed =>
                have absent : update.chunkHash ∉ ([] ++ rest).map ChunkProtectionUpdate.chunkHash :=
                  fun again =>
                  List.disjoint_of_nodup_append distinct (List.mem_map_of_mem flushed) again
                rw [recordUpdates_of_not_mem laterValid absent recorded]
                exact applyChunkPushUpdates_copies
                  (fun other inside => valid other (List.mem_append_left _ inside))
                  distinct.of_append_left flushed applied
      · exact ih valid distinct member recorded

end Recording

section Probe

variable {probeBatchHashes : Nat} {plan : VerificationPlan} {answers : Text → VerifyAnswers}
  {chunkHash : Text} {accumulator : VerificationAccumulator}
  {table : Dict Text VerificationAccumulator}

/-- A probe completes the batches in order, so its evidence is an initial segment of the request. -/
theorem probeTargetBatches_prefix (reply : Nat → ProbeReply) (call : Nat)
    (batches : List (List Text)) (completed missing : List Text) :
    (probeTargetBatches reply call batches completed missing).1 <+: completed ++
      batches.flatten := by
  induction batches generalizing call completed missing with
  | nil => simp [probeTargetBatches]
  | cons batch rest ih =>
      rw [probeTargetBatches]
      cases answer : reply call with
      | error reason => exact ⟨batch ++ rest.flatten, by simp⟩
      | ok hashes =>
          dsimp only
          have continued :=
            ih (call + 1) (completed ++ batch) (missing ++ hashes.filter fun hash => !hash.isEmpty)
          simpa [List.append_assoc] using continued

theorem probeTarget_completed (target : ClusterMember) (hashes : List Text)
    (answer : VerifyAnswers) :
    (probeTarget probeBatchHashes target hashes answer).completedHashes
      <+: orderedUnique hashes := by
  unfold probeTarget
  dsimp only
  split
  · exact List.nil_prefix
  · cases answer.connect with
    | some reason => exact List.nil_prefix
    | none =>
        have initial := probeTargetBatches_prefix answer.probe 0
          (iterBatches (orderedUnique hashes) probeBatchHashes) [] []
        rw [iterBatches_flatten, List.nil_append] at initial
        exact initial

theorem completedProbe_completed {address : Text} {result : ProbeExecutionResult}
    (completed : completedProbe probeBatchHashes plan answers address = some result) :
    result.completedHashes <+: orderedUnique ((plan.targetChunks.get? address).getD []) := by
  unfold completedProbe at completed
  obtain ⟨target, -, built⟩ := Option.map_eq_some_iff.mp completed
  cases task : (answers address).taskError with
  | some reason =>
      simp only [task] at built
      subst built
      exact List.nil_prefix
  | none =>
      simp only [task] at built
      subst built
      exact probeTarget_completed target _ _

private theorem countPresent_loop (present : List Text) (hashes : List Text)
    (found : table.get? chunkHash = some accumulator) :
    ∃ updated, (hashes.foldl (fun (table : Dict Text VerificationAccumulator) chunkHash =>
        if present.contains chunkHash then
          table.adjust chunkHash fun accumulator =>
            { accumulator with verifiedRemoteCopies := accumulator.verifiedRemoteCopies + 1 }
        else table) table).get? chunkHash = some updated ∧
      updated.verifiedRemoteCopies =
        accumulator.verifiedRemoteCopies + hashes.count chunkHash *
          (present.contains chunkHash).toNat := by
  induction hashes generalizing table accumulator with
  | nil => exact ⟨accumulator, found, by simp⟩
  | cons first rest ih =>
      rw [List.foldl_cons]
      by_cases here : chunkHash = first
      · subst here
        cases inside : present.contains chunkHash with
        | true =>
            have adjusted := Dict.get?_adjust table chunkHash chunkHash fun accumulator =>
              { accumulator with verifiedRemoteCopies := accumulator.verifiedRemoteCopies + 1 }
            rw [if_pos rfl, found, Option.map_some] at adjusted
            obtain ⟨updated, final, copies⟩ := ih adjusted
            refine ⟨updated, by simpa [inside] using final, ?_⟩
            rw [copies, inside, List.count_cons_self]
            simp only [Bool.toNat_true]
            omega
        | false =>
            obtain ⟨updated, final, copies⟩ := ih found
            refine ⟨updated, by simpa [inside] using final, ?_⟩
            rw [copies, inside]
            simp only [Bool.toNat_false, Nat.mul_zero]
      · have elsewhere : ¬ first = chunkHash := fun equal => here equal.symm
        have kept : ∃ next : Dict Text VerificationAccumulator,
            next.get? chunkHash = some accumulator ∧ next = if present.contains first then
              table.adjust first fun accumulator =>
                { accumulator with verifiedRemoteCopies := accumulator.verifiedRemoteCopies + 1 }
              else table := by
          refine ⟨_, ?_, rfl⟩
          split
          · rw [Dict.get?_adjust, if_neg here, found]
          · exact found
        obtain ⟨next, nextFound, same⟩ := kept
        obtain ⟨updated, final, copies⟩ := ih nextFound
        rw [← same]
        exact ⟨updated, final, by rw [copies, List.count_cons_of_ne elsewhere]⟩

theorem countPresent_copies (result : ProbeExecutionResult)
    (found : table.get? chunkHash = some accumulator) :
    ∃ updated, (countPresent result table).get? chunkHash = some updated ∧
      updated.verifiedRemoteCopies = accumulator.verifiedRemoteCopies +
        result.completedHashes.count chunkHash * (result.presentHashes.contains chunkHash).toNat :=
  countPresent_loop result.presentHashes result.completedHashes found

private theorem addErrors_copies (message : Text) (hashes : List Text)
    (found : table.get? chunkHash = some accumulator) :
    ∃ updated, (hashes.foldl (fun (table : Dict Text VerificationAccumulator) chunkHash =>
        table.adjust chunkHash fun accumulator =>
          { accumulator with errors := accumulator.errors ++ [message] })
        table).get? chunkHash = some updated ∧
      updated.verifiedRemoteCopies = accumulator.verifiedRemoteCopies := by
  induction hashes generalizing table accumulator with
  | nil => exact ⟨accumulator, found, rfl⟩
  | cons first rest ih =>
      have adjusted := Dict.get?_adjust table first chunkHash fun accumulator =>
        { accumulator with errors := accumulator.errors ++ [message] }
      rw [List.foldl_cons]
      by_cases here : chunkHash = first
      · subst here
        rw [if_pos rfl, found, Option.map_some] at adjusted
        obtain ⟨updated, final, copies⟩ := ih adjusted
        exact ⟨updated, final, copies⟩
      · rw [if_neg here, found] at adjusted
        exact ih adjusted

theorem reportUnverified_copies (result : ProbeExecutionResult)
    (found : table.get? chunkHash = some accumulator) :
    ∃ updated, (reportUnverified result table).get? chunkHash = some updated ∧
      updated.verifiedRemoteCopies = accumulator.verifiedRemoteCopies := by
  unfold reportUnverified
  split
  · exact addErrors_copies _ _ found
  · exact ⟨accumulator, found, rfl⟩

/-- A target adds one verified copy exactly when it confirms the chunk, however often it was
planned. -/
theorem applyProbe_copies (address : Text) (found : table.get? chunkHash = some accumulator) :
    ∃ updated, (applyProbe probeBatchHashes plan answers table address).get? chunkHash =
      some updated ∧ updated.verifiedRemoteCopies = accumulator.verifiedRemoteCopies +
        (verifyConfirms probeBatchHashes plan answers chunkHash address).toNat := by
  unfold applyProbe verifyConfirms
  cases completed : completedProbe probeBatchHashes plan answers address with
  | none => exact ⟨accumulator, found, by simp⟩
  | some result =>
      obtain ⟨counted, countedFound, countedCopies⟩ := countPresent_copies result found
      obtain ⟨updated, final, copies⟩ := reportUnverified_copies result countedFound
      refine ⟨updated, final, ?_⟩
      have distinct : result.completedHashes.Nodup :=
        (orderedUnique_nodup _).sublist (completedProbe_completed completed).sublist
      rw [copies, countedCopies, distinct.count]
      cases inside : result.completedHashes.contains chunkHash with
      | true => simp [List.contains_iff_mem.mp inside]
      | false =>
          have absent : chunkHash ∉ result.completedHashes := by
            intro member
            rw [List.contains_iff_mem.mpr member] at inside
            cases inside
          simp [absent]

variable (probeBatchHashes plan answers) in
theorem foldl_applyProbe_copies (order : List Text)
    (found : table.get? chunkHash = some accumulator) :
    ∃ updated, (order.foldl (applyProbe probeBatchHashes plan answers) table).get? chunkHash =
      some updated ∧ updated.verifiedRemoteCopies = accumulator.verifiedRemoteCopies +
        order.countP (verifyConfirms probeBatchHashes plan answers chunkHash) := by
  induction order generalizing table accumulator with
  | nil => exact ⟨accumulator, found, by simp⟩
  | cons address rest ih =>
      obtain ⟨next, nextFound, nextCopies⟩ := applyProbe_copies address found
      obtain ⟨updated, final, copies⟩ := ih nextFound
      refine ⟨updated, final, ?_⟩
      rw [copies, nextCopies, List.countP_cons]
      cases verifyConfirms probeBatchHashes plan answers chunkHash address with
      | true =>
          simp only [Bool.toNat_true, if_true]
          omega
      | false => simp

end Probe

section VerificationPlan

variable {blake3 : Blake3} {context : RemoteContext} {excluded : List Text}

theorem candidatesByRf_group (candidates : List VerificationCandidate) (rf : Nat) :
    ((candidatesByRf candidates).get? rf).getD [] =
      candidates.filter fun candidate => candidate.desiredRf == rf := by
  have grouped :=
    Dict.get?_foldl_group VerificationCandidate.desiredRf (fun candidate => [candidate]) candidates
    .empty rf
  rw [Dict.get?_empty, List.flatMap_singleton'] at grouped
  exact grouped

theorem mem_candidatesByRf {candidates : List VerificationCandidate} {rf : Nat}
    {group : List VerificationCandidate} {candidate : VerificationCandidate}
    (entry : (rf, group) ∈ (candidatesByRf candidates).entries) (member : candidate ∈ group) :
    candidate ∈ candidates ∧ candidate.desiredRf = rf := by
  have grouped := candidatesByRf_group candidates rf
  rw [Dict.get?_eq_some_iff.mpr entry, Option.getD_some] at grouped
  rw [grouped] at member
  simpa using List.mem_filter.mp member

theorem exists_mem_candidatesByRf {candidates : List VerificationCandidate}
    {candidate : VerificationCandidate} (member : candidate ∈ candidates) :
    ∃ group, (candidate.desiredRf, group) ∈ (candidatesByRf candidates).entries ∧
      candidate ∈ group := by
  have grouped := candidatesByRf_group candidates candidate.desiredRf
  have inside : candidate ∈ candidates.filter fun other => other.desiredRf == candidate.desiredRf :=
    List.mem_filter.mpr ⟨member, by simp⟩
  rw [← grouped] at inside
  cases found : (candidatesByRf candidates).get? candidate.desiredRf with
  | none => simp [found] at inside
  | some group =>
      rw [found, Option.getD_some] at inside
      exact ⟨group, Dict.get?_eq_some_iff.mp found, inside⟩

theorem mem_plan_assigned {cluster : ClusterView} {hashes : List Text} {rf : Nat}
    {token address chunkHash : Text} (member : chunkHash ∈ ((orderedUnique hashes).foldl
      (planChunk (clusterTargets blake3 cluster rf token excluded)) .empty).assigned address) :
    chunkHash ∈ hashes ∧
      0 < targetsAt address (clusterTargets blake3 cluster rf token excluded chunkHash) := by
  have nothing : ReplicationTargetPlan.empty.assigned address = [] := rfl
  rw [foldl_planChunk_assigned, nothing, List.nil_append, List.mem_flatMap] at member
  obtain ⟨other, present, inside⟩ := member
  rw [List.mem_replicate] at inside
  obtain ⟨planned, rfl⟩ := inside
  exact ⟨mem_orderedUnique.mp present, Nat.pos_of_ne_zero planned⟩

theorem groupAccumulators_zero {plan : ReplicationTargetPlan} {epoch chunkHash : Text}
    {table : Dict Text VerificationAccumulator} {group : List VerificationCandidate}
    {accumulator : VerificationAccumulator}
    (found : (groupAccumulators plan epoch table group).get? chunkHash = some accumulator) :
    accumulator.verifiedRemoteCopies = 0 ∨ table.get? chunkHash = some accumulator := by
  induction group generalizing table with
  | nil => exact Or.inr found
  | cons candidate rest ih =>
      cases ih found with
      | inl zero => exact Or.inl zero
      | inr stored =>
          rw [Dict.get?_set] at stored
          split at stored
          · cases stored
            exact Or.inl rfl
          · exact Or.inr stored

theorem groupAccumulators_keys (plan : ReplicationTargetPlan) (epoch chunkHash : Text)
    (table : Dict Text VerificationAccumulator) (group : List VerificationCandidate) :
    chunkHash ∈ (groupAccumulators plan epoch table group).keys ↔
      chunkHash ∈ table.keys ∨ chunkHash ∈ group.map (·.chunkHash) := by
  induction group generalizing table with
  | nil => simp [groupAccumulators]
  | cons candidate rest ih =>
      have unfolded : groupAccumulators plan epoch table (candidate :: rest) =
          groupAccumulators plan epoch
          (table.set candidate.chunkHash (initialAccumulator plan epoch candidate)) rest := rfl
      rw [unfolded, ih, Dict.mem_keys_set, List.map_cons, List.mem_cons]
      tauto

/-- What merging one group does to the verification plan. -/
theorem planGroup_ok {state next : VerificationPlan} {rf : Nat} {group : List VerificationCandidate}
    (origin : excludedOrigin context.originNodeId = .ok excluded)
    (planned : planGroup blake3 context state (rf, group) = .ok next) :
    (∀ address chunkHash, chunkHash ∈ (next.targetChunks.get? address).getD [] →
      chunkHash ∈ (state.targetChunks.get? address).getD [] ∨
        ∃ candidate ∈ group, candidate.chunkHash = chunkHash ∧
          0 < targetsAt address
            (clusterTargets blake3 context.cluster rf context.clusterToken excluded chunkHash)) ∧
    (∀ address, address ∈ next.targetChunks.keys ↔ address ∈ state.targetChunks.keys ∨
      ∃ candidate ∈ group, 0 < targetsAt address
        (clusterTargets blake3 context.cluster rf context.clusterToken excluded
          candidate.chunkHash)) ∧
    (∀ chunkHash accumulator, next.accumulators.get? chunkHash = some accumulator →
      accumulator.verifiedRemoteCopies = 0 ∨ state.accumulators.get? chunkHash = some accumulator) ∧
    (∀ chunkHash, chunkHash ∈ next.accumulators.keys ↔
      chunkHash ∈ state.accumulators.keys ∨ chunkHash ∈ group.map (·.chunkHash)) := by
  unfold planGroup at planned
  obtain ⟨plan, built, finished⟩ := bind_eq_ok_iff.mp planned
  obtain ⟨excluded', origin', shape⟩ := planChunkReplicationTargets_ok built
  rw [origin, Except.ok.injEq] at origin'
  subst origin'
  cases pure_eq_ok_iff.mp finished
  refine ⟨?_, ?_, ?_, ?_⟩
  · intro address chunkHash member
    rw [Dict.get?_foldl_group, List.mem_append] at member
    cases member with
    | inl before => exact Or.inl before
    | inr added =>
        obtain ⟨entry, inside, present⟩ := List.mem_flatMap.mp added
        obtain ⟨stored, here⟩ := List.mem_filter.mp inside
        have assigned : chunkHash ∈ plan.assigned address := by
          rw [decide_eq_true_eq] at here
          rw [ReplicationTargetPlan.assigned,
            Dict.get?_eq_some_iff.mpr (here ▸ stored : (address, entry.2) ∈ _)]
          exact present
        rw [shape] at assigned
        obtain ⟨known, positive⟩ := mem_plan_assigned assigned
        obtain ⟨candidate, grouped, same⟩ := List.mem_map.mp known
        exact Or.inr ⟨candidate, grouped, same, positive⟩
  · intro address
    have keys : plan.targetChunks.entries.map Prod.fst = plan.targetChunks.keys := rfl
    rw [Dict.mem_keys_foldl_group, keys, shape, plan_keys_iff]
    simp
  · intro chunkHash accumulator found
    exact groupAccumulators_zero found
  · intro chunkHash
    exact groupAccumulators_keys ..

/-- What the finished plan of a verification contains. -/
theorem planVerification_ok {candidates : List VerificationCandidate} {plan : VerificationPlan}
    (origin : excludedOrigin context.originNodeId = .ok excluded)
    (planned : planVerification blake3 context candidates = .ok plan) :
    (∀ address chunkHash, chunkHash ∈ (plan.targetChunks.get? address).getD [] →
      ∃ candidate ∈ candidates, candidate.chunkHash = chunkHash ∧
        0 < targetsAt address
          (clusterTargets blake3 context.cluster candidate.desiredRf context.clusterToken
          excluded chunkHash)) ∧
    (∀ candidate ∈ candidates, ∀ address, 0 < targetsAt address
      (clusterTargets blake3 context.cluster
      candidate.desiredRf context.clusterToken excluded candidate.chunkHash) →
        address ∈ plan.targetChunks.keys) ∧
    (∀ candidate ∈ candidates, ∃ accumulator, plan.accumulators.get? candidate.chunkHash =
      some accumulator ∧ accumulator.verifiedRemoteCopies = 0) := by
  have merged : ∀ (groups : List
      (Nat × List VerificationCandidate)) (state final : VerificationPlan),
      groups.foldlM (planGroup blake3 context) state = .ok final →
      (∀ address chunkHash, chunkHash ∈ (final.targetChunks.get? address).getD [] →
        chunkHash ∈ (state.targetChunks.get? address).getD [] ∨
          ∃ group ∈ groups, ∃ candidate ∈ group.2, candidate.chunkHash = chunkHash ∧
            0 < targetsAt address
              (clusterTargets blake3 context.cluster group.1 context.clusterToken excluded
              chunkHash)) ∧
      (∀ address, address ∈ final.targetChunks.keys ↔ address ∈ state.targetChunks.keys ∨
        ∃ group ∈ groups, ∃ candidate ∈ group.2, 0 < targetsAt address
          (clusterTargets blake3 context.cluster group.1 context.clusterToken excluded
            candidate.chunkHash)) ∧
      (∀ chunkHash accumulator, final.accumulators.get? chunkHash = some accumulator →
        accumulator.verifiedRemoteCopies = 0 ∨
          state.accumulators.get? chunkHash = some accumulator) ∧
      (∀ chunkHash, chunkHash ∈ final.accumulators.keys ↔ chunkHash ∈ state.accumulators.keys ∨
        ∃ group ∈ groups, chunkHash ∈ group.2.map (·.chunkHash)) := by
    intro groups
    induction groups with
    | nil =>
        intro state final folded
        cases pure_eq_ok_iff.mp folded
        exact ⟨fun _ _ member => Or.inl member, by simp, fun _ _ found => Or.inr found, by simp⟩
    | cons group rest ih =>
        intro state final folded
        rw [List.foldlM_cons] at folded
        obtain ⟨middle, first, remaining⟩ := bind_eq_ok_iff.mp folded
        obtain ⟨chunks, keys, zero, known⟩ := planGroup_ok origin first
        obtain ⟨chunks', keys', zero', known'⟩ := ih middle final remaining
        refine ⟨?_, ?_, ?_, ?_⟩
        · intro address chunkHash member
          cases chunks' address chunkHash member with
          | inr later =>
              obtain ⟨other, inside, found⟩ := later
              exact Or.inr ⟨other, by simp [inside], found⟩
          | inl before =>
              cases chunks address chunkHash before with
              | inl initial => exact Or.inl initial
              | inr here => exact Or.inr ⟨group, by simp, here⟩
        · intro address
          rw [keys', keys, or_assoc]
          simp
        · intro chunkHash accumulator found
          cases zero' chunkHash accumulator found with
          | inl counted => exact Or.inl counted
          | inr before => exact zero chunkHash accumulator before
        · intro chunkHash
          rw [known', known, or_assoc]
          simp
  obtain ⟨chunks, keys, zero, known⟩ := merged _ _ _ planned
  refine ⟨?_, ?_, ?_⟩
  · intro address chunkHash member
    cases chunks address chunkHash member with
    | inl impossible => simp at impossible
    | inr found =>
        obtain ⟨⟨rf, group⟩, entry, candidate, inside, same, positive⟩ := found
        obtain ⟨present, rfRecorded⟩ := mem_candidatesByRf entry inside
        exact ⟨candidate, present, same, by rwa [rfRecorded]⟩
  · intro candidate member address positive
    obtain ⟨group, entry, inside⟩ := exists_mem_candidatesByRf member
    exact (keys address).mpr (Or.inr ⟨_, entry, candidate, inside, positive⟩)
  · intro candidate member
    obtain ⟨group, entry, inside⟩ := exists_mem_candidatesByRf member
    have present := (known candidate.chunkHash).mpr (Or.inr ⟨_, entry, List.mem_map_of_mem inside⟩)
    obtain ⟨accumulator, found⟩ := (Dict.mem_keys_iff _ _).mp present
    cases zero candidate.chunkHash accumulator found with
    | inl counted => exact ⟨accumulator, found, counted⟩
    | inr impossible => simp at impossible

theorem verifyCandidates_copies {candidates : List VerificationCandidate} {probeBatchHashes : Nat}
    {answers : Text → VerifyAnswers} {order : List Text} {outcomes : List VerificationOutcome}
    {plan : VerificationPlan} {candidate : VerificationCandidate}
    (origin : excludedOrigin context.originNodeId = .ok excluded)
    (planned : planVerification blake3 context candidates = .ok plan)
    (verified : verifyCandidates blake3 context candidates probeBatchHashes answers order =
      .ok outcomes)
    (member : candidate ∈ candidates) :
    ∃ outcome ∈ outcomes, outcome.chunkHash = candidate.chunkHash ∧ outcome.verifiedRemoteCopies =
      order.countP (verifyConfirms probeBatchHashes plan answers candidate.chunkHash) := by
  obtain ⟨-, -, zero⟩ := planVerification_ok origin planned
  obtain ⟨accumulator, found, initial⟩ := zero candidate member
  obtain ⟨updated, final, copies⟩ :=
    foldl_applyProbe_copies probeBatchHashes plan answers order found
  rw [initial, Nat.zero_add] at copies
  unfold verifyCandidates at verified
  rw [planned] at verified
  cases pure_eq_ok_iff.mp verified
  refine ⟨{ chunkHash := candidate.chunkHash
            desiredRf := updated.desiredRf
            placementEpoch := updated.placementEpoch
            requiredRemoteCopies := updated.requiredRemoteCopies
            verifiedRemoteCopies := updated.verifiedRemoteCopies
            error := updated.errorSummary }, List.mem_filterMap.mpr ⟨candidate, member, ?_⟩,
              rfl, copies⟩
  rw [final]
  rfl

theorem verifyCandidates_hashes {candidates : List VerificationCandidate} {probeBatchHashes : Nat}
    {answers : Text → VerifyAnswers} {order : List Text} {outcomes : List VerificationOutcome}
    (verified : verifyCandidates blake3 context candidates probeBatchHashes answers order =
      .ok outcomes) :
    (outcomes.map (·.chunkHash)).Sublist (candidates.map (·.chunkHash)) := by
  unfold verifyCandidates at verified
  obtain ⟨plan, planned, built⟩ := bind_eq_ok_iff.mp verified
  cases pure_eq_ok_iff.mp built
  clear verified built planned
  generalize order.foldl (applyProbe probeBatchHashes plan answers) plan.accumulators = table
  induction candidates with
  | nil => exact List.Sublist.refl _
  | cons candidate rest ih =>
      cases found : table.get? candidate.chunkHash with
      | none => simpa [List.filterMap_cons, found] using ih.cons candidate.chunkHash
      | some accumulator =>
          simpa [List.filterMap_cons, found] using ih.cons_cons candidate.chunkHash

end VerificationPlan

section Honesty

theorem countP_le_sum {α : Type} (items : List α) (copies : α → Nat) (confirmed : α → Bool) :
    items.countP (fun item => decide (0 < copies item) && confirmed item) ≤
      (items.map fun item => copies item * (confirmed item).toNat).sum := by
  induction items with
  | nil => simp
  | cons item rest ih =>
      rw [List.countP_cons, List.map_cons, List.sum_cons]
      cases confirmed item with
      | false => simpa using ih
      | true =>
          simp only [Bool.and_true, decide_eq_true_eq, Bool.toNat_true, Nat.mul_one]
          split <;> omega

/-- Counting occurrences instead of items exceeds the number of items exactly when some confirmed
item occurs twice. -/
theorem sum_le_countP_iff {α : Type} (items : List α) (copies : α → Nat) (confirmed : α → Bool) :
    (items.map fun item => copies item * (confirmed item).toNat).sum ≤
        items.countP (fun item => decide (0 < copies item) && confirmed item) ↔
      ∀ item ∈ items, confirmed item = true → copies item ≤ 1 := by
  induction items with
  | nil => simp
  | cons item rest ih =>
      have lower := countP_le_sum rest copies confirmed
      rw [List.countP_cons, List.map_cons, List.sum_cons, List.forall_mem_cons, ← ih]
      cases confirmed item with
      | false =>
          simp only [Bool.toNat_false, Nat.mul_zero, Nat.zero_add, Bool.and_false,
            Bool.false_eq_true, if_false, Nat.add_zero, false_implies, true_and]
      | true =>
          simp only [Bool.and_true, decide_eq_true_eq, Bool.toNat_true, Nat.mul_one, true_implies]
          split <;> omega

variable {blake3 : Blake3} {context : RemoteContext} {pending : List Text}
  {rf probeBatchHashes : Nat}
  {answers : Text → PushAnswers} {order excluded : List Text} {chunkHash : Text}

theorem pushPlan_count (member : chunkHash ∈ pending) (address : Text) :
    ((pushPlan blake3 context pending rf excluded).assigned address).count chunkHash =
      targetsAt address
      (clusterTargets blake3 context.cluster rf context.clusterToken excluded chunkHash) :=
  plan_assigned_count (mem_orderedUnique.mpr member) address

theorem mem_pushPlan_keys (member : chunkHash ∈ pending) {address : Text}
    (positive : 0 < targetsAt address
      (clusterTargets blake3 context.cluster rf context.clusterToken excluded chunkHash)) :
    address ∈ (pushPlan blake3 context pending rf excluded).targetChunks.keys :=
  (plan_keys_iff address).mpr ⟨chunkHash, mem_orderedUnique.mpr member, positive⟩

variable (blake3 context rf probeBatchHashes answers excluded) in
theorem mem_confirmingAddresses (member : chunkHash ∈ pending) (address : Text) :
    address ∈ confirmingAddresses probeBatchHashes
      (pushPlan blake3 context pending rf excluded) answers chunkHash ↔
      0 < targetsAt address
        (clusterTargets blake3 context.cluster rf context.clusterToken excluded chunkHash) ∧
        pushConfirms probeBatchHashes
          (pushPlan blake3 context pending rf excluded) answers chunkHash address = true := by
  have assigned : chunkHash ∈ (pushPlan blake3 context pending rf excluded).assigned address ↔
      0 < targetsAt address
        (clusterTargets blake3 context.cluster rf context.clusterToken excluded chunkHash) := by
    rw [← pushPlan_count member, List.count_pos_iff]
  rw [confirmingAddresses, List.mem_filter, Bool.and_eq_true, List.contains_iff_mem, assigned]
  constructor
  · intro inside
    exact inside.2
  · intro inside
    exact ⟨mem_pushPlan_keys member inside.1, inside⟩

theorem confirmingAddresses_length :
    (confirmingAddresses probeBatchHashes
      (pushPlan blake3 context pending rf excluded) answers chunkHash).length =
      (pushPlan blake3 context pending rf excluded).targetChunks.keys.countP fun address =>
        decide (0 < ((pushPlan blake3 context pending rf excluded).assigned address).count
          chunkHash) &&
          pushConfirms probeBatchHashes
            (pushPlan blake3 context pending rf excluded) answers chunkHash address := by
  rw [confirmingAddresses, ← List.countP_eq_length_filter]
  apply List.countP_congr
  intro address _
  simp [List.count_pos_iff]

variable (probeBatchHashes answers) in
/-- The completion order does not matter, and the push exceeds the confirming addresses exactly when
a confirming address serves two targets of the chunk. -/
theorem pushedCopies_le_iff (member : chunkHash ∈ pending)
    (completed : order.Perm (pushPlan blake3 context pending rf excluded).targetChunks.keys) :
    pushedCopies probeBatchHashes
        (pushPlan blake3 context pending rf excluded) answers order chunkHash ≤
        (confirmingAddresses probeBatchHashes
          (pushPlan blake3 context pending rf excluded) answers chunkHash).length ↔
      ∀ address, pushConfirms probeBatchHashes
        (pushPlan blake3 context pending rf excluded) answers chunkHash
        address = true → targetsAt address
          (clusterTargets blake3 context.cluster rf context.clusterToken excluded chunkHash) ≤
            1 := by
  rw [confirmingAddresses_length, pushedCopies, (completed.map _).sum_eq, sum_le_countP_iff]
  constructor
  · intro single address confirmed
    by_cases positive : 0 < targetsAt address
        (clusterTargets blake3 context.cluster rf context.clusterToken excluded chunkHash)
    · rw [← pushPlan_count member]
      exact single address (mem_pushPlan_keys member positive) confirmed
    · omega
  · intro single address _ confirmed
    rw [pushPlan_count member]
    exact single address confirmed

variable (probeBatchHashes answers chunkHash) in
theorem confirmingAddresses_le_pushedCopies
    (completed : order.Perm (pushPlan blake3 context pending rf excluded).targetChunks.keys) :
    (confirmingAddresses probeBatchHashes
      (pushPlan blake3 context pending rf excluded) answers chunkHash).length ≤
      pushedCopies probeBatchHashes
        (pushPlan blake3 context pending rf excluded) answers order chunkHash := by
  rw [confirmingAddresses_length, pushedCopies, (completed.map _).sum_eq]
  exact countP_le_sum _ _ _

variable (probeBatchHashes answers) in
/-- A verification that sees the same presence counts the confirming addresses. -/
theorem verifyConfirms_count (member : chunkHash ∈ pending)
    {candidates : List VerificationCandidate}
    {candidate : VerificationCandidate} {verifyBatchHashes : Nat} {verifyPlan : VerificationPlan}
    {verifyAnswers : Text → VerifyAnswers} {verifyOrder : List Text}
    (origin : excludedOrigin context.originNodeId = .ok excluded)
    (planned : planVerification blake3 context candidates = .ok verifyPlan)
    (distinct : (candidates.map (·.chunkHash)).Nodup) (present : candidate ∈ candidates)
    (hash : candidate.chunkHash = chunkHash) (factor : candidate.desiredRf = rf)
    (completed : verifyOrder.Perm verifyPlan.targetChunks.keys)
    (agree : ∀ address, 0 < targetsAt address
        (clusterTargets blake3 context.cluster rf context.clusterToken excluded chunkHash) →
      verifyConfirms verifyBatchHashes verifyPlan verifyAnswers chunkHash address =
        pushConfirms probeBatchHashes
        (pushPlan blake3 context pending rf excluded) answers chunkHash address) :
    verifyOrder.countP (verifyConfirms verifyBatchHashes verifyPlan verifyAnswers chunkHash) =
      (confirmingAddresses probeBatchHashes
        (pushPlan blake3 context pending rf excluded) answers chunkHash).length := by
  obtain ⟨chunks, keys, -⟩ := planVerification_ok origin planned
  have planned' : ∀ address,
      verifyConfirms verifyBatchHashes verifyPlan verifyAnswers chunkHash address = true →
      0 < targetsAt address
        (clusterTargets blake3 context.cluster rf context.clusterToken excluded chunkHash) := by
    intro address confirmed
    unfold verifyConfirms at confirmed
    cases probed : completedProbe verifyBatchHashes verifyPlan verifyAnswers address with
    | none => simp [probed] at confirmed
    | some result =>
        simp only [probed, Bool.and_eq_true, List.contains_iff_mem] at confirmed
        have requested :=
          mem_orderedUnique.mp ((completedProbe_completed probed).subset confirmed.1)
        obtain ⟨other, known, same, positive⟩ := chunks address chunkHash requested
        have equal : other = candidate :=
          List.inj_on_of_nodup_map distinct known present (same.trans hash.symm)
        rwa [equal, factor] at positive
  rw [completed.countP_eq, List.countP_eq_length_filter]
  apply List.Perm.length_eq
  apply (List.perm_ext_iff_of_nodup ((Dict.keys_nodup _).filter _)
    ((Dict.keys_nodup _).filter _)).mpr
  intro address
  have confirming :=
    mem_confirmingAddresses blake3 context rf probeBatchHashes answers excluded member address
  rw [confirmingAddresses] at confirming
  rw [confirming, List.mem_filter]
  constructor
  · intro inside
    have positive := planned' address inside.2
    exact ⟨positive, by rw [← agree address positive]; exact inside.2⟩
  · intro inside
    refine ⟨keys candidate present address ?_, by rw [agree address inside.1]; exact inside.2⟩
    rw [hash, factor]
    exact inside.1

end Honesty

end Stopan.Replication
