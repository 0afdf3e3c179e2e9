import Stopan.Replication.Accounting

namespace Stopan.Replication

open Stopan.Lib Stopan.Common Stopan.Cluster Stopan.Protection Stopan.Metadata

/-- A push that ran to its end, with `interruptedAfter = none`: the selected chunks, the plan, an
order in which the target tasks completed and the catalog it left. -/
structure PushRun (blake3 : Blake3) (context : RemoteContext) where
  db : MetadataDB
  request : PushRequest
  answers : Text → PushAnswers
  order : List Text
  clock : Nat → PyFloat
  pending : List Text
  plan : ReplicationTargetPlan
  after : MetadataDB
  uninterrupted : request.interruptedAfter = none
  contacted : (request.strictRf && decide ((context.cluster.candidateNodeIdsExcluding
    [context.originNodeId]).length < request.rf.toNat)) = false
  selected : selectedForPush blake3 context db request = .ok pending
  valid : ∀ chunkHash ∈ pending, isValidBlake3Hex chunkHash = true
  planned : planChunkReplicationTargets blake3 context.cluster
    (orderedUnique pending) request.rf.toNat
    context.clusterToken context.originNodeId = .ok plan
  completed : order.Perm plan.targetChunks.keys
  pushed : pushToNetwork blake3 context db request answers order clock = (after, none)

/-- The address confirmed the chunk during this push. -/
def PushRun.confirms {blake3 : Blake3} {context : RemoteContext} (run : PushRun blake3 context)
    (chunkHash address : Text) : Bool :=
  pushConfirms run.request.probeBatchHashes run.plan run.answers chunkHash address

/-- The distinct addresses that confirmed the chunk during this push. -/
def PushRun.confirming {blake3 : Blake3} {context : RemoteContext} (run : PushRun blake3 context)
    (chunkHash : Text) : List Text :=
  confirmingAddresses run.request.probeBatchHashes run.plan run.answers chunkHash

/-- A verification of the chunk, among any other candidates, in which each of the chunk's targets
shows a given presence. -/
structure VerifyRun (blake3 : Blake3) (context : RemoteContext) (chunkHash : Text) (rf : Nat)
    (targets : List ClusterMember) (presence : Text → Bool) where
  db : MetadataDB
  candidates : List VerificationCandidate
  state : ProtectionState
  probeBatchHashes : Nat
  answers : Text → VerifyAnswers
  order : List Text
  now : PyFloat
  plan : VerificationPlan
  after : MetadataDB
  distinct : (candidates.map (·.chunkHash)).Nodup
  valid : ∀ candidate ∈ candidates, isValidBlake3Hex candidate.chunkHash = true
  candidate : { chunkHash, desiredRf := rf, protectionState := state } ∈ candidates
  planned : planVerification blake3 context
    (candidates.filter fun candidate => candidate.desiredRf ≠ 0) = .ok plan
  completed : order.Perm plan.targetChunks.keys
  agree : ∀ address, 0 < targetsAt address targets →
    verifyConfirms probeBatchHashes plan answers chunkHash address = presence address
  verified : verify blake3 context db candidates probeBatchHashes answers order now = .ok after

section Recorded

variable {blake3 : Blake3} {context : RemoteContext} {chunkHash : Text}

theorem PushRun.rf_positive (run : PushRun blake3 context) : 1 ≤ run.request.rf := by
  by_contra low
  have refused := run.pushed
  rw [pushToNetwork, if_pos (by omega)] at refused
  simp at refused

theorem PushRun.plan_eq (run : PushRun blake3 context) :
    ∃ excluded, excludedOrigin context.originNodeId = .ok excluded ∧
      run.plan = pushPlan blake3 context run.pending run.request.rf.toNat excluded := by
  obtain ⟨excluded, origin, shape⟩ := planChunkReplicationTargets_ok run.planned
  exact ⟨excluded, origin, shape⟩

/-- The row of every selected chunk holds the counted copies. -/
theorem PushRun.recorded (run : PushRun blake3 context) (member : chunkHash ∈ run.pending) :
    ∃ row, run.after.chunkProtection.get? chunkHash = some row ∧ row.protectedRemoteCopies =
      pushedCopies run.request.probeBatchHashes run.plan run.answers run.order chunkHash := by
  have ran := run.pushed
  have nonEmpty : run.pending.isEmpty = false :=
    List.isEmpty_eq_false_iff.mpr (List.ne_nil_of_mem member)
  have positive := run.rf_positive
  rw [pushToNetwork, if_neg (by omega)] at ran
  simp only [run.contacted, Bool.false_eq_true, if_false, run.selected, nonEmpty,
    run.uninterrupted] at ran
  cases replicated : pushChunkReplicas blake3 context run.pending run.request.rf.toNat
      run.request.probeBatchHashes run.answers run.order with
  | error reason => simp [replicated] at ran
  | ok outcomes =>
      simp only [replicated] at ran
      obtain ⟨excluded, origin, outcome, present, hash, copies⟩ :=
        pushChunkReplicas_outcome replicated member
      obtain ⟨excluded', origin', planShape⟩ := run.plan_eq
      rw [origin, Except.ok.injEq] at origin'
      subst origin'
      have hashes := pushChunkReplicas_hashes replicated
      have updateHashes : (outcomes.map (pushUpdate run.request.rf.toNat
          (context.placementEpoch blake3 run.request.rf.toNat))).map (·.chunkHash) =
            orderedUnique run.pending := by
        rw [← hashes, List.map_map]
        rfl
      have valid : ∀ update ∈ [] ++ outcomes.map (pushUpdate run.request.rf.toNat
          (context.placementEpoch blake3 run.request.rf.toNat)),
            isValidBlake3Hex update.chunkHash = true := by
        intro update inside
        have known : update.chunkHash ∈ orderedUnique run.pending := by
          rw [← updateHashes]
          exact List.mem_map_of_mem inside
        exact run.valid _ (mem_orderedUnique.mp known)
      have distinct : (([] ++ outcomes.map (pushUpdate run.request.rf.toNat
          (context.placementEpoch blake3 run.request.rf.toNat))).map
            ChunkProtectionUpdate.chunkHash).Nodup := by
        rw [List.nil_append, updateHashes]
        exact orderedUnique_nodup _
      obtain ⟨row, found, recorded⟩ :=
        recordUpdates_copies valid distinct (List.mem_map_of_mem present) ran
      refine ⟨row, hash ▸ found, ?_⟩
      have counted : (row.protectedRemoteCopies : Int) = outcome.protectedRemoteCopies := recorded
      rw [planShape, ← copies]
      omega

/-- The row of a verified chunk holds one copy for each address that shows it. -/
theorem VerifyRun.recorded {rf : Nat} {targets : List ClusterMember} {presence : Text → Bool}
    (run : VerifyRun blake3 context chunkHash rf targets presence) (positive : 1 ≤ rf)
    {excluded : List Text} (origin : excludedOrigin context.originNodeId = .ok excluded) :
    ∃ row, run.after.chunkProtection.get? chunkHash = some row ∧ row.protectedRemoteCopies =
      run.order.countP (verifyConfirms run.probeBatchHashes run.plan run.answers chunkHash) := by
  have ran := run.verified
  have remote : ({ chunkHash, desiredRf := rf,
                   protectionState := run.state } : VerificationCandidate) ∈
      run.candidates.filter fun candidate => candidate.desiredRf ≠ 0 :=
    List.mem_filter.mpr ⟨run.candidate, by simp; omega⟩
  have nonEmpty : (run.candidates.filter fun candidate => candidate.desiredRf ≠ 0).isEmpty =
      false :=
    List.isEmpty_eq_false_iff.mpr (List.ne_nil_of_mem remote)
  unfold verify at ran
  simp only [nonEmpty, Bool.false_eq_true, if_false] at ran
  obtain ⟨outcomes, checked, applied⟩ := bind_eq_ok_iff.mp ran
  obtain ⟨outcome, present, hash, copies⟩ :=
    verifyCandidates_copies origin run.planned checked remote
  dsimp only at hash copies
  have sublist := (verifyCandidates_hashes checked).trans (List.filter_sublist.map _)
  have updateHashes : (outcomes.map verificationUpdate).map (·.chunkHash) =
      outcomes.map (·.chunkHash) := by
    rw [List.map_map]
    rfl
  have valid : ∀ update ∈ outcomes.map verificationUpdate,
      isValidBlake3Hex update.chunkHash = true := by
    intro update inside
    have known : update.chunkHash ∈ run.candidates.map (·.chunkHash) := by
      apply sublist.subset
      rw [← updateHashes]
      exact List.mem_map_of_mem inside
    obtain ⟨candidate, listed, same⟩ := List.mem_map.mp known
    rw [← same]
    exact run.valid candidate listed
  have distinct : ((outcomes.map verificationUpdate).map (·.chunkHash)).Nodup := by
    rw [updateHashes]
    exact run.distinct.sublist sublist
  obtain ⟨row, found, recorded⟩ :=
    applyChunkVerificationUpdates_copies valid distinct (List.mem_map_of_mem present) applied
  have key : (verificationUpdate outcome).chunkHash = chunkHash := hash
  rw [key] at found
  refine ⟨row, found, ?_⟩
  have counted : (row.protectedRemoteCopies : Int) = outcome.verifiedRemoteCopies := recorded
  rw [← copies]
  omega

/-- What an honest push records for a chunk: no more copies than distinct addresses confirmed it,
and the count that any verification of the same presence records. -/
def PushRun.HonestFor (run : PushRun blake3 context) (chunkHash : Text)
    (targets : List ClusterMember) : Prop :=
  ∃ row, run.after.chunkProtection.get? chunkHash = some row ∧
    row.protectedRemoteCopies ≤ (run.confirming chunkHash).length ∧
    ∀ check : VerifyRun blake3 context chunkHash run.request.rf.toNat targets (run.confirms
      chunkHash), ∃ verifiedRow, check.after.chunkProtection.get? chunkHash = some verifiedRow ∧
        verifiedRow.protectedRemoteCopies = row.protectedRemoteCopies

/-- The recorded copies of a chunk are honest exactly when no address that confirmed it is the
address of two of its HRW targets. -/
theorem pushRun_honest_iff (run : PushRun blake3 context) {targets : List ClusterMember}
    (member : chunkHash ∈ run.pending)
    (targeted : selectRemoteChunkTargets blake3 context.cluster chunkHash run.request.rf
      context.clusterToken
      context.originNodeId = .ok targets) :
    run.HonestFor chunkHash targets ↔
      ∀ address, run.confirms chunkHash address = true → targetsAt address targets ≤ 1 := by
  obtain ⟨excluded, origin, shape⟩ := run.plan_eq
  have positive := run.rf_positive
  have factor : (run.request.rf.toNat : Int) = run.request.rf := by omega
  have chosen := selectRemoteChunkTargets_eq blake3 context.cluster context.clusterToken chunkHash
    (by omega : 1 ≤ run.request.rf.toNat) origin
  rw [factor, targeted, Except.ok.injEq] at chosen
  subst chosen
  have completed := run.completed
  rw [shape] at completed
  obtain ⟨row, found, recorded⟩ := run.recorded member
  have bounded := pushedCopies_le_iff run.request.probeBatchHashes run.answers member completed
  have lower :=
    confirmingAddresses_le_pushedCopies run.request.probeBatchHashes run.answers chunkHash completed
  rw [← shape] at bounded lower
  unfold PushRun.HonestFor PushRun.confirms PushRun.confirming
  constructor
  · intro honest
    obtain ⟨stored, present, bound, -⟩ := honest
    rw [found, Option.some.injEq] at present
    subst present
    rw [recorded] at bound
    exact bounded.mp bound
  · intro single
    have bound := bounded.mpr single
    refine ⟨row, found, by rwa [recorded], ?_⟩
    intro check
    obtain ⟨verifiedRow, verifiedFound, verifiedCopies⟩ := check.recorded (by omega) origin
    have counted :=
      verifyConfirms_count run.request.probeBatchHashes run.answers member origin check.planned
      (check.distinct.sublist (List.filter_sublist.map _))
      (List.mem_filter.mpr ⟨check.candidate, by simp; omega⟩) rfl rfl check.completed
      (by
        intro address assigned
        rw [← shape]
        exact check.agree address assigned)
    rw [← shape] at counted
    exact ⟨verifiedRow, verifiedFound, by rw [verifiedCopies, counted, recorded]; omega⟩

end Recorded

/-- The digest of the three bytes `abc`. -/
def abcHash : Text := "6437b3ac38465133ffb63b75273a8db548c558465d79db03fd359c6cd5bd9d85".toList

/-- BLAKE3 on the two ranking messages and on the epoch material of the example. -/
def exampleDigests : Blake3 := .ofTable [
  (encodeUtf8 ("|n1|".toList ++ abcHash),
    0x33ade97188eb5cff05e19cf656a892cdd62d6caaa736dcd52b16ef01f340cd12),
  (encodeUtf8 ("|n2|".toList ++ abcHash),
    0xa7a58cf70edf8726f9bff440c2ccbb48c2f7f0a54ec0c4c61e48bdeae9ae84bc),
  (encodeUtf8
    ("\x7b\"cluster_token\":\"\",\"desired_rf\":2,\"eligible_node_ids\":[\"n1\",\"n2\"],".toList ++
      "\"format\":\"stopan.placement-epoch.v1\",\"placement_scheme\":\"hrw-blake3-v1\"\x7d".toList),
    0xad66f1bdc8c239b01772cdf5b5b59142d5730707e4322e8376c261b202d22f64)]

/-- Two remote members and the origin. A node that was set up again keeps its address under a new
id, so both may have one address, and answer from one store. -/
def exampleContext (first second : Text) : RemoteContext where
  cluster := {
    selfNodeId := some ['o']
    members := [⟨['n', '1'], first⟩, ⟨['n', '2'], second⟩, ⟨['o'], "h:0".toList⟩]
    distinct := by simp }
  originNodeId := ['o']
  clusterToken := []

def exampleCatalog : MetadataDB :=
  { MetadataDB.empty with
    chunks := .ofList [(abcHash, 3)]
    chunkProtection := .ofList [(abcHash, {
      desiredRf := 2, protectionState := .pending, protectedRemoteCopies :=
        0, placementEpoch := none,
      lastPushAt := none, lastVerifyAt := none, lastError := none })] }

def exampleRequest : PushRequest :=
  { rf := 2, strictRf := true, scope := .pending, limit := none, commitEvery := 1,
    probeBatchHashes := 8, interruptedAfter := none }

/-- Every contacted address reports that nothing is missing. -/
def everythingPresent : Text → PushAnswers := fun _ =>
  { probe := fun _ => .ok [], stream := .error [], taskError := none }

def examplePlan (first second : Text) : ReplicationTargetPlan :=
  (planChunkReplicationTargets exampleDigests (exampleContext first second).cluster [abcHash] 2 []
    ['o']).toOption.getD
    .empty

private theorem eq_of_no_error (result : MetadataDB × Option StopanError)
    (silent : result.2 = none) :
    result = (result.1, none) := by
  rw [← silent]

private theorem eq_ok_get {ε α : Type} (result : Except ε α)
    (succeeds : result.toOption.isSome = true) :
    result = .ok (result.toOption.get succeeds) := by
  cases result with
  | error reason => cases succeeds
  | ok value => rfl

/-- The push of one chunk in a cluster whose two candidates share an address. -/
def sharedAddressRun : PushRun exampleDigests (exampleContext "h:1".toList "h:1".toList) where
  db := exampleCatalog
  request := exampleRequest
  answers := everythingPresent
  order := ["h:1".toList]
  clock := fun _ => ⟨0⟩
  pending := [abcHash]
  plan := examplePlan "h:1".toList "h:1".toList
  after :=
    (pushToNetwork exampleDigests
      (exampleContext "h:1".toList "h:1".toList) exampleCatalog exampleRequest
    everythingPresent ["h:1".toList] fun _ => ⟨0⟩).1
  uninterrupted := rfl
  contacted := by decide +kernel
  selected := by decide +kernel
  valid := by decide +kernel
  planned := by decide +kernel
  completed := by decide +kernel
  pushed := eq_of_no_error _ (by decide +kernel)

/-- One address confirmed the chunk, and the push records two remote copies. -/
theorem sharedAddress_overcounts :
    ∃ row, sharedAddressRun.after.chunkProtection.get? abcHash = some row ∧
      row.protectedRemoteCopies = 2 ∧ sharedAddressRun.confirming abcHash = ["h:1".toList] ∧
      ¬ row.protectedRemoteCopies ≤ (sharedAddressRun.confirming abcHash).length := by
  refine ⟨(sharedAddressRun.after.chunkProtection.get? abcHash).get (by decide +kernel),
    ?_, ?_, ?_, ?_⟩
  · simp
  · decide +kernel
  · decide +kernel
  · decide +kernel

/-- The same push in a cluster whose two candidates have their own addresses. -/
def distinctAddressRun : PushRun exampleDigests (exampleContext "h:1".toList "h:2".toList) where
  db := exampleCatalog
  request := exampleRequest
  answers := everythingPresent
  order := ["h:1".toList, "h:2".toList]
  clock := fun _ => ⟨0⟩
  pending := [abcHash]
  plan := examplePlan "h:1".toList "h:2".toList
  after :=
    (pushToNetwork exampleDigests
      (exampleContext "h:1".toList "h:2".toList) exampleCatalog exampleRequest
    everythingPresent ["h:1".toList, "h:2".toList] fun _ => ⟨0⟩).1
  uninterrupted := rfl
  contacted := by decide +kernel
  selected := by decide +kernel
  valid := by decide +kernel
  planned := by decide +kernel
  completed := by decide +kernel
  pushed := eq_of_no_error _ (by decide +kernel)

def exampleTargets : List ClusterMember := [⟨['n', '2'], "h:2".toList⟩, ⟨['n', '1'], "h:1".toList⟩]

def exampleCandidate : VerificationCandidate :=
  { chunkHash := abcHash, desiredRf := 2, protectionState := .placed }

def everythingShown : Text → VerifyAnswers :=
  fun _ => { connect := none, probe := fun _ => .ok [], taskError := none }

/-- The verification that follows, in which both addresses still show the chunk. -/
def distinctAddressCheck :
    VerifyRun exampleDigests (exampleContext "h:1".toList "h:2".toList) abcHash
    distinctAddressRun.request.rf.toNat exampleTargets (distinctAddressRun.confirms abcHash) where
  db := distinctAddressRun.after
  candidates := [exampleCandidate]
  state := .placed
  probeBatchHashes := 8
  answers := everythingShown
  order := ["h:2".toList, "h:1".toList]
  now := ⟨1⟩
  plan := (planVerification exampleDigests (exampleContext "h:1".toList "h:2".toList)
    [exampleCandidate]).toOption.get
    (by decide +kernel)
  after :=
    (verify exampleDigests (exampleContext "h:1".toList "h:2".toList) distinctAddressRun.after
    [exampleCandidate] 8 everythingShown ["h:2".toList, "h:1".toList] ⟨1⟩).toOption.get
      (by decide +kernel)
  distinct := by decide +kernel
  valid := by decide +kernel
  candidate := by decide +kernel
  planned := eq_ok_get _ _
  completed := by decide +kernel
  agree := by
    intro address targeted
    simp only [targetsAt_pos_iff, exampleTargets, List.map_cons, List.map_nil,
      List.mem_cons, List.not_mem_nil, or_false] at targeted
    rcases targeted with rfl | rfl <;> decide +kernel
  verified := eq_ok_get _ _

/-- Both addresses confirm the chunk, and the push and the verification record the same two
copies. -/
theorem distinctAddressRun_honest :
    distinctAddressRun.HonestFor abcHash exampleTargets ∧
    ∃ row verifiedRow, distinctAddressRun.after.chunkProtection.get? abcHash = some row ∧
      distinctAddressCheck.after.chunkProtection.get? abcHash = some verifiedRow ∧
      verifiedRow.protectedRemoteCopies = row.protectedRemoteCopies ∧
        row.protectedRemoteCopies = 2 := by
  have honest : distinctAddressRun.HonestFor abcHash exampleTargets := by
    refine (pushRun_honest_iff distinctAddressRun (by decide +kernel) (by decide +kernel)).mpr ?_
    exact fun address _ => targetsAt_le_one (by decide +kernel) address
  obtain ⟨row, found, -, agrees⟩ := id honest
  obtain ⟨verifiedRow, verified, same⟩ := agrees distinctAddressCheck
  have copies : (distinctAddressRun.after.chunkProtection.get? abcHash).map
      (·.protectedRemoteCopies) = some 2 := by
    decide +kernel
  rw [found] at copies
  exact ⟨honest, row, verifiedRow, found, verified, same, Option.some.inj copies⟩

end Stopan.Replication
