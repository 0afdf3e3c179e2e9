import Stopan.Erasure.Verify

namespace Stopan.Erasure

open Stopan.Lib Stopan.Common Stopan.Protection Stopan.Metadata Stopan.Restore

/-- The outcome of a probe rests on the first `answered` batches and on what was answered to
them. -/
structure AddressProbeOutcome.RestsOn (outcome : AddressProbeOutcome)
    (batches : List (List ShardRef)) (reply : Nat → Except String (List ShardRef)) (answered : Nat)
    (failure : Option String) : Prop where
  completed : outcome.completedKeys = (batches.take answered).flatten
  confirmed : ∀ ref, outcome.confirms ref = true ↔
    ref ∈ outcome.completedKeys ∧ ref ∉ reportedFrom reply 0 answered
  error : outcome.error = failure

section Probe

variable {probeBatchHashes : Nat} {refs : List ShardRef} {answers : ShardProbeAnswers}

theorem restsOn_of_batches {completed missing : List ShardRef}
    {failure : Option String} {answered : Nat}
    (ran : askBatches (fun call => probeMissingShards (answers.probe call)) 0
      (iterBatches refs probeBatchHashes) [] [] = (completed, missing, failure))
    (whole : completed = ((iterBatches refs probeBatchHashes).take answered).flatten)
    (reported : missing = reportedFrom
      (fun call => probeMissingShards (answers.probe call)) 0 answered) :
    (probeAddress probeBatchHashes refs answers).RestsOn (iterBatches refs probeBatchHashes)
      (fun call => probeMissingShards (answers.probe call)) answered failure := by
  have shape : probeAddress probeBatchHashes refs answers =
      { completedKeys := completed, missingKeys := missing, error := failure,
        rpcFailedCalls := if failure.isSome then 1 else 0 } := by
    rw [probeAddress, ran]
  rw [shape]
  refine ⟨whole, ?_, rfl⟩
  intro ref
  rw [← reported]
  simp [AddressProbeOutcome.confirms]

/-- A probe that fails at some batch has the evidence of exactly the earlier batches. -/
theorem probeAddress_failed {failing : Nat} {reason : String}
    (inside : failing < (iterBatches refs probeBatchHashes).length)
    (earlier : ∀ call < failing, ∃ missing, probeMissingShards (answers.probe call) = .ok missing)
    (failed : probeMissingShards (answers.probe failing) = .error reason) :
    (probeAddress probeBatchHashes refs answers).RestsOn (iterBatches refs probeBatchHashes)
      (fun call => probeMissingShards (answers.probe call)) failing (some reason) := by
  have ran := @askBatches_failed _ _ (fun call => probeMissingShards (answers.probe call))
    (iterBatches refs probeBatchHashes)
    0 failing reason [] [] (by simpa using earlier) (by simpa using failed) inside
  exact restsOn_of_batches ran (by simp) (by simp)

/-- Without a failure every shard is completed. -/
theorem probeAddress_finished (answered : ∀ call < (iterBatches refs probeBatchHashes).length,
      ∃ missing, probeMissingShards (answers.probe call) = .ok missing) :
    (probeAddress probeBatchHashes refs answers).RestsOn (iterBatches refs probeBatchHashes)
      (fun call => probeMissingShards (answers.probe call))
        (iterBatches refs probeBatchHashes).length none := by
  have ran := @askBatches_finished _ _ (fun call => probeMissingShards (answers.probe call))
    (iterBatches refs probeBatchHashes) 0 [] [] (by simpa using answered)
  exact restsOn_of_batches ran (by simp) (by simp)

end Probe

/-- The rows of a pack that are asked about at an address. -/
def AskedAt (db : MetadataDB) (nodeAddresses : Dict Text Text) (packHash address : Text)
    (ref : ShardRef) : Prop :=
  ∃ row ∈ db.getErasurePackShards packHash, nodeAddresses.get? row.nodeId = some address ∧
    createShardRef packHash row.shardIndex row.shardHash = .ok ref

section Plan

variable {db : MetadataDB} {nodeAddresses : Dict Text Text}
  {packHash address : Text} {ref : ShardRef}

theorem addShardTarget_ok {groups next : ShardTargetGroups} {row : ErasureShardEntry}
    (added : addShardTarget packHash nodeAddresses groups row = .ok next) :
    ref ∈ (next.refsByAddress.get? address).getD [] ↔
      ref ∈ (groups.refsByAddress.get? address).getD [] ∨
      nodeAddresses.get? row.nodeId = some address ∧
        createShardRef packHash row.shardIndex row.shardHash = .ok ref := by
  unfold addShardTarget at added
  cases located : nodeAddresses.get? row.nodeId with
  | none =>
      rw [located] at added
      cases added
      simp
  | some target =>
      rw [located] at added
      obtain ⟨created, made, added⟩ := bind_eq_ok_iff.mp added
      cases pure_eq_ok_iff.mp added
      rw [Dict.get?_modify, made]
      by_cases here : address = target
      · subst here
        simp [eq_comm]
      · have elsewhere : ¬ target = address := fun same => here same.symm
        simp [here, elsewhere]

theorem mem_groupErasureShardRefsByAddress {rows : List ErasureShardEntry}
    {groups : ShardTargetGroups}
    (grouped : groupErasureShardRefsByAddress packHash nodeAddresses rows = .ok groups) :
    ref ∈ (groups.refsByAddress.get? address).getD [] ↔
      ∃ row ∈ rows, nodeAddresses.get? row.nodeId = some address ∧
        createShardRef packHash row.shardIndex row.shardHash = .ok ref := by
  have folded : ∀ (rows : List ErasureShardEntry) (start stop : ShardTargetGroups),
      rows.foldlM (addShardTarget packHash nodeAddresses) start = .ok stop →
      (ref ∈ (stop.refsByAddress.get? address).getD [] ↔
        ref ∈ (start.refsByAddress.get? address).getD [] ∨
        ∃ row ∈ rows, nodeAddresses.get? row.nodeId = some address ∧
          createShardRef packHash row.shardIndex row.shardHash = .ok ref) := by
    intro rows
    induction rows with
    | nil =>
        intro start stop ran
        cases pure_eq_ok_iff.mp ran
        simp
    | cons row rest ih =>
        intro start stop ran
        rw [List.foldlM_cons] at ran
        obtain ⟨middle, first, others⟩ := bind_eq_ok_iff.mp ran
        rw [ih middle stop others, addShardTarget_ok first, or_assoc, List.exists_mem_cons_iff]
  simpa using folded rows _ groups grouped

/-- Merging the refs of a pack keeps those of the other packs. -/
theorem mem_mergeRefs (added work : Dict Text (List ShardRef)) :
    ref ∈ ((added.entries.foldl
      (fun table target => table.modify target.1 [] (· ++ target.2)) work).get? address).getD [] ↔
      ref ∈ (work.get? address).getD [] ∨ ref ∈ (added.get? address).getD [] := by
  rw [Dict.get?_foldl_group, List.mem_append]
  apply or_congr_right
  rw [List.mem_flatMap]
  constructor
  · rintro ⟨entry, stored, inside⟩
    obtain ⟨member, here⟩ := List.mem_filter.mp stored
    have located : added.get? address = some entry.2 :=
      Dict.get?_eq_some_iff.mpr (of_decide_eq_true here ▸ member)
    rw [located]
    exact inside
  · intro inside
    cases found : added.get? address with
    | none => simp [found] at inside
    | some refs =>
        rw [found] at inside
        exact ⟨(address, refs),
          List.mem_filter.mpr ⟨Dict.get?_eq_some_iff.mp found, decide_eq_true rfl⟩, inside⟩

/-- The accumulator of a pack before any probe. -/
def freshAccumulator (db : MetadataDB) (nodeAddresses : Dict Text Text)
    (pack : ErasureDataPackRecord) :
    PackVerificationAccumulator where
  pack := pack
  totalShards := pack.2.dataShards + pack.2.parityShards
  verifiedShardIndexes := ∅
  errors := offlineErrors nodeAddresses (db.getErasurePackShards pack.1)
  metadataComplete := true

theorem planPack_ok {plan next : PackVerificationPlan} {pack : ErasureDataPackRecord}
    (complete : erasureShardMetadataError (db.getErasurePackShards pack.1)
      (pack.2.dataShards + pack.2.parityShards) = none)
    (planned : planPack db nodeAddresses plan pack = .ok next) :
    next.accumulators = plan.accumulators.set pack.1 (freshAccumulator db nodeAddresses pack) ∧
      ∀ address ref, ref ∈ next.planned address ↔
        ref ∈ plan.planned address ∨ AskedAt db nodeAddresses pack.1 address ref := by
  simp only [planPack, complete] at planned
  cases grouped : groupErasureShardRefsByAddress pack.1 nodeAddresses
    (db.getErasurePackShards pack.1) with
  | error reason => simp [grouped] at planned
  | ok groups =>
      rw [grouped] at planned
      cases planned
      refine ⟨rfl, ?_⟩
      intro address ref
      rw [PackVerificationPlan.planned, mem_mergeRefs, mem_groupErasureShardRefsByAddress grouped]
      rfl

theorem foldlM_planPack_ok {candidates : List ErasureDataPackRecord}
    {plan final : PackVerificationPlan} (complete : ∀ pack ∈ candidates,
      erasureShardMetadataError (db.getErasurePackShards pack.1)
        (pack.2.dataShards + pack.2.parityShards) = none)
    (distinct : (candidates.map Prod.fst).Nodup)
    (planned : candidates.foldlM (planPack db nodeAddresses) plan = .ok final) :
    (∀ pack ∈ candidates, final.accumulators.get? pack.1 = some
      (freshAccumulator db nodeAddresses pack)) ∧ (∀ packHash, packHash ∉ candidates.map Prod.fst →
        final.accumulators.get? packHash = plan.accumulators.get? packHash) ∧
      ∀ address ref, ref ∈ final.planned address ↔
        ref ∈ plan.planned address ∨
          ∃ pack ∈ candidates, AskedAt db nodeAddresses pack.1 address ref := by
  induction candidates generalizing plan with
  | nil =>
      cases pure_eq_ok_iff.mp planned
      simp
  | cons pack rest ih =>
      rw [List.foldlM_cons] at planned
      obtain ⟨middle, first, others⟩ := bind_eq_ok_iff.mp planned
      rw [List.map_cons, List.nodup_cons] at distinct
      obtain ⟨accumulators, refs⟩ := planPack_ok (complete pack (by simp)) first
      obtain ⟨fresh, kept, asked⟩ :=
        ih (fun other member => complete other (by simp [member])) distinct.2 others
      refine ⟨?_, ?_, ?_⟩
      · intro other member
        rcases List.mem_cons.mp member with rfl | later
        · rw [kept _ distinct.1, accumulators, Dict.get?_set_self]
        · exact fresh other later
      · intro packHash absent
        rw [List.map_cons, List.mem_cons, not_or] at absent
        rw [kept packHash absent.2, accumulators, Dict.get?_set_of_ne _ _ absent.1]
      · intro address ref
        rw [asked, refs, or_assoc, List.exists_mem_cons_iff]

end Plan

/-- The same pack with more verified indexes, and with whatever errors. -/
structure PackVerificationAccumulator.Gains (before after : PackVerificationAccumulator)
    (gained : Nat → Prop) : Prop where
  pack : after.pack = before.pack
  total : after.totalShards = before.totalShards
  complete : after.metadataComplete = before.metadataComplete
  verified : ∀ index, index ∈ after.verifiedShardIndexes ↔ index ∈ before.verifiedShardIndexes ∨
    gained index

section Accumulators

variable {packHash : Text} {accumulator : PackVerificationAccumulator}
  {table : Dict Text PackVerificationAccumulator}

theorem PackVerificationAccumulator.Gains.refl : accumulator.Gains accumulator fun _ => False :=
  ⟨rfl, rfl, rfl, by simp⟩

theorem PackVerificationAccumulator.Gains.trans {before middle after : PackVerificationAccumulator}
    {first second : Nat → Prop} (left : before.Gains middle first)
    (right : middle.Gains after second) :
    before.Gains after fun index => first index ∨ second index where
  pack := right.pack.trans left.pack
  total := right.total.trans left.total
  complete := right.complete.trans left.complete
  verified index := by rw [right.verified, left.verified, or_assoc]

theorem PackVerificationAccumulator.Gains.congr {before after : PackVerificationAccumulator}
    {first second : Nat → Prop} (gains : before.Gains after first)
    (same : ∀ index, first index ↔ second index) : before.Gains after second :=
  { gains with verified := fun index => by rw [gains.verified, same] }

theorem addPackError_gains {message : String} {other : Text}
    (found : table.get? packHash = some accumulator) :
    ∃ updated, (addPackError message table other).get? packHash = some updated ∧
      accumulator.Gains updated fun _ => False := by
  rw [addPackError, Dict.get?_adjust]
  split
  · rename_i same
    rw [← same, found]
    exact ⟨_, rfl, rfl, rfl, rfl, by simp⟩
  · exact ⟨accumulator, found, .refl⟩

theorem foldl_gains_nothing {α : Type}
    {step : Dict Text PackVerificationAccumulator → α → Dict Text PackVerificationAccumulator}
    (single : ∀ table item accumulator, table.get? packHash = some accumulator →
      ∃ updated, (step table item).get? packHash = some updated ∧
        accumulator.Gains updated fun _ => False)
    (items : List α) (found : table.get? packHash = some accumulator) :
    ∃ updated, (items.foldl step table).get? packHash = some updated ∧ accumulator.Gains updated
      fun _ => False := by
  induction items generalizing table accumulator with
  | nil => exact ⟨accumulator, found, .refl⟩
  | cons item rest ih =>
      obtain ⟨middle, middleFound, first⟩ := single table item accumulator found
      obtain ⟨updated, final, others⟩ := ih middleFound
      exact ⟨updated, final, (first.trans others).congr (by simp)⟩

theorem addVerified_gains {outcome : AddressProbeOutcome} {refs : List ShardRef}
    (found : table.get? packHash = some accumulator) :
    ∃ updated, (refs.foldl (addVerified outcome) table).get? packHash = some updated ∧
      accumulator.Gains updated fun index =>
        ∃ ref ∈ refs, outcome.confirms ref = true ∧ ref.packHash = packHash ∧
          ref.shardIndex = index := by
  induction refs generalizing table accumulator with
  | nil => exact ⟨accumulator, found, PackVerificationAccumulator.Gains.refl.congr (by simp)⟩
  | cons ref rest ih =>
      have first : ∃ middle, (addVerified outcome table ref).get? packHash = some middle ∧
          accumulator.Gains middle fun index =>
            outcome.confirms ref = true ∧ ref.packHash = packHash ∧ ref.shardIndex = index := by
        unfold addVerified
        split
        · rename_i confirmed
          rw [Dict.get?_adjust]
          split
          · rename_i same
            rw [← same, found]
            refine ⟨_, rfl, rfl, rfl, rfl, ?_⟩
            intro index
            simp [confirmed, same, or_comm, eq_comm]
          · rename_i other
            have different : ref.packHash ≠ packHash := fun same => other same.symm
            exact ⟨accumulator, found, PackVerificationAccumulator.Gains.refl.congr
              (by simp [different])⟩
        · rename_i unconfirmed
          exact ⟨accumulator, found, PackVerificationAccumulator.Gains.refl.congr
            (by simp [unconfirmed])⟩
      obtain ⟨middle, middleFound, gained⟩ := first
      obtain ⟨updated, final, others⟩ := ih middleFound
      refine ⟨updated, final, (gained.trans others).congr ?_⟩
      intro index
      rw [List.exists_mem_cons_iff]

variable {probeBatchHashes : Nat} {plan : PackVerificationPlan} {answers : Text → ShardProbeAnswers}

/-- An address adds to a pack the indexes of the shards that it confirmed. -/
theorem applyAddressOutcome_gains (address : Text)
    (found : table.get? packHash = some accumulator) :
    ∃ updated, (applyAddressOutcome probeBatchHashes plan answers table address).get? packHash =
      some updated ∧ accumulator.Gains updated fun index => ∃ ref ∈ plan.planned address,
        (completedProbe probeBatchHashes plan answers address).confirms ref = true ∧
          ref.packHash = packHash ∧ ref.shardIndex = index := by
  obtain ⟨verified, verifiedFound, gained⟩ := @addVerified_gains packHash accumulator table
    (completedProbe probeBatchHashes plan answers address) (plan.planned address) found
  obtain ⟨reported, reportedFound, missing⟩ := foldl_gains_nothing
    (fun _ _ _ present => addPackError_gains present)
    (missingByPack (completedProbe probeBatchHashes plan answers address)
      (plan.planned address)).entries verifiedFound
  unfold applyAddressOutcome reportUnprobed
  dsimp only
  split
  · exact ⟨reported, reportedFound, (gained.trans missing).congr (by simp)⟩
  · obtain ⟨updated, final, unprobed⟩ :=
      foldl_gains_nothing (fun _ _ _ present => addPackError_gains present) _ reportedFound
    exact ⟨updated, final, ((gained.trans missing).trans unprobed).congr (by simp)⟩

theorem foldl_applyAddressOutcome_gains (order : List Text)
    (found : table.get? packHash = some accumulator) :
    ∃ updated, (order.foldl (applyAddressOutcome probeBatchHashes plan answers) table).get?
      packHash = some updated ∧
      accumulator.Gains updated fun index => ∃ address ∈ order, ∃ ref ∈ plan.planned address,
        (completedProbe probeBatchHashes plan answers address).confirms ref = true ∧
          ref.packHash = packHash ∧ ref.shardIndex = index := by
  induction order generalizing table accumulator with
  | nil => exact ⟨accumulator, found, PackVerificationAccumulator.Gains.refl.congr (by simp)⟩
  | cons address rest ih =>
      obtain ⟨middle, middleFound, first⟩ :=
        @applyAddressOutcome_gains packHash accumulator table probeBatchHashes plan
        answers address found
      obtain ⟨updated, final, others⟩ := ih middleFound
      refine ⟨updated, final, (first.trans others).congr ?_⟩
      intro index
      rw [List.exists_mem_cons_iff]

end Accumulators

/-- The address of the shard's recorded node was asked about the shard and did not report it
missing. -/
def ShardReported (nodeAddresses : Dict Text Text) (probeBatchHashes : Nat)
    (plan : PackVerificationPlan)
    (answers : Text → ShardProbeAnswers) (packHash : Text) (row : ErasureShardEntry) : Prop :=
  ∃ address, nodeAddresses.get? row.nodeId = some address ∧
    ∃ ref, createShardRef packHash row.shardIndex row.shardHash = .ok ref ∧
      ref ∈ (completedProbe probeBatchHashes plan answers address).completedKeys ∧
      ref ∉ (completedProbe probeBatchHashes plan answers address).missingKeys

section Verdicts

variable {db : MetadataDB} {nodeAddresses : Dict Text Text}
  {candidates : List ErasureDataPackRecord}
  {plan : PackVerificationPlan} {probeBatchHashes : Nat} {answers : Text → ShardProbeAnswers}
  {order : List Text}
  {pack : ErasureDataPackRecord}

theorem confirms_iff {outcome : AddressProbeOutcome} {ref : ShardRef} :
    outcome.confirms ref = true ↔ ref ∈ outcome.completedKeys ∧ ref ∉ outcome.missingKeys := by
  simp [AddressProbeOutcome.confirms]

theorem createShardRef_ok {packHash shardHash : Text} {shardIndex : Nat} {ref : ShardRef}
    (valid : isValidBlake3Hex packHash = true)
    (created : createShardRef packHash shardIndex shardHash = .ok ref) :
    ref.packHash = packHash ∧ ref.shardIndex = shardIndex := by
  rw [createShardRef, requireHash_of_valid valid] at created
  obtain ⟨packHash, same, created⟩ := bind_eq_ok_iff.mp created
  obtain ⟨shardHash, -, created⟩ := bind_eq_ok_iff.mp created
  cases same
  cases pure_eq_ok_iff.mp created
  exact ⟨rfl, rfl⟩

/-- A sound catalog has no pack whose shard rows are incoherent. -/
theorem shardMetadata_complete (sound : db.ErasureSound)
    (stored : db.getErasureDataPack pack.1 = some pack.2) :
    erasureShardMetadataError (db.getErasurePackShards pack.1)
      (pack.2.dataShards + pack.2.parityShards) = none := by
  have layout := sound.layout pack.1 pack.2 stored
  have indexes : ((db.getErasurePackShards pack.1).map (·.shardIndex)).insertionSort (· ≤ ·) =
      List.range (pack.2.dataShards + pack.2.parityShards) := by
    rw [layout.indexes]
    exact List.Pairwise.insertionSort_eq List.pairwise_le_range
  simp only [erasureShardMetadataError, indexes, ne_eq, not_true_eq_false, if_false]
  rw [if_neg (not_not.mpr layout.nodes)]

/-- The indexes verified by a whole run are those of the reported rows, in whatever order the
addresses completed. -/
theorem verifiedIndexes_iff
    (asked : ∀ address ref, ref ∈ plan.planned address ↔
      ∃ pack ∈ candidates, AskedAt db nodeAddresses pack.1 address ref)
    (valid : ∀ pack ∈ candidates, isValidBlake3Hex pack.1 = true) (member : pack ∈ candidates)
    (completed : order.Perm plan.refsByAddress.keys) (index : Nat) :
    (∃ address ∈ order, ∃ ref ∈ plan.planned address,
        (completedProbe probeBatchHashes plan answers address).confirms ref = true ∧
          ref.packHash = pack.1 ∧ ref.shardIndex = index) ↔
      ∃ row ∈ db.getErasurePackShards pack.1, row.shardIndex = index ∧
        ShardReported nodeAddresses probeBatchHashes plan answers pack.1 row := by
  constructor
  · rintro ⟨address, -, ref, planned, confirmed, samePack, rfl⟩
    obtain ⟨other, listed, row, stored, located, created⟩ := (asked address ref).mp planned
    obtain ⟨named, numbered⟩ := createShardRef_ok (valid other listed) created
    rw [named] at samePack
    rw [samePack] at stored created
    exact ⟨row, stored, numbered.symm, address, located, ref, created, confirms_iff.mp confirmed⟩
  · rintro ⟨row, stored, rfl, address, located, ref, created, evidence⟩
    have planned : ref ∈ plan.planned address :=
      (asked address ref).mpr ⟨pack, member, row, stored, located, created⟩
    have working : address ∈ plan.refsByAddress.keys := by
      unfold PackVerificationPlan.planned at planned
      cases found : plan.refsByAddress.get? address with
      | none => simp [found] at planned
      | some refs => exact (Dict.mem_keys_iff ..).mpr ⟨refs, found⟩
    obtain ⟨named, numbered⟩ := createShardRef_ok (valid pack member) created
    exact ⟨address, completed.mem_iff.mpr working, ref, planned,
      confirms_iff.mpr evidence, named, numbered⟩

theorem dataPackState_ne_verified {confirmed dataShards totalShards : Nat} :
    dataPackState confirmed dataShards totalShards ≠ .verified := by
  unfold dataPackState protectionStateFromThresholds
  split
  · exact fun same => nomatch same
  · split <;> exact fun same => nomatch same

/-- A pack is verified exactly when each of its rows is reported. -/
theorem outcome_verified_iff {accumulator : PackVerificationAccumulator}
    {reported : ErasureShardEntry → Prop}
    {rows : List ErasureShardEntry} (complete : accumulator.metadataComplete = true)
    (indexes : rows.map (·.shardIndex) = List.range accumulator.totalShards)
    (verified : ∀ index, index ∈ accumulator.verifiedShardIndexes ↔
      ∃ row ∈ rows, row.shardIndex = index ∧ reported row) :
    accumulator.outcome.protectionState = .verified ↔ ∀ row ∈ rows, reported row := by
  have distinct : (rows.map (·.shardIndex)).Nodup := indexes ▸ List.nodup_range
  have within : accumulator.verifiedShardIndexes ⊆ Finset.range accumulator.totalShards := by
    intro index inside
    obtain ⟨row, member, rfl, -⟩ := (verified index).mp inside
    have listed : row.shardIndex ∈ rows.map (·.shardIndex) := List.mem_map_of_mem member
    rw [indexes] at listed
    exact Finset.mem_range.mpr (List.mem_range.mp listed)
  have state : accumulator.outcome.protectionState = .verified ↔
      accumulator.totalShards ≤ accumulator.verifiedShardIndexes.card := by
    simp only [PackVerificationAccumulator.outcome, complete, Bool.not_true,
      Bool.false_eq_true, if_false]
    split
    · rename_i enough
      simp [enough]
    · rename_i few
      exact iff_of_false dataPackState_ne_verified few
  rw [state]
  constructor
  · intro enough row member
    have whole : accumulator.verifiedShardIndexes = Finset.range accumulator.totalShards :=
      Finset.eq_of_subset_of_card_le within (by rwa [Finset.card_range])
    have listed : row.shardIndex ∈ rows.map (·.shardIndex) := List.mem_map_of_mem member
    rw [indexes] at listed
    have inside : row.shardIndex ∈ accumulator.verifiedShardIndexes := by
      rw [whole]
      exact Finset.mem_range.mpr (List.mem_range.mp listed)
    obtain ⟨other, present, same, confirmed⟩ := (verified _).mp inside
    have equal : other = row := List.inj_on_of_nodup_map distinct present member same
    exact equal ▸ confirmed
  · intro all
    have whole : Finset.range accumulator.totalShards ⊆ accumulator.verifiedShardIndexes := by
      intro index inside
      have listed : index ∈ rows.map (·.shardIndex) := by
        rw [indexes]
        exact List.mem_range.mpr (Finset.mem_range.mp inside)
      obtain ⟨row, member, rfl⟩ := List.mem_map.mp listed
      exact (verified _).mpr ⟨row, member, rfl, all row member⟩
    simpa using Finset.card_le_card whole

end Verdicts

section Recorded

variable {db after : MetadataDB} {now : PyFloat}

theorem applyErasureDataPackVerificationUpdate_state {update : ErasureDataPackVerificationUpdate}
    (valid : isValidBlake3Hex update.packHash = true)
    (applied : MetadataDB.applyErasureDataPackVerificationUpdate now db update = .ok after) :
    (∃ row, after.getErasureDataPack update.packHash = some row ∧
      row.protectionState = update.protectionState) ∧
      ∀ other, other ≠ update.packHash →
        after.getErasureDataPack other = db.getErasureDataPack other := by
  rw [MetadataDB.applyErasureDataPackVerificationUpdate, requireHash64_of_valid valid] at applied
  obtain ⟨packHash, same, applied⟩ := bind_eq_ok_iff.mp applied
  cases same
  obtain ⟨-, applied⟩ := ensure_bind_eq_ok_iff.mp applied
  obtain ⟨indexes, -, applied⟩ := bind_eq_ok_iff.mp applied
  cases stored : db.getErasureDataPack update.packHash with
  | none => simp [stored] at applied
  | some existing =>
      simp only [stored, bind_eq_ok_iff, pure_eq_ok_iff] at applied
      obtain ⟨-, -, rfl⟩ := applied
      constructor
      · exact ⟨_, Dict.get?_set_self .., rfl⟩
      · intro other different
        exact Dict.get?_set_of_ne _ _ different

/-- Updates of distinct packs each leave their state. -/
theorem applyErasureDataPackVerifications_state {updates : List ErasureDataPackVerificationUpdate}
    (valid : ∀ update ∈ updates, isValidBlake3Hex update.packHash = true)
    (distinct : (updates.map (·.packHash)).Nodup)
    (applied : db.applyErasureDataPackVerifications updates now = .ok after) :
    (∀ update ∈ updates, ∃ row, after.getErasureDataPack update.packHash = some row ∧
      row.protectionState = update.protectionState) ∧
      ∀ other, other ∉ updates.map (·.packHash) →
        after.getErasureDataPack other = db.getErasureDataPack other := by
  unfold MetadataDB.applyErasureDataPackVerifications at applied
  induction updates generalizing db with
  | nil =>
      cases pure_eq_ok_iff.mp applied
      simp
  | cons update rest ih =>
      rw [List.foldlM_cons] at applied
      obtain ⟨middle, first, others⟩ := bind_eq_ok_iff.mp applied
      rw [List.map_cons, List.nodup_cons] at distinct
      obtain ⟨⟨row, stored, state⟩, kept⟩ :=
        applyErasureDataPackVerificationUpdate_state (valid update (by simp)) first
      obtain ⟨later, untouched⟩ :=
        ih (fun other member => valid other (by simp [member])) distinct.2 others
      constructor
      · intro other member
        rcases List.mem_cons.mp member with rfl | inRest
        · exact ⟨row, (untouched _ distinct.1).trans stored, state⟩
        · exact later other inRest
      · intro other absent
        rw [List.map_cons, List.mem_cons, not_or] at absent
        rw [untouched other absent.2, kept other absent.1]

end Recorded

section Runs

variable {db after : MetadataDB} {now : PyFloat} {nodeAddresses : Dict Text Text}
  {candidates : List ErasureDataPackRecord} {plan : PackVerificationPlan} {probeBatchHashes : Nat}
  {answers : Text → ShardProbeAnswers} {order : List Text} {pack : ErasureDataPackRecord}

/-- The accumulators once every address has completed. -/
def finalAccumulators (probeBatchHashes : Nat) (plan : PackVerificationPlan)
    (answers : Text → ShardProbeAnswers)
    (order : List Text) : Dict Text PackVerificationAccumulator :=
  order.foldl (applyAddressOutcome probeBatchHashes plan answers) plan.accumulators

/-- The accumulator of a pack in the end has the indexes of the reported rows. -/
theorem finalAccumulators_get? (sound : db.ErasureSound)
    (valid : ∀ pack ∈ candidates, isValidBlake3Hex pack.1 = true)
    (distinct : (candidates.map Prod.fst).Nodup)
    (stored : ∀ pack ∈ candidates, db.getErasureDataPack pack.1 = some pack.2)
    (planned : planPacks db nodeAddresses candidates = .ok plan)
    (completed : order.Perm plan.refsByAddress.keys) (member : pack ∈ candidates) :
    ∃ accumulator, (finalAccumulators probeBatchHashes plan answers order).get? pack.1 =
      some accumulator ∧
      accumulator.totalShards = pack.2.dataShards + pack.2.parityShards ∧
      accumulator.metadataComplete = true ∧
      ∀ index, index ∈ accumulator.verifiedShardIndexes ↔ ∃ row ∈ db.getErasurePackShards pack.1,
        row.shardIndex = index ∧
          ShardReported nodeAddresses probeBatchHashes plan answers pack.1 row := by
  have complete : ∀ pack ∈ candidates, erasureShardMetadataError (db.getErasurePackShards pack.1)
      (pack.2.dataShards + pack.2.parityShards) = none :=
        fun pack member => shardMetadata_complete sound (stored pack member)
  unfold planPacks at planned
  obtain ⟨-, -, built⟩ := bind_eq_ok_iff.mp planned
  obtain ⟨fresh, -, asked⟩ := foldlM_planPack_ok complete distinct built
  have askedOnly : ∀ address ref, ref ∈ plan.planned address ↔
      ∃ pack ∈ candidates, AskedAt db nodeAddresses pack.1 address ref := by
    intro address ref
    rw [asked]
    simp [PackVerificationPlan.planned]
  obtain ⟨accumulator, found, gains⟩ :=
    @foldl_applyAddressOutcome_gains pack.1 (freshAccumulator db nodeAddresses pack)
    plan.accumulators probeBatchHashes plan answers order (fresh pack member)
  refine ⟨accumulator, found, gains.total, gains.complete, ?_⟩
  intro index
  rw [gains.verified, verifiedIndexes_iff askedOnly valid member completed]
  simp [freshAccumulator]

/-- What a verification writes: an update for each candidate, from its accumulator in the end. -/
theorem verifyPacks_eq (sound : db.ErasureSound)
    (valid : ∀ pack ∈ candidates, isValidBlake3Hex pack.1 = true)
    (distinct : (candidates.map Prod.fst).Nodup)
    (stored : ∀ pack ∈ candidates, db.getErasureDataPack pack.1 = some pack.2)
    (planned : planPacks db nodeAddresses candidates = .ok plan)
    (completed : order.Perm plan.refsByAddress.keys) :
    ∃ updates, verifyPacks db nodeAddresses candidates probeBatchHashes answers order now =
        db.applyErasureDataPackVerifications updates now ∧
      updates.map (·.packHash) = candidates.map Prod.fst ∧
      ∀ update, update ∈ updates ↔ ∃ pack ∈ candidates, ∃ accumulator,
        (finalAccumulators probeBatchHashes plan answers order).get? pack.1 = some accumulator ∧
          update = packUpdate pack accumulator.outcome := by
  have final : ∀ pack ∈ candidates, ∃ accumulator,
      (finalAccumulators probeBatchHashes plan answers order).get? pack.1 = some accumulator := by
    intro pack member
    obtain ⟨accumulator, found, -⟩ :=
      @finalAccumulators_get? db nodeAddresses candidates plan probeBatchHashes answers
      order pack sound valid distinct stored planned completed member
    exact ⟨accumulator, found⟩
  refine ⟨candidates.filterMap fun pack =>
    ((finalAccumulators probeBatchHashes plan answers order).get? pack.1).map fun accumulator =>
      packUpdate pack accumulator.outcome, ?_, ?_, ?_⟩
  · unfold verifyPacks
    split
    · rename_i none
      rw [List.isEmpty_iff.mp none]
      rfl
    · rw [planned]
      rfl
  · clear planned stored valid distinct
    induction candidates with
    | nil => rfl
    | cons first rest ih =>
        obtain ⟨accumulator, found⟩ := final first (by simp)
        rw [List.filterMap_cons, found, Option.map_some, List.map_cons, List.map_cons,
          ih fun pack member => final pack (by simp [member])]
        rfl
  · intro update
    simp only [List.mem_filterMap, Option.map_eq_some_iff]
    constructor
    · rintro ⟨pack, member, accumulator, found, same⟩
      exact ⟨pack, member, accumulator, found, same.symm⟩
    · rintro ⟨pack, member, accumulator, found, same⟩
      exact ⟨pack, member, accumulator, found, same.symm⟩

/-- A pack becomes VERIFIED exactly when each of its recorded shards was reported by the address of
its node. -/
theorem verifyPacks_verified_iff (sound : db.ErasureSound)
    (valid : ∀ pack ∈ candidates, isValidBlake3Hex pack.1 = true)
    (distinct : (candidates.map Prod.fst).Nodup)
    (stored : ∀ pack ∈ candidates, db.getErasureDataPack pack.1 = some pack.2)
    (planned : planPacks db nodeAddresses candidates = .ok plan)
    (completed : order.Perm plan.refsByAddress.keys)
    (verified : verifyPacks db nodeAddresses candidates probeBatchHashes answers order now =
      .ok after)
    (member : pack ∈ candidates) :
    ∃ row, after.getErasureDataPack pack.1 = some row ∧ (row.protectionState = .verified ↔
      ∀ shard ∈ db.getErasurePackShards pack.1,
        ShardReported nodeAddresses probeBatchHashes plan answers pack.1 shard) := by
  obtain ⟨updates, written, names, listed⟩ :=
    @verifyPacks_eq db now nodeAddresses candidates plan probeBatchHashes
    answers order sound valid distinct stored planned completed
  obtain ⟨accumulator, found, total, complete, indexes⟩ :=
    @finalAccumulators_get? db nodeAddresses candidates plan
    probeBatchHashes answers order pack sound valid distinct stored planned completed member
  have updatesValid : ∀ update ∈ updates, isValidBlake3Hex update.packHash = true := by
    intro update inside
    obtain ⟨other, present, accumulator, -, rfl⟩ := (listed update).mp inside
    exact valid other present
  rw [written] at verified
  obtain ⟨recorded, -⟩ :=
    applyErasureDataPackVerifications_state updatesValid (names ▸ distinct) verified
  obtain ⟨row, present, state⟩ :=
    recorded _ ((listed _).mpr ⟨pack, member, accumulator, found, rfl⟩)
  refine ⟨row, present, ?_⟩
  have stateEq : row.protectionState = accumulator.outcome.protectionState := state
  rw [stateEq]
  refine outcome_verified_iff complete ?_ indexes
  rw [total]
  exact (sound.layout pack.1 pack.2 (stored pack member)).indexes

end Runs

end Stopan.Erasure
