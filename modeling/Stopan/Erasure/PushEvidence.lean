import Stopan.Erasure.RoundTrip
import Stopan.Erasure.ShardPush

namespace Stopan.Erasure

open Stopan.Lib Stopan.Common Stopan.Protection

/-- How one shard of a push is counted. -/
inductive ShardFate where
  | stored
  | alreadyPresent
  | failed
  deriving DecidableEq, Repr

def ShardStoreResult.fate (result : ShardStoreResult) : ShardFate :=
  if result.status = .stored then .stored
  else if result.status = .alreadyPresent then .alreadyPresent
  else .failed

/-- The fate of a shard that was sent: that of the first result about it. -/
def ackFate (results : List ShardStoreResult) (ref : ShardRef) : Option ShardFate :=
  (results.find? fun result => result.ref = ref).map (·.fate)

theorem ackFate_cons_of_ne {result : ShardStoreResult} {results : List ShardStoreResult}
    {ref : ShardRef}
    (different : result.ref ≠ ref) : ackFate (result :: results) ref = ackFate results ref := by
  simp [ackFate, different]

theorem ackFate_cons_self (result : ShardStoreResult) (results : List ShardStoreResult) :
    ackFate (result :: results) result.ref = some result.fate := by
  simp [ackFate]

/-- The tally of some shards, each of which has one fate. -/
structure Tallies (fate : ShardRef → Option ShardFate) (refs : List ShardRef)
    (state after : AckState) : Prop where
  stored : after.stored = state.stored + refs.countP fun ref => fate ref = some .stored
  alreadyPresent : after.alreadyPresent = state.alreadyPresent + refs.countP
    fun ref => fate ref = some .alreadyPresent
  failed : (after.failed.map (·.2.ref)).Perm (state.failed.map (·.2.ref) ++ refs.filter
    fun ref => fate ref = some .failed)
  successful : ∀ index, index ∈ after.successful ↔ index ∈ state.successful ∨
    ∃ ref ∈ refs, ref.shardIndex = index ∧
      (fate ref = some .stored ∨ fate ref = some .alreadyPresent)
  acknowledged : ∀ ref ∈ refs, ref ∈ after.acknowledged ↔ (fate ref).isSome = true

theorem Tallies.congr {fate other : ShardRef → Option ShardFate} {refs : List ShardRef}
    {state after : AckState} (tallies : Tallies fate refs state after)
    (same : ∀ ref ∈ refs, fate ref = other ref) : Tallies other refs state after where
  stored := by
    have counted : (refs.countP fun ref => fate ref = some .stored) = refs.countP
        fun ref => other ref = some .stored :=
      List.countP_congr fun ref member => by rw [same ref member]
    rw [tallies.stored, counted]
  alreadyPresent := by
    have counted : (refs.countP fun ref => fate ref = some .alreadyPresent) =
        refs.countP fun ref => other ref = some .alreadyPresent :=
      List.countP_congr fun ref member => by rw [same ref member]
    rw [tallies.alreadyPresent, counted]
  failed := by
    have filtered : (refs.filter fun ref => fate ref = some .failed) = refs.filter
        fun ref => other ref = some .failed :=
      List.filter_congr fun ref member => by rw [same ref member]
    exact filtered ▸ tallies.failed
  successful := by
    intro index
    rw [tallies.successful]
    refine or_congr_right (exists_congr fun ref => and_congr_right fun member => ?_)
    rw [same ref member]
  acknowledged := fun ref member => same ref member ▸ tallies.acknowledged ref member

section Acknowledging

variable {address : Text} {expected : Finset ShardRef} {state : AckState}
  {result : ShardStoreResult}

theorem foldAck_of_ignored (ignored : result.ref ∉ expected ∨ result.ref ∈ state.acknowledged) :
    foldAck address expected state result = state :=
  if_pos ignored

/-- The first result about an expected shard decides its fate. -/
theorem foldAck_tallies (fresh : result.ref ∈ expected)
    (unknown : result.ref ∉ state.acknowledged) :
    Tallies (fun _ => some result.fate) [result.ref] state (foldAck address expected state result) ∧
      (foldAck address expected state result).acknowledged =
        insert result.ref state.acknowledged := by
  have counted : ¬ (result.ref ∉ expected ∨ result.ref ∈ state.acknowledged) := by
    simp [fresh, unknown]
  rw [foldAck, if_neg counted]
  by_cases stored : result.status = .stored
  · have fate : result.fate = .stored := by simp [ShardStoreResult.fate, stored]
    have success : result.isSuccess = true := by simp [ShardStoreResult.isSuccess, stored]
    simp only [success, stored, fate, if_true, and_true]
    refine ⟨by simp, by simp, by simp, ?_, by simp⟩
    intro index
    simp [Finset.mem_insert, or_comm, eq_comm]
  · by_cases present : result.status = .alreadyPresent
    · have fate : result.fate = .alreadyPresent := by simp [ShardStoreResult.fate, present]
      have success : result.isSuccess = true := by simp [ShardStoreResult.isSuccess, present]
      simp only [success, stored, fate, if_true, if_false, and_true]
      refine ⟨by simp, by simp, by simp, ?_, by simp⟩
      intro index
      simp [Finset.mem_insert, or_comm, eq_comm]
    · have fate : result.fate = .failed := by simp [ShardStoreResult.fate, stored, present]
      have failure : ¬ result.isSuccess = true := by
        simp [ShardStoreResult.isSuccess, stored, present]
      simp only [failure, fate]
      exact ⟨⟨by simp, by simp, by simp, by simp, by simp⟩, rfl⟩

theorem Tallies.trans {fate : ShardRef → Option ShardFate} {first rest : List ShardRef}
    {middle after : AckState}
    (earlier : Tallies fate first state middle) (later : Tallies fate rest middle after)
    (kept : ∀ ref ∈ first, ref ∈ after.acknowledged ↔ ref ∈ middle.acknowledged) :
    Tallies fate (first ++ rest) state after where
  stored := by rw [later.stored, earlier.stored, List.countP_append, Nat.add_assoc]
  alreadyPresent := by rw [later.alreadyPresent, earlier.alreadyPresent,
    List.countP_append, Nat.add_assoc]
  failed := by
    rw [List.filter_append, ← List.append_assoc]
    exact later.failed.trans (earlier.failed.append_right _)
  successful := by
    intro index
    rw [later.successful, earlier.successful, or_assoc]
    refine or_congr_right ?_
    simp only [List.mem_append, or_and_right, exists_or]
  acknowledged := by
    intro ref member
    rcases List.mem_append.mp member with inFirst | inRest
    · rw [kept ref inFirst]
      exact earlier.acknowledged ref inFirst
    · exact later.acknowledged ref inRest

theorem Tallies.perm {fate : ShardRef → Option ShardFate} {refs others : List ShardRef}
    {after : AckState} (tallies : Tallies fate refs state after) (same : refs.Perm others) :
    Tallies fate others state after where
  stored := by rw [tallies.stored, same.countP_eq]
  alreadyPresent := by rw [tallies.alreadyPresent, same.countP_eq]
  failed := tallies.failed.trans ((same.filter _).append_left _)
  successful := by
    intro index
    rw [tallies.successful]
    simp only [same.mem_iff]
  acknowledged := fun ref member => tallies.acknowledged ref (same.mem_iff.mpr member)

/-- A shard that no pending ref names keeps its acknowledgement. -/
theorem foldl_foldAck_acknowledged (results : List ShardStoreResult) {ref : ShardRef}
    (known : ref ∈ state.acknowledged) :
    ref ∈ (results.foldl (foldAck address expected) state).acknowledged := by
  induction results generalizing state with
  | nil => exact known
  | cons result rest ih =>
      rw [List.foldl_cons]
      apply ih
      by_cases ignored : result.ref ∉ expected ∨ result.ref ∈ state.acknowledged
      · rw [foldAck_of_ignored ignored]
        exact known
      · rw [not_or, not_not] at ignored
        rw [(foldAck_tallies ignored.1 ignored.2).2]
        exact Finset.mem_insert_of_mem known

/-- Over the whole stream every expected shard is counted by its first result, and only by it. -/
theorem foldl_foldAck_tallies (results : List ShardStoreResult) (pending : List ShardRef)
    (distinct : pending.Nodup)
    (waiting : ∀ ref, ref ∈ pending ↔ ref ∈ expected ∧ ref ∉ state.acknowledged) :
    Tallies (ackFate results) pending state (results.foldl (foldAck address expected) state) := by
  induction results generalizing state pending with
  | nil =>
      refine ⟨by simp [ackFate], by simp [ackFate], by simp [ackFate], by simp [ackFate], ?_⟩
      intro ref member
      simp [ackFate, ((waiting ref).mp member).2]
  | cons result rest ih =>
      rw [List.foldl_cons]
      by_cases ignored : result.ref ∉ expected ∨ result.ref ∈ state.acknowledged
      · rw [foldAck_of_ignored ignored]
        refine (ih pending distinct waiting).congr fun ref member => (ackFate_cons_of_ne ?_).symm
        rintro rfl
        have both := (waiting result.ref).mp member
        exact ignored.elim (fun outside => outside both.1) both.2
      · rw [not_or, not_not] at ignored
        obtain ⟨first, acknowledged⟩ :=
          @foldAck_tallies address expected state result ignored.1 ignored.2
        have member : result.ref ∈ pending := (waiting _).mpr ignored
        have remaining : ∀ ref, ref ∈ pending.erase result.ref ↔
            ref ∈ expected ∧ ref ∉ (foldAck address expected state result).acknowledged := by
          intro ref
          rw [distinct.mem_erase_iff, waiting, acknowledged, Finset.mem_insert, not_or]
          tauto
        have later := ih (pending.erase result.ref) (distinct.erase _) remaining
        have decided : Tallies (ackFate (result :: rest)) [result.ref] state
            (foldAck address expected state result) := by
          refine first.congr fun ref listed => ?_
          rw [List.mem_singleton.mp listed, ackFate_cons_self]
        have others : Tallies (ackFate (result :: rest)) (pending.erase result.ref)
            (foldAck address expected state result)
            (rest.foldl (foldAck address expected) (foldAck address expected state result)) := by
          refine later.congr fun ref listed => (ackFate_cons_of_ne ?_).symm
          exact Ne.symm (distinct.mem_erase_iff.mp listed).1
        refine (decided.trans others ?_).perm (List.perm_cons_erase member).symm
        intro ref listed
        rw [List.mem_singleton.mp listed]
        have known : result.ref ∈ (foldAck address expected state result).acknowledged := by
          rw [acknowledged]
          exact Finset.mem_insert_self ..
        exact ⟨fun _ => known, fun _ => foldl_foldAck_acknowledged rest known⟩

end Acknowledging

/-- Every one of the shards is counted once, by its fate. -/
structure Counts (fate : ShardRef → ShardFate) (refs : List ShardRef)
    (result : ShardPushResult) : Prop where
  stored : result.storedShards = refs.countP fun ref => fate ref = .stored
  alreadyPresent : result.alreadyPresentShards = refs.countP fun ref => fate ref = .alreadyPresent
  failed : (result.failedResults.map (·.2.ref)).Perm (refs.filter fun ref => fate ref = .failed)
  successful : ∀ index, index ∈ result.successfulIndexes ↔ ∃ ref ∈ refs, ref.shardIndex = index ∧
    fate ref ≠ .failed

section Counting

variable {fate : ShardRef → ShardFate} {refs others : List ShardRef} {result : ShardPushResult}

theorem counts_nil : Counts fate [] noShard where
  stored := rfl
  alreadyPresent := rfl
  failed := .refl _
  successful := by simp [noShard]

theorem Counts.perm (counts : Counts fate refs result) (same : refs.Perm others) :
    Counts fate others result where
  stored := by rw [counts.stored, same.countP_eq]
  alreadyPresent := by rw [counts.alreadyPresent, same.countP_eq]
  failed := counts.failed.trans (same.filter _)
  successful := by simpa only [same.mem_iff] using counts.successful

theorem Counts.congr {other : ShardRef → ShardFate} (counts : Counts fate refs result)
    (same : ∀ ref ∈ refs, fate ref = other ref) : Counts other refs result where
  stored := counts.stored.trans (List.countP_congr fun ref member => by rw [same ref member])
  alreadyPresent :=
    counts.alreadyPresent.trans (List.countP_congr fun ref member => by rw [same ref member])
  failed := by
    have filtered : (refs.filter fun ref => fate ref = .failed) = refs.filter
        fun ref => other ref = .failed :=
      List.filter_congr fun ref member => by rw [same ref member]
    exact filtered ▸ counts.failed
  successful := by
    intro index
    rw [counts.successful]
    refine exists_congr fun ref => and_congr_right fun member => ?_
    rw [same ref member]

theorem Counts.add {more : ShardPushResult} (counts : Counts fate refs result)
    (later : Counts fate others more) :
    Counts fate (refs ++ others) (result.add more) where
  stored := by rw [List.countP_append, ← counts.stored, ← later.stored, ShardPushResult.add]
  alreadyPresent := by rw [List.countP_append, ← counts.alreadyPresent, ← later.alreadyPresent,
    ShardPushResult.add]
  failed := by
    rw [List.filter_append, ShardPushResult.add, List.map_append]
    exact counts.failed.append later.failed
  successful := by
    intro index
    rw [ShardPushResult.add, Finset.mem_union, counts.successful, later.successful]
    simp only [List.mem_append, or_and_right, exists_or]

/-- All the shards fail, for whatever reason. -/
theorem counts_failed (address : Text) (status : ShardStoreStatus) (detail : String)
    (failed : ∀ ref ∈ refs, fate ref = .failed) :
    Counts fate refs
      { noShard with failedResults := refs.map (failedResult address status detail) } where
  stored := by
    symm
    rw [noShard, List.countP_eq_zero]
    exact fun ref member => by simp [failed ref member]
  alreadyPresent := by
    symm
    rw [noShard, List.countP_eq_zero]
    exact fun ref member => by simp [failed ref member]
  failed := by
    rw [List.map_map, List.filter_eq_self.mpr fun ref member => by simp [failed ref member]]
    simp [Function.comp_def, failedResult]
  successful := by
    intro index
    simp only [noShard, Finset.notMem_empty, false_iff, not_exists, not_and]
    exact fun ref member _ succeeds => succeeds (failed ref member)

theorem counts_present (present : ∀ ref ∈ refs, fate ref = .alreadyPresent) :
    Counts fate refs { noShard with
      successfulIndexes := (refs.map (·.shardIndex)).toFinset
      alreadyPresentShards := refs.length } where
  stored := by
    symm
    rw [noShard, List.countP_eq_zero]
    exact fun ref member => by simp [present ref member]
  alreadyPresent := by
    symm
    rw [List.countP_eq_length]
    exact fun ref member => by simp [present ref member]
  failed := by
    rw [List.filter_eq_nil_iff.mpr fun ref member => by simp [present ref member]]
    exact .refl _
  successful := by
    intro index
    simp only [List.mem_toFinset, List.mem_map]
    refine exists_congr fun ref => and_congr_right fun member => ?_
    simp [present ref member]

end Counting

theorem filter_mem_eq_card {refs : List ShardRef} {missing : Finset ShardRef}
    (distinct : refs.Nodup) (listed : ∀ ref ∈ missing, ref ∈ refs) :
    (refs.filter fun ref => ref ∈ missing).length = missing.card := by
  have same : (refs.filter fun ref => ref ∈ missing).toFinset = missing := by
    ext ref
    simp only [List.mem_toFinset, List.mem_filter, decide_eq_true_eq]
    exact ⟨fun both => both.2, fun member => ⟨listed ref member, member⟩⟩
  rw [← List.toFinset_card_of_nodup (distinct.filter _), same]

/-- What follows for a shard from the list of missing shards and the results of the stream. -/
def sentFate (maxMessageBytes : Int) (answer : TargetAnswer) (batch : TargetBatch)
    (missingRefs : List ShardRef) (ref : ShardRef) : ShardFate :=
  if ref ∈ missingRefs then
    (ackFate (replicateShards maxMessageBytes answer
      (batch.payloads.filter fun item => item.ref ∈ missingRefs)).1 ref).getD .failed
  else .alreadyPresent

/-- What the target has to say about one shard of its batch. -/
def batchFate (maxMessageBytes : Int) (answer : TargetAnswer) (batch : TargetBatch)
    (ref : ShardRef) : ShardFate :=
  match answer.taskError, probeMissingShards answer with
  | none, .ok missingRefs => sentFate maxMessageBytes answer batch missingRefs ref
  | _, _ => .failed

/-- The shards that were there, the answers about those that were sent and the shards without an
answer make up the batch. -/
theorem Counts.of_tallies {fate : ShardRef → ShardFate} {present sent : List ShardRef}
    {results : List ShardStoreResult} {successful : Finset Nat} {after : AckState}
    {unanswered : List ShardRef} (address : Text) (status : ShardStoreStatus) (detail : String)
    (there : Counts fate present { noShard with
      successfulIndexes := successful
      alreadyPresentShards := present.length })
    (tallies : Tallies (ackFate results) sent
      { acknowledged := ∅, successful, stored := 0, alreadyPresent := present.length,
        failed := [] } after)
    (answered : ∀ ref ∈ sent, fate ref = (ackFate results ref).getD .failed)
    (silent : unanswered.Perm (sent.filter fun ref => ackFate results ref = none)) :
    Counts fate (present ++ sent) {
      successfulIndexes := after.successful
      storedShards := after.stored
      alreadyPresentShards := after.alreadyPresent
      failedResults := after.failed ++ unanswered.map (failedResult address status detail) } := by
  have decided : ∀ ref ∈ sent, ∀ outcome, outcome ≠ .failed →
      (ackFate results ref = some outcome ↔ fate ref = outcome) := by
    intro ref member outcome success
    rw [answered ref member]
    cases ackFate results ref with
    | none => simpa using success.symm
    | some other => simp
  refine ⟨?_, ?_, ?_, ?_⟩
  · have none := there.stored
    have counted : (sent.countP fun ref => ackFate results ref = some .stored) = sent.countP
        fun ref => fate ref = .stored :=
      List.countP_congr fun ref member => by simpa using decided ref member .stored (by decide)
    rw [List.countP_append, ← none, tallies.stored, counted]
    rfl
  · have all := there.alreadyPresent
    have counted : (sent.countP fun ref => ackFate results ref = some .alreadyPresent) =
        sent.countP fun ref => fate ref = .alreadyPresent :=
      List.countP_congr fun ref member =>
        by simpa using decided ref member .alreadyPresent (by decide)
    rw [List.countP_append, ← all, tallies.alreadyPresent, counted]
  · have without : (present.filter fun ref => fate ref = .failed) = [] := there.failed.nil_eq.symm
    have failures : (sent.filter fun ref => fate ref = .failed).Perm
        ((sent.filter fun ref => ackFate results ref = some .failed) ++ sent.filter
          fun ref => ackFate results ref = none) := by
      refine (List.filter_append_perm (fun ref => ackFate results ref = some .failed)
        (sent.filter fun ref => fate ref = .failed)).symm.trans ?_
      rw [List.filter_filter, List.filter_filter]
      refine .append (.of_eq (List.filter_congr fun ref member => ?_))
        (.of_eq (List.filter_congr fun ref member => ?_))
      · rw [answered ref member]
        cases ackFate results ref with
        | none => rfl
        | some outcome => cases outcome <;> rfl
      · rw [answered ref member]
        cases ackFate results ref with
        | none => rfl
        | some outcome => cases outcome <;> rfl
    rw [List.filter_append, without, List.nil_append, List.map_append, List.map_map]
    refine (tallies.failed.append ?_).trans failures.symm
    simpa [Function.comp_def, failedResult] using silent
  · intro index
    rw [tallies.successful]
    have known := there.successful index
    dsimp only at known ⊢
    rw [known]
    simp only [List.mem_append, or_and_right, exists_or]
    refine or_congr_right
      (exists_congr fun ref => and_congr_right fun member => and_congr_right fun _ => ?_)
    rw [answered ref member]
    cases ackFate results ref with
    | none => simp
    | some outcome => cases outcome <;> simp

section Batch

variable {maxMessageBytes : Int} {answer : TargetAnswer} {answers : Text → TargetAnswer}
  {batch : TargetBatch}

theorem pushTargetBatch_counts {missingRefs : List ShardRef}
    (distinct : (batch.payloads.map (·.ref)).Nodup)
    (probed : probeMissingShards answer = .ok missingRefs) :
    Counts (sentFate maxMessageBytes answer batch missingRefs) (batch.payloads.map (·.ref))
      (pushTargetBatch maxMessageBytes answer batch) := by
  rw [pushTargetBatch, probed]
  dsimp only
  generalize collected : (missingRefs.filter fun ref => ref ∈ batch.payloads.map (·.ref)).toFinset =
    missing
  generalize named : batch.payloads.map (·.ref) = refs at distinct collected ⊢
  have isMissing : ∀ ref ∈ refs, ref ∈ missing ↔ ref ∈ missingRefs := by
    intro ref member
    rw [← collected, List.mem_toFinset, List.mem_filter, decide_eq_true_eq]
    exact and_iff_left member
  have listed : ∀ ref ∈ missing, ref ∈ refs := by
    intro ref member
    rw [← collected, List.mem_toFinset, List.mem_filter] at member
    simpa using member.2
  have split : (refs.filter (fun ref => ref ∉ missing) ++ refs.filter
      fun ref => ref ∈ missing).Perm refs := by
    have both := List.filter_append_perm (fun ref => decide (ref ∉ missing)) refs
    simpa using both
  have number : refs.length - missing.card = (refs.filter fun ref => ref ∉ missing).length := by
    have lengths := split.length_eq
    rw [List.length_append, filter_mem_eq_card distinct listed] at lengths
    omega
  have there : ∀ ref ∈ refs.filter (fun ref => ref ∉ missing),
      sentFate maxMessageBytes answer batch missingRefs ref = .alreadyPresent := by
    intro ref member
    obtain ⟨among, absent⟩ := List.mem_filter.mp member
    exact if_neg fun inside => of_decide_eq_true absent ((isMissing ref among).mpr inside)
  have present := counts_present there
  rw [← number] at present
  by_cases nothing : missing = ∅
  · rw [if_pos nothing]
    refine present.perm ?_
    have all : refs.filter (fun ref => ref ∉ missing) = refs :=
      List.filter_eq_self.mpr fun ref _ => by simp [nothing]
    rw [all]
  · rw [if_neg nothing]
    have toSend : (batch.payloads.filter fun item => item.ref ∈ missing) =
        batch.payloads.filter fun item => item.ref ∈ missingRefs := by
      apply List.filter_congr
      intro item member
      rw [decide_eq_decide]
      exact isMissing item.ref (named ▸ List.mem_map_of_mem member)
    have sent : (batch.payloads.filter fun item => item.ref ∈ missing).map (·.ref) = refs.filter
        fun ref => ref ∈ missing := by
      rw [← named, List.filter_map]
      rfl
    have answered : ∀ ref ∈ refs.filter (fun ref => ref ∈ missing),
        sentFate maxMessageBytes answer batch missingRefs ref =
        (ackFate (replicateShards maxMessageBytes answer
          (batch.payloads.filter fun item => item.ref ∈ missing)).1 ref).getD
          .failed := by
      intro ref member
      obtain ⟨among, inside⟩ := List.mem_filter.mp member
      rw [sentFate, if_pos ((isMissing ref among).mp (of_decide_eq_true inside)), toSend]
    rw [sent]
    have tallies :=
      @foldl_foldAck_tallies batch.address (refs.filter fun ref => ref ∈ missing).toFinset
      { acknowledged := ∅
        successful := ((refs.filter fun ref => ref ∉ missing).map (·.shardIndex)).toFinset
        stored := 0
        alreadyPresent := refs.length - missing.card
        failed := [] }
      (replicateShards maxMessageBytes answer
        (batch.payloads.filter fun item => item.ref ∈ missing)).1
      (refs.filter fun ref => ref ∈ missing) (distinct.filter _) (by simp)
    rw [number] at present tallies ⊢
    generalize replicateShards maxMessageBytes answer
      (batch.payloads.filter fun item => item.ref ∈ missing) = stream
      at answered tallies ⊢
    generalize stream.1.foldl
      (foldAck batch.address (refs.filter fun ref => ref ∈ missing).toFinset) _ = after
      at tallies ⊢
    have silent : ((batch.payloads.filter fun item => item.ref ∈ missing).filter fun item =>
          item.ref ∉ after.acknowledged).map (·.ref) =
        (refs.filter fun ref => ref ∈ missing).filter fun ref => ackFate stream.1 ref = none := by
      rw [← sent, List.filter_map]
      refine congrArg (List.map _) (List.filter_congr fun item member => ?_)
      have known := tallies.acknowledged item.ref (sent ▸ List.mem_map_of_mem member)
      rw [Function.comp_apply, decide_eq_decide, known]
      cases ackFate stream.1 item.ref <;> simp
    have counts := Counts.of_tallies batch.address .error
      (stream.2.getD "sin ACK remoto para el shard") present tallies
      answered (.of_eq silent)
    rw [List.map_map] at counts
    exact counts.perm split

theorem completedBatch_counts (distinct : (batch.payloads.map (·.ref)).Nodup) :
    Counts (batchFate maxMessageBytes (answers batch.address) batch) (batch.payloads.map (·.ref))
      (completedBatch maxMessageBytes answers batch) := by
  unfold completedBatch batchFate
  cases task : (answers batch.address).taskError with
  | some reason => exact counts_failed _ _ _ fun _ _ => rfl
  | none =>
      cases probed : probeMissingShards (answers batch.address) with
      | error reason =>
          dsimp only
          rw [pushTargetBatch, probed]
          exact counts_failed _ _ _ fun _ _ => rfl
      | ok missingRefs => exact pushTargetBatch_counts distinct probed

end Batch

def TargetAnswer.DidNotListAsMissing (answer : TargetAnswer) (ref : ShardRef) : Prop :=
  ∃ missingRefs, probeMissingShards answer = .ok missingRefs ∧ ref ∉ missingRefs

def TargetAnswer.Acknowledged (answer : TargetAnswer) (ref : ShardRef) : Prop :=
  ∃ message ∈ answer.stream, message.ref.parse = .ok ref ∧
    (message.status = .stored ∨ message.status = .alreadyPresent)

section Evidence

variable {maxMessageBytes : Int} {answer : TargetAnswer} {batch : TargetBatch} {ref : ShardRef}

theorem mem_readStream {broken : Option String} {result : ShardStoreResult}
    (messages : List StoreMessage) (member : result ∈ (readStream broken messages).1) :
    ∃ message ∈ messages, message.ref.parse = .ok result.ref ∧ message.status = result.status := by
  induction messages with
  | nil => cases member
  | cons message rest ih =>
      rw [readStream] at member
      cases parsed : message.ref.parse with
      | error reason =>
          rw [parsed] at member
          cases member
      | ok ref =>
          rw [parsed] at member
          rcases List.mem_cons.mp member with rfl | later
          · exact ⟨message, by simp, parsed, rfl⟩
          · obtain ⟨other, listed, found⟩ := ih later
            exact ⟨other, by simp [listed], found⟩

theorem mem_replicateShards {payloads : List ShardPayload} {result : ShardStoreResult}
    (member : result ∈ (replicateShards maxMessageBytes answer payloads).1) :
    ∃ message ∈ answer.stream, message.ref.parse = .ok result.ref ∧
      message.status = result.status := by
  unfold replicateShards at member
  split at member
  · cases member
  · cases member
  · split at member
    · cases member
    · split at member
      · cases member
      · exact mem_readStream answer.stream member

theorem batchFate_evidence (success : batchFate maxMessageBytes answer batch ref ≠ .failed) :
    answer.DidNotListAsMissing ref ∨ answer.Acknowledged ref := by
  unfold batchFate at success
  split at success
  · rename_i missingRefs _ probed
    unfold sentFate at success
    split at success
    · right
      cases found : (replicateShards maxMessageBytes answer
          (batch.payloads.filter fun item => item.ref ∈ missingRefs)).1.find?
            fun result => result.ref = ref with
      | none => simp [ackFate, found] at success
      | some result =>
          have same : result.ref = ref := by simpa using List.find?_some found
          obtain ⟨message, listed, parsed, status⟩ :=
            mem_replicateShards (List.mem_of_find?_eq_some found)
          refine ⟨message, listed, same ▸ parsed, ?_⟩
          rw [status]
          by_contra neither
          rw [not_or] at neither
          simp [ackFate, found, ShardStoreResult.fate, neither] at success
    · rename_i absent
      exact .inl ⟨missingRefs, probed, absent⟩
  · exact absurd rfl success

end Evidence

/-- What the constructor has checked of a pack that can be delivered. -/
structure EncodedDataPack.Deliverable (pack : EncodedDataPack) : Prop where
  packHash : isValidBlake3Hex pack.packHash = true
  count : pack.shards.length = pack.spec.totalShards
  bounded : ∀ shard ∈ pack.shards, shard.shardIndex < pack.spec.totalShards
  distinct : (pack.shards.map (·.shardIndex)).Nodup
  hashes : ∀ shard ∈ pack.shards, isValidBlake3Hex shard.shardHash = true
  filled : ∀ shard ∈ pack.shards, shard.data ≠ []

theorem checkShards_ok {packHash : Text} {totalShards shardSize : Nat} {seen : List Nat}
    {shards : List DataPackShard}
    (checked : checkShards packHash totalShards shardSize seen shards = .ok ()) :
    (∀ shard ∈ shards, shard.shardIndex < totalShards ∧ shard.data.length = shardSize ∧
      shard.shardIndex ∉ seen) ∧ (shards.map (·.shardIndex)).Nodup := by
  induction shards generalizing seen with
  | nil => simp
  | cons shard rest ih =>
      rw [checkShards, ensure_bind_eq_ok_iff, ensure_bind_eq_ok_iff, ensure_bind_eq_ok_iff,
        ensure_bind_eq_ok_iff] at checked
      obtain ⟨-, bounded, fresh, size, others⟩ := checked
      obtain ⟨members, distinct⟩ := ih others
      constructor
      · intro other listed
        rcases List.mem_cons.mp listed with rfl | later
        · exact ⟨of_decide_eq_true bounded, of_decide_eq_true size, of_decide_eq_true fresh⟩
        · obtain ⟨inside, sized, unseen⟩ := members other later
          exact ⟨inside, sized, fun known => unseen (List.mem_cons_of_mem _ known)⟩
      · rw [List.map_cons, List.nodup_cons]
        refine ⟨?_, distinct⟩
        intro repeated
        obtain ⟨other, listed, same⟩ := List.mem_map.mp repeated
        exact (members other listed).2.2 (by simp [same])

theorem encodeShards_hashes {blake3 : Blake3} {packHash : Text} {shardSize : Nat}
    {raws : List (Nat × Bytes)} {shards : List DataPackShard}
    (encoded : encodeShards blake3 packHash shardSize raws = .ok shards) :
    ∀ shard ∈ shards, isValidBlake3Hex shard.shardHash = true := by
  induction raws generalizing shards with
  | nil =>
      cases encoded
      simp
  | cons raw rest ih =>
      rw [encodeShards, ensure_bind_eq_ok_iff, bind_eq_ok_iff] at encoded
      obtain ⟨-, shard, created, remaining⟩ := encoded
      obtain ⟨others, encodedRest, built⟩ := bind_eq_ok_iff.mp remaining
      cases pure_eq_ok_iff.mp built
      rw [dataPackShardFromPrehashed, bind_eq_ok_iff] at created
      obtain ⟨_, -, more⟩ := created
      obtain ⟨shardHash, checked, made⟩ := bind_eq_ok_iff.mp more
      cases pure_eq_ok_iff.mp made
      intro other listed
      rcases List.mem_cons.mp listed with rfl | later
      · exact requireHash_eq_ok checked
      · exact ih encodedRest other later

theorem deliverable_of_built {blake3 : Blake3} {zfec : Zfec} {chunks : List (Text × Bytes)}
    {spec : ErasureSpec} {pack : EncodedDataPack}
    (built : buildDataPackFromValidatedChunks blake3 zfec chunks spec = .ok pack) :
    pack.Deliverable ∧ pack.spec = spec := by
  rw [buildDataPackFromValidatedChunks, ensure_bind_eq_ok_iff, bind_eq_ok_iff] at built
  obtain ⟨-, entries, -, rest⟩ := built
  obtain ⟨shards, encoded, created⟩ := bind_eq_ok_iff.mp rest
  rw [createEncodedDataPack, bind_eq_ok_iff] at created
  obtain ⟨packHash, hashed, created⟩ := created
  rw [ensure_bind_eq_ok_iff, ensure_bind_eq_ok_iff, ensure_bind_eq_ok_iff,
    bind_eq_ok_iff] at created
  obtain ⟨-, -, count, covered, -, created⟩ := created
  rw [ensure_bind_eq_ok_iff, bind_eq_ok_iff] at created
  obtain ⟨-, ⟨⟩, checked, made⟩ := created
  cases pure_eq_ok_iff.mp made
  obtain ⟨members, distinct⟩ := checkShards_ok checked
  have sorted :=
    List.perm_insertionSort
      (fun left right : DataPackShard => left.shardIndex ≤ right.shardIndex) shards
  have listed : ∀ shard ∈ sortedByIndex shards, shard ∈ shards :=
    fun shard member => sorted.mem_iff.mp member
  have hashes : ∀ shard ∈ shards, isValidBlake3Hex shard.shardHash = true := by
    rw [encode] at encoded
    dsimp only at encoded
    rw [ensure_bind_eq_ok_iff] at encoded
    exact encodeShards_hashes encoded.2
  refine ⟨?_, rfl⟩
  exact {
    packHash := requireHash_eq_ok hashed
    count := sorted.length_eq.trans (of_decide_eq_true count)
    bounded := fun shard member => (members shard (listed shard member)).1
    distinct := (sorted.map (·.shardIndex)).nodup_iff.mpr distinct
    hashes := fun shard member => hashes shard (listed shard member)
    filled := by
      intro shard member empty
      have size := (members shard (listed shard member)).2.1
      rw [empty, List.length_nil] at size
      omega }

def plannedAddress (placements : List ShardPlacement) (shardIndex : Nat) : Option Text :=
  ((placementByIndex placements).get? shardIndex).map (·.address)

def EncodedDataPack.refOf (pack : EncodedDataPack) (shard : DataPackShard) : ShardRef where
  packHash := pack.packHash
  shardIndex := shard.shardIndex
  shardHash := shard.shardHash

/-- The batch for one address. -/
def batchAt (addressed : List (Text × ShardPayload)) (address : Text) : TargetBatch where
  address
  payloads := (addressed.filter fun item => item.1 = address).map Prod.snd

section Batches

variable {pack : EncodedDataPack} {placements : List ShardPlacement}

theorem placementByIndex_covers {index : Nat}
    (covered : ∃ placement ∈ placements, placement.shardIndex = index) :
    ∃ placement, (placementByIndex placements).get? index = some placement := by
  obtain ⟨placement, member, rfl⟩ := covered
  apply (Dict.mem_keys_iff _ _).mp
  simp only [placementByIndex, Dict.ofList, Dict.mem_keys_update, List.map_map, List.mem_map]
  exact .inl ⟨placement, member, rfl⟩

/-- Every shard of the pack goes into the batch of its planned address. -/
theorem targetBatches_of_covered (deliverable : pack.Deliverable)
    (covered : ∀ index < pack.spec.totalShards, ∃ placement ∈ placements,
      placement.shardIndex = index) :
    ∃ addressed : List (Text × ShardPayload),
      targetBatches pack placements =
        .ok (((orderedUnique (addressed.map Prod.fst)).insertionSort (· ≤ ·)).map
          (batchAt addressed)) ∧
      addressed.map (fun item => item.2.ref) = pack.shards.map pack.refOf ∧
      ∀ item ∈ addressed, plannedAddress placements item.2.ref.shardIndex = some item.1 := by
  have placed : ∀ shards : List DataPackShard, (∀ shard ∈ shards, shard ∈ pack.shards) →
      ∃ addressed, shards.mapM (addressedPayload pack.packHash (placementByIndex placements)) =
        .ok addressed ∧ addressed.map (fun item => item.2.ref) = shards.map pack.refOf ∧
        ∀ item ∈ addressed, plannedAddress placements item.2.ref.shardIndex = some item.1 := by
    intro shards inside
    induction shards with
    | nil => exact ⟨[], rfl, rfl, by simp⟩
    | cons shard rest ih =>
        have member := inside shard (by simp)
        obtain ⟨placement, found⟩ :=
          placementByIndex_covers (covered _ (deliverable.bounded shard member))
        obtain ⟨others, ran, refs, planned⟩ :=
          ih fun other listed => inside other (by simp [listed])
        have first : addressedPayload pack.packHash (placementByIndex placements) shard =
            .ok (placement.address, { ref := pack.refOf shard, data := shard.data }) := by
          have filled : (!shard.data.isEmpty) = true := by
            simpa using deliverable.filled shard member
          rw [addressedPayload, found]
          dsimp only
          rw [createShardRef, requireHash_of_valid deliverable.packHash,
            requireHash_of_valid (deliverable.hashes shard member)]
          simp only [createShardPayload, filled, ensure, if_true]
          rfl
        refine ⟨(placement.address, { ref := pack.refOf shard, data := shard.data }) :: others, ?_,
          ?_, ?_⟩
        · rw [List.mapM_cons, first, ran]
          rfl
        · rw [List.map_cons, List.map_cons, refs]
        · intro item listed
          rcases List.mem_cons.mp listed with rfl | later
          · simp [plannedAddress, EncodedDataPack.refOf, found]
          · exact planned item later
  obtain ⟨addressed, ran, refs, planned⟩ := placed pack.shards fun _ member => member
  refine ⟨addressed, ?_, refs, planned⟩
  rw [targetBatches, ran]
  rfl

variable {addressed : List (Text × ShardPayload)}

theorem batchAt_refs (refs : addressed.map (fun item => item.2.ref) = pack.shards.map pack.refOf) :
    (((orderedUnique (addressed.map Prod.fst)).insertionSort (· ≤ ·)).map (batchAt addressed)
      |>.flatMap fun batch => batch.payloads.map (·.ref)).Perm (pack.shards.map pack.refOf) := by
  rw [← refs]
  have sorted := List.perm_insertionSort (· ≤ ·) (orderedUnique (addressed.map Prod.fst))
  have groups := flatMap_groups_perm Prod.fst
    ((orderedUnique (addressed.map Prod.fst)).insertionSort (· ≤ ·)) addressed
    (sorted.nodup_iff.mpr (orderedUnique_nodup _))
    (fun item member => sorted.mem_iff.mpr (mem_orderedUnique.mpr (List.mem_map_of_mem member)))
  have mapped := groups.map fun item => item.2.ref
  rw [List.map_flatMap] at mapped
  rw [List.flatMap_map]
  simpa [batchAt, Function.comp_def] using mapped

theorem foldl_add_counts {maxMessageBytes : Int} {answers : Text → TargetAnswer}
    {fate : ShardRef → ShardFate} (batches : List TargetBatch) (total : ShardPushResult)
    (refs : List ShardRef) (before : Counts fate refs total)
    (each : ∀ batch ∈ batches, Counts fate (batch.payloads.map (·.ref))
      (completedBatch maxMessageBytes answers batch)) :
    Counts fate (refs ++ batches.flatMap fun batch => batch.payloads.map (·.ref))
      ((batches.map (completedBatch maxMessageBytes answers)).foldl ShardPushResult.add total) := by
  induction batches generalizing total refs with
  | nil => simpa using before
  | cons batch rest ih =>
      rw [List.map_cons, List.foldl_cons, List.flatMap_cons, ← List.append_assoc]
      exact ih _ _ (before.add (each batch (by simp))) fun other member =>
        each other (by simp [member])

/-- The fate of each shard is the one that its planned address gives it. -/
def plannedFate (maxMessageBytes : Int) (answers : Text → TargetAnswer)
    (placements : List ShardPlacement)
    (addressed : List (Text × ShardPayload)) (ref : ShardRef) : ShardFate :=
  match plannedAddress placements ref.shardIndex with
  | none => .failed
  | some address => batchFate maxMessageBytes (answers address) (batchAt addressed address) ref

theorem pushDataPackShards_counts {maxMessageBytes : Int} {answers : Text → TargetAnswer}
    {completed : List TargetBatch} (deliverable : pack.Deliverable)
    (refs : addressed.map (fun item => item.2.ref) = pack.shards.map pack.refOf)
    (planned : ∀ item ∈ addressed, plannedAddress placements item.2.ref.shardIndex = some item.1)
    (order : completed.Perm (((orderedUnique (addressed.map Prod.fst)).insertionSort (· ≤ ·)).map
      (batchAt addressed))) :
    Counts (plannedFate maxMessageBytes answers placements addressed) (pack.shards.map pack.refOf)
      (pushDataPackShards maxMessageBytes answers completed) := by
  have distinct : (addressed.map fun item => item.2.ref).Nodup := by
    rw [refs]
    refine (deliverable.distinct.of_map (·.shardIndex)).map_on ?_
    intro left leftMember right rightMember same
    exact List.inj_on_of_nodup_map deliverable.distinct leftMember rightMember
      (congrArg ShardRef.shardIndex same)
  have each : ∀ batch ∈ completed, Counts (plannedFate maxMessageBytes answers placements addressed)
      (batch.payloads.map (·.ref)) (completedBatch maxMessageBytes answers batch) := by
    intro batch member
    obtain ⟨address, -, rfl⟩ := List.mem_map.mp (order.mem_iff.mp member)
    have own : ((batchAt addressed address).payloads.map (·.ref)).Nodup := by
      rw [batchAt, List.map_map]
      exact distinct.sublist (List.filter_sublist.map _)
    refine (completedBatch_counts own).congr fun ref listed => ?_
    obtain ⟨payload, inBatch, rfl⟩ := List.mem_map.mp listed
    obtain ⟨item, filtered, rfl⟩ := List.mem_map.mp inBatch
    obtain ⟨among, here⟩ := List.mem_filter.mp filtered
    rw [plannedFate, planned item among, of_decide_eq_true here]
    rfl
  have total := foldl_add_counts completed noShard [] counts_nil each
  rw [List.nil_append] at total
  have whole := total.perm ((order.flatMap_right _).trans (batchAt_refs refs))
  have sorted := List.perm_insertionSort (fun left right => failedKeyLe left right = true)
    ((completed.map (completedBatch maxMessageBytes answers)).foldl ShardPushResult.add
      noShard).failedResults
  exact ⟨whole.stored, whole.alreadyPresent, (sorted.map (·.2.ref)).trans whole.failed,
    whole.successful⟩

end Batches

/-- What the result of a push says about the shards of the pack. -/
structure SoundEvidence (pack : EncodedDataPack) (placements : List ShardPlacement)
    (answers : Text → TargetAnswer) (result : ShardPushResult) : Prop where
  evidence : ∀ index ∈ result.successfulIndexes, ∃ shard ∈ pack.shards, shard.shardIndex = index ∧
    ∃ address, plannedAddress placements index = some address ∧
      ((answers address).DidNotListAsMissing (pack.refOf shard) ∨
        (answers address).Acknowledged (pack.refOf shard))
  counted : ∃ fate, Counts fate (pack.shards.map pack.refOf) result
  placed : dataPackState result.successfulIndexes.card pack.spec.dataShards pack.spec.totalShards =
    .placed ↔ ∀ shard ∈ pack.shards, shard.shardIndex ∈ result.successfulIndexes
  degraded : dataPackState result.successfulIndexes.card pack.spec.dataShards
    pack.spec.totalShards = .degraded ↔ pack.spec.dataShards ≤ result.successfulIndexes.card ∧
      ¬ ∀ shard ∈ pack.shards, shard.shardIndex ∈ result.successfulIndexes

theorem dataPackState_placed {protectedShards dataShards totalShards : Nat} :
    dataPackState protectedShards dataShards totalShards = .placed ↔
      totalShards ≤ protectedShards := by
  unfold dataPackState protectionStateFromThresholds
  split
  · simpa using ‹_›
  · rename_i fewer
    split <;> simpa using Nat.lt_of_not_le fewer

theorem dataPackState_degraded {protectedShards dataShards totalShards : Nat} :
    dataPackState protectedShards dataShards totalShards = .degraded ↔
      dataShards ≤ protectedShards ∧ ¬ totalShards ≤ protectedShards := by
  unfold dataPackState protectionStateFromThresholds
  split
  · simp only [reduceCtorEq, false_iff]
    omega
  · split
    · simp only [true_iff]
      omega
    · simp only [reduceCtorEq, false_iff]
      omega

theorem EncodedDataPack.Deliverable.card_eq_iff {pack : EncodedDataPack} {indexes : Finset Nat}
    (deliverable : pack.Deliverable)
    (inside : ∀ index ∈ indexes, ∃ shard ∈ pack.shards, shard.shardIndex = index) :
    pack.spec.totalShards ≤ indexes.card ↔ ∀ shard ∈ pack.shards, shard.shardIndex ∈ indexes := by
  have all : (pack.shards.map (·.shardIndex)).toFinset.card = pack.spec.totalShards := by
    rw [List.toFinset_card_of_nodup deliverable.distinct, List.length_map, deliverable.count]
  have contained : indexes ⊆ (pack.shards.map (·.shardIndex)).toFinset := by
    intro index member
    simpa using inside index member
  rw [← all]
  constructor
  · intro enough shard member
    rw [Finset.eq_of_subset_of_card_le contained enough]
    simpa using ⟨shard, member, rfl⟩
  · intro complete
    apply Finset.card_le_card
    intro index member
    obtain ⟨shard, listed, rfl⟩ := List.mem_map.mp (List.mem_toFinset.mp member)
    exact complete shard listed

/-- For every pack, every placement of its shards, whatever the targets answer and in whatever order
they complete, the evidence of the push is sound. -/
theorem pushEvidence_sound {blake3 : Blake3} {zfec : Zfec} {chunks : List (Text × Bytes)}
    {spec : ErasureSpec} {pack : EncodedDataPack} {placements : List ShardPlacement}
    (built : buildDataPackFromValidatedChunks blake3 zfec chunks spec = .ok pack)
    (covered : ∀ index < spec.totalShards, ∃ placement ∈ placements, placement.shardIndex = index) :
    ∃ batches, targetBatches pack placements = .ok batches ∧
      ∀ maxMessageBytes answers completed, completed.Perm batches →
        SoundEvidence pack placements answers
          (pushDataPackShards maxMessageBytes answers completed) := by
  obtain ⟨deliverable, rfl⟩ := deliverable_of_built built
  obtain ⟨addressed, batched, refs, planned⟩ := targetBatches_of_covered deliverable covered
  refine ⟨_, batched, ?_⟩
  intro maxMessageBytes answers completed order
  have counts :=
    @pushDataPackShards_counts _ _ _ maxMessageBytes answers _ deliverable refs planned order
  generalize pushDataPackShards maxMessageBytes answers completed = result at counts
  have shards : ∀ index ∈ result.successfulIndexes, ∃ shard ∈ pack.shards,
      shard.shardIndex = index ∧
      plannedFate maxMessageBytes answers placements addressed (pack.refOf shard) ≠ .failed := by
    intro index member
    obtain ⟨ref, listed, same, success⟩ := (counts.successful index).mp member
    obtain ⟨shard, among, rfl⟩ := List.mem_map.mp listed
    exact ⟨shard, among, same, success⟩
  have inside : ∀ index ∈ result.successfulIndexes, ∃ shard ∈ pack.shards,
      shard.shardIndex = index := by
    intro index member
    obtain ⟨shard, among, same, -⟩ := shards index member
    exact ⟨shard, among, same⟩
  have complete := deliverable.card_eq_iff inside
  refine ⟨?_, ⟨_, counts⟩, ?_, ?_⟩
  · intro index member
    obtain ⟨shard, among, rfl, success⟩ := shards index member
    refine ⟨shard, among, rfl, ?_⟩
    unfold plannedFate at success
    split at success
    · exact absurd rfl success
    · rename_i address located
      exact ⟨address, located, batchFate_evidence success⟩
  · rw [dataPackState_placed, complete]
  · rw [dataPackState_degraded, complete]

namespace Striping

def placements : List ShardPlacement :=
  [{ packHash := [], shardIndex := 0, nodeId := "a".toList, address := "a:1".toList },
    { packHash := [], shardIndex := 1, nodeId := "b".toList, address := "b:1".toList },
    { packHash := [], shardIndex := 2, nodeId := "c".toList, address := "a:1".toList }]

def pack? : Option EncodedDataPack :=
  (buildDataPackFromValidatedChunks blake3 zfec chunks spec).toOption

def message (shard : DataPackShard) : RefMessage where
  packHash := shard.packHash
  shardIndex := .ofNat shard.shardIndex
  shardHash := shard.shardHash

/-- One address lists its first shard as missing, confirms it twice with contradictory results and
breaks the stream off; the other one does not answer. -/
def answers (pack : EncodedDataPack) (address : Text) : TargetAnswer where
  taskError := none
  probe := if address = "a:1".toList then .ok ((pack.shards.take 1).map message)
    else .error "UNAVAILABLE"
  refused := none
  stream := (pack.shards.take 1).flatMap fun shard =>
    [{ ref := message shard, status := .stored, detail := "" },
      { ref := message shard, status := .error, detail := "" }]
  broken := some "CANCELLED"

end Striping

open Striping in
theorem contradictoryAnswers_soundEvidence :
    ∃ pack batches, pack? = some pack ∧ targetBatches pack placements = .ok batches ∧
      ((pushDataPackShards 4194304 (answers pack) batches.reverse).successfulIndexes = {0, 2}) ∧
      SoundEvidence pack placements (answers pack)
        (pushDataPackShards 4194304 (answers pack) batches.reverse) := by
  have chunk : ∀ chunk ∈ chunks, IsChunk blake3 chunk := by simp [chunks, named, IsChunk]
  have built := buildDataPackFromValidatedChunks_of_mds (mds spec.dataShards) (by decide) chunk
  obtain ⟨batches, batched, sound⟩ := @pushEvidence_sound _ _ _ _ _ placements built (by decide)
  have indexes : (pack?.bind fun pack => (targetBatches pack placements).toOption.map fun batches =>
      (pushDataPackShards 4194304 (answers pack) batches.reverse).successfulIndexes) = some
        {0, 2} := by decide +kernel
  have packed : pack? = some (packOf blake3 zfec chunks spec) := by rw [pack?, built]; rfl
  rw [packed, Option.bind_some, batched] at indexes
  exact ⟨_, batches, packed, batched, Option.some.inj indexes,
    sound 4194304 _ _ (List.reverse_perm batches)⟩

end Stopan.Erasure
