import Stopan.Lib.Runs
import Stopan.Packs.Discovery
import Stopan.Packs.Recovery

/-!
The downloads of a recovery (`_download_valid_metadata_pack_candidates` in
`stopan/metadata/packs/recover.py`): one source of a pack at a time, the next one when it fails, and
several packs at once. The downloads that are under way may complete in any order.
-/

namespace Stopan.Packs

open Stopan.Lib Stopan.Common

/-- What the validation of a pack says about its contents. -/
structure PackSummary where
  vaultId : Text
  vaultGeneration : Nat
  deriving DecidableEq, Repr

structure DownloadedMetadataPackCandidate where
  pack : MetadataPack
  source : MetadataPackSource
  deriving DecidableEq, Repr

/-- The `position` is that of the source in the list of its candidate. -/
structure DownloadAttempt where
  candidate : MetadataPackDiscoveryEntry
  source : MetadataPackSource
  position : Nat
  deriving DecidableEq, Repr

def DownloadAttempt.packHash (attempt : DownloadAttempt) : Text := attempt.candidate.packHash

/-- What the download and the validation of a pack from the source at a position give. -/
abbrev SourceResults := Text → Nat → Except String PackSummary

/-- `downloads_attempted` is the length of `attempts`. -/
structure DownloadState where
  ready : List MetadataPackDiscoveryEntry
  validByHash : Dict Text DownloadedMetadataPackCandidate
  errors : List String
  nextSourceIndex : Dict Text Nat
  active : List DownloadAttempt
  attempts : List DownloadAttempt

def metadataPackTargetLabel (source : MetadataPackSource) : String :=
  let node := if source.nodeId.isEmpty then "desconocido" else String.ofList (source.nodeId.take 8)
  s!"{node}@{String.ofList source.address}"

namespace DownloadState

def submitNext (state : DownloadState) (candidate : MetadataPackDiscoveryEntry) : DownloadState :=
  let sourceIndex := (state.nextSourceIndex.get? candidate.packHash).getD 0
  match candidate.sources[sourceIndex]? with
  | none => state
  | some source =>
      { state with
        nextSourceIndex := state.nextSourceIndex.set candidate.packHash (sourceIndex + 1)
        active := state.active ++ [{ candidate, source, position := sourceIndex }]
        attempts := state.attempts ++ [{ candidate, source, position := sourceIndex }] }

/-- The loop of `fill_available_slots` over the queue. -/
def fillFrom (maxWorkers : Nat) (state : DownloadState) :
    List MetadataPackDiscoveryEntry → DownloadState
  | [] => state
  | candidate :: rest =>
      if state.active.length < maxWorkers then
        let state := { state with ready := rest }
        if state.validByHash.contains candidate.packHash then fillFrom maxWorkers state rest
        else fillFrom maxWorkers (state.submitNext candidate) rest
      else state

def fillAvailableSlots (maxWorkers : Nat) (state : DownloadState) : DownloadState :=
  fillFrom maxWorkers state state.ready

/-- What the loop does with a completed download. -/
def complete (results : SourceResults) (state : DownloadState) (attempt : DownloadAttempt) :
    DownloadState :=
  let state := { state with active := state.active.erase attempt }
  match results attempt.packHash attempt.position with
  | .error detail =>
      { state with
        errors := state.errors ++
          [s!"{String.ofList attempt.packHash} desde {metadataPackTargetLabel attempt.source}: {detail}"]
        ready := if (state.nextSourceIndex.get? attempt.packHash).getD 0 <
          attempt.candidate.sources.length then
            state.ready ++ [attempt.candidate]
          else state.ready }
  | .ok summary =>
      if state.validByHash.contains attempt.packHash then state
      else { state with
        validByHash := state.validByHash.set attempt.packHash {
          pack := {
            packHash := attempt.packHash
            vaultId := summary.vaultId
            generation := summary.vaultGeneration }
          source := attempt.source } }

/-- One round of the loop: some of the active downloads have completed. -/
def step (maxWorkers : Nat) (results : SourceResults) (state : DownloadState)
    (completed : List DownloadAttempt) :
    Option DownloadState :=
  if completed ≠ [] ∧ completed.Subperm state.active then
    some (fillAvailableSlots maxWorkers (completed.foldl (complete results) state))
  else none

/-- `valid_downloads`, when no download is active any more. -/
def validDownloads (state : DownloadState) : List DownloadedMetadataPackCandidate :=
  (state.validByHash.keys.insertionSort (· ≤ ·)).filterMap state.validByHash.get?

end DownloadState

def downloadQueue (candidates : List MetadataPackDiscoveryEntry) :
    List MetadataPackDiscoveryEntry :=
  candidates.filter fun candidate => !candidate.sources.isEmpty

def maxWorkers (candidates : List MetadataPackDiscoveryEntry) (parallelism : Int) : Nat :=
  min (max 1 parallelism.toNat) (downloadQueue candidates).length

def startDownloads (candidates : List MetadataPackDiscoveryEntry) (parallelism : Int) :
    DownloadState :=
  .fillAvailableSlots (maxWorkers candidates parallelism) {
    ready := downloadQueue candidates
    validByHash := .empty
    errors := []
    nextSourceIndex :=
      .ofList ((downloadQueue candidates).map fun candidate => (candidate.packHash, 0))
    active := []
    attempts := [] }

/-- What the scheduler knows about one pack. -/
structure PackView where
  ready : List MetadataPackDiscoveryEntry
  active : List DownloadAttempt
  valid : Option DownloadedMetadataPackCandidate
  next : Option Nat
  tried : List Nat

namespace DownloadState

def view (state : DownloadState) (packHash : Text) : PackView where
  ready := state.ready.filter fun candidate => candidate.packHash = packHash
  active := state.active.filter fun attempt => attempt.packHash = packHash
  valid := state.validByHash.get? packHash
  next := state.nextSourceIndex.get? packHash
  tried :=
    (state.attempts.filter fun attempt => attempt.packHash = packHash).map DownloadAttempt.position

end DownloadState

def FailsBelow (results : SourceResults) (packHash : Text) (index : Nat) : Prop :=
  ∀ position < index, ∃ detail, results packHash position = .error detail

/-- The ways of a pack through the scheduler: waiting for the source at an index, downloading from
it, delivered by it, or without any source left. -/
inductive Phase (results : SourceResults) (candidate : MetadataPackDiscoveryEntry) :
    PackView → Prop where
  | waiting {index : Nat} (more : index < candidate.sources.length)
      (failed : FailsBelow results candidate.packHash index) :
      Phase results candidate
        { ready := [candidate], active := [], valid := none, next := some index,
          tried := List.range index }
  | downloading {index : Nat} {source : MetadataPackSource}
      (located : candidate.sources[index]? = some source)
      (failed : FailsBelow results candidate.packHash index) :
      Phase results candidate
        { ready := [], active := [{ candidate, source, position := index }], valid := none,
          next := some (index + 1), tried := List.range (index + 1) }
  | delivered {index : Nat} {source : MetadataPackSource} {summary : PackSummary}
      (located : candidate.sources[index]? = some source)
      (failed : FailsBelow results candidate.packHash index)
      (succeeded : results candidate.packHash index = .ok summary) :
      Phase results candidate
        { ready := [], active := []
          valid := some {
            pack := {
              packHash := candidate.packHash
              vaultId := summary.vaultId
              generation := summary.vaultGeneration }
            source }
          next := some (index + 1), tried := List.range (index + 1) }
  | exhausted (failed : FailsBelow results candidate.packHash candidate.sources.length) :
      Phase results candidate
        { ready := [], active := [], valid := none, next := some candidate.sources.length,
          tried := List.range candidate.sources.length }

/-- Every pack that has sources is in one of the phases, and nothing else is scheduled. -/
structure Scheduled (results : SourceResults) (queue : List MetadataPackDiscoveryEntry)
    (state : DownloadState) : Prop where
  phases : ∀ candidate ∈ queue, Phase results candidate (state.view candidate.packHash)
  ready : ∀ candidate ∈ state.ready, candidate ∈ queue
  active : ∀ attempt ∈ state.active, attempt.candidate ∈ queue
  valid : ∀ packHash ∈ state.validByHash.keys, ∃ candidate ∈ queue, candidate.packHash = packHash
  attempts : ∀ attempt ∈ state.attempts, attempt.candidate ∈ queue ∧
    attempt.candidate.sources[attempt.position]? = some attempt.source

variable {results : SourceResults} {queue candidates : List MetadataPackDiscoveryEntry}
  {state after : DownloadState}
variable {candidate : MetadataPackDiscoveryEntry} {attempt : DownloadAttempt} {packHash : Text}

namespace DownloadState

theorem view_submitNext {index : Nat} {source : MetadataPackSource}
    (next : state.nextSourceIndex.get? candidate.packHash = some index)
    (located : candidate.sources[index]? = some source) :
    (state.submitNext candidate).view packHash =
      if packHash = candidate.packHash then
        { state.view packHash with
          active := (state.view packHash).active ++ [{ candidate, source, position := index }]
          next := some (index + 1)
          tried := (state.view packHash).tried ++ [index] }
      else state.view packHash := by
  simp only [submitNext, next, Option.getD_some, located]
  by_cases same : packHash = candidate.packHash
  · simp [view, same, DownloadAttempt.packHash]
  · have other : ¬ candidate.packHash = packHash := fun equal => same equal.symm
    simp [view, same, other, DownloadAttempt.packHash, Dict.get?_set]

/-- The completed download is gone, and after a failure the pack waits for its next source, if there
is one. -/
theorem view_complete_error {detail : String} {index : Nat}
    (failed : results attempt.packHash attempt.position = .error detail)
    (next : state.nextSourceIndex.get? attempt.packHash = some index) :
    (state.complete results attempt).view packHash =
      if packHash = attempt.packHash then
        { state.view packHash with
          ready := if index < attempt.candidate.sources.length then
            (state.view packHash).ready ++ [attempt.candidate]
            else (state.view packHash).ready
          active := (state.view packHash).active.erase attempt }
      else state.view packHash := by
  simp only [complete, failed, next, Option.getD_some, view, List.erase_filter]
  by_cases same : packHash = attempt.packHash
  · simp only [same, if_true]
    split
    · simp [DownloadAttempt.packHash]
    · rfl
  · have other : ¬ attempt.packHash = packHash := fun equal => same equal.symm
    have gone : (state.active.filter fun attempt => decide
        (attempt.packHash = packHash)).erase attempt =
        state.active.filter fun attempt => decide (attempt.packHash = packHash) :=
      List.erase_of_not_mem (by simp [other])
    simp only [same, if_false, ← List.erase_filter, gone]
    split
    · have notHere : ¬ attempt.candidate.packHash = packHash := other
      simp [notHere]
    · rfl

theorem view_complete_ok {summary : PackSummary}
    (succeeded : results attempt.packHash attempt.position = .ok summary)
    (new : state.validByHash.get? attempt.packHash = none) :
    (state.complete results attempt).view packHash =
      if packHash = attempt.packHash then
        { state.view packHash with
          active := (state.view packHash).active.erase attempt
          valid := some {
            pack := {
              packHash := attempt.packHash
              vaultId := summary.vaultId
              generation := summary.vaultGeneration }
            source := attempt.source } }
      else state.view packHash := by
  have absent : state.validByHash.contains attempt.packHash = false := by simp [Dict.contains, new]
  simp only [complete, succeeded, absent, Bool.false_eq_true, if_false, view, List.erase_filter]
  by_cases same : packHash = attempt.packHash
  · simp [same]
  · have other : ¬ attempt.packHash = packHash := fun equal => same equal.symm
    have gone : (state.active.filter fun attempt => decide
        (attempt.packHash = packHash)).erase attempt =
        state.active.filter fun attempt => decide (attempt.packHash = packHash) :=
      List.erase_of_not_mem (by simp [other])
    simp only [same, if_false, ← List.erase_filter, gone, Dict.get?_set]

end DownloadState

variable {view : PackView}

theorem Phase.of_ready (phase : Phase results candidate view) (queued : view.ready ≠ []) :
    ∃ index < candidate.sources.length, FailsBelow results candidate.packHash index ∧
      view.ready = [candidate] ∧ view.active = [] ∧ view.valid = none ∧ view.next = some index ∧
      view.tried = List.range index := by
  cases phase with
  | waiting more failed => exact ⟨_, more, failed, rfl, rfl, rfl, rfl, rfl⟩
  | downloading => exact absurd rfl queued
  | delivered => exact absurd rfl queued
  | exhausted => exact absurd rfl queued

theorem Phase.of_active (phase : Phase results candidate view) (running : view.active ≠ []) :
    ∃ index source, candidate.sources[index]? = some source ∧
      FailsBelow results candidate.packHash index ∧
      view.ready = [] ∧ view.active = [{ candidate, source, position := index }] ∧
      view.valid = none ∧ view.next = some (index + 1) ∧ view.tried = List.range (index + 1) := by
  cases phase with
  | waiting => exact absurd rfl running
  | downloading located failed => exact ⟨_, _, located, failed, rfl, rfl, rfl, rfl, rfl⟩
  | delivered => exact absurd rfl running
  | exhausted => exact absurd rfl running

theorem same_of_packHash {other : MetadataPackDiscoveryEntry}
    (distinct : (queue.map MetadataPackDiscoveryEntry.packHash).Nodup) (member : candidate ∈ queue)
    (otherMember : other ∈ queue) (same : candidate.packHash = other.packHash) :
    candidate = other :=
  List.inj_on_of_nodup_map distinct member otherMember same

theorem filter_packHash (distinct : (queue.map MetadataPackDiscoveryEntry.packHash).Nodup)
    (member : candidate ∈ queue) :
    (queue.filter fun other => decide (other.packHash = candidate.packHash)) = [candidate] := by
  have only : ∀ other ∈ queue.filter fun other => decide (other.packHash = candidate.packHash),
      other = candidate := by
    intro other kept
    obtain ⟨otherMember, same⟩ := List.mem_filter.mp kept
    exact same_of_packHash distinct otherMember member (of_decide_eq_true same)
  have single : (queue.filter fun other => decide (other.packHash = candidate.packHash)).Nodup :=
    (List.Nodup.of_map _ distinct).filter _
  have present : candidate ∈ queue.filter fun other => decide
      (other.packHash = candidate.packHash) :=
    List.mem_filter.mpr ⟨member, decide_eq_true rfl⟩
  exact List.perm_singleton.mp
    ((List.perm_ext_iff_of_nodup single (List.nodup_singleton candidate)).mpr fun other =>
    ⟨fun kept => List.mem_singleton.mpr (only other kept),
      fun same => List.mem_singleton.mp same ▸ present⟩)

theorem Scheduled.submit {rest : List MetadataPackDiscoveryEntry}
    (distinct : (queue.map MetadataPackDiscoveryEntry.packHash).Nodup)
    (scheduled : Scheduled results queue state) (first : state.ready = candidate :: rest) :
    state.validByHash.contains candidate.packHash = false ∧
      Scheduled results queue
        (DownloadState.submitNext { state with ready := rest } candidate) := by
  have member : candidate ∈ queue := scheduled.ready candidate (first ▸ List.mem_cons_self)
  obtain ⟨index, more, failed, ready, active, valid, next, tried⟩ :=
    (scheduled.phases candidate member).of_ready (by simp [DownloadState.view, first])
  obtain ⟨source, located⟩ : ∃ source, candidate.sources[index]? = some source :=
    ⟨_, List.getElem?_eq_getElem more⟩
  have popped : ∀ packHash, ({ state with ready := rest } : DownloadState).view packHash =
      { state.view packHash with
        ready := rest.filter fun candidate => candidate.packHash = packHash } := fun _ => rfl
  have submitted : DownloadState.submitNext { state with ready := rest } candidate =
      { state with
        ready := rest
        nextSourceIndex := state.nextSourceIndex.set candidate.packHash (index + 1)
        active := state.active ++ [{ candidate, source, position := index }]
        attempts := state.attempts ++ [{ candidate, source, position := index }] } := by
    have known : state.nextSourceIndex.get? candidate.packHash = some index := next
    simp [DownloadState.submitNext, known, located]
  have nextPopped : ({ state with ready := rest } : DownloadState).nextSourceIndex.get?
    candidate.packHash = some index :=
    next
  refine ⟨?_, ?_, ?_, ?_, ?_, ?_⟩
  · have absent : state.validByHash.get? candidate.packHash = none := valid
    simp [Dict.contains, absent]
  · intro other otherMember
    have phase := scheduled.phases other otherMember
    rw [DownloadState.view_submitNext nextPopped located, popped]
    by_cases same : other.packHash = candidate.packHash
    · obtain rfl := same_of_packHash distinct otherMember member same
      have gone : rest.filter
          (fun candidate => decide (candidate.packHash = other.packHash)) = [] := by
        simpa [DownloadState.view, first] using ready
      rw [if_pos rfl, gone]
      dsimp only
      rw [active, valid, tried, ← List.range_succ]
      exact .downloading located failed
    · have notFirst : ¬ candidate.packHash = other.packHash := fun equal => same equal.symm
      have unchanged : rest.filter (fun candidate => decide (candidate.packHash = other.packHash)) =
          (state.view other.packHash).ready := by simp [DownloadState.view, first, notFirst]
      rw [if_neg same, unchanged]
      exact phase
  all_goals rw [submitted]
  · intro other waiting
    exact scheduled.ready other (first ▸ List.mem_cons_of_mem candidate waiting)
  · intro attempt running
    rcases List.mem_append.mp running with earlier | last
    · exact scheduled.active attempt earlier
    · rw [List.mem_singleton.mp last]
      exact member
  · exact scheduled.valid
  · intro attempt made
    rcases List.mem_append.mp made with earlier | last
    · exact scheduled.attempts attempt earlier
    · rw [List.mem_singleton.mp last]
      exact ⟨member, located⟩

theorem submitNext_ready : (state.submitNext candidate).ready = state.ready := by
  fun_cases DownloadState.submitNext <;> rfl

theorem Scheduled.fillFrom {workers : Nat}
    (distinct : (queue.map MetadataPackDiscoveryEntry.packHash).Nodup)
    (scheduled : Scheduled results queue state) {waiting : List MetadataPackDiscoveryEntry}
    (whole : state.ready = waiting) :
    Scheduled results queue (DownloadState.fillFrom workers state waiting) := by
  induction waiting generalizing state with
  | nil => exact scheduled
  | cons candidate rest ih =>
      rw [DownloadState.fillFrom]
      split
      · obtain ⟨absent, next⟩ := scheduled.submit distinct whole
        simp only [absent, Bool.false_eq_true, if_false]
        exact ih next submitNext_ready
      · exact scheduled

theorem Scheduled.fillAvailableSlots {workers : Nat}
    (distinct : (queue.map MetadataPackDiscoveryEntry.packHash).Nodup)
    (scheduled : Scheduled results queue state) :
    Scheduled results queue (DownloadState.fillAvailableSlots workers state) :=
  scheduled.fillFrom distinct rfl

theorem complete_active : (state.complete results attempt).active = state.active.erase attempt := by
  fun_cases DownloadState.complete <;> rfl

theorem Scheduled.complete (distinct : (queue.map MetadataPackDiscoveryEntry.packHash).Nodup)
    (scheduled : Scheduled results queue state) (running : attempt ∈ state.active) :
    Scheduled results queue (state.complete results attempt) := by
  have member := scheduled.active attempt running
  obtain ⟨index, source, located, failed, ready, active, valid, next, tried⟩ :=
    (scheduled.phases _ member).of_active
      (List.ne_nil_of_mem (List.mem_filter.mpr ⟨running, by simp [DownloadAttempt.packHash]⟩))
  have isOnly : attempt = { candidate := attempt.candidate, source, position := index } := by
    have here : attempt ∈ (state.view attempt.packHash).active :=
      List.mem_filter.mpr ⟨running, decide_eq_true rfl⟩
    rw [DownloadAttempt.packHash, active] at here
    exact List.mem_singleton.mp here
  have position : attempt.position = index := congrArg DownloadAttempt.position isOnly
  have onlyActive : (state.view attempt.packHash).active.erase attempt = [] := by
    rw [DownloadAttempt.packHash, active, ← isOnly]
    simp
  have failsBelow : ∀ detail, results attempt.packHash attempt.position = .error detail →
      FailsBelow results attempt.packHash (index + 1) := by
    intro detail result earlier below
    by_cases last : earlier = index
    · rw [last, ← position]
      exact ⟨detail, result⟩
    · exact failed earlier (by omega)
  have bound : index < attempt.candidate.sources.length := (List.getElem?_eq_some_iff.mp located).1
  cases result : results attempt.packHash attempt.position with
  | error detail =>
      have completed : state.complete results attempt = { state with
          active := state.active.erase attempt
          errors := state.errors ++
            [s!"{String.ofList attempt.packHash} desde {metadataPackTargetLabel attempt.source}: {detail}"]
          ready := if index + 1 < attempt.candidate.sources.length then
            state.ready ++ [attempt.candidate]
            else state.ready } := by
        have known : state.nextSourceIndex.get? attempt.packHash = some (index + 1) := next
        simp [DownloadState.complete, result, known]
      refine ⟨?_, ?_, ?_, ?_, ?_⟩
      · intro other otherMember
        rw [DownloadState.view_complete_error result next]
        split
        · rename_i same
          obtain rfl := same_of_packHash distinct otherMember member same
          have fails := failsBelow detail result
          rw [DownloadAttempt.packHash] at onlyActive fails
          dsimp only
          rw [ready, onlyActive, valid, next, tried, List.nil_append]
          split
          · rename_i more
            exact .waiting more fails
          · have last : index + 1 = attempt.candidate.sources.length := by omega
            rw [last]
            rw [last] at fails
            exact .exhausted fails
        · exact scheduled.phases other otherMember
      all_goals rw [completed]
      · intro other waiting
        dsimp only at waiting
        split at waiting
        · rcases List.mem_append.mp waiting with earlier | last
          · exact scheduled.ready other earlier
          · rw [List.mem_singleton.mp last]
            exact member
        · exact scheduled.ready other waiting
      · exact fun other still => scheduled.active other (List.mem_of_mem_erase still)
      · exact scheduled.valid
      · exact scheduled.attempts
  | ok summary =>
      have new : state.validByHash.get? attempt.packHash = none := valid
      have completed : state.complete results attempt = { state with
          active := state.active.erase attempt
          validByHash := state.validByHash.set attempt.packHash {
            pack := {
              packHash := attempt.packHash
              vaultId := summary.vaultId
              generation := summary.vaultGeneration }
            source := attempt.source } } := by
        simp [DownloadState.complete, result, Dict.contains, new]
      refine ⟨?_, ?_, ?_, ?_, ?_⟩
      · intro other otherMember
        rw [DownloadState.view_complete_ok result new]
        split
        · rename_i same
          obtain rfl := same_of_packHash distinct otherMember member same
          have source : attempt.source = source := congrArg DownloadAttempt.source isOnly
          rw [DownloadAttempt.packHash] at onlyActive
          dsimp only
          rw [ready, onlyActive, next, tried, source]
          rw [position] at result
          exact .delivered located failed result
        · exact scheduled.phases other otherMember
      all_goals rw [completed]
      · exact scheduled.ready
      · exact fun other still => scheduled.active other (List.mem_of_mem_erase still)
      · intro packHash known
        rcases (Dict.mem_keys_set ..).mp known with rfl | earlier
        · exact ⟨attempt.candidate, member, rfl⟩
        · exact scheduled.valid packHash earlier
      · exact scheduled.attempts

theorem Scheduled.completeAll {completed : List DownloadAttempt}
    (distinct : (queue.map MetadataPackDiscoveryEntry.packHash).Nodup)
    (scheduled : Scheduled results queue state) (running : completed.Subperm state.active) :
    Scheduled results queue (completed.foldl (DownloadState.complete results) state) := by
  induction completed generalizing state with
  | nil => exact scheduled
  | cons attempt rest ih =>
      rw [List.foldl_cons]
      refine ih (scheduled.complete distinct (running.subset List.mem_cons_self)) ?_
      have remaining := running.erase attempt
      rw [List.erase_cons_head] at remaining
      rw [complete_active]
      exact remaining

theorem scheduled_step {workers : Nat} {completed : List DownloadAttempt}
    (distinct : (queue.map MetadataPackDiscoveryEntry.packHash).Nodup)
    (scheduled : Scheduled results queue state)
    (stepped : state.step workers results completed = some after) :
    Scheduled results queue after := by
  rw [DownloadState.step] at stepped
  split at stepped
  · rename_i allowed
    cases stepped
    exact (scheduled.completeAll distinct allowed.2).fillAvailableSlots distinct
  · cases stepped

theorem scheduled_start (distinct : (candidates.map MetadataPackDiscoveryEntry.packHash).Nodup)
    (parallelism : Int) :
    Scheduled results (downloadQueue candidates) (startDownloads candidates parallelism) := by
  have distinctQueue : ((downloadQueue candidates).map MetadataPackDiscoveryEntry.packHash).Nodup :=
    distinct.sublist (List.filter_sublist.map _)
  refine Scheduled.fillAvailableSlots distinctQueue ⟨?_, fun _ queued => queued, by simp,
    by simp [Dict.keys, Dict.empty], by simp⟩
  intro candidate member
  have alone := filter_packHash distinctQueue member
  have known : (Dict.ofList
      ((downloadQueue candidates).map fun candidate => (candidate.packHash, 0))).get?
      candidate.packHash = some 0 := by
    refine Dict.get?_ofList_of_mem _ _ ?_ (List.mem_map.mpr ⟨candidate, member, rfl⟩)
    rw [List.map_map]
    exact distinctQueue
  have more : 0 < candidate.sources.length := by
    have some := (List.mem_filter.mp member).2
    rw [List.length_pos_iff]
    simpa using some
  have failed : FailsBelow results candidate.packHash 0 :=
    fun position below => absurd below (Nat.not_lt_zero position)
  simp only [DownloadState.view, alone, known]
  exact .waiting more failed

theorem nodup_queue (distinct : (candidates.map MetadataPackDiscoveryEntry.packHash).Nodup) :
    ((downloadQueue candidates).map MetadataPackDiscoveryEntry.packHash).Nodup :=
  distinct.sublist (List.filter_sublist.map _)

theorem scheduled_run {parallelism : Int} {rounds : List (List DownloadAttempt)}
    (distinct : (candidates.map MetadataPackDiscoveryEntry.packHash).Nodup)
    (ran : runEvents (DownloadState.step (maxWorkers candidates parallelism) results)
      (startDownloads candidates parallelism) rounds = some state) :
    Scheduled results (downloadQueue candidates) state := by
  refine runEvents_preserves (Scheduled results (downloadQueue candidates)) ?_
    (scheduled_start distinct parallelism) ran
  intro before completed after scheduled stepped
  exact scheduled_step (nodup_queue distinct) scheduled stepped

/-- What is submitted is active at first. -/
theorem fillFrom_balance {workers : Nat} {waiting : List MetadataPackDiscoveryEntry} :
    (DownloadState.fillFrom workers state waiting).attempts.length + state.active.length =
      state.attempts.length + (DownloadState.fillFrom workers state waiting).active.length := by
  induction waiting generalizing state with
  | nil => rfl
  | cons candidate rest ih =>
      rw [DownloadState.fillFrom]
      split
      · dsimp only
        split
        · exact ih
        · have later := @ih (DownloadState.submitNext { state with ready := rest } candidate)
          have one : (DownloadState.submitNext
              { state with ready := rest } candidate).attempts.length +
              state.active.length = state.attempts.length +
              (DownloadState.submitNext { state with ready := rest } candidate).active.length := by
            fun_cases DownloadState.submitNext
            · rfl
            · simp only [List.length_append, List.length_singleton]
              omega
          omega
      · rfl

theorem complete_attempts : (state.complete results attempt).attempts = state.attempts := by
  fun_cases DownloadState.complete <;> rfl

theorem completeAll_balance (results : SourceResults) {completed : List DownloadAttempt}
    (running : completed.Subperm state.active) :
    (completed.foldl (DownloadState.complete results) state).attempts = state.attempts ∧
    (completed.foldl (DownloadState.complete results) state).active.length + completed.length =
      state.active.length := by
  induction completed generalizing state with
  | nil => exact ⟨rfl, rfl⟩
  | cons attempt rest ih =>
      have member := running.subset List.mem_cons_self
      have remaining := running.erase attempt
      rw [List.erase_cons_head, ← complete_active] at remaining
      obtain ⟨attempts, active⟩ := ih remaining
      have positive := List.length_pos_of_mem member
      rw [complete_active, List.length_erase_of_mem member] at active
      rw [List.foldl_cons, attempts, complete_attempts, List.length_cons]
      exact ⟨rfl, by omega⟩

theorem rounds_balance {workers : Nat} {rounds : List (List DownloadAttempt)}
    (ran : runEvents (DownloadState.step workers results) state rounds = some after) :
    rounds.length + after.active.length + state.attempts.length ≤ after.attempts.length +
      state.active.length := by
  induction rounds generalizing state with
  | nil =>
      cases ran
      rw [List.length_nil]
      omega
  | cons completed rest ih =>
      obtain ⟨next, stepped, continued⟩ := runEvents_cons ran
      have later := ih continued
      rw [DownloadState.step] at stepped
      split at stepped
      · rename_i allowed
        cases stepped
        obtain ⟨attempts, active⟩ := completeAll_balance results allowed.2
        have filled :=
          @fillFrom_balance (completed.foldl (DownloadState.complete results) state) workers
          (completed.foldl (DownloadState.complete results) state).ready
        have some := List.length_pos_iff.mpr allowed.1
        rw [DownloadState.fillAvailableSlots] at later
        rw [attempts] at filled
        rw [List.length_cons]
        omega
      · cases stepped

theorem sum_indicator {α : Type} (items : List α) (holds : α → Bool) :
    (items.map fun item => if holds item then 1 else 0).sum = (items.filter holds).length := by
  induction items with
  | nil => rfl
  | cons item rest ih =>
      rw [List.map_cons, List.sum_cons, ih, List.filter_cons]
      split
      · rw [List.length_cons]
        omega
      · omega

/-- The attempts are those of the packs of the queue. -/
theorem length_attempts (distinct : (queue.map MetadataPackDiscoveryEntry.packHash).Nodup)
    {attempts : List DownloadAttempt} (known : ∀ attempt ∈ attempts, attempt.candidate ∈ queue) :
    attempts.length = (queue.map fun candidate =>
      (attempts.filter fun attempt => decide
        (attempt.packHash = candidate.packHash)).length).sum := by
  induction attempts with
  | nil => simp
  | cons attempt rest ih =>
      have member := known attempt List.mem_cons_self
      have one : (queue.map fun candidate => if decide (candidate.packHash = attempt.packHash) then
          1 else 0).sum = 1 := by
        rw [sum_indicator, DownloadAttempt.packHash, filter_packHash distinct member]
        rfl
      have split : ∀ candidate : MetadataPackDiscoveryEntry,
          ((attempt :: rest).filter fun attempt => decide
            (attempt.packHash = candidate.packHash)).length =
          (if decide (candidate.packHash = attempt.packHash) then 1 else 0) +
            (rest.filter fun attempt => decide (attempt.packHash = candidate.packHash)).length := by
        intro candidate
        rw [List.filter_cons]
        by_cases same : attempt.packHash = candidate.packHash
        · simp [same, Nat.add_comm]
        · have other : ¬ candidate.packHash = attempt.packHash := fun equal => same equal.symm
          simp [same, other]
      simp only [split, List.sum_map_add, one]
      rw [← ih fun other later => known other (List.mem_cons_of_mem attempt later),
        List.length_cons, Nat.add_comm]

theorem Phase.tried_le (phase : Phase results candidate view) :
    ∃ tried ≤ candidate.sources.length, view.tried = List.range tried ∧
      (∀ position, position + 1 < tried →
        ∃ detail, results candidate.packHash position = .error detail) ∧
      view.active.length ≤ 1 := by
  cases phase with
  | @waiting index more failed =>
      exact ⟨index, Nat.le_of_lt more, rfl, fun position below => failed position
        (by omega), by simp⟩
  | @downloading index source located failed =>
      have bound := (List.getElem?_eq_some_iff.mp located).1
      exact ⟨index + 1, bound, rfl, fun position below => failed position (by omega), by simp⟩
  | @delivered index source summary located failed succeeded =>
      have bound := (List.getElem?_eq_some_iff.mp located).1
      exact ⟨index + 1, bound, rfl, fun position below => failed position (by omega), by simp⟩
  | exhausted failed =>
      exact ⟨_, Nat.le_refl _, rfl, fun position below => failed position (by omega), by simp⟩

theorem Scheduled.attempts_le (distinct : (queue.map MetadataPackDiscoveryEntry.packHash).Nodup)
    (scheduled : Scheduled results queue state) :
    state.attempts.length ≤ (queue.map fun candidate => candidate.sources.length).sum := by
  rw [length_attempts distinct fun attempt made => (scheduled.attempts attempt made).1]
  refine List.sum_le_sum fun candidate member => ?_
  obtain ⟨tried, bound, positions, -, -⟩ := (scheduled.phases candidate member).tried_le
  have counted := congrArg List.length positions
  rw [DownloadState.view, List.length_map, List.length_range] at counted
  rw [counted]
  exact bound

theorem fillFrom_stops {workers : Nat} {waiting : List MetadataPackDiscoveryEntry}
    (whole : state.ready = waiting) : (DownloadState.fillFrom workers state waiting).ready = [] ∨
      workers ≤ (DownloadState.fillFrom workers state waiting).active.length := by
  induction waiting generalizing state with
  | nil => exact .inl whole
  | cons candidate rest ih =>
      rw [DownloadState.fillFrom]
      split
      · dsimp only
        split
        · exact ih rfl
        · exact ih submitNext_ready
      · exact .inr (by omega)

theorem ready_of_idle {parallelism : Int} {rounds : List (List DownloadAttempt)}
    (distinct : (candidates.map MetadataPackDiscoveryEntry.packHash).Nodup)
    (ran : runEvents (DownloadState.step (maxWorkers candidates parallelism) results)
      (startDownloads candidates parallelism) rounds = some state)
        (idle : state.active = []) : state.ready = [] := by
  have stops : state.ready = [] ∨ maxWorkers candidates parallelism ≤ state.active.length := by
    refine runEvents_preserves (fun state => state.ready = [] ∨
      maxWorkers candidates parallelism ≤ state.active.length)
      ?_ (fillFrom_stops rfl) ran
    intro before completed after _ stepped
    rw [DownloadState.step] at stepped
    split at stepped
    · cases stepped
      exact fillFrom_stops rfl
    · cases stepped
  rcases stops with none | full
  · exact none
  · -- without workers there is nothing to download
    have scheduled := scheduled_run distinct ran
    rw [idle, List.length_nil, maxWorkers] at full
    have noQueue : downloadQueue candidates = [] := List.length_eq_zero_iff.mp (by omega)
    cases waiting : state.ready with
    | nil => rfl
    | cons candidate rest =>
        have member := scheduled.ready candidate (waiting ▸ List.mem_cons_self)
        rw [noQueue] at member
        cases member

theorem Phase.of_idle (phase : Phase results candidate view) (noneReady : view.ready = [])
    (noneActive : view.active = []) :
    (view.valid = none ∧ FailsBelow results candidate.packHash candidate.sources.length) ∨
    ∃ index source summary, candidate.sources[index]? = some source ∧
      results candidate.packHash index = .ok summary ∧ view.valid = some {
        pack := {
          packHash := candidate.packHash
          vaultId := summary.vaultId
          generation := summary.vaultGeneration }
        source } := by
  cases phase with
  | waiting => cases noneReady
  | downloading => cases noneActive
  | delivered located failed succeeded => exact .inr ⟨_, _, _, located, succeeded, rfl⟩
  | exhausted failed => exact .inl ⟨rfl, failed⟩

namespace DownloadState

theorem mem_validDownloads {download : DownloadedMetadataPackCandidate} :
    download ∈ state.validDownloads ↔
      ∃ packHash, state.validByHash.get? packHash = some download := by
  rw [validDownloads, List.mem_filterMap]
  constructor
  · rintro ⟨packHash, -, found⟩
    exact ⟨packHash, found⟩
  · rintro ⟨packHash, found⟩
    exact ⟨packHash, (List.mem_insertionSort _).mpr ((Dict.mem_keys_iff ..).mpr ⟨download, found⟩),
      found⟩

end DownloadState

/-- A valid download is what some source of its candidate delivers. -/
theorem Scheduled.download (scheduled : Scheduled results queue state)
    {download : DownloadedMetadataPackCandidate} (noneReady : state.ready = [])
    (noneActive : state.active = []) (valid : download ∈ state.validDownloads) :
    ∃ candidate ∈ queue, ∃ index source summary, candidate.sources[index]? = some source ∧
      results candidate.packHash index = .ok summary ∧
      state.validByHash.get? candidate.packHash = some download ∧ download = {
        pack := {
          packHash := candidate.packHash
          vaultId := summary.vaultId
          generation := summary.vaultGeneration }
        source } := by
  obtain ⟨packHash, found⟩ := DownloadState.mem_validDownloads.mp valid
  obtain ⟨candidate, member, rfl⟩ :=
    scheduled.valid packHash ((Dict.mem_keys_iff ..).mpr ⟨download, found⟩)
  have phase := scheduled.phases candidate member
  rcases phase.of_idle (by simp [DownloadState.view, noneReady])
    (by simp [DownloadState.view, noneActive]) with
    ⟨none, -⟩ | ⟨index, source, summary, located, succeeded, known⟩
  · have absent : state.validByHash.get? candidate.packHash = Option.none := none
    rw [found] at absent
    cases absent
  · have present : state.validByHash.get? candidate.packHash = _ := known
    rw [found, Option.some.injEq] at present
    exact ⟨candidate, member, index, source, summary, located, succeeded, found, present⟩

/-- At the end a pack is among the valid downloads exactly if one of its sources delivers it. -/
theorem Scheduled.downloads_iff
    (distinct : (candidates.map MetadataPackDiscoveryEntry.packHash).Nodup)
    (scheduled : Scheduled results (downloadQueue candidates) state) (noneReady : state.ready = [])
    (noneActive : state.active = []) (member : candidate ∈ candidates) :
    (∃ download ∈ state.validDownloads, download.pack.packHash = candidate.packHash) ↔
      ∃ index < candidate.sources.length, ∃ summary,
        results candidate.packHash index = .ok summary := by
  constructor
  · rintro ⟨download, valid, same⟩
    obtain ⟨other, queued, index, source, summary, located, succeeded, -, rfl⟩ :=
      scheduled.download noneReady noneActive valid
    obtain rfl := same_of_packHash distinct (List.mem_of_mem_filter queued) member same
    exact ⟨index, (List.getElem?_eq_some_iff.mp located).1, summary, succeeded⟩
  · rintro ⟨index, bound, summary, succeeded⟩
    have queued : candidate ∈ downloadQueue candidates := by
      refine List.mem_filter.mpr ⟨member, ?_⟩
      have some : candidate.sources ≠ [] := List.length_pos_iff.mp (by omega)
      simpa using some
    rcases (scheduled.phases candidate queued).of_idle (by simp [DownloadState.view, noneReady])
      (by simp [DownloadState.view, noneActive]) with ⟨-, failed⟩ | ⟨_, _, _, -, -, known⟩
    · obtain ⟨detail, isError⟩ := failed index bound
      rw [succeeded] at isError
      cases isError
    · exact ⟨_, DownloadState.mem_validDownloads.mpr ⟨candidate.packHash, known⟩, rfl⟩

theorem Scheduled.downloads_nodup (scheduled : Scheduled results queue state)
    (noneReady : state.ready = []) (noneActive : state.active = []) :
    (state.validDownloads.map fun download => download.pack.packHash).Nodup := by
  have hashes : ∀ packHash download, state.validByHash.get? packHash = some download →
      download.pack.packHash = packHash := by
    intro packHash download found
    obtain ⟨candidate, member, rfl⟩ :=
      scheduled.valid packHash ((Dict.mem_keys_iff ..).mpr ⟨download, found⟩)
    rcases (scheduled.phases candidate member).of_idle (by simp [DownloadState.view, noneReady])
      (by simp [DownloadState.view, noneActive]) with ⟨none, -⟩ | ⟨_, _, _, -, -, known⟩
    · have absent : state.validByHash.get? candidate.packHash = Option.none := none
      rw [found] at absent
      cases absent
    · have present : state.validByHash.get? candidate.packHash = _ := known
      rw [found, Option.some.injEq] at present
      rw [present]
  rw [DownloadState.validDownloads, List.map_filterMap]
  refine List.Nodup.filterMap ?_ ((List.perm_insertionSort ..).nodup_iff.mpr (Dict.keys_nodup _))
  intro left right packHash inLeft inRight
  obtain ⟨leftDownload, leftFound, rfl⟩ := Option.map_eq_some_iff.mp inLeft
  obtain ⟨rightDownload, rightFound, same⟩ := Option.map_eq_some_iff.mp inRight
  rw [← hashes left leftDownload leftFound, ← hashes right rightDownload rightFound, same]

/-- The key `(vault_generation, pack_hash)`. -/
def DownloadedMetadataPackCandidate.key (download : DownloadedMetadataPackCandidate) : ℕ ×ₗ Text :=
  toLex (download.pack.generation, download.pack.packHash)

/-- The choice of `recover_metadata_from_network` among the valid downloads. -/
def selectDownload (valid : List DownloadedMetadataPackCandidate)
    (vaultId targetHash : Option Text) :
    Except RecoverError DownloadedMetadataPackCandidate :=
  match vaultId with
  | some requested =>
      match (valid.filter fun item => decide (item.pack.vaultId = requested)).argmax
        DownloadedMetadataPackCandidate.key with
      | some best => .ok best
      | none => if valid.isEmpty then .error .noneValid else .error (.noneForVault requested)
  | none =>
      let vaultIds :=
        (orderedUnique (valid.map fun item => item.pack.vaultId)).insertionSort (· ≤ ·)
      if targetHash.isNone && decide (1 < vaultIds.length) then .error (.severalVaults vaultIds)
      else
        match valid.argmax DownloadedMetadataPackCandidate.key with
        | some best => .ok best
        | none => .error .noneValid

theorem selectDownload_greatest {valid : List DownloadedMetadataPackCandidate} {vault : Text}
    {vaultId targetHash : Option Text} (some : valid ≠ [])
    (oneVault : ∀ item ∈ valid, item.pack.vaultId = vault)
    (asked : vaultId = none ∨ vaultId = Option.some vault) :
    ∃ best ∈ valid, selectDownload valid vaultId targetHash = .ok best ∧
      ∀ item ∈ valid, item.key ≤ best.key := by
  cases chosen : valid.argmax DownloadedMetadataPackCandidate.key with
  | none => exact absurd (List.argmax_eq_none.mp chosen) some
  | some best =>
      refine ⟨best, List.argmax_mem chosen, ?_,
        fun item member => List.le_of_mem_argmax member chosen⟩
      rcases asked with rfl | rfl
      · have single : (orderedUnique (valid.map fun item => item.pack.vaultId)).length ≤ 1 := by
          refine @orderedUnique_length_le_one _ vault fun other listed => ?_
          obtain ⟨item, member, rfl⟩ := List.mem_map.mp listed
          exact oneVault item member
        have one : ¬ 1 < ((orderedUnique (valid.map fun item => item.pack.vaultId)).insertionSort
            (· ≤ ·)).length := by
          rw [List.length_insertionSort]
          omega
        simp only [selectDownload, one, decide_false, Bool.and_false,
          Bool.false_eq_true, if_false, chosen]
      · have all : (valid.filter fun item => decide (item.pack.vaultId = vault)) = valid :=
          List.filter_eq_self.mpr fun item member => decide_eq_true (oneVault item member)
        simp only [selectDownload, all, chosen]

theorem Scheduled.tried (distinct : (candidates.map MetadataPackDiscoveryEntry.packHash).Nodup)
    (scheduled : Scheduled results (downloadQueue candidates) state)
    (member : candidate ∈ candidates) :
    ∃ tried ≤ candidate.sources.length, (state.view candidate.packHash).tried = List.range tried ∧
      (∀ position, position + 1 < tried →
        ∃ detail, results candidate.packHash position = .error detail) ∧
      (state.view candidate.packHash).active.length ≤ 1 := by
  by_cases queued : candidate ∈ downloadQueue candidates
  · exact (scheduled.phases candidate queued).tried_le
  · -- a pack without sources is never attempted
    have never : ∀ {attempts : List DownloadAttempt},
        (∀ attempt ∈ attempts, attempt.candidate ∈ downloadQueue candidates) →
        attempts.filter (fun attempt => decide (attempt.packHash = candidate.packHash)) = [] := by
      intro attempts known
      refine List.filter_eq_nil_iff.mpr fun attempt made same => queued ?_
      have inQueue := known attempt made
      rw [← same_of_packHash distinct (List.mem_of_mem_filter inQueue) member
        (of_decide_eq_true same)]
      exact inQueue
    refine ⟨0, Nat.zero_le _, ?_, fun position below => absurd below (Nat.not_lt_zero _), ?_⟩
    · rw [DownloadState.view, never fun attempt made => (scheduled.attempts attempt made).1]
      rfl
    · rw [DownloadState.view, never scheduled.active]
      exact Nat.zero_le 1

/-- The downloads end after at most as many rounds as there are sources. The sources of a pack are
tried in order, one at a time and none after a success; at the end the valid downloads are those of
the packs that some source delivers, and the choice among those of one vault is the greatest. -/
theorem downloads_complete {parallelism : Int} {rounds : List (List DownloadAttempt)}
    (distinct : (candidates.map MetadataPackDiscoveryEntry.packHash).Nodup)
    (ran : runEvents (DownloadState.step (maxWorkers candidates parallelism) results)
      (startDownloads candidates parallelism) rounds = some state) :
    rounds.length ≤ (candidates.map fun candidate => candidate.sources.length).sum ∧
    (state.active ≠ [] →
      (state.step (maxWorkers candidates parallelism) results state.active).isSome = true) ∧
    (∀ attempt ∈ state.attempts, attempt.candidate ∈ candidates ∧
      attempt.candidate.sources[attempt.position]? = some attempt.source) ∧
    (∀ candidate ∈ candidates, ∃ tried ≤ candidate.sources.length,
      (state.view candidate.packHash).tried = List.range tried ∧
      (∀ position, position + 1 < tried →
        ∃ detail, results candidate.packHash position = .error detail) ∧
      (state.view candidate.packHash).active.length ≤ 1) ∧
    (state.active = [] →
      (∀ candidate ∈ candidates,
        (∃ download ∈ state.validDownloads, download.pack.packHash = candidate.packHash) ↔
        ∃ index < candidate.sources.length, ∃ summary,
          results candidate.packHash index = .ok summary) ∧
      (∀ download ∈ state.validDownloads, ∃ candidate ∈ candidates, ∃ index source summary,
        candidate.sources[index]? = some source ∧ results candidate.packHash index = .ok summary ∧
        download = {
          pack := {
            packHash := candidate.packHash
            vaultId := summary.vaultId
            generation := summary.vaultGeneration }
          source }) ∧
      (state.validDownloads.map fun download => download.pack.packHash).Nodup ∧
      ∀ vault vaultId targetHash, state.validDownloads ≠ [] →
        (∀ download ∈ state.validDownloads, download.pack.vaultId = vault) → vaultId = none ∨
        vaultId = some vault →
        ∃ best ∈ state.validDownloads,
          selectDownload state.validDownloads vaultId targetHash = .ok best ∧
          ∀ download ∈ state.validDownloads, download.key ≤ best.key) := by
  have scheduled := scheduled_run distinct ran
  refine ⟨?_, ?_, ?_, fun candidate member => scheduled.tried distinct member, fun idle => ?_⟩
  · have balance := rounds_balance ran
    have attempts := scheduled.attempts_le (nodup_queue distinct)
    have started := @fillFrom_balance {
      ready := downloadQueue candidates
      validByHash := .empty
      errors := []
      nextSourceIndex :=
        .ofList ((downloadQueue candidates).map fun candidate => (candidate.packHash, 0))
      active := []
      attempts := [] } (maxWorkers candidates parallelism) (downloadQueue candidates)
    have fewer : ((downloadQueue candidates).map fun candidate => candidate.sources.length).sum ≤
        (candidates.map fun candidate => candidate.sources.length).sum :=
      List.Sublist.sum_le_sum (List.filter_sublist.map _) fun _ _ => Nat.zero_le _
    change (startDownloads candidates parallelism).attempts.length + 0 =
      0 + (startDownloads candidates parallelism).active.length at started
    omega
  · intro some
    rw [DownloadState.step, if_pos ⟨some, List.Subperm.refl _⟩]
    rfl
  · intro attempt made
    obtain ⟨queued, located⟩ := scheduled.attempts attempt made
    exact ⟨List.mem_of_mem_filter queued, located⟩
  · have noneReady := ready_of_idle distinct ran idle
    refine ⟨fun candidate member => scheduled.downloads_iff distinct noneReady idle member, ?_,
      scheduled.downloads_nodup noneReady idle, ?_⟩
    · intro download valid
      obtain ⟨candidate, queued, index, source, summary, located, succeeded, -, same⟩ :=
        scheduled.download noneReady idle valid
      exact ⟨candidate, List.mem_of_mem_filter queued, index, source, summary,
        located, succeeded, same⟩
    · intro vault vaultId targetHash some oneVault asked
      exact selectDownload_greatest some oneVault asked

namespace TwoPacks

def source (nodeId : String) : MetadataPackSource where
  nodeId := nodeId.toList
  address := []
  packHash := []
  sizeBytes := 0
  storedAtUnix := ⟨0⟩
  signature := { publicKeyB64 := [], signatureB64 := [] }

def entry (packHash : Text) (sources : List MetadataPackSource) : MetadataPackDiscoveryEntry where
  packHash
  presenceState := .unknown
  copiesSeen := sources.length
  desiredCopies := none
  desiredCopiesSource := "unknown"
  sources

/-- The first pack has a corrupt copy before the good one. -/
def first : MetadataPackDiscoveryEntry := entry ['a'] [source "n1", source "n2"]

def second : MetadataPackDiscoveryEntry := entry ['b'] [source "n1"]

def outcomes : SourceResults := fun packHash position =>
  if packHash = ['a'] ∧ position = 0 then .error "corrupt"
    else .ok { vaultId := ['v'], vaultGeneration := packHash.length }

def rounds : List (List DownloadAttempt) :=
  [[{ candidate := first, source := source "n1", position := 0 }],
    [{ candidate := first, source := source "n2", position := 1 },
      { candidate := second, source := source "n1", position := 0 }]]

def run : Option DownloadState :=
  runEvents (DownloadState.step (maxWorkers [first, second] 2) outcomes)
    (startDownloads [first, second] 2) rounds

theorem run_isSome : run.isSome = true := by decide +kernel

def final : DownloadState := run.get run_isSome

end TwoPacks

theorem twoPacks_downloaded :
    ∃ download ∈ TwoPacks.final.validDownloads, download.pack.packHash = TwoPacks.first.packHash :=
  ((@downloads_complete TwoPacks.outcomes
    [TwoPacks.first, TwoPacks.second] TwoPacks.final 2 TwoPacks.rounds (by decide)
    (Option.some_get TwoPacks.run_isSome).symm).2.2.2.2 (by decide +kernel)).1 TwoPacks.first
      List.mem_cons_self |>.mpr
      ⟨1, by decide, { vaultId := ['v'], vaultGeneration := 1 }, rfl⟩

end Stopan.Packs
