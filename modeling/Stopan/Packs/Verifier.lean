import Stopan.Packs.Discovery

/-!
Directed verification of one metadata pack (`stopan/metadata/packs/verifier.py`): the nodes that are
remembered as its holders are asked first, and the others only while copies are missing. What a node
answers and the order in which the answers of a batch arrive are arbitrary.
-/

namespace Stopan.Packs

open Stopan.Lib Stopan.Common Stopan.Cluster

/-- What `probe_metadata_pack_from_target_detailed` finds out; data loss counts as an error. -/
inductive ProbeOutcome where
  | present (sizeBytes : Nat) (storedAtUnix : PyFloat) (signature : PackSignature)
  | missing
  | error (detail : String)
  deriving DecidableEq, Repr

def probeMetadataPackFromTarget (packHash : Text) (target : ClusterMember) :
    ProbeOutcome → Option MetadataPackSource × Option String
  | .present sizeBytes storedAtUnix signature =>
      (some {
        nodeId := target.nodeId
        address := target.address
        packHash
        sizeBytes
        storedAtUnix
        signature }, none)
  | .missing => (none, none)
  | .error detail => (none, some (if detail.isEmpty then "probe error" else detail))

/-- The futures of a batch may complete in any order. -/
structure Completion where
  order : List ClusterMember → List ClusterMember
  permutes : ∀ batch, (order batch).Perm batch

structure ProbeRequest where
  packHash : Text
  cluster : ClusterView
  selfAddr : Text
  desiredCopies : Option Int
  preferredNodeIds : List Text

structure ProbeConditions where
  answers : ClusterMember → ProbeOutcome
  targetParallelism : Int
  completion : Completion

/-- `attempted` is the length of `probed`. -/
structure ProbeRun where
  sources : List MetadataPackSource
  errors : List String
  probed : List ClusterMember
  deriving DecidableEq, Repr

def ProbeRun.empty : ProbeRun where
  sources := []
  errors := []
  probed := []

namespace ProbeRequest

def targets (request : ProbeRequest) : List ClusterMember :=
  remoteTargets request.cluster request.selfAddr

def byNodeId (targets : List ClusterMember) : Dict Text ClusterMember :=
  targets.foldl (fun known target =>
    if !(strip target.nodeId).isEmpty && !known.contains (strip target.nodeId) then
      known.set (strip target.nodeId) target
    else known) .empty

/-- The targets and the ids that are preferred after one more id. -/
def prefer (known : Dict Text ClusterMember) (preferred : List ClusterMember × List Text)
    (rawNodeId : Text) :
    List ClusterMember × List Text :=
  let nodeId := strip rawNodeId
  if nodeId.isEmpty || preferred.2.contains nodeId then preferred
  else
    match known.get? nodeId with
    | none => preferred
    | some target => (preferred.1 ++ [target], preferred.2 ++ [nodeId])

def preferred (request : ProbeRequest) : List ClusterMember × List Text :=
  match request.desiredCopies with
  | none => ([], [])
  | some _ => request.preferredNodeIds.foldl (prefer (byNodeId request.targets)) ([], [])

/-- The order of the tuples `(node_id, address)`. -/
def memberLe (left right : ClusterMember) : Bool :=
  decide (toLex (left.nodeId, left.address) ≤ toLex (right.nodeId, right.address))

def remainingTargets (request : ProbeRequest) : List ClusterMember :=
  (request.targets.filter fun target => !request.preferred.2.contains
    (strip target.nodeId)).insertionSort
    fun left right => memberLe left right = true

variable (request : ProbeRequest) (conditions : ProbeConditions)

def probe (target : ClusterMember) : Option MetadataPackSource × Option String :=
  probeMetadataPackFromTarget request.packHash target (conditions.answers target)

def probeBatch (run : ProbeRun) (batch : List ClusterMember) : ProbeRun where
  sources := run.sources ++ (conditions.completion.order batch).filterMap
    fun target => (request.probe conditions target).1
  errors := run.errors ++ (conditions.completion.order batch).filterMap
    fun target => (request.probe conditions target).2
  probed := run.probed ++ batch

def remainingNeeded (run : ProbeRun) : Option Int :=
  request.desiredCopies.map fun desired => desired - run.sources.length

/-- Whether no copy is missing any more. -/
def satisfied (run : ProbeRun) : Bool :=
  match request.remainingNeeded run with
  | some needed => decide (needed ≤ 0)
  | none => false

def batchSize (run : ProbeRun) (available : Nat) : Nat :=
  let parallelism := max 1 conditions.targetParallelism.toNat
  match request.remainingNeeded run with
  | some needed => min (min parallelism needed.toNat) available
  | none => min parallelism available

variable {request} {run : ProbeRun} {group : List ClusterMember}

theorem batchSize_pos (conditions : ProbeConditions) (some : group ≠ [])
    (more : request.satisfied run = false) :
    0 < request.batchSize conditions run group.length := by
  have positive := List.length_pos_iff.mpr some
  simp only [batchSize]
  rw [satisfied] at more
  cases known : request.remainingNeeded run with
  | none =>
      dsimp only
      omega
  | some needed =>
      rw [known] at more
      simp only [decide_eq_false_iff_not] at more
      dsimp only
      omega

variable (request)

def probeGroup (run : ProbeRun) (group : List ClusterMember) : ProbeRun :=
  if group = [] ∨ request.satisfied run = true then run
  else
    probeGroup (request.probeBatch conditions run
      (group.take (request.batchSize conditions run group.length)))
      (group.drop (request.batchSize conditions run group.length))
termination_by group.length
decreasing_by
  rename_i stop
  obtain ⟨some, more⟩ := not_or.mp stop
  have positive := batchSize_pos conditions some (Bool.eq_false_iff.mpr more)
  have present := List.length_pos_iff.mpr some
  rw [List.length_drop]
  omega

def probeRun : ProbeRun :=
  match request.desiredCopies with
  | some desired =>
      let first := request.probeGroup conditions .empty request.preferred.1
      if (first.sources.length : Int) < desired then
        request.probeGroup conditions first request.remainingTargets else first
  | none => request.probeGroup conditions .empty request.remainingTargets

end ProbeRequest

structure PackVerificationDetails where
  checkKind : String
  presenceState : PresenceState
  desiredCopies : Option Int
  desiredCopiesSource : String
  copiesSeen : Nat
  reason : String
  deriving DecidableEq, Repr

structure PackVerificationResult where
  packHash : Text
  entry : Option MetadataPackDiscoveryEntry
  details : PackVerificationDetails
  deriving DecidableEq, Repr

def PackVerificationResult.state (result : PackVerificationResult) : PresenceState :=
  result.details.presenceState

def verificationResultFromEntry (entry : MetadataPackDiscoveryEntry) : PackVerificationResult where
  packHash := entry.packHash
  entry := some entry
  details := {
    checkKind := "presence"
    presenceState := entry.presenceState
    desiredCopies := entry.desiredCopies
    desiredCopiesSource := entry.desiredCopiesSource
    copiesSeen := entry.copiesSeen
    reason := if entry.desiredCopies.isSome then ""
      else "no hay publicación local con copias esperadas" }

def missingPackResult (packHash : Text) (desiredCopies : Option Int)
    (desiredCopiesSource reason : String) :
    Except String PackVerificationResult := do
  let presenceState ← metadataPackPresenceState 0 desiredCopies
  return {
    packHash
    entry := none
    details := {
      checkKind := "presence"
      presenceState
      desiredCopies
      desiredCopiesSource
      copiesSeen := 0
      reason } }

structure PackVerificationStats where
  candidatesChecked : Nat
  verified : Nat
  degraded : Nat
  failed : Nat
  unknown : Nat
  listTargetsAttempted : Nat
  listTargetsSucceeded : Int
  sourcesSeen : Nat
  publicationsKnown : Nat
  listErrors : List String
  deriving DecidableEq, Repr

def verificationStats (results : List PackVerificationResult) (run : ProbeRun)
    (publicationsKnown : Nat) :
    PackVerificationStats where
  candidatesChecked := results.length
  verified := results.countP fun result => result.state = .verified
  degraded := results.countP fun result => result.state = .degraded
  failed := results.countP fun result => result.state = .failed
  unknown := results.countP fun result => result.state = .unknown
  listTargetsAttempted := run.probed.length
  listTargetsSucceeded := run.probed.length - run.errors.length
  sourcesSeen := run.sources.length
  publicationsKnown := publicationsKnown
  listErrors := run.errors

def desiredMap (packHash : Text) : Option Int → Dict Text Int
  | some desired => .ofList [(packHash, desired)]
  | none => .empty

def packResult (packHash : Text) (sources : List MetadataPackSource) (desiredCopies : Option Int) :
    Except String PackVerificationResult := do
  let entries ← groupMetadataPackSources sources (desiredMap packHash desiredCopies) none
  match entries with
  | entry :: _ => return verificationResultFromEntry entry
  | [] =>
      let reason :=
        if desiredCopies.isSome then "metadata pack no encontrado en ningún nodo consultado"
        else "metadata pack no encontrado y no hay publicación local con copias esperadas"
      missingPackResult packHash desiredCopies (if desiredCopies.isSome then "publication_record"
        else "unknown") reason

/-- `_probe_pack_from_network`, from the view on. -/
def probePackFromNetwork (request : ProbeRequest) (conditions : ProbeConditions) :
    Except String (PackVerificationResult × PackVerificationStats) := do
  let run := request.probeRun conditions
  let result ← packResult request.packHash run.sources request.desiredCopies
  return (result, verificationStats [result] run (if request.desiredCopies.isSome then 1 else 0))

theorem groupSources_uniform {packHash : Text} {sources : List MetadataPackSource}
    (some : sources ≠ []) (uniform : ∀ source ∈ sources, source.packHash = packHash) :
    (groupSources sources).entries = [(packHash, sources)] := by
  induction sources using List.reverseRecOn with
  | nil => exact absurd rfl some
  | append_singleton earlier source ih =>
      have lastHash : source.packHash = packHash := uniform source (by simp)
      rw [groupSources, List.foldl_append, List.foldl_cons, List.foldl_nil, lastHash]
      by_cases first : earlier = []
      · rw [first]
        rfl
      · have grouped := ih first fun other member => uniform other (List.mem_append_left _ member)
        have found : (groupSources earlier).get? packHash = Option.some earlier := by
          simp [Dict.get?, grouped]
        rw [← groupSources, Dict.modify, found]
        simp [Dict.set, grouped, setEntry]

/-- The state says how the number of sources compares with the desired one. -/
theorem packResult_state {packHash : Text} {sources : List MetadataPackSource}
    (desiredCopies : Option Int) (uniform : ∀ source ∈ sources, source.packHash = packHash) :
    (packResult packHash sources desiredCopies).map PackVerificationResult.state =
      metadataPackPresenceState sources.length desiredCopies := by
  by_cases empty : sources = []
  · have grouped : groupMetadataPackSources [] (desiredMap packHash desiredCopies) none = .ok [] :=
      rfl
    rw [empty, packResult, grouped]
    change (missingPackResult packHash desiredCopies _ _).map PackVerificationResult.state = _
    rw [missingPackResult]
    cases metadataPackPresenceState 0 desiredCopies <;> rfl
  · have desired : (desiredMap packHash desiredCopies).get? packHash = desiredCopies := by
      cases desiredCopies with
      | none => rfl
      | some copies => simp [desiredMap, Dict.ofList, Dict.update]
    have sorted : (sources.insertionSort fun left right => sourceLe left right = true).length =
        sources.length :=
      List.length_insertionSort ..
    rw [packResult, groupMetadataPackSources, groupSources_uniform empty uniform]
    simp only [List.mapM_cons, List.mapM_nil, discoveryEntry, desired, sorted]
    cases metadataPackPresenceState sources.length desiredCopies <;> rfl

namespace ProbeRequest

variable {request : ProbeRequest} {conditions : ProbeConditions} {run : ProbeRun}
  {group : List ClusterMember}

/-- The copies that the targets have. -/
def hits (request : ProbeRequest) (conditions : ProbeConditions) (targets : List ClusterMember) :
    List MetadataPackSource :=
  targets.filterMap fun target => (request.probe conditions target).1

/-- A group is probed from the front, to its end or until no copy is missing. -/
theorem probeGroup_front : ∃ front back, group = front ++ back ∧
    (request.probeGroup conditions run group).probed = run.probed ++ front ∧
    (request.probeGroup conditions run group).sources.Perm
      (run.sources ++ request.hits conditions front) ∧
    (back = [] ∨ request.satisfied (request.probeGroup conditions run group) = true) := by
  fun_induction request.probeGroup conditions run group with
  | case1 run group stop =>
      rcases stop with empty | enough
      · exact ⟨[], [], empty, by simp, by simp [hits], .inl rfl⟩
      · exact ⟨[], group, rfl, by simp, by simp [hits], .inr enough⟩
  | case2 run group stop ih =>
      obtain ⟨front, back, rest, probed, sources, finished⟩ := ih
      refine ⟨group.take (request.batchSize conditions run group.length) ++ front, back,
        ?_, ?_, ?_, finished⟩
      · rw [List.append_assoc, ← rest, List.take_append_drop]
      · rw [probed, probeBatch, List.append_assoc]
      · refine sources.trans ?_
        rw [probeBatch, hits, hits, List.filterMap_append, ← List.append_assoc]
        exact (((conditions.completion.permutes _).filterMap _).append_left _).append_right _

theorem satisfied_iff {copies : Int} (desired : request.desiredCopies = some copies) :
    request.satisfied run = true ↔ copies ≤ run.sources.length := by
  rw [satisfied, remainingNeeded, desired, Option.map_some, decide_eq_true_eq]
  omega

/-- Both phases together: what is probed are different entries of the two groups, and either all of
them are, or the copies that are found are enough. -/
theorem probeRun_front :
    ∃ front back, (request.preferred.1 ++ request.remainingTargets).Perm (front ++ back) ∧
    (request.probeRun conditions).probed = front ∧
    (request.probeRun conditions).sources.Perm (request.hits conditions front) ∧
    (back = [] ∨ ∃ copies, request.desiredCopies = some copies ∧
      copies ≤ (request.probeRun conditions).sources.length) := by
  cases desired : request.desiredCopies with
  | none =>
      obtain ⟨front, back, whole, probed, sources, finished⟩ :=
        @probeGroup_front request conditions .empty request.remainingTargets
      have none : request.preferred.1 = [] := by rw [preferred, desired]
      rw [probeRun, desired]
      refine ⟨front, back, by rw [none, whole, List.nil_append],
        by simpa [ProbeRun.empty] using probed, by simpa [ProbeRun.empty] using sources, .inl ?_⟩
      rcases finished with all | enough
      · exact all
      · rw [satisfied, remainingNeeded, desired] at enough
        cases enough
  | some copies =>
      obtain ⟨front, back, whole, probed, sources, finished⟩ :=
        @probeGroup_front request conditions .empty request.preferred.1
      rw [satisfied_iff desired] at finished
      rw [probeRun, desired]
      dsimp only
      split
      · rename_i missing
        obtain rfl : back = [] := finished.resolve_right (by omega)
        obtain ⟨others, rest, remaining, later, found, ended⟩ :=
          @probeGroup_front request conditions
          (request.probeGroup conditions .empty request.preferred.1) request.remainingTargets
        rw [satisfied_iff desired] at ended
        refine ⟨front ++ others, rest, ?_, ?_, ?_, ?_⟩
        · rw [whole, remaining]
          simp
        · rw [later, probed]
          simp [ProbeRun.empty]
        · refine found.trans ?_
          rw [hits, hits, List.filterMap_append]
          exact sources.append_right _
        · rcases ended with all | enough
          · exact .inl all
          · exact .inr ⟨copies, rfl, enough⟩
      · refine ⟨front, back ++ request.remainingTargets, ?_, by simpa [ProbeRun.empty] using probed,
          by simpa [ProbeRun.empty] using sources, .inr ⟨copies, rfl, by omega⟩⟩
        rw [whole, List.append_assoc]

variable {known : Dict Text ClusterMember} {targets : List ClusterMember} {nodeId : Text}

theorem get?_byNodeId (named : nodeId ≠ []) :
    (byNodeId targets).get? nodeId = targets.find? fun target => decide
      (strip target.nodeId = nodeId) := by
  have each : ∀ known : Dict Text ClusterMember,
      (targets.foldl (fun known target =>
        if !(strip target.nodeId).isEmpty && !known.contains (strip target.nodeId) then
          known.set (strip target.nodeId) target
        else known) known).get? nodeId =
      (known.get? nodeId).or
        (targets.find? fun target => decide (strip target.nodeId = nodeId)) := by
    induction targets with
    | nil => simp
    | cons target rest ih =>
        intro known
        rw [List.foldl_cons, ih, List.find?_cons]
        by_cases same : strip target.nodeId = nodeId
        · cases before : known.get? nodeId with
          | some value => simp [same, Dict.contains, before]
          | none => simp [same, Dict.contains, before, named]
        · have other : ¬ nodeId = strip target.nodeId := fun equal => same equal.symm
          split <;> simp [same, other, Dict.get?_set]
  rw [byNodeId, each, Dict.get?_empty, Option.none_or]

/-- What the ids that have been gone through have led to. -/
structure Preferred (targets : List ClusterMember) (gone : List Text)
    (preferred : List ClusterMember × List Text) : Prop where
  ids : preferred.1.map (fun target => strip target.nodeId) = preferred.2
  distinct : preferred.2.Nodup
  first : ∀ target ∈ preferred.1, targets.find?
    (fun other => decide (strip other.nodeId = strip target.nodeId)) = some target
  named : ∀ nodeId, nodeId ∈ preferred.2 ↔ nodeId ≠ [] ∧ nodeId ∈ gone.map strip ∧
    ∃ target ∈ targets, strip target.nodeId = nodeId

theorem Preferred.prefer {gone : List Text} {preferred : List ClusterMember × List Text}
    (before : Preferred targets gone preferred) (rawNodeId : Text) :
    Preferred targets (gone ++ [rawNodeId]) (prefer (byNodeId targets) preferred rawNodeId) := by
  have unchanged : (strip rawNodeId = [] ∨ strip rawNodeId ∈ preferred.2 ∨
      ∀ target ∈ targets, strip target.nodeId ≠ strip rawNodeId) →
      Preferred targets (gone ++ [rawNodeId]) preferred := by
    intro skipped
    refine ⟨before.ids, before.distinct, before.first, fun nodeId => ?_⟩
    rw [before.named, List.map_append, List.mem_append]
    refine ⟨fun ⟨nonempty, listed, present⟩ => ⟨nonempty, .inl listed, present⟩, ?_⟩
    rintro ⟨nonempty, listed | last, present⟩
    · exact ⟨nonempty, listed, present⟩
    · obtain rfl : nodeId = strip rawNodeId := by simpa using last
      rcases skipped with blank | again | unknown
      · exact absurd blank nonempty
      · exact (before.named _).mp again
      · obtain ⟨target, member, same⟩ := present
        exact absurd same (unknown target member)
  unfold ProbeRequest.prefer
  dsimp only
  split
  · rename_i skipped
    refine unchanged ?_
    rw [Bool.or_eq_true, List.isEmpty_iff, List.contains_iff_mem] at skipped
    rcases skipped with blank | again
    · exact .inl blank
    · exact .inr (.inl again)
  · rename_i new
    rw [Bool.or_eq_true, List.isEmpty_iff, List.contains_iff_mem, not_or] at new
    obtain ⟨some, fresh⟩ := new
    rw [get?_byNodeId some]
    split
    · rename_i unknown
      refine unchanged (.inr (.inr fun target member same => ?_))
      have absent := List.find?_eq_none.mp unknown target member
      simp [same] at absent
    · rename_i target found
      have isNamed : strip target.nodeId = strip rawNodeId := by simpa using List.find?_some found
      refine ⟨?_, ?_, ?_, fun nodeId => ?_⟩
      · simp [before.ids, isNamed]
      · exact List.nodup_append.mpr ⟨before.distinct, by simp, by
          intro nodeId member other last
          obtain rfl : other = strip rawNodeId := by simpa using last
          rintro rfl
          exact fresh member⟩
      · intro other member
        rcases List.mem_append.mp member with earlier | last
        · exact before.first other earlier
        · rw [List.mem_singleton.mp last, isNamed]
          exact found
      · rw [List.mem_append, before.named, List.map_append, List.mem_append]
        constructor
        · rintro (⟨nonempty, listed, present⟩ | last)
          · exact ⟨nonempty, .inl listed, present⟩
          · obtain rfl : nodeId = strip rawNodeId := by simpa using last
            exact ⟨some, .inr (by simp), target, List.mem_of_find?_eq_some found, isNamed⟩
        · rintro ⟨nonempty, listed | last, present⟩
          · exact .inl ⟨nonempty, listed, present⟩
          · exact .inr (by simpa using last)

theorem preferred_spec {copies : Int} (desired : request.desiredCopies = some copies) :
    Preferred request.targets request.preferredNodeIds request.preferred := by
  have each : ∀ {ids gone : List Text} {preferred : List ClusterMember × List Text},
      Preferred request.targets gone preferred →
        Preferred request.targets (gone ++ ids)
          (ids.foldl (prefer (byNodeId request.targets)) preferred) := by
    intro ids
    induction ids with
    | nil =>
        intro gone preferred before
        simpa using before
    | cons rawNodeId rest ih =>
        intro gone preferred before
        simpa using ih (before.prefer rawNodeId)
  rw [preferred, desired]
  have empty : Preferred request.targets [] ([], []) := ⟨rfl, List.nodup_nil, by simp, by simp⟩
  simpa using each empty

theorem nodup_targets : request.targets.Nodup :=
  (List.Nodup.of_map _ request.cluster.distinct).filter _

theorem mem_remainingTargets {target : ClusterMember} :
    target ∈ request.remainingTargets ↔ target ∈ request.targets ∧
      strip target.nodeId ∉ request.preferred.2 := by
  rw [remainingTargets, List.mem_insertionSort, List.mem_filter]
  simp

/-- No target is in both groups, or in one of them twice. -/
theorem nodup_groups : (request.preferred.1 ++ request.remainingTargets).Nodup := by
  have remaining : request.remainingTargets.Nodup :=
    (List.perm_insertionSort ..).nodup_iff.mpr (nodup_targets.filter _)
  cases desired : request.desiredCopies with
  | none =>
      have none : request.preferred.1 = [] := by rw [preferred, desired]
      rw [none, List.nil_append]
      exact remaining
  | some copies =>
      have chosen := preferred_spec desired
      have distinct := chosen.distinct
      rw [← chosen.ids] at distinct
      refine List.nodup_append.mpr ⟨List.Nodup.of_map _ distinct, remaining, ?_⟩
      rintro target preferred other isRemaining rfl
      refine (mem_remainingTargets.mp isRemaining).2 ?_
      rw [← chosen.ids]
      exact List.mem_map_of_mem preferred

/-- No two targets have the node id of a preferred one, up to the blanks around it. -/
def Unambiguous (request : ProbeRequest) : Prop :=
  ∀ rawNodeId ∈ request.preferredNodeIds, strip rawNodeId ≠ [] →
    ∀ left ∈ request.targets, ∀ right ∈ request.targets,
    strip left.nodeId = strip rawNodeId → strip right.nodeId = strip rawNodeId → left = right

theorem groups_perm {copies : Int} (unambiguous : request.Unambiguous)
    (desired : request.desiredCopies = some copies) :
    (request.preferred.1 ++ request.remainingTargets).Perm request.targets := by
  have chosen := preferred_spec desired
  refine (List.perm_ext_iff_of_nodup nodup_groups nodup_targets).mpr fun target => ?_
  rw [List.mem_append, mem_remainingTargets]
  constructor
  · rintro (preferred | ⟨member, -⟩)
    · exact List.mem_of_find?_eq_some (chosen.first target preferred)
    · exact member
  · intro member
    by_cases isPreferred : strip target.nodeId ∈ request.preferred.2
    · refine .inl ?_
      obtain ⟨named, listed, -⟩ := (chosen.named _).mp isPreferred
      obtain ⟨rawNodeId, given, same⟩ := List.mem_map.mp listed
      rw [← chosen.ids] at isPreferred
      obtain ⟨other, preferred, otherName⟩ := List.mem_map.mp isPreferred
      have otherMember := List.mem_of_find?_eq_some (chosen.first other preferred)
      rw [← same] at named otherName
      rw [unambiguous rawNodeId given named target member other otherMember same.symm otherName]
      exact preferred
    · exact .inr ⟨member, isPreferred⟩

end ProbeRequest

open ProbeRequest

variable {request : ProbeRequest} {conditions : ProbeConditions}

/-- The state that follows from the answers of all targets. -/
def exhaustiveState (request : ProbeRequest) (conditions : ProbeConditions) :
    Except String PresenceState :=
  metadataPackPresenceState (request.hits conditions request.targets).length request.desiredCopies

theorem packHash_of_mem_hits {targets : List ClusterMember} {source : MetadataPackSource}
    (found : source ∈ request.hits conditions targets) : source.packHash = request.packHash := by
  obtain ⟨target, -, probed⟩ := List.mem_filterMap.mp found
  rw [probe] at probed
  cases answer : conditions.answers target with
  | present sizeBytes storedAtUnix signature =>
      rw [answer] at probed
      cases probed
      rfl
  | missing =>
      rw [answer] at probed
      cases probed
  | error detail =>
      rw [answer] at probed
      cases probed

theorem probePackFromNetwork_state :
    (probePackFromNetwork request conditions).map (fun verified => verified.1.state) =
      metadataPackPresenceState
        (request.probeRun conditions).sources.length request.desiredCopies := by
  obtain ⟨front, back, -, -, sources, -⟩ := @probeRun_front request conditions
  rw [← packResult_state request.desiredCopies fun source member => packHash_of_mem_hits
    (sources.mem_iff.mp member), probePackFromNetwork]
  cases packResult request.packHash (request.probeRun conditions).sources request.desiredCopies <;>
    rfl

theorem metadataPackPresenceState_enough {copies more : Nat} {desired : Int}
    (enough : desired ≤ copies) (atLeast : copies ≤ more) : metadataPackPresenceState copies
    (some desired) = metadataPackPresenceState more (some desired) := by
  have both : desired ≤ more := by omega
  simp only [metadataPackPresenceState, enough, both, if_true]

theorem state_of_unambiguous (unambiguous : request.Unambiguous) :
    (probePackFromNetwork request conditions).map (fun verified => verified.1.state) =
      exhaustiveState request conditions := by
  rw [probePackFromNetwork_state, exhaustiveState]
  obtain ⟨front, back, whole, -, sources, finished⟩ := @probeRun_front request conditions
  cases desired : request.desiredCopies with
  | none => rfl
  | some copies =>
      have counted : (request.hits conditions request.targets).length =
          (request.hits conditions front).length + (request.hits conditions back).length := by
        rw [← List.length_append, hits, hits, hits, ← List.filterMap_append]
        exact (((groups_perm unambiguous desired).symm.trans whole).filterMap _).length_eq
      have found := sources.length_eq
      rcases finished with rfl | ⟨needed, same, enough⟩
      · have none : (request.hits conditions []).length = 0 := rfl
        rw [counted, found, none, Nat.add_zero]
      · rw [desired, Option.some.injEq] at same
        subst same
        exact metadataPackPresenceState_enough enough (by omega)

/-- The first of two targets with a preferred id is the only one that is ever asked. -/
theorem exists_unprobed {copies : Int} (desired : request.desiredCopies = some copies)
    (ambiguous : ¬ request.Unambiguous) :
    ∃ lost ∈ request.targets, ∀ conditions, lost ∉ (request.probeRun conditions).probed := by
  have chosen := preferred_spec desired
  unfold Unambiguous at ambiguous
  push Not at ambiguous
  obtain ⟨rawNodeId, given, named, left, leftMember, right, rightMember, leftName, rightName,
    different⟩ := ambiguous
  have isPreferred : strip rawNodeId ∈ request.preferred.2 :=
    (chosen.named _).mpr ⟨named, List.mem_map_of_mem given, left, leftMember, leftName⟩
  rw [← chosen.ids] at isPreferred
  obtain ⟨first, preferred, firstName⟩ := List.mem_map.mp isPreferred
  have located := chosen.first first preferred
  have unprobed : ∀ target ∈ request.targets, strip target.nodeId = strip rawNodeId →
      target ≠ first → ∀ conditions, target ∉ (request.probeRun conditions).probed := by
    intro target member sameName other conditions isProbed
    obtain ⟨front, back, whole, probed, -, -⟩ := @probeRun_front request conditions
    rw [probed] at isProbed
    rcases List.mem_append.mp
      (whole.mem_iff.mpr (List.mem_append_left back isProbed)) with isFirst | remaining
    · have found := chosen.first target isFirst
      rw [sameName, ← firstName, located, Option.some.injEq] at found
      exact other found.symm
    · refine (mem_remainingTargets.mp remaining).2 ?_
      rw [sameName]
      exact (chosen.named _).mpr ⟨named, List.mem_map_of_mem given, left, leftMember, leftName⟩
  by_cases isLeft : left = first
  · exact ⟨right, rightMember, unprobed right rightMember rightName fun same => different
      (isLeft.trans same.symm)⟩
  · exact ⟨left, leftMember, unprobed left leftMember leftName isLeft⟩

/-- Only one target has the pack. -/
def onlyHolder (holder : ClusterMember) : ProbeConditions where
  answers := fun target =>
    if target = holder then .present 0 ⟨0⟩ { publicKeyB64 := [], signatureB64 := [] } else .missing
  targetParallelism := 1
  completion := ⟨id, fun batch => .refl batch⟩

theorem hits_onlyHolder {holder : ClusterMember} {targets : List ClusterMember} :
    request.hits (onlyHolder holder) targets = [] ↔ holder ∉ targets := by
  rw [hits, List.filterMap_eq_nil_iff]
  constructor
  · intro none member
    have missed := none holder member
    simp [probe, onlyHolder, probeMetadataPackFromTarget] at missed
  · intro absent target member
    have other : target ≠ holder := fun same => absent (same ▸ member)
    simp [probe, onlyHolder, probeMetadataPackFromTarget, other]

/-- Stopping early shows in the state exactly if two targets share a preferred id up to blanks; no
target is ever probed twice. -/
theorem probePackFromNetwork_exhaustive_iff (request : ProbeRequest) :
    (∀ conditions, (probePackFromNetwork request conditions).map
      (fun verified => verified.1.state) =
      exhaustiveState request conditions ∧ (request.probeRun conditions).probed.Nodup) ↔
    request.Unambiguous ∨ ∀ copies, request.desiredCopies = some copies → copies < 1 := by
  constructor
  · intro agrees
    by_contra neither
    rw [not_or] at neither
    obtain ⟨ambiguous, wanted⟩ := neither
    push Not at wanted
    obtain ⟨copies, desired, positive⟩ := wanted
    obtain ⟨lost, member, unprobed⟩ := exists_unprobed desired ambiguous
    obtain ⟨same, -⟩ := agrees (onlyHolder lost)
    obtain ⟨front, back, -, probed, sources, -⟩ := @probeRun_front request (onlyHolder lost)
    have none : request.hits (onlyHolder lost) front = [] := by
      rw [hits_onlyHolder, ← probed]
      exact unprobed _
    have some : 0 < (request.hits (onlyHolder lost) request.targets).length := by
      rw [List.length_pos_iff, ne_eq, hits_onlyHolder, not_not]
      exact member
    rw [probePackFromNetwork_state, exhaustiveState, desired, sources.length_eq, none] at same
    have most : ¬ copies < 1 := by omega
    have few : ¬ copies ≤ ((0 : Nat) : Int) := by omega
    simp only [metadataPackPresenceState, List.length_nil, most, few, some, if_false, if_true,
      Nat.lt_irrefl] at same
    split at same <;> cases same
  · intro fine conditions
    refine ⟨?_, ?_⟩
    · rcases fine with unambiguous | few
      · exact state_of_unambiguous unambiguous
      · rw [probePackFromNetwork_state, exhaustiveState]
        cases desired : request.desiredCopies with
        | none => rfl
        | some copies =>
            have below := few copies desired
            simp only [metadataPackPresenceState, below, if_true]
    · obtain ⟨front, back, whole, probed, -, -⟩ := @probeRun_front request conditions
      rw [probed]
      exact (List.nodup_append.mp (whole.nodup_iff.mp nodup_groups)).1

namespace PaddedNodeId

def holder : ClusterMember where
  nodeId := List.replicate 32 'b' ++ [' ']
  address := "a2".toList

/-- Two nodes besides the one that asks, whose ids differ in a blank. -/
def asked : ProbeRequest where
  packHash := List.replicate 64 'a'
  cluster := {
    selfNodeId := some (List.replicate 32 'a')
    members := [{ nodeId := List.replicate 32 'a', address := "a0".toList },
      { nodeId := List.replicate 32 'b', address := "a1".toList }, holder]
    distinct := by decide }
  selfAddr := "a0".toList
  desiredCopies := some 1
  preferredNodeIds := [List.replicate 32 'b']

end PaddedNodeId

/-- The pack is reported as lost although the other node has it. -/
theorem paddedNodeId_missed :
    (probePackFromNetwork PaddedNodeId.asked (onlyHolder PaddedNodeId.holder)).map
      (fun verified => verified.1.state) = .ok .failed ∧
    exhaustiveState PaddedNodeId.asked (onlyHolder PaddedNodeId.holder) = .ok .verified := by
  rw [probePackFromNetwork_state]
  decide +kernel

end Stopan.Packs
