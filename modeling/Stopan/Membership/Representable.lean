import Stopan.Membership.Refutation

namespace Stopan.Membership

open Stopan.Lib Stopan.Common

/-- The largest number that the field of a message can carry. -/
def maxIncarnation : Nat := 2 ^ 64 - 1

/-- The persisted incarnation is a `uint64`, and the node can announce itself in any state. -/
structure Representable (node : OwnNode) : Prop where
  stored : ∀ identity, node.file = some identity → identity.incarnation ≤ maxIncarnation
  announces : ∀ state, ∃ event, ownEvent node.manager node.manager.incarnation state = .ok event ∧
    event.incarnation.toNat = node.manager.incarnation

def errorOf {α : Type} : Except NodeError α → Option NodeError
  | .ok _ => none
  | .error reason => some reason

/-- The exception with which a step ends its thread. -/
def raised? (node : OwnNode) : OwnEvent → Option NodeError
  | .advance thread outcome _ =>
      match node.threads.get? thread with
      | some (.bump event) =>
          errorOf (bumpAbove node.file node.manager.nodeId event.incarnation.toNat outcome).2
      | some (.buildEvent state) => errorOf (ownEvent node.manager node.manager.incarnation state)
      | _ => none
  | _ => none

/-- The incarnation in the file is not the largest one. -/
def roomInFile (file : Option NodeIdentity) : Bool :=
  file.all fun stored => decide (stored.incarnation < maxIncarnation)

/-- Neither the incarnation of an event that is bumped nor the persisted one is the largest one when
a bump or a restart adds one to it, and the identity file can be written. -/
def bumpsInRange (node : OwnNode) : OwnEvent → Bool
  | .advance thread outcome _ =>
      match node.threads.get? thread with
      | some (.bump event) =>
          outcome == .written && decide (event.incarnation.toNat < maxIncarnation) &&
            roomInFile node.file
      | _ => true
  | .restart .. => roomInFile node.file
  | _ => true

section Steps

variable {node next : OwnNode} {identity : NodeIdentity}

/-- Nothing in memory is above the file, so the file decides. -/
theorem WithinFile.representable_iff (within : WithinFile node identity) :
    Representable node ↔ identity.incarnation ≤ maxIncarnation := by
  constructor
  · intro representable
    exact representable.stored identity within.file
  · intro small
    refine ⟨fun stored found => ?_, fun state => ?_⟩
    · rw [within.file, Option.some.injEq] at found
      exact found ▸ small
    · have fits : node.manager.incarnation < 2 ^ 64 := by
        have current := within.current
        rw [maxIncarnation] at small
        omega
      rw [ownEvent, if_pos fits]
      exact ⟨_, rfl, UInt64.toNat_ofNat_of_lt fits⟩

/-- The file decides also after a step, whatever the step has put there. -/
theorem WithinFile.representable_of_file {event : OwnEvent} {stored : NodeIdentity}
    (within : WithinFile node identity)
    (stepped : Membership.ownStep node event = some next) (file : next.file = some stored) :
    Representable next ↔ stored.incarnation ≤ maxIncarnation := by
  obtain ⟨known, after⟩ := within.ownStep stepped
  have same := after.file.symm.trans file
  cases same
  exact after.representable_iff

theorem roomInFile_some (stored : NodeIdentity) :
    roomInFile (some stored) = true ↔ stored.incarnation < maxIncarnation := by
  rw [roomInFile, Option.all_some, decide_eq_true_eq]

/-- The step of a thread that neither bumps nor builds an event leaves the file alone and raises
nothing. -/
theorem advanceThread_file {thread : Nat} {phase : Phase} {outcome : WriteOutcome}
    {readings : Readings} (still : ∀ event, phase ≠ .bump event)
    (stepped : advanceThread node thread outcome readings phase = some next) :
    next.file = node.file := by
  cases phase with
  | bump event => exact absurd rfl (still event)
  | readLeaving event =>
      simp only [advanceThread] at stepped
      split at stepped <;> (cases stepped; rfl)
  | compareIncarnation event =>
      simp only [advanceThread] at stepped
      split at stepped <;> (cases stepped; rfl)
  | checkLeaving =>
      simp only [advanceThread] at stepped
      split at stepped <;> (cases stepped; rfl)
  | buildEvent state =>
      simp only [advanceThread] at stepped
      split at stepped <;> (cases stepped; rfl)
  | lockMembers announcement =>
      simp only [advanceThread] at stepped
      split at stepped
      · cases stepped
      · cases stepped
        rfl
  | assign issue =>
      cases stepped
      rfl
  | storeRecord announcement read =>
      cases stepped
      rfl
  | addGossip announcement =>
      cases stepped
      rfl

/-- A bump stays in range when the larger of both incarnations has room. -/
theorem WithinFile.bump_representable_iff {thread : Nat} {event : MemberEvent}
    {outcome : WriteOutcome} {readings : Readings}
    (within : WithinFile node identity) (running : node.threads.get? thread = some (.bump event))
    (stepped : Membership.ownStep node (.advance thread outcome readings) = some next) :
    (Representable next ∧ raised? node (.advance thread outcome readings) = none) ↔
      bumpsInRange node (.advance thread outcome readings) = true := by
  have bumped := @WithinFile.bumpAbove _ _ outcome within event.incarnation.toNat
  have bump := stepped
  simp only [Membership.ownStep, running] at bump
  rw [Membership.advanceThread, bumped] at bump
  simp only [raised?, bumpsInRange, running]
  rw [bumped]
  cases outcome with
  | written =>
      cases bump
      rw [within.representable_of_file stepped rfl]
      simp only [within.file, errorOf, and_true, beq_self_eq_true, Bool.true_and,
        Bool.and_eq_true, decide_eq_true_eq, roomInFile_some]
      omega
  | failedBeforeRename => simp [errorOf]
  | failedAfterRename => simp [errorOf]

/-- A step ends in a state with representable incarnations and without an exception exactly when it
is in range. -/
theorem WithinFile.ownStep_representable_iff {event : OwnEvent} (within : WithinFile node identity)
    (representable : Representable node) (stepped : Membership.ownStep node event = some next) :
    (Representable next ∧ raised? node event = none) ↔ bumpsInRange node event = true := by
  have small := within.representable_iff.mp representable
  have unchanged : next.file = node.file → Representable next := fun same =>
    (within.representable_of_file stepped (same.trans within.file)).mpr small
  cases event with
  | receive thread event =>
      refine iff_of_true ⟨unchanged ?_, rfl⟩ rfl
      simp only [Membership.ownStep] at stepped
      split at stepped <;> cases stepped
      rfl
  | leave thread =>
      refine iff_of_true ⟨unchanged ?_, rfl⟩ rfl
      simp only [Membership.ownStep] at stepped
      split at stepped <;> cases stepped
      rfl
  | peerEvent event readings =>
      refine iff_of_true ⟨unchanged ?_, rfl⟩ rfl
      simp only [Membership.ownStep] at stepped
      split at stepped <;> cases stepped
      rfl
  | restart address gossipTtl now =>
      have begun := stepped
      simp only [Membership.ownStep] at begun
      have after := withinFile_startProcess (by rw [within.file]; exact within.stripped) begun
      rw [after.representable_iff, within.file]
      simp only [raised?, bumpsInRange, within.file, and_true, roomInFile_some, loadForStartup]
      exact Nat.succ_le_iff
  | advance thread outcome readings =>
      cases running : node.threads.get? thread with
      | none => simp [Membership.ownStep, running] at stepped
      | some phase =>
          by_cases bumps : ∃ event, phase = .bump event
          · obtain ⟨event, rfl⟩ := bumps
            exact within.bump_representable_iff running stepped
          · have same : next.file = node.file := by
              simp only [Membership.ownStep, running] at stepped
              exact advanceThread_file (fun event is => bumps ⟨event, is⟩) stepped
            cases phase with
            | bump event => exact absurd ⟨event, rfl⟩ bumps
            | buildEvent state =>
                obtain ⟨announcement, built, -⟩ := representable.announces state
                refine iff_of_true ⟨unchanged same, ?_⟩ ?_
                · simp only [raised?, running, built, errorOf]
                · simp only [bumpsInRange, running]
            | _ => exact iff_of_true ⟨unchanged same,
              by simp only [raised?, running]⟩ (by simp only [bumpsInRange, running])

end Steps

/-- In every step of the run the node stays able to announce itself, and no thread ends with an
exception. -/
def AlwaysRepresentable (start : OwnNode) (events : List OwnEvent) : Prop :=
  ∀ earlier event later reached next, events = earlier ++ event :: later →
    runEvents ownStep start earlier = some reached →
    ownStep reached event = some next → Representable next ∧ raised? reached event = none

/-- From a start with a representable incarnation, through any interleaving of handlers and any
number of restarts, the node stays representable and no handler fails if and only if no bump and no
restart adds one to the largest incarnation and the identity file can be written. -/
theorem ownIncarnation_representable_iff {file : Option NodeIdentity} {freshNodeId address : Text}
    {gossipTtl now : Int} {start after : OwnNode} {events : List OwnEvent}
    (stripped : strip (loadForStartup file freshNodeId).nodeId =
      (loadForStartup file freshNodeId).nodeId)
    (first : (loadForStartup file freshNodeId).incarnation ≤ maxIncarnation)
    (started : startProcess file freshNodeId address gossipTtl now [] [] = some start)
    (ran : runEvents ownStep start events = some after) :
    Representable start ∧ (AlwaysRepresentable start events ↔
      EventsMeet ownStep (fun node event => bumpsInRange node event = true) start events) := by
  have within := withinFile_startProcess stripped started
  have representable := within.representable_iff.mpr first
  refine ⟨representable,
    safeSteps_iff_eventsMeet (fun node => ∃ identity, WithinFile node identity) Representable
    (fun node event => raised? node event = none) ?_ ?_ ⟨_, within⟩ representable ran⟩
  · rintro node event next ⟨identity, holds⟩ stepped
    exact holds.ownStep stepped
  · rintro node event next ⟨identity, holds⟩ safe stepped
    exact holds.ownStep_representable_iff safe stepped

namespace TwoHandlers

/-- An event about the node with the largest incarnation there is. -/
def suspectedAtMost : MemberEvent := { suspected with incarnation := 0xffffffffffffffff }

/-- The event is received, and its handler goes on until it is about to announce the node. -/
def bumped (event : MemberEvent) : List OwnEvent :=
  [.receive 1 event, advance 1, advance 1, advance 1, advance 1, advance 1]

end TwoHandlers

open TwoHandlers in
/-- The bump persists `2 ^ 64`, which the ALIVE event cannot carry. -/
theorem suspectedAtMost_notRepresentable :
    ∃ start node, start? = some start ∧ isValidMemberEvent suspectedAtMost = true ∧
      runEvents ownStep start (bumped suspectedAtMost) = some node ∧
      node.manager.incarnation = 2 ^ 64 ∧
      ¬ AlwaysRepresentable start (bumped suspectedAtMost ++ [advance 1]) := by
  obtain ⟨start, started⟩ := Option.isSome_iff_exists.mp (by decide +kernel : start?.isSome = true)
  have reached : (start?.bind fun start => runEvents ownStep start (bumped suspectedAtMost)).map
      (fun node =>
      (node.manager.incarnation, raised? node (advance 1), (ownStep node (advance 1)).isSome)) =
      some (2 ^ 64, some (.value "Value out of range"), true) := by decide +kernel
  rw [started, Option.bind_some] at reached
  obtain ⟨node, ran, state⟩ := Option.map_eq_some_iff.mp reached
  simp only [Prod.mk.injEq] at state
  obtain ⟨incarnation, raised, goesOn⟩ := state
  obtain ⟨next, stepped⟩ := Option.isSome_iff_exists.mp goesOn
  refine ⟨start, node, started, by decide +kernel, ran, incarnation, fun always => ?_⟩
  obtain ⟨-, silent⟩ := always (bumped suspectedAtMost) (advance 1) [] node next rfl ran stepped
  rw [silent] at raised
  cases raised

open TwoHandlers in
theorem suspected_representable :
    ∃ start, start? = some start ∧ AlwaysRepresentable start (bumped suspected ++ [advance 1]) := by
  obtain ⟨start, started⟩ := Option.isSome_iff_exists.mp (by decide +kernel : start?.isSome = true)
  have reached : (start?.bind fun start => runEvents ownStep start
      (bumped suspected ++ [advance 1])).isSome = true := by
    decide +kernel
  have checked : start?.map
      (fun start => checkEvents ownStep bumpsInRange start (bumped suspected ++ [advance 1])) =
      some true := by decide +kernel
  rw [started, Option.bind_some] at reached
  rw [started, Option.map_some, Option.some.injEq] at checked
  obtain ⟨after, ran⟩ := Option.isSome_iff_exists.mp reached
  refine ⟨start, started, ?_⟩
  exact (@ownIncarnation_representable_iff none nodeId address 30 0 start after _
    (by decide +kernel) (by decide +kernel)
    started ran).2.mpr (eventsMeet_of_checkEvents checked)

end Stopan.Membership
