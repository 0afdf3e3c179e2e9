import Stopan.Membership.Convergence
import Stopan.Membership.Leaving

namespace Stopan.Membership

open Stopan.Lib Stopan.Common

/-- What a peer makes of the two events, whichever of them it has already. -/
def MemberEvent.WinsOver (announced event : MemberEvent) : Prop :=
  ∀ (peerFile : Option NodeIdentity) (peer : MembershipManager) (record :
    MemberRecord) (outcome : WriteOutcome)
    (readings : Readings), peer.nodeId ≠ event.nodeId →
    peer.members.get? event.nodeId = some record →
    (record.incarnation = event.incarnation.toNat → record.state = event.state →
      ∃ after, (applyEvent peerFile peer announced outcome readings).manager.members.get?
        event.nodeId = some after ∧
        after.incarnation = announced.incarnation.toNat ∧ after.state = announced.state ∧
        after.address = announced.address) ∧
    (record.incarnation = announced.incarnation.toNat → record.state = announced.state →
      (applyEvent peerFile peer event outcome readings).manager = peer)

/-- The persisted incarnation has grown, and the gossip buffer holds an ALIVE event of the local
node with the new incarnation that wins over the received event. -/
def Refuted (file : Option NodeIdentity) (event : MemberEvent) (handled : Handled) : Prop :=
  ∃ identity stored addedAt announced, file = some identity ∧ handled.file = some stored ∧
    identity.incarnation < stored.incarnation ∧
    (addedAt, announced) ∈ handled.manager.gossip.events ∧
    announced.nodeId = event.nodeId ∧ announced.state = .alive ∧
    announced.incarnation.toNat = stored.incarnation ∧ announced.WinsOver event

/-- The event is not LEFT, the new incarnation is persisted and fits the message, and the buffer's
lifetime has not passed when the announcement has been added. -/
def refutable (file : Option NodeIdentity) (manager : MembershipManager) (event : MemberEvent)
    (outcome : WriteOutcome) (readings : Readings) : Bool :=
  match file with
  | none => false
  | some identity =>
      decide (event.state ≠ .left) && decide (outcome = .written) &&
        decide (max identity.incarnation event.incarnation.toNat + 1 < 2 ^ 64) &&
        decide (readings.prunedAt - manager.gossip.ttl ≤ readings.addedAt)

theorem winsOver_of_newer {announced event : MemberEvent}
    (valid : isValidMemberEvent announced = true) (same : announced.nodeId = event.nodeId)
    (newer : event.incarnation.toNat < announced.incarnation.toNat) :
    announced.WinsOver event := by
  intro peerFile peer record outcome readings other known
  have fromPeer : announced.nodeId ≠ peer.nodeId := fun equal => other (equal.symm.trans same)
  constructor
  · intro incarnation _
    refine ⟨applyEventToRecord record announced readings.observedAt true, ?_, ?_, ?_, ?_⟩
    · rw [applyEvent, if_neg (by simp [valid]), if_neg fromPeer, applyPeerEvent, same, known]
      dsimp only
      rw [if_pos (by omega), storeRecord_members, same, Dict.get?_set_self]
    · simp [applyEventToRecord_incarnation]
    · exact applyEventToRecord_state
    · simp [applyEventToRecord_address]
  · intro incarnation _
    rw [applyEvent]
    split
    · rfl
    · rw [if_neg (Ne.symm other), applyPeerEvent, known]
      dsimp only
      rw [if_neg (by omega), if_pos (by omega)]

/-- The incarnation that a thread carries. -/
def Phase.Below (bound : Nat) : Phase → Prop
  | .assign issue => issue.incarnation ≤ bound
  | .lockMembers announcement | .storeRecord announcement _ | .addGossip announcement =>
      announcement.event.incarnation.toNat ≤ bound
  | _ => True

/-- No incarnation of the node in memory or in the gossip is above the persisted one. -/
structure WithinFile (node : OwnNode) (identity : NodeIdentity) : Prop where
  file : node.file = some identity
  nodeId : identity.nodeId = node.manager.nodeId
  stripped : strip identity.nodeId = identity.nodeId
  validNodeId : isValidNodeId identity.nodeId = true
  validAddress : isValidAddress node.manager.address = true
  current : node.manager.incarnation ≤ identity.incarnation
  phases : ∀ thread phase, node.threads.get? thread = some phase → phase.Below identity.incarnation
  gossip : ∀ entry ∈ node.manager.gossip.events, entry.2.nodeId = identity.nodeId →
    entry.2.incarnation.toNat ≤ identity.incarnation

theorem Phase.Below.raise {phase : Phase} {bound higher : Nat} (below : phase.Below bound)
    (order : bound ≤ higher) :
    phase.Below higher := by
  cases phase <;> first | exact Nat.le_trans below order | trivial

theorem GossipBuffer.mem_add {gossip : GossipBuffer} {event : MemberEvent} {readings : Readings}
    {entry : Int × MemberEvent} (member : entry ∈ (gossip.add event readings).events) :
    entry ∈ gossip.events ∨ entry.2 = event := by
  unfold GossipBuffer.add at member
  split at member
  · rcases List.mem_append.mp (List.mem_filter.mp member).1 with old | new
    · exact .inl old
    · rw [List.mem_singleton.mp new]
      exact .inr rfl
  · exact .inl member

theorem applyPeerEvent_gossip {manager : MembershipManager} {event : MemberEvent}
    {readings : Readings} {entry : Int × MemberEvent}
    (member : entry ∈ (applyPeerEvent manager event readings).gossip.events) :
    entry ∈ manager.gossip.events ∨ entry.2 = event := by
  have stored : ∀ record, (storeRecord manager event record readings).gossip =
      manager.gossip.add event readings := by
    intro record
    unfold storeRecord completeBootstrap
    dsimp only
    split <;> rfl
  unfold applyPeerEvent at member
  split at member
  · exact GossipBuffer.mem_add (stored _ ▸ member)
  · split at member
    · exact GossipBuffer.mem_add (stored _ ▸ member)
    · split at member
      · exact .inl member
      · split at member
        · exact GossipBuffer.mem_add (stored _ ▸ member)
        · exact .inl member

theorem applyPeerEvent_address (manager : MembershipManager) (event : MemberEvent)
    (readings : Readings) : (applyPeerEvent manager event readings).nodeId = manager.nodeId ∧
      (applyPeerEvent manager event readings).address = manager.address := by
  have stored : ∀ record, (storeRecord manager event record readings).nodeId = manager.nodeId ∧
      (storeRecord manager event record readings).address = manager.address := by
    intro record
    unfold storeRecord completeBootstrap
    dsimp only
    split <;> exact ⟨rfl, rfl⟩
  unfold applyPeerEvent
  repeat' split
  all_goals first | exact stored _ | exact ⟨rfl, rfl⟩

theorem bumpAbove_nodeId {identity stored : NodeIdentity} {nodeId : Text} {observed : Nat}
    {outcome : WriteOutcome} {result : Except NodeError Nat}
    (bumped : bumpAbove (some identity) nodeId observed outcome = (some stored, result)) :
    stored.nodeId = identity.nodeId := by
  unfold bumpAbove at bumped
  dsimp only at bumped
  split at bumped
  · cases bumped
    rfl
  · split at bumped
    · cases bumped
      rfl
    · rename_i same
      cases outcome <;> cases bumped
      · exact (not_ne_iff.mp same).symm
      · rfl
      · exact (not_ne_iff.mp same).symm

section Steps

variable {node after : OwnNode} {identity : NodeIdentity} {thread : Nat} {next : Phase}

theorem WithinFile.goTo (within : WithinFile node identity)
    (below : next.Below identity.incarnation) :
    WithinFile (node.goTo thread next) identity := by
  refine { within with phases := ?_ }
  intro other phase found
  change (node.threads.set thread next).get? other = some phase at found
  rw [Dict.get?_set] at found
  split at found
  · cases found
    exact below
  · exact within.phases other phase found

theorem WithinFile.finish (within : WithinFile node identity) :
    WithinFile (node.finish thread) identity :=
  { within with phases := fun other phase found => within.phases other phase
                  (Dict.get?_of_get?_erase found) }

/-- The file is replaced by one with an incarnation that is no lower. -/
theorem WithinFile.raise {stored : NodeIdentity} (within : WithinFile node identity)
    (sameId : stored.nodeId = identity.nodeId)
    (higher : identity.incarnation ≤ stored.incarnation) :
    WithinFile { node with file := some stored } stored where
  file := rfl
  nodeId := sameId.trans within.nodeId
  stripped := sameId ▸ within.stripped
  validNodeId := sameId ▸ within.validNodeId
  validAddress := within.validAddress
  current := within.current.trans higher
  phases := fun other phase found => (within.phases other phase found).raise higher
  gossip := fun entry member own => (within.gossip entry member (own.trans sameId)).trans higher

theorem WithinFile.advanceThread {phase : Phase} {outcome : WriteOutcome} {readings : Readings}
    (within : WithinFile node identity) (running : node.threads.get? thread = some phase)
    (stepped : Membership.advanceThread node thread outcome readings phase = some after) :
    ∃ stored, WithinFile after stored := by
  have below := within.phases thread phase running
  cases phase with
  | readLeaving event =>
      simp only [Membership.advanceThread] at stepped
      split at stepped <;> cases stepped
      · exact ⟨identity, within.finish⟩
      · exact ⟨identity, within.goTo trivial⟩
  | compareIncarnation event =>
      simp only [Membership.advanceThread] at stepped
      split at stepped <;> cases stepped
      · exact ⟨identity, within.finish⟩
      · exact ⟨identity, within.goTo trivial⟩
  | bump event =>
      simp only [Membership.advanceThread] at stepped
      rw [within.file] at stepped
      split at stepped <;> cases stepped
      · rename_i file reason bumped
        obtain ⟨stored, rfl, higher, -⟩ := bumpAbove_cases bumped
        exact ⟨stored, within.finish.raise (bumpAbove_nodeId bumped) higher⟩
      · rename_i file incarnation bumped
        obtain ⟨stored, rfl, higher, returned⟩ := bumpAbove_cases bumped
        have raised := within.raise (bumpAbove_nodeId bumped) higher
        have gone := @WithinFile.goTo _ stored thread
          (.assign { incarnation, place := node.issued.length }) raised
          (returned incarnation rfl).2
        exact ⟨stored, { gone with }⟩
  | assign issue =>
      cases stepped
      have gone := @WithinFile.goTo _ identity thread .checkLeaving within trivial
      exact ⟨identity, { gone with current := below }⟩
  | checkLeaving =>
      simp only [Membership.advanceThread] at stepped
      split at stepped <;> cases stepped
      · exact ⟨identity, within.finish⟩
      · exact ⟨identity, within.goTo trivial⟩
  | buildEvent state =>
      simp only [Membership.advanceThread] at stepped
      split at stepped <;> cases stepped
      · exact ⟨identity, within.finish⟩
      · rename_i event built
        refine ⟨identity, within.goTo ?_⟩
        exact (ownEvent_ok built).1.trans_le within.current
  | lockMembers announcement =>
      simp only [Membership.advanceThread] at stepped
      split at stepped <;> cases stepped
      have gone :=
        @WithinFile.goTo _ identity thread (.storeRecord announcement node.current) within below
      exact ⟨identity, { gone with }⟩
  | storeRecord announcement read =>
      cases stepped
      have gone := @WithinFile.goTo _ identity thread (.addGossip announcement) within below
      exact ⟨identity, { gone with }⟩
  | addGossip announcement =>
      cases stepped
      refine ⟨identity, { @WithinFile.finish _ identity thread within with gossip := ?_ }⟩
      intro entry member own
      rcases GossipBuffer.mem_add member with old | new
      · exact within.gossip entry old own
      · rw [new]
        exact below

theorem withinFile_startProcess {file : Option NodeIdentity} {freshNodeId address : Text}
    {gossipTtl now : Int} {issued : List Nat} {announced : List Announcement}
    (stripped : strip (loadForStartup file freshNodeId).nodeId =
      (loadForStartup file freshNodeId).nodeId)
    (begun : startProcess file freshNodeId address gossipTtl now issued announced = some after) :
    WithinFile after (loadForStartup file freshNodeId) := by
  unfold startProcess at begun
  dsimp only at begun
  split at begun
  · cases begun
  · rename_i manager created
    cases begun
    unfold createManager at created
    split at created
    · cases created
    · split at created <;> cases created
      rename_i nodeIdValid addressValid
      rw [Bool.not_eq_false] at nodeIdValid addressValid
      exact {
        file := rfl
        nodeId := stripped.symm
        stripped
        validNodeId := stripped ▸ nodeIdValid
        validAddress := addressValid
        current := by cases file <;> simp [loadForStartup]
        phases := fun _ _ found => nomatch found
        gossip := fun _ member => (by cases member) }

theorem WithinFile.ownStep {event : OwnEvent} (within : WithinFile node identity)
    (stepped : Membership.ownStep node event = some after) : ∃ stored, WithinFile after stored := by
  cases event with
  | receive thread event =>
      simp only [Membership.ownStep] at stepped
      split at stepped <;> cases stepped
      exact ⟨identity, within.goTo trivial⟩
  | leave thread =>
      simp only [Membership.ownStep] at stepped
      split at stepped <;> cases stepped
      have gone := @WithinFile.goTo _ identity thread (.buildEvent .left) within trivial
      exact ⟨identity, { gone with }⟩
  | advance thread outcome readings =>
      simp only [Membership.ownStep] at stepped
      split at stepped
      · cases stepped
      · rename_i phase running
        exact within.advanceThread running stepped
  | peerEvent event readings =>
      simp only [Membership.ownStep] at stepped
      split at stepped <;> cases stepped
      rename_i allowed
      simp only [Bool.or_eq_true, decide_eq_true_eq, not_or] at allowed
      obtain ⟨sameId, sameAddress⟩ := applyPeerEvent_address node.manager event readings
      refine ⟨identity,
        { within with nodeId := ?_, validAddress := ?_, current := ?_, gossip := ?_ }⟩
      · exact within.nodeId.trans sameId.symm
      · exact sameAddress.symm ▸ within.validAddress
      · exact (applyPeerEvent_own readings allowed.2).1.trans_le within.current
      · intro entry member own
        rcases applyPeerEvent_gossip member with old | new
        · exact within.gossip entry old own
        · exact absurd (new ▸ own.trans within.nodeId) allowed.2
  | restart address gossipTtl now =>
      refine ⟨_, withinFile_startProcess ?_ stepped⟩
      rw [within.file]
      exact within.stripped

theorem WithinFile.runEvents {events : List OwnEvent} (within : WithinFile node identity)
    (ran : Lib.runEvents Membership.ownStep node events = some after) :
    ∃ stored, WithinFile after stored :=
  runEvents_preserves (fun node => ∃ stored, WithinFile node stored)
    (fun _ _ _ holds stepped => holds.elim fun _ within => within.ownStep stepped)
      ⟨identity, within⟩ ran

end Steps

section Handling

variable {node : OwnNode} {identity : NodeIdentity} {event : MemberEvent} {outcome : WriteOutcome}
  {readings : Readings}

/-- The event that announces the bumped incarnation. -/
def aliveEvent (manager : MembershipManager) (incarnation : Nat) : MemberEvent where
  nodeId := manager.nodeId
  address := manager.address
  incarnation := .ofNat incarnation
  state := .alive

theorem WithinFile.aliveEvent_valid (within : WithinFile node identity) {incarnation : Nat}
    (positive : 1 ≤ incarnation) (fits : incarnation < 2 ^ 64) :
    isValidMemberEvent (aliveEvent node.manager incarnation) = true := by
  have nodeIdValid := within.nodeId ▸ within.validNodeId
  simp only [isValidMemberEvent, aliveEvent, nodeIdValid, within.validAddress,
    Bool.true_and, Bool.and_eq_true]
  have same : (UInt64.ofNat incarnation).toNat = incarnation := UInt64.toNat_ofNat_of_lt fits
  exact ⟨same.symm ▸ decide_eq_true positive, rfl⟩

theorem WithinFile.bumpAbove (within : WithinFile node identity) (observed : Nat) :
    Membership.bumpAbove node.file node.manager.nodeId observed outcome =
      match outcome with
      | .written => (some { identity with incarnation := max identity.incarnation observed + 1 },
          .ok (max identity.incarnation observed + 1))
      | .failedBeforeRename => (some identity, .error .io)
      | .failedAfterRename =>
          (some { identity with incarnation := max identity.incarnation observed + 1 },
            .error .io) := by
  have stripped := within.stripped
  have named : identity.nodeId.isEmpty = false := by
    have valid := within.validNodeId
    simp only [isValidNodeId, nodeIdLength, stripped, Bool.and_eq_true, beq_iff_eq] at valid
    cases text : identity.nodeId with
    | nil => simp [text] at valid
    | cons => rfl
  unfold Membership.bumpAbove
  rw [within.file, ← within.nodeId]
  cases outcome <;> simp [stripped, named]

/-- No event of the buffer announces an incarnation above the persisted one. -/
theorem WithinFile.not_announced (within : WithinFile node identity) {addedAt : Int}
    {announced : MemberEvent} (member : (addedAt, announced) ∈ node.manager.gossip.events)
    (own : announced.nodeId = node.manager.nodeId) {incarnation : Nat}
    (higher : identity.incarnation < incarnation) : announced.incarnation.toNat ≠ incarnation := by
  have bound := within.gossip _ member (own.trans within.nodeId.symm)
  dsimp only at bound
  omega

/-- A handler that refutes: the bump, then the announcement with the bumped incarnation. -/
theorem WithinFile.handleSelfEvent (within : WithinFile node identity)
    (staying : node.manager.leaving = false) (concerned : concernsSelf node.manager event = true)
    (current : node.manager.incarnation ≤ event.incarnation.toNat) :
    Membership.handleSelfEvent node.file node.manager event outcome readings =
      match outcome with
      | .written =>
          { file := some { identity with
            incarnation := max identity.incarnation event.incarnation.toNat + 1 }
            manager := (announceAlive { node.manager with
              incarnation := max identity.incarnation event.incarnation.toNat + 1 } readings).1
            raised := (announceAlive { node.manager with
              incarnation := max identity.incarnation event.incarnation.toNat + 1 } readings).2 }
      | .failedBeforeRename =>
          { file := some identity, manager := node.manager, raised := some .io }
      | .failedAfterRename =>
          { file := some { identity with
            incarnation := max identity.incarnation event.incarnation.toNat + 1 }
            manager := node.manager
            raised := some .io } := by
  rw [Membership.handleSelfEvent, if_neg (by simp [staying, concerned]),
    if_neg (by omega), within.bumpAbove]
  cases outcome <;> rfl

theorem announceAlive_of_fits {manager : MembershipManager} (staying : manager.leaving = false)
    (fits : manager.incarnation < 2 ^ 64) :
    (announceAlive manager readings).1.gossip = manager.gossip.add
      (aliveEvent manager manager.incarnation) readings := by
  simp only [announceAlive, staying, Bool.false_eq_true, if_false, ownEvent, fits, if_true]
  rfl

theorem WithinFile.refuted_of_written (within : WithinFile node identity)
    (staying : node.manager.leaving = false)
    (own : event.nodeId = node.manager.nodeId) (concerned : concernsSelf node.manager event = true)
    (current : node.manager.incarnation ≤ event.incarnation.toNat) :
    Refuted node.file event
      (Membership.handleSelfEvent node.file node.manager event .written readings) ↔
      max identity.incarnation event.incarnation.toNat + 1 < 2 ^ 64 ∧
        readings.prunedAt - node.manager.gossip.ttl ≤ readings.addedAt := by
  rw [within.handleSelfEvent staying concerned current]
  dsimp only
  generalize next : max identity.incarnation event.incarnation.toNat + 1 = incarnation
  have higher : identity.incarnation < incarnation := by omega
  by_cases fits : incarnation < 2 ^ 64
  · have valid := within.aliveEvent_valid (by omega) fits
    have gossip := @announceAlive_of_fits readings { node.manager with incarnation } staying fits
    change _ = node.manager.gossip.add (aliveEvent node.manager incarnation) readings at gossip
    rw [GossipBuffer.add, if_pos valid] at gossip
    constructor
    · rintro ⟨_, _, addedAt, announced, found, ⟨⟩, -, member, sameId, -, persisted, -⟩
      refine ⟨fits, ?_⟩
      rw [gossip] at member
      obtain ⟨listed, recent⟩ := List.mem_filter.mp member
      rcases List.mem_append.mp listed with old | new
      · exact absurd persisted (within.not_announced old (sameId.trans own) higher)
      · cases List.mem_singleton.mp new
        exact of_decide_eq_true recent
    · rintro ⟨-, recent⟩
      refine ⟨identity, _, readings.addedAt, aliveEvent node.manager incarnation, within.file, rfl,
        higher, ?_, own.symm, rfl,
        UInt64.toNat_ofNat_of_lt fits, winsOver_of_newer valid own.symm ?_⟩
      · rw [gossip]
        exact List.mem_filter.mpr ⟨by simp, decide_eq_true recent⟩
      · have same : (aliveEvent node.manager incarnation).incarnation.toNat = incarnation :=
          UInt64.toNat_ofNat_of_lt fits
        omega
  · constructor
    · rintro ⟨_, _, _, announced, -, ⟨⟩, -, -, -, -, persisted, -⟩
      have bound := announced.incarnation.toNat_lt
      dsimp only at persisted
      omega
    · rintro ⟨small, -⟩
      exact absurd small fits

/-- A live node refutes an event about itself, from every state that any interleaving reaches, if
and only if the event is not LEFT and the new incarnation is persisted, fits the message and is
added to the gossip in time. The ALIVE event is the one that the handler adds to the gossip, with
the incarnation that it has persisted. -/
theorem selfEvent_refuted_iff {file : Option NodeIdentity} {freshNodeId address : Text}
    {gossipTtl now : Int} {start node : OwnNode} {events : List OwnEvent} {event : MemberEvent}
    {outcome : WriteOutcome} {readings : Readings}
    (stripped : strip (loadForStartup file freshNodeId).nodeId =
      (loadForStartup file freshNodeId).nodeId)
    (started : startProcess file freshNodeId address gossipTtl now [] [] = some start)
    (ran : runEvents ownStep start events = some node) (staying : node.manager.leaving = false)
    (valid : isValidMemberEvent event = true) (own : event.nodeId = node.manager.nodeId)
    (addressed : event.address = node.manager.address)
    (current : node.manager.incarnation ≤ event.incarnation.toNat)
    (accuses : event.state ≠ .alive) :
    Refuted node.file event (applyEvent node.file node.manager event outcome readings) ↔
      refutable node.file node.manager event outcome readings = true := by
  obtain ⟨identity, within⟩ := (withinFile_startProcess stripped started).runEvents ran
  rw [applyEvent, if_neg (by simp [valid]), if_pos own]
  simp only [refutable, within.file, Bool.and_eq_true, decide_eq_true_eq]
  rw [← within.file]
  by_cases left : event.state = .left
  · have ignored : concernsSelf node.manager event = false := by simp [concernsSelf, left]
    rw [handleSelfEvent, if_pos (by simp [ignored])]
    refine iff_of_false ?_ (fun condition => condition.1.1.1 left)
    rintro ⟨before, after, _, _, foundBefore, foundAfter, higher, -⟩
    rw [foundBefore, Option.some.injEq] at foundAfter
    rw [foundAfter] at higher
    exact absurd higher (lt_irrefl _)
  · have states := state_of_isValidMemberEvent valid
    have concerned : concernsSelf node.manager event = true := by
      simp only [validEventStates, List.mem_cons, List.not_mem_nil, or_false, accuses,
        left, false_or] at states
      rcases states with suspect | dead
      · simp [concernsSelf, addressed, suspect]
      · simp [concernsSelf, addressed, dead]
    cases outcome with
    | written =>
        rw [within.refuted_of_written staying own concerned current]
        simp [left]
    | failedBeforeRename =>
        refine iff_of_false ?_ (by simp)
        rw [within.handleSelfEvent staying concerned current]
        rintro ⟨before, after, _, _, foundBefore, ⟨⟩, higher, -⟩
        rw [within.file, Option.some.injEq] at foundBefore
        rw [foundBefore] at higher
        exact absurd higher (lt_irrefl _)
    | failedAfterRename =>
        refine iff_of_false ?_ (by simp)
        rw [within.handleSelfEvent staying concerned current]
        rintro ⟨_, _, addedAt, announced, -, ⟨⟩, -, member, sameId, -, persisted, -⟩
        have higher : identity.incarnation < max identity.incarnation event.incarnation.toNat +
            1 := by omega
        exact within.not_announced member (sameId.trans own) higher persisted

end Handling

namespace TwoHandlers

/-- A LEFT event about the node that the node has never announced. -/
def reportedLeft : MemberEvent := { suspected with incarnation := 4, state := .left }

def reportedDead : MemberEvent := { suspected with incarnation := 4, state := .dead }

def readings : Readings where
  observedAt := 1
  addedAt := 1
  prunedAt := 1

end TwoHandlers

open TwoHandlers in
theorem reportedLeft_notRefuted :
    ¬ ∀ (file : Option NodeIdentity) (freshNodeId address : Text) (gossipTtl now :
      Int) (start node : OwnNode)
        (events : List OwnEvent) (event : MemberEvent) (readings : Readings),
      strip (loadForStartup file freshNodeId).nodeId = (loadForStartup file freshNodeId).nodeId →
      startProcess file freshNodeId address gossipTtl now [] [] = some start →
      runEvents ownStep start events = some node →
      node.manager.leaving = false → isValidMemberEvent event = true →
      event.nodeId = node.manager.nodeId →
      event.address = node.manager.address → node.manager.incarnation ≤ event.incarnation.toNat →
      event.state ≠ .alive →
      Refuted node.file event (applyEvent node.file node.manager event .written readings) := by
  intro claimed
  obtain ⟨start, started⟩ := Option.isSome_iff_exists.mp (by decide +kernel : start?.isSome = true)
  have state : start?.map
      (fun node => (node.manager.leaving, node.manager.nodeId, node.manager.address,
      node.manager.incarnation,
        (applyEvent node.file node.manager reportedLeft .written readings).file)) =
      some (false, nodeId, address, 1, some { nodeId, incarnation := 1 }) := by decide +kernel
  have file : start?.map (·.file) = some (some { nodeId, incarnation := 1 }) := by decide +kernel
  simp only [started, Option.map_some, Option.some.injEq, Prod.mk.injEq] at state file
  obtain ⟨staying, sameId, sameAddress, incarnation, after⟩ := state
  obtain ⟨before, stored, _, _, foundBefore, foundAfter, higher, -⟩ :=
    claimed none nodeId address 30 0 start start []
    reportedLeft readings (by decide +kernel) started rfl staying
      (by decide +kernel) sameId.symm sameAddress.symm
    (incarnation ▸ by decide) (by decide)
  rw [file, Option.some.injEq] at foundBefore
  rw [after, Option.some.injEq] at foundAfter
  rw [← foundBefore, ← foundAfter] at higher
  exact absurd higher (lt_irrefl _)

open TwoHandlers in
theorem reportedDead_refuted :
    ∃ start, start? = some start ∧
      Refuted start.file reportedDead
        (applyEvent start.file start.manager reportedDead .written readings) := by
  obtain ⟨start, started⟩ := Option.isSome_iff_exists.mp (by decide +kernel : start?.isSome = true)
  have state : start?.map
      (fun node => (node.manager.leaving, node.manager.nodeId, node.manager.address,
      node.manager.incarnation, refutable node.file node.manager reportedDead .written readings)) =
      some (false, nodeId, address, 1, true) := by decide +kernel
  simp only [started, Option.map_some, Option.some.injEq, Prod.mk.injEq] at state
  obtain ⟨staying, sameId, sameAddress, incarnation, refutable⟩ := state
  have handled := @selfEvent_refuted_iff none nodeId address 30 0 start start
    [] reportedDead .written readings
    (by decide +kernel) started rfl staying (by decide +kernel) sameId.symm sameAddress.symm
      (incarnation ▸ by decide)
    (by decide)
  exact ⟨start, started, handled.mpr refutable⟩

end Stopan.Membership
