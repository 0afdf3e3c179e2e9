import Stopan.Lib.Runs
import Stopan.Membership.Manager

/-!
The incarnation of the local node. Handlers of events about the node, a voluntary leave and the
events about other nodes run as threads of one process; their steps are single reads and writes of
the manager's attributes and whole sections under the identity lock or the gossip lock. The members
lock is explicit.
-/

namespace Stopan.Membership

open Stopan.Lib Stopan.Common

/-- An incarnation with its place in the order in which the identity store handed out incarnations.
The place is bookkeeping: no step of a thread reads it. -/
structure Issue where
  incarnation : Nat
  place : Nat
  deriving DecidableEq

/-- An event about the local node, with the place of the incarnation that it carries. -/
structure Announcement where
  event : MemberEvent
  place : Nat
  deriving DecidableEq

/-- What a thread does next. -/
inductive Phase where
  | readLeaving (event : MemberEvent)
  | compareIncarnation (event : MemberEvent)
  | bump (event : MemberEvent)
  | assign (issue : Issue)
  | checkLeaving
  | buildEvent (state : MemberState)
  | lockMembers (announcement : Announcement)
  | storeRecord (announcement : Announcement) (read : Issue)
  | addGossip (announcement : Announcement)
  deriving DecidableEq

structure OwnNode where
  file : Option NodeIdentity
  manager : MembershipManager
  threads : Dict Nat Phase
  membersLock : Option Nat
  /-- The incarnations that the identity store has returned, over all processes. -/
  issued : List Nat
  /-- The place of `manager.incarnation` and that of the node's own record. -/
  assigned : Nat
  recorded : Nat
  /-- The announcements added to the gossip, over all processes. -/
  announced : List Announcement

namespace OwnNode

variable (node : OwnNode)

def ownRecord? : Option MemberRecord := node.manager.members.get? node.manager.nodeId

def goTo (thread : Nat) (phase : Phase) : OwnNode :=
  { node with threads := node.threads.set thread phase }

def finish (thread : Nat) : OwnNode := { node with threads := node.threads.erase thread }

def current : Issue := { incarnation := node.manager.incarnation, place := node.assigned }

end OwnNode

/-- The part of `NodeServer` start-up that concerns the identity; earlier processes have left
`issued` and `announced`. -/
def startProcess (file : Option NodeIdentity) (freshNodeId address : Text) (gossipTtl now : Int)
    (issued : List Nat) (announced : List Announcement) : Option OwnNode :=
  let identity := loadForStartup file freshNodeId
  match createManager identity.nodeId address identity.incarnation gossipTtl now with
  | .error _ => none
  | .ok manager => some {
      file := some identity
      manager
      threads := .empty
      membersLock := none
      issued := issued ++ [manager.incarnation]
      assigned := issued.length
      recorded := issued.length
      announced }

inductive OwnEvent where
  /-- A thread enters `_handle_self_event`. -/
  | receive (thread : Nat) (event : MemberEvent)
  /-- The first call of `leave` sets the flag and goes on to `_announce_left`. -/
  | leave (thread : Nat)
  | advance (thread : Nat) (outcome : WriteOutcome) (readings : Readings)
  | peerEvent (event : MemberEvent) (readings : Readings)
  /-- The process dies and a new one starts on the same identity file. A start that fails once the
  file is replaced amounts to a restart followed by another one. -/
  | restart (address : Text) (gossipTtl now : Int)

/-- One step of a thread of `_handle_self_event`, `_announce_alive` or `_announce_left`. -/
def advanceThread (node : OwnNode) (thread : Nat) (outcome : WriteOutcome) (readings : Readings) :
    Phase → Option OwnNode
  | .readLeaving event =>
      if node.manager.leaving || !concernsSelf node.manager event then some (node.finish thread)
      else some (node.goTo thread (.compareIncarnation event))
  | .compareIncarnation event =>
      if event.incarnation.toNat < node.manager.incarnation then some (node.finish thread)
      else some (node.goTo thread (.bump event))
  | .bump event =>
      match bumpAbove node.file node.manager.nodeId event.incarnation.toNat outcome with
      | (file, .error _) => some { node.finish thread with file }
      | (file, .ok incarnation) =>
          some { node.goTo thread (.assign { incarnation, place := node.issued.length }) with
            file
            issued := node.issued ++ [incarnation] }
  | .assign issue =>
      some { node.goTo thread .checkLeaving with
        manager := { node.manager with incarnation := issue.incarnation }
        assigned := issue.place }
  | .checkLeaving =>
      if node.manager.leaving then some (node.finish thread)
        else some (node.goTo thread (.buildEvent .alive))
  | .buildEvent state =>
      match ownEvent node.manager node.manager.incarnation state with
      | .error _ => some (node.finish thread)
      | .ok event => some (node.goTo thread (.lockMembers { event, place := node.assigned }))
  | .lockMembers announcement =>
      if node.membersLock.isSome then none
      else some { node.goTo thread (.storeRecord announcement node.current) with
        membersLock := some thread }
  | .storeRecord announcement read =>
      some { node.goTo thread (.addGossip announcement) with
        manager :=
          writeOwnRecord node.manager read.incarnation announcement.event.state readings.observedAt
        recorded := read.place
        membersLock := none }
  | .addGossip announcement =>
      some { node.finish thread with
        manager :=
          { node.manager with gossip := node.manager.gossip.add announcement.event readings }
        announced := node.announced ++ [announcement] }

/-- One step of the node; `none` when the event cannot happen in the state. -/
def ownStep (node : OwnNode) : OwnEvent → Option OwnNode
  | .receive thread event =>
      if node.threads.contains thread || !isValidMemberEvent event ||
        decide (event.nodeId ≠ node.manager.nodeId) then none
      else some (node.goTo thread (.readLeaving event))
  | .leave thread =>
      if node.threads.contains thread || node.manager.leaving then none
      else some { node.goTo thread (.buildEvent .left) with
        manager := { node.manager with leaving := true } }
  | .advance thread outcome readings =>
      match node.threads.get? thread with
      | none => none
      | some phase => advanceThread node thread outcome readings phase
  | .peerEvent event readings =>
      if node.membersLock.isSome || !isValidMemberEvent event ||
        decide (event.nodeId = node.manager.nodeId) then none
      else some { node with manager := applyPeerEvent node.manager event readings }
  | .restart address gossipTtl now =>
      startProcess node.file [] address gossipTtl now node.issued node.announced

section Places

variable {issued : List Nat} {first second firstPlace secondPlace : Nat}

theorem lt_of_place_lt (increasing : issued.Pairwise (· < ·))
    (firstAt : issued[firstPlace]? = some first) (secondAt : issued[secondPlace]? = some second)
    (before : firstPlace < secondPlace) : first < second := by
  obtain ⟨firstBound, rfl⟩ := List.getElem?_eq_some_iff.mp firstAt
  obtain ⟨secondBound, rfl⟩ := List.getElem?_eq_some_iff.mp secondAt
  exact List.pairwise_iff_getElem.mp increasing firstPlace secondPlace firstBound secondBound before

theorem le_of_place_le (increasing : issued.Pairwise (· < ·))
    (firstAt : issued[firstPlace]? = some first) (secondAt : issued[secondPlace]? = some second)
    (before : firstPlace ≤ secondPlace) : first ≤ second := by
  rcases Nat.lt_or_eq_of_le before with less | rfl
  · exact (lt_of_place_lt increasing firstAt secondAt less).le
  · rw [firstAt, Option.some.injEq] at secondAt
    exact secondAt.le

theorem place_le_of_le (increasing : issued.Pairwise (· < ·))
    (firstAt : issued[firstPlace]? = some first) (secondAt : issued[secondPlace]? = some second)
    (order : first ≤ second) : firstPlace ≤ secondPlace := by
  by_contra later
  have reversed := lt_of_place_lt increasing secondAt firstAt (by omega)
  omega

theorem getElem?_append_kept {place incarnation : Nat} (more : List Nat)
    (found : issued[place]? = some incarnation) : (issued ++ more)[place]? = some incarnation := by
  obtain ⟨bound, rfl⟩ := List.getElem?_eq_some_iff.mp found
  rw [List.getElem?_append_left bound, List.getElem?_eq_getElem bound]

theorem pairwise_append_greater {next : Nat} (increasing : issued.Pairwise (· < ·))
    (greater : ∀ incarnation ∈ issued, incarnation < next) :
    (issued ++ [next]).Pairwise (· < ·) := by
  refine List.pairwise_append.mpr ⟨increasing, List.pairwise_singleton _ _, ?_⟩
  intro incarnation member other single
  rw [List.mem_singleton.mp single]
  exact greater incarnation member

end Places

def Announcement.Placed (announcement : Announcement) (issued : List Nat) : Prop :=
  issued[announcement.place]? = some announcement.event.incarnation.toNat

/-- What is known of a thread from the step that it takes next. -/
def PhaseOrdered (node : OwnNode) (thread : Nat) : Phase → Prop
  | .assign issue => node.issued[issue.place]? = some issue.incarnation
  | .buildEvent state => state = .alive ∨ state = .left
  | .lockMembers announcement | .addGossip announcement =>
      announcement.Placed node.issued ∧
        (announcement.event.state = .alive ∨ announcement.event.state = .left)
  | .storeRecord announcement read =>
      (announcement.Placed node.issued ∧
        (announcement.event.state = .alive ∨ announcement.event.state = .left)) ∧
        node.issued[read.place]? = some read.incarnation ∧ node.recorded ≤ read.place ∧
        read.place ≤ node.assigned ∧ node.membersLock = some thread
  | _ => True

structure Ordered (node : OwnNode) : Prop where
  stored : ∃ identity, node.file = some identity ∧
    ∀ incarnation ∈ node.issued, incarnation ≤ identity.incarnation
  increasing : node.issued.Pairwise (· < ·)
  current : node.issued[node.assigned]? = some node.manager.incarnation
  own : ∃ record, node.ownRecord? = some record ∧
    node.issued[node.recorded]? = some record.incarnation ∧
    (record.state = .alive ∨ record.state = .left)
  behind : node.recorded ≤ node.assigned
  phases : ∀ thread phase, node.threads.get? thread = some phase → PhaseOrdered node thread phase
  placed : ∀ announcement ∈ node.announced, announcement.Placed node.issued
  sorted : node.announced.Pairwise fun earlier later => later.event.state = .alive →
    earlier.place ≤ later.place

/-- The node has moved on from one state to another: nothing issued or announced is lost and the
places of the manager's incarnation and of the own record have not gone back. -/
structure Progress (before after : OwnNode) : Prop where
  issued : ∃ more, after.issued = before.issued ++ more
  assigned : before.assigned ≤ after.assigned
  recorded : before.recorded ≤ after.recorded

theorem Progress.same {before after : OwnNode} (issued : after.issued = before.issued)
    (assigned : after.assigned = before.assigned) (recorded : after.recorded = before.recorded) :
    Progress before after :=
  ⟨⟨[], by rw [issued, List.append_nil]⟩, assigned.ge, recorded.ge⟩

theorem Progress.trans {first second third : OwnNode} (earlier : Progress first second)
    (later : Progress second third) :
    Progress first third := by
  obtain ⟨more, issued⟩ := earlier.issued
  obtain ⟨rest, continued⟩ := later.issued
  exact ⟨⟨more ++ rest, by rw [continued, issued, List.append_assoc]⟩,
    earlier.assigned.trans later.assigned, earlier.recorded.trans later.recorded⟩

/-- A handler assigns the result of its bump while no result of a later bump has been assigned, and
adds its ALIVE event while no event with a later incarnation has been added. -/
def inOrder (node : OwnNode) : OwnEvent → Bool
  | .advance thread _ _ =>
      match node.threads.get? thread with
      | some (.assign issue) => decide (node.assigned ≤ issue.place)
      | some (.addGossip announcement) =>
          decide (announcement.event.state = .alive →
            ∀ earlier ∈ node.announced, earlier.place ≤ announcement.place)
      | _ => true
  | _ => true

section Steps

variable {node : OwnNode} {thread : Nat}

/-- Only the phase of one thread changes. -/
theorem Ordered.goTo {phase : Phase} (ordered : Ordered node)
    (next : PhaseOrdered node thread phase) :
    Ordered (node.goTo thread phase) := by
  refine { ordered with phases := ?_ }
  intro other reached found
  change (node.threads.set thread phase).get? other = some reached at found
  rw [Dict.get?_set] at found
  split at found
  · rename_i same
    cases found
    exact same ▸ next
  · exact ordered.phases other reached found

theorem Ordered.finish (ordered : Ordered node) : Ordered (node.finish thread) := by
  refine { ordered with phases := ?_ }
  intro other reached found
  change (node.threads.erase thread).get? other = some reached at found
  exact ordered.phases other reached (Dict.get?_of_get?_erase found)

/-- The identity store hands out a new incarnation, greater than all before it. -/
theorem PhaseOrdered.issue {phase : Phase} {more : List Nat} {file : Option NodeIdentity}
    (ordered : PhaseOrdered node thread phase) :
    PhaseOrdered { node with issued := node.issued ++ more, file } thread phase := by
  cases phase with
  | assign issue => exact getElem?_append_kept more ordered
  | lockMembers announcement => exact ⟨getElem?_append_kept more ordered.1, ordered.2⟩
  | addGossip announcement => exact ⟨getElem?_append_kept more ordered.1, ordered.2⟩
  | storeRecord announcement read =>
      exact ⟨⟨getElem?_append_kept more ordered.1.1, ordered.1.2⟩,
        getElem?_append_kept more ordered.2.1, ordered.2.2⟩
  | buildEvent state => exact ordered
  | readLeaving | compareIncarnation | bump | checkLeaving => trivial

theorem Ordered.issue {identity : NodeIdentity} {next : Nat} (ordered : Ordered node)
    (greater : ∀ incarnation ∈ node.issued, incarnation < next)
    (stored : next ≤ identity.incarnation) :
    Ordered { node with issued := node.issued ++ [next], file := some identity } := by
  refine { ordered with stored := ?_, increasing := ?_, current := ?_, own := ?_,
                        phases := ?_, placed := ?_ }
  · refine ⟨identity, rfl, ?_⟩
    intro incarnation member
    rcases List.mem_append.mp member with old | new
    · exact (greater incarnation old).le.trans stored
    · rw [List.mem_singleton.mp new]
      exact stored
  · exact pairwise_append_greater ordered.increasing greater
  · exact getElem?_append_kept [next] ordered.current
  · obtain ⟨record, found, place, state⟩ := ordered.own
    exact ⟨record, found, getElem?_append_kept [next] place, state⟩
  · intro other phase found
    exact (ordered.phases other phase found).issue
  · intro announcement member
    exact getElem?_append_kept [next] (ordered.placed announcement member)

/-- The manager changes in parts that say nothing about the local node. -/
theorem Ordered.manager {manager : MembershipManager} (ordered : Ordered node)
    (incarnation : manager.incarnation = node.manager.incarnation)
    (own : manager.members.get? manager.nodeId = node.ownRecord?) :
    Ordered { node with manager } := by
  refine { ordered with current := ?_, own := ?_ }
  · exact ordered.current.trans (congrArg some incarnation.symm)
  · obtain ⟨record, found, place, state⟩ := ordered.own
    exact ⟨record, own.trans found, place, state⟩

theorem Ordered.assign {issue : Issue} (ordered : Ordered node)
    (placed : node.issued[issue.place]? = some issue.incarnation)
    (later : node.assigned ≤ issue.place) :
    Ordered { node with manager := { node.manager with incarnation := issue.incarnation },
                        assigned := issue.place } := by
  refine { ordered with current := placed, behind := ordered.behind.trans later, phases := ?_ }
  intro other phase found
  have known := ordered.phases other phase found
  cases phase with
  | storeRecord announcement read =>
      exact ⟨known.1, known.2.1, known.2.2.1, known.2.2.2.1.trans later, known.2.2.2.2⟩
  | _ => exact known

theorem ownRecord?_writeOwnRecord {manager : MembershipManager}
    {record : MemberRecord} (incarnation : Nat)
    (state : MemberState) (now : Int) (found : manager.members.get? manager.nodeId = some record) :
    ∃ written, (writeOwnRecord manager incarnation state now).members.get? manager.nodeId =
      some written ∧ written.incarnation = incarnation ∧ written.state = state := by
  refine ⟨{ record with incarnation, state, address := manager.address, lastSeen := now,
                        suspectSince := none }, ?_, rfl, rfl⟩
  simp [writeOwnRecord, Dict.get?_adjust, found]

/-- The section under the members lock: only its holder is between the read and the write. -/
theorem Ordered.storeRecord {announcement : Announcement} {read : Issue}
    (ordered : Ordered node) (now : Int)
    (running : node.threads.get? thread = some (.storeRecord announcement read)) :
    Ordered { node.goTo thread (.addGossip announcement) with
      manager := writeOwnRecord node.manager read.incarnation announcement.event.state now
      recorded := read.place
      membersLock := none } := by
  obtain ⟨⟨placed, state⟩, readPlace, notBefore, notAfter, locked⟩ :=
    ordered.phases thread _ running
  obtain ⟨record, found, -, -⟩ := ordered.own
  obtain ⟨written, stored, incarnation, newState⟩ :=
    ownRecord?_writeOwnRecord read.incarnation announcement.event.state now found
  refine { ordered with own := ?_, behind := notAfter, phases := ?_ }
  · exact ⟨written, stored, incarnation ▸ readPlace, newState ▸ state⟩
  · intro other phase reached
    change (node.threads.set thread (.addGossip announcement)).get? other = some phase at reached
    rw [Dict.get?_set] at reached
    split at reached
    · cases reached
      exact ⟨placed, state⟩
    · rename_i distinct
      have known := ordered.phases other phase reached
      cases phase with
      | storeRecord otherAnnouncement otherRead =>
          have held := known.2.2.2.2
          rw [locked, Option.some.injEq] at held
          exact absurd held.symm distinct
      | _ => exact known

theorem Ordered.lockMembers {announcement : Announcement} (ordered : Ordered node)
    (free : node.membersLock = none)
    (running : node.threads.get? thread = some (.lockMembers announcement)) :
    Ordered { node.goTo thread (.storeRecord announcement node.current) with
      membersLock := some thread } := by
  refine { ordered with phases := ?_ }
  intro other phase reached
  change (node.threads.set thread (.storeRecord announcement node.current)).get? other =
    some phase at reached
  rw [Dict.get?_set] at reached
  split at reached
  · rename_i same
    cases reached
    exact ⟨ordered.phases thread _ running, ordered.current, ordered.behind, le_rfl,
      congrArg some same.symm⟩
  · have known := ordered.phases other phase reached
    cases phase with
    | storeRecord otherAnnouncement otherRead =>
        have held := known.2.2.2.2
        rw [free] at held
        cases held
    | _ => exact known

theorem Ordered.addGossip {announcement : Announcement} {manager : MembershipManager}
    (ordered : Ordered node) (incarnation : manager.incarnation = node.manager.incarnation)
    (own : manager.members.get? manager.nodeId = node.ownRecord?)
    (placed : announcement.Placed node.issued)
    (inOrder : announcement.event.state = .alive →
      ∀ earlier ∈ node.announced, earlier.place ≤ announcement.place) :
    Ordered { node with manager, announced := node.announced ++ [announcement] } := by
  refine { ordered.manager incarnation own with placed := ?_, sorted := ?_ }
  · intro other member
    rcases List.mem_append.mp member with old | new
    · exact ordered.placed other old
    · rw [List.mem_singleton.mp new]
      exact placed
  · refine List.pairwise_append.mpr ⟨ordered.sorted, List.pairwise_singleton _ _, ?_⟩
    intro earlier member other single alive
    rw [List.mem_singleton.mp single] at alive ⊢
    exact inOrder alive earlier member

/-- What `bump_above` leaves in the file and returns. -/
theorem bumpAbove_cases {identity : NodeIdentity} {nodeId : Text} {observed : Nat}
    {outcome : WriteOutcome} {file : Option NodeIdentity} {result : Except NodeError Nat}
    (bumped : bumpAbove (some identity) nodeId observed outcome = (file, result)) :
    ∃ stored, file = some stored ∧ identity.incarnation ≤ stored.incarnation ∧
      ∀ next, result = .ok next → identity.incarnation < next ∧ next ≤ stored.incarnation := by
  unfold bumpAbove at bumped
  dsimp only at bumped
  split at bumped
  · cases bumped
    exact ⟨identity, rfl, le_rfl, fun next returned => nomatch returned⟩
  · split at bumped
    · cases bumped
      exact ⟨identity, rfl, le_rfl, fun next returned => nomatch returned⟩
    · cases outcome with
      | written =>
          cases bumped
          refine ⟨_, rfl, by dsimp only; omega, ?_⟩
          rintro next ⟨⟩
          dsimp only
          omega
      | failedBeforeRename =>
          cases bumped
          exact ⟨identity, rfl, le_rfl, fun next returned => nomatch returned⟩
      | failedAfterRename =>
          cases bumped
          exact ⟨_, rfl, by dsimp only; omega, fun next returned => nomatch returned⟩

theorem ownEvent_ok {manager : MembershipManager} {incarnation : Nat} {state : MemberState}
    {event : MemberEvent} (built : ownEvent manager incarnation state = .ok event) :
    event.incarnation.toNat = incarnation ∧ event.state = state := by
  unfold ownEvent at built
  split at built
  · rename_i fits
    cases built
    exact ⟨UInt64.toNat_ofNat_of_lt fits, rfl⟩
  · cases built

theorem advanceThread_ordered {phase : Phase} {outcome : WriteOutcome}
    {readings : Readings} {after : OwnNode}
    (ordered : Ordered node) (running : node.threads.get? thread = some phase)
    (ordering : inOrder node (.advance thread outcome readings) = true)
    (stepped : advanceThread node thread outcome readings phase = some after) :
    Ordered after ∧ Progress node after := by
  have known := ordered.phases thread phase running
  simp only [inOrder, running] at ordering
  cases phase with
  | readLeaving event =>
      simp only [advanceThread] at stepped
      split at stepped <;> cases stepped
      · exact ⟨ordered.finish, .same rfl rfl rfl⟩
      · exact ⟨ordered.goTo trivial, .same rfl rfl rfl⟩
  | compareIncarnation event =>
      simp only [advanceThread] at stepped
      split at stepped <;> cases stepped
      · exact ⟨ordered.finish, .same rfl rfl rfl⟩
      · exact ⟨ordered.goTo trivial, .same rfl rfl rfl⟩
  | bump event =>
      obtain ⟨identity, present, bound⟩ := ordered.stored
      simp only [advanceThread, present] at stepped
      split at stepped
      · rename_i file reason bumped
        obtain ⟨stored, rfl, raised, -⟩ := bumpAbove_cases bumped
        cases stepped
        refine ⟨{ ordered.finish with stored := ⟨stored, rfl, ?_⟩ }, .same rfl rfl rfl⟩
        exact fun incarnation member => (bound incarnation member).trans raised
      · rename_i file next bumped
        obtain ⟨stored, rfl, -, returned⟩ := bumpAbove_cases bumped
        obtain ⟨above, below⟩ := returned next rfl
        cases stepped
        have issued :=
          ordered.issue (fun incarnation member => (bound incarnation member).trans_lt above) below
        refine ⟨?_, ⟨[next], rfl⟩, le_rfl, le_rfl⟩
        exact issued.goTo (by simp [PhaseOrdered])
  | assign issue =>
      cases stepped
      have later := of_decide_eq_true ordering
      exact ⟨(ordered.assign known later).goTo trivial, ⟨[], by simp [OwnNode.goTo]⟩, later, le_rfl⟩
  | checkLeaving =>
      simp only [advanceThread] at stepped
      split at stepped <;> cases stepped
      · exact ⟨ordered.finish, .same rfl rfl rfl⟩
      · exact ⟨ordered.goTo (.inl rfl), .same rfl rfl rfl⟩
  | buildEvent state =>
      simp only [advanceThread] at stepped
      split at stepped <;> cases stepped
      · exact ⟨ordered.finish, .same rfl rfl rfl⟩
      · rename_i event built
        obtain ⟨incarnation, same⟩ := ownEvent_ok built
        refine ⟨ordered.goTo ⟨?_, same ▸ known⟩, .same rfl rfl rfl⟩
        exact ordered.current.trans (congrArg some incarnation.symm)
  | lockMembers announcement =>
      simp only [advanceThread] at stepped
      split at stepped
      · cases stepped
      · rename_i free
        cases stepped
        exact ⟨ordered.lockMembers (by simpa using free) running, .same rfl rfl rfl⟩
  | storeRecord announcement read =>
      cases stepped
      exact ⟨ordered.storeRecord readings.observedAt running, ⟨[], by simp [OwnNode.goTo]⟩,
        le_rfl, known.2.2.1⟩
  | addGossip announcement =>
      cases stepped
      have added := @Ordered.addGossip node announcement
        { node.manager with gossip := node.manager.gossip.add announcement.event readings }
          ordered rfl rfl known.1
        (of_decide_eq_true ordering)
      exact ⟨added.finish, .same rfl rfl rfl⟩

theorem applyPeerEvent_own {manager : MembershipManager} {event : MemberEvent} (readings : Readings)
    (other : event.nodeId ≠ manager.nodeId) :
    (applyPeerEvent manager event readings).incarnation = manager.incarnation ∧
      (applyPeerEvent manager event readings).members.get?
        (applyPeerEvent manager event readings).nodeId = manager.members.get? manager.nodeId := by
  have stored : ∀ record, (storeRecord manager event record readings).incarnation =
      manager.incarnation ∧
      (storeRecord manager event record readings).members.get?
        (storeRecord manager event record readings).nodeId =
        manager.members.get? manager.nodeId := by
    intro record
    unfold storeRecord completeBootstrap
    dsimp only
    split <;> exact ⟨rfl, Dict.get?_set_of_ne _ _ (Ne.symm other)⟩
  unfold applyPeerEvent
  split
  · exact stored _
  · split
    · exact stored _
    · split
      · exact ⟨rfl, rfl⟩
      · split
        · exact stored _
        · exact ⟨rfl, rfl⟩

/-- A process started on an identity file: its incarnation exceeds everything issued before. -/
theorem startProcess_ordered {file : Option NodeIdentity} {freshNodeId address : Text}
    {gossipTtl now : Int} {issued : List Nat} {announced : List Announcement} {started : OwnNode}
    (begun : startProcess file freshNodeId address gossipTtl now issued announced = some started)
    (increasing : issued.Pairwise (· < ·))
    (below : ∀ incarnation ∈ issued, ∃ identity, file = some identity ∧
      incarnation ≤ identity.incarnation)
    (placed : ∀ announcement ∈ announced, announcement.Placed issued)
    (sorted : announced.Pairwise fun earlier later => later.event.state = .alive →
      earlier.place ≤ later.place) :
    Ordered started ∧ ∃ incarnation, started.issued = issued ++ [incarnation] ∧
      started.assigned = issued.length ∧ started.recorded = issued.length := by
  unfold startProcess at begun
  dsimp only at begun
  split at begun
  · cases begun
  · rename_i manager created
    cases begun
    unfold createManager at created
    split at created
    · cases created
    · split at created <;> cases created
      have raised : ∀ incarnation ∈ issued,
          incarnation < (loadForStartup file freshNodeId).incarnation := by
        intro incarnation member
        obtain ⟨identity, rfl, bound⟩ := below incarnation member
        exact Nat.lt_succ_of_le bound
      have positive : max (loadForStartup file freshNodeId).incarnation 1 =
          (loadForStartup file freshNodeId).incarnation := by
        cases file <;> simp [loadForStartup]
      refine ⟨?_, _, rfl, rfl, rfl⟩
      refine {
        stored := ⟨_, rfl, ?_⟩
        increasing := ?_
        current := by simp
        own := ⟨_, Dict.get?_set_self _ _ _, by simp, .inl rfl⟩
        behind := le_rfl
        phases := ?_
        placed := fun announcement member => getElem?_append_kept _ (placed announcement member)
        sorted := sorted }
      · intro incarnation member
        rcases List.mem_append.mp member with old | new
        · exact (raised incarnation old).le
        · rw [List.mem_singleton.mp new]
          exact positive.le
      · exact pairwise_append_greater increasing fun incarnation member =>
          (raised incarnation member).trans_le (positive.symm ▸ le_rfl)
      · intro thread phase found
        cases found

theorem ownStep_ordered {event : OwnEvent} {after : OwnNode} (ordered : Ordered node)
    (ordering : inOrder node event = true)
    (stepped : ownStep node event = some after) : Ordered after ∧ Progress node after := by
  cases event with
  | receive thread event =>
      simp only [ownStep] at stepped
      split at stepped <;> cases stepped
      exact ⟨ordered.goTo trivial, .same rfl rfl rfl⟩
  | leave thread =>
      simp only [ownStep] at stepped
      split at stepped <;> cases stepped
      have flagged := @Ordered.manager node { node.manager with leaving := true } ordered rfl rfl
      exact ⟨flagged.goTo (Or.inr rfl), .same rfl rfl rfl⟩
  | advance thread outcome readings =>
      simp only [ownStep] at stepped
      split at stepped
      · cases stepped
      · rename_i phase running
        exact advanceThread_ordered ordered running ordering stepped
  | peerEvent event readings =>
      simp only [ownStep] at stepped
      split at stepped <;> cases stepped
      rename_i allowed
      simp only [Bool.or_eq_true, decide_eq_true_eq, not_or] at allowed
      obtain ⟨incarnation, own⟩ := applyPeerEvent_own readings allowed.2
      exact ⟨ordered.manager incarnation own, .same rfl rfl rfl⟩
  | restart address gossipTtl now =>
      obtain ⟨identity, present, bound⟩ := ordered.stored
      obtain ⟨begun, incarnation, issued, assigned, recorded⟩ :=
        startProcess_ordered stepped ordered.increasing
        (fun incarnation member => ⟨identity, present, bound incarnation member⟩)
          ordered.placed ordered.sorted
      obtain ⟨assignedBound, -⟩ := List.getElem?_eq_some_iff.mp ordered.current
      refine ⟨begun, ⟨[incarnation], issued⟩, ?_, ?_⟩
      · rw [assigned]
        exact assignedBound.le
      · rw [recorded]
        exact ordered.behind.trans assignedBound.le

/-- In a run whose steps come in order, each later state has moved on from each earlier one. -/
theorem runEvents_ordered {events : List OwnEvent} {after : OwnNode} (ordered : Ordered node)
    (meets : EventsMeet ownStep (fun node event => inOrder node event = true) node events)
    (ran : runEvents ownStep node events = some after) :
    Ordered after ∧ Progress node after := by
  refine runEvents_invariant (fun reached => Ordered reached ∧ Progress node reached) ?_
    ⟨ordered, .same rfl rfl rfl⟩ meets ran
  intro reached event next holds ordering stepped
  obtain ⟨nextOrdered, progress⟩ := ownStep_ordered holds.1 ordering stepped
  exact ⟨nextOrdered, holds.2.trans progress⟩

end Steps

section Alone

variable {node : OwnNode} {thread : Nat} {outcome : WriteOutcome} {readings : Readings}

theorem ownStep_advance {phase : Phase} (running : node.threads.get? thread = some phase) :
    ownStep node (.advance thread outcome readings) =
      advanceThread node thread outcome readings phase := by
  simp [ownStep, running]

/-- Steps of one thread with nothing in between. -/
def runAlone (node : OwnNode) (thread : Nat) (outcome : WriteOutcome) (readings : Readings)
    (steps : Nat) : Option OwnNode :=
  runEvents ownStep node (List.replicate steps (.advance thread outcome readings))

theorem runAlone_succ {phase : Phase} {next : OwnNode} {steps : Nat}
    (running : node.threads.get? thread = some phase)
    (stepped : advanceThread node thread outcome readings phase = some next) :
    runAlone node thread outcome readings
      (steps + 1) = runAlone next thread outcome readings steps := by
  rw [runAlone, List.replicate_succ, runEvents, ownStep_advance running, stepped]
  rfl

theorem runAlone_announceAlive (running : node.threads.get? thread = some .checkLeaving)
    (free : node.membersLock = none) :
    ∃ steps after, runAlone node thread outcome readings steps = some after ∧
      after.file = node.file ∧ after.manager = (announceAlive node.manager readings).1 := by
  unfold announceAlive
  cases leaving : node.manager.leaving with
  | true => exact ⟨1, node.finish thread, runAlone_succ running (by simp [advanceThread, leaving]),
    rfl, rfl⟩
  | false =>
      have checked : advanceThread node thread outcome readings .checkLeaving =
          some (node.goTo thread (.buildEvent .alive)) := by simp [advanceThread, leaving]
      cases built : ownEvent node.manager node.manager.incarnation .alive with
      | error reason =>
          refine ⟨2, (node.goTo thread (.buildEvent .alive)).finish thread, ?_, rfl, rfl⟩
          rw [runAlone_succ running checked]
          exact runAlone_succ (Dict.get?_set_self _ _ _)
            (by simp [advanceThread, OwnNode.goTo, built])
      | ok event =>
          let announcement : Announcement := { event, place := node.assigned }
          let building := node.goTo thread (.buildEvent .alive)
          let waiting := building.goTo thread (.lockMembers announcement)
          let locked :=
            { waiting.goTo thread (.storeRecord announcement node.current) with
              membersLock := some thread }
          let written := { locked.goTo thread (.addGossip announcement) with
            manager :=
              writeOwnRecord node.manager node.manager.incarnation event.state readings.observedAt
            recorded := node.assigned
            membersLock := none }
          have second : advanceThread building thread outcome readings
              (.buildEvent .alive) = some waiting := by
            simp only [advanceThread, building, OwnNode.goTo, built]
            rfl
          have third : advanceThread waiting thread outcome readings
              (.lockMembers announcement) = some locked :=
            if_neg (by simp [waiting, building, OwnNode.goTo, free])
          have fourth : advanceThread locked thread outcome readings
              (.storeRecord announcement node.current) = some written := rfl
          have state : event.state = .alive := (ownEvent_ok built).2
          refine ⟨5, { written.finish thread with
            manager := { written.manager with gossip := written.manager.gossip.add event readings }
            announced := node.announced ++ [announcement] }, ?_, rfl, by simp [written, state]⟩
          have waits : locked.threads.get? thread = some (.storeRecord announcement node.current) :=
            Dict.get?_set_self _ _ _
          have adds : written.threads.get? thread = some (.addGossip announcement) :=
            Dict.get?_set_self _ _ _
          rw [runAlone_succ running checked, runAlone_succ (Dict.get?_set_self _ _ _) second,
            runAlone_succ (Dict.get?_set_self _ _ _) third, runAlone_succ waits fourth]
          rw [runAlone_succ adds rfl]
          rfl

/-- A handler whose steps nothing interrupts does what `_handle_self_event` does in one thread. -/
theorem runAlone_handleSelfEvent {event : MemberEvent}
    (running : node.threads.get? thread = some (.readLeaving event))
    (free : node.membersLock = none) :
    ∃ steps after, runAlone node thread outcome readings steps = some after ∧
      after.file = (handleSelfEvent node.file node.manager event outcome readings).file ∧
      after.manager = (handleSelfEvent node.file node.manager event outcome readings).manager := by
  unfold handleSelfEvent
  split
  · rename_i ignored
    exact ⟨1, _, runAlone_succ running (if_pos ignored), rfl, rfl⟩
  · rename_i concerned
    have first : advanceThread node thread outcome readings (.readLeaving event) =
        some (node.goTo thread (.compareIncarnation event)) := if_neg concerned
    split
    · rename_i older
      refine ⟨2, (node.goTo thread (.compareIncarnation event)).finish thread, ?_, rfl, rfl⟩
      rw [runAlone_succ running first]
      exact runAlone_succ (Dict.get?_set_self _ _ _) (if_pos older)
    · rename_i current
      have second : advanceThread
          (node.goTo thread (.compareIncarnation event)) thread outcome readings
          (.compareIncarnation event) = some
            ((node.goTo thread (.compareIncarnation event)).goTo thread (.bump event)) :=
        if_neg current
      split
      · rename_i file reason bumped
        refine ⟨3, { ((node.goTo thread (.compareIncarnation event)).goTo thread
          (.bump event)).finish thread with
          file }, ?_, rfl, rfl⟩
        rw [runAlone_succ running first, runAlone_succ (Dict.get?_set_self _ _ _) second]
        refine runAlone_succ (Dict.get?_set_self _ _ _) ?_
        simp only [advanceThread, OwnNode.goTo, bumped]
      · rename_i file incarnation bumped
        let bumpedNode : OwnNode :=
          { (((node.goTo thread (.compareIncarnation event)).goTo thread (.bump event)).goTo thread
              (.assign { incarnation, place := node.issued.length })) with
            file
            issued := node.issued ++ [incarnation] }
        have third : advanceThread ((node.goTo thread (.compareIncarnation event)).goTo thread
            (.bump event)) thread
            outcome readings (.bump event) = some bumpedNode := by
              simp only [advanceThread, OwnNode.goTo, bumped]; rfl
        obtain ⟨steps, after, ran, sameFile, sameManager⟩ := @runAlone_announceAlive
          { bumpedNode.goTo thread .checkLeaving with
            manager := { node.manager with incarnation }
            assigned := node.issued.length } thread outcome readings (Dict.get?_set_self _ _ _) free
        refine ⟨steps + 4, after, ?_, sameFile, sameManager⟩
        rw [runAlone_succ running first, runAlone_succ (Dict.get?_set_self _ _ _) second,
          runAlone_succ (Dict.get?_set_self _ _ _) third,
            runAlone_succ (Dict.get?_set_self _ _ _) rfl]
        exact ran

end Alone

/-- What is asked of two states of a run, one before the other. -/
structure KeepsIncarnation (before after : OwnNode) : Prop where
  manager : before.manager.incarnation ≤ after.manager.incarnation
  record : ∀ earlier later, before.ownRecord? = some earlier → after.ownRecord? = some later →
    earlier.incarnation ≤ later.incarnation
  state : ∀ record, after.ownRecord? = some record → record.state ≠ .suspect ∧ record.state ≠ .dead
  announced : after.announced.Pairwise fun earlier later =>
    later.event.state = .alive → earlier.event.incarnation.toNat ≤ later.event.incarnation.toNat

theorem KeepsIncarnation.of_ordered {before after : OwnNode} (first : Ordered before)
    (second : Ordered after)
    (progress : Progress before after) : KeepsIncarnation before after := by
  obtain ⟨more, issued⟩ := progress.issued
  obtain ⟨own, found, place, state⟩ := second.own
  refine ⟨?_, ?_, ?_, ?_⟩
  · have earlier := getElem?_append_kept more first.current
    exact le_of_place_le second.increasing (issued ▸ earlier) second.current progress.assigned
  · intro earlier later earlierOwn laterOwn
    obtain ⟨record, present, earlierPlace, -⟩ := first.own
    rw [present, Option.some.injEq] at earlierOwn
    rw [found, Option.some.injEq] at laterOwn
    subst earlierOwn laterOwn
    exact le_of_place_le second.increasing
      (issued ▸ getElem?_append_kept more earlierPlace) place progress.recorded
  · intro record present
    rw [found, Option.some.injEq] at present
    subst present
    rcases state with alive | left
    · simp [alive]
    · simp [left]
  · refine second.sorted.imp_of_mem ?_
    intro earlier later earlierMember laterMember order alive
    exact le_of_place_le second.increasing (second.placed earlier earlierMember)
      (second.placed later laterMember)
      (order alive)

/-- The node's own incarnation never goes back between any two states of the run. -/
def NeverGoesBack (start : OwnNode) (events : List OwnEvent) : Prop :=
  ∀ earlier later rest, events = earlier ++ later ++ rest → ∀ before after,
    runEvents ownStep start earlier = some before → runEvents ownStep before later = some after →
      KeepsIncarnation before after

theorem neverGoesBack_of_inOrder {start : OwnNode} {events : List OwnEvent}
    (ordered : Ordered start)
    (meets : EventsMeet ownStep (fun node event => inOrder node event = true) start events) :
    NeverGoesBack start events := by
  rintro earlier later rest rfl before after reached continued
  rw [List.append_assoc] at meets
  obtain ⟨first, remaining⟩ := meets.split reached
  obtain ⟨second, -⟩ := remaining.split continued
  obtain ⟨beforeOrdered, -⟩ := runEvents_ordered ordered first reached
  obtain ⟨afterOrdered, progress⟩ := runEvents_ordered beforeOrdered second continued
  exact .of_ordered beforeOrdered afterOrdered progress

/-- A step out of order takes the incarnation back at once. -/
theorem inOrder_of_keepsIncarnation {node after : OwnNode} {event : OwnEvent}
    (ordered : Ordered node) (stepped : ownStep node event = some after)
    (keeps : KeepsIncarnation node after) : inOrder node event = true := by
  cases event with
  | advance thread outcome readings =>
      simp only [inOrder]
      split
      · rename_i issue running
        have known : node.issued[issue.place]? = some issue.incarnation :=
          ordered.phases thread _ running
        simp only [ownStep, running, advanceThread, Option.some.injEq] at stepped
        subst stepped
        refine decide_eq_true ?_
        exact place_le_of_le ordered.increasing ordered.current known keeps.manager
      · rename_i announcement running
        have known := ordered.phases thread _ running
        simp only [ownStep, running, advanceThread, Option.some.injEq] at stepped
        subst stepped
        refine decide_eq_true ?_
        intro alive earlier member
        have order :=
          (List.pairwise_append.mp keeps.announced).2.2 earlier member announcement (by simp) alive
        exact place_le_of_le ordered.increasing (ordered.placed earlier member) known.1 order
      · rfl
  | _ => rfl

theorem NeverGoesBack.tail {start next : OwnNode} {event : OwnEvent} {rest : List OwnEvent}
    (never : NeverGoesBack start (event :: rest)) (stepped : ownStep start event = some next) :
    NeverGoesBack next rest := by
  rintro earlier later more rfl before after reached continued
  refine never (event :: earlier) later more (by simp) before after ?_ continued
  rw [runEvents, stepped]
  exact reached

theorem inOrder_of_neverGoesBack {start after : OwnNode} {events : List OwnEvent}
    (ordered : Ordered start)
    (ran : runEvents ownStep start events = some after) (never : NeverGoesBack start events) :
    EventsMeet ownStep (fun node event => inOrder node event = true) start events := by
  induction events generalizing start with
  | nil => trivial
  | cons event rest ih =>
      obtain ⟨next, stepped, continued⟩ := runEvents_cons ran
      have keeps := never [] [event] rest rfl start next rfl (by simp [runEvents, stepped])
      have ordering := inOrder_of_keepsIncarnation ordered stepped keeps
      refine ⟨ordering, fun other reached => ?_⟩
      rw [stepped, Option.some.injEq] at reached
      subst reached
      exact ih (ownStep_ordered ordered ordering stepped).1 continued (never.tail stepped)

/-- From the first start on an identity file, through any interleaving of handlers and any number of
restarts, the own incarnation never goes back if and only if every handler assigns and gossips in
the order of the bumps. -/
theorem ownIncarnation_neverGoesBack_iff {file : Option NodeIdentity} {freshNodeId address : Text}
    {gossipTtl now : Int} {start after : OwnNode} {events : List OwnEvent}
    (started : startProcess file freshNodeId address gossipTtl now [] [] = some start)
    (ran : runEvents ownStep start events = some after) :
    NeverGoesBack start events ↔
      EventsMeet ownStep (fun node event => inOrder node event = true) start events := by
  obtain ⟨ordered, -⟩ := startProcess_ordered started .nil (by simp) (by simp) .nil
  exact ⟨inOrder_of_neverGoesBack ordered ran, neverGoesBack_of_inOrder ordered⟩

namespace TwoHandlers

def nodeId : Text := List.replicate 32 'a'

def address : Text := "10.0.0.1:7000".toList

def start? : Option OwnNode := startProcess none nodeId address 30 0 [] []

def suspected : MemberEvent where
  nodeId := nodeId
  address := address
  incarnation := 1
  state := .suspect

def advance (thread : Nat) : OwnEvent :=
  .advance thread .written { observedAt := 1, addedAt := 1, prunedAt := 1 }

/-- Both handlers find their event current and bump; the later bump is assigned first. -/
def overtaken : List OwnEvent :=
  [.receive 1 suspected, .receive 2 suspected, advance 1, advance 1, advance 2, advance 2,
    advance 1, advance 2, advance 2]

/-- Both handlers bump, assign and announce in the same order. -/
def orderly : List OwnEvent :=
  [.receive 1 suspected, .receive 2 suspected, advance 1, advance 1, advance 2, advance 2,
    advance 1, advance 2,
    advance 1, advance 2, advance 1, advance 1, advance 1, advance 1, advance 1, advance 2,
    advance 2, advance 2, advance 2, advance 2, .restart address 30 5]

end TwoHandlers

open TwoHandlers in
theorem overtakenHandler_goesBack :
    ∃ start before after, start? = some start ∧ runEvents ownStep start overtaken = some before ∧
      ownStep before (advance 1) = some after ∧ before.manager.incarnation = 3 ∧
      after.manager.incarnation = 2 ∧ ¬ NeverGoesBack start (overtaken ++ [advance 1]) := by
  obtain ⟨start, started⟩ := Option.isSome_iff_exists.mp (by decide +kernel : start?.isSome = true)
  have reached : (start?.bind fun start => runEvents ownStep start overtaken).map
      (fun node => node.manager.incarnation) = some 3 := by decide +kernel
  have late : (start?.bind fun start => (runEvents ownStep start overtaken).bind fun node =>
      ownStep node (advance 1)).map (fun node => node.manager.incarnation) = some 2 := by
        decide +kernel
  rw [started, Option.bind_some] at reached late
  obtain ⟨before, ran, first⟩ := Option.map_eq_some_iff.mp reached
  rw [ran, Option.bind_some] at late
  obtain ⟨after, stepped, second⟩ := Option.map_eq_some_iff.mp late
  refine ⟨start, before, after, started, ran, stepped, first, second, fun never => ?_⟩
  have keeps := never overtaken [advance 1] [] (by simp) before after ran
    (by simp [runEvents, stepped])
  have decreased := keeps.manager
  omega

open TwoHandlers in
theorem orderlyHandlers_neverGoBack :
    ∃ start after, start? = some start ∧ runEvents ownStep start orderly = some after ∧
      after.manager.incarnation = 4 ∧ NeverGoesBack start orderly := by
  obtain ⟨start, started⟩ := Option.isSome_iff_exists.mp (by decide +kernel : start?.isSome = true)
  have reached : (start?.bind fun start => runEvents ownStep start orderly).map
      (fun node => node.manager.incarnation) = some 4 := by decide +kernel
  have checked : start?.map (fun start => checkEvents ownStep inOrder start orderly) =
      some true := by decide +kernel
  rw [started, Option.bind_some] at reached
  rw [started, Option.map_some, Option.some.injEq] at checked
  obtain ⟨after, ran, incarnation⟩ := Option.map_eq_some_iff.mp reached
  refine ⟨start, after, started, ran, incarnation, ?_⟩
  exact (ownIncarnation_neverGoesBack_iff started ran).mpr (eventsMeet_of_checkEvents checked)

end Stopan.Membership
