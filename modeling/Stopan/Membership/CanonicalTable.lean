import Stopan.Lib.Decimal
import Stopan.Membership.Convergence
import Stopan.Membership.Refutation

namespace Stopan.Membership

open Stopan.Lib Stopan.Common

structure NodeInfo where
  nodeId : Text
  address : Text
  incarnation : UInt64
  deriving DecidableEq, Repr

def isValidNodeinfo (node : NodeInfo) : Bool :=
  isValidNodeId node.nodeId && isValidAddress node.address &&
    isValidIncarnation node.incarnation.toNat

/-- The event that `apply_nodeinfo` makes of a NodeInfo. -/
def NodeInfo.toEvent (node : NodeInfo) (state : MemberState) : MemberEvent :=
  { nodeId := node.nodeId, address := node.address, incarnation := node.incarnation, state }

/-- `apply_event` on a thread of the node: what is about the node itself goes to the handler. -/
def receiveEvent (node : OwnNode) (thread : Nat) (event : MemberEvent) (readings : Readings) :
    Option OwnNode :=
  if isValidMemberEvent event = false then some node
  else if event.nodeId = node.manager.nodeId then ownStep node (.receive thread event)
  else ownStep node (.peerEvent event readings)

/-- The node with the copies of records that its SWIM rounds work on. -/
structure SwimNode where
  node : OwnNode
  targets : Dict Nat MemberRecord

inductive SwimEvent where
  | memberEvent (thread : Nat) (event : MemberEvent) (readings : Readings)
  | nodeinfo (thread : Nat) (info : NodeInfo) (state : MemberState) (readings : Readings)
  /-- A round takes up a member. -/
  | target (thread : Nat) (nodeId : Text)
  /-- `_mark_suspect` or `_mark_dead` of the member that was taken up. -/
  | mark (thread : Nat) (state : MemberState) (readings : Readings)
  | leave (thread : Nat)
  | advance (thread : Nat) (outcome : WriteOutcome) (readings : Readings)
  | restart (address : Text) (gossipTtl now : Int)

/-- One step of the node; `none` when the event cannot happen in the state. -/
def swimStep (swim : SwimNode) : SwimEvent → Option SwimNode
  | .memberEvent thread event readings =>
      (receiveEvent swim.node thread event readings).map fun node => { swim with node }
  | .nodeinfo thread info state readings =>
      if isValidNodeinfo info then
        (receiveEvent swim.node thread (info.toEvent state) readings).map
          fun node => { swim with node }
      else some swim
  | .target thread nodeId =>
      (swim.node.manager.members.get? nodeId).map
        fun record => { swim with targets := swim.targets.set thread record }
  | .mark thread state readings =>
      match swim.targets.get? thread with
      | none => none
      | some record =>
          if record.incarnation < 2 ^ 64 then
            let event : MemberEvent := {
              nodeId := record.nodeId, address := record.address, incarnation :=
                .ofNat record.incarnation, state }
            (receiveEvent swim.node thread event readings).map fun node => { swim with node }
          else some swim
  | .leave thread => (ownStep swim.node (.leave thread)).map fun node => { swim with node }
  | .advance thread outcome readings =>
      (ownStep swim.node (.advance thread outcome readings)).map fun node => { swim with node }
  | .restart address gossipTtl now =>
      (ownStep swim.node (.restart address gossipTtl now)).map
        fun node => { node, targets := .empty }

def CanonicalNodeId (nodeId : Text) : Prop := nodeId.length = 32 ∧ ∀ char ∈ nodeId, char ∈ hexLower

structure CanonicalAddress (address : Text) : Prop where
  trimmed : strip address = address
  port : ∃ host port, splitAddress? address = some (host, port) ∧ port ≠ [] ∧
    ∀ char ∈ port, '0' ≤ char ∧ char ≤ '9'

def asciiPort (address : Text) : Bool :=
  match splitAddress? (strip address) with
  | some (_, port) => port.all isDigit
  | none => false

def trimmedAddress (address : Text) : Bool := decide (strip address = address) && asciiPort address

theorem strip_of_canonicalNodeId {nodeId : Text} (canonical : CanonicalNodeId nodeId) :
    strip nodeId = nodeId := by
  have blanks : (hexLower.all fun char => !isSpace char) = true := by decide
  have noSpace : ∀ char ∈ hexLower, isSpace char = false := by simpa using blanks
  have front : nodeId.dropWhile isSpace = nodeId := dropWhile_of_head fun first present =>
    noSpace first (canonical.2 first (List.mem_of_mem_head? present))
  have back : nodeId.reverse.dropWhile isSpace = nodeId.reverse :=
    dropWhile_of_head fun first present =>
    noSpace first (canonical.2 first (List.mem_reverse.mp (List.mem_of_mem_head? present)))
  rw [strip, front, back, List.reverse_reverse]

theorem canonicalNodeId_iff {nodeId : Text} (valid : isValidNodeId nodeId = true) :
    CanonicalNodeId nodeId ↔ strip nodeId = nodeId := by
  constructor
  · exact strip_of_canonicalNodeId
  · intro trimmed
    simp only [isValidNodeId, nodeIdLength, trimmed, Bool.and_eq_true, beq_iff_eq, List.all_eq_true,
      List.contains_eq_mem, decide_eq_true_eq] at valid
    exact valid

theorem canonicalAddress_iff {address : Text} (valid : isValidAddress address = true) :
    CanonicalAddress address ↔ trimmedAddress address = true := by
  simp only [isValidAddress] at valid
  split at valid
  · cases valid
  · split at valid
    · cases valid
    · split at valid
      · cases valid
      · rename_i host port parts
        split at valid
        · cases valid
        · split at valid
          · cases valid
          · rename_i value parsed
            have nonempty : port ≠ [] := by
              rintro rfl
              cases parsed
            have digits : port.all isDigit = true ↔ ∀ char ∈ port, '0' ≤ char ∧ char ≤ '9' := by
              simp only [List.all_eq_true, isDigit, Bool.and_eq_true, decide_eq_true_eq]
            simp only [trimmedAddress, asciiPort, parts, Bool.and_eq_true,
              decide_eq_true_eq, digits]
            constructor
            · rintro ⟨trimmed, _, _, again, -, all⟩
              rw [← trimmed, parts, Option.some.injEq, Prod.mk.injEq] at again
              exact ⟨trimmed, again.2 ▸ all⟩
            · rintro ⟨trimmed, all⟩
              exact ⟨trimmed, host, port, trimmed ▸ parts, nonempty, all⟩

/-- The texts of the record under a key. -/
def spelling (manager : MembershipManager) (key : Text) : Option (Text × Text) :=
  (manager.members.get? key).map fun record => (record.nodeId, record.address)

/-- Every member has its own key, in lowercase hexadecimal digits, and a trimmed address with an
ASCII port. -/
def CanonicalTable (manager : MembershipManager) : Prop :=
  ∀ key nodeId address, spelling manager key = some (nodeId, address) →
    nodeId = key ∧ CanonicalNodeId key ∧ CanonicalAddress address

/-- Two keys of a canonical table that mean the same node are the same text. -/
theorem CanonicalTable.spelledOnce {manager : MembershipManager}
    (canonical : CanonicalTable manager) :
    ∀ first ∈ manager.members.keys, ∀ second ∈ manager.members.keys, strip first = strip second →
      first = second := by
  have trimmed : ∀ key ∈ manager.members.keys, strip key = key := by
    intro key member
    obtain ⟨record, found⟩ := (Dict.mem_keys_iff ..).mp member
    exact strip_of_canonicalNodeId
      (canonical key record.nodeId record.address (by rw [spelling, found]; rfl)).2.1
  intro first firstMember second secondMember same
  rwa [trimmed first firstMember, trimmed second secondMember] at same

/-- An event that makes a new record or replaces the address of one. -/
def entersTable (manager : MembershipManager) (event : MemberEvent) : Bool :=
  match manager.members.get? event.nodeId with
  | none => true
  | some current => decide (current.incarnation < event.incarnation.toNat)

theorem applyEventToRecord_nodeId {record : MemberRecord} {event : MemberEvent}
    {observedAt : Int} {replace : Bool} :
    (applyEventToRecord record event observedAt replace).nodeId = record.nodeId := by
  unfold applyEventToRecord
  dsimp only
  split <;> cases replace <;> rfl

theorem spelling_storeRecord (manager : MembershipManager) (event : MemberEvent)
    (record : MemberRecord) (readings : Readings) (key : Text) :
    spelling (storeRecord manager event record readings) key =
      if key = event.nodeId then some (record.nodeId, record.address)
        else spelling manager key := by
  rw [spelling, storeRecord_members, Dict.get?_set, spelling]
  split <;> rfl

/-- An event about another node leaves its address in the table when it enters it, and its node id
when the node was unknown. -/
theorem spelling_applyPeerEvent (manager : MembershipManager) (event : MemberEvent)
    (readings : Readings) (key : Text) :
    spelling (applyPeerEvent manager event readings) key =
      if key = event.nodeId ∧ entersTable manager event = true then
        some (((spelling manager key).map Prod.fst).getD event.nodeId, event.address)
      else spelling manager key := by
  have kept : ∀ record, manager.members.get? event.nodeId = some record →
      spelling manager event.nodeId = some (record.nodeId, record.address) := by
    intro record found
    rw [spelling, found]
    rfl
  rw [applyPeerEvent]
  by_cases other : key = event.nodeId
  · subst other
    cases found : manager.members.get? event.nodeId with
    | none =>
        have enters : entersTable manager event = true := by rw [entersTable, found]
        dsimp only
        rw [spelling_storeRecord, if_pos rfl, if_pos ⟨rfl, enters⟩, spelling, found]
        rfl
    | some current =>
        dsimp only
        rw [kept current found]
        by_cases newer : current.incarnation < event.incarnation.toNat
        · have enters : entersTable manager event = true := by
            rw [entersTable, found]
            exact decide_eq_true newer
          rw [if_pos newer, if_pos ⟨rfl, enters⟩, spelling_storeRecord, if_pos rfl,
            applyEventToRecord_nodeId, applyEventToRecord_address]
          rfl
        · have stays : ¬ (event.nodeId = event.nodeId ∧ entersTable manager event = true) := by
            rw [entersTable, found]
            exact fun both => newer (of_decide_eq_true both.2)
          rw [if_neg newer, if_neg stays]
          split
          · exact kept current found
          · split
            · rw [spelling_storeRecord, if_pos rfl, applyEventToRecord_nodeId,
                applyEventToRecord_address]
              rfl
            · exact kept current found
  · rw [if_neg (fun both => other both.1)]
    split
    · rw [spelling_storeRecord, if_neg other]
    · split
      · rw [spelling_storeRecord, if_neg other]
      · split
        · rfl
        · split
          · rw [spelling_storeRecord, if_neg other]
          · rfl

/-- The texts of the node itself and of the table stay as they were. -/
structure SameSpelling (before after : MembershipManager) : Prop where
  nodeId : after.nodeId = before.nodeId
  address : after.address = before.address
  table : ∀ key, spelling after key = spelling before key

theorem SameSpelling.refl (manager : MembershipManager) : SameSpelling manager manager :=
  ⟨rfl, rfl, fun _ => rfl⟩

/-- The own record has the texts of the manager. -/
def OwnSpelling (manager : MembershipManager) : Prop :=
  spelling manager manager.nodeId = some (manager.nodeId, manager.address)

theorem SameSpelling.own {before after : MembershipManager} (same : SameSpelling before after)
    (own : OwnSpelling before) :
    OwnSpelling after := by
  rw [OwnSpelling, same.table, same.nodeId, same.address]
  exact own

theorem SameSpelling.canonical_iff {before after : MembershipManager}
    (same : SameSpelling before after) :
    CanonicalTable after ↔ CanonicalTable before := by
  simp only [CanonicalTable, same.table]

theorem writeOwnRecord_sameSpelling {manager : MembershipManager}
    (own : OwnSpelling manager) (incarnation : Nat) (state : MemberState) (now : Int) :
    SameSpelling manager (writeOwnRecord manager incarnation state now) where
  nodeId := rfl
  address := rfl
  table key := by
    rw [spelling, writeOwnRecord, Dict.get?_adjust]
    split
    · rename_i same
      subst same
      rw [OwnSpelling, spelling] at own
      rw [spelling]
      cases found : manager.members.get? manager.nodeId with
      | none => rfl
      | some record =>
          rw [found, Option.map_some, Option.some.injEq, Prod.mk.injEq] at own
          simp [own.2]
    · rfl

theorem advanceThread_sameSpelling {node after : OwnNode} {thread : Nat} {outcome : WriteOutcome}
    {readings : Readings} {phase : Phase} (own : OwnSpelling node.manager)
    (stepped : advanceThread node thread outcome readings phase = some after) :
    SameSpelling node.manager after.manager := by
  cases phase with
  | assign issue =>
      cases stepped
      exact ⟨rfl, rfl, fun _ => rfl⟩
  | storeRecord announcement read =>
      cases stepped
      exact writeOwnRecord_sameSpelling own _ _ _
  | addGossip announcement =>
      cases stepped
      exact ⟨rfl, rfl, fun _ => rfl⟩
  | lockMembers announcement =>
      simp only [advanceThread] at stepped
      split at stepped
      · cases stepped
      · cases stepped
        exact .refl _
  | _ =>
      simp only [advanceThread] at stepped
      split at stepped <;> (cases stepped; exact .refl _)

/-- No valid event about the node itself is taken for an event about another node. -/
def NotBypassed (manager : MembershipManager) (event : MemberEvent) : Prop :=
  isValidMemberEvent event = true → strip event.nodeId = manager.nodeId →
    event.nodeId = manager.nodeId

/-- An event that enters the table is spelled as its validation reads it. -/
def wellSpelledEvent (manager : MembershipManager) (event : MemberEvent) : Bool :=
  !isValidMemberEvent event || decide (event.nodeId = manager.nodeId) ||
    !entersTable manager event ||
    (decide (strip event.nodeId = event.nodeId) && trimmedAddress event.address)

theorem wellSpelledEvent_iff {manager : MembershipManager} {event : MemberEvent}
    (valid : isValidMemberEvent event = true) (other : event.nodeId ≠ manager.nodeId)
    (enters : entersTable manager event = true) :
    wellSpelledEvent manager event = true ↔ strip event.nodeId = event.nodeId ∧
      trimmedAddress event.address = true := by
  simp [wellSpelledEvent, valid, other, enters]

section Steps

variable {node next : OwnNode} {event : MemberEvent}

theorem applyPeerEvent_canonical_iff {manager : MembershipManager} (readings : Readings)
    (canonical : CanonicalTable manager)
    (valid : isValidMemberEvent event = true) (other : event.nodeId ≠ manager.nodeId) :
    (CanonicalTable (applyPeerEvent manager event readings) ∧ NotBypassed manager event) ↔
      wellSpelledEvent manager event = true := by
  have validId : isValidNodeId event.nodeId = true ∧ isValidAddress event.address = true := by
    simp only [isValidMemberEvent, Bool.and_eq_true] at valid
    exact valid.1.1
  by_cases enters : entersTable manager event = true
  · rw [wellSpelledEvent_iff valid other enters]
    constructor
    · rintro ⟨after, -⟩
      obtain ⟨-, sound, address⟩ := after event.nodeId _ _
        (by rw [spelling_applyPeerEvent, if_pos ⟨rfl, enters⟩])
      exact ⟨strip_of_canonicalNodeId sound, (canonicalAddress_iff validId.2).mp address⟩
    · rintro ⟨trimmed, address⟩
      refine ⟨fun key nodeId stored found => ?_, fun _ about => trimmed.symm.trans about⟩
      rw [spelling_applyPeerEvent] at found
      split at found
      · rename_i here
        rw [Option.some.injEq, Prod.mk.injEq] at found
        obtain ⟨named, rfl⟩ := found
        refine ⟨?_, here.1 ▸ (canonicalNodeId_iff validId.1).mpr trimmed,
          (canonicalAddress_iff validId.2).mpr address⟩
        cases known : spelling manager key with
        | none =>
            rw [known] at named
            exact named.symm.trans here.1.symm
        | some pair =>
            rw [known] at named
            exact named.symm.trans (canonical key pair.1 pair.2 known).1
      · exact canonical key nodeId stored found
  · have stays : wellSpelledEvent manager event = true := by simp [wellSpelledEvent, enters]
    refine iff_of_true ⟨fun key nodeId stored found => ?_, fun _ about => ?_⟩ stays
    · rw [spelling_applyPeerEvent, if_neg (fun both => enters both.2)] at found
      exact canonical key nodeId stored found
    · rw [entersTable] at enters
      cases known : manager.members.get? event.nodeId with
      | none => simp [known] at enters
      | some record =>
          have sound :=
            canonical event.nodeId record.nodeId record.address (by rw [spelling, known]; rfl)
          exact (strip_of_canonicalNodeId sound.2.1).symm.trans about

/-- What is received leaves the table canonical, and reaches the handler if it is about the node,
exactly when it is well spelled. -/
theorem receiveEvent_canonical_iff {thread : Nat} {readings : Readings}
    (canonical : CanonicalTable node.manager)
    (stepped : receiveEvent node thread event readings = some next) :
    (CanonicalTable next.manager ∧ NotBypassed node.manager event) ↔
      wellSpelledEvent node.manager event = true := by
  rw [receiveEvent] at stepped
  split at stepped
  · rename_i invalid
    cases stepped
    exact iff_of_true ⟨canonical, fun valid => absurd valid (by simp [invalid])⟩
      (by simp [wellSpelledEvent, invalid])
  · rename_i valid
    rw [Bool.not_eq_false] at valid
    split at stepped
    · rename_i own
      simp only [ownStep] at stepped
      split at stepped <;> cases stepped
      exact iff_of_true ⟨canonical, fun _ _ => own⟩ (by simp [wellSpelledEvent, own])
    · rename_i other
      simp only [ownStep] at stepped
      split at stepped <;> cases stepped
      exact applyPeerEvent_canonical_iff readings canonical valid other

theorem receiveEvent_own {thread : Nat} {readings : Readings} (own : OwnSpelling node.manager)
    (stepped : receiveEvent node thread event readings = some next) : OwnSpelling next.manager := by
  rw [receiveEvent] at stepped
  split at stepped
  · cases stepped
    exact own
  · split at stepped
    · simp only [ownStep] at stepped
      split at stepped <;> cases stepped
      exact own
    · rename_i other
      simp only [ownStep] at stepped
      split at stepped <;> cases stepped
      obtain ⟨sameId, sameAddress⟩ := applyPeerEvent_address node.manager event readings
      rw [OwnSpelling, sameId, sameAddress, spelling_applyPeerEvent,
        if_neg (fun both => other both.1.symm)]
      exact own

theorem receiveEvent_within {identity : NodeIdentity} {thread : Nat} {readings : Readings}
    (within : WithinFile node identity)
    (stepped : receiveEvent node thread event readings = some next) :
    ∃ stored, WithinFile next stored := by
  rw [receiveEvent] at stepped
  split at stepped
  · cases stepped
    exact ⟨identity, within⟩
  · split at stepped <;> exact within.ownStep stepped

/-- A new process has its own record only, with the stripped address of the configuration. -/
theorem startProcess_spelling {file : Option NodeIdentity} {freshNodeId address : Text}
    {gossipTtl now : Int} {issued : List Nat} {announced : List Announcement}
    (begun : startProcess file freshNodeId address gossipTtl now issued announced = some next) :
    next.manager.address = strip address ∧ ∀ key, spelling next.manager key =
      if key = next.manager.nodeId then some (next.manager.nodeId, next.manager.address)
        else none := by
  unfold startProcess at begun
  dsimp only at begun
  split at begun
  · cases begun
  · rename_i manager created
    cases begun
    unfold createManager at created
    split at created
    · cases created
    · split at created
      · cases created
      · cases created
        refine ⟨rfl, fun key => ?_⟩
        rw [spelling, Dict.get?_set]
        split <;> rfl

theorem startProcess_own {file : Option NodeIdentity} {freshNodeId address : Text}
    {gossipTtl now : Int} {issued : List Nat} {announced : List Announcement}
    (begun : startProcess file freshNodeId address gossipTtl now issued announced = some next) :
    OwnSpelling next.manager := by
  rw [OwnSpelling, (startProcess_spelling begun).2, if_pos rfl]

theorem startProcess_canonical_iff {file : Option NodeIdentity} {freshNodeId address : Text}
    {gossipTtl now : Int} {issued : List Nat} {announced : List Announcement}
    {identity : NodeIdentity} (within : WithinFile next identity)
    (begun : startProcess file freshNodeId address gossipTtl now issued announced = some next) :
    CanonicalTable next.manager ↔ asciiPort address = true := by
  obtain ⟨ownAddress, table⟩ := startProcess_spelling begun
  have trimmed : trimmedAddress next.manager.address = asciiPort address := by
    rw [trimmedAddress, asciiPort, ownAddress, strip_strip, decide_eq_true rfl,
      Bool.true_and, asciiPort]
  rw [← trimmed, ← canonicalAddress_iff within.validAddress]
  constructor
  · intro canonical
    exact (canonical next.manager.nodeId _ _ (by rw [table, if_pos rfl])).2.2
  · intro sound key nodeId address found
    rw [table] at found
    split at found
    · rename_i here
      rw [Option.some.injEq, Prod.mk.injEq] at found
      obtain ⟨rfl, rfl⟩ := found
      have own := (canonicalNodeId_iff within.validNodeId).mpr within.stripped
      exact ⟨here.symm, by rw [here, ← within.nodeId]; exact own, sound⟩
    · cases found

end Steps

structure SwimInvariant (swim : SwimNode) : Prop where
  within : ∃ identity, WithinFile swim.node identity
  own : OwnSpelling swim.node.manager

/-- The table and what the SWIM rounds have copied from it. -/
structure CanonicalSwim (swim : SwimNode) : Prop where
  table : CanonicalTable swim.node.manager
  targets : ∀ thread record, swim.targets.get? thread = some record →
    CanonicalNodeId record.nodeId ∧ CanonicalAddress record.address

/-- What a step receives from the network. -/
def received? : SwimEvent → Option MemberEvent
  | .memberEvent _ event _ => some event
  | .nodeinfo _ info state _ => some (info.toEvent state)
  | _ => none

/-- What is received and enters the table has no blanks around its texts and an ASCII port, as the
node's own address has. -/
def wellSpelled (swim : SwimNode) : SwimEvent → Bool
  | .memberEvent _ event _ => wellSpelledEvent swim.node.manager event
  | .nodeinfo _ info state _ => wellSpelledEvent swim.node.manager (info.toEvent state)
  | .restart address _ _ => asciiPort address
  | _ => true

section Run

variable {swim after : SwimNode}

theorem nodeinfo_invalid {info : NodeInfo} (state : MemberState)
    (invalid : isValidNodeinfo info = false) :
    isValidMemberEvent (info.toEvent state) = false := by
  have parts : isValidMemberEvent (info.toEvent state) = (isValidNodeinfo info &&
      isValidState state) := rfl
  rw [parts, invalid, Bool.false_and]

theorem swimStep_invariant {event : SwimEvent} (invariant : SwimInvariant swim)
    (stepped : swimStep swim event = some after) : SwimInvariant after := by
  obtain ⟨⟨identity, within⟩, own⟩ := invariant
  have receives : ∀ {thread event readings} {node : OwnNode},
      receiveEvent swim.node thread event readings = some node →
      SwimInvariant { swim with node } := fun received =>
    ⟨receiveEvent_within within received, receiveEvent_own own received⟩
  cases event with
  | memberEvent thread event readings =>
      obtain ⟨node, received, rfl⟩ := Option.map_eq_some_iff.mp stepped
      exact receives received
  | nodeinfo thread info state readings =>
      simp only [swimStep] at stepped
      split at stepped
      · obtain ⟨node, received, rfl⟩ := Option.map_eq_some_iff.mp stepped
        exact receives received
      · cases stepped
        exact ⟨⟨identity, within⟩, own⟩
  | target thread nodeId =>
      obtain ⟨record, -, rfl⟩ := Option.map_eq_some_iff.mp stepped
      exact ⟨⟨identity, within⟩, own⟩
  | mark thread state readings =>
      simp only [swimStep] at stepped
      split at stepped
      · cases stepped
      · split at stepped
        · obtain ⟨node, received, rfl⟩ := Option.map_eq_some_iff.mp stepped
          exact receives received
        · cases stepped
          exact ⟨⟨identity, within⟩, own⟩
  | leave thread =>
      obtain ⟨node, left, rfl⟩ := Option.map_eq_some_iff.mp stepped
      refine ⟨within.ownStep left, ?_⟩
      simp only [ownStep] at left
      split at left <;> cases left
      exact own
  | advance thread outcome readings =>
      obtain ⟨node, advanced, rfl⟩ := Option.map_eq_some_iff.mp stepped
      refine ⟨within.ownStep advanced, ?_⟩
      simp only [ownStep] at advanced
      split at advanced
      · cases advanced
      · exact (advanceThread_sameSpelling own advanced).own own
  | restart address gossipTtl now =>
      obtain ⟨node, restarted, rfl⟩ := Option.map_eq_some_iff.mp stepped
      exact ⟨within.ownStep restarted, startProcess_own restarted⟩

theorem CanonicalSwim.receive_iff {thread : Nat} {event : MemberEvent}
    {readings : Readings} {node : OwnNode} (canonical : CanonicalSwim swim)
    (received : receiveEvent swim.node thread event readings = some node) :
    (CanonicalSwim { swim with node } ∧ NotBypassed swim.node.manager event) ↔
      wellSpelledEvent swim.node.manager event = true := by
  rw [← receiveEvent_canonical_iff canonical.table received]
  exact and_congr_left fun _ => ⟨CanonicalSwim.table, fun table => ⟨table, canonical.targets⟩⟩

theorem swimStep_canonical_iff {event : SwimEvent} (invariant : SwimInvariant swim)
    (canonical : CanonicalSwim swim) (stepped : swimStep swim event = some after) :
    (CanonicalSwim after ∧ ∀ message, received? event = some message →
      NotBypassed swim.node.manager message) ↔ wellSpelled swim event = true := by
  obtain ⟨⟨identity, within⟩, own⟩ := invariant
  cases event with
  | memberEvent thread event readings =>
      obtain ⟨node, received, rfl⟩ := Option.map_eq_some_iff.mp stepped
      rw [wellSpelled, ← canonical.receive_iff received]
      simp [received?]
  | nodeinfo thread info state readings =>
      simp only [swimStep] at stepped
      split at stepped
      · obtain ⟨node, received, rfl⟩ := Option.map_eq_some_iff.mp stepped
        rw [wellSpelled, ← canonical.receive_iff received]
        simp [received?]
      · rename_i invalid
        rw [Bool.not_eq_true] at invalid
        cases stepped
        have ignored := nodeinfo_invalid state invalid
        refine iff_of_true ⟨canonical, ?_⟩ (by simp [wellSpelled, wellSpelledEvent, ignored])
        rintro _ ⟨⟩ valid
        exact absurd valid (by simp [ignored])
  | target thread nodeId =>
      obtain ⟨record, found, rfl⟩ := Option.map_eq_some_iff.mp stepped
      have known :=
        canonical.table nodeId record.nodeId record.address (by rw [spelling, found]; rfl)
      refine iff_of_true ⟨⟨canonical.table, fun other copy stored => ?_⟩,
        fun _ none => by cases none⟩ rfl
      dsimp only at stored
      rw [Dict.get?_set] at stored
      split at stored
      · cases stored
        exact ⟨known.1 ▸ known.2.1, known.2.2⟩
      · exact canonical.targets other copy stored
  | mark thread state readings =>
      refine iff_of_true ⟨?_, fun _ none => by cases none⟩ rfl
      simp only [swimStep] at stepped
      split at stepped
      · cases stepped
      · rename_i record taken
        split at stepped
        · obtain ⟨node, received, rfl⟩ := Option.map_eq_some_iff.mp stepped
          obtain ⟨nodeId, address⟩ := canonical.targets thread record taken
          refine ((canonical.receive_iff received).mpr ?_).1
          -- the texts come from the table
          by_cases valid : isValidMemberEvent {
              nodeId := record.nodeId, address := record.address, incarnation :=
                .ofNat record.incarnation, state } = true
          · have validAddress := valid
            simp only [isValidMemberEvent, Bool.and_eq_true] at validAddress
            simp [wellSpelledEvent, strip_of_canonicalNodeId nodeId,
              (canonicalAddress_iff validAddress.1.1.2).mp address]
          · simp [wellSpelledEvent, valid]
        · cases stepped
          exact canonical
  | leave thread =>
      obtain ⟨node, left, rfl⟩ := Option.map_eq_some_iff.mp stepped
      refine iff_of_true ⟨⟨?_, canonical.targets⟩, fun _ none => by cases none⟩ rfl
      simp only [ownStep] at left
      split at left <;> cases left
      exact canonical.table
  | advance thread outcome readings =>
      obtain ⟨node, advanced, rfl⟩ := Option.map_eq_some_iff.mp stepped
      refine iff_of_true ⟨⟨?_, canonical.targets⟩, fun _ none => by cases none⟩ rfl
      simp only [ownStep] at advanced
      split at advanced
      · cases advanced
      · exact (advanceThread_sameSpelling own advanced).canonical_iff.mpr canonical.table
  | restart address gossipTtl now =>
      obtain ⟨node, restarted, rfl⟩ := Option.map_eq_some_iff.mp stepped
      obtain ⟨stored, begun⟩ := within.ownStep restarted
      rw [wellSpelled, ← startProcess_canonical_iff begun restarted]
      constructor
      · rintro ⟨fresh, -⟩
        exact fresh.table
      · intro table
        exact ⟨⟨table, fun _ _ none => by cases none⟩, fun _ none => by cases none⟩

end Run

/-- In every step of the run the table stays canonical, with no node under two spellings, and no
event about the node itself goes past its handler. -/
def AlwaysCanonical (start : SwimNode) (events : List SwimEvent) : Prop :=
  ∀ earlier event later reached next, events = earlier ++ event :: later →
    runEvents swimStep start earlier = some reached → swimStep reached event = some next →
      CanonicalSwim next ∧
      (∀ first ∈ next.node.manager.members.keys, ∀ second ∈ next.node.manager.members.keys,
        strip first = strip second → first = second) ∧
      ∀ message, received? event = some message → NotBypassed reached.node.manager message

/-- From every start, through any interleaving of messages, handlers and SWIM rounds and any number
of restarts, the member table stays canonical if and only if what is received and enters it, and the
node's own address, are spelled as the validation reads them. -/
theorem memberTable_canonical_iff {file : Option NodeIdentity} {freshNodeId address : Text}
    {gossipTtl now : Int} {start : OwnNode} {after : SwimNode} {events : List SwimEvent}
    (stripped : strip (loadForStartup file freshNodeId).nodeId =
      (loadForStartup file freshNodeId).nodeId)
    (started : startProcess file freshNodeId address gossipTtl now [] [] = some start)
    (ran : runEvents swimStep { node := start, targets := .empty } events = some after) :
    CanonicalTable start.manager ∧ AlwaysCanonical { node := start, targets := .empty } events ↔
      asciiPort address = true ∧
        EventsMeet swimStep (fun swim event => wellSpelled swim event = true)
          { node := start, targets := .empty } events := by
  have within := withinFile_startProcess stripped started
  rw [← startProcess_canonical_iff within started]
  refine and_congr_right fun table => ?_
  have canonical : CanonicalSwim { node := start, targets := .empty } :=
    ⟨table, fun _ _ none => nomatch none⟩
  rw [← safeSteps_iff_eventsMeet SwimInvariant CanonicalSwim
    (fun swim event => ∀ message, received? event = some message →
      NotBypassed swim.node.manager message)
    (fun _ _ _ invariant stepped => swimStep_invariant invariant stepped)
    (fun _ _ _ invariant safe stepped => swimStep_canonical_iff invariant safe stepped)
    ⟨⟨_, within⟩, startProcess_own started⟩ canonical ran]
  constructor
  · intro always earlier event later reached next split reaches stepped
    obtain ⟨sound, -, handled⟩ := always earlier event later reached next split reaches stepped
    exact ⟨sound, handled⟩
  · intro steps earlier event later reached next split reaches stepped
    obtain ⟨sound, handled⟩ := steps earlier event later reached next split reaches stepped
    exact ⟨sound, sound.table.spelledOnce, handled⟩

namespace TwoHandlers

def readNow : Readings where
  observedAt := 1
  addedAt := 1
  prunedAt := 1

def peer : NodeInfo where
  nodeId := List.replicate 32 'b'
  address := "10.0.0.2:7000".toList
  incarnation := 1

/-- A suspicion of the node itself, with a blank behind its id. -/
def blankBehind : MemberEvent := { suspected with nodeId := nodeId ++ [' '] }

end TwoHandlers

open TwoHandlers in
theorem blankBehind_bypasses :
    ∃ start next, start? = some start ∧ isValidMemberEvent blankBehind = true ∧
      swimStep { node := start, targets := .empty }
        (.memberEvent 1 blankBehind readNow) = some next ∧
      next.node.manager.members.keys = [nodeId, nodeId ++ [' ']] ∧ next.node.threads = .empty ∧
      ¬ AlwaysCanonical { node := start, targets := .empty }
        [.memberEvent 1 blankBehind readNow] := by
  obtain ⟨start, started⟩ := Option.isSome_iff_exists.mp (by decide +kernel : start?.isSome = true)
  have entered : (start?.bind fun node =>
      swimStep { node, targets := .empty } (.memberEvent 1 blankBehind readNow)).map (fun next =>
        (next.node.manager.members.keys, next.node.threads.entries)) = some
          ([nodeId, nodeId ++ [' ']], []) := by
    decide +kernel
  rw [started, Option.bind_some] at entered
  obtain ⟨next, stepped, state⟩ := Option.map_eq_some_iff.mp entered
  obtain ⟨keys, threads⟩ := Prod.mk.inj state
  refine ⟨start, next, started, by decide +kernel, stepped, keys,
    Dict.ext_entries threads, fun always => ?_⟩
  obtain ⟨-, once, -⟩ := always [] _ [] _ next rfl rfl stepped
  rw [keys] at once
  exact absurd (once nodeId (by simp) (nodeId ++ [' ']) (by simp) (by decide +kernel))
    (by decide +kernel)

open TwoHandlers in
theorem joiningPeer_canonical :
    ∃ start, start? = some start ∧
      AlwaysCanonical { node := start, targets := .empty } [.nodeinfo 1 peer .alive readNow,
        .memberEvent 2 suspected readNow] := by
  obtain ⟨start, started⟩ := Option.isSome_iff_exists.mp (by decide +kernel : start?.isSome = true)
  have reached : (start?.bind fun node => runEvents swimStep { node, targets := .empty }
      [.nodeinfo 1 peer .alive readNow, .memberEvent 2 suspected readNow]).isSome = true := by
        decide +kernel
  have checked : start?.map
      (fun node => checkEvents swimStep wellSpelled { node, targets := .empty }
      [.nodeinfo 1 peer .alive readNow, .memberEvent 2 suspected readNow]) = some true := by
        decide +kernel
  rw [started, Option.bind_some] at reached
  rw [started, Option.map_some, Option.some.injEq] at checked
  obtain ⟨after, ran⟩ := Option.isSome_iff_exists.mp reached
  refine ⟨start, started, ?_⟩
  exact ((@memberTable_canonical_iff none nodeId address 30 0 start after _
    (by decide +kernel) started ran).mpr
    ⟨by decide +kernel, eventsMeet_of_checkEvents checked⟩).2

end Stopan.Membership
