import Stopan.Lib.Latest
import Stopan.Membership.Manager

namespace Stopan.Membership

open Stopan.Lib Stopan.Common

/-- One call of `apply_event`, with what its environment decides. -/
structure Delivery where
  event : MemberEvent
  outcome : WriteOutcome
  readings : Readings

structure MembershipNode where
  file : Option NodeIdentity
  manager : MembershipManager

def MembershipNode.deliver (node : MembershipNode) (delivery : Delivery) : MembershipNode :=
  let handled := applyEvent node.file node.manager delivery.event delivery.outcome delivery.readings
  { file := handled.file, manager := handled.manager }

def MembershipNode.deliverAll (node : MembershipNode) (deliveries : List Delivery) :
    MembershipNode :=
  deliveries.foldl MembershipNode.deliver node

def MembershipNode.member? (node : MembershipNode) (nodeId : Text) : Option MemberRecord :=
  node.manager.members.get? nodeId

def MemberEvent.rank (event : MemberEvent) : ℕ ×ₗ ℕ :=
  toLex (event.incarnation.toNat, stateOrder event.state)

def MemberRecord.rank (record : MemberRecord) : ℕ ×ₗ ℕ :=
  toLex (record.incarnation, stateOrder record.state)

def rankOf : Option MemberRecord → WithBot (ℕ ×ₗ ℕ)
  | none => ⊥
  | some record => record.rank

/-- The rank of what the manager knows about a node, the least one when it knows nothing. -/
def memberRank (node : MembershipNode) (nodeId : Text) : WithBot (ℕ ×ₗ ℕ) :=
  rankOf (node.member? nodeId)

section Records

variable {record : MemberRecord} {event : MemberEvent} {observedAt : Int} {replace : Bool}

theorem applyEventToRecord_state :
    (applyEventToRecord record event observedAt replace).state = event.state := by
  unfold applyEventToRecord
  dsimp only
  split <;> simp_all

theorem applyEventToRecord_incarnation :
    (applyEventToRecord record event observedAt replace).incarnation =
      if replace then event.incarnation.toNat else record.incarnation := by
  unfold applyEventToRecord
  dsimp only
  split <;> cases replace <;> rfl

theorem applyEventToRecord_address :
    (applyEventToRecord record event observedAt replace).address =
      if replace then event.address else record.address := by
  unfold applyEventToRecord
  dsimp only
  split <;> cases replace <;> rfl

end Records

section OneEvent

variable (manager : MembershipManager) (event : MemberEvent) (readings : Readings)

theorem storeRecord_nodeId (record : MemberRecord) :
    (storeRecord manager event record readings).nodeId = manager.nodeId := by
  unfold storeRecord
  dsimp only
  split <;> rfl

theorem storeRecord_members (record : MemberRecord) :
    (storeRecord manager event record readings).members =
      manager.members.set event.nodeId record := by
  unfold storeRecord
  dsimp only
  split <;> rfl

/-- How the record of a node follows from the record before and an event about the node. -/
inductive Merge (before : Option MemberRecord) (event : MemberEvent) : MemberRecord → Prop where
  | taken {after : MemberRecord}
      (outranked : ∀ current, before = some current → current.rank < event.rank)
      (incarnation : after.incarnation = event.incarnation.toNat)
      (state : after.state = event.state) (address : after.address = event.address ∨
        ∃ current, before = some current ∧ current.incarnation = event.incarnation.toNat ∧
          after.address = current.address) : Merge before event after
  | kept {current : MemberRecord} (known : before = some current)
      (outranks : event.rank ≤ current.rank) :
      Merge before event current

theorem applyPeerEvent_cases :
    ∃ after, Merge (manager.members.get? event.nodeId) event after ∧
      (applyPeerEvent manager event readings).nodeId = manager.nodeId ∧
      (∀ nodeId, (applyPeerEvent manager event readings).members.get? nodeId =
        if nodeId = event.nodeId then some after else manager.members.get? nodeId) := by
  unfold applyPeerEvent
  cases known : manager.members.get? event.nodeId with
  | none =>
      refine ⟨newRecordFromEvent event readings.observedAt, ?_,
        storeRecord_nodeId _ _ _ _, fun nodeId => ?_⟩
      · exact .taken (fun _ absent => nomatch absent) rfl rfl (.inl rfl)
      · rw [storeRecord_members, Dict.get?_set]
  | some current =>
      dsimp only
      split
      · rename_i newer
        refine ⟨applyEventToRecord current event readings.observedAt true, ?_,
          storeRecord_nodeId _ _ _ _, fun nodeId => ?_⟩
        · refine .taken ?_ applyEventToRecord_incarnation applyEventToRecord_state
            (.inl applyEventToRecord_address)
          rintro _ ⟨⟩
          exact (Prod.Lex.toLex_lt_toLex).mpr (.inl newer)
        · rw [storeRecord_members, Dict.get?_set]
      · rename_i notNewer
        -- The record stays as it is for an older event and for one whose state is not stronger.
        have unchanged : ∀ nodeId, manager.members.get? nodeId =
            if nodeId = event.nodeId then some current else manager.members.get? nodeId := by
          intro nodeId
          split
          · rename_i same
            rw [same, known]
          · rfl
        split
        · rename_i older
          exact ⟨current, .kept rfl ((Prod.Lex.toLex_le_toLex).mpr (.inl older)), rfl, unchanged⟩
        · rename_i notOlder
          have equal : current.incarnation = event.incarnation.toNat := by omega
          split
          · rename_i stronger
            refine ⟨applyEventToRecord current event readings.observedAt false, ?_,
              storeRecord_nodeId _ _ _ _, fun nodeId => ?_⟩
            · refine .taken ?_ (applyEventToRecord_incarnation.trans equal)
                applyEventToRecord_state (.inr ⟨current, rfl, equal, applyEventToRecord_address⟩)
              rintro _ ⟨⟩
              exact (Prod.Lex.toLex_lt_toLex).mpr (.inr ⟨equal, stronger⟩)
            · rw [storeRecord_members, Dict.get?_set]
          · rename_i notStronger
            have weaker : stateOrder event.state ≤ stateOrder current.state := by omega
            exact ⟨current, .kept rfl ((Prod.Lex.toLex_le_toLex).mpr (.inr ⟨equal.symm, weaker⟩)),
              rfl, unchanged⟩

end OneEvent

theorem Merge.rank {before : Option MemberRecord} {event : MemberEvent} {after : MemberRecord}
    (merged : Merge before event after) :
    rankOf (some after) = max (rankOf before) event.rank := by
  cases merged with
  | taken outranked incarnation state address =>
      have same : after.rank = event.rank := by
        rw [MemberRecord.rank, incarnation, state, MemberEvent.rank]
      rw [rankOf, same]
      cases before with
      | none => simp [rankOf]
      | some current => simp [rankOf, (outranked current rfl).le]
  | kept known outranks => simp [known, rankOf, outranks]

/-- A delivery of a valid event about another node. -/
def Admits (node : MembershipNode) (delivery : Delivery) : Prop :=
  isValidMemberEvent delivery.event = true ∧ delivery.event.nodeId ≠ node.manager.nodeId

theorem deliver_of_admits {node : MembershipNode} {delivery : Delivery}
    (admitted : Admits node delivery) :
    node.deliver delivery =
      { node with manager := applyPeerEvent node.manager delivery.event delivery.readings } := by
  simp [MembershipNode.deliver, applyEvent, admitted.1, admitted.2]

theorem deliver_member? {node : MembershipNode} {delivery : Delivery}
    (admitted : Admits node delivery) :
    ∃ after, Merge (node.member? delivery.event.nodeId) delivery.event after ∧
      ∀ nodeId, (node.deliver delivery).member? nodeId =
        if nodeId = delivery.event.nodeId then some after else node.member? nodeId := by
  obtain ⟨after, merged, -, found⟩ :=
    applyPeerEvent_cases node.manager delivery.event delivery.readings
  rw [deliver_of_admits admitted]
  exact ⟨after, merged, found⟩

theorem deliver_nodeId {node : MembershipNode} {delivery : Delivery}
    (admitted : Admits node delivery) :
    (node.deliver delivery).manager.nodeId = node.manager.nodeId := by
  obtain ⟨-, -, same, -⟩ := applyPeerEvent_cases node.manager delivery.event delivery.readings
  rw [deliver_of_admits admitted]
  exact same

theorem deliver_keepsLatest :
    KeepsLatest MembershipNode.deliver memberRank (fun delivery => delivery.event.nodeId)
      (fun delivery => delivery.event.rank) Admits := by
  intro node delivery admitted nodeId
  obtain ⟨after, merged, found⟩ := deliver_member? admitted
  simp only [memberRank, found nodeId]
  by_cases same : delivery.event.nodeId = nodeId
  · subst same
    simpa using merged.rank
  · have distinct : ¬ nodeId = delivery.event.nodeId := fun equal => same equal.symm
    simp [same, distinct]

/-- Where the data of a record come from: its incarnation and state from one event about the node,
its address from an event with the same incarnation. -/
structure Sourced (events : MemberEvent → Prop) (nodeId : Text) (record : MemberRecord) : Prop where
  state : ∃ event, events event ∧ event.nodeId = nodeId ∧
    record.incarnation = event.incarnation.toNat ∧ record.state = event.state
  address : ∃ event, events event ∧ event.nodeId = nodeId ∧
    record.incarnation = event.incarnation.toNat ∧ record.address = event.address

theorem Merge.sourced {events : MemberEvent → Prop} {before : Option MemberRecord}
    {event : MemberEvent}
    {after : MemberRecord} (merged : Merge before event after) (delivered : events event)
    (known : ∀ record, before = some record → Sourced events event.nodeId record) :
    Sourced events event.nodeId after := by
  cases merged with
  | taken outranked incarnation state address =>
      refine ⟨⟨event, delivered, rfl, incarnation, state⟩, ?_⟩
      rcases address with same | ⟨current, found, equal, same⟩
      · exact ⟨event, delivered, rfl, incarnation, same⟩
      · obtain ⟨origin, earlier, node, number, text⟩ := (known current found).address
        exact ⟨origin, earlier, node, by rw [incarnation, ← equal, number], same.trans text⟩
  | kept found outranks => exact known after found

theorem deliverAll_sourced {events : MemberEvent → Prop} {nodeId : Text}
    (deliveries : List Delivery)
    (node : MembershipNode) (admitted : ∀ delivery ∈ deliveries, Admits node delivery)
    (delivered : ∀ delivery ∈ deliveries, events delivery.event)
    (known : ∀ record, node.member? nodeId = some record → Sourced events nodeId record) :
    ∀ record, (node.deliverAll deliveries).member? nodeId = some record →
      Sourced events nodeId record := by
  induction deliveries generalizing node with
  | nil => exact known
  | cons delivery rest ih =>
      have first := admitted delivery (by simp)
      obtain ⟨after, merged, found⟩ := deliver_member? first
      have later : ∀ other ∈ rest, Admits (node.deliver delivery) other := by
        intro other member
        have allowed := admitted other (by simp [member])
        exact ⟨allowed.1, by rw [deliver_nodeId first]; exact allowed.2⟩
      refine ih (node.deliver delivery) later
        (fun other member => delivered other (by simp [member])) ?_
      intro record located
      rw [found nodeId] at located
      split at located
      · rename_i same
        subst same
        cases located
        exact merged.sourced (delivered delivery (by simp)) known
      · exact known record located

theorem deliverAll_rank (nodeId : Text) (deliveries : List Delivery) (node : MembershipNode)
    (admitted : ∀ delivery ∈ deliveries, Admits node delivery) :
    memberRank (node.deliverAll deliveries) nodeId =
      max (memberRank node nodeId)
        (latest (fun delivery => delivery.event.nodeId)
          (fun delivery => delivery.event.rank) deliveries nodeId) := by
  refine deliver_keepsLatest.foldl deliveries node ?_ admitted
  intro state update first other _ allowed
  exact ⟨allowed.1, by rw [deliver_nodeId first]; exact allowed.2⟩

/-- What is known about a node is the lexicographic maximum of incarnation and state order over its
events. -/
structure LatestKnown (events : Multiset MemberEvent) (nodeId : Text)
    (known : Option MemberRecord) : Prop where
  absent : known = none ↔ ∀ event ∈ events, event.nodeId ≠ nodeId
  attained : ∀ record, known = some record →
    ∃ event ∈ events, event.nodeId = nodeId ∧ record.incarnation = event.incarnation.toNat ∧
      record.state = event.state
  greatest : ∀ record, known = some record → ∀ event ∈ events, event.nodeId = nodeId →
    event.rank ≤ record.rank

section Convergence

variable {events : Multiset MemberEvent} {nodeId : Text} {node : MembershipNode}
  {deliveries : List Delivery}

theorem deliverAll_latestKnown (valid : ∀ event ∈ events, isValidMemberEvent event = true)
    (others : ∀ event ∈ events, event.nodeId ≠ node.manager.nodeId)
    (delivered : ∀ event, event ∈ deliveries.map Delivery.event ↔ event ∈ events)
    (unknown : node.member? nodeId = none) :
    LatestKnown events nodeId ((node.deliverAll deliveries).member? nodeId) ∧
      ∀ record, (node.deliverAll deliveries).member? nodeId = some record →
        Sourced (· ∈ events) nodeId record := by
  have arrived : ∀ delivery ∈ deliveries, delivery.event ∈ events := fun delivery member =>
    (delivered delivery.event).mp (List.mem_map_of_mem member)
  have admitted : ∀ delivery ∈ deliveries, Admits node delivery := fun delivery member =>
    ⟨valid _ (arrived delivery member), others _ (arrived delivery member)⟩
  have sourced := deliverAll_sourced deliveries node admitted arrived
    (fun record found => absurd (unknown.symm.trans found) (by simp))
  have best := deliverAll_rank nodeId deliveries node admitted
  rw [memberRank, memberRank, unknown, rankOf, max_eq_right bot_le] at best
  refine ⟨⟨?_, fun record found => (sourced record found).state, ?_⟩, sourced⟩
  · constructor
    · intro absent event member same
      rw [absent, rankOf, eq_comm, latest_eq_bot_iff] at best
      obtain ⟨delivery, inside, rfl⟩ := List.mem_map.mp ((delivered event).mpr member)
      exact best delivery inside same
    · intro none
      cases known : (node.deliverAll deliveries).member? nodeId with
      | none => rfl
      | some record =>
          obtain ⟨event, member, same, -⟩ := (sourced record known).state
          exact absurd same (none event member)
  · intro record found event member same
    rw [found, rankOf, eq_comm, latest_eq_coe_iff] at best
    obtain ⟨delivery, inside, rfl⟩ := List.mem_map.mp ((delivered event).mpr member)
    exact best.2 delivery inside same

/-- Two records of the latest knowledge about a node agree on incarnation and state. -/
theorem LatestKnown.agree {first second : Option MemberRecord}
    (valid : ∀ event ∈ events, isValidMemberEvent event = true)
    (firstLatest : LatestKnown events nodeId first)
    (secondLatest : LatestKnown events nodeId second) :
    first.map (fun record => (record.incarnation, record.state)) =
      second.map (fun record => (record.incarnation, record.state)) := by
  cases firstKnown : first with
  | none =>
      have nothing := firstLatest.absent.mp firstKnown
      rw [secondLatest.absent.mpr nothing]
  | some record =>
      cases secondKnown : second with
      | none =>
          have nothing := secondLatest.absent.mp secondKnown
          rw [firstLatest.absent.mpr nothing] at firstKnown
          cases firstKnown
      | some other =>
          obtain ⟨event, member, same, incarnation, state⟩ := firstLatest.attained record firstKnown
          obtain ⟨event', member', same', incarnation', state'⟩ :=
            secondLatest.attained other secondKnown
          have upper := secondLatest.greatest other secondKnown event member same
          have lower := firstLatest.greatest record firstKnown event' member' same'
          have rank : record.rank = event.rank := by
            rw [MemberRecord.rank, incarnation, state, MemberEvent.rank]
          have rank' : other.rank = event'.rank := by
            rw [MemberRecord.rank, incarnation', state', MemberEvent.rank]
          have equal : record.rank = other.rank := le_antisymm (rank ▸ upper) (rank' ▸ lower)
          have parts := Prod.mk.inj (toLex.injective equal)
          have states : record.state = other.state := by
            refine stateOrder_injective_of_valid ?_ ?_ parts.2
            · exact state ▸ state_of_isValidMemberEvent (valid event member)
            · exact state' ▸ state_of_isValidMemberEvent (valid event' member')
          simp [parts.1, states]

/-- Two nodes that receive the same valid events about other nodes, in any order and with any
repetition, end with the same incarnation and state for every node they did not know before, the
lexicographic maximum over its events, and with the same address when the events of one incarnation
of a node agree on it. -/
theorem memberViews_converge (valid : ∀ event ∈ events, isValidMemberEvent event = true)
    {first second : MembershipNode} {firstOrder secondOrder : List Delivery}
    (firstOthers : ∀ event ∈ events, event.nodeId ≠ first.manager.nodeId)
    (secondOthers : ∀ event ∈ events, event.nodeId ≠ second.manager.nodeId)
    (firstDelivered : ∀ event, event ∈ firstOrder.map Delivery.event ↔ event ∈ events)
    (secondDelivered : ∀ event, event ∈ secondOrder.map Delivery.event ↔ event ∈ events)
    (firstUnknown : first.member? nodeId = none) (secondUnknown : second.member? nodeId = none) :
    LatestKnown events nodeId ((first.deliverAll firstOrder).member? nodeId) ∧
      ((first.deliverAll firstOrder).member? nodeId).map
        (fun record => (record.incarnation, record.state)) =
        ((second.deliverAll secondOrder).member? nodeId).map
          (fun record => (record.incarnation, record.state)) ∧
      ∀ addressOf : Text → Nat → Text,
        (∀ event ∈ events, event.address = addressOf event.nodeId event.incarnation.toNat) →
          ((first.deliverAll firstOrder).member? nodeId).map MemberRecord.address =
            ((second.deliverAll secondOrder).member? nodeId).map MemberRecord.address := by
  obtain ⟨firstLatest, firstSourced⟩ :=
    deliverAll_latestKnown valid firstOthers firstDelivered firstUnknown
  obtain ⟨secondLatest, secondSourced⟩ :=
    deliverAll_latestKnown valid secondOthers secondDelivered secondUnknown
  have agreed := firstLatest.agree valid secondLatest
  refine ⟨firstLatest, agreed, fun addressOf functional => ?_⟩
  -- Either record has the address of some event with the common incarnation.
  have determined : ∀ record, Sourced (· ∈ events) nodeId record →
      record.address = addressOf nodeId record.incarnation := by
    intro record sourced
    obtain ⟨event, member, rfl, incarnation, address⟩ := sourced.address
    rw [address, functional event member, incarnation]
  cases firstKnown : (first.deliverAll firstOrder).member? nodeId with
  | none =>
      rw [firstKnown] at agreed
      rw [Option.map_eq_none_iff.mp agreed.symm]
  | some record =>
      rw [firstKnown] at agreed
      obtain ⟨other, secondKnown, pair⟩ := Option.map_eq_some_iff.mp agreed.symm
      rw [secondKnown, Option.map_some, Option.map_some,
        determined record (firstSourced record firstKnown),
        determined other (secondSourced other secondKnown), (Prod.mk.inj pair).1]

end Convergence

namespace ThirdNode

def nodeId (digit : Char) : Text := List.replicate 32 digit

def address : Text := "10.0.0.7:7000".toList

def event (digit : Char) (incarnation : UInt64) (state : MemberState) : MemberEvent where
  nodeId := nodeId digit
  address
  incarnation
  state

/-- What a node knows of another one. -/
def record (digit : Char) (incarnation : Nat) : Text × MemberRecord :=
  (nodeId digit, {
    nodeId := nodeId digit
    address
    incarnation
    state := .alive
    lastSeen := 0
    suspectSince := none })

def node (digit : Char) (members : List (Text × MemberRecord)) : MembershipNode where
  file := some { nodeId := nodeId digit, incarnation := 1 }
  manager := {
    nodeId := nodeId digit
    address := "10.0.0.1:7000".toList
    incarnation := 1
    members := .ofList members
    gossip := { ttl := 30, events := [] }
    leaving := false
    bootstrapComplete := false
    nextBootstrapRetryAt := none }

/-- The two nodes know each other, and one of them already knows `d`. -/
def first : MembershipNode := node 'a' [record 'b' 1, record 'd' 3]

def second : MembershipNode := node 'b' [record 'a' 1]

def delivery (now : Int) (event : MemberEvent) : Delivery where
  event
  outcome := .written
  readings := { observedAt := now, addedAt := now, prunedAt := now }

def firstOrder : List Delivery :=
  [delivery 1 (event 'c' 1 .alive), delivery 2 (event 'd' 2 .dead), delivery 3 (event 'c' 1 .left),
    delivery 4 (event 'c' 2 .alive), delivery 5 (event 'c' 2 .suspect)]

def secondOrder : List Delivery :=
  [delivery 1 (event 'c' 2 .suspect), delivery 2 (event 'c' 1 .left),
    delivery 3 (event 'c' 2 .suspect),
    delivery 4 (event 'c' 1 .alive), delivery 5 (event 'd' 2 .dead),
      delivery 6 (event 'c' 2 .alive)]

def events : Multiset MemberEvent :=
  {event 'c' 1 .alive, event 'c' 1 .left, event 'c' 2 .alive,
   event 'c' 2 .suspect, event 'd' 2 .dead}

end ThirdNode

open ThirdNode in
theorem thirdNode_agreed :
    ((first.deliverAll firstOrder).member? (nodeId 'c')).map
        (fun record => (record.incarnation, record.state)) = some (2, .suspect) ∧
      ((second.deliverAll secondOrder).member? (nodeId 'c')).map
        (fun record => (record.incarnation, record.state)) = some (2, .suspect) ∧
      ((first.deliverAll firstOrder).member? (nodeId 'c')).map MemberRecord.address =
        ((second.deliverAll secondOrder).member? (nodeId 'c')).map MemberRecord.address := by
  have converged := @memberViews_converge events (nodeId 'c')
    (by decide +kernel) first second firstOrder secondOrder
    (by decide +kernel) (by decide +kernel)
    (fun other => by simp [events, firstOrder, delivery]; tauto)
    (fun other => by simp [events, secondOrder, delivery]; tauto)
      (by decide +kernel) (by decide +kernel)
  have known : ((first.deliverAll firstOrder).member? (nodeId 'c')).map
      (fun record => (record.incarnation, record.state)) = some (2, .suspect) := by decide +kernel
  exact ⟨known, converged.2.1 ▸ known, converged.2.2 (fun _ _ => address) (by decide +kernel)⟩

end Stopan.Membership
