import Stopan.Common.Basic

/-!
The membership view of a node (`stopan/node/membership` and `stopan/node/identity.py`): validation
of member events, the gossip buffer, the persistent identity and the manager that merges events.
-/

namespace Stopan.Membership

open Stopan.Lib Stopan.Common

inductive NodeError where
  | membershipConfig (message : String)
  | nodeIdentity (message : String)
  | nodeIdentityValue (message : String)
  | io
  | value (message : String)
  deriving DecidableEq, Repr

/-- The protobuf enumeration, which is open: a message may carry a number without a name. -/
inductive MemberState where
  | unknown
  | alive
  | suspect
  | dead
  | left
  | unrecognized (number : Int)
  deriving DecidableEq, Repr

/-- `STATE_ORDER.get(state, 0)`. -/
def stateOrder : MemberState → Nat
  | .unknown => 0
  | .alive => 1
  | .suspect => 2
  | .dead => 3
  | .left => 4
  | .unrecognized _ => 0

def validEventStates : List MemberState := [.alive, .suspect, .dead, .left]

theorem stateOrder_injective_of_valid {first second : MemberState}
    (firstValid : first ∈ validEventStates)
    (secondValid : second ∈ validEventStates) (equal : stateOrder first = stateOrder second) :
    first = second := by
  have all : ∀ first ∈ validEventStates, ∀ second ∈ validEventStates,
      stateOrder first = stateOrder second → first = second := by decide
  exact all first firstValid second secondValid equal

structure MemberEvent where
  nodeId : Text
  address : Text
  incarnation : UInt64
  state : MemberState
  deriving DecidableEq, Repr

structure MemberRecord where
  nodeId : Text
  address : Text
  incarnation : Nat
  state : MemberState
  lastSeen : Int
  suspectSince : Option Int
  deriving DecidableEq, Repr

def nodeIdLength : Nat := 32

def maxAddressLength : Nat := 255

def isValidNodeId (nodeId : Text) : Bool :=
  (strip nodeId).length == nodeIdLength && (strip nodeId).all fun char => hexLower.contains char

/-- The code points of the zeros of every decimal script: `str.isdecimal` and `int` accept each of
them together with the nine characters after it. -/
def decimalZeros : List Nat :=
  [0x30, 0x660, 0x6f0, 0x7c0, 0x966, 0x9e6, 0xa66, 0xae6, 0xb66, 0xbe6, 0xc66, 0xce6, 0xd66, 0xde6,
    0xe50, 0xed0, 0xf20, 0x1040, 0x1090, 0x17e0, 0x1810, 0x1946, 0x19d0, 0x1a80, 0x1a90, 0x1b50,
    0x1bb0, 0x1c40, 0x1c50, 0xa620, 0xa8d0, 0xa900, 0xa9d0, 0xa9f0, 0xaa50, 0xabf0, 0xff10, 0x104a0,
    0x10d30, 0x11066, 0x110f0, 0x11136, 0x111d0, 0x112f0, 0x11450, 0x114d0, 0x11650, 0x116c0,
    0x11730, 0x118e0, 0x11950, 0x11c50, 0x11d50, 0x11da0, 0x11f50, 0x16a60, 0x16ac0, 0x16b50,
    0x1d7ce, 0x1d7d8, 0x1d7e2, 0x1d7ec, 0x1d7f6, 0x1e140, 0x1e2f0, 0x1e4f0, 0x1e950, 0x1fbf0]

def decimalValue? (char : Char) : Option Nat :=
  (decimalZeros.find? fun first => first ≤ char.toNat && char.toNat < first + 10).map fun first =>
    char.toNat - first

/-- `int(text)` for a text with `isdecimal`; `none` for every other text. -/
def parseDecimal? (text : Text) : Option Nat :=
  if text.isEmpty then none
  else text.foldl (fun number char => number.bind fun value =>
    (decimalValue? char).map fun digit => 10 * value + digit) (some 0)

/-- `text.rsplit(":", 1)` for a text with a colon. -/
def splitLastColon (text : Text) : Text × Text :=
  let port := (text.reverse.takeWhile (· != ':')).reverse
  (text.take (text.length - port.length - 1), port)

/-- The host and the port of an address, or `none` when the brackets or the colon are missing. -/
def splitAddress? (text : Text) : Option (Text × Text) :=
  if text.head? = some '[' then
    let closing := text.idxOf ']'
    if text.contains ']' = false ∨ closing ≤ 1 ∨ closing + 2 > text.length ∨
      text[closing + 1]? ≠ some ':' then none
    else some ((text.take closing).drop 1, text.drop (closing + 2))
  else if text.contains ':' then some (splitLastColon text)
  else none

def isValidAddress (address : Text) : Bool :=
  let text := strip address
  if text.isEmpty || decide (maxAddressLength < text.length) then false
  else if text.any fun char => isSpace char || decide (char.toNat < 32) then false
  else match splitAddress? text with
    | none => false
    | some (host, portText) =>
        if host.isEmpty then false
        else match parseDecimal? portText with
          | none => false
          | some port => decide (0 < port ∧ port ≤ 65535)

def isValidIncarnation (value : Nat) : Bool := decide (1 ≤ value)

def isValidState (state : MemberState) : Bool := validEventStates.contains state

def isValidMemberEvent (event : MemberEvent) : Bool :=
  isValidNodeId event.nodeId && isValidAddress event.address &&
    isValidIncarnation event.incarnation.toNat &&
    isValidState event.state

theorem state_of_isValidMemberEvent {event : MemberEvent}
    (valid : isValidMemberEvent event = true) :
    event.state ∈ validEventStates := by
  simp only [isValidMemberEvent, isValidState, Bool.and_eq_true, List.contains_eq_mem,
    decide_eq_true_eq] at valid
  exact valid.2

/-- Readings of `time.monotonic()` during one operation, in ticks of its clock. -/
structure Readings where
  observedAt : Int
  addedAt : Int
  prunedAt : Int
  deriving DecidableEq, Repr

structure GossipBuffer where
  ttl : Int
  events : List (Int × MemberEvent)

def GossipBuffer.add (gossip : GossipBuffer) (event : MemberEvent) (readings : Readings) :
    GossipBuffer :=
  if isValidMemberEvent event then
    { gossip with
      events := (gossip.events ++ [(readings.addedAt, event)]).filter fun entry =>
        readings.prunedAt - gossip.ttl ≤ entry.1 }
  else gossip

structure NodeIdentity where
  nodeId : Text
  incarnation : Nat
  deriving DecidableEq, Repr

/-- How writing the identity file ends. The file is replaced by a rename, after which only the
synchronisation of its directory can still fail. -/
inductive WriteOutcome where
  | written
  | failedBeforeRename
  | failedAfterRename
  deriving DecidableEq, Repr

/-- `load_for_startup`; `freshNodeId` is the identifier drawn when no file exists. -/
def loadForStartup (file : Option NodeIdentity) (freshNodeId : Text) : NodeIdentity :=
  match file with
  | some stored => { stored with incarnation := stored.incarnation + 1 }
  | none => { nodeId := freshNodeId, incarnation := 0 + 1 }

/-- `bump_above`: the contents of the file afterwards and the value or the error that is
returned. -/
def bumpAbove (file : Option NodeIdentity) (nodeId : Text) (observedIncarnation : Nat)
    (outcome : WriteOutcome) :
    Option NodeIdentity × Except NodeError Nat :=
  match file with
  | none => (none, .error (.nodeIdentity "No se pudo leer el archivo de identidad"))
  | some stored =>
      if (strip nodeId).isEmpty then
        (some stored, .error
          (.nodeIdentityValue "NodeIdentityStore.bump_above requiere node_id no vacío."))
      else if stored.nodeId ≠ strip nodeId then
        (some stored, .error (.nodeIdentity "node_id persistido inconsistente"))
      else
        let next := max stored.incarnation observedIncarnation + 1
        let replaced : NodeIdentity := { nodeId := strip nodeId, incarnation := next }
        match outcome with
        | .written => (some replaced, .ok next)
        | .failedBeforeRename => (some stored, .error .io)
        | .failedAfterRename => (some replaced, .error .io)

structure MembershipManager where
  nodeId : Text
  address : Text
  incarnation : Nat
  members : Dict Text MemberRecord
  gossip : GossipBuffer
  leaving : Bool
  bootstrapComplete : Bool
  nextBootstrapRetryAt : Option Int

def createManager (nodeId address : Text) (incarnation : Nat) (gossipTtl now : Int) :
    Except NodeError MembershipManager :=
  if isValidNodeId (strip nodeId) = false then .error (.membershipConfig "node_id inválido")
  else if isValidAddress (strip address) = false then
    .error (.membershipConfig "advertise_addr inválido para membership")
  else .ok {
    nodeId := strip nodeId
    address := strip address
    incarnation := max incarnation 1
    members := Dict.empty.set (strip nodeId) {
      nodeId := strip nodeId
      address := strip address
      incarnation := max incarnation 1
      state := .alive
      lastSeen := now
      suspectSince := none }
    gossip := { ttl := gossipTtl, events := [] }
    leaving := false
    bootstrapComplete := false
    nextBootstrapRetryAt := none }

def newRecordFromEvent (event : MemberEvent) (observedAt : Int) : MemberRecord where
  nodeId := event.nodeId
  address := event.address
  incarnation := event.incarnation.toNat
  state := event.state
  lastSeen := observedAt
  suspectSince := if event.state = .suspect then some observedAt else none

def applyEventToRecord (record : MemberRecord) (event : MemberEvent) (observedAt : Int)
    (replaceIncarnation : Bool) :
    MemberRecord :=
  let replaced :=
    if replaceIncarnation then { record with incarnation := event.incarnation.toNat,
                                             address := event.address }
    else record
  let changed := { replaced with state := event.state }
  match event.state with
  | .alive => { changed with lastSeen := observedAt, suspectSince := none }
  | .suspect => { changed with suspectSince := some observedAt }
  | _ => changed

def completeBootstrap (manager : MembershipManager) : MembershipManager :=
  { manager with bootstrapComplete := true, nextBootstrapRetryAt := none }

/-- What follows every change of a record: the event is gossiped, and ALIVE ends the bootstrap. -/
def storeRecord (manager : MembershipManager) (event : MemberEvent) (record : MemberRecord)
    (readings : Readings) :
    MembershipManager :=
  let stored := { manager with
    members := manager.members.set event.nodeId record
    gossip := manager.gossip.add event readings }
  if event.state = .alive then completeBootstrap stored else stored

/-- The section of `apply_event` under the members lock. -/
def applyPeerEvent (manager : MembershipManager) (event : MemberEvent) (readings : Readings) :
    MembershipManager :=
  match manager.members.get? event.nodeId with
  | none => storeRecord manager event (newRecordFromEvent event readings.observedAt) readings
  | some current =>
      if current.incarnation < event.incarnation.toNat then
        storeRecord manager event
          (applyEventToRecord current event readings.observedAt true) readings
      else if event.incarnation.toNat < current.incarnation then manager
      else if stateOrder current.state < stateOrder event.state then
        storeRecord manager event
          (applyEventToRecord current event readings.observedAt false) readings
      else manager

/-- `_member_event` about the local node; a number that does not fit the message raises. -/
def ownEvent (manager : MembershipManager) (incarnation : Nat) (state : MemberState) :
    Except NodeError MemberEvent :=
  if incarnation < 2 ^ 64 then
    .ok { nodeId := manager.nodeId, address := manager.address,
          incarnation := .ofNat incarnation, state }
  else .error (.value "Value out of range")

/-- The section of `_announce_alive` and `_announce_left` under the members lock, which stores the
incarnation it has read. -/
def writeOwnRecord (manager : MembershipManager) (incarnation : Nat)
    (state : MemberState) (now : Int) :
    MembershipManager :=
  { manager with
    members := manager.members.adjust manager.nodeId fun record =>
      { record with incarnation, state, address := manager.address, lastSeen := now,
                    suspectSince := none } }

/-- An event about the local node that its handler goes on to compare with the incarnation. -/
def concernsSelf (manager : MembershipManager) (event : MemberEvent) : Bool :=
  (event.address.isEmpty || decide (event.address = manager.address)) &&
    (decide (event.state = .suspect) || decide (event.state = .dead))

/-- `_announce_alive` when no other thread interrupts it: the manager as it is left, with the
exception that stopped the announcement. -/
def announceAlive (manager : MembershipManager) (readings : Readings) :
    MembershipManager × Option NodeError :=
  if manager.leaving then (manager, none)
  else match ownEvent manager manager.incarnation .alive with
    | .error reason => (manager, some reason)
    | .ok event =>
        let recorded := writeOwnRecord manager manager.incarnation .alive readings.observedAt
        ({ recorded with gossip := recorded.gossip.add event readings }, none)

/-- The identity file and the manager after an operation that may have raised. -/
structure Handled where
  file : Option NodeIdentity
  manager : MembershipManager
  raised : Option NodeError

/-- `_handle_self_event` when no other thread interrupts it. -/
def handleSelfEvent (file : Option NodeIdentity) (manager : MembershipManager) (event : MemberEvent)
    (outcome : WriteOutcome) (readings : Readings) : Handled :=
  if manager.leaving || !concernsSelf manager event then { file, manager, raised := none }
  else if event.incarnation.toNat < manager.incarnation then { file, manager, raised := none }
  else match bumpAbove file manager.nodeId event.incarnation.toNat outcome with
    | (after, .error reason) => { file := after, manager, raised := some reason }
    | (after, .ok incarnation) =>
        let announced := announceAlive { manager with incarnation } readings
        { file := after, manager := announced.1, raised := announced.2 }

def applyEvent (file : Option NodeIdentity) (manager : MembershipManager) (event : MemberEvent)
    (outcome : WriteOutcome) (readings : Readings) : Handled :=
  if isValidMemberEvent event = false then { file, manager, raised := none }
  else if event.nodeId = manager.nodeId then handleSelfEvent file manager event outcome readings
  else { file, manager := applyPeerEvent manager event readings, raised := none }

end Stopan.Membership
