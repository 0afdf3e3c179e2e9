import Stopan.Lib.Runs
import Stopan.Common.Basic

/-!
Draining a node: the controller that counts the admitted work, the data calls that it admits and the
connections of the local control socket (`stopan/node/lifecycle.py`).

Threads interleave between the regions that they hold a lock for. The condition of the controller is
one lock and each admitted call has a lock of its own for its `released` flag, so releasing a call
takes two steps, between which anything else can happen.
-/

namespace Stopan.Node

open Stopan.Lib Stopan.Common

structure NodeDrainController where
  draining : Bool
  stopped : Bool
  activeLocalOperations : Int
  activeRpcs : Int
  deriving DecidableEq, Repr

namespace NodeDrainController

def create : NodeDrainController where
  draining := false
  stopped := false
  activeLocalOperations := 0
  activeRpcs := 0

/-- Whether this is the first request, and the controller after it. -/
def requestDraining (controller : NodeDrainController) : Bool × NodeDrainController :=
  (!controller.draining, { controller with draining := true })

def tryBeginLocalOperation (controller : NodeDrainController) : Bool × NodeDrainController :=
  if controller.draining then (false, controller)
  else (true, { controller with activeLocalOperations := controller.activeLocalOperations + 1 })

def endLocalOperation (controller : NodeDrainController) : Except StopanError NodeDrainController :=
  if controller.activeLocalOperations ≤ 0 then
    .error (.runtime "contador de operaciones locales incoherente")
  else .ok { controller with activeLocalOperations := controller.activeLocalOperations - 1 }

/-- The region of `admit_rpc` that holds the condition: whether the call is rejected. -/
def admitRpc (controller : NodeDrainController) : Bool × NodeDrainController :=
  if controller.draining then (true, controller)
  else (false, { controller with activeRpcs := controller.activeRpcs + 1 })

/-- The region of `release` that holds the condition. -/
def releaseRpc (controller : NodeDrainController) : Except StopanError NodeDrainController :=
  if controller.activeRpcs ≤ 0 then .error (.runtime "contador de RPC activas incoherente")
  else .ok { controller with activeRpcs := controller.activeRpcs - 1 }

/-- The loop of `wait_for_idle` is left with the lock held, when this is true. -/
def idle (controller : NodeDrainController) : Bool :=
  controller.activeLocalOperations == 0 && controller.activeRpcs == 0

def markStopped (controller : NodeDrainController) : NodeDrainController :=
  { controller with stopped := true }

end NodeDrainController

/-- What `context.add_callback` does with `release`: it keeps it, it answers that the call is
already over, or it raises. After the last two `admit_rpc` runs `release` itself and ends the
call. -/
inductive Registration where
  | registered
  | alreadyOver
  | raised
  deriving DecidableEq, Repr

/-- An admitted call. One invocation of `release` at most gets past the flag, and has then still to
lower the counter. -/
structure RpcCall where
  registration : Option Registration
  released : Bool
  lowering : Bool
  deriving DecidableEq, Repr

def RpcCall.admitted : RpcCall where
  registration := none
  released := false
  lowering := false

/-- The call is admitted and its release is not complete. -/
def RpcCall.unfinished (call : RpcCall) : Bool := !call.released || call.lowering

inductive ControlCommand where
  | begin
  | stop
  | other
  deriving DecidableEq, Repr

/-- The line of a client, split at its tabs. The Unicode table behind `str.isdigit` is a
parameter. -/
def ControlCommand.parse (isDigit : Char → Bool) (line : Text) : ControlCommand :=
  match line.splitOn '\t' with
  | [command, pid, operation] =>
      if command = "BEGIN".toList ∧ pid ≠ [] ∧ pid.all isDigit ∧
        operation ≠ [] then .begin else .other
  | [command, pid] => if command = "STOP".toList ∧ pid ≠ [] ∧ pid.all isDigit then .stop else .other
  | _ => .other

/-- A thread in `_handle_connection`: it has still to act on its line, or it is past that, or it is
out of its `finally` block. -/
inductive ConnectionPhase where
  | receiving
  | handled
  | closed
  deriving DecidableEq, Repr

structure Connection where
  phase : ConnectionPhase
  localOperationRegistered : Bool
  deriving DecidableEq, Repr

def Connection.opened : Connection where
  phase := .receiving
  localOperationRegistered := false

/-- The connection holds a local operation that it has not ended. -/
def Connection.unfinished (connection : Connection) : Bool :=
  connection.localOperationRegistered && connection.phase ≠ .closed

structure DrainSystem where
  controller : NodeDrainController
  calls : List RpcCall
  connections : List Connection
  /-- What `end_local_operation` and `release` have raised. -/
  failures : List StopanError

def DrainSystem.initial : DrainSystem where
  controller := .create
  calls := []
  connections := []
  failures := []

inductive DrainEvent where
  /-- A new data call enters `admit_rpc`. -/
  | admitRpc
  | addCallback (call : Nat) (answer : Registration)
  /-- Somebody invokes `release`, up to the end of its first region. -/
  | enterRelease (call : Nat)
  /-- The invocation that has set the flag goes through the second region. -/
  | leaveRelease (call : Nat)
  | acceptConnection
  | receiveLine (connection : Nat) (line : Text)
  /-- The connection ends, in order or through an exception, and runs its `finally` block. -/
  | closeConnection (connection : Nat)
  | requestDraining
  /-- A `wait_for_idle` returns. -/
  | waitForIdle
  | markStopped
  deriving DecidableEq, Repr

namespace DrainSystem

def enterRelease (system : DrainSystem) (index : Nat) (call : RpcCall) : DrainSystem :=
  if call.released then system
  else { system with calls := system.calls.set index { call with released := true,
                                                                 lowering := true } }

def leaveRelease (system : DrainSystem) (index : Nat) (call : RpcCall) : DrainSystem :=
  let calls := system.calls.set index { call with lowering := false }
  match system.controller.releaseRpc with
  | .error error => { system with calls, failures := system.failures ++ [error] }
  | .ok controller => { system with controller, calls }

def receiveLine (isDigit : Char → Bool) (system : DrainSystem) (index : Nat)
    (line : Text) : DrainSystem :=
  match ControlCommand.parse isDigit line with
  | .begin =>
      match system.controller.tryBeginLocalOperation with
      | (begun, controller) =>
          { system with
            controller
            connections := system.connections.set index
              { phase := .handled, localOperationRegistered := begun } }
  | .stop =>
      { system with
        controller := system.controller.requestDraining.2
        connections :=
          system.connections.set index { phase := .handled, localOperationRegistered := false } }
  | .other =>
      { system with
        connections :=
          system.connections.set index { phase := .handled, localOperationRegistered := false } }

/-- The `finally` block of `_handle_connection`. -/
def closeConnection (system : DrainSystem) (index : Nat) (connection : Connection) : DrainSystem :=
  let connections := system.connections.set index { connection with phase := .closed }
  if connection.localOperationRegistered then
    match system.controller.endLocalOperation with
    | .error error => { system with connections, failures := system.failures ++ [error] }
    | .ok controller => { system with controller, connections }
  else { system with connections }

/-- One region of one thread; `none` when no thread is at that point. -/
def step (isDigit : Char → Bool) (system : DrainSystem) : DrainEvent → Option DrainSystem
  | .admitRpc =>
      match system.controller.admitRpc with
      | (true, _) => some system
      | (false, controller) => some { system with controller, calls := system.calls ++ [.admitted] }
  | .addCallback index answer => do
      let call ← system.calls[index]?
      guard (call.registration = none)
      return { system with
        calls := system.calls.set index { call with registration := some answer } }
  | .enterRelease index => do
      let call ← system.calls[index]?
      return system.enterRelease index call
  | .leaveRelease index => do
      let call ← system.calls[index]?
      guard (call.lowering = true)
      return system.leaveRelease index call
  | .acceptConnection => some { system with connections := system.connections ++ [.opened] }
  | .receiveLine index line => do
      let connection ← system.connections[index]?
      guard (connection.phase = .receiving)
      return system.receiveLine isDigit index line
  | .closeConnection index => do
      let connection ← system.connections[index]?
      guard (connection.phase ≠ .closed)
      return system.closeConnection index connection
  | .requestDraining => some { system with controller := system.controller.requestDraining.2 }
  | .waitForIdle => do
      guard (system.controller.idle = true)
      return system
  | .markStopped => some { system with controller := system.controller.markStopped }

def unfinishedRpcs (system : DrainSystem) : Nat := system.calls.countP RpcCall.unfinished

def unfinishedLocalOperations (system : DrainSystem) : Nat :=
  system.connections.countP Connection.unfinished

/-- How many data calls and local operations have ever been admitted. -/
def admittedWork (system : DrainSystem) : Nat :=
  system.calls.length + system.connections.countP Connection.localOperationRegistered

variable {isDigit : Char → Bool} {system after : DrainSystem}

/-- Replacing one entry moves a count by what the old and the new entry count for. -/
theorem countP_set_eq {α : Type} {items : List α} {index : Nat} {old : α}
    (counts : α → Bool) (new : α) (found : items[index]? = some old) :
    ((items.set index new).countP counts : Int) =
      items.countP counts - (if counts old then 1 else 0) + (if counts new then 1 else 0) := by
  induction items generalizing index with
  | nil => simp at found
  | cons item rest ih =>
      cases index with
      | zero =>
          cases found
          rw [List.set_cons_zero, List.countP_cons, List.countP_cons]
          push_cast
          omega
      | succ index =>
          have later := ih found
          rw [List.set_cons_succ, List.countP_cons, List.countP_cons]
          push_cast
          omega

/-- The counters are the unfinished work; nothing has gone wrong; a flag is set before the counter
is lowered and a connection that has not got its line holds no operation. -/
structure Accounted (system : DrainSystem) : Prop where
  rpcs : system.controller.activeRpcs = system.unfinishedRpcs
  locals : system.controller.activeLocalOperations = system.unfinishedLocalOperations
  sound : system.failures = []
  flagged : ∀ call ∈ system.calls, call.lowering = true → call.released = true
  fresh : ∀ connection ∈ system.connections, connection.phase = .receiving →
    connection.localOperationRegistered = false

theorem accounted_initial : initial.Accounted where
  rpcs := rfl
  locals := rfl
  sound := rfl
  flagged := by simp [initial]
  fresh := by simp [initial]

theorem Accounted.flagged_set (accounted : system.Accounted) {index : Nat} {call : RpcCall}
    (kept : call.lowering = true → call.released = true) :
    ∀ other ∈ system.calls.set index call, other.lowering = true → other.released = true := by
  intro other member
  rcases List.mem_or_eq_of_mem_set member with earlier | rfl
  · exact accounted.flagged other earlier
  · exact kept

theorem Accounted.fresh_set (accounted : system.Accounted) {index : Nat} {connection : Connection}
    (past : connection.phase ≠ .receiving) :
    ∀ other ∈ system.connections.set index connection, other.phase = .receiving →
      other.localOperationRegistered = false := by
  intro other member receiving
  rcases List.mem_or_eq_of_mem_set member with earlier | rfl
  · exact accounted.fresh other earlier receiving
  · exact absurd receiving past

theorem Accounted.enterRelease (accounted : system.Accounted) {index : Nat} {call : RpcCall}
    (found : system.calls[index]? = some call) : (system.enterRelease index call).Accounted := by
  unfold DrainSystem.enterRelease
  split
  · exact accounted
  · rename_i unreleased
    refine { accounted with rpcs := ?_, flagged := accounted.flagged_set fun _ => rfl }
    -- the call counts before its flag is set, and still does until the counter is lowered
    have count :=
      countP_set_eq RpcCall.unfinished { call with released := true, lowering := true } found
    have rpcs := accounted.rpcs
    simp only [unfinishedRpcs] at rpcs ⊢
    simp only [RpcCall.unfinished, unreleased, Bool.not_true, Bool.false_or, Bool.not_false,
      Bool.true_or, if_true] at count
    omega

theorem Accounted.leaveRelease (accounted : system.Accounted) {index : Nat} {call : RpcCall}
    (found : system.calls[index]? = some call) (lowering : call.lowering = true) :
    (system.leaveRelease index call).Accounted := by
  have released := accounted.flagged call (List.mem_of_getElem? found) lowering
  have counted : RpcCall.unfinished call = true := by simp [RpcCall.unfinished, lowering]
  have positive : 0 < system.unfinishedRpcs :=
    List.countP_pos_iff.mpr ⟨call, List.mem_of_getElem? found, counted⟩
  have count := countP_set_eq RpcCall.unfinished { call with lowering := false } found
  have finished : RpcCall.unfinished { call with lowering := false } = false := by
    simp [RpcCall.unfinished, released]
  have rpcs := accounted.rpcs
  simp only [DrainSystem.leaveRelease, NodeDrainController.releaseRpc]
  rw [if_neg (by omega)]
  refine { accounted with rpcs := ?_,
                          flagged := accounted.flagged_set fun raised => by cases raised }
  rw [counted, finished, if_pos rfl, if_neg (by decide)] at count
  simp only [unfinishedRpcs] at rpcs ⊢
  omega

theorem Accounted.setConnection (accounted : system.Accounted) {index : Nat} {old new : Connection}
    {controller : NodeDrainController} (found : system.connections[index]? = some old)
    (past : new.phase ≠ .receiving) (rpcs : controller.activeRpcs = system.controller.activeRpcs)
    (moved : controller.activeLocalOperations = system.controller.activeLocalOperations -
      (if old.unfinished then 1 else 0) + (if new.unfinished then 1 else 0)) :
    Accounted { system with controller, connections := system.connections.set index new } where
  rpcs := rpcs.trans accounted.rpcs
  locals := by
    have count := countP_set_eq Connection.unfinished new found
    have locals := accounted.locals
    simp only [unfinishedLocalOperations] at locals ⊢
    omega
  sound := accounted.sound
  flagged := accounted.flagged
  fresh := accounted.fresh_set past

theorem Accounted.receiveLine (accounted : system.Accounted) {index : Nat}
    {connection : Connection} (line : Text) (found : system.connections[index]? = some connection)
    (receiving : connection.phase = .receiving) :
    (system.receiveLine isDigit index line).Accounted := by
  have unregistered := accounted.fresh connection (List.mem_of_getElem? found) receiving
  unfold DrainSystem.receiveLine
  cases ControlCommand.parse isDigit line with
  | begin =>
      dsimp only [NodeDrainController.tryBeginLocalOperation]
      split
      · exact accounted.setConnection found
          (by simp) rfl (by simp [Connection.unfinished, unregistered])
      · exact accounted.setConnection found
          (by simp) rfl (by simp [Connection.unfinished, unregistered])
  | stop =>
      exact accounted.setConnection found (by simp) rfl
        (by simp [Connection.unfinished, unregistered, NodeDrainController.requestDraining])
  | other =>
      exact accounted.setConnection found
        (by simp) rfl (by simp [Connection.unfinished, unregistered])

theorem Accounted.closeConnection (accounted : system.Accounted) {index : Nat}
    {connection : Connection}
    (found : system.connections[index]? = some connection) (unclosed : connection.phase ≠ .closed) :
    (system.closeConnection index connection).Accounted := by
  unfold DrainSystem.closeConnection
  cases registered : connection.localOperationRegistered with
  | false =>
      rw [if_neg (by decide)]
      exact accounted.setConnection found
        (by simp) rfl (by simp [Connection.unfinished, registered])
  | true =>
      have counted : connection.unfinished = true := by
        simp [Connection.unfinished, registered, unclosed]
      have positive : 0 < system.unfinishedLocalOperations :=
        List.countP_pos_iff.mpr ⟨connection, List.mem_of_getElem? found, counted⟩
      have locals := accounted.locals
      simp only [NodeDrainController.endLocalOperation, if_true]
      rw [if_neg (by omega)]
      exact accounted.setConnection found
        (by simp) rfl (by simp [Connection.unfinished, registered, unclosed])

/-- Every region of every thread keeps the counters exact. -/
theorem Accounted.step (accounted : system.Accounted) {event : DrainEvent}
    (stepped : system.step isDigit event = some after) : after.Accounted := by
  cases event with
  | admitRpc =>
      simp only [DrainSystem.step, NodeDrainController.admitRpc] at stepped
      split at stepped
      · cases stepped
        exact accounted
      · rename_i rejected controller answer
        split at answer
        · cases answer
        · cases answer
          cases stepped
          refine { accounted with rpcs := ?_, flagged := ?_ }
          · have rpcs := accounted.rpcs
            simp only [unfinishedRpcs, List.countP_append] at rpcs ⊢
            rw [rpcs]
            rfl
          · intro call member
            rcases List.mem_append.mp member with earlier | new
            · exact accounted.flagged call earlier
            · rw [List.mem_singleton.mp new]
              intro lowering
              cases lowering
  | addCallback index answer =>
      simp only [DrainSystem.step, Option.bind_eq_bind, Option.bind_eq_some_iff,
        Option.guard_eq_some'] at stepped
      obtain ⟨call, found, -, -, equal⟩ := stepped
      cases equal
      refine { accounted with
        rpcs := ?_
        flagged := accounted.flagged_set (accounted.flagged call (List.mem_of_getElem? found)) }
      have count := countP_set_eq RpcCall.unfinished { call with registration := some answer } found
      have same : RpcCall.unfinished { call with registration := some answer } = call.unfinished :=
        rfl
      have rpcs := accounted.rpcs
      simp only [unfinishedRpcs] at rpcs ⊢
      rw [same] at count
      omega
  | enterRelease index =>
      simp only [DrainSystem.step, Option.bind_eq_bind, Option.bind_eq_some_iff] at stepped
      obtain ⟨call, found, equal⟩ := stepped
      cases equal
      exact accounted.enterRelease found
  | leaveRelease index =>
      simp only [DrainSystem.step, Option.bind_eq_bind, Option.bind_eq_some_iff,
        Option.guard_eq_some'] at stepped
      obtain ⟨call, found, -, lowering, equal⟩ := stepped
      cases equal
      exact accounted.leaveRelease found lowering
  | acceptConnection =>
      cases stepped
      refine { accounted with locals := ?_, fresh := ?_ }
      · have locals := accounted.locals
        simp only [unfinishedLocalOperations, List.countP_append] at locals ⊢
        rw [locals]
        rfl
      · intro connection member
        rcases List.mem_append.mp member with earlier | new
        · exact accounted.fresh connection earlier
        · rw [List.mem_singleton.mp new]
          intro _
          rfl
  | receiveLine index line =>
      simp only [DrainSystem.step, Option.bind_eq_bind, Option.bind_eq_some_iff,
        Option.guard_eq_some'] at stepped
      obtain ⟨connection, found, -, receiving, equal⟩ := stepped
      cases equal
      exact accounted.receiveLine line found receiving
  | closeConnection index =>
      simp only [DrainSystem.step, Option.bind_eq_bind, Option.bind_eq_some_iff,
        Option.guard_eq_some'] at stepped
      obtain ⟨connection, found, -, unclosed, equal⟩ := stepped
      cases equal
      exact accounted.closeConnection found unclosed
  | requestDraining =>
      cases stepped
      exact { accounted with }
  | waitForIdle =>
      simp only [DrainSystem.step, Option.bind_eq_bind, Option.bind_eq_some_iff,
        Option.guard_eq_some'] at stepped
      obtain ⟨-, -, equal⟩ := stepped
      cases equal
      exact accounted
  | markStopped =>
      cases stepped
      exact { accounted with }

/-- The events in which `request_draining` runs. -/
def requestsDraining (isDigit : Char → Bool) : DrainEvent → Bool
  | .requestDraining => true
  | .receiveLine _ line => ControlCommand.parse isDigit line = .stop
  | _ => false

theorem draining_of_request {event : DrainEvent} (requests : requestsDraining isDigit event = true)
    (stepped : system.step isDigit event = some after) : after.controller.draining = true := by
  cases event with
  | requestDraining =>
      cases stepped
      rfl
  | receiveLine index line =>
      simp only [step, Option.bind_eq_bind, Option.bind_eq_some_iff,
        Option.guard_eq_some'] at stepped
      obtain ⟨connection, -, -, -, equal⟩ := stepped
      cases equal
      simp only [requestsDraining, decide_eq_true_eq] at requests
      rw [receiveLine, requests]
      rfl
  | _ => cases requests

/-- What a draining node still does: its counters go down only, and nothing is admitted. -/
structure Closing (system after : DrainSystem) : Prop where
  draining : after.controller.draining = true
  rpcs : after.controller.activeRpcs ≤ system.controller.activeRpcs
  locals : after.controller.activeLocalOperations ≤ system.controller.activeLocalOperations
  admitted : after.admittedWork = system.admittedWork

theorem Closing.refl (draining : system.controller.draining = true) : Closing system system where
  draining := draining
  rpcs := le_rfl
  locals := le_rfl
  admitted := rfl

/-- An admission flag that does not change leaves the amount of admitted work alone. -/
theorem admittedWork_set_connection {index : Nat} {old new : Connection}
    {controller : NodeDrainController}
    {failures : List StopanError} (found : system.connections[index]? = some old)
    (same : new.localOperationRegistered = old.localOperationRegistered) :
    admittedWork { system with controller, connections := system.connections.set index new,
                               failures } =
      system.admittedWork := by
  have count := countP_set_eq Connection.localOperationRegistered new found
  rw [same] at count
  simp only [admittedWork]
  omega

theorem admittedWork_set_call {index : Nat} {call : RpcCall} {controller : NodeDrainController}
    {failures : List StopanError} :
    admittedWork { system with controller, calls := system.calls.set index call, failures } =
      system.admittedWork := by
  simp only [admittedWork, List.length_set]

theorem closing_receiveLine (accounted : system.Accounted)
    (draining : system.controller.draining = true) {index : Nat} {connection : Connection}
    (line : Text) (found : system.connections[index]? = some connection)
    (receiving : connection.phase = .receiving) :
    Closing system (system.receiveLine isDigit index line) := by
  have unregistered := accounted.fresh connection (List.mem_of_getElem? found) receiving
  unfold receiveLine
  cases ControlCommand.parse isDigit line with
  | begin =>
      rw [NodeDrainController.tryBeginLocalOperation, if_pos draining]
      exact ⟨draining, le_rfl, le_rfl, admittedWork_set_connection found unregistered.symm⟩
  | stop => exact ⟨rfl, le_rfl, le_rfl, admittedWork_set_connection found unregistered.symm⟩
  | other => exact ⟨draining, le_rfl, le_rfl, admittedWork_set_connection found unregistered.symm⟩

theorem closing_closeConnection (draining : system.controller.draining = true) {index : Nat}
    {connection : Connection} (found : system.connections[index]? = some connection) :
    Closing system (system.closeConnection index connection) := by
  unfold closeConnection
  split
  · unfold NodeDrainController.endLocalOperation
    split
    · rename_i error answer
      exact ⟨draining, le_rfl, le_rfl, admittedWork_set_connection found rfl⟩
    · rename_i controller answer
      split at answer
      · cases answer
      · cases answer
        refine ⟨draining, le_rfl, ?_, admittedWork_set_connection found rfl⟩
        dsimp only
        omega
  · exact ⟨draining, le_rfl, le_rfl, admittedWork_set_connection found rfl⟩

theorem closing_leaveRelease (draining : system.controller.draining = true)
    (index : Nat) (call : RpcCall) :
    Closing system (system.leaveRelease index call) := by
  unfold leaveRelease NodeDrainController.releaseRpc
  dsimp only
  split
  · exact ⟨draining, le_rfl, le_rfl, admittedWork_set_call⟩
  · rename_i controller answer
    split at answer
    · cases answer
    · cases answer
      refine ⟨draining, ?_, le_rfl, admittedWork_set_call⟩
      dsimp only
      omega

theorem closing_step (accounted : system.Accounted) (draining : system.controller.draining = true)
    {event : DrainEvent}
    (stepped : system.step isDigit event = some after) : Closing system after := by
  cases event with
  | admitRpc =>
      rw [step, NodeDrainController.admitRpc, if_pos draining] at stepped
      cases stepped
      exact .refl draining
  | addCallback index answer =>
      simp only [step, Option.bind_eq_bind, Option.bind_eq_some_iff] at stepped
      obtain ⟨call, -, -, -, equal⟩ := stepped
      cases equal
      exact ⟨draining, le_rfl, le_rfl, admittedWork_set_call⟩
  | enterRelease index =>
      simp only [step, Option.bind_eq_bind, Option.bind_eq_some_iff] at stepped
      obtain ⟨call, -, equal⟩ := stepped
      cases equal
      unfold enterRelease
      split
      · exact .refl draining
      · exact ⟨draining, le_rfl, le_rfl, admittedWork_set_call⟩
  | leaveRelease index =>
      simp only [step, Option.bind_eq_bind, Option.bind_eq_some_iff] at stepped
      obtain ⟨call, -, -, -, equal⟩ := stepped
      cases equal
      exact closing_leaveRelease draining index call
  | acceptConnection =>
      cases stepped
      refine ⟨draining, le_rfl, le_rfl, ?_⟩
      simp [admittedWork, Connection.opened]
  | receiveLine index line =>
      simp only [step, Option.bind_eq_bind, Option.bind_eq_some_iff,
        Option.guard_eq_some'] at stepped
      obtain ⟨connection, found, -, receiving, equal⟩ := stepped
      cases equal
      exact closing_receiveLine accounted draining line found receiving
  | closeConnection index =>
      simp only [step, Option.bind_eq_bind, Option.bind_eq_some_iff] at stepped
      obtain ⟨connection, found, -, -, equal⟩ := stepped
      cases equal
      exact closing_closeConnection draining found
  | requestDraining =>
      cases stepped
      exact ⟨rfl, le_rfl, le_rfl, rfl⟩
  | waitForIdle =>
      simp only [step, Option.bind_eq_bind, Option.bind_eq_some_iff] at stepped
      obtain ⟨-, -, equal⟩ := stepped
      cases equal
      exact .refl draining
  | markStopped =>
      cases stepped
      exact ⟨draining, le_rfl, le_rfl, rfl⟩

theorem accounted_run {events : List DrainEvent} (accounted : system.Accounted)
    (ran : runEvents (step isDigit) system events = some after) : after.Accounted :=
  runEvents_preserves Accounted (fun _ _ _ holds stepped => holds.step stepped) accounted ran

theorem closing_run {events : List DrainEvent} (accounted : system.Accounted)
    (draining : system.controller.draining = true)
    (ran : runEvents (step isDigit) system events = some after) :
    Closing system after := by
  have both : after.Accounted ∧ Closing system after := by
    apply runEvents_preserves (fun reached => reached.Accounted ∧ Closing system reached) ?_
      ⟨accounted, .refl draining⟩ ran
    rintro reached event next ⟨counted, closing⟩ stepped
    have onward := closing_step counted closing.draining stepped
    exact ⟨counted.step stepped, onward.draining, onward.rpcs.trans closing.rpcs,
      onward.locals.trans closing.locals, onward.admitted.trans closing.admitted⟩
  exact both.2

theorem Accounted.unfinished_of_idle (accounted : system.Accounted)
    (rpcs : system.controller.activeRpcs ≤ 0)
    (locals : system.controller.activeLocalOperations ≤ 0) :
    system.controller.idle = true ∧ system.unfinishedRpcs = 0 ∧
      system.unfinishedLocalOperations = 0 := by
  have exactRpcs := accounted.rpcs
  have exactLocals := accounted.locals
  refine ⟨?_, by omega, by omega⟩
  simp only [NodeDrainController.idle, Bool.and_eq_true, beq_iff_eq]
  omega

end DrainSystem

open DrainSystem

/-- Whatever the threads do: the counters are the unfinished work, nothing is admitted after a
request to drain, and a node that is found idle after one stays idle. -/
theorem drain_isSafe (isDigit : Char → Bool) (events : List DrainEvent) (reached : DrainSystem)
    (ran : runEvents (step isDigit) initial events = some reached) :
    (reached.controller.activeRpcs = reached.unfinishedRpcs ∧
      reached.controller.activeLocalOperations = reached.unfinishedLocalOperations ∧
      0 ≤ reached.controller.activeRpcs ∧ 0 ≤ reached.controller.activeLocalOperations ∧
        reached.failures = []) ∧
    (∀ earlier request later requested, events = earlier ++ request :: later →
      requestsDraining isDigit request = true →
      runEvents (step isDigit) initial (earlier ++ [request]) = some requested →
      reached.admittedWork = requested.admittedWork) ∧
    ∀ earlier request between later, events = earlier ++
      request :: (between ++ .waitForIdle :: later) → requestsDraining isDigit request = true →
      reached.controller.idle = true ∧ reached.unfinishedRpcs = 0 ∧
        reached.unfinishedLocalOperations = 0 := by
  have accounted := accounted_run accounted_initial ran
  have rpcs := accounted.rpcs
  have locals := accounted.locals
  refine ⟨⟨rpcs, locals, by omega, by omega, accounted.sound⟩, ?_, ?_⟩
  · intro earlier request later requested split requests first
    rw [split, ← List.singleton_append, ← List.append_assoc, runEvents_append, first] at ran
    have counted := accounted_run accounted_initial first
    rw [runEvents_append, Option.bind_eq_some_iff] at first
    obtain ⟨before, -, last⟩ := first
    obtain ⟨next, stepped, finished⟩ := runEvents_cons last
    cases finished
    exact (closing_run counted (draining_of_request requests stepped) ran).admitted
  · intro earlier request between later split requests
    rw [split, runEvents_append, Option.bind_eq_some_iff] at ran
    obtain ⟨before, first, rest⟩ := ran
    obtain ⟨requested, stepped, onward⟩ := runEvents_cons rest
    rw [runEvents_append, Option.bind_eq_some_iff] at onward
    obtain ⟨waiting, drained, returned⟩ := onward
    obtain ⟨idle, waited, final⟩ := runEvents_cons returned
    have counted := (accounted_run accounted_initial first).step stepped
    have closing := closing_run counted (draining_of_request requests stepped) drained
    have countedWaiting := accounted_run counted drained
    simp only [step, Option.bind_eq_bind, Option.bind_eq_some_iff, Option.guard_eq_some'] at waited
    obtain ⟨-, empty, equal⟩ := waited
    cases equal
    simp only [NodeDrainController.idle, Bool.and_eq_true, beq_iff_eq] at empty
    have closed := closing_run countedWaiting closing.draining final
    exact accounted.unfinished_of_idle (closed.rpcs.trans empty.2.le)
      (closed.locals.trans empty.1.le)

/-- A call is released twice, and another one comes too late. -/
def drainedRun : List DrainEvent :=
  [.admitRpc, .addCallback 0 .registered, .requestDraining, .admitRpc, .enterRelease 0,
    .enterRelease 0, .leaveRelease 0,
    .waitForIdle, .acceptConnection, .receiveLine 0 "BEGIN\t7\tbackup".toList, .closeConnection 0]

theorem drainedRun_staysIdle :
    ∃ reached, runEvents (step Char.isDigit) initial drainedRun = some reached ∧
      reached.controller.idle = true := by
  obtain ⟨reached, ran⟩ : ∃ reached, runEvents (step Char.isDigit) initial drainedRun =
    some reached := ⟨_, rfl⟩
  have safe := drain_isSafe Char.isDigit drainedRun reached ran
  exact ⟨reached, ran, (safe.2.2 [.admitRpc, .addCallback 0 .registered] .requestDraining
    [.admitRpc, .enterRelease 0, .enterRelease 0, .leaveRelease 0] _ rfl rfl).1⟩

end Stopan.Node
