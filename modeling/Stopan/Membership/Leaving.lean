import Stopan.Membership.OwnIncarnation

namespace Stopan.Membership

open Stopan.Lib Stopan.Common

/-- The state that a thread has still to write into the own record. -/
def Phase.stores : Phase → Option MemberState
  | .buildEvent state => some state
  | .lockMembers announcement | .storeRecord announcement _ => some announcement.event.state
  | _ => none

/-- The state that a thread has written into the own record and has still to gossip. -/
def Phase.gossips : Phase → Option MemberState
  | .addGossip announcement => some announcement.event.state
  | _ => none

def Phase.announcesLeft (phase : Phase) : Prop := phase.stores = some .left ∨
    phase.gossips = some .left

/-- LEFT is written into the own record while no handler has ALIVE still to write, and LEFT is
gossiped while no handler has ALIVE still to gossip. -/
def departsAlone (node : OwnNode) : OwnEvent → Bool
  | .advance thread _ _ =>
      match node.threads.get? thread with
      | some (.storeRecord announcement _) =>
          decide (announcement.event.state = .left →
            ∀ other ∈ node.threads.values, other.stores ≠ some .alive)
      | some (.addGossip announcement) =>
          decide (announcement.event.state = .left →
            ∀ other ∈ node.threads.values, other.gossips ≠ some .alive)
      | _ => true
  | _ => true

def OwnEvent.isRestart : OwnEvent → Bool
  | .restart .. => true
  | _ => false

def OwnNode.HasLeft (node : OwnNode) : Prop := ∃ record, node.ownRecord? = some record ∧
    record.state = .left

/-- From the end of `_announce_left` on, for as long as the process lives, the own record is LEFT
and no ALIVE event about the node is added to the gossip. -/
def LeftIsFinal (start : OwnNode) (events : List OwnEvent) : Prop :=
  ∀ earlier thread outcome readings later rest,
    events = earlier ++ (.advance thread outcome readings :: later) ++ rest →
    (∀ event ∈ later, event.isRestart = false) → ∀ before announcement after final,
    runEvents ownStep start earlier = some before →
    before.threads.get? thread = some (.addGossip announcement) → announcement.event.state = .left →
    ownStep before (.advance thread outcome readings) = some after →
      runEvents ownStep after later = some final →
      final.HasLeft ∧ ∃ more, final.announced = after.announced ++ more ∧
        ∀ added ∈ more, added.event.state ≠ .alive

structure Departing (node : OwnNode) : Prop where
  own : ∃ record, node.ownRecord? = some record
  states : ∀ thread phase state, node.threads.get? thread = some phase →
    phase.stores = some state ∨ phase.gossips = some state → state = .alive ∨ state = .left
  flagged : ∀ thread phase, node.threads.get? thread = some phase → phase.announcesLeft →
    node.manager.leaving = true
  single : ∀ first second firstPhase secondPhase, node.threads.get? first = some firstPhase →
    node.threads.get? second = some secondPhase → firstPhase.announcesLeft →
      secondPhase.announcesLeft → first = second
  written : ∀ thread phase, node.threads.get? thread = some phase → phase.gossips = some .left →
    node.HasLeft ∧ ∀ other waiting, node.threads.get? other = some waiting →
      waiting.stores ≠ some .alive

/-- `_announce_left` has completed and no handler is still in `_announce_alive`. -/
structure Departed (node : OwnNode) : Prop where
  leaving : node.manager.leaving = true
  left : node.HasLeft
  quiet : ∀ thread phase, node.threads.get? thread = some phase → phase.stores = none ∧
    phase.gossips = none

section Steps

variable {node after : OwnNode} {thread : Nat} {next : Phase}

/-- A step that only ends threads, the own record and the flag apart. -/
theorem Departing.shrink (departing : Departing node)
    (threads : ∀ other phase, after.threads.get? other = some phase →
      node.threads.get? other = some phase)
    (leaving : after.manager.leaving = node.manager.leaving)
    (own : after.ownRecord? = node.ownRecord?) :
    Departing after where
  own := own ▸ departing.own
  states := fun other phase state found => departing.states other phase state
    (threads other phase found)
  flagged := fun other phase found left => leaving ▸ departing.flagged other phase
    (threads other phase found) left
  single := fun first second firstPhase secondPhase firstFound secondFound =>
    departing.single first second firstPhase secondPhase (threads first _ firstFound)
      (threads second _ secondFound)
  written := by
    intro other phase found gossips
    obtain ⟨left, none⟩ := departing.written other phase (threads other phase found) gossips
    refine ⟨?_, fun another waiting present => none another waiting
      (threads another waiting present)⟩
    rwa [OwnNode.HasLeft, own]

/-- One thread goes on to its next phase. -/
theorem Departing.goOn (departing : Departing node)
    (threads : after.threads = node.threads.set thread next)
    (leaving : after.manager.leaving = node.manager.leaving)
    (own : ∃ record, after.ownRecord? = some record)
    (states : ∀ state, next.stores = some state ∨ next.gossips = some state → state = .alive ∨
      state = .left) (left : next.announcesLeft → ∃ phase, node.threads.get? thread = some phase ∧
        phase.announcesLeft)
    (alive : next.stores = some .alive →
      (∃ phase, node.threads.get? thread = some phase ∧ phase.stores = some .alive) ∨
        node.manager.leaving = false)
    (gossips : next.gossips = some .left → after.HasLeft ∧
      ∀ other waiting, node.threads.get? other = some waiting → waiting.stores ≠ some .alive)
    (kept : node.HasLeft → (∀ other waiting, node.threads.get? other = some waiting →
      waiting.stores ≠ some .alive) → after.HasLeft) : Departing after := by
  have found : ∀ other phase, after.threads.get? other = some phase →
      (other = thread ∧ phase = next) ∨ node.threads.get? other = some phase := by
    intro other phase located
    rw [threads, Dict.get?_set] at located
    split at located
    · rename_i same
      exact .inl ⟨same, (Option.some.inj located).symm⟩
    · exact .inr located
  have leavesBefore : ∀ other phase, after.threads.get? other = some phase → phase.announcesLeft →
      ∃ earlier, node.threads.get? other = some earlier ∧ earlier.announcesLeft := by
    intro other phase located announces
    rcases found other phase located with ⟨rfl, rfl⟩ | before
    · exact left announces
    · exact ⟨phase, before, announces⟩
  refine ⟨own, ?_, ?_, ?_, ?_⟩
  · intro other phase state located
    rcases found other phase located with ⟨-, rfl⟩ | before
    · exact states state
    · exact departing.states other phase state before
  · intro other phase located announces
    obtain ⟨earlier, before, announced⟩ := leavesBefore other phase located announces
    rw [leaving]
    exact departing.flagged other earlier before announced
  · intro first second firstPhase secondPhase firstLocated secondLocated firstLeft secondLeft
    obtain ⟨firstEarlier, firstBefore, firstAnnounced⟩ :=
      leavesBefore first firstPhase firstLocated firstLeft
    obtain ⟨secondEarlier, secondBefore, secondAnnounced⟩ :=
      leavesBefore second secondPhase secondLocated secondLeft
    exact departing.single first second _ _ firstBefore secondBefore firstAnnounced secondAnnounced
  · intro other phase located gossiping
    have quiet : ∀ another waiting, node.threads.get? another = some waiting →
        waiting.stores ≠ some .alive := by
      rcases found other phase located with ⟨-, rfl⟩ | before
      · exact (gossips gossiping).2
      · exact (departing.written other phase before gossiping).2
    refine ⟨?_, ?_⟩
    · rcases found other phase located with ⟨-, rfl⟩ | before
      · exact (gossips gossiping).1
      · exact kept (departing.written other phase before gossiping).1 quiet
    · intro another waiting present storing
      rcases found another waiting present with ⟨-, rfl⟩ | before
      · rcases alive storing with ⟨earlier, before, stored⟩ | unflagged
        · exact quiet thread earlier before stored
        · obtain ⟨earlier, before, announced⟩ := leavesBefore other phase located (.inr gossiping)
          rw [departing.flagged other earlier before announced] at unflagged
          cases unflagged
      · exact quiet another waiting before storing

theorem departing_startProcess {file : Option NodeIdentity} {freshNodeId address : Text}
    {gossipTtl now : Int} {issued : List Nat} {announced : List Announcement}
    (begun : startProcess file freshNodeId address gossipTtl now issued announced = some after) :
    Departing after := by
  unfold startProcess at begun
  dsimp only at begun
  split at begun
  · cases begun
  · rename_i manager created
    cases begun
    unfold createManager at created
    split at created
    · cases created
    · split at created <;> cases created
      exact {
        own := ⟨_, Dict.get?_set_self _ _ _⟩
        states := fun _ _ _ found => nomatch found
        flagged := fun _ _ found => nomatch found
        single := fun _ _ _ _ found => nomatch found
        written := fun _ _ found => nomatch found }

theorem Departing.finish (departing : Departing node) : Departing (node.finish thread) :=
  departing.shrink (fun _ _ found => Dict.get?_of_get?_erase found) rfl rfl

/-- A thread goes on without touching the own record. -/
theorem Departing.goTo (departing : Departing node)
    (threads : after.threads = node.threads.set thread next)
    (manager : after.manager = node.manager)
    (states : ∀ state, next.stores = some state → state = .alive ∨ state = .left)
    (left : next.announcesLeft → ∃ phase, node.threads.get? thread = some phase ∧
      phase.announcesLeft)
    (alive : next.stores = some .alive →
      (∃ phase, node.threads.get? thread = some phase ∧ phase.stores = some .alive) ∨
        node.manager.leaving = false)
    (gossips : next.gossips = none) : Departing after := by
  have own : after.ownRecord? = node.ownRecord? := by
    rw [OwnNode.ownRecord?, OwnNode.ownRecord?, manager]
  apply departing.goOn threads (by rw [manager]) (own ▸ departing.own)
    (by simpa [gossips] using states) left alive
  · simp [gossips]
  · intro hasLeft _
    rwa [OwnNode.HasLeft, own]

/-- A phase with nothing to announce. -/
theorem Departing.goQuietly (departing : Departing node) (stores : next.stores = none)
    (gossips : next.gossips = none) :
    Departing (node.goTo thread next) := by
  refine departing.goTo rfl rfl ?_ ?_ ?_ gossips
  · simp [stores]
  · simp [Phase.announcesLeft, stores, gossips]
  · simp [stores]

theorem ownRecord?_stored {announcement : Announcement} {incarnation : Nat} {now : Int}
    {record : MemberRecord} (present : node.ownRecord? = some record)
    (manager : after.manager =
      writeOwnRecord node.manager incarnation announcement.event.state now) :
    ∃ stored, after.ownRecord? = some stored ∧ stored.state = announcement.event.state := by
  rw [OwnNode.ownRecord?, manager]
  simp only [writeOwnRecord, Dict.get?_adjust, if_pos]
  rw [OwnNode.ownRecord?] at present
  rw [present]
  exact ⟨_, rfl, rfl⟩

theorem Departing.storeRecord {announcement : Announcement} {read : Issue} {now : Int}
    (departing : Departing node)
    (running : node.threads.get? thread = some (.storeRecord announcement read))
    (alone : announcement.event.state = .left →
      ∀ other ∈ node.threads.values, other.stores ≠ some .alive)
    (threads : after.threads = node.threads.set thread (.addGossip announcement))
    (manager : after.manager =
      writeOwnRecord node.manager read.incarnation announcement.event.state now) :
    Departing after := by
  obtain ⟨record, present⟩ := departing.own
  obtain ⟨stored, found, state⟩ := ownRecord?_stored present manager
  apply departing.goOn threads
  · rw [manager]
    rfl
  · exact ⟨stored, found⟩
  · intro state announces
    refine departing.states thread _ state running (.inl ?_)
    rcases announces with stores | gossips
    · cases stores
    · exact gossips
  · intro announces
    refine ⟨_, running, .inl ?_⟩
    rcases announces with stores | gossips
    · cases stores
    · exact gossips
  · exact fun stores => nomatch stores
  · intro gossips
    have left : announcement.event.state = .left := Option.some.inj gossips
    exact ⟨⟨stored, found, state.trans left⟩,
      fun other waiting located => alone left waiting (Dict.mem_values_of_get? located)⟩
  · intro _ quiet
    -- the thread itself has a state to write, which is then not ALIVE
    rcases departing.states thread _ announcement.event.state running (.inl rfl) with alive | left
    · exact absurd (congrArg some alive) (quiet thread _ running)
    · exact ⟨stored, found, state.trans left⟩

theorem Departing.advanceThread {phase : Phase} {outcome : WriteOutcome} {readings : Readings}
    (departing : Departing node) (running : node.threads.get? thread = some phase)
    (alone : departsAlone node (.advance thread outcome readings) = true)
    (stepped : Membership.advanceThread node thread outcome readings phase = some after) :
    Departing after := by
  simp only [departsAlone, running] at alone
  cases phase with
  | readLeaving event =>
      simp only [Membership.advanceThread] at stepped
      split at stepped <;> cases stepped
      · exact departing.finish
      · exact departing.goQuietly rfl rfl
  | compareIncarnation event =>
      simp only [Membership.advanceThread] at stepped
      split at stepped <;> cases stepped
      · exact departing.finish
      · exact departing.goQuietly rfl rfl
  | bump event =>
      simp only [Membership.advanceThread] at stepped
      split at stepped <;> cases stepped
      · exact departing.shrink (fun _ _ found => Dict.get?_of_get?_erase found) rfl rfl
      · exact @Departing.shrink (node.goTo thread _) _ (departing.goQuietly rfl rfl)
          (fun _ _ found => found) rfl rfl
  | assign issue =>
      cases stepped
      exact @Departing.shrink (node.goTo thread .checkLeaving) _ (departing.goQuietly rfl rfl)
        (fun _ _ found => found) rfl rfl
  | checkLeaving =>
      simp only [Membership.advanceThread] at stepped
      split at stepped <;> cases stepped
      · exact departing.finish
      · rename_i staying
        refine departing.goTo rfl rfl ?_ ?_ ?_ rfl
        · exact fun state stores => .inl (Option.some.inj stores).symm
        · simp [Phase.announcesLeft, Phase.stores, Phase.gossips]
        · exact fun _ => .inr (by simpa using staying)
  | buildEvent state =>
      simp only [Membership.advanceThread] at stepped
      split at stepped <;> cases stepped
      · exact departing.finish
      · rename_i event built
        have same : event.state = state := (ownEvent_ok built).2
        have sameStores : (Phase.lockMembers { event, place := node.assigned }).stores =
          (Phase.buildEvent state).stores :=
          congrArg some same
        refine departing.goTo rfl rfl ?_ ?_ ?_ rfl
        · exact fun other stores => departing.states thread _ other running
            (.inl (sameStores ▸ stores))
        · rintro (stores | gossips)
          · exact ⟨_, running, .inl (sameStores ▸ stores)⟩
          · cases gossips
        · exact fun stores => .inl ⟨_, running, sameStores ▸ stores⟩
  | lockMembers announcement =>
      simp only [Membership.advanceThread] at stepped
      split at stepped <;> cases stepped
      refine departing.goTo rfl rfl ?_ ?_ ?_ rfl
      · exact fun state stores => departing.states thread _ state running (.inl stores)
      · exact fun announces => ⟨_, running, announces⟩
      · exact fun stores => .inl ⟨_, running, stores⟩
  | storeRecord announcement read =>
      cases stepped
      exact departing.storeRecord running (of_decide_eq_true alone) rfl rfl
  | addGossip announcement =>
      cases stepped
      exact departing.shrink (fun _ _ found => Dict.get?_of_get?_erase found) rfl rfl

theorem applyPeerEvent_leaving (manager : MembershipManager) (event : MemberEvent)
    (readings : Readings) : (applyPeerEvent manager event readings).leaving = manager.leaving := by
  have stored : ∀ record, (storeRecord manager event record readings).leaving =
      manager.leaving := by
    intro record
    unfold storeRecord completeBootstrap
    dsimp only
    split <;> rfl
  unfold applyPeerEvent
  repeat' split
  all_goals first | exact stored _ | rfl

theorem Departing.ownStep {event : OwnEvent} (departing : Departing node)
    (alone : departsAlone node event = true)
    (stepped : Membership.ownStep node event = some after) : Departing after := by
  cases event with
  | receive thread event =>
      simp only [Membership.ownStep] at stepped
      split at stepped <;> cases stepped
      exact departing.goQuietly rfl rfl
  | leave thread =>
      simp only [Membership.ownStep] at stepped
      split at stepped <;> cases stepped
      rename_i staying
      simp only [Bool.or_eq_true, not_or, Bool.not_eq_true] at staying
      have unannounced : ∀ other phase, node.threads.get? other = some phase →
          ¬ phase.announcesLeft := by
        intro other phase located announces
        rw [departing.flagged other phase located announces] at staying
        cases staying.2
      have first : ∀ other phase, (node.threads.set thread (.buildEvent .left)).get? other =
          some phase → phase.announcesLeft → other = thread ∧ phase = .buildEvent .left := by
        intro other phase located announces
        rw [Dict.get?_set] at located
        split at located
        · rename_i same
          exact ⟨same, (Option.some.inj located).symm⟩
        · exact absurd announces (unannounced other phase located)
      refine ⟨departing.own, ?_, fun _ _ _ _ => rfl, ?_, ?_⟩
      · intro other phase state located stores
        change (node.threads.set thread (.buildEvent .left)).get? other = some phase at located
        rw [Dict.get?_set] at located
        split at located
        · cases located
          rcases stores with stores | gossips
          · exact .inr (Option.some.inj stores).symm
          · cases gossips
        · exact departing.states other phase state located stores
      · intro one two onePhase twoPhase oneFound twoFound oneLeft twoLeft
        exact (first one onePhase oneFound oneLeft).1.trans
          (first two twoPhase twoFound twoLeft).1.symm
      · intro other phase located gossips
        obtain ⟨-, rfl⟩ := first other phase located (.inr gossips)
        cases gossips
  | advance thread outcome readings =>
      simp only [Membership.ownStep] at stepped
      split at stepped
      · cases stepped
      · rename_i phase running
        exact departing.advanceThread running alone stepped
  | peerEvent event readings =>
      simp only [Membership.ownStep] at stepped
      split at stepped <;> cases stepped
      rename_i allowed
      simp only [Bool.or_eq_true, decide_eq_true_eq, not_or] at allowed
      exact departing.shrink (fun _ _ found => found) (applyPeerEvent_leaving _ _ _)
        (applyPeerEvent_own readings allowed.2).2
  | restart address gossipTtl now => exact departing_startProcess stepped

/-- LEFT is gossiped last: with nothing left to announce, the departure is over. -/
theorem Departing.departed {announcement : Announcement} {outcome : WriteOutcome}
    {readings : Readings} (departing : Departing node)
    (running : node.threads.get? thread = some (.addGossip announcement))
    (left : announcement.event.state = .left)
    (alone : departsAlone node (.advance thread outcome readings) = true)
    (stepped : Membership.ownStep node (.advance thread outcome readings) = some after) :
    Departed after := by
  simp only [departsAlone, running, decide_eq_true_eq] at alone
  have gossips : (Phase.addGossip announcement).gossips = some .left := congrArg some left
  obtain ⟨hasLeft, unstored⟩ := departing.written thread _ running gossips
  rw [ownStep_advance running] at stepped
  cases stepped
  refine ⟨departing.flagged thread _ running (.inr gossips), hasLeft, ?_⟩
  intro other phase found
  rw [OwnNode.finish, Dict.get?_erase] at found
  split at found
  · cases found
  · rename_i different
    have notLeft : ¬ phase.announcesLeft := fun announces =>
      different (departing.single other thread _ _ found running announces (.inr gossips))
    constructor
    · cases stores : phase.stores with
      | none => rfl
      | some state =>
          rcases departing.states other phase state found (.inl stores) with rfl | rfl
          · exact absurd stores (unstored other phase found)
          · exact absurd (.inl stores) notLeft
    · cases gossiping : phase.gossips with
      | none => rfl
      | some state =>
          rcases departing.states other phase state found (.inr gossiping) with rfl | rfl
          · exact absurd gossiping (alone left phase (Dict.mem_values_of_get? found))
          · exact absurd (.inr gossiping) notLeft

theorem Departed.shrink (departed : Departed node)
    (threads : ∀ other phase, after.threads.get? other = some phase →
      node.threads.get? other = some phase)
    (leaving : after.manager.leaving = node.manager.leaving)
    (own : after.ownRecord? = node.ownRecord?) :
    Departed after where
  leaving := leaving.trans departed.leaving
  left := by
    rw [OwnNode.HasLeft, own]
    exact departed.left
  quiet := fun other phase found => departed.quiet other phase (threads other phase found)

theorem Departed.finish (departed : Departed node) : Departed (node.finish thread) :=
  departed.shrink (fun _ _ found => Dict.get?_of_get?_erase found) rfl rfl

theorem Departed.goTo (departed : Departed node) (stores : next.stores = none)
    (gossips : next.gossips = none) :
    Departed (node.goTo thread next) := by
  refine ⟨departed.leaving, departed.left, ?_⟩
  intro other phase found
  change (node.threads.set thread next).get? other = some phase at found
  rw [Dict.get?_set] at found
  split at found
  · cases found
    exact ⟨stores, gossips⟩
  · exact departed.quiet other phase found

/-- After the departure nothing is announced any more. -/
theorem Departed.ownStep {event : OwnEvent} (departed : Departed node)
    (running : event.isRestart = false) (stepped : Membership.ownStep node event = some after) :
    Departed after ∧ after.announced = node.announced := by
  cases event with
  | receive thread event =>
      simp only [Membership.ownStep] at stepped
      split at stepped <;> cases stepped
      exact ⟨departed.goTo rfl rfl, rfl⟩
  | leave thread => simp [Membership.ownStep, departed.leaving] at stepped
  | advance thread outcome readings =>
      simp only [Membership.ownStep] at stepped
      split at stepped
      · cases stepped
      · rename_i phase located
        obtain ⟨stores, gossips⟩ := departed.quiet thread phase located
        cases phase with
        | readLeaving event =>
            simp only [advanceThread, departed.leaving, Bool.true_or, if_true] at stepped
            cases stepped
            exact ⟨departed.finish, rfl⟩
        | compareIncarnation event =>
            simp only [advanceThread] at stepped
            split at stepped <;> cases stepped
            · exact ⟨departed.finish, rfl⟩
            · exact ⟨departed.goTo rfl rfl, rfl⟩
        | bump event =>
            simp only [advanceThread] at stepped
            split at stepped <;> cases stepped
            · exact ⟨departed.shrink (fun _ _ found => Dict.get?_of_get?_erase found) rfl rfl, rfl⟩
            · exact ⟨@Departed.shrink (node.goTo thread _) _ (departed.goTo rfl rfl)
                (fun _ _ found => found) rfl rfl, rfl⟩
        | assign issue =>
            cases stepped
            exact ⟨@Departed.shrink (node.goTo thread .checkLeaving) _ (departed.goTo rfl rfl)
              (fun _ _ found => found) rfl rfl, rfl⟩
        | checkLeaving =>
            simp only [advanceThread, departed.leaving, if_true] at stepped
            cases stepped
            exact ⟨departed.finish, rfl⟩
        | buildEvent state => cases stores
        | lockMembers announcement => cases stores
        | storeRecord announcement read => cases stores
        | addGossip announcement => cases gossips
  | peerEvent event readings =>
      simp only [Membership.ownStep] at stepped
      split at stepped <;> cases stepped
      rename_i allowed
      simp only [Bool.or_eq_true, decide_eq_true_eq, not_or] at allowed
      exact ⟨departed.shrink (fun _ _ found => found) (applyPeerEvent_leaving _ _ _)
        (applyPeerEvent_own readings allowed.2).2, rfl⟩
  | restart address gossipTtl now => cases running

theorem Departed.runEvents {events : List OwnEvent} (departed : Departed node)
    (running : ∀ event ∈ events, event.isRestart = false)
    (ran : Lib.runEvents Membership.ownStep node events = some after) :
    Departed after ∧ after.announced = node.announced := by
  induction events generalizing node with
  | nil =>
      cases ran
      exact ⟨departed, rfl⟩
  | cons event rest ih =>
      obtain ⟨next, stepped, continued⟩ := runEvents_cons ran
      obtain ⟨nextDeparted, same⟩ := departed.ownStep (running event (by simp)) stepped
      obtain ⟨afterDeparted, unchanged⟩ :=
        ih nextDeparted (fun other member => running other (by simp [member])) continued
      exact ⟨afterDeparted, unchanged.trans same⟩

end Steps

/-- In every run, over any interleaving of handlers, departures and restarts, LEFT is final once
`_announce_left` has completed, provided that no handler is in `_announce_alive` meanwhile. -/
theorem leftIsFinal_of_departsAlone {file : Option NodeIdentity} {freshNodeId address : Text}
    {gossipTtl now : Int} {start : OwnNode} {events : List OwnEvent}
    (started : startProcess file freshNodeId address gossipTtl now [] [] = some start)
    (alone : EventsMeet ownStep (fun node event => departsAlone node event = true) start events) :
    LeftIsFinal start events := by
  rintro earlier thread outcome readings later rest rfl running before announcement after final
    reached located left
    stepped continued
  rw [List.append_assoc] at alone
  obtain ⟨first, remaining⟩ := alone.split reached
  have departing : Departing before := runEvents_invariant Departing
    (fun _ _ _ departing alone stepped => departing.ownStep alone stepped)
      (departing_startProcess started) first reached
  have departed := departing.departed located left remaining.1 stepped
  obtain ⟨finalDeparted, same⟩ := departed.runEvents running continued
  exact ⟨finalDeparted.left, [], by rw [same, List.append_nil], fun _ member => (by cases member)⟩

namespace TwoHandlers

/-- The handler has found the flag clear when the node leaves. -/
def lateAlive : List OwnEvent :=
  [.receive 1 suspected, advance 1, advance 1, advance 1, advance 1, advance 1, .leave 2, advance 2,
    advance 2, advance 2]

def orderlyLeave : List OwnEvent :=
  [.receive 1 suspected, advance 1, advance 1, advance 1, advance 1, advance 1, advance 1, .leave 2,
    advance 1, advance 2,
    advance 1, advance 2, advance 1, advance 2, advance 2, .receive 3 suspected, advance 3]

end TwoHandlers

open TwoHandlers in
theorem lateAlive_revokesLeft :
    ¬ ∀ (file : Option NodeIdentity) (freshNodeId address : Text) (gossipTtl now :
      Int) (start : OwnNode)
        (events : List OwnEvent),
      startProcess file freshNodeId address gossipTtl now [] [] = some start →
        LeftIsFinal start events := by
  intro claimed
  obtain ⟨start, started⟩ := Option.isSome_iff_exists.mp (by decide +kernel : start?.isSome = true)
  have leaving : (start?.bind fun start => runEvents ownStep start lateAlive).map
      (fun node => node.threads.get? 2) = some (some (.addGossip
        { event := { nodeId, address, incarnation := 2, state := .left }, place := 1 })) := by
          decide +kernel
  have ended : (start?.bind fun start => (runEvents ownStep start lateAlive).bind fun node =>
      (ownStep node (advance 2)).bind fun node => runEvents ownStep node
        (List.replicate 4 (advance 1))).map
        (fun node => node.ownRecord?.map (·.state)) = some (some .alive) := by decide +kernel
  rw [started, Option.bind_some] at leaving ended
  obtain ⟨before, ran, located⟩ := Option.map_eq_some_iff.mp leaving
  rw [ran, Option.bind_some] at ended
  obtain ⟨final, reached, state⟩ := Option.map_eq_some_iff.mp ended
  obtain ⟨after, stepped, continued⟩ := Option.bind_eq_some_iff.mp reached
  have kept := claimed none nodeId address 30 0 start
    (lateAlive ++ (advance 2 :: List.replicate 4 (advance 1)) ++ [])
    started lateAlive 2 .written { observedAt := 1, addedAt := 1, prunedAt := 1 }
      (List.replicate 4 (advance 1)) [] rfl
    (by decide) before _ after final ran located rfl stepped continued
  obtain ⟨record, present, left⟩ := kept.1
  rw [present, Option.map_some, Option.some.injEq, left] at state
  cases state

open TwoHandlers in
theorem orderlyLeave_leftIsFinal :
    ∃ start after, start? = some start ∧ runEvents ownStep start orderlyLeave = some after ∧
      after.announced.map (·.event.state) = [.alive, .left] ∧ LeftIsFinal start orderlyLeave := by
  obtain ⟨start, started⟩ := Option.isSome_iff_exists.mp (by decide +kernel : start?.isSome = true)
  have reached : (start?.bind fun start => runEvents ownStep start orderlyLeave).map
      (fun node => node.announced.map (·.event.state)) = some [.alive, .left] := by decide +kernel
  have checked : start?.map (fun start => checkEvents ownStep departsAlone start orderlyLeave) =
      some true := by
    decide +kernel
  rw [started, Option.bind_some] at reached
  rw [started, Option.map_some, Option.some.injEq] at checked
  obtain ⟨after, ran, states⟩ := Option.map_eq_some_iff.mp reached
  exact ⟨start, after, started, ran, states, leftIsFinal_of_departsAlone started
    (eventsMeet_of_checkEvents checked)⟩

end Stopan.Membership
