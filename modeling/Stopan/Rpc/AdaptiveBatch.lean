import Stopan.Lib.Dict
import Stopan.Lib.Result

/-!
A batch call that is split in halves while the answer is too large for one message
(`run_adaptive_batch_call` of `stopan/rpc/p2p_storage_client.py`).
-/

namespace Stopan.Rpc

open Stopan.Lib

/-- A failed call, with what `is_message_too_large_error` says about it. -/
structure CallError where
  tooLarge : Bool
  text : String
  deriving DecidableEq, Repr

section Calls

variable {α κ ν : Type} [DecidableEq κ]

/-- The depth bounds the halvings. -/
def runAdaptiveBatch (callOnce : List α → Except CallError (Dict κ ν)) : Nat → List α →
    Except CallError (Dict κ ν)
  | 0, items => callOnce items
  | depth + 1, items =>
      match callOnce items with
      | .ok answer => .ok answer
      | .error failure =>
          if 1 < items.length ∧ failure.tooLarge then do
            let mid := max 1 (items.length / 2)
            let left ← runAdaptiveBatch callOnce depth (items.take mid)
            let right ← runAdaptiveBatch callOnce depth (items.drop mid)
            return left.update right.entries
          else .error failure

/-- A batch of `n` items is halved at most `n` times. -/
def runAdaptiveBatchCall (callOnce : List α → Except CallError (Dict κ ν)) (items : List α) :
    Except CallError (Dict κ ν) :=
  runAdaptiveBatch callOnce items.length items

/-- An answer to the whole batch is the answer. -/
theorem runAdaptiveBatchCall_of_answered {callOnce : List α → Except CallError (Dict κ ν)}
    {items : List α} {answer : Dict κ ν}
    (called : callOnce items = .ok answer) : runAdaptiveBatchCall callOnce items = .ok answer := by
  rw [runAdaptiveBatchCall]
  cases items.length with
  | zero => exact called
  | succ depth => rw [runAdaptiveBatch, called]

/-- What the answers to the batches have in common and keep when they are joined. -/
theorem runAdaptiveBatch_holds {P : Dict κ ν → Prop}
    {callOnce : List α → Except CallError (Dict κ ν)} (joined : ∀ left right, P left → P right →
      P (left.update right.entries)) {depth : Nat} {items : List α}
    (each : ∀ batch answer, batch ⊆ items → callOnce batch = .ok answer → P answer)
    {answer : Dict κ ν}
    (returned : runAdaptiveBatch callOnce depth items = .ok answer) : P answer := by
  induction depth generalizing items answer with
  | zero => exact each items answer (List.Subset.refl _) returned
  | succ depth ih =>
      rw [runAdaptiveBatch] at returned
      cases called : callOnce items with
      | ok whole =>
          rw [called, Except.ok.injEq] at returned
          exact each items answer (List.Subset.refl _) (called.trans (congrArg _ returned))
      | error failure =>
          rw [called] at returned
          dsimp only at returned
          split at returned
          · obtain ⟨left, first, rest⟩ := bind_eq_ok_iff.mp returned
            obtain ⟨right, second, same⟩ := bind_eq_ok_iff.mp rest
            cases pure_eq_ok_iff.mp same
            refine joined left right (ih (fun batch answer within => ?_) first)
              (ih (fun batch answer within => ?_) second)
            · exact each batch answer fun item member => List.mem_of_mem_take (within member)
            · exact each batch answer fun item member => List.mem_of_mem_drop (within member)
          · cases returned

end Calls

/-- A call of `call_once`: the batch, and how the call went. -/
structure BatchCall (α κ ν : Type) where
  batch : List α
  outcome : Except CallError (Dict κ ν)

/-- What a whole batch comes to: the calls in order, what the peer has become and what is returned
or raised. -/
structure AdaptiveRun (σ α κ ν : Type) where
  peer : σ
  calls : List (BatchCall α κ ν)
  result : Except CallError (Dict κ ν)

section Peer

variable {σ α κ ν : Type} [DecidableEq κ]

/-- The second half is asked for only when the first one returned. -/
def AdaptiveRun.followedBy (left : AdaptiveRun σ α κ ν) (rejected : BatchCall α κ ν)
    (right : σ → AdaptiveRun σ α κ ν) :
    AdaptiveRun σ α κ ν :=
  match left.result with
  | .error reason => { peer := left.peer, calls := rejected :: left.calls, result := .error reason }
  | .ok first =>
      let second := right left.peer
      { peer := second.peer
        calls := rejected :: (left.calls ++ second.calls)
        result := second.result.map fun answer => first.update answer.entries }

/-- `run_adaptive_batch_call` towards a peer whose answer depends on its state, which every call may
change. -/
def adaptiveRun (callOnce : σ → List α → σ × Except CallError (Dict κ ν))
    (peer : σ) (items : List α) :
    AdaptiveRun σ α κ ν :=
  let (after, outcome) := callOnce peer items
  match outcome with
  | .ok answer => { peer := after, calls := [{ batch := items, outcome }], result := .ok answer }
  | .error failure =>
      if several : 1 < items.length ∧ failure.tooLarge then
        let mid := max 1 (items.length / 2)
        have shorter : (items.take mid).length < items.length := by
          rw [List.length_take]
          omega
        have rest : (items.drop mid).length < items.length := by
          rw [List.length_drop]
          omega
        (adaptiveRun callOnce after (items.take mid)).followedBy
          { batch := items, outcome } fun peer =>
          adaptiveRun callOnce peer (items.drop mid)
      else { peer := after, calls := [{ batch := items, outcome }], result := .error failure }
termination_by items.length

/-- The batches that were answered. -/
def answeredBatches (calls : List (BatchCall α κ ν)) : List (List α) :=
  (calls.filter fun call => call.outcome.isOk).map BatchCall.batch

variable {callOnce : σ → List α → σ × Except CallError (Dict κ ν)} {peer : σ} {items : List α}

theorem adaptiveRun_of_answered {answer : Dict κ ν}
    (called : (callOnce peer items).2 = .ok answer) :
    adaptiveRun callOnce peer items = {
      peer := (callOnce peer items).1, calls := [{ batch := items, outcome := .ok answer }],
        result := .ok answer } := by
  rw [adaptiveRun]
  simp only [called]

theorem adaptiveRun_of_raised {failure : CallError}
    (called : (callOnce peer items).2 = .error failure)
    (final : ¬ (1 < items.length ∧ failure.tooLarge)) :
    adaptiveRun callOnce peer items = {
      peer := (callOnce peer items).1, calls := [{ batch := items, outcome := .error failure }],
      result := .error failure } := by
  rw [adaptiveRun]
  simp only [called, dif_neg final]

theorem adaptiveRun_of_split {failure : CallError}
    (called : (callOnce peer items).2 = .error failure)
    (several : 1 < items.length ∧ failure.tooLarge) :
    adaptiveRun callOnce peer items =
      (adaptiveRun callOnce (callOnce peer items).1
        (items.take (max 1 (items.length / 2)))).followedBy
        { batch := items, outcome := .error failure } fun peer =>
          adaptiveRun callOnce peer (items.drop (max 1 (items.length / 2))) := by
  conv_lhs => rw [adaptiveRun]
  simp only [called, dif_pos several]

/-- Every item is in one answered batch, and the items in order are those of the answered
batches. -/
def AdaptiveRun.Covers (run : AdaptiveRun σ α κ ν) (items : List α) : Prop :=
  (answeredBatches run.calls).flatten = items

/-- What is raised is what the last call raised, and it is no rejection of several items for their
size. -/
def AdaptiveRun.Propagates (run : AdaptiveRun σ α κ ν) (failure : CallError) : Prop :=
  ∃ batch, run.calls.getLast? = some { batch, outcome := .error failure } ∧
    ¬ (1 < batch.length ∧ failure.tooLarge)

/-- The union of the results of the items, where a later item goes before an earlier one with the
same key. -/
def UnionOf (single : α → Dict κ ν) (items : List α) (answer : Dict κ ν) : Prop :=
  ∀ key, answer.get? key = items.reverse.findSome? fun item => (single item).get? key

section Join

variable {left : AdaptiveRun σ α κ ν} {rejected : BatchCall α κ ν} {right : σ → AdaptiveRun σ α κ ν}

theorem followedBy_eq_ok {answer : Dict κ ν}
    (returned : (left.followedBy rejected right).result = .ok answer) :
    ∃ first second, left.result = .ok first ∧ (right left.peer).result = .ok second ∧
      answer = first.update second.entries ∧
      (left.followedBy rejected right).calls =
        rejected :: (left.calls ++ (right left.peer).calls) := by
  rw [AdaptiveRun.followedBy] at returned ⊢
  cases firstResult : left.result with
  | error reason => simp [firstResult] at returned
  | ok first =>
      simp only [firstResult] at returned ⊢
      cases secondResult : (right left.peer).result with
      | error reason => simp [secondResult, Except.map] at returned
      | ok second =>
          simp only [secondResult, Except.map, Except.ok.injEq] at returned
          exact ⟨first, second, rfl, rfl, returned.symm, trivial⟩

theorem followedBy_eq_error {failure : CallError}
    (raised : (left.followedBy rejected right).result = .error failure) :
    left.result = .error failure ∧ (left.followedBy rejected right).calls = rejected :: left.calls ∨
    (right left.peer).result = .error failure ∧
      (left.followedBy rejected right).calls =
        rejected :: (left.calls ++ (right left.peer).calls) := by
  rw [AdaptiveRun.followedBy] at raised ⊢
  cases firstResult : left.result with
  | error reason =>
      simp only [firstResult, Except.error.injEq] at raised ⊢
      exact .inl ⟨raised, trivial⟩
  | ok first =>
      simp only [firstResult] at raised ⊢
      cases secondResult : (right left.peer).result with
      | error reason =>
          simp only [secondResult, Except.map, Except.error.injEq] at raised
          exact .inr ⟨congrArg _ raised, trivial⟩
      | ok second => simp [secondResult, Except.map] at raised

theorem followedBy_calls_ne_nil : (left.followedBy rejected right).calls ≠ [] := by
  rw [AdaptiveRun.followedBy]
  split
  · exact List.cons_ne_nil _ _
  · exact List.cons_ne_nil _ _

end Join

/-- The recursion of `run_adaptive_batch_call`: a batch is answered, raises, or is cut in two
halves. -/
theorem adaptiveRun_induction {motive : List α → AdaptiveRun σ α κ ν → Prop}
    (answered : ∀ peer items answer, (callOnce peer items).2 = .ok answer → motive items {
      peer := (callOnce peer items).1, calls := [{ batch := items, outcome := .ok answer }],
        result := .ok answer })
    (raised : ∀ peer items failure, (callOnce peer items).2 = .error failure →
      ¬ (1 < items.length ∧ failure.tooLarge) → motive items {
        peer := (callOnce peer items).1, calls := [{ batch := items, outcome := .error failure }],
        result := .error failure })
    (split : ∀ first second failure (left : AdaptiveRun σ α κ ν) (right : σ → AdaptiveRun σ α κ ν),
      motive first left → (∀ peer, motive second (right peer)) →
      motive (first ++ second)
        (left.followedBy { batch := first ++ second, outcome := .error failure } right))
    (peer : σ) (items : List α) : motive items (adaptiveRun callOnce peer items) := by
  induction length : items.length using Nat.strong_induction_on generalizing peer items with
  | _ size ih =>
      cases called : (callOnce peer items).2 with
      | ok answer =>
          rw [adaptiveRun_of_answered called]
          exact answered peer items answer called
      | error failure =>
          by_cases several : 1 < items.length ∧ failure.tooLarge
          · have shorter : (items.take (max 1 (items.length / 2))).length < size := by
              rw [List.length_take]
              omega
            have rest : (items.drop (max 1 (items.length / 2))).length < size := by
              rw [List.length_drop]
              omega
            have halves :=
              split _ _ failure _ _ (ih _ shorter (callOnce peer items).1 _ rfl) fun peer =>
              ih _ rest peer _ rfl
            rw [List.take_append_drop] at halves
            rw [adaptiveRun_of_split called several]
            exact halves
          · rw [adaptiveRun_of_raised called several]
            exact raised peer items failure called several

omit [DecidableEq κ] in
theorem answeredBatches_rejected (batch : List α) (failure : CallError)
    (first second : List (BatchCall α κ ν)) :
    answeredBatches ({ batch, outcome := .error failure } :: (first ++ second)) =
      answeredBatches first ++ answeredBatches second := by
  rw [answeredBatches, List.filter_cons_of_neg (by simp [Except.isOk, Except.toBool]),
    List.filter_append, List.map_append]
  rfl

/-- The batches that are answered cover every item once. -/
theorem adaptiveRun_covers (peer : σ) (items : List α) {answer : Dict κ ν}
    (returned : (adaptiveRun callOnce peer items).result = .ok answer) :
    (adaptiveRun callOnce peer items).Covers items := by
  refine @adaptiveRun_induction _ _ _ _ _ callOnce
    (fun items run => ∀ answer, run.result = .ok answer →
      run.Covers items) ?answered ?raised ?split peer items answer returned
  case answered =>
    intro peer items answer _ _ _
    exact List.append_nil items
  case raised =>
    intro peer items failure _ _ answer returned
    cases returned
  case split =>
    intro first second failure left right leftCovers rightCovers answer returned
    obtain ⟨one, other, leftReturned, rightReturned, -, calls⟩ := followedBy_eq_ok returned
    have leftWhole := leftCovers one leftReturned
    have rightWhole := rightCovers left.peer other rightReturned
    rw [AdaptiveRun.Covers, calls, answeredBatches_rejected, List.flatten_append,
      leftWhole, rightWhole]

/-- An error that is no rejection of several items is the last thing that happens. -/
theorem adaptiveRun_propagates (peer : σ) (items : List α) {failure : CallError}
    (raised : (adaptiveRun callOnce peer items).result = .error failure) :
    (adaptiveRun callOnce peer items).Propagates failure := by
  refine @adaptiveRun_induction _ _ _ _ _ callOnce
    (fun _ run => run.calls ≠ [] ∧ ∀ failure, run.result = .error failure → run.Propagates failure)
    ?answered ?raised ?split peer items |>.2 failure raised
  case answered =>
    intro peer items answer _
    refine ⟨List.cons_ne_nil _ _, fun failure raised => ?_⟩
    cases raised
  case raised =>
    intro peer items reason _ final
    refine ⟨List.cons_ne_nil _ _, fun failure raised => ?_⟩
    cases raised
    exact ⟨items, rfl, final⟩
  case split =>
    intro first second reason left right leftRun rightRun
    refine ⟨followedBy_calls_ne_nil, fun failure raised => ?_⟩
    rcases followedBy_eq_error raised with ⟨leftRaised, calls⟩ | ⟨rightRaised, calls⟩
    · obtain ⟨batch, last, final⟩ := leftRun.2 failure leftRaised
      exact ⟨batch, by rw [calls, List.getLast?_cons_of_ne_nil leftRun.1, last], final⟩
    · obtain ⟨batch, last, final⟩ := (rightRun left.peer).2 failure rightRaised
      refine ⟨batch, ?_, final⟩
      rw [calls, ← List.cons_append, List.getLast?_append_of_ne_nil _ (rightRun left.peer).1, last]

/-- A peer that may reject several items for their size and answers otherwise is asked until
everything is answered. -/
theorem adaptiveRun_returns
    (answers : ∀ peer batch, (∃ answer, (callOnce peer batch).2 = .ok answer) ∨
      ∃ failure, (callOnce peer batch).2 = .error failure ∧ 1 < batch.length ∧
        failure.tooLarge = true)
    (peer : σ) (items : List α) :
    ∃ answer, (adaptiveRun callOnce peer items).result = .ok answer := by
  refine @adaptiveRun_induction _ _ _ _ _ callOnce (fun _ run => ∃ answer, run.result = .ok answer)
    ?answered ?raised ?split peer items
  case answered =>
    intro peer items answer _
    exact ⟨answer, rfl⟩
  case raised =>
    intro peer items failure called final
    rcases answers peer items with ⟨answer, returned⟩ | ⟨reason, rejected, several, large⟩
    · rw [called] at returned
      cases returned
    · rw [called] at rejected
      cases rejected
      exact absurd ⟨several, large⟩ final
  case split =>
    intro first second failure left right leftReturns rightReturns
    obtain ⟨one, leftResult⟩ := leftReturns
    obtain ⟨other, rightResult⟩ := rightReturns left.peer
    exact ⟨one.update other.entries,
      by rw [AdaptiveRun.followedBy]; simp only [leftResult, rightResult, Except.map]⟩

section Union

variable {single : α → Dict κ ν}

theorem UnionOf.append {first second : List α} {one other : Dict κ ν}
    (left : UnionOf single first one) (right : UnionOf single second other) :
    UnionOf single (first ++ second) (one.update other.entries) := by
  intro key
  rw [List.reverse_append, List.findSome?_append, ← left key, ← right key]
  cases found : other.get? key with
  | some value => exact Dict.get?_update_of_mem _ _ _ other.nodup (Dict.get?_eq_some_iff.mp found)
  | none => exact Dict.get?_update_of_not_mem _ _ ((Dict.get?_eq_none_iff ..).mp found)

/-- If every answer is the union of the results of its items, so is what is returned. -/
theorem adaptiveRun_unionOf
    (perItem : ∀ peer batch answer, (callOnce peer batch).2 = .ok answer →
      UnionOf single batch answer)
    (peer : σ) (items : List α) {answer : Dict κ ν}
    (returned : (adaptiveRun callOnce peer items).result = .ok answer) :
    UnionOf single items answer := by
  refine @adaptiveRun_induction _ _ _ _ _ callOnce
    (fun items run => ∀ answer, run.result = .ok answer → UnionOf single items answer)
    ?answered ?raised ?split peer items answer returned
  case answered =>
    intro peer items answer called result same
    cases same
    exact perItem peer items answer called
  case raised =>
    intro peer items failure _ _ answer returned
    cases returned
  case split =>
    intro first second failure left right leftUnion rightUnion answer returned
    obtain ⟨one, other, leftReturned, rightReturned, rfl, -⟩ := followedBy_eq_ok returned
    exact (leftUnion one leftReturned).append (rightUnion left.peer other rightReturned)

/-- Nothing is lost or asked for twice: what is returned is the union of the results of the items,
each of which is in one answered batch; any other error is propagated; and a peer that only rejects
several items is answered for. -/
theorem adaptiveRun_losesNothing
    (perItem : ∀ peer batch answer, (callOnce peer batch).2 = .ok answer →
      UnionOf single batch answer)
    (peer : σ) (items : List α) :
    (∀ answer, (adaptiveRun callOnce peer items).result = .ok answer →
      (adaptiveRun callOnce peer items).Covers items ∧ UnionOf single items answer) ∧
    (∀ failure, (adaptiveRun callOnce peer items).result = .error failure →
      (adaptiveRun callOnce peer items).Propagates failure) ∧
    ((∀ peer batch, (∃ answer, (callOnce peer batch).2 = .ok answer) ∨
        ∃ failure, (callOnce peer batch).2 = .error failure ∧ 1 < batch.length ∧
          failure.tooLarge = true) →
      ∃ answer, (adaptiveRun callOnce peer items).result = .ok answer) :=
  ⟨fun _ returned => ⟨adaptiveRun_covers peer items returned,
    adaptiveRun_unionOf perItem peer items returned⟩,
    fun _ raised => adaptiveRun_propagates peer items raised,
    fun answers => adaptiveRun_returns answers peer items⟩

end Union

/-- A peer without a state is the batch call that the clients of this development are modelled
with. -/
theorem adaptiveRun_result_of_le (pure : List α → Except CallError (Dict κ ν))
    {depth : Nat} (items : List α) (enough : items.length ≤ depth) :
    (adaptiveRun (fun (peer : Unit) batch => (peer, pure batch)) () items).result =
      runAdaptiveBatch pure depth items := by
  induction depth generalizing items with
  | zero =>
      rw [runAdaptiveBatch]
      cases called : pure items with
      | ok answer => rw [adaptiveRun_of_answered (by exact called)]
      | error failure => rw [adaptiveRun_of_raised (by exact called) (by omega)]
  | succ depth ih =>
      rw [runAdaptiveBatch]
      cases called : pure items with
      | ok answer => rw [adaptiveRun_of_answered (by exact called)]
      | error failure =>
          by_cases several : 1 < items.length ∧ failure.tooLarge
          · have left :=
              ih (items.take (max 1 (items.length / 2))) (by rw [List.length_take]; omega)
            have right :=
              ih (items.drop (max 1 (items.length / 2))) (by rw [List.length_drop]; omega)
            rw [adaptiveRun_of_split (by exact called) several]
            simp only [if_pos several, AdaptiveRun.followedBy, left]
            cases runAdaptiveBatch pure depth (items.take (max 1 (items.length / 2))) with
            | error reason => rfl
            | ok first =>
                simp only [right]
                cases runAdaptiveBatch pure depth (items.drop (max 1 (items.length / 2))) with
                | error reason => rfl
                | ok second => rfl
          · rw [adaptiveRun_of_raised (by exact called) several]
            simp only [if_neg several]

theorem adaptiveRun_result (pure : List α → Except CallError (Dict κ ν)) (items : List α) :
    (adaptiveRun (fun (peer : Unit) batch => (peer, pure batch)) () items).result =
      runAdaptiveBatchCall pure items :=
  adaptiveRun_result_of_le pure items (Nat.le_refl _)

end Peer

namespace OneAtATime

/-- The peer counts its calls. -/
def callOnce (peer : Nat) : List Nat → Nat × Except CallError (Dict Nat Nat)
  | [] => (peer + 1, .ok .empty)
  | [item] => (peer + 1, .ok (Dict.empty.set item (2 * item)))
  | _ :: _ :: _ => (peer + 1, .error { tooLarge := true, text := "RESOURCE_EXHAUSTED" })

theorem perItem (peer : Nat) (batch : List Nat) (answer : Dict Nat Nat)
    (called : (callOnce peer batch).2 = .ok answer) :
    UnionOf (fun item => Dict.empty.set item (2 * item)) batch answer := by
  intro key
  cases batch with
  | nil =>
      cases called
      rfl
  | cons item rest =>
      cases rest with
      | nil =>
          cases called
          simp
      | cons => cases called

/-- One item is answered, and several are refused for their size. -/
theorem answers (peer : Nat) (batch : List Nat) :
    (∃ answer, (callOnce peer batch).2 = .ok answer) ∨
      ∃ failure, (callOnce peer batch).2 = .error failure ∧ 1 < batch.length ∧
        failure.tooLarge = true := by
  cases batch with
  | nil => exact Or.inl ⟨_, rfl⟩
  | cons item rest =>
      cases rest with
      | nil => exact Or.inl ⟨_, rfl⟩
      | cons => exact Or.inr ⟨_, rfl, by simp, rfl⟩

end OneAtATime

open OneAtATime in
theorem threeItems_notLost :
    ∃ answer, (adaptiveRun callOnce 0 [1, 2, 3]).result = .ok answer ∧
      (adaptiveRun callOnce 0 [1, 2, 3]).Covers [1, 2, 3] ∧
      UnionOf (fun item => Dict.empty.set item (2 * item)) [1, 2, 3] answer := by
  obtain ⟨whole, -, returns⟩ := adaptiveRun_losesNothing perItem 0 [1, 2, 3]
  obtain ⟨answer, returned⟩ := returns answers
  obtain ⟨covers, union⟩ := whole answer returned
  exact ⟨answer, returned, covers, union⟩

end Stopan.Rpc
