import Mathlib
import Stopan.Lib.Dict

namespace Stopan.Lib.GraphWalk

variable {κ τ ε : Type} [DecidableEq κ] [DecidableEq τ]

/-- `pending` has the top of the stack first, and `seen` the last visited node. -/
structure State (κ τ : Type) where
  pending : List (κ × τ)
  expected : Dict κ τ
  seen : List κ

def start (root : κ) (label : τ) : State κ τ where
  pending := [(root, label)]
  expected := Dict.empty.set root label
  seen := []

def addReferences (conflict : κ → τ → τ → ε) : List (τ × κ) → State κ τ → Except ε (State κ τ)
  | [], state => .ok state
  | (label, node) :: rest, state =>
      let pending := if state.seen.contains node then state.pending
        else (node, label) :: state.pending
      match state.expected.get? node with
      | none => addReferences conflict rest { state with pending,
                                                         expected := state.expected.set node label }
      | some previous =>
          if previous = label then addReferences conflict rest { state with pending }
            else .error (conflict node previous label)

/-- Visit the pending nodes that are new; undefined when there are more of them than the budget. -/
def loop (visit : κ → τ → Except ε (List (τ × κ))) (conflict : κ → τ → τ → ε) : Nat → State κ τ →
    Option (Except ε (List κ))
  | budget, state =>
      match state.pending.dropWhile fun entry => state.seen.contains entry.1 with
      | [] => some (.ok state.seen)
      | (node, label) :: rest =>
          match budget with
          | 0 => none
          | budget + 1 =>
              match visit node label with
              | .error reason => some (.error reason)
              | .ok references =>
                  match addReferences conflict references
                    { state with pending := rest, seen := node :: state.seen } with
                  | .error reason => some (.error reason)
                  | .ok next => loop visit conflict budget next

/-- One node refers to another. -/
def Refers (visit : κ → τ → Except ε (List (τ × κ))) (node other : κ) : Prop :=
  ∃ label references, visit node label = .ok references ∧ other ∈ references.map Prod.snd

section Walk

variable {visit : κ → τ → Except ε (List (τ × κ))} {conflict : κ → τ → τ → ε}
  {state next : State κ τ}
  {references : List (τ × κ)} {budget : Nat} {visited : List κ} {root : κ} {label : τ}

theorem addReferences_seen (added : addReferences conflict references state = .ok next) :
    next.seen = state.seen := by
  induction references generalizing state with
  | nil =>
      cases added
      rfl
  | cons reference rest ih =>
      simp only [addReferences] at added
      split at added
      · have kept := ih added
        exact kept
      · split at added
        · have kept := ih added
          exact kept
        · cases added

/-- The nodes that wait after a visit are those that waited and the new ones. -/
theorem addReferences_pending (added : addReferences conflict references state = .ok next)
    (node : κ) :
    node ∈ next.pending.map Prod.fst ↔
      node ∈ state.pending.map Prod.fst ∨ (node ∈ references.map Prod.snd ∧ node ∉ state.seen) := by
  induction references generalizing state with
  | nil =>
      cases added
      simp
  | cons reference rest ih =>
      obtain ⟨label, other⟩ := reference
      have pushed : node ∈ (if state.seen.contains other then state.pending
          else (other, label) :: state.pending).map Prod.fst ↔
          node ∈ state.pending.map Prod.fst ∨ (node = other ∧ node ∉ state.seen) := by
        by_cases old : other ∈ state.seen
        · have same : node = other → node ∈ state.seen := fun equal => equal ▸ old
          simp only [List.contains_eq_mem, old, decide_true, if_true]
          tauto
        · have same : node = other → node ∉ state.seen := fun equal => equal ▸ old
          simp only [List.contains_eq_mem, old, decide_false, Bool.false_eq_true, if_false,
            List.map_cons, List.mem_cons]
          tauto
      simp only [addReferences] at added
      split at added
      · rw [ih added, pushed]
        simp only [List.map_cons, List.mem_cons]
        tauto
      · split at added
        · rw [ih added, pushed]
          simp only [List.map_cons, List.mem_cons]
          tauto
        · cases added

/-- Every visited node was read, and what it refers to was visited or waits. -/
structure Explored (visit : κ → τ → Except ε (List (τ × κ))) (root : κ)
    (state : State κ τ) : Prop where
  rooted : root ∈ state.seen ∨ root ∈ state.pending.map Prod.fst
  read : ∀ node ∈ state.seen, ∃ label references, visit node label = .ok references ∧
    ∀ other ∈ references.map Prod.snd, other ∈ state.seen ∨ other ∈ state.pending.map Prod.fst
  reached : ∀ node, node ∈ state.seen ∨ node ∈ state.pending.map Prod.fst →
    Relation.ReflTransGen (Refers visit) root node

omit [DecidableEq τ] in
theorem Explored.start (visit : κ → τ → Except ε (List (τ × κ))) (root : κ) (label : τ) :
    Explored visit root (GraphWalk.start root label) where
  rooted := .inr (by simp [GraphWalk.start])
  read _ member := by cases member
  reached node listed := by
    have same : node = root := by simpa [GraphWalk.start] using listed
    exact same ▸ .refl

omit [DecidableEq τ] in
/-- What the walk takes from the stack: nodes that it has seen, and the next one. -/
theorem dropWhile_split {pending : List (κ × τ)} {seen : List κ} {node : κ} {rest : List (κ × τ)}
    (dropped : pending.dropWhile (fun entry => seen.contains entry.1) = (node, label) :: rest) :
    node ∉ seen ∧ ∀ other, other ∈ pending.map Prod.fst → other ∈ seen ∨ other = node ∨
      other ∈ rest.map Prod.fst := by
  have split :=
    List.takeWhile_append_dropWhile (p := fun entry : κ × τ => seen.contains entry.1) (l := pending)
  rw [dropped] at split
  constructor
  · have first := List.head?_dropWhile_not (fun entry : κ × τ => seen.contains entry.1) pending
    rw [dropped] at first
    simpa using first
  · intro other member
    rw [← split, List.map_append, List.mem_append] at member
    rcases member with early | late
    · obtain ⟨entry, inside, rfl⟩ := List.mem_map.mp early
      have holds := List.mem_takeWhile_imp inside
      exact .inl (by simpa using holds)
    · simpa using Or.inr (a := other ∈ seen) (by simpa using late)

theorem Explored.step (explored : Explored visit root state) {node : κ} {rest : List (κ × τ)}
    (dropped : state.pending.dropWhile (fun entry => state.seen.contains entry.1) =
      (node, label) :: rest)
    (visited : visit node label = .ok references)
    (added : addReferences conflict references
      { state with pending := rest, seen := node :: state.seen } = .ok next) :
    Explored visit root next := by
  have split := (dropWhile_split dropped).2
  have seen : ∀ other, other ∈ next.seen ↔ other = node ∨ other ∈ state.seen := by
    intro other
    rw [addReferences_seen added]
    exact List.mem_cons
  have pending : ∀ other, other ∈ next.pending.map Prod.fst ↔
      other ∈ rest.map Prod.fst ∨
        (other ∈ references.map Prod.snd ∧ ¬ (other = node ∨ other ∈ state.seen)) := by
    intro other
    rw [addReferences_pending added]
    simp only [List.mem_cons]
  have waiting : node ∈ state.pending.map Prod.fst := by
    have inside : (node, label) ∈ state.pending :=
      (List.dropWhile_sublist _).mem (by rw [dropped]; exact List.mem_cons_self)
    exact List.mem_map_of_mem inside
  have kept : ∀ other, other ∈ state.seen ∨ other ∈ state.pending.map Prod.fst →
      other ∈ next.seen ∨ other ∈ next.pending.map Prod.fst := by
    intro other listed
    rw [seen, pending]
    rcases listed with old | waits
    · exact .inl (.inr old)
    · rcases split other waits with old | same | later
      · exact .inl (.inr old)
      · exact .inl (.inl same)
      · exact .inr (.inl later)
  have here : Relation.ReflTransGen (Refers visit) root node := explored.reached node (.inr waiting)
  refine ⟨kept root explored.rooted, fun other member => ?_, fun other listed => ?_⟩
  · rcases (seen other).mp member with rfl | old
    · refine ⟨label, references, visited, fun referred inside => ?_⟩
      rw [seen, pending]
      tauto
    · obtain ⟨otherLabel, others, read, followed⟩ := explored.read other old
      exact ⟨otherLabel, others, read, fun referred inside => kept referred
        (followed referred inside)⟩
  · rw [seen, pending] at listed
    rcases listed with (rfl | old) | later | new
    · exact here
    · exact explored.reached other (.inl old)
    · have inside : other ∈ state.pending.map Prod.fst := by
        have sub : rest.map Prod.fst ⊆ state.pending.map Prod.fst := by
          apply List.map_subset
          intro entry member
          exact (List.dropWhile_sublist _).mem
            (by rw [dropped]; exact List.mem_cons_of_mem _ member)
        exact sub later
      exact explored.reached other (.inr inside)
    · exact here.tail ⟨label, references, visited, new.1⟩

theorem loop_explored (explored : Explored visit root state)
    (walked : loop visit conflict budget state = some (.ok visited)) :
    ∃ final : State κ τ, final.seen = visited ∧ Explored visit root final ∧
      ∀ node ∈ final.pending.map Prod.fst, node ∈ final.seen := by
  induction budget generalizing state with
  | zero =>
      rw [loop] at walked
      split at walked
      · rename_i none
        cases walked
        refine ⟨state, rfl, explored, fun node member => ?_⟩
        obtain ⟨entry, inside, rfl⟩ := List.mem_map.mp member
        simpa using List.dropWhile_eq_nil_iff.mp none entry inside
      · cases walked
  | succ budget ih =>
      rw [loop] at walked
      split at walked
      · rename_i none
        cases walked
        refine ⟨state, rfl, explored, fun node member => ?_⟩
        obtain ⟨entry, inside, rfl⟩ := List.mem_map.mp member
        simpa using List.dropWhile_eq_nil_iff.mp none entry inside
      · rename_i node label rest dropped
        dsimp only at walked
        cases read : visit node label with
        | error reason => simp [read] at walked
        | ok references =>
            simp only [read] at walked
            cases added : addReferences conflict references
              { state with pending := rest, seen := node :: state.seen } with
            | error reason => simp [added] at walked
            | ok next =>
                simp only [added] at walked
                exact ih (explored.step dropped read added) walked

/-- What a node refers to does not depend on the label it is visited with. -/
def Stable (visit : κ → τ → Except ε (List (τ × κ))) : Prop :=
  ∀ node left right leftReferences rightReferences, visit node left = .ok leftReferences →
    visit node right = .ok rightReferences → leftReferences = rightReferences

/-- A walk that returns has visited exactly the nodes that can be reached, and has read each. -/
theorem loop_visits (stable : Stable visit)
    (walked : loop visit conflict budget (start root label) = some (.ok visited)) :
    (∀ node, node ∈ visited ↔ Relation.ReflTransGen (Refers visit) root node) ∧
      ∀ node ∈ visited, ∃ label references, visit node label = .ok references := by
  obtain ⟨final, rfl, explored, finished⟩ := loop_explored (Explored.start visit root label) walked
  have complete : ∀ node, node ∈ final.seen ∨ node ∈ final.pending.map Prod.fst →
      node ∈ final.seen :=
    fun node listed => listed.elim id (finished node)
  refine ⟨fun node => ⟨fun member => explored.reached node (.inl member), fun reached => ?_⟩,
    fun node member => ?_⟩
  · induction reached with
    | refl => exact complete root explored.rooted
    | tail _ refers ih =>
        obtain ⟨otherLabel, others, readOther, inside⟩ := refers
        obtain ⟨usedLabel, references, read, followed⟩ := explored.read _ ih
        rw [stable _ _ _ _ _ readOther read] at inside
        exact complete _ (followed _ inside)
  · obtain ⟨usedLabel, references, read, -⟩ := explored.read node member
    exact ⟨usedLabel, references, read⟩

/-- The walk ends when the nodes that can be read are finitely many. -/
theorem loop_ends (domain : List κ)
    (bounded : ∀ node label references, visit node label = .ok references → node ∈ domain)
    (enough : (domain.filter fun node => !state.seen.contains node).length < budget) :
    ∃ result, loop visit conflict budget state = some result := by
  induction budget generalizing state with
  | zero => cases enough
  | succ budget ih =>
      rw [loop]
      split
      · exact ⟨_, rfl⟩
      · rename_i node label rest dropped
        dsimp only
        cases read : visit node label with
        | error reason => exact ⟨_, rfl⟩
        | ok references =>
            dsimp only
            cases added : addReferences conflict references
              { state with pending := rest, seen := node :: state.seen } with
            | error reason => exact ⟨_, rfl⟩
            | ok next =>
                apply ih
                have new := (dropWhile_split dropped).1
                have member : node ∈ domain.filter fun other => !state.seen.contains other := by
                  simp [bounded node label references read, new]
                have fewer : (domain.filter fun other => !next.seen.contains other) =
                    (domain.filter fun other => !state.seen.contains other).filter
                      fun other => decide (other ≠ node) := by
                  rw [List.filter_filter, addReferences_seen added]
                  apply List.filter_congr
                  intro other _
                  simp [Bool.not_or]
                rw [fewer]
                have dropped := List.length_filter_lt_length_iff_exists
                  (p := fun other => decide (other ≠ node))
                    (l := domain.filter fun other => !state.seen.contains other) |>.mpr
                  ⟨node, member, by simp⟩
                omega

end Walk

end Stopan.Lib.GraphWalk
