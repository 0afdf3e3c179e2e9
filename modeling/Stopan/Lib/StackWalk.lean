import Mathlib

namespace Stopan.Lib

variable {α β : Type} (out : α → List β) (next : α → List α)

/-- Take nodes from the top of the stack while there are any, at most `fuel` of them. -/
def drain : Nat → List α → List β
  | 0, _ => []
  | _ + 1, [] => []
  | fuel + 1, node :: rest => out node ++ drain fuel (next node ++ rest)

/-- The output of a node and of everything below it. -/
def below : Nat → α → List β
  | 0, _ => []
  | depth + 1, node => out node ++ (next node).flatMap (below depth)

/-- How many nodes there are from a node downwards. -/
def nodesBelow : Nat → α → Nat
  | 0, _ => 0
  | depth + 1, node => 1 + ((next node).map fun child => nodesBelow depth child).sum

/-- There are fewer than `depth` levels below the node. -/
def Shallow : Nat → α → Prop
  | 0, _ => False
  | depth + 1, node => ∀ child ∈ next node, Shallow depth child

variable {out next}

theorem drain_pending {fuel : Nat} (pending : List (Nat × α))
    (shallow : ∀ node ∈ pending, Shallow next node.1 node.2)
    (enough : (pending.map fun node => nodesBelow next node.1 node.2).sum ≤ fuel) :
    drain out next fuel (pending.map Prod.snd) = pending.flatMap
      fun node => below out next node.1 node.2 := by
  induction fuel generalizing pending with
  | zero =>
      cases pending with
      | nil => rfl
      | cons first rest =>
          obtain ⟨depth, node⟩ := first
          cases depth with
          | zero => exact (shallow _ List.mem_cons_self).elim
          | succ depth =>
              simp only [List.map_cons, List.sum_cons, nodesBelow] at enough
              omega
  | succ fuel ih =>
      cases pending with
      | nil => rfl
      | cons first rest =>
          obtain ⟨depth, node⟩ := first
          cases depth with
          | zero => exact (shallow _ List.mem_cons_self).elim
          | succ depth =>
              have children := shallow _ List.mem_cons_self
              have others : ∀ node ∈ rest, Shallow next node.1 node.2 :=
                fun other member => shallow other (List.mem_cons_of_mem _ member)
              have walked := ih ((next node).map (fun child => (depth, child)) ++ rest) ?_ ?_
              · simp only [List.map_append, List.map_map, Function.comp_def, List.map_id'] at walked
                simp only [List.map_cons, drain, walked, List.flatMap_cons, List.flatMap_append,
                  List.flatMap_map, below, List.append_assoc]
              · intro other member
                rcases List.mem_append.mp member with child | later
                · obtain ⟨found, isChild, rfl⟩ := List.mem_map.mp child
                  exact children found isChild
                · exact others other later
              · simp only [List.map_cons, List.sum_cons, nodesBelow] at enough
                simp only [List.map_append, List.map_map, Function.comp_def, List.sum_append]
                omega

/-- A walk from one node with enough steps gives the output of everything below it. -/
theorem drain_eq_below {fuel depth : Nat} {node : α} (shallow : Shallow next depth node)
    (enough : nodesBelow next depth node ≤ fuel) :
    drain out next fuel [node] = below out next depth node := by
  have walked := @drain_pending α β out next fuel [(depth, node)] (by simpa using shallow)
    (by simpa using enough)
  simpa using walked

end Stopan.Lib
