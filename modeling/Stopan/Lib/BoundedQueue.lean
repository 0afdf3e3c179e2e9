import Mathlib

namespace Stopan.Lib

variable {α : Type}

/-- A queue never holds more than `maxsize` entries. -/
structure BoundedQueue (α : Type) where
  maxsize : Nat
  items : List α
  bounded : items.length ≤ maxsize

namespace BoundedQueue

def create (maxsize : Nat) : BoundedQueue α where
  maxsize := maxsize
  items := []
  bounded := Nat.zero_le _

/-- `none` when the queue is full. -/
def put? (queue : BoundedQueue α) (item : α) : Option (BoundedQueue α) :=
  if room : queue.items.length < queue.maxsize then
    some {
      maxsize := queue.maxsize
      items := queue.items ++ [item]
      bounded := by simpa using room }
  else none

/-- `none` when the queue is empty. -/
def get? (queue : BoundedQueue α) : Option (α × BoundedQueue α) :=
  queue.items.head?.map fun item =>
    (item, {
      maxsize := queue.maxsize
      items := queue.items.tail
      bounded := by
        have bounded := queue.bounded
        rw [List.length_tail]
        omega })

variable {queue after : BoundedQueue α} {item : α}

theorem items_of_put (put : queue.put? item = some after) :
    after.items = queue.items ++ [item] := by
  unfold put? at put
  split at put
  · cases put
    rfl
  · cases put

theorem items_of_get (taken : queue.get? = some (item, after)) :
    queue.items = item :: after.items := by
  unfold get? at taken
  cases items : queue.items with
  | nil => simp [items] at taken
  | cons first rest =>
      simp only [items, List.head?_cons, Option.map_some, List.tail_cons, Option.some.injEq,
        Prod.mk.injEq] at taken
      obtain ⟨rfl, rfl⟩ := taken
      rfl

section Carried

variable {β : Type} (value? : α → Option β)

/-- What the entries carry joins the queue at the end. -/
theorem filterMap_of_put (put : queue.put? item = some after) :
    after.items.filterMap value? = queue.items.filterMap value? ++ (value? item).toList := by
  rw [items_of_put put, List.filterMap_append]
  cases carried : value? item <;> simp [carried]

/-- And leaves it at the front. -/
theorem filterMap_of_get (taken : queue.get? = some (item, after)) :
    queue.items.filterMap value? = (value? item).toList ++ after.items.filterMap value? := by
  rw [items_of_get taken]
  cases carried : value? item <;> simp [carried]

end Carried

theorem put_eq_none_iff : queue.put? item = none ↔ queue.maxsize ≤ queue.items.length := by
  unfold put?
  split
  · rename_i room
    simpa using room
  · rename_i full
    simpa using full

end BoundedQueue

end Stopan.Lib
