import Stopan.Lib.Dict

namespace Stopan.Lib.Dict

variable {κ ν : Type}

/-- The sum of a measure over the entries. -/
def weight (measure : κ → ν → Nat) (dict : Dict κ ν) : Nat :=
  (dict.entries.map fun entry => measure entry.1 entry.2).sum

variable {dict before middle after : Dict κ ν} {key : κ} {value : ν} {measure other : κ → ν → Nat}

theorem weight_add : dict.weight (fun key value => measure key value + other key value) =
    dict.weight measure + dict.weight other := by
  simp [weight, List.sum_map_add]

/-- Entries that satisfy a condition, counted with the measure. -/
theorem weight_filter (dict : Dict κ ν) (measure : κ → ν → Nat) (keep : κ → ν → Bool) :
    ((dict.entries.filter fun entry => keep entry.1 entry.2).map
      fun entry => measure entry.1 entry.2).sum =
      dict.weight fun key value => if keep key value then measure key value else 0 := by
  unfold weight
  induction dict.entries with
  | nil => rfl
  | cons entry rest ih =>
      by_cases kept : keep entry.1 entry.2 = true
      · simp [kept, ih]
      · simp [kept, ih]

variable [DecidableEq κ]

theorem weight_congr
    (same : ∀ key value, dict.get? key = some value → measure key value = other key value) :
    dict.weight measure = dict.weight other := by
  refine congrArg List.sum (List.map_congr_left ?_)
  intro entry member
  exact same entry.1 entry.2 (get?_eq_some_iff.mpr member)

theorem weight_eq_zero (none : ∀ key value, dict.get? key = some value → measure key value = 0) :
    dict.weight measure = 0 := by
  refine (weight_congr none).trans ?_
  simp [weight]

theorem weight_erase (found : dict.get? key = some value) :
    (dict.erase key).weight measure + measure key value = dict.weight measure := by
  have member := get?_eq_some_iff.mp found
  have split : ∀ entries : List (κ × ν), (entries.map Prod.fst).Nodup → (key, value) ∈ entries →
      ((entries.filter fun entry => decide (entry.1 ≠ key)).map
        fun entry => measure entry.1 entry.2).sum +
        measure key value = (entries.map fun entry => measure entry.1 entry.2).sum := by
    intro entries distinct inside
    induction entries with
    | nil => simp at inside
    | cons entry rest ih =>
        obtain ⟨absent, distinctRest⟩ := List.nodup_cons.mp distinct
        rcases List.mem_cons.mp inside with rfl | later
        · have untouched : (rest.filter fun entry => decide (entry.1 ≠ key)) = rest := by
            refine List.filter_eq_self.mpr ?_
            intro entry member
            have listed : entry.1 ∈ rest.map Prod.fst := List.mem_map_of_mem member
            have different : entry.1 ≠ key := fun equal => absent (equal ▸ listed)
            simpa using different
          rw [List.filter_cons_of_neg (by simp), untouched, List.map_cons,
            List.sum_cons, Nat.add_comm]
        · have listed : key ∈ rest.map Prod.fst := List.mem_map_of_mem later
          have different : entry.1 ≠ key := fun equal => absent (equal ▸ listed)
          rw [List.filter_cons_of_pos (by simpa using different), List.map_cons,
            List.sum_cons, List.map_cons, List.sum_cons, Nat.add_assoc, ih distinctRest later]
  exact split dict.entries dict.nodup member

theorem weight_set_of_not_mem (absent : dict.get? key = none) :
    (dict.set key value).weight measure = dict.weight measure + measure key value := by
  have missing := (get?_eq_none_iff dict key).mp absent
  rw [weight, entries_set_of_not_mem value missing]
  simp [weight]

/-- `after` is `before` without the entries `gone`. -/
structure Erased (before after : Dict κ ν) (gone : List (κ × ν)) : Prop where
  found_iff : ∀ key value, after.get? key = some value ↔ before.get? key = some value ∧
    key ∉ gone.map Prod.fst
  inside : ∀ entry ∈ gone, before.get? entry.1 = some entry.2
  weight : ∀ measure : κ → ν → Nat,
    after.weight measure + (gone.map fun entry => measure entry.1 entry.2).sum =
      before.weight measure

theorem Erased.refl (dict : Dict κ ν) : Erased dict dict [] :=
  ⟨fun key value => by simp, fun entry member => by simp at member, fun measure => by simp⟩

theorem Erased.erase (found : before.get? key = some value) :
    Erased before (before.erase key) [(key, value)] := by
  refine ⟨fun other stored => ?_, fun entry member => ?_, fun measure => ?_⟩
  · rw [get?_erase]
    by_cases same : other = key <;> simp [same]
  · rw [List.mem_singleton.mp member]
    exact found
  · simpa using weight_erase found

theorem Erased.trans {gone more : List (κ × ν)} (first : Erased before middle gone)
    (second : Erased middle after more) :
    Erased before after (gone ++ more) := by
  refine ⟨fun key value => ?_, fun entry member => ?_, fun measure => ?_⟩
  · rw [second.found_iff, first.found_iff, List.map_append, List.mem_append, not_or, and_assoc]
  · rcases List.mem_append.mp member with early | late
    · exact first.inside entry early
    · exact ((first.found_iff entry.1 entry.2).mp (second.inside entry late)).1
  · rw [List.map_append, List.sum_append, ← first.weight measure, ← second.weight measure]
    omega

theorem Erased.found {gone : List (κ × ν)} (erased : Erased before after gone)
    (kept : after.get? key = some value) :
    before.get? key = some value := ((erased.found_iff key value).mp kept).1

/-- A key that is not removed keeps its entry or its absence. -/
theorem Erased.get?_of_not_mem {gone : List (κ × ν)} (erased : Erased before after gone)
    (stays : key ∉ gone.map Prod.fst) : after.get? key = before.get? key := by
  apply Option.ext
  intro value
  rw [erased.found_iff]
  exact and_iff_left stays

theorem Erased.weight_le {gone : List (κ × ν)} (erased : Erased before after gone)
    (measure : κ → ν → Nat) :
    after.weight measure ≤ before.weight measure := by
  have total := erased.weight measure
  omega

/-- A measure that vanishes on the removed entries is unchanged. -/
theorem Erased.weight_eq {gone : List (κ × ν)} (erased : Erased before after gone)
    (vanishes : ∀ entry ∈ gone, measure entry.1 entry.2 = 0) :
    after.weight measure = before.weight measure := by
  have total := erased.weight measure
  have nothing : (gone.map fun entry => measure entry.1 entry.2).sum = 0 := by
    refine List.sum_eq_zero ?_
    intro amount member
    obtain ⟨entry, inside, rfl⟩ := List.mem_map.mp member
    exact vanishes entry inside
  omega

end Stopan.Lib.Dict
