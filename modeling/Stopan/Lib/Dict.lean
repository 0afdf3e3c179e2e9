import Mathlib

namespace Stopan.Lib

variable {κ ν μ : Type}

/-- Overwrite the entry of `key` in place, or append a new one. -/
def setEntry [DecidableEq κ] (key : κ) (value : ν) : List (κ × ν) → List (κ × ν)
  | [] => [(key, value)]
  | entry :: rest =>
      if entry.1 = key then (key, value) :: rest else entry :: setEntry key value rest

theorem setEntry_keys [DecidableEq κ] (key : κ) (value : ν) (entries : List (κ × ν)) :
    (setEntry key value entries).map Prod.fst =
      if key ∈ entries.map Prod.fst then entries.map Prod.fst
        else entries.map Prod.fst ++ [key] := by
  induction entries with
  | nil => simp [setEntry]
  | cons entry rest ih =>
      by_cases same : entry.1 = key
      · subst same
        simp [setEntry]
      · have distinct : key ≠ entry.1 := fun equal => same equal.symm
        simp only [setEntry, if_neg same, List.map_cons, ih, List.mem_cons, distinct, false_or]
        split <;> simp

theorem setEntry_of_not_mem [DecidableEq κ] {key : κ} {value : ν} {entries : List (κ × ν)}
    (absent : key ∉ entries.map Prod.fst) :
    setEntry key value entries = entries ++ [(key, value)] := by
  induction entries with
  | nil => rfl
  | cons entry rest ih =>
      simp only [List.map_cons, List.mem_cons, not_or] at absent
      have distinct : ¬ entry.1 = key := fun equal => absent.1 equal.symm
      simp [setEntry, distinct, ih absent.2]

theorem setEntry_keys_nodup [DecidableEq κ] {key : κ} {value : ν} {entries : List (κ × ν)}
    (nodup : (entries.map Prod.fst).Nodup) : ((setEntry key value entries).map Prod.fst).Nodup := by
  rw [setEntry_keys]
  split
  · exact nodup
  · rename_i absent
    exact List.nodup_append.mpr ⟨nodup, by simp, by
      intro left member right single equal
      rw [List.mem_singleton.mp single] at equal
      exact absent (equal ▸ member)⟩

theorem lookup_cons_ite [DecidableEq κ] (key : κ) (entry : κ × ν) (rest : List (κ × ν)) :
    (entry :: rest).lookup key = if key = entry.1 then some entry.2 else rest.lookup key := by
  rw [List.lookup_cons]
  by_cases same : key = entry.1 <;> simp [same, beq_false_of_ne]

theorem lookup_setEntry [DecidableEq κ] (key other : κ) (value : ν) (entries : List (κ × ν)) :
    (setEntry key value entries).lookup other =
      if other = key then some value else entries.lookup other := by
  induction entries with
  | nil => simp [setEntry, lookup_cons_ite]
  | cons entry rest ih =>
      obtain ⟨stored, old⟩ := entry
      by_cases here : stored = key
      · subst here
        by_cases same : other = stored <;> simp [setEntry, lookup_cons_ite, same]
      · simp only [setEntry, if_neg here, lookup_cons_ite, ih]
        by_cases same : other = stored
        · subst same
          simp [here]
        · simp [same]

theorem lookup_eq_some_iff_mem [BEq κ] [LawfulBEq κ] {entries : List (κ × ν)} {key : κ} {value : ν}
    (nodup : (entries.map Prod.fst).Nodup) :
    entries.lookup key = some value ↔ (key, value) ∈ entries := by
  induction entries with
  | nil => simp
  | cons entry rest ih =>
      obtain ⟨stored, old⟩ := entry
      simp only [List.map_cons, List.nodup_cons] at nodup
      by_cases same : key = stored
      · subst same
        have absent : (key, value) ∉ rest := fun member => nodup.1 (List.mem_map_of_mem member)
        simp [absent, eq_comm]
      · simp [List.lookup_cons, beq_false_of_ne same, same, ih nodup.2]

/-- An insertion-ordered dictionary with distinct keys. -/
structure Dict (κ ν : Type) where
  entries : List (κ × ν)
  nodup : (entries.map Prod.fst).Nodup

namespace Dict

theorem ext_entries {left right : Dict κ ν} (equal : left.entries = right.entries) :
    left = right := by
  cases left
  cases right
  simpa using equal

instance [DecidableEq κ] [DecidableEq ν] : DecidableEq (Dict κ ν) := fun left right =>
  decidable_of_iff (left.entries = right.entries) ⟨ext_entries, fun equal => equal ▸ rfl⟩

def empty : Dict κ ν := ⟨[], by simp⟩

def keys (dict : Dict κ ν) : List κ := dict.entries.map Prod.fst

def values (dict : Dict κ ν) : List ν := dict.entries.map Prod.snd

def get? [DecidableEq κ] (dict : Dict κ ν) (key : κ) : Option ν := dict.entries.lookup key

def contains [DecidableEq κ] (dict : Dict κ ν) (key : κ) : Bool := (dict.get? key).isSome

def set [DecidableEq κ] (dict : Dict κ ν) (key : κ) (value : ν) : Dict κ ν :=
  ⟨setEntry key value dict.entries, setEntry_keys_nodup dict.nodup⟩

/-- Replace the value of `key`, starting from `fallback` when the key is new. -/
def modify [DecidableEq κ] (dict : Dict κ ν) (key : κ) (fallback : ν) (change : ν → ν) : Dict κ ν :=
  dict.set key (change ((dict.get? key).getD fallback))

/-- Replace the value of a key that is present; any other key leaves the dictionary as it is. -/
def adjust [DecidableEq κ] (dict : Dict κ ν) (key : κ) (change : ν → ν) : Dict κ ν :=
  match dict.get? key with
  | none => dict
  | some value => dict.set key (change value)

def mapValues (change : κ → ν → μ) (dict : Dict κ ν) : Dict κ μ :=
  ⟨dict.entries.map (fun entry => (entry.1, change entry.1 entry.2)), by
    simpa [List.map_map, Function.comp_def] using dict.nodup⟩

def filter (keep : κ → ν → Bool) (dict : Dict κ ν) : Dict κ ν :=
  ⟨dict.entries.filter (fun entry => keep entry.1 entry.2),
    dict.nodup.sublist ((List.filter_sublist).map Prod.fst)⟩

def erase [DecidableEq κ] (dict : Dict κ ν) (key : κ) : Dict κ ν :=
  dict.filter fun stored _ => stored ≠ key

/-- Overwrite with each pair in turn. -/
def update [DecidableEq κ] (dict : Dict κ ν) (pairs : List (κ × ν)) : Dict κ ν :=
  pairs.foldl (fun dict pair => dict.set pair.1 pair.2) dict

def ofList [DecidableEq κ] (pairs : List (κ × ν)) : Dict κ ν := empty.update pairs

def length (dict : Dict κ ν) : Nat := dict.entries.length

@[simp] theorem keys_empty : (empty : Dict κ ν).keys = [] := rfl

theorem keys_nodup (dict : Dict κ ν) : dict.keys.Nodup := dict.nodup

theorem keys_mapValues (dict : Dict κ ν) (change : κ → ν → μ) :
    (dict.mapValues change).keys = dict.keys := by
  simp [keys, mapValues, List.map_map, Function.comp_def]

section Lemmas

variable [DecidableEq κ] (dict : Dict κ ν) (key other : κ) (value : ν)

@[simp] theorem get?_empty : (empty : Dict κ ν).get? key = none := rfl

theorem get?_set : (dict.set key value).get? other = if other = key then some value
    else dict.get? other :=
  lookup_setEntry key other value dict.entries

@[simp] theorem get?_set_self : (dict.set key value).get? key = some value := by simp [get?_set]

theorem get?_set_of_ne {key other : κ} (distinct : other ≠ key) :
    (dict.set key value).get? other = dict.get? other := by simp [get?_set, distinct]

theorem get?_modify (fallback : ν) (change : ν → ν) :
    (dict.modify key fallback change).get? other =
      if other = key then some (change ((dict.get? key).getD fallback)) else dict.get? other :=
  get?_set ..

theorem get?_adjust (change : ν → ν) :
    (dict.adjust key change).get? other = if other = key then (dict.get? key).map change
      else dict.get? other := by
  unfold adjust
  cases found : dict.get? key with
  | none =>
      by_cases same : other = key
      · simp [same, found]
      · simp [same]
  | some value => simp [get?_set]

variable {dict key value} in
theorem get?_eq_some_iff : dict.get? key = some value ↔ (key, value) ∈ dict.entries :=
  lookup_eq_some_iff_mem dict.nodup

variable {dict key value} in
theorem mem_values_of_get? (found : dict.get? key = some value) : value ∈ dict.values :=
  List.mem_map.mpr ⟨(key, value), get?_eq_some_iff.mp found, rfl⟩

theorem mem_keys_iff : key ∈ dict.keys ↔ ∃ value, dict.get? key = some value := by
  simp only [keys, List.mem_map, Prod.exists, get?_eq_some_iff]
  constructor
  · intro listed
    obtain ⟨stored, value, member, rfl⟩ := listed
    exact ⟨value, member⟩
  · intro stored
    obtain ⟨value, member⟩ := stored
    exact ⟨key, value, member, rfl⟩

theorem get?_eq_none_iff : dict.get? key = none ↔ key ∉ dict.keys := by
  rw [mem_keys_iff, Option.eq_none_iff_forall_ne_some]
  simp

theorem contains_iff : dict.contains key = true ↔ key ∈ dict.keys := by
  rw [mem_keys_iff, contains, Option.isSome_iff_exists]

theorem keys_set : (dict.set key value).keys = if key ∈ dict.keys then dict.keys
    else dict.keys ++ [key] :=
  setEntry_keys key value dict.entries

variable {dict key} in
theorem entries_set_of_not_mem (absent : key ∉ dict.keys) :
    (dict.set key value).entries = dict.entries ++ [(key, value)] :=
  setEntry_of_not_mem absent

theorem mem_keys_set : other ∈ (dict.set key value).keys ↔ other = key ∨ other ∈ dict.keys := by
  rw [keys_set]
  split
  · rename_i present
    constructor
    · exact Or.inr
    · rintro (rfl | member)
      · exact present
      · exact member
  · simp [or_comm]

theorem get?_mapValues (change : κ → ν → μ) :
    (dict.mapValues change).get? key = (dict.get? key).map (change key) := by
  obtain ⟨entries, nodup⟩ := dict
  simp only [get?, mapValues]
  clear nodup
  induction entries with
  | nil => rfl
  | cons entry rest ih =>
      by_cases same : key = entry.1 <;> simp [lookup_cons_ite, same, ih]

variable {dict key value} in
theorem get?_filter_eq_some_iff (keep : κ → ν → Bool) :
    (dict.filter keep).get? key = some value ↔ dict.get? key = some value ∧
      keep key value = true := by
  simp only [get?_eq_some_iff, filter, List.mem_filter]

theorem get?_erase : (dict.erase key).get? other = if other = key then none
    else dict.get? other := by
  by_cases same : other = key
  · subst same
    rw [if_pos rfl, Option.eq_none_iff_forall_ne_some]
    intro value found
    have kept := ((get?_filter_eq_some_iff _).mp found).2
    simp at kept
  · rw [if_neg same]
    apply Option.ext
    intro value
    rw [erase, get?_filter_eq_some_iff]
    simp [same]

variable {dict key other} in
theorem get?_of_get?_erase {found : ν} (located : (dict.erase key).get? other = some found) :
    dict.get? other = some found := by
  rw [get?_erase] at located
  split at located
  · cases located
  · exact located

theorem update_cons (pair : κ × ν) (rest : List (κ × ν)) :
    dict.update (pair :: rest) = (dict.set pair.1 pair.2).update rest := rfl

theorem mem_keys_update (pairs : List (κ × ν)) :
    key ∈ (dict.update pairs).keys ↔ key ∈ pairs.map Prod.fst ∨ key ∈ dict.keys := by
  induction pairs generalizing dict with
  | nil => simp [update]
  | cons pair rest ih =>
      rw [update_cons, ih, mem_keys_set]
      simp only [List.map_cons, List.mem_cons]
      tauto

theorem get?_update_of_not_mem {pairs : List (κ × ν)} (absent : key ∉ pairs.map Prod.fst) :
    (dict.update pairs).get? key = dict.get? key := by
  induction pairs generalizing dict with
  | nil => rfl
  | cons pair rest ih =>
      simp only [List.map_cons, List.mem_cons, not_or] at absent
      rw [update_cons, ih _ absent.2, get?_set_of_ne _ _ absent.1]

theorem get?_update_of_mem {pairs : List (κ × ν)} (distinct : (pairs.map Prod.fst).Nodup)
    (member : (key, value) ∈ pairs) : (dict.update pairs).get? key = some value := by
  induction pairs generalizing dict with
  | nil => cases member
  | cons pair rest ih =>
      simp only [List.map_cons, List.nodup_cons] at distinct
      rw [update_cons]
      cases member with
      | head =>
          rw [get?_update_of_not_mem _ _ distinct.1, get?_set_self]
      | tail _ later => exact ih _ distinct.2 later

variable {dict} in
theorem entries_update_of_disjoint {pairs : List (κ × ν)} (distinct : (pairs.map Prod.fst).Nodup)
    (disjoint : ∀ key ∈ pairs.map Prod.fst, key ∉ dict.keys) :
    (dict.update pairs).entries = dict.entries ++ pairs := by
  induction pairs generalizing dict with
  | nil => simp [update]
  | cons pair rest ih =>
      simp only [List.map_cons, List.nodup_cons] at distinct
      have absent : pair.1 ∉ dict.keys := disjoint pair.1 (by simp)
      have later : ∀ key ∈ rest.map Prod.fst, key ∉ (dict.set pair.1 pair.2).keys := by
        intro key member
        rw [mem_keys_set, not_or]
        exact ⟨fun same => distinct.1 (same ▸ member), disjoint key (by simp [member])⟩
      rw [update_cons, ih distinct.2 later, entries_set_of_not_mem _ absent, List.append_assoc]
      rfl

theorem get?_ofList_of_mem {pairs : List (κ × ν)} (distinct : (pairs.map Prod.fst).Nodup)
    (member : (key, value) ∈ pairs) : (ofList pairs).get? key = some value :=
  get?_update_of_mem _ _ _ distinct member

variable {dict key value} in
theorem get?_update_cases {pairs : List (κ × ν)}
    (found : (dict.update pairs).get? key = some value) :
    (key, value) ∈ pairs ∨ key ∉ pairs.map Prod.fst ∧ dict.get? key = some value := by
  induction pairs generalizing dict with
  | nil => exact .inr ⟨by simp, found⟩
  | cons pair rest ih =>
      rcases ih found with later | ⟨absent, earlier⟩
      · exact .inl (.tail _ later)
      · rw [get?_set] at earlier
        split at earlier
        · rename_i same
          cases earlier
          exact .inl (by simp [same])
        · rename_i different
          exact .inr ⟨by simp [different, absent], earlier⟩

variable {key value} in
theorem mem_of_get?_ofList {pairs : List (κ × ν)} (found : (ofList pairs).get? key = some value) :
    (key, value) ∈ pairs := by
  rcases get?_update_cases found with member | ⟨-, stored⟩
  · exact member
  · simp at stored

end Lemmas

section Grouping

variable {α κ ν : Type} [DecidableEq κ] (keyOf : α → κ) (partOf : α → List ν) (items : List α)
  (groups : Dict κ (List ν)) (key : κ)

/-- A fold that appends to the group of each item has the parts of a group in the order of the
items. -/
theorem get?_foldl_group :
    ((items.foldl (fun groups item => groups.modify (keyOf item) [] (· ++ partOf item)) groups).get?
      key).getD [] =
      (groups.get? key).getD
        [] ++ (items.filter fun item => decide (keyOf item = key)).flatMap partOf := by
  induction items generalizing groups with
  | nil => simp
  | cons item rest ih =>
      rw [List.foldl_cons, ih, get?_modify]
      by_cases here : key = keyOf item
      · subst here
        simp
      · have elsewhere : ¬ keyOf item = key := fun equal => here equal.symm
        simp [here, elsewhere]

theorem mem_keys_foldl_group :
    key ∈ (items.foldl
      (fun groups item => groups.modify (keyOf item) [] (· ++ partOf item)) groups).keys ↔
      key ∈ groups.keys ∨ key ∈ items.map keyOf := by
  induction items generalizing groups with
  | nil => simp
  | cons item rest ih =>
      rw [List.foldl_cons, ih, modify, mem_keys_set, List.map_cons, List.mem_cons]
      tauto

end Grouping

end Dict

end Stopan.Lib
