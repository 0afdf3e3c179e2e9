import Stopan.Lib.Dict

namespace Stopan.Lib

inductive TreeEntry (δ φ : Type) where
  | directory (info : δ)
  | leaf (content : φ)
  deriving DecidableEq, Repr

def TreeEntry.isDirectory {δ φ : Type} : TreeEntry δ φ → Bool
  | .directory _ => true
  | .leaf _ => false

structure FileTree (ν δ φ : Type) [DecidableEq ν] where
  entries : Dict (List ν) (TreeEntry δ φ)
  inDirectories : ∀ path name entry, entries.get? (path ++ [name]) = some entry →
    ∃ info, entries.get? path = some (.directory info)

namespace FileTree

variable {ν δ φ : Type} [DecidableEq ν] (tree : FileTree ν δ φ)

def get? (path : List ν) : Option (TreeEntry δ φ) := tree.entries.get? path

def isDirectory (path : List ν) : Bool := (tree.get? path).any (·.isDirectory)

/-- Nothing stands in the path. -/
def childless (path : List ν) : Bool := tree.entries.keys.all fun other => other.isEmpty ||
    decide (other.dropLast ≠ path)

variable {tree} {path other source target rest : List ν} {entry : TreeEntry δ φ}
  {info : δ} {content : φ}
  {after : FileTree ν δ φ}

theorem isDirectory_eq_true_iff : tree.isDirectory path = true ↔
    ∃ info, tree.get? path = some (.directory info) := by
  unfold isDirectory
  cases found : tree.get? path with
  | none => simp
  | some entry => cases entry <;> simp [TreeEntry.isDirectory]

theorem childless_eq_true_iff : tree.childless path = true ↔
    ∀ name, tree.get? (path ++ [name]) = none := by
  simp only [childless, List.all_eq_true, Bool.or_eq_true, List.isEmpty_iff, decide_eq_true_eq]
  constructor
  · intro free name
    cases found : tree.get? (path ++ [name]) with
    | none => rfl
    | some entry =>
        have listed : path ++ [name] ∈ tree.entries.keys :=
          (Dict.mem_keys_iff _ _).mpr ⟨entry, found⟩
        rcases free _ listed with empty | elsewhere
        · simp at empty
        · simp at elsewhere
  · intro free other listed
    by_contra child
    rw [not_or, not_not] at child
    obtain ⟨some, rfl⟩ := child
    obtain ⟨entry, found⟩ := (Dict.mem_keys_iff _ _).mp listed
    have absent := free (other.getLast some)
    rw [List.dropLast_append_getLast] at absent
    cases absent.symm.trans found

/-- What stands anywhere below an entry makes it a directory. -/
theorem directory_of_below (found : tree.get? (path ++ rest) = some entry) (below : rest ≠ []) :
    ∃ info, tree.get? path = some (.directory info) := by
  induction rest using List.reverseRecOn generalizing entry with
  | nil => exact absurd rfl below
  | append_singleton more name ih =>
      rw [← List.append_assoc] at found
      obtain ⟨info, parent⟩ := tree.inDirectories _ _ _ found
      by_cases last : more = []
      · rw [last, List.append_nil] at parent
        exact ⟨info, parent⟩
      · exact ih parent last

theorem get?_below_none (absent : tree.get? path = none) (rest : List ν) :
    tree.get? (path ++ rest) = none := by
  cases rest with
  | nil => rwa [List.append_nil]
  | cons name more =>
      cases found : tree.get? (path ++ name :: more) with
      | none => rfl
      | some entry =>
          obtain ⟨info, directory⟩ := directory_of_below found (List.cons_ne_nil name more)
          cases absent.symm.trans directory

variable (tree) in
/-- Give a path an entry: its parent is a directory, and what has something below it stays a
directory. -/
def put (path : List ν) (entry : TreeEntry δ φ) : Option (FileTree ν δ φ) :=
  if allowed : (path = [] ∨ tree.isDirectory path.dropLast = true) ∧
    (entry.isDirectory = true ∨ tree.childless path = true) then
    some {
      entries := tree.entries.set path entry
      inDirectories := by
        intro parent name child found
        rw [Dict.get?_set] at found ⊢
        by_cases here : parent = path
        · rw [if_neg (by rw [here]; simp)] at found
          rw [if_pos here]
          subst here
          rcases allowed.2 with directory | free
          · cases entry with
            | directory info => exact ⟨info, rfl⟩
            | leaf content => cases directory
          · cases (childless_eq_true_iff.mp free name).symm.trans found
        · rw [if_neg here]
          split at found
          · rename_i same
            rcases allowed.1 with root | inside
            · simp [root] at same
            · rw [← same, List.dropLast_concat] at inside
              exact isDirectory_eq_true_iff.mp inside
          · exact tree.inDirectories parent name child found }
  else none

theorem get?_put (put : tree.put path entry = some after) (other : List ν) :
    after.get? other = if other = path then some entry else tree.get? other := by
  unfold FileTree.put at put
  split at put
  · cases put
    exact Dict.get?_set ..
  · cases put

variable (tree) in
/-- Take away a path that has nothing below it. -/
def remove (path : List ν) : Option (FileTree ν δ φ) :=
  if free : tree.childless path = true then
    some {
      entries := tree.entries.erase path
      inDirectories := by
        intro parent name child found
        obtain ⟨info, directory⟩ :=
          tree.inDirectories parent name child (Dict.get?_of_get?_erase found)
        rw [Dict.get?_erase, if_neg]
        · exact ⟨info, directory⟩
        · rintro rfl
          cases (childless_eq_true_iff.mp free name).symm.trans (Dict.get?_of_get?_erase found) }
  else none

theorem get?_remove (removed : tree.remove path = some after) (other : List ν) :
    after.get? other = if other = path then none else tree.get? other := by
  unfold remove at removed
  split at removed
  · cases removed
    exact Dict.get?_erase ..
  · cases removed

/-- Where a path is after the renaming. -/
def moved (source target path : List ν) : List ν :=
  if source <+: path then target ++ path.drop source.length else path

theorem moved_below (rest : List ν) : moved source target (source ++ rest) = target ++ rest := by
  rw [moved, if_pos (List.prefix_append _ _), List.drop_left]

theorem moved_elsewhere (elsewhere : ¬ source <+: path) : moved source target path = path :=
  if_neg elsewhere

/-- Nothing is below the target, so no two paths are renamed to one. -/
theorem moved_injective (free : tree.get? target = none) {left right : List ν}
    (leftThere : left ∈ tree.entries.keys) (rightThere : right ∈ tree.entries.keys)
    (same : moved source target left = moved source target right) : left = right := by
  have outside : ∀ rest, target ++ rest ∉ tree.entries.keys := by
    intro rest listed
    obtain ⟨entry, found⟩ := (Dict.mem_keys_iff _ _).mp listed
    cases (get?_below_none free rest).symm.trans found
  by_cases leftBelow : source <+: left
  · obtain ⟨leftRest, rfl⟩ := leftBelow
    rw [moved_below] at same
    by_cases rightBelow : source <+: right
    · obtain ⟨rightRest, rfl⟩ := rightBelow
      rw [moved_below] at same
      rw [List.append_cancel_left same]
    · rw [moved_elsewhere rightBelow] at same
      exact absurd (same ▸ rightThere) (outside leftRest)
  · rw [moved_elsewhere leftBelow] at same
    by_cases rightBelow : source <+: right
    · obtain ⟨rightRest, rfl⟩ := rightBelow
      rw [moved_below] at same
      exact absurd (same ▸ leftThere) (outside rightRest)
    · rwa [moved_elsewhere rightBelow] at same

variable (tree) in
def movedEntries (source target : List ν) : List (List ν × TreeEntry δ φ) :=
  tree.entries.entries.map fun entry => (moved source target entry.1, entry.2)

theorem movedEntries_nodup (free : tree.get? target = none) :
    ((tree.movedEntries source target).map Prod.fst).Nodup := by
  have keys : (tree.movedEntries source target).map Prod.fst = tree.entries.keys.map
      (moved source target) := by
    simp [movedEntries, Dict.keys, Function.comp_def]
  rw [keys]
  exact List.Nodup.map_on (fun left leftThere right rightThere =>
    moved_injective free leftThere rightThere) tree.entries.keys_nodup

variable (tree) in
/-- `rename` of a directory to a path that is free: all that is below it goes along. -/
def rename (source target : List ν) : Option (FileTree ν δ φ) :=
  if allowed : tree.get? target = none ∧ target ≠ [] ∧ tree.isDirectory target.dropLast = true ∧
    ¬ source <+: target then
    some {
      entries := ⟨tree.movedEntries source target, movedEntries_nodup allowed.1⟩
      inDirectories := by
        intro parent name child found
        have listed := Dict.get?_eq_some_iff.mp found
        obtain ⟨⟨path, kept⟩, there, same⟩ := List.mem_map.mp listed
        obtain ⟨located, rfl⟩ := Prod.mk.injEq .. ▸ same
        have stored : tree.get? path = some kept := Dict.get?_eq_some_iff.mpr there
        have place : ∀ old info, moved source target old = parent →
            tree.get? old = some (.directory info) →
            ∃ info, Dict.get? ⟨tree.movedEntries source target,
              movedEntries_nodup allowed.1⟩ parent = some (.directory info) := by
          intro old info same directory
          refine ⟨info, Dict.get?_eq_some_iff.mpr
            (List.mem_map.mpr ⟨(old, .directory info), ?_, by rw [same]⟩)⟩
          exact Dict.get?_eq_some_iff.mp directory
        by_cases below : source <+: path
        · obtain ⟨rest, rfl⟩ := below
          rw [moved_below] at located
          rcases List.eq_nil_or_concat rest with rfl | ⟨shorter, last, rfl⟩
          · -- the directory itself, which now stands in the parent of the target
            rw [List.append_nil] at located
            obtain ⟨info, directory⟩ := isDirectory_eq_true_iff.mp allowed.2.2.1
            rw [located, List.dropLast_concat] at directory
            refine place parent info (moved_elsewhere fun above => allowed.2.2.2 ?_) directory
            exact above.trans (located ▸ List.prefix_append _ _)
          · rw [List.concat_eq_append, ← List.append_assoc] at located stored
            obtain ⟨info, directory⟩ := tree.inDirectories _ _ _ stored
            exact place (source ++ shorter) info
              (by rw [moved_below, (List.append_inj' located rfl).1]) directory
        · rw [moved_elsewhere below] at located
          subst located
          obtain ⟨info, directory⟩ := tree.inDirectories _ _ _ stored
          refine place parent info (moved_elsewhere fun above => below ?_) directory
          exact above.trans (List.prefix_append _ _) }
  else none

/-- What is below the target afterwards was below the source. -/
theorem get?_rename_below (renamed : tree.rename source target = some after) (rest : List ν) :
    after.get? (target ++ rest) = tree.get? (source ++ rest) := by
  unfold rename at renamed
  split at renamed
  case isFalse => cases renamed
  rename_i allowed
  cases renamed
  apply Option.ext
  intro entry
  rw [get?, get?, Dict.get?_eq_some_iff, Dict.get?_eq_some_iff]
  constructor
  · intro listed
    obtain ⟨⟨path, kept⟩, there, same⟩ := List.mem_map.mp listed
    obtain ⟨located, rfl⟩ := Prod.mk.injEq .. ▸ same
    by_cases below : source <+: path
    · obtain ⟨old, rfl⟩ := below
      rw [moved_below] at located
      rwa [← List.append_cancel_left located]
    · rw [moved_elsewhere below] at located
      have stored : tree.get? path = some kept := Dict.get?_eq_some_iff.mpr there
      rw [located, get?_below_none allowed.1] at stored
      cases stored
  · intro listed
    exact List.mem_map.mpr ⟨(source ++ rest, entry), listed, by rw [moved_below]⟩

end FileTree

end Stopan.Lib
