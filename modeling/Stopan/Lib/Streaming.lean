import Mathlib

namespace Stopan.Lib

variable {χ α : Type}

/-- One message of a stream. -/
inductive Part (χ α : Type) where
  | header (value : χ)
  | block (data : List α)
  | unset
  deriving DecidableEq, Repr

/-- The messages of a stream and the error that breaks it off. -/
structure PartStream (χ α : Type) where
  parts : List (Part χ α)
  failure : Option String
  deriving DecidableEq, Repr

variable {size : Nat} {data : List α}

/-- Blocks of a size, the last one perhaps shorter. -/
def blocksOf (size : Nat) (data : List α) : List (List α) :=
  if size = 0 ∨ data = [] then [] else data.take size :: blocksOf size (data.drop size)
termination_by data.length
decreasing_by
  have positive : data.length ≠ 0 := fun empty => by simp_all
  rw [List.length_drop]
  omega

theorem flatten_blocksOf (positive : 0 < size) : (blocksOf size data).flatten = data := by
  fun_induction blocksOf size data with
  | case1 data stops =>
      rcases stops with zero | empty
      · omega
      · rw [empty, List.flatten_nil]
  | case2 data continues ih => rw [List.flatten_cons, ih, List.take_append_drop]

def blockParts (blocks : List (List α)) : List (Part χ α) := blocks.map .block

inductive GatherFailure where
  | unexpected (received : Nat)
  | exceeded (received : Nat)
  | write (reason : String)
  | broken (reason : String)
  deriving DecidableEq, Repr

/-- Gather the blocks of a stream until a part is no block, the limit is exceeded or a write fails.
Empty blocks are left out. -/
def gather (limit : Nat) (writeError : Nat → Option String) (failure : Option String) :
    List α → List (Part χ α) → List α × Option GatherFailure
  | gathered, [] => (gathered, failure.map .broken)
  | gathered, .header _ :: _ => (gathered, some (.unexpected gathered.length))
  | gathered, .unset :: _ => (gathered, some (.unexpected gathered.length))
  | gathered, .block data :: rest =>
      if data = [] then gather limit writeError failure gathered rest
      else if limit < gathered.length + data.length then
        (gathered, some (.exceeded (gathered.length + data.length)))
      else
        match writeError gathered.length with
        | some reason => (gathered, some (.write reason))
        | none => gather limit writeError failure (gathered ++ data) rest

variable {limit : Nat} {writeError : Nat → Option String} {failure : Option String}
  {gathered whole : List α}
variable {parts : List (Part χ α)}

/-- Gathering ends well only with all blocks of a whole stream, within the limit. -/
theorem gather_eq_none (ended : gather limit writeError failure gathered parts = (whole, none)) :
    failure = none ∧ ∃ blocks, parts = blockParts blocks ∧ whole = gathered ++ blocks.flatten ∧
      (gathered.length ≤ limit → whole.length ≤ limit) := by
  induction parts generalizing gathered with
  | nil =>
      rw [gather, Prod.mk.injEq, Option.map_eq_none_iff] at ended
      obtain ⟨rfl, sound⟩ := ended
      exact ⟨sound, [], rfl, by simp, fun fits => fits⟩
  | cons part rest ih =>
      cases part with
      | header value => cases ended
      | unset => cases ended
      | block data =>
          rw [gather] at ended
          split at ended
          · rename_i empty
            obtain ⟨sound, blocks, rfl, all, fits⟩ := ih ended
            exact ⟨sound, data :: blocks, rfl,
              by rw [all, empty, List.flatten_cons, List.nil_append], fits⟩
          · split at ended
            · cases ended
            · rename_i within
              split at ended
              · cases ended
              · obtain ⟨sound, blocks, rfl, all, fits⟩ := ih ended
                refine ⟨sound, data :: blocks, rfl,
                  by rw [all, List.flatten_cons, List.append_assoc], fun _ => fits ?_⟩
                rw [List.length_append]
                omega

/-- Without errors, all blocks of a whole stream within the limit are gathered. -/
theorem gather_blocks (writes : ∀ offset, writeError offset = none) {blocks : List (List α)}
    (fits : (gathered ++ blocks.flatten).length ≤ limit) :
    gather limit writeError none gathered (blockParts blocks : List (Part χ α)) =
      (gathered ++ blocks.flatten, none) := by
  induction blocks generalizing gathered with
  | nil => simp [gather, blockParts]
  | cons data rest ih =>
      rw [List.flatten_cons, ← List.append_assoc] at fits
      rw [blockParts, List.map_cons, ← blockParts, gather]
      split
      · rename_i empty
        rw [empty, List.append_nil] at fits
        rw [ih fits, empty, List.flatten_cons, List.nil_append]
      · have within : ¬ limit < gathered.length + data.length := by
          rw [List.length_append, List.length_append] at fits
          omega
        rw [if_neg within, writes, ih fits, List.flatten_cons, List.append_assoc]

end Stopan.Lib
