import Stopan.Restore.Restorer

namespace Stopan.Restore

open Stopan.Lib Stopan.Common Stopan.Metadata

/-- The data are chunks with the hashes and sizes of the rows, one after the other. -/
def HoldsChunks (blake3 : Blake3) (rows : List RecipeChunk) (data : Bytes) : Prop :=
  ∃ pieces : List Bytes, data = pieces.flatten ∧ List.Forall₂
    (fun row piece => piece.length = row.chunkSize ∧
      blake3HexDigest blake3 piece = row.chunkHash) rows pieces

section Content

variable {blake3 : Blake3} {rows done : List RecipeChunk} {row : RecipeChunk} {data piece : Bytes}
  {recipeId expectedChunkCount expectedSize : Nat}

theorem HoldsChunks.nil : HoldsChunks blake3 [] [] := ⟨[], rfl, .nil⟩

theorem HoldsChunks.concat (holds : HoldsChunks blake3 rows data)
    (size : piece.length = row.chunkSize) (hash : blake3HexDigest blake3 piece = row.chunkHash) :
    HoldsChunks blake3 (rows ++ [row]) (data ++ piece) := by
  obtain ⟨pieces, rfl, matched⟩ := holds
  refine ⟨pieces ++ [piece], by simp, ?_⟩
  induction matched with
  | nil => exact .cons ⟨size, hash⟩ .nil
  | cons first rest ih => exact .cons first ih

/-- What one row verifies at a position of the data. -/
theorem HoldsChunks.read {position : Nat} (holds : HoldsChunks blake3 done (data.take position))
    (within : position ≤ data.length)
    (size : (readExact data position row.chunkSize).length = row.chunkSize)
    (hash : blake3HexDigest blake3 (readExact data position row.chunkSize) = row.chunkHash) :
    HoldsChunks blake3 (done ++ [row]) (data.take (position + row.chunkSize)) ∧
      position + row.chunkSize ≤ data.length := by
  have longer := holds.concat size hash
  rw [readExact, ← List.take_add] at longer
  rw [readExact, List.length_take, List.length_drop] at size
  exact ⟨longer, by omega⟩

theorem completedChunks_verified {first position chunks bytes : Nat}
    (holds : HoldsChunks blake3 done (data.take position)) (within : position ≤ data.length)
    (verified : completedChunks blake3 recipeId data first position rows = .ok
      (some (chunks, bytes))) :
    HoldsChunks blake3 (done ++ rows) (data.take bytes) ∧ bytes ≤ data.length := by
  induction rows generalizing done first position with
  | nil =>
      cases verified
      rw [List.append_nil]
      exact ⟨holds, within⟩
  | cons row rest ih =>
      rw [completedChunks] at verified
      split at verified
      · cases verified
      split at verified
      · cases verified
      rename_i size
      split at verified
      · cases verified
      rename_i hash
      rw [Decidable.not_not] at size hash
      obtain ⟨longer, inside⟩ := holds.read within size hash
      have last := ih longer inside verified
      rwa [← List.append_cons] at last

/-- A file that passes holds all rows and has the size that is expected. -/
theorem completedContent_true {generated : Generated RecipeChunk}
    (passed : completedContent blake3 recipeId expectedChunkCount expectedSize data generated =
      .ok true) :
    generated.failure = none ∧ HoldsChunks blake3 generated.yielded data ∧
      data.length = expectedSize := by
  obtain ⟨verified, ran, rest⟩ := bind_eq_ok_iff.mp passed
  cases verified with
  | none => cases rest
  | some counts =>
      obtain ⟨chunks, bytes⟩ := counts
      dsimp only at rest
      cases failure : generated.failure with
      | some reason =>
          rw [failure] at rest
          cases rest
      | none =>
          rw [failure] at rest
          obtain ⟨-, rest⟩ := ensure_bind_eq_ok_iff.mp rest
          obtain ⟨size, rest⟩ := ensure_bind_eq_ok_iff.mp rest
          have start : HoldsChunks blake3 [] (data.take 0) := HoldsChunks.nil
          obtain ⟨holds, within⟩ := completedChunks_verified start (Nat.zero_le _) ran
          have ended : (data.drop bytes).isEmpty = true := pure_eq_ok_iff.mp rest
          rw [List.isEmpty_iff, List.drop_eq_nil_iff] at ended
          rw [List.take_of_length_le ended] at holds
          exact ⟨rfl, holds, by rw [beq_iff_eq] at size; omega⟩

/-- The rows that were verified are the first ones, and the bytes are theirs. -/
theorem verifiedRows_verified {first position chunks bytes : Nat} {exhausted : Bool}
    (holds : HoldsChunks blake3 done (data.take position)) (within : position ≤ data.length)
    (verified : verifiedRows blake3 recipeId expectedChunkCount data first position rows = .ok
      (chunks, bytes, exhausted)) :
    ∃ count ≤ rows.length, chunks = first + count ∧
      HoldsChunks blake3 (done ++ rows.take count) (data.take bytes) ∧
      (rows.take count).map (·.order) = List.range' first count := by
  induction rows generalizing done first position with
  | nil =>
      cases verified
      exact ⟨0, Nat.le_refl _, rfl, by simpa using holds, rfl⟩
  | cons row rest ih =>
      have stops : (chunks, bytes, exhausted) = (first, position, false) →
          ∃ count ≤ (row :: rest).length, chunks = first + count ∧
          HoldsChunks blake3 (done ++ (row :: rest).take count) (data.take bytes) ∧
          ((row :: rest).take count).map (·.order) = List.range' first count := by
        intro same
        cases same
        exact ⟨0, Nat.zero_le _, rfl, by simpa using holds, rfl⟩
      rw [verifiedRows] at verified
      split at verified
      · cases verified
      rename_i order
      split at verified
      · exact stops (Except.ok.inj verified).symm
      split at verified
      · exact stops (Except.ok.inj verified).symm
      rename_i size
      split at verified
      · exact stops (Except.ok.inj verified).symm
      rename_i hash
      rw [Decidable.not_not] at order size hash
      obtain ⟨longer, inside⟩ := holds.read within size hash
      split at verified
      · cases verified
        exact ⟨1, by simp, rfl, by simpa using longer, by simp [order]⟩
      · obtain ⟨count, bounded, rfl, last, orders⟩ := ih longer inside verified
        refine ⟨count + 1, by simpa using bounded, by omega, ?_, ?_⟩
        · rwa [List.take_succ_cons, List.append_cons]
        · rw [List.take_succ_cons, List.map_cons, orders, order, List.range'_succ]

theorem verifiedPrefix_verified {generated : Generated RecipeChunk} {chunks bytes : Nat}
    (verified : verifiedPrefix blake3 recipeId expectedChunkCount expectedSize data generated =
      .ok (chunks, bytes)) :
    chunks ≤ generated.yielded.length ∧
      HoldsChunks blake3 (generated.yielded.take chunks) (data.take bytes) ∧
      (generated.yielded.take chunks).map (·.order) = List.range chunks := by
  obtain ⟨⟨count, size, exhausted⟩, ran, rest⟩ := bind_eq_ok_iff.mp verified
  have start : HoldsChunks blake3 [] (data.take 0) := HoldsChunks.nil
  obtain ⟨same, bounded, rfl, holds, orders⟩ := verifiedRows_verified start (Nat.zero_le _) ran
  have returned : (chunks, bytes) = (0 + same, size) := by
    cases exhausted with
    | false =>
        obtain ⟨-, rest⟩ := ensure_bind_eq_ok_iff.mp rest
        exact (pure_eq_ok_iff.mp rest).symm
    | true =>
        cases failure : generated.failure with
        | some reason =>
            rw [failure] at rest
            cases rest
        | none =>
            rw [failure] at rest
            obtain ⟨-, rest⟩ := ensure_bind_eq_ok_iff.mp rest
            exact (pure_eq_ok_iff.mp rest).symm
  cases returned
  rw [Nat.zero_add, List.range_eq_range']
  exact ⟨bounded, holds, orders⟩

end Content

theorem recipeChunkEntries_sorted (db : MetadataDB) (recipeId : Nat) :
    (db.recipeChunkEntries recipeId).Pairwise fun left right => left.order < right.order := by
  have ordered :=
    List.pairwise_insertionSort (fun left right : RecipeChunk => left.order ≤ right.order)
    ((db.recipeChunks.entries.filter fun entry => entry.1.1 == recipeId).map fun entry =>
      { order := entry.1.2, chunkHash := entry.2.chunkHash, chunkSize := entry.2.chunkSize })
  have listed := List.perm_insertionSort (fun left right : RecipeChunk => left.order ≤ right.order)
    ((db.recipeChunks.entries.filter fun entry => entry.1.1 == recipeId).map fun entry =>
      { order := entry.1.2, chunkHash := entry.2.chunkHash, chunkSize := entry.2.chunkSize })
  have distinct : ((db.recipeChunkEntries recipeId).map (·.order)).Nodup := by
    rw [MetadataDB.recipeChunkEntries, (listed.map _).nodup_iff, List.map_map]
    apply List.Nodup.map_on
    · intro left leftIn right rightIn same
      have leftId := (List.mem_filter.mp leftIn).2
      have rightId := (List.mem_filter.mp rightIn).2
      rw [beq_iff_eq] at leftId rightId
      have keys : left.1 = right.1 := Prod.ext (leftId.trans rightId.symm) same
      have leftValue : db.recipeChunks.get? left.1 = some left.2 :=
        Dict.get?_eq_some_iff.mpr (List.mem_filter.mp leftIn).1
      have rightValue : db.recipeChunks.get? right.1 = some right.2 :=
        Dict.get?_eq_some_iff.mpr (List.mem_filter.mp rightIn).1
      rw [keys, rightValue] at leftValue
      exact Prod.ext keys (Option.some.inj leftValue).symm
    · exact (List.Nodup.of_map _ db.recipeChunks.nodup).filter _
  rw [List.Nodup, List.pairwise_map] at distinct
  exact ordered.imp₂ (fun _ _ below different => Nat.lt_of_le_of_ne below different) distinct

/-- The first rows, and those from the order on that they leave open. -/
theorem take_append_filter {rows : List RecipeChunk} {count : Nat}
    (sorted : rows.Pairwise fun left right => left.order < right.order)
    (first : (rows.take count).map (·.order) = List.range count) :
    rows.take count ++ rows.filter (fun row => decide (count ≤ row.order)) = rows := by
  have parts := List.take_append_drop count rows
  have early : ∀ row ∈ rows.take count, row.order < count := by
    intro row member
    have listed : row.order ∈ (rows.take count).map (·.order) := List.mem_map_of_mem member
    rw [first] at listed
    exact List.mem_range.mp listed
  have late : ∀ row ∈ rows.drop count, count ≤ row.order := by
    intro row member
    cases count with
    | zero => exact Nat.zero_le _
    | succ fewer =>
        have last : fewer ∈ (rows.take (fewer + 1)).map (·.order) := by
          rw [first]
          simp
        obtain ⟨before, present, order⟩ := List.mem_map.mp last
        rw [← parts, List.pairwise_append] at sorted
        have above := sorted.2.2 before present row member
        omega
  have none : (rows.take count).filter (fun row => decide (count ≤ row.order)) = [] := by
    rw [List.filter_eq_nil_iff]
    intro row member
    have below := early row member
    simpa using below
  have all : (rows.drop count).filter (fun row => decide (count ≤ row.order)) =
      rows.drop count := by
    rw [List.filter_eq_self]
    intro row member
    simpa using late row member
  calc rows.take count ++ rows.filter (fun row => decide (count ≤ row.order))
      = rows.take count ++ (rows.take count ++ rows.drop count).filter
        (fun row => decide (count ≤ row.order)) := by rw [parts]
    _ = rows.take count ++ rows.drop count := by rw [List.filter_append, none, all, List.nil_append]
    _ = rows := parts

theorem recipeChunkRecords_initial (recipeId first : Nat) (rows : List RecipeChunk) :
    (recipeChunkRecords recipeId first rows).yielded <+: rows ∧
      ((recipeChunkRecords recipeId first rows).failure = none →
        (recipeChunkRecords recipeId first rows).yielded = rows) := by
  induction rows generalizing first with
  | nil => exact ⟨List.prefix_rfl, fun _ => rfl⟩
  | cons row rest ih =>
      rw [recipeChunkRecords]
      split
      · exact ⟨List.nil_prefix, fun ended => by cases ended⟩
      split
      · exact ⟨List.nil_prefix, fun ended => by cases ended⟩
      · obtain ⟨inside, whole⟩ := ih (first + 1)
        exact ⟨List.cons_prefix_cons.mpr ⟨rfl, inside⟩,
          fun ended => congrArg (List.cons row) (whole ended)⟩

theorem iterRecipeChunkEntries_initial (db : MetadataDB) (recipeId start : Nat) :
    (iterRecipeChunkEntries db recipeId start).yielded <+:
        (db.recipeChunkEntries recipeId).filter (fun row => decide (start ≤ row.order)) ∧
      ((iterRecipeChunkEntries db recipeId start).failure = none →
        (iterRecipeChunkEntries db recipeId start).yielded =
          (db.recipeChunkEntries recipeId).filter fun row => decide (start ≤ row.order)) := by
  have nonnegative : ¬ (start : Int) < 0 := by omega
  rw [iterRecipeChunkEntries, if_neg nonnegative, Int.toNat_natCast]
  exact recipeChunkRecords_initial recipeId start _

theorem iterRecipeChunkEntries_zero (db : MetadataDB) (recipeId : Nat) :
    (iterRecipeChunkEntries db recipeId 0).yielded <+: db.recipeChunkEntries recipeId ∧
      ((iterRecipeChunkEntries db recipeId 0).failure = none →
        (iterRecipeChunkEntries db recipeId 0).yielded = db.recipeChunkEntries recipeId) := by
  have all : (db.recipeChunkEntries recipeId).filter (fun row => decide (0 ≤ row.order)) =
      db.recipeChunkEntries recipeId := by
    simp
  have found := iterRecipeChunkEntries_initial db recipeId 0
  rwa [all] at found

/-- The rows of a verified prefix, and those that are fetched after it, are those of the recipe. -/
theorem prefix_append_rest {db : MetadataDB} {recipeId chunks : Nat}
    (bounded : chunks ≤ (iterRecipeChunkEntries db recipeId 0).yielded.length)
    (orders : ((iterRecipeChunkEntries db recipeId 0).yielded.take chunks).map
      (·.order) = List.range chunks)
    (ended : (iterRecipeChunkEntries db recipeId chunks).failure = none) :
    (iterRecipeChunkEntries db recipeId 0).yielded.take chunks ++
      (iterRecipeChunkEntries db recipeId chunks).yielded = db.recipeChunkEntries recipeId := by
  have first : (iterRecipeChunkEntries db recipeId 0).yielded.take chunks =
      (db.recipeChunkEntries recipeId).take chunks := by
    obtain ⟨rest, whole⟩ := (iterRecipeChunkEntries_zero db recipeId).1
    rw [← whole, List.take_append_of_le_length bounded]
  rw [first] at orders
  rw [first, (iterRecipeChunkEntries_initial db recipeId chunks).2 ended]
  exact take_append_filter (recipeChunkEntries_sorted db recipeId) orders

end Stopan.Restore
