import Stopan.Metadata.Catalog

namespace Stopan.Metadata

open Stopan.Lib Stopan.Common Stopan.Protection

namespace MetadataDB

/-- The checks of `_get_or_create_recipe` on its entries, from an expected order on. -/
def checkRecipeChunks (recipeHash : Text) : Nat → List RecipeChunk → Except StopanError Unit
  | _, [] => .ok ()
  | expectedOrder, chunk :: rest => do
      let _ ← ensure (chunk.order == expectedOrder)
        (.metadataDatabase
          s!"recipe chunks must be contiguous from 0: expected={expectedOrder} got={chunk.order}")
      let _ ← ensure (isValidBlake3Hex chunk.chunkHash)
        (.metadataDatabase
          s!"invalid chunk hash in recipe {String.ofList recipeHash}: {String.ofList chunk.chunkHash}")
      let _ ← ensure (decide (1 ≤ chunk.chunkSize))
        (.metadataDatabase
          s!"invalid chunk size in recipe {String.ofList recipeHash}: {chunk.chunkSize}")
      checkRecipeChunks recipeHash (expectedOrder + 1) rest

def recipeTotalSize (chunks : List RecipeChunk) : Nat := (chunks.map (·.chunkSize)).sum

/-- `SELECT … WHERE recipe_hash = ?`. -/
def findRecipe (db : MetadataDB) (recipeHash : Text) : Option (Nat × RecipeRow) :=
  db.recipes.entries.find? fun entry => entry.2.recipeHash == recipeHash

/-- `INSERT OR IGNORE` followed by the lookup of the row that carries the hash. -/
def resolveRecipe (db : MetadataDB) (recipeHash : Text) (chunkCount totalSize : Nat) :
    MetadataDB × Nat × RecipeRow :=
  match db.findRecipe recipeHash with
  | some found => (db, found.1, found.2)
  | none =>
      let recipeId := db.lastRecipeId + 1
      let row : RecipeRow := { recipeHash, chunkCount, totalSize }
      ({ db with lastRecipeId := recipeId, recipes := db.recipes.set recipeId row }, recipeId, row)

/-- The size that `_register_chunks` collects for each hash of a recipe. -/
def collectChunkSizes : Dict Text Nat → List RecipeChunk → Except StopanError (Dict Text Nat)
  | sizes, [] => .ok sizes
  | sizes, chunk :: rest =>
      match sizes.get? chunk.chunkHash with
      | none => collectChunkSizes (sizes.set chunk.chunkHash chunk.chunkSize) rest
      | some current =>
          if current = chunk.chunkSize then collectChunkSizes sizes rest
          else .error (.metadataDatabase
            (s!"un mismo chunk no puede tener tamaños distintos dentro de una receta: "
            ++ s!"hash={String.ofList chunk.chunkHash} tamaños={current},{chunk.chunkSize}"))

/-- `INSERT OR IGNORE INTO chunks`. -/
def insertChunks (chunks : Dict Text Nat) : List (Text × Nat) → Dict Text Nat
  | [] => chunks
  | entry :: rest =>
      insertChunks (if chunks.contains entry.1 then chunks else chunks.set entry.1 entry.2) rest

/-- The check of the persisted sizes after the insertion. -/
def checkPersistedSizes (chunks : Dict Text Nat) : List (Text × Nat) → Except StopanError Unit
  | [] => .ok ()
  | entry :: rest => do
      let _ ← ensure (chunks.get? entry.1 == some entry.2)
        (.metadataDatabase
          (s!"chunk hash asociado a tamaño inconsistente: hash={String.ofList entry.1} "
          ++ s!"esperado={entry.2}"))
      checkPersistedSizes chunks rest

def registerChunks (db : MetadataDB) (chunks : List RecipeChunk) :
    Except StopanError MetadataDB := do
  let sizes ← collectChunkSizes .empty chunks
  let _ ← sizes.entries.mapM fun entry => bindInteger entry.2
  let registered := insertChunks db.chunks sizes.entries
  let _ ← checkPersistedSizes registered sizes.entries
  return { db with chunks := registered }

/-- The LEFT JOIN of an existing recipe with `chunks` finds no missing or different size. -/
def recipeSizesConsistent (db : MetadataDB) (chunks : List RecipeChunk) : Bool :=
  chunks.all fun chunk => db.chunks.get? chunk.chunkHash == some chunk.chunkSize

def recipeChunkPairs (recipeId : Nat) (chunks : List RecipeChunk) :
    List ((Nat × Nat) × RecipeChunkRow) :=
  chunks.map fun chunk =>
    ((recipeId, chunk.order), { chunkHash := chunk.chunkHash, chunkSize := chunk.chunkSize })

/-- The branch of `_get_or_create_recipe` that runs once the row of the recipe is known. -/
def completeRecipe (db : MetadataDB) (recipeHash : Text) (recipeId : Nat) (row : RecipeRow)
    (chunks : List RecipeChunk) (desiredRf : Nat) : Except StopanError MetadataDB := do
  let _ ← ensure (row.chunkCount == chunks.length && row.totalSize == recipeTotalSize chunks)
    (.metadataDatabase s!"Inconsistent recipe_hash: {String.ofList recipeHash}")
  let existing := db.recipeChunkEntries recipeId
  if existing.isEmpty then
    let registered ← db.registerChunks chunks
    let inserted := { registered with
      recipeChunks := registered.recipeChunks.update (recipeChunkPairs recipeId chunks) }
    return inserted.ensureRecipeProtection recipeId desiredRf
  else
    let _ ← ensure (existing == chunks)
      (.metadataDatabase s!"Inconsistent recipe_chunks for recipe_hash: {String.ofList recipeHash}")
    let _ ← ensure (db.recipeSizesConsistent existing)
      (.metadataDatabase "chunk registrado con tamaño inconsistente para una receta existente")
    return db.ensureRecipeProtection recipeId desiredRf

def getOrCreateRecipe (db : MetadataDB) (recipeHash : Text)
    (chunks : List RecipeChunk) (desiredRf : Nat) :
    Except StopanError (MetadataDB × Nat) := do
  let recipeHash ← requireHash64 "recipe_hash" recipeHash
  let _ ← checkRecipeChunks recipeHash 0 chunks
  let _ ← bindInteger chunks.length
  let _ ← bindInteger (recipeTotalSize chunks)
  let resolved := db.resolveRecipe recipeHash chunks.length (recipeTotalSize chunks)
  let completed ← resolved.1.completeRecipe recipeHash resolved.2.1 resolved.2.2 chunks desiredRf
  return (completed, resolved.2.1)

def consolidateItemRecipe (db : MetadataDB) (itemId : Nat) (recipeHash : Text)
    (chunks : List RecipeChunk) (desiredRf : Nat) : Except StopanError (MetadataDB × Nat) := do
  let resolved ← db.getOrCreateRecipe recipeHash chunks desiredRf
  let assigned ← resolved.1.setItemRecipe itemId resolved.2
  return (assigned, resolved.2)

/-- The UPDATE of a batch of reused recipes; it counts the rows that it changes. -/
def assignRecipes (items : Dict Nat SnapshotItemRow) (assignments : List (Nat × Nat)) :
    Dict Nat SnapshotItemRow :=
  assignments.foldl (fun items assignment =>
    items.adjust assignment.1 fun row => { row with recipeId := some assignment.2 }) items

def reuseItemRecipes (db : MetadataDB) (assignments : List (Nat × Nat)) (desiredRf : Nat) :
    Except StopanError MetadataDB := do
  let updated :=
    (assignments.filter fun assignment => db.snapshotItems.contains assignment.1).length
  let _ ← ensure (assignments.all fun assignment =>
      !db.snapshotItems.contains assignment.1 || db.recipes.contains assignment.2)
    (.integrity "FOREIGN KEY constraint failed")
  let _ ← ensure (updated == assignments.length)
    (.metadataDatabase
      (s!"no se pudieron asociar todas las recetas reutilizadas: esperadas={assignments.length} "
      ++ s!"actualizadas={updated}"))
  return (orderedUnique (assignments.map Prod.snd)).foldl
    (fun db recipeId => db.ensureRecipeProtection recipeId desiredRf)
    { db with snapshotItems := assignRecipes db.snapshotItems assignments }

/-- `(chunk_count, total_size)` of a recipe, checked for a restore. -/
def getRecipeRestoreSummary (db : MetadataDB) (recipeId : Nat) :
    Except StopanError (Nat × Nat) := do
  match db.recipes.get? recipeId with
  | none => .error (.metadataDatabaseValue s!"Recipe does not exist: {recipeId}")
  | some row =>
      let _ ← ensure ((row.chunkCount == 0) == (row.totalSize == 0))
        (.metadataDatabase
          (s!"Resumen de receta inconsistente durante restore: recipe_id={recipeId} "
          ++ s!"chunk_count={row.chunkCount} total_size={row.totalSize}"))
      return (row.chunkCount, row.totalSize)

section Specifications

variable {db after : MetadataDB}

theorem checkRecipeChunks_ok {recipeHash : Text} {first : Nat}
    {chunks : List RecipeChunk} {done : Unit}
    (checked : checkRecipeChunks recipeHash first chunks = .ok done) :
    chunks.map (·.order) = List.range' first chunks.length ∧
      ∀ chunk ∈ chunks, isValidBlake3Hex chunk.chunkHash = true ∧ 1 ≤ chunk.chunkSize := by
  induction chunks generalizing first with
  | nil => simp
  | cons chunk rest ih =>
      rw [checkRecipeChunks] at checked
      obtain ⟨order, checked⟩ := ensure_bind_eq_ok_iff.mp checked
      obtain ⟨hash, checked⟩ := ensure_bind_eq_ok_iff.mp checked
      obtain ⟨size, checked⟩ := ensure_bind_eq_ok_iff.mp checked
      obtain ⟨orders, valid⟩ := ih checked
      refine ⟨?_, ?_⟩
      · simp only [List.map_cons, List.length_cons, List.range'_succ, orders]
        rw [beq_iff_eq.mp order]
      · intro other member
        rcases List.mem_cons.mp member with rfl | later
        · exact ⟨hash, of_decide_eq_true size⟩
        · exact valid other later

/-- The rows of a recipe whose entries are contiguous read back as they were written. -/
theorem recipeChunkEntries_update {recipeId : Nat} {chunks : List RecipeChunk} {first : Nat}
    (contiguous : chunks.map (·.order) = List.range' first chunks.length)
    (absent : db.recipeChunkEntries recipeId = []) (otherId : Nat) :
    { db with recipeChunks := db.recipeChunks.update
                (recipeChunkPairs recipeId chunks) }.recipeChunkEntries otherId =
      if otherId = recipeId then chunks else db.recipeChunkEntries otherId := by
  have keys : (recipeChunkPairs recipeId chunks).map Prod.fst = (chunks.map (·.order)).map
      fun order => (recipeId, order) := by
    simp [recipeChunkPairs, Function.comp_def]
  have distinct : ((recipeChunkPairs recipeId chunks).map Prod.fst).Nodup := by
    rw [keys, contiguous]
    exact (List.nodup_range' ..).map fun left right same => (Prod.mk.inj same).2
  have noRows : (db.recipeChunks.entries.filter fun entry => entry.1.1 == recipeId) = [] := by
    have lengths := congrArg List.length absent
    simpa [recipeChunkEntries, List.length_insertionSort] using lengths
  have disjoint : ∀ key ∈ (recipeChunkPairs recipeId chunks).map Prod.fst,
      key ∉ db.recipeChunks.keys := by
    intro key member present
    rw [keys] at member
    obtain ⟨order, -, rfl⟩ := List.mem_map.mp member
    obtain ⟨entry, stored, same⟩ := List.mem_map.mp present
    have none := List.filter_eq_nil_iff.mp noRows entry stored
    simp [same] at none
  simp only [recipeChunkEntries, Dict.entries_update_of_disjoint distinct disjoint,
    List.filter_append]
  split
  · rename_i same
    subst same
    have all : (recipeChunkPairs otherId chunks).filter (fun entry => entry.1.1 == otherId) =
        recipeChunkPairs otherId chunks := by
      rw [List.filter_eq_self]
      intro entry member
      obtain ⟨chunk, -, rfl⟩ := List.mem_map.mp member
      simp
    rw [noRows, List.nil_append, all]
    have restored : (recipeChunkPairs otherId chunks).map (fun entry =>
        ({ order := entry.1.2, chunkHash := entry.2.chunkHash,
           chunkSize := entry.2.chunkSize } : RecipeChunk)) =
          chunks := by
      simp [recipeChunkPairs, Function.comp_def]
    rw [restored]
    have sorted : chunks.Pairwise fun left right => left.order ≤ right.order := by
      rw [← List.pairwise_map (f := fun chunk : RecipeChunk => chunk.order)
        (R := fun left right => left ≤ right), contiguous]
      exact (List.pairwise_lt_range' ..).imp fun less => Nat.le_of_lt less
    exact sorted.insertionSort_eq
  · rename_i different
    have none : (recipeChunkPairs recipeId chunks).filter
        (fun entry => entry.1.1 == otherId) = [] := by
      rw [List.filter_eq_nil_iff]
      intro entry member
      obtain ⟨chunk, -, rfl⟩ := List.mem_map.mp member
      simpa using fun same : recipeId = otherId => different same.symm
    rw [none, List.append_nil]

/-- The tables that recipe registration does not write, and the protection rows it adds. -/
structure RecipeFrame (db after : MetadataDB) : Prop where
  vaultId : after.vaultId = db.vaultId
  snapshots : after.snapshots = db.snapshots
  lastSnapshotId : after.lastSnapshotId = db.lastSnapshotId
  snapshotItems : after.snapshotItems = db.snapshotItems
  lastItemId : after.lastItemId = db.lastItemId

theorem registerChunks_ok {chunks : List RecipeChunk}
    (registered : db.registerChunks chunks = .ok after) :
    ∃ known, after = { db with chunks := known } := by
  unfold registerChunks at registered
  obtain ⟨sizes, -, registered⟩ := bind_eq_ok_iff.mp registered
  obtain ⟨-, -, registered⟩ := bind_eq_ok_iff.mp registered
  obtain ⟨-, -, registered⟩ := bind_eq_ok_iff.mp registered
  exact ⟨_, (pure_eq_ok_iff.mp registered).symm⟩

/-- The collected size of a hash is the size of every entry that has it. -/
theorem collectChunkSizes_ok {sizes collected : Dict Text Nat} {chunks : List RecipeChunk}
    (done : collectChunkSizes sizes chunks = .ok collected) :
    (∀ hash size, sizes.get? hash = some size → collected.get? hash = some size) ∧
      (∀ chunk ∈ chunks, collected.get? chunk.chunkHash = some chunk.chunkSize) ∧
      ∀ hash ∈ collected.keys, hash ∈ sizes.keys ∨ ∃ chunk ∈ chunks, chunk.chunkHash = hash := by
  induction chunks generalizing sizes with
  | nil =>
      cases done
      exact ⟨fun _ _ known => known, by simp, fun _ member => .inl member⟩
  | cons chunk rest ih =>
      rw [collectChunkSizes] at done
      split at done
      · rename_i absent
        obtain ⟨kept, others, listed⟩ := ih done
        refine ⟨?_, ?_, ?_⟩
        · intro hash size known
          apply kept
          rw [Dict.get?_set_of_ne]
          · exact known
          · rintro rfl
            rw [absent] at known
            cases known
        · intro other member
          rcases List.mem_cons.mp member with rfl | later
          · exact kept _ _ (Dict.get?_set_self ..)
          · exact others other later
        · intro hash member
          rcases listed hash member with earlier | ⟨other, later, same⟩
          · rcases (Dict.mem_keys_set ..).mp earlier with rfl | older
            · exact .inr ⟨chunk, by simp, rfl⟩
            · exact .inl older
          · exact .inr ⟨other, .tail _ later, same⟩
      · rename_i current found
        split at done
        · rename_i same
          obtain ⟨kept, others, listed⟩ := ih done
          refine ⟨kept, ?_, ?_⟩
          · intro other member
            rcases List.mem_cons.mp member with rfl | later
            · exact kept _ _ (same ▸ found)
            · exact others other later
          · intro hash member
            rcases listed hash member with earlier | ⟨other, later, equal⟩
            · exact .inl earlier
            · exact .inr ⟨other, .tail _ later, equal⟩
        · cases done

theorem insertChunks_keeps {chunks : Dict Text Nat} (entries : List (Text × Nat))
    {hash : Text} {size : Nat} (known : chunks.get? hash = some size) :
    (insertChunks chunks entries).get? hash = some size := by
  induction entries generalizing chunks with
  | nil => exact known
  | cons entry rest ih =>
      apply ih
      split
      · exact known
      · rename_i absent
        rw [Dict.get?_set_of_ne]
        · exact known
        · rintro rfl
          exact absent ((Dict.contains_iff ..).mpr ((Dict.mem_keys_iff ..).mpr ⟨size, known⟩))

theorem mem_keys_insertChunks {chunks : Dict Text Nat} {entries : List (Text × Nat)} {hash : Text}
    (member : hash ∈ (insertChunks chunks entries).keys) : hash ∈ chunks.keys ∨
      hash ∈ entries.map Prod.fst := by
  induction entries generalizing chunks with
  | nil => exact .inl member
  | cons entry rest ih =>
      rcases ih member with earlier | later
      · split at earlier
        · exact .inl earlier
        · rcases (Dict.mem_keys_set ..).mp earlier with rfl | older
          · exact .inr (by simp)
          · exact .inl older
      · exact .inr (List.mem_cons_of_mem _ later)

theorem checkPersistedSizes_ok {chunks : Dict Text Nat} {entries : List (Text × Nat)} {done : Unit}
    (checked : checkPersistedSizes chunks entries = .ok done) :
    ∀ entry ∈ entries, chunks.get? entry.1 = some entry.2 := by
  induction entries with
  | nil => simp
  | cons entry rest ih =>
      rw [checkPersistedSizes] at checked
      obtain ⟨persisted, checked⟩ := ensure_bind_eq_ok_iff.mp checked
      intro other member
      rcases List.mem_cons.mp member with rfl | later
      · exact beq_iff_eq.mp persisted
      · exact ih checked other later

/-- The catalog of chunks only grows, by the hashes of the entries, and has their sizes. -/
structure ChunksRegistered (chunks : List RecipeChunk) (before after : Dict Text Nat) : Prop where
  kept : ∀ hash size, before.get? hash = some size → after.get? hash = some size
  sized : ∀ chunk ∈ chunks, after.get? chunk.chunkHash = some chunk.chunkSize
  added : ∀ hash ∈ after.keys, hash ∈ before.keys ∨ ∃ chunk ∈ chunks, chunk.chunkHash = hash

theorem registerChunks_sizes {chunks : List RecipeChunk}
    (registered : db.registerChunks chunks = .ok after) :
    ChunksRegistered chunks db.chunks after.chunks := by
  unfold registerChunks at registered
  obtain ⟨sizes, collected, registered⟩ := bind_eq_ok_iff.mp registered
  obtain ⟨-, -, registered⟩ := bind_eq_ok_iff.mp registered
  obtain ⟨done, persisted, registered⟩ := bind_eq_ok_iff.mp registered
  obtain ⟨-, all, listed⟩ := collectChunkSizes_ok collected
  rw [← pure_eq_ok_iff.mp registered]
  refine ⟨fun hash size known => insertChunks_keeps _ known, ?_, ?_⟩
  · intro chunk member
    exact checkPersistedSizes_ok persisted _ (Dict.get?_eq_some_iff.mp (all chunk member))
  · intro hash member
    rcases mem_keys_insertChunks member with older | new
    · exact .inl older
    · rcases listed hash new with impossible | found
      · simp at impossible
      · exact .inr found

theorem completeRecipe_sizes {recipeHash : Text} {recipeId desiredRf : Nat} {row : RecipeRow}
    {chunks : List RecipeChunk}
    (completed : db.completeRecipe recipeHash recipeId row chunks desiredRf = .ok after) :
    ChunksRegistered chunks db.chunks after.chunks := by
  unfold completeRecipe at completed
  obtain ⟨-, completed⟩ := ensure_bind_eq_ok_iff.mp completed
  dsimp only at completed
  split at completed
  · obtain ⟨registered, written, completed⟩ := bind_eq_ok_iff.mp completed
    have sizes := registerChunks_sizes written
    rw [← pure_eq_ok_iff.mp completed]
    exact sizes
  · obtain ⟨same, completed⟩ := ensure_bind_eq_ok_iff.mp completed
    obtain ⟨consistent, completed⟩ := ensure_bind_eq_ok_iff.mp completed
    rw [← pure_eq_ok_iff.mp completed]
    refine ⟨fun _ _ known => known, ?_, fun _ member => .inl member⟩
    rw [beq_iff_eq.mp same, recipeSizesConsistent, List.all_eq_true] at consistent
    exact fun chunk member => beq_iff_eq.mp (consistent chunk member)

/-- The completed recipe: its counters match, its rows are the entries, nothing else changes but
`chunks` and the protection rows of the recipe. -/
theorem completeRecipe_ok {recipeHash : Text} {recipeId desiredRf : Nat} {row : RecipeRow}
    {chunks : List RecipeChunk}
    (contiguous : chunks.map (·.order) = List.range' 0 chunks.length)
    (completed : db.completeRecipe recipeHash recipeId row chunks desiredRf = .ok after) :
    row.chunkCount = chunks.length ∧ row.totalSize = recipeTotalSize chunks ∧
      (db.recipeChunkEntries recipeId = [] ∨ db.recipeChunkEntries recipeId = chunks) ∧
      ∃ known rows, (∀ otherId, { db with recipeChunks := rows }.recipeChunkEntries otherId =
          if otherId = recipeId then chunks else db.recipeChunkEntries otherId) ∧
        after = { db with chunks := known,
                          recipeChunks := rows }.ensureRecipeProtection recipeId desiredRf := by
  unfold completeRecipe at completed
  obtain ⟨counters, completed⟩ := ensure_bind_eq_ok_iff.mp completed
  simp only [Bool.and_eq_true, beq_iff_eq] at counters
  refine ⟨counters.1, counters.2, ?_⟩
  dsimp only at completed
  split at completed
  · rename_i empty
    obtain ⟨registered, written, completed⟩ := bind_eq_ok_iff.mp completed
    obtain ⟨known, rfl⟩ := registerChunks_ok written
    refine ⟨.inl (List.isEmpty_iff.mp empty), known, _, ?_, (pure_eq_ok_iff.mp completed).symm⟩
    exact recipeChunkEntries_update contiguous (List.isEmpty_iff.mp empty)
  · obtain ⟨same, completed⟩ := ensure_bind_eq_ok_iff.mp completed
    obtain ⟨-, completed⟩ := ensure_bind_eq_ok_iff.mp completed
    refine ⟨.inr (beq_iff_eq.mp same), db.chunks, db.recipeChunks, ?_,
      (pure_eq_ok_iff.mp completed).symm⟩
    intro otherId
    split
    · rename_i equal
      rw [equal]
      exact beq_iff_eq.mp same
    · rfl

/-- The row under which `INSERT OR IGNORE` leaves the recipe. -/
theorem resolveRecipe_cases (db : MetadataDB) (recipeHash : Text) (chunkCount totalSize : Nat) :
    (∃ found, db.findRecipe recipeHash = some found ∧
        db.resolveRecipe recipeHash chunkCount totalSize = (db, found.1, found.2)) ∨
      db.findRecipe recipeHash = none ∧
        db.resolveRecipe recipeHash chunkCount totalSize =
          ({ db with
              lastRecipeId := db.lastRecipeId + 1
              recipes :=
                db.recipes.set (db.lastRecipeId + 1) { recipeHash, chunkCount, totalSize } },
            db.lastRecipeId + 1, { recipeHash, chunkCount, totalSize }) := by
  unfold resolveRecipe
  cases found : db.findRecipe recipeHash with
  | none => exact .inr ⟨rfl, rfl⟩
  | some entry => exact .inl ⟨entry, rfl, rfl⟩

theorem findRecipe_some {recipeHash : Text} {found : Nat × RecipeRow}
    (lookup : db.findRecipe recipeHash = some found) :
    db.recipes.get? found.1 = some found.2 ∧ found.2.recipeHash = recipeHash := by
  refine ⟨Dict.get?_eq_some_iff.mpr (List.mem_of_find?_eq_some lookup), ?_⟩
  simpa using List.find?_some lookup

/-- Everything that registering a recipe establishes. -/
structure RecipeRegistered (db after : MetadataDB) (recipeId : Nat) (chunks : List RecipeChunk)
    (desiredRf : Nat) : Prop where
  frame : RecipeFrame db after
  valid : ∀ chunk ∈ chunks, isValidBlake3Hex chunk.chunkHash = true ∧ 1 ≤ chunk.chunkSize
  contiguous : chunks.map (·.order) = List.range' 0 chunks.length
  row : ∃ row, after.recipes.get? recipeId = some row ∧ row.chunkCount = chunks.length ∧
    row.totalSize = recipeTotalSize chunks
  recipes : after.recipes = db.recipes ∧ after.lastRecipeId = db.lastRecipeId ∨
    recipeId = db.lastRecipeId + 1 ∧ after.lastRecipeId = recipeId ∧
      ∃ row, after.recipes = db.recipes.set recipeId row
  before : db.recipeChunkEntries recipeId = [] ∨ db.recipeChunkEntries recipeId = chunks
  entries : ∀ otherId, after.recipeChunkEntries otherId =
    if otherId = recipeId then chunks else db.recipeChunkEntries otherId
  protection : after.chunkProtection =
    (after.recipeChunkHashes recipeId).foldl (ensureProtectionRow desiredRf) db.chunkProtection
  erasure : after.erasureDataPacks = db.erasureDataPacks ∧
    after.erasurePackChunks = db.erasurePackChunks ∧ after.erasurePackShards = db.erasurePackShards

theorem getOrCreateRecipe_ok {recipeHash : Text} {recipeId desiredRf : Nat}
    {chunks : List RecipeChunk}
    (created : db.getOrCreateRecipe recipeHash chunks desiredRf = .ok (after, recipeId)) :
    RecipeRegistered db after recipeId chunks desiredRf := by
  unfold getOrCreateRecipe at created
  obtain ⟨hash, -, created⟩ := bind_eq_ok_iff.mp created
  obtain ⟨done, checked, created⟩ := bind_eq_ok_iff.mp created
  obtain ⟨contiguous, valid⟩ := checkRecipeChunks_ok checked
  obtain ⟨-, -, created⟩ := bind_eq_ok_iff.mp created
  obtain ⟨-, -, created⟩ := bind_eq_ok_iff.mp created
  obtain ⟨completed, completion, created⟩ := bind_eq_ok_iff.mp created
  have built := pure_eq_ok_iff.mp created
  rw [Prod.mk.injEq] at built
  obtain ⟨rfl, rfl⟩ := built
  obtain ⟨count, total, before, known, rows, entries, rfl⟩ :=
    completeRecipe_ok contiguous completion
  rcases resolveRecipe_cases db hash chunks.length (recipeTotalSize chunks) with
    ⟨found, lookup, resolved⟩ | ⟨-, resolved⟩
  · rw [resolved] at count total before entries ⊢
    exact {
      frame := ⟨rfl, rfl, rfl, rfl, rfl⟩
      valid
      contiguous
      row := ⟨found.2, (findRecipe_some lookup).1, count, total⟩
      recipes := .inl ⟨rfl, rfl⟩
      before
      entries
      protection := rfl
      erasure := ⟨rfl, rfl, rfl⟩ }
  · rw [resolved] at count total before entries ⊢
    exact {
      frame := ⟨rfl, rfl, rfl, rfl, rfl⟩
      valid
      contiguous
      row := ⟨_, Dict.get?_set_self .., rfl, rfl⟩
      recipes := .inr ⟨rfl, rfl, _, rfl⟩
      before
      entries
      protection := rfl
      erasure := ⟨rfl, rfl, rfl⟩ }

theorem getOrCreateRecipe_sizes {recipeHash : Text} {recipeId desiredRf : Nat}
    {chunks : List RecipeChunk}
    (created : db.getOrCreateRecipe recipeHash chunks desiredRf = .ok (after, recipeId)) :
    ChunksRegistered chunks db.chunks after.chunks := by
  unfold getOrCreateRecipe at created
  obtain ⟨hash, -, created⟩ := bind_eq_ok_iff.mp created
  obtain ⟨-, -, created⟩ := bind_eq_ok_iff.mp created
  obtain ⟨-, -, created⟩ := bind_eq_ok_iff.mp created
  obtain ⟨-, -, created⟩ := bind_eq_ok_iff.mp created
  obtain ⟨completed, completion, created⟩ := bind_eq_ok_iff.mp created
  have built := pure_eq_ok_iff.mp created
  rw [Prod.mk.injEq] at built
  obtain ⟨rfl, rfl⟩ := built
  have sizes := completeRecipe_sizes completion
  rcases resolveRecipe_cases db hash chunks.length (recipeTotalSize chunks) with ⟨found, -,
    resolved⟩ | ⟨-, resolved⟩
  · rw [resolved] at sizes
    exact sizes
  · rw [resolved] at sizes
    exact sizes

/-- Recipe ids come from the AUTOINCREMENT counter. -/
def RecipeIdsBounded (db : MetadataDB) : Prop :=
  ∀ recipeId row, db.recipes.get? recipeId = some row → recipeId ≤ db.lastRecipeId

section Registered

variable {recipeId desiredRf : Nat} {chunks : List RecipeChunk}

theorem RecipeRegistered.idsBounded
    (registered : RecipeRegistered db after recipeId chunks desiredRf)
    (bounded : RecipeIdsBounded db) : RecipeIdsBounded after := by
  intro otherId row stored
  rcases registered.recipes with ⟨same, last⟩ | ⟨fresh, last, added, same⟩
  · rw [same] at stored
    rw [last]
    exact bounded otherId row stored
  · rw [same, Dict.get?_set] at stored
    rw [last]
    split at stored
    · rename_i equal
      exact Nat.le_of_eq equal
    · have below := bounded otherId row stored
      omega

/-- A registered recipe never replaces the row of another. -/
theorem RecipeRegistered.kept (registered : RecipeRegistered db after recipeId chunks desiredRf)
    (bounded : RecipeIdsBounded db) {otherId : Nat} {row : RecipeRow}
    (stored : db.recipes.get? otherId = some row) :
    after.recipes.get? otherId = some row := by
  rcases registered.recipes with ⟨same, -⟩ | ⟨fresh, -, added, same⟩
  · rw [same]
    exact stored
  · have below := bounded otherId row stored
    rw [same]
    exact (Dict.get?_set_of_ne _ _ (by omega)).trans stored

theorem RecipeRegistered.known (registered : RecipeRegistered db after recipeId chunks desiredRf)
    {otherId : Nat} {row : RecipeRow} (stored : after.recipes.get? otherId = some row) :
    db.recipes.get? otherId = some row ∨
      otherId = recipeId ∧ row.chunkCount = chunks.length ∧
        row.totalSize = recipeTotalSize chunks := by
  by_cases same : otherId = recipeId
  · obtain ⟨own, located, count, total⟩ := registered.row
    rw [same, located, Option.some.injEq] at stored
    subst stored
    exact .inr ⟨same, count, total⟩
  · left
    rcases registered.recipes with ⟨unchanged, -⟩ | ⟨-, -, added, extended⟩
    · rw [← unchanged]
      exact stored
    · rw [extended] at stored
      exact (Dict.get?_set_of_ne _ _ same).symm.trans stored

/-- Recipes in use keep their rows and their chunks. -/
def RecipesKept (db after : MetadataDB) : Prop :=
  ∀ recipeId row, db.recipes.get? recipeId = some row →
    after.recipes.get? recipeId = some row ∧
      after.recipeChunkEntries recipeId = db.recipeChunkEntries recipeId

/-- The counter of a recipe is the number of its chunks. -/
def RecipesCounted (db : MetadataDB) : Prop :=
  ∀ recipeId row, db.recipes.get? recipeId = some row →
    row.chunkCount = (db.recipeChunkEntries recipeId).length

theorem RecipeRegistered.counted (registered : RecipeRegistered db after recipeId chunks desiredRf)
    (counted : RecipesCounted db) : RecipesCounted after := by
  intro otherId row stored
  rw [registered.entries]
  split
  · rename_i same
    obtain ⟨own, located, count, -⟩ := registered.row
    rw [same, located, Option.some.injEq] at stored
    exact stored ▸ count
  · rename_i different
    rcases registered.known stored with older | ⟨same, -⟩
    · exact counted otherId row older
    · exact absurd same different

theorem RecipeRegistered.recipesKept
    (registered : RecipeRegistered db after recipeId chunks desiredRf)
    (bounded : RecipeIdsBounded db) (counted : RecipesCounted db) : RecipesKept db after := by
  intro otherId row stored
  have kept := registered.kept bounded stored
  refine ⟨kept, ?_⟩
  rw [registered.entries]
  split
  · rename_i same
    subst same
    rcases registered.before with none | same
    · obtain ⟨own, located, count, -⟩ := registered.row
      rw [kept, Option.some.injEq] at located
      have empty := counted otherId row stored
      rw [none, located, count, List.length_nil] at empty
      rw [none, List.length_eq_zero_iff.mp empty]
    · exact same.symm
  · rfl

/-- An empty recipe has no bytes and a recipe with chunks has some. -/
theorem RecipeRegistered.consistent
    (registered : RecipeRegistered db after recipeId chunks desiredRf) :
    chunks.length = 0 ↔ recipeTotalSize chunks = 0 := by
  cases chunks with
  | nil => simp [recipeTotalSize]
  | cons chunk rest =>
      have positive := (registered.valid chunk (by simp)).2
      simp only [List.length_cons, recipeTotalSize, List.map_cons, List.sum_cons]
      omega

end Registered

theorem setItemRecipe_ok {itemId recipeId : Nat}
    (assigned : db.setItemRecipe itemId recipeId = .ok after) :
    ∃ item, db.snapshotItems.get? itemId = some item ∧
      after = { db with
        snapshotItems := db.snapshotItems.set itemId { item with recipeId := some recipeId } } := by
  unfold setItemRecipe at assigned
  cases found : db.snapshotItems.get? itemId with
  | none => simp [found] at assigned
  | some item =>
      simp only [found, Except.ok.injEq] at assigned
      exact ⟨item, rfl, assigned.symm⟩

theorem consolidateItemRecipe_ok {itemId recipeId desiredRf : Nat} {recipeHash : Text}
    {chunks : List RecipeChunk}
    (consolidated : db.consolidateItemRecipe itemId recipeHash chunks desiredRf = .ok
      (after, recipeId)) :
    ∃ registered item, RecipeRegistered db registered recipeId chunks desiredRf ∧
      db.snapshotItems.get? itemId = some item ∧
      after = { registered with
        snapshotItems := db.snapshotItems.set itemId { item with recipeId := some recipeId } } := by
  unfold consolidateItemRecipe at consolidated
  obtain ⟨⟨registered, identifier⟩, created, consolidated⟩ := bind_eq_ok_iff.mp consolidated
  obtain ⟨assigned, assignment, consolidated⟩ := bind_eq_ok_iff.mp consolidated
  have built := pure_eq_ok_iff.mp consolidated
  rw [Prod.mk.injEq] at built
  obtain ⟨rfl, rfl⟩ := built
  have spec := getOrCreateRecipe_ok created
  obtain ⟨item, found, rfl⟩ := setItemRecipe_ok assignment
  rw [spec.frame.snapshotItems] at found ⊢
  exact ⟨registered, item, spec, found, rfl⟩

theorem get?_assignRecipes {items : Dict Nat SnapshotItemRow} {assignments : List (Nat × Nat)}
    {itemId : Nat}
    {item : SnapshotItemRow} (stored : (assignRecipes items assignments).get? itemId = some item) :
    ∃ old, items.get? itemId = some old ∧ (item = old ∨
      ∃ recipeId, (itemId, recipeId) ∈ assignments ∧
        item = { old with recipeId := some recipeId }) := by
  induction assignments generalizing items with
  | nil => exact ⟨item, stored, .inl rfl⟩
  | cons assignment rest ih =>
      obtain ⟨middle, found, outcome⟩ := ih stored
      rw [Dict.get?_adjust] at found
      split at found
      · rename_i same
        obtain ⟨old, present, rfl⟩ := Option.map_eq_some_iff.mp found
        refine ⟨old, same ▸ present, .inr ?_⟩
        rcases outcome with rfl | ⟨recipeId, member, rfl⟩
        · exact ⟨assignment.2, by simp [same], rfl⟩
        · exact ⟨recipeId, .tail _ member, rfl⟩
      · refine ⟨middle, found, ?_⟩
        rcases outcome with rfl | ⟨recipeId, member, rfl⟩
        · exact .inl rfl
        · exact .inr ⟨recipeId, .tail _ member, rfl⟩

/-- Several rounds of `_ensure_recipe_protection` write the protection rows of all the recipes. -/
theorem foldl_ensureRecipeProtection (recipeIds : List Nat) (desiredRf : Nat) :
    recipeIds.foldl (fun db recipeId => db.ensureRecipeProtection recipeId desiredRf) db =
      { db with
        chunkProtection :=
          (recipeIds.flatMap db.recipeChunkHashes).foldl (ensureProtectionRow desiredRf)
          db.chunkProtection } := by
  induction recipeIds generalizing db with
  | nil => rfl
  | cons recipeId rest ih =>
      rw [List.foldl_cons, ih, List.flatMap_cons, List.foldl_append]
      rfl

theorem reuseItemRecipes_eq {assignments : List (Nat × Nat)} {desiredRf : Nat}
    (reused : db.reuseItemRecipes assignments desiredRf = .ok after) :
    after = { db with
      snapshotItems := assignRecipes db.snapshotItems assignments
      chunkProtection :=
        ((orderedUnique (assignments.map Prod.snd)).flatMap db.recipeChunkHashes).foldl
        (ensureProtectionRow desiredRf) db.chunkProtection } := by
  unfold reuseItemRecipes at reused
  obtain ⟨-, reused⟩ := ensure_bind_eq_ok_iff.mp reused
  obtain ⟨-, reused⟩ := ensure_bind_eq_ok_iff.mp reused
  rw [← pure_eq_ok_iff.mp reused, foldl_ensureRecipeProtection]
  rfl

/-- A batch of reused recipes only writes the `recipe_id` of the assigned items and the
protection rows of the assigned recipes. -/
theorem reuseItemRecipes_ok {assignments : List (Nat × Nat)} {desiredRf : Nat}
    (reused : db.reuseItemRecipes assignments desiredRf = .ok after) :
    ∃ hashes : List Text, after = { db with
      snapshotItems := assignRecipes db.snapshotItems assignments
      chunkProtection := hashes.foldl (ensureProtectionRow desiredRf) db.chunkProtection } :=
  ⟨_, reuseItemRecipes_eq reused⟩

end Specifications

end MetadataDB

end Stopan.Metadata
