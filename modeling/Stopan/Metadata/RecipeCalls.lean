import Stopan.Lib.Crash
import Stopan.Metadata.Recipes

namespace Stopan.Metadata

open Stopan.Lib Stopan.Common Stopan.Protection

/-- Statements on the connection. Each sees what the earlier ones wrote, also when a later one
raises. -/
abbrev Statements (α : Type) := Task MetadataDB StopanError α

/-- `with self.transaction(…)` on a connection that is not in a transaction: commit, or roll back
and raise. -/
def transaction {α : Type} (body : Statements α) (db : MetadataDB) :
    Except StopanError α × MetadataDB :=
  atomically body db

/-- An entry of a recipe as a caller may pass it. -/
structure RecipeChunkArg where
  chunkOrder : Int
  chunkHash : PyText
  chunkSize : Int
  deriving DecidableEq, Repr

/-- The loop of `_get_or_create_recipe` over its arguments. -/
def requireRecipeChunks (recipeHash : Text) : Nat → List RecipeChunkArg →
    Except StopanError (List RecipeChunk)
  | _, [] => .ok []
  | expectedOrder, chunk :: rest => do
      let _ ← ensure (chunk.chunkOrder == expectedOrder)
        (.metadataDatabase
          s!"recipe chunks must be contiguous from 0: expected={expectedOrder} got={chunk.chunkOrder}")
      let invalid :=
        StopanError.metadataDatabase s!"invalid chunk hash in recipe {String.ofList recipeHash}"
      match chunk.chunkHash.mapM PyChar.toScalar? with
      | none => .error invalid
      | some chunkHash =>
          let _ ← ensure (isValidBlake3Hex chunkHash) invalid
          let _ ← ensure (decide (1 ≤ chunk.chunkSize))
            (.metadataDatabase
              s!"invalid chunk size in recipe {String.ofList recipeHash}: {chunk.chunkSize}")
          let others ← requireRecipeChunks recipeHash (expectedOrder + 1) rest
          return { order := expectedOrder, chunkHash, chunkSize := chunk.chunkSize.toNat } :: others

namespace Statements

variable {α : Type}

/-- A step of Python between the statements. -/
def check (outcome : Except StopanError α) : Statements α := Task.inspect fun _ => outcome

def select (query : MetadataDB → α) : Statements α := Task.inspect fun db => .ok (query db)

def execute (change : MetadataDB → MetadataDB) : Statements Unit := Task.operate change

/-- One row of `INSERT OR IGNORE INTO chunks`. -/
def insertChunk (entry : Text × Nat) : Statements Unit := do
  let _ ← check (bindInteger entry.2)
  execute fun db => { db with chunks := MetadataDB.insertChunks db.chunks [entry] }

def registerChunks (chunks : List RecipeChunk) : Statements Unit := do
  let sizes ← check (MetadataDB.collectChunkSizes .empty chunks)
  let _ ← Task.forEach insertChunk sizes.entries
  let registered ← select MetadataDB.chunks
  check (MetadataDB.checkPersistedSizes registered sizes.entries)

def ensureRecipeProtection (recipeId desiredRf : Nat) : Statements Unit := do
  let _ ← check (bindInteger desiredRf)
  execute fun db => db.ensureRecipeProtection recipeId desiredRf

/-- What `_get_or_create_recipe` does with the row of the recipe. -/
def completeRecipe (recipeHash : Text) (recipeId : Nat) (row : RecipeRow)
    (chunks : List RecipeChunk) (desiredRf : Nat) : Statements Unit := do
  let _ ← check (ensure (row.chunkCount == chunks.length &&
    row.totalSize == MetadataDB.recipeTotalSize chunks)
    (.metadataDatabase s!"Inconsistent recipe_hash: {String.ofList recipeHash}"))
  let existing ← select fun db => db.recipeChunkEntries recipeId
  if existing.isEmpty then
    let _ ← registerChunks chunks
    let _ ← execute fun db =>
      { db with recipeChunks := db.recipeChunks.update
                  (MetadataDB.recipeChunkPairs recipeId chunks) }
    ensureRecipeProtection recipeId desiredRf
  else
    let _ ← check (ensure (existing == chunks)
      (.metadataDatabase
        s!"Inconsistent recipe_chunks for recipe_hash: {String.ofList recipeHash}"))
    let consistent ← select fun db => db.recipeSizesConsistent existing
    let _ ← check (ensure consistent
      (.metadataDatabase "chunk registrado con tamaño inconsistente para una receta existente"))
    ensureRecipeProtection recipeId desiredRf

def getOrCreateRecipe (recipeHash : Text) (chunks : List RecipeChunkArg) (desiredRf : Nat) :
    Statements Nat := do
  let recipeHash ← check (requireHash64 "recipe_hash" recipeHash)
  let chunks ← check (requireRecipeChunks recipeHash 0 chunks)
  let _ ← check (bindInteger chunks.length)
  let _ ← check (bindInteger (MetadataDB.recipeTotalSize chunks))
  let _ ← execute
    fun db => (db.resolveRecipe recipeHash chunks.length (MetadataDB.recipeTotalSize chunks)).1
  let found ← select fun db => db.findRecipe recipeHash
  match found with
  | none => Task.raise (.metadataDatabase
    s!"Could not resolve recipe_id for {String.ofList recipeHash}")
  | some (recipeId, row) =>
      let _ ← completeRecipe recipeHash recipeId row chunks desiredRf
      return recipeId

/-- The UPDATE of `_set_item_recipe`, whose row count is checked afterwards. -/
def setItemRecipe (itemId recipeId : Nat) : Statements Unit := do
  let assigned ← Task.inspect fun db => db.setItemRecipe itemId recipeId
  execute fun _ => assigned

def consolidateItemRecipe (itemId : Nat) (recipeHash : Text) (chunks : List RecipeChunkArg)
    (desiredRf : Nat) :
    Statements Nat := do
  let recipeId ← getOrCreateRecipe recipeHash chunks desiredRf
  let _ ← setItemRecipe itemId recipeId
  return recipeId

/-- One row of the `executemany` of `reuse_item_recipes`: the rows it changes. -/
def updateItemRecipe (assignment : Nat × Nat) : Statements Nat := do
  let present ← select fun db => db.snapshotItems.contains assignment.1
  let known ← select fun db => db.recipes.contains assignment.2
  let _ ← check (ensure (!present || known) (.integrity "FOREIGN KEY constraint failed"))
  let _ ← execute fun db =>
    { db with
      snapshotItems :=
        db.snapshotItems.adjust assignment.1 fun row => { row with recipeId := some assignment.2 } }
  return if present then 1 else 0

def reuseItemRecipes (assignments : List (Nat × Nat)) (desiredRf : Nat) : Statements Unit := do
  let counts ← Task.forEach updateItemRecipe assignments
  let updated := counts.sum
  let expected := assignments.length
  let _ ← check (ensure (updated == expected)
    (.metadataDatabase
      s!"no se pudieron asociar todas las recetas reutilizadas: esperadas={expected} actualizadas={updated}"))
  let _ ← Task.forEach (fun recipeId => ensureRecipeProtection recipeId desiredRf)
    (orderedUnique (assignments.map Prod.snd))
  return ()

variable {db after : MetadataDB}

theorem returns_check_iff {outcome : Except StopanError α} {value : α} :
    (check outcome).Returns db value after ↔ outcome = .ok value ∧ db = after := Iff.rfl

theorem returns_select_iff {query : MetadataDB → α} {value : α} :
    (select query).Returns db value after ↔ query db = value ∧ db = after := by
  change (Except.ok (query db) = Except.ok value ∧ db = after) ↔ _
  rw [Except.ok.injEq]

theorem returns_execute_iff {change : MetadataDB → MetadataDB} {done : Unit} :
    (execute change).Returns db done after ↔ change db = after := Task.returns_operate_iff

theorem requireRecipeChunks_ok {recipeHash : Text} {first : Nat} {args : List RecipeChunkArg}
    {chunks : List RecipeChunk}
    (required : requireRecipeChunks recipeHash first args = .ok chunks) :
    MetadataDB.checkRecipeChunks recipeHash first chunks = .ok () := by
  induction args generalizing first chunks with
  | nil =>
      cases required
      rfl
  | cons arg rest ih =>
      rw [requireRecipeChunks] at required
      obtain ⟨-, required⟩ := ensure_bind_eq_ok_iff.mp required
      dsimp only at required
      split at required
      · cases required
      · rename_i hash scalars
        obtain ⟨valid, required⟩ := ensure_bind_eq_ok_iff.mp required
        obtain ⟨positive, required⟩ := ensure_bind_eq_ok_iff.mp required
        obtain ⟨others, checked, required⟩ := bind_eq_ok_iff.mp required
        cases pure_eq_ok_iff.mp required
        have size : decide (1 ≤ arg.chunkSize.toNat) = true := by
          rw [decide_eq_true_eq] at positive ⊢
          omega
        rw [MetadataDB.checkRecipeChunks]
        simp only [beq_self_eq_true, valid, size, ensure, if_true]
        exact ih checked

theorem returns_insertChunks {entries : List (Text × Nat)} {done : List Unit}
    (inserted : (Task.forEach insertChunk entries).Returns db done after) :
    (∃ bound, entries.mapM (fun entry => bindInteger entry.2) = .ok bound) ∧
      after = { db with chunks := MetadataDB.insertChunks db.chunks entries } := by
  induction entries generalizing db done with
  | nil =>
      obtain ⟨-, rfl⟩ := Task.returns_pure_iff.mp inserted
      exact ⟨⟨[], rfl⟩, rfl⟩
  | cons entry rest ih =>
      simp only [Task.forEach, insertChunk, Task.returns_bind_iff, returns_check_iff,
        returns_execute_iff, Task.returns_pure_iff] at inserted
      obtain ⟨_, middle, ⟨number, _, ⟨bound, rfl⟩, rfl⟩, more, final, others, -, rfl⟩ := inserted
      obtain ⟨⟨numbers, allBound⟩, rfl⟩ := ih others
      refine ⟨⟨number :: numbers, ?_⟩, ?_⟩
      · rw [List.mapM_cons, bound, allBound]
        rfl
      · rfl

theorem returns_registerChunks {chunks : List RecipeChunk} {done : Unit}
    (registered : (registerChunks chunks).Returns db done after) :
    db.registerChunks chunks = .ok after := by
  simp only [registerChunks, Task.returns_bind_iff, returns_check_iff,
    returns_select_iff] at registered
  obtain ⟨sizes, _, ⟨collected, rfl⟩, _, middle, inserted, _, _, ⟨rfl, rfl⟩, persisted, rfl⟩ :=
    registered
  obtain ⟨⟨bound, allBound⟩, rfl⟩ := returns_insertChunks inserted
  rw [MetadataDB.registerChunks]
  simp only [bind_eq_ok_iff, pure_eq_ok_iff]
  exact ⟨sizes, collected, bound, allBound, done, persisted, rfl⟩

theorem returns_ensureRecipeProtection {recipeId desiredRf : Nat} {done : Unit}
    (ensured : (ensureRecipeProtection recipeId desiredRf).Returns db done after) :
    after = db.ensureRecipeProtection recipeId desiredRf := by
  simp only [ensureRecipeProtection, Task.returns_bind_iff, returns_check_iff,
    returns_execute_iff] at ensured
  obtain ⟨_, _, ⟨-, rfl⟩, rfl⟩ := ensured
  rfl

theorem returns_completeRecipe {recipeHash : Text} {recipeId desiredRf : Nat} {row : RecipeRow}
    {chunks : List RecipeChunk} {done : Unit}
    (completed : (completeRecipe recipeHash recipeId row chunks desiredRf).Returns db done after) :
    db.completeRecipe recipeHash recipeId row chunks desiredRf = .ok after := by
  simp only [completeRecipe, Task.returns_bind_iff, returns_check_iff,
    returns_select_iff] at completed
  obtain ⟨_, _, ⟨counters, rfl⟩, existing, _, ⟨rfl, rfl⟩, completed⟩ := completed
  rw [MetadataDB.completeRecipe]
  refine bind_eq_ok_iff.mpr ⟨_, counters, ?_⟩
  split at completed
  · rename_i empty
    simp only [Task.returns_bind_iff, returns_execute_iff] at completed
    obtain ⟨_, middle, registered, _, _, rfl, ensured⟩ := completed
    rw [returns_ensureRecipeProtection ensured]
    dsimp only
    rw [if_pos empty]
    exact bind_eq_ok_iff.mpr ⟨middle, returns_registerChunks registered, rfl⟩
  · rename_i nonempty
    simp only [Task.returns_bind_iff, returns_check_iff, returns_select_iff] at completed
    obtain ⟨same, _, ⟨equal, rfl⟩, consistent, _, ⟨rfl, rfl⟩, fine, _, ⟨sizes, rfl⟩, ensured⟩ :=
      completed
    rw [returns_ensureRecipeProtection ensured]
    dsimp only
    rw [if_neg nonempty]
    exact bind_eq_ok_iff.mpr ⟨same, equal, bind_eq_ok_iff.mpr ⟨fine, sizes, rfl⟩⟩

/-- The recipe is found under the id that the INSERT left it. -/
theorem findRecipe_resolveRecipe (recipeHash : Text) (chunkCount totalSize : Nat)
    {found : Nat × RecipeRow} (bounded : db.RecipeIdsBounded)
    (lookup : (db.resolveRecipe recipeHash chunkCount totalSize).1.findRecipe recipeHash =
      some found) :
    (db.resolveRecipe recipeHash chunkCount totalSize).2 = found := by
  rcases MetadataDB.resolveRecipe_cases db recipeHash chunkCount totalSize with
    ⟨known, located, resolved⟩ | ⟨absent, resolved⟩
  · rw [resolved] at lookup ⊢
    rw [located, Option.some.injEq] at lookup
    exact lookup
  · rw [resolved] at lookup ⊢
    have fresh : db.lastRecipeId + 1 ∉ db.recipes.keys := by
      intro member
      obtain ⟨row, stored⟩ := (Dict.mem_keys_iff ..).mp member
      have below := bounded _ _ stored
      omega
    have added :=
      Dict.entries_set_of_not_mem ({ recipeHash, chunkCount, totalSize } : RecipeRow) fresh
    rw [MetadataDB.findRecipe] at absent
    rw [MetadataDB.findRecipe] at lookup
    dsimp only at lookup
    rw [added, List.find?_append, absent] at lookup
    simpa using lookup

theorem returns_getOrCreateRecipe {recipeHash : Text} {args : List RecipeChunkArg}
    {desiredRf recipeId : Nat} (bounded : db.RecipeIdsBounded)
    (created : (getOrCreateRecipe recipeHash args desiredRf).Returns db recipeId after) :
    ∃ chunks, db.getOrCreateRecipe recipeHash chunks desiredRf = .ok (after, recipeId) := by
  simp only [getOrCreateRecipe, Task.returns_bind_iff, returns_check_iff, returns_select_iff,
    returns_execute_iff] at created
  obtain ⟨hash, _, ⟨valid, rfl⟩, chunks, _, ⟨required, rfl⟩, count, _, ⟨countBound, rfl⟩, total,
    _, ⟨totalBound, rfl⟩, _, _, rfl, found, _, ⟨lookup, rfl⟩, created⟩ := created
  cases found with
  | none => exact absurd created Task.returns_raise_iff.mp
  | some entry =>
      have resolved := findRecipe_resolveRecipe hash chunks.length
        (MetadataDB.recipeTotalSize chunks) bounded lookup
      simp only [Task.returns_bind_iff, Task.returns_pure_iff] at created
      obtain ⟨_, middle, completed, rfl, rfl⟩ := created
      refine ⟨chunks, ?_⟩
      rw [MetadataDB.getOrCreateRecipe]
      simp only [bind_eq_ok_iff, pure_eq_ok_iff]
      refine ⟨hash, valid, (), requireRecipeChunks_ok required, count, countBound, total,
        totalBound, middle, ?_, ?_⟩
      · rw [resolved]
        exact returns_completeRecipe completed
      · rw [resolved]

theorem returns_consolidateItemRecipe {recipeHash : Text} {args : List RecipeChunkArg}
    {itemId desiredRf recipeId : Nat} (bounded : db.RecipeIdsBounded)
    (consolidated : (consolidateItemRecipe itemId recipeHash args desiredRf).Returns
      db recipeId after) :
    ∃ registered chunks snapshotItems,
      db.getOrCreateRecipe recipeHash chunks desiredRf = .ok (registered, recipeId) ∧
        after = { registered with snapshotItems } := by
  simp only [consolidateItemRecipe, setItemRecipe, Task.returns_bind_iff, Task.returns_inspect_iff,
    returns_execute_iff, Task.returns_pure_iff] at consolidated
  obtain ⟨identifier, registered, created, _, _, ⟨assigned, _, ⟨assignment, rfl⟩, rfl⟩, rfl, rfl⟩ :=
    consolidated
  obtain ⟨chunks, created⟩ := returns_getOrCreateRecipe bounded created
  obtain ⟨item, -, rfl⟩ := MetadataDB.setItemRecipe_ok assignment
  exact ⟨registered, chunks, _, created, rfl⟩

/-- The rows of `executemany` one after another. -/
theorem returns_updateItemRecipes {assignments : List (Nat × Nat)} {counts : List Nat}
    (updated : (Task.forEach updateItemRecipe assignments).Returns db counts after) :
    after = { db with snapshotItems := MetadataDB.assignRecipes db.snapshotItems assignments } := by
  induction assignments generalizing db counts with
  | nil =>
      obtain ⟨-, rfl⟩ := Task.returns_pure_iff.mp updated
      rfl
  | cons assignment rest ih =>
      simp only [Task.forEach, updateItemRecipe, Task.returns_bind_iff,
        returns_check_iff, returns_select_iff,
        returns_execute_iff, Task.returns_pure_iff] at updated
      obtain ⟨count, _, ⟨present, _, ⟨rfl, rfl⟩, known, _, ⟨rfl, rfl⟩, _, _, ⟨-, rfl⟩, _, _, rfl, -,
        rfl⟩, others, final, updated, -, rfl⟩ := updated
      exact ih updated

theorem returns_ensureRecipeProtections {recipeIds : List Nat} {desiredRf : Nat} {done : List Unit}
    (ensured : (Task.forEach (fun recipeId => ensureRecipeProtection recipeId desiredRf)
      recipeIds).Returns db done after) :
    after = recipeIds.foldl
      (fun db recipeId => db.ensureRecipeProtection recipeId desiredRf) db := by
  induction recipeIds generalizing db done with
  | nil =>
      obtain ⟨-, rfl⟩ := Task.returns_pure_iff.mp ensured
      rfl
  | cons recipeId rest ih =>
      simp only [Task.forEach, Task.returns_bind_iff, Task.returns_pure_iff] at ensured
      obtain ⟨_, middle, first, others, final, later, -, rfl⟩ := ensured
      rw [List.foldl_cons, ← returns_ensureRecipeProtection first]
      exact ih later

theorem returns_reuseItemRecipes {assignments : List (Nat × Nat)} {desiredRf : Nat} {done : Unit}
    (reused : (reuseItemRecipes assignments desiredRf).Returns db done after) :
    ∃ snapshotItems, after = { db with
      snapshotItems
      chunkProtection :=
        ((orderedUnique (assignments.map Prod.snd)).flatMap db.recipeChunkHashes).foldl
        (ensureProtectionRow desiredRf) db.chunkProtection } := by
  simp only [reuseItemRecipes, Task.returns_bind_iff, returns_check_iff,
    Task.returns_pure_iff] at reused
  obtain ⟨counts, middle, updated, _, _, ⟨-, rfl⟩, others, final, ensured, -, rfl⟩ := reused
  rw [returns_ensureRecipeProtections ensured, MetadataDB.foldl_ensureRecipeProtection,
    returns_updateItemRecipes updated]
  exact ⟨_, rfl⟩

end Statements

namespace MetadataDB

variable {db after : MetadataDB}

/-- What the recipes, the chunks and the protection rows say about each other. -/
structure RecipesConsistent (db : MetadataDB) : Prop where
  idsBounded : RecipeIdsBounded db
  orders : ∀ recipeId row, db.recipes.get? recipeId = some row →
    (db.recipeChunkEntries recipeId).map (·.order) = List.range row.chunkCount
  total : ∀ recipeId row, db.recipes.get? recipeId = some row →
    recipeTotalSize (db.recipeChunkEntries recipeId) = row.totalSize
  sized : ∀ recipeId, ∀ chunk ∈ db.recipeChunkEntries recipeId, db.chunks.get? chunk.chunkHash =
    some chunk.chunkSize
  covered : ∀ recipeId, ∀ chunk ∈ db.recipeChunkEntries recipeId,
    chunk.chunkHash ∈ db.chunkProtection.keys

theorem RecipesConsistent.counted (consistent : RecipesConsistent db) : RecipesCounted db := by
  intro recipeId row stored
  have lengths := congrArg List.length (consistent.orders recipeId row stored)
  rw [List.length_map, List.length_range] at lengths
  exact lengths.symm

theorem mem_keys_ensureProtectionRow {desiredRf : Nat} {table : Dict Text ProtectionRecord}
    {chunkHash hash : Text} :
    hash ∈ (ensureProtectionRow desiredRf table chunkHash).keys ↔ hash = chunkHash ∨
      hash ∈ table.keys := by
  unfold ensureProtectionRow
  cases stored : table.get? chunkHash with
  | none => exact Dict.mem_keys_set ..
  | some row =>
      have present : chunkHash ∈ table.keys := (Dict.mem_keys_iff ..).mpr ⟨row, stored⟩
      dsimp only
      split
      · exact Dict.mem_keys_set ..
      · constructor
        · exact .inr
        · rintro (rfl | member)
          · exact present
          · exact member

theorem mem_keys_foldl_ensureProtectionRow {desiredRf : Nat} {table : Dict Text ProtectionRecord}
    {hashes : List Text} {hash : Text} :
    hash ∈ (hashes.foldl (ensureProtectionRow desiredRf) table).keys ↔ hash ∈ hashes ∨
      hash ∈ table.keys := by
  induction hashes generalizing table with
  | nil => simp
  | cons first rest ih =>
      rw [List.foldl_cons, ih, mem_keys_ensureProtectionRow, List.mem_cons]
      tauto

theorem mem_recipeChunkHashes {recipeId : Nat} {hash : Text} :
    hash ∈ db.recipeChunkHashes recipeId ↔
      ∃ chunk ∈ db.recipeChunkEntries recipeId, chunk.chunkHash = hash := by
  rw [recipeChunkHashes, mem_orderedUnique, List.mem_map]

theorem recipesConsistent_empty : RecipesConsistent .empty where
  idsBounded := by
    intro recipeId row stored
    cases stored
  orders := by
    intro recipeId row stored
    cases stored
  total := by
    intro recipeId row stored
    cases stored
  sized := by
    intro recipeId chunk member
    cases member
  covered := by
    intro recipeId chunk member
    cases member

/-- The tables that hold the recipes are the same, and no protection row is lost. -/
theorem RecipesConsistent.frame (consistent : RecipesConsistent db)
    (recipes : after.recipes = db.recipes)
    (last : after.lastRecipeId = db.lastRecipeId) (rows : after.recipeChunks = db.recipeChunks)
    (chunks : after.chunks = db.chunks)
    (protection : ∀ hash ∈ db.chunkProtection.keys, hash ∈ after.chunkProtection.keys) :
    RecipesConsistent after := by
  have entries : ∀ recipeId, after.recipeChunkEntries recipeId =
      db.recipeChunkEntries recipeId := by
    intro recipeId
    rw [recipeChunkEntries, recipeChunkEntries, rows]
  refine ⟨?_, ?_, ?_, ?_, ?_⟩
  · rw [RecipeIdsBounded, recipes, last]
    exact consistent.idsBounded
  · simp only [recipes, entries]
    exact consistent.orders
  · simp only [recipes, entries]
    exact consistent.total
  · simp only [chunks, entries]
    exact consistent.sized
  · intro recipeId chunk member
    rw [entries] at member
    exact protection _ (consistent.covered recipeId chunk member)

/-- A registered recipe is consistent with its own entries, and the others stay as they were. -/
theorem RecipesConsistent.register (consistent : RecipesConsistent db) {recipeHash : Text}
    {recipeId desiredRf : Nat} {chunks : List RecipeChunk}
    (created : db.getOrCreateRecipe recipeHash chunks desiredRf = .ok (after, recipeId)) :
    RecipesConsistent after := by
  have registered := getOrCreateRecipe_ok created
  have sizes := getOrCreateRecipe_sizes created
  obtain ⟨own, located, count, total⟩ := registered.row
  have protection : ∀ hash, hash ∈ db.chunkProtection.keys ∨
      (∃ chunk ∈ chunks, chunk.chunkHash = hash) → hash ∈ after.chunkProtection.keys := by
    intro hash known
    rw [registered.protection, mem_keys_foldl_ensureProtectionRow, mem_recipeChunkHashes,
      registered.entries, if_pos rfl]
    exact known.symm
  refine ⟨registered.idsBounded consistent.idsBounded, ?_, ?_, ?_, ?_⟩
  · intro otherId row stored
    rw [registered.entries]
    split
    · rename_i same
      rw [same, located, Option.some.injEq] at stored
      rw [registered.contiguous, ← stored, count, List.range_eq_range']
    · rename_i different
      rcases registered.known stored with older | ⟨same, -⟩
      · exact consistent.orders otherId row older
      · exact absurd same different
  · intro otherId row stored
    rw [registered.entries]
    split
    · rename_i same
      rw [same, located, Option.some.injEq] at stored
      rw [← stored, total]
    · rename_i different
      rcases registered.known stored with older | ⟨same, -⟩
      · exact consistent.total otherId row older
      · exact absurd same different
  · intro otherId chunk member
    rw [registered.entries] at member
    split at member
    · exact sizes.sized chunk member
    · exact sizes.kept _ _ (consistent.sized otherId chunk member)
  · intro otherId chunk member
    rw [registered.entries] at member
    split at member
    · exact protection _ (.inr ⟨chunk, member, rfl⟩)
    · exact protection _ (.inl (consistent.covered otherId chunk member))

end MetadataDB

/-- The recipe calls, and the calls that give them items to work on. -/
inductive RecipeCall where
  | createSnapshot (snapshotUuid createdAt : Text) (rootPath : PyText) (originNodeId : Text)
  | addItems (snapshotId : Nat) (entries : List WalkEntry)
  | getOrCreateRecipe (recipeHash : Text) (chunks : List RecipeChunkArg) (desiredRf : Nat)
  | consolidateItemRecipe (itemId : Nat) (recipeHash : Text) (chunks : List RecipeChunkArg)
      (desiredRf : Nat)
  | reuseItemRecipes (assignments : List (Nat × Nat)) (desiredRf : Nat)

/-- A statement that commits by itself, or changes nothing. -/
def MetadataDB.autocommit {α : Type} (db : MetadataDB)
    (outcome : Except StopanError (MetadataDB × α)) :
    Except StopanError Unit × MetadataDB :=
  match outcome with
  | .error reason => (.error reason, db)
  | .ok (after, _) => (.ok (), after)

/-- `reuse_item_recipes` returns before its transaction when there is nothing to do. -/
def MetadataDB.performRecipeCall (db : MetadataDB) :
    RecipeCall → Except StopanError Unit × MetadataDB
  | .createSnapshot snapshotUuid createdAt rootPath originNodeId =>
      db.autocommit (db.createSnapshot snapshotUuid createdAt rootPath originNodeId)
  | .addItems snapshotId entries => db.autocommit (db.addItems snapshotId entries)
  | .getOrCreateRecipe recipeHash chunks desiredRf =>
      transaction (do
        let _ ← Statements.getOrCreateRecipe recipeHash chunks desiredRf
        return ()) db
  | .consolidateItemRecipe itemId recipeHash chunks desiredRf =>
      transaction (do
        let _ ← Statements.consolidateItemRecipe itemId recipeHash chunks desiredRf
        return ()) db
  | .reuseItemRecipes assignments desiredRf =>
      if assignments.isEmpty then (.ok (), db)
      else transaction (Statements.reuseItemRecipes assignments desiredRf) db

namespace MetadataDB

variable {db : MetadataDB}

theorem performRecipeCall_error {call : RecipeCall} {reason : StopanError}
    (raised : (db.performRecipeCall call).1 = .error reason) :
    (db.performRecipeCall call).2 = db := by
  have autocommits : ∀ {α : Type} {outcome : Except StopanError (MetadataDB × α)},
      (db.autocommit outcome).1 = .error reason → (db.autocommit outcome).2 = db := by
    intro α outcome failed
    cases outcome with
    | error other => rfl
    | ok result => cases failed
  cases call with
  | createSnapshot snapshotUuid createdAt rootPath originNodeId => exact autocommits raised
  | addItems snapshotId entries => exact autocommits raised
  | getOrCreateRecipe recipeHash chunks desiredRf => exact atomically_eq_error raised
  | consolidateItemRecipe itemId recipeHash chunks desiredRf => exact atomically_eq_error raised
  | reuseItemRecipes assignments desiredRf =>
      rw [performRecipeCall] at raised ⊢
      by_cases empty : assignments.isEmpty = true
      · rw [if_pos empty]
      · rw [if_neg empty] at raised ⊢
        exact atomically_eq_error raised

theorem RecipesConsistent.returned (consistent : RecipesConsistent db) {call : RecipeCall}
    (returned : (db.performRecipeCall call).1 = .ok ()) :
    RecipesConsistent (db.performRecipeCall call).2 := by
  cases call with
  | createSnapshot snapshotUuid createdAt rootPath originNodeId =>
      rw [performRecipeCall] at returned ⊢
      cases created : db.createSnapshot snapshotUuid createdAt rootPath originNodeId with
      | error reason =>
          rw [created] at returned
          cases returned
      | ok result =>
          obtain ⟨after, snapshotId⟩ := result
          unfold createSnapshot at created
          simp only [bind_eq_ok_iff, pure_eq_ok_iff, Prod.mk.injEq] at created
          obtain ⟨-, -, root, -, -, -, rfl, -⟩ := created
          exact consistent.frame rfl rfl rfl rfl fun _ member => member
  | addItems snapshotId entries =>
      rw [performRecipeCall] at returned ⊢
      cases added : db.addItems snapshotId entries with
      | error reason =>
          rw [added] at returned
          cases returned
      | ok result =>
          obtain ⟨after, itemIds⟩ := result
          obtain ⟨lastItemId, snapshotItems, rfl⟩ := addItems_frame added
          exact consistent.frame rfl rfl rfl rfl fun _ member => member
  | getOrCreateRecipe recipeHash chunks desiredRf =>
      have ran := atomically_eq_ok_iff.mp returned
      simp only [Task.returns_bind_iff, Task.returns_pure_iff] at ran
      obtain ⟨recipeId, after, created, -, same⟩ := ran
      obtain ⟨entries, created⟩ :=
        Statements.returns_getOrCreateRecipe consistent.idsBounded created
      have reached : RecipesConsistent after := consistent.register created
      rw [same] at reached
      exact reached
  | consolidateItemRecipe itemId recipeHash chunks desiredRf =>
      have ran := atomically_eq_ok_iff.mp returned
      simp only [Task.returns_bind_iff, Task.returns_pure_iff] at ran
      obtain ⟨recipeId, after, consolidated, -, same⟩ := ran
      obtain ⟨registered, entries, snapshotItems, created, rfl⟩ :=
        Statements.returns_consolidateItemRecipe consistent.idsBounded consolidated
      have reached : RecipesConsistent { registered with snapshotItems } :=
        (consistent.register created).frame rfl rfl rfl rfl fun _ member => member
      rw [same] at reached
      exact reached
  | reuseItemRecipes assignments desiredRf =>
      rw [performRecipeCall] at returned ⊢
      by_cases empty : assignments.isEmpty = true
      · rw [if_pos empty]
        exact consistent
      · rw [if_neg empty] at returned ⊢
        obtain ⟨snapshotItems, same⟩ :=
          Statements.returns_reuseItemRecipes (atomically_eq_ok_iff.mp returned)
        rw [transaction, same]
        exact consistent.frame rfl rfl rfl rfl fun _ member =>
          mem_keys_foldl_ensureProtectionRow.mpr (.inr member)

theorem RecipesConsistent.perform (consistent : RecipesConsistent db) (call : RecipeCall) :
    RecipesConsistent (db.performRecipeCall call).2 := by
  cases outcome : (db.performRecipeCall call).1 with
  | error reason =>
      rw [performRecipeCall_error outcome]
      exact consistent
  | ok done => exact consistent.returned outcome

def performRecipeCalls (db : MetadataDB) (calls : List RecipeCall) : MetadataDB :=
  calls.foldl (fun db call => (db.performRecipeCall call).2) db

theorem RecipesConsistent.performAll (consistent : RecipesConsistent db) (calls : List RecipeCall) :
    RecipesConsistent (db.performRecipeCalls calls) := by
  induction calls generalizing db with
  | nil => exact consistent
  | cons call rest ih => exact ih (consistent.perform call)

/-- After any calls the recipes, the chunks and the protection rows agree, and a call that raises
changes nothing. -/
theorem recipeCalls_consistent (calls : List RecipeCall) :
    (∀ recipeId row, (empty.performRecipeCalls calls).recipes.get? recipeId = some row →
      ((empty.performRecipeCalls calls).recipeChunkEntries recipeId).map
        (·.order) = List.range row.chunkCount ∧
      (((empty.performRecipeCalls calls).recipeChunkEntries recipeId).map (·.chunkSize)).sum =
        row.totalSize ∧
      ∀ chunk ∈ (empty.performRecipeCalls calls).recipeChunkEntries recipeId,
        (empty.performRecipeCalls calls).chunks.get? chunk.chunkHash = some chunk.chunkSize ∧
        (empty.performRecipeCalls calls).chunkProtection.contains chunk.chunkHash = true) ∧
    ∀ call reason, ((empty.performRecipeCalls calls).performRecipeCall call).1 = .error reason →
      ((empty.performRecipeCalls calls).performRecipeCall call).2 =
        empty.performRecipeCalls calls := by
  have consistent := recipesConsistent_empty.performAll calls
  constructor
  · intro recipeId row stored
    refine ⟨consistent.orders recipeId row stored, consistent.total recipeId row stored, ?_⟩
    intro chunk member
    exact ⟨consistent.sized recipeId chunk member,
      (Dict.contains_iff ..).mpr (consistent.covered recipeId chunk member)⟩
  · intro call reason raised
    exact performRecipeCall_error raised

def hashOf (char : Char) : Text := List.replicate 64 char

/-- A recipe of two chunks, and one that gives the first of them another size. -/
def conflictingCalls : List RecipeCall :=
  [.getOrCreateRecipe (hashOf 'a') [⟨0, toPyText (hashOf 'b'), 3⟩, ⟨1, toPyText (hashOf 'c'), 2⟩] 3,
    .getOrCreateRecipe (hashOf 'd') [⟨0, toPyText (hashOf 'b'), 4⟩] 3]

theorem conflictingCalls_consistent :
    (empty.performRecipeCalls conflictingCalls).recipes.keys = [1] ∧
    ((empty.performRecipeCalls conflictingCalls).recipeChunkEntries 1).map
      (·.order) = List.range 2 := by
  have stored : (empty.performRecipeCalls conflictingCalls).recipes.get? 1 =
      some { recipeHash := hashOf 'a', chunkCount := 2, totalSize := 5 } := by decide +kernel
  exact ⟨by decide +kernel, ((recipeCalls_consistent conflictingCalls).1 1 _ stored).1⟩

end MetadataDB

end Stopan.Metadata
