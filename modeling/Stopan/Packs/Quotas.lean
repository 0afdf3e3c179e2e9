import Stopan.Lib.Runs
import Stopan.Lib.Weight
import Stopan.Packs.DistributedStore

namespace Stopan.Packs

open Stopan.Lib Stopan.Common

variable {blake3 : Blake3} {config : PackStoreConfig} {deletionError : PackKey → Option String}

/-- The file is listed as a pack: its bytes hash to its name. -/
def isListed (blake3 : Blake3) (key : PackKey) (file : PackFile) : Bool :=
  blake3HexDigest blake3 file.data == key.packHash

/-- No listed pack is empty. -/
def Nonempty (blake3 : Blake3) (store : PackStore) : Prop :=
  ∀ key file, store.files.get? key = some file → isListed blake3 key file = true →
    0 < file.data.length

/-- The bytes and the number of the listed packs that satisfy a condition on their keys. -/
def bytesOf (blake3 : Blake3) (condition : PackKey → Bool) (key : PackKey)
    (file : PackFile) : Nat :=
  if isListed blake3 key file && condition key then file.data.length else 0

def countOf (blake3 : Blake3) (condition : PackKey → Bool) (key : PackKey)
    (file : PackFile) : Nat :=
  if isListed blake3 key file && condition key then 1 else 0

section Listings

variable {store : PackStore}

variable (blake3 store) in
theorem allPackRecords_perm :
    (allPackRecords blake3 store).Perm
      ((store.files.entries.filter fun entry => isListed blake3 entry.1 entry.2).map recordOf) :=
  List.perm_insertionSort _ _

theorem mem_allPackRecords {record : PackRecord} (member : record ∈ allPackRecords blake3 store) :
    ∃ file, store.files.get? record.key = some file ∧ isListed blake3 record.key file = true ∧
      record = recordOf (record.key, file) := by
  obtain ⟨entry, inside, rfl⟩ :=
    List.mem_map.mp ((allPackRecords_perm blake3 store).mem_iff.mp member)
  obtain ⟨stored, listed⟩ := List.mem_filter.mp inside
  exact ⟨entry.2, Dict.get?_eq_some_iff.mpr stored, listed, rfl⟩

theorem allPackRecords_of_get? {key : PackKey} {file : PackFile}
    (found : store.files.get? key = some file) (listed : isListed blake3 key file = true) :
    recordOf (key, file) ∈ allPackRecords blake3 store :=
  (allPackRecords_perm blake3 store).mem_iff.mpr
    (List.mem_map_of_mem (List.mem_filter.mpr ⟨Dict.get?_eq_some_iff.mp found, listed⟩))

variable (blake3 store) in
theorem allPackRecords_nodup : ((allPackRecords blake3 store).map PackRecord.key).Nodup := by
  have keys : ((allPackRecords blake3 store).map PackRecord.key).Perm
      ((store.files.entries.filter fun entry => isListed blake3 entry.1 entry.2).map Prod.fst) := by
    simpa [List.map_map, Function.comp_def, recordOf] using
      (allPackRecords_perm blake3 store).map PackRecord.key
  exact keys.nodup_iff.mpr (store.files.nodup.sublist ((List.filter_sublist).map Prod.fst))

/-- The packs that satisfy a condition on their keys. -/
def recordsWhere (blake3 : Blake3) (store : PackStore) (condition : PackKey → Bool) :
    List PackRecord :=
  (allPackRecords blake3 store).filter fun record => condition record.key

variable (blake3 store)

theorem recordsWhere_perm (condition : PackKey → Bool) :
    (recordsWhere blake3 store condition).Perm
      ((store.files.entries.filter fun entry => isListed blake3 entry.1 entry.2 &&
        condition entry.1).map recordOf) := by
  have filtered := (allPackRecords_perm blake3 store).filter fun record => condition record.key
  rw [List.filter_map, List.filter_filter] at filtered
  simpa [recordsWhere, recordOf, Function.comp_def, Bool.and_comm] using filtered

theorem totalSize_recordsWhere (condition : PackKey → Bool) :
    totalSize (recordsWhere blake3 store condition) = store.files.weight
      (bytesOf blake3 condition) := by
  have sizes := ((recordsWhere_perm blake3 store condition).map PackRecord.sizeBytes).sum_eq
  rw [totalSize, sizes, List.map_map]
  exact store.files.weight_filter (fun _ file => file.data.length) fun key file =>
    isListed blake3 key file && condition key

theorem length_recordsWhere (condition : PackKey → Bool) :
    (recordsWhere blake3 store condition).length = store.files.weight
      (countOf blake3 condition) := by
  have counted := store.files.weight_filter (fun _ _ => 1) fun key file =>
    isListed blake3 key file && condition key
  rw [(recordsWhere_perm blake3 store condition).length_eq, List.length_map]
  simpa [Dict.weight, countOf] using counted

end Listings

/-- The records of a pass, all of them in the store and each with its size. -/
structure Candidates (store : PackStore) (records : List PackRecord) : Prop where
  nodup : (records.map PackRecord.key).Nodup
  present : ∀ record ∈ records, ∃ file, store.files.get? record.key = some file ∧
    0 < file.data.length

/-- What a pass has removed: entries of its candidates that can be deleted. -/
structure Removed (deletionError : PackKey → Option String) (before after : PackStore)
    (records : List PackRecord) (gone : List (PackKey × PackFile)) : Prop where
  erased : Dict.Erased before.files after.files gone
  candidate : ∀ entry ∈ gone, entry.1 ∈ records.map PackRecord.key
  deletable : ∀ entry ∈ gone, deletionError entry.1 = none

def packSize (entry : PackKey × PackFile) : Nat := entry.2.data.length

def removedBytes (gone : List (PackKey × PackFile)) : Nat := (gone.map packSize).sum

variable (config deletionError) in
theorem pruneOne_cases {state : PruneState} {record : PackRecord} {file : PackFile}
    (found : state.store.files.get? record.key = some file) (nonempty : 0 < file.data.length) :
    ((deletionError record.key).isSome = true ∧
      (pruneOne config deletionError state record).store = state.store ∧
      (pruneOne config deletionError state record).remainingBytes = state.remainingBytes ∧
      (pruneOne config deletionError state record).remainingCount = state.remainingCount) ∨
    (deletionError record.key = none ∧
      (pruneOne config deletionError state record).store.files =
        state.store.files.erase record.key ∧
      (pruneOne config deletionError state record).remainingBytes =
        state.remainingBytes - file.data.length ∧
      (pruneOne config deletionError state record).remainingCount = state.remainingCount - 1) := by
  have positive : ¬ file.data.length = 0 := by omega
  cases failure : deletionError record.key with
  | some reason =>
      left
      simp [pruneOne, deleteRecord, found, failure]
  | none =>
      right
      simp [pruneOne, deleteRecord, found, failure, positive]

theorem Candidates.tail {store after : PackStore} {record : PackRecord} {rest : List PackRecord}
    (candidates : Candidates store (record :: rest))
    (kept : ∀ key, key ≠ record.key → after.files.get? key = store.files.get? key) :
    Candidates after rest := by
  obtain ⟨absent, nodup⟩ := List.nodup_cons.mp candidates.nodup
  refine ⟨nodup, fun other member => ?_⟩
  obtain ⟨file, found, nonempty⟩ := candidates.present other (List.mem_cons_of_mem _ member)
  have different : other.key ≠ record.key :=
    fun equal => absent (equal ▸ List.mem_map_of_mem member)
  exact ⟨file, (kept other.key different).trans found, nonempty⟩

/-- Add the outcome of the first record to what the rest of the pass removes. -/
theorem Removed.cons {before middle after : PackStore} {record : PackRecord}
    {rest : List PackRecord} {file : PackFile} {gone : List (PackKey × PackFile)}
    (found : before.files.get? record.key = some file) (deletable : deletionError record.key = none)
    (deleted : middle.files = before.files.erase record.key)
    (removed : Removed deletionError middle after rest gone) :
    Removed deletionError before after (record :: rest) ((record.key, file) :: gone) := by
  refine ⟨?_, ?_, ?_⟩
  · have first : Dict.Erased before.files middle.files [(record.key, file)] :=
      deleted ▸ Dict.Erased.erase found
    exact first.trans removed.erased
  · intro entry member
    rcases List.mem_cons.mp member with rfl | later
    · simp
    · simp [removed.candidate entry later]
  · intro entry member
    rcases List.mem_cons.mp member with rfl | later
    · exact deletable
    · exact removed.deletable entry later

theorem Removed.skip {before middle after : PackStore} {record : PackRecord}
    {rest : List PackRecord} {gone : List (PackKey × PackFile)} (same : middle = before)
    (removed : Removed deletionError middle after rest gone) :
    Removed deletionError before after (record :: rest) gone := by
  subst same
  exact ⟨removed.erased, fun entry member => by simp [removed.candidate entry member],
    removed.deletable⟩

variable (config deletionError) in
theorem pruneLoop_removed {records : List PackRecord} (state : PruneState)
    (candidates : Candidates state.store records) :
    ∃ gone, Removed deletionError state.store
      (pruneLoop config deletionError records state).store records gone ∧
      (pruneLoop config deletionError records state).remainingBytes =
        state.remainingBytes - removedBytes gone ∧
      (pruneLoop config deletionError records state).remainingCount =
        state.remainingCount - gone.length ∧
      (0 < (pruneLoop config deletionError records state).remainingBytes ∨
          0 < (pruneLoop config deletionError records state).remainingCount →
        ∀ record ∈ records, deletionError record.key = none → record.key ∈ gone.map Prod.fst) := by
  induction records generalizing state with
  | nil =>
      refine ⟨[], ⟨.refl _, by simp, by simp⟩, ?_⟩
      simp [pruneLoop, removedBytes]
  | cons record rest ih =>
      unfold pruneLoop
      split
      · rename_i satisfied
        refine ⟨[], ⟨.refl _, by simp, by simp⟩, by simp [removedBytes], by simp, ?_⟩
        intro pending
        omega
      · obtain ⟨file, found, nonempty⟩ := candidates.present record (by simp)
        rcases pruneOne_cases config deletionError found nonempty with
          ⟨blocked, store, bytes, count⟩ | ⟨deletable, store, bytes, count⟩
        · have kept : ∀ key, key ≠ record.key →
              (pruneOne config deletionError state record).store.files.get? key =
                state.store.files.get? key :=
            fun key _ => by rw [store]
          obtain ⟨gone, removed, bytesLeft, countLeft, exhausted⟩ := ih _ (candidates.tail kept)
          refine ⟨gone, removed.skip store, bytesLeft.trans (by rw [bytes]),
            countLeft.trans (by rw [count]), ?_⟩
          intro pending other member free
          rcases List.mem_cons.mp member with rfl | later
          · simp [free] at blocked
          · exact exhausted pending other later free
        · have kept : ∀ key, key ≠ record.key →
              (pruneOne config deletionError state record).store.files.get? key =
                state.store.files.get? key := by
            intro key different
            rw [store, Dict.get?_erase, if_neg different]
          obtain ⟨gone, removed, bytesLeft, countLeft, exhausted⟩ := ih _ (candidates.tail kept)
          refine ⟨(record.key, file) :: gone, removed.cons found deletable store, ?_, ?_, ?_⟩
          · rw [bytesLeft, bytes]
            simp [removedBytes, packSize, Nat.sub_sub]
          · rw [countLeft, count]
            simp only [List.length_cons]
            omega
          · intro pending other member free
            rcases List.mem_cons.mp member with rfl | later
            · simp
            · simp [exhausted pending other later free]

variable (config deletionError) in
/-- The pass over expired packs, which deletes all that it can. -/
theorem foldl_pruneOne_removed {records : List PackRecord} (state : PruneState)
    (candidates : Candidates state.store records) :
    ∃ gone, Removed deletionError state.store
      (records.foldl (pruneOne config deletionError) state).store records gone := by
  induction records generalizing state with
  | nil => exact ⟨[], .refl _, by simp, by simp⟩
  | cons record rest ih =>
      obtain ⟨file, found, nonempty⟩ := candidates.present record (by simp)
      rcases pruneOne_cases config deletionError found nonempty with ⟨-, store, -, -⟩ |
        ⟨deletable, store, -, -⟩
      · have kept : ∀ key, key ≠ record.key →
            (pruneOne config deletionError state record).store.files.get? key =
              state.store.files.get? key :=
          fun key _ => by rw [store]
        obtain ⟨gone, removed⟩ := ih _ (candidates.tail kept)
        exact ⟨gone, removed.skip store⟩
      · have kept : ∀ key, key ≠ record.key →
            (pruneOne config deletionError state record).store.files.get? key =
              state.store.files.get? key := by
          intro key different
          rw [store, Dict.get?_erase, if_neg different]
        obtain ⟨gone, removed⟩ := ih _ (candidates.tail kept)
        exact ⟨(record.key, file) :: gone, removed.cons found deletable store⟩

/-- The packs of the condition that can and that cannot be deleted. -/
def deletableWhere (deletionError : PackKey → Option String) (condition : PackKey → Bool)
    (key : PackKey) : Bool :=
  condition key && (deletionError key).isNone

def blockedWhere (deletionError : PackKey → Option String) (condition : PackKey → Bool)
    (key : PackKey) : Bool :=
  condition key && (deletionError key).isSome

theorem candidates_sortedByAge {store : PackStore} (nonempty : Nonempty blake3 store)
    (selected : PackRecord → Bool) :
    Candidates store (sortedByAge ((allPackRecords blake3 store).filter selected)) := by
  have permuted : (sortedByAge ((allPackRecords blake3 store).filter selected)).Perm
      ((allPackRecords blake3 store).filter selected) := List.perm_insertionSort _ _
  refine ⟨?_, fun record member => ?_⟩
  · refine (permuted.map PackRecord.key).nodup_iff.mpr ?_
    exact (allPackRecords_nodup blake3 store).sublist ((List.filter_sublist).map PackRecord.key)
  · have inside := (List.mem_filter.mp (permuted.mem_iff.mp member)).1
    obtain ⟨file, found, listed, -⟩ := mem_allPackRecords inside
    exact ⟨file, found, nonempty record.key file found listed⟩

/-- The weight of the packs of a condition that can be deleted, with that of the others. -/
theorem weight_split (blake3 : Blake3) (deletionError : PackKey → Option String) (store : PackStore)
    (condition : PackKey → Bool) :
    store.files.weight (bytesOf blake3 condition) =
        store.files.weight (bytesOf blake3 (blockedWhere deletionError condition)) +
          store.files.weight (bytesOf blake3 (deletableWhere deletionError condition)) ∧
      store.files.weight (countOf blake3 condition) =
        store.files.weight (countOf blake3 (blockedWhere deletionError condition)) +
          store.files.weight (countOf blake3 (deletableWhere deletionError condition)) := by
  constructor
  · rw [← Dict.weight_add]
    refine Dict.weight_congr fun key file _ => ?_
    cases chosen : condition key <;> cases failure : deletionError key <;>
      cases listed : isListed blake3 key file <;>
      simp [bytesOf, blockedWhere, deletableWhere, chosen, failure, listed]
  · rw [← Dict.weight_add]
    refine Dict.weight_congr fun key file _ => ?_
    cases chosen : condition key <;> cases failure : deletionError key <;>
      cases listed : isListed blake3 key file <;>
      simp [countOf, blockedWhere, deletableWhere, chosen, failure, listed]

/-- A pass removed `gone`: listed packs that satisfy its condition and can be deleted. -/
structure Passed (blake3 : Blake3) (deletionError : PackKey → Option String)
    (condition : PackKey → Bool)
    (before after : PackStore) (gone : List (PackKey × PackFile)) : Prop where
  erased : Dict.Erased before.files after.files gone
  allowed : ∀ entry ∈ gone, deletableWhere deletionError condition entry.1 = true
  listed : ∀ entry ∈ gone, isListed blake3 entry.1 entry.2 = true

/-- Nothing of the condition that could be deleted is left. -/
def Exhausted (blake3 : Blake3) (deletionError : PackKey → Option String)
    (condition : PackKey → Bool) (after : PackStore) : Prop :=
  ∀ key file, after.files.get? key = some file → isListed blake3 key file = true →
    deletableWhere deletionError condition key = false

section Passes

variable {condition : PackKey → Bool} {before after store : PackStore}
  {gone : List (PackKey × PackFile)}

theorem Passed.nonempty (passed : Passed blake3 deletionError condition before after gone)
    (nonempty : Nonempty blake3 before) : Nonempty blake3 after :=
  fun key file found => nonempty key file (passed.erased.found found)

/-- A pack outside the condition, or one that cannot be deleted, is still there. -/
theorem Passed.kept (passed : Passed blake3 deletionError condition before after gone)
    {key : PackKey} (spared : deletableWhere deletionError condition key = false) :
    after.files.get? key = before.files.get? key := by
  refine passed.erased.get?_of_not_mem ?_
  intro member
  obtain ⟨entry, inside, rfl⟩ := List.mem_map.mp member
  rw [passed.allowed entry inside] at spared
  cases spared

theorem Passed.weight_eq (passed : Passed blake3 deletionError condition before after gone)
    {measure : PackKey → PackFile → Nat}
    (vanishes : ∀ key file, deletableWhere deletionError condition key = true →
      measure key file = 0) :
    after.files.weight measure = before.files.weight measure :=
  passed.erased.weight_eq fun entry member => vanishes entry.1 entry.2 (passed.allowed entry member)

theorem Passed.bytes_removed (passed : Passed blake3 deletionError condition before after gone) :
    after.files.weight (bytesOf blake3 (deletableWhere deletionError condition)) +
      removedBytes gone =
      before.files.weight (bytesOf blake3 (deletableWhere deletionError condition)) := by
  have total := passed.erased.weight (bytesOf blake3 (deletableWhere deletionError condition))
  have sizes : (gone.map fun entry => bytesOf blake3
      (deletableWhere deletionError condition) entry.1 entry.2) = gone.map packSize :=
    List.map_congr_left fun entry member => by
      simp [bytesOf, passed.allowed entry member, passed.listed entry member, packSize]
  rw [sizes] at total
  exact total

theorem Passed.count_removed (passed : Passed blake3 deletionError condition before after gone) :
    after.files.weight (countOf blake3 (deletableWhere deletionError condition)) + gone.length =
      before.files.weight (countOf blake3 (deletableWhere deletionError condition)) := by
  have total := passed.erased.weight (countOf blake3 (deletableWhere deletionError condition))
  have ones : (gone.map fun entry => countOf blake3
      (deletableWhere deletionError condition) entry.1 entry.2) = gone.map fun _ => 1 :=
    List.map_congr_left fun entry member => by
      simp [countOf, passed.allowed entry member, passed.listed entry member]
  rw [ones] at total
  simpa using total

/-- What a pass over listed records removes, seen as a pass over a condition. -/
theorem Removed.passed {records : List PackRecord}
    (removed : Removed deletionError before after records gone)
    (chosen : ∀ record ∈ records, record ∈ allPackRecords blake3 before ∧
      condition record.key = true) :
    Passed blake3 deletionError condition before after gone := by
  refine ⟨removed.erased, fun entry member => ?_, fun entry member => ?_⟩
  · obtain ⟨record, inside, same⟩ := List.mem_map.mp (removed.candidate entry member)
    have selected := (chosen record inside).2
    rw [same] at selected
    simp [deletableWhere, selected, removed.deletable entry member]
  · obtain ⟨record, inside, same⟩ := List.mem_map.mp (removed.candidate entry member)
    obtain ⟨file, found, listed, -⟩ := mem_allPackRecords (chosen record inside).1
    have stored := removed.erased.inside entry member
    rw [same] at found listed
    rw [found, Option.some.injEq] at stored
    exact stored ▸ listed

variable (config deletionError condition) in
theorem pruneRecords_passed (nonempty : Nonempty blake3 store) {protectedPackHash : Text}
    (apart : ∀ key, condition key = true → key.packHash ≠ protectedPackHash)
    (bytesNeeded countNeeded : Nat)
    (errors : List String) {pruned : PruneState} {shortage : Option PackStoreError}
    (ran : pruneRecords config deletionError store
      (recordsWhere blake3 store condition) bytesNeeded countNeeded
      protectedPackHash errors = (pruned, shortage)) :
    ∃ gone, Passed blake3 deletionError condition store pruned.store gone ∧
      (shortage = none ∧ bytesNeeded ≤ removedBytes gone ∧ countNeeded ≤ gone.length ∨
        shortage = some pruneShortage ∧
          (removedBytes gone < bytesNeeded ∨ gone.length < countNeeded) ∧
          Exhausted blake3 deletionError condition pruned.store) := by
  have whole : (recordsWhere blake3 store condition).filter
      (fun record => record.key.packHash != protectedPackHash) =
      recordsWhere blake3 store condition := by
    refine List.filter_eq_self.mpr ?_
    intro record member
    simpa using apart record.key (List.mem_filter.mp member).2
  simp only [pruneRecords, whole] at ran
  have inside : ∀ record, record ∈ sortedByAge (recordsWhere blake3 store condition) ↔
      record ∈ recordsWhere blake3 store condition := fun record => List.mem_insertionSort _
  have candidates : Candidates store (sortedByAge (recordsWhere blake3 store condition)) :=
    candidates_sortedByAge nonempty _
  obtain ⟨gone, removed, bytes, count, exhausted⟩ := pruneLoop_removed config deletionError
    (.start store bytesNeeded countNeeded errors) candidates
  have passed : Passed blake3 deletionError condition store (pruneLoop config deletionError
      (sortedByAge (recordsWhere blake3 store condition))
        (.start store bytesNeeded countNeeded errors)).store gone :=
    removed.passed fun record member => List.mem_filter.mp ((inside record).mp member)
  refine ⟨gone, ?_⟩
  split at ran
  · rename_i pending
    cases ran
    refine ⟨passed, .inr ⟨rfl, ?_, ?_⟩⟩
    · rw [bytes, count] at pending
      dsimp only [PruneState.start] at pending
      omega
    · intro key file found listed
      by_contra missed
      rw [Bool.not_eq_false] at missed
      obtain ⟨chosen, free⟩ : condition key = true ∧ deletionError key = none := by
        simpa [deletableWhere] using missed
      have stored := (removed.erased.found_iff key file).mp found
      have member : recordOf (key, file) ∈ recordsWhere blake3 store condition :=
        List.mem_filter.mpr ⟨allPackRecords_of_get? stored.1 listed, chosen⟩
      exact stored.2 (exhausted pending _ ((inside _).mpr member) free)
  · rename_i settled
    cases ran
    refine ⟨passed, .inl ⟨rfl, ?_⟩⟩
    rw [bytes, count] at settled
    dsimp only [PruneState.start] at settled
    omega

/-- After a shortage the deletable packs are gone, so the others alone exceed what was needed. -/
theorem Passed.shortage (passed : Passed blake3 deletionError condition before after gone)
    (exhausted : Exhausted blake3 deletionError condition after) :
    removedBytes gone = before.files.weight
      (bytesOf blake3 (deletableWhere deletionError condition)) ∧
      gone.length = before.files.weight
        (countOf blake3 (deletableWhere deletionError condition)) := by
  have bytesLeft : after.files.weight
      (bytesOf blake3 (deletableWhere deletionError condition)) = 0 :=
    Dict.weight_eq_zero fun key file found => by
      cases listed : isListed blake3 key file with
      | false => simp [bytesOf, listed]
      | true => simp [bytesOf, exhausted key file found listed]
  have countLeft : after.files.weight
      (countOf blake3 (deletableWhere deletionError condition)) = 0 :=
    Dict.weight_eq_zero fun key file found => by
      cases listed : isListed blake3 key file with
      | false => simp [countOf, listed]
      | true => simp [countOf, exhausted key file found listed]
  have bytes := passed.bytes_removed
  have count := passed.count_removed
  omega

/-- Packs that no pass can delete weigh the same after it. -/
theorem Passed.blocked (passed : Passed blake3 deletionError condition before after gone)
    (other : PackKey → Bool) :
    after.files.weight (bytesOf blake3 (blockedWhere deletionError other)) =
        before.files.weight (bytesOf blake3 (blockedWhere deletionError other)) ∧
      after.files.weight (countOf blake3 (blockedWhere deletionError other)) =
        before.files.weight (countOf blake3 (blockedWhere deletionError other)) := by
  have free : ∀ key, deletableWhere deletionError condition key = true →
      blockedWhere deletionError other key = false := by
    intro key deletable
    have none : deletionError key = none := by simpa using (Bool.and_eq_true_iff.mp deletable).2
    simp [blockedWhere, none]
  constructor
  · exact passed.weight_eq fun key file deletable => by simp [bytesOf, free key deletable]
  · exact passed.weight_eq fun key file deletable => by simp [countOf, free key deletable]

theorem Passed.weaken {wider : PackKey → Bool}
    (passed : Passed blake3 deletionError condition before after gone)
    (within : ∀ key, condition key = true → wider key = true) :
    Passed blake3 deletionError wider before after gone := by
  refine ⟨passed.erased, fun entry member => ?_, passed.listed⟩
  obtain ⟨chosen, free⟩ := Bool.and_eq_true_iff.mp (passed.allowed entry member)
  exact Bool.and_eq_true_iff.mpr ⟨within entry.1 chosen, free⟩

theorem Passed.trans {middle : PackStore} {more : List (PackKey × PackFile)}
    (first : Passed blake3 deletionError condition before middle gone)
    (second : Passed blake3 deletionError condition middle after more) :
    Passed blake3 deletionError condition before after (gone ++ more) := by
  refine ⟨first.erased.trans second.erased, fun entry member => ?_, fun entry member => ?_⟩
  · rcases List.mem_append.mp member with early | late
    · exact first.allowed entry early
    · exact second.allowed entry late
  · rcases List.mem_append.mp member with early | late
    · exact first.listed entry early
    · exact second.listed entry late

end Passes

/-- The packs with another hash, of the owner or of all owners. -/
def oldOfOwner (key other : PackKey) : Bool := other.ownerId == key.ownerId &&
    other.packHash != key.packHash

def oldOfStore (key other : PackKey) : Bool := other.packHash != key.packHash

/-- The packs with another hash that are expired in the store. -/
def expiredOld (config : PackStoreConfig) (now : Int) (store : PackStore)
    (key other : PackKey) : Bool :=
  other.packHash != key.packHash &&
    match store.files.get? other with
    | none => false
    | some file => isExpired config now file.storedAt

/-- The packs that cannot be deleted leave room for the new one in the quotas of its owner. -/
def OwnerFits (blake3 : Blake3) (config : PackStoreConfig) (deletionError : PackKey → Option String)
    (store : PackStore) (key : PackKey) (size : Nat) : Prop :=
  store.files.weight (countOf blake3 (blockedWhere deletionError (oldOfOwner key))) + 1 ≤
    config.maxPacksPerOwner ∧
    store.files.weight (bytesOf blake3 (blockedWhere deletionError (oldOfOwner key))) + size ≤
      config.maxTotalBytesPerOwner

/-- The packs that cannot be deleted leave room for the new one in the quota of the store. -/
def StoreFits (blake3 : Blake3) (config : PackStoreConfig) (deletionError : PackKey → Option String)
    (store : PackStore) (key : PackKey) (size : Nat) : Prop :=
  store.files.weight (bytesOf blake3 (blockedWhere deletionError (oldOfStore key))) + size ≤
    config.maxTotalStoreBytes

section Put

variable {store after : PackStore} {key : PackKey} {size : Nat} {now : Int} {errors : List String}

variable (config deletionError key now errors) in
theorem pruneExpired_passed (nonempty : Nonempty blake3 store) :
    ∃ gone, Passed blake3 deletionError (expiredOld config now store key) store
      (pruneExpiredRecords config deletionError store
        (allPackRecords blake3 store) key.packHash now errors).store gone := by
  have candidates : Candidates store
      (sortedByAge ((allPackRecords blake3 store).filter fun record =>
      record.key.packHash != key.packHash && isExpired config now record.storedAt)) :=
        candidates_sortedByAge nonempty _
  obtain ⟨gone, removed⟩ :=
    foldl_pruneOne_removed config deletionError (.start store 0 0 errors) candidates
  refine ⟨gone, removed.passed fun record member => ?_⟩
  obtain ⟨listed, selected⟩ := List.mem_filter.mp ((List.mem_insertionSort _).mp member)
  obtain ⟨file, stored, -, same⟩ := mem_allPackRecords listed
  refine ⟨listed, ?_⟩
  rw [same] at selected
  simpa [expiredOld, stored, recordOf] using selected

/-- The pass over the owner's packs ends with a shortage exactly when the packs that cannot be
deleted leave no room; otherwise the owner is within its quotas. -/
theorem pruneOwner_passed (nonempty : Nonempty blake3 store) {pruned : PruneState}
    {shortage : Option PackStoreError}
    (ran : pruneOwner blake3 config deletionError store key size errors = (pruned, shortage)) :
    ∃ gone, Passed blake3 deletionError (oldOfOwner key) store pruned.store gone ∧
      (shortage = none ∧ OwnerFits blake3 config deletionError store key size ∧
          pruned.store.files.weight (countOf blake3 (oldOfOwner key)) + 1 ≤
            config.maxPacksPerOwner ∧
          pruned.store.files.weight (bytesOf blake3 (oldOfOwner key)) + size ≤
            config.maxTotalBytesPerOwner ∨
        shortage = some pruneShortage ∧ ¬ OwnerFits blake3 config deletionError store key size ∧
          Exhausted blake3 deletionError (oldOfOwner key) pruned.store) := by
  have records : (packRecordsForOwner blake3 store key.ownerId).filter
      (fun record => record.key.packHash != key.packHash) =
      recordsWhere blake3 store (oldOfOwner key) := by
    simp only [packRecordsForOwner, recordsWhere, List.filter_filter]
    refine List.filter_congr fun record _ => ?_
    simp [oldOfOwner, Bool.and_comm]
  simp only [pruneOwner, records, totalSize_recordsWhere, length_recordsWhere] at ran
  have apart : ∀ other, oldOfOwner key other = true → other.packHash ≠ key.packHash := by
    intro other old
    simpa using (Bool.and_eq_true_iff.mp old).2
  obtain ⟨gone, passed, outcome⟩ :=
    pruneRecords_passed config deletionError (oldOfOwner key) nonempty apart _ _ errors ran
  refine ⟨gone, passed, ?_⟩
  obtain ⟨bytesBefore, countBefore⟩ := weight_split blake3 deletionError store (oldOfOwner key)
  obtain ⟨bytesAfter, countAfter⟩ := weight_split blake3 deletionError pruned.store (oldOfOwner key)
  obtain ⟨bytesBlocked, countBlocked⟩ := passed.blocked (oldOfOwner key)
  have bytes := passed.bytes_removed
  have count := passed.count_removed
  rcases outcome with ⟨settled, enoughBytes, enoughCount⟩ | ⟨short, missing, exhausted⟩
  · refine .inl ⟨settled, ⟨?_, ?_⟩, ?_, ?_⟩ <;> omega
  · obtain ⟨allBytes, allCount⟩ := passed.shortage exhausted
    refine .inr ⟨short, ?_, exhausted⟩
    rintro ⟨countFits, bytesFits⟩
    omega

theorem pruneGlobal_passed (nonempty : Nonempty blake3 store) {pruned : PruneState}
    {shortage : Option PackStoreError}
    (ran : pruneGlobal blake3 config deletionError store key size errors = (pruned, shortage)) :
    ∃ gone, Passed blake3 deletionError (oldOfStore key) store pruned.store gone ∧
      (shortage = none ∧ StoreFits blake3 config deletionError store key size ∧
          pruned.store.files.weight (bytesOf blake3 (oldOfStore key)) + size ≤
            config.maxTotalStoreBytes ∨
        shortage = some pruneShortage ∧ ¬ StoreFits blake3 config deletionError store key size ∧
          Exhausted blake3 deletionError (oldOfStore key) pruned.store) := by
  have records : ((allPackRecords blake3 store).filter
      fun record => record.key.packHash != key.packHash) =
      recordsWhere blake3 store (oldOfStore key) := rfl
  simp only [pruneGlobal, records, totalSize_recordsWhere] at ran
  have apart : ∀ other, oldOfStore key other = true → other.packHash ≠ key.packHash := by
    intro other old
    simpa [oldOfStore] using old
  obtain ⟨gone, passed, outcome⟩ :=
    pruneRecords_passed config deletionError (oldOfStore key) nonempty apart _ _ errors ran
  refine ⟨gone, passed, ?_⟩
  obtain ⟨bytesBefore, -⟩ := weight_split blake3 deletionError store (oldOfStore key)
  obtain ⟨bytesAfter, -⟩ := weight_split blake3 deletionError pruned.store (oldOfStore key)
  obtain ⟨bytesBlocked, -⟩ := passed.blocked (oldOfStore key)
  have bytes := passed.bytes_removed
  unfold StoreFits
  rcases outcome with ⟨settled, enough, -⟩ | ⟨short, missing, exhausted⟩
  · refine .inl ⟨settled, ?_, ?_⟩ <;> omega
  · obtain ⟨allBytes, -⟩ := passed.shortage exhausted
    refine .inr ⟨short, ?_, exhausted⟩
    omega

/-- The quotas hold after the passes, with the new pack counted apart. -/
structure WithinQuotas (blake3 : Blake3) (config : PackStoreConfig) (store : PackStore)
    (key : PackKey) (size : Nat) :
    Prop where
  count : store.files.weight (countOf blake3 (oldOfOwner key)) + 1 ≤ config.maxPacksPerOwner
  owner : store.files.weight (bytesOf blake3 (oldOfOwner key)) + size ≤ config.maxTotalBytesPerOwner
  total : store.files.weight (bytesOf blake3 (oldOfStore key)) + size ≤ config.maxTotalStoreBytes

/-- How the quotas are enforced on a store: what is removed, and in which of three ways it ends. -/
inductive Enforced (blake3 : Blake3) (config : PackStoreConfig)
    (deletionError : PackKey → Option String) (store after : PackStore) (key : PackKey) (size : Nat)
    (now : Int) (gone : List (PackKey × PackFile)) :
    Except PackStoreError (Nat × Nat) → Prop where
  | accepted {pruned : Nat × Nat} (ownerFits : OwnerFits blake3 config deletionError store key size)
      (storeFits : StoreFits blake3 config deletionError store key size)
      (within : WithinQuotas blake3 config after key size) :
      Enforced blake3 config deletionError store after key size now gone (.ok pruned)
  | ownerFull {reason : PackStoreError}
      (full : ¬ OwnerFits blake3 config deletionError store key size)
      (exhausted : Exhausted blake3 deletionError (oldOfOwner key) after)
      (reached : ∀ entry ∈ gone, oldOfOwner key entry.1 = true ∨
        expiredOld config now store key entry.1 = true) :
      Enforced blake3 config deletionError store after key size now gone (.error reason)
  | storeFull {reason : PackStoreError}
      (ownerFits : OwnerFits blake3 config deletionError store key size)
      (full : ¬ StoreFits blake3 config deletionError store key size)
      (exhausted : Exhausted blake3 deletionError (oldOfStore key) after) :
      Enforced blake3 config deletionError store after key size now gone (.error reason)

theorem oldOfStore_of_oldOfOwner (other : PackKey) (old : oldOfOwner key other = true) :
    oldOfStore key other = true :=
  (Bool.and_eq_true_iff.mp old).2

theorem oldOfStore_of_expiredOld (other : PackKey)
    (old : expiredOld config now store key other = true) :
    oldOfStore key other = true :=
  (Bool.and_eq_true_iff.mp old).1

theorem enforcePostStoreQuotas_enforced (nonempty : Nonempty blake3 store)
    (valid : validateIncomingQuotaLimits config size = .ok ())
    {result : Except PackStoreError (Nat × Nat)}
    (ran : enforcePostStoreQuotas blake3 config deletionError store key size now =
      (after, result)) :
    ∃ gone, Passed blake3 deletionError (oldOfStore key) store after gone ∧
      Enforced blake3 config deletionError store after key size now gone result := by
  obtain ⟨expiredGone, expired⟩ := pruneExpired_passed config deletionError key now [] nonempty
  simp only [enforcePostStoreQuotas, valid] at ran
  generalize pruneExpiredRecords config deletionError store
    (allPackRecords blake3 store) key.packHash now [] = first
    at ran expired
  have ownerFits : OwnerFits blake3 config deletionError first.store key size ↔
      OwnerFits blake3 config deletionError store key size := by
    rw [OwnerFits, OwnerFits, (expired.blocked (oldOfOwner key)).1,
      (expired.blocked (oldOfOwner key)).2]
  have expiredOldest := expired.weaken oldOfStore_of_expiredOld
  cases owner : pruneOwner blake3 config deletionError first.store key size first.errors with
  | mk second ownerShortage =>
      obtain ⟨ownerGone, ownerPassed, outcome⟩ :=
        pruneOwner_passed (expired.nonempty nonempty) owner
      have oldest := expiredOldest.trans (ownerPassed.weaken oldOfStore_of_oldOfOwner)
      rw [owner] at ran
      rcases outcome with ⟨settled, fits, count, bytes⟩ | ⟨short, full, exhausted⟩
      · subst settled
        have storeFits : StoreFits blake3 config deletionError second.store key size ↔
            StoreFits blake3 config deletionError store key size := by
          rw [StoreFits, StoreFits, (oldest.blocked (oldOfStore key)).1]
        cases whole : pruneGlobal blake3 config deletionError second.store key
          size second.errors with
        | mk third storeShortage =>
            obtain ⟨storeGone, storePassed, storeOutcome⟩ :=
              pruneGlobal_passed (ownerPassed.nonempty (expired.nonempty nonempty)) whole
            simp only [whole] at ran
            rcases storeOutcome with ⟨settled, storeRoom, total⟩ | ⟨short, full, exhausted⟩
            · subst settled
              cases ran
              refine ⟨_, oldest.trans storePassed,
                .accepted (ownerFits.mp fits) (storeFits.mp storeRoom) ⟨?_, ?_, total⟩⟩
              · have fewer := storePassed.erased.weight_le (countOf blake3 (oldOfOwner key))
                omega
              · have smaller := storePassed.erased.weight_le (bytesOf blake3 (oldOfOwner key))
                omega
            · subst short
              cases ran
              exact ⟨_, oldest.trans storePassed,
                .storeFull (ownerFits.mp fits) (fun room => full (storeFits.mpr room)) exhausted⟩
      · subst short
        cases ran
        refine ⟨_, oldest, .ownerFull (fun room => full (ownerFits.mpr room)) exhausted
          fun entry member => ?_⟩
        rcases List.mem_append.mp member with early | late
        · exact .inr (Bool.and_eq_true_iff.mp (expired.allowed entry early)).1
        · exact .inl (Bool.and_eq_true_iff.mp (ownerPassed.allowed entry late)).1

end Put

end Stopan.Packs
