import Stopan.Lib.Retention
import Stopan.Packs.Quotas
import Stopan.Packs.PruneToLimits

namespace Stopan.Packs

open Stopan.Lib Stopan.Common

variable {blake3 : Blake3} {config : PackStoreConfig} {dryRun : Bool}
variable {store : PackStore} {record : PackRecord} {records visited : List PackRecord}
  {run : PruneRun}

/-- The file system deletes whatever it is asked to. -/
def noDeletionError (_ : PackKey) : Option String := none

/-- What a visited record adds to the count of pruned packs. -/
def counted (dryRun : Bool) (record : PackRecord) : Nat :=
  if dryRun then 1 else if record.sizeBytes = 0 then 0 else 1

theorem counted_dry : counted true = fun _ => 1 := rfl

theorem counted_le (record : PackRecord) : counted dryRun record ≤ 1 := by
  rw [counted]
  split
  · exact le_rfl
  · split <;> omega

def dropPack (store : PackStore) (key : PackKey) : PackStore :=
  { files := store.files.erase key, signatures := store.signatures.erase key }

/-- The store after a loop has visited the records. -/
def storeAfter (dryRun : Bool) (store : PackStore) (visited : List PackRecord) : PackStore :=
  if dryRun then store else visited.foldl (fun store record => dropPack store record.key) store

theorem storeAfter_nil : storeAfter dryRun store [] = store := by
  cases dryRun <;> rfl

theorem storeAfter_append (first second : List PackRecord) :
    storeAfter dryRun store (first ++ second) = storeAfter dryRun
      (storeAfter dryRun store first) second := by
  cases dryRun with
  | true => rfl
  | false => exact List.foldl_append

theorem get?_storeAfter (key : PackKey) :
    (storeAfter false store visited).files.get? key =
      if key ∈ visited.map PackRecord.key then none else store.files.get? key := by
  have step : ∀ visited : List PackRecord,
      (visited.foldl (fun store record => dropPack store record.key) store).files.get? key =
      if key ∈ visited.map PackRecord.key then none else store.files.get? key := by
    intro visited
    induction visited using List.reverseRecOn with
    | nil => simp
    | append_singleton visited record ih =>
        rw [List.foldl_append, List.foldl_cons, List.foldl_nil, dropPack, Dict.get?_erase, ih]
        by_cases last : key = record.key
        · simp [last]
        · simp [last]
  exact step visited

/-- Records of files in the store, each with its size. -/
structure Present (store : PackStore) (records : List PackRecord) : Prop where
  nodup : (records.map PackRecord.key).Nodup
  sized : ∀ record ∈ records, ∃ file, store.files.get? record.key = some file ∧
    file.data.length = record.sizeBytes

theorem present_allPackRecords : Present store (allPackRecords blake3 store) := by
  refine ⟨allPackRecords_nodup blake3 store, fun record member => ?_⟩
  obtain ⟨file, found, -, same⟩ := mem_allPackRecords member
  exact ⟨file, found, by rw [same]; rfl⟩

theorem Present.sublist {part : List PackRecord} (present : Present store records)
    (sublist : part.Sublist records) :
    Present store part :=
  ⟨present.nodup.sublist (sublist.map PackRecord.key), fun record member => present.sized record
    (sublist.subset member)⟩

theorem Present.perm {other : List PackRecord} (present : Present store records)
    (same : other.Perm records) :
    Present store other :=
  ⟨(same.map PackRecord.key).nodup_iff.mpr present.nodup, fun record member => present.sized record
    (same.mem_iff.mp member)⟩

theorem sortedByAge_perm (records : List PackRecord) : (sortedByAge records).Perm records :=
  List.perm_insertionSort _ _

/-- Records stay where packs with other keys are deleted. -/
theorem Present.storeAfter (present : Present store records)
    (others : ∀ record ∈ records, record.key ∉ visited.map PackRecord.key) :
    Present (storeAfter dryRun store visited) records := by
  cases dryRun with
  | true => exact present
  | false =>
      refine ⟨present.nodup, fun record member => ?_⟩
      obtain ⟨file, found, size⟩ := present.sized record member
      exact ⟨file, by rw [get?_storeAfter, if_neg (others record member), found], size⟩

/-- The loop after it has visited the records. -/
def PruneRun.after (dryRun : Bool) (run : PruneRun) (visited : List PackRecord) : PruneRun where
  state := {
    store := storeAfter dryRun run.state.store visited
    prunedCount := run.state.prunedCount + total (counted dryRun) visited
    prunedBytes := run.state.prunedBytes + total PackRecord.sizeBytes visited
    remainingBytes := run.state.remainingBytes - total PackRecord.sizeBytes visited
    remainingCount := run.state.remainingCount - total (counted dryRun) visited
    errors := run.state.errors }
  candidates := run.candidates ++ visited

theorem PruneRun.after_nil : run.after dryRun [] = run := by
  rw [PruneRun.after, storeAfter_nil, List.append_nil]
  rfl

theorem PruneRun.after_append (first second : List PackRecord) :
    (run.after dryRun first).after dryRun second = run.after dryRun (first ++ second) := by
  simp only [PruneRun.after, storeAfter_append, total_append, List.append_assoc,
    Nat.add_assoc, Nat.sub_sub]

theorem visitRecord_eq (present : Present run.state.store [record]) :
    visitRecord config noDeletionError dryRun run record = run.after dryRun [record] := by
  cases dryRun with
  | true => simp [visitRecord, PruneRun.after, storeAfter, counted]
  | false =>
      obtain ⟨file, found, size⟩ := present.sized record List.mem_cons_self
      have deleted : deleteRecord config noDeletionError run.state.store record =
          .ok (dropPack run.state.store record.key, record.sizeBytes) := by
        rw [deleteRecord, found, ← size]
        rfl
      simp only [visitRecord, pruneOne, deleted]
      by_cases empty : record.sizeBytes = 0
      · simp [PruneRun.after, storeAfter, counted, empty]
      · simp [PruneRun.after, storeAfter, counted, empty]

theorem Present.tail {rest : List PackRecord} (present : Present store (record :: rest)) :
    Present (Packs.storeAfter dryRun store [record]) rest := by
  obtain ⟨fresh, -⟩ := List.nodup_cons.mp present.nodup
  refine Present.storeAfter (present.sublist (List.sublist_cons_self record rest))
    fun other later same => ?_
  rw [List.map_singleton, List.mem_singleton] at same
  exact fresh (same ▸ List.mem_map_of_mem later)

theorem Present.head {rest : List PackRecord} (present : Present store (record :: rest)) :
    Present store [record] :=
  present.sublist (List.singleton_sublist.mpr List.mem_cons_self)

theorem visitLoop_eq (present : Present run.state.store records) :
    visitLoop config noDeletionError dryRun records run = run.after dryRun
      (released PackRecord.sizeBytes
        (counted dryRun) run.state.remainingBytes run.state.remainingCount records) := by
  induction records generalizing run with
  | nil => exact PruneRun.after_nil.symm
  | cons record rest ih =>
      rw [visitLoop, released]
      split
      · exact PruneRun.after_nil.symm
      · rw [visitRecord_eq present.head, ih present.tail, PruneRun.after_append]
        simp [PruneRun.after, total]

theorem foldl_visitRecord_eq (present : Present run.state.store records) :
    records.foldl (visitRecord config noDeletionError dryRun) run = run.after dryRun records := by
  induction records generalizing run with
  | nil => exact PruneRun.after_nil.symm
  | cons record rest ih =>
      rw [List.foldl_cons, visitRecord_eq present.head, ih present.tail, PruneRun.after_append]
      rfl

/-- What a pass over the records lets go. -/
def passReleases (dryRun : Bool) (bytesNeeded countNeeded : Nat) (records : List PackRecord) :
    List PackRecord :=
  released PackRecord.sizeBytes (counted dryRun) bytesNeeded countNeeded (sortedByAge records)

theorem pruneRecordsReporting_eq {bytesNeeded countNeeded : Nat} {errors : List String}
    (present : Present store records) (named : ∀ record ∈ records, record.key.packHash ≠ [])
    (enoughBytes : bytesNeeded ≤ total PackRecord.sizeBytes records)
    (enoughCount : countNeeded ≤ total (counted dryRun) records) :
    pruneRecordsReporting config noDeletionError dryRun store records bytesNeeded countNeeded
      [] errors =
      ((PruneRun.start store bytesNeeded countNeeded errors).after dryRun
        (passReleases dryRun bytesNeeded countNeeded records), none) := by
  have all : records.filter (fun record => record.key.packHash != []) = records :=
    List.filter_eq_self.mpr fun record member => by simpa using named record member
  have permuted := sortedByAge_perm records
  have met := @released_enough _ PackRecord.sizeBytes (counted dryRun) bytesNeeded countNeeded
    (sortedByAge records)
    (by rwa [total_perm permuted]) (by rwa [total_perm permuted])
  rw [pruneRecordsReporting, all, visitLoop_eq (present.perm permuted)]
  refine if_neg ?_
  simp only [PruneRun.after, PruneRun.start, PruneState.start]
  omega

def inKeyOrder (left right : PackRecord) : Prop := keyLe left.key right.key = true

instance : DecidableRel inKeyOrder :=
  fun left right => inferInstanceAs (Decidable (keyLe left.key right.key = true))

theorem inKeyOrder_iff {left right : PackRecord} :
    inKeyOrder left right ↔ left.key.ownerId < right.key.ownerId ∨
      left.key.ownerId = right.key.ownerId ∧ left.key.packHash ≤ right.key.packHash := by
  simp [inKeyOrder, keyLe]

instance : Std.Total inKeyOrder where
  total left right := by
    rw [inKeyOrder_iff, inKeyOrder_iff]
    rcases lt_trichotomy left.key.ownerId right.key.ownerId with below | same | above
    · exact .inl (.inl below)
    · rcases le_total left.key.packHash right.key.packHash with before | after
      · exact .inl (.inr ⟨same, before⟩)
      · exact .inr (.inr ⟨same.symm, after⟩)
    · exact .inr (.inl above)

instance : IsTrans PackRecord inKeyOrder where
  trans first second third := by
    rw [inKeyOrder_iff, inKeyOrder_iff, inKeyOrder_iff]
    rintro (below | ⟨same, before⟩) (belowNext | ⟨sameNext, beforeNext⟩)
    · exact .inl (below.trans belowNext)
    · exact .inl (sameNext ▸ below)
    · exact .inl (same ▸ belowNext)
    · exact .inr ⟨same.trans sameNext, before.trans beforeNext⟩

theorem allPackRecords_dropPack (key : PackKey) :
    allPackRecords blake3 (dropPack store key) = (allPackRecords blake3 store).filter
      fun record => decide (record.key ≠ key) := by
  have sorted : ∀ store : PackStore, allPackRecords blake3 store =
      ((store.files.entries.filter fun entry => blake3HexDigest blake3 entry.2.data ==
        entry.1.packHash).map recordOf).insertionSort
        inKeyOrder := fun _ => rfl
  rw [sorted, sorted, filter_insertionSort, List.filter_map, List.filter_filter]
  have entries : (dropPack store key).files.entries = store.files.entries.filter fun entry => decide
      (entry.1 ≠ key) := rfl
  rw [entries, List.filter_filter]
  refine congrArg (List.insertionSort inKeyOrder)
    (congrArg (List.map recordOf) (List.filter_congr fun entry _ => ?_))
  exact Bool.and_comm _ _

/-- What is listed once the visited packs are gone. -/
theorem allPackRecords_storeAfter : allPackRecords blake3 (storeAfter false store visited) =
    (allPackRecords blake3 store).filter fun record => decide
      (record.key ∉ visited.map PackRecord.key) := by
  have step : ∀ visited : List PackRecord,
      allPackRecords blake3 (visited.foldl (fun store record => dropPack store record.key) store) =
        (allPackRecords blake3 store).filter fun record => decide
          (record.key ∉ visited.map PackRecord.key) := by
    intro visited
    induction visited using List.reverseRecOn with
    | nil => exact (List.filter_eq_self.mpr fun record _ => by simp).symm
    | append_singleton visited record ih =>
        rw [List.foldl_append, List.foldl_cons, List.foldl_nil, allPackRecords_dropPack,
          ih, List.filter_filter]
        refine List.filter_congr fun other _ => ?_
        rw [List.map_append, List.map_singleton, Bool.eq_iff_iff]
        simp only [Bool.and_eq_true, decide_eq_true_eq, List.mem_append, List.mem_singleton]
        tauto
  exact step visited

/-- Records as the store lists them. At most one of the packs of an owner has no bytes. -/
structure StoreListing (store : PackStore) (records : List PackRecord) :
    Prop extends Present store records where
  named : ∀ record ∈ records, record.key.packHash ≠ []
  empties : ∀ left ∈ records, ∀ right ∈ records, left.sizeBytes = 0 → right.sizeBytes = 0 →
    left.key.packHash = right.key.packHash

theorem listing_allPackRecords : StoreListing store (allPackRecords blake3 store) := by
  have hashes : ∀ record ∈ allPackRecords blake3 store, ∃ data : Bytes,
      data.length = record.sizeBytes ∧ blake3HexDigest blake3 data = record.key.packHash := by
    intro record member
    obtain ⟨file, -, listed, same⟩ := mem_allPackRecords member
    exact ⟨file.data, by rw [same]; rfl, eq_of_beq listed⟩
  refine ⟨present_allPackRecords, fun record member unnamed => ?_,
    fun left isLeft right isRight leftEmpty rightEmpty => ?_⟩
  · obtain ⟨data, -, hash⟩ := hashes record member
    have valid := blake3HexDigest_valid blake3 data
    rw [hash, unnamed] at valid
    cases valid
  · obtain ⟨leftData, leftSize, leftHash⟩ := hashes left isLeft
    obtain ⟨rightData, rightSize, rightHash⟩ := hashes right isRight
    rw [← leftHash, ← rightHash, List.eq_nil_of_length_eq_zero (leftSize.trans leftEmpty),
      List.eq_nil_of_length_eq_zero (rightSize.trans rightEmpty)]

theorem StoreListing.sublist {part : List PackRecord} (listing : StoreListing store records)
    (sublist : part.Sublist records) :
    StoreListing store part :=
  ⟨listing.toPresent.sublist sublist, fun record member => listing.named record
    (sublist.subset member),
    fun left isLeft right isRight => listing.empties left (sublist.subset isLeft) right
      (sublist.subset isRight)⟩

theorem StoreListing.storeAfter (listing : StoreListing store records)
    (others : ∀ record ∈ records, record.key ∉ visited.map PackRecord.key) :
    StoreListing (storeAfter dryRun store visited) records :=
  ⟨listing.toPresent.storeAfter others, listing.named, listing.empties⟩

theorem total_counted_of_nonempty (nonempty : ∀ record ∈ records, record.sizeBytes ≠ 0) :
    total (counted dryRun) records = records.length := by
  rw [← total_one]
  refine congrArg List.sum (List.map_congr_left fun record member => ?_)
  rw [counted, if_neg (nonempty record member), ite_self]

theorem length_le_total_counted {ownerId : Text} (listing : StoreListing store records)
    (owned : ∀ record ∈ records, record.key.ownerId = ownerId) :
    records.length ≤ total (counted dryRun) records + 1 := by
  induction records with
  | nil => exact Nat.zero_le _
  | cons record rest ih =>
      have restListing := listing.sublist (List.sublist_cons_self record rest)
      have restOwned : ∀ other ∈ rest, other.key.ownerId = ownerId :=
        fun other later => owned other (List.mem_cons_of_mem _ later)
      by_cases empty : record.sizeBytes = 0
      · have others : ∀ other ∈ rest, other.sizeBytes ≠ 0 := by
          intro other later otherEmpty
          have isOther := List.mem_cons_of_mem record later
          have sameHash := listing.empties record List.mem_cons_self other isOther empty otherEmpty
          have sameOwner := (owned record List.mem_cons_self).trans (owned other isOther).symm
          have sameKey : record.key = other.key :=
            calc record.key = PackKey.mk record.key.ownerId record.key.packHash := rfl
              _ = PackKey.mk other.key.ownerId other.key.packHash :=
                congrArg₂ PackKey.mk sameOwner sameHash
              _ = other.key := rfl
          exact (List.nodup_cons.mp listing.nodup).1 (sameKey ▸ List.mem_map_of_mem later)
        rw [total_cons, total_counted_of_nonempty others, List.length_cons]
        omega
      · have one : counted dryRun record = 1 := by
          rw [counted, if_neg empty, ite_self]
        rw [total_cons, one, List.length_cons]
        have := ih restListing restOwned
        omega

def withoutReleased (records visited : List PackRecord) : List PackRecord :=
  records.filter fun record => decide (record.key ∉ visited.map PackRecord.key)

theorem withoutReleased_nil (records : List PackRecord) : withoutReleased records [] = records :=
  List.filter_eq_self.mpr fun record _ => by simp

theorem withoutReleased_append (records first second : List PackRecord) :
    withoutReleased (withoutReleased records first) second = withoutReleased records
      (first ++ second) := by
  rw [withoutReleased, withoutReleased, withoutReleased, List.filter_filter]
  refine List.filter_congr fun record _ => ?_
  rw [List.map_append, Bool.eq_iff_iff]
  simp only [Bool.and_eq_true, decide_eq_true_eq, List.mem_append]
  tauto

/-- What the pass over one owner lets go. -/
def ownerReleases (config : PackStoreConfig) (dryRun : Bool) (live : List PackRecord)
    (ownerId : Text) : List PackRecord :=
  passReleases dryRun (totalSize (recordsOfOwner live ownerId) - config.maxTotalBytesPerOwner)
    ((recordsOfOwner live ownerId).length - config.maxPacksPerOwner) (recordsOfOwner live ownerId)

theorem mem_passReleases {bytesNeeded countNeeded : Nat}
    (member : record ∈ passReleases dryRun bytesNeeded countNeeded records) :
    record ∈ records :=
  (sortedByAge_perm records).mem_iff.mp (released_initial.subset member)

theorem mem_recordsOfOwner {ownerId : Text} :
    record ∈ recordsOfOwner records ownerId ↔ record ∈ records ∧ record.key.ownerId = ownerId := by
  rw [recordsOfOwner, List.mem_filter, beq_iff_eq]

def PruneTotals.after (dryRun : Bool) (totals : PruneTotals) (visited : List PackRecord) :
    PruneTotals where
  store := storeAfter dryRun totals.store visited
  records := if dryRun then withoutReleased totals.records visited else totals.records
  candidates := totals.candidates ++ visited
  quotaCount := totals.quotaCount + total (counted dryRun) visited
  quotaBytes := totals.quotaBytes + total PackRecord.sizeBytes visited
  errors := totals.errors

variable {totals : PruneTotals} {live : List PackRecord} {ownerId : Text}

theorem PruneTotals.after_nil : totals.after dryRun [] = totals := by
  rw [PruneTotals.after, storeAfter_nil, withoutReleased_nil, ite_self, List.append_nil]
  rfl

theorem PruneTotals.after_append (first second : List PackRecord) :
    (totals.after dryRun first).after dryRun second = totals.after dryRun (first ++ second) := by
  cases dryRun <;>
    simp [PruneTotals.after, storeAfter_append, withoutReleased_append, Nat.add_assoc]

/-- A run of a pass, added to the totals; its records are still to be forgotten in a dry run. -/
theorem PruneTotals.add_after (bytesNeeded countNeeded : Nat) (visited : List PackRecord) :
    totals.add ((PruneRun.start totals.store bytesNeeded countNeeded totals.errors).after
      dryRun visited) = { totals.after dryRun visited with records := totals.records } := by
  simp [PruneTotals.add, PruneRun.after, PruneRun.start, PruneState.start, PruneTotals.after]

theorem pruneOwnerToLimits_eq
    (own : recordsOfOwner totals.records ownerId = recordsOfOwner live ownerId)
    (listing : StoreListing totals.store (recordsOfOwner live ownerId)) :
    pruneOwnerToLimits config noDeletionError dryRun totals ownerId =
      (totals.after dryRun (ownerReleases config dryRun live ownerId), none) := by
  rw [pruneOwnerToLimits, own]
  dsimp only
  split
  · rename_i fits
    rw [ownerReleases, fits.1, fits.2, passReleases, released_of_met, PruneTotals.after_nil]
  · have enoughCount : (recordsOfOwner live ownerId).length - config.maxPacksPerOwner ≤
        total (counted dryRun) (recordsOfOwner live ownerId) := by
      have few := @length_le_total_counted dryRun _ _ ownerId listing fun record member =>
        (mem_recordsOfOwner.mp member).2
      have positive := config.packs_pos
      omega
    have enoughBytes : totalSize (recordsOfOwner live ownerId) - config.maxTotalBytesPerOwner ≤
        total PackRecord.sizeBytes (recordsOfOwner live ownerId) := Nat.sub_le _ _
    rw [pruneRecordsReporting_eq listing.toPresent listing.named enoughBytes enoughCount]
    dsimp only
    rw [PruneTotals.add_after]
    cases dryRun with
    | false => rfl
    | true =>
        have forgotten : (sortedByAge (recordsOfOwner live ownerId)).take
            (ownerReleases config true live ownerId).length =
            ownerReleases config true live ownerId :=
              (List.prefix_iff_eq_take.mp released_initial).symm
        have count : ((PruneRun.start totals.store
            (totalSize (recordsOfOwner live ownerId) - config.maxTotalBytesPerOwner)
            ((recordsOfOwner live ownerId).length - config.maxPacksPerOwner) totals.errors).after
              true
              (ownerReleases config true live ownerId)).state.prunedCount =
                (ownerReleases config true live ownerId).length := by
          simp [PruneRun.after, PruneRun.start, PruneState.start, counted_dry]
        rw [if_pos rfl, forgetPruned, ← ownerReleases, count, forgotten]
        rfl

theorem recordsOfOwner_withoutReleased (others : ∀ record ∈ visited, record.key.ownerId ≠ ownerId) :
    recordsOfOwner (withoutReleased records visited) ownerId = recordsOfOwner records ownerId := by
  rw [recordsOfOwner, recordsOfOwner, withoutReleased, List.filter_filter]
  refine List.filter_congr fun record _ => ?_
  by_cases owned : record.key.ownerId = ownerId
  · have kept : record.key ∉ visited.map PackRecord.key := by
      intro released
      obtain ⟨other, member, same⟩ := List.mem_map.mp released
      exact others other member (same ▸ owned)
    simp [kept]
  · simp [owned]

theorem ownerReleases_owner (member : record ∈ ownerReleases config dryRun live ownerId) :
    record ∈ live ∧ record.key.ownerId = ownerId :=
  mem_recordsOfOwner.mp (mem_passReleases member)

theorem pruneOwnersToLimits_eq {owners : List Text} (distinct : owners.Nodup)
    (own : ∀ ownerId ∈ owners, recordsOfOwner totals.records ownerId = recordsOfOwner live ownerId)
    (listing : ∀ ownerId ∈ owners, StoreListing totals.store (recordsOfOwner live ownerId)) :
    pruneOwnersToLimits config noDeletionError dryRun owners totals =
      (totals.after dryRun (owners.flatMap (ownerReleases config dryRun live)), none) := by
  induction owners generalizing totals with
  | nil => rw [pruneOwnersToLimits, List.flatMap_nil, PruneTotals.after_nil]
  | cons ownerId rest ih =>
      obtain ⟨fresh, distinctRest⟩ := List.nodup_cons.mp distinct
      have others : ∀ other ∈ rest, ∀ record ∈ ownerReleases config dryRun live ownerId,
          record.key.ownerId ≠ other := by
        intro other later record released same
        exact fresh ((ownerReleases_owner released).2 ▸ same ▸ later)
      rw [pruneOwnersToLimits, pruneOwnerToLimits_eq (own ownerId List.mem_cons_self)
        (listing ownerId List.mem_cons_self)]
      dsimp only
      rw [ih distinctRest, PruneTotals.after_append, List.flatMap_cons]
      · intro other later
        rw [← own other (List.mem_cons_of_mem _ later), PruneTotals.after]
        cases dryRun with
        | false => rfl
        | true => exact recordsOfOwner_withoutReleased (others other later)
      · intro other later
        refine (listing other (List.mem_cons_of_mem _ later)).storeAfter
          fun record member released => ?_
        obtain ⟨gone, isGone, same⟩ := List.mem_map.mp released
        refine others other later gone isGone ?_
        rw [same]
        exact (mem_recordsOfOwner.mp member).2

end Stopan.Packs
