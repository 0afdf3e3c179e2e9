import Stopan.Packs.PrunePlan

namespace Stopan.Packs

open Stopan.Lib Stopan.Common

def expiredRecords (config : PackStoreConfig) (now : Int) (records : List PackRecord) :
    List PackRecord :=
  sortedByAge (records.filter fun record => isExpired config now record.storedAt)

def liveRecords (config : PackStoreConfig) (now : Int) (records : List PackRecord) :
    List PackRecord :=
  records.filter fun record => !isExpired config now record.storedAt

/-- What the passes over the owners let go. -/
def ownersReleases (config : PackStoreConfig) (dryRun : Bool) (live : List PackRecord) :
    List PackRecord :=
  ((ownersOf live).insertionSort (· ≤ ·)).flatMap (ownerReleases config dryRun live)

def afterOwners (config : PackStoreConfig) (dryRun : Bool) (live : List PackRecord) :
    List PackRecord :=
  withoutReleased live (ownersReleases config dryRun live)

/-- What the pass over all owners lets go. -/
def storeReleases (config : PackStoreConfig) (dryRun : Bool) (live : List PackRecord) :
    List PackRecord :=
  passReleases dryRun (totalSize (afterOwners config dryRun live) - config.maxTotalStoreBytes) 0
    (afterOwners config dryRun live)

def quotaReleases (config : PackStoreConfig) (dryRun : Bool) (live : List PackRecord) :
    List PackRecord :=
  ownersReleases config dryRun live ++ storeReleases config dryRun live

/-- Everything that a run lets go, in its order. -/
def allReleases (config : PackStoreConfig) (dryRun : Bool) (now : Int) (records : List PackRecord) :
    List PackRecord :=
  expiredRecords config now records ++ quotaReleases config dryRun (liveRecords config now records)

def plannedResult (config : PackStoreConfig) (dryRun : Bool) (now : Int)
    (records : List PackRecord) : PruneResult where
  rootDir := config.rootDir
  dryRun
  maxAgeDays := config.maxAgeDays
  cutoff := cutoffOf config now
  packsSeen := records.length
  ownersSeen := (ownersOf records).length
  expiredPacks := total (counted dryRun) (expiredRecords config now records)
  quotaPacks :=
    total (counted dryRun) (quotaReleases config dryRun (liveRecords config now records))
  prunedPacks := total (counted dryRun) (allReleases config dryRun now records)
  prunedBytes := total PackRecord.sizeBytes (allReleases config dryRun now records)
  errors := []

section Plan

variable {blake3 : Blake3} {config : PackStoreConfig} {dryRun : Bool}
  {store : PackStore} {now : Int}
variable {records live : List PackRecord} {record : PackRecord} {totals : PruneTotals}

theorem cutoffOf_expired {cutoff : Int} (known : cutoffOf config now = some cutoff)
    (storedAt : Int) :
    isExpired config now storedAt = decide (storedAt < cutoff) := by
  rw [cutoffOf] at known
  split at known
  · cases known
  · cases known
    rw [isExpired, decide_eq_true (by omega), Bool.true_and]

theorem cutoffOf_none (known : cutoffOf config now = none) (storedAt : Int) :
    isExpired config now storedAt = false := by
  rw [cutoffOf] at known
  split at known
  · rename_i unlimited
    rw [isExpired, unlimited]
    rfl
  · cases known

theorem pruneExpiredReporting_eq {errors : List String} (listing : StoreListing store records) :
    pruneExpiredReporting config noDeletionError dryRun store records [] now errors =
      ((PruneRun.start store 0 0 errors).after dryRun (expiredRecords config now records),
        cutoffOf config now) := by
  rw [pruneExpiredReporting]
  split
  · rename_i unlimited
    have none : expiredRecords config now records = [] := by
      have nothing : (records.filter fun record => isExpired config now record.storedAt) = [] :=
        List.filter_eq_nil_iff.mpr fun record _ => by simp [cutoffOf_none unlimited]
      rw [expiredRecords, nothing]
      rfl
    rw [none, PruneRun.after_nil, unlimited]
  · rename_i cutoff known
    have same : (records.filter fun record => record.key.packHash != [] &&
        decide (record.storedAt < cutoff)) =
        records.filter fun record => isExpired config now record.storedAt := by
      refine List.filter_congr fun record member => ?_
      rw [cutoffOf_expired known, bne_iff_ne.mpr (listing.named record member), Bool.true_and]
    have present :=
      (listing.toPresent.sublist
        (List.filter_sublist (p := fun record => isExpired config now record.storedAt))).perm
      (sortedByAge_perm _)
    rw [same, known]
    exact congrArg₂ Prod.mk (foldl_visitRecord_eq present) rfl

theorem recordsAfterExpiry_eq :
    recordsAfterExpiry blake3 dryRun (allPackRecords blake3 store) (cutoffOf config now)
        (storeAfter dryRun store (expiredRecords config now (allPackRecords blake3 store))) =
      liveRecords config now (allPackRecords blake3 store) := by
  cases dryRun with
  | true =>
      unfold recordsAfterExpiry
      rw [if_pos rfl, liveRecords]
      split
      · rename_i unlimited
        exact (List.filter_eq_self.mpr fun record _ => by rw [cutoffOf_none unlimited]; rfl).symm
      · rename_i cutoff known
        refine List.filter_congr fun record _ => ?_
        rw [cutoffOf_expired known, ← decide_not, decide_eq_decide, not_lt]
  | false =>
      unfold recordsAfterExpiry
      rw [if_neg Bool.false_ne_true, allPackRecords_storeAfter, liveRecords]
      refine List.filter_congr fun record member => ?_
      rw [Bool.eq_iff_iff, decide_eq_true_eq, Bool.not_eq_true', ← Bool.not_eq_true, not_iff_not]
      constructor
      · intro gone
        obtain ⟨other, isExpired, same⟩ := List.mem_map.mp gone
        obtain ⟨listed, old⟩ := List.mem_filter.mp ((sortedByAge_perm _).mem_iff.mp isExpired)
        rw [← List.inj_on_of_nodup_map (allPackRecords_nodup blake3 store) listed member same]
        exact old
      · intro old
        exact List.mem_map_of_mem
          ((sortedByAge_perm _).mem_iff.mpr (List.mem_filter.mpr ⟨member, old⟩))

theorem pruneStoreToLimits_eq
    (same : (if dryRun then totals.records else allPackRecords blake3 totals.store) =
      afterOwners config dryRun live)
        (listing : StoreListing totals.store (afterOwners config dryRun live)) :
    pruneStoreToLimits blake3 config noDeletionError dryRun totals =
      ({ totals.after dryRun (storeReleases config dryRun live) with records := totals.records },
        none) := by
  rw [pruneStoreToLimits, same]
  dsimp only
  split
  · rename_i fits
    rw [storeReleases, fits, passReleases, released_of_met, PruneTotals.after_nil]
  · have enoughBytes : totalSize (afterOwners config dryRun live) - config.maxTotalStoreBytes ≤
        total PackRecord.sizeBytes (afterOwners config dryRun live) := Nat.sub_le _ _
    rw [pruneRecordsReporting_eq listing.toPresent listing.named enoughBytes (Nat.zero_le _)]
    dsimp only
    rw [PruneTotals.add_after, storeReleases]

theorem live_not_expired (listing : StoreListing store records)
    (isLive : record ∈ liveRecords config now records) :
    record.key ∉ (expiredRecords config now records).map PackRecord.key := by
  intro gone
  obtain ⟨other, isExpired, same⟩ := List.mem_map.mp gone
  obtain ⟨listed, old⟩ := List.mem_filter.mp ((sortedByAge_perm _).mem_iff.mp isExpired)
  obtain ⟨member, young⟩ := List.mem_filter.mp isLive
  rw [← List.inj_on_of_nodup_map listing.nodup listed member same, old] at young
  cases young

theorem afterOwners_kept (member : record ∈ afterOwners config dryRun live) :
    record ∈ live ∧ record.key ∉ (ownersReleases config dryRun live).map PackRecord.key := by
  obtain ⟨isLive, kept⟩ := List.mem_filter.mp member
  exact ⟨isLive, of_decide_eq_true kept⟩

/-- The listing that the last pass starts from, in memory or on the disk. -/
def relisted (blake3 : Blake3) (dryRun : Bool) (totals : PruneTotals) : List PackRecord :=
  if dryRun then totals.records else allPackRecords blake3 totals.store

theorem relisted_after {visited : List PackRecord} (listed : relisted blake3 dryRun totals = live)
    (loaded : totals.records = live) :
    relisted blake3 dryRun (totals.after dryRun visited) = withoutReleased live visited := by
  cases dryRun with
  | true => rw [relisted, if_pos rfl, PruneTotals.after, if_pos rfl, loaded]
  | false =>
      rw [relisted, if_neg Bool.false_ne_true] at listed ⊢
      rw [PruneTotals.after, allPackRecords_storeAfter, listed, withoutReleased]

theorem pruneQuotas_eq (listed : relisted blake3 dryRun totals = live)
    (loaded : totals.records = live) (listing : StoreListing totals.store live) :
    pruneQuotas blake3 config noDeletionError dryRun totals =
      ({ totals.after dryRun (quotaReleases config dryRun live) with
          records := (totals.after dryRun (ownersReleases config dryRun live)).records },
            none) := by
  have distinct : ((ownersOf live).insertionSort (· ≤ ·)).Nodup :=
    (List.perm_insertionSort _ _).nodup_iff.mpr (orderedUnique_nodup _)
  have owners := @pruneOwnersToLimits_eq config dryRun totals live _ distinct
    (fun ownerId _ => by rw [loaded])
    (fun ownerId _ => listing.sublist List.filter_sublist)
  have rest : relisted blake3 dryRun (totals.after dryRun (ownersReleases config dryRun live)) =
      afterOwners config dryRun live :=
    relisted_after listed loaded
  have restListing : StoreListing (totals.after dryRun (ownersReleases config dryRun live)).store
      (afterOwners config dryRun live) :=
    (listing.sublist List.filter_sublist).storeAfter fun record member =>
      (afterOwners_kept member).2
  rw [pruneQuotas, loaded, owners]
  dsimp only
  rw [← ownersReleases, pruneStoreToLimits_eq rest restListing,
    PruneTotals.after_append, quotaReleases]

/-- Both modes carry out their plan. -/
theorem pruneToLimits_eq (blake3 : Blake3) (config : PackStoreConfig) (dryRun : Bool)
    (store : PackStore) (now : Int) :
    pruneToLimits blake3 config noDeletionError dryRun store now = {
      store := storeAfter dryRun store (allReleases config dryRun now (allPackRecords blake3 store))
      reported := (allReleases config dryRun now (allPackRecords blake3 store)).map
        fun record => packPath config record.key
      result := .ok (plannedResult config dryRun now (allPackRecords blake3 store)) } := by
  have listing : StoreListing store (allPackRecords blake3 store) := listing_allPackRecords
  have liveListing : StoreListing
      (storeAfter dryRun store (expiredRecords config now (allPackRecords blake3 store)))
      (liveRecords config now (allPackRecords blake3 store)) :=
    (listing.sublist List.filter_sublist).storeAfter fun record isLive =>
      live_not_expired listing isLive
  have afterExpiry := @recordsAfterExpiry_eq blake3 config dryRun store now
  have listed : relisted blake3 dryRun {
      store := storeAfter dryRun store (expiredRecords config now (allPackRecords blake3 store))
      records := liveRecords config now (allPackRecords blake3 store)
      candidates := expiredRecords config now (allPackRecords blake3 store)
      quotaCount := 0
      quotaBytes := 0
      errors := [] } = liveRecords config now (allPackRecords blake3 store) := by
    cases dryRun with
    | true => rfl
    | false => exact afterExpiry
  have quotas := @pruneQuotas_eq blake3 config dryRun _ _ listed rfl liveListing
  rw [pruneToLimits, pruneExpiredReporting_eq listing]
  simp only [PruneRun.after, PruneRun.start, PruneState.start, List.nil_append, afterExpiry, quotas,
    PruneTotals.after, plannedResult, allReleases, storeAfter_append, total_append, Nat.zero_add]

end Plan

def FitsOwner (config : PackStoreConfig) (records : List PackRecord) : Prop :=
  totalSize records ≤ config.maxTotalBytesPerOwner ∧ records.length ≤ config.maxPacksPerOwner

def FitsStore (config : PackStoreConfig) (records : List PackRecord) : Prop :=
  totalSize records ≤ config.maxTotalStoreBytes

instance (config : PackStoreConfig) : DecidablePred (FitsOwner config) := fun records =>
  inferInstanceAs (Decidable (totalSize records ≤ config.maxTotalBytesPerOwner ∧
    records.length ≤ config.maxPacksPerOwner))

instance (config : PackStoreConfig) : DecidablePred (FitsStore config) := fun records =>
  inferInstanceAs (Decidable (totalSize records ≤ config.maxTotalStoreBytes))

/-- The newest packs of an owner that fit the limits of one owner. -/
def keptOfOwner (config : PackStoreConfig) (live : List PackRecord)
    (ownerId : Text) : List PackRecord :=
  newest (FitsOwner config) (sortedByAge (recordsOfOwner live ownerId))

def keptByOwners (config : PackStoreConfig) (live : List PackRecord) : List PackRecord :=
  live.filter fun record => decide (record ∈ keptOfOwner config live record.key.ownerId)

/-- The packs that retention keeps: of the packs that are not expired, the newest of each owner that
fit its limits, and of these the newest that fit the limit of the store. -/
def retained (config : PackStoreConfig) (now : Int) (records : List PackRecord) : List PackRecord :=
  newest (FitsStore config) (sortedByAge (keptByOwners config (liveRecords config now records)))

section Retention

variable {blake3 : Blake3} {config : PackStoreConfig} {store : PackStore}
  {now : Int} {ownerId : Text}
variable {records live : List PackRecord} {record : PackRecord}

theorem ownerReleases_append_kept :
    ownerReleases config true live ownerId ++ keptOfOwner config live ownerId = sortedByAge
      (recordsOfOwner live ownerId) := by
  have permuted := sortedByAge_perm (recordsOfOwner live ownerId)
  have split :=
    @released_append_newest _ (sortedByAge (recordsOfOwner live ownerId)) PackRecord.sizeBytes
    config.maxTotalBytesPerOwner config.maxPacksPerOwner
  rw [total_perm permuted, permuted.length_eq] at split
  exact split

theorem storeReleases_append_kept (kept : List PackRecord)
    (same : afterOwners config true live = kept) :
    storeReleases config true live ++ newest (FitsStore config) (sortedByAge kept) =
      sortedByAge kept := by
  have split := @released_append_newest_bytes _
    (sortedByAge kept) PackRecord.sizeBytes config.maxTotalStoreBytes
  rw [total_perm (sortedByAge_perm kept)] at split
  rw [storeReleases, same]
  exact split

/-- In a list of distinct keys that is cut in two, a record is in one part if and only if its key is
not in the other. -/
theorem mem_cut_iff {front back whole : List PackRecord} (cut : front ++ back = whole)
    (distinct : (whole.map PackRecord.key).Nodup)
    (member : record ∈ whole) : record ∈ back ↔ record.key ∉ front.map PackRecord.key := by
  rw [← cut, List.map_append] at distinct
  rw [← cut] at member
  constructor
  · intro behind inFront
    exact List.disjoint_of_nodup_append distinct inFront (List.mem_map_of_mem behind)
  · intro notInFront
    exact (List.mem_append.mp member).resolve_left fun inFront => notInFront
      (List.mem_map_of_mem inFront)

theorem StoreListing.sorted (listing : StoreListing store records) :
    ((sortedByAge records).map PackRecord.key).Nodup :=
  ((sortedByAge_perm records).map PackRecord.key).nodup_iff.mpr listing.nodup

theorem mem_ownersReleases_keys {dryRun : Bool} (member : record ∈ live) :
    record.key ∈ (ownersReleases config dryRun live).map PackRecord.key ↔
      record.key ∈ (ownerReleases config dryRun live record.key.ownerId).map PackRecord.key := by
  constructor
  · intro gone
    obtain ⟨other, released, same⟩ := List.mem_map.mp gone
    obtain ⟨ownerId, -, byOwner⟩ := List.mem_flatMap.mp released
    obtain ⟨isLive, owned⟩ := ownerReleases_owner byOwner
    rw [← same, owned]
    exact List.mem_map_of_mem byOwner
  · intro gone
    obtain ⟨other, released, same⟩ := List.mem_map.mp gone
    have isOwner : record.key.ownerId ∈ (ownersOf live).insertionSort (· ≤ ·) := by
      rw [List.mem_insertionSort, ownersOf, mem_orderedUnique]
      exact List.mem_map_of_mem member
    exact List.mem_map.mpr ⟨other, List.mem_flatMap.mpr ⟨_, isOwner, released⟩, same⟩

theorem afterOwners_dry (listing : StoreListing store live) :
    afterOwners config true live = keptByOwners config live := by
  refine List.filter_congr fun record member => ?_
  have owned : record ∈ sortedByAge (recordsOfOwner live record.key.ownerId) :=
    (sortedByAge_perm _).mem_iff.mpr (mem_recordsOfOwner.mpr ⟨member, rfl⟩)
  rw [decide_eq_decide, mem_ownersReleases_keys member]
  exact (mem_cut_iff ownerReleases_append_kept
    (listing.sublist List.filter_sublist).sorted owned).symm

/-- A dry run reports exactly the packs that retention does not keep. -/
theorem allReleases_dry (listing : StoreListing store records) (member : record ∈ records) :
    record ∈ allReleases config true now records ↔ record ∉ retained config now records := by
  have liveListing : StoreListing store (liveRecords config now records) :=
    listing.sublist List.filter_sublist
  have keptSame := @afterOwners_dry config store (liveRecords config now records) liveListing
  have keptListing : StoreListing store (keptByOwners config (liveRecords config now records)) :=
    liveListing.sublist List.filter_sublist
  have cut := storeReleases_append_kept _ keptSame
  rw [allReleases, quotaReleases, List.mem_append, List.mem_append]
  cases old : isExpired config now record.storedAt with
  | true =>
      have expired : record ∈ expiredRecords config now records :=
        (sortedByAge_perm _).mem_iff.mpr (List.mem_filter.mpr ⟨member, old⟩)
      refine iff_of_true (.inl expired) fun isRetained => ?_
      have isKept := (sortedByAge_perm _).mem_iff.mp (newest_suffix.subset isRetained)
      exact live_not_expired listing (List.mem_of_mem_filter isKept) (List.mem_map_of_mem expired)
  | false =>
      have isLive : record ∈ liveRecords config now records :=
        List.mem_filter.mpr ⟨member, by rw [old]; rfl⟩
      have notExpired : record ∉ expiredRecords config now records := fun expired =>
        live_not_expired listing isLive (List.mem_map_of_mem expired)
      rw [or_iff_right notExpired]
      by_cases kept : record ∈ keptByOwners config (liveRecords config now records)
      · have notByOwners : record ∉ ownersReleases config true (liveRecords config now records) :=
          fun released =>
          (afterOwners_kept (keptSame.symm ▸ kept)).2 (List.mem_map_of_mem released)
        have sorted := (sortedByAge_perm _).mem_iff.mpr kept
        rw [or_iff_right notByOwners, retained, mem_cut_iff cut keptListing.sorted sorted, not_not]
        constructor
        · exact List.mem_map_of_mem
        · intro gone
          obtain ⟨other, released, same⟩ := List.mem_map.mp gone
          have isOther := cut ▸ List.mem_append_left _ released
          rwa [← List.inj_on_of_nodup_map keptListing.sorted isOther sorted same]
      · have byOwners : record ∈ ownersReleases config true (liveRecords config now records) := by
          by_contra released
          refine kept (keptSame ▸ List.mem_filter.mpr ⟨isLive, decide_eq_true fun gone => ?_⟩)
          obtain ⟨other, isOther, same⟩ := List.mem_map.mp gone
          obtain ⟨ownerId, -, byOwner⟩ := List.mem_flatMap.mp isOther
          exact released (List.inj_on_of_nodup_map liveListing.nodup
            (ownerReleases_owner byOwner).1 isLive same ▸ isOther)
        refine iff_of_true (.inl byOwners) fun isRetained => ?_
        exact kept ((sortedByAge_perm _).mem_iff.mp (newest_suffix.subset isRetained))

end Retention

section Modes

variable {blake3 : Blake3} {config : PackStoreConfig} {store : PackStore}
  {now : Int} {ownerId : Text}
variable {records live : List PackRecord} {record : PackRecord} {one other dryRun : Bool}

/-- Modes let the same packs go in a pass as long as none of these is empty. -/
theorem passReleases_agree {bytesNeeded countNeeded : Nat}
    (nonempty : ∀ record ∈ passReleases one bytesNeeded countNeeded records, record.sizeBytes ≠ 0) :
    passReleases other bytesNeeded countNeeded records =
      passReleases one bytesNeeded countNeeded records :=
  released_congr fun record released => by
    rw [counted, counted, if_neg (nonempty record released), ite_self, ite_self]

theorem allReleases_agree
    (nonempty : ∀ record ∈ allReleases config one now records, record.sizeBytes ≠ 0) :
    allReleases config other now records = allReleases config one now records := by
  have quotas : ∀ record ∈ quotaReleases config one (liveRecords config now records),
      record.sizeBytes ≠ 0 :=
    fun record released => nonempty record (List.mem_append_right _ released)
  have owners : ownersReleases config other (liveRecords config now records) =
      ownersReleases config one (liveRecords config now records) := by
    refine List.flatMap_congr fun ownerId isOwner => passReleases_agree
      fun record released => quotas record ?_
    exact List.mem_append_left _ (List.mem_flatMap.mpr ⟨ownerId, isOwner, released⟩)
  have whole : storeReleases config other (liveRecords config now records) =
      storeReleases config one (liveRecords config now records) := by
    rw [storeReleases, storeReleases, afterOwners, owners]
    exact passReleases_agree fun record released => quotas record (List.mem_append_right _ released)
  rw [allReleases, allReleases, quotaReleases, quotaReleases, owners, whole]

theorem nonempty_of_total_counted (all : total (counted false) records = records.length) :
    ∀ record ∈ records, record.sizeBytes ≠ 0 := by
  induction records with
  | nil => simp
  | cons first rest ih =>
      have firstAtMost := @counted_le false first
      have restAtMost : total (counted false) rest ≤ rest.length := by
        rw [← total_one]
        exact List.sum_le_sum fun record _ => counted_le record
      rw [total_cons, List.length_cons] at all
      have firstOne : counted false first = 1 := by omega
      intro record member
      rcases List.mem_cons.mp member with rfl | later
      · intro empty
        rw [counted, if_neg Bool.false_ne_true, if_pos empty] at firstOne
        cases firstOne
      · exact ih (by omega) record later

/-- What a pass leaves, measured. -/
theorem total_withoutReleased {measure : PackRecord → Nat} {visited : List PackRecord}
    (distinct : (records.map PackRecord.key).Nodup) (front : visited <+: sortedByAge records) :
    total measure (withoutReleased records visited) + total measure visited =
      total measure records := by
  obtain ⟨rest, cut⟩ := front
  have permuted := sortedByAge_perm records
  have sortedDistinct := (permuted.map PackRecord.key).nodup_iff.mpr distinct
  have kept : withoutReleased (sortedByAge records) visited = rest := by
    have memberships : ∀ record ∈ sortedByAge records, record.key ∉ visited.map PackRecord.key ↔
        record ∈ rest :=
      fun record member => (mem_cut_iff cut sortedDistinct member).symm
    rw [withoutReleased, ← cut, List.filter_append, List.filter_eq_nil_iff.mpr, List.nil_append,
      List.filter_eq_self.mpr]
    · intro record member
      exact decide_eq_true ((memberships record (cut ▸ List.mem_append_right _ member)).mpr member)
    · intro record member kept
      exact of_decide_eq_true kept (List.mem_map_of_mem member)
  have leftover : (withoutReleased records visited).Perm rest := kept ▸ (permuted.filter _).symm
  rw [total_perm leftover, ← total_perm permuted, ← cut, total_append, Nat.add_comm]

theorem recordsOfOwner_fits (listing : StoreListing store live) :
    FitsOwner config (withoutReleased (recordsOfOwner live ownerId)
      (ownerReleases config dryRun live ownerId)) := by
  have own : StoreListing store (recordsOfOwner live ownerId) := listing.sublist List.filter_sublist
  have few := @length_le_total_counted dryRun _ _ ownerId own fun record member =>
    (mem_recordsOfOwner.mp member).2
  have permuted := sortedByAge_perm (recordsOfOwner live ownerId)
  have positive := config.packs_pos
  have enough := @released_enough _ PackRecord.sizeBytes (counted dryRun)
    (totalSize (recordsOfOwner live ownerId) - config.maxTotalBytesPerOwner)
    ((recordsOfOwner live ownerId).length - config.maxPacksPerOwner)
      (sortedByAge (recordsOfOwner live ownerId))
    (by rw [total_perm permuted]; exact Nat.sub_le _ _) (by rw [total_perm permuted]; omega)
  have front : ownerReleases config dryRun live ownerId <+: sortedByAge
      (recordsOfOwner live ownerId) := released_initial
  have sizes :=
    @total_withoutReleased (recordsOfOwner live ownerId) PackRecord.sizeBytes _ own.nodup front
  have counts := @total_withoutReleased (recordsOfOwner live ownerId) (fun _ => 1) _ own.nodup front
  have atMost : total (counted dryRun) (ownerReleases config dryRun live ownerId) ≤
      (ownerReleases config dryRun live ownerId).length := by
    rw [← total_one]
    exact List.sum_le_sum fun record _ => counted_le record
  rw [total_one, total_one, total_one] at counts
  rw [← passReleases, ← ownerReleases] at enough
  have bytes : totalSize (recordsOfOwner live ownerId) = total PackRecord.sizeBytes
      (recordsOfOwner live ownerId) := rfl
  constructor
  · show total PackRecord.sizeBytes _ ≤ _
    omega
  · omega

theorem afterOwners_fit (listing : StoreListing store live) :
    FitsStore config
      (withoutReleased (afterOwners config dryRun live) (storeReleases config dryRun live)) := by
  have rest : StoreListing store (afterOwners config dryRun live) :=
    listing.sublist List.filter_sublist
  have permuted := sortedByAge_perm (afterOwners config dryRun live)
  have enough := @released_enough _ PackRecord.sizeBytes (counted dryRun)
    (totalSize (afterOwners config dryRun live) - config.maxTotalStoreBytes) 0
      (sortedByAge (afterOwners config dryRun live))
    (by rw [total_perm permuted]; exact Nat.sub_le _ _) (Nat.zero_le _)
  rw [← passReleases, ← storeReleases] at enough
  have front : storeReleases config dryRun live <+: sortedByAge (afterOwners config dryRun live) :=
    released_initial
  have sizes :=
    @total_withoutReleased (afterOwners config dryRun live) PackRecord.sizeBytes _ rest.nodup front
  have bytes : totalSize (afterOwners config dryRun live) = total PackRecord.sizeBytes
      (afterOwners config dryRun live) := rfl
  show total PackRecord.sizeBytes _ ≤ _
  omega

theorem withoutReleased_sublist {fewer more : List PackRecord} {part whole : List PackRecord}
    (sublist : part.Sublist whole) (released : ∀ record ∈ fewer, record ∈ more) :
    (withoutReleased part more).Sublist (withoutReleased whole fewer) := by
  have smaller : (withoutReleased part more).Sublist (withoutReleased part fewer) := by
    refine List.monotone_filter_right part fun record kept => ?_
    rw [decide_eq_true_eq] at kept ⊢
    exact fun gone => kept (List.map_subset _ released gone)
  exact smaller.trans (sublist.filter _)

/-- What the real run leaves: live packs that no pass has let go. -/
theorem real_left (blake3 : Blake3) (config : PackStoreConfig) (store : PackStore) (now : Int) :
    allPackRecords blake3
      (storeAfter false store (allReleases config false now (allPackRecords blake3 store))) =
      withoutReleased (liveRecords config now (allPackRecords blake3 store))
        (quotaReleases config false (liveRecords config now (allPackRecords blake3 store))) := by
  rw [allPackRecords_storeAfter, allReleases, ← withoutReleased, ← withoutReleased_append]
  have relisted := @recordsAfterExpiry_eq blake3 config false store now
  unfold recordsAfterExpiry at relisted
  rw [if_neg Bool.false_ne_true, allPackRecords_storeAfter] at relisted
  rw [withoutReleased, withoutReleased, relisted, withoutReleased]

theorem FitsOwner.sublist {part whole : List PackRecord} (fits : FitsOwner config whole)
    (sublist : part.Sublist whole) :
    FitsOwner config part :=
  ⟨(@total_le_of_sublist _ PackRecord.sizeBytes _ _ sublist).trans fits.1,
    sublist.length_le.trans fits.2⟩

/-- After the real run every owner and the whole store are within their limits. -/
theorem real_fits (blake3 : Blake3) (config : PackStoreConfig) (store : PackStore) (now : Int) :
    (∀ ownerId, FitsOwner config (recordsOfOwner
      (allPackRecords blake3
        (pruneToLimits blake3 config noDeletionError false store now).store) ownerId)) ∧
    FitsStore config
      (allPackRecords blake3
        (pruneToLimits blake3 config noDeletionError false store now).store) := by
  have listing : StoreListing store (liveRecords config now (allPackRecords blake3 store)) :=
    listing_allPackRecords.sublist List.filter_sublist
  rw [pruneToLimits_eq]
  dsimp only
  rw [real_left]
  generalize liveRecords config now (allPackRecords blake3 store) = live at listing ⊢
  constructor
  · intro ownerId
    refine (@recordsOfOwner_fits config store ownerId live false listing).sublist ?_
    rw [recordsOfOwner, withoutReleased, List.filter_comm]
    refine withoutReleased_sublist (List.Sublist.refl _) fun record released => ?_
    by_cases isOwner : ownerId ∈ ownersOf live
    · refine List.mem_append_left _ (List.mem_flatMap.mpr ⟨ownerId, ?_, released⟩)
      exact (List.mem_insertionSort _).mpr isOwner
    · refine absurd ?_ isOwner
      obtain ⟨isLive, rfl⟩ := ownerReleases_owner released
      exact mem_orderedUnique.mpr (List.mem_map_of_mem isLive)
  · rw [quotaReleases, ← withoutReleased_append]
    exact afterOwners_fit listing

end Modes

/-- A report is about the packs that the call has deleted. -/
structure DeletesReported (config : PackStoreConfig) (store : PackStore) (report : PruneReport)
    (done : PruneResult) (gone : List PackRecord) : Prop where
  reported : report.reported = gone.map fun record => packPath config record.key
  distinct : (gone.map PackRecord.key).Nodup
  files : ∀ key, report.store.files.get? key = if key ∈ gone.map PackRecord.key then none
    else store.files.get? key
  count : done.prunedPacks = gone.length
  bytes : done.prunedBytes = totalSize gone

/-- The dry run reports what the real run deletes and deletes nothing, and the real run enforces the
limits. -/
structure DryRunPredicts (blake3 : Blake3) (config : PackStoreConfig) (store : PackStore)
    (now : Int) : Prop where
  untouched : (pruneToLimits blake3 config noDeletionError true store now).store = store
  reported : (pruneToLimits blake3 config noDeletionError true store now).reported =
    (pruneToLimits blake3 config noDeletionError false store now).reported
  result : ∃ done gone,
    (pruneToLimits blake3 config noDeletionError false store now).result = .ok done ∧
    (pruneToLimits blake3 config noDeletionError true store now).result = .ok
      { done with dryRun := true } ∧
    DeletesReported config store
      (pruneToLimits blake3 config noDeletionError false store now) done gone
  owners : ∀ ownerId, FitsOwner config (recordsOfOwner
    (allPackRecords blake3
      (pruneToLimits blake3 config noDeletionError false store now).store) ownerId)
  whole : FitsStore config
    (allPackRecords blake3 (pruneToLimits blake3 config noDeletionError false store now).store)

section Releases

variable {config : PackStoreConfig} {dryRun : Bool} {store : PackStore} {now : Int}
  {records live : List PackRecord}
variable {record : PackRecord}

theorem mem_quotaReleases (released : record ∈ quotaReleases config dryRun live) :
    record ∈ live := by
  rcases List.mem_append.mp released with byOwners | byStore
  · obtain ⟨ownerId, -, byOwner⟩ := List.mem_flatMap.mp byOwners
    exact (ownerReleases_owner byOwner).1
  · exact (afterOwners_kept (mem_passReleases byStore)).1

theorem mem_allReleases (released : record ∈ allReleases config dryRun now records) :
    record ∈ records := by
  rcases List.mem_append.mp released with expired | byQuota
  · exact List.mem_of_mem_filter ((sortedByAge_perm _).mem_iff.mp expired)
  · exact List.mem_of_mem_filter (mem_quotaReleases byQuota)

theorem passReleases_nodup {bytesNeeded countNeeded : Nat} (listing : StoreListing store records) :
    ((passReleases dryRun bytesNeeded countNeeded records).map PackRecord.key).Nodup :=
  listing.sorted.sublist (released_initial.sublist.map PackRecord.key)

/-- Nothing is let go twice. -/
theorem allReleases_nodup (listing : StoreListing store records) :
    ((allReleases config dryRun now records).map PackRecord.key).Nodup := by
  have liveListing : StoreListing store (liveRecords config now records) :=
    listing.sublist List.filter_sublist
  rw [allReleases, quotaReleases, List.map_append, List.map_append,
    List.nodup_append', List.nodup_append']
  refine ⟨(listing.sublist List.filter_sublist).sorted, ⟨?_, ?_, ?_⟩, ?_⟩
  · rw [ownersReleases, List.map_flatMap, List.nodup_flatMap]
    refine ⟨fun ownerId _ => passReleases_nodup (liveListing.sublist List.filter_sublist), ?_⟩
    have distinct : ((ownersOf (liveRecords config now records)).insertionSort (· ≤ ·)).Nodup :=
      (List.perm_insertionSort _ _).nodup_iff.mpr (orderedUnique_nodup _)
    refine distinct.imp fun {left right} different key inLeft inRight => different ?_
    obtain ⟨ofLeft, releasedLeft, rfl⟩ := List.mem_map.mp inLeft
    obtain ⟨ofRight, releasedRight, same⟩ := List.mem_map.mp inRight
    rw [← (ownerReleases_owner releasedLeft).2, ← (ownerReleases_owner releasedRight).2, same]
  · exact passReleases_nodup (liveListing.sublist List.filter_sublist)
  · intro key byOwners byStore
    obtain ⟨record, released, rfl⟩ := List.mem_map.mp byStore
    exact (afterOwners_kept (mem_passReleases released)).2 byOwners
  · intro key expired byQuota
    rw [← List.map_append] at byQuota
    obtain ⟨record, released, rfl⟩ := List.mem_map.mp byQuota
    exact live_not_expired listing (mem_quotaReleases released) expired

end Releases

/-- The dry run predicts the real run if and only if retention keeps every pack without bytes. -/
theorem dryRunPredicts_iff (blake3 : Blake3) (config : PackStoreConfig)
    (store : PackStore) (now : Int) :
    DryRunPredicts blake3 config store now ↔
      ∀ record ∈ allPackRecords blake3 store, record.sizeBytes = 0 →
        record ∈ retained config now (allPackRecords blake3 store) := by
  have listing : StoreListing store (allPackRecords blake3 store) := listing_allPackRecords
  constructor
  · intro predicts record member empty
    obtain ⟨done, gone, real, dry, deletes⟩ := predicts.result
    have reported := congrArg List.length predicts.reported
    rw [pruneToLimits_eq] at real dry
    rw [pruneToLimits_eq, pruneToLimits_eq] at reported
    cases real
    have counts := congrArg PruneResult.prunedPacks (Except.ok.inj dry)
    simp only [plannedResult, List.length_map, counted_dry, total_one] at counts reported
    have nonempty := nonempty_of_total_counted (counts.symm.trans reported)
    rw [← @allReleases_agree config now _ false true nonempty] at nonempty
    by_contra released
    exact nonempty record ((allReleases_dry listing member).mpr released) empty
  · intro kept
    have nonempty : ∀ record ∈ allReleases config true now (allPackRecords blake3 store),
        record.sizeBytes ≠ 0 := by
      intro record released empty
      have member := mem_allReleases released
      exact (allReleases_dry listing member).mp released (kept record member empty)
    have same := @allReleases_agree config now _ true false nonempty
    have alike : ∀ visited : List PackRecord,
        (∀ record ∈ visited, record ∈ allReleases config true now (allPackRecords blake3 store)) →
        total (counted true) visited = total (counted false) visited := fun visited part => by
      rw [total_counted_of_nonempty fun record member => nonempty record (part record member),
        total_counted_of_nonempty fun record member => nonempty record (part record member)]
    have quotas : quotaReleases config false
        (liveRecords config now (allPackRecords blake3 store)) =
        quotaReleases config true (liveRecords config now (allPackRecords blake3 store)) :=
          List.append_cancel_left same
    obtain ⟨owners, whole⟩ := real_fits blake3 config store now
    refine ⟨?_, ?_, ⟨plannedResult config false now (allPackRecords blake3 store),
      allReleases config true now (allPackRecords blake3 store), ?_, ?_, ?_⟩, owners, whole⟩
    · rw [pruneToLimits_eq]
      rfl
    · rw [pruneToLimits_eq, pruneToLimits_eq, same]
    · rw [pruneToLimits_eq]
    · rw [pruneToLimits_eq]
      refine congrArg Except.ok ?_
      rw [plannedResult, plannedResult, same, quotas,
        alike _ fun record member => List.mem_append_left _ member,
        alike _ fun record member => List.mem_append_right _ member,
          alike _ fun record member => member]
    · rw [pruneToLimits_eq, same]
      refine ⟨rfl, allReleases_nodup listing, fun key => get?_storeAfter key, ?_, ?_⟩
      · exact (congrArg _ same).trans (total_counted_of_nonempty nonempty)
      · exact congrArg totalSize same

def onePackConfig : PackStoreConfig where
  rootDir := "/store"
  maxPackBytes := 20
  maxPacksPerOwner := 1
  maxTotalBytesPerOwner := 200
  maxTotalStoreBytes := 200
  maxAgeDays := 0
  pack_pos := by decide
  packs_pos := Nat.zero_lt_one
  owner_fits := by decide
  store_fits := by decide

def emptyAndSeven : Blake3 := .ofTable [
  ([], 0xaf1349b9f5f9a1a6a0404dea36dcc9499bcb25c9adc112b7cc9a93cae41f3262),
  ([7], 0x448bd8dd9624154a690f8e84dc52d6f633ba7cd545c4d3c9b4e0f6a2f6fa71f4)]

/-- An old pack without bytes and a newer one, of the same owner. -/
def emptyAndNewer : PackStore where
  files := .ofList [
    (PackKey.mk (List.replicate 64 'a') (blake3HexDigest emptyAndSeven []),
      { data := [], storedAt := 0 }),
    (PackKey.mk (List.replicate 64 'a') (blake3HexDigest emptyAndSeven [7]),
      { data := [7], storedAt := 1 })]
  signatures := .empty

/-- The real run does not count the empty pack that it has deleted, and deletes the newer one
too. -/
theorem emptyAndNewer_unpredicted :
    ¬ DryRunPredicts emptyAndSeven onePackConfig emptyAndNewer 2 := by
  intro predicts
  have dry : (pruneToLimits emptyAndSeven onePackConfig noDeletionError true emptyAndNewer
      2).reported.length = 1 := by decide +kernel
  have real : (pruneToLimits emptyAndSeven onePackConfig noDeletionError false emptyAndNewer
      2).reported.length = 2 := by
    decide +kernel
  rw [predicts.reported, real] at dry
  cases dry

end Stopan.Packs
