import Stopan.Packs.Quotas

namespace Stopan.Packs

open Stopan.Lib Stopan.Common

section Puts

variable {blake3 : Blake3} {verifier : PackVerifier} {config : PackStoreConfig}

/-- Every pack that was stored and is not expired is still there, and nothing else is. -/
structure LosesNothing (config : PackStoreConfig) (now : Int)
    (before after : PackStore) : Prop where
  kept : ∀ key file, before.files.get? key = some file →
    isExpired config now file.storedAt = false → after.files.get? key = some file
  added : ∀ key, before.files.get? key = none → after.files.get? key = none

theorem LosesNothing.of_files {now : Int} {before after : PackStore}
    (same : after.files = before.files) :
    LosesNothing config now before after :=
  ⟨fun _ _ found _ => same ▸ found, fun _ absent => same ▸ absent⟩

/-- When the quotas cannot be met, no pack that can be deleted and is not expired is in reach of the
pass that finds out. -/
structure SparesOldPacks (blake3 : Blake3) (config : PackStoreConfig)
    (deletionError : PackKey → Option String) (now : Int)
    (store : PackStore) (key : PackKey) (size : Nat) : Prop where
  owner : ¬ OwnerFits blake3 config deletionError store key size →
    ∀ other file, store.files.get? other = some file → isListed blake3 other file = true →
      other.ownerId = key.ownerId → deletionError other = none →
        isExpired config now file.storedAt = true
  whole : OwnerFits blake3 config deletionError store key size →
    ¬ StoreFits blake3 config deletionError store key size →
    ∀ other file, store.files.get? other = some file → isListed blake3 other file = true →
      other.packHash ≠ key.packHash → deletionError other = none →
        isExpired config now file.storedAt = true

section Publication

variable {store written : PackStore} {key : PackKey} {data : Bytes} {signature : PackSignature}
variable {environment : PutEnvironment}

theorem publishPack_files {failure : Option PackStoreError}
    (published : publishPack store key data signature environment = (written, failure)) :
    written.files = store.files ∨ written.files = store.files.set key
      { data, storedAt := environment.storedAt } := by
  unfold publishPack at published
  dsimp only at published
  split at published
  · cases published
    exact .inr rfl
  · split at published <;> cases published
    · exact .inr rfl
    · exact .inl rfl
  · split at published <;> cases published <;> exact .inr rfl

theorem publishPack_none
    (published : publishPack store key data signature environment = (written, none)) :
    environment.publication = .published ∧
      written.files = store.files.set key { data, storedAt := environment.storedAt } := by
  unfold publishPack at published
  cases outcome : environment.publication with
  | published =>
      simp only [outcome] at published
      cases published
      exact ⟨rfl, rfl⟩
  | packFailed replaced reason =>
      simp only [outcome] at published
      cases published
  | signatureFailed replaced reason =>
      simp only [outcome] at published
      cases published

/-- A rollback whose own operations succeed withdraws the pack and raises the first error. -/
theorem abandonPut_eq {reason : PackStoreError} {failure : String}
    (clean : environment.rollback = .none) :
    ∃ restored, abandonPut store key reason failure environment = (restored, .error reason) ∧
      restored.files = store.files.erase key := by
  refine ⟨{ files := store.files.erase key, signatures := store.signatures.erase key }, ?_, rfl⟩
  simp [abandonPut, rollbackNewPublication, clean, RollbackFailures.none]

end Publication

/-- A size that passed the check of the request passes the check of the quotas. -/
theorem validateIncomingQuotaLimits_of_le {size : Nat} (small : size ≤ config.maxPackBytes) :
    validateIncomingQuotaLimits config size = .ok () := by
  have owner := config.owner_fits
  have total := config.store_fits
  have first : ¬ config.maxPackBytes < size := by omega
  have second : ¬ config.maxTotalBytesPerOwner < size := by omega
  have third : ¬ config.maxTotalStoreBytes < size := by omega
  simp [validateIncomingQuotaLimits, first, second, third]

/-- What the checks before the lock establish. -/
structure OfferedPack.Sound (blake3 : Blake3) (config : PackStoreConfig)
    (offered : OfferedPack) : Prop where
  digest : blake3HexDigest blake3 offered.data = offered.key.packHash
  nonempty : 0 < offered.data.length
  small : offered.data.length ≤ config.maxPackBytes

theorem validatePackBytes_ok {ownerId packHash : Text} {data : Bytes}
    {signature : PackSignature} {key : PackKey}
    (checked : validatePackBytes blake3 verifier config ownerId packHash data signature = .ok key) :
    blake3HexDigest blake3 data = key.packHash ∧ 0 < data.length ∧
      data.length ≤ config.maxPackBytes := by
  unfold validatePackBytes at checked
  obtain ⟨owner, -, afterOwner⟩ := bind_eq_ok_iff.mp checked
  obtain ⟨pack, -, afterHash⟩ := bind_eq_ok_iff.mp afterOwner
  obtain ⟨filled, afterFilled⟩ := ensure_bind_eq_ok_iff.mp afterHash
  obtain ⟨small, afterSmall⟩ := ensure_bind_eq_ok_iff.mp afterFilled
  obtain ⟨digest, afterDigest⟩ := ensure_bind_eq_ok_iff.mp afterSmall
  obtain ⟨-, -, built⟩ := bind_eq_ok_iff.mp afterDigest
  cases built
  have inhabited : data ≠ [] := by simpa using filled
  exact ⟨by simpa using digest, List.length_pos_iff.mpr inhabited, of_decide_eq_true small⟩

theorem validatePackFile_ok {ownerId : Text} {path : String} {source : SourceFile}
    {expectedPackHash : Option Text}
    {expectedSizeBytes : Option Nat} {signature : PackSignature} {key : PackKey} {data : Bytes}
    (checked : validatePackFile blake3 verifier config ownerId path source expectedPackHash
      expectedSizeBytes signature = .ok (key, data)) :
    blake3HexDigest blake3 data = key.packHash ∧ 0 < data.length ∧
      data.length ≤ config.maxPackBytes := by
  unfold validatePackFile at checked
  obtain ⟨owner, -, checked⟩ := bind_eq_ok_iff.mp checked
  cases source with
  | unreadable reason => cases checked
  | notRegular => cases checked
  | regular content =>
      obtain ⟨filled, afterFilled⟩ := ensure_bind_eq_ok_iff.mp checked
      obtain ⟨small, afterSmall⟩ := ensure_bind_eq_ok_iff.mp afterFilled
      obtain ⟨-, afterSize⟩ := ensure_bind_eq_ok_iff.mp afterSmall
      obtain ⟨expected, -, afterExpected⟩ := bind_eq_ok_iff.mp afterSize
      obtain ⟨-, afterHash⟩ := ensure_bind_eq_ok_iff.mp afterExpected
      obtain ⟨-, -, built⟩ := bind_eq_ok_iff.mp afterHash
      cases built
      exact ⟨rfl, of_decide_eq_true filled, of_decide_eq_true small⟩

theorem validate_sound {request : PutRequest} {offered : OfferedPack}
    (checked : request.validate blake3 verifier config = .ok offered) :
    offered.Sound blake3 config := by
  cases request with
  | bytes ownerId packHash data signature =>
      obtain ⟨key, valid, built⟩ := bind_eq_ok_iff.mp checked
      cases built
      obtain ⟨digest, nonempty, small⟩ := validatePackBytes_ok valid
      exact ⟨digest, nonempty, small⟩
  | file ownerId path source expectedPackHash expectedSizeBytes signature =>
      obtain ⟨pair, valid, built⟩ := bind_eq_ok_iff.mp checked
      cases built
      obtain ⟨digest, nonempty, small⟩ := validatePackFile_ok valid
      exact ⟨digest, nonempty, small⟩

section Written

variable {store written : PackStore} {key : PackKey} {data : Bytes} {size : Nat}
  {storedAt now : Int}
variable {deletionError : PackKey → Option String}

theorem weight_written (absent : store.files.get? key = none)
    (files : written.files = store.files.set key { data, storedAt })
    (measure : PackKey → PackFile → Nat) (vanishes : ∀ file, measure key file = 0) :
    written.files.weight measure = store.files.weight measure := by
  rw [files, Dict.weight_set_of_not_mem absent, vanishes, Nat.add_zero]

theorem oldOfOwner_self : oldOfOwner key key = false := by simp [oldOfOwner]

theorem oldOfStore_self : oldOfStore key key = false := by simp [oldOfStore]

theorem ownerFits_written (absent : store.files.get? key = none)
    (files : written.files = store.files.set key { data, storedAt }) :
    OwnerFits blake3 config deletionError written key size ↔
      OwnerFits blake3 config deletionError store key size := by
  have count :=
    weight_written absent files (countOf blake3 (blockedWhere deletionError (oldOfOwner key)))
    fun file => by simp [countOf, blockedWhere, oldOfOwner_self]
  have bytes :=
    weight_written absent files (bytesOf blake3 (blockedWhere deletionError (oldOfOwner key)))
    fun file => by simp [bytesOf, blockedWhere, oldOfOwner_self]
  rw [OwnerFits, OwnerFits, count, bytes]

theorem storeFits_written (absent : store.files.get? key = none)
    (files : written.files = store.files.set key { data, storedAt }) :
    StoreFits blake3 config deletionError written key size ↔
      StoreFits blake3 config deletionError store key size := by
  have bytes :=
    weight_written absent files (bytesOf blake3 (blockedWhere deletionError (oldOfStore key)))
    fun file => by simp [bytesOf, blockedWhere, oldOfStore_self]
  rw [StoreFits, StoreFits, bytes]

theorem nonempty_written (nonempty : Nonempty blake3 store)
    (files : written.files = store.files.set key { data, storedAt })
    (filled : 0 < data.length) : Nonempty blake3 written := by
  intro other file found listed
  rw [files, Dict.get?_set] at found
  split at found
  · cases found
    exact filled
  · exact nonempty other file found listed

end Written

section FailedPut

variable {store : PackStore} {key : PackKey} {data : Bytes} {signature : PackSignature}
  {environment : PutEnvironment}

/-- The passes of a put that the rollback follows, and what is left of the store before it. -/
theorem enforced_losesNothing_iff {written pruned restored : PackStore} {storedAt : Int}
    {reason : PackStoreError} (nonempty : Nonempty blake3 store)
    (absent : store.files.get? key = none) (filled : 0 < data.length)
    (files : written.files = store.files.set key { data, storedAt })
    (valid : validateIncomingQuotaLimits config data.length = .ok ())
    (ran : enforcePostStoreQuotas blake3 config environment.deletionError written key
      data.length environment.now = (pruned, .error reason))
    (withdrawn : restored.files = pruned.files.erase key) :
    LosesNothing config environment.now store restored ↔
      SparesOldPacks blake3 config environment.deletionError environment.now store
        key data.length := by
  obtain ⟨gone, passed, enforced⟩ :=
    enforcePostStoreQuotas_enforced (nonempty_written nonempty files filled) valid ran
  have ownerFits := @ownerFits_written blake3 config store written key data data.length storedAt
    environment.deletionError absent files
  have storeFits := @storeFits_written blake3 config store written key data data.length storedAt
    environment.deletionError absent files
  have writtenOther : ∀ other, other ≠ key → written.files.get? other = store.files.get? other := by
    intro other different
    rw [files, Dict.get?_set_of_ne _ _ different]
  have restoredOther : ∀ other, other ≠ key →
      restored.files.get? other = pruned.files.get? other := by
    intro other different
    rw [withdrawn, Dict.get?_erase, if_neg different]
  have distinct : ∀ other file, store.files.get? other = some file → other ≠ key := by
    rintro other file found rfl
    rw [absent] at found
    cases found
  -- A pack that survives a pass which has deleted all it can is one that cannot be deleted.
  have survivor : ∀ condition, Exhausted blake3 environment.deletionError condition pruned →
      ∀ other file,
      LosesNothing config environment.now store restored → store.files.get? other = some file →
      isListed blake3 other file = true → condition other = true →
      environment.deletionError other = none →
      isExpired config environment.now file.storedAt = true := by
    intro condition exhausted other file loses found listed chosen free
    by_contra fresh
    have still := loses.kept other file found (by simpa using fresh)
    rw [restoredOther other (distinct other file found)] at still
    have blocked := exhausted other file still listed
    simp [deletableWhere, chosen, free] at blocked
  -- Conversely, a pass that reaches no such pack has removed expired packs only.
  have spared : (∀ entry ∈ gone, store.files.get? entry.1 = some entry.2 →
      isExpired config environment.now entry.2.storedAt = true) →
        LosesNothing config environment.now store restored := by
    intro expired
    refine ⟨fun other file found fresh => ?_, fun other missing => ?_⟩
    · have different := distinct other file found
      have inWritten : written.files.get? other = some file :=
        (writtenOther other different).trans found
      rw [restoredOther other different]
      refine (passed.erased.found_iff other file).mpr ⟨inWritten, fun member => ?_⟩
      obtain ⟨entry, inside, rfl⟩ := List.mem_map.mp member
      have stored := passed.erased.inside entry inside
      rw [inWritten, Option.some.injEq] at stored
      subst stored
      rw [expired entry inside found] at fresh
      cases fresh
    · by_cases same : other = key
      · rw [same, withdrawn, Dict.get?_erase, if_pos rfl]
      · rw [restoredOther other same]
        by_contra present
        obtain ⟨file, found⟩ := Option.ne_none_iff_exists'.mp present
        have inWritten := passed.erased.found found
        rw [writtenOther other same, missing] at inWritten
        cases inWritten
  cases enforced with
  | ownerFull full exhausted reached =>
      have ownerFull : ¬ OwnerFits blake3 config environment.deletionError store key data.length :=
        fun fits => full (ownerFits.mpr fits)
      constructor
      · intro loses
        refine ⟨fun _ other file found listed owner free => ?_, fun fits => absurd fits ownerFull⟩
        refine survivor _ exhausted other file loses found listed ?_ free
        have hash : other.packHash ≠ key.packHash := by
          intro same
          have equal : other = key := by
            cases other
            cases key
            simp_all
          exact distinct other file found equal
        simp [oldOfOwner, owner, hash]
      · intro spares
        refine spared fun entry member found => ?_
        have free : environment.deletionError entry.1 = none := by
          simpa using (Bool.and_eq_true_iff.mp (passed.allowed entry member)).2
        rcases reached entry member with old | expired
        · have owner : entry.1.ownerId = key.ownerId := by
            simpa using (Bool.and_eq_true_iff.mp old).1
          exact spares.owner ownerFull entry.1 entry.2 found (passed.listed entry member) owner free
        · have inWritten := passed.erased.inside entry member
          simpa [expiredOld, inWritten] using (Bool.and_eq_true_iff.mp expired).2
  | storeFull fits full exhausted =>
      have ownerRoom := ownerFits.mp fits
      have storeFull : ¬ StoreFits blake3 config environment.deletionError store key data.length :=
        fun room => full (storeFits.mpr room)
      constructor
      · intro loses
        refine ⟨fun noRoom => absurd ownerRoom noRoom,
          fun _ _ other file found listed hash free => ?_⟩
        exact survivor _ exhausted other file loses found listed
          (by simpa [oldOfStore] using hash) free
      · intro spares
        refine spared fun entry member found => ?_
        obtain ⟨old, free⟩ := Bool.and_eq_true_iff.mp (passed.allowed entry member)
        exact spares.whole ownerRoom storeFull entry.1 entry.2 found (passed.listed entry member)
          (by simpa [oldOfStore] using old) (by simpa using free)

/-- A publication that fails is withdrawn and leaves every other file as it was. -/
theorem publishFailed_losesNothing {written restored : PackStore} {failure : Option PackStoreError}
    (absent : store.files.get? key = none)
    (published : publishPack store key data signature environment = (written, failure))
    (withdrawn : restored.files = written.files.erase key) :
    LosesNothing config environment.now store restored := by
  have other : ∀ stored, stored ≠ key → restored.files.get? stored = store.files.get? stored := by
    intro stored different
    rw [withdrawn, Dict.get?_erase, if_neg different]
    rcases publishPack_files published with same | set
    · rw [same]
    · rw [set, Dict.get?_set_of_ne _ _ different]
  refine ⟨fun stored file found _ => ?_, fun stored missing => ?_⟩
  · have different : stored ≠ key := by
      rintro rfl
      rw [absent] at found
      cases found
    exact (other stored different).trans found
  · by_cases same : stored = key
    · rw [same, withdrawn, Dict.get?_erase, if_pos rfl]
    · exact (other stored same).trans missing

theorem putValidated_losesNothing_iff {offered : OfferedPack} (nonempty : Nonempty blake3 store)
    (clean : environment.rollback = .none) (sound : offered.Sound blake3 config) :
    (∀ reason, (putValidated blake3 config store offered.key offered.data offered.signature
      environment).2 = .error reason →
        LosesNothing config environment.now store
          (putValidated blake3 config store offered.key offered.data
            offered.signature environment).1) ↔
      (store.files.get? offered.key = none → environment.publication = .published →
        SparesOldPacks blake3 config environment.deletionError environment.now store offered.key
          offered.data.length) := by
  unfold putValidated
  cases existing : store.files.get? offered.key with
  | some file =>
      -- The files do not change when the pack is already there.
      refine iff_of_true (fun reason _ => .of_files ?_) (fun absent => nomatch absent)
      dsimp only
      split
      · rfl
      · split
        · split <;> rfl
        · rfl
  | none =>
      have valid := validateIncomingQuotaLimits_of_le sound.small
      simp only [valid, forall_const]
      cases published : publishPack store offered.key offered.data
        offered.signature environment with
      | mk written failure =>
          cases failure with
          | some reason =>
              obtain ⟨restored, abandoned, withdrawn⟩ :=
                @abandonPut_eq written offered.key environment reason
                "falló la publicación de metadata pack y su reversión: " clean
              simp only [abandoned]
              refine iff_of_true
                (fun _ _ => publishFailed_losesNothing existing published withdrawn)
                  fun success => ?_
              simp [publishPack, success] at published
          | none =>
              obtain ⟨success, files⟩ := publishPack_none published
              simp only [success, forall_const]
              cases enforced : enforcePostStoreQuotas blake3 config
                  environment.deletionError written offered.key
                  offered.data.length environment.now with
              | mk pruned result =>
                  cases result with
                  | error reason =>
                      obtain ⟨restored, abandoned, withdrawn⟩ :=
                        @abandonPut_eq pruned offered.key environment reason
                        "falló la aplicación de cuotas y no pudo revertirse la publicación del metadata pack: " clean
                      simp only [abandoned, Except.error.injEq, forall_eq']
                      exact enforced_losesNothing_iff nonempty existing sound.nonempty files
                        valid enforced withdrawn
                  | ok counts =>
                      obtain ⟨gone, -, outcome⟩ := enforcePostStoreQuotas_enforced
                        (nonempty_written nonempty files sound.nonempty) valid enforced
                      cases outcome with
                      | accepted ownerFits storeFits within =>
                          refine iff_of_true (fun reason raised => nomatch raised)
                            ⟨fun full => ?_, fun _ full => ?_⟩
                          · exact absurd ((ownerFits_written existing files).mp ownerFits) full
                          · exact absurd ((storeFits_written existing files).mp storeFits) full

/-- For every store, every request and every set of packs that cannot be deleted: a put that raises
leaves every pack that is not expired and nothing new, if and only if, whenever the request gets as
far as the quotas, the packs that cannot be deleted leave room for the new one, or the pass that
finds no room has no deletable unexpired pack in reach. -/
theorem putPack_losesNothing_iff {request : PutRequest} (nonempty : Nonempty blake3 store)
    (clean : environment.rollback = .none) :
    (∀ reason, (putPack blake3 verifier config store request environment).2 = .error reason →
        LosesNothing config environment.now store
          (putPack blake3 verifier config store request environment).1) ↔
      ∀ offered, request.validate blake3 verifier config = .ok offered →
        store.files.get? offered.key = none → environment.publication = .published →
        SparesOldPacks blake3 config environment.deletionError environment.now store offered.key
          offered.data.length := by
  unfold putPack
  cases checked : request.validate blake3 verifier config with
  | error reason =>
      exact iff_of_true (fun _ _ => .of_files rfl) (fun _ impossible => nomatch impossible)
  | ok offered =>
      simp only [Except.ok.injEq, forall_eq']
      exact putValidated_losesNothing_iff nonempty clean (validate_sound checked)

end FailedPut

end Puts

namespace OnePackQuota

def oldData : Bytes := [111, 108, 100]

def keptData : Bytes := [107, 101, 112, 116]

def newData : Bytes := [110, 101, 119]

def blake3 : Blake3 := .ofTable [
  (oldData, 0x96a4257289f9ebcbc94bfc49276f89ed87f8c951e3fa832d44dceb9b220520a5),
  (keptData, 0x5e6f1a1a18575bd6705c9f36b25b50795525dc34e37f11bcbf0ff4bb1ff690e5),
  (newData, 0xb20ab0a020a48d349e0c64d109c441f87c9bc43d49fc701c4a5f6f1b16aa4e32)]

def owner : Text := List.replicate 64 'a'

def keyOf (data : Bytes) : PackKey where
  ownerId := owner
  packHash := blake3HexDigest blake3 data

def config : PackStoreConfig where
  rootDir := "/packs"
  maxPackBytes := 10
  maxPacksPerOwner := 1
  maxTotalBytesPerOwner := 100
  maxTotalStoreBytes := 100
  maxAgeDays := 0
  pack_pos := by decide
  packs_pos := by decide
  owner_fits := by decide
  store_fits := by decide

def signature : PackSignature where
  publicKeyB64 := ['k']
  signatureB64 := ['s']

def verifier : PackVerifier where
  verifies := fun _ _ => true

def storeOf (packs : List Bytes) : PackStore where
  files := .ofList (packs.map fun data => (keyOf data, { data, storedAt := data.length }))
  signatures := .ofList (packs.map fun data => (keyOf data, signature))

/-- Only the pack `keptData` cannot be deleted. -/
def environment : PutEnvironment where
  storedAt := 9
  now := 9
  publication := .published
  deletionError := fun key => if key = keyOf keptData then some "EBUSY" else none
  rollback := .none

def request : PutRequest := .bytes owner (keyOf newData).packHash newData signature

def put (store : PackStore) : PackStore × Except PackStoreError StorePackResult :=
  putPack blake3 verifier config store request environment

theorem nonempty_storeOf {packs : List Bytes} (filled : ∀ data ∈ packs, 0 < data.length) :
    Nonempty blake3 (storeOf packs) := by
  intro key file found _
  obtain ⟨data, member, built⟩ := List.mem_map.mp (Dict.mem_of_get?_ofList found)
  cases built
  exact filled data member

end OnePackQuota

open OnePackQuota in
theorem partialPrune_losesPack :
    (∃ reason, (put (storeOf [oldData, keptData])).2 = .error reason) ∧
      (storeOf [oldData, keptData]).files.get? (keyOf oldData) = some
        { data := oldData, storedAt := 3 } ∧
      (put (storeOf [oldData, keptData])).1.files.get? (keyOf oldData) = none ∧
      ¬ LosesNothing config environment.now (storeOf [oldData, keptData])
        (put (storeOf [oldData, keptData])).1 := by
  have raised : (put (storeOf [oldData, keptData])).2.toBool = false := by decide +kernel
  have stored : (storeOf [oldData, keptData]).files.get? (keyOf oldData) = some
      { data := oldData, storedAt := 3 } := by
    decide +kernel
  have lost : (put (storeOf [oldData, keptData])).1.files.get? (keyOf oldData) = none := by
    decide +kernel
  refine ⟨?_, stored, lost, fun keeps => ?_⟩
  · cases outcome : (put (storeOf [oldData, keptData])).2 with
    | error reason => exact ⟨reason, rfl⟩
    | ok result => simp [outcome, Except.toBool] at raised
  · have still := keeps.kept _ _ stored (by decide)
    rw [lost] at still
    cases still

open OnePackQuota in
/-- With nothing to delete the put raises as well, and the pack that fills the quota stays. -/
theorem blockedPrune_keepsPack :
    (put (storeOf [keptData])).2.toBool = false ∧
      (put (storeOf [keptData])).1.files.get? (keyOf keptData) = some
        { data := keptData, storedAt := 4 } := by
  have raised : (put (storeOf [keptData])).2.toBool = false := by decide +kernel
  refine ⟨raised, ?_⟩
  have keeps :=
    (@putPack_losesNothing_iff blake3 verifier config (storeOf [keptData]) environment request
    (nonempty_storeOf (by decide)) rfl).mpr ?_
  · cases outcome : (put (storeOf [keptData])).2 with
    | error reason => exact (keeps reason outcome).kept _ _ (by decide +kernel) (by decide)
    | ok result => simp [outcome, Except.toBool] at raised
  · have blocked : ∀ other file, (storeOf [keptData]).files.get? other = some file →
        environment.deletionError other ≠ none := by
      intro other file found
      obtain ⟨data, member, built⟩ := List.mem_map.mp (Dict.mem_of_get?_ofList found)
      cases built
      rw [List.mem_singleton.mp member]
      simp [environment]
    intro offered _ _ _
    exact ⟨fun _ other file found _ _ free => absurd free (blocked other file found),
      fun _ _ other file found _ _ free => absurd free (blocked other file found)⟩

end Stopan.Packs
