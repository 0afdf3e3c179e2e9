import Stopan.Packs.Limits
import Stopan.Node.MetadataPackService

namespace Stopan.Packs

open Stopan.Lib Stopan.Common Stopan.Node

section Put

variable {blake3 : Blake3} {verifier : PackVerifier} {config : PackStoreConfig}
  {deletionError : PackKey → Option String}
variable {store after : PackStore} {key : PackKey} {record : PackRecord}

theorem pruneOne_signature {state : PruneState} (other : record.key ≠ key) :
    (pruneOne config deletionError state record).store.signatures.get? key =
      state.store.signatures.get? key := by
  rw [pruneOne]
  split
  · rfl
  · rename_i after deleted removed
    have kept : after.signatures.get? key = state.store.signatures.get? key := by
      rw [deleteRecord] at removed
      split at removed
      · cases removed
      · split at removed
        · cases removed
        · cases removed
          exact (Dict.get?_erase ..).trans (if_neg other.symm)
    split
    · exact kept
    · exact kept

theorem pruneLoop_signature {records : List PackRecord} {state : PruneState}
    (others : ∀ record ∈ records, record.key ≠ key) :
    (pruneLoop config deletionError records state).store.signatures.get? key =
      state.store.signatures.get? key := by
  induction records generalizing state with
  | nil => rfl
  | cons record rest ih =>
      rw [pruneLoop]
      split
      · rfl
      · rw [ih fun other later => others other (List.mem_cons_of_mem _ later)]
        exact pruneOne_signature (others record List.mem_cons_self)

/-- A record that is not protected is not the new pack. -/
theorem unprotected_ne (unprotected : (record.key.packHash != key.packHash) = true) :
    record.key ≠ key := by
  rintro rfl
  simp at unprotected

theorem pruneRecords_signature {candidates : List PackRecord} {bytes count : Nat}
    {errors : List String} :
    (pruneRecords config deletionError store candidates bytes count key.packHash
      errors).1.store.signatures.get? key = store.signatures.get? key := by
  have kept := @pruneLoop_signature config deletionError key
    (sortedByAge (candidates.filter fun record => record.key.packHash != key.packHash))
    (.start store bytes count errors) fun record member =>
      unprotected_ne (List.mem_filter.mp ((List.mem_insertionSort _).mp member)).2
  rw [pruneRecords]
  split
  · exact kept
  · exact kept

theorem pruneExpiredRecords_signature {records : List PackRecord} {now : Int}
    {errors : List String} :
    (pruneExpiredRecords config deletionError store records key.packHash now
      errors).store.signatures.get? key = store.signatures.get? key := by
  refine List.foldlRecOn (motive := fun state : PruneState => state.store.signatures.get? key =
    store.signatures.get? key)
    _ _ rfl fun state kept record member => ?_
  have selected := (List.mem_filter.mp ((List.mem_insertionSort _).mp member)).2
  exact (pruneOne_signature (unprotected_ne (Bool.and_eq_true_iff.mp selected).1)).trans kept

/-- The quotas leave the sidecar of the new pack. -/
theorem enforcePostStoreQuotas_signature {size : Nat} {now : Int} :
    (enforcePostStoreQuotas blake3 config deletionError store key size now).1.signatures.get? key =
      store.signatures.get? key := by
  rw [enforcePostStoreQuotas]
  split
  · rfl
  · have expired := @pruneExpiredRecords_signature config deletionError store key
      (allPackRecords blake3 store) now []
    generalize pruneExpiredRecords config deletionError store
      (allPackRecords blake3 store) key.packHash now [] = first at expired
    have owner := @pruneRecords_signature config deletionError first.store key
    dsimp only
    cases ownerPass : pruneOwner blake3 config deletionError first.store key size first.errors with
    | mk second shortage =>
        have ownerKept : second.store.signatures.get? key = store.signatures.get? key := by
          rw [← expired, ← owner]
          exact congrArg (fun run : PruneState × Option PackStoreError =>
            run.1.store.signatures.get? key) ownerPass.symm
        cases shortage with
        | some reason => exact ownerKept
        | none =>
            have whole := @pruneRecords_signature config deletionError second.store key
            dsimp only
            cases globalPass : pruneGlobal blake3 config deletionError second.store key
              size second.errors with
            | mk third shortage =>
                have kept : third.store.signatures.get? key = store.signatures.get? key := by
                  rw [← ownerKept, ← whole]
                  exact congrArg (fun run : PruneState × Option PackStoreError =>
                    run.1.store.signatures.get? key) globalPass.symm
                cases shortage with
                | some reason => exact kept
                | none => exact kept

theorem weight_blocked (free : ∀ other, deletionError other = none) (condition : PackKey → Bool) :
    store.files.weight (bytesOf blake3 (blockedWhere deletionError condition)) = 0 ∧
      store.files.weight (countOf blake3 (blockedWhere deletionError condition)) = 0 := by
  have unblocked : ∀ other, blockedWhere deletionError condition other = false := fun other => by
    rw [blockedWhere, free, Option.isSome_none, Bool.and_false]
  constructor
  · rw [Dict.weight, List.sum_eq_zero_iff]
    intro value member
    obtain ⟨entry, -, rfl⟩ := List.mem_map.mp member
    rw [bytesOf, unblocked, Bool.and_false]
    rfl
  · rw [Dict.weight, List.sum_eq_zero_iff]
    intro value member
    obtain ⟨entry, -, rfl⟩ := List.mem_map.mp member
    rw [countOf, unblocked, Bool.and_false]
    rfl

/-- Where every old pack can be deleted there is room for a new one. -/
theorem enforcePostStoreQuotas_free {size : Nat} {now : Int}
    {result : Except PackStoreError (Nat × Nat)} (free : ∀ other, deletionError other = none)
    (nonempty : Nonempty blake3 store) (small : size ≤ config.maxPackBytes)
    (ran : enforcePostStoreQuotas blake3 config deletionError store key size now =
      (after, result)) :
    (∃ pruned, result = .ok pruned) ∧ after.files.get? key = store.files.get? key := by
  have ownerBlocked := @weight_blocked blake3 deletionError store free (oldOfOwner key)
  have storeBlocked := @weight_blocked blake3 deletionError store free (oldOfStore key)
  have packs := config.packs_pos
  have ownerLimit := config.owner_fits
  have storeLimit := config.store_fits
  have ownerFits : OwnerFits blake3 config deletionError store key size := by
    rw [OwnerFits, ownerBlocked.1, ownerBlocked.2]
    omega
  have storeFits : StoreFits blake3 config deletionError store key size := by
    rw [StoreFits, storeBlocked.1]
    omega
  obtain ⟨gone, passed, ended⟩ :=
    enforcePostStoreQuotas_enforced nonempty (validateIncomingQuotaLimits_of_le small) ran
  refine ⟨?_, passed.kept (by simp [deletableWhere, oldOfStore_self])⟩
  cases ended with
  | accepted => exact ⟨_, rfl⟩
  | ownerFull full => exact absurd ownerFits full
  | storeFull fits full => exact absurd storeFits full

/-- The store has taken a pack. A pack that was there is left as it was. -/
structure Taken (blake3 : Blake3) (before after : PackStore) (offered : OfferedPack)
    (result : StorePackResult) : Prop where
  key : result.key = offered.key
  file : ∃ file, after.files.get? offered.key = some file ∧
    blake3HexDigest blake3 file.data = offered.key.packHash ∧
    (before.files.get? offered.key = none → file.data = offered.data) ∧
    (∀ existing, before.files.get? offered.key = some existing → file = existing)
  signature : after.signatures.get? offered.key = some offered.signature

theorem putValidated_taken {offered : OfferedPack} {environment : PutEnvironment}
    (intact : Intact blake3 store)
    (sound : offered.Sound blake3 config) (published : environment.publication = .published)
    (free : ∀ other, environment.deletionError other = none) :
    ∃ after result, putValidated blake3 config store offered.key offered.data offered.signature
      environment = (after, .ok result) ∧ Taken blake3 store after offered result := by
  cases existing : store.files.get? offered.key with
  | some file =>
      have hash : blake3HexDigest blake3 file.data = offered.key.packHash :=
        eq_of_beq (intact offered.key file existing).1
      refine ⟨addSignature store offered.key offered.signature, {
        key := offered.key
        sizeBytes := file.data.length
        stored := false
        alreadyPresent := true
        prunedPacks := 0
        prunedBytes := 0 }, ?_, rfl, ⟨file, existing, hash, fun none => ?_, fun other same => ?_⟩,
          Dict.get?_set_self ..⟩
      · simp only [putValidated, existing, hash, published, ne_eq, not_true_eq_false, if_false]
      · rw [existing] at none
        cases none
      · rw [existing] at same
        exact Option.some.inj same
  | none =>
      obtain ⟨written, signed⟩ : ∃ written,
          publishPack store offered.key offered.data offered.signature environment =
          (written, none) := by
        rw [publishPack, published]
        exact ⟨_, rfl⟩
      obtain ⟨-, files⟩ := publishPack_none signed
      have sidecar : written.signatures.get? offered.key = some offered.signature := by
        rw [publishPack, published] at signed
        cases signed
        exact Dict.get?_set_self ..
      cases enforced : enforcePostStoreQuotas blake3 config environment.deletionError written
          offered.key offered.data.length
          environment.now with
      | mk pruned outcome =>
          obtain ⟨⟨counts, rfl⟩, found⟩ := enforcePostStoreQuotas_free free
            (nonempty_written intact.nonempty files sound.nonempty) sound.small enforced
          have kept :=
            @enforcePostStoreQuotas_signature blake3 config
              environment.deletionError written offered.key
            offered.data.length environment.now
          rw [enforced] at kept
          rw [files, Dict.get?_set_self] at found
          refine ⟨pruned, {
            key := offered.key
            sizeBytes := offered.data.length
            stored := true
            alreadyPresent := false
            prunedPacks := counts.1
            prunedBytes := counts.2 }, ?_, rfl,
              ⟨_, found, sound.digest, fun _ => rfl, fun other same => ?_⟩,
            kept.trans sidecar⟩
          · simp only [putValidated, existing, validateIncomingQuotaLimits_of_le sound.small,
              signed, enforced]
          · rw [existing] at same
            cases same

end Put

/-- The file system does what it is asked to. -/
structure Clean (conditions : StoreConditions) : Prop where
  create : conditions.createError = none
  writes : ∀ offset, conditions.writeError offset = none
  sync : conditions.syncError = none
  unlink : conditions.unlinkFails = false
  published : conditions.put.publication = .published
  free : ∀ key, conditions.put.deletionError key = none

def MetadataPackStoreStatus.isPublished (status : MetadataPackStoreStatus) : Bool :=
  decide (status = .stored ∨ status = .alreadyPresent)

/-- The call has answered that the pack is stored. -/
def Published : CallEnd StoreMetadataPackResponse → Bool
  | .replied response _ => MetadataPackStoreStatus.isPublished response.status
  | .aborted _ _ => false

/-- A stream with a header and blocks that make up a pack of the announced size and hash, with a
valid signature of the owner and within the limits. -/
structure WholeAndAuthentic (service : MetadataPackService)
    (requests : PartStream StoreMetadataPackHeader UInt8) (offered : OfferedPack) : Prop where
  unbroken : requests.failure = none
  parts : ∃ header blocks, requests.parts = .header header :: blockParts blocks ∧
    blocks.flatten = offered.data ∧
    service.checkToken header.clusterToken = none ∧
    validateOwnerId header.ownerId = .ok offered.key.ownerId ∧
    validatePackHash header.packHash = .ok offered.key.packHash ∧
    header.sizeBytes = offered.data.length ∧ header.signature = offered.signature
  admitted : service.draining = false
  hash : blake3HexDigest service.blake3 offered.data = offered.key.packHash
  signed : checkSignature service.verifier offered.key offered.signature = .ok ()
  nonempty : 0 < offered.data.length
  fits : offered.data.length ≤ service.config.maxPackBytes

section Streams

variable {service : MetadataPackService} {conditions : StoreConditions}
  {files after : PackServiceFiles}
variable {header : StoreMetadataPackHeader} {key : PackKey} {size : Nat} {content : Bytes}
  {signature : PackSignature}
variable {requests : PartStream StoreMetadataPackHeader UInt8} {offered : OfferedPack}

theorem checkSignature_eq_ok_iff {verifier : PackVerifier} :
    checkSignature verifier key signature = .ok () ↔
      (signature.publicKeyB64.isEmpty || signature.signatureB64.isEmpty) = false ∧
        verifier.verifies key signature = true := by
  rw [checkSignature]
  cases missing : signature.publicKeyB64.isEmpty || signature.signatureB64.isEmpty with
  | true => simp
  | false => cases valid : verifier.verifies key signature <;> simp

theorem validateOwnerId_eq_ok {value owner : Text} (valid : validateOwnerId value = .ok owner) :
    isValidBlake3Hex owner = true := by
  rw [validateOwnerId] at valid
  split at valid
  · cases valid
    assumption
  · cases valid

theorem validateOwnerId_of_valid {owner : Text} (valid : isValidBlake3Hex owner = true) :
    validateOwnerId owner = .ok owner := by
  rw [validateOwnerId, strip_of_isValidBlake3Hex valid, if_pos valid]

theorem validatePackHash_of_valid {hash : Text} (valid : isValidBlake3Hex hash = true) :
    validatePackHash hash = .ok hash := by
  rw [validatePackHash, strip_of_isValidBlake3Hex valid, if_pos valid]

/-- What the checks of a header that is accepted establish. -/
structure HeaderAccepted (service : MetadataPackService) (header : StoreMetadataPackHeader)
    (key : PackKey) (size : Nat) :
    Prop where
  owner : validateOwnerId header.ownerId = .ok key.ownerId
  named : validatePackHash header.packHash = .ok key.packHash
  sized : header.sizeBytes = size
  positive : 0 < size
  small : size ≤ service.config.maxPackBytes
  signed : checkSignature service.verifier key header.signature = .ok ()

theorem checkHeader_ok (checked : service.checkHeader header = .ok (key, size)) :
    HeaderAccepted service header key size := by
  rw [MetadataPackService.checkHeader] at checked
  split at checked
  · cases checked
  · rename_i ownerId owner
    split at checked
    · cases checked
    · rename_i packHash hash
      dsimp only at checked
      split at checked
      · cases checked
      · split at checked
        · cases checked
        · split at checked
          · cases checked
          · rename_i positive small present
            split at checked
            · cases checked
            · rename_i valid
              cases checked
              refine ⟨owner, hash, by omega, by omega, by omega,
                checkSignature_eq_ok_iff.mpr ⟨?_, ?_⟩⟩
              · exact Bool.eq_false_iff.mpr present
              · simpa using valid

theorem checkHeader_of_accepted (accepted : HeaderAccepted service header key size) :
    service.checkHeader header = .ok (key, size) := by
  obtain ⟨present, valid⟩ := checkSignature_eq_ok_iff.mp accepted.signed
  have announced : header.sizeBytes.toNat = size := by
    rw [accepted.sized]
    rfl
  have positive : ¬ header.sizeBytes ≤ 0 := by
    have := accepted.positive
    have := accepted.sized
    omega
  have small : ¬ service.config.maxPackBytes < size := not_lt.mpr accepted.small
  rw [MetadataPackService.checkHeader, accepted.owner, accepted.named]
  simp only [announced, if_neg positive, if_neg small, present, valid, Bool.not_true,
    Bool.false_eq_true, if_false]

def bodyPublishes (ended : MetadataPackService.BodyEnd) : Bool := Published ended.call

theorem bodyPublishes_answered (response : StoreMetadataPackResponse) :
    bodyPublishes (.answered response) = MetadataPackStoreStatus.isPublished response.status := rfl

theorem bodyPublishes_raised (reason : PackStoreError) :
    bodyPublishes (.raised reason) = false := by
  cases reason <;> rfl

theorem checkHeader_error {ended : MetadataPackService.BodyEnd}
    (refused : service.checkHeader header = .error ended) :
    bodyPublishes ended = false := by
  rw [MetadataPackService.checkHeader] at refused
  split at refused
  · cases refused
    exact bodyPublishes_raised _
  · split at refused
    · cases refused
      exact bodyPublishes_raised _
    · dsimp only at refused
      split at refused
      · cases refused
        rfl
      · split at refused
        · cases refused
          rfl
        · split at refused
          · cases refused
            rfl
          · split at refused
            · cases refused
              rfl
            · cases refused

theorem publishIncoming_published {store : PackStore}
    (published : bodyPublishes
      (service.publishIncoming conditions store key size signature content).2 = true) :
    content.length = size ∧ blake3HexDigest service.blake3 content = key.packHash := by
  rw [MetadataPackService.publishIncoming] at published
  split at published
  · cases published
  · split at published
    · cases published
    · exact ⟨not_not.mp ‹_›, not_not.mp ‹_›⟩

/-- A checked file is taken by an intact store. -/
theorem publishIncoming_taken {store : PackStore} (clean : Clean conditions)
    (intact : Intact service.blake3 store) (owner : isValidBlake3Hex offered.key.ownerId = true)
    (hash : blake3HexDigest service.blake3 offered.data = offered.key.packHash)
    (signed : checkSignature service.verifier offered.key offered.signature = .ok ())
    (nonempty : 0 < offered.data.length)
    (fits : offered.data.length ≤ service.config.maxPackBytes) :
    ∃ after result, service.publishIncoming conditions store offered.key offered.data.length
        offered.signature offered.data =
        (after, .answered (service.storedResponse after offered.signature result)) ∧
      Taken service.blake3 store after offered result := by
  have packHash : isValidBlake3Hex offered.key.packHash = true :=
    hash ▸ blake3HexDigest_valid service.blake3 offered.data
  have sound : offered.Sound service.blake3 service.config := ⟨hash, nonempty, fits⟩
  obtain ⟨after, result, put, taken⟩ := putValidated_taken intact sound clean.published clean.free
  have validated : (PutRequest.file offered.key.ownerId (String.ofList conditions.incomingName)
      (.regular offered.data)
      (some offered.key.packHash) (some offered.data.length) offered.signature).validate
        service.blake3 service.verifier
        service.config = .ok offered := by
    have checked : validatePackFile service.blake3 service.verifier
        service.config offered.key.ownerId
        (String.ofList conditions.incomingName) (.regular offered.data) (some offered.key.packHash)
          (some offered.data.length)
        offered.signature = .ok (offered.key, offered.data) := by
      refine bind_eq_ok_iff.mpr ⟨offered.key.ownerId, validateOwnerId_of_valid owner, ?_⟩
      refine ensure_bind_eq_ok_iff.mpr ⟨decide_eq_true nonempty,
        ensure_bind_eq_ok_iff.mpr ⟨decide_eq_true fits, ?_⟩⟩
      refine ensure_bind_eq_ok_iff.mpr ⟨by simp [agrees], ?_⟩
      refine bind_eq_ok_iff.mpr ⟨some offered.key.packHash, ?_,
        ensure_bind_eq_ok_iff.mpr ⟨by simp [agrees, hash], ?_⟩⟩
      · rw [Option.mapM_some, validatePackHash_of_valid packHash]
        rfl
      · rw [hash]
        exact bind_eq_ok_iff.mpr ⟨(), signed, rfl⟩
    exact bind_eq_ok_iff.mpr ⟨_, checked, rfl⟩
  refine ⟨after, result, ?_, taken⟩
  rw [MetadataPackService.publishIncoming, if_neg (not_not.mpr rfl),
    if_neg (not_not.mpr hash), putPack, validated]
  dsimp only
  rw [put]

theorem storedResponse_published (store : PackStore) (signature : PackSignature)
    (result : StorePackResult) :
    MetadataPackStoreStatus.isPublished
      (service.storedResponse store signature result).status = true := by
  rw [MetadataPackService.storedResponse]
  cases result.alreadyPresent <;> rfl

variable {parts : List (Part StoreMetadataPackHeader UInt8)} {failure : Option String}

theorem receivePack_published
    (published : bodyPublishes
      (service.receivePack conditions files key size signature parts failure).2 = true) :
    failure = none ∧ ∃ blocks, parts = blockParts blocks ∧ blocks.flatten.length = size ∧
      blake3HexDigest service.blake3 blocks.flatten = key.packHash := by
  rw [MetadataPackService.receivePack] at published
  cases created : conditions.createError with
  | some reason =>
      rw [created] at published
      cases published
  | none =>
      simp only [created] at published
      cases gathered : gather (min size service.config.maxPackBytes) conditions.writeError failure
        [] parts with
      | mk content ended =>
          simp only [gathered] at published
          cases ended with
          | some reason =>
              cases reason <;> cases published
          | none =>
              obtain ⟨whole, blocks, rfl, all, -⟩ := gather_eq_none gathered
              cases synced : conditions.syncError with
              | some reason =>
                  simp only [synced] at published
                  cases published
              | none =>
                  simp only [synced] at published
                  obtain ⟨length, hash⟩ := publishIncoming_published published
                  rw [List.nil_append] at all
                  rw [all] at length hash
                  exact ⟨whole, blocks, rfl, length, hash⟩

/-- Only whole and authentic streams are answered as stored, whatever the file system does. -/
theorem storeMetadataPack_published
    (published : Published (service.storeMetadataPack conditions files requests).2 = true) :
    ∃ offered, WholeAndAuthentic service requests offered := by
  rw [MetadataPackService.storeMetadataPack] at published
  split at published
  · split at published
    · cases published
    · cases published
  · cases published
  · cases published
  · rename_i header parts opening
    split at published
    · cases published
    · rename_i token
      split at published
      · cases published
      · rename_i admitted
        cases checked : service.checkHeader header with
        | error ended =>
            simp only [checked] at published
            have refused := checkHeader_error checked
            rw [bodyPublishes, published] at refused
            cases refused
        | ok announced =>
            obtain ⟨key, size⟩ := announced
            simp only [checked] at published
            have accepted := checkHeader_ok checked
            obtain ⟨unbroken, blocks, rfl, length, hash⟩ := receivePack_published published
            have positive := accepted.positive
            have small := accepted.small
            refine ⟨{ key, data := blocks.flatten, signature := header.signature }, unbroken,
              ⟨header, blocks, opening, rfl, token, accepted.owner, accepted.named, ?_, rfl⟩,
              Bool.eq_false_iff.mpr admitted, hash, accepted.signed, ?_, ?_⟩
            · rw [accepted.sized, length]
            · dsimp only
              omega
            · dsimp only
              omega

/-- A whole and authentic stream is stored, and answered so. -/
theorem storeMetadataPack_taken (clean : Clean conditions)
    (intact : Intact service.blake3 files.store)
    (whole : WholeAndAuthentic service requests offered) :
    ∃ after result, service.storeMetadataPack conditions files requests =
        ({ store := after
           incoming :=
             (files.incoming.set conditions.incomingName offered.data).erase
               conditions.incomingName },
          .replied (service.storedResponse after offered.signature result) none) ∧
      Taken service.blake3 files.store after offered result := by
  obtain ⟨header, blocks, opening, all, token, owner, named, sized, signature⟩ := whole.parts
  have accepted : HeaderAccepted service header offered.key offered.data.length :=
    ⟨owner, named, sized, whole.nonempty, whole.fits, signature ▸ whole.signed⟩
  have fits : ([] ++ blocks.flatten).length ≤
      min offered.data.length service.config.maxPackBytes := by
    rw [List.nil_append, all]
    exact le_min le_rfl whole.fits
  have gathered := @gather_blocks StoreMetadataPackHeader UInt8 _ _ _ clean.writes blocks fits
  rw [List.nil_append, all] at gathered
  obtain ⟨after, result, published, taken⟩ :=
    publishIncoming_taken clean intact (validateOwnerId_eq_ok owner) whole.hash
    whole.signed whole.nonempty whole.fits
  refine ⟨after, result, ?_, taken⟩
  rw [MetadataPackService.storeMetadataPack, opening]
  simp only [token, whole.admitted, Bool.false_eq_true, if_false, checkHeader_of_accepted accepted,
    whole.unbroken,
    MetadataPackService.receivePack, clean.create, gathered, clean.sync, signature, published,
    MetadataPackService.removeIncoming, clean.unlink]
  rfl

/-- What a reception does to the files: nothing, or it leaves the received bytes, which may have
gone to the store. -/
theorem receivePack_cases :
    (service.receivePack conditions files key size signature parts failure).1 = files ∨
    ∃ content, (service.receivePack conditions files key size signature parts failure).1.incoming =
        files.incoming.set conditions.incomingName content ∧
      ((service.receivePack conditions files key size signature parts failure).1.store =
        files.store ∨
        (service.receivePack conditions files key size signature parts failure).1.store =
            (service.publishIncoming conditions files.store key size signature content).1 ∧
          (service.receivePack conditions files key size signature parts failure).2 =
            (service.publishIncoming conditions files.store key size signature content).2) := by
  rw [MetadataPackService.receivePack]
  cases conditions.createError with
  | some reason => exact .inl rfl
  | none =>
      right
      dsimp only
      refine ⟨(gather (min size service.config.maxPackBytes) conditions.writeError failure
        [] parts).1, ?_⟩
      cases gather (min size service.config.maxPackBytes) conditions.writeError failure
        [] parts with
      | mk content ended =>
          cases ended with
          | some reason => cases reason <;> exact ⟨rfl, .inl rfl⟩
          | none =>
              cases conditions.syncError with
              | some reason => exact ⟨rfl, .inl rfl⟩
              | none => exact ⟨rfl, .inr ⟨rfl, rfl⟩⟩

theorem publishIncoming_refused {store : PackStore} (clean : Clean conditions)
    (intact : Intact service.blake3 store) (accepted : HeaderAccepted service header key size)
    (refused : bodyPublishes
      (service.publishIncoming conditions store key size header.signature content).2 = false) :
    (service.publishIncoming conditions store key size header.signature content).1 = store := by
  by_cases whole : content.length = size ∧ blake3HexDigest service.blake3 content = key.packHash
  · obtain ⟨rfl, hash⟩ := whole
    obtain ⟨after, result, published, -⟩ :=
      @publishIncoming_taken service conditions ⟨key, content, header.signature⟩ store clean
      intact (validateOwnerId_eq_ok accepted.owner) hash accepted.signed
        accepted.positive accepted.small
    dsimp only at published
    rw [published, bodyPublishes_answered, storedResponse_published] at refused
    cases refused
  · rw [MetadataPackService.publishIncoming]
    split
    · rfl
    · split
      · rfl
      · exact absurd ⟨not_not.mp ‹_›, not_not.mp ‹_›⟩ whole

/-- A call that is not answered as stored leaves the packs as they were. -/
theorem storeMetadataPack_refused (clean : Clean conditions)
    (intact : Intact service.blake3 files.store)
    (refused : Published (service.storeMetadataPack conditions files requests).2 = false) :
    (service.storeMetadataPack conditions files requests).1.store = files.store := by
  rw [MetadataPackService.storeMetadataPack] at refused ⊢
  split
  · split <;> rfl
  · rfl
  · rfl
  · rename_i header parts opening
    simp only [opening] at refused
    split
    · rfl
    · rename_i token
      split
      · rfl
      · rename_i admitted
        simp only [token, admitted] at refused
        cases checked : service.checkHeader header with
        | error ended => rfl
        | ok announced =>
            obtain ⟨key, size⟩ := announced
            simp only [checked] at refused
            dsimp only
            have removed : ∀ received : PackServiceFiles,
                (MetadataPackService.removeIncoming conditions received).store = received.store :=
                  fun received => by
              rw [MetadataPackService.removeIncoming]
              split <;> rfl
            rw [removed]
            rcases @receivePack_cases service conditions files key size header.signature parts
              requests.failure with
              same | ⟨content, -, same | ⟨store, ended⟩⟩
            · rw [same]
            · exact same
            · rw [store]
              refine publishIncoming_refused clean intact (checkHeader_ok checked) ?_
              rw [bodyPublishes, ← ended]
              exact refused

/-- No call leaves a temporary file behind. -/
theorem storeMetadataPack_incoming (unlinks : conditions.unlinkFails = false) (name : Text) :
    (service.storeMetadataPack conditions files requests).1.incoming.get? name =
      files.incoming.get? name ∨
      name = conditions.incomingName ∧
        (service.storeMetadataPack conditions files requests).1.incoming.get? name = none := by
  rw [MetadataPackService.storeMetadataPack]
  split
  · split <;> exact .inl rfl
  · exact .inl rfl
  · exact .inl rfl
  · rename_i header parts opening
    split
    · exact .inl rfl
    · split
      · exact .inl rfl
      · split
        · exact .inl rfl
        · rename_i key size checked
          dsimp only
          rw [MetadataPackService.removeIncoming, unlinks,
            if_neg Bool.false_ne_true, Dict.get?_erase]
          by_cases same : name = conditions.incomingName
          · exact .inr ⟨same, if_pos same⟩
          · left
            rw [if_neg same]
            rcases @receivePack_cases service conditions files key size header.signature parts
              requests.failure with
              unchanged | ⟨content, incoming, -⟩
            · rw [unchanged]
            · rw [incoming, Dict.get?_set_of_ne _ _ same]

end Streams

end Stopan.Packs
