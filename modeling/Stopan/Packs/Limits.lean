import Stopan.Packs.FailedPut

namespace Stopan.Packs

open Stopan.Lib Stopan.Common

inductive StoreEvent where
  | put (request : PutRequest) (environment : PutEnvironment)
  /-- A pack leaves the store otherwise: by `prune_to_limits`, or removed by hand. -/
  | remove (key : PackKey)

def storeStep (blake3 : Blake3) (verifier : PackVerifier) (config : PackStoreConfig)
    (store : PackStore) :
    StoreEvent → Option PackStore
  | .put request environment => some (putPack blake3 verifier config store request environment).1
  | .remove key => some { files := store.files.erase key, signatures := store.signatures.erase key }

/-- Every file of the store is a pack with the bytes that its name announces. -/
def Intact (blake3 : Blake3) (store : PackStore) : Prop :=
  ∀ key file, store.files.get? key = some file → isListed blake3 key file = true ∧
    0 < file.data.length

def ownerPackCount (store : PackStore) (ownerId : Text) : Nat :=
  store.files.weight fun key _ => if key.ownerId == ownerId then 1 else 0

def ownerBytes (store : PackStore) (ownerId : Text) : Nat :=
  store.files.weight fun key file => if key.ownerId == ownerId then file.data.length else 0

def totalBytes (store : PackStore) : Nat := store.files.weight fun _ file => file.data.length

structure WithinLimits (config : PackStoreConfig) (store : PackStore)
    (offered : OfferedPack) : Prop where
  present : (store.files.get? offered.key).map PackFile.data = some offered.data
  count : ownerPackCount store offered.key.ownerId ≤ config.maxPacksPerOwner
  owner : ownerBytes store offered.key.ownerId ≤ config.maxTotalBytesPerOwner
  total : totalBytes store ≤ config.maxTotalStoreBytes

/-- No other owner stores a pack with the hash of the offered one. -/
def NoForeignCopy (store : PackStore) (offered : OfferedPack) : Prop :=
  ∀ other file, store.files.get? other = some file → other.packHash = offered.key.packHash →
    other.ownerId = offered.key.ownerId

section Runs

variable {blake3 : Blake3} {verifier : PackVerifier} {config : PackStoreConfig}
variable {store after : PackStore} {offered : OfferedPack} {environment : PutEnvironment}

theorem Intact.nonempty (intact : Intact blake3 store) : Nonempty blake3 store :=
  fun key file found _ => (intact key file found).2

/-- A store whose files are among those of an intact one and the offered pack. -/
theorem Intact.among (intact : Intact blake3 store) (sound : offered.Sound blake3 config)
    (among : ∀ key file, after.files.get? key = some file →
      store.files.get? key = some file ∨ key = offered.key ∧
        file.data = offered.data) : Intact blake3 after := by
  intro key file found
  rcases among key file found with old | ⟨rfl, data⟩
  · exact intact key file old
  · rw [isListed, data, sound.digest]
    exact ⟨by simp, sound.nonempty⟩

theorem rollbackNewPublication_among {key other : PackKey} {file : PackFile}
    (failures : RollbackFailures)
    (found : (rollbackNewPublication store key failures).1.files.get? other = some file) :
    store.files.get? other = some file := by
  obtain ⟨signature, pack⟩ := failures
  cases signature <;> cases pack <;> simp only [rollbackNewPublication] at found
  · exact Dict.get?_of_get?_erase found
  · exact found
  · exact Dict.get?_of_get?_erase found
  · exact found

theorem abandonPut_among {key other : PackKey} {file : PackFile}
    {reason : PackStoreError} {failure : String}
    (found : (abandonPut store key reason failure environment).1.files.get? other = some file) :
    store.files.get? other = some file := by
  unfold abandonPut at found
  split at found <;> rename_i restored withdrawn
  · exact rollbackNewPublication_among environment.rollback (by rw [withdrawn]; exact found)
  · exact rollbackNewPublication_among environment.rollback (by rw [withdrawn]; exact found)

theorem publishPack_among {key other : PackKey} {data : Bytes}
    {signature : PackSignature} {file : PackFile} {failure : Option PackStoreError}
    (published : publishPack store key data signature environment = (after, failure))
    (found : after.files.get? other = some file) :
    store.files.get? other = some file ∨ other = key ∧ file.data = data := by
  rcases publishPack_files published with same | set
  · exact .inl (same ▸ found)
  · rw [set, Dict.get?_set] at found
    split at found
    · cases found
      exact .inr ⟨‹_›, rfl⟩
    · exact .inl found

/-- A put leaves files that were there, and at most the offered pack besides. -/
theorem putValidated_among (nonempty : Nonempty blake3 store) (sound : offered.Sound blake3 config)
    (key : PackKey) (file : PackFile)
    (found : (putValidated blake3 config store offered.key offered.data offered.signature
      environment).1.files.get? key = some file) :
    store.files.get? key = some file ∨ key = offered.key ∧ file.data = offered.data := by
  unfold putValidated at found
  cases existing : store.files.get? offered.key with
  | some present =>
      simp only [existing] at found
      split at found
      · exact .inl found
      · split at found
        · split at found <;> exact .inl found
        · exact .inl found
  | none =>
      simp only [existing, validateIncomingQuotaLimits_of_le sound.small] at found
      cases published : publishPack store offered.key offered.data
        offered.signature environment with
      | mk written failure =>
          cases failure with
          | some reason =>
              simp only [published] at found
              exact publishPack_among published (abandonPut_among found)
          | none =>
              obtain ⟨-, files⟩ := publishPack_none published
              simp only [published] at found
              cases enforced : enforcePostStoreQuotas blake3 config
                  environment.deletionError written offered.key
                  offered.data.length environment.now with
              | mk pruned result =>
                  obtain ⟨gone, passed, -⟩ := enforcePostStoreQuotas_enforced
                    (nonempty_written nonempty files sound.nonempty)
                      (validateIncomingQuotaLimits_of_le sound.small) enforced
                  rw [enforced] at found
                  cases result with
                  | error reason =>
                      exact publishPack_among published
                        (passed.erased.found (abandonPut_among found))
                  | ok counts => exact publishPack_among published (passed.erased.found found)

theorem storeStep_intact {event : StoreEvent} (intact : Intact blake3 store)
    (stepped : storeStep blake3 verifier config store event = some after) :
    Intact blake3 after := by
  cases event with
  | put request environment =>
      cases stepped
      unfold putPack
      cases checked : request.validate blake3 verifier config with
      | error reason => exact intact
      | ok offered =>
          have sound := validate_sound checked
          exact intact.among sound (putValidated_among intact.nonempty sound)
  | remove key =>
      cases stepped
      exact fun other file found => intact other file (Dict.get?_of_get?_erase found)

/-- What a put that returns `stored` has done to the store. -/
theorem putValidated_stored {result : StorePackResult} (nonempty : Nonempty blake3 store)
    (sound : offered.Sound blake3 config)
    (returned : putValidated blake3 config store offered.key offered.data offered.signature
      environment = (after, .ok result))
    (stored : result.stored = true) :
    ∃ written gone, written.files = store.files.set offered.key
      { data := offered.data, storedAt := environment.storedAt } ∧
      Passed blake3 environment.deletionError (oldOfStore offered.key) written after gone ∧
      WithinQuotas blake3 config after offered.key offered.data.length := by
  unfold putValidated at returned
  cases existing : store.files.get? offered.key with
  | some present =>
      simp only [existing] at returned
      split at returned
      · cases returned
      · split at returned
        · cases returned
        · cases returned
          cases stored
  | none =>
      simp only [existing, validateIncomingQuotaLimits_of_le sound.small] at returned
      cases published : publishPack store offered.key offered.data
        offered.signature environment with
      | mk written failure =>
          cases failure with
          | some reason =>
              simp only [published, abandonPut] at returned
              split at returned <;> cases returned
          | none =>
              obtain ⟨-, files⟩ := publishPack_none published
              simp only [published] at returned
              cases enforced : enforcePostStoreQuotas blake3 config
                  environment.deletionError written offered.key
                  offered.data.length environment.now with
              | mk pruned outcome =>
                  obtain ⟨gone, passed, ended⟩ := enforcePostStoreQuotas_enforced
                    (nonempty_written nonempty files sound.nonempty)
                      (validateIncomingQuotaLimits_of_le sound.small) enforced
                  rw [enforced] at returned
                  cases ended with
                  | accepted ownerFits storeFits within =>
                      cases returned
                      exact ⟨written, gone, files, passed, within⟩
                  | ownerFull =>
                      simp only [abandonPut] at returned; split at returned <;> cases returned
                  | storeFull =>
                      simp only [abandonPut] at returned; split at returned <;> cases returned

/-- A measure of all packs of a kind, split into the old packs of that kind and the new one. -/
theorem weight_new_and_old {key : PackKey} {file : PackFile}
    (found : store.files.get? key = some file) {measure : PackKey → PackFile → Nat}
    (old : PackKey → PackFile → Nat) (vanishes : old key file = 0)
    (agree : ∀ other value, store.files.get? other = some value → other ≠ key →
      measure other value = old other value) :
    store.files.weight measure = store.files.weight old + measure key file := by
  have whole : (store.files.erase key).weight measure + measure key file =
      store.files.weight measure :=
    Dict.weight_erase found
  have rest : (store.files.erase key).weight old + old key file = store.files.weight old :=
    Dict.weight_erase found
  have same : (store.files.erase key).weight measure = (store.files.erase key).weight old := by
    refine Dict.weight_congr fun other value located => ?_
    rw [Dict.get?_erase] at located
    split at located
    · cases located
    · exact agree other value located ‹_›
  omega

theorem putValidated_withinLimits {result : StorePackResult} (intact : Intact blake3 store)
    (sound : offered.Sound blake3 config) (alone : NoForeignCopy store offered)
    (returned : putValidated blake3 config store offered.key offered.data offered.signature
      environment = (after, .ok result))
    (stored : result.stored = true) : WithinLimits config after offered := by
  obtain ⟨written, gone, files, passed, quotas⟩ :=
    putValidated_stored intact.nonempty sound returned stored
  have found : after.files.get? offered.key = some { data := offered.data,
                                                     storedAt := environment.storedAt } := by
    rw [passed.kept (by simp [deletableWhere, oldOfStore_self]), files, Dict.get?_set_self]
  have among := @putValidated_among blake3 config store offered environment intact.nonempty sound
  rw [returned] at among
  have listed : ∀ other file, after.files.get? other = some file →
      isListed blake3 other file = true :=
    fun other file located => (intact.among sound among other file located).1
  have distinct : ∀ other : PackKey, other ≠ offered.key → other.ownerId = offered.key.ownerId →
      other.packHash ≠ offered.key.packHash := by
    intro other different owner hash
    cases other
    exact different (by simp_all)
  -- A pack of another owner with the same hash would be counted in no pass.
  have foreign : ∀ other file, after.files.get? other = some file → other ≠ offered.key →
      other.packHash ≠ offered.key.packHash := by
    intro other file located different hash
    rcases among other file located with old | ⟨same, -⟩
    · exact distinct other different (alone other file old hash) hash
    · exact different same
  refine ⟨by rw [found]; rfl, ?_, ?_, ?_⟩
  · have count : ownerPackCount after offered.key.ownerId = _ + _ :=
      weight_new_and_old found (countOf blake3 (oldOfOwner offered.key))
        (by simp [countOf, oldOfOwner_self]) fun other file located different => by
          by_cases owner : other.ownerId = offered.key.ownerId <;>
            simp [countOf, listed other file located, oldOfOwner, owner, distinct other different]
    have limit := quotas.count
    simp only [beq_self_eq_true, if_true] at count
    omega
  · have bytes : ownerBytes after offered.key.ownerId = _ + _ :=
      weight_new_and_old found (bytesOf blake3 (oldOfOwner offered.key))
        (by simp [bytesOf, oldOfOwner_self]) fun other file located different => by
          by_cases owner : other.ownerId = offered.key.ownerId <;>
            simp [bytesOf, listed other file located, oldOfOwner, owner, distinct other different]
    have limit := quotas.owner
    simp only [beq_self_eq_true, if_true] at bytes
    omega
  · have bytes : totalBytes after = _ + _ :=
      weight_new_and_old found (bytesOf blake3 (oldOfStore offered.key))
        (by simp [bytesOf, oldOfStore_self]) fun other file located different => by
          simp [bytesOf, listed other file located, oldOfStore,
            foreign other file located different]
    have limit := quotas.total
    dsimp only at bytes
    omega

/-- In every run from the empty store, a put that returns `stored` while no other owner stores a
pack with the same hash leaves the new pack present and all limits kept. -/
theorem storedPut_withinLimits {events : List StoreEvent} {request : PutRequest}
    {result : StorePackResult}
    (ran : runEvents (storeStep blake3 verifier config) .empty events = some store)
    (checked : request.validate blake3 verifier config = .ok offered)
    (alone : NoForeignCopy store offered)
    (returned : putPack blake3 verifier config store request environment = (after, .ok result))
    (stored : result.stored = true) : WithinLimits config after offered := by
  have intact : Intact blake3 store := by
    refine runEvents_preserves (Intact blake3)
      (fun _ _ _ holds stepped => storeStep_intact holds stepped) ?_ ran
    intro key file found
    cases found
  rw [putPack, checked] at returned
  exact putValidated_withinLimits intact (validate_sound checked) alone returned stored

end Runs

namespace SharedPack

def config : PackStoreConfig where
  rootDir := "/packs"
  maxPackBytes := 3
  maxPacksPerOwner := 2
  maxTotalBytesPerOwner := 3
  maxTotalStoreBytes := 3
  maxAgeDays := 0
  pack_pos := by decide
  packs_pos := by decide
  owner_fits := by decide
  store_fits := by decide

def owner (digit : Char) : Text := List.replicate 64 digit

def offered (digit : Char) : OfferedPack where
  key := { ownerId := owner digit,
           packHash := blake3HexDigest OnePackQuota.blake3 OnePackQuota.newData }
  data := OnePackQuota.newData
  signature := OnePackQuota.signature

def request (digit : Char) : PutRequest :=
  .bytes (owner digit) (offered digit).key.packHash OnePackQuota.newData OnePackQuota.signature

def environment : PutEnvironment where
  storedAt := 9
  now := 9
  publication := .published
  deletionError := fun _ => none
  rollback := .none

def put (store : PackStore) (digit : Char) : PackStore × Except PackStoreError StorePackResult :=
  putPack OnePackQuota.blake3 OnePackQuota.verifier config store (request digit) environment

def firstStored : PackStore := (put .empty 'a').1

end SharedPack

open SharedPack in
/-- The second owner's put returns `stored` and leaves six bytes where three are allowed. -/
theorem sharedPack_exceedsTotal :
    runEvents (storeStep OnePackQuota.blake3 OnePackQuota.verifier config) .empty
        [.put (request 'a') environment] = some firstStored ∧
      (put firstStored 'b').2.toOption.map StorePackResult.stored = some true ∧
      totalBytes (put firstStored 'b').1 = 6 ∧
        ¬ WithinLimits config (put firstStored 'b').1 (offered 'b') := by
  have total : totalBytes (put firstStored 'b').1 = 6 := by decide +kernel
  refine ⟨rfl, by decide +kernel, total, fun within => ?_⟩
  have limit := within.total
  rw [total] at limit
  exact absurd limit (by decide)

namespace TwoOwners

def blake3 : Blake3 := .ofTable [
  ([1], 0x48fc721fbbc172e0925fa27af1671de225ba927134802998b10a1568a188652b),
  ([2, 3], 0x75e17c8ba66d20921eaa70500cef20295d04532f44598a5d770c57d2a33c0b67),
  ([1, 2], 0xb7d770040f780e9deff6bc038abea66e108b88d098d16d24cd7486eb671060b2),
  ([1, 2, 3], 0xb177ec1bf26dfb3b7010d473e6d44713b29b765b99c6e60ecbfae742de496543)]

def config : PackStoreConfig := { SharedPack.config with
  maxTotalBytesPerOwner := 6
  maxTotalStoreBytes := 6
  owner_fits := by decide
  store_fits := by decide }

def signature (owner : Char) : PackSignature where
  publicKeyB64 := [owner]
  signatureB64 := ['s']

/-- A stand-in for the signature: the key begins with the first digit of its owner. -/
def verifier : PackVerifier where
  verifies := fun key signature => decide (signature.publicKeyB64 = key.ownerId.take 1)

def offered (owner : Char) (data : Bytes) : OfferedPack where
  key := { ownerId := SharedPack.owner owner, packHash := blake3HexDigest blake3 data }
  data
  signature := signature owner

def request (owner : Char) (data : Bytes) : PutRequest :=
  .bytes (SharedPack.owner owner) (blake3HexDigest blake3 data) data (signature owner)

def environment (now : Int) : PutEnvironment := { SharedPack.environment with
  storedAt := now
  now := now }

/-- The pack of `b` is the oldest one. -/
def earlier : List StoreEvent :=
  [.put (request 'b' [1, 2]) (environment 1), .put (request 'a' [1]) (environment 2),
    .put (request 'a' [2, 3]) (environment 3)]

def before : PackStore := (runEvents (storeStep blake3 verifier config) .empty earlier).getD .empty

def put : PackStore × Except PackStoreError StorePackResult :=
  putPack blake3 verifier config before (request 'a' [1, 2, 3]) (environment 9)

end TwoOwners

open TwoOwners in
/-- The count of `a` and the bytes of the store each cost a pack, and then the limits hold. -/
theorem prunedPut_withinLimits :
    put.2.toOption.map (fun result => (result.stored, result.prunedPacks)) = some (true, 2) ∧
      put.1.files.keys = [(offered 'a' [2, 3]).key, (offered 'a' [1, 2, 3]).key] ∧
      WithinLimits config put.1 (offered 'a' [1, 2, 3]) := by
  have seen : put.2.toOption.map (fun result => (result.stored, result.prunedPacks)) = some
      (true, 2) := by decide +kernel
  refine ⟨seen, by decide +kernel, ?_⟩
  have ran : runEvents (storeStep blake3 verifier config) .empty earlier = some before := rfl
  have accepted : (request 'a' [1, 2, 3]).validate blake3 verifier config = .ok
      (offered 'a' [1, 2, 3]) := by decide +kernel
  have alone : NoForeignCopy before (offered 'a' [1, 2, 3]) := by
    have others : ∀ entry ∈ before.files.entries, entry.1.packHash ≠
        (offered 'a' [1, 2, 3]).key.packHash := by decide +kernel
    exact fun other file found same => absurd same
      (others (other, file) (Dict.get?_eq_some_iff.mp found))
  cases outcome : put with
  | mk after returned =>
      rw [outcome] at seen
      cases returned with
      | error reason => cases seen
      | ok result =>
          exact storedPut_withinLimits ran accepted alone outcome
            (congrArg Prod.fst (Option.some.inj seen))

end Stopan.Packs
