import Stopan.Common.Basic
import Stopan.Lib.Result

/-!
The local store of distributed metadata packs (`stopan/metadata/packs/distributed_store`): packs of
any number of owners, publication with rollback, retention by age and quotas enforced by pruning.
-/

namespace Stopan.Packs

open Stopan.Lib Stopan.Common

inductive PackStoreError where
  | identity (message : String)
  | hashValue (message : String)
  | store (message : String)
  | signature (message : String)
  | quota (message : String)
  | corruption (message : String)
  | storageOS (message : String)
  deriving DecidableEq, Repr

/-- Where a pack is stored: a file below the directory of its owner, named by its hash. -/
structure PackKey where
  ownerId : Text
  packHash : Text
  deriving DecidableEq, Repr

/-- `storedAt` is the modification time of the file: a whole number of nanoseconds, which stands for
the float `st_mtime`. -/
structure PackFile where
  data : Bytes
  storedAt : Int
  deriving DecidableEq, Repr

structure PackSignature where
  publicKeyB64 : Text
  signatureB64 : Text
  deriving DecidableEq, Repr

structure PackStore where
  files : Dict PackKey PackFile
  signatures : Dict PackKey PackSignature

def PackStore.empty : PackStore where
  files := .empty
  signatures := .empty

/-- The limits that the constructor accepts. -/
structure PackStoreConfig where
  rootDir : String
  maxPackBytes : Nat
  maxPacksPerOwner : Nat
  maxTotalBytesPerOwner : Nat
  maxTotalStoreBytes : Nat
  maxAgeDays : Nat
  pack_pos : 1 ≤ maxPackBytes
  packs_pos : 1 ≤ maxPacksPerOwner
  owner_fits : maxPackBytes ≤ maxTotalBytesPerOwner
  store_fits : maxPackBytes ≤ maxTotalStoreBytes

def nanosecondsPerDay : Int := 86400 * 1000000000

def validateOwnerId (value : Text) : Except PackStoreError Text :=
  if isValidBlake3Hex (strip value) then .ok (strip value)
  else .error (.identity "owner_id debe tener 64 caracteres hexadecimales lowercase")

def validatePackHash (value : Text) : Except PackStoreError Text :=
  if isValidBlake3Hex (strip value) then .ok (strip value)
  else .error (.hashValue "pack_hash debe tener 64 caracteres hexadecimales lowercase")

def packPath (config : PackStoreConfig) (key : PackKey) : String :=
  let owner := String.ofList key.ownerId
  let pack := String.ofList key.packHash
  let ownerStart := String.ofList (key.ownerId.take 2)
  let packStart := String.ofList (key.packHash.take 2)
  s!"{config.rootDir}/{ownerStart}/{owner}/{packStart}/{pack}.stopanmetapack"

structure PackRecord where
  key : PackKey
  sizeBytes : Nat
  storedAt : Int
  deriving DecidableEq, Repr

/-- The order in which the directories are walked. -/
def keyLe (left right : PackKey) : Bool :=
  decide (left.ownerId < right.ownerId) ||
    (decide (left.ownerId = right.ownerId) && decide (left.packHash ≤ right.packHash))

def recordOf (entry : PackKey × PackFile) : PackRecord where
  key := entry.1
  sizeBytes := entry.2.data.length
  storedAt := entry.2.storedAt

/-- `_all_pack_records_unlocked`: files whose bytes do not hash to their name are left out. -/
def allPackRecords (blake3 : Blake3) (store : PackStore) : List PackRecord :=
  ((store.files.entries.filter fun entry => blake3HexDigest blake3 entry.2.data ==
    entry.1.packHash).map recordOf).insertionSort
    fun left right => keyLe left.key right.key = true

def packRecordsForOwner (blake3 : Blake3) (store : PackStore) (ownerId : Text) : List PackRecord :=
  (allPackRecords blake3 store).filter fun record => record.key.ownerId == ownerId

/-- The order `(stored_at_unix, pack_hash)` in which packs are pruned. -/
def ageLe (left right : PackRecord) : Bool :=
  decide (left.storedAt < right.storedAt) ||
    (decide (left.storedAt = right.storedAt) && decide (left.key.packHash ≤ right.key.packHash))

def sortedByAge (records : List PackRecord) : List PackRecord :=
  records.insertionSort fun left right => ageLe left right = true

/-- `_delete_record_unlocked`; `deletionError` gives the error of the packs that cannot be
deleted. -/
def deleteRecord (config : PackStoreConfig) (deletionError : PackKey → Option String)
    (store : PackStore) (record : PackRecord) : Except PackStoreError (PackStore × Nat) :=
  match store.files.get? record.key with
  | none => .error (.store
    s!"no se pudo borrar metadata pack {packPath config record.key}: candidato desapareció")
  | some file =>
      match deletionError record.key with
      | some reason =>
          .error (.store s!"no se pudo borrar metadata pack {packPath config record.key}: {reason}")
      | none => .ok ({ files := store.files.erase record.key,
                       signatures := store.signatures.erase record.key },
          file.data.length)

/-- The file operations of the rollback that fail, with their errors. -/
structure RollbackFailures where
  signature : Option String
  pack : Option String

def RollbackFailures.none : RollbackFailures where
  signature := Option.none
  pack := Option.none

/-- `_rollback_new_publication_unlocked`: the signature goes first. -/
def rollbackNewPublication (store : PackStore) (key : PackKey) (failures : RollbackFailures) :
    PackStore × Option PackStoreError :=
  let unsigned := match failures.signature with
    | some _ => store
    | none => { store with signatures := store.signatures.erase key }
  let removed := match failures.pack with
    | some _ => unsigned
    | none => { unsigned with files := unsigned.files.erase key }
  match failures.signature, failures.pack with
  | none, none => (removed, none)
  | signature, pack =>
      (removed, some
        (.store ("no se pudo revertir completamente la publicación del metadata pack: " ++
        " | ".intercalate (signature.toList ++ pack.toList))))

structure PruneState where
  store : PackStore
  prunedCount : Nat
  prunedBytes : Nat
  remainingBytes : Nat
  remainingCount : Nat
  errors : List String

def PruneState.start (store : PackStore) (bytesNeeded countNeeded : Nat) (errors : List String) :
    PruneState where
  store := store
  prunedCount := 0
  prunedBytes := 0
  remainingBytes := bytesNeeded
  remainingCount := countNeeded
  errors := errors

def PackStoreError.text : PackStoreError → String
  | .identity message | .hashValue message | .store message | .signature message | .quota message
  | .corruption message | .storageOS message => message

/-- One record of a pruning loop: delete it and account for its size. -/
def pruneOne (config : PackStoreConfig) (deletionError : PackKey → Option String)
    (state : PruneState) (record : PackRecord) : PruneState :=
  match deleteRecord config deletionError state.store record with
  | .error reason => { state with errors := state.errors ++ [reason.text] }
  | .ok (store, deleted) =>
      if deleted = 0 then { state with store }
      else { state with
        store
        prunedCount := state.prunedCount + 1
        prunedBytes := state.prunedBytes + deleted
        remainingBytes := state.remainingBytes - deleted
        remainingCount := state.remainingCount - 1 }

def pruneLoop (config : PackStoreConfig) (deletionError : PackKey → Option String) :
    List PackRecord → PruneState → PruneState
  | [], state => state
  | record :: rest, state =>
      if state.remainingBytes = 0 ∧ state.remainingCount = 0 then state
      else pruneLoop config deletionError rest (pruneOne config deletionError state record)

def pruneShortage : PackStoreError :=
  .quota "cuota de metadata packs excedida y no hay suficientes packs antiguos para podar"

/-- `_prune_records_unlocked` as its callers use it, with a list that collects the errors. -/
def pruneRecords (config : PackStoreConfig) (deletionError : PackKey → Option String)
    (store : PackStore) (candidates : List PackRecord) (bytesNeeded countNeeded : Nat)
    (protectedPackHash : Text) (errors : List String) :
    PruneState × Option PackStoreError :=
  let ordered :=
    sortedByAge (candidates.filter fun record => record.key.packHash != protectedPackHash)
  let pruned := pruneLoop config deletionError ordered (.start store bytesNeeded countNeeded errors)
  if pruned.remainingBytes > 0 ∨ pruned.remainingCount > 0 then (pruned, some pruneShortage)
    else (pruned, none)

def isExpired (config : PackStoreConfig) (now storedAt : Int) : Bool :=
  decide (0 < config.maxAgeDays) && decide (storedAt < now - config.maxAgeDays * nanosecondsPerDay)

/-- `_prune_expired_records_unlocked`. -/
def pruneExpiredRecords (config : PackStoreConfig) (deletionError : PackKey → Option String)
    (store : PackStore) (records : List PackRecord) (protectedPackHash : Text) (now : Int)
    (errors : List String) : PruneState :=
  let expired := sortedByAge (records.filter fun record =>
    record.key.packHash != protectedPackHash && isExpired config now record.storedAt)
  expired.foldl (pruneOne config deletionError) (.start store 0 0 errors)

def validateIncomingQuotaLimits (config : PackStoreConfig) (incomingSize : Nat) :
    Except PackStoreError Unit :=
  if config.maxPackBytes < incomingSize then
    .error (.store s!"metadata pack demasiado grande: {incomingSize} bytes > {config.maxPackBytes}")
  else if config.maxTotalBytesPerOwner < incomingSize then
    .error (.quota
      s!"metadata pack excede la cuota total del owner: {incomingSize} bytes > {config.maxTotalBytesPerOwner}")
  else if config.maxTotalStoreBytes < incomingSize then
    .error (.quota
      s!"metadata pack excede la cuota total del store: {incomingSize} bytes > {config.maxTotalStoreBytes}")
  else .ok ()

def totalSize (records : List PackRecord) : Nat := (records.map PackRecord.sizeBytes).sum

/-- The quota error with the deletions that failed. -/
def withIncidents (reason : PackStoreError) (errors : List String) : PackStoreError :=
  if errors.isEmpty then reason
  else .quota (reason.text ++ "; incidencias de borrado: " ++ " | ".intercalate errors)

/-- The pass over the packs of the owner. Without an excess the loop stops before its first
deletion. -/
def pruneOwner (blake3 : Blake3) (config : PackStoreConfig)
    (deletionError : PackKey → Option String) (store : PackStore) (key : PackKey)
    (incomingSize : Nat) (errors : List String) : PruneState × Option PackStoreError :=
  let ownerRecords := (packRecordsForOwner blake3 store key.ownerId).filter fun record =>
    record.key.packHash != key.packHash
  let countExcess := ownerRecords.length + 1 - config.maxPacksPerOwner
  let bytesExcess := totalSize ownerRecords + incomingSize - config.maxTotalBytesPerOwner
  pruneRecords config deletionError store ownerRecords bytesExcess countExcess key.packHash errors

/-- The pass over the packs of all owners. -/
def pruneGlobal (blake3 : Blake3) (config : PackStoreConfig)
    (deletionError : PackKey → Option String)
    (store : PackStore) (key : PackKey) (incomingSize : Nat) (errors : List String) :
    PruneState × Option PackStoreError :=
  let globalRecords :=
    (allPackRecords blake3 store).filter fun record => record.key.packHash != key.packHash
  let bytesExcess := totalSize globalRecords + incomingSize - config.maxTotalStoreBytes
  pruneRecords config deletionError store globalRecords bytesExcess 0 key.packHash errors

/-- `_enforce_post_store_quotas_unlocked`: the store as it is left and the numbers of packs and
bytes pruned, or the error. -/
def enforcePostStoreQuotas (blake3 : Blake3) (config : PackStoreConfig)
    (deletionError : PackKey → Option String) (store : PackStore) (key : PackKey)
    (incomingSize : Nat) (now : Int) : PackStore × Except PackStoreError (Nat × Nat) :=
  match validateIncomingQuotaLimits config incomingSize with
  | .error reason => (store, .error reason)
  | .ok _ =>
      let expired := pruneExpiredRecords config deletionError store
        (allPackRecords blake3 store) key.packHash now []
      match pruneOwner blake3 config deletionError expired.store key
        incomingSize expired.errors with
      | (owner, some reason) => (owner.store, .error (withIncidents reason owner.errors))
      | (owner, none) =>
          match pruneGlobal blake3 config deletionError owner.store key
            incomingSize owner.errors with
          | (whole, some reason) => (whole.store, .error (withIncidents reason whole.errors))
          | (whole, none) =>
              (whole.store, .ok (expired.prunedCount + owner.prunedCount + whole.prunedCount,
                expired.prunedBytes + owner.prunedBytes + whole.prunedBytes))

/-- How writing the pack and its signature ends. A write that fails may have replaced its file. -/
inductive Publication where
  | published
  | packFailed (replaced : Bool) (reason : String)
  | signatureFailed (replaced : Bool) (reason : String)

/-- What the file system and the clock do during one put. -/
structure PutEnvironment where
  storedAt : Int
  now : Int
  publication : Publication
  deletionError : PackKey → Option String
  rollback : RollbackFailures

structure StorePackResult where
  key : PackKey
  sizeBytes : Nat
  stored : Bool
  alreadyPresent : Bool
  prunedPacks : Nat
  prunedBytes : Nat
  deriving DecidableEq, Repr

def addPack (store : PackStore) (key : PackKey) (data : Bytes) (storedAt : Int) : PackStore :=
  { store with files := store.files.set key { data, storedAt } }

def addSignature (store : PackStore) (key : PackKey) (signature : PackSignature) : PackStore :=
  { store with signatures := store.signatures.set key signature }

/-- The writes of the pack and of its signature record. -/
def publishPack (store : PackStore) (key : PackKey) (data : Bytes) (signature : PackSignature)
    (environment : PutEnvironment) : PackStore × Option PackStoreError :=
  let written := addPack store key data environment.storedAt
  match environment.publication with
  | .published => (addSignature written key signature, none)
  | .packFailed replaced reason => (if replaced then written else store, some (.storageOS reason))
  | .signatureFailed replaced reason =>
      (if replaced then addSignature written key signature else written, some (.storageOS reason))

/-- Undo the publication and raise. -/
def abandonPut (store : PackStore) (key : PackKey) (reason : PackStoreError) (failure : String)
    (environment : PutEnvironment) : PackStore × Except PackStoreError StorePackResult :=
  match rollbackNewPublication store key environment.rollback with
  | (restored, none) => (restored, .error reason)
  | (restored, some rollbackReason) => (restored, .error (.store (failure ++ rollbackReason.text)))

/-- The text of an error about two hashes. -/
def mismatch (subject : String) (expected calculated : Text) : String :=
  let expectedText := String.ofList expected
  let calculatedText := String.ofList calculated
  s!"{subject}: esperado={expectedText} calculado={calculatedText}"

/-- The section of `put_pack_bytes` and `put_pack_file` under the lock. -/
def putValidated (blake3 : Blake3) (config : PackStoreConfig) (store : PackStore)
    (key : PackKey) (data : Bytes) (signature : PackSignature) (environment : PutEnvironment) :
    PackStore × Except PackStoreError StorePackResult :=
  match store.files.get? key with
  | some existing =>
      if blake3HexDigest blake3 existing.data ≠ key.packHash then
        (store, .error (.corruption (mismatch "metadata pack existente corrupto" key.packHash
          (blake3HexDigest blake3 existing.data))))
      else match environment.publication with
        | .signatureFailed replaced reason =>
            (if replaced then addSignature store key signature else store,
              .error (.storageOS reason))
        | _ => (addSignature store key signature, .ok {
            key
            sizeBytes := existing.data.length
            stored := false
            alreadyPresent := true
            prunedPacks := 0
            prunedBytes := 0 })
  | none =>
      match validateIncomingQuotaLimits config data.length with
      | .error reason => (store, .error reason)
      | .ok _ =>
          match publishPack store key data signature environment with
          | (written, some reason) =>
              abandonPut written key reason
                "falló la publicación de metadata pack y su reversión: " environment
          | (written, none) =>
              match enforcePostStoreQuotas blake3 config environment.deletionError written key
                data.length environment.now with
              | (pruned, .error reason) =>
                  abandonPut pruned key reason
                    "falló la aplicación de cuotas y no pudo revertirse la publicación del metadata pack: " environment
              | (pruned, .ok (prunedPacks, prunedBytes)) => (pruned, .ok {
                  key
                  sizeBytes := data.length
                  stored := true
                  alreadyPresent := false
                  prunedPacks
                  prunedBytes })

/-- The external check of an Ed25519 signature. -/
structure PackVerifier where
  verifies : PackKey → PackSignature → Bool

def checkSignature (verifier : PackVerifier) (key : PackKey) (signature : PackSignature) :
    Except PackStoreError Unit :=
  if signature.publicKeyB64.isEmpty || signature.signatureB64.isEmpty then
    .error (.signature "public_key_b64 y signature_b64 son obligatorios para packs distribuidos")
  else if verifier.verifies key signature = false then
    .error (.signature "la firma del metadata pack es inválida")
  else .ok ()

/-- The checks of `put_pack_bytes` before the lock. -/
def validatePackBytes (blake3 : Blake3) (verifier : PackVerifier) (config : PackStoreConfig)
    (ownerId packHash : Text)
    (data : Bytes) (signature : PackSignature) : Except PackStoreError PackKey := do
  let owner ← validateOwnerId ownerId
  let pack ← validatePackHash packHash
  ensure (!data.isEmpty) (.store "metadata pack vacío rejected")
  ensure (decide (data.length ≤ config.maxPackBytes))
    (.store s!"metadata pack demasiado grande: {data.length} bytes > {config.maxPackBytes}")
  ensure (blake3HexDigest blake3 data == pack)
    (.store (mismatch "pack_hash no coincide" pack (blake3HexDigest blake3 data)))
  checkSignature verifier { ownerId := owner, packHash := pack } signature
  return { ownerId := owner, packHash := pack }

/-- The file that `put_pack_file` is given. -/
inductive SourceFile where
  | unreadable (reason : String)
  | notRegular
  | regular (data : Bytes)

/-- An announced value that is given agrees with the observed one. -/
def agrees {α : Type} [DecidableEq α] (announced : Option α) (observed : α) : Bool :=
  announced.all fun expected => decide (expected = observed)

/-- The checks of `put_pack_file` before the lock. -/
def validatePackFile (blake3 : Blake3) (verifier : PackVerifier)
    (config : PackStoreConfig) (ownerId : Text) (path : String) (source : SourceFile)
    (expectedPackHash : Option Text) (expectedSizeBytes : Option Nat)
    (signature : PackSignature) : Except PackStoreError (PackKey × Bytes) := do
  let owner ← validateOwnerId ownerId
  match source with
  | .unreadable reason =>
      .error (.store s!"No se pudo inspeccionar el metadata pack {path}: {reason}")
  | .notRegular => .error (.store s!"metadata pack no es un archivo regular: {path}")
  | .regular data => do
      ensure (decide (0 < data.length)) (.store "metadata pack vacío rechazado")
      ensure (decide (data.length ≤ config.maxPackBytes))
        (.store s!"metadata pack demasiado grande: {data.length} bytes > {config.maxPackBytes}")
      ensure (agrees expectedSizeBytes data.length)
        (.store ("el tamaño del metadata pack no coincide con el anunciado: " ++
        s!"esperado={expectedSizeBytes.getD 0} recibido={data.length}"))
      let packHash := blake3HexDigest blake3 data
      let expected ← expectedPackHash.mapM validatePackHash
      ensure (agrees expected packHash)
        (.store (mismatch "expected pack_hash no coincide con el archivo"
          (expected.getD []) packHash))
      checkSignature verifier { ownerId := owner, packHash } signature
      return ({ ownerId := owner, packHash }, data)

inductive PutRequest where
  | bytes (ownerId packHash : Text) (data : Bytes) (signature : PackSignature)
  | file (ownerId : Text) (path : String) (source : SourceFile) (expectedPackHash : Option Text)
      (expectedSizeBytes : Option Nat) (signature : PackSignature)

/-- The pack that a request offers, once its checks pass. -/
structure OfferedPack where
  key : PackKey
  data : Bytes
  signature : PackSignature
  deriving DecidableEq

def PutRequest.validate (blake3 : Blake3) (verifier : PackVerifier) (config : PackStoreConfig) :
    PutRequest → Except PackStoreError OfferedPack
  | .bytes ownerId packHash data signature => do
      let key ← validatePackBytes blake3 verifier config ownerId packHash data signature
      return { key, data, signature }
  | .file ownerId path source expectedPackHash expectedSizeBytes signature => do
      let (key, data) ← validatePackFile blake3 verifier config ownerId path source expectedPackHash
        expectedSizeBytes signature
      return { key, data, signature }

/-- `put_pack_bytes` and `put_pack_file`: the store as it is left and the result or the
exception. -/
def putPack (blake3 : Blake3) (verifier : PackVerifier)
    (config : PackStoreConfig) (store : PackStore) (request : PutRequest)
    (environment : PutEnvironment) : PackStore × Except PackStoreError StorePackResult :=
  match request.validate blake3 verifier config with
  | .error reason => (store, .error reason)
  | .ok offered =>
      putValidated blake3 config store offered.key offered.data offered.signature environment

end Stopan.Packs
