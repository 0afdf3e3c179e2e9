import Stopan.Lib.Crash
import Stopan.Lib.Base64
import Stopan.Objects.Walk

/-!
The local encrypted store of metadata objects (`stopan/metadata/objects/store`). Objects are kept
under a name that is derived from their hash with a private key, and `latest.json` names the root.
Writing is a task over the files of the store, so that it may stop after any file operation.
-/

namespace Stopan.Objects

open Stopan.Lib Stopan.Common

structure StoredFile where
  data : Bytes
  mtime : Int
  inode : Nat
  deriving DecidableEq, Repr

/-- What a path holds: a regular file, or something that exists and cannot be read as one. -/
inductive StoredEntry where
  | file (file : StoredFile)
  | other
  deriving DecidableEq, Repr

/-- A path as its names below the root of the store. -/
abbrev StorePath := List Text

abbrev StoreFiles := Dict StorePath StoredEntry

inductive FileOperation where
  | makeDir (path : StorePath)
  | create (path : StorePath)
  | write (path : StorePath)
  | replace (path : StorePath)
  | chmod (path : StorePath)
  | unlink (path : StorePath)
  | fsync (path : StorePath)
  deriving DecidableEq, Repr

/-- What a run takes from outside: the clock, the random values, how much of a file is on disk when
it is cut off while being written, and the operations that fail, with their errors. -/
structure StoreEnvironment where
  now : Int
  pid : Nat
  random : StorePath → Text
  nonce : StorePath → Bytes
  nonce_length : ∀ path, (nonce path).length = 12
  inode : StorePath → Nat
  flushed : StorePath → Nat
  fails : FileOperation → Option String

abbrev StoreTask (α : Type) := Task StoreFiles ObjectsError α

def pathText (path : StorePath) : String := "/".intercalate (path.map String.ofList)

/-- An operation that fails when the environment says so. -/
def StoreEnvironment.perform (environment : StoreEnvironment) (operation : FileOperation)
    (reason : String → ObjectsError) (change : StoreFiles → StoreFiles) : StoreTask Unit :=
  match environment.fails operation with
  | some text => .raise (reason text)
  | none => .operate change

/-- An operation without effect on the files. -/
def StoreEnvironment.prepare (environment : StoreEnvironment) (operation : FileOperation)
    (reason : String → ObjectsError) :
    StoreTask Unit :=
  match environment.fails operation with
  | some text => .raise (reason text)
  | none => pure ()

def StoreEnvironment.fileOf (environment : StoreEnvironment) (path : StorePath)
    (data : Bytes) : StoredEntry :=
  .file { data, mtime := environment.now, inode := environment.inode path }

def parentOf (path : StorePath) : StorePath := path.dropLast

/-- The name `.{name}.{pid}.{random}.tmp` next to the path. -/
def tempPath (environment : StoreEnvironment) (path : StorePath) : StorePath :=
  parentOf path ++ ['.' :: (path.getLastD [] ++ '.' :: (Nat.toDigits 10 environment.pid ++ '.' ::
    (environment.random path ++ ".tmp".toList)))]

/-- `os.open` with `O_CREAT | O_EXCL`. -/
def createTemp (environment : StoreEnvironment) (temp : StorePath) : StoreTask Unit := do
  Task.inspect fun files => ensure (files.get? temp).isNone
    (.storageOS s!"No se pudo crear el archivo temporal {pathText temp}: ya existe")
  environment.perform (.create temp)
    (fun text => .storageOS s!"No se pudo crear el archivo temporal {pathText temp}: {text}")
    fun files => files.set temp (environment.fileOf temp [])

/-- Part of the data reaches the disk before the rest. -/
def writeTemp (environment : StoreEnvironment) (temp : StorePath) (data : Bytes) :
    StoreTask Unit := do
  Task.operate fun files => files.set temp
    (environment.fileOf temp (data.take (environment.flushed temp)))
  environment.perform (.write temp)
    (fun text => .storageOS s!"No se pudo escribir {pathText temp}: {text}")
    fun files => files.set temp (environment.fileOf temp data)

/-- `os.replace`, which cannot put a file in the place of a directory. -/
def replaceWith (environment : StoreEnvironment) (temp path : StorePath) (data : Bytes) :
    StoreTask Unit := do
  Task.inspect fun files => ensure (decide (files.get? path ≠ some .other))
    (.storageOS s!"No se pudo reemplazar {pathText path} con {pathText temp}: no es un fichero")
  environment.perform (.replace path)
    (fun text => .storageOS s!"No se pudo reemplazar {pathText path} con {pathText temp}: {text}")
    fun files => (files.erase temp).set path (environment.fileOf temp data)

def removeTemp (environment : StoreEnvironment) (temp : StorePath) : StoreTask Unit :=
  environment.perform (.unlink temp) (fun text => .storageOS text) fun files => files.erase temp

def fsyncDir (environment : StoreEnvironment) (path : StorePath) : StoreTask Unit :=
  environment.prepare (.fsync path) fun text => .storageOS text

/-- `atomic_write_bytes`. -/
def atomicWriteBytes (environment : StoreEnvironment) (path : StorePath) (data : Bytes)
    (syncParentDir : Bool) :
    StoreTask Unit := do
  environment.prepare (.makeDir (parentOf path))
    fun text => .storageOS s!"No se pudo crear el directorio padre de {pathText path}: {text}"
  let temp := tempPath environment path
  Task.cleaning (do
    createTemp environment temp
    writeTemp environment temp data
    replaceWith environment temp path data
    environment.prepare (.chmod path)
      fun text => .storageOS s!"No se pudieron ajustar permisos de {pathText path}: {text}")
    (removeTemp environment temp)
  if syncParentDir then fsyncDir environment (parentOf path)

/-- `load_json_file`. -/
def loadJsonFile (files : StoreFiles) (path : StorePath) : Checked Fields :=
  match files.get? path with
  | some (.file file) =>
      match loadJsonBytes file.data with
      | some (.obj fields) => .ok fields
      | some _ => .error (.jsonFile s!"{pathText path} no contiene un objeto JSON")
      | none => .error (.jsonFile s!"No se pudo leer JSON {pathText path}")
  | _ => .error (.jsonFile s!"No se pudo leer JSON {pathText path}")

/-- ChaCha20-Poly1305 under the key of the store. `decrypt` is undefined when the tag does not
match; what is encrypted under a nonce of twelve bytes is decrypted with it. -/
structure Aead where
  encrypt : Bytes → Bytes → Bytes → Bytes
  decrypt : Bytes → Bytes → Bytes → Option Bytes
  decrypt_encrypt : ∀ nonce data associated, nonce.length = 12 →
    decrypt nonce (encrypt nonce data associated) associated = some data

/-- An open store: its AEAD and BLAKE3 keyed with its private key. -/
structure StoreKeys where
  aead : Aead
  keyed : Blake3

def storageId (keys : StoreKeys) (objectHash : Text) : Checked Text := do
  ensure (isValidBlake3Hex objectHash)
    (.store "object_hash debe ser hex lowercase de 64 caracteres")
  return blake3HexDigest keys.keyed (encodeUtf8 objectHash)

def objectsDir : Text := "objects".toList

def objectSuffix : Text := ".stobj".toList

def objectPath (id : Text) : StorePath := [objectsDir, id.take 2, id ++ objectSuffix]

def latestPath : StorePath := ["latest.json".toList]

def aeadName : Text := "chacha20poly1305".toList

def encryptedObjectFormat : Text := "stopan.encrypted_metadata_object".toList

def latestPointerFormat : Text := "stopan.metadata_latest_pointer".toList

def encryptedLatestFormat : Text := latestPointerFormat ++ ".encrypted".toList

def b64encode (data : Bytes) : PyJson := .str (Base64.encode data)

def b64decode (name : String) : Option PyJson → Checked Bytes
  | some (.str text) =>
      match Base64.decode text with
      | some data => .ok data
      | none => .error (.encoding s!"{name} no es base64 válido")
  | _ => .error (.encoding s!"{name} debe ser base64 string")

def objectAssociatedData (id : Text) : Bytes :=
  canonicalJsonBytes (.obj [field "format" (.str encryptedObjectFormat),
    field "version" (natJson 1), field "storage_id" (.str id)])

def latestAssociatedData : Bytes :=
  canonicalJsonBytes
    (.obj [field "format" (.str encryptedLatestFormat), field "version" (natJson 1)])

def aeadPayload (nonce : Bytes) : PyJson :=
  .obj [field "name" (.str aeadName), field "nonce" (b64encode nonce)]

def encryptedObject (keys : StoreKeys) (nonce : Bytes) (id : Text) (data : Bytes) : PyJson :=
  .obj [field "format" (.str encryptedObjectFormat), field "version" (natJson 1),
    field "storage_id" (.str id), field "aead" (aeadPayload nonce),
    field "ciphertext" (b64encode (keys.aead.encrypt nonce data (objectAssociatedData id)))]

def validateEncodedObject (blake3 : Blake3) (encoded : EncodedMetadataObject) : Checked Unit :=
  ensure (decide (blake3HexDigest blake3 encoded.canonicalBytes = encoded.objectHash)) (.store
    (s!"encoded.object_hash no coincide: esperado={String.ofList encoded.objectHash} " ++
      s!"calculado={String.ofList (blake3HexDigest blake3 encoded.canonicalBytes)}"))

/-- `_put_object_no_parent_fsync`: whether the object was written, and its directory. -/
def putObjectNoParentFsync (blake3 : Blake3) (keys : StoreKeys) (environment : StoreEnvironment)
    (encoded : EncodedMetadataObject) : StoreTask (Bool × StorePath) := do
  Task.inspect fun _ => validateEncodedObject blake3 encoded
  let id ← Task.inspect fun _ => storageId keys encoded.objectHash
  let path := objectPath id
  let present ← Task.inspect fun files => .ok (files.get? path).isSome
  if present then return (false, parentOf path)
  environment.prepare (.makeDir (parentOf path))
    fun text => .storageOS s!"No se pudo crear el directorio {pathText (parentOf path)}: {text}"
  let payload := encryptedObject keys (environment.nonce path) id encoded.canonicalBytes
  atomicWriteBytes environment path (canonicalJsonBytes payload) false
  return (true, parentOf path)

def putObject (blake3 : Blake3) (keys : StoreKeys) (environment : StoreEnvironment)
    (encoded : EncodedMetadataObject) :
    StoreTask Bool := do
  let (written, parent) ← putObjectNoParentFsync blake3 keys environment encoded
  if written then fsyncDir environment parent
  return written

/-- The directories in which something was written, each once and in order. -/
def touchedDirs (results : List (Bool × StorePath)) : List StorePath :=
  (((results.filter (·.1)).map (·.2)).dedup).insertionSort fun left right => left ≤ right

def sortedByHash (objects : List EncodedMetadataObject) : List EncodedMetadataObject :=
  objects.insertionSort fun left right => left.objectHash ≤ right.objectHash

def putObjectsBatch (blake3 : Blake3) (keys : StoreKeys) (environment : StoreEnvironment)
    (objects : List EncodedMetadataObject) : StoreTask (Nat × Nat) := do
  let results ← Task.forEach (putObjectNoParentFsync blake3 keys environment) (sortedByHash objects)
  let _ ← Task.forEach (fsyncDir environment) (touchedDirs results)
  return (results.countP (·.1), results.countP fun result => !result.1)

/-- `value == number` of a JSON value. -/
def equalsNat (number : Nat) : Option PyJson → Bool
  | some (.int value) => decide (value = number)
  | some (.bool value) => decide (value.toNat = number)
  | some (.float value) =>
      value.isFinite && !value.negative && decide (Binary64.units value.pattern = number * 2 ^ 1074)
  | _ => false

/-- The part of the decryption that objects and the pointer share. -/
def openCiphertext (keys : StoreKeys) (raw : Fields) (label : String) (associated : Bytes)
    (badAead tampered : ObjectsError) :
    Checked Bytes :=
  match raw.lookup "aead".toList with
  | some (.obj aead) => do
      ensure (decide (aead.lookup "name".toList = some (.str aeadName))) badAead
      let nonce ← b64decode s!"{label}.aead.nonce" (aead.lookup "nonce".toList)
      let ciphertext ← b64decode s!"{label}.ciphertext" (raw.lookup "ciphertext".toList)
      match keys.aead.decrypt nonce ciphertext associated with
      | some plaintext => .ok plaintext
      | none => .error tampered
  | _ => .error badAead

/-- The check of the type that a caller expects. -/
def checkExpectedType (objectHash : Text) (plaintext : Bytes) (expected : MetadataObjectType) :
    Checked Unit :=
  match loadJsonBytes plaintext with
  | some (.obj envelope) => do
      ensure (decide (envelope.lookup "format".toList = some (.str metadataObjectFormat)) &&
          equalsNat metadataObjectVersion (envelope.lookup "version".toList))
        (.store s!"metadata object envelope no soportado: {String.ofList objectHash}")
      ensure (decide (envelope.lookup "object_type".toList = some (.str expected.value)))
        (.store s!"tipo de metadata object no coincide para {String.ofList objectHash}: esperado={expected.name}")
  | some _ => .error (.store s!"metadata object plaintext inválido: {String.ofList objectHash}")
  | none => .error (.value s!"metadata object no es JSON: {String.ofList objectHash}")

/-- `get_object_bytes` without an expected type. -/
def readObject (blake3 : Blake3) (keys : StoreKeys) (files : StoreFiles) (objectHash : Text) :
    Checked Bytes := do
  let id ← storageId keys objectHash
  let path := objectPath id
  ensure (files.get? path).isSome
    (.missing s!"metadata object no encontrado: {String.ofList objectHash}")
  let raw ← loadJsonFile files path
  ensure (decide (raw.lookup "format".toList = some (.str encryptedObjectFormat)))
    (.store s!"objeto cifrado inválido: {pathText path}")
  ensure (equalsNat 1 (raw.lookup "version".toList))
    (.store "versión de objeto cifrado no soportada")
  ensure (decide (raw.lookup "storage_id".toList = some (.str id)))
    (.store s!"storage_id inconsistente en {pathText path}")
  let plaintext ← openCiphertext keys raw "object" (objectAssociatedData id)
    (.store s!"AEAD inválido en {pathText path}")
    (.authentication (s!"No se pudo autenticar metadata object {String.ofList objectHash}: " ++
      "passphrase incorrecta o fichero manipulado."))
  ensure (decide (blake3HexDigest blake3 plaintext = objectHash)) (.authentication
    (s!"hash de metadata object no coincide: esperado={String.ofList objectHash} " ++
      s!"calculado={String.ofList (blake3HexDigest blake3 plaintext)}"))
  return plaintext

def getObjectBytes (blake3 : Blake3) (keys : StoreKeys) (files : StoreFiles) (objectHash : Text)
    (expectedType : Option MetadataObjectType) : Checked Bytes := do
  let plaintext ← readObject blake3 keys files objectHash
  match expectedType with
  | none => return plaintext
  | some expected => do
      checkExpectedType objectHash plaintext expected
      return plaintext

/-- A pointer that its constructor accepts. -/
structure LatestMetadataPointer where
  vaultId : Text
  catalogHash : Text
  stateDigest : Text
  objectCount : Nat
  totalCanonicalBytes : Nat
  snapshotCount : Nat
  knownChunkCount : Nat
  protectionRecordCount : Nat
  vault_valid : isLowerHex 32 (strip vaultId) = true
  catalog_valid : isValidBlake3Hex catalogHash = true
  digest_valid : isValidBlake3Hex stateDigest = true
  deriving DecidableEq

def LatestMetadataPointer.toJson (latest : LatestMetadataPointer) : PyJson :=
  .obj [field "format" (.str latestPointerFormat), field "version" (natJson 1),
    field "vault_id" (.str latest.vaultId),
    field "catalog_hash" (.str latest.catalogHash), field "state_digest" (.str latest.stateDigest),
    field "object_count" (natJson latest.objectCount),
    field "total_canonical_bytes" (natJson latest.totalCanonicalBytes),
    field "snapshot_count" (natJson latest.snapshotCount),
    field "known_chunk_count" (natJson latest.knownChunkCount),
    field "protection_record_count" (natJson latest.protectionRecordCount)]

def encryptedLatest (keys : StoreKeys) (nonce : Bytes) (latest : LatestMetadataPointer) : PyJson :=
  .obj [field "format" (.str encryptedLatestFormat), field "version" (natJson 1),
    field "aead" (aeadPayload nonce),
    field "ciphertext"
      (b64encode (keys.aead.encrypt nonce (canonicalJsonBytes latest.toJson) latestAssociatedData))]

def writeLatestPointer (keys : StoreKeys) (environment : StoreEnvironment)
    (latest : LatestMetadataPointer) : StoreTask Unit :=
  atomicWriteBytes environment latestPath
    (canonicalJsonBytes (encryptedLatest keys (environment.nonce latestPath) latest)) true

/-- The digits of an integer literal, which single underscores may separate. -/
def literalDigits (text : Text) : Option (List Nat) :=
  let groups := text.splitOn '_'
  if groups.all fun group => !group.isEmpty && group.all Char.isDigit then
    some (groups.flatten.map fun char => char.toNat - 48)
  else none

/-- `int(text)`. -/
def intOfText (text : Text) : Option Int :=
  let value (digits : List Nat) : Int := Nat.ofDigits 10 digits.reverse
  match strip text with
  | '-' :: rest => (literalDigits rest).map fun digits => -value digits
  | '+' :: rest => (literalDigits rest).map value
  | other => (literalDigits other).map value

/-- `int(value)` of a JSON value. -/
def intOf (name : String) : PyJson → Checked Int
  | .int value => .ok value
  | .bool value => .ok value.toNat
  | .float value =>
      if value.isFinite then
        let magnitude := ((Binary64.units value.pattern / 2 ^ 1074 : Nat) : Int)
        .ok (if value.negative then -magnitude else magnitude)
      else .error (.value s!"{name} no es finito")
  | .str text =>
      match intOfText text with
      | some value => .ok value
      | none => .error (.value s!"{name} no es entero")
  | _ => .error (.value s!"{name} no es entero")

/-- `str(value)` of a JSON value that may be a hash: a string, or an integer with as many digits. -/
def hashTextOf (name : String) : PyJson → Checked Text
  | .str text => .ok text
  | .int value => .ok (Json.dumpInt value)
  | _ => .error (.store s!"{name} debe ser hex lowercase de 64 caracteres")

def pointerField (decoded : Fields) (name : String) : Checked PyJson :=
  match decoded.lookup name.toList with
  | some value => .ok value
  | none => .error (.value name)

def pointerInt (decoded : Fields) (name : String) : Checked Int :=
  do intOf name (← pointerField decoded name)

def pointerVaultId : Option PyJson → Checked Text
  | some (.str text) => do
      ensure (isLowerHex 32 (strip text))
        (.store "latest.vault_id debe tener 32 caracteres hexadecimales lowercase")
      return strip text
  | _ => .error (.store "latest.vault_id debe ser string")

/-- The constructor of the pointer. -/
def makePointer (vaultId catalogHash stateDigest : Text)
    (objectCount totalCanonicalBytes snapshotCount knownChunkCount
    protectionRecordCount : Int) : Checked LatestMetadataPointer :=
  if vault_valid : isLowerHex 32 (strip vaultId) = true then
    if catalog_valid : isValidBlake3Hex catalogHash = true then
      if digest_valid : isValidBlake3Hex stateDigest = true then do
        ensure (decide (0 ≤ objectCount)) (.store "latest.object_count debe ser >= 0")
        ensure (decide (0 ≤ totalCanonicalBytes))
          (.store "latest.total_canonical_bytes debe ser >= 0")
        ensure (decide (0 ≤ snapshotCount)) (.store "latest.snapshot_count debe ser >= 0")
        ensure (decide (0 ≤ knownChunkCount)) (.store "latest.known_chunk_count debe ser >= 0")
        ensure (decide (0 ≤ protectionRecordCount))
          (.store "latest.protection_record_count debe ser >= 0")
        return {
          vaultId, catalogHash, stateDigest
          objectCount := objectCount.toNat
          totalCanonicalBytes := totalCanonicalBytes.toNat
          snapshotCount := snapshotCount.toNat
          knownChunkCount := knownChunkCount.toNat
          protectionRecordCount := protectionRecordCount.toNat
          vault_valid, catalog_valid, digest_valid }
      else .error (.store "latest.state_digest debe ser hex lowercase de 64 caracteres")
    else .error (.store "latest.catalog_hash debe ser hex lowercase de 64 caracteres")
  else .error (.store "latest.vault_id debe tener 32 caracteres hexadecimales lowercase")

def decodePointer (decoded : Fields) : Checked LatestMetadataPointer := do
  ensure (decide (decoded.lookup "format".toList = some (.str latestPointerFormat)))
    (.store "formato de latest pointer inválido")
  ensure (equalsNat 1 (decoded.lookup "version".toList))
    (.store "versión de latest pointer no soportada")
  let vaultId ← pointerVaultId (decoded.lookup "vault_id".toList)
  let catalogHash ← hashTextOf "latest.catalog_hash" (← pointerField decoded "catalog_hash")
  let stateDigest ← hashTextOf "latest.state_digest" (← pointerField decoded "state_digest")
  let objectCount ← pointerInt decoded "object_count"
  let totalCanonicalBytes ← pointerInt decoded "total_canonical_bytes"
  let snapshotCount ← pointerInt decoded "snapshot_count"
  let knownChunkCount ← pointerInt decoded "known_chunk_count"
  let protectionRecordCount ← pointerInt decoded "protection_record_count"
  makePointer vaultId catalogHash stateDigest objectCount totalCanonicalBytes
    snapshotCount knownChunkCount
    protectionRecordCount

def readLatestPointer (keys : StoreKeys) (files : StoreFiles) : Checked LatestMetadataPointer := do
  ensure (files.get? latestPath).isSome (.missing "metadata object store sin latest pointer")
  let raw ← loadJsonFile files latestPath
  ensure (decide (raw.lookup "format".toList = some (.str encryptedLatestFormat)))
    (.store s!"latest pointer inválido en {pathText latestPath}")
  ensure (equalsNat 1 (raw.lookup "version".toList))
    (.store "versión de latest pointer no soportada")
  let plaintext ← openCiphertext keys raw "latest" latestAssociatedData
    (.store s!"latest pointer AEAD inválido en {pathText latestPath}")
    (.authentication
      "No se pudo autenticar latest pointer: passphrase incorrecta o fichero manipulado.")
  match loadJsonBytes plaintext with
  | some (.obj decoded) => decodePointer decoded
  | some _ => .error (.store "latest pointer plaintext inválido")
  | none => .error (.value "latest pointer no es JSON")

/-- A graph that its constructor accepts. -/
structure MetadataObjectGraph where
  vaultId : Text
  catalogHash : Text
  stateDigest : Text
  objects : Dict Text EncodedMetadataObject
  snapshotCount : Nat
  knownChunkCount : Nat
  protectionRecordCount : Nat
  vault_valid : isLowerHex 32 (strip vaultId) = true
  digest_valid : isValidBlake3Hex stateDigest = true
  keys_match : ∀ entry ∈ objects.entries, entry.2.objectHash = entry.1 ∧
    isValidBlake3Hex entry.1 = true
  catalog_present : catalogHash ∈ objects.keys

theorem MetadataObjectGraph.catalog_valid (graph : MetadataObjectGraph) :
    isValidBlake3Hex graph.catalogHash = true := by
  obtain ⟨encoded, found⟩ := (Dict.mem_keys_iff _ _).mp graph.catalog_present
  exact (graph.keys_match _ (Dict.get?_eq_some_iff.mp found)).2

def MetadataObjectGraph.latest (graph : MetadataObjectGraph) : LatestMetadataPointer where
  vaultId := graph.vaultId
  catalogHash := graph.catalogHash
  stateDigest := graph.stateDigest
  objectCount := graph.objects.entries.length
  totalCanonicalBytes := (graph.objects.values.map fun encoded => encoded.canonicalBytes.length).sum
  snapshotCount := graph.snapshotCount
  knownChunkCount := graph.knownChunkCount
  protectionRecordCount := graph.protectionRecordCount
  vault_valid := graph.vault_valid
  catalog_valid := graph.catalog_valid
  digest_valid := graph.digest_valid

/-- The objects first, the pointer last. -/
def putGraph (blake3 : Blake3) (keys : StoreKeys) (environment : StoreEnvironment)
    (graph : MetadataObjectGraph) :
    StoreTask (Nat × Nat) := do
  let counts ← putObjectsBatch blake3 keys environment graph.objects.values
  writeLatestPointer keys environment graph.latest
  return counts

end Stopan.Objects
