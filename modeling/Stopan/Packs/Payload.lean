import Stopan.Objects.Validation
import Stopan.Objects.ReadBack

/-!
The payload of a metadata pack (`stopan/metadata/packs/payload.py`) and its import into an object
store (`MetadataObjectPackService.import_pack`).
-/

namespace Stopan.Packs

open Stopan.Lib Stopan.Common Stopan.Objects

/-- `payload.get(name)`. -/
def fieldOrNone (fields : Fields) (name : String) : PyJson := (fields.lookup name.toList).getD .null

def requireMetadataHash (name : String) : PyJson → Checked Text
  | .str value => do
      ensure (isValidBlake3Hex value)
        (.pack s!"{name} debe tener 64 caracteres hexadecimales lowercase")
      return value
  | _ => .error (.pack s!"{name} debe ser string")

def requirePackVaultId (name : String) : PyJson → Checked Text
  | .str value => do
      ensure (isLowerHex 32 value)
        (.pack s!"{name} debe tener 32 caracteres hexadecimales lowercase")
      return value
  | _ => .error (.pack s!"{name} debe ser string")

def requireNonNegativeInt (name : String) : PyJson → Checked Nat
  | .int value => do
      ensure (decide (0 ≤ value)) (.pack s!"{name} debe ser >= 0; recibido {value}")
      return value.toNat
  | other => .error (.pack s!"{name} debe ser entero; recibido {typeName other}")

def requirePositiveInt (name : String) (value : PyJson) : Checked Nat := do
  let number ← requireNonNegativeInt name value
  ensure (decide (0 < number)) (.pack s!"{name} debe ser > 0; recibido {number}")
  return number

/-- `float(value)` of a positive integer. -/
def floatOfNat (value : Nat) : PyFloat := floatFormat.ofNumber (NumberText.ofNat false value)

def requirePositiveFloat (name : String) : PyJson → Checked PyFloat
  | .int value => do
      ensure (decide (value.natAbs < floatLimit)) (.overflow "int too large to convert to float")
      ensure (decide (0 < value)) (.pack s!"{name} debe ser finito y > 0. Recibido {value}")
      return floatOfNat value.toNat
  | .float value => do
      ensure (value.isFinite && !value.negative && decide (value.pattern ≠ 0))
        (.pack s!"{name} debe ser finito y > 0. Recibido {String.ofList (floatStr value)}")
      return value
  | other => .error (.pack s!"{name} debe ser un número > 0; recibido {typeName other}")

def packPayloadFormat : Text := "stopan.metadata_object_pack_payload".toList

def packEntry (objectHash : Text) (objectType : MetadataObjectType)
    (canonicalBytes : Bytes) : PyJson :=
  .obj [field "object_hash" (.str objectHash), field "object_type" (.str objectType.value),
    field "canonical_b64" (b64encode canonicalBytes),
      field "canonical_bytes" (natJson canonicalBytes.length)]

def packEntries (blake3 : Blake3) : List (Text × Bytes) → Checked (List PyJson)
  | [] => .ok []
  | (objectHash, canonicalBytes) :: rest => do
      let objectHash ← requireMetadataHash "object_hash" (.str objectHash)
      let decoded ← decodeObjectEnvelope blake3 canonicalBytes (some objectHash)
      return packEntry objectHash decoded.1 canonicalBytes :: (← packEntries blake3 rest)

def canonicalTotal (objects : List (Text × Bytes)) : Nat :=
  (objects.map fun entry => entry.2.length).sum

def packPayloadJson (latest : LatestMetadataPointer) (vaultId : Text) (generation : Nat)
    (createdAt : PyFloat) (entries : List PyJson) : PyJson :=
  .obj [field "format" (.str packPayloadFormat), field "version" (natJson 1),
    field "vault" (.obj [field "id" (.str vaultId), field "generation" (natJson generation),
      field "created_at_unix" (.float createdAt)]),
    field "latest" (.obj [field "catalog_hash" (.str latest.catalogHash),
      field "state_digest" (.str latest.stateDigest),
      field "object_count" (natJson latest.objectCount),
      field "total_canonical_bytes" (natJson latest.totalCanonicalBytes),
      field "snapshot_count" (natJson latest.snapshotCount),
      field "known_chunk_count" (natJson latest.knownChunkCount),
      field "protection_record_count" (natJson latest.protectionRecordCount)]),
    field "objects" (.arr entries)]

/-- `pack_payload`. -/
def packPayload (blake3 : Blake3) (latest : LatestMetadataPointer) (objects : Dict Text Bytes)
    (vaultGeneration : Nat) (packCreatedAtUnix : PyFloat) : Checked Bytes := do
  let generation ← requirePositiveInt "vault_generation" (natJson vaultGeneration)
  let createdAt ← requirePositiveFloat "pack_created_at_unix" (.float packCreatedAtUnix)
  let ordered := objects.entries.insertionSort fun left right => left.1 ≤ right.1
  let entries ← packEntries blake3 ordered
  ensure (decide (entries.length = latest.objectCount)) (.pack
    s!"latest.object_count={latest.objectCount} pero el recorrido alcanzable encontró {entries.length} objects")
  ensure (decide (canonicalTotal ordered = latest.totalCanonicalBytes)) (.pack
    (s!"latest.total_canonical_bytes={latest.totalCanonicalBytes} pero el recorrido alcanzable suma " ++
      s!"{canonicalTotal ordered}"))
  let vaultId ← requirePackVaultId "latest.vault_id" (.str latest.vaultId)
  return canonicalJsonBytes (packPayloadJson latest vaultId generation createdAt entries)

structure ParsedPackPayloadBase where
  vaultId : Text
  latest : LatestMetadataPointer
  entries : List PyJson
  vaultGeneration : Nat
  packCreatedAtUnix : PyFloat

def section? (fields : Fields) (name : String) (reason : String) : Checked Fields :=
  match fields.lookup name.toList with
  | some (.obj found) => .ok found
  | _ => .error (.pack reason)

def parseLatest (vaultId : Text) (latest : Fields) : Checked LatestMetadataPointer := do
  let catalogHash ← requireMetadataHash "latest.catalog_hash" (fieldOrNone latest "catalog_hash")
  let stateDigest ← requireMetadataHash "latest.state_digest" (fieldOrNone latest "state_digest")
  let objectCount ← requireNonNegativeInt "latest.object_count" (fieldOrNone latest "object_count")
  let totalCanonicalBytes ← requireNonNegativeInt "latest.total_canonical_bytes"
    (fieldOrNone latest "total_canonical_bytes")
  let snapshotCount ← requireNonNegativeInt "latest.snapshot_count"
    (fieldOrNone latest "snapshot_count")
  let knownChunkCount ← requireNonNegativeInt "latest.known_chunk_count"
    (fieldOrNone latest "known_chunk_count")
  let protectionRecordCount ← requireNonNegativeInt "latest.protection_record_count"
    (fieldOrNone latest "protection_record_count")
  makePointer vaultId catalogHash stateDigest objectCount totalCanonicalBytes
    snapshotCount knownChunkCount
    protectionRecordCount

def parsePackPayloadBase (payload : Fields) : Checked ParsedPackPayloadBase := do
  ensure (decide (payload.lookup "format".toList = some (.str packPayloadFormat)))
    (.pack "formato de payload de metadata pack inválido")
  ensure (decide (payload.lookup "version".toList = some (natJson 1)))
    (.pack "versión de payload de metadata pack no soportada")
  let vault ← section? payload "vault" "payload de metadata pack sin sección vault válida"
  let vaultId ← requirePackVaultId "vault.id" (fieldOrNone vault "id")
  let vaultGeneration ← requirePositiveInt "vault.generation" (fieldOrNone vault "generation")
  let packCreatedAtUnix ← requirePositiveFloat "vault.created_at_unix"
    (fieldOrNone vault "created_at_unix")
  let latestFields ← section? payload "latest" "payload de metadata pack sin sección latest válida"
  let latest ← parseLatest vaultId latestFields
  match payload.lookup "objects".toList with
  | some (.arr entries) => do
      ensure (decide (entries.length = latest.objectCount)) (.pack
        s!"pack latest.object_count={latest.objectCount} pero contiene {entries.length} objects")
      return { vaultId, latest, entries, vaultGeneration, packCreatedAtUnix }
  | _ => .error (.pack "objects del payload de metadata pack debe ser una lista")

/-- An object of the pack once it is decoded, with the length of its bytes. -/
structure ValidatedPackObject where
  objectType : MetadataObjectType
  payload : PyJson
  canonicalBytes : Nat
  deriving DecidableEq

/-- What the loop over the entries has so far; the last object comes first. -/
structure EntriesState where
  catalogVaultId : Option Text
  validated : Dict Text ValidatedPackObject
  objects : List EncodedMetadataObject

def EntriesState.start : EntriesState where
  catalogVaultId := none
  validated := .empty
  objects := []

/-- The vault of the latest catalog, once its object has been read. -/
def catalogVaultIdOf (catalogHash objectHash : Text) (decoded : MetadataObjectType × PyJson)
    (previous : Option Text) :
    Checked (Option Text) :=
  if decoded.1 = .catalog ∧ objectHash = catalogHash then
    some <$> requirePackVaultId "catalog.vault_id" (fieldOrNone (fieldsOf decoded.2) "vault_id")
  else .ok previous

def parseEntry (blake3 : Blake3) (catalogHash : Text) (index : Nat) (entry : PyJson)
    (state : EntriesState) :
    Checked EntriesState :=
  match entry with
  | .obj fields => do
      let objectHash ← requireMetadataHash s!"pack object[{index}].object_hash"
        (fieldOrNone fields "object_hash")
      ensure (!state.validated.contains objectHash)
        (.pack s!"objeto de metadata pack duplicado: {String.ofList objectHash}")
      match envelopeType? (fields.lookup "object_type".toList) with
      | none => .error (.pack "tipo de objeto de metadata pack no soportado")
      | some expectedType => do
          let canonical ← b64decode s!"pack object[{index}].canonical_b64"
            (fields.lookup "canonical_b64".toList)
          let decoded ← decodeObjectEnvelope blake3 canonical (some objectHash)
          ensure (decide (decoded.1 = expectedType)) (.pack
            (s!"tipo de objeto de metadata pack no coincide {String.ofList objectHash}: " ++
              s!"esperado={expectedType.name} actual={decoded.1.name}"))
          let catalogVaultId ← catalogVaultIdOf catalogHash objectHash decoded state.catalogVaultId
          let declaredSize ← requireNonNegativeInt s!"pack object[{index}].canonical_bytes"
            (fieldOrNone fields "canonical_bytes")
          ensure (decide (declaredSize = canonical.length)) (.pack
            (s!"tamaño de objeto de metadata pack no coincide {String.ofList objectHash}: " ++
              s!"declarado={declaredSize} actual={canonical.length}"))
          return {
            catalogVaultId
            validated := state.validated.set objectHash
              { objectType := decoded.1, payload := decoded.2, canonicalBytes := canonical.length }
            objects :=
              { objectType := decoded.1, objectHash,
                canonicalBytes := canonical } :: state.objects }
  | _ => .error (.pack s!"pack object[{index}] no es un objeto JSON")

def parseEntries (blake3 : Blake3) (catalogHash : Text) : Nat → List PyJson → EntriesState →
    Checked EntriesState
  | _, [], state => .ok state
  | index, entry :: rest, state => do
      parseEntries blake3 catalogHash (index + 1) rest
        (← parseEntry blake3 catalogHash index entry state)

/-- The references of a packed object that has the type it must have. -/
def visitPacked (objects : Dict Text ValidatedPackObject) (objectHash : Text)
    (expectedType : MetadataObjectType) :
    Checked (List (MetadataObjectType × Text)) :=
  match objects.get? objectHash with
  | none => .error (.pack
    s!"metadata pack no contiene objeto referenciado: {String.ofList objectHash}")
  | some validated => do
      ensure (decide (validated.objectType = expectedType)) (.pack
        ("tipo de metadata object no coincide para " ++
          s!"{String.ofList objectHash}: esperado={expectedType.name} recibido={validated.objectType.name}"))
      match iterObjectRefs validated.payload with
      | .ok references => .ok references
      | .error reason => .error (.pack
          s!"ObjectRef inválido en metadata object {String.ofList objectHash}: {reason.message}")

def packConflict (objectHash : Text) (previous label : MetadataObjectType) : ObjectsError :=
  .pack ("metadata object referenciado con tipos incompatibles: " ++
    s!"{String.ofList objectHash}: {previous.name} y {label.name}")

def canonicalStateDigest (blake3 : Blake3) (catalogHash : Text) (objectHashes : List Text) : Text :=
  blake3HexDigest blake3 (canonicalJsonBytes (.obj [field "catalog_hash" (.str catalogHash),
    field "object_hashes" (.arr ((objectHashes.insertionSort (· ≤ ·)).map .str))]))

/-- The walk over the packed objects. It ends within the budget, which exceeds their number. -/
def reachablePacked (latest : LatestMetadataPointer) (objects : Dict Text ValidatedPackObject) :
    Checked (List Text) :=
  (GraphWalk.loop (visitPacked objects) packConflict (objects.length + 1)
    (GraphWalk.start latest.catalogHash .catalog)).getD
    (.error (.pack "metadata pack no contiene objeto referenciado"))

def packedBytes (objects : Dict Text ValidatedPackObject) (objectHash : Text) : Nat :=
  ((objects.get? objectHash).map (·.canonicalBytes)).getD 0

def joinHashes (hashes : List Text) : String :=
  joinText "," (((hashes.insertionSort (· ≤ ·))).take 5)

def graphOf (objects : Dict Text ValidatedPackObject) : Dict Text GraphObjectPayload :=
  objects.mapValues fun _ validated => { objectType := validated.objectType,
                                         payload := validated.payload }

def validatePackPayloadGraph (blake3 : Blake3) (latest : LatestMetadataPointer)
    (objects : Dict Text ValidatedPackObject) :
    Checked Unit := do
  let reachable ← reachablePacked latest objects
  -- What is reachable was found among the packed objects, so nothing can be missing here.
  ensure (objects.keys.all fun objectHash => reachable.contains objectHash) (.pack
    ("el conjunto de objetos del metadata pack no coincide con el grafo alcanzable desde latest.catalog_hash: " ++
      s!"no_alcanzables={joinHashes (objects.keys.filter fun objectHash => !reachable.contains objectHash)}"))
  ensure (decide (canonicalStateDigest blake3 latest.catalogHash reachable = latest.stateDigest))
    (.pack
    "pack latest.state_digest no coincide con el grafo alcanzable")
  ensure (decide (reachable.length = latest.objectCount)) (.pack
    s!"pack latest.object_count no coincide con el grafo alcanzable: latest={latest.objectCount}")
  ensure (decide ((reachable.map (packedBytes objects)).sum = latest.totalCanonicalBytes)) (.pack
    s!"pack latest.total_canonical_bytes no coincide con el grafo alcanzable: latest={latest.totalCanonicalBytes}")
  match validateMetadataObjectGraphSemantics blake3 latest.catalogHash (graphOf objects)
      { snapshots := some latest.snapshotCount, knownChunks := some latest.knownChunkCount,
        protectionRecords := some latest.protectionRecordCount } with
  | .ok () => .ok ()
  | .error reason =>
      .error (.pack s!"grafo de metadata no es semánticamente recuperable: {reason.message}")

structure ParsedPack where
  latest : LatestMetadataPointer
  objects : List EncodedMetadataObject
  vaultId : Text
  vaultGeneration : Nat
  packCreatedAtUnix : PyFloat

/-- `parse_pack_payload`. -/
def parsePackPayload (blake3 : Blake3) (payload : Fields) : Checked ParsedPack := do
  let parsed ← parsePackPayloadBase payload
  let state ← parseEntries blake3 parsed.latest.catalogHash 0 parsed.entries .start
  let total := (state.objects.map fun encoded => encoded.canonicalBytes.length).sum
  ensure (decide (total = parsed.latest.totalCanonicalBytes)) (.pack
    s!"pack latest.total_canonical_bytes={parsed.latest.totalCanonicalBytes} pero contiene {total} bytes")
  match state.catalogVaultId with
  | none => .error (.pack "metadata pack no contiene el catalog latest")
  | some catalogVaultId => do
      ensure (decide (catalogVaultId = parsed.vaultId)) (.pack
        s!"catalog.vault_id={String.ofList catalogVaultId} no coincide con vault.id={String.ofList parsed.vaultId}")
      validatePackPayloadGraph blake3 parsed.latest state.validated
      return {
        latest := parsed.latest
        objects := state.objects.reverse
        vaultId := parsed.vaultId
        vaultGeneration := parsed.vaultGeneration
        packCreatedAtUnix := parsed.packCreatedAtUnix }

def packGenerationPath (vaultId : Text) : StorePath :=
  ["pack-generations".toList, vaultId ++ ".txt".toList]

def storedPackGeneration (files : StoreFiles) (vaultId : Text) : Checked Nat :=
  match files.get? (packGenerationPath vaultId) with
  | none => .ok 0
  | some .other => .error (.pack "No se pudo leer la generación de metadata packs")
  | some (.file file) =>
      match decodeUtf8 file.data with
      | none => .error (.value "generación de metadata packs no es UTF-8")
      | some text =>
          match intOfText text with
          | none => .error (.pack "Generación de metadata packs inválida")
          | some generation =>
              if 0 ≤ generation then .ok generation.toNat
                else .error (.pack "Generación de metadata packs negativa")

/-- `_remember_pack_generation` over the files of the store. -/
def storePackGeneration (environment : StoreEnvironment) (vaultId : Text) (generation : Nat) :
    StoreTask Unit := do
  let stored ← Task.inspect fun files => storedPackGeneration files vaultId
  if stored < generation then
    atomicWriteBytes environment (packGenerationPath vaultId)
      (encodeUtf8 (Nat.toDigits 10 generation ++ ['\n'])) true
  else return ()

/-- `import_pack`, from the decrypted payload on. -/
def importPackPayload (blake3 : Blake3) (keys : StoreKeys) (environment : StoreEnvironment)
    (payload : Fields) :
    StoreTask (ParsedPack × Nat × Nat) := do
  let parsed ← Task.inspect fun _ => parsePackPayload blake3 payload
  let counts ← putObjectsBatch blake3 keys environment parsed.objects
  writeLatestPointer keys environment parsed.latest
  storePackGeneration environment parsed.vaultId parsed.vaultGeneration
  return (parsed, counts)

end Stopan.Packs
