import Stopan.Lib.GraphWalk
import Stopan.Objects.PayloadRoundTrip

/-!
Envelopes and the walk of the object graph (`stopan/metadata/objects/graph/walk.py`): what
`decode_object_envelope` accepts, and what the walk from a catalog visits.
-/

namespace Stopan.Objects

open Stopan.Lib Stopan.Common

/-- `_require_hash64` of the walk, which removes blanks around the value. -/
def requireWalkHash64 (name : String) : PyJson → Checked Text
  | .str value => do
      ensure (isValidBlake3Hex (strip value))
        (.walk s!"{name} debe tener 64 caracteres hexadecimales lowercase")
      return strip value
  | other => .error (.walk s!"{name} debe ser str; recibido {typeName other}")

def requireExpectedHash : Option Text → Checked (Option Text)
  | none => .ok none
  | some text => some <$> requireWalkHash64 "expected_hash" (.str text)

/-- `MetadataObjectType(str(value))`. The text of a value that is not a string names no type. -/
def envelopeType? : Option PyJson → Option MetadataObjectType
  | some (.str text) => MetadataObjectType.ofText? text
  | _ => none

/-- The checks on the envelope once its bytes are read. -/
def decodeEnvelope (calculated : Text) (canonicalBytes : Bytes) (envelope : Fields) :
    Checked (MetadataObjectType × PyJson) := do
  ensure (decide (canonicalJsonBytes (.obj envelope) = canonicalBytes))
    (.walk s!"metadata object no usa la representación JSON canónica: {String.ofList calculated}")
  ensure (decide (envelope.lookup "format".toList = some (.str metadataObjectFormat)))
    (.walk s!"formato de metadata object inválido: {String.ofList calculated}")
  ensure (decide (envelope.lookup "version".toList = some (natJson metadataObjectVersion)))
    (.walk s!"versión de metadata object no soportada: {String.ofList calculated}")
  match envelopeType? (envelope.lookup "object_type".toList) with
  | none => .error (.walk "tipo de metadata object no soportado")
  | some objectType =>
      match envelope.lookup "payload".toList with
      | some (.obj payload) =>
          match decodeMetadataObjectPayload objectType (.obj payload) with
          | .ok _ => return (objectType, .obj payload)
          | .error reason => .error (.walk
              s!"payload semántico inválido para {String.ofList calculated} ({objectType.name}): {reason.message}")
      | _ => .error (.walk s!"payload de metadata object inválido: {String.ofList calculated}")

def decodeObjectEnvelope (blake3 : Blake3) (canonicalBytes : Bytes) (expectedHash : Option Text) :
    Checked (MetadataObjectType × PyJson) := do
  let expected ← requireExpectedHash expectedHash
  let calculated := blake3HexDigest blake3 canonicalBytes
  ensure (expected.all fun hash => decide (calculated = hash))
    (.walk ("hash de metadata object no coincide: " ++
      s!"esperado={String.ofList (expected.getD [])} calculado={String.ofList calculated}"))
  match loadJsonBytes canonicalBytes with
  | none => .error (.walk s!"JSON de metadata object inválido: {String.ofList calculated}")
  | some (.obj envelope) => decodeEnvelope calculated canonicalBytes envelope
  | some _ => .error (.walk s!"envelope de metadata object inválido: {String.ofList calculated}")

def envelopeFields : List String := ["format", "version", "object_type", "payload"]

theorem objectEnvelope_writes (object : MetadataPlainObject) :
    Writes envelopeFields (objectEnvelope object) :=
  ⟨rfl, by simp [fieldsOf, objectEnvelope, envelopeFields, field], by simp [envelopeFields]⟩

@[simp] theorem objectEnvelope_encodable (object : MetadataPlainObject) :
    Encodable (objectEnvelope object) := by
  apply (objectEnvelope_writes object).encodable
  simp [fieldsOf, objectEnvelope, field]

theorem requireExpectedHash_digest (blake3 : Blake3) (data : Bytes) {expectedHash : Option Text}
    (own : ∀ hash ∈ expectedHash, hash = blake3HexDigest blake3 data) :
    requireExpectedHash expectedHash = .ok expectedHash := by
  cases expectedHash with
  | none => rfl
  | some hash =>
      have valid := blake3HexDigest_valid blake3 data
      rw [← own hash rfl] at valid
      simp [requireExpectedHash, requireWalkHash64, strip_of_isValidBlake3Hex valid, valid, ensure]

/-- The encoding of a valid object is accepted, under its own hash or under none. -/
theorem decodeObjectEnvelope_canonicalObjectBytes (blake3 : Blake3) {object : MetadataPlainObject}
    (valid : object.Valid) {expectedHash : Option Text}
    (own : ∀ hash ∈ expectedHash, hash = blake3HexDigest blake3 (canonicalObjectBytes object)) :
    decodeObjectEnvelope blake3 (canonicalObjectBytes object) expectedHash =
      .ok (object.objectType, (objectPayload object).sorted) := by
  have written := objectEnvelope_writes object
  have loaded : loadJsonBytes (canonicalObjectBytes object) = some
      (.obj (readBack (objectEnvelope object))) := by
    rw [canonicalObjectBytes, loadJsonBytes_canonical (objectEnvelope_encodable object)]
    exact congrArg some (Json.sorted_obj _)
  have matched : (expectedHash.all fun hash => decide
      (blake3HexDigest blake3 (canonicalObjectBytes object) = hash)) = true := by
    cases expectedHash with
    | none => rfl
    | some hash => simp [own hash rfl]
  have canonical : canonicalJsonBytes (.obj (readBack (objectEnvelope object))) =
      canonicalObjectBytes object := by
    rw [canonicalObjectBytes, ← canonicalJsonBytes_sorted (objectEnvelope object)]
    exact congrArg canonicalJsonBytes (Json.sorted_obj _).symm
  have payloadObject : ∃ fields, (objectPayload object).sorted = .obj fields := by
    cases object <;> exact ⟨_, Json.sorted_obj _⟩
  obtain ⟨fields, shape⟩ := payloadObject
  have decoded := decodeMetadataObjectPayload_objectPayload valid
  have payload := written.found 3 rfl
  rw [shape] at decoded payload ⊢
  have format := written.found 0 rfl
  have version := written.found 1 rfl
  have type := written.found 2 rfl
  rw [decodeObjectEnvelope, requireExpectedHash_digest blake3 _ own, bind_ok]
  dsimp only
  rw [matched, loaded]
  simp only [ensure, if_true, bind_ok, decodeEnvelope, canonical, format, version, type, payload,
    sorted_str, sorted_natJson,
    decide_true, envelopeType?, MetadataObjectType.ofText?_value, decoded]
  rfl

def emptyChunkList : MetadataPlainObject := .chunkList { chunks := [] }

/-- The reference that a dictionary is, when it has one of the two keys of a reference. -/
def ownRef (fields : Fields) : Checked (List (MetadataObjectType × Text)) :=
  match fields.lookup "object_type".toList, fields.lookup "object_hash".toList with
  | none, none => .ok []
  | some (.str text), some objectHash => do
      match MetadataObjectType.ofText? text with
      | none => .error (.walk "object_ref.object_type no soportado")
      | some objectType =>
          return [(objectType, ← requireWalkHash64 "object_ref.object_hash" objectHash)]
  | some other, some _ =>
      .error (.walk s!"object_ref.object_type debe ser str; recibido {typeName other}")
  | _, _ => .error (.walk "ObjectRef incompleto: object_type y object_hash son obligatorios")

mutual

def iterObjectRefs : PyJson → Checked (List (MetadataObjectType × Text))
  | .obj fields => do
      let own ← ownRef fields
      return own ++ (← iterFieldRefs fields)
  | .arr items => iterItemRefs items
  | _ => .ok []

def iterItemRefs : List PyJson → Checked (List (MetadataObjectType × Text))
  | [] => .ok []
  | item :: rest => do
      let first ← iterObjectRefs item
      return first ++ (← iterItemRefs rest)

def iterFieldRefs : List (Text × PyJson) → Checked (List (MetadataObjectType × Text))
  | [] => .ok []
  | (_, value) :: rest => do
      let first ← iterObjectRefs value
      return first ++ (← iterFieldRefs rest)

end

/-- Read an object, decode it as the type it must have, and list its references. -/
def visitObject (blake3 : Blake3) (readObjectBytes : Text → Checked Bytes) (objectHash : Text)
    (expectedType : MetadataObjectType) : Checked (List (MetadataObjectType × Text)) := do
  let canonicalBytes ← readObjectBytes objectHash
  let decoded ← decodeObjectEnvelope blake3 canonicalBytes (some objectHash)
  ensure (decide (decoded.1 = expectedType)) (.walk
    ("tipo de metadata object no coincide para " ++
      s!"{String.ofList objectHash}: esperado={expectedType.name} recibido={decoded.1.name}"))
  iterObjectRefs decoded.2

def walkConflict (objectHash : Text) (previous label : MetadataObjectType) : ObjectsError :=
  .walk ("metadata object referenciado con tipos incompatibles: " ++
    s!"{String.ofList objectHash}: {previous.name} y {label.name}")

/-- `collect_reachable_object_hashes`; undefined when more objects can be read than the budget. -/
def collectReachableObjectHashes (blake3 : Blake3) (catalogHash : Text)
    (readObjectBytes : Text → Checked Bytes) (budget : Nat) :
    Option (Checked (List Text)) :=
  match requireWalkHash64 "catalog_hash" (.str catalogHash) with
  | .error reason => some (.error reason)
  | .ok rootHash =>
      GraphWalk.loop (visitObject blake3 readObjectBytes) walkConflict budget
        (GraphWalk.start rootHash .catalog)

theorem visitObject_stable (blake3 : Blake3) (readObjectBytes : Text → Checked Bytes) :
    GraphWalk.Stable (visitObject blake3 readObjectBytes) := by
  intro objectHash left right leftRefs rightRefs leftVisit rightVisit
  obtain ⟨bytes, read, rest⟩ := bind_eq_ok_iff.mp leftVisit
  obtain ⟨decoded, opened, rest⟩ := bind_eq_ok_iff.mp rest
  obtain ⟨-, leftListed⟩ := ensure_bind_eq_ok_iff.mp rest
  obtain ⟨otherBytes, otherRead, rest⟩ := bind_eq_ok_iff.mp rightVisit
  obtain ⟨otherDecoded, otherOpened, rest⟩ := bind_eq_ok_iff.mp rest
  obtain ⟨-, rightListed⟩ := ensure_bind_eq_ok_iff.mp rest
  cases read.symm.trans otherRead
  cases opened.symm.trans otherOpened
  cases leftListed.symm.trans rightListed
  rfl

/-- The references of an object, as it is read. -/
def RefersTo (blake3 : Blake3) (readObjectBytes : Text → Checked Bytes) : Text → Text → Prop :=
  GraphWalk.Refers (visitObject blake3 readObjectBytes)

/-- A walk that returns has read exactly the objects that can be reached from the catalog. -/
theorem collectReachableObjectHashes_visits {blake3 : Blake3} {catalogHash : Text}
    {readObjectBytes : Text → Checked Bytes}
    {budget : Nat} {live : List Text} (valid : isValidBlake3Hex catalogHash = true)
    (walked : collectReachableObjectHashes blake3 catalogHash readObjectBytes budget = some
      (.ok live)) :
    (∀ objectHash, objectHash ∈ live ↔
      Relation.ReflTransGen (RefersTo blake3 readObjectBytes) catalogHash objectHash) ∧
      ∀ objectHash ∈ live, ∃ data, readObjectBytes objectHash = .ok data := by
  have root : requireWalkHash64 "catalog_hash" (.str catalogHash) = .ok catalogHash := by
    simp [requireWalkHash64, strip_of_isValidBlake3Hex valid, valid, ensure]
  rw [collectReachableObjectHashes, root] at walked
  obtain ⟨exactly, read⟩ := GraphWalk.loop_visits (visitObject_stable blake3 readObjectBytes) walked
  refine ⟨exactly, fun objectHash member => ?_⟩
  obtain ⟨label, references, visited⟩ := read objectHash member
  obtain ⟨data, found, -⟩ := bind_eq_ok_iff.mp visited
  exact ⟨data, found⟩

end Stopan.Objects
