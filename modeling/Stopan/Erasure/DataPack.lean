import Stopan.Lib.Result
import Stopan.Common.Basic

/-!
Data packs of erasure coding (`stopan/protection/ec`): the models, the codec over `zfec`, the
construction of a pack from its chunks and the way back from shards to chunks.
-/

namespace Stopan.Erasure

open Stopan.Lib Stopan.Common

inductive ErasureError where
  | coding (message : String)
  | config (message : String)
  | network (message : String)
  | value (message : String)
  deriving DecidableEq, Repr

abbrev Coded := Except ErasureError

def requireHash (name : String) (value : Text) : Coded Text := do
  let text := strip value
  ensure (isValidBlake3Hex text)
    (.coding s!"{name} debe tener {blake3HexLength} caracteres hexadecimales lowercase")
  return text

theorem requireHash_of_valid {name : String} {value : Text}
    (valid : isValidBlake3Hex value = true) :
    requireHash name value = .ok value := by
  simp [requireHash, strip_of_isValidBlake3Hex valid, valid, ensure, bind,
    Except.bind, pure, Except.pure]

theorem requireHash_eq_ok {name : String} {value text : Text}
    (checked : requireHash name value = .ok text) :
    isValidBlake3Hex text = true := by
  rw [requireHash, ensure_bind_eq_ok_iff] at checked
  rw [← pure_eq_ok_iff.mp checked.2]
  exact checked.1

/-- `K` data shards and `M` parity shards, within what `zfec` can index. -/
structure ErasureSpec where
  dataShards : Nat
  parityShards : Nat
  positive : 0 < dataShards
  bounded : dataShards + parityShards ≤ 256
  deriving DecidableEq, Repr

def ErasureSpec.totalShards (spec : ErasureSpec) : Nat := spec.dataShards + spec.parityShards

def requireConfigNonNegativeInt (name : String) (value : Int) : Coded Nat := do
  ensure (decide (0 ≤ value)) (.config s!"{name} debe ser >= 0; recibido {value}")
  return value.toNat

def requireConfigPositiveInt (name : String) (value : Int) : Coded Nat := do
  let number ← requireConfigNonNegativeInt name value
  ensure (decide (0 < number)) (.config s!"{name} debe ser > 0; recibido {number}")
  return number

/-- `ErasureSpec.__post_init__`. -/
def createErasureSpec (dataShards parityShards : Int) (codec : String) : Coded ErasureSpec := do
  let data ← requireConfigPositiveInt "ec.data_shards" dataShards
  let parity ← requireConfigNonNegativeInt "ec.parity_shards" parityShards
  if bounded : data + parity ≤ 256 then
    if positive : 0 < data then do
      ensure (decide (codec = "zfec")) (.config s!"codec EC no soportado: '{codec}'")
      return { dataShards := data, parityShards := parity, positive, bounded }
    else .error (.config s!"ec.data_shards debe ser > 0; recibido {data}")
  else .error (.config "ec.total_shards debe ser <= 256 para zfec")

structure DataPackEntry where
  chunkHash : Text
  offset : Nat
  length : Nat
  ordinal : Nat
  deriving DecidableEq, Repr

def createDataPackEntry (chunkHash : Text) (offset length ordinal : Nat) : Coded DataPackEntry := do
  let chunkHash ← requireHash "chunk_hash" chunkHash
  ensure (decide (0 < length)) (.coding s!"length debe ser > 0; recibido {length}")
  return { chunkHash, offset, length, ordinal }

structure DataPackShard where
  packHash : Text
  shardIndex : Nat
  data : Bytes
  shardHash : Text
  deriving DecidableEq, Repr

/-- `DataPackShard.__post_init__`. -/
def createDataPackShard (blake3 : Blake3) (packHash : Text) (shardIndex : Nat) (data : Bytes)
    (shardHash : Text) :
    Coded DataPackShard := do
  let packHash ← requireHash "pack_hash" packHash
  let shardHash ← requireHash "shard_hash" shardHash
  ensure (decide (blake3HexDigest blake3 data = shardHash)) (.coding
    s!"shard_hash no coincide: esperado={String.ofList shardHash} calculado={String.ofList (blake3HexDigest blake3 data)}")
  return { packHash, shardIndex, data, shardHash }

/-- `DataPackShard._from_prehashed`. -/
def dataPackShardFromPrehashed (packHash : Text) (shardIndex : Nat) (data : Bytes)
    (shardHash : Text) :
    Coded DataPackShard := do
  let packHash ← requireHash "pack_hash" packHash
  let shardHash ← requireHash "shard_hash" shardHash
  return { packHash, shardIndex, data, shardHash }

structure EncodedDataPack where
  packHash : Text
  payloadSize : Nat
  paddedSize : Nat
  shardSize : Nat
  spec : ErasureSpec
  entries : List DataPackEntry
  shards : List DataPackShard
  deriving DecidableEq, Repr

/-- The entries in order cover the payload without gaps; the end of the last one is returned. -/
def checkEntries (ordinal previousEnd : Nat) : List DataPackEntry → Coded Nat
  | [] => .ok previousEnd
  | entry :: rest => do
      ensure (decide (entry.ordinal = ordinal))
        (.coding "entries debe estar ordenado por ordinal consecutivo")
      ensure (decide (entry.offset = previousEnd))
        (.coding "entries debe cubrir el payload de forma contigua")
      checkEntries (ordinal + 1) (entry.offset + entry.length) rest

def checkShards (packHash : Text) (totalShards shardSize : Nat) (seen : List Nat) :
    List DataPackShard → Coded Unit
  | [] => .ok ()
  | shard :: rest => do
      ensure (decide (shard.packHash = packHash))
        (.coding "shard.pack_hash debe coincidir con pack_hash")
      ensure (decide (shard.shardIndex < totalShards)) (.coding "shard_index fuera de rango")
      ensure (decide (shard.shardIndex ∉ seen)) (.coding "shard_index duplicado")
      ensure (decide (shard.data.length = shardSize))
        (.coding "todos los shards deben tener shard_size bytes")
      checkShards packHash totalShards shardSize (shard.shardIndex :: seen) rest

/-- `sorted(shards, key=lambda item: item.shard_index)`. -/
def sortedByIndex (shards : List DataPackShard) : List DataPackShard :=
  shards.insertionSort fun left right => left.shardIndex ≤ right.shardIndex

/-- `EncodedDataPack.__post_init__`. -/
def createEncodedDataPack (packHash : Text) (payloadSize paddedSize shardSize : Nat)
    (spec : ErasureSpec)
    (entries : List DataPackEntry) (shards : List DataPackShard) : Coded EncodedDataPack := do
  let packHash ← requireHash "pack_hash" packHash
  ensure (decide (paddedSize = shardSize * spec.dataShards))
    (.coding "padded_size debe coincidir con shard_size * data_shards")
  ensure (decide (payloadSize ≤ paddedSize))
    (.coding "payload_size no puede ser mayor que padded_size")
  ensure (decide (shards.length = spec.totalShards))
    (.coding "el número de shards no coincide con la especificación EC")
  let covered ← checkEntries 0 0 entries
  ensure (decide (covered = payloadSize)) (.coding "entries no cubre exactamente payload_size")
  checkShards packHash spec.totalShards shardSize [] shards
  return { packHash, payloadSize, paddedSize, shardSize, spec, entries,
           shards := sortedByIndex shards }

structure DataPackManifest where
  packHash : Text
  payloadSize : Nat
  paddedSize : Nat
  shardSize : Nat
  spec : ErasureSpec
  entries : List DataPackEntry
  deriving DecidableEq, Repr

/-- `DataPackManifest.__post_init__`. -/
def createDataPackManifest (packHash : Text) (payloadSize paddedSize shardSize : Nat)
    (spec : ErasureSpec) (entries : List DataPackEntry) : Coded DataPackManifest := do
  let _ ← requireHash "pack_hash" packHash
  ensure (decide (paddedSize = shardSize * spec.dataShards))
    (.coding "padded_size debe coincidir con shard_size * data_shards")
  return { packHash, payloadSize, paddedSize, shardSize, spec, entries }

/-- The external `zfec`: `Encoder(k, n).encode(blocks, indexes)` and `Decoder(k, n).decode(blocks,
indexes)`. -/
structure Zfec where
  encode : Nat → Nat → List Bytes → List Nat → List Bytes
  decode : Nat → Nat → List Bytes → List Nat → List Bytes

/-- The four characters of the literal `b"\\x00"` with which a payload is filled up. -/
def paddingText : Bytes := [0x5c, 0x78, 0x30, 0x30]

def primaryShardSize (payload : Bytes) (dataShards : Nat) : Nat :=
  if (payload.length + dataShards - 1) / dataShards = 0 then 1
    else (payload.length + dataShards - 1) / dataShards

def padPayload (payload : Bytes) (dataShards : Nat) : Bytes :=
  payload ++ (List.replicate
    (primaryShardSize payload dataShards * dataShards - payload.length) paddingText).flatten

def splitPrimaryBlocks (payload : Bytes) (dataShards : Nat) : List Bytes × Nat :=
  let shardSize := primaryShardSize payload dataShards
  let padded := padPayload payload dataShards
  ((List.range dataShards).map fun index => (padded.take ((index + 1) * shardSize)).drop
    (index * shardSize), shardSize)

def encodeShards (blake3 : Blake3) (packHash : Text) (shardSize : Nat) : List (Nat × Bytes) →
    Coded (List DataPackShard)
  | [] => .ok []
  | (shardIndex, data) :: rest => do
      ensure (decide (data.length = shardSize))
        (.coding "zfec devolvió un shard con tamaño inesperado")
      let shard ← dataPackShardFromPrehashed packHash shardIndex data (blake3HexDigest blake3 data)
      return shard :: (← encodeShards blake3 packHash shardSize rest)

/-- `ZfecErasureCodec.encode`. -/
def encode (blake3 : Blake3) (zfec : Zfec) (packHash : Text) (payload : Bytes)
    (spec : ErasureSpec) :
    Coded (List DataPackShard) := do
  let (primaryBlocks, shardSize) := splitPrimaryBlocks payload spec.dataShards
  let wanted := List.range spec.totalShards
  let raw := zfec.encode spec.dataShards spec.totalShards primaryBlocks wanted
  ensure (decide (raw.length = wanted.length))
    (.value "zip() argument 2 is shorter than argument 1")
  encodeShards blake3 packHash shardSize (wanted.zip raw)

def checkSelected (expectedPackHash : Text) (totalShards : Nat) (seen : List Nat) :
    List DataPackShard → Coded Unit
  | [] => .ok ()
  | shard :: rest => do
      ensure (decide (shard.packHash = expectedPackHash))
        (.coding "shard.pack_hash no coincide con el pack solicitado")
      ensure (decide (shard.shardIndex < totalShards)) (.coding "shard_index fuera de rango")
      ensure (decide (shard.shardIndex ∉ seen)) (.coding "shard_index duplicado")
      checkSelected expectedPackHash totalShards (shard.shardIndex :: seen) rest

/-- `ZfecErasureCodec.decode`. -/
def decode (blake3 : Blake3) (zfec : Zfec) (shards : List DataPackShard)
    (spec : ErasureSpec) (payloadSize : Nat) (expectedPackHash : Text) : Coded Bytes := do
  let selected := (sortedByIndex shards).take spec.dataShards
  ensure (decide (spec.dataShards ≤ selected.length))
    (.coding s!"se necesitan {spec.dataShards} shards para reconstruir el pack")
  checkSelected expectedPackHash spec.totalShards [] selected
  let primaryBlocks :=
    zfec.decode spec.dataShards spec.totalShards (selected.map (·.data))
      (selected.map (·.shardIndex))
  let payload := primaryBlocks.flatten.take payloadSize
  let calculated := blake3HexDigest blake3 payload
  ensure (decide (calculated = expectedPackHash)) (.coding
    s!"pack_hash no coincide tras reconstrucción: esperado={String.ofList expectedPackHash} calculado={String.ofList calculated}")
  return payload

/-- `_validated_chunk_payload`. -/
def validatedChunkPayload (blake3 : Blake3) (chunkHash : Text) (data : Bytes) :
    Coded (Text × Bytes) := do
  let chunkHash ← requireHash "chunk_hash" chunkHash
  let calculated := blake3HexDigest blake3 data
  ensure (decide (calculated = chunkHash)) (.coding
    s!"chunk_hash no coincide: esperado={String.ofList chunkHash} calculado={String.ofList calculated}")
  return (chunkHash, data)

def packEntries (offset ordinal : Nat) : List (Text × Bytes) → Coded (List DataPackEntry)
  | [] => .ok []
  | (chunkHash, data) :: rest => do
      let entry ← createDataPackEntry chunkHash offset data.length ordinal
      return entry :: (← packEntries (offset + data.length) (ordinal + 1) rest)

def packPayload (chunks : List (Text × Bytes)) : Bytes := (chunks.map Prod.snd).flatten

/-- `_build_data_pack_from_validated_chunks`. -/
def buildDataPackFromValidatedChunks (blake3 : Blake3) (zfec : Zfec) (chunks : List (Text × Bytes))
    (spec : ErasureSpec) :
    Coded EncodedDataPack := do
  ensure (!chunks.isEmpty) (.coding "no se puede construir un data pack vacío")
  let entries ← packEntries 0 0 chunks
  let payload := packPayload chunks
  let packHash := blake3HexDigest blake3 payload
  let shardSize := max ((payload.length + spec.dataShards - 1) / spec.dataShards) 1
  let shards ← encode blake3 zfec packHash payload spec
  createEncodedDataPack packHash payload.length
    (shardSize * spec.dataShards) shardSize spec entries shards

def buildDataPack (blake3 : Blake3) (zfec : Zfec) (chunks : List (Text × Bytes))
    (spec : ErasureSpec) :
    Coded EncodedDataPack := do
  let validated ← chunks.mapM fun chunk => validatedChunkPayload blake3 chunk.1 chunk.2
  buildDataPackFromValidatedChunks blake3 zfec validated spec

def reconstructPayload (blake3 : Blake3) (zfec : Zfec) (manifest : DataPackManifest)
    (shards : List DataPackShard) :
    Coded Bytes :=
  decode blake3 zfec shards manifest.spec manifest.payloadSize manifest.packHash

def extractEntries (blake3 : Blake3) (payload : Bytes) (wanted : Option (List Text))
    (chunks : Dict Text Bytes) :
    List DataPackEntry → Coded (Dict Text Bytes)
  | [] => .ok chunks
  | entry :: rest =>
      if (wanted.any fun hashes => !hashes.contains entry.chunkHash) then
        extractEntries blake3 payload wanted chunks rest
      else do
        let data := (payload.take (entry.offset + entry.length)).drop entry.offset
        let calculated := blake3HexDigest blake3 data
        ensure (decide (calculated = entry.chunkHash)) (.coding
          s!"chunk reconstruido no coincide: esperado={String.ofList entry.chunkHash} calculado={String.ofList calculated}")
        extractEntries blake3 payload wanted (chunks.set entry.chunkHash data) rest

/-- `extract_pack_chunks`; an empty set of wanted hashes asks for every chunk. -/
def extractPackChunks (blake3 : Blake3) (payload : Bytes) (manifest : DataPackManifest)
    (wantedHashes : List Text) :
    Coded (Dict Text Bytes) := do
  let wanted ← wantedHashes.mapM (requireHash "wanted_hash")
  extractEntries blake3 payload (if wantedHashes.isEmpty then none
    else some wanted) .empty manifest.entries

end Stopan.Erasure
