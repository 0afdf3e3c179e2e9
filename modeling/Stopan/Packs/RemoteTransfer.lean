import Stopan.Node.MetadataPackService
import Stopan.Packs.Discovery

/-!
The client side of the streams of a metadata pack (`stopan/metadata/packs/remote.py`): the requests
that upload a pack, and the download of a pack from one source into a file that appears only when it
is whole.
-/

namespace Stopan.Packs

open Stopan.Lib Stopan.Common Stopan.Node

/-- `_store_metadata_pack_requests`. -/
def storeMetadataPackRequests (chunkBytes : Nat) (header : StoreMetadataPackHeader) (data : Bytes) :
    List (Part StoreMetadataPackHeader UInt8) :=
  .header header :: blockParts (blocksOf chunkBytes data)

inductive RetrieveError where
  | remote (message : String)
  | hashValue (message : String)
  | fileSystem (message : String)
  deriving DecidableEq, Repr

/-- What the file system does during one download, and the name of its temporary file. -/
structure DownloadConditions where
  partialName : Text
  createError : Option String
  writeError : Nat → Option String
  syncError : Option String
  publishError : Option String
  unlinkFails : Bool

structure RetrieveCall where
  source : MetadataPackSource
  ownerId : Text
  destination : Text
  maxPackBytes : Int

namespace RetrieveCall

variable (blake3 : Blake3) (verifier : PackVerifier) (call : RetrieveCall)

def hashText : String := String.ofList call.source.packHash

/-- `metadata_pack_target_label`. -/
def label : String :=
  let node := if call.source.nodeId.isEmpty then "desconocido"
    else String.ofList (call.source.nodeId.take 8)
  s!"{node}@{String.ofList call.source.address}"

/-- The signature of the header, each half replaced by that of the source where it is missing. -/
def signatureOf (header : RetrieveMetadataPackHeader) : PackSignature where
  publicKeyB64 :=
    if header.signature.publicKeyB64.isEmpty then call.source.signature.publicKeyB64
      else header.signature.publicKeyB64
  signatureB64 :=
    if header.signature.signatureB64.isEmpty then call.source.signature.signatureB64
      else header.signature.signatureB64

def retrieveStatusNumber : MetadataPackRetrieveStatus → Int
  | .unspecified => 0
  | .found => 1
  | .notFound => 2
  | .error => 3
  | .unrecognized number => number

/-- The checks of the header, which give the announced size. -/
def checkRetrieved (header : RetrieveMetadataPackHeader) : Except RetrieveError Nat :=
  if header.status ≠ .found then
    .error (.remote (s!"retrieve {call.hashText} desde {call.label} falló: " ++
      s!"status={retrieveStatusNumber header.status} detail={header.detail}"))
  else
    match validatePackHash header.packHash with
    | .error reason => .error (.hashValue reason.text)
    | .ok receivedHash =>
        let declared := header.sizeBytes.toNat
        if header.ownerId ≠ call.ownerId then
          .error (.remote (s!"owner_id descargado no coincide desde {call.label}: " ++
            s!"esperado={String.ofList call.ownerId} recibido={String.ofList header.ownerId}"))
        else if receivedHash ≠ call.source.packHash then
          .error (.remote (s!"pack_hash anunciado no coincide desde {call.label}: " ++
            s!"esperado={call.hashText} recibido={String.ofList receivedHash}"))
        else if header.sizeBytes ≤ 0 then
          .error (.remote
            s!"metadata pack {call.hashText} anunció un tamaño inválido: {header.sizeBytes}")
        else if call.maxPackBytes < header.sizeBytes then
          .error (.remote
            s!"metadata pack {call.hashText} supera el límite local: {header.sizeBytes} > {call.maxPackBytes}")
        else if 0 < call.source.sizeBytes ∧ declared ≠ call.source.sizeBytes then
          .error (.remote (s!"tamaño anunciado no coincide desde {call.label}: " ++
            s!"esperado={call.source.sizeBytes} recibido={header.sizeBytes}"))
        else if !verifier.verifies { ownerId := call.ownerId, packHash := call.source.packHash }
          (call.signatureOf header) then
          .error (.remote s!"firma de metadata pack inválida desde {call.label}: {call.hashText}")
        else .ok declared

/-- The checks of the received file, which then takes the place of the destination. -/
def publishDownload (conditions : DownloadConditions) (files : Dict Text Bytes)
    (declared : Nat) (content : Bytes) :
    Dict Text Bytes × Except RetrieveError Unit :=
  if content.length ≠ declared then
    (files, .error (.remote
      s!"metadata pack {call.hashText} incompleto: esperado={declared} recibido={content.length}"))
  else if blake3HexDigest blake3 content ≠ call.source.packHash then
    (files, .error
      (.remote (mismatch s!"pack_hash descargado no coincide desde {call.label}"
        call.source.packHash
      (blake3HexDigest blake3 content))))
  else
    match conditions.publishError with
    | some reason => (files, .error (.remote
        s!"No se pudo publicar el metadata pack recuperado {String.ofList call.destination}: {reason}"))
    | none => ((files.erase conditions.partialName).set call.destination content, .ok ())

/-- From the creation of the temporary file on. -/
def receiveDownload (conditions : DownloadConditions) (files : Dict Text Bytes) (declared : Nat)
    (parts : List (Part RetrieveMetadataPackHeader UInt8)) (failure : Option String) :
    Dict Text Bytes × Except RetrieveError Unit :=
  match conditions.createError with
  | some reason => (files, .error (.remote
      s!"No se pudo crear el temporal de recuperación {String.ofList conditions.partialName}: {reason}"))
  | none =>
      let (content, ended) := gather declared conditions.writeError failure [] parts
      let received := files.set conditions.partialName content
      match ended with
      | some (.unexpected _) =>
          (received, .error (.remote s!"retrieve {call.hashText} recibió una parte inesperada"))
      | some (.exceeded count) => (received, .error (.remote
          s!"metadata pack {call.hashText} excede el tamaño anunciado: {count} > {declared}"))
      | some (.write reason) => (received, .error (.fileSystem reason))
      | some (.broken detail) => (received, .error (.remote s!"{call.label}: {detail}"))
      | none =>
          match conditions.syncError with
          | some reason => (received, .error (.fileSystem reason))
          | none => call.publishDownload blake3 conditions received declared content

/-- The `finally` clause. -/
def removePartial (conditions : DownloadConditions)
    (ended : Dict Text Bytes × Except RetrieveError Unit) :
    Dict Text Bytes × Except RetrieveError Unit :=
  match ended.2 with
  | .ok _ => ended
  | .error reason =>
      (if conditions.unlinkFails then ended.1 else ended.1.erase conditions.partialName,
        .error reason)

/-- What happens up to the `finally` clause. -/
def download (conditions : DownloadConditions) (files : Dict Text Bytes)
    (responses : PartStream RetrieveMetadataPackHeader UInt8) :
    Dict Text Bytes × Except RetrieveError Unit :=
  match responses.parts with
  | [] =>
      match responses.failure with
      | some detail => (files, .error (.remote s!"{call.label}: {detail}"))
      | none => (files,
        .error (.remote s!"retrieve {call.hashText} desde {call.label} no devolvió cabecera"))
  | .block _ :: _ | .unset :: _ =>
      (files, .error (.remote s!"retrieve {call.hashText} desde {call.label} comenzó sin cabecera"))
  | .header header :: parts =>
      match call.checkRetrieved verifier header with
      | .error reason => (files, .error reason)
      | .ok declared =>
          call.receiveDownload blake3 conditions files declared parts responses.failure

/-- `retrieve_metadata_pack_from_source`. -/
def retrieveMetadataPackFromSource (conditions : DownloadConditions) (files : Dict Text Bytes)
    (responses : PartStream RetrieveMetadataPackHeader UInt8) :
    Dict Text Bytes × Except RetrieveError Unit :=
  removePartial conditions (call.download blake3 verifier conditions files responses)

end RetrieveCall

end Stopan.Packs
