import Stopan.Lib.Streaming
import Stopan.Packs.DistributedStore

/-!
The gRPC service for distributed metadata packs (`stopan/node/services/metadata_pack_rpc.py`): a
pack is received block by block into a temporary file, checked and handed to the store, and a stored
pack is sent block by block.
-/

namespace Stopan.Node

open Stopan.Lib Stopan.Common Stopan.Packs

structure StoreMetadataPackHeader where
  clusterToken : Text
  ownerId : Text
  packHash : Text
  sizeBytes : Int
  signature : PackSignature
  deriving DecidableEq, Repr

inductive MetadataPackStoreStatus where
  | stored
  | alreadyPresent
  | rejectedHashMismatch
  | rejectedTooLarge
  | error
  | rejectedSignature
  | rejectedQuota
  | rejectedInvalidArgument
  deriving DecidableEq, Repr

def noSignature : PackSignature where
  publicKeyB64 := []
  signatureB64 := []

/-- `storedAt` is the modification time of the file in nanoseconds, or zero. -/
structure StoreMetadataPackResponse where
  status : MetadataPackStoreStatus
  detail : String
  ownerId : Text := []
  packHash : Text := []
  sizeBytes : Nat := 0
  storedAt : Int := 0
  signature : PackSignature := noSignature
  deriving DecidableEq, Repr

structure RetrieveMetadataPackRequest where
  clusterToken : Text
  ownerId : Text
  packHash : Text
  deriving DecidableEq, Repr

inductive MetadataPackRetrieveStatus where
  | unspecified
  | found
  | notFound
  | error
  | unrecognized (number : Int)
  deriving DecidableEq, Repr

structure RetrieveMetadataPackHeader where
  status : MetadataPackRetrieveStatus
  detail : String
  ownerId : Text := []
  packHash : Text := []
  sizeBytes : Int := 0
  storedAt : Int := 0
  signature : PackSignature := noSignature
  deriving DecidableEq, Repr

inductive StatusCode where
  | unauthenticated
  | permissionDenied
  | unavailable
  | internal
  deriving DecidableEq, Repr

/-- How a call ends: with a response and perhaps a status, or aborted. -/
inductive CallEnd (ρ : Type) where
  | replied (response : ρ) (status : Option (StatusCode × String))
  | aborted (code : StatusCode) (detail : String)
  deriving DecidableEq, Repr

def defaultChunkBytes : Nat := 1024 * 1024

def messageOverheadBytes : Nat := 1024

def metadataPackStreamChunkBytes (maxMessageBytes : Int) : Nat :=
  let limit := max 1 maxMessageBytes.toNat
  if limit ≤ 2 * messageOverheadBytes then max 1 (limit / 2)
    else min defaultChunkBytes (limit - messageOverheadBytes)

theorem metadataPackStreamChunkBytes_pos (maxMessageBytes : Int) :
    0 < metadataPackStreamChunkBytes maxMessageBytes := by
  rw [metadataPackStreamChunkBytes, defaultChunkBytes, messageOverheadBytes]
  by_cases small : max 1 maxMessageBytes.toNat ≤ 2 * 1024
  · rw [if_pos small]
    omega
  · rw [if_neg small]
    omega

structure MetadataPackService where
  blake3 : Blake3
  verifier : PackVerifier
  config : PackStoreConfig
  clusterToken : Text
  maxMessageBytes : Int
  draining : Bool

/-- The pack store of the node and its directory of temporary files. -/
structure PackServiceFiles where
  store : PackStore
  incoming : Dict Text Bytes

/-- What the file system does during one `StoreMetadataPack`; writes are told apart by the offset
they start at. -/
structure StoreConditions where
  incomingName : Text
  createError : Option String
  writeError : Nat → Option String
  syncError : Option String
  unlinkFails : Bool
  put : PutEnvironment

namespace MetadataPackService

variable (service : MetadataPackService)

def checkToken (received : Text) : Option (StatusCode × String) :=
  if (strip service.clusterToken).isEmpty then
    some (.unauthenticated, "cluster_token no configurado")
  else if received ≠ service.clusterToken then some (.permissionDenied, "cluster_token inválido")
  else none

def drainRejection : String := "el nodo está en drenaje y no admite trabajo nuevo"

/-- What `read_signature_record` makes of the sidecar of a pack. -/
def getSignatureRecord (store : PackStore) (key : PackKey) : PackSignature :=
  match store.signatures.get? key with
  | none => noSignature
  | some signature =>
      if signature.publicKeyB64.isEmpty || signature.signatureB64.isEmpty ||
        !service.verifier.verifies key signature then
        noSignature
      else signature

/-- How the body of `StoreMetadataPack` ends: with a response, with an error of the store or with
another exception. -/
inductive BodyEnd where
  | answered (response : StoreMetadataPackResponse)
  | raised (reason : PackStoreError)
  | failed (detail : String)

/-- The `except` clauses. An identity error is no `ValueError`, and an error of the file system none
of the store. -/
def BodyEnd.call : BodyEnd → CallEnd StoreMetadataPackResponse
  | .answered reply => .replied reply none
  | .raised (.hashValue message) =>
      .replied { status := .rejectedInvalidArgument, detail := message } none
  | .raised (.signature message) =>
      .replied { status := .rejectedSignature, detail := message } none
  | .raised (.quota message) => .replied { status := .rejectedQuota, detail := message } none
  | .raised (.corruption message) =>
      .replied { status := .rejectedHashMismatch, detail := message } none
  | .raised (.store message) => .replied { status := .error, detail := message } none
  | .raised (.identity message) | .raised (.storageOS message) | .failed message =>
      .replied { status := .error, detail := message } (some (.internal, message))

/-- The checks of the header: the pack that it announces, with its size. -/
def checkHeader (header : StoreMetadataPackHeader) : Except BodyEnd (PackKey × Nat) :=
  match validateOwnerId header.ownerId with
  | .error reason => .error (.raised reason)
  | .ok ownerId =>
      match validatePackHash header.packHash with
      | .error reason => .error (.raised reason)
      | .ok packHash =>
          let size := header.sizeBytes.toNat
          if header.sizeBytes ≤ 0 then
            .error (.answered {
              status := .rejectedInvalidArgument, detail := "metadata pack vacío rechazado",
                ownerId, packHash })
          else if service.config.maxPackBytes < size then
            .error (.answered {
              status := .rejectedTooLarge
              detail :=
                s!"metadata pack demasiado grande: {size} bytes > {service.config.maxPackBytes}"
              ownerId, packHash, sizeBytes := size })
          else if header.signature.publicKeyB64.isEmpty ||
            header.signature.signatureB64.isEmpty then
            .error (.answered {
              status := .rejectedSignature, detail :=
                "public_key_b64 y signature_b64 son obligatorios"
              ownerId, packHash, sizeBytes := size })
          else if !service.verifier.verifies { ownerId, packHash } header.signature then
            .error (.answered {
              status := .rejectedSignature, detail := "firma de metadata pack inválida"
              ownerId, packHash, sizeBytes := size })
          else .ok ({ ownerId, packHash }, size)

/-- The response to a pack that the store has taken. -/
def storedResponse (store : PackStore) (signature : PackSignature) (result : StorePackResult) :
    StoreMetadataPackResponse where
  status := if result.alreadyPresent then .alreadyPresent else .stored
  detail :=
    if result.alreadyPresent then "ya presente"
    else if result.prunedPacks = 0 then "guardado"
    else s!"guardado, pruned_packs={result.prunedPacks} pruned_bytes={result.prunedBytes}"
  ownerId := result.key.ownerId
  packHash := result.key.packHash
  sizeBytes := result.sizeBytes
  storedAt := ((store.files.get? result.key).map PackFile.storedAt).getD 0
  signature := if result.alreadyPresent then service.getSignatureRecord store result.key
    else signature

/-- The checks of the received file, which then goes to the store. -/
def publishIncoming (conditions : StoreConditions) (store : PackStore) (key : PackKey) (size : Nat)
    (signature : PackSignature) (content : Bytes) : PackStore × BodyEnd :=
  if content.length ≠ size then
    (store, .answered {
      status := .rejectedInvalidArgument
      detail :=
        s!"el tamaño recibido no coincide con el anunciado: recibido={content.length} anunciado={size}"
      ownerId := key.ownerId, packHash := key.packHash, sizeBytes := content.length })
  else if blake3HexDigest service.blake3 content ≠ key.packHash then
    (store, .answered {
      status := .rejectedHashMismatch
      detail :=
        mismatch "pack_hash no coincide" key.packHash (blake3HexDigest service.blake3 content)
      ownerId := key.ownerId, packHash := key.packHash, sizeBytes := content.length })
  else
    match putPack service.blake3 service.verifier service.config store
        (.file key.ownerId (String.ofList conditions.incomingName) (.regular content)
          (some key.packHash) (some size) signature)
        conditions.put with
    | (after, .error reason) => (after, .raised reason)
    | (after, .ok result) => (after, .answered (service.storedResponse after signature result))

/-- From the creation of the temporary file on. -/
def receivePack (conditions : StoreConditions) (files : PackServiceFiles) (key : PackKey)
    (size : Nat) (signature : PackSignature) (parts : List (Part StoreMetadataPackHeader UInt8))
    (failure : Option String) : PackServiceFiles × BodyEnd :=
  let incomingName := String.ofList conditions.incomingName
  let packHash := String.ofList key.packHash
  match conditions.createError with
  | some reason =>
      (files, .raised (.store s!"No se pudo crear el temporal {incomingName}: {reason}"))
  | none =>
      let (content, ended) :=
        gather (min size service.config.maxPackBytes) conditions.writeError failure [] parts
      let received := { files with incoming := files.incoming.set conditions.incomingName content }
      match ended with
      | some (.unexpected count) => (received, .answered {
          status := .rejectedInvalidArgument, detail :=
            "el flujo contiene una cabecera o parte inesperada"
          ownerId := key.ownerId, packHash := key.packHash, sizeBytes := count })
      | some (.exceeded count) => (received, .answered {
          status := .rejectedTooLarge
          detail := "el flujo excede el tamaño anunciado o permitido: " ++
            s!"recibido={count} anunciado={size} máximo={service.config.maxPackBytes}"
          ownerId := key.ownerId, packHash := key.packHash, sizeBytes := count })
      | some (.write reason) =>
          (received, .raised (.store s!"No se pudo recibir el metadata pack {packHash}: {reason}"))
      | some (.broken detail) => (received, .failed detail)
      | none =>
          match conditions.syncError with
          | some reason =>
              (received, .raised
                (.store s!"No se pudo recibir el metadata pack {packHash}: {reason}"))
          | none =>
              let (store, ended) :=
                service.publishIncoming conditions files.store key size signature content
              ({ received with store }, ended)

/-- The `finally` clause. -/
def removeIncoming (conditions : StoreConditions) (files : PackServiceFiles) : PackServiceFiles :=
  if conditions.unlinkFails then files
    else { files with incoming := files.incoming.erase conditions.incomingName }

/-- `StoreMetadataPack`. -/
def storeMetadataPack (conditions : StoreConditions) (files : PackServiceFiles)
    (requests : PartStream StoreMetadataPackHeader UInt8) :
    PackServiceFiles × CallEnd StoreMetadataPackResponse :=
  match requests.parts with
  | [] =>
      match requests.failure with
      | some detail => (files, (BodyEnd.failed detail).call)
      | none => (files, .replied { status := .rejectedInvalidArgument,
                                   detail := "flujo de metadata pack vacío" } none)
  | .block _ :: _ | .unset :: _ =>
      (files, .replied { status := .rejectedInvalidArgument,
                         detail := "la primera parte del flujo debe ser la cabecera" } none)
  | .header header :: parts =>
      match service.checkToken header.clusterToken with
      | some status =>
          (files, .replied { status := .error, detail := "cluster_token inválido" } (some status))
      | none =>
          if service.draining then (files, .aborted .unavailable drainRejection)
          else
            match service.checkHeader header with
            | .error ended => (files, ended.call)
            | .ok (key, size) =>
                let (received, ended) :=
                  service.receivePack conditions files key size header.signature
                    parts requests.failure
                (removeIncoming conditions received, ended.call)

/-- What ends the sending of blocks early. -/
inductive Interruption where
  | inactive
  | unreadable (reason : String)

/-- What happens during one `RetrieveMetadataPack`: the error of reading the pack for its hash, and
the number of blocks after which sending is interrupted. -/
structure RetrieveConditions where
  hashError : Option String
  interruption : Option (Nat × Interruption)

abbrev RetrieveParts := List (Part RetrieveMetadataPackHeader UInt8)

def sentBlocks (conditions : RetrieveConditions) (blocks : List Bytes) : RetrieveParts :=
  match conditions.interruption with
  | none => blockParts blocks
  | some (count, .inactive) => blockParts (blocks.take count)
  | some (count, .unreadable reason) =>
      blockParts (blocks.take count) ++ [.header { status := .notFound, detail := reason }]

/-- The pack of a request that has been admitted. -/
def sendPack (conditions : RetrieveConditions) (store : PackStore)
    (key : PackKey) : RetrieveParts :=
  match store.files.get? key with
  | none => [.header {
      status := .notFound, detail := "metadata pack no encontrado", ownerId :=
        key.ownerId, packHash := key.packHash }]
  | some file =>
      let signature := service.getSignatureRecord store key
      if signature.publicKeyB64.isEmpty || signature.signatureB64.isEmpty then
        [.header {
          status := .error, detail := "metadata pack sin sidecar de firma válido"
          ownerId := key.ownerId, packHash := key.packHash }]
      else
        match conditions.hashError with
        | some reason => [.header { status := .notFound, detail := reason }]
        | none =>
            if blake3HexDigest service.blake3 file.data ≠ key.packHash then
              [.header {
                status := .error
                detail := mismatch "hash de metadata pack no coincide" key.packHash
                  (blake3HexDigest service.blake3 file.data)
                ownerId := key.ownerId, packHash := key.packHash }]
            else
              .header {
                status := .found, detail := "ok", ownerId := key.ownerId, packHash := key.packHash
                sizeBytes := file.data.length, storedAt := file.storedAt, signature } ::
                sentBlocks conditions
                  (blocksOf (metadataPackStreamChunkBytes service.maxMessageBytes) file.data)

/-- `RetrieveMetadataPack`. -/
def retrieveMetadataPack (conditions : RetrieveConditions) (store : PackStore)
    (request : RetrieveMetadataPackRequest) :
    CallEnd RetrieveParts :=
  match service.checkToken request.clusterToken with
  | some status =>
      .replied [.header { status := .error, detail := "cluster_token inválido" }] (some status)
  | none =>
      if service.draining then .aborted .unavailable drainRejection
      else
        match validateOwnerId request.ownerId with
        | .error reason => .aborted .internal reason.text
        | .ok ownerId =>
            match validatePackHash request.packHash with
            | .error reason => .replied [.header { status := .error, detail := reason.text }] none
            | .ok packHash =>
                .replied (service.sendPack conditions store { ownerId, packHash }) none

end MetadataPackService

end Stopan.Node
