import Stopan.Packs.RemoteTransfer
import Stopan.Packs.StreamedStore

namespace Stopan.Packs

open Stopan.Lib Stopan.Common Stopan.Node

section Downloads

variable {blake3 : Blake3} {verifier : PackVerifier} {call : RetrieveCall}
  {conditions : DownloadConditions}
variable {files after : Dict Text Bytes} {responses : PartStream RetrieveMetadataPackHeader UInt8}

/-- The files of a download on its way: only the temporary file may differ, until the whole pack
takes its place. -/
inductive Downloaded (blake3 : Blake3) (call : RetrieveCall) (conditions : DownloadConditions)
    (files : Dict Text Bytes) :
    Dict Text Bytes × Except RetrieveError Unit → Prop where
  | failed {reason : RetrieveError} : Downloaded blake3 call conditions files (files, .error reason)
  | partly {content : Bytes} {reason : RetrieveError} :
      Downloaded blake3 call conditions files
        (files.set conditions.partialName content, .error reason)
  | published {content : Bytes} (hash : blake3HexDigest blake3 content = call.source.packHash) :
      Downloaded blake3 call conditions files
        (((files.set conditions.partialName content).erase conditions.partialName).set
          call.destination content, .ok ())

theorem downloaded_download : Downloaded blake3 call conditions files
    (call.download blake3 verifier conditions files responses) := by
  rw [RetrieveCall.download]
  split
  · split
    · exact .failed
    · exact .failed
  · exact .failed
  · exact .failed
  · split
    · exact .failed
    · rename_i declared checked
      rw [RetrieveCall.receiveDownload]
      split
      · exact .failed
      · dsimp only
        split
        · exact .partly
        · exact .partly
        · exact .partly
        · exact .partly
        · split
          · exact .partly
          · rw [RetrieveCall.publishDownload]
            split
            · exact .partly
            · split
              · exact .partly
              · split
                · exact .partly
                · exact .published (not_not.mp ‹_›)

/-- A download changes no other file, and its destination only to a file with the requested hash. -/
theorem retrieve_publishes (name : Text) (other : name ≠ conditions.partialName) :
    (call.retrieveMetadataPackFromSource blake3 verifier conditions files responses).1.get? name =
      files.get? name ∨
      name = call.destination ∧
        (call.retrieveMetadataPackFromSource blake3 verifier conditions files responses).2 =
          .ok () ∧
        ∃ content, (call.retrieveMetadataPackFromSource blake3 verifier conditions files
          responses).1.get? name = some content ∧
          blake3HexDigest blake3 content = call.source.packHash := by
  have downloaded := @downloaded_download blake3 verifier call conditions files responses
  rw [RetrieveCall.retrieveMetadataPackFromSource]
  generalize call.download blake3 verifier conditions files responses = ended at downloaded ⊢
  have erased : ∀ dict : Dict Text Bytes, (dict.erase conditions.partialName).get? name =
      dict.get? name := fun dict =>
    (Dict.get?_erase ..).trans (if_neg other)
  have written : ∀ content, (files.set conditions.partialName content).get? name =
      files.get? name := fun content =>
    Dict.get?_set_of_ne _ _ other
  cases downloaded with
  | failed =>
      left
      rw [RetrieveCall.removePartial]
      dsimp only
      split
      · rfl
      · exact erased files
  | @partly content reason =>
      left
      rw [RetrieveCall.removePartial]
      dsimp only
      split
      · exact written content
      · exact (erased _).trans (written content)
  | @published content hash =>
      by_cases same : name = call.destination
      · refine .inr ⟨same, rfl, content, ?_, hash⟩
        rw [same]
        exact Dict.get?_set_self ..
      · left
        exact (Dict.get?_set_of_ne _ _ same).trans ((erased _).trans (written content))

/-- No download leaves its temporary file behind. -/
theorem retrieve_partial (unlinks : conditions.unlinkFails = false)
    (apart : conditions.partialName ≠ call.destination) :
    (call.retrieveMetadataPackFromSource blake3 verifier conditions files responses).1.get?
      conditions.partialName = none := by
  have downloaded := @downloaded_download blake3 verifier call conditions files responses
  rw [RetrieveCall.retrieveMetadataPackFromSource]
  generalize call.download blake3 verifier conditions files responses = ended at downloaded ⊢
  have erased : ∀ dict : Dict Text Bytes,
      (dict.erase conditions.partialName).get? conditions.partialName = none := fun dict =>
    (Dict.get?_erase ..).trans (if_pos rfl)
  cases downloaded with
  | failed =>
      rw [RetrieveCall.removePartial, unlinks]
      exact erased _
  | partly =>
      rw [RetrieveCall.removePartial, unlinks]
      exact erased _
  | published => exact (Dict.get?_set_of_ne _ _ apart).trans (erased _)

/-- The file system does what it is asked to. -/
structure CleanDownload (conditions : DownloadConditions) : Prop where
  create : conditions.createError = none
  writes : ∀ offset, conditions.writeError offset = none
  sync : conditions.syncError = none
  publish : conditions.publishError = none

/-- A header that a download accepts for a pack. -/
structure Fetchable (verifier : PackVerifier) (call : RetrieveCall)
    (header : RetrieveMetadataPackHeader) (data : Bytes) :
    Prop where
  found : header.status = .found
  owner : header.ownerId = call.ownerId
  named : header.packHash = call.source.packHash
  valid : isValidBlake3Hex call.source.packHash = true
  sized : header.sizeBytes = data.length
  nonempty : 0 < data.length
  fits : (data.length : Int) ≤ call.maxPackBytes
  expected : call.source.sizeBytes = 0 ∨ call.source.sizeBytes = data.length
  signed : checkSignature verifier { ownerId := call.ownerId,
                                     packHash := call.source.packHash } header.signature = .ok ()

/-- A whole pack from a source appears at its destination. -/
theorem retrieve_whole {header : RetrieveMetadataPackHeader} {data : Bytes} {blocks : List Bytes}
    (clean : CleanDownload conditions) (fetchable : Fetchable verifier call header data)
    (hash : blake3HexDigest blake3 data = call.source.packHash) (all : blocks.flatten = data) :
    let ended := call.retrieveMetadataPackFromSource blake3 verifier conditions files
      ⟨.header header :: blockParts blocks, none⟩
    ended.2 = .ok () ∧ ended.1.get? call.destination = some data := by
  have checked : call.checkRetrieved verifier header = .ok data.length := by
    obtain ⟨present, valid⟩ := checkSignature_eq_ok_iff.mp fetchable.signed
    have own : call.signatureOf header = header.signature := by
      obtain ⟨publicKey, signature⟩ := Bool.or_eq_false_iff.mp present
      rw [RetrieveCall.signatureOf, publicKey, signature]
      rfl
    have named : validatePackHash header.packHash = .ok call.source.packHash := by
      rw [fetchable.named, validatePackHash_of_valid fetchable.valid]
    have positive : ¬ ((data.length : Int) ≤ 0) := by
      have := fetchable.nonempty
      omega
    have small : ¬ (call.maxPackBytes < (data.length : Int)) := not_lt.mpr fetchable.fits
    have expected : ¬ (0 < call.source.sizeBytes ∧ data.length ≠ call.source.sizeBytes) := by
      have := fetchable.expected
      omega
    rw [RetrieveCall.checkRetrieved, named]
    simp only [fetchable.found, fetchable.owner, fetchable.sized, Int.toNat_natCast, own, valid,
      ne_eq, not_true_eq_false, if_false,
      if_neg positive, if_neg small, if_neg expected, Bool.not_true, Bool.false_eq_true]
  have gathered := @gather_blocks RetrieveMetadataPackHeader UInt8 data.length conditions.writeError
    [] clean.writes blocks
    (by rw [List.nil_append, all])
  rw [List.nil_append, all] at gathered
  have downloaded : call.download blake3 verifier conditions files
      ⟨.header header :: blockParts blocks, none⟩ =
      (((files.set conditions.partialName data).erase conditions.partialName).set
        call.destination data, .ok ()) := by
    rw [RetrieveCall.download]
    simp only [checked, RetrieveCall.receiveDownload, clean.create, gathered, clean.sync,
      RetrieveCall.publishDownload, ne_eq, not_true_eq_false, if_false, hash, clean.publish]
  dsimp only
  rw [RetrieveCall.retrieveMetadataPackFromSource, downloaded]
  exact ⟨rfl, Dict.get?_set_self ..⟩

end Downloads

section RoundTrip

variable {service : MetadataPackService} {conditions : StoreConditions} {files : PackServiceFiles}
  {offered : OfferedPack}
variable {requests : PartStream StoreMetadataPackHeader UInt8} {header : StoreMetadataPackHeader}

theorem intact_of_run {blake3 : Blake3} {verifier : PackVerifier} {config : PackStoreConfig}
    {events : List StoreEvent} {store : PackStore}
    (ran : runEvents (storeStep blake3 verifier config) .empty events = some store) :
    Intact blake3 store := by
  refine runEvents_preserves (Intact blake3)
    (fun _ _ _ holds stepped => storeStep_intact holds stepped) ?_ ran
  intro key file found
  cases found

/-- A pack that a node accepts from a client that cuts it into blocks. -/
structure Uploadable (service : MetadataPackService) (header : StoreMetadataPackHeader)
    (offered : OfferedPack) : Prop where
  token : service.checkToken header.clusterToken = none
  admitted : service.draining = false
  owner : header.ownerId = offered.key.ownerId
  ownerValid : isValidBlake3Hex offered.key.ownerId = true
  named : header.packHash = offered.key.packHash
  sized : header.sizeBytes = offered.data.length
  signature : header.signature = offered.signature
  hash : blake3HexDigest service.blake3 offered.data = offered.key.packHash
  signed : checkSignature service.verifier offered.key offered.signature = .ok ()
  nonempty : 0 < offered.data.length
  fits : offered.data.length ≤ service.config.maxPackBytes

theorem Uploadable.packHashValid (uploadable : Uploadable service header offered) :
    isValidBlake3Hex offered.key.packHash = true :=
  uploadable.hash ▸ blake3HexDigest_valid service.blake3 offered.data

theorem Uploadable.whole (uploadable : Uploadable service header offered) {chunkBytes : Nat}
    (positive : 0 < chunkBytes) :
    WholeAndAuthentic service ⟨storeMetadataPackRequests chunkBytes header offered.data,
      none⟩ offered where
  unbroken := rfl
  parts := by
    refine ⟨header, blocksOf chunkBytes offered.data, rfl, flatten_blocksOf positive,
      uploadable.token, ?_, ?_, uploadable.sized, uploadable.signature⟩
    · rw [uploadable.owner, validateOwnerId_of_valid uploadable.ownerValid]
    · rw [uploadable.named, validatePackHash_of_valid uploadable.packHashValid]
  admitted := uploadable.admitted
  hash := uploadable.hash
  signed := uploadable.signed
  nonempty := uploadable.nonempty
  fits := uploadable.fits

/-- What the service sends of a pack that it has taken. -/
theorem retrieveMetadataPack_taken {before after : PackStore} {result : StorePackResult}
    {request : RetrieveMetadataPackRequest} {quiet : MetadataPackService.RetrieveConditions}
    (taken : Taken service.blake3 before after offered result)
    (uploadable : Uploadable service header offered)
    (token : service.checkToken request.clusterToken = none)
    (owner : request.ownerId = offered.key.ownerId)
    (named : request.packHash = offered.key.packHash)
    (readable : quiet.hashError = none) (uninterrupted : quiet.interruption = none) :
    ∃ file blocks, after.files.get? offered.key = some file ∧ blocks.flatten = file.data ∧
      service.retrieveMetadataPack quiet after request = .replied (.header {
        status := .found, detail := "ok", ownerId := offered.key.ownerId, packHash :=
          offered.key.packHash
        sizeBytes := file.data.length, storedAt := file.storedAt, signature :=
          offered.signature } :: blockParts blocks) none := by
  obtain ⟨file, stored, hash, -, -⟩ := taken.file
  obtain ⟨present, valid⟩ := checkSignature_eq_ok_iff.mp uploadable.signed
  have sidecar : service.getSignatureRecord after offered.key = offered.signature := by
    rw [MetadataPackService.getSignatureRecord, taken.signature]
    simp only [present, valid, Bool.not_true, Bool.or_false, Bool.false_eq_true, if_false]
  refine ⟨file, blocksOf (metadataPackStreamChunkBytes service.maxMessageBytes) file.data, stored,
    flatten_blocksOf (metadataPackStreamChunkBytes_pos _), ?_⟩
  rw [MetadataPackService.retrieveMetadataPack, token, owner, named,
    validateOwnerId_of_valid uploadable.ownerValid,
    validatePackHash_of_valid uploadable.packHashValid]
  simp only [uploadable.admitted, Bool.false_eq_true, if_false, MetadataPackService.sendPack,
    stored, sidecar, present, readable, hash,
    ne_eq, not_true_eq_false, MetadataPackService.sentBlocks, uninterrupted]

/-- Neither the pack nor the file that is already stored under its key collides with the other. -/
def NoCollision (blake3 : Blake3) (store : PackStore) (offered : OfferedPack) : Prop :=
  CollisionFree blake3 fun data => data = offered.data ∨
    ∃ file, store.files.get? offered.key = some file ∧ file.data = data

theorem Taken.data {blake3 : Blake3} {before after : PackStore}
    {result : StorePackResult} {file : PackFile}
    (taken : Taken blake3 before after offered result) (apart : NoCollision blake3 before offered)
    (hash : blake3HexDigest blake3 offered.data = offered.key.packHash)
    (stored : after.files.get? offered.key = some file) :
    file.data = offered.data := by
  obtain ⟨found, present, sameHash, fresh, kept⟩ := taken.file
  cases stored.symm.trans present
  cases existing : before.files.get? offered.key with
  | none => exact fresh existing
  | some old =>
      have same := kept old existing
      refine apart file.data offered.data (.inr ⟨old, existing, by rw [same]⟩) (.inl rfl)
        (sameHash.trans hash.symm)

end RoundTrip

/-- Streamed packs are published only when whole and authentic. For the service: after any run of
the store and as long as the file system does its work, a stream is answered as stored exactly if it
is whole and authentic, the pack is then there with its signature, and any other stream leaves the
store as it was; no stream leaves a temporary file. For the client: a download changes its
destination only to a file with the requested hash and leaves no temporary file. And a pack that is
stored in blocks of any size comes back in blocks of any size with the same bytes. -/
theorem streamedPacks_wholeAndAuthentic (service : MetadataPackService) :
    (∀ events conditions files requests,
      runEvents (storeStep service.blake3 service.verifier service.config) .empty events =
        some files.store → Clean conditions →
      (Published (service.storeMetadataPack conditions files requests).2 = true ↔
        ∃ offered, WholeAndAuthentic service requests offered) ∧
      (∀ offered, WholeAndAuthentic service requests offered → ∃ file,
        (service.storeMetadataPack conditions files requests).1.store.files.get? offered.key =
          some file ∧
        (NoCollision service.blake3 files.store offered → file.data = offered.data) ∧
        (service.storeMetadataPack conditions files requests).1.store.signatures.get? offered.key =
          some offered.signature) ∧
      (Published (service.storeMetadataPack conditions files requests).2 = false →
        (service.storeMetadataPack conditions files requests).1.store = files.store)) ∧
    (∀ conditions files requests, conditions.unlinkFails = false → ∀ name,
      (service.storeMetadataPack conditions files requests).1.incoming.get? name =
        files.incoming.get? name ∨
        name = conditions.incomingName ∧
          (service.storeMetadataPack conditions files requests).1.incoming.get? name = none) ∧
    (∀ (call : RetrieveCall) (conditions : DownloadConditions) files responses,
      let ended :=
        call.retrieveMetadataPackFromSource service.blake3 service.verifier
          conditions files responses
      (∀ name, name ≠ conditions.partialName → ended.1.get? name = files.get? name ∨
        name = call.destination ∧ ended.2 = .ok () ∧ ∃ content, ended.1.get? name = some content ∧
          blake3HexDigest service.blake3 content = call.source.packHash) ∧
      (conditions.unlinkFails = false → conditions.partialName ≠ call.destination →
        ended.1.get? conditions.partialName = none)) ∧
    (∀ events conditions files header offered chunkBytes quiet request (call :
      RetrieveCall) downloading downloads,
      runEvents (storeStep service.blake3 service.verifier service.config) .empty events =
        some files.store → Clean conditions →
      Uploadable service header offered → 0 < chunkBytes →
      NoCollision service.blake3 files.store offered →
      service.checkToken request.clusterToken = none → request.ownerId = offered.key.ownerId →
      request.packHash = offered.key.packHash → quiet.hashError = none → quiet.interruption = none →
      call.ownerId = offered.key.ownerId → call.source.packHash = offered.key.packHash →
      (call.source.sizeBytes = 0 ∨ call.source.sizeBytes = offered.data.length) →
      (offered.data.length : Int) ≤ call.maxPackBytes → CleanDownload downloading →
      ∃ parts, service.retrieveMetadataPack quiet
          (service.storeMetadataPack conditions files
            ⟨storeMetadataPackRequests chunkBytes header offered.data, none⟩).1.store
          request = .replied parts none ∧
        (call.retrieveMetadataPackFromSource service.blake3 service.verifier downloading downloads
          ⟨parts, none⟩).2 = .ok () ∧
        (call.retrieveMetadataPackFromSource service.blake3 service.verifier downloading downloads
          ⟨parts, none⟩).1.get?
          call.destination = some offered.data) := by
  refine ⟨fun events conditions files requests ran clean => ?_,
    fun conditions files requests unlinks name =>
    storeMetadataPack_incoming unlinks name, fun call conditions files responses =>
      ⟨fun name other => retrieve_publishes name other, retrieve_partial⟩, ?_⟩
  · have intact := intact_of_run ran
    refine ⟨⟨storeMetadataPack_published, ?_⟩, fun offered whole => ?_,
      storeMetadataPack_refused clean intact⟩
    · rintro ⟨offered, whole⟩
      obtain ⟨after, result, stored, -⟩ := storeMetadataPack_taken clean intact whole
      rw [stored]
      exact storedResponse_published ..
    · obtain ⟨after, result, stored, taken⟩ := storeMetadataPack_taken clean intact whole
      obtain ⟨file, found, -, -, -⟩ := taken.file
      rw [stored]
      exact ⟨file, found, fun apart => taken.data apart whole.hash found, taken.signature⟩
  · intro events conditions files header offered chunkBytes quiet request call downloading downloads
      ran clean uploadable positive
      apart token owner named readable uninterrupted callOwner callHash expected fits cleanDownload
    obtain ⟨after, result, stored, taken⟩ :=
      storeMetadataPack_taken clean (intact_of_run ran) (uploadable.whole positive)
    obtain ⟨file, blocks, found, all, sent⟩ :=
      retrieveMetadataPack_taken taken uploadable token owner named readable uninterrupted
    have same := taken.data apart uploadable.hash found
    rw [stored]
    refine ⟨_, sent, ?_⟩
    refine retrieve_whole cleanDownload ⟨rfl, callOwner.symm, callHash.symm, ?_, ?_,
      uploadable.nonempty, fits, expected, ?_⟩ ?_
      (all.trans same)
    · rw [callHash]
      exact uploadable.packHashValid
    · rw [same]
    · rw [callOwner, callHash]
      exact uploadable.signed
    · rw [callHash]
      exact uploadable.hash

namespace StreamedPack

def blake3 : Blake3 :=
  .ofTable [([1, 2, 3], 0xb177ec1bf26dfb3b7010d473e6d44713b29b765b99c6e60ecbfae742de496543)]

def offered : OfferedPack where
  key := { ownerId := List.replicate 64 'a', packHash := blake3HexDigest blake3 [1, 2, 3] }
  data := [1, 2, 3]
  signature := { publicKeyB64 := ['k'], signatureB64 := ['s'] }

/-- Only the signature that the owner made for the pack is valid. -/
def verifier : PackVerifier where
  verifies key signature := decide (key = offered.key ∧ signature = offered.signature)

def service : MetadataPackService where
  blake3 := blake3
  verifier
  config := {
    rootDir := "/packs"
    maxPackBytes := 4
    maxPacksPerOwner := 1
    maxTotalBytesPerOwner := 5
    maxTotalStoreBytes := 6
    maxAgeDays := 0
    pack_pos := by decide
    packs_pos := Nat.zero_lt_one
    owner_fits := by decide
    store_fits := by decide }
  clusterToken := ['t']
  maxMessageBytes := 4
  draining := false

def header : StoreMetadataPackHeader where
  clusterToken := ['t']
  ownerId := offered.key.ownerId
  packHash := offered.key.packHash
  sizeBytes := 3
  signature := offered.signature

def files : PackServiceFiles where
  store := .empty
  incoming := .empty

def conditions : StoreConditions where
  incomingName := ['p']
  createError := none
  writeError _ := none
  syncError := none
  unlinkFails := false
  put := {
    storedAt := 9
    now := 9
    publication := .published
    deletionError := fun _ => none
    rollback := .none }

def quiet : MetadataPackService.RetrieveConditions where
  hashError := none
  interruption := none

def request : RetrieveMetadataPackRequest where
  clusterToken := ['t']
  ownerId := offered.key.ownerId
  packHash := offered.key.packHash

def call : RetrieveCall where
  source := {
    nodeId := ['n']
    address := ['h']
    packHash := offered.key.packHash
    sizeBytes := 3
    storedAtUnix := ⟨0⟩
    signature := offered.signature }
  ownerId := offered.key.ownerId
  destination := ['d']
  maxPackBytes := 3

def downloading : DownloadConditions where
  partialName := ['q']
  createError := none
  writeError _ := none
  syncError := none
  publishError := none
  unlinkFails := false

end StreamedPack

open StreamedPack in
/-- A pack of three bytes, stored in blocks of one byte and sent in blocks of two. -/
theorem threeBytes_retrieved : ∃ parts,
    service.retrieveMetadataPack quiet
        (service.storeMetadataPack conditions files
          ⟨storeMetadataPackRequests 1 header offered.data, none⟩).1.store request =
      .replied parts none ∧
    (call.retrieveMetadataPackFromSource service.blake3 service.verifier downloading .empty
      ⟨parts, none⟩).2 = .ok () ∧
    (call.retrieveMetadataPackFromSource service.blake3 service.verifier downloading .empty
      ⟨parts, none⟩).1.get?
      call.destination = some [1, 2, 3] := by
  have hash : blake3HexDigest service.blake3 offered.data = offered.key.packHash := by
    decide +kernel
  have apart : NoCollision service.blake3 files.store offered := by
    rintro left right (rfl | ⟨file, absent, -⟩) (rfl | ⟨file, absent, -⟩) -
    · rfl
    · cases absent
    · cases absent
    · cases absent
  exact (streamedPacks_wholeAndAuthentic service).2.2.2
    [] conditions files header offered 1 quiet request call downloading .empty rfl
    ⟨rfl, fun _ => rfl, rfl, rfl, rfl, fun _ => rfl⟩
    ⟨by decide, rfl, rfl, by decide, rfl, rfl, rfl, hash, by decide, by decide, by decide⟩
      (by decide) apart (by decide) rfl rfl rfl
    rfl rfl rfl (.inr rfl) (by decide) ⟨rfl, fun _ => rfl, rfl, rfl⟩

end Stopan.Packs
