import Stopan.Lib.Tally
import Stopan.Restore.ErasureFetch

/-!
Reading chunks for a restore (`stopan/restore/fetch.py`, with the retrieval of `remote_client.py`):
the local CAS, the CAS of the local node, the replicas round by round, and the data packs.
-/

namespace Stopan.Restore

open Stopan.Lib Stopan.Common Stopan.Cas Stopan.Cluster Stopan.Metadata Stopan.Rpc

/-- The counters that a fetch changes. -/
structure RestoreRunStats where
  chunksRequested : Nat
  chunksFromLocalCas : Nat
  chunksFromLocalP2pCas : Nat
  chunksFromRemoteReplication : Nat
  chunksFromEc : Nat
  chunksFailed : Nat
  remoteChunksCorrupt : Nat
  ecRecoveryFailures : Nat
  deriving DecidableEq, Repr

/-- The protobuf enumeration, which is open. -/
inductive RetrieveStatus where
  | unspecified
  | found
  | notFound
  | error
  | unrecognized (number : Int)
  deriving DecidableEq, Repr

structure BatchRetrieveItemResult where
  chunkHash : Text
  status : RetrieveStatus
  chunkData : Bytes
  detail : String
  deriving DecidableEq, Repr

/-- What an address answers to a batch of hashes. -/
abbrev ChunkAnswer := List Text → Except CallError (List BatchRetrieveItemResult)

def withoutChunkResult (chunkHash : Text) : BatchRetrieveItemResult where
  chunkHash
  status := .error
  chunkData := []
  detail := "sin resultado en RetrieveChunkBatch"

/-- `_retrieve_chunk_batch_once`. -/
def retrieveChunkBatchOnce (answer : ChunkAnswer) (chunkHashes : List Text) :
    Except CallError (Dict Text BatchRetrieveItemResult) := do
  let items ← answer chunkHashes
  let results := items.foldl
    (fun results item => if item.chunkHash.isEmpty then results
      else results.set item.chunkHash item) .empty
  return chunkHashes.foldl (fun results chunkHash =>
    if results.contains chunkHash then results
      else results.set chunkHash (withoutChunkResult chunkHash)) results

def retrieveChunkBatch (answer : ChunkAnswer) (chunkHashes : List Text) :
    Except CallError (Dict Text BatchRetrieveItemResult) :=
  let ordered := orderedUnique chunkHashes
  if ordered.isEmpty then .ok .empty
    else runAdaptiveBatchCall (retrieveChunkBatchOnce answer) ordered

/-- The cluster and the pool of remote clients: the view, what each address answers, and the orders
in which the set of unresolved chunks is gone through and the calls of a round complete. -/
structure RemoteAccess where
  originNodeId : Text
  cluster : Except StopanError ClusterView
  answers : Text → ChunkAnswer
  unresolvedOrder : Nat → Completion Text
  calls : Nat → Completion (Text × List Text)

/-- A file of a local store that is there may still not be readable. -/
structure LocalStore where
  files : CasFiles
  unreadable : Text → Option StopanError

structure ChunkFetchService where
  blake3 : Blake3
  zstd : Zstd
  /-- Decompression with a `max_output_size`. -/
  decompressWithin : Nat → Bytes → Option Bytes
  maxChunkSize : Nat
  /-- Why the files of the local CAS cannot be read. -/
  unreadable : Text → Option StopanError
  writes : Nat → WriteContext
  p2pLocalRepo : Option LocalStore
  remote : Option RemoteAccess
  rf : Nat
  clusterToken : Text
  erasure : Option (MetadataDB × ErasureContext)
  remoteChunkRecovery : Bool

structure FetchState where
  repo : LocalRepo
  stats : RestoreRunStats

inductive LocalRead (α : Type) where
  | found (value : α)
  | missing
  | failed (detail : String)

namespace ChunkFetchService

variable (service : ChunkFetchService)

/-- `self.repo.get`. -/
def getLocal (repo : LocalRepo) (chunkHash : Text) : LocalRead Bytes :=
  if existsLocal repo.files chunkHash then
    match service.unreadable chunkHash with
    | some reason => .failed reason.message
    | none =>
        match Cas.get service.zstd service.blake3 repo.files chunkHash with
        | .ok raw => .found raw
        | .error reason => .failed reason.message
  else .missing

def validateCompressedChunk (chunkHash : Text) (compressedData : Bytes) (sourceLabel : String) :
    Except StopanError Bytes :=
  match service.decompressWithin service.maxChunkSize compressedData with
  | none => .error (.restoreData s!"{sourceLabel} corrupto al descomprimir: {short chunkHash}")
  | some rawData =>
      if blake3HexDigest service.blake3 rawData = chunkHash then .ok rawData
      else .error (.restoreData s!"hash inválido en {sourceLabel} {short chunkHash}")

/-- A chunk of the P2P store, with its compressed form. -/
def getP2p (store : LocalStore) (chunkHash : Text) : LocalRead (Bytes × Bytes) :=
  match store.files.get? chunkHash with
  | none => .missing
  | some file =>
      match store.unreadable chunkHash with
      | some reason => .failed reason.message
      | none =>
          match service.validateCompressedChunk chunkHash file.data "chunk local P2P" with
          | .ok rawData => .found (file.data, rawData)
          | .error reason => .failed reason.message

structure LocalPhase where
  state : FetchState
  results : Dict Text ChunkResult
  missing : List Text
  errors : Dict Text (List String)

def addError (errors : Dict Text (List String)) (chunkHash : Text) (detail : String) :
    Dict Text (List String) :=
  errors.modify chunkHash [] (· ++ [detail])

/-- What the first loop does with a chunk that the local CAS does not have. -/
def fetchP2p (multiplicity : Text → Nat) (phase : LocalPhase) (chunkHash : Text) : LocalPhase :=
  match service.p2pLocalRepo.map fun store => service.getP2p store chunkHash with
  | none | some .missing => { phase with missing := phase.missing ++ [chunkHash] }
  | some (.failed detail) =>
      { phase with
        missing := phase.missing ++ [chunkHash]
        errors := addError phase.errors chunkHash s!"CAS P2P local: {detail}" }
  | some (.found (compressedData, rawData)) =>
      let (repo, failure) := phase.state.repo.putCompressed service.writes chunkHash compressedData
      { phase with
        state := {
          repo
          stats := { phase.state.stats with
            chunksFromLocalP2pCas :=
              phase.state.stats.chunksFromLocalP2pCas + multiplicity chunkHash } }
        results := phase.results.set chunkHash (.ok rawData)
        errors := match failure with
          | none => phase.errors
          | some reason =>
              addError phase.errors chunkHash s!"CAS local cache desde P2P: {reason.message}" }

def fetchLocal (multiplicity : Text → Nat) (phase : LocalPhase) (chunkHash : Text) : LocalPhase :=
  match service.getLocal phase.state.repo chunkHash with
  | .found rawData =>
      { phase with
        state := { phase.state with
          stats := { phase.state.stats with
            chunksFromLocalCas := phase.state.stats.chunksFromLocalCas + multiplicity chunkHash } }
        results := phase.results.set chunkHash (.ok rawData) }
  | .missing => service.fetchP2p multiplicity phase chunkHash
  | .failed detail =>
      service.fetchP2p multiplicity
        { phase with errors := addError phase.errors chunkHash s!"CAS local: {detail}" } chunkHash

structure RemoteState where
  state : FetchState
  results : Dict Text ChunkResult
  errors : Dict Text (List String)
  unresolved : List Text

def joinErrors (errors : Dict Text (List String)) (chunkHash : Text) : String :=
  " | ".intercalate ((errors.get? chunkHash).getD [])

/-- One chunk of a batch that an address has answered. -/
def takeItem (multiplicity : Text → Nat) (address : Text)
    (batch : Dict Text BatchRetrieveItemResult) (round : RemoteState)
    (chunkHash : Text) : RemoteState :=
  if !round.unresolved.contains chunkHash then round
  else
    match batch.get? chunkHash with
    | none => { round with
      errors := addError round.errors chunkHash s!"{String.ofList address}: sin resultado" }
    | some item =>
        if item.status ≠ .found then
          { round with errors := addError round.errors chunkHash
                         s!"{String.ofList address}: {item.detail}" }
        else
          match service.validateCompressedChunk chunkHash item.chunkData "chunk remoto" with
          | .error reason =>
              { round with
                state := { round.state with
                  stats :=
                    { round.state.stats with
                      remoteChunksCorrupt := round.state.stats.remoteChunksCorrupt + 1 } }
                errors := addError round.errors chunkHash
                  s!"{String.ofList address}: chunk corrupto: {reason.message}" }
          | .ok rawData =>
              let (repo, failure) :=
                round.state.repo.putCompressed service.writes chunkHash item.chunkData
              { state := {
                  repo
                  stats := { round.state.stats with
                    chunksFromRemoteReplication :=
                      round.state.stats.chunksFromRemoteReplication + multiplicity chunkHash } }
                results := round.results.set chunkHash (.ok rawData)
                errors := match failure with
                  | none => round.errors
                  | some reason => addError round.errors chunkHash
                      s!"{String.ofList address}: no pude cachear localmente: {reason.message}"
                unresolved := round.unresolved.filter fun other => decide (other ≠ chunkHash) }

/-- The call of one address as it completes. -/
def takeCall (access : RemoteAccess) (multiplicity : Text → Nat) (round : RemoteState)
    (call : Text × List Text) :
    RemoteState :=
  match retrieveChunkBatch (access.answers call.1) call.2 with
  | .error failure =>
      { round with
        errors := call.2.foldl (fun errors chunkHash =>
          addError errors chunkHash s!"{String.ofList call.1}: {failure.text}") round.errors }
  | .ok batch => call.2.foldl (service.takeItem multiplicity call.1 batch) round

/-- The unresolved chunks of a round, by the address of their target at this rank. -/
def roundGroups (targets : Text → List ClusterMember) (rank : Nat) (unresolved : List Text) :
    Dict Text (List Text) :=
  unresolved.foldl (fun groups chunkHash =>
    match (targets chunkHash)[rank]? with
    | none => groups
    | some member => groups.modify member.address [] (· ++ [chunkHash])) .empty

def remoteRounds (access : RemoteAccess) (multiplicity : Text → Nat)
    (targets : Text → List ClusterMember) :
    List Nat → RemoteState → RemoteState
  | [], round => round
  | rank :: ranks, round =>
      if round.unresolved = [] then round
      else
        let groups :=
          roundGroups targets rank ((access.unresolvedOrder rank).arrange round.unresolved)
        if groups.entries = [] then round
        else remoteRounds access multiplicity targets ranks
          (((access.calls rank).arrange groups.entries).foldl
            (service.takeCall access multiplicity) round)

def remoteTargetsOf (access : RemoteAccess) (cluster : ClusterView) (chunkHash : Text) :
    List ClusterMember :=
  cluster.hrwTargetsExcluding service.blake3 chunkHash service.rf service.clusterToken
    [access.originNodeId]

/-- Before the first round: chunks without a target have failed, the others are unresolved. -/
def startRound (targets : Text → List ClusterMember) (state : FetchState) (missing : List Text)
    (initialErrors : Dict Text (List String)) : RemoteState where
  state := state
  results := failAll (fun chunkHash =>
    let detail := joinErrors initialErrors chunkHash
    s!"El chunk {short chunkHash} no está localmente y no hay targets remotos HRW utilizables. {detail}")
    .empty (missing.filter fun chunkHash => (targets chunkHash).isEmpty)
  errors := initialErrors
  unresolved := missing.filter fun chunkHash => !(targets chunkHash).isEmpty

def remoteUnavailableResults (missing : List Text) (initialErrors : Dict Text (List String)) :
    Dict Text ChunkResult :=
  failAll (fun chunkHash =>
    let detail := joinErrors initialErrors chunkHash
    s!"El chunk {short chunkHash} no está localmente y la recuperación remota por chunks no está disponible o no hay targets de replicación. {detail}")
    .empty missing

/-- `_fetch_missing_many_from_remote`. -/
def fetchMissingManyFromRemote (multiplicity : Text → Nat) (state : FetchState)
    (missing : List Text) (initialErrors : Dict Text (List String)) :
    Except StopanError (FetchState × Dict Text ChunkResult) :=
  if service.rf = 0 then .ok (state, remoteUnavailableResults missing initialErrors)
  else
    match service.remote with
    | none => .ok (state, remoteUnavailableResults missing initialErrors)
    | some access => do
        let cluster ← access.cluster
        let targets := service.remoteTargetsOf access cluster
        let start := startRound targets state missing initialErrors
        let maxDepth :=
          (start.unresolved.map fun chunkHash => (targets chunkHash).length).foldr max 0
        let ended := service.remoteRounds access multiplicity targets (List.range maxDepth) start
        return (ended.state, failAll (fun chunkHash =>
          let detail := joinErrors ended.errors chunkHash
          s!"Ningún target HRW devolvió el bloque {short chunkHash}. {detail}")
            ended.results ended.unresolved)

def remoteChunkRecoveryDisabledResults (missing : List Text)
    (initialErrors : Dict Text (List String)) :
    Dict Text ChunkResult :=
  failAll (fun chunkHash =>
    let detail := joinErrors initialErrors chunkHash
    s!"El chunk {short chunkHash} no está localmente y la recuperación remota por chunks está desactivada. {detail}")
    .empty missing

def isFailure (result : Option ChunkResult) : Bool :=
  match result with
  | some (.error _) => true
  | some (.ok _) | none => false

/-- What EC recovery says about a chunk that is still unresolved. -/
def takeEcResult (multiplicity : Text → Nat) (ecResults : Dict Text ChunkResult)
    (state : RestoreRunStats × Dict Text ChunkResult) (chunkHash : Text) :
    RestoreRunStats × Dict Text ChunkResult :=
  match ecResults.get? chunkHash with
  | none => state
  | some (.ok raw) =>
      ({ state.1 with chunksFromEc := state.1.chunksFromEc + multiplicity chunkHash },
        state.2.set chunkHash (.ok raw))
  | some (.error detail) =>
      match state.2.get? chunkHash with
      | some (.error previous) =>
          ({ state.1 with
            ecRecoveryFailures := state.1.ecRecoveryFailures + multiplicity chunkHash },
            state.2.set chunkHash (.error s!"{previous} | EC: {detail}"))
      | some (.ok _) | none => (state.1, state.2.set chunkHash (.error detail))

/-- `_recover_unresolved_with_ec`. -/
def recoverUnresolvedWithEc (multiplicity : Text → Nat) (erasure : MetadataDB × ErasureContext)
    (state : FetchState) (missing : List Text) (remoteResults : Dict Text ChunkResult) :
    Except StopanError (FetchState × Dict Text ChunkResult) :=
  let unresolved := missing.filter fun chunkHash => isFailure (remoteResults.get? chunkHash)
  if unresolved = [] then .ok (state, remoteResults)
  else do
    let (repo, ecResults) ← recoverManyRawChunks service.writes service.zstd
      { erasure.2 with blake3 := service.blake3 }
      erasure.1 state.repo unresolved
    let (stats, results) :=
      unresolved.foldl (takeEcResult multiplicity ecResults) (state.stats, remoteResults)
    return ({ repo, stats }, results)

def requested (stats : RestoreRunStats) (count : Nat) : RestoreRunStats :=
  { stats with chunksRequested := stats.chunksRequested + count }

def failed (stats : RestoreRunStats) (count : Nat) : RestoreRunStats :=
  { stats with chunksFailed := stats.chunksFailed + count }

def fetchRemote (multiplicity : Text → Nat) (phase : LocalPhase) :
    Except StopanError (FetchState × Dict Text ChunkResult) :=
  if service.remoteChunkRecovery then
    service.fetchMissingManyFromRemote multiplicity phase.state phase.missing phase.errors
  else .ok (phase.state, remoteChunkRecoveryDisabledResults phase.missing phase.errors)

def fetchErasure (multiplicity : Text → Nat) (missing : List Text)
    (fetched : FetchState × Dict Text ChunkResult) :
    Except StopanError (FetchState × Dict Text ChunkResult) :=
  match service.erasure with
  | none => .ok fetched
  | some erasure => service.recoverUnresolvedWithEc multiplicity erasure fetched.1 missing fetched.2

/-- What is not in the local stores. -/
def fetchMissing (multiplicity : Text → Nat) (phase : LocalPhase) :
    Except StopanError (FetchState × Dict Text ChunkResult) := do
  let (state, remoteResults) ← service.fetchRemote multiplicity phase >>=
    service.fetchErasure multiplicity phase.missing
  let failures :=
    tally multiplicity
      (fun chunkHash => isFailure (remoteResults.get? chunkHash) = true) phase.missing
  return ({ state with stats := failed state.stats failures },
    phase.results.update remoteResults.entries)

/-- `fetch_many_raw_chunks`. -/
def fetchManyRawChunks (state : FetchState) (chunkHashes : List Text) :
    Except StopanError (FetchState × Dict Text ChunkResult) :=
  let multiplicity chunkHash := chunkHashes.count chunkHash
  let phase := (orderedUnique chunkHashes).foldl (service.fetchLocal multiplicity) {
    state := { state with stats := requested state.stats chunkHashes.length }
    results := .empty
    missing := []
    errors := .empty }
  if phase.missing = [] then .ok (phase.state, phase.results)
  else service.fetchMissing multiplicity phase

end ChunkFetchService

end Stopan.Restore
