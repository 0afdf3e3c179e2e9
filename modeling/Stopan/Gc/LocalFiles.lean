import Stopan.Backup.Ownership
import Stopan.Metadata.Scope

/-!
The garbage collection of generated chunks (`stopan gc generated-chunks`,
`stopan/gc/local_files.py`) next to running backups. A collection reads the protected hashes of the
catalog once, computes the cutoff of the grace period, and then visits the files of the CAS one by
one.
-/

namespace Stopan.Gc

open Stopan.Lib Stopan.Common Stopan.Cas Stopan.Chunking Stopan.Metadata
  Stopan.Protection Stopan.Backup

/-- Where a collection stands. A candidate is stated twice before it is unlinked, and `confirmed`
lies between the second stat and the unlink. -/
inductive GcPhase where
  | loaded
  | scanning (cutoff : Int)
  | examined (cutoff : Int) (chunkHash : Text) (inode : Nat)
  | confirmed (cutoff : Int) (chunkHash : Text)
  deriving DecidableEq, Repr

/-- A collection. `recorded` remembers which decisions of workers the catalog had recorded when the
protected hashes were read; the code has no use for it. -/
structure GcRun where
  maxAge : Nat
  protectedHashes : List Text
  recorded : List Text
  phase : GcPhase
  deriving DecidableEq, Repr

inductive GcEvent where
  | computeCutoff
  | examine (chunkHash : Text)
  | confirm
  | unlink
  | unlinkFailed
  deriving DecidableEq, Repr

/-- One step of `collect_files_by_age` with deletion enabled; `none` when the event cannot
happen. -/
def gcRunStep (now : Int) (cas : CasFiles) (gc : GcRun) (event : GcEvent) :
    Option (CasFiles × GcRun) :=
  match event, gc.phase with
  | .computeCutoff, .loaded => some (cas, { gc with phase := .scanning (now - gc.maxAge) })
  | .examine chunkHash, .scanning cutoff =>
      match cas.get? chunkHash with
      | none => some (cas, gc)
      | some file =>
          if gc.protectedHashes.contains chunkHash then some (cas, gc)
          else if cutoff < file.mtime then some (cas, gc)
          else some (cas, { gc with phase := .examined cutoff chunkHash file.inode })
  | .confirm, .examined cutoff chunkHash inode =>
      match cas.get? chunkHash with
      | none => some (cas, { gc with phase := .scanning cutoff })
      | some file =>
          if file.inode = inode then some (cas, { gc with phase := .confirmed cutoff chunkHash })
          else some (cas, { gc with phase := .scanning cutoff })
  | .unlink, .confirmed cutoff chunkHash =>
      some (cas.erase chunkHash, { gc with phase := .scanning cutoff })
  | .unlinkFailed, .confirmed cutoff _ => some (cas, { gc with phase := .scanning cutoff })
  | _, _ => none

/-- The recipe of an item, with the hashes that its worker decided were locally available. -/
structure DecidedRecipe where
  recipeId : Nat
  hashes : List Text
  deriving DecidableEq, Repr

/-- The node, its collections, and two records that the code does not keep: the decisions behind
the recipes of the items, and the hashes that were protected remotely when some collection read its
set. -/
structure GcNode where
  node : Node
  collections : Dict Nat GcRun
  decided : Dict Nat DecidedRecipe
  exempted : List Text

def GcNode.fresh (cas : CasFiles) (clock : Int) : GcNode where
  node := .fresh cas clock
  collections := .empty
  decided := .empty
  exempted := []

inductive GcNodeEvent where
  | node (event : NodeEvent)
  | readProtected (gcId : Nat) (maxAge : Nat)
  | gc (gcId : Nat) (event : GcEvent)
  | finish (gcId : Nat)

def localHashes (entries : List (RecipeChunk × ChunkDecision)) : List Text :=
  (entries.filter fun entry => entry.2 != .skipSynced).map (·.1.chunkHash)

/-- The hashes whose record is sufficient for the copies that it asks for itself. -/
def remotelyProtectedHashes (db : MetadataDB) : List Text :=
  (db.chunkProtection.filter fun _ record =>
    isRecordSufficient (some record) (max 1 record.desiredRf) none = .ok true).keys

def liveItem (db : MetadataDB) (item : SnapshotItemRow) : Bool :=
  db.hasStatus [.creating, .complete] item.snapshotId

/-- The decisions behind the recipes of the items of live snapshots. -/
def GcNode.recordedHashes (state : GcNode) : List Text :=
  (state.decided.filter fun itemId record =>
    (state.node.host.db.snapshotItems.get? itemId).any fun item =>
      liveItem state.node.host.db item && item.recipeId == some record.recipeId).values.flatMap
        (·.hashes)

/-- A consolidated recipe records what its worker decided. -/
def GcNode.decidedAfter (state : GcNode) (after : Node) : NodeEvent → Dict Nat DecidedRecipe
  | .backup runId (.collect itemId) =>
      match (state.node.runs.get? runId).bind fun run => run.tasks.get? itemId,
          (after.host.db.snapshotItems.get? itemId).bind (·.recipeId) with
      | some task, some recipeId =>
          match task.worker with
          | .returned result =>
              if (after.runs.get? runId).any (·.collects) then
                state.decided.set itemId { recipeId, hashes := localHashes result.entries }
              else state.decided
          | .running _ | .failed _ => state.decided
      | _, _ => state.decided
  | _ => state.decided

/-- One step of the node or of a collection; `none` when the event cannot happen in the state. -/
def gcNodeStep (zstd : Zstd) (blake3 : Blake3) (state : GcNode) : GcNodeEvent → Option GcNode
  | .node event => do
      let node ← nodeStep zstd blake3 state.node event
      some { state with node, decided := state.decidedAfter node event }
  | .readProtected gcId maxAge =>
      match state.collections.get? gcId with
      | some _ => none
      | none =>
          some { state with
            exempted := state.exempted ++ remotelyProtectedHashes state.node.host.db
            collections := state.collections.set gcId {
              maxAge
              protectedHashes := state.node.host.db.gcProtectedChunkHashes
              recorded := state.recordedHashes
              phase := .loaded } }
  | .gc gcId event => do
      let gc ← state.collections.get? gcId
      let stepped ← gcRunStep state.node.host.clock state.node.host.cas gc event
      some { state with
        node := { state.node with host := { state.node.host with cas := stepped.1 } }
        collections := state.collections.set gcId stepped.2 }
  | .finish gcId => some { state with collections := state.collections.erase gcId }

end Stopan.Gc
