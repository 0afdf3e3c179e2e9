import Stopan.Chunking.Planner
import Stopan.Objects.Walk

/-!
The semantic validation of a whole object graph (`stopan/metadata/objects/graph/validation.py`):
relations between objects that the models of single objects cannot see.
-/

namespace Stopan.Objects

open Stopan.Lib Stopan.Common Stopan.Metadata Stopan.Chunking

structure GraphObjectPayload where
  objectType : MetadataObjectType
  payload : PyJson
  deriving DecidableEq

abbrev TypedObjects := Dict Text MetadataPlainObject

/-- `_typed_objects`. -/
def typedObjects : List (Text × GraphObjectPayload) → TypedObjects → Checked TypedObjects
  | [], typed => .ok typed
  | (objectHash, item) :: rest, typed =>
      match decodeMetadataObjectPayload item.objectType item.payload with
      | .ok object => typedObjects rest (typed.set objectHash object)
      | .error reason => .error (.object
          (s!"metadata object semánticamente inválido {String.ofList objectHash} ({item.objectType.name}): " ++
            reason.message))

/-- `_expect`, with the part of the object that the caller goes on with. -/
def expectObject {α : Type} (typed : TypedObjects) (objectHash : Text)
    (expected : MetadataObjectType) (select : MetadataPlainObject → Option α) : Checked α :=
  match typed.get? objectHash with
  | none => .error (.object s!"metadata object referenciado no existe: {String.ofList objectHash}")
  | some object =>
      match select object with
      | some found => .ok found
      | none => .error (.object
        (s!"tipo de metadata object no coincide para {String.ofList objectHash}: " ++
          s!"esperado={expected.name} recibido={object.objectType.name}"))

def selectCatalog : MetadataPlainObject → Option CatalogObject
  | .catalog object => some object
  | _ => none

def selectSnapshotIndex : MetadataPlainObject → Option SnapshotIndexObject
  | .snapshotIndex object => some object
  | _ => none

def selectSnapshotRoot : MetadataPlainObject → Option SnapshotRootObject
  | .snapshotRoot object => some object
  | _ => none

def selectTree : MetadataPlainObject → Option TreeObject
  | .tree object => some object
  | _ => none

def selectFile : MetadataPlainObject → Option FileObject
  | .file object => some object
  | _ => none

def selectRecipe : MetadataPlainObject → Option RecipeObject
  | .recipe object => some object
  | _ => none

def selectChunkList : MetadataPlainObject → Option ChunkListObject
  | .chunkList object => some object
  | _ => none

def selectKnownChunkIndex : MetadataPlainObject → Option KnownChunkIndexObject
  | .knownChunkIndex object => some object
  | _ => none

def selectKnownChunkShard : MetadataPlainObject → Option KnownChunkShardObject
  | .knownChunkShard object => some object
  | _ => none

def selectProtectionIndex : MetadataPlainObject → Option ProtectionIndexObject
  | .protectionIndex object => some object
  | _ => none

def selectProtectionShard : MetadataPlainObject → Option ProtectionShardObject
  | .protectionShard object => some object
  | _ => none

def selectErasureDataPackIndex : MetadataPlainObject → Option ErasureDataPackIndexObject
  | .erasureDataPackIndex object => some object
  | _ => none

def selectErasureDataPackShard : MetadataPlainObject → Option ErasureDataPackShardObject
  | .erasureDataPackShard object => some object
  | _ => none

def addKnownChunks : List KnownChunkRecord → Dict Text Nat → Checked (Dict Text Nat)
  | [], known => .ok known
  | record :: rest, known => do
      ensure ((known.get? record.chunkHash).all fun previous => decide (previous = record.size))
        (.object s!"known chunk duplicado con tamaño distinto: {String.ofList record.chunkHash}")
      addKnownChunks rest (known.set record.chunkHash record.size)

def knownChunksOf (typed : TypedObjects) : List IndexShardRef → Dict Text Nat →
    Checked (Dict Text Nat)
  | [], known => .ok known
  | shardRef :: rest, known => do
      let shard ← expectObject typed shardRef.ref.objectHash .knownChunkShard selectKnownChunkShard
      ensure (decide (shard.hexPrefix = shardRef.hexPrefix))
        (.object "prefix de known_chunk shard no coincide con su índice")
      ensure (decide (shard.chunks.length = shardRef.count))
        (.object "count de known_chunk shard no coincide con su contenido")
      knownChunksOf typed rest (← addKnownChunks shard.chunks known)

def addProtectionRecords (known : Dict Text Nat) : List ProtectionRecordObject →
    List Text → Checked (List Text)
  | [], seen => .ok seen
  | record :: rest, seen => do
      ensure (!seen.contains record.chunkHash)
        (.object s!"protection record duplicado: {String.ofList record.chunkHash}")
      ensure (known.contains record.chunkHash)
        (.object
          s!"protection record referencia chunk inexistente: {String.ofList record.chunkHash}")
      addProtectionRecords known rest (record.chunkHash :: seen)

def protectionRecordsOf (typed : TypedObjects) (known : Dict Text Nat) : List IndexShardRef →
    List Text → Checked (List Text)
  | [], seen => .ok seen
  | shardRef :: rest, seen => do
      let shard ← expectObject typed shardRef.ref.objectHash .protectionShard selectProtectionShard
      ensure (decide (shard.hexPrefix = shardRef.hexPrefix))
        (.object "prefix de protection shard no coincide con su índice")
      ensure (decide (shard.records.length = shardRef.count))
        (.object "count de protection shard no coincide con su contenido")
      protectionRecordsOf typed known rest (← addProtectionRecords known shard.records seen)

/-- The number of protection records of the graph. -/
def validateProtection (typed : TypedObjects) (catalog : CatalogObject) (known : Dict Text Nat) :
    Checked Nat :=
  match catalog.protectionIndex with
  | none => do
      ensure (decide (catalog.protectionRecordCount = 0))
        (.object "catalog.protection_record_count debe ser 0 cuando no existe protection_index")
      return 0
  | some ref => do
      let index ← expectObject typed ref.objectHash .protectionIndex selectProtectionIndex
      ensure (decide (catalog.protectionRecordCount = index.totalRecords))
        (.object "catalog.protection_record_count no coincide con protection_index.total_records")
      let seen ← protectionRecordsOf typed known index.shards []
      ensure (decide (seen.length = index.totalRecords))
        (.object "protection_index.total_records no coincide con los records materializados")
      return seen.length

structure ErasureTally where
  packs : List Text
  chunks : List Text
  chunkCount : Nat
  shardCount : Nat
  deriving DecidableEq, Repr

def addErasureChunks (known : Dict Text Nat) : List ErasureDataPackChunkObject →
    List Text → Checked (List Text)
  | [], seen => .ok seen
  | chunk :: rest, seen =>
      match known.get? chunk.chunkHash with
      | none => .error (.object
        s!"erasure data pack referencia chunk inexistente: {String.ofList chunk.chunkHash}")
      | some size => do
          ensure (decide (chunk.length = size))
            (.object ("longitud EC no coincide con el tamaño conocido del chunk: " ++
            s!"{String.ofList chunk.chunkHash}: ec={chunk.length} known={size}"))
          ensure (!seen.contains chunk.chunkHash)
            (.object s!"chunk EC duplicado entre data packs: {String.ofList chunk.chunkHash}")
          addErasureChunks known rest (chunk.chunkHash :: seen)

def addErasureRecords (known : Dict Text Nat) : List ErasureDataPackRecordObject → ErasureTally →
    Checked ErasureTally
  | [], tally => .ok tally
  | record :: rest, tally => do
      ensure (!tally.packs.contains record.packHash)
        (.object s!"erasure data pack duplicado: {String.ofList record.packHash}")
      let chunks ← addErasureChunks known record.chunks tally.chunks
      addErasureRecords known rest {
        packs := record.packHash :: tally.packs
        chunks
        chunkCount := tally.chunkCount + record.chunks.length
        shardCount := tally.shardCount + record.shards.length }

def erasureRecordsOf (typed : TypedObjects) (known : Dict Text Nat) : List IndexShardRef →
    ErasureTally → Checked ErasureTally
  | [], tally => .ok tally
  | shardRef :: rest, tally => do
      let shard ← expectObject typed shardRef.ref.objectHash .erasureDataPackShard
        selectErasureDataPackShard
      ensure (decide (shard.hexPrefix = shardRef.hexPrefix))
        (.object "prefix de erasure_data_pack shard no coincide con su índice")
      ensure (decide (shard.records.length = shardRef.count))
        (.object "count de erasure_data_pack shard no coincide con su contenido")
      erasureRecordsOf typed known rest (← addErasureRecords known shard.records tally)

def validateErasureDataPacks (typed : TypedObjects) (catalog : CatalogObject)
    (known : Dict Text Nat) : Checked Unit :=
  match catalog.erasureDataPackIndex with
  | none =>
      ensure (decide (catalog.erasureDataPackCount = 0 ∧ catalog.erasureDataPackChunkCount = 0 ∧
          catalog.erasureDataPackShardCount = 0))
        (.object "contadores EC del catalog deben ser 0 cuando no existe erasure_data_pack_index")
  | some ref => do
      let index ← expectObject typed ref.objectHash .erasureDataPackIndex selectErasureDataPackIndex
      ensure (decide (catalog.erasureDataPackCount = index.totalPacks ∧
          catalog.erasureDataPackChunkCount = index.totalChunks ∧
          catalog.erasureDataPackShardCount = index.totalShards))
        (.object "contadores EC del catalog no coinciden con erasure_data_pack_index")
      let tally ← erasureRecordsOf typed known index.shards { packs := [], chunks := [],
                                                              chunkCount := 0, shardCount := 0 }
      ensure (decide (tally.packs.length = index.totalPacks))
        (.object "erasure_data_pack_index.total_packs no coincide con sus records")
      ensure (decide (tally.chunkCount = index.totalChunks))
        (.object "erasure_data_pack_index.total_chunks no coincide con sus records")
      ensure (decide (tally.shardCount = index.totalShards))
        (.object "erasure_data_pack_index.total_shards no coincide con sus records")

abbrev SeenRecipes := Dict Text (List ChunkRef)

def ChunkRef.toRecipeChunk (chunk : ChunkRef) : RecipeChunk where
  order := chunk.order
  chunkHash := chunk.chunkHash
  chunkSize := chunk.size

def recipeHashOf (blake3 : Blake3) (chunks : List ChunkRef) : Checked Text :=
  match computeRecipeHash blake3 (chunks.map ChunkRef.toRecipeChunk) with
  | .ok recipeHash => .ok recipeHash
  | .error reason => .error (.overflow reason.message)

def checkKnownSizes (known : Dict Text Nat) : List ChunkRef → Checked Unit
  | [] => .ok ()
  | chunk :: rest =>
      match known.get? chunk.chunkHash with
      | none => .error (.object
        s!"recipe referencia chunk ausente de known_chunk_index: {String.ofList chunk.chunkHash}")
      | some size => do
          ensure (decide (size = chunk.size))
            (.object
              s!"tamaño de chunk no coincide con known_chunk_index: {String.ofList chunk.chunkHash}")
          checkKnownSizes known rest

/-- The file of a tree entry, down to its chunks. -/
def validateFile (blake3 : Blake3) (typed : TypedObjects) (known : Dict Text Nat)
    (entry : TreeEntry) (recipes : SeenRecipes) :
    Checked SeenRecipes := do
  let file ← expectObject typed entry.ref.objectHash .file selectFile
  ensure (decide (file.size = entry.size)) (.object "file.size no coincide con tree_entry.size")
  let recipe ← expectObject typed file.recipe.objectHash .recipe selectRecipe
  ensure (decide (file.recipeHash = recipe.recipeHash))
    (.object "file.recipe_hash no coincide con recipe.recipe_hash")
  let chunkList ← expectObject typed recipe.chunkList.objectHash .chunkList selectChunkList
  ensure (decide (chunkList.chunks.length = recipe.chunkCount))
    (.object "recipe.chunk_count no coincide con chunk_list")
  ensure (decide ((chunkList.chunks.map ChunkRef.size).sum = recipe.totalSize))
    (.object "recipe.total_size no coincide con chunk_list")
  let calculated ← recipeHashOf blake3 chunkList.chunks
  ensure (decide (calculated = recipe.recipeHash)) (.object
    ("recipe_hash no coincide con la secuencia canónica de chunks: " ++
      s!"esperado={String.ofList recipe.recipeHash} calculado={String.ofList calculated}"))
  ensure ((recipes.get? recipe.recipeHash).all fun previous => decide (previous = chunkList.chunks))
    (.object s!"recipe_hash duplicado con chunks distintos: {String.ofList recipe.recipeHash}")
  checkKnownSizes known chunkList.chunks
  return recipes.set recipe.recipeHash chunkList.chunks

/-- The entries of a tree; `descend` validates a subtree. -/
def validateEntries (blake3 : Blake3) (typed : TypedObjects) (known : Dict Text Nat)
    (descend : Text → SeenRecipes → Checked SeenRecipes) : List TreeEntry →
      SeenRecipes → Checked SeenRecipes
  | [], recipes => .ok recipes
  | entry :: rest, recipes => do
      let after ← match entry.itemType with
        | .dir => descend entry.ref.objectHash recipes
        | .file => validateFile blake3 typed known entry recipes
      validateEntries blake3 typed known descend rest after

/-- `_validate_tree`. A tree is not entered again while it is active, so the number of trees bounds
the depth. -/
def validateTree (blake3 : Blake3) (typed : TypedObjects) (known : Dict Text Nat) :
    Nat → List Text → Text → SeenRecipes → Checked SeenRecipes
  | 0, _, treeHash, _ =>
      .error (.object s!"ciclo detectado en el árbol de metadata: {String.ofList treeHash}")
  | depth + 1, activeTrees, treeHash, recipes => do
      ensure (!activeTrees.contains treeHash)
        (.object s!"ciclo detectado en el árbol de metadata: {String.ofList treeHash}")
      let tree ← expectObject typed treeHash .tree selectTree
      validateEntries blake3 typed known
        (validateTree blake3 typed known depth (treeHash :: activeTrees)) tree.entries recipes

/-- The fields that the root of a snapshot repeats from its index entry, in the order of the
checks. -/
def rootMismatch (root : SnapshotRootObject) (entry : SnapshotIndexEntry) : Option String :=
  if root.snapshotUuid ≠ entry.snapshotUuid then some "snapshot_uuid"
  else if root.rootPath ≠ entry.rootPath then some "root_path"
  else if root.originNodeId ≠ entry.originNodeId then some "origin_node_id"
  else if root.createdAt ≠ entry.createdAt then some "created_at"
  else if root.totalSize ≠ entry.totalSize then some "total_size"
  else if root.totalFiles ≠ entry.totalFiles then some "total_files"
  else none

def validateSnapshots (blake3 : Blake3) (typed : TypedObjects) (known : Dict Text Nat) :
    List SnapshotIndexEntry → SeenRecipes → Checked Unit
  | [], _ => .ok ()
  | entry :: rest, recipes => do
      ensure (decide (entry.status = .complete) || entry.snapshotRoot.isNone)
        (.object
          s!"snapshot {String.ofList entry.snapshotUuid} no COMPLETE no debe referenciar snapshot_root")
      match entry.snapshotRoot with
      | none => validateSnapshots blake3 typed known rest recipes
      | some ref => do
          let root ← expectObject typed ref.objectHash .snapshotRoot selectSnapshotRoot
          match rootMismatch root entry with
          | some name => .error (.object
              s!"snapshot_root no coincide con snapshot_index para {String.ofList entry.snapshotUuid}: {name}")
          | none => do
              let after ← validateTree blake3 typed known (typed.length + 1)
                [] root.rootTree.objectHash recipes
              validateSnapshots blake3 typed known rest after

/-- The counts that a pointer declares, when there is one. -/
structure ExpectedCounts where
  snapshots : Option Nat
  knownChunks : Option Nat
  protectionRecords : Option Nat

def validateTypedGraph (blake3 : Blake3) (catalogHash : Text) (typed : TypedObjects)
    (expected : ExpectedCounts) :
    Checked Unit := do
  let catalog ← expectObject typed catalogHash .catalog selectCatalog
  let snapshotIndex ← expectObject typed catalog.snapshotIndex.objectHash
    .snapshotIndex selectSnapshotIndex
  let knownIndex ← expectObject typed catalog.knownChunkIndex.objectHash .knownChunkIndex
    selectKnownChunkIndex
  ensure (decide (catalog.snapshotCount = snapshotIndex.snapshots.length)) (.object
    ("catalog.snapshot_count no coincide con snapshot_index: " ++
      s!"catalog={catalog.snapshotCount} index={snapshotIndex.snapshots.length}"))
  ensure (decide (catalog.knownChunkCount = knownIndex.totalChunks)) (.object
    ("catalog.known_chunk_count no coincide con known_chunk_index: " ++
      s!"catalog={catalog.knownChunkCount} index={knownIndex.totalChunks}"))
  ensure (expected.snapshots.all fun count => decide (count = catalog.snapshotCount)) (.object
    s!"latest.snapshot_count no coincide con catalog.snapshot_count: catalog={catalog.snapshotCount}")
  ensure (expected.knownChunks.all fun count => decide (count = catalog.knownChunkCount)) (.object
    s!"latest.known_chunk_count no coincide con catalog.known_chunk_count: catalog={catalog.knownChunkCount}")
  let known ← knownChunksOf typed knownIndex.shards .empty
  ensure (decide (known.length = knownIndex.totalChunks))
    (.object "known_chunk_index.total_chunks no coincide con los chunks materializados")
  let protectionRecords ← validateProtection typed catalog known
  ensure (expected.protectionRecords.all fun count => decide (count = protectionRecords)) (.object
    s!"latest.protection_record_count no coincide con el grafo: grafo={protectionRecords}")
  validateErasureDataPacks typed catalog known
  validateSnapshots blake3 typed known snapshotIndex.snapshots .empty

def validateMetadataObjectGraphSemantics (blake3 : Blake3) (catalogHash : Text)
    (objectsByHash : Dict Text GraphObjectPayload) (expected : ExpectedCounts) : Checked Unit := do
  let typed ← typedObjects objectsByHash.entries .empty
  validateTypedGraph blake3 catalogHash typed expected

end Stopan.Objects
