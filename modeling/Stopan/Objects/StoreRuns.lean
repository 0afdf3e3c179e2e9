import Stopan.Lib.Runs
import Stopan.Objects.Collector

namespace Stopan.Objects

open Stopan.Lib Stopan.Common Stopan.Packs

section Intact

variable {blake3 : Blake3} {keys : StoreKeys} {known : Bytes → Prop} {files after : StoreFiles}
  {encoded : EncodedMetadataObject}
  {objects : List EncodedMetadataObject} {catalogHash objectHash : Text}

/-- Neither digest confuses two of the objects that a store is used with. -/
structure Separate (blake3 : Blake3) (keys : StoreKeys) (known : Bytes → Prop) : Prop where
  contents : CollisionFree blake3 known
  ids : ∀ left right, known left → known right →
    idOf keys (blake3HexDigest blake3 left) = idOf keys (blake3HexDigest blake3 right) →
    blake3HexDigest blake3 left = blake3HexDigest blake3 right

/-- Every file with the name of an object can be read as one of the known objects. -/
def Intact (blake3 : Blake3) (keys : StoreKeys) (known : Bytes → Prop)
    (files : StoreFiles) : Prop :=
  ∀ id, (files.get? (objectPath id)).isSome = true → ∃ data, known data ∧
    idOf keys (blake3HexDigest blake3 data) = id ∧
    readObject blake3 keys files (blake3HexDigest blake3 data) = .ok data

/-- What holds between any two operations on the files. -/
structure Sound (blake3 : Blake3) (keys : StoreKeys) (known : Bytes → Prop)
    (files : StoreFiles) : Prop where
  intact : Intact blake3 keys known files
  published : Published blake3 keys files

theorem Intact.congr (intact : Intact blake3 keys known files)
    (same : ∀ id, after.get? (objectPath id) = files.get? (objectPath id)) :
    Intact blake3 keys known after := by
  intro id present
  rw [same id] at present
  obtain ⟨data, isKnown, identified, read⟩ := intact id present
  exact ⟨data, isKnown, identified, (readObject_congr (same _)).trans read⟩

/-- Nothing but the objects and the pointer matters. -/
theorem Sound.congr (sound : Sound blake3 keys known files)
    (latest : after.get? latestPath = files.get? latestPath)
    (same : ∀ id, after.get? (objectPath id) = files.get? (objectPath id)) :
    Sound blake3 keys known after := by
  refine ⟨sound.intact.congr same, sound.published.of_same latest fun objectHash data read => ?_⟩
  exact (readObject_congr (same _)).trans read

theorem Sound.ignoresTemps : IgnoresTemps (Sound blake3 keys known) := fun _ _ agrees sound =>
  sound.congr (agrees _ rfl) fun id => agrees _ (isTemp_objectPath id)

/-- A new file leaves every object that could be read as it was. -/
theorem readObject_set_new {data : Bytes} {path : StorePath} {entry : StoredEntry}
    (absent : files.get? path = none) (read : readObject blake3 keys files objectHash = .ok data) :
    readObject blake3 keys (files.set path entry) objectHash = .ok data := by
  have different : pathOf keys objectHash ≠ path := by
    rintro rfl
    have present := readObject_present read
    rw [absent] at present
    cases present
  exact (readObject_congr (Dict.get?_set_of_ne _ _ different)).trans read

theorem Sound.write (sound : Sound blake3 keys known files) (environment : StoreEnvironment)
    (inode : Nat) (isKnown : known encoded.canonicalBytes)
    (hashed : blake3HexDigest blake3 encoded.canonicalBytes = encoded.objectHash)
    (absent : files.get? (pathOf keys encoded.objectHash) = none) :
    Sound blake3 keys known (files.set (pathOf keys encoded.objectHash)
      (environment.objectEntry keys encoded inode)) := by
  have written : readObject blake3 keys
      (files.set (pathOf keys encoded.objectHash) (environment.objectEntry keys encoded inode))
      encoded.objectHash = .ok encoded.canonicalBytes :=
    readObject_written (environment.nonce_length (pathOf keys encoded.objectHash)) hashed
      (Dict.get?_set_self files _ _)
  refine ⟨fun id present => ?_, ?_⟩
  · by_cases same : objectPath id = pathOf keys encoded.objectHash
    · rw [objectPath_injective same, ← hashed] at *
      exact ⟨encoded.canonicalBytes, isKnown, rfl, hashed ▸ written⟩
    · rw [Dict.get?_set_of_ne _ _ same] at present
      obtain ⟨data, dataKnown, identified, read⟩ := sound.intact id present
      exact ⟨data, dataKnown, identified, readObject_set_new absent read⟩
  · apply sound.published.of_same
    · exact Dict.get?_set_of_ne _ _ (objectPath_ne_latestPath _).symm
    · exact fun objectHash data read => readObject_set_new absent read

/-- The bytes of the objects of a list, by their hashes. -/
def readListed (objects : List EncodedMetadataObject) (objectHash : Text) : Checked Bytes :=
  match objects.find? fun encoded => decide (encoded.objectHash = objectHash) with
  | some encoded => .ok encoded.canonicalBytes
  | none => .error (.store s!"metadata object no encontrado: {String.ofList objectHash}")

/-- Everything that the catalog reaches is in the list. -/
def ClosedFrom (blake3 : Blake3) (objects : List EncodedMetadataObject)
    (catalogHash : Text) : Prop :=
  ∀ objectHash, Relation.ReflTransGen
    (RefersTo blake3 (readListed objects)) catalogHash objectHash →
    ∃ encoded ∈ objects, encoded.objectHash = objectHash

theorem readListed_eq_ok {data : Bytes} (read : readListed objects objectHash = .ok data) :
    ∃ encoded ∈ objects, encoded.objectHash = objectHash ∧ encoded.canonicalBytes = data := by
  rw [readListed] at read
  cases found : objects.find? fun other => decide (other.objectHash = objectHash) with
  | none =>
      rw [found] at read
      cases read
  | some encoded =>
      rw [found] at read
      exact ⟨encoded, List.mem_of_find?_eq_some found, by simpa using List.find?_some found,
        Except.ok.inj read⟩

theorem visitPacked_listed {validated : Dict Text ValidatedPackObject} {label : MetadataObjectType}
    {references : List (MetadataObjectType × Text)}
    (visited : visitPacked validated objectHash label = .ok references) :
    objectHash ∈ validated.keys := by
  cases found : validated.get? objectHash with
  | none => simp [visitPacked, found] at visited
  | some object => exact (Dict.mem_keys_iff _ _).mpr ⟨object, found⟩

theorem visitPacked_stable (validated : Dict Text ValidatedPackObject) :
    GraphWalk.Stable (visitPacked validated) := by
  intro objectHash left right leftRefs rightRefs leftVisit rightVisit
  unfold visitPacked at leftVisit rightVisit
  cases found : validated.get? objectHash with
  | none =>
      rw [found] at leftVisit
      cases leftVisit
  | some object =>
      rw [found] at leftVisit rightVisit
      obtain ⟨-, leftListed⟩ := ensure_bind_eq_ok_iff.mp leftVisit
      obtain ⟨-, rightListed⟩ := ensure_bind_eq_ok_iff.mp rightVisit
      exact Except.ok.inj (leftListed.symm.trans rightListed)

/-- A reference between the parsed objects was followed by the parser. -/
theorem refersTo_packed {state : EntriesState} {referred : Text} (sound : state.Sound blake3)
    (listed : objects = state.objects.reverse)
    (refers : RefersTo blake3 (readListed objects) objectHash referred) :
    GraphWalk.Refers (visitPacked state.validated) objectHash referred := by
  obtain ⟨label, references, visited, member⟩ := refers
  obtain ⟨data, read, rest⟩ := bind_eq_ok_iff.mp visited
  obtain ⟨encoded, inside, rfl, rfl⟩ := readListed_eq_ok read
  rw [listed, List.mem_reverse] at inside
  obtain ⟨payload, decoded, found⟩ := sound.listed encoded inside
  rw [decoded, bind_ok] at rest
  obtain ⟨typed, followed⟩ := ensure_bind_eq_ok_iff.mp rest
  have same : encoded.objectType = label := of_decide_eq_true typed
  dsimp only at followed
  refine ⟨label, references, ?_, member⟩
  simp only [visitPacked, found, ensure, same, decide_true, if_true, bind_ok, followed]

/-- The objects of a parsed pack are closed: the parser walks the graph from its catalog. -/
theorem parsed_closed {payload : Fields} {parsed : ParsedPack}
    (accepted : parsePackPayload blake3 payload = .ok parsed) :
    ClosedFrom blake3 parsed.objects parsed.latest.catalogHash := by
  obtain ⟨state, sound, listed, graph⟩ := parsePackPayload_ok accepted
  obtain ⟨reachable, walked, -⟩ := bind_eq_ok_iff.mp graph
  have ended : GraphWalk.loop (visitPacked state.validated) packConflict
      (state.validated.length + 1)
      (GraphWalk.start parsed.latest.catalogHash .catalog) = some (.ok reachable) := by
    unfold reachablePacked at walked
    cases outcome : GraphWalk.loop (visitPacked state.validated) packConflict
        (state.validated.length + 1)
        (GraphWalk.start parsed.latest.catalogHash .catalog) with
    | none =>
        rw [outcome] at walked
        cases walked
    | some result =>
        rw [outcome] at walked
        exact congrArg some walked
  obtain ⟨exactly, visited⟩ := GraphWalk.loop_visits (visitPacked_stable state.validated) ended
  intro objectHash reached
  have packed : Relation.ReflTransGen
      (GraphWalk.Refers (visitPacked state.validated)) parsed.latest.catalogHash objectHash :=
    Relation.ReflTransGen.mono (fun _ _ refers => refersTo_packed sound listed refers) _ _ reached
  obtain ⟨label, references, read⟩ := visited objectHash ((exactly objectHash).mpr packed)
  obtain ⟨encoded, member, same⟩ := sound.covered objectHash (visitPacked_listed read)
  exact ⟨encoded, by rw [listed]; exact List.mem_reverse.mpr member, same⟩

end Intact

section Puts

variable {blake3 : Blake3} {keys : StoreKeys} {known : Bytes → Prop}
  {environment : StoreEnvironment}
  {objects finished : List EncodedMetadataObject} {encoded : EncodedMetadataObject}

/-- The store is sound, and the objects that were put are in it. -/
def Holding (blake3 : Blake3) (keys : StoreKeys) (known : Bytes → Prop)
    (finished : List EncodedMetadataObject) (files : StoreFiles) : Prop :=
  Sound blake3 keys known files ∧
    ∀ encoded ∈ finished, readObject blake3 keys files encoded.objectHash =
      .ok encoded.canonicalBytes

theorem Holding.ignoresTemps : IgnoresTemps (Holding blake3 keys known finished) := by
  intro files after agrees holding
  refine ⟨Sound.ignoresTemps files after agrees holding.1, fun encoded member => ?_⟩
  rw [readObject_congr (agrees _ (isTemp_pathOf keys _))]
  exact holding.2 encoded member

end Puts

section Collecting

variable {blake3 : Blake3} {keys : StoreKeys} {known : Bytes → Prop}
  {environment : StoreEnvironment} {files : StoreFiles}
  {liveIds : List Text} {latest : LatestMetadataPointer}

/-- The files while the sweep runs: what the root reaches has its id among the live ones. -/
structure Sweeping (blake3 : Blake3) (keys : StoreKeys) (known : Bytes → Prop)
    (latest : LatestMetadataPointer) (liveIds : List Text) (files : StoreFiles) : Prop where
  sound : Sound blake3 keys known files
  pointer : readLatestPointer keys files = .ok latest
  marked : ∀ objectHash, Reaches blake3 keys files latest.catalogHash objectHash →
    idOf keys objectHash ∈ liveIds

theorem Sweeping.erase (sweeping : Sweeping blake3 keys known latest liveIds files) {id : Text}
    (dead : id ∉ liveIds) :
    Sweeping blake3 keys known latest liveIds (files.erase (objectPath id)) := by
  have pointer : (files.erase (objectPath id)).get? latestPath = files.get? latestPath := by
    rw [Dict.get?_erase, if_neg (objectPath_ne_latestPath id).symm]
  have others : ∀ other, other ≠ id → (files.erase (objectPath id)).get? (objectPath other) =
      files.get? (objectPath other) := by
    intro other different
    rw [Dict.get?_erase, if_neg fun same => different (objectPath_injective same)]
  have live : ∀ objectHash, Reaches blake3 keys files latest.catalogHash objectHash →
      readObject blake3 keys (files.erase (objectPath id)) objectHash =
        readObject blake3 keys files objectHash :=
    fun objectHash reached => readObject_congr
      (others _ fun same => dead (same ▸ sweeping.marked objectHash reached))
  refine ⟨⟨fun other present => ?_, fun found read => ?_⟩,
    (readLatestPointer_congr pointer).trans sweeping.pointer,
    fun objectHash reached => sweeping.marked objectHash (reaches_of_same live reached)⟩
  · have different : other ≠ id := by
      rintro rfl
      rw [Dict.get?_erase, if_pos rfl] at present
      cases present
    rw [others other different] at present
    obtain ⟨data, isKnown, identified, read⟩ := sweeping.sound.intact other present
    refine ⟨data, isKnown, identified, (readObject_congr (others _ ?_)).trans read⟩
    rw [identified]
    exact different
  · rw [readLatestPointer_congr pointer, sweeping.pointer, Except.ok.injEq] at read
    subst read
    exact (sweeping.sound.published latest sweeping.pointer).of_same live

theorem wellNamed_path {path : StorePath} {directory name id : Text}
    (file : objectFileOf path = some (directory, name))
    (named : wellNamed directory name = some id) : path = objectPath id := by
  unfold objectFileOf at file
  split at file
  case h_2 => cases file
  case h_1 root folder text =>
    split at file
    case isFalse => cases file
    case isTrue shape =>
      cases file
      unfold wellNamed at named
      dsimp only at named
      split at named
      case isFalse => cases named
      case isTrue well =>
        cases named
        rw [objectPath, well.2.1, ← well.2.2, shape.1]

theorem getObjectBytes_untyped (blake3 : Blake3) (keys : StoreKeys) (files : StoreFiles) :
    (fun objectHash => getObjectBytes blake3 keys files objectHash none) =
      readObject blake3 keys files := by
  funext objectHash
  cases read : readObject blake3 keys files objectHash with
  | error reason => simp [getObjectBytes, read, bind, Except.bind]
  | ok data => simp [getObjectBytes, read, bind, Except.bind, pure, Except.pure]

/-- What the mark returns is what the root reaches. -/
theorem markLive_eq_ok {catalogHash : Text} {live : List Text}
    (valid : isValidBlake3Hex catalogHash = true)
    (marked : markLive blake3 keys catalogHash files = .ok live) (objectHash : Text) :
    objectHash ∈ live ↔ Reaches blake3 keys files catalogHash objectHash := by
  unfold markLive at marked
  rw [getObjectBytes_untyped] at marked
  cases walked : collectReachableObjectHashes blake3 catalogHash (readObject blake3 keys files)
    (files.length + 1) with
  | none =>
      rw [walked] at marked
      cases marked
  | some outcome =>
      rw [walked, Option.getD_some] at marked
      rw [marked] at walked
      exact (collectReachableObjectHashes_visits valid walked).1 objectHash

/-- The errors of a decryption do not matter to one that succeeds. -/
theorem openCiphertext_congr {raw : Fields} {label : String} {associated data : Bytes}
    {badAead tampered otherAead otherTampered : ObjectsError}
    (opened : openCiphertext keys raw label associated badAead tampered = .ok data) :
    openCiphertext keys raw label associated otherAead otherTampered = .ok data := by
  unfold openCiphertext at opened ⊢
  split at opened
  case h_2 => cases opened
  case h_1 aead named =>
    obtain ⟨name, rest⟩ := ensure_bind_eq_ok_iff.mp opened
    obtain ⟨nonce, nonceRead, rest⟩ := bind_eq_ok_iff.mp rest
    obtain ⟨ciphertext, ciphertextRead, rest⟩ := bind_eq_ok_iff.mp rest
    refine ensure_bind_eq_ok_iff.mpr ⟨name, bind_eq_ok_iff.mpr ⟨nonce, nonceRead,
      bind_eq_ok_iff.mpr ⟨ciphertext, ciphertextRead, ?_⟩⟩⟩
    cases plaintext : keys.aead.decrypt nonce ciphertext associated with
    | none => simp [plaintext] at rest
    | some found => simpa [plaintext] using rest

/-- One file is read as one object at most. -/
theorem readObject_unique {left right : Text} {leftData rightData : Bytes}
    (same : idOf keys left = idOf keys right)
    (leftRead : readObject blake3 keys files left = .ok leftData)
    (rightRead : readObject blake3 keys files right = .ok rightData) :
    left = right := by
  rw [← readObject_hash leftRead, ← readObject_hash rightRead]
  rw [readObject, storageId_of_valid keys (readObject_valid leftRead), bind_ok] at leftRead
  rw [readObject, storageId_of_valid keys (readObject_valid rightRead), bind_ok,
    ← same] at rightRead
  obtain ⟨-, leftRest⟩ := ensure_bind_eq_ok_iff.mp leftRead
  obtain ⟨raw, loaded, leftRest⟩ := bind_eq_ok_iff.mp leftRest
  obtain ⟨-, leftRest⟩ := ensure_bind_eq_ok_iff.mp leftRest
  obtain ⟨-, leftRest⟩ := ensure_bind_eq_ok_iff.mp leftRest
  obtain ⟨-, leftRest⟩ := ensure_bind_eq_ok_iff.mp leftRest
  obtain ⟨leftText, leftOpened, leftRest⟩ := bind_eq_ok_iff.mp leftRest
  obtain ⟨-, leftReturned⟩ := ensure_bind_eq_ok_iff.mp leftRest
  obtain ⟨-, rightRest⟩ := ensure_bind_eq_ok_iff.mp rightRead
  obtain ⟨otherRaw, otherLoaded, rightRest⟩ := bind_eq_ok_iff.mp rightRest
  obtain ⟨-, rightRest⟩ := ensure_bind_eq_ok_iff.mp rightRest
  obtain ⟨-, rightRest⟩ := ensure_bind_eq_ok_iff.mp rightRest
  obtain ⟨-, rightRest⟩ := ensure_bind_eq_ok_iff.mp rightRest
  obtain ⟨rightText, rightOpened, rightRest⟩ := bind_eq_ok_iff.mp rightRest
  obtain ⟨-, rightReturned⟩ := ensure_bind_eq_ok_iff.mp rightRest
  cases loaded.symm.trans otherLoaded
  cases pure_eq_ok_iff.mp leftReturned
  cases pure_eq_ok_iff.mp rightReturned
  rw [openCiphertext_congr leftOpened, Except.ok.injEq] at rightOpened
  rw [rightOpened]

/-- The mark reads distinct files, so its budget suffices. -/
theorem markLive_ends (blake3 : Blake3) (keys : StoreKeys) (files : StoreFiles)
    (catalogHash : Text) :
    ∃ outcome, collectReachableObjectHashes blake3 catalogHash
      (fun objectHash => getObjectBytes blake3 keys files objectHash none)
        (files.length + 1) = some outcome := by
  classical
  rw [getObjectBytes_untyped, collectReachableObjectHashes]
  split
  · exact ⟨_, rfl⟩
  rename_i root _
  let readable : StorePath → Option Text := fun path =>
    if found : ∃ objectHash data, pathOf keys objectHash = path ∧
      readObject blake3 keys files objectHash = .ok data
    then some found.choose else none
  apply GraphWalk.loop_ends (files.keys.filterMap readable)
  · intro objectHash label references visited
    obtain ⟨data, read, -⟩ := bind_eq_ok_iff.mp visited
    have found : ∃ other data, pathOf keys other = pathOf keys objectHash ∧
        readObject blake3 keys files other = .ok data :=
      ⟨objectHash, data, rfl, read⟩
    obtain ⟨otherData, same, otherRead⟩ := found.choose_spec
    obtain ⟨entry, present⟩ := Option.isSome_iff_exists.mp (readObject_present read)
    refine List.mem_filterMap.mpr ⟨pathOf keys objectHash,
      (Dict.mem_keys_iff _ _).mpr ⟨entry, present⟩, ?_⟩
    simp only [readable, dif_pos found]
    exact congrArg some (readObject_unique (objectPath_injective same) otherRead read)
  · refine Nat.lt_succ_of_le
      ((List.length_filter_le _ _).trans ((List.length_filterMap_le readable files.keys).trans ?_))
    simp [Dict.keys, Dict.length]

end Collecting

section Removal

variable {blake3 : Blake3} {keys : StoreKeys} {environment : StoreEnvironment} {files : StoreFiles}
  {liveIds : List Text}
  {cutoff : Int} {path : StorePath}

/-- The size of a file that the sweep takes for a candidate: well named, of no live object, and
old. -/
def candidateSize (liveIds : List Text) (cutoff : Int) (files : StoreFiles)
    (path : StorePath) : Option Nat :=
  match objectFileOf path with
  | none => none
  | some (directory, name) =>
      match wellNamed directory name with
      | none => none
      | some id =>
          if liveIds.contains id then none
          else
            match files.get? path with
            | some (.file file) => if cutoff < file.mtime then none else some file.data.length
            | _ => none

theorem objectFileOf_objectPath {id : Text} (valid : isLowerHex 64 id = true) :
    objectFileOf (objectPath id) = some (id.take 2, id ++ objectSuffix) ∧
      wellNamed (id.take 2) (id ++ objectSuffix) = some id := by
  have length : id.length = 64 := by
    simp only [isLowerHex, Bool.and_eq_true, decide_eq_true_eq] at valid
    exact valid.1
  constructor
  · rw [objectPath, objectFileOf, if_pos]
    exact ⟨rfl, by simp [length],
      List.isSuffixOf_iff_suffix.mpr (List.suffix_append id objectSuffix)⟩
  · simp [wellNamed, valid]

theorem candidateSize_eq_some {size : Nat} : candidateSize liveIds cutoff files path = some size ↔
    ∃ id file, path = objectPath id ∧ isLowerHex 64 id = true ∧ id ∉ liveIds ∧
      files.get? path = some (.file file) ∧ file.mtime ≤ cutoff ∧ file.data.length = size := by
  constructor
  · intro candidate
    unfold candidateSize at candidate
    split at candidate
    case h_1 => cases candidate
    case h_2 directory name file =>
      split at candidate
      case h_1 => cases candidate
      case h_2 id named =>
        have hex : isLowerHex 64 id = true := by
          unfold wellNamed at named
          dsimp only at named
          split at named
          case isFalse => cases named
          case isTrue well =>
            cases named
            exact well.1
        split at candidate
        case isTrue => cases candidate
        case isFalse dead =>
          split at candidate
          case h_2 => cases candidate
          case h_1 found present =>
            split at candidate
            case isTrue => cases candidate
            case isFalse old =>
              cases candidate
              exact ⟨id, found, wellNamed_path file named, hex, by simpa using dead, present,
                Int.not_lt.mp old, rfl⟩
  · rintro ⟨id, file, rfl, hex, dead, present, old, rfl⟩
    obtain ⟨shape, named⟩ := objectFileOf_objectPath hex
    simp only [candidateSize, shape, named, List.contains_iff_mem, dead, if_false, present,
      if_neg (Int.not_lt.mpr old)]

/-- The counters of a sweep over candidates of these sizes. -/
structure Swept (dryRun : Bool) (sizes : List Nat) (before after : ObjectSweepStats) : Prop where
  filesCollectable : after.filesCollectable = before.filesCollectable + sizes.length
  bytesCollectable : after.bytesCollectable = before.bytesCollectable + sizes.sum
  filesDeleted : after.filesDeleted = before.filesDeleted + if dryRun then 0 else sizes.length
  bytesDeleted : after.bytesDeleted = before.bytesDeleted + if dryRun then 0 else sizes.sum

theorem Swept.trans {dryRun : Bool} {sizes more : List Nat} {before middle after : ObjectSweepStats}
    (first : Swept dryRun sizes before middle) (second : Swept dryRun more middle after) :
    Swept dryRun (sizes ++ more) before after := by
  obtain ⟨files, bytes, deleted, deletedBytes⟩ := first
  obtain ⟨moreFiles, moreBytes, moreDeleted, moreDeletedBytes⟩ := second
  constructor
  · rw [moreFiles, files, List.length_append, Nat.add_assoc]
  · rw [moreBytes, bytes, List.sum_append, Nat.add_assoc]
  · rw [moreDeleted, deleted, List.length_append]
    split <;> omega
  · rw [moreDeletedBytes, deletedBytes, List.sum_append]
    split <;> omega

/-- What one file of the sweep leaves when nothing fails. -/
def sweptFiles (dryRun : Bool) (files : StoreFiles) (path : StorePath) (size : Option Nat) :
    StoreFiles :=
  if dryRun || size.isNone then files else files.erase path

/-- A file that is no candidate changes none of the counters. -/
theorem Swept.skip {dryRun : Bool} {before after : ObjectSweepStats}
    (files : after.filesCollectable = before.filesCollectable)
    (bytes : after.bytesCollectable = before.bytesCollectable)
    (deleted : after.filesDeleted = before.filesDeleted)
    (deletedBytes : after.bytesDeleted = before.bytesDeleted) : Swept dryRun [] before after := by
  constructor <;> simp [files, bytes, deleted, deletedBytes]

theorem returns_lookUp {β : Type} {found : Option StoredEntry}
    {next : Option StoredEntry → StoreTask β} {result : β}
    {after : StoreFiles} (present : files.get? path = found) :
    (Task.inspect (fun files : StoreFiles => Except.ok (files.get? path)) >>=
      next).Returns files result after ↔ (next found).Returns files result after :=
  Task.returns_inspect_bind (congrArg Except.ok present)

theorem unlinkCandidate_returns {file : StoredFile}
    (unlinks : environment.fails (.unlink path) = none)
    (present : files.get? path = some (.file file)) (stats : ObjectSweepStats) :
    (unlinkCandidate environment path file stats).Returns files
      { stats with filesDeleted := stats.filesDeleted + 1,
                   bytesDeleted := stats.bytesDeleted + file.data.length }
      (files.erase path) := by
  refine (returns_lookUp present).mpr ?_
  simp only [ne_eq, not_true_eq_false, if_false, unlinks]
  exact Task.returns_operate_bind.mpr (Task.returns_pure_iff.mpr ⟨rfl, rfl⟩)

theorem sweepFile_returns (unlinks : environment.fails (.unlink path) = none) (dryRun : Bool)
    {directory name : Text}
    (file : objectFileOf path = some (directory, name)) (seen : ObjectSweepStats) :
    ∃ stats, (sweepFile environment liveIds cutoff dryRun path directory name seen).Returns files
        stats
        (sweptFiles dryRun files path (candidateSize liveIds cutoff files path)) ∧
      Swept dryRun (candidateSize liveIds cutoff files path).toList seen stats := by
  unfold sweepFile candidateSize
  simp only [file]
  cases named : wellNamed directory name with
  | none => exact ⟨_, Task.returns_pure_iff.mpr ⟨rfl, by simp [sweptFiles]⟩, .skip rfl rfl rfl rfl⟩
  | some id =>
      dsimp only
      split
      · exact ⟨_, Task.returns_pure_iff.mpr ⟨rfl, by simp [sweptFiles]⟩, .skip rfl rfl rfl rfl⟩
      cases present : files.get? path with
      | none =>
          refine ⟨_, (returns_lookUp present).mpr
            (Task.returns_pure_iff.mpr ⟨rfl, by simp [sweptFiles]⟩), .skip rfl rfl rfl rfl⟩
      | some entry =>
          cases entry with
          | other =>
              refine ⟨_, (returns_lookUp present).mpr
                (Task.returns_pure_iff.mpr ⟨rfl, by simp [sweptFiles]⟩), .skip rfl rfl rfl rfl⟩
          | file stored =>
              simp only [returns_lookUp present]
              by_cases young : cutoff < stored.mtime
              · simp only [young, if_true]
                exact ⟨_, Task.returns_pure_iff.mpr ⟨rfl, by simp [sweptFiles]⟩,
                  .skip rfl rfl rfl rfl⟩
              · simp only [young, if_false]
                cases dryRun with
                | true => exact ⟨_, Task.returns_pure_iff.mpr ⟨rfl, by simp [sweptFiles]⟩,
                  ⟨rfl, by simp, rfl, rfl⟩⟩
                | false => exact ⟨_, unlinkCandidate_returns unlinks present _,
                  ⟨rfl, by simp, rfl, by simp⟩⟩

/-- Taking a candidate away leaves the others as they are. -/
theorem candidateSize_swept {other : StorePath} {size : Option Nat} (dryRun : Bool)
    (different : other ≠ path) :
    candidateSize liveIds cutoff (sweptFiles dryRun files path size) other =
      candidateSize liveIds cutoff files other := by
  unfold sweptFiles
  split
  · rfl
  · simp only [candidateSize, Dict.get?_erase, if_neg different]

/-- The sweep of distinct paths takes the candidates away, and counts them. -/
theorem sweepObjects_returns (unlinks : ∀ path, environment.fails (.unlink path) = none)
    (dryRun : Bool)
    {listing : List StorePath} (distinct : listing.Nodup) (seen : ObjectSweepStats) :
    ∃ stats after,
      (sweepObjects environment liveIds cutoff dryRun listing seen).Returns files stats after ∧
      Swept dryRun (listing.filterMap (candidateSize liveIds cutoff files)) seen stats ∧
      ∀ path, after.get? path = if dryRun = false ∧ path ∈ listing ∧
        (candidateSize liveIds cutoff files path).isSome = true
        then none else files.get? path := by
  induction listing generalizing files seen with
  | nil => exact ⟨seen, files, Task.returns_pure_iff.mpr ⟨rfl, rfl⟩, .skip rfl rfl rfl rfl,
    fun path => by simp⟩
  | cons path rest ih =>
      obtain ⟨fresh, distinctRest⟩ := List.nodup_cons.mp distinct
      rw [sweepObjects]
      cases file : objectFileOf path with
      | none =>
          have skipped : candidateSize liveIds cutoff files path = none := by
            simp [candidateSize, file]
          obtain ⟨stats, after, returns, swept, left⟩ := @ih files distinctRest seen
          refine ⟨stats, after, returns, ?_, fun other => ?_⟩
          · rw [List.filterMap_cons_none skipped]
            exact swept
          · rw [left other]
            by_cases same : other = path
            · subst same
              simp [skipped]
            · simp [same]
      | some named =>
          obtain ⟨directory, name⟩ := named
          obtain ⟨middle, returned, first⟩ :
              ∃ stats, (sweepFile environment liveIds cutoff dryRun path directory name
                seen).Returns files stats
                  (sweptFiles dryRun files path (candidateSize liveIds cutoff files path)) ∧
                Swept dryRun (candidateSize liveIds cutoff files path).toList seen stats :=
            sweepFile_returns (unlinks path) dryRun file seen
          obtain ⟨stats, after, returns, swept, left⟩ :=
            @ih (sweptFiles dryRun files path (candidateSize liveIds cutoff files path))
              distinctRest middle
          refine ⟨stats, after, Task.returns_bind_iff.mpr ⟨_, _, returned, returns⟩,
            ?_, fun other => ?_⟩
          · have later : rest.filterMap (candidateSize liveIds cutoff
                (sweptFiles dryRun files path (candidateSize liveIds cutoff files path))) =
                rest.filterMap (candidateSize liveIds cutoff files) := by
              apply List.filterMap_congr
              intro other member
              exact candidateSize_swept dryRun fun same => fresh (same ▸ member)
            rw [later] at swept
            have whole := first.trans swept
            cases size : candidateSize liveIds cutoff files path with
            | none => simpa [List.filterMap_cons_none size, size] using whole
            | some bytes => simpa [List.filterMap_cons_some size, size] using whole
          · rw [left other]
            by_cases same : other = path
            · subst same
              rw [if_neg fun listed => fresh listed.2.1]
              cases size : candidateSize liveIds cutoff files other with
              | none => simp [sweptFiles]
              | some bytes => cases dryRun <;> simp [sweptFiles, Dict.get?_erase]
            · rw [candidateSize_swept dryRun same]
              have kept : (sweptFiles dryRun files path
                  (candidateSize liveIds cutoff files path)).get? other = files.get? other := by
                unfold sweptFiles
                split
                · rfl
                · rw [Dict.get?_erase, if_neg same]
              simp [kept, same]

/-- A file that a collection may remove: no object that the root reaches has its name, and it is
old. -/
def Unreached (blake3 : Blake3) (keys : StoreKeys) (files : StoreFiles) (root : Text) (cutoff : Int)
    (path : StorePath) : Prop :=
  ∃ id file, path = objectPath id ∧ isLowerHex 64 id = true ∧
    (∀ objectHash, Reaches blake3 keys files root objectHash → idOf keys objectHash ≠ id) ∧
    files.get? path = some (.file file) ∧ file.mtime ≤ cutoff

theorem candidateSize_isSome_iff {root : Text} {live : List Text}
    (exactly : ∀ objectHash, objectHash ∈ live ↔ Reaches blake3 keys files root objectHash) :
    (candidateSize (live.map (idOf keys)) cutoff files path).isSome = true ↔
      Unreached blake3 keys files root cutoff path := by
  simp only [Option.isSome_iff_exists, candidateSize_eq_some, Unreached, List.mem_map,
    not_exists, not_and, exactly]
  constructor
  · rintro ⟨size, id, file, named, hex, dead, present, old, -⟩
    exact ⟨id, file, named, hex, dead, present, old⟩
  · rintro ⟨id, file, named, hex, dead, present, old⟩
    exact ⟨_, id, file, named, hex, dead, present, old, rfl⟩

/-- A collection that returns, when nothing that it unlinks resists: it keeps what the root reaches
and what is young, removes every other listed object, and counts them; a dry run counts the same and
removes nothing. -/
theorem collect_removesUnreached (unlinks : ∀ path, environment.fails (.unlink path) = none)
    {request : CollectRequest} (included : request.includeObjects = true)
    (distinct : request.listing.Nodup) {live : List Text} {stats : ObjectSweepStats}
    (returned : (collect blake3 keys environment request files).result = .ok (live, stats)) :
    ∃ latest, readLatestPointer keys files = .ok latest ∧
      (∀ objectHash, objectHash ∈ live ↔ Reaches blake3 keys files latest.catalogHash objectHash) ∧
      (∀ path, (collect blake3 keys environment request files).final.get? path ≠ files.get? path ↔
        request.dryRun = false ∧ path ∈ request.listing ∧
          Unreached blake3 keys files latest.catalogHash
          (environment.now - request.objectGraceSeconds * nanosecondsPerSecond) path) ∧
      (∀ path, (collect blake3 keys environment request files).final.get? path ≠ files.get? path →
        (collect blake3 keys environment request files).final.get? path = none) ∧
      Swept request.dryRun (request.listing.filterMap (candidateSize (live.map (idOf keys))
        (environment.now - request.objectGraceSeconds * nanosecondsPerSecond) files))
          .start stats := by
  have returns : (collect blake3 keys environment request).Returns files (live, stats)
      (collect blake3 keys environment request files).final := ⟨returned, rfl⟩
  generalize (collect blake3 keys environment request files).final = after at returns ⊢
  obtain ⟨latest, middle, ⟨pointer, rfl⟩, returns⟩ := Task.returns_bind_iff.mp returns
  obtain ⟨marked, middle, ⟨walked, rfl⟩, returns⟩ := Task.returns_bind_iff.mp returns
  rw [if_pos included] at returns
  obtain ⟨swept, middle, ran, rest⟩ := Task.returns_bind_iff.mp returns
  obtain ⟨same, rfl⟩ := Task.returns_pure_iff.mp rest
  cases same
  generalize environment.now - request.objectGraceSeconds * nanosecondsPerSecond = cutoff at ran ⊢
  have exactly : ∀ objectHash, objectHash ∈ live ↔
      Reaches blake3 keys files latest.catalogHash objectHash :=
    markLive_eq_ok latest.catalog_valid walked
  change Task.Returns
    (sweepObjects environment
      (live.map (idOf keys)) cutoff request.dryRun request.listing .start) files stats
    middle at ran
  obtain ⟨counted, after, ranTo, counts, entries⟩ :
      ∃ counted after,
          (sweepObjects environment
            (live.map (idOf keys)) cutoff request.dryRun request.listing .start).Returns
          files counted after ∧
        Swept request.dryRun
          (request.listing.filterMap (candidateSize (live.map (idOf keys)) cutoff files))
            .start counted ∧
        ∀ path, after.get? path = if request.dryRun = false ∧ path ∈ request.listing ∧
          (candidateSize (live.map (idOf keys)) cutoff files path).isSome = true then none
            else files.get? path :=
    sweepObjects_returns unlinks request.dryRun distinct .start
  cases ran.1.symm.trans ranTo.1
  cases ran.2.symm.trans ranTo.2
  have present : ∀ path, Unreached blake3 keys files latest.catalogHash cutoff path →
      files.get? path ≠ none := by
    rintro path ⟨id, file, -, -, -, stored, -⟩
    rw [stored]
    exact Option.some_ne_none _
  refine ⟨latest, pointer, exactly, fun path => ?_, fun path changed => ?_, counts⟩
  · rw [entries path, ← candidateSize_isSome_iff exactly]
    split
    case isTrue removed =>
      exact ⟨fun _ => removed,
        fun _ same => present path ((candidateSize_isSome_iff exactly).mp removed.2.2) same.symm⟩
    case isFalse kept =>
        exact ⟨fun changed => absurd rfl changed, fun removed => absurd removed kept⟩
  · rw [entries path] at changed ⊢
    split
    case isTrue => rfl
    case isFalse kept => exact absurd (if_neg kept) changed

end Removal

section Runs

variable {blake3 : Blake3} {keys : StoreKeys} {known : Bytes → Prop} {files after : StoreFiles}

end Runs

namespace CollectedCatalog

open EmptyCatalog hiding keys

/-- An object that was put by an export that did not reach its pointer. -/
def leftover : EncodedMetadataObject where
  objectType := .chunkList
  objectHash := chunkListHash
  canonicalBytes := canonicalObjectBytes emptyChunkList

def objects : List EncodedMetadataObject := graph.objects.values ++ [leftover]

/-- What the files of the store hold. -/
def plaintexts : List Bytes :=
  canonicalJsonBytes graph.latest.toJson :: objects.map (·.canonicalBytes)

/-- A stand-in for the cipher, which writes what the files of the store hold as a number. -/
def aead : Aead where
  encrypt _ data _ := if data ∈ plaintexts then [0, UInt8.ofNat (plaintexts.idxOf data)]
    else 1 :: data
  decrypt _ ciphertext _ :=
    match ciphertext with
    | 1 :: data => some data
    | [0, index] => plaintexts[index.toNat]?
    | _ => none
  decrypt_encrypt _ data _ _ := by
    by_cases member : data ∈ plaintexts
    · have inside : plaintexts.idxOf data < 5 := List.idxOf_lt_length_of_mem member
      have index : (UInt8.ofNat (plaintexts.idxOf data)).toNat = plaintexts.idxOf data :=
        UInt8.toNat_ofNat_of_lt' (by change _ < 256; omega)
      rw [if_pos member]
      simp only [index]
      exact List.getElem?_idxOf member
    · rw [if_neg member]
      rfl

def keys : StoreKeys where
  aead := aead
  keyed := keyed

def known (data : Bytes) : Prop := data ∈ objects.map (·.canonicalBytes)

theorem separate : Separate blake3 keys known := by
  have named : ∀ encoded ∈ objects,
      blake3HexDigest blake3 encoded.canonicalBytes = encoded.objectHash := by
    intro encoded member
    rcases List.mem_append.mp member with inside | last
    · rw [← encodedObjects] at inside
      obtain ⟨object, -, rfl⟩ := List.mem_map.mp inside
      rfl
    · obtain rfl := List.mem_singleton.mp last
      decide +kernel
  have distinct : (objects.map fun encoded => idOf keys encoded.objectHash).Nodup := by
    decide +kernel
  have same : ∀ left right, known left → known right → idOf keys (blake3HexDigest blake3 left) =
      idOf keys (blake3HexDigest blake3 right) → left = right := by
    intro left right leftKnown rightKnown equal
    obtain ⟨first, firstIn, rfl⟩ := List.mem_map.mp leftKnown
    obtain ⟨second, secondIn, rfl⟩ := List.mem_map.mp rightKnown
    rw [named first firstIn, named second secondIn] at equal
    rw [List.inj_on_of_nodup_map distinct firstIn secondIn equal]
  exact {
    contents left right leftKnown rightKnown equal :=
      same left right leftKnown rightKnown (congrArg (idOf keys) equal)
    ids left right leftKnown rightKnown equal :=
      congrArg (blake3HexDigest blake3) (same left right leftKnown rightKnown equal) }

theorem closed : ClosedFrom blake3 graph.objects.values graph.catalogHash := by
  rw [← parsed_objects]
  exact parsed_closed payload_parsed

def orphan : StorePath := pathOf keys chunkListHash

def request : CollectRequest where
  objectGraceSeconds := 0
  dryRun := false
  includeObjects := true
  listing := [orphan]

/-- The store before the catalog is first put. -/
def initial : StoreFiles := (putObjectsBatch blake3 keys environment [leftover] .empty).final

/-- The catalog is put until a moment; two of its objects are there after the eighth operation. -/
def putUntil (stopsAt : Nat) : StoreRun := { operation := .putGraph graph, environment, stopsAt }

def collection : StoreRun := { operation := .collect request, environment, stopsAt := 1 }

def storedWithOrphan : StoreFiles := (putGraph blake3 keys environment graph initial).final

def orphanStats : ObjectSweepStats :=
  { ObjectSweepStats.start with
    filesSeen := 1
    filesCollectable := 1
    filesDeleted := 1
    bytesCollectable := 219
    bytesDeleted := 219 }

/-- The orphan goes with the collection at the end of the runs, and with one that returns. -/
theorem collections_seen : (initial.get? orphan).isSome = true ∧
    ((runEvents (storeStep blake3 keys) initial
      [putUntil 8, putUntil 9, collection]).map fun after =>
        ((after.get? orphan).isSome, (readLatestPointer keys after).isOk)) = some (false, true) ∧
    (collect blake3 keys environment request storedWithOrphan).result =
      .ok ([knownChunkIndexHash, snapshotIndexHash, catalogHash], orphanStats) := by
  decide +kernel

/-- The collection takes the unreached object away, and counts it. -/
theorem orphan_collected :
    (collect blake3 keys environment request storedWithOrphan).result =
      .ok ([knownChunkIndexHash, snapshotIndexHash, catalogHash], orphanStats) ∧
    (storedWithOrphan.get? orphan).isSome = true ∧
    (collect blake3 keys environment request storedWithOrphan).final.get? orphan = none := by
  have unlinks : ∀ path, environment.fails (.unlink path) = none := fun _ => rfl
  have included : request.includeObjects = true := rfl
  have returned := collections_seen.2.2
  obtain ⟨latest, -, exactly, removed, gone, swept⟩ :=
    collect_removesUnreached unlinks included (List.nodup_singleton orphan) returned
  have candidate : (candidateSize
      ([knownChunkIndexHash, snapshotIndexHash, catalogHash].map (idOf keys))
      (environment.now - request.objectGraceSeconds * nanosecondsPerSecond) storedWithOrphan
        orphan).isSome = true := by
    rw [Option.isSome_iff_ne_none]
    intro absent
    have none := swept.filesCollectable
    have listed : request.listing = [orphan] := rfl
    rw [listed, List.filterMap_cons_none absent] at none
    cases none
  have unreached := (candidateSize_isSome_iff exactly).mp candidate
  obtain ⟨-, file, -, -, -, present, -⟩ := id unreached
  exact ⟨returned, by rw [present]; rfl,
    gone orphan ((removed orphan).mpr ⟨rfl, List.mem_singleton_self _, unreached⟩)⟩

end CollectedCatalog

end Stopan.Objects
