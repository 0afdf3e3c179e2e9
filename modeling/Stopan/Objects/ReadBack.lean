import Stopan.Objects.StoreWrites

namespace Stopan.Objects

open Stopan.Lib Stopan.Common

theorem objectPath_injective {left right : Text} (same : objectPath left = objectPath right) :
    left = right := by
  simp only [objectPath, List.cons.injEq, true_and, and_true] at same
  exact List.append_cancel_right same.2

theorem objectPath_ne_latestPath (id : Text) : objectPath id ≠ latestPath := by
  simp [objectPath, latestPath]

/-- Keyed BLAKE3 gives different names to the objects of the list. -/
def DistinctIds (keys : StoreKeys) (objects : List EncodedMetadataObject) : Prop :=
  ∀ left ∈ objects, ∀ right ∈ objects, idOf keys left.objectHash = idOf keys right.objectHash →
    left.objectHash = right.objectHash

/-- The files after the first objects of a list have been put: new objects are there, and the
files of the other objects are as they were. -/
structure Progress (blake3 : Blake3) (keys : StoreKeys) (initial : StoreFiles)
    (objects finished : List EncodedMetadataObject) (files : StoreFiles) : Prop where
  written : ∀ encoded ∈ finished, initial.get? (pathOf keys encoded.objectHash) = none →
    readObject blake3 keys files encoded.objectHash = .ok encoded.canonicalBytes
  kept : ∀ encoded ∈ objects,
    (initial.get? (pathOf keys encoded.objectHash)).isSome = true ∨
    encoded.objectHash ∉ finished.map (·.objectHash) →
    files.get? (pathOf keys encoded.objectHash) = initial.get? (pathOf keys encoded.objectHash)

section Batch

variable {blake3 : Blake3} {keys : StoreKeys} {environment : StoreEnvironment}
  {initial files : StoreFiles}
  {objects finished : List EncodedMetadataObject} {encoded : EncodedMetadataObject}

theorem Progress.ignoresTemps : IgnoresTemps (Progress blake3 keys initial objects finished) := by
  intro files after agrees progress
  refine ⟨fun encoded member absent => ?_, fun encoded member condition => ?_⟩
  · rw [readObject_congr (agrees _ (isTemp_pathOf keys _))]
    exact progress.written encoded member absent
  · rw [agrees _ (isTemp_pathOf keys _)]
    exact progress.kept encoded member condition

theorem Progress.start : Progress blake3 keys initial objects [] initial :=
  ⟨fun _ member => (by cases member), fun _ _ _ => rfl⟩

/-- An object that has been put has its file. -/
theorem Progress.present (progress : Progress blake3 keys initial objects finished files)
    (member : encoded ∈ objects) (done : encoded.objectHash ∈ finished.map (·.objectHash)) :
    (files.get? (pathOf keys encoded.objectHash)).isSome = true := by
  cases old : initial.get? (pathOf keys encoded.objectHash) with
  | some entry =>
      rw [progress.kept encoded member (.inl (by simp [old])), old]
      rfl
  | none =>
      obtain ⟨other, inside, same⟩ := List.mem_map.mp done
      have read := progress.written other inside (same ▸ old)
      exact same ▸ readObject_present read

theorem Progress.reuse (progress : Progress blake3 keys initial objects finished files)
    (member : encoded ∈ objects)
    (matching : ∀ other ∈ objects, other.objectHash = encoded.objectHash → other = encoded)
    (inside : ∀ other ∈ finished, other ∈ objects)
    (exists_ : (files.get? (pathOf keys encoded.objectHash)).isSome = true) :
    Progress blake3 keys initial objects (finished ++ [encoded]) files := by
  refine ⟨fun other listed absent => ?_, fun other listed condition => ?_⟩
  · rcases List.mem_append.mp listed with early | last
    · exact progress.written other early absent
    · obtain rfl := List.mem_singleton.mp last
      by_cases done : other.objectHash ∈ finished.map (·.objectHash)
      · obtain ⟨earlier, before, same⟩ := List.mem_map.mp done
        obtain rfl := matching earlier (inside earlier before) same
        exact progress.written earlier before absent
      · rw [progress.kept other member (.inr done), absent] at exists_
        cases exists_
  · apply progress.kept other listed
    apply condition.imp_right
    intro missing done
    exact missing (by simp only [List.map_append, List.mem_append]; exact .inl done)

theorem Progress.write (progress : Progress blake3 keys initial objects finished files)
    (member : encoded ∈ objects)
    (distinct : DistinctIds keys objects) (inside : ∀ other ∈ finished, other ∈ objects)
    (hashed : blake3HexDigest blake3 encoded.canonicalBytes = encoded.objectHash)
    (absent : files.get? (pathOf keys encoded.objectHash) = none) (inode : Nat) :
    Progress blake3 keys initial objects (finished ++ [encoded])
      (files.set (pathOf keys encoded.objectHash)
        (environment.objectEntry keys encoded inode)) := by
  have apart : ∀ other ∈ objects, other.objectHash ≠ encoded.objectHash →
      pathOf keys other.objectHash ≠ pathOf keys encoded.objectHash := by
    intro other listed different same
    exact different (distinct other listed encoded member (objectPath_injective same))
  refine ⟨fun other listed wasAbsent => ?_, fun other listed condition => ?_⟩
  · rcases List.mem_append.mp listed with early | last
    · have read := progress.written other early wasAbsent
      have different : other.objectHash ≠ encoded.objectHash := by
        intro same
        rw [same] at read
        have exists_ := readObject_present read
        rw [absent] at exists_
        cases exists_
      rw [readObject_congr (Dict.get?_set_of_ne _ _ (apart other (inside other early) different))]
      exact read
    · obtain rfl := List.mem_singleton.mp last
      exact readObject_written (environment.nonce_length _) hashed (Dict.get?_set_self ..)
  · have different : other.objectHash ≠ encoded.objectHash := by
      intro same
      rcases condition with old | missing
      · have kept := progress.kept other listed (.inl old)
        rw [same, absent] at kept
        rw [same, ← kept] at old
        cases old
      · exact missing (by simp [same])
    rw [Dict.get?_set_of_ne _ _ (apart other listed different)]
    apply progress.kept other listed
    apply condition.imp_right
    intro missing done
    exact missing (by simp only [List.map_append, List.mem_append]; exact .inl done)

/-- The objects of a list whose hashes differ. -/
def DistinctHashes (objects : List EncodedMetadataObject) : Prop :=
  ∀ left ∈ objects, ∀ right ∈ objects, left.objectHash = right.objectHash → left = right

theorem mem_sortedByHash : encoded ∈ sortedByHash objects ↔ encoded ∈ objects := by
  rw [sortedByHash]
  exact (List.perm_insertionSort _ objects).mem_iff

theorem keeps_fsyncDirs {pre : StoreFiles → Prop} (paths : List StorePath) :
    Task.Keeps pre pre (Task.forEach (fsyncDir environment) paths) fun _ => pre :=
  Task.keeps_forEach (fun _ => pre) (fun _ _ holds => holds)
    (fun _ _ _ _ => keeps_prepare fun _ holds => ⟨holds, holds⟩) paths [] rfl

theorem keeps_putObjectsBatch_progress (distinct : DistinctIds keys objects)
    (matching : DistinctHashes objects) :
    Task.Keeps (fun _ => True) (Progress blake3 keys initial objects [])
      (putObjectsBatch blake3 keys environment objects)
      fun _ => Progress blake3 keys initial objects (sortedByHash objects) := by
  apply Task.Keeps.bind (fun _ => Progress blake3 keys initial objects (sortedByHash objects))
  · apply Task.keeps_forEach (Progress blake3 keys initial objects)
      (fun _ _ _ => trivial) ?_ _ [] rfl
    intro finished encoded rest whole
    have listed : ∀ other ∈ finished ++ encoded :: rest, other ∈ objects := by
      intro other member
      rw [← whole] at member
      exact mem_sortedByHash.mp member
    have member := listed encoded (by simp)
    have inside : ∀ other ∈ finished, other ∈ objects :=
      fun other early => listed other (List.mem_append_left _ early)
    apply keeps_putObjectNoParentFsync
      (fun _ _ _ _ => trivial) Progress.ignoresTemps Progress.ignoresTemps
      (fun _ _ => trivial)
    · intro files progress _ exists_
      exact progress.reuse member
        (fun other among same => matching other among encoded member same) inside exists_
    · intro files inode progress hashed absent
      exact ⟨trivial, progress.write member distinct inside hashed absent inode⟩
  intro results
  apply Task.Keeps.bind (fun _ => Progress blake3 keys initial objects (sortedByHash objects))
  · exact keeps_fsyncDirs (touchedDirs results) |>.weakenAlways fun _ _ => trivial
  intro _
  exact Task.keeps_done fun files progress => ⟨trivial, progress⟩

/-- A write elsewhere has no effect on the files of the objects. -/
theorem keeps_atomicWriteBytes_progress {path : StorePath}
    (apart : ∀ objectHash, pathOf keys objectHash ≠ path) (data : Bytes) (syncParentDir : Bool) :
    Task.Keeps (fun _ => True) (Progress blake3 keys initial objects finished)
      (atomicWriteBytes environment path data syncParentDir)
        fun _ => Progress blake3 keys initial objects finished := by
  apply keeps_atomicWriteBytes syncParentDir
    (fun _ _ _ _ => trivial) Progress.ignoresTemps Progress.ignoresTemps
    (fun _ _ => trivial)
  intro files inode progress
  refine ⟨trivial, fun encoded member absent => ?_, fun encoded member condition => ?_⟩
  · rw [readObject_congr (Dict.get?_set_of_ne _ _ (apart _))]
    exact progress.written encoded member absent
  · rw [Dict.get?_set_of_ne _ _ (apart _)]
    exact progress.kept encoded member condition

theorem keeps_writeLatestPointer_progress (latest : LatestMetadataPointer) :
    Task.Keeps (fun _ => True) (Progress blake3 keys initial objects finished)
      (writeLatestPointer keys environment latest)
      fun _ => Progress blake3 keys initial objects finished :=
  keeps_atomicWriteBytes_progress (fun _ => objectPath_ne_latestPath _) _ true

/-- Every object of the list is returned by the store with bytes of its hash. -/
def ReadsBack (blake3 : Blake3) (keys : StoreKeys) (files : StoreFiles)
    (objects : List EncodedMetadataObject) : Prop :=
  ∀ encoded ∈ objects, ∃ data, getObjectBytes blake3 keys files encoded.objectHash none = .ok data ∧
    blake3HexDigest blake3 data = encoded.objectHash

/-- The files that already have the name of an object of the list can be read as that object. -/
def OldFilesReadable (blake3 : Blake3) (keys : StoreKeys) (files : StoreFiles)
    (objects : List EncodedMetadataObject) : Prop :=
  ∀ encoded ∈ objects, (files.get? (pathOf keys encoded.objectHash)).isSome = true →
    ∃ data, getObjectBytes blake3 keys files encoded.objectHash none = .ok data

/-- All objects are read back exactly when those that had a file before could be read then. -/
theorem Progress.readBack_iff
    (progress : Progress blake3 keys initial objects (sortedByHash objects) files) :
    ReadsBack blake3 keys files objects ↔ OldFilesReadable blake3 keys initial objects := by
  have plain : ∀ files objectHash data,
      getObjectBytes blake3 keys files objectHash none = .ok data ↔
      readObject blake3 keys files objectHash = .ok data := by
    intro files objectHash data
    rw [getObjectBytes, bind_eq_ok_iff]
    simp [pure_eq_ok_iff]
  simp only [ReadsBack, OldFilesReadable, plain]
  constructor
  · intro all encoded member old
    obtain ⟨data, read, -⟩ := all encoded member
    rw [readObject_congr (progress.kept encoded member (.inl old))] at read
    exact ⟨data, read⟩
  · intro old encoded member
    cases before : initial.get? (pathOf keys encoded.objectHash) with
    | some entry =>
        obtain ⟨data, read⟩ := old encoded member (by simp [before])
        rw [← readObject_congr (progress.kept encoded member (.inl (by simp [before])))] at read
        exact ⟨data, read, readObject_hash read⟩
    | none =>
        have read := progress.written encoded (mem_sortedByHash.mpr member) before
        exact ⟨_, read, readObject_hash read⟩

end Batch

end Stopan.Objects
