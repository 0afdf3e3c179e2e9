import Stopan.Restore.RestoreScene

namespace Stopan.Restore

open Stopan.Lib Stopan.Lib.PosixPath Stopan.Common Stopan.Metadata

section OneFile

variable {σ : Type} {restorer : SnapshotRestorer σ} {scene : RestoreScene}
  {done : List SnapshotItemRow} {processed successful : Nat}
  {paths : RestorePaths} {item : SnapshotItemRow} {path resumePath : Text}
  {recipeId expectedChunkCount expectedSize : Nat}
  {rows : List RecipeChunk} {condition : Bytes → Prop} {extra : Files → Prop} {durable : Bool}

/-- The data of a file of a recipe. -/
def IsContent (restorer : SnapshotRestorer σ) (recipeId size : Nat) (data : Bytes) : Prop :=
  data.length = size ∧ HoldsChunks restorer.blake3 (restorer.db.recipeChunkEntries recipeId) data

/-- A file that is read to the end and passes. -/
theorem completed_fileAt {files : Files} (passed : (do
      let opened ← entryAt (restorer.names path) files >>= openedFile false
      (completedContent restorer.blake3 recipeId expectedChunkCount expectedSize opened.data
        (iterRecipeChunkEntries restorer.db recipeId 0)).mapError Raised.error) = .ok true) :
    FileAt (restorer.names path) (IsContent restorer recipeId expectedSize) files := by
  obtain ⟨file, opened, read⟩ := bind_eq_ok_iff.mp passed
  obtain ⟨entry, there, regular⟩ := bind_eq_ok_iff.mp opened
  unfold entryAt at there
  split at there
  case h_2 => cases there
  rename_i found
  cases there
  unfold openedFile at regular
  split at regular
  case h_1 =>
    split at regular
    · cases regular
    cases regular
    cases content : completedContent restorer.blake3 recipeId expectedChunkCount
        expectedSize file.data
        (iterRecipeChunkEntries restorer.db recipeId 0) with
    | error reason =>
        rw [content] at read
        cases read
    | ok same =>
        rw [content] at read
        cases read
        obtain ⟨ended, holds, size⟩ := completedContent_true content
        rw [(iterRecipeChunkEntries_zero restorer.db recipeId).2 ended] at holds
        exact ⟨file, found, size, holds⟩
  all_goals cases regular

theorem works_validateCompletedFile :
    Works scene done processed successful (fun _ => True) (fun _ => True)
      (restorer.validateCompletedFile path recipeId expectedChunkCount expectedSize)
      fun same files => same = true →
        FileAt (restorer.names path) (IsContent restorer recipeId expectedSize) files := by
  have refused : Works (σ := σ) scene done processed successful (fun _ => True)
      (fun _ => True) (pure false)
      fun same files => same = true →
        FileAt (restorer.names path) (IsContent restorer recipeId expectedSize) files :=
    works_pure (fun _ _ => trivial) fun _ _ ended => by cases ended
  apply Task.Keeps.bind fun _ => Busy scene done processed successful fun _ => True
  · exact (works_look fun _ _ => trivial).attempt.post fun _ _ _ => trivial
  intro found
  split
  · split
    · exact refused
    · exact works_raise fun _ _ => trivial
  · exact refused
  · exact refused
  · exact refused
  · split
    · exact refused
    have reopened : ∀ mode, Works (σ := σ) scene done processed successful
        (fun _ => True) (fun _ => True)
        (if mode &&& 0o400 = 0 then chmod restorer.host path (mode ||| 0o400) else pure ())
          fun _ _ => True := by
      intro mode
      split
      · exact works_chmod (fun _ _ => trivial) modeBlind_true
      · exact works_pure (fun _ _ => trivial) fun _ _ => trivial
    apply ((reopened _).attempt.post fun _ _ _ => trivial).bind
      fun _ => Busy scene done processed successful fun _ => True
    intro readable
    split
    · split
      · exact refused
      · exact works_raise fun _ _ => trivial
    · apply (works_look fun _ _ => trivial).attempt.bind _
      intro checked
      split
      · rename_i same
        apply works_pure (fun _ _ => trivial)
        rintro files ⟨-, known⟩ rfl
        obtain ⟨-, read⟩ := known true rfl
        exact completed_fileAt read
      · exact refused.pre fun _ _ => trivial
      · split
        · exact refused.pre fun _ _ => trivial
        · exact works_raise fun _ _ => trivial

theorem works_discardResumeFile {rest : List Component}
    (within : restorer.names path = scene.resume ++ rest) (kept : ∀ files after, extra files →
      (∀ other, other ≠ restorer.names path → after.get? other = files.get? other) → extra after) :
    Works scene done processed successful extra extra (restorer.discardResumeFile path)
      fun _ => extra := by
  have inner : Works (σ := σ) scene done processed successful extra extra
      (call restorer.host (unlinkNames (restorer.names path))) fun _ => extra := by
    refine works_call (fun _ known => known) (fun _ _ known => known) ?_
    intro files after ended still known ran
    have same : ∀ other, other ≠ restorer.names path → after.get? other = files.get? other := by
      intro other different
      rw [unlinkNames_eq_ok ran, if_neg different]
    exact ⟨still.partials within same, kept files after known same⟩
  apply inner.attempt.bind _
  intro outcome
  split
  · exact works_pure (fun _ known => known.1) fun _ known => known.1
  · exact works_pure (fun _ known => known.1) fun _ known => known.1
  · exact works_raise fun _ known => known.1

theorem works_openResumeFile {rest : List Component}
    (within : restorer.names path = scene.resume ++ rest) :
    Works scene done processed successful (fun _ => True) (fun _ => True)
      (restorer.openResumeFile path)
      fun _ => FileAt (restorer.names path) fun _ => True := by
  apply works_call (fun _ _ => trivial) fun _ _ _ => trivial
  intro files after ended kept _ ran
  have set : ∀ file : RegularFile, files.put (restorer.names path)
      (.leaf (.file file)) = some after →
      scene.Kept done after ∧ FileAt (restorer.names path) (fun _ => True) after := by
    intro file put
    refine ⟨kept.partials within fun other different => ?_, file, ?_, trivial⟩
    · rw [FileTree.get?_put put, if_neg different]
    · rw [FileTree.get?_put put, if_pos rfl]
  split at ran
  · exact set _ (changed_eq_ok ran)
  · obtain ⟨file, -, put⟩ := bind_eq_ok_iff.mp ran
    exact set _ (changed_eq_ok put)

theorem works_rewritePartial {rest : List Component} {change : Bytes → Bytes}
    {rewritten : Bytes → Prop} (within : restorer.names path = scene.resume ++ rest)
    (changes : ∀ data, condition data → rewritten (change data)) :
    Works scene done processed successful (fun _ => True) (FileAt (restorer.names path) condition)
      (restorer.rewritePartial path change) fun _ => FileAt (restorer.names path) rewritten := by
  apply works_call (fun _ _ => trivial) fun _ _ _ => trivial
  rintro files after ended kept ⟨file, found, met⟩ ran
  simp only [found] at ran
  have put := changed_eq_ok ran
  refine ⟨kept.partials within fun other different => ?_, { file with data := change file.data },
    ?_, changes _ met⟩
  · rw [FileTree.get?_put put, if_neg different]
  · rw [FileTree.get?_put put, if_pos rfl]

theorem works_verifyResumePrefix {rest : List Component}
    (within : restorer.names resumePath = scene.resume ++ rest) :
    Works scene done processed successful (fun _ => True)
      (FileAt (restorer.names resumePath) fun _ => True)
      (restorer.verifyResumePrefix resumePath recipeId expectedChunkCount expectedSize)
        fun verified files =>
        FileAt (restorer.names resumePath)
            (HoldsChunks restorer.blake3
              ((iterRecipeChunkEntries restorer.db recipeId 0).yielded.take verified.1)) files ∧
          verified.1 ≤ (iterRecipeChunkEntries restorer.db recipeId 0).yielded.length ∧
          ((iterRecipeChunkEntries restorer.db recipeId 0).yielded.take verified.1).map
            (·.order) = List.range verified.1 := by
  apply (works_look fun _ _ => trivial).bind _
  intro verified
  let Verified (data : Bytes) : Prop :=
    verifiedPrefix restorer.blake3 recipeId expectedChunkCount expectedSize data
    (iterRecipeChunkEntries restorer.db recipeId 0) = .ok verified
  have cut : ∀ data, Verified data →
      HoldsChunks restorer.blake3
        ((iterRecipeChunkEntries restorer.db recipeId 0).yielded.take verified.1)
          (data.take verified.2) ∧
        verified.1 ≤ (iterRecipeChunkEntries restorer.db recipeId 0).yielded.length ∧
        ((iterRecipeChunkEntries restorer.db recipeId 0).yielded.take verified.1).map
          (·.order) = List.range verified.1 := by
    intro data passed
    obtain ⟨bounded, holds, orders⟩ := verifiedPrefix_verified passed
    exact ⟨holds, bounded, orders⟩
  have looked : ∀ files, FileAt (restorer.names resumePath) (fun _ => True) files ∧
      (verifiedPrefix restorer.blake3 recipeId expectedChunkCount expectedSize
        (restorer.partialData files resumePath)
        (iterRecipeChunkEntries restorer.db recipeId 0)).mapError Raised.error = .ok verified →
      FileAt (restorer.names resumePath) Verified files := by
    rintro files ⟨⟨file, found, -⟩, passed⟩
    rw [SnapshotRestorer.partialData, found] at passed
    refine ⟨file, found, ?_⟩
    dsimp only at passed
    change verifiedPrefix restorer.blake3 recipeId expectedChunkCount expectedSize file.data _ = _
    cases ran : verifiedPrefix restorer.blake3 recipeId expectedChunkCount expectedSize file.data
        (iterRecipeChunkEntries restorer.db recipeId 0) with
    | error reason =>
        rw [ran] at passed
        cases passed
    | ok counts =>
        rw [ran] at passed
        cases passed
        rfl
  have rewritten : Works scene done processed successful (fun _ => True)
      (FileAt (restorer.names resumePath) Verified)
      (restorer.rewritePartial resumePath (·.take verified.2)) fun _ => FileAt
        (restorer.names resumePath) fun data =>
        HoldsChunks restorer.blake3
          ((iterRecipeChunkEntries restorer.db recipeId 0).yielded.take verified.1) data ∧
        verified.1 ≤ (iterRecipeChunkEntries restorer.db recipeId 0).yielded.length ∧
        ((iterRecipeChunkEntries restorer.db recipeId 0).yielded.take verified.1).map
          (·.order) = List.range verified.1 :=
    works_rewritePartial within cut
  apply (rewritten.pre looked).bind _
  intro _
  apply works_pure (fun _ _ => trivial)
  rintro files ⟨file, found, holds, bounded, orders⟩
  exact ⟨⟨file, found, holds⟩, bounded, orders⟩

theorem works_syncResumeCheckpoint {syncParent : Bool} :
    Works scene done processed successful extra extra (restorer.syncResumeCheckpoint syncParent)
      fun _ => extra := by
  have asked : Works (σ := σ) scene done processed successful extra extra
    (look restorer.host fun _ => .ok ()) fun _ => extra :=
    (works_look fun _ known => known).post fun _ _ known => known.1
  apply asked.bind _
  intro _
  split
  · exact asked
  · exact works_pure (fun _ known => known) fun _ known => known

theorem works_checkpoint : Works scene done processed successful extra extra restorer.checkpoint
    fun _ => extra := by
  apply Task.Keeps.bind fun _ => Busy scene done processed successful extra
  · exact works_inspect (fun _ known => known) fun _ _ known _ => known
  intro synced
  apply works_syncResumeCheckpoint.bind _
  intro _
  exact works_operate (fun _ known => known) (fun _ => rfl) (fun _ => rfl) fun _ => rfl

theorem Works.any {α : Type} {task : RestoreTask σ α} {allowed : Files → Prop}
    {afterwards : α → Files → Prop}
    (works : Works scene done processed successful allowed extra task afterwards) :
    Works scene done processed successful (fun _ => True) extra task afterwards :=
  Task.Keeps.weakenAlways works fun _ busy => busy.weaken fun _ _ => trivial

theorem works_writeRecord {rest : List Component} {writing : SnapshotRestorer.Writing}
    {record : RecipeChunk × Bytes} (within : restorer.names resumePath = scene.resume ++ rest)
    (hash : blake3HexDigest restorer.blake3 record.2 = record.1.chunkHash) :
    Works scene done processed successful (fun _ => True)
      (FileAt (restorer.names resumePath) (HoldsChunks restorer.blake3 rows))
      (restorer.writeRecord item resumePath durable writing record)
      fun _ => FileAt (restorer.names resumePath)
        (HoldsChunks restorer.blake3 (rows ++ [record.1])) := by
  apply (works_lifted fun _ _ => trivial).bind _
  intro _
  apply ((works_lifted fun _ _ => trivial).pre fun _ known => known.1).bind _
  intro _
  by_cases size : record.2.length = record.1.chunkSize
  · apply Works.pre _ fun _ known => known.1
    apply (works_rewritePartial within fun data holds => HoldsChunks.concat holds size hash).bind _
    intro _
    refine works_operate_bind ?_ (fun _ _ => trivial) (fun _ => rfl) (fun _ => rfl) fun _ => rfl
    dsimp only
    split
    · apply works_checkpoint.any.bind _
      intro _
      exact works_pure (fun _ _ => trivial) fun _ known => known
    · exact works_pure (fun _ _ => trivial) fun _ known => known
  · intro state busy
    have checked := busy.2.2.2.2
    rw [ensure_eq_ok_iff, beq_iff_eq] at checked
    exact absurd checked size

/-- What a window yields: chunks with the hashes of their records, and all of them unless it
fails. -/
def Emitted (blake3 : Blake3) (windowRecords : List RecipeChunk)
    (emitted : Generated (RecipeChunk × Bytes)) : Prop :=
  (∀ record ∈ emitted.yielded, blake3HexDigest blake3 record.2 = record.1.chunkHash) ∧
    (emitted.failure = none → emitted.yielded.map Prod.fst = windowRecords)

theorem emitRecords_complete {result : Text → Option ChunkResult} {records : List RecipeChunk}
    (ended : (emitRecords result records).failure = none) :
    (emitRecords result records).yielded.map Prod.fst = records := by
  induction records with
  | nil => rfl
  | cons record rest ih =>
      rw [emitRecords] at ended ⊢
      cases found : recordResult record.chunkHash (result record.chunkHash) with
      | error reason =>
          rw [found] at ended
          cases ended
      | ok raw =>
          rw [found] at ended
          exact congrArg (List.cons record) (ih ended)

theorem flushRecordWindow_emitted {state after : σ} {windowRecords : List RecipeChunk}
    {emitted : Generated (RecipeChunk × Bytes)} (inScene : InScene scene restorer paths)
    (flushed : restorer.prefetcher.flushRecordWindow state windowRecords = (after, emitted)) :
    Emitted restorer.blake3 windowRecords emitted := by
  rw [OrderedBatchChunkPrefetcher.flushRecordWindow] at flushed
  cases fetched : restorer.prefetcher.fetchManyRawChunks state
    (windowRecords.map (·.chunkHash)) with
  | error reason =>
      rw [fetched] at flushed
      cases flushed
      exact ⟨fun _ member => (by cases member), fun ended => by cases ended⟩
  | ok answer =>
      rw [fetched] at flushed
      cases flushed
      refine ⟨fun record member => ?_, emitRecords_complete⟩
      exact inScene.sound _ _ _ _ fetched _ _ (emitRecords_bytes record member)

theorem works_writeWindow {rest : List Component} {windowRecords : List RecipeChunk}
    {writing : SnapshotRestorer.Writing} (inScene : InScene scene restorer paths)
    (within : restorer.names resumePath = scene.resume ++ rest) :
    Works scene done processed successful (fun _ => True)
      (FileAt (restorer.names resumePath) (HoldsChunks restorer.blake3 rows))
      (restorer.writeWindow item resumePath durable windowRecords writing)
      fun _ => FileAt (restorer.names resumePath)
        (HoldsChunks restorer.blake3 (rows ++ windowRecords)) := by
  apply Task.Keeps.bind fun result => Busy scene done processed successful fun files =>
    FileAt (restorer.names resumePath) (HoldsChunks restorer.blake3 rows) files ∧
      Emitted restorer.blake3 windowRecords result.2
  · apply works_inspect fun _ _ => trivial
    intro state result known looked
    cases looked
    exact ⟨known, flushRecordWindow_emitted inScene rfl⟩
  rintro ⟨service, emitted⟩
  dsimp only
  refine works_operate_bind ?_ (fun _ _ => trivial) (fun _ => rfl) (fun _ => rfl) fun _ => rfl
  by_cases known : Emitted restorer.blake3 windowRecords emitted
  · apply Task.Keeps.bind fun _ => Busy scene done processed successful
      (FileAt (restorer.names resumePath)
        (HoldsChunks restorer.blake3 (rows ++ emitted.yielded.map Prod.fst)))
    · have loop :=
        Task.keeps_foldEach
          (fun (finished : List (RecipeChunk × Bytes)) (_ : SnapshotRestorer.Writing) =>
          Busy (σ := σ) scene done processed successful
            (FileAt (restorer.names resumePath)
              (HoldsChunks restorer.blake3 (rows ++ finished.map Prod.fst))))
        (fun _ _ _ busy => busy.weaken fun _ _ => trivial)
          (fun finished record later writing whole => by
          have member : record ∈ emitted.yielded := by
            rw [List.nil_append] at whole
            rw [whole]
            simp
          have written : Works scene done processed successful (fun _ => True)
              (FileAt (restorer.names resumePath)
                (HoldsChunks restorer.blake3 (rows ++ finished.map Prod.fst)))
              (restorer.writeRecord item resumePath durable writing record) _ :=
            works_writeRecord within (known.1 record member)
          exact written.post fun _ _ stands => by
            rwa [List.append_assoc, show finished.map Prod.fst ++ [record.1] =
              (finished ++ [record]).map Prod.fst by simp] at stands)
        emitted.yielded [] writing rfl
      exact loop.weaken (fun _ busy => busy.weaken fun _ stands => by simpa using stands.1)
        fun _ _ busy => busy
    · intro written
      cases ended : emitted.failure with
      | some reason => exact works_raise fun _ _ => trivial
      | none =>
          rw [known.2 ended]
          exact works_pure (fun _ _ => trivial) fun _ stands => stands
  · exact fun state busy => absurd busy.2.2.2.2 known

theorem works_writeRecords {rest : List Component} {failure : Option StopanError}
    (inScene : InScene scene restorer paths)
    (within : restorer.names resumePath = scene.resume ++ rest) (records : List RecipeChunk)
    (rows windowRecords : List RecipeChunk) (writing : SnapshotRestorer.Writing) :
    Works scene done processed successful (fun _ => True)
      (FileAt (restorer.names resumePath) (HoldsChunks restorer.blake3 rows))
      (restorer.writeRecords item resumePath durable failure windowRecords records writing)
        fun _ files =>
        FileAt (restorer.names resumePath) (HoldsChunks restorer.blake3
          (rows ++ (windowRecords ++ records))) files ∧ failure = none := by
  induction records generalizing rows windowRecords writing with
  | nil =>
      rw [List.append_nil]
      cases failure with
      | some reason => exact works_raise fun _ _ => trivial
      | none =>
          rw [SnapshotRestorer.writeRecords]
          split
          · rename_i empty
            rw [empty, List.append_nil]
            exact works_pure (fun _ _ => trivial) fun _ stands => ⟨stands, rfl⟩
          · exact (works_writeWindow inScene within).post fun _ _ stands => ⟨stands, rfl⟩
  | cons record later ih =>
      rw [SnapshotRestorer.writeRecords, List.append_cons windowRecords record later]
      split
      · apply (works_writeWindow inScene within).bind _
        intro written
        have continued := ih (rows ++ (windowRecords ++ [record])) [] written
        rwa [List.nil_append, List.append_assoc] at continued
      · exact ih rows (windowRecords ++ [record]) writing

theorem works_writePartial {rest : List Component} {resumeExisted : Bool}
    (inScene : InScene scene restorer paths)
    (within : restorer.names resumePath = scene.resume ++ rest) :
    Works scene done processed successful (fun _ => True)
      (FileAt (restorer.names resumePath) fun _ => True)
      (restorer.writePartial item resumePath durable resumeExisted recipeId
        expectedChunkCount expectedSize)
      fun _ => FileAt (restorer.names resumePath) (IsContent restorer recipeId expectedSize) := by
  apply (works_verifyResumePrefix within).bind _
  rintro ⟨chunks, bytes⟩
  by_cases verified : chunks ≤ (iterRecipeChunkEntries restorer.db recipeId 0).yielded.length ∧
      ((iterRecipeChunkEntries restorer.db recipeId 0).yielded.take chunks).map
        (·.order) = List.range chunks
  case neg => exact fun state busy => absurd busy.2.2.2.2 verified
  refine Works.pre ?_ fun _ known => known.1
  dsimp only
  refine works_operate_bind ?_ (fun _ _ => trivial) (fun _ => rfl) (fun _ => rfl) fun _ => rfl
  apply (works_writeRecords inScene within _ _ [] _).bind _
  intro written
  by_cases ended : (iterRecipeChunkEntries restorer.db recipeId chunks).failure = none
  case neg => exact fun state busy => absurd busy.2.2.2.2 ended
  rw [List.nil_append, prefix_append_rest verified.1 verified.2 ended]
  apply Works.pre _ fun _ known => known.1
  apply (works_look fun _ _ => trivial).bind _
  intro finalSize
  have sized : ∀ files, FileAt (restorer.names resumePath)
      (HoldsChunks restorer.blake3 (restorer.db.recipeChunkEntries recipeId)) files ∧
      Except.ok (restorer.partialData files resumePath).length =
        (Except.ok finalSize : Except Raised Nat) →
      FileAt (restorer.names resumePath) (IsContent restorer recipeId finalSize) files := by
    rintro files ⟨⟨file, found, holds⟩, size⟩
    rw [SnapshotRestorer.partialData, found, Except.ok.injEq] at size
    exact ⟨file, found, size, holds⟩
  apply Works.pre _ sized
  apply (works_lifted fun _ _ => trivial).bind _
  intro _
  apply ((works_lifted fun _ _ => trivial).pre fun _ known => known.1).bind _
  intro _
  by_cases size : finalSize = expectedSize
  case neg =>
    intro state busy
    have checked := busy.2.2.2.2
    rw [ensure_eq_ok_iff, beq_iff_eq] at checked
    exact absurd checked size
  rw [size]
  apply Works.pre _ fun _ known => known.1
  split
  · exact works_checkpoint.any
  · exact works_pure (fun _ _ => trivial) fun _ known => known

theorem works_keepProgress {reason : Raised} :
    Works scene done processed successful (fun _ => True) (fun _ => True)
      (restorer.keepProgress resumePath reason)
      fun _ _ => False := by
  have raised : ∀ other : Raised, Works (σ := σ) scene done processed successful
      (fun _ => True) (fun _ => True)
      (Task.raise other : RestoreTask σ Unit) fun _ _ => False :=
        fun _ => works_raise fun _ _ => trivial
  rw [SnapshotRestorer.keepProgress]
  dsimp only
  split
  · apply (works_raise fun _ _ => trivial : Works (σ := σ) scene done processed successful
      (fun _ => True) (fun _ => True)
      (Task.raise reason : RestoreTask σ PUnit) fun _ _ => False).bind _
    exact fun _ state busy => absurd busy.2.2.2 id
  · apply ((works_look fun _ _ => trivial).post fun _ _ _ => trivial).bind
      fun _ => Busy scene done processed successful fun _ => True
    intro size
    split
    · apply Task.Keeps.bind fun _ => Busy scene done processed successful fun _ => True
      · exact works_inspect (fun _ _ => trivial) fun _ _ _ _ => trivial
      intro synced
      apply (works_syncResumeCheckpoint.attempt.post fun _ _ _ => trivial).bind
        fun _ => Busy scene done processed successful fun _ => True
      intro outcome
      split
      · exact raised _
      · split
        · exact raised _
        · exact raised _
    · exact raised _

end OneFile

/-- The content that an item asks for. -/
def ItemContent {σ : Type} (restorer : SnapshotRestorer σ) (item : SnapshotItemRow)
    (data : Bytes) : Prop :=
  ∃ recipeId, item.recipeId = some recipeId ∧ IsContent restorer recipeId item.size data

/-- While an item is restored and afterwards: it counts as successful only once it is done. -/
def Underway {σ : Type} (scene : RestoreScene) (done : List SnapshotItemRow)
    (item : SnapshotItemRow) (processed successful : Nat) (state : RestoreState σ) : Prop :=
  scene.Kept done state.files ∧ state.stats.processedItems = processed ∧
    (state.stats.successfulItems = successful ∨ state.stats.successfulItems = successful + 1 ∧
      RestoredAt scene.db scene.blake3 state.files scene.incomplete item)

section OneItem

variable {σ : Type} {restorer : SnapshotRestorer σ} {scene : RestoreScene}
  {done : List SnapshotItemRow} {processed successful : Nat}
  {paths : RestorePaths} {item : SnapshotItemRow} {path resumePath : Text} {extra : Files → Prop}

theorem Busy.underway {state : RestoreState σ}
    (busy : Busy scene done processed successful extra state) :
    Underway scene done item processed successful state :=
  ⟨busy.1, busy.2.1, .inl busy.2.2.1⟩

theorem Works.underway {α : Type} {allowed : Files → Prop} {task : RestoreTask σ α}
    {afterwards : α → Files → Prop}
    (works : Works scene done processed successful allowed extra task afterwards) :
    Task.Keeps (Underway scene done item processed successful)
      (Busy scene done processed successful extra) task
      fun value => Busy scene done processed successful (afterwards value) :=
  Task.Keeps.weakenAlways works fun _ busy => busy.underway

theorem checkFileItem_eq_ok {db : MetadataDB} {recipeId expectedChunkCount expectedSize : Nat}
    (checked : checkFileItem db item = .ok (recipeId, expectedChunkCount, expectedSize)) :
    item.recipeId = some recipeId ∧ item.size = expectedSize := by
  unfold checkFileItem at checked
  cases recipe : item.recipeId with
  | none =>
      simp only [recipe] at checked
      cases checked
  | some found =>
      simp only [recipe] at checked
      obtain ⟨summary, -, rest⟩ := bind_eq_ok_iff.mp checked
      obtain ⟨same, result⟩ := ensure_bind_eq_ok_iff.mp rest
      cases result
      exact ⟨rfl, beq_iff_eq.mp same⟩

theorem restoredAt_of_content {files : Files} (inScene : InScene scene restorer paths)
    (isFile : item.itemType = .file)
    (content : FileAt (scene.place item) (ItemContent restorer item) files) :
    RestoredAt scene.db scene.blake3 files scene.incomplete item := by
  obtain ⟨file, found, recipeId, recipe, size, holds⟩ := content
  rw [inScene.db, inScene.blake3] at holds
  rw [RestoredAt, isFile]
  exact ⟨recipeId, file, recipe, found, size, holds⟩

/-- The item is counted when it is done. -/
theorem keeps_counted {change : RestoreCounters → RestoreCounters}
    (restored : ∀ files, extra files → RestoredAt scene.db scene.blake3 files scene.incomplete item)
    (processedItems : ∀ stats, (change stats).processedItems = stats.processedItems)
    (successfulItems : ∀ stats, (change stats).successfulItems = stats.successfulItems + 1) :
    Task.Keeps (Underway scene done item processed successful)
      (Busy scene done processed successful extra)
      (counting change : RestoreTask σ Unit)
        fun _ => Underway scene done item processed successful := by
  apply Task.keeps_operate
  intro state busy
  have counted : Underway scene done item processed successful
      { state with stats := change state.stats } := by
    refine ⟨busy.1, ?_, .inr ⟨?_, restored _ busy.2.2.2⟩⟩
    · exact (processedItems _).trans busy.2.1
    · exact (successfulItems _).trans (congrArg (· + 1) busy.2.2.1)
  exact ⟨counted, counted⟩

theorem keeps_countFailed :
    Task.Keeps (Underway scene done item processed successful)
      (Underway scene done item processed successful)
      (SnapshotRestorer.countFailed : RestoreTask σ Unit)
        fun _ => Underway scene done item processed successful :=
  Task.keeps_operate fun _ known => ⟨known, known⟩

theorem keeps_failFile {reason : Raised} :
    Task.Keeps (Underway scene done item processed successful)
      (Underway scene done item processed successful)
      (SnapshotRestorer.failFile reason : RestoreTask σ Unit)
        fun _ => Underway scene done item processed successful := by
  rw [SnapshotRestorer.failFile]
  split
  · exact keeps_countFailed
  · exact Task.keeps_raise fun _ known => known

theorem keeps_restoreContent {rest : List Component} (inScene : InScene scene restorer paths)
    (within : restorer.names resumePath = scene.resume ++ rest)
    (there : restorer.names path = scene.place item) (isFile : item.itemType = .file) :
    Task.Keeps (Underway scene done item processed successful)
      (Busy scene done processed successful fun _ => True)
      (restorer.restoreContent item resumePath path) fun reused state =>
        Underway scene done item processed successful state ∧ (reused = false →
          Busy scene done processed successful
            (FileAt (restorer.names resumePath) (ItemContent restorer item)) state) := by
  apply (works_lifted fun _ _ => trivial).underway.bind _
  rintro ⟨recipeId, expectedChunkCount, expectedSize⟩
  by_cases checked : checkFileItem restorer.db item = .ok
    (recipeId, expectedChunkCount, expectedSize)
  case neg => exact fun state busy => absurd busy.2.2.2.2 checked
  obtain ⟨recipe, rfl⟩ := checkFileItem_eq_ok checked
  have content : ∀ data, IsContent restorer recipeId item.size data →
      ItemContent restorer item data :=
    fun data known => ⟨recipeId, recipe, known⟩
  apply (works_validateCompletedFile.pre fun _ _ => trivial).underway.bind _
  intro same
  cases same with
  | true =>
      apply Task.Keeps.bind fun _ => Busy scene done processed successful
        (FileAt (scene.place item) (ItemContent restorer item))
      · apply (((works_discardResumeFile within _).pre _).post fun _ _ known => known).underway
        · rintro files after ⟨file, found, met⟩ same
          refine ⟨file, (same _ ?_).trans found, met⟩
          rw [within]
          exact fun equal => scene.incompleteResume _ _ equal
        · intro files known
          obtain ⟨file, found, met⟩ := known rfl
          exact ⟨file, there ▸ found, content _ met⟩
      intro _
      apply (works_applyItemMetadata (fun _ known => known) (modeBlind_fileAt _ _)).underway.bind _
      intro _
      apply Task.Keeps.bind fun _ => Underway scene done item processed successful
      · exact keeps_counted (fun files known => restoredAt_of_content inScene isFile known)
          (fun _ => rfl) fun _ => rfl
      intro _
      exact Task.keeps_done fun _ known => ⟨known, known, fun reused => by cases reused⟩
  | false =>
      apply ((works_lexists fun _ _ => trivial).pre fun _ _ => trivial).underway.bind
        fun _ => Busy scene done processed successful fun _ => True
      intro resumeExisted
      apply Task.Keeps.bind fun _ => Busy scene done processed successful fun _ => True
      · exact Task.keeps_operate fun _ busy => ⟨busy.underway, busy⟩
      intro _
      apply (works_openResumeFile within).underway.bind _
      intro _
      apply (works_writePartial inScene within).attempt.underway.bind _
      intro outcome
      split
      · apply Task.keeps_done
        intro state busy
        refine ⟨busy.underway, busy.underway, fun _ => busy.weaken ?_⟩
        rintro files ⟨-, written⟩
        obtain ⟨file, found, met⟩ := written () rfl
        exact ⟨file, found, content _ met⟩
      · apply (works_keepProgress.pre fun _ _ => trivial).underway.bind _
        exact fun _ state busy => absurd busy.2.2.2 id

/-- Where an item is restored, and that no link stands there. -/
theorem safePath_located {files : Files} (inScene : InScene scene restorer paths)
    (level : climbs item.path = false)
    (accepted : (safeRestorePath (restorer.host.fileSystem files) paths.incompleteDir
      item.path).mapError Raised.ofPathFailure = .ok path) :
    path = fromRoot (scene.place item) ∧ (∀ name ∈ scene.place item, IsName name) ∧
      ∀ toDirectory, files.get? (scene.place item) ≠ some (.leaf (.link toDirectory)) := by
  cases checked : safeRestorePath
    (restorer.host.fileSystem files) paths.incompleteDir item.path with
  | error reason =>
      rw [checked] at accepted
      cases accepted
  | ok found =>
      rw [checked] at accepted
      cases accepted
      obtain ⟨named, located, real⟩ := safeRestorePath_located checked level
      have root : resolve restorer.host.cwd paths.incompleteDir = scene.incomplete :=
        inScene.incomplete
      rw [root] at named located real
      exact ⟨located, named, real⟩

/-- A path of an item. -/
structure Located (restorer : SnapshotRestorer σ) (scene : RestoreScene) (item : SnapshotItemRow)
    (path : Text) : Prop where
  text : path = fromRoot (scene.place item)
  named : ∀ name ∈ scene.place item, IsName name

theorem Located.names (located : Located restorer scene item path) :
    restorer.names path = scene.place item := by
  rw [located.text, SnapshotRestorer.names, resolve_fromRoot _ located.named]

theorem works_safePath (inScene : InScene scene restorer paths) (level : climbs item.path = false) :
    Works scene done processed successful (fun _ => True) extra
      (safePath restorer.host paths.incompleteDir item.path : RestoreTask σ Text)
      fun path files => extra files ∧ Located restorer scene item path ∧
        ∀ toDirectory, files.get? (scene.place item) ≠ some (.leaf (.link toDirectory)) := by
  apply Works.post (works_look fun _ _ => trivial)
  rintro path files ⟨known, accepted⟩
  obtain ⟨text, named, real⟩ := safePath_located inScene level accepted
  exact ⟨known, ⟨text, named⟩, real⟩

theorem keeps_publishFile {rest : List Component} (inScene : InScene scene restorer paths)
    (within : restorer.names resumePath = scene.resume ++ rest) (isFile : item.itemType = .file)
    (level : climbs item.path = false)
    (fresh : ∀ other ∈ done, scene.place item ≠ scene.place other) :
    Task.Keeps (Underway scene done item processed successful)
      (Busy scene done processed successful
        (FileAt (restorer.names resumePath) (ItemContent restorer item)))
      (restorer.publishFile item resumePath paths.incompleteDir)
        fun _ => Underway scene done item processed successful := by
  apply (works_safePath inScene level).underway.bind _
  intro fullPath
  by_cases located : Located restorer scene item fullPath
  case neg => exact fun state busy => absurd busy.2.2.2.2.1 located
  apply Task.Keeps.bind fun _ => Busy scene done processed successful
    (FileAt (scene.place item) (ItemContent restorer item))
  · refine Works.underway (works_call (fun _ _ => trivial) (fun _ _ _ => trivial) ?_)
    rintro files after ended kept ⟨⟨file, found, met⟩, -⟩ ran
    rw [located.names] at ran
    obtain ⟨arrived, elsewhere⟩ := replaceNames_eq_ok ran
    refine ⟨kept.step (fun absent => ?_) (fun other => ?_), file, arrived.trans found, met⟩
    · rw [elsewhere _ ?_]
      · split
        · rfl
        · exact absent
      · intro same
        exact scene.finalIncomplete (components item.path) (by rw [same]; exact List.prefix_rfl)
    · by_cases target : other = scene.place item
      · rw [target]
        exact .inr ⟨scene.finalIncomplete _, fresh⟩
      · rw [elsewhere _ target]
        split
        · rename_i source
          rw [source, within]
          exact .inr ⟨scene.finalResume _, fun item _ same => scene.incompleteResume _ _ same.symm⟩
        · exact .inl (.same _)
  intro _
  apply (works_applyItemMetadata (fun _ known => known) (modeBlind_fileAt _ _)).underway.bind _
  intro _
  exact keeps_counted (fun files known => restoredAt_of_content inScene isFile known) (fun _ => rfl)
    fun _ => rfl

theorem keeps_restoreFile (inScene : InScene scene restorer paths)
    (there : restorer.names path = scene.place item)
    (isFile : item.itemType = .file) (level : climbs item.path = false)
    (fresh : ∀ other ∈ done, scene.place item ≠ scene.place other) :
    Task.Keeps (Underway scene done item processed successful)
      (Busy scene done processed successful fun _ => True)
      (restorer.restoreFile item paths path)
        fun _ => Underway scene done item processed successful := by
  obtain ⟨name, within⟩ := inScene.resumeFile item.path
  apply (keeps_restoreContent inScene within there isFile).attempt.bind _
  intro outcome
  split
  · exact Task.keeps_done fun _ known => ⟨known.1, known.1⟩
  · apply Task.Keeps.bind fun _ => Underway scene done item processed successful
    · exact (keeps_publishFile inScene within isFile level fresh).attempt.weaken
        (fun state known => (known.2 false rfl).2 rfl)
        fun _ _ known => known.1
    intro ended
    split
    · exact Task.keeps_done fun _ known => ⟨known, known⟩
    · exact keeps_failFile
  · exact keeps_failFile.weaken (fun _ known => known.1) fun _ _ known => known

end OneItem

end Stopan.Restore
