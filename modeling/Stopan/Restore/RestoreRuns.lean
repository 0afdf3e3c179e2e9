import Stopan.Restore.FetchAccounting
import Stopan.Restore.RestoredFiles

namespace Stopan.Restore

open Stopan.Lib Stopan.Lib.PosixPath Stopan.Common Stopan.Metadata

namespace RestoreScene

variable (scene : RestoreScene)

/-- Between two items: as long as every item was successful, all of them are in the working tree. -/
structure Between {σ : Type} (finished : List SnapshotItemRow) (state : RestoreState σ) : Prop where
  published : scene.Published state.files
  processed : state.stats.processedItems = finished.length
  bounded : state.stats.successfulItems ≤ finished.length
  complete : state.stats.successfulItems = finished.length →
    ∀ item ∈ finished, RestoredAt scene.db scene.blake3 state.files scene.incomplete item

def Complete (files : Files) : Prop :=
  ∀ item ∈ scene.items, RestoredAt scene.db scene.blake3 files scene.final item

/-- A result that says the restore is complete is right. -/
def Reported {σ : Type} (result : RestoreResult) (state : RestoreState σ) : Prop :=
  result.completed = true → scene.Complete state.files

end RestoreScene

section AllItems

variable {σ : Type} {restorer : SnapshotRestorer σ} {scene : RestoreScene}
  {done finished : List SnapshotItemRow}
  {processed successful : Nat} {paths : RestorePaths} {item : SnapshotItemRow}
  {prepared : SnapshotRestorer.Prepared}
  {path resumePath : Text} {state : RestoreState σ}

theorem final_outside {names : List Component} (inside : names <+: scene.place item) :
    ¬ scene.final <+: names :=
  fun above => scene.finalIncomplete _ (above.trans inside)

theorem grows_unlinked (names : List Component) :
    Grows fun files => ∀ toDirectory, files.get? names ≠ some (.leaf (.link toDirectory)) := by
  intro files after made mode ended unlinked ran toDirectory link
  have kept := makeDir_kept ran names
  rw [link] at kept
  generalize stood : files.get? names = before at kept
  cases kept with
  | same => exact unlinked toDirectory stood

theorem works_prepareParent (located : Located restorer scene item path) :
    Works scene done processed successful (fun _ => True) (fun _ => True)
      (restorer.prepareParent prepared path)
      fun _ _ => True := by
  have outside : ¬ scene.final <+: restorer.names (dirname path) := by
    rw [located.text]
    by_cases top : scene.place item = []
    · rw [top, show dirname (fromRoot []) = fromRoot [] by decide, SnapshotRestorer.names,
        resolve_fromRoot _ (by simp), ← top]
      exact scene.finalIncomplete _
    · obtain ⟨parent, name, split⟩ := List.eq_nil_or_concat (scene.place item) |>.resolve_left top
      have named := located.named
      rw [List.concat_eq_append] at split
      rw [split] at named
      have above : ∀ name ∈ parent, IsName name :=
        fun name member => named name (List.mem_append_left _ member)
      rw [split, dirname_fromRoot above (named name (by simp)), SnapshotRestorer.names,
        resolve_fromRoot _ above]
      exact final_outside (split ▸ List.prefix_append _ _)
  rw [SnapshotRestorer.prepareParent]
  split
  · exact works_pure (fun _ _ => trivial) fun _ _ => trivial
  · have grows : Grows fun _ => True := fun _ _ _ _ _ _ _ => trivial
    apply (works_makedirs (fun _ _ => trivial) grows outside).bind _
    intro _
    apply ((works_ensureWorkDirectoryPermissions (fun _ _ => trivial) modeBlind_true).pre
      fun _ _ => trivial).bind _
    intro _
    exact works_pure (fun _ _ => trivial) fun _ _ => trivial

theorem keeps_restoreItem (prepared : SnapshotRestorer.Prepared)
    (inScene : InScene scene restorer paths) (level : climbs item.path = false)
    (fresh : ∀ other ∈ done, scene.place item ≠ scene.place other) :
    Task.Keeps (fun state => scene.Published state.files)
      (Busy scene done processed successful fun _ => True)
      (restorer.restoreItem paths prepared item) fun _ => Underway scene done item
        (processed + 1) successful := by
  apply Task.Keeps.bind fun _ => Busy scene done (processed + 1) successful fun _ => True
  · exact Task.keeps_operate fun state busy => ⟨busy.1.published, busy.1, congrArg (· + 1) busy.2.1,
      busy.2.2.1, trivial⟩
  intro _
  refine Task.Keeps.weakenAlways
    (?_ : Task.Keeps (Underway scene done item (processed + 1) successful) _ _ _)
    fun _ known => known.1.published
  apply (works_safePath inScene level).attempt.underway.bind _
  intro outcome
  split
  · exact Task.keeps_done fun _ busy => ⟨busy.underway, busy.underway⟩
  · exact Task.keeps_raise fun _ busy => busy.underway
  · rename_i fullPath
    by_cases located : Located restorer scene item fullPath
    case neg => exact fun state busy => absurd (busy.2.2.2.2 fullPath rfl).2.1 located
    split
    · rename_i isDirectory
      have outside : ¬ scene.final <+: restorer.names fullPath := by
        rw [located.names]
        exact scene.finalIncomplete _
      have made : Works (σ := σ) scene done (processed + 1) successful (fun _ => True) _
        (makedirs restorer.host fullPath 0o777) _ :=
        works_makedirs (fun _ _ => trivial) (grows_unlinked (scene.place item)) outside
      apply (made.pre fun files known => (known.2 fullPath rfl).2.2).underway.bind _
      intro _
      have directory : ∀ files : Files,
          (∀ toDirectory, files.get? (scene.place item) ≠ some (.leaf (.link toDirectory))) ∧
          isDir files (resolve restorer.host.cwd fullPath) = true →
            ∃ mode, files.get? (scene.place item) = some (.directory mode) := by
        rintro files ⟨unlinked, present⟩
        have same : resolve restorer.host.cwd fullPath = scene.place item := located.names
        rw [same, isDir] at present
        split at present
        · exact ⟨_, ‹_›⟩
        · rename_i found
          exact absurd found (unlinked _)
        · cases present
      apply ((works_ensureWorkDirectoryPermissions (fun _ _ => trivial)
        (modeBlind_directory (scene.place item))).pre
        directory).underway.bind _
      intro _
      apply Task.Keeps.bind fun _ => Underway scene done item (processed + 1) successful
      · refine keeps_counted (fun files known => ?_) (fun _ => rfl) fun _ => rfl
        rw [RestoredAt, isDirectory]
        exact known
      intro _
      exact Task.keeps_done fun _ known => ⟨known, known⟩
    · exact Task.keeps_done fun _ busy => ⟨busy.underway, busy.underway⟩
    · rename_i isFile
      apply ((works_prepareParent located).pre fun _ _ => trivial).underway.bind _
      intro ready
      apply Task.Keeps.bind fun _ => Busy scene done (processed + 1) successful fun _ => True
      · exact (works_inspect (fun _ _ => trivial) fun _ _ _ _ => trivial).underway
      intro present
      split
      · apply (keeps_countFailed.weaken (fun _ busy => busy.underway) fun _ _ known => known).bind _
        intro _
        exact Task.keeps_done fun _ known => ⟨known, known⟩
      · apply (keeps_restoreFile inScene located.names isFile level fresh).bind _
        intro _
        exact Task.keeps_done fun _ known => ⟨known, known⟩

/-- An item that was successful leaves all of them done, if those before it are. -/
theorem Underway.between
    (underway : Underway scene done item (finished.length + 1) successful state)
    (bounded : successful ≤ finished.length)
    (every : successful = finished.length → done = finished) :
    scene.Between (finished ++ [item]) state := by
  obtain ⟨kept, processed, counted⟩ := underway
  refine ⟨kept.published, by simpa using processed, ?_, fun all => ?_⟩
  · rw [List.length_append, List.length_singleton]
    rcases counted with same | ⟨one, -⟩ <;> omega
  · rw [List.length_append, List.length_singleton] at all
    rcases counted with same | ⟨one, restored⟩
    · omega
    · have before : done = finished := every (by omega)
      intro other member
      rcases List.mem_append.mp member with earlier | here
      · exact kept.working other (before ▸ earlier)
      · rw [List.mem_singleton.mp here]
        exact restored

theorem place_ne {rest : List SnapshotItemRow} (whole : scene.items = finished ++ item :: rest) :
    ∀ other ∈ finished, scene.place item ≠ scene.place other := by
  intro other member same
  have distinct := scene.distinct
  rw [whole, List.map_append, List.map_cons, List.nodup_append] at distinct
  have path : components item.path = components other.path := List.append_cancel_left same
  exact distinct.2.2 _ (List.mem_map_of_mem member) _ List.mem_cons_self path.symm

theorem keeps_items (inScene : InScene scene restorer paths) :
    Task.Keeps (fun state => scene.Published state.files) (scene.Between [])
      (Task.foldEach (restorer.restoreItem paths) prepared scene.items)
        fun _ => scene.Between scene.items := by
  apply Task.keeps_foldEach (fun finished _ => scene.Between finished)
    (fun _ _ _ known => known.published) _ scene.items [] prepared rfl
  intro finished item rest prepared whole state known
  rw [List.nil_append] at whole
  have level : climbs item.path = false := scene.level item (by rw [whole]; simp)
  by_cases every : state.stats.successfulItems = finished.length
  · have busy : Busy scene finished finished.length finished.length (fun _ => True) state :=
      ⟨⟨known.published, known.complete every⟩, known.processed, every, trivial⟩
    have met := keeps_restoreItem prepared inScene level (place_ne whole) state busy
    exact ⟨met.passed, met.final, fun value ended => (met.returned value ended).between le_rfl
      fun _ => rfl⟩
  · have busy : Busy scene [] finished.length state.stats.successfulItems (fun _ => True) state :=
      ⟨⟨known.published, fun _ member => by cases member⟩, known.processed, rfl, trivial⟩
    have met :=
      keeps_restoreItem prepared inScene level (fun _ member => by cases member) state busy
    exact ⟨met.passed, met.final, fun value ended =>
      (met.returned value ended).between known.bounded fun all => absurd all every⟩

end AllItems

section Publishing

variable {σ : Type} {restorer : SnapshotRestorer σ} {scene : RestoreScene}
  {paths : RestorePaths} {snapshotId : Nat}
  {directories : List (Text × SnapshotItemRow)} {prepared : SnapshotRestorer.Prepared}

/-- What does not touch the final tree, whatever was counted. -/
theorem keeps_published {α : Type} {task : RestoreTask σ α} {pre : RestoreState σ → Prop}
    {done : List SnapshotItemRow} (before : ∀ state, pre state → scene.Kept done state.files)
    (works : ∀ processed successful, Works scene done processed successful (fun _ => True)
      (fun _ => True) task fun _ _ => True) :
    Task.Keeps (fun state => scene.Published state.files) pre task fun _ state =>
      scene.Kept done state.files := by
  intro state known
  have met := works _ _ state ⟨before state known, rfl, rfl, trivial⟩
  exact ⟨fun moment member => (met.passed moment member).1.published, met.final.1.published,
    fun value ended => (met.returned value ended).1⟩

theorem kept_nil {files : Files} (published : scene.Published files) : scene.Kept [] files :=
  ⟨published, fun _ member => by cases member⟩

theorem keeps_returning {pre : RestoreState σ → Prop} {result : RestoreState σ → RestoreResult}
    (before : ∀ state, pre state → scene.Published state.files)
    (modest : ∀ state, (result state).completed = false) :
    Task.Keeps (fun state => scene.Published state.files) pre
      (SnapshotRestorer.returning result) scene.Reported := by
  apply Task.keeps_inspect
  intro state known
  refine ⟨before state known, fun value looked claimed => ?_⟩
  cases looked
  rw [modest] at claimed
  cases claimed

theorem works_restoreWorkDirectoryPermissions {processed successful : Nat} :
    Works scene [] processed successful (fun _ => True) (fun _ => True)
      (restorer.restoreWorkDirectoryPermissions paths directories) fun _ _ => True := by
  apply Task.Keeps.bind fun _ => Busy scene [] processed successful fun _ => True
  · apply Task.keeps_forEach (fun _ => Busy scene [] processed successful fun _ => True)
      (fun _ _ busy => busy) _ _ [] rfl
    intro _ path _ _
    apply ((works_ensureWorkDirectoryPermissions (fun _ _ => trivial) modeBlind_true).attempt.post
      fun _ _ _ => trivial).bind
      fun _ => Busy scene [] processed successful fun _ => True
    intro outcome
    split
    · exact works_pure (fun _ _ => trivial) fun _ _ => trivial
    · split
      · exact works_pure (fun _ _ => trivial) fun _ _ => trivial
      · exact works_raise fun _ _ => trivial
  · intro _
    exact works_pure (fun _ _ => trivial) fun _ _ => trivial

/-- The working tree is the final one after the renaming. -/
theorem complete_of_rename {files after : Files} (kept : scene.Kept scene.items files)
    (renamed : files.rename scene.incomplete scene.final = some after) : scene.Complete after := by
  intro item member
  have moved := FileTree.get?_rename_below renamed (components item.path)
  have restored := kept.working item member
  unfold RestoredAt at restored ⊢
  rwa [moved]

theorem keeps_publishTree (inScene : InScene scene restorer paths) :
    Task.Keeps (fun state => scene.Published state.files)
      (fun state => scene.Kept scene.items state.files)
      (restorer.publishTree snapshotId paths directories) scene.Reported := by
  have renames : Task.Keeps (fun state : RestoreState σ => scene.Published state.files)
      (fun state => scene.Kept scene.items state.files)
      (call restorer.host
        (renameNames (restorer.names paths.incompleteDir) (restorer.names paths.finalDir)))
      fun _ state => scene.Complete state.files := by
    rw [inScene.incomplete, inScene.final]
    apply keeps_call (fun _ kept => kept.published) fun _ _ kept => kept
    intro state after ended kept ran
    have complete := complete_of_rename kept (renameNames_eq_ok ran).2
    exact ⟨.inr complete, complete⟩
  have retreat : Task.Keeps (fun state : RestoreState σ => scene.Published state.files)
      (fun state => scene.Published state.files)
      (restorer.restoreWorkDirectoryPermissions paths directories) fun _ state =>
        scene.Kept [] state.files :=
    keeps_published (fun _ => kept_nil) fun _ _ => works_restoreWorkDirectoryPermissions
  apply renames.attempt.bind _
  intro outcome
  split
  · apply Task.keeps_inspect
    intro state known
    refine ⟨known.1, fun value looked _ => ?_⟩
    cases looked
    exact known.2 () rfl
  · apply (retreat.weaken (fun _ known => known.1) fun _ _ known => known).bind _
    intro _
    exact keeps_returning (fun _ kept => kept.published) fun _ => rfl
  · split
    · apply (retreat.weaken (fun _ known => known.1) fun _ _ known => known).bind _
      intro _
      exact keeps_returning (fun _ kept => kept.published) fun _ => rfl
    · exact Task.keeps_raise fun _ known => known.1

theorem keeps_publish (inScene : InScene scene restorer paths) :
    Task.Keeps (fun state => scene.Published state.files)
      (fun state => scene.Kept scene.items state.files)
      (restorer.publish snapshotId paths directories) scene.Reported := by
  have closes : ∀ processed successful, Works scene scene.items processed successful
      (fun _ => True) (fun _ => True)
      (call restorer.host (rmdirNames (restorer.names paths.resumeDir)) : RestoreTask σ Unit)
        fun _ _ => True := by
    intro processed successful
    refine works_call (fun _ _ => trivial) (fun _ _ _ => trivial) ?_
    intro files after ended kept _ ran
    rw [inScene.resume] at ran
    refine ⟨kept.partials (List.append_nil _).symm fun other different => ?_, trivial⟩
    rw [rmdirNames_eq_ok ran, if_neg different]
  apply (keeps_published (fun _ kept => kept) fun processed successful =>
    (closes processed successful).attempt.post fun _ _ _ => trivial).bind _
  intro closed
  extract_lets publishing
  have goesOn : ∀ blocked, Task.Keeps (fun state => scene.Published state.files)
      (fun state => scene.Kept scene.items state.files)
      (publishing blocked) scene.Reported := by
    intro blocked
    dsimp only [publishing]
    split
    · exact keeps_returning (fun _ kept => kept.published) fun _ => rfl
    · apply (keeps_published (fun _ kept => kept) fun _ _ =>
        (works_lexists fun _ _ => trivial).post fun _ _ _ => trivial).bind _
      intro present
      split
      · exact keeps_returning (fun _ kept => kept.published) fun _ => rfl
      · apply (keeps_published (fun _ kept => kept) fun processed successful => ?_).bind _
        · intro _
          exact keeps_publishTree inScene
        · apply Task.keeps_forEach (fun _ => Busy scene scene.items processed successful
            fun _ => True) (fun _ _ busy => busy) _ _ [] rfl
          intro _ directory _ _
          exact works_applyItemMetadata (fun _ _ => trivial) modeBlind_true
  have ready : ∀ blocked : Option Raised, Task.Keeps
      (fun state : RestoreState σ => scene.Published state.files)
      (fun state => scene.Kept scene.items state.files)
        (pure blocked : RestoreTask σ (Option Raised))
      fun _ state => scene.Kept scene.items state.files :=
    fun _ => Task.keeps_done fun _ kept => ⟨kept.published, kept⟩
  split
  · exact (ready _).bind _ goesOn
  · exact (ready _).bind _ goesOn
  · split
    · exact (ready _).bind _ goesOn
    · exact (Task.keeps_raise fun _ kept => kept.published).bind
        (fun _ state => scene.Kept scene.items state.files) goesOn

theorem keeps_finish (inScene : InScene scene restorer paths) :
    Task.Keeps (fun state => scene.Published state.files) (scene.Between scene.items)
      (restorer.finish snapshotId paths prepared) scene.Reported := by
  apply Task.Keeps.bind fun stats state => scene.Between scene.items state ∧ state.stats = stats
  · apply Task.keeps_inspect
    intro state between
    refine ⟨between.published, fun stats looked => ?_⟩
    cases looked
    exact ⟨between, rfl⟩
  intro stats
  split
  · rename_i every
    apply (keeps_publish inScene).weaken _ fun _ _ known => known
    rintro state ⟨between, rfl⟩
    exact ⟨between.published, between.complete (every.1.trans between.processed)⟩
  · exact keeps_returning (fun _ known => known.1.published) fun _ => rfl

/-- What `prepare` leaves alone. -/
theorem works_prepare {processed successful : Nat} (inScene : InScene scene restorer paths) :
    Works scene [] processed successful (fun _ => True) (fun _ => True) (restorer.prepare paths)
      fun _ _ => True := by
  have grows : Grows fun _ => True := fun _ _ _ _ _ _ _ => trivial
  have incomplete : ¬ scene.final <+: resolve restorer.host.cwd paths.incompleteDir := by
    have same : resolve restorer.host.cwd paths.incompleteDir = scene.incomplete :=
      inScene.incomplete
    simpa [same] using scene.finalIncomplete []
  have resume : ¬ scene.final <+: resolve restorer.host.cwd paths.resumeDir := by
    have same : resolve restorer.host.cwd paths.resumeDir = scene.resume := inScene.resume
    simpa [same] using scene.finalResume []
  apply ((works_makedirs (fun _ _ => trivial) grows incomplete).post fun _ _ _ => trivial).bind
    fun _ => Busy scene [] processed successful fun _ => True
  intro _
  apply (works_checkRoot fun _ _ => trivial).bind _
  intro _
  apply (works_ensureWorkDirectoryPermissions (fun _ _ => trivial) modeBlind_true).bind _
  intro _
  apply ((works_makedirs (fun _ _ => trivial) grows resume).post fun _ _ _ => trivial).bind
    fun _ => Busy scene [] processed successful fun _ => True
  intro _
  apply (works_checkRoot fun _ _ => trivial).bind _
  intro _
  exact works_chmod (fun _ _ => trivial) modeBlind_true

theorem keeps_restoreItems (inScene : InScene scene restorer paths) :
    Task.Keeps (fun state => scene.Published state.files) (Busy scene [] 0 0 fun _ => True)
      (restorer.restoreItems snapshotId paths scene.items) scene.Reported := by
  apply ((works_prepare inScene).attempt.post fun _ _ _ => trivial).weakenAlways
    (fun _ busy => busy.1.published) |>.bind
    fun _ => Busy scene [] 0 0 fun _ => True
  intro outcome
  split
  · exact Task.keeps_raise fun _ busy => busy.1.published
  · split
    · exact Task.keeps_raise fun _ busy => busy.1.published
    · exact Task.keeps_raise fun _ busy => busy.1.published
  · have start : ∀ state : RestoreState σ, Busy scene [] 0 0 (fun _ => True) state →
      scene.Between [] state :=
      fun state busy => ⟨busy.1.published, busy.2.1, busy.2.2.1.le,
        fun _ _ member => by cases member⟩
    apply ((keeps_items inScene).attempt.weaken start fun _ _ known => known).bind _
    intro ended
    split
    · exact (keeps_finish inScene).weaken (fun _ known => known.2 _ rfl) fun _ _ known => known
    · split
      · exact Task.keeps_raise fun _ known => known.1
      · exact keeps_returning (fun _ known => known.1) fun _ => rfl

theorem keeps_restore {snapshot : SnapshotRow}
    (found : restorer.db.snapshots.get? snapshotId = some snapshot)
    (inScene : InScene scene restorer (.forSnapshot restorer.baseOutputDir snapshot.uuid))
    (items : (restorer.db.snapshotItemRows snapshotId).map (·.2) = scene.items) :
    Task.Keeps (fun state => scene.Published state.files)
      (fun state => scene.Published state.files ∧ state.stats = .start)
      (restorer.restore snapshotId) scene.Reported := by
  rw [SnapshotRestorer.restore, found]
  dsimp only
  split
  · exact keeps_returning (fun _ known => known.1) fun _ => rfl
  split
  · exact Task.keeps_raise fun _ known => known.1
  have look : Works (σ := σ) scene [] 0 0 (fun _ => True) (fun _ => True)
      (lexists restorer.host
        (RestorePaths.forSnapshot restorer.baseOutputDir snapshot.uuid).finalDir) fun _ _ => True :=
    works_lexists fun _ _ => trivial
  apply ((look.weakenAlways fun _ busy => busy.1.published).weaken _ fun _ _ busy => busy).bind _
  · intro present
    split
    · exact keeps_returning (fun _ busy => busy.1.published) fun _ => rfl
    rw [items]
    split
    · exact keeps_returning (fun _ busy => busy.1.published) fun _ => rfl
    · exact keeps_restoreItems inScene
  · rintro state ⟨published, fresh⟩
    exact ⟨kept_nil published, by rw [fresh]; rfl, by rw [fresh]; rfl, trivial⟩

end Publishing

section Attempts

variable {σ : Type} {restorer : SnapshotRestorer σ} {snapshotId : Nat}
  {snapshot : SnapshotRow} {files : Files}

/-- A snapshot whose items are listed as a walk lists them: no path climbs, and no two name one
place. -/
structure Restorable (db : MetadataDB) (snapshotId : Nat) (snapshot : SnapshotRow) : Prop where
  found : db.snapshots.get? snapshotId = some snapshot
  whole : '/' ∉ snapshot.uuid
  distinct : ((db.snapshotItemRows snapshotId).map fun entry => components entry.2.path).Nodup
  level : ∀ entry ∈ db.snapshotItemRows snapshotId, climbs entry.2.path = false

def finalNames (restorer : SnapshotRestorer σ) (snapshot : SnapshotRow) : List Component :=
  restorer.names (RestorePaths.forSnapshot restorer.baseOutputDir snapshot.uuid).finalDir

/-- The same restorer on a host with other failures. -/
def SnapshotRestorer.raising (restorer : SnapshotRestorer σ) (raises : Nat → Option Raised) :
    SnapshotRestorer σ :=
  { restorer with host := { restorer.host with raises } }

/-- What the files go through: attempts, each cut off at some moment or run to its end, and whatever
others do outside the final directory. -/
inductive RestoreRun (restorer : SnapshotRestorer σ) (snapshotId : Nat) (final : List Component) :
    Files → Prop
  | start (files : Files) (absent : files.get? final = none) :
      RestoreRun restorer snapshotId final files
  | changed {files : Files} (after : Files) (run : RestoreRun restorer snapshotId final files)
      (same : ∀ rest, after.get? (final ++ rest) = files.get? (final ++ rest)) :
      RestoreRun restorer snapshotId final after
  | attempted {moment : RestoreState σ} (raises : Nat → Option Raised) (state : RestoreState σ)
      (run : RestoreRun restorer snapshotId final state.files) (fresh : state.stats = .start)
      (member : moment ∈ ((restorer.raising raises).restore snapshotId).moments state) :
      RestoreRun restorer snapshotId final moment.files

theorem isName_of_long {name : Component} (long : 2 < name.length) (whole : '/' ∉ name) :
    IsName name := by
  refine ⟨?_, ?_, ?_, whole⟩ <;> rintro rfl <;> revert long <;> decide

theorem join_suffix (path : Text) {name suffix : Text} (short : IsName name)
    (long : IsName (name ++ suffix)) :
    join path (name ++ suffix) = join path name ++ suffix := by
  rw [join_relative (isAbs_name short), join_relative (isAbs_name long)]
  split <;> simp

theorem ne_beside {base rest more : List Component} {left right : Component}
    (other : left ≠ right) :
    base ++ [left] ++ rest ≠ base ++ [right] ++ more := by
  intro same
  rw [List.append_assoc, List.append_assoc] at same
  exact other (List.cons.inj (List.append_cancel_left same)).1

theorem outside_beside {base rest : List Component} {left right : Component}
    (other : left ≠ right) :
    ¬ base ++ [left] <+: base ++ [right] ++ rest :=
  fun ⟨_, same⟩ => ne_beside other same

theorem ne_longer (name : Component) {suffix : Text} (some : suffix ≠ []) :
    name ≠ name ++ suffix := by
  intro same
  exact some (List.self_eq_append_right.mp same)

def snapshotName (uuid : Text) : List Char := "snapshot_".toList ++ uuid

section Directories

variable (baseOutputDir uuid path : Text) (raises : Nat → Option Raised)

theorem forSnapshot_finalDir : (RestorePaths.forSnapshot baseOutputDir uuid).finalDir =
    join baseOutputDir (snapshotName uuid) := rfl

theorem forSnapshot_incompleteDir : (RestorePaths.forSnapshot baseOutputDir uuid).incompleteDir =
    join baseOutputDir (snapshotName uuid) ++ ".incomplete".toList := by
  unfold snapshotName RestorePaths.forSnapshot
  dsimp only

theorem forSnapshot_resumeDir : (RestorePaths.forSnapshot baseOutputDir uuid).resumeDir =
    join baseOutputDir (snapshotName uuid) ++ ".incomplete".toList ++ ".resume".toList := by
  unfold snapshotName RestorePaths.forSnapshot
  dsimp only

theorem names_raising : (restorer.raising raises).names path = restorer.names path := rfl

end Directories

/-- The directories of a snapshot stand beside each other. -/
def restoreScene (restorer : SnapshotRestorer σ)
    (restorable : Restorable restorer.db snapshotId snapshot) : RestoreScene where
  db := restorer.db
  blake3 := restorer.blake3
  items := (restorer.db.snapshotItemRows snapshotId).map (·.2)
  final := restorer.names restorer.baseOutputDir ++ [snapshotName snapshot.uuid]
  incomplete :=
    restorer.names restorer.baseOutputDir ++ [snapshotName snapshot.uuid ++ ".incomplete".toList]
  resume :=
    restorer.names restorer.baseOutputDir ++
      [snapshotName snapshot.uuid ++ ".incomplete".toList ++ ".resume".toList]
  distinct := by
    rw [List.map_map]
    exact restorable.distinct
  level item member := by
    obtain ⟨entry, listed, rfl⟩ := List.mem_map.mp member
    exact restorable.level entry listed
  finalIncomplete _ := outside_beside (ne_longer _ (by decide +kernel))
  finalResume _ := outside_beside (by
    rw [List.append_assoc]
    exact ne_longer _ (by decide +kernel))
  incompleteResume _ _ := ne_beside (ne_longer _ (by decide +kernel))

theorem isName_extended {front middle suffix : Text} (long : 2 < front.length)
    (frontPlain : '/' ∉ front) (whole : '/' ∉ middle)
    (plain : '/' ∉ suffix) : IsName (front ++ middle ++ suffix) := by
  apply isName_of_long
  · rw [List.length_append, List.length_append]
    omega
  · rw [List.mem_append, List.mem_append]
    exact not_or.mpr ⟨not_or.mpr ⟨frontPlain, whole⟩, plain⟩

theorem isName_snapshot (whole : '/' ∉ snapshot.uuid) {suffix : Text} (plain : '/' ∉ suffix) :
    IsName (snapshotName snapshot.uuid ++ suffix) :=
  isName_extended (by decide +kernel) (by decide +kernel) whole plain

theorem isName_digest {hex suffix : Text} (digits : ∀ char ∈ hex, char ∈ hexLower)
    (long : 2 < suffix.length) (plain : '/' ∉ suffix) :
    IsName (hex ++ suffix) := by
  apply isName_of_long
  · rw [List.length_append]
    omega
  · rw [List.mem_append]
    refine not_or.mpr ⟨fun digit => ?_, plain⟩
    have listed := digits _ digit
    revert listed
    decide +kernel

/-- Where the restore of a snapshot works, beside a directory of its own name. -/
theorem names_extended {cwd base name suffix : Text} (absolute : isAbs cwd = true)
    (short : IsName name) (long : IsName (name ++ suffix)) :
    resolve cwd (join base name ++ suffix) = resolve cwd base ++ [name ++ suffix] := by
  rw [← join_suffix base short long, resolve_join absolute base long]

theorem inScene_restoreScene (restorable : Restorable restorer.db snapshotId snapshot)
    (raises : Nat → Option Raised)
    (sound : ∀ state chunkHashes after results,
      restorer.prefetcher.fetchManyRawChunks state chunkHashes = .ok (after, results) →
      SoundResults restorer.blake3 results) :
    InScene (restoreScene restorer restorable) (restorer.raising raises)
      (.forSnapshot restorer.baseOutputDir snapshot.uuid) := by
  have absolute := restorer.host.cwdAbsolute
  have bare : IsName (snapshotName snapshot.uuid) := by
    have empty : IsName (snapshotName snapshot.uuid ++ []) :=
      isName_snapshot restorable.whole (by simp)
    rwa [List.append_nil] at empty
  have working : IsName (snapshotName snapshot.uuid ++ ".incomplete".toList) :=
    isName_snapshot restorable.whole (by decide +kernel)
  have resuming : IsName
      (snapshotName snapshot.uuid ++ ".incomplete".toList ++ ".resume".toList) := by
    rw [List.append_assoc]
    exact isName_snapshot restorable.whole (by decide +kernel)
  have final : restorer.names (join restorer.baseOutputDir (snapshotName snapshot.uuid)) =
      restorer.names restorer.baseOutputDir ++ [snapshotName snapshot.uuid] :=
        resolve_join absolute restorer.baseOutputDir bare
  have incomplete : restorer.names
      (join restorer.baseOutputDir (snapshotName snapshot.uuid) ++ ".incomplete".toList) =
      restorer.names restorer.baseOutputDir ++
        [snapshotName snapshot.uuid ++ ".incomplete".toList] :=
    names_extended absolute bare working
  have resume : restorer.names (join restorer.baseOutputDir (snapshotName snapshot.uuid) ++
      ".incomplete".toList ++ ".resume".toList) =
      restorer.names restorer.baseOutputDir ++
        [snapshotName snapshot.uuid ++ ".incomplete".toList ++ ".resume".toList] := by
    rw [← join_suffix restorer.baseOutputDir bare working]
    exact names_extended absolute working resuming
  constructor
  case db => rfl
  case blake3 => rfl
  case final =>
    rw [names_raising, forSnapshot_finalDir, final]
    rfl
  case incomplete =>
    rw [names_raising, forSnapshot_incompleteDir, incomplete]
    rfl
  case resume =>
    rw [names_raising, forSnapshot_resumeDir, resume]
    rfl
  case resumeFile =>
    intro relPath
    have named : IsName (blake3HexDigest restorer.blake3 (encodeUtf8 relPath) ++ ".part".toList) :=
      isName_digest (fun _ => toHex_hexLower) (by decide +kernel) (by decide +kernel)
    refine ⟨blake3HexDigest restorer.blake3 (encodeUtf8 relPath) ++ ".part".toList, ?_⟩
    have inside :=
      resolve_join absolute
        (RestorePaths.forSnapshot restorer.baseOutputDir snapshot.uuid).resumeDir named
    rw [names_raising, RestorePaths.resumeFile]
    exact inside.trans
      (congrArg (· ++ _) (((congrArg restorer.names (forSnapshot_resumeDir _ _)).trans resume)))
  case sound => exact sound

end Attempts

section Runs

variable {restorer : SnapshotRestorer FetchState} {snapshotId : Nat}
  {snapshot : SnapshotRow} {files : Files}

/-- Each batch is fetched by some service that hashes as the restorer does. -/
def FetchesChunks (restorer : SnapshotRestorer FetchState) : Prop :=
  ∀ state chunkHashes, ∃ service : ChunkFetchService, service.blake3 = restorer.blake3 ∧
    restorer.prefetcher.fetchManyRawChunks state chunkHashes =
      service.fetchManyRawChunks state chunkHashes

theorem FetchesChunks.sound (fetches : FetchesChunks restorer) {state after : FetchState}
    {chunkHashes : List Text} {results : Dict Text ChunkResult}
    (fetched : restorer.prefetcher.fetchManyRawChunks state chunkHashes = .ok (after, results)) :
    SoundResults restorer.blake3 results := by
  obtain ⟨service, same, asked⟩ := fetches state chunkHashes
  rw [asked] at fetched
  exact same ▸ ChunkFetchService.fetchManyRawChunks_sound fetched

theorem finalNames_eq (restorable : Restorable restorer.db snapshotId snapshot)
    (fetches : FetchesChunks restorer) :
    finalNames restorer snapshot = (restoreScene restorer restorable).final :=
  (inScene_restoreScene restorable restorer.host.raises fun _ _ _ _ => fetches.sound).final

theorem keeps_attempt (restorable : Restorable restorer.db snapshotId snapshot)
    (fetches : FetchesChunks restorer) (raises : Nat → Option Raised) :
    Task.Keeps (fun state => (restoreScene restorer restorable).Published state.files)
      (fun state => (restoreScene restorer restorable).Published state.files ∧ state.stats = .start)
      ((restorer.raising raises).restore snapshotId) (restoreScene restorer restorable).Reported :=
  keeps_restore restorable.found
    (inScene_restoreScene restorable raises fun _ _ _ _ => fetches.sound) rfl

theorem published_of_run (restorable : Restorable restorer.db snapshotId snapshot)
    (fetches : FetchesChunks restorer)
    (run : RestoreRun restorer snapshotId (finalNames restorer snapshot) files) :
    (restoreScene restorer restorable).Published files := by
  induction run with
  | start files absent =>
      rw [finalNames_eq restorable fetches] at absent
      exact .inl absent
  | changed after run same published =>
      rw [finalNames_eq restorable fetches] at same
      rcases published with absent | complete
      · exact .inl (by simpa [absent] using same [])
      · refine .inr fun item member => ?_
        have restored := complete item member
        unfold RestoredAt at restored ⊢
        rwa [same]
  | attempted raises state run fresh member published =>
      exact (keeps_attempt restorable fetches raises).moments ⟨published, fresh⟩ published member

/-- Whatever attempts were cut off, and wherever, the final directory is absent or holds every item
of the snapshot with its content; and an attempt that says it is complete leaves it there. -/
theorem restoreRuns_publishWhole (restorable : Restorable restorer.db snapshotId snapshot)
    (fetches : FetchesChunks restorer)
    (run : RestoreRun restorer snapshotId (finalNames restorer snapshot) files) :
    (files.get? (finalNames restorer snapshot) = none ∨
      ∀ entry ∈ restorer.db.snapshotItemRows snapshotId,
      RestoredAt restorer.db restorer.blake3 files (finalNames restorer snapshot) entry.2) ∧
    ∀ raises state result after, state.files = files → state.stats = .start →
      ((restorer.raising raises).restore snapshotId).Returns state result after →
      result.completed = true → ∀ entry ∈ restorer.db.snapshotItemRows snapshotId,
        RestoredAt restorer.db restorer.blake3 after.files
          (finalNames restorer snapshot) entry.2 := by
  have published := published_of_run restorable fetches run
  rw [finalNames_eq restorable fetches]
  constructor
  · rcases published with absent | complete
    · exact .inl absent
    · exact .inr fun entry member => complete entry.2 (List.mem_map_of_mem member)
  · rintro raises state result after rfl fresh ⟨returned, rfl⟩ claimed entry member
    have met := keeps_attempt restorable fetches raises state ⟨published, fresh⟩
    exact met.returned result returned claimed entry.2 (List.mem_map_of_mem member)

end Runs

namespace SevenFile

open ChunkFetchService

def snapshot : SnapshotRow where
  uuid := ['u']
  rootPath := []
  originNodeId := []
  status := .complete
  error := none
  totalSize := 1
  totalFiles := 1
  createdAt := []

def root : SnapshotItemRow where
  snapshotId := 1
  path := ['.']
  itemType := .dir
  size := 0
  mode := 0o755
  mtime := ⟨0⟩
  mtimeNs := 0
  ctimeNs := none
  uid := 0
  gid := 0
  recipeId := none

def seven : SnapshotItemRow :=
  { root with path := ['f'], itemType := .file, size := 1, mode := 0o600, recipeId := some 1 }

theorem isAbs_cwd : isAbs ['/'] = true := rfl

def restorer : SnapshotRestorer FetchState where
  db := { MetadataDB.empty with
    snapshots := .ofList [(1, snapshot)]
    recipes := .ofList [(1, { recipeHash := [], chunkCount := 1, totalSize := 1 })]
    recipeChunks :=
      .ofList [((1, 0), { chunkHash := blake3HexDigest sevenDigest [7], chunkSize := 1 })]
    snapshotItems := .ofList [(1, root), (2, seven)] }
  blake3 := sevenDigest
  host := { cwd := ['/'], umask := 0o022, raises := fun _ => none,
            realpath := fun _ path => .ok path, cwdAbsolute := isAbs_cwd }
  baseOutputDir := ['o']
  prefetcher := .init casOnly.fetchManyRawChunks 3

/-- A filesystem with nothing but its root. -/
def bare : Files where
  entries := .ofList [([], .directory 0o755)]
  inDirectories path name entry found := by
    rcases List.mem_singleton.mp (Dict.mem_of_get?_ofList found) with same
    simp at same

def starting (files : Files) : RestoreState FetchState where
  files := files
  stats := .start
  service := { noFetches with repo := sevenStored }
  resumeNameSynced := false
  calls := 0

def attempt (raises : Nat → Option Raised) (files : Files) : Files :=
  ((restorer.raising raises).restore 1 (starting files)).final.files

/-- An attempt that is interrupted while it writes the file, and one that goes on. -/
def restored : Files :=
  attempt (fun _ => none)
    (attempt (fun number => if number = 17 then some (.error .keyboardInterrupt) else none) bare)

end SevenFile

open SevenFile in
theorem sevenFile_restored : (restored.get? (finalNames restorer snapshot)).isSome = true ∧
    ∀ entry ∈ restorer.db.snapshotItemRows 1,
      RestoredAt restorer.db restorer.blake3 restored (finalNames restorer snapshot) entry.2 := by
  have restorable : Restorable restorer.db 1 snapshot :=
    ⟨by decide +kernel, by decide +kernel, by decide +kernel, by decide +kernel⟩
  have fetches : FetchesChunks restorer := fun _ _ => ⟨ChunkFetchService.casOnly, rfl, rfl⟩
  have absent : bare.get? (finalNames restorer snapshot) = none :=
    Option.isNone_iff_eq_none.mp (by decide +kernel)
  have there : (restored.get? (finalNames restorer snapshot)).isSome = true := by decide +kernel
  have attempted : ∀ raises files, RestoreRun restorer 1 (finalNames restorer snapshot) files →
      RestoreRun restorer 1 (finalNames restorer snapshot) (attempt raises files) :=
    fun raises files run => .attempted raises (starting files) run rfl (by simp [Task.moments])
  have run : RestoreRun restorer 1 (finalNames restorer snapshot) restored :=
    attempted _ _ (attempted _ _ (.start bare absent))
  refine ⟨there, (restoreRuns_publishWhole restorable fetches run).1.resolve_left ?_⟩
  intro missing
  rw [missing] at there
  cases there

end Stopan.Restore
