import Stopan.Restore.PartialFiles

namespace Stopan.Restore

open Stopan.Lib Stopan.Lib.PosixPath Stopan.Common Stopan.Metadata

/-- An item below a root: a directory, or a file with the chunks of the recipe of the item. -/
def RestoredAt (db : MetadataDB) (blake3 : Blake3) (files : Files) (root : List Component)
    (item : SnapshotItemRow) : Prop :=
  match item.itemType with
  | .dir => ∃ mode, files.get? (root ++ components item.path) = some (.directory mode)
  | .file => ∃ recipeId file, item.recipeId = some recipeId ∧
      files.get? (root ++ components item.path) = some (.leaf (.file file)) ∧
      file.data.length = item.size ∧ HoldsChunks blake3 (db.recipeChunkEntries recipeId) file.data
  | .other _ => False

/-- A snapshot and the three directories that its restore writes to, none of which stands in
another. -/
structure RestoreScene where
  db : MetadataDB
  blake3 : Blake3
  items : List SnapshotItemRow
  final : List Component
  incomplete : List Component
  resume : List Component
  distinct : (items.map fun item => components item.path).Nodup
  level : ∀ item ∈ items, climbs item.path = false
  finalIncomplete : ∀ rest, ¬ final <+: incomplete ++ rest
  finalResume : ∀ rest, ¬ final <+: resume ++ rest
  incompleteResume : ∀ rest more, incomplete ++ rest ≠ resume ++ more

namespace RestoreScene

variable (scene : RestoreScene)

def place (item : SnapshotItemRow) : List Component := scene.incomplete ++ components item.path

def Published (files : Files) : Prop :=
  files.get? scene.final = none ∨
    ∀ item ∈ scene.items, RestoredAt scene.db scene.blake3 files scene.final item

/-- What an attempt leaves alone: what is published, and the items that are done. -/
structure Kept (done : List SnapshotItemRow) (files : Files) : Prop where
  published : scene.Published files
  working : ∀ item ∈ done, RestoredAt scene.db scene.blake3 files scene.incomplete item

end RestoreScene

section Changes

variable {db : MetadataDB} {blake3 : Blake3} {scene : RestoreScene} {files after : Files}
  {root names source target : List Component}
  {item : SnapshotItemRow} {done : List SnapshotItemRow} {mode : Nat}
  {reason : Raised} {ended : Unit}

/-- An entry of which only the mode changes, or a directory that is new. -/
inductive EntryKept : Option (TreeEntry Nat Leaf) → Option (TreeEntry Nat Leaf) → Prop
  | same (entry : Option (TreeEntry Nat Leaf)) : EntryKept entry entry
  | created (mode : Nat) : EntryKept none (some (.directory mode))
  | directory (old mode : Nat) : EntryKept (some (.directory old)) (some (.directory mode))
  | file (file : RegularFile) (mode : Nat) :
      EntryKept (some (.leaf (.file file))) (some (.leaf (.file { file with mode })))

theorem RestoredAt.kept (restored : RestoredAt db blake3 files root item)
    (kept : EntryKept (files.get? (root ++ components item.path))
      (after.get? (root ++ components item.path))) :
    RestoredAt db blake3 after root item := by
  unfold RestoredAt at restored ⊢
  cases itemType : item.itemType with
  | other name => simp [itemType] at restored
  | dir =>
      simp only [itemType] at restored ⊢
      obtain ⟨old, found⟩ := restored
      rw [found] at kept
      generalize after.get? (root ++ components item.path) = now at kept ⊢
      cases kept with
      | same => exact ⟨old, rfl⟩
      | directory _ mode => exact ⟨mode, rfl⟩
  | file =>
      simp only [itemType] at restored ⊢
      obtain ⟨recipeId, file, recipe, found, size, holds⟩ := restored
      rw [found] at kept
      generalize after.get? (root ++ components item.path) = now at kept ⊢
      cases kept with
      | same => exact ⟨recipeId, file, recipe, rfl, size, holds⟩
      | file _ mode => exact ⟨recipeId, { file with mode }, recipe, rfl, size, holds⟩

/-- Entries that are kept, or that belong neither to the final tree nor to what is done. -/
theorem RestoreScene.Kept.step (kept : scene.Kept done files)
    (free : files.get? scene.final = none → after.get? scene.final = none)
    (entries : ∀ path, EntryKept (files.get? path) (after.get? path) ∨
      ¬ scene.final <+: path ∧ ∀ item ∈ done, path ≠ scene.place item) : scene.Kept done after := by
  constructor
  · rcases kept.published with absent | complete
    · exact .inl (free absent)
    · refine .inr fun item member => (complete item member).kept ?_
      rcases entries (scene.final ++ components item.path) with same | ⟨outside, -⟩
      · exact same
      · exact absurd (List.prefix_append _ _) outside
  · intro item member
    apply (kept.working item member).kept
    rcases entries (scene.incomplete ++ components item.path) with same | ⟨-, elsewhere⟩
    · exact same
    · exact absurd rfl (elsewhere item member)

theorem changed_eq_ok {option : Option Files} (ran : changed reason option = .ok (after, ended)) :
    option = some after := by
  unfold changed at ran
  split at ran
  · cases ran
    rfl
  · cases ran

theorem makeDir_eq_ok (made : makeDir names mode files = .ok (after, ended)) :
    files.get? names = none ∧
    ∀ path, after.get? path = if path = names then some (.directory mode) else files.get? path := by
  unfold makeDir at made
  split at made
  · cases made
  · rename_i absent
    exact ⟨absent, FileTree.get?_put (changed_eq_ok made)⟩

theorem makeDir_kept (made : makeDir names mode files = .ok (after, ended))
    (path : List Component) :
    EntryKept (files.get? path) (after.get? path) := by
  obtain ⟨absent, entries⟩ := makeDir_eq_ok made
  rw [entries path]
  split
  · rename_i here
    rw [here, absent]
    exact .created mode
  · exact .same _

theorem chmodNames_eq_ok (ran : chmodNames names mode files = .ok (after, ended))
    (path : List Component) :
    EntryKept (files.get? path) (after.get? path) ∧
      (files.get? path = none → after.get? path = none) := by
  unfold chmodNames at ran
  split at ran
  · rename_i old found
    rw [FileTree.get?_put (changed_eq_ok ran) path]
    split
    · rename_i here
      rw [here, found]
      exact ⟨.directory _ _, fun absent => by cases absent⟩
    · exact ⟨.same _, id⟩
  · rename_i file found
    rw [FileTree.get?_put (changed_eq_ok ran) path]
    split
    · rename_i here
      rw [here, found]
      exact ⟨.file _ _, fun absent => by cases absent⟩
    · exact ⟨.same _, id⟩
  · cases ran
    exact ⟨.same _, id⟩
  · cases ran

theorem unlinkNames_eq_ok (ran : unlinkNames names files = .ok (after, ended))
    (path : List Component) :
    after.get? path = if path = names then none else files.get? path := by
  unfold unlinkNames at ran
  split at ran
  · exact FileTree.get?_remove (changed_eq_ok ran) path
  · cases ran
  · cases ran

theorem rmdirNames_eq_ok (ran : rmdirNames names files = .ok (after, ended))
    (path : List Component) :
    after.get? path = if path = names then none else files.get? path := by
  unfold rmdirNames at ran
  split at ran
  · exact FileTree.get?_remove (changed_eq_ok ran) path
  · cases ran
  · cases ran

/-- What stands at the source stands at the target. -/
theorem replaceNames_eq_ok (ran : replaceNames source target files = .ok (after, ended)) :
    after.get? target = files.get? source ∧
      ∀ path, path ≠ target → after.get? path = if path = source then none
        else files.get? path := by
  unfold replaceNames at ran
  split at ran
  · cases ran
  · cases ran
  · cases ran
  · rename_i content found _
    obtain ⟨middle, removed, put⟩ := Option.bind_eq_some_iff.mp (changed_eq_ok ran)
    refine ⟨by rw [FileTree.get?_put put, if_pos rfl, found], fun path elsewhere => ?_⟩
    rw [FileTree.get?_put put, if_neg elsewhere, FileTree.get?_remove removed]

theorem renameNames_eq_ok (ran : renameNames source target files = .ok (after, ended)) :
    files.get? target = none ∧ files.rename source target = some after := by
  unfold renameNames at ran
  split at ran
  · cases ran
  · rename_i free
    exact ⟨free, changed_eq_ok ran⟩
  · cases ran

theorem RestoreScene.Kept.chmod (kept : scene.Kept done files)
    (ran : chmodNames names mode files = .ok (after, ended)) :
    scene.Kept done after :=
  kept.step (chmodNames_eq_ok ran _).2 fun path => .inl (chmodNames_eq_ok ran path).1

theorem RestoreScene.Kept.makeDir (kept : scene.Kept done files) (other : names ≠ scene.final)
    (made : makeDir names mode files = .ok (after, ended)) : scene.Kept done after := by
  apply kept.step
  · intro absent
    rwa [(makeDir_eq_ok made).2, if_neg other.symm]
  · exact fun path => .inl (makeDir_kept made path)

/-- One entry that belongs to nothing that is kept. -/
theorem RestoreScene.Kept.elsewhere (kept : scene.Kept done files)
    (outside : ¬ scene.final <+: names) (others : ∀ item ∈ done, names ≠ scene.place item)
    (same : ∀ path, path ≠ names → after.get? path = files.get? path) :
    scene.Kept done after := by
  apply kept.step
  · intro absent
    rw [same _ (by rintro rfl; exact outside List.prefix_rfl), absent]
  · intro path
    by_cases here : path = names
    · rw [here]
      exact .inr ⟨outside, others⟩
    · rw [same path here]
      exact .inl (.same _)

theorem RestoreScene.Kept.partials (kept : scene.Kept done files) {rest : List Component}
    (within : names = scene.resume ++ rest)
    (same : ∀ path, path ≠ names → after.get? path = files.get? path) : scene.Kept done after := by
  apply kept.elsewhere (within ▸ scene.finalResume rest) _ same
  intro item member here
  exact scene.incompleteResume _ _ (here.symm.trans within)

end Changes

/-- While one item is restored: what is done is kept, and the item is not counted yet. -/
def Busy {σ : Type} (scene : RestoreScene) (done : List SnapshotItemRow)
    (processed successful : Nat) (extra : Files → Prop) (state : RestoreState σ) : Prop :=
  scene.Kept done state.files ∧ state.stats.processedItems = processed ∧
    state.stats.successfulItems = successful ∧ extra state.files

/-- A part of an attempt that counts no item; `allowed` holds of the files at every moment. -/
abbrev Works {σ α : Type} (scene : RestoreScene) (done : List SnapshotItemRow)
    (processed successful : Nat) (allowed extra : Files → Prop)
    (task : RestoreTask σ α) (afterwards : α → Files → Prop) : Prop :=
  Task.Keeps (Busy scene done processed successful allowed)
    (Busy scene done processed successful extra) task
    fun value => Busy scene done processed successful (afterwards value)

/-- What a change of modes leaves true. -/
def ModeBlind (extra : Files → Prop) : Prop :=
  ∀ files after names mode ended, extra files →
    chmodNames names mode files = .ok (after, ended) → extra after

section Calls

variable {σ α β : Type} {host : RestoreHost} {scene : RestoreScene} {done : List SnapshotItemRow}
  {processed successful : Nat}
  {allowed extra : Files → Prop} {afterwards : α → Files → Prop} {mode : Nat} {path : Text}
  {task : RestoreTask σ α}

theorem Busy.weaken {state : RestoreState σ}
    (busy : Busy scene done processed successful extra state)
    (weaker : ∀ files, extra files → allowed files) :
    Busy scene done processed successful allowed state :=
  ⟨busy.1, busy.2.1, busy.2.2.1, weaker _ busy.2.2.2⟩

theorem works_pure {value : α} (before : ∀ files, extra files → allowed files)
    (known : ∀ files, extra files → afterwards value files) :
    Works scene done processed successful allowed extra (pure value : RestoreTask σ α) afterwards :=
  Task.keeps_done fun _ busy => ⟨busy.weaken before, busy.weaken known⟩

theorem works_raise {reason : Raised} (before : ∀ files, extra files → allowed files) :
    Works scene done processed successful allowed extra
      (Task.raise reason : RestoreTask σ α) afterwards :=
  Task.keeps_raise fun _ busy => busy.weaken before

theorem Works.pre {weaker : Files → Prop}
    (works : Works scene done processed successful allowed extra task afterwards)
    (stronger : ∀ files, weaker files → extra files) :
    Works scene done processed successful allowed weaker task afterwards :=
  Task.Keeps.weaken works (fun _ busy => busy.weaken stronger) fun _ _ busy => busy

theorem Works.post {known : α → Files → Prop}
    (works : Works scene done processed successful allowed extra task afterwards)
    (weaker : ∀ value files, afterwards value files → known value files) :
    Works scene done processed successful allowed extra task known :=
  Task.Keeps.weaken works (fun _ busy => busy) fun value _ busy => busy.weaken (weaker value)

theorem Works.attempt
    (works : Works scene done processed successful allowed extra task afterwards) :
    Works scene done processed successful allowed extra (Task.attempt task)
      fun outcome files => allowed files ∧ ∀ value, outcome = .ok value →
        afterwards value files := by
  apply (Task.Keeps.attempt works).weaken fun _ busy => busy
  rintro outcome state ⟨busy, known⟩
  exact ⟨busy.1, busy.2.1, busy.2.2.1, busy.2.2.2, fun value ended => (known value ended).2.2.2⟩

theorem works_inspect {look : RestoreState σ → Except Raised α}
    (before : ∀ files, extra files → allowed files) (known : ∀ state value, extra state.files →
      look state = .ok value → afterwards value state.files) :
    Works scene done processed successful allowed extra (Task.inspect look) afterwards :=
  Task.keeps_inspect fun state busy =>
    ⟨busy.weaken before, fun value looked => ⟨busy.1, busy.2.1, busy.2.2.1,
    known state value busy.2.2.2 looked⟩⟩

/-- A change of the state that neither changes the files nor counts an item. -/
theorem works_operate {change : RestoreState σ → RestoreState σ}
    (before : ∀ files, extra files → allowed files)
    (files : ∀ state, (change state).files = state.files)
    (processedItems : ∀ state, (change state).stats.processedItems = state.stats.processedItems)
    (successfulItems : ∀ state, (change state).stats.successfulItems =
      state.stats.successfulItems) :
    Works scene done processed successful allowed extra (Task.operate change) fun _ => extra := by
  apply Task.keeps_operate
  intro state busy
  have next : Busy scene done processed successful extra (change state) := by
    rw [Busy, files, processedItems, successfulItems]
    exact busy
  exact ⟨next.weaken before, next⟩

/-- The same, and what follows it. -/
theorem works_operate_bind {change : RestoreState σ → RestoreState σ}
    {next : Unit → RestoreTask σ α}
    (later : Works scene done processed successful allowed extra (next ()) afterwards)
    (before : ∀ files, extra files → allowed files)
    (files : ∀ state, (change state).files = state.files)
    (processedItems : ∀ state, (change state).stats.processedItems = state.stats.processedItems)
    (successfulItems : ∀ state, (change state).stats.successfulItems =
      state.stats.successfulItems) :
    Works scene done processed successful allowed extra (Task.operate change >>= next) afterwards :=
  Task.Keeps.bind _ (works_operate before files processedItems successfulItems) fun _ => later

theorem works_lifted {outcome : Except StopanError α}
    (before : ∀ files, extra files → allowed files) :
    Works scene done processed successful allowed extra (lifted outcome : RestoreTask σ α)
      fun value files => extra files ∧ outcome = .ok value := by
  apply works_inspect before
  intro state value known looked
  cases ran : outcome with
  | error reason =>
      rw [ran] at looked
      cases looked
  | ok found =>
      rw [ran] at looked
      cases looked
      exact ⟨known, rfl⟩

theorem keeps_call {always pre : RestoreState σ → Prop} {post : α → RestoreState σ → Prop}
    {act : Files → Except Raised (Files × α)} (before : ∀ state, pre state → always state)
    (counted : ∀ state calls, pre state → pre { state with calls })
    (acted : ∀ state after value, pre state → act state.files = .ok (after, value) →
      always { state with files := after } ∧ post value { state with files := after }) :
    Task.Keeps always pre (call host act) post := by
  apply Task.Keeps.bind fun _ => pre
  · exact Task.keeps_inspect fun state known => ⟨before state known, fun _ _ => known⟩
  intro number
  apply Task.Keeps.bind fun _ => pre
  · exact Task.keeps_operate fun state known => ⟨before _ (counted state _ known),
      counted state _ known⟩
  intro _
  cases host.raises number with
  | some reason => exact Task.keeps_raise before
  | none =>
      apply Task.Keeps.bind fun result state => pre state ∧ act state.files = .ok result
      · exact Task.keeps_inspect fun state known => ⟨before state known, fun _ ran => ⟨known, ran⟩⟩
      rintro ⟨after, value⟩
      apply Task.Keeps.bind fun _ state => always state ∧ post value state
      · apply Task.keeps_operate
        rintro state ⟨known, ran⟩
        exact ⟨(acted state after value known ran).1, acted state after value known ran⟩
      intro _
      exact Task.keeps_done fun _ known => known

theorem works_call {act : Files → Except Raised (Files × α)}
    (before : ∀ files, extra files → allowed files)
    (later : ∀ value files, afterwards value files → allowed files)
    (acted : ∀ files after value, scene.Kept done files → extra files →
      act files = .ok (after, value) → scene.Kept done after ∧ afterwards value after) :
    Works (σ := σ) scene done processed successful allowed extra (call host act) afterwards := by
  apply keeps_call (fun _ busy => busy.weaken before) fun _ _ busy => busy
  intro state after value busy ran
  obtain ⟨kept, known⟩ := acted state.files after value busy.1 busy.2.2.2 ran
  have next : Busy scene done processed successful (afterwards value)
      { state with files := after } :=
    ⟨kept, busy.2.1, busy.2.2.1, known⟩
  exact ⟨next.weaken (later value), next⟩

theorem works_look {read : Files → Except Raised α}
    (before : ∀ files, extra files → allowed files) :
    Works scene done processed successful allowed extra (look host read : RestoreTask σ α)
      fun value files => extra files ∧ read files = .ok value := by
  apply works_call before fun _ _ known => before _ known.1
  intro files after value kept known ran
  obtain ⟨found, read, same⟩ := map_eq_ok_iff.mp ran
  cases same
  exact ⟨kept, known, read⟩

theorem works_chmod (before : ∀ files, extra files → allowed files) (blind : ModeBlind extra) :
    Works scene done processed successful allowed extra (chmod host path mode : RestoreTask σ Unit)
      fun _ => extra :=
  works_call before (fun _ => before) fun files after ended kept known ran =>
    ⟨kept.chmod ran, blind files after _ _ ended known ran⟩

theorem works_ensureWorkDirectoryPermissions (before : ∀ files, extra files → allowed files)
    (blind : ModeBlind extra) :
    Works scene done processed successful allowed extra
      (ensureWorkDirectoryPermissions host path : RestoreTask σ Unit)
      fun _ => extra := by
  apply (works_look before).bind _
  intro currentMode
  dsimp only
  split
  · exact (works_chmod before blind).pre fun _ known => known.1
  · exact works_pure (fun files known => before files known.1) fun _ known => known.1

theorem works_applyItemMetadata {item : SnapshotItemRow}
    (before : ∀ files, extra files → allowed files) (blind : ModeBlind extra) :
    Works scene done processed successful allowed extra
      (applyItemMetadata host path item : RestoreTask σ Unit) fun _ => extra := by
  have inner : Works (σ := σ) scene done processed successful extra extra
      (do chmod host path item.mode; look host fun _ => .ok ()) fun _ => extra := by
    apply (works_chmod (fun _ known => known) blind).bind _
    intro _
    exact (works_look fun _ known => known).post fun _ _ known => known.1
  apply Task.Keeps.bind fun _ => Busy scene done processed successful extra
  · apply (Task.Keeps.weakenAlways inner.attempt fun _ busy => busy.weaken before).weaken
      fun _ busy => busy
    exact fun _ _ busy => busy.weaken fun _ known => known.1
  intro outcome
  split
  · exact works_pure before fun _ known => known
  · split
    · exact works_pure before fun _ known => known
    · exact works_raise before

theorem works_lexists (before : ∀ files, extra files → allowed files) :
    Works scene done processed successful allowed extra (lexists host path : RestoreTask σ Bool)
      fun _ => extra := by
  have inner : Works (σ := σ) scene done processed successful extra extra
      (look host fun files => .ok (files.get? (resolve host.cwd path)).isSome) fun _ => extra :=
    (works_look fun _ known => known).post fun _ _ known => known.1
  apply Task.Keeps.bind fun _ => Busy scene done processed successful extra
  · apply (Task.Keeps.weakenAlways inner.attempt fun _ busy => busy.weaken before).weaken
      fun _ busy => busy
    exact fun _ _ busy => busy.weaken fun _ known => known.1
  intro outcome
  split
  · exact works_pure before fun _ known => known
  · split
    · exact works_pure before fun _ known => known
    · exact works_raise before

end Calls

/-- What a new directory leaves true. -/
def Grows (extra : Files → Prop) : Prop :=
  ∀ files after names mode ended, extra files →
    makeDir names mode files = .ok (after, ended) → extra after

section Directories

variable {σ : Type} {host : RestoreHost} {scene : RestoreScene} {done : List SnapshotItemRow}
  {processed successful : Nat}
  {allowed extra : Files → Prop} {mode : Nat} {path baseDir relPath : Text}
  {names : List Component} {files : Files}

theorem works_ensureDirectory (before : ∀ files, extra files → allowed files) (grows : Grows extra)
    (other : names ≠ scene.final) :
    Works scene done processed successful allowed extra
      (ensureDirectory host names mode : RestoreTask σ Unit)
      fun _ files => extra files ∧ isDir files names = true := by
  apply Task.Keeps.bind fun present => Busy scene done processed successful
    fun files => extra files ∧ isDir files names = present
  · apply works_inspect before
    intro state present known looked
    cases looked
    exact ⟨known, rfl⟩
  intro present
  cases present with
  | true => exact works_pure (fun files known => before files known.1) fun _ known => known
  | false =>
      apply works_call (fun files known => before files known.1) fun _ files known =>
        before files known.1
      intro files after ended kept known made
      refine ⟨kept.makeDir other made, grows _ _ _ _ _ known.1 made, ?_⟩
      rw [isDir, (makeDir_eq_ok made).2, if_pos rfl]

theorem works_makedirs (before : ∀ files, extra files → allowed files) (grows : Grows extra)
    (clear : ¬ scene.final <+: resolve host.cwd path) :
    Works scene done processed successful allowed extra
      (makedirs host path mode : RestoreTask σ Unit)
      fun _ files => extra files ∧ isDir files (resolve host.cwd path) = true := by
  apply Task.Keeps.bind fun _ => Busy scene done processed successful extra
  · apply Task.keeps_forEach (fun _ => Busy scene done processed successful extra)
      (fun _ _ busy => busy.weaken before) _ _ [] rfl
    intro finished above rest whole
    have listed : above ∈ (resolve host.cwd path).inits.dropLast := by
      rw [List.nil_append] at whole
      rw [whole]
      simp
    have inside : above <+: resolve host.cwd path :=
      (List.mem_inits _ _).mp (List.dropLast_subset _ listed)
    apply (works_ensureDirectory before grows _).post fun _ _ known => known.1
    rintro rfl
    exact clear inside
  · intro _
    apply works_ensureDirectory before grows
    intro same
    exact clear (same ▸ List.prefix_rfl)

theorem works_checkRoot (before : ∀ files, extra files → allowed files) :
    Works scene done processed successful allowed extra (checkRoot host path : RestoreTask σ Unit)
      fun _ => extra :=
  (works_look before).post fun _ _ known => known.1

theorem orDot_injective {left right : List Component}
    (lefts : ∀ part ∈ left, part ≠ [] ∧ '/' ∉ part) (rights : ∀ part ∈ right, part ≠ [] ∧
      '/' ∉ part) (leftDot : dot ∉ left) (rightDot : dot ∉ right)
    (same : orDot (joinSep '/' left) = orDot (joinSep '/' right)) : left = right := by
  have single : ∀ {parts : List Component}, (∀ part ∈ parts, part ≠ [] ∧ '/' ∉ part) → dot ∉ parts →
      orDot (joinSep '/' parts) = dot → parts = [] := by
    intro parts proper noDot isDot
    by_contra some
    have split := split_orDot some proper
    rw [isDot] at split
    exact noDot (by rw [← split]; decide)
  by_cases leftEmpty : left = []
  · rw [leftEmpty] at same
    rw [leftEmpty, single rights rightDot (same.symm.trans (by decide))]
  by_cases rightEmpty : right = []
  · rw [rightEmpty] at same
    rw [rightEmpty, single lefts leftDot (same.trans (by decide))]
  · rw [← split_orDot leftEmpty lefts, ← split_orDot rightEmpty rights, same]

/-- A path that does not climb leads where its components say, and not to a link. -/
theorem safeRestorePath_located
    (accepted : safeRestorePath (host.fileSystem files) baseDir relPath = .ok path)
    (level : climbs relPath = false) :
    (∀ name ∈ resolve host.cwd baseDir ++ components relPath, IsName name) ∧
      path = fromRoot (resolve host.cwd baseDir ++ components relPath) ∧
      ∀ toDirectory, files.get? (resolve host.cwd baseDir ++ components relPath) ≠ some
        (.leaf (.link toDirectory)) := by
  obtain ⟨base, inside, names, root, located, real, text⟩ := safeRestorePath_inside accepted
  have baseNames : ∀ name ∈ base, IsName name :=
    fun name member => names name (List.mem_append_left inside member)
  have insideNames : ∀ name ∈ inside, IsName name :=
    fun name member => names name (List.mem_append_right base member)
  have sameBase : resolve host.cwd baseDir = base := by
    have abs : abspath host.cwd baseDir = fromRoot base := root
    rw [← resolve_abspath host.cwdAbsolute baseDir, abs, resolve_fromRoot host.cwd baseNames]
  have relative : isAbs relPath = false := by
    obtain ⟨_, -, -, unrooted, -⟩ := safeRestorePath_eq_ok accepted
    cases rooted : isAbs relPath with
    | false => rfl
    | true =>
        rw [isAbs_normpath rooted] at unrooted
        cases unrooted
  obtain ⟨normal, reduced⟩ := normpath_relative relative
  have sameInside : components relPath = inside := by
    apply orDot_injective reduced.parts (fun name member => (insideNames name member).part)
    · exact fun member => reduced.notDot dot member rfl
    · exact fun member => (insideNames dot member).notDot rfl
    · rw [← normal, text level]
  rw [sameBase, sameInside]
  refine ⟨names, located, fun toDirectory link => ?_⟩
  apply real inside List.prefix_rfl
  change lstatOf files (resolve host.cwd (fromRoot (base ++ inside))) = .found .symlink
  rw [resolve_fromRoot host.cwd names, lstatOf, link]

end Directories

/-- A regular file whose data meet a condition. -/
def FileAt (path : List Component) (condition : Bytes → Prop) (files : Files) : Prop :=
  ∃ file, files.get? path = some (.leaf (.file file)) ∧ condition file.data

theorem modeBlind_true : ModeBlind fun _ => True := fun _ _ _ _ _ _ _ => trivial

theorem modeBlind_fileAt (path : List Component) (condition : Bytes → Prop) :
    ModeBlind (FileAt path condition) := by
  rintro files after names mode ended ⟨file, found, met⟩ ran
  have kept := (chmodNames_eq_ok ran path).1
  rw [found] at kept
  generalize stored : after.get? path = now at kept
  cases kept with
  | same => exact ⟨file, stored, met⟩
  | file _ mode => exact ⟨{ file with mode }, stored, met⟩

theorem modeBlind_directory (path : List Component) :
    ModeBlind fun files => ∃ mode, files.get? path = some (.directory mode) := by
  rintro files after names mode ended ⟨old, found⟩ ran
  have kept := (chmodNames_eq_ok ran path).1
  rw [found] at kept
  generalize stored : after.get? path = now at kept
  cases kept with
  | same => exact ⟨old, rfl⟩
  | directory _ mode => exact ⟨mode, rfl⟩

/-- The restorer works in the directories of the scene. -/
structure InScene {σ : Type} (scene : RestoreScene) (restorer : SnapshotRestorer σ)
    (paths : RestorePaths) : Prop where
  db : restorer.db = scene.db
  blake3 : restorer.blake3 = scene.blake3
  final : restorer.names paths.finalDir = scene.final
  incomplete : restorer.names paths.incompleteDir = scene.incomplete
  resume : restorer.names paths.resumeDir = scene.resume
  resumeFile : ∀ relPath, ∃ name, restorer.names (paths.resumeFile restorer.blake3 relPath) =
    scene.resume ++ [name]
  sound : ∀ state chunkHashes after results,
    restorer.prefetcher.fetchManyRawChunks state chunkHashes = .ok (after, results) →
    SoundResults restorer.blake3 results

end Stopan.Restore
