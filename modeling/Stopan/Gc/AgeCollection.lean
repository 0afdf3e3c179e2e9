import Stopan.Gc.PathSafety

/-!
Deletion of local files by age (`stopan/gc/local_files.py`), file by file against a filesystem that
may change between the decision about a file and its deletion.
-/

namespace Stopan.Gc

open Stopan.Lib Stopan.Lib.PosixPath Stopan.Common

variable {τ : Type} [LinearOrder τ]

/-- What a collection finds at one file: the filesystem when its age is judged, the filesystem when
it is checked again and unlinked, and whether the unlink fails. -/
structure Visit (τ : Type) where
  decision : World τ
  recheck : World τ
  unlinkError : Option String

/-- The order of `sorted` on paths. -/
def pathLe (left right : PurePath) : Bool := decide (split left.text ≤ split right.text)

structure CollectionSettings where
  target : String
  dryRun : Bool
  retainFile : Option (PurePath → Bool)
  sortFiles : Bool

/-- The counters of the loop, with the paths that it has unlinked and their turns. -/
structure Collection where
  filesSeen : Nat
  filesCollectable : Nat
  filesDeleted : Nat
  filesRetainedByPolicy : Nat
  filesSkippedByAge : Nat
  bytesCollectable : Nat
  bytesDeleted : Nat
  errors : List String
  touchedDirs : List PurePath
  unlinked : List (Nat × PurePath)

def Collection.start : Collection where
  filesSeen := 0
  filesCollectable := 0
  filesDeleted := 0
  filesRetainedByPolicy := 0
  filesSkippedByAge := 0
  bytesCollectable := 0
  bytesDeleted := 0
  errors := []
  touchedDirs := []
  unlinked := []

def Collection.report (state : Collection) (message : String) : Collection :=
  { state with errors := state.errors ++ [message] }

def isRetained (settings : CollectionSettings) (path : PurePath) : Bool :=
  match settings.retainFile with
  | none => false
  | some retainFile => retainFile path

/-- The second check of a candidate and its deletion. -/
def deleteCandidate (root : Text) (turn : Nat) (visit : Visit τ)
    (judged : StatResult τ) (path : PurePath) (state : Collection) : Collection × Option GcError :=
  match validateGcRegularFile visit.recheck root path with
  | .error (.path reason) | .error (.os reason) =>
      (state.report s!"borrado falló {String.ofList path.text}: {reason}", none)
  | .error (.other reason) => (state, some (.other reason))
  | .ok current =>
      if !sameFileIdentity judged current then
        (state.report s!"candidato cambió antes del borrado, omitido {String.ofList path.text}",
          none)
      else
        match visit.unlinkError with
        | some reason => (state.report s!"borrado falló {String.ofList path.text}: {reason}", none)
        | none =>
            ({ state with
              filesDeleted := state.filesDeleted + 1
              bytesDeleted := state.bytesDeleted + current.size
              touchedDirs := if state.touchedDirs.contains path.parent then state.touchedDirs
                else state.touchedDirs ++ [path.parent]
              unlinked := state.unlinked ++ [(turn, path)] }, none)

/-- The body of the loop. -/
def collectFile (settings : CollectionSettings) (root : Text) (cutoff : Option τ)
    (turn : Nat) (visit : Visit τ)
    (path : PurePath) (state : Collection) : Collection × Option GcError :=
  match validateGcRegularFile visit.decision root path with
  | .error (.path message) => (state.report message, none)
  | .error reason => (state, some reason)
  | .ok judged =>
      let seen := { state with filesSeen := state.filesSeen + 1 }
      match cutoff with
      | none => (seen, none)
      | some cutoff =>
          if isRetained settings path then
            ({ seen with filesRetainedByPolicy := seen.filesRetainedByPolicy + 1 }, none)
          else if cutoff < judged.mtime then
            ({ seen with filesSkippedByAge := seen.filesSkippedByAge + 1 }, none)
          else
            let collectable := { seen with
              filesCollectable := seen.filesCollectable + 1
              bytesCollectable := seen.bytesCollectable + judged.size }
            if settings.dryRun then (collectable, none)
            else deleteCandidate root turn visit judged path collectable

/-- The loop; an exception that is not caught ends it. -/
def collectFrom (settings : CollectionSettings) (root : Text) (cutoff : Option τ)
    (visits : Nat → Visit τ) :
    Nat → List PurePath → Collection → Collection × Option GcError
  | _, [], state => (state, none)
  | turn, path :: rest, state =>
      match collectFile settings root cutoff turn (visits turn) path state with
      | (after, some reason) => (after, some reason)
      | (after, none) => collectFrom settings root cutoff visits (turn + 1) rest after

/-- `_fsync_touched_dirs`. -/
def fsyncTouchedDirs (fsyncError : PurePath → Option String) (state : Collection) : Collection :=
  (state.touchedDirs.mergeSort pathLe).foldl (fun state directory =>
    match fsyncError directory with
    | none => state
    | some reason =>
        state.report s!"fsync de directorio falló {String.ofList directory.text}: {reason}") state

structure CollectionResult (τ : Type) where
  target : String
  rootDir : Text
  dryRun : Bool
  enabled : Bool
  maxAgeSeconds : Option Nat
  cutoffUnix : Option τ
  collected : Collection

/-- The filesystem around the loop: the root when the collection starts, the visits, and the final
`fsync`s. -/
structure CollectionRun (τ : Type) where
  resolveRoot : Text → Except GcError Text
  rootExists : Text → Bool
  rootIsDir : Text → Bool
  cutoffOf : Nat → τ
  visits : Nat → Visit τ
  fsyncError : PurePath → Option String

/-- `collect_files_by_age`: what it has unlinked, and its result or the exception that ends it. -/
def collectFilesByAge (run : CollectionRun τ) (settings : CollectionSettings) (rootDir : Text)
    (files : List PurePath)
    (maxAgeSeconds : Option Int) : List (Nat × PurePath) × Except GcError (CollectionResult τ) :=
  match run.resolveRoot rootDir with
  | .error reason => ([], .error reason)
  | .ok root =>
      let maxAge := maxAgeSeconds.map fun seconds => (max seconds 0).toNat
      let cutoff := maxAge.map run.cutoffOf
      let result (collected : Collection) : CollectionResult τ := {
        target := settings.target
        rootDir := root
        dryRun := settings.dryRun
        enabled := maxAge.isSome
        maxAgeSeconds := maxAge
        cutoffUnix := cutoff
        collected }
      if !run.rootExists root then ([], .ok (result .start))
      else if !run.rootIsDir root then
        ([], .ok (result
          (Collection.start.report s!"root_dir no es un directorio: {String.ofList root}")))
      else
        let iterated := if settings.sortFiles then files.mergeSort pathLe else files
        match collectFrom settings root cutoff run.visits 0 iterated .start with
        | (ended, some reason) => (ended.unlinked, .error reason)
        | (ended, none) => (ended.unlinked, .ok (result (fsyncTouchedDirs run.fsyncError ended)))

variable {settings : CollectionSettings} {root : Text} {cutoff : Option τ}
  {visits : Nat → Visit τ} {visit : Visit τ}
variable {path : PurePath} {files : List PurePath} {state : Collection} {turn : Nat}
  {judged current : StatResult τ}

/-- The same device and inode, or, where an inode number is missing, the same mode, size and
times. -/
def SameObject (first second : StatResult τ) : Prop :=
  (first.dev, first.ino) = (second.dev, second.ino) ∨
    (first.ino = 0 ∨ second.ino = 0) ∧
      (first.kind, first.permissions, first.size, first.mtimeNs, first.ctimeNs) =
      (second.kind, second.permissions, second.size, second.mtimeNs, second.ctimeNs)

omit [LinearOrder τ] in
theorem sameObject_of_identity (same : sameFileIdentity judged current = true) :
    SameObject judged current := by
  rw [sameFileIdentity] at same
  split at same
  · exact .inl (of_decide_eq_true same)
  · rename_i numbered
    refine .inr ⟨?_, of_decide_eq_true same⟩
    rwa [not_and_or, not_not, not_not] at numbered

/-- What has been found out about a file before it is unlinked. -/
structure Cleared (settings : CollectionSettings) (root : Text) (limit : τ)
    (visit : Visit τ) (path : PurePath) (judged current : StatResult τ) : Prop where
  decision : validateGcRegularFile visit.decision root path = .ok judged
  recheck : validateGcRegularFile visit.recheck root path = .ok current
  same : sameFileIdentity judged current = true
  kept : isRetained settings path = false
  old : judged.mtime ≤ limit

/-- One file more may have been unlinked, and only after its checks. -/
def UnlinksCleared (settings : CollectionSettings) (root : Text) (cutoff : Option τ)
    (turn : Nat) (visit : Visit τ) (path : PurePath) (before after : Collection) : Prop :=
  after.unlinked = before.unlinked ∨
    after.unlinked = before.unlinked ++ [(turn, path)] ∧ settings.dryRun = false ∧
      ∃ limit judged current, cutoff = some limit ∧
        Cleared settings root limit visit path judged current

/-- With a limit every file that is seen is retained, too young or collectable. -/
def Collection.Balanced (state : Collection) : Prop :=
  state.filesSeen = state.filesRetainedByPolicy + state.filesSkippedByAge + state.filesCollectable

omit [LinearOrder τ] in
theorem deleteCandidate_counts :
    (deleteCandidate root turn visit judged path state).1.Balanced ↔ state.Balanced := by
  rw [deleteCandidate]
  split
  · rfl
  · rfl
  · rfl
  · split
    · rfl
    · split <;> rfl

omit [LinearOrder τ] in
theorem deleteCandidate_unlinked :
    (deleteCandidate root turn visit judged path state).1.unlinked = state.unlinked ∨
      (deleteCandidate root turn visit judged path state).1.unlinked =
        state.unlinked ++ [(turn, path)] ∧
        ∃ current, validateGcRegularFile visit.recheck root path = .ok current ∧
          sameFileIdentity judged current = true := by
  rw [deleteCandidate]
  split
  · exact .inl rfl
  · exact .inl rfl
  · exact .inl rfl
  · rename_i current validated
    split
    · exact .inl rfl
    · rename_i same
      split
      · exact .inl rfl
      · exact .inr ⟨rfl, current, validated, by simpa using same⟩

theorem collectFile_unlinked :
    UnlinksCleared settings root cutoff turn visit path state
      (collectFile settings root cutoff turn visit path state).1 := by
  rw [collectFile]
  split
  · exact .inl rfl
  · exact .inl rfl
  · rename_i judged decision
    dsimp only
    split
    · exact .inl rfl
    · rename_i limit
      split
      · exact .inl rfl
      rename_i kept
      split
      · exact .inl rfl
      rename_i old
      split
      · exact .inl rfl
      rename_i wet
      rcases deleteCandidate_unlinked with unchanged | ⟨unlinked, current, recheck, same⟩
      · exact .inl unchanged
      · refine .inr ⟨unlinked, by simpa using wet, limit, judged, current, rfl, decision, recheck,
          same, by simpa using kept, ?_⟩
        exact not_lt.mp old

theorem collectFile_balanced {limit : τ} (balanced : state.Balanced) :
    (collectFile settings root (some limit) turn visit path state).1.Balanced := by
  rw [collectFile]
  split
  · exact balanced
  · exact balanced
  · dsimp only
    split
    · rw [Collection.Balanced] at balanced ⊢
      dsimp only
      omega
    · split
      · rw [Collection.Balanced] at balanced ⊢
        dsimp only
        omega
      · split
        · rw [Collection.Balanced] at balanced ⊢
          dsimp only
          omega
        · rw [deleteCandidate_counts, Collection.Balanced]
          rw [Collection.Balanced] at balanced
          dsimp only
          omega

/-- What the body of the loop keeps for the files of the list, the loop keeps. -/
theorem collectFrom_invariant (holds : Collection → Prop)
    (step : ∀ turn path state, path ∈ files → holds state →
      holds (collectFile settings root cutoff turn (visits turn) path state).1)
        (start : holds state) :
    holds (collectFrom settings root cutoff visits turn files state).1 := by
  induction files generalizing turn state with
  | nil => exact start
  | cons path rest ih =>
      have next := step turn path state List.mem_cons_self start
      rw [collectFrom]
      generalize collectFile settings root cutoff turn (visits turn) path state = result at next ⊢
      obtain ⟨after, failure⟩ := result
      cases failure with
      | some reason => exact next
      | none => exact ih (fun turn path state member => step turn path state
        (List.mem_cons_of_mem _ member)) next

theorem collectFrom_cleared (started : state.unlinked = []) :
    ∀ entry ∈ (collectFrom settings root cutoff visits turn files state).1.unlinked,
      entry.2 ∈ files ∧ settings.dryRun = false ∧ ∃ limit judged current, cutoff = some limit ∧
        Cleared settings root limit (visits entry.1) entry.2 judged current := by
  refine collectFrom_invariant (fun state => ∀ entry ∈ state.unlinked, entry.2 ∈ files ∧
    settings.dryRun = false ∧
    ∃ limit judged current, cutoff = some limit ∧
      Cleared settings root limit (visits entry.1) entry.2 judged current) ?_ ?_
  · intro turn path state member cleared entry unlinked
    have step : UnlinksCleared settings root cutoff turn (visits turn) path state _ :=
      collectFile_unlinked
    rcases step with unchanged | ⟨added, wet, evidence⟩
    · rw [unchanged] at unlinked
      exact cleared entry unlinked
    · rw [added] at unlinked
      rcases List.mem_append.mp unlinked with earlier | last
      · exact cleared entry earlier
      · rw [List.mem_singleton.mp last]
        exact ⟨member, wet, evidence⟩
  · intro entry unlinked
    rw [started] at unlinked
    cases unlinked

theorem fsyncTouchedDirs_balanced {fsyncError : PurePath → Option String}
    (balanced : state.Balanced) : (fsyncTouchedDirs fsyncError state).Balanced := by
  refine List.foldlRecOn (motive := Collection.Balanced) _ _ balanced
    fun state balanced directory _ => ?_
  split
  · exact balanced
  · exact balanced

/-- What an unlinked file was when it was judged and when it was unlinked. -/
def SafelyUnlinked (settings : CollectionSettings) (root : Text) (limit : τ) (visit : Visit τ)
    (path : PurePath) : Prop :=
  ∃ judged current, visit.decision.lstat path.text = .found judged ∧
    visit.recheck.lstat path.text = .found current ∧
    Confined visit.decision root path judged ∧ Confined visit.recheck root path current ∧
    SameObject judged current ∧ isRetained settings path = false ∧ judged.mtime ≤ limit

theorem Cleared.safelyUnlinked {limit : τ}
    (cleared : Cleared settings root limit visit path judged current)
    (level : dotDot ∉ path.parts) : SafelyUnlinked settings root limit visit path :=
  ⟨judged, current, validateGcRegularFile_lstat cleared.decision level,
    validateGcRegularFile_lstat cleared.recheck level,
    validateGcRegularFile_confined cleared.decision, validateGcRegularFile_confined cleared.recheck,
    sameObject_of_identity cleared.same, cleared.kept, cleared.old⟩

/-- The limit that an age gives. -/
def cutoffAt (cutoffOf : Nat → τ) (maxAgeSeconds : Option Int) : Option τ :=
  (maxAgeSeconds.map fun seconds => (max seconds 0).toNat).map cutoffOf

omit [LinearOrder τ] in
theorem cutoffAt_eq_some {cutoffOf : Nat → τ} {maxAgeSeconds : Option Int} {limit : τ}
    (limited : cutoffAt cutoffOf maxAgeSeconds = some limit) :
    ∃ seconds, maxAgeSeconds = some seconds ∧ cutoffOf (max seconds 0).toNat = limit := by
  cases maxAgeSeconds with
  | none => cases limited
  | some seconds => exact ⟨seconds, rfl, Option.some.inj limited⟩

/-- What holds of the loop with an age limit, from its beginning. -/
theorem collectFrom_safe {cutoffOf : Nat → τ} {maxAgeSeconds : Option Int} {listed : List PurePath}
    {ended : Collection × Option GcError} (members : ∀ path ∈ listed, path ∈ files)
    (level : ∀ path ∈ files, dotDot ∉ path.parts)
    (ends : collectFrom settings root
      (cutoffAt cutoffOf maxAgeSeconds) visits 0 listed .start = ended) :
    (∀ entry ∈ ended.1.unlinked, entry.2 ∈ files ∧ ∃ seconds, maxAgeSeconds = some seconds ∧
      SafelyUnlinked settings root (cutoffOf (max seconds 0).toNat) (visits entry.1) entry.2) ∧
    (settings.dryRun = true ∨ maxAgeSeconds = none → ended.1.unlinked = []) ∧
      (maxAgeSeconds ≠ none → ended.1.Balanced) := by
  have cleared := @collectFrom_cleared _ _ settings root
    (cutoffAt cutoffOf maxAgeSeconds) visits listed .start 0 rfl
  rw [ends] at cleared
  refine ⟨fun entry unlinked => ?_, fun harmless => ?_, fun limited => ?_⟩
  · obtain ⟨inList, -, limit, judged, current, limited, evidence⟩ := cleared entry unlinked
    obtain ⟨seconds, same, rfl⟩ := cutoffAt_eq_some limited
    have member := members entry.2 inList
    exact ⟨member, seconds, same, evidence.safelyUnlinked (level entry.2 member)⟩
  · refine List.eq_nil_iff_forall_not_mem.mpr fun entry unlinked => ?_
    obtain ⟨-, wet, limit, judged, current, limited, -⟩ := cleared entry unlinked
    rcases harmless with dry | unlimited
    · rw [dry] at wet
      cases wet
    · rw [unlimited] at limited
      cases limited
  · obtain ⟨seconds, same⟩ := Option.ne_none_iff_exists'.mp limited
    rw [same] at ends
    rw [← ends]
    exact collectFrom_invariant Collection.Balanced
      (fun _ _ _ _ balanced => collectFile_balanced balanced) rfl

/-- Every file that is unlinked is a regular file inside the root with no link on the way, the same
object as the one whose age was judged, not retained and not younger than the limit. Nothing is
unlinked in a dry run or without a limit, and with a limit every file seen is retained, too young or
collectable. -/
theorem collectFilesByAge_safe (run : CollectionRun τ) (settings : CollectionSettings)
    (rootDir : Text) {files : List PurePath}
    (maxAgeSeconds : Option Int) (level : ∀ path ∈ files, dotDot ∉ path.parts) :
    (∀ entry ∈ (collectFilesByAge run settings rootDir files maxAgeSeconds).1, entry.2 ∈ files ∧
      ∃ root seconds, run.resolveRoot rootDir = .ok root ∧ maxAgeSeconds = some seconds ∧
        SafelyUnlinked settings root (run.cutoffOf (max seconds 0).toNat)
          (run.visits entry.1) entry.2) ∧
    (settings.dryRun = true ∨ maxAgeSeconds = none →
      (collectFilesByAge run settings rootDir files maxAgeSeconds).1 = []) ∧
    ∀ result, (collectFilesByAge run settings rootDir files maxAgeSeconds).2 = .ok result →
      maxAgeSeconds ≠ none →
      result.collected.filesSeen = result.collected.filesRetainedByPolicy +
        result.collected.filesSkippedByAge +
        result.collected.filesCollectable := by
  rw [collectFilesByAge]
  cases run.resolveRoot rootDir with
  | error reason => exact ⟨fun _ none => (List.not_mem_nil none).elim, fun _ => rfl,
    fun _ impossible => by cases impossible⟩
  | ok root =>
      dsimp only
      split
      · exact ⟨fun _ none => (List.not_mem_nil none).elim, fun _ => rfl,
          fun _ same _ => by cases same; rfl⟩
      split
      · exact ⟨fun _ none => (List.not_mem_nil none).elim, fun _ => rfl,
          fun _ same _ => by cases same; rfl⟩
      have members : ∀ path ∈ (if settings.sortFiles then files.mergeSort pathLe else files),
          path ∈ files := by
        intro path member
        split at member
        · exact List.mem_mergeSort.mp member
        · exact member
      cases ends : collectFrom settings root
          ((maxAgeSeconds.map fun seconds => (max seconds 0).toNat).map run.cutoffOf)
          run.visits 0 (if settings.sortFiles then files.mergeSort pathLe else files) .start with
      | mk state failure =>
          obtain ⟨safe, nothing, balanced⟩ := collectFrom_safe members level ends
          have inRoot : ∀ entry ∈ state.unlinked, entry.2 ∈ files ∧
              ∃ known seconds, (.ok root : Except GcError Text) = .ok known ∧
              maxAgeSeconds = some seconds ∧
              SafelyUnlinked settings known (run.cutoffOf (max seconds 0).toNat)
                (run.visits entry.1) entry.2 := by
            intro entry unlinked
            obtain ⟨member, seconds, same, evidence⟩ := safe entry unlinked
            exact ⟨member, root, seconds, rfl, same, evidence⟩
          cases failure with
          | some reason => exact ⟨inRoot, nothing, fun _ impossible => by cases impossible⟩
          | none =>
              refine ⟨inRoot, nothing, fun result returned limited => ?_⟩
              cases returned
              exact fsyncTouchedDirs_balanced (balanced limited)

def directoryStat : StatResult Int where
  kind := .directory
  permissions := 0o755
  redirectTag := false
  dev := 1
  ino := 2
  size := 0
  mtime := 0
  mtimeNs := 0
  ctimeNs := 0

def oldFileStat (ino : Nat) : StatResult Int :=
  { directoryStat with kind := .regular, permissions := 0o644, ino, size := 3 }

theorem rootNames (name : Component) (member : name ∈ ["r".toList]) : IsName name := by
  rw [List.mem_singleton.mp member]
  decide

theorem isAbs_slash : isAbs ['/'] = true := rfl

def oneFileLstat (ino : Nat) (path : Text) : LstatAnswer Int :=
  .found (if abspath ['/'] path = "/r/f".toList then oldFileStat ino else directoryStat)

theorem oneFile_sameEntry (ino : Nat) (path : PurePath) (_ : dotDot ∉ path.parts) :
    oneFileLstat ino path.text = oneFileLstat ino (abspath ['/'] path.text) := by
  rw [oneFileLstat, oneFileLstat, abspath_abspath isAbs_slash]

theorem oneFile_resolved (_ real : Text)
    (same : (.ok (fromRoot ["r".toList]) : Except GcError Text) = .ok real) :
    ∃ names, (∀ name ∈ names, IsName name) ∧ real = fromRoot names :=
  ⟨["r".toList], rootNames, (Except.ok.inj same).symm⟩

/-- A root with one file `f` of this inode number. -/
def oneFile (ino : Nat) : World Int where
  cwd := ['/']
  lstat := oneFileLstat ino
  resolve _ := .ok (fromRoot ["r".toList])
  realpath path := .ok path
  cwdAbsolute := isAbs_slash
  resolved := oneFile_resolved
  sameEntry := oneFile_sameEntry ino

def oneFileRun (judgedIno currentIno : Nat) : CollectionRun Int where
  resolveRoot _ := .ok (fromRoot ["r".toList])
  rootExists _ := true
  rootIsDir _ := true
  cutoffOf maxAge := 1000 - maxAge
  visits _ := { decision := oneFile judgedIno, recheck := oneFile currentIno, unlinkError := none }
  fsyncError _ := none

def deleting : CollectionSettings where
  target := "generated-chunks"
  dryRun := false
  retainFile := none
  sortFiles := false

theorem filePath_proper (part : Component) (member : part ∈ ["r".toList, "f".toList]) :
    part ≠ [] ∧ part ≠ dot ∧ '/' ∉ part := by
  revert part
  decide

def filePath : PurePath where
  anchor := .root
  parts := ["r".toList, "f".toList]
  proper := filePath_proper

theorem oldFile_unlinked :
    (collectFilesByAge (oneFileRun 7 7) deleting "/r".toList [filePath] (some 60)).1 =
      [(0, filePath)] ∧
      SafelyUnlinked deleting "/r".toList 940 ((oneFileRun 7 7).visits 0) filePath := by
  have unlinked : (collectFilesByAge (oneFileRun 7 7) deleting "/r".toList [filePath] (some 60)).1 =
      [(0, filePath)] := by
    decide +kernel
  have level : ∀ path ∈ [filePath], dotDot ∉ path.parts := by decide
  obtain ⟨safe, -, -⟩ :=
    collectFilesByAge_safe (oneFileRun 7 7) deleting "/r".toList (some 60) level
  obtain ⟨-, root, seconds, resolved, limited, evidence⟩ :=
    safe (0, filePath) (by rw [unlinked]; exact List.mem_singleton_self _)
  cases resolved
  cases limited
  exact ⟨unlinked, evidence⟩

/-- Where the inode number of the judged file is missing, another one may be unlinked in its
place. -/
theorem unnumberedFile_replaced :
    ¬ ∀ (run : CollectionRun Int) (settings : CollectionSettings) (rootDir : Text)
    (files : List PurePath) (maxAgeSeconds : Option Int), (∀ path ∈ files, dotDot ∉ path.parts) →
    ∀ entry ∈ (collectFilesByAge run settings rootDir files maxAgeSeconds).1, ∃ judged current,
      (run.visits entry.1).decision.lstat entry.2.text = .found judged ∧
        (run.visits entry.1).recheck.lstat entry.2.text = .found current ∧
        (judged.dev, judged.ino) = (current.dev, current.ino) := by
  intro always
  have unlinked : (collectFilesByAge (oneFileRun 0 5) deleting "/r".toList [filePath] (some 60)).1 =
      [(0, filePath)] := by
    decide +kernel
  obtain ⟨judged, current, wasJudged, wasCurrent, same⟩ :=
    always (oneFileRun 0 5) deleting "/r".toList [filePath] (some 60)
    (by decide) (0, filePath) (by rw [unlinked]; exact List.mem_singleton_self _)
  have first : (oneFile 0).lstat filePath.text = .found (oldFileStat 0) := by
    exact congrArg LstatAnswer.found (if_pos (by decide))
  have second : (oneFile 5).lstat filePath.text = .found (oldFileStat 5) := by
    exact congrArg LstatAnswer.found (if_pos (by decide))
  cases first.symm.trans wasJudged
  cases second.symm.trans wasCurrent
  revert same
  decide

end Stopan.Gc
