import Stopan.Common.Basic
import Stopan.Lib.PosixPath
import Stopan.Lib.Result

/-!
The paths that a restore writes to (`stopan/restore/paths.py`), on a POSIX system.
-/

namespace Stopan.Restore

open Stopan.Lib Stopan.Lib.PosixPath Stopan.Common

inductive FileKind where
  | directory
  | symlink
  | other
  deriving DecidableEq, Repr

/-- What `os.lstat` does: it raises `FileNotFoundError`, another `OSError` or a `ValueError`, or it
finds something. -/
inductive Lstat where
  | missing
  | osError
  | valueError
  | found (kind : FileKind)
  deriving DecidableEq, Repr

inductive PathFailure where
  | restorePath (message : String)
  | osError
  | valueError
  deriving DecidableEq, Repr

/-- The filesystem while one path is resolved. Links may lead anywhere, but nothing is found below
what is not found itself; the empty path is never found and names nothing. -/
structure FileSystem where
  cwd : Text
  lstat : Text → Lstat
  realpath : Text → Except PathFailure Text
  cwdAbsolute : isAbs cwd = true
  nothingBelow : ∀ path component, path ≠ [] → IsName component →
    (∀ kind, lstat path ≠ .found kind) → ∀ kind, lstat (join path component) ≠ .found kind

def lstatExisting (fs : FileSystem) (path : Text) : Except PathFailure (Option FileKind) :=
  match fs.lstat path with
  | .missing => .ok none
  | .osError => .error .osError
  | .valueError => .error .valueError
  | .found kind => .ok (some kind)

/-- `_is_filesystem_redirection`; reparse points exist on other systems only. -/
def isFilesystemRedirection (kind : FileKind) : Bool := kind == .symlink

def validateRestoreRoot (fs : FileSystem) (baseDir : Text) : Except PathFailure Text := do
  let baseDirAbs := abspath fs.cwd baseDir
  match ← lstatExisting fs baseDirAbs with
  | none => .error (.restorePath s!"El árbol de restauración no existe: {String.ofList baseDir}")
  | some kind =>
      if isFilesystemRedirection kind then
        .error (.restorePath
          s!"El árbol de restauración no puede ser una redirección del sistema de ficheros: {String.ofList baseDir}")
      else if kind ≠ .directory then
        .error (.restorePath
          s!"El árbol de restauración no es un directorio: {String.ofList baseDir}")
      else return baseDirAbs

/-- The loop of `_reject_existing_redirections`. -/
def rejectFrom (fs : FileSystem) (relPath : Text) (current : Text) : List Component →
    Except PathFailure Unit
  | [] => .ok ()
  | component :: rest =>
      if component = [] ∨ component = dot then rejectFrom fs relPath current rest
      else
        match lstatExisting fs (join current component) with
        | .error .valueError => .error .valueError
        | .error _ =>
            .error (.restorePath
              s!"No se pudo comprobar la ruta de restauración: {String.ofList relPath}")
        | .ok none => .ok ()
        | .ok (some kind) =>
            if isFilesystemRedirection kind then
              .error (.restorePath
                s!"Ruta de restauración atraviesa una redirección del sistema de ficheros: {String.ofList relPath}")
            else rejectFrom fs relPath (join current component) rest

def rejectExistingRedirections (fs : FileSystem) (baseDirAbs fullPath relPath : Text) :
    Except PathFailure Unit :=
  let relative := relpath fs.cwd fullPath baseDirAbs
  if relative = [] ∨ relative = dot then .ok ()
    else rejectFrom fs relPath baseDirAbs (split relative)

def isWithin (baseDir candidate : Text) : Bool := commonpath baseDir candidate == some baseDir

/-- An `OSError` of `os.path.realpath` is reported as an error of the path. -/
def canonical (fs : FileSystem) (path relPath : Text) : Except PathFailure Text :=
  match fs.realpath path with
  | .error .osError =>
      .error (.restorePath
        s!"No se pudo resolver canónicamente la ruta de restauración: {String.ofList relPath}")
  | outcome => outcome

def safeRestorePath (fs : FileSystem) (baseDir relPath : Text) : Except PathFailure Text := do
  let outside : PathFailure :=
    .restorePath s!"Ruta fuera del árbol destino: {String.ofList relPath}"
  let baseDirAbs ← validateRestoreRoot fs baseDir
  let normalizedRel := normpath relPath
  ensure (!isAbs normalizedRel) outside
  let fullPath :=
    if normalizedRel = [] ∨ normalizedRel = dot then baseDirAbs
      else abspath fs.cwd (join baseDirAbs normalizedRel)
  ensure (isWithin baseDirAbs fullPath) outside
  rejectExistingRedirections fs baseDirAbs fullPath relPath
  let baseDirReal ← canonical fs baseDirAbs relPath
  let fullPathReal ← canonical fs fullPath relPath
  ensure (isWithin baseDirReal fullPathReal) outside
  return fullPath

variable {fs : FileSystem} {baseDir relPath path current baseDirAbs : Text}
  {base inside : List Component}

theorem lstatExisting_eq_ok {answer : Option FileKind}
    (asked : lstatExisting fs path = .ok answer) : (answer = none ∧ fs.lstat path = .missing) ∨
      ∃ kind, answer = some kind ∧ fs.lstat path = .found kind := by
  unfold lstatExisting at asked
  split at asked
  · rename_i missing
    cases asked
    exact .inl ⟨rfl, missing⟩
  · cases asked
  · cases asked
  · rename_i kind found
    cases asked
    exact .inr ⟨kind, rfl, found⟩

theorem validateRestoreRoot_eq_ok (valid : validateRestoreRoot fs baseDir = .ok baseDirAbs) :
    baseDirAbs = abspath fs.cwd baseDir ∧ fs.lstat baseDirAbs = .found .directory := by
  obtain ⟨answer, asked, rest⟩ := bind_eq_ok_iff.mp valid
  rcases lstatExisting_eq_ok asked with ⟨rfl, -⟩ | ⟨kind, rfl, found⟩
  · cases rest
  · dsimp only at rest
    split at rest
    · cases rest
    split at rest
    · cases rest
    rename_i directory
    cases rest
    rw [Decidable.not_not] at directory
    exact ⟨rfl, by rw [found, directory]⟩

theorem join_name {name : Component} (baseNames : ∀ name ∈ base, IsName name)
    (isName : IsName name) :
    join (fromRoot base) name = fromRoot (base ++ [name]) := by
  have text : joinSep '/' [name] = name := by simp [joinSep]
  have joined := join_fromRoot baseNames (by simpa using isName.part) (List.cons_ne_nil name [])
  rwa [text] at joined

theorem isName_append {names : List Component} (baseNames : ∀ name ∈ base, IsName name)
    (isName : ∀ name ∈ names, IsName name) : ∀ name ∈ base ++ names, IsName name := by
  intro name member
  rcases List.mem_append.mp member with found | found
  · exact baseNames name found
  · exact isName name found

theorem nothing_below (baseNames : ∀ name ∈ base, IsName name)
    (insideNames : ∀ name ∈ inside, IsName name)
    (absent : ∀ kind, fs.lstat (fromRoot base) ≠ .found kind) (kind : FileKind) :
    fs.lstat (fromRoot (base ++ inside)) ≠ .found kind := by
  induction inside generalizing base with
  | nil => simpa using absent kind
  | cons name rest ih =>
      have isName := insideNames name List.mem_cons_self
      have next := fs.nothingBelow (fromRoot base) name (List.cons_ne_nil _ _) isName absent
      rw [join_name baseNames isName] at next
      have below := ih (isName_append baseNames (by simpa using isName))
        (fun other member => insideNames other (List.mem_cons_of_mem name member)) next
      simpa using below

/-- The components that the loop has walked through are no links, and there is nothing below the
first that is missing. -/
theorem rejectFrom_eq_ok (baseNames : ∀ name ∈ base, IsName name)
    (insideNames : ∀ name ∈ inside, IsName name)
    (walked : rejectFrom fs relPath (fromRoot base) inside = .ok ()) {shown : List Component}
    (below : shown <+: inside)
    (some : shown ≠ []) : fs.lstat (fromRoot (base ++ shown)) ≠ .found .symlink := by
  induction inside generalizing base shown with
  | nil => exact absurd (List.prefix_nil.mp below) some
  | cons name rest ih =>
      have isName := insideNames name List.mem_cons_self
      have restNames : ∀ name ∈ rest, IsName name :=
        fun other member => insideNames other (List.mem_cons_of_mem name member)
      have longer :=
        isName_append baseNames (by simpa using isName : ∀ other ∈ [name], IsName other)
      cases shown with
      | nil => exact absurd rfl some
      | cons first more =>
          obtain ⟨rfl, later⟩ := List.cons_prefix_cons.mp below
          have moreNames : ∀ name ∈ more, IsName name :=
            fun other member => restNames other (later.subset member)
          have regroup : base ++ first :: more = base ++ [first] ++ more := by simp
          rw [rejectFrom, if_neg (by simp [isName.nonempty, isName.notDot]),
            join_name baseNames isName] at walked
          rw [regroup]
          split at walked
          · cases walked
          · cases walked
          · rename_i asked
            rcases lstatExisting_eq_ok asked with ⟨-, missing⟩ | ⟨kind, absurdly, -⟩
            · exact nothing_below longer moreNames (by simp [missing]) .symlink
            · cases absurdly
          · rename_i kind asked
            rcases lstatExisting_eq_ok asked with ⟨absurdly, -⟩ | ⟨entry, same, found⟩
            · cases absurdly
            cases same
            split at walked
            · cases walked
            rename_i real
            by_cases last : more = []
            · rw [last, List.append_nil, found]
              intro link
              cases link
              exact real rfl
            · exact ih longer restNames walked later last

/-- What a safe path has been through. -/
theorem safeRestorePath_eq_ok (accepted : safeRestorePath fs baseDir relPath = .ok path) :
    ∃ baseDirAbs, baseDirAbs = abspath fs.cwd baseDir ∧ fs.lstat baseDirAbs = .found .directory ∧
      isAbs (normpath relPath) = false ∧
      path = (if normpath relPath = [] ∨ normpath relPath = dot then baseDirAbs
        else abspath fs.cwd (join baseDirAbs (normpath relPath))) ∧
      isWithin baseDirAbs path = true ∧
        rejectExistingRedirections fs baseDirAbs path relPath = .ok () := by
  obtain ⟨baseDirAbs, valid, rest⟩ := bind_eq_ok_iff.mp accepted
  obtain ⟨relative, rest⟩ := ensure_bind_eq_ok_iff.mp rest
  obtain ⟨within, rest⟩ := ensure_bind_eq_ok_iff.mp rest
  obtain ⟨_, walked, rest⟩ := bind_eq_ok_iff.mp rest
  obtain ⟨_, -, rest⟩ := bind_eq_ok_iff.mp rest
  obtain ⟨_, -, rest⟩ := bind_eq_ok_iff.mp rest
  obtain ⟨-, rest⟩ := ensure_bind_eq_ok_iff.mp rest
  obtain ⟨isAbspath, directory⟩ := validateRestoreRoot_eq_ok valid
  have returned := pure_eq_ok_iff.mp rest
  subst returned
  exact ⟨baseDirAbs, isAbspath, directory, by simpa using relative, rfl, within, walked⟩

/-- The normalised path begins with `..`. -/
def climbs (relPath : Text) : Bool := (split (normpath relPath)).head? == some dotDot

theorem isWithin_fromRoot {names : List Component} (baseNames : ∀ name ∈ base, IsName name)
    (isName : ∀ name ∈ names, IsName name)
    (within : isWithin (fromRoot base) (fromRoot names) = true) :
    base <+: names := by
  rw [isWithin, commonpath_fromRoot baseNames isName, beq_iff_eq, Option.some.injEq] at within
  have commonNames : ∀ name ∈ commonPrefix base names, IsName name :=
    fun name member => baseNames name (mem_of_mem_commonPrefix member)
  exact commonPrefix_eq_left_iff.mp (fromRoot_injective commonNames baseNames within)

/-- A root that begins with two slashes contains nothing, not even itself. -/
theorem isWithin_double {names : List Component} :
    isWithin ('/' :: fromRoot names) path = false := by
  cases within : isWithin ('/' :: fromRoot names) path with
  | false => rfl
  | true =>
      rw [isWithin, beq_iff_eq] at within
      exact absurd rfl (commonpath_single within)

/-- The components of a relative path, and those of the path that it leads to from a root. -/
theorem relative_components (relative : isAbs (normpath relPath) = false) :
    ∃ parts, (∀ part ∈ parts, part ≠ [] ∧ '/' ∉ part) ∧
      normpath relPath = orDot (joinSep '/' parts) ∧
      (normpath relPath = [] ∨ normpath relPath = dot ↔ parts = []) ∧
      (climbs relPath = false → ∀ part ∈ parts, IsName part) := by
  have unrooted : isAbs relPath = false := by
    cases absolute : isAbs relPath with
    | false => rfl
    | true => rw [isAbs_normpath absolute] at relative; cases relative
  obtain ⟨text, reduced⟩ := normpath_relative unrooted
  refine ⟨components relPath, reduced.parts, text, ?_, ?_⟩
  · rw [text]
    constructor
    · intro none
      by_contra some
      have parts := split_orDot some reduced.parts
      rcases none with empty | isDot
      · rw [empty] at parts
        exact (reduced.parts [] (by rw [← parts]; decide)).1 rfl
      · rw [isDot] at parts
        exact reduced.notDot dot (by rw [← parts]; decide) rfl
    · intro empty
      rw [empty]
      exact .inr rfl
  · intro level
    have proper := reduced.parts
    obtain ⟨above, names, parts, named, -⟩ := reduced
    cases above with
    | zero => simpa [parts] using named
    | succ above =>
        have some : components relPath ≠ [] := by simp [parts, List.replicate_succ]
        rw [climbs, text, split_orDot some proper, parts] at level
        simp [List.replicate_succ] at level

/-- What is returned lies inside the root, with no link on the way; a path that does not begin with
`..` leads where its own components say. -/
theorem safeRestorePath_inside (accepted : safeRestorePath fs baseDir relPath = .ok path) :
    ∃ base inside, (∀ name ∈ base ++ inside, IsName name) ∧ abspath fs.cwd baseDir = fromRoot base ∧
      path = fromRoot (base ++ inside) ∧
      (∀ shown, shown <+: inside → fs.lstat (fromRoot (base ++ shown)) ≠ .found .symlink) ∧
      (climbs relPath = false → normpath relPath = orDot (joinSep '/' inside)) := by
  obtain ⟨baseDirAbs, isAbspath, directory, relative, full, within, walked⟩ :=
    safeRestorePath_eq_ok accepted
  obtain ⟨base, baseNames, single | double⟩ := abspath_cases fs.cwdAbsolute baseDir
  · rw [isAbspath, single] at full within walked directory
    obtain ⟨parts, proper, text, root, level⟩ := relative_components relative
    have whole : ∀ part ∈ parts, '/' ∉ part := fun part member => (proper part member).2
    have resolved : path = fromRoot (parts.foldl (push true) base) := by
      rw [full]
      by_cases empty : parts = []
      · rw [if_pos (root.mpr empty), empty]
        rfl
      · rw [if_neg (fun isRoot => empty (root.mp isRoot)), text, orDot,
          if_neg (joinSep_ne_nil empty proper), abspath_join fs.cwd baseNames proper empty]
    have names := isName_foldl baseNames whole
    rw [resolved] at within walked
    obtain ⟨inside, ends⟩ := isWithin_fromRoot baseNames names within
    rw [← ends] at resolved names walked
    have insideNames : ∀ name ∈ inside, IsName name :=
      fun name member => names name (List.mem_append_right base member)
    refine ⟨base, inside, names, single, resolved, ?_, fun unclimbed => ?_⟩
    · intro shown below
      by_cases empty : shown = []
      · rw [empty, List.append_nil, directory]
        simp
      · have some : inside ≠ [] := by
          rintro rfl
          exact empty (List.prefix_nil.mp below)
        have insideParts : ∀ name ∈ inside, name ≠ [] ∧ '/' ∉ name :=
          fun name member => (insideNames name member).part
        simp only [rejectExistingRedirections,
          relpath_fromRoot fs.cwd baseNames insideNames] at walked
        have notRoot : ¬ (orDot (joinSep '/' inside) = [] ∨ orDot (joinSep '/' inside) = dot) := by
          intro isRoot
          have parts := split_orDot some insideParts
          rcases isRoot with none | isDot
          · rw [none] at parts
            exact (insideNames [] (by rw [← parts]; decide)).nonempty rfl
          · rw [isDot] at parts
            exact (insideNames dot (by rw [← parts]; decide)).notDot rfl
        rw [if_neg notRoot, split_orDot some insideParts] at walked
        exact rejectFrom_eq_ok baseNames insideNames walked below empty
    · rw [foldl_push_names (level unclimbed)] at ends
      rw [text, List.append_cancel_left ends]
  · rw [isAbspath, double, isWithin_double] at within
    cases within

/-- A path that is accepted lies in the restore root, and nothing that exists on the way from the
root to it is a link. If it does not begin with `..` it is the root for the root item only, and it
is the only such path that leads where it leads. -/
theorem safeRestorePath_confines (accepted : safeRestorePath fs baseDir relPath = .ok path) :
    (∃ base inside, (∀ name ∈ base ++ inside, IsName name) ∧
      abspath fs.cwd baseDir = fromRoot base ∧ path = fromRoot (base ++ inside) ∧
      (∀ shown, shown <+: inside → fs.lstat (fromRoot (base ++ shown)) ≠ .found .symlink) ∧
      (climbs relPath = false → (inside = [] ↔ normpath relPath = dot))) ∧
    ∀ other, safeRestorePath fs baseDir other = .ok path → climbs relPath = false →
      climbs other = false → normpath other = normpath relPath := by
  obtain ⟨base, inside, names, root, located, real, text⟩ := safeRestorePath_inside accepted
  refine ⟨⟨base, inside, names, root, located, real, fun level => ?_⟩, ?_⟩
  · rw [text level]
    constructor
    · intro empty
      rw [empty]
      rfl
    · intro isDot
      by_contra some
      have insideNames : ∀ name ∈ inside, IsName name :=
        fun name member => names name (List.mem_append_right base member)
      have parts := split_orDot some fun name member => (insideNames name member).part
      rw [isDot] at parts
      exact (insideNames dot (by rw [← parts]; decide)).notDot rfl
  · intro other same level otherLevel
    obtain ⟨otherBase, otherInside, otherNames, otherRoot, otherLocated, -, otherText⟩ :=
      safeRestorePath_inside same
    have baseNames : ∀ name ∈ base, IsName name :=
      fun name member => names name (List.mem_append_left inside member)
    have otherBaseNames : ∀ name ∈ otherBase, IsName name :=
      fun name member => otherNames name (List.mem_append_left otherInside member)
    have bases : otherBase = base :=
      fromRoot_injective otherBaseNames baseNames (otherRoot.symm.trans root)
    have paths := fromRoot_injective otherNames names (otherLocated.symm.trans located)
    rw [bases] at paths
    rw [otherText otherLevel, text level, List.append_cancel_left paths]

/-- Everything is a directory, and canonical. -/
def plainDirectories : FileSystem where
  cwd := ['/']
  lstat _ := .found .directory
  realpath path := .ok path
  cwdAbsolute := rfl
  nothingBelow _ _ _ _ absent := absurd rfl (absent .directory)

theorem safeRestorePath_nested :
    safeRestorePath plainDirectories "/r".toList "a//./b".toList = .ok "/r/a/b".toList ∧
    ∀ other, safeRestorePath plainDirectories "/r".toList other = .ok "/r/a/b".toList →
      climbs other = false → normpath other = "a/b".toList := by
  have accepted : safeRestorePath plainDirectories "/r".toList "a//./b".toList =
      .ok "/r/a/b".toList := by decide
  refine ⟨accepted, fun other same level => ?_⟩
  have only := (safeRestorePath_confines accepted).2 other same (by decide) level
  exact only.trans (by decide)

/-- A path that leaves the root and comes back is accepted, so it leads to the same place as
another. -/
theorem safeRestorePath_notInjective : ¬ ∀ (fs : FileSystem) (baseDir relPath other path : Text),
    safeRestorePath fs baseDir relPath = .ok path → safeRestorePath fs baseDir other = .ok path →
      normpath other = normpath relPath := by
  intro injective
  have same := injective plainDirectories "/r".toList "x".toList "../r/x".toList "/r/x".toList
    (by decide) (by decide)
  revert same
  decide

end Stopan.Restore
