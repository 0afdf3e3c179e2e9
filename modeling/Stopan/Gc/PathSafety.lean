import Stopan.Restore.Paths

/-!
Which paths a local garbage collection may delete (`stopan/gc/path_safety.py`), on a POSIX system.
-/

namespace Stopan.Gc

open Stopan.Lib Stopan.Lib.PosixPath Stopan.Common

inductive Anchor where
  | relative
  | root
  | doubleRoot
  deriving DecidableEq, Repr

/-- A `pathlib` path: its parts are neither empty nor `.`, but may be `..`. -/
structure PurePath where
  anchor : Anchor
  parts : List Component
  proper : ∀ part ∈ parts, part ≠ [] ∧ part ≠ dot ∧ '/' ∉ part
  deriving DecidableEq

namespace PurePath

/-- `os.fspath`. -/
def text (path : PurePath) : Text :=
  match path.anchor with
  | .relative => orDot (joinSep '/' path.parts)
  | .root => '/' :: joinSep '/' path.parts
  | .doubleRoot => '/' :: '/' :: joinSep '/' path.parts

theorem parent_proper (path : PurePath) (part : Component) (member : part ∈ path.parts.dropLast) :
    part ≠ [] ∧ part ≠ dot ∧ '/' ∉ part := path.proper part (List.mem_of_mem_dropLast member)

def parent (path : PurePath) : PurePath where
  anchor := path.anchor
  parts := path.parts.dropLast
  proper := path.parent_proper

end PurePath

inductive EntryKind where
  | regular
  | directory
  | symlink
  | special
  deriving DecidableEq, Repr

/-- What `lstat` tells about an entry: the mode is a kind and permissions, and a time is known as a
float and in nanoseconds. -/
structure StatResult (τ : Type) where
  kind : EntryKind
  permissions : Nat
  redirectTag : Bool
  dev : Nat
  ino : Nat
  size : Nat
  mtime : τ
  mtimeNs : Int
  ctimeNs : Int
  deriving DecidableEq, Repr

inductive LstatAnswer (τ : Type) where
  | found (stat : StatResult τ)
  | fileNotFound (reason : String)
  | osError (reason : String)
  | otherError (reason : String)

/-- Exceptions of a collection; the last are those that it never catches. -/
inductive GcError where
  | path (message : String)
  | os (message : String)
  | other (message : String)
  deriving DecidableEq, Repr

/-- The filesystem at one moment. What a path resolves to is absolute and normalised, and a path
without `..` names the same entry as its absolute form. -/
structure World (τ : Type) where
  cwd : Text
  lstat : Text → LstatAnswer τ
  resolve : Text → Except GcError Text
  realpath : Text → Except GcError Text
  cwdAbsolute : isAbs cwd = true
  resolved : ∀ path real, resolve path = .ok real → ∃ names, (∀ name ∈ names, IsName name) ∧
    real = fromRoot names
  sameEntry : ∀ path : PurePath, dotDot ∉ path.parts →
    lstat path.text = lstat (abspath cwd path.text)

variable {τ : Type}

/-- Reparse tags exist on other systems only. -/
def isFilesystemRedirection (stat : StatResult τ) : Bool :=
  stat.kind == .symlink || stat.redirectTag

/-- `_is_within`. -/
def isWithin (root candidate : Text) : Bool := commonpath root candidate == some root

def outsideRoot (candidate : Text) : GcError :=
  .path s!"candidato fuera de la raíz de GC: {String.ofList candidate}"

/-- `candidate.relative_to(root)`, the parts below the root. -/
def relativeTo (root candidate : Text) : Except GcError (List Component) :=
  if leadingSlashes candidate = leadingSlashes root ∧
    PosixPath.parts root <+: PosixPath.parts candidate then
    .ok ((PosixPath.parts candidate).drop (PosixPath.parts root).length)
  else .error (outsideRoot candidate)

/-- The loop over the components of a candidate below its root. -/
def checkComponents (world : World τ) (candidate current : Text) :
    List Component → Except GcError Unit
  | [] => .ok ()
  | component :: rest =>
      match world.lstat (join current component) with
      | .fileNotFound _ =>
          .error (.path s!"candidato desapareció durante el GC: {String.ofList candidate}")
      | .osError reason =>
          .error (.path
            s!"no se pudo comprobar el candidato de GC {String.ofList candidate}: {reason}")
      | .otherError reason => .error (.other reason)
      | .found stat =>
          if isFilesystemRedirection stat then
            .error (.path
              s!"candidato de GC atraviesa una redirección del sistema de ficheros: {String.ofList candidate}")
          else if rest ≠ [] ∧ stat.kind ≠ .directory then
            .error (.path
              s!"componente intermedio no es directorio en candidato de GC: {String.ofList candidate}")
          else checkComponents world candidate (join current component) rest

/-- An `OSError` of `os.path.realpath` is reported as an error of the candidate. -/
def canonical (world : World τ) (candidate path : Text) : Except GcError Text :=
  match world.realpath path with
  | .error (.os reason) =>
      .error (.path
        s!"no se pudo resolver canónicamente el candidato de GC {String.ofList candidate}: {reason}")
  | outcome => outcome

def validateGcRegularFile (world : World τ) (rootDir : Text) (path : PurePath) :
    Except GcError (StatResult τ) := do
  let root ← world.resolve rootDir
  let candidate := abspath world.cwd path.text
  ensure (isWithin root candidate) (outsideRoot candidate)
  let relative ← relativeTo root candidate
  checkComponents world candidate root relative
  let rootReal ← canonical world candidate root
  let candidateReal ← canonical world candidate candidate
  ensure (isWithin rootReal candidateReal)
    (.path s!"resolución canónica fuera de la raíz de GC: {String.ofList candidate}")
  match world.lstat candidate with
  | .fileNotFound reason | .osError reason =>
      .error (.path s!"no se pudo comprobar el candidato de GC {String.ofList candidate}: {reason}")
  | .otherError reason => .error (.other reason)
  | .found stat =>
      if isFilesystemRedirection stat ∨ stat.kind ≠ .regular then
        .error (.path s!"candidato de GC no es un fichero regular: {String.ofList candidate}")
      else return stat

/-- Two observations are of the same object; without inode numbers the modes, sizes and times are
compared. -/
def sameFileIdentity (first second : StatResult τ) : Bool :=
  if first.ino ≠ 0 ∧ second.ino ≠ 0 then decide ((first.dev, first.ino) = (second.dev, second.ino))
  else decide ((first.kind, first.permissions, first.size, first.mtimeNs, first.ctimeNs) =
    (second.kind, second.permissions, second.size, second.mtimeNs, second.ctimeNs))

/-- The path lies below what the root resolves to, all components on the way to it are directories
and no links, and it is a regular file. It is the root itself only where the root is no directory
any more. -/
structure ConfinedAt (world : World τ) (rootDir : Text) (path : PurePath) (stat : StatResult τ)
    (base inside : List Component) : Prop where
  names : ∀ name ∈ base ++ inside, IsName name
  root : world.resolve rootDir = .ok (fromRoot base)
  located : abspath world.cwd path.text = fromRoot (base ++ inside)
  below : ∀ top, world.lstat (fromRoot base) = .found top → top.kind = .directory → inside ≠ []
  directories : ∀ shown, shown <+: inside → shown ≠ [] → shown ≠ inside →
    ∃ directory, world.lstat (fromRoot (base ++ shown)) = .found directory ∧
      directory.kind = .directory ∧ isFilesystemRedirection directory = false
  file : world.lstat (fromRoot (base ++ inside)) = .found stat
  regular : stat.kind = .regular
  unlinked : isFilesystemRedirection stat = false

def Confined (world : World τ) (rootDir : Text) (path : PurePath) (stat : StatResult τ) : Prop :=
  ∃ base inside, ConfinedAt world rootDir path stat base inside

variable {world : World τ} {rootDir candidate : Text} {path : PurePath} {stat : StatResult τ}
variable {base inside : List Component}

theorem checkComponents_eq_ok (baseNames : ∀ name ∈ base, IsName name)
    (insideNames : ∀ name ∈ inside, IsName name)
    (walked : checkComponents world candidate (fromRoot base) inside = .ok ())
    {shown : List Component} (below : shown <+: inside) (some : shown ≠ []) :
    ∃ entry, world.lstat (fromRoot (base ++ shown)) = .found entry ∧
      isFilesystemRedirection entry = false ∧ (shown ≠ inside → entry.kind = .directory) := by
  induction inside generalizing base shown with
  | nil => exact absurd (List.prefix_nil.mp below) some
  | cons name rest ih =>
      have isName := insideNames name List.mem_cons_self
      have restNames : ∀ name ∈ rest, IsName name :=
        fun other member => insideNames other (List.mem_cons_of_mem name member)
      have longer :=
        Restore.isName_append baseNames (by simpa using isName : ∀ other ∈ [name], IsName other)
      rw [checkComponents, Restore.join_name baseNames isName] at walked
      cases asked : world.lstat (fromRoot (base ++ [name])) with
      | fileNotFound reason => simp [asked] at walked
      | osError reason => simp [asked] at walked
      | otherError reason => simp [asked] at walked
      | found entry =>
          rw [asked] at walked
          dsimp only at walked
          split at walked
          · cases walked
          rename_i real
          split at walked
          · cases walked
          rename_i passable
          cases shown with
          | nil => exact absurd rfl some
          | cons first more =>
              obtain ⟨rfl, later⟩ := List.cons_prefix_cons.mp below
              by_cases last : more = []
              · rw [last]
                refine ⟨entry, asked, by simpa using real, fun proper => ?_⟩
                by_contra other
                exact passable ⟨fun empty => proper (by rw [empty]), other⟩
              · obtain ⟨next, found, nextReal, directory⟩ := ih longer restNames walked later last
                rw [List.append_assoc] at found
                exact ⟨next, found, nextReal, fun proper => directory
                  fun same => proper (by rw [same])⟩

theorem relativeTo_fromRoot {names relative : List Component}
    (baseNames : ∀ name ∈ base, IsName name) (isName : ∀ name ∈ names, IsName name)
    (below : relativeTo (fromRoot base) (fromRoot names) = .ok relative) :
    names = base ++ relative := by
  rw [relativeTo, parts_fromRoot baseNames, parts_fromRoot isName] at below
  split at below
  · rename_i inside
    obtain ⟨rest, rfl⟩ := inside.2
    rw [List.drop_left, Except.ok.injEq] at below
    rw [below]
  · cases below

/-- `//` is another root. -/
theorem relativeTo_double {names : List Component} (baseNames : ∀ name ∈ base, IsName name)
    (isName : ∀ name ∈ names, IsName name) :
    relativeTo (fromRoot base) ('/' :: fromRoot names) = .error
      (outsideRoot ('/' :: fromRoot names)) := by
  have single := head_joinSep fun name member => (baseNames name member).part
  have other := head_joinSep fun name member => (isName name member).part
  have two : leadingSlashes ('/' :: fromRoot names) = 2 := leadingSlashes_double other
  rw [relativeTo, if_neg]
  rw [two, fromRoot, leadingSlashes_cons single]
  simp

theorem validateGcRegularFile_confined
    (validated : validateGcRegularFile world rootDir path = .ok stat) :
    Confined world rootDir path stat := by
  obtain ⟨root, resolved, rest⟩ := bind_eq_ok_iff.mp validated
  obtain ⟨base, baseNames, rfl⟩ := world.resolved rootDir root resolved
  obtain ⟨-, rest⟩ := ensure_bind_eq_ok_iff.mp rest
  obtain ⟨relative, located, rest⟩ := bind_eq_ok_iff.mp rest
  obtain ⟨_, walked, rest⟩ := bind_eq_ok_iff.mp rest
  obtain ⟨_, -, rest⟩ := bind_eq_ok_iff.mp rest
  obtain ⟨_, -, rest⟩ := bind_eq_ok_iff.mp rest
  obtain ⟨-, rest⟩ := ensure_bind_eq_ok_iff.mp rest
  obtain ⟨names, isName, single | double⟩ := abspath_cases world.cwdAbsolute path.text
  · rw [single] at located walked rest
    have below := relativeTo_fromRoot baseNames isName located
    rw [below] at single rest isName
    have insideNames : ∀ name ∈ relative, IsName name :=
      fun name member => isName name (List.mem_append_right base member)
    have directories :=
      fun shown => @checkComponents_eq_ok _ _ _ _ _ baseNames insideNames walked shown
    split at rest
    · cases rest
    · cases rest
    · cases rest
    rename_i entry found
    split at rest
    · cases rest
    rename_i plain
    cases pure_eq_ok_iff.mp rest
    rw [not_or, not_not] at plain
    refine ⟨base, relative, isName, resolved, single, fun top atRoot directory empty => ?_,
      fun shown inside some proper => ?_, found, plain.2, by simpa using plain.1⟩
    · rw [empty, List.append_nil, atRoot] at found
      cases found
      rw [directory] at plain
      cases plain.2
    · obtain ⟨directory, known, real, isDirectory⟩ := directories shown inside some
      exact ⟨directory, known, isDirectory proper, real⟩
  · rw [double, relativeTo_double baseNames isName] at located
    cases located

/-- The validated status is that of the entry which the path itself names. -/
theorem validateGcRegularFile_lstat
    (validated : validateGcRegularFile world rootDir path = .ok stat)
    (level : dotDot ∉ path.parts) : world.lstat path.text = .found stat := by
  obtain ⟨base, inside, confined⟩ := validateGcRegularFile_confined validated
  rw [world.sameEntry path level, confined.located]
  exact confined.file

end Stopan.Gc
