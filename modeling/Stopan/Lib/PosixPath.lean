import Stopan.Lib.Separated

namespace Stopan.Lib.PosixPath

abbrev Component := List Char

def dot : Component := ['.']

def dotDot : Component := ['.', '.']

def split (path : List Char) : List Component := path.splitOn '/'

def isAbs (path : List Char) : Bool := path.head? == some '/'

def join (path more : List Char) : List Char :=
  if isAbs more then more
  else if path = [] ∨ path.getLast? = some '/' then path ++ more
  else path ++ '/' :: more

/-- Two leading slashes are kept, three and more are one. -/
def leadingSlashes : List Char → Nat
  | '/' :: '/' :: '/' :: _ => 1
  | '/' :: '/' :: _ => 2
  | '/' :: _ => 1
  | _ => 0

/-- What `normpath` does with the next component. -/
def push (rooted : Bool) (kept : List Component) (component : Component) : List Component :=
  if component = [] ∨ component = dot then kept
  else if component ≠ dotDot ∨ (rooted = false ∧ kept = []) ∨
    kept.getLast? = some dotDot then kept ++ [component]
  else kept.dropLast

def components (path : List Char) : List Component :=
  (split path).foldl (push (leadingSlashes path != 0)) []

def orDot (path : List Char) : List Char := if path = [] then dot else path

def normpath (path : List Char) : List Char :=
  if path = [] then dot
  else orDot (List.replicate (leadingSlashes path) '/' ++ joinSep '/' (components path))

def abspath (cwd path : List Char) : List Char :=
  normpath (if isAbs path then path else join cwd path)

def commonPrefix [DecidableEq α] : List α → List α → List α
  | left :: lefts, right :: rights => if left = right then left :: commonPrefix lefts rights else []
  | _, _ => []

/-- The components that `commonpath` looks at. -/
def parts (path : List Char) : List Component :=
  (split path).filter fun part => decide (part ≠ [] ∧ part ≠ dot)

/-- `commonpath` of two paths; `none` for its `ValueError`. -/
def commonpath (left right : List Char) : Option (List Char) :=
  if isAbs left = isAbs right then
    some ((if isAbs left then ['/'] else []) ++ joinSep '/'
      (commonPrefix (parts left) (parts right)))
  else none

def relpath (cwd path start : List Char) : List Char :=
  let startList := (split (abspath cwd start)).filter fun part => !part.isEmpty
  let pathList := (split (abspath cwd path)).filter fun part => !part.isEmpty
  let shared := (commonPrefix startList pathList).length
  let relList := List.replicate (startList.length - shared) dotDot ++ pathList.drop shared
  if relList = [] then dot else joinSep '/' relList

/-- A component that names an entry of a directory. -/
structure IsName (component : Component) : Prop where
  nonempty : component ≠ []
  notDot : component ≠ dot
  notDotDot : component ≠ dotDot
  whole : '/' ∉ component

instance (component : Component) : Decidable (IsName component) :=
  decidable_of_iff (component ≠ [] ∧ component ≠ dot ∧ component ≠ dotDot ∧ '/' ∉ component)
    ⟨fun ⟨nonempty, notDot, notDotDot, whole⟩ => ⟨nonempty, notDot, notDotDot, whole⟩,
      fun name => ⟨name.nonempty, name.notDot, name.notDotDot, name.whole⟩⟩

/-- The components of a normalised path: names, below some `..` unless the path has a root. -/
def Reduced (rooted : Bool) (kept : List Component) : Prop :=
  ∃ above names, kept = List.replicate above dotDot ++ names ∧ (∀ name ∈ names, IsName name) ∧
    (rooted = true → above = 0)

variable {rooted : Bool} {kept names : List Component} {component : Component} {path : List Char}

theorem push_empty : push rooted kept [] = kept := by simp [push]

theorem push_name (name : IsName component) : push rooted kept component = kept ++ [component] := by
  rw [push, if_neg (by simp [name.nonempty, name.notDot]), if_pos (.inl name.notDotDot)]

theorem foldl_push_names (named : ∀ name ∈ names, IsName name) :
    names.foldl (push rooted) kept = kept ++ names := by
  induction names generalizing kept with
  | nil => simp
  | cons name rest ih =>
      rw [List.foldl_cons, push_name (named name List.mem_cons_self),
        ih fun other member => named other (List.mem_cons_of_mem name member)]
      simp

theorem reduced_push (reduced : Reduced rooted kept) (whole : '/' ∉ component) :
    Reduced rooted (push rooted kept component) := by
  obtain ⟨above, names, rfl, named, root⟩ := reduced
  unfold push
  split
  · exact ⟨above, names, rfl, named, root⟩
  rename_i proper
  rw [not_or] at proper
  by_cases up : component = dotDot
  · rw [up]
    split
    · rename_i keeps
      -- a `..` is kept only where nothing but `..` stands before it
      have bare : names = [] := by
        by_contra some
        rcases keeps with absurdly | ⟨-, empty⟩ | last
        · exact absurdly rfl
        · simp [some] at empty
        · rw [List.getLast?_append_of_ne_nil _ some] at last
          exact (named dotDot (List.mem_of_getLast? last)).notDotDot rfl
      have unrooted : rooted = false := by
        rw [bare, List.append_nil] at keeps
        rcases keeps with absurdly | ⟨unrooted, -⟩ | last
        · exact absurd rfl absurdly
        · exact unrooted
        · cases rooted with
          | false => rfl
          | true =>
              rw [root rfl] at last
              simp at last
      refine ⟨above + 1, [], ?_, by simp, by simp [unrooted]⟩
      rw [bare, List.append_nil, List.append_nil, List.replicate_succ']
    · rename_i pops
      rw [not_or, not_or] at pops
      rcases List.eq_nil_or_concat names with rfl | ⟨shorter, last, rfl⟩
      · refine ⟨above - 1, [], ?_, by simp, fun isRooted => by rw [root isRooted]⟩
        rw [List.append_nil, List.append_nil, List.dropLast_replicate]
      · refine ⟨above, shorter, ?_, fun name member => named name (by simp [member]), root⟩
        rw [List.concat_eq_append, ← List.append_assoc, List.dropLast_concat]
  · rw [if_pos (.inl up)]
    refine ⟨above, names ++ [component], by rw [List.append_assoc], fun name member => ?_, root⟩
    rcases List.mem_append.mp member with earlier | new
    · exact named name earlier
    · rw [List.mem_singleton.mp new]
      exact ⟨proper.1, proper.2, up, whole⟩

theorem reduced_foldl {parts : List Component} (reduced : Reduced rooted kept)
    (whole : ∀ part ∈ parts, '/' ∉ part) :
    Reduced rooted (parts.foldl (push rooted) kept) := by
  induction parts generalizing kept with
  | nil => exact reduced
  | cons part rest ih =>
      refine ih (reduced_push reduced (whole part List.mem_cons_self)) ?_
      exact fun other member => whole other (List.mem_cons_of_mem part member)

theorem slash_notMem_split (part : Component) (member : part ∈ split path) : '/' ∉ part := by
  induction path generalizing part with
  | nil =>
      simp only [split, List.splitOn_nil, List.mem_singleton] at member
      simp [member]
  | cons char rest ih =>
      rw [split, List.splitOn_cons_eq_if_modifyHead] at member
      split at member
      · rcases List.mem_cons.mp member with rfl | later
        · simp
        · exact ih part later
      · rename_i other
        cases parts : rest.splitOn '/' with
        | nil => exact absurd parts (List.splitOn_ne_nil _ _)
        | cons first later =>
            rw [parts, List.modifyHead_cons] at member
            have earlier : ∀ part ∈ first :: later, '/' ∉ part :=
              fun part found => ih part (by rw [split, parts]; exact found)
            rcases List.mem_cons.mp member with rfl | tail
            · rw [List.mem_cons, not_or]
              exact ⟨fun same => other (by simp [← same]), earlier first List.mem_cons_self⟩
            · exact earlier part (List.mem_cons_of_mem first tail)

theorem reduced_components (path : List Char) :
    Reduced (leadingSlashes path != 0) (components path) :=
  reduced_foldl ⟨0, [], rfl, by simp, fun _ => rfl⟩ slash_notMem_split

theorem split_cons_slash (path : List Char) : split ('/' :: path) = [] :: split path := by
  rw [split, List.splitOn_cons_eq_if_modifyHead]
  simp [split]

theorem split_joinSep (some : names ≠ []) (whole : ∀ name ∈ names, '/' ∉ name) :
    split (joinSep '/' names) = names :=
  splitOn_joinSep some whole

theorem foldl_split_joinSep (whole : ∀ name ∈ names, '/' ∉ name) :
    (split (joinSep '/' names)).foldl (push rooted) kept = names.foldl (push rooted) kept := by
  by_cases empty : names = []
  · rw [empty]
    simp [joinSep, split, push_empty]
  · rw [split_joinSep empty whole]

theorem filter_split_joinSep (named : ∀ name ∈ names, IsName name) {keep : Component → Bool}
    (keeps : ∀ name, IsName name → keep name = true) (drops : keep [] = false) :
    (split (joinSep '/' names)).filter keep = names := by
  by_cases empty : names = []
  · rw [empty]
    simp [joinSep, split, drops]
  · rw [split_joinSep empty fun name member => (named name member).whole]
    exact List.filter_eq_self.mpr fun name member => keeps name (named name member)

theorem split_orDot (some : names ≠ []) (named : ∀ name ∈ names, name ≠ [] ∧ '/' ∉ name) :
    split (orDot (joinSep '/' names)) = names := by
  rw [orDot, if_neg (joinSep_ne_nil some named), split_joinSep some fun name member =>
    (named name member).2]

/-- The text of a normalised absolute path. -/
def fromRoot (names : List Component) : List Char := '/' :: joinSep '/' names

theorem leadingSlashes_cons {rest : List Char} (single : rest.head? ≠ some '/') :
    leadingSlashes ('/' :: rest) = 1 := by
  unfold leadingSlashes
  split <;> simp_all

theorem components_cons_slash {rest : List Char} (single : rest.head? ≠ some '/') :
    components ('/' :: rest) = (split rest).foldl (push true) [] := by
  rw [components, leadingSlashes_cons single, split_cons_slash, List.foldl_cons, push_empty]
  rfl

theorem IsName.part (name : IsName component) : component ≠ [] ∧ '/' ∉ component :=
  ⟨name.nonempty, name.whole⟩

theorem normpath_fromRoot (named : ∀ name ∈ names, IsName name) :
    normpath (fromRoot names) = fromRoot names := by
  have single := head_joinSep fun name member => (named name member).part
  have same : components (fromRoot names) = names := by
    rw [fromRoot, components_cons_slash single, foldl_split_joinSep fun name member =>
      (named name member).whole, foldl_push_names named, List.nil_append]
  rw [normpath, if_neg (by simp [fromRoot]), same, fromRoot, leadingSlashes_cons single]
  simp [orDot]

theorem parts_fromRoot (named : ∀ name ∈ names, IsName name) : parts (fromRoot names) = names := by
  rw [parts, fromRoot, split_cons_slash, List.filter_cons_of_neg (by simp)]
  exact filter_split_joinSep named (fun name isName => by simp [isName.nonempty, isName.notDot])
    (by simp)

theorem abspath_fromRoot (cwd : List Char) (named : ∀ name ∈ names, IsName name) :
    abspath cwd (fromRoot names) = fromRoot names := by
  rw [abspath, if_pos (by rfl), normpath_fromRoot named]

theorem abspath_cases {cwd : List Char} (absolute : isAbs cwd = true) (path : List Char) :
    ∃ names, (∀ name ∈ names, IsName name) ∧
      (abspath cwd path = fromRoot names ∨ abspath cwd path = '/' :: fromRoot names) := by
  have rooted : ∀ {whole : List Char}, isAbs whole = true → ∃ names, (∀ name ∈ names, IsName name) ∧
      (normpath whole = fromRoot names ∨ normpath whole = '/' :: fromRoot names) := by
    intro whole starts
    have slashes : leadingSlashes whole = 1 ∨ leadingSlashes whole = 2 := by
      unfold leadingSlashes
      split
      · exact .inl rfl
      · exact .inr rfl
      · exact .inl rfl
      · rename_i none
        cases whole with
        | nil => simp [isAbs] at starts
        | cons char rest =>
            simp only [isAbs, List.head?_cons, beq_iff_eq, Option.some.injEq] at starts
            exact absurd (by rw [starts]) (none rest)
    obtain ⟨above, names, parts, named, root⟩ := reduced_components whole
    have none : above = 0 := root (by rcases slashes with one | two <;> simp [*])
    rw [none, List.replicate_zero, List.nil_append] at parts
    refine ⟨names, named, ?_⟩
    rw [normpath, if_neg (by rintro rfl; simp [isAbs] at starts), parts]
    rcases slashes with one | two
    · exact .inl (by simp [orDot, one, fromRoot])
    · exact .inr (by simp [orDot, two, fromRoot, List.replicate_succ])
  rw [abspath]
  split
  · exact rooted ‹_›
  · refine rooted ?_
    rw [join, if_neg ‹_›]
    cases cwd with
    | nil => simp [isAbs] at absolute
    | cons char rest =>
        split
        · simpa [isAbs] using absolute
        · simpa [isAbs] using absolute

theorem leadingSlashes_double {rest : List Char} (other : rest.head? ≠ some '/') :
    leadingSlashes ('/' :: '/' :: rest) = 2 := by
  cases rest with
  | nil => rfl
  | cons char rest =>
      have different : char ≠ '/' := by simpa using other
      simp [leadingSlashes, different]

theorem abspath_double (cwd : List Char) (named : ∀ name ∈ names, IsName name) :
    abspath cwd ('/' :: fromRoot names) = '/' :: fromRoot names := by
  have two := leadingSlashes_double (head_joinSep fun name member => (named name member).part)
  have same : components ('/' :: fromRoot names) = names := by
    rw [components, fromRoot, two, split_cons_slash, List.foldl_cons, push_empty,
      split_cons_slash, List.foldl_cons,
      push_empty, foldl_split_joinSep fun name member => (named name member).whole]
    exact (foldl_push_names named).trans (List.nil_append _)
  rw [abspath, if_pos (by rfl), normpath, if_neg (by simp), same, fromRoot, two]
  simp [orDot, List.replicate_succ]

theorem abspath_abspath {cwd : List Char} (absolute : isAbs cwd = true) (path : List Char) :
    abspath cwd (abspath cwd path) = abspath cwd path := by
  obtain ⟨names, named, single | double⟩ := abspath_cases absolute path
  · rw [single, abspath_fromRoot cwd named]
  · rw [double, abspath_double cwd named]

/-- A normalised relative path that is not the current directory. -/
theorem normpath_relative (relative : isAbs path = false) :
    normpath path = orDot (joinSep '/' (components path)) ∧ Reduced false (components path) := by
  have none : leadingSlashes path = 0 := by
    unfold leadingSlashes
    split <;> simp_all [isAbs]
  have reduced := reduced_components path
  rw [none] at reduced
  refine ⟨?_, reduced⟩
  rw [normpath]
  split
  · rename_i empty
    rw [empty]
    simp [orDot, components, split, push_empty, joinSep]
  · rw [none, List.replicate_zero, List.nil_append]

theorem isAbs_normpath (absolute : isAbs path = true) : isAbs (normpath path) = true := by
  cases path with
  | nil => simp [isAbs] at absolute
  | cons char rest =>
      simp only [isAbs, List.head?_cons, beq_iff_eq, Option.some.injEq] at absolute
      rw [normpath, if_neg (by simp), absolute]
      have some : leadingSlashes ('/' :: rest) ≠ 0 := by
        unfold leadingSlashes
        split <;> simp_all
      cases slashes : leadingSlashes ('/' :: rest) with
      | zero => exact absurd slashes some
      | succ fewer => simp [orDot, List.replicate_succ, isAbs]

theorem Reduced.parts (reduced : Reduced rooted kept) (part : Component) (member : part ∈ kept) :
    part ≠ [] ∧ '/' ∉ part := by
  obtain ⟨above, names, rfl, named, -⟩ := reduced
  rcases List.mem_append.mp member with up | name
  · rw [List.eq_of_mem_replicate up]
    decide
  · exact (named part name).part

theorem Reduced.notDot (reduced : Reduced rooted kept) (part : Component) (member : part ∈ kept) :
    part ≠ dot := by
  obtain ⟨above, names, rfl, named, -⟩ := reduced
  rcases List.mem_append.mp member with up | name
  · rw [List.eq_of_mem_replicate up]
    decide
  · exact (named part name).notDot

/-- Joining a relative path to a root, with its `..` still in it. -/
theorem join_fromRoot {base relative : List Component} (named : ∀ name ∈ base, IsName name)
    (parts : ∀ part ∈ relative, part ≠ [] ∧ '/' ∉ part) (some : relative ≠ []) :
    join (fromRoot base) (joinSep '/' relative) = fromRoot (base ++ relative) := by
  have relativeText : ¬ isAbs (joinSep '/' relative) = true := by
    simpa [isAbs] using head_joinSep parts
  rw [join, if_neg relativeText]
  by_cases empty : base = []
  · rw [if_pos (by simp [empty, fromRoot, joinSep]), empty]
    simp [fromRoot, joinSep]
  · obtain ⟨last, ends, other⟩ := getLast_joinSep empty fun name member => (named name member).part
    have someText := joinSep_ne_nil empty fun name member => (named name member).part
    have unslashed : ¬ (fromRoot base = [] ∨ (fromRoot base).getLast? = Option.some '/') := by
      rw [fromRoot, List.getLast?_cons_of_ne_nil someText, ends]
      simp [other]
    rw [if_neg unslashed, fromRoot, fromRoot, joinSep_append empty some, List.cons_append]

theorem isName_foldl {base relative : List Component} (named : ∀ name ∈ base, IsName name)
    (whole : ∀ part ∈ relative, '/' ∉ part) :
    ∀ name ∈ relative.foldl (push true) base, IsName name := by
  have reducedBase : Reduced true base := ⟨0, base, by simp, named, fun _ => rfl⟩
  obtain ⟨above, names, parts, isName, root⟩ := reduced_foldl reducedBase whole
  rw [parts, root rfl]
  exact isName

/-- Joining a relative path to a root and normalising resolves its `..`. -/
theorem abspath_join (cwd : List Char) {base relative : List Component}
    (named : ∀ name ∈ base, IsName name)
    (parts : ∀ part ∈ relative, part ≠ [] ∧ '/' ∉ part) (some : relative ≠ []) :
    abspath cwd (join (fromRoot base) (joinSep '/' relative)) = fromRoot
      (relative.foldl (push true) base) := by
  have proper : ∀ part ∈ base ++ relative, part ≠ [] ∧ '/' ∉ part := by
    intro part member
    rcases List.mem_append.mp member with found | found
    · exact (named part found).part
    · exact parts part found
  have single := head_joinSep proper
  have folded : components (fromRoot (base ++ relative)) = relative.foldl (push true) base := by
    rw [fromRoot, components_cons_slash single, foldl_split_joinSep fun part member =>
      (proper part member).2, List.foldl_append, foldl_push_names named, List.nil_append]
  rw [join_fromRoot named parts some, abspath, if_pos (by rfl), normpath,
    if_neg (by simp [fromRoot]), folded, fromRoot, leadingSlashes_cons single]
  simp [orDot, fromRoot]

theorem commonPrefix_eq_left_iff {α : Type} [DecidableEq α] {left right : List α} :
    commonPrefix left right = left ↔ left <+: right := by
  induction left generalizing right with
  | nil => cases right <;> simp [commonPrefix]
  | cons first rest ih =>
      cases right with
      | nil => simp [commonPrefix]
      | cons other others =>
          rw [commonPrefix]
          split
          · rename_i same
            rw [List.cons.injEq, List.cons_prefix_cons, ih]
            simp [same]
          · rename_i different
            simp [List.cons_prefix_cons, different]

theorem mem_of_mem_commonPrefix {α : Type} [DecidableEq α] {left right : List α} {item : α}
    (member : item ∈ commonPrefix left right) : item ∈ left := by
  induction left generalizing right with
  | nil => cases right <;> simp [commonPrefix] at member
  | cons first rest ih =>
      cases right with
      | nil => simp [commonPrefix] at member
      | cons other others =>
          rw [commonPrefix] at member
          split at member
          · rcases List.mem_cons.mp member with rfl | later
            · exact List.mem_cons_self
            · exact List.mem_cons_of_mem first (ih later)
          · simp at member

theorem parts_proper {part : Component} (member : part ∈ parts path) : part ≠ [] ∧ '/' ∉ part := by
  obtain ⟨found, kept⟩ := List.mem_filter.mp member
  exact ⟨(of_decide_eq_true kept).1, slash_notMem_split part found⟩

/-- A common path never begins with two slashes. -/
theorem commonpath_single {left right common : List Char}
    (found : commonpath left right = some ('/' :: common)) :
    common.head? ≠ some '/' := by
  rw [commonpath] at found
  have proper : ∀ part ∈ commonPrefix (parts left) (parts right), part ≠ [] ∧ '/' ∉ part :=
    fun part member => parts_proper (mem_of_mem_commonPrefix member)
  have single := head_joinSep proper
  split at found
  · rw [Option.some.injEq] at found
    split at found
    · rw [List.singleton_append, List.cons.injEq] at found
      rwa [← found.2]
    · rw [List.nil_append] at found
      rw [found] at single
      exact absurd rfl single
  · cases found

theorem commonpath_fromRoot {left right : List Component} (lefts : ∀ name ∈ left, IsName name)
    (rights : ∀ name ∈ right, IsName name) :
    commonpath (fromRoot left) (fromRoot right) = some (fromRoot (commonPrefix left right)) := by
  rw [commonpath, if_pos (by rfl), if_pos (by rfl), parts_fromRoot lefts, parts_fromRoot rights]
  rfl

theorem fromRoot_injective {left right : List Component} (lefts : ∀ name ∈ left, IsName name)
    (rights : ∀ name ∈ right, IsName name) (same : fromRoot left = fromRoot right) : left = right :=
  joinSep_injective (fun name member => (lefts name member).part)
    (fun name member => (rights name member).part)
    (List.cons.inj same).2

theorem relpath_fromRoot (cwd : List Char) {base inside : List Component}
    (baseNames : ∀ name ∈ base, IsName name) (insideNames : ∀ name ∈ inside, IsName name) :
    relpath cwd (fromRoot (base ++ inside)) (fromRoot base) = orDot (joinSep '/' inside) := by
  have allNames : ∀ name ∈ base ++ inside, IsName name := by
    intro name member
    rcases List.mem_append.mp member with found | found
    · exact baseNames name found
    · exact insideNames name found
  have listed : ∀ {names : List Component}, (∀ name ∈ names, IsName name) →
      (split (abspath cwd (fromRoot names))).filter (fun part => !part.isEmpty) = names := by
    intro names named
    rw [abspath_fromRoot cwd named, fromRoot, split_cons_slash, List.filter_cons_of_neg (by simp)]
    exact filter_split_joinSep named (fun name isName => by simpa using isName.nonempty) rfl
  have shared : commonPrefix base (base ++ inside) = base :=
    commonPrefix_eq_left_iff.mpr (List.prefix_append _ _)
  simp only [relpath, listed baseNames, listed allNames, shared, Nat.sub_self,
    List.replicate_zero, List.nil_append, List.drop_left]
  by_cases empty : inside = []
  · simp [empty, orDot, joinSep]
  · rw [if_neg empty, orDot,
      if_neg (joinSep_ne_nil empty fun name member => (insideNames name member).part)]

/-- The names on the way from the root to what a path leads to. -/
def resolve (cwd path : List Char) : List Component :=
  components (if isAbs path then path else join cwd path)

def dirname (path : List Char) : List Char :=
  let head := (path.reverse.dropWhile (· ≠ '/')).reverse
  if head.all (· = '/') then head else (head.reverse.dropWhile (· = '/')).reverse

theorem leadingSlashes_ne_zero (path : List Char) : (leadingSlashes path != 0) = isAbs path := by
  cases path with
  | nil => rfl
  | cons char rest =>
      unfold leadingSlashes
      split <;> simp_all [isAbs]

theorem isAbs_join {cwd : List Char} (absolute : isAbs cwd = true) (path : List Char) :
    isAbs (join cwd path) = true := by
  unfold join
  split
  · assumption
  split
  · cases cwd with
    | nil => simp [isAbs] at absolute
    | cons char rest => simpa [isAbs] using absolute
  · cases cwd with
    | nil => simp [isAbs] at absolute
    | cons char rest => simpa [isAbs] using absolute

theorem isName_resolve {cwd : List Char} (absolute : isAbs cwd = true) (path : List Char) :
    ∀ name ∈ resolve cwd path, IsName name := by
  have rooted : isAbs (if isAbs path then path else join cwd path) = true := by
    split
    · assumption
    · exact isAbs_join absolute path
  obtain ⟨above, names, parts, named, root⟩ :=
    reduced_components (if isAbs path then path else join cwd path)
  rw [leadingSlashes_ne_zero] at root
  rw [resolve, parts, root rooted]
  exact named

theorem resolve_fromRoot (cwd : List Char) (named : ∀ name ∈ names, IsName name) :
    resolve cwd (fromRoot names) = names := by
  have single := head_joinSep fun name member => (named name member).part
  rw [resolve, if_pos (by rfl), fromRoot, components_cons_slash single,
    foldl_split_joinSep fun name member => (named name member).whole,
      foldl_push_names named, List.nil_append]

theorem resolve_double (cwd : List Char) (named : ∀ name ∈ names, IsName name) :
    resolve cwd ('/' :: fromRoot names) = names := by
  have two := leadingSlashes_double (head_joinSep fun name member => (named name member).part)
  rw [resolve, if_pos (by rfl), components, fromRoot, two, split_cons_slash, List.foldl_cons,
    push_empty, split_cons_slash,
    List.foldl_cons, push_empty, foldl_split_joinSep fun name member => (named name member).whole]
  exact (foldl_push_names named).trans (List.nil_append _)

theorem resolve_abspath {cwd : List Char} (absolute : isAbs cwd = true) (path : List Char) :
    resolve cwd (abspath cwd path) = resolve cwd path := by
  have rooted : isAbs (if isAbs path then path else join cwd path) = true := by
    split
    · assumption
    · exact isAbs_join absolute path
  have named := isName_resolve absolute path
  rw [abspath, normpath, if_neg (by intro empty; rw [empty] at rooted; cases rooted), ← resolve]
  have slashes : leadingSlashes (if isAbs path then path else join cwd path) = 1 ∨
      leadingSlashes (if isAbs path then path else join cwd path) = 2 := by
    have some := leadingSlashes_ne_zero (if isAbs path then path else join cwd path)
    rw [rooted] at some
    unfold leadingSlashes at some ⊢
    split <;> simp_all
  rcases slashes with one | two
  · rw [one]
    exact resolve_fromRoot cwd named
  · rw [two]
    exact resolve_double cwd named

theorem split_append_slash (left right : List Char) :
    split (left ++ '/' :: right) = split left ++ split right :=
  List.splitOn_append_cons_self left right

theorem split_name (name : IsName component) : split component = [component] := by
  have alone := split_joinSep (List.cons_ne_nil component []) (by simpa using name.whole)
  simpa [joinSep] using alone

theorem join_relative {more : List Char} (relative : isAbs more = false) :
    join path more = if path = [] ∨ path.getLast? = some '/' then path ++ more
      else path ++ '/' :: more := by
  rw [join, if_neg (by simp [relative])]

theorem isAbs_name (name : IsName component) : isAbs component = false := by
  rw [isAbs, beq_eq_false_iff_ne]
  intro starts
  exact name.whole (List.mem_of_mem_head? starts)

theorem join_cases (path : List Char) (name : IsName component) :
    (∃ front, path = front ++ ['/'] ∧ join path component = front ++ '/' :: component) ∨
      (path = [] ∧ join path component = component) ∨
      (path ≠ [] ∧ path.getLast? ≠ some '/' ∧ join path component = path ++ '/' :: component) := by
  rw [join_relative (isAbs_name name)]
  by_cases empty : path = []
  · rw [if_pos (.inl empty), empty]
    exact .inr (.inl ⟨rfl, rfl⟩)
  by_cases ends : path.getLast? = some '/'
  · obtain ⟨front, rfl⟩ := List.getLast?_eq_some_iff.mp ends
    rw [if_pos (.inr ends), List.append_assoc]
    exact .inl ⟨front, rfl, rfl⟩
  · rw [if_neg (by rw [not_or]; exact ⟨empty, ends⟩)]
    exact .inr (.inr ⟨empty, ends, rfl⟩)

theorem components_join (absolute : isAbs path = true) (name : IsName component) :
    components (join path component) = components path ++ [component] := by
  have flags : (leadingSlashes (join path component) != 0) = (leadingSlashes path != 0) := by
    rw [leadingSlashes_ne_zero, leadingSlashes_ne_zero, absolute, isAbs_join absolute]
  rw [components, components, flags]
  rcases join_cases path name with ⟨front, rfl, joined⟩ | ⟨rfl, -⟩ | ⟨-, -, joined⟩
  · rw [joined, split_append_slash, split_append_slash, split_name name,
      List.foldl_append, List.foldl_append, List.foldl_cons, List.foldl_nil, push_name name]
    simp [split, push_empty]
  · cases absolute
  · rw [joined, split_append_slash, split_name name, List.foldl_append, List.foldl_cons,
      List.foldl_nil, push_name name]

theorem join_join {cwd : List Char} (relative : isAbs path = false) (name : IsName component) :
    isAbs (join path component) = false ∧ join cwd (join path component) = join
      (join cwd path) component := by
  have single := isAbs_name name
  cases path with
  | nil =>
      have joined : join [] component = component := by simp [join_relative single]
      rw [joined, join_relative single, join_relative single, join_relative relative]
      refine ⟨single, ?_⟩
      by_cases ends : cwd = [] ∨ cwd.getLast? = some '/'
      · rw [if_pos ends, if_pos ends, List.append_nil, if_pos ends]
      · rw [if_neg ends, if_neg ends, if_pos (.inr (by simp))]
        simp
  | cons char rest =>
      have stays : ∀ more, isAbs (char :: rest ++ more) = false :=
        fun more => by simpa [isAbs] using relative
      have whole : ∀ front, (front ++ char :: rest).getLast? = (char :: rest).getLast? := by
        intro front
        rw [List.getLast?_append_of_ne_nil _ (List.cons_ne_nil char rest)]
      rw [join_relative single]
      by_cases ends : (char :: rest).getLast? = some '/'
      · rw [if_pos (.inr ends), join_relative (stays component), join_relative single,
          join_relative relative]
        refine ⟨stays component, ?_⟩
        split
        · rw [if_pos (.inr ((whole cwd).trans ends)), List.append_assoc]
        · have long : (cwd ++ '/' :: char :: rest).getLast? = some '/' := by
            rw [List.append_cons, whole, ends]
          rw [if_pos (.inr long)]
          simp
      · rw [if_neg (by simpa using ends), join_relative (stays _), join_relative single,
          join_relative relative]
        refine ⟨stays _, ?_⟩
        split
        · rw [if_neg (by rw [whole]; simpa using ends), List.append_assoc]
        · have long : ¬ (cwd ++ '/' :: char :: rest = [] ∨
            (cwd ++ '/' :: char :: rest).getLast? = some '/') := by
            rw [List.append_cons, whole]
            simpa using ends
          rw [if_neg long]
          simp

/-- The entry of a name in what a path leads to. -/
theorem resolve_join {cwd : List Char} (absolute : isAbs cwd = true) (path : List Char)
    (name : IsName component) :
    resolve cwd (join path component) = resolve cwd path ++ [component] := by
  rw [resolve, resolve]
  by_cases rooted : isAbs path = true
  · rw [if_pos rooted, if_pos (isAbs_join rooted component), components_join rooted name]
  · have relative : isAbs path = false := by simpa using rooted
    obtain ⟨stays, same⟩ : isAbs (join path component) = false ∧
      join cwd (join path component) = join (join cwd path) component :=
      join_join relative name
    rw [if_neg rooted, if_neg (by simp [stays]), same,
      components_join (isAbs_join absolute path) name]

theorem dirname_fromRoot {parent : List Component} (named : ∀ name ∈ parent, IsName name)
    (name : IsName component) :
    dirname (fromRoot (parent ++ [component])) = fromRoot parent := by
  have inside : ∀ char ∈ component.reverse, decide (char ≠ '/') = true := by
    intro char member
    rw [decide_eq_true_eq]
    rintro rfl
    exact name.whole (List.mem_reverse.mp member)
  have stops : ∀ before : List Char,
      ((before ++ '/' :: component).reverse.dropWhile (· ≠ '/')).reverse = before ++ ['/'] := by
    intro before
    rw [List.reverse_append, List.reverse_cons, List.append_assoc,
      List.dropWhile_append_of_pos inside]
    simp
  by_cases root : parent = []
  · rw [root, List.nil_append, fromRoot]
    have text : '/' :: joinSep '/' [component] = [] ++ '/' :: component := by simp [joinSep]
    rw [dirname, text, stops]
    simp [fromRoot, joinSep]
  · have text : fromRoot (parent ++ [component]) = fromRoot parent ++ '/' :: component := by
      rw [fromRoot, fromRoot, joinSep_append root (List.cons_ne_nil component [])]
      simp [joinSep]
    obtain ⟨last, ends, other⟩ := getLast_joinSep root fun name member => (named name member).part
    have someText := joinSep_ne_nil root fun name member => (named name member).part
    obtain ⟨front, shape⟩ := List.getLast?_eq_some_iff.mp ends
    rw [dirname, text, stops]
    have mixed : ¬ ((fromRoot parent ++ ['/']).all (· = '/')) = true := by
      rw [fromRoot, shape]
      simp [other]
    rw [if_neg mixed, fromRoot, shape]
    simp [other]

end Stopan.Lib.PosixPath
