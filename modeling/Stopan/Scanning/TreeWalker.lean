import Stopan.Lib.Separated
import Stopan.Lib.StackWalk
import Stopan.Metadata.Catalog

/-!
The walk over the tree of a backup (`stopan/scanning/scanner.py`).
-/

namespace Stopan.Scanning

open Stopan.Lib Stopan.Common Stopan.Metadata

structure DirEntry where
  name : PyText
  stat : StatInfo
  deriving DecidableEq, Repr

def slash : PyChar := .scalar '/'

def dotPath : PyText := [.scalar '.']

/-- `S_ISREG`. -/
def isReg (stat : StatInfo) : Bool := stat.mode / 4096 % 16 == 8

/-- `S_ISDIR`. -/
def isDir (stat : StatInfo) : Bool := stat.mode / 4096 % 16 == 4

/-- What the kernel allows as the name of an entry. -/
def ProperName (name : PyText) : Prop := name ≠ [] ∧ name ≠ dotPath ∧
    name ≠ [.scalar '.', .scalar '.'] ∧ slash ∉ name

/-- `entry.path`. -/
def entryPath (path name : PyText) : PyText := if path.getLast? = some slash then path ++ name
    else path ++ slash :: name

/-- A directory and what `scandir` and `stat` say below it, links not followed for the last
component. -/
structure Listing where
  rootPath : PyText
  rootStat : StatInfo
  scandir : PyText → List DirEntry

def Listing.pathTo (listing : Listing) (names : List PyText) : PyText :=
  names.foldl entryPath listing.rootPath

/-- The entries of the tree: those of its directories, but nothing that is only found through a
link. -/
inductive Listing.Reached (listing : Listing) : List PyText → StatInfo → Prop where
  | root : listing.Reached [] listing.rootStat
  | entry {names : List PyText} {stat : StatInfo} {entry : DirEntry}
      (above : listing.Reached names stat)
      (directory : isDir stat = true) (listed : entry ∈ listing.scandir (listing.pathTo names)) :
      listing.Reached (names ++ [entry.name]) entry.stat

/-- What lies above a reached entry is a directory that is reached. -/
theorem Listing.Reached.above {listing : Listing} {names more : List PyText} {stat : StatInfo}
    (reached : listing.Reached (names ++ more) stat) (some : more ≠ []) :
    ∃ found, listing.Reached names found ∧ isDir found = true := by
  generalize isWhole : names ++ more = whole at reached
  induction reached generalizing more with
  | root => exact absurd (List.append_eq_nil_iff.mp isWhole).2 some
  | @entry earlier stat entry reached directory listed ih =>
      obtain ⟨kept, last, rfl⟩ := List.eq_nil_or_concat more |>.resolve_left some
      rw [List.concat_eq_append, ← List.append_assoc] at isWhole
      obtain ⟨isEarlier, -⟩ := List.append_inj' isWhole rfl
      by_cases none : kept = []
      · rw [none, List.append_nil] at isEarlier
        rw [isEarlier]
        exact ⟨stat, reached, directory⟩
      · exact ih none isEarlier

/-- A finite tree that does not change while it is walked. -/
structure FileTree extends Listing where
  height : Nat
  rootDirectory : isDir rootStat = true
  proper : ∀ path, ∀ entry ∈ scandir path, ProperName entry.name
  distinct : ∀ path, ((scandir path).map DirEntry.name).Nodup
  finite : ∀ names stat, toListing.Reached names stat → names.length ≤ height

/-- `scandir` gives the entries of a directory in any order. -/
structure Enumeration where
  order : PyText → List DirEntry → List DirEntry
  permutes : ∀ path entries, (order path entries).Perm entries

structure WalkedItem where
  relPath : PyText
  fullPath : PyText
  stat : StatInfo
  itemType : ItemType
  deriving DecidableEq, Repr

/-- Code points, by which Python orders strings. -/
def PyChar.code : PyChar → Nat
  | .scalar char => char.toNat
  | .escapedByte byte => 0xdc00 + byte.toNat

structure TreeWalker where
  tree : FileTree
  enumeration : Enumeration
  deterministic : Bool

namespace TreeWalker

def entries (walker : TreeWalker) (path : PyText) : List DirEntry :=
  let listed := walker.enumeration.order path (walker.tree.scandir path)
  if walker.deterministic then
    listed.mergeSort fun left right => decide
      (left.name.map PyChar.code ≤ right.name.map PyChar.code)
  else listed

def childRel (parentRel name : PyText) : PyText := if parentRel = dotPath then name
    else parentRel ++ slash :: name

/-- Links and special files are ignored. -/
def inspect (currentPath parentRel : PyText) (entry : DirEntry) : Option WalkedItem :=
  let item (itemType : ItemType) : WalkedItem :=
    { relPath := childRel parentRel entry.name
      fullPath := entryPath currentPath entry.name
      stat := entry.stat
      itemType }
  if isReg entry.stat then some (item .file)
  else if isDir entry.stat then some (item .dir)
  else none

/-- What the loop yields for one directory. -/
def scan (walker : TreeWalker) (directory : PyText × PyText) : List WalkedItem :=
  (walker.entries directory.1).filterMap (inspect directory.1 directory.2)

/-- The directories that it leaves on the stack, the next one first. -/
def pushed (walker : TreeWalker) (directory : PyText × PyText) : List (PyText × PyText) :=
  let directories :=
    ((walker.scan directory).filter fun item => item.itemType == .dir).map fun item =>
    (item.fullPath, item.relPath)
  if walker.deterministic then directories else directories.reverse

def start (walker : TreeWalker) : PyText × PyText := (walker.tree.rootPath, dotPath)

def rootItem (walker : TreeWalker) : WalkedItem where
  relPath := dotPath
  fullPath := walker.tree.rootPath
  stat := walker.tree.rootStat
  itemType := .dir

/-- The loop takes one directory from the stack at a time, so it ends after as many steps as there
are directories. -/
def walk (walker : TreeWalker) : List WalkedItem :=
  walker.rootItem ::
    drain walker.scan walker.pushed (nodesBelow walker.pushed (walker.tree.height + 1) walker.start)
      [walker.start]

variable {walker : TreeWalker} {names more : List PyText} {stat : StatInfo} {item : WalkedItem}

def relText (names : List PyText) : PyText := if names = [] then dotPath else joinSep slash names

theorem relText_ne_dot (some : names ≠ []) (proper : ∀ name ∈ names, ProperName name) :
    relText names ≠ dotPath := by
  intro isDot
  rw [relText, if_neg some] at isDot
  have parts : (joinSep slash names).splitOn slash = names :=
    splitOn_joinSep some fun name member => (proper name member).2.2.2
  rw [isDot] at parts
  have only : dotPath ∈ names := by
    rw [← parts]
    decide
  exact (proper dotPath only).2.1 rfl

theorem relText_append (proper : ∀ name ∈ names, ProperName name) (name : PyText) :
    relText (names ++ [name]) = childRel (relText names) name := by
  by_cases empty : names = []
  · simp [empty, relText, childRel, joinSep]
  · rw [childRel, if_neg (relText_ne_dot empty proper), relText, relText,
      if_neg (by simp), if_neg empty, joinSep_append empty (by simp)]
    simp [joinSep]

theorem relText_injective {left right : List PyText} (lefts : ∀ name ∈ left, ProperName name)
    (rights : ∀ name ∈ right, ProperName name) (same : relText left = relText right) :
    left = right := by
  by_cases leftEmpty : left = []
  · by_cases rightEmpty : right = []
    · rw [leftEmpty, rightEmpty]
    · rw [leftEmpty] at same
      exact absurd same.symm (relText_ne_dot rightEmpty rights)
  · by_cases rightEmpty : right = []
    · rw [rightEmpty] at same
      exact absurd same (relText_ne_dot leftEmpty lefts)
    · rw [relText, relText, if_neg leftEmpty, if_neg rightEmpty] at same
      exact joinSep_injective
        (fun name member => ⟨(lefts name member).1, (lefts name member).2.2.2⟩)
        (fun name member => ⟨(rights name member).1, (rights name member).2.2.2⟩) same

/-- The item of an entry of the tree, if the walk yields it. -/
def itemType? (stat : StatInfo) : Option ItemType :=
  if isReg stat then some .file else if isDir stat then some .dir else none

def itemAt (walker : TreeWalker) (names : List PyText) (stat : StatInfo) (itemType : ItemType) :
    WalkedItem where
  relPath := relText names
  fullPath := walker.tree.pathTo names
  stat := stat
  itemType := itemType

/-- Where the stack keeps a directory. -/
def place (walker : TreeWalker) (names : List PyText) : PyText × PyText :=
  (walker.tree.pathTo names, relText names)

theorem proper_of_reached (reached : walker.tree.Reached names stat) :
    ∀ name ∈ names, ProperName name := by
  induction reached with
  | root => simp
  | entry above directory listed ih =>
      intro name member
      rcases List.mem_append.mp member with earlier | last
      · exact ih name earlier
      · rw [List.mem_singleton.mp last]
        exact walker.tree.proper _ _ listed

theorem entries_perm (path : PyText) : (walker.entries path).Perm (walker.tree.scandir path) := by
  simp only [entries]
  split
  · exact (List.mergeSort_perm _ _).trans (walker.enumeration.permutes path _)
  · exact walker.enumeration.permutes path _

theorem nodup_entries (path : PyText) : ((walker.entries path).map DirEntry.name).Nodup :=
  ((entries_perm path).map DirEntry.name).nodup_iff.mpr (walker.tree.distinct path)

theorem pathTo_append (name : PyText) :
    walker.tree.pathTo (names ++ [name]) = entryPath (walker.tree.pathTo names) name := by
  simp [Listing.pathTo]

theorem inspect_eq (proper : ∀ name ∈ names, ProperName name) (entry : DirEntry) :
    inspect (walker.place names).1 (walker.place names).2 entry =
      (itemType? entry.stat).map (walker.itemAt (names ++ [entry.name]) entry.stat) := by
  have located : ∀ itemType, walker.itemAt (names ++ [entry.name]) entry.stat itemType =
      { relPath := childRel (relText names) entry.name
        fullPath := entryPath (walker.tree.pathTo names) entry.name
        stat := entry.stat
        itemType } := by
    intro itemType
    rw [itemAt, relText_append proper, pathTo_append]
  simp only [inspect, itemType?, place]
  split
  · rw [Option.map_some, located]
  · split
    · rw [Option.map_some, located]
    · rfl

theorem mem_scan (proper : ∀ name ∈ names, ProperName name) :
    item ∈ walker.scan (walker.place names) ↔
      ∃ entry ∈ walker.tree.scandir (walker.tree.pathTo names),
      ∃ itemType, itemType? entry.stat = some itemType ∧
        item = walker.itemAt (names ++ [entry.name]) entry.stat itemType := by
  rw [scan, List.mem_filterMap]
  constructor
  · rintro ⟨entry, listed, yielded⟩
    rw [inspect_eq proper] at yielded
    obtain ⟨itemType, known, equal⟩ := Option.map_eq_some_iff.mp yielded
    exact ⟨entry, (entries_perm _).mem_iff.mp listed, itemType, known, equal.symm⟩
  · rintro ⟨entry, listed, itemType, known, rfl⟩
    refine ⟨entry, (entries_perm _).mem_iff.mpr listed, ?_⟩
    rw [inspect_eq proper, known]
    rfl

theorem itemType_eq_dir_iff : itemType? stat = some .dir ↔ isDir stat = true := by
  unfold itemType?
  split
  · rename_i regular
    simp only [isReg, beq_iff_eq] at regular
    simp [isDir, regular]
  · split <;> simp [*]

theorem mem_pushed (proper : ∀ name ∈ names, ProperName name) {child : PyText × PyText} :
    child ∈ walker.pushed (walker.place names) ↔
      ∃ entry ∈ walker.tree.scandir (walker.tree.pathTo names),
      isDir entry.stat = true ∧ child = walker.place (names ++ [entry.name]) := by
  have scanned : child ∈ walker.pushed (walker.place names) ↔
      ∃ item ∈ walker.scan (walker.place names), item.itemType = .dir ∧
        (item.fullPath, item.relPath) = child := by
    simp only [pushed]
    split <;> simp [List.mem_filter, and_assoc]
  rw [scanned]
  constructor
  · rintro ⟨item, yielded, isDirectory, rfl⟩
    obtain ⟨entry, listed, itemType, known, rfl⟩ := (mem_scan proper).mp yielded
    cases isDirectory
    exact ⟨entry, listed, itemType_eq_dir_iff.mp known, rfl⟩
  · rintro ⟨entry, listed, directory, rfl⟩
    exact ⟨_, (mem_scan proper).mpr ⟨entry, listed, .dir, itemType_eq_dir_iff.mpr directory, rfl⟩,
      rfl, rfl⟩

theorem shallow_place {depth : Nat} (reached : walker.tree.Reached names stat)
    (directory : isDir stat = true) (deep : walker.tree.height < depth + names.length) :
    Shallow walker.pushed depth (walker.place names) := by
  induction depth generalizing names stat with
  | zero =>
      have bound := walker.tree.finite names stat reached
      omega
  | succ depth ih =>
      intro child member
      obtain ⟨entry, listed, below, rfl⟩ := (mem_pushed (proper_of_reached reached)).mp member
      refine ih (.entry reached directory listed) below ?_
      rw [List.length_append, List.length_singleton]
      omega

theorem walk_eq : walker.walk = walker.rootItem :: below walker.scan walker.pushed
    (walker.tree.height + 1) walker.start := by
  rw [walk]
  congr 1
  exact drain_eq_below (shallow_place .root walker.tree.rootDirectory (by simp)) (Nat.le_refl _)

theorem reached_of_below {depth : Nat} (reached : walker.tree.Reached names stat)
    (directory : isDir stat = true)
    (yielded : item ∈ below walker.scan walker.pushed depth (walker.place names)) :
    ∃ more found itemType, more ≠ [] ∧ walker.tree.Reached (names ++ more) found ∧
      itemType? found = some itemType ∧ item = walker.itemAt (names ++ more) found itemType := by
  induction depth generalizing names stat with
  | zero => simp [below] at yielded
  | succ depth ih =>
      have proper := proper_of_reached reached
      rcases List.mem_append.mp yielded with here | further
      · obtain ⟨entry, listed, itemType, known, equal⟩ := (mem_scan proper).mp here
        exact ⟨[entry.name], entry.stat, itemType, by simp, .entry reached directory listed,
          known, equal⟩
      · obtain ⟨child, member, yielded⟩ := List.mem_flatMap.mp further
        obtain ⟨entry, listed, isDirectory, rfl⟩ := (mem_pushed proper).mp member
        obtain ⟨more, found, itemType, some, known, typed, equal⟩ :=
          ih (.entry reached directory listed) isDirectory yielded
        rw [List.append_assoc] at known equal
        exact ⟨_, found, itemType, by simp, known, typed, equal⟩

theorem below_of_reached (reached : walker.tree.Reached names stat)
    (directory : isDir stat = true) :
    below walker.scan walker.pushed (walker.tree.height + 1 - names.length) (walker.place names) ⊆
      below walker.scan walker.pushed (walker.tree.height + 1) walker.start := by
  induction reached with
  | root => exact fun _ member => member
  | @entry names stat entry above isDirectory listed ih =>
      have bound := walker.tree.finite _ _ above
      have depth : walker.tree.height + 1 - names.length =
          (walker.tree.height + 1 - (names ++ [entry.name]).length) + 1 := by
        rw [List.length_append, List.length_singleton]
        omega
      refine fun item member => ih isDirectory ?_
      rw [depth]
      refine List.mem_append_right _ (List.mem_flatMap.mpr ⟨_, ?_, member⟩)
      exact (mem_pushed (proper_of_reached above)).mpr ⟨entry, listed, directory, rfl⟩

/-- The walk yields the directories and the regular files of the tree. -/
theorem mem_walk_iff : item ∈ walker.walk ↔ ∃ names stat itemType, walker.tree.Reached names stat ∧
    itemType? stat = some itemType ∧ item = walker.itemAt names stat itemType := by
  have rootType : itemType? walker.tree.rootStat = some .dir :=
    itemType_eq_dir_iff.mpr walker.tree.rootDirectory
  rw [walk_eq, List.mem_cons]
  constructor
  · rintro (rfl | yielded)
    · exact ⟨[], _, .dir, .root, rootType, rfl⟩
    · obtain ⟨more, found, itemType, -, reached, typed, equal⟩ :=
        reached_of_below .root walker.tree.rootDirectory yielded
      exact ⟨more, found, itemType, reached, typed, equal⟩
  · rintro ⟨names, stat, itemType, reached, typed, rfl⟩
    cases reached with
    | root =>
        rw [rootType, Option.some.injEq] at typed
        cases typed
        exact .inl rfl
    | @entry names stat entry above directory listed =>
        refine .inr (below_of_reached above directory ?_)
        have bound := walker.tree.finite _ _ above
        obtain ⟨depth, isSucc⟩ : ∃ depth, walker.tree.height + 1 - names.length = depth + 1 :=
          ⟨walker.tree.height - names.length, by omega⟩
        rw [isSucc]
        exact List.mem_append_left _
          ((mem_scan (proper_of_reached above)).mpr ⟨entry, listed, itemType, typed, rfl⟩)

/-- What lies below a directory has the names of the directory and more in its path. -/
theorem relPath_of_below {depth : Nat} (reached : walker.tree.Reached names stat)
    (directory : isDir stat = true)
    (yielded : item ∈ below walker.scan walker.pushed depth (walker.place names)) :
    ∃ more, more ≠ [] ∧ (∀ name ∈ names ++ more, ProperName name) ∧
      item.relPath = relText (names ++ more) := by
  obtain ⟨more, found, itemType, some, known, -, rfl⟩ := reached_of_below reached directory yielded
  exact ⟨more, some, proper_of_reached known, rfl⟩

theorem nodup_scan (proper : ∀ name ∈ names, ProperName name) :
    ((walker.scan (walker.place names)).map WalkedItem.relPath).Nodup := by
  have separate : (walker.entries (walker.place names).1).Pairwise fun left right =>
      left.name ≠ right.name ∧ ProperName left.name ∧ ProperName right.name := by
    refine List.Pairwise.imp_of_mem ?_ (List.pairwise_map.mp (nodup_entries (walker.place names).1))
    intro left right leftListed rightListed different
    exact ⟨different, walker.tree.proper _ _ ((entries_perm _).mem_iff.mp leftListed),
      walker.tree.proper _ _ ((entries_perm _).mem_iff.mp rightListed)⟩
  refine List.pairwise_map.mpr (List.Pairwise.filterMap _ ?_ separate)
  rintro left right ⟨different, leftProper,
    rightProper⟩ leftItem leftYields rightItem rightYields same
  rw [inspect_eq proper] at leftYields rightYields
  obtain ⟨leftType, -, rfl⟩ := Option.map_eq_some_iff.mp leftYields
  obtain ⟨rightType, -, rfl⟩ := Option.map_eq_some_iff.mp rightYields
  have extended : ∀ {name : PyText}, ProperName name →
      ∀ other ∈ names ++ [name], ProperName other := by
    intro name isProper other member
    rcases List.mem_append.mp member with earlier | last
    · exact proper other earlier
    · rw [List.mem_singleton.mp last]
      exact isProper
  have paths := relText_injective (extended leftProper) (extended rightProper) same
  exact different (List.cons.inj (List.append_cancel_left paths)).1

theorem nodup_pushed (proper : ∀ name ∈ names, ProperName name) :
    (walker.pushed (walker.place names)).Nodup := by
  have directories : (((walker.scan (walker.place names)).filter fun item => item.itemType ==
      .dir).map fun item =>
      (item.fullPath, item.relPath)).Nodup := by
    refine List.Nodup.of_map Prod.snd ?_
    rw [List.map_map]
    exact (nodup_scan proper).sublist (List.filter_sublist.map _)
  simp only [pushed]
  split
  · exact directories
  · exact List.nodup_reverse.mpr directories

theorem nodup_below {depth : Nat} (reached : walker.tree.Reached names stat)
    (directory : isDir stat = true) :
    ((below walker.scan walker.pushed depth (walker.place names)).map
      WalkedItem.relPath).Nodup := by
  induction depth generalizing names stat with
  | zero => simp [below]
  | succ depth ih =>
      have proper := proper_of_reached reached
      rw [below, List.map_append, List.map_flatMap]
      refine List.nodup_append.mpr ⟨nodup_scan proper, List.nodup_flatMap.mpr ⟨?_, ?_⟩, ?_⟩
      · intro child member
        obtain ⟨entry, listed, isDirectory, rfl⟩ := (mem_pushed proper).mp member
        exact ih (.entry reached directory listed) isDirectory
      · refine (nodup_pushed proper).pairwise_of_forall_ne ?_
        intro left leftMember right rightMember different
        obtain ⟨leftEntry, leftListed, leftDirectory, rfl⟩ := (mem_pushed proper).mp leftMember
        obtain ⟨rightEntry, rightListed, rightDirectory, rfl⟩ := (mem_pushed proper).mp rightMember
        -- a common path would begin with the names of both directories
        rw [Function.onFun, List.disjoint_left]
        intro path inLeft inRight
        obtain ⟨leftItem, leftYielded, rfl⟩ := List.mem_map.mp inLeft
        obtain ⟨rightItem, rightYielded, same⟩ := List.mem_map.mp inRight
        obtain ⟨leftMore, -, leftNames, leftPath⟩ :=
          relPath_of_below (.entry reached directory leftListed) leftDirectory leftYielded
        obtain ⟨rightMore, -, rightNames, rightPath⟩ :=
          relPath_of_below (.entry reached directory rightListed) rightDirectory rightYielded
        have paths :=
          relText_injective rightNames leftNames (rightPath.symm.trans (same.trans leftPath))
        rw [List.append_assoc, List.append_assoc] at paths
        have names := (List.cons.inj (List.append_cancel_left paths)).1
        exact different (by rw [names])
      · intro path here other further same
        obtain ⟨item, yielded, rfl⟩ := List.mem_map.mp here
        obtain ⟨entry, listed, itemType, -, rfl⟩ := (mem_scan proper).mp yielded
        obtain ⟨child, member, inChild⟩ := List.mem_flatMap.mp further
        obtain ⟨childEntry, childListed, isDirectory, rfl⟩ := (mem_pushed proper).mp member
        obtain ⟨deeper, deeperYielded, isPath⟩ := List.mem_map.mp inChild
        obtain ⟨more, some, moreNames, morePath⟩ :=
          relPath_of_below (.entry reached directory childListed) isDirectory deeperYielded
        have itemNames := proper_of_reached (.entry reached directory listed)
        have paths :=
          relText_injective itemNames moreNames (same.trans (isPath.symm.trans morePath))
        have lengths := congrArg List.length paths
        have positive := List.length_pos_iff.mpr some
        simp only [List.length_append, List.length_singleton] at lengths
        omega

theorem nodup_walk : (walker.walk.map WalkedItem.relPath).Nodup := by
  rw [walk_eq, List.map_cons, List.nodup_cons]
  refine ⟨?_, nodup_below .root walker.tree.rootDirectory⟩
  intro member
  obtain ⟨item, yielded, isDot⟩ := List.mem_map.mp member
  obtain ⟨more, some, proper, path⟩ := relPath_of_below .root walker.tree.rootDirectory yielded
  rw [List.nil_append] at proper path
  exact relText_ne_dot some proper (path.symm.trans isDot)

/-- Each item is an entry of a directory that is known, or that an earlier item is: its path adds
one name to that of the directory. -/
def ParentsFirst : (PyText → Prop) → List WalkedItem → Prop
  | _, [] => True
  | known, item :: rest =>
      (∃ parent name, known parent ∧ ProperName name ∧ item.relPath = childRel parent name) ∧
        ParentsFirst (fun path => known path ∨ (item.itemType = .dir ∧ path = item.relPath)) rest

theorem ParentsFirst.mono {known wider : PyText → Prop} {items : List WalkedItem}
    (first : ParentsFirst known items)
    (widens : ∀ path, known path → wider path) : ParentsFirst wider items := by
  induction items generalizing known wider with
  | nil => trivial
  | cons item rest ih =>
      obtain ⟨⟨parent, name, isKnown, path⟩, later⟩ := first
      refine ⟨⟨parent, name, widens parent isKnown, path⟩, ih later ?_⟩
      rintro path (earlier | here)
      · exact .inl (widens path earlier)
      · exact .inr here

theorem ParentsFirst.append {known : PyText → Prop} {items others : List WalkedItem}
    (first : ParentsFirst known items)
    (second : ParentsFirst (fun path => known path ∨ ∃ item ∈ items, item.itemType = .dir ∧
      path = item.relPath) others) :
    ParentsFirst known (items ++ others) := by
  induction items generalizing known with
  | nil => exact second.mono (by simp)
  | cons item rest ih =>
      refine ⟨first.1, ih first.2 (second.mono ?_)⟩
      rintro path (earlier | ⟨found, member, isDirectory, here⟩)
      · exact .inl (.inl earlier)
      · rcases List.mem_cons.mp member with rfl | later
        · exact .inl (.inr ⟨isDirectory, here⟩)
        · exact .inr ⟨found, later, isDirectory, here⟩

theorem parentsFirst_of_known {known : PyText → Prop} {items : List WalkedItem}
    (each : ∀ item ∈ items, ∃ parent name, known parent ∧ ProperName name ∧
      item.relPath = childRel parent name) :
    ParentsFirst known items := by
  induction items generalizing known with
  | nil => trivial
  | cons item rest ih =>
      refine ⟨each item List.mem_cons_self, ih fun other member => ?_⟩
      obtain ⟨parent, name, isKnown, path⟩ := each other (List.mem_cons_of_mem item member)
      exact ⟨parent, name, .inl isKnown, path⟩

theorem parentsFirst_flatMap {α : Type} {known : PyText → Prop} {nodes : List α}
    {items : α → List WalkedItem} (each : ∀ node ∈ nodes, ParentsFirst known (items node)) :
    ParentsFirst known (nodes.flatMap items) := by
  induction nodes with
  | nil => trivial
  | cons node rest ih =>
      rw [List.flatMap_cons]
      refine (each node List.mem_cons_self).append ((ih fun other member => each other ?_).mono
        fun path isKnown => .inl isKnown)
      exact List.mem_cons_of_mem node member

theorem parentsFirst_below {depth : Nat} {known : PyText → Prop}
    (reached : walker.tree.Reached names stat)
    (directory : isDir stat = true) (here : known (relText names)) :
    ParentsFirst known (below walker.scan walker.pushed depth (walker.place names)) := by
  induction depth generalizing names stat known with
  | zero => trivial
  | succ depth ih =>
      have proper := proper_of_reached reached
      refine (parentsFirst_of_known ?_).append (parentsFirst_flatMap ?_)
      · intro item yielded
        obtain ⟨entry, listed, itemType, -, rfl⟩ := (mem_scan proper).mp yielded
        exact ⟨relText names, entry.name, here, walker.tree.proper _ entry listed,
          relText_append proper entry.name⟩
      · intro child member
        obtain ⟨entry, listed, isDirectory, rfl⟩ := (mem_pushed proper).mp member
        refine ih (.entry reached directory listed) isDirectory (.inr
          ⟨walker.itemAt (names ++ [entry.name]) entry.stat .dir, ?_, rfl, rfl⟩)
        exact (mem_scan proper).mpr ⟨entry, listed, .dir, itemType_eq_dir_iff.mpr isDirectory, rfl⟩

theorem ParentsFirst.split {known : PyText → Prop} {before later : List WalkedItem}
    (first : ParentsFirst known (before ++ item :: later)) :
    ∃ parent name, ProperName name ∧ item.relPath = childRel parent name ∧
      (known parent ∨ ∃ directory ∈ before, directory.itemType = .dir ∧
        parent = directory.relPath) := by
  induction before generalizing known with
  | nil =>
      obtain ⟨⟨parent, name, isKnown, proper, path⟩, -⟩ := first
      exact ⟨parent, name, proper, path, .inl isKnown⟩
  | cons earlier rest ih =>
      obtain ⟨parent, name, proper, path, (isKnown | ⟨isDirectory, same⟩) |
        ⟨directory, member, isDirectory, same⟩⟩ :=
        ih first.2
      · exact ⟨parent, name, proper, path, .inl isKnown⟩
      · exact ⟨parent, name, proper, path, .inr ⟨earlier, List.mem_cons_self, isDirectory, same⟩⟩
      · exact ⟨parent, name, proper, path,
          .inr ⟨directory, List.mem_cons_of_mem earlier member, isDirectory, same⟩⟩

/-- The directory of every item but the root comes before it. -/
theorem parent_before {before later : List WalkedItem}
    (yields : walker.walk = before ++ item :: later) :
    item = walker.rootItem ∨ ∃ directory ∈ before, directory.itemType = .dir ∧
      ∃ name, ProperName name ∧ item.relPath = childRel directory.relPath name := by
  rw [walk_eq] at yields
  cases before with
  | nil =>
      cases yields
      exact .inl rfl
  | cons first rest =>
      rw [List.cons_append, List.cons.injEq] at yields
      obtain ⟨rfl, yields⟩ := yields
      have first : ParentsFirst (fun path => path = dotPath) (rest ++ item :: later) := by
        rw [← yields]
        exact parentsFirst_below .root walker.tree.rootDirectory rfl
      obtain ⟨parent, name, proper, path, isRoot | ⟨directory, member, isDirectory, same⟩⟩ :=
        first.split
      · exact .inr ⟨walker.rootItem, List.mem_cons_self, rfl, name, proper,
          by rw [path, isRoot]; rfl⟩
      · exact .inr ⟨directory, List.mem_cons_of_mem _ member, isDirectory, name,
          proper, by rw [path, same]⟩

/-- The order of `scandir` decides only the order of the items. -/
theorem walk_perm {other : TreeWalker} (sameTree : other.tree = walker.tree) :
    other.walk.Perm walker.walk := by
  refine (List.perm_ext_iff_of_nodup (List.Nodup.of_map _ nodup_walk)
    (List.Nodup.of_map _ nodup_walk)).mpr fun item => ?_
  have placed : ∀ names stat itemType, other.itemAt names stat itemType =
      walker.itemAt names stat itemType := by
    intro names stat itemType
    rw [itemAt, itemAt, sameTree]
  simp only [mem_walk_iff, sameTree, placed]

end TreeWalker

end Stopan.Scanning
