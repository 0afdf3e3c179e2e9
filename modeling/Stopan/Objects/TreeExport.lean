import Stopan.Objects.Models
import Stopan.Scanning.TreeWalker

/-!
The tree objects of a snapshot, built from the rows of its items
(`stopan/metadata/objects/exchange/exporter.py`).
-/

namespace Stopan.Objects

open Stopan.Lib Stopan.Common Stopan.Metadata Stopan.Scanning

/-- The nodes below the root of `_TreeNode`, each under its path: the metadata of the directories,
as far as they have been met, and the files. -/
structure ExportTree where
  rootMetadata : Option SnapshotItemRow
  dirs : Dict (List Text) (Option SnapshotItemRow)
  files : Dict (List Text) (SnapshotItemRow × ObjectRef)

def ExportTree.empty : ExportTree where
  rootMetadata := none
  dirs := .empty
  files := .empty

inductive ExportFailure where
  | missingMetadata (childPath : Text)
  | object (error : ObjectsError)
  /-- The recursion has gone deeper than it was allowed to; see `emitTree_finishes`. -/
  | tooDeep
  deriving DecidableEq, Repr

def ExportFailure.message : ExportFailure → String
  | .missingMetadata childPath =>
      s!"missing directory metadata for '{String.ofList childPath}'; refusing to invent filesystem details"
  | .object error => error.message
  | .tooDeep => "maximum recursion depth exceeded"

def object {α : Type} : Checked α → Except ExportFailure α
  | .ok value => .ok value
  | .error error => .error (.object error)

def isPathComponent (part : Text) : Bool :=
  !(part.isEmpty || decide (part = ['.']) || decide (part = ['.', '.']) || part.contains '/')

/-- `_ensure_dir_node` from the node at `above` on. -/
def ensureDirNode (tree : ExportTree) (above : List Text) : List Text → Checked ExportTree
  | [] => .ok tree
  | part :: rest => do
      ensure (isPathComponent part) (.object s!"invalid path component: '{String.ofList part}'")
      let path := above ++ [part]
      ensureDirNode { tree with dirs := if tree.dirs.contains path then tree.dirs
                                  else tree.dirs.set path none } path rest

def pathParts (path : Text) : List Text := (path.splitOn '/').filter fun part => !part.isEmpty

/-- What the loop of `_export_snapshot_tree` does with a row; `exportFile` stores the file object of
a row and its recipe. -/
def addRow (exportFile : SnapshotItemRow → Nat → Checked ObjectRef)
    (snapshotId : Nat) (tree : ExportTree) (row : SnapshotItemRow) : Checked ExportTree :=
  if row.path = [] ∨ row.path = ['.'] then
    match row.itemType with
    | .dir => .ok { tree with rootMetadata := some row }
    | _ => .error (.object s!"invalid root snapshot item type for snapshot {snapshotId}")
  else
    let parts := pathParts row.path
    if parts = [] then
      .error (.object s!"invalid empty snapshot item path in snapshot {snapshotId}")
    else
      match row.itemType with
      | .dir => do
          let tree ← ensureDirNode tree [] parts
          return { tree with dirs := tree.dirs.set parts (some row) }
      | .file => do
          let tree ← ensureDirNode tree [] parts.dropLast
          match row.recipeId with
          | none =>
              .error (.object
                s!"COMPLETE snapshot {snapshotId} has file without recipe: '{String.ofList row.path}'")
          | some recipeId => do
              let fileRef ← exportFile row recipeId
              ensure (!tree.files.contains parts)
                (.object
                  s!"duplicate file path in snapshot {snapshotId}: '{String.ofList row.path}'")
              return { tree with files := tree.files.set parts (row, fileRef) }
      | .other _ => .error (.object s!"unsupported snapshot item type in snapshot {snapshotId}")

def treeEntryFromRow (name : Text) (row : SnapshotItemRow) (ref : ObjectRef) : Checked TreeEntry :=
  let itemType := match row.itemType with
    | .file => "file".toList
    | .dir => "dir".toList
    | .other other => other
  TreeEntry.make (.str name) (.str itemType) (.int row.size) (.int row.mode)
    (.float row.mtime) (.int row.mtimeNs)
    (.int row.uid) (.int row.gid) ref

/-- The nodes directly below a path, with their names, sorted by name. -/
def childrenOf {ν : Type} (nodes : Dict (List Text) ν) (path : List Text) : List (Text × ν) :=
  (nodes.entries.filterMap fun (key, value) =>
    if key.dropLast = path then key.getLast?.map fun name => (name, value) else none).mergeSort
      fun left right => decide (left.1 ≤ right.1)

/-- `_emit_tree`, at most `depth` levels down; `put` stores a tree object. -/
def emitTree (put : TreeObject → Checked ObjectRef) (tree : ExportTree) : Nat → List Text →
    Except ExportFailure ObjectRef
  | 0, _ => .error .tooDeep
  | depth + 1, path => do
      let directories ← (childrenOf tree.dirs path).mapM fun (name, metadata) =>
        match metadata with
        | none => .error (.missingMetadata (joinSep '/' (path ++ [name])))
        | some row => do
            let childRef ← emitTree put tree depth (path ++ [name])
            object (treeEntryFromRow name row childRef)
      let files ← (childrenOf tree.files path).mapM fun (name, row, fileRef) =>
        object (treeEntryFromRow name row fileRef)
      let entries := (directories ++ files).mergeSort fun left right => decide
        (left.name ≤ right.name)
      object (do put (← TreeObject.make entries))

/-- Nodes lie no deeper than their paths are long. -/
def ExportTree.depth (tree : ExportTree) : Nat := (tree.dirs.keys.map List.length).foldr max 0

def exportSnapshotTree (exportFile : SnapshotItemRow → Nat → Checked ObjectRef)
    (put : TreeObject → Checked ObjectRef)
    (snapshotId : Nat) (rows : List SnapshotItemRow) : Except ExportFailure ObjectRef := do
  let tree ← object (rows.foldlM (addRow exportFile snapshotId) .empty)
  emitTree put tree (tree.depth + 1) []

variable {exportFile : SnapshotItemRow → Nat → Checked ObjectRef}
  {put : TreeObject → Checked ObjectRef}
variable {tree after : ExportTree} {row : SnapshotItemRow} {snapshotId : Nat}
  {path above parts : List Text}

theorem get?_of_mem_childrenOf {ν : Type} {nodes : Dict (List Text) ν} {name : Text} {value : ν}
    (member : (name, value) ∈ childrenOf nodes path) :
    nodes.get? (path ++ [name]) = some value := by
  rw [childrenOf, (List.mergeSort_perm _ _).mem_iff, List.mem_filterMap] at member
  obtain ⟨⟨key, found⟩, entry, child⟩ := member
  dsimp only at child
  split at child
  · rename_i below
    obtain ⟨last, ends, equal⟩ := Option.map_eq_some_iff.mp child
    cases equal
    have whole : path ++ [name] = key := by
      rw [← below]
      exact List.dropLast_append_getLast? name ends
    rw [whole]
    exact Dict.get?_eq_some_iff.mpr entry
  · cases child

theorem object_error {α : Type} {result : Checked α} {failure : ExportFailure}
    (failed : object result = .error failure) :
    ∃ error, failure = .object error := by
  cases result with
  | ok value => cases failed
  | error error =>
      cases failed
      exact ⟨error, rfl⟩

/-- Where every directory has its metadata, only the object layer can fail. -/
theorem emitTree_error {depth : Nat} {failure : ExportFailure}
    (complete : ∀ key metadata, tree.dirs.get? key = some metadata → metadata ≠ none)
    (deep : ∀ key ∈ tree.dirs.keys, key.length < path.length + depth) (enough : 0 < depth)
    (failed : emitTree put tree depth path = .error failure) :
    ∃ error, failure = .object error := by
  induction depth generalizing path with
  | zero => omega
  | succ depth ih =>
      rw [emitTree] at failed
      rcases bind_eq_error_iff.mp failed with inDirectories | ⟨directories, -, rest⟩
      · obtain ⟨⟨name, metadata⟩, member, raised⟩ := exists_of_mapM_error inDirectories
        have located := get?_of_mem_childrenOf member
        cases metadata with
        | none => exact absurd rfl (complete _ _ located)
        | some row =>
            have key := deep _ ((Dict.mem_keys_iff ..).mpr ⟨_, located⟩)
            rw [List.length_append, List.length_singleton] at key
            rcases bind_eq_error_iff.mp raised with further | ⟨childRef, -, entry⟩
            · refine ih (fun other member => ?_) (by omega) further
              have bound := deep other member
              rw [List.length_append, List.length_singleton]
              omega
            · exact object_error entry
      rcases bind_eq_error_iff.mp rest with inFiles | ⟨files, -, stored⟩
      · obtain ⟨⟨name, fileRow, fileRef⟩, -, raised⟩ := exists_of_mapM_error inFiles
        exact object_error raised
      · exact object_error stored

/-- The nodes that are made sure of are those on the way; what is known of the others stays. -/
theorem ensureDirNode_ok (ensured : ensureDirNode tree above parts = .ok after) :
    (∀ key metadata, tree.dirs.get? key = some metadata → after.dirs.get? key = some metadata) ∧
    ∀ key ∈ after.dirs.keys, key ∈ tree.dirs.keys ∨ ∃ shown, shown ≠ [] ∧ shown <+: parts ∧
      key = above ++ shown := by
  induction parts generalizing tree above with
  | nil =>
      cases ensured
      exact ⟨fun _ _ found => found, fun _ member => .inl member⟩
  | cons part rest ih =>
      obtain ⟨-, continued⟩ := ensure_bind_eq_ok_iff.mp ensured
      obtain ⟨kept, added⟩ := ih continued
      refine ⟨fun key metadata found => kept key metadata ?_, fun key member => ?_⟩
      · dsimp only
        split
        · exact found
        · rename_i absent
          rw [Dict.get?_set, if_neg ?_]
          · exact found
          · rintro rfl
            exact absent ((Dict.contains_iff ..).mpr ((Dict.mem_keys_iff ..).mpr ⟨metadata, found⟩))
      · rcases added key member with earlier | ⟨shown, some, below, rfl⟩
        · dsimp only at earlier
          split at earlier
          · exact .inl earlier
          · rcases (Dict.mem_keys_set ..).mp earlier with rfl | old
            · exact .inr ⟨[part], by simp, by simp, rfl⟩
            · exact .inl old
        · exact .inr ⟨part :: shown, by simp, List.cons_prefix_cons.mpr ⟨rfl, below⟩, by simp⟩

/-- The nodes come from the rows, and each directory row has left its metadata. -/
structure BuiltFrom (tree : ExportTree) (rows : List SnapshotItemRow) : Prop where
  nodes : ∀ key ∈ tree.dirs.keys, ∃ row ∈ rows, row.path ≠ ['.'] ∧ key ≠ [] ∧
    key <+: pathParts row.path ∧ (row.itemType = .dir ∨ key ≠ pathParts row.path)
  known : ∀ row ∈ rows, row.itemType = .dir → row.path ≠ [] → row.path ≠ ['.'] →
    ∃ found, tree.dirs.get? (pathParts row.path) = some (some found)

theorem BuiltFrom.addRow {rows : List SnapshotItemRow} (built : BuiltFrom tree rows)
    (added : addRow exportFile snapshotId tree row = .ok after) :
    BuiltFrom after (rows ++ [row]) := by
  have earlierNodes : ∀ key ∈ tree.dirs.keys, ∃ found ∈ rows ++ [row], found.path ≠ ['.'] ∧
      key ≠ [] ∧ key <+: pathParts found.path ∧
        (found.itemType = .dir ∨ key ≠ pathParts found.path) := by
    intro key member
    obtain ⟨found, inRows, rest⟩ := built.nodes key member
    exact ⟨found, List.mem_append_left _ inRows, rest⟩
  unfold Objects.addRow at added
  split at added
  · rename_i root
    split at added
    · cases added
      refine ⟨earlierNodes, fun other member isDirectory some notDot => ?_⟩
      rcases List.mem_append.mp member with earlier | last
      · exact built.known other earlier isDirectory some notDot
      · rw [List.mem_singleton.mp last] at some notDot
        rcases root with empty | dot
        · exact absurd empty some
        · exact absurd dot notDot
    · cases added
  rename_i notRoot
  have notDot : row.path ≠ ['.'] := fun dot => notRoot (.inr dot)
  dsimp only at added
  split at added
  · cases added
  rename_i someParts
  split at added
  · rename_i isDir
    obtain ⟨ensured, made, returned⟩ := bind_eq_ok_iff.mp added
    cases pure_eq_ok_iff.mp returned
    obtain ⟨kept, nodes⟩ := ensureDirNode_ok made
    constructor
    · intro key member
      rcases (Dict.mem_keys_set ..).mp member with rfl | old
      · exact ⟨row, by simp, notDot, someParts, List.prefix_rfl, .inl isDir⟩
      · rcases nodes key old with earlier | ⟨shown, some, below, rfl⟩
        · exact earlierNodes key earlier
        · exact ⟨row, by simp, notDot, some, below, .inl isDir⟩
    · intro other member isDirectory some notDot
      dsimp only
      rw [Dict.get?_set]
      split
      · exact ⟨row, rfl⟩
      · rename_i different
        rcases List.mem_append.mp member with earlier | last
        · obtain ⟨found, located⟩ := built.known other earlier isDirectory some notDot
          exact ⟨found, kept _ _ located⟩
        · rw [List.mem_singleton.mp last] at different
          exact absurd rfl different
  · rename_i isFile
    obtain ⟨ensured, made, rest⟩ := bind_eq_ok_iff.mp added
    obtain ⟨kept, nodes⟩ := ensureDirNode_ok made
    have dirs : after.dirs = ensured.dirs := by
      split at rest
      · cases rest
      obtain ⟨fileRef, -, rest⟩ := bind_eq_ok_iff.mp rest
      obtain ⟨-, returned⟩ := ensure_bind_eq_ok_iff.mp rest
      cases pure_eq_ok_iff.mp returned
      rfl
    constructor
    · intro key member
      rw [dirs] at member
      rcases nodes key member with earlier | ⟨shown, some, below, rfl⟩
      · exact earlierNodes key earlier
      · refine ⟨row, by simp, notDot, some, below.trans (List.dropLast_prefix _), .inr ?_⟩
        intro whole
        have bound := below.length_le
        have positive := List.length_pos_iff.mpr someParts
        rw [List.length_dropLast] at bound
        rw [← whole] at positive bound
        omega
    · intro other member isDirectory some notDot
      rw [dirs]
      rcases List.mem_append.mp member with earlier | last
      · obtain ⟨found, located⟩ := built.known other earlier isDirectory some notDot
        exact ⟨found, kept _ _ located⟩
      · rw [List.mem_singleton.mp last, isFile] at isDirectory
        cases isDirectory
  · cases added

theorem builtFrom_foldlM {rows done : List SnapshotItemRow} (built : BuiltFrom tree done)
    (folded : rows.foldlM (addRow exportFile snapshotId) tree = .ok after) :
    BuiltFrom after (done ++ rows) := by
  induction rows generalizing tree done with
  | nil =>
      cases folded
      simpa using built
  | cons row rest ih =>
      rw [List.foldlM_cons] at folded
      obtain ⟨next, added, later⟩ := bind_eq_ok_iff.mp folded
      simpa using ih (built.addRow added) later

theorem length_le_depth {key : List Text} (member : key ∈ tree.dirs.keys) :
    key.length ≤ tree.depth := by
  have bounded : ∀ {lengths : List Nat} {length : Nat}, length ∈ lengths →
      length ≤ lengths.foldr max 0 := by
    intro lengths length listed
    induction lengths with
    | nil => cases listed
    | cons first rest ih =>
        rw [List.foldr_cons]
        rcases List.mem_cons.mp listed with rfl | later
        · exact Nat.le_max_left ..
        · exact (ih later).trans (Nat.le_max_right ..)
  exact bounded (List.mem_map_of_mem member)

variable {walker : TreeWalker} {rows : List SnapshotItemRow} {names : List PyText}
  {failure : ExportFailure}

/-- The items of a snapshot are those that a walk has yielded, in any order. -/
def RowsOfWalk (rows : List SnapshotItemRow) (walker : TreeWalker) : Prop :=
  (rows.map fun row => (toPyText row.path, row.itemType)).Perm
    (walker.walk.map fun item => (item.relPath, item.itemType))

instance : Decidable (RowsOfWalk rows walker) := inferInstanceAs (Decidable (List.Perm _ _))

theorem toPyText_injective : Function.Injective toPyText :=
  List.map_injective_iff.mpr fun _ _ same => PyChar.scalar.inj same

theorem pathParts_of_relText {text : Text} (some : names ≠ [])
    (proper : ∀ name ∈ names, ProperName name)
    (same : toPyText text = TreeWalker.relText names) : (pathParts text).map toPyText = names := by
  have parts : (text.splitOn '/').map toPyText = names := by
    have split : (toPyText text).splitOn slash = (text.splitOn '/').map toPyText :=
      splitOn_map fun _ _ equal => PyChar.scalar.inj equal
    rw [TreeWalker.relText, if_neg some] at same
    rw [← splitOn_joinSep some fun name member => (proper name member).2.2.2, ← same]
    exact split.symm
  have whole : pathParts text = text.splitOn '/' := by
    refine List.filter_eq_self.mpr fun part member => ?_
    have listed : toPyText part ∈ names := by
      rw [← parts]
      exact List.mem_map_of_mem member
    have nonempty := (proper _ listed).1
    cases part with
    | nil => exact absurd rfl nonempty
    | cons char chars => rfl
  rw [whole, parts]

theorem row_of_reached {stat : StatInfo} {itemType : ItemType} (ofWalk : RowsOfWalk rows walker)
    (reached : walker.tree.Reached names stat) (typed : TreeWalker.itemType? stat = some itemType) :
    ∃ row ∈ rows, toPyText row.path = TreeWalker.relText names ∧ row.itemType = itemType := by
  have yielded := TreeWalker.mem_walk_iff.mpr ⟨names, stat, itemType, reached, typed, rfl⟩
  obtain ⟨row, member, same⟩ := List.mem_map.mp (ofWalk.mem_iff.mpr (List.mem_map_of_mem yielded))
  obtain ⟨path, isType⟩ := Prod.mk.inj same
  exact ⟨row, member, path, isType⟩

theorem reached_of_row (ofWalk : RowsOfWalk rows walker) (member : row ∈ rows) :
    ∃ names stat, walker.tree.Reached names stat ∧ toPyText row.path = TreeWalker.relText names ∧
      TreeWalker.itemType? stat = some row.itemType := by
  obtain ⟨item, yielded, same⟩ := List.mem_map.mp (ofWalk.mem_iff.mp (List.mem_map_of_mem member))
  obtain ⟨names, stat, itemType, reached, typed, rfl⟩ := TreeWalker.mem_walk_iff.mp yielded
  obtain ⟨path, isType⟩ := Prod.mk.inj same
  exact ⟨names, stat, reached, path.symm, by rw [← isType]; exact typed⟩

/-- Every directory that a row lies in has a row of its own. -/
theorem metadata_of_builtFrom {key : List Text} {metadata : Option SnapshotItemRow}
    (ofWalk : RowsOfWalk rows walker) (built : BuiltFrom tree rows)
    (located : tree.dirs.get? key = some metadata) : metadata ≠ none := by
  obtain ⟨row, member, notDot, someKey, below, asDirectory⟩ :=
    built.nodes key ((Dict.mem_keys_iff ..).mpr ⟨_, located⟩)
  obtain ⟨names, stat, reached, path, typed⟩ := reached_of_row ofWalk member
  have proper := TreeWalker.proper_of_reached reached
  have some : names ≠ [] := by
    rintro rfl
    exact notDot (toPyText_injective path)
  have parts := pathParts_of_relText some proper path
  have onTheWay : key.map toPyText <+: names := by
    rw [← parts]
    exact List.IsPrefix.map toPyText below
  obtain ⟨more, whole⟩ := onTheWay
  have reachedKey : ∃ found, walker.tree.Reached (key.map toPyText) found ∧ isDir found = true := by
    by_cases last : more = []
    · rw [last, List.append_nil, ← parts] at whole
      have same := List.map_injective_iff.mpr toPyText_injective whole
      rcases asDirectory with isDirectory | different
      · rw [isDirectory] at typed
        rw [same, parts]
        exact ⟨stat, reached, TreeWalker.itemType_eq_dir_iff.mp typed⟩
      · exact absurd same different
    · rw [← whole] at reached
      exact reached.above last
  obtain ⟨found, reachedKey, isDirectory⟩ := reachedKey
  obtain ⟨own, ownMember, ownPath, ownType⟩ :=
    row_of_reached ofWalk reachedKey (TreeWalker.itemType_eq_dir_iff.mpr isDirectory)
  have someNames : key.map toPyText ≠ [] := by simpa using someKey
  have properNames := TreeWalker.proper_of_reached reachedKey
  have isPath : pathParts own.path = key :=
    List.map_injective_iff.mpr toPyText_injective
      (pathParts_of_relText someNames properNames ownPath)
  have ownNotDot : own.path ≠ ['.'] := by
    intro dot
    rw [dot] at ownPath
    exact TreeWalker.relText_ne_dot someNames properNames ownPath.symm
  have ownSome : own.path ≠ [] := by
    rintro empty
    rw [empty] at isPath
    exact someKey isPath.symm
  obtain ⟨row, known⟩ := built.known own ownMember ownType ownSome ownNotDot
  rw [isPath, located] at known
  cases known
  simp

theorem exportSnapshotTree_error (ofWalk : RowsOfWalk rows walker)
    (failed : exportSnapshotTree exportFile put snapshotId rows = .error failure) :
    ∃ error, failure = .object error := by
  rw [exportSnapshotTree] at failed
  rcases bind_eq_error_iff.mp failed with inRows | ⟨tree, folded, emitted⟩
  · exact object_error inRows
  have built : BuiltFrom tree rows := by
    cases fold : rows.foldlM (addRow exportFile snapshotId) .empty with
    | error error =>
        rw [fold] at folded
        cases folded
    | ok other =>
        rw [fold] at folded
        cases folded
        have empty : BuiltFrom .empty [] :=
          ⟨by simp [ExportTree.empty, Dict.keys, Dict.empty], by simp⟩
        exact builtFrom_foldlM empty fold
  refine emitTree_error (fun key metadata located => metadata_of_builtFrom ofWalk built located) ?_
    (by omega) emitted
  intro key member
  have bound := length_le_depth member
  rw [List.length_nil]
  omega

/-- A walk yields each directory and each regular file of the tree once, parents first, in whatever
order `scandir` gives the entries; a tree of these items is exported without a directory whose
metadata is missing. -/
theorem walk_coversTree {other : TreeWalker} (sameTree : other.tree = walker.tree)
    (ofWalk : RowsOfWalk rows walker) :
    (∀ item, item ∈ walker.walk ↔ ∃ names stat itemType, walker.tree.Reached names stat ∧
      TreeWalker.itemType? stat = some itemType ∧ item = walker.itemAt names stat itemType) ∧
    (walker.walk.map WalkedItem.relPath).Nodup ∧
    (∀ before item later, walker.walk = before ++ item :: later → item = walker.rootItem ∨
      ∃ directory ∈ before, directory.itemType = .dir ∧
        ∃ name, ProperName name ∧ item.relPath = TreeWalker.childRel directory.relPath name) ∧
    other.walk.Perm walker.walk ∧
    ∀ failure, exportSnapshotTree exportFile put snapshotId rows = .error failure →
      ∃ error, failure = .object error := by
  refine ⟨fun item => TreeWalker.mem_walk_iff, TreeWalker.nodup_walk, ?_,
    TreeWalker.walk_perm sameTree, ?_⟩
  · intro before item later yields
    exact TreeWalker.parent_before yields
  · intro failure failed
    exact exportSnapshotTree_error ofWalk failed

def smallStat (mode : Nat) : StatInfo where
  size := 0
  mode := mode
  mtime := ⟨0⟩
  mtimeNs := 0
  ctimeNs := 0
  uid := 0
  gid := 0

/-- A directory `d` with a file and a link in it. -/
def smallListing : Listing where
  rootPath := [slash, .scalar 'r']
  rootStat := smallStat 16877
  scandir := fun path =>
    if path = [slash, .scalar 'r'] then [⟨[.scalar 'd'], smallStat 16877⟩]
    else if path = [slash, .scalar 'r', slash, .scalar 'd'] then
      [⟨[.scalar 'f'], smallStat 33188⟩, ⟨[.scalar 'l'], smallStat 41471⟩]
    else []

theorem smallListing_finite {stat : StatInfo} (reached : smallListing.Reached names stat) :
    (names = [] ∧ stat = smallStat 16877) ∨ (names = [[.scalar 'd']] ∧ stat = smallStat 16877) ∨
      (names.length = 2 ∧ isDir stat = false) := by
  induction reached with
  | root => exact .inl ⟨rfl, rfl⟩
  | entry above directory listed ih =>
      rcases ih with ⟨rfl, rfl⟩ | ⟨rfl, rfl⟩ | ⟨-, file⟩
      · have first : _ ∈ [DirEntry.mk [.scalar 'd'] (smallStat 16877)] := listed
        rw [List.mem_singleton.mp first]
        exact .inr (.inl ⟨rfl, rfl⟩)
      · have second : _ ∈ [DirEntry.mk [.scalar 'f'] (smallStat 33188),
          ⟨[.scalar 'l'], smallStat 41471⟩] := listed
        rcases List.mem_cons.mp second with rfl | last
        · exact .inr (.inr ⟨rfl, rfl⟩)
        · rw [List.mem_singleton.mp last]
          exact .inr (.inr ⟨rfl, rfl⟩)
      · rw [file] at directory
        cases directory

def smallTree : FileTree where
  toListing := smallListing
  height := 2
  rootDirectory := rfl
  proper := by
    intro path entry listed
    simp only [smallListing] at listed
    split at listed
    · rw [List.mem_singleton.mp listed]
      simp [ProperName, dotPath, slash]
    · split at listed
      · rcases List.mem_cons.mp listed with rfl | last
        · simp [ProperName, dotPath, slash]
        · rw [List.mem_singleton.mp last]
          simp [ProperName, dotPath, slash]
      · cases listed
  distinct := by
    intro path
    simp only [smallListing]
    split
    · simp
    · split <;> simp
  finite := by
    intro names stat reached
    rcases smallListing_finite reached with ⟨rfl, -⟩ | ⟨rfl, -⟩ | ⟨two, -⟩
    · simp
    · simp
    · rw [two]

def smallRow (path : Text) (itemType : ItemType) : SnapshotItemRow where
  snapshotId := 1
  path := path
  itemType := itemType
  size := 0
  mode := 0
  mtime := ⟨0⟩
  mtimeNs := 0
  ctimeNs := none
  uid := 0
  gid := 0
  recipeId := none

def smallWalker (enumeration : Enumeration) : TreeWalker where
  tree := smallTree
  enumeration := enumeration
  deterministic := false

/-- Both orders of `scandir` give the same items, and the directory of the file comes before it. -/
theorem smallWalk_covered :
    (smallWalker ⟨fun _ entries => entries.reverse,
      fun _ entries => entries.reverse_perm⟩).walk.Perm
      (smallWalker ⟨fun _ entries => entries, fun _ entries => .refl entries⟩).walk ∧
    ∃ before item later,
      (smallWalker ⟨fun _ entries => entries, fun _ entries => .refl entries⟩).walk =
        before ++ item :: later ∧
      item.relPath = [.scalar 'd', slash, .scalar 'f'] ∧
      ∃ directory ∈ before, directory.itemType = .dir ∧
        ∃ name, ProperName name ∧ item.relPath = TreeWalker.childRel directory.relPath name := by
  obtain ⟨-, -, parents, permuted, -⟩ := @walk_coversTree
    (fun row _ => ObjectRef.make .file (.str row.path)) (fun _ => ObjectRef.make .tree (.str []))
    1 (smallWalker ⟨fun _ entries => entries, fun _ entries => .refl entries⟩)
    [smallRow ['.'] .dir, smallRow ['d'] .dir, smallRow ['d', '/', 'f'] .file]
    (smallWalker ⟨fun _ entries => entries.reverse, fun _ entries => entries.reverse_perm⟩)
      rfl (by decide)
  have yields : ∃ root directory file,
      (smallWalker ⟨fun _ entries => entries, fun _ entries => .refl entries⟩).walk =
        [root, directory] ++ file :: [] ∧
        file.relPath = [.scalar 'd', slash, .scalar 'f'] := ⟨_, _, _, rfl, rfl⟩
  obtain ⟨root, directory, file, yields, path⟩ := yields
  refine ⟨permuted, [root, directory], file, [], yields, path, ?_⟩
  rcases parents _ _ _ yields with isRoot | parent
  · rw [isRoot] at path
    cases path
  · exact parent

end Stopan.Objects
