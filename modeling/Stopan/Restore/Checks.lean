import Stopan.Metadata.Recipes

/-!
The checks that `restore_snapshot` makes on a file item before it writes anything
(`stopan/restore/restorer.py`).
-/

namespace Stopan.Restore

open Stopan.Lib Stopan.Common Stopan.Metadata

/-- The recipe of a file item with its chunk count and total size. -/
def checkFileItem (db : MetadataDB) (item : SnapshotItemRow) :
    Except StopanError (Nat × Nat × Nat) :=
  match item.recipeId with
  | none => .error (.restoreData s!"Archivo {String.ofList item.path} sin receta asociada")
  | some recipeId => do
      let summary ← db.getRecipeRestoreSummary recipeId
      let _ ← ensure (item.size == summary.2)
        (.restoreData
          s!"Tamaño inconsistente para {String.ofList item.path}: item={item.size} receta={summary.2}")
      return (recipeId, summary.1, summary.2)

theorem checkFileItem_ok {db : MetadataDB} {item : SnapshotItemRow}
    {recipeId : Nat} {row : RecipeRow}
    (recipe : item.recipeId = some recipeId) (stored : db.recipes.get? recipeId = some row)
    (consistent : row.chunkCount = 0 ↔ row.totalSize = 0) (size : item.size = row.totalSize) :
    checkFileItem db item = .ok (recipeId, row.chunkCount, row.totalSize) := by
  have agree : ((row.chunkCount == 0) == (row.totalSize == 0)) = true := by
    cases count : row.chunkCount with
    | zero => simp [consistent.mp count]
    | succ rest =>
        have nonZero : row.totalSize ≠ 0 := fun zero => by simp [consistent.mpr zero] at count
        simp [nonZero]
  simp [checkFileItem, recipe, MetadataDB.getRecipeRestoreSummary, stored, ensure, agree,
    size, bind, Except.bind, pure, Except.pure]

end Stopan.Restore
