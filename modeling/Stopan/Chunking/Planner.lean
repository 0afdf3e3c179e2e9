import Stopan.Metadata.Recipes

/-!
Recipe hashes, the ephemeral indexes that the backup workers share, and the planner's settings
(`stopan/chunking`).
-/

namespace Stopan.Chunking

open Stopan.Lib Stopan.Common Stopan.Metadata

/-- `int.to_bytes(width, "big")`. -/
def toBytesBig (width value : Nat) : Bytes :=
  (List.range width).map fun index => UInt8.ofNat (value / 256 ^ (width - 1 - index))

def hexValue (char : Char) : Option Nat :=
  let position := hexLower.idxOf char.toLower
  if position < 16 then some position else none

/-- `bytes.fromhex` on a text without separators. -/
def fromHex : Text → Option Bytes
  | [] => some []
  | [_] => none
  | high :: low :: rest => do
      let upper ← hexValue high
      let lower ← hexValue low
      let tail ← fromHex rest
      return UInt8.ofNat (16 * upper + lower) :: tail

def recipeHashDomain : Bytes := encodeUtf8 "stopan.recipe.v1".toList ++ [0]

/-- What `compute_recipe_hash` feeds to the digest for one entry. -/
def recipeChunkBytes (chunk : RecipeChunk) : Except StopanError Bytes := do
  let _ ← ensure (decide (chunk.order < 2 ^ 32)) (.overflow "int too big to convert")
  match fromHex chunk.chunkHash with
  | none => .error (.value "non-hexadecimal number found in fromhex() arg")
  | some raw =>
      let _ ← ensure (decide (chunk.chunkSize < 2 ^ 64)) (.overflow "int too big to convert")
      return toBytesBig 4 chunk.order ++ raw ++ toBytesBig 8 chunk.chunkSize

def computeRecipeHash (blake3 : Blake3) (chunks : List RecipeChunk) : Except StopanError Text := do
  let parts ← chunks.mapM recipeChunkBytes
  return blake3HexDigest blake3 (recipeHashDomain ++ parts.flatten)

def maxIndexItems : Nat := 200000

structure FastBoolCache where
  maxItems : Nat
  data : Dict Text Bool
  writeOps : Nat

namespace FastBoolCache

def create (maxItems : Nat := maxIndexItems) : FastBoolCache where
  maxItems := max maxItems 1
  data := .empty
  writeOps := 0

def get (cache : FastBoolCache) (key : Text) : Option Bool := cache.data.get? key

/-- Every 1024 writes the cache checks its size and, when it is over the limit, forgets
everything. -/
def set (cache : FastBoolCache) (key : Text) (value : Bool) : FastBoolCache :=
  if (cache.writeOps + 1) % 1024 = 0 ∧ cache.maxItems < (cache.data.set key value).length then
    { cache with data := .empty, writeOps := 0 }
  else { cache with data := cache.data.set key value, writeOps := cache.writeOps + 1 }

@[simp] theorem get_create (maxItems : Nat) (key : Text) : (create maxItems).get key = none := rfl

theorem get_set {cache : FastBoolCache} {key other : Text} {value answer : Bool}
    (cached : (cache.set key value).get other = some answer) :
    other = key ∧ answer = value ∨ cache.get other = some answer := by
  unfold set at cached
  split at cached
  · cases cached
  · rw [get, Dict.get?_set] at cached
    split at cached
    · rename_i same
      cases cached
      exact .inl ⟨same, rfl⟩
    · exact .inr cached

end FastBoolCache

structure ChunkIndex where
  localExists : FastBoolCache
  remotelyProtected : FastBoolCache

def ChunkIndex.create : ChunkIndex where
  localExists := .create
  remotelyProtected := .create

inductive ChunkDecision where
  | process
  | skipLocal
  | skipSynced
  deriving DecidableEq, Repr

/-- The arguments with which a worker builds its planner. -/
structure PlannerSettings where
  fastPathEnabled : Bool
  safeMode : Bool
  allowRemoteProtectedSkip : Bool
  desiredRf : Nat
  placementEpoch : Option Text
  deriving DecidableEq, Repr

/-- Whether `decide` looks for a reason to skip at all. -/
def PlannerSettings.skips (settings : PlannerSettings) : Bool :=
  !settings.safeMode && settings.fastPathEnabled

end Stopan.Chunking
