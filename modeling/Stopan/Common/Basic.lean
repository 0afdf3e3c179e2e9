import Stopan.Lib.Dict

/-!
Scalars, digests, validators and sequence helpers shared by every layer (`stopan/common`).
-/

namespace Stopan.Common

open Stopan.Lib

/-- Text that SQLite and UTF-8 can hold: a sequence of Unicode scalar values. -/
abbrev Text := List Char

/-- A character of a Python string: a scalar value, or the lone surrogate that `surrogateescape`
puts in the place of a byte that is not valid UTF-8. -/
inductive PyChar where
  | scalar (char : Char)
  | escapedByte (byte : UInt8)
  deriving DecidableEq, Repr

abbrev PyText := List PyChar

def PyChar.toScalar? : PyChar → Option Char
  | .scalar char => some char
  | .escapedByte _ => none

def toPyText (text : Text) : PyText := text.map .scalar

abbrev Bytes := List UInt8

/-- A binary64 value, kept as its bit pattern. -/
structure PyFloat where
  bits : UInt64
  deriving DecidableEq, Repr

inductive StopanError where
  | value (message : String)
  | runtime (message : String)
  | configValue (message : String)
  | configRuntime (message : String)
  | metadataDatabase (message : String)
  | metadataDatabaseValue (message : String)
  | integrity (message : String)
  | operational (message : String)
  | overflow (message : String)
  | unicodeEncode (message : String)
  | metadataObject (message : String)
  | metadataObjectImport (message : String)
  | erasure (message : String)
  | storage (message : String)
  | restoreData (message : String)
  | keyboardInterrupt
  deriving DecidableEq, Repr

/-- `str(exc)`. -/
def StopanError.message : StopanError → String
  | .value text | .runtime text | .configValue text | .configRuntime text | .metadataDatabase text
  | .metadataDatabaseValue text | .integrity text | .operational text | .overflow text
  | .unicodeEncode text | .metadataObject text
  | .metadataObjectImport text | .erasure text | .storage text | .restoreData text => text
  | .keyboardInterrupt => ""

/-- The external BLAKE3 function, of which the code only uses 32-byte digests. -/
structure Blake3 where
  digest : Bytes → Bytes
  digest_length : ∀ data, (digest data).length = 32

def hexLower : Text :=
  ['0', '1', '2', '3', '4', '5', '6', '7', '8', '9', 'a', 'b', 'c', 'd', 'e', 'f']

def hexDigit (value : Nat) : Char := hexLower.getD (value % 16) '0'

def toHex (data : Bytes) : Text :=
  data.flatMap fun byte => [hexDigit (byte.toNat / 16), hexDigit byte.toNat]

def blake3HexDigest (blake3 : Blake3) (data : Bytes) : Text := toHex (blake3.digest data)

def blake3HexLength : Nat := 64

def isValidBlake3Hex (value : Text) : Bool :=
  value.length == blake3HexLength && value.all fun char => hexLower.contains char

theorem toHex_length (data : Bytes) : (toHex data).length = 2 * data.length := by
  induction data with
  | nil => rfl
  | cons byte rest ih =>
      simp only [toHex, List.flatMap_cons, List.length_append, List.length_cons] at ih ⊢
      simp only [List.length_nil]
      omega

theorem hexDigit_mem (value : Nat) : hexDigit value ∈ hexLower := by
  have bounded : value % 16 < 16 := Nat.mod_lt _ (by decide)
  have total : ∀ digit < 16, hexLower.getD digit '0' ∈ hexLower := by decide
  exact total _ bounded

theorem toHex_hexLower {data : Bytes} {char : Char} (member : char ∈ toHex data) :
    char ∈ hexLower := by
  obtain ⟨byte, -, inside⟩ := List.mem_flatMap.mp member
  simp only [List.mem_cons, List.not_mem_nil, or_false] at inside
  rcases inside with rfl | rfl <;> exact hexDigit_mem _

theorem blake3HexDigest_valid (blake3 : Blake3) (data : Bytes) :
    isValidBlake3Hex (blake3HexDigest blake3 data) = true := by
  simp only [isValidBlake3Hex, blake3HexDigest, toHex_length,
    blake3.digest_length, Bool.and_eq_true, List.all_eq_true]
  exact ⟨rfl, fun char member => by simpa using toHex_hexLower member⟩

/-- The digests of these byte strings are pairwise distinct unless the strings agree. -/
def CollisionFree (blake3 : Blake3) (inputs : Bytes → Prop) : Prop :=
  ∀ left right, inputs left → inputs right →
    blake3HexDigest blake3 left = blake3HexDigest blake3 right → left = right

/-- A digest function that agrees with a finite table of known digests, written as numbers. -/
def Blake3.ofTable (entries : List (Bytes × Nat)) : Blake3 where
  digest data :=
    (List.range 32).map fun index => UInt8.ofNat ((entries.lookup data).getD 0 / 256 ^ (31 - index))
  digest_length data := by simp

def encodeUtf8 (text : Text) : Bytes := text.flatMap String.utf8EncodeChar

/-- The characters for which `str.isspace` holds. -/
def isSpace (char : Char) : Bool :=
  [0x09, 0x0a, 0x0b, 0x0c, 0x0d, 0x1c, 0x1d, 0x1e, 0x1f, 0x20, 0x85, 0xa0, 0x1680, 0x2000, 0x2001,
    0x2002, 0x2003, 0x2004, 0x2005, 0x2006, 0x2007, 0x2008, 0x2009, 0x200a, 0x2028, 0x2029, 0x202f,
    0x205f, 0x3000].contains char.toNat

def strip (text : Text) : Text := ((text.dropWhile isSpace).reverse.dropWhile isSpace).reverse

theorem strip_of_isValidBlake3Hex {value : Text} (valid : isValidBlake3Hex value = true) :
    strip value = value := by
  have blanks : (hexLower.all fun char => !isSpace char) = true := by decide
  have noSpace : ∀ char ∈ hexLower, isSpace char = false := by simpa using blanks
  simp only [isValidBlake3Hex, Bool.and_eq_true, List.all_eq_true, List.contains_eq_mem,
    decide_eq_true_eq] at valid
  have keep : ∀ text : Text, (∀ char ∈ text, char ∈ hexLower) → text.dropWhile isSpace = text := by
    intro text inside
    cases text with
    | nil => rfl
    | cons first rest => simp [noSpace first (inside first (by simp))]
  rw [strip, keep value valid.2, keep value.reverse (by simpa using valid.2), List.reverse_reverse]

theorem dropWhile_of_head {text : Text} (head : ∀ first ∈ text.head?, isSpace first = false) :
    text.dropWhile isSpace = text := by
  cases text with
  | nil => rfl
  | cons first rest => simp [head first rfl]

theorem head_dropWhile (text : Text) :
    ∀ first ∈ (text.dropWhile isSpace).head?, isSpace first = false := by
  intro first present
  have kept := List.head?_dropWhile_not isSpace text
  rw [Option.mem_def.mp present] at kept
  simpa using kept

/-- Stripping twice is stripping once. -/
theorem strip_strip (text : Text) : strip (strip text) = strip text := by
  have front : (strip text).dropWhile isSpace = strip text := by
    apply dropWhile_of_head
    intro first present
    apply head_dropWhile text
    -- what is left after stripping the end is a beginning of the text stripped at the front
    have beginning : strip text <+: text.dropWhile isSpace := by
      have suffix := List.dropWhile_suffix (l := (text.dropWhile isSpace).reverse) isSpace
      simpa [strip] using List.reverse_prefix.mpr suffix
    obtain ⟨rest, whole⟩ := beginning
    rw [← whole, List.head?_append, Option.mem_def.mp present]
    rfl
  rw [strip, front, strip, List.reverse_reverse, dropWhile_of_head (head_dropWhile _)]

/-- `_require_hash64` of the metadata database, which also accepts surrounding whitespace. -/
def requireHash64 (name : String) (value : Text) : Except StopanError Text :=
  if isValidBlake3Hex (strip value) then .ok (strip value)
  else .error (.metadataDatabase s!"{name} debe tener 64 caracteres hexadecimales lowercase")

theorem requireHash64_of_valid {name : String} {value : Text}
    (valid : isValidBlake3Hex value = true) :
    requireHash64 name value = .ok value := by
  simp [requireHash64, strip_of_isValidBlake3Hex valid, valid]

def requireNonNegativeInt (name : String) (value : Int) : Except StopanError Nat :=
  if value < 0 then .error (.metadataDatabase s!"{name} debe ser >= 0; recibido {value}")
  else .ok value.toNat

def requirePositiveInt (name : String) (value : Int) : Except StopanError Nat :=
  match requireNonNegativeInt name value with
  | .error reason => .error reason
  | .ok number =>
      if number = 0 then .error (.metadataDatabase s!"{name} debe ser > 0; recibido {number}")
        else .ok number

section Sequences

variable {α : Type}

/-- `list(dict.fromkeys(items))`: the items without repetitions, in order of first appearance. -/
def orderedUnique [DecidableEq α] (items : List α) : List α :=
  (Dict.ofList (items.map fun item => (item, ()))).keys

theorem mem_orderedUnique [DecidableEq α] {items : List α} {item : α} :
    item ∈ orderedUnique items ↔ item ∈ items := by
  simp [orderedUnique, Dict.ofList, Dict.mem_keys_update]

theorem orderedUnique_nodup [DecidableEq α] (items : List α) : (orderedUnique items).Nodup :=
  Dict.keys_nodup _

/-- Items grouped by a key, the groups one after another, are the items in another order. -/
theorem flatMap_groups_perm {κ : Type} [DecidableEq κ] (key : α → κ)
    (keys : List κ) (items : List α)
    (distinct : keys.Nodup) (known : ∀ item ∈ items, key item ∈ keys) :
    (keys.flatMap fun name => items.filter fun item => key item = name).Perm items := by
  induction keys generalizing items with
  | nil =>
      have none : items = [] :=
        List.eq_nil_iff_forall_not_mem.mpr fun item member => nomatch known item member
      simp [none]
  | cons name rest ih =>
      rw [List.nodup_cons] at distinct
      have others : (rest.flatMap fun other => items.filter fun item => key item = other) =
          rest.flatMap fun other => (items.filter fun item => !decide (key item = name)).filter
            fun item => key item = other := by
        apply List.flatMap_congr
        intro other member
        rw [List.filter_filter]
        apply List.filter_congr
        intro item _
        by_cases same : key item = other
        · have different : key item ≠ name := fun equal => distinct.1 (equal ▸ same ▸ member)
          simp [same, same ▸ different]
        · simp [same]
      rw [List.flatMap_cons, others]
      refine ((ih _ distinct.2 ?_).append_left _).trans (List.filter_append_perm _ items)
      intro item member
      obtain ⟨listed, different⟩ := List.mem_filter.mp member
      exact (List.mem_cons.mp (known item listed)).resolve_left (by simpa using different)

/-- One pass of `iter_batches` with the batch under construction. -/
def iterBatchesFrom (size : Nat) : List α → List α → List (List α)
  | current, [] => if current.isEmpty then [] else [current]
  | current, item :: rest =>
      if size ≤ (current ++ [item]).length then (current ++ [item]) :: iterBatchesFrom size [] rest
      else iterBatchesFrom size (current ++ [item]) rest

def iterBatches (items : List α) (batchSize : Nat) : List (List α) :=
  iterBatchesFrom (max 1 batchSize) [] items

theorem iterBatchesFrom_flatten (size : Nat) (current items : List α) :
    (iterBatchesFrom size current items).flatten = current ++ items := by
  induction items generalizing current with
  | nil => cases current <;> simp [iterBatchesFrom]
  | cons item rest ih =>
      rw [iterBatchesFrom]
      split <;> simp [ih]

theorem iterBatches_flatten (items : List α) (batchSize : Nat) :
    (iterBatches items batchSize).flatten = items := by
  simp [iterBatches, iterBatchesFrom_flatten]

end Sequences

end Stopan.Common
