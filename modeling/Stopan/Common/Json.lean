import Stopan.Lib.Binary64
import Stopan.Lib.JsonText
import Stopan.Common.Basic

/-!
Text encodings shared by the metadata formats: UTF-8, Base64 and canonical JSON with binary64
numbers (`stopan/common/json.py`, `stopan/common/encoding.py`).
-/

namespace Stopan.Common

open Stopan.Lib

def isContinuation (byte : UInt8) : Bool := decide (0x80 ≤ byte.toNat) && decide (byte.toNat < 0xc0)

def continuationBits (byte : UInt8) : Nat := byte.toNat - 0x80

/-- `bytes.decode("utf-8")`, which refuses surrogates, overlong forms and values past U+10FFFF. -/
def decodeUtf8 : Bytes → Option Text
  | [] => some []
  | a :: rest =>
      if a.toNat < 0x80 then (decodeUtf8 rest).map (Char.ofNat a.toNat :: ·)
      else if 0xc2 ≤ a.toNat ∧ a.toNat < 0xe0 then
        match rest with
        | b :: rest =>
            if isContinuation b then
              (decodeUtf8 rest).map (Char.ofNat ((a.toNat - 0xc0) * 64 + continuationBits b) :: ·)
            else none
        | [] => none
      else if 0xe0 ≤ a.toNat ∧ a.toNat < 0xf0 then
        match rest with
        | b :: c :: rest =>
            let value := ((a.toNat - 0xe0) * 64 + continuationBits b) * 64 + continuationBits c
            if isContinuation b ∧ isContinuation c ∧ 0x800 ≤ value ∧
              ¬ (0xd800 ≤ value ∧ value < 0xe000) then
              (decodeUtf8 rest).map (Char.ofNat value :: ·)
            else none
        | _ => none
      else if 0xf0 ≤ a.toNat ∧ a.toNat < 0xf5 then
        match rest with
        | b :: c :: d :: rest =>
            let value := (((a.toNat - 0xf0) * 64 + continuationBits b) * 64 + continuationBits c) *
              64 + continuationBits d
            if isContinuation b ∧ isContinuation c ∧ isContinuation d ∧ 0x10000 ≤ value ∧
              value < 0x110000 then
              (decodeUtf8 rest).map (Char.ofNat value :: ·)
            else none
        | _ => none
      else none

theorem char_bounds (char : Char) :
    char.toNat < 0xd800 ∨ (0xe000 ≤ char.toNat ∧ char.toNat < 0x110000) := by
  have valid := char.valid
  simp only [UInt32.isValidChar, Nat.isValidChar] at valid
  change char.toNat < _ ∨ _ at valid
  have same : char.val.toNat = char.toNat := rfl
  omega

private theorem toNat_byte {value : Nat} (bound : value < 256) :
    (UInt8.ofNat value).toNat = value := by
  rw [UInt8.toNat_ofNat']
  exact Nat.mod_eq_of_lt bound

private theorem continuation_byte {value : Nat} (bound : value < 64) :
    isContinuation (UInt8.ofNat (value + 0x80)) = true ∧
      continuationBits (UInt8.ofNat (value + 0x80)) = value := by
  have byte := toNat_byte (show value + 0x80 < 256 by omega)
  constructor
  · rw [isContinuation, byte, Bool.and_eq_true, decide_eq_true_eq, decide_eq_true_eq]
    omega
  · exact (congrArg (· - 0x80) byte).trans (Nat.add_sub_cancel value 0x80)

theorem decodeUtf8_encodeChar (char : Char) (rest : Bytes) :
    decodeUtf8 (String.utf8EncodeChar char ++ rest) = (decodeUtf8 rest).map (char :: ·) := by
  have bounds := char_bounds char
  have back : Char.ofNat char.toNat = char := Char.ofNat_toNat char
  have same : char.val.toNat = char.toNat := rfl
  have low := continuation_byte (show char.toNat % 64 < 64 by omega)
  have middle := continuation_byte (show char.toNat / 64 % 64 < 64 by omega)
  have high := continuation_byte (show char.toNat / 4096 % 64 < 64 by omega)
  rw [String.utf8EncodeChar]
  simp only [same]
  split
  · have first := toNat_byte (show char.toNat < 256 by omega)
    rw [List.singleton_append, decodeUtf8.eq_def]
    dsimp only
    rw [first, if_pos (by omega), back]
  · split
    · have first := toNat_byte (show char.toNat / 64 % 0x20 + 0xc0 < 256 by omega)
      have value : (char.toNat / 64 % 0x20 + 0xc0 - 0xc0) * 64 + char.toNat % 64 =
          char.toNat := by omega
      rw [List.cons_append, List.singleton_append, decodeUtf8.eq_def]
      dsimp only
      rw [first, if_neg (by omega), if_pos (by omega)]
      simp only [low.1, low.2, if_true, value, back]
    · split
      · have first := toNat_byte (show char.toNat / 4096 % 0x10 + 0xe0 < 256 by omega)
        have value : ((char.toNat / 4096 % 0x10 + 0xe0 - 0xe0) * 64 + char.toNat / 64 % 64) *
            64 + char.toNat % 64 = char.toNat := by omega
        rw [List.cons_append, List.cons_append, List.singleton_append, decodeUtf8.eq_def]
        dsimp only
        rw [first, if_neg (by omega), if_neg (by omega), if_pos (by omega)]
        simp only [low.1, low.2, middle.1, middle.2, value, back, true_and]
        rw [if_pos (by omega)]
      · have first := toNat_byte (show char.toNat / 262144 % 0x08 + 0xf0 < 256 by omega)
        have value : (((char.toNat / 262144 % 0x08 + 0xf0 - 0xf0) * 64 + char.toNat / 4096 % 64) *
            64 +
            char.toNat / 64 % 64) * 64 + char.toNat % 64 = char.toNat := by omega
        rw [List.cons_append, List.cons_append, List.cons_append,
          List.singleton_append, decodeUtf8.eq_def]
        dsimp only
        rw [first, if_neg (by omega), if_neg (by omega), if_neg (by omega), if_pos (by omega)]
        simp only [low.1, low.2, middle.1, middle.2, high.1, high.2, value, back, true_and]
        rw [if_pos (by omega)]

theorem decodeUtf8_encodeUtf8 (text : Text) : decodeUtf8 (encodeUtf8 text) = some text := by
  induction text with
  | nil => rfl
  | cons char rest ih =>
      rw [encodeUtf8, List.flatMap_cons, decodeUtf8_encodeChar, ← encodeUtf8, ih]
      rfl

def PyFloat.negative (value : PyFloat) : Bool := decide (2 ^ 63 ≤ value.bits.toNat)

def PyFloat.pattern (value : PyFloat) : Nat := value.bits.toNat % 2 ^ 63

def PyFloat.ofParts (negative : Bool) (pattern : Nat) : PyFloat where
  bits := UInt64.ofNat (pattern + if negative then 2 ^ 63 else 0)

/-- `math.isfinite`. -/
def PyFloat.isFinite (value : PyFloat) : Bool := decide (value.pattern < Binary64.infinity)

theorem PyFloat.ofParts_parts (value : PyFloat) : ofParts value.negative value.pattern = value := by
  obtain ⟨bits⟩ := value
  have bound := bits.toNat_lt
  have whole : bits.toNat % 2 ^ 63 + (if decide (2 ^ 63 ≤ bits.toNat) then 2 ^ 63
      else 0) = bits.toNat := by
    by_cases large : 2 ^ 63 ≤ bits.toNat
    · simp only [large, decide_true, if_true]
      omega
    · simp only [large, decide_false, Bool.false_eq_true, if_false]
      omega
  rw [ofParts, negative, pattern, PyFloat.mk.injEq]
  dsimp only
  rw [whole]
  exact UInt64.ofNat_toNat

/-- `float.__repr__`, with the names that JSON texts give to the values that are not finite. -/
def floatText (value : PyFloat) : Text :=
  if value.pattern < Binary64.infinity then (Binary64.repr value.negative value.pattern).text
  else if value.pattern = Binary64.infinity then
    if value.negative then "-Infinity".toList else "Infinity".toList
  else "NaN".toList

def floatFormat : Json.FloatFormat PyFloat where
  text := floatText
  ofNumber number := .ofParts number.negative (Binary64.ofDecimal number.decimal)
  nan := .ofParts false (Binary64.infinity + 2 ^ 51)
  infinity negative := .ofParts negative Binary64.infinity

theorem floatFormat_faithful {value : PyFloat} (finite : value.isFinite = true) :
    floatFormat.Faithful value := by
  have number : value.pattern < Binary64.infinity := by simpa [PyFloat.isFinite] using finite
  refine ⟨Binary64.repr value.negative value.pattern, ?_, Binary64.repr_wellFormed _ number.le,
    Binary64.layout_not_integer _ _, ?_⟩
  · simp [floatFormat, floatText, number]
  · change PyFloat.ofParts (Binary64.repr value.negative value.pattern).negative
      (Binary64.ofDecimal (Binary64.repr value.negative value.pattern).decimal) = value
    rw [Binary64.ofDecimal_repr _ number.le, Binary64.repr, Binary64.layout_negative]
    exact value.ofParts_parts

abbrev PyJson := Json PyFloat

def canonicalJsonText (value : PyJson) : Text := Json.dumped floatFormat value

def canonicalJsonBytes (value : PyJson) : Bytes := encodeUtf8 (canonicalJsonText value)

/-- `json.loads(data.decode("utf-8"))`. -/
def loadJsonBytes (data : Bytes) : Option PyJson := (decodeUtf8 data).bind (Json.loads floatFormat)

/-- Every value that is written can be read back. -/
def Encodable (value : PyJson) : Prop := value.Formed fun number => number.isFinite = true

theorem Encodable.faithful {value : PyJson} (encodable : Encodable value) :
    value.Formed floatFormat.Faithful := by
  induction encodable with
  | null => exact .null
  | bool value => exact .bool value
  | int value => exact .int value
  | float finite => exact .float (floatFormat_faithful finite)
  | str value => exact .str value
  | arr _ ih => exact .arr ih
  | obj distinct _ ih => exact .obj distinct ih

theorem loadJsonBytes_canonical {value : PyJson} (encodable : Encodable value) :
    loadJsonBytes (canonicalJsonBytes value) = some value.sorted := by
  rw [loadJsonBytes, canonicalJsonBytes, decodeUtf8_encodeUtf8, Option.bind_some]
  exact Json.loads_dumped floatFormat encodable.faithful

theorem canonicalJsonBytes_sorted (value : PyJson) :
    canonicalJsonBytes value.sorted = canonicalJsonBytes value := by
  rw [canonicalJsonBytes, canonicalJsonBytes, canonicalJsonText, canonicalJsonText,
    Json.dumped, Json.dumped, Json.dumps_sorted]

/-- Distinct values have distinct canonical bytes. -/
theorem canonicalJsonBytes_injective {left right : PyJson} (leftEncodable : Encodable left)
    (rightEncodable : Encodable right) (same : canonicalJsonBytes left = canonicalJsonBytes right) :
    left.sorted = right.sorted := by
  have read := loadJsonBytes_canonical leftEncodable
  rw [same, loadJsonBytes_canonical rightEncodable, Option.some.injEq] at read
  exact read.symm

end Stopan.Common
