import Mathlib

namespace Stopan.Lib.Protobuf

/-- Seven bits a byte, the lowest first; every byte but the last has its high bit set. -/
def varint (value : Nat) : List UInt8 :=
  if value < 128 then [UInt8.ofNat value]
    else UInt8.ofNat (value % 128 + 128) :: varint (value / 128)

example : varint 300 = [0xac, 0x02] := by
  simp [varint]

theorem length_varint_of_lt {value : Nat} (small : value < 128) : (varint value).length = 1 := by
  rw [varint, if_pos small, List.length_singleton]

theorem length_varint_of_le {value : Nat} (large : 128 ≤ value) :
    (varint value).length = (varint (value / 128)).length + 1 := by
  rw [varint, if_neg (Nat.not_lt.mpr large), List.length_cons]

/-- What a field holds. A message in a repeated field is written also when it is empty. -/
inductive FieldValue where
  | number (value : Nat)
  | bytes (data : List UInt8)
  | message (body : List UInt8)
  deriving DecidableEq, Repr

namespace FieldValue

def wireType : FieldValue → Nat
  | .number _ => 0
  | .bytes _ | .message _ => 2

def isDefault : FieldValue → Bool
  | .number value => value == 0
  | .bytes data => data.isEmpty
  | .message _ => false

def payload : FieldValue → List UInt8
  | .number value => varint value
  | .bytes data | .message data => varint data.length ++ data

end FieldValue

structure Field where
  number : Nat
  value : FieldValue
  deriving DecidableEq, Repr

namespace Field

def tag (field : Field) : Nat := field.number * 8 + field.value.wireType

def encode (field : Field) : List UInt8 :=
  if field.value.isDefault then [] else varint field.tag ++ field.value.payload

/-- The tags of the first fifteen fields take one byte. -/
theorem length_encode {number : Nat} {value : FieldValue} (few : number < 16)
    (present : value.isDefault = false) :
    (encode { number, value }).length = 1 + value.payload.length := by
  have small : tag { number, value } < 128 := by
    have two : value.wireType ≤ 2 := by cases value <;> simp [FieldValue.wireType]
    have eight : number * 8 + value.wireType < 128 := by omega
    exact eight
  rw [encode, present, if_neg Bool.false_ne_true, List.length_append, length_varint_of_lt small]

theorem length_encode_default {number : Nat} {value : FieldValue}
    (default : value.isDefault = true) : (encode { number, value }).length = 0 := by
  rw [encode, if_pos default, List.length_nil]

end Field

def encodeMessage (fields : List Field) : List UInt8 := fields.flatMap Field.encode

theorem length_encodeMessage (fields : List Field) :
    (encodeMessage fields).length = (fields.map fun field => field.encode.length).sum := by
  rw [encodeMessage, List.length_flatMap]

end Stopan.Lib.Protobuf
