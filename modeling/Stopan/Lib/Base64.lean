import Mathlib

namespace Stopan.Lib.Base64

def alphabet : List Char :=
  "ABCDEFGHIJKLMNOPQRSTUVWXYZabcdefghijklmnopqrstuvwxyz0123456789+/".toList

def digit (value : Nat) : Char := alphabet.getD value '='

def digitValue (char : Char) : Option Nat :=
  if alphabet.contains char then some (alphabet.idxOf char) else none

def encode : List UInt8 → List Char
  | [] => []
  | [a] => [digit (a.toNat / 4), digit (a.toNat % 4 * 16), '=', '=']
  | [a, b] =>
      [digit (a.toNat / 4), digit (a.toNat % 4 * 16 + b.toNat / 16), digit (b.toNat % 16 * 4), '=']
  | a :: b :: c :: rest =>
      digit (a.toNat / 4) :: digit (a.toNat % 4 * 16 + b.toNat / 16) :: digit
        (b.toNat % 16 * 4 + c.toNat / 64) ::
        digit (c.toNat % 64) :: encode rest

/-- The bytes of a group; the bits that its characters have to spare are ignored. -/
def groupOne (a b : Nat) : List UInt8 := [UInt8.ofNat (a * 4 + b / 16)]

def groupTwo (a b c : Nat) : List UInt8 := groupOne a b ++ [UInt8.ofNat (b % 16 * 16 + c / 4)]

def groupThree (a b c d : Nat) : List UInt8 := groupTwo a b c ++ [UInt8.ofNat (c % 4 * 64 + d)]

def decode : List Char → Option (List UInt8)
  | [] => some []
  | a :: b :: c :: d :: rest => do
      let first ← digitValue a
      let second ← digitValue b
      if c = '=' ∧ d = '=' ∧ rest = [] then return groupOne first second
      let third ← digitValue c
      if d = '=' ∧ rest = [] then return groupTwo first second third
      let fourth ← digitValue d
      return groupThree first second third fourth ++ (← decode rest)
  | _ => none

theorem digits : ∀ value < 64, digitValue (digit value) = some value ∧ digit value ≠ '=' := by
  decide +kernel

theorem digitValue_digit {value : Nat} (bound : value < 64) :
    digitValue (digit value) = some value := (digits value bound).1

theorem digit_ne_padding {value : Nat} (bound : value < 64) : digit value ≠ '=' :=
  (digits value bound).2

theorem decode_encode (data : List UInt8) : decode (encode data) = some data := by
  have byte : ∀ (value : UInt8) (number : Nat), number = value.toNat →
      UInt8.ofNat number = value := by
    rintro value number rfl
    simp
  induction data using encode.induct with
  | case1 => rfl
  | case2 a =>
      have boundA := a.toNat_lt
      have first := digitValue_digit (show a.toNat / 4 < 64 by omega)
      have second := digitValue_digit (show a.toNat % 4 * 16 < 64 by omega)
      simp only [encode, decode, first, second, Option.bind_eq_bind, Option.bind_some, and_self,
        if_true, Option.pure_def, Option.some.injEq, groupOne]
      rw [byte a _ (by omega)]
  | case3 a b =>
      have boundA := a.toNat_lt
      have boundB := b.toNat_lt
      have first := digitValue_digit (show a.toNat / 4 < 64 by omega)
      have second := digitValue_digit (show a.toNat % 4 * 16 + b.toNat / 16 < 64 by omega)
      have third := digitValue_digit (show b.toNat % 16 * 4 < 64 by omega)
      have padding := digit_ne_padding (show b.toNat % 16 * 4 < 64 by omega)
      simp only [encode, decode, first, second, third, padding, Option.bind_eq_bind,
        Option.bind_some, false_and, if_false,
        and_self, if_true, Option.pure_def, Option.some.injEq, groupTwo, groupOne]
      rw [byte a _ (by omega), byte b _ (by omega)]
      rfl
  | case4 a b c rest ih =>
      have boundA := a.toNat_lt
      have boundB := b.toNat_lt
      have boundC := c.toNat_lt
      have first := digitValue_digit (show a.toNat / 4 < 64 by omega)
      have second := digitValue_digit (show a.toNat % 4 * 16 + b.toNat / 16 < 64 by omega)
      have third := digitValue_digit (show b.toNat % 16 * 4 + c.toNat / 64 < 64 by omega)
      have fourth := digitValue_digit (show c.toNat % 64 < 64 by omega)
      have padding := digit_ne_padding (show b.toNat % 16 * 4 + c.toNat / 64 < 64 by omega)
      have lastPadding := digit_ne_padding (show c.toNat % 64 < 64 by omega)
      simp only [encode, decode, first, second, third, fourth, padding, lastPadding, ih,
        Option.bind_eq_bind,
        Option.bind_some, false_and, if_false, Option.pure_def, Option.some.injEq,
          groupThree, groupTwo, groupOne]
      rw [byte a _ (by omega), byte b _ (by omega), byte c _ (by omega)]
      rfl

end Stopan.Lib.Base64
