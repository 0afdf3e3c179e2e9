import Stopan.Lib.Decimal

namespace Stopan.Lib.Binary64

/-- The value of a pattern in units of the least positive number, `2 ^ -1074`. -/
def units (pattern : Nat) : Nat :=
  if pattern / 2 ^ 52 = 0 then pattern else (2 ^ 52 + pattern % 2 ^ 52) * 2 ^ (pattern / 2 ^ 52 - 1)

/-- The pattern of infinity; those above it are not numbers. -/
def infinity : Nat := 2047 * 2 ^ 52

/-- The least positive number, as a fraction of one. -/
def unitsOfOne : ℚ := 2 ^ 1074

theorem units_split (exponent fraction : Nat) (bound : fraction < 2 ^ 52) :
    units (2 ^ 52 * exponent + fraction) =
      if exponent = 0 then fraction else (2 ^ 52 + fraction) * 2 ^ (exponent - 1) := by
  have quotient : (2 ^ 52 * exponent + fraction) / 2 ^ 52 = exponent := by omega
  have remainder : (2 ^ 52 * exponent + fraction) % 2 ^ 52 = fraction := by omega
  rw [units, quotient, remainder]
  split
  · rename_i zero
    rw [zero, Nat.mul_zero, Nat.zero_add]
  · rfl

theorem units_lt_succ (pattern : Nat) : units pattern < units (pattern + 1) := by
  have bound := Nat.mod_lt pattern (by positivity : 0 < 2 ^ 52)
  rw [← Nat.div_add_mod pattern (2 ^ 52)]
  generalize pattern / 2 ^ 52 = exponent
  generalize pattern % 2 ^ 52 = fraction at bound
  by_cases last : fraction + 1 = 2 ^ 52
  · -- The fraction overflows into the next exponent, whose unit is twice as large.
    have next : 2 ^ 52 * exponent + fraction + 1 = 2 ^ 52 * (exponent + 1) + 0 := by omega
    rw [next, units_split _ _ bound, units_split _ _ (by decide),
      if_neg (Nat.succ_ne_zero exponent)]
    cases exponent with
    | zero =>
        rw [if_pos rfl, Nat.zero_add, Nat.sub_self, Nat.pow_zero]
        omega
    | succ exponent =>
        have positive : 0 < 2 ^ exponent := by positivity
        rw [if_neg (Nat.succ_ne_zero exponent), Nat.add_sub_cancel, Nat.add_sub_cancel,
          Nat.pow_succ 2 exponent]
        calc (2 ^ 52 + fraction) * 2 ^ exponent < (2 ^ 52 + (fraction + 1)) * 2 ^ exponent :=
              Nat.mul_lt_mul_of_pos_right (by omega) positive
          _ = (2 ^ 52 + 0) * (2 ^ exponent * 2) := by
              rw [last]
              ring
  · rw [Nat.add_assoc, units_split _ _ bound, units_split _ _ (by omega)]
    cases exponent with
    | zero => simp
    | succ exponent =>
        rw [if_neg (Nat.succ_ne_zero exponent), if_neg (Nat.succ_ne_zero exponent)]
        exact Nat.mul_lt_mul_of_pos_right (by omega) (by positivity)

theorem units_strictMono : StrictMono units := strictMono_nat_of_lt_succ units_lt_succ

theorem units_zero : units 0 = 0 := rfl

/-- The largest pattern below `2 ^ bits` above `found` whose value does not exceed the amount. -/
def floorPattern (amount : ℚ) : Nat → Nat → Nat
  | 0, found => found
  | bits + 1, found =>
      floorPattern amount bits (if (units (found + 2 ^ bits) : ℚ) ≤ amount then
        found + 2 ^ bits else found)

theorem floorPattern_spec (amount : ℚ) (bits found : Nat) (low : (units found : ℚ) ≤ amount)
    (high : amount < units (found + 2 ^ bits)) :
    (units (floorPattern amount bits found) : ℚ) ≤ amount ∧
      amount < units (floorPattern amount bits found + 1) := by
  induction bits generalizing found with
  | zero => exact ⟨low, high⟩
  | succ bits ih =>
      rw [floorPattern]
      by_cases reached : (units (found + 2 ^ bits) : ℚ) ≤ amount
      · rw [if_pos reached]
        apply ih _ reached
        have twice : found + 2 ^ bits + 2 ^ bits = found + 2 ^ (bits + 1) := by omega
        rwa [twice]
      · rw [if_neg reached]
        exact ih found low (not_le.mp reached)

/-- The nearest pattern to an amount in units, with ties to even, at most infinity. -/
def nearest (amount : ℚ) : Nat :=
  let below := floorPattern amount 63 0
  let gap : ℚ := units (below + 1) - units below
  let roundsUp := decide (gap < 2 * (amount - units below)) ||
    (decide (gap = 2 * (amount - units below)) && decide (below % 2 = 1))
  min infinity (if roundsUp then below + 1 else below)

theorem floorPattern_units {pattern : Nat} (bounded : pattern < 2 ^ 63) :
    floorPattern (units pattern) 63 0 = pattern := by
  have low : (units 0 : ℚ) ≤ units pattern := by
    exact_mod_cast units_strictMono.monotone (Nat.zero_le pattern)
  have high : (units pattern : ℚ) < units (0 + 2 ^ 63) := by
    exact_mod_cast units_strictMono (by omega)
  obtain ⟨below, above⟩ := floorPattern_spec (units pattern) 63 0 low high
  have notAfter := units_strictMono.le_iff_le.mp (Nat.cast_le.mp below)
  have notBefore := units_strictMono.lt_iff_lt.mp (Nat.cast_lt.mp above)
  omega

/-- The value of a number rounds to the number itself. -/
theorem nearest_units {pattern : Nat} (number : pattern ≤ infinity) :
    nearest (units pattern) = pattern := by
  have bounded : pattern < 2 ^ 63 := by
    have limit : infinity < 2 ^ 63 := by decide
    omega
  have gap : (0 : ℚ) < units (pattern + 1) - units pattern := by
    have strict : (units pattern : ℚ) < units (pattern + 1) := by
      exact_mod_cast units_lt_succ pattern
    linarith
  simp only [nearest, floorPattern_units bounded, sub_self, mul_zero]
  simp [gap.ne', not_lt.mpr gap.le, number]

/-- `float` of a decimal without sign. -/
def ofDecimal (decimal : Decimal) : Nat := nearest (decimal.value * unitsOfOne)

/-- The decimal point of the value of a pattern: the value is between `10 ^ (point - 1)` and
`10 ^ point`. No positive number is below `10 ^ -400`. -/
def decimalPoint (pattern : Nat) : Int :=
  (Nat.toDigits 10 (units pattern * 10 ^ 400 / 2 ^ 1074)).length - 400

/-- The two decimals with `count` digits around the value, the nearer first. -/
def neighbours (pattern count : Nat) : List Decimal :=
  let exponent : Int := decimalPoint pattern - count
  let scaled : ℚ := units pattern / unitsOfOne * (10 : ℚ) ^ (-exponent)
  let below : Nat := scaled.floor.toNat
  let nearer : Bool := decide (scaled - below < 1 / 2) ||
    (decide (scaled - below = 1 / 2) && decide (below % 2 = 0))
  if nearer then [⟨below, exponent⟩, ⟨below + 1, exponent⟩]
    else [⟨below + 1, exponent⟩, ⟨below, exponent⟩]

/-- All the digits of the value. -/
def exactDecimal (pattern : Nat) : Decimal where
  digits := units pattern * 5 ^ 1074
  exponent := -1074

/-- The shortest decimal that rounds to the pattern, the nearest one of that length. Seventeen
digits are always enough. -/
def shortest (pattern : Nat) : Decimal :=
  if pattern = 0 then ⟨0, 0⟩
  else ((((List.range 17).flatMap fun count => neighbours pattern (count + 1)).find?
    fun decimal => decide (ofDecimal decimal = pattern)).getD (exactDecimal pattern)).trim 800

private theorem tenth_power (count : Nat) :
    (10 : ℚ) ^ (-(count : Int)) * 5 ^ count * 2 ^ count = 1 := by
  rw [mul_assoc, ← mul_pow, zpow_neg, zpow_natCast]
  norm_num

theorem exactDecimal_value (pattern : Nat) :
    (exactDecimal pattern).value * unitsOfOne = units pattern := by
  have rearranged : ∀ value five tenth two : ℚ, value * five * tenth * two =
      value * (tenth * five * two) := by
    intro value five tenth two
    ring
  rw [Decimal.value, exactDecimal, unitsOfOne, Nat.cast_mul, Nat.cast_pow, rearranged]
  exact (congrArg _ (tenth_power 1074)).trans (mul_one _)

/-- Rounding depends on the value of a decimal only. -/
theorem ofDecimal_congr {left right : Decimal} (same : left.value = right.value) :
    ofDecimal left = ofDecimal right := by
  rw [ofDecimal, ofDecimal, same]

theorem ofDecimal_of_digits_zero {decimal : Decimal} (zero : decimal.digits = 0) :
    ofDecimal decimal = 0 := by
  have rounded := nearest_units (Nat.zero_le infinity)
  rw [units_zero, Nat.cast_zero] at rounded
  rw [ofDecimal, Decimal.value, zero, Nat.cast_zero, zero_mul, zero_mul, rounded]

theorem ofDecimal_shortest {pattern : Nat} (number : pattern ≤ infinity) :
    ofDecimal (shortest pattern) = pattern := by
  rw [shortest]
  by_cases zero : pattern = 0
  · rw [if_pos zero, zero]
    exact ofDecimal_of_digits_zero rfl
  · rw [if_neg zero, ofDecimal_congr (Decimal.trim_value ..)]
    cases found : ((List.range 17).flatMap fun count => neighbours pattern (count + 1)).find?
        fun decimal => decide (ofDecimal decimal = pattern) with
    | none =>
        rw [Option.getD_none, ofDecimal, exactDecimal_value]
        exact nearest_units number
    | some decimal =>
        rw [Option.getD_some]
        simpa using List.find?_some found

theorem shortest_of_digits_zero {pattern : Nat} (number : pattern ≤ infinity)
    (zero : (shortest pattern).digits = 0) : (shortest pattern).exponent = 0 := by
  have rounded := ofDecimal_shortest number
  rw [ofDecimal_of_digits_zero zero] at rounded
  rw [shortest, if_pos rounded.symm]

def zeros (count : Nat) : List Char := List.replicate count '0'

/-- An exponent has at least two digits. -/
def exponentDigits (value : Nat) : List Char := if value < 10 then '0' :: Nat.toDigits 10 value
    else Nat.toDigits 10 value

/-- The layout of `float.__repr__`: positional when the decimal point is at most sixteen places
after the first digit and at most four before it, and scientific otherwise. -/
def layout (negative : Bool) (decimal : Decimal) : NumberText :=
  let digits := Nat.toDigits 10 decimal.digits
  let point : Int := digits.length + decimal.exponent
  if -4 < point ∧ point ≤ 16 then
    if point ≤ 0 then { negative, whole := ['0'], fraction := zeros (-point).toNat ++ digits,
                        exponent := none }
    else if point < digits.length then
      { negative, whole := digits.take point.toNat, fraction := digits.drop point.toNat,
        exponent := none }
    else { negative, whole := digits ++ zeros (point - digits.length).toNat,
           fraction := ['0'], exponent := none }
  else
    { negative, whole := digits.take 1, fraction := digits.drop 1
      exponent := some (some (decide (point - 1 < 0)), exponentDigits (point - 1).natAbs) }

/-- The text of `float.__repr__`. -/
def repr (negative : Bool) (pattern : Nat) : NumberText := layout negative (shortest pattern)

open NumberText in
theorem natValue_zeros_append (count : Nat) (digits : List Char) :
    natValue (zeros count ++ digits) = natValue digits := by
  simp [natValue, zeros, Nat.ofDigitChars_append]

open NumberText in
theorem natValue_append_zeros (digits : List Char) (count : Nat) :
    natValue (digits ++ zeros count) = natValue digits * 10 ^ count := by
  simp [natValue, zeros, Nat.ofDigitChars_append, Nat.mul_comm]

open NumberText in
theorem natValue_exponentDigits (value : Nat) : natValue (exponentDigits value) = value := by
  rw [exponentDigits]
  split
  · exact (natValue_zeros_append 1 _).trans (natValue_toDigits value)
  · exact natValue_toDigits value

theorem isDigit_zeros {count : Nat} {char : Char} (member : char ∈ zeros count) :
    isDigit char = true := by
  rw [List.eq_of_mem_replicate member]
  decide

theorem exponentDigits_spec (value : Nat) :
    exponentDigits value ≠ [] ∧ ∀ char ∈ exponentDigits value, isDigit char = true := by
  rw [exponentDigits]
  split
  · refine ⟨by simp, fun char member => ?_⟩
    rcases List.mem_cons.mp member with rfl | inside
    · decide
    · exact isDigit_toDigits inside
  · exact ⟨Nat.toDigits_ne_nil, fun char member => isDigit_toDigits member⟩

open NumberText in
theorem exponentValue_signed (exponent : Int) :
    exponentValue (some (some (decide (exponent < 0)), exponentDigits exponent.natAbs)) =
      exponent := by
  by_cases negative : exponent < 0
  · simp only [negative, decide_true, exponentValue, natValue_exponentDigits]
    omega
  · simp only [negative, decide_false, exponentValue, natValue_exponentDigits]
    omega

theorem layout_wellFormed (negative : Bool) {decimal : Decimal}
    (plain : decimal.digits = 0 → decimal.exponent = 0) : (layout negative decimal).WellFormed := by
  have leading := toDigits_leading decimal.digits
  have digit : ∀ char ∈ Nat.toDigits 10 decimal.digits, isDigit char = true :=
    fun char member => isDigit_toDigits member
  have zero : Nat.toDigits 10 decimal.digits = ['0'] → decimal.exponent = 0 := by
    intro single
    apply plain
    rw [← NumberText.natValue_toDigits decimal.digits, single]
    rfl
  simp only [layout]
  generalize Nat.toDigits 10 decimal.digits = digits at leading digit zero
  split
  · split
    · refine ⟨.inl rfl, by simp; decide, ?_, by simp⟩
      intro char member
      rcases List.mem_append.mp member with padding | inside
      · exact isDigit_zeros padding
      · exact digit char inside
    · split
      · rename_i positive inside
        refine ⟨.inr ?_, fun char member => digit char (List.mem_of_mem_take member),
          fun char member => digit char (List.mem_of_mem_drop member), by simp⟩
        rcases leading with rfl | ⟨first, rest, rfl, notZero⟩
        · simp only [List.length_singleton] at positive inside
          omega
        · obtain ⟨count, counted⟩ : ∃ count,
            (((first :: rest).length : Int) + decimal.exponent).toNat = count + 1 :=
            ⟨_, (Nat.succ_pred_eq_of_pos (by omega)).symm⟩
          exact ⟨first, rest.take count, by rw [counted]; rfl, notZero⟩
      · refine ⟨?_, ?_, by simp; decide, by simp⟩
        · rcases leading with rfl | ⟨first, rest, rfl, notZero⟩
          · left
            simp [zero rfl, zeros]
          · exact .inr ⟨first, _, rfl, notZero⟩
        · intro char member
          rcases List.mem_append.mp member with inside | padding
          · exact digit char inside
          · exact isDigit_zeros padding
  · refine ⟨?_, fun char member => digit char (List.mem_of_mem_take member),
      fun char member => digit char (List.mem_of_mem_drop member), ?_⟩
    · rcases leading with rfl | ⟨first, rest, rfl, notZero⟩
      · exact .inl rfl
      · exact .inr ⟨first, [], rfl, notZero⟩
    · intro sign exponent equal
      cases equal
      exact exponentDigits_spec _

theorem layout_not_integer (negative : Bool) (decimal : Decimal) :
    (layout negative decimal).isInteger = false := by
  have notEmpty := Nat.toDigits_ne_nil (n := decimal.digits) (b := 10)
  simp only [layout]
  generalize Nat.toDigits 10 decimal.digits = digits at notEmpty
  split
  · split
    · simp [NumberText.isInteger, notEmpty]
    · split
      · simp only [NumberText.isInteger, Option.isNone_none, Bool.and_true,
          List.isEmpty_eq_false_iff, ne_eq, List.drop_eq_nil_iff]
        omega
      · rfl
  · simp [NumberText.isInteger]

theorem layout_negative (negative : Bool) (decimal : Decimal) :
    (layout negative decimal).negative = negative := by
  simp only [layout]
  split
  · split
    · rfl
    · split <;> rfl
  · rfl

open NumberText in
theorem layout_value (negative : Bool) (decimal : Decimal) :
    (layout negative decimal).decimal.value = decimal.value := by
  have whole := natValue_toDigits decimal.digits
  have someDigit := Nat.length_toDigits_pos (b := 10) (n := decimal.digits)
  simp only [layout]
  generalize Nat.toDigits 10 decimal.digits = digits at whole someDigit
  split
  · split
    · simp only [NumberText.decimal, Decimal.value, List.singleton_append,
        exponentValue, List.length_append]
      have value : natValue
          ('0' :: (zeros (-((digits.length : Int) + decimal.exponent)).toNat ++ digits)) =
            decimal.digits := by
        rw [← whole, ← natValue_zeros_append 1 digits]
        exact (natValue_zeros_append 1 _).trans
          ((natValue_zeros_append _ _).trans (natValue_zeros_append 1 _).symm)
      rw [value, zeros, List.length_replicate]
      congr 2
      omega
    · split
      · simp only [NumberText.decimal, Decimal.value, List.take_append_drop, whole,
          exponentValue, List.length_drop]
        congr 2
        omega
      · rename_i positive outside
        have appended : ((digits ++ zeros
            ((digits.length : Int) + decimal.exponent - digits.length).toNat) ++ ['0']) =
            digits ++ zeros (decimal.exponent.toNat + 1) := by
          have count : ((digits.length : Int) + decimal.exponent - digits.length).toNat =
              decimal.exponent.toNat := by omega
          rw [count, List.append_assoc, zeros, zeros, List.replicate_succ']
        have power : (decimal.exponent : Int) = decimal.exponent.toNat := by omega
        simp only [NumberText.decimal, Decimal.value, appended, natValue_append_zeros,
          whole, exponentValue, List.length_singleton]
        rw [power, zpow_natCast, Nat.cast_mul, Nat.cast_pow]
        simp only [Int.toNat_natCast, Nat.cast_ofNat, Nat.cast_one, zero_sub, pow_succ]
        ring
  · simp only [NumberText.decimal, Decimal.value, List.take_append_drop, whole,
      exponentValue_signed, List.length_drop]
    congr 2
    omega

/-- `float(repr(x)) == x` for every number, finite or infinite. -/
theorem ofDecimal_repr (negative : Bool) {pattern : Nat} (number : pattern ≤ infinity) :
    ofDecimal (repr negative pattern).decimal = pattern := by
  rw [repr, ofDecimal_congr (layout_value ..)]
  exact ofDecimal_shortest number

theorem repr_wellFormed (negative : Bool) {pattern : Nat} (number : pattern ≤ infinity) :
    (repr negative pattern).WellFormed :=
  layout_wellFormed negative (shortest_of_digits_zero number)

end Stopan.Lib.Binary64
