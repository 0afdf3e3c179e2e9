import Mathlib

namespace Stopan.Lib

/-- The number `digits * 10 ^ exponent`. -/
structure Decimal where
  digits : Nat
  exponent : Int
  deriving DecidableEq, Repr

namespace Decimal

def value (decimal : Decimal) : ℚ := decimal.digits * (10 : ℚ) ^ decimal.exponent

/-- Move trailing zeros of the digits to the exponent. -/
def trim : Nat → Decimal → Decimal
  | 0, decimal => decimal
  | fuel + 1, decimal =>
      if decimal.digits ≠ 0 ∧ decimal.digits % 10 = 0 then
        trim fuel { digits := decimal.digits / 10, exponent := decimal.exponent + 1 }
      else decimal

theorem trim_value (fuel : Nat) (decimal : Decimal) :
    (decimal.trim fuel).value = decimal.value := by
  induction fuel generalizing decimal with
  | zero => rfl
  | succ fuel ih =>
      rw [trim]
      split
      · rename_i zero
        have whole : decimal.digits = decimal.digits / 10 * 10 := by omega
        have cast : (decimal.digits : ℚ) = (decimal.digits / 10 : Nat) * 10 := by
          exact_mod_cast whole
        rw [ih, value, value, cast, zpow_add₀ (by norm_num), zpow_one]
        ring
      · rfl

end Decimal

def isDigit (char : Char) : Bool := decide ('0' ≤ char) && decide (char ≤ '9')

/-- The parts of a number in text. -/
structure NumberText where
  negative : Bool
  whole : List Char
  /-- Empty when there is no fraction. -/
  fraction : List Char
  /-- The sign and the digits of the exponent. -/
  exponent : Option (Option Bool × List Char)
  deriving DecidableEq, Repr

namespace NumberText

def signText : Option Bool → List Char
  | none => []
  | some false => ['+']
  | some true => ['-']

def fractionText (digits : List Char) : List Char := if digits.isEmpty then [] else '.' :: digits

def exponentText : Option (Option Bool × List Char) → List Char
  | none => []
  | some (sign, digits) => 'e' :: (signText sign ++ digits)

def text (number : NumberText) : List Char :=
  (if number.negative then ['-'] else []) ++
    (number.whole ++ (fractionText number.fraction ++ exponentText number.exponent))

def isInteger (number : NumberText) : Bool := number.fraction.isEmpty && number.exponent.isNone

def natValue (digits : List Char) : Nat := Nat.ofDigitChars 10 digits 0

def exponentValue : Option (Option Bool × List Char) → Int
  | none => 0
  | some (some true, digits) => -(natValue digits : Int)
  | some (_, digits) => natValue digits

/-- The magnitude of the number. -/
def decimal (number : NumberText) : Decimal where
  digits := natValue (number.whole ++ number.fraction)
  exponent := exponentValue number.exponent - number.fraction.length

def intValue (number : NumberText) : Int :=
  if number.negative then -(natValue number.whole : Int) else natValue number.whole

/-- The whole part has no leading zero, and every part that is present has digits. -/
structure WellFormed (number : NumberText) : Prop where
  whole : number.whole = ['0'] ∨ ∃ first rest, number.whole = first :: rest ∧ first ≠ '0'
  wholeDigits : ∀ char ∈ number.whole, isDigit char = true
  fractionDigits : ∀ char ∈ number.fraction, isDigit char = true
  exponentDigits : ∀ sign digits, number.exponent = some (sign, digits) →
    digits ≠ [] ∧ ∀ char ∈ digits, isDigit char = true

end NumberText

/-- `(?:0|[1-9][0-9]*)`. -/
def scanWhole : List Char → Option (List Char × List Char)
  | [] => none
  | first :: rest =>
      if first = '0' then some (['0'], rest)
      else if isDigit first then some (first :: rest.takeWhile isDigit, rest.dropWhile isDigit)
      else none

/-- `(\.[0-9]+)?`. -/
def scanFraction : List Char → List Char × List Char
  | '.' :: rest =>
      if (rest.takeWhile isDigit).isEmpty then ([], '.' :: rest)
      else (rest.takeWhile isDigit, rest.dropWhile isDigit)
  | input => ([], input)

def scanSign : List Char → Option Bool × List Char
  | '+' :: rest => (some false, rest)
  | '-' :: rest => (some true, rest)
  | input => (none, input)

/-- `([eE][-+]?[0-9]+)?`. -/
def scanExponent (input : List Char) : Option (Option Bool × List Char) × List Char :=
  match input with
  | marker :: rest =>
      if marker = 'e' ∨ marker = 'E' then
        let signed := scanSign rest
        if (signed.2.takeWhile isDigit).isEmpty then (none, input)
        else (some (signed.1, signed.2.takeWhile isDigit), signed.2.dropWhile isDigit)
      else (none, input)
  | [] => (none, [])

/-- The longest number that the input starts with. -/
def scanNumber (input : List Char) : Option (NumberText × List Char) :=
  let negative := input.head? == some '-'
  let body := if negative then input.tail else input
  match scanWhole body with
  | none => none
  | some (whole, afterWhole) =>
      let fraction := scanFraction afterWhole
      let exponent := scanExponent fraction.2
      some ({ negative, whole, fraction := fraction.1, exponent := exponent.1 }, exponent.2)

/-- The text does not go on with a character that could extend a number. -/
def EndsNumber (rest : List Char) : Prop :=
  ∀ char, rest.head? = some char → isDigit char = false ∧ char ≠ '.' ∧ char ≠ 'e' ∧ char ≠ 'E'

theorem takeWhile_append_of_stops {digits rest : List Char}
    (all : ∀ char ∈ digits, isDigit char = true)
    (stops : ∀ char, rest.head? = some char → isDigit char = false) :
    (digits ++ rest).takeWhile isDigit = digits ∧ (digits ++ rest).dropWhile isDigit = rest := by
  have none : rest.takeWhile isDigit = [] ∧ rest.dropWhile isDigit = rest := by
    cases rest with
    | nil => simp
    | cons first tail => simp [stops first rfl]
  rw [List.takeWhile_append_of_pos all, List.dropWhile_append_of_pos all, none.1,
    none.2, List.append_nil]
  exact ⟨rfl, rfl⟩

private theorem isDigit_ne {char : Char} (digit : isDigit char = true) :
    char ≠ '.' ∧ char ≠ 'e' ∧ char ≠ 'E' ∧ char ≠ '+' ∧ char ≠ '-' := by
  refine ⟨?_, ?_, ?_, ?_, ?_⟩ <;> rintro rfl <;> exact absurd digit (by decide)

theorem scanWhole_append {whole rest : List Char}
    (form : whole = ['0'] ∨ ∃ first tail, whole = first :: tail ∧ first ≠ '0')
    (digits : ∀ char ∈ whole, isDigit char = true)
    (stops : whole = ['0'] ∨ ∀ char, rest.head? = some char → isDigit char = false) :
    scanWhole (whole ++ rest) = some (whole, rest) := by
  rcases form with rfl | ⟨first, tail, rfl, notZero⟩
  · rfl
  · have stops := stops.resolve_left fun equal => notZero (List.cons.inj equal).1
    have spans :=
      takeWhile_append_of_stops
        (fun char member => digits char (List.mem_cons_of_mem _ member)) stops
    simp [scanWhole, notZero, digits first (List.mem_cons_self ..), spans.1, spans.2]

theorem scanFraction_append {fraction rest : List Char}
    (digits : ∀ char ∈ fraction, isDigit char = true)
    (stops : ∀ char, rest.head? = some char → isDigit char = false ∧ char ≠ '.') :
    scanFraction (NumberText.fractionText fraction ++ rest) = (fraction, rest) := by
  cases fraction with
  | nil =>
      cases rest with
      | nil => rfl
      | cons first tail =>
          have notDot := (stops first rfl).2
          simp only [NumberText.fractionText, List.isEmpty_nil, if_true, List.nil_append]
          rw [scanFraction]
          intro more equal
          exact notDot (List.cons.inj equal).1
  | cons first tail =>
      have spans := takeWhile_append_of_stops digits fun char head => (stops char head).1
      simp only [NumberText.fractionText, List.isEmpty_cons, Bool.false_eq_true,
        if_false, List.cons_append, scanFraction] at spans ⊢
      rw [spans.1, spans.2]
      rfl

theorem scanSign_append {sign : Option Bool} {rest : List Char}
    (stops : sign = none → ∀ char, rest.head? = some char → char ≠ '+' ∧ char ≠ '-') :
    scanSign (NumberText.signText sign ++ rest) = (sign, rest) := by
  rcases sign with - | sign
  · cases rest with
    | nil => rfl
    | cons first tail =>
        have other := stops rfl first rfl
        simp only [NumberText.signText, List.nil_append]
        rw [scanSign]
        · intro more equal
          exact other.1 (List.cons.inj equal).1
        · intro more equal
          exact other.2 (List.cons.inj equal).1
  · cases sign <;> rfl

theorem scanExponent_append {exponent : Option (Option Bool × List Char)} {rest : List Char}
    (digits : ∀ sign digits, exponent = some (sign, digits) → digits ≠ [] ∧
      ∀ char ∈ digits, isDigit char = true)
    (stops : EndsNumber rest) :
    scanExponent (NumberText.exponentText exponent ++ rest) = (exponent, rest) := by
  rcases exponent with - | ⟨sign, digitsText⟩
  · cases rest with
    | nil => rfl
    | cons first tail =>
        obtain ⟨-, -, small, large⟩ := stops first rfl
        simp [NumberText.exponentText, scanExponent, small, large]
  · obtain ⟨notEmpty, all⟩ := digits sign digitsText rfl
    have spans := takeWhile_append_of_stops all fun char head => (stops char head).1
    have signed : scanSign (NumberText.signText sign ++ (digitsText ++ rest)) =
        (sign, digitsText ++ rest) := by
      apply scanSign_append
      intro _ char head
      cases digitsText with
      | nil => exact absurd rfl notEmpty
      | cons first tail =>
          have same : first = char := by simpa using head
          have other := isDigit_ne (all first (List.mem_cons_self ..))
          exact same ▸ ⟨other.2.2.2.1, other.2.2.2.2⟩
    simp only [NumberText.exponentText, List.cons_append, List.append_assoc, scanExponent,
      signed, spans.1, spans.2, true_or, if_true]
    simp [notEmpty]

/-- A well-formed number is scanned back from its text. -/
theorem scanNumber_text {number : NumberText} {rest : List Char} (formed : number.WellFormed)
    (stops : EndsNumber rest) : scanNumber (number.text ++ rest) = some (number, rest) := by
  obtain ⟨negative, whole, fraction, exponent⟩ := number
  have afterFraction : ∀ char, (NumberText.exponentText exponent ++ rest).head? = some char →
      isDigit char = false ∧ char ≠ '.' := by
    intro char head
    rcases exponent with - | ⟨sign, digits⟩
    · exact ⟨(stops char head).1, (stops char head).2.1⟩
    · have same : 'e' = char := by simpa [NumberText.exponentText] using head
      subst same
      decide
  have afterWhole : ∀ char,
      (NumberText.fractionText fraction ++ (NumberText.exponentText exponent ++ rest)).head? =
        some char →
      isDigit char = false := by
    intro char head
    cases fraction with
    | nil => exact (afterFraction char head).1
    | cons first tail =>
        have same : '.' = char := by simpa [NumberText.fractionText] using head
        subst same
        decide
  have scannedWhole := scanWhole_append formed.whole formed.wholeDigits (.inr afterWhole)
  have scannedFraction := scanFraction_append formed.fractionDigits afterFraction
  have scannedExponent := scanExponent_append formed.exponentDigits stops
  have unsigned : ∃ first tail, whole = first :: tail ∧ first ≠ '-' := by
    rcases formed.whole with rfl | ⟨first, tail, rfl, -⟩
    · exact ⟨'0', [], rfl, by decide⟩
    · exact ⟨first, tail, rfl,
        (isDigit_ne (formed.wholeDigits first (List.mem_cons_self ..))).2.2.2.2⟩
  obtain ⟨first, tail, rfl, notMinus⟩ := unsigned
  dsimp only at scannedWhole scannedFraction scannedExponent
  cases negative with
  | true =>
      simp only [NumberText.text, if_true, List.cons_append, List.nil_append,
        List.append_assoc, scanNumber, List.head?_cons, beq_self_eq_true, List.tail_cons]
      simp only [List.cons_append] at scannedWhole
      simp only [scannedWhole, scannedFraction, scannedExponent]
  | false =>
      have head : ((some first : Option Char) == some '-') = false := by simpa using notMinus
      simp only [NumberText.text, Bool.false_eq_true, if_false, List.nil_append,
        List.cons_append, List.append_assoc, scanNumber, List.head?_cons, head]
      simp only [List.cons_append] at scannedWhole
      simp only [scannedWhole, scannedFraction, scannedExponent]

theorem isDigit_toDigits {value : Nat} {char : Char} (member : char ∈ Nat.toDigits 10 value) :
    isDigit char = true := by
  have digit := Nat.isDigit_of_mem_toDigits (by decide) (by decide) member
  simpa [isDigit, Char.isDigit, Char.le_def] using digit

theorem toDigits_leading (value : Nat) :
    Nat.toDigits 10 value = ['0'] ∨ ∃ first rest, Nat.toDigits 10 value = first :: rest ∧
      first ≠ '0' := by
  induction value using Nat.strong_induction_on with
  | _ value ih =>
      by_cases small : value < 10
      · rw [Nat.toDigits_of_lt_base small]
        interval_cases value <;> simp
      · right
        rw [Nat.toDigits_of_base_le (by decide) (by omega)]
        rcases ih (value / 10) (by omega) with zero | ⟨first, rest, split, notZero⟩
        · have value_zero : value / 10 = 0 := by
            have back := congrArg (Nat.ofDigitChars 10 · 0) zero
            simpa [Nat.ofDigitChars_cons] using back
          omega
        · exact ⟨first, rest ++ [(value % 10).digitChar], by rw [split]; rfl, notZero⟩

/-- The text of a whole number. -/
def NumberText.ofNat (negative : Bool) (value : Nat) : NumberText where
  negative
  whole := Nat.toDigits 10 value
  fraction := []
  exponent := none

theorem NumberText.ofNat_wellFormed (negative : Bool) (value : Nat) :
    (ofNat negative value).WellFormed where
  whole := toDigits_leading value
  wholeDigits := fun _ member => isDigit_toDigits member
  fractionDigits := by simp [ofNat]
  exponentDigits := by simp [ofNat]

@[simp] theorem NumberText.natValue_toDigits (value : Nat) :
    natValue (Nat.toDigits 10 value) = value := by
  simp [natValue]

end Stopan.Lib
