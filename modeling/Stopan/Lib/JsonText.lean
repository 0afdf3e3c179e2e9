import Stopan.Lib.Dict
import Stopan.Lib.Decimal
import Stopan.Lib.Json

namespace Stopan.Lib

namespace Json

variable {F : Type}

/-- Fractional numbers as the client reads and writes them. -/
structure FloatFormat (F : Type) where
  text : F → List Char
  ofNumber : NumberText → F
  nan : F
  infinity : Bool → F

/-- The numbers whose text reads back as a number with a fraction or an exponent. -/
def FloatFormat.Faithful (format : FloatFormat F) (value : F) : Prop :=
  ∃ number : NumberText, format.text value = number.text ∧ number.WellFormed ∧
    number.isInteger = false ∧ format.ofNumber number = value

def skipSpace (input : List Char) : List Char :=
  input.dropWhile fun char => [' ', '\t', '\n', '\r'].contains char

def expect (char : Char) : List Char → Option (List Char)
  | [] => none
  | first :: rest => if first = char then some rest else none

def hexValue (char : Char) : Option Nat :=
  if '0' ≤ char ∧ char ≤ '9' then some (char.toNat - 48)
  else if 'a' ≤ char ∧ char ≤ 'f' then some (char.toNat - 87)
  else if 'A' ≤ char ∧ char ≤ 'F' then some (char.toNat - 55)
  else none

def hexUnit (first second third fourth : Char) : Option Nat := do
  return (((← hexValue first) * 16 + (← hexValue second)) * 16 + (← hexValue third)) *
    16 + (← hexValue fourth)

/-- The character of a one-letter escape. -/
def simpleEscape (char : Char) : Option Char :=
  [('"', '"'), ('\\', '\\'), ('/', '/'), ('b', Char.ofNat 0x08), ('f', Char.ofNat 0x0c),
    ('n', '\n'), ('r', '\r'), ('t', '\t')].lookup char

/-- The scalar value of one UTF-16 unit, or of a pair of surrogates. A lone surrogate is refused: no
text in UTF-8 can hold it. -/
def scalarOf (unit : Nat) (next : Option Nat) : Option (Char × Bool) :=
  if 0xd800 ≤ unit ∧ unit ≤ 0xdbff then
    match next with
    | some low =>
        if 0xdc00 ≤ low ∧ low ≤ 0xdfff then
          some (Char.ofNat (0x10000 + (unit - 0xd800) * 0x400 + (low - 0xdc00)), true)
        else none
    | none => none
  else if 0xdc00 ≤ unit ∧ unit ≤ 0xdfff then none
  else some (Char.ofNat unit, false)

/-- The UTF-16 unit of an escape `\uXXXX` at the start of the input. -/
def nextUnit : List Char → Option Nat
  | '\\' :: 'u' :: first :: second :: third :: fourth :: _ => hexUnit first second third fourth
  | _ => none

/-- The rest of a string literal, after its opening quote. The count is an upper bound on the
characters left. -/
def parseString : Nat → List Char → Option (List Char × List Char)
  | 0, _ => none
  | _ + 1, [] => none
  | fuel + 1, first :: rest =>
      if first = '"' then some ([], rest)
      else if first = '\\' then
        match rest with
        | 'u' :: a :: b :: c :: d :: rest => do
            let unit ← hexUnit a b c d
            let scalar ← scalarOf unit (nextUnit rest)
            let tail ← parseString fuel (if scalar.2 then rest.drop 6 else rest)
            return (scalar.1 :: tail.1, tail.2)
        | letter :: rest => do
            let char ← simpleEscape letter
            let tail ← parseString fuel rest
            return (char :: tail.1, tail.2)
        | [] => none
      else if first.toNat < 0x20 then none
      else do
        let tail ← parseString fuel rest
        return (first :: tail.1, tail.2)

/-- A string literal with its opening quote. -/
def parseText (input : List Char) : Option (List Char × List Char) := do
  parseString input.length (← expect '"' input)

def literals (format : FloatFormat F) : List (List Char × Json F) :=
  [("null".toList, .null), ("true".toList, .bool true), ("false".toList, .bool false),
    ("NaN".toList, .float format.nan), ("Infinity".toList, .float (format.infinity false)),
    ("-Infinity".toList, .float (format.infinity true))]

/-- A literal or a number. -/
def parseScalar (format : FloatFormat F) (input : List Char) : Option (Json F × List Char) :=
  match (literals format).find? fun literal => literal.1.isPrefixOf input with
  | some literal => some (literal.2, input.drop literal.1.length)
  | none =>
      (scanNumber input).map fun scanned =>
        (if scanned.1.isInteger then .int scanned.1.intValue
          else .float (format.ofNumber scanned.1), scanned.2)

mutual

def parseValue (format : FloatFormat F) : Nat → List Char → Option (Json F × List Char)
  | 0, _ => none
  | fuel + 1, input =>
      if input.head? = some '"' then (parseText input).map fun parsed => (.str parsed.1, parsed.2)
      else if input.head? = some '{' then
        let body := skipSpace input.tail
        if body.head? = some '}' then some (.obj [], body.tail)
        else (parseMembers format fuel body []).map fun parsed => (.obj parsed.1, parsed.2)
      else if input.head? = some '[' then
        let body := skipSpace input.tail
        if body.head? = some ']' then some (.arr [], body.tail)
        else (parseItems format fuel body).map fun parsed => (.arr parsed.1, parsed.2)
      else parseScalar format input

/-- The items of an array up to its closing bracket. -/
def parseItems (format : FloatFormat F) : Nat → List Char → Option (List (Json F) × List Char)
  | 0, _ => none
  | fuel + 1, input => do
      let item ← parseValue format fuel input
      let rest := skipSpace item.2
      if rest.head? = some ']' then return ([item.1], rest.tail)
      let more ← parseItems format fuel (skipSpace (← expect ',' rest))
      return (item.1 :: more.1, more.2)

/-- The members of an object up to its closing brace. A repeated key keeps its place and takes the
last value. -/
def parseMembers (format : FloatFormat F) :
    Nat → List Char → List (List Char × Json F) → Option (List (List Char × Json F) × List Char)
  | 0, _, _ => none
  | fuel + 1, input, fields => do
      let key ← parseText input
      let value ← parseValue format fuel (skipSpace (← expect ':' (skipSpace key.2)))
      let rest := skipSpace value.2
      if rest.head? = some '}' then return (setEntry key.1 value.1 fields, rest.tail)
      parseMembers format fuel (skipSpace (← expect ',' rest)) (setEntry key.1 value.1 fields)

end

/-- `json.loads`. -/
def loads (format : FloatFormat F) (text : List Char) : Option (Json F) := do
  let parsed ← parseValue format (text.length + 1) (skipSpace text)
  if skipSpace parsed.2 = [] then some parsed.1 else none

private theorem parseString_letter (fuel : Nat) {letter char : Char} (rest : List Char)
    (known : simpleEscape letter = some char) (notUnit : letter ≠ 'u') :
    parseString (fuel + 1) ('\\' :: letter :: rest) =
      (parseString fuel rest).map fun tail => (char :: tail.1, tail.2) := by
  simp [parseString, known, notUnit, Option.map_eq_bind]

theorem hexValue_hexDigitChar {value : Nat} (bound : value < 16) :
    hexValue (hexDigitChar value) = some value := by
  interval_cases value <;> decide

/-- An escape of a character below the space. -/
private theorem parseString_control (fuel : Nat) {char : Char} (rest : List Char)
    (control : char.toNat < 0x20) :
    parseString (fuel + 1) ('\\' :: 'u' :: '0' :: '0' :: hexDigitChar
      (char.toNat / 16) :: hexDigitChar (char.toNat % 16) :: rest) =
      (parseString fuel rest).map fun tail => (char :: tail.1, tail.2) := by
  have unit : hexUnit '0' '0' (hexDigitChar (char.toNat / 16)) (hexDigitChar (char.toNat % 16)) =
      some char.toNat := by
    have zero : hexValue '0' = some 0 := by decide
    simp only [hexUnit, zero, hexValue_hexDigitChar (show char.toNat / 16 < 16 by omega),
      hexValue_hexDigitChar (show char.toNat % 16 < 16 by omega), Option.bind_eq_bind,
      Option.bind_some, Option.pure_def, Option.some.injEq]
    omega
  have scalar : scalarOf char.toNat (nextUnit rest) = some (char, false) := by
    rw [scalarOf.eq_def, if_neg (by omega), if_neg (by omega), Char.ofNat_toNat]
  simp [parseString, unit, scalar, Option.map_eq_bind]

theorem parseString_escapeChar (fuel : Nat) (char : Char) (rest : List Char) :
    parseString (fuel + 1) (escapeChar char ++ rest) =
      (parseString fuel rest).map fun tail => (char :: tail.1, tail.2) := by
  rw [escapeChar]
  split
  · rename_i quote
    subst quote
    exact parseString_letter fuel rest (by decide) (by decide)
  · rename_i notQuote
    split
    · rename_i slash
      subst slash
      exact parseString_letter fuel rest (by decide) (by decide)
    · rename_i notSlash
      split
      · rename_i newline
        subst newline
        exact parseString_letter fuel rest (by decide) (by decide)
      · split
        · rename_i carriage
          subst carriage
          exact parseString_letter fuel rest (by decide) (by decide)
        · split
          · rename_i tab
            subst tab
            exact parseString_letter fuel rest (by decide) (by decide)
          · split
            · rename_i feed
              subst feed
              exact parseString_letter fuel rest (by decide) (by decide)
            · split
              · rename_i back
                subst back
                exact parseString_letter fuel rest (by decide) (by decide)
              · split
                · rename_i control
                  exact parseString_control fuel rest control
                · rename_i printable
                  simp [parseString, notQuote, notSlash, printable, Option.map_eq_bind]

theorem parseString_dumped {fuel : Nat} (value rest : List Char) (enough : value.length < fuel) :
    parseString fuel (value.flatMap escapeChar ++ '"' :: rest) = some (value, rest) := by
  induction value generalizing fuel with
  | nil =>
      cases fuel with
      | zero => simp at enough
      | succ fuel => simp [parseString]
  | cons char tail ih =>
      cases fuel with
      | zero => simp at enough
      | succ fuel =>
          rw [List.flatMap_cons, List.append_assoc, parseString_escapeChar,
            ih (by simpa using enough)]
          rfl

theorem escapeChar_length_pos (char : Char) : 0 < (escapeChar char).length := by
  rw [escapeChar]
  repeat' split
  all_goals simp

theorem parseText_dumpString (value rest : List Char) :
    parseText (dumpString value ++ rest) = some (value, rest) := by
  have longer : value.length ≤ (value.flatMap escapeChar).length := by
    induction value with
    | nil => simp
    | cons char tail ih =>
        have positive := escapeChar_length_pos char
        simp only [List.flatMap_cons, List.length_append, List.length_cons]
        omega
  have read := @parseString_dumped (dumpString value ++ rest).length value rest (by
    simp only [dumpString, List.length_append, List.length_cons]
    omega)
  simpa [parseText, dumpString, expect] using read

theorem isDigit_not_mem {char : Char} (digit : isDigit char = true) {others : List Char}
    (none : others.all (fun other => !isDigit other) = true) : char ∉ others := by
  intro member
  have other := List.all_eq_true.mp none char member
  simp [digit] at other

/-- The first characters of a number are not those of a literal. -/
theorem literals_number (format : FloatFormat F) {number : NumberText} (formed : number.WellFormed)
    (rest : List Char) :
    ((literals format).find? fun literal => literal.1.isPrefixOf (number.text ++ rest)) = none := by
  obtain ⟨first, tail, split, digit⟩ : ∃ first tail, number.whole = first :: tail ∧
    isDigit first = true := by
    rcases formed.whole with single | ⟨first, tail, split, -⟩
    · exact ⟨'0', [], single, by decide⟩
    · exact ⟨first, tail, split, formed.wholeDigits first (by simp [split])⟩
  have other := isDigit_not_mem digit (show ['n', 't', 'f', 'N', 'I', '-'].all _ = true by decide)
  simp only [List.mem_cons, List.not_mem_nil, or_false, not_or] at other
  obtain ⟨n, t, f, bigN, bigI, minus⟩ := other
  cases sign : number.negative with
  | true =>
      simp [literals, NumberText.text, sign, split, List.isPrefixOf, Ne.symm bigI]
  | false =>
      simp [literals, NumberText.text, sign, split, List.isPrefixOf, Ne.symm n, Ne.symm t,
        Ne.symm f, Ne.symm bigN, Ne.symm bigI, Ne.symm minus]

theorem parseScalar_number (format : FloatFormat F) {number : NumberText} {rest : List Char}
    (formed : number.WellFormed) (stops : EndsNumber rest) :
    parseScalar format (number.text ++ rest) =
      some (if number.isInteger then .int number.intValue
        else .float (format.ofNumber number), rest) := by
  simp only [parseScalar, literals_number format formed rest, scanNumber_text formed stops,
    Option.map_some]

theorem dumpInt_eq_text (value : Int) :
    dumpInt value = (NumberText.ofNat (decide (value < 0)) value.natAbs).text := by
  cases value with
  | ofNat value =>
      have sign : ¬ (Int.ofNat value < 0) := by simp
      simp [dumpInt, NumberText.ofNat, NumberText.text, NumberText.fractionText,
        NumberText.exponentText]
  | negSucc value =>
      simp [dumpInt, NumberText.ofNat, NumberText.text, NumberText.fractionText,
        NumberText.exponentText, Int.negSucc_lt_zero]

theorem intValue_ofNat (value : Int) :
    (NumberText.ofNat (decide (value < 0)) value.natAbs).intValue = value := by
  simp only [NumberText.intValue, NumberText.ofNat, NumberText.natValue_toDigits, decide_eq_true_eq]
  split <;> omega

mutual

/-- The same value with the keys of every object in order. -/
def sorted : Json F → Json F
  | .arr items => .arr (sortedItems items)
  | .obj fields => .obj ((sortedFields fields).insertionSort fun left right => left.1 ≤ right.1)
  | .null => .null
  | .bool value => .bool value
  | .int value => .int value
  | .float value => .float value
  | .str value => .str value

def sortedItems : List (Json F) → List (Json F)
  | [] => []
  | item :: rest => sorted item :: sortedItems rest

def sortedFields : List (List Char × Json F) → List (List Char × Json F)
  | [] => []
  | (key, value) :: rest => (key, sorted value) :: sortedFields rest

end

/-- No object repeats a key, and every number with a fraction is one of those named. -/
inductive Formed (numbers : F → Prop) : Json F → Prop where
  | null : Formed numbers .null
  | bool (value : Bool) : Formed numbers (.bool value)
  | int (value : Int) : Formed numbers (.int value)
  | float {value : F} (number : numbers value) : Formed numbers (.float value)
  | str (value : List Char) : Formed numbers (.str value)
  | arr {items : List (Json F)} (each : ∀ item ∈ items, Formed numbers item) :
      Formed numbers (.arr items)
  | obj {fields : List (List Char × Json F)} (distinct : (fields.map Prod.fst).Nodup)
      (each : ∀ field ∈ fields, Formed numbers field.2) : Formed numbers (.obj fields)

theorem sortedItems_eq_map (items : List (Json F)) : sortedItems items = items.map sorted := by
  induction items with
  | nil => rfl
  | cons item rest ih => rw [sortedItems, ih, List.map_cons]

theorem sortedFields_eq_map (fields : List (List Char × Json F)) :
    sortedFields fields = fields.map fun field => (field.1, field.2.sorted) := by
  induction fields with
  | nil => rfl
  | cons field rest ih => rw [sortedFields, ih, List.map_cons]

theorem dumpItems_eq_map (floatText : F → List Char) (items : List (Json F)) :
    dumpItems floatText items = items.map (dumps floatText) := by
  induction items with
  | nil => rfl
  | cons item rest ih => rw [dumpItems, ih, List.map_cons]

theorem dumpFields_eq_map (floatText : F → List Char) (fields : List (List Char × Json F)) :
    dumpFields floatText fields = fields.map fun field => (field.1, dumps floatText field.2) := by
  induction fields with
  | nil => rfl
  | cons field rest ih => rw [dumpFields, ih, List.map_cons]

/-- The fields of an object in the order in which they are written. -/
def ordered (fields : List (List Char × Json F)) : List (List Char × Json F) :=
  fields.insertionSort fun left right => left.1 ≤ right.1

theorem mem_ordered {fields : List (List Char × Json F)} {field : List Char × Json F} :
    field ∈ ordered fields ↔ field ∈ fields := List.mem_insertionSort _

theorem ordered_keys_nodup {fields : List (List Char × Json F)}
    (distinct : (fields.map Prod.fst).Nodup) : ((ordered fields).map Prod.fst).Nodup :=
  ((List.perm_insertionSort _ fields).map Prod.fst).nodup_iff.mpr distinct

/-- Sorting by key commutes with a change of the values. -/
theorem insertionSort_mapValues {α β : Type} (change : α → β) (fields : List (List Char × α)) :
    (fields.map fun field => (field.1, change field.2)).insertionSort
      (fun left right => left.1 ≤ right.1) =
      (fields.insertionSort fun left right => left.1 ≤ right.1).map
        fun field => (field.1, change field.2) :=
  (List.map_insertionSort (fun left right => left.1 ≤ right.1) (fun left right => left.1 ≤ right.1)
    (fun field : List Char × α => (field.1, change field.2)) fields fun _ _ _ _ => Iff.rfl).symm

theorem sorted_obj (fields : List (List Char × Json F)) :
    sorted (.obj fields) = .obj ((ordered fields).map fun field => (field.1, field.2.sorted)) := by
  rw [sorted, sortedFields_eq_map, insertionSort_mapValues, ordered]

theorem sorted_arr (items : List (Json F)) : sorted (.arr items) = .arr (items.map sorted) := by
  rw [sorted, sortedItems_eq_map]

theorem dumps_obj (floatText : F → List Char) (fields : List (List Char × Json F)) :
    dumps floatText (.obj fields) =
      '{' :: (joinComma ((ordered fields).map fun field => dumpField
        (field.1, dumps floatText field.2)) ++ ['}']) := by
  rw [dumps, dumpFields_eq_map, insertionSort_mapValues, List.map_map, ordered]
  rfl

theorem dumps_arr (floatText : F → List Char) (items : List (Json F)) :
    dumps floatText (.arr items) = '[' :: (joinComma (items.map (dumps floatText)) ++ [']']) := by
  rw [dumps, dumpItems_eq_map]

/-- The text of a value does not start with a blank or a closing bracket. -/
def StartsValue (text : List Char) : Prop :=
  ∃ first rest, text = first :: rest ∧ first ∉ [' ', '\t', '\n', '\r', ']', '}']

theorem StartsValue.skipSpace {text : List Char} (starts : StartsValue text) (rest : List Char) :
    Json.skipSpace (text ++ rest) = text ++ rest := by
  obtain ⟨first, tail, rfl, other⟩ := starts
  simp only [List.mem_cons, not_or] at other
  simp [Json.skipSpace, other]

theorem StartsValue.head_ne {text : List Char} (starts : StartsValue text) (rest : List Char) :
    (text ++ rest).head? ≠ some ']' ∧ (text ++ rest).head? ≠ some '}' := by
  obtain ⟨first, tail, rfl, outside⟩ := starts
  simp only [List.mem_cons, List.not_mem_nil, or_false, not_or] at outside
  simp [outside]

theorem numberText_starts {number : NumberText} (formed : number.WellFormed) :
    ∃ first rest, number.text = first :: rest ∧ (first = '-' ∨ isDigit first = true) := by
  rcases formed.whole with single | ⟨first, tail, split, -⟩
  · cases sign : number.negative with
    | true => exact ⟨'-', _, by rw [NumberText.text, sign]; rfl, .inl rfl⟩
    | false => exact ⟨'0', _, by rw [NumberText.text, sign, single]; rfl, .inr (by decide)⟩
  · cases sign : number.negative with
    | true => exact ⟨'-', _, by rw [NumberText.text, sign]; rfl, .inl rfl⟩
    | false => exact ⟨first, _, by rw [NumberText.text, sign, split]; rfl,
      .inr (formed.wholeDigits first (by simp [split]))⟩

theorem numberText_startsValue {number : NumberText} (formed : number.WellFormed) :
    ∃ first rest, number.text = first :: rest ∧
      first ∉ [' ', '\t', '\n', '\r', ']', '}', '"', '{', '['] := by
  obtain ⟨first, rest, split, form⟩ := numberText_starts formed
  refine ⟨first, rest, split, ?_⟩
  rcases form with rfl | digit
  · decide
  · exact isDigit_not_mem digit (by decide)

section RoundTrip

variable (format : FloatFormat F)

/-- The text of a value in the client's format. -/
def dumped (value : Json F) : List Char := dumps format.text value

theorem dumped_starts {value : Json F} (formed : Formed format.Faithful value) :
    StartsValue (dumped format value) := by
  have weaker : ∀ char, char ∉ [' ', '\t', '\n', '\r', ']', '}', '"', '{', '['] →
      char ∉ [' ', '\t', '\n', '\r', ']', '}'] := by
    intro char outside inside
    exact outside (by simp only [List.mem_cons, List.not_mem_nil, or_false] at inside ⊢; tauto)
  cases formed with
  | null => exact ⟨'n', _, rfl, by decide⟩
  | bool value => cases value <;> exact ⟨_, _, rfl, by decide⟩
  | int value =>
      obtain ⟨first, rest, split, outside⟩ :=
        numberText_startsValue (NumberText.ofNat_wellFormed (decide (value < 0)) value.natAbs)
      exact ⟨first, rest, by rw [dumped, dumps, dumpInt_eq_text, split], weaker first outside⟩
  | float number =>
      obtain ⟨number, text, wellFormed, -, -⟩ := number
      obtain ⟨first, rest, split, outside⟩ := numberText_startsValue wellFormed
      exact ⟨first, rest, by rw [dumped, dumps, text, split], weaker first outside⟩
  | str value => exact ⟨'"', _, rfl, by decide⟩
  | arr each => exact ⟨'[', _, by rw [dumped, dumps], by decide⟩
  | obj distinct each => exact ⟨'{', _, by rw [dumped, dumps], by decide⟩

/-- The value is read back from its text, whatever follows it. -/
def ReadsBack (value : Json F) : Prop :=
  ∀ fuel rest, (dumped format value).length ≤ fuel → EndsNumber rest →
    parseValue format fuel (dumped format value ++ rest) = some (value.sorted, rest)

theorem parseValue_number {fuel : Nat} {number : NumberText} {rest : List Char}
    (formed : number.WellFormed) (enough : number.text.length ≤ fuel) (stops : EndsNumber rest) :
    parseValue format fuel (number.text ++ rest) =
      some (if number.isInteger then .int number.intValue
        else .float (format.ofNumber number), rest) := by
  have scalar := parseScalar_number format formed stops
  obtain ⟨first, tail, split, outside⟩ := numberText_startsValue formed
  simp only [List.mem_cons, List.not_mem_nil, or_false, not_or] at outside
  obtain ⟨-, -, -, -, -, -, quote, brace, bracket⟩ := outside
  rw [split] at enough scalar ⊢
  cases fuel with
  | zero => simp at enough
  | succ fuel =>
      rw [parseValue]
      simp only [List.cons_append, List.head?_cons, Option.some.injEq, quote,
        brace, bracket, if_false]
      exact scalar

theorem endsNumber_cons {first : Char} {rest : List Char}
    (other : first = ',' ∨ first = ']' ∨ first = '}') :
    EndsNumber (first :: rest) := by
  intro char head
  have same : first = char := by simpa using head
  subst same
  rcases other with rfl | rfl | rfl <;> decide

theorem StartsValue.joinComma {text : List Char} (starts : StartsValue text)
    (more : List (List Char)) :
    StartsValue (Json.joinComma (text :: more)) := by
  obtain ⟨first, rest, rfl, outside⟩ := starts
  cases more with
  | nil => exact ⟨first, rest, rfl, outside⟩
  | cons second others =>
      exact ⟨first, rest ++ ',' :: Json.joinComma (second :: others), rfl, outside⟩

section Loops

variable {fuel : Nat} {input rest : List Char} {item : Json F}

theorem parseItems_last (read : parseValue format fuel input = some (item, ']' :: rest)) :
    parseItems format (fuel + 1) input = some ([item], rest) := by
  simp [parseItems, read, skipSpace]

theorem parseItems_more {more : List (Json F)} {remaining : List Char}
    (read : parseValue format fuel input = some (item, ',' :: rest))
    (unspaced : skipSpace rest = rest)
    (continued : parseItems format fuel rest = some (more, remaining)) :
    parseItems format (fuel + 1) input = some (item :: more, remaining) := by
  have comma : skipSpace (',' :: rest) = ',' :: rest := rfl
  simp [parseItems, read, comma, expect, unspaced, continued]

variable {key : List Char} {fields : List (List Char × Json F)}

theorem parseMembers_last {text : List Char} (starts : StartsValue text)
    (read : parseValue format fuel (text ++ '}' :: rest) = some (item, '}' :: rest)) :
    parseMembers format (fuel + 1) (dumpField (key, text) ++ '}' :: rest) fields =
      some (setEntry key item fields, rest) := by
  have colon : ∀ tail, skipSpace (':' :: tail) = ':' :: tail := fun _ => rfl
  have brace : skipSpace ('}' :: rest) = '}' :: rest := rfl
  have named := parseText_dumpString key (':' :: (text ++ '}' :: rest))
  simp [parseMembers, dumpField, named, colon, brace, expect, starts.skipSpace, read]

theorem parseMembers_more {text : List Char} {found : List (List Char × Json F)}
    {remaining : List Char} (starts : StartsValue text)
    (read : parseValue format fuel (text ++ ',' :: rest) = some (item, ',' :: rest))
    (unspaced : skipSpace rest = rest)
    (continued : parseMembers format fuel rest (setEntry key item fields) = some
      (found, remaining)) :
    parseMembers format (fuel + 1) (dumpField (key, text) ++ ',' :: rest) fields = some
      (found, remaining) := by
  have colon : ∀ tail, skipSpace (':' :: tail) = ':' :: tail := fun _ => rfl
  have comma : skipSpace (',' :: rest) = ',' :: rest := rfl
  have named := parseText_dumpString key (':' :: (text ++ ',' :: rest))
  simp [parseMembers, dumpField, named, colon, comma, expect, starts.skipSpace, read,
    unspaced, continued]

end Loops

theorem parseItems_dumped {items : List (Json F)} (notEmpty : items ≠ [])
    (formed : ∀ item ∈ items, Formed format.Faithful item)
    (each : ∀ item ∈ items, ReadsBack format item) (fuel : Nat) (rest : List Char)
    (enough : (joinComma (items.map (dumped format))).length < fuel) :
    parseItems format fuel (joinComma (items.map (dumped format)) ++ ']' :: rest) = some
      (items.map sorted, rest) := by
  induction items generalizing fuel with
  | nil => exact absurd rfl notEmpty
  | cons item more ih =>
      cases fuel with
      | zero => simp at enough
      | succ fuel =>
          have itemReads := each item (List.mem_cons_self ..)
          cases more with
          | nil =>
              simp only [List.map_cons, List.map_nil, joinComma] at enough ⊢
              exact parseItems_last format
                (itemReads fuel _ (by omega) (endsNumber_cons (.inr (.inl rfl))))
          | cons second others =>
              have starts : StartsValue (joinComma ((second :: others).map (dumped format))) := by
                rw [List.map_cons]
                exact (dumped_starts format (formed second (by simp))).joinComma _
              simp only [List.map_cons, joinComma, List.length_append,
                List.length_cons] at enough starts ⊢
              have continued :=
                ih (by simp) (fun other member => formed other (List.mem_cons_of_mem _ member))
                (fun other member => each other (List.mem_cons_of_mem _ member)) fuel
                (by simp only [List.map_cons]; omega)
              rw [List.append_assoc, List.cons_append]
              exact parseItems_more format
                (itemReads fuel _ (by omega) (endsNumber_cons (.inl rfl)))
                (starts.skipSpace _) continued

/-- The fields that the text of the members gives back. -/
def readFields (fields : List (List Char × Json F)) : List (List Char × Json F) :=
  fields.map fun field => (field.1, field.2.sorted)

theorem parseMembers_dumped {fields : List (List Char × Json F)} (notEmpty : fields ≠ [])
    (formed : ∀ field ∈ fields, Formed format.Faithful field.2)
    (each : ∀ field ∈ fields, ReadsBack format field.2) (before : List (List Char × Json F))
    (distinct : ((before ++ fields).map Prod.fst).Nodup) (fuel : Nat) (rest : List Char)
    (enough : (joinComma
      (fields.map fun field => dumpField (field.1, dumped format field.2))).length < fuel) :
    parseMembers format fuel
        (joinComma (fields.map fun field => dumpField (field.1, dumped format field.2)) ++
          '}' :: rest) before =
      some (before ++ readFields fields, rest) := by
  induction fields generalizing fuel before with
  | nil => exact absurd rfl notEmpty
  | cons field more ih =>
      obtain ⟨key, value⟩ := field
      have valueReads : ReadsBack format value := each (key, value) (List.mem_cons_self ..)
      have starts := dumped_starts format (formed (key, value) (List.mem_cons_self ..))
      have fresh : key ∉ before.map Prod.fst := by
        rw [List.map_append, List.map_cons] at distinct
        exact fun member => (List.nodup_append.mp distinct).2.2 key member key (by simp) rfl
      have extended : setEntry key value.sorted before = before ++ [(key, value.sorted)] :=
        setEntry_of_not_mem fresh
      cases fuel with
      | zero => simp at enough
      | succ fuel =>
          have longer : (dumped format value).length <
              (dumpField (key, dumped format value)).length := by
            simp only [dumpField, List.length_append, List.length_cons]
            omega
          cases more with
          | nil =>
              simp only [List.map_cons, List.map_nil, joinComma] at enough ⊢
              rw [parseMembers_last format starts
                (valueReads fuel _ (by omega) (endsNumber_cons (.inr (.inr rfl)))), extended]
              rfl
          | cons second others =>
              have nextStarts : StartsValue
                  (joinComma ((second :: others).map fun field => dumpField
                    (field.1, dumped format field.2))) := by
                rw [List.map_cons]
                exact StartsValue.joinComma ⟨'"', _, rfl, by decide⟩ _
              simp only [List.map_cons, joinComma, List.length_append,
                List.length_cons] at enough nextStarts ⊢
              have continued :=
                ih (by simp) (fun other member => formed other (List.mem_cons_of_mem _ member))
                (fun other member => each other (List.mem_cons_of_mem _ member))
                  (before ++ [(key, value.sorted)])
                (by simpa using distinct) fuel (by simp only [List.map_cons]; omega)
              rw [List.append_assoc, List.cons_append]
              rw [parseMembers_more format starts
                (valueReads fuel _ (by omega) (endsNumber_cons (.inl rfl)))
                (nextStarts.skipSpace _) (by rw [extended]; exact continued)]
              simp [readFields]

/-- Every canonical text is read back. -/
theorem readsBack_of_formed {value : Json F} (formed : Formed format.Faithful value) :
    ReadsBack format value := by
  induction formed with
  | null =>
      intro fuel rest enough stops
      cases fuel with
      | zero => simp [dumped, dumps] at enough
      | succ fuel => rfl
  | bool value =>
      intro fuel rest enough stops
      cases fuel with
      | zero => cases value <;> simp [dumped, dumps] at enough
      | succ fuel => cases value <;> rfl
  | int value =>
      intro fuel rest enough stops
      rw [dumped, dumps, dumpInt_eq_text] at enough ⊢
      rw [parseValue_number format (NumberText.ofNat_wellFormed ..) enough stops, intValue_ofNat]
      rfl
  | float number =>
      intro fuel rest enough stops
      obtain ⟨number, text, wellFormed, fractional, reads⟩ := number
      rw [dumped, dumps, text] at enough ⊢
      rw [parseValue_number format wellFormed enough stops, fractional, reads]
      rfl
  | str value =>
      intro fuel rest enough stops
      cases fuel with
      | zero => simp [dumped, dumps, dumpString] at enough
      | succ fuel =>
          have read := parseText_dumpString value rest
          have head : (dumpString value ++ rest).head? = some '"' := rfl
          rw [dumped, dumps, parseValue, if_pos head, read]
          rfl
  | @arr items each ih =>
      intro fuel rest enough stops
      rw [dumped, dumps_arr] at enough ⊢
      rw [sorted_arr]
      cases fuel with
      | zero => simp at enough
      | succ fuel =>
          rw [parseValue]
          cases items with
          | nil => rfl
          | cons item more =>
              have starts := (dumped_starts format (each item (List.mem_cons_self ..))).joinComma
                (more.map (dumped format))
              have read := parseItems_dumped format (by simp) each ih fuel rest (by
                simp only [List.length_cons, List.length_append, List.length_nil] at enough
                exact Nat.lt_of_succ_le (Nat.le_of_succ_le_succ enough))
              have unspaced := starts.skipSpace (']' :: rest)
              have open_ := (starts.head_ne (']' :: rest)).1
              simp only [List.cons_append, List.append_assoc, List.nil_append,
                List.head?_cons, Option.some.injEq,
                Char.reduceEq, if_false, if_true, List.tail_cons, List.map_cons] at read ⊢
              change (if (skipSpace (joinComma (dumped format item :: more.map (dumped format)) ++
                ']' :: rest)).head? = some ']'
                then _ else Option.map _ (parseItems format fuel
                  (skipSpace (joinComma (dumped format item :: more.map (dumped format)) ++
                    ']' :: rest)))) = _
              rw [unspaced, if_neg open_, read]
              rfl
  | @obj fields distinct each ih =>
      intro fuel rest enough stops
      rw [dumped, dumps_obj] at enough ⊢
      rw [sorted_obj]
      have eachOrdered : ∀ field ∈ ordered fields, Formed format.Faithful field.2 :=
        fun field member => each field (mem_ordered.mp member)
      have readOrdered : ∀ field ∈ ordered fields, ReadsBack format field.2 :=
        fun field member => ih field (mem_ordered.mp member)
      have distinctOrdered := ordered_keys_nodup distinct
      generalize ordered fields = members at enough eachOrdered readOrdered distinctOrdered
      cases fuel with
      | zero => simp at enough
      | succ fuel =>
          rw [parseValue]
          cases members with
          | nil => rfl
          | cons field more =>
              have starts : StartsValue
                  (joinComma ((field :: more).map fun field => dumpField
                    (field.1, dumped format field.2))) := by
                rw [List.map_cons]
                exact StartsValue.joinComma ⟨'"', _, rfl, by decide⟩ _
              have read := parseMembers_dumped format (by simp) eachOrdered readOrdered []
                (by simpa using distinctOrdered) fuel rest (by
                simp only [List.length_cons, List.length_append, List.length_nil] at enough
                exact Nat.lt_of_succ_le (Nat.le_of_succ_le_succ enough))
              have unspaced := starts.skipSpace ('}' :: rest)
              have open_ := (starts.head_ne ('}' :: rest)).2
              simp only [List.cons_append, List.append_assoc, List.nil_append,
                List.head?_cons, Option.some.injEq,
                Char.reduceEq, if_false, if_true, List.tail_cons]
              change (if (skipSpace
                (joinComma ((field :: more).map fun field => dumpField
                  (field.1, dumped format field.2)) ++ '}' :: rest)).head? = some '}'
                then _ else Option.map _ (parseMembers format fuel
                  (skipSpace (joinComma ((field :: more).map fun field => dumpField
                    (field.1, dumped format field.2)) ++ '}' :: rest))
                  [])) = _
              rw [unspaced, if_neg open_, read]
              rfl

/-- `json.loads(json.dumps(value))`, up to the order of the keys. -/
theorem loads_dumped {value : Json F} (formed : Formed format.Faithful value) :
    loads format (dumped format value) = some value.sorted := by
  have unspaced := (dumped_starts format formed).skipSpace []
  have read := readsBack_of_formed format formed ((dumped format value).length + 1) []
    (Nat.le_succ _) (by simp [EndsNumber])
  rw [List.append_nil] at unspaced read
  rw [loads, unspaced, read]
  rfl

end RoundTrip

theorem induct {motive : Json F → Prop} (null : motive .null) (bool : ∀ value, motive (.bool value))
    (int : ∀ value, motive (.int value)) (float : ∀ value, motive (.float value))
    (str : ∀ value, motive (.str value))
    (arr : ∀ items, (∀ item ∈ items, motive item) → motive (.arr items))
    (obj : ∀ fields, (∀ field ∈ fields, motive field.2) → motive (.obj fields)) :
    ∀ value, motive value
  | .null => null
  | .bool value => bool value
  | .int value => int value
  | .float value => float value
  | .str value => str value
  | .arr items => arr items fun item _ => induct null bool int float str arr obj item
  | .obj fields => obj fields fun field _ => induct null bool int float str arr obj field.2
termination_by value => sizeOf value
decreasing_by
  · have smaller := List.sizeOf_lt_of_mem ‹item ∈ items›
    simp only [Json.arr.sizeOf_spec]
    omega
  · have smaller := List.sizeOf_lt_of_mem ‹field ∈ fields›
    obtain ⟨key, value⟩ := field
    simp only [Json.obj.sizeOf_spec, Prod.mk.sizeOf_spec] at smaller ⊢
    omega

theorem ordered_sorted (fields : List (List Char × Json F)) :
    ordered (readFields (ordered fields)) = readFields (ordered fields) := by
  apply List.Pairwise.insertionSort_eq
  exact (List.pairwise_insertionSort
    (fun left right : List Char × Json F => left.1 ≤ right.1) fields).map _ fun _ _ order => order

theorem sorted_sorted (value : Json F) : value.sorted.sorted = value.sorted := by
  induction value using induct with
  | null | bool | int | float | str => rfl
  | arr items ih =>
      simp only [sorted_arr, List.map_map, Json.arr.injEq]
      exact List.map_congr_left fun item member => ih item member
  | obj fields ih =>
      rw [sorted_obj, sorted_obj]
      have again := ordered_sorted fields
      rw [readFields] at again
      rw [again, List.map_map, Json.obj.injEq]
      exact List.map_congr_left fun field member =>
        congrArg (Prod.mk field.1) (ih field (mem_ordered.mp member))

/-- The canonical text does not depend on the order of keys. -/
theorem dumps_sorted (floatText : F → List Char) (value : Json F) :
    dumps floatText value.sorted = dumps floatText value := by
  induction value using induct with
  | null | bool | int | float | str => rfl
  | arr items ih =>
      have same : items.map (dumps floatText ∘ sorted) = items.map (dumps floatText) :=
        List.map_congr_left fun item member => ih item member
      rw [sorted_arr, dumps_arr, dumps_arr, List.map_map, same]
  | obj fields ih =>
      have again := ordered_sorted fields
      rw [readFields] at again
      rw [sorted_obj, dumps_obj, dumps_obj, again, List.map_map]
      have same : (ordered fields).map
          (fun field => dumpField (field.1, dumps floatText field.2.sorted)) =
          (ordered fields).map fun field => dumpField (field.1, dumps floatText field.2) :=
        List.map_congr_left fun field member =>
          congrArg (fun text => dumpField (field.1, text)) (ih field (mem_ordered.mp member))
      exact congrArg (fun texts => '{' :: (joinComma texts ++ ['}'])) same

theorem readFields_keys_nodup {fields : List (List Char × Json F)}
    (distinct : (fields.map Prod.fst).Nodup) :
    ((readFields (ordered fields)).map Prod.fst).Nodup := by
  rw [readFields, List.map_map]
  exact ordered_keys_nodup distinct

/-- A key is found in the sorted object exactly as in the object. -/
theorem lookup_readFields {fields : List (List Char × Json F)}
    (distinct : (fields.map Prod.fst).Nodup) (key : List Char) :
    (readFields (ordered fields)).lookup key = (fields.lookup key).map sorted := by
  cases found : fields.lookup key with
  | some value =>
      have member := (lookup_eq_some_iff_mem distinct).mp found
      rw [Option.map_some, lookup_eq_some_iff_mem (readFields_keys_nodup distinct), readFields]
      exact List.mem_map.mpr ⟨(key, value), mem_ordered.mpr member, rfl⟩
  | none =>
      cases other : (readFields (ordered fields)).lookup key with
      | none => rfl
      | some value =>
          have member := (lookup_eq_some_iff_mem (readFields_keys_nodup distinct)).mp other
          obtain ⟨field, inside, same⟩ := List.mem_map.mp member
          have present : (key, field.2) ∈ fields := by
            have named : field.1 = key := congrArg Prod.fst same
            rw [← named]
            exact mem_ordered.mp inside
          rw [(lookup_eq_some_iff_mem distinct).mpr present] at found
          cases found

mutual

def same [DecidableEq F] : Json F → Json F → Bool
  | .null, .null => true
  | .bool left, .bool right => decide (left = right)
  | .int left, .int right => decide (left = right)
  | .float left, .float right => decide (left = right)
  | .str left, .str right => decide (left = right)
  | .arr left, .arr right => sameItems left right
  | .obj left, .obj right => sameFields left right
  | _, _ => false

def sameItems [DecidableEq F] : List (Json F) → List (Json F) → Bool
  | [], [] => true
  | left :: lefts, right :: rights => same left right && sameItems lefts rights
  | _, _ => false

def sameFields [DecidableEq F] : List (List Char × Json F) → List (List Char × Json F) → Bool
  | [], [] => true
  | (leftKey, left) :: lefts, (rightKey, right) :: rights =>
      decide (leftKey = rightKey) && same left right && sameFields lefts rights
  | _, _ => false

end

theorem same_iff [DecidableEq F] (left right : Json F) : same left right = true ↔ left = right := by
  induction left using induct generalizing right with
  | null | bool | int | float | str => cases right <;> simp [same]
  | arr items ih =>
      have each : ∀ others, sameItems items others = true ↔ items = others := by
        induction items with
        | nil => intro others; cases others <;> simp [sameItems]
        | cons item rest tail =>
            intro others
            cases others with
            | nil => simp [sameItems]
            | cons other more =>
                have here := ih item (List.mem_cons_self ..) other
                have later := tail (fun item member => ih item (List.mem_cons_of_mem _ member)) more
                simp [sameItems, here, later]
      cases right <;> simp [same, each]
  | obj fields ih =>
      have each : ∀ others, sameFields fields others = true ↔ fields = others := by
        induction fields with
        | nil => intro others; cases others <;> simp [sameFields]
        | cons field rest tail =>
            intro others
            cases others with
            | nil => simp [sameFields]
            | cons other more =>
                have here := ih field (List.mem_cons_self ..) other.2
                have later := tail (fun item member => ih item (List.mem_cons_of_mem _ member)) more
                obtain ⟨key, value⟩ := field
                obtain ⟨otherKey, otherValue⟩ := other
                simp [sameFields, here, later, and_assoc]
      cases right <;> simp [same, each]

instance [DecidableEq F] : DecidableEq (Json F) :=
  fun left right => decidable_of_iff _ (same_iff left right)

end Json

end Stopan.Lib
