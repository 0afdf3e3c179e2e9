import Mathlib

namespace Stopan.Lib

inductive Json (F : Type) where
  | null
  | bool (value : Bool)
  | int (value : Int)
  | float (value : F)
  | str (value : List Char)
  | arr (items : List (Json F))
  | obj (fields : List (List Char × Json F))

namespace Json

variable {F : Type}

def hexDigitChar (value : Nat) : Char :=
  ['0', '1', '2', '3', '4', '5', '6', '7', '8', '9', 'a', 'b', 'c', 'd', 'e', 'f'].getD value '0'

/-- The text of one character inside a string literal. -/
def escapeChar (char : Char) : List Char :=
  if char = '"' then ['\\', '"']
  else if char = '\\' then ['\\', '\\']
  else if char = '\n' then ['\\', 'n']
  else if char = '\r' then ['\\', 'r']
  else if char = '\t' then ['\\', 't']
  else if char = Char.ofNat 0x0c then ['\\', 'f']
  else if char = Char.ofNat 0x08 then ['\\', 'b']
  else if char.toNat < 0x20 then
    ['\\', 'u', '0', '0', hexDigitChar (char.toNat / 16), hexDigitChar (char.toNat % 16)]
  else [char]

def dumpString (value : List Char) : List Char :=
  '"' :: (value.flatMap escapeChar ++ ['"'])

def dumpInt : Int → List Char
  | .ofNat value => Nat.toDigits 10 value
  | .negSucc value => '-' :: Nat.toDigits 10 (value + 1)

def joinComma : List (List Char) → List Char
  | [] => []
  | [text] => text
  | text :: rest => text ++ ',' :: joinComma rest

def dumpField (field : List Char × List Char) : List Char :=
  dumpString field.1 ++ ':' :: field.2

mutual

/-- `json.dumps(value, ensure_ascii=False, sort_keys=True, separators=(",", ":"))`. -/
def dumps (floatText : F → List Char) : Json F → List Char
  | .null => ['n', 'u', 'l', 'l']
  | .bool true => ['t', 'r', 'u', 'e']
  | .bool false => ['f', 'a', 'l', 's', 'e']
  | .int value => dumpInt value
  | .float value => floatText value
  | .str value => dumpString value
  | .arr items => '[' :: (joinComma (dumpItems floatText items) ++ [']'])
  | .obj fields =>
      '{' :: (joinComma (((dumpFields floatText fields).insertionSort
        fun left right => left.1 ≤ right.1).map dumpField) ++ ['}'])

def dumpItems (floatText : F → List Char) : List (Json F) → List (List Char)
  | [] => []
  | item :: rest => dumps floatText item :: dumpItems floatText rest

def dumpFields (floatText : F → List Char) : List (List Char × Json F) →
    List (List Char × List Char)
  | [] => []
  | (key, value) :: rest => (key, dumps floatText value) :: dumpFields floatText rest

end

end Json

end Stopan.Lib
