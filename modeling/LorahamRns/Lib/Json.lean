import LorahamRns.Lib.Decimal

/-!
# JSON values and the text Python writes for them

The value type keeps integers and floats apart, as Python's decoder does.
`dumps` is the encoder with its default settings: `", "` and `": "` between
items, every character outside printable ASCII escaped.
-/

namespace LorahamRns.Lib

/-- Magnitudes from here on round to an infinity. -/
def floatLimit : ℚ := 2 ^ 1024 - 2 ^ 970

theorem floatLimit_gt : 10 ^ 9 < floatLimit := by
  have hsplit : (2 : ℚ) ^ 1024 = 2 ^ 970 * 2 ^ 54 := (pow_add 2 970 54)
  have hlarge : (2 : ℚ) ^ 40 ≤ 2 ^ 970 := pow_le_pow_right₀ (by norm_num) (by norm_num)
  rw [floatLimit, hsplit]
  generalize (2 : ℚ) ^ 970 = scale at hlarge ⊢
  norm_num at hlarge ⊢
  linarith

/-- A Python float in exact arithmetic. -/
inductive PyFloat where
  | finite (value : Decimal) (inRange : |value.val| < floatLimit)
  | infinity (negative : Bool)
  | nan

namespace PyFloat

/-- The float nearest to a decimal: itself, or an infinity beyond the range. -/
def ofDecimal (value : Decimal) : PyFloat :=
  if inRange : |value.val| < floatLimit then .finite value inRange
  else .infinity (decide (value < 0))

/-- The number behind a finite float. -/
def finite? : PyFloat → Option Decimal
  | .finite value _ => some value
  | .infinity _ => none
  | .nan => none

theorem ofDecimal_of_inRange {value : Decimal} (inRange : |value.val| < floatLimit) :
    ofDecimal value = .finite value inRange := dif_pos inRange

@[simp]
theorem finite?_ofDecimal {value : Decimal} (inRange : |value.val| < floatLimit) :
    (ofDecimal value).finite? = some value := by
  rw [ofDecimal_of_inRange inRange]
  rfl

theorem finite?_ofDecimal_of_not {value : Decimal} (beyond : ¬ |value.val| < floatLimit) :
    (ofDecimal value).finite? = none := by
  rw [ofDecimal, dif_neg beyond]
  rfl

def text : PyFloat → List Char
  | .finite value _ => value.text
  | .infinity false => "Infinity".toList
  | .infinity true => "-Infinity".toList
  | .nan => "NaN".toList

@[simp]
theorem text_finite (value : Decimal) (inRange : |value.val| < floatLimit) :
    (finite value inRange).text = value.text := rfl

theorem text_ofDecimal {value : Decimal} (inRange : |value.val| < floatLimit) :
    (ofDecimal value).text = value.text := by
  rw [ofDecimal_of_inRange inRange, text_finite]

end PyFloat

/-- A decoded JSON document.  Objects keep their fields in the order of the
text, repeated keys included. -/
inductive Json where
  | null
  | bool (value : Bool)
  | int (value : ℤ)
  | float (value : PyFloat)
  | str (value : List Char)
  | arr (items : List Json)
  | obj (fields : List (List Char × Json))

namespace Json

/-- `dict.get`: a repeated key keeps its last value. -/
def get? (fields : List (List Char × Json)) (key : List Char) : Option Json :=
  (fields.reverse.find? fun field => field.1 == key).map Prod.snd

/-! ## Encoding -/

def intText (value : ℤ) : List Char :=
  (if value < 0 then ['-'] else []) ++ Nat.toDigits 10 value.natAbs

/-- One hexadecimal digit, lower case. -/
def hexDigit (digit : ℕ) : Char := Nat.digitChar digit

/-- `\uXXXX` for one 16-bit unit. -/
def unitText (unit : ℕ) : List Char :=
  ['\\', 'u', hexDigit (unit / 4096 % 16), hexDigit (unit / 256 % 16),
    hexDigit (unit / 16 % 16), hexDigit (unit % 16)]

/-- A character inside a string: printable ASCII stands for itself, the rest is
escaped, beyond the basic plane as a surrogate pair. -/
def escape (char : Char) : List Char :=
  if char = '"' then ['\\', '"']
  else if char = '\\' then ['\\', '\\']
  else if char = '\n' then ['\\', 'n']
  else if char = '\r' then ['\\', 'r']
  else if char = '\t' then ['\\', 't']
  else if char.toNat = 12 then ['\\', 'f']
  else if char.toNat = 8 then ['\\', 'b']
  else if 32 ≤ char.toNat ∧ char.toNat < 127 then [char]
  else if char.toNat < 0x10000 then unitText char.toNat
  else
    unitText (0xD800 + (char.toNat - 0x10000) / 0x400) ++
      unitText (0xDC00 + (char.toNat - 0x10000) % 0x400)

def stringText (value : List Char) : List Char :=
  '"' :: value.flatMap escape ++ ['"']

mutual

def dumps : Json → List Char
  | .null => "null".toList
  | .bool true => "true".toList
  | .bool false => "false".toList
  | .int value => intText value
  | .float value => value.text
  | .str value => stringText value
  | .arr items => '[' :: dumpsItems items ++ [']']
  | .obj fields => '{' :: dumpsFields fields ++ ['}']

def dumpsItems : List Json → List Char
  | [] => []
  | [item] => dumps item
  | item :: next :: rest => dumps item ++ ',' :: ' ' :: dumpsItems (next :: rest)

def dumpsFields : List (List Char × Json) → List Char
  | [] => []
  | [(key, value)] => stringText key ++ ':' :: ' ' :: dumps value
  | (key, value) :: next :: rest =>
      stringText key ++ ':' :: ' ' :: dumps value ++ ',' :: ' ' :: dumpsFields (next :: rest)

end

end Json

end LorahamRns.Lib
