import LorahamRns.Lib.Json

/-!
# The JSON decoder

`loads` follows Python's scanner: one value between optional blanks, nothing
behind it.  The scanners take fuel; a text never needs more than its length.
Appending input behind a completed value changes neither the value nor what is
left of the original input, which is why no proper prefix of an object's text
is a document.
-/

namespace LorahamRns.Lib.Json

/-! ## Blanks and fixed characters -/

def isBlank (char : Char) : Bool :=
  char == ' ' || char == '\t' || char == '\n' || char == '\r'

def skipBlanks (input : List Char) : List Char := input.dropWhile isBlank

def expect (char : Char) : List Char → Option (List Char)
  | [] => none
  | first :: rest => if first = char then some rest else none

def expectAll : List Char → List Char → Option (List Char)
  | [], input => some input
  | char :: word, input => (expect char input).bind (expectAll word)

/-! ## Numbers -/

/-- `0`, or digits without a leading zero. -/
def scanWhole : List Char → Option (List Char × List Char)
  | [] => none
  | first :: rest =>
      if first = '0' then some (['0'], rest)
      else if first.isDigit then
        some (first :: rest.takeWhile Char.isDigit, rest.dropWhile Char.isDigit)
      else none

def scanFraction (input : List Char) : List Char × List Char :=
  match expect '.' input with
  | none => ([], input)
  | some rest =>
      if (rest.takeWhile Char.isDigit).isEmpty then ([], input)
      else (rest.takeWhile Char.isDigit, rest.dropWhile Char.isDigit)

def scanSign (input : List Char) : Bool × List Char :=
  match expect '-' input with
  | some rest => (true, rest)
  | none => (false, (expect '+' input).getD input)

def scanExponent (input : List Char) : Option (Bool × List Char) × List Char :=
  match (expect 'e' input).or (expect 'E' input) with
  | none => (none, input)
  | some rest =>
      let (negative, digits) := scanSign rest
      if (digits.takeWhile Char.isDigit).isEmpty then (none, input)
      else (some (negative, digits.takeWhile Char.isDigit), digits.dropWhile Char.isDigit)

def scanMinus (input : List Char) : Bool × List Char :=
  match expect '-' input with
  | some rest => (true, rest)
  | none => (false, input)

def scanNumeral (input : List Char) : Option (Decimal.Numeral × List Char) :=
  (scanWhole (scanMinus input).2).map fun (whole, behindWhole) =>
    let (fraction, behindFraction) := scanFraction behindWhole
    let (exponent, rest) := scanExponent behindFraction
    (⟨(scanMinus input).1, whole, fraction, exponent⟩, rest)

/-- `int()` without fraction and exponent, `float()` with either. -/
def ofNumeral (numeral : Decimal.Numeral) : Json :=
  if numeral.isFloat then .float (.ofDecimal numeral.value) else .int numeral.intValue

/-! ## Strings -/

def hexValue (char : Char) : Option ℕ :=
  if '0' ≤ char ∧ char ≤ '9' then some (char.toNat - '0'.toNat)
  else if 'a' ≤ char ∧ char ≤ 'f' then some (char.toNat - 'a'.toNat + 10)
  else if 'A' ≤ char ∧ char ≤ 'F' then some (char.toNat - 'A'.toNat + 10)
  else none

/-- Four hexadecimal digits. -/
def scanUnit : List Char → Option (ℕ × List Char)
  | first :: second :: third :: fourth :: rest => do
      let a ← hexValue first
      let b ← hexValue second
      let c ← hexValue third
      let d ← hexValue fourth
      some (((a * 16 + b) * 16 + c) * 16 + d, rest)
  | _ => none

/-- The 16-bit unit or character code behind a backslash. -/
def scanEscape : List Char → Option (ℕ × List Char)
  | [] => none
  | first :: rest =>
      if first = '"' then some ('"'.toNat, rest)
      else if first = '\\' then some ('\\'.toNat, rest)
      else if first = '/' then some ('/'.toNat, rest)
      else if first = 'b' then some (8, rest)
      else if first = 'f' then some (12, rest)
      else if first = 'n' then some (10, rest)
      else if first = 'r' then some (13, rest)
      else if first = 't' then some (9, rest)
      else if first = 'u' then scanUnit rest
      else none

/-- The codes inside a string and what follows its closing quote. -/
def scanString : ℕ → List Char → Option (List ℕ × List Char)
  | 0, _ => none
  | _ + 1, [] => none
  | fuel + 1, first :: rest =>
      if first = '"' then some ([], rest)
      else if first = '\\' then do
        let (code, behind) ← scanEscape rest
        let (codes, left) ← scanString fuel behind
        some (code :: codes, left)
      else if first.toNat < 32 then none
      else do
        let (codes, left) ← scanString fuel rest
        some (first.toNat :: codes, left)

/-- A lone surrogate is no character; it is read as the replacement character. -/
def charOf (code : ℕ) : Char :=
  if code.isValidChar then Char.ofNat code else Char.ofNat 0xFFFD

def isHigh (code : ℕ) : Bool := decide (0xD800 ≤ code ∧ code ≤ 0xDBFF)

def isLow (code : ℕ) : Bool := decide (0xDC00 ≤ code ∧ code ≤ 0xDFFF)

/-- Codes to characters: a high surrogate joins a low one right behind it. -/
def joinCodes : List ℕ → List Char
  | [] => []
  | [code] => [charOf code]
  | high :: low :: rest =>
      if isHigh high && isLow low then
        charOf (0x10000 + (high - 0xD800) * 0x400 + (low - 0xDC00)) :: joinCodes rest
      else charOf high :: joinCodes (low :: rest)

/-! ## Values -/

/-- The values that are words: what follows the first letter, and the value. -/
def word? (first : Char) : Option (List Char × Json) :=
  if first = 'n' then some ("ull".toList, .null)
  else if first = 't' then some ("rue".toList, .bool true)
  else if first = 'f' then some ("alse".toList, .bool false)
  else if first = 'N' then some ("aN".toList, .float .nan)
  else if first = 'I' then some ("nfinity".toList, .float (.infinity false))
  else none

mutual

def scanValue : ℕ → List Char → Option (Json × List Char)
  | 0, _ => none
  | _ + 1, [] => none
  | fuel + 1, first :: rest =>
      if first = '"' then
        (scanString fuel rest).map fun (codes, left) => (.str (joinCodes codes), left)
      else if first = '{' then
        match expect '}' (skipBlanks rest) with
        | some left => some (.obj [], left)
        | none => (scanFields fuel (skipBlanks rest)).map fun (fields, left) => (.obj fields, left)
      else if first = '[' then
        match expect ']' (skipBlanks rest) with
        | some left => some (.arr [], left)
        | none => (scanItems fuel (skipBlanks rest)).map fun (items, left) => (.arr items, left)
      else match word? first with
      | some (word, value) => (expectAll word rest).map fun left => (value, left)
      | none =>
          match expectAll "-Infinity".toList (first :: rest) with
          | some left => some (.float (.infinity true), left)
          | none =>
              (scanNumeral (first :: rest)).map fun (numeral, left) => (ofNumeral numeral, left)

/-- The items of a non-empty list up to its closing bracket. -/
def scanItems : ℕ → List Char → Option (List Json × List Char)
  | 0, _ => none
  | fuel + 1, input => do
      let (item, behind) ← scanValue fuel input
      match expect ']' (skipBlanks behind) with
      | some left => some ([item], left)
      | none => do
          let next ← expect ',' (skipBlanks behind)
          let (items, left) ← scanItems fuel (skipBlanks next)
          some (item :: items, left)

/-- The fields of a non-empty object up to its closing brace. -/
def scanFields : ℕ → List Char → Option (List (List Char × Json) × List Char)
  | 0, _ => none
  | fuel + 1, input => do
      let start ← expect '"' input
      let (codes, behindKey) ← scanString fuel start
      let colon ← expect ':' (skipBlanks behindKey)
      let (value, behind) ← scanValue fuel (skipBlanks colon)
      match expect '}' (skipBlanks behind) with
      | some left => some ([(joinCodes codes, value)], left)
      | none => do
          let next ← expect ',' (skipBlanks behind)
          let (fields, left) ← scanFields fuel (skipBlanks next)
          some ((joinCodes codes, value) :: fields, left)

end

/-- `json.loads`. -/
def loads (input : List Char) : Option Json := do
  let (value, left) ← scanValue input.length (skipBlanks input)
  if (skipBlanks left).isEmpty then some value else none

end LorahamRns.Lib.Json
