import LorahamRns.Lib.JsonScan

/-!
# The bytes of a JSON document

`json.loads` takes bytes too: it finds the encoding by the first bytes and decodes
with surrogates let through.  A lone surrogate is read as the replacement character.
-/

namespace LorahamRns.Lib.Json

/-- The six bits of a continuation byte. -/
def tailBits (byte : UInt8) : Option ℕ :=
  if 0x80 ≤ byte ∧ byte ≤ 0xBF then some (byte.toNat - 0x80) else none

/-- The continuation bytes behind a leading byte, in front of the bits it holds. -/
def scanTail : ℕ → ℕ → List UInt8 → Option (ℕ × List UInt8)
  | 0, bits, raw => some (bits, raw)
  | _ + 1, _, [] => none
  | count + 1, bits, byte :: rest => do
      let low ← tailBits byte
      scanTail count (bits * 64 + low) rest

/-- A code of several bytes, in no longer form than it needs. -/
def shortest (least : ℕ) (found : Option (ℕ × List UInt8)) : Option (ℕ × List UInt8) :=
  found.filter fun (code, _) => decide (least ≤ code ∧ code ≤ 0x10FFFF)

/-- The first code of a UTF-8 text. -/
def utf8 : List UInt8 → Option (ℕ × List UInt8)
  | [] => none
  | byte :: rest =>
      if byte ≤ 0x7F then some (byte.toNat, rest)
      else if 0xC0 ≤ byte ∧ byte ≤ 0xDF then shortest 0x80 (scanTail 1 (byte.toNat - 0xC0) rest)
      else if 0xE0 ≤ byte ∧ byte ≤ 0xEF then shortest 0x800 (scanTail 2 (byte.toNat - 0xE0) rest)
      else if 0xF0 ≤ byte ∧ byte ≤ 0xF7 then shortest 0x10000 (scanTail 3 (byte.toNat - 0xF0) rest)
      else none

/-- The first unit, its high byte in front or behind. -/
def utf16 (bigEndian : Bool) : List UInt8 → Option (ℕ × List UInt8)
  | first :: second :: rest =>
      some (if bigEndian then first.toNat * 256 + second.toNat
        else second.toNat * 256 + first.toNat, rest)
  | _ => none

def utf32 (bigEndian : Bool) : List UInt8 → Option (ℕ × List UInt8)
  | a :: b :: c :: d :: rest =>
      let code :=
        if bigEndian then ((a.toNat * 256 + b.toNat) * 256 + c.toNat) * 256 + d.toNat
        else ((d.toNat * 256 + c.toNat) * 256 + b.toNat) * 256 + a.toNat
      if code ≤ 0x10FFFF then some (code, rest) else none
  | _ => none

/-- One code after the other; there are no more codes than bytes. -/
def decodeAll (next : List UInt8 → Option (ℕ × List UInt8)) :
    ℕ → List UInt8 → Option (List ℕ)
  | _, [] => some []
  | 0, _ :: _ => none
  | fuel + 1, raw => do
      let (code, rest) ← next raw
      let codes ← decodeAll next fuel rest
      some (code :: codes)

inductive Encoding where
  | utf8
  | utf16 (bigEndian : Bool)
  | utf32 (bigEndian : Bool)
  deriving DecidableEq

/-- The encoding of bytes without a byte order mark, by their zeros. -/
def guessEncoding : List UInt8 → Encoding
  | a :: b :: c :: d :: _ =>
      if a = 0 then (if b = 0 then .utf32 true else .utf16 true)
      else if b = 0 then (if c = 0 ∧ d = 0 then .utf32 false else .utf16 false)
      else .utf8
  | [a, b] => if a = 0 then .utf16 true else if b = 0 then .utf16 false else .utf8
  | _ => .utf8

/-- `detect_encoding`, with the bytes behind a byte order mark. -/
def detectEncoding (raw : List UInt8) : Encoding × List UInt8 :=
  if [0x00, 0x00, 0xFE, 0xFF].isPrefixOf raw then (.utf32 true, raw.drop 4)
  else if [0xFF, 0xFE, 0x00, 0x00].isPrefixOf raw then (.utf32 false, raw.drop 4)
  else if [0xFE, 0xFF].isPrefixOf raw then (.utf16 true, raw.drop 2)
  else if [0xFF, 0xFE].isPrefixOf raw then (.utf16 false, raw.drop 2)
  else if [0xEF, 0xBB, 0xBF].isPrefixOf raw then (.utf8, raw.drop 3)
  else (guessEncoding raw, raw)

/-- `bytes.decode`, `none` where it raises. -/
def decode (raw : List UInt8) : Option (List Char) :=
  let (encoding, body) := detectEncoding raw
  match encoding with
  | .utf8 => (decodeAll utf8 body.length body).map (List.map charOf)
  | .utf16 bigEndian => (decodeAll (utf16 bigEndian) body.length body).map joinCodes
  | .utf32 bigEndian => (decodeAll (utf32 bigEndian) body.length body).map (List.map charOf)

/-! ## Decoding with replacement -/

/-- How many continuation bytes a leading byte announces, and between which bounds the
first of them lies; none for a byte that leads nothing. -/
def announced (byte : UInt8) : Option (ℕ × UInt8 × UInt8) :=
  if 0xC2 ≤ byte ∧ byte ≤ 0xDF then some (1, 0x80, 0xBF)
  else if byte = 0xE0 then some (2, 0xA0, 0xBF)
  else if byte = 0xED then some (2, 0x80, 0x9F)
  else if 0xE1 ≤ byte ∧ byte ≤ 0xEF then some (2, 0x80, 0xBF)
  else if byte = 0xF0 then some (3, 0x90, 0xBF)
  else if byte = 0xF4 then some (3, 0x80, 0x8F)
  else if 0xF1 ≤ byte ∧ byte ≤ 0xF3 then some (3, 0x80, 0xBF)
  else none

/-- The continuation bytes that are there, up to the announced number. -/
def continuation (count : ℕ) (low high : UInt8) : List UInt8 → List UInt8
  | [] => []
  | second :: rest =>
      if low ≤ second ∧ second ≤ high then
        second :: ((rest.take (count - 1)).takeWhile fun byte => 0x80 ≤ byte ∧ byte ≤ 0xBF)
      else []

/-- The bits of a leading byte that announces so many others. -/
def leadBits (count : ℕ) (byte : UInt8) : ℕ := byte.toNat % 2 ^ (6 - count)

/-- `bytes.decode("utf-8", "replace")`: the part of a sequence that is there becomes one
replacement character where the rest is missing. -/
def decodeReplace : ℕ → List UInt8 → List Char
  | 0, _ => []
  | _ + 1, [] => []
  | fuel + 1, byte :: rest =>
      if byte ≤ 0x7F then charOf byte.toNat :: decodeReplace fuel rest
      else match announced byte with
        | none => charOf 0xFFFD :: decodeReplace fuel rest
        | some (count, low, high) =>
            let tail := continuation count low high rest
            let code := tail.foldl (fun bits byte => bits * 64 + byte.toNat % 64)
              (leadBits count byte)
            (if tail.length = count then charOf code else charOf 0xFFFD) ::
              decodeReplace fuel (rest.drop tail.length)

example : decodeReplace 7 [0x41, 0xE2, 0x82, 0xAC, 0xE2, 0x82, 0x42] =
    ['A', '€', Char.ofNat 0xFFFD, 'B'] := by
  decide +kernel

/-! ## Long integers -/

/-- The digits `int()` takes at most. -/
def maxDigits : ℕ := 4300

mutual

/-- No integer of the document has more digits than `int()` takes. -/
def digitsFit : Json → Bool
  | .int value => decide ((Nat.toDigits 10 value.natAbs).length ≤ maxDigits)
  | .arr items => digitsFitItems items
  | .obj fields => digitsFitFields fields
  | _ => true

def digitsFitItems : List Json → Bool
  | [] => true
  | item :: rest => digitsFit item && digitsFitItems rest

def digitsFitFields : List (List Char × Json) → Bool
  | [] => true
  | (_, value) :: rest => digitsFit value && digitsFitFields rest

end

/-- The decoder gets through the integers of the text. -/
def takesIntegers (text : List Char) : Bool := (loads text).all digitsFit

/-! ## A character takes a byte at least -/

/-- ASCII text is its own UTF-8. -/
example : decode [0x7B, 0x22, 0xC3, 0xA9, 0x22, 0x7D] = some ['{', '"', 'é', '"', '}'] := by
  decide

example : decode [0xFF, 0xFE, 0x7B, 0x00] = some ['{'] := by decide

end LorahamRns.Lib.Json
