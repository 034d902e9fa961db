import LorahamRns.Lib.JsonRoundTrip
import LorahamRns.Lib.Separated
import LorahamRns.RfLog.Record

/-!
# Reading a record

What a line tells of its packet, and a reader that takes a line for a record only if writing
what it has read gives the line again.
-/

namespace LorahamRns.RfLog

open LorahamRns.Lib
open LorahamRns.Lib.Separated

/-! ## What a line tells -/

/-- A signal value as it is printed, in hundredths; `-0.00` is not `0.00`. -/
structure Signal where
  negative : Bool
  hundredths : ℕ
  deriving DecidableEq

def Signal.of (value : ℚ) : Signal :=
  ⟨value < 0, (Radio.roundHalfEven (|value| * 100)).toNat⟩

def Signal.value (signal : Signal) : ℚ :=
  (if signal.negative then -1 else 1) * (signal.hundredths / 100)

def Signal.text (signal : Signal) : List Char :=
  (if signal.negative then ['-'] else []) ++ decimal (signal.hundredths / 100) ++ ['.'] ++
    padded 2 (signal.hundredths % 100)

inductive Entry where
  | rx (utc : Utc) (rssi snr : Signal) (data : Bytes)
  | tx (utc : Utc) (outcome : Outcome) (data : Bytes)
  deriving DecidableEq

def Request.entry (utc : Utc) : Request → Entry
  | .rx rssi snr data => .rx utc (.of rssi) (.of snr) data
  | .tx outcome data => .tx utc outcome data

def Entry.utc : Entry → Utc
  | .rx utc _ _ _ => utc
  | .tx utc _ _ => utc

def Entry.data : Entry → Bytes
  | .rx _ _ _ data => data
  | .tx _ _ data => data

def Entry.text : Entry → List Char
  | .rx utc rssi snr data =>
      utc.text ++ " RX rssi=".toList ++ rssi.text ++ " snr=".toList ++ snr.text ++
        " len=".toList ++ decimal data.length ++ payloadText data
  | .tx utc outcome data =>
      utc.text ++ " TX rssi=- snr=- len=".toList ++ decimal data.length ++
        " outcome=".toList ++ outcome.text ++ payloadText data

theorem fixed2_eq (value : ℚ) : fixed2 value = (Signal.of value).text := by
  unfold fixed2 Signal.text Signal.of
  simp only [decide_eq_true_eq]

/-- A request's line is that of its entry. -/
theorem Request.text_eq (request : Request) (utc : Utc) :
    request.text utc = (request.entry utc).text := by
  cases request with
  | rx rssi snr data =>
      unfold Request.text
      dsimp only
      rw [fixed2_eq, fixed2_eq]
      rfl
  | tx outcome data => rfl

/-- A printed signal value is off by half a hundredth at most. -/
theorem Signal.value_near (value : ℚ) : |(Signal.of value).value - value| ≤ 1 / 200 := by
  have near := abs_le.mp (Radio.roundHalfEven_near (|value| * 100))
  have magnitude := abs_nonneg value
  have nonneg : 0 ≤ Radio.roundHalfEven (|value| * 100) := by
    by_contra negative
    have : (Radio.roundHalfEven (|value| * 100) : ℚ) ≤ -1 := by exact_mod_cast (by omega)
    linarith
  have cast : (((Radio.roundHalfEven (|value| * 100)).toNat : ℕ) : ℚ) =
      (Radio.roundHalfEven (|value| * 100) : ℤ) := by
    exact_mod_cast Int.toNat_of_nonneg nonneg
  unfold Signal.value Signal.of
  dsimp only
  rw [cast, abs_le]
  by_cases below : value < 0
  · rw [if_pos (by simpa using below)]
    rw [abs_of_neg below] at near ⊢
    constructor <;> linarith
  · rw [if_neg (by simpa using below)]
    rw [abs_of_nonneg (not_lt.mp below)] at near ⊢
    constructor <;> linarith

/-! ## The reader -/

/-- A number in front of a separator. -/
def readNumber (stop : Char) (text : List Char) : Option (ℕ × List Char) :=
  (upTo stop text).bind fun parts => (natural parts.1).map fun number => (number, parts.2)

def readUtc (text : List Char) : Option (Utc × List Char) := do
  let (year, text) ← readNumber '-' text
  let (month, text) ← readNumber '-' text
  let (day, text) ← readNumber 'T' text
  let (hour, text) ← readNumber ':' text
  let (minute, text) ← readNumber ':' text
  let (second, text) ← readNumber '.' text
  let (milli, text) ← readNumber 'Z' text
  some (⟨year, month, day, hour, minute, second, milli⟩, text)

def readSignal (text : List Char) : Option Signal := do
  let (whole, cents) ← upTo '.' (Json.scanMinus text).2
  some ⟨(Json.scanMinus text).1, (← natural whole) * 100 + (← natural cents)⟩

def readOutcome (text : List Char) : Option Outcome :=
  if text = Outcome.ok.text then some .ok
  else if text = Outcome.unconfirmed.text then some .unconfirmed
  else none

def readHex : List Char → Option Bytes
  | [] => some []
  | [_] => none
  | high :: low :: rest => do
      let high ← Json.hexValue high
      let low ← Json.hexValue low
      some (UInt8.ofNat (high * 16 + low) :: (← readHex rest))

/-- The payload, from behind the field in front of it. -/
def readPayload (text : List Char) : Option Bytes := do
  let text ← behind "hex=".toList text
  let (digits, _) ← upTo ' ' text
  readHex digits

def readRx (utc : Utc) (text : List Char) : Option Entry := do
  let (rssi, text) ← upTo ' ' text
  let text ← behind "snr=".toList text
  let (snr, text) ← upTo ' ' text
  let text ← behind "len=".toList text
  let (_, text) ← upTo ' ' text
  some (.rx utc (← readSignal rssi) (← readSignal snr) (← readPayload text))

def readTx (utc : Utc) (text : List Char) : Option Entry := do
  let (_, text) ← upTo ' ' text
  let text ← behind "outcome=".toList text
  let (outcome, text) ← upTo ' ' text
  some (.tx utc (← readOutcome outcome) (← readPayload text))

/-- The fields of a line, neither the length nor the printable text looked at. -/
def readFields (line : List Char) : Option Entry := do
  let (utc, text) ← readUtc line
  match behind " RX rssi=".toList text with
  | some text => readRx utc text
  | none => readTx utc (← behind " TX rssi=- snr=- len=".toList text)

/-- The fields have the widths that the writer gives them. -/
structure Utc.Regular (utc : Utc) : Prop where
  year : utc.year < 10000
  month : utc.month < 100
  day : utc.day < 100
  hour : utc.hour < 100
  minute : utc.minute < 100
  second : utc.second < 100
  milli : utc.milli < 1000

instance (utc : Utc) : Decidable utc.Regular :=
  decidable_of_iff (utc.year < 10000 ∧ utc.month < 100 ∧ utc.day < 100 ∧ utc.hour < 100 ∧
      utc.minute < 100 ∧ utc.second < 100 ∧ utc.milli < 1000)
    ⟨fun h => ⟨h.1, h.2.1, h.2.2.1, h.2.2.2.1, h.2.2.2.2.1, h.2.2.2.2.2.1, h.2.2.2.2.2.2⟩,
      fun h => ⟨h.year, h.month, h.day, h.hour, h.minute, h.second, h.milli⟩⟩

/-- The packet of a line, if the line is a record to the last character. -/
def readText (line : List Char) : Option Entry :=
  (readFields line).filter fun entry => entry.text = line ∧ entry.utc.Regular

/-! ## Every record is read -/

theorem padded_digits (width number : ℕ) : Digits (padded width number) := digits_zeros _ _

theorem natural_padded (width number : ℕ) : natural (padded width number) = some number :=
  natural_zeros _ _

theorem natural_decimal (number : ℕ) : natural (decimal number) = some number :=
  natural_toDigits _

theorem readNumber_padded {stop : Char} (other : stop.isDigit = false) (width number : ℕ)
    (rest : List Char) : readNumber stop (padded width number ++ stop :: rest) =
      some (number, rest) := by
  rw [readNumber, upTo_append ((padded_digits width number).not_mem other), Option.bind_some,
    natural_padded, Option.map_some]

theorem readUtc_text (utc : Utc) (rest : List Char) :
    readUtc (utc.text ++ rest) = some (utc, rest) := by
  unfold readUtc Utc.text
  simp only [List.append_assoc, List.cons_append, List.nil_append, Option.bind_eq_bind]
  rw [readNumber_padded rfl, Option.bind_some, readNumber_padded rfl, Option.bind_some,
    readNumber_padded rfl, Option.bind_some, readNumber_padded rfl, Option.bind_some,
    readNumber_padded rfl, Option.bind_some, readNumber_padded rfl, Option.bind_some,
    readNumber_padded rfl, Option.bind_some]

theorem scanMinus_digits {text : List Char} (digits : Digits text) (some : text ≠ [])
    (rest : List Char) : Json.scanMinus (text ++ rest) = (false, text ++ rest) := by
  obtain ⟨first, more, rfl⟩ := List.exists_cons_of_ne_nil some
  have other : first ≠ '-' := by
    rintro rfl
    exact absurd (digits '-' List.mem_cons_self) (by decide)
  rw [List.cons_append, Json.scanMinus, Json.expect, if_neg other]

/-- The sign is found in front of the digits. -/
theorem scanMinus_text (signal : Signal) :
    Json.scanMinus signal.text = (signal.negative,
      decimal (signal.hundredths / 100) ++ '.' :: padded 2 (signal.hundredths % 100)) := by
  unfold Signal.text
  cases signal.negative with
  | true =>
      simp only [if_true, List.append_assoc, List.cons_append, List.nil_append]
      rfl
  | false =>
      simp only [Bool.false_eq_true, if_false, List.append_assoc, List.cons_append,
        List.nil_append]
      exact scanMinus_digits (digits_toDigits _) Nat.toDigits_ne_nil _

theorem readSignal_text (signal : Signal) : readSignal signal.text = some signal := by
  have parts : signal.hundredths / 100 * 100 + signal.hundredths % 100 = signal.hundredths := by
    omega
  have point : '.' ∉ decimal (signal.hundredths / 100) := (digits_toDigits _).not_mem rfl
  unfold readSignal
  rw [scanMinus_text]
  simp only [upTo_append point, natural_decimal, natural_padded, Option.bind_eq_bind,
    Option.bind_some, parts]

theorem readOutcome_text (outcome : Outcome) : readOutcome outcome.text = some outcome := by
  cases outcome <;> decide +kernel

theorem readHex_hex (data : Bytes) : readHex (hex data) = some data := by
  induction data with
  | nil => rfl
  | cons byte data ih =>
      have small := byte.toNat_lt
      have high : Json.hexValue (Nat.digitChar (byte.toNat / 16)) = some (byte.toNat / 16) :=
        Json.hexValue_hexDigit (by omega)
      have low : Json.hexValue (Nat.digitChar (byte.toNat % 16)) = some (byte.toNat % 16) :=
        Json.hexValue_hexDigit (by omega)
      have whole : UInt8.ofNat (byte.toNat / 16 * 16 + byte.toNat % 16) = byte := by
        rw [Nat.div_add_mod' byte.toNat 16, UInt8.ofNat_toNat]
      change readHex (Nat.digitChar (byte.toNat / 16) :: Nat.digitChar (byte.toNat % 16) ::
        hex data) = _
      rw [readHex, high, low, ih]
      simp only [Option.bind_eq_bind, Option.bind_some, whole]

/-- Signal values are made of digits, the point and the sign. -/
theorem Signal.not_mem_text (signal : Signal) {stop : Char} (digit : stop.isDigit = false)
    (point : stop ≠ '.') (sign : stop ≠ '-') : stop ∉ signal.text := by
  unfold Signal.text
  simp only [List.mem_append, not_or, List.mem_singleton]
  refine ⟨⟨⟨?_, (digits_toDigits _).not_mem digit⟩, point⟩, (padded_digits _ _).not_mem digit⟩
  split
  · exact fun found => sign (List.mem_singleton.mp found)
  · exact List.not_mem_nil

/-- The digits of the payload. -/
theorem not_mem_hex (data : Bytes) {stop : Char}
    (other : ∀ digit < 16, Nat.digitChar digit ≠ stop) : stop ∉ hex data := by
  intro found
  obtain ⟨byte, _, place⟩ := List.mem_flatMap.mp found
  have small := byte.toNat_lt
  simp only [List.mem_cons, List.not_mem_nil, or_false] at place
  rcases place with same | same
  · exact other _ (by omega) same.symm
  · exact other _ (by omega) same.symm

theorem Outcome.not_mem_text (outcome : Outcome) {stop : Char}
    (other : stop = ' ' ∨ stop = '"' ∨ stop = 'Z') : stop ∉ outcome.text := by
  rcases other with rfl | rfl | rfl <;> cases outcome <;> decide +kernel

theorem readPayload_text (data : Bytes) (rest : List Char) :
    readPayload ("hex=".toList ++ (hex data ++ ' ' :: rest)) = some data := by
  have blank : ' ' ∉ hex data := not_mem_hex data (by decide)
  rw [readPayload, behind_append]
  simp only [upTo_append blank, Option.bind_eq_bind, Option.bind_some, readHex_hex]

theorem payloadText_eq (data : Bytes) : payloadText data =
    ' ' :: ("hex=".toList ++ (hex data ++ ' ' :: ("ascii=\"".toList ++ (ascii data ++ ['"'])))) := by
  have first : " hex=".toList = ' ' :: "hex=".toList := by decide +kernel
  have second : " ascii=\"".toList = ' ' :: "ascii=\"".toList := by decide +kernel
  unfold payloadText
  rw [first, second]
  simp only [List.append_assoc, List.cons_append]

/-- A received packet is read behind its moment. -/
theorem readRx_text (utc : Utc) (rssi snr : Signal) (data : Bytes) :
    readRx utc (rssi.text ++ " snr=".toList ++ snr.text ++ " len=".toList ++
      decimal data.length ++ payloadText data) = some (.rx utc rssi snr data) := by
  have first : " snr=".toList = ' ' :: "snr=".toList := by decide +kernel
  have second : " len=".toList = ' ' :: "len=".toList := by decide +kernel
  have blank (signal : Signal) : ' ' ∉ signal.text :=
    signal.not_mem_text rfl (by decide) (by decide)
  have digits : ' ' ∉ decimal data.length := (digits_toDigits _).not_mem rfl
  rw [first, second, payloadText_eq]
  simp only [List.append_assoc, List.cons_append]
  unfold readRx
  simp only [Option.bind_eq_bind]
  rw [upTo_append (blank rssi), Option.bind_some, behind_append, Option.bind_some,
    upTo_append (blank snr), Option.bind_some, behind_append, Option.bind_some,
    upTo_append digits, Option.bind_some, readSignal_text, Option.bind_some, readSignal_text,
    Option.bind_some, readPayload_text, Option.bind_some]

theorem readTx_text (utc : Utc) (outcome : Outcome) (data : Bytes) :
    readTx utc (decimal data.length ++ " outcome=".toList ++ outcome.text ++ payloadText data) =
      some (.tx utc outcome data) := by
  have label : " outcome=".toList = ' ' :: "outcome=".toList := by decide +kernel
  have digits : ' ' ∉ decimal data.length := (digits_toDigits _).not_mem rfl
  rw [label, payloadText_eq]
  simp only [List.append_assoc, List.cons_append]
  unfold readTx
  simp only [Option.bind_eq_bind]
  rw [upTo_append digits, Option.bind_some, behind_append, Option.bind_some,
    upTo_append (outcome.not_mem_text (Or.inl rfl)), Option.bind_some, readOutcome_text,
    Option.bind_some, readPayload_text, Option.bind_some]

theorem readFields_text (entry : Entry) : readFields entry.text = some entry := by
  unfold readFields
  cases entry with
  | rx utc rssi snr data =>
      unfold Entry.text
      simp only [List.append_assoc, Option.bind_eq_bind]
      rw [readUtc_text, Option.bind_some, behind_append]
      simp only [← List.append_assoc]
      exact readRx_text utc rssi snr data
  | tx utc outcome data =>
      have other (rest : List Char) :
          behind " RX rssi=".toList (" TX rssi=- snr=- len=".toList ++ rest) = none := by
        have received : " RX rssi=".toList = ' ' :: 'R' :: "X rssi=".toList := by decide +kernel
        have sent : " TX rssi=- snr=- len=".toList = ' ' :: 'T' :: "X rssi=- snr=- len=".toList := by
          decide +kernel
        rw [received, sent]
        exact if_neg (by simp [List.isPrefixOf])
      unfold Entry.text
      simp only [List.append_assoc, Option.bind_eq_bind]
      rw [readUtc_text, Option.bind_some, other, behind_append]
      simp only [← List.append_assoc, Option.bind_some]
      exact readTx_text utc outcome data

/-- The reader takes a line for an entry exactly if the line is that entry's. -/
theorem readText_iff {line : List Char} {entry : Entry} :
    readText line = some entry ↔ line = entry.text ∧ entry.utc.Regular := by
  unfold readText
  rw [Option.filter_eq_some_iff]
  constructor
  · rintro ⟨_, accepted⟩
    obtain ⟨same, regular⟩ := of_decide_eq_true accepted
    exact ⟨same.symm, regular⟩
  · rintro ⟨rfl, regular⟩
    exact ⟨readFields_text entry, decide_eq_true ⟨rfl, regular⟩⟩

/-! ## Bytes of a line -/

theorem encode_plain {line : List Char} (plain : Plain line) :
    encode line = line.map fun char => UInt8.ofNat char.toNat := by
  induction line with
  | nil => rfl
  | cons char line ih =>
      obtain ⟨⟨low, high⟩, rest⟩ := List.forall_mem_cons.mp plain
      have single : String.utf8EncodeChar char = [UInt8.ofNat char.toNat] := by
        unfold String.utf8EncodeChar
        dsimp only
        rw [if_pos (show char.val.toNat ≤ 127 from Nat.le_succ_of_le high)]
        rfl
      change String.utf8EncodeChar char ++ encode line = _
      rw [ih rest, single]
      rfl

/-- The characters of a line, one for each byte. -/
def characters (line : Bytes) : List Char := line.map fun byte => Char.ofNat byte.toNat

theorem toNat_character (byte : UInt8) : (Char.ofNat byte.toNat).toNat = byte.toNat := by
  have small := byte.toNat_lt
  have valid : byte.toNat.isValidChar := Or.inl (by omega)
  rw [Char.ofNat, dif_pos valid]
  rfl

theorem characters_encode {line : List Char} (plain : Plain line) :
    characters (encode line) = line := by
  rw [encode_plain plain, characters, List.map_map]
  refine (List.map_congr_left fun char found => ?_).trans (List.map_id line)
  have high := (plain char found).2
  rw [Function.comp_apply, UInt8.toNat_ofNat', Nat.mod_eq_of_lt (by omega), Char.ofNat_toNat]
  rfl

theorem encode_characters {line : Bytes} (plain : Plain (characters line)) :
    encode (characters line) = line := by
  rw [encode_plain plain, characters, List.map_map]
  refine (List.map_congr_left fun byte _ => ?_).trans (List.map_id line)
  rw [Function.comp_apply, toNat_character, UInt8.ofNat_toNat]
  rfl

theorem Signal.text_plain (signal : Signal) : Plain signal.text := by
  unfold Signal.text
  simp only [plain_append]
  refine ⟨⟨⟨?_, decimal_plain _⟩, by decide +kernel⟩, padded_plain _ _⟩
  split <;> decide +kernel

theorem Outcome.text_plain (outcome : Outcome) : Plain outcome.text := by
  cases outcome <;> decide +kernel

theorem Entry.text_plain (entry : Entry) : Plain entry.text := by
  cases entry with
  | rx utc rssi snr data =>
      unfold Entry.text
      simp only [plain_append, utc_plain, rssi.text_plain, snr.text_plain, decimal_plain,
        payload_plain, true_and, and_true]
      refine ⟨⟨?_, ?_⟩, ?_⟩ <;> decide +kernel
  | tx utc outcome data =>
      unfold Entry.text
      simp only [plain_append, utc_plain, decimal_plain, payload_plain, outcome.text_plain,
        true_and, and_true]
      exact ⟨by decide +kernel, by decide +kernel⟩

/-- The line of an entry, without the newline. -/
def Entry.line (entry : Entry) : Bytes := encode entry.text

/-- The packet of a line of the file. -/
def readLine (line : Bytes) : Option Entry := readText (characters line)

/-- Reading and writing a line are inverse to each other. -/
theorem readLine_iff {line : Bytes} {entry : Entry} :
    readLine line = some entry ↔ line = entry.line ∧ entry.utc.Regular := by
  unfold readLine Entry.line
  rw [readText_iff]
  constructor
  · rintro ⟨same, regular⟩
    refine ⟨?_, regular⟩
    rw [← same, encode_characters (same ▸ entry.text_plain)]
  · rintro ⟨rfl, regular⟩
    exact ⟨characters_encode entry.text_plain, regular⟩

/-- A record is its entry's line and a newline. -/
theorem Request.record_eq (request : Request) (utc : Utc) :
    request.record utc = (request.entry utc).line ++ [newline] := by
  rw [Request.record, Request.text_eq, encode_append]
  rfl

theorem Request.entry_utc (request : Request) (utc : Utc) : (request.entry utc).utc = utc := by
  cases request <;> rfl

theorem Entry.newline_not_mem (entry : Entry) : newline ∉ entry.line :=
  newline_not_mem_encode entry.text_plain

end LorahamRns.RfLog
