import LorahamRns.Radio.Airtime

/-!
# RF log records

One line per packet: the moment, the direction, signal or outcome, and the payload in
hexadecimal and in printable ASCII.
-/

namespace LorahamRns.RfLog

abbrev Bytes : Type := List UInt8

/-- The moment `_utc_now` prints. -/
structure Utc where
  year : ℕ
  month : ℕ
  day : ℕ
  hour : ℕ
  minute : ℕ
  second : ℕ
  milli : ℕ
  deriving DecidableEq

/-- The two outcomes the interface logs. -/
inductive Outcome where
  | ok
  | unconfirmed
  deriving DecidableEq

/-- What `rx` and `tx` are called with. -/
inductive Request where
  | rx (rssi snr : ℚ) (data : Bytes)
  | tx (outcome : Outcome) (data : Bytes)
  deriving DecidableEq

/-! ## Texts -/

def decimal (number : ℕ) : List Char := Nat.toDigits 10 number

/-- At least `width` digits. -/
def padded (width number : ℕ) : List Char :=
  List.replicate (width - (decimal number).length) '0' ++ decimal number

/-- `f"{value:.2f}"`. -/
def fixed2 (value : ℚ) : List Char :=
  let hundredths := (Radio.roundHalfEven (|value| * 100)).toNat
  (if value < 0 then ['-'] else []) ++ decimal (hundredths / 100) ++ ['.'] ++
    padded 2 (hundredths % 100)

def Utc.text (utc : Utc) : List Char :=
  padded 4 utc.year ++ ['-'] ++ padded 2 utc.month ++ ['-'] ++ padded 2 utc.day ++ ['T'] ++
    padded 2 utc.hour ++ [':'] ++ padded 2 utc.minute ++ [':'] ++ padded 2 utc.second ++ ['.'] ++
    padded 3 utc.milli ++ ['Z']

def Outcome.text : Outcome → List Char
  | .ok => "ok".toList
  | .unconfirmed => "unconfirmed".toList

/-- `bytes.hex()`. -/
def hex (data : Bytes) : List Char :=
  data.flatMap fun byte => [Nat.digitChar (byte.toNat / 16), Nat.digitChar (byte.toNat % 16)]

/-- `_ascii`: printable ASCII only, quote and backslash as dots. -/
def ascii (data : Bytes) : List Char :=
  data.map fun byte =>
    if 0x20 ≤ byte.toNat ∧ byte.toNat < 0x7F ∧ byte.toNat ≠ 0x22 ∧ byte.toNat ≠ 0x5C then
      Char.ofNat byte.toNat
    else '.'

def payloadText (data : Bytes) : List Char :=
  " hex=".toList ++ hex data ++ " ascii=\"".toList ++ ascii data ++ ['"']

/-- `format_rx` and `format_tx`, without the newline at the end. -/
def Request.text (utc : Utc) : Request → List Char
  | .rx rssi snr data =>
      utc.text ++ " RX rssi=".toList ++ fixed2 rssi ++ " snr=".toList ++ fixed2 snr ++
        " len=".toList ++ decimal data.length ++ payloadText data
  | .tx outcome data =>
      utc.text ++ " TX rssi=- snr=- len=".toList ++ decimal data.length ++
        " outcome=".toList ++ outcome.text ++ payloadText data

/-- `line.encode("utf-8")`. -/
def encode (line : List Char) : Bytes := line.flatMap String.utf8EncodeChar

/-- The bytes of a request's line. -/
def Request.record (request : Request) (utc : Utc) : Bytes := encode (request.text utc ++ ['\n'])

def newline : UInt8 := 10

/-! ## One newline, at the end -/

/-- Printable ASCII. -/
def Printable (char : Char) : Prop := 0x20 ≤ char.toNat ∧ char.toNat ≤ 0x7E

instance (char : Char) : Decidable (Printable char) := inferInstanceAs (Decidable (_ ∧ _))

def Plain (line : List Char) : Prop := ∀ char ∈ line, Printable char

instance (line : List Char) : Decidable (Plain line) :=
  List.decidableBAll _ _

theorem plain_append {front back : List Char} : Plain (front ++ back) ↔ Plain front ∧ Plain back :=
  List.forall_mem_append

theorem encode_append (front back : List Char) :
    encode (front ++ back) = encode front ++ encode back :=
  List.flatMap_append

theorem newline_not_mem_encode {line : List Char} (plain : Plain line) :
    newline ∉ encode line := by
  unfold encode
  rw [List.mem_flatMap]
  rintro ⟨char, found, isNewline⟩
  obtain ⟨low, high⟩ := plain char found
  have single : String.utf8EncodeChar char = [UInt8.ofNat char.toNat] := by
    unfold String.utf8EncodeChar
    dsimp only
    rw [if_pos (show char.val.toNat ≤ 127 from Nat.le_succ_of_le high)]
    rfl
  rw [single, List.mem_singleton] at isNewline
  have same := congrArg UInt8.toNat isNewline
  rw [UInt8.toNat_ofNat', Nat.mod_eq_of_lt (by omega)] at same
  change 10 = char.toNat at same
  omega

theorem decimal_plain (number : ℕ) : Plain (decimal number) := by
  intro char found
  have digit := Nat.isDigit_of_mem_toDigits (by decide) (by decide) found
  simp only [Char.isDigit, Bool.and_eq_true, decide_eq_true_eq, ge_iff_le,
    UInt32.le_iff_toNat_le] at digit
  have low : 48 ≤ char.toNat := digit.1
  have high : char.toNat ≤ 57 := digit.2
  exact ⟨by omega, by omega⟩

theorem padded_plain (width number : ℕ) : Plain (padded width number) := by
  refine plain_append.mpr ⟨fun char zero => ?_, decimal_plain number⟩
  rw [List.eq_of_mem_replicate zero]
  decide

theorem fixed2_plain (value : ℚ) : Plain (fixed2 value) := by
  unfold fixed2
  simp only [plain_append]
  refine ⟨⟨⟨?_, decimal_plain _⟩, by decide +kernel⟩, padded_plain _ _⟩
  split <;> decide +kernel

theorem utc_plain (utc : Utc) : Plain utc.text := by
  unfold Utc.text
  simp only [plain_append, padded_plain, true_and, and_true]
  decide +kernel

theorem hexDigit_printable (digit : ℕ) (small : digit < 16) : Printable (Nat.digitChar digit) := by
  interval_cases digit <;> decide +kernel

theorem hex_plain (data : Bytes) : Plain (hex data) := by
  intro char found
  obtain ⟨byte, _, place⟩ := List.mem_flatMap.mp found
  have small := byte.toNat_lt
  simp only [List.mem_cons, List.not_mem_nil, or_false] at place
  rcases place with rfl | rfl
  · exact hexDigit_printable _ (by omega)
  · exact hexDigit_printable _ (by omega)

theorem ascii_plain (data : Bytes) : Plain (ascii data) := by
  intro char found
  obtain ⟨byte, _, rfl⟩ := List.mem_map.mp found
  have small := byte.toNat_lt
  split
  case isTrue shown =>
    have valid : byte.toNat.isValidChar := Or.inl (by omega)
    unfold Printable
    rw [Char.ofNat, dif_pos valid]
    change 0x20 ≤ byte.toNat ∧ byte.toNat ≤ 0x7E
    omega
  case isFalse => decide +kernel

theorem payload_plain (data : Bytes) : Plain (payloadText data) := by
  unfold payloadText
  simp only [plain_append]
  refine ⟨⟨⟨⟨?_, hex_plain data⟩, ?_⟩, ascii_plain data⟩, ?_⟩ <;> decide +kernel

/-- A record is one line. -/
theorem record_line (request : Request) (utc : Utc) :
    ∃ body, request.record utc = body ++ [newline] ∧ newline ∉ body := by
  refine ⟨encode (request.text utc), encode_append _ _, newline_not_mem_encode ?_⟩
  cases request with
  | rx rssi snr data =>
      unfold Request.text
      simp only [plain_append, utc_plain, fixed2_plain, decimal_plain, payload_plain, true_and,
        and_true]
      refine ⟨⟨?_, ?_⟩, ?_⟩ <;> decide +kernel
  | tx outcome data =>
      have outcome_plain : Plain outcome.text := by cases outcome <;> decide +kernel
      unfold Request.text
      simp only [plain_append, utc_plain, decimal_plain, payload_plain, outcome_plain, true_and,
        and_true]
      exact ⟨by decide +kernel, by decide +kernel⟩

end LorahamRns.RfLog
