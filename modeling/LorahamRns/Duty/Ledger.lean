import LorahamRns.Lib.JsonRoundTrip

/-!
# The airtime ledger file

What `DutyAccount._write` puts on disk and what `DutyAccount._read` makes of a
text it finds there.  Floats are exact decimals; the writer turns a value
beyond the float range into an infinity, which the reader refuses.
-/

namespace LorahamRns.Duty

open LorahamRns.Lib

/-- `CLOCK_SKEW_S`: tolerated wall-clock jitter before a stamp reads as bogus. -/
def clockSkewS : Decimal := 60

theorem clockSkewS_nonneg : 0 ≤ clockSkewS := by
  have h : (0 : Decimal) ≤ 60 := by norm_num
  exact h

/-- The bytes `_read` asks for, `1 << 20`. -/
@[irreducible]
def readLimit : ℕ := 2 ^ 20

theorem readLimit_pos : 0 < readLimit := by
  rw [readLimit]
  norm_num

/-- A reservation on record: when it was granted and how long it may send. -/
structure Entry where
  time : Decimal
  airtime : Decimal
  deriving DecidableEq

/-- A clock reading is a finite float, never before the epoch or the boot. -/
structure Reading where
  value : Decimal
  nonneg : 0 ≤ value
  inRange : |value.val| < floatLimit

/-- The document `_write` builds: the entries and the clock evidence. -/
structure Ledger where
  boot : List Char
  monotonic : Reading
  wall : Reading
  entries : List Entry

namespace Entry

/-- An entry the reader accepts: finite, with a positive airtime. -/
structure Credible (entry : Entry) : Prop where
  time : |entry.time.val| < floatLimit
  airtime : |entry.airtime.val| < floatLimit
  positive : 0 < entry.airtime

def json (entry : Entry) : Json :=
  .arr [.float (.ofDecimal entry.time), .float (.ofDecimal entry.airtime)]

/-- The entry moved by a clock step. -/
def shift (step : Decimal) (entry : Entry) : Entry := ⟨entry.time + step, entry.airtime⟩

end Entry

namespace Ledger

/-- The clock evidence. -/
def clock (ledger : Ledger) : List (List Char × Json) :=
  [("boot".toList, .str ledger.boot),
    ("monotonic".toList, .float (.finite ledger.monotonic.value ledger.monotonic.inRange)),
    ("wall".toList, .float (.finite ledger.wall.value ledger.wall.inRange))]

def fields (ledger : Ledger) : List (List Char × Json) :=
  [("version".toList, .int 1), ("initialised".toList, .bool true), ("clock".toList, .obj ledger.clock),
    ("entries".toList, .arr (ledger.entries.map Entry.json))]

/-- The blob. -/
def text (ledger : Ledger) : List Char := Json.dumps (.obj ledger.fields)

end Ledger

/-! ## Python's `float()` -/

/-- What `float()` makes of a decoded value. -/
inductive Conversion where
  | value (float : PyFloat)
  | refused
  | overflow

/-- Underscores are allowed between two digits. -/
def dropUnderscores : Bool → List Char → Option (List Char)
  | _, [] => some []
  | behindDigit, char :: rest =>
      if char = '_' then
        if behindDigit && rest.head?.any Char.isDigit then dropUnderscores false rest else none
      else (dropUnderscores char.isDigit rest).map (char :: ·)

def strip (text : List Char) : List Char :=
  let blank := fun char : Char => char.isWhitespace || char.toNat == 11 || char.toNat == 12
  (text.dropWhile blank).rdropWhile blank

/-- `float()` of a string. -/
def floatOfText (text : List Char) : Option PyFloat :=
  let (negative, body) := Json.scanSign ((strip text).map Char.toLower)
  if body = "inf".toList ∨ body = "infinity".toList then some (.infinity negative)
  else if body = "nan".toList then some .nan
  else do
    let digits ← dropUnderscores false body
    let whole := digits.takeWhile Char.isDigit
    let behindWhole := digits.dropWhile Char.isDigit
    let (fraction, behindFraction) :=
      match Json.expect '.' behindWhole with
      | none => ([], behindWhole)
      | some rest => (rest.takeWhile Char.isDigit, rest.dropWhile Char.isDigit)
    let (exponent, rest) := Json.scanExponent behindFraction
    if (whole ++ fraction).isEmpty || !rest.isEmpty then none
    else some (.ofDecimal (Decimal.Numeral.value ⟨negative, whole, fraction, exponent⟩))

/-- `float()`: a `TypeError` or `ValueError` refuses, an integer beyond the range
overflows. -/
def pyFloat : Json → Conversion
  | .null => .refused
  | .bool value => .value (.ofDecimal (if value then 1 else 0))
  | .int value =>
      if inRange : |(value : Decimal).val| < floatLimit then .value (.finite value inRange)
      else .overflow
  | .float value => .value value
  | .str text => ((floatOfText text).map Conversion.value).getD .refused
  | .arr _ => .refused
  | .obj _ => .refused

/-! ## Decoding, the part of `_read` before the clocks come in -/

/-- Why a ledger text is refused. -/
inductive ReadFault where
  | notJson
  | unsupportedVersion
  | entriesMissing
  | entriesNotList
  | noEntries
  | notPair
  | notNumeric
  | overflow
  | incredible
  | future (seconds : Decimal)

/-- `data.get("version") != 1`. -/
def isVersionOne : Option Json → Bool
  | some (.int value) => value == 1
  | some (.bool value) => value
  | some (.float value) => value.finite? == some 1
  | _ => false

def isTrue : Option Json → Bool
  | some (.bool true) => true
  | _ => false

/-- The document's entries and clock evidence, or why they are refused. -/
def header (firstUse : Bool) (raw : List Char) : Except ReadFault (List Json × Option Json) :=
  match Json.loads raw with
  | none => .error .notJson
  | some (.obj data) =>
      if !isVersionOne (Json.get? data "version".toList) then .error .unsupportedVersion
      else match Json.get? data "entries".toList with
      | none => .error .entriesMissing
      | some (.arr rawEntries) =>
          if rawEntries.isEmpty && !(firstUse || isTrue (Json.get? data "initialised".toList)) then
            .error .noEntries
          else .ok (rawEntries, Json.get? data "clock".toList)
      | some _ => .error .entriesNotList
  | some _ => .error .unsupportedVersion

/-- `isinstance(x, (int, float))`, booleans excepted. -/
def isNumeric : Json → Bool
  | .int _ => true
  | .float _ => true
  | _ => false

/-- One item of the entries, before its stamp is compared with the clock. -/
def entryOf : Json → Except ReadFault Entry
  | .arr [time, airtime] =>
      if !(isNumeric time && isNumeric airtime) then .error .notNumeric
      else match pyFloat time, pyFloat airtime with
      | .value time, .value airtime =>
          match time.finite?, airtime.finite? with
          | some time, some airtime =>
              if airtime ≤ 0 then .error .incredible else .ok ⟨time, airtime⟩
          | _, _ => .error .incredible
      | _, _ => .error .overflow
  | _ => .error .notPair

/-! ## The written document passes its own checks -/

namespace Entry

theorem Credible.shift {entry : Entry} (credible : entry.Credible) {step : Decimal}
    (inRange : |(entry.time + step).val| < floatLimit) : (entry.shift step).Credible :=
  ⟨inRange, credible.airtime, credible.positive⟩

theorem Credible.entryOf {entry : Entry} (credible : entry.Credible) :
    entryOf entry.json = .ok entry := by
  simp only [json, Duty.entryOf, isNumeric, pyFloat, Bool.and_self, Bool.not_true,
    Bool.false_eq_true, if_false, PyFloat.finite?_ofDecimal credible.time,
    PyFloat.finite?_ofDecimal credible.airtime, not_le.mpr credible.positive]

/-- The reader accepts an entry only as it was written. -/
theorem entryOf_json {entry found : Entry} (h : Duty.entryOf entry.json = .ok found) :
    found = entry ∧ entry.Credible := by
  by_cases htime : |entry.time.val| < floatLimit
  · by_cases hairtime : |entry.airtime.val| < floatLimit
    · by_cases hpositive : 0 < entry.airtime
      · have credible : entry.Credible := ⟨htime, hairtime, hpositive⟩
        rw [credible.entryOf] at h
        exact ⟨(Except.ok.inj h).symm, credible⟩
      · simp [json, Duty.entryOf, isNumeric, pyFloat, PyFloat.finite?_ofDecimal htime,
          PyFloat.finite?_ofDecimal hairtime, not_lt.mp hpositive] at h
    · simp [json, Duty.entryOf, isNumeric, pyFloat, PyFloat.finite?_ofDecimal htime,
        PyFloat.finite?_ofDecimal_of_not hairtime] at h
  · simp [json, Duty.entryOf, isNumeric, pyFloat, PyFloat.finite?_ofDecimal_of_not htime] at h

end Entry

namespace Ledger

/-- The whole text is read back as the items and the evidence it was made of. -/
theorem header_text (ledger : Ledger) (firstUse : Bool) :
    header firstUse ledger.text = .ok (ledger.entries.map Entry.json, some (.obj ledger.clock)) := by
  have hversion : isVersionOne (Json.get? ledger.fields "version".toList) = true := rfl
  have hinitialised : isTrue (Json.get? ledger.fields "initialised".toList) = true := rfl
  have hentries : Json.get? ledger.fields "entries".toList =
      some (.arr (ledger.entries.map Entry.json)) := rfl
  have hclock : Json.get? ledger.fields "clock".toList = some (.obj ledger.clock) := rfl
  rw [header, text, Json.loads_dumps]
  simp only [hversion, hinitialised, hentries, hclock, Bool.not_true, Bool.or_true,
    Bool.and_false, Bool.false_eq_true, if_false]

/-- A text cut short is refused. -/
theorem header_take_text (ledger : Ledger) (firstUse : Bool) {limit : ℕ} (hlimit : 0 < limit)
    (hcut : limit < ledger.text.length) :
    header firstUse (ledger.text.take limit) = .error .notJson := by
  rw [header, text, Json.loads_take_dumps ledger.fields hlimit hcut]

theorem text_head (ledger : Ledger) : ∃ rest, ledger.text = '{' :: rest :=
  ⟨Json.dumpsFields ledger.fields ++ ['}'], by rw [text, Json.dumps]; rfl⟩

end Ledger

end LorahamRns.Duty
