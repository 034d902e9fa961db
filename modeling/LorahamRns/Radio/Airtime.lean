import LorahamRns.Lib.Json
import LorahamRns.Radio.Driver

/-!
# Time on air

The datasheet formula both chips share, over exact rationals, and the bit rate.
-/

namespace LorahamRns.Radio

open LorahamRns.Lib

/-- True division of integers, which raises on zero and out of the range of floats. -/
def trueDiv (numerator denominator : ℤ) : Except Fault ℚ :=
  if denominator = 0 then .error .zeroDivision
  else if floatLimit ≤ |(numerator / denominator : ℚ)| then .error .overflow
  else .ok (numerator / denominator)

/-- `1 << sf`, which raises on a negative count. -/
def shiftOne (sf : ℤ) : Except Fault ℤ :=
  if sf < 0 then .error .value else .ok (2 ^ sf.toNat)

/-- The symbol time `(1 << sf) / bw` in seconds. -/
def symbolTime (sf bw : ℤ) : Except Fault ℚ := do
  let chips ← shiftOne sf
  trueDiv chips bw

/-- Symbols longer than this need the low data rate optimisation. -/
def ldroThreshold : ℚ := 0.016

/-- The low data rate flag, computed alike by the drivers and by `time_on_air`. -/
def lowDataRate (tsym : ℚ) : ℤ := if ldroThreshold < tsym then 1 else 0

/-- The datasheet formula for a given low data rate flag and symbol time. -/
def airtimeOf (payloadLen : ℕ) (sf cr preamble de : ℤ) (tsym : ℚ) : Except Fault ℚ := do
  let num := 8 * (payloadLen : ℤ) - 4 * sf + 28 + 16
  let den := 4 * (sf - 2 * de)
  let quotient ← trueDiv num den
  let symbols := 8 + max (⌈quotient⌉ * cr) 0
  pure ((preamble + 4.25) * tsym + symbols * tsym)

/-- `Radio.time_on_air`: explicit header, CRC on. -/
def timeOnAir (payloadLen : ℕ) (sf bw cr preamble : ℤ) : Except Fault ℚ := do
  let tsym ← symbolTime sf bw
  airtimeOf payloadLen sf cr preamble (lowDataRate tsym) tsym

/-- `Radio.bitrate`: `int` truncates. -/
def bitrate (sf bw cr : ℤ) : Except Fault ℤ := do
  let ratio ← trueDiv 4 cr
  let chips ← shiftOne sf
  let rate : ℚ := sf * ratio * bw / chips
  pure (rate.num.tdiv rate.den)

/-- `round` of a float: to nearest, ties to even. -/
def roundHalfEven (value : ℚ) : ℤ :=
  let low := ⌊value⌋
  if value - low < 1 / 2 then low
  else if 1 / 2 < value - low then low + 1
  else if low % 2 = 0 then low else low + 1

theorem roundHalfEven_near (value : ℚ) : |roundHalfEven value - value| ≤ 1 / 2 := by
  have low := Int.floor_le value
  have high := Int.lt_floor_add_one value
  unfold roundHalfEven
  dsimp only
  rw [abs_le]
  split
  · constructor <;> linarith
  split
  · push_cast
    constructor <;> linarith
  split
  · constructor <;> linarith
  · push_cast
    constructor <;> linarith

end LorahamRns.Radio
