import LorahamRns.Radio.Sx1262

/-!
# Building the interface

`resolve` and `LoRaSPIInterface.__init__`: the checks on the configuration, and what
is programmed into the radio before the loops start.
-/

namespace LorahamRns.Interface

open LorahamRns.Lib LorahamRns.Radio

/-! ## Hardware profiles -/

/-- `_PRESETS`: wiring by preset name and band. -/
def presets : List ((String × String) × Profile) :=
  [(("loraham", "433"), ⟨.sx1278, 8, some 5, none, none, 0, false⟩),
    (("loraham", "868"), ⟨.sx1276, 7, some 6, none, none, 0, false⟩),
    (("uputronics-ce0", "433"), ⟨.sx1278, 8, none, none, none, 0, false⟩),
    (("uputronics-ce1", "868"), ⟨.sx1276, 7, none, none, none, 0, false⟩),
    (("waveshare-sx1262", "433"), ⟨.sx1262, 21, some 18, some 20, some 6, 1.8, true⟩),
    (("waveshare-sx1262", "868"), ⟨.sx1262, 21, some 18, some 20, some 6, 1.8, true⟩)]

/-- `_SETUPS`: the preset of a hardware setup on each band. -/
def setups : List ((String × String) × String) :=
  [(("loraham", "433"), "loraham"), (("loraham", "868"), "loraham"),
    (("uputronics", "433"), "uputronics-ce0"), (("uputronics", "868"), "uputronics-ce1"),
    (("uputronics-433", "433"), "uputronics-ce0"), (("uputronics-868", "868"), "uputronics-ce1"),
    (("waveshare-433", "433"), "waveshare-sx1262"), (("waveshare-868", "868"), "waveshare-sx1262")]

/-- `resolve`; its `ProfileError` is a `ValueError`. -/
def resolve (setup band : String) : Except Fault Profile :=
  match setups.lookup (setup, band) with
  | none => .error .value
  | some preset =>
      match presets.lookup (preset, band) with
      | none => .error .value
      | some profile => .ok profile

/-! ## The operating policy -/

/-- A permitted segment: its edges in Hz and its hourly ceiling in per cent. -/
structure Segment where
  low : ℚ
  high : ℚ
  percent : ℚ

def permittedSegments : List (String × List Segment) :=
  [("433", [⟨433050000, 434790000, 10⟩]),
    ("868", [⟨863000000, 865000000, 0.1⟩, ⟨865000000, 868600000, 1⟩,
      ⟨868700000, 869200000, 0.1⟩, ⟨869400000, 869650000, 10⟩, ⟨869700000, 870000000, 1⟩])]

/-- The most power in dBm, by band. -/
def bandPolicy : List (String × ℤ) := [("433", 10), ("868", 14)]

/-- `duty_ceiling`: the whole occupied bandwidth must fit in one segment. -/
def dutyCeiling (band : String) (frequency bandwidth : ℤ) : Option ℚ :=
  let low : ℚ := frequency - bandwidth / 2
  let high : ℚ := frequency + bandwidth / 2
  ((((permittedSegments.lookup band).getD []).find?
    fun segment => segment.low ≤ low ∧ high ≤ segment.high)).map Segment.percent

/-! ## Framing parameters -/

def headerL : ℕ := 1
def framePayload : ℕ := 255 - headerL
def framedMtu : ℕ := 2 * framePayload
def preambleSymbolsMin : ℤ := 18
def preambleTargetMs : ℚ := 24
def preambleFastDeltaMs : ℚ := 18
def fastThresholdBps : ℚ := 30000

/-- `rnode_preamble`: the preamble the RNode firmware programs. -/
def rnodePreamble (sf bw cr : ℤ) : Except Fault ℤ :=
  if bw = 0 ∨ cr = 0 then .error .zeroDivision
  else
    let symbolTimeMs : ℚ := 2 ^ sf / bw * 1000
    let bitrate : ℚ := sf * (4 / cr) / (2 ^ sf / (bw / 1000)) * 1000
    let targetMs := preambleTargetMs -
      (if fastThresholdBps < bitrate then preambleFastDeltaMs else 0)
    let symbols := targetMs / symbolTimeMs
    .ok (if symbols < preambleSymbolsMin then preambleSymbolsMin else ⌈symbols⌉)

/-! ## The constructor -/

def defaultIfacSize : ℕ := 8

/-- A configuration section after `int`, `float`, `str.strip` and `parse_switch`; `none`
where a key is missing. -/
structure Configuration where
  hardware : String
  band : String
  networkname : String
  passphrase : String
  frequency : ℤ
  bandwidth : Option ℤ
  spreadingfactor : Option ℤ
  codingrate : Option ℤ
  txpower : Option ℤ
  airtimeLimitShort : Option ℚ
  airtimeLimitLong : Option ℚ
  syncword : Option ℤ
  rnodeFraming : Bool
  preamble : Option ℤ

/-- What the loops work with. -/
structure LoRaSPIInterface where
  profile : Profile
  settings : Settings
  rnodeFraming : Bool
  maxPacket : ℕ
  hwMtu : ℕ
  shortLimit : ℚ
  longLimit : ℚ
  bitrate : ℤ
  maxAge : Option ℚ

/-- An airtime limit must be positive and at most its ceiling. -/
def checkLimit (value : Option ℚ) (limit : ℚ) : Except Fault ℚ :=
  let value := value.getD 0
  if 0 < value ∧ value ≤ limit then .ok value else .error .value

/-- The settings of a configuration, with the defaults of its missing keys. -/
def Configuration.settings (c : Configuration) : Except Fault Settings := do
  let bandwidth := c.bandwidth.getD 125000
  let sf := c.spreadingfactor.getD 8
  let cr := c.codingrate.getD 5
  let preamble ← if c.rnodeFraming then rnodePreamble sf bandwidth cr else pure 8
  pure ⟨c.frequency, bandwidth, sf, cr, c.txpower.getD 14, c.syncword.getD 0x12,
    c.preamble.getD preamble⟩

/-- The checks made before anything is opened: the profile, the IFAC, the channel, the
power and the airtime limits. -/
def Configuration.check (c : Configuration) : Except Fault (Profile × ℚ × ℚ) := do
  let profile ← resolve c.hardware c.band
  if (c.networkname = "") ≠ (c.passphrase = "") then .error .value
  match dutyCeiling c.band c.frequency (c.bandwidth.getD 125000) with
  | none => .error .value
  | some ceiling =>
      if (bandPolicy.lookup c.band).getD 0 < c.txpower.getD 14 then .error .value
      let short ← checkLimit c.airtimeLimitShort 100
      let long ← checkLimit c.airtimeLimitLong ceiling
      pure (profile, short, long)

/-- The driver of a chip programs the radio and starts reception. -/
def program (profile : Profile) (settings : Settings) : Driver Unit :=
  match profile.chip with
  | .sx1276 | .sx1277 | .sx1278 => do
      Sx127x.configure profile settings
      Sx127x.startRx settings.frequency
  | .sx1262 => do
      Sx1262.configure profile settings
      Sx1262.startRx

/-- `__init__` up to the start of the loops. -/
def Configuration.init (c : Configuration) : Driver LoRaSPIInterface := do
  let (profile, short, long) ← .ofExcept c.check
  let settings ← .ofExcept c.settings
  let maxPacket := if c.rnodeFraming then framedMtu else maxPayload
  program profile settings
  let rate ← .ofExcept (bitrate settings.sf settings.bandwidth settings.cr)
  let maxAge ← if c.rnodeFraming then do
      let longest ← .ofExcept
        (timeOnAir maxPayload settings.sf settings.bandwidth settings.cr settings.preamble)
      pure (some (max 5 (4 * longest)))
    else pure none
  pure ⟨profile, settings, c.rnodeFraming, maxPacket,
    maxPacket - (if c.networkname = "" then 0 else defaultIfacSize), short, long, rate, maxAge⟩

end LorahamRns.Interface
