import LorahamRns.Interface.Configuration

/-!
# What is programmed and what is charged

The bytes the constructor sends are decoded as the chip decodes them and compared
with the parameters that `_transmit` charges airtime for.  Fields that do not fit
wrap in a register but not in the airtime formula.
-/

namespace LorahamRns.Interface

open LorahamRns.Lib LorahamRns.Radio
open Program (ends_bind ends_mono ends_any ends_ofExcept)

/-! ## The bus and what the chip decodes -/

/-- The transactions sent so far, the latest first. -/
abbrev Sent : Type := List (List ℤ)

/-- A bus that clocks bytes only, with any reply, and may fail at any time. -/
def bus : Program.Environment Effect Effect.Answer Sent
  | .xfer payload, sent, some _, after =>
      (∀ byte ∈ payload, 0 ≤ byte ∧ byte ≤ 255) ∧ after = payload :: sent
  | .xfer _, _, none, _ => True
  | .setTxen _, sent, _, after | .waitBusy, sent, _, after | .reset, sent, _, after
  | .monotonic, sent, _, after | .sleep _, sent, _, after => after = sent

/-- The modem parameters that decide the time on air. -/
structure Modem where
  sf : ℤ
  bandwidth : ℤ
  cr : ℤ
  preamble : ℤ
  ldro : ℤ
  deriving DecidableEq

/-- The datasheet formula with the low data rate flag of the modem. -/
def Modem.timeOnAir (modem : Modem) (payloadLen : ℕ) : Except Fault ℚ := do
  let tsym ← symbolTime modem.sf modem.bandwidth
  airtimeOf payloadLen modem.sf modem.cr modem.preamble modem.ldro tsym

/-- The bandwidth of a register code. -/
def bandwidthOf (table : List (ℤ × ℤ)) (code : ℤ) : Option ℤ :=
  (table.find? fun row => row.2 = code).map Prod.fst

/-- The value last written to a register of an SX127x. -/
def lastWrite (reg : ℕ) (sent : Sent) : Option ℤ :=
  sent.findSome? fun
    | [address, value] => if address = ((reg ||| 0x80 : ℕ) : ℤ) then some value else none
    | _ => none

/-- What the registers of an SX127x say. -/
def Sx127x.modemOf (sent : Sent) : Option Modem := do
  let config1 ← lastWrite Sx127x.regModemConfig1 sent
  let config2 ← lastWrite Sx127x.regModemConfig2 sent
  let config3 ← lastWrite Sx127x.regModemConfig3 sent
  let high ← lastWrite Sx127x.regPreambleMsb sent
  let low ← lastWrite (Sx127x.regPreambleMsb + 1) sent
  let bandwidth ← bandwidthOf Sx127x.bwTable (config1 / 2 ^ 4)
  pure ⟨config2 / 2 ^ 4, bandwidth, config1 / 2 % 2 ^ 3 + 4, high * 2 ^ 8 + low,
    config3 / 2 ^ 3 % 2⟩

/-- The parameters last sent with an opcode. -/
def lastCommand (opcode : ℤ) (sent : Sent) : Option (List ℤ) :=
  sent.findSome? fun
    | first :: params => if first = opcode then some params else none
    | [] => none

/-- What the last modulation and packet parameters of an SX1262 say. -/
def Sx1262.modemOf (sent : Sent) : Option Modem :=
  match lastCommand Sx1262.cmdSetModulationParams sent,
      lastCommand Sx1262.cmdSetPacketParams sent with
  | some [sf, bw, cr, ldro], some (high :: low :: _) =>
      (bandwidthOf Sx1262.bwTable bw).map fun bandwidth =>
        ⟨sf, bandwidth, cr + 4, high * 2 ^ 8 + low, ldro⟩
  | _, _ => none

def modemOf (chip : Chip) (sent : Sent) : Option Modem :=
  match chip with
  | .sx1276 | .sx1277 | .sx1278 => Sx127x.modemOf sent
  | .sx1262 => Sx1262.modemOf sent

/-! ## What is charged -/

/-- The parameters `_transmit` charges for; the flag is the one `time_on_air` computes. -/
def charged (settings : Settings) : Except Fault Modem := do
  let tsym ← symbolTime settings.sf settings.bandwidth
  pure ⟨settings.sf, settings.bandwidth, settings.cr, settings.preamble, lowDataRate tsym⟩

/-- The airtime charged for a payload. -/
def charge (settings : Settings) (payloadLen : ℕ) : Except Fault ℚ :=
  Radio.timeOnAir payloadLen settings.sf settings.bandwidth settings.cr settings.preamble

/-- What is programmed is what is charged, so every charge is positive and covers the
time on air of the programmed modem. -/
structure Faithful (iface : LoRaSPIInterface) (sent : Sent) : Prop where
  programmed : ∃ modem, charged iface.settings = .ok modem ∧
    modemOf iface.profile.chip sent = some modem
  covered : ∀ payloadLen airtime, charge iface.settings payloadLen = .ok airtime →
    0 < airtime ∧ ∀ modem actual, modemOf iface.profile.chip sent = some modem →
      modem.timeOnAir payloadLen = .ok actual → actual ≤ airtime

/-- Every parameter fits the field it is written to.  The SX1262 gets spreading factor
and coding rate as whole bytes, so only the preamble can wrap there. -/
structure Fits (iface : LoRaSPIInterface) : Prop where
  preamble : 0 ≤ iface.settings.preamble ∧ iface.settings.preamble < 2 ^ 16
  registers : iface.profile.chip ≠ .sx1262 →
    iface.settings.sf < 2 ^ 4 ∧ 4 ≤ iface.settings.cr ∧ iface.settings.cr < 4 + 2 ^ 3

/-- The constructor accepts a configuration, having sent these transactions. -/
def Accepted (c : Configuration) (iface : LoRaSPIInterface) (sent : Sent) : Prop :=
  Program.Path bus c.init [] (.done iface) sent

/-! ## The charge -/

/-- `time_on_air` computes the formula with its own low data rate flag. -/
theorem charge_eq (settings : Settings) (payloadLen : ℕ) :
    charge settings payloadLen =
      (charged settings).bind fun modem => modem.timeOnAir payloadLen := by
  unfold charge charged Radio.timeOnAir Modem.timeOnAir
  cases h : symbolTime settings.sf settings.bandwidth with
  | error reason => rfl
  | ok tsym =>
      change _ = (symbolTime settings.sf settings.bandwidth).bind _
      rw [h]
      rfl

theorem trueDiv_ok {numerator denominator : ℤ} {quotient : ℚ}
    (h : trueDiv numerator denominator = .ok quotient) :
    denominator ≠ 0 ∧ quotient = numerator / denominator := by
  unfold trueDiv at h
  split at h
  · cases h
  · next nonzero =>
      split at h
      · cases h
      · exact ⟨nonzero, (Except.ok.inj h).symm⟩

theorem symbolTime_ok {sf bw : ℤ} {tsym : ℚ} (h : symbolTime sf bw = .ok tsym) :
    0 ≤ sf ∧ bw ≠ 0 ∧ tsym = 2 ^ sf.toNat / bw := by
  unfold symbolTime shiftOne at h
  split at h
  · cases h
  · next nonneg =>
      obtain ⟨nonzero, rfl⟩ := trueDiv_ok h
      exact ⟨not_lt.mp nonneg, nonzero, by push_cast; rfl⟩

/-- With a positive symbol time and no negative preamble every airtime is positive. -/
theorem airtimeOf_pos {payloadLen : ℕ} {sf cr preamble de : ℤ} {tsym airtime : ℚ}
    (tsymPos : 0 < tsym) (preambleNonneg : 0 ≤ preamble)
    (h : airtimeOf payloadLen sf cr preamble de tsym = .ok airtime) : 0 < airtime := by
  unfold airtimeOf at h
  dsimp only at h
  cases quotient : trueDiv (8 * (payloadLen : ℤ) - 4 * sf + 28 + 16) (4 * (sf - 2 * de)) with
  | error reason =>
      rw [quotient] at h
      cases h
  | ok quotient' =>
      rw [quotient] at h
      obtain rfl := Except.ok.inj h
      have preambleNonneg : (0 : ℚ) ≤ preamble := by exact_mod_cast preambleNonneg
      have symbols : (0 : ℚ) ≤ (max (⌈quotient'⌉ * cr) 0 : ℤ) := by
        exact_mod_cast le_max_right _ _
      positivity

/-! ## What the drivers send -/

/-- If the program ends with a value, then with the property. -/
abbrev Ends {α : Type} (program : Driver α) (post : α → Sent → Prop) (sent : Sent) : Prop :=
  Program.Ends bus program post sent

/-- A register write is one transaction. -/
theorem ends_write {reg : ℕ} {value : ℤ} {post : Unit → Sent → Prop} {sent : Sent}
    (h : post () ([((reg ||| 0x80 : ℕ) : ℤ), lowByte value] :: sent)) :
    Ends (Sx127x.write reg value) post sent := by
  refine ⟨trivial, fun reply after answered => ?_⟩
  cases reply with
  | none => exact ⟨trivial, trivial⟩
  | some received =>
      rw [answered.2]
      exact ⟨trivial, h⟩

/-- A command is one transaction, of bytes. -/
theorem ends_cmd {opcode : ℤ} {params : List ℤ} {post : Unit → Sent → Prop} {sent : Sent}
    (h : (∀ byte ∈ params, 0 ≤ byte ∧ byte ≤ 255) → post () ((opcode :: params) :: sent)) :
    Ends (Sx1262.cmd opcode params) post sent := by
  refine ⟨trivial, fun low after waited => ?_⟩
  cases low with
  | false => exact ⟨trivial, trivial⟩
  | true =>
      rw [show after = sent from waited]
      refine ⟨trivial, fun reply after answered => ?_⟩
      cases reply with
      | none => exact ⟨trivial, trivial⟩
      | some received =>
          rw [answered.2]
          exact ⟨trivial, h fun byte member => answered.1 byte (List.mem_cons_of_mem _ member)⟩

/-- The modem registers of an SX127x hold the settings. -/
structure Registers (settings : Settings) (bw : ℤ) (tsym : ℚ) (sent : Sent) : Prop where
  config1 : lastWrite Sx127x.regModemConfig1 sent =
    some (lowByte (Sx127x.modemConfig1 bw settings.cr))
  config2 : lastWrite Sx127x.regModemConfig2 sent =
    some (lowByte (Sx127x.modemConfig2 settings.sf))
  config3 : lastWrite Sx127x.regModemConfig3 sent =
    some (lowByte (Sx127x.modemConfig3 (lowDataRate tsym)))
  high : lastWrite Sx127x.regPreambleMsb sent = some (lowByte (settings.preamble / 2 ^ 8))
  low : lastWrite (Sx127x.regPreambleMsb + 1) sent = some (lowByte settings.preamble)

def modemRegisters : List ℕ :=
  [Sx127x.regModemConfig1, Sx127x.regModemConfig2, Sx127x.regModemConfig3,
    Sx127x.regPreambleMsb, Sx127x.regPreambleMsb + 1]

theorem lastWrite_other {reg other : ℕ} (h : other ||| 0x80 ≠ reg ||| 0x80) (value : ℤ)
    (sent : Sent) :
    lastWrite reg ([((other ||| 0x80 : ℕ) : ℤ), value] :: sent) = lastWrite reg sent := by
  have apart : ((other ||| 0x80 : ℕ) : ℤ) ≠ ((reg ||| 0x80 : ℕ) : ℤ) := by exact_mod_cast h
  simp only [lastWrite, List.findSome?_cons, if_neg apart]

/-- Writing another register keeps the modem registers. -/
theorem Registers.other {settings : Settings} {bw : ℤ} {tsym : ℚ} {sent : Sent}
    (h : Registers settings bw tsym sent) {reg : ℕ}
    (apart : ∀ modem ∈ modemRegisters, reg ||| 0x80 ≠ modem ||| 0x80) (value : ℤ) :
    Registers settings bw tsym ([((reg ||| 0x80 : ℕ) : ℤ), value] :: sent) := by
  simp only [modemRegisters, List.forall_mem_cons] at apart
  obtain ⟨config1, config2, config3, high, low, -⟩ := apart
  exact ⟨(lastWrite_other config1 ..).trans h.config1, (lastWrite_other config2 ..).trans h.config2,
    (lastWrite_other config3 ..).trans h.config3, (lastWrite_other high ..).trans h.high,
    (lastWrite_other low ..).trans h.low⟩

/-- The modem part of `configure` leaves the settings in the registers. -/
theorem ends_modem127 (settings : Settings) (bw : ℤ) (sent : Sent) :
    Ends (Sx127x.modem settings bw) (fun _ after => ∃ tsym,
      symbolTime settings.sf settings.bandwidth = .ok tsym ∧
        Registers settings bw tsym after) sent := by
  refine ends_bind (ends_write (ends_bind (ends_write ?_)))
  refine ends_bind (ends_ofExcept fun tsym timed => ?_)
  refine ends_bind (ends_write (ends_bind (ends_write (ends_write ⟨tsym, timed, ?_⟩))))
  constructor <;>
    simp [lastWrite, Sx127x.regModemConfig1, Sx127x.regModemConfig2, Sx127x.regModemConfig3,
      Sx127x.regPreambleMsb]

theorem Registers.write {settings : Settings} {bw : ℤ} {tsym : ℚ} {sent : Sent}
    (h : Registers settings bw tsym sent) {reg : ℕ} {value : ℤ} {next : Unit → Driver Unit}
    {post : Unit → Sent → Prop}
    (apart : ∀ modem ∈ modemRegisters, reg ||| 0x80 ≠ modem ||| 0x80)
    (rest : ∀ after, Registers settings bw tsym after → Ends (next ()) post after) :
    Ends ((Sx127x.write reg value).bind next) post sent :=
  ends_bind (ends_write (rest _ (h.other apart _)))

/-- What follows the modem registers writes other ones. -/
theorem Registers.finish {settings : Settings} {bw : ℤ} {tsym : ℚ} {sent : Sent}
    (h : Registers settings bw tsym sent) :
    Ends (Sx127x.finish settings) (fun _ => Registers settings bw tsym) sent := by
  refine h.write (by decide) fun _ h => ?_
  refine h.write (by decide) fun _ h => ?_
  refine h.write (by decide) fun _ h => ?_
  refine h.write (by decide) fun _ h => ?_
  refine h.write (by decide) fun _ h => ?_
  refine h.write (by decide) fun _ h => ?_
  refine h.write (by decide) fun _ h => ?_
  exact ends_write (h.other (by decide) _)

theorem Registers.startRx {settings : Settings} {bw : ℤ} {tsym : ℚ} {sent : Sent}
    (h : Registers settings bw tsym sent) (frequency : ℤ) :
    Ends (Sx127x.startRx frequency) (fun _ => Registers settings bw tsym) sent := by
  refine h.write (by decide) fun _ h => ?_
  refine h.write (by decide) fun _ h => ?_
  exact ends_write (h.other (by decide) _)

/-- What the constructor programs into an SX127x. -/
theorem ends_program127 (profile : Profile) (settings : Settings) (sent : Sent) :
    Ends ((Sx127x.configure profile settings).bind fun _ => Sx127x.startRx settings.frequency)
      (fun _ after => 7 ≤ settings.sf ∧ ∃ bw tsym,
        Sx127x.bwTable.lookup settings.bandwidth = some bw ∧
          symbolTime settings.sf settings.bandwidth = .ok tsym ∧
            Registers settings bw tsym after) sent := by
  unfold Sx127x.configure
  split
  · exact ⟨trivial, trivial⟩
  · next supported =>
      refine ends_bind (ends_any fun _ tuned => ?_)
      cases known : Sx127x.bwTable.lookup settings.bandwidth with
      | none => exact ⟨trivial, trivial⟩
      | some bw =>
          refine ends_bind (ends_mono (ends_modem127 settings bw tuned) ?_)
          rintro - after ⟨tsym, timed, registers⟩
          refine ends_mono registers.finish fun _ finished registers => ?_
          exact ends_mono (registers.startRx _) fun _ _ registers =>
            ⟨not_lt.mp supported, bw, tsym, rfl, timed, registers⟩

/-- The last modulation and packet parameters of an SX1262 are the settings, and the
bus has passed them as bytes. -/
structure Commands (settings : Settings) (bw : ℤ) (tsym : ℚ) (sent : Sent) : Prop where
  bytes : ∀ byte ∈ [settings.sf, bw, settings.cr - 4, lowDataRate tsym], 0 ≤ byte ∧ byte ≤ 255
  modulation : lastCommand Sx1262.cmdSetModulationParams sent =
    some [settings.sf, bw, settings.cr - 4, lowDataRate tsym]
  packet : lastCommand Sx1262.cmdSetPacketParams sent =
    some [lowByte (settings.preamble / 2 ^ 8), lowByte settings.preamble, 0x00,
      lowByte maxPayload, 0x01, 0x00]

theorem lastCommand_self (opcode : ℤ) (params : List ℤ) (sent : Sent) :
    lastCommand opcode ((opcode :: params) :: sent) = some params := by
  simp [lastCommand]

theorem lastCommand_other {opcode other : ℤ} (h : other ≠ opcode) (params : List ℤ)
    (sent : Sent) : lastCommand opcode ((other :: params) :: sent) = lastCommand opcode sent := by
  simp only [lastCommand, List.findSome?_cons, if_neg h]

/-- The parts of a modem setting that are sent as commands. -/
def modemCommands : List ℤ := [Sx1262.cmdSetModulationParams, Sx1262.cmdSetPacketParams]

theorem Commands.other {settings : Settings} {bw : ℤ} {tsym : ℚ} {sent : Sent}
    (h : Commands settings bw tsym sent) {opcode : ℤ}
    (apart : ∀ modem ∈ modemCommands, opcode ≠ modem) (params : List ℤ) :
    Commands settings bw tsym ((opcode :: params) :: sent) := by
  simp only [modemCommands, List.forall_mem_cons] at apart
  exact ⟨h.bytes, (lastCommand_other apart.1 ..).trans h.modulation,
    (lastCommand_other apart.2.1 ..).trans h.packet⟩

/-- Other commands keep the modem parameters. -/
theorem Commands.cmd {settings : Settings} {bw : ℤ} {tsym : ℚ} {sent : Sent}
    (h : Commands settings bw tsym sent) {opcode : ℤ} {params : List ℤ}
    (apart : ∀ modem ∈ modemCommands, opcode ≠ modem) :
    Ends (Sx1262.cmd opcode params) (fun _ => Commands settings bw tsym) sent :=
  ends_cmd fun _ => h.other apart _

/-- The modem part of `configure` leaves the settings with the chip. -/
theorem ends_modem1262 (settings : Settings) (bw : ℤ) (sent : Sent) :
    Ends (Sx1262.modem settings bw) (fun _ after => ∃ tsym,
      symbolTime settings.sf settings.bandwidth = .ok tsym ∧
        Commands settings bw tsym after) sent := by
  refine ends_bind (ends_ofExcept fun tsym timed => ?_)
  refine ends_bind (ends_cmd fun bytes => ends_bind (ends_cmd fun _ => ends_cmd fun _ => ?_))
  refine ⟨tsym, timed, bytes, ?_, lastCommand_self ..⟩
  rw [lastCommand_other (by decide), lastCommand_other (by decide), lastCommand_self]

/-- The rest of `configure` sends other commands. -/
theorem Commands.finish {settings : Settings} {bw : ℤ} {tsym : ℚ} {sent : Sent}
    (h : Commands settings bw tsym sent) :
    Ends (Sx1262.finish settings) (fun _ => Commands settings bw tsym) sent := by
  refine ends_bind (ends_mono (h.cmd (by decide)) fun _ _ h => ?_)
  refine ends_bind (ends_bind (ends_mono (h.cmd (by decide)) fun _ _ h => ?_))
  refine ends_mono (h.cmd (by decide)) fun _ _ h => ?_
  exact h.cmd (by decide)

theorem Commands.startRx {settings : Settings} {bw : ℤ} {tsym : ℚ} {sent : Sent}
    (h : Commands settings bw tsym sent) :
    Ends Sx1262.startRx (fun _ => Commands settings bw tsym) sent := by
  refine ends_bind (ends_mono (h.cmd (by decide)) fun _ _ h => ?_)
  exact h.cmd (by decide)

/-- What the constructor programs into an SX1262. -/
theorem ends_program1262 (profile : Profile) (settings : Settings) (sent : Sent) :
    Ends ((Sx1262.configure profile settings).bind fun _ => Sx1262.startRx)
      (fun _ after => ∃ bw tsym, Sx1262.bwTable.lookup settings.bandwidth = some bw ∧
        symbolTime settings.sf settings.bandwidth = .ok tsym ∧
          Commands settings bw tsym after) sent := by
  unfold Sx1262.configure
  refine ends_bind (ends_any fun _ woken => ends_any fun _ tuned => ?_)
  cases known : Sx1262.bwTable.lookup settings.bandwidth with
  | none => exact ⟨trivial, trivial⟩
  | some bw =>
      refine ends_bind (ends_mono (ends_modem1262 settings bw tuned) ?_)
      rintro - after ⟨tsym, timed, commands⟩
      refine ends_mono commands.finish fun _ finished commands => ?_
      exact ends_mono commands.startRx fun _ _ commands => ⟨bw, tsym, rfl, timed, commands⟩

/-! ## Decoding -/

/-- Every row of a bandwidth table is the one its code stands for. -/
def TableSound (table : List (ℤ × ℤ)) : Prop :=
  ∀ row ∈ table, bandwidthOf table row.2 = some row.1 ∧ 0 ≤ row.2 ∧ row.2 < 11 ∧ 0 < row.1

theorem Sx127x.table_sound : TableSound Sx127x.bwTable := by
  unfold TableSound
  decide

theorem Sx1262.table_sound : TableSound Sx1262.bwTable := by
  unfold TableSound
  decide

theorem TableSound.lookup {table : List (ℤ × ℤ)} (h : TableSound table) {bandwidth bw : ℤ}
    (known : table.lookup bandwidth = some bw) :
    bandwidthOf table bw = some bandwidth ∧ 0 ≤ bw ∧ bw < 11 ∧ 0 < bandwidth := by
  obtain ⟨before, after, rows, -⟩ := List.lookup_eq_some_iff.mp known
  exact h (bandwidth, bw) (by simp [rows])

theorem lowByte_nonneg (value : ℤ) : 0 ≤ lowByte value := Int.emod_nonneg _ (by decide)

theorem lowByte_lt (value : ℤ) : lowByte value < 256 := Int.emod_lt_of_pos _ (by decide)

/-- The two preamble bytes give back exactly the preambles of sixteen bits. -/
theorem preamble_bytes (preamble : ℤ) :
    lowByte (preamble / 2 ^ 8) * 2 ^ 8 + lowByte preamble = preamble ↔
      0 ≤ preamble ∧ preamble < 2 ^ 16 := by
  unfold lowByte
  omega

/-- The low data rate flag comes back from its register. -/
theorem ldro_byte (tsym : ℚ) :
    lowByte (Sx127x.modemConfig3 (lowDataRate tsym)) / 2 ^ 3 % 2 = lowDataRate tsym := by
  unfold lowDataRate
  split <;> decide

/-- The spreading factor comes back from its register exactly below 16. -/
theorem sf_byte {sf : ℤ} (nonneg : 0 ≤ sf) :
    lowByte (Sx127x.modemConfig2 sf) / 2 ^ 4 = sf ↔ sf < 2 ^ 4 := by
  constructor
  · intro same
    have bound := lowByte_lt (Sx127x.modemConfig2 sf)
    omega
  · intro small
    have small : sf < 16 := small
    interval_cases sf <;> decide

/-- Bandwidth code and coding rate share a register: the coding rate comes back exactly
from 4/4 to 4/11. -/
theorem config1_byte {bw cr : ℤ} (nonneg : 0 ≤ bw) (small : bw < 11)
    (low : 4 ≤ cr) (high : cr < 4 + 2 ^ 3) :
    lowByte (Sx127x.modemConfig1 bw cr) / 2 ^ 4 = bw ∧
      lowByte (Sx127x.modemConfig1 bw cr) / 2 % 2 ^ 3 + 4 = cr := by
  have high : cr < 12 := high
  interval_cases bw <;> interval_cases cr <;> decide

/-- The registers of an SX127x decode to the settings exactly when these fit. -/
theorem Registers.modemOf_iff {settings : Settings} {bw : ℤ} {tsym : ℚ} {sent : Sent}
    (h : Registers settings bw tsym sent) (supported : 7 ≤ settings.sf)
    (known : Sx127x.bwTable.lookup settings.bandwidth = some bw) :
    Sx127x.modemOf sent = some ⟨settings.sf, settings.bandwidth, settings.cr,
        settings.preamble, lowDataRate tsym⟩ ↔
      (0 ≤ settings.preamble ∧ settings.preamble < 2 ^ 16) ∧
        settings.sf < 2 ^ 4 ∧ 4 ≤ settings.cr ∧ settings.cr < 4 + 2 ^ 3 := by
  obtain ⟨code, nonneg, small, -⟩ := Sx127x.table_sound.lookup known
  have decoded : Sx127x.modemOf sent =
      (bandwidthOf Sx127x.bwTable (lowByte (Sx127x.modemConfig1 bw settings.cr) / 2 ^ 4)).map
        fun bandwidth => ⟨lowByte (Sx127x.modemConfig2 settings.sf) / 2 ^ 4, bandwidth,
          lowByte (Sx127x.modemConfig1 bw settings.cr) / 2 % 2 ^ 3 + 4,
          lowByte (settings.preamble / 2 ^ 8) * 2 ^ 8 + lowByte settings.preamble,
          lowByte (Sx127x.modemConfig3 (lowDataRate tsym)) / 2 ^ 3 % 2⟩ := by
    unfold Sx127x.modemOf
    rw [h.config1, h.config2, h.config3, h.high, h.low]
    exact Option.map_eq_bind.symm
  rw [decoded]
  constructor
  · intro same
    obtain ⟨bandwidth, -, same⟩ := Option.map_eq_some_iff.mp same
    simp only [Modem.mk.injEq] at same
    obtain ⟨sf, -, cr, preamble, -⟩ := same
    have rate := Int.emod_nonneg (lowByte (Sx127x.modemConfig1 bw settings.cr) / 2)
      (show (2 ^ 3 : ℤ) ≠ 0 by decide)
    have rate' := Int.emod_lt_of_pos (lowByte (Sx127x.modemConfig1 bw settings.cr) / 2)
      (show (0 : ℤ) < 2 ^ 3 by decide)
    exact ⟨(preamble_bytes _).mp preamble, (sf_byte (by omega)).mp sf, by omega, by omega⟩
  · rintro ⟨preamble, sf, low, high⟩
    obtain ⟨bwBack, crBack⟩ := config1_byte nonneg small low high
    rw [bwBack, crBack, code, (sf_byte (by omega)).mpr sf, (preamble_bytes _).mpr preamble,
      ldro_byte]
    rfl

/-- The last parameters of an SX1262 decode to the settings exactly when the preamble
fits. -/
theorem Commands.modemOf_iff {settings : Settings} {bw : ℤ} {tsym : ℚ} {sent : Sent}
    (h : Commands settings bw tsym sent)
    (known : Sx1262.bwTable.lookup settings.bandwidth = some bw) :
    Sx1262.modemOf sent = some ⟨settings.sf, settings.bandwidth, settings.cr,
        settings.preamble, lowDataRate tsym⟩ ↔
      0 ≤ settings.preamble ∧ settings.preamble < 2 ^ 16 := by
  obtain ⟨code, -, -, -⟩ := Sx1262.table_sound.lookup known
  have decoded : Sx1262.modemOf sent = some ⟨settings.sf, settings.bandwidth,
      settings.cr - 4 + 4, lowByte (settings.preamble / 2 ^ 8) * 2 ^ 8 +
        lowByte settings.preamble, lowDataRate tsym⟩ := by
    unfold Sx1262.modemOf
    rw [h.modulation, h.packet]
    dsimp only
    rw [code]
    rfl
  rw [decoded, sub_add_cancel, Option.some.injEq]
  simp only [Modem.mk.injEq, true_and, and_true]
  exact preamble_bytes settings.preamble

/-! ## Accepted configurations -/

/-- What the constructor has programmed decodes to what is charged exactly when every
parameter fits its field. -/
structure Programmed (profile : Profile) (settings : Settings) (sent : Sent) : Prop where
  bandwidth : 0 < settings.bandwidth
  decodes : ∃ tsym, symbolTime settings.sf settings.bandwidth = .ok tsym ∧
    (modemOf profile.chip sent = some ⟨settings.sf, settings.bandwidth, settings.cr,
        settings.preamble, lowDataRate tsym⟩ ↔
      (0 ≤ settings.preamble ∧ settings.preamble < 2 ^ 16) ∧
        (profile.chip ≠ .sx1262 →
          settings.sf < 2 ^ 4 ∧ 4 ≤ settings.cr ∧ settings.cr < 4 + 2 ^ 3))

theorem ends_program (profile : Profile) (settings : Settings) (sent : Sent) :
    Ends (program profile settings) (fun _ after => Programmed profile settings after) sent := by
  unfold program
  cases chip : profile.chip with
  | sx1262 =>
      refine ends_mono (ends_program1262 profile settings sent) ?_
      rintro - after ⟨bw, tsym, known, timed, commands⟩
      obtain ⟨-, -, -, positive⟩ := Sx1262.table_sound.lookup known
      refine ⟨positive, tsym, timed, ?_⟩
      rw [chip]
      exact (commands.modemOf_iff known).trans ⟨fun fits => ⟨fits, nofun⟩, And.left⟩
  | sx1276 | sx1277 | sx1278 =>
      refine ends_mono (ends_program127 profile settings sent) ?_
      rintro - after ⟨supported, bw, tsym, known, timed, registers⟩
      obtain ⟨-, -, -, positive⟩ := Sx127x.table_sound.lookup known
      refine ⟨positive, tsym, timed, ?_⟩
      rw [chip]
      exact (registers.modemOf_iff supported known).trans
        ⟨fun fits => ⟨fits.1, fun _ => fits.2⟩, fun fits => ⟨fits.1, fits.2 nofun⟩⟩

/-- A modem with a positive bandwidth and no negative preamble has positive airtimes. -/
theorem Modem.timeOnAir_pos {modem : Modem} (bandwidth : 0 < modem.bandwidth)
    (preamble : 0 ≤ modem.preamble) {payloadLen : ℕ} {airtime : ℚ}
    (h : modem.timeOnAir payloadLen = .ok airtime) : 0 < airtime := by
  unfold Modem.timeOnAir at h
  cases timed : symbolTime modem.sf modem.bandwidth with
  | error reason =>
      rw [timed] at h
      cases h
  | ok tsym =>
      rw [timed] at h
      obtain ⟨-, -, rfl⟩ := symbolTime_ok timed
      have bandwidth : (0 : ℚ) < modem.bandwidth := by exact_mod_cast bandwidth
      exact airtimeOf_pos (by positivity) preamble h

/-- Programmed as charged means every charge is positive and covers the airtime. -/
theorem Programmed.faithful_iff {iface : LoRaSPIInterface} {sent : Sent}
    (h : Programmed iface.profile iface.settings sent) : Faithful iface sent ↔ Fits iface := by
  obtain ⟨tsym, timed, decodes⟩ := h.decodes
  have modem : charged iface.settings = .ok ⟨iface.settings.sf, iface.settings.bandwidth,
      iface.settings.cr, iface.settings.preamble, lowDataRate tsym⟩ := by
    unfold charged
    rw [timed]
    rfl
  constructor
  · intro faithful
    obtain ⟨modem', same, programmed⟩ := faithful.programmed
    cases modem.symm.trans same
    obtain ⟨preamble, registers⟩ := decodes.mp programmed
    exact ⟨preamble, registers⟩
  · intro fits
    have programmed := decodes.mpr ⟨fits.preamble, fits.registers⟩
    refine ⟨⟨_, modem, programmed⟩, fun payloadLen airtime charges => ?_⟩
    rw [charge_eq, modem] at charges
    refine ⟨Modem.timeOnAir_pos h.bandwidth fits.preamble.1 charges, ?_⟩
    intro modem' actual same takes
    cases programmed.symm.trans same
    exact (Except.ok.inj (takes.symm.trans charges)).le

/-- What an accepted configuration has programmed. -/
theorem ends_init (c : Configuration) (sent : Sent) :
    Ends c.init (fun iface after => Programmed iface.profile iface.settings after) sent := by
  refine ends_bind (ends_ofExcept fun checked _ => ends_bind (ends_ofExcept fun settings _ => ?_))
  obtain ⟨profile, short, long⟩ := checked
  refine ends_bind (ends_mono (ends_program profile settings sent) fun _ after programmed => ?_)
  refine ends_bind (ends_ofExcept fun rate _ => ?_)
  split
  · refine ends_bind (ends_ofExcept fun longest _ => ?_)
    exact ⟨trivial, programmed⟩
  · exact ⟨trivial, programmed⟩

/-- For every accepted configuration, what is programmed is what is charged if and only
if the preamble fits sixteen bits and, in the packed registers of an SX127x, spreading
factor and coding rate fit their fields. -/
theorem faithful_iff_fits {c : Configuration} {iface : LoRaSPIInterface} {sent : Sent}
    (accepted : Accepted c iface sent) : Faithful iface sent ↔ Fits iface := by
  have programmed := Program.ends_path (ends_init c []) accepted
  exact programmed.faithful_iff

/-! ## A configuration of each kind -/

/-- A working SX127x: every register reads as the version. -/
def goodChip : (effect : Effect) → Sent → Option (effect.Answer × Sent)
  | .xfer payload, sent =>
      if ∀ byte ∈ payload, 0 ≤ byte ∧ byte ≤ 255 then
        some (some [0, Sx127x.expectedVersion], payload :: sent)
      else none
  | .setTxen _, sent | .waitBusy, sent | .reset, sent => some (true, sent)
  | .monotonic, sent => some (0, sent)
  | .sleep _, sent => some ((), sent)

theorem goodChip_admissible (effect : Effect) (sent : Sent) (reply : effect.Answer)
    (after : Sent) (h : goodChip effect sent = some (reply, after)) :
    bus effect sent reply after := by
  cases effect with
  | xfer payload =>
      change (if ∀ byte ∈ payload, 0 ≤ byte ∧ byte ≤ 255 then _ else none) = _ at h
      split at h
      · next bytes =>
          cases h
          exact ⟨bytes, rfl⟩
      · cases h
  | _ =>
      cases h
      rfl

/-- The LoRaHAM board on 868 MHz, with a preamble set by hand. -/
def handEdited (preamble : ℤ) : Configuration where
  hardware := "loraham"
  band := "868"
  networkname := ""
  passphrase := ""
  frequency := 869525000
  bandwidth := some 125000
  spreadingfactor := some 8
  codingrate := some 5
  txpower := some 14
  airtimeLimitShort := some 10
  airtimeLimitLong := some 1
  syncword := none
  rnodeFraming := false
  preamble := some preamble

/-- What a run on the good chip accepts. -/
theorem accepted_of_run {c : Configuration} {settings : ℤ × ℤ × ℤ}
    (h : (c.init.runWith goodChip []).map (fun last =>
      (last.1.settings.preamble, last.1.settings.sf, last.1.settings.cr)) = some settings) :
    ∃ iface sent, Accepted c iface sent ∧ iface.settings.preamble = settings.1 ∧
      iface.settings.sf = settings.2.1 ∧ iface.settings.cr = settings.2.2 := by
  obtain ⟨last, run, same⟩ := Option.map_eq_some_iff.mp h
  subst same
  exact ⟨last.1, last.2, Program.path_of_runWith goodChip_admissible run, rfl, rfl, rfl⟩

/-- The usual preamble is accepted, and charged as it is programmed. -/
theorem usual_preamble_is_faithful :
    ∃ iface sent, Accepted (handEdited 8) iface sent ∧ Faithful iface sent := by
  obtain ⟨iface, sent, accepted, preamble, sf, cr⟩ :=
    @accepted_of_run (handEdited 8) (8, 8, 5) (by decide +kernel)
  refine ⟨iface, sent, accepted, (faithful_iff_fits accepted).mpr ⟨?_, fun _ => ?_⟩⟩
  · rw [preamble]
    decide
  · rw [sf, cr]
    decide

/-- A preamble of -1 is accepted, programmed as 65535 symbols and charged as -1. -/
theorem negative_preamble_is_accepted :
    ¬∀ c iface sent, Accepted c iface sent → Faithful iface sent := by
  intro always
  obtain ⟨iface, sent, accepted, preamble, -, -⟩ :=
    @accepted_of_run (handEdited (-1)) (-1, 8, 5) (by decide +kernel)
  have programmed := Program.ends_path (ends_init _ []) accepted
  have fits := programmed.faithful_iff.mp (always _ _ _ accepted)
  have nonneg := fits.preamble.1
  rw [preamble] at nonneg
  exact absurd nonneg (by decide)

end LorahamRns.Interface
