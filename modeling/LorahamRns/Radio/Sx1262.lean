import LorahamRns.Radio.Sx127x

/-!
# SX1262 driver

Command-based: every transaction is an opcode with its parameters, sent while BUSY
is low.
-/

namespace LorahamRns.Radio

open LorahamRns.Lib

namespace Sx1262

def cmdSetStandby : ℤ := 0x80
def cmdSetRx : ℤ := 0x82
def cmdWriteRegister : ℤ := 0x0D
def cmdReadRegister : ℤ := 0x1D
def cmdReadBuffer : ℤ := 0x1E
def cmdSetDioIrqParams : ℤ := 0x08
def cmdGetIrqStatus : ℤ := 0x12
def cmdClearIrqStatus : ℤ := 0x02
def cmdSetRfFrequency : ℤ := 0x86
def cmdSetPacketType : ℤ := 0x8A
def cmdSetTxParams : ℤ := 0x8E
def cmdSetModulationParams : ℤ := 0x8B
def cmdSetPacketParams : ℤ := 0x8C
def cmdSetBufferBaseAddress : ℤ := 0x8F
def cmdSetPaConfig : ℤ := 0x95
def cmdGetRxBufferStatus : ℤ := 0x13
def cmdGetPacketStatus : ℤ := 0x14
def cmdSetRegulatorMode : ℤ := 0x96
def cmdCalibrate : ℤ := 0x89
def cmdCalibrateImage : ℤ := 0x98
def cmdSetDio2AsRfSwitch : ℤ := 0x9D
def cmdSetDio3AsTcxo : ℤ := 0x97
def cmdGetDeviceErrors : ℤ := 0x17
def cmdClearDeviceErrors : ℤ := 0x07

def deviceErrXoscStart : ℕ := 0x0020
def standbyRc : ℤ := 0x00
def regulatorDcDc : ℤ := 0x01
def calibrateAll : ℤ := 0x7F
def packetTypeLora : ℤ := 0x01
def regLoraSyncWordMsb : ℤ := 0x0740

def irqTxDone : ℕ := 0x0001
def irqRxDone : ℕ := 0x0002
def irqCrcErr : ℕ := 0x0040
def irqTimeout : ℕ := 0x0200

def fstep : ℚ := 32000000 / 2 ^ 25

def bwTable : List (ℤ × ℤ) :=
  [(7810, 0x00), (10420, 0x08), (15630, 0x01), (20830, 0x09), (31250, 0x02), (41670, 0x0A),
    (62500, 0x03), (125000, 0x04), (250000, 0x05), (500000, 0x06)]

def tcxoVolts : List (ℚ × ℤ) :=
  [(1.6, 0x00), (1.7, 0x01), (1.8, 0x02), (2.2, 0x03), (2.4, 0x04), (2.7, 0x05), (3.0, 0x06),
    (3.3, 0x07)]

/-- Power, `paDutyCycle` and `hpMax` of the documented rows. -/
def paRows : List (ℤ × ℤ × ℤ) :=
  [(14, 0x02, 0x02), (17, 0x02, 0x03), (20, 0x03, 0x05), (22, 0x04, 0x07)]

def cmd (opcode : ℤ) (params : List ℤ) : Driver Unit := do
  waitBusy
  let _ ← xfer (opcode :: params)
  pure ()

/-- `query`: the response begins behind the opcode, the parameters and a status byte. -/
def query (opcode : ℤ) (count : ℕ) (params : List ℤ) : Driver (List ℕ) := do
  waitBusy
  let raw ← xfer (opcode :: (params ++ List.replicate (count + 1) 0))
  pure ((raw.drop (params.length + 2)).take count)

def writeRegister (addr : ℤ) (values : List ℤ) : Driver Unit :=
  cmd cmdWriteRegister (lowByte (addr / 2 ^ 8) :: lowByte addr :: values)

def readRegister (addr : ℤ) (count : ℕ) : Driver (List ℕ) :=
  query cmdReadRegister count [lowByte (addr / 2 ^ 8), lowByte addr]

def probe : Driver Unit := do
  writeRegister regLoraSyncWordMsb [0x14, 0x24]
  let got ← readRegister regLoraSyncWordMsb 2
  if got = [0x14, 0x24] then pure () else .fail .radio

/-- `_setup_tcxo`: whether the oscillator started. -/
def setupTcxo (voltage : ℚ) : Driver Bool := do
  match tcxoVolts.lookup voltage with
  | none => .fail .radio
  | some code => do
      let delay : ℤ := 640
      cmd cmdClearDeviceErrors [0x00, 0x00]
      cmd cmdSetDio3AsTcxo [code, lowByte (delay / 2 ^ 16), lowByte (delay / 2 ^ 8), lowByte delay]
      cmd cmdCalibrate [calibrateAll]
      sleep 0.02
      waitBusy
      let err ← query cmdGetDeviceErrors 2 []
      let errors := match err with
        | high :: low :: _ => high * 2 ^ 8 ||| low
        | _ => 0
      pure (errors &&& deviceErrXoscStart = 0)

def setPacketParams (preamble : ℤ) (payloadLen : ℕ) : Driver Unit :=
  cmd cmdSetPacketParams
    [lowByte (preamble / 2 ^ 8), lowByte preamble, 0x00, lowByte payloadLen, 0x01, 0x00]

/-- The row of the highest power not above the requested one, else the first. -/
def paRow (dbm : ℤ) : ℤ × ℤ :=
  paRows.foldl (fun row candidate => if candidate.1 ≤ dbm then candidate.2 else row) (0x02, 0x02)

def setTxPower (txpower : ℤ) : Driver Unit := do
  let dbm := max (-9) (min 22 txpower)
  cmd cmdSetPaConfig [(paRow dbm).1, (paRow dbm).2, 0x00, 0x01]
  cmd cmdSetTxParams [lowByte dbm, 0x04]

/-- `configure` up to the oscillator. -/
def wake (profile : Profile) : Driver Unit := do
  hardReset profile
  waitBusy
  cmd cmdSetStandby [standbyRc]
  cmd cmdSetRegulatorMode [regulatorDcDc]
  if profile.tcxoVoltage ≠ 0 then
    let started ← setupTcxo profile.tcxoVoltage
    if started then pure ()
    else
      hardReset profile
      waitBusy
      cmd cmdSetStandby [standbyRc]
      cmd cmdSetRegulatorMode [regulatorDcDc]
      cmd cmdClearDeviceErrors [0x00, 0x00]
      cmd cmdCalibrate [calibrateAll]
      sleep 0.02
      waitBusy
  else pure ()

/-- The antenna switch, the packet type, the probe and the frequency. -/
def tune (profile : Profile) (frequency : ℤ) : Driver Unit := do
  if profile.dio2RfSwitch then cmd cmdSetDio2AsRfSwitch [0x01] else pure ()
  cmd cmdSetPacketType [packetTypeLora]
  probe
  if frequency < 500000000 then cmd cmdCalibrateImage [0x6B, 0x6F]
  else cmd cmdCalibrateImage [0xD7, 0xDB]
  let frf := roundHalfEven (frequency / fstep)
  cmd cmdSetRfFrequency
    [lowByte (frf / 2 ^ 24), lowByte (frf / 2 ^ 16), lowByte (frf / 2 ^ 8), lowByte frf]

/-- The modulation and packet parameters. -/
def modem (settings : Settings) (bw : ℤ) : Driver Unit := do
  let tsym ← .ofExcept (symbolTime settings.sf settings.bandwidth)
  cmd cmdSetModulationParams [settings.sf, bw, settings.cr - 4, lowDataRate tsym]
  cmd cmdSetBufferBaseAddress [0x00, 0x00]
  setPacketParams settings.preamble maxPayload

/-- The end of `configure`: sync word, power, interrupts on DIO1. -/
def finish (settings : Settings) : Driver Unit := do
  writeRegister regLoraSyncWordMsb
    [(settings.syncword / 2 ^ 4 % 2 ^ 4 * 2 ^ 4).lor 0x04,
      (settings.syncword % 2 ^ 4 * 2 ^ 4).lor 0x04]
  setTxPower settings.txpower
  let irqs : ℤ := ((irqTxDone ||| irqRxDone ||| irqCrcErr ||| irqTimeout : ℕ) : ℤ)
  cmd cmdSetDioIrqParams
    [lowByte (irqs / 2 ^ 8), lowByte irqs, lowByte (irqs / 2 ^ 8), lowByte irqs, 0, 0, 0, 0]

/-- `configure`. -/
def configure (profile : Profile) (settings : Settings) : Driver Unit := do
  wake profile
  tune profile settings.frequency
  match bwTable.lookup settings.bandwidth with
  | none => .fail .radio
  | some bw =>
      modem settings bw
      finish settings

/-- `start_rx`: flags cleared, continuous reception. -/
def startRx : Driver Unit := do
  cmd cmdClearIrqStatus [0xFF, 0xFF]
  cmd cmdSetRx [0xFF, 0xFF, 0xFF]

def irqStatus : Driver ℕ := do
  let bytes ← query cmdGetIrqStatus 2 []
  pure (match bytes with
    | high :: low :: _ => high * 2 ^ 8 ||| low
    | _ => 0)

/-- What `poll_rx` does once the flags tell of an intact packet. -/
def readPacket : Driver (Option Reception) := do
  let status ← query cmdGetRxBufferStatus 2 []
  let length ← index status 0
  let start ← index status 1
  let payload ← query cmdReadBuffer length [start]
  let packet ← query cmdGetPacketStatus 3 []
  let rssi : ℚ := -(← index packet 0) / 2
  let snr : ℚ := signed (← index packet 1) / 4
  pure (if payload = [] then none else some ⟨payload, rssi, snr⟩)

/-- `poll_rx`. -/
def pollRx : Driver (Option Reception) := do
  let irq ← irqStatus
  if irq &&& irqRxDone = 0 then pure none
  else
    cmd cmdClearIrqStatus [lowByte ((irq : ℤ) / 2 ^ 8), lowByte irq]
    if irq &&& irqCrcErr ≠ 0 then pure none
    else readPacket

end Sx1262

end LorahamRns.Radio
