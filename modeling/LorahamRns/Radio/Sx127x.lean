import LorahamRns.Radio.Airtime

/-!
# SX1276/77/78 driver

Register-based: a transaction of two bytes reads or writes one register, a longer
one moves the FIFO.
-/

namespace LorahamRns.Radio

open LorahamRns.Lib

/-- What `configure` is given. -/
structure Settings where
  frequency : ℤ
  bandwidth : ℤ
  sf : ℤ
  cr : ℤ
  txpower : ℤ
  syncword : ℤ
  preamble : ℤ

/-- A payload with its RSSI and SNR. -/
structure Reception where
  payload : List ℕ
  rssi : ℚ
  snr : ℚ

namespace Sx127x

def regFifo : ℕ := 0x00
def regOpMode : ℕ := 0x01
def regFrfMsb : ℕ := 0x06
def regPaConfig : ℕ := 0x09
def regOcp : ℕ := 0x0B
def regLna : ℕ := 0x0C
def regFifoAddrPtr : ℕ := 0x0D
def regFifoTxBase : ℕ := 0x0E
def regFifoRxBase : ℕ := 0x0F
def regFifoRxCurrent : ℕ := 0x10
def regIrqFlags : ℕ := 0x12
def regRxNbBytes : ℕ := 0x13
def regPktSnr : ℕ := 0x19
def regPktRssi : ℕ := 0x1A
def regModemConfig1 : ℕ := 0x1D
def regModemConfig2 : ℕ := 0x1E
def regPreambleMsb : ℕ := 0x20
def regPayloadLength : ℕ := 0x22
def regModemConfig3 : ℕ := 0x26
def regSyncWord : ℕ := 0x39
def regDioMapping1 : ℕ := 0x40
def regVersion : ℕ := 0x42
def regPaDac : ℕ := 0x4D

def modeSleep : ℤ := 0x00
def modeStdby : ℤ := 0x01
def modeTx : ℤ := 0x03
def modeRxCont : ℤ := 0x05
def modeLora : ℤ := 0x80
def modeLowFreq : ℤ := 0x08

def irqTxDone : ℕ := 0x08
def irqCrcError : ℕ := 0x20
def irqRxDone : ℕ := 0x40

def fstep : ℚ := 32000000 / 2 ^ 19

def bwTable : List (ℤ × ℤ) :=
  [(7800, 0), (10400, 1), (15600, 2), (20800, 3), (31250, 4), (41700, 5), (62500, 6),
    (125000, 7), (250000, 8), (500000, 9)]

def lowBandMaxHz : ℤ := 525000000

def expectedVersion : ℕ := 0x12

/-- `read`: the second byte clocked in. -/
def read (reg : ℕ) : Driver ℕ := do
  let received ← xfer [((reg % 0x80 : ℕ) : ℤ), 0x00]
  index received 1

def write (reg : ℕ) (value : ℤ) : Driver Unit := do
  let _ ← xfer [((reg ||| 0x80 : ℕ) : ℤ), lowByte value]
  pure ()

/-- The bank bit of the configured frequency, kept in every mode write. -/
def lfBit (frequency : ℤ) : ℤ := if frequency < lowBandMaxHz then modeLowFreq else 0

def mode (bank value : ℤ) : Driver Unit := write regOpMode (modeLora.lor (bank.lor value))

def probe : Driver Unit := do
  let version ← read regVersion
  if version = expectedVersion then pure () else .fail .radio

/-- `RegModemConfig1`, before the byte mask: bandwidth code, coding rate, explicit
header. -/
def modemConfig1 (bw cr : ℤ) : ℤ := (bw * 16).lor ((cr - 4) * 2)

/-- `RegModemConfig2`: spreading factor, CRC on. -/
def modemConfig2 (sf : ℤ) : ℤ := (sf * 16).lor 0x04

/-- `RegModemConfig3`: low data rate optimisation, automatic gain. -/
def modemConfig3 (ldro : ℤ) : ℤ := (ldro * 8).lor 0x04

/-- The first half of `configure`, up to the frequency. -/
def tune (profile : Profile) (frequency : ℤ) : Driver Unit := do
  let bank := lfBit frequency
  hardReset profile
  mode bank modeSleep
  sleep 0.01
  mode bank modeStdby
  probe
  let frf := roundHalfEven (frequency / fstep)
  write regFrfMsb (frf / 2 ^ 16)
  write (regFrfMsb + 1) (frf / 2 ^ 8)
  write (regFrfMsb + 2) frf

/-- The modem registers. -/
def modem (settings : Settings) (bw : ℤ) : Driver Unit := do
  write regModemConfig1 (modemConfig1 bw settings.cr)
  write regModemConfig2 (modemConfig2 settings.sf)
  let tsym ← .ofExcept (symbolTime settings.sf settings.bandwidth)
  write regModemConfig3 (modemConfig3 (lowDataRate tsym))
  write regPreambleMsb (settings.preamble / 2 ^ 8)
  write (regPreambleMsb + 1) settings.preamble

/-- The end of `configure`: sync word, gain, power, FIFO; the power through PA_BOOST. -/
def finish (settings : Settings) : Driver Unit := do
  write regSyncWord settings.syncword
  write regLna 0x23
  let dbm := max 2 (min 17 settings.txpower)
  write regPaDac 0x84
  write regOcp 0x2B
  write regPaConfig (Int.lor 0x80 (dbm - 2))
  write regFifoTxBase 0x00
  write regFifoRxBase 0x00
  write regDioMapping1 0x00

/-- `configure`. -/
def configure (profile : Profile) (settings : Settings) : Driver Unit := do
  if settings.sf < 7 then .fail .value
  else
    tune profile settings.frequency
    match bwTable.lookup settings.bandwidth with
    | none => .fail .radio
    | some bw =>
        modem settings bw
        finish settings

/-- `start_rx`: FIFO pointer and flags cleared, continuous reception. -/
def startRx (frequency : ℤ) : Driver Unit := do
  write regFifoAddrPtr 0x00
  write regIrqFlags 0xFF
  mode (lfBit frequency) modeRxCont

/-- What `poll_rx` does once the flags tell of an intact packet. -/
def readPacket (frequency : ℤ) : Driver (Option Reception) := do
  let count ← read regRxNbBytes
  let start ← read regFifoRxCurrent
  write regFifoAddrPtr start
  let received ← xfer (((regFifo % 0x80 : ℕ) : ℤ) :: List.replicate count 0)
  let payload := received.tail
  let snr : ℚ := signed (← read regPktSnr) / 4
  let strength : ℚ := (← read regPktRssi) - (if lfBit frequency = 0 then 157 else 164)
  let rssi := if snr < 0 then strength + snr else strength
  pure (if payload = [] then none else some ⟨payload, rssi, snr⟩)

/-- `poll_rx`. -/
def pollRx (frequency : ℤ) : Driver (Option Reception) := do
  let flags ← read regIrqFlags
  if flags &&& irqRxDone = 0 then pure none
  else
    write regIrqFlags ((irqRxDone ||| irqCrcError : ℕ) : ℤ)
    if flags &&& irqCrcError ≠ 0 then pure none
    else readPacket frequency

end Sx127x

end LorahamRns.Radio
