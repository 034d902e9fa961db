import LorahamRns.Radio.Sx1262

/-!
# Transmitting

`transmit` of both drivers.  The payload is loaded, TX-enable asserted and the
transmission started; then the status is polled up to a deadline, and TX-enable is
released however the polling ends.
-/

namespace LorahamRns.Radio

open LorahamRns.Lib

/-- A driver call whose second part stands in `try`/`finally`; the first part gives it
its deadline. -/
structure Guarded (α : Type) where
  before : Driver ℚ
  body : ℚ → Driver α
  cleanUp : Driver Unit

variable {α : Type}

/-- The whole call, in programs that make driver calls in a way of their own. -/
def Guarded.within {ε : Type} {answer : ε → Type} {error : Type}
    (make : {β : Type} → Driver β → Program ε answer error β) (call : Guarded α) :
    Program ε answer error α :=
  (make call.before).bind fun deadline =>
    (make (call.body deadline)).ensuring (make call.cleanUp)

def Guarded.run (call : Guarded α) : Driver α := call.within id

/-- `list(data)` on `bytes`. -/
def byteList (data : List UInt8) : List ℤ := data.map fun byte => (byte.toNat : ℤ)

/-- The length check at the head of `transmit`. -/
def checkLength (data : List UInt8) : Driver Unit :=
  if maxPayload < data.length then .fail .radio else pure ()

/-- `time.monotonic() + timeout_s`. -/
def deadlineIn (timeoutS : ℚ) : Driver ℚ := do
  let now ← monotonic
  pure (now + timeoutS)

namespace Sx127x

/-- The FIFO write and what comes before it. -/
def load (frequency : ℤ) (data : List UInt8) : Driver Unit := do
  checkLength data
  mode (lfBit frequency) modeStdby
  write regIrqFlags 0xFF
  write regFifoAddrPtr 0x00
  let _ ← xfer (((regFifo ||| 0x80 : ℕ) : ℤ) :: byteList data)
  write regPayloadLength data.length

/-- The command that starts the transmission. -/
def startTx (frequency : ℤ) : Driver Unit := mode (lfBit frequency) modeTx

/-- The `while` loop of `transmit`.  `polls` is how many times the clock is still
before the deadline. -/
def pollTxDone (deadline : ℚ) : ℕ → Driver Bool
  | 0 => do
      let _ ← monotonic
      pure false
  | polls + 1 => do
      let now ← monotonic
      if deadline ≤ now then pure false
      else
        let flags ← read regIrqFlags
        if flags &&& irqTxDone ≠ 0 then
          write regIrqFlags irqTxDone
          pure true
        else
          sleep 0.005
          pollTxDone deadline polls

/-- `transmit`. -/
def transmit (profile : Profile) (frequency : ℤ) (data : List UInt8) (timeoutS : ℚ)
    (polls : ℕ) : Guarded Bool where
  before := do
    load frequency data
    setTxen profile true
    startTx frequency
    deadlineIn timeoutS
  body deadline := pollTxDone deadline polls
  cleanUp := setTxen profile false

end Sx127x

namespace Sx1262

def cmdSetTx : ℤ := 0x83
def cmdWriteBuffer : ℤ := 0x0E

/-- The buffer write and what comes before it, with the configured preamble. -/
def load (preamble : ℤ) (data : List UInt8) : Driver Unit := do
  checkLength data
  cmd cmdSetStandby [standbyRc]
  cmd cmdClearIrqStatus [0xFF, 0xFF]
  setPacketParams preamble data.length
  cmd cmdWriteBuffer (0x00 :: byteList data)

/-- The command that starts the transmission, without a timeout of the chip's own. -/
def startTx : Driver Unit := cmd cmdSetTx [0x00, 0x00, 0x00]

/-- The `while` loop of `transmit`.  `polls` is how many times the clock is still
before the deadline. -/
def pollTxDone (deadline : ℚ) : ℕ → Driver Bool
  | 0 => do
      let _ ← monotonic
      pure false
  | polls + 1 => do
      let now ← monotonic
      if deadline ≤ now then pure false
      else
        let irq ← irqStatus
        if irq &&& irqTxDone ≠ 0 then
          cmd cmdClearIrqStatus [0xFF, 0xFF]
          pure true
        else if irq &&& irqTimeout ≠ 0 then
          cmd cmdClearIrqStatus [0xFF, 0xFF]
          pure false
        else
          sleep 0.005
          pollTxDone deadline polls

/-- `transmit`. -/
def transmit (profile : Profile) (preamble : ℤ) (data : List UInt8) (timeoutS : ℚ)
    (polls : ℕ) : Guarded Bool where
  before := do
    load preamble data
    setTxen profile true
    startTx
    deadlineIn timeoutS
  body deadline := pollTxDone deadline polls
  cleanUp := setTxen profile false

end Sx1262

/-! ## The driver of a board -/

/-- `transmit` of the driver `_DRIVERS` names for the chip. -/
def transmit (profile : Profile) (settings : Settings) (data : List UInt8) (timeoutS : ℚ)
    (polls : ℕ) : Guarded Bool :=
  match profile.chip with
  | .sx1276 | .sx1277 | .sx1278 =>
      Sx127x.transmit profile settings.frequency data timeoutS polls
  | .sx1262 => Sx1262.transmit profile settings.preamble data timeoutS polls

/-- `start_rx` of that driver. -/
def startRx (profile : Profile) (settings : Settings) : Driver Unit :=
  match profile.chip with
  | .sx1276 | .sx1277 | .sx1278 => Sx127x.startRx settings.frequency
  | .sx1262 => Sx1262.startRx

/-- `poll_rx` of that driver. -/
def pollRx (profile : Profile) (settings : Settings) : Driver (Option Reception) :=
  match profile.chip with
  | .sx1276 | .sx1277 | .sx1278 => Sx127x.pollRx settings.frequency
  | .sx1262 => Sx1262.pollRx

end LorahamRns.Radio
