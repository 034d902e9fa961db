import LorahamRns.Lib.Transition
import LorahamRns.Radio.Sx1262

/-!
# Chips in continuous reception

The two chip families as far as `poll_rx` talks to them.  Between any two
transactions the chip may finish receiving packets; each one updates flags, length,
start pointer and buffer together.
-/

namespace LorahamRns.Radio

open LorahamRns.Lib

/-- A packet as the chip received it: its bytes, where it put them, and whether the CRC
was right. -/
structure Packet where
  bytes : List ℕ
  start : ZMod 256
  good : Bool
  fits : bytes.length ≤ maxPayload

/-- The state of a chip.  `seen`, `counted`, `target` and `aimed` record for the
specifications what the driver has read: the packets received when it read the
flags, the length it read, the packet whose start it read and the packets received
then. -/
structure Chip.State where
  flags : ℕ
  length : ℕ
  start : ZMod 256
  buffer : ZMod 256 → ℕ
  pointer : ZMod 256
  received : List Packet
  seen : ℕ
  counted : ℕ
  target : Option Packet
  aimed : ℕ

namespace Chip.State

/-- The buffer with a packet written from its start, wrapping at the end. -/
def store (chip : State) (packet : Packet) : ZMod 256 → ℕ := fun address =>
  (packet.bytes[(address - packet.start).val]?).getD (chip.buffer address)

/-- The bytes from an address on. -/
def window (chip : State) (first : ZMod 256) (count : ℕ) : List ℕ :=
  (List.range count).map fun place : ℕ => chip.buffer (first + place)

/-- The buffer still has the whole packet. -/
def Holds (chip : State) (packet : Packet) : Prop :=
  chip.window packet.start packet.bytes.length = packet.bytes

end Chip.State

/-- The bit numbers of a family's flags for a finished reception and a wrong CRC. -/
structure Flags where
  rxDone : ℕ
  crcError : ℕ
  apart : rxDone ≠ crcError

namespace Chip.State

/-- A reception ends: its flags are added to those pending. -/
def receive (bits : Flags) (chip : State) (packet : Packet) : State :=
  { chip with
    flags := chip.flags ||| 2 ^ bits.rxDone ||| (if packet.good then 0 else 2 ^ bits.crcError)
    length := packet.bytes.length
    start := packet.start
    buffer := chip.store packet
    received := packet :: chip.received }

/-- Any number of receptions end. -/
inductive Receives (bits : Flags) : State → State → Prop where
  | refl (chip : State) : Receives bits chip chip
  | step {chip after : State} (packet : Packet) (rest : Receives bits (chip.receive bits packet) after) :
      Receives bits chip after

/-- Flags written with ones are cleared. -/
def clear (chip : State) (mask : ℕ) : State := { chip with flags := chip.flags.ldiff mask }

def seeFlags (chip : State) : State := { chip with seen := chip.received.length }

def seeLength (chip : State) : State := { chip with counted := chip.length }

def seeStart (chip : State) : State :=
  { chip with target := chip.received.head?, aimed := chip.received.length }

/-- The packet whose start is read is the one whose flags were read, or at least intact
and of the length read. -/
def SameLength (chip : State) : Prop :=
  chip.received.length = chip.seen ∨
    ∃ packet ∈ chip.received.head?, packet.good = true ∧ packet.bytes.length = chip.counted

/-- Nothing received since its start was read has overwritten the packet. -/
def Unspoilt (chip : State) : Prop :=
  chip.received.length = chip.aimed ∨ ∀ packet ∈ chip.target, chip.Holds packet

end Chip.State

/-! ## SX127x -/

namespace Sx127x

def flags : Flags := ⟨6, 5, by decide⟩

/-- The register a one-byte read finds; signal quality is whatever it is. -/
def Reads (chip : Chip.State) (address value : ℕ) : Prop :=
  (address = regIrqFlags → value = chip.flags) ∧ (address = regRxNbBytes → value = chip.length) ∧
    (address = regFifoRxCurrent → value = chip.start.val)

/-- What a read leaves recorded. -/
def seen (chip : Chip.State) (address : ℕ) : Chip.State :=
  if address = regIrqFlags then chip.seeFlags
  else if address = regRxNbBytes then chip.seeLength
  else if address = regFifoRxCurrent then chip.seeStart
  else chip

/-- A register write; only flags and FIFO pointer matter here. -/
def written (chip : Chip.State) (address value : ℕ) : Chip.State :=
  if address = regIrqFlags then chip.clear value
  else if address = regFifoAddrPtr then { chip with pointer := value }
  else chip

/-- A transaction: address 0 reads the FIFO from its pointer, other addresses below
0x80 read a register, the ones above write it. -/
inductive Transacts : List ℤ → Chip.State → List ℕ → Chip.State → Prop where
  | fifo (chip : Chip.State) (rest : List ℤ) (junk : ℕ) :
      Transacts (0 :: rest) chip (junk :: chip.window chip.pointer rest.length)
        { chip with pointer := chip.pointer + rest.length }
  | read {chip : Chip.State} {address value : ℕ} (junk : ℕ) (register : 0 < address)
      (low : address < 0x80) (reads : Reads chip address value) :
      Transacts [(address : ℤ), 0] chip [junk, value] (seen chip address)
  | write {chip : Chip.State} {address value : ℕ} (reply : List ℕ) (low : address < 0x80) :
      Transacts [((address ||| 0x80 : ℕ) : ℤ), (value : ℤ)] chip reply
        (written chip address value)

/-- The condition at the transactions that read the start and the FIFO. -/
def Undisturbed (payload : List ℤ) (chip : Chip.State) : Prop :=
  (payload.head? = some (regFifoRxCurrent : ℤ) → chip.SameLength) ∧
    (payload.head? = some (regFifo : ℤ) → chip.Unspoilt)

end Sx127x

/-! ## SX1262 -/

namespace Sx1262

def flags : Flags := ⟨1, 6, by decide⟩

/-- A transaction: an opcode with its parameters.  Replies begin with status bytes. -/
inductive Transacts : List ℤ → Chip.State → List ℕ → Chip.State → Prop where
  | irqStatus {chip : Chip.State} (rest : List ℤ) (first second : ℕ) :
      Transacts (cmdGetIrqStatus :: rest) chip
        [first, second, chip.flags / 2 ^ 8, chip.flags % 2 ^ 8] chip.seeFlags
  | clear {chip : Chip.State} (high low : ℕ) (reply : List ℕ) :
      Transacts [cmdClearIrqStatus, (high : ℤ), (low : ℤ)] chip reply
        (chip.clear (high * 2 ^ 8 + low))
  | bufferStatus {chip : Chip.State} (rest : List ℤ) (first second : ℕ) :
      Transacts (cmdGetRxBufferStatus :: rest) chip
        [first, second, chip.length, chip.start.val] chip.seeLength.seeStart
  | buffer {chip : Chip.State} (start : ℕ) (rest : List ℤ) (first second third : ℕ) :
      Transacts (cmdReadBuffer :: (start : ℤ) :: rest) chip
        (first :: second :: third :: chip.window start (rest.length - 1)) chip
  | packetStatus {chip : Chip.State} (rest : List ℤ) (reply : List ℕ) :
      Transacts (cmdGetPacketStatus :: rest) chip reply chip

/-- The condition at the transactions that read length and start, and the buffer. -/
def Undisturbed (payload : List ℤ) (chip : Chip.State) : Prop :=
  (payload.head? = some cmdGetRxBufferStatus → chip.received.length = chip.seen ∨
      ∃ packet ∈ chip.received.head?, packet.good = true) ∧
    (payload.head? = some cmdReadBuffer → chip.Unspoilt)

end Sx1262

/-! ## Polling -/

/-- A chip family with its driver's `poll_rx`. -/
inductive Family where
  | sx127x (frequency : ℤ)
  | sx1262

def Family.flags : Family → Flags
  | .sx127x _ => Sx127x.flags
  | .sx1262 => Sx1262.flags

def Family.pollRx : Family → Driver (Option Reception)
  | .sx127x frequency => Sx127x.pollRx frequency
  | .sx1262 => Sx1262.pollRx

def Family.Transacts : Family → List ℤ → Chip.State → List ℕ → Chip.State → Prop
  | .sx127x _ => Sx127x.Transacts
  | .sx1262 => Sx1262.Transacts

def Family.Undisturbed : Family → List ℤ → Chip.State → Prop
  | .sx127x _ => Sx127x.Undisturbed
  | .sx1262 => Sx1262.Undisturbed

/-- The chip behind the bus: packets may arrive before every transaction, and one that
fails may or may not have reached the chip. -/
def Family.busWith (family : Family) (allowed : List ℤ → Chip.State → Prop) :
    Program.Environment Effect Effect.Answer Chip.State
  | .xfer payload, chip, some reply, after =>
      ∃ mid, chip.Receives family.flags mid ∧ allowed payload mid ∧
        family.Transacts payload mid reply after
  | .xfer payload, chip, none, after =>
      ∃ mid, chip.Receives family.flags mid ∧
        (after = mid ∨ ∃ reply, family.Transacts payload mid reply after)
  | .setTxen _, chip, _, after | .waitBusy, chip, _, after | .reset, chip, _, after
  | .monotonic, chip, _, after | .sleep _, chip, _, after => chip.Receives family.flags after

/-- The receiving side: the chip and the payloads `poll_rx` has returned. -/
structure Receiver where
  chip : Chip.State
  delivered : List (List ℕ)

inductive ReceiverStep where
  | received (packet : Packet)
  | polled (result : Option Reception)

/-- The chip after `start_rx`, with its flags cleared. -/
structure Receiver.Initial (receiver : Receiver) : Prop where
  flags : receiver.chip.flags = 0
  received : receiver.chip.received = []
  delivered : receiver.delivered = []

/-- Packets arrive, and the RX loop polls.  A poll that fails is the last one: the
interface goes offline. -/
def receiving (family : Family) (allowed : List ℤ → Chip.State → Prop) :
    System Receiver ReceiverStep where
  init := Receiver.Initial
  step receiver label after :=
    match label with
    | .received packet =>
        after = { receiver with chip := receiver.chip.receive family.flags packet }
    | .polled result =>
        Program.Path (family.busWith allowed) family.pollRx receiver.chip (.done result)
            after.chip ∧
          after.delivered = (result.map Reception.payload).toList ++ receiver.delivered

end LorahamRns.Radio
