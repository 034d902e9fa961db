import LorahamRns.Lib.Program

/-!
# Radio drivers

A driver is a program over bus transactions, lines and the clock.  Bytes that
arrive are natural numbers; what is sent is computed with integers.
-/

namespace LorahamRns.Radio

open LorahamRns.Lib

def maxPayload : ℕ := 255

/-- The calls a driver makes.  `waitBusy` and `reset` stand for the bounded waits on
the BUSY and RESET lines. -/
inductive Effect where
  | xfer (payload : List ℤ)
  | setTxen (on : Bool)
  | waitBusy
  | reset
  | monotonic
  | sleep (seconds : ℚ)

/-- `none` where `xfer` raises; `true` where a line could be driven. -/
@[reducible]
def Effect.Answer : Effect → Type
  | .xfer _ => Option (List ℕ)
  | .setTxen _ | .waitBusy | .reset => Bool
  | .monotonic => ℚ
  | .sleep _ => Unit

/-- What a driver raises: `SpiBusError`, `RadioError`, `ValueError`, the arithmetic
errors, or an index out of range. -/
inductive Fault where
  | spiBus
  | radio
  | value
  | zeroDivision
  | overflow
  | index
  deriving DecidableEq

abbrev Driver (α : Type) : Type := Program Effect Effect.Answer Fault α

/-- `value & 0xFF` on a Python integer. -/
def lowByte (value : ℤ) : ℤ := value % 256

/-- One bus transaction. -/
def xfer (payload : List ℤ) : Driver (List ℕ) :=
  .call (.xfer payload) fun
    | some received => .done received
    | none => .fail .spiBus

/-- A line or a wait that raises `RadioError` on failure. -/
def require (effect : Effect) (succeeded : effect.Answer → Bool) : Driver Unit :=
  .call effect fun reply => if succeeded reply then .done () else .fail .radio


def waitBusy : Driver Unit := require .waitBusy id

/-- The chips the profiles name. -/
inductive Chip where
  | sx1276
  | sx1277
  | sx1278
  | sx1262
  deriving DecidableEq

/-- The wiring of a board that the drivers look at; `none` where a line is not
connected, 0 V where there is no TCXO. -/
structure Profile where
  chip : Chip
  cs : ℕ
  reset : Option ℕ
  busy : Option ℕ
  txen : Option ℕ
  tcxoVoltage : ℚ
  dio2RfSwitch : Bool
  deriving DecidableEq

/-- `hard_reset`, which does nothing where RESET is not wired. -/
def hardReset (profile : Profile) : Driver Unit :=
  if profile.reset.isSome then require .reset id else .done ()

def monotonic : Driver ℚ := .call .monotonic .done

def sleep (seconds : ℚ) : Driver Unit := .call (.sleep seconds) .done

/-- `set_txen`, which does nothing where the line is not wired. -/
def setTxen (profile : Profile) (on : Bool) : Driver Unit :=
  if profile.txen.isSome then require (.setTxen on) id else .done ()

/-- Indexing that raises outside the list. -/
def index (bytes : List ℕ) (place : ℕ) : Driver ℕ :=
  match bytes[place]? with
  | some byte => .done byte
  | none => .fail .index

/-- A two's complement byte. -/
def signed (byte : ℕ) : ℤ := if 127 < byte then (byte : ℤ) - 256 else byte

end LorahamRns.Radio
