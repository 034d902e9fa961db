import LorahamRns.Lib.Process

/-!
# SpiBus

One transaction takes the shared lock, asserts the chip select, clocks the
transfer, releases the chip select and gives the lock back.  Every call into the
system may fail.  A transaction is at one of its points and goes on with the
answer to the call it makes there.
-/

namespace LorahamRns.Spi

open LorahamRns.Lib

/-- The reasons an `SpiBusError` is raised for inside a transaction. -/
inductive SpiBusError where
  | lockFailed
  | lockTimeout
  | assertFailed
  | transferFailed
  | releaseFailed
  | unlockFailed
  deriving DecidableEq

/-- The logical value of the active-low chip select. -/
inductive Value where
  | active
  | inactive
  deriving DecidableEq

/-- A non-blocking `flock`: granted, `EAGAIN`/`EACCES`/`EINTR`, or another error. -/
inductive FlockReply where
  | granted
  | again
  | failed
  deriving DecidableEq

/-- The calls a transaction makes. -/
inductive Call where
  | monotonic
  | flock
  | setValue (value : Value)
  | xfer2 (payload : List ℤ)
  | unlock
  deriving DecidableEq

/-- `true` where the call succeeds; a transfer gives the bytes clocked in. -/
@[reducible]
def Call.Reply : Call → Type
  | .monotonic => ℚ
  | .flock => FlockReply
  | .setValue _ => Bool
  | .xfer2 _ => Option (List ℕ)
  | .unlock => Bool

/-- The reply reports a failure of the GPIO line, the bus or the lock. -/
def Call.failed : (call : Call) → call.Reply → Bool
  | .monotonic, _ => false
  | .flock, reply => reply = .failed
  | .setValue _, succeeded => !succeeded
  | .xfer2 _, received => received.isNone
  | .unlock, succeeded => !succeeded

abbrev Outcome : Type := Except SpiBusError (List ℕ)

def lockTimeoutS : ℚ := 2

/-- Where a call of `xfer` is.  `locking` and `contended` are the loop of
`_acquire`; the last three points carry what the `finally` clauses go on with. -/
inductive Xfer where
  | begin (payload : List ℤ)
  | locking (payload : List ℤ) (deadline : ℚ)
  | contended (payload : List ℤ) (deadline : ℚ)
  | asserting (payload : List ℤ)
  | clocking (payload : List ℤ)
  | releasing (outcome : Outcome)
  | unlocking (outcome : Outcome)
  | returned (outcome : Outcome)

/-- `softCs` tells whether the bus drives the chip select itself; with kernel
chip selects the transfer is all there is under the lock. -/
def Xfer.next (softCs : Bool) : Xfer → Action Call Call.Reply Xfer Outcome
  | .begin payload => .call .monotonic fun now => .locking payload (now + lockTimeoutS)
  | .locking payload deadline =>
      .call .flock fun
        | .granted => if softCs then .asserting payload else .clocking payload
        | .again => .contended payload deadline
        | .failed => .returned (.error .lockFailed)
  | .contended payload deadline =>
      .call .monotonic fun now =>
        if deadline ≤ now then .returned (.error .lockTimeout) else .locking payload deadline
  | .asserting payload =>
      .call (.setValue .active) fun succeeded =>
        if succeeded then .clocking payload else .unlocking (.error .assertFailed)
  | .clocking payload =>
      .call (.xfer2 payload) fun received =>
        let outcome : Outcome := match received with
          | some bytes => .ok bytes
          | none => .error .transferFailed
        if softCs then .releasing outcome else .unlocking outcome
  | .releasing outcome =>
      .call (.setValue .inactive) fun succeeded =>
        .unlocking (if succeeded then outcome else .error .releaseFailed)
  | .unlocking outcome =>
      .call .unlock fun succeeded =>
        .returned (if succeeded then outcome else .error .unlockFailed)
  | .returned outcome => .stop outcome

/-- The points between taking the lock and giving it back. -/
def Xfer.Locked : Xfer → Prop
  | .asserting _ | .clocking _ | .releasing _ | .unlocking _ => True
  | _ => False

/-! ## The shared bus -/

/-- Who holds `spi0.lock`. -/
inductive Holder where
  | free
  | ours
  | peer (process : ℕ)
  deriving DecidableEq

/-- An attempt to drive the chip select, and whether the call succeeded. -/
structure Drive where
  value : Value
  succeeded : Bool
  deriving DecidableEq

/-- What was in force when a transfer was clocked. -/
structure Clocked where
  lock : Holder
  drive : Drive
  payload : List ℤ

/-- The lock, the last attempt on the chip select, the pin itself and the
transfers clocked so far. -/
structure Bus where
  lock : Holder
  drive : Drive
  pin : Value
  clocked : List Clocked

/-- The answers the system may give.  A granted `flock` needs the lock free or
already held through the same descriptor; a failed call on the line may or may not
have moved the pin; a failed unlock leaves the lock held. -/
def Bus.Answers : (call : Call) → Bus → call.Reply → Bus → Prop
  | .monotonic, bus, _, after => after = bus
  | .flock, bus, .granted, after =>
      (bus.lock = .free ∨ bus.lock = .ours) ∧ after = { bus with lock := .ours }
  | .flock, bus, .again, after => after = bus
  | .flock, bus, .failed, after => after = bus
  | .setValue value, bus, succeeded, after =>
      ∃ pin, (pin = value ∨ succeeded = false ∧ pin = bus.pin) ∧
        after = { bus with drive := ⟨value, succeeded⟩, pin }
  | .xfer2 payload, bus, _, after =>
      after = { bus with clocked := ⟨bus.lock, bus.drive, payload⟩ :: bus.clocked }
  | .unlock, bus, true, after => after = { bus with lock := .free }
  | .unlock, bus, false, after => after = bus

/-- A peer process takes the lock while it is free, and gives back what it holds. -/
inductive Bus.PeerStep : Bus → Bus → Prop where
  | locks {bus : Bus} (process : ℕ) (free : bus.lock = .free) :
      PeerStep bus { bus with lock := .peer process }
  | unlocks {bus : Bus} {process : ℕ} (held : bus.lock = .peer process) :
      PeerStep bus { bus with lock := .free }

end LorahamRns.Spi
