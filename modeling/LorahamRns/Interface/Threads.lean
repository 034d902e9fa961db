import LorahamRns.Interface.Worker
import LorahamRns.Lib.Transition
import LorahamRns.Spi.Xfer

/-!
# The threads of the interface

The workers, `detach` and the callers of `process_outgoing` step in any order over the
fields they share.  A bus transaction of a worker runs call by call, in competition with
the peer processes.
-/

namespace LorahamRns.Interface

open LorahamRns.Lib LorahamRns.Framing LorahamRns.Radio

/-! ## The shared state -/

inductive Who where
  | rx
  | tx
  | detacher
  | caller (number : ℕ)
  deriving DecidableEq

/-- What a thread has still to do in its turn, and the transaction it is inside of. -/
structure Thread where
  program : Worker Next
  xfer : Option Spi.Xfer

/-- The fields of the interface, the lines and the bus.  `lock` is `_radio_lock`, which no
thread takes twice. -/
structure World where
  run : Bool
  online : Bool
  event : Bool
  active : Bool
  fatal : Option Raised
  lock : Option Who
  queue : List Packet
  reassembler : Reassembler
  bus : Spi.Bus
  linesOpen : Bool
  busOpen : Bool
  threads : Who → Thread

def World.goTo (world : World) (who : Who) (thread : Thread) : World :=
  { world with threads := Function.update world.threads who thread }

@[simp]
theorem World.goTo_self (world : World) (who : Who) (thread : Thread) :
    (world.goTo who thread).threads who = thread := Function.update_self ..

theorem World.goTo_other (world : World) {who other : Who} (thread : Thread) (h : other ≠ who) :
    (world.goTo who thread).threads other = world.threads other := Function.update_of_ne h ..

/-! ## Calls -/

/-- The answers of one thread's calls, and what they do to the shared fields.  A released
line raises; a transaction is no single call. -/
def World.Answers (who : Who) : (call : Call) → World → call.Answer → World → Prop
  | .readRun, world, answer, after => answer = world.run ∧ after = world
  | .clearRun, world, _, after => after = { world with run := false }
  | .readOnline, world, answer, after => answer = world.online ∧ after = world
  | .clearOnline, world, _, after => after = { world with online := false }
  | .setFatal cause, world, _, after => after = { world with fatal := some cause }
  | .setEvent, world, _, after => after = { world with event := true }
  | .waitEvent, world, answer, after => answer = world.event ∧ after = world
  | .clearEvent, world, _, after => after = { world with event := false }
  | .queueLength, world, answer, after => answer = world.queue.length ∧ after = world
  | .append packet, world, _, after => after = { world with queue := world.queue ++ [packet] }
  | .popleft, world, answer, after =>
      answer = world.queue.head? ∧ after = { world with queue := world.queue.tail }
  | .readActive, world, answer, after => answer = world.active ∧ after = world
  | .setActive, world, _, after => after = { world with active := true }
  | .clearActive, world, _, after => after = { world with active := false }
  | .acquire, world, _, after => world.lock = none ∧ after = { world with lock := some who }
  | .release, world, _, after => after = { world with lock := none }
  | .radio (.xfer _), _, _, _ => False
  | .radio (.setTxen _), world, answer, after =>
      (answer = some true → world.linesOpen = true) ∧ after = world
  | .waitIrq, world, answer, after => (answer = true → world.linesOpen = true) ∧ after = world
  | .feed frame, world, answer, after =>
      ∃ now, answer = (world.reassembler.feed frame now).2 ∧
        after = { world with reassembler := (world.reassembler.feed frame now).1 }
  | .closeRadio, world, _, after => after = { world with linesOpen := false }
  | .closeBus, world, _, after =>
      -- closing the descriptor gives up its lock
      after = { world with
        busOpen := false
        bus.lock := if world.bus.lock = .ours then .free else world.bus.lock }
  | .radio _, world, _, after | .handOver _ _, world, _, after | .random, world, _, after
  | .reserve _, world, _, after | .time, world, _, after | .sleep _, world, _, after
  | .log _, world, _, after | .logTx _ _, world, _, after | .logRx _, world, _, after
  | .inbound _, world, _, after | .closeLog, world, _, after => after = world

/-- What a thread does where a turn has ended: the workers go round their loops, a caller
may come with another packet. -/
inductive Turn (iface : LoRaSPIInterface) : Who → Next → Worker Next → Prop where
  | rx : Turn iface .rx .outer (rxTurn iface)
  | outer : Turn iface .tx .outer txOuter
  | inner (fuel : ℕ) : Turn iface .tx .inner (txInner iface fuel)
  | caller (number : ℕ) (data : Bytes) :
      Turn iface (.caller number) .ended (processOutgoing iface data)

/-! ## Steps -/

inductive Label where
  | call (who : Who) (call : Call) (answer : call.Answer)
  | enters (who : Who) (payload : List ℤ)
  | bus (who : Who) (call : Spi.Call) (reply : call.Reply)
  | leaves (who : Who)
  | throws (who : Who)
  | turn (who : Who)
  | peer

/-- A step of a thread inside a driver call. -/
def Label.UsesRadio (who : Who) : Label → Prop
  | .call other (.radio _) _ | .enters other _ | .bus other _ _ | .leaves other
  | .throws other => other = who
  | _ => False

/-- One step of one thread, or of a peer process on the bus.  `soft` tells whether the bus
drives the chip select itself. -/
inductive World.Step (soft : Bool) (iface : LoRaSPIInterface) :
    World → Label → World → Prop where
  | call {world after : World} {who : Who} {call : Call} {next : call.Answer → Worker Next}
      {answer : call.Answer} (here : world.threads who = ⟨.call call next, none⟩)
      (answered : World.Answers who call world answer after) :
      Step soft iface world (.call who call answer) (after.goTo who ⟨next answer, none⟩)
  | enters {world : World} {who : Who} {payload : List ℤ}
      {next : (Call.radio (.xfer payload)).Answer → Worker Next}
      (here : world.threads who = ⟨.call (.radio (.xfer payload)) next, none⟩) :
      Step soft iface world (.enters who payload)
        (world.goTo who ⟨.call (.radio (.xfer payload)) next, some (.begin payload)⟩)
  | bus {world : World} {who : Who} {program : Worker Next} {point : Spi.Xfer} {call : Spi.Call}
      {resume : call.Reply → Spi.Xfer} {reply : call.Reply} {bus : Spi.Bus}
      (here : world.threads who = ⟨program, some point⟩)
      (asks : point.next soft = .call call resume)
      (answered : Spi.Bus.Answers call world.bus reply bus)
      (closed : world.busOpen = false → call = .monotonic ∨ call.failed reply = true) :
      Step soft iface world (.bus who call reply)
        ({ world with bus }.goTo who ⟨program, some (resume reply)⟩)
  | leaves {world : World} {who : Who} {payload : List ℤ} {outcome : Spi.Outcome}
      {next : (Call.radio (.xfer payload)).Answer → Worker Next}
      (here : world.threads who =
        ⟨.call (.radio (.xfer payload)) next, some (.returned outcome)⟩) :
      Step soft iface world (.leaves who) (world.goTo who ⟨next (some outcome.toOption), none⟩)
  | throws {world : World} {who : Who} {payload : List ℤ}
      {next : (Call.radio (.xfer payload)).Answer → Worker Next}
      (here : world.threads who = ⟨.call (.radio (.xfer payload)) next, none⟩) :
      Step soft iface world (.throws who) (world.goTo who ⟨next none, none⟩)
  | turn {world : World} {who : Who} {next : Next} {program : Worker Next}
      (here : world.threads who = ⟨.done next, none⟩) (goesOn : Turn iface who next program) :
      Step soft iface world (.turn who) (world.goTo who ⟨program, none⟩)
  | peer {world : World} {bus : Spi.Bus} (moved : Spi.Bus.PeerStep world.bus bus) :
      Step soft iface world .peer { world with bus }

/-- The end of `__init__`: both loops are about to start, `detach` may come at any time. -/
structure World.Initial (iface : LoRaSPIInterface) (world : World) : Prop where
  run : world.run = true
  online : world.online = true
  event : world.event = false
  active : world.active = false
  fatal : world.fatal = none
  lock : world.lock = none
  queue : world.queue = []
  reassembler : world.reassembler = .fresh iface.maxAge
  lines : world.linesOpen = true
  bus : world.busOpen = true
  rx : world.threads .rx = ⟨.done .outer, none⟩
  tx : world.threads .tx = ⟨.done .outer, none⟩
  detacher : world.threads .detacher = ⟨detach, none⟩
  caller : ∀ number, world.threads (.caller number) = ⟨.done .ended, none⟩

def threads (soft : Bool) (iface : LoRaSPIInterface) : System World Label where
  init := World.Initial iface
  step := World.Step soft iface

/-! ## What a step leaves -/

/-- The thread that takes the step. -/
def Label.mover : Label → Option Who
  | .call who _ _ | .enters who _ | .bus who _ _ | .leaves who | .throws who | .turn who =>
      some who
  | .peer => none

section Step

variable {soft : Bool} {iface : LoRaSPIInterface} {world after : World} {label : Label}
  {who : Who}

/-- Calls leave the threads alone, and all but one leave `_run`. -/
theorem World.Answers.frame {call : Call} {answer : call.Answer}
    (answered : World.Answers who call world answer after) :
    after.threads = world.threads ∧
      (after.run = world.run ∨ call = .clearRun ∧ after.run = false) := by
  cases call with
  | clearRun =>
      cases answered
      exact ⟨rfl, Or.inr ⟨rfl, rfl⟩⟩
  | readRun | readOnline | waitEvent | queueLength | readActive | waitIrq | acquire | popleft =>
      obtain ⟨-, rfl⟩ := answered
      exact ⟨rfl, Or.inl rfl⟩
  | feed frame =>
      obtain ⟨now, -, rfl⟩ := answered
      exact ⟨rfl, Or.inl rfl⟩
  | radio effect =>
      cases effect with
      | xfer payload => exact answered.elim
      | setTxen on =>
          obtain ⟨-, rfl⟩ := answered
          exact ⟨rfl, Or.inl rfl⟩
      | _ =>
          cases answered
          exact ⟨rfl, Or.inl rfl⟩
  | _ =>
      cases answered
      exact ⟨rfl, Or.inl rfl⟩

/-- A thread that does not take the step stays where it is. -/
theorem World.Step.unmoved (taken : World.Step soft iface world label after)
    (other : label.mover ≠ some who) : after.threads who = world.threads who := by
  have apart (mover : Who) (same : label.mover = some mover) : who ≠ mover :=
    fun equal => other (equal ▸ same)
  cases taken with
  | call here answered =>
      rw [World.goTo_other _ _ (apart _ rfl), answered.frame.1]
  | enters here => exact World.goTo_other _ _ (apart _ rfl)
  | bus here asks answered closed => exact World.goTo_other _ _ (apart _ rfl)
  | leaves here => exact World.goTo_other _ _ (apart _ rfl)
  | throws here => exact World.goTo_other _ _ (apart _ rfl)
  | turn here goesOn => exact World.goTo_other _ _ (apart _ rfl)
  | peer moved => rfl

/-- `_run` is never set again; clearing it is a call of its own. -/
theorem World.Step.run (taken : World.Step soft iface world label after) :
    after.run = world.run ∨
      (∃ who answer, label = .call who .clearRun answer) ∧ after.run = false := by
  cases taken with
  | @call _ who _ _ answer here answered =>
      rcases answered.frame.2 with same | ⟨rfl, down⟩
      · exact Or.inl same
      · exact Or.inr ⟨⟨who, answer, rfl⟩, down⟩
  | _ => exact Or.inl rfl

theorem World.Step.down (taken : World.Step soft iface world label after)
    (down : world.run = false) : after.run = false := by
  rcases taken.run with same | ⟨-, cleared⟩
  · exact same.trans down
  · exact cleared

theorem World.Step.cleared {answer : Call.clearRun.Answer}
    (taken : World.Step soft iface world label after) (this : label = .call who .clearRun answer) :
    after.run = false := by
  subst this
  cases taken with
  | call here answered =>
      cases answered
      rfl

end Step

end LorahamRns.Interface
