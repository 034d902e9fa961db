import LorahamRns.Interface.Threads
import LorahamRns.Lib.Monitor

/-!
# Runs under watch

One monitor watches every thread, each from a place of its own.  What ties the places to
the shared fields, and to the trace, is kept by a run as soon as every answered call keeps
it: the steps inside of transactions and those of the peers touch neither.
-/

namespace LorahamRns.Interface

open LorahamRns.Lib LorahamRns.Framing LorahamRns.Radio

/-- The fields the threads share, the bus left out. -/
structure Fields where
  run : Bool
  online : Bool
  event : Bool
  active : Bool
  fatal : Option Raised
  lock : Option Who
  queue : List Packet
  reassembler : Reassembler

def World.fields (world : World) : Fields where
  run := world.run
  online := world.online
  event := world.event
  active := world.active
  fatal := world.fatal
  lock := world.lock
  queue := world.queue
  reassembler := world.reassembler

/-- Every thread is accepted from its place. -/
def Watched {Place : Type} (monitor : Monitor Call Call.Answer Place)
    (post : Who → Next → Place → Prop) (fault : Raised → Place → Prop) (world : World)
    (places : Who → Place) : Prop :=
  ∀ who, (world.threads who).program.Keeps monitor (post who) fault (places who)

/-- What a relation of the trace, the fields and the places has to be kept by. -/
structure Tied {Place : Type} (monitor : Monitor Call Call.Answer Place)
    (shared : List Label → Fields → (Who → Place) → Prop) : Prop where
  /-- An answered call. -/
  call : ∀ {trace : List Label} {world after : World} {places : Who → Place} {who : Who}
    {call : Call} {answer : call.Answer} {place : Place},
    shared trace world.fields places → monitor (places who) call answer = some place →
      World.Answers who call world answer after →
        shared (trace ++ [.call who call answer]) after.fields (Function.update places who place)
  /-- A transaction that comes back. -/
  back : ∀ {trace : List Label} {fields : Fields} {places : Who → Place} {who : Who}
    {label : Label} {payload : List ℤ} {reply : (Call.radio (.xfer payload)).Answer}
    {place : Place}, shared trace fields places →
      monitor (places who) (.radio (.xfer payload)) reply = some place →
        label = .leaves who ∨ label = .throws who →
          shared (trace ++ [label]) fields (Function.update places who place)
  /-- Any other step. -/
  quiet : ∀ {trace : List Label} {fields : Fields} {places : Who → Place} {label : Label},
    shared trace fields places → (∀ who call answer, label ≠ .call who call answer) →
      shared (trace ++ [label]) fields places

section Run

variable {Place : Type} {monitor : Monitor Call Call.Answer Place}
  {post : Who → Next → Place → Prop}
  {fault : Raised → Place → Prop} {shared : List Label → Fields → (Who → Place) → Prop}
  {soft : Bool} {iface : LoRaSPIInterface} {world after : World} {places : Who → Place}

theorem Watched.goTo {who : Who} {thread : Thread} {place : Place}
    (h : Watched monitor post fault world places) (threads : after.threads = world.threads)
    (keeps : thread.program.Keeps monitor (post who) fault place) :
    Watched monitor post fault (after.goTo who thread) (Function.update places who place) := by
  intro other
  by_cases same : other = who
  · subst same
    rw [World.goTo_self, Function.update_self]
    exact keeps
  · rw [World.goTo_other _ _ same, Function.update_of_ne same, threads]
    exact h other

/-- A thread whose program stays what it was. -/
theorem Watched.stays {who : Who} {thread : Thread} (h : Watched monitor post fault world places)
    (same : thread.program = (world.threads who).program) :
    Watched monitor post fault (world.goTo who thread) places := by
  have moved : Watched monitor post fault (world.goTo who thread)
      (Function.update places who (places who)) := h.goTo rfl (same ▸ h who)
  rwa [Function.update_eq_self] at moved

theorem Watched.step {trace : List Label} {label : Label} (tied : Tied monitor shared)
    (turns : ∀ {who next program place}, Turn iface who next program → post who next place →
      program.Keeps monitor (post who) fault place)
    (h : Watched monitor post fault world places) (ties : shared trace world.fields places)
    (taken : World.Step soft iface world label after) :
    ∃ places, Watched monitor post fault after places ∧
      shared (trace ++ [label]) after.fields places := by
  cases taken with
  | @call _ who call next answer here answered =>
      have keeps := h who
      rw [here] at keeps
      obtain ⟨place, moved, keeps⟩ := keeps.step answer
      have shares := tied.call ties moved answered
      exact ⟨_, h.goTo answered.frame.1 keeps, shares⟩
  | @enters who payload next here =>
      refine ⟨places, h.stays (by rw [here]), tied.quiet ties ?_⟩
      rintro _ _ _ ⟨⟩
  | @bus who program point call resume reply bus here asks answered closed =>
      have same : Watched monitor post fault { world with bus } places := h
      refine ⟨places, same.stays (by rw [here]), tied.quiet ties ?_⟩
      rintro _ _ _ ⟨⟩
  | @leaves who payload outcome next here =>
      have keeps := h who
      rw [here] at keeps
      obtain ⟨place, moved, keeps⟩ := keeps.step (some outcome.toOption)
      exact ⟨_, h.goTo rfl keeps, tied.back ties moved (Or.inl rfl)⟩
  | @throws who payload next here =>
      have keeps := h who
      rw [here] at keeps
      obtain ⟨place, moved, keeps⟩ := keeps.step none
      exact ⟨_, h.goTo rfl keeps, tied.back ties moved (Or.inr rfl)⟩
  | @turn who next program here goesOn =>
      have ends := h who
      rw [here] at ends
      have moved : Watched monitor post fault (world.goTo who ⟨program, none⟩)
          (Function.update places who (places who)) := h.goTo rfl (turns goesOn ends)
      rw [Function.update_eq_self] at moved
      refine ⟨places, moved, tied.quiet ties ?_⟩
      rintro _ _ _ ⟨⟩
  | peer moved =>
      refine ⟨places, h, tied.quiet ties ?_⟩
      rintro _ _ _ ⟨⟩

/-- The rule: what holds at the start, and is tied to the places, holds after every run. -/
theorem run_watched {trace : List Label} (start : Who → Place)
    (run : (threads soft iface).Run world trace) (tied : Tied monitor shared)
    (turns : ∀ {who next program place}, Turn iface who next program → post who next place →
      program.Keeps monitor (post who) fault place)
    (detaches : detach.Keeps monitor (post .detacher) fault (start .detacher))
    (rx : post .rx .outer (start .rx)) (tx : post .tx .outer (start .tx))
    (callers : ∀ number, post (.caller number) .ended (start (.caller number)))
    (initial : ∀ world : World, world.Initial iface → shared [] world.fields start) :
    ∃ places, Watched monitor post fault world places ∧ shared trace world.fields places := by
  induction run with
  | @start world h =>
      refine ⟨start, fun who => ?_, initial world h⟩
      cases who with
      | rx =>
          rw [h.rx]
          exact rx
      | tx =>
          rw [h.tx]
          exact tx
      | detacher =>
          rw [h.detacher]
          exact detaches
      | caller number =>
          rw [h.caller]
          exact callers number
  | step _ taken ih =>
      obtain ⟨_, watched, ties⟩ := ih
      exact watched.step tied turns ties taken

end Run

/-! ## Permitted calls -/

/-- A step makes only calls that are permitted. -/
def Label.Asks (permitted : Call → Prop) : Label → Prop
  | .call _ this _ => permitted this
  | .enters _ payload => permitted (.radio (.xfer payload))
  | _ => True

/-- Every thread has only permitted calls left. -/
def Restrained (permitted : Call → Prop) (world : World) : Prop :=
  ∀ who, (world.threads who).program.Only permitted

section Restrained

variable {permitted : Call → Prop} {soft : Bool} {iface : LoRaSPIInterface} {world after : World}

theorem Restrained.goTo {who : Who} {thread : Thread} (h : Restrained permitted world)
    (threads : after.threads = world.threads) (only : thread.program.Only permitted) :
    Restrained permitted (after.goTo who thread) := by
  intro other
  by_cases same : other = who
  · subst same
    rw [World.goTo_self]
    exact only
  · rw [World.goTo_other _ _ same, threads]
    exact h other

theorem Restrained.step {label : Label}
    (turns : ∀ {who next program}, Turn iface who next program → program.Only permitted)
    (h : Restrained permitted world) (taken : World.Step soft iface world label after) :
    Restrained permitted after ∧ label.Asks permitted := by
  cases taken with
  | @call _ who call next answer here answered =>
      have only := h who
      rw [here] at only
      exact ⟨h.goTo answered.frame.1 (only.2 answer), only.1⟩
  | @enters who payload next here =>
      have only := h who
      rw [here] at only
      exact ⟨h.goTo rfl only, only.1⟩
  | @bus who program point call resume reply bus here asks answered closed =>
      have only := h who
      rw [here] at only
      exact ⟨h.goTo rfl only, trivial⟩
  | @leaves who payload outcome next here =>
      have only := h who
      rw [here] at only
      exact ⟨h.goTo rfl (only.2 _), trivial⟩
  | @throws who payload next here =>
      have only := h who
      rw [here] at only
      exact ⟨h.goTo rfl (only.2 _), trivial⟩
  | turn here goesOn => exact ⟨h.goTo rfl (turns goesOn), trivial⟩
  | peer moved => exact ⟨h, trivial⟩

end Restrained

/-! ## The calls of each thread -/

/-- The calls of `_tx_loop`. -/
def Call.OfTx (call : Call) : Prop :=
  call = .readRun ∨ call = .waitEvent ∨ call = .clearEvent ∨ call = .queueLength ∨
    call = .popleft ∨ call.OfTransmit ∨ call.OfHandler

/-- The calls of `detach`. -/
def Call.OfDetach : Call → Prop
  | .clearRun | .setEvent | .clearOnline | .sleep _ | .closeRadio | .closeBus | .closeLog => True
  | _ => False

theorem txOuter_only : txOuter.Only Call.OfTx := by
  refine ⟨by simp [Call.OfTx], fun run => ?_⟩
  cases run with
  | false => trivial
  | true => exact ⟨by simp [Call.OfTx], fun _ => ⟨by simp [Call.OfTx], fun _ => trivial⟩⟩

theorem txPacket_only (iface : LoRaSPIInterface) (packet : Packet) (fuel : ℕ) :
    (txPacket iface packet fuel).Only fun call => call.OfTransmit ∨ call.OfHandler :=
  Program.Only.rescue (((transmit_only iface packet fuel).mono fun _ => Or.inl).bind
    fun _ => trivial) fun reason => (txHandler_only reason).mono fun _ => Or.inr

theorem txInner_only (iface : LoRaSPIInterface) (fuel : ℕ) :
    (txInner iface fuel).Only Call.OfTx := by
  refine ⟨by simp [Call.OfTx], fun length => ?_⟩
  dsimp only
  split
  · trivial
  refine ⟨by simp [Call.OfTx], fun run => ?_⟩
  cases run with
  | false => trivial
  | true =>
      refine ⟨by simp [Call.OfTx], fun packet => ?_⟩
      cases packet with
      | none => trivial
      | some packet =>
          refine (txPacket_only iface packet fuel).mono fun call kind => ?_
          exact Or.inr (Or.inr (Or.inr (Or.inr (Or.inr kind))))

theorem detach_only : detach.Only Call.OfDetach :=
  ⟨trivial, fun _ => ⟨trivial, fun _ => ⟨trivial, fun _ => ⟨trivial, fun _ => ⟨trivial,
    fun _ => ⟨trivial, fun _ => ⟨trivial, fun _ => trivial⟩⟩⟩⟩⟩⟩⟩

end LorahamRns.Interface
