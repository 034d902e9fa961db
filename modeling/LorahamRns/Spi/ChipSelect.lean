import LorahamRns.Lib.Transition
import LorahamRns.Spi.Xfer

/-!
# The chip select and the shared lock

Transactions of this process, one after another, interleaved with the locked
transactions of peer processes.  While the lock is free or a peer's, the last
thing this process tried with its chip select was to release it, and transfers
are clocked only after a successful assert under the lock.  The exception is a
failed assert: nothing releases the chip select before the lock is given back.
-/

namespace LorahamRns.Spi

open LorahamRns.Lib

/-- What the bus driver is doing, and whether a call of the transaction has failed. -/
inductive Activity where
  | idle
  | inside (point : Xfer) (failed : Bool)

/-- A transaction that has returned: whether one of its calls failed, and its outcome. -/
structure Returned where
  failed : Bool
  outcome : Outcome

structure World where
  bus : Bus
  activity : Activity
  returned : List Returned

/-- The steps: a call of `xfer` with its payload, the answer to one of its calls,
its return, and a step of a peer. -/
inductive Label where
  | start (payload : List ℤ)
  | answer
  | finish
  | peer

/-- Steps of soft-CS transactions and of peers. -/
inductive World.Step : World → Label → World → Prop where
  | start {world : World} (payload : List ℤ) (idle : world.activity = .idle) :
      Step world (.start payload) { world with activity := .inside (.begin payload) false }
  | answer {world : World} {point : Xfer} {failed : Bool} {call : Call}
      {resume : call.Reply → Xfer} {reply : call.Reply} {bus : Bus}
      (inside : world.activity = .inside point failed)
      (next : point.next true = .call call resume)
      (answers : Bus.Answers call world.bus reply bus) :
      Step world .answer
        { world with
          bus
          activity := .inside (resume reply) (failed || call.failed reply) }
  | finish {world : World} {point : Xfer} {failed : Bool} {outcome : Outcome}
      (inside : world.activity = .inside point failed) (next : point.next true = .stop outcome) :
      Step world .finish
        { world with activity := .idle, returned := ⟨failed, outcome⟩ :: world.returned }
  | peer {world : World} {bus : Bus} (step : Bus.PeerStep world.bus bus) :
      Step world .peer { world with bus }

/-- The lines as the constructor requests them: chip select inactive. -/
structure World.Initial (world : World) : Prop where
  lock : world.bus.lock ≠ .ours
  drive : world.bus.drive = ⟨.inactive, true⟩
  pin : world.bus.pin = .inactive
  clocked : world.bus.clocked = []
  idle : world.activity = .idle
  returned : world.returned = []

def spiBus : System World Label where
  init := World.Initial
  step := World.Step

/-- The chip select is released whenever others may use the bus, and transfers were
clocked only after a successful assert under the lock. -/
structure Bus.Orderly (bus : Bus) : Prop where
  released : bus.lock ≠ .ours → bus.drive.value = .inactive
  clocked : ∀ transfer ∈ bus.clocked, transfer.lock = .ours ∧ transfer.drive = ⟨.active, true⟩

/-- A failure is one the outcome tells of. -/
def Told (failed : Bool) (outcome : Outcome) : Prop :=
  failed = true → ∃ reason, outcome = .error reason

/-- What the lock contract asks of a state: an orderly bus, and every transaction
with a failed call left as an error. -/
structure World.Contract (world : World) : Prop where
  orderly : world.bus.Orderly
  raised : ∀ call ∈ world.returned, Told call.failed call.outcome

/-- The lock is given back after the assert has failed. -/
def World.LeftAsserted (world after : World) : Prop :=
  (∃ failed, world.activity = .inside (.unlocking (.error .assertFailed)) failed) ∧
    after.bus.lock = .free

/-! ## The invariant -/

/-- What holds at each point of a transaction. -/
def Xfer.Holds (bus : Bus) (failed : Bool) : Xfer → Prop
  | .begin _ | .locking _ _ | .contended _ _ => failed = false
  | .asserting _ => failed = false ∧ bus.lock = .ours
  | .clocking _ => failed = false ∧ bus.lock = .ours ∧ bus.drive = ⟨.active, true⟩
  | .releasing outcome =>
      bus.lock = .ours ∧ outcome ≠ .error .assertFailed ∧ Told failed outcome
  | .unlocking outcome =>
      bus.lock = .ours ∧ (bus.drive.value = .inactive ↔ outcome ≠ .error .assertFailed) ∧
        Told failed outcome
  | .returned outcome => Told failed outcome

def Activity.Holds (bus : Bus) : Activity → Prop
  | .idle => True
  | .inside point failed => point.Holds bus failed

structure Invariant (world : World) : Prop where
  contract : world.Contract
  point : world.activity.Holds world.bus

theorem World.Initial.invariant {world : World} (h : world.Initial) : Invariant world := by
  refine ⟨⟨⟨fun _ => by rw [h.drive], ?_⟩, ?_⟩, ?_⟩
  · rw [h.clocked]
    exact fun _ none => absurd none List.not_mem_nil
  · rw [h.returned]
    exact fun _ none => absurd none List.not_mem_nil
  · rw [h.idle]
    trivial

/-- Peers change the lock only while it is not ours. -/
theorem Bus.PeerStep.frame {bus after : Bus} (step : Bus.PeerStep bus after) :
    bus.lock ≠ .ours ∧ after.lock ≠ .ours ∧ after.drive = bus.drive ∧
      after.clocked = bus.clocked := by
  cases step with
  | locks process free => exact ⟨by rw [free]; nofun, nofun, rfl, rfl⟩
  | unlocks held => exact ⟨by rw [held]; nofun, nofun, rfl, rfl⟩

theorem Bus.Orderly.peer {bus after : Bus} (h : bus.Orderly) (step : Bus.PeerStep bus after) :
    after.Orderly := by
  obtain ⟨others, -, drive, clocked⟩ := step.frame
  constructor
  · rw [drive]
    exact fun _ => h.released others
  · rw [clocked]
    exact h.clocked

/-- What holds at a point speaks of the lock only where it is ours. -/
theorem Activity.Holds.peer {bus after : Bus} {activity : Activity}
    (h : activity.Holds bus) (step : Bus.PeerStep bus after) : activity.Holds after := by
  obtain ⟨others, -, -, -⟩ := step.frame
  cases activity with
  | idle => trivial
  | inside point failed =>
      cases point with
      | begin _ | locking _ _ | contended _ _ => exact h
      | asserting _ => exact absurd h.2 others
      | clocking _ => exact absurd h.2.1 others
      | releasing _ => exact absurd h.1 others
      | unlocking _ => exact absurd h.1 others
      | returned _ => exact h

/-- A bus whose lock is ours is orderly when its transfers were. -/
theorem Bus.Orderly.locked {bus after : Bus} (h : bus.Orderly) (lock : after.lock = .ours)
    (clocked : after.clocked = bus.clocked) : after.Orderly := by
  refine ⟨fun others => absurd lock others, ?_⟩
  rw [clocked]
  exact h.clocked

theorem Told.error (failed : Bool) (reason : SpiBusError) : Told failed (.error reason) :=
  fun _ => ⟨reason, rfl⟩

/-- A call answered at a point of a soft-CS transaction takes the bus and the
transaction to what holds at the next point. -/
theorem Xfer.Holds.answer {bus after : Bus} {point : Xfer} {failed fails : Bool} {call : Call}
    {resume : call.Reply → Xfer} {reply : call.Reply} (h : point.Holds bus failed)
    (orderly : bus.Orderly) (next : point.next true = .call call resume)
    (answers : Bus.Answers call bus reply after)
    (permitted : point = .unlocking (.error .assertFailed) → after.lock ≠ .free)
    (hfails : fails = (failed || call.failed reply)) :
    (resume reply).Holds after fails ∧ after.Orderly := by
  have still (hfailed : failed = false) (hreply : call.failed reply = false) : fails = false := by
    rw [hfails, hfailed, hreply]
    rfl
  cases point with
  | begin payload =>
      cases next
      cases answers
      exact ⟨still h rfl, orderly⟩
  | locking payload deadline =>
      cases next
      cases reply with
      | granted =>
          obtain ⟨-, rfl⟩ := answers
          exact ⟨⟨still h rfl, rfl⟩, orderly.locked rfl rfl⟩
      | again =>
          cases answers
          exact ⟨still h rfl, orderly⟩
      | failed =>
          cases answers
          exact ⟨Told.error _ _, orderly⟩
  | contended payload deadline =>
      cases next
      cases answers
      refine ⟨?_, orderly⟩
      dsimp only
      split
      · exact Told.error _ _
      · exact still h rfl
  | asserting payload =>
      obtain ⟨hfailed, lock⟩ := h
      cases next
      obtain ⟨pin, -, rfl⟩ := answers
      cases reply with
      | true =>
          exact ⟨⟨still hfailed rfl, lock, rfl⟩, orderly.locked lock rfl⟩
      | false =>
          exact ⟨⟨lock, ⟨nofun, fun other => absurd rfl other⟩, Told.error _ _⟩,
            orderly.locked lock rfl⟩
  | clocking payload =>
      obtain ⟨hfailed, lock, drive⟩ := h
      cases next
      cases answers
      have logged : Bus.Orderly
          { bus with clocked := ⟨bus.lock, bus.drive, payload⟩ :: bus.clocked } := by
        refine ⟨orderly.released, fun transfer member => ?_⟩
        rcases List.mem_cons.mp member with rfl | member
        · exact ⟨lock, drive⟩
        · exact orderly.clocked transfer member
      refine ⟨⟨lock, ?_, ?_⟩, logged⟩
      · cases reply <;> nofun
      · cases reply with
        | none => exact Told.error _ _
        | some bytes => exact fun fails => absurd (still hfailed rfl) (by simp [fails])
  | releasing outcome =>
      obtain ⟨lock, other, told⟩ := h
      cases next
      obtain ⟨pin, -, rfl⟩ := answers
      refine ⟨⟨lock, ⟨fun _ => ?_, fun _ => rfl⟩, ?_⟩, orderly.locked lock rfl⟩
      · cases reply with
        | true => exact other
        | false => nofun
      · cases reply with
        | true => exact fun h => told (by simpa [hfails, Call.failed] using h)
        | false => exact Told.error _ _
  | unlocking outcome =>
      obtain ⟨lock, released, told⟩ := h
      cases next
      cases reply with
      | true =>
          cases answers
          refine ⟨fun h => told (by simpa [hfails, Call.failed] using h), fun _ => ?_,
            orderly.clocked⟩
          refine released.mpr fun left => ?_
          subst left
          exact permitted rfl rfl
      | false =>
          cases answers
          exact ⟨Told.error _ _, orderly⟩
  | returned outcome => cases next

theorem Invariant.step {world after : World} {label : Label} (h : Invariant world)
    (step : world.Step label after) (permitted : ¬world.LeftAsserted after) : Invariant after := by
  cases step with
  | start payload idle => exact ⟨⟨h.contract.orderly, h.contract.raised⟩, rfl⟩
  | @answer point failed call _ reply _ inside next answers =>
      have holds : point.Holds world.bus failed := by
        have holds := h.point
        rwa [inside] at holds
      obtain ⟨holds, orderly⟩ := holds.answer h.contract.orderly next answers
        (fun left free => permitted ⟨⟨failed, left ▸ inside⟩, free⟩) rfl
      exact ⟨⟨orderly, h.contract.raised⟩, holds⟩
  | @finish point failed outcome inside next =>
      have holds : point.Holds world.bus failed := by
        have holds := h.point
        rwa [inside] at holds
      refine ⟨⟨h.contract.orderly, fun call member => ?_⟩, trivial⟩
      rcases List.mem_cons.mp member with rfl | member
      · cases point <;> cases next
        assumption
      · exact h.contract.raised call member
  | peer step =>
      exact ⟨⟨h.contract.orderly.peer step, h.contract.raised⟩, h.point.peer step⟩

theorem Bus.Answers.unlock_drive {bus after : Bus} {succeeded : Bool}
    (answers : Bus.Answers .unlock bus succeeded after) : after.drive = bus.drive := by
  cases succeeded with
  | true => rw [show after = { bus with lock := .free } from answers]
  | false => rw [show after = bus from answers]

/-- Giving the lock back after a failed assert leaves the chip select as the assert
left it. -/
theorem Invariant.leftAsserted {world after : World} {label : Label} (h : Invariant world)
    (step : world.Step label after) (left : world.LeftAsserted after) : ¬after.Contract := by
  obtain ⟨⟨failed, inside⟩, free⟩ := left
  have holds := h.point
  rw [inside] at holds
  obtain ⟨lock, released, -⟩ := holds
  have asserted : after.bus.drive = world.bus.drive := by
    cases step with
    | start payload idle => rfl
    | answer inside' next answers =>
        cases inside.symm.trans inside'
        cases next
        exact answers.unlock_drive
    | finish => rfl
    | peer step => exact absurd lock step.frame.1
  intro contract
  have inactive := contract.orderly.released (by rw [free]; nofun)
  rw [asserted] at inactive
  exact released.mp inactive rfl

/-! ## Runs -/

/-- As long as no lock is given back after a failed assert, every state of a run
keeps the lock contract; the first time it is, the contract is broken. -/
theorem contract_kept {world : World} {trace : List Label}
    (run : (spiBus.restrict fun world _ after => ¬world.LeftAsserted after).Run world trace) :
    world.Contract ∧ ∀ label after, world.Step label after →
      (after.Contract ↔ ¬world.LeftAsserted after) := by
  have invariant : Invariant world :=
    run.invariant (fun _ => World.Initial.invariant) fun _ _ _ h taken => h.step taken.1 taken.2
  refine ⟨invariant.contract, fun label after step => ⟨fun contract left => ?_, fun permitted => ?_⟩⟩
  · exact invariant.leftAsserted step left contract
  · exact (invariant.step step permitted).contract

/-- The bus as the constructor leaves it, with the lock free. -/
def World.fresh : World := ⟨⟨.free, ⟨.inactive, true⟩, .inactive, []⟩, .idle, []⟩

theorem World.fresh_initial : World.fresh.Initial := ⟨nofun, rfl, rfl, rfl, rfl, rfl⟩

/-- A run that keeps the condition goes on with an answer at any other point. -/
theorem run_answer {world : World} {trace : List Label} {point : Xfer} {failed : Bool}
    {call : Call} {resume : call.Reply → Xfer} {bus : Bus}
    (run : (spiBus.restrict fun world _ after => ¬world.LeftAsserted after).Run world trace)
    (inside : world.activity = .inside point failed)
    (elsewhere : point ≠ .unlocking (.error .assertFailed))
    (next : point.next true = .call call resume) (reply : call.Reply)
    (answers : Bus.Answers call world.bus reply bus) :
    (spiBus.restrict fun world _ after => ¬world.LeftAsserted after).Run
      ⟨bus, .inside (resume reply) (failed || call.failed reply), world.returned⟩
      (trace ++ [.answer]) := by
  refine .step run ⟨.answer inside next answers, ?_⟩
  rintro ⟨⟨failed', inside'⟩, -⟩
  rw [inside] at inside'
  cases inside'
  exact elsewhere rfl

/-- A first transaction with its lock taken. -/
def World.asserting (payload : List ℤ) : World :=
  ⟨⟨.ours, ⟨.inactive, true⟩, .inactive, []⟩, .inside (.asserting payload) false, []⟩

theorem asserting_run (payload : List ℤ) :
    (spiBus.restrict fun world _ after => ¬world.LeftAsserted after).Run (.asserting payload)
      [.start payload, .answer, .answer] := by
  have start : (spiBus.restrict fun world _ after => ¬world.LeftAsserted after).Run
      { World.fresh with activity := .inside (.begin payload) false } [.start payload] := by
    refine .step (.start World.fresh_initial) ⟨.start payload rfl, ?_⟩
    rintro ⟨⟨_, inside⟩, -⟩
    cases inside
  have timed := run_answer start rfl nofun rfl (0 : ℚ) rfl
  exact run_answer timed rfl nofun rfl FlockReply.granted ⟨.inl rfl, rfl⟩

/-- A whole first transaction: one byte out, one byte in. -/
theorem first_transaction : ∃ world : World, world.returned = [⟨false, .ok [18]⟩] ∧
    world.bus.lock = .free ∧ world.Contract := by
  have asserted := run_answer (asserting_run [66]) rfl nofun rfl true ⟨.active, .inl rfl, rfl⟩
  have clocked := run_answer asserted rfl nofun rfl (some [18]) rfl
  have released := run_answer clocked rfl nofun rfl true ⟨.inactive, .inl rfl, rfl⟩
  have unlocked := run_answer released rfl nofun rfl true rfl
  have finished := System.Run.step unlocked ⟨.finish rfl rfl, by
    rintro ⟨⟨_, inside⟩, -⟩
    cases inside⟩
  exact ⟨_, rfl, rfl, (contract_kept finished).1⟩

/-- A failed assert that took effect leaves the lock free with the chip select
active, so the contract does not hold in every run. -/
theorem failed_assert_leaves_asserted :
    ¬∀ world trace, spiBus.Run world trace → world.Contract := by
  intro always
  have failed := run_answer (asserting_run [66]) rfl nofun rfl false ⟨.active, .inl rfl, rfl⟩
  have unlocked := System.Run.step failed.of_restrict
    (.answer rfl rfl (show Bus.Answers .unlock _ true _ from rfl))
  have contract := always _ _ unlocked
  exact nomatch contract.orderly.released nofun

end LorahamRns.Spi
