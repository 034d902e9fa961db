import LorahamRns.Interface.Schedule
import LorahamRns.Interface.Watched

/-!
# The health of the interface

`_run`, `online` and `fatal` only ever change in one direction, and in one order:
`_run` is cleared first, the interface goes offline next, and a fault is recorded last,
for a bus, lock or radio error alone.  The loops end for a shutdown and nothing else.
-/

namespace LorahamRns.Interface

open LorahamRns.Lib LorahamRns.Framing LorahamRns.Radio
open Program (keeps_bind keeps_rescue)

/-- The errors `_fail` is called for. -/
def Raised.Final (cause : Raised) : Prop := cause = .spiBus ∨ cause = .radio

instance (cause : Raised) : Decidable cause.Final := inferInstanceAs (Decidable (_ ∨ _))

/-- What a thread knows of the shutdown: nothing, that `_run` is cleared, or that it has put
the interface offline. -/
inductive Shutdown where
  | up
  | down
  | offline
  deriving DecidableEq

/-- The interface goes offline behind a cleared `_run`, and a fault is recorded behind
both. -/
def flags : Monitor Call Call.Answer Shutdown
  | .up, .readRun, run => some (if run then .up else .down)
  | .up, .clearRun, _ => some .down
  | .up, .clearOnline, _ => none
  | .down, .clearOnline, _ => some .offline
  | .offline, .setFatal cause, _ => if cause.Final then some .offline else none
  | .up, .setFatal _, _ => none
  | .down, .setFatal _, _ => none
  | stage, _, _ => some stage

/-! ## The threads keep the order -/

/-- The calls about the flags. -/
def Call.Signals : Call → Bool
  | .readRun | .clearRun | .clearOnline | .setFatal _ => true
  | _ => false

section Walk

variable {iface : LoRaSPIInterface} {α β : Type} {post : α → Shutdown → Prop}

theorem silent_of_caller {call : Call} (h : call.OfCaller) : call.Signals = false := by
  cases call with
  | readRun | clearRun | clearOnline | setFatal => exact h.elim
  | _ => rfl

/-- How the turns end: an ended loop or a fault leave `_run` cleared. -/
def Leaves (who : Who) (next : Next) (stage : Shutdown) : Prop :=
  (∀ cause, next = .failed cause → cause.Final ∧ stage ≠ .up) ∧
    (who = .rx ∨ who = .tx → next = .ended → stage ≠ .up)

end Walk

/-! ## The invariant -/

/-- The flags, and what the threads know of them. -/
structure Ordered (fields : Fields) (stages : Who → Shutdown) : Prop where
  down : ∀ who, stages who ≠ .up → fields.run = false
  off : ∀ who, stages who = .offline → fields.online = false
  offline : fields.online = false → fields.run = false
  fatal : ∀ cause, fields.fatal = some cause → cause.Final ∧ fields.online = false

theorem Ordered.update {fields after : Fields} {stages : Who → Shutdown} {who : Who} {stage : Shutdown}
    (h : Ordered fields stages) (run : fields.run = false → after.run = false)
    (online : fields.online = false → after.online = false)
    (down : stage ≠ .up → after.run = false) (off : stage = .offline → after.online = false)
    (offline : after.online = false → after.run = false)
    (fatal : ∀ cause, after.fatal = some cause → cause.Final ∧ after.online = false) :
    Ordered after (Function.update stages who stage) where
  down other lower := by
    by_cases same : other = who
    · subst same
      rw [Function.update_self] at lower
      exact down lower
    · rw [Function.update_of_ne same] at lower
      exact run (h.down other lower)
  off other lower := by
    by_cases same : other = who
    · subst same
      rw [Function.update_self] at lower
      exact off lower
    · rw [Function.update_of_ne same] at lower
      exact online (h.off other lower)
  offline := offline
  fatal := fatal

/-- What a call that is not about the flags leaves of them. -/
theorem World.Answers.silent {who : Who} {call : Call} {world after : World}
    {answer : call.Answer} (answered : World.Answers who call world answer after)
    (h : call.Signals = false) :
    after.fields.run = world.fields.run ∧ after.fields.online = world.fields.online ∧
      after.fields.fatal = world.fields.fatal := by
  cases call with
  | readRun | clearRun | clearOnline | setFatal => cases h
  | readOnline | waitEvent | queueLength | readActive | waitIrq | acquire | popleft =>
      obtain ⟨-, rfl⟩ := answered
      exact ⟨rfl, rfl, rfl⟩
  | feed frame =>
      obtain ⟨now, -, rfl⟩ := answered
      exact ⟨rfl, rfl, rfl⟩
  | radio effect =>
      cases effect with
      | xfer payload => exact answered.elim
      | setTxen on =>
          obtain ⟨-, rfl⟩ := answered
          exact ⟨rfl, rfl, rfl⟩
      | _ =>
          cases answered
          exact ⟨rfl, rfl, rfl⟩
  | _ =>
      cases answered
      exact ⟨rfl, rfl, rfl⟩

/-- A thread that learns nothing of the flags. -/
theorem Ordered.stays {fields after : Fields} {stages : Who → Shutdown} {who : Who}
    (h : Ordered fields stages) (run : after.run = fields.run)
    (online : after.online = fields.online) (fatal : after.fatal = fields.fatal) :
    Ordered after (Function.update stages who (stages who)) := by
  refine h.update (fun down => run.trans down) (fun off => online.trans off)
    (fun lower => run.trans (h.down who lower)) (fun same => online.trans (h.off who same))
    (fun off => run.trans (h.offline (online.symm.trans off))) fun cause set => ?_
  obtain ⟨final, off⟩ := h.fatal cause (fatal.symm.trans set)
  exact ⟨final, online.trans off⟩

end LorahamRns.Interface
