import LorahamRns.Radio.Transmit

/-!
# What a transmission raises

A transfer that succeeds reads as many bytes as it clocks out.  Then `transmit` of both
drivers raises nothing but `SpiBusError` and `RadioError`.
-/

namespace LorahamRns.Radio

open LorahamRns.Lib

/-- A transfer reads as many bytes as it clocks out. -/
def Effect.fits : (effect : Effect) → effect.Answer → Bool
  | .xfer payload, some received => received.length = payload.length
  | _, _ => true

/-- Whatever fits may be answered. -/
def fitting : Program.Environment Effect Effect.Answer Unit :=
  fun effect _ reply _ => effect.fits reply = true

/-- With answers that fit, the driver raises faults of the bus and the radio only. -/
abbrev Regular {α : Type} (program : Driver α) : Prop :=
  program.wp fitting (fun _ => True) (fun _ _ => True)
    (fun fault _ => fault = .spiBus ∨ fault = .radio) ()

section Parts

variable {α β : Type}

theorem regular_done (value : α) : Regular (.done value) := ⟨trivial, trivial⟩

theorem regular_bind {program : Driver α} {next : α → Driver β} (first : Regular program)
    (second : ∀ value, Regular (next value)) : Regular (program.bind next) :=
  Program.wp_bind (Program.wp_mono first (fun value _ _ => second value) fun _ _ fault => fault)

/-- What follows a transfer may count on the bytes read. -/
theorem regular_xfer_bind {payload : List ℤ} {next : List ℕ → Driver β}
    (h : ∀ received : List ℕ, received.length = payload.length → Regular (next received)) :
    Regular ((xfer payload).bind next) := by
  refine ⟨trivial, fun reply _ fits => ?_⟩
  cases reply with
  | none => exact ⟨trivial, Or.inl rfl⟩
  | some received => exact h received (of_decide_eq_true fits)

theorem regular_xfer (payload : List ℤ) : Regular (xfer payload) := by
  refine ⟨trivial, fun reply _ _ => ?_⟩
  cases reply with
  | none => exact ⟨trivial, Or.inl rfl⟩
  | some received => exact regular_done received

theorem regular_require {effect : Effect} {succeeded : effect.Answer → Bool} :
    Regular (require effect succeeded) := by
  refine ⟨trivial, fun reply _ _ => ?_⟩
  dsimp only
  split
  · exact regular_done ()
  · exact ⟨trivial, Or.inr rfl⟩

theorem regular_setTxen (profile : Profile) (on : Bool) : Regular (setTxen profile on) := by
  unfold setTxen
  split
  · exact regular_require
  · exact regular_done ()

theorem regular_monotonic : Regular monotonic :=
  ⟨trivial, fun now _ _ => regular_done now⟩

theorem regular_sleep (seconds : ℚ) : Regular (sleep seconds) :=
  ⟨trivial, fun _ _ _ => regular_done ()⟩

theorem regular_checkLength (data : List UInt8) : Regular (checkLength data) := by
  unfold checkLength
  split
  · exact ⟨trivial, Or.inr rfl⟩
  · exact regular_done ()

theorem regular_deadlineIn (timeoutS : ℚ) : Regular (deadlineIn timeoutS) :=
  regular_bind regular_monotonic fun _ => regular_done _

end Parts

namespace Sx127x

theorem regular_write (reg : ℕ) (value : ℤ) : Regular (write reg value) :=
  regular_bind (regular_xfer _) fun _ => regular_done ()

theorem regular_read (reg : ℕ) : Regular (read reg) := by
  refine regular_xfer_bind fun received length => ?_
  have inside : 1 < received.length := by
    rw [length]
    exact Nat.one_lt_two
  unfold index
  rw [List.getElem?_eq_getElem inside]
  exact regular_done _

theorem regular_load (frequency : ℤ) (data : List UInt8) : Regular (load frequency data) :=
  regular_bind (regular_checkLength data) fun _ =>
    regular_bind (regular_write _ _) fun _ =>
      regular_bind (regular_write _ _) fun _ =>
        regular_bind (regular_write _ _) fun _ =>
          regular_bind (regular_xfer _) fun _ => regular_write _ _

theorem regular_pollTxDone (deadline : ℚ) (polls : ℕ) : Regular (pollTxDone deadline polls) := by
  induction polls with
  | zero => exact regular_bind regular_monotonic fun _ => regular_done false
  | succ polls ih =>
      refine regular_bind regular_monotonic fun now => ?_
      split
      · exact regular_done false
      refine regular_bind (regular_read _) fun flags => ?_
      split
      · exact regular_bind (regular_write _ _) fun _ => regular_done true
      · exact regular_bind (regular_sleep _) fun _ => ih

end Sx127x

namespace Sx1262

theorem regular_cmd (opcode : ℤ) (params : List ℤ) : Regular (cmd opcode params) :=
  regular_bind regular_require fun _ => regular_bind (regular_xfer _) fun _ => regular_done ()

theorem regular_irqStatus : Regular irqStatus :=
  regular_bind (regular_bind regular_require fun _ =>
    regular_bind (regular_xfer _) fun _ => regular_done _) fun _ => regular_done _

theorem regular_load (preamble : ℤ) (data : List UInt8) : Regular (load preamble data) :=
  regular_bind (regular_checkLength data) fun _ =>
    regular_bind (regular_cmd _ _) fun _ =>
      regular_bind (regular_cmd _ _) fun _ =>
        regular_bind (regular_cmd _ _) fun _ => regular_cmd _ _

theorem regular_pollTxDone (deadline : ℚ) (polls : ℕ) : Regular (pollTxDone deadline polls) := by
  induction polls with
  | zero => exact regular_bind regular_monotonic fun _ => regular_done false
  | succ polls ih =>
      refine regular_bind regular_monotonic fun now => ?_
      split
      · exact regular_done false
      refine regular_bind regular_irqStatus fun irq => ?_
      split
      · exact regular_bind (regular_cmd _ _) fun _ => regular_done true
      split
      · exact regular_bind (regular_cmd _ _) fun _ => regular_done false
      · exact regular_bind (regular_sleep _) fun _ => ih

end Sx1262

/-- All parts of a guarded call. -/
structure Guarded.Regular {α : Type} (call : Guarded α) : Prop where
  before : Radio.Regular call.before
  body : ∀ deadline, Radio.Regular (call.body deadline)
  cleanUp : Radio.Regular call.cleanUp

theorem regular_transmit (profile : Profile) (settings : Settings) (data : List UInt8)
    (timeoutS : ℚ) (polls : ℕ) : (transmit profile settings data timeoutS polls).Regular := by
  have sx127x : (Sx127x.transmit profile settings.frequency data timeoutS polls).Regular :=
    ⟨regular_bind (Sx127x.regular_load _ _) fun _ =>
        regular_bind (regular_setTxen profile true) fun _ =>
          regular_bind (Sx127x.regular_write _ _) fun _ => regular_deadlineIn timeoutS,
      fun deadline => Sx127x.regular_pollTxDone deadline polls, regular_setTxen profile false⟩
  have sx1262 : (Sx1262.transmit profile settings.preamble data timeoutS polls).Regular :=
    ⟨regular_bind (Sx1262.regular_load _ _) fun _ =>
        regular_bind (regular_setTxen profile true) fun _ =>
          regular_bind (Sx1262.regular_cmd _ _) fun _ => regular_deadlineIn timeoutS,
      fun deadline => Sx1262.regular_pollTxDone deadline polls, regular_setTxen profile false⟩
  unfold transmit
  split
  · exact sx127x
  · exact sx127x
  · exact sx127x
  · exact sx1262

end LorahamRns.Radio
