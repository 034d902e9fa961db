import LorahamRns.Lib.Lockstep
import LorahamRns.Radio.Transmit

/-!
# TX-enable after a transmission

Only the polling of `transmit` is under the `finally` that releases TX-enable; the
start command stands between the assertion and the `try`.  The call log of a
transmission tells whether every assertion was followed by an attempt to release.
-/

namespace LorahamRns.Radio

open LorahamRns.Lib

/-- A call of a driver and the answer it got. -/
structure Event where
  effect : Effect
  reply : effect.Answer

/-- The calls of a driver, newest first. -/
abbrev CallLog : Type := List Event

/-- Every call is recorded, whatever its answer. -/
def recorded : Program.Environment Effect Effect.Answer CallLog :=
  fun effect log reply after => after = ⟨effect, reply⟩ :: log

/-- TX-enable was driven active. -/
def asserted : Event := ⟨.setTxen true, true⟩

/-- A deassertion was attempted. -/
def Event.Releases (event : Event) : Prop := event.effect = .setTxen false

/-- After every assertion came an attempt to deassert. -/
def Released (log : CallLog) : Prop :=
  ∀ later earlier, log = later ++ asserted :: earlier → ∃ event ∈ later, event.Releases

/-- The last calls are the assertion and a start command that failed: on the SX127x
its transaction, on the SX1262 the BUSY wait in front of it or its transaction. -/
def StartFault (profile : Profile) (settings : Settings) (log : CallLog) : Prop :=
  match profile.chip with
  | .sx1276 | .sx1277 | .sx1278 =>
      ∃ earlier, log = ⟨.xfer [0x81, lowByte (Sx127x.modeLora.lor
        ((Sx127x.lfBit settings.frequency).lor Sx127x.modeTx))], none⟩ :: asserted :: earlier
  | .sx1262 =>
      ∃ earlier, log = ⟨.waitBusy, false⟩ :: asserted :: earlier ∨
        log = ⟨.xfer [Sx1262.cmdSetTx, 0x00, 0x00, 0x00], none⟩ :: ⟨.waitBusy, true⟩ ::
          asserted :: earlier

/-! ## Calls that leave TX-enable alone -/

/-- Every call but one on TX-enable. -/
def Quiet (effect : Effect) : Prop := ∀ on, effect ≠ .setTxen on

/-- The log grew by quiet calls only. -/
def Grown (log after : CallLog) : Prop :=
  ∃ added : CallLog, after = added ++ log ∧ ∀ event ∈ added, Quiet event.effect

theorem Grown.refl (log : CallLog) : Grown log log :=
  ⟨[], rfl, fun _ member => absurd member List.not_mem_nil⟩

theorem Grown.trans {log middle after : CallLog} (first : Grown log middle)
    (second : Grown middle after) : Grown log after := by
  obtain ⟨early, rfl, quietEarly⟩ := first
  obtain ⟨late, rfl, quietLate⟩ := second
  refine ⟨late ++ early, (List.append_assoc ..).symm, fun event member => ?_⟩
  rcases List.mem_append.mp member with inLate | inEarly
  · exact quietLate event inLate
  · exact quietEarly event inEarly

/-- A program of quiet calls grows the log by quiet calls. -/
theorem quiet_wp {α : Type} {program : Driver α} (quiet : program.Only Quiet) (log : CallLog) :
    program.wp recorded (fun _ => True) (fun _ => Grown log) (fun _ => Grown log) log := by
  induction program generalizing log with
  | done => exact ⟨trivial, .refl log⟩
  | fail => exact ⟨trivial, .refl log⟩
  | call effect next ih =>
      refine ⟨trivial, fun reply after answered => ?_⟩
      obtain rfl : after = ⟨effect, reply⟩ :: log := answered
      have one : Grown log (⟨effect, reply⟩ :: log) := by
        refine ⟨[⟨effect, reply⟩], rfl, fun event member => ?_⟩
        obtain rfl := List.mem_singleton.mp member
        exact quiet.1
      exact Program.wp_mono (ih reply (quiet.2 reply) _)
        (fun _ _ grown => one.trans grown) (fun _ _ grown => one.trans grown)

theorem quiet_xfer (payload : List ℤ) : (xfer payload).Only Quiet := by
  refine ⟨fun _ => nofun, fun reply => ?_⟩
  cases reply <;> trivial

theorem quiet_waitBusy : waitBusy.Only Quiet := by
  refine ⟨fun _ => nofun, fun reply => ?_⟩
  cases reply <;> trivial

theorem quiet_monotonic : monotonic.Only Quiet := ⟨fun _ => nofun, fun _ => trivial⟩

theorem quiet_sleep (seconds : ℚ) : (sleep seconds).Only Quiet :=
  ⟨fun _ => nofun, fun _ => trivial⟩

theorem quiet_index (bytes : List ℕ) (place : ℕ) : (index bytes place).Only Quiet := by
  unfold index
  split <;> trivial

theorem quiet_checkLength (data : List UInt8) : (checkLength data).Only Quiet := by
  unfold checkLength
  split <;> trivial

theorem quiet_deadlineIn (timeoutS : ℚ) : (deadlineIn timeoutS).Only Quiet :=
  quiet_monotonic.bind fun _ => trivial

namespace Sx127x

theorem quiet_write (reg : ℕ) (value : ℤ) : (write reg value).Only Quiet :=
  (quiet_xfer _).bind fun _ => trivial

theorem quiet_read (reg : ℕ) : (read reg).Only Quiet :=
  (quiet_xfer _).bind fun received => quiet_index received 1

theorem quiet_load (frequency : ℤ) (data : List UInt8) : (load frequency data).Only Quiet :=
  (quiet_checkLength data).bind fun _ => (quiet_write _ _).bind fun _ =>
    (quiet_write _ _).bind fun _ => (quiet_write _ _).bind fun _ =>
      (quiet_xfer _).bind fun _ => quiet_write _ _

theorem quiet_pollTxDone (deadline : ℚ) (polls : ℕ) : (pollTxDone deadline polls).Only Quiet := by
  induction polls with
  | zero => exact quiet_monotonic.bind fun _ => trivial
  | succ polls ih =>
      refine quiet_monotonic.bind fun now => ?_
      split
      · trivial
      refine (quiet_read _).bind fun flags => ?_
      split
      · exact (quiet_write _ _).bind fun _ => trivial
      · exact (quiet_sleep _).bind fun _ => ih

end Sx127x

namespace Sx1262

theorem quiet_cmd (opcode : ℤ) (params : List ℤ) : (cmd opcode params).Only Quiet :=
  quiet_waitBusy.bind fun _ => (quiet_xfer _).bind fun _ => trivial

theorem quiet_query (opcode : ℤ) (count : ℕ) (params : List ℤ) :
    (query opcode count params).Only Quiet :=
  quiet_waitBusy.bind fun _ => (quiet_xfer _).bind fun _ => trivial

theorem quiet_irqStatus : irqStatus.Only Quiet := (quiet_query _ _ _).bind fun _ => trivial

theorem quiet_load (preamble : ℤ) (data : List UInt8) : (load preamble data).Only Quiet :=
  (quiet_checkLength data).bind fun _ => (quiet_cmd _ _).bind fun _ =>
    (quiet_cmd _ _).bind fun _ => (quiet_cmd _ _).bind fun _ => quiet_cmd _ _

theorem quiet_pollTxDone (deadline : ℚ) (polls : ℕ) : (pollTxDone deadline polls).Only Quiet := by
  induction polls with
  | zero => exact quiet_monotonic.bind fun _ => trivial
  | succ polls ih =>
      refine quiet_monotonic.bind fun now => ?_
      split
      · trivial
      refine quiet_irqStatus.bind fun irq => ?_
      split
      · exact (quiet_cmd _ _).bind fun _ => trivial
      split
      · exact (quiet_cmd _ _).bind fun _ => trivial
      · exact (quiet_sleep _).bind fun _ => ih

end Sx1262

/-! ## One transmission -/

/-- The property of the log, decided by the fault position. -/
def ReleasedUnlessStartFault (profile : Profile) (settings : Settings) (log : CallLog) : Prop :=
  Released log ↔ ¬ StartFault profile settings log

section

variable {profile : Profile} {settings : Settings} {log after : CallLog}

theorem startFault_mem (fault : StartFault profile settings log) : asserted ∈ log := by
  unfold StartFault at fault
  split at fault
  · obtain ⟨earlier, rfl⟩ := fault
    simp
  · obtain ⟨earlier, rfl⟩ := fault
    simp
  · obtain ⟨earlier, rfl⟩ := fault
    simp
  · obtain ⟨earlier, rfl | rfl⟩ := fault
    · simp
    · simp

theorem Grown.not_mem (grown : Grown log after) (clear : asserted ∉ log) : asserted ∉ after := by
  obtain ⟨added, rfl, quiet⟩ := grown
  intro member
  rcases List.mem_append.mp member with inAdded | inLog
  · exact quiet _ inAdded true rfl
  · exact clear inLog

/-- A log without an assertion has nothing to release. -/
theorem verdict_of_clear (clear : asserted ∉ log) :
    ReleasedUnlessStartFault profile settings log := by
  refine iff_of_true (fun later earlier same => ?_) fun fault => clear (startFault_mem fault)
  exact absurd (same ▸ List.mem_append_right later List.mem_cons_self) clear

/-- A start command that failed leaves the assertion without a release behind it. -/
theorem not_released_of_startFault (fault : StartFault profile settings log) :
    ¬ Released log := by
  intro released
  unfold StartFault at fault
  split at fault
  · obtain ⟨earlier, rfl⟩ := fault
    obtain ⟨event, member, releases⟩ := released [_] earlier rfl
    obtain rfl := List.mem_singleton.mp member
    cases releases
  · obtain ⟨earlier, rfl⟩ := fault
    obtain ⟨event, member, releases⟩ := released [_] earlier rfl
    obtain rfl := List.mem_singleton.mp member
    cases releases
  · obtain ⟨earlier, rfl⟩ := fault
    obtain ⟨event, member, releases⟩ := released [_] earlier rfl
    obtain rfl := List.mem_singleton.mp member
    cases releases
  · obtain ⟨earlier, rfl | rfl⟩ := fault
    · obtain ⟨event, member, releases⟩ := released [_] earlier rfl
      obtain rfl := List.mem_singleton.mp member
      cases releases
    · obtain ⟨event, member, releases⟩ := released [_, _] earlier rfl
      rcases List.mem_pair.mp member with rfl | rfl
      · cases releases
      · cases releases

theorem verdict_of_startFault (fault : StartFault profile settings log) :
    ReleasedUnlessStartFault profile settings log :=
  iff_of_false (not_released_of_startFault fault) fun sound => sound fault

/-- The log of a run whose `finally` was reached. -/
theorem verdict_of_release (reply : Bool) :
    ReleasedUnlessStartFault profile settings (⟨.setTxen false, reply⟩ :: log) := by
  refine iff_of_true (fun later earlier same => ?_) fun fault => ?_
  · cases later with
    | nil => cases same
    | cons event later =>
        obtain ⟨rfl, _⟩ := List.cons_eq_cons.mp same
        exact ⟨_, List.mem_cons_self, rfl⟩
  · unfold StartFault at fault
    split at fault
    · obtain ⟨earlier, same⟩ := fault
      cases same
    · obtain ⟨earlier, same⟩ := fault
      cases same
    · obtain ⟨earlier, same⟩ := fault
      cases same
    · obtain ⟨earlier, same | same⟩ := fault
      · cases same
      · cases same

theorem verdict_of_cleanUp (state : CallLog) :
    (require (.setTxen false) id : Driver Unit).wp recorded (fun _ => True)
      (fun _ => ReleasedUnlessStartFault profile settings)
      (fun _ => ReleasedUnlessStartFault profile settings) state := by
  refine ⟨trivial, fun reply after answered => ?_⟩
  obtain rfl := answered
  cases reply with
  | false => exact ⟨trivial, verdict_of_release false⟩
  | true => exact ⟨trivial, verdict_of_release true⟩

/-! ## The shape both drivers share -/

/-- Loading, keying up and polling, with the fault position of the start command. -/
theorem guarded_wp {prepare start : Driver Unit} {body : ℚ → Driver Bool} {timeoutS : ℚ}
    (quietPrepare : prepare.Only Quiet) (quietStart : start.Only Quiet)
    (quietBody : ∀ deadline, (body deadline).Only Quiet)
    (faults : ∀ log, start.wp recorded (fun _ => True) (fun _ _ => True)
      (fun _ after => StartFault profile settings after) (asserted :: log)) :
    (Guarded.run ⟨prepare.bind fun _ => (setTxen profile true).bind fun _ =>
        start.bind fun _ => deadlineIn timeoutS, body, setTxen profile false⟩).wp
      recorded (fun _ => True) (fun _ => ReleasedUnlessStartFault profile settings)
      (fun _ => ReleasedUnlessStartFault profile settings) [] := by
  have clearStart : asserted ∉ ([] : CallLog) := List.not_mem_nil
  by_cases wired : profile.txen.isSome
  · have line (on : Bool) : setTxen profile on = require (.setTxen on) id := if_pos wired
    rw [line, line]
    refine Program.wp_bind (Program.wp_bind (Program.wp_mono (quiet_wp quietPrepare [])
      (fun _ log grown => ?_) fun _ log grown => verdict_of_clear (grown.not_mem clearStart)))
    have clear := grown.not_mem clearStart
    refine ⟨trivial, fun reply after answered => ?_⟩
    obtain rfl : after = ⟨.setTxen true, reply⟩ :: log := answered
    cases reply with
    | false =>
        refine ⟨trivial, verdict_of_clear fun member => ?_⟩
        rcases List.mem_cons.mp member with same | inLog
        · cases same
        · exact clear inLog
    | true =>
        -- from here on only the start command can leave the assertion behind
        change (start.bind fun _ => deadlineIn timeoutS).wp _ _ _ _ _
        refine Program.wp_bind (Program.wp_mono (faults log)
          (fun _ started _ => ?_) fun _ _ fault => verdict_of_startFault fault)
        refine ⟨trivial, fun now _ _ => ⟨trivial, ?_⟩⟩
        refine Program.wp_ensuring (Program.wp_mono (Program.wp_trivial _ _)
          (fun _ _ _ => verdict_of_cleanUp _) fun _ _ _ => verdict_of_cleanUp _)
  · have line (on : Bool) : setTxen profile on = .done () := if_neg wired
    rw [line, line]
    refine Program.wp_mono (quiet_wp ?_ []) (fun _ _ grown => verdict_of_clear
      (grown.not_mem clearStart)) fun _ _ grown => verdict_of_clear (grown.not_mem clearStart)
    refine (quietPrepare.bind fun _ => quietStart.bind fun _ => quiet_deadlineIn _).bind
      fun deadline => (quietBody deadline).ensuring trivial

/-! ## The claim's log, for both drivers -/

theorem Sx127x.startTx_faults (chip : profile.chip ≠ .sx1262) (log : CallLog) :
    (startTx settings.frequency).wp recorded (fun _ => True) (fun _ _ => True)
      (fun _ after => StartFault profile settings after) (asserted :: log) := by
  refine ⟨trivial, fun reply after answered => ?_⟩
  obtain rfl := answered
  cases reply with
  | some received => exact ⟨trivial, trivial⟩
  | none =>
      refine ⟨trivial, ?_⟩
      unfold StartFault
      split
      · exact ⟨log, rfl⟩
      · exact ⟨log, rfl⟩
      · exact ⟨log, rfl⟩
      · next same => exact absurd same chip

theorem Sx1262.startTx_faults (chip : profile.chip = .sx1262) (log : CallLog) :
    startTx.wp recorded (fun _ => True) (fun _ _ => True)
      (fun _ after => StartFault profile settings after) (asserted :: log) := by
  unfold StartFault
  rw [chip]
  refine ⟨trivial, fun ready after answered => ?_⟩
  obtain rfl := answered
  cases ready with
  | false => exact ⟨trivial, log, Or.inl rfl⟩
  | true =>
      refine ⟨trivial, fun reply after answered => ?_⟩
      obtain rfl := answered
      cases reply with
      | some received => exact ⟨trivial, trivial⟩
      | none => exact ⟨trivial, log, Or.inr rfl⟩

end

/-- On every board, for every payload, number of polls and position of a fault, the end
of `transmit` finds TX-enable released, or at least attempted to be, after its assertion
exactly when the start command did not fail. -/
theorem txen_released_iff (profile : Profile) (settings : Settings) (data : List UInt8)
    (timeoutS : ℚ) (polls : ℕ) :
    (transmit profile settings data timeoutS polls).run.wp recorded (fun _ => True)
      (fun _ log => Released log ↔ ¬ StartFault profile settings log)
      (fun _ log => Released log ↔ ¬ StartFault profile settings log) [] := by
  unfold transmit
  have early (chip : profile.chip ≠ .sx1262) :
      (Sx127x.transmit profile settings.frequency data timeoutS polls).run.wp recorded
        (fun _ => True) (fun _ => ReleasedUnlessStartFault profile settings)
        (fun _ => ReleasedUnlessStartFault profile settings) [] :=
    guarded_wp (Sx127x.quiet_load _ _) (Sx127x.quiet_write _ _)
      (fun deadline => Sx127x.quiet_pollTxDone deadline polls) (Sx127x.startTx_faults chip)
  split
  · next same => exact early (by simp [same])
  · next same => exact early (by simp [same])
  · next same => exact early (by simp [same])
  · next same =>
      exact guarded_wp (Sx1262.quiet_load _ _) (Sx1262.quiet_cmd _ _)
        (fun deadline => Sx1262.quiet_pollTxDone deadline polls) (Sx1262.startTx_faults same)

/-- A board with SX1262 and a TX-enable line, whose BUSY line stays high when the
transmission is to start: `transmit` raises with the line still asserted. -/
theorem busy_at_start_keeps_txen :
    ¬ ∀ (profile : Profile) (settings : Settings) (data : List UInt8) (timeoutS : ℚ)
      (polls : ℕ), profile.txen.isSome → data.length ≤ maxPayload →
      (transmit profile settings data timeoutS polls).run.wp recorded (fun _ => True)
        (fun _ => Released) (fun _ => Released) [] := by
  intro claimed
  have h := claimed ⟨.sx1262, 21, some 18, some 20, some 6, 1.8, true⟩
    ⟨869525000, 125000, 8, 5, 14, 0x12, 8⟩ [0x48, 0x69] 5 3 rfl (by decide)
  -- four commands of loading, then TX-enable and the BUSY wait of the start command
  have standby := (h.2 true _ rfl).2 (some []) _ rfl
  have cleared := (standby.2 true _ rfl).2 (some []) _ rfl
  have params := (cleared.2 true _ rfl).2 (some []) _ rfl
  have loaded := (params.2 true _ rfl).2 (some []) _ rfl
  have raised := (loaded.2 true _ rfl).2 false _ rfl
  obtain ⟨event, member, releases⟩ := raised.2 [_] _ rfl
  obtain rfl := List.mem_singleton.mp member
  cases releases

end LorahamRns.Radio
