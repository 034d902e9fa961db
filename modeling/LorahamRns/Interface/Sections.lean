import LorahamRns.Interface.Threads

/-!
# Who may use the radio

The bus lock does not exclude the two workers from each other: `_tx_active`, looked at
and set under `_radio_lock`, does.  A monitor of each worker says where it is between
these, and one invariant ties the places to the shared fields.
-/

namespace LorahamRns.Interface

open LorahamRns.Lib LorahamRns.Framing LorahamRns.Radio
open Program (keeps_bind keeps_rescue keeps_ensuring keeps_ofExcept)

/-! ## Places -/

/-- The calls that have nothing to do with `_radio_lock`, `_tx_active`, the radio or the
shutdown. -/
def Call.Outside : Call → Prop
  | .acquire | .release | .setActive | .clearActive | .radio _ | .clearRun | .closeRadio
  | .closeBus => False
  | _ => True

/-- The RX worker: not in its locked section, inside before it found `_tx_active` clear, or
polling. -/
inductive RxPlace where
  | outside
  | locked
  | polling
  deriving DecidableEq

/-- The TX worker: before and after a transmission, in the section that sets
`_tx_active`, behind it, or in the section that restarts reception. -/
inductive TxPlace where
  | outside
  | entering
  | entered
  | keyed
  | resuming
  deriving DecidableEq

/-- `_tx_active` is set. -/
def TxPlace.Active : TxPlace → Prop
  | .entered | .keyed | .resuming => True
  | _ => False

/-- `_radio_lock` is held. -/
def TxPlace.Locked : TxPlace → Prop
  | .entering | .entered | .resuming => True
  | _ => False

/-- The RX worker polls the radio only where it found `_tx_active` clear under the lock. -/
def rxSections : Monitor Call Call.Answer RxPlace
  | .outside, .acquire, _ => some .locked
  | .outside, .release, _ | .outside, .setActive, _ | .outside, .clearActive, _
  | .outside, .radio _, _ | .outside, .closeRadio, _ | .outside, .closeBus, _ => none
  | .outside, _, _ => some .outside
  | .locked, .readActive, active => some (if active then .locked else .polling)
  | .polling, .radio _, _ => some .polling
  | .locked, .release, _ | .polling, .release, _ => some .outside
  | _, _, _ => none

/-- The TX worker uses the radio only between setting and clearing `_tx_active`. -/
def txSections : Monitor Call Call.Answer TxPlace
  | .outside, .acquire, _ => some .entering
  | .outside, .release, _ | .outside, .setActive, _ | .outside, .clearActive, _
  | .outside, .radio _, _ | .outside, .closeRadio, _ | .outside, .closeBus, _ => none
  | .outside, _, _ => some .outside
  | .entering, .setActive, _ => some .entered
  | .entered, .release, _ => some .keyed
  | .keyed, .acquire, _ => some .resuming
  | .keyed, .clearActive, _ => some .outside
  | .keyed, .release, _ | .keyed, .setActive, _ | .keyed, .clearRun, _
  | .keyed, .closeRadio, _ | .keyed, .closeBus, _ => none
  | .keyed, _, _ => some .keyed
  | .resuming, .radio _, _ => some .resuming
  | .resuming, .release, _ => some .keyed
  | _, _, _ => none

/-- `detach` releases nothing before it has cleared `_run`. -/
def detachSections : Monitor Call Call.Answer Bool
  | _, .clearRun, _ => some true
  | true, .closeRadio, _ | true, .closeBus, _ => some true
  | _, .acquire, _ | _, .release, _ | _, .setActive, _ | _, .clearActive, _ | _, .radio _, _
  | false, .closeRadio, _ | false, .closeBus, _ => none
  | cleared, _, _ => some cleared

/-! ## The workers keep to their sections -/

section Walk

variable {iface : LoRaSPIInterface} {α : Type}

theorem rxSections_outside {call : Call} (h : call.Outside) (answer : call.Answer) :
    rxSections .outside call answer = some .outside := by
  cases call with
  | acquire | release | setActive | clearActive | radio | clearRun | closeRadio | closeBus =>
      exact h.elim
  | _ => rfl

theorem txSections_outside {call : Call} (h : call.Outside) (answer : call.Answer) :
    txSections .outside call answer = some .outside := by
  cases call with
  | acquire | release | setActive | clearActive | radio | clearRun | closeRadio | closeBus =>
      exact h.elim
  | _ => rfl

theorem txSections_keyed {call : Call} (h : call.Outside ∨ call.IsRadio) (answer : call.Answer) :
    txSections .keyed call answer = some .keyed := by
  rcases h with h | ⟨effect, rfl⟩
  · cases call with
    | acquire | release | setActive | clearActive | radio | clearRun | closeRadio | closeBus =>
        exact h.elim
    | _ => rfl
  · rfl

theorem hold_outside (packet : Packet) (toa : ℚ) (tries : ℕ) :
    (hold packet toa tries).Only Call.Outside := by
  refine (hold_only packet toa tries).mono fun call kind => ?_
  rcases kind with rfl | rfl | rfl | rfl
  · trivial
  · trivial
  · trivial
  · trivial

theorem noteSent_outside (frame : Bytes) (confirmed : Bool) :
    (noteSent frame confirmed).Only Call.Outside := by
  refine (noteSent_only frame confirmed).mono fun call kind => ?_
  rcases kind with rfl | rfl
  · trivial
  · trivial

theorem received_outside (reception : Reception) :
    (received iface reception).Only Call.Outside := by
  refine (received_only iface reception).mono fun call kind => ?_
  rcases kind with rfl | ⟨_, rfl⟩ | ⟨_, rfl⟩ | ⟨_, rfl⟩
  · trivial
  · trivial
  · trivial
  · trivial

/-- The calls of `_fail` and the handlers. -/
def Call.Stops (call : Call) : Prop := call.Outside ∨ call = .clearRun

theorem stops_of_handler {call : Call} (h : call.OfHandler) : call.Stops := by
  cases call with
  | clearRun => exact Or.inr rfl
  | readRun | setEvent | clearOnline | setFatal | log | sleep => exact Or.inl trivial
  | _ => exact h.elim

theorem rxHandler_stops (reason : Raised) : (rxHandler reason).Only Call.Stops :=
  (rxHandler_only reason).mono fun _ => stops_of_handler

theorem txHandler_stops (reason : Raised) : (txHandler reason).Only Call.Stops :=
  (txHandler_only reason).mono fun _ => stops_of_handler

theorem rxKeeps_stops {program : Worker α} (h : program.Only Call.Stops) :
    program.Keeps rxSections (fun _ => (· = .outside)) (fun _ => (· = .outside)) .outside := by
  refine h.keeps fun call answer permitted => ?_
  rcases permitted with outside | rfl
  · exact rxSections_outside outside answer
  · rfl

theorem txKeeps_stops {program : Worker α} (h : program.Only Call.Stops) :
    program.Keeps txSections (fun _ => (· = .outside)) (fun _ => (· = .outside)) .outside := by
  refine h.keeps fun call answer permitted => ?_
  rcases permitted with outside | rfl
  · exact txSections_outside outside answer
  · rfl

theorem txKeeps_keyed {program : Worker α}
    (h : program.Only fun call => call.Outside ∨ call.IsRadio) :
    program.Keeps txSections (fun _ => (· = .keyed)) (fun _ => (· = .keyed)) .keyed :=
  h.keeps fun _ answer permitted => txSections_keyed permitted answer

/-- The locked section of `_rx_loop`. -/
theorem rxKeeps_poll :
    (poll iface).Keeps rxSections (fun _ => (· = .outside)) (fun _ => (· = .outside))
      .outside := by
  refine fun _ => ⟨.locked, rfl, keeps_ensuring fun active => ?_⟩
  cases active with
  | true => exact ⟨.locked, rfl, fun _ => ⟨.outside, rfl, rfl⟩⟩
  | false =>
      have polls := (only_radio (Radio.pollRx iface.profile iface.settings)).keeps
        fun (call : Call) answer ⟨effect, same⟩ =>
          (by subst same; rfl : rxSections .polling call answer = some .polling)
      refine ⟨.polling, rfl, polls.mono (fun _ place same => ?_) fun _ place same => ?_⟩
      · subst same
        exact fun _ => ⟨.outside, rfl, rfl⟩
      · subst same
        exact fun _ => ⟨.outside, rfl, rfl⟩

theorem rxKeeps_turn :
    (rxTurn iface).Keeps rxSections (fun _ => (· = .outside)) (fun _ => (· = .outside))
      .outside := by
  intro run
  refine ⟨.outside, rfl, ?_⟩
  cases run with
  | false => exact rfl
  | true =>
      have handled (reason : Raised) (place : RxPlace) (same : place = .outside) :
          (rxHandler reason).Keeps rxSections (fun _ => (· = .outside)) (fun _ => (· = .outside))
            place := same ▸ rxKeeps_stops (rxHandler_stops reason)
      refine keeps_rescue (keeps_bind fun active => ⟨.outside, rfl, ?_⟩)
      cases active with
      | true => exact fun _ => ⟨.outside, rfl, rfl⟩
      | false =>
          refine keeps_bind fun woken => ⟨.outside, rfl, ?_⟩
          cases woken with
          | false => exact handled .radio _ rfl
          | true =>
              refine keeps_bind (rxKeeps_poll.mono (fun got place same => ?_) handled)
              subst same
              cases got with
              | none => exact rfl
              | some reception =>
                  exact (rxKeeps_stops ((received_outside reception).mono fun _ => Or.inl)).mono
                    (fun _ _ same => same) handled

theorem txKeeps_sendFrames (timeoutS : ℚ) (polls place : ℕ) (frames : List Bytes) :
    (sendFrames iface timeoutS polls place frames).Only fun call =>
      call.Outside ∨ call.IsRadio := by
  induction frames generalizing place with
  | nil => trivial
  | cons frame rest ih =>
      refine ⟨Or.inl trivial, fun _ => Program.Only.bind ?_ fun confirmed => ?_⟩
      · exact (only_within (only_radio _) (fun _ => only_radio _) (only_radio _)).mono
          fun _ => Or.inr
      · exact ((noteSent_outside frame confirmed).mono fun _ => Or.inl).bind fun _ => ih _

theorem txKeeps_keyUp (timeoutS : ℚ) (polls : ℕ) (frames : List Bytes) :
    (keyUp iface timeoutS polls frames).Keeps txSections (fun _ => (· = .outside))
      (fun _ => (· = .outside)) .keyed := by
  refine keeps_ensuring (keeps_bind ((txKeeps_keyed (txKeeps_sendFrames timeoutS polls 0
    frames)).mono (fun _ place same => ?_) fun _ place same => ?_))
  · subst same
    have restarts := (only_radio (Radio.startRx iface.profile iface.settings)).keeps
      fun (call : Call) answer ⟨effect, same⟩ =>
        (by subst same; rfl : txSections .resuming call answer = some .resuming)
    refine fun _ => ⟨.resuming, rfl, keeps_ensuring (restarts.mono (fun _ place same => ?_)
      fun _ place same => ?_)⟩
    · subst same
      exact fun _ => ⟨.keyed, rfl, fun _ => ⟨.outside, rfl, rfl⟩⟩
    · subst same
      exact fun _ => ⟨.keyed, rfl, fun _ => ⟨.outside, rfl, rfl⟩⟩
  · subst same
    exact fun _ => ⟨.outside, rfl, rfl⟩

theorem txKeeps_transmit (packet : Packet) (fuel : ℕ) :
    (transmit iface packet fuel).Keeps txSections (fun _ => (· = .outside))
      (fun _ => (· = .outside)) .outside := by
  have frames : (framesOf iface packet.data).Only Call.Stops :=
    (framesOf_only iface packet.data).mono fun _ same => same ▸ Or.inl trivial
  refine keeps_bind ((txKeeps_stops frames).mono (fun frames place same => ?_) fun _ _ same => same)
  subst same
  refine keeps_bind (keeps_ofExcept (fun toa _ => ?_) fun _ _ => rfl)
  refine keeps_bind ((txKeeps_stops ((hold_outside packet toa fuel).mono fun _ => Or.inl)).mono
    (fun granted place same => ?_) fun _ _ same => same)
  subst same
  cases granted with
  | false => exact rfl
  | true => exact fun _ => ⟨_, rfl, fun _ => ⟨_, rfl, fun _ => ⟨_, rfl, txKeeps_keyUp _ fuel _⟩⟩⟩

theorem txKeeps_outer :
    txOuter.Keeps txSections (fun _ => (· = .outside)) (fun _ => (· = .outside)) .outside := by
  intro run
  cases run with
  | false => exact ⟨.outside, rfl, rfl⟩
  | true => exact ⟨.outside, rfl, fun _ => ⟨.outside, rfl, fun _ => ⟨.outside, rfl, rfl⟩⟩⟩

theorem txKeeps_inner (fuel : ℕ) :
    (txInner iface fuel).Keeps txSections (fun _ => (· = .outside)) (fun _ => (· = .outside))
      .outside := by
  refine fun length => ⟨.outside, rfl, ?_⟩
  dsimp only
  split
  · exact rfl
  refine fun run => ⟨.outside, rfl, ?_⟩
  cases run with
  | false => exact rfl
  | true =>
      refine fun packet => ⟨.outside, rfl, ?_⟩
      cases packet with
      | none => exact rfl
      | some packet =>
          refine keeps_rescue (keeps_bind ((txKeeps_transmit packet fuel).mono
            (fun _ _ same => same) fun reason place same => ?_))
          subst same
          exact txKeeps_stops (txHandler_stops reason)

theorem detach_keeps :
    detach.Keeps detachSections (fun _ _ => True) (fun _ _ => True) false :=
  fun _ => ⟨true, rfl, fun _ => ⟨true, rfl, fun _ => ⟨true, rfl, fun _ => ⟨true, rfl,
    fun _ => ⟨true, rfl, fun _ => ⟨true, rfl, fun _ => ⟨true, rfl, trivial⟩⟩⟩⟩⟩⟩⟩

theorem processOutgoing_outside (data : Bytes) :
    (processOutgoing iface data).Only Call.Outside := by
  refine (processOutgoing_only iface data).mono fun call kind => ?_
  cases call with
  | readOnline | queueLength | time | append | setEvent | log => trivial
  | _ => exact kind.elim

end Walk

end LorahamRns.Interface
