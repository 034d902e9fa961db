import LorahamRns.Interface.Threads

/-!
# The last look at `_run`

A thread heeds `_run` for certain calls when it makes them only after it last saw `_run`
set.  Once `_run` is cleared, a thread that has yet to look again makes none of them.
-/

namespace LorahamRns.Interface

open LorahamRns.Lib LorahamRns.Framing LorahamRns.Radio
open Program (keeps_bind keeps_rescue)

/-- Whether the thread last saw `_run` set, and has not cleared it itself; the guarded
calls are forbidden otherwise.  No worker releases the radio or the bus. -/
def lastLook (guarded : Call → Bool) : Monitor Call Call.Answer Bool
  | _, .readRun, run => some run
  | _, .clearRun, _ => some false
  | _, .closeRadio, _ | _, .closeBus, _ => none
  | seen, call, _ => if guarded call && !seen then none else some seen

/-- No call of the program is forbidden. -/
abbrev Looks (guarded : Call → Bool) (program : Worker Next) (seen : Bool) : Prop :=
  program.Keeps (lastLook guarded) (fun _ _ => True) (fun _ _ => True) seen

/-- Neither a handler nor a caller needs to look. -/
structure Guards (guarded : Call → Bool) : Prop where
  handler : ∀ call : Call, call.OfHandler → guarded call = false
  caller : ∀ call : Call, call.OfCaller → guarded call = false

variable {guarded : Call → Bool}

/-- After a look that found `_run` set, everything is permitted. -/
theorem lastLook_seen {call : Call} (h : call.OfTransmit ∨ call.OfReceive) (answer : call.Answer) :
    lastLook guarded true call answer = some true := by
  cases call with
  | readRun | clearRun | closeRadio | closeBus => exact (h.elim id id).elim
  | _ => simp [lastLook]

theorem lastLook_free {call : Call} (free : guarded call = false) (seen : Bool)
    (h : call.OfHandler ∨ call.OfCaller) (answer : call.Answer) :
    ∃ after, lastLook guarded seen call answer = some after := by
  cases call with
  | readRun => exact ⟨answer, rfl⟩
  | clearRun => exact ⟨false, rfl⟩
  | closeRadio | closeBus => exact (h.elim id id).elim
  | _ => exact ⟨seen, by simp [lastLook, free]⟩

theorem looks_body {α : Type} {program : Worker α} (h : program.Only fun call =>
    call.OfTransmit ∨ call.OfReceive) :
    program.Keeps (lastLook guarded) (fun _ => (· = true)) (fun _ => (· = true)) true :=
  h.keeps fun _ answer permitted => lastLook_seen permitted answer

/-- A program of handler and caller calls, whatever was seen before. -/
theorem looks_free (guards : Guards guarded) {program : Worker Next}
    (h : program.Only fun call => call.OfHandler ∨ call.OfCaller) (seen : Bool) :
    Looks guarded program seen := by
  induction program generalizing seen with
  | done => trivial
  | fail => trivial
  | call call next ih =>
      intro answer
      have free : guarded call = false := h.1.elim (guards.handler call) (guards.caller call)
      obtain ⟨after, moved⟩ := lastLook_free free seen h.1 answer
      exact ⟨after, moved, ih answer (h.2 answer) after⟩

theorem looks_tried (guards : Guards guarded) {body : Worker Next}
    {handler : Raised → Worker Next}
    (hbody : body.Only fun call => call.OfTransmit ∨ call.OfReceive)
    (hhandler : ∀ reason, (handler reason).Only Call.OfHandler) :
    Looks guarded (body.rescue handler) true :=
  keeps_rescue ((looks_body hbody).mono (fun _ _ _ => trivial) fun reason seen _ =>
    looks_free guards ((hhandler reason).mono fun _ => Or.inl) seen)

/-- Every turn of a thread but `detach` looks before it makes a guarded call. -/
theorem looks_turn (guards : Guards guarded) {iface : LoRaSPIInterface} {who : Who} {next : Next}
    {program : Worker Next} (goesOn : Turn iface who next program) :
    Looks guarded program false := by
  cases goesOn with
  | rx =>
      refine fun run => ⟨run, rfl, ?_⟩
      cases run with
      | false => trivial
      | true =>
          exact looks_tried guards (((rxBody_only iface).mono fun _ => Or.inr).bind
            fun _ => trivial) rxHandler_only
  | outer =>
      have rest : (.call .waitEvent fun _ => .call .clearEvent fun _ => .done .inner :
          Worker Next).Only (fun call => call = .waitEvent ∨ call = .clearEvent) :=
        ⟨Or.inl rfl, fun _ => ⟨Or.inr rfl, fun _ => trivial⟩⟩
      refine fun run => ⟨run, rfl, ?_⟩
      cases run with
      | false => trivial
      | true =>
          have seen (call : Call) (answer : call.Answer)
              (kind : call = .waitEvent ∨ call = .clearEvent) :
              lastLook guarded true call answer = some true := by
            rcases kind with rfl | rfl
            · simp [lastLook]
            · simp [lastLook]
          exact (rest.keeps seen).mono (fun _ _ _ => trivial) fun _ _ _ => trivial
  | inner fuel =>
      obtain ⟨there, moved⟩ : ∃ there, ∀ length,
          lastLook guarded false .queueLength length = some there := by
        refine ⟨false, fun length => ?_⟩
        have free := guards.caller .queueLength trivial
        simp [lastLook, free]
      refine fun length => ⟨there, moved length, ?_⟩
      dsimp only
      split
      · trivial
      refine fun run => ⟨run, rfl, ?_⟩
      cases run with
      | false => trivial
      | true =>
          refine fun packet => ⟨true, by simp [lastLook], ?_⟩
          cases packet with
          | none => trivial
          | some packet =>
              exact looks_tried guards (((transmit_only iface packet fuel).mono
                fun _ => Or.inl).bind fun _ => trivial) txHandler_only
  | caller number data =>
      exact looks_free guards ((processOutgoing_only iface data).mono fun _ => Or.inr) false

/-! ## Steps -/

section Step

variable {soft : Bool} {iface : LoRaSPIInterface} {world after : World} {label : Label} {who : Who}

/-- What a thread may still do, one step later: with `_run` cleared, a thread that has yet
to look sees it so, and one that clears it has seen it. -/
def Later (guarded : Call → Bool) (world after : World) (label : Label) (who : Who)
    (seen : Bool) : Prop :=
  ∃ later, Looks guarded (after.threads who).program later ∧
    (world.run = false → seen = false → later = false) ∧
    ∀ answer, label = .call who .clearRun answer → later = false

/-- Without `_run` set, a permitted call leaves a thread that has yet to look so. -/
theorem lastLook_down {call : Call} {answer : call.Answer} {later : Bool}
    (moved : lastLook guarded false call answer = some later)
    (answered : World.Answers who call world answer after) (down : world.run = false) :
    later = false := by
  cases call with
  | readRun =>
      obtain ⟨rfl, -⟩ := answered
      exact (Option.some_inj.mp moved).symm.trans down
  | clearRun => exact (Option.some_inj.mp moved).symm
  | closeRadio | closeBus => cases moved
  | _ =>
      obtain ⟨-, same⟩ := Option.ite_none_left_eq_some.mp moved
      exact (Option.some_inj.mp same).symm

theorem lastLook_radio {effect : Radio.Effect} {answer : Option effect.Answer} {seen later : Bool}
    (moved : lastLook guarded seen (.radio effect) answer = some later) : later = seen := by
  obtain ⟨-, same⟩ := Option.ite_none_left_eq_some.mp moved
  exact (Option.some_inj.mp same).symm

theorem World.Step.later (guards : Guards guarded)
    (taken : World.Step soft iface world label after) {seen : Bool}
    (h : Looks guarded (world.threads who).program seen) :
    Later guarded world after label who seen := by
  by_cases mover : label.mover = some who
  · cases taken with
    | @call _ _ call next answer here answered =>
        obtain rfl := Option.some_inj.mp mover
        rw [here] at h
        obtain ⟨later, moved, rest⟩ := h.step answer
        refine ⟨later, ?_, fun down unseen => ?_, fun other same => ?_⟩
        · rw [World.goTo_self]
          exact rest
        · subst unseen
          exact lastLook_down moved answered down
        · cases same
          exact (Option.some_inj.mp moved).symm
    | enters here =>
        obtain rfl := Option.some_inj.mp mover
        rw [here] at h
        refine ⟨seen, ?_, fun _ unseen => unseen, nofun⟩
        rw [World.goTo_self]
        exact h
    | bus here asks answered closed =>
        obtain rfl := Option.some_inj.mp mover
        rw [here] at h
        refine ⟨seen, ?_, fun _ unseen => unseen, nofun⟩
        rw [World.goTo_self]
        exact h
    | leaves here =>
        obtain rfl := Option.some_inj.mp mover
        rw [here] at h
        obtain ⟨later, moved, rest⟩ := h.step _
        refine ⟨later, ?_, fun _ unseen => (lastLook_radio moved).trans unseen, nofun⟩
        rw [World.goTo_self]
        exact rest
    | throws here =>
        obtain rfl := Option.some_inj.mp mover
        rw [here] at h
        obtain ⟨later, moved, rest⟩ := h.step none
        refine ⟨later, ?_, fun _ unseen => (lastLook_radio moved).trans unseen, nofun⟩
        rw [World.goTo_self]
        exact rest
    | turn here goesOn =>
        obtain rfl := Option.some_inj.mp mover
        refine ⟨false, ?_, fun _ _ => rfl, nofun⟩
        rw [World.goTo_self]
        exact looks_turn guards goesOn
    | peer moved => cases mover
  · refine ⟨seen, ?_, fun _ unseen => unseen, fun answer same => ?_⟩
    · rw [taken.unmoved mover]
      exact h
    · exact absurd (congrArg Label.mover same) mover

end Step

end LorahamRns.Interface
