import LorahamRns.Node.Main

/-!
# What the ready marker vouches for

The marker says that `main` owns the shared instance and that its interface has not
gone offline up to the end of the wait for the client listener.  `main` looks at the
interface before that wait and not again until the marker is in place.
-/

namespace LorahamRns.Node

open LorahamRns.Lib

/-- `main` owns the shared instance, and when the wait for the client listener
succeeded the interface had never gone offline. -/
def World.Earned (world : World) : Prop :=
  world.ownership = some .owner ∧ world.heard = some false

/-- The marker is put in place only when it is earned; a process that ends without
having earned it leaves no marker and, unless a SIGTERM ended it, a non-zero exit
code. -/
structure World.Honest (world : World) : Prop where
  earned : world.written = true → world.Earned
  otherwise : ∀ ending, world.main = .ended ending → ¬world.Earned →
    world.written = false ∧
      (ending = .raised (.systemExit exitOk) ∨ ending.exitCode ≠ 0)

/-- The wait for the client listener does not succeed after the interface went offline
during it. -/
def Label.Steady (world : World) : Label → Prop
  | .call .ownListener reply => reply = true → world.fell = false
  | _ => True

/-- What holds at each point of `main`. -/
def Main.Sound (world : World) : Main → Prop
  | .clearing | .scanning | .constructing => world.written = false ∧ world.fell = false
  | .connected =>
      (world.written = false ∧ world.fell = false) ∧ world.ownership ≠ none
  | .standalone =>
      (world.written = false ∧ world.fell = false) ∧
        world.ownership ≠ none ∧ world.ownership ≠ some .client
  | .starting | .searching _ _ | .finding _ | .seeking _ _ | .doubting _ _ | .pausing _ _
  | .confirming _ =>
      (world.written = false ∧ world.fell = false) ∧ world.ownership = some .owner
  | .installing iface | .waiting iface | .listening iface _ | .probing iface _
  | .idling iface _ =>
      world.written = false ∧ world.ownership = some .owner ∧
        (world.fell = false → (world.status iface).gone = false)
  | .writing _ | .replacing _ | .announcing _ | .watching _ | .checking _ | .holding _
  | .dying | .interrupted | .finishing _ => world.Earned
  | .refusing code => world.written = false ∧ code ≠ 0
  | .ended ending =>
      world.Earned ∨ world.written = false ∧
        (ending = .raised (.systemExit exitOk) ∨ ending.exitCode ≠ 0)

structure Sound (world : World) : Prop where
  status : ∀ iface, (world.status iface).online = true → (world.status iface).gone = false
  point : world.main.Sound world

theorem World.Initial.sound {args : Args} {world : World} (h : world.Initial args) :
    Sound world := by
  constructor
  · intro iface up
    rw [h.status] at up
    cases up
  · rw [h.main]
    rcases Main.start_cases args with ⟨-, start⟩ | ⟨-, start⟩ <;> rw [start] <;>
      exact ⟨h.written, h.fell⟩

/-- At every point the marker is not yet written or it is earned. -/
theorem Main.Sound.earned {world : World} {point : Main} (h : point.Sound world) :
    world.written = false ∨ world.Earned := by
  cases point with
  | clearing | scanning | constructing => exact .inl h.1
  | connected | standalone | starting | searching | finding | seeking | doubting | pausing
  | confirming => exact .inl h.1.1
  | installing | waiting | listening | probing | idling => exact .inl h.1
  | writing | replacing | announcing | watching | checking | holding | dying | interrupted
  | finishing => exact .inr h
  | refusing => exact .inl h.1
  | ended => exact h.symm.imp_left And.left

/-- An honest state, from what holds at its point. -/
theorem Sound.honest {world : World} (h : Sound world) : world.Honest := by
  constructor
  · intro written
    refine h.point.earned.resolve_left fun unwritten => ?_
    rw [written] at unwritten
    cases unwritten
  · intro ending ended unearned
    have point := h.point
    rw [ended] at point
    exact point.resolve_left unearned

/-- An exception ends the process with a non-zero code, or it is a SIGTERM. -/
theorem Raised.nonzero (reason : Raised) :
    Ending.raised reason = .raised (.systemExit exitOk) ∨ (Ending.raised reason).exitCode ≠ 0 := by
  cases reason with
  | systemExit code =>
      by_cases zero : code = exitOk
      · exact .inl (by rw [zero])
      · exact .inr zero
  | message | keyboardInterrupt | other => exact .inr (by decide)

/-- Away from the wait's success, moving on leaves what the record says. -/
theorem World.goTo_heard {world : World} {point : Main}
    (away : ∀ iface deadline, world.main ≠ .probing iface deadline) :
    (world.goTo point).heard = world.heard := by
  unfold World.goTo
  dsimp only
  split
  · next probing => exact absurd probing (away _ _)
  · next probing => exact absurd probing (away _ _)
  · rfl

theorem World.Earned.goTo {world : World} {point : Main} (h : world.Earned)
    (away : ∀ iface deadline, world.main ≠ .probing iface deadline) :
    (world.goTo point).Earned :=
  ⟨h.1, (World.goTo_heard away).trans h.2⟩

theorem Main.sound_finish {args : Args} {ending : Ending} {world : World} (h : world.Earned) :
    (finish args ending).Sound world := by
  unfold finish
  split
  · exact h
  · exact .inl h

/-- What holds at a point holds at the next one after a call of `main`. -/
theorem Sound.call {args : Args} {world after : World} {call : Call}
    {resume : call.Reply → Main} {reply : call.Reply} (h : Sound world)
    (next : world.main.next args = .call call resume)
    (answers : World.Answers call world reply after)
    (steady : Label.Steady world (.call call reply)) :
    (resume reply).Sound (after.goTo (resume reply)) := by
  have point := h.point
  cases main : world.main with
  | clearing =>
      rw [main] at next point
      cases next
      cases reply with
      | removed =>
          obtain ⟨-, rfl⟩ := answers
          exact point
      | missing =>
          obtain ⟨-, rfl⟩ := answers
          exact point
      | failed =>
          rw [show after = world from answers]
          exact .inr ⟨point.1, .inr (by decide)⟩
  | scanning =>
      rw [main] at next point
      cases next
      rw [answers.2]
      dsimp only
      split
      · exact point
      · exact ⟨point.1, by decide⟩
  | constructing =>
      rw [main] at next point
      cases next
      obtain ⟨ownership, rfl⟩ := answers
      exact ⟨point, by rintro ⟨⟩⟩
  | connected =>
      rw [main] at next point
      cases next
      obtain ⟨attached, same⟩ := answers
      rw [same]
      cases reply with
      | true => exact ⟨point.1.1, by decide⟩
      | false => exact ⟨point.1, point.2, fun client => by cases attached.mpr client⟩
  | standalone =>
      rw [main] at next point
      cases next
      obtain ⟨alone, same⟩ := answers
      rw [same]
      cases reply with
      | true => exact ⟨point.1.1, by decide⟩
      | false =>
          refine ⟨point.1, ?_⟩
          cases ownership : world.ownership with
          | none => exact absurd ownership point.2.1
          | some how =>
              cases how with
              | owner => exact ownership
              | client => exact absurd ownership point.2.2
              | standalone => cases alone.mpr ownership
  | starting | pausing _ _ =>
      rw [main] at next point
      cases next
      rw [show after = world from answers]
      exact point
  | searching deadline found =>
      rw [main] at next point
      cases next
      rw [show after = world from answers]
      dsimp only
      split
      · exact point
      · cases found with
        | none => exact ⟨point.1.1, by decide⟩
        | some iface => exact point
  | finding deadline =>
      rw [main] at next point
      cases next
      rw [answers.2]
      cases reply <;> exact point
  | seeking deadline iface | doubting deadline iface =>
      rw [main] at next point
      cases next
      rw [answers.2]
      cases reply <;> exact point
  | confirming iface =>
      rw [main] at next point
      cases next
      obtain ⟨up, same⟩ := answers
      rw [same]
      cases reply with
      | true => exact ⟨point.1.1, point.2, fun _ => h.status iface up.symm⟩
      | false => exact ⟨point.1.1, by decide⟩
  | installing iface | waiting iface | idling iface _ =>
      rw [main] at next point
      cases next
      rw [show after = world from answers]
      exact point
  | listening iface deadline =>
      rw [main] at next point
      cases next
      rw [show after = world from answers]
      dsimp only
      split
      · exact point
      · exact ⟨point.1, by decide⟩
  | probing iface deadline =>
      rw [main] at next point
      cases next
      rw [show after = world from answers]
      cases reply with
      | false => exact point
      | true =>
          have intact := point.2.2 (steady rfl)
          dsimp only
          split
          · exact ⟨point.2.1, by simp [World.goTo, main, intact]⟩
          · exact ⟨point.2.1, by simp [World.goTo, main, intact]⟩
  | writing iface | announcing iface | watching iface =>
      have away : ∀ iface deadline, world.main ≠ .probing iface deadline := by simp [main]
      rw [main] at next point
      cases next
      rw [show after = world from answers]
      exact World.Earned.goTo point away
  | replacing iface =>
      have away : ∀ iface deadline, world.main ≠ .probing iface deadline := by simp [main]
      rw [main] at next point
      cases next
      rw [show after = { world with ready := true, written := true } from answers]
      exact ⟨point.1, (World.goTo_heard away).trans point.2⟩
  | checking iface | holding iface =>
      have away : ∀ iface deadline, world.main ≠ .probing iface deadline := by simp [main]
      rw [main] at next point
      cases next
      rw [answers.2]
      cases reply <;> exact World.Earned.goTo point away
  | dying | interrupted =>
      have away : ∀ iface deadline, world.main ≠ .probing iface deadline := by simp [main]
      rw [main] at next point
      cases next
      rw [show after = world from answers]
      exact Main.sound_finish (World.Earned.goTo point away)
  | refusing code =>
      rw [main] at next point
      cases next
      rw [show after = world from answers]
      exact .inr ⟨point.1, .inr point.2⟩
  | finishing ending =>
      have away : ∀ iface deadline, world.main ≠ .probing iface deadline := by simp [main]
      rw [main] at next point
      cases next
      have earned : after.Earned ∧ after.main = world.main := by
        cases reply with
        | removed =>
            obtain ⟨-, rfl⟩ := answers
            exact ⟨point, rfl⟩
        | missing =>
            rw [answers.2]
            exact ⟨point, rfl⟩
        | failed =>
            rw [show after = world from answers]
            exact ⟨point, rfl⟩
      have kept {point : Main} : (after.goTo point).Earned := earned.1.goTo (earned.2 ▸ away)
      cases reply <;> exact .inl kept
  | ended ending =>
      rw [main] at next
      cases next

/-- Nothing is lost where an exception moves `main`. -/
theorem Main.Sound.unwind {args : Args} {world : World} {point : Main} (h : point.Sound world)
    (reason : Raised) (running : ∀ ending, point ≠ .ended ending) :
    (point.unwind args reason).Sound world := by
  cases point with
  | ended ending => exact absurd rfl (running ending)
  | watching | checking | holding | dying =>
      unfold Main.unwind
      dsimp only
      split
      · exact h
      · exact sound_finish h
  | interrupted => exact sound_finish h
  | writing | replacing | announcing | finishing => exact .inl h
  | clearing | scanning | constructing => exact .inr ⟨h.1, reason.nonzero⟩
  | connected | standalone | starting | searching | finding | seeking | doubting | pausing
  | confirming => exact .inr ⟨h.1.1, reason.nonzero⟩
  | installing | waiting | listening | probing | idling | refusing =>
      exact .inr ⟨h.1, reason.nonzero⟩

/-- The interface's own steps keep what holds at the point of `main`, when an
interface that goes offline during the wait is noted as fallen. -/
theorem Main.Sound.environment {world after : World} {point : Main} (h : point.Sound world)
    (written : after.written = world.written) (ownership : after.ownership = world.ownership)
    (heard : after.heard = world.heard)
    (early : point.waitsWith = none → after.fell = world.fell)
    (intact : ∀ iface, point.waitsWith = some iface → after.fell = false →
      world.fell = false ∧ ((world.status iface).gone = false →
        (after.status iface).gone = false)) : point.Sound after := by
  have kept (earned : world.Earned) : after.Earned :=
    ⟨ownership.trans earned.1, heard.trans earned.2⟩
  cases point with
  | clearing | scanning | constructing => exact ⟨written.trans h.1, (early rfl).trans h.2⟩
  | connected | standalone | starting | searching | finding | seeking | doubting | pausing
  | confirming =>
      refine ⟨⟨written.trans h.1.1, (early rfl).trans h.1.2⟩, ?_⟩
      rw [ownership]
      exact h.2
  | installing iface | waiting iface | listening iface | probing iface | idling iface =>
      refine ⟨written.trans h.1, ownership.trans h.2.1, fun standing => ?_⟩
      obtain ⟨before, gone⟩ := intact iface rfl standing
      exact gone (h.2.2 before)
  | writing | replacing | announcing | watching | checking | holding | dying | interrupted
  | finishing => exact kept h
  | refusing => exact ⟨written.trans h.1, h.2⟩
  | ended => exact h.imp kept fun unmarked => ⟨written.trans unmarked.1, unmarked.2⟩

theorem Sound.step {args : Args} {world after : World} {label : Label} (h : Sound world)
    (step : World.Step args world label after) (steady : label.Steady world) : Sound after := by
  cases step with
  | call next answers =>
      refine ⟨?_, h.call next answers steady⟩
      obtain ⟨ready, ownership, written, rfl⟩ := answers.frame
      exact h.status
  | raised reason running => exact ⟨h.status, h.point.unwind reason running⟩
  | registers iface first =>
      exact ⟨h.status, h.point.environment rfl rfl rfl (fun _ => rfl) fun _ _ standing =>
        ⟨standing, id⟩⟩
  | rises iface fresh =>
      have gone (other : ℕ) (intact : (world.status other).gone = false) :
          ((world.setStatus iface ⟨true, false, false⟩).status other).gone = false := by
        by_cases same : other = iface
        · rw [same, World.setStatus_self]
        · rwa [World.setStatus_of_ne _ _ same]
      refine ⟨fun other up => gone other ?_, h.point.environment rfl rfl rfl (fun _ => rfl)
        fun other _ standing => ⟨standing, gone other⟩⟩
      by_cases same : other = iface
      · rw [same]
        exact fresh
      · rw [World.setStatus_of_ne _ _ same] at up
        exact h.status other up
  | falls iface up =>
      refine ⟨fun other up => ?_, h.point.environment rfl rfl rfl (fun waits => ?_)
        fun other waits standing => ?_⟩
      · by_cases same : other = iface
        · rw [same] at up
          exact nomatch up.symm.trans (congrArg Status.online (World.setStatus_self ..))
        · have kept := World.setStatus_of_ne world ⟨false, (world.status iface).fatal, true⟩ same
          exact (congrArg Status.gone kept).trans (h.status other (kept ▸ up))
      · simp [waits]
      · obtain ⟨before, apart⟩ := Bool.or_eq_false_iff.mp standing
        have same : other ≠ iface := by
          rintro rfl
          exact of_decide_eq_false apart waits
        have kept := World.setStatus_of_ne world ⟨false, (world.status iface).fatal, true⟩ same
        exact ⟨before, (congrArg Status.gone kept).trans⟩
  | reports iface down =>
      have kept (other : ℕ) : ((world.setStatus iface
          ⟨(world.status iface).online, true, true⟩).status other).online =
            (world.status other).online ∧
          ((world.setStatus iface ⟨(world.status iface).online, true, true⟩).status other).gone =
            (world.status other).gone := by
        by_cases same : other = iface
        · rw [same, World.setStatus_self]
          exact ⟨rfl, down.symm⟩
        · rw [World.setStatus_of_ne _ _ same]
          exact ⟨rfl, rfl⟩
      refine ⟨fun other up => ?_, h.point.environment rfl rfl rfl (fun _ => rfl)
        fun other _ standing => ⟨standing, (kept other).2.trans⟩⟩
      exact (kept other).2.trans (h.status other ((kept other).1.symm.trans up))

/-- In every run in which the wait for the client listener does not succeed after the
interface went offline during it, every state is honest. -/
theorem marker_is_earned {args : Args} {world : World} {trace : List Label}
    (run : ((runner args).restrict fun world label _ => label.Steady world).Run world trace) :
    world.Honest := by
  have sound : Sound world :=
    run.invariant (fun _ => World.Initial.sound) fun _ _ _ h taken => h.step taken.1 taken.2
  exact sound.honest

theorem Label.Quiet.steady {world : World} {label : Label} (h : label.Quiet) :
    label.Steady world := by
  cases label with
  | call call reply =>
      cases call with
      | ownListener => exact h.elim
      | _ => trivial
  | _ => trivial

/-- A start without trouble earns its marker. -/
theorem quiet_start_is_honest : World.announced.written = true ∧ World.announced.Honest := by
  have announced : Reached usualArgs (fun world label _ => label.Steady world) .announced :=
    announced_reached (fun _ _ _ h => h.steady) fun _ _ standing _ => standing
  obtain ⟨trace, run⟩ := announced
  exact ⟨rfl, marker_is_earned run⟩

/-- The interface goes offline during the wait for the listener, and the marker is put
in place all the same. -/
theorem fallen_interface_is_ready :
    ¬∀ args world trace, (runner args).Run world trace → world.Honest := by
  intro always
  have early : (0 : ℚ) < 0 + 5 := by norm_num
  have waiting : Reached usualArgs (fun _ _ _ => True) (.stage (.waiting 0) (some .owner)) :=
    stage_reached fun _ _ _ _ => trivial
  have listening := waiting.call rfl (0 : ℚ) rfl trivial
  have probing := listening.call rfl (0 : ℚ) rfl trivial
  simp only [early, if_true] at probing
  have fallen := probing.step (.falls 0 rfl) trivial
  have writing := fallen.call rfl true rfl trivial
  have replacing := writing.call rfl () rfl trivial
  obtain ⟨trace, run⟩ := replacing.call rfl () rfl trivial
  exact nomatch ((always _ _ _ run.of_restrict).earned rfl).2

end LorahamRns.Node
