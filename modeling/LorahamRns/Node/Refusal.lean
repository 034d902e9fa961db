import LorahamRns.Node.Main

/-!
# Refusing an exposed bind

What `main` does with a configuration is decided by the last line that sets
`listen_ip`: an exposing bind there is refused before Reticulum is constructed, one
on an earlier line is not seen.
-/

namespace LorahamRns.Node

open LorahamRns.Lib

/-- No exception strikes and a stale marker can be removed. -/
def Label.Calm : Label → Prop
  | .raised _ _ => False
  | .call .unlinkReady reply => reply ≠ .failed
  | _ => True

/-- A calm run of `main` on a configuration text. -/
def CalmRun (args : Args) (text : List Char) (world : World) (trace : List Label) : Prop :=
  ((runner args).restrict fun _ label _ => label.Calm).Run world trace ∧
    world.config = some text

/-- `main` refuses the text: Reticulum is never constructed, the run can only end with
the exit code for an unsafe bind, and it can always go on to that end. -/
structure Refuses (args : Args) (text : List Char) : Prop where
  unbuilt : ∀ world trace, CalmRun args text world trace → world.ownership = none
  ends : ∀ world trace ending, CalmRun args text world trace → world.main = .ended ending →
    ending = .returned exitUnsafeExposure
  finishes : ∀ world trace, CalmRun args text world trace →
    ∃ after more, CalmRun args text after (trace ++ more) ∧
      after.main = .ended (.returned exitUnsafeExposure)

/-- Where `main` is before it has decided on the bind, and after refusing it. -/
structure Undecided (args : Args) (text : List Char) (world : World) : Prop where
  config : world.config = some text
  ownership : world.ownership = none
  main : world.main = .clearing ∨ world.main = .scanning ∨
    world.main = .refusing exitUnsafeExposure ∨
    world.main = .ended (.returned exitUnsafeExposure)

theorem World.Step.config {args : Args} {world after : World} {label : Label}
    (step : World.Step args world label after) : after.config = world.config := by
  cases step with
  | call next answers =>
      obtain ⟨ready, ownership, written, rfl⟩ := answers.frame
      rfl
  | _ => rfl

theorem World.Initial.undecided {args : Args} {text : List Char} {world : World}
    (h : world.Initial args) (config : world.config = some text) :
    Undecided args text world := by
  refine ⟨config, h.ownership, ?_⟩
  rw [h.main]
  rcases Main.start_cases args with ⟨-, start⟩ | ⟨-, start⟩
  · exact .inl start
  · exact .inr (.inl start)

/-- The points before the decision, and what is left of the world there. -/
theorem Undecided.frame {args : Args} {text : List Char} {world after : World}
    (h : Undecided args text world) (config : after.config = world.config)
    (ownership : after.ownership = world.ownership) (main : after.main = world.main) :
    Undecided args text after :=
  ⟨config.trans h.config, ownership.trans h.ownership, main ▸ h.main⟩

/-- With an exposing last line a calm step stays on the way to the refusal. -/
theorem Undecided.step {args : Args} {text : List Char} {world after : World} {label : Label}
    (h : Undecided args text world) (exposes : LastExposes args.mapped text)
    (step : World.Step args world label after) (calm : label.Calm) :
    Undecided args text after := by
  cases step with
  | @call before call resume reply next answers =>
      rcases h.main with main | main | main | main
      · rw [main] at next
        cases next
        cases reply with
        | removed =>
            obtain ⟨-, rfl⟩ := answers
            exact ⟨h.config, h.ownership, .inr (.inl rfl)⟩
        | missing =>
            obtain ⟨-, rfl⟩ := answers
            exact ⟨h.config, h.ownership, .inr (.inl rfl)⟩
        | failed => exact absurd rfl calm
      · rw [main] at next
        cases next
        obtain ⟨read, same⟩ := answers
        have refused : unsafeExposure args.mapped reply ≠ [] := by
          rw [read, h.config]
          exact (unsafeExposure_ne_nil_iff _ _).mpr exposes
        rw [same]
        exact ⟨h.config, h.ownership, .inr (.inr (.inl (if_neg refused)))⟩
      · rw [main] at next
        cases next
        cases answers
        exact ⟨h.config, h.ownership, .inr (.inr (.inr rfl))⟩
      · rw [main] at next
        cases next
  | raised reason running => exact calm.elim
  | registers iface first => exact h.frame rfl rfl rfl
  | rises iface fresh => exact h.frame rfl rfl rfl
  | falls iface up => exact h.frame rfl rfl rfl
  | reports iface down => exact h.frame rfl rfl rfl

theorem CalmRun.undecided {args : Args} {text : List Char} {world : World} {trace : List Label}
    (run : CalmRun args text world trace) (exposes : LastExposes args.mapped text) :
    Undecided args text world := by
  obtain ⟨run, config⟩ := run
  induction run with
  | start initial => exact World.Initial.undecided initial config
  | step _ taken ih =>
      exact (ih (taken.1.config.symm.trans config)).step exposes taken.1 taken.2

/-- One more calm call of `main`. -/
theorem CalmRun.call {args : Args} {text : List Char} {world after : World}
    {trace : List Label} (run : CalmRun args text world trace) {point : Main}
    (main : world.main = point) {call : Call} {resume : call.Reply → Main}
    (next : point.next args = .call call resume) (reply : call.Reply) (answers : World.Answers call world reply after)
    (calm : Label.Calm (.call call reply)) :
    CalmRun args text (after.goTo (resume reply)) (trace ++ [.call call reply]) :=
  have step : World.Step args world (.call call reply) (after.goTo (resume reply)) :=
    .call (main ▸ next) answers
  ⟨run.1.step ⟨step, calm⟩, step.config.trans run.2⟩

/-- A stale marker can always be cleared. -/
theorem World.clear_answers (world : World) :
    ∃ reply after, World.Answers .unlinkReady world reply after ∧ reply ≠ .failed := by
  cases ready : world.ready with
  | true => exact ⟨.removed, _, ⟨ready, rfl⟩, nofun⟩
  | false => exact ⟨.missing, _, ⟨ready, rfl⟩, nofun⟩

/-- A calm run scans the configuration. -/
theorem CalmRun.scanning {args : Args} {text : List Char} {world : World} {trace : List Label}
    (run : CalmRun args text world trace) (main : world.main = .clearing) :
    ∃ after more, CalmRun args text after (trace ++ more) ∧ after.main = .scanning := by
  obtain ⟨reply, after, answers, cleared⟩ := world.clear_answers
  refine ⟨_, [_], run.call main rfl reply answers cleared, ?_⟩
  cases reply with
  | failed => exact absurd rfl cleared
  | _ => rfl

/-- A scan of an exposing last line is followed by the refusal. -/
theorem CalmRun.refusing {args : Args} {text : List Char} {world : World} {trace : List Label}
    (run : CalmRun args text world trace) (exposes : LastExposes args.mapped text)
    (main : world.main = .scanning) :
    ∃ after more, CalmRun args text after (trace ++ more) ∧
      after.main = .refusing exitUnsafeExposure := by
  have refused : unsafeExposure args.mapped world.config ≠ [] := by
    rw [run.2]
    exact (unsafeExposure_ne_nil_iff _ _).mpr exposes
  exact ⟨_, [_], run.call main rfl world.config ⟨rfl, rfl⟩ trivial, if_neg refused⟩

theorem CalmRun.finishes {args : Args} {text : List Char} {world : World} {trace : List Label}
    (run : CalmRun args text world trace) (exposes : LastExposes args.mapped text) :
    ∃ after more, CalmRun args text after (trace ++ more) ∧
      after.main = .ended (.returned exitUnsafeExposure) := by
  have refusing {world : World} {trace : List Label} (run : CalmRun args text world trace)
      (main : world.main = .refusing exitUnsafeExposure) :
      ∃ after more, CalmRun args text after (trace ++ more) ∧
        after.main = .ended (.returned exitUnsafeExposure) :=
    ⟨_, [_], run.call main rfl () rfl trivial, rfl⟩
  have scanning {world : World} {trace : List Label} (run : CalmRun args text world trace)
      (main : world.main = .scanning) :
      ∃ after more, CalmRun args text after (trace ++ more) ∧
        after.main = .ended (.returned exitUnsafeExposure) := by
    obtain ⟨after, more, run, main⟩ := run.refusing exposes main
    obtain ⟨last, rest, run, main⟩ := refusing run main
    exact ⟨last, more ++ rest, List.append_assoc .. ▸ run, main⟩
  rcases (run.undecided exposes).main with main | main | main | main
  · obtain ⟨after, more, run, main⟩ := run.scanning main
    obtain ⟨last, rest, run, main⟩ := scanning run main
    exact ⟨last, more ++ rest, List.append_assoc .. ▸ run, main⟩
  · exact scanning run main
  · exact refusing run main
  · exact ⟨world, [], by rwa [List.append_nil], main⟩

/-- Any text has a calm run up to the scan. -/
theorem calmRun_scanning (args : Args) (text : List Char) :
    ∃ world trace, CalmRun args text world trace ∧ world.main = .scanning := by
  have start : CalmRun args text { World.blank args with config := some text } [] :=
    ⟨.start ⟨rfl, fun _ => rfl, rfl, rfl, fun _ => rfl, rfl, rfl, rfl⟩, rfl⟩
  rcases Main.start_cases args with ⟨-, main⟩ | ⟨-, main⟩
  · obtain ⟨world, trace, run, scanning⟩ := start.scanning main
    exact ⟨world, trace, run, scanning⟩
  · exact ⟨_, _, start, main⟩

/-- A text is refused exactly when its last `listen_ip` exposes. -/
theorem refuses_iff_last (args : Args) (text : List Char) :
    Refuses args text ↔ LastExposes args.mapped text := by
  constructor
  · intro refuses
    by_contra safe
    obtain ⟨world, trace, scanning, main⟩ := calmRun_scanning args text
    have accepted : unsafeExposure args.mapped world.config = [] := by
      rw [scanning.2]
      exact not_not.mp fun refused => safe ((unsafeExposure_ne_nil_iff _ _).mp refused)
    have constructing := scanning.call main rfl world.config ⟨rfl, rfl⟩ trivial
    rw [if_pos accepted] at constructing
    have built := constructing.call rfl rfl () ⟨.owner, rfl⟩ trivial
    exact nomatch refuses.unbuilt _ _ built
  · intro exposes
    refine ⟨fun world trace run => (run.undecided exposes).ownership,
      fun world trace ending run ended => ?_, fun world trace run => run.finishes exposes⟩
    have main := (run.undecided exposes).main
    rw [ended] at main
    simpa using main

/-- A text with an exposing line is refused if and only if its last `listen_ip` is an
exposing line. -/
theorem exposure_refused_iff (args : Args) (text : List Char) :
    (Exposes args.mapped text → Refuses args text) ↔
      (Exposes args.mapped text → LastExposes args.mapped text) := by
  rw [refuses_iff_last]

/-- Two sections: an open bind, then a loopback one. -/
def maskedText : List Char := "listen_ip = 0.0.0.0\nlisten_ip = 127.0.0.1\n".toList

theorem listenIps_maskedText :
    listenIps maskedText = ["0.0.0.0".toList, "127.0.0.1".toList] := by decide

/-- A later loopback bind hides an earlier open one. -/
theorem masked_bind_is_not_refused :
    ¬∀ args text, Exposes args.mapped text → Refuses args text := by
  intro always
  have exposes : Exposes usualArgs.mapped maskedText := by
    refine ⟨"0.0.0.0".toList, ?_, by decide⟩
    rw [listenIps_maskedText]
    exact List.mem_cons_self
  obtain ⟨listen, last, -, exposing⟩ :=
    (refuses_iff_last _ _).mp (always usualArgs maskedText exposes)
  rw [listenIps_maskedText] at last
  cases last
  exact absurd exposing (by decide)

end LorahamRns.Node
