import LorahamRns.Node.Main

/-!
# The ready marker and exceptions

An exception may strike `main` at any point behind the clearing of a stale marker, so
at any point once its signal handler is installed.  The marker is gone when the process has unwound, unless the exception strikes
between the rename that puts the marker in place and the `try` that protects it, or
inside the `finally` clause before the marker is removed.
-/

namespace LorahamRns.Node

open LorahamRns.Lib

/-- The points at which the marker is in place and no `finally` clause lies ahead. -/
def Main.Unprotected : Main → Prop
  | .announcing _ | .finishing _ => True
  | _ => False

/-- An exception strikes while the marker is unprotected. -/
def Label.Exposed : Label → Prop
  | .raised point _ => point.Unprotected
  | _ => False

/-- Exceptions come only once a stale marker is cleared, and removing the marker does
not fail. -/
def Label.Cleared : Label → Prop
  | .raised point _ => point ≠ .clearing
  | .call .unlinkReady reply => reply ≠ .failed
  | _ => True

/-- Whether the ready file exists at a point; nothing is known before a stale marker is
cleared and after the end. -/
def Main.marker (args : Args) : Main → Option Bool
  | .clearing | .ended _ => none
  | .announcing _ | .watching _ | .checking _ | .holding _ | .dying | .interrupted
  | .finishing _ => some args.readyFile
  | _ => some false

/-- No exception of the trace struck the marker unprotected. -/
def Safe (trace : List Label) : Prop := ∀ label ∈ trace, ¬label.Exposed

theorem Safe.append {trace : List Label} {label : Label} (h : Safe trace)
    (safe : ¬label.Exposed) : Safe (trace ++ [label]) := by
  intro other member
  rcases List.mem_append.mp member with member | member
  · exact h other member
  · rw [List.mem_singleton.mp member]
    exact safe

theorem safe_append {trace : List Label} {label : Label} (safe : ¬label.Exposed) :
    Safe (trace ++ [label]) ↔ Safe trace :=
  ⟨fun h other member => h other (List.mem_append_left _ member), fun h => h.append safe⟩

/-- The points that are only reached with a path. -/
def Main.NeedsPath : Main → Prop
  | .writing _ | .replacing _ => True
  | _ => False

/-- The marker is as a point says, or the process has ended without it. -/
structure Main.Shows (args : Args) (point : Main) (ready : Bool) : Prop where
  marker : ∀ value, point.marker args = some value → ready = value
  ended : ∀ ending, point = .ended ending → ready = false
  path : point.NeedsPath → args.readyFile = true

theorem Main.shows_of_marker {args : Args} {point : Main} {ready : Bool}
    (h : point.marker args = some ready) (path : ¬point.NeedsPath) : point.Shows args ready := by
  refine ⟨fun value marker => Option.some.inj (h.symm.trans marker), fun ending ended => ?_,
    fun needs => absurd needs path⟩
  rw [ended] at h
  cases h

theorem Main.shows_ended {args : Args} (ending : Ending) :
    (Main.ended ending).Shows args false :=
  ⟨nofun, fun _ _ => rfl, nofun⟩

theorem Main.shows_finish (args : Args) (ending : Ending) :
    (finish args ending).Shows args args.readyFile := by
  unfold finish
  split
  · exact shows_of_marker rfl id
  · next pathless =>
      rw [Bool.not_eq_true] at pathless
      rw [pathless]
      exact shows_ended ending

/-- What holds of the marker while `main` runs, and when it has ended. -/
structure Marked (args : Args) (world : World) (trace : List Label) : Prop where
  safe : (∀ ending, world.main ≠ .ended ending) → Safe trace
  shows : Safe trace → world.main.Shows args world.ready
  struck : ¬Safe trace → world.ready = args.readyFile

theorem World.Initial.marked {args : Args} {world : World} (h : world.Initial args) :
    Marked args world [] := by
  have safe : Safe [] := fun _ member => absurd member List.not_mem_nil
  refine ⟨fun _ => safe, fun _ => ?_, fun struck => absurd safe struck⟩
  rw [h.main]
  rcases Main.start_cases args with ⟨-, start⟩ | ⟨pathless, start⟩
  · rw [start]
    exact ⟨nofun, nofun, nofun⟩
  · rw [start, h.ready pathless]
    exact Main.shows_of_marker rfl id

/-- A call that is not about the marker leaves it. -/
theorem World.Answers.ready {world after : World} {call : Call} {reply : call.Reply}
    (answers : World.Answers call world reply after) (clear : call ≠ .unlinkReady)
    (write : call ≠ .replaceReady) : after.ready = world.ready := by
  cases call with
  | unlinkReady => exact absurd rfl clear
  | replaceReady => exact absurd rfl write
  | reticulum =>
      obtain ⟨ownership, rfl⟩ := answers
      rfl
  | readConfig | isConnected | isStandalone | find | online _ | fatal _ => rw [answers.2]
  | log | monotonic | time | sleep _ | signal | ownListener | writeTemp =>
      rw [show after = world from answers]

/-- Removing the marker, unless that fails, leaves none. -/
theorem World.Answers.removed {world after : World} {reply : Unlink}
    (answers : World.Answers .unlinkReady world reply after) (h : reply ≠ .failed) :
    after.ready = false := by
  cases reply with
  | removed => rw [answers.2]
  | missing => rw [answers.2, answers.1]
  | failed => exact absurd rfl h

/-- What a call of `main` leaves of the marker is what the next point says. -/
theorem Main.Shows.call {args : Args} {point : Main} {world after : World} {call : Call}
    {resume : call.Reply → Main} {reply : call.Reply} (h : point.Shows args world.ready)
    (next : point.next args = .call call resume) (answers : World.Answers call world reply after)
    (cleared : Label.Cleared (.call call reply)) : (resume reply).Shows args after.ready := by
  cases point with
  | clearing =>
      cases next
      rw [answers.removed cleared]
      cases reply with
      | removed => exact shows_of_marker rfl id
      | missing => exact shows_of_marker rfl id
      | failed => exact shows_ended _
  | finishing ending =>
      cases next
      rw [answers.removed cleared]
      cases reply with
      | removed => exact shows_ended _
      | missing => exact shows_ended _
      | failed => exact shows_ended _
  | replacing iface =>
      cases next
      rw [show after = { world with ready := true, written := true } from answers]
      exact shows_of_marker (congrArg some (h.path trivial)) id
  | ended ending => cases next
  | scanning =>
      cases next
      rw [answers.ready nofun nofun, h.marker false rfl]
      dsimp only
      split
      · exact shows_of_marker rfl id
      · exact shows_of_marker rfl id
  | connected =>
      cases next
      rw [answers.ready nofun nofun, h.marker false rfl]
      cases reply <;> exact shows_of_marker rfl id
  | standalone =>
      cases next
      rw [answers.ready nofun nofun, h.marker false rfl]
      cases reply <;> exact shows_of_marker rfl id
  | searching deadline found =>
      cases next
      rw [answers.ready nofun nofun, h.marker false rfl]
      dsimp only
      split
      · exact shows_of_marker rfl id
      · cases found <;> exact shows_of_marker rfl id
  | finding deadline =>
      cases next
      rw [answers.ready nofun nofun, h.marker false rfl]
      cases reply <;> exact shows_of_marker rfl id
  | seeking deadline iface =>
      cases next
      rw [answers.ready nofun nofun, h.marker false rfl]
      cases reply <;> exact shows_of_marker rfl id
  | doubting deadline iface =>
      cases next
      rw [answers.ready nofun nofun, h.marker false rfl]
      cases reply <;> exact shows_of_marker rfl id
  | confirming iface =>
      cases next
      rw [answers.ready nofun nofun, h.marker false rfl]
      cases reply <;> exact shows_of_marker rfl id
  | listening iface deadline =>
      cases next
      rw [answers.ready nofun nofun, h.marker false rfl]
      dsimp only
      split
      · exact shows_of_marker rfl id
      · exact shows_of_marker rfl id
  | probing iface deadline =>
      cases next
      rw [answers.ready nofun nofun, h.marker false rfl]
      cases reply with
      | false => exact shows_of_marker rfl id
      | true =>
          dsimp only
          split
          · next path => exact ⟨fun value marker => Option.some.inj marker, nofun, fun _ => path⟩
          · next pathless =>
              rw [Bool.not_eq_true] at pathless
              exact shows_of_marker (congrArg some pathless) id
  | constructing | starting | pausing _ _ | installing _ | waiting _ | idling _ _ =>
      cases next
      rw [answers.ready nofun nofun, h.marker false rfl]
      exact shows_of_marker rfl id
  | writing iface =>
      cases next
      rw [answers.ready nofun nofun, h.marker false rfl]
      exact ⟨fun value marker => Option.some.inj marker, nofun, fun _ => h.path trivial⟩
  | refusing code =>
      cases next
      rw [answers.ready nofun nofun, h.marker false rfl]
      exact shows_ended _
  | announcing iface | watching iface =>
      cases next
      rw [answers.ready nofun nofun, h.marker _ rfl]
      exact shows_of_marker rfl id
  | checking iface | holding iface =>
      cases next
      rw [answers.ready nofun nofun, h.marker _ rfl]
      cases reply <;> exact shows_of_marker rfl id
  | dying | interrupted =>
      cases next
      rw [answers.ready nofun nofun, h.marker _ rfl]
      exact shows_finish args _

/-- Where an exception strikes a protected point, what `main` goes on with shows the
marker as it is. -/
theorem Main.Shows.unwind {args : Args} {point : Main} {ready : Bool} (reason : Raised)
    (h : point.Shows args ready) (running : ∀ ending, point ≠ .ended ending)
    (cleared : point ≠ .clearing) (safe : ¬point.Unprotected) :
    (point.unwind args reason).Shows args ready := by
  cases point with
  | clearing => exact absurd rfl cleared
  | ended ending => exact absurd rfl (running ending)
  | announcing | finishing => exact absurd trivial safe
  | watching | checking | holding | dying =>
      rw [h.marker _ rfl]
      unfold Main.unwind
      dsimp only
      split
      · exact shows_of_marker rfl id
      · exact shows_finish args _
  | interrupted =>
      rw [h.marker _ rfl]
      exact shows_finish args _
  | _ =>
      rw [h.marker false rfl]
      exact shows_ended _

/-- Where an exception strikes an unprotected point, the marker stays. -/
theorem Main.Shows.unprotected {args : Args} {point : Main} {ready : Bool} (reason : Raised)
    (h : point.Shows args ready) (struck : point.Unprotected) :
    point.unwind args reason = .ended (.raised reason) ∧ ready = args.readyFile := by
  cases point with
  | announcing | finishing => exact ⟨rfl, h.marker _ rfl⟩
  | _ => exact struck.elim

/-- A protected step from a safe trace keeps the marker shown. -/
theorem Marked.of_shows {args : Args} {world : World} {trace : List Label} {label : Label}
    (safe : Safe trace) (quiet : ¬label.Exposed) (shows : world.main.Shows args world.ready) :
    Marked args world (trace ++ [label]) :=
  ⟨fun _ => safe.append quiet, fun _ => shows, fun struck => absurd (safe.append quiet) struck⟩

/-- Steps that leave `main` and the ready file alone. -/
theorem Marked.frame {args : Args} {world after : World} {trace : List Label} {label : Label}
    (h : Marked args world trace) (quiet : ¬label.Exposed) (main : after.main = world.main)
    (ready : after.ready = world.ready) : Marked args after (trace ++ [label]) := by
  refine ⟨fun running => ?_, fun safe => ?_, fun struck => ?_⟩
  · rw [main] at running
    exact (h.safe running).append quiet
  · rw [main, ready]
    exact h.shows ((safe_append quiet).mp safe)
  · rw [ready]
    exact h.struck fun safe => struck (safe.append quiet)

theorem Marked.step {args : Args} {world after : World} {trace : List Label} {label : Label}
    (h : Marked args world trace) (step : World.Step args world label after)
    (cleared : label.Cleared) : Marked args after (trace ++ [label]) := by
  cases step with
  | call next answers =>
      have safe : Safe trace := h.safe fun ending ended => by
        rw [ended] at next
        cases next
      have shows := (h.shows safe).call next answers cleared
      exact .of_shows safe id shows
  | raised reason running =>
      have safe : Safe trace := h.safe running
      by_cases struck : world.main.Unprotected
      · obtain ⟨ended, ready⟩ := (h.shows safe).unprotected reason struck
        have unsafe' : ¬Safe (trace ++ [Label.raised world.main reason]) := fun safe =>
          safe _ (List.mem_append_right _ List.mem_cons_self) struck
        exact ⟨fun running => absurd ended (running _), fun safe => absurd safe unsafe',
          fun _ => ready⟩
      · exact .of_shows safe struck ((h.shows safe).unwind reason running cleared struck)
  | registers iface first => exact h.frame id rfl rfl
  | rises iface fresh => exact h.frame id rfl rfl
  | falls iface up => exact h.frame id rfl rfl
  | reports iface down => exact h.frame id rfl rfl

/-- In every run in which exceptions come only after a stale marker is cleared and
removing the marker does not fail: once the process has ended, the ready file does
not exist if and only if no path was given or no exception struck while the marker
was unprotected. -/
theorem marker_gone_iff {args : Args} {world : World} {trace : List Label}
    (run : ((runner args).restrict fun _ label _ => label.Cleared).Run world trace)
    {ending : Ending} (ended : world.main = .ended ending) :
    world.ready = false ↔ args.readyFile = false ∨ Safe trace := by
  have marked : Marked args world trace :=
    run.invariant_trace (fun _ => World.Initial.marked) fun _ _ _ _ h taken =>
      h.step taken.1 taken.2
  constructor
  · intro gone
    by_cases safe : Safe trace
    · exact .inr safe
    · exact .inl ((marked.struck safe).symm.trans gone)
  · rintro (pathless | safe)
    · by_cases safe : Safe trace
      · exact (marked.shows safe).ended ending ended
      · rw [marked.struck safe, pathless]
    · exact (marked.shows safe).ended ending ended

theorem Label.Quiet.cleared {label : Label} (h : label.Quiet) : label.Cleared := by
  cases label with
  | call call reply => cases call <;> first | exact h | trivial
  | raised => exact h.elim
  | _ => trivial

theorem announced_cleared :
    Reached usualArgs (fun _ label _ => label.Cleared) .announced :=
  announced_reached (fun _ _ _ h => h.cleared) fun _ _ _ => trivial

/-- A SIGTERM in the watch loop of a node that is ready: the marker is gone, so no
exception struck it unprotected. -/
theorem stopped_node_unmarked : ∃ world trace,
    (runner usualArgs).Run world trace ∧ world.main = .ended (.raised (.systemExit 0)) ∧
      world.ready = false ∧ Safe trace := by
  have watching := announced_cleared.call rfl () rfl trivial
  have struck := watching.step (.raised (.systemExit 0) nofun) nofun
  obtain ⟨trace, finished⟩ := struck.call rfl Unlink.removed ⟨rfl, rfl⟩ nofun
  have safe := ((marker_gone_iff finished rfl).mp rfl).resolve_left nofun
  exact ⟨_, trace, finished.of_restrict, rfl, rfl, safe⟩

/-- A SIGTERM between the rename and the `try` leaves the marker behind. -/
theorem marker_survives : ¬∀ args world trace ending,
    ((runner args).restrict fun _ label _ => label.Cleared).Run world trace →
      world.main = .ended ending → world.ready = false := by
  intro always
  have struck := announced_cleared.step (.raised (.systemExit 0) nofun) nofun
  obtain ⟨trace, run⟩ := struck
  exact nomatch always _ _ _ _ run rfl

end LorahamRns.Node
