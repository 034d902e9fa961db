import LorahamRns.Lib.Process
import LorahamRns.Lib.Transition
import LorahamRns.Node.Exposure

/-!
# The service runner

`main` as a process over its calls, with the point an exception moves it to, and
the world it runs in: the ready file, the configuration, the Reticulum instance
and the interface, whose state changes on its own.
-/

namespace LorahamRns.Node

open LorahamRns.Lib

def exitOk : ℕ := 0
def exitNotOwner : ℕ := 3
def exitNoInterface : ℕ := 4
def exitRadioFatal : ℕ := 5
def exitUnsafeExposure : ℕ := 6
def exitNoClientPort : ℕ := 7

def checkIntervalS : ℚ := 2

/-- The arguments that decide the course of `main`.  `readyFile` tells whether a path
is given; `mapped` is the address library's. -/
structure Args where
  readyFile : Bool
  startupTimeout : ℚ
  mapped : Bool

/-- What can be raised: a `SystemExit` with its code or with a message. -/
inductive Raised where
  | systemExit (code : ℕ)
  | message
  | keyboardInterrupt
  | other
  deriving DecidableEq

inductive Ending where
  | returned (code : ℕ)
  | raised (reason : Raised)
  deriving DecidableEq

/-- The status the process exits with. -/
def Ending.exitCode : Ending → ℕ
  | .returned code | .raised (.systemExit code) => code
  | .raised .message | .raised .other => 1
  | .raised .keyboardInterrupt => 130

/-- How the Reticulum instance came up. -/
inductive Ownership where
  | owner
  | client
  | standalone
  deriving DecidableEq

inductive Unlink where
  | removed
  | missing
  | failed
  deriving DecidableEq

/-- The calls `main` and its helpers make. -/
inductive Call where
  | unlinkReady
  | readConfig
  | log
  | reticulum
  | isConnected
  | isStandalone
  | monotonic
  | time
  | find
  | online (iface : ℕ)
  | fatal (iface : ℕ)
  | sleep (seconds : ℚ)
  | signal
  | ownListener
  | writeTemp
  | replaceReady

@[reducible]
def Call.Reply : Call → Type
  | .unlinkReady => Unlink
  | .readConfig => Option (List Char)
  | .log | .reticulum | .sleep _ | .signal | .writeTemp | .replaceReady => Unit
  | .isConnected | .isStandalone | .online _ | .fatal _ | .ownListener => Bool
  | .monotonic | .time => ℚ
  | .find => Option ℕ

/-- The points of `main`, in the order of the source. -/
inductive Main where
  | clearing
  | scanning
  | constructing
  | connected
  | standalone
  | starting
  | searching (deadline : ℚ) (found : Option ℕ)
  | finding (deadline : ℚ)
  | seeking (deadline : ℚ) (iface : ℕ)
  | doubting (deadline : ℚ) (iface : ℕ)
  | pausing (deadline : ℚ) (found : Option ℕ)
  | confirming (iface : ℕ)
  | installing (iface : ℕ)
  | waiting (iface : ℕ)
  | listening (iface : ℕ) (deadline : ℚ)
  | probing (iface : ℕ) (deadline : ℚ)
  | idling (iface : ℕ) (deadline : ℚ)
  | writing (iface : ℕ)
  | replacing (iface : ℕ)
  | announcing (iface : ℕ)
  | watching (iface : ℕ)
  | checking (iface : ℕ)
  | holding (iface : ℕ)
  | dying
  | interrupted
  | refusing (code : ℕ)
  | finishing (ending : Ending)
  | ended (ending : Ending)
  deriving DecidableEq

/-- `main` begins by clearing a stale marker, if a path is given. -/
def Main.start (args : Args) : Main := if args.readyFile then .clearing else .scanning

/-- The `finally` clause of the watch loop, `_clear_ready` once more. -/
def Main.finish (args : Args) (ending : Ending) : Main :=
  if args.readyFile then .finishing ending else .ended ending

/-- What `main` does next.  `refusing`, `dying` and `interrupted` are the log lines
before a return. -/
def Main.next (args : Args) : Main → Action Call Call.Reply Main Ending
  | .clearing =>
      .call .unlinkReady fun
        | .removed | .missing => .scanning
        | .failed => .ended (.raised .message)
  | .scanning =>
      .call .readConfig fun config =>
        if unsafeExposure args.mapped config = [] then .constructing
        else .refusing exitUnsafeExposure
  | .constructing => .call .reticulum fun _ => .connected
  | .connected =>
      .call .isConnected fun attached =>
        if attached then .refusing exitNotOwner else .standalone
  | .standalone =>
      .call .isStandalone fun alone => if alone then .refusing exitNotOwner else .starting
  | .starting => .call .monotonic fun now => .searching (now + args.startupTimeout) none
  | .searching deadline found =>
      .call .monotonic fun now =>
        if now < deadline then .finding deadline
        else match found with
          | none => .refusing exitNoInterface
          | some iface => .confirming iface
  | .finding deadline =>
      .call .find fun
        | none => .pausing deadline none
        | some iface => .seeking deadline iface
  | .seeking deadline iface =>
      .call (.online iface) fun up => if up then .confirming iface else .doubting deadline iface
  | .doubting deadline iface =>
      .call (.fatal iface) fun dead =>
        if dead then .confirming iface else .pausing deadline (some iface)
  | .pausing deadline found => .call (.sleep 0.25) fun _ => .searching deadline found
  | .confirming iface =>
      .call (.online iface) fun up => if up then .installing iface else .refusing exitNoInterface
  | .installing iface => .call .signal fun _ => .waiting iface
  | .waiting iface => .call .time fun now => .listening iface (now + 5)
  | .listening iface deadline =>
      .call .time fun now =>
        if now < deadline then .probing iface deadline else .refusing exitNoClientPort
  | .probing iface deadline =>
      .call .ownListener fun
        | true => if args.readyFile then .writing iface else .announcing iface
        | false => .idling iface deadline
  | .idling iface deadline => .call (.sleep 0.2) fun _ => .listening iface deadline
  | .writing iface => .call .writeTemp fun _ => .replacing iface
  | .replacing iface => .call .replaceReady fun _ => .announcing iface
  | .announcing iface => .call .log fun _ => .watching iface
  | .watching iface => .call (.sleep checkIntervalS) fun _ => .checking iface
  | .checking iface => .call (.fatal iface) fun dead => if dead then .dying else .holding iface
  | .holding iface =>
      .call (.online iface) fun up => if up then .watching iface else .dying
  | .dying => .call .log fun _ => finish args (.returned exitRadioFatal)
  | .interrupted => .call .log fun _ => finish args (.returned exitOk)
  | .refusing code => .call .log fun _ => .ended (.returned code)
  | .finishing ending =>
      .call .unlinkReady fun
        | .removed | .missing => .ended ending
        | .failed => .ended (.raised .message)
  | .ended ending => .stop ending

/-- Where an exception raised at a point moves `main`: the watch loop has a handler
and a `finally` clause, and an exception inside that clause leaves it. -/
def Main.unwind (args : Args) (reason : Raised) : Main → Main
  | .watching _ | .checking _ | .holding _ | .dying =>
      if reason = .keyboardInterrupt then .interrupted else finish args (.raised reason)
  | .interrupted => finish args (.raised reason)
  | _ => .ended (.raised reason)

/-- The interface `main` has checked and waits with for its client listener. -/
def Main.waitsWith : Main → Option ℕ
  | .installing iface | .waiting iface | .listening iface _ | .probing iface _
  | .idling iface _ => some iface
  | _ => none

/-! ## The world around it -/

/-- What the interface shows, and whether it has ever gone offline. -/
structure Status where
  online : Bool
  fatal : Bool
  gone : Bool

/-- `written`, `fell` and `heard` record for the specifications: whether this run
has put the marker in place, whether the interface went offline during the wait for
the listener, and whether it had gone offline when that wait succeeded. -/
structure World where
  main : Main
  ready : Bool
  config : Option (List Char)
  ownership : Option Ownership
  registered : Option ℕ
  status : ℕ → Status
  written : Bool
  fell : Bool
  heard : Option Bool

/-- The answers of the system. -/
def World.Answers : (call : Call) → World → call.Reply → World → Prop
  | .unlinkReady, world, .removed, after =>
      world.ready = true ∧ after = { world with ready := false }
  | .unlinkReady, world, .missing, after => world.ready = false ∧ after = world
  | .unlinkReady, world, .failed, after => after = world
  | .readConfig, world, config, after => config = world.config ∧ after = world
  | .reticulum, world, _, after =>
      ∃ ownership, after = { world with ownership := some ownership }
  | .isConnected, world, attached, after =>
      (attached = true ↔ world.ownership = some .client) ∧ after = world
  | .isStandalone, world, alone, after =>
      (alone = true ↔ world.ownership = some .standalone) ∧ after = world
  | .find, world, found, after => found = world.registered ∧ after = world
  | .online iface, world, up, after => up = (world.status iface).online ∧ after = world
  | .fatal iface, world, dead, after => dead = (world.status iface).fatal ∧ after = world
  | .replaceReady, world, _, after => after = { world with ready := true, written := true }
  | .log, world, _, after | .monotonic, world, _, after | .time, world, _, after
  | .sleep _, world, _, after | .signal, world, _, after | .ownListener, world, _, after
  | .writeTemp, world, _, after => after = world

/-- `main` moves on; where the wait for the listener succeeds this is noted. -/
def World.goTo (world : World) (point : Main) : World :=
  { world with
    main := point
    heard := match world.main, point with
      | .probing iface _, .writing _ | .probing iface _, .announcing _ =>
          some (world.status iface).gone
      | _, _ => world.heard }

def World.setStatus (world : World) (iface : ℕ) (status : Status) : World :=
  { world with status := Function.update world.status iface status }

/-- The steps: a call of `main` with its answer, an exception raised at a point, and
what the interface does on its own. -/
inductive Label where
  | call (call : Call) (reply : call.Reply)
  | raised (point : Main) (reason : Raised)
  | registers (iface : ℕ)
  | rises (iface : ℕ)
  | falls (iface : ℕ)
  | reports (iface : ℕ)

/-- An interface comes up once; `_fail` and `detach` take it offline, and `_fail` then
records the fault. -/
inductive World.Step (args : Args) : World → Label → World → Prop
  | call {world after : World} {call : Call} {resume : call.Reply → Main} {reply : call.Reply}
      (next : world.main.next args = .call call resume)
      (answers : World.Answers call world reply after) :
      Step args world (.call call reply) (after.goTo (resume reply))
  | raised {world : World} (reason : Raised) (running : ∀ ending, world.main ≠ .ended ending) :
      Step args world (.raised world.main reason)
        { world with main := world.main.unwind args reason }
  | registers {world : World} (iface : ℕ) (first : world.registered = none) :
      Step args world (.registers iface) { world with registered := some iface }
  | rises {world : World} (iface : ℕ) (fresh : (world.status iface).gone = false) :
      Step args world (.rises iface) (world.setStatus iface ⟨true, false, false⟩)
  | falls {world : World} (iface : ℕ) (up : (world.status iface).online = true) :
      Step args world (.falls iface)
        { world.setStatus iface ⟨false, (world.status iface).fatal, true⟩ with
          fell := world.fell || decide (world.main.waitsWith = some iface) }
  | reports {world : World} (iface : ℕ) (down : (world.status iface).gone = true) :
      Step args world (.reports iface)
        (world.setStatus iface ⟨(world.status iface).online, true, true⟩)

/-- The start of the process; without a path there is no ready file. -/
structure World.Initial (args : Args) (world : World) : Prop where
  main : world.main = .start args
  ready : args.readyFile = false → world.ready = false
  ownership : world.ownership = none
  registered : world.registered = none
  status : ∀ iface, world.status iface = ⟨false, false, false⟩
  written : world.written = false
  fell : world.fell = false
  heard : world.heard = none

def runner (args : Args) : System World Label where
  init := World.Initial args
  step := World.Step args

/-! ## Calls and the frame -/

@[simp]
theorem World.goTo_main (world : World) (point : Main) : (world.goTo point).main = point := rfl

@[simp]
theorem World.goTo_ready (world : World) (point : Main) :
    (world.goTo point).ready = world.ready := rfl

@[simp]
theorem World.goTo_ownership (world : World) (point : Main) :
    (world.goTo point).ownership = world.ownership := rfl

@[simp]
theorem World.goTo_written (world : World) (point : Main) :
    (world.goTo point).written = world.written := rfl

theorem World.setStatus_self (world : World) (iface : ℕ) (status : Status) :
    (world.setStatus iface status).status iface = status :=
  Function.update_self ..

theorem World.setStatus_of_ne (world : World) {iface other : ℕ} (status : Status)
    (h : other ≠ iface) : (world.setStatus iface status).status other = world.status other :=
  Function.update_of_ne h ..

/-- A call changes no more than the marker and the Reticulum instance. -/
theorem World.Answers.frame {world after : World} {call : Call} {reply : call.Reply}
    (answers : World.Answers call world reply after) :
    ∃ ready ownership written, after = { world with ready, ownership, written } := by
  have same (h : after = world) :
      ∃ ready ownership written, after = { world with ready, ownership, written } :=
    ⟨world.ready, world.ownership, world.written, h⟩
  cases call with
  | unlinkReady =>
      cases reply with
      | removed => exact ⟨false, world.ownership, world.written, answers.2⟩
      | missing => exact same answers.2
      | failed => exact same answers
  | reticulum =>
      obtain ⟨ownership, h⟩ := answers
      exact ⟨world.ready, some ownership, world.written, h⟩
  | replaceReady => exact ⟨true, world.ownership, true, answers⟩
  | readConfig | isConnected | isStandalone | find | online _ | fatal _ => exact same answers.2
  | log | monotonic | time | sleep _ | signal | ownListener | writeTemp => exact same answers

/-- The start of a run whose `main` is at a given point. -/
theorem Main.start_cases (args : Args) :
    args.readyFile = true ∧ start args = .clearing ∨
      args.readyFile = false ∧ start args = .scanning := by
  unfold start
  cases args.readyFile
  · exact .inr ⟨rfl, rfl⟩
  · exact .inl ⟨rfl, rfl⟩

/-! ## A start that succeeds -/

/-- Steps of a start without trouble, up to the wait for the client listener. -/
def Label.Quiet : Label → Prop
  | .call .unlinkReady reply => reply ≠ .failed
  | .call .ownListener _ => False
  | .call _ _ | .registers _ | .rises _ => True
  | _ => False

/-- The owner of the shared instance, its interface 0 online, at a point of `main`. -/
def World.stage (main : Main) (ownership : Option Ownership) : World :=
  ⟨main, false, none, ownership, some 0,
    Function.update (fun _ => ⟨false, false, false⟩) 0 ⟨true, false, false⟩, false, false, none⟩

def World.blank (args : Args) : World :=
  ⟨.start args, false, none, none, none, fun _ => ⟨false, false, false⟩, false, false, none⟩

theorem World.blank_initial (args : Args) : (World.blank args).Initial args :=
  ⟨rfl, fun _ => rfl, rfl, rfl, fun _ => rfl, rfl, rfl, rfl⟩

/-- The runner with a ready file and a start-up timeout of 30 s. -/
def usualArgs : Args := ⟨true, 30, false⟩

/-- A world some permitted run reaches. -/
def Reached (args : Args) (permitted : World → Label → World → Prop) (world : World) : Prop :=
  ∃ trace, ((runner args).restrict permitted).Run world trace

theorem Reached.step {args : Args} {permitted : World → Label → World → Prop}
    {world after : World} {label : Label} (run : Reached args permitted world)
    (taken : World.Step args world label after) (allowed : permitted world label after) :
    Reached args permitted after :=
  run.elim fun trace run => ⟨trace ++ [label], run.step ⟨taken, allowed⟩⟩

/-- `main` makes its next call. -/
theorem Reached.call {args : Args} {permitted : World → Label → World → Prop}
    {world after : World} (run : Reached args permitted world) {call : Call}
    {resume : call.Reply → Main} (next : world.main.next args = .call call resume)
    (reply : call.Reply) (answers : World.Answers call world reply after)
    (allowed : permitted world (.call call reply) (after.goTo (resume reply))) :
    Reached args permitted (after.goTo (resume reply)) :=
  run.step (.call next answers) allowed

/-- A quiet start reaches the wait for the client listener. -/
theorem stage_reached {permitted : World → Label → World → Prop}
    (quiet : ∀ world label after, label.Quiet → permitted world label after) :
    Reached usualArgs permitted (.stage (.waiting 0) (some .owner)) := by
  have blank : Reached usualArgs permitted (.blank usualArgs) :=
    ⟨[], .start (World.blank_initial usualArgs)⟩
  have registered := blank.step (.registers 0 rfl) (quiet _ _ _ trivial)
  have clearing := registered.step (.rises 0 rfl) (quiet _ _ _ trivial)
  have scanning := clearing.call rfl Unlink.missing ⟨rfl, rfl⟩ (quiet _ _ _ nofun)
  have constructing := scanning.call rfl none ⟨rfl, rfl⟩ (quiet _ _ _ trivial)
  have connected := constructing.call rfl () ⟨.owner, rfl⟩ (quiet _ _ _ trivial)
  have standalone := connected.call rfl false ⟨by simp [World.goTo], rfl⟩ (quiet _ _ _ trivial)
  have starting := standalone.call rfl false ⟨by simp [World.goTo], rfl⟩ (quiet _ _ _ trivial)
  have searching := starting.call rfl (0 : ℚ) rfl (quiet _ _ _ trivial)
  have early : (0 : ℚ) < 0 + usualArgs.startupTimeout := by norm_num [usualArgs]
  have finding := searching.call rfl (0 : ℚ) rfl (quiet _ _ _ trivial)
  simp only [early, if_true] at finding
  have seeking := finding.call rfl (some 0) ⟨rfl, rfl⟩ (quiet _ _ _ trivial)
  have confirming := seeking.call rfl true ⟨rfl, rfl⟩ (quiet _ _ _ trivial)
  have installing := confirming.call rfl true ⟨rfl, rfl⟩ (quiet _ _ _ trivial)
  exact installing.call rfl () rfl (quiet _ _ _ trivial)

/-- The marker of a quiet start, just put in place. -/
def World.announced : World :=
  { World.stage (.announcing 0) (some .owner) with
    ready := true, written := true, heard := some false }

/-- A quiet start with the listener there at once puts the marker in place. -/
theorem announced_reached {permitted : World → Label → World → Prop}
    (quiet : ∀ world label after, label.Quiet → permitted world label after)
    (hears : ∀ world after, world.fell = false →
      permitted world (.call .ownListener true) after) :
    Reached usualArgs permitted .announced := by
  have early : (0 : ℚ) < 0 + 5 := by norm_num
  have listening := (stage_reached quiet).call rfl (0 : ℚ) rfl (quiet _ _ _ trivial)
  have probing := listening.call rfl (0 : ℚ) rfl (quiet _ _ _ trivial)
  simp only [early, if_true] at probing
  have writing := probing.call rfl true rfl (hears _ _ rfl)
  have replacing := writing.call rfl () rfl (quiet _ _ _ trivial)
  exact replacing.call rfl () rfl (quiet _ _ _ trivial)

end LorahamRns.Node
