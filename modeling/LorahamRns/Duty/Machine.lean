import LorahamRns.Lib.Transition
import LorahamRns.Duty.Section

/-!
# Processes sharing one state path

Any number of callers in any number of processes open the lock file, wait for
the creator's ledger, take the flock and run their call; a process can be
killed between any two steps.  Every run is a chain of calls that each do what
the relation of `LorahamRns.Duty.Section` allows, one after the other.
-/

namespace LorahamRns.Duty

open LorahamRns.Lib

/-- A finite positive airtime. -/
structure Airtime where
  value : Decimal
  positive : 0 < value
  inRange : |value.val| < floatLimit

structure Caller where
  process : ℕ
  thread : ℕ
  deriving DecidableEq

inductive Call where
  | reserve (airtime : Airtime)
  | usage

/-- A call on one of the process's accounts. -/
structure Request where
  number : ℕ
  call : Call

/-- Where `_open_locked` stands.  `inside` holds the lock. -/
inductive Phase where
  | idle
  | opening (request : Request)
  | creating (request : Request)
  | waiting (request : Request)
  | locking (request : Request) (firstUse : Bool)
  | inside

/-- The call under the lock. -/
inductive Running where
  | reserve (airtime : Airtime) (firstUse : Bool) (program : Account Verdict)
  | usage (program : Account (Option (ℚ × ℚ)))

structure Holder where
  caller : Caller
  running : Running

/-- How a reservation that took the lock came out. -/
inductive Outcome where
  | killed
  | notReleased
  | ended (result : Except Failure Verdict)

/-- A reservation that took the lock: what it noted and how it came out. -/
structure Record where
  airtime : Airtime
  firstUse : Bool
  observed : Observed
  outcome : Outcome

structure World where
  store : Store
  lockFile : Bool
  alive : ℕ → Bool
  phase : Caller → Phase
  holder : Option Holder
  history : List Record

inductive Label where
  | wait
  | start (caller : Caller) (request : Request)
  | openLock (caller : Caller)
  | createLock (caller : Caller)
  | foundLedger (caller : Caller)
  | waitExpired (caller : Caller)
  | lockFault (caller : Caller)
  | acquire (caller : Caller)
  | lockBusy (caller : Caller)
  | effect (caller : Caller)
  | finish (caller : Caller) (released : Bool)
  | kill (process : ℕ)

namespace World

def setPhase (world : World) (caller : Caller) (phase : Phase) : World :=
  { world with phase := Function.update world.phase caller phase }

@[simp]
theorem setPhase_phase_self (world : World) (caller : Caller) (phase : Phase) :
    (world.setPhase caller phase).phase caller = phase := Function.update_self ..

theorem setPhase_phase_of_ne (world : World) {caller other : Caller} (phase : Phase)
    (h : other ≠ caller) : (world.setPhase caller phase).phase other = world.phase other :=
  Function.update_of_ne h ..

def setHolder (world : World) (store : Store) (holder : Option Holder) : World :=
  { world with store, holder }

/-- The reservation under the lock comes out; a status call leaves no record. -/
def record (world : World) (holder : Holder) (outcome : Outcome) : List Record :=
  match holder.running with
  | .reserve airtime firstUse _ =>
      world.history ++ [⟨airtime, firstUse, world.store.observed, outcome⟩]
  | .usage _ => world.history

/-- The process is gone and its descriptors are closed. -/
def kill (world : World) (process : ℕ) : World :=
  { world with
    alive := Function.update world.alive process false
    phase := fun caller => if caller.process = process then .idle else world.phase caller
    holder := world.holder.filter fun holder => decide (holder.caller.process ≠ process)
    history :=
      match world.holder with
      | some holder =>
          if holder.caller.process = process then world.record holder .killed else world.history
      | none => world.history }

end World

/-- The program a call runs once it has the lock. -/
def begin (account : DutyAccount) (caller : Caller) (request : Request) (firstUse : Bool) : Running :=
  match request.call with
  | .reserve airtime =>
      .reserve airtime firstUse
        (reserve account ⟨caller.process, request.number⟩ firstUse airtime.value)
  | .usage => .usage (usage account ⟨caller.process, request.number⟩)

/-- One call into the system by the program under the lock. -/
inductive Running.Step (assumptions : Assumptions) : Running → Store → Running → Store → Prop where
  | reserve {airtime : Airtime} {firstUse : Bool} {effect : Effect}
      {next : effect.Answer → Account Verdict} {reply : effect.Answer} {store after : Store}
      (answered : environment assumptions effect store reply after) :
      Running.Step assumptions (.reserve airtime firstUse (.call effect next)) store
        (.reserve airtime firstUse (next reply)) after
  | usage {effect : Effect} {next : effect.Answer → Account (Option (ℚ × ℚ))}
      {reply : effect.Answer} {store after : Store}
      (answered : environment assumptions effect store reply after) :
      Running.Step assumptions (.usage (.call effect next)) store (.usage (next reply)) after

/-- The program under the lock has ended. -/
inductive Running.Ends : Running → Except Failure Verdict → Prop where
  | done {airtime : Airtime} {firstUse : Bool} {verdict : Verdict} :
      Running.Ends (.reserve airtime firstUse (.done verdict)) (.ok verdict)
  | fail {airtime : Airtime} {firstUse : Bool} {failure : Failure} :
      Running.Ends (.reserve airtime firstUse (.fail failure)) (.error failure)
  | usageDone {numbers : Option (ℚ × ℚ)} {result : Except Failure Verdict} :
      Running.Ends (.usage (.done numbers)) result
  | usageFail {failure : Failure} {result : Except Failure Verdict} :
      Running.Ends (.usage (.fail failure)) result

/-- The steps of the callers.  Time passes while no call runs, and inside a call at
its clock readings. -/
inductive Step (account : DutyAccount) (assumptions : Assumptions) : World → Label → World → Prop where
  | wait {world : World} {clock : Clock} (free : world.holder = none)
      (moved : assumptions.advance world.store.clock clock) :
      Step account assumptions world .wait (world.setHolder { world.store with clock } none)
  | start {world : World} {caller : Caller} {request : Request}
      (living : world.alive caller.process = true) (phase : world.phase caller = .idle) :
      Step account assumptions world (.start caller request)
        (world.setPhase caller (.opening request))
  | openReserve {world : World} {caller : Caller} {request : Request}
      (phase : world.phase caller = .opening request) (airtime : Airtime)
      (call : request.call = .reserve airtime) (opened : world.lockFile = true) :
      Step account assumptions world (.openLock caller) (world.setPhase caller (.waiting request))
  | openUsage {world : World} {caller : Caller} {request : Request}
      (phase : world.phase caller = .opening request) (call : request.call = .usage)
      (opened : world.lockFile = true) :
      Step account assumptions world (.openLock caller)
        (world.setPhase caller (.locking request false))
  | openMissing {world : World} {caller : Caller} {request : Request}
      (phase : world.phase caller = .opening request) (airtime : Airtime)
      (call : request.call = .reserve airtime) (missing : world.lockFile = false) :
      Step account assumptions world (.openLock caller) (world.setPhase caller (.creating request))
  | usageUnused {world : World} {caller : Caller} {request : Request}
      (phase : world.phase caller = .opening request) (call : request.call = .usage)
      (missing : world.lockFile = false) :
      Step account assumptions world (.openLock caller) (world.setPhase caller .idle)
  | create {world : World} {caller : Caller} {request : Request}
      (phase : world.phase caller = .creating request) (missing : world.lockFile = false) :
      Step account assumptions world (.createLock caller)
        { world.setPhase caller (.locking request true) with lockFile := true }
  | lostRace {world : World} {caller : Caller} {request : Request}
      (phase : world.phase caller = .creating request) (opened : world.lockFile = true) :
      Step account assumptions world (.createLock caller) (world.setPhase caller (.waiting request))
  | foundLedger {world : World} {caller : Caller} {request : Request}
      (phase : world.phase caller = .waiting request) (present : world.store.ledger.isSome = true) :
      Step account assumptions world (.foundLedger caller)
        (world.setPhase caller (.locking request false))
  | waitExpired {world : World} {caller : Caller} {request : Request}
      (phase : world.phase caller = .waiting request) (missing : world.store.ledger = none) :
      Step account assumptions world (.waitExpired caller)
        (world.setPhase caller (.locking request false))
  | lockFault {world : World} {caller : Caller}
      (outside : world.phase caller ≠ .inside) :
      Step account assumptions world (.lockFault caller) (world.setPhase caller .idle)
  | acquire {world : World} {caller : Caller} {request : Request} {firstUse : Bool}
      (phase : world.phase caller = .locking request firstUse) (free : world.holder = none) :
      Step account assumptions world (.acquire caller)
        ((world.setPhase caller .inside).setHolder { world.store with observed := .none }
          (some ⟨caller, begin account caller request firstUse⟩))
  | lockBusy {world : World} {caller : Caller} {request : Request} {firstUse : Bool} {holder : Holder}
      (phase : world.phase caller = .locking request firstUse) (held : world.holder = some holder) :
      Step account assumptions world (.lockBusy caller) (world.setPhase caller .idle)
  | effect {world : World} {caller : Caller} {running next : Running} {after : Store}
      (held : world.holder = some ⟨caller, running⟩)
      (stepped : running.Step assumptions world.store next after) :
      Step account assumptions world (.effect caller)
        (world.setHolder after (some ⟨caller, next⟩))
  | finish {world : World} {caller : Caller} {running : Running} {result : Except Failure Verdict}
      (held : world.holder = some ⟨caller, running⟩) (ends : running.Ends result) :
      Step account assumptions world (.finish caller true)
        { (world.setPhase caller .idle).setHolder world.store none with
          history := world.record ⟨caller, running⟩ (.ended result) }
  | finishNotReleased {world : World} {caller : Caller} {running : Running}
      {result : Except Failure Verdict} (held : world.holder = some ⟨caller, running⟩)
      (ends : running.Ends result) :
      Step account assumptions world (.finish caller false)
        { (world.setPhase caller .idle).setHolder world.store none with
          history := world.record ⟨caller, running⟩ .notReleased }
  | kill {world : World} (process : ℕ) :
      Step account assumptions world (.kill process) (world.kill process)

/-- An empty state directory and no call under way. -/
structure World.Initial (world : World) : Prop where
  ledger : world.store.ledger = none
  pending : ∀ owner, world.store.pending owner = false
  temp : ∀ process, world.store.temp process = none
  observed : world.store.observed = .none
  lockFile : world.lockFile = false
  phase : ∀ caller, world.phase caller = .idle
  holder : world.holder = none
  history : world.history = []

/-- The callers' steps from the worlds `init` allows. -/
def machineFrom (account : DutyAccount) (assumptions : Assumptions) (init : World → Prop) :
    System World Label where
  init := init
  step := Step account assumptions

def machine (account : DutyAccount) (assumptions : Assumptions) : System World Label :=
  machineFrom account assumptions World.Initial

/-! ## Runs are chains of calls -/

/-- What one recorded call did to the ledger and the clock. -/
def Record.Did (account : DutyAccount) (assumptions : Assumptions) (record : Record)
    (ledger : Option Ledger) (start : Clock) (left : Option Ledger) (clock : Clock) : Prop :=
  match record.outcome with
  | .ended result =>
      Ended account assumptions record.firstUse record.airtime.value ledger start result left clock
        record.observed
  | _ =>
      Progress account assumptions record.firstUse record.airtime.value ledger start left clock
        record.observed

/-- Calls one after the other, from an empty state directory. -/
inductive Chain (account : DutyAccount) (assumptions : Assumptions) :
    List Record → Option Ledger → Clock → Prop where
  | start (clock : Clock) : Chain account assumptions [] none clock
  | pass {history : List Record} {ledger : Option Ledger} {start clock : Clock}
      (chain : Chain account assumptions history ledger start)
      (moved : assumptions.advance start clock) : Chain account assumptions history ledger clock
  | call {history : List Record} {ledger left : Option Ledger} {start clock : Clock}
      {record : Record} (chain : Chain account assumptions history ledger start)
      (did : record.Did account assumptions ledger start left clock) :
      Chain account assumptions (history ++ [record]) left clock

/-- What holds of the program under the lock. -/
def Running.Sound (account : DutyAccount) (assumptions : Assumptions) (ledger : Option Ledger)
    (start : Clock) (store : Store) : Running → Prop
  | .reserve airtime firstUse program =>
      program.wp (environment assumptions)
        (Leaves (Progress account assumptions firstUse airtime.value ledger start))
        (fun verdict =>
          Leaves (Ended account assumptions firstUse airtime.value ledger start (.ok verdict)))
        (fun failure =>
          Leaves (Ended account assumptions firstUse airtime.value ledger start (.error failure)))
        store
  | .usage program =>
      program.wp (environment assumptions) (Leaves (Looked assumptions ledger start))
        (fun _ _ => True) (fun _ _ => True) store

/-- What is known of the calls so far, with the program under the lock on top of it. -/
def World.Sound (account : DutyAccount) (assumptions : Assumptions)
    (past : List Record → Option Ledger → Clock → Prop) (world : World) : Prop :=
  match world.holder with
  | none => Leaves (fun ledger clock _ => past world.history ledger clock) world.store
  | some holder => ∃ ledger start, past world.history ledger start ∧
      holder.running.Sound account assumptions ledger start world.store

/-- What time and the calls that come out in an allowed way keep. -/
structure Extends (account : DutyAccount) (assumptions : Assumptions) (allowed : Outcome → Prop)
    (past : List Record → Option Ledger → Clock → Prop) : Prop where
  pass : ∀ {history ledger start clock}, past history ledger start →
    assumptions.advance start clock → past history ledger clock
  call : ∀ {history ledger left start clock record}, past history ledger start →
    allowed record.outcome → record.Did account assumptions ledger start left clock →
    past (history ++ [record]) left clock

/-- The ways a step may bring a reservation to its end. -/
def World.Allows (world : World) (allowed : Outcome → Prop) : Label → Prop
  | .kill process =>
      ∀ holder, world.holder = some holder → holder.caller.process = process → allowed .killed
  | .finish _ true => ∀ result, allowed (.ended result)
  | .finish _ false => allowed .notReleased
  | _ => True

variable {account : DutyAccount} {assumptions : Assumptions} {allowed : Outcome → Prop}
  {past : List Record → Option Ledger → Clock → Prop}

theorem Chain.extends :
    Extends account assumptions (fun _ => True) (Chain account assumptions) :=
  ⟨.pass, fun chain _ did => .call chain did⟩

theorem Running.Sound.step {ledger : Option Ledger} {start : Clock} {store after : Store}
    {running next : Running} (sound : running.Sound account assumptions ledger start store)
    (stepped : running.Step assumptions store next after) :
    next.Sound account assumptions ledger start after := by
  cases stepped with
  | reserve answered => exact Program.wp_step sound answered
  | usage answered => exact Program.wp_step sound answered

/-- Killed anywhere, the call under the lock is one more call. -/
theorem World.Sound.killed {world : World} {holder : Holder} {ledger : Option Ledger} {start : Clock}
    (ext : Extends account assumptions allowed past) (known : past world.history ledger start)
    (sound : holder.running.Sound account assumptions ledger start world.store)
    {outcome : Outcome} (hallowed : allowed outcome) (houtcome : ∀ result, outcome ≠ .ended result) :
    Leaves (fun ledger clock _ => past (world.record holder outcome) ledger clock) world.store := by
  obtain ⟨caller, running⟩ := holder
  cases running with
  | reserve airtime firstUse program =>
      obtain ⟨left, hleft, progress⟩ := Program.wp_always sound
      refine ⟨left, hleft, ext.call known hallowed ?_⟩
      cases outcome with
      | killed => exact progress
      | notReleased => exact progress
      | ended result => exact absurd rfl (houtcome result)
  | usage program =>
      obtain ⟨left, hleft, rfl, moved, _⟩ := Program.wp_always sound
      exact ⟨left, hleft, ext.pass known moved⟩

theorem World.Sound.ended {world : World} {holder : Holder} {ledger : Option Ledger} {start : Clock}
    (ext : Extends account assumptions allowed past) (known : past world.history ledger start)
    (sound : holder.running.Sound account assumptions ledger start world.store)
    {result : Except Failure Verdict} (hallowed : allowed (.ended result))
    (ends : holder.running.Ends result) :
    Leaves (fun ledger clock _ => past (world.record holder (.ended result)) ledger clock)
      world.store := by
  obtain ⟨caller, running⟩ := holder
  cases ends with
  | done =>
      obtain ⟨left, hleft, ended⟩ := sound.2
      exact ⟨left, hleft, ext.call known hallowed ended⟩
  | fail =>
      obtain ⟨left, hleft, ended⟩ := sound.2
      exact ⟨left, hleft, ext.call known hallowed ended⟩
  | usageDone =>
      obtain ⟨left, hleft, rfl, moved, _⟩ := Program.wp_always sound
      exact ⟨left, hleft, ext.pass known moved⟩
  | usageFail =>
      obtain ⟨left, hleft, rfl, moved, _⟩ := Program.wp_always sound
      exact ⟨left, hleft, ext.pass known moved⟩

/-- A call that takes the lock is as the relation says, from its first step on. -/
theorem begin_sound {ledger : Option Ledger} {store : Store} (caller : Caller) (request : Request)
    (firstUse : Bool) (hledger : store.ledger = ledger.map Ledger.text)
    (hobserved : store.observed = .none) :
    (begin account caller request firstUse).Sound account assumptions ledger store.clock store := by
  unfold begin
  cases request.call with
  | reserve airtime => exact wp_reserve _ hledger hobserved
  | usage => exact wp_usage _ hledger hobserved

theorem World.Sound.step {world after : World} {label : Label}
    (ext : Extends account assumptions allowed past) (allows : world.Allows allowed label)
    (sound : world.Sound account assumptions past) (step : Step account assumptions world label after) :
    after.Sound account assumptions past := by
  cases step with
  | start | openReserve | openUsage | openMissing | usageUnused | create | lostRace | foundLedger
  | waitExpired | lockFault | lockBusy => exact sound
  | @acquire caller request firstUse phase free =>
      simp only [World.Sound, free] at sound
      obtain ⟨ledger, hledger, known⟩ := sound
      have hstore : ({ world.store with observed := .none } : Store).ledger =
          ledger.map Ledger.text := hledger
      exact ⟨ledger, _, known, begin_sound caller request firstUse hstore rfl⟩
  | wait free moved =>
      simp only [World.Sound, free] at sound
      obtain ⟨ledger, hledger, known⟩ := sound
      exact ⟨ledger, hledger, ext.pass known moved⟩
  | effect held stepped =>
      simp only [World.Sound, held] at sound
      obtain ⟨ledger, start, known, sound⟩ := sound
      exact ⟨ledger, start, known, sound.step stepped⟩
  | finish held ends =>
      simp only [World.Sound, held] at sound
      obtain ⟨ledger, start, known, sound⟩ := sound
      exact World.Sound.ended ext known sound (allows _) ends
  | finishNotReleased held ends =>
      simp only [World.Sound, held] at sound
      obtain ⟨ledger, start, known, sound⟩ := sound
      exact World.Sound.killed ext known sound allows nofun
  | kill process =>
      unfold World.Sound at sound ⊢
      cases hholder : world.holder with
      | none =>
          simp only [hholder] at sound
          simpa [World.kill, hholder] using sound
      | some holder =>
          simp only [hholder] at sound
          by_cases hprocess : holder.caller.process = process
          · obtain ⟨ledger, start, known, sound⟩ := sound
            have hkilled : Leaves (fun ledger clock _ =>
                past (world.record holder .killed) ledger clock) world.store :=
              World.Sound.killed ext known sound (allows holder hholder hprocess) nofun
            simpa [World.kill, hholder, hprocess, Option.filter] using hkilled
          · simpa [World.kill, hholder, hprocess, Option.filter] using sound

theorem World.Sound.of_free {world : World} (free : world.holder = none)
    (sound : world.Sound account assumptions past) :
    Leaves (fun ledger clock _ => past world.history ledger clock) world.store := by
  simpa only [World.Sound, free] using sound

/-- What holds at the start and is kept by time and calls is known of every world a run
reaches. -/
theorem run_past {init : World → Prop} {permitted : World → Label → World → Prop}
    (ext : Extends account assumptions allowed past)
    (initial : ∀ world, init world → world.Sound account assumptions past)
    (allows : ∀ world label after, permitted world label after → world.Allows allowed label)
    {world : World} {trace : List Label}
    (run : ((machineFrom account assumptions init).restrict permitted).Run world trace) :
    world.Sound account assumptions past := by
  refine run.invariant initial ?_
  rintro world label after sound ⟨step, hpermitted⟩
  exact World.Sound.step ext (allows _ _ _ hpermitted) sound step

theorem World.Initial.sound {world : World} (initial : world.Initial) :
    world.Sound account assumptions (Chain account assumptions) := by
  simp only [World.Sound, initial.holder]
  refine ⟨none, initial.ledger, ?_⟩
  rw [initial.history]
  exact .start _

/-- Every world a run reaches stands on a chain of calls. -/
theorem run_sound {world : World} {trace : List Label}
    (run : (machine account assumptions).Run world trace) :
    world.Sound account assumptions (Chain account assumptions) := by
  refine run.invariant (fun world initial => @World.Initial.sound account assumptions world initial) ?_
  intro world label after sound step
  refine World.Sound.step Chain.extends ?_ sound step
  cases label with
  | finish _ released =>
      cases released with
      | true => exact fun _ => trivial
      | false => trivial
  | kill => exact fun _ _ _ => trivial
  | _ => trivial

end LorahamRns.Duty
