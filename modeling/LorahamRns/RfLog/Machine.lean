import LorahamRns.Lib.Transition
import LorahamRns.RfLog.Writer

/-!
# The log and its threads

Any number of threads call `rx` and `tx`; the lock lets one of them write at a time.
-/

namespace LorahamRns.RfLog

open LorahamRns.Lib

/-- What a thread does with the log. -/
inductive Phase where
  | idle
  | waiting (request : Request)
  | inside (point : Point)
  deriving DecidableEq

structure World where
  log : Log
  lock : Option ℕ
  phase : ℕ → Phase

/-- The steps of a thread: a call of `rx` or `tx`, taking the lock, a call into the
system with its reply, and giving the lock back. -/
inductive Label where
  | request (thread : ℕ) (request : Request)
  | locked (thread : ℕ) (utc : Utc)
  | io (thread : ℕ) (call : Call) (reply : call.Reply)
  | unlocked (thread : ℕ)

def World.goTo (world : World) (thread : ℕ) (phase : Phase) : ℕ → Phase :=
  Function.update world.phase thread phase

inductive World.Step (maxBytes : ℤ) : World → Label → World → Prop where
  | request {world : World} (thread : ℕ) (request : Request) (idle : world.phase thread = .idle) :
      Step maxBytes world (.request thread request)
        { world with phase := world.goTo thread (.waiting request) }
  | locked {world : World} {thread : ℕ} {request : Request} (utc : Utc)
      (waiting : world.phase thread = .waiting request) (free : world.lock = none) :
      Step maxBytes world (.locked thread utc)
        { log := { world.log with records := world.log.records ++ [request.record utc] }
          lock := some thread
          phase := world.goTo thread (.inside (.measuring (request.record utc))) }
  | io {world : World} {thread : ℕ} {point next : Point} {call : Call} {reply : call.Reply}
      {after : Log} (inside : world.phase thread = .inside point)
      (taken : point.Io maxBytes world.log call reply next after) :
      Step maxBytes world (.io thread call reply)
        { world with log := after, phase := world.goTo thread (.inside next) }
  | unlocked {world : World} {thread : ℕ} {point : Point}
      (inside : world.phase thread = .inside point) (stops : point.next maxBytes = .stop ()) :
      Step maxBytes world (.unlocked thread)
        { world with lock := none, phase := world.goTo thread .idle }

/-- No thread has called yet, and the live file holds the records written so far. -/
structure World.Opened (world : World) : Prop where
  free : world.lock = none
  idle : ∀ thread, world.phase thread = .idle
  live : world.log.live = world.log.records.flatten
  lines : ∀ record ∈ world.log.records, ∃ request utc, record = Request.record request utc
  segment : world.log.segment = world.log.previous

def logFrom (init : World → Prop) (maxBytes : ℤ) : System World Label where
  init := init
  step := World.Step maxBytes

/-- Any log that has just been opened. -/
abbrev rfLog (maxBytes : ℤ) : System World Label := logFrom World.Opened maxBytes

/-! ## One writer at a time -/

/-- What holds while nobody is inside, and at each point for the one inside. -/
structure Guarded (rest : Log → Prop) (at' : Point → Log → Prop) (world : World) : Prop where
  free : world.lock = none → rest world.log
  alone : ∀ thread point, world.phase thread = .inside point →
    world.lock = some thread ∧ at' point world.log
  held : ∀ thread, world.lock = some thread → ∃ point, world.phase thread = .inside point

variable {init : World → Prop} {maxBytes : ℤ} {rest : Log → Prop} {at' : Point → Log → Prop} {world : World}
  {trace : List Label}

/-- Which calls with which replies a run may make at a point. -/
abbrev Permits : Type := Point → Log → (call : Call) → call.Reply → Prop

/-- The runs whose calls are all permitted. -/
def permitted (permits : Permits) (world : World) : Label → World → Prop
  | .io thread call reply, _ =>
      ∀ point, world.phase thread = .inside point → permits point world.log call reply
  | _, _ => True

/-- The invariant rule: what every permitted call keeps holds at every point of every
run. -/
theorem guarded_of_run {permits : Permits}
    (run : ((logFrom init maxBytes).restrict (permitted permits)).Run world trace)
    (starts : ∀ world : World, init world → world.Opened)
    (opened : ∀ world : World, init world → rest world.log)
    (locked : ∀ log (request : Request) utc, rest log →
      at' (.measuring (request.record utc))
        { log with records := log.records ++ [request.record utc] })
    (io : ∀ point log call reply next after, at' point log →
      permits point log call reply → point.Io maxBytes log call reply next after → at' next after)
    (unlocked : ∀ point log, at' point log → point.next maxBytes = .stop () → rest log) :
    Guarded rest at' world := by
  have initial (start : World) (h : init start) : Guarded rest at' start := by
    refine ⟨fun _ => opened start h, fun thread point inside => ?_, fun thread held => ?_⟩
    · rw [(starts start h).idle thread] at inside
      cases inside
    · rw [(starts start h).free] at held
      cases held
  refine run.invariant initial ?_
  rintro state label after ⟨free, alone, held⟩ ⟨step, allowed⟩
  -- only the thread that holds the lock is inside
  have only {holder : ℕ} (held : state.lock = some holder) {thread : ℕ} {point : Point}
      (inside : state.phase thread = .inside point) : thread = holder :=
    Option.some_inj.mp ((alone thread point inside).1.symm.trans held)
  cases step with
  | request thread request idle =>
      refine ⟨free, fun other point inside => alone other point ?_, fun other isHeld => ?_⟩
      · by_cases same : other = thread
        · rw [same] at inside
          simp [World.goTo] at inside
        · simpa [World.goTo, same] using inside
      · obtain ⟨point, inside⟩ := held other isHeld
        refine ⟨point, ?_⟩
        refine (Function.update_of_ne ?_ _ _).trans inside
        rintro rfl
        rw [idle] at inside
        cases inside
  | @locked thread request utc waiting isFree =>
      refine ⟨nofun, fun other point inside => ?_, fun other isHeld => ?_⟩
      · by_cases same : other = thread
        · subst same
          simp only [World.goTo, Function.update_self, Phase.inside.injEq] at inside
          subst inside
          exact ⟨rfl, locked _ _ _ (free isFree)⟩
        · simp only [World.goTo, Function.update_of_ne same] at inside
          have := (alone other point inside).1
          rw [isFree] at this
          cases this
      · obtain rfl := Option.some_inj.mp isHeld
        exact ⟨_, Function.update_self ..⟩
  | @io thread point next call reply afterLog inside taken =>
      obtain ⟨ours, here⟩ := alone thread point inside
      refine ⟨fun open' => ?_, fun other point' inside' => ?_, fun other isHeld => ?_⟩
      · exact absurd (ours.symm.trans open') (Option.some_ne_none _)
      · by_cases same : other = thread
        · subst same
          simp only [World.goTo, Function.update_self, Phase.inside.injEq] at inside'
          subst inside'
          exact ⟨ours, io _ _ _ _ _ _ here (allowed point inside) taken⟩
        · simp only [World.goTo, Function.update_of_ne same] at inside'
          exact absurd (only ours inside') same
      · obtain rfl := Option.some_inj.mp (ours.symm.trans isHeld)
        exact ⟨_, Function.update_self ..⟩
  | @unlocked thread point inside stops =>
      obtain ⟨ours, here⟩ := alone thread point inside
      refine ⟨fun _ => unlocked _ _ here stops, fun other point' inside' => ?_, nofun⟩
      by_cases same : other = thread
      · subst same
        simp [World.goTo] at inside'
      · simp only [World.goTo, Function.update_of_ne same] at inside'
        exact absurd (only ours inside') same

/-- A fact that holds at rest and at every point holds in every state. -/
theorem Guarded.always {fact : Log → Prop} (guarded : Guarded rest at' world)
    (atRest : ∀ log, rest log → fact log) (inside : ∀ point log, at' point log → fact log) :
    fact world.log := by
  cases held : world.lock with
  | none => exact atRest _ (guarded.free held)
  | some thread =>
      obtain ⟨point, here⟩ := guarded.held thread held
      exact inside _ _ (guarded.alone thread point here).2

/-! ## Complete calls -/

/-- The calls one thread makes, one after another. -/
inductive Path (maxBytes : ℤ) (permits : Permits) (point : Point) (log : Log) :
    Point → Log → Prop where
  | refl : Path maxBytes permits point log point log
  | step {last next : Point} {middle after : Log} {call : Call} {reply : call.Reply}
      (path : Path maxBytes permits point log last middle)
      (allowed : permits last middle call reply)
      (taken : last.Io maxBytes middle call reply next after) :
      Path maxBytes permits point log next after

section Paths

variable {permits : Permits} {log : Log} {raw : Bytes}

theorem Path.call {point last next : Point} {middle after : Log}
    (path : Path maxBytes permits point log last middle) (call : Call) (reply : call.Reply)
    (allowed : permits last middle call reply)
    (taken : last.Io maxBytes middle call reply next after) :
    Path maxBytes permits point log next after :=
  path.step allowed taken

theorem Path.measured (fits : (log.live.length + raw.length : ℤ) ≤ maxBytes)
    (measures : permits (.measuring raw) log .fstat (some log.live.length)) :
    Path maxBytes permits (.measuring raw) log (.writing raw raw) log := by
  refine .step .refl measures ⟨_, log, rfl, ?_, ⟨rfl, fun n same => ?_⟩, rfl⟩
  · exact (if_neg (not_lt.mpr fits)).symm
  · exact (Option.some_inj.mp same).symm

/-- The whole record in one write. -/
theorem Path.line {point : Point} {before : Log} (some' : raw ≠ [])
    (path : Path maxBytes permits point before (.writing raw raw) log)
    (writes : permits (.writing raw raw) log (.osWrite raw) (.wrote raw.length)) :
    Path maxBytes permits point before (.writing raw []) { log with live := log.live ++ raw } := by
  refine path.call (.osWrite raw) (.wrote raw.length) writes ?_
  cases raw with
  | nil => exact absurd rfl some'
  | cons byte more =>
      refine ⟨_, _, rfl, ?_, ⟨le_refl _, rfl⟩, ?_⟩
      · exact congrArg _ (List.drop_length ..).symm
      · rw [List.take_length]

/-- A record that fits is written at once. -/
theorem Path.written (fits : (log.live.length + raw.length : ℤ) ≤ maxBytes) (some' : raw ≠ [])
    (measures : permits (.measuring raw) log .fstat (some log.live.length))
    (writes : permits (.writing raw raw) log (.osWrite raw) (.wrote raw.length)) :
    Path maxBytes permits (.measuring raw) log (.writing raw [])
      { log with live := log.live ++ raw } :=
  (Path.measured fits measures).line some' writes

/-- A record that fits is cut by a fault after `count` bytes. -/
theorem Path.cut (count : ℕ) (fits : (log.live.length + raw.length : ℤ) ≤ maxBytes)
    (less : count < raw.length) :
    Path maxBytes (fun _ _ _ _ => True) (.measuring raw) log .returned
      { log with live := log.live ++ raw.take count } := by
  have left : ∃ byte more, raw.drop count = byte :: more :=
    List.exists_cons_of_length_pos (by rw [List.length_drop]; omega)
  obtain ⟨byte, more, left⟩ := left
  have part : Path maxBytes (fun _ _ _ _ => True) (.measuring raw) log
      (.writing raw (byte :: more)) { log with live := log.live ++ raw.take count } := by
    rw [← left]
    refine (Path.measured fits trivial).call (.osWrite raw) (.wrote count) trivial ?_
    cases raw with
    | nil => cases less
    | cons first rest => exact ⟨_, _, rfl, rfl, ⟨Nat.le_of_lt less, rfl⟩, rfl⟩
  exact part.call (.osWrite (byte :: more)) .failed trivial ⟨_, _, rfl, rfl, rfl, rfl⟩

end Paths

/-- A whole call of `rx` or `tx`, from a state where nobody is inside. -/
theorem run_call {permits : Permits}
    (run : ((logFrom init maxBytes).restrict (permitted permits)).Run world trace) (thread : ℕ)
    (request : Request) (utc : Utc) {point : Point} {log : Log}
    (free : world.lock = none) (idle : world.phase thread = .idle)
    (path : Path maxBytes permits (.measuring (request.record utc))
      { world.log with records := world.log.records ++ [request.record utc] } point log)
    (stops : point.next maxBytes = .stop ()) :
    ∃ trace,
      ((logFrom init maxBytes).restrict (permitted permits)).Run ⟨log, none, world.phase⟩ trace := by
  have inside : ∃ trace, ((logFrom init maxBytes).restrict (permitted permits)).Run
      ⟨log, some thread, world.goTo thread (.inside point)⟩ trace := by
    clear stops
    induction path with
    | refl =>
        have asked := System.Run.step run ⟨.request thread request idle, trivial⟩
        have waits : ({ world with phase := world.goTo thread (.waiting request) } : World).phase
            thread = .waiting request := Function.update_self ..
        have locked := asked.step ⟨.locked utc waits free, trivial⟩
        simp only [World.goTo, Function.update_idem] at locked
        exact ⟨_, locked⟩
    | @step last next middle after call reply path allowed taken ih =>
        obtain ⟨earlier, run⟩ := ih
        have here := Function.update_self thread (.inside last) world.phase
        have io := run.step ⟨.io here taken, fun point inside => ?_⟩
        · simp only [World.goTo, Function.update_idem] at io
          exact ⟨_, io⟩
        · obtain rfl := Phase.inside.inj (here.symm.trans inside)
          exact allowed
  obtain ⟨earlier, run⟩ := inside
  have here := Function.update_self thread (.inside point) world.phase
  have left := run.step ⟨.unlocked here stops, trivial⟩
  simp only [World.goTo, Function.update_idem, ← idle, Function.update_eq_self] at left
  exact ⟨_, left⟩

end LorahamRns.RfLog
