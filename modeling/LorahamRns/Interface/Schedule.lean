import LorahamRns.Interface.Threads

/-!
# Runs by schedule

A schedule says which thread steps next; what the environment answers is given once for
all calls.  A schedule that can be played is a run.
-/

namespace LorahamRns.Interface

open LorahamRns.Lib LorahamRns.Framing LorahamRns.Radio

/-- What the environment answers where the shared fields leave it open. -/
abbrev Oracle : Type := (call : Call) → World → call.Answer

/-- Nothing fails; the reservations are answered as given. -/
def willing (verdict : World → Verdict) : Oracle
  | .readRun, _ | .readOnline, _ | .readActive, _ | .waitEvent, _ | .waitIrq, _ | .log _, _
  | .logTx _ _, _ | .logRx _, _ | .inbound _, _ => true
  | .queueLength, _ => 0
  | .popleft, _ => none
  | .radio (.xfer _), _ => some (some [])
  | .radio (.setTxen _), _ | .radio .waitBusy, _ | .radio .reset, _ => some true
  | .radio .monotonic, _ => some 0
  | .radio (.sleep _), _ => some ()
  | .random, _ => 0
  | .reserve _, world => verdict world
  | .time, _ => 0
  | .feed _, _ => none
  | .clearRun, _ | .clearOnline, _ | .setFatal _, _ | .setEvent, _ | .clearEvent, _
  | .append _, _ | .setActive, _ | .clearActive, _ | .acquire, _ | .release, _
  | .handOver _ _, _ | .sleep _, _ | .closeRadio, _ | .closeBus, _ | .closeLog, _ => ()

/-- The answer of one call and the fields after it. -/
def World.reply (oracle : Oracle) (who : Who) (world : World) :
    (call : Call) → Option (call.Answer × World)
  | .readRun => some (world.run, world)
  | .clearRun => some ((), { world with run := false })
  | .readOnline => some (world.online, world)
  | .clearOnline => some ((), { world with online := false })
  | .setFatal cause => some ((), { world with fatal := some cause })
  | .setEvent => some ((), { world with event := true })
  | .waitEvent => some (world.event, world)
  | .clearEvent => some ((), { world with event := false })
  | .queueLength => some (world.queue.length, world)
  | .append packet => some ((), { world with queue := world.queue ++ [packet] })
  | .popleft => some (world.queue.head?, { world with queue := world.queue.tail })
  | .readActive => some (world.active, world)
  | .setActive => some ((), { world with active := true })
  | .clearActive => some ((), { world with active := false })
  | .acquire => if world.lock = none then some ((), { world with lock := some who }) else none
  | .release => some ((), { world with lock := none })
  | .radio (.xfer _) => none
  | .radio (.setTxen on) =>
      if world.linesOpen then some (oracle (.radio (.setTxen on)) world, world) else none
  | .waitIrq => if world.linesOpen then some (oracle .waitIrq world, world) else none
  | .feed frame =>
      some ((world.reassembler.feed frame 0).2,
        { world with reassembler := (world.reassembler.feed frame 0).1 })
  | .closeRadio => some ((), { world with linesOpen := false })
  | .closeBus => some ((), { world with
      busOpen := false
      bus.lock := if world.bus.lock = .ours then .free else world.bus.lock })
  | call => some (oracle call world, world)

theorem World.reply_admissible {oracle : Oracle} {who : Who} {world after : World} {call : Call}
    {answer : call.Answer} (h : world.reply oracle who call = some (answer, after)) :
    World.Answers who call world answer after := by
  cases call with
  | acquire =>
      obtain ⟨free, same⟩ := Option.ite_none_right_eq_some.mp h
      cases same
      exact ⟨free, rfl⟩
  | waitIrq =>
      obtain ⟨opened, same⟩ := Option.ite_none_right_eq_some.mp h
      cases same
      exact ⟨fun _ => opened, rfl⟩
  | radio effect =>
      cases effect with
      | xfer payload => cases h
      | setTxen on =>
          obtain ⟨opened, same⟩ := Option.ite_none_right_eq_some.mp h
          cases same
          exact ⟨fun _ => opened, rfl⟩
      | _ =>
          cases h
          exact rfl
  | readRun | readOnline | waitEvent | queueLength | popleft | readActive =>
      cases h
      exact ⟨rfl, rfl⟩
  | feed frame =>
      cases h
      exact ⟨0, rfl, rfl⟩
  | _ =>
      cases h
      exact rfl

/-- A bus that works: `flock` is granted where it can be, every transfer reads the bytes
given. -/
def busReply (received : List ℕ) (bus : Spi.Bus) : (call : Spi.Call) → Option (call.Reply × Spi.Bus)
  | .monotonic => some (0, bus)
  | .flock =>
      if bus.lock = .free ∨ bus.lock = .ours then some (.granted, { bus with lock := .ours })
      else some (.again, bus)
  | .setValue value => some (true, { bus with drive := ⟨value, true⟩, pin := value })
  | .xfer2 payload =>
      some (some received, { bus with clocked := ⟨bus.lock, bus.drive, payload⟩ :: bus.clocked })
  | .unlock => some (true, { bus with lock := .free })

theorem busReply_admissible {received : List ℕ} {bus after : Spi.Bus} {call : Spi.Call}
    {reply : call.Reply} (h : busReply received bus call = some (reply, after)) :
    Spi.Bus.Answers call bus reply after := by
  cases call with
  | flock =>
      change (if bus.lock = .free ∨ bus.lock = .ours then _ else _) = _ at h
      split at h
      · next free =>
          cases h
          exact ⟨free, rfl⟩
      · cases h
        exact rfl
  | setValue value =>
      cases h
      exact ⟨value, Or.inl rfl, rfl⟩
  | monotonic | xfer2 | unlock =>
      cases h
      exact rfl

/-- What goes on where a turn ended, with one fuel and one packet for all turns. -/
def goOn (iface : LoRaSPIInterface) (fuel : ℕ) (data : Bytes) : Who → Next → Option (Worker Next)
  | .rx, .outer => some (rxTurn iface)
  | .tx, .outer => some txOuter
  | .tx, .inner => some (txInner iface fuel)
  | .caller _, .ended => some (processOutgoing iface data)
  | _, _ => none

theorem turn_of_goOn {iface : LoRaSPIInterface} {fuel : ℕ} {data : Bytes} {who : Who} {next : Next}
    {program : Worker Next} (h : goOn iface fuel data who next = some program) :
    Turn iface who next program := by
  unfold goOn at h
  split at h
  · cases h
    exact .rx
  · cases h
    exact .outer
  · cases h
    exact .inner fuel
  · cases h
    exact .caller _ data
  · cases h

/-- The answers a schedule is played with. -/
structure Setting where
  iface : LoRaSPIInterface
  oracle : Oracle
  received : List ℕ
  fuel : ℕ
  data : Bytes

/-- The next step of a thread, on a bus with chip selects of its own. -/
def Setting.advance (setting : Setting) (world : World) (who : Who) : Option World :=
  match world.threads who with
  | ⟨.done next, none⟩ =>
      (goOn setting.iface setting.fuel setting.data who next).map fun program =>
        world.goTo who ⟨program, none⟩
  | ⟨.call (.radio (.xfer payload)) next, none⟩ =>
      some (world.goTo who ⟨.call (.radio (.xfer payload)) next, some (.begin payload)⟩)
  | ⟨.call call next, none⟩ =>
      (world.reply setting.oracle who call).map fun last =>
        last.2.goTo who ⟨next last.1, none⟩
  | ⟨.call (.radio (.xfer _)) next, some (.returned outcome)⟩ =>
      some (world.goTo who ⟨next (some outcome.toOption), none⟩)
  | ⟨program, some point⟩ =>
      match point.next true with
      | .stop _ => none
      | .call call resume =>
          if world.busOpen then
            (busReply setting.received world.bus call).map fun last =>
              { world with bus := last.2 }.goTo who ⟨program, some (resume last.1)⟩
          else none
  | _ => none

/-- The label of that step. -/
def Setting.label (setting : Setting) (world : World) (who : Who) : Label :=
  match world.threads who with
  | ⟨.done _, none⟩ => .turn who
  | ⟨.call (.radio (.xfer payload)) _, none⟩ => .enters who payload
  | ⟨.call call _, none⟩ =>
      (world.reply setting.oracle who call).elim .peer fun last => .call who call last.1
  | ⟨.call (.radio (.xfer _)) _, some (.returned _)⟩ => .leaves who
  | ⟨_, some point⟩ =>
      match point.next true with
      | .stop _ => .peer
      | .call call _ =>
          (busReply setting.received world.bus call).elim .peer fun last => .bus who call last.1
  | _ => .peer

theorem Setting.advance_labelled {setting : Setting} {world after : World} {who : Who}
    (h : setting.advance world who = some after) :
    (setting.label world who).mover = some who ∧
      World.Step true setting.iface world (setting.label world who) after := by
  unfold Setting.advance at h
  unfold Setting.label
  split at h
  · next next here =>
      obtain ⟨program, goesOn, rfl⟩ := Option.map_eq_some_iff.mp h
      exact ⟨rfl, .turn here (turn_of_goOn goesOn)⟩
  · next payload next here =>
      cases h
      exact ⟨rfl, .enters here⟩
  · next call next _ here =>
      obtain ⟨⟨answer, after⟩, answered, rfl⟩ := Option.map_eq_some_iff.mp h
      rw [answered]
      exact ⟨rfl, .call here (World.reply_admissible answered)⟩
  · next next outcome here =>
      cases h
      exact ⟨rfl, .leaves here⟩
  · next program point _ here =>
      split at h
      · cases h
      · next call resume asks =>
          obtain ⟨opened, h⟩ := Option.ite_none_right_eq_some.mp h
          obtain ⟨⟨reply, bus⟩, answered, rfl⟩ := Option.map_eq_some_iff.mp h
          rw [answered]
          refine ⟨rfl, .bus here asks (busReply_admissible answered) fun closed => ?_⟩
          cases opened.symm.trans closed
  · cases h

theorem Setting.advance_step {setting : Setting} {world after : World} {who : Who}
    (h : setting.advance world who = some after) :
    ∃ label, World.Step true setting.iface world label after :=
  ⟨_, (Setting.advance_labelled h).2⟩

def Setting.play (setting : Setting) : List Who → World → Option World
  | [], world => some world
  | who :: schedule, world => (setting.advance world who).bind (setting.play schedule)

/-- What a schedule comes to is reached by a run. -/
theorem Setting.play_run {setting : Setting} {schedule : List Who} {world last : World}
    (h : setting.play schedule world = some last)
    (run : ∃ trace, (threads true setting.iface).Run world trace) :
    ∃ trace, (threads true setting.iface).Run last trace := by
  induction schedule generalizing world with
  | nil =>
      cases h
      exact run
  | cons who schedule ih =>
      obtain ⟨after, advanced, h⟩ := Option.bind_eq_some_iff.mp h
      obtain ⟨trace, run⟩ := run
      obtain ⟨label, taken⟩ := Setting.advance_step advanced
      exact ih h ⟨_, run.step taken⟩

/-- The labels of the steps of a schedule. -/
def Setting.trace (setting : Setting) : List Who → World → List Label
  | [], _ => []
  | who :: schedule, world =>
      setting.label world who ::
        (setting.advance world who).elim [] (setting.trace schedule)

/-- A schedule is a run with its labels, by the threads it names. -/
theorem Setting.play_traced {setting : Setting} {schedule : List Who} {world last : World}
    {trace : List Label} (h : setting.play schedule world = some last)
    (run : (threads true setting.iface).Run world trace) :
    (threads true setting.iface).Run last (trace ++ setting.trace schedule world) ∧
      (setting.trace schedule world).map Label.mover = schedule.map some := by
  induction schedule generalizing world trace with
  | nil =>
      cases h
      exact ⟨by rwa [Setting.trace, List.append_nil], rfl⟩
  | cons who schedule ih =>
      obtain ⟨after, advanced, h⟩ := Option.bind_eq_some_iff.mp h
      obtain ⟨moves, taken⟩ := Setting.advance_labelled advanced
      obtain ⟨reached, rest⟩ := ih h (run.step taken)
      rw [Setting.trace, advanced]
      refine ⟨?_, ?_⟩
      · rwa [List.append_assoc] at reached
      · rw [List.map_cons, List.map_cons, moves]
        exact congrArg _ rest

/-- The interface as `__init__` leaves it, with the bus free. -/
def World.fresh (iface : LoRaSPIInterface) : World where
  run := true
  online := true
  event := false
  active := false
  fatal := none
  lock := none
  queue := []
  reassembler := .fresh iface.maxAge
  bus := ⟨.free, ⟨.inactive, true⟩, .inactive, []⟩
  linesOpen := true
  busOpen := true
  threads
    | .rx | .tx => ⟨.done .outer, none⟩
    | .detacher => ⟨detach, none⟩
    | .caller _ => ⟨.done .ended, none⟩

theorem World.fresh_initial (iface : LoRaSPIInterface) : (World.fresh iface).Initial iface :=
  ⟨rfl, rfl, rfl, rfl, rfl, rfl, rfl, rfl, rfl, rfl, rfl, rfl, rfl, fun _ => rfl⟩

/-- A schedule played from the start, and what is read off its last state. -/
theorem Setting.reaches {α : Type} {setting : Setting} {schedule : List Who} {seen : World → α}
    {value : α}
    (h : (setting.play schedule (.fresh setting.iface)).map seen = some value) :
    ∃ world trace, (threads true setting.iface).Run world trace ∧ seen world = value := by
  obtain ⟨last, played, same⟩ := Option.map_eq_some_iff.mp h
  obtain ⟨trace, run⟩ := Setting.play_run played ⟨[], .start (World.fresh_initial setting.iface)⟩
  exact ⟨last, trace, run, same⟩

end LorahamRns.Interface
