import LorahamRns.Interface.Exclusion
import LorahamRns.Interface.Watched
import LorahamRns.Lib.Budget

/-!
# Nobody is stuck

A thread waits for nothing but `_radio_lock`, and whoever holds the lock is a few calls
away from giving it back, whatever those are answered.  In no interleaving do the workers,
`detach`, the callers and the peer processes block one another, and a worker between two
turns, or ended by an error, has left nothing behind.
-/

namespace LorahamRns.Interface

open LorahamRns.Lib LorahamRns.Framing LorahamRns.Radio
open Program (Within Meets critical keeps_bind keeps_rescue keeps_ensuring keeps_ofExcept
  within_done within_call)

/-! ## What can be answered -/

/-- Every call is answered but the two that are no single step: the wait for the lock and a
transaction. -/
theorem World.answerable (who : Who) (world : World) (call : Call) (waits : call ≠ .acquire)
    (transacts : ∀ payload, call ≠ .radio (.xfer payload)) :
    ∃ answer after, World.Answers who call world answer after := by
  cases call with
  | acquire => exact absurd rfl waits
  | radio effect =>
      cases effect with
      | xfer payload => exact absurd rfl (transacts payload)
      | setTxen on => exact ⟨none, world, by rintro ⟨⟩, rfl⟩
      | waitBusy | monotonic | sleep | reset => exact ⟨none, world, rfl⟩
  | waitIrq => exact ⟨false, world, by rintro ⟨⟩, rfl⟩
  | feed frame => exact ⟨_, _, 0, rfl, rfl⟩
  | readRun | readOnline | waitEvent | queueLength | readActive => exact ⟨_, _, rfl, rfl⟩
  | popleft => exact ⟨_, _, rfl, rfl⟩
  | random => exact ⟨0, world, rfl⟩
  | reserve toa => exact ⟨.granted, world, rfl⟩
  | time => exact ⟨0, world, rfl⟩
  | log | logTx | logRx | inbound => exact ⟨true, world, rfl⟩
  | clearRun | clearOnline | setFatal | setEvent | clearEvent | append | setActive | clearActive
  | release | handOver | sleep | closeRadio | closeBus | closeLog => exact ⟨(), _, rfl⟩

/-- A call of a transaction can fail, whoever has the bus and whether or not it is open. -/
theorem bus_answerable (bus : Spi.Bus) (call : Spi.Call) :
    ∃ reply after, Spi.Bus.Answers call bus reply after ∧
      (call = .monotonic ∨ call.failed reply = true) := by
  cases call with
  | monotonic => exact ⟨0, bus, rfl, Or.inl rfl⟩
  | flock => exact ⟨.failed, bus, rfl, Or.inr rfl⟩
  | setValue value => exact ⟨false, _, ⟨bus.pin, Or.inr ⟨rfl, rfl⟩, rfl⟩, Or.inr rfl⟩
  | xfer2 payload => exact ⟨none, _, rfl, Or.inr rfl⟩
  | unlock => exact ⟨false, bus, rfl, Or.inr rfl⟩

theorem xfer_goes_on (soft : Bool) (point : Spi.Xfer) :
    (∃ outcome, point = .returned outcome) ∨
      ∃ call resume, point.next soft = .call call resume := by
  cases point with
  | returned outcome => exact Or.inl ⟨outcome, rfl⟩
  | _ => exact Or.inr ⟨_, _, rfl⟩

/-! ## The length of the locked sections -/

theorem within_xfer (payload : List ℤ) : (Radio.xfer payload).Within 1 := by
  refine within_call fun reply => ?_
  cases reply <;> trivial

theorem within_require (effect : Radio.Effect) (succeeded : effect.Answer → Bool) :
    (require effect succeeded).Within 1 := by
  refine within_call fun reply => ?_
  split <;> trivial

theorem within_index (bytes : List ℕ) (place : ℕ) : (index bytes place).Within 0 := by
  unfold index
  split <;> trivial

theorem within_read (reg : ℕ) : (Sx127x.read reg).Within 1 :=
  Within.bind (m := 0) (within_xfer _) fun received => within_index received 1

theorem within_write (reg : ℕ) (value : ℤ) : (Sx127x.write reg value).Within 1 :=
  Within.bind (m := 0) (within_xfer _) fun _ => within_done () 0

theorem within_cmd (opcode : ℤ) (params : List ℤ) : (Sx1262.cmd opcode params).Within 2 :=
  Within.bind (m := 1) (within_require _ _) fun _ =>
    Within.bind (m := 0) (within_xfer _) fun _ => within_done () 0

theorem within_query (opcode : ℤ) (count : ℕ) (params : List ℤ) :
    (Sx1262.query opcode count params).Within 2 :=
  Within.bind (m := 1) (within_require _ _) fun _ =>
    Within.bind (m := 0) (within_xfer _) fun _ => within_done _ 0

theorem within_pollRx127x (frequency : ℤ) : (Sx127x.pollRx frequency).Within 8 := by
  refine Within.bind (m := 7) (within_read _) fun flags => ?_
  split
  · trivial
  refine Within.bind (m := 6) (within_write _ _) fun _ => ?_
  split
  · trivial
  refine Within.bind (m := 5) (within_read _) fun count => ?_
  refine Within.bind (m := 4) (within_read _) fun start => ?_
  refine Within.bind (m := 3) (within_write _ _) fun _ => ?_
  refine Within.bind (m := 2) (within_xfer _) fun received => ?_
  refine Within.bind (m := 1) (within_read _) fun snr => ?_
  exact Within.bind (m := 0) (within_read _) fun strength => within_done _ 0

theorem within_pollRx1262 : Sx1262.pollRx.Within 10 := by
  have irqStatus : Sx1262.irqStatus.Within 2 :=
    Within.bind (m := 0) (within_query _ _ _) fun _ => within_done _ 0
  refine Within.bind (m := 8) irqStatus fun irq => ?_
  split
  · trivial
  refine Within.bind (m := 6) (within_cmd _ _) fun _ => ?_
  split
  · trivial
  refine Within.bind (m := 4) (within_query _ _ _) fun status => ?_
  refine Within.bind (m := 4) (within_index _ _) fun length => ?_
  refine Within.bind (m := 4) (within_index _ _) fun start => ?_
  refine Within.bind (m := 2) (within_query _ _ _) fun payload => ?_
  refine Within.bind (m := 0) (within_query _ _ _) fun packet => ?_
  refine Within.bind (m := 0) (within_index _ _) fun rssi => ?_
  exact Within.bind (m := 0) (within_index _ _) fun snr => within_done _ 0

/-- `poll_rx` of any chip makes at most ten calls. -/
theorem within_pollRx (profile : Profile) (settings : Settings) :
    (Radio.pollRx profile settings).Within 10 := by
  unfold Radio.pollRx
  split
  · exact (within_pollRx127x _).mono (by decide)
  · exact (within_pollRx127x _).mono (by decide)
  · exact (within_pollRx127x _).mono (by decide)
  · exact within_pollRx1262

theorem within_startRx (profile : Profile) (settings : Settings) :
    (Radio.startRx profile settings).Within 4 := by
  have sx127x : (Sx127x.startRx settings.frequency).Within 4 :=
    Within.bind (m := 3) (within_write _ _) fun _ =>
      Within.bind (m := 2) (within_write _ _) fun _ => (within_write _ _).mono (by decide)
  have sx1262 : Sx1262.startRx.Within 4 :=
    Within.bind (m := 2) (within_cmd _ _) fun _ => within_cmd _ _
  unfold Radio.startRx
  split
  · exact sx127x
  · exact sx127x
  · exact sx127x
  · exact sx1262

theorem drive_within {α : Type} {program : Driver α} {budget : ℕ} (h : program.Within budget) :
    (drive program).Within budget := by
  induction program generalizing budget with
  | done value => trivial
  | fail fault => trivial
  | call effect next ih =>
      obtain ⟨less, rfl, rest⟩ := h
      refine ⟨less, rfl, fun reply => ?_⟩
      cases reply with
      | none => trivial
      | some reply => exact ih reply (rest reply)

/-! ## The sections of the workers -/

def Call.takes : Call → Bool
  | .acquire => true
  | _ => false

def Call.gives : Call → Bool
  | .release => true
  | _ => false

/-- The calls of a locked section, its release left out. -/
def sectionCalls : ℕ := 11

/-- The sections under `_radio_lock`. -/
abbrev lockSections : Monitor Call Call.Answer (Option ℕ) :=
  critical Call.takes Call.gives sectionCalls

/-- Outside of the sections, at the end as at the start. -/
abbrev KeepsLock {α : Type} (program : Worker α) : Prop :=
  program.Keeps lockSections (fun _ => (· = none)) (fun _ => (· = none)) none

/-- A call that leaves the lock alone. -/
abbrev Call.Free (call : Call) : Prop := Program.Plain Call.takes Call.gives call

theorem Call.Outside.free {call : Call} (h : call.Outside) : call.Free := by
  cases call with
  | acquire | release | setActive | clearActive | radio | clearRun | closeRadio | closeBus =>
      exact h.elim
  | _ => exact ⟨rfl, rfl⟩

theorem Call.Stops.free {call : Call} (h : call.Stops) : call.Free := by
  rcases h with outside | rfl
  · exact outside.free
  · exact ⟨rfl, rfl⟩

theorem Call.IsRadio.free {call : Call} (h : call.IsRadio) : call.Free := by
  obtain ⟨effect, rfl⟩ := h
  exact ⟨rfl, rfl⟩

section Walk

variable {iface : LoRaSPIInterface} {α β : Type}

theorem keepsLock_bind {program : Worker α} {next : α → Worker β} (h : KeepsLock program)
    (rest : ∀ value, KeepsLock (next value)) : KeepsLock (program.bind next) := by
  refine keeps_bind (h.mono (fun value place same => ?_) fun _ _ same => same)
  subst same
  exact rest value

theorem keepsLock_rescue {program : Worker α} {handler : Raised → Worker α}
    (h : KeepsLock program) (handles : ∀ reason, KeepsLock (handler reason)) :
    KeepsLock (program.rescue handler) := by
  refine keeps_rescue (h.mono (fun _ _ same => same) fun reason place same => ?_)
  subst same
  exact handles reason

theorem keepsLock_ensuring {program : Worker α} {cleanUp : Worker Unit} (h : KeepsLock program)
    (tidies : KeepsLock cleanUp) : KeepsLock (program.ensuring cleanUp) := by
  refine keeps_ensuring (h.mono (fun value place same => ?_) fun reason place same => ?_)
  · subst same
    exact tidies
  · subst same
    exact tidies

theorem keepsLock_free {program : Worker α} (h : program.Only Call.Free) : KeepsLock program :=
  h.keeps_outside

/-- `with self._radio_lock:` around few enough calls that leave the lock alone. -/
theorem keepsLock_withLock {body : Worker α} {n : ℕ} (free : body.Only Call.Free)
    (within : body.Within n) (enough : n ≤ sectionCalls) : KeepsLock (withLock body) := by
  have gives (place : Option ℕ) (inside : place.isSome) :
      (Program.call .release .done : Worker Unit).Keeps lockSections (fun _ => (· = none))
        (fun _ => (· = none)) place := by
    obtain ⟨left, rfl⟩ := Option.isSome_iff_exists.mp inside
    exact fun _ => ⟨none, rfl, rfl⟩
  refine fun _ => ⟨some sectionCalls, rfl, keeps_ensuring
    ((free.keeps_inside within enough).mono (fun value place inside => ?_)
      fun reason place inside => ?_)⟩
  · exact gives place inside
  · exact gives place inside

theorem keepsLock_poll : KeepsLock (poll iface) := by
  refine keepsLock_withLock (n := 11) ⟨⟨rfl, rfl⟩, fun active => ?_⟩
    (within_call fun active => ?_) le_rfl
  · cases active with
    | true => trivial
    | false => exact (only_radio _).mono fun _ => Call.IsRadio.free
  · cases active with
    | true => exact within_done none 10
    | false => exact drive_within (within_pollRx iface.profile iface.settings)

theorem keepsLock_rxTurn : KeepsLock (rxTurn iface) := by
  intro run
  refine ⟨none, rfl, ?_⟩
  cases run with
  | false => exact rfl
  | true =>
      refine keepsLock_rescue (keepsLock_bind ?_ fun _ => rfl) fun reason =>
        keepsLock_free ((rxHandler_stops reason).mono fun _ => Call.Stops.free)
      intro active
      refine ⟨none, rfl, ?_⟩
      cases active with
      | true => exact fun _ => ⟨none, rfl, rfl⟩
      | false =>
          refine keepsLock_bind (keepsLock_free ⟨⟨rfl, rfl⟩, fun woken => ?_⟩) fun _ =>
            keepsLock_bind keepsLock_poll fun got => ?_
          · cases woken <;> trivial
          · cases got with
            | none => exact rfl
            | some reception =>
                exact keepsLock_free ((received_outside reception).mono fun _ => Call.Outside.free)

theorem keepsLock_keyUp (timeoutS : ℚ) (polls : ℕ) (frames : List Bytes) :
    KeepsLock (keyUp iface timeoutS polls frames) := by
  refine keepsLock_ensuring (keepsLock_bind ?_ fun _ => ?_)
    (keepsLock_free ⟨⟨rfl, rfl⟩, fun _ => trivial⟩)
  · refine keepsLock_free ((txKeeps_sendFrames timeoutS polls 0 frames).mono fun call kind => ?_)
    rcases kind with outside | radio
    · exact outside.free
    · exact radio.free
  · exact keepsLock_withLock ((only_radio _).mono fun _ => Call.IsRadio.free)
      (drive_within (within_startRx iface.profile iface.settings)) (by decide)

theorem keepsLock_transmit (packet : Packet) (fuel : ℕ) :
    KeepsLock (transmit iface packet fuel) := by
  have frames : (framesOf iface packet.data).Only Call.Free :=
    (framesOf_only iface packet.data).mono fun _ same => by subst same; exact ⟨rfl, rfl⟩
  refine keepsLock_bind (keepsLock_free frames) fun frames =>
    keepsLock_bind (keeps_ofExcept (fun _ _ => rfl) fun _ _ => rfl) fun toa =>
      keepsLock_bind (keepsLock_free ((hold_outside packet toa fuel).mono fun _ =>
        Call.Outside.free)) fun granted => ?_
  cases granted with
  | false => exact rfl
  | true =>
      exact keepsLock_bind (keepsLock_withLock (n := 1) ⟨⟨rfl, rfl⟩, fun _ => trivial⟩
        (within_call fun _ => within_done () 0) (by decide)) fun _ => keepsLock_keyUp _ fuel frames

theorem keepsLock_txInner (fuel : ℕ) : KeepsLock (txInner iface fuel) := by
  refine fun length => ⟨none, rfl, ?_⟩
  dsimp only
  split
  · exact rfl
  refine fun run => ⟨none, rfl, ?_⟩
  cases run with
  | false => exact rfl
  | true =>
      refine fun packet => ⟨none, rfl, ?_⟩
      cases packet with
      | none => exact rfl
      | some packet =>
          exact keepsLock_rescue (keepsLock_bind (keepsLock_transmit packet fuel) fun _ => rfl)
            fun reason => keepsLock_free ((txHandler_stops reason).mono fun _ => Call.Stops.free)

theorem keepsLock_txOuter : KeepsLock txOuter := by
  intro run
  refine ⟨none, rfl, ?_⟩
  cases run with
  | false => exact rfl
  | true => exact fun _ => ⟨none, rfl, fun _ => ⟨none, rfl, rfl⟩⟩

theorem keepsLock_detach : KeepsLock detach :=
  fun _ => ⟨none, rfl, fun _ => ⟨none, rfl, fun _ => ⟨none, rfl, fun _ => ⟨none, rfl,
    fun _ => ⟨none, rfl, fun _ => ⟨none, rfl, fun _ => ⟨none, rfl, rfl⟩⟩⟩⟩⟩⟩⟩

theorem keepsLock_turn {who : Who} {next : Next} {program : Worker Next}
    (goesOn : Turn iface who next program) : KeepsLock program := by
  cases goesOn with
  | rx => exact keepsLock_rxTurn
  | outer => exact keepsLock_txOuter
  | inner fuel => exact keepsLock_txInner fuel
  | caller number data =>
      exact keepsLock_free ((processOutgoing_outside data).mono fun _ => Call.Outside.free)

end Walk

/-! ## The invariant -/

/-- The thread inside a section is the one that holds the lock, and no section is longer than
its budget. -/
def Budgets (fields : Fields) (left : Who → Option ℕ) : Prop :=
  (∀ who, fields.lock = some who ↔ (left who).isSome) ∧ ∀ who, (left who).getD 0 ≤ sectionCalls

/-- Every thread keeps to the sections, with so many calls left before it gives the lock
back. -/
structure Budgeted (world : World) (left : Who → Option ℕ) : Prop where
  keeps : Watched lockSections (fun _ _ => (· = none)) (fun _ => (· = none)) world left
  budgets : Budgets world.fields left

/-- Calls that leave the lock alone leave it as it is. -/
theorem World.Answers.lock {who : Who} {call : Call} {world after : World}
    {answer : call.Answer} (answered : World.Answers who call world answer after)
    (free : call.Free) : after.fields.lock = world.fields.lock := by
  cases call with
  | acquire => cases free.1
  | release => cases free.2
  | readRun | readOnline | waitEvent | queueLength | readActive | waitIrq | popleft =>
      obtain ⟨-, rfl⟩ := answered
      rfl
  | feed frame =>
      obtain ⟨now, -, rfl⟩ := answered
      rfl
  | radio effect => rw [answered.radio]
  | _ =>
      cases answered
      rfl

/-- What an answered call does to the place of its thread. -/
inductive LockMove : Option ℕ → Call → Option ℕ → Prop where
  | takes : LockMove none .acquire (some sectionCalls)
  | gives (left : ℕ) : LockMove (some left) .release none
  | free {call : Call} {place after : Option ℕ} (free : call.Free)
      (same : after.isSome = place.isSome) (less : after.getD 0 ≤ place.getD 0) :
      LockMove place call after

theorem lockSections_move {place after : Option ℕ} {call : Call} {answer : call.Answer}
    (h : lockSections place call answer = some after) : LockMove place call after := by
  cases takes : call.takes with
  | true =>
      cases call with
      | acquire =>
          cases place with
          | none =>
              cases h
              exact .takes
          | some left => cases h
      | _ => cases takes
  | false =>
      cases gives : call.gives with
      | true =>
          cases call with
          | release =>
              cases place with
              | none => cases h
              | some left =>
                  cases h
                  exact .gives left
          | _ => cases gives
      | false =>
          cases place with
          | none =>
              cases h.symm.trans (Program.critical_none ⟨takes, gives⟩ answer)
              exact .free ⟨takes, gives⟩ rfl le_rfl
          | some left =>
              cases left with
              | zero => simp [critical, takes, gives] at h
              | succ less =>
                  cases h.symm.trans (Program.critical_some ⟨takes, gives⟩ answer)
                  exact .free ⟨takes, gives⟩ rfl (Nat.le_succ less)

section Invariant

variable {soft : Bool} {iface : LoRaSPIInterface} {world after : World} {left : Who → Option ℕ}

/-- A thread goes to another place, and what remains to be shown of the lock. -/
theorem Budgets.moves {fields after : Fields} {who : Who} {place : Option ℕ}
    (h : Budgets fields left) (own : after.lock = some who ↔ place.isSome)
    (others : ∀ other ≠ who, after.lock = some other ↔ fields.lock = some other)
    (fits : place.getD 0 ≤ sectionCalls) : Budgets after (Function.update left who place) := by
  refine ⟨fun other => ?_, fun other => ?_⟩
  · by_cases same : other = who
    · subst same
      rw [Function.update_self]
      exact own
    · rw [Function.update_of_ne same]
      exact (others other same).trans (h.1 other)
  · by_cases same : other = who
    · subst same
      rw [Function.update_self]
      exact fits
    · rw [Function.update_of_ne same]
      exact h.2 other

theorem budgets_tied : Tied lockSections fun _ => Budgets where
  call {trace world after left who call answer place} h moved answered := by
    have own := h.1 who
    have fits := h.2 who
    have move := lockSections_move moved
    generalize left who = before at own fits move
    cases move with
    | takes =>
        obtain ⟨free, rfl⟩ := answered
        refine h.moves (by simp [World.fields]) (fun other ne => ?_) le_rfl
        rw [show world.fields.lock = none from free]
        simp [World.fields, ne.symm]
    | gives =>
        obtain rfl : after = { world with lock := none } := answered
        refine h.moves (by simp [World.fields]) (fun other ne => ?_) (Nat.zero_le _)
        rw [own.mpr rfl]
        simp [World.fields, ne.symm]
    | free free same less =>
        have lock := answered.lock free
        refine h.moves ?_ (fun other ne => by rw [lock]) (less.trans fits)
        rw [lock, same]
        exact own
  back {trace fields left who label payload reply place} h moved _ := by
    have own := h.1 who
    have fits := h.2 who
    have move := lockSections_move moved
    generalize left who = before at own fits move
    cases move with
    | free free same less =>
        refine h.moves ?_ (fun _ _ => Iff.rfl) (less.trans fits)
        rw [same]
        exact own
  quiet h _ := h

theorem run_budgeted {trace : List Label} (run : (threads soft iface).Run world trace) :
    ∃ left, Budgeted world left := by
  have turns {who : Who} {next : Next} {program : Worker Next} {place : Option ℕ}
      (goesOn : Turn iface who next program) (outside : place = none) :
      program.Keeps lockSections (fun _ => (· = none)) (fun _ => (· = none)) place := by
    subst outside
    exact keepsLock_turn goesOn
  obtain ⟨left, keeps, budgets⟩ := run_watched (fun _ => none) run budgets_tied turns
    keepsLock_detach rfl rfl
    (fun _ => rfl) fun world initial =>
      ⟨fun who => by simp [World.fields, initial.lock], fun _ => Nat.zero_le _⟩
  exact ⟨left, keeps, budgets⟩

/-- The holder of the lock comes to its release. -/
theorem Budgeted.meets {who : Who} (h : Budgeted world left) (locked : world.lock = some who) :
    (world.threads who).program.Meets Call.gives sectionCalls := by
  obtain ⟨budget, inside⟩ := Option.isSome_iff_exists.mp ((h.budgets.1 who).mp locked)
  have keeps := h.keeps who
  have fits := h.budgets.2 who
  rw [inside] at keeps fits
  exact (keeps.meets (fun _ _ => Option.some_ne_none _) fun _ _ => Option.some_ne_none _).mono fits

/-- The holder of the lock stands at a call, and it is not the wait for the lock. -/
theorem Budgeted.stands {who : Who} (h : Budgeted world left) (locked : world.lock = some who) :
    ∃ call next, (world.threads who).program = .call call next ∧ call ≠ .acquire := by
  have meets := h.meets locked
  have keeps := h.keeps who
  obtain ⟨budget, inside⟩ := Option.isSome_iff_exists.mp ((h.budgets.1 who).mp locked)
  cases program : (world.threads who).program with
  | done next =>
      rw [program] at meets
      exact meets.elim
  | fail reason =>
      rw [program] at meets
      exact meets.elim
  | call call next =>
      refine ⟨call, next, rfl, ?_⟩
      rintro rfl
      rw [program, inside] at keeps
      obtain ⟨place, moved, -⟩ := keeps.step ()
      cases moved

/-! ## The guarantees -/

/-- A thread that can take a step. -/
def World.Able (soft : Bool) (iface : LoRaSPIInterface) (world : World) (who : Who) : Prop :=
  ∃ label after, World.Step soft iface world label after ∧ label.mover = some who

/-- A thread in a turn, and not at the wait for the lock, can go on. -/
theorem Orderly.able {places : Places} {who : Who} (h : Orderly world places) {call : Call}
    {next : call.Answer → Worker Next} (here : (world.threads who).program = .call call next)
    (waits : call ≠ .acquire) : world.Able soft iface who := by
  cases inside : (world.threads who).xfer with
  | none =>
      have stands : world.threads who = ⟨.call call next, none⟩ := by
        rw [← here, ← inside]
      by_cases transacts : ∃ payload, call = .radio (.xfer payload)
      · obtain ⟨payload, rfl⟩ := transacts
        exact ⟨_, _, .throws stands, rfl⟩
      · obtain ⟨answer, after, answered⟩ := world.answerable who call waits
          fun payload same => transacts ⟨payload, same⟩
        exact ⟨_, _, .call stands answered, rfl⟩
  | some point =>
      obtain ⟨payload, rest, radio⟩ := h.inside who point inside
      have stands : world.threads who = ⟨.call (.radio (.xfer payload)) rest, some point⟩ := by
        rw [← radio, ← inside]
      rcases xfer_goes_on soft point with ⟨outcome, rfl⟩ | ⟨spi, resume, asks⟩
      · exact ⟨_, _, .leaves stands, rfl⟩
      · obtain ⟨reply, bus, answered, fails⟩ := bus_answerable world.bus spi
        exact ⟨_, _, .bus stands asks answered fun _ => fails, rfl⟩

/-- A thread that has left its loop, by its end or by an error. -/
def Thread.Over (iface : LoRaSPIInterface) (who : Who) (thread : Thread) : Prop :=
  (∃ reason, thread.program = .fail reason) ∨
    ∃ next, thread.program = .done next ∧ ∀ program, ¬Turn iface who next program

/-- A thread waits for `_radio_lock`, and its holder can go on: whatever the calls of the
holder are answered, the release is among its next twelve. -/
structure World.Waits (soft : Bool) (iface : LoRaSPIInterface) (world : World) (who : Who)
    (holder : Who) : Prop where
  waits : ∃ next, world.threads who = ⟨.call .acquire next, none⟩
  holds : world.lock = some holder
  other : holder ≠ who
  able : world.Able soft iface holder
  releases : (world.threads holder).program.Meets Call.gives sectionCalls

/-- In every run, whatever the order of the steps, each thread has left its loop, can take a
step, or waits for a holder of the lock that can. -/
theorem nobody_is_stuck {trace : List Label} (run : (threads soft iface).Run world trace)
    (who : Who) :
    (world.threads who).Over iface who ∨ world.Able soft iface who ∨
      ∃ holder, world.Waits soft iface who holder := by
  obtain ⟨places, orderly⟩ := run_orderly_places run
  obtain ⟨left, budgeted⟩ := run_budgeted run
  have between {next : Next} (here : (world.threads who).program = .done next) :
      (world.threads who).xfer = none := by
    cases inside : (world.threads who).xfer with
    | none => rfl
    | some point =>
        obtain ⟨payload, rest, radio⟩ := orderly.inside who point inside
        cases here.symm.trans radio
  cases here : (world.threads who).program with
  | fail reason => exact Or.inl (Or.inl ⟨reason, here⟩)
  | done next =>
      by_cases goesOn : ∃ program, Turn iface who next program
      · obtain ⟨program, goesOn⟩ := goesOn
        have stands : world.threads who = ⟨.done next, none⟩ := by
          rw [← here, ← between here]
        exact Or.inr (Or.inl ⟨_, _, .turn stands goesOn, rfl⟩)
      · exact Or.inl (Or.inr ⟨next, here, fun program turn => goesOn ⟨program, turn⟩⟩)
  | call call next =>
      by_cases waits : call = .acquire
      swap
      · exact Or.inr (Or.inl (orderly.able here waits))
      subst waits
      have stands : world.threads who = ⟨.call .acquire next, none⟩ := by
        cases inside : (world.threads who).xfer with
        | none => rw [← here, ← inside]
        | some point =>
            obtain ⟨payload, rest, radio⟩ := orderly.inside who point inside
            cases here.symm.trans radio
      cases lock : world.lock with
      | none => exact Or.inr (Or.inl ⟨.call who .acquire (), _, .call stands ⟨lock, rfl⟩, rfl⟩)
      | some holder =>
          obtain ⟨call, rest, calls, moves⟩ := budgeted.stands lock
          refine Or.inr (Or.inr ⟨holder, ⟨next, stands⟩, lock, ?_, orderly.able calls moves,
            budgeted.meets lock⟩)
          rintro rfl
          cases here.symm.trans calls
          exact moves rfl

/-- What a thread between two turns, or at its end, has given back. -/
structure World.GaveBack (world : World) (who : Who) : Prop where
  lock : world.lock ≠ some who
  xfer : (world.threads who).xfer = none
  active : who = .tx → world.active = false

/-- In every run, a thread that is in no turn, however its last one ended, holds neither the
lock nor the bus, and the TX worker has cleared `_tx_active`. -/
theorem nothing_left_behind {trace : List Label} (run : (threads soft iface).Run world trace)
    (who : Who) (rests : ∀ call next, (world.threads who).program ≠ .call call next) :
    world.GaveBack who := by
  obtain ⟨places, orderly⟩ := run_orderly_places run
  obtain ⟨left, budgeted⟩ := run_budgeted run
  refine ⟨fun locked => ?_, ?_, ?_⟩
  · obtain ⟨call, next, stands, -⟩ := budgeted.stands locked
    exact rests call next stands
  · cases inside : (world.threads who).xfer with
    | none => rfl
    | some point =>
        obtain ⟨payload, next, radio⟩ := orderly.inside who point inside
        exact absurd radio (rests _ _)
  · rintro rfl
    have keeps := orderly.keeps .tx
    have outside : places.tx = .outside := by
      cases here : (world.threads .tx).program with
      | call call next => exact absurd here (rests call next)
      | done next =>
          rw [here] at keeps
          exact keeps
      | fail reason =>
          rw [here] at keeps
          exact keeps
    by_contra set
    have active := orderly.active.mp (eq_true_of_ne_false set)
    rw [outside] at active
    exact active

end Invariant

/-- The calls of the program come to the wait for the lock. -/
def waitsForLock : Worker Next → Bool
  | .call .acquire _ => true
  | _ => false

/-- One packet of two bytes to send. -/
def onePacket : Setting := ⟨loraham, willing fun _ => .granted, [0, 0], 0, [0x48, 0x69]⟩

/-- The RX worker takes the lock when the TX worker is about to: the TX worker waits for it,
and neither of the two is stuck. -/
theorem waiting_worker_is_not_stuck :
    ∃ world trace, (threads true loraham).Run world trace ∧
      (world.lock, waitsForLock (world.threads .tx).program) = (some .rx, true) ∧
        ∀ who, (world.threads who).Over loraham who ∨ world.Able true loraham who ∨
          ∃ holder, world.Waits true loraham who holder := by
  have played : (onePacket.play (List.replicate 6 (.caller 0) ++ List.replicate 9 .tx ++
      List.replicate 5 .rx) (.fresh onePacket.iface)).map (fun world =>
        (world.lock, waitsForLock (world.threads .tx).program)) = some (some .rx, true) := by
    decide +kernel
  obtain ⟨world, trace, run, seen⟩ := Setting.reaches played
  exact ⟨world, trace, run, seen, nobody_is_stuck run⟩

/-- The program stands at a call. -/
def inTurn : Worker Next → Bool
  | .call _ _ => true
  | _ => false

/-- Two bytes that a transmission is confirmed with. -/
def onePacketSent : Setting :=
  ⟨loraham, willing fun _ => .granted, [0, Sx127x.irqTxDone], 3, [0x48, 0x69]⟩

/-- The TX worker behind its packet, eleven transfers later. -/
theorem sent_packet_leaves_nothing :
    ∃ world trace, (threads true loraham).Run world trace ∧
      (inTurn (world.threads .tx).program, world.queue.length, world.bus.clocked.length) =
        (false, 0, 11) ∧ world.GaveBack .tx := by
  have played : (onePacketSent.play (List.replicate 6 (.caller 0) ++ List.replicate 107 .tx)
      (.fresh onePacketSent.iface)).map (fun world =>
        (inTurn (world.threads .tx).program, world.queue.length, world.bus.clocked.length)) =
          some (false, 0, 11) := by
    decide +kernel
  obtain ⟨world, trace, run, seen⟩ := Setting.reaches played
  refine ⟨world, trace, run, seen, nothing_left_behind run .tx fun call next here => ?_⟩
  have rests := congrArg Prod.fst seen
  rw [here] at rests
  cases rests

end LorahamRns.Interface
