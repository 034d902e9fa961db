import LorahamRns.Interface.Schedule
import LorahamRns.Interface.Sections
import LorahamRns.Spi.ChipSelect

/-!
# One worker on the radio at a time

Before a shutdown, in every interleaving of the workers, the callers and the peer
processes: transfers are clocked under the bus lock, the workers are never both inside a
transaction, and nothing is polled while `_tx_active` is set.
-/

namespace LorahamRns.Interface

open LorahamRns.Lib LorahamRns.Framing LorahamRns.Radio

/-! ## What a permitted call does -/

inductive RxMove : RxPlace → (call : Call) → call.Answer → RxPlace → Prop where
  | stops {call : Call} (h : call.Stops) (answer : call.Answer) :
      RxMove .outside call answer .outside
  | acquires (answer : Unit) : RxMove .outside .acquire answer .locked
  | looks (active : Bool) : RxMove .locked .readActive active (if active then .locked else .polling)
  | uses (effect : Radio.Effect) (answer : Option effect.Answer) :
      RxMove .polling (.radio effect) answer .polling
  | releases {place : RxPlace} (inside : place ≠ .outside) (answer : Unit) :
      RxMove place .release answer .outside

theorem rxSections_move {place after : RxPlace} {call : Call} {answer : call.Answer}
    (h : rxSections place call answer = some after) : RxMove place call answer after := by
  cases place with
  | outside =>
      cases call with
      | release | setActive | clearActive | radio | closeRadio | closeBus => cases h
      | acquire =>
          cases h
          exact .acquires answer
      | clearRun =>
          cases h
          exact .stops (by exact Or.inr rfl) answer
      | _ =>
          cases h
          exact .stops (by exact Or.inl trivial) answer
  | locked =>
      cases call with
      | readActive =>
          cases h
          exact .looks answer
      | release =>
          cases h
          exact .releases (by decide) answer
      | _ => cases h
  | polling =>
      cases call with
      | radio effect =>
          cases h
          exact .uses effect answer
      | release =>
          cases h
          exact .releases (by decide) answer
      | _ => cases h

theorem RxMove.polling {place after : RxPlace} {effect : Radio.Effect}
    {answer : Option effect.Answer} (h : RxMove place (.radio effect) answer after) :
    place = .polling := by
  cases h with
  | stops stops => exact stops.elim (·.elim) nofun
  | uses => rfl

theorem RxMove.same {place after : RxPlace} {effect : Radio.Effect}
    {answer : Option effect.Answer} (h : RxMove place (.radio effect) answer after) :
    after = place := by
  cases h with
  | stops stops => exact stops.elim (·.elim) nofun
  | uses => rfl

inductive TxMove : TxPlace → (call : Call) → call.Answer → TxPlace → Prop where
  | stops {call : Call} (h : call.Stops) (answer : call.Answer) :
      TxMove .outside call answer .outside
  | enters (answer : Unit) : TxMove .outside .acquire answer .entering
  | sets (answer : Unit) : TxMove .entering .setActive answer .entered
  | keys (answer : Unit) : TxMove .entered .release answer .keyed
  | outside {call : Call} (h : call.Outside) (answer : call.Answer) :
      TxMove .keyed call answer .keyed
  | uses {place : TxPlace} (active : place = .keyed ∨ place = .resuming) (effect : Radio.Effect)
      (answer : Option effect.Answer) : TxMove place (.radio effect) answer place
  | resumes (answer : Unit) : TxMove .keyed .acquire answer .resuming
  | resumed (answer : Unit) : TxMove .resuming .release answer .keyed
  | clears (answer : Unit) : TxMove .keyed .clearActive answer .outside

theorem txSections_move {place after : TxPlace} {call : Call} {answer : call.Answer}
    (h : txSections place call answer = some after) : TxMove place call answer after := by
  cases place with
  | outside =>
      cases call with
      | release | setActive | clearActive | radio | closeRadio | closeBus => cases h
      | acquire =>
          cases h
          exact .enters answer
      | clearRun =>
          cases h
          exact .stops (by exact Or.inr rfl) answer
      | _ =>
          cases h
          exact .stops (by exact Or.inl trivial) answer
  | entering =>
      cases call with
      | setActive =>
          cases h
          exact .sets answer
      | _ => cases h
  | entered =>
      cases call with
      | release =>
          cases h
          exact .keys answer
      | _ => cases h
  | keyed =>
      cases call with
      | release | setActive | clearRun | closeRadio | closeBus => cases h
      | acquire =>
          cases h
          exact .resumes answer
      | clearActive =>
          cases h
          exact .clears answer
      | radio effect =>
          cases h
          exact .uses (Or.inl rfl) effect answer
      | _ =>
          cases h
          exact .outside (by trivial) answer
  | resuming =>
      cases call with
      | radio effect =>
          cases h
          exact .uses (Or.inr rfl) effect answer
      | release =>
          cases h
          exact .resumed answer
      | _ => cases h

theorem TxMove.active {place after : TxPlace} {effect : Radio.Effect}
    {answer : Option effect.Answer} (h : TxMove place (.radio effect) answer after) :
    place.Active := by
  cases h with
  | stops stops => exact stops.elim (·.elim) nofun
  | outside outside => exact outside.elim
  | uses active =>
      rcases active with rfl | rfl
      · trivial
      · trivial

theorem TxMove.same {place after : TxPlace} {effect : Radio.Effect}
    {answer : Option effect.Answer} (h : TxMove place (.radio effect) answer after) :
    after = place := by
  cases h with
  | stops stops => exact stops.elim (·.elim) nofun
  | outside outside => exact outside.elim
  | uses => rfl

/-- What a call leaves of the fields the sections are about. -/
structure Framed (world after : World) : Prop where
  threads : after.threads = world.threads
  run : after.run = world.run
  active : after.active = world.active
  lock : after.lock = world.lock
  bus : after.bus = world.bus
  busOpen : after.busOpen = world.busOpen

theorem World.Answers.outside {who : Who} {call : Call} {world after : World}
    {answer : call.Answer} (answered : World.Answers who call world answer after)
    (h : call.Outside) : Framed world after := by
  cases call with
  | acquire | release | setActive | clearActive | radio | clearRun | closeRadio | closeBus =>
      exact h.elim
  | readRun | readOnline | waitEvent | queueLength | readActive | waitIrq =>
      obtain ⟨-, rfl⟩ := answered
      exact ⟨rfl, rfl, rfl, rfl, rfl, rfl⟩
  | popleft =>
      obtain ⟨-, rfl⟩ := answered
      exact ⟨rfl, rfl, rfl, rfl, rfl, rfl⟩
  | feed frame =>
      obtain ⟨now, -, rfl⟩ := answered
      exact ⟨rfl, rfl, rfl, rfl, rfl, rfl⟩
  | _ =>
      cases answered
      exact ⟨rfl, rfl, rfl, rfl, rfl, rfl⟩

theorem World.Answers.radio {who : Who} {effect : Radio.Effect} {world after : World}
    {answer : Option effect.Answer}
    (answered : World.Answers who (.radio effect) world answer after) : after = world := by
  cases effect with
  | xfer payload => exact answered.elim
  | setTxen on => exact answered.2
  | _ => exact answered

/-! ## The invariant -/

structure Places where
  rx : RxPlace
  tx : TxPlace
  cleared : Bool

/-- A thread keeps to its sections. -/
def Places.Keeps (places : Places) : Who → Worker Next → Prop
  | .rx, program =>
      program.Keeps rxSections (fun _ => (· = .outside)) (fun _ => (· = .outside)) places.rx
  | .tx, program =>
      program.Keeps txSections (fun _ => (· = .outside)) (fun _ => (· = .outside)) places.tx
  | .detacher, program =>
      program.Keeps detachSections (fun _ _ => True) (fun _ _ => True) places.cleared
  | .caller _, program => program.Only Call.Outside

/-- The shared fields at the places of the threads. -/
structure Orderly (world : World) (places : Places) : Prop where
  keeps : ∀ who, places.Keeps who (world.threads who).program
  rxLock : world.lock = some .rx ↔ places.rx ≠ .outside
  txLock : world.lock = some .tx ↔ places.tx.Locked
  active : world.active = true ↔ places.tx.Active
  polling : places.rx = .polling → world.active = false
  inside : ∀ who point, (world.threads who).xfer = some point → ∃ payload next,
    (world.threads who).program = .call (.radio (.xfer payload)) next
  held : world.busOpen = true → ∀ who point, (world.threads who).xfer = some point →
    point.Locked → world.bus.lock = .ours
  closed : world.busOpen = false → world.run = false
  cleared : places.cleared = true → world.run = false

section Invariant

variable {soft : Bool} {iface : LoRaSPIInterface} {world after : World} {places : Places}

theorem World.Initial.orderly (h : world.Initial iface) :
    Orderly world ⟨.outside, .outside, false⟩ := by
  have idle (who : Who) : (world.threads who).xfer = none := by
    cases who with
    | rx => rw [h.rx]
    | tx => rw [h.tx]
    | detacher => rw [h.detacher]
    | caller number => rw [h.caller]
  refine ⟨fun who => ?_, ?_, ?_, ?_, fun _ => h.active, ?_, ?_, ?_, nofun⟩
  · cases who with
    | rx =>
        rw [h.rx]
        exact rfl
    | tx =>
        rw [h.tx]
        exact rfl
    | detacher =>
        rw [h.detacher]
        exact detach_keeps
    | caller number =>
        rw [h.caller]
        trivial
  · simp [h.lock]
  · simp [h.lock, TxPlace.Locked]
  · simp [h.active, TxPlace.Active]
  · intro who point inside
    cases (idle who).symm.trans inside
  · intro _ who point inside
    cases (idle who).symm.trans inside
  · rw [h.bus]
    nofun

/-- A thread that uses the radio is the RX worker polling, or the TX worker with
`_tx_active` set. -/
theorem Orderly.user (h : Orderly world places) {who : Who} {effect : Radio.Effect}
    {next : (Call.radio effect).Answer → Worker Next}
    (here : (world.threads who).program = .call (.radio effect) next) :
    who = .rx ∧ places.rx = .polling ∨ who = .tx ∧ places.tx.Active := by
  have keeps := h.keeps who
  rw [here] at keeps
  cases who with
  | rx =>
      obtain ⟨after, moved, -⟩ := keeps.step none
      exact Or.inl ⟨rfl, (rxSections_move moved).polling⟩
  | tx =>
      obtain ⟨after, moved, -⟩ := keeps.step none
      exact Or.inr ⟨rfl, (txSections_move moved).active⟩
  | detacher =>
      obtain ⟨after, moved, -⟩ := keeps.step none
      cases places.cleared <;> cases moved
  | caller number => exact keeps.1.elim

/-- Two threads at a call of the radio are one. -/
theorem Orderly.exclusive (h : Orderly world places) {first second : Who}
    {effect other : Radio.Effect} {next : (Call.radio effect).Answer → Worker Next}
    {next' : (Call.radio other).Answer → Worker Next}
    (one : (world.threads first).program = .call (.radio effect) next)
    (two : (world.threads second).program = .call (.radio other) next') : first = second := by
  have apart (polling : places.rx = .polling) (active : places.tx.Active) : False := by
    have set := h.active.mpr active
    rw [h.polling polling] at set
    cases set
  rcases h.user one with ⟨rfl, polling⟩ | ⟨rfl, active⟩
  · rcases h.user two with ⟨rfl, -⟩ | ⟨rfl, active⟩
    · rfl
    · exact (apart polling active).elim
  · rcases h.user two with ⟨rfl, polling⟩ | ⟨rfl, -⟩
    · exact (apart polling active).elim
    · rfl

/-- Two threads inside a transaction are one. -/
theorem Orderly.alone (h : Orderly world places) {first second : Who} {point other : Spi.Xfer}
    (one : (world.threads first).xfer = some point)
    (two : (world.threads second).xfer = some other) : first = second := by
  obtain ⟨payload, next, here⟩ := h.inside first point one
  obtain ⟨payload', next', there⟩ := h.inside second other two
  exact h.exclusive here there

/-- A thread outside transactions makes a call: what remains to be shown of the fields. -/
theorem Orderly.called {who : Who} {program : Worker Next} {places' : Places}
    (h : Orderly world places) (threads : after.threads = world.threads)
    (keeps : places'.Keeps who program)
    (others : ∀ other ≠ who, ∀ program, places.Keeps other program → places'.Keeps other program)
    (rxLock : after.lock = some .rx ↔ places'.rx ≠ .outside)
    (txLock : after.lock = some .tx ↔ places'.tx.Locked)
    (active : after.active = true ↔ places'.tx.Active)
    (polling : places'.rx = .polling → after.active = false)
    (bus : after.busOpen = true → world.busOpen = true ∧ after.bus.lock = world.bus.lock)
    (closed : after.busOpen = false → after.run = false)
    (cleared : places'.cleared = true → after.run = false) :
    Orderly (after.goTo who ⟨program, none⟩) places' where
  keeps other := by
    by_cases same : other = who
    · rw [same, World.goTo_self]
      exact keeps
    · rw [World.goTo_other _ _ same, threads]
      exact others other same _ (h.keeps other)
  rxLock := rxLock
  txLock := txLock
  active := active
  polling := polling
  inside other point inside := by
    by_cases same : other = who
    · rw [same, World.goTo_self] at inside
      cases inside
    · rw [World.goTo_other _ _ same, threads] at inside ⊢
      exact h.inside other point inside
  held opened other point inside locked := by
    obtain ⟨opened, lock⟩ := bus opened
    by_cases same : other = who
    · rw [same, World.goTo_self] at inside
      cases inside
    · rw [World.goTo_other _ _ same, threads] at inside
      exact lock.trans (h.held opened other point inside locked)
  closed := closed
  cleared := cleared

/-- A call that none of the sections is about. -/
theorem Orderly.outside {who : Who} {program : Worker Next} (h : Orderly world places)
    (framed : Framed world after) (keeps : places.Keeps who program) :
    Orderly (after.goTo who ⟨program, none⟩) places := by
  refine h.called framed.threads keeps (fun _ _ _ keeps => keeps) ?_ ?_ ?_ ?_ ?_ ?_ ?_
  · rw [framed.lock]
    exact h.rxLock
  · rw [framed.lock]
    exact h.txLock
  · rw [framed.active]
    exact h.active
  · rw [framed.active]
    exact h.polling
  · rw [framed.busOpen, framed.bus]
    exact fun opened => ⟨opened, rfl⟩
  · rw [framed.busOpen, framed.run]
    exact h.closed
  · rw [framed.run]
    exact h.cleared

theorem Orderly.stops {who : Who} {call : Call} {answer : call.Answer} {program : Worker Next}
    (h : Orderly world places) (stops : call.Stops)
    (answered : World.Answers who call world answer after) (keeps : places.Keeps who program) :
    Orderly (after.goTo who ⟨program, none⟩) places := by
  rcases stops with outside | rfl
  · exact h.outside (answered.outside outside) keeps
  · obtain rfl : after = { world with run := false } := answered
    exact h.called rfl keeps (fun _ _ _ keeps => keeps) h.rxLock h.txLock h.active h.polling
      (fun opened => ⟨opened, rfl⟩) (fun _ => rfl) fun _ => rfl

/-- The RX worker makes a call. -/
theorem Orderly.rxCall {call : Call} {answer : call.Answer} {place : RxPlace}
    {program : Worker Next} (h : Orderly world places)
    (move : RxMove places.rx call answer place)
    (answered : World.Answers .rx call world answer after)
    (keeps : { places with rx := place }.Keeps .rx program) :
    Orderly (after.goTo .rx ⟨program, none⟩) { places with rx := place } := by
  obtain ⟨rx, tx, cleared⟩ := places
  have others : ∀ other ≠ Who.rx, ∀ program, Places.Keeps ⟨rx, tx, cleared⟩ other program →
      Places.Keeps ⟨place, tx, cleared⟩ other program := by
    intro other ne program keeps
    cases other with
    | rx => exact absurd rfl ne
    | tx | detacher | caller => exact keeps
  dsimp only at move keeps ⊢
  cases move with
  | stops stops => exact h.stops stops answered keeps
  | acquires =>
      obtain ⟨free, rfl⟩ := answered
      have unlocked : ¬tx.Locked := fun locked => by
        cases free.symm.trans (h.txLock.mpr locked)
      exact h.called rfl keeps others (by simp) (by simp [unlocked]) h.active nofun
        (fun opened => ⟨opened, rfl⟩) h.closed h.cleared
  | looks =>
      obtain ⟨rfl, rfl⟩ := answered
      have lock := h.rxLock.mpr nofun
      refine h.called rfl keeps others ?_ h.txLock h.active (fun polling => ?_)
        (fun opened => ⟨opened, rfl⟩) h.closed h.cleared
      · refine iff_of_true lock ?_
        dsimp only
        split <;> decide
      · dsimp only at polling
        split at polling
        · cases polling
        · exact eq_false_of_ne_true (by assumption)
  | uses effect =>
      obtain rfl := answered.radio
      exact h.called rfl keeps others h.rxLock h.txLock h.active h.polling
        (fun opened => ⟨opened, rfl⟩) h.closed h.cleared
  | releases inside =>
      obtain rfl : after = { world with lock := none } := answered
      have unlocked : ¬tx.Locked := fun locked => by
        cases (h.rxLock.mpr inside).symm.trans (h.txLock.mpr locked)
      exact h.called rfl keeps others (by simp) (by simp [unlocked]) h.active nofun
        (fun opened => ⟨opened, rfl⟩) h.closed h.cleared

/-- The TX worker makes a call. -/
theorem Orderly.txCall {call : Call} {answer : call.Answer} {place : TxPlace}
    {program : Worker Next} (h : Orderly world places)
    (move : TxMove places.tx call answer place)
    (answered : World.Answers .tx call world answer after)
    (keeps : { places with tx := place }.Keeps .tx program) :
    Orderly (after.goTo .tx ⟨program, none⟩) { places with tx := place } := by
  obtain ⟨rx, tx, cleared⟩ := places
  have others : ∀ other ≠ Who.tx, ∀ program, Places.Keeps ⟨rx, tx, cleared⟩ other program →
      Places.Keeps ⟨rx, place, cleared⟩ other program := by
    intro other ne program keeps
    cases other with
    | tx => exact absurd rfl ne
    | rx | detacher | caller => exact keeps
  have still : ({ world with } : World).busOpen = true →
      world.busOpen = true ∧ world.bus.lock = world.bus.lock := fun opened => ⟨opened, rfl⟩
  -- a lock that is free or ours is not the RX worker's
  have notRx (lock : world.lock ≠ some .rx) : rx = .outside :=
    not_not.mp fun inside => lock (h.rxLock.mpr inside)
  have notRxLocked (locked : tx.Locked) : rx = .outside := by
    refine notRx ?_
    rw [h.txLock.mpr locked]
    nofun
  dsimp only at move keeps ⊢
  cases move with
  | stops stops => exact h.stops stops answered keeps
  | outside outside => exact h.outside (answered.outside outside) keeps
  | enters =>
      obtain ⟨free, rfl⟩ := answered
      obtain rfl := notRx (by rw [free]; nofun)
      exact h.called rfl keeps others (by simp) (by simp [TxPlace.Locked]) h.active nofun still
        h.closed h.cleared
  | sets =>
      obtain rfl : after = { world with active := true } := answered
      obtain rfl := notRxLocked trivial
      exact h.called rfl keeps others h.rxLock h.txLock (by simp [TxPlace.Active]) nofun still
        h.closed h.cleared
  | keys =>
      obtain rfl : after = { world with lock := none } := answered
      obtain rfl := notRxLocked trivial
      exact h.called rfl keeps others (by simp) (by simp [TxPlace.Locked]) h.active nofun still
        h.closed h.cleared
  | uses active effect =>
      obtain rfl := answered.radio
      exact h.called rfl keeps others h.rxLock h.txLock h.active h.polling still h.closed h.cleared
  | resumes =>
      obtain ⟨free, rfl⟩ := answered
      obtain rfl := notRx (by rw [free]; nofun)
      exact h.called rfl keeps others (by simp) (by simp [TxPlace.Locked]) h.active nofun still
        h.closed h.cleared
  | resumed =>
      obtain rfl : after = { world with lock := none } := answered
      obtain rfl := notRxLocked trivial
      exact h.called rfl keeps others (by simp) (by simp [TxPlace.Locked]) h.active nofun still
        h.closed h.cleared
  | clears =>
      obtain rfl : after = { world with active := false } := answered
      exact h.called rfl keeps others h.rxLock h.txLock (by simp [TxPlace.Active]) (fun _ => rfl)
        still h.closed h.cleared

/-- `detach` makes a call. -/
theorem Orderly.detacherCall {call : Call} {answer : call.Answer} {cleared : Bool}
    {program : Worker Next} (h : Orderly world places)
    (moved : detachSections places.cleared call answer = some cleared)
    (answered : World.Answers .detacher call world answer after)
    (keeps : { places with cleared := cleared }.Keeps .detacher program) :
    Orderly (after.goTo .detacher ⟨program, none⟩) { places with cleared := cleared } := by
  obtain ⟨rx, tx, before⟩ := places
  have others : ∀ other ≠ Who.detacher, ∀ program,
      Places.Keeps ⟨rx, tx, before⟩ other program →
        Places.Keeps ⟨rx, tx, cleared⟩ other program := by
    intro other ne program keeps
    cases other with
    | detacher => exact absurd rfl ne
    | rx | tx | caller => exact keeps
  dsimp only at moved keeps ⊢
  cases call with
  | acquire | release | setActive | clearActive | radio => cases before <;> cases moved
  | clearRun =>
      obtain rfl : after = { world with run := false } := answered
      exact h.called rfl keeps others h.rxLock h.txLock h.active h.polling
        (fun opened => ⟨opened, rfl⟩) (fun _ => rfl) fun _ => rfl
  | closeRadio =>
      obtain rfl : after = { world with linesOpen := false } := answered
      cases before <;> cases moved
      exact h.called rfl keeps others h.rxLock h.txLock h.active h.polling
        (fun opened => ⟨opened, rfl⟩) h.closed h.cleared
  | closeBus =>
      cases answered
      cases before <;> cases moved
      exact h.called rfl keeps others h.rxLock h.txLock h.active h.polling nofun
        (fun _ => h.cleared rfl) h.cleared
  | _ =>
      have same : cleared = before := by
        cases before <;> exact (Option.some_inj.mp moved).symm
      subst same
      exact h.outside (answered.outside trivial) keeps

/-- A thread makes a call. -/
theorem Orderly.call {who : Who} {call : Call} {answer : call.Answer}
    {next : call.Answer → Worker Next} (h : Orderly world places)
    (here : world.threads who = ⟨.call call next, none⟩)
    (answered : World.Answers who call world answer after) :
    ∃ places, Orderly (after.goTo who ⟨next answer, none⟩) places := by
  have keeps := h.keeps who
  rw [here] at keeps
  cases who with
  | rx =>
      obtain ⟨place, moved, keeps⟩ := keeps.step answer
      exact ⟨_, h.rxCall (rxSections_move moved) answered keeps⟩
  | tx =>
      obtain ⟨place, moved, keeps⟩ := keeps.step answer
      exact ⟨_, h.txCall (txSections_move moved) answered keeps⟩
  | detacher =>
      obtain ⟨cleared, moved, keeps⟩ := keeps.step answer
      exact ⟨_, h.detacherCall moved answered keeps⟩
  | caller number =>
      have keeps' : places.Keeps (.caller number) (next answer) := keeps.2 answer
      exact ⟨_, h.outside (answered.outside keeps.1) keeps'⟩

/-- A call of the radio comes back. -/
theorem Orderly.resumed {who : Who} {effect : Radio.Effect}
    {next : (Call.radio effect).Answer → Worker Next} (h : Orderly world places)
    (here : (world.threads who).program = .call (.radio effect) next)
    (answer : Option effect.Answer) :
    Orderly (world.goTo who ⟨next answer, none⟩) places := by
  have keeps := h.keeps who
  rw [here] at keeps
  have stays : places.Keeps who (next answer) := by
    cases who with
    | rx =>
        obtain ⟨place, moved, keeps⟩ := keeps.step answer
        rw [(rxSections_move moved).same] at keeps
        exact keeps
    | tx =>
        obtain ⟨place, moved, keeps⟩ := keeps.step answer
        rw [(txSections_move moved).same] at keeps
        exact keeps
    | detacher =>
        rcases h.user here with ⟨other, -⟩ | ⟨other, -⟩
        · cases other
        · cases other
    | caller number => exact keeps.1.elim
  exact h.called rfl stays (fun _ _ _ keeps => keeps) h.rxLock h.txLock h.active h.polling
    (fun opened => ⟨opened, rfl⟩) h.closed h.cleared

/-- A thread goes on inside its transaction. -/
theorem Orderly.transacts {who : Who} {program : Worker Next} {xfer : Option Spi.Xfer}
    {point : Spi.Xfer} {bus : Spi.Bus} (h : Orderly world places)
    (here : world.threads who = ⟨program, xfer⟩)
    (radio : ∃ payload next, program = .call (.radio (.xfer payload)) next)
    (alone : ∀ other ≠ who, ∀ point, (world.threads other).xfer = some point →
      point.Locked → bus.lock = world.bus.lock)
    (held : world.busOpen = true → point.Locked → bus.lock = .ours) :
    Orderly ({ world with bus }.goTo who ⟨program, some point⟩) places where
  keeps other := by
    by_cases same : other = who
    · subst same
      have keeps := h.keeps other
      rw [here] at keeps
      rw [World.goTo_self]
      exact keeps
    · rw [World.goTo_other _ _ same]
      exact h.keeps other
  rxLock := h.rxLock
  txLock := h.txLock
  active := h.active
  polling := h.polling
  inside other point inside := by
    by_cases same : other = who
    · rw [same, World.goTo_self]
      exact radio
    · rw [World.goTo_other _ _ same] at inside ⊢
      exact h.inside other point inside
  held opened other point inside locked := by
    by_cases same : other = who
    · rw [same, World.goTo_self] at inside
      obtain rfl := Option.some_inj.mp inside
      exact held opened locked
    · rw [World.goTo_other _ _ same] at inside
      exact (alone other same point inside locked).trans (h.held opened other point inside locked)
  closed := h.closed
  cleared := h.cleared

/-- A transaction that holds the lock behind a call has taken it, or held it before. -/
theorem held_answer {bus after : Spi.Bus} {point : Spi.Xfer} {call : Spi.Call}
    {resume : call.Reply → Spi.Xfer} {reply : call.Reply} (held : point.Locked → bus.lock = .ours)
    (asks : point.next soft = .call call resume) (answered : Spi.Bus.Answers call bus reply after)
    (locked : (resume reply).Locked) : after.lock = .ours := by
  cases point with
  | begin payload =>
      cases asks
      exact locked.elim
  | locking payload deadline =>
      cases asks
      cases reply with
      | granted =>
          obtain ⟨-, rfl⟩ := answered
          rfl
      | again => exact locked.elim
      | failed => exact locked.elim
  | contended payload deadline =>
      cases asks
      dsimp only at locked
      split at locked
      · exact locked.elim
      · exact locked.elim
  | asserting payload =>
      cases asks
      obtain ⟨pin, -, rfl⟩ := answered
      exact held trivial
  | clocking payload =>
      cases asks
      obtain rfl : after = _ := answered
      exact held trivial
  | releasing outcome =>
      cases asks
      obtain ⟨pin, -, rfl⟩ := answered
      exact held trivial
  | unlocking outcome =>
      cases asks
      exact locked.elim
  | returned outcome => cases asks

/-- A turn of a thread ends and the next begins. -/
theorem Orderly.turn {who : Who} {next : Next} {program : Worker Next}
    (h : Orderly world places) (here : world.threads who = ⟨.done next, none⟩)
    (goesOn : Turn iface who next program) : Orderly (world.goTo who ⟨program, none⟩) places := by
  have keeps := h.keeps who
  rw [here] at keeps
  have starts : places.Keeps who program := by
    obtain ⟨rx, tx, cleared⟩ := places
    cases goesOn with
    | rx =>
        obtain rfl : rx = .outside := keeps
        exact rxKeeps_turn
    | outer =>
        obtain rfl : tx = .outside := keeps
        exact txKeeps_outer
    | inner fuel =>
        obtain rfl : tx = .outside := keeps
        exact txKeeps_inner fuel
    | caller number data => exact processOutgoing_outside data
  exact h.called rfl starts (fun _ _ _ keeps => keeps) h.rxLock h.txLock h.active h.polling
    (fun opened => ⟨opened, rfl⟩) h.closed h.cleared

/-- A peer process moves. -/
theorem Orderly.peer {bus : Spi.Bus} (h : Orderly world places)
    (moved : Spi.Bus.PeerStep world.bus bus) : Orderly { world with bus } places where
  keeps := h.keeps
  rxLock := h.rxLock
  txLock := h.txLock
  active := h.active
  polling := h.polling
  inside := h.inside
  held opened who point inside locked :=
    absurd (h.held opened who point inside locked) moved.frame.1
  closed := h.closed
  cleared := h.cleared

theorem Orderly.step {label : Label} (h : Orderly world places)
    (taken : World.Step soft iface world label after) : ∃ places, Orderly after places := by
  cases taken with
  | call here answered => exact h.call here answered
  | @enters who payload next here =>
      exact ⟨_, h.transacts here ⟨payload, next, rfl⟩ (fun _ _ _ _ _ => rfl) fun _ => False.elim⟩
  | @bus who program point call resume reply bus here asks answered closed =>
      have inside : (world.threads who).xfer = some point := by rw [here]
      obtain ⟨payload, next, radio⟩ := h.inside who point inside
      rw [here] at radio
      refine ⟨_, h.transacts here ⟨payload, next, radio⟩ (fun other ne point there _ => ?_)
        fun opened locked => ?_⟩
      · exact absurd (h.alone there inside) ne
      · exact held_answer (h.held opened who point inside) asks answered locked
  | leaves here => exact ⟨_, h.resumed (by rw [here]) _⟩
  | throws here => exact ⟨_, h.resumed (by rw [here]) _⟩
  | turn here goesOn => exact ⟨_, h.turn here goesOn⟩
  | peer moved => exact ⟨_, h.peer moved⟩

/-- In every run the shared fields fit the places of the threads. -/
theorem run_orderly_places {trace : List Label} (run : (threads soft iface).Run world trace) :
    ∃ places, Orderly world places := by
  induction run with
  | start initial => exact ⟨_, World.Initial.orderly initial⟩
  | step _ taken ih =>
      obtain ⟨_, h⟩ := ih
      exact h.step taken

/-! ## The guarantee -/

/-- A thread that takes a step of a radio call stands at that call. -/
theorem Label.UsesRadio.here {label : Label} {who : Who} (h : Orderly world places)
    (uses : label.UsesRadio who) (taken : World.Step soft iface world label after) :
    ∃ effect next, (world.threads who).program = .call (.radio effect) next := by
  cases taken with
  | @call _ _ call next _ here _ =>
      cases call with
      | radio effect =>
          obtain rfl := uses
          exact ⟨effect, next, by rw [here]⟩
      | _ => exact uses.elim
  | @enters _ payload next here =>
      obtain rfl := uses
      exact ⟨_, next, by rw [here]⟩
  | bus here _ _ _ =>
      obtain rfl := uses
      obtain ⟨payload, next, radio⟩ := h.inside _ _ (by rw [here])
      exact ⟨_, next, radio⟩
  | @leaves _ payload _ next here =>
      obtain rfl := uses
      exact ⟨_, next, by rw [here]⟩
  | @throws _ payload next here =>
      obtain rfl := uses
      exact ⟨_, next, by rw [here]⟩
  | turn => exact uses.elim
  | peer => exact uses.elim

theorem locked_of_clocking {point : Spi.Xfer} {payload : List ℤ}
    {resume : (Spi.Call.xfer2 payload).Reply → Spi.Xfer}
    (asks : point.next soft = .call (.xfer2 payload) resume) : point.Locked := by
  cases point with
  | clocking => trivial
  | _ => cases asks

/-- A transfer is clocked by a thread inside its locked transaction. -/
theorem clocking_locked {who : Who} {payload : List ℤ}
    {reply : (Spi.Call.xfer2 payload).Reply}
    (taken : World.Step soft iface world (.bus who (.xfer2 payload) reply) after) :
    ∃ point, (world.threads who).xfer = some point ∧ point.Locked := by
  cases taken with
  | bus here asks answered closed => exact ⟨_, by rw [here], locked_of_clocking asks⟩

/-- What the two workers and the peers rely on. -/
structure World.Exclusive (soft : Bool) (iface : LoRaSPIInterface) (world : World) : Prop where
  clocked : ∀ who payload reply after,
    World.Step soft iface world (.bus who (.xfer2 payload) reply) after → world.bus.lock = .ours
  alone : ∀ first second, (world.threads first).xfer.isSome →
    (world.threads second).xfer.isSome → first = second
  polling : ∀ label after, World.Step soft iface world label after → label.UsesRadio .rx →
    world.active = false

/-- Before any shutdown, in every interleaving: every transfer is clocked while this process
holds the bus lock, at most one thread is inside a transaction, and `poll_rx` takes no step
while `_tx_active` is set. -/
theorem one_worker_on_the_radio {trace : List Label}
    (run : (threads soft iface).Run world trace) (up : world.run = true) :
    world.Exclusive soft iface := by
  obtain ⟨places, h⟩ := run_orderly_places run
  have opened : world.busOpen = true := by
    by_contra closed
    cases up.symm.trans (h.closed (eq_false_of_ne_true closed))
  refine ⟨fun who payload reply after taken => ?_, fun first second one two => ?_,
    fun label after taken uses => ?_⟩
  · obtain ⟨point, inside, locked⟩ := clocking_locked taken
    exact h.held opened who point inside locked
  · obtain ⟨point, one⟩ := Option.isSome_iff_exists.mp one
    obtain ⟨other, two⟩ := Option.isSome_iff_exists.mp two
    exact h.alone one two
  · obtain ⟨effect, next, here⟩ := uses.here h taken
    rcases h.user here with ⟨-, polling⟩ | ⟨other, -⟩
    · exact h.polling polling
    · cases other

end Invariant

/-- Nothing has been received and nothing is sent. -/
def quietAir : Setting := ⟨loraham, willing fun _ => .granted, [0, 0], 0, []⟩

/-- The RX worker in the middle of its first status read: the transfer is about to be
clocked. -/
theorem first_poll_holds_the_bus :
    ∃ world trace, (threads true loraham).Run world trace ∧
      (world.run, (world.threads .rx).xfer.isSome) = (true, true) ∧
        world.Exclusive true loraham := by
  have played : (quietAir.play (List.replicate 10 .rx) (.fresh quietAir.iface)).map
      (fun world => (world.run, (world.threads .rx).xfer.isSome)) = some (true, true) := by
    decide +kernel
  obtain ⟨world, trace, run, seen⟩ := Setting.reaches played
  exact ⟨world, trace, run, seen, one_worker_on_the_radio run (congrArg Prod.fst seen)⟩

end LorahamRns.Interface
