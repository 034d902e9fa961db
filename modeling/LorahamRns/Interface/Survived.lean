import LorahamRns.Interface.Worker

/-!
# Exceptions the TX worker survives

The journal of a TX worker lists its calls with their answers.  A worker that logs an
exception and goes on must have left `_tx_active` clear and the radio receiving; it has
exactly when the exception came before the standby command of its packet's first frame.
-/

namespace LorahamRns.Interface

open LorahamRns.Lib LorahamRns.Framing LorahamRns.Radio
open Program (keeps_bind keeps_rescue keeps_ensuring keeps_ofExcept)

/-! ## Mode commands -/

/-- What a mode command selects; `idle` is sleep or standby. -/
inductive Mode where
  | idle
  | transmit
  | receive
  deriving DecidableEq

/-- The mode a transaction selects where it is a mode command of the chip: a write of
`RegOpMode`, or one of `SetStandby`, `SetTx` and `SetRx`. -/
def modeSent (chip : Chip) (payload : List ℤ) : Option Mode :=
  match chip with
  | .sx1276 | .sx1277 | .sx1278 =>
      match payload with
      | [address, value] =>
          if address = ((Sx127x.regOpMode ||| 0x80 : ℕ) : ℤ) then
            some (if value % 8 = Sx127x.modeRxCont then .receive
              else if value % 8 = Sx127x.modeTx then .transmit else .idle)
          else none
      | _ => none
  | .sx1262 =>
      match payload with
      | opcode :: _ =>
          if opcode = Sx1262.cmdSetStandby then some .idle
          else if opcode = Sx1262.cmdSetTx then some .transmit
          else if opcode = Sx1262.cmdSetRx then some .receive
          else none
      | [] => none

/-! ## Journals -/

/-- A call, its answer, and whether the interface was still online then. -/
structure Exchange where
  call : Call
  answer : call.Answer
  online : Bool

/-- The calls of a worker, newest first. -/
abbrev Journal : Type := List Exchange

/-- Every call is recorded, whatever its answer.  An interface that went offline does not
come back. -/
def journal : Program.Environment Call Call.Answer Journal :=
  fun call entries answer after => ∃ online, after = ⟨call, answer, online⟩ :: entries ∧
    (online = true → ∀ earlier ∈ entries, earlier.online = true)

/-- The mode a transaction of the journal selected. -/
def Exchange.mode (chip : Chip) : Exchange → Option Mode
  | ⟨.radio (.xfer payload), some (some _), _⟩ => modeSent chip payload
  | _ => none

/-- `_tx_active`. -/
def activeAfter : Journal → Bool
  | [] => false
  | ⟨.setActive, _, _⟩ :: _ => true
  | ⟨.clearActive, _, _⟩ :: _ => false
  | _ :: earlier => activeAfter earlier

/-- The last mode command sent; `__init__` left the radio in continuous reception. -/
def lastMode (chip : Chip) : Journal → Mode
  | [] => .receive
  | exchange :: earlier => (exchange.mode chip).getD (lastMode chip earlier)

/-- A mode command other than continuous reception went out since a packet was last taken
from the queue. -/
def leftReceive (chip : Chip) : Journal → Bool
  | [] => false
  | ⟨.popleft, _, _⟩ :: _ => false
  | exchange :: earlier =>
      (match exchange.mode chip with
        | some .idle | some .transmit => true
        | _ => false) || leftReceive chip earlier

/-- The worker wrote the log line of an exception it goes on after, the interface being
online. -/
def Exchange.Survives : Exchange → Prop
  | ⟨.log .txBlocked, true, true⟩ | ⟨.log .txError, true, true⟩ => True
  | _ => False

/-- Every exception the worker went on after left `_tx_active` clear and the radio in
continuous reception. -/
def KeepsReceiving (chip : Chip) (entries : Journal) : Prop :=
  ∀ later survived earlier, entries = later ++ survived :: earlier → survived.Survives →
    activeAfter (survived :: earlier) = false ∧ lastMode chip (survived :: earlier) = .receive

/-- Every such exception came before the standby command of its packet's first frame. -/
def CaughtEarly (chip : Chip) (entries : Journal) : Prop :=
  ∀ later survived earlier, entries = later ++ survived :: earlier → survived.Survives →
    leftReceive chip earlier = false

/-! ## The worker's turns -/

/-- The TX worker through any number of turns, each with its own fuel. -/
def txLoop (iface : LoRaSPIInterface) : List ℕ → Next → Worker Next
  | [], next => .done next
  | _ :: fuels, .outer => txOuter.bind (txLoop iface fuels)
  | fuel :: fuels, .inner => (txInner iface fuel).bind (txLoop iface fuels)
  | _ :: _, .ended => .done .ended
  | _ :: _, .failed cause => .done (.failed cause)

/-! ## What the journal says at each stage -/

/-- How far the transmission of the last packet is.  `lost` is a worker that went on
without having come back to reception. -/
inductive Stage where
  | resting
  | keyed
  | back
  | lost
  deriving DecidableEq

/-- `_tx_active` and the stage. -/
structure Place where
  active : Bool
  stage : Stage

/-- After a mode command. -/
def Place.sent (place : Place) : Mode → Option Place
  | .receive => if place.stage = .keyed then some { place with stage := .back } else none
  | _ => if place.stage = .resting ∨ place.stage = .keyed then some { place with stage := .keyed }
      else none

/-- After the log line of an exception that was caught. -/
def Place.survived (place : Place) : Option Place :=
  if place.active then none
  else if place.stage = .resting then some place
  else if place.stage = .keyed then some { place with stage := .lost }
  else none

/-- Follows a worker through the stages; it never logs an exception while `_tx_active` is
set, and none comes after the return to reception. -/
def stages (chip : Chip) : Monitor Call Call.Answer Place
  | place, .setActive, _ => some { place with active := true }
  | place, .clearActive, _ => some { place with active := false }
  | place, .popleft, _ => if place.stage = .keyed then none else some { place with stage := .resting }
  | place, .log .txBlocked, true => place.survived
  | place, .log .txError, true => place.survived
  | place, .radio (.xfer payload), some (some _) =>
      match modeSent chip payload with
      | none => some place
      | some mode => place.sent mode
  | place, _, _ => some place

/-- What the journal says at a place. -/
structure Place.Describes (chip : Chip) (place : Place) (entries : Journal) : Prop where
  verdict : KeepsReceiving chip entries ↔ CaughtEarly chip entries
  active : activeAfter entries = place.active
  resting : place.stage = .resting → leftReceive chip entries = false
  keyed : place.stage = .keyed →
    leftReceive chip entries = true ∧ lastMode chip entries ≠ .receive
  receiving : place.stage ≠ .keyed → CaughtEarly chip entries →
    (∀ entry ∈ entries, entry.online = true) → lastMode chip entries = .receive

/-- A property of every split of a list, one entry longer. -/
theorem forall_split_cons {α : Type} {holds : α → List α → Prop} {head : α} {tail : List α} :
    (∀ later entry earlier, head :: tail = later ++ entry :: earlier → holds entry earlier) ↔
      holds head tail ∧
        ∀ later entry earlier, tail = later ++ entry :: earlier → holds entry earlier := by
  refine ⟨fun h => ⟨h [] head tail rfl, fun later entry earlier same => ?_⟩,
    fun ⟨first, rest⟩ later entry earlier same => ?_⟩
  · exact h (head :: later) entry earlier (congrArg (head :: ·) same)
  · cases later with
    | nil =>
        obtain ⟨rfl, rfl⟩ := List.cons_eq_cons.mp same
        exact first
    | cons other later => exact rest later entry earlier (List.cons_eq_cons.mp same).2

section Describes

variable {chip : Chip} {place next : Place} {entries : Journal} {exchange : Exchange}

theorem keepsReceiving_cons :
    KeepsReceiving chip (exchange :: entries) ↔
      (exchange.Survives → activeAfter (exchange :: entries) = false ∧
        lastMode chip (exchange :: entries) = .receive) ∧ KeepsReceiving chip entries :=
  forall_split_cons

theorem caughtEarly_cons :
    CaughtEarly chip (exchange :: entries) ↔
      (exchange.Survives → leftReceive chip entries = false) ∧ CaughtEarly chip entries :=
  forall_split_cons

/-- An exchange that is no caught exception leaves the verdict. -/
theorem Place.Describes.verdict_cons (h : place.Describes chip entries)
    (calm : ¬exchange.Survives) :
    KeepsReceiving chip (exchange :: entries) ↔ CaughtEarly chip (exchange :: entries) := by
  rw [keepsReceiving_cons, caughtEarly_cons, h.verdict]
  exact and_congr_left' (iff_of_true (fun survives => absurd survives calm)
    fun survives => absurd survives calm)

/-- The last mode is still the one before, and `receiving` with it. -/
theorem Place.Describes.receiving_cons (h : place.Describes chip entries)
    (steady : exchange.mode chip = none) (away : place.stage ≠ .keyed)
    (early : CaughtEarly chip (exchange :: entries))
    (online : ∀ entry ∈ exchange :: entries, entry.online = true) :
    lastMode chip (exchange :: entries) = .receive := by
  have same : lastMode chip (exchange :: entries) = lastMode chip entries := by
    simp [lastMode, steady]
  rw [same]
  exact h.receiving away (caughtEarly_cons.mp early).2 fun entry member =>
    online entry (List.mem_cons_of_mem _ member)

/-- An exchange that none of the journal's readings looks at. -/
theorem Place.Describes.quiet (h : place.Describes chip entries)
    (active : activeAfter (exchange :: entries) = activeAfter entries)
    (steady : exchange.mode chip = none)
    (left : leftReceive chip (exchange :: entries) = leftReceive chip entries)
    (calm : ¬exchange.Survives) : place.Describes chip (exchange :: entries) where
  verdict := h.verdict_cons calm
  active := active.trans h.active
  resting stage := left.trans (h.resting stage)
  keyed stage := by
    rw [left, lastMode, steady]
    exact h.keyed stage
  receiving away := h.receiving_cons steady away

/-- A change of `_tx_active`. -/
theorem Place.Describes.setting (h : place.Describes chip entries) (active : Bool)
    (changed : activeAfter (exchange :: entries) = active)
    (steady : exchange.mode chip = none)
    (left : leftReceive chip (exchange :: entries) = leftReceive chip entries)
    (calm : ¬exchange.Survives) :
    { place with active := active }.Describes chip (exchange :: entries) where
  verdict := h.verdict_cons calm
  active := changed
  resting stage := left.trans (h.resting stage)
  keyed stage := by
    rw [left, lastMode, steady]
    exact h.keyed stage
  receiving away := h.receiving_cons steady away

/-- A mode command that went out. -/
theorem Place.Describes.sent {payload : List ℤ} {received : List ℕ} {online : Bool} {mode : Mode}
    (h : place.Describes chip entries) (selects : modeSent chip payload = some mode)
    (moved : place.sent mode = some next) :
    next.Describes chip (⟨.radio (.xfer payload), some (some received), online⟩ :: entries) := by
  have last : lastMode chip (⟨.radio (.xfer payload), some (some received), online⟩ :: entries) =
      mode := by
    simp [lastMode, Exchange.mode, selects]
  have left (other : mode ≠ .receive) :
      leftReceive chip (⟨.radio (.xfer payload), some (some received), online⟩ :: entries) =
        true := by
    cases mode with
    | receive => exact absurd rfl other
    | idle => simp [leftReceive, Exchange.mode, selects]
    | transmit => simp [leftReceive, Exchange.mode, selects]
  have verdict : KeepsReceiving chip (⟨.radio (.xfer payload), some (some received), online⟩ ::
      entries) ↔ CaughtEarly chip (⟨.radio (.xfer payload), some (some received), online⟩ ::
        entries) :=
    h.verdict_cons fun survives => survives
  have away (other : mode ≠ .receive)
      (moved : (if place.stage = .resting ∨ place.stage = .keyed
        then some { place with stage := .keyed } else none) = some next) :
      next.Describes chip (⟨.radio (.xfer payload), some (some received), online⟩ :: entries) := by
    obtain ⟨_, same⟩ := Option.ite_none_right_eq_some.mp moved
    obtain rfl := Option.some_inj.mp same
    exact ⟨verdict, h.active, nofun, fun _ => ⟨left other, last ▸ other⟩, fun keyed => absurd rfl keyed⟩
  cases mode with
  | receive =>
      obtain ⟨_, same⟩ := Option.ite_none_right_eq_some.mp moved
      obtain rfl := Option.some_inj.mp same
      exact ⟨verdict, h.active, nofun, nofun, fun _ _ _ => last⟩
  | idle => exact away (by decide) moved
  | transmit => exact away (by decide) moved

/-- The log line of a caught exception. -/
theorem Place.Describes.survived {notice : Notice} {online : Bool}
    (h : place.Describes chip entries) (caught : notice = .txBlocked ∨ notice = .txError)
    (moved : place.survived = some next)
    (stays : online = true → ∀ earlier ∈ entries, earlier.online = true) :
    next.Describes chip (⟨.log notice, true, online⟩ :: entries) := by
  have active : activeAfter (⟨.log notice, true, online⟩ :: entries) = activeAfter entries := rfl
  have last : lastMode chip (⟨.log notice, true, online⟩ :: entries) = lastMode chip entries := rfl
  have left : leftReceive chip (⟨.log notice, true, online⟩ :: entries) =
      leftReceive chip entries := rfl
  have survives : Exchange.Survives ⟨.log notice, true, online⟩ ↔ online = true := by
    rcases caught with rfl | rfl
    · cases online <;> simp [Exchange.Survives]
    · cases online <;> simp [Exchange.Survives]
  unfold Place.survived at moved
  by_cases busy : place.active = true
  · rw [if_pos busy] at moved
    cases moved
  rw [if_neg busy] at moved
  have clear : activeAfter entries = false := h.active.trans (eq_false_of_ne_true busy)
  by_cases resting : place.stage = .resting
  · rw [if_pos resting] at moved
    obtain rfl := Option.some_inj.mp moved
    have receiving := h.receiving (by rw [resting]; decide)
    refine ⟨?_, active.trans h.active, fun _ => left.trans (h.resting resting), ?_, ?_⟩
    · rw [keepsReceiving_cons, caughtEarly_cons, survives, active, last, h.verdict]
      exact ⟨fun ⟨_, early⟩ => ⟨fun _ => h.resting resting, early⟩, fun ⟨_, early⟩ =>
        ⟨fun up => ⟨clear, receiving early (stays up)⟩, early⟩⟩
    · intro keyed
      cases resting.symm.trans keyed
    · exact fun away early all => last.trans (receiving (caughtEarly_cons.mp early).2
        fun entry member => all entry (List.mem_cons_of_mem _ member))
  · rw [if_neg resting] at moved
    obtain ⟨keyed, same⟩ := Option.ite_none_right_eq_some.mp moved
    obtain rfl := Option.some_inj.mp same
    obtain ⟨leftAlready, notReceiving⟩ := h.keyed keyed
    refine ⟨?_, active.trans h.active, nofun, nofun, fun _ early all => ?_⟩
    · rw [keepsReceiving_cons, caughtEarly_cons, survives, active, last, h.verdict]
      refine and_congr_left' (imp_congr_right fun _ => iff_of_false ?_ ?_)
      · exact fun both => notReceiving both.2
      · rw [leftAlready]
        decide
    · have up : online = true := all _ List.mem_cons_self
      have unkeyed := (caughtEarly_cons.mp early).1 (survives.mpr up)
      cases leftAlready.symm.trans unkeyed

/-- A packet is taken from the queue. -/
theorem Place.Describes.popleft {packet : Option Packet} {online : Bool}
    (h : place.Describes chip entries) (away : place.stage ≠ .keyed) :
    { place with stage := .resting }.Describes chip (⟨.popleft, packet, online⟩ :: entries) where
  verdict := h.verdict_cons fun survives => survives
  active := h.active
  resting _ := rfl
  keyed := nofun
  receiving _ := h.receiving_cons rfl away

/-- The stages follow the journal. -/
theorem Place.Describes.step {call : Call} {answer : call.Answer} {after : Journal}
    (h : place.Describes chip entries) (recorded : journal call entries answer after)
    (moved : stages chip place call answer = some next) : next.Describes chip after := by
  obtain ⟨online, rfl, stays⟩ := recorded
  have quiet (active : activeAfter (⟨call, answer, online⟩ :: entries) = activeAfter entries)
      (steady : (⟨call, answer, online⟩ : Exchange).mode chip = none)
      (left : leftReceive chip (⟨call, answer, online⟩ :: entries) = leftReceive chip entries)
      (calm : ¬Exchange.Survives ⟨call, answer, online⟩) (same : some place = some next) :
      next.Describes chip (⟨call, answer, online⟩ :: entries) := by
    obtain rfl := Option.some_inj.mp same
    exact h.quiet active steady left calm
  cases call with
  | setActive =>
      obtain rfl := Option.some_inj.mp moved
      exact h.setting true rfl rfl rfl fun survives => survives
  | clearActive =>
      obtain rfl := Option.some_inj.mp moved
      exact h.setting false rfl rfl rfl fun survives => survives
  | popleft =>
      obtain ⟨away, same⟩ := Option.ite_none_left_eq_some.mp moved
      obtain rfl := Option.some_inj.mp same
      exact h.popleft away
  | log notice =>
      cases answer with
      | false => cases notice <;> exact quiet rfl rfl rfl (fun survives => survives) moved
      | true =>
          cases notice with
          | txBlocked => exact h.survived (.inl rfl) moved stays
          | txError => exact h.survived (.inr rfl) moved stays
          | _ => exact quiet rfl rfl rfl (fun survives => survives) moved
  | radio effect =>
      cases effect with
      | xfer payload =>
          match answer with
          | none => exact quiet rfl rfl rfl (fun survives => survives) moved
          | some none => exact quiet rfl rfl rfl (fun survives => survives) moved
          | some (some received) =>
              cases selects : modeSent chip payload with
              | none =>
                  have steady : Exchange.mode chip
                      ⟨.radio (.xfer payload), some (some received), online⟩ = none := selects
                  refine quiet rfl steady ?_ (fun survives => survives) ?_
                  · simp [leftReceive, steady]
                  · simpa [stages, selects] using moved
              | some mode => exact h.sent selects (by simpa [stages, selects] using moved)
      | _ => exact quiet rfl rfl rfl (fun survives => survives) moved
  | _ => exact quiet rfl rfl rfl (fun survives => survives) moved

end Describes

/-! ## Driver calls that send no mode command -/

/-- A driver effect that is no mode command. -/
def Steady (chip : Chip) (effect : Radio.Effect) : Prop :=
  ∀ payload, effect = .xfer payload → modeSent chip payload = none

section Steady

variable {chip : Chip}

theorem steady_xfer {payload : List ℤ} (h : modeSent chip payload = none) :
    (xfer payload).Only (Steady chip) := by
  refine ⟨fun other same => ?_, fun reply => ?_⟩
  · cases same
    exact h
  · cases reply <;> trivial

theorem steady_require {effect : Radio.Effect} {succeeded : effect.Answer → Bool}
    (h : ∀ payload, effect ≠ .xfer payload) : (require effect succeeded).Only (Steady chip) := by
  refine ⟨fun payload same => absurd same (h payload), fun reply => ?_⟩
  dsimp only
  split <;> trivial

theorem steady_setTxen (profile : Profile) (on : Bool) :
    (setTxen profile on).Only (Steady chip) := by
  unfold setTxen
  split
  · exact steady_require nofun
  · trivial

theorem steady_monotonic : monotonic.Only (Steady chip) := ⟨nofun, fun _ => trivial⟩

theorem steady_sleep (seconds : ℚ) : (sleep seconds).Only (Steady chip) := ⟨nofun, fun _ => trivial⟩

theorem steady_index (bytes : List ℕ) (place : ℕ) : (index bytes place).Only (Steady chip) := by
  unfold index
  split <;> trivial

theorem steady_deadlineIn (timeoutS : ℚ) : (deadlineIn timeoutS).Only (Steady chip) :=
  steady_monotonic.bind fun _ => trivial

theorem steady_checkLength (data : List UInt8) : (checkLength data).Only (Steady chip) := by
  unfold checkLength
  split <;> trivial

end Steady

namespace Sx127x

open Radio.Sx127x

variable {chip : Chip} (register : chip ≠ .sx1262)

include register

theorem modeSent_eq (payload : List ℤ) : modeSent chip payload = modeSent .sx1276 payload := by
  cases chip with
  | sx1262 => exact absurd rfl register
  | _ => rfl

theorem steady_write {reg : ℕ} (value : ℤ) (other : reg ||| 0x80 ≠ regOpMode ||| 0x80) :
    (write reg value).Only (Steady chip) := by
  refine (steady_xfer ?_).bind fun _ => trivial
  rw [modeSent_eq register]
  exact if_neg fun same => other (by exact_mod_cast same)

theorem steady_read (reg : ℕ) : (read reg).Only (Steady chip) := by
  refine (steady_xfer ?_).bind fun received => steady_index received 1
  rw [modeSent_eq register]
  refine if_neg fun same => ?_
  have same' : reg % 0x80 = 0x81 := by exact_mod_cast same
  omega

theorem steady_pollTxDone (deadline : ℚ) (polls : ℕ) :
    (pollTxDone deadline polls).Only (Steady chip) := by
  induction polls with
  | zero => exact steady_monotonic.bind fun _ => trivial
  | succ polls ih =>
      refine steady_monotonic.bind fun now => ?_
      split
      · trivial
      refine (steady_read register _).bind fun flags => ?_
      split
      · exact (steady_write register _ (by decide)).bind fun _ => trivial
      · exact (steady_sleep _).bind fun _ => ih

end Sx127x

namespace Sx1262

open Radio.Sx1262

theorem steady_waitBusy : waitBusy.Only (Steady .sx1262) := steady_require nofun

theorem steady_cmd {opcode : ℤ} (params : List ℤ)
    (other : ∀ params, modeSent .sx1262 (opcode :: params) = none) :
    (cmd opcode params).Only (Steady .sx1262) :=
  steady_waitBusy.bind fun _ => (steady_xfer (other params)).bind fun _ => trivial

theorem steady_query {opcode : ℤ} (count : ℕ) (params : List ℤ)
    (other : ∀ params, modeSent .sx1262 (opcode :: params) = none) :
    (query opcode count params).Only (Steady .sx1262) :=
  steady_waitBusy.bind fun _ => (steady_xfer (other _)).bind fun _ => trivial

theorem steady_irqStatus : irqStatus.Only (Steady .sx1262) :=
  (steady_query _ _ fun _ => rfl).bind fun _ => trivial

theorem steady_pollTxDone (deadline : ℚ) (polls : ℕ) :
    (pollTxDone deadline polls).Only (Steady .sx1262) := by
  induction polls with
  | zero => exact steady_monotonic.bind fun _ => trivial
  | succ polls ih =>
      refine steady_monotonic.bind fun now => ?_
      split
      · trivial
      refine steady_irqStatus.bind fun irq => ?_
      split
      · exact (steady_cmd _ fun _ => rfl).bind fun _ => trivial
      split
      · exact (steady_cmd _ fun _ => rfl).bind fun _ => trivial
      · exact (steady_sleep _).bind fun _ => ih

end Sx1262

/-! ## The stages of a transmission -/

/-- The radio has been taken for transmitting and is not back in reception. -/
def Place.Out (place : Place) : Prop :=
  place.active = true ∧ (place.stage = .resting ∨ place.stage = .keyed)

/-- The place of a transmission whose radio has left reception. -/
def keyedPlace : Place := ⟨true, .keyed⟩

theorem keyedPlace_out : keyedPlace.Out := ⟨rfl, Or.inr rfl⟩

theorem Place.Out.sent {place : Place} {mode : Mode} (h : place.Out) (other : mode ≠ .receive) :
    place.sent mode = some keyedPlace := by
  obtain ⟨active, stage⟩ := place
  obtain ⟨rfl, staged⟩ := h
  cases mode with
  | receive => exact absurd rfl other
  | idle => exact if_pos staged
  | transmit => exact if_pos staged

section Walk

variable {chip : Chip} {α : Type}

theorem stages_steady {effect : Radio.Effect} (h : Steady chip effect) (place : Place)
    (reply : Option effect.Answer) : stages chip place (.radio effect) reply = some place := by
  cases effect with
  | xfer payload =>
      match reply with
      | none | some none => rfl
      | some (some received) => simp [stages, h payload rfl]
  | _ => rfl

theorem keeps_steady {program : Driver α} (h : program.Only (Steady chip)) (place : Place) :
    (drive program).Keeps (stages chip) (fun _ => (· = place)) (fun _ => (· = place)) place := by
  refine (only_drive h).keeps fun call reply permitted => ?_
  obtain ⟨effect, rfl, steady⟩ := permitted
  exact stages_steady steady place reply

/-- A mode command: where it leads if it goes out, and where a fault leaves the worker. -/
theorem keeps_sent {payload : List ℤ} {mode : Mode} {place next : Place}
    (selects : modeSent chip payload = some mode) (moved : place.sent mode = some next) :
    (drive (xfer payload)).Keeps (stages chip) (fun _ => (· = next)) (fun _ => (· = place))
      place := by
  intro reply
  match reply with
  | none => exact ⟨place, rfl, rfl⟩
  | some none => exact ⟨place, rfl, rfl⟩
  | some (some received) => exact ⟨next, by simp [stages, selects, moved], rfl⟩

/-- The shape both drivers share: loading leaves reception, nothing behind it comes back. -/
theorem keeps_guarded {profile : Profile} {prepare start : Driver Unit} {body : ℚ → Driver Bool}
    {timeoutS : ℚ} {place : Place}
    (loads : (drive prepare).Keeps (stages chip) (fun _ => (· = keyedPlace)) (fun _ => Place.Out)
      place)
    (starts : (drive start).Keeps (stages chip) (fun _ => (· = keyedPlace))
      (fun _ => (· = keyedPlace)) keyedPlace)
    (polls : ∀ deadline, (body deadline).Only (Steady chip)) :
    (Guarded.within drive ⟨prepare.bind fun _ => (setTxen profile true).bind fun _ =>
        start.bind fun _ => deadlineIn timeoutS, body, setTxen profile false⟩).Keeps (stages chip)
      (fun _ => (· = keyedPlace)) (fun _ => Place.Out) place := by
  have out (place : Place) (same : place = keyedPlace) : place.Out := same ▸ keyedPlace_out
  refine keeps_bind ?_
  simp only [drive_bind]
  refine keeps_bind (loads.mono (fun _ place same => ?_) fun _ _ out => out)
  subst same
  refine keeps_bind ((keeps_steady (steady_setTxen profile true) keyedPlace).mono
    (fun _ place same => ?_) fun _ => out)
  subst same
  refine keeps_bind (starts.mono (fun _ place same => ?_) fun _ => out)
  subst same
  refine (keeps_steady (steady_deadlineIn timeoutS) keyedPlace).mono
    (fun deadline place same => ?_) fun _ => out
  subst same
  refine keeps_ensuring ((keeps_steady (polls deadline) keyedPlace).mono
    (fun sent place same => ?_) fun _ place same => ?_)
  · subst same
    exact (keeps_steady (steady_setTxen profile false) keyedPlace).mono (fun _ _ same => same)
      fun _ => out
  · subst same
    exact (keeps_steady (steady_setTxen profile false) keyedPlace).mono (fun _ => out) fun _ => out

end Walk

namespace Sx127x

open Radio.Sx127x

variable {chip : Chip} (register : chip ≠ .sx1262)

include register

/-- A mode write keeps the LoRa bit and the bank next to the mode. -/
theorem modeSent_mode (frequency : ℤ) {value : ℤ} (selected : Mode)
    (selects : ∀ bank ∈ [modeLowFreq, 0], modeSent .sx1276
      [((regOpMode ||| 0x80 : ℕ) : ℤ), lowByte (modeLora.lor (Int.lor bank value))] =
        some selected) :
    modeSent chip
      [((regOpMode ||| 0x80 : ℕ) : ℤ), lowByte (modeLora.lor ((lfBit frequency).lor value))] =
        some selected := by
  rw [modeSent_eq register]
  refine selects _ ?_
  unfold lfBit
  split
  · exact List.mem_cons_self
  · exact List.mem_cons_of_mem _ List.mem_cons_self

theorem keeps_mode (frequency : ℤ) {value : ℤ} (selected : Mode) {place next : Place}
    (selects : ∀ bank ∈ [modeLowFreq, 0], modeSent .sx1276
      [((regOpMode ||| 0x80 : ℕ) : ℤ), lowByte (modeLora.lor (Int.lor bank value))] =
        some selected)
    (moved : place.sent selected = some next) :
    (drive (mode (lfBit frequency) value)).Keeps (stages chip) (fun _ => (· = next))
      (fun _ => (· = place)) place := by
  change (drive ((xfer _).bind fun _ => .done ())).Keeps _ _ _ _
  rw [drive_bind]
  exact keeps_bind (keeps_sent (modeSent_mode register frequency selected selects) moved)

theorem keeps_load (frequency : ℤ) (data : List UInt8) {place : Place} (h : place.Out) :
    (drive (load frequency data)).Keeps (stages chip) (fun _ => (· = keyedPlace))
      (fun _ => Place.Out) place := by
  have out (place : Place) (same : place = keyedPlace) : place.Out := same ▸ keyedPlace_out
  have rest : Program.Only (Steady chip) (do
      write regIrqFlags 0xFF
      write regFifoAddrPtr 0x00
      let _ ← xfer (((regFifo ||| 0x80 : ℕ) : ℤ) :: byteList data)
      write regPayloadLength data.length) := by
    refine (steady_write register _ (by decide)).bind fun _ =>
      (steady_write register _ (by decide)).bind fun _ => Program.Only.bind (steady_xfer ?_)
        fun _ => steady_write register _ (by decide)
    rw [modeSent_eq register]
    match byteList data with
    | [] | [_] | _ :: _ :: _ => rfl
  change (drive ((checkLength data).bind fun _ => (mode _ _).bind fun _ => _)).Keeps _ _ _ _
  simp only [drive_bind]
  refine keeps_bind ((keeps_steady (steady_checkLength data) place).mono
    (fun _ here same => ?_) fun _ here same => same ▸ h)
  subst same
  refine keeps_bind ((keeps_mode register frequency .idle (by decide) (h.sent (by decide))).mono
    (fun _ here same => ?_) fun _ here same => same ▸ h)
  subst same
  exact (keeps_steady rest keyedPlace).mono (fun _ _ same => same) fun _ => out

theorem keeps_startRx (frequency : ℤ) :
    (drive (startRx frequency)).Keeps (stages chip) (fun _ => (· = ⟨true, .back⟩))
      (fun _ => (· = keyedPlace)) keyedPlace := by
  change (drive ((write _ _).bind fun _ => (write _ _).bind fun _ => mode _ _)).Keeps _ _ _ _
  simp only [drive_bind]
  refine keeps_bind ((keeps_steady (steady_write register _ (by decide)) keyedPlace).mono
    (fun _ here same => ?_) fun _ _ same => same)
  subst same
  refine keeps_bind ((keeps_steady (steady_write register _ (by decide)) keyedPlace).mono
    (fun _ here same => ?_) fun _ _ same => same)
  subst same
  exact keeps_mode register frequency .receive (by decide) rfl

end Sx127x

namespace Sx1262

open Radio.Sx1262

theorem keeps_cmd {opcode : ℤ} {params : List ℤ} {selected : Mode} {place next : Place}
    (selects : modeSent .sx1262 (opcode :: params) = some selected)
    (moved : place.sent selected = some next) :
    (drive (cmd opcode params)).Keeps (stages .sx1262) (fun _ => (· = next))
      (fun _ => (· = place)) place := by
  change (drive (waitBusy.bind fun _ => (xfer _).bind fun _ => .done ())).Keeps _ _ _ _
  simp only [drive_bind]
  refine keeps_bind ((keeps_steady steady_waitBusy place).mono
    (fun _ here same => ?_) fun _ _ same => same)
  subst same
  exact keeps_bind (keeps_sent selects moved)

theorem keeps_load (preamble : ℤ) (data : List UInt8) {place : Place} (h : place.Out) :
    (drive (load preamble data)).Keeps (stages .sx1262) (fun _ => (· = keyedPlace))
      (fun _ => Place.Out) place := by
  have out (place : Place) (same : place = keyedPlace) : place.Out := same ▸ keyedPlace_out
  have rest : Program.Only (Steady .sx1262) (do
      cmd cmdClearIrqStatus [0xFF, 0xFF]
      setPacketParams preamble data.length
      cmd cmdWriteBuffer (0x00 :: byteList data)) :=
    (steady_cmd _ fun _ => rfl).bind fun _ => (steady_cmd _ fun _ => rfl).bind fun _ =>
      steady_cmd _ fun _ => rfl
  change (drive ((checkLength data).bind fun _ => (cmd _ _).bind fun _ => _)).Keeps _ _ _ _
  simp only [drive_bind]
  refine keeps_bind ((keeps_steady (steady_checkLength data) place).mono
    (fun _ here same => ?_) fun _ here same => same ▸ h)
  subst same
  refine keeps_bind ((keeps_cmd rfl (h.sent (by decide))).mono
    (fun _ here same => ?_) fun _ here same => same ▸ h)
  subst same
  exact (keeps_steady rest keyedPlace).mono (fun _ _ same => same) fun _ => out

theorem keeps_startRx :
    (drive startRx).Keeps (stages .sx1262) (fun _ => (· = ⟨true, .back⟩))
      (fun _ => (· = keyedPlace)) keyedPlace := by
  change (drive ((cmd _ _).bind fun _ => cmd _ _)).Keeps _ _ _ _
  simp only [drive_bind]
  refine keeps_bind ((keeps_steady (steady_cmd _ fun _ => rfl) keyedPlace).mono
    (fun _ here same => ?_) fun _ _ same => same)
  subst same
  exact keeps_cmd rfl rfl

end Sx1262

section Chips

variable (iface : LoRaSPIInterface)

/-- Every board: a frame takes the radio out of reception and leaves it there. -/
theorem keeps_transmit (frame : Bytes) (timeoutS : ℚ) (polls : ℕ) {place : Place}
    (h : place.Out) :
    ((Radio.transmit iface.profile iface.settings frame timeoutS polls).within drive).Keeps
      (stages iface.profile.chip) (fun _ => (· = keyedPlace)) (fun _ => Place.Out) place := by
  have early (register : iface.profile.chip ≠ .sx1262) :
      ((Sx127x.transmit iface.profile iface.settings.frequency frame timeoutS polls).within
        drive).Keeps (stages iface.profile.chip) (fun _ => (· = keyedPlace)) (fun _ => Place.Out)
        place :=
    keeps_guarded (Sx127x.keeps_load register _ _ h)
      (Sx127x.keeps_mode register _ .transmit (by decide) rfl)
      (fun deadline => Sx127x.steady_pollTxDone register deadline polls)
  unfold Radio.transmit
  split
  · next same => exact early (by simp [same])
  · next same => exact early (by simp [same])
  · next same => exact early (by simp [same])
  · next same =>
      rw [same]
      exact keeps_guarded (Sx1262.keeps_load _ _ h) (Sx1262.keeps_cmd rfl rfl)
        (fun deadline => Sx1262.steady_pollTxDone deadline polls)

/-- Every board: `start_rx` brings the radio back, or raises on the way. -/
theorem keeps_startRx :
    (drive (Radio.startRx iface.profile iface.settings)).Keeps (stages iface.profile.chip)
      (fun _ => (· = ⟨true, .back⟩)) (fun _ => (· = keyedPlace)) keyedPlace := by
  unfold Radio.startRx
  split
  · next same => exact Sx127x.keeps_startRx (by simp [same]) _
  · next same => exact Sx127x.keeps_startRx (by simp [same]) _
  · next same => exact Sx127x.keeps_startRx (by simp [same]) _
  · next same =>
      rw [same]
      exact Sx1262.keeps_startRx

end Chips

/-! ## The stages of a turn -/

/-- A worker between two packets. -/
def Place.Home (place : Place) : Prop := place.active = false ∧ place.stage ≠ .keyed

/-- A worker whose packet has failed: the handlers have yet to run. -/
def Place.Thrown (place : Place) : Prop :=
  place.active = false ∧ (place.stage = .resting ∨ place.stage = .keyed)

section Turn

variable {iface : LoRaSPIInterface} {chip : Chip} {α : Type}

/-- The calls that none of the stages looks at. -/
def Call.Plain : Call → Prop
  | .setActive | .clearActive | .popleft | .radio _ => False
  | .log notice => notice ≠ .txBlocked ∧ notice ≠ .txError
  | _ => True

theorem stages_plain {call : Call} (plain : call.Plain) (place : Place) (reply : call.Answer) :
    stages chip place call reply = some place := by
  cases call with
  | log notice =>
      cases notice with
      | txBlocked => exact absurd rfl plain.1
      | txError => exact absurd rfl plain.2
      | _ => cases reply <;> rfl
  | setActive | clearActive | popleft | radio => exact plain.elim
  | _ => rfl

theorem keeps_plain {program : Worker α} (h : program.Only Call.Plain) (place : Place) :
    program.Keeps (stages chip) (fun _ => (· = place)) (fun _ => (· = place)) place :=
  h.keeps fun _ reply plain => stages_plain plain place reply

theorem framesOf_plain (data : Bytes) : (framesOf iface data).Only Call.Plain :=
  (framesOf_only iface data).mono fun _ same => same ▸ trivial

theorem hold_plain (packet : Packet) (toa : ℚ) (tries : ℕ) :
    (hold packet toa tries).Only Call.Plain := by
  refine (hold_only packet toa tries).mono fun call kind => ?_
  rcases kind with rfl | rfl | rfl | rfl
  · trivial
  · trivial
  · exact ⟨by decide, by decide⟩
  · trivial

theorem noteSent_plain (frame : Bytes) (confirmed : Bool) :
    (noteSent frame confirmed).Only Call.Plain := by
  refine (noteSent_only frame confirmed).mono fun call kind => ?_
  rcases kind with rfl | rfl
  · exact ⟨by decide, by decide⟩
  · trivial

theorem fail_plain (cause : Raised) : (fail cause).Only Call.Plain := by
  refine (fail_only cause).mono fun call kind => ?_
  rcases kind with rfl | rfl | rfl | rfl | rfl | rfl
  · trivial
  · trivial
  · trivial
  · trivial
  · trivial
  · exact ⟨by decide, by decide⟩

/-- The frames of a packet, from a place in it on. -/
theorem keeps_sendFrames (timeoutS : ℚ) (polls : ℕ) (frames : List Bytes) (first : ℕ)
    {place : Place} (h : place.Out) (some : place = keyedPlace ∨ frames ≠ []) :
    (sendFrames iface timeoutS polls first frames).Keeps (stages iface.profile.chip)
      (fun _ => (· = keyedPlace)) (fun _ => Place.Out) place := by
  have out (place : Place) (same : place = keyedPlace) : place.Out := same ▸ keyedPlace_out
  induction frames generalizing first place with
  | nil => exact some.resolve_right fun ne => ne rfl
  | cons frame rest ih =>
      intro reply
      refine ⟨place, rfl, keeps_bind ((keeps_transmit iface frame timeoutS polls h).mono
        (fun confirmed here same => ?_) fun _ _ out => out)⟩
      subst same
      refine keeps_bind ((keeps_plain (noteSent_plain frame confirmed) keyedPlace).mono
        (fun _ here same => ?_) fun _ => out)
      subst same
      exact ih _ keyedPlace_out (Or.inl rfl)

theorem keeps_framesOf (data : Bytes) (place : Place) :
    (framesOf iface data).Keeps (stages chip) (fun frames here => here = place ∧ frames ≠ [])
      (fun _ => (· = place)) place := by
  unfold framesOf
  split
  · refine fun random => ⟨place, rfl, ?_⟩
    dsimp only
    split
    · next frames same => exact ⟨rfl, frame_ne_nil same⟩
    · exact rfl
  · exact ⟨rfl, List.cons_ne_nil _ _⟩

theorem keeps_keyUp (timeoutS : ℚ) (polls : ℕ) {frames : List Bytes} (some : frames ≠ []) :
    (keyUp iface timeoutS polls frames).Keeps (stages iface.profile.chip)
      (fun _ => Place.Home) (fun _ => Place.Thrown) ⟨true, .resting⟩ := by
  have thrown (place : Place) (out : place.Out) :
      Place.Thrown { place with active := false } := ⟨rfl, out.2⟩
  refine keeps_ensuring (keeps_bind ((keeps_sendFrames timeoutS polls frames 0 ⟨rfl, Or.inl rfl⟩
    (Or.inr some)).mono (fun _ place same => ?_) fun reason place out reply =>
      ⟨_, rfl, thrown place out⟩))
  subst same
  refine fun reply => ⟨keyedPlace, rfl, keeps_ensuring ((keeps_startRx iface).mono
    (fun _ place same => ?_) fun _ place same => ?_)⟩
  · subst same
    exact fun reply => ⟨_, rfl, fun reply => ⟨_, rfl, rfl, by decide⟩⟩
  · subst same
    exact fun reply => ⟨_, rfl, fun reply => ⟨_, rfl, thrown _ keyedPlace_out⟩⟩

theorem keeps_attempt (packet : Packet) (fuel : ℕ) :
    (transmit iface packet fuel).Keeps (stages iface.profile.chip)
      (fun _ => Place.Home) (fun _ => Place.Thrown) ⟨false, .resting⟩ := by
  have thrown (place : Place) (same : place = ⟨false, .resting⟩) : place.Thrown :=
    same ▸ ⟨rfl, Or.inl rfl⟩
  refine keeps_bind ((keeps_framesOf packet.data _).mono (fun frames place h => ?_) fun _ => thrown)
  obtain ⟨rfl, some⟩ := h
  refine keeps_bind (keeps_ofExcept (fun toa _ => ?_) fun _ _ => thrown _ rfl)
  refine keeps_bind ((keeps_plain (hold_plain packet toa fuel) _).mono
    (fun granted place same => ?_) fun _ => thrown)
  subst same
  cases granted with
  | false => exact ⟨rfl, by decide⟩
  | true => exact fun reply => ⟨_, rfl, fun reply => ⟨_, rfl, fun reply => ⟨_, rfl,
      keeps_keyUp _ fuel some⟩⟩⟩

/-- The handlers go on only from a place between two packets. -/
theorem keeps_txHandler {place : Place} (h : place.Thrown) (reason : Raised) :
    (txHandler reason).Keeps (stages chip)
      (fun next here => (∀ cause, next ≠ .failed cause) → here.Home) (fun _ _ => True) place := by
  have returns (cause : Raised) : (failAndReturn cause).Keeps (stages chip)
      (fun next here => (∀ cause, next ≠ .failed cause) → here.Home) (fun _ _ => True) place :=
    keeps_bind ((keeps_plain (fail_plain cause) place).mono
      (fun _ _ _ goes => absurd rfl (goes cause)) fun _ _ _ => trivial)
  have caught : ∃ next, place.survived = some next ∧ next.Home := by
    obtain ⟨active, stage⟩ := place
    obtain ⟨rfl, rfl | rfl⟩ := h
    · exact ⟨_, rfl, rfl, by decide⟩
    · exact ⟨_, rfl, rfl, by decide⟩
  have goesOn (notice : Notice) (either : notice = .txBlocked ∨ notice = .txError) :
      ((log notice).bind fun _ => .done .inner : Worker Next).Keeps (stages chip)
        (fun next here => (∀ cause, next ≠ .failed cause) → here.Home) (fun _ _ => True)
        place := by
    intro reply
    cases reply with
    | false =>
        rcases either with rfl | rfl
        · exact ⟨place, rfl, trivial⟩
        · exact ⟨place, rfl, trivial⟩
    | true =>
        obtain ⟨next, moved, home⟩ := caught
        rcases either with rfl | rfl
        · exact ⟨next, moved, fun _ => home⟩
        · exact ⟨next, moved, fun _ => home⟩
  cases reason with
  | spiBus => exact returns .spiBus
  | radio => exact returns .radio
  | duty => exact goesOn .txBlocked (Or.inl rfl)
  | other => exact goesOn .txError (Or.inr rfl)

theorem keeps_txPacket (packet : Packet) (fuel : ℕ) :
    (txPacket iface packet fuel).Keeps (stages iface.profile.chip)
      (fun next here => (∀ cause, next ≠ .failed cause) → here.Home) (fun _ _ => True)
      ⟨false, .resting⟩ :=
  keeps_rescue (keeps_bind ((keeps_attempt packet fuel).mono (fun _ _ home _ => home)
    fun reason _ thrown => keeps_txHandler thrown reason))

theorem keeps_txOuter {place : Place} (h : place.Home) :
    txOuter.Keeps (stages chip) (fun _ => Place.Home) (fun _ _ => True) place := by
  intro run
  cases run with
  | false => exact ⟨place, rfl, h⟩
  | true => exact ⟨place, rfl, fun _ => ⟨place, rfl, fun _ => ⟨place, rfl, h⟩⟩⟩

theorem keeps_txInner (fuel : ℕ) {place : Place} (h : place.Home) :
    (txInner iface fuel).Keeps (stages iface.profile.chip)
      (fun next here => (∀ cause, next ≠ .failed cause) → here.Home) (fun _ _ => True) place := by
  refine fun length => ⟨place, rfl, ?_⟩
  dsimp only
  split
  · exact fun _ => h
  refine fun run => ⟨place, rfl, ?_⟩
  cases run with
  | false => exact fun _ => h
  | true =>
      intro packet
      refine ⟨{ place with stage := .resting }, if_neg h.2, ?_⟩
      cases packet with
      | none => trivial
      | some packet =>
          obtain ⟨active, stage⟩ := place
          obtain ⟨rfl, _⟩ := h
          exact keeps_txPacket packet fuel

/-- Every run of the TX worker keeps to the stages. -/
theorem keeps_txLoop (fuels : List ℕ) (next : Next) {place : Place}
    (h : (∀ cause, next ≠ .failed cause) → place.Home) :
    (txLoop iface fuels next).Keeps (stages iface.profile.chip) (fun _ _ => True) (fun _ _ => True)
      place := by
  induction fuels generalizing next place with
  | nil => trivial
  | cons fuel fuels ih =>
      cases next with
      | outer =>
          exact keeps_bind ((keeps_txOuter (h nofun)).mono (fun next _ home => ih next fun _ => home)
            fun _ _ _ => trivial)
      | inner =>
          exact keeps_bind ((keeps_txInner fuel (h nofun)).mono (fun next _ home => ih next home)
            fun _ _ _ => trivial)
      | ended => trivial
      | failed cause => trivial

end Turn

/-! ## The verdict -/

/-- In every run of the TX worker, whatever its calls come back with: every exception it
goes on after leaves `_tx_active` clear and the radio in continuous reception exactly when
every one came before the standby command of its packet's first frame. -/
theorem survived_receiving_iff (iface : LoRaSPIInterface) (fuels : List ℕ) :
    (txLoop iface fuels .outer).wp journal
      (fun entries => KeepsReceiving iface.profile.chip entries ↔
        CaughtEarly iface.profile.chip entries)
      (fun _ entries => KeepsReceiving iface.profile.chip entries ↔
        CaughtEarly iface.profile.chip entries)
      (fun _ entries => KeepsReceiving iface.profile.chip entries ↔
        CaughtEarly iface.profile.chip entries) [] := by
  have start : Place.Describes iface.profile.chip ⟨false, .back⟩ [] := by
    refine ⟨iff_of_true ?_ ?_, rfl, nofun, nofun, fun _ _ _ => rfl⟩
    · intro later survived earlier same
      cases later <;> cases same
    · intro later survived earlier same
      cases later <;> cases same
  have described := (keeps_txLoop fuels .outer fun _ => ⟨rfl, by decide⟩).wp
    (fun _ _ _ _ _ _ describes recorded moved => describes.step recorded moved) start
  refine Program.wp_always_mono (Program.wp_mono described ?_ ?_) ?_
  · exact fun _ _ ⟨_, describes, _⟩ => describes.verdict
  · exact fun _ _ ⟨_, describes, _⟩ => describes.verdict
  · exact fun _ ⟨_, describes⟩ => describes.verdict

/-- One packet is queued, granted and confirmed; then its log line raises. -/
def logRaises (call : Call) (entries : Journal) : Option (call.Answer × Journal) :=
  let answer : call.Answer := match call with
    | .readRun | .readOnline | .waitEvent | .waitIrq | .log _ | .logRx _ | .inbound _ => true
    | .readActive | .logTx _ _ => false
    | .queueLength => 1
    | .popleft => some ⟨[0x48, 0x69], 0⟩
    | .radio (.xfer _) => some (some [0, Sx127x.irqTxDone])
    | .radio (.setTxen _) | .radio .waitBusy | .radio .reset => some true
    | .radio .monotonic => some 0
    | .radio (.sleep _) => some ()
    | .random => 0
    | .reserve _ => .granted
    | .time => 0
    | .feed _ => none
    | .clearRun | .clearOnline | .setFatal _ | .setEvent | .clearEvent | .append _ | .setActive
    | .clearActive | .acquire | .release | .handOver _ _ | .sleep _ | .closeRadio | .closeBus
    | .closeLog => ()
  if entries.all Exchange.online then some (answer, ⟨call, answer, true⟩ :: entries) else none

theorem logRaises_admissible (call : Call) (entries : Journal) (answer : call.Answer)
    (after : Journal) (h : logRaises call entries = some (answer, after)) :
    journal call entries answer after := by
  obtain ⟨online, same⟩ := Option.ite_none_right_eq_some.mp h
  cases same
  exact ⟨true, rfl, fun _ => List.all_eq_true.mp online⟩

/-- The loop has just caught an error and is still online. -/
def caughtOnline : Journal → Bool
  | ⟨.log .txError, true, true⟩ :: _ => true
  | _ => false

/-- A packet of two bytes whose log line raises after its transmission: the worker goes on
with the radio out of reception. -/
theorem log_failure_keeps_radio_deaf :
    ¬∀ (iface : LoRaSPIInterface) (fuels : List ℕ),
      (txLoop iface fuels .outer).wp journal (KeepsReceiving iface.profile.chip)
        (fun _ => KeepsReceiving iface.profile.chip) (fun _ => KeepsReceiving iface.profile.chip)
        [] := by
  intro claimed
  have run : ((txLoop loraham [0, 3] .outer).runWith logRaises []).map (fun last =>
      (caughtOnline last.2, lastMode .sx1276 last.2)) = some (true, .transmit) := by
    decide +kernel
  obtain ⟨⟨next, last⟩, ran, seen⟩ := Option.map_eq_some_iff.mp run
  have path := Program.path_of_runWith logRaises_admissible ran
  have keeps := Program.wp_always (Program.wp_path path (claimed loraham [0, 3]))
  obtain ⟨caught, mode⟩ := Prod.mk.inj seen
  dsimp only at caught mode
  unfold caughtOnline at caught
  split at caught
  · next survived earlier =>
      have receiving := (keeps [] _ _ rfl trivial).2
      cases mode.symm.trans receiving
  · cases caught

end LorahamRns.Interface
