import LorahamRns.Interface.LastLook
import LorahamRns.Interface.Schedule

/-!
# Releasing the radio

`detach` clears `_run`, pauses, and releases the lines and the bus without asking where
the workers are.  That is sound exactly while the pause ends only once each worker will
look at `_run` before it next touches the radio.
-/

namespace LorahamRns.Interface

open LorahamRns.Lib LorahamRns.Framing LorahamRns.Radio

/-! ## Workers on the radio -/

/-- The thread is inside a radio operation: in a transaction, at a call of a driver, or
waiting on the IRQ line. -/
def Thread.InRadio (thread : Thread) : Prop :=
  thread.xfer.isSome ∨ (∃ effect next, thread.program = .call (.radio effect) next) ∨
    ∃ next, thread.program = .call .waitIrq next

/-- A call of the driver, or the wait for the IRQ line. -/
def touches : Call → Bool
  | .radio _ | .waitIrq => true
  | _ => false

theorem touches_guards : Guards touches where
  handler call h := by
    cases call with
    | radio | waitIrq => exact h.elim
    | _ => rfl
  caller call h := by
    cases call with
    | radio | waitIrq => exact h.elim
    | _ => rfl

/-- The thread will look at `_run`, and see it set, before it next touches the radio. -/
structure Thread.Clear (thread : Thread) : Prop where
  outside : thread.xfer = none
  looks : Looks touches thread.program false

theorem Thread.Clear.not_inRadio {thread : Thread} (h : thread.Clear) : ¬thread.InRadio := by
  obtain ⟨program, xfer⟩ := thread
  obtain ⟨rfl, looks⟩ := h
  rintro (inside | ⟨effect, next, rfl⟩ | ⟨next, rfl⟩)
  · cases inside
  · obtain ⟨_, moved, -⟩ := looks.step none
    cases moved
  · obtain ⟨_, moved, -⟩ := looks.step true
    cases moved

/-! ## detach -/

/-- How far `detach` is. -/
inductive Teardown where
  | running
  | cleared
  | paused
  deriving DecidableEq

/-- `_run` is cleared, then comes the pause, then the releases. -/
def teardown : Monitor Call Call.Answer Teardown
  | .running, .clearRun, _ => some .cleared
  | .cleared, .sleep _, _ => some .paused
  | .running, .closeRadio, _ | .running, .closeBus, _ | .cleared, .closeRadio, _
  | .cleared, .closeBus, _ => none
  | stage, _, _ => some stage

theorem detach_teardown :
    detach.Keeps teardown (fun _ _ => True) (fun _ _ => True) .running :=
  fun _ => ⟨.cleared, rfl, fun _ => ⟨.cleared, rfl, fun _ => ⟨.cleared, rfl, fun _ =>
    ⟨.paused, rfl, fun _ => ⟨.paused, rfl, fun _ => ⟨.paused, rfl, fun _ => ⟨.paused, rfl,
      trivial⟩⟩⟩⟩⟩⟩⟩

/-- The pause of `detach` ends. -/
def Label.EndsPause : Label → Prop
  | .call .detacher (.sleep _) _ => True
  | _ => False

/-- A step that releases the lines or the bus. -/
def Label.Releases : Label → Prop
  | .call _ .closeRadio _ | .call _ .closeBus _ => True
  | _ => False

/-- A step of a worker on the radio, the bus or a line. -/
def Label.Touches (who : Who) (label : Label) : Prop :=
  label.UsesRadio who ∨ ∃ answer, label = .call who .waitIrq answer

/-- The lines or the bus have been released. -/
def World.Released (world : World) : Prop := world.linesOpen = false ∨ world.busOpen = false

/-- Nothing is released under a worker, and no worker uses what has been released. -/
structure World.SafelyReleased (soft : Bool) (iface : LoRaSPIInterface) (world : World) :
    Prop where
  releasing : ∀ label after, World.Step soft iface world label after → label.Releases →
    ∀ who ∈ [Who.rx, Who.tx], ¬(world.threads who).InRadio
  finished : world.Released → ∀ who ∈ [Who.rx, Who.tx], ¬(world.threads who).InRadio
  attempted : world.Released → ∀ label after, World.Step soft iface world label after →
    ∀ who ∈ [Who.rx, Who.tx], ¬label.Touches who

/-- A step leaves the pause of `detach` only where each worker will look at `_run` before
it next touches the radio. -/
def PauseLongEnough (world : World) (label : Label) (_ : World) : Prop :=
  label.EndsPause → ∀ who ∈ [Who.rx, Who.tx], (world.threads who).Clear

/-! ## The invariant -/

/-- The threads at a stage of `detach`. -/
structure Stopping (world : World) (stage : Teardown) : Prop where
  detacher : (world.threads .detacher).program.Keeps teardown (fun _ _ => True)
    (fun _ _ => True) stage
  looks : ∀ who ≠ .detacher, ∃ seen, Looks touches (world.threads who).program seen
  run : stage ≠ .running → world.run = false
  clear : stage = .paused → ∀ who ∈ [Who.rx, Who.tx], (world.threads who).Clear
  released : world.Released → stage = .paused

section Invariant

variable {soft : Bool} {iface : LoRaSPIInterface} {world after : World} {label : Label}
  {stage : Teardown}

theorem World.Initial.stopping (h : world.Initial iface) : Stopping world .running where
  detacher := by
    rw [h.detacher]
    exact detach_teardown
  looks who other := by
    refine ⟨false, ?_⟩
    cases who with
    | rx =>
        rw [h.rx]
        trivial
    | tx =>
        rw [h.tx]
        trivial
    | detacher => exact absurd rfl other
    | caller number =>
        rw [h.caller]
        trivial
  run running := absurd rfl running
  clear := nofun
  released
    | .inl closed => by cases h.lines.symm.trans closed
    | .inr closed => by cases h.bus.symm.trans closed

/-- A call leaves the lines and the bus unless it releases them. -/
theorem World.Answers.released {who : Who} {call : Call} {answer : call.Answer}
    (answered : World.Answers who call world answer after) (closed : after.Released) :
    world.Released ∨ call = .closeRadio ∨ call = .closeBus := by
  cases call with
  | closeRadio => exact Or.inr (Or.inl rfl)
  | closeBus => exact Or.inr (Or.inr rfl)
  | readRun | readOnline | waitEvent | queueLength | readActive | waitIrq | acquire | popleft =>
      obtain ⟨-, rfl⟩ := answered
      exact Or.inl closed
  | feed frame =>
      obtain ⟨now, -, rfl⟩ := answered
      exact Or.inl closed
  | radio effect =>
      cases effect with
      | xfer payload => exact answered.elim
      | setTxen on =>
          obtain ⟨-, rfl⟩ := answered
          exact Or.inl closed
      | _ =>
          cases answered
          exact Or.inl closed
  | _ =>
      cases answered
      exact Or.inl closed

theorem World.Step.released (taken : World.Step soft iface world label after)
    (closed : after.Released) : world.Released ∨ label.Releases := by
  cases taken with
  | call here answered =>
      rcases answered.released closed with before | rfl | rfl
      · exact Or.inl before
      · exact Or.inr trivial
      · exact Or.inr trivial
  | _ => exact Or.inl closed

/-- With `_run` cleared, a clear thread stays clear. -/
theorem Thread.Clear.step {who : Who} (h : (world.threads who).Clear)
    (taken : World.Step soft iface world label after) (down : world.run = false) :
    (after.threads who).Clear := by
  obtain ⟨later, rest, unseen, -⟩ := taken.later touches_guards h.looks
  rw [unseen down rfl] at rest
  refine ⟨?_, rest⟩
  by_cases mover : label.mover = some who
  · cases taken with
    | call here answered =>
        obtain rfl := Option.some_inj.mp mover
        rw [World.goTo_self]
    | @enters who payload next here =>
        obtain rfl := Option.some_inj.mp mover
        exact (h.not_inRadio (Or.inr (Or.inl ⟨_, next, by rw [here]⟩))).elim
    | bus here asks answered closed =>
        obtain rfl := Option.some_inj.mp mover
        exact (h.not_inRadio (Or.inl (by rw [here]; rfl))).elim
    | leaves here | throws here | turn here goesOn =>
        obtain rfl := Option.some_inj.mp mover
        rw [World.goTo_self]
    | peer moved => cases mover
  · rw [taken.unmoved mover]
    exact h.outside

/-- Where `detach` stands one step later: its stage changes where `_run` is cleared, and
where the pause ends. -/
inductive Teardown.Move (label : Label) : Teardown → Teardown → Prop where
  | same {stage : Teardown} : Move label stage stage
  | clears {answer : Call.clearRun.Answer} (this : label = .call .detacher .clearRun answer) :
      Move label .running .cleared
  | pauses (this : label.EndsPause) : Move label .cleared .paused

/-- A permitted call of `detach`. -/
theorem teardown_move {call : Call} {answer : call.Answer} {stage' : Teardown}
    (moved : teardown stage call answer = some stage') :
    Teardown.Move (.call .detacher call answer) stage stage' := by
  cases call with
  | clearRun =>
      cases stage with
      | running =>
          obtain rfl := Option.some_inj.mp moved
          exact .clears rfl
      | cleared | paused =>
          obtain rfl := Option.some_inj.mp moved
          exact .same
  | sleep seconds =>
      cases stage with
      | cleared =>
          obtain rfl := Option.some_inj.mp moved
          exact .pauses trivial
      | running | paused =>
          obtain rfl := Option.some_inj.mp moved
          exact .same
  | closeRadio | closeBus =>
      cases stage with
      | running | cleared => cases moved
      | paused =>
          obtain rfl := Option.some_inj.mp moved
          exact .same
  | _ =>
      have same : stage' = stage := by
        cases stage <;> exact (Option.some_inj.mp moved).symm
      subst same
      exact .same

theorem teardown_radio {effect : Radio.Effect} {answer : (Call.radio effect).Answer}
    {stage' : Teardown} (moved : teardown stage (.radio effect) answer = some stage') :
    stage' = stage := by
  cases stage <;> exact (Option.some_inj.mp moved).symm

/-- What `detach` has still to do, one step later. -/
theorem World.Step.teardown (taken : World.Step soft iface world label after)
    (h : (world.threads .detacher).program.Keeps teardown (fun _ _ => True) (fun _ _ => True)
      stage) :
    ∃ stage', Teardown.Move label stage stage' ∧
      (after.threads .detacher).program.Keeps teardown (fun _ _ => True) (fun _ _ => True)
        stage' := by
  by_cases mover : label.mover = some .detacher
  · cases taken with
    | @call _ _ call next answer here answered =>
        obtain rfl := Option.some_inj.mp mover
        rw [here] at h
        obtain ⟨stage', moved, rest⟩ := h.step answer
        refine ⟨stage', teardown_move moved, ?_⟩
        rw [World.goTo_self]
        exact rest
    | enters here | bus here asks answered closed =>
        obtain rfl := Option.some_inj.mp mover
        rw [here] at h
        refine ⟨stage, .same, ?_⟩
        rw [World.goTo_self]
        exact h
    | leaves here | throws here =>
        obtain rfl := Option.some_inj.mp mover
        rw [here] at h
        obtain ⟨stage', moved, rest⟩ := h.step _
        obtain rfl := teardown_radio moved
        refine ⟨_, .same, ?_⟩
        rw [World.goTo_self]
        exact rest
    | turn here goesOn =>
        obtain rfl := Option.some_inj.mp mover
        cases goesOn
    | peer moved => cases mover
  · refine ⟨stage, .same, ?_⟩
    rw [taken.unmoved mover]
    exact h

/-- Only `detach` releases, and only behind its pause. -/
theorem Stopping.paused_of_releases (h : Stopping world stage)
    (taken : World.Step soft iface world label after) (releases : label.Releases) :
    stage = .paused := by
  cases taken with
  | @call _ who call next answer here _ =>
      have closes : call = .closeRadio ∨ call = .closeBus := by
        cases call with
        | closeRadio => exact Or.inl rfl
        | closeBus => exact Or.inr rfl
        | _ => exact releases.elim
      by_cases other : who = .detacher
      · subst other
        have keeps := h.detacher
        rw [here] at keeps
        obtain ⟨there, moved, -⟩ := keeps.step answer
        cases stage with
        | paused => rfl
        | _ => rcases closes with rfl | rfl <;> cases moved
      · obtain ⟨seen, looks⟩ := h.looks who other
        rw [here] at looks
        obtain ⟨there, moved, -⟩ := looks.step answer
        rcases closes with rfl | rfl
        · cases moved
        · cases moved
  | _ => exact releases.elim

theorem Stopping.step (h : Stopping world stage)
    (taken : World.Step soft iface world label after)
    (pause : PauseLongEnough world label after) : ∃ stage, Stopping after stage := by
  obtain ⟨stage', move, detacher⟩ := taken.teardown h.detacher
  have looks (who : Who) (other : who ≠ .detacher) :
      ∃ seen, Looks touches (after.threads who).program seen := by
    obtain ⟨seen, looks⟩ := h.looks who other
    obtain ⟨later, rest, -⟩ := taken.later touches_guards looks
    exact ⟨later, rest⟩
  have paused (closed : after.Released) : stage = .paused := by
    rcases taken.released closed with before | releases
    · exact h.released before
    · exact h.paused_of_releases taken releases
  refine ⟨stage', detacher, looks, ?_, ?_, ?_⟩
  · intro later
    cases move with
    | same => exact taken.down (h.run later)
    | clears this => exact taken.cleared this
    | pauses this => exact taken.down (h.run (by decide))
  · intro later who member
    cases move with
    | same => exact (h.clear later who member).step taken (h.run (by rw [later]; decide))
    | clears => cases later
    | pauses this => exact (pause this who member).step taken (h.run (by decide))
  · intro closed
    have before := paused closed
    cases move with
    | same => exact before
    | clears | pauses => cases before

/-- Who touches the radio is inside a radio operation. -/
theorem Label.Touches.inRadio {who : Who} (touches : label.Touches who)
    (taken : World.Step soft iface world label after) : (world.threads who).InRadio := by
  rcases touches with uses | ⟨answer, rfl⟩
  · cases taken with
    | @call _ _ call next _ here _ =>
        cases call with
        | radio effect =>
            obtain rfl := uses
            exact Or.inr (Or.inl ⟨effect, next, by rw [here]⟩)
        | _ => exact uses.elim
    | @enters _ payload next here | @throws _ payload next here | @leaves _ payload _ next here =>
        obtain rfl := uses
        exact Or.inr (Or.inl ⟨_, next, by rw [here]⟩)
    | bus here _ _ _ =>
        obtain rfl := uses
        exact Or.inl (by rw [here]; rfl)
    | turn => exact uses.elim
    | peer => exact uses.elim
  · cases taken with
    | @call _ _ _ next _ here _ => exact Or.inr (Or.inr ⟨next, by rw [here]⟩)

/-- What a stage says of the releases. -/
theorem Stopping.safelyReleased (h : Stopping world stage) :
    world.SafelyReleased soft iface := by
  have finished (closed : world.Released) (who : Who) (member : who ∈ [Who.rx, Who.tx]) :
      ¬(world.threads who).InRadio := (h.clear (h.released closed) who member).not_inRadio
  refine ⟨fun label after taken releases who member => ?_, finished,
    fun closed label after taken who member touches => ?_⟩
  · exact (h.clear (h.paused_of_releases taken releases) who member).not_inRadio
  · exact finished closed who member (touches.inRadio taken)

end Invariant

/-! ## The verdict -/

/-- In every run in which each pause of `detach` ends only where both workers will look at
`_run` before they next touch the radio: the lines and the bus are released under no
worker, and no worker touches them afterwards. -/
theorem released_safely_behind_pause {soft : Bool} {iface : LoRaSPIInterface} {world : World}
    {trace : List Label}
    (run : ((threads soft iface).restrict PauseLongEnough).Run world trace) :
    world.SafelyReleased soft iface := by
  have reached : ∃ stage, Stopping world stage := by
    induction run with
    | start initial => exact ⟨_, World.Initial.stopping initial⟩
    | step _ taken ih =>
        obtain ⟨_, h⟩ := ih
        exact h.step taken.1 taken.2
  obtain ⟨_, h⟩ := reached
  exact h.safelyReleased

/-- `detach` makes a call while neither worker has begun. -/
theorem detach_calls {soft : Bool} {iface : LoRaSPIInterface} {world after : World}
    {trace : List Label} {call : Call} {next : call.Answer → Worker Next} (answer : call.Answer)
    (run : ((threads soft iface).restrict PauseLongEnough).Run world trace)
    (here : world.threads .detacher = ⟨.call call next, none⟩)
    (answered : World.Answers .detacher call world answer after)
    (rx : world.threads .rx = ⟨.done .outer, none⟩)
    (tx : world.threads .tx = ⟨.done .outer, none⟩) :
    ((threads soft iface).restrict PauseLongEnough).Run
      (after.goTo .detacher ⟨next answer, none⟩) (trace ++ [.call .detacher call answer]) := by
  refine .step run ⟨.call here answered, fun _ who member => ?_⟩
  have idle : world.threads who = ⟨.done .outer, none⟩ := by
    rcases List.mem_pair.mp member with rfl | rfl
    · exact rx
    · exact tx
  rw [idle]
  exact ⟨rfl, trivial⟩

/-- `detach` runs through to its releases before the workers have begun. -/
theorem early_detach_releases_safely :
    ∃ world trace, ((threads true loraham).restrict PauseLongEnough).Run world trace ∧
      world.busOpen = false ∧ world.SafelyReleased true loraham := by
  have begun : ((threads true loraham).restrict PauseLongEnough).Run (World.fresh loraham) [] :=
    .start (World.fresh_initial loraham)
  have cleared := detach_calls () begun rfl rfl rfl rfl
  have woken := detach_calls () cleared rfl rfl rfl rfl
  have offline := detach_calls () woken rfl rfl rfl rfl
  have paused := detach_calls () offline rfl rfl rfl rfl
  have unlined := detach_calls () paused rfl rfl rfl rfl
  have closed := detach_calls () unlined rfl rfl rfl rfl
  exact ⟨_, _, closed, rfl, released_safely_behind_pause closed⟩

/-- A packet of two bytes is granted; the chip never reports its end. -/
def longTransmission : Setting := ⟨loraham, willing fun _ => .granted, [0, 0], 3, [0x48, 0x69]⟩

/-- A caller queues the packet, the TX worker sends it and polls for its end; `detach`
then runs through to the release of the bus. -/
def detachWhileSending : List Who :=
  List.replicate 6 (.caller 0) ++ List.replicate 70 .tx ++ List.replicate 6 .detacher

/-- The bus is released while the TX worker is inside `radio.transmit`. -/
theorem released_under_transmission :
    ¬∀ (soft : Bool) (iface : LoRaSPIInterface) (world : World) (trace : List Label),
      (threads soft iface).Run world trace → world.SafelyReleased soft iface := by
  intro claimed
  have played : (longTransmission.play detachWhileSending (.fresh longTransmission.iface)).map
      (fun world => (world.busOpen, (world.threads .tx).xfer.isSome)) = some (false, true) := by
    decide +kernel
  obtain ⟨world, trace, run, seen⟩ := Setting.reaches played
  obtain ⟨closed, inside⟩ := Prod.mk.inj seen
  exact (claimed _ _ _ _ run).finished (Or.inr closed) .tx (by decide) (Or.inl inside)

end LorahamRns.Interface
