import LorahamRns.Interface.LastLook
import LorahamRns.Interface.Schedule

/-!
# Stopping the transmitter

Once `_run` is cleared the TX worker is to start nothing: no reservation, no packet.  It
looks at `_run` only where it takes a packet from the queue; the reservation loop of
`_transmit` goes on without looking.
-/

namespace LorahamRns.Interface

open LorahamRns.Lib LorahamRns.Framing LorahamRns.Radio

/-- A reservation, or the first frame of a packet. -/
def begins : Call → Bool
  | .reserve _ | .handOver 0 _ => true
  | _ => false

theorem begins_guards : Guards begins where
  handler call h := by
    cases call with
    | reserve | handOver => exact h.elim
    | _ => rfl
  caller call h := by
    cases call with
    | reserve | handOver => exact h.elim
    | _ => rfl

/-- The TX worker is granted airtime, or hands over a packet whose transmission had not
begun. -/
def Label.Begins : Label → Prop
  | .call .tx (.reserve _) .granted | .call .tx (.handOver 0 _) _ => True
  | _ => False

/-- Once `_run` is cleared, the TX worker begins nothing. -/
def World.BeginsNothing (soft : Bool) (iface : LoRaSPIInterface) (world : World) : Prop :=
  world.run = false →
    ∀ label after, World.Step soft iface world label after → ¬label.Begins

/-- Another thread clears `_run` only where the TX worker looks at it again before its
next reservation and before the next first frame. -/
def ClearedBeforeLook (world : World) (label : Label) (_ : World) : Prop :=
  ∀ who answer, label = .call who .clearRun answer → who ≠ .tx →
    Looks begins (world.threads .tx).program false

/-! ## The invariant -/

/-- Whether the TX worker may begin something, which it may not without `_run`. -/
def Heeding (world : World) : Prop :=
  ∃ seen, Looks begins (world.threads .tx).program seen ∧ (world.run = false → seen = false)

section Invariant

variable {soft : Bool} {iface : LoRaSPIInterface} {world after : World} {label : Label}

theorem World.Initial.heeding (h : world.Initial iface) : Heeding world := by
  refine ⟨true, ?_, fun down => ?_⟩
  · rw [h.tx]
    trivial
  · cases h.run.symm.trans down

theorem Heeding.step (h : Heeding world) (taken : World.Step soft iface world label after)
    (permitted : ClearedBeforeLook world label after) : Heeding after := by
  obtain ⟨seen, looks, down⟩ := h
  obtain ⟨later, rest, keeps, clears⟩ := taken.later begins_guards looks
  rcases taken.run with same | ⟨⟨who, answer, rfl⟩, -⟩
  · refine ⟨later, rest, fun stopped => ?_⟩
    have before : world.run = false := same.symm.trans stopped
    exact keeps before (down before)
  · by_cases own : who = .tx
    · subst own
      exact ⟨later, rest, fun _ => clears answer rfl⟩
    · -- the TX worker stays where it is, and is yet to look
      refine ⟨false, ?_, fun _ => rfl⟩
      have other : Label.mover (.call who .clearRun answer) ≠ some .tx :=
        fun same => own (Option.some_inj.mp same)
      rw [taken.unmoved other]
      exact permitted who answer rfl own

/-- A worker that is yet to look at `_run` begins nothing. -/
theorem not_begins_of_looks (looks : Looks begins (world.threads .tx).program false)
    (taken : World.Step soft iface world label after) : ¬label.Begins := by
  intro begun
  cases taken with
  | @call _ who call next answer here answered =>
      have forbidden : who = .tx ∧ lastLook begins false call answer = none := by
        unfold Label.Begins at begun
        split at begun
        · next same =>
            cases same
            exact ⟨rfl, rfl⟩
        · next same =>
            cases same
            exact ⟨rfl, rfl⟩
        · exact begun.elim
      obtain ⟨rfl, forbidden⟩ := forbidden
      rw [here] at looks
      obtain ⟨_, moved, -⟩ := looks.step answer
      cases forbidden.symm.trans moved
  | _ => exact begun.elim

theorem Heeding.beginsNothing (h : Heeding world) : world.BeginsNothing soft iface := by
  obtain ⟨seen, looks, down⟩ := h
  intro stopped label after taken
  rw [down stopped] at looks
  exact not_begins_of_looks looks taken

end Invariant

/-! ## The verdict -/

/-- In every run in which `_run` is cleared only where the TX worker looks at it before it
begins anything: nothing is begun afterwards. -/
theorem begins_nothing_once_cleared {soft : Bool} {iface : LoRaSPIInterface} {world : World}
    {trace : List Label}
    (run : ((threads soft iface).restrict ClearedBeforeLook).Run world trace) :
    world.BeginsNothing soft iface := by
  have heeding : Heeding world := by
    induction run with
    | start initial => exact World.Initial.heeding initial
    | step _ taken ih => exact ih.step taken.1 taken.2
  exact heeding.beginsNothing

/-- `detach` comes before the TX worker has looked at `_run` for the first time. -/
theorem early_detach_begins_nothing :
    ∃ world trace, ((threads true loraham).restrict ClearedBeforeLook).Run world trace ∧
      world.run = false ∧ world.BeginsNothing true loraham := by
  have cleared : World.Step true loraham (.fresh loraham) (.call .detacher .clearRun ()) _ :=
    @World.Step.call _ _ _ _ .detacher .clearRun _ () rfl rfl
  have permitted (after : World) :
      ClearedBeforeLook (.fresh loraham) (.call .detacher .clearRun ()) after :=
    fun _ _ _ _ => trivial
  have run : ((threads true loraham).restrict ClearedBeforeLook).Run _ _ :=
    .step (.start (World.fresh_initial loraham)) ⟨cleared, permitted _⟩
  exact ⟨_, _, run, rfl, begins_nothing_once_cleared run⟩

/-- The budget is used up until `_run` is cleared, and freed then. -/
def lateGrant : Setting :=
  ⟨loraham, willing fun world => if world.run then .refused else .granted, [0, 0], 3, [0x48, 0x69]⟩

/-- A caller queues a packet; the TX worker is refused its airtime and pauses; `detach`
clears `_run`; the pause ends. -/
def detachWhileHeld : List Who :=
  List.replicate 6 (.caller 0) ++ List.replicate 10 .tx ++ [.detacher, .tx]

/-- The TX worker is about to ask for airtime. -/
def atReservation (world : World) : Bool :=
  match world.threads .tx with
  | ⟨.call (.reserve _) _, none⟩ => true
  | _ => false

/-- Airtime is granted although `_run` is cleared. -/
theorem granted_once_cleared :
    ¬∀ (soft : Bool) (iface : LoRaSPIInterface) (world : World) (trace : List Label),
      (threads soft iface).Run world trace → world.BeginsNothing soft iface := by
  intro claimed
  have played : (lateGrant.play detachWhileHeld (.fresh lateGrant.iface)).map
      (fun world => (world.run, atReservation world)) = some (false, true) := by
    decide +kernel
  obtain ⟨world, trace, run, seen⟩ := Setting.reaches played
  obtain ⟨stopped, waiting⟩ := Prod.mk.inj seen
  unfold atReservation at waiting
  split at waiting
  · next toa next here =>
      have granted : World.Step true loraham world (.call .tx (.reserve toa) .granted) _ :=
        .call here rfl
      exact claimed _ _ _ _ run stopped _ _ granted trivial
  · cases waiting

end LorahamRns.Interface
