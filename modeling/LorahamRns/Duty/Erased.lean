import LorahamRns.Duty.Script
import LorahamRns.Duty.Twin

/-!
# Runs without their status calls

A run with status calls in it is followed by a run of its reservations alone.  While a
status call holds the lock, time passes in the other run; what it leaves behind is a
rebase flag at most, and no reservation looks at that flag before setting it.
-/

namespace LorahamRns.Duty

open LorahamRns.Lib
open Program (Only Lockstep)

/-! ## What a status call touches -/

/-- Clock and notes aside, the stores differ in rebase flags alone, and not before there is
a ledger. -/
structure Alike (store other : Store) : Prop where
  same : other = { store with pending := other.pending, observed := other.observed }
  unread : store.ledger = none → other.pending = store.pending

/-- The files are those of the other store, and so are the flags before there is a ledger. -/
structure Framed (other store : Store) : Prop where
  ledger : store.ledger = other.ledger
  temp : store.temp = other.temp
  unread : other.ledger = none → store.pending = other.pending

variable {assumptions : Assumptions} {store other after : Store}

theorem Framed.alike (framed : Framed other store) (clock : other.clock = store.clock) :
    Alike store other := by
  obtain ⟨ledger, temp, unread⟩ := framed
  refine ⟨?_, fun missing => (unread (ledger ▸ missing)).symm⟩
  rw [ledger, temp, ← clock]

theorem Alike.framed (alike : Alike store other) : Framed other store := by
  obtain ⟨same, unread⟩ := alike
  refine ⟨(congrArg Store.ledger same).symm, (congrArg Store.temp same).symm, fun missing => ?_⟩
  exact (unread ((congrArg Store.ledger same).symm.trans missing)).symm

theorem Twins.alike {agreed : Instance → Prop} (twins : Twins agreed store other) :
    Alike store other := by
  obtain ⟨same, unread, _⟩ := twins
  refine ⟨?_, unread⟩
  generalize other.pending = pending at same
  subst same
  rfl

/-- Time passes for both. -/
theorem Alike.pass (alike : Alike store other) (clock : Clock) :
    Alike { store with clock } { other with clock } := by
  obtain ⟨same, unread⟩ := alike
  generalize other.pending = pending, other.observed = observed at same unread
  subst same
  exact ⟨rfl, unread⟩

/-- A call that takes the lock starts its notes afresh. -/
theorem Alike.twins (alike : Alike store other) :
    Twins (fun _ => False) { store with observed := .none } { other with observed := .none } := by
  obtain ⟨same, unread⟩ := alike
  generalize other.pending = pending, other.observed = observed at same unread
  subst same
  exact ⟨rfl, unread, nofun⟩

/-- Looking leaves everything in its place. -/
theorem framed_looks (effect : Effect) (store : Store) (reply : effect.Answer) (after : Store)
    (looks : Looks effect) (framed : Framed other store)
    (answered : environment assumptions effect store reply after) : Framed other after := by
  rcases looks with rfl | rfl | rfl
  · obtain ⟨clock, _, _, rfl⟩ := answered
    exact ⟨framed.ledger, framed.temp, framed.unread⟩
  · obtain ⟨first, second, _, _, _, _, rfl⟩ := answered
    exact ⟨framed.ledger, framed.temp, framed.unread⟩
  · obtain ⟨_, rfl⟩ := answered
    exact framed

/-- Reading the ledger sets a flag, and only where there is a ledger. -/
theorem framed_read {owner : Instance} {firstUse : Bool} (framed : Framed other store) :
    (read owner firstUse).wp (environment assumptions) (Framed other) (fun _ => Framed other)
      (fun _ => Framed other) store := by
  refine Program.wp_bind ⟨framed, fun reply after answered => ?_⟩
  obtain ⟨rfl, hreply⟩ := answered
  refine ⟨framed, ?_⟩
  cases reply with
  | missing => cases firstUse <;> exact ⟨framed, framed⟩
  | fault => exact ⟨framed, framed⟩
  | notRegular => exact ⟨framed, framed⟩
  | content raw =>
      have present : other.ledger ≠ none := by
        rw [← framed.ledger]
        rcases hreply with ⟨_, h⟩ | ⟨text, found, _⟩ | ⟨_, h | h⟩
        · cases h
        · rw [found]
          exact nofun
        · cases h
        · cases h
      have looked {α : Type} {program : Account α} (looks : program.Only Looks) {store : Store}
          (framed : Framed other store) :
          program.wp (environment assumptions) (Framed other) (fun _ => Framed other)
            (fun _ => Framed other) store :=
        looks.wp framed_looks framed
      dsimp only
      split
      · exact ⟨framed, framed⟩
      split
      · exact ⟨framed, framed⟩
      refine Program.wp_bind (Program.wp_mono (looked (looks_readEntries _) framed)
        (fun entries store framed => ?_) fun _ _ framed => framed)
      refine Program.wp_bind (Program.wp_mono (looked (looks_rebase _ _) framed)
        (fun result store framed => ?_) fun _ _ framed => framed)
      obtain ⟨rebased, changed⟩ := result
      refine Program.wp_bind ⟨framed, fun _ after answered => ?_⟩
      obtain rfl := answered
      have kept : Framed other (store.setPending owner changed) :=
        ⟨framed.ledger, framed.temp, fun missing => absurd missing present⟩
      exact ⟨kept, kept, kept⟩

/-- A status call neither creates, removes nor writes a file. -/
theorem framed_usage {account : DutyAccount} {owner : Instance} (framed : Framed other store) :
    (usage account owner).wp (environment assumptions) (Framed other) (fun _ _ => True)
      (fun _ _ => True) store := by
  refine Program.wp_rescue ?_
  have whole : (do
      let now ← Os.time
      let entries ← read owner false
      pure (some (percent (used entries account.shortWindow now.value) account.shortWindow,
        percent (used entries account.longWindow now.value) account.longWindow)) :
      Account (Option (ℚ × ℚ))).wp (environment assumptions) (Framed other)
        (fun _ => Framed other) (fun _ => Framed other) store := by
    refine Program.wp_bind ⟨framed, fun now after answered => ?_⟩
    have framed := framed_looks _ _ _ _ (Or.inl rfl) framed answered
    refine ⟨framed, Program.wp_bind (Program.wp_mono (framed_read framed)
      (fun _ _ framed => ⟨framed, framed⟩) fun _ _ framed => framed)⟩
  refine Program.wp_mono whole (fun _ _ _ => trivial) fun failure after framed => ?_
  cases failure with
  | duty error => exact ⟨framed, trivial⟩
  | os => exact ⟨framed, trivial⟩
  | overflow => exact ⟨framed, trivial⟩

/-- Whatever the call, the clock moves as it may. -/
theorem advance_of_answered {effect : Effect} {reply : effect.Answer}
    (answered : environment assumptions effect store reply after) :
    assumptions.advance store.clock after.clock := by
  cases effect with
  | time =>
      obtain ⟨clock, moved, _, rfl⟩ := answered
      exact moved
  | timeThenMonotonic =>
      obtain ⟨first, second, moved, moved', _, _, rfl⟩ := answered
      exact assumptions.trans moved moved'
  | monotonicThenTime =>
      obtain ⟨first, second, moved, moved', _, _, rfl⟩ := answered
      exact assumptions.trans moved moved'
  | bootId =>
      obtain ⟨_, rfl⟩ := answered
      exact assumptions.refl _
  | readLedger limit =>
      obtain ⟨rfl, _⟩ := answered
      exact assumptions.refl _
  | openTemp process =>
      rcases answered with ⟨_, rfl⟩ | ⟨_, _, rfl⟩
      · exact assumptions.refl _
      · exact assumptions.refl _
  | writeTemp process head rest =>
      rcases answered with ⟨_, _, rfl⟩ | ⟨_, _, rfl⟩
      · exact assumptions.refl _
      · exact assumptions.refl _
  | syncTemp process =>
      rcases answered with ⟨_, rfl⟩ | ⟨_, _, rfl⟩
      · exact assumptions.refl _
      · exact assumptions.refl _
  | renameTemp process =>
      rcases answered with ⟨_, _, _, rfl⟩ | ⟨_, _, rfl⟩
      · exact assumptions.refl _
      · exact assumptions.refl _
  | syncDirectory =>
      rcases answered with ⟨_, rfl⟩ | ⟨_, _, rfl⟩
      · exact assumptions.refl _
      · exact assumptions.refl _
  | unlinkTemp process =>
      obtain rfl := answered
      exact assumptions.refl _
  | pendingRebase owner =>
      obtain ⟨_, rfl⟩ := answered
      exact assumptions.refl _
  | setPendingRebase owner value =>
      obtain rfl := answered
      exact assumptions.refl _

/-! ## A world without its status calls -/

def Call.isUsage : Call → Bool
  | .reserve _ => false
  | .usage => true

/-- Outside the lock, in a status call. -/
def Phase.isStatus : Phase → Bool
  | .opening request | .creating request | .waiting request | .locking request _ =>
      request.call.isUsage
  | .idle | .inside => false

/-- The phase of a caller who makes no status calls. -/
def Phase.erased (phase : Phase) : Phase := if phase.isStatus then .idle else phase

/-- A caller with the lock in a status call is idle. -/
def erasedPhase (holder : Option Holder) (caller : Caller) (phase : Phase) : Phase :=
  match holder with
  | some ⟨other, .usage _⟩ => if other = caller then .idle else phase.erased
  | _ => phase.erased

/-- The lock and the stores of the two worlds: under a status call the other world waits. -/
def Matched (assumptions : Assumptions) (holder : Option Holder) (store : Store)
    (otherHolder : Option Holder) (other : Store) : Prop :=
  match holder with
  | none => otherHolder = none ∧ Alike store other
  | some ⟨_, .usage program⟩ =>
      otherHolder = none ∧ other.clock = store.clock ∧
        program.wp (environment assumptions) (Framed other) (fun _ _ => True) (fun _ _ => True)
          store
  | some ⟨caller, .reserve airtime firstUse program⟩ =>
      otherHolder = some ⟨caller, .reserve airtime firstUse program⟩ ∧
        program.Lockstep (environment assumptions) (Twins fun _ => False)
          (fun _ => Twins fun _ => False) store other

/-- The other world is this one without its status calls. -/
structure Follows (assumptions : Assumptions) (world other : World) : Prop where
  lockFile : other.lockFile = world.lockFile
  alive : other.alive = world.alive
  history : other.history = world.history
  phase : ∀ caller, other.phase caller = erasedPhase world.holder caller (world.phase caller)
  matched : Matched assumptions world.holder world.store other.holder other.store
  creates : ∀ caller request, world.phase caller = .creating request →
    request.call.isUsage = false
  inside : ∀ holder, world.holder = some holder → world.phase holder.caller = .inside

/-- The steps of a run without lock timeouts. -/
def NoTimeout (_ : World) (label : Label) (_ : World) : Prop := ∀ caller, label ≠ .lockBusy caller

/-- No status call is started. -/
def Reserving (_ : World) (label : Label) (_ : World) : Prop :=
  ∀ caller request, label = .start caller request → request.call.isUsage = false

/-- A step of the other world: none, the same one, or a wait. -/
def OtherStep (account : DutyAccount) (assumptions : Assumptions) (other : World) (label : Label)
    (next : World) : Prop :=
  next = other ∨ ∃ made, (made = .wait ∨ made = label) ∧ Step account assumptions other made next ∧
    Reserving other made next

section

variable {account : DutyAccount} {world twin : World} {caller : Caller} {request : Request}

theorem Follows.ledger (follows : Follows assumptions world twin) :
    twin.store.ledger = world.store.ledger := by
  have matched := follows.matched
  unfold Matched at matched
  split at matched
  · have same := congrArg Store.ledger matched.2.same
    exact same
  · exact (Program.wp_always matched.2.2).ledger.symm
  · have same := congrArg Store.ledger matched.2.related.same
    exact same

/-- The phase of a caller outside the lock. -/
theorem Follows.phase_outside (follows : Follows assumptions world twin) {caller : Caller}
    (outside : world.phase caller ≠ .inside) :
    twin.phase caller = (world.phase caller).erased := by
  rw [follows.phase caller]
  unfold erasedPhase
  split
  · next other program held =>
      refine if_neg fun same => outside ?_
      rw [← same]
      exact follows.inside _ held
  · rfl

/-- A caller moves to another place outside the lock; in the other world too, if it is not
in a status call. -/
theorem Follows.setPhase (follows : Follows assumptions world twin)
    (outside : world.phase caller ≠ .inside) {phase : Phase}
    (creates : ∀ request, phase = .creating request → request.call.isUsage = false) :
    Follows assumptions (world.setPhase caller phase) (twin.setPhase caller phase.erased) := by
  have notHolder : ∀ holder, world.holder = some holder → holder.caller ≠ caller := by
    rintro holder held rfl
    exact outside (follows.inside holder held)
  refine ⟨follows.lockFile, follows.alive, follows.history, fun other => ?_, follows.matched,
    fun other request made => ?_, fun holder held => ?_⟩
  · by_cases same : other = caller
    · subst same
      rw [World.setPhase_phase_self, World.setPhase_phase_self]
      change phase.erased = erasedPhase world.holder other phase
      unfold erasedPhase
      split
      · next holder program held => exact (if_neg (notHolder _ held)).symm
      · rfl
    · rw [World.setPhase_phase_of_ne _ _ same, World.setPhase_phase_of_ne _ _ same]
      exact follows.phase other
  · by_cases same : other = caller
    · subst same
      rw [World.setPhase_phase_self] at made
      exact creates request made
    · rw [World.setPhase_phase_of_ne _ _ same] at made
      exact follows.creates other request made
  · rw [World.setPhase_phase_of_ne _ _ (notHolder holder held)]
    exact follows.inside holder held

theorem World.setPhase_eq_self (phase : Phase) (same : world.phase caller = phase) :
    world.setPhase caller phase = world := by
  unfold World.setPhase
  rw [← same, Function.update_eq_self]

/-- Where the other world shows the caller idle before and after, it stands still. -/
theorem Follows.stutter (follows : Follows assumptions world twin)
    (outside : world.phase caller ≠ .inside) {phase : Phase}
    (creates : ∀ request, phase = .creating request → request.call.isUsage = false)
    (same : (world.phase caller).erased = phase.erased) :
    Follows assumptions (world.setPhase caller phase) twin := by
  have moved := follows.setPhase outside creates
  rwa [World.setPhase_eq_self _ ((follows.phase_outside outside).trans same)] at moved

theorem Phase.erased_of_not_status {phase : Phase} (other : phase.isStatus = false) :
    phase.erased = phase := by
  unfold Phase.erased
  rw [other]
  rfl

theorem Phase.erased_of_status {phase : Phase} (status : phase.isStatus = true) :
    phase.erased = .idle := if_pos status

variable {label : Label} {after : World}

/-- A caller outside the lock moves on: not at all in the other world if it is in a status
call, by the same step if it is not. -/
theorem Follows.move (follows : Follows assumptions world twin) {phase next : Phase}
    (here : world.phase caller = phase) (outside : phase ≠ .inside)
    (creates : ∀ request, next = .creating request → request.call.isUsage = false)
    (hidden : phase.isStatus = true ∨ next.isStatus = true → phase.erased = next.erased)
    (step : phase.isStatus = false → next.isStatus = false → twin.phase caller = phase →
      Step account assumptions twin label (twin.setPhase caller next) ∧
        Reserving twin label (twin.setPhase caller next)) :
    ∃ made, OtherStep account assumptions twin label made ∧
      Follows assumptions (world.setPhase caller next) made := by
  have notInside : world.phase caller ≠ .inside := here ▸ outside
  have shown := follows.phase_outside notInside
  rw [here] at shown
  by_cases status : phase.isStatus = true ∨ next.isStatus = true
  · exact ⟨twin, Or.inl rfl, follows.stutter notInside creates (here ▸ hidden status)⟩
  · obtain ⟨first, second⟩ := not_or.mp status
    have first := Bool.eq_false_of_not_eq_true first
    have second := Bool.eq_false_of_not_eq_true second
    have moved := follows.setPhase notInside creates
    rw [Phase.erased_of_not_status second] at moved
    rw [Phase.erased_of_not_status first] at shown
    obtain ⟨stepped, reserving⟩ := step first second shown
    exact ⟨_, Or.inr ⟨label, Or.inr rfl, stepped, reserving⟩, moved⟩

/-! ## One step -/

/-- A step outside the lock. -/
def Label.Outside : Label → Prop
  | .start _ _ | .openLock _ | .createLock _ | .foundLedger _ | .waitExpired _ | .lockFault _ =>
      True
  | _ => False

/-- Callers outside the lock. -/
theorem Follows.step_outside (follows : Follows assumptions world twin)
    (step : Step account assumptions world label after) (outside : label.Outside) :
    ∃ made, OtherStep account assumptions twin label made ∧ Follows assumptions after made := by
  cases step with
  | @start caller request living phase =>
      refine follows.move phase nofun nofun (fun status => ?_) fun _ other shown => ⟨?_, ?_⟩
      · exact (Phase.erased_of_status (status.resolve_left nofun)).symm
      · exact .start (by rwa [follows.alive]) shown
      · rintro _ _ ⟨⟩
        exact other
  | @openReserve caller request phase airtime call opened =>
      have kind : request.call.isUsage = false := by rw [call]; rfl
      refine follows.move phase nofun nofun (fun status => ?_) fun _ _ shown => ⟨?_, nofun⟩
      · simp [Phase.isStatus, kind] at status
      · exact .openReserve shown airtime call (by rwa [follows.lockFile])
  | @openUsage caller request phase call opened =>
      have kind : request.call.isUsage = true := by rw [call]; rfl
      refine follows.move phase nofun nofun (fun _ => ?_) fun other _ _ => ?_
      · simp [Phase.erased, Phase.isStatus, kind]
      · cases kind.symm.trans other
  | @openMissing caller request phase airtime call missing =>
      have kind : request.call.isUsage = false := by rw [call]; rfl
      refine follows.move phase nofun ?_ (fun status => ?_) fun _ _ shown => ⟨?_, nofun⟩
      · rintro _ ⟨⟩
        exact kind
      · simp [Phase.isStatus, kind] at status
      · exact .openMissing shown airtime call (by rwa [follows.lockFile])
  | @usageUnused caller request phase call missing =>
      have kind : request.call.isUsage = true := by rw [call]; rfl
      refine follows.move phase nofun nofun (fun _ => ?_) fun other _ _ => ?_
      · simp [Phase.erased, Phase.isStatus, kind]
      · cases kind.symm.trans other
  | @create caller request phase missing =>
      have kind := follows.creates caller request phase
      have notInside : world.phase caller ≠ .inside := by rw [phase]; exact nofun
      have shown := follows.phase_outside notInside
      have moved : Follows assumptions (world.setPhase caller (.locking request true))
          (twin.setPhase caller (Phase.locking request true).erased) :=
        follows.setPhase notInside nofun
      rw [Phase.erased_of_not_status (by exact kind)] at moved
      rw [phase, Phase.erased_of_not_status (by exact kind)] at shown
      refine ⟨_, Or.inr ⟨_, Or.inr rfl, .create shown (by rwa [follows.lockFile]), nofun⟩, ?_⟩
      exact ⟨rfl, moved.alive, moved.history, moved.phase, moved.matched, moved.creates,
        moved.inside⟩
  | @lostRace caller request phase opened =>
      have kind := follows.creates caller request phase
      refine follows.move phase nofun nofun (fun status => ?_) fun _ _ shown => ⟨?_, nofun⟩
      · simp [Phase.isStatus, kind] at status
      · exact .lostRace shown (by rwa [follows.lockFile])
  | @foundLedger caller request phase present =>
      refine follows.move phase nofun nofun (fun status => ?_) fun _ _ shown => ⟨?_, nofun⟩
      · simp [Phase.erased, Phase.isStatus] at status ⊢
        simp [status]
      · exact .foundLedger shown (by rwa [follows.ledger])
  | @waitExpired caller request phase missing =>
      refine follows.move phase nofun nofun (fun status => ?_) fun _ _ shown => ⟨?_, nofun⟩
      · simp [Phase.erased, Phase.isStatus] at status ⊢
        simp [status]
      · exact .waitExpired shown (by rwa [follows.ledger])
  | @lockFault caller notInside =>
      refine follows.move rfl notInside nofun (fun status => ?_) fun _ _ shown => ⟨?_, nofun⟩
      · exact Phase.erased_of_status (status.resolve_right nofun)
      · exact .lockFault (by rwa [shown])
  | wait | acquire | lockBusy | effect | finish | finishNotReleased | kill => exact outside.elim

/-- A status call under the lock: the other world waits for as long as it takes. -/
theorem Follows.step_usage (follows : Follows assumptions world twin) {effect : Effect}
    {next : effect.Answer → Account (Option (ℚ × ℚ))} {reply : effect.Answer} {last : Store}
    (held : world.holder = some ⟨caller, .usage (.call effect next)⟩)
    (answered : environment assumptions effect world.store reply last) :
    ∃ made, OtherStep account assumptions twin (.effect caller) made ∧
      Follows assumptions (world.setHolder last (some ⟨caller, .usage (next reply)⟩)) made := by
  have matched := follows.matched
  have place := follows.inside _ held
  rw [held] at matched
  obtain ⟨free, clock, framed⟩ := matched
  have moved : assumptions.advance twin.store.clock last.clock := by
    rw [clock]
    exact advance_of_answered answered
  refine ⟨_, Or.inr ⟨.wait, Or.inl rfl, .wait free moved, nofun⟩, ?_⟩
  refine ⟨follows.lockFile, follows.alive, follows.history, fun other => ?_, ⟨rfl, rfl, ?_⟩,
    follows.creates, ?_⟩
  · have phase := follows.phase other
    rw [held] at phase
    exact phase
  · exact Program.wp_always_mono (Program.wp_step framed answered)
      fun _ kept => ⟨kept.ledger, kept.temp, kept.unread⟩
  · rintro _ ⟨⟩
    exact place

/-- A reservation under the lock: the other world's gets the same answer. -/
theorem Follows.step_reserve (follows : Follows assumptions world twin) {airtime : Airtime}
    {firstUse : Bool} {effect : Effect} {next : effect.Answer → Account Verdict}
    {reply : effect.Answer} {last : Store}
    (held : world.holder = some ⟨caller, .reserve airtime firstUse (.call effect next)⟩)
    (answered : environment assumptions effect world.store reply last) :
    ∃ made, OtherStep account assumptions twin (.effect caller) made ∧
      Follows assumptions
        (world.setHolder last (some ⟨caller, .reserve airtime firstUse (next reply)⟩)) made := by
  have matched := follows.matched
  have place := follows.inside _ held
  rw [held] at matched
  obtain ⟨same, lockstep⟩ := matched
  obtain ⟨other, answered', rest⟩ := lockstep.2 reply last answered
  refine ⟨_, Or.inr ⟨_, Or.inr rfl, .effect same (.reserve answered'), nofun⟩, ?_⟩
  refine ⟨follows.lockFile, follows.alive, follows.history, fun other => ?_, ⟨rfl, rest⟩,
    follows.creates, ?_⟩
  · have phase := follows.phase other
    rw [held] at phase
    exact phase
  · rintro _ ⟨⟩
    exact place

/-- A caller takes the free lock. -/
theorem Follows.step_acquire (follows : Follows assumptions world twin) {firstUse : Bool}
    (phase : world.phase caller = .locking request firstUse) (free : world.holder = none) :
    ∃ made, OtherStep account assumptions twin (.acquire caller) made ∧
      Follows assumptions ((world.setPhase caller .inside).setHolder
        { world.store with observed := .none }
        (some ⟨caller, begin account caller request firstUse⟩)) made := by
  have notInside : world.phase caller ≠ .inside := by rw [phase]; exact nofun
  have shown := follows.phase_outside notInside
  rw [phase] at shown
  have matched := follows.matched
  rw [free] at matched
  obtain ⟨freeToo, alike⟩ := matched
  have others (other : Caller) : twin.phase other = (world.phase other).erased := by
    rw [follows.phase other, free]
    rfl
  have creates : ∀ other made, (world.setPhase caller .inside).phase other = .creating made →
      made.call.isUsage = false := by
    intro other made creating
    by_cases same : other = caller
    · rw [same, World.setPhase_phase_self] at creating
      cases creating
    · rw [World.setPhase_phase_of_ne _ _ same] at creating
      exact follows.creates other made creating
  have inside : ∀ holder : Holder,
      some (Holder.mk caller (begin account caller request firstUse)) = some holder →
      (world.setPhase caller .inside).phase holder.caller = .inside := by
    rintro _ ⟨⟩
    exact World.setPhase_phase_self ..
  cases call : request.call with
  | usage =>
      have status : (Phase.locking request firstUse).isStatus = true := by
        change request.call.isUsage = true
        rw [call]
        rfl
      have begun : begin account caller request firstUse =
          .usage (usage account ⟨caller.process, request.number⟩) := by
        unfold begin
        rw [call]
      rw [begun] at inside ⊢
      refine ⟨twin, Or.inl rfl, follows.lockFile, follows.alive, follows.history, fun other => ?_,
        ⟨freeToo, ?_, ?_⟩, creates, inside⟩
      · by_cases same : other = caller
        · subst same
          rw [shown, Phase.erased_of_status status]
          exact (if_pos rfl).symm
        · rw [others other]
          change _ = if caller = other then Phase.idle
            else ((world.setPhase caller .inside).phase other).erased
          rw [if_neg (Ne.symm same), World.setPhase_phase_of_ne _ _ same]
      · have clock := congrArg Store.clock alike.same
        exact clock
      · have framed := alike.framed
        exact framed_usage ⟨framed.ledger, framed.temp, framed.unread⟩
  | reserve airtime =>
      have kind : (Phase.locking request firstUse).isStatus = false := by
        change request.call.isUsage = false
        rw [call]
        rfl
      rw [Phase.erased_of_not_status kind] at shown
      have begun : begin account caller request firstUse = .reserve airtime firstUse
          (reserve account ⟨caller.process, request.number⟩ firstUse airtime.value) := by
        unfold begin
        rw [call]
      refine ⟨_, Or.inr ⟨_, Or.inr rfl, .acquire shown freeToo, nofun⟩, follows.lockFile,
        follows.alive, follows.history, fun other => ?_, ?_, creates, inside⟩
      · rw [begun]
        change (twin.setPhase caller .inside).phase other =
          ((world.setPhase caller .inside).phase other).erased
        by_cases same : other = caller
        · rw [same, World.setPhase_phase_self, World.setPhase_phase_self]
          rfl
        · rw [World.setPhase_phase_of_ne _ _ same, World.setPhase_phase_of_ne _ _ same]
          exact others other
      · rw [begun]
        exact ⟨rfl, lockstep_reserve alike.twins⟩

/-- A call under the lock comes to its end. -/
theorem Follows.step_finish (follows : Follows assumptions world twin) {running : Running}
    {result : Except Failure Verdict} {outcome : Outcome} {released : Bool}
    (held : world.holder = some ⟨caller, running⟩) (ends : running.Ends result)
    (finish : ∀ world : World, world.holder = some ⟨caller, running⟩ →
      Step account assumptions world (.finish caller released)
        { (world.setPhase caller .idle).setHolder world.store none with
          history := world.record ⟨caller, running⟩ outcome }) :
    ∃ made, OtherStep account assumptions twin (.finish caller released) made ∧
      Follows assumptions
        { (world.setPhase caller .idle).setHolder world.store none with
          history := world.record ⟨caller, running⟩ outcome } made := by
  have matched := follows.matched
  rw [held] at matched
  have creates : ∀ other made, (world.setPhase caller .idle).phase other = .creating made →
      made.call.isUsage = false := by
    intro other made creating
    by_cases same : other = caller
    · rw [same, World.setPhase_phase_self] at creating
      cases creating
    · rw [World.setPhase_phase_of_ne _ _ same] at creating
      exact follows.creates other made creating
  cases running with
  | usage program =>
      obtain ⟨free, clock, framed⟩ := matched
      refine ⟨twin, Or.inl rfl, follows.lockFile, follows.alive, follows.history, fun other => ?_,
        ⟨free, (Program.wp_always framed).alike clock⟩, creates, nofun⟩
      have phase := follows.phase other
      rw [held] at phase
      change _ = if caller = other then Phase.idle else (world.phase other).erased at phase
      change _ = ((world.setPhase caller .idle).phase other).erased
      by_cases same : other = caller
      · rw [same, World.setPhase_phase_self]
        rw [same, if_pos rfl] at phase
        exact phase
      · rw [World.setPhase_phase_of_ne _ _ same]
        rwa [if_neg (Ne.symm same)] at phase
  | reserve airtime firstUse program =>
      obtain ⟨same, lockstep⟩ := matched
      have twins := lockstep.related
      refine ⟨_, Or.inr ⟨_, Or.inr rfl, finish twin same, nofun⟩, follows.lockFile, follows.alive,
        ?_, fun other => ?_, ⟨rfl, twins.alike⟩, creates, nofun⟩
      · have observed : twin.store.observed = world.store.observed := by
          have same := congrArg Store.observed twins.same
          exact same
        change twin.history ++ [⟨airtime, firstUse, twin.store.observed, outcome⟩] =
          world.history ++ [⟨airtime, firstUse, world.store.observed, outcome⟩]
        rw [follows.history, observed]
      · have phase := follows.phase other
        rw [held] at phase
        change _ = (world.phase other).erased at phase
        change (twin.setPhase caller .idle).phase other =
          ((world.setPhase caller .idle).phase other).erased
        by_cases same : other = caller
        · rw [same, World.setPhase_phase_self, World.setPhase_phase_self]
          rfl
        · rw [World.setPhase_phase_of_ne _ _ same, World.setPhase_phase_of_ne _ _ same]
          exact phase

/-- A process is killed, and its call under the lock with it. -/
theorem Follows.step_kill (follows : Follows assumptions world twin) (process : ℕ) :
    Follows assumptions (world.kill process) (twin.kill process) := by
  have matched := follows.matched
  have phase := follows.phase
  have alive : (twin.kill process).alive = (world.kill process).alive := by
    unfold World.kill
    rw [follows.alive]
  have creates : ∀ caller made, (world.kill process).phase caller = .creating made →
      made.call.isUsage = false := by
    intro caller made creating
    change (if caller.process = process then Phase.idle else world.phase caller) = _ at creating
    split at creating
    · cases creating
    · exact follows.creates caller made creating
  have inside : ∀ holder, (world.kill process).holder = some holder →
      (world.kill process).phase holder.caller = .inside := by
    intro holder held
    obtain ⟨held, other⟩ := Option.filter_eq_some_iff.mp held
    exact (if_neg (of_decide_eq_true other)).trans (follows.inside holder held)
  -- phases: those of the process are idle, the others are as they were
  have phases (killed : Option Holder)
      (kept : ∀ caller : Caller, caller.process ≠ process →
        erasedPhase world.holder caller (world.phase caller) =
          erasedPhase killed caller (world.phase caller)) (caller : Caller) :
      (twin.kill process).phase caller =
        erasedPhase killed caller ((world.kill process).phase caller) := by
    change (if caller.process = process then Phase.idle else twin.phase caller) =
      erasedPhase killed caller
        (if caller.process = process then Phase.idle else world.phase caller)
    split
    · unfold erasedPhase
      split
      · split <;> rfl
      · rfl
    · next other => rw [phase caller, kept caller other]
  cases held : world.holder with
  | none =>
      rw [held] at matched
      obtain ⟨free, alike⟩ := matched
      have gone : (world.kill process).holder = none := by simp [World.kill, held]
      have goneToo : (twin.kill process).holder = none := by simp [World.kill, free]
      refine ⟨follows.lockFile, alive, ?_, fun caller => ?_, ?_, creates, inside⟩
      · simp [World.kill, held, free, follows.history]
      · rw [gone]
        exact phases .none (fun _ _ => by rw [held]) caller
      · rw [gone, goneToo]
        exact ⟨rfl, alike⟩
  | some holder =>
      obtain ⟨owner, running⟩ := holder
      rw [held] at matched
      by_cases same : owner.process = process
      · have gone : (world.kill process).holder = none := by
          simp [World.kill, held, same]
        have phased (caller : Caller) (other : caller.process ≠ process) :
            erasedPhase world.holder caller (world.phase caller) =
              erasedPhase .none caller (world.phase caller) := by
          have notOwner : owner ≠ caller := fun h => other (h ▸ same)
          rw [held]
          cases running with
          | usage program => exact if_neg notOwner
          | reserve airtime firstUse program => rfl
        cases running with
        | usage program =>
            obtain ⟨free, clock, framed⟩ := matched
            have goneToo : (twin.kill process).holder = none := by simp [World.kill, free]
            refine ⟨follows.lockFile, alive, ?_, fun caller => ?_, ?_, creates, inside⟩
            · simp [World.kill, World.record, held, free, follows.history]
            · rw [gone]
              exact phases .none phased caller
            · rw [gone, goneToo]
              exact ⟨rfl, (Program.wp_always framed).alike clock⟩
        | reserve airtime firstUse program =>
            obtain ⟨heldToo, lockstep⟩ := matched
            have twins := lockstep.related
            have observed : twin.store.observed = world.store.observed := by
              have same := congrArg Store.observed twins.same
              exact same
            have goneToo : (twin.kill process).holder = none := by
              simp [World.kill, heldToo, same]
            refine ⟨follows.lockFile, alive, ?_, fun caller => ?_, ?_, creates, inside⟩
            · simp [World.kill, World.record, held, heldToo, same, follows.history, observed]
            · rw [gone]
              exact phases .none phased caller
            · rw [gone, goneToo]
              exact ⟨rfl, twins.alike⟩
      · have stays : (world.kill process).holder = some ⟨owner, running⟩ := by
          simp [World.kill, held, same, Option.filter]
        have phased (caller : Caller) (_ : caller.process ≠ process) :
            erasedPhase world.holder caller (world.phase caller) =
              erasedPhase (some ⟨owner, running⟩) caller (world.phase caller) := by
          rw [held]
        cases running with
        | usage program =>
            obtain ⟨free, clock, framed⟩ := matched
            have goneToo : (twin.kill process).holder = none := by simp [World.kill, free]
            refine ⟨follows.lockFile, alive, ?_, fun caller => ?_, ?_, creates, inside⟩
            · simp [World.kill, held, free, same, follows.history]
            · rw [stays]
              exact phases _ phased caller
            · rw [stays, goneToo]
              exact ⟨rfl, clock, framed⟩
        | reserve airtime firstUse program =>
            obtain ⟨heldToo, lockstep⟩ := matched
            have staysToo : (twin.kill process).holder =
                some ⟨owner, .reserve airtime firstUse program⟩ := by
              simp [World.kill, heldToo, same, Option.filter]
            refine ⟨follows.lockFile, alive, ?_, fun caller => ?_, ?_, creates, inside⟩
            · simp [World.kill, held, heldToo, same, follows.history]
            · rw [stays]
              exact phases _ phased caller
            · rw [stays, staysToo]
              exact ⟨rfl, lockstep⟩

/-- Every step without a lock timeout. -/
theorem Follows.step (follows : Follows assumptions world twin)
    (step : Step account assumptions world label after) (patient : NoTimeout world label after) :
    ∃ made, OtherStep account assumptions twin label made ∧ Follows assumptions after made := by
  cases step with
  | @wait clock free moved =>
      have matched := follows.matched
      rw [free] at matched
      obtain ⟨freeToo, alike⟩ := matched
      have clocks : twin.store.clock = world.store.clock := by
        have same := congrArg Store.clock alike.same
        exact same
      refine ⟨twin.setHolder { twin.store with clock } none,
        Or.inr ⟨.wait, Or.inl rfl, .wait freeToo (by rwa [clocks]), nofun⟩, follows.lockFile,
        follows.alive, follows.history, fun caller => ?_, ⟨rfl, alike.pass clock⟩,
        follows.creates, nofun⟩
      have phase := follows.phase caller
      rw [free] at phase
      exact phase
  | acquire phase free => exact follows.step_acquire phase free
  | lockBusy phase held => exact absurd rfl (patient _)
  | effect held stepped =>
      cases stepped with
      | reserve answered => exact follows.step_reserve held answered
      | usage answered => exact follows.step_usage held answered
  | finish held ends => exact follows.step_finish held ends fun _ held => .finish held ends
  | finishNotReleased held ends =>
      exact follows.step_finish held ends fun _ held => .finishNotReleased held ends
  | kill process =>
      exact ⟨_, Or.inr ⟨_, Or.inr rfl, .kill process, nofun⟩, follows.step_kill process⟩
  | _ => exact follows.step_outside (by constructor <;> assumption) trivial

/-! ## Whole runs -/

theorem World.Initial.follows (initial : world.Initial) : Follows assumptions world world := by
  refine ⟨rfl, rfl, rfl, fun caller => ?_, ?_, fun caller request creating => ?_, fun holder held => ?_⟩
  · rw [initial.phase caller, initial.holder]
    rfl
  · rw [initial.holder]
    exact ⟨rfl, rfl, fun _ => rfl⟩
  · rw [initial.phase caller] at creating
    cases creating
  · rw [initial.holder] at held
    cases held

/-- Whether a label is one of a caller or of a process. -/
def Label.isAct : Label → Bool
  | .wait => false
  | _ => true

/-- Every run without lock timeouts is followed by one without status calls, whose acts are
among its own. -/
theorem run_follows {trace : List Label}
    (run : ((machine account assumptions).restrict NoTimeout).Run world trace) :
    ∃ twin others, ((machine account assumptions).restrict Reserving).Run twin others ∧
      Follows assumptions world twin ∧ (others.filter Label.isAct).Sublist trace := by
  induction run with
  | @start world initial => exact ⟨world, [], .start initial, initial.follows, .refl _⟩
  | @step world after trace label _ taken ih =>
      obtain ⟨twin, others, otherRun, follows, acts⟩ := ih
      obtain ⟨made, stepped, behind⟩ := follows.step taken.1 taken.2
      have more : ((others ++ [label]).filter Label.isAct).Sublist (trace ++ [label]) := by
        rw [List.filter_append]
        exact acts.append List.filter_sublist
      rcases stepped with rfl | ⟨act, rfl | rfl, step, reserving⟩
      · exact ⟨_, others, otherRun, behind, acts.trans (List.sublist_append_left ..)⟩
      · refine ⟨made, _, otherRun.step ⟨step, reserving⟩, behind, ?_⟩
        rw [List.filter_append]
        change (others.filter Label.isAct ++ []).Sublist _
        rw [List.append_nil]
        exact acts.trans (List.sublist_append_left ..)
      · exact ⟨made, _, otherRun.step ⟨step, reserving⟩, behind, more⟩

/-- The step is one of a status call. -/
def World.StatusStep (world : World) : Label → Prop
  | .start _ request => request.call.isUsage = true
  | .openLock caller | .createLock caller | .foundLedger caller | .waitExpired caller
  | .lockFault caller | .acquire caller | .lockBusy caller => (world.phase caller).isStatus = true
  | .effect caller | .finish caller _ => ∃ program, world.holder = some ⟨caller, .usage program⟩
  | .wait | .kill _ => False

/-- The ledger, the temporary files and the lock file are as they were. -/
structure SameFiles (world after : World) : Prop where
  ledger : after.store.ledger = world.store.ledger
  temp : after.store.temp = world.store.temp
  lockFile : after.lockFile = world.lockFile

/-- No step of a status call touches a file. -/
theorem Follows.status_keeps (follows : Follows assumptions world twin)
    (step : Step account assumptions world label after) (status : world.StatusStep label) :
    SameFiles world after := by
  cases step with
  | create phase missing =>
      have other := follows.creates _ _ phase
      change (world.phase _).isStatus = true at status
      rw [phase] at status
      cases other.symm.trans status
  | effect held stepped =>
      obtain ⟨program, heldToo⟩ := status
      cases held.symm.trans heldToo
      have matched := follows.matched
      rw [held] at matched
      obtain ⟨_, _, framed⟩ := matched
      cases stepped with
      | usage answered =>
          have before := Program.wp_always framed
          have behind := Program.wp_always (Program.wp_step framed answered)
          exact ⟨behind.ledger.trans before.ledger.symm, behind.temp.trans before.temp.symm, rfl⟩
  | wait => exact status.elim
  | kill => exact status.elim
  | _ => exact ⟨rfl, rfl, rfl⟩

end

/-- Status calls at any positions of a run without lock timeouts, on any instances, change
nothing: reservations alone, whose steps are among the run's own, come to the same verdicts
and the same ledger; and no step of a status call touches a file. -/
theorem usage_changes_nothing (account : DutyAccount) (assumptions : Assumptions) (world : World)
    (trace : List Label)
    (run : ((machine account assumptions).restrict NoTimeout).Run world trace) :
    (∃ twin others, ((machine account assumptions).restrict Reserving).Run twin others ∧
      (others.filter Label.isAct).Sublist trace ∧ twin.history = world.history ∧
      twin.store.ledger = world.store.ledger) ∧
    ∀ label after, Step account assumptions world label after → world.StatusStep label →
      SameFiles world after := by
  obtain ⟨twin, others, otherRun, follows, acts⟩ := run_follows run
  exact ⟨⟨twin, others, otherRun, acts, follows.history, follows.ledger⟩,
    fun label after step status => follows.status_keeps step status⟩

/-- A status call takes the lock between the creation of the lock file and the first
reservation's turn. -/
theorem status_call_before_first_reservation :
    ∃ world : World, (∃ program, world.holder = some ⟨⟨2, 0⟩, .usage program⟩) ∧
      (∃ twin others, ((machine .default (.still (clockAt 100 100) [])).restrict Reserving).Run twin
          others ∧ twin.history = world.history ∧ twin.store.ledger = world.store.ledger) ∧
      ∀ label after, Step .default (.still (clockAt 100 100) []) world label after →
        world.StatusStep label → SameFiles world after := by
  let account : DutyAccount := .default
  let still : Assumptions := .still (clockAt 100 100) []
  let start := World.empty (clockAt 100 100)
  let first : Caller := ⟨1, 0⟩
  let second : Caller := ⟨2, 0⟩
  let grant : Request := ⟨0, .reserve oneSecond⟩
  let status : Request := ⟨0, .usage⟩
  have begun : ((machine account still).restrict NoTimeout).Run start [] :=
    .start (World.empty_initial _)
  -- the first caller creates the lock file
  have opens : Step account still start (.start first grant)
      (start.setPhase first (.opening grant)) := .start rfl rfl
  have misses : Step account still _ (.openLock first) _ :=
    .openMissing (World.setPhase_phase_self start first (.opening grant)) oneSecond rfl rfl
  let ready : World :=
    { ((start.setPhase first (.opening grant)).setPhase first (.creating grant)).setPhase first
        (.locking grant true) with lockFile := true }
  have creates : Step account still _ (.createLock first) ready :=
    .create (World.setPhase_phase_self (start.setPhase first (.opening grant)) first
      (.creating grant)) rfl
  have created := ((begun.step ⟨opens, nofun⟩).step ⟨misses, nofun⟩).step ⟨creates, nofun⟩
  -- the second takes the lock for a status call
  have asks : Step account still ready (.start second status)
      (ready.setPhase second (.opening status)) := .start rfl rfl
  have finds : Step account still _ (.openLock second) _ :=
    .openUsage (World.setPhase_phase_self ready second (.opening status)) rfl rfl
  have takes : Step account still _ (.acquire second) _ :=
    .acquire (World.setPhase_phase_self (ready.setPhase second (.opening status)) second
      (.locking status false)) rfl
  have taken := ((created.step ⟨asks, nofun⟩).step ⟨finds, nofun⟩).step ⟨takes, nofun⟩
  obtain ⟨⟨twin, others, otherRun, _, history, ledger⟩, files⟩ :=
    usage_changes_nothing account still _ _ taken
  exact ⟨_, ⟨_, rfl⟩, ⟨twin, others, otherRun, history, ledger⟩, files⟩

end LorahamRns.Duty
