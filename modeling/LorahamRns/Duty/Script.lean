import LorahamRns.Duty.Charges
import LorahamRns.Duty.Machine

/-!
# Undisturbed calls

A reservation that is alone, on a healthy system, with the clocks standing still
while it runs, comes to its end.  Runs are built from such calls one after the
other.
-/

namespace LorahamRns.Duty

open LorahamRns.Lib

/-- The clocks stand still at `clock`, `boot_id` gives `boot` and nothing fails. -/
def Assumptions.still (clock : Clock) (boot : List Char) : Assumptions where
  advance first second := first = second
  refl _ := rfl
  trans first second := first.trans second
  sample sample := sample = ⟨clock.wall, clock.monotonic⟩
  boot reply := reply = some boot
  readFails := False
  writeFails _ := False

theorem still_live (clock : Clock) (boot : List Char) (effect : Effect) (store : Store)
    (hstore : store.clock = clock) :
    ∃ reply after, environment (.still clock boot) effect store reply after ∧
      after.clock = clock := by
  subst hstore
  cases effect with
  | time => exact ⟨_, _, ⟨store.clock, rfl, rfl, rfl⟩, rfl⟩
  | timeThenMonotonic => exact ⟨_, _, ⟨store.clock, store.clock, rfl, rfl, rfl, rfl, rfl⟩, rfl⟩
  | monotonicThenTime => exact ⟨_, _, ⟨store.clock, store.clock, rfl, rfl, rfl, rfl, rfl⟩, rfl⟩
  | bootId => exact ⟨some boot, store, ⟨rfl, rfl⟩, rfl⟩
  | readLedger limit =>
      cases hledger : store.ledger with
      | none => exact ⟨.missing, store, ⟨rfl, Or.inl ⟨hledger, rfl⟩⟩, rfl⟩
      | some text =>
          exact ⟨.content (text.take limit), store, ⟨rfl, Or.inr (Or.inl ⟨text, hledger, rfl⟩)⟩, rfl⟩
  | openTemp process => exact ⟨true, _, Or.inl ⟨rfl, rfl⟩, rfl⟩
  | writeTemp process first rest => exact ⟨some 0, _, Or.inl ⟨0, rfl, rfl⟩, rfl⟩
  | syncTemp process => exact ⟨true, _, Or.inl ⟨rfl, rfl⟩, rfl⟩
  | renameTemp process =>
      cases htemp : store.temp process with
      | none => exact ⟨false, store.failWrite, Or.inr ⟨rfl, Or.inr htemp, rfl⟩, rfl⟩
      | some content => exact ⟨true, _, Or.inl ⟨content, htemp, rfl, rfl⟩, rfl⟩
  | syncDirectory => exact ⟨true, _, Or.inl ⟨rfl, rfl⟩, rfl⟩
  | unlinkTemp process => exact ⟨true, _, rfl, rfl⟩
  | pendingRebase owner => exact ⟨store.pending owner, store, ⟨rfl, rfl⟩, rfl⟩
  | setPendingRebase owner value => exact ⟨(), _, rfl, rfl⟩

/-- The assumptions permit what a still clock shows. -/
structure Assumptions.Permits (assumptions : Assumptions) (clock : Clock) (boot : List Char) : Prop where
  sample : assumptions.sample ⟨clock.wall, clock.monotonic⟩
  boot : assumptions.boot (some boot)

theorem still_permitted {assumptions : Assumptions} {clock : Clock} {boot : List Char}
    (permits : assumptions.Permits clock boot) (effect : Effect) (store : Store)
    (reply : effect.Answer) (after : Store) (hstore : store.clock = clock)
    (answered : environment (.still clock boot) effect store reply after) :
    environment assumptions effect store reply after ∧ after.clock = clock := by
  cases effect with
  | time =>
      obtain ⟨_, rfl, rfl, rfl⟩ := answered
      exact ⟨⟨_, assumptions.refl _, rfl, rfl⟩, hstore⟩
  | timeThenMonotonic =>
      obtain ⟨_, _, rfl, rfl, rfl, hsample, rfl⟩ := answered
      refine ⟨⟨_, _, assumptions.refl _, assumptions.refl _, rfl, ?_, rfl⟩, hstore⟩
      rw [hsample]
      exact permits.sample
  | monotonicThenTime =>
      obtain ⟨_, _, rfl, rfl, rfl, hsample, rfl⟩ := answered
      refine ⟨⟨_, _, assumptions.refl _, assumptions.refl _, rfl, ?_, rfl⟩, hstore⟩
      rw [hsample]
      exact permits.sample
  | bootId =>
      obtain ⟨rfl, rfl⟩ := answered
      exact ⟨⟨permits.boot, rfl⟩, hstore⟩
  | readLedger limit =>
      obtain ⟨rfl, h | h | h⟩ := answered
      · exact ⟨⟨rfl, Or.inl h⟩, hstore⟩
      · exact ⟨⟨rfl, Or.inr (Or.inl h)⟩, hstore⟩
      · exact h.1.elim
  | openTemp process =>
      obtain ⟨rfl, rfl⟩ | ⟨_, h, _⟩ := answered
      · exact ⟨Or.inl ⟨rfl, rfl⟩, hstore⟩
      · exact h.elim
  | writeTemp process first rest =>
      obtain ⟨more, rfl, rfl⟩ | ⟨_, h, _⟩ := answered
      · exact ⟨Or.inl ⟨more, rfl, rfl⟩, hstore⟩
      · exact h.elim
  | syncTemp process =>
      obtain ⟨rfl, rfl⟩ | ⟨_, h, _⟩ := answered
      · exact ⟨Or.inl ⟨rfl, rfl⟩, hstore⟩
      · exact h.elim
  | renameTemp process =>
      obtain ⟨content, htemp, rfl, rfl⟩ | ⟨rfl, h | htemp, rfl⟩ := answered
      · exact ⟨Or.inl ⟨content, htemp, rfl, rfl⟩, hstore⟩
      · exact h.elim
      · exact ⟨Or.inr ⟨rfl, Or.inr htemp, rfl⟩, hstore⟩
  | syncDirectory =>
      obtain ⟨rfl, rfl⟩ | ⟨_, h, _⟩ := answered
      · exact ⟨Or.inl ⟨rfl, rfl⟩, hstore⟩
      · exact h.elim
  | unlinkTemp process =>
      obtain rfl := answered
      exact ⟨rfl, hstore⟩
  | pendingRebase owner =>
      obtain ⟨rfl, rfl⟩ := answered
      exact ⟨⟨rfl, rfl⟩, hstore⟩
  | setPendingRebase owner value =>
      obtain rfl := answered
      exact ⟨rfl, hstore⟩

/-! ## A call to its end -/

variable {account : DutyAccount} {assumptions : Assumptions}

/-- The program under the lock takes a path. -/
theorem run_path {init : World → Prop} {permitted : World → Label → World → Prop}
    {caller : Caller} {airtime : Airtime} {firstUse : Bool} (hpermitted : ∀ world after, permitted world (.effect caller) after)
    {program rest : Account Verdict} {store last : Store}
    (path : Program.Path (environment assumptions) program store rest last) {world : World}
    {trace : List Label} (run : ((machineFrom account assumptions init).restrict permitted).Run world trace)
    (hholder : world.holder = some ⟨caller, .reserve airtime firstUse program⟩)
    (hstore : world.store = store) :
    ∃ labels, ((machineFrom account assumptions init).restrict permitted).Run
      (world.setHolder last (some ⟨caller, .reserve airtime firstUse rest⟩)) (trace ++ labels) := by
  induction path generalizing world trace with
  | refl program state =>
      have hworld : world.setHolder state (some ⟨caller, .reserve airtime firstUse program⟩) = world := by
        rw [← hstore, ← hholder]
        rfl
      refine ⟨[], ?_⟩
      rw [hworld, List.append_nil]
      exact run
  | step answered _ ih =>
      subst hstore
      have hnext := run.step ⟨.effect hholder (.reserve answered), hpermitted _ _⟩
      obtain ⟨labels, hlast⟩ := ih hnext rfl rfl
      rw [List.append_assoc] at hlast
      exact ⟨_, hlast⟩

/-- The world a call leaves when it has ended. -/
structure World.Finished (world : World) (caller : Caller) (record : Record) (after : World) : Prop where
  phase : after.phase = (world.setPhase caller .idle).phase
  free : after.holder = none
  alive : after.alive = world.alive
  lockFile : after.lockFile = world.lockFile
  clock : after.store.clock = world.store.clock
  history : after.history = world.history ++ [record]

/-- On still clocks a reservation that has taken the lock runs to its end, and the
end is what the relation says. -/
theorem run_reserve {init : World → Prop} {permitted : World → Label → World → Prop}
    {caller : Caller} {airtime : Airtime} {firstUse : Bool} {number : ℕ} (heffect : ∀ world after, permitted world (.effect caller) after)
    (hfinish : ∀ world after, permitted world (.finish caller true) after) {world : World}
    {trace : List Label} (run : ((machineFrom account assumptions init).restrict permitted).Run world trace)
    (hholder : world.holder = some ⟨caller, .reserve airtime firstUse
      (reserve account ⟨caller.process, number⟩ firstUse airtime.value)⟩)
    {ledger : Option Ledger} (hledger : world.store.ledger = ledger.map Ledger.text)
    (hobserved : world.store.observed = .none) {boot : List Char}
    (permits : assumptions.Permits world.store.clock boot) :
    ∃ (after : World) (labels : List Label) (left : Option Ledger) (observed : Observed)
      (result : Except Failure Verdict),
      ((machineFrom account assumptions init).restrict permitted).Run after (trace ++ labels) ∧
      world.Finished caller ⟨airtime, firstUse, observed, .ended result⟩ after ∧
      after.store.ledger = left.map Ledger.text ∧
      Ended account (.still world.store.clock boot) firstUse airtime.value ledger world.store.clock
        result left world.store.clock observed := by
  have hwp : (reserve account ⟨caller.process, number⟩ firstUse airtime.value).wp
      (environment (.still world.store.clock boot)) _ _ _ world.store :=
    wp_reserve ⟨caller.process, number⟩ hledger hobserved
  have hpath : ∃ (result : Except Failure Verdict) (rest : Account Verdict) (last : Store),
      Program.Path (environment (.still world.store.clock boot))
        (reserve account ⟨caller.process, number⟩ firstUse airtime.value) world.store rest last ∧
      last.clock = world.store.clock ∧ (Running.reserve airtime firstUse rest).Ends result ∧
      Leaves (Ended account (.still world.store.clock boot) firstUse airtime.value ledger
        world.store.clock result) last := by
    rcases Program.wp_runs (still_live world.store.clock boot) hwp rfl with
      ⟨verdict, last, path, hclock, ended⟩ | ⟨failure, last, path, hclock, ended⟩
    · exact ⟨.ok verdict, _, last, path, hclock, .done, ended⟩
    · exact ⟨.error failure, _, last, path, hclock, .fail, ended⟩
  obtain ⟨result, rest, last, path, hclock, ends, left, hleft, ended⟩ := hpath
  obtain ⟨labels, ran⟩ := run_path heffect (path.mono (still_permitted permits) rfl) run hholder rfl
  have finished := ran.step ⟨.finish rfl ends, hfinish _ _⟩
  rw [List.append_assoc] at finished
  rw [hclock] at ended
  exact ⟨_, _, left, last.observed, result, finished, ⟨rfl, rfl, rfl, rfl, hclock, rfl⟩, hleft,
    ended⟩

/-! ## One call at a time -/

/-- No call is under way. -/
structure World.Resting (world : World) : Prop where
  idle : ∀ caller, world.phase caller = .idle
  free : world.holder = none

/-- One call at a time, run to its end on a healthy system, with a ledger the
reader reads whole; processes end between calls. -/
def Sequential (world : World) : Label → World → Prop
  | .start _ _, _ => world.Resting
  | .kill _, _ => world.Resting
  | .lockFault _, _ => False
  | .finish _ released, _ => released = true
  | .acquire _, _ => ∀ text, world.store.ledger = some text → text.length ≤ readLimit
  | _, _ => True

/-- The machine that runs one call at a time. -/
def sequential (account : DutyAccount) (assumptions : Assumptions) : System World Label :=
  (machine account assumptions).restrict Sequential

/-- The worlds undisturbed calls lead to. -/
def Reaches (account : DutyAccount) (assumptions : Assumptions) (world : World) : Prop :=
  ∃ trace, (sequential account assumptions).Run world trace

theorem Reaches.step {world after : World} {label : Label} (reaches : Reaches account assumptions world)
    (step : Step account assumptions world label after) (permitted : Sequential world label after) :
    Reaches account assumptions after := by
  obtain ⟨trace, run⟩ := reaches
  exact ⟨trace ++ [label], run.step ⟨step, permitted⟩⟩

/-- The lock is taken: created by the first call, found by the others. -/
theorem Reaches.acquired {world : World} {ledger : Option Ledger}
    (reaches : Reaches account assumptions world) (resting : world.Resting) (caller : Caller)
    (living : world.alive caller.process = true) (number : ℕ) (airtime : Airtime)
    (hledger : world.store.ledger = ledger.map Ledger.text)
    (hshort : ∀ content, ledger = some content → content.text.length ≤ readLimit)
    (hlock : world.lockFile = ledger.isSome) :
    Reaches account assumptions
      { (world.setPhase caller .inside).setHolder { world.store with observed := .none }
          (some ⟨caller, .reserve airtime ledger.isNone
            (reserve account ⟨caller.process, number⟩ ledger.isNone airtime.value)⟩) with
        lockFile := true } := by
  let request : Request := ⟨number, .reserve airtime⟩
  have hcap : ∀ text, world.store.ledger = some text → text.length ≤ readLimit := by
    intro text htext
    obtain ⟨content, hcontent, rfl⟩ := Option.map_eq_some_iff.mp (hledger.symm.trans htext)
    exact hshort content hcontent
  have hstart : ∀ request, Step account assumptions world (.start caller request)
      (world.setPhase caller (.opening request)) :=
    fun request => .start living (resting.idle caller)
  have opening := reaches.step (hstart request) resting
  cases ledger with
  | none =>
      have hmissing : (world.setPhase caller (.opening request)).lockFile = false := hlock
      have creating := opening.step
        (.openMissing (Function.update_self ..) airtime rfl hmissing) trivial
      have locking := creating.step (.create (Function.update_self ..) hlock) trivial
      have acquired := locking.step (.acquire (Function.update_self ..) resting.free) hcap
      simpa [World.setPhase, World.setHolder, begin, request] using acquired
  | some content =>
      have hexists : (world.setPhase caller (.opening request)).lockFile = true := hlock
      have hpresent : world.store.ledger.isSome = true := by rw [hledger]; rfl
      have waiting := opening.step
        (.openReserve (Function.update_self ..) airtime rfl hexists) trivial
      have locking := waiting.step (.foundLedger (Function.update_self ..) hpresent) trivial
      have acquired := locking.step (.acquire (Function.update_self ..) resting.free) hcap
      simpa [World.setPhase, World.setHolder, begin, request, hlock] using acquired

/-- An undisturbed reservation on a resting world comes to its end, and the end is
what the relation says of a still clock. -/
theorem Reaches.reserve {world : World} {ledger : Option Ledger}
    (reaches : Reaches account assumptions world) (resting : world.Resting) (caller : Caller)
    (living : world.alive caller.process = true) (number : ℕ) (airtime : Airtime)
    (hledger : world.store.ledger = ledger.map Ledger.text)
    (hshort : ∀ content, ledger = some content → content.text.length ≤ readLimit)
    (hlock : world.lockFile = ledger.isSome) {clock : Clock} {boot : List Char}
    (moved : assumptions.advance world.store.clock clock)
    (permits : assumptions.Permits clock boot) :
    ∃ (after : World) (left : Option Ledger) (observed : Observed) (result : Except Failure Verdict),
      Reaches account assumptions after ∧ after.Resting ∧ after.alive = world.alive ∧
      after.lockFile = true ∧ after.store.clock = clock ∧
      after.store.ledger = left.map Ledger.text ∧
      after.history = world.history ++ [⟨airtime, ledger.isNone, observed, .ended result⟩] ∧
      Ended account (.still clock boot) ledger.isNone airtime.value ledger clock result left clock
        observed := by
  -- time passes, then the lock is taken
  have waited := reaches.step (.wait resting.free moved) trivial
  have acquired := waited.acquired ⟨resting.idle, rfl⟩ caller living number airtime
    hledger hshort hlock
  -- the program runs to its end on still clocks
  obtain ⟨trace, run⟩ := acquired
  obtain ⟨after, labels, left, observed, result, ran, finished, hleft, ended⟩ :=
    run_reserve (fun _ _ => trivial) (fun _ _ => rfl) run rfl hledger rfl permits
  refine ⟨after, left, observed, result, ⟨_, ran⟩, ⟨?_, finished.free⟩, finished.alive,
    finished.lockFile, finished.clock, hleft, finished.history, ended⟩
  intro other
  rw [finished.phase]
  by_cases hother : other = caller
  · subst hother
    exact World.setPhase_phase_self ..
  · simp [World.setPhase, World.setHolder, hother, resting.idle]

/-! ## Grants -/

/-- A ledger that a call with its clocks still at `clock` takes as it is. -/
structure Readable (clock : Clock) (boot : List Char) (content : Ledger) : Prop where
  boot : content.boot = strip boot
  near : |clock.offset - content.sample.offset| ≤ clockSkewS
  short : content.text.length ≤ readLimit
  credible : ∀ entry ∈ content.entries, entry.Credible
  past : ∀ entry ∈ content.entries, entry.time ≤ clock.wall.value

/-- The entries of the ledger, if there is one. -/
def entriesOf (ledger : Option Ledger) : List Entry :=
  match ledger with
  | none => []
  | some content => content.entries

theorem View.of_readable {clock now last : Clock} {boot : List Char} {ledger : Option Ledger}
    {firstUse : Bool} {compared : Option Sample} {entries : List Entry}
    (readable : ∀ content, ledger = some content → Readable clock boot content)
    (hclock : clock = now)
    (view : View account (.still clock boot) firstUse ledger now last compared entries) :
    entries = prune account clock.wall.value (entriesOf ledger) := by
  subst hclock
  obtain ⟨found, hfound, rfl⟩ := view
  cases hfound with
  | fresh hmissing =>
      rw [hmissing]
      rfl
  | @present content later _ _ _ hpresent _ _ moved rebased =>
      have hreadable := readable content hpresent
      rw [hpresent]
      cases rebased with
      | empty nothing =>
          rw [entriesOf, nothing]
      | sameBoot before behind hsample =>
          rw [hsample]
          exact congrArg _ (if_pos hreadable.near)
      | otherBoot before other =>
          obtain ⟨reply, hreply, hother⟩ := other
          rw [show reply = some boot from hreply, hreadable.boot] at hother
          exact absurd rfl hother

/-- Nothing makes an undisturbed call on a legible ledger raise. -/
theorem Cause.still {clock : Clock} {boot : List Char} {ledger left : Option Ledger}
    {observed : Observed} {failure : Failure}
    (cause : Cause (.still clock boot) ledger.isNone ledger left clock observed failure)
    (short : ∀ content, ledger = some content → content.text.length ≤ readLimit)
    (credible : ∀ content, ledger = some content → ∀ entry ∈ content.entries, entry.Credible)
    (past : ∀ content, ledger = some content → ∀ entry ∈ content.entries,
      entry.time ≤ clock.wall.value) : False := by
  rcases cause with ⟨hread, _⟩ | ⟨_, _, hwrite⟩
  · unfold ReadCause at hread
    split at hread
    · obtain ⟨rfl, hfirst⟩ := hread
      cases hfirst
    · exact hread.elim
    · exact hread.elim
    · obtain ⟨content, hcontent, hlong | ⟨entry, hentry, hbad⟩ | ⟨entry, hentry, later, hlater, hfuture⟩⟩ :=
        hread
      · exact absurd (short content hcontent) (not_le.mpr hlong)
      · exact absurd (credible content hcontent entry hentry) hbad
      · have hpast := past content hcontent entry hentry
        rw [← show clock = later from hlater] at hfuture
        linarith [clockSkewS_nonneg]
    · exact hread.elim
  · exact hwrite.elim

/-- An undisturbed call that the limits admit is granted, and its ledger is what it
read, pruned, with its own reservation behind. -/
theorem Ended.still_granted {clock : Clock} {boot : List Char} {ledger left : Option Ledger}
    {airtime : Decimal} {observed : Observed} {result : Except Failure Verdict}
    (readable : ∀ content, ledger = some content → Readable clock boot content)
    (admits : Admits account (prune account clock.wall.value (entriesOf ledger)) clock.wall.value
      airtime)
    (ended : Ended account (.still clock boot) ledger.isNone airtime ledger clock result left clock
      observed) :
    result = .ok .granted ∧ observed.now = some clock ∧
      left = some ⟨strip boot, clock.monotonic, clock.wall,
        prune account clock.wall.value (entriesOf ledger) ++ [⟨clock.wall.value, airtime⟩]⟩ := by
  cases ended with
  | @granted now last _ compared entries content _ began view wrote noted _ _ recorded admitted =>
      have hnow : clock = now := began
      have hentries := view.of_readable readable hnow
      obtain ⟨first, second, hfirst, hsecond, hfinish, hmono, hwall⟩ := wrote.clocks
      obtain ⟨reply, hreply, hboot⟩ := wrote.boot
      have hsecond' : second = clock := hfinish
      have hfirst' : first = clock := (show first = second from hsecond).trans hsecond'
      refine ⟨rfl, by rw [noted, hnow], congrArg some ?_⟩
      obtain ⟨contentBoot, contentMono, contentWall, contentEntries⟩ := content
      dsimp only at hmono hwall hboot recorded
      rw [hmono, hwall, hboot, recorded, hfirst', hsecond', hentries, ← hnow,
        show reply = some boot from hreply]
      rfl
  | refused began view moved noted compare kept decided =>
      rw [view.of_readable readable began, ← show clock = _ from began] at decided
      rw [Admits] at admits
      rw [admits] at decided
      cases decided
  | failed progress cause =>
      exact (cause.still (fun content hcontent => (readable content hcontent).short)
        (fun content hcontent => (readable content hcontent).credible)
        fun content hcontent => (readable content hcontent).past).elim

/-- A resting world between undisturbed calls, with what is on disk. -/
structure Rested (account : DutyAccount) (assumptions : Assumptions) (world : World)
    (ledger : Option Ledger) (clock : Clock) : Prop where
  reaches : Reaches account assumptions world
  resting : world.Resting
  living : ∀ process, world.alive process = true
  lockFile : world.lockFile = ledger.isSome
  onDisk : world.store.ledger = ledger.map Ledger.text
  clock : world.store.clock = clock

/-- A granted call leads from one resting world to the next. -/
theorem Rested.grant {world : World} {ledger : Option Ledger} {start clock : Clock}
    {boot : List Char} (rested : Rested account assumptions world ledger start)
    (moved : assumptions.advance start clock) (permits : assumptions.Permits clock boot)
    (readable : ∀ content, ledger = some content → Readable clock boot content)
    (caller : Caller) (number : ℕ) (airtime : Airtime)
    (admits : Admits account (prune account clock.wall.value (entriesOf ledger)) clock.wall.value
      airtime.value) :
    ∃ (after : World) (observed : Observed),
      Rested account assumptions after (some ⟨strip boot, clock.monotonic, clock.wall,
        prune account clock.wall.value (entriesOf ledger) ++
          [⟨clock.wall.value, airtime.value⟩]⟩) clock ∧
      after.history =
        world.history ++ [⟨airtime, ledger.isNone, observed, .ended (.ok .granted)⟩] ∧
      observed.now = some clock := by
  obtain ⟨after, left, observed, result, reaches, resting, halive, hlock, hclock, hledger, hhistory,
    ended⟩ := rested.reaches.reserve rested.resting caller (rested.living _) number airtime
      rested.onDisk (fun content hcontent => (readable content hcontent).short) rested.lockFile
      (rested.clock ▸ moved) permits
  obtain ⟨rfl, hnow, rfl⟩ := ended.still_granted readable admits
  exact ⟨after, observed, ⟨reaches, resting, fun process => halive ▸ rested.living process, hlock,
    hledger, hclock⟩, hhistory, hnow⟩

/-! ## The start -/

theorem inRange_of_le {value : Decimal} (h : |value.val| ≤ 10 ^ 9) : |value.val| < floatLimit :=
  lt_of_le_of_lt h floatLimit_gt

/-- The reading of a value a clock can show. -/
def readingOf (value : Decimal) : Reading :=
  if valid : 0 ≤ value ∧ |value.val| < floatLimit then ⟨value, valid.1, valid.2⟩
  else ⟨0, le_rfl, inRange_of_le (by norm_num)⟩

theorem readingOf_value {value : Decimal} (hnonneg : 0 ≤ value) (h : |value.val| ≤ 10 ^ 9) :
    (readingOf value).value = value := by
  rw [readingOf, dif_pos ⟨hnonneg, inRange_of_le h⟩]

/-- Both clocks at given values. -/
def clockAt (wall monotonic : Decimal) : Clock := ⟨readingOf wall, readingOf monotonic⟩

/-- Nothing on disk, every process alive. -/
def World.empty (clock : Clock) : World where
  store :=
    { clock
      ledger := none
      temp := fun _ => none
      pending := fun _ => false
      observed := .none }
  lockFile := false
  alive := fun _ => true
  phase := fun _ => .idle
  holder := none
  history := []

theorem World.empty_initial (clock : Clock) : (World.empty clock).Initial :=
  ⟨rfl, fun _ => rfl, fun _ => rfl, rfl, rfl, fun _ => rfl, rfl, rfl⟩

theorem Rested.empty (clock : Clock) :
    Rested account assumptions (World.empty clock) none clock :=
  ⟨⟨[], .start (World.empty_initial clock)⟩, ⟨fun _ => rfl, rfl⟩, fun _ => rfl, rfl, rfl, rfl⟩

/-! ## Series of grants -/

section Series

variable (clock : ℕ → Clock) (airtime : ℕ → Airtime) (boot : List Char)

/-- The entries of the first calls of a series. -/
def series (count : ℕ) : List Entry :=
  (List.range count).map fun index => ⟨(clock index).wall.value, (airtime index).value⟩

/-- The ledger the last of the calls writes. -/
def seriesLedger (count : ℕ) : Ledger :=
  ⟨strip boot, (clock (count - 1)).monotonic, (clock (count - 1)).wall, series clock airtime count⟩

/-- What is on disk after the calls. -/
def seriesDisk : ℕ → Option Ledger
  | 0 => none
  | count + 1 => some (seriesLedger clock airtime boot (count + 1))

theorem entriesOf_seriesDisk (count : ℕ) :
    entriesOf (seriesDisk clock airtime boot count) = series clock airtime count := by
  cases count with
  | zero => rfl
  | succ count => rfl

theorem series_succ (count : ℕ) :
    series clock airtime (count + 1) =
      series clock airtime count ++ [⟨(clock count).wall.value, (airtime count).value⟩] := by
  rw [series, List.range_succ, List.map_append]
  rfl

theorem series_succ_left (count : ℕ) :
    series clock airtime (count + 1) =
      ⟨(clock 0).wall.value, (airtime 0).value⟩ ::
        series (fun index => clock (index + 1)) (fun index => airtime (index + 1)) count := by
  rw [series, List.range_succ_eq_map, List.map_cons, List.map_map]
  rfl

/-- Undisturbed calls that the limits admit one after the other, with nothing to prune,
are all granted. -/
theorem Rested.series {count : ℕ}
    (moved : ∀ index < count, assumptions.advance (clock (index - 1)) (clock index))
    (permits : ∀ index < count, assumptions.Permits (clock index) boot)
    (readable : ∀ index < count, 0 < index →
      Readable (clock index) boot (seriesLedger clock airtime boot index))
    (kept : ∀ index < count, prune account (clock index).wall.value
      (Duty.series clock airtime index) = Duty.series clock airtime index)
    (admits : ∀ index < count, Admits account (Duty.series clock airtime index)
      (clock index).wall.value (airtime index).value) :
    ∃ (world : World) (observed : ℕ → Observed),
      Rested account assumptions world (seriesDisk clock airtime boot count) (clock (count - 1)) ∧
      world.history = (List.range count).map (fun index =>
        ⟨airtime index, decide (index = 0), observed index, .ended (.ok .granted)⟩) ∧
      ∀ index < count, (observed index).now = some (clock index) := by
  induction count with
  | zero => exact ⟨World.empty (clock 0), fun _ => .none, Rested.empty _, rfl, nofun⟩
  | succ count ih =>
      obtain ⟨world, observed, rested, hhistory, hnow⟩ := ih
        (fun index h => moved index (by omega)) (fun index h => permits index (by omega))
        (fun index h => readable index (by omega)) (fun index h => kept index (by omega))
        (fun index h => admits index (by omega))
      have hentries := entriesOf_seriesDisk clock airtime boot count
      have hkept := kept count (Nat.lt_succ_self count)
      have hreadable : ∀ content, seriesDisk clock airtime boot count = some content →
          Readable (clock count) boot content := by
        cases count with
        | zero => exact nofun
        | succ count =>
            rintro _ ⟨⟩
            exact readable _ (Nat.lt_succ_self _) (Nat.succ_pos _)
      obtain ⟨after, seen, hrested, hafter, hseen⟩ := rested.grant (moved count (Nat.lt_succ_self count))
        (permits count (Nat.lt_succ_self count)) hreadable ⟨1, 0⟩ 0 (airtime count)
        (by rw [hentries, hkept]; exact admits count (Nat.lt_succ_self count))
      refine ⟨after, Function.update observed count seen, ?_, ?_, ?_⟩
      · rw [hentries, hkept, ← series_succ] at hrested
        exact hrested
      · rw [hafter, hhistory, List.range_succ, List.map_append]
        congr 1
        · refine List.map_congr_left ?_
          intro index hindex
          rw [Function.update_of_ne (List.mem_range.mp hindex).ne]
        · rw [List.map_singleton, Function.update_self]
          cases count <;> rfl
      · intro index hindex
        by_cases hlast : index = count
        · rw [hlast, Function.update_self]
          exact hseen
        · rw [Function.update_of_ne hlast]
          exact hnow index (by omega)

end Series

/-- An airtime of one second. -/
def oneSecond : Airtime := ⟨1, by norm_num, inRange_of_le (by norm_num)⟩

/-- What the first reservation leaves. -/
def firstLedger (boot : List Char) : Ledger :=
  ⟨strip boot, readingOf 100, readingOf 100, [⟨(readingOf 100).value, 1⟩]⟩

/-- The first reservation in an empty state directory, one second at second 100. -/
theorem first_rested {boot : List Char} (permits : assumptions.Permits (clockAt 100 100) boot) :
    ∃ (world : World) (observed : Observed),
      Rested .default assumptions world (some (firstLedger boot)) (clockAt 100 100) ∧
      world.history = [⟨oneSecond, true, observed, .ended (.ok .granted)⟩] ∧
      observed.now = some (clockAt 100 100) := by
  have admits : Admits .default (prune .default (clockAt 100 100).wall.value (entriesOf none))
      (clockAt 100 100).wall.value oneSecond.value := by
    refine (refusal_none_iff ..).mpr ⟨Or.inl le_rfl, ?_⟩
    rw [show prune .default (clockAt 100 100).wall.value (entriesOf none) = [] from rfl, charges_nil,
      show Charge.since ([] : List (Charge ℚ)) _ = 0 from rfl]
    norm_num [allowance, DutyAccount.default, oneSecond]
  exact (Rested.empty (clockAt 100 100)).grant (assumptions.refl _) permits (by rintro _ ⟨⟩) ⟨1, 0⟩ 0 oneSecond
    admits

theorem first_grant {boot : List Char} (permits : assumptions.Permits (clockAt 100 100) boot) :
    ∃ (world : World) (observed : Observed),
      Reaches .default assumptions world ∧
      world.history = [⟨oneSecond, true, observed, .ended (.ok .granted)⟩] ∧
      observed.now = some (clockAt 100 100) := by
  obtain ⟨world, observed, rested, hhistory, hnow⟩ := first_rested permits
  exact ⟨world, observed, rested.reaches, hhistory, hnow⟩

end LorahamRns.Duty
