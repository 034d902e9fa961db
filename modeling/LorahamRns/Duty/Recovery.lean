import LorahamRns.Duty.Script

/-!
# Crashes and failed writes

A crash or a failed write at any point leaves a ledger that the next call reads,
with one exception: the call that creates the lock file has to get as far as its
initialisation write.  Killed before that, it leaves a lock without a ledger,
and every later reservation refuses to transmit.
-/

namespace LorahamRns.Duty

open LorahamRns.Lib

/-- Clocks that never go back, files that nobody else touches, and writes that may
fail where `writeFails` says so. -/
def Assumptions.crashing (writeFails : Option (List Char) → Prop) : Assumptions where
  advance first second :=
    first.wall.value ≤ second.wall.value ∧ first.monotonic.value ≤ second.monotonic.value
  refl := Clock.onward_refl
  trans := Clock.onward_trans
  sample _ := True
  boot _ := True
  readFails := False
  writeFails := writeFails

/-- The only faults are crashes and failed writes: the lock file opens, no peer holds
the flock until the timeout, and it is released. -/
def OnlyCrashes (_ : World) : Label → World → Prop
  | .lockFault _, _ => False
  | .lockBusy _, _ => False
  | .finish _ released, _ => released = true
  | _, _ => True

/-- A grant-or-refuse decision on the limits, a crash, or the failure of the call's
own write. -/
def Record.Decided (record : Record) : Prop :=
  match record.outcome with
  | .ended (.ok _) => True
  | .ended (.error (.duty .notWritten)) => record.observed.writeFailed = true
  | .ended (.error _) => False
  | .killed => True
  | .notReleased => False

variable {account : DutyAccount} {writeFails : Option (List Char) → Prop}

/-! ## The ledger stays readable -/

/-- Whatever is on disk can be read at the present clock. -/
structure Sturdy (ledger : Option Ledger) (clock : Clock) : Prop where
  wall : ∀ content, ledger = some content → content.wall.value ≤ clock.wall.value
  monotonic : ∀ content, ledger = some content → content.monotonic.value ≤ clock.monotonic.value
  entries : ∀ content, ledger = some content → ∀ entry ∈ content.entries,
    entry.Credible ∧ entry.time ≤ content.wall.value

theorem Sturdy.pass {ledger : Option Ledger} {start clock : Clock} (sturdy : Sturdy ledger start)
    (moved : (Assumptions.crashing writeFails).advance start clock) : Sturdy ledger clock :=
  ⟨fun content hcontent => (sturdy.wall content hcontent).trans moved.1,
    fun content hcontent => (sturdy.monotonic content hcontent).trans moved.2, sturdy.entries⟩

/-- A rebase moves no stamp beyond the present. -/
theorem Rebased.past {content : Ledger} {start last : Clock} {compared : Option Sample}
    {entries : List Entry}
    (rebased : Rebased (Assumptions.crashing writeFails) content start last compared entries)
    (sturdy : Sturdy (some content) start) {entry : Entry} (hentry : entry ∈ entries) :
    entry.time ≤ last.wall.value ∧ |entry.airtime.val| < floatLimit ∧ 0 < entry.airtime := by
  have hwall := sturdy.wall content rfl
  have hmono := sturdy.monotonic content rfl
  have hlast := rebased.advance
  have hkept : ∀ original ∈ content.entries, original.time ≤ content.wall.value ∧
      |original.airtime.val| < floatLimit ∧ 0 < original.airtime := fun original horiginal =>
    have h := sturdy.entries content rfl original horiginal
    ⟨h.2, h.1.airtime, h.1.positive⟩
  have hsame : entry ∈ content.entries → _ := fun h =>
    have hfacts := hkept entry h
    (⟨hfacts.1.trans (hwall.trans hlast.1), hfacts.2⟩ :
      entry.time ≤ last.wall.value ∧ |entry.airtime.val| < floatLimit ∧ 0 < entry.airtime)
  cases rebased with
  | empty nothing => exact absurd hentry List.not_mem_nil
  | @sameBoot first second before behind _ =>
      split at hentry
      · exact hsame hentry
      · obtain ⟨original, horiginal, rfl⟩ := List.mem_map.mp hentry
        obtain ⟨htime, hrest⟩ := hkept original horiginal
        have hfirst : first.wall.value ≤ last.wall.value := behind.1
        have hsecond : start.monotonic.value ≤ last.monotonic.value :=
          before.2.trans behind.2
        refine ⟨?_, hrest⟩
        simp only [Entry.shift, Sample.offset, Ledger.sample]
        linarith
  | otherBoot before other =>
      split at hentry
      · obtain ⟨original, horiginal, rfl⟩ := List.mem_map.mp hentry
        obtain ⟨htime, hrest⟩ := hkept original horiginal
        refine ⟨?_, hrest⟩
        simp only [Entry.shift]
        linarith
      · exact hsame hentry

/-- The entries a call decides on can be written and read. -/
theorem View.credible {ledger : Option Ledger} {now last : Clock} {firstUse : Bool}
    {compared : Option Sample} {entries : List Entry} (sturdy : Sturdy ledger now)
    (view : View account (Assumptions.crashing writeFails) firstUse ledger now last compared entries)
    {entry : Entry} (hentry : entry ∈ entries) :
    entry.Credible ∧ entry.time ≤ last.wall.value := by
  obtain ⟨found, hfound, rfl⟩ := view
  obtain ⟨hentry, hyoung⟩ := List.mem_filter.mp hentry
  cases hfound with
  | fresh => exact absurd hentry List.not_mem_nil
  | @present content later _ _ _ hpresent _ _ moved rebased =>
      subst hpresent
      obtain ⟨hpast, hairtime, hpositive⟩ := rebased.past (sturdy.pass moved) hentry
      refine ⟨⟨abs_lt.mpr ⟨?_, ?_⟩, hairtime, hpositive⟩, hpast⟩
      · have hyoung' : now.wall.value.val - account.longWindow.val < entry.time.val :=
          of_decide_eq_true hyoung
        have hnow : (0 : ℚ) ≤ now.wall.value.val := now.wall.nonneg
        linarith [account.longInRange]
      · have hlast : entry.time.val ≤ last.wall.value.val := hpast
        exact lt_of_le_of_lt hlast (abs_lt.mp last.wall.inRange).2

/-- Whatever a call leaves can be read again. -/
theorem Sturdy.progress {ledger left : Option Ledger} {start clock : Clock} {firstUse : Bool}
    {airtime : Airtime} {observed : Observed} (sturdy : Sturdy ledger start)
    (progress : Progress account (Assumptions.crashing writeFails) firstUse airtime.value ledger start
      left clock observed) : Sturdy left clock := by
  cases progress with
  | untouched moved => exact sturdy.pass moved
  | @written now last _ compared entries content _ began view wrote _ _ _ recorded =>
      obtain ⟨first, second, hfirst, hsecond, hfinish, hmono, hwall⟩ := wrote.clocks
      have hview : ∀ entry ∈ entries, entry.Credible ∧ entry.time ≤ last.wall.value :=
        fun _ hentry => view.credible (sturdy.pass began) hentry
      obtain ⟨found, hfound, _⟩ := view
      have hlast : last.wall.value ≤ content.wall.value := by
        rw [hwall]
        exact hfirst.1.trans hsecond.1
      have hnow : now.wall.value ≤ content.wall.value := hfound.advance.1.trans hlast
      refine ⟨?_, ?_, ?_⟩
      · rintro _ ⟨⟩
        rw [hwall]
        exact hfinish.1
      · rintro _ ⟨⟩
        rw [hmono]
        exact hsecond.2.trans hfinish.2
      · rintro _ ⟨⟩ entry hentry
        have hown : entry ∈ entries → entry.Credible ∧ entry.time ≤ content.wall.value :=
          fun h => ⟨(hview entry h).1, (hview entry h).2.trans hlast⟩
        rcases recorded with hentries | ⟨hentries, _⟩
        · exact hown (hentries ▸ hentry)
        · rw [hentries] at hentry
          rcases List.mem_append.mp hentry with h | h
          · exact hown h
          · rw [List.mem_singleton.mp h]
            exact ⟨⟨now.wall.inRange, airtime.inRange, airtime.positive⟩, hnow⟩

/-- Nothing about a readable ledger makes `_read` raise. -/
theorem Sturdy.no_read_cause {assumptions : Assumptions} {ledger : Option Ledger} {start : Clock}
    {firstUse : Bool} {failure : Failure} (sturdy : Sturdy ledger start)
    (hshort : ∀ content, ledger = some content → content.text.length ≤ readLimit)
    (hpresent : firstUse = false → ledger.isSome = true) (hreads : ¬ assumptions.readFails)
    (hforward : ∀ clock, assumptions.advance start clock → start.wall.value ≤ clock.wall.value) :
    ¬ ReadCause assumptions firstUse ledger start failure := by
  intro cause
  unfold ReadCause at cause
  split at cause
  · obtain ⟨rfl, hfirst⟩ := cause
    cases hpresent hfirst
  · exact hreads cause
  · exact hreads cause
  · obtain ⟨content, hcontent, hlong | ⟨entry, hentry, hbad⟩ | ⟨entry, hentry, later, hlater, hfuture⟩⟩ :=
      cause
    · exact absurd (hshort content hcontent) (not_le.mpr hlong)
    · exact absurd (sturdy.entries content hcontent entry hentry).1 hbad
    · have hpast := (sturdy.entries content hcontent entry hentry).2
      have hwall := sturdy.wall content hcontent
      have hmoved := hforward later hlater
      linarith [clockSkewS_nonneg]
  · exact cause

/-- A call that reads a readable ledger, or creates it, comes to a decision unless its
own write fails. -/
theorem Sturdy.decided {ledger left : Option Ledger} {start clock : Clock} {firstUse : Bool}
    {airtime : Airtime} {observed : Observed} {result : Except Failure Verdict}
    (sturdy : Sturdy ledger start)
    (hshort : ∀ content, ledger = some content → content.text.length ≤ readLimit)
    (hpresent : firstUse = false → ledger.isSome = true)
    (ended : Ended account (Assumptions.crashing writeFails) firstUse airtime.value ledger start result
      left clock observed) :
    Record.Decided ⟨airtime, firstUse, observed, .ended result⟩ := by
  cases ended with
  | granted => trivial
  | refused => trivial
  | failed progress cause =>
      rcases cause with ⟨hread, _⟩ | ⟨rfl, hnoted, _⟩
      · exact absurd hread (sturdy.no_read_cause hshort hpresent not_false fun _ moved => moved.1)
      · exact hnoted

/-! ## The first write -/

/-- The caller has created the lock file, and its ledger is not on disk yet. -/
def World.Initialising (world : World) (caller : Caller) : Prop :=
  (∃ request, world.phase caller = .locking request true) ∨
    (∃ airtime program, world.holder = some ⟨caller, .reserve airtime true program⟩) ∧
      world.store.ledger = none

/-- The creator of the lock file is neither killed nor overtaken before its ledger
is on disk, and the ledger fits the reader. -/
def Settles (world : World) (label : Label) (after : World) : Prop :=
  OnlyCrashes world label after ∧
    match label with
    | .kill process => ∀ caller, world.Initialising caller → caller.process ≠ process
    | .acquire caller =>
        (∀ text, world.store.ledger = some text → text.length ≤ readLimit) ∧
          ∀ other, world.Initialising other → other ≠ caller → world.store.ledger.isSome = true
    | _ => True

/-- Writes fail, but not before the first ledger is on disk. -/
def afterFirstWrite (ledger : Option (List Char)) : Prop := ledger.isSome = true

theorem environment_keeps_ledger {assumptions : Assumptions} {effect : Effect} {store after : Store}
    {reply : effect.Answer} (answered : environment assumptions effect store reply after)
    (hledger : store.ledger.isSome = true) : after.ledger.isSome = true := by
  cases effect with
  | time =>
      obtain ⟨_, _, _, rfl⟩ := answered
      exact hledger
  | timeThenMonotonic =>
      obtain ⟨_, _, _, _, _, _, rfl⟩ := answered
      exact hledger
  | monotonicThenTime =>
      obtain ⟨_, _, _, _, _, _, rfl⟩ := answered
      exact hledger
  | bootId | readLedger | pendingRebase =>
      first
        | (obtain ⟨_, rfl⟩ := answered; exact hledger)
        | (obtain ⟨rfl, _⟩ := answered; exact hledger)
  | openTemp | syncTemp | syncDirectory =>
      obtain ⟨_, rfl⟩ | ⟨_, _, rfl⟩ := answered <;> exact hledger
  | writeTemp =>
      obtain ⟨_, _, rfl⟩ | ⟨_, _, rfl⟩ := answered <;> exact hledger
  | renameTemp =>
      obtain ⟨_, _, _, rfl⟩ | ⟨_, _, rfl⟩ := answered
      · rfl
      · exact hledger
  | unlinkTemp | setPendingRebase =>
      obtain rfl := answered
      exact hledger

/-- A first use that comes to its end leaves a ledger. -/
theorem Ended.leaves_ledger {ledger left : Option Ledger} {start clock : Clock} {airtime : Decimal}
    {observed : Observed} {result : Except Failure Verdict}
    (ended : Ended account (Assumptions.crashing afterFirstWrite) true airtime ledger start result left
      clock observed) : left.isSome = true := by
  cases ended with
  | granted => rfl
  | refused began view moved noted compare kept decided =>
      rcases kept with ⟨hfirst, _⟩ | ⟨content, rfl, _⟩
      · cases hfirst
      · rfl
  | failed progress cause =>
      rcases cause with ⟨hread, _⟩ | ⟨_, _, hleft⟩
      · unfold ReadCause at hread
        split at hread
        · cases hread.2
        · exact hread.elim
        · exact hread.elim
        · obtain ⟨content, rfl, _⟩ := hread
          cases progress <;> rfl
        · exact hread.elim
      · have hpresent : (left.map Ledger.text).isSome = true := hleft
        rwa [Option.isSome_map] at hpresent

/-- A call that did not create the lock file and finds no ledger refuses to assume one. -/
theorem Ended.disappeared {assumptions : Assumptions} {left : Option Ledger} {start clock : Clock}
    {airtime : Decimal} {observed : Observed} {result : Except Failure Verdict}
    (ended : Ended account assumptions false airtime none start result left clock observed)
    (hreads : ¬ assumptions.readFails) (hwrites : ∀ ledger, ¬ assumptions.writeFails ledger) :
    result = .error (.duty .disappeared) := by
  have hview : ∀ {now last compared entries},
      ¬ View account assumptions false none now last compared entries := by
    rintro now last compared entries ⟨found, hfound, _⟩
    cases hfound with
    | fresh _ first => cases first
    | present present => cases present
  cases ended with
  | granted began view => exact absurd view hview
  | refused began view => exact absurd view hview
  | failed progress cause =>
      rcases cause with ⟨hread, _⟩ | ⟨_, _, hwrite⟩
      · unfold ReadCause at hread
        split at hread
        · rfl
        · exact absurd hread hreads
        · exact absurd hread hreads
        · obtain ⟨_, hcontent, _⟩ := hread
          cases hcontent
        · exact hread.elim
      · exact absurd hwrite (hwrites _)

/-! ## Runs -/

/-- The call under the lock found a readable ledger, or is the first. -/
def Holder.Settled (account : DutyAccount) (holder : Holder) (store : Store) : Prop :=
  ∃ ledger start, Sturdy ledger start ∧
    (∀ content, ledger = some content → content.text.length ≤ readLimit) ∧
    (∀ airtime program, holder.running = .reserve airtime false program → ledger.isSome = true) ∧
    holder.running.Sound account (Assumptions.crashing afterFirstWrite) ledger start store

/-- Only a reservation creates the lock file, and nobody waits for one that is not there. -/
def Phase.Settled (lockFile : Bool) : Phase → Prop
  | .creating request => ∃ airtime, request.call = .reserve airtime
  | .waiting _ => lockFile = true
  | .locking request firstUse =>
      lockFile = true ∧ (firstUse = true → ∃ airtime, request.call = .reserve airtime)
  | _ => True

/-- What holds between two steps of a run that settles. -/
structure World.Settled (account : DutyAccount) (world : World) : Prop where
  phases : ∀ caller, (world.phase caller).Settled world.lockFile
  inside : ∀ holder, world.holder = some holder → world.phase holder.caller = .inside
  owned : world.lockFile = true → world.store.ledger = none → ∃ caller, world.Initialising caller
  decided : ∀ record ∈ world.history, record.Decided
  free : world.holder = none → Leaves (fun ledger clock _ => Sturdy ledger clock) world.store
  held : ∀ holder, world.holder = some holder → holder.Settled account world.store

theorem World.Settled.initial {world : World} (initial : world.Initial) : world.Settled account where
  phases caller := by
    rw [initial.phase]
    trivial
  inside holder hholder := by
    rw [initial.holder] at hholder
    cases hholder
  owned hlock _ := by
    rw [initial.lockFile] at hlock
    cases hlock
  decided := by
    rw [initial.history]
    exact fun _ h => absurd h List.not_mem_nil
  free _ := ⟨none, initial.ledger, nofun, nofun, nofun⟩
  held holder hholder := by
    rw [initial.holder] at hholder
    cases hholder

theorem Phase.Settled.opened {lockFile : Bool} {phase : Phase} (settled : phase.Settled lockFile) :
    phase.Settled true := by
  cases phase with
  | waiting request => rfl
  | locking request firstUse => exact ⟨rfl, settled.2⟩
  | _ => exact settled

theorem phases_setPhase {world : World} {lockFile : Bool}
    (settled : ∀ caller, (world.phase caller).Settled lockFile) {caller : Caller} {phase : Phase}
    (hphase : phase.Settled lockFile) (other : Caller) :
    ((world.setPhase caller phase).phase other).Settled lockFile := by
  by_cases hother : other = caller
  · rw [hother, World.setPhase_phase_self]
    exact hphase
  · rw [World.setPhase_phase_of_ne _ _ hother]
    exact settled other

/-- A phase change by a caller that neither holds the lock nor is about to. -/
theorem World.Settled.setPhase {world : World} (settled : world.Settled account) {caller : Caller}
    {phase : Phase} (hphase : phase.Settled world.lockFile)
    (houtside : world.phase caller ≠ .inside)
    (hbefore : ∀ request, world.phase caller ≠ .locking request true) :
    (world.setPhase caller phase).Settled account where
  phases := phases_setPhase settled.phases hphase
  inside holder hholder := by
    have hinside := settled.inside holder hholder
    have hne : holder.caller ≠ caller := fun h => houtside (h ▸ hinside)
    rw [World.setPhase_phase_of_ne _ _ hne]
    exact hinside
  owned hlock hledger := by
    obtain ⟨other, ⟨request, hother⟩ | hholder⟩ := settled.owned hlock hledger
    · refine ⟨other, Or.inl ⟨request, ?_⟩⟩
      have hne : other ≠ caller := fun h => hbefore request (h ▸ hother)
      rw [World.setPhase_phase_of_ne _ _ hne]
      exact hother
    · exact ⟨other, Or.inr hholder⟩
  decided := settled.decided
  free := settled.free
  held := settled.held

theorem Holder.Settled.step {caller : Caller} {running next : Running} {store after : Store}
    (settled : Holder.Settled account ⟨caller, running⟩ store)
    (stepped : running.Step (Assumptions.crashing afterFirstWrite) store next after) :
    Holder.Settled account ⟨caller, next⟩ after := by
  obtain ⟨ledger, start, sturdy, hshort, hpresent, sound⟩ := settled
  refine ⟨ledger, start, sturdy, hshort, ?_, sound.step stepped⟩
  intro _ _ hnext
  cases stepped with
  | @reserve airtime firstUse effect rest reply _ _ answered =>
      obtain ⟨_, rfl, _⟩ := Running.reserve.inj hnext
      exact hpresent airtime _ rfl
  | usage answered => cases hnext

/-- No step under the lock takes a ledger away. -/
theorem Running.Step.missing {assumptions : Assumptions} {running next : Running}
    {store after : Store} (stepped : running.Step assumptions store next after)
    (hmissing : after.ledger = none) : store.ledger = none := by
  have hkept : store.ledger.isSome = true → after.ledger.isSome = true := by
    cases stepped with
    | reserve answered => exact environment_keeps_ledger answered
    | usage answered => exact environment_keeps_ledger answered
  rw [hmissing] at hkept
  exact Option.not_isSome_iff_eq_none.mp fun h => nomatch hkept h

/-- Whatever stops the call under the lock, its ledger can be read again. -/
theorem Holder.Settled.leaves {holder : Holder} {store : Store}
    (settled : holder.Settled account store) :
    Leaves (fun ledger clock _ => Sturdy ledger clock) store := by
  obtain ⟨ledger, start, sturdy, _, _, sound⟩ := settled
  obtain ⟨caller, running⟩ := holder
  cases running with
  | reserve airtime firstUse program =>
      obtain ⟨left, hleft, progress⟩ := Program.wp_always sound
      exact ⟨left, hleft, sturdy.progress progress⟩
  | usage program =>
      obtain ⟨left, hleft, rfl, moved, _⟩ := Program.wp_always sound
      exact ⟨left, hleft, sturdy.pass moved⟩

/-- The call under the lock comes out with a decision. -/
theorem Holder.Settled.finish {caller : Caller} {running : Running} {world : World}
    (settled : Holder.Settled account ⟨caller, running⟩ world.store)
    {result : Except Failure Verdict} (ends : running.Ends result) :
    (∀ record ∈ world.record ⟨caller, running⟩ (.ended result), record ∈ world.history ∨ record.Decided) ∧
      ((∃ airtime program, running = .reserve airtime true program) →
        world.store.ledger.isSome = true) := by
  obtain ⟨ledger, start, sturdy, hshort, hpresent, sound⟩ := settled
  have hended : ∀ {airtime : Airtime} {firstUse : Bool} {program : Account Verdict},
      running = .reserve airtime firstUse program →
      Leaves (Ended account (Assumptions.crashing afterFirstWrite) firstUse airtime.value ledger start
        result) world.store := by
    rintro airtime firstUse program rfl
    cases ends with
    | done => exact sound.2
    | fail => exact sound.2
  constructor
  · cases running with
    | usage program => exact fun record hrecord => Or.inl hrecord
    | reserve airtime firstUse program =>
        intro record hrecord
        rcases List.mem_append.mp hrecord with h | h
        · exact Or.inl h
        · obtain ⟨left, _, ended⟩ := hended rfl
          rw [List.mem_singleton.mp h]
          exact Or.inr (sturdy.decided hshort (fun hfirst => hpresent airtime program (hfirst ▸ rfl))
            ended)
  · rintro ⟨airtime, program, rfl⟩
    obtain ⟨left, hleft, ended⟩ := hended rfl
    rw [hleft, Option.isSome_map]
    exact ended.leaves_ledger

/-- A process is killed that has no ledger to initialise. -/
theorem World.Settled.kill {world : World} (settled : world.Settled account) {process : ℕ}
    (hspared : ∀ caller, world.Initialising caller → caller.process ≠ process) :
    (world.kill process).Settled account where
  phases caller := by
    by_cases hcaller : caller.process = process
    · simp [World.kill, hcaller, Phase.Settled]
    · simpa [World.kill, hcaller] using settled.phases caller
  inside holder hholder := by
    obtain ⟨hholder, hprocess⟩ := Option.filter_eq_some_iff.mp hholder
    simpa [World.kill, of_decide_eq_true hprocess] using settled.inside holder hholder
  owned hlock hmissing := by
    obtain ⟨caller, hcaller⟩ := settled.owned hlock hmissing
    have hprocess := hspared caller hcaller
    refine ⟨caller, hcaller.imp ?_ ?_⟩
    · rintro ⟨request, hlocking⟩
      exact ⟨request, by simpa [World.kill, hprocess] using hlocking⟩
    · rintro ⟨⟨airtime, program, hholder⟩, _⟩
      exact ⟨⟨airtime, program, by simp [World.kill, hholder, Option.filter, hprocess]⟩, hmissing⟩
  decided record hrecord := by
    dsimp only [World.kill] at hrecord
    split at hrecord
    · split at hrecord
      · unfold World.record at hrecord
        split at hrecord
        · rcases List.mem_append.mp hrecord with h | h
          · exact settled.decided record h
          · rw [List.mem_singleton.mp h]
            trivial
        · exact settled.decided record hrecord
      · exact settled.decided record hrecord
    · exact settled.decided record hrecord
  free hfree := by
    cases hholder : world.holder with
    | none => exact settled.free hholder
    | some holder => exact (settled.held holder hholder).leaves
  held holder hholder := settled.held holder (Option.filter_eq_some_iff.mp hholder).1

/-- The machine in which only crashes and failed writes happen, and neither before the
first ledger is on disk. -/
def settling (account : DutyAccount) : System World Label :=
  (machine account (Assumptions.crashing afterFirstWrite)).restrict Settles

/-- Without a ledger, the lock file has a creator, and only this one gets the lock. -/
theorem World.Settled.first {world : World} (settled : world.Settled account) {caller : Caller}
    {request : Request} {firstUse : Bool} (phase : world.phase caller = .locking request firstUse)
    (free : world.holder = none)
    (hovertaken : ∀ other, world.Initialising other → other ≠ caller →
      world.store.ledger.isSome = true)
    (hmissing : world.store.ledger = none) : firstUse = true := by
  have hlocks := settled.phases caller
  rw [phase] at hlocks
  obtain ⟨other, hother⟩ := settled.owned hlocks.1 hmissing
  by_cases hsame : other = caller
  · subst hsame
    obtain ⟨_, hlocking⟩ | ⟨⟨_, _, hholder⟩, _⟩ := hother
    · rw [phase] at hlocking
      exact (Phase.locking.inj hlocking).2
    · rw [free] at hholder
      cases hholder
  · have hpresent := hovertaken other hother hsame
    rw [hmissing] at hpresent
    cases hpresent

theorem World.Settled.step {world after : World} {label : Label} (settled : world.Settled account)
    (step : (settling account).step world label after) : after.Settled account := by
  obtain ⟨step, faults, permitted⟩ := step
  cases step with
  | wait free moved =>
      obtain ⟨ledger, hledger, sturdy⟩ := settled.free free
      refine { settled with inside := by rintro _ ⟨⟩, owned := ?_, free := ?_, held := by rintro _ ⟨⟩ }
      · intro hlock hmissing
        obtain ⟨caller, hcaller⟩ := settled.owned hlock hmissing
        refine ⟨caller, hcaller.imp_right fun h => ?_⟩
        obtain ⟨⟨_, _, hholder⟩, _⟩ := h
        rw [free] at hholder
        cases hholder
      · exact fun _ => ⟨ledger, hledger, sturdy.pass moved⟩
  | start living phase => exact settled.setPhase trivial (by simp [phase]) (by simp [phase])
  | openReserve phase airtime call opened => exact settled.setPhase opened (by simp [phase]) (by simp [phase])
  | openUsage phase call opened => exact settled.setPhase ⟨opened, by rintro ⟨⟩⟩ (by simp [phase]) (by simp [phase])
  | openMissing phase airtime call missing =>
      exact settled.setPhase ⟨airtime, call⟩ (by simp [phase]) (by simp [phase])
  | usageUnused phase call missing => exact settled.setPhase trivial (by simp [phase]) (by simp [phase])
  | @create caller request phase missing =>
      have hcreates := settled.phases caller
      rw [phase] at hcreates
      refine { settled with phases := ?_, inside := ?_, owned := ?_ }
      · exact phases_setPhase (fun other => (settled.phases other).opened) ⟨rfl, fun _ => hcreates⟩
      · intro holder hholder
        have hinside := settled.inside holder hholder
        have hne : holder.caller ≠ caller := by
          rintro rfl
          rw [phase] at hinside
          cases hinside
        exact (World.setPhase_phase_of_ne _ _ hne).trans hinside
      · exact fun _ _ => ⟨caller, Or.inl ⟨request, World.setPhase_phase_self ..⟩⟩
  | lostRace phase opened => exact settled.setPhase opened (by simp [phase]) (by simp [phase])
  | @foundLedger caller request phase present =>
      have hwaits := settled.phases caller
      rw [phase] at hwaits
      exact settled.setPhase ⟨hwaits, by rintro ⟨⟩⟩ (by simp [phase]) (by simp [phase])
  | @waitExpired caller request phase missing =>
      have hwaits := settled.phases caller
      rw [phase] at hwaits
      exact settled.setPhase ⟨hwaits, by rintro ⟨⟩⟩ (by simp [phase]) (by simp [phase])
  | lockFault => exact faults.elim
  | @acquire caller request firstUse phase free =>
      obtain ⟨hshort, hovertaken⟩ := permitted
      have hlocks := settled.phases caller
      rw [phase] at hlocks
      have hfirst := settled.first phase free hovertaken
      refine ⟨phases_setPhase settled.phases trivial, ?_, ?_, settled.decided, by rintro ⟨⟩, ?_⟩
      · rintro _ ⟨⟩
        exact World.setPhase_phase_self ..
      · intro _ hmissing
        obtain rfl := hfirst hmissing
        obtain ⟨airtime, hcall⟩ := hlocks.2 rfl
        refine ⟨caller, Or.inr ⟨⟨airtime,
          reserve account ⟨caller.process, request.number⟩ true airtime.value, ?_⟩, hmissing⟩⟩
        simp only [World.setHolder, begin, hcall]
      · rintro _ ⟨⟩
        obtain ⟨ledger, hledger, sturdy⟩ := settled.free free
        have hstore : ({ world.store with observed := .none } : Store).ledger =
            ledger.map Ledger.text := hledger
        refine ⟨ledger, _, sturdy, ?_, ?_, begin_sound caller request firstUse hstore rfl⟩
        · rintro content rfl
          exact hshort _ hledger
        · intro airtime program hbegin
          by_contra hmissing
          have hnone : ledger = none := Option.not_isSome_iff_eq_none.mp hmissing
          obtain rfl := hfirst (by rw [hledger, hnone]; rfl)
          unfold begin at hbegin
          split at hbegin <;> cases hbegin
  | lockBusy => exact faults.elim
  | @effect caller running next store held stepped =>
      refine { settled with inside := ?_, owned := ?_, free := by rintro ⟨⟩, held := ?_ }
      · rintro _ ⟨⟩
        exact settled.inside ⟨caller, running⟩ held
      · intro hlock hmissing
        obtain ⟨other, hother⟩ := settled.owned hlock (stepped.missing hmissing)
        refine ⟨other, hother.imp_right fun hwrites => ?_⟩
        obtain ⟨⟨airtime, program, hholder⟩, _⟩ := hwrites
        rw [held] at hholder
        obtain ⟨rfl, rfl⟩ := Holder.mk.inj (Option.some.inj hholder)
        cases stepped with
        | reserve answered => exact ⟨⟨airtime, _, rfl⟩, hmissing⟩
      · rintro _ ⟨⟩
        exact (settled.held _ held).step stepped
  | @finish caller running result held ends =>
      have hsettled := settled.held _ held
      obtain ⟨hdecided, hleft⟩ := hsettled.finish ends
      refine ⟨phases_setPhase settled.phases trivial, by rintro _ ⟨⟩, ?_, ?_, fun _ => hsettled.leaves,
        by rintro _ ⟨⟩⟩
      · intro hlock hmissing
        obtain ⟨other, ⟨request, hother⟩ | ⟨⟨airtime, program, hholder⟩, _⟩⟩ :=
          settled.owned hlock hmissing
        · have hinside := settled.inside _ held
          have hne : other ≠ caller := by
            rintro rfl
            rw [show world.phase other = _ from hinside] at hother
            cases hother
          exact ⟨other, Or.inl ⟨request, (World.setPhase_phase_of_ne _ _ hne).trans hother⟩⟩
        · rw [held] at hholder
          obtain ⟨_, rfl⟩ := Holder.mk.inj (Option.some.inj hholder)
          have hpresent := hleft ⟨airtime, program, rfl⟩
          rw [show world.store.ledger = none from hmissing] at hpresent
          cases hpresent
      · exact fun record hrecord => (hdecided record hrecord).elim (settled.decided record) id
  | finishNotReleased => cases faults
  | kill process => exact settled.kill permitted

theorem run_settled {world : World} {trace : List Label}
    (run : (settling account).Run world trace) : world.Settled account :=
  run.invariant (fun _ initial => .initial initial) fun _ _ _ settled step => settled.step step

/-- In every run that settles, every reservation that has taken the lock comes to a
decision unless it is killed or its own write fails, and one that takes the lock
reaches its verdict on a healthy system. -/
theorem reservations_decide {world : World} {trace : List Label}
    (run : (settling account).Run world trace) :
    (∀ record ∈ world.history, record.Decided) ∧
      ∀ (caller : Caller) (request : Request) (firstUse : Bool) (airtime : Airtime) (after : World),
        world.phase caller = .locking request firstUse → request.call = .reserve airtime →
        (settling account).step world (.acquire caller) after →
        ∃ (finished : World) (labels : List Label) (observed : Observed) (verdict : Verdict),
          (settling account).Run finished (trace ++ .acquire caller :: labels) ∧
          finished.history =
            world.history ++ [⟨airtime, firstUse, observed, .ended (.ok verdict)⟩] := by
  have settled := run_settled run
  refine ⟨settled.decided, ?_⟩
  intro caller request firstUse airtime after hphase hcall hacquire
  have acquired := run.step hacquire
  obtain ⟨hstep, _, hshort, hovertaken⟩ := hacquire
  cases hstep with
  | @acquire _ request' firstUse' hphase' free =>
      obtain ⟨rfl, rfl⟩ := Phase.locking.inj (hphase'.symm.trans hphase)
      have hbegin : begin account caller request' firstUse' = .reserve airtime firstUse'
          (reserve account ⟨caller.process, request'.number⟩ firstUse' airtime.value) := by
        rw [begin, hcall]
      obtain ⟨ledger, hledger, sturdy⟩ := settled.free free
      have hpermits : (Assumptions.crashing afterFirstWrite).Permits world.store.clock [] :=
        ⟨trivial, trivial⟩
      obtain ⟨finished, labels, left, observed, result, ran, hfinished, _, ended⟩ :=
        run_reserve (fun _ _ => ⟨trivial, trivial⟩) (fun _ _ => ⟨rfl, trivial⟩) acquired
          (congrArg (fun running => some (Holder.mk caller running)) hbegin) hledger rfl
          hpermits
      have hresult : ∃ verdict, result = .ok verdict := by
        cases ended with
        | granted => exact ⟨_, rfl⟩
        | refused => exact ⟨_, rfl⟩
        | failed progress cause =>
            rcases cause with ⟨hread, _⟩ | ⟨_, _, hwrite⟩
            · refine absurd hread (sturdy.no_read_cause ?_ ?_ not_false ?_)
              · rintro content rfl
                exact hshort _ hledger
              · intro hfirst
                by_contra hmissing
                have hnone := Option.not_isSome_iff_eq_none.mp hmissing
                have htrue := settled.first hphase free hovertaken (by rw [hledger, hnone]; rfl)
                rw [hfirst] at htrue
                cases htrue
              · rintro _ rfl
                exact le_rfl
            · exact hwrite.elim
      obtain ⟨verdict, rfl⟩ := hresult
      refine ⟨finished, labels, observed, verdict, ?_, hfinished.history⟩
      rwa [List.append_assoc] at ran

/-- A reservation of one second. -/
def oneSecondRequest : Request := ⟨0, .reserve oneSecond⟩

/-- A caller has created the lock file in an empty state directory. -/
def World.justCreated (caller : Caller) : World :=
  { (World.empty (clockAt 100 100)).setPhase caller (.locking oneSecondRequest true) with
    lockFile := true }

theorem run_justCreated {account : DutyAccount} {assumptions : Assumptions}
    {permitted : World → Label → World → Prop} (caller : Caller)
    (hstart : ∀ world after, permitted world (.start caller oneSecondRequest) after)
    (hopen : ∀ world after, permitted world (.openLock caller) after)
    (hcreate : ∀ world after, permitted world (.createLock caller) after) :
    ((machine account assumptions).restrict permitted).Run (World.justCreated caller)
      [.start caller oneSecondRequest, .openLock caller, .createLock caller] := by
  have start : ((machine account assumptions).restrict permitted).Run
      (World.empty (clockAt 100 100)) [] := .start (World.empty_initial _)
  have opening := start.step ⟨@Step.start _ _ _ caller oneSecondRequest rfl rfl, hstart _ _⟩
  have creating := opening.step
    ⟨.openMissing (World.setPhase_phase_self ..) oneSecond rfl rfl, hopen _ _⟩
  have created := creating.step ⟨.create (World.setPhase_phase_self ..) rfl, hcreate _ _⟩
  simpa [World.setPhase, World.justCreated] using created

/-- The first reservation ever, alone. -/
theorem first_reservation_decides :
    ∃ (world : World) (trace : List Label) (observed : Observed) (verdict : Verdict),
      (settling .default).Run world trace ∧
      world.history = [⟨oneSecond, true, observed, .ended (.ok verdict)⟩] ∧
      ∀ record ∈ world.history, record.Decided := by
  have created : (settling .default).Run (World.justCreated ⟨1, 0⟩) _ :=
    run_justCreated ⟨1, 0⟩ (fun _ _ => ⟨trivial, trivial⟩) (fun _ _ => ⟨trivial, trivial⟩)
      fun _ _ => ⟨trivial, trivial⟩
  have hphase : (World.justCreated ⟨1, 0⟩).phase ⟨1, 0⟩ = .locking oneSecondRequest true :=
    World.setPhase_phase_self (World.empty (clockAt 100 100)) ⟨1, 0⟩ _
  have hsettles : ∀ after, Settles (World.justCreated ⟨1, 0⟩) (.acquire ⟨1, 0⟩) after := by
    refine fun _ => ⟨trivial, nofun, ?_⟩
    rintro other (⟨request, hother⟩ | ⟨⟨_, _, hholder⟩, _⟩) hne
    · have hidle : (World.justCreated ⟨1, 0⟩).phase other = .idle :=
        World.setPhase_phase_of_ne (World.empty (clockAt 100 100)) _ hne
      rw [hidle] at hother
      cases hother
    · cases hholder
  obtain ⟨finished, labels, observed, verdict, ran, hhistory⟩ :=
    (reservations_decide created).2 _ _ _ _ _ hphase rfl ⟨.acquire hphase rfl, hsettles _⟩
  exact ⟨finished, _, observed, verdict, ran, hhistory, (reservations_decide ran).1⟩

/-- A creator killed before its first write: the next reservation, on a healthy
system, finds the ledger gone. -/
theorem killed_creator_blocks :
    ∃ (world : World) (trace : List Label) (record : Record),
      ((machine .default (Assumptions.crashing fun _ => True)).restrict OnlyCrashes).Run world trace ∧
      record ∈ world.history ∧ record.outcome = .ended (.error (.duty .disappeared)) ∧
      ¬ record.Decided := by
  have created : ((machine .default (Assumptions.crashing fun _ => True)).restrict OnlyCrashes).Run
      (World.justCreated ⟨1, 0⟩) _ :=
    run_justCreated ⟨1, 0⟩ (fun _ _ => trivial) (fun _ _ => trivial) fun _ _ => trivial
  have killed := created.step ⟨.kill 1, trivial⟩
  have opening := killed.step
    ⟨@Step.start _ _ _ ⟨2, 0⟩ oneSecondRequest rfl rfl, trivial⟩
  have waiting := opening.step
    ⟨.openReserve (World.setPhase_phase_self ..) oneSecond rfl rfl, trivial⟩
  have locking := waiting.step ⟨.waitExpired (World.setPhase_phase_self ..) rfl, trivial⟩
  have acquired := locking.step ⟨.acquire (World.setPhase_phase_self ..) rfl, trivial⟩
  have hpermits : (Assumptions.crashing fun _ => True).Permits (clockAt 100 100) [] :=
    ⟨trivial, trivial⟩
  have hmissing : (World.justCreated ⟨1, 0⟩).store.ledger = Option.map Ledger.text none := rfl
  obtain ⟨after, labels, left, observed, result, ran, finished, _, ended⟩ :=
    run_reserve (fun _ _ => trivial) (fun _ _ => rfl) acquired rfl hmissing rfl hpermits
  obtain rfl := ended.disappeared not_false fun _ => not_false
  refine ⟨after, _, ⟨oneSecond, false, observed, .ended (.error (.duty .disappeared))⟩, ran, ?_, rfl,
    not_false⟩
  rw [finished.history]
  exact List.mem_append_right _ (List.mem_singleton_self _)

end LorahamRns.Duty
