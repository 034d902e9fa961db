import LorahamRns.Duty.Limits

/-!
# The ideal accountant

The ideal accountant keeps every grant and never prunes.  Calls that run one at
a time on a healthy system decide as it does: the pruned ledger on disk shows
exactly the grants that any later window can see.
-/

namespace LorahamRns.Duty

open LorahamRns.Lib

/-- Granted exactly when the short window is empty or stays within its limit, and
the long window stays within its own, over all grants ever made. -/
def idealAdmits (account : DutyAccount) (history : List Entry) (now airtime : Decimal) : Prop :=
  (Charge.after (charges history) (now.val - account.shortWindow.val) = [] ∨
    Charge.total (Charge.after (charges history) (now.val - account.shortWindow.val)) + airtime.val ≤
      allowance account.shortLimit account.shortWindow) ∧
  Charge.total (Charge.after (charges history) (now.val - account.longWindow.val)) + airtime.val ≤
    allowance account.longLimit account.longWindow

/-- Steady clocks within one boot, and no call that fails. -/
def Assumptions.healthy (base : Decimal) (boot : List Char) : Assumptions :=
  { Assumptions.steady base with
    boot := fun reply => reply = some boot
    readFails := False
    writeFails := fun _ => False }

/-- The record returned the ideal accountant's verdict. -/
def IdealVerdict (account : DutyAccount) (before : List Record) (record : Record) : Prop :=
  ∃ now verdict, record.observed.now = some now ∧ record.outcome = .ended (.ok verdict) ∧
    (verdict = .granted ↔
      idealAdmits account (grants before) now.wall.value record.airtime.value)

variable {account : DutyAccount} {base : Decimal} {boot : List Char}

/-- The invariant of the calls: what the ledger on disk has to do with the grants. -/
structure Balanced (account : DutyAccount) (base : Decimal) (boot : List Char)
    (history : List Record) (ledger : Option Ledger) (clock : Clock) : Prop where
  ideal : ∀ before record behind, history = before ++ record :: behind →
    IdealVerdict account before record
  missing : ledger = none → grants history = []
  sameBoot : ∀ content, ledger = some content → content.boot = strip boot
  sampled : ∀ content, ledger = some content → (Assumptions.healthy base boot).sample content.sample
  entries : ∀ content, ledger = some content → ∀ entry ∈ content.entries,
    entry.Credible ∧ entry.time ≤ clock.wall.value
  agrees : ∀ content, ledger = some content →
    Charge.Agrees (clock.wall.value.val - account.longWindow.val) (charges (grants history))
      (charges content.entries)

theorem Balanced.pass {history : List Record} {ledger : Option Ledger} {start clock : Clock}
    (balanced : Balanced account base boot history ledger start)
    (moved : (Assumptions.healthy base boot).advance start clock) :
    Balanced account base boot history ledger clock := by
  refine { balanced with entries := ?_, agrees := ?_ }
  · intro content hcontent entry hentry
    obtain ⟨credible, hpast⟩ := balanced.entries content hcontent entry hentry
    exact ⟨credible, hpast.trans moved.1⟩
  · intro content hcontent
    have hmoved : start.wall.value.val ≤ clock.wall.value.val := moved.1
    exact (balanced.agrees content hcontent).later (by linarith)

/-- Nothing is rebased within a boot of steady clocks. -/
theorem Rebased.unchanged {content : Ledger} {start last : Clock} {compared : Option Sample}
    {entries : List Entry}
    (rebased : Rebased (Assumptions.healthy base boot) content start last compared entries)
    (hboot : content.boot = strip boot)
    (sampled : (Assumptions.healthy base boot).sample content.sample) : entries = content.entries := by
  cases rebased with
  | empty nothing => exact nothing.symm
  | sameBoot before behind hsample => exact if_pos (abs_offset_sub_le hsample sampled)
  | otherBoot before other =>
      obtain ⟨reply, hreply, hother⟩ := other
      rw [show reply = some boot from hreply, hboot] at hother
      exact absurd rfl hother

/-- What a call decides on shows exactly the grants its windows can see. -/
theorem Balanced.view {history : List Record} {ledger : Option Ledger} {start now last : Clock}
    {firstUse : Bool} {compared : Option Sample} {entries : List Entry}
    (balanced : Balanced account base boot history ledger start)
    (began : (Assumptions.healthy base boot).advance start now)
    (view : View account (Assumptions.healthy base boot) firstUse ledger now last compared entries) :
    Charge.Agrees (now.wall.value.val - account.longWindow.val) (charges (grants history))
        (charges entries) ∧
      ∀ entry ∈ entries, entry.Credible ∧ entry.time ≤ now.wall.value := by
  obtain ⟨found, hfound, rfl⟩ := view
  cases hfound with
  | fresh hmissing =>
      rw [balanced.missing hmissing]
      exact ⟨.refl _ _, nofun⟩
  | @present content later _ _ _ hpresent _ _ _ rebased =>
      have hpass := balanced.pass began
      have hsame := rebased.unchanged (balanced.sameBoot content hpresent)
        (balanced.sampled content hpresent)
      subst hsame
      rw [charges_prune]
      exact ⟨(hpass.agrees content hpresent).prune le_rfl, fun entry hentry =>
        hpass.entries content hpresent entry (List.mem_filter.mp hentry).1⟩

/-- The code's decision is the ideal accountant's. -/
theorem Balanced.decides {history : List Record} {ledger : Option Ledger} {start now last : Clock}
    {firstUse : Bool} {compared : Option Sample} {entries : List Entry} {airtime : Decimal}
    (balanced : Balanced account base boot history ledger start)
    (began : (Assumptions.healthy base boot).advance start now)
    (view : View account (Assumptions.healthy base boot) firstUse ledger now last compared entries) :
    refusal account entries now.wall.value airtime = none ↔
      idealAdmits account (grants history) now.wall.value airtime := by
  obtain ⟨hagrees, hentries⟩ := balanced.view began view
  have horder : account.shortWindow.val ≤ account.longWindow.val := account.ordered
  have hshort := hagrees (now.wall.value.val - account.shortWindow.val) (by linarith)
  have hlong := hagrees _ le_rfl
  have hpositive : ∀ charge ∈ charges entries, 0 < charge.amount := by
    intro charge hcharge
    obtain ⟨entry, hentry, rfl⟩ := List.mem_map.mp hcharge
    exact (hentries entry hentry).1.positive
  rw [refusal_none_iff, Charge.since_le_zero_iff hpositive, Charge.since, Charge.since, hshort, hlong,
    idealAdmits]

/-- The entries a call decided on, its own grant behind them or not, as the ledger. -/
theorem Balanced.rewritten {history history' : List Record} {ledger : Option Ledger}
    {start now last clock : Clock} {firstUse : Bool} {compared : Option Sample}
    {entries extra : List Entry} {content : Ledger}
    (balanced : Balanced account base boot history ledger start)
    (began : (Assumptions.healthy base boot).advance start now)
    (view : View account (Assumptions.healthy base boot) firstUse ledger now last compared entries)
    (wrote : Written (Assumptions.healthy base boot) last content clock)
    (recorded : content.entries = entries ++ extra)
    (hextra : ∀ entry ∈ extra, entry.Credible ∧ entry.time ≤ now.wall.value)
    (hgrants : grants history' = grants history ++ extra)
    (ideal : ∀ before record behind, history' = before ++ record :: behind →
      IdealVerdict account before record) :
    Balanced account base boot history' (some content) clock := by
  obtain ⟨hagrees, hentries⟩ := balanced.view began view
  obtain ⟨found, hfound, _⟩ := view
  have moved := (Assumptions.healthy base boot).trans hfound.advance wrote.advance
  have hmoved : now.wall.value.val ≤ clock.wall.value.val := moved.1
  refine ⟨ideal, nofun, ?_, ?_, ?_, ?_⟩
  · rintro _ ⟨⟩
    obtain ⟨reply, hreply, hboot⟩ := wrote.boot
    rw [hboot, show reply = some boot from hreply]
    rfl
  · rintro _ ⟨⟩
    exact wrote.sampled
  · rintro _ ⟨⟩ entry hentry
    rw [recorded] at hentry
    have hboth : entry.Credible ∧ entry.time ≤ now.wall.value := by
      rcases List.mem_append.mp hentry with h | h
      · exact hentries entry h
      · exact hextra entry h
    exact ⟨hboth.1, hboth.2.trans hmoved⟩
  · rintro _ ⟨⟩
    rw [recorded, hgrants, charges_append, charges_append]
    exact (hagrees.append _).later (by linarith)

/-- The verdicts so far, and one more. -/
theorem ideal_append {history : List Record} {record : Record}
    (ideal : ∀ before found behind, history = before ++ found :: behind →
      IdealVerdict account before found)
    (last : IdealVerdict account history record) (before : List Record) (found : Record)
    (behind : List Record) (hsplit : history ++ [record] = before ++ found :: behind) :
    IdealVerdict account before found := by
  cases behind using List.reverseRecOn with
  | nil =>
      obtain ⟨rfl, hrecord⟩ := List.append_inj' hsplit rfl
      obtain ⟨rfl, _⟩ := List.cons.inj hrecord
      exact last
  | append_singleton rest tail =>
      rw [← List.cons_append, ← List.append_assoc] at hsplit
      obtain ⟨hhistory, _⟩ := List.append_inj' hsplit rfl
      exact ideal before found rest hhistory

/-- Nothing makes an undisturbed call raise. -/
theorem Balanced.no_cause {history : List Record} {ledger left : Option Ledger} {start : Clock}
    {observed : Observed} {failure : Failure}
    (balanced : Balanced account base boot history ledger start)
    (hshort : ∀ content, ledger = some content → content.text.length ≤ readLimit) :
    ¬ Cause (Assumptions.healthy base boot) ledger.isNone ledger left start observed failure := by
  rintro (⟨hread, _⟩ | ⟨_, _, hwrite⟩)
  · unfold ReadCause at hread
    split at hread
    · obtain ⟨rfl, hfirst⟩ := hread
      cases hfirst
    · exact hread
    · exact hread
    · obtain ⟨content, hcontent, hlong | ⟨entry, hentry, hbad⟩ | ⟨entry, hentry, clock, hclock, hfuture⟩⟩ :=
        hread
      · exact absurd (hshort content hcontent) (not_le.mpr hlong)
      · exact hbad (balanced.entries content hcontent entry hentry).1
      · have hpast := (balanced.entries content hcontent entry hentry).2
        have hmoved : start.wall.value ≤ clock.wall.value := hclock.1
        linarith [clockSkewS_nonneg]
    · exact hread
  · exact hwrite

/-- One undisturbed call keeps the invariant, and leaves a ledger behind. -/
theorem Balanced.call {history : List Record} {ledger left : Option Ledger} {start clock : Clock}
    {airtime : Airtime} {observed : Observed} {result : Except Failure Verdict}
    (balanced : Balanced account base boot history ledger start)
    (hshort : ∀ content, ledger = some content → content.text.length ≤ readLimit)
    (ended : Ended account (Assumptions.healthy base boot) ledger.isNone airtime.value ledger start
      result left clock observed) :
    Balanced account base boot
        (history ++ [⟨airtime, ledger.isNone, observed, .ended result⟩]) left clock ∧
      left.isSome = true := by
  cases ended with
  | @granted now last clock compared entries content observed began view wrote noted _ _ recorded admitted =>
      have hgrants : grants (history ++ [⟨airtime, ledger.isNone, observed, .ended (.ok .granted)⟩]) =
          grants history ++ [⟨now.wall.value, airtime.value⟩] := by
        rw [grants_append]
        simp [Record.grant?, noted]
      have credible : Entry.Credible ⟨now.wall.value, airtime.value⟩ :=
        ⟨now.wall.inRange, airtime.inRange, airtime.positive⟩
      refine ⟨balanced.rewritten began view wrote recorded ?_ hgrants (ideal_append balanced.ideal ?_), rfl⟩
      · intro entry hentry
        rw [List.mem_singleton.mp hentry]
        exact ⟨credible, le_rfl⟩
      · exact ⟨now, .granted, noted, rfl,
          ⟨fun _ => (balanced.decides began view).mp admitted, fun _ => rfl⟩⟩
  | @refused now last clock compared entries left observed reason began view moved noted compare kept decided =>
      have hgrants : grants (history ++ [⟨airtime, ledger.isNone, observed, .ended (.ok (.refused reason))⟩]) =
          grants history ++ [] := by
        rw [grants_append]
        rfl
      have ideal := ideal_append balanced.ideal
        (show IdealVerdict account history
            ⟨airtime, ledger.isNone, observed, .ended (.ok (.refused reason))⟩ from
          ⟨now, .refused reason, noted, rfl, (by rintro ⟨⟩), fun hadmits => by
            rw [(balanced.decides began view).mpr hadmits] at decided
            cases decided⟩)
      rcases kept with ⟨hfirst, rfl, _⟩ | ⟨content, rfl, recorded, wrote, _⟩
      · obtain ⟨found, hfound, _⟩ := view
        have hpass := balanced.pass ((Assumptions.healthy base boot).trans began
          ((Assumptions.healthy base boot).trans hfound.advance moved))
        rw [List.append_nil] at hgrants
        refine ⟨⟨ideal, ?_, hpass.sameBoot, hpass.sampled, hpass.entries, ?_⟩, ?_⟩
        · exact fun hmissing => hgrants.trans (hpass.missing hmissing)
        · rw [hgrants]
          exact hpass.agrees
        · cases left with
          | none => cases hfirst
          | some content => rfl
      · exact ⟨balanced.rewritten began view wrote (by rw [recorded, List.append_nil])
          (fun _ h => absurd h List.not_mem_nil) hgrants ideal, rfl⟩
  | failed progress cause => exact absurd cause (balanced.no_cause hshort)

/-! ## Runs of one call at a time -/

/-- The lock file and the ledger, as the one caller under way has found them. -/
def Prepared (world : World) : Phase → Prop
  | .idle => world.lockFile = world.store.ledger.isSome
  | .opening _ => world.lockFile = world.store.ledger.isSome
  | .creating request => world.lockFile = false ∧ world.store.ledger.isSome = false ∧
      ∃ airtime, request.call = .reserve airtime
  | .waiting _ => world.lockFile = true ∧ world.store.ledger.isSome = true
  | .locking request firstUse => world.lockFile = true ∧
      world.store.ledger.isSome = !firstUse ∧
      (firstUse = true → ∃ airtime, request.call = .reserve airtime)
  | .inside => False

/-- The first call is the one that found no ledger. -/
def Running.Ordered (ledger : Option Ledger) : Running → Prop
  | .reserve _ firstUse _ => firstUse = ledger.isNone
  | .usage _ => ledger.isSome = true

/-- The invariant of runs of one call at a time. -/
structure Orderly (account : DutyAccount) (base : Decimal) (boot : List Char) (active : Caller)
    (world : World) : Prop where
  alone : ∀ other, other ≠ active → world.phase other = .idle
  free : world.holder = none → Prepared world (world.phase active) ∧
    Leaves (fun ledger clock _ => Balanced account base boot world.history ledger clock) world.store
  held : ∀ holder, world.holder = some holder →
    world.phase active = .inside ∧ holder.caller = active ∧ world.lockFile = true ∧
    ∃ ledger start, Balanced account base boot world.history ledger start ∧
      (∀ content, ledger = some content → content.text.length ≤ readLimit) ∧
      holder.running.Ordered ledger ∧
      holder.running.Sound account (Assumptions.healthy base boot) ledger start world.store

theorem Orderly.is_active {active caller : Caller} {world : World}
    (orderly : Orderly account base boot active world) (hphase : world.phase caller ≠ .idle) :
    caller = active := by
  by_contra hother
  exact hphase (orderly.alone caller hother)

theorem isSome_of_ledger {store : Store} {ledger : Option Ledger}
    (hledger : store.ledger = ledger.map Ledger.text) : store.ledger.isSome = ledger.isSome := by
  rw [hledger, Option.isSome_map]

/-- The caller under way moves on while the lock is free. -/
theorem Orderly.moves {active : Caller} {world : World} {phase : Phase} {lockFile : Bool}
    (orderly : Orderly account base boot active world) (hfree : world.holder = none)
    (prepared : Prepared { world.setPhase active phase with lockFile } phase) :
    Orderly account base boot active { world.setPhase active phase with lockFile } := by
  refine ⟨?_, fun _ => ⟨?_, (orderly.free hfree).2⟩, ?_⟩
  · intro other hother
    simpa [World.setPhase, Function.update_of_ne hother] using orderly.alone other hother
  · simpa [World.setPhase] using prepared
  · intro holder hholder
    rw [show world.holder = some holder from hholder] at hfree
    cases hfree

/-- A caller that is not inside proves the lock free. -/
theorem Orderly.not_held {active caller : Caller} {world : World}
    (orderly : Orderly account base boot active world) (hphase : world.phase caller ≠ .idle)
    (houtside : world.phase caller ≠ .inside) : world.holder = none := by
  cases hholder : world.holder with
  | none => rfl
  | some holder =>
      have hinside := (orderly.held holder hholder).1
      rw [← orderly.is_active hphase] at hinside
      exact absurd hinside houtside

/-- The reservation under the lock ends and leaves a balanced ledger. -/
theorem Orderly.finished {active : Caller} {world : World} {holder : Holder}
    {result : Except Failure Verdict} (orderly : Orderly account base boot active world)
    (hholder : world.holder = some holder) (ends : holder.running.Ends result) :
    world.store.ledger.isSome = true ∧
      Leaves (fun ledger clock _ =>
        Balanced account base boot (world.record holder (.ended result)) ledger clock)
        world.store := by
  obtain ⟨_, _, _, ledger, start, balanced, hshort, hordered, sound⟩ := orderly.held holder hholder
  obtain ⟨caller, running⟩ := holder
  have hreserve : ∀ {airtime : Airtime} {firstUse : Bool} {result : Except Failure Verdict},
      firstUse = ledger.isNone →
      Leaves (Ended account (Assumptions.healthy base boot) firstUse airtime.value ledger start result)
        world.store →
      world.store.ledger.isSome = true ∧ Leaves (fun ledger clock _ => Balanced account base boot
        (world.history ++ [⟨airtime, firstUse, world.store.observed, .ended result⟩]) ledger clock)
        world.store := by
    rintro airtime _ result rfl ⟨left, hleft, ended⟩
    obtain ⟨hbalanced, hsome⟩ := balanced.call hshort ended
    exact ⟨(isSome_of_ledger hleft).trans hsome, left, hleft, hbalanced⟩
  have husage : ledger.isSome = true →
      Leaves (Looked (Assumptions.healthy base boot) ledger start) world.store →
      world.store.ledger.isSome = true ∧ Leaves (fun ledger clock _ =>
        Balanced account base boot world.history ledger clock) world.store := by
    rintro hsome ⟨left, hleft, rfl, moved, _⟩
    exact ⟨(isSome_of_ledger hleft).trans hsome, left, hleft, balanced.pass moved⟩
  cases ends with
  | done => exact hreserve hordered sound.2
  | fail => exact hreserve hordered sound.2
  | usageDone => exact husage hordered (Program.wp_always sound)
  | usageFail => exact husage hordered (Program.wp_always sound)

/-- The same with the lock file as it is. -/
theorem Orderly.moves_on {active caller : Caller} {world : World} {phase : Phase}
    (orderly : Orderly account base boot active world) (hphase : world.phase caller ≠ .idle)
    (houtside : world.phase caller ≠ .inside)
    (prepared : Prepared world (world.phase caller) → Prepared world phase) :
    ∃ active, Orderly account base boot active (world.setPhase caller phase) := by
  have hfree := orderly.not_held hphase houtside
  obtain rfl := orderly.is_active hphase
  exact ⟨caller, orderly.moves hfree (prepared (orderly.free hfree).1)⟩

/-- The lock is free again and nobody is under way. -/
theorem Orderly.released {active : Caller} {world : World} {holder : Holder}
    {result : Except Failure Verdict} (orderly : Orderly account base boot active world)
    (hholder : world.holder = some holder) (ends : holder.running.Ends result) :
    Orderly account base boot active
      { (world.setPhase active .idle).setHolder world.store none with
        history := world.record holder (.ended result) } := by
  obtain ⟨hsome, hbalanced⟩ := orderly.finished hholder ends
  refine ⟨?_, fun _ => ⟨?_, hbalanced⟩, nofun⟩
  · intro other hother
    simpa [World.setPhase, World.setHolder, Function.update_of_ne hother] using
      orderly.alone other hother
  · have hlock := (orderly.held holder hholder).2.2.1
    simp [World.setPhase, World.setHolder, Prepared, hlock, hsome]

/-- The active caller takes the lock. -/
theorem Orderly.acquired {caller : Caller} {world : World} {request : Request} {firstUse : Bool}
    (orderly : Orderly account base boot caller world)
    (hphase : world.phase caller = .locking request firstUse) (hfree : world.holder = none)
    (hcap : ∀ text, world.store.ledger = some text → text.length ≤ readLimit) :
    Orderly account base boot caller
      ((world.setPhase caller .inside).setHolder { world.store with observed := .none }
        (some ⟨caller, begin account caller request firstUse⟩)) := by
  obtain ⟨prepared, ledger, hledger, balanced⟩ := orderly.free hfree
  rw [hphase] at prepared
  obtain ⟨hlock, hsome, hreserve⟩ := prepared
  have hfirst : ledger.isSome = !firstUse := (isSome_of_ledger hledger).symm.trans hsome
  refine ⟨?_, nofun, ?_⟩
  · intro other hother
    simpa [World.setPhase, World.setHolder, Function.update_of_ne hother] using
      orderly.alone other hother
  · rintro holder ⟨⟩
    have hstore : ({ world.store with observed := .none } : Store).ledger =
        ledger.map Ledger.text := hledger
    refine ⟨Function.update_self .., rfl, hlock, ledger, _, balanced, ?_, ?_,
      begin_sound caller request firstUse hstore rfl⟩
    · intro content hcontent
      exact hcap content.text (by rw [hledger, hcontent]; rfl)
    · unfold begin
      cases hcall : request.call with
      | reserve airtime =>
          cases ledger <;> cases firstUse <;> simp_all [Running.Ordered]
      | usage =>
          cases firstUse with
          | true =>
              obtain ⟨airtime, hairtime⟩ := hreserve rfl
              rw [hcall] at hairtime
              cases hairtime
          | false => exact hfirst

theorem Running.Ordered.step {ledger : Option Ledger} {running next : Running}
    {assumptions : Assumptions} {store after : Store} (ordered : running.Ordered ledger)
    (stepped : running.Step assumptions store next after) : next.Ordered ledger := by
  cases stepped <;> exact ordered

theorem Orderly.step {active : Caller} {world after : World} {label : Label}
    (orderly : Orderly account base boot active world)
    (step : Step account (Assumptions.healthy base boot) world label after)
    (permitted : Sequential world label after) :
    ∃ active, Orderly account base boot active after := by
  cases step with
  | wait free moved =>
      obtain ⟨prepared, ledger, hledger, balanced⟩ := orderly.free free
      exact ⟨active, orderly.alone, fun _ => ⟨prepared, ledger, hledger, balanced.pass moved⟩, by rintro _ ⟨⟩⟩
  | @start caller request living phase =>
      have resting : world.Resting := permitted
      obtain ⟨prepared, leaves⟩ := orderly.free resting.free
      rw [resting.idle active] at prepared
      refine ⟨caller, ?_, fun _ => ⟨?_, leaves⟩, ?_⟩
      · intro other hother
        simpa [World.setPhase, Function.update_of_ne hother] using resting.idle other
      · rw [show (world.setPhase caller (.opening request)).phase caller = .opening request from
          Function.update_self ..]
        exact prepared
      · intro holder hholder
        cases resting.free.symm.trans hholder
  | openReserve phase airtime call opened =>
      refine orderly.moves_on (by rw [phase]; simp) (by rw [phase]; simp) fun prepared => ?_
      rw [phase] at prepared
      exact ⟨opened, prepared ▸ opened⟩
  | openUsage phase call opened =>
      refine orderly.moves_on (by rw [phase]; simp) (by rw [phase]; simp) fun prepared => ?_
      rw [phase] at prepared
      exact ⟨opened, prepared ▸ opened, by rintro ⟨⟩⟩
  | openMissing phase airtime call missing =>
      refine orderly.moves_on (by rw [phase]; simp) (by rw [phase]; simp) fun prepared => ?_
      rw [phase] at prepared
      exact ⟨missing, prepared ▸ missing, airtime, call⟩
  | usageUnused phase call missing =>
      refine orderly.moves_on (by rw [phase]; simp) (by rw [phase]; simp) fun prepared => ?_
      rw [phase] at prepared
      exact prepared
  | @create caller request phase missing =>
      have hfree := orderly.not_held (by rw [phase]; simp) (by rw [phase]; simp)
      have hmoving : world.phase caller ≠ .idle := by rw [phase]; simp
      obtain rfl := orderly.is_active hmoving
      have prepared := (orderly.free hfree).1
      rw [phase] at prepared
      obtain ⟨_, hsome, hreserve⟩ := prepared
      exact ⟨caller, orderly.moves hfree ⟨rfl, hsome, fun _ => hreserve⟩⟩
  | lostRace phase opened =>
      have hfree := orderly.not_held (by rw [phase]; simp) (by rw [phase]; simp)
      refine orderly.moves_on (by rw [phase]; simp) (by rw [phase]; simp) fun prepared => ?_
      rw [phase] at prepared
      rw [prepared.1] at opened
      cases opened
  | foundLedger phase present =>
      refine orderly.moves_on (by rw [phase]; simp) (by rw [phase]; simp) fun prepared => ?_
      rw [phase] at prepared
      exact ⟨prepared.1, prepared.2, by rintro ⟨⟩⟩
  | waitExpired phase missing =>
      refine orderly.moves_on (by rw [phase]; simp) (by rw [phase]; simp) fun prepared => ?_
      rw [phase] at prepared
      have hsome : world.store.ledger.isSome = true := prepared.2
      rw [missing] at hsome
      cases hsome
  | lockFault => exact permitted.elim
  | @acquire caller request firstUse phase free =>
      have hmoving : world.phase caller ≠ .idle := by rw [phase]; simp
      obtain rfl := orderly.is_active hmoving
      exact ⟨caller, orderly.acquired phase free permitted⟩
  | lockBusy phase held =>
      have hfree := orderly.not_held (by rw [phase]; simp) (by rw [phase]; simp)
      rw [held] at hfree
      cases hfree
  | @effect caller running next after held stepped =>
      obtain ⟨hinside, hcaller, hlock, ledger, start, balanced, hshort, hordered, sound⟩ :=
        orderly.held _ held
      refine ⟨active, orderly.alone, by rintro ⟨⟩, ?_⟩
      rintro holder ⟨⟩
      exact ⟨hinside, hcaller, hlock, ledger, start, balanced, hshort, hordered.step stepped,
        sound.step stepped⟩
  | finish held ends =>
      have hcaller := (orderly.held _ held).2.1
      subst hcaller
      exact ⟨_, orderly.released held ends⟩
  | finishNotReleased held ends => cases permitted
  | kill process =>
      have resting : world.Resting := permitted
      obtain ⟨prepared, leaves⟩ := orderly.free resting.free
      rw [resting.idle active] at prepared
      have hkilled : world.kill process =
          { world with alive := Function.update world.alive process false } := by
        have hphase : (fun caller : Caller => if caller.process = process then Phase.idle
            else world.phase caller) = world.phase := by
          funext caller
          rw [resting.idle caller]
          split <;> rfl
        simp [World.kill, hphase, resting.free]
      rw [hkilled]
      refine ⟨active, orderly.alone, fun _ => ⟨?_, leaves⟩, ?_⟩
      · rw [resting.idle active]
        exact prepared
      · intro holder hholder
        cases resting.free.symm.trans hholder

end LorahamRns.Duty
