import LorahamRns.Duty.Capacity

/-!
# Grants in elapsed time

Within one boot the wall clock may be stepped at will.  The evidence in the ledger
lets a call move the stamps by a step of more than `CLOCK_SKEW_S`; smaller steps
stay uncorrected, and every write replaces the evidence, so they add up unseen.
As long as the uncorrected steps between a grant and a later call add up to no
more than `CLOCK_SKEW_S`, elapsed time decides when the grant stops being counted.
-/

namespace LorahamRns.Duty

open LorahamRns.Lib

/-- One boot, with a wall clock that moves at will.  Every other call may fail. -/
def Assumptions.oneBoot (boot : Option (List Char)) : Assumptions where
  advance first second := first.monotonic.value ≤ second.monotonic.value
  refl _ := le_rfl
  trans first second := first.trans second
  sample _ := True
  boot reply := reply = boot
  readFails := True
  writeFails _ := True

/-! ## What the evidence corrects -/

/-- A grant: its time on the monotonic clock, its stamp less the corrections made
before it, and its airtime. -/
structure Grant where
  monotonic : Decimal
  origin : Decimal
  airtime : Decimal

namespace Grant

/-- The grant as an entry, with the corrections made since. -/
def entry (corrected : Decimal) (grant : Grant) : Entry := ⟨grant.origin + corrected, grant.airtime⟩

/-- The grant as a charge in elapsed time. -/
def charge (grant : Grant) : Charge ℚ := ⟨grant.monotonic.val, grant.airtime.val⟩

end Grant

/-- The evidence on disk, the sum of the corrections made to the stamps on disk, and
the grants so far. -/
structure Track where
  evidence : Option Decimal
  corrected : Decimal
  grants : List Grant

namespace Track

/-- The correction a call makes: the step it sees against the evidence, when it is more
than `CLOCK_SKEW_S`. -/
def correction (track : Track) (observed : Observed) : Decimal :=
  match track.evidence, observed.compared with
  | some evidence, some sample =>
      if |sample.offset - evidence| ≤ clockSkewS then 0 else sample.offset - evidence
  | _, _ => 0

/-- The uncorrected offset of the wall clock at a call's first reading. -/
def uncorrected (track : Track) (observed : Observed) (now : Clock) : Decimal :=
  now.offset - (track.corrected + track.correction observed)

def grant? (track : Track) (record : Record) : Option Grant :=
  match record.outcome, record.observed.now with
  | .ended (.ok .granted), some now =>
      some ⟨now.monotonic.value,
        now.wall.value - (track.corrected + track.correction record.observed),
        record.airtime.value⟩
  | _, _ => none

/-- A call that has put a ledger on disk has replaced the evidence and made its
correction. -/
def call (track : Track) (record : Record) : Track :=
  match record.observed.persisted with
  | some sample =>
      { evidence := some sample.offset
        corrected := track.corrected + track.correction record.observed
        grants := track.grants ++ (track.grant? record).toList }
  | none => { track with grants := track.grants ++ (track.grant? record).toList }

/-- The steps of the wall clock that no correction made good, from each recent grant to
this call, add up to no more than `CLOCK_SKEW_S`. -/
def Corrects (account : DutyAccount) (track : Track) (record : Record) : Prop :=
  record.observed.persisted.isSome = true → ∀ now, record.observed.now = some now →
    ∀ grant ∈ track.grants,
      now.monotonic.value - grant.monotonic < account.longWindow - clockSkewS →
      track.uncorrected record.observed now - (grant.origin - grant.monotonic) ≤ clockSkewS

end Track

def track (history : List Record) : Track := history.foldl Track.call ⟨none, 0, []⟩

@[simp]
theorem track_append (history : List Record) (record : Record) :
    track (history ++ [record]) = (track history).call record := by
  rw [track, List.foldl_append]
  rfl

/-- Every call that rewrites the ledger corrects what it has to. -/
def Corrected (account : DutyAccount) (history : List Record) : Prop :=
  ∀ before record behind, history = before ++ record :: behind →
    (track before).Corrects account record

theorem Corrected.init {account : DutyAccount} {history : List Record} {record : Record}
    (corrected : Corrected account (history ++ [record])) :
    Corrected account history ∧ (track history).Corrects account record := by
  constructor
  · rintro before found behind rfl
    exact corrected before found (behind ++ [record]) (by simp)
  · exact corrected history record [] rfl

/-! ## Recent grants stay in the ledger -/

/-- The window of elapsed time in which grants are counted. -/
def DutyAccount.elapsedWindow (account : DutyAccount) : Decimal := account.longWindow - clockSkewS

/-- The grants of the last window of elapsed time. -/
def recent (account : DutyAccount) (now : Decimal) (grants : List Grant) : List Grant :=
  grants.filter fun grant => decide (now - account.elapsedWindow < grant.monotonic)

variable {account : DutyAccount} {boot : Option (List Char)}

/-- The invariant of the chain of calls. -/
structure Tracked (account : DutyAccount) (boot : Option (List Char)) (history : List Record)
    (ledger : Option Ledger) (clock : Clock) : Prop where
  ordered : (track history).grants.Pairwise fun first second => first.monotonic ≤ second.monotonic
  past : ∀ grant ∈ (track history).grants, grant.monotonic ≤ clock.monotonic.value
  positive : ∀ grant ∈ (track history).grants, 0 < grant.airtime
  admitted : ∀ before grant behind, (track history).grants = before ++ grant :: behind →
    Charge.total ((recent account grant.monotonic before).map Grant.charge) + grant.airtime.val ≤
      allowance account.longLimit account.longWindow
  missing : ledger = none → (track history).grants = []
  boot : ∀ content, ledger = some content → content.boot = bootText boot
  evidence : ∀ content, ledger = some content →
    (track history).evidence = some content.sample.offset
  nonneg : ∀ content, ledger = some content → ∀ entry ∈ content.entries, 0 ≤ entry.airtime
  kept : ∀ content, ledger = some content →
    ((recent account clock.monotonic.value (track history).grants).map
      (Grant.entry (track history).corrected)).Sublist content.entries

theorem recent_later {first second : Decimal} (h : first ≤ second) (grants : List Grant) :
    (recent account second grants).Sublist (recent account first grants) := by
  refine List.monotone_filter_right grants ?_
  intro grant hgrant
  have hlate : second - account.elapsedWindow < grant.monotonic := of_decide_eq_true hgrant
  exact decide_eq_true (lt_of_le_of_lt (sub_le_sub_right h _) hlate)

theorem Tracked.pass {history : List Record} {ledger : Option Ledger} {start clock : Clock}
    (tracked : Tracked account boot history ledger start)
    (moved : (Assumptions.oneBoot boot).advance start clock) :
    Tracked account boot history ledger clock := by
  refine { tracked with past := ?_, kept := ?_ }
  · exact fun grant hgrant => (tracked.past grant hgrant).trans moved
  · exact fun content hcontent => ((recent_later moved _).map _).trans (tracked.kept content hcontent)

/-- Within one boot a call corrects the stamps by what the evidence shows. -/
theorem Rebased.corrects {content : Ledger} {start last : Clock} {compared : Option Sample}
    {entries : List Entry}
    (rebased : Rebased (Assumptions.oneBoot boot) content start last compared entries)
    (hboot : content.boot = bootText boot) {track : Track} {observed : Observed}
    (evidence : track.evidence = some content.sample.offset) (compare : observed.compared = compared) :
    entries = content.entries.map (Entry.shift (track.correction observed)) := by
  cases rebased with
  | empty nothing => rw [nothing, List.map_nil]
  | sameBoot before behind sampled =>
      rw [Track.correction, evidence, compare]
      dsimp only
      split
      · have hzero : Entry.shift 0 = id := by
          funext entry
          rw [Entry.shift, add_zero, id]
        rw [hzero, List.map_id]
      · rfl
  | otherBoot before other =>
      obtain ⟨reply, hreply, hother⟩ := other
      rw [show reply = boot from hreply, hboot] at hother
      exact absurd rfl hother

/-- Where the steps are corrected, a call decides on all the recent grants. -/
theorem Tracked.view {history : List Record} {ledger : Option Ledger} {start now last : Clock}
    {record : Record} {compared : Option Sample} {entries : List Entry}
    (tracked : Tracked account boot history ledger start)
    (began : (Assumptions.oneBoot boot).advance start now)
    (view : View account (Assumptions.oneBoot boot) record.firstUse ledger now last compared entries)
    (noted : record.observed.now = some now) (compare : record.observed.compared = compared)
    (persisted : record.observed.persisted.isSome = true)
    (corrects : (track history).Corrects account record) :
    ((recent account now.monotonic.value (track history).grants).map
        (Grant.entry ((track history).corrected +
          (track history).correction record.observed))).Sublist entries ∧
      ∀ entry ∈ entries, 0 ≤ entry.airtime := by
  obtain ⟨found, hfound, rfl⟩ := view
  cases hfound with
  | fresh hmissing =>
      rw [tracked.missing hmissing]
      exact ⟨.refl _, nofun⟩
  | @present content later _ _ _ hpresent _ _ _ rebased =>
      have hkept := (tracked.pass began).kept content hpresent
      rw [rebased.corrects (tracked.boot content hpresent) (tracked.evidence content hpresent) compare]
      constructor
      · have hmoved := hkept.map (Entry.shift ((track history).correction record.observed))
        rw [List.map_map] at hmoved
        have hfiltered := hmoved.filter
          fun entry => decide (now.wall.value - account.longWindow < entry.time)
        rw [List.filter_eq_self.mpr ?_] at hfiltered
        · have hentry : Entry.shift ((track history).correction record.observed) ∘
              Grant.entry (track history).corrected =
              Grant.entry ((track history).corrected +
                (track history).correction record.observed) := by
            funext grant
            simp only [Function.comp, Grant.entry, Entry.shift, add_assoc]
          rw [hentry] at hfiltered
          exact hfiltered
        · -- no recent grant is pruned
          intro entry hentry
          obtain ⟨grant, hgrant, rfl⟩ := List.mem_map.mp hentry
          obtain ⟨hgrant, hrecent⟩ := List.mem_filter.mp hgrant
          have hrecent := of_decide_eq_true hrecent
          rw [DutyAccount.elapsedWindow] at hrecent
          have hsteps := corrects persisted now noted grant hgrant (by linarith)
          rw [Track.uncorrected, Clock.offset] at hsteps
          refine decide_eq_true ?_
          simp only [Function.comp, Grant.entry, Entry.shift]
          linarith
      · intro entry hentry
        obtain ⟨original, horiginal, rfl⟩ := List.mem_map.mp (List.mem_filter.mp hentry).1
        exact tracked.nonneg content hpresent original horiginal

theorem Track.grant?_eq {track : Track} {record : Record} {grant : Grant} {now : Clock}
    (h : track.grant? record = some grant) (noted : record.observed.now = some now) :
    grant = ⟨now.monotonic.value,
      now.wall.value - (track.corrected + track.correction record.observed),
      record.airtime.value⟩ := by
  unfold Track.grant? at h
  split at h
  · rename_i found _ hnow
    rw [noted] at hnow
    obtain rfl := Option.some.inj hnow
    exact (Option.some.inj h).symm
  · cases h

theorem Track.call_of_persisted {track : Track} {record : Record} {sample : Sample}
    (persisted : record.observed.persisted = some sample) :
    track.call record =
      { evidence := some sample.offset
        corrected := track.corrected + track.correction record.observed
        grants := track.grants ++ (track.grant? record).toList } := by
  rw [Track.call, persisted]

/-- The limit decision counts every entry a call kept. -/
theorem View.total_le {assumptions : Assumptions} {firstUse : Bool} {ledger : Option Ledger}
    {now last : Clock} {compared : Option Sample} {entries : List Entry} {airtime : Decimal}
    (view : View account assumptions firstUse ledger now last compared entries)
    (admitted : Admits account entries now.wall.value airtime) :
    Charge.total (charges entries) + airtime.val ≤
      allowance account.longLimit account.longWindow := by
  obtain ⟨found, _, rfl⟩ := view
  have hlong := ((refusal_none_iff account _ now.wall.value airtime).mp admitted).2
  rwa [charges_prune, Charge.since, Charge.after_after le_rfl, ← charges_prune] at hlong

/-- The grants a call decides on are within the allowance with its own. -/
theorem Tracked.admits {history : List Record} {ledger : Option Ledger} {start now last : Clock}
    {record : Record} {compared : Option Sample} {entries : List Entry}
    (tracked : Tracked account boot history ledger start)
    (began : (Assumptions.oneBoot boot).advance start now)
    (view : View account (Assumptions.oneBoot boot) record.firstUse ledger now last compared entries)
    (noted : record.observed.now = some now) (compare : record.observed.compared = compared)
    (persisted : record.observed.persisted.isSome = true)
    (corrects : (track history).Corrects account record)
    (admitted : Admits account entries now.wall.value record.airtime.value) :
    Charge.total ((recent account now.monotonic.value (track history).grants).map Grant.charge) +
      record.airtime.value.val ≤ allowance account.longLimit account.longWindow := by
  obtain ⟨hkept, hnonneg⟩ := tracked.view began view noted compare persisted corrects
  have hsublist := Charge.total_sublist (hkept.map Entry.charge) (charges_nonneg hnonneg)
  have hairtimes : ∀ (corrected : Decimal) (grants : List Grant),
      Charge.total ((grants.map (Grant.entry corrected)).map Entry.charge) =
        Charge.total (grants.map Grant.charge) := by
    intro corrected grants
    simp [Charge.total, Function.comp_def, Entry.charge, Grant.entry, Grant.charge]
  rw [hairtimes] at hsublist
  exact (add_le_add_left hsublist _).trans (view.total_le admitted)

/-- A call that puts a ledger on disk keeps the invariant, with a grant only when the
ledger has it. -/
theorem Tracked.written {history : List Record} {ledger : Option Ledger} {start now last clock : Clock}
    {record : Record} {compared : Option Sample} {entries extra : List Entry} {content : Ledger}
    (tracked : Tracked account boot history ledger start)
    (began : (Assumptions.oneBoot boot).advance start now)
    (view : View account (Assumptions.oneBoot boot) record.firstUse ledger now last compared entries)
    (wrote : Written (Assumptions.oneBoot boot) last content clock)
    (noted : record.observed.now = some now) (compare : record.observed.compared = compared)
    (persisted : record.observed.persisted = some content.sample)
    (corrects : (track history).Corrects account record)
    (recorded : content.entries = entries ++ extra) (positive : ∀ entry ∈ extra, 0 < entry.airtime)
    (granted : ((track history).grant? record).toList.map (Grant.entry ((track history).corrected +
      (track history).correction record.observed)) |>.Sublist extra)
    (admitted : ((track history).grant? record).isSome = true →
      Admits account entries now.wall.value record.airtime.value) :
    Tracked account boot (history ++ [record]) (some content) clock := by
  obtain ⟨hkept, hnonneg⟩ := tracked.view began view noted compare (by rw [persisted]; rfl) corrects
  have hadmits := fun h => tracked.admits began view noted compare (by rw [persisted]; rfl) corrects
    (admitted h)
  have hmoved : now.monotonic.value ≤ clock.monotonic.value := by
    obtain ⟨found, hfound, _⟩ := view
    exact (Assumptions.oneBoot boot).trans hfound.advance wrote.advance
  have hcall := (track_append history record).trans (Track.call_of_persisted persisted)
  have hown : ∀ grant ∈ ((track history).grant? record).toList,
      grant.monotonic = now.monotonic.value ∧ grant.airtime = record.airtime.value ∧
        ((track history).grant? record).isSome = true := by
    intro grant hgrant
    have hsome := Option.mem_toList.mp hgrant
    rw [Track.grant?_eq hsome noted, hsome]
    exact ⟨rfl, rfl, rfl⟩
  have hpast : ∀ grant ∈ (track history).grants, grant.monotonic ≤ now.monotonic.value :=
    (tracked.pass began).past
  constructor
  · rw [hcall]
    refine List.pairwise_append.mpr ⟨tracked.ordered, ?_, ?_⟩
    · cases (track history).grant? record <;> simp
    · intro first hfirst second hsecond
      rw [(hown second hsecond).1]
      exact hpast first hfirst
  · rw [hcall]
    intro grant hgrant
    rcases List.mem_append.mp hgrant with h | h
    · exact (hpast grant h).trans hmoved
    · rw [(hown grant h).1]
      exact hmoved
  · rw [hcall]
    intro grant hgrant
    rcases List.mem_append.mp hgrant with h | h
    · exact tracked.positive grant h
    · rw [(hown grant h).2.1]
      exact record.airtime.positive
  · rw [hcall]
    intro before grant behind hsplit
    have hlast : grant ∈ ((track history).grant? record).toList →
        Charge.total ((recent account grant.monotonic (track history).grants).map Grant.charge) +
          grant.airtime.val ≤ allowance account.longLimit account.longWindow := by
      intro hgrant
      obtain ⟨hmono, hairtime, hsome⟩ := hown grant hgrant
      rw [hmono, hairtime]
      exact hadmits hsome
    rcases List.append_eq_append_iff.mp hsplit with ⟨tail, rfl, htail⟩ | ⟨tail, hbefore, htail⟩
    · -- the new grant itself
      have hnil : tail = [] := by
        have hlength := congrArg List.length htail
        have hone := Option.length_toList_le (o := (track history).grant? record)
        rw [List.length_append, List.length_cons] at hlength
        exact List.length_eq_zero_iff.mp (by omega)
      rw [hnil, List.append_nil]
      exact hlast (by rw [htail]; simp)
    · cases tail with
      | nil =>
          rw [List.append_nil] at hbefore
          rw [List.nil_append] at htail
          rw [← hbefore]
          exact hlast (htail ▸ List.mem_cons_self)
      | cons first rest =>
          -- an earlier grant
          rw [List.cons_append] at htail
          obtain ⟨rfl, _⟩ := List.cons.inj htail
          exact tracked.admitted before grant rest hbefore
  · exact nofun
  · rintro _ ⟨⟩
    obtain ⟨reply, hreply, hboot⟩ := wrote.boot
    rw [hboot, show reply = boot from hreply]
  · rintro _ ⟨⟩
    rw [hcall]
  · rintro _ ⟨⟩ entry hentry
    rw [recorded] at hentry
    rcases List.mem_append.mp hentry with h | h
    · exact hnonneg entry h
    · exact (positive entry h).le
  · rintro _ ⟨⟩
    rw [hcall, recorded, recent, List.filter_append, List.map_append]
    refine List.Sublist.append (((recent_later hmoved _).map _).trans hkept) ?_
    exact (List.filter_sublist.map _).trans granted

/-- A call that leaves the disk as it was, and grants nothing. -/
theorem Tracked.untouched {history : List Record} {ledger : Option Ledger} {clock : Clock}
    {record : Record} (tracked : Tracked account boot history ledger clock)
    (quiet : record.observed.persisted = none) (grant : (track history).grant? record = none) :
    Tracked account boot (history ++ [record]) ledger clock := by
  have hcall : track (history ++ [record]) = track history := by
    rw [track_append, Track.call, quiet, grant]
    simp
  exact ⟨hcall ▸ tracked.ordered, hcall ▸ tracked.past, hcall ▸ tracked.positive,
    hcall ▸ tracked.admitted, hcall ▸ tracked.missing, tracked.boot, hcall ▸ tracked.evidence,
    tracked.nonneg, hcall ▸ tracked.kept⟩

theorem Tracked.progress {history : List Record} {ledger left : Option Ledger} {start clock : Clock}
    {record : Record} (tracked : Tracked account boot history ledger start)
    (progress : Progress account (Assumptions.oneBoot boot) record.firstUse record.airtime.value ledger
      start left clock record.observed)
    (corrects : (track history).Corrects account record)
    (grant : (track history).grant? record = none) :
    Tracked account boot (history ++ [record]) left clock := by
  cases progress with
  | untouched moved quiet => exact (tracked.pass moved).untouched quiet grant
  | @written now last _ compared entries content _ began view wrote noted compare persisted recorded =>
      have hnone : ∀ corrected extra, (((track history).grant? record).toList.map
          (Grant.entry corrected)).Sublist extra := by
        intro corrected extra
        rw [grant]
        exact List.nil_sublist _
      rcases recorded with hentries | ⟨hentries, _⟩
      · exact tracked.written began view wrote noted compare persisted corrects
          (hentries.trans (List.append_nil _).symm) (fun _ h => absurd h List.not_mem_nil)
          (hnone _ _) (by rw [grant]; nofun)
      · refine tracked.written began view wrote noted compare persisted corrects hentries ?_
          (hnone _ _) (by rw [grant]; nofun)
        intro entry hentry
        rw [List.mem_singleton.mp hentry]
        exact record.airtime.positive

/-- One call of the chain keeps the invariant. -/
theorem Tracked.call {history : List Record} {ledger left : Option Ledger} {start clock : Clock}
    {record : Record} (tracked : Tracked account boot history ledger start)
    (did : record.Did account (Assumptions.oneBoot boot) ledger start left clock)
    (corrects : (track history).Corrects account record) :
    Tracked account boot (history ++ [record]) left clock := by
  obtain ⟨airtime, firstUse, observed, outcome⟩ := record
  unfold Record.Did at did
  cases outcome with
  | killed => exact tracked.progress did corrects rfl
  | notReleased => exact tracked.progress did corrects rfl
  | ended result =>
      dsimp only at did
      cases did with
      | @granted now last _ compared entries content _ began view wrote noted compare persisted
          recorded admitted =>
          refine tracked.written began view wrote noted compare persisted corrects recorded ?_ ?_
            fun _ => admitted
          · intro entry hentry
            rw [List.mem_singleton.mp hentry]
            exact airtime.positive
          · cases hgrant : (track history).grant? _ with
            | none => exact List.nil_sublist _
            | some grant =>
                rw [Track.grant?_eq hgrant noted]
                simp [Grant.entry]
      | refused began view moved noted compare kept decided =>
          exact tracked.progress
            (Ended.refused began view moved noted compare kept decided).progress corrects rfl
      | failed progress => exact tracked.progress progress corrects rfl

theorem chain_tracked {history : List Record} {ledger : Option Ledger} {clock : Clock}
    (chain : Chain account (Assumptions.oneBoot boot) history ledger clock)
    (corrected : Corrected account history) : Tracked account boot history ledger clock := by
  induction chain with
  | start clock =>
      exact ⟨.nil, nofun, nofun, by simp [track], fun _ => rfl, nofun, nofun, nofun, nofun⟩
  | pass _ moved ih => exact (ih corrected).pass moved
  | call _ did ih =>
      obtain ⟨hbefore, hcall⟩ := corrected.init
      exact (ih hbefore).call did hcall

theorem run_tracked {world : World} {trace : List Label}
    (run : (machine account (Assumptions.oneBoot boot)).Run world trace)
    (corrected : Corrected account world.history) :
    ∃ ledger clock, Tracked account boot world.history ledger clock := by
  have sound := run_sound run
  unfold World.Sound at sound
  split at sound
  · obtain ⟨ledger, _, chain⟩ := sound
    exact ⟨ledger, _, chain_tracked chain corrected⟩
  · obtain ⟨ledger, start, chain, _⟩ := sound
    exact ⟨ledger, start, chain_tracked chain corrected⟩

/-! ## Windows of elapsed time -/

/-- A granted reservation as a charge at its time on the monotonic clock. -/
def Record.elapsed? (record : Record) : Option (Charge ℚ) :=
  match record.outcome, record.observed.now with
  | .ended (.ok .granted), some now => some ⟨now.monotonic.value.val, record.airtime.value.val⟩
  | _, _ => none

/-- The reservations that returned `True`, on the monotonic clock. -/
def elapsed (history : List Record) : List (Charge ℚ) := history.filterMap Record.elapsed?

theorem track_elapsed (history : List Record) :
    (track history).grants.map Grant.charge = elapsed history := by
  induction history using List.reverseRecOn with
  | nil => rfl
  | append_singleton history record ih =>
      have hgrants : ((track history).call record).grants =
          (track history).grants ++ ((track history).grant? record).toList := by
        unfold Track.call
        split <;> rfl
      have hcharge : ((track history).grant? record).map Grant.charge = record.elapsed? := by
        unfold Track.grant? Record.elapsed?
        split <;> rfl
      have hsingle : [record].filterMap Record.elapsed? = record.elapsed?.toList := by
        cases helapsed : record.elapsed? <;> simp [helapsed]
      rw [track_append, hgrants, List.map_append, ih, elapsed, elapsed, List.filterMap_append,
        hsingle, ← hcharge]
      cases (track history).grant? record <;> rfl

/-- In every run of one boot whose calls correct the steps of the wall clock, every
window of elapsed time holds no more airtime than the long window's allowance. -/
theorem elapsed_within_limit {world : World} {trace : List Label}
    (run : (machine account (Assumptions.oneBoot boot)).Run world trace)
    (corrected : Corrected account world.history) (stop : ℚ) :
    Charge.total (Charge.between (elapsed world.history) (stop - account.elapsedWindow.val) stop) ≤
      allowance account.longLimit account.longWindow := by
  obtain ⟨ledger, clock, tracked⟩ := run_tracked run corrected
  rw [← track_elapsed]
  refine Charge.between_le ?_ ?_ ?_ ?_ stop
  · exact allowance_nonneg account.longNonneg account.longPositive
  · exact List.pairwise_map.mpr tracked.ordered
  · intro charge hcharge
    obtain ⟨grant, hgrant, rfl⟩ := List.mem_map.mp hcharge
    exact (tracked.positive grant hgrant).le
  · intro before charge behind hsplit
    obtain ⟨first, tail, hgrants, rfl, htail⟩ := List.map_eq_append_iff.mp hsplit
    obtain ⟨grant, rest, rfl, rfl, _⟩ := List.map_eq_cons_iff.mp htail
    have hadmitted := tracked.admitted first grant rest hgrants
    rw [Charge.since, Charge.after, List.filter_map]
    exact hadmitted

theorem oneBoot_permits (clock : Clock) :
    (Assumptions.oneBoot (some [])).Permits clock [] := ⟨trivial, rfl⟩

/-- The window of the first reservation ever. -/
theorem first_elapsed_within_limit :
    ∃ (world : World) (trace : List Label),
      (machine .default (Assumptions.oneBoot (some []))).Run world trace ∧
      elapsed world.history = [⟨100, 1⟩] ∧
      Charge.total (Charge.between (elapsed world.history)
        (100 - DutyAccount.default.elapsedWindow.val) 100) ≤
          allowance DutyAccount.default.longLimit DutyAccount.default.longWindow := by
  obtain ⟨world, observed, ⟨trace, run⟩, hhistory, hnow⟩ :=
    first_grant (oneBoot_permits (clockAt 100 100))
  have hcorrected : Corrected .default world.history := by
    rw [hhistory]
    rintro before record behind hsplit
    cases before with
    | nil =>
        intro _ _ _ grant hgrant
        exact absurd hgrant List.not_mem_nil
    | cons first rest => simp at hsplit
  refine ⟨world, trace, run.of_restrict, ?_, elapsed_within_limit run.of_restrict hcorrected 100⟩
  have hreading : (readingOf 100).value = 100 := readingOf_value (by norm_num) (by norm_num)
  rw [hhistory]
  simp [elapsed, Record.elapsed?, hnow, clockAt, hreading, oneSecond]

/-! ## Steps that stay unseen -/

/-- The default windows with a long-term limit of ten percent. -/
def tenPercent : DutyAccount :=
  { DutyAccount.default with
    longLimit := 10
    longNonneg := by norm_num }

/-- A wall clock that gains a minute on every second. -/
def creepingClock (index : ℕ) : Clock := clockAt ((61 * index : ℕ) : Decimal) (index : Decimal)

def wholeSeconds (seconds : ℕ) (hpositive : 0 < seconds) (hsmall : seconds ≤ 1000) : Airtime :=
  ⟨(seconds : Decimal), Nat.cast_pos.mpr hpositive, inRange_of_le (by
    have h : (seconds : ℚ) ≤ 1000 := by exact_mod_cast hsmall
    rw [Decimal.coe_natCast, abs_of_nonneg (Nat.cast_nonneg seconds)]
    linarith)⟩

/-- Five minutes at the start and at second 60, one second every second between. -/
def creepingAirtime (index : ℕ) : Airtime :=
  if index = 0 ∨ index = 60 then wholeSeconds 300 (by norm_num) (by norm_num)
  else wholeSeconds 1 (by norm_num) (by norm_num)

theorem creepingClock_value {index : ℕ} (h : index ≤ 60) :
    (creepingClock index).wall.value = ((61 * index : ℕ) : Decimal) ∧
      (creepingClock index).monotonic.value = (index : Decimal) := by
  have hindex : (index : ℚ) ≤ 60 := by exact_mod_cast h
  have hzero : (0 : ℚ) ≤ index := Nat.cast_nonneg index
  constructor
  · refine readingOf_value (Nat.cast_nonneg _) ?_
    rw [Decimal.coe_natCast, abs_of_nonneg (Nat.cast_nonneg _)]
    push_cast
    linarith
  · refine readingOf_value (Nat.cast_nonneg _) ?_
    rw [Decimal.coe_natCast, abs_of_nonneg hzero]
    linarith

theorem creepingAirtime_value (index : ℕ) :
    ∃ seconds : ℕ, seconds ≤ 300 ∧ (creepingAirtime index).value = (seconds : Decimal) := by
  unfold creepingAirtime
  split
  · exact ⟨300, le_rfl, rfl⟩
  · exact ⟨1, by norm_num, rfl⟩

/-- The entries of the creeping series. -/
theorem mem_creeping {count : ℕ} (hcount : count ≤ 60) {entry : Entry}
    (hentry : entry ∈ series creepingClock creepingAirtime count) :
    ∃ index < count, entry.time = ((61 * index : ℕ) : Decimal) ∧
      entry.airtime = (creepingAirtime index).value := by
  obtain ⟨index, hindex, rfl⟩ := List.mem_map.mp hentry
  have hindex := List.mem_range.mp hindex
  exact ⟨index, hindex, (creepingClock_value (by omega)).1, rfl⟩

theorem sum_creeping {count : ℕ} (hpositive : 0 < count) (hcount : count ≤ 60) :
    ((List.range count).map fun index => (creepingAirtime index).value.val).sum = 299 + count := by
  induction count with
  | zero => exact absurd hpositive (lt_irrefl 0)
  | succ count ih =>
      rw [List.range_succ, List.map_append, List.sum_append, List.map_singleton, List.sum_singleton]
      rcases Nat.eq_zero_or_pos count with rfl | hbefore
      · norm_num [creepingAirtime, wholeSeconds]
      · have hone : creepingAirtime count = wholeSeconds 1 (by norm_num) (by norm_num) :=
          if_neg (by omega)
        rw [ih hbefore (by omega), hone]
        simp only [wholeSeconds, Decimal.coe_natCast]
        push_cast
        ring

theorem total_creeping {count : ℕ} (hpositive : 0 < count) (hcount : count ≤ 60) :
    Charge.total (charges (series creepingClock creepingAirtime count)) = 299 + count := by
  rw [← sum_creeping hpositive hcount, Charge.total, charges, series, List.map_map, List.map_map]
  rfl

theorem creeping_nonneg {count : ℕ} (hcount : count ≤ 60) :
    Charge.Nonneg (charges (series creepingClock creepingAirtime count)) := by
  refine charges_nonneg fun entry hentry => ?_
  obtain ⟨index, _, _, hairtime⟩ := mem_creeping hcount hentry
  rw [hairtime]
  exact (creepingAirtime index).positive.le

theorem creeping_kept {count : ℕ} (hcount : count < 60) :
    prune tenPercent (creepingClock count).wall.value (series creepingClock creepingAirtime count) =
      series creepingClock creepingAirtime count := by
  refine List.filter_eq_self.mpr ?_
  intro entry hentry
  obtain ⟨index, _, htime, _⟩ := mem_creeping hcount.le hentry
  rw [(creepingClock_value hcount.le).1, htime]
  have hcount' : (count : ℚ) ≤ 59 := by exact_mod_cast Nat.le_of_lt_succ hcount
  have hyoung : (((61 * count : ℕ) : Decimal) : ℚ) - 3600 < (((61 * index : ℕ) : Decimal) : ℚ) := by
    simp only [Decimal.coe_natCast]
    push_cast
    linarith [(Nat.cast_nonneg index : (0 : ℚ) ≤ index)]
  exact decide_eq_true hyoung

/-- The last call but one was a minute ago, so the burst window is empty. -/
theorem creeping_burst {count : ℕ} (hcount : count ≤ 60) :
    Charge.since (charges (series creepingClock creepingAirtime count))
      ((creepingClock count).wall.value.val - tenPercent.shortWindow.val) ≤ 0 := by
  have hempty : Charge.after (charges (series creepingClock creepingAirtime count))
      ((creepingClock count).wall.value.val - tenPercent.shortWindow.val) = [] := by
    refine List.filter_eq_nil_iff.mpr ?_
    intro charge hcharge
    obtain ⟨entry, hentry, rfl⟩ := List.mem_map.mp hcharge
    obtain ⟨index, hindex, htime, _⟩ := mem_creeping hcount hentry
    have hindex' : (index : ℚ) + 1 ≤ count := by exact_mod_cast hindex
    have hshort : tenPercent.shortWindow.val = 15 := Decimal.coe_ofNat 15
    have hold : entry.time.val ≤ (creepingClock count).wall.value.val - tenPercent.shortWindow.val := by
      rw [(creepingClock_value hcount).1, htime, hshort, Decimal.coe_natCast, Decimal.coe_natCast]
      push_cast
      linarith
    exact fun h => absurd (of_decide_eq_true h) (not_lt.mpr hold)
  rw [Charge.since, hempty, Charge.total_nil]

theorem tenPercent_allowance : allowance tenPercent.longLimit tenPercent.longWindow = 360 := by
  norm_num [allowance, tenPercent, DutyAccount.default]

theorem creeping_admits {count : ℕ} (hcount : count < 60) :
    Admits tenPercent (series creepingClock creepingAirtime count) (creepingClock count).wall.value
      (creepingAirtime count).value := by
  refine (refusal_none_iff ..).mpr ⟨Or.inl (creeping_burst hcount.le), ?_⟩
  rw [tenPercent_allowance]
  have hsince := Charge.total_sublist (List.filter_sublist (p := fun charge => decide
    ((creepingClock count).wall.value.val - tenPercent.longWindow.val < Charge.time charge)))
    (creeping_nonneg hcount.le)
  refine (add_le_add_left hsince _).trans ?_
  rcases Nat.eq_zero_or_pos count with rfl | hpositive
  · norm_num [series, creepingAirtime, wholeSeconds]
  · have hone : (creepingAirtime count).value.val = 1 := by
      rw [creepingAirtime, if_neg (by omega)]
      simp [wholeSeconds]
    have hcount' : (count : ℚ) ≤ 59 := by exact_mod_cast Nat.le_of_lt_succ hcount
    rw [total_creeping hpositive hcount.le, hone]
    linarith

theorem creeping_size {count : ℕ} (hpositive : 0 < count) (hcount : count ≤ 60) :
    (seriesLedger creepingClock creepingAirtime [] count).size ≤ readLimit := by
  have htext : ∀ n : ℕ, n ≤ 10000 → ((n : Decimal)).text.length ≤ 18 :=
    fun n hn => Decimal.length_text_natCast_le (hn.trans_lt (by norm_num))
  have hentries : ∀ size ∈ (series creepingClock creepingAirtime count).map Entry.size, size ≤ 40 := by
    intro size hsize
    obtain ⟨entry, hentry, rfl⟩ := List.mem_map.mp hsize
    obtain ⟨index, hindex, htime, hairtime⟩ := mem_creeping hcount hentry
    obtain ⟨seconds, hseconds, hvalue⟩ := creepingAirtime_value index
    have htimeRange : |entry.time.val| < floatLimit := by
      have h := (creepingClock index).wall.inRange
      rwa [(creepingClock_value (by omega)).1, ← htime] at h
    have hairtimeRange : |entry.airtime.val| < floatLimit := hairtime ▸ (creepingAirtime index).inRange
    rw [Entry.size, PyFloat.text_ofDecimal htimeRange, PyFloat.text_ofDecimal hairtimeRange, htime,
      hairtime, hvalue]
    have hfirst := htext (61 * index) (by omega)
    have hsecond := htext seconds (by omega)
    omega
  have hsum := List.sum_le_card_nsmul _ 40 hentries
  rw [List.length_map, smul_eq_mul] at hsum
  have hlength : (series creepingClock creepingAirtime count).length = count := by
    rw [series, List.length_map, List.length_range]
  have hboot : (Json.stringText (strip [])).length = 2 := rfl
  obtain ⟨hwall, hmonotonic⟩ := creepingClock_value (show count - 1 ≤ 60 by omega)
  have hfirst := htext (61 * (count - 1)) (by omega)
  have hsecond := htext (count - 1) (by omega)
  rw [hlength] at hsum
  simp only [Ledger.size, seriesLedger, hlength, hboot, hwall, hmonotonic]
  rw [readLimit]
  omega

theorem creeping_readable {count : ℕ} (hpositive : 0 < count) (hcount : count ≤ 60) :
    Readable (creepingClock count) [] (seriesLedger creepingClock creepingAirtime [] count) := by
  have hoffset : ∀ index ≤ 60, (creepingClock index).offset = ((60 * index : ℕ) : Decimal) := by
    intro index hindex
    obtain ⟨hwall, hmonotonic⟩ := creepingClock_value hindex
    rw [Clock.offset, hwall, hmonotonic]
    push_cast
    ring
  refine ⟨rfl, ?_, by rw [Ledger.length_text]; exact creeping_size hpositive hcount, ?_, ?_⟩
  · obtain ⟨before, rfl⟩ : ∃ before, count = before + 1 := Nat.exists_eq_succ_of_ne_zero hpositive.ne'
    have hsample : (seriesLedger creepingClock creepingAirtime [] (before + 1)).sample.offset =
        ((60 * before : ℕ) : Decimal) := hoffset before (by omega)
    have hstep : ((60 * (before + 1) : ℕ) : Decimal) - ((60 * before : ℕ) : Decimal) = 60 := by
      push_cast
      ring
    rw [hoffset _ hcount, hsample, hstep]
    exact (abs_of_nonneg clockSkewS_nonneg).le
  · intro entry hentry
    obtain ⟨index, hindex, htime, hairtime⟩ := mem_creeping hcount hentry
    refine ⟨?_, hairtime ▸ (creepingAirtime index).inRange, hairtime ▸ (creepingAirtime index).positive⟩
    have h := (creepingClock index).wall.inRange
    rwa [(creepingClock_value (by omega)).1, ← htime] at h
  · intro entry hentry
    obtain ⟨index, hindex, htime, _⟩ := mem_creeping hcount hentry
    rw [htime, (creepingClock_value hcount).1]
    exact_mod_cast Nat.mul_le_mul_left 61 hindex.le

/-- At second 60 the wall clock is an hour ahead and the first grant is pruned. -/
theorem creeping_last_admits :
    Admits tenPercent (prune tenPercent (creepingClock 60).wall.value
      (series creepingClock creepingAirtime 60)) (creepingClock 60).wall.value
      (creepingAirtime 60).value := by
  have hwall : (creepingClock 60).wall.value.val = 3660 := by
    rw [(creepingClock_value le_rfl).1, Decimal.coe_natCast]
    norm_num
  have hlong : tenPercent.longWindow.val = 3600 := Decimal.coe_ofNat 3600
  have hlast : (creepingAirtime 60).value.val = 300 := by
    rw [creepingAirtime, if_pos (Or.inr rfl)]
    simp [wholeSeconds]
  -- the first entry, and the 59 seconds behind it
  let rest := series (fun index => creepingClock (index + 1))
    (fun index => creepingAirtime (index + 1)) 59
  have hfirst : Entry.charge ⟨(creepingClock 0).wall.value, (creepingAirtime 0).value⟩ =
      ⟨0, 300⟩ := by
    rw [Entry.charge, (creepingClock_value (Nat.zero_le 60)).1]
    simp [creepingAirtime, wholeSeconds]
  have hseries : charges (series creepingClock creepingAirtime 60) = [⟨0, 300⟩] ++ charges rest := by
    rw [series_succ_left, ← hfirst]
    rfl
  have hrest : Charge.total (charges rest) = 59 := by
    have htotal := total_creeping (show 0 < 60 by norm_num) le_rfl
    rw [hseries, Charge.total_append, Charge.total_singleton] at htotal
    push_cast at htotal
    linarith
  have hnonneg : Charge.Nonneg (charges rest) :=
    (creeping_nonneg le_rfl).of_sublist (hseries ▸ List.sublist_append_right _ _)
  refine (refusal_none_iff ..).mpr ⟨Or.inl ?_, ?_⟩
  · have hburst := creeping_burst (le_refl 60)
    have hcut : (creepingClock 60).wall.value.val - tenPercent.longWindow.val ≤
        (creepingClock 60).wall.value.val - tenPercent.shortWindow.val := by
      have hordered : tenPercent.shortWindow.val ≤ tenPercent.longWindow.val := tenPercent.ordered
      linarith
    rwa [charges_prune, Charge.since, Charge.after_after hcut]
  · rw [charges_prune, Charge.since, Charge.after_after le_rfl, tenPercent_allowance, hwall, hlong,
      hlast, hseries, Charge.after_append]
    have hold : Charge.after [(⟨0, 300⟩ : Charge ℚ)] (3660 - 3600) = [] := by
      rw [Charge.after, List.filter_eq_nil_iff]
      intro charge hcharge
      rw [List.mem_singleton.mp hcharge]
      norm_num
    have hyoung := Charge.total_sublist (List.filter_sublist (p := fun charge =>
      decide ((3660 : ℚ) - 3600 < Charge.time charge))) hnonneg
    rw [hold, List.nil_append]
    rw [hrest] at hyoung
    exact (add_le_add_left hyoung _).trans (by norm_num)

/-- A minute of unseen step at every call: within one minute of elapsed time the calls
are granted nearly twice the allowance. -/
theorem creeping_clock_exceeds_limit :
    ∃ (world : World) (trace : List Label),
      (machine tenPercent (Assumptions.oneBoot (some []))).Run world trace ∧
      allowance tenPercent.longLimit tenPercent.longWindow <
        Charge.total (Charge.between (elapsed world.history)
          (60 - tenPercent.elapsedWindow.val) 60) := by
  have hmoved : ∀ index < 60, (Assumptions.oneBoot (some [])).advance
      (creepingClock (index - 1)) (creepingClock index) := by
    intro index hindex
    have hforward : (creepingClock (index - 1)).monotonic.value ≤
        (creepingClock index).monotonic.value := by
      rw [(creepingClock_value (by omega)).2, (creepingClock_value (by omega)).2]
      exact_mod_cast Nat.sub_le index 1
    exact hforward
  obtain ⟨world, observed, rested, hhistory, hnow⟩ := Rested.series creepingClock creepingAirtime []
    hmoved (fun _ _ => oneBoot_permits _) (fun _ h hpositive => creeping_readable hpositive h.le)
    (fun _ h => creeping_kept h) (fun _ h => creeping_admits h)
  have hlastMoved : (Assumptions.oneBoot (some [])).advance (creepingClock (60 - 1))
      (creepingClock 60) := by
    have hforward : (creepingClock 59).monotonic.value ≤ (creepingClock 60).monotonic.value := by
      rw [(creepingClock_value (by norm_num)).2, (creepingClock_value le_rfl).2]
      norm_num
    exact hforward
  obtain ⟨after, seen, hrested, hafter, hseen⟩ := rested.grant hlastMoved (oneBoot_permits _)
    (by rintro _ ⟨⟩; exact creeping_readable (by norm_num) le_rfl) ⟨1, 0⟩ 0 (creepingAirtime 60)
    creeping_last_admits
  obtain ⟨trace, run⟩ := hrested.reaches
  refine ⟨after, trace, run.of_restrict, ?_⟩
  have hbefore : elapsed world.history = (List.range 60).map fun index : ℕ =>
      (⟨(index : ℚ), (creepingAirtime index).value.val⟩ : Charge ℚ) := by
    rw [hhistory, elapsed, List.filterMap_map]
    refine (List.filterMap_congr ?_).trans (congrFun List.filterMap_eq_map _)
    intro index hindex
    have hindex := List.mem_range.mp hindex
    simp [Record.elapsed?, hnow index hindex, (creepingClock_value hindex.le).2]
  have hlast : (creepingAirtime 60).value.val = 300 := by
    rw [creepingAirtime, if_pos (Or.inr rfl)]
    simp [wholeSeconds]
  have helapsed : elapsed after.history = elapsed world.history ++ [⟨60, 300⟩] := by
    rw [hafter, elapsed, List.filterMap_append]
    congr 1
    simp [Record.elapsed?, hseen, (creepingClock_value (le_refl 60)).2, hlast]
  have hall : Charge.between (elapsed after.history) (60 - tenPercent.elapsedWindow.val) 60 =
      elapsed after.history := by
    have hwindow : tenPercent.elapsedWindow.val = 3540 := by
      norm_num [DutyAccount.elapsedWindow, tenPercent, DutyAccount.default, clockSkewS]
    refine List.filter_eq_self.mpr ?_
    intro charge hcharge
    rw [helapsed, hbefore] at hcharge
    have htime : 0 ≤ charge.time ∧ charge.time ≤ 60 := by
      rcases List.mem_append.mp hcharge with h | h
      · obtain ⟨index, hindex, rfl⟩ := List.mem_map.mp h
        have hlate : (index : ℚ) ≤ 60 := by exact_mod_cast (List.mem_range.mp hindex).le
        exact ⟨Nat.cast_nonneg index, hlate⟩
      · rw [List.mem_singleton.mp h]
        norm_num
    refine decide_eq_true ⟨?_, htime.2⟩
    rw [hwindow]
    linarith [htime.1]
  have hsum := sum_creeping (show 0 < 60 by norm_num) le_rfl
  rw [hall, helapsed, hbefore, Charge.total_append, Charge.total_singleton, tenPercent_allowance,
    Charge.total, List.map_map]
  have hamounts : (Charge.amount ∘ fun index : ℕ =>
      (⟨(index : ℚ), (creepingAirtime index).value.val⟩ : Charge ℚ)) =
      fun index => (creepingAirtime index).value.val := rfl
  rw [hamounts, hsum]
  norm_num

end LorahamRns.Duty
