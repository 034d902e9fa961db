import LorahamRns.Duty.Script

/-!
# The limits hold in every window

While the wall clock moves forward with the monotonic clock, the ledger covers
every grant ever made: what a later window sees of the ledger is never less
than what it sees of the grants.  A grant is admitted against the ledger, so it
is admitted against the grants, and every window of grants is within its
allowance.
-/

namespace LorahamRns.Duty

open LorahamRns.Lib

/-- The grant a record stands for: its stamp and its airtime. -/
def Record.grant? (record : Record) : Option Entry :=
  match record.outcome, record.observed.now with
  | .ended (.ok .granted), some now => some ⟨now.wall.value, record.airtime.value⟩
  | _, _ => none

/-- The reservations that returned `True`, in the order they were granted. -/
def grants (history : List Record) : List Entry := history.filterMap Record.grant?

theorem grants_append (history : List Record) (record : Record) :
    grants (history ++ [record]) = grants history ++ record.grant?.toList := by
  rw [grants, List.filterMap_append]
  cases hgrant : record.grant? <;> simp [grants, hgrant]

/-- The wall clock never goes back and advances with the monotonic clock: two
readings made back to back, the time between them included, never put it more
than `CLOCK_SKEW_S` apart from where other readings put it.  Every other call
may fail, and `boot_id` may be unreadable. -/
def Assumptions.steady (base : Decimal) : Assumptions where
  advance first second :=
    first.wall.value ≤ second.wall.value ∧ first.monotonic.value ≤ second.monotonic.value
  refl := Clock.onward_refl
  trans := Clock.onward_trans
  sample sample := base ≤ sample.offset ∧ sample.offset ≤ base + clockSkewS
  boot _ := True
  readFails := True
  writeFails _ := True

/-- Two samples of steady clocks are no clock step. -/
theorem abs_offset_sub_le {base : Decimal} {first second : Sample}
    (hfirst : (Assumptions.steady base).sample first)
    (hsecond : (Assumptions.steady base).sample second) :
    |first.offset - second.offset| ≤ clockSkewS := by
  rw [abs_le]
  constructor
  · linarith [hfirst.1, hsecond.2]
  · linarith [hfirst.2, hsecond.1]

variable {account : DutyAccount} {base : Decimal}

/-- What one admitted grant was checked against. -/
def AdmittedAfter (account : DutyAccount) (before : List Entry) (grant : Entry) : Prop :=
  (Charge.since (charges before) (grant.time.val - account.shortWindow.val) ≤ 0 ∨
    Charge.since (charges before) (grant.time.val - account.shortWindow.val) + grant.airtime.val ≤
      allowance account.shortLimit account.shortWindow) ∧
  Charge.since (charges before) (grant.time.val - account.longWindow.val) + grant.airtime.val ≤
    allowance account.longLimit account.longWindow

/-- The invariant of the chain of calls. -/
structure Accounted (account : DutyAccount) (base : Decimal) (history : List Record)
    (ledger : Option Ledger) (clock : Clock) : Prop where
  ordered : (grants history).Pairwise fun first second => first.time ≤ second.time
  past : ∀ grant ∈ grants history, grant.time ≤ clock.wall.value
  positive : ∀ grant ∈ grants history, 0 < grant.airtime
  admitted : ∀ before grant behind, grants history = before ++ grant :: behind →
    AdmittedAfter account before grant
  missing : ledger = none → grants history = []
  nonneg : ∀ content, ledger = some content → ∀ entry ∈ content.entries, 0 ≤ entry.airtime
  sampled : ∀ content, ledger = some content → (Assumptions.steady base).sample content.sample
  covered : ∀ content, ledger = some content →
    Charge.Covers (clock.wall.value.val - account.longWindow.val) (charges (grants history))
      (charges content.entries)

theorem Accounted.pass {history : List Record} {ledger : Option Ledger} {start clock : Clock}
    (accounted : Accounted account base history ledger start)
    (moved : (Assumptions.steady base).advance start clock) :
    Accounted account base history ledger clock := by
  refine { accounted with past := ?_, covered := ?_ }
  · exact fun grant hgrant => (accounted.past grant hgrant).trans moved.1
  · intro content hcontent
    have hmoved : start.wall.value.val ≤ clock.wall.value.val := moved.1
    exact (accounted.covered content hcontent).later (by linarith)

/-- Rebased stamps are the stamps, or later ones. -/
theorem Rebased.charges {content : Ledger} {start last : Clock} {compared : Option Sample}
    {entries : List Entry}
    (rebased : Rebased (Assumptions.steady base) content start last compared entries)
    (sampled : (Assumptions.steady base).sample content.sample) :
    entries = content.entries ∨
      ∃ step : Decimal, 0 ≤ step ∧ entries = content.entries.map (Entry.shift step) := by
  cases rebased with
  | empty nothing => exact Or.inl nothing.symm
  | sameBoot before behind hsample =>
      rw [if_pos (abs_offset_sub_le hsample sampled)]
      exact Or.inl rfl
  | otherBoot before other =>
      split
      · rename_i hstep
        exact Or.inr ⟨_, clockSkewS_nonneg.trans hstep.le, rfl⟩
      · exact Or.inl rfl

/-- The entries a call decides on cover the grants made before it. -/
theorem Accounted.view {history : List Record} {ledger : Option Ledger} {start now last : Clock}
    {firstUse : Bool} {compared : Option Sample} {entries : List Entry}
    (accounted : Accounted account base history ledger start)
    (began : (Assumptions.steady base).advance start now)
    (view : View account (Assumptions.steady base) firstUse ledger now last compared entries) :
    Charge.Covers (now.wall.value.val - account.longWindow.val) (charges (grants history))
        (charges entries) ∧
      ∀ entry ∈ entries, 0 ≤ entry.airtime := by
  obtain ⟨found, hfound, rfl⟩ := view
  cases hfound with
  | fresh hmissing =>
      rw [accounted.missing hmissing]
      exact ⟨.refl _ _, nofun⟩
  | @present content later _ _ _ hpresent _ _ _ rebased =>
      have hcovered := (accounted.pass began).covered content hpresent
      have hnonneg := accounted.nonneg content hpresent
      rw [charges_prune]
      obtain rfl | ⟨step, hstep, rfl⟩ := rebased.charges (accounted.sampled content hpresent)
      · refine ⟨hcovered.prune le_rfl, ?_⟩
        exact fun entry hentry => hnonneg entry (List.mem_filter.mp hentry).1
      · rw [charges_shift]
        refine ⟨(hcovered.shift (charges_nonneg hnonneg) hstep).prune le_rfl, ?_⟩
        intro entry hentry
        obtain ⟨original, horiginal, rfl⟩ := List.mem_map.mp (List.mem_filter.mp hentry).1
        exact hnonneg original horiginal

/-- A ledger of the entries a call decided on, with nothing granted. -/
theorem Accounted.rewritten {history : List Record} {ledger : Option Ledger}
    {start now last clock : Clock} {firstUse : Bool} {compared : Option Sample}
    {entries extra : List Entry} {content : Ledger}
    (accounted : Accounted account base history ledger start)
    (began : (Assumptions.steady base).advance start now)
    (view : View account (Assumptions.steady base) firstUse ledger now last compared entries)
    (wrote : Written (Assumptions.steady base) last content clock)
    (recorded : content.entries = entries ++ extra) (positive : ∀ entry ∈ extra, 0 < entry.airtime) :
    Accounted account base history (some content) clock := by
  obtain ⟨hcovers, hnonneg⟩ := accounted.view began view
  obtain ⟨found, hfound, _⟩ := view
  have moved := (Assumptions.steady base).trans hfound.advance wrote.advance
  have hmoved : now.wall.value.val ≤ clock.wall.value.val := moved.1
  have hextra : ∀ entry ∈ extra, 0 ≤ entry.airtime := fun entry hentry => (positive entry hentry).le
  have hpass := accounted.pass ((Assumptions.steady base).trans began moved)
  refine { hpass with missing := nofun, nonneg := ?_, sampled := ?_, covered := ?_ }
  · rintro _ ⟨⟩ entry hentry
    rw [recorded] at hentry
    rcases List.mem_append.mp hentry with h | h
    · exact hnonneg entry h
    · exact hextra entry h
  · rintro _ ⟨⟩
    exact wrote.sampled
  · rintro _ ⟨⟩
    rw [recorded, charges_append]
    exact (hcovers.extra (charges_nonneg hextra)).later (by linarith)

theorem Accounted.progress {history : List Record} {ledger left : Option Ledger} {start clock : Clock}
    {firstUse : Bool} {airtime : Airtime} {observed : Observed}
    (accounted : Accounted account base history ledger start)
    (progress : Progress account (Assumptions.steady base) firstUse airtime.value ledger start left
      clock observed) : Accounted account base history left clock := by
  cases progress with
  | untouched moved => exact accounted.pass moved
  | written began view wrote _ _ _ recorded =>
      rcases recorded with hentries | ⟨hentries, _⟩
      · exact accounted.rewritten began view wrote (by rw [hentries, List.append_nil])
          fun _ h => absurd h List.not_mem_nil
      · refine accounted.rewritten began view wrote hentries ?_
        intro entry hentry
        rw [List.mem_singleton.mp hentry]
        exact airtime.positive

/-- A grant was admitted against at least what had been granted. -/
theorem Accounted.admits {history : List Record} {ledger : Option Ledger} {start now last : Clock}
    {firstUse : Bool} {compared : Option Sample} {entries : List Entry} {airtime : Decimal}
    (accounted : Accounted account base history ledger start)
    (began : (Assumptions.steady base).advance start now)
    (view : View account (Assumptions.steady base) firstUse ledger now last compared entries)
    (admitted : Admits account entries now.wall.value airtime) :
    AdmittedAfter account (grants history) ⟨now.wall.value, airtime⟩ := by
  obtain ⟨hcovers, _⟩ := accounted.view began view
  obtain ⟨hshort, hlong⟩ := (refusal_none_iff account entries now.wall.value airtime).mp admitted
  have horder : account.shortWindow.val ≤ account.longWindow.val := account.ordered
  have hshortSince := hcovers (now.wall.value.val - account.shortWindow.val) (by linarith)
  have hlongSince := hcovers _ le_rfl
  refine ⟨?_, by linarith⟩
  rcases hshort with hempty | hwithin
  · exact Or.inl (hshortSince.trans hempty)
  · exact Or.inr (by linarith)

theorem Accounted.granted {history : List Record} {ledger : Option Ledger}
    {start now last clock : Clock} {firstUse : Bool} {compared : Option Sample}
    {entries : List Entry} {content : Ledger} {record : Record}
    (accounted : Accounted account base history ledger start)
    (began : (Assumptions.steady base).advance start now)
    (view : View account (Assumptions.steady base) firstUse ledger now last compared entries)
    (wrote : Written (Assumptions.steady base) last content clock)
    (recorded : content.entries = entries ++ [⟨now.wall.value, record.airtime.value⟩])
    (admitted : Admits account entries now.wall.value record.airtime.value)
    (grant : record.grant? = some ⟨now.wall.value, record.airtime.value⟩) :
    Accounted account base (history ++ [record]) (some content) clock := by
  have hadmitted := accounted.admits began view admitted
  have hrewritten := accounted.rewritten began view wrote recorded (by
    intro entry hentry
    rw [List.mem_singleton.mp hentry]
    exact record.airtime.positive)
  obtain ⟨hcovers, _⟩ := accounted.view began view
  obtain ⟨found, hfound, _⟩ := view
  have moved := (Assumptions.steady base).trans hfound.advance wrote.advance
  have hmoved : now.wall.value.val ≤ clock.wall.value.val := moved.1
  have hgrants : grants (history ++ [record]) =
      grants history ++ [⟨now.wall.value, record.airtime.value⟩] := by
    rw [grants_append, grant]
    rfl
  constructor
  · rw [hgrants]
    refine List.pairwise_append.mpr ⟨accounted.ordered, List.pairwise_singleton _ _, ?_⟩
    intro first hfirst second hsecond
    rw [List.mem_singleton.mp hsecond]
    exact (accounted.past first hfirst).trans began.1
  · rw [hgrants]
    intro entry hentry
    rcases List.mem_append.mp hentry with h | h
    · exact hrewritten.past entry h
    · rw [List.mem_singleton.mp h]
      exact hmoved
  · rw [hgrants]
    intro entry hentry
    rcases List.mem_append.mp hentry with h | h
    · exact accounted.positive entry h
    · rw [List.mem_singleton.mp h]
      exact record.airtime.positive
  · rw [hgrants]
    intro before found behind hsplit
    rcases List.append_eq_append_iff.mp hsplit with ⟨tail, hbefore, htail⟩ | ⟨tail, hbefore, htail⟩
    · -- the new grant itself
      cases tail with
      | nil =>
          rw [List.nil_append] at htail
          obtain ⟨rfl, _⟩ := List.cons.inj htail
          rw [hbefore, List.append_nil]
          exact hadmitted
      | cons first rest => simp at htail
    · -- an earlier grant
      cases tail with
      | nil =>
          rw [List.nil_append] at htail
          obtain ⟨rfl, _⟩ := List.cons.inj htail
          rw [List.append_nil] at hbefore
          rw [← hbefore]
          exact hadmitted
      | cons first rest =>
          rw [List.cons_append] at htail
          obtain ⟨rfl, _⟩ := List.cons.inj htail
          exact accounted.admitted before found rest hbefore
  · exact nofun
  · exact hrewritten.nonneg
  · exact hrewritten.sampled
  · rintro _ ⟨⟩
    rw [hgrants, recorded, charges_append, charges_append]
    exact (hcovers.append _).later (by linarith)

/-- A record without a grant leaves the grants as they were. -/
theorem Accounted.nothing {history : List Record} {ledger : Option Ledger} {clock : Clock}
    {record : Record} (accounted : Accounted account base history ledger clock)
    (grant : record.grant? = none) : Accounted account base (history ++ [record]) ledger clock := by
  have hgrants : grants (history ++ [record]) = grants history := by
    rw [grants_append, grant]
    exact List.append_nil _
  exact ⟨hgrants ▸ accounted.ordered, hgrants ▸ accounted.past, hgrants ▸ accounted.positive,
    hgrants ▸ accounted.admitted, hgrants ▸ accounted.missing, accounted.nonneg,
    accounted.sampled, hgrants ▸ accounted.covered⟩

/-- One call of the chain keeps the invariant. -/
theorem Accounted.call {history : List Record} {ledger left : Option Ledger} {start clock : Clock}
    {record : Record} (accounted : Accounted account base history ledger start)
    (did : record.Did account (Assumptions.steady base) ledger start left clock) :
    Accounted account base (history ++ [record]) left clock := by
  obtain ⟨airtime, firstUse, observed, outcome⟩ := record
  unfold Record.Did at did
  cases outcome with
  | killed => exact (accounted.progress did).nothing rfl
  | notReleased => exact (accounted.progress did).nothing rfl
  | ended result =>
      dsimp only at did
      cases did with
      | granted began view wrote noted _ _ recorded admitted =>
          exact accounted.granted began view wrote recorded admitted (by
            rw [Record.grant?]
            simp only [noted])
      | refused began view moved noted compare kept decided =>
          exact (accounted.progress
            (Ended.refused began view moved noted compare kept decided).progress).nothing rfl
      | failed progress => exact (accounted.progress progress).nothing rfl

theorem steady_permits : (Assumptions.steady 0).Permits (clockAt 100 100) [] := by
  refine ⟨⟨?_, ?_⟩, trivial⟩ <;> simp [Sample.offset, clockAt, clockSkewS_nonneg]

end LorahamRns.Duty
