import LorahamRns.Duty.Limits

/-!
# A ledger from before

A boot finds a ledger that an earlier write has left, with its clock evidence.  While
wall and monotonic clock advance by equal amounts, only the call that first puts a
ledger of this boot on disk can move stamps; from then on the ledger keeps what is
young enough and takes the new grants, and nothing else.
-/

namespace LorahamRns.Duty

open LorahamRns.Lib

/-- Wall and monotonic clock advance by equal amounts; two readings made back to back
are no more than half of `CLOCK_SKEW_S` apart; reads and writes succeed. -/
def Assumptions.level (offset : Decimal) (boot : Option (List Char)) : Assumptions where
  advance first second :=
    first.monotonic.value ≤ second.monotonic.value ∧ second.offset = first.offset
  refl _ := ⟨le_rfl, rfl⟩
  trans first second := ⟨first.1.trans second.1, second.2.trans first.2⟩
  sample sample := 2 * |sample.offset - offset| ≤ clockSkewS
  boot reply := reply = boot
  readFails := False
  writeFails _ := False

/-- What an earlier write can have left: no stamp later than its wall time, and evidence
of an earlier boot, or of this one with a monotonic time that is past. -/
structure Left (boot : Option (List Char)) (content : Ledger) (start : Clock) : Prop where
  credible : ∀ entry ∈ content.entries, entry.Credible
  past : ∀ entry ∈ content.entries, entry.time ≤ content.wall.value
  recorded : content.boot ≠ bootText boot ∨ content.monotonic.value ≤ start.monotonic.value

variable {account : DutyAccount} {offset : Decimal} {boot : Option (List Char)}

/-- Elapsed time is the same on both clocks. -/
theorem level_wall {first second : Clock}
    (moved : (Assumptions.level offset boot).advance first second) :
    first.wall.value ≤ second.wall.value := by
  obtain ⟨hmono, hoffset⟩ := moved
  unfold Clock.offset at hoffset
  linarith

/-- Two samples of level clocks show no step. -/
theorem level_step {first second : Sample} (hfirst : (Assumptions.level offset boot).sample first)
    (hsecond : (Assumptions.level offset boot).sample second) :
    |first.offset - second.offset| ≤ clockSkewS := by
  have htriangle := abs_sub_le first.offset offset second.offset
  rw [abs_sub_comm offset second.offset] at htriangle
  have hfirst : 2 * |first.offset - offset| ≤ clockSkewS := hfirst
  have hsecond : 2 * |second.offset - offset| ≤ clockSkewS := hsecond
  linarith

/-! ## A ledger of this boot -/

/-- The entries after a time. -/
def young (cut : Decimal) (entries : List Entry) : List Entry :=
  entries.filter fun entry => decide (cut < entry.time)

theorem young_young {first second : Decimal} (h : first ≤ second) (entries : List Entry) :
    young second (young first entries) = young second entries := by
  unfold young
  rw [List.filter_filter]
  refine List.filter_congr ?_
  intro entry _
  rw [← Bool.decide_and, decide_eq_decide]
  exact ⟨fun h => h.1, fun hlate => ⟨hlate, lt_of_le_of_lt h hlate⟩⟩

theorem young_append (cut : Decimal) (left right : List Entry) :
    young cut (left ++ right) = young cut left ++ young cut right := List.filter_append ..

theorem young_all {cut : Decimal} {entries : List Entry} (h : ∀ entry ∈ entries, entry.time ≤ cut) :
    young cut entries = [] :=
  List.filter_eq_nil_iff.mpr fun entry hentry late =>
    absurd (of_decide_eq_true late) (not_lt.mpr (h entry hentry))

/-- A ledger of this boot: what is young enough of `base` and of the grants since. -/
structure Since (account : DutyAccount) (offset : Decimal) (boot : Option (List Char))
    (base granted : List Entry) (content : Ledger) (clock : Clock) : Prop where
  sameBoot : content.boot = bootText boot
  sampled : (Assumptions.level offset boot).sample content.sample
  credible : ∀ entry ∈ content.entries, entry.Credible
  entries : ∃ cut, cut ≤ clock.wall.value - account.longWindow ∧
    content.entries = young cut (base ++ granted)

theorem Since.pass {base granted : List Entry} {content : Ledger} {start clock : Clock}
    (since : Since account offset boot base granted content start)
    (moved : (Assumptions.level offset boot).advance start clock) :
    Since account offset boot base granted content clock := by
  have hwall := level_wall moved
  obtain ⟨cut, hcut, hentries⟩ := since.entries
  exact ⟨since.sameBoot, since.sampled, since.credible, cut,
    hcut.trans (sub_le_sub_right hwall _), hentries⟩

/-- A ledger of this boot is read as it is. -/
theorem Rebased.level {content : Ledger} {start last : Clock} {compared : Option Sample}
    {entries : List Entry}
    (rebased : Rebased (Assumptions.level offset boot) content start last compared entries)
    (hboot : content.boot = bootText boot)
    (sampled : (Assumptions.level offset boot).sample content.sample) : entries = content.entries := by
  cases rebased with
  | empty nothing => exact nothing.symm
  | sameBoot before behind hsample => exact if_pos (level_step hsample sampled)
  | otherBoot before other =>
      obtain ⟨reply, hreply, hother⟩ := other
      rw [show reply = boot from hreply, hboot] at hother
      exact absurd rfl hother

theorem Since.found {base granted : List Entry} {content : Ledger} {start now last : Clock}
    {firstUse : Bool} {compared : Option Sample} {entries : List Entry}
    (since : Since account offset boot base granted content start)
    (found : Found (Assumptions.level offset boot) firstUse (some content) now last compared entries) :
    entries = content.entries := by
  cases found with
  | fresh missing => cases missing
  | present present _ _ _ rebased =>
      obtain rfl := Option.some.inj present
      exact rebased.level since.sameBoot since.sampled

/-- What a call decides on: the young entries and grants. -/
theorem Since.view {base granted : List Entry} {content : Ledger} {start now last : Clock}
    {firstUse : Bool} {compared : Option Sample} {entries : List Entry}
    (since : Since account offset boot base granted content start)
    (began : (Assumptions.level offset boot).advance start now)
    (view : View account (Assumptions.level offset boot) firstUse (some content) now last compared
      entries) : entries = young (now.wall.value - account.longWindow) (base ++ granted) := by
  obtain ⟨found, hfound, rfl⟩ := view
  obtain ⟨cut, hcut, hentries⟩ := (since.pass began).entries
  rw [since.found hfound, hentries]
  exact young_young hcut _

/-- A rewritten ledger holds what the call decided on. -/
theorem Since.rewritten {base granted : List Entry} {content : Ledger} {now last clock : Clock}
    (credible : ∀ entry ∈ content.entries, entry.Credible)
    (moved : (Assumptions.level offset boot).advance now last)
    (wrote : Written (Assumptions.level offset boot) last content clock)
    (recorded : content.entries = young (now.wall.value - account.longWindow) (base ++ granted)) :
    Since account offset boot base granted content clock := by
  obtain ⟨reply, hreply, hboot⟩ := wrote.boot
  have hwall := level_wall ((Assumptions.level offset boot).trans moved wrote.advance)
  refine ⟨?_, wrote.sampled, credible, _, sub_le_sub_right hwall _, recorded⟩
  rw [hboot, show reply = boot from hreply]

/-- The entries of a call whose own reservation is appended. -/
theorem young_own {now : Clock} {airtime : Decimal} (entries : List Entry) :
    young (now.wall.value - account.longWindow) entries ++ [⟨now.wall.value, airtime⟩] =
      young (now.wall.value - account.longWindow) (entries ++ [⟨now.wall.value, airtime⟩]) := by
  have hyoung : now.wall.value - account.longWindow < now.wall.value :=
    sub_lt_self _ account.longPositive
  rw [young_append]
  congr 1
  exact (List.filter_eq_self.mpr fun entry hentry => by
    rw [List.mem_singleton.mp hentry]
    exact decide_eq_true hyoung).symm

/-- What a call without a grant leaves unread or refused. -/
theorem grant?_refused {record : Record} {reason : Reason}
    (outcome : record.outcome = .ended (.ok (.refused reason))) : record.grant? = none := by
  rw [Record.grant?, outcome]

theorem grant?_failed {record : Record} {failure : Failure}
    (outcome : record.outcome = .ended (.error failure)) : record.grant? = none := by
  rw [Record.grant?, outcome]

theorem grant?_granted {record : Record} {now : Clock} (outcome : record.outcome = .ended (.ok .granted))
    (noted : record.observed.now = some now) :
    record.grant? = some ⟨now.wall.value, record.airtime.value⟩ := by
  rw [Record.grant?, outcome, noted]

/-- The stamp of a reservation passes the reader's checks. -/
theorem own_credible (now : Clock) (airtime : Airtime) :
    Entry.Credible ⟨now.wall.value, airtime.value⟩ :=
  ⟨now.wall.inRange, airtime.inRange, airtime.positive⟩

/-- One call on a ledger of this boot. -/
theorem Since.call {base granted : List Entry} {content : Ledger} {left : Option Ledger}
    {start clock : Clock} {record : Record} {result : Except Failure Verdict}
    (since : Since account offset boot base granted content start)
    (outcome : record.outcome = .ended result)
    (ended : Ended account (Assumptions.level offset boot) record.firstUse record.airtime.value
      (some content) start result left clock record.observed) :
    ∃ after, left = some after ∧
      Since account offset boot base (granted ++ record.grant?.toList) after clock := by
  cases ended with
  | @granted now last _ compared entries after _ began view wrote noted _ _ recorded admitted =>
      have hview := since.view began view
      obtain ⟨found, hfound, hpruned⟩ := view
      refine ⟨after, rfl, ?_⟩
      rw [grant?_granted outcome noted]
      refine Since.rewritten ?_ hfound.advance wrote ?_
      · intro entry hentry
        rw [recorded] at hentry
        rcases List.mem_append.mp hentry with h | h
        · rw [hpruned, since.found hfound] at h
          exact since.credible entry (List.mem_filter.mp h).1
        · rw [List.mem_singleton.mp h]
          exact own_credible now record.airtime
      · rw [recorded, hview, young_own, List.append_assoc]
        rfl
  | @refused now last _ compared entries _ _ reason began view moved noted _ kept decided =>
      have hview := since.view began view
      obtain ⟨found, hfound, hpruned⟩ := view
      rw [grant?_refused outcome, Option.toList_none, List.append_nil]
      rcases kept with ⟨_, rfl, _⟩ | ⟨after, rfl, hentries, wrote, _⟩
      · exact ⟨content, rfl, ((since.pass began).pass hfound.advance).pass moved⟩
      · refine ⟨after, rfl, Since.rewritten ?_ hfound.advance wrote (hentries.trans hview)⟩
        intro entry hentry
        rw [hentries, hpruned, since.found hfound] at hentry
        exact since.credible entry (List.mem_filter.mp hentry).1
  | failed progress cause =>
      rw [grant?_failed outcome, Option.toList_none, List.append_nil]
      rcases cause with ⟨_, rfl, hquiet⟩ | ⟨_, _, hwrite⟩
      · cases progress with
        | untouched moved => exact ⟨content, rfl, since.pass moved⟩
        | written _ _ _ _ _ persisted =>
            rw [hquiet] at persisted
            cases persisted
      · exact hwrite.elim

/-- A grant is stamped no later than the call's end. -/
theorem grant?_past {ledger left : Option Ledger} {start clock : Clock} {record : Record}
    {result : Except Failure Verdict} (outcome : record.outcome = .ended result)
    (ended : Ended account (Assumptions.level offset boot) record.firstUse record.airtime.value
      ledger start result left clock record.observed) :
    ∀ entry ∈ record.grant?.toList, entry.time ≤ clock.wall.value := by
  cases ended with
  | granted began view wrote noted =>
      obtain ⟨found, hfound, _⟩ := view
      rw [grant?_granted outcome noted]
      intro entry hentry
      rw [List.mem_singleton.mp hentry]
      exact level_wall ((Assumptions.level offset boot).trans hfound.advance wrote.advance)
  | refused =>
      rw [grant?_refused outcome]
      exact nofun
  | failed =>
      rw [grant?_failed outcome]
      exact nofun

/-- A ledger of this boot whose stamps are all of the past. -/
structure Settled (account : DutyAccount) (offset : Decimal) (boot : Option (List Char))
    (base granted : List Entry) (content : Ledger) (clock : Clock) : Prop
    extends Since account offset boot base granted content clock where
  past : ∀ entry ∈ base ++ granted, entry.time ≤ clock.wall.value

theorem Settled.pass {base granted : List Entry} {content : Ledger} {start clock : Clock}
    (settled : Settled account offset boot base granted content start)
    (moved : (Assumptions.level offset boot).advance start clock) :
    Settled account offset boot base granted content clock :=
  ⟨settled.toSince.pass moved, fun entry hentry =>
    (settled.past entry hentry).trans (level_wall moved)⟩

theorem Settled.call {base granted : List Entry} {content : Ledger} {left : Option Ledger}
    {start clock : Clock} {record : Record} {result : Except Failure Verdict}
    (settled : Settled account offset boot base granted content start)
    (outcome : record.outcome = .ended result)
    (ended : Ended account (Assumptions.level offset boot) record.firstUse record.airtime.value
      (some content) start result left clock record.observed) :
    ∃ after, left = some after ∧
      Settled account offset boot base (granted ++ record.grant?.toList) after clock := by
  have hgrant := grant?_past outcome ended
  have hclock := level_wall ended.progress.advance
  obtain ⟨after, rfl, since⟩ := settled.toSince.call outcome ended
  refine ⟨after, rfl, since, fun entry hentry => ?_⟩
  rw [← List.append_assoc] at hentry
  rcases List.mem_append.mp hentry with h | h
  · exact (settled.past entry h).trans hclock
  · exact hgrant entry h

/-! ## The ledger a boot finds -/

theorem Left.pass {content : Ledger} {start clock : Clock} (left : Left boot content start)
    (moved : (Assumptions.level offset boot).advance start clock) : Left boot content clock :=
  ⟨left.credible, left.past, left.recorded.imp_right fun past => past.trans moved.1⟩

/-- Reading it keeps all its stamps or moves all of them, none beyond the present. -/
theorem Left.rebased {content : Ledger} {start last : Clock} {compared : Option Sample}
    {entries : List Entry} (left : Left boot content start)
    (rebased : Rebased (Assumptions.level offset boot) content start last compared entries) :
    entries = content.entries ∨ ∀ entry ∈ entries, entry.time ≤ last.wall.value ∧
      |entry.airtime.val| < floatLimit ∧ 0 < entry.airtime := by
  have shifted {step : Decimal} (present : content.wall.value + step ≤ last.wall.value) :
      ∀ entry ∈ content.entries.map (Entry.shift step), entry.time ≤ last.wall.value ∧
        |entry.airtime.val| < floatLimit ∧ 0 < entry.airtime := by
    intro entry hentry
    obtain ⟨original, horiginal, rfl⟩ := List.mem_map.mp hentry
    have credible := left.credible original horiginal
    refine ⟨?_, credible.airtime, credible.positive⟩
    calc original.time + step ≤ content.wall.value + step := by
          linarith [left.past original horiginal]
      _ ≤ last.wall.value := present
  cases rebased with
  | empty nothing => exact Or.inl nothing.symm
  | @sameBoot first second before behind sampled same =>
      split
      · exact Or.inl rfl
      · refine Or.inr (shifted ?_)
        obtain ⟨reply, hreply, hsame⟩ := same
        rw [show reply = boot from hreply] at hsame
        have hmono : content.monotonic.value ≤ last.monotonic.value :=
          (left.recorded.resolve_left fun other => other hsame.symm).trans
            (before.1.trans behind.1)
        have hwall : first.wall.value ≤ last.wall.value := level_wall behind
        simp only [Sample.offset, Ledger.sample]
        linarith
  | otherBoot before other =>
      split
      · refine Or.inr (shifted ?_)
        linarith
      · exact Or.inl rfl

/-- What a call decides on. -/
theorem Left.view {content : Ledger} {start now last : Clock} {firstUse : Bool}
    {compared : Option Sample} {entries : List Entry} (left : Left boot content start)
    (began : (Assumptions.level offset boot).advance start now)
    (view : View account (Assumptions.level offset boot) firstUse (some content) now last compared
      entries) :
    (∀ entry ∈ entries, entry.Credible) ∧ ∃ base later,
      entries = young (now.wall.value - account.longWindow) base ∧
        (Assumptions.level offset boot).advance now later ∧
        Rebased (Assumptions.level offset boot) content later last compared base := by
  obtain ⟨found, hfound, rfl⟩ := view
  cases hfound with
  | fresh missing => cases missing
  | @present _ later _ _ _ present _ _ moved rebased =>
      obtain rfl := Option.some.inj present
      refine ⟨?_, found, later, rfl, moved, rebased⟩
      intro entry hentry
      obtain ⟨hentry, hyoung⟩ := List.mem_filter.mp hentry
      rcases (((left.pass began).pass moved).rebased rebased) with rfl | past
      · exact left.credible entry hentry
      · obtain ⟨hpast, hairtime, hpositive⟩ := past entry hentry
        refine ⟨abs_lt.mpr ⟨?_, ?_⟩, hairtime, hpositive⟩
        · have hyoung : now.wall.value.val - account.longWindow.val < entry.time.val :=
            of_decide_eq_true hyoung
          have hnow : (0 : ℚ) ≤ now.wall.value.val := now.wall.nonneg
          linarith [account.longInRange]
        · have hlast : entry.time.val ≤ last.wall.value.val := hpast
          exact lt_of_le_of_lt hlast (abs_lt.mp last.wall.inRange).2

/-- The first write of this boot. -/
theorem Since.first {content after : Ledger} {start now last clock : Clock} {firstUse : Bool}
    {compared : Option Sample} {entries granted : List Entry} (left : Left boot content start)
    (began : (Assumptions.level offset boot).advance start now)
    (view : View account (Assumptions.level offset boot) firstUse (some content) now last compared
      entries)
    (wrote : Written (Assumptions.level offset boot) last after clock)
    (own : ∀ entry ∈ granted, entry.Credible ∧ entry.time = now.wall.value)
    (recorded : after.entries = entries ++ granted) :
    ∃ base later, (Assumptions.level offset boot).advance now later ∧
      Rebased (Assumptions.level offset boot) content later last compared base ∧
      Since account offset boot base granted after clock := by
  obtain ⟨credible, base, later, hentries, moved, rebased⟩ := left.view began view
  have kept : young (now.wall.value - account.longWindow) granted = granted := by
    refine List.filter_eq_self.mpr fun entry hentry => decide_eq_true ?_
    rw [(own entry hentry).2]
    exact sub_lt_self _ account.longPositive
  have hlast := (Assumptions.level offset boot).trans moved rebased.advance
  refine ⟨base, later, moved, rebased, Since.rewritten ?_ hlast wrote ?_⟩
  · intro entry hentry
    rw [recorded] at hentry
    exact (List.mem_append.mp hentry).elim (credible entry) fun h => (own entry h).1
  · rw [recorded, hentries, young_append, kept]

/-- What has become of the ledger a boot found, with the grants since. -/
inductive Fate (account : DutyAccount) (offset : Decimal) (boot : Option (List Char))
    (content : Ledger) (granted : List Entry) : Option Ledger → Clock → Prop where
  | untouched {clock : Clock} (left : Left boot content clock) (nothing : granted = []) :
      Fate account offset boot content granted (some content) clock
  | kept {current : Ledger} {clock : Clock}
      (since : Since account offset boot content.entries granted current clock) :
      Fate account offset boot content granted (some current) clock
  | moved {base : List Entry} {current : Ledger} {clock : Clock}
      (settled : Settled account offset boot base granted current clock) :
      Fate account offset boot content granted (some current) clock

theorem Fate.pass {content : Ledger} {granted : List Entry} {ledger : Option Ledger}
    {start clock : Clock} (fate : Fate account offset boot content granted ledger start)
    (moved : (Assumptions.level offset boot).advance start clock) :
    Fate account offset boot content granted ledger clock := by
  cases fate with
  | untouched left nothing => exact .untouched (left.pass moved) nothing
  | kept since => exact .kept (since.pass moved)
  | moved settled => exact .moved (settled.pass moved)

theorem Fate.first {content after : Ledger} {start now last clock : Clock} {firstUse : Bool}
    {compared : Option Sample} {entries granted : List Entry} (left : Left boot content start)
    (began : (Assumptions.level offset boot).advance start now)
    (view : View account (Assumptions.level offset boot) firstUse (some content) now last compared
      entries)
    (wrote : Written (Assumptions.level offset boot) last after clock)
    (own : ∀ entry ∈ granted, entry.Credible ∧ entry.time = now.wall.value)
    (recorded : after.entries = entries ++ granted) :
    Fate account offset boot content granted (some after) clock := by
  obtain ⟨base, later, moved, rebased, since⟩ := Since.first left began view wrote own recorded
  rcases ((left.pass began).pass moved).rebased rebased with rfl | past
  · exact .kept since
  · refine .moved ⟨since, fun entry hentry => ?_⟩
    have hclock : last.wall.value ≤ clock.wall.value := level_wall wrote.advance
    rcases List.mem_append.mp hentry with h | h
    · exact (past entry h).1.trans hclock
    · rw [(own entry h).2]
      exact (level_wall ((Assumptions.level offset boot).trans moved rebased.advance)).trans hclock

/-- One call. -/
theorem Fate.call {content : Ledger} {granted : List Entry} {ledger left : Option Ledger}
    {start clock : Clock} {record : Record} {result : Except Failure Verdict}
    (fate : Fate account offset boot content granted ledger start)
    (outcome : record.outcome = .ended result)
    (ended : Ended account (Assumptions.level offset boot) record.firstUse record.airtime.value
      ledger start result left clock record.observed) :
    Fate account offset boot content (granted ++ record.grant?.toList) left clock := by
  cases fate with
  | kept since =>
      obtain ⟨after, rfl, since⟩ := since.call outcome ended
      exact .kept since
  | moved settled =>
      obtain ⟨after, rfl, settled⟩ := settled.call outcome ended
      exact .moved settled
  | untouched left nothing =>
      subst nothing
      rw [List.nil_append]
      cases ended with
      | granted began view wrote noted _ _ recorded =>
          rw [grant?_granted outcome noted]
          refine Fate.first left began view wrote ?_ recorded
          intro entry hentry
          rw [List.mem_singleton.mp hentry]
          exact ⟨own_credible _ record.airtime, rfl⟩
      | refused began view moved _ _ kept =>
          rw [grant?_refused outcome, Option.toList_none]
          obtain ⟨found, hfound, hpruned⟩ := view
          rcases kept with ⟨_, rfl, _⟩ | ⟨after, rfl, hentries, wrote, _⟩
          · exact .untouched (((left.pass began).pass hfound.advance).pass moved) rfl
          · refine Fate.first left began ⟨found, hfound, hpruned⟩ wrote nofun ?_
            rw [hentries, List.append_nil]
      | failed progress cause =>
          rw [grant?_failed outcome, Option.toList_none]
          rcases cause with ⟨_, rfl, hquiet⟩ | ⟨_, _, hwrite⟩
          · cases progress with
            | untouched moved => exact .untouched (left.pass moved) rfl
            | written _ _ _ _ _ persisted =>
                rw [hquiet] at persisted
                cases persisted
          · exact hwrite.elim

end LorahamRns.Duty
