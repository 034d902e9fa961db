import LorahamRns.Duty.Earlier

/-!
# Held back after a reboot

The step by which an earlier boot's stamps move forward ends at the read of the first
call that puts it on disk, not at the boot.  From then on they age, and once all of
them have left the long window a reservation counts nothing but grants of its own
boot.
-/

namespace LorahamRns.Duty

open LorahamRns.Lib

variable {account : DutyAccount} {offset : Decimal} {boot : Option (List Char)}

/-- The sample of the first write of a history. -/
def firstWrite (history : List Record) : Option Sample :=
  (history.filterMap fun record => record.observed.persisted).head?

theorem firstWrite_append (history : List Record) (record : Record) :
    firstWrite (history ++ [record]) = (firstWrite history).or record.observed.persisted := by
  rw [firstWrite, firstWrite, List.filterMap_append, List.head?_append]
  cases hpersisted : record.observed.persisted <;> simp [hpersisted]

/-- The time by which stamps move forward that a write of this boot finds. -/
def carried (content : Ledger) (first : Sample) : Decimal :=
  if clockSkewS < first.wall.value - content.wall.value then first.wall.value - content.wall.value
  else 0

/-- The stamps of the ledger the boot found, carried to its first write, have left the long
window. -/
def Aged (account : DutyAccount) (content : Ledger) (before : List Record) (now : Clock) : Prop :=
  ∀ entry ∈ content.entries, ∃ first, firstWrite before = some first ∧
    entry.time + carried content first ≤ now.wall.value - account.longWindow

/-- What `reserve` answers when it counts these entries. -/
def decision (account : DutyAccount) (entries : List Entry) (now airtime : Decimal) : Verdict :=
  match refusal account entries now airtime with
  | some reason => .refused reason
  | none => .granted

/-- The reservation counted these entries and no others. -/
def Record.Counts (account : DutyAccount) (counted : List Entry) (record : Record) : Prop :=
  ∀ now verdict, record.observed.now = some now → record.outcome = .ended (.ok verdict) →
    verdict = decision account counted now.wall.value record.airtime.value

/-! ## What counts -/

/-- Reading the ledger of an earlier boot keeps its stamps or carries all of them to now. -/
theorem Rebased.carries {content : Ledger} {start last : Clock} {compared : Option Sample}
    {entries : List Entry}
    (rebased : Rebased (Assumptions.level offset boot) content start last compared entries)
    (earlier : content.boot ≠ bootText boot) :
    entries = content.entries ∨ ∃ step, clockSkewS < step ∧
      step ≤ last.wall.value - content.wall.value ∧
        entries = content.entries.map (Entry.shift step) := by
  cases rebased with
  | empty nothing => exact Or.inl nothing.symm
  | sameBoot before behind sampled same =>
      obtain ⟨reply, hreply, hsame⟩ := same
      rw [show reply = boot from hreply] at hsame
      exact absurd hsame.symm earlier
  | otherBoot before other =>
      split
      · next large => exact Or.inr ⟨_, large, le_rfl, rfl⟩
      · exact Or.inl rfl

/-- The ledger a boot found, before its first write and from there on. -/
inductive Onset (account : DutyAccount) (offset : Decimal) (boot : Option (List Char))
    (content : Ledger) (history : List Record) : Option Ledger → Clock → Prop where
  | untouched {clock : Clock} (left : Left boot content clock) (nothing : grants history = [])
      (unwritten : firstWrite history = none) :
      Onset account offset boot content history (some content) clock
  | written {base : List Entry} {current : Ledger} {clock : Clock} {first : Sample}
      (wrote : firstWrite history = some first)
      (since : Since account offset boot base (grants history) current clock)
      (carries : ∀ entry ∈ base, ∃ original ∈ content.entries,
        entry.time ≤ original.time + carried content first) :
      Onset account offset boot content history (some current) clock

theorem Onset.pass {content : Ledger} {history : List Record} {ledger : Option Ledger}
    {start clock : Clock} (onset : Onset account offset boot content history ledger start)
    (moved : (Assumptions.level offset boot).advance start clock) :
    Onset account offset boot content history ledger clock := by
  cases onset with
  | untouched left nothing unwritten => exact .untouched (left.pass moved) nothing unwritten
  | written wrote since carries => exact .written wrote (since.pass moved) carries

theorem carried_nonneg (content : Ledger) (first : Sample) : 0 ≤ carried content first := by
  unfold carried
  split
  · next large => exact clockSkewS_nonneg.trans large.le
  · exact le_rfl

/-- The first call that writes carries no stamp further than to its write. -/
theorem Onset.first {content after : Ledger} {history : List Record} {record : Record}
    {start now last clock : Clock} {firstUse : Bool} {compared : Option Sample}
    {entries : List Entry} (earlier : content.boot ≠ bootText boot)
    (left : Left boot content start) (nothing : grants history = [])
    (unwritten : firstWrite history = none)
    (began : (Assumptions.level offset boot).advance start now)
    (view : View account (Assumptions.level offset boot) firstUse (some content) now last compared
      entries)
    (wrote : Written (Assumptions.level offset boot) last after clock)
    (persisted : record.observed.persisted = some after.sample)
    (own : ∀ entry ∈ record.grant?.toList, entry.Credible ∧ entry.time = now.wall.value)
    (recorded : after.entries = entries ++ record.grant?.toList) :
    Onset account offset boot content (history ++ [record]) (some after) clock := by
  obtain ⟨base, later, moved, rebased, since⟩ := Since.first left began view wrote own recorded
  have hfirst : firstWrite (history ++ [record]) = some after.sample := by
    rw [firstWrite_append, unwritten, persisted]
    rfl
  have hgrants : grants (history ++ [record]) = record.grant?.toList := by
    rw [grants_append, nothing, List.nil_append]
  rw [← hgrants] at since
  refine .written hfirst since fun entry hentry => ?_
  rcases rebased.carries earlier with rfl | ⟨step, large, hstep, rfl⟩
  · exact ⟨entry, hentry, le_add_of_nonneg_right (carried_nonneg ..)⟩
  · obtain ⟨original, horiginal, rfl⟩ := List.mem_map.mp hentry
    obtain ⟨first, second, hlast, hsecond, _, _, hwall⟩ := wrote.clocks
    have hwritten : last.wall.value ≤ after.wall.value := by
      rw [hwall]
      exact level_wall ((Assumptions.level offset boot).trans hlast hsecond)
    have hgap : step ≤ after.sample.wall.value - content.wall.value := by
      change step ≤ after.wall.value - content.wall.value
      linarith
    refine ⟨original, horiginal, add_le_add_right ?_ original.time⟩
    rw [carried, if_pos (lt_of_lt_of_le large hgap)]
    exact hgap

/-- One call. -/
theorem Onset.call {content : Ledger} {history : List Record} {ledger left : Option Ledger}
    {start clock : Clock} {record : Record} {result : Except Failure Verdict}
    (onset : Onset account offset boot content history ledger start)
    (earlier : content.boot ≠ bootText boot) (outcome : record.outcome = .ended result)
    (ended : Ended account (Assumptions.level offset boot) record.firstUse record.airtime.value
      ledger start result left clock record.observed) :
    Onset account offset boot content (history ++ [record]) left clock := by
  cases onset with
  | written wrote since carries =>
      obtain ⟨after, rfl, since⟩ := since.call outcome ended
      rw [← grants_append] at since
      refine .written ?_ since carries
      rw [firstWrite_append, wrote, Option.some_or]
  | untouched left nothing unwritten =>
      have stays (quiet : record.observed.persisted = none) (ungranted : record.grant? = none)
          {later : Clock} (left : Left boot content later) :
          Onset account offset boot content (history ++ [record]) (some content) later := by
        refine .untouched left ?_ ?_
        · rw [grants_append, nothing, ungranted]
          rfl
        · rw [firstWrite_append, unwritten, quiet]
          rfl
      cases ended with
      | granted began view wrote noted _ persisted recorded =>
          refine Onset.first earlier left nothing unwritten began view wrote persisted ?_ ?_
          · rw [grant?_granted outcome noted]
            intro entry hentry
            rw [List.mem_singleton.mp hentry]
            exact ⟨own_credible _ record.airtime, rfl⟩
          · rw [grant?_granted outcome noted]
            exact recorded
      | refused began view moved _ _ kept =>
          have ungranted := grant?_refused outcome
          rcases kept with ⟨_, rfl, quiet⟩ | ⟨after, rfl, hentries, wrote, persisted⟩
          · obtain ⟨found, hfound, _⟩ := view
            exact stays quiet ungranted (((left.pass began).pass hfound.advance).pass moved)
          · refine Onset.first earlier left nothing unwritten began view wrote persisted ?_ ?_
            · rw [ungranted]
              exact nofun
            · rw [ungranted, hentries]
              exact (List.append_nil _).symm
      | failed progress cause =>
          rcases cause with ⟨_, rfl, quiet⟩ | ⟨_, _, hwrite⟩
          · exact stays quiet (grant?_failed outcome) (left.pass progress.advance)
          · exact hwrite.elim

/-- A call that finds all inherited stamps aged sees the grants of its boot alone. -/
theorem Onset.view {content : Ledger} {history : List Record} {ledger : Option Ledger}
    {start now last : Clock} {firstUse : Bool} {compared : Option Sample} {entries : List Entry}
    (onset : Onset account offset boot content history ledger start)
    (earlier : content.boot ≠ bootText boot)
    (began : (Assumptions.level offset boot).advance start now)
    (view : View account (Assumptions.level offset boot) firstUse ledger now last compared entries)
    (aged : Aged account content history now) :
    entries = young (now.wall.value - account.longWindow) (grants history) := by
  cases onset with
  | untouched left nothing unwritten =>
      have empty : content.entries = [] := by
        refine List.eq_nil_iff_forall_not_mem.mpr fun entry hentry => ?_
        obtain ⟨first, hfirst, _⟩ := aged entry hentry
        rw [unwritten] at hfirst
        cases hfirst
      obtain ⟨_, base, later, hentries, _, rebased⟩ := left.view began view
      have hbase : base = [] := by
        rcases rebased.carries earlier with rfl | ⟨_, _, _, rfl⟩
        · exact empty
        · rw [empty, List.map_nil]
      rw [hentries, hbase, nothing]
  | written wrote since carries =>
      rw [since.view began view, young_append, young_all, List.nil_append]
      intro entry hentry
      obtain ⟨original, horiginal, hcarried⟩ := carries entry hentry
      obtain ⟨first, hfirst, hout⟩ := aged original horiginal
      obtain rfl := Option.some.inj (wrote.symm.trans hfirst)
      exact hcarried.trans hout

/-- Every call of a history whose inherited stamps had aged counted the grants before it. -/
def Counted (account : DutyAccount) (content : Ledger) (history : List Record) : Prop :=
  ∀ before record behind, history = before ++ record :: behind → ∀ now,
    record.observed.now = some now → Aged account content before now →
      record.Counts account (grants before)

theorem Counted.append {content : Ledger} {history : List Record} {record : Record}
    (counted : Counted account content history)
    (own : ∀ now, record.observed.now = some now → Aged account content history now →
      record.Counts account (grants history)) : Counted account content (history ++ [record]) := by
  intro before other behind split now noted aged
  rcases List.eq_nil_or_concat behind with rfl | ⟨most, last, rfl⟩
  · obtain ⟨rfl, same⟩ := List.append_inj' split rfl
    obtain rfl := (List.cons.inj same).1
    exact own now noted aged
  · have split : history ++ [record] = (before ++ other :: most) ++ [last] := by
      rw [split, List.concat_eq_append, List.append_assoc, List.cons_append]
    obtain ⟨rfl, _⟩ := List.append_inj' split rfl
    exact counted before other most rfl now noted aged

end LorahamRns.Duty
