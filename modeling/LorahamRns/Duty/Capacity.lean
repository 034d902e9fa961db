import LorahamRns.Lib.JsonLength
import LorahamRns.Duty.Limits

/-!
# Reading back what was written

`_write` puts a ledger of any length on disk, and `_read` takes its first
`1 << 20` bytes.  What a run has built up is read back exactly as it was written
as long as it fits; one byte more and it reads as damaged.
-/

namespace LorahamRns.Duty

open LorahamRns.Lib

/-! ## The size of a ledger -/

/-- The characters of `[time, airtime]`. -/
def Entry.size (entry : Entry) : ℕ :=
  (PyFloat.ofDecimal entry.time).text.length + (PyFloat.ofDecimal entry.airtime).text.length + 4

/-- The characters of the whole document: its frame, the clock evidence and the
entries with `", "` between them. -/
def Ledger.size (ledger : Ledger) : ℕ :=
  96 + (Json.stringText ledger.boot).length + ledger.monotonic.value.text.length +
    ledger.wall.value.text.length +
    ((ledger.entries.map Entry.size).sum + 2 * (ledger.entries.length - 1))

theorem Entry.length_json (entry : Entry) : (Json.dumps entry.json).length = entry.size := by
  rw [Entry.json, Json.length_dumps_arr]
  simp [Json.length_dumps_float, Entry.size]

theorem Ledger.length_text (ledger : Ledger) : ledger.text.length = ledger.size := by
  have hentries : (Json.dumps (.arr (ledger.entries.map Entry.json))).length =
      (ledger.entries.map Entry.size).sum + 2 * (ledger.entries.length - 1) + 2 := by
    rw [Json.length_dumps_arr, List.map_map, List.length_map]
    simp only [Function.comp_def, Entry.length_json]
  have hversion : (Json.stringText "version".toList).length = 9 := rfl
  have hinitialised : (Json.stringText "initialised".toList).length = 13 := rfl
  have hclock : (Json.stringText "clock".toList).length = 7 := rfl
  have hboot : (Json.stringText "boot".toList).length = 6 := rfl
  have hmonotonic : (Json.stringText "monotonic".toList).length = 11 := rfl
  have hwall : (Json.stringText "wall".toList).length = 6 := rfl
  have hkey : (Json.stringText "entries".toList).length = 9 := rfl
  have hone : (Json.dumps (.int 1)).length = 1 := rfl
  have htrue : (Json.dumps (.bool true)).length = 4 := rfl
  simp only [Ledger.text, Ledger.fields, Ledger.clock, Json.length_dumps_obj,
    Json.length_dumpsFields_cons, Json.length_dumpsFields_singleton, Json.length_dumps_str,
    Json.length_dumps_float, PyFloat.text_finite, hentries, hversion, hinitialised, hclock, hboot,
    hmonotonic, hwall, hkey, hone, htrue, Ledger.size]
  omega

/-! ## Reading back -/

/-- Readings in the boot of the ledger, with no clock step since its write, on a system
whose reads work. -/
def Assumptions.unstepped (content : Ledger) : Assumptions where
  advance first second :=
    first.wall.value ≤ second.wall.value ∧ first.monotonic.value ≤ second.monotonic.value
  refl := Clock.onward_refl
  trans := Clock.onward_trans
  sample sample := |sample.offset - content.sample.offset| ≤ clockSkewS
  boot reply := bootText reply = content.boot
  readFails := False
  writeFails _ := True

/-- A call that finds the ledger on disk, at the clock of its write or later, and has
made its first reading. -/
structure Later (content : Ledger) (store : Store) : Prop where
  onDisk : store.ledger = some content.text
  wall : content.wall.value ≤ store.clock.wall.value
  monotonic : content.monotonic.value ≤ store.clock.monotonic.value
  unstepped : |store.clock.offset - content.sample.offset| ≤ clockSkewS
  began : ∃ now, store.observed.now = some now
  compared : store.observed.compared = none

/-- `_read` comes to an end, and whichever way it does it returns the entries of the
ledger in their order. -/
def ReadsBack (content : Ledger) (owner : Instance) (firstUse : Bool) (store : Store) : Prop :=
  (∃ last, Program.Path (environment (.unstepped content)) (read owner firstUse) store
    (.done content.entries) last) ∧
  (read owner firstUse).wp (environment (.unstepped content)) (fun _ => True)
    (fun found _ => found = content.entries) (fun _ _ => False) store

/-- Without a clock step no stamp is moved. -/
theorem Rebased.unstepped {content : Ledger} {start last : Clock} {compared : Option Sample}
    {entries : List Entry}
    (rebased : Rebased (Assumptions.unstepped content) content start last compared entries) :
    entries = content.entries := by
  cases rebased with
  | empty nothing => exact nothing.symm
  | sameBoot before behind sampled => exact if_pos sampled
  | otherBoot before other =>
      obtain ⟨reply, hreply, hother⟩ := other
      exact absurd hreply hother

/-- The next call after an undisturbed one. -/
theorem Rested.later {account : DutyAccount} {assumptions : Assumptions} {world : World}
    {content : Ledger} {clock : Clock}
    (rested : Rested account assumptions world (some content) clock)
    (hclock : clock = ⟨content.wall, content.monotonic⟩) :
    Later content { world.store with observed := { Observed.none with now := some clock } } := by
  have hstore := rested.clock.trans hclock
  refine ⟨rested.onDisk, ?_, ?_, ?_, ⟨_, rfl⟩, rfl⟩
  · exact (congrArg (fun clock : Clock => clock.wall.value) hstore).ge
  · exact (congrArg (fun clock : Clock => clock.monotonic.value) hstore).ge
  · have hoffset : world.store.clock.offset = content.sample.offset := congrArg Clock.offset hstore
    rw [hoffset, sub_self, abs_zero]
    exact clockSkewS_nonneg

/-- A text that fits, with entries that pass the reader's checks, is read back. -/
theorem reads_back {content : Ledger} {owner : Instance} {firstUse : Bool} {store : Store}
    (later : Later content store) (hboot : ∃ text, content.boot = strip text)
    (hshort : content.text.length ≤ readLimit)
    (credible : ∀ entry ∈ content.entries, entry.Credible)
    (past : ∀ entry ∈ content.entries, entry.time ≤ content.wall.value) :
    ReadsBack content owner firstUse store := by
  obtain ⟨now, hnow⟩ := later.began
  have hledger : store.ledger = (some content).map Ledger.text := later.onDisk
  have hwp : (read owner firstUse).wp (environment (.unstepped content)) (fun _ => True)
      (fun found _ => found = content.entries) (fun _ _ => False) store := by
    refine Program.wp_mono (wp_read hledger hnow later.compared fun _ _ _ => trivial) ?_ ?_
    · rintro found last ⟨compared, _, hfound⟩
      generalize last.clock = finish at hfound
      cases hfound with
      | fresh missing => cases missing
      | present present _ _ _ rebased =>
          obtain rfl := Option.some.inj present
          exact rebased.unstepped
    · rintro failure last ⟨cause, _⟩
      unfold ReadCause at cause
      split at cause
      · cases cause.1
      · exact cause
      · exact cause
      · obtain ⟨found, hfound, hlong | ⟨entry, hentry, hbad⟩ | ⟨entry, hentry, clock, hmoved, hfuture⟩⟩ :=
          cause
        · obtain rfl := Option.some.inj hfound
          exact absurd hshort (not_le.mpr hlong)
        · obtain rfl := Option.some.inj hfound
          exact hbad (credible entry hentry)
        · obtain rfl := Option.some.inj hfound
          have hpast := past entry hentry
          have hwall := later.wall
          have hforward : store.clock.wall.value ≤ clock.wall.value := hmoved.1
          linarith [clockSkewS_nonneg]
      · exact cause
  refine ⟨?_, hwp⟩
  obtain ⟨boot, hboot⟩ := hboot
  have hpermits : (Assumptions.unstepped content).Permits store.clock boot :=
    ⟨later.unstepped, hboot.symm⟩
  have hstill := still_permitted hpermits
  have hlive : ∀ effect state, state.clock = store.clock →
      ∃ reply after, environment (.unstepped content) effect state reply after ∧
        after.clock = store.clock := by
    intro effect state hstate
    obtain ⟨reply, after, answered, _⟩ := still_live store.clock boot effect state hstate
    exact ⟨reply, after, hstill effect state reply after hstate answered⟩
  rcases Program.wp_runs hlive hwp rfl with ⟨found, last, path, _, rfl⟩ | ⟨_, _, _, _, hfault⟩
  · exact ⟨last, path⟩
  · exact hfault.elim

/-- A text beyond the limit is refused, whatever it says. -/
theorem not_reads_back {content : Ledger} {owner : Instance} {firstUse : Bool} {store : Store}
    (later : Later content store) (hlong : readLimit < content.text.length) :
    ¬ ReadsBack content owner firstUse store := by
  rintro ⟨_, hwp⟩
  have hanswered : environment (.unstepped content) (.readLedger readLimit) store
      (.content (content.text.take readLimit)) store :=
    ⟨rfl, Or.inr (Or.inl ⟨content.text, later.onDisk, rfl⟩)⟩
  have hrest := Program.wp_step hwp hanswered
  simp only [Program.done_bind, content.not_blank, Bool.false_eq_true, if_false,
    content.header_take_text firstUse readLimit_pos hlong] at hrest
  exact hrest.2

/-! ## What a run puts on disk -/

/-- The evidence names a boot, and every airtime on record is finite and positive. -/
structure Stocked (content : Ledger) : Prop where
  boot : ∃ text, content.boot = strip text
  airtimes : ∀ entry ∈ content.entries, |entry.airtime.val| < floatLimit ∧ 0 < entry.airtime

variable {account : DutyAccount} {assumptions : Assumptions}

/-- A rebase keeps the airtimes. -/
theorem Rebased.airtimes {content : Ledger} {start last : Clock} {compared : Option Sample}
    {entries : List Entry} (rebased : Rebased assumptions content start last compared entries)
    {entry : Entry} (hentry : entry ∈ entries) :
    ∃ original ∈ content.entries, entry.airtime = original.airtime := by
  have hshift : ∀ step, entry ∈ content.entries.map (Entry.shift step) →
      ∃ original ∈ content.entries, entry.airtime = original.airtime := by
    intro step h
    obtain ⟨original, horiginal, rfl⟩ := List.mem_map.mp h
    exact ⟨original, horiginal, rfl⟩
  cases rebased with
  | empty nothing => exact absurd hentry List.not_mem_nil
  | sameBoot before behind sampled =>
      split at hentry
      · exact ⟨entry, hentry, rfl⟩
      · exact hshift _ hentry
  | otherBoot before other =>
      split at hentry
      · exact hshift _ hentry
      · exact ⟨entry, hentry, rfl⟩

theorem View.airtimes {firstUse : Bool} {ledger : Option Ledger} {now last : Clock}
    {compared : Option Sample} {entries : List Entry}
    (view : View account assumptions firstUse ledger now last compared entries)
    {entry : Entry} (hentry : entry ∈ entries) :
    |entry.airtime.val| < floatLimit ∧ 0 < entry.airtime := by
  obtain ⟨found, hfound, rfl⟩ := view
  have hentry := (List.mem_filter.mp hentry).1
  cases hfound with
  | fresh => exact absurd hentry List.not_mem_nil
  | present _ _ credible _ rebased =>
      obtain ⟨original, horiginal, hairtime⟩ := rebased.airtimes hentry
      have hcredible := credible original horiginal
      rw [hairtime]
      exact ⟨hcredible.airtime, hcredible.positive⟩

theorem Progress.stocked {firstUse : Bool} {airtime : Airtime} {ledger left : Option Ledger}
    {start clock : Clock} {observed : Observed}
    (progress : Progress account assumptions firstUse airtime.value ledger start left clock observed)
    (stocked : ∀ content, ledger = some content → Stocked content) :
    ∀ content, left = some content → Stocked content := by
  cases progress with
  | untouched => exact stocked
  | @written now last _ compared entries content _ began view wrote _ _ _ recorded =>
      rintro _ ⟨⟩
      constructor
      · obtain ⟨reply, _, hboot⟩ := wrote.boot
        rw [hboot]
        cases reply with
        | none => exact ⟨[], rfl⟩
        | some text => exact ⟨text, rfl⟩
      · intro entry hentry
        rcases recorded with hentries | ⟨hentries, _⟩
        · exact view.airtimes (hentries ▸ hentry)
        · rw [hentries] at hentry
          rcases List.mem_append.mp hentry with h | h
          · exact view.airtimes h
          · rw [List.mem_singleton.mp h]
            exact ⟨airtime.inRange, airtime.positive⟩

theorem Record.Did.progress {record : Record} {ledger left : Option Ledger} {start clock : Clock}
    (did : record.Did account assumptions ledger start left clock) :
    Progress account assumptions record.firstUse record.airtime.value ledger start left clock
      record.observed := by
  unfold Record.Did at did
  split at did
  · exact did.progress
  · exact did

theorem chain_stocked {history : List Record} {ledger : Option Ledger} {clock : Clock}
    (chain : Chain account assumptions history ledger clock) :
    ∀ content, ledger = some content → Stocked content := by
  induction chain with
  | start => exact nofun
  | pass _ _ ih => exact ih
  | call _ did ih => exact did.progress.stocked ih

/-- Whatever is on disk in a run is the text of a stocked ledger. -/
theorem run_stocked {world : World} {trace : List Label}
    (run : (machine account assumptions).Run world trace) {text : List Char}
    (onDisk : world.store.ledger = some text) :
    ∃ content : Ledger, text = content.text ∧ Stocked content := by
  have hleaves : Leaves (fun ledger _ _ => ∀ content, ledger = some content → Stocked content)
      world.store := by
    have sound := run_sound run
    unfold World.Sound at sound
    split at sound
    · obtain ⟨ledger, hledger, chain⟩ := sound
      exact ⟨ledger, hledger, chain_stocked chain⟩
    · rename_i holder hholder
      obtain ⟨ledger, start, chain, sound⟩ := sound
      obtain ⟨caller, running⟩ := holder
      cases running with
      | reserve airtime firstUse program =>
          obtain ⟨left, hleft, progress⟩ := Program.wp_always sound
          exact ⟨left, hleft, progress.stocked (chain_stocked chain)⟩
      | usage program =>
          obtain ⟨left, hleft, rfl, _⟩ := Program.wp_always sound
          exact ⟨left, hleft, chain_stocked chain⟩
  obtain ⟨ledger, hledger, stocked⟩ := hleaves
  obtain ⟨content, rfl, rfl⟩ := Option.map_eq_some_iff.mp (hledger.symm.trans onDisk)
  exact ⟨content, rfl, stocked content rfl⟩

/-- A float that is written as a finite one is that one. -/
theorem ofDecimal_eq_of_inRange {left right : Decimal} (inRange : |right.val| < floatLimit)
    (h : PyFloat.ofDecimal left = PyFloat.ofDecimal right) : left = right := by
  have hfinite := congrArg PyFloat.finite? h
  rw [PyFloat.finite?_ofDecimal inRange] at hfinite
  by_cases hleft : |left.val| < floatLimit
  · rw [PyFloat.finite?_ofDecimal hleft] at hfinite
    exact Option.some.inj hfinite
  · rw [PyFloat.finite?_ofDecimal_of_not hleft] at hfinite
    cases hfinite

/-- The text says whether a ledger is stocked. -/
theorem Stocked.of_text {first second : Ledger} (stocked : Stocked first)
    (htext : first.text = second.text) : Stocked second := by
  have hheader : (first.entries.map Entry.json, some (Json.obj first.clock)) =
      (second.entries.map Entry.json, some (Json.obj second.clock)) := by
    have h := first.header_text true
    rw [htext, second.header_text true] at h
    exact (Except.ok.inj h).symm
  obtain ⟨hentries, hclock⟩ := Prod.mk.inj hheader
  constructor
  · have hboot : first.boot = second.boot := by
      have h := Json.obj.inj (Option.some.inj hclock)
      unfold Ledger.clock at h
      exact Json.str.inj (Prod.mk.inj (List.cons.inj h).1).2
    rw [← hboot]
    exact stocked.boot
  · intro entry hentry
    have hmem : entry.json ∈ first.entries.map Entry.json :=
      hentries ▸ List.mem_map_of_mem hentry
    obtain ⟨original, horiginal, hjson⟩ := List.mem_map.mp hmem
    obtain ⟨hinRange, hpositive⟩ := stocked.airtimes original horiginal
    have hairtime : entry.airtime = original.airtime := by
      have hitems := Json.arr.inj hjson
      have hfloat := Json.float.inj (List.cons.inj (List.cons.inj hitems).2).1
      exact ofDecimal_eq_of_inRange hinRange hfloat.symm
    rw [hairtime]
    exact ⟨hinRange, hpositive⟩

/-- What a run has put on disk, with its entries inside the long window, is read back
exactly when it fits the reader. -/
theorem ledger_reads_back_iff {world : World} {trace : List Label}
    (run : (machine account assumptions).Run world trace) {content : Ledger}
    (onDisk : world.store.ledger = some content.text)
    (inside : ∀ entry ∈ content.entries,
      content.wall.value - account.longWindow < entry.time ∧ entry.time ≤ content.wall.value)
    {owner : Instance} {firstUse : Bool} {store : Store} (later : Later content store) :
    ReadsBack content owner firstUse store ↔ content.size ≤ readLimit := by
  rw [← content.length_text]
  constructor
  · intro hreads
    by_contra hlong
    exact not_reads_back later (not_le.mp hlong) hreads
  · intro hshort
    obtain ⟨written, htext, stocked⟩ := run_stocked run onDisk
    have stocked := stocked.of_text htext.symm
    refine reads_back later stocked.boot hshort ?_ fun entry hentry => (inside entry hentry).2
    intro entry hentry
    obtain ⟨hyoung, hpast⟩ := inside entry hentry
    obtain ⟨hairtime, hpositive⟩ := stocked.airtimes entry hentry
    refine ⟨abs_lt.mpr ⟨?_, ?_⟩, hairtime, hpositive⟩
    · have hyoung' : content.wall.value.val - account.longWindow.val < entry.time.val := hyoung
      have hwall : (0 : ℚ) ≤ content.wall.value.val := content.wall.nonneg
      linarith [account.longInRange]
    · have hpast' : entry.time.val ≤ content.wall.value.val := hpast
      exact lt_of_le_of_lt hpast' (abs_lt.mp content.wall.inRange).2

/-! ## A ledger that does not fit -/

/-- One reservation every 10 ms. -/
def denseClock (index : ℕ) : Clock :=
  clockAt (Decimal.ofScaled (10000 + index) (-2)) (Decimal.ofScaled (10000 + index) (-2))

/-- An airtime of 4 microseconds. -/
def fourMicroseconds : Airtime :=
  ⟨Decimal.ofScaled 4 (-6), by
    have h : (0 : ℚ) < (Decimal.ofScaled 4 (-6)).val := by norm_num [Decimal.ofScaled_val]
    exact h, inRange_of_le (by norm_num [Decimal.ofScaled_val])⟩

/-- More entries than fit the reader, each at least six characters long. -/
@[irreducible]
def denseCount : ℕ := 174763

theorem denseCount_cast {count : ℕ} (h : count ≤ denseCount) : (count : ℚ) ≤ 174763 := by
  rw [denseCount] at h
  exact_mod_cast h

theorem denseClock_wall {index : ℕ} (h : index ≤ denseCount) :
    (denseClock index).wall.value.val = 100 + index / 100 := by
  have hindex : (index : ℚ) ≤ 174763 := denseCount_cast h
  have hzero : (0 : ℚ) ≤ index := Nat.cast_nonneg index
  have hval : (Decimal.ofScaled (10000 + index) (-2)).val = 100 + (index : ℚ) / 100 := by
    rw [Decimal.ofScaled_val]
    push_cast
    norm_num [zpow_neg]
    ring
  rw [denseClock, clockAt, readingOf_value, hval]
  · have h : (0 : ℚ) ≤ (Decimal.ofScaled (10000 + index) (-2)).val := by rw [hval]; positivity
    exact h
  · rw [hval, abs_of_nonneg (by positivity)]
    linarith

theorem denseClock_monotonic (index : ℕ) :
    (denseClock index).monotonic = (denseClock index).wall := rfl

/-- The entries of the dense series. -/
theorem mem_dense {count : ℕ} (hcount : count ≤ denseCount) {entry : Entry}
    (hentry : entry ∈ series denseClock (fun _ => fourMicroseconds) count) :
    ∃ index < count, entry.time.val = 100 + (index : ℚ) / 100 ∧
      entry.airtime = fourMicroseconds.value := by
  obtain ⟨index, hindex, rfl⟩ := List.mem_map.mp hentry
  have hindex := List.mem_range.mp hindex
  exact ⟨index, hindex, denseClock_wall (by omega), rfl⟩

theorem total_dense (count : ℕ) :
    Charge.total (charges (series denseClock (fun _ => fourMicroseconds) count)) =
      count * (4 / 10 ^ 6) := by
  have hairtime : fourMicroseconds.value.val = 4 / 10 ^ 6 := by
    norm_num [fourMicroseconds, Decimal.ofScaled_val]
  induction count with
  | zero => simp [series]
  | succ count ih =>
      rw [series_succ, charges_append, Charge.total_append, ih]
      simp only [charges, List.map_singleton, Charge.total_singleton, Entry.charge, hairtime]
      push_cast
      ring

theorem dense_kept {count : ℕ} (hcount : count ≤ denseCount) :
    prune .default (denseClock count).wall.value
      (series denseClock (fun _ => fourMicroseconds) count) =
        series denseClock (fun _ => fourMicroseconds) count := by
  refine List.filter_eq_self.mpr ?_
  intro entry hentry
  obtain ⟨index, _, htime, _⟩ := mem_dense hcount hentry
  have hcount' := denseCount_cast hcount
  have hindex : (0 : ℚ) ≤ index := Nat.cast_nonneg index
  have hyoung : (denseClock count).wall.value.val - (3600 : ℚ) < entry.time.val := by
    rw [denseClock_wall hcount, htime]
    linarith
  exact decide_eq_true hyoung

theorem dense_admits {count : ℕ} (hcount : count ≤ denseCount) :
    Admits .default (series denseClock (fun _ => fourMicroseconds) count)
      (denseClock count).wall.value fourMicroseconds.value := by
  have hcount' := denseCount_cast hcount
  have hnonneg : Charge.Nonneg (charges (series denseClock (fun _ => fourMicroseconds) count)) := by
    refine charges_nonneg fun entry hentry => ?_
    obtain ⟨_, _, _, hairtime⟩ := mem_dense hcount hentry
    rw [hairtime]
    exact fourMicroseconds.positive.le
  have hsince : ∀ start,
      Charge.since (charges (series denseClock (fun _ => fourMicroseconds) count)) start ≤
        count * (4 / 10 ^ 6) :=
    fun start => (Charge.total_sublist List.filter_sublist hnonneg).trans (total_dense count).le
  have hairtime : fourMicroseconds.value.val = 4 / 10 ^ 6 := by
    norm_num [fourMicroseconds, Decimal.ofScaled_val]
  refine (refusal_none_iff ..).mpr ⟨Or.inr ?_, ?_⟩
  · refine (add_le_add_left (hsince _) _).trans ?_
    rw [hairtime]
    norm_num [allowance, DutyAccount.default]
    linarith
  · refine (add_le_add_left (hsince _) _).trans ?_
    rw [hairtime]
    norm_num [allowance, DutyAccount.default]
    linarith

theorem dense_readable {count : ℕ} (hcount : count ≤ denseCount)
    (hshort : (seriesLedger denseClock (fun _ => fourMicroseconds) [] count).size ≤ readLimit) :
    Readable (denseClock count) [] (seriesLedger denseClock (fun _ => fourMicroseconds) [] count) := by
  have hoffset : ∀ index, (denseClock index).offset = 0 := fun index => sub_self _
  refine ⟨rfl, ?_, by rwa [Ledger.length_text], ?_, ?_⟩
  · have hsample : (seriesLedger denseClock (fun _ => fourMicroseconds) [] count).sample.offset = 0 :=
      sub_self _
    rw [hoffset, hsample, sub_zero, abs_zero]
    exact clockSkewS_nonneg
  · intro entry hentry
    obtain ⟨index, hindex, htime, hairtime⟩ := mem_dense hcount hentry
    have hindex' := denseCount_cast (hindex.le.trans hcount)
    refine ⟨inRange_of_le ?_, hairtime ▸ fourMicroseconds.inRange,
      hairtime ▸ fourMicroseconds.positive⟩
    rw [htime, abs_of_nonneg (by positivity)]
    linarith
  · intro entry hentry
    obtain ⟨index, hindex, htime, _⟩ := mem_dense hcount hentry
    have hindex' : (index : ℚ) ≤ count := by exact_mod_cast hindex.le
    have hpast : entry.time.val ≤ (denseClock count).wall.value.val := by
      rw [htime, denseClock_wall hcount]
      linarith
    exact hpast

/-- Every entry takes at least six characters. -/
theorem series_size_ge (clock : ℕ → Clock) (airtime : ℕ → Airtime) (boot : List Char) (count : ℕ) :
    6 * count ≤ (seriesLedger clock airtime boot count).size := by
  have hsum : ∀ entries : List Entry, 4 * entries.length ≤ (entries.map Entry.size).sum := by
    intro entries
    induction entries with
    | nil => exact le_rfl
    | cons entry rest ih =>
        rw [List.map_cons, List.sum_cons, List.length_cons, Entry.size]
        omega
  have hlength : (series clock airtime count).length = count := by
    rw [series, List.length_map, List.length_range]
  have hentries := hsum (series clock airtime count)
  rw [hlength] at hentries
  simp only [Ledger.size, seriesLedger, hlength]
  omega

theorem dense_overflows :
    readLimit < (seriesLedger denseClock (fun _ => fourMicroseconds) [] denseCount).size := by
  have hsize := series_size_ge denseClock (fun _ => fourMicroseconds) [] denseCount
  have hcount : readLimit < 6 * denseCount := by
    rw [readLimit, denseCount]
    norm_num
  exact hcount.trans_le hsize

/-- The dense series, as far as the reader takes its ledgers. -/
theorem dense_run {count : ℕ} (hcount : count ≤ denseCount)
    (hshort : ∀ index < count, 0 < index →
      (seriesLedger denseClock (fun _ => fourMicroseconds) [] index).size ≤ readLimit) :
    ∃ world : World, Rested .default (Assumptions.steady 0) world
        (seriesDisk denseClock (fun _ => fourMicroseconds) [] count) (denseClock (count - 1)) ∧
      ∀ record ∈ world.history, record.outcome = .ended (.ok .granted) := by
  have hmoved : ∀ index < count,
      (Assumptions.steady 0).advance (denseClock (index - 1)) (denseClock index) := by
    intro index hindex
    have hwall : (denseClock (index - 1)).wall.value.val ≤ (denseClock index).wall.value.val := by
      rw [denseClock_wall (by omega), denseClock_wall (by omega)]
      have hle : ((index - 1 : ℕ) : ℚ) ≤ index := by exact_mod_cast Nat.sub_le index 1
      linarith
    exact ⟨hwall, hwall⟩
  have hpermits : ∀ index < count, (Assumptions.steady 0).Permits (denseClock index) [] := by
    intro index _
    have hoffset : Sample.offset ⟨(denseClock index).wall, (denseClock index).monotonic⟩ = 0 :=
      sub_self _
    refine ⟨⟨hoffset.ge, ?_⟩, trivial⟩
    rw [hoffset, zero_add]
    exact clockSkewS_nonneg
  obtain ⟨world, observed, rested, hhistory, _⟩ := Rested.series denseClock
    (fun _ => fourMicroseconds) [] hmoved hpermits
    (fun index h hpositive => dense_readable (h.le.trans hcount) (hshort index h hpositive))
    (fun index h => dense_kept (h.le.trans hcount)) (fun index h => dense_admits (h.le.trans hcount))
  refine ⟨world, rested, ?_⟩
  rw [hhistory]
  intro record hrecord
  obtain ⟨index, _, rfl⟩ := List.mem_map.mp hrecord
  rfl

/-- Granted calls alone build a ledger that cannot be read again. -/
theorem granted_ledger_lost :
    ∃ (world : World) (trace : List Label) (content : Ledger) (store : Store),
      (machine .default (Assumptions.steady 0)).Run world trace ∧
      (∀ record ∈ world.history, record.outcome = .ended (.ok .granted)) ∧
      world.store.ledger = some content.text ∧
      (∀ entry ∈ content.entries, content.wall.value - DutyAccount.default.longWindow < entry.time ∧
        entry.time ≤ content.wall.value) ∧
      Later content store ∧ ¬ ReadsBack content ⟨1, 0⟩ false store := by
  -- the first ledger that does not fit
  have hexists : ∃ count, 0 < count ∧ readLimit <
      (seriesLedger denseClock (fun _ => fourMicroseconds) [] count).size :=
    ⟨denseCount, by rw [denseCount]; norm_num, dense_overflows⟩
  classical
  obtain ⟨count, ⟨hpositive, hlong⟩, hfirst⟩ : ∃ count, (0 < count ∧ readLimit <
      (seriesLedger denseClock (fun _ => fourMicroseconds) [] count).size) ∧
      ∀ index < count, 0 < index →
        (seriesLedger denseClock (fun _ => fourMicroseconds) [] index).size ≤ readLimit :=
    ⟨Nat.find hexists, Nat.find_spec hexists, fun index h hpositive =>
      not_lt.mp fun hlong => Nat.find_min hexists h ⟨hpositive, hlong⟩⟩
  have hcount : count ≤ denseCount := by
    by_contra hbeyond
    have hshort := hfirst denseCount (not_le.mp hbeyond) (by rw [denseCount]; norm_num)
    exact absurd dense_overflows (not_lt.mpr hshort)
  obtain ⟨world, rested, hgranted⟩ := dense_run hcount hfirst
  obtain ⟨trace, run⟩ := rested.reaches
  obtain ⟨less, rfl⟩ : ∃ less, count = less + 1 := Nat.exists_eq_succ_of_ne_zero hpositive.ne'
  have honDisk : world.store.ledger =
      some (seriesLedger denseClock (fun _ => fourMicroseconds) [] (less + 1)).text := rested.onDisk
  have hlater := rested.later rfl
  refine ⟨world, trace, _, _, run.of_restrict, hgranted, honDisk, ?_, hlater,
    not_reads_back hlater (by rwa [Ledger.length_text])⟩
  intro entry hentry
  obtain ⟨index, hindex, htime, _⟩ := mem_dense hcount hentry
  have hless := denseCount_cast hcount
  have hwall : (seriesLedger denseClock (fun _ => fourMicroseconds) []
      (less + 1)).wall.value.val = 100 + (less : ℚ) / 100 := denseClock_wall (by omega)
  have hindex' : (index : ℚ) ≤ less := by exact_mod_cast Nat.lt_succ_iff.mp hindex
  have hyoung : (seriesLedger denseClock (fun _ => fourMicroseconds) []
      (less + 1)).wall.value.val - (3600 : ℚ) < entry.time.val := by
    rw [hwall, htime]
    push_cast at hless
    linarith [(Nat.cast_nonneg index : (0 : ℚ) ≤ index)]
  have hpast : entry.time.val ≤ (seriesLedger denseClock (fun _ => fourMicroseconds) []
      (less + 1)).wall.value.val := by
    rw [hwall, htime]
    linarith
  exact ⟨hyoung, hpast⟩

theorem firstLedger_size : (firstLedger []).size ≤ readLimit := by
  have hreading : (readingOf 100).value = ((100 : ℕ) : Decimal) :=
    (readingOf_value (by norm_num) (by norm_num)).trans (by norm_num)
  have hhundred : (((100 : ℕ) : Decimal)).text.length ≤ 18 :=
    Decimal.length_text_natCast_le (by norm_num)
  have hone : (1 : Decimal).text.length ≤ 18 := by
    have h := Decimal.length_text_natCast_le (show 1 < 10 ^ 16 by norm_num)
    rwa [Nat.cast_one] at h
  have hentry : Entry.size ⟨(readingOf 100).value, 1⟩ =
      (readingOf 100).value.text.length + (1 : Decimal).text.length + 4 := by
    rw [Entry.size, PyFloat.text_ofDecimal (readingOf 100).inRange]
    exact congrArg (_ + ·.length + 4) (PyFloat.text_ofDecimal oneSecond.inRange)
  have hboot : (Json.stringText (strip [])).length = 2 := rfl
  simp only [Ledger.size, firstLedger, List.map_cons, List.map_nil, List.sum_cons, List.sum_nil,
    List.length_cons, List.length_nil, hboot, hentry]
  rw [hreading, readLimit]
  omega

/-- The ledger of the first reservation ever is read back. -/
theorem first_ledger_reads_back :
    ∃ (world : World) (trace : List Label) (store : Store),
      (machine .default (Assumptions.steady 0)).Run world trace ∧
      world.store.ledger = some (firstLedger []).text ∧
      ReadsBack (firstLedger []) ⟨1, 0⟩ false store := by
  obtain ⟨world, observed, rested, _, _⟩ := first_rested steady_permits
  obtain ⟨trace, run⟩ := rested.reaches
  refine ⟨world, trace, _, run.of_restrict, rested.onDisk,
    (ledger_reads_back_iff run.of_restrict rested.onDisk ?_ (rested.later rfl)).mpr firstLedger_size⟩
  intro entry hentry
  rw [List.mem_singleton.mp hentry]
  have hyoung : (readingOf 100).value.val - (3600 : ℚ) < (readingOf 100).value.val := by norm_num
  exact ⟨hyoung, le_rfl⟩

end LorahamRns.Duty
