import LorahamRns.Duty.Environment

/-!
# What a call can do to the ledger

A call under the lock leaves the ledger as it found it, or puts the entries it
decides on in its place, with its own reservation behind them when the limits
admit it.  The programs refine this relation at every point where the process
can be killed, so everything about runs is derived from it.
-/

namespace LorahamRns.Duty

open LorahamRns.Lib

namespace Ledger

def sample (ledger : Ledger) : Sample := ⟨ledger.wall, ledger.monotonic⟩

end Ledger

/-- The text `_boot_id` returns. -/
def bootText (reply : Option (List Char)) : List Char := (reply.map strip).getD []

/-! ## The relation -/

/-- What `_rebase` returns, the clock it ends at, and the sample it took. -/
inductive Rebased (assumptions : Assumptions) (ledger : Ledger) (start : Clock) :
    Clock → Option Sample → List Entry → Prop where
  | empty (nothing : ledger.entries = []) : Rebased assumptions ledger start start none []
  | sameBoot {first second : Clock} (before : assumptions.advance start first)
      (behind : assumptions.advance first second)
      (sampled : assumptions.sample ⟨first.wall, second.monotonic⟩)
      (same : ∃ reply, assumptions.boot reply ∧ bootText reply = ledger.boot) :
      Rebased assumptions ledger start second (some ⟨first.wall, second.monotonic⟩)
        (if |Sample.offset ⟨first.wall, second.monotonic⟩ - ledger.sample.offset| ≤ clockSkewS then
          ledger.entries
        else ledger.entries.map
          (Entry.shift (Sample.offset ⟨first.wall, second.monotonic⟩ - ledger.sample.offset)))
  | otherBoot {clock : Clock} (before : assumptions.advance start clock)
      (other : ∃ reply, assumptions.boot reply ∧ bootText reply ≠ ledger.boot) :
      Rebased assumptions ledger start clock none
        (if clock.wall.value - ledger.wall.value > clockSkewS then
          ledger.entries.map (Entry.shift (clock.wall.value - ledger.wall.value))
        else ledger.entries)

/-- The entries `_read` returns to a call whose reading was `now`. -/
inductive Found (assumptions : Assumptions) (firstUse : Bool) (ledger : Option Ledger) (now : Clock) :
    Clock → Option Sample → List Entry → Prop where
  | fresh (missing : ledger = none) (first : firstUse = true) :
      Found assumptions firstUse ledger now now none []
  | present {content : Ledger} {later last : Clock} {compared : Option Sample}
      {entries : List Entry} (present : ledger = some content)
      (short : content.text.length ≤ readLimit)
      (credible : ∀ entry ∈ content.entries, entry.Credible)
      (moved : assumptions.advance now later)
      (rebased : Rebased assumptions content later last compared entries) :
      Found assumptions firstUse ledger now last compared entries

/-- The entries a call decides on. -/
def View (account : DutyAccount) (assumptions : Assumptions) (firstUse : Bool)
    (ledger : Option Ledger) (now last : Clock) (compared : Option Sample) (entries : List Entry) :
    Prop :=
  ∃ found, Found assumptions firstUse ledger now last compared found ∧
    entries = prune account now.wall.value found

/-- A ledger written after `start` and before `finish`. -/
structure Written (assumptions : Assumptions) (start : Clock) (ledger : Ledger) (finish : Clock) :
    Prop where
  boot : ∃ reply, assumptions.boot reply ∧ ledger.boot = bootText reply
  sampled : assumptions.sample ledger.sample
  clocks : ∃ first second : Clock, assumptions.advance start first ∧
    assumptions.advance first second ∧ assumptions.advance second finish ∧
    ledger.monotonic = first.monotonic ∧ ledger.wall = second.wall

/-- The limits admit a reservation. -/
def Admits (account : DutyAccount) (entries : List Entry) (now airtime : Decimal) : Prop :=
  refusal account entries now airtime = none

/-- How far `reserve` can have got. -/
inductive Progress (account : DutyAccount) (assumptions : Assumptions) (firstUse : Bool)
    (airtime : Decimal) (ledger : Option Ledger) (start : Clock) :
    Option Ledger → Clock → Observed → Prop where
  | untouched {clock : Clock} {observed : Observed} (moved : assumptions.advance start clock)
      (quiet : observed.persisted = none) :
      Progress account assumptions firstUse airtime ledger start ledger clock observed
  | written {now last clock : Clock} {compared : Option Sample} {entries : List Entry}
      {content : Ledger} {observed : Observed} (began : assumptions.advance start now)
      (view : View account assumptions firstUse ledger now last compared entries)
      (wrote : Written assumptions last content clock) (noted : observed.now = some now)
      (compare : observed.compared = compared) (persisted : observed.persisted = some content.sample)
      (recorded : content.entries = entries ∨
        (content.entries = entries ++ [⟨now.wall.value, airtime⟩] ∧
          Admits account entries now.wall.value airtime)) :
      Progress account assumptions firstUse airtime ledger start (some content) clock observed

/-- What makes the loop over the entries raise. -/
def EntryFault (assumptions : Assumptions) (start : Clock) (entries : List Entry) : Prop :=
  (∃ entry ∈ entries, ¬ entry.Credible) ∨
    ∃ entry ∈ entries, ∃ clock, assumptions.advance start clock ∧
      clock.wall.value + clockSkewS < entry.time

/-- What makes `_read` raise. -/
def ReadCause (assumptions : Assumptions) (firstUse : Bool) (ledger : Option Ledger) (start : Clock) :
    Failure → Prop
  | .duty .disappeared => ledger = none ∧ firstUse = false
  | .duty .unreadableFile => assumptions.readFails
  | .duty .notRegular => assumptions.readFails
  | .duty (.unreadable _) => ∃ content, ledger = some content ∧
      (readLimit < content.text.length ∨ EntryFault assumptions start content.entries)
  | _ => False

/-- What makes `reserve` raise: its reading, before anything was written, or a write that
failed on the ledger it leaves. -/
def Cause (assumptions : Assumptions) (firstUse : Bool) (ledger left : Option Ledger)
    (start : Clock) (observed : Observed) (failure : Failure) : Prop :=
  (ReadCause assumptions firstUse ledger start failure ∧ left = ledger ∧
    observed.persisted = none) ∨
    (failure = .duty .notWritten ∧ observed.writeFailed = true ∧
      assumptions.writeFails (left.map Ledger.text))

/-- How `reserve` can end. -/
inductive Ended (account : DutyAccount) (assumptions : Assumptions) (firstUse : Bool)
    (airtime : Decimal) (ledger : Option Ledger) (start : Clock) :
    Except Failure Verdict → Option Ledger → Clock → Observed → Prop where
  | granted {now last clock : Clock} {compared : Option Sample} {entries : List Entry}
      {content : Ledger} {observed : Observed} (began : assumptions.advance start now)
      (view : View account assumptions firstUse ledger now last compared entries)
      (wrote : Written assumptions last content clock) (noted : observed.now = some now)
      (compare : observed.compared = compared) (persisted : observed.persisted = some content.sample)
      (recorded : content.entries = entries ++ [⟨now.wall.value, airtime⟩])
      (admitted : Admits account entries now.wall.value airtime) :
      Ended account assumptions firstUse airtime ledger start (.ok .granted) (some content) clock
        observed
  | refused {now last clock : Clock} {compared : Option Sample} {entries : List Entry}
      {left : Option Ledger} {observed : Observed} {reason : Reason}
      (began : assumptions.advance start now)
      (view : View account assumptions firstUse ledger now last compared entries)
      (moved : assumptions.advance last clock)
      (noted : observed.now = some now) (compare : observed.compared = compared)
      (kept : (firstUse = false ∧ left = ledger ∧ observed.persisted = none) ∨
        ∃ content, left = some content ∧ content.entries = entries ∧
          Written assumptions last content clock ∧ observed.persisted = some content.sample)
      (decided : refusal account entries now.wall.value airtime = some reason) :
      Ended account assumptions firstUse airtime ledger start (.ok (.refused reason)) left clock
        observed
  | failed {left : Option Ledger} {clock : Clock} {observed : Observed} {failure : Failure}
      (progress : Progress account assumptions firstUse airtime ledger start left clock observed)
      (cause : Cause assumptions firstUse ledger left start observed failure) :
      Ended account assumptions firstUse airtime ledger start (.error failure) left clock observed

theorem Rebased.advance {assumptions : Assumptions} {ledger : Ledger} {start last : Clock}
    {compared : Option Sample} {entries : List Entry}
    (rebased : Rebased assumptions ledger start last compared entries) :
    assumptions.advance start last := by
  cases rebased with
  | empty => exact assumptions.refl _
  | sameBoot before behind => exact assumptions.trans before behind
  | otherBoot before => exact before

theorem Found.advance {assumptions : Assumptions} {firstUse : Bool} {ledger : Option Ledger}
    {now last : Clock} {compared : Option Sample} {entries : List Entry}
    (found : Found assumptions firstUse ledger now last compared entries) :
    assumptions.advance now last := by
  cases found with
  | fresh => exact assumptions.refl _
  | present _ _ _ moved rebased => exact assumptions.trans moved rebased.advance

/-- A killed or a finished call has made some progress. -/
theorem Ended.progress {account : DutyAccount} {assumptions : Assumptions} {firstUse : Bool}
    {airtime : Decimal} {ledger left : Option Ledger} {start clock : Clock} {observed : Observed}
    {result : Except Failure Verdict}
    (ended : Ended account assumptions firstUse airtime ledger start result left clock observed) :
    Progress account assumptions firstUse airtime ledger start left clock observed := by
  cases ended with
  | granted began view wrote noted compare persisted recorded admitted =>
      exact .written began view wrote noted compare persisted (Or.inr ⟨recorded, admitted⟩)
  | @refused now last clock compared entries left observed reason began view moved noted compare kept decided =>
      rcases kept with ⟨_, rfl, hquiet⟩ | ⟨content, rfl, hentries, wrote, hpersisted⟩
      · refine .untouched (assumptions.trans began (assumptions.trans ?_ moved)) hquiet
        obtain ⟨found, hfound, _⟩ := view
        exact hfound.advance
      · exact .written began view wrote noted compare hpersisted (Or.inl hentries)
  | failed progress => exact progress

/-! ## Writing -/

/-- The ledger is untouched: only clocks, temporary files, flags and notes have
changed, `compared` among the notes. -/
structure Kept (assumptions : Assumptions) (store last : Store) (compared : Option Sample) : Prop where
  ledger : last.ledger = store.ledger
  clock : assumptions.advance store.clock last.clock
  now : last.observed.now = store.observed.now
  compared : last.observed.compared = compared
  persisted : last.observed.persisted = store.observed.persisted

/-- Nothing has changed that a later step of the call depends on. -/
abbrev Still (assumptions : Assumptions) (store last : Store) : Prop :=
  Kept assumptions store last store.observed.compared

/-- The entries have become the ledger. -/
structure Wrote (assumptions : Assumptions) (entries : List Entry) (store last : Store)
    (content : Ledger) : Prop where
  ledger : last.ledger = some content.text
  entries : content.entries = entries
  written : Written assumptions store.clock content last.clock
  now : last.observed.now = store.observed.now
  compared : last.observed.compared = store.observed.compared
  persisted : last.observed.persisted = some content.sample

variable {assumptions : Assumptions}

theorem Still.refl (store : Store) : Still assumptions store store :=
  ⟨rfl, assumptions.refl _, rfl, rfl, rfl⟩

theorem Still.setTemp {store last : Store} (still : Still assumptions store last) (process : ℕ)
    (content : Option (List Char)) : Still assumptions store (last.setTemp process content) :=
  ⟨still.ledger, still.clock, still.now, still.compared, still.persisted⟩

theorem Still.failWrite {store last : Store} (still : Still assumptions store last) :
    Still assumptions store last.failWrite :=
  ⟨still.ledger, still.clock, still.now, still.compared, still.persisted⟩

section Write

variable {always : Store → Prop} {start : Store} {process : ℕ} {sample : Sample}

/-- A write in progress: the temporary file holds `content`. -/
structure Midway (assumptions : Assumptions) (start : Store) (process : ℕ) (sample : Sample)
    (content : List Char) (store : Store) : Prop where
  still : Still assumptions start store
  evidence : store.observed.evidence = some sample
  temp : store.temp process = some content

/-- A finished rename: the blob is the ledger. -/
structure Renamed (assumptions : Assumptions) (start : Store) (sample : Sample) (blob : List Char)
    (store : Store) : Prop where
  ledger : store.ledger = some blob
  clock : assumptions.advance start.clock store.clock
  now : store.observed.now = start.observed.now
  compared : store.observed.compared = start.observed.compared
  persisted : store.observed.persisted = some sample

/-- A write has failed, as it may with this ledger. -/
structure Broken (assumptions : Assumptions) (store : Store) : Prop where
  noted : store.observed.writeFailed = true
  permitted : assumptions.writeFails store.ledger

/-- A write that failed before its rename. -/
def WriteFault (assumptions : Assumptions) (start : Store) (failure : Failure) (store : Store) : Prop :=
  failure = .os ∧ Still assumptions start store ∧ Broken assumptions store

theorem wp_writeAll (halways : ∀ store, Still assumptions start store → always store)
    (blob : List Char) {content : List Char} {store : Store}
    (midway : Midway assumptions start process sample content store) :
    (writeAll process blob).wp (environment assumptions) always
      (fun _ => Midway assumptions start process sample (content ++ blob))
      (WriteFault assumptions start) store := by
  induction hlength : blob.length using Nat.strong_induction_on generalizing blob content store with
  | _ length ih =>
      cases blob with
      | nil =>
          rw [writeAll, List.append_nil]
          exact ⟨halways _ midway.still, midway⟩
      | cons first rest =>
          rw [writeAll]
          refine ⟨halways _ midway.still, ?_⟩
          rintro reply last (⟨more, rfl, rfl⟩ | ⟨rfl, hbroken, rfl⟩)
          · have hnext : Midway assumptions start process sample
                (content ++ first :: rest.take more.val)
                (store.setTemp process
                  ((store.temp process).map (· ++ first :: rest.take more.val))) := by
              refine ⟨midway.still.setTemp _ _, midway.evidence, ?_⟩
              rw [midway.temp]
              exact Function.update_self process _ store.temp
            have hshorter : (rest.drop more.val).length < length := by
              rw [← hlength, List.length_drop, List.length_cons]
              omega
            have hrest := ih _ hshorter (rest.drop more.val) hnext rfl
            rw [List.append_assoc, List.cons_append, List.take_append_drop] at hrest
            exact hrest
          · exact ⟨halways _ midway.still.failWrite, rfl, midway.still.failWrite, rfl, hbroken⟩

/-- One call of a write: it goes on to `post`, or raises. -/
theorem wp_attempt {effect : Account Bool} {post : Unit → Store → Prop}
    {fault : Failure → Store → Prop} {store : Store}
    (h : effect.wp (environment assumptions) always
      (fun reply last => (reply = true → post () last) ∧ (reply = false → fault .os last)) fault
      store) :
    (Os.attempt effect).wp (environment assumptions) always post fault store := by
  refine Program.wp_bind (Program.wp_mono (Program.wp_always_post h) ?_ (fun _ _ hfault => hfault))
  rintro reply last ⟨halways, hpost, hfault⟩
  cases reply with
  | true => exact ⟨halways, hpost rfl⟩
  | false => exact ⟨halways, hfault rfl⟩

/-- The steps before the rename leave the ledger alone, those from the rename on
find the blob in its place. -/
theorem wp_replaceLedger {blob : List Char} {post : Unit → Store → Prop}
    {fault : Failure → Store → Prop} {store : Store} (still : Still assumptions start store)
    (evidence : store.observed.evidence = some sample)
    (halways : ∀ store, Still assumptions start store → always store)
    (hrenamed : ∀ store, Renamed assumptions start sample blob store → always store ∧ post () store)
    (hfault : ∀ store, Broken assumptions store →
      Still assumptions start store ∨ Renamed assumptions start sample blob store → fault .os store) :
    (replaceLedger process blob).wp (environment assumptions) always post fault store := by
  have hstill : ∀ {store : Store}, Still assumptions start store →
      assumptions.writeFails store.ledger → always store.failWrite ∧ fault .os store.failWrite :=
    fun h hbroken => ⟨halways _ h.failWrite, hfault _ ⟨rfl, hbroken⟩ (Or.inl h.failWrite)⟩
  -- open
  refine Program.wp_bind (wp_attempt ⟨halways _ still, ?_⟩)
  rintro reply last (⟨rfl, rfl⟩ | ⟨rfl, hbroken, rfl⟩)
  swap
  · exact ⟨(hstill still hbroken).1, nofun, fun _ => (hstill still hbroken).2⟩
  have hopened : Midway assumptions start process sample [] (store.setTemp process (some [])) :=
    ⟨still.setTemp _ _, evidence, Function.update_self process _ store.temp⟩
  refine ⟨halways _ hopened.still, fun _ => ?_, nofun⟩
  -- write
  refine Program.wp_bind (Program.wp_mono (wp_writeAll halways blob hopened) ?_ ?_)
  swap
  · rintro failure last ⟨rfl, hlast, hbroken⟩
    exact hfault last hbroken (Or.inl hlast)
  rintro _ last written
  rw [List.nil_append] at written
  -- fsync
  refine Program.wp_bind (wp_attempt ⟨halways _ written.still, ?_⟩)
  rintro reply synced (⟨rfl, rfl⟩ | ⟨rfl, hbroken, rfl⟩)
  swap
  · exact ⟨(hstill written.still hbroken).1, nofun, fun _ => (hstill written.still hbroken).2⟩
  refine ⟨halways _ written.still, fun _ => ?_, nofun⟩
  -- rename
  refine Program.wp_bind (wp_attempt ⟨halways _ written.still, ?_⟩)
  rintro reply renamed (⟨content, hcontent, rfl, rfl⟩ | ⟨rfl, hbroken | hmissing, rfl⟩)
  rotate_left
  · exact ⟨(hstill written.still hbroken).1, nofun, fun _ => (hstill written.still hbroken).2⟩
  · exact absurd (hmissing.symm.trans written.temp) nofun
  have hblob : content = blob := Option.some.inj (hcontent.symm.trans written.temp)
  have done : Renamed assumptions start sample blob (synced.rename process content) :=
    ⟨congrArg some hblob, written.still.clock, written.still.now, written.still.compared,
      written.evidence⟩
  have hfailed : Renamed assumptions start sample blob (synced.rename process content).failWrite :=
    ⟨done.ledger, done.clock, done.now, done.compared, done.persisted⟩
  refine ⟨(hrenamed _ done).1, fun _ => ?_, nofun⟩
  -- fsync of the directory
  refine wp_attempt ⟨(hrenamed _ done).1, ?_⟩
  rintro reply last (⟨rfl, rfl⟩ | ⟨rfl, hbroken, rfl⟩)
  · exact ⟨(hrenamed _ done).1, fun _ => (hrenamed _ done).2, nofun⟩
  · exact ⟨(hrenamed _ hfailed).1, nofun, fun _ => hfault _ ⟨rfl, hbroken⟩ (Or.inr hfailed)⟩

theorem wp_bootId {post : List Char → Store → Prop} {fault : Failure → Store → Prop} {store : Store}
    (halways : always store)
    (h : ∀ reply, assumptions.boot reply → post (bootText reply) store) :
    bootId.wp (environment assumptions) always post fault store := by
  refine Program.wp_bind ⟨halways, ?_⟩
  rintro reply last ⟨hboot, rfl⟩
  refine ⟨halways, ?_⟩
  cases reply with
  | none => exact ⟨halways, h none hboot⟩
  | some text => exact ⟨halways, h (some text) hboot⟩

/-- `_write` replaces the ledger or leaves it, and fails only when one of its calls did. -/
theorem wp_write {owner : Instance} {entries : List Entry} {post : Unit → Store → Prop}
    {fault : Failure → Store → Prop}
    (halways : ∀ store, Still assumptions start store → always store)
    (hwrote : ∀ store content, Wrote assumptions entries start store content →
      always store ∧ post () store)
    (hstill : ∀ store, Broken assumptions store → Still assumptions start store →
      fault (.duty .notWritten) store)
    (hlate : ∀ store content, Broken assumptions store →
      Wrote assumptions entries start store content → fault (.duty .notWritten) store) :
    (write owner entries).wp (environment assumptions) always post fault start := by
  have hstart := halways start (Still.refl start)
  refine Program.wp_bind (wp_bootId hstart fun reply hboot => ?_)
  refine Program.wp_bind ⟨hstart, ?_⟩
  rintro ⟨mono, wall⟩ sampled ⟨first, second, hfirst, hsecond, hreply, hsample, rfl⟩
  obtain ⟨rfl, rfl⟩ := Prod.mk.inj hreply
  -- the ledger this write builds
  let content : Ledger := ⟨bootText reply, first.monotonic, second.wall, entries⟩
  have still : Still assumptions start (start.seeEvidence second ⟨second.wall, first.monotonic⟩) :=
    ⟨rfl, assumptions.trans hfirst hsecond, rfl, rfl, rfl⟩
  have hcontent : ∀ store,
      Renamed assumptions (start.seeEvidence second content.sample) content.sample content.text store →
        Wrote assumptions entries start store content := fun store renamed =>
    ⟨renamed.ledger, rfl,
      ⟨⟨reply, hboot, rfl⟩, hsample, first, second, hfirst, hsecond, renamed.clock, rfl, rfl⟩,
      renamed.now, renamed.compared, renamed.persisted⟩
  have hlater : ∀ store, Still assumptions (start.seeEvidence second content.sample) store →
      Still assumptions start store := fun store later =>
    ⟨later.ledger, assumptions.trans still.clock later.clock, later.now, later.compared,
      later.persisted⟩
  refine ⟨halways _ still, Program.wp_rescue ?_⟩
  refine wp_replaceLedger (Still.refl _) rfl (fun store later => halways _ (hlater store later))
    (fun store renamed => hwrote store content (hcontent store renamed)) ?_
  -- the failed write removes its temporary file and raises
  rintro store hbroken hkept
  have halways' : always store := by
    rcases hkept with later | renamed
    · exact halways _ (hlater store later)
    · exact (hwrote store content (hcontent store renamed)).1
  refine ⟨halways', ?_⟩
  rintro reply last rfl
  rcases hkept with later | renamed
  · have hunlinked := (hlater store later).setTemp owner.process none
    exact ⟨halways _ hunlinked, hstill _ ⟨hbroken.noted, hbroken.permitted⟩ hunlinked⟩
  · have hdone := hcontent store renamed
    have hunlinked : Wrote assumptions entries start (store.setTemp owner.process none) content :=
      ⟨hdone.ledger, hdone.entries, hdone.written, hdone.now, hdone.compared, hdone.persisted⟩
    exact ⟨(hwrote _ content hunlinked).1, hlate _ content ⟨hbroken.noted, hbroken.permitted⟩ hunlinked⟩

end Write

/-! ## Reading -/

section Read

variable {always : Store → Prop} {start : Store} {now : Clock}

theorem Still.kept {store : Store} (still : Still assumptions start store)
    {compared : Option Sample} (hcompared : start.observed.compared = compared) :
    Kept assumptions start store compared := by
  rw [← hcompared]
  exact still

/-- A later reading is no call's `now`. -/
theorem Still.seeTime {store : Store} (still : Still assumptions start store)
    (hnow : start.observed.now = some now) {clock : Clock}
    (moved : assumptions.advance store.clock clock) :
    Still assumptions start (store.seeTime clock) := by
  refine ⟨still.ledger, assumptions.trans still.clock moved, ?_, still.compared, still.persisted⟩
  have hstore := still.now.trans hnow
  rw [Store.seeTime, hnow]
  simp only [hstore, Option.some_or]

theorem EntryFault.earlier {start clock : Clock} {entries : List Entry}
    (fault : EntryFault assumptions clock entries) (moved : assumptions.advance start clock) :
    EntryFault assumptions start entries := by
  rcases fault with hbad | ⟨bad, hmem, later, hlater, hfuture⟩
  · exact Or.inl hbad
  · exact Or.inr ⟨bad, hmem, later, assumptions.trans moved hlater, hfuture⟩

theorem ReadCause.earlier {firstUse : Bool} {ledger : Option Ledger} {start clock : Clock}
    {failure : Failure} (cause : ReadCause assumptions firstUse ledger clock failure)
    (moved : assumptions.advance start clock) :
    ReadCause assumptions firstUse ledger start failure := by
  unfold ReadCause at cause ⊢
  split at cause
  · exact cause
  · exact cause
  · exact cause
  · obtain ⟨content, hcontent, hlong | hfault⟩ := cause
    · exact ⟨content, hcontent, Or.inl hlong⟩
    · exact ⟨content, hcontent, Or.inr (hfault.earlier moved)⟩
  · exact cause.elim

theorem EntryFault.cons {clock : Clock} {entry : Entry} {entries : List Entry}
    (fault : EntryFault assumptions clock entries) : EntryFault assumptions clock (entry :: entries) := by
  rcases fault with ⟨bad, hmem, hbad⟩ | ⟨bad, hmem, hbad⟩
  · exact Or.inl ⟨bad, List.mem_cons_of_mem _ hmem, hbad⟩
  · exact Or.inr ⟨bad, List.mem_cons_of_mem _ hmem, hbad⟩

/-- The loop returns the entries as they were written, or raises. -/
theorem wp_readEntries (hnow : start.observed.now = some now)
    (halways : ∀ store, Still assumptions start store → always store) (entries : List Entry)
    {store : Store} (still : Still assumptions start store) :
    (readEntries (entries.map Entry.json)).wp (environment assumptions) always
      (fun found last => found = entries ∧ (∀ entry ∈ entries, entry.Credible) ∧
        Still assumptions start last)
      (fun failure last => Still assumptions start last ∧
        EntryFault assumptions start.clock entries ∧ ∃ cause, failure = .duty (.unreadable cause))
      store := by
  induction entries generalizing store with
  | nil => exact ⟨halways _ still, rfl, nofun, still⟩
  | cons entry rest ih =>
      rw [List.map_cons, readEntries]
      cases hentry : entryOf entry.json with
      | error cause =>
          have hbad : ¬ entry.Credible := by
            intro credible
            rw [credible.entryOf] at hentry
            cases hentry
          exact ⟨halways _ still, still, Or.inl ⟨entry, List.mem_cons_self, hbad⟩, cause, rfl⟩
      | ok found =>
          obtain ⟨rfl, credible⟩ := Entry.entryOf_json hentry
          refine Program.wp_bind ⟨halways _ still, ?_⟩
          rintro wall last ⟨clock, moved, rfl, rfl⟩
          have later := still.seeTime hnow moved
          refine ⟨halways _ later, ?_⟩
          dsimp only
          by_cases hfuture : found.time > clock.wall.value + clockSkewS
          · -- a stamp in the future
            rw [if_pos hfuture]
            refine Program.wp_bind ⟨halways _ later, ?_⟩
            rintro again last ⟨clock', moved', rfl, rfl⟩
            have latest := later.seeTime hnow moved'
            exact ⟨halways _ latest, halways _ latest, latest,
              Or.inr ⟨found, List.mem_cons_self, clock, assumptions.trans still.clock moved, hfuture⟩,
              _, rfl⟩
          · rw [if_neg hfuture]
            refine Program.wp_bind (Program.wp_mono (ih later) ?_ ?_)
            · rintro others last ⟨rfl, hcredible, hlast⟩
              exact ⟨halways _ hlast, rfl, List.forall_mem_cons.mpr ⟨credible, hcredible⟩, hlast⟩
            · rintro failure last ⟨hlast, hfault, hcause⟩
              exact ⟨hlast, hfault.cons, hcause⟩

/-- `_rebase` on a written ledger. -/
theorem wp_rebase (hnow : start.observed.now = some now)
    (hcompared : start.observed.compared = none) (content : Ledger) {store : Store}
    (still : Still assumptions start store)
    (halways : ∀ store compared, Kept assumptions start store compared → always store) :
    (rebase content.entries (some (.obj content.clock))).wp (environment assumptions) always
      (fun result last => ∃ compared, Kept assumptions start last compared ∧
        Rebased assumptions content store.clock last.clock compared result.1)
      (fun _ _ => False) store := by
  have hstore := halways store _ still
  by_cases hempty : content.entries.isEmpty = true
  · rw [rebase, if_pos hempty]
    refine ⟨hstore, none, still.kept hcompared, ?_⟩
    have hnil := List.isEmpty_iff.mp hempty
    simp only [hnil]
    exact .empty hnil
  rw [rebase, if_neg hempty]
  refine Program.wp_bind (wp_bootId hstore fun reply hboot => ?_)
  have hisBoot : isBoot content.clock (bootText reply) = (content.boot == bootText reply) := rfl
  have hwall : clockField content.clock "wall".toList =
      pure (some (.finite content.wall.value content.wall.inRange)) := rfl
  have hmono : clockField content.clock "monotonic".toList =
      pure (some (.finite content.monotonic.value content.monotonic.inRange)) := rfl
  rw [hisBoot, hwall, hmono]
  by_cases hsame : content.boot = bootText reply
  · -- the same boot
    rw [if_neg (by simpa using hsame)]
    refine Program.wp_bind ⟨hstore, Program.wp_bind ⟨hstore, Program.wp_bind ⟨hstore, ?_⟩⟩⟩
    rintro ⟨wall, mono⟩ last ⟨first, second, hfirst, hsecond, hreply, hsample, rfl⟩
    obtain ⟨rfl, rfl⟩ := Prod.mk.inj hreply
    have kept : Kept assumptions start
        (store.seeCompared second ⟨first.wall, second.monotonic⟩)
        (some ⟨first.wall, second.monotonic⟩) :=
      ⟨still.ledger, assumptions.trans still.clock (assumptions.trans hfirst hsecond), still.now,
        rfl, still.persisted⟩
    have hrebased : Rebased assumptions content store.clock second
        (some ⟨first.wall, second.monotonic⟩) _ :=
      .sameBoot hfirst hsecond hsample ⟨reply, hboot, hsame.symm⟩
    have hstep : (first.wall.value - content.wall.value) -
        (second.monotonic.value - content.monotonic.value) =
        Sample.offset ⟨first.wall, second.monotonic⟩ - content.sample.offset := by
      simp only [Sample.offset, Ledger.sample]
      ring
    refine ⟨halways _ _ kept, ?_⟩
    dsimp only [PyFloat.finite?]
    rw [hstep]
    by_cases hsmall : |Sample.offset ⟨first.wall, second.monotonic⟩ - content.sample.offset| ≤
        clockSkewS
    · rw [if_pos hsmall] at hrebased ⊢
      exact ⟨halways _ _ kept, _, kept, hrebased⟩
    · rw [if_neg hsmall] at hrebased ⊢
      exact ⟨halways _ _ kept, _, kept, hrebased⟩
  · -- another boot
    rw [if_pos (by simpa using hsame)]
    refine Program.wp_bind ⟨hstore, Program.wp_bind ⟨hstore, ?_⟩⟩
    rintro wall last ⟨clock, moved, rfl, rfl⟩
    have kept := (still.seeTime hnow moved).kept hcompared
    have hrebased : Rebased assumptions content store.clock clock none _ :=
      .otherBoot moved ⟨reply, hboot, Ne.symm hsame⟩
    refine ⟨halways _ _ kept, ?_⟩
    dsimp only [PyFloat.finite?]
    by_cases hlarge : clock.wall.value - content.wall.value > clockSkewS
    · rw [if_pos hlarge] at hrebased ⊢
      exact ⟨halways _ _ kept, _, kept, hrebased⟩
    · rw [if_neg hlarge] at hrebased ⊢
      exact ⟨halways _ _ kept, _, kept, hrebased⟩

/-- What `_read` takes of a ledger is not blank. -/
theorem Ledger.not_blank (content : Ledger) :
    isBlankText (content.text.take readLimit) = false := by
  obtain ⟨rest, hrest⟩ := content.text_head
  obtain ⟨less, hless⟩ : ∃ less, readLimit = less + 1 :=
    Nat.exists_eq_succ_of_ne_zero readLimit_pos.ne'
  rw [hrest, hless, List.take_succ_cons]
  rfl

/-- `_read` returns what the relation says, or raises for one of its causes. -/
theorem wp_read {owner : Instance} {firstUse : Bool} {ledger : Option Ledger}
    (hledger : start.ledger = ledger.map Ledger.text) (hnow : start.observed.now = some now)
    (hcompared : start.observed.compared = none)
    (halways : ∀ store compared, Kept assumptions start store compared → always store) :
    (read owner firstUse).wp (environment assumptions) always
      (fun found last => ∃ compared, Kept assumptions start last compared ∧
        Found assumptions firstUse ledger start.clock last.clock compared found)
      (fun failure last => ReadCause assumptions firstUse ledger start.clock failure ∧
        ∃ compared, Kept assumptions start last compared) start := by
  have still : Still assumptions start start := Still.refl start
  have hstart := halways start _ still
  refine Program.wp_bind ⟨hstart, ?_⟩
  rintro reply last ⟨hlast, hreply⟩
  subst last
  refine ⟨hstart, ?_⟩
  rcases hreply with ⟨hmissing, rfl⟩ | ⟨text, htext, rfl⟩ | ⟨hfails, rfl | rfl⟩
  · -- no ledger
    have hnone : ledger = none := Option.map_eq_none_iff.mp (hledger.symm.trans hmissing)
    cases firstUse with
    | true => exact ⟨hstart, none, still.kept hcompared, .fresh hnone rfl⟩
    | false => exact ⟨hstart, ⟨hnone, rfl⟩, _, still⟩
  · obtain ⟨content, hcontent, rfl⟩ := Option.map_eq_some_iff.mp (hledger.symm.trans htext)
    have hblank := content.not_blank
    dsimp only
    rw [hblank, if_neg Bool.false_ne_true]
    by_cases hshort : content.text.length ≤ readLimit
    · rw [List.take_of_length_le hshort, content.header_text]
      refine Program.wp_bind (Program.wp_mono
        (wp_readEntries hnow (fun store => halways store _) content.entries still) ?_ ?_)
      · rintro found last ⟨rfl, hcredible, hlast⟩
        refine Program.wp_bind (Program.wp_mono (wp_rebase hnow hcompared content hlast halways) ?_ ?_)
        · rintro ⟨rebased, changed⟩ final ⟨compared, hfinal, hrebased⟩
          have hkept : Kept assumptions start (final.setPending owner changed) compared :=
            ⟨hfinal.ledger, hfinal.clock, hfinal.now, hfinal.compared, hfinal.persisted⟩
          refine ⟨halways _ _ hfinal, ?_⟩
          rintro _ flagged rfl
          exact ⟨halways _ _ hkept, compared, hkept,
            .present hcontent hshort hcredible hlast.clock hrebased⟩
        · exact fun _ _ h => h.elim
      · rintro failure last ⟨hlast, hfault, cause, rfl⟩
        exact ⟨⟨content, hcontent, Or.inr hfault⟩, _, hlast⟩
    · rw [content.header_take_text firstUse readLimit_pos (not_le.mp hshort)]
      exact ⟨hstart, ⟨content, hcontent, Or.inl (not_le.mp hshort)⟩, _, still⟩
  · exact ⟨hstart, hfails, _, still⟩
  · exact ⟨hstart, hfails, _, still⟩

end Read

/-! ## Reserving -/

/-- A relation between the call's outcome and the ledger, clock and notes it leaves. -/
def Leaves (relation : Option Ledger → Clock → Observed → Prop) (store : Store) : Prop :=
  ∃ ledger : Option Ledger, store.ledger = ledger.map Ledger.text ∧
    relation ledger store.clock store.observed

section Reserve

variable {account : DutyAccount} {firstUse : Bool} {airtime : Decimal} {ledger : Option Ledger}
  {start now last : Clock} {compared : Option Sample} {entries : List Entry}

/-- The call has read the ledger and has not written it. -/
structure Unwritten (assumptions : Assumptions) (ledger : Option Ledger) (now last : Clock)
    (compared : Option Sample) (store : Store) : Prop where
  ledger : store.ledger = ledger.map Ledger.text
  clock : assumptions.advance last store.clock
  now : store.observed.now = some now
  compared : store.observed.compared = compared
  persisted : store.observed.persisted = none

/-- The call has put `content` in the ledger's place. -/
structure Rewritten (assumptions : Assumptions) (content : Ledger) (now last : Clock)
    (compared : Option Sample) (store : Store) : Prop where
  ledger : store.ledger = some content.text
  written : Written assumptions last content store.clock
  now : store.observed.now = some now
  compared : store.observed.compared = compared
  persisted : store.observed.persisted = some content.sample

theorem Written.later {content : Ledger} {finish clock : Clock}
    (written : Written assumptions last content finish) (moved : assumptions.advance finish clock) :
    Written assumptions last content clock := by
  obtain ⟨first, second, hfirst, hsecond, hfinish, hmono, hwall⟩ := written.clocks
  exact ⟨written.boot, written.sampled, first, second, hfirst, hsecond,
    assumptions.trans hfinish moved, hmono, hwall⟩

theorem Written.earlier {content : Ledger} {finish clock : Clock}
    (written : Written assumptions clock content finish) (moved : assumptions.advance last clock) :
    Written assumptions last content finish := by
  obtain ⟨first, second, hfirst, hsecond, hfinish, hmono, hwall⟩ := written.clocks
  exact ⟨written.boot, written.sampled, first, second, assumptions.trans moved hfirst, hsecond,
    hfinish, hmono, hwall⟩

theorem Written.advance {content : Ledger} {finish : Clock}
    (written : Written assumptions last content finish) : assumptions.advance last finish := by
  obtain ⟨first, second, hfirst, hsecond, hfinish, _⟩ := written.clocks
  exact assumptions.trans hfirst (assumptions.trans hsecond hfinish)

theorem Progress.advance {account : DutyAccount} {firstUse : Bool} {airtime : Decimal}
    {ledger left : Option Ledger} {start clock : Clock} {observed : Observed}
    (progress : Progress account assumptions firstUse airtime ledger start left clock observed) :
    assumptions.advance start clock := by
  cases progress with
  | untouched moved => exact moved
  | written began view wrote =>
      obtain ⟨found, hfound, _⟩ := view
      exact assumptions.trans began (assumptions.trans hfound.advance wrote.advance)

theorem Unwritten.still {store later : Store}
    (unwritten : Unwritten assumptions ledger now last compared store)
    (still : Still assumptions store later) :
    Unwritten assumptions ledger now last compared later :=
  ⟨still.ledger.trans unwritten.ledger, assumptions.trans unwritten.clock still.clock,
    still.now.trans unwritten.now, still.compared.trans unwritten.compared,
    still.persisted.trans unwritten.persisted⟩

theorem Rewritten.still {store later : Store} {content : Ledger}
    (rewritten : Rewritten assumptions content now last compared store)
    (still : Still assumptions store later) :
    Rewritten assumptions content now last compared later :=
  ⟨still.ledger.trans rewritten.ledger, rewritten.written.later still.clock,
    still.now.trans rewritten.now, still.compared.trans rewritten.compared,
    still.persisted.trans rewritten.persisted⟩

/-- Where the call stands before its decision: what it read, rewritten or not. -/
def Ready (assumptions : Assumptions) (ledger : Option Ledger) (entries : List Entry)
    (now last : Clock) (compared : Option Sample) (store : Store) : Prop :=
  Unwritten assumptions ledger now last compared store ∨
    ∃ content : Ledger, content.entries = entries ∧
      Rewritten assumptions content now last compared store

theorem Ready.still {store later : Store}
    (ready : Ready assumptions ledger entries now last compared store)
    (still : Still assumptions store later) :
    Ready assumptions ledger entries now last compared later := by
  rcases ready with unwritten | ⟨content, hentries, rewritten⟩
  · exact Or.inl (unwritten.still still)
  · exact Or.inr ⟨content, hentries, rewritten.still still⟩

theorem Ready.wrote {store later : Store} {written : List Entry} {content : Ledger}
    (ready : Ready assumptions ledger entries now last compared store)
    (wrote : Wrote assumptions written store later content) :
    Rewritten assumptions content now last compared later := by
  rcases ready with unwritten | ⟨_, _, rewritten⟩
  · exact ⟨wrote.ledger, wrote.written.earlier unwritten.clock, wrote.now.trans unwritten.now,
      wrote.compared.trans unwritten.compared, wrote.persisted⟩
  · exact ⟨wrote.ledger, wrote.written.earlier rewritten.written.advance,
      wrote.now.trans rewritten.now, wrote.compared.trans rewritten.compared, wrote.persisted⟩

theorem Rewritten.progress {store : Store} {content : Ledger} (began : assumptions.advance start now)
    (view : View account assumptions firstUse ledger now last compared entries)
    (rewritten : Rewritten assumptions content now last compared store)
    (recorded : content.entries = entries ∨
      (content.entries = entries ++ [⟨now.wall.value, airtime⟩] ∧
        Admits account entries now.wall.value airtime)) :
    Leaves (Progress account assumptions firstUse airtime ledger start) store :=
  ⟨some content, rewritten.ledger, .written began view rewritten.written rewritten.now
    rewritten.compared rewritten.persisted recorded⟩

theorem Ready.progress {store : Store} (began : assumptions.advance start now)
    (view : View account assumptions firstUse ledger now last compared entries)
    (ready : Ready assumptions ledger entries now last compared store) :
    Leaves (Progress account assumptions firstUse airtime ledger start) store := by
  rcases ready with unwritten | ⟨content, hentries, rewritten⟩
  · obtain ⟨found, hfound, _⟩ := view
    exact ⟨ledger, unwritten.ledger, .untouched
      (assumptions.trans began (assumptions.trans hfound.advance unwritten.clock))
      unwritten.persisted⟩
  · exact rewritten.progress began view (Or.inl hentries)

/-- The failed write of a call that had come as far as `store`. -/
theorem notWritten {store : Store}
    (progress : Leaves (Progress account assumptions firstUse airtime ledger start) store)
    (hbroken : Broken assumptions store) :
    Leaves (Ended account assumptions firstUse airtime ledger start (.error (.duty .notWritten)))
      store := by
  obtain ⟨left, hleft, progress⟩ := progress
  exact ⟨left, hleft, .failed progress (Or.inr ⟨rfl, hbroken.noted, hleft ▸ hbroken.permitted⟩)⟩

/-- A write of the entries the call decides on. -/
theorem wp_persist {owner : Instance} {store : Store} {post : Unit → Store → Prop}
    (began : assumptions.advance start now)
    (view : View account assumptions firstUse ledger now last compared entries)
    (ready : Ready assumptions ledger entries now last compared store)
    (h : ∀ later content, content.entries = entries →
      Rewritten assumptions content now last compared later → post () later) :
    (write owner entries).wp (environment assumptions)
      (Leaves (Progress account assumptions firstUse airtime ledger start)) post
      (fun failure =>
        Leaves (Ended account assumptions firstUse airtime ledger start (.error failure))) store := by
  refine wp_write (fun later still => (ready.still still).progress began view) ?_ ?_ ?_
  · intro later content wrote
    have rewritten := ready.wrote wrote
    exact ⟨rewritten.progress began view (Or.inl wrote.entries),
      h later content wrote.entries rewritten⟩
  · exact fun later hfailed still => notWritten ((ready.still still).progress began view) hfailed
  · exact fun later content hfailed wrote =>
      notWritten ((ready.wrote wrote).progress began view (Or.inl wrote.entries)) hfailed

/-- The decision and the reservation's own write. -/
theorem wp_decide {owner : Instance} {store : Store} (began : assumptions.advance start now)
    (view : View account assumptions firstUse ledger now last compared entries)
    (ready : Ready assumptions ledger entries now last compared store)
    (written : firstUse = true → ∃ content : Ledger, content.entries = entries ∧
      Rewritten assumptions content now last compared store) :
    (match refusal account entries now.wall.value airtime with
      | some reason => pure (.refused reason)
      | none => do
          write owner (entries ++ [⟨now.wall.value, airtime⟩])
          pure .granted : Account Verdict).wp (environment assumptions)
      (Leaves (Progress account assumptions firstUse airtime ledger start))
      (fun verdict => Leaves (Ended account assumptions firstUse airtime ledger start (.ok verdict)))
      (fun failure =>
        Leaves (Ended account assumptions firstUse airtime ledger start (.error failure))) store := by
  have hprogress : Leaves (Progress account assumptions firstUse airtime ledger start) store :=
    ready.progress began view
  cases hdecision : refusal account entries now.wall.value airtime with
  | some reason =>
      refine ⟨hprogress, ?_⟩
      have hrewritten : ∀ content : Ledger, content.entries = entries →
          Rewritten assumptions content now last compared store →
          Leaves (Ended account assumptions firstUse airtime ledger start (.ok (.refused reason)))
            store := fun content hentries rewritten =>
        ⟨some content, rewritten.ledger, .refused began view rewritten.written.advance rewritten.now
          rewritten.compared
          (Or.inr ⟨content, rfl, hentries, rewritten.written, rewritten.persisted⟩) hdecision⟩
      rcases ready with unwritten | ⟨content, hentries, rewritten⟩
      · cases hfirst : firstUse with
        | true =>
            obtain ⟨content, hentries, rewritten⟩ := written hfirst
            exact hfirst ▸ hrewritten content hentries rewritten
        | false =>
            rw [hfirst] at view
            exact ⟨ledger, unwritten.ledger, .refused began view unwritten.clock unwritten.now
              unwritten.compared (Or.inl ⟨rfl, rfl, unwritten.persisted⟩) hdecision⟩
      · exact hrewritten content hentries rewritten
  | none =>
      refine Program.wp_bind (wp_write
        (fun later still => (ready.still still).progress began view) ?_ ?_ ?_)
      · intro later content wrote
        have rewritten := ready.wrote wrote
        have hlater : Leaves (Progress account assumptions firstUse airtime ledger start) later :=
          rewritten.progress began view (Or.inr ⟨wrote.entries, hdecision⟩)
        exact ⟨hlater, hlater, some content, rewritten.ledger,
          .granted began view rewritten.written rewritten.now rewritten.compared
            rewritten.persisted wrote.entries hdecision⟩
      · exact fun later hfailed still => notWritten ((ready.still still).progress began view) hfailed
      · exact fun later content hfailed wrote => notWritten
          ((ready.wrote wrote).progress began view (Or.inr ⟨wrote.entries, hdecision⟩)) hfailed

/-- Persisting corrected stamps, then the decision. -/
theorem wp_settle {owner : Instance} {store : Store} (began : assumptions.advance start now)
    (view : View account assumptions firstUse ledger now last compared entries)
    (ready : Ready assumptions ledger entries now last compared store)
    (written : firstUse = true → ∃ content : Ledger, content.entries = entries ∧
      Rewritten assumptions content now last compared store) :
    (do
      if ← Os.pendingRebase owner then do
        write owner entries
        Os.setPendingRebase owner false
      match refusal account entries now.wall.value airtime with
      | some reason => pure (.refused reason)
      | none => do
          write owner (entries ++ [⟨now.wall.value, airtime⟩])
          pure .granted : Account Verdict).wp (environment assumptions)
      (Leaves (Progress account assumptions firstUse airtime ledger start))
      (fun verdict => Leaves (Ended account assumptions firstUse airtime ledger start (.ok verdict)))
      (fun failure =>
        Leaves (Ended account assumptions firstUse airtime ledger start (.error failure))) store := by
  have hprogress : Leaves (Progress account assumptions firstUse airtime ledger start) store :=
    ready.progress began view
  refine Program.wp_bind ⟨hprogress, ?_⟩
  rintro pending current ⟨_, hsame⟩
  subst current
  refine ⟨hprogress, ?_⟩
  dsimp only
  by_cases hpending : pending = true
  · rw [if_pos hpending]
    refine Program.wp_bind (wp_persist began view ready fun current content hentries rewritten => ?_)
    have hcurrent : Leaves (Progress account assumptions firstUse airtime ledger start) current :=
      rewritten.progress began view (Or.inl hentries)
    refine Program.wp_bind ⟨hcurrent, ?_⟩
    rintro _ flagged hflagged
    have hrewritten : Rewritten assumptions content now last compared flagged := by
      rw [show flagged = current.setPending owner false from hflagged]
      exact ⟨rewritten.ledger, rewritten.written, rewritten.now, rewritten.compared,
        rewritten.persisted⟩
    exact ⟨hrewritten.progress began view (Or.inl hentries),
      wp_decide began view (Or.inr ⟨content, hentries, hrewritten⟩)
        fun _ => ⟨content, hentries, hrewritten⟩⟩
  · rw [if_neg hpending]
    exact wp_decide began view ready written

/-- The program refines the relation: at every point where it can be killed it has
made some progress, and it ends as the relation says. -/
theorem wp_reserve (owner : Instance) {store : Store}
    (hledger : store.ledger = ledger.map Ledger.text) (hobserved : store.observed = Observed.none) :
    (reserve account owner firstUse airtime).wp (environment assumptions)
      (Leaves (Progress account assumptions firstUse airtime ledger store.clock))
      (fun verdict =>
        Leaves (Ended account assumptions firstUse airtime ledger store.clock (.ok verdict)))
      (fun failure =>
        Leaves (Ended account assumptions firstUse airtime ledger store.clock (.error failure)))
      store := by
  have hquiet : ∀ {later : Store}, later.ledger = store.ledger →
      assumptions.advance store.clock later.clock → later.observed.persisted = none →
      Leaves (Progress account assumptions firstUse airtime ledger store.clock) later :=
    fun hsame hmoved hpersisted => ⟨ledger, hsame.trans hledger, .untouched hmoved hpersisted⟩
  refine Program.wp_bind ⟨hquiet rfl (assumptions.refl _) (by rw [hobserved]; rfl), ?_⟩
  rintro reply began ⟨now, hbegan, rfl, rfl⟩
  have hnow : (store.seeTime now).observed.now = some now := by
    simp [Store.seeTime, hobserved, Observed.none]
  have hcompared : (store.seeTime now).observed.compared = none := by
    simp [Store.seeTime, hobserved, Observed.none]
  have hpersisted : (store.seeTime now).observed.persisted = none := by
    simp [Store.seeTime, hobserved, Observed.none]
  have halways : ∀ later compared, Kept assumptions (store.seeTime now) later compared →
      Leaves (Progress account assumptions firstUse airtime ledger store.clock) later :=
    fun later compared kept => hquiet kept.ledger (assumptions.trans hbegan kept.clock)
      (kept.persisted.trans hpersisted)
  refine ⟨halways _ _ (Still.refl _), ?_⟩
  refine Program.wp_bind (Program.wp_mono (wp_read hledger hnow hcompared halways) ?_ ?_)
  swap
  · rintro failure later ⟨hcause, compared, kept⟩
    have hquietLater := kept.persisted.trans hpersisted
    exact ⟨ledger, kept.ledger.trans hledger,
      .failed (.untouched (assumptions.trans hbegan kept.clock) hquietLater)
        (Or.inl ⟨hcause.earlier hbegan, rfl, hquietLater⟩)⟩
  rintro found later ⟨compared, kept, hfound⟩
  have view : View account assumptions firstUse ledger now later.clock compared
      (prune account now.wall.value found) := ⟨found, hfound, rfl⟩
  have unwritten : Unwritten assumptions ledger now later.clock compared later :=
    ⟨kept.ledger.trans hledger, assumptions.refl _, kept.now.trans hnow, kept.compared,
      kept.persisted.trans hpersisted⟩
  dsimp only
  generalize prune account now.wall.value found = entries at view ⊢
  by_cases hfirst : firstUse = true
  · rw [if_pos hfirst]
    refine Program.wp_bind (wp_persist hbegan view (Or.inl unwritten) ?_)
    exact fun current content hentries rewritten =>
      wp_settle hbegan view (Or.inr ⟨content, hentries, rewritten⟩)
        fun _ => ⟨content, hentries, rewritten⟩
  · rw [if_neg hfirst]
    exact wp_settle hbegan view (Or.inl unwritten) fun h => absurd h hfirst

end Reserve

/-- A status call: the ledger stays as it is. -/
def Looked (assumptions : Assumptions) (ledger : Option Ledger) (start : Clock) :
    Option Ledger → Clock → Observed → Prop :=
  fun left clock observed =>
    left = ledger ∧ assumptions.advance start clock ∧ observed.persisted = none

theorem wp_usage {account : DutyAccount} {ledger : Option Ledger} (owner : Instance) {store : Store}
    (hledger : store.ledger = ledger.map Ledger.text) (hobserved : store.observed = Observed.none) :
    (usage account owner).wp (environment assumptions)
      (Leaves (Looked assumptions ledger store.clock)) (fun _ _ => True) (fun _ _ => True) store := by
  have hlooked : ∀ {later : Store}, later.ledger = store.ledger →
      assumptions.advance store.clock later.clock → later.observed.persisted = none →
      Leaves (Looked assumptions ledger store.clock) later :=
    fun hsame hmoved hpersisted => ⟨ledger, hsame.trans hledger, rfl, hmoved, hpersisted⟩
  refine Program.wp_rescue (Program.wp_bind
    ⟨hlooked rfl (assumptions.refl _) (by rw [hobserved]; rfl), ?_⟩)
  rintro reply began ⟨now, hbegan, rfl, rfl⟩
  have hnow : (store.seeTime now).observed.now = some now := by
    simp [Store.seeTime, hobserved, Observed.none]
  have hcompared : (store.seeTime now).observed.compared = none := by
    simp [Store.seeTime, hobserved, Observed.none]
  have hpersisted : (store.seeTime now).observed.persisted = none := by
    simp [Store.seeTime, hobserved, Observed.none]
  have halways : ∀ later compared, Kept assumptions (store.seeTime now) later compared →
      Leaves (Looked assumptions ledger store.clock) later :=
    fun later compared kept => hlooked kept.ledger (assumptions.trans hbegan kept.clock)
      (kept.persisted.trans hpersisted)
  refine ⟨halways _ _ (Still.refl _), Program.wp_bind (Program.wp_mono
    (wp_read hledger hnow hcompared halways) ?_ ?_)⟩
  · rintro found later ⟨compared, kept, _⟩
    exact ⟨halways _ _ kept, trivial⟩
  · rintro failure later ⟨_, compared, kept⟩
    cases failure <;> exact ⟨halways _ _ kept, trivial⟩

end LorahamRns.Duty
