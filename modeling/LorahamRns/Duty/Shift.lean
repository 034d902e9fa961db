import LorahamRns.Duty.Earlier

/-!
# Shifted once

`_rebase` computes its step on every read, and only some calls write what it returns.
The stamps on disk move in one of the calls of a run at most: whoever persists a shift
leaves evidence of this boot, and from there on nothing moves.
-/

namespace LorahamRns.Duty

open LorahamRns.Lib

variable {account : DutyAccount} {offset : Decimal} {boot : Option (List Char)}

/-! ## The entries on disk -/

/-- The entries a ledger text holds. -/
def decode (text : List Char) : Option (List Entry) :=
  match header false text with
  | .ok (items, _) => items.mapM fun item => (entryOf item).toOption
  | .error _ => none

theorem decode_text {content : Ledger} (credible : ∀ entry ∈ content.entries, entry.Credible) :
    decode content.text = some content.entries := by
  have items : ∀ entries : List Entry, (∀ entry ∈ entries, entry.Credible) →
      (entries.map Entry.json).mapM (fun item => (entryOf item).toOption) = some entries := by
    intro entries h
    induction entries with
    | nil => rfl
    | cons entry rest ih =>
        obtain ⟨hentry, hrest⟩ := List.forall_mem_cons.mp h
        rw [List.map_cons, List.mapM_cons, hentry.entryOf, ih hrest]
        rfl
  rw [decode, content.header_text]
  exact items content.entries credible

/-- What is on disk in a world. -/
def World.entries (world : World) : List Entry := (world.store.ledger.bind decode).getD []

theorem World.entries_eq {world : World} {content : Ledger}
    (onDisk : world.store.ledger = some content.text)
    (credible : ∀ entry ∈ content.entries, entry.Credible) : world.entries = content.entries := by
  rw [entries, onDisk, Option.bind_some, decode_text credible, Option.getD_some]

/-- The grants made between two worlds of a run. -/
def World.grantsUntil (before after : World) : List Entry :=
  grants (after.history.drop before.history.length)

theorem World.grantsUntil_eq {before after : World} {since : List Record}
    (h : after.history = before.history ++ since) : before.grantsUntil after = grants since := by
  rw [grantsUntil, h, List.drop_left]

/-- What the calls in between have left is not what they found with old entries dropped
and their grants appended. -/
def World.PersistsShift (before after : World) : Prop :=
  ∀ cut, after.entries ≠ young cut (before.entries ++ before.grantsUntil after)

/-- The store of a call that takes the lock in this world and has made its first reading. -/
def World.Reads (offset : Decimal) (boot : Option (List Char)) (world : World) (store : Store) :
    Prop :=
  ∃ now, (Assumptions.level offset boot).advance world.store.clock now ∧
    store = Store.seeTime { world.store with observed := .none } now

/-- Whatever `_read` returns is this, and it returns unless the file is longer than it
reads. -/
def Returns (offset : Decimal) (boot : Option (List Char)) (entries : List Entry) (store : Store) :
    Prop :=
  ∀ owner firstUse, (read owner firstUse).wp (environment (.level offset boot)) (fun _ => True)
    (fun found _ => found = entries)
    (fun _ _ => ∃ text, store.ledger = some text ∧ readLimit < text.length) store

/-- Nothing is older than the cut, where it is low enough. -/
theorem exists_young_eq (entries : List Entry) : ∃ cut, young cut entries = entries := by
  induction entries with
  | nil => exact ⟨0, rfl⟩
  | cons entry rest ih =>
      obtain ⟨cut, hcut⟩ := ih
      have keeps : ∀ other ∈ rest, cut < other.time := fun other hother =>
        of_decide_eq_true (List.filter_eq_self.mp hcut other hother)
      refine ⟨min cut (entry.time - 1), List.filter_eq_self.mpr fun other hother => ?_⟩
      rcases List.mem_cons.mp hother with rfl | hother
      · have below : other.time - 1 < other.time := sub_lt_self _ (by norm_num)
        exact decide_eq_true (lt_of_le_of_lt (min_le_right _ _) below)
      · exact decide_eq_true (lt_of_le_of_lt (min_le_left _ _) (keeps other hother))

/-! ## One shift -/

/-- A ledger of this boot as the base of what follows. -/
theorem Since.resume {base granted : List Entry} {current : Ledger} {clock : Clock}
    (since : Since account offset boot base granted current clock) :
    Since account offset boot current.entries [] current clock := by
  obtain ⟨cut, hcut, hentries⟩ := since.entries
  refine ⟨since.sameBoot, since.sampled, since.credible, cut, hcut, ?_⟩
  rw [List.append_nil, hentries, young_young le_rfl]

/-- A world whose ledger is of this boot. -/
def World.OfThisBoot (account : DutyAccount) (offset : Decimal) (boot : Option (List Char))
    (world : World) : Prop :=
  world.Stands (fun granted ledger clock =>
    ∃ current, ledger = some current ∧ Since account offset boot world.entries granted current clock) []

theorem Since.ofThisBoot {base granted : List Entry} {current : Ledger} {world : World}
    (since : Since account offset boot base granted current world.store.clock)
    (free : world.holder = none) (onDisk : world.store.ledger = some current.text) :
    world.OfThisBoot account offset boot := by
  refine ⟨free, some current, onDisk, current, rfl, ?_⟩
  rw [World.entries_eq onDisk since.credible]
  exact since.resume

/-- From a ledger of this boot on: old entries are dropped and grants appended. -/
theorem World.OfThisBoot.run {before after : World} {trace : List Label}
    (h : before.OfThisBoot account offset boot)
    (run : (resumed account offset boot (· = before)).Run after trace) (free : after.holder = none) :
    ∃ current, after.store.ledger = some current.text ∧ Since account offset boot before.entries
      (before.grantsUntil after) current after.store.clock := by
  obtain ⟨since, hhistory, _, ledger, hledger, current, rfl, hsince⟩ :=
    (Since.lasting before.entries).run (fun world same => by subst same; exact ⟨rfl, h⟩) run free
  rw [World.grantsUntil_eq hhistory]
  exact ⟨current, hledger, hsince⟩

/-- No stamp moves any more. -/
theorem World.OfThisBoot.not_shift {before after : World} {trace : List Label}
    (h : before.OfThisBoot account offset boot)
    (run : (resumed account offset boot (· = before)).Run after trace) (free : after.holder = none) :
    ¬before.PersistsShift after ∧ after.OfThisBoot account offset boot := by
  obtain ⟨current, onDisk, since⟩ := h.run run free
  refine ⟨fun shifts => ?_, since.ofThisBoot free onDisk⟩
  obtain ⟨cut, _, hentries⟩ := since.entries
  refine shifts cut ?_
  rw [World.entries_eq onDisk since.credible, hentries]

/-- Calls that persist a shift leave a ledger of this boot and of the past. -/
theorem World.Stands.shifted {content : Ledger} {before after : World} {granted : List Entry}
    {trace : List Label} (stands : before.Stands (Fate account offset boot content) granted)
    (run : (resumed account offset boot (· = before)).Run after trace) (free : after.holder = none)
    (shifts : before.PersistsShift after) :
    after.Stands (fun granted ledger clock => ∃ current, ledger = some current ∧
      Duty.Settled account offset boot after.entries granted current clock) [] := by
  obtain ⟨hfree, ledger, hledger, fate⟩ := stands
  have resumes {base : List Entry} {current : Ledger}
      (since : Since account offset boot base granted current before.store.clock)
      (onDisk : before.store.ledger = some current.text) : False :=
    ((since.ofThisBoot hfree onDisk).not_shift run free).1 shifts
  generalize hclock : before.store.clock = clock at fate
  cases fate with
  | kept since => exact (resumes (hclock ▸ since) hledger).elim
  | moved settled => exact (resumes (hclock ▸ settled.toSince) hledger).elim
  | untouched left nothing =>
      subst hclock nothing
      have initial : ∀ world, world = before →
          world.history = before.history ∧ world.Stands (Fate account offset boot content) [] := by
        rintro world rfl
        exact ⟨rfl, hfree, some content, hledger, .untouched left rfl⟩
      obtain ⟨since, hhistory, _, left', hleft, fate⟩ := (Fate.lasting content).run initial run free
      have hbefore := World.entries_eq hledger left.credible
      have hgrants := World.grantsUntil_eq hhistory
      generalize hclock : after.store.clock = clock at fate
      rw [List.nil_append] at fate
      cases fate with
      | untouched left nothing =>
          obtain ⟨cut, hcut⟩ := exists_young_eq content.entries
          refine absurd ?_ (shifts cut)
          rw [hgrants, nothing, List.append_nil, hbefore, hcut]
          exact World.entries_eq hleft left.credible
      | kept since =>
          obtain ⟨cut, _, hentries⟩ := since.entries
          refine absurd ?_ (shifts cut)
          rw [hgrants, hbefore, ← hentries]
          exact World.entries_eq hleft since.credible
      | @moved base current _ settled =>
          subst hclock
          have hentries := World.entries_eq hleft settled.credible
          refine ⟨free, some current, hleft, current, rfl, ?_⟩
          rw [hentries]
          refine ⟨settled.toSince.resume, fun entry hentry => ?_⟩
          rw [List.append_nil] at hentry
          obtain ⟨cut, _, hyoung⟩ := settled.entries
          rw [hyoung] at hentry
          exact settled.past entry (List.mem_filter.mp hentry).1

/-- A ledger of this boot and of the past is read as it is. -/
theorem Settled.returns {base granted : List Entry} {current : Ledger} {world : World}
    {store : Store} (settled : Settled account offset boot base granted current world.store.clock)
    (onDisk : world.store.ledger = some current.text) (reads : world.Reads offset boot store) :
    Returns offset boot current.entries store := by
  obtain ⟨now, moved, rfl⟩ := reads
  have hledger : (Store.seeTime { world.store with observed := .none } now).ledger =
      (some current).map Ledger.text := onDisk
  intro owner firstUse
  refine Program.wp_mono (wp_read hledger rfl rfl fun _ _ _ => trivial) ?_ ?_
  · rintro found last ⟨compared, _, hfound⟩
    exact settled.toSince.found hfound
  · rintro failure last ⟨cause, _⟩
    unfold ReadCause at cause
    split at cause
    · exact nomatch cause.1
    · exact cause.elim
    · exact cause.elim
    · obtain ⟨content, hcontent, hlong | ⟨entry, hentry, hbad⟩ | ⟨entry, hentry, clock, later, hfuture⟩⟩ :=
        cause
      · obtain rfl := Option.some.inj hcontent
        exact ⟨current.text, onDisk, hlong⟩
      · obtain rfl := Option.some.inj hcontent
        exact absurd (settled.credible entry hentry) hbad
      · obtain rfl := Option.some.inj hcontent
        obtain ⟨cut, _, hentries⟩ := settled.entries
        rw [hentries] at hentry
        have hpast := settled.past entry (List.mem_filter.mp hentry).1
        have hnow := level_wall ((Assumptions.level offset boot).trans moved later)
        linarith [clockSkewS_nonneg]
    · exact cause.elim

end LorahamRns.Duty
