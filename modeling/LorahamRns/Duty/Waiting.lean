import LorahamRns.Duty.Earlier
import LorahamRns.Duty.Untrusted

/-!
# Waiting for the allowance

The same state on disk read at two instants of one boot.  Entries age while a packet is
held back, unless the wall clock passes the tolerated lead over evidence of another boot in
between: from then on the stamps are moved forward.
-/

namespace LorahamRns.Duty

open LorahamRns.Lib

/-- A later instant of the same boot: both clocks have advanced by the same amount, the
disk is as it was. -/
structure Instant.Later (first second : Instant) : Prop where
  ledger : second.ledger = first.ledger
  boot : second.boot = first.boot
  forward : first.wall.value ≤ second.wall.value
  together : second.wall.value - first.wall.value =
    second.monotonic.value - first.monotonic.value

/-- The clock evidence is of another boot, and the wall clock, ahead of it at the first
instant, passes the tolerated lead before the second. -/
def Instant.Crosses (first second : Instant) (firstUse : Bool) : Prop :=
  ∃ entries clock wall, first.filed firstUse = .ok (entries, some (.obj clock)) ∧ entries ≠ [] ∧
    isBoot clock first.bootText = false ∧ numberIn clock "wall" = some wall ∧
    0 < first.wall.value - wall ∧ first.wall.value - wall ≤ clockSkewS ∧
    clockSkewS < second.wall.value - wall

/-- A lock file that is missing makes the call a first use. -/
def LockFile.isFirstUse : LockFile → Bool
  | .absent => true
  | _ => false

/-- An admissible reservation stays admissible while it waits, and so do smaller ones. -/
def Instant.StaysAdmissible (first second : Instant) (flags : Instance → Bool)
    (account : DutyAccount) (owner : Instance) (lock : LockFile) : Prop :=
  ∀ airtime smaller, 0 < smaller → smaller ≤ airtime →
    (first.run (reserveCall account owner airtime lock) flags).1 = .ok .granted →
    (second.run (reserveCall account owner smaller lock) flags).1 = .ok .granted

variable {first second : Instant}

/-! ## What a later reader finds -/

theorem Instant.Later.stamps (later : first.Later second) {items : List Json}
    {entries : List Entry} (h : first.stamps items = .ok entries) :
    second.stamps items = .ok entries := by
  induction items generalizing entries with
  | nil => exact h
  | cons item rest ih =>
      unfold Instant.stamps at h ⊢
      cases taken : entryOf item with
      | error fault =>
          rw [taken] at h
          cases h
      | ok entry =>
          rw [taken] at h
          dsimp only at h ⊢
          by_cases future : entry.time > first.wall.value + clockSkewS
          · rw [if_pos future] at h
            cases h
          · have past : ¬ entry.time > second.wall.value + clockSkewS :=
              not_lt.mpr ((not_lt.mp future).trans (add_le_add_left later.forward clockSkewS))
            rw [if_neg future] at h
            rw [if_neg past]
            cases behind : first.stamps rest with
            | error failure =>
                rw [behind] at h
                cases h
            | ok others =>
                rw [behind] at h
                rw [ih behind]
                exact h

theorem Instant.Later.filed (later : first.Later second) {firstUse : Bool}
    {found : List Entry × Option Json} (h : first.filed firstUse = .ok found) :
    second.filed firstUse = .ok found := by
  unfold Instant.filed at h ⊢
  rw [later.ledger]
  cases ledger : first.ledger with
  | missing =>
      rw [ledger] at h
      exact h
  | fault =>
      rw [ledger] at h
      exact h
  | notRegular =>
      rw [ledger] at h
      exact h
  | content raw =>
      rw [ledger] at h
      dsimp only at h ⊢
      split at h
      · cases h
      · rename_i shown
        rw [if_neg shown]
        cases decoded : header firstUse (raw.take readLimit) with
        | error fault =>
            rw [decoded] at h
            cases h
        | ok parts =>
            obtain ⟨items, clock⟩ := parts
            rw [decoded] at h
            dsimp only at h ⊢
            cases stamped : first.stamps items with
            | error failure =>
                rw [stamped] at h
                cases h
            | ok entries =>
                rw [stamped] at h
                rw [later.stamps stamped]
                exact h

/-- The number behind a field that was read. -/
theorem numberIn_of_ok {clock : List (List Char × Json)} {key : String} {field : Option PyFloat}
    (h : Instant.fieldOf clock key.toList = .ok field) :
    field.bind PyFloat.finite? = numberIn clock key := by
  cases field with
  | none => exact (not_converts_of_none h).2.symm
  | some float => exact (converts_of_ok h).2.symm

/-- Under evidence of this boot the stamps are moved by the same amount. -/
theorem Instant.Later.step_same (later : first.Later second) {clock : List (List Char × Json)}
    (same : isBoot clock first.bootText = true) : second.step clock = first.step clock := by
  have boot : second.bootText = first.bootText := by
    rw [bootText, bootText, later.boot]
  have advance (wall mono : Decimal) :
      (second.wall.value - wall) - (second.monotonic.value - mono) =
        (first.wall.value - wall) - (first.monotonic.value - mono) := by
    have together := later.together
    linear_combination together
  unfold Instant.step
  simp only [boot, same, advance, Bool.not_true, Bool.false_eq_true, if_false]

/-- Under evidence of another boot they are moved by the lead over it, or not at all. -/
theorem Instant.step_other {instant : Instant} {clock : List (List Char × Json)}
    {moved : Option Decimal} (other : isBoot clock instant.bootText = false)
    (h : instant.step clock = .ok moved) :
    moved = (numberIn clock "wall").bind fun wall =>
      if instant.wall.value - wall > clockSkewS then some (instant.wall.value - wall)
      else none := by
  unfold Instant.step at h
  rw [other, Bool.not_false, if_pos rfl] at h
  cases field : fieldOf clock "wall".toList with
  | error failure =>
      rw [field] at h
      cases h
  | ok found =>
      rw [field] at h
      dsimp only at h
      rw [numberIn_of_ok field] at h
      cases number : numberIn clock "wall" with
      | none =>
          rw [number] at h
          cases h
          rfl
      | some wall =>
          rw [number] at h
          dsimp only at h
          rw [Option.bind_some]
          split at h
          · rename_i lead
            cases h
            rw [if_pos lead]
          · rename_i lead
            cases h
            rw [if_neg lead]

/-- Whether `_rebase` raises does not depend on the instant. -/
theorem Instant.Later.step_ok (later : first.Later second) {clock : List (List Char × Json)}
    {moved : Option Decimal} (other : isBoot clock first.bootText = false)
    (h : first.step clock = .ok moved) : ∃ moved, second.step clock = .ok moved := by
  have boot : second.bootText = first.bootText := by
    rw [bootText, bootText, later.boot]
  unfold Instant.step at h ⊢
  rw [boot]
  rw [other, Bool.not_false, if_pos rfl] at h ⊢
  cases field : fieldOf clock "wall".toList with
  | error failure =>
      rw [field] at h
      cases h
  | ok found =>
      dsimp only
      cases found.bind PyFloat.finite? with
      | none => exact ⟨_, rfl⟩
      | some wall =>
          dsimp only
          split
          · exact ⟨_, rfl⟩
          · exact ⟨_, rfl⟩

/-- Relative to the moved stamps the later instant is later. -/
theorem Instant.Later.step (later : first.Later second) {clock : List (List Char × Json)}
    {moved : Option Decimal} (h : first.step clock = .ok moved)
    (notCrossed : isBoot clock first.bootText = false → ∀ wall, numberIn clock "wall" = some wall →
      0 < first.wall.value - wall → first.wall.value - wall ≤ clockSkewS →
      second.wall.value - wall ≤ clockSkewS) :
    ∃ again, second.step clock = .ok again ∧
      first.wall.value - moved.getD 0 ≤ second.wall.value - again.getD 0 := by
  cases same : isBoot clock first.bootText with
  | true =>
      exact ⟨moved, (later.step_same same).trans h, sub_le_sub_right later.forward _⟩
  | false =>
      obtain ⟨again, hagain⟩ := later.step_ok same h
      have boot : isBoot clock second.bootText = false := by
        rw [← same, Instant.bootText, Instant.bootText, later.boot]
      refine ⟨again, hagain, ?_⟩
      rw [Instant.step_other same h, Instant.step_other boot hagain]
      have forward := later.forward
      cases number : numberIn clock "wall" with
      | none => exact sub_le_sub_right forward 0
      | some wall =>
          rw [Option.bind_some, Option.bind_some]
          by_cases lead : first.wall.value - wall > clockSkewS
          · have longer : second.wall.value - wall > clockSkewS :=
              lt_of_lt_of_le lead (sub_le_sub_right forward wall)
            rw [if_pos lead, if_pos longer, Option.getD_some, Option.getD_some]
            linarith
          · rw [if_neg lead]
            by_cases longer : second.wall.value - wall > clockSkewS
            · have behind : first.wall.value - wall ≤ 0 := by
                by_contra ahead
                exact absurd longer (not_lt.mpr
                  (notCrossed same wall number (not_le.mp ahead) (not_lt.mp lead)))
              rw [if_pos longer, Option.getD_some, Option.getD_none]
              linarith
            · rw [if_neg longer]
              exact sub_le_sub_right forward 0

/-! ## The decision -/

/-- Both readers hold the same charges, the second one not nearer to them. -/
def Aging (first second : Instant) (before after : List Entry) : Prop :=
  ∃ (base : List Entry) (early late : Decimal), before = base.map (Entry.shift early) ∧
    after = base.map (Entry.shift late) ∧
    first.wall.value - early ≤ second.wall.value - late ∧ ∀ entry ∈ base, 0 < entry.airtime

theorem shift_zero (entries : List Entry) : entries.map (Entry.shift 0) = entries := by
  refine (List.map_congr_left fun entry _ => ?_).trans (List.map_id entries)
  rw [Entry.shift, add_zero]
  rfl

/-- What `_rebase` returns is the entries moved by its step. -/
theorem Instant.rebased_shift {instant : Instant} {entries : List Entry}
    {clock : List (List Char × Json)} {moved : Option Decimal} (nonempty : entries ≠ [])
    (h : instant.step clock = .ok moved) :
    (instant.rebased entries (some (.obj clock))).map Prod.fst =
      .ok (entries.map (Entry.shift (moved.getD 0))) := by
  have shown : entries.isEmpty = false := by
    cases entries with
    | nil => exact absurd rfl nonempty
    | cons => rfl
  unfold Instant.rebased
  dsimp only
  rw [shown, if_neg Bool.false_ne_true, h]
  cases moved with
  | none =>
      rw [Option.getD_none, shift_zero]
      rfl
  | some step => rfl

theorem Instant.rebased_kept {instant : Instant} {entries : List Entry} {clock : Option Json}
    (kept : entries = [] ∨ ∀ fields, clock ≠ some (.obj fields)) :
    (instant.rebased entries clock).map Prod.fst = .ok entries := by
  unfold Instant.rebased
  split
  · rename_i fields
    rcases kept with rfl | other
    · rfl
    · exact absurd rfl (other fields)
  · rfl

/-- A later reader finds the same entries, aged. -/
theorem Instant.Later.found (later : first.Later second) {firstUse : Bool} {before : List Entry}
    (h : first.found firstUse = .ok before) (notCrossed : ¬ first.Crosses second firstUse) :
    ∃ after, second.found firstUse = .ok after ∧ Aging first second before after := by
  unfold Instant.found at h ⊢
  cases filed : first.filed firstUse with
  | error failure =>
      rw [filed] at h
      cases h
  | ok found =>
      obtain ⟨entries, clock⟩ := found
      have positive : ∀ entry ∈ entries, 0 < entry.airtime := fun entry member =>
        (first.filed_credible filed entry member).positive
      rw [filed] at h
      rw [later.filed filed]
      dsimp only at h ⊢
      by_cases kept : entries = [] ∨ ∀ fields, clock ≠ some (.obj fields)
      · rw [Instant.rebased_kept kept] at h ⊢
        cases h
        exact ⟨before, rfl, before, 0, 0, (shift_zero before).symm, (shift_zero before).symm,
          sub_le_sub_right later.forward 0, positive⟩
      · simp only [not_or, not_forall, not_not] at kept
        obtain ⟨nonempty, fields, rfl⟩ := kept
        cases stepped : first.step fields with
        | error failure =>
            have shown : entries.isEmpty = false := by
              cases entries with
              | nil => exact absurd rfl nonempty
              | cons => rfl
            unfold Instant.rebased at h
            dsimp only at h
            rw [shown, if_neg Bool.false_ne_true, stepped] at h
            cases h
        | ok moved =>
            have still (other : isBoot fields first.bootText = false) (wall : Decimal)
                (number : numberIn fields "wall" = some wall)
                (ahead : 0 < first.wall.value - wall)
                (tolerated : first.wall.value - wall ≤ clockSkewS) :
                second.wall.value - wall ≤ clockSkewS := by
              by_contra passed
              exact notCrossed ⟨entries, fields, wall, filed, nonempty, other, number, ahead,
                tolerated, not_le.mp passed⟩
            obtain ⟨again, stepped', aged⟩ := later.step stepped still
            rw [Instant.rebased_shift nonempty stepped] at h
            rw [Instant.rebased_shift nonempty stepped']
            cases h
            exact ⟨_, rfl, entries, _, _, rfl, rfl, aged, positive⟩

/-- Aging entries use no more of a window. -/
theorem Aging.used {before after : List Entry} (aged : Aging first second before after)
    (window : Decimal) :
    (used after window second.wall.value).val ≤ (used before window first.wall.value).val := by
  obtain ⟨base, early, late, rfl, rfl, nearer, positive⟩ := aged
  have nonneg : Charge.Nonneg (charges base) := charges_nonneg fun entry member =>
    (positive entry member).le
  have nearer' : first.wall.value.val - early.val ≤ second.wall.value.val - late.val := nearer
  rw [used_val, used_val, charges_shift, charges_shift, Charge.since_shift, Charge.since_shift]
  refine Charge.since_antitone nonneg ?_
  linarith

theorem Aging.used_nonneg {before after : List Entry} (aged : Aging first second before after)
    (window now : Decimal) : 0 ≤ (Duty.used after window now).val := by
  obtain ⟨base, early, late, rfl, rfl, _, positive⟩ := aged
  have nonneg : Charge.Nonneg (charges base) := charges_nonneg fun entry member =>
    (positive entry member).le
  rw [used_val, charges_shift]
  exact Charge.total_nonneg ((nonneg.shift _).of_sublist List.filter_sublist)

/-- The limits let through of aged entries whatever they let through before. -/
theorem Aging.admits {account : DutyAccount} {before after : List Entry} {airtime smaller : Decimal}
    (aged : Aging first second before after) (less : smaller ≤ airtime)
    (h : refusal account (prune account first.wall.value before) first.wall.value airtime = none) :
    refusal account (prune account second.wall.value after) second.wall.value smaller = none := by
  have less' : smaller.val ≤ airtime.val := less
  have short := aged.used account.shortWindow
  have long := aged.used account.longWindow
  have nonneg := aged.used_nonneg account.shortWindow second.wall.value
  rw [refusal_none_iff, ← used_val, ← used_val, used_prune account _ account.ordered,
    used_prune account _ le_rfl] at h ⊢
  obtain ⟨burst, legal⟩ := h
  refine ⟨?_, by linarith⟩
  rcases burst with empty | within
  · exact Or.inl (short.trans empty)
  · exact Or.inr (by linarith)

/-- Waiting never makes an admissible packet inadmissible, unless the clock passes the
tolerated lead over evidence of another boot while it waits. -/
theorem waiting_keeps_admissible (later : first.Later second) (lock : LockFile)
    (notCrossed : ¬ first.Crosses second lock.isFirstUse) (flags : Instance → Bool)
    (account : DutyAccount) (owner : Instance) :
    first.StaysAdmissible second flags account owner lock := by
  intro airtime smaller _ less granted
  have decides (instant : Instant) (seconds : Decimal) (firstUse : Bool) :=
    instant.run_reserve flags account owner firstUse seconds
  have held (firstUse : Bool) (notCrossed : ¬ first.Crosses second firstUse)
      (granted : (first.run (reserve account owner firstUse airtime) flags).1 = .ok .granted) :
      (second.run (reserve account owner firstUse smaller) flags).1 = .ok .granted := by
    rw [decides] at granted ⊢
    cases found : first.found firstUse with
    | error failure =>
        rw [found] at granted
        cases granted
    | ok before =>
        obtain ⟨after, found', aged⟩ := later.found found notCrossed
        rw [found] at granted
        rw [found']
        cases decided : refusal account (prune account first.wall.value before) first.wall.value
            airtime with
        | some reason =>
            simp only [Except.map, decided] at granted
            cases granted
        | none => simp only [Except.map, aged.admits less decided]
  cases lock with
  | present => exact held false notCrossed granted
  | absent => exact held true notCrossed granted
  | unopenable => cases granted

/-! ## A packet held back across the lead -/

/-- A written ledger on disk. -/
theorem Instant.filed_text {instant : Instant} {ledger : Ledger} {firstUse : Bool}
    (onDisk : instant.ledger = .content ledger.text) (short : ledger.text.length ≤ readLimit)
    (credible : ∀ entry ∈ ledger.entries, entry.Credible)
    (past : ∀ entry ∈ ledger.entries, entry.time ≤ instant.wall.value + clockSkewS) :
    instant.filed firstUse = .ok (ledger.entries, some (.obj ledger.clock)) := by
  have stamps (entries : List Entry) (credible : ∀ entry ∈ entries, entry.Credible)
      (past : ∀ entry ∈ entries, entry.time ≤ instant.wall.value + clockSkewS) :
      instant.stamps (entries.map Entry.json) = .ok entries := by
    induction entries with
    | nil => rfl
    | cons entry rest ih =>
        obtain ⟨own, others⟩ := List.forall_mem_cons.mp credible
        obtain ⟨early, earlier⟩ := List.forall_mem_cons.mp past
        rw [List.map_cons, Instant.stamps, own.entryOf]
        dsimp only
        rw [if_neg (not_lt.mpr early), ih others earlier]
  have shown : isBlankText ledger.text = false := by
    obtain ⟨rest, opens⟩ := ledger.text_head
    rw [opens]
    rfl
  unfold Instant.filed
  rw [onDisk]
  dsimp only
  rw [List.take_of_length_le short, shown, if_neg Bool.false_ne_true, ledger.header_text]
  dsimp only
  rw [stamps ledger.entries credible past]

/-- A reader of the next boot at a given second of the wall clock. -/
def readerAt (wall : ℕ) : Instant :=
  ⟨(clockAt wall (wall - 100)).wall, (clockAt wall (wall - 100)).monotonic, none,
    .content (earlierLedger 90 1).text⟩

section Reader

variable {wall : ℕ}

theorem readerAt_clocks (late : 100 ≤ wall) (small : wall ≤ 10000) :
    (readerAt wall).wall.value = wall ∧ (readerAt wall).monotonic.value = wall - 100 := by
  have late' : (100 : Decimal) ≤ wall := by exact_mod_cast late
  have bound : |((wall : Decimal)).val| ≤ 10 ^ 9 := by
    have : (wall : ℚ) ≤ 10000 := by exact_mod_cast small
    rw [Decimal.coe_natCast, abs_of_nonneg (Nat.cast_nonneg _)]
    linarith
  have boundMono : |((wall : Decimal) - 100).val| ≤ 10 ^ 9 := by
    have high : (wall : ℚ) ≤ 10000 := by exact_mod_cast small
    have low : (100 : ℚ) ≤ wall := by exact_mod_cast late
    have value : ((wall : Decimal) - 100).val = (wall : ℚ) - 100 := by
      rw [AddSubgroupClass.coe_sub, Decimal.coe_natCast, Decimal.coe_ofNat]
    rw [value, abs_of_nonneg (by linarith)]
    linarith
  exact ⟨readingOf_value (Nat.cast_nonneg _) bound,
    readingOf_value (sub_nonneg.mpr late') boundMono⟩

theorem readerAt_filed (late : 100 ≤ wall) (small : wall ≤ 10000) :
    (readerAt wall).filed false =
      .ok ((earlierLedger 90 1).entries, some (.obj (earlierLedger 90 1).clock)) := by
  refine Instant.filed_text rfl (earlierLedger_size (by norm_num) (by norm_num))
    (earlierLedger_credible (by norm_num) (by norm_num) (by norm_num)) fun entry member => ?_
  rw [List.mem_singleton.mp member, (readerAt_clocks late small).1]
  have late' : (100 : Decimal) ≤ wall := by exact_mod_cast late
  have early : ((90 : ℕ) : Decimal) ≤ 100 := by norm_num
  exact early.trans (late'.trans (le_add_of_nonneg_right clockSkewS_nonneg))

/-- The stamp is taken as it is, or moved by the lead over the evidence. -/
theorem readerAt_found (late : 100 ≤ wall) (small : wall ≤ 10000) :
    (readerAt wall).found false = .ok
      (if (wall : Decimal) - 100 > clockSkewS then [⟨90 + ((wall : Decimal) - 100), 1⟩]
      else [⟨90, 1⟩]) := by
  have step : (readerAt wall).step (earlierLedger 90 1).clock = .ok
      (if (wall : Decimal) - 100 > clockSkewS then some ((wall : Decimal) - 100) else none) := by
    have field : Instant.fieldOf (earlierLedger 90 1).clock "wall".toList =
        .ok (some (.finite (earlierLedger 90 1).wall.value (earlierLedger 90 1).wall.inRange)) := rfl
    have other : isBoot (earlierLedger 90 1).clock (readerAt wall).bootText = false := rfl
    unfold Instant.step
    rw [other, Bool.not_false, if_pos rfl, field]
    dsimp only
    rw [Option.bind_some, PyFloat.finite?, earlierLedger_wall, (readerAt_clocks late small).1]
    dsimp only
    split <;> rfl
  unfold Instant.found
  rw [readerAt_filed late small]
  dsimp only
  have nonempty : (earlierLedger 90 1).entries ≠ [] := List.cons_ne_nil _ _
  rw [Instant.rebased_shift nonempty step]
  have entry : (earlierLedger 90 1).entries = [⟨90, 1⟩] := by
    simp [earlierLedger]
  rw [entry]
  split
  · rfl
  · rw [Option.getD_none, shift_zero]

theorem readerAt_later {later : ℕ} (late : 100 ≤ wall) (forward : wall ≤ later)
    (small : later ≤ 10000) : (readerAt wall).Later (readerAt later) := by
  obtain ⟨hwall, hmono⟩ := readerAt_clocks late (forward.trans small)
  obtain ⟨hwall', hmono'⟩ := readerAt_clocks (late.trans forward) small
  refine ⟨rfl, rfl, ?_, ?_⟩
  · rw [hwall, hwall']
    exact_mod_cast forward
  · rw [hwall, hwall', hmono, hmono']
    ring

/-- A second is granted while the stamp lies behind the burst window. -/
theorem readerAt_granted : ((readerAt 150).run (reserveCall .default ⟨0, 0⟩ 1 .present)
    (fun _ => false)).1 = .ok .granted := by
  have tolerated : ¬ ((150 : ℕ) : Decimal) - 100 > clockSkewS := by
    rw [clockSkewS]
    norm_num
  have clocks : (readerAt 150).wall.value = ((150 : ℕ) : Decimal) :=
    (readerAt_clocks (by norm_num) (by norm_num)).1
  have admits : refusal .default (prune .default (readerAt 150).wall.value [⟨90, 1⟩])
      (readerAt 150).wall.value 1 = none := by
    rw [refusal_none_iff, ← used_val, ← used_val, used_prune _ _ DutyAccount.default.ordered,
      used_prune _ _ le_rfl, used_val, used_val, clocks]
    constructor
    · norm_num [charges, Entry.charge, Charge.since, Charge.after, Charge.total,
        DutyAccount.default]
    · norm_num [charges, Entry.charge, Charge.since, Charge.after, Charge.total,
        DutyAccount.default, allowance]
  rw [reserveCall, Instant.run_reserve, readerAt_found (by norm_num) (by norm_num),
    if_neg tolerated]
  simp only [Except.map, admits]

/-- Eleven seconds later the stamp is ten seconds old and the burst guard refuses. -/
theorem readerAt_refused : ((readerAt 161).run (reserveCall .default ⟨0, 0⟩ 1 .present)
    (fun _ => false)).1 ≠ .ok .granted := by
  have ahead : ((161 : ℕ) : Decimal) - 100 > clockSkewS := by
    rw [clockSkewS]
    norm_num
  have clocks : (readerAt 161).wall.value = ((161 : ℕ) : Decimal) :=
    (readerAt_clocks (by norm_num) (by norm_num)).1
  rw [reserveCall, Instant.run_reserve, readerAt_found (by norm_num) (by norm_num), if_pos ahead]
  intro granted
  cases decided : refusal .default (prune .default (readerAt 161).wall.value
      [⟨90 + (((161 : ℕ) : Decimal) - 100), 1⟩]) (readerAt 161).wall.value 1 with
  | some reason =>
      simp only [Except.map, decided] at granted
      cases granted
  | none =>
      rw [refusal_none_iff, ← used_val, ← used_val, used_prune _ _ DutyAccount.default.ordered,
        used_prune _ _ le_rfl, used_val, used_val, clocks] at decided
      norm_num [charges, Entry.charge, Charge.since, Charge.after, Charge.total,
        DutyAccount.default, allowance] at decided

end Reader

/-- A grant at second 150 becomes a refusal at second 161: the clock has passed the tolerated
minute over the evidence of the earlier boot, and the stamps have moved. -/
theorem wait_across_lead_refuses : (readerAt 150).Later (readerAt 161) ∧
    ¬ (readerAt 150).StaysAdmissible (readerAt 161) (fun _ => false) .default ⟨0, 0⟩ .present := by
  refine ⟨readerAt_later (by norm_num) (by norm_num) (by norm_num), fun stays => ?_⟩
  exact readerAt_refused (stays 1 1 one_pos le_rfl readerAt_granted)

/-- Five seconds on, within the tolerated minute, the grant stands. -/
theorem grant_stands_after_five_seconds :
    ((readerAt 155).run (reserveCall .default ⟨0, 0⟩ 1 .present) (fun _ => false)).1 =
      .ok .granted := by
  have notCrossed : ¬ (readerAt 150).Crosses (readerAt 155) LockFile.present.isFirstUse := by
    rintro ⟨entries, clock, wall, filed, _, _, number, _, _, passed⟩
    have onFile : (readerAt 150).filed LockFile.present.isFirstUse = _ :=
      readerAt_filed (by norm_num) (by norm_num)
    rw [onFile] at filed
    cases filed
    have evidence : numberIn (earlierLedger 90 1).clock "wall" =
        some (earlierLedger 90 1).wall.value := rfl
    rw [evidence, earlierLedger_wall] at number
    obtain rfl := Option.some.inj number
    rw [(readerAt_clocks (by norm_num) (by norm_num)).1, clockSkewS] at passed
    norm_num at passed
  exact waiting_keeps_admissible (readerAt_later (by norm_num) (by norm_num) (by norm_num))
    .present notCrossed (fun _ => false) .default ⟨0, 0⟩ 1 1 one_pos le_rfl readerAt_granted

end LorahamRns.Duty
