import Mathlib

/-!
# Charges in a sliding window

A charge has a time and an amount.  If every charge was admitted against the
charges of the window that ends at it, then every window is within the limit,
wherever it ends.  A ledger covers a history from some time on when it never
shows less than the history does; pruning old charges, moving charges to later
times and recording more than was granted all keep the cover.
-/

set_option linter.unusedSectionVars false

namespace LorahamRns.Lib

/-- An amount charged at a time. -/
structure Charge (K : Type) where
  time : K
  amount : K

namespace Charge

variable {K : Type} [Field K] [LinearOrder K] [IsStrictOrderedRing K]

def total (charges : List (Charge K)) : K := (charges.map amount).sum

/-- The charges after `start`. -/
def after (charges : List (Charge K)) (start : K) : List (Charge K) :=
  charges.filter fun charge => decide (start < charge.time)

/-- What the charges after `start` add up to. -/
def since (charges : List (Charge K)) (start : K) : K := total (after charges start)

/-- The charges after `start` and not after `stop`. -/
def between (charges : List (Charge K)) (start stop : K) : List (Charge K) :=
  charges.filter fun charge => decide (start < charge.time ∧ charge.time ≤ stop)

/-- Every charge moved by `step`. -/
def shift (step : K) (charges : List (Charge K)) : List (Charge K) :=
  charges.map fun charge => ⟨charge.time + step, charge.amount⟩

/-- No charge is negative. -/
def Nonneg (charges : List (Charge K)) : Prop := ∀ charge ∈ charges, 0 ≤ charge.amount

/-! ## Totals -/

@[simp]
theorem total_nil : total ([] : List (Charge K)) = 0 := rfl

@[simp]
theorem total_append (left right : List (Charge K)) :
    total (left ++ right) = total left + total right := by
  simp [total]

@[simp]
theorem total_singleton (charge : Charge K) : total [charge] = charge.amount := by
  simp [total]

theorem total_nonneg {charges : List (Charge K)} (nonneg : Nonneg charges) : 0 ≤ total charges := by
  refine List.sum_nonneg ?_
  intro amount hamount
  obtain ⟨charge, hcharge, rfl⟩ := List.mem_map.mp hamount
  exact nonneg charge hcharge

theorem total_sublist {left right : List (Charge K)} (sublist : left.Sublist right)
    (nonneg : Nonneg right) : total left ≤ total right := by
  refine List.Sublist.sum_le_sum (sublist.map amount) ?_
  intro amount hamount
  obtain ⟨charge, hcharge, rfl⟩ := List.mem_map.mp hamount
  exact nonneg charge hcharge

theorem Nonneg.of_sublist {left right : List (Charge K)} (nonneg : Nonneg right)
    (sublist : left.Sublist right) : Nonneg left :=
  fun charge hcharge => nonneg charge (sublist.subset hcharge)

theorem Nonneg.append {left right : List (Charge K)} (hleft : Nonneg left) (hright : Nonneg right) :
    Nonneg (left ++ right) := by
  intro charge hcharge
  rcases List.mem_append.mp hcharge with h | h
  · exact hleft charge h
  · exact hright charge h

theorem Nonneg.shift {charges : List (Charge K)} (nonneg : Nonneg charges) (step : K) :
    Nonneg (shift step charges) := by
  intro charge hcharge
  obtain ⟨original, horiginal, rfl⟩ := List.mem_map.mp hcharge
  exact nonneg original horiginal

theorem after_append (left right : List (Charge K)) (start : K) :
    after (left ++ right) start = after left start ++ after right start :=
  List.filter_append ..

theorem since_append (left right : List (Charge K)) (start : K) :
    since (left ++ right) start = since left start + since right start := by
  rw [since, after_append, total_append]
  rfl

/-- Pruning does not change what later windows see. -/
theorem after_after {charges : List (Charge K)} {cut start : K} (hcut : cut ≤ start) :
    after (after charges cut) start = after charges start := by
  unfold after
  rw [List.filter_filter]
  refine List.filter_congr ?_
  intro charge _
  rw [← Bool.decide_and, decide_eq_decide]
  constructor
  · exact fun h => h.1
  · exact fun h => ⟨h, lt_of_le_of_lt hcut h⟩

theorem since_shift_ge {charges : List (Charge K)} (nonneg : Nonneg charges) {step : K}
    (hstep : 0 ≤ step) (start : K) : since charges start ≤ since (shift step charges) start := by
  induction charges with
  | nil => exact le_rfl
  | cons charge rest ih =>
      have hrest := ih fun other hother => nonneg other (List.mem_cons_of_mem _ hother)
      have hcharge : since [charge] start ≤ since (shift step [charge]) start := by
        by_cases hlate : start < charge.time
        · have hlater : start < charge.time + step := by linarith
          simp [since, after, shift, hlate, hlater]
        · have hnonneg : Nonneg (shift step [charge]) :=
            Nonneg.shift (fun other hother => nonneg other (by simp_all)) step
          have hempty : since [charge] start = 0 := by simp [since, after, hlate]
          rw [hempty]
          exact total_nonneg (hnonneg.of_sublist List.filter_sublist)
      calc since (charge :: rest) start
          = since [charge] start + since rest start := since_append [charge] rest start
        _ ≤ since (shift step [charge]) start + since (shift step rest) start :=
            add_le_add hcharge hrest
        _ = since (shift step (charge :: rest)) start :=
            (since_append (shift step [charge]) (shift step rest) start).symm

/-- Moving the charges is moving the window the other way. -/
theorem since_shift (charges : List (Charge K)) (step start : K) :
    since (shift step charges) start = since charges (start - step) := by
  unfold since total after shift
  rw [List.filter_map, List.map_map]
  congr 2
  refine List.filter_congr fun charge _ => ?_
  exact decide_eq_decide.mpr sub_lt_iff_lt_add.symm

/-- A window that begins later holds no more. -/
theorem since_antitone {charges : List (Charge K)} (nonneg : Nonneg charges) {low high : K}
    (h : low ≤ high) : since charges high ≤ since charges low := by
  refine total_sublist ?_ (nonneg.of_sublist List.filter_sublist)
  rw [← after_after h]
  exact List.filter_sublist

/-! ## Cover -/

/-- From `low` on, the ledger shows at least what the history shows. -/
def Covers (low : K) (history ledger : List (Charge K)) : Prop :=
  ∀ start, low ≤ start → since history start ≤ since ledger start

theorem Covers.refl (low : K) (history : List (Charge K)) : Covers low history history :=
  fun _ _ => le_rfl

theorem Covers.later {low high : K} {history ledger : List (Charge K)}
    (covers : Covers low history ledger) (hle : low ≤ high) : Covers high history ledger :=
  fun start hstart => covers start (hle.trans hstart)

theorem Covers.prune {low cut : K} {history ledger : List (Charge K)}
    (covers : Covers low history ledger) (hcut : low ≤ cut) :
    Covers cut history (after ledger cut) := by
  intro start hstart
  rw [since, since, after_after hstart]
  exact covers start (hcut.trans hstart)

theorem Covers.shift {low step : K} {history ledger : List (Charge K)}
    (covers : Covers low history ledger) (nonneg : Nonneg ledger) (hstep : 0 ≤ step) :
    Covers low history (shift step ledger) :=
  fun start hstart => (covers start hstart).trans (since_shift_ge nonneg hstep start)

theorem Covers.append {low : K} {history ledger : List (Charge K)}
    (covers : Covers low history ledger) (charges : List (Charge K)) :
    Covers low (history ++ charges) (ledger ++ charges) := by
  intro start hstart
  rw [since_append, since_append]
  exact add_le_add_left (covers start hstart) (since charges start)

/-- A ledger may record more than was granted. -/
theorem Covers.extra {low : K} {history ledger : List (Charge K)}
    (covers : Covers low history ledger) {charges : List (Charge K)} (nonneg : Nonneg charges) :
    Covers low history (ledger ++ charges) := by
  intro start hstart
  rw [since_append]
  have hextra : 0 ≤ since charges start := total_nonneg (nonneg.of_sublist List.filter_sublist)
  linarith [covers start hstart]

/-! ## Agreement -/

/-- From `low` on, the ledger shows exactly the history. -/
def Agrees (low : K) (history ledger : List (Charge K)) : Prop :=
  ∀ start, low ≤ start → after ledger start = after history start

theorem Agrees.refl (low : K) (history : List (Charge K)) : Agrees low history history :=
  fun _ _ => rfl

theorem Agrees.later {low high : K} {history ledger : List (Charge K)}
    (agrees : Agrees low history ledger) (hle : low ≤ high) : Agrees high history ledger :=
  fun start hstart => agrees start (hle.trans hstart)

theorem Agrees.prune {low cut : K} {history ledger : List (Charge K)}
    (agrees : Agrees low history ledger) (hcut : low ≤ cut) :
    Agrees cut history (after ledger cut) := by
  intro start hstart
  rw [after_after hstart]
  exact agrees start (hcut.trans hstart)

theorem Agrees.append {low : K} {history ledger : List (Charge K)}
    (agrees : Agrees low history ledger) (charges : List (Charge K)) :
    Agrees low (history ++ charges) (ledger ++ charges) := by
  intro start hstart
  rw [after_append, after_append, agrees start hstart]

/-- A window without usage is empty. -/
theorem since_le_zero_iff {charges : List (Charge K)}
    (positive : ∀ charge ∈ charges, 0 < charge.amount) (start : K) :
    since charges start ≤ 0 ↔ after charges start = [] := by
  constructor
  · intro hzero
    cases hafter : after charges start with
    | nil => rfl
    | cons first rest =>
        have hmem : ∀ charge ∈ first :: rest, 0 < charge.amount := fun charge hcharge =>
          positive charge (List.mem_filter.mp (hafter ▸ hcharge)).1
        have hrest : 0 ≤ total rest := total_nonneg fun charge hcharge =>
          (hmem charge (List.mem_cons_of_mem _ hcharge)).le
        have htotal : total (first :: rest) = first.amount + total rest := by simp [total]
        rw [since, hafter, htotal] at hzero
        linarith [hmem first List.mem_cons_self]
  · intro hempty
    rw [since, hempty]
    exact le_rfl

/-! ## Windows -/

/-- The charges of a window end with its last charge, and the others lie in the
window that ends there. -/
theorem between_last {charges : List (Charge K)}
    (ordered : charges.Pairwise fun first second => first.time ≤ second.time) {width : K}
    (stop : K) :
    between charges (stop - width) stop = [] ∨
      ∃ before last behind, charges = before ++ last :: behind ∧
        ∃ others, between charges (stop - width) stop = others ++ [last] ∧
          others.Sublist (after before (last.time - width)) := by
  induction charges using List.reverseRecOn with
  | nil => exact Or.inl rfl
  | append_singleton rest last ih =>
      obtain ⟨hrest, _, hbefore⟩ := List.pairwise_append.mp ordered
      by_cases hlast : stop - width < last.time ∧ last.time ≤ stop
      · refine Or.inr ⟨rest, last, [], by simp, between rest (stop - width) stop, ?_, ?_⟩
        · simp [between, List.filter_append, hlast]
        · refine List.monotone_filter_right rest ?_
          intro charge hcharge
          simp only [decide_eq_true_eq] at hcharge ⊢
          linarith [hcharge.1, hlast.2]
      · have hskip : between (rest ++ [last]) (stop - width) stop =
            between rest (stop - width) stop := by
          simp [between, List.filter_append, hlast]
        rcases ih hrest with hnone | ⟨before, found, behind, hsplit, others, hothers, hsub⟩
        · exact Or.inl (hskip.trans hnone)
        · refine Or.inr ⟨before, found, behind ++ [last], by simp [hsplit], others, ?_, hsub⟩
          exact hskip.trans hothers

/-- Charges admitted one by one within `limit` stay within it in every window. -/
theorem between_le {charges : List (Charge K)} {width limit : K} (hlimit : 0 ≤ limit)
    (ordered : charges.Pairwise fun first second => first.time ≤ second.time)
    (nonneg : Nonneg charges)
    (admitted : ∀ before charge behind, charges = before ++ charge :: behind →
      since before (charge.time - width) + charge.amount ≤ limit) (stop : K) :
    total (between charges (stop - width) stop) ≤ limit := by
  rcases between_last ordered stop with hnone | ⟨before, last, behind, hsplit, others, heq, hsub⟩
  · rw [hnone]
    exact hlimit
  · rw [heq, total_append, total_singleton]
    have hbefore : Nonneg before :=
      nonneg.of_sublist (hsplit ▸ List.sublist_append_left before (last :: behind))
    have hothers := total_sublist hsub (hbefore.of_sublist List.filter_sublist)
    have hadmitted := admitted before last behind hsplit
    rw [since] at hadmitted
    linarith

end Charge

end LorahamRns.Lib
