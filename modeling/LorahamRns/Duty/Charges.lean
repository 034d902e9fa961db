import LorahamRns.Lib.Window
import LorahamRns.Duty.Account

/-!
# Ledger entries as charges

The account's arithmetic in the terms of `LorahamRns.Lib.Window`: what a window
has used, what pruning and rebasing do, and what the limit decision demands.
-/

namespace LorahamRns.Duty

open LorahamRns.Lib

def Entry.charge (entry : Entry) : Charge ℚ := ⟨entry.time.val, entry.airtime.val⟩

/-- The entries as charges. -/
def charges (entries : List Entry) : List (Charge ℚ) := entries.map Entry.charge

/-- What a window of the account may hold, in seconds. -/
def allowance (limit window : Decimal) : ℚ := limit.val / 100 * window.val

theorem allowance_nonneg {limit window : Decimal} (hlimit : 0 ≤ limit) (hwindow : 0 < window) :
    0 ≤ allowance limit window := by
  have hlimit' : (0 : ℚ) ≤ limit.val := hlimit
  have hwindow' : (0 : ℚ) < window.val := hwindow
  rw [allowance]
  positivity

@[simp]
theorem charges_nil : charges [] = [] := rfl

theorem charges_append (left right : List Entry) :
    charges (left ++ right) = charges left ++ charges right := List.map_append

theorem charges_filter (entries : List Entry) (start : Decimal) :
    charges (entries.filter fun entry => decide (start < entry.time)) =
      Charge.after (charges entries) start.val := by
  rw [charges, charges, Charge.after, List.filter_map]
  rfl

theorem sum_airtimes (entries : List Entry) :
    ((entries.map Entry.airtime).sum).val = Charge.total (charges entries) := by
  induction entries with
  | nil => rfl
  | cons entry rest ih =>
      rw [List.map_cons, List.sum_cons, Subring.coe_add, ih]
      simp [charges, Charge.total, Entry.charge]

/-- `used` is what was charged since the window began. -/
theorem used_val (entries : List Entry) (window now : Decimal) :
    (used entries window now).val = Charge.since (charges entries) (now.val - window.val) := by
  rw [used, sum_airtimes, charges_filter, AddSubgroupClass.coe_sub, Charge.since]

theorem charges_prune (account : DutyAccount) (now : Decimal) (entries : List Entry) :
    charges (prune account now entries) =
      Charge.after (charges entries) (now.val - account.longWindow.val) := by
  rw [prune, charges_filter, AddSubgroupClass.coe_sub]

/-- Entries that have left the long window do not count. -/
theorem used_prune (account : DutyAccount) (entries : List Entry) {window now : Decimal}
    (inside : window ≤ account.longWindow) :
    used (prune account now entries) window now = used entries window now := by
  have cut : now.val - account.longWindow.val ≤ now.val - window.val :=
    sub_le_sub_left (show window.val ≤ account.longWindow.val from inside) now.val
  apply Subtype.ext
  rw [used_val, used_val, charges_prune, Charge.since, Charge.since, Charge.after_after cut]

theorem charges_shift (step : Decimal) (entries : List Entry) :
    charges (entries.map (Entry.shift step)) = Charge.shift step.val (charges entries) := by
  rw [charges, charges, Charge.shift, List.map_map, List.map_map]
  rfl

theorem charges_nonneg {entries : List Entry} (h : ∀ entry ∈ entries, 0 ≤ entry.airtime) :
    Charge.Nonneg (charges entries) := by
  intro charge hcharge
  obtain ⟨entry, hentry, rfl⟩ := List.mem_map.mp hcharge
  exact h entry hentry

theorem percent_le {airtime window limit : Decimal} (hwindow : 0 < window) :
    percent airtime window ≤ limit.val ↔ airtime.val ≤ allowance limit window := by
  have hpositive : (0 : ℚ) < window.val := hwindow
  rw [percent, allowance, ← div_le_iff₀ hpositive, ← le_div_iff₀ (by norm_num)]

/-- The limit decision: the burst window was empty or stays within its allowance,
and the long window stays within its own. -/
theorem refusal_none_iff (account : DutyAccount) (entries : List Entry) (now airtime : Decimal) :
    refusal account entries now airtime = none ↔
      (Charge.since (charges entries) (now.val - account.shortWindow.val) ≤ 0 ∨
        Charge.since (charges entries) (now.val - account.shortWindow.val) + airtime.val ≤
          allowance account.shortLimit account.shortWindow) ∧
      Charge.since (charges entries) (now.val - account.longWindow.val) + airtime.val ≤
        allowance account.longLimit account.longWindow := by
  rw [← used_val, ← used_val, ← Subring.coe_add, ← Subring.coe_add,
    ← percent_le account.shortPositive, ← percent_le account.longPositive]
  have hempty : (used entries account.shortWindow now).val ≤ 0 ↔
      ¬ used entries account.shortWindow now > 0 := by
    rw [not_lt]
    exact Iff.rfl
  rw [hempty, refusal]
  by_cases hshort : used entries account.shortWindow now > 0 ∧
      percent (used entries account.shortWindow now + airtime) account.shortWindow >
        account.shortLimit.val
  · rw [if_pos hshort]
    simp [hshort.1, hshort.2]
  · rw [if_neg hshort]
    rw [not_and_or, not_lt (a := account.shortLimit.val)] at hshort
    by_cases hlong : percent (used entries account.longWindow now + airtime) account.longWindow >
        account.longLimit.val
    · rw [if_pos hlong]
      simp [hlong]
    · rw [if_neg hlong]
      simp only [true_iff]
      exact ⟨hshort, not_lt.mp hlong⟩

end LorahamRns.Duty
