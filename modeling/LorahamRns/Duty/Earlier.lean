import LorahamRns.Duty.Capacity
import LorahamRns.Duty.Script
import LorahamRns.Duty.Resumed

/-!
# The first reservation of a boot

A reservation on still clocks that finds a ledger of an earlier boot decides on its
stamps moved forward by all the time the wall clock shows.
-/

namespace LorahamRns.Duty

open LorahamRns.Lib

variable {account : DutyAccount} {offset : Decimal} {boot : Option (List Char)}

/-- A ledger of an earlier boot that a call with its clocks still at `clock` reads. -/
structure Stale (clock : Clock) (text : List Char) (content : Ledger) : Prop where
  other : content.boot ≠ strip text
  gap : clockSkewS < clock.wall.value - content.wall.value
  short : content.text.length ≤ readLimit
  credible : ∀ entry ∈ content.entries, entry.Credible
  past : ∀ entry ∈ content.entries, entry.time ≤ clock.wall.value

/-- Its entries as the call sees them. -/
def Stale.entries (account : DutyAccount) (clock : Clock) (content : Ledger) : List Entry :=
  prune account clock.wall.value
    (content.entries.map (Entry.shift (clock.wall.value - content.wall.value)))

theorem Stale.view {clock now last : Clock} {text : List Char} {content : Ledger}
    {compared : Option Sample} {entries : List Entry} (stale : Stale clock text content)
    (hclock : clock = now)
    (view : View account (.still clock text) false (some content) now last compared entries) :
    entries = Stale.entries account clock content := by
  subst hclock
  obtain ⟨found, hfound, rfl⟩ := view
  cases hfound with
  | fresh missing => cases missing
  | present present _ _ moved rebased =>
      obtain rfl := Option.some.inj present
      cases rebased with
      | empty nothing => rw [Stale.entries, nothing, List.map_nil]
      | sameBoot before behind sampled same =>
          obtain ⟨reply, hreply, hsame⟩ := same
          rw [show reply = some text from hreply] at hsame
          exact absurd hsame.symm stale.other
      | otherBoot before other =>
          have hlater := (show clock = _ from moved).trans before
          rw [← hlater, if_pos stale.gap]
          rfl

/-- How such a call ends. -/
theorem Stale.ended {clock : Clock} {text : List Char} {content : Ledger} {airtime : Decimal}
    {left : Option Ledger} {observed : Observed} {result : Except Failure Verdict}
    (stale : Stale clock text content)
    (ended : Ended account (.still clock text) false airtime (some content) clock result left clock
      observed) :
    observed.now = some clock ∧
      ((result = .ok .granted ∧
          refusal account (Stale.entries account clock content) clock.wall.value airtime = none ∧
          ∃ after, left = some after ∧ Written (.still clock text) clock after clock ∧
            observed.persisted = some after.sample ∧
            after.entries = Stale.entries account clock content ++ [⟨clock.wall.value, airtime⟩]) ∨
        ∃ reason, refusal account (Stale.entries account clock content) clock.wall.value airtime =
          some reason ∧ result = .ok (.refused reason)) := by
  cases ended with
  | granted began view wrote noted _ persisted recorded admitted =>
      rw [stale.view began view, ← show clock = _ from began] at recorded admitted
      have hlast := wrote.advance
      exact ⟨by rw [noted, began],
        Or.inl ⟨rfl, admitted, _, rfl, hlast ▸ wrote, persisted, recorded⟩⟩
  | refused began view moved noted _ _ decided =>
      rw [stale.view began view, ← show clock = _ from began] at decided
      exact ⟨by rw [noted, began], Or.inr ⟨_, decided, rfl⟩⟩
  | failed progress cause =>
      have cause : Cause _ (some content).isNone _ _ _ _ _ := cause
      exact (cause.still (fun _ same => Option.some.inj same ▸ stale.short)
        (fun _ same => Option.some.inj same ▸ stale.credible)
        fun _ same => Option.some.inj same ▸ stale.past).elim

/-! ## A boot an hour and more after the last write -/

/-- What a reservation of so many whole seconds at second `time` leaves in an earlier boot,
written at second 100. -/
def earlierLedger (time airtime : ℕ) : Ledger :=
  ⟨"a".toList, readingOf 100, readingOf 100, [⟨(time : Decimal), (airtime : Decimal)⟩]⟩

section EarlierLedger

variable {time airtime : ℕ}

theorem natCast_inRange {seconds : ℕ} (small : seconds ≤ 10000) :
    |((seconds : ℕ) : Decimal).val| < floatLimit := by
  refine inRange_of_le ?_
  have : (seconds : ℚ) ≤ 10000 := by exact_mod_cast small
  rw [Decimal.coe_natCast, abs_of_nonneg (Nat.cast_nonneg _)]
  linarith

/-- A ledger of a few whole seconds fits the reader. -/
theorem text_le_of_whole {content : Ledger} {wall monotonic : ℕ}
    (hboot : (Json.stringText content.boot).length ≤ 3) (hwall : content.wall.value = wall)
    (hmonotonic : content.monotonic.value = monotonic) (smallWall : wall ≤ 10000)
    (smallMonotonic : monotonic ≤ 10000) (few : content.entries.length ≤ 100)
    (whole : ∀ entry ∈ content.entries, ∃ time airtime : ℕ, time ≤ 10000 ∧ airtime ≤ 10000 ∧
      entry = ⟨time, airtime⟩) : content.text.length ≤ readLimit := by
  have htext : ∀ seconds : ℕ, seconds ≤ 10000 → ((seconds : Decimal)).text.length ≤ 18 :=
    fun seconds h => Decimal.length_text_natCast_le (h.trans_lt (by norm_num))
  have hentries : ∀ size ∈ content.entries.map Entry.size, size ≤ 40 := by
    intro size hsize
    obtain ⟨entry, hentry, rfl⟩ := List.mem_map.mp hsize
    obtain ⟨time, airtime, htime, hairtime, rfl⟩ := whole entry hentry
    rw [Entry.size, PyFloat.text_ofDecimal (natCast_inRange htime),
      PyFloat.text_ofDecimal (natCast_inRange hairtime)]
    have := htext time htime
    have := htext airtime hairtime
    omega
  have hsum := List.sum_le_card_nsmul _ 40 hentries
  rw [List.length_map, smul_eq_mul] at hsum
  have hwallText := htext wall smallWall
  have hmonoText := htext monotonic smallMonotonic
  rw [Ledger.length_text, Ledger.size, hwall, hmonotonic, readLimit]
  omega

theorem earlierLedger_size (htime : time ≤ 100) (hairtime : airtime ≤ 100) :
    (earlierLedger time airtime).text.length ≤ readLimit := by
  have hreading : (readingOf 100).value = ((100 : ℕ) : Decimal) :=
    (readingOf_value (by norm_num) (by norm_num)).trans (by norm_num)
  have hboot : (Json.stringText (earlierLedger time airtime).boot).length = 3 := rfl
  refine text_le_of_whole hboot.le hreading hreading (by norm_num) (by norm_num)
    (by simp [earlierLedger]) fun entry hentry => ?_
  exact ⟨time, airtime, by omega, by omega, List.mem_singleton.mp hentry⟩

theorem earlierLedger_credible (htime : time ≤ 100) (hpositive : 0 < airtime)
    (hairtime : airtime ≤ 100) : ∀ entry ∈ (earlierLedger time airtime).entries, entry.Credible := by
  intro entry hentry
  rw [List.mem_singleton.mp hentry]
  exact ⟨natCast_inRange (by omega), natCast_inRange (by omega), Nat.cast_pos.mpr hpositive⟩

theorem earlierLedger_wall : (earlierLedger time airtime).wall.value = 100 :=
  readingOf_value (by norm_num) (by norm_num)

end EarlierLedger

end LorahamRns.Duty
