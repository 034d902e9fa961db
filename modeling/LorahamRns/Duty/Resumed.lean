import LorahamRns.Duty.Reboot

/-!
# Runs on a ledger from before

Runs start in a world whose ledger is of an earlier write, and go on from any world
without a call under way.  What every call keeps then holds between any two such
worlds of a run.
-/

namespace LorahamRns.Duty

open LorahamRns.Lib

/-- Calls come to their end and release the lock. -/
def Uninterrupted (world : World) : Label → World → Prop
  | .kill process, _ => ∀ holder, world.holder = some holder → holder.caller.process ≠ process
  | .finish _ released, _ => released = true
  | _, _ => True

theorem Uninterrupted.allows {world after : World} {label : Label}
    (permitted : Uninterrupted world label after) :
    world.Allows (fun outcome => ∃ result, outcome = .ended result) label := by
  cases label with
  | kill process => exact fun holder hholder same => absurd same (permitted holder hholder)
  | finish caller released =>
      obtain rfl : released = true := permitted
      exact fun result => ⟨result, rfl⟩
  | _ => trivial

/-- The machine on level clocks, from the worlds `init` allows. -/
def resumed (account : DutyAccount) (offset : Decimal) (boot : Option (List Char))
    (init : World → Prop) : System World Label :=
  (machineFrom account (.level offset boot) init).restrict Uninterrupted

variable {account : DutyAccount} {offset : Decimal} {boot : Option (List Char)}

/-! ## What lasts from call to call -/

/-- A property of the grants, the ledger and the clock that time and calls keep. -/
structure Lasting (account : DutyAccount) (offset : Decimal) (boot : Option (List Char))
    (holds : List Entry → Option Ledger → Clock → Prop) : Prop where
  pass : ∀ {granted ledger start clock}, holds granted ledger start →
    (Assumptions.level offset boot).advance start clock → holds granted ledger clock
  call : ∀ {granted ledger left start clock} {record : Record} {result : Except Failure Verdict},
    holds granted ledger start → record.outcome = .ended result →
    Ended account (.level offset boot) record.firstUse record.airtime.value ledger start result left
      clock record.observed →
    holds (granted ++ record.grant?.toList) left clock

theorem Fate.lasting (content : Ledger) : Lasting account offset boot
    (Fate account offset boot content) :=
  ⟨.pass, .call⟩

theorem Since.lasting (base : List Entry) : Lasting account offset boot
    fun granted ledger clock =>
      ∃ current, ledger = some current ∧ Since account offset boot base granted current clock := by
  constructor
  · rintro granted ledger start clock ⟨current, rfl, since⟩ moved
    exact ⟨current, rfl, since.pass moved⟩
  · rintro granted ledger left start clock record result ⟨current, rfl, since⟩ outcome ended
    exact since.call outcome ended

theorem Settled.lasting (base : List Entry) : Lasting account offset boot
    fun granted ledger clock =>
      ∃ current, ledger = some current ∧ Settled account offset boot base granted current clock := by
  constructor
  · rintro granted ledger start clock ⟨current, rfl, settled⟩ moved
    exact ⟨current, rfl, settled.pass moved⟩
  · rintro granted ledger left start clock record result ⟨current, rfl, settled⟩ outcome ended
    exact settled.call outcome ended

/-- A world without a call under way in which the property holds of its ledger. -/
structure World.Stands (holds : List Entry → Option Ledger → Clock → Prop) (granted : List Entry)
    (world : World) : Prop where
  free : world.holder = none
  ledger : ∃ ledger, world.store.ledger = ledger.map Ledger.text ∧
    holds granted ledger world.store.clock

/-- From one such world to every later one, with the grants made in between. -/
theorem Lasting.run {holds : List Entry → Option Ledger → Clock → Prop}
    (lasting : Lasting account offset boot holds) {init : World → Prop} {before : List Record}
    {granted : List Entry}
    (initial : ∀ world, init world → world.history = before ∧ world.Stands holds granted)
    {after : World} {trace : List Label} (run : (resumed account offset boot init).Run after trace)
    (free : after.holder = none) :
    ∃ since, after.history = before ++ since ∧ after.Stands holds (granted ++ grants since) := by
  let past : List Record → Option Ledger → Clock → Prop := fun history ledger clock =>
    ∃ since, history = before ++ since ∧ holds (granted ++ grants since) ledger clock
  have ext : Extends account (.level offset boot) (fun outcome => ∃ result, outcome = .ended result)
      past := by
    constructor
    · rintro history ledger start clock ⟨since, hhistory, h⟩ moved
      exact ⟨since, hhistory, lasting.pass h moved⟩
    · rintro history ledger left start clock record ⟨since, rfl, h⟩ ⟨result, outcome⟩ did
      rw [Record.Did, outcome] at did
      refine ⟨since ++ [record], List.append_assoc .., ?_⟩
      rw [grants_append, ← List.append_assoc]
      exact lasting.call h outcome did
  have sound : after.Sound account (.level offset boot) past := by
    refine run_past ext ?_ ?_ run
    · intro world hinit
      obtain ⟨hhistory, hfree, ledger, hledger, h⟩ := initial world hinit
      simp only [World.Sound, hfree]
      refine ⟨ledger, hledger, [], ?_, ?_⟩
      · rw [hhistory, List.append_nil]
      · rw [show grants [] = [] from rfl, List.append_nil]
        exact h
    · exact fun world label next permitted => Uninterrupted.allows permitted
  obtain ⟨ledger, hledger, since, hhistory, h⟩ := sound.of_free free
  exact ⟨since, hhistory, free, ledger, hledger, h⟩

end LorahamRns.Duty
