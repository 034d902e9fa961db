import LorahamRns.Interface.Carrier
import LorahamRns.Interface.Outgoing
import LorahamRns.Interface.Watched

/-!
# What is radiated stays permitted

Carrier and power are set once, by the constructor.  No worker sends anything that changes
them, or resets the chip.
-/

namespace LorahamRns.Interface

open LorahamRns.Lib LorahamRns.Radio

/-! ## The drivers -/

/-- The first bytes of the transactions that set carrier or power. -/
def tuningHeads (chip : Chip) : List ℤ := carrierHeads chip ++ powerHeads chip

section Drivers

variable {heads : List ℤ} {α : Type}

end Drivers

section Board

variable (profile : Profile) (settings : Settings)

end Board

/-! ## The threads -/

section Threads

variable {iface : LoRaSPIInterface} {permitted : Effect → Prop} {α : Type}

end Threads

/-! ## The whole life of an interface -/

/-- The transactions begun in a step. -/
def Label.clocked : Label → Sent
  | .enters _ payload => [payload]
  | _ => []

/-- The transactions begun in a run, the latest first. -/
def clocked (trace : List Label) : Sent := (trace.flatMap Label.clocked).reverse

/-- Transactions that spare the tuning leave what is permitted. -/
theorem Permitted.clocked {c : Configuration} {iface : LoRaSPIInterface} {sent more : Sent}
    (h : Permitted c iface sent)
    (spares : ∀ payload ∈ more, Spares (tuningHeads iface.profile.chip) (.xfer payload)) :
    Permitted c iface (more ++ sent) := by
  induction more with
  | nil => exact h
  | cons payload more ih =>
      obtain ⟨channel, power⟩ := ih fun other later => spares other (List.mem_cons_of_mem _ later)
      have spared := spares payload List.mem_cons_self
      refine ⟨?_, ?_⟩
      · rw [List.cons_append, carrierOf_spared (spared.subset (List.subset_append_left _ _))]
        exact channel
      · rw [List.cons_append, powerOf_spared (spared.subset (List.subset_append_right _ _))]
        exact power

/-- The board of the defaults, and a bus that answers nothing. -/
def listening : Setting where
  iface := loraham
  oracle := willing fun _ => .granted
  received := []
  fuel := 0
  data := []

end LorahamRns.Interface
