import LorahamRns.Framing.Lossless
import LorahamRns.Interface.Incoming
import LorahamRns.Interface.Outgoing
import LorahamRns.Interface.Schedule

/-!
# From one node to another

What one node accepts for sending and another hands to its transport, where the channel
between them loses nothing: the packets granted their airtime, unchanged and in order.
-/

namespace LorahamRns.Interface

open LorahamRns.Lib LorahamRns.Framing LorahamRns.Radio

/-! ## The sending node -/

def Emission.frames : Emission → List Bytes
  | .granted _ => []
  | .handed frame => [frame]

/-- The frames handed to the radio in a run, in order. -/
def handedOver (trace : List Label) : List Bytes := (emitted trace).flatMap Emission.frames

/-- A packet and the frames it is sent in. -/
structure Carried where
  packet : Packet
  frames : List Bytes

/-- Packets in the frames made for them. -/
def InFrames (iface : LoRaSPIInterface) (carried : List Carried) : Prop :=
  ∀ one ∈ carried, FramesOf iface one.packet.data one.frames

section Sender

variable {iface : LoRaSPIInterface} {world : World} {trace : List Label}
  {settled : List Delivery} {progress : Progress}

theorem frames_handed (frames : List Bytes) :
    (frames.map Emission.handed).flatMap Emission.frames = frames := by
  rw [List.flatMap_map]
  exact List.flatMap_singleton' frames

/-- The settled packets, without those that emitted nothing. -/
theorem carried_of_settled (whole : ∀ delivery ∈ settled, delivery.Whole iface) :
    ∃ carried, InFrames iface carried ∧
      (carried.map Carried.packet).Sublist (settled.map Delivery.packet) ∧
      (settled.flatMap Delivery.emissions).flatMap Emission.frames =
        carried.flatMap Carried.frames := by
  induction settled with
  | nil => exact ⟨[], by rintro _ ⟨⟩, List.Sublist.refl _, rfl⟩
  | cons delivery rest ih =>
      obtain ⟨carried, framed, among, frames⟩ :=
        ih fun other later => whole other (List.mem_cons_of_mem _ later)
      have first := whole delivery List.mem_cons_self
      cases first with
      | nothing packet => exact ⟨carried, framed, among.cons _, frames⟩
      | @sent packet pieces toa made charged =>
          refine ⟨⟨packet, pieces⟩ :: carried, ?_, among.cons_cons _, ?_⟩
          · intro one member
            rcases List.mem_cons.mp member with rfl | later
            · exact made
            · exact framed one later
          · rw [List.flatMap_cons, List.flatMap_append, frames, List.flatMap_cons]
            exact congrArg (· ++ _) (frames_handed pieces)

/-- The packet in hand, if its airtime was granted. -/
theorem carried_in_hand (proper : progress.Proper iface) :
    ∃ carried, InFrames iface carried ∧ (carried.map Carried.packet).Sublist progress.packets ∧
      progress.emitted.flatMap Emission.frames <+: carried.flatMap Carried.frames := by
  cases progress with
  | sending packet toa frames count =>
      refine ⟨[⟨packet, frames⟩], ?_, List.Sublist.refl _, ?_⟩
      · intro one member
        obtain rfl := List.mem_singleton.mp member
        exact proper.1
      · rw [List.flatMap_singleton]
        have taken : (Progress.sending packet toa frames count).emitted.flatMap Emission.frames =
            frames.take count := frames_handed _
        rw [taken]
        exact List.take_prefix _ _
  | _ => exact ⟨[], by rintro _ ⟨⟩, List.nil_sublist _, List.prefix_rfl⟩

/-- The frames handed over are, in order, those of packets accepted; only the last may be
missing some. -/
theorem Delivering.carried (h : Delivering iface world trace settled progress) :
    ∃ carried, InFrames iface carried ∧
      (carried.map Carried.packet).Sublist (Interface.accepted trace) ∧
      handedOver trace <+: carried.flatMap Carried.frames := by
  obtain ⟨old, framed, among, frames⟩ := carried_of_settled h.settled
  obtain ⟨last, framed', among', frames'⟩ := carried_in_hand h.proper
  refine ⟨old ++ last, ?_, ?_, ?_⟩
  · intro one member
    exact (List.mem_append.mp member).elim (framed one) (framed' one)
  · rw [List.map_append, h.accepted]
    exact (among.append among').trans (List.sublist_append_left _ _)
  · rw [handedOver, h.emitted, List.flatMap_append, frames, List.flatMap_append]
    exact (List.prefix_append_right_inj _).mpr frames'

end Sender

/-! ## The receiving node -/

section Receiver

variable {near far : LoRaSPIInterface} {carried : List Carried}

end Receiver

/-- A step that disturbs nobody, as far as the label tells. -/
def Label.calm : Label → Bool
  | .call .tx (.log _) succeeded | .call .tx (.logTx _ _) succeeded => succeeded
  | .call .tx (.radio _) _ | .bus .tx _ _ | .throws .tx => false
  | _ => true

/-- A thread is between two turns. -/
def atRest : Worker Next → Bool
  | .done _ => true
  | _ => false

end LorahamRns.Interface
