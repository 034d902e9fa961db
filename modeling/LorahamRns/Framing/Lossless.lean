import LorahamRns.Framing.Stream

/-!
# Packets over a lossless channel

Where no frame is lost and no half waits too long, the reassembler returns every packet
whose frames have all arrived, and drops nothing.
-/

namespace LorahamRns.Framing

open Reassembler (Reception)

namespace Reassembler

/-- The packets a list of frames completes, the frames left over, and nothing dropped. -/
structure Completes (state : Reassembler) (receptions : List Reception) (done : List Sent)
    (half : List Bytes) : Prop where
  frames : receptions.map Reception.raw = done.flatMap Sent.frames ++ half
  returned : (state.feedAll receptions).2.reduceOption = done.map Sent.data
  dropped : (state.feedAll receptions).1.dropped = state.dropped

section Packets

variable {state : Reassembler} {packet : Sent} (now : ℚ)

end Packets

/-- One more packet is complete. -/
theorem Completes.packet {state next : Reassembler} (arrived : List Reception)
    {rest : List Reception} {packet : Sent} {done : List Sent} {half : List Bytes}
    (frames : arrived.map Reception.raw = packet.frames)
    (ends : (state.feedAll arrived).1 = next)
    (returned : (state.feedAll arrived).2.reduceOption = [packet.data])
    (dropped : next.dropped = state.dropped) (h : next.Completes rest done half) :
    state.Completes (arrived ++ rest) (packet :: done) half where
  frames := by
    rw [List.map_append, frames, h.frames, List.flatMap_cons, List.append_assoc]
  returned := by
    rw [feedAll_append, ends, List.reduceOption_append, returned, h.returned]
    rfl
  dropped := by
    rw [feedAll_append, ends]
    exact h.dropped.trans dropped

end Reassembler

end LorahamRns.Framing
