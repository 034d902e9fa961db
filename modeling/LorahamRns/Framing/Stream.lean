import LorahamRns.Framing.Reassembler

/-!
# Packets over a lossy channel

Frames of many packets arrive interleaved, some are lost, none arrives twice.  A packet
is delivered when it fits one frame or when its halves arrive next to each other in time.
-/

namespace LorahamRns.Framing

open Reassembler (Reception after deliveries lastAssembly)

/-! ## What frame sends -/

/-- A packet that `frame` takes, with the random byte of its header. -/
structure Sent where
  data : Bytes
  random : UInt8
  nonempty : data ≠ []
  fits : data.length ≤ framedMtu

namespace Sent

variable (packet : Sent)

/-- The packet needs two frames. -/
def Long : Prop := framePayload < packet.data.length

instance : Decidable packet.Long := inferInstanceAs (Decidable (_ < _))

def header : UInt8 := headOf packet.data packet.random

/-- The 4-bit sequence in its header. -/
def seq : UInt8 := packet.header >>> 4

/-- The frames `frame` sends for it. -/
def frames : List Bytes := (frame packet.data packet.random).getD []

theorem flag_of_nibble (random : UInt8) :
    (random &&& 0xF0) &&& flagSplit = 0 ∧ ((random &&& 0xF0) ||| flagSplit) &&& flagSplit ≠ 0 := by
  obtain ⟨⟨value⟩⟩ := random
  revert value
  decide +kernel

theorem header_split : packet.header &&& flagSplit ≠ 0 ↔ packet.Long := by
  unfold header headOf Long
  dsimp only
  split
  case isTrue long => exact iff_of_true (flag_of_nibble _).2 long
  case isFalse short => exact iff_of_false (not_not.mpr (flag_of_nibble _).1) short

theorem length_pos : 0 < packet.data.length := List.length_pos_iff.mpr packet.nonempty

theorem frames_eq (pieces : List Bytes) (h : chunks packet.data = pieces) (some : pieces ≠ []) :
    packet.frames = pieces.map (packet.header :: ·) := by
  unfold frames frame
  rw [if_neg (Nat.not_lt.mpr packet.fits), h]
  simp only [if_neg some]
  rfl

theorem frames_short (short : ¬packet.Long) : packet.frames = [packet.header :: packet.data] := by
  have fits : packet.data.length ≤ framePayload := Nat.not_lt.mp short
  have one : (packet.data.length + framePayload - 1) / framePayload = 1 := by
    have := packet.length_pos
    rw [Nat.div_eq_iff (by decide)]
    omega
  refine packet.frames_eq [packet.data] ?_ (List.cons_ne_nil _ _)
  rw [chunks, one]
  simp [List.take_of_length_le fits]

theorem frames_long (long : packet.Long) :
    packet.frames =
      [packet.header :: packet.data.take framePayload,
        packet.header :: packet.data.drop framePayload] := by
  have fits : packet.data.length ≤ 2 * framePayload := packet.fits
  have long' : framePayload < packet.data.length := long
  have two : (packet.data.length + framePayload - 1) / framePayload = 2 := by
    rw [Nat.div_eq_iff (by decide)]
    omega
  refine packet.frames_eq [_, _] ?_ (List.cons_ne_nil _ _)
  have rest : (packet.data.drop framePayload).length ≤ framePayload := by
    rw [List.length_drop]
    omega
  rw [chunks, two]
  simp [List.range_succ, List.take_of_length_le rest]

theorem reading_frame (payload : Bytes) (some : payload ≠ []) :
    reading (packet.header :: payload) =
      if packet.Long then .split packet.seq payload else .whole payload := by
  cases payload with
  | nil => exact absurd rfl some
  | cons first rest =>
      by_cases long : packet.Long
      · rw [if_pos long]
        exact if_pos (packet.header_split.mpr long)
      · rw [if_neg long]
        exact if_neg (mt packet.header_split.mp long)

end Sent

/-! ## Arrivals -/

/-- A frame that arrives: which packet's, which of its frames, and when. -/
structure Arrival (ι : Type) where
  packet : ι
  place : ℕ
  now : ℚ

section Channel

variable {ι : Type} (packets : ι → Sent) (maxAge : Option ℚ)

def Arrival.sent (arrival : Arrival ι) : Sent := packets arrival.packet

/-- What the reassembler is fed. -/
def Arrival.reception (arrival : Arrival ι) : Reception :=
  ⟨((arrival.sent packets).frames[arrival.place]?).getD [], arrival.now⟩

def Arrival.Within (early late : Arrival ι) : Prop :=
  ∀ age ∈ maxAge, late.now - early.now ≤ age

/-- The two halves of one packet, at most `maxAge` apart. -/
def Joins (early late : Arrival ι) : Prop :=
  (early.sent packets).Long ∧ late.packet = early.packet ∧ early.place = 0 ∧ late.place = 1 ∧
    early.Within maxAge late

instance (early late : Arrival ι) : Decidable (early.Within maxAge late) :=
  inferInstanceAs (Decidable (∀ age ∈ maxAge, late.now - early.now ≤ age))

instance [DecidableEq ι] (early late : Arrival ι) : Decidable (Joins packets maxAge early late) :=
  inferInstanceAs (Decidable (_ ∧ _))

/-- What may arrive: frames that were sent, none twice, those of one packet in order. -/
structure Lossy (stream : List (Arrival ι)) : Prop where
  sent : ∀ arrival ∈ stream, arrival.place < (arrival.sent packets).frames.length
  ordered : stream.Pairwise fun early late =>
    early.packet = late.packet → early.place < late.place

/-- A split frame whose other half is not its neighbour within `maxAge`. -/
def Orphan (previous : Option (Arrival ι)) (arrival : Arrival ι) (next : Arrival ι) : Prop :=
  (arrival.sent packets).Long ∧ (∀ early ∈ previous, ¬Joins packets maxAge early arrival) ∧
    ¬Joins packets maxAge arrival next

/-- No orphan is followed within `maxAge` by a split frame of another packet with its
sequence. -/
def Unambiguous (stream : List (Arrival ι)) : Prop :=
  ∀ earlier arrival next later, stream = earlier ++ arrival :: next :: later →
    Orphan packets maxAge earlier.getLast? arrival next → next.packet ≠ arrival.packet →
    (next.sent packets).Long → (next.sent packets).seq = (arrival.sent packets).seq →
    ¬arrival.Within maxAge next

variable {packets} {arrival : Arrival ι} in
/-- What a frame that was sent says. -/
theorem reading_sent (sent : arrival.place < (arrival.sent packets).frames.length) :
    ((arrival.sent packets).Long ∧
      (arrival.place = 0 ∧ reading (arrival.reception packets).raw =
          .split (arrival.sent packets).seq ((arrival.sent packets).data.take framePayload) ∨
        arrival.place = 1 ∧ reading (arrival.reception packets).raw =
          .split (arrival.sent packets).seq ((arrival.sent packets).data.drop framePayload))) ∨
    (¬(arrival.sent packets).Long ∧ arrival.place = 0 ∧
      reading (arrival.reception packets).raw = .whole (arrival.sent packets).data) := by
  unfold Arrival.reception
  generalize arrival.sent packets = packet at sent
  by_cases long : packet.Long
  · refine Or.inl ⟨long, ?_⟩
    have long' : framePayload < packet.data.length := long
    rw [packet.frames_long long] at sent ⊢
    have place : arrival.place = 0 ∨ arrival.place = 1 := by
      rw [List.length_cons, List.length_singleton] at sent
      omega
    rcases place with first | second
    · refine Or.inl ⟨first, ?_⟩
      rw [first]
      refine (packet.reading_frame _ ?_).trans (if_pos long)
      rw [← List.length_pos_iff, List.length_take, Nat.min_eq_left (Nat.le_of_lt long')]
      decide
    · refine Or.inr ⟨second, ?_⟩
      rw [second]
      refine (packet.reading_frame _ ?_).trans (if_pos long)
      rw [← List.length_pos_iff, List.length_drop]
      omega
  · refine Or.inr ⟨long, ?_⟩
    rw [packet.frames_short long] at sent ⊢
    have first : arrival.place = 0 := Nat.lt_one_iff.mp sent
    refine ⟨first, ?_⟩
    rw [first]
    exact (packet.reading_frame _ packet.nonempty).trans (if_neg long)

variable [DecidableEq ι]

/-- The packet that is complete with this arrival. -/
def completed (previous : Option (Arrival ι)) (arrival : Arrival ι) : Option Bytes :=
  if ¬(arrival.sent packets).Long ∨ ∃ early ∈ previous, Joins packets maxAge early arrival then
    some (arrival.sent packets).data
  else none

/-- The unsplit packets and those whose halves are neighbours, in order of completion. -/
def expected : Option (Arrival ι) → List (Arrival ι) → List Bytes
  | _, [] => []
  | previous, arrival :: rest =>
      (completed packets maxAge previous arrival).toList ++ expected (some arrival) rest

variable {packets maxAge} {stream : List (Arrival ι)} {arrival : Arrival ι}

theorem expected_concat (previous : Option (Arrival ι)) (stream : List (Arrival ι))
    (arrival : Arrival ι) :
    expected packets maxAge previous (stream ++ [arrival]) =
      expected packets maxAge previous stream ++
        (completed packets maxAge (stream.getLast?.or previous) arrival).toList := by
  induction stream generalizing previous with
  | nil => simp [expected]
  | cons first rest ih =>
      rw [List.cons_append, expected, ih, expected, List.append_assoc]
      cases rest <;> simp [List.getLast?_cons]

/-! ## What is pending -/

/-- The half a stream leaves pending: its last frame, unless that completed a packet. -/
inductive Holds (packets : ι → Sent) (maxAge : Option ℚ) :
    List (Arrival ι) → Option Half → Prop where
  | start : Holds packets maxAge [] none
  | complete {earlier : List (Arrival ι)} {arrival : Arrival ι} {data : Bytes}
      (delivered : completed packets maxAge earlier.getLast? arrival = some data) :
      Holds packets maxAge (earlier ++ [arrival]) none
  | waits {earlier : List (Arrival ι)} {arrival : Arrival ι} {payload : Bytes}
      (silent : completed packets maxAge earlier.getLast? arrival = none)
      (read : reading (arrival.reception packets).raw =
        .split (arrival.sent packets).seq payload) :
      Holds packets maxAge (earlier ++ [arrival])
        (some ⟨(arrival.sent packets).seq, payload, arrival.now⟩)

theorem completed_eq_none {previous : Option (Arrival ι)} :
    completed packets maxAge previous arrival = none ↔
      (arrival.sent packets).Long ∧ ∀ early ∈ previous, ¬Joins packets maxAge early arrival := by
  unfold completed
  rw [ite_eq_right_iff]
  simp only [reduceCtorEq, imp_false, not_or, not_not, not_exists, not_and]

/-- A frame that completed a packet is not the first half of the next. -/
theorem not_joins_of_completed {previous : Option (Arrival ι)} {data : Bytes} {next : Arrival ι}
    (delivered : completed packets maxAge previous arrival = some data) :
    ¬Joins packets maxAge arrival next := by
  rintro ⟨long, _, first, _⟩
  unfold completed at delivered
  split at delivered
  case isTrue complete =>
    rcases complete with short | ⟨early, _, _, _, _, second, _⟩
    · exact short long
    · omega
  case isFalse => cases delivered

/-- One more frame. -/
theorem Holds.step {pending : Option Half} {next : Arrival ι}
    (holds : Holds packets maxAge stream pending)
    (lossy : Lossy packets (stream ++ [next]))
    (unambiguous : Unambiguous packets maxAge (stream ++ [next])) :
    let result := assemble maxAge pending next.now (reading (next.reception packets).raw)
    Holds packets maxAge (stream ++ [next]) result.half ∧
      result.packet = completed packets maxAge stream.getLast? next := by
  have sent := lossy.sent next (List.mem_append_right _ (List.mem_singleton_self next))
  rcases reading_sent sent with ⟨long, halves⟩ | ⟨short, _, read⟩
  · obtain ⟨payload, read⟩ : ∃ payload, reading (next.reception packets).raw =
        .split (next.sent packets).seq payload := by
      rcases halves with ⟨_, read⟩ | ⟨_, read⟩ <;> exact ⟨_, read⟩
    have starts (silent : completed packets maxAge stream.getLast? next = none)
        (eq : (assemble maxAge pending next.now (reading (next.reception packets).raw)).half =
            some ⟨(next.sent packets).seq, payload, next.now⟩ ∧
          (assemble maxAge pending next.now (reading (next.reception packets).raw)).packet =
            none) :
        Holds packets maxAge (stream ++ [next])
            (assemble maxAge pending next.now (reading (next.reception packets).raw)).half ∧
          (assemble maxAge pending next.now (reading (next.reception packets).raw)).packet =
            completed packets maxAge stream.getLast? next := by
      rw [eq.1, eq.2, silent]
      exact ⟨.waits silent read, rfl⟩
    cases holds with
    | start =>
        refine starts (completed_eq_none.mpr ⟨long, nofun⟩) ?_
        rw [read]
        exact ⟨rfl, rfl⟩
    | @complete earlier arrival data delivered =>
        refine starts (completed_eq_none.mpr ⟨long, fun early isLast => ?_⟩) ?_
        · rw [List.getLast?_concat] at isLast
          obtain rfl := Option.some_inj.mp isLast
          exact not_joins_of_completed delivered
        · rw [read]
          exact ⟨rfl, rfl⟩
    | @waits earlier arrival half silent start =>
        obtain ⟨longBefore, alone⟩ := completed_eq_none.mp silent
        have sentBefore := lossy.sent arrival (by simp)
        have ordered : arrival.packet = next.packet → arrival.place < next.place :=
          (List.pairwise_append.mp lossy.ordered).2.2 arrival (by simp) next (by simp)
        rcases reading_sent sentBefore with ⟨_, halvesBefore⟩ | ⟨short, _⟩
        · by_cases completes : arrival.Within maxAge next ∧
              (arrival.sent packets).seq = (next.sent packets).seq
          · have same : next.packet = arrival.packet := by
              by_contra other
              refine unambiguous earlier arrival next [] (by simp) ⟨longBefore, alone, ?_⟩ other
                long completes.2.symm completes.1
              exact fun joins => other joins.2.1
            have places := ordered same.symm
            have sender : next.sent packets = arrival.sent packets := congrArg packets same
            rcases halvesBefore with ⟨first, read₁⟩ | ⟨second, _⟩
            · rcases halves with ⟨again, _⟩ | ⟨second, read₂⟩
              · omega
              · obtain ⟨_, rfl⟩ := Reading.split.inj (start.symm.trans read₁)
                have joins : Joins packets maxAge arrival next :=
                  ⟨longBefore, same, first, second, completes.1⟩
                have delivered : completed packets maxAge (earlier ++ [arrival]).getLast? next =
                    some (next.sent packets).data := by
                  rw [List.getLast?_concat]
                  exact if_pos (Or.inr ⟨arrival, rfl, joins⟩)
                have whole : (arrival.sent packets).data.take framePayload ++
                    (next.sent packets).data.drop framePayload = (next.sent packets).data := by
                  rw [sender, List.take_append_drop]
                have young : (⟨(arrival.sent packets).seq, (arrival.sent packets).data.take
                    framePayload, arrival.now⟩ : Half).Young maxAge next.now := completes.1
                rw [read₂, delivered]
                dsimp only
                rw [assemble_second ⟨young, completes.2⟩]
                exact ⟨.complete delivered, congrArg some whole⟩
            · rcases halves with ⟨again, _⟩ | ⟨again, _⟩ <;> omega
          · refine starts (completed_eq_none.mpr ⟨long, fun early isLast joins => ?_⟩) ?_
            · rw [List.getLast?_concat] at isLast
              obtain rfl := Option.some_inj.mp isLast
              exact completes ⟨joins.2.2.2.2, congrArg (Sent.seq <| packets ·) joins.2.1.symm⟩
            · have other : ¬((⟨(arrival.sent packets).seq, half, arrival.now⟩ : Half).Young maxAge
                  next.now ∧ (arrival.sent packets).seq = (next.sent packets).seq) := completes
              rw [read, assemble_other other]
              exact ⟨rfl, rfl⟩
        · exact absurd longBefore short
  · have delivered : completed packets maxAge stream.getLast? next =
        some (next.sent packets).data := if_pos (Or.inl short)
    rw [read, delivered]
    exact ⟨.complete delivered, rfl⟩

omit [DecidableEq ι] in
theorem Lossy.of_concat {next : Arrival ι} (lossy : Lossy packets (stream ++ [next])) :
    Lossy packets stream :=
  ⟨fun arrival found => lossy.sent arrival (List.mem_append_left _ found),
    (List.pairwise_append.mp lossy.ordered).1⟩

omit [DecidableEq ι] in
theorem Unambiguous.of_concat {next : Arrival ι}
    (unambiguous : Unambiguous packets maxAge (stream ++ [next])) :
    Unambiguous packets maxAge stream := by
  rintro earlier arrival follower later rfl
  exact unambiguous earlier arrival follower (later ++ [next]) (by simp)

theorem holds_after (lossy : Lossy packets stream)
    (unambiguous : Unambiguous packets maxAge stream) :
    Holds packets maxAge stream (after maxAge (stream.map (·.reception packets))).half ∧
      deliveries maxAge (stream.map (·.reception packets)) =
        expected packets maxAge none stream := by
  induction stream using List.reverseRecOn with
  | nil => exact ⟨.start, rfl⟩
  | append_singleton stream next ih =>
      obtain ⟨holds, delivered⟩ := ih lossy.of_concat unambiguous.of_concat
      obtain ⟨holds, packet⟩ := holds.step lossy unambiguous
      rw [List.map_append, List.map_singleton]
      refine ⟨?_, ?_⟩
      · rw [Reassembler.after_concat.1]
        exact holds
      · unfold deliveries at delivered ⊢
        rw [Reassembler.outputs_concat, List.reduceOption_append, delivered, expected_concat,
          Option.or_none, ← packet]
        exact congrArg _ (List.reduceOption_singleton _)

/-- Delivered are exactly the unsplit packets received and the split packets whose halves
arrived next to each other within `maxAge`, unchanged, once and in order of completion. -/
theorem deliveries_eq_expected (lossy : Lossy packets stream)
    (unambiguous : Unambiguous packets maxAge stream) :
    deliveries maxAge (stream.map (·.reception packets)) = expected packets maxAge none stream :=
  (holds_after lossy unambiguous).2

end Channel

/-! ## An example -/

/-- Packet 0 needs two frames, packet 1 fits one. -/
def letters (packet : Fin 2) : Sent :=
  if packet = 0 then
    ⟨List.replicate 300 1, 0x57, List.ne_nil_of_length_pos (by rw [List.length_replicate]; decide),
      (List.length_replicate ..).trans_le (by decide)⟩
  else ⟨[7], 0x90, List.cons_ne_nil _ _, by decide⟩

/-- The short packet between the two long ones is lost; the halves meet. -/
def lettersHeard : List (Arrival (Fin 2)) := [⟨1, 0, 0⟩, ⟨0, 0, 1⟩, ⟨0, 1, 2⟩]

theorem letters_delivered :
    deliveries (some 5) (lettersHeard.map (·.reception letters)) =
      [[7], List.replicate 300 1] := by
  refine (deliveries_eq_expected ⟨?_, ?_⟩ ?_).trans ?_
  · decide +kernel
  · decide +kernel
  · intro earlier arrival next later split orphan other
    match earlier with
    | [] =>
        obtain ⟨rfl, _⟩ := List.cons.inj split
        exact absurd orphan.1 (by decide +kernel)
    | [first] =>
        obtain ⟨_, rest⟩ := List.cons.inj split
        obtain ⟨rfl, follower⟩ := List.cons.inj rest
        obtain ⟨rfl, _⟩ := List.cons.inj follower
        exact absurd rfl other
    | first :: second :: more =>
        have short := congrArg List.length split
        simp only [lettersHeard, List.length_append, List.length_cons, List.length_nil] at short
        omega
  · decide +kernel

end LorahamRns.Framing
