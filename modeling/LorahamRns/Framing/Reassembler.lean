import Mathlib

/-!
# RNode air framing

One header byte goes in front of every frame: a random sequence in the high nibble and
the split flag.  The reassembler keeps at most one half of a split packet; `Assembly` says
what one frame does to that half.
-/

namespace LorahamRns.Framing

abbrev Bytes : Type := List UInt8

def headerL : ℕ := 1
def flagSplit : UInt8 := 0x01
def seqUnset : UInt8 := 0xFF

/-- `SINGLE_MTU - HEADER_L`. -/
def framePayload : ℕ := 255 - headerL

def framedMtu : ℕ := 2 * framePayload

/-! ## Frames of one packet -/

/-- `data[i:i + FRAME_PAYLOAD]` for every start `i` in steps of `FRAME_PAYLOAD`. -/
def chunks (data : Bytes) : List Bytes :=
  (List.range ((data.length + framePayload - 1) / framePayload)).map fun place =>
    (data.drop (place * framePayload)).take framePayload

/-- The header byte of a packet: the high nibble of the random byte, the flag by length. -/
def headOf (data : Bytes) (random : UInt8) : UInt8 :=
  let head := random &&& 0xF0
  if framePayload < data.length then head ||| flagSplit else head

/-- `frame`; `random` is the random byte, or the one the caller fixed.  `none` where it
raises. -/
def frame (data : Bytes) (random : UInt8) : Option (List Bytes) :=
  if framedMtu < data.length then none
  else
    let pieces := if chunks data = [] then [[]] else chunks data
    some (pieces.map (headOf data random :: ·))

/-! ## The reassembler -/

/-- `dropped` counts fragments discarded without delivery. -/
structure Reassembler where
  maxAge : Option ℚ
  seq : UInt8
  buf : Bytes
  since : ℚ
  dropped : ℕ
  deriving DecidableEq

namespace Reassembler

/-- A reassembler as constructed. -/
def fresh (maxAge : Option ℚ) : Reassembler := ⟨maxAge, seqUnset, [], 0, 0⟩

def reset (state : Reassembler) : Reassembler := { state with seq := seqUnset, buf := [] }

def drop (state : Reassembler) : Reassembler := { state with dropped := state.dropped + 1 }

/-- `now - self._since > self.max_age`. -/
def tooOld (state : Reassembler) (now : ℚ) : Bool :=
  match state.maxAge with
  | none => false
  | some age => decide (age < now - state.since)

/-- `feed`: the state after one frame and the packet it completes. -/
def feed (state : Reassembler) (raw : Bytes) (now : ℚ) : Reassembler × Option Bytes :=
  match raw with
  | header :: first :: rest =>
      let payload := first :: rest
      let seq := header >>> 4
      let split := header &&& flagSplit ≠ 0
      let state :=
        if state.seq ≠ seqUnset ∧ state.tooOld now then state.drop.reset else state
      if split then
        if state.seq = seqUnset then
          ({ state with seq := seq, buf := payload, since := now }, none)
        else if state.seq = seq then (state.reset, some (state.buf ++ payload))
        else ({ state.drop with seq := seq, buf := payload, since := now }, none)
      else if state.seq ≠ seqUnset then (state.drop.reset, some payload)
      else (state, some payload)
  | _ =>
      -- a header with nothing behind it also drops the pending half
      let state := if state.seq ≠ seqUnset then state.drop.reset else state
      (state.drop, none)

end Reassembler

/-! ## What a frame says -/

/-- What the receiver reads off a frame. -/
inductive Reading where
  | bare
  | whole (payload : Bytes)
  | split (seq : UInt8) (payload : Bytes)
  deriving DecidableEq

def reading : Bytes → Reading
  | header :: first :: rest =>
      if header &&& flagSplit ≠ 0 then .split (header >>> 4) (first :: rest)
      else .whole (first :: rest)
  | _ => .bare

/-- A first half that waits for its partner. -/
structure Half where
  seq : UInt8
  payload : Bytes
  since : ℚ
  deriving DecidableEq

/-- At most `maxAge` old. -/
def Half.Young (maxAge : Option ℚ) (now : ℚ) (half : Half) : Prop :=
  ∀ age ∈ maxAge, now - half.since ≤ age

instance (maxAge : Option ℚ) (now : ℚ) (half : Half) : Decidable (half.Young maxAge now) :=
  inferInstanceAs (Decidable (∀ age ∈ maxAge, now - half.since ≤ age))

/-- What becomes of the pending half, the packet delivered, and the frames lost. -/
structure Assembly where
  half : Option Half
  packet : Option Bytes
  lost : ℕ

/-- One frame on an optional half. -/
def assemble (maxAge : Option ℚ) (pending : Option Half) (now : ℚ) : Reading → Assembly
  | .bare => ⟨none, none, pending.toList.length + 1⟩
  | .whole payload => ⟨none, some payload, pending.toList.length⟩
  | .split seq payload =>
      match pending with
      | none => ⟨some ⟨seq, payload, now⟩, none, 0⟩
      | some half =>
          if half.Young maxAge now ∧ half.seq = seq then ⟨none, some (half.payload ++ payload), 0⟩
          else ⟨some ⟨seq, payload, now⟩, none, 1⟩

section Assembling

variable {maxAge : Option ℚ} {half : Half} {now : ℚ} {seq : UInt8} {payload : Bytes}

theorem assemble_second (completes : half.Young maxAge now ∧ half.seq = seq) :
    assemble maxAge (some half) now (.split seq payload) =
      ⟨none, some (half.payload ++ payload), 0⟩ :=
  if_pos completes

theorem assemble_other (other : ¬(half.Young maxAge now ∧ half.seq = seq)) :
    assemble maxAge (some half) now (.split seq payload) = ⟨some ⟨seq, payload, now⟩, none, 1⟩ :=
  if_neg other

end Assembling

namespace Reassembler

/-- The half a reassembler holds. -/
def half (state : Reassembler) : Option Half :=
  if state.seq = seqUnset then none else some ⟨state.seq, state.buf, state.since⟩

theorem sequence_ne_unset (header : UInt8) : header >>> 4 ≠ seqUnset := by
  intro same
  have small : (header >>> 4).toNat < 16 := by
    rw [UInt8.toNat_shiftRight, Nat.shiftRight_eq_div_pow]
    have := header.toNat_lt
    change header.toNat / 16 < 16
    omega
  rw [same] at small
  exact absurd small (by decide)

theorem tooOld_iff (state : Reassembler) (now : ℚ) :
    state.tooOld now = true ↔
      ¬(⟨state.seq, state.buf, state.since⟩ : Half).Young state.maxAge now := by
  unfold tooOld Half.Young
  cases state.maxAge with
  | none => simp
  | some age =>
      rw [decide_eq_true_iff, ← not_le, not_iff_not]
      exact ⟨fun young _ same => Option.mem_some_iff.mp same ▸ young, fun h => h age rfl⟩

/-- `feed` refines `assemble`. -/
theorem feed_assemble (state : Reassembler) (raw : Bytes) (now : ℚ) :
    let next := assemble state.maxAge state.half now (reading raw)
    (state.feed raw now).1.half = next.half ∧ (state.feed raw now).2 = next.packet ∧
      (state.feed raw now).1.dropped = state.dropped + next.lost ∧
      (state.feed raw now).1.maxAge = state.maxAge := by
  obtain ⟨maxAge, seq, buf, since, dropped⟩ := state
  have old := tooOld_iff ⟨maxAge, seq, buf, since, dropped⟩ now
  unfold feed reading
  split
  case h_1 header first rest =>
    have set := sequence_ne_unset header
    by_cases empty : seq = seqUnset
    · subst empty
      by_cases split : header &&& flagSplit ≠ 0
      · simp [half, assemble, split, set]
      · simp [half, assemble, split]
    · by_cases stale : tooOld ⟨maxAge, seq, buf, since, dropped⟩ now = true
      · have young := old.mp stale
        by_cases split : header &&& flagSplit ≠ 0
        · simp [half, assemble, split, set, stale, young, empty, reset, drop]
        · simp [half, assemble, split, stale, empty, reset, drop]
      · have young := not_not.mp (mt old.mpr stale)
        by_cases split : header &&& flagSplit ≠ 0
        · by_cases same : seq = header >>> 4
          · subst same
            simp [half, assemble, split, set, stale, young, reset]
          · simp [half, assemble, split, set, stale, same, empty, drop]
        · simp [half, assemble, split, stale, empty, reset, drop]
  case h_2 =>
    by_cases empty : seq = seqUnset
    · simp [half, assemble, empty, drop]
    · simp [half, assemble, empty, reset, drop]

/-! ## Streams of frames -/

/-- One call of `feed`: the frame and the clock's reading. -/
structure Reception where
  raw : Bytes
  now : ℚ
  deriving DecidableEq

/-- The state after all frames, and what each call returned. -/
def feedAll (state : Reassembler) : List Reception → Reassembler × List (Option Bytes)
  | [] => (state, [])
  | reception :: rest =>
      let next := state.feed reception.raw reception.now
      let last := next.1.feedAll rest
      (last.1, next.2 :: last.2)

theorem feedAll_append (state : Reassembler) (fed more : List Reception) :
    state.feedAll (fed ++ more) =
      (((state.feedAll fed).1.feedAll more).1,
        (state.feedAll fed).2 ++ ((state.feedAll fed).1.feedAll more).2) := by
  induction fed generalizing state with
  | nil => rfl
  | cons reception rest ih => simp only [List.cons_append, feedAll, ih]

theorem feedAll_length (state : Reassembler) (fed : List Reception) :
    (state.feedAll fed).2.length = fed.length := by
  induction fed generalizing state with
  | nil => rfl
  | cons reception rest ih => simp only [feedAll, List.length_cons, ih]

theorem feedAll_maxAge (state : Reassembler) (fed : List Reception) :
    (state.feedAll fed).1.maxAge = state.maxAge := by
  induction fed generalizing state with
  | nil => rfl
  | cons reception rest ih =>
      rw [feedAll, ih]
      exact (feed_assemble state reception.raw reception.now).2.2.2

/-- The state a fresh reassembler is left in. -/
def after (maxAge : Option ℚ) (fed : List Reception) : Reassembler :=
  ((fresh maxAge).feedAll fed).1

/-- What the calls on a fresh reassembler returned. -/
def outputs (maxAge : Option ℚ) (fed : List Reception) : List (Option Bytes) :=
  ((fresh maxAge).feedAll fed).2

/-- The packets a fresh reassembler delivered, in order. -/
def deliveries (maxAge : Option ℚ) (fed : List Reception) : List Bytes :=
  (outputs maxAge fed).reduceOption

/-- What the last frame does to the state after the frames before it. -/
def lastAssembly (maxAge : Option ℚ) (fed : List Reception) (last : Reception) : Assembly :=
  assemble maxAge (after maxAge fed).half last.now (reading last.raw)

section Streams

variable {maxAge : Option ℚ} {fed : List Reception} {last : Reception}

theorem outputs_length : (outputs maxAge fed).length = fed.length := feedAll_length _ _

theorem after_concat :
    (after maxAge (fed ++ [last])).half = (lastAssembly maxAge fed last).half ∧
      (after maxAge (fed ++ [last])).dropped =
        (after maxAge fed).dropped + (lastAssembly maxAge fed last).lost := by
  have step := feed_assemble (after maxAge fed) last.raw last.now
  rw [show (after maxAge fed).maxAge = maxAge from feedAll_maxAge _ _] at step
  unfold after at step ⊢
  rw [feedAll_append]
  exact ⟨step.1, step.2.2.1⟩

theorem outputs_concat :
    outputs maxAge (fed ++ [last]) =
      outputs maxAge fed ++ [(lastAssembly maxAge fed last).packet] := by
  have step := feed_assemble (after maxAge fed) last.raw last.now
  rw [show (after maxAge fed).maxAge = maxAge from feedAll_maxAge _ _] at step
  have delivered := step.2.1
  unfold outputs
  rw [feedAll_append]
  exact congrArg _ (congrArg (fun out => [out]) delivered)

end Streams

end Reassembler

end LorahamRns.Framing
