import LorahamRns.Radio.Chip

/-!
# What poll_rx returns

The flags are read first, length, start and data after them, and packets may arrive
in between.  Unless such an arrival spoils what is being read, a returned payload is
one whole packet with a good CRC.
-/

namespace LorahamRns.Radio

open LorahamRns.Lib
open Program (ends_done ends_fail ends_bind ends_mono)

/-! ## The chip's own invariant -/

namespace Chip.State

variable {bits : Flags} {chip after : State} {packet : Packet}

/-- Length, start and buffer are those of the last packet, and flags that tell of an
intact packet tell the truth about it. -/
structure Sound (bits : Flags) (chip : State) : Prop where
  stored : ∀ packet ∈ chip.received.head?,
    chip.length = packet.bytes.length ∧ chip.start = packet.start ∧ chip.Holds packet
  honest : chip.flags.testBit bits.rxDone = true → chip.flags.testBit bits.crcError = false →
    ∃ packet ∈ chip.received.head?, packet.good = true

theorem window_length (chip : State) (first : ZMod 256) (count : ℕ) :
    (chip.window first count).length = count := by
  simp [window]

/-- A packet just received is whole in the buffer. -/
theorem receive_holds (bits : Flags) (chip : State) (packet : Packet) :
    (chip.receive bits packet).Holds packet := by
  refine List.ext_getElem (window_length ..) fun place _ inside => ?_
  have small : place < 256 := by
    have := packet.fits
    unfold maxPayload at this
    omega
  simp [window, receive, store, Nat.mod_eq_of_lt small, inside]

theorem receive_sound (bits : Flags) (chip : State) (packet : Packet) :
    Sound bits (chip.receive bits packet) := by
  constructor
  · intro last same
    obtain rfl := Option.mem_some_iff.mp same
    exact ⟨rfl, rfl, receive_holds bits chip packet⟩
  · intro _ clean
    refine ⟨packet, rfl, ?_⟩
    by_contra bad
    simp [State.receive, Bool.of_not_eq_true bad] at clean

theorem Receives.trans {last : State} (h : Receives bits chip after)
    (more : Receives bits after last) : Receives bits chip last := by
  induction h with
  | refl => exact more
  | step packet _ ih => exact .step packet (ih more)

theorem Receives.sound (h : Receives bits chip after) (sound : Sound bits chip) :
    Sound bits after := by
  induction h with
  | refl => exact sound
  | step packet _ ih => exact ih (receive_sound bits _ packet)

/-- Clearing the flag of a finished reception leaves nothing to be honest about. -/
theorem Sound.clear (h : Sound bits chip) {mask : ℕ} (covers : mask.testBit bits.rxDone = true) :
    Sound bits (chip.clear mask) := by
  refine ⟨h.stored, fun done _ => ?_⟩
  simp [State.clear, Nat.testBit_ldiff, covers] at done

end Chip.State

/-! ## What the driver knows between its reads -/

namespace Chip.State

variable {bits : Flags} {chip after : State}

/-- A property that receptions cannot take away. -/
def Stable (bits : Flags) (holds : State → Prop) : Prop :=
  ∀ chip packet, holds chip → holds (chip.receive bits packet)

theorem Receives.stable {holds : State → Prop} (h : Receives bits chip after)
    (stable : Stable bits holds) (start : holds chip) : holds after := by
  induction h with
  | refl => exact start
  | step packet _ ih => exact ih (stable _ packet start)

/-- The flags have told of an intact packet: it is still the last one unless more have
come since. -/
structure Promising (bits : Flags) (chip : State) : Prop where
  sound : Sound bits chip
  seen : chip.seen ≤ chip.received.length
  intact : chip.received.length = chip.seen → ∃ packet ∈ chip.received.head?, packet.good = true

theorem Promising.stable (bits : Flags) : Stable bits (Promising bits) := by
  intro chip packet h
  refine ⟨receive_sound bits chip packet, h.seen.trans (Nat.le_succ _), fun same => ?_⟩
  exact absurd h.seen (Nat.not_le.mpr (Nat.lt_of_succ_le same.le))

/-- The length has been read as well. -/
structure Counted (bits : Flags) (count : ℕ) (chip : State) : Prop where
  promising : Promising bits chip
  counted : chip.counted = count
  length : chip.received.length = chip.seen →
    ∀ packet ∈ chip.received.head?, packet.bytes.length = count

theorem Counted.stable (bits : Flags) (count : ℕ) : Stable bits (Counted bits count) := by
  intro chip packet h
  refine ⟨Promising.stable bits chip packet h.promising, h.counted, fun same => ?_⟩
  exact absurd h.promising.seen (Nat.not_le.mpr (Nat.lt_of_succ_le same.le))

/-- The start of an intact packet of the length read has been read. -/
structure Aimed (bits : Flags) (packet : Packet) (chip : State) : Prop where
  sound : Sound bits chip
  target : chip.target = some packet
  good : packet.good = true
  member : packet ∈ chip.received
  aimed : chip.aimed ≤ chip.received.length
  whole : chip.received.length = chip.aimed → chip.Holds packet

theorem Aimed.stable (bits : Flags) (packet : Packet) : Stable bits (Aimed bits packet) := by
  intro chip other h
  refine ⟨receive_sound bits chip other, h.target, h.good, List.mem_cons_of_mem _ h.member,
    h.aimed.trans (Nat.le_succ _), fun same => ?_⟩
  exact absurd h.aimed (Nat.not_le.mpr (Nat.lt_of_succ_le same.le))

/-- An unspoilt read of the buffer finds the whole packet. -/
theorem Aimed.holds {packet : Packet} (h : Aimed bits packet chip) (unspoilt : chip.Unspoilt) :
    chip.Holds packet := by
  rcases unspoilt with same | whole
  · exact h.whole same
  · exact whole packet h.target

/-- Flags of an intact packet begin the promise. -/
theorem Sound.promising (h : Sound bits chip) (done : chip.flags.testBit bits.rxDone = true)
    (clean : chip.flags.testBit bits.crcError = false) : Promising bits chip.seeFlags :=
  ⟨⟨h.stored, h.honest⟩, le_rfl, fun _ => h.honest done clean⟩

theorem Promising.clear (h : Promising bits chip) {mask : ℕ}
    (covers : mask.testBit bits.rxDone = true) : Promising bits (chip.clear mask) :=
  ⟨h.sound.clear covers, h.seen, h.intact⟩

theorem Promising.count (h : Promising bits chip) : Counted bits chip.length chip.seeLength :=
  ⟨⟨⟨h.sound.stored, h.sound.honest⟩, h.seen, h.intact⟩, rfl,
    fun _ packet last => (h.sound.stored packet last).1.symm⟩

/-- Reading length and start of an intact packet together takes aim at it. -/
theorem Promising.aim (h : Promising bits chip) (intact : chip.received.length = chip.seen ∨
      ∃ packet ∈ chip.received.head?, packet.good = true) :
    ∃ packet, Aimed bits packet chip.seeLength.seeStart ∧ chip.length = packet.bytes.length ∧
      chip.start = packet.start := by
  obtain ⟨packet, last, good⟩ := intact.elim h.intact id
  have stored := h.sound.stored packet last
  exact ⟨packet, ⟨⟨h.sound.stored, h.sound.honest⟩, last, good, List.mem_of_mem_head? last, le_rfl,
    fun _ => stored.2.2⟩, stored.1, stored.2.1⟩

/-- Reading the start of a packet of the same length takes aim at it. -/
theorem Counted.aim {count : ℕ} (h : Counted bits count chip) (same : chip.SameLength) :
    ∃ packet, Aimed bits packet chip.seeStart ∧ packet.bytes.length = count ∧
      chip.start = packet.start := by
  have last : ∃ packet ∈ chip.received.head?,
      packet.good = true ∧ packet.bytes.length = count := by
    rcases same with unchanged | ⟨packet, last, good, length⟩
    · obtain ⟨packet, last, good⟩ := h.promising.intact unchanged
      exact ⟨packet, last, good, h.length unchanged packet last⟩
    · exact ⟨packet, last, good, length.trans h.counted⟩
  obtain ⟨packet, last, good, length⟩ := last
  have stored := h.promising.sound.stored packet last
  exact ⟨packet, ⟨⟨h.promising.sound.stored, h.promising.sound.honest⟩, last, good,
    List.mem_of_mem_head? last, le_rfl, fun _ => stored.2.2⟩, length, stored.2.1⟩

/-- A packet with a good CRC has been received whole. -/
structure Has (bits : Flags) (payload : List ℕ) (chip : State) : Prop where
  sound : Sound bits chip
  packet : ∃ packet ∈ chip.received, packet.good = true ∧ packet.bytes = payload

theorem Has.stable (bits : Flags) (payload : List ℕ) : Stable bits (Has bits payload) := by
  intro chip packet h
  obtain ⟨good, member, rest⟩ := h.packet
  exact ⟨receive_sound bits chip packet, good, List.mem_cons_of_mem _ member, rest⟩

/-- What a poll leaves: a payload it returns is such a packet's. -/
structure Delivers (bits : Flags) (result : Option Reception) (chip : State) : Prop where
  sound : Sound bits chip
  has : ∀ reception ∈ result, chip.Has bits reception.payload

theorem Has.delivers {payload : List ℕ} (h : Has bits payload chip) (rssi snr : ℚ) :
    Delivers bits (if payload = [] then none else some ⟨payload, rssi, snr⟩) chip := by
  refine ⟨h.sound, fun reception returned => ?_⟩
  split at returned
  · exact nomatch returned
  · obtain rfl := Option.mem_some_iff.mp returned
    exact h

theorem Sound.delivers (h : Sound bits chip) : Delivers bits none chip :=
  ⟨h, nofun⟩

end Chip.State

/-! ## Transactions -/

/-- A bit of the flags as `poll_rx` tests it. -/
theorem bit_eq_zero {flags bit : ℕ} : flags &&& 2 ^ bit = 0 ↔ flags.testBit bit = false := by
  rw [Nat.and_two_pow]
  cases flags.testBit bit <;> simp

section Transactions

variable {family : Family} {allowed : List ℤ → Chip.State → Prop}

/-- A transaction that succeeds is made in an allowed state some receptions later. -/
theorem ends_xfer {payload : List ℤ} {post : List ℕ → Chip.State → Prop} {chip : Chip.State}
    (h : ∀ mid reply after, chip.Receives family.flags mid → allowed payload mid →
      family.Transacts payload mid reply after → post reply after) :
    Program.Ends (family.busWith allowed) (xfer payload) post chip := by
  refine ⟨trivial, fun reply after answered => ?_⟩
  cases reply with
  | none => exact ends_fail _ _
  | some received =>
      obtain ⟨mid, receives, permitted, transacts⟩ := answered
      exact ends_done (h mid received after receives permitted transacts)

theorem ends_index {bytes : List ℕ} {place : ℕ} {post : ℕ → Chip.State → Prop}
    {chip : Chip.State} (h : ∀ byte, bytes[place]? = some byte → post byte chip) :
    Program.Ends (family.busWith allowed) (index bytes place) post chip := by
  unfold index
  split
  · next byte found => exact ends_done (h byte found)
  · exact ends_fail _ _

theorem ends_waitBusy {post : Unit → Chip.State → Prop} {chip : Chip.State}
    (h : ∀ after, chip.Receives family.flags after → post () after) :
    Program.Ends (family.busWith allowed) waitBusy post chip := by
  refine ⟨trivial, fun reply after answered => ?_⟩
  cases reply with
  | false => exact ends_fail _ _
  | true => exact ends_done (h after answered)

end Transactions

/-! ## SX127x -/

namespace Sx127x

/-- Register addresses and their write addresses. -/
theorem write_address : ∀ address < 0x80, address ||| 0x80 = address + 0x80 := by decide

/-- What a register read finds. -/
theorem transacts_read {address : ℕ} (register : 0 < address) (low : address < 0x80)
    {chip after : Chip.State} {reply : List ℕ}
    (h : Transacts [((address % 0x80 : ℕ) : ℤ), 0x00] chip reply after) :
    ∃ junk value, reply = [junk, value] ∧ Reads chip address value ∧ after = seen chip address := by
  rw [Nat.mod_eq_of_lt low] at h
  generalize sent : [(address : ℤ), (0x00 : ℤ)] = payload at h
  cases h with
  | fifo rest junk =>
      have zero := (List.cons.inj sent).1
      omega
  | @read _ other value junk _ _ reads =>
      have same := (List.cons.inj sent).1
      obtain rfl : address = other := by exact_mod_cast same
      exact ⟨junk, value, rfl, reads, rfl⟩
  | @write _ other value _ low' =>
      have same : (address : ℤ) = ((other ||| 0x80 : ℕ) : ℤ) := (List.cons.inj sent).1
      have same : address = other ||| 0x80 := by exact_mod_cast same
      rw [write_address other low'] at same
      omega

/-- What a register write does. -/
theorem transacts_write {address : ℕ} (low : address < 0x80) {value : ℤ}
    {chip after : Chip.State} {reply : List ℕ}
    (h : Transacts [((address ||| 0x80 : ℕ) : ℤ), value] chip reply after) :
    ∃ byte : ℕ, value = byte ∧ after = written chip address byte := by
  rw [write_address address low] at h
  generalize sent : [((address + 0x80 : ℕ) : ℤ), value] = payload at h
  cases h with
  | fifo rest junk =>
      have zero := (List.cons.inj sent).1
      omega
  | @read _ other _ _ _ low' _ =>
      have same : ((address + 0x80 : ℕ) : ℤ) = (other : ℤ) := (List.cons.inj sent).1
      omega
  | @write _ other byte _ low' =>
      have same : ((address + 0x80 : ℕ) : ℤ) = ((other ||| 0x80 : ℕ) : ℤ) :=
        (List.cons.inj sent).1
      rw [write_address other low'] at same
      obtain rfl : address = other := by omega
      have same := (List.cons.inj (List.cons.inj sent).2).1
      exact ⟨byte, same, rfl⟩

/-- What a FIFO read finds. -/
theorem transacts_fifo {rest : List ℤ} {chip after : Chip.State} {reply : List ℕ}
    (h : Transacts (0 :: rest) chip reply after) :
    reply.tail = chip.window chip.pointer rest.length ∧
      after = { chip with pointer := chip.pointer + rest.length } := by
  generalize sent : (0 : ℤ) :: rest = payload at h
  cases h with
  | fifo rest' junk =>
      obtain rfl := (List.cons.inj sent).2
      exact ⟨rfl, rfl⟩
  | @read _ other _ _ register _ _ =>
      have zero := (List.cons.inj sent).1
      omega
  | @write _ other _ _ low =>
      have zero : (0 : ℤ) = ((other ||| 0x80 : ℕ) : ℤ) := (List.cons.inj sent).1
      rw [write_address other low] at zero
      omega

/-- Aim is taken, and the FIFO pointer is at the packet's start. -/
structure Pointed (packet : Packet) (chip : Chip.State) : Prop where
  aimed : chip.Aimed flags packet
  pointer : chip.pointer = packet.start

theorem Pointed.stable (packet : Packet) : Chip.State.Stable flags (Pointed packet) :=
  fun chip other h => ⟨Chip.State.Aimed.stable flags packet chip other h.aimed, h.pointer⟩

section Polling

variable {frequency : ℤ} {allowed : List ℤ → Chip.State → Prop}

theorem ends_read {address : ℕ} (register : 0 < address) (low : address < 0x80)
    {post : ℕ → Chip.State → Prop} {chip : Chip.State}
    (h : ∀ mid value, chip.Receives flags mid → allowed [(address : ℤ), 0] mid →
      Reads mid address value → post value (seen mid address)) :
    Program.Ends ((Family.sx127x frequency).busWith allowed) (read address) post chip := by
  refine ends_bind (ends_xfer fun mid reply after receives permitted transacts => ?_)
  obtain ⟨junk, value, rfl, reads, rfl⟩ := transacts_read register low transacts
  rw [Nat.mod_eq_of_lt low] at permitted
  refine ends_index fun byte found => ?_
  obtain rfl := Option.some_inj.mp found
  exact h mid value receives permitted reads

theorem ends_write {address : ℕ} (low : address < 0x80) {value : ℤ}
    {post : Unit → Chip.State → Prop} {chip : Chip.State}
    (h : ∀ mid (byte : ℕ), chip.Receives flags mid → lowByte value = byte →
      post () (written mid address byte)) :
    Program.Ends ((Family.sx127x frequency).busWith allowed) (write address value) post chip := by
  refine ends_bind (ends_xfer fun mid reply after receives _ transacts => ?_)
  obtain ⟨byte, same, rfl⟩ := transacts_write low transacts
  exact ends_done (h mid byte receives same)

/-- Reading signal quality records nothing. -/
theorem ends_quality {address : ℕ} (quality : regRxNbBytes < address) (low : address < 0x80)
    {post : ℕ → Chip.State → Prop} {chip : Chip.State}
    (h : ∀ mid value, chip.Receives flags mid → post value mid) :
    Program.Ends ((Family.sx127x frequency).busWith allowed) (read address) post chip := by
  have above : 19 < address := quality
  refine ends_read (Nat.zero_lt_of_lt quality) low fun mid value receives _ _ => ?_
  have notFlags : address ≠ regIrqFlags := by
    unfold regIrqFlags
    omega
  have notStart : address ≠ regFifoRxCurrent := by
    unfold regFifoRxCurrent
    omega
  rw [seen, if_neg notFlags, if_neg quality.ne', if_neg notStart]
  exact h mid value receives

/-- Reading the packet after a promise. -/
theorem ends_readPacket {chip : Chip.State} (h : chip.Promising flags) :
    Program.Ends ((Family.sx127x frequency).busWith Undisturbed) (readPacket frequency)
      (Chip.State.Delivers flags) chip := by
  refine ends_bind (ends_read (by decide) (by decide) fun mid count receives _ reads => ?_)
  obtain rfl : count = mid.length := reads.2.1 rfl
  have counted : mid.seeLength.Counted flags mid.length :=
    (receives.stable (Chip.State.Promising.stable flags) h).count
  refine ends_bind (ends_read (by decide) (by decide) fun mid' start receives permitted reads => ?_)
  obtain rfl : start = mid'.start.val := reads.2.2 rfl
  have counted := receives.stable (Chip.State.Counted.stable flags _) counted
  obtain ⟨packet, aimed, length, same⟩ := counted.aim (permitted.1 rfl)
  refine ends_bind (ends_write (by decide) fun mid'' byte receives pointer => ?_)
  have aimed := receives.stable (Chip.State.Aimed.stable flags packet) aimed
  have pointed : ((byte : ℕ) : ZMod 256) = packet.start := by
    have small := ZMod.val_lt mid'.start
    have : byte = mid'.start.val := by
      unfold lowByte at pointer
      omega
    rw [this, ZMod.natCast_zmod_val, same]
  refine ends_bind (ends_xfer fun fifo reply after receives permitted transacts => ?_)
  have pointed := receives.stable (Pointed.stable packet) ⟨⟨⟨aimed.sound.stored,
    aimed.sound.honest⟩, aimed.target, aimed.good, aimed.member, aimed.aimed, aimed.whole⟩, pointed⟩
  obtain ⟨window, rfl⟩ := transacts_fifo transacts
  have whole : reply.tail = packet.bytes := by
    rw [window, List.length_replicate, ← length, pointed.pointer]
    exact pointed.aimed.holds (permitted.2 rfl)
  have has : Chip.State.Has flags reply.tail { fifo with
      pointer := fifo.pointer + (List.replicate mid.length (0 : ℤ)).length } :=
    ⟨⟨pointed.aimed.sound.stored, pointed.aimed.sound.honest⟩, packet, pointed.aimed.member,
      pointed.aimed.good, whole.symm⟩
  refine ends_bind (ends_quality (by decide) (by decide) fun _ snr receives => ?_)
  have has := receives.stable (Chip.State.Has.stable flags _) has
  refine ends_bind (ends_quality (by decide) (by decide) fun _ strength receives => ?_)
  exact ends_done ((receives.stable (Chip.State.Has.stable flags _) has).delivers _ _)

/-- One poll of an undisturbed chip. -/
theorem ends_pollRx {chip : Chip.State} (h : chip.Sound flags) :
    Program.Ends ((Family.sx127x frequency).busWith Undisturbed) (pollRx frequency)
      (Chip.State.Delivers flags) chip := by
  refine ends_bind (ends_read (by decide) (by decide) fun mid value receives _ reads => ?_)
  obtain rfl : value = mid.flags := reads.1 rfl
  have sound := receives.sound h
  have recorded : mid.seeFlags.Sound flags := ⟨sound.stored, sound.honest⟩
  split
  · exact ends_done recorded.delivers
  · next done =>
      refine ends_bind (ends_write (by decide) fun mid' mask receives cleared => ?_)
      have covers : mask.testBit flags.rxDone = true := by
        have : ((96 : ℕ) : ℤ) % 256 = mask := cleared
        obtain rfl : mask = 96 := by omega
        decide
      split
      · exact ends_done ((receives.sound recorded).clear covers).delivers
      · next intact =>
          have done : mid.flags.testBit flags.rxDone = true := by
            by_contra clear
            exact done (bit_eq_zero.mpr (Bool.of_not_eq_true clear))
          have clean : mid.flags.testBit flags.crcError = false :=
            bit_eq_zero.mp (not_not.mp intact)
          have promising := sound.promising done clean
          exact ends_readPacket
            ((receives.stable (Chip.State.Promising.stable flags) promising).clear covers)

end Polling

end Sx127x

/-! ## SX1262 -/

namespace Sx1262

variable {chip after : Chip.State} {reply : List ℕ} {rest : List ℤ}

theorem transacts_irqStatus (h : Transacts (cmdGetIrqStatus :: rest) chip reply after) :
    ∃ first second, reply = [first, second, chip.flags / 2 ^ 8, chip.flags % 2 ^ 8] ∧
      after = chip.seeFlags := by
  generalize sent : cmdGetIrqStatus :: rest = payload at h
  cases h with
  | irqStatus _ first second => exact ⟨first, second, rfl, rfl⟩
  | clear => exact absurd (List.cons.inj sent).1 (by decide)
  | bufferStatus => exact absurd (List.cons.inj sent).1 (by decide)
  | buffer => exact absurd (List.cons.inj sent).1 (by decide)
  | packetStatus => exact absurd (List.cons.inj sent).1 (by decide)

theorem transacts_clear {first second : ℤ}
    (h : Transacts [cmdClearIrqStatus, first, second] chip reply after) :
    ∃ high low : ℕ, first = high ∧ second = low ∧ after = chip.clear (high * 2 ^ 8 + low) := by
  generalize sent : [cmdClearIrqStatus, first, second] = payload at h
  cases h with
  | irqStatus => exact absurd (List.cons.inj sent).1 (by decide)
  | clear high low =>
      have params := (List.cons.inj sent).2
      exact ⟨high, low, (List.cons.inj params).1, (List.cons.inj (List.cons.inj params).2).1, rfl⟩
  | bufferStatus => exact absurd (List.cons.inj sent).1 (by decide)
  | buffer => exact absurd (List.cons.inj sent).1 (by decide)
  | packetStatus => exact absurd (List.cons.inj sent).1 (by decide)

theorem transacts_bufferStatus (h : Transacts (cmdGetRxBufferStatus :: rest) chip reply after) :
    ∃ first second, reply = [first, second, chip.length, chip.start.val] ∧
      after = chip.seeLength.seeStart := by
  generalize sent : cmdGetRxBufferStatus :: rest = payload at h
  cases h with
  | irqStatus => exact absurd (List.cons.inj sent).1 (by decide)
  | clear => exact absurd (List.cons.inj sent).1 (by decide)
  | bufferStatus _ first second => exact ⟨first, second, rfl, rfl⟩
  | buffer => exact absurd (List.cons.inj sent).1 (by decide)
  | packetStatus => exact absurd (List.cons.inj sent).1 (by decide)

theorem transacts_buffer {start count : ℕ}
    (h : Transacts (cmdReadBuffer :: ([(start : ℤ)] ++ List.replicate (count + 1) 0)) chip reply
      after) :
    chip = after ∧ (reply.drop 3).take count = chip.window start count := by
  generalize sent : cmdReadBuffer :: ([(start : ℤ)] ++ List.replicate (count + 1) 0) = payload at h
  cases h with
  | irqStatus => exact absurd (List.cons.inj sent).1 (by decide)
  | clear => exact absurd (List.cons.inj sent).1 (by decide)
  | bufferStatus => exact absurd (List.cons.inj sent).1 (by decide)
  | buffer start' rest' first second third =>
      have params := List.cons.inj (List.cons.inj sent).2
      obtain rfl : start = start' := by exact_mod_cast params.1
      have length : rest'.length - 1 = count := by
        rw [← params.2]
        change (List.replicate (count + 1) (0 : ℤ)).length - 1 = count
        rw [List.length_replicate, Nat.add_sub_cancel]
      refine ⟨rfl, ?_⟩
      change (chip.window start (rest'.length - 1)).take count = _
      rw [length]
      exact List.take_of_length_le (Chip.State.window_length ..).le
  | packetStatus => exact absurd (List.cons.inj sent).1 (by decide)

theorem transacts_packetStatus (h : Transacts (cmdGetPacketStatus :: rest) chip reply after) :
    chip = after := by
  generalize sent : cmdGetPacketStatus :: rest = payload at h
  cases h with
  | irqStatus => exact absurd (List.cons.inj sent).1 (by decide)
  | clear => exact absurd (List.cons.inj sent).1 (by decide)
  | bufferStatus => exact absurd (List.cons.inj sent).1 (by decide)
  | buffer => exact absurd (List.cons.inj sent).1 (by decide)
  | packetStatus => rfl

section Polling

variable {allowed : List ℤ → Chip.State → Prop}

theorem ends_query {opcode : ℤ} {count : ℕ} {params : List ℤ} {post : List ℕ → Chip.State → Prop}
    (h : ∀ mid reply after, chip.Receives flags mid →
      allowed (opcode :: (params ++ List.replicate (count + 1) 0)) mid →
      Transacts (opcode :: (params ++ List.replicate (count + 1) 0)) mid reply after →
      post ((reply.drop (params.length + 2)).take count) after) :
    Program.Ends (Family.sx1262.busWith allowed) (query opcode count params) post chip := by
  refine ends_bind (ends_waitBusy fun idle early => ?_)
  refine ends_bind (ends_xfer fun mid reply after receives permitted transacts => ?_)
  exact ends_done (h mid reply after (early.trans receives) permitted transacts)

theorem ends_cmd {opcode : ℤ} {params : List ℤ} {post : Unit → Chip.State → Prop}
    (h : ∀ mid reply after, chip.Receives flags mid → Transacts (opcode :: params) mid reply after →
      post () after) :
    Program.Ends (Family.sx1262.busWith allowed) (cmd opcode params) post chip := by
  refine ends_bind (ends_waitBusy fun idle early => ?_)
  refine ends_bind (ends_xfer fun mid reply after receives _ transacts => ?_)
  exact ends_done (h mid reply after (early.trans receives) transacts)

/-- The two bytes of the flags. -/
theorem ends_irqStatus {post : ℕ → Chip.State → Prop}
    (h : ∀ mid, chip.Receives flags mid → post mid.flags mid.seeFlags) :
    Program.Ends (Family.sx1262.busWith allowed) irqStatus post chip := by
  refine ends_bind (ends_query fun mid reply after receives _ transacts => ?_)
  obtain ⟨first, second, rfl, rfl⟩ := transacts_irqStatus transacts
  have small : mid.flags % 2 ^ 8 < 2 ^ 8 := Nat.mod_lt _ (by norm_num)
  have joined : mid.flags / 2 ^ 8 * 2 ^ 8 ||| mid.flags % 2 ^ 8 = mid.flags := by
    rw [mul_comm, ← Nat.two_pow_add_eq_or_of_lt small, Nat.div_add_mod]
  refine ends_done ?_
  change post (mid.flags / 2 ^ 8 * 2 ^ 8 ||| mid.flags % 2 ^ 8) _
  rw [joined]
  exact h mid receives

/-- Reading the packet after a promise. -/
theorem ends_readPacket (h : chip.Promising flags) :
    Program.Ends (Family.sx1262.busWith Undisturbed) readPacket
      (Chip.State.Delivers flags) chip := by
  refine ends_bind (ends_query fun mid reply after receives permitted transacts => ?_)
  obtain ⟨first, second, rfl, rfl⟩ := transacts_bufferStatus transacts
  have promising := receives.stable (Chip.State.Promising.stable flags) h
  obtain ⟨packet, aimed, length, start⟩ := promising.aim (permitted.1 rfl)
  refine ends_bind (ends_index fun count found => ?_)
  obtain rfl : mid.length = count := Option.some_inj.mp found
  refine ends_bind (ends_index fun first found => ?_)
  obtain rfl : mid.start.val = first := Option.some_inj.mp found
  refine ends_bind (ends_query fun mid' reply after receives permitted transacts => ?_)
  have aimed := receives.stable (Chip.State.Aimed.stable flags packet) aimed
  obtain ⟨rfl, window⟩ := transacts_buffer transacts
  have whole : (reply.drop 3).take mid.length = packet.bytes := by
    rw [window, ZMod.natCast_zmod_val, length, start]
    exact aimed.holds (permitted.2 rfl)
  have has : mid'.Has flags ((reply.drop 3).take mid.length) :=
    ⟨aimed.sound, packet, aimed.member, aimed.good, whole.symm⟩
  refine ends_bind (ends_query fun mid'' status after receives _ transacts => ?_)
  obtain rfl := transacts_packetStatus transacts
  have has := receives.stable (Chip.State.Has.stable flags _) has
  refine ends_bind (ends_index fun _ _ => ?_)
  exact ends_bind (ends_index fun _ _ => ends_done (has.delivers _ _))

/-- One poll of an undisturbed chip. -/
theorem ends_pollRx (h : chip.Sound flags) :
    Program.Ends (Family.sx1262.busWith Undisturbed) pollRx (Chip.State.Delivers flags) chip := by
  refine ends_bind (ends_irqStatus fun mid receives => ?_)
  have sound := receives.sound h
  have recorded : mid.seeFlags.Sound flags := ⟨sound.stored, sound.honest⟩
  split
  · exact ends_done recorded.delivers
  · next done =>
      have done : mid.flags.testBit flags.rxDone = true := by
        by_contra clear
        exact done (bit_eq_zero.mpr (Bool.of_not_eq_true clear))
      refine ends_bind (ends_cmd fun mid' reply after receives transacts => ?_)
      obtain ⟨high, low, upper, lower, rfl⟩ := transacts_clear transacts
      have covers : (high * 2 ^ 8 + low).testBit flags.rxDone = true := by
        have joined : high * 2 ^ 8 + low = mid.flags % 2 ^ 16 := by
          unfold lowByte at upper lower
          omega
        rw [joined, Nat.testBit_mod_two_pow, done]
        rfl
      split
      · exact ends_done ((receives.sound recorded).clear covers).delivers
      · next intact =>
          have clean : mid.flags.testBit flags.crcError = false :=
            bit_eq_zero.mp (not_not.mp intact)
          have promising := sound.promising done clean
          exact ends_readPacket
            ((receives.stable (Chip.State.Promising.stable flags) promising).clear covers)

end Polling

end Sx1262

/-! ## Runs -/

section Runs

variable {family : Family}

theorem Chip.State.Receives.keeps {bits : Flags} {chip after : Chip.State} {packet : Packet}
    (h : chip.Receives bits after) (member : packet ∈ chip.received) : packet ∈ after.received := by
  have stable : Chip.State.Stable bits fun chip => packet ∈ chip.received :=
    fun _ _ old => List.mem_cons_of_mem _ old
  exact h.stable stable member

/-- Transactions receive nothing. -/
theorem Family.Transacts.received {payload : List ℤ} {chip after : Chip.State} {reply : List ℕ}
    (h : family.Transacts payload chip reply after) : after.received = chip.received := by
  cases family with
  | sx127x frequency =>
      cases h with
      | fifo => rfl
      | @read _ address =>
          unfold Sx127x.seen
          split
          · rfl
          · split
            · rfl
            · split <;> rfl
      | @write _ address =>
          unfold Sx127x.written
          split
          · rfl
          · split <;> rfl
  | sx1262 => cases h <;> rfl

theorem Family.ends_pollRx {chip : Chip.State} (h : chip.Sound family.flags) :
    Program.Ends (family.busWith family.Undisturbed) family.pollRx
      (Chip.State.Delivers family.flags) chip := by
  cases family with
  | sx127x frequency => exact Sx127x.ends_pollRx h
  | sx1262 => exact Sx1262.ends_pollRx h

/-- Received packets are never forgotten. -/
theorem Family.keeps_received {allowed : List ℤ → Chip.State → Prop} {packet : Packet}
    (effect : Effect) (chip : Chip.State) (reply : effect.Answer) (after : Chip.State)
    (member : packet ∈ chip.received) (answered : family.busWith allowed effect chip reply after) :
    packet ∈ after.received := by
  cases effect with
  | xfer payload =>
      cases reply with
      | some bytes =>
          obtain ⟨mid, receives, _, transacts⟩ := answered
          rw [Transacts.received transacts]
          exact receives.keeps member
      | none =>
          obtain ⟨mid, receives, rfl | ⟨bytes, transacts⟩⟩ := answered
          · exact receives.keeps member
          · rw [Transacts.received transacts]
            exact receives.keeps member
  | setTxen => exact Chip.State.Receives.keeps answered member
  | waitBusy => exact Chip.State.Receives.keeps answered member
  | reset => exact Chip.State.Receives.keeps answered member
  | monotonic => exact Chip.State.Receives.keeps answered member
  | sleep => exact Chip.State.Receives.keeps answered member

/-- Every payload delivered is that of a packet received with a good CRC. -/
structure Receiver.Sound (bits : Flags) (receiver : Receiver) : Prop where
  chip : receiver.chip.Sound bits
  delivered : ∀ payload ∈ receiver.delivered,
    ∃ packet ∈ receiver.chip.received, packet.good = true ∧ packet.bytes = payload

theorem Receiver.Initial.sound {receiver : Receiver} (h : receiver.Initial) (bits : Flags) :
    receiver.Sound bits := by
  refine ⟨⟨fun packet last => ?_, fun done => ?_⟩, fun payload member => ?_⟩
  · rw [h.received] at last
    exact nomatch last
  · rw [h.flags, Nat.zero_testBit] at done
    exact nomatch done
  · rw [h.delivered] at member
    exact nomatch member

/-- What one step keeps. -/
theorem Receiver.Sound.step {receiver after : Receiver} {label : ReceiverStep}
    (h : receiver.Sound family.flags)
    (taken : (receiving family family.Undisturbed).step receiver label after) :
    after.Sound family.flags := by
  cases label with
  | received packet =>
      obtain rfl := taken
      refine ⟨Chip.State.receive_sound family.flags _ packet, fun payload member => ?_⟩
      obtain ⟨good, old, rest⟩ := h.delivered payload member
      exact ⟨good, List.mem_cons_of_mem _ old, rest⟩
  | polled result =>
      obtain ⟨path, delivered⟩ := taken
      have delivers := Program.ends_path (family.ends_pollRx h.chip) path
      refine ⟨delivers.sound, fun payload member => ?_⟩
      rw [delivered] at member
      rcases List.mem_append.mp member with new | old
      · obtain ⟨reception, returned, rfl⟩ := Option.mem_map.mp (Option.mem_toList.mp new)
        exact (delivers.has reception returned).packet
      · obtain ⟨good, before, rest⟩ := h.delivered payload old
        exact ⟨good, path.keeps (fun effect chip reply after => Family.keeps_received effect chip
          reply after) before, rest⟩

/-- In every run in which the packet whose start is read is the one whose flags were read,
or at least intact and of the length read, and nothing overwrites it before the buffer is
read, every payload delivered is one whole packet received with a good CRC. -/
theorem undisturbed_delivery {receiver : Receiver} {trace : List ReceiverStep}
    (run : (receiving family family.Undisturbed).Run receiver trace) :
    ∀ payload ∈ receiver.delivered,
      ∃ packet ∈ receiver.chip.received, packet.good = true ∧ packet.bytes = payload := by
  have sound : receiver.Sound family.flags :=
    run.invariant (fun _ initial => Receiver.Initial.sound initial _) fun _ _ _ h taken => h.step taken
  exact sound.delivered

end Runs

/-! ## Polls of an SX127x -/

namespace Sx127x

section Polls

variable {frequency : ℤ} {allowed : List ℤ → Chip.State → Prop} {chip : Chip.State}

/-- What a register holds. -/
def content (chip : Chip.State) (address : ℕ) : ℕ :=
  if address = regIrqFlags then chip.flags
  else if address = regRxNbBytes then chip.length
  else if address = regFifoRxCurrent then chip.start.val
  else 0

theorem reads_content (chip : Chip.State) (address : ℕ) :
    Reads chip address (content chip address) := by
  refine ⟨?_, ?_, ?_⟩ <;> rintro rfl <;> rfl

/-- A transaction that succeeds some receptions later. -/
theorem can_xfer {payload : List ℤ} {reply : List ℕ} {mid after : Chip.State}
    {post : List ℕ → Chip.State → Prop} (arrivals : chip.Receives flags mid)
    (permitted : allowed payload mid) (transacts : Transacts payload mid reply after)
    (h : post reply after) :
    (xfer payload).Can ((Family.sx127x frequency).busWith allowed) post chip := by
  have answered : (Family.sx127x frequency).busWith allowed (.xfer payload) chip (some reply) after :=
    ⟨mid, arrivals, permitted, transacts⟩
  exact Program.can_call answered h

theorem can_read {address : ℕ} (register : 0 < address) (low : address < 0x80)
    {post : ℕ → Chip.State → Prop} {mid : Chip.State} (arrivals : chip.Receives flags mid)
    (permitted : allowed [(address : ℤ), 0] mid) (h : post (content mid address) (seen mid address)) :
    (read address).Can ((Family.sx127x frequency).busWith allowed) post chip := by
  have same : address % 0x80 = address := Nat.mod_eq_of_lt low
  have transacts : Transacts [((address % 0x80 : ℕ) : ℤ), 0] mid [0, content mid address]
      (seen mid address) := by
    rw [same]
    exact .read 0 register low (reads_content mid address)
  rw [← same] at permitted
  refine Program.can_bind (can_xfer arrivals permitted transacts ?_)
  exact h

theorem can_write {address : ℕ} (low : address < 0x80) {value : ℤ} {byte : ℕ}
    (same : lowByte value = byte) {post : Unit → Chip.State → Prop}
    (permitted : allowed [((address ||| 0x80 : ℕ) : ℤ), lowByte value] chip)
    (h : post () (written chip address byte)) :
    (write address value).Can ((Family.sx127x frequency).busWith allowed) post chip := by
  have transacts : Transacts [((address ||| 0x80 : ℕ) : ℤ), lowByte value] chip []
      (written chip address byte) := by
    rw [same]
    exact .write [] low
  exact Program.can_bind (can_xfer (.refl chip) permitted transacts h)

/-- A poll that finds an intact packet returns what the last packet received before it
reads the length left there. -/
theorem can_pollRx {mid : Chip.State} (done : chip.flags.testBit flags.rxDone = true)
    (clean : chip.flags.testBit flags.crcError = false)
    (arrivals : (chip.seeFlags.clear 0x60).Receives flags mid) (some : mid.length ≠ 0)
    (free : ∀ payload state, payload.head? ≠ .some (regFifoRxCurrent : ℤ) →
      payload.head? ≠ .some (regFifo : ℤ) → allowed payload state)
    (same : allowed [(regFifoRxCurrent : ℤ), 0] mid.seeLength)
    (unspoilt : ∀ payload, allowed payload
      { mid.seeLength.seeStart with pointer := ((mid.start.val : ℕ) : ZMod 256) }) :
    (pollRx frequency).Can ((Family.sx127x frequency).busWith allowed)
      (fun result after => result.map Reception.payload = .some (mid.window mid.start mid.length) ∧
        after.received = mid.received) chip := by
  have pending : ¬content chip regIrqFlags &&& irqRxDone = 0 := by
    intro zero
    exact nomatch done.symm.trans (bit_eq_zero.mp zero)
  have intact : ¬content chip regIrqFlags &&& irqCrcError ≠ 0 :=
    not_not.mpr (bit_eq_zero.mpr clean)
  refine Program.can_bind (can_read (by decide) (by decide) (.refl chip)
    (free _ _ (by decide) (by decide)) ?_)
  rw [if_neg pending]
  have all : lowByte ((irqRxDone ||| irqCrcError : ℕ) : ℤ) = (0x60 : ℕ) := rfl
  refine Program.can_bind (can_write (by decide) all (free _ _ (by decide) (by decide)) ?_)
  rw [if_neg intact]
  refine Program.can_bind (can_read (by decide) (by decide) arrivals
    (free _ _ (by decide) (by decide)) ?_)
  refine Program.can_bind (can_read (by decide) (by decide) (.refl _) same ?_)
  have low : lowByte (mid.start.val : ℤ) = (mid.start.val : ℕ) := by
    have := ZMod.val_lt mid.start
    unfold lowByte
    omega
  refine Program.can_bind (can_write (by decide) low (free _ _ ?_ ?_) ?_)
  · exact fun eq => absurd (Option.some_inj.mp eq) (by decide)
  · exact fun eq => absurd (Option.some_inj.mp eq) (by decide)
  refine Program.can_bind (can_xfer (.refl _) (unspoilt _) (.fifo _ _ 0) ?_)
  refine Program.can_bind (can_read (by decide) (by decide) (.refl _)
    (free _ _ (by decide) (by decide)) ?_)
  refine Program.can_bind (can_read (by decide) (by decide) (.refl _)
    (free _ _ (by decide) (by decide)) ?_)
  have window : (mid.window ((mid.start.val : ℕ) : ZMod 256)
      (List.replicate mid.length (0 : ℤ)).length) = mid.window mid.start mid.length := by
    rw [ZMod.natCast_zmod_val, List.length_replicate]
  have filled : ¬mid.window ((mid.start.val : ℕ) : ZMod 256)
      (List.replicate mid.length (0 : ℤ)).length = [] := by
    rw [window, ← List.length_eq_zero_iff, Chip.State.window_length]
    exact some
  refine ⟨?_, rfl⟩
  change Option.map Reception.payload (ite (mid.window ((mid.start.val : ℕ) : ZMod 256)
    (List.replicate mid.length (0 : ℤ)).length = []) _ _) = _
  rw [if_neg filled]
  exact congrArg Option.some window

/-- A poll in a run. -/
theorem run_polled {receiver : Receiver} {trace : List ReceiverStep}
    (run : (receiving (.sx127x frequency) allowed).Run receiver trace) {payload : List ℕ}
    {received : List Packet}
    (poll : (pollRx frequency).Can ((Family.sx127x frequency).busWith allowed)
      (fun result after => result.map Reception.payload = .some payload ∧
        after.received = received) receiver.chip) :
    ∃ trace after, (receiving (.sx127x frequency) allowed).Run after trace ∧
      after.delivered = payload :: receiver.delivered ∧ after.chip.received = received := by
  obtain ⟨result, last, path, returned, same⟩ := Program.can_path poll
  have step : (receiving (.sx127x frequency) allowed).step receiver (.polled result)
      ⟨last, payload :: receiver.delivered⟩ := by
    refine ⟨path, ?_⟩
    rw [returned]
    rfl
  exact ⟨_, _, run.step step, rfl, same⟩

end Polls

/-- An empty chip, an intact packet and a damaged one. -/
def listening : Receiver := ⟨⟨0, 0, 0, fun _ => 0, 0, [], 0, 0, none, 0⟩, []⟩

def intactPacket : Packet := ⟨[1], 0, true, by decide⟩

def damagedPacket : Packet := ⟨[2], 1, false, by decide⟩

theorem run_intact (allowed : List ℤ → Chip.State → Prop) :
    (receiving (.sx127x 868000000) allowed).Run
      { listening with chip := listening.chip.receive flags intactPacket } [.received intactPacket] := by
  have start : (receiving (.sx127x 868000000) allowed).init listening := ⟨rfl, rfl, rfl⟩
  exact (System.Run.start start).step rfl

/-- An intact packet is polled in peace. -/
theorem intact_packet_is_delivered : ∃ receiver trace,
    (receiving (.sx127x 868000000) (Family.sx127x 868000000).Undisturbed).Run receiver trace ∧
      receiver.delivered = [[1]] ∧ ∀ payload ∈ receiver.delivered,
        ∃ packet ∈ receiver.chip.received, packet.good = true ∧ packet.bytes = payload := by
  have free (payload : List ℤ) (state : Chip.State)
      (notStart : payload.head? ≠ some (regFifoRxCurrent : ℤ))
      (notFifo : payload.head? ≠ some (regFifo : ℤ)) :
      (Family.sx127x 868000000).Undisturbed payload state :=
    ⟨fun same => absurd same notStart, fun same => absurd same notFifo⟩
  obtain ⟨trace, receiver, run, delivered, _⟩ := run_polled (run_intact _)
    (can_pollRx (by decide) (by decide) (.refl _) (by decide) free
      ⟨fun _ => .inl rfl, fun other => absurd other (by decide)⟩
      fun _ => ⟨fun _ => .inl rfl, fun _ => .inl rfl⟩)
  have window := Chip.State.receive_holds flags listening.chip intactPacket
  refine ⟨receiver, trace, run, delivered.trans ?_, undisturbed_delivery run⟩
  exact congrArg (· :: []) window

/-- A damaged packet arrives after the flags of an intact one were read, and its bytes are
delivered. -/
theorem damaged_packet_is_delivered :
    ¬∀ (family : Family) (receiver : Receiver) (trace : List ReceiverStep),
      (receiving family fun _ _ => True).Run receiver trace → ∀ payload ∈ receiver.delivered,
        ∃ packet ∈ receiver.chip.received, packet.good = true ∧ packet.bytes = payload := by
  intro always
  obtain ⟨trace, receiver, run, delivered, received⟩ := run_polled (run_intact fun _ _ => True)
    (can_pollRx (by decide) (by decide) (.step damagedPacket (.refl _)) (by decide)
      (fun _ _ _ _ => trivial) trivial fun _ => trivial)
  have window := Chip.State.receive_holds flags
    ((listening.chip.receive flags intactPacket).seeFlags.clear 0x60) damagedPacket
  have member : [2] ∈ receiver.delivered := by
    rw [delivered]
    exact List.mem_cons.mpr (.inl window.symm)
  obtain ⟨packet, among, good, bytes⟩ := always _ _ _ run [2] member
  rw [received] at among
  rcases List.mem_cons.mp among with rfl | among
  · exact nomatch good
  · obtain rfl := List.mem_singleton.mp among
    exact nomatch bytes

end Sx127x

end LorahamRns.Radio
