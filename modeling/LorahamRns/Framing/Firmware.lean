import LorahamRns.Framing.Reassembler

/-!
# The reassembler and the firmware's receive rules

`Firmware` is the machine of the module docstring, with neither the age guard nor the
header-only rule.  The two machines part when a guard discards a half that the firmware
then completes.
-/

namespace LorahamRns.Framing

open Reassembler (Reception after outputs deliveries lastAssembly)

namespace Firmware

/-- The firmware's buffer: the sequence and the first half. -/
abbrev Buffer : Type := Option (UInt8 × Bytes)

/-- The firmware's rules for one frame.  A frame without even a header does nothing. -/
def feed (buffer : Buffer) : Bytes → Buffer × Option Bytes
  | [] => (buffer, none)
  | header :: payload =>
      let seq := header >>> 4
      if header &&& flagSplit ≠ 0 then
        match buffer with
        | none => (some (seq, payload), none)
        | some (held, half) =>
            if held = seq then (none, some (half ++ payload)) else (some (seq, payload), none)
      else (none, some payload)

def feedAll (buffer : Buffer) : List Reception → Buffer × List (Option Bytes)
  | [] => (buffer, [])
  | reception :: rest =>
      let next := feed buffer reception.raw
      let last := feedAll next.1 rest
      (last.1, next.2 :: last.2)

/-- The buffer of a firmware that was idle at first. -/
def after (fed : List Reception) : Buffer := (feedAll none fed).1

/-- The packets it delivered, in order. -/
def deliveries (fed : List Reception) : List Bytes := (feedAll none fed).2.reduceOption

theorem feedAll_append (buffer : Buffer) (fed more : List Reception) :
    feedAll buffer (fed ++ more) =
      ((feedAll (feedAll buffer fed).1 more).1,
        (feedAll buffer fed).2 ++ (feedAll (feedAll buffer fed).1 more).2) := by
  induction fed generalizing buffer with
  | nil => rfl
  | cons reception rest ih => simp only [List.cons_append, feedAll, ih]

theorem after_concat (fed : List Reception) (last : Reception) :
    after (fed ++ [last]) = (feed (after fed) last.raw).1 := by
  unfold after
  rw [feedAll_append]
  rfl

/-- The frame completes, in the firmware, a half that the reassembler no longer has or
finds too old. -/
def Completes (maxAge : Option ℚ) (pending : Option Half) (buffer : Buffer)
    (reception : Reception) : Prop :=
  ∃ seq payload, reading reception.raw = .split seq payload ∧ (∃ half, buffer = some (seq, half)) ∧
    ∀ half ∈ pending, ¬half.Young maxAge reception.now

/-- No frame of the stream completes, in the firmware, a half that a guard has discarded. -/
def Kept (maxAge : Option ℚ) (fed : List Reception) : Prop :=
  ∀ earlier reception later, fed = earlier ++ reception :: later →
    ¬Completes maxAge (Reassembler.after maxAge earlier).half (after earlier) reception

end Firmware

/-- Both hold the same half, or the reassembler holds none. -/
def Follows (pending : Option Half) (buffer : Firmware.Buffer) : Prop :=
  ∀ half ∈ pending, buffer = some (half.seq, half.payload)

/-- One frame that does not complete a discarded half: what the reassembler delivers, the
firmware delivers too. -/
theorem Follows.step {maxAge : Option ℚ} {pending : Option Half} {buffer : Firmware.Buffer}
    {reception : Reception} (follows : Follows pending buffer)
    (kept : ¬Firmware.Completes maxAge pending buffer reception) :
    let next := assemble maxAge pending reception.now (reading reception.raw)
    Follows next.half (Firmware.feed buffer reception.raw).1 ∧
      ∀ packet ∈ next.packet, (Firmware.feed buffer reception.raw).2 = some packet := by
  obtain ⟨raw, now⟩ := reception
  unfold Firmware.Completes at kept
  match raw with
  | [] => exact ⟨nofun, nofun⟩
  | [header] => exact ⟨nofun, nofun⟩
  | header :: first :: rest =>
      by_cases split : header &&& flagSplit ≠ 0
      · have read : reading (header :: first :: rest) = .split (header >>> 4) (first :: rest) :=
          if_pos split
        dsimp only at kept ⊢
        rw [read] at kept ⊢
        simp only [Firmware.feed, if_pos split]
        cases buffer with
        | none =>
            cases pending with
            | none => exact ⟨fun half same => Option.mem_some_iff.mp same ▸ rfl, nofun⟩
            | some half => exact absurd (follows half rfl) (Option.some_ne_none _).symm
        | some held =>
            obtain ⟨seq, head⟩ := held
            dsimp only
            by_cases completes : seq = header >>> 4
            · subst completes
              rw [if_pos rfl]
              have young : ∃ half ∈ pending, half.Young maxAge now := by
                by_contra none
                simp only [not_exists, not_and] at none
                exact kept ⟨_, _, rfl, ⟨head, rfl⟩, none⟩
              obtain ⟨half, rfl, young⟩ := young
              obtain ⟨same, rfl⟩ := Prod.mk.inj (Option.some_inj.mp (follows half rfl))
              rw [assemble_second ⟨young, same.symm⟩]
              exact ⟨nofun, fun packet same => same⟩
            · rw [if_neg completes]
              cases pending with
              | none => exact ⟨fun half same => Option.mem_some_iff.mp same ▸ rfl, nofun⟩
              | some half =>
                  obtain ⟨rfl⟩ := Option.some_inj.mp (follows half rfl)
                  rw [assemble_other fun both => completes both.2]
                  exact ⟨fun half same => Option.mem_some_iff.mp same ▸ rfl, nofun⟩
      · have read : reading (header :: first :: rest) = .whole (first :: rest) := if_neg split
        dsimp only
        rw [read]
        simp only [Firmware.feed, if_neg split]
        exact ⟨nofun, fun packet same => same⟩

theorem Firmware.Kept.of_concat {maxAge : Option ℚ} {fed : List Reception} {last : Reception}
    (kept : Kept maxAge (fed ++ [last])) : Kept maxAge fed := by
  rintro earlier reception later rfl
  exact kept earlier reception (later ++ [last]) (by simp)

end LorahamRns.Framing
