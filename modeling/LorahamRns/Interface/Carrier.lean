import LorahamRns.Interface.Programmed

/-!
# Carrier and power

Carrier and power are decoded from what the chip was last sent, as the modem parameters
are.  The constructor sets them for a channel inside one permitted segment.
-/

namespace LorahamRns.Interface

open LorahamRns.Lib LorahamRns.Radio
open Program (ends_bind ends_mono ends_any ends_ofExcept)

/-! ## Carrier and power -/

/-- The frequency registers of an SX127x. -/
def Sx127x.carrierOf (sent : Sent) : Option ℚ := do
  let high ← lastWrite Sx127x.regFrfMsb sent
  let mid ← lastWrite (Sx127x.regFrfMsb + 1) sent
  let low ← lastWrite (Sx127x.regFrfMsb + 2) sent
  pure ((high * 2 ^ 16 + mid * 2 ^ 8 + low : ℤ) * Sx127x.fstep)

/-- The power of an SX127x that sends through PA_BOOST, without the 20 dBm option. -/
def Sx127x.powerOf (sent : Sent) : Option ℤ := do
  let dac ← lastWrite Sx127x.regPaDac sent
  let config ← lastWrite Sx127x.regPaConfig sent
  if dac % 2 ^ 3 = 4 ∧ 2 ^ 7 ≤ config then pure (2 + config % 2 ^ 4) else none

def Sx1262.carrierOf (sent : Sent) : Option ℚ :=
  match lastCommand Sx1262.cmdSetRfFrequency sent with
  | some [high, upper, lower, low] =>
      some ((high * 2 ^ 24 + upper * 2 ^ 16 + lower * 2 ^ 8 + low : ℤ) * Sx1262.fstep)
  | _ => none

/-- The power of an SX1262, a signed byte. -/
def Sx1262.powerOf (sent : Sent) : Option ℤ :=
  match lastCommand Sx1262.cmdSetTxParams sent with
  | some [power, _] => some (if power < 2 ^ 7 then power else power - 2 ^ 8)
  | _ => none

def carrierOf (chip : Chip) (sent : Sent) : Option ℚ :=
  match chip with
  | .sx1276 | .sx1277 | .sx1278 => Sx127x.carrierOf sent
  | .sx1262 => Sx1262.carrierOf sent

def powerOf (chip : Chip) (sent : Sent) : Option ℤ :=
  match chip with
  | .sx1276 | .sx1277 | .sx1278 => Sx127x.powerOf sent
  | .sx1262 => Sx1262.powerOf sent

/-- The step of the synthesizer. -/
def stepOf : Chip → ℚ
  | .sx1276 | .sx1277 | .sx1278 => Sx127x.fstep
  | .sx1262 => Sx1262.fstep

/-- The first bytes of the transactions that set the carrier. -/
def carrierHeads : Chip → List ℤ
  | .sx1276 | .sx1277 | .sx1278 =>
      [((Sx127x.regFrfMsb ||| 0x80 : ℕ) : ℤ), ((Sx127x.regFrfMsb + 1 ||| 0x80 : ℕ) : ℤ),
        ((Sx127x.regFrfMsb + 2 ||| 0x80 : ℕ) : ℤ)]
  | .sx1262 => [Sx1262.cmdSetRfFrequency]

/-- Those that set the power. -/
def powerHeads : Chip → List ℤ
  | .sx1276 | .sx1277 | .sx1278 =>
      [((Sx127x.regPaDac ||| 0x80 : ℕ) : ℤ), ((Sx127x.regPaConfig ||| 0x80 : ℕ) : ℤ)]
  | .sx1262 => [Sx1262.cmdSetTxParams]

/-- A call that sends nothing with such a first byte, and does not reset the chip. -/
def Spares (heads : List ℤ) : Effect → Prop
  | .xfer payload => ∀ head ∈ heads, payload.head? ≠ some head
  | .reset => False
  | _ => True

theorem Spares.subset {heads more : List ℤ} (sub : heads ⊆ more) {effect : Effect}
    (h : Spares more effect) : Spares heads effect := by
  cases effect with
  | xfer payload => exact fun head member => h head (sub member)
  | _ => exact h

section Spared

variable {payload : List ℤ} {sent : Sent} {chip : Chip}

theorem lastWrite_spared {reg : ℕ} (h : payload.head? ≠ some ((reg ||| 0x80 : ℕ) : ℤ)) :
    lastWrite reg (payload :: sent) = lastWrite reg sent := by
  unfold lastWrite
  rw [List.findSome?_cons]
  split
  · next value found =>
      split at found
      · next address value' =>
          obtain ⟨same, -⟩ := Option.ite_none_right_eq_some.mp found
          exact absurd (congrArg some same) h
      · cases found
  · rfl

theorem lastCommand_spared {opcode : ℤ} (h : payload.head? ≠ some opcode) :
    lastCommand opcode (payload :: sent) = lastCommand opcode sent := by
  unfold lastCommand
  rw [List.findSome?_cons]
  split
  · next params found =>
      split at found
      · next first params' =>
          obtain ⟨same, -⟩ := Option.ite_none_right_eq_some.mp found
          exact absurd (congrArg some same) h
      · cases found
  · rfl

theorem carrierOf_spared (h : Spares (carrierHeads chip) (.xfer payload)) :
    carrierOf chip (payload :: sent) = carrierOf chip sent := by
  cases chip with
  | sx1262 =>
      change Sx1262.carrierOf _ = Sx1262.carrierOf _
      unfold Sx1262.carrierOf
      rw [lastCommand_spared (h _ (List.mem_singleton_self _))]
  | sx1276 | sx1277 | sx1278 =>
      change Sx127x.carrierOf _ = Sx127x.carrierOf _
      unfold Sx127x.carrierOf
      rw [lastWrite_spared (h _ (by simp [carrierHeads])),
        lastWrite_spared (h _ (by simp [carrierHeads])),
        lastWrite_spared (h _ (by simp [carrierHeads]))]

theorem powerOf_spared (h : Spares (powerHeads chip) (.xfer payload)) :
    powerOf chip (payload :: sent) = powerOf chip sent := by
  cases chip with
  | sx1262 =>
      change Sx1262.powerOf _ = Sx1262.powerOf _
      unfold Sx1262.powerOf
      rw [lastCommand_spared (h _ (List.mem_singleton_self _))]
  | sx1276 | sx1277 | sx1278 =>
      change Sx127x.powerOf _ = Sx127x.powerOf _
      unfold Sx127x.powerOf
      rw [lastWrite_spared (h _ (by simp [powerHeads])),
        lastWrite_spared (h _ (by simp [powerHeads]))]

end Spared

/-! ## The constructor -/

/-- A program that leaves what is read off the transactions as it was. -/
def Kept {α γ : Type} (read : Sent → γ) (program : Driver α) : Prop :=
  ∀ sent, Ends program (fun _ after => read after = read sent) sent

section Kept

variable {α β γ : Type} {read : Sent → γ}

end Kept

/-- What the chip was last sent is permitted: carrier and configured bandwidth stay within
half a synthesizer step of one segment of the band, the power within that of the band, and
the hourly airtime limit within the duty of the segment. -/
structure Permitted (c : Configuration) (iface : LoRaSPIInterface) (sent : Sent) : Prop where
  channel : ∃ segment ∈ (permittedSegments.lookup c.band).getD [], ∃ carrier,
    carrierOf iface.profile.chip sent = some carrier ∧
      segment.low - stepOf iface.profile.chip / 2 ≤ carrier - iface.settings.bandwidth / 2 ∧
        carrier + iface.settings.bandwidth / 2 ≤ segment.high + stepOf iface.profile.chip / 2 ∧
          0 < iface.longLimit ∧ iface.longLimit ≤ segment.percent
  power : ∃ power cap, powerOf iface.profile.chip sent = some power ∧
    bandPolicy.lookup c.band = some cap ∧ power ≤ cap

end LorahamRns.Interface
