import Mathlib

/-!
# Terminating decimals and their text

A float in exact arithmetic is the decimal number its shortest text denotes.
The decimals form a subring of the rationals, so sums and differences of
readings stay decimals, and every decimal has a finite text that reads back to
the same number.
-/

namespace LorahamRns.Lib.Decimal

/-- The rationals with a finite decimal expansion. -/
def decimals : Subring ℚ where
  carrier := {value | ∃ scale : ℕ, value.den ∣ 10 ^ scale}
  zero_mem' := ⟨0, by simp⟩
  one_mem' := ⟨0, by simp⟩
  add_mem' := by
    rintro left right ⟨first, hleft⟩ ⟨second, hright⟩
    refine ⟨first + second, (Rat.add_den_dvd left right).trans ?_⟩
    rw [pow_add]
    exact Nat.mul_dvd_mul hleft hright
  mul_mem' := by
    rintro left right ⟨first, hleft⟩ ⟨second, hright⟩
    refine ⟨first + second, (Rat.mul_den_dvd left right).trans ?_⟩
    rw [pow_add]
    exact Nat.mul_dvd_mul hleft hright
  neg_mem' := by
    rintro value ⟨scale, hvalue⟩
    exact ⟨scale, by simpa using hvalue⟩

-- A definition that computes with decimals names these facts, and does not hold a proof of them.
instance subring_zero : ZeroMemClass (Subring ℚ) ℚ := inferInstance
instance subring_one : OneMemClass (Subring ℚ) ℚ := inferInstance
instance subring_neg : NegMemClass (Subring ℚ) ℚ := inferInstance
instance subring_sub : AddSubgroupClass (Subring ℚ) ℚ := inferInstance
instance subring_mul : SubsemiringClass (Subring ℚ) ℚ := inferInstance
instance two_atLeastTwo : Nat.AtLeastTwo 2 := inferInstance
instance hundred_atLeastTwo : Nat.AtLeastTwo 100 := inferInstance

end LorahamRns.Lib.Decimal

namespace LorahamRns.Lib

abbrev Decimal : Type := Decimal.decimals

namespace Decimal

@[simp]
theorem coe_ofNat (n : ℕ) [n.AtLeastTwo] :
    ((no_index (OfNat.ofNat n) : Decimal) : ℚ) = OfNat.ofNat n :=
  map_ofNat decimals.subtype n

@[simp]
theorem coe_natCast (n : ℕ) : ((n : Decimal) : ℚ) = n :=
  map_natCast decimals.subtype n

/-! ## Scale and significand -/

/-- The first exponent from `start` on whose power of ten `den` divides. -/
def scaleFrom (den : ℕ) : ℕ → ℕ → ℕ
  | 0, start => start
  | fuel + 1, start => if den ∣ 10 ^ start then start else scaleFrom den fuel (start + 1)

/-- The number of digits behind the point. -/
def scale (value : Decimal) : ℕ := scaleFrom value.val.den value.val.den 0

/-- The digits of the value with the point left out. -/
def significand (value : Decimal) : ℕ :=
  value.val.num.natAbs * (10 ^ value.scale / value.val.den)

theorem dvd_scaleFrom {den exponent : ℕ} (hdvd : den ∣ 10 ^ exponent) (fuel start : ℕ)
    (hbound : exponent ≤ start + fuel) : den ∣ 10 ^ scaleFrom den fuel start := by
  induction fuel generalizing start with
  | zero => exact hdvd.trans (pow_dvd_pow 10 hbound)
  | succ fuel ih =>
      unfold scaleFrom
      split
      · assumption
      · exact ih (start + 1) (by omega)

theorem dvd_ten_pow_self {den exponent : ℕ} (hden : den ≠ 0) (hdvd : den ∣ 10 ^ exponent) :
    den ∣ 10 ^ den := by
  rw [← Nat.factorization_le_iff_dvd hden (by positivity)]
  intro prime
  by_cases hzero : den.factorization prime = 0
  · rw [hzero]
    exact Nat.zero_le _
  · have hprime : prime.Prime := Nat.prime_of_mem_primeFactors
      (Nat.support_factorization den ▸ Finsupp.mem_support_iff.mpr hzero)
    have hten : prime ∣ 10 :=
      hprime.dvd_of_dvd_pow ((Nat.dvd_of_factorization_pos hzero).trans hdvd)
    have hpos : 1 ≤ (10 : ℕ).factorization prime := by
      rw [← hprime.dvd_iff_one_le_factorization (by decide)]
      exact hten
    rw [Nat.factorization_pow]
    calc den.factorization prime ≤ den := (Nat.factorization_lt prime hden).le
      _ ≤ den * (10 : ℕ).factorization prime := Nat.le_mul_of_pos_right _ hpos

theorem den_dvd_scale (value : Decimal) : value.val.den ∣ 10 ^ value.scale := by
  obtain ⟨exponent, hdvd⟩ := value.property
  exact dvd_scaleFrom (dvd_ten_pow_self value.val.den_nz hdvd) _ _ (by omega)

/-- A decimal is its significand with the point put back. -/
theorem abs_eq_significand (value : Decimal) :
    |value.val| = (value.significand : ℚ) / 10 ^ value.scale := by
  obtain ⟨factor, hfactor⟩ := den_dvd_scale value
  have hden : (value.val.den : ℚ) ≠ 0 := by exact_mod_cast value.val.den_nz
  have hquotient : 10 ^ value.scale / value.val.den = factor := by
    rw [hfactor]
    exact Nat.mul_div_cancel_left _ (Nat.pos_of_ne_zero value.val.den_nz)
  have hpow : (10 : ℚ) ^ value.scale = value.val.den * factor := by exact_mod_cast hfactor
  have hne : (value.val.den : ℚ) * factor ≠ 0 := by rw [← hpow]; positivity
  have habs : |value.val| = (value.val.num.natAbs : ℚ) / value.val.den := by
    conv_lhs => rw [← Rat.num_div_den value.val]
    rw [abs_div, Nat.abs_cast, Nat.cast_natAbs, Int.cast_abs]
  have hfactor_ne : (factor : ℚ) ≠ 0 := right_ne_zero_of_mul hne
  rw [habs, significand, hquotient, hpow]
  push_cast
  field_simp

/-- An integer scaled by a power of ten. -/
def ofScaled (coefficient : ℤ) (exponent : ℤ) : Decimal :=
  ⟨(coefficient : ℚ) * 10 ^ exponent, by
    refine decimals.mul_mem (intCast_mem decimals coefficient) ?_
    cases exponent with
    | ofNat power =>
        simp only [Int.ofNat_eq_natCast, zpow_natCast]
        exact decimals.pow_mem (ofNat_mem decimals 10) power
    | negSucc power =>
        refine ⟨power + 1, ?_⟩
        have hinverse : (10 : ℚ) ^ Int.negSucc power =
            Rat.divInt 1 ((10 ^ (power + 1) : ℕ) : ℤ) := by
          rw [zpow_negSucc, Rat.divInt_eq_div]
          push_cast
          rw [one_div]
        rw [hinverse]
        exact Int.natCast_dvd_natCast.mp (Rat.den_dvd _ _)⟩

@[simp]
theorem ofScaled_val (coefficient exponent : ℤ) :
    (ofScaled coefficient exponent).val = (coefficient : ℚ) * 10 ^ exponent := rfl

/-! ## Numerals -/

/-- The parts of a number token: sign, digits before and behind the point, and
the exponent with its own sign.  An absent fraction is empty. -/
structure Numeral where
  negative : Bool
  whole : List Char
  fraction : List Char
  exponent : Option (Bool × List Char)
  deriving DecidableEq, Repr

namespace Numeral

/-- A token without fraction and exponent denotes an integer. -/
def isFloat (numeral : Numeral) : Bool :=
  !numeral.fraction.isEmpty || numeral.exponent.isSome

def signed (negative : Bool) (magnitude : ℕ) : ℤ :=
  if negative then -magnitude else magnitude

def exponentValue (numeral : Numeral) : ℤ :=
  match numeral.exponent with
  | none => 0
  | some (negative, digits) => signed negative (Nat.ofDigitChars 10 digits 0)

def intValue (numeral : Numeral) : ℤ :=
  signed numeral.negative (Nat.ofDigitChars 10 numeral.whole 0)

def value (numeral : Numeral) : Decimal :=
  ofScaled
    (signed numeral.negative (Nat.ofDigitChars 10 (numeral.whole ++ numeral.fraction) 0))
    (numeral.exponentValue - numeral.fraction.length)

def exponentText : Option (Bool × List Char) → List Char
  | none => []
  | some (negative, digits) => 'e' :: (if negative then '-' else '+') :: digits

def text (numeral : Numeral) : List Char :=
  (if numeral.negative then ['-'] else []) ++ numeral.whole ++
    (if numeral.fraction.isEmpty then [] else '.' :: numeral.fraction) ++
    exponentText numeral.exponent

end Numeral

/-- Exponents are written with at least two digits. -/
def exponentDigits (exponent : ℤ) : List Char :=
  if exponent.natAbs < 10 then '0' :: Nat.toDigits 10 exponent.natAbs
  else Nat.toDigits 10 exponent.natAbs

/-- The numeral `repr` writes for a float: fixed notation while the point lies
at most sixteen digits to the right and three zeros to the left, exponent
notation otherwise. -/
def numeral (value : Decimal) : Numeral :=
  let negative := decide (value < 0)
  let digits := Nat.toDigits 10 value.significand
  let point : ℤ := digits.length - value.scale
  if value.significand = 0 then ⟨negative, ['0'], ['0'], none⟩
  else if 0 < point ∧ point ≤ 16 then
    if value.scale = 0 then ⟨negative, digits, ['0'], none⟩
    else ⟨negative, digits.take point.toNat, digits.drop point.toNat, none⟩
  else if -4 < point ∧ point ≤ 0 then
    ⟨negative, ['0'], List.replicate (-point).toNat '0' ++ digits, none⟩
  else
    let kept := digits.rdropWhile (· == '0')
    ⟨negative, kept.take 1, kept.drop 1,
      some (decide (point - 1 < 0), exponentDigits (point - 1))⟩

def text (value : Decimal) : List Char := value.numeral.text

/-! ## The numeral denotes the value it was made from -/

theorem signed_cast (negative : Bool) (magnitude : ℕ) :
    (Numeral.signed negative magnitude : ℚ) =
      (if negative then -1 else 1) * (magnitude : ℚ) := by
  cases negative <;> simp [Numeral.signed]

theorem signed_natAbs (integer : ℤ) :
    Numeral.signed (decide (integer < 0)) integer.natAbs = integer := by
  unfold Numeral.signed
  by_cases hneg : integer < 0
  · simp only [hneg, decide_true, if_true]
    omega
  · simp only [hneg, decide_false, Bool.false_eq_true, if_false]
    omega

theorem ofScaled_eq_of_abs (value : Decimal) (magnitude : ℕ) (exponent : ℤ)
    (habs : |value.val| = (magnitude : ℚ) * 10 ^ exponent) :
    ofScaled (Numeral.signed (decide (value < 0)) magnitude) exponent = value := by
  apply Subtype.ext
  rw [ofScaled_val, signed_cast]
  by_cases hneg : value < 0
  · have hval : value.val < 0 := hneg
    rw [abs_of_neg hval] at habs
    simp only [hneg, decide_true, if_true]
    linarith
  · have hval : 0 ≤ value.val := not_lt.mp hneg
    rw [abs_of_nonneg hval] at habs
    simp only [hneg, decide_false, Bool.false_eq_true, if_false]
    linarith

@[simp]
theorem ofDigits_zero_cons (digits : List Char) :
    Nat.ofDigitChars 10 ('0' :: digits) 0 = Nat.ofDigitChars 10 digits 0 := by
  simp [Nat.ofDigitChars_cons]

@[simp]
theorem ofDigits_replicate_append (count : ℕ) (digits : List Char) :
    Nat.ofDigitChars 10 (List.replicate count '0' ++ digits) 0 = Nat.ofDigitChars 10 digits 0 := by
  rw [Nat.ofDigitChars_append, Nat.ofDigitChars_replicate_zero, Nat.mul_zero]

theorem exponentDigits_value (exponent : ℤ) :
    Nat.ofDigitChars 10 (exponentDigits exponent) 0 = exponent.natAbs := by
  unfold exponentDigits
  split <;> simp

/-- Dropping the trailing zeros of a digit string divides by a power of ten. -/
theorem ofDigits_rdropWhile (digits : List Char) :
    Nat.ofDigitChars 10 digits 0 =
      Nat.ofDigitChars 10 (digits.rdropWhile (· == '0')) 0 *
        10 ^ (digits.length - (digits.rdropWhile (· == '0')).length) := by
  induction digits using List.reverseRecOn with
  | nil => simp
  | append_singleton rest last ih =>
      have hshort : (rest.rdropWhile (· == '0')).length ≤ rest.length :=
        (List.rdropWhile_prefix _ rest).length_le
      by_cases hlast : last = '0'
      · subst hlast
        rw [List.rdropWhile_concat_pos _ _ _ (by simp), Nat.ofDigitChars_append, ih,
          List.length_append, List.length_singleton, Nat.sub_add_comm hshort, pow_succ]
        simp only [Nat.ofDigitChars_cons, Nat.ofDigitChars_nil]
        simp only [Char.reduceToNat, Nat.sub_self, Nat.add_zero]
        ring
      · rw [List.rdropWhile_concat_neg _ _ _ (by simpa using hlast)]
        simp

theorem numeral_value (value : Decimal) : value.numeral.value = value := by
  have habs := abs_eq_significand value
  unfold numeral
  generalize hdigits : Nat.toDigits 10 value.significand = digits
  have hvalue : Nat.ofDigitChars 10 digits 0 = value.significand := by
    rw [← hdigits, Nat.ofDigitChars_ten_toDigits]
  have hlength : 0 < digits.length := hdigits ▸ Nat.length_toDigits_pos
  dsimp only
  by_cases hzero : value.significand = 0
  · -- zero
    rw [if_pos hzero]
    refine ofScaled_eq_of_abs value _ _ ?_
    rw [habs, hzero]
    simp
  rw [if_neg hzero]
  by_cases hfixed : 0 < (digits.length : ℤ) - value.scale ∧ (digits.length : ℤ) - value.scale ≤ 16
  · rw [if_pos hfixed]
    by_cases hscale : value.scale = 0
    · -- an integer, written with one zero behind the point
      rw [if_pos hscale]
      refine ofScaled_eq_of_abs value _ _ ?_
      rw [habs, hscale, Nat.ofDigitChars_append, hvalue]
      simp [Nat.ofDigitChars_cons, Numeral.exponentValue]
      ring
    · -- the point falls inside the digits
      rw [if_neg hscale]
      refine ofScaled_eq_of_abs value _ _ ?_
      have hdrop : (digits.drop ((digits.length : ℤ) - value.scale).toNat).length = value.scale := by
        rw [List.length_drop]
        omega
      rw [List.take_append_drop, hvalue, hdrop, habs]
      simp [Numeral.exponentValue, div_eq_mul_inv]
  rw [if_neg hfixed]
  by_cases hsmall : -4 < (digits.length : ℤ) - value.scale ∧ (digits.length : ℤ) - value.scale ≤ 0
  · -- zeros between the point and the first digit
    rw [if_pos hsmall]
    refine ofScaled_eq_of_abs value _ _ ?_
    have hwidth : (List.replicate (-((digits.length : ℤ) - value.scale)).toNat '0' ++ digits).length =
        value.scale := by
      rw [List.length_append, List.length_replicate]
      omega
    rw [hwidth, habs, List.singleton_append, ofDigits_zero_cons, ofDigits_replicate_append, hvalue]
    simp [Numeral.exponentValue, div_eq_mul_inv]
  · -- exponent notation
    rw [if_neg hsmall]
    refine ofScaled_eq_of_abs value _ _ ?_
    have hstrip := ofDigits_rdropWhile digits
    have hprefix := (List.rdropWhile_prefix (· == '0') digits).length_le
    generalize hkept : digits.rdropWhile (· == '0') = kept at hstrip hprefix
    have hne : 0 < kept.length := by
      rcases Nat.eq_zero_or_pos kept.length with hnil | hpos
      · rw [List.length_eq_zero_iff.mp hnil, hvalue] at hstrip
        exact absurd hstrip (by simpa using hzero)
      · exact hpos
    rw [List.take_append_drop, habs, ← hvalue, hstrip]
    simp only [Numeral.exponentValue, exponentDigits_value, signed_natAbs, List.length_drop]
    have hexponent : (digits.length : ℤ) - value.scale - 1 - ((kept.length - 1 : ℕ) : ℤ) =
        ((digits.length - kept.length : ℕ) : ℤ) - (value.scale : ℤ) := by omega
    rw [hexponent, zpow_sub₀ (by norm_num), zpow_natCast, zpow_natCast]
    push_cast
    ring

end Decimal

end LorahamRns.Lib
