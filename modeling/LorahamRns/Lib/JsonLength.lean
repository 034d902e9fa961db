import LorahamRns.Lib.Json

/-!
# How long the text is

The length of a written document from the lengths of its parts, with bounds for
the numbers in it.
-/

namespace LorahamRns.Lib

namespace Json

theorem length_dumpsItems (items : List Json) :
    (dumpsItems items).length =
      (items.map fun item => (dumps item).length).sum + 2 * (items.length - 1) := by
  induction items with
  | nil => rfl
  | cons item rest ih =>
      cases rest with
      | nil => simp [dumpsItems]
      | cons next rest =>
          simp only [dumpsItems, List.length_append, List.length_cons, ih, List.map_cons,
            List.sum_cons]
          omega

theorem length_dumps_arr (items : List Json) :
    (dumps (.arr items)).length =
      (items.map fun item => (dumps item).length).sum + 2 * (items.length - 1) + 2 := by
  rw [dumps, List.length_append, List.length_cons, length_dumpsItems]
  rfl

theorem length_dumps_obj (fields : List (List Char × Json)) :
    (dumps (.obj fields)).length = (dumpsFields fields).length + 2 := by
  rw [dumps, List.length_append, List.length_cons]
  rfl

theorem length_dumpsFields_singleton (key : List Char) (value : Json) :
    (dumpsFields [(key, value)]).length = (stringText key).length + (dumps value).length + 2 := by
  rw [dumpsFields, List.length_append, List.length_cons, List.length_cons]
  omega

theorem length_dumpsFields_cons (key : List Char) (value : Json) (next : List Char × Json)
    (rest : List (List Char × Json)) :
    (dumpsFields ((key, value) :: next :: rest)).length =
      (stringText key).length + (dumps value).length + (dumpsFields (next :: rest)).length + 4 := by
  rw [dumpsFields]
  simp only [List.length_append, List.length_cons]
  omega

theorem length_dumps_str (value : List Char) :
    (dumps (.str value)).length = (stringText value).length := by
  rw [dumps]

theorem length_dumps_float (value : PyFloat) : (dumps (.float value)).length = value.text.length := by
  rw [dumps]

end Json

namespace Decimal

@[simp]
theorem scale_natCast (n : ℕ) : (n : Decimal).scale = 0 := by
  have hden : (n : Decimal).val.den = 1 := by rw [coe_natCast, Rat.den_natCast]
  rw [scale, hden]
  rfl

@[simp]
theorem significand_natCast (n : ℕ) : (n : Decimal).significand = n := by
  rw [significand, scale_natCast, coe_natCast, Rat.den_natCast, Rat.num_natCast]
  simp

/-- A whole number is written with one digit behind the point. -/
theorem text_natCast {n : ℕ} (h : n < 10 ^ 16) :
    (n : Decimal).text = Nat.toDigits 10 n ++ ['.', '0'] := by
  have hnonneg : ¬ (n : Decimal) < 0 := not_lt.mpr (Nat.cast_nonneg n)
  have hshort : (Nat.toDigits 10 n).length ≤ 16 :=
    (Nat.length_toDigits_le_iff (by norm_num) (by norm_num)).mpr h
  have hlong : 0 < (Nat.toDigits 10 n).length := Nat.length_toDigits_pos
  rw [text, numeral]
  simp only [scale_natCast, significand_natCast, hnonneg, decide_false]
  by_cases hzero : n = 0
  · rw [if_pos hzero, hzero]
    rfl
  · rw [if_neg hzero, if_pos (by omega), if_pos trivial]
    simp [Numeral.text, Numeral.exponentText]

theorem length_text_natCast_le {n : ℕ} (h : n < 10 ^ 16) : (n : Decimal).text.length ≤ 18 := by
  have hshort : (Nat.toDigits 10 n).length ≤ 16 :=
    (Nat.length_toDigits_le_iff (by norm_num) (by norm_num)).mpr h
  rw [text_natCast h, List.length_append, List.length_cons, List.length_singleton]
  omega

end Decimal

end LorahamRns.Lib
