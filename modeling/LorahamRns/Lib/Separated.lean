import Mathlib

/-!
# Reading separated text

What a writer has joined with labels and separators comes apart again at the first
separator, as long as none stands in front of it.
-/

namespace LorahamRns.Lib.Separated

section

variable {α : Type} [DecidableEq α] {stop : α}

/-- The text in front of the first separator, and behind it. -/
def upTo (stop : α) : List α → Option (List α × List α)
  | [] => none
  | first :: rest =>
      if first = stop then some ([], rest)
      else (upTo stop rest).map fun parts => (first :: parts.1, parts.2)

theorem upTo_append {front : List α} (none : stop ∉ front) (rest : List α) :
    upTo stop (front ++ stop :: rest) = some (front, rest) := by
  induction front with
  | nil => exact if_pos rfl
  | cons first front ih =>
      obtain ⟨other, more⟩ := not_or.mp (mt List.mem_cons.mpr none)
      rw [List.cons_append, upTo, if_neg (Ne.symm other), ih more]
      rfl

/-- A text has one first separator. -/
theorem append_cons_inj {front front' rest rest' : List α} (none : stop ∉ front)
    (none' : stop ∉ front') (same : front ++ stop :: rest = front' ++ stop :: rest') :
    front = front' ∧ rest = rest' := by
  have split := congrArg (upTo stop) same
  rw [upTo_append none, upTo_append none'] at split
  exact Prod.mk.inj (Option.some_inj.mp split)

/-- What stands behind a label. -/
def behind (label text : List α) : Option (List α) :=
  if label.isPrefixOf text then some (text.drop label.length) else none

@[simp]
theorem behind_append (label rest : List α) : behind label (label ++ rest) = some rest := by
  rw [behind, if_pos (List.isPrefixOf_iff_prefix.mpr (List.prefix_append label rest)),
    List.drop_left]

end

/-! ## Decimal numbers -/

def Digits (text : List Char) : Prop := ∀ char ∈ text, char.isDigit = true

instance (text : List Char) : Decidable (Digits text) := List.decidableBAll _ _

/-- The number that decimal digits write. -/
def natural (text : List Char) : Option ℕ :=
  if Digits text then some (Nat.ofDigitChars 10 text 0) else none

theorem digits_toDigits (number : ℕ) : Digits (Nat.toDigits 10 number) :=
  fun _ found => Nat.isDigit_of_mem_toDigits (by decide) (by decide) found

theorem digits_zeros (count number : ℕ) :
    Digits (List.replicate count '0' ++ Nat.toDigits 10 number) := by
  intro char found
  rcases List.mem_append.mp found with zero | digit
  · rw [List.eq_of_mem_replicate zero]
    rfl
  · exact digits_toDigits number char digit

@[simp]
theorem natural_toDigits (number : ℕ) : natural (Nat.toDigits 10 number) = some number := by
  rw [natural, if_pos (digits_toDigits number), Nat.ofDigitChars_ten_toDigits]

/-- Leading zeros do not matter. -/
@[simp]
theorem natural_zeros (count number : ℕ) :
    natural (List.replicate count '0' ++ Nat.toDigits 10 number) = some number := by
  rw [natural, if_pos (digits_zeros count number), Nat.ofDigitChars_append,
    Nat.ofDigitChars_replicate_zero, Nat.mul_zero, Nat.ofDigitChars_ten_toDigits]

theorem Digits.not_mem {text : List Char} (digits : Digits text) {stop : Char}
    (other : stop.isDigit = false) : stop ∉ text := by
  intro found
  rw [digits stop found] at other
  cases other

end LorahamRns.Lib.Separated
