import LorahamRns.Lib.Monitor

/-!
# Critical sections of bounded length

A program that makes at most so many calls, whatever they are answered, and a monitor that
counts the calls between an opening and a closing one.  What the monitor accepts inside a
section comes to its closing call before the budget of the section is used up.
-/

namespace LorahamRns.Lib.Program

variable {ε : Type} {answer : ε → Type} {error : Type} {α β : Type}

/-! ## Bounded programs -/

/-- At most so many calls, whatever they are answered. -/
def Within : Program ε answer error α → ℕ → Prop
  | .done _, _ => True
  | .fail _, _ => True
  | .call _ next, budget => ∃ less, budget = less + 1 ∧ ∀ reply, (next reply).Within less

theorem within_done (value : α) (budget : ℕ) :
    (Program.done value : Program ε answer error α).Within budget := trivial

theorem within_call {effect : ε} {next : answer effect → Program ε answer error α} {budget : ℕ}
    (h : ∀ reply, (next reply).Within budget) : (Program.call effect next).Within (budget + 1) :=
  ⟨budget, rfl, h⟩

theorem within_perform (effect : ε) : (perform effect : Program ε answer error _).Within 1 :=
  within_call fun _ => trivial

theorem Within.mono {program : Program ε answer error α} {budget larger : ℕ}
    (h : program.Within budget) (le : budget ≤ larger) : program.Within larger := by
  induction program generalizing budget larger with
  | done value => trivial
  | fail reason => trivial
  | call effect next ih =>
      obtain ⟨less, rfl, rest⟩ := h
      obtain ⟨more, rfl⟩ : ∃ more, larger = more + 1 := ⟨larger - 1, by omega⟩
      exact ⟨more, rfl, fun reply => ih reply (rest reply) (Nat.le_of_succ_le_succ le)⟩

/-- The budgets of two programs in sequence add up. -/
theorem Within.bind {program : Program ε answer error α} {next : α → Program ε answer error β}
    {n m : ℕ} (h : program.Within n) (rest : ∀ value, (next value).Within m) :
    (program.bind next).Within (n + m) := by
  induction program generalizing n with
  | done value => exact (rest value).mono (Nat.le_add_left m n)
  | fail reason => trivial
  | call effect calls ih =>
      obtain ⟨less, rfl, inner⟩ := h
      exact ⟨less + m, by omega, fun reply => ih reply (inner reply)⟩

/-! ## Programs that come to a call -/

/-- A call of the kind is made within so many others, whatever those are answered. -/
def Meets (kind : ε → Bool) : Program ε answer error α → ℕ → Prop
  | .done _, _ => False
  | .fail _, _ => False
  | .call effect next, budget =>
      kind effect = true ∨ ∀ reply, ∃ less, budget = less + 1 ∧ (next reply).Meets kind less

theorem Meets.mono {kind : ε → Bool} {program : Program ε answer error α} {budget larger : ℕ}
    (h : program.Meets kind budget) (le : budget ≤ larger) : program.Meets kind larger := by
  induction program generalizing budget larger with
  | done value => exact h
  | fail reason => exact h
  | call effect next ih =>
      rcases h with here | later
      · exact Or.inl here
      refine Or.inr fun reply => ?_
      obtain ⟨less, rfl, rest⟩ := later reply
      obtain ⟨more, rfl⟩ : ∃ more, larger = more + 1 := ⟨larger - 1, by omega⟩
      exact ⟨more, rfl, ih reply rest (Nat.le_of_succ_le_succ le)⟩

/-! ## Sections -/

/-- Inside a section with so many calls left, or outside of all.  Sections are not nested,
and nothing is closed outside of one. -/
def critical (opens closes : ε → Bool) (budget : ℕ) : Monitor ε answer (Option ℕ)
  | none, effect, _ =>
      if opens effect then some (some budget) else if closes effect then none else some none
  | some left, effect, _ =>
      if closes effect then some none
      else if opens effect then none
      else left.casesOn none fun less => some (some less)

section Critical

variable {opens closes : ε → Bool} {budget left : ℕ} {program : Program ε answer error α}

/-- A call that opens and closes nothing. -/
def Plain (opens closes : ε → Bool) (effect : ε) : Prop :=
  opens effect = false ∧ closes effect = false

theorem critical_none {effect : ε} (plain : Plain opens closes effect) (reply : answer effect) :
    critical opens closes budget none effect reply = some none := by
  simp [critical, plain.1, plain.2]

theorem critical_some {effect : ε} (plain : Plain opens closes effect) (reply : answer effect) :
    critical opens closes budget (some (left + 1)) effect reply = some (some left) := by
  simp [critical, plain.1, plain.2]

/-- Plain calls outside of all sections. -/
theorem Only.keeps_outside (h : program.Only (Plain opens closes)) :
    program.Keeps (critical opens closes budget) (fun _ => (· = none)) (fun _ => (· = none))
      none :=
  h.keeps fun _ reply plain => critical_none plain reply

/-- Plain calls inside a section that has enough of them left. -/
theorem Only.keeps_inside (h : program.Only (Plain opens closes)) {calls : ℕ}
    (within : program.Within calls) (enough : calls ≤ left) :
    program.Keeps (critical opens closes budget) (fun _ place => place.isSome)
      (fun _ place => place.isSome) (some left) := by
  induction program generalizing calls left with
  | done value => exact rfl
  | fail reason => exact rfl
  | call effect next ih =>
      obtain ⟨less, rfl, rest⟩ := within
      obtain ⟨more, rfl⟩ : ∃ more, left = more + 1 := ⟨left - 1, by omega⟩
      intro reply
      exact ⟨some more, critical_some h.1 reply,
        ih reply (h.2 reply) (rest reply) (Nat.le_of_succ_le_succ enough)⟩

/-- What is accepted inside a section comes to the end of the section. -/
theorem Keeps.meets {post : α → Option ℕ → Prop} {fault : error → Option ℕ → Prop}
    (h : program.Keeps (critical opens closes budget) post fault (some left))
    (hpost : ∀ value left, ¬post value (some left))
    (hfault : ∀ reason left, ¬fault reason (some left)) : program.Meets closes left := by
  induction program generalizing left with
  | done value => exact hpost value left h
  | fail reason => exact hfault reason left h
  | call effect next ih =>
      by_cases closing : closes effect = true
      · exact Or.inl closing
      refine Or.inr fun reply => ?_
      obtain ⟨after, moved, rest⟩ := h reply
      cases opening : opens effect with
      | true => simp [critical, closing, opening] at moved
      | false =>
          cases left with
          | zero => simp [critical, closing, opening] at moved
          | succ less =>
              rw [critical_some ⟨opening, eq_false_of_ne_true closing⟩] at moved
              obtain rfl := Option.some_inj.mp moved
              exact ⟨less, rfl, ih reply rest⟩

end Critical

end LorahamRns.Lib.Program
