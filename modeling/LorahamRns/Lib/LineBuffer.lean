import Mathlib

/-!
# Lines out of a buffered stream

A stream is a sequence of lines that end at a separator, and an unfinished one behind
them.  However the stream is cut, the part left over from one piece and the next piece
together continue its lines.
-/

namespace LorahamRns.Lib.LineBuffer

variable {α : Type} [DecidableEq α] {separator : α}

/-- The lines the stream completes. -/
def complete (separator : α) : List α → List (List α)
  | [] => []
  | first :: rest =>
      if first = separator then [] :: complete separator rest
      else match complete separator rest with
        | [] => []
        | line :: lines => (first :: line) :: lines

/-- What stands behind the last separator. -/
def pending (separator : α) : List α → List α
  | [] => []
  | first :: rest =>
      if first = separator ∨ separator ∈ rest then pending separator rest else first :: rest

theorem complete_of_not_mem {stream : List α} (unfinished : separator ∉ stream) :
    complete separator stream = [] := by
  induction stream with
  | nil => rfl
  | cons first rest ih =>
      obtain ⟨other, more⟩ := not_or.mp (mt List.mem_cons.mpr unfinished)
      rw [complete, if_neg (Ne.symm other), ih more]

theorem pending_of_not_mem {stream : List α} (unfinished : separator ∉ stream) :
    pending separator stream = stream := by
  cases stream with
  | nil => rfl
  | cons first rest =>
      obtain ⟨other, more⟩ := not_or.mp (mt List.mem_cons.mpr unfinished)
      rw [pending, if_neg (not_or.mpr ⟨Ne.symm other, more⟩)]

/-- One line in front of a stream. -/
theorem complete_line {line : List α} (whole : separator ∉ line) (rest : List α) :
    complete separator (line ++ separator :: rest) = line :: complete separator rest := by
  induction line with
  | nil => exact if_pos rfl
  | cons first line ih =>
      obtain ⟨other, more⟩ := not_or.mp (mt List.mem_cons.mpr whole)
      rw [List.cons_append, complete, if_neg (Ne.symm other), ih more]

theorem pending_line {line : List α} (whole : separator ∉ line) (rest : List α) :
    pending separator (line ++ separator :: rest) = pending separator rest := by
  induction line with
  | nil => exact if_pos (Or.inl rfl)
  | cons first line ih =>
      obtain ⟨_, more⟩ := not_or.mp (mt List.mem_cons.mpr whole)
      rw [List.cons_append, pending, if_pos (Or.inr (List.mem_append_right _ List.mem_cons_self)),
        ih more]

/-- A stream is unfinished, or begins with a line. -/
theorem unfinished_or_line (separator : α) (stream : List α) :
    separator ∉ stream ∨
      ∃ line rest, stream = line ++ separator :: rest ∧ separator ∉ line := by
  by_cases some : separator ∈ stream
  · obtain ⟨line, rest, same, whole⟩ := List.eq_append_cons_of_mem some
    exact Or.inr ⟨line, rest, same, whole⟩
  · exact Or.inl some

/-- Induction over the lines of a stream. -/
theorem line_induction (separator : α) {motive : List α → Prop}
    (unfinished : ∀ stream, separator ∉ stream → motive stream)
    (line : ∀ line rest, separator ∉ line → motive rest → motive (line ++ separator :: rest))
    (stream : List α) : motive stream := by
  induction h : stream.length using Nat.strong_induction_on generalizing stream with
  | _ length ih =>
      rcases unfinished_or_line separator stream with none | ⟨front, rest, rfl, whole⟩
      · exact unfinished stream none
      · refine line front rest whole (ih rest.length ?_ rest rfl)
        rw [← h, List.length_append, List.length_cons]
        omega

theorem separator_not_mem_pending (stream : List α) : separator ∉ pending separator stream := by
  induction stream using line_induction separator with
  | unfinished stream none => rwa [pending_of_not_mem none]
  | line line rest whole ih => rwa [pending_line whole]

/-- The lines of a stream and more of it. -/
theorem complete_append (stream more : List α) :
    complete separator (stream ++ more) =
      complete separator stream ++ complete separator (pending separator stream ++ more) := by
  induction stream using line_induction separator with
  | unfinished stream none =>
      rw [complete_of_not_mem none, pending_of_not_mem none, List.nil_append]
  | line line rest whole ih =>
      rw [List.append_assoc, List.cons_append, complete_line whole, complete_line whole,
        pending_line whole, ih, List.cons_append]

end LorahamRns.Lib.LineBuffer
