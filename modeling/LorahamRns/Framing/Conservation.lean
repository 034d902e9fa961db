import LorahamRns.Framing.Reassembler

/-!
# Every frame is accounted for

A pending half is always the frame fed last, so a joined packet is made of the two frames
fed last, and each frame is delivered, dropped or pending.
-/

namespace LorahamRns.Framing

open Reassembler (Reception outputs after lastAssembly)

variable {maxAge : Option ℚ} {fed : List Reception} {last : Reception}

/-! ## Where a packet comes from -/

/-- The packet delivered at a place, from the frames fed there and just before. -/
inductive Explained (maxAge : Option ℚ) (fed : List Reception) : ℕ → Bytes → Prop where
  | unsplit {place : ℕ} {reception : Reception} {payload : Bytes}
      (here : fed[place]? = some reception) (whole : reading reception.raw = .whole payload) :
      Explained maxAge fed place payload
  | joined {place : ℕ} {first second : Reception} {seq : UInt8} {head tail : Bytes}
      (before : fed[place]? = some first) (here : fed[place + 1]? = some second)
      (start : reading first.raw = .split seq head)
      (finish : reading second.raw = .split seq tail)
      (young : ∀ age ∈ maxAge, second.now - first.now ≤ age) :
      Explained maxAge fed (place + 1) (head ++ tail)

/-- A frame with the split flag and a payload. -/
def isSplit (reception : Reception) : Bool :=
  match reading reception.raw with
  | .split _ _ => true
  | _ => false

/-- The frames a packet delivered at a place is made of. -/
def contributors (fed : List Reception) (place : ℕ) : List ℕ :=
  if (fed[place]?).any isSplit then [place - 1, place] else [place]

/-- The calls that delivered a packet, with what they were fed. -/
def delivering (maxAge : Option ℚ) (fed : List Reception) : List Reception :=
  ((fed.zip (outputs maxAge fed)).filter fun call => call.2.isSome).map Prod.fst

/-- The unsplit packets delivered. -/
def unsplitDeliveries (maxAge : Option ℚ) (fed : List Reception) : ℕ :=
  (delivering maxAge fed).countP fun reception => !isSplit reception

/-- The packets delivered on a second half. -/
def joinedDeliveries (maxAge : Option ℚ) (fed : List Reception) : ℕ :=
  (delivering maxAge fed).countP isSplit

/-- 1 if a half is pending. -/
def pendingHalves (maxAge : Option ℚ) (fed : List Reception) : ℕ :=
  (after maxAge fed).half.toList.length

theorem delivering_concat :
    delivering maxAge (fed ++ [last]) =
      delivering maxAge fed ++ (lastAssembly maxAge fed last).packet.toList.map fun _ => last := by
  unfold delivering
  rw [Reassembler.outputs_concat, List.zip_append Reassembler.outputs_length.symm,
    List.filter_append, List.map_append]
  cases (lastAssembly maxAge fed last).packet <;> rfl

/-! ## The pending half is the frame fed last -/

/-- The pending half was fed last, and that call delivered nothing. -/
structure FedLast (maxAge : Option ℚ) (fed : List Reception) (half : Half) : Prop where
  frame : ∃ reception ∈ fed.getLast?,
    reading reception.raw = .split half.seq half.payload ∧ reception.now = half.since
  silent : (outputs maxAge fed).getLast? = some none

/-- What one frame does, by what it says and what is pending. -/
theorem assemble_cases (maxAge : Option ℚ) (pending : Option Half) (now : ℚ) (read : Reading) :
    (read = .bare ∧ assemble maxAge pending now read = ⟨none, none, pending.toList.length + 1⟩) ∨
    (∃ payload, read = .whole payload ∧
      assemble maxAge pending now read = ⟨none, some payload, pending.toList.length⟩) ∨
    (∃ seq payload, read = .split seq payload ∧
      assemble maxAge pending now read =
        ⟨some ⟨seq, payload, now⟩, none, pending.toList.length⟩) ∨
    (∃ half payload, pending = some half ∧ read = .split half.seq payload ∧
      half.Young maxAge now ∧
      assemble maxAge pending now read = ⟨none, some (half.payload ++ payload), 0⟩) := by
  cases read with
  | bare => exact Or.inl ⟨rfl, rfl⟩
  | whole payload => exact Or.inr (Or.inl ⟨payload, rfl, rfl⟩)
  | split seq payload =>
      refine Or.inr (Or.inr ?_)
      cases pending with
      | none => exact Or.inl ⟨seq, payload, rfl, rfl⟩
      | some half =>
          by_cases completes : half.Young maxAge now ∧ half.seq = seq
          · obtain ⟨young, rfl⟩ := completes
            exact Or.inr ⟨half, payload, rfl, rfl, young, assemble_second ⟨young, rfl⟩⟩
          · exact Or.inl ⟨seq, payload, rfl, assemble_other completes⟩

theorem pending_fedLast (maxAge : Option ℚ) (fed : List Reception) :
    ∀ half ∈ (after maxAge fed).half, FedLast maxAge fed half := by
  induction fed using List.reverseRecOn with
  | nil => exact fun half pending => absurd pending (Option.not_mem_none half)
  | append_singleton fed last ih =>
      intro half pending
      rw [Reassembler.after_concat.1, lastAssembly] at pending
      have silent := @Reassembler.outputs_concat maxAge fed last
      rw [lastAssembly] at silent
      rcases assemble_cases maxAge (after maxAge fed).half last.now (reading last.raw) with
        ⟨_, eq⟩ | ⟨payload, _, eq⟩ | ⟨seq, payload, read, eq⟩ | ⟨other, payload, _, _, _, eq⟩
      · rw [eq] at pending
        exact absurd pending (Option.not_mem_none half)
      · rw [eq] at pending
        exact absurd pending (Option.not_mem_none half)
      · rw [eq] at pending silent
        obtain rfl := Option.mem_some_iff.mp pending
        refine ⟨⟨last, ?_, read, rfl⟩, ?_⟩
        · rw [List.getLast?_concat]
          rfl
        · rw [silent, List.getLast?_concat]
      · rw [eq] at pending
        exact absurd pending (Option.not_mem_none half)

/-! ## Deliveries -/

theorem outputs_take {place : ℕ} (before : place ≤ fed.length) :
    outputs maxAge (fed.take place) = (outputs maxAge fed).take place := by
  conv_rhs => rw [← List.take_append_drop place fed]
  unfold outputs
  rw [Reassembler.feedAll_append]
  refine (List.take_left' ?_).symm
  rw [Reassembler.feedAll_length, List.length_take, Nat.min_eq_left before]

/-- What one call returned. -/
theorem output_at {place : ℕ} {reception : Reception} (here : fed[place]? = some reception) :
    (outputs maxAge fed)[place]? =
      some (lastAssembly maxAge (fed.take place) reception).packet := by
  obtain ⟨inside, rfl⟩ := List.getElem?_eq_some_iff.mp here
  have taken : fed.take (place + 1) = fed.take place ++ [fed[place]] := by
    rw [List.take_add_one, here]
    rfl
  have upTo := @outputs_take maxAge fed _ (Nat.succ_le_of_lt inside)
  rw [taken, Reassembler.outputs_concat] at upTo
  have found := congrArg (·[place]?) upTo
  simp only [List.getElem?_take_of_lt (Nat.lt_succ_self place)] at found
  rw [← found, List.getElem?_append_right, Reassembler.outputs_length, List.length_take,
    Nat.min_eq_left (Nat.le_of_lt inside), Nat.sub_self]
  · rfl
  · rw [Reassembler.outputs_length, List.length_take]
    exact Nat.min_le_left _ _

/-- A frame that joins is preceded by its partner, whose call delivered nothing. -/
theorem joined_of_delivered {place : ℕ} {packet : Bytes} {reception : Reception}
    (here : fed[place]? = some reception) (split : isSplit reception = true)
    (delivered : (outputs maxAge fed)[place]? = some (some packet)) :
    ∃ earlier, place = earlier + 1 ∧ Explained maxAge fed place packet ∧
      (outputs maxAge fed)[earlier]? = some none := by
  rw [output_at here, Option.some_inj, lastAssembly] at delivered
  obtain ⟨inside, rfl⟩ := List.getElem?_eq_some_iff.mp here
  rcases assemble_cases maxAge (after maxAge (fed.take place)).half fed[place].now
      (reading fed[place].raw) with
    ⟨read, _⟩ | ⟨payload, read, _⟩ | ⟨_, _, _, eq⟩ | ⟨half, payload, pending, read, young, eq⟩
  · simp [isSplit, read] at split
  · simp [isSplit, read] at split
  · rw [eq] at delivered
    cases delivered
  · obtain ⟨⟨first, isLast, start, since⟩, silent⟩ := pending_fedLast _ _ half pending
    rw [eq, Option.some_inj] at delivered
    subst delivered
    cases place with
    | zero => simp at isLast
    | succ earlier =>
        have short : earlier ≤ fed.length := by omega
        have before : fed[earlier]? = some first := by
          rw [List.getLast?_eq_getElem?, List.length_take, Nat.min_eq_left (Nat.le_of_lt inside),
            Nat.add_sub_cancel, List.getElem?_take_of_lt (Nat.lt_succ_self earlier)] at isLast
          exact isLast
        refine ⟨earlier, rfl, .joined before here start read ?_, ?_⟩
        · rw [since]
          exact young
        · rw [outputs_take (Nat.le_of_lt inside), List.getLast?_eq_getElem?, List.length_take,
            Reassembler.outputs_length, Nat.min_eq_left (Nat.le_of_lt inside), Nat.add_sub_cancel,
            List.getElem?_take_of_lt (Nat.lt_succ_self earlier)] at silent
          exact silent

theorem explained_of_delivered {place : ℕ} {packet : Bytes}
    (delivered : (outputs maxAge fed)[place]? = some (some packet)) :
    Explained maxAge fed place packet := by
  obtain ⟨inside, _⟩ := List.getElem?_eq_some_iff.mp delivered
  rw [Reassembler.outputs_length] at inside
  have here := List.getElem?_eq_getElem inside
  by_cases split : isSplit fed[place] = true
  · obtain ⟨_, _, explained, _⟩ := joined_of_delivered here split delivered
    exact explained
  · rw [output_at here, Option.some_inj, lastAssembly] at delivered
    cases read : reading fed[place].raw with
    | bare =>
        rw [read] at delivered
        cases delivered
    | whole payload =>
        rw [read] at delivered
        obtain rfl := Option.some_inj.mp delivered
        exact .unsplit here read
    | split => simp [isSplit, read] at split

/-- No frame is part of two packets. -/
theorem contributors_disjoint {early late : ℕ} {packet other : Bytes} (order : early < late)
    (first : (outputs maxAge fed)[early]? = some (some packet))
    (second : (outputs maxAge fed)[late]? = some (some other)) :
    (contributors fed early).Disjoint (contributors fed late) := by
  have notBefore : contributors fed late = [late - 1, late] → early ≠ late - 1 := by
    intro pair same
    subst same
    obtain ⟨inside, _⟩ := List.getElem?_eq_some_iff.mp second
    rw [Reassembler.outputs_length] at inside
    have here := List.getElem?_eq_getElem inside
    have split : isSplit fed[late] = true := by
      by_contra whole
      simp [contributors, here, whole] at pair
    obtain ⟨earlier, rfl, _, silent⟩ := joined_of_delivered here split second
    rw [Nat.add_sub_cancel, silent] at first
    cases first
  have pairOrSingle (place : ℕ) :
      contributors fed place = [place - 1, place] ∨ contributors fed place = [place] := by
    unfold contributors
    split
    · exact Or.inl rfl
    · exact Or.inr rfl
  rcases pairOrSingle late with pair | single
  · have apart := notBefore pair
    rcases pairOrSingle early with h | h <;>
    · rw [pair, h]
      intro place inEarly inLate
      simp only [List.mem_cons, List.not_mem_nil, or_false] at inEarly inLate
      omega
  · rcases pairOrSingle early with h | h <;>
    · rw [single, h]
      intro place inEarly inLate
      simp only [List.mem_cons, List.not_mem_nil, or_false] at inEarly inLate
      omega

/-! ## The balance -/

theorem frames_balance (maxAge : Option ℚ) (fed : List Reception) :
    fed.length = unsplitDeliveries maxAge fed + 2 * joinedDeliveries maxAge fed +
      (after maxAge fed).dropped + pendingHalves maxAge fed := by
  induction fed using List.reverseRecOn with
  | nil => rfl
  | append_singleton fed last ih =>
      have dropped := (@Reassembler.after_concat maxAge fed last).2
      unfold unsplitDeliveries joinedDeliveries pendingHalves at ih ⊢
      rw [delivering_concat, Reassembler.after_concat.1, dropped, List.countP_append,
        List.countP_append, List.length_append, List.length_singleton]
      unfold lastAssembly
      rcases assemble_cases maxAge (after maxAge fed).half last.now (reading last.raw) with
        ⟨_, eq⟩ | ⟨payload, read, eq⟩ | ⟨_, _, _, eq⟩ | ⟨half, payload, pending, read, _, eq⟩
      · rw [eq]
        simp only [Option.toList_none, List.map_nil, List.countP_nil, List.length_nil]
        omega
      · have whole : isSplit last = false := by simp [isSplit, read]
        rw [eq]
        simp only [Option.toList_none, Option.toList_some, List.map_cons, List.map_nil,
          List.countP_singleton, whole, List.length_nil]
        simp only [Bool.not_false, if_true, Bool.false_eq_true, if_false]
        omega
      · rw [eq]
        simp only [Option.toList_none, Option.toList_some, List.map_nil, List.countP_nil,
          List.length_singleton]
        omega
      · have split : isSplit last = true := by simp [isSplit, read]
        rw [pending] at ih
        rw [eq]
        simp only [Option.toList_none, Option.toList_some, List.map_cons, List.map_nil,
          List.countP_singleton, split, List.length_nil, List.length_singleton] at ih ⊢
        simp only [Bool.not_true, if_true, Bool.false_eq_true, if_false]
        omega

/-- Every packet is an unsplit payload or two joined halves fed last, no frame counts
twice, and every frame is accounted for. -/
theorem frames_accounted (maxAge : Option ℚ) (fed : List Reception) :
    (∀ place packet, (outputs maxAge fed)[place]? = some (some packet) →
      Explained maxAge fed place packet) ∧
    (∀ early late packet other, early < late →
      (outputs maxAge fed)[early]? = some (some packet) →
      (outputs maxAge fed)[late]? = some (some other) →
      (contributors fed early).Disjoint (contributors fed late)) ∧
    fed.length = unsplitDeliveries maxAge fed + 2 * joinedDeliveries maxAge fed +
      (after maxAge fed).dropped + pendingHalves maxAge fed :=
  ⟨fun _ _ => explained_of_delivered, fun _ _ _ _ => contributors_disjoint,
    frames_balance maxAge fed⟩

end LorahamRns.Framing
