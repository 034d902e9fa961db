import LorahamRns.Lib.Lockstep
import LorahamRns.Duty.Machine

/-!
# A store and its twin

`usage` leaves one trace in a process: its read sets the account's rebase flag.  Two
stores that differ in such flags alone run a reservation in lockstep, because the
reservation's own read sets its flag before anything looks at it.
-/

namespace LorahamRns.Duty

open LorahamRns.Lib
open Program (Only Lockstep)

/-- The two stores differ in rebase flags alone; not in those of `agreed`, and not before
there is a ledger. -/
structure Twins (agreed : Instance → Prop) (first second : Store) : Prop where
  same : second = { first with pending := second.pending }
  unread : first.ledger = none → second.pending = first.pending
  flags : ∀ owner, agreed owner → second.pending owner = first.pending owner

variable {assumptions : Assumptions} {agreed : Instance → Prop} {first second after : Store}

/-- The flags an effect may look at. -/
def Asks (agreed : Instance → Prop) (effect : Effect) : Prop :=
  ∀ owner, effect = .pendingRebase owner → agreed owner

/-- Any other part of the store gives the same answers. -/
theorem environment_twin {effect : Effect} {reply : effect.Answer}
    (quiet : ∀ owner, effect ≠ .pendingRebase owner)
    (silent : ∀ owner value, effect ≠ .setPendingRebase owner value)
    (answered : environment assumptions effect first reply after) (flags : Instance → Bool) :
    environment assumptions effect { first with pending := flags } reply
        { after with pending := flags } ∧
      after.pending = first.pending ∧ (after.ledger = none → first.ledger = none) := by
  cases effect with
  | time =>
      obtain ⟨clock, moved, rfl, rfl⟩ := answered
      exact ⟨⟨clock, moved, rfl, rfl⟩, rfl, id⟩
  | timeThenMonotonic =>
      obtain ⟨before, behind, moved, moved', rfl, sampled, rfl⟩ := answered
      exact ⟨⟨before, behind, moved, moved', rfl, sampled, rfl⟩, rfl, id⟩
  | monotonicThenTime =>
      obtain ⟨before, behind, moved, moved', rfl, sampled, rfl⟩ := answered
      exact ⟨⟨before, behind, moved, moved', rfl, sampled, rfl⟩, rfl, id⟩
  | bootId =>
      obtain ⟨hboot, rfl⟩ := answered
      exact ⟨⟨hboot, rfl⟩, rfl, id⟩
  | readLedger limit =>
      obtain ⟨rfl, hreply⟩ := answered
      exact ⟨⟨rfl, hreply⟩, rfl, id⟩
  | openTemp process =>
      rcases answered with ⟨rfl, rfl⟩ | ⟨rfl, fails, rfl⟩
      · exact ⟨Or.inl ⟨rfl, rfl⟩, rfl, id⟩
      · exact ⟨Or.inr ⟨rfl, fails, rfl⟩, rfl, id⟩
  | writeTemp process head rest =>
      rcases answered with ⟨more, rfl, rfl⟩ | ⟨rfl, fails, rfl⟩
      · exact ⟨Or.inl ⟨more, rfl, rfl⟩, rfl, id⟩
      · exact ⟨Or.inr ⟨rfl, fails, rfl⟩, rfl, id⟩
  | syncTemp process =>
      rcases answered with ⟨rfl, rfl⟩ | ⟨rfl, fails, rfl⟩
      · exact ⟨Or.inl ⟨rfl, rfl⟩, rfl, id⟩
      · exact ⟨Or.inr ⟨rfl, fails, rfl⟩, rfl, id⟩
  | renameTemp process =>
      rcases answered with ⟨content, found, rfl, rfl⟩ | ⟨rfl, fails, rfl⟩
      · exact ⟨Or.inl ⟨content, found, rfl, rfl⟩, rfl, nofun⟩
      · exact ⟨Or.inr ⟨rfl, fails, rfl⟩, rfl, id⟩
  | syncDirectory =>
      rcases answered with ⟨rfl, rfl⟩ | ⟨rfl, fails, rfl⟩
      · exact ⟨Or.inl ⟨rfl, rfl⟩, rfl, id⟩
      · exact ⟨Or.inr ⟨rfl, fails, rfl⟩, rfl, id⟩
  | unlinkTemp process =>
      obtain rfl := answered
      exact ⟨rfl, rfl, id⟩
  | pendingRebase owner => exact absurd rfl (quiet owner)
  | setPendingRebase owner value => exact absurd rfl (silent owner value)

/-- Twins stay twins. -/
theorem Twins.keeps (effect : Effect) (first second : Store) (reply : effect.Answer) (after : Store)
    (asks : Asks agreed effect) (twins : Twins agreed first second)
    (answered : environment assumptions effect first reply after) :
    ∃ other, environment assumptions effect second reply other ∧ Twins agreed after other := by
  obtain ⟨same, unread, flags⟩ := twins
  generalize second.pending = pending at same unread flags
  subst same
  by_cases quiet : ∀ owner, effect ≠ .pendingRebase owner
  · by_cases silent : ∀ owner value, effect ≠ .setPendingRebase owner value
    · obtain ⟨answered, kept, ledger⟩ := environment_twin quiet silent answered pending
      exact ⟨_, answered, rfl, fun h => (unread (ledger h)).trans kept.symm,
        fun owner h => (flags owner h).trans (congrFun kept owner).symm⟩
    · simp only [not_forall, not_not] at silent
      obtain ⟨owner, value, rfl⟩ := silent
      obtain rfl := answered
      refine ⟨_, rfl, rfl, fun h => ?_, fun other h => ?_⟩
      · exact congrArg (Function.update · owner value) (unread h)
      · by_cases hother : other = owner
        · subst hother
          simp [Store.setPending]
        · simp [Store.setPending, hother, flags other h]
  · simp only [not_forall, not_not] at quiet
    obtain ⟨owner, rfl⟩ := quiet
    obtain ⟨rfl, rfl⟩ := answered
    exact ⟨_, ⟨(flags owner (asks owner rfl)).symm, rfl⟩, rfl, unread, flags⟩

/-! ## What the calls ask for -/

section Asking

variable {effect : Effect} {owner : Instance} {process : ℕ}

/-- Looking at the clocks and the boot. -/
def Looks (effect : Effect) : Prop :=
  effect = .time ∨ effect = .timeThenMonotonic ∨ effect = .bootId

/-- Effects other than reading a flag. -/
theorem asks_of_ne (h : ∀ owner, effect ≠ .pendingRebase owner) : Asks agreed effect :=
  fun owner same => absurd same (h owner)

theorem asks_of_looks (looks : Looks effect) : Asks agreed effect := by
  rcases looks with rfl | rfl | rfl
  · exact asks_of_ne nofun
  · exact asks_of_ne nofun
  · exact asks_of_ne nofun

theorem looks_bootId : bootId.Only Looks := by
  refine Only.bind (Program.only_perform (Or.inr (Or.inr rfl))) fun content => ?_
  cases content <;> trivial

theorem looks_readEntries (items : List Json) : (readEntries items).Only Looks := by
  induction items with
  | nil => trivial
  | cons item rest ih =>
      unfold readEntries
      split
      · trivial
      · refine Only.bind (Program.only_perform (Or.inl rfl)) fun wall => ?_
        split
        · exact Only.bind (Program.only_perform (Or.inl rfl)) fun _ => trivial
        · exact Only.bind ih fun _ => trivial

theorem looks_clockField (clock : List (List Char × Json)) (key : List Char) :
    (clockField clock key).Only Looks := by
  unfold clockField
  split
  · trivial
  · split <;> trivial

theorem looks_rebase (entries : List Entry) (clock : Option Json) :
    (rebase entries clock).Only Looks := by
  unfold rebase
  split
  · split
    · trivial
    · refine Only.bind looks_bootId fun boot => ?_
      split
      · refine Only.bind (looks_clockField _ _) fun wall => ?_
        split
        · trivial
        · refine Only.bind (Program.only_perform (Or.inl rfl)) fun now => ?_
          split
          · trivial
          · split <;> trivial
      · refine Only.bind (looks_clockField _ _) fun mono => ?_
        split
        · trivial
        · refine Only.bind (looks_clockField _ _) fun wall => ?_
          split
          · trivial
          · split
            · refine Only.bind (Program.only_perform (Or.inr (Or.inl rfl))) fun now => ?_
              obtain ⟨wall, mono⟩ := now
              dsimp only
              split <;> trivial
            · trivial
  · trivial

theorem only_attempt {call : Account Bool} (h : call.Only (Asks agreed)) :
    (Os.attempt call).Only (Asks agreed) := by
  refine Only.bind h fun succeeded => ?_
  split <;> trivial

theorem only_writeAll (blob : List Char) : (writeAll process blob).Only (Asks agreed) := by
  induction hlength : blob.length using Nat.strong_induction_on generalizing blob with
  | _ length ih =>
      cases blob with
      | nil =>
          rw [writeAll]
          trivial
      | cons first rest =>
          rw [writeAll]
          refine Only.bind (Program.only_perform (asks_of_ne (by rintro _ ⟨⟩))) fun more => ?_
          split
          · trivial
          · refine ih _ ?_ _ rfl
            rw [← hlength, List.length_drop, List.length_cons]
            omega

theorem only_write (entries : List Entry) : (write owner entries).Only (Asks agreed) := by
  refine Only.bind (looks_bootId.mono fun _ => asks_of_looks) fun boot => ?_
  refine Only.bind (Program.only_perform (asks_of_ne nofun)) fun sample => ?_
  have replaces (blob : List Char) : (replaceLedger owner.process blob).Only (Asks agreed) := by
    refine Only.bind (only_attempt (Program.only_perform (asks_of_ne nofun))) fun _ => ?_
    refine Only.bind (only_writeAll blob) fun _ => ?_
    refine Only.bind (only_attempt (Program.only_perform (asks_of_ne nofun))) fun _ => ?_
    refine Only.bind (only_attempt (Program.only_perform (asks_of_ne nofun))) fun _ => ?_
    exact only_attempt (Program.only_perform (asks_of_ne nofun))
  refine Only.rescue (replaces _) fun failure => ?_
  split
  · exact Only.bind (Program.only_perform (asks_of_ne nofun)) fun _ => trivial
  · trivial

end Asking

/-! ## Lockstep -/

/-- Whatever asks for agreed flags only. -/
theorem Twins.lockstep {α : Type} {program : Account α} (twins : Twins agreed first second)
    (only : program.Only (Asks agreed)) :
    program.Lockstep (environment assumptions) (Twins agreed) (fun _ => Twins agreed) first second :=
  only.lockstep Twins.keeps twins

/-- The account's own read makes its flag agree. -/
theorem lockstep_read {owner : Instance} {firstUse : Bool}
    (twins : Twins (fun _ => False) first second) :
    (read owner firstUse).Lockstep (environment assumptions) (Twins fun _ => False)
      (fun _ => Twins (· = owner)) first second := by
  refine Lockstep.bind ⟨twins, fun reply after answered => ?_⟩
  have asks : Asks (fun _ => False) (.readLedger readLimit) := asks_of_ne nofun
  obtain ⟨other, answered', twins'⟩ := twins.keeps _ _ _ _ _ asks answered
  refine ⟨other, answered', twins', ?_⟩
  obtain ⟨rfl, hreply⟩ := answered
  cases reply with
  | missing =>
      have missing : after.ledger = none := by
        rcases hreply with ⟨missing, _⟩ | ⟨_, _, h⟩ | ⟨_, h | h⟩
        · exact missing
        · cases h
        · cases h
        · cases h
      cases firstUse with
      | true => exact ⟨twins', twins'.same, twins'.unread, fun owner _ =>
          congrFun (twins'.unread missing) owner⟩
      | false => exact twins'
  | fault => exact twins'
  | notRegular => exact twins'
  | content raw =>
      dsimp only
      split
      · exact twins'
      · split
        · exact twins'
        · refine Lockstep.bind ((twins'.lockstep
            ((looks_readEntries _).mono fun _ => asks_of_looks)).mono (fun _ _ => id)
            fun entries first second twins => ?_)
          refine Lockstep.bind ((twins.lockstep
            ((looks_rebase _ _).mono fun _ => asks_of_looks)).mono (fun _ _ => id)
            fun result first second twins => ?_)
          obtain ⟨rebased, changed⟩ := result
          refine Lockstep.bind ⟨twins, fun reply after answered => ?_⟩
          have asks : Asks (fun _ => False) (.setPendingRebase owner changed) := asks_of_ne nofun
          obtain ⟨other, answered', twins'⟩ := twins.keeps _ _ _ _ _ asks answered
          refine ⟨other, answered', twins', twins', twins'.same, twins'.unread, ?_⟩
          rintro _ rfl
          obtain rfl := answered
          obtain rfl := answered'
          simp [Store.setPending]

theorem Twins.less {owner : Instance} (twins : Twins (· = owner) first second) :
    Twins (fun _ => False) first second :=
  ⟨twins.same, twins.unread, nofun⟩

/-- `reserve` from the stamps it has read on. -/
def judge (account : DutyAccount) (owner : Instance) (entries : List Entry)
    (now airtime : Decimal) : Account Verdict := do
  if ← Os.pendingRebase owner then do
    write owner entries
    Os.setPendingRebase owner false
  match refusal account entries now airtime with
  | some reason => pure (.refused reason)
  | none => do
      write owner (entries ++ [⟨now, airtime⟩])
      pure .granted

theorem only_judge {account : DutyAccount} {owner : Instance} (entries : List Entry)
    (now airtime : Decimal) :
    (judge account owner entries now airtime).Only (Asks (· = owner)) := by
  have asks : Asks (· = owner) (.pendingRebase owner) := by
    rintro _ ⟨⟩
    rfl
  have settled (next : Unit → Account Verdict)
      (h : ∀ result, (next result).Only (Asks (· = owner))) (pending : Bool) :
      (if pending then do
          write owner entries
          let result ← Os.setPendingRebase owner false
          next result
        else next ()).Only (Asks (· = owner)) := by
    split
    · refine Only.bind (only_write _) fun _ => ?_
      exact Only.bind (Program.only_perform (asks_of_ne (by rintro _ ⟨⟩))) h
    · exact h ()
  refine Only.bind (Program.only_perform asks) fun pending => ?_
  split
  · refine settled _ (fun _ => ?_) pending
    trivial
  · refine settled _ (fun _ => ?_) pending
    exact Only.bind (only_write _) fun _ => trivial

/-- A reservation runs in lockstep on a store and its twin. -/
theorem lockstep_reserve {account : DutyAccount} {owner : Instance} {firstUse : Bool}
    {airtime : Decimal} (twins : Twins (fun _ => False) first second) :
    (reserve account owner firstUse airtime).Lockstep (environment assumptions)
      (Twins fun _ => False) (fun _ => Twins fun _ => False) first second := by
  have asks : Asks (fun _ => False) .time := asks_of_ne (by rintro _ ⟨⟩)
  refine Lockstep.bind ((twins.lockstep (Program.only_perform asks)).mono
    (fun _ _ => id) fun now first second twins => ?_)
  refine Lockstep.bind ((lockstep_read twins).mono (fun _ _ => id)
    fun found first second twins => ?_)
  refine (twins.lockstep ?_).mono (fun _ _ => Twins.less) fun _ _ _ => Twins.less
  dsimp only
  split
  · exact Only.bind (only_write _) fun _ => only_judge ..
  · exact only_judge ..

end LorahamRns.Duty
