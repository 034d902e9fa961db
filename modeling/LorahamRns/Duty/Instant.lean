import LorahamRns.Duty.Account

/-!
# One call at one instant

The clocks stand still, the disk takes every write, and nobody else is there: what a call
makes of a state on disk is then a function of that state.
-/

namespace LorahamRns.Duty

open LorahamRns.Lib
open Program (execute_bind execute_rescue)

/-- Both clocks, the boot and the ledger file at one instant. -/
structure Instant where
  wall : Reading
  monotonic : Reading
  boot : Option (List Char)
  ledger : LedgerFile

namespace Instant

/-- The answers at the instant; the state is the accounts' rebase flags. -/
def answers (instant : Instant) :
    (effect : Effect) → (Instance → Bool) → effect.Answer × (Instance → Bool)
  | .time, flags => (instant.wall, flags)
  | .timeThenMonotonic, flags => ((instant.wall, instant.monotonic), flags)
  | .monotonicThenTime, flags => ((instant.monotonic, instant.wall), flags)
  | .bootId, flags => (instant.boot, flags)
  | .readLedger limit, flags =>
      (match instant.ledger with
        | .content raw => .content (raw.take limit)
        | other => other, flags)
  | .writeTemp _ _ rest, flags => (some (Fin.last rest.length), flags)
  | .openTemp _, flags | .syncTemp _, flags | .renameTemp _, flags | .syncDirectory, flags
  | .unlinkTemp _, flags => (true, flags)
  | .pendingRebase owner, flags => (flags owner, flags)
  | .setPendingRebase owner value, flags => ((), Function.update flags owner value)

/-- A call at the instant. -/
def run {α : Type} (instant : Instant) (program : Account α) (flags : Instance → Bool) :
    Except Failure α × (Instance → Bool) :=
  program.execute instant.answers flags

variable {α β : Type} (instant : Instant) (flags : Instance → Bool)

@[simp]
theorem run_done (value : α) : instant.run (.done value) flags = (.ok value, flags) := rfl

@[simp]
theorem run_fail (failure : Failure) :
    instant.run (.fail failure : Account α) flags = (.error failure, flags) := rfl

@[simp]
theorem run_time (next : Reading → Account α) :
    instant.run (.call .time next) flags = instant.run (next instant.wall) flags := rfl

@[simp]
theorem run_both (next : Reading × Reading → Account α) :
    instant.run (.call .timeThenMonotonic next) flags =
      instant.run (next (instant.wall, instant.monotonic)) flags := rfl

@[simp]
theorem run_boot (next : Option (List Char) → Account α) :
    instant.run (.call .bootId next) flags = instant.run (next instant.boot) flags := rfl

@[simp]
theorem run_evidence (next : Reading × Reading → Account α) :
    instant.run (.call .monotonicThenTime next) flags =
      instant.run (next (instant.monotonic, instant.wall)) flags := rfl

@[simp]
theorem run_readLedger (limit : ℕ) (next : LedgerFile → Account α) :
    instant.run (.call (.readLedger limit) next) flags =
      instant.run (next (match instant.ledger with
        | .content raw => .content (raw.take limit)
        | other => other)) flags := rfl

@[simp]
theorem run_pending (owner : Instance) (next : Bool → Account α) :
    instant.run (.call (.pendingRebase owner) next) flags =
      instant.run (next (flags owner)) flags := rfl

@[simp]
theorem run_setPending (owner : Instance) (value : Bool) (next : Unit → Account α) :
    instant.run (.call (.setPendingRebase owner value) next) flags =
      instant.run (next ()) (Function.update flags owner value) := rfl

theorem run_bind (program : Account α) (next : α → Account β) :
    instant.run (program.bind next) flags =
      match instant.run program flags with
      | (.ok value, after) => instant.run (next value) after
      | (.error failure, after) => (.error failure, after) := by
  unfold run
  rw [execute_bind]
  rcases program.execute instant.answers flags with ⟨_ | _, _⟩ <;> rfl

theorem run_rescue (program : Account α) (handler : Failure → Account α) :
    instant.run (program.rescue handler) flags =
      match instant.run program flags with
      | (.ok value, after) => (.ok value, after)
      | (.error failure, after) => instant.run (handler failure) after := by
  unfold run
  rw [execute_rescue]
  rcases program.execute instant.answers flags with ⟨_ | _, _⟩ <;> rfl

/-! ## What is read -/

/-- The entries of the items, or why they are refused. -/
def stamps (instant : Instant) : List Json → Except Failure (List Entry)
  | [] => .ok []
  | item :: rest =>
      match entryOf item with
      | .error fault => .error (.duty (.unreadable fault))
      | .ok entry =>
          if entry.time > instant.wall.value + clockSkewS then
            .error (.duty (.unreadable (.future (entry.time - instant.wall.value))))
          else
            match instant.stamps rest with
            | .ok entries => .ok (entry :: entries)
            | .error failure => .error failure

/-- Whatever the items are, the entries taken from them are credible. -/
theorem entryOf_credible {item : Json} {entry : Entry} (taken : entryOf item = .ok entry) :
    entry.Credible := by
  have inRange {float : PyFloat} {value : Decimal} (finite : float.finite? = some value) :
      |value.val| < floatLimit := by
    cases float with
    | finite value inRange =>
        obtain rfl := Option.some.inj finite
        exact inRange
    | infinity negative => cases finite
    | nan => cases finite
  unfold entryOf at taken
  split at taken
  · rename_i time airtime
    split at taken
    · cases taken
    · split at taken
      · rename_i timeFloat airtimeFloat _ _
        split at taken
        · rename_i timeValue airtimeValue timeFinite airtimeFinite
          by_cases nothing : airtimeValue ≤ 0
          · rw [if_pos nothing] at taken
            cases taken
          · rw [if_neg nothing] at taken
            obtain rfl := Except.ok.inj taken
            exact ⟨inRange timeFinite, inRange airtimeFinite, not_le.mp nothing⟩
        · cases taken
      · cases taken
  · cases taken

theorem stamps_credible {items : List Json} {entries : List Entry}
    (h : instant.stamps items = .ok entries) : ∀ entry ∈ entries, entry.Credible := by
  induction items generalizing entries with
  | nil =>
      obtain rfl := Except.ok.inj h
      exact nofun
  | cons item rest ih =>
      unfold stamps at h
      cases taken : entryOf item with
      | error fault =>
          rw [taken] at h
          cases h
      | ok entry =>
          rw [taken] at h
          dsimp only at h
          split at h
          · cases h
          · cases behind : instant.stamps rest with
            | error failure =>
                rw [behind] at h
                cases h
            | ok others =>
                rw [behind] at h
                obtain rfl := Except.ok.inj h
                exact List.forall_mem_cons.mpr ⟨entryOf_credible taken, ih behind⟩

theorem run_readEntries (items : List Json) :
    instant.run (readEntries items) flags = (instant.stamps items, flags) := by
  induction items with
  | nil => rfl
  | cons item rest ih =>
      unfold readEntries stamps
      cases entryOf item with
      | error fault => rfl
      | ok entry =>
          simp only [Os.time, Program.bind_eq, Program.perform_bind, run_time]
          by_cases future : entry.time > instant.wall.value + clockSkewS
          · rw [if_pos future, if_pos future]
            rfl
          · rw [if_neg future, if_neg future, run_bind, ih]
            cases instant.stamps rest <;> rfl

/-- The boot the kernel names. -/
def bootText (instant : Instant) : List Char := (instant.boot.map strip).getD []

theorem run_bootId : instant.run bootId flags = (.ok instant.bootText, flags) := by
  unfold bootId bootText
  simp only [Os.bootId, Program.bind_eq, Program.perform_bind, run_boot]
  cases instant.boot <;> rfl

/-- A clock field as `clockField` finds it. -/
def fieldOf (clock : List (List Char × Json)) (key : List Char) :
    Except Failure (Option PyFloat) :=
  match Json.get? clock key with
  | none => .ok none
  | some value =>
      match pyFloat value with
      | .value float => .ok (some float)
      | .refused => .ok none
      | .overflow => .error .overflow

theorem run_clockField (clock : List (List Char × Json)) (key : List Char) :
    instant.run (clockField clock key) flags = (fieldOf clock key, flags) := by
  unfold clockField fieldOf
  cases Json.get? clock key with
  | none => rfl
  | some value =>
      dsimp only
      cases pyFloat value <;> rfl

/-- What the stamps are moved by, `none` where they are kept. -/
def step (instant : Instant) (clock : List (List Char × Json)) :
    Except Failure (Option Decimal) :=
  if !isBoot clock instant.bootText then
    match fieldOf clock "wall".toList with
    | .error failure => .error failure
    | .ok field =>
        match field.bind PyFloat.finite? with
        | none => .ok none
        | some wallThen =>
            if instant.wall.value - wallThen > clockSkewS then
              .ok (some (instant.wall.value - wallThen))
            else .ok none
  else
    match fieldOf clock "monotonic".toList with
    | .error failure => .error failure
    | .ok none => .ok none
    | .ok (some monoThen) =>
        match fieldOf clock "wall".toList with
        | .error failure => .error failure
        | .ok field =>
            match monoThen.finite?, field.bind PyFloat.finite? with
            | some monoThen, some wallThen =>
                let step := (instant.wall.value - wallThen) - (instant.monotonic.value - monoThen)
                if |step| ≤ clockSkewS then .ok none else .ok (some step)
            | _, _ => .ok none

/-- The entries `_rebase` returns, and whether they are new ones. -/
def rebased (instant : Instant) (entries : List Entry) :
    Option Json → Except Failure (List Entry × Bool)
  | some (.obj clock) =>
      if entries.isEmpty then .ok (entries, false)
      else
        match instant.step clock with
        | .error failure => .error failure
        | .ok none => .ok (entries, false)
        | .ok (some step) => .ok (entries.map (Entry.shift step), true)
  | _ => .ok (entries, false)

theorem run_rebase (entries : List Entry) (clock : Option Json) :
    instant.run (rebase entries clock) flags = (instant.rebased entries clock, flags) := by
  match clock with
  | none | some .null | some (.bool _) | some (.int _) | some (.float _) | some (.str _)
  | some (.arr _) => rfl
  | some (.obj clock) =>
    unfold rebase rebased
    dsimp only
    split
    · rfl
    · unfold step
      simp only [Program.bind_eq, run_bind, run_bootId]
      split
      · rw [run_bind, run_clockField]
        cases fieldOf clock "wall".toList with
        | error failure => rfl
        | ok field =>
            cases field with
            | none => rfl
            | some wallThen =>
                simp only [Os.time, Program.perform_bind, run_time, Option.bind_some]
                cases wallThen.finite? with
                | none => rfl
                | some wallThen =>
                    dsimp only
                    split <;> rfl
      · rw [run_bind, run_clockField]
        cases fieldOf clock "monotonic".toList with
        | error failure => rfl
        | ok field =>
            cases field with
            | none => rfl
            | some monoThen =>
                simp only [run_bind, run_clockField]
                cases fieldOf clock "wall".toList with
                | error failure => rfl
                | ok field =>
                    cases field with
                    | none => cases monoThen.finite? <;> rfl
                    | some wallThen =>
                        simp only [Option.bind_some]
                        cases monoThen.finite? with
                        | none => rfl
                        | some monoThen =>
                            cases wallThen.finite? with
                            | none => rfl
                            | some wallThen =>
                                simp only [Os.timeThenMonotonic, Program.perform_bind, run_both]
                                split <;> rfl

/-- The entries on file and the clock evidence with them, or why the file is refused. -/
def filed (instant : Instant) (firstUse : Bool) : Except Failure (List Entry × Option Json) :=
  match instant.ledger with
  | .missing => if firstUse then .ok ([], none) else .error (.duty .disappeared)
  | .fault => .error (.duty .unreadableFile)
  | .notRegular => .error (.duty .notRegular)
  | .content raw =>
      if isBlankText (raw.take readLimit) then .error (.duty .empty)
      else
        match header firstUse (raw.take readLimit) with
        | .error fault => .error (.duty (.unreadable fault))
        | .ok (items, clock) =>
            match instant.stamps items with
            | .error failure => .error failure
            | .ok entries => .ok (entries, clock)

/-- The entries `_read` returns, or what it raises. -/
def found (instant : Instant) (firstUse : Bool) : Except Failure (List Entry) :=
  match instant.filed firstUse with
  | .error failure => .error failure
  | .ok (entries, clock) => (instant.rebased entries clock).map Prod.fst

/-- Every entry on file is credible. -/
theorem filed_credible {firstUse : Bool} {entries : List Entry} {clock : Option Json}
    (h : instant.filed firstUse = .ok (entries, clock)) : ∀ entry ∈ entries, entry.Credible := by
  unfold filed at h
  split at h
  · split at h
    · cases h
      exact nofun
    · cases h
  · cases h
  · cases h
  · split at h
    · cases h
    · split at h
      · cases h
      · split at h
        · cases h
        · rename_i stamped
          cases h
          exact instant.stamps_credible stamped

theorem run_read (owner : Instance) (firstUse : Bool) :
    ∃ after, instant.run (read owner firstUse) flags = (instant.found firstUse, after) := by
  unfold read found filed
  simp only [Os.readLedger, Program.bind_eq, Program.perform_bind, run_readLedger]
  cases instant.ledger with
  | missing => cases firstUse <;> exact ⟨flags, rfl⟩
  | fault | notRegular => exact ⟨flags, rfl⟩
  | content raw =>
      dsimp only
      split
      · exact ⟨flags, rfl⟩
      · cases header firstUse (raw.take readLimit) with
        | error fault => exact ⟨flags, rfl⟩
        | ok found =>
            obtain ⟨items, clock⟩ := found
            dsimp only
            rw [run_bind, run_readEntries]
            cases instant.stamps items with
            | error failure => exact ⟨flags, rfl⟩
            | ok entries =>
                dsimp only
                rw [run_bind, run_rebase]
                cases instant.rebased entries clock with
                | error failure => exact ⟨flags, rfl⟩
                | ok result => exact ⟨_, rfl⟩

/-! ## Whole calls -/

theorem run_writeAll (process : ℕ) (blob : List Char) :
    instant.run (writeAll process blob) flags = (.ok (), flags) := by
  cases blob with
  | nil =>
      rw [writeAll]
      rfl
  | cons first rest =>
      rw [writeAll]
      change instant.run (writeAll process (rest.drop rest.length)) flags = _
      rw [List.drop_length, writeAll]
      rfl

theorem run_write (owner : Instance) (entries : List Entry) :
    instant.run (write owner entries) flags = (.ok (), flags) := by
  unfold write
  rw [Program.bind_eq, run_bind, run_bootId]
  simp only [Os.monotonicThenTime, Program.bind_eq, Program.perform_bind, run_evidence]
  have replaced (blob : List Char) :
      instant.run (replaceLedger owner.process blob) flags = (.ok (), flags) := by
    have opened : instant.run (Os.attempt (Os.openTemp owner.process)) flags = (.ok (), flags) :=
      rfl
    have synced : instant.run (Os.attempt (Os.syncTemp owner.process)) flags = (.ok (), flags) :=
      rfl
    have renamed : instant.run (Os.attempt (Os.renameTemp owner.process)) flags =
        (.ok (), flags) := rfl
    have settled : instant.run (Os.attempt Os.syncDirectory) flags = (.ok (), flags) := rfl
    unfold replaceLedger
    simp only [Program.bind_eq, run_bind, opened, run_writeAll, synced, renamed, settled]
  rw [run_rescue, replaced]

/-- What a reservation reads and counts, up to the limit decision. -/
def counting (account : DutyAccount) (owner : Instance) (firstUse : Bool) :
    Account (Reading × List Entry) := do
  let now ← Os.time
  let found ← read owner firstUse
  pure (now, prune account now.value found)

/-- The decision on what has been counted. -/
def deciding (account : DutyAccount) (owner : Instance) (firstUse : Bool) (airtime : Decimal)
    (counted : Reading × List Entry) : Account Verdict := do
  let (now, entries) := counted
  if firstUse then write owner entries
  if ← Os.pendingRebase owner then do
    write owner entries
    Os.setPendingRebase owner false
  match refusal account entries now.value airtime with
  | some reason => pure (.refused reason)
  | none => do
      write owner (entries ++ [⟨now.value, airtime⟩])
      pure .granted

theorem reserve_eq (account : DutyAccount) (owner : Instance) (firstUse : Bool)
    (airtime : Decimal) :
    reserve account owner firstUse airtime =
      (counting account owner firstUse).bind (deciding account owner firstUse airtime) := by
  unfold reserve counting
  simp only [Program.bind_eq, Program.pure_eq, Program.bind_assoc, Program.done_bind]
  rfl

theorem run_counting (account : DutyAccount) (owner : Instance) (firstUse : Bool) :
    (instant.run (counting account owner firstUse) flags).1 =
      (instant.found firstUse).map fun entries =>
        (instant.wall, prune account instant.wall.value entries) := by
  obtain ⟨after, result⟩ := instant.run_read flags owner firstUse
  unfold counting
  simp only [Os.time, Program.bind_eq, Program.perform_bind, run_time]
  rw [run_bind, result]
  cases instant.found firstUse <;> rfl

theorem run_deciding (account : DutyAccount) (owner : Instance) (firstUse : Bool)
    (airtime : Decimal) (now : Reading) (entries : List Entry) :
    (instant.run (deciding account owner firstUse airtime (now, entries)) flags).1 =
      .ok (match refusal account entries now.value airtime with
        | some reason => .refused reason
        | none => .granted) := by
  have written (flags : Instance → Bool) (entries : List Entry) (next : Unit → Account Verdict) :
      instant.run ((write owner entries).bind next) flags = instant.run (next ()) flags := by
    rw [run_bind, run_write]
  have settled (flags : Instance → Bool) (next : Unit → Account Verdict) (verdict : Verdict)
      (h : ∀ flags, (instant.run (next ()) flags).1 = .ok verdict) (pending : Bool) :
      (instant.run
        (if pending then do
            write owner entries
            let result ← Os.setPendingRebase owner false
            next result
          else next () : Account Verdict) flags).1 = .ok verdict := by
    cases pending with
    | false => exact h flags
    | true =>
        rw [if_pos rfl, Program.bind_eq, written]
        exact h _
  have decided (flags : Instance → Bool) :
      (instant.run
        (do
          if ← Os.pendingRebase owner then do
            write owner entries
            Os.setPendingRebase owner false
          match refusal account entries now.value airtime with
          | some reason => pure (.refused reason)
          | none => do
              write owner (entries ++ [⟨now.value, airtime⟩])
              pure .granted : Account Verdict) flags).1 =
        .ok (match refusal account entries now.value airtime with
          | some reason => .refused reason
          | none => .granted) := by
    simp only [Os.pendingRebase, Program.bind_eq, Program.perform_bind, run_pending]
    refine settled flags _ _ (fun flags => ?_) (flags owner)
    cases refusal account entries now.value airtime with
    | some reason => rfl
    | none =>
        dsimp only
        rw [written]
        rfl
  unfold deciding
  dsimp only
  split
  · rw [Program.bind_eq, written]
    exact decided flags
  · exact decided flags

/-- The verdict of a reservation. -/
theorem run_reserve (account : DutyAccount) (owner : Instance) (firstUse : Bool)
    (airtime : Decimal) :
    (instant.run (reserve account owner firstUse airtime) flags).1 =
      (instant.found firstUse).map fun entries =>
        match refusal account (prune account instant.wall.value entries) instant.wall.value
            airtime with
        | some reason => .refused reason
        | none => .granted := by
  have counted := instant.run_counting flags account owner firstUse
  rw [reserve_eq, run_bind]
  generalize instant.run (counting account owner firstUse) flags = run at counted ⊢
  obtain ⟨result, after⟩ := run
  dsimp only at counted
  subst counted
  cases instant.found firstUse with
  | error failure => rfl
  | ok entries => exact instant.run_deciding after account owner firstUse airtime _ _

/-- The shares of the two windows. -/
def shares (account : DutyAccount) (now : Decimal) (entries : List Entry) : ℚ × ℚ :=
  (percent (used entries account.shortWindow now) account.shortWindow,
    percent (used entries account.longWindow now) account.longWindow)

end Instant

end LorahamRns.Duty
