import LorahamRns.Lib.Program
import LorahamRns.Duty.Ledger

/-!
# DutyAccount

The calls made under the airtime lock, as programs over the clocks, the ledger
file, the temporary file and the account's own rebase flag.  A process can be
killed between any two effects.  Opening and taking the lock is in
`LorahamRns.Duty.Machine`.
-/

namespace LorahamRns.Duty

open LorahamRns.Lib

/-- Both clocks at one instant. -/
structure Clock where
  wall : Reading
  monotonic : Reading

/-- One `DutyAccount` object: its process and which of the process's objects. -/
structure Instance where
  process : ℕ
  number : ℕ
  deriving DecidableEq

/-- The configuration of an account, in finite floats.  Every caller leaves the
windows at 15 s and 3600 s and checks its limits. -/
structure DutyAccount where
  shortWindow : Decimal
  shortLimit : Decimal
  longWindow : Decimal
  longLimit : Decimal
  shortPositive : 0 < shortWindow
  ordered : shortWindow ≤ longWindow
  longInRange : longWindow.val < floatLimit
  shortNonneg : 0 ≤ shortLimit
  longNonneg : 0 ≤ longLimit

/-- `DutyAccount(path)` with the limits left at their defaults. -/
def DutyAccount.default : DutyAccount where
  shortWindow := 15
  shortLimit := 5
  longWindow := 3600
  longLimit := 1
  shortPositive := by norm_num
  ordered := by norm_num
  longInRange := lt_trans (by norm_num) floatLimit_gt
  shortNonneg := by norm_num
  longNonneg := by norm_num

theorem DutyAccount.longPositive (account : DutyAccount) : 0 < account.longWindow :=
  lt_of_lt_of_le account.shortPositive account.ordered

/-! ## Effects -/

/-- What opening and reading the ledger can give. -/
inductive LedgerFile where
  | missing
  | fault
  | notRegular
  | content (raw : List Char)

/-- The calls into the system.  Two clock readings made back to back are one
effect; time may pass between them. -/
inductive Effect where
  | time
  | timeThenMonotonic
  | monotonicThenTime
  | bootId
  | readLedger (limit : ℕ)
  | openTemp (process : ℕ)
  | writeTemp (process : ℕ) (first : Char) (rest : List Char)
  | syncTemp (process : ℕ)
  | renameTemp (process : ℕ)
  | syncDirectory
  | unlinkTemp (process : ℕ)
  | pendingRebase (owner : Instance)
  | setPendingRebase (owner : Instance) (value : Bool)

/-- `true` where the call succeeds; a write tells how many bytes it took behind the
first. -/
@[reducible]
def Effect.Answer : Effect → Type
  | .time => Reading
  | .timeThenMonotonic => Reading × Reading
  | .monotonicThenTime => Reading × Reading
  | .bootId => Option (List Char)
  | .readLedger _ => LedgerFile
  | .openTemp _ => Bool
  | .writeTemp _ _ rest => Option (Fin (rest.length + 1))
  | .syncTemp _ => Bool
  | .renameTemp _ => Bool
  | .syncDirectory => Bool
  | .unlinkTemp _ => Bool
  | .pendingRebase _ => Bool
  | .setPendingRebase _ _ => Unit

/-- The reasons a `DutyError` is raised for. -/
inductive DutyError where
  | lockBusy
  | lockNotReleased
  | notRegular
  | disappeared
  | unreadableFile
  | empty
  | unreadable (fault : ReadFault)
  | notWritten

/-- What a call can end with besides its result. -/
inductive Failure where
  | duty (error : DutyError)
  | os
  | overflow

abbrev Account (α : Type) : Type := Program Effect Effect.Answer Failure α

def Account.raise {α : Type} (error : DutyError) : Account α := .fail (.duty error)

namespace Os

def time : Account Reading := .perform Effect.time

def timeThenMonotonic : Account (Reading × Reading) := .perform Effect.timeThenMonotonic

def monotonicThenTime : Account (Reading × Reading) := .perform Effect.monotonicThenTime

def bootId : Account (Option (List Char)) := .perform Effect.bootId

def readLedger (limit : ℕ) : Account LedgerFile := .perform (Effect.readLedger limit)

def openTemp (process : ℕ) : Account Bool := .perform (Effect.openTemp process)

def writeTemp (process : ℕ) (first : Char) (rest : List Char) :
    Account (Option (Fin (rest.length + 1))) :=
  .perform (Effect.writeTemp process first rest)

def syncTemp (process : ℕ) : Account Bool := .perform (Effect.syncTemp process)

def renameTemp (process : ℕ) : Account Bool := .perform (Effect.renameTemp process)

def syncDirectory : Account Bool := .perform Effect.syncDirectory

def unlinkTemp (process : ℕ) : Account Bool := .perform (Effect.unlinkTemp process)

def pendingRebase (owner : Instance) : Account Bool := .perform (Effect.pendingRebase owner)

def setPendingRebase (owner : Instance) (value : Bool) : Account Unit :=
  .perform (Effect.setPendingRebase owner value)

/-- A call that raises `OSError` when it fails. -/
def attempt (call : Account Bool) : Account Unit := do
  if ← call then pure () else .fail .os

end Os

/-! ## Reading -/

/-- `_boot_id`. -/
def bootId : Account (List Char) := do
  let content ← Os.bootId
  match content with
  | some text => pure (strip text)
  | none => pure []

/-- The loop over the entries: each stamp is compared with a fresh reading. -/
def readEntries : List Json → Account (List Entry)
  | [] => pure []
  | item :: rest =>
      match entryOf item with
      | .error fault => Account.raise (.unreadable fault)
      | .ok entry => do
          let wall ← Os.time
          if entry.time > wall.value + clockSkewS then do
            let again ← Os.time
            Account.raise (.unreadable (.future (entry.time - again.value)))
          else do
            let entries ← readEntries rest
            pure (entry :: entries)

/-- The value of a clock field, `none` where the stamps are kept as they are. -/
def clockField (clock : List (List Char × Json)) (key : List Char) : Account (Option PyFloat) :=
  match Json.get? clock key with
  | none => pure none
  | some value =>
      match pyFloat value with
      | .value float => pure (some float)
      | .refused => pure none
      | .overflow => .fail .overflow

def isBoot (clock : List (List Char × Json)) (boot : List Char) : Bool :=
  match Json.get? clock "boot".toList with
  | some (.str text) => text == boot
  | _ => false

/-- `_rebase`, with whether the entries it returns are new ones. -/
def rebase (entries : List Entry) : Option Json → Account (List Entry × Bool)
  | some (.obj clock) =>
      if entries.isEmpty then pure (entries, false)
      else do
        let boot ← bootId
        if !isBoot clock boot then do
          -- another boot: none of the gap counts as elapsed
          match ← clockField clock "wall".toList with
          | none => pure (entries, false)
          | some wallThen => do
              let wall ← Os.time
              match wallThen.finite? with
              | none => pure (entries, false)
              | some wallThen =>
                  if wall.value - wallThen > clockSkewS then
                    pure (entries.map (Entry.shift (wall.value - wallThen)), true)
                  else pure (entries, false)
        else do
          match ← clockField clock "monotonic".toList with
          | none => pure (entries, false)
          | some monoThen => do
              match ← clockField clock "wall".toList with
              | none => pure (entries, false)
              | some wallThen =>
                  match monoThen.finite?, wallThen.finite? with
                  | some monoThen, some wallThen => do
                      let (wall, mono) ← Os.timeThenMonotonic
                      let step := (wall.value - wallThen) - (mono.value - monoThen)
                      if |step| ≤ clockSkewS then pure (entries, false)
                      else pure (entries.map (Entry.shift step), true)
                  | _, _ => pure (entries, false)
  | _ => pure (entries, false)

/-- `bytes.strip()` leaves nothing. -/
def isBlankText (raw : List Char) : Bool :=
  raw.all fun char => char.isWhitespace || char.toNat == 11 || char.toNat == 12

/-- `_read`. -/
def read (owner : Instance) (firstUse : Bool) : Account (List Entry) := do
  match ← Os.readLedger readLimit with
  | .missing => if firstUse then pure [] else Account.raise .disappeared
  | .fault => Account.raise .unreadableFile
  | .notRegular => Account.raise .notRegular
  | .content raw =>
      if isBlankText raw then Account.raise .empty
      else
        match header firstUse raw with
        | .error fault => Account.raise (.unreadable fault)
        | .ok (rawEntries, clock) => do
            let entries ← readEntries rawEntries
            let (rebased, changed) ← rebase entries clock
            Os.setPendingRebase owner changed
            pure rebased

/-! ## Writing -/

/-- The loop around `os.write`, which may take a part of the blob only. -/
def writeAll (process : ℕ) : List Char → Account Unit
  | [] => pure ()
  | first :: rest => do
      match ← Os.writeTemp process first rest with
      | none => .fail .os
      | some more => writeAll process (rest.drop more.val)
  termination_by blob => blob.length
  decreasing_by
    rw [List.length_drop, List.length_cons]
    omega

/-- Temporary file, fsync, rename, fsync of the directory. -/
def replaceLedger (process : ℕ) (blob : List Char) : Account Unit := do
  Os.attempt (Os.openTemp process)
  writeAll process blob
  Os.attempt (Os.syncTemp process)
  Os.attempt (Os.renameTemp process)
  Os.attempt Os.syncDirectory

/-- `_write`. -/
def write (owner : Instance) (entries : List Entry) : Account Unit := do
  let boot ← bootId
  let (mono, wall) ← Os.monotonicThenTime
  let blob := Ledger.text ⟨boot, mono, wall, entries⟩
  (replaceLedger owner.process blob).rescue fun failure =>
    match failure with
    | .os => do
        let _ ← Os.unlinkTemp owner.process
        Account.raise .notWritten
    | other => .fail other

/-! ## Accounting -/

/-- `used`. -/
def used (entries : List Entry) (window now : Decimal) : Decimal :=
  ((entries.filter fun entry => decide (now - window < entry.time)).map Entry.airtime).sum

/-- A share of a window in percent. -/
def percent (airtime window : Decimal) : ℚ := airtime.val / window.val * 100

/-- Why a reservation is refused. -/
inductive Reason where
  | shortTerm (percent limit : ℚ)
  | longTerm (percent limit : ℚ)

/-- The verdict of `reserve`. -/
inductive Verdict where
  | granted
  | refused (reason : Reason)

/-- The limit decision: the burst guard lets a packet through that finds its window
empty, the long window is the legal limit. -/
def refusal (account : DutyAccount) (entries : List Entry) (now airtime : Decimal) :
    Option Reason :=
  let shortPct := percent (used entries account.shortWindow now + airtime) account.shortWindow
  let longPct := percent (used entries account.longWindow now + airtime) account.longWindow
  if used entries account.shortWindow now > 0 ∧ shortPct > account.shortLimit.val then
    some (.shortTerm shortPct account.shortLimit.val)
  else if longPct > account.longLimit.val then some (.longTerm longPct account.longLimit.val)
  else none

/-- The entries `reserve` keeps. -/
def prune (account : DutyAccount) (now : Decimal) (entries : List Entry) : List Entry :=
  entries.filter fun entry => decide (now - account.longWindow < entry.time)

/-- `reserve` between taking and releasing the lock. -/
def reserve (account : DutyAccount) (owner : Instance) (firstUse : Bool) (airtime : Decimal) :
    Account Verdict := do
  let now ← Os.time
  let found ← read owner firstUse
  let entries := prune account now.value found
  if firstUse then write owner entries
  -- the corrected stamps are persisted whatever the verdict
  if ← Os.pendingRebase owner then do
    write owner entries
    Os.setPendingRebase owner false
  match refusal account entries now.value airtime with
  | some reason => pure (.refused reason)
  | none => do
      write owner (entries ++ [⟨now.value, airtime⟩])
      pure .granted

/-- `usage` between taking and releasing the lock; no numbers where the ledger
cannot be read. -/
def usage (account : DutyAccount) (owner : Instance) : Account (Option (ℚ × ℚ)) :=
  (do
    let now ← Os.time
    let entries ← read owner false
    pure (some (percent (used entries account.shortWindow now.value) account.shortWindow,
      percent (used entries account.longWindow now.value) account.longWindow))).rescue
    fun failure =>
      match failure with
      | .duty _ => pure none
      | other => .fail other

end LorahamRns.Duty
