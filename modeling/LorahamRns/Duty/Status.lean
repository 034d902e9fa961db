import LorahamRns.Lib.JsonAscii
import LorahamRns.Duty.Charges
import LorahamRns.Duty.Instant
import LorahamRns.Duty.Script

/-!
# The status call against the reservation

What `usage` reports and what a reservation counts, from one state on disk at one
instant.  Without its lock file `usage` does not look at the ledger at all.
-/

namespace LorahamRns.Duty

open LorahamRns.Lib

/-! ## The state on disk -/

/-- What opening the lock file meets. -/
inductive LockFile where
  | present
  | absent
  | unopenable
  deriving DecidableEq

/-- What opening the ledger gives, in bytes. -/
inductive LedgerBytes where
  | missing
  | fault
  | notRegular
  | bytes (raw : List UInt8)

/-- What `bytes.strip()` takes off. -/
def isBlankByte (byte : UInt8) : Bool := byte == 32 || (9 ≤ byte && byte ≤ 13)

/-- The text the reader goes by.  Bytes that do not decode, blanks in more than one byte
and integers too long for `int()` stand as a text that is no document. -/
def readText (raw : List UInt8) : List Char :=
  if raw.all isBlankByte then []
  else
    match Json.decode raw with
    | some text =>
        if isBlankText text || !Json.takesIntegers text then [Char.ofNat 0xFFFD] else text
    | none => [Char.ofNat 0xFFFD]

/-- At most so many bytes are read. -/
def LedgerBytes.file : LedgerBytes → LedgerFile
  | .missing => .missing
  | .fault => .fault
  | .notRegular => .notRegular
  | .bytes raw => .content (readText (raw.take readLimit))

/-- A state directory. -/
structure Disk where
  lock : LockFile
  ledger : LedgerBytes

/-- Both clocks and the boot. -/
structure Moment where
  wall : Reading
  monotonic : Reading
  boot : Option (List Char)

def Disk.at (disk : Disk) (moment : Moment) : Instant :=
  ⟨moment.wall, moment.monotonic, moment.boot, disk.ledger.file⟩

/-- A document in ASCII is read as the characters it was written in. -/
theorem file_document {fields : List (List Char × Json)}
    (fit : Json.digitsFit (.obj fields) = true) :
    (LedgerBytes.bytes (Json.encode (Json.dumps (.obj fields)))).file =
      .content ((Json.dumps (.obj fields)).take readLimit) := by
  have limit := readLimit_pos
  have ascii : Json.Ascii ((Json.dumps (.obj fields)).take readLimit) := fun char member =>
    Json.dumps_ascii _ char (List.mem_of_mem_take member)
  have integers : Json.takesIntegers ((Json.dumps (.obj fields)).take readLimit) = true := by
    unfold Json.takesIntegers
    by_cases cut : readLimit < (Json.dumps (.obj fields)).length
    · rw [Json.loads_take_dumps fields limit cut]
      rfl
    · rw [List.take_of_length_le (not_lt.mp cut), Json.loads_dumps]
      exact fit
  obtain ⟨rest, opens⟩ : ∃ rest, (Json.dumps (.obj fields)).take readLimit = '{' :: rest := by
    obtain ⟨less, same⟩ : ∃ less, readLimit = less + 1 := ⟨readLimit - 1, by omega⟩
    rw [same, Json.dumps, List.cons_append, List.take_succ_cons]
    exact ⟨_, rfl⟩
  have bytes : (Json.encode (Json.dumps (.obj fields))).take readLimit =
      Json.encode ((Json.dumps (.obj fields)).take readLimit) := List.map_take.symm
  rw [LedgerBytes.file, bytes, LedgerFile.content.injEq]
  generalize (Json.dumps (.obj fields)).take readLimit = text at ascii integers opens
  subst opens
  unfold readText
  rw [Json.decode_encode ascii]
  have written : ¬ (Json.encode ('{' :: rest)).all isBlankByte = true := Bool.false_ne_true
  have shown : isBlankText ('{' :: rest) = false := rfl
  rw [if_neg written]
  dsimp only
  rw [shown, integers]
  rfl

/-- What `_write` leaves is what the next reader goes by. -/
theorem file_ledger (ledger : Ledger) :
    (LedgerBytes.bytes (Json.encode ledger.text)).file = .content (ledger.text.take readLimit) := by
  have entries (items : List Entry) : Json.digitsFitItems (items.map Entry.json) = true := by
    induction items with
    | nil => rfl
    | cons entry rest ih => exact ih
  refine file_document ?_
  change (Json.digitsFitItems (ledger.entries.map Entry.json) && true) = true
  rw [entries, Bool.and_true]

/-! ## The calls -/

/-- `usage`: a lock file that is missing or cannot be opened reads as never used. -/
def usageCall (account : DutyAccount) (owner : Instance) : LockFile → Account (Option (ℚ × ℚ))
  | .present => usage account owner
  | .absent => pure (some (0, 0))
  | .unopenable => pure (some (0, 0))

/-- `reserve`, which makes the lock file where there is none. -/
def reserveCall (account : DutyAccount) (owner : Instance) (airtime : Decimal) :
    LockFile → Account Verdict
  | .present => reserve account owner false airtime
  | .absent => reserve account owner true airtime
  | .unopenable => .fail .os

/-- The entries `reserve` counts, with its reading. -/
def countingCall (account : DutyAccount) (owner : Instance) :
    LockFile → Account (Reading × List Entry)
  | .present => Instant.counting account owner false
  | .absent => Instant.counting account owner true
  | .unopenable => .fail .os

/-- The numbers of a status call are the shares a reservation counts, and there are none
where the reservation refuses the ledger. -/
structure Instant.Honest (instant : Instant) (flags : Instance → Bool) (account : DutyAccount)
    (owner : Instance) (lock : LockFile) : Prop where
  counted : ∀ numbers,
    (instant.run (usageCall account owner lock) flags).1 = .ok (some numbers) →
    ∃ now entries, (instant.run (countingCall account owner lock) flags).1 = .ok (now, entries) ∧
      numbers = Instant.shares account now.value entries
  refused : ∀ airtime fault,
    (instant.run (reserveCall account owner airtime lock) flags).1 = .error (.duty fault) →
    ∀ numbers, (instant.run (usageCall account owner lock) flags).1 ≠ .ok (some numbers)

/-! ## Where they agree -/

section Agree

variable (instant : Instant) (flags : Instance → Bool) (account : DutyAccount) (owner : Instance)

end Agree

end LorahamRns.Duty
