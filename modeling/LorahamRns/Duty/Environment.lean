import LorahamRns.Duty.Account

/-!
# The system the account runs on

One store holds the clocks, the ledger file, the temporary files and the rebase
flags.  `Assumptions` say how the clocks may move and which calls may fail; the
answers are nondeterministic within them.  The store also notes what the call
in progress has seen and put on disk, for the specifications only.
-/

namespace LorahamRns.Duty

open LorahamRns.Lib

/-- A reading of both clocks made back to back. -/
structure Sample where
  wall : Reading
  monotonic : Reading

/-- What the wall clock is ahead of the monotonic clock. -/
def Sample.offset (sample : Sample) : Decimal := sample.wall.value - sample.monotonic.value

def Clock.offset (clock : Clock) : Decimal := clock.wall.value - clock.monotonic.value

/-- What a call has seen and done: its first reading, the sample its rebase took,
the sample its last write took and whether that write reached the disk, and
whether one of its writes failed. -/
structure Observed where
  now : Option Clock
  compared : Option Sample
  evidence : Option Sample
  persisted : Option Sample
  writeFailed : Bool

def Observed.none : Observed := ⟨.none, .none, .none, .none, false⟩

structure Store where
  clock : Clock
  ledger : Option (List Char)
  temp : ℕ → Option (List Char)
  pending : Instance → Bool
  observed : Observed

/-- How the clocks may move between two readings, how two readings made back to
back may lie, what `boot_id` may give, and which calls may fail. -/
structure Assumptions where
  advance : Clock → Clock → Prop
  refl : ∀ clock, advance clock clock
  trans : ∀ {first second third}, advance first second → advance second third →
    advance first third
  sample : Sample → Prop
  boot : Option (List Char) → Prop
  readFails : Prop
  writeFails : Option (List Char) → Prop

theorem Clock.onward_refl (clock : Clock) :
    clock.wall.value ≤ clock.wall.value ∧ clock.monotonic.value ≤ clock.monotonic.value :=
  ⟨le_rfl, le_rfl⟩

theorem Clock.onward_trans {first second third : Clock}
    (before : first.wall.value ≤ second.wall.value ∧
      first.monotonic.value ≤ second.monotonic.value)
    (after : second.wall.value ≤ third.wall.value ∧
      second.monotonic.value ≤ third.monotonic.value) :
    first.wall.value ≤ third.wall.value ∧ first.monotonic.value ≤ third.monotonic.value :=
  ⟨before.1.trans after.1, before.2.trans after.2⟩

namespace Store

/-- A clock reading; the first one of a call is its `now`. -/
def seeTime (store : Store) (clock : Clock) : Store :=
  { store with clock, observed := { store.observed with now := store.observed.now.or (some clock) } }

def seeCompared (store : Store) (clock : Clock) (sample : Sample) : Store :=
  { store with clock, observed := { store.observed with compared := some sample } }

def seeEvidence (store : Store) (clock : Clock) (sample : Sample) : Store :=
  { store with clock, observed := { store.observed with evidence := some sample } }

def setTemp (store : Store) (process : ℕ) (content : Option (List Char)) : Store :=
  { store with temp := Function.update store.temp process content }

/-- The rename puts the temporary file in the ledger's place. -/
def rename (store : Store) (process : ℕ) (content : List Char) : Store :=
  { store with
    ledger := some content
    temp := Function.update store.temp process none
    observed := { store.observed with persisted := store.observed.evidence } }

def failWrite (store : Store) : Store :=
  { store with observed := { store.observed with writeFailed := true } }

def setPending (store : Store) (owner : Instance) (value : Bool) : Store :=
  { store with pending := Function.update store.pending owner value }

end Store

/-- A write operation succeeds with `after`, or fails where that is permitted. -/
def WriteAnswer (assumptions : Assumptions) (store : Store) (reply : Bool) (last after : Store) :
    Prop :=
  (reply = true ∧ last = after) ∨
    (reply = false ∧ assumptions.writeFails store.ledger ∧ last = store.failWrite)

/-- The answers of the system. -/
def environment (assumptions : Assumptions) : Program.Environment Effect Effect.Answer Store
  | .time, store, reply, last =>
      ∃ clock, assumptions.advance store.clock clock ∧ reply = clock.wall ∧
        last = store.seeTime clock
  | .timeThenMonotonic, store, reply, last =>
      ∃ first second : Clock, assumptions.advance store.clock first ∧
        assumptions.advance first second ∧ reply = (first.wall, second.monotonic) ∧
        assumptions.sample ⟨first.wall, second.monotonic⟩ ∧
        last = store.seeCompared second ⟨first.wall, second.monotonic⟩
  | .monotonicThenTime, store, reply, last =>
      ∃ first second : Clock, assumptions.advance store.clock first ∧
        assumptions.advance first second ∧ reply = (first.monotonic, second.wall) ∧
        assumptions.sample ⟨second.wall, first.monotonic⟩ ∧
        last = store.seeEvidence second ⟨second.wall, first.monotonic⟩
  | .bootId, store, reply, last => assumptions.boot reply ∧ last = store
  | .readLedger limit, store, reply, last =>
      last = store ∧
        ((store.ledger = none ∧ reply = .missing) ∨
          (∃ text, store.ledger = some text ∧ reply = .content (text.take limit)) ∨
          (assumptions.readFails ∧ (reply = .fault ∨ reply = .notRegular)))
  | .openTemp process, store, reply, last =>
      WriteAnswer assumptions store reply last (store.setTemp process (some []))
  | .writeTemp process first rest, store, reply, last =>
      (∃ more : Fin (rest.length + 1), reply = some more ∧
        last = store.setTemp process
          ((store.temp process).map (· ++ first :: rest.take more.val))) ∨
      (reply = none ∧ assumptions.writeFails store.ledger ∧ last = store.failWrite)
  | .syncTemp _, store, reply, last => WriteAnswer assumptions store reply last store
  | .renameTemp process, store, reply, last =>
      (∃ content, store.temp process = some content ∧ reply = true ∧
        last = store.rename process content) ∨
      (reply = false ∧ (assumptions.writeFails store.ledger ∨ store.temp process = none) ∧
        last = store.failWrite)
  | .syncDirectory, store, reply, last => WriteAnswer assumptions store reply last store
  | .unlinkTemp process, store, _, last => last = store.setTemp process none
  | .pendingRebase owner, store, reply, last => reply = store.pending owner ∧ last = store
  | .setPendingRebase owner value, store, _, last => last = store.setPending owner value

end LorahamRns.Duty
