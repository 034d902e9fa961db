import LorahamRns.Lib.PyFloat
import LorahamRns.Duty.Status

/-!
# A ledger of any content

`_read` decodes whatever lies on disk.  Here the stamps are moved in floats, infinities
included, and the lock is taken attempt by attempt, so that every exception a status call
may let out is in view.
-/

namespace LorahamRns.Duty

open LorahamRns.Lib

def Reading.float (reading : Reading) : PyFloat := .finite reading.value reading.inRange

/-- A ledger entry in floats. -/
def Entry.floats (entry : Entry) : PyFloat × PyFloat :=
  (.ofDecimal entry.time, .ofDecimal entry.airtime)

/-- The entry moved by a float. -/
def Entry.moveBy (step : PyFloat) (entry : Entry) : PyFloat × PyFloat :=
  ((PyFloat.ofDecimal entry.time).add step, .ofDecimal entry.airtime)

/-- Both numbers finite, the airtime positive. -/
structure Plausible (pair : PyFloat × PyFloat) : Prop where
  time : ∃ time, pair.1.finite? = some time
  airtime : ∃ airtime, pair.2.finite? = some airtime ∧ 0 < airtime

/-- `abs(step) <= bound`. -/
def isWithin (bound : Decimal) (step : PyFloat) : Bool :=
  match step.finite? with
  | some seconds => decide (|seconds| ≤ bound)
  | none => false

namespace Instant

/-- What `_rebase` adds to the stamps, `none` where it keeps them. -/
def moved (instant : Instant) (clock : List (List Char × Json)) :
    Except Failure (Option PyFloat) :=
  if !isBoot clock instant.bootText then
    match fieldOf clock "wall".toList with
    | .error failure => .error failure
    | .ok none => .ok none
    | .ok (some wallThen) =>
        let step := instant.wall.float.sub wallThen
        match step.finite? with
        | some seconds => if seconds > clockSkewS then .ok (some step) else .ok none
        | none => .ok none
  else
    match fieldOf clock "monotonic".toList with
    | .error failure => .error failure
    | .ok none => .ok none
    | .ok (some monoThen) =>
        match fieldOf clock "wall".toList with
        | .error failure => .error failure
        | .ok none => .ok none
        | .ok (some wallThen) =>
            if monoThen.finite?.isSome && wallThen.finite?.isSome then
              let step := (instant.wall.float.sub wallThen).sub
                (instant.monotonic.float.sub monoThen)
              if isWithin clockSkewS step then .ok none else .ok (some step)
            else .ok none

/-- The list `_read` returns, or what it raises. -/
def returned (instant : Instant) (firstUse : Bool) :
    Except Failure (List (PyFloat × PyFloat)) :=
  match instant.filed firstUse with
  | .error failure => .error failure
  | .ok (entries, some (.obj clock)) =>
      if entries.isEmpty then .ok []
      else
        match instant.moved clock with
        | .error failure => .error failure
        | .ok none => .ok (entries.map Entry.floats)
        | .ok (some step) => .ok (entries.map (Entry.moveBy step))
  | .ok (entries, _) => .ok (entries.map Entry.floats)

/-- `_read` raises a `DutyError` or returns finite stamps with finite positive airtimes. -/
structure ReadsSafely (instant : Instant) : Prop where
  raises : ∀ firstUse failure, instant.returned firstUse = .error failure →
    ∃ error, failure = .duty error
  reasonable : ∀ firstUse pairs, instant.returned firstUse = .ok pairs →
    ∀ pair ∈ pairs, Plausible pair

end Instant

/-! ## The lock -/

/-- `LOCK_TIMEOUT_S`. -/
def lockTimeoutS : Decimal := 2

/-- What one `flock` call can come back with. -/
inductive Attempt where
  | taken
  | again
  | fault

/-- How `_flock` ends. -/
inductive Locking where
  | taken
  | busy
  | fault

/-- What an attempt comes to, with the reading behind it. -/
def settle (deadline : Decimal) : Attempt × Decimal → Option Locking
  | (.taken, _) => some .taken
  | (.fault, _) => some .fault
  | (.again, now) => if deadline ≤ now then some .busy else none

/-- The loop of `_flock` over the attempts it makes, `none` while it goes on. -/
def flock (deadline : Decimal) : List (Attempt × Decimal) → Option Locking
  | [] => none
  | attempt :: rest =>
      match settle deadline attempt with
      | some locking => some locking
      | none => flock deadline rest

/-- A caller of `usage`: when it began to wait for the lock, the attempts it made, and
whether the lock could be released. -/
structure Locks where
  start : Decimal
  attempts : List (Attempt × Decimal)
  released : Bool

/-- `usage` from the lock file to the release of the lock, `none` while it waits. -/
def Instant.usageRun (instant : Instant) (flags : Instance → Bool) (account : DutyAccount)
    (owner : Instance) (locks : Locks) : LockFile → Option (Except Failure (Option (ℚ × ℚ)))
  | .absent => some (.ok (some (0, 0)))
  | .unopenable => some (.ok (some (0, 0)))
  | .present =>
      match flock (locks.start + lockTimeoutS) locks.attempts with
      | none => none
      | some .fault => some (.ok (some (0, 0)))
      | some .busy => some (.error (.duty .lockBusy))
      | some .taken =>
          if locks.released then some (instant.run (usage account owner) flags).1
          else some (.error (.duty .lockNotReleased))

/-! ## What the evidence must keep to -/

/-- An integer no float holds. -/
def Huge (field : Option Json) : Prop :=
  ∃ value : ℤ, field = some (.int value) ∧ ¬ |(value : Decimal).val| < floatLimit

/-- The finite number a clock field holds. -/
def numberIn (clock : List (List Char × Json)) (key : String) : Option Decimal :=
  match Json.get? clock key.toList with
  | none => none
  | some value =>
      match pyFloat value with
      | .value float => float.finite?
      | _ => none

/-- A clock field that `float()` takes. -/
def Converts (clock : List (List Char × Json)) (key : String) : Prop :=
  ∃ value float, Json.get? clock key.toList = some value ∧ pyFloat value = .value float

/-- Moved by the step, the stamps stay in the float range. -/
def StampsInRange (entries : List Entry) (step : Decimal) : Prop :=
  ∀ entry ∈ entries, |(entry.time + step).val| < floatLimit

/-- The evidence of this boot: no field that is converted is an integer beyond the float
range, and neither the two advances nor their difference nor a moved stamp leaves it. -/
structure Instant.FitsSameBoot (instant : Instant) (entries : List Entry)
    (clock : List (List Char × Json)) : Prop where
  monotonic : ¬ Huge (Json.get? clock "monotonic".toList)
  wall : Converts clock "monotonic" → ¬ Huge (Json.get? clock "wall".toList)
  range : ∀ mono wall, numberIn clock "monotonic" = some mono →
    numberIn clock "wall" = some wall →
    |(instant.wall.value - wall).val| < floatLimit ∧
      |(instant.monotonic.value - mono).val| < floatLimit ∧
      |((instant.wall.value - wall) - (instant.monotonic.value - mono)).val| < floatLimit ∧
      (clockSkewS < |(instant.wall.value - wall) - (instant.monotonic.value - mono)| →
        StampsInRange entries ((instant.wall.value - wall) - (instant.monotonic.value - mono)))

/-- The evidence of another boot. -/
structure Instant.FitsOtherBoot (instant : Instant) (entries : List Entry)
    (clock : List (List Char × Json)) : Prop where
  wall : ¬ Huge (Json.get? clock "wall".toList)
  range : ∀ wall, numberIn clock "wall" = some wall →
    |(instant.wall.value - wall).val| < floatLimit → clockSkewS < instant.wall.value - wall →
    StampsInRange entries (instant.wall.value - wall)

/-- The clock evidence the entries come with converts and moves them within the float
range. -/
def Instant.Fits (instant : Instant) (entries : List Entry) (clock : List (List Char × Json)) :
    Prop :=
  if isBoot clock instant.bootText then instant.FitsSameBoot entries clock
  else instant.FitsOtherBoot entries clock

/-- Every attempt so far met the lock held, before the deadline. -/
def Waits (deadline : Decimal) (before : List (Attempt × Decimal)) : Prop :=
  ∀ attempt ∈ before, attempt.1 = .again ∧ attempt.2 < deadline

/-- The lock stays held until the deadline is past. -/
def Locks.HeldBeyond (locks : Locks) : Prop :=
  ∃ before now rest, locks.attempts = before ++ (.again, now) :: rest ∧
    Waits (locks.start + lockTimeoutS) before ∧ locks.start + lockTimeoutS ≤ now

/-- The lock is taken before that. -/
def Locks.Taken (locks : Locks) : Prop :=
  ∃ before now rest, locks.attempts = before ++ (.taken, now) :: rest ∧
    Waits (locks.start + lockTimeoutS) before

/-! ## Fields -/

section Fields

variable {clock : List (List Char × Json)} {key : String} {failure : Failure}

theorem converts_of_ok {float : PyFloat}
    (h : Instant.fieldOf clock key.toList = .ok (some float)) :
    Converts clock key ∧ numberIn clock key = float.finite? := by
  unfold Instant.fieldOf at h
  unfold Converts numberIn
  cases field : Json.get? clock key.toList with
  | none =>
      rw [field] at h
      cases h
  | some value =>
      rw [field] at h
      dsimp only at h ⊢
      cases converted : pyFloat value with
      | value other =>
          rw [converted] at h
          cases h
          exact ⟨⟨value, float, rfl, converted⟩, rfl⟩
      | refused => rw [converted] at h; cases h
      | overflow => rw [converted] at h; cases h

theorem not_converts_of_none (h : Instant.fieldOf clock key.toList = .ok none) :
    ¬ Converts clock key ∧ numberIn clock key = none := by
  unfold Instant.fieldOf at h
  unfold Converts numberIn
  cases field : Json.get? clock key.toList with
  | none =>
      refine ⟨?_, rfl⟩
      rintro ⟨_, _, same, _⟩
      cases same
  | some value =>
      rw [field] at h
      dsimp only at h ⊢
      cases converted : pyFloat value with
      | value other => rw [converted] at h; cases h
      | refused =>
          refine ⟨?_, rfl⟩
          rintro ⟨other, float, same, converts⟩
          cases same
          rw [converted] at converts
          cases converts
      | overflow => rw [converted] at h; cases h

end Fields

/-! ## Moving the stamps -/

section Moving

variable {instant : Instant} {entries : List Entry} {clock : List (List Char × Json)}

/-- What moving the stamps must not do. -/
structure MovesSafely (instant : Instant) (entries : List Entry)
    (clock : List (List Char × Json)) : Prop where
  raises : ∀ failure, instant.moved clock ≠ .error failure
  reasonable : ∀ step, instant.moved clock = .ok (some step) →
    ∀ pair ∈ entries.map (Entry.moveBy step), Plausible pair

theorem MovesSafely.kept (h : instant.moved clock = .ok none) :
    MovesSafely instant entries clock where
  raises failure raised := by
    rw [h] at raised
    cases raised
  reasonable step moved := by
    rw [h] at moved
    cases moved

end Moving

/-! ## The whole call -/

/-- `_read` is safe on the ledger, and the status call comes back with an answer. -/
structure Instant.Safe (instant : Instant) (flags : Instance → Bool) (account : DutyAccount)
    (owner : Instance) (locks : Locks) (lock : LockFile) : Prop where
  reads : instant.ReadsSafely
  usage : ∀ result, instant.usageRun flags account owner locks lock = some result →
    ∃ numbers, result = .ok numbers

/-- What keeps the lock from raising. -/
structure Locks.Quiet (locks : Locks) : Prop where
  held : ¬ locks.HeldBeyond
  released : locks.Taken → locks.released = true

end LorahamRns.Duty
