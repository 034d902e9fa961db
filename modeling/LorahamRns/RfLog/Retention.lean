import LorahamRns.RfLog.Segment

/-!
# Retention

Without faults `<path>.1` and the live file together hold the latest records, whole and in
order, and never less than the cap once there has been a rollover.
-/

namespace LorahamRns.RfLog

open LorahamRns.Lib

/-- `<path>.1` and the live file are consecutive records up to the last. -/
def Log.Suffix (log : Log) (records : List Bytes) : Prop :=
  ∃ lost front back, records = lost ++ front ++ back ∧
    log.previous.getD [] = front.flatten ∧ log.live = back.flatten

def lastLength (records : List Bytes) : ℕ := (records.getLast?.getD []).length

/-- What `<path>.1` and the live file hold of these records. -/
structure Log.Retains (maxBytes : ℤ) (log : Log) (records : List Bytes) : Prop where
  suffix : log.Suffix records
  bound : (log.live.length : ℤ) ≤ max maxBytes (lastLength records)
  filled : log.previous.isSome = true →
    maxBytes < (log.previous.getD []).length + log.live.length

/-- A rollover for a record `raw` under way: the live file is as it was. -/
structure Log.Rolling (maxBytes : ℤ) (log : Log) (raw : Bytes) : Prop where
  records : ∃ lost back, log.records = lost ++ back ++ [raw] ∧ log.live = back.flatten ∧
    (log.live.length : ℤ) ≤ max maxBytes (lastLength (lost ++ back))
  long : maxBytes < log.live.length + raw.length

/-- A record of which `done` has been written behind `before`. -/
structure Log.Writing (maxBytes : ℤ) (log : Log) (raw left : Bytes) : Prop where
  records : ∃ lost front back done, log.records = lost ++ front ++ back ++ [raw] ∧
    raw = done ++ left ∧ log.previous.getD [] = front.flatten ∧
    log.live = back.flatten ++ done ∧
    (back.flatten = [] ∨ (back.flatten.length + raw.length : ℤ) ≤ maxBytes) ∧
    (log.previous.isSome = true →
      maxBytes < front.flatten.length + back.flatten.length + raw.length)

/-- What holds at each point. -/
def Point.Retains (maxBytes : ℤ) (log : Log) : Point → Prop
  | .measuring raw => ∃ old, log.records = old ++ [raw] ∧ log.Retains maxBytes old
  | .opening raw => log.Rolling maxBytes raw
  | .copying raw off => log.Rolling maxBytes raw ∧ log.Copied off
  | .storing raw off chunk =>
      log.Rolling maxBytes raw ∧ log.Copied off ∧ chunk <+: (log.live.drop off).take chunkSize
  | .finishing raw =>
      log.Rolling maxBytes raw ∧
        ∃ front, log.previous = some front ∧ front ++ log.unflushed = log.live
  | .truncating raw => log.Rolling maxBytes raw ∧ log.previous = some log.live
  | .writing raw left => log.Writing maxBytes raw left
  | .abandoning _ | .returned => False

variable {maxBytes : ℤ} {log after : Log} {raw left : Bytes}

/-- Nothing but `<path>.1` changes in a rollover before the truncate. -/
theorem Log.Rolling.congr (rolling : log.Rolling maxBytes raw) (live : after.live = log.live)
    (records : after.records = log.records) : after.Rolling maxBytes raw := by
  obtain ⟨parts, long⟩ := rolling
  refine ⟨?_, ?_⟩
  · rw [live, records]
    exact parts
  · rw [live]
    exact long

theorem Log.Retains.rolling {old : List Bytes} (retains : log.Retains maxBytes old)
    (records : log.records = old ++ [raw]) (long : maxBytes < log.live.length + raw.length) :
    log.Rolling maxBytes raw := by
  obtain ⟨⟨lost, front, back, rfl, _, live⟩, bound, _⟩ := retains
  exact ⟨⟨lost ++ front, back, records, live, bound⟩, long⟩

/-- A record that fits is written behind the others. -/
theorem Log.Retains.writing {old : List Bytes} (retains : log.Retains maxBytes old)
    (records : log.records = old ++ [raw])
    (fits : (log.live.length + raw.length : ℤ) ≤ maxBytes) : log.Writing maxBytes raw raw := by
  obtain ⟨⟨lost, front, back, rfl, previous, live⟩, _, filled⟩ := retains
  refine ⟨lost, front, back, [], records, rfl, previous, ?_, Or.inr (live ▸ fits), fun some => ?_⟩
  · rw [List.append_nil, live]
  · have := filled some
    rw [previous, live] at this
    omega

/-- The live file has become the previous segment. -/
theorem Log.Rolling.writing (rolling : log.Rolling maxBytes raw)
    (previous : log.previous = some log.live) :
    Log.Writing maxBytes { log with live := [] } raw raw := by
  obtain ⟨⟨lost, back, records, live, _⟩, long⟩ := rolling
  refine ⟨lost, back, [], [], ?_, rfl, ?_, rfl, Or.inl rfl, fun _ => ?_⟩
  · rw [List.append_nil]
    exact records
  · rw [previous]
    exact live
  · rw [← live]
    simpa using long

theorem Log.Writing.more (writing : log.Writing maxBytes raw left) (count : ℕ) :
    Log.Writing maxBytes { log with live := log.live ++ left.take count } raw
      (left.drop count) := by
  obtain ⟨lost, front, back, done, records, rfl, previous, live, room, filled⟩ := writing
  refine ⟨lost, front, back, done ++ left.take count, records, ?_, previous, ?_, room, filled⟩
  · rw [List.append_assoc, List.take_append_drop]
  · dsimp only
    rw [live, List.append_assoc]

/-- While a record is written the live file stays within the cap, or holds it alone. -/
theorem Log.Writing.bound (writing : log.Writing maxBytes raw left) :
    (log.live.length : ℤ) ≤ max maxBytes (lastLength log.records) := by
  obtain ⟨lost, front, back, done, records, rfl, _, live, room, _⟩ := writing
  have last : lastLength log.records = done.length + left.length := by
    rw [lastLength, records, List.getLast?_concat, Option.getD_some, List.length_append]
  rw [last, live, List.length_append]
  rcases room with empty | fits
  · rw [empty, List.length_nil]
    omega
  · rw [List.length_append] at fits
    omega

theorem Log.Writing.retains (writing : log.Writing maxBytes raw []) :
    log.Retains maxBytes log.records := by
  refine ⟨?_, writing.bound, ?_⟩
  · obtain ⟨lost, front, back, done, records, rfl, previous, live, _, _⟩ := writing
    refine ⟨lost, front, back ++ [done], ?_, previous, ?_⟩
    · rw [records, List.append_nil, List.append_assoc]
    · rw [live, List.flatten_append, List.flatten_singleton]
  · obtain ⟨lost, front, back, done, records, rfl, previous, live, _, filled⟩ := writing
    intro some
    have := filled some
    rw [previous, live, List.length_append]
    rw [List.append_nil] at this
    omega

theorem Point.Retains.io {point next : Point} {call : Call} {reply : call.Reply}
    (retains : point.Retains maxBytes log) (good : noFaults point log call reply)
    (taken : point.Io maxBytes log call reply next after) : next.Retains maxBytes after := by
  cases taken.moves with
  | tooLong long =>
      obtain ⟨old, records, retains⟩ := retains
      exact retains.rolling records long
  | fits short =>
      obtain ⟨old, records, retains⟩ := retains
      exact retains.writing records short
  | unmeasured | unopened | unread | unstored | unfinished | untruncated | unwritten => cases good
  | opened => exact ⟨retains.congr rfl rfl, .opened log⟩
  | read _ here => exact ⟨retains.1, retains.2, here⟩
  | atEnd all => exact ⟨retains.1, retains.2.complete all⟩
  | stored buffer =>
      exact ⟨retains.1.congr rfl rfl, retains.2.1.store retains.2.2 buffer⟩
  | finished =>
      obtain ⟨rolling, front, previous, whole⟩ := retains
      exact ⟨rolling.congr rfl rfl, flush_complete previous whole⟩
  | abandoned => exact retains.elim
  | truncated => exact retains.1.writing retains.2
  | @wrote raw left count => exact retains.more count
  | interrupted => exact retains

/-! ## Whole runs -/

/-- A log just opened on no file. -/
def World.Empty (world : World) : Prop := world.Opened ∧ world.log = ⟨[], none, [], none, []⟩

/-- A thread has taken the lock and not yet begun to write its record. -/
def Point.Preparing : Point → Prop
  | .writing _ _ | .returned => False
  | _ => True

def World.Preparing (world : World) : Prop :=
  ∃ thread point, world.phase thread = .inside point ∧ point.Preparing

/-- The records written, or begun to be. -/
theorem Point.Retains.bound {point : Point} (retains : point.Retains maxBytes log) :
    (¬point.Preparing → (log.live.length : ℤ) ≤ max maxBytes (lastLength log.records)) ∧
      (point.Preparing →
        (log.live.length : ℤ) ≤ max maxBytes (lastLength log.records.dropLast)) := by
  have rolls {raw : Bytes} (rolling : log.Rolling maxBytes raw) :
      (log.live.length : ℤ) ≤ max maxBytes (lastLength log.records.dropLast) := by
    obtain ⟨lost, back, records, _, bound⟩ := rolling.records
    rw [records, List.dropLast_concat]
    exact bound
  cases point with
  | measuring raw =>
      obtain ⟨old, records, retains⟩ := retains
      rw [records, List.dropLast_concat]
      exact ⟨fun ready => absurd trivial ready, fun _ => retains.bound⟩
  | opening raw => exact ⟨fun ready => absurd trivial ready, fun _ => rolls retains⟩
  | copying raw off | storing raw off chunk | finishing raw | truncating raw =>
      exact ⟨fun ready => absurd trivial ready, fun _ => rolls retains.1⟩
  | writing raw left => exact ⟨fun _ => Log.Writing.bound retains, False.elim⟩
  | abandoning | returned => exact retains.elim

/-- Without faults, from an empty log: between calls `<path>.1` and the live file are
consecutive records up to the last, and after a rollover more than the cap is kept; and at
all times the live file is no longer than the cap or the record last begun. -/
theorem log_retained {world : World} {trace : List Label}
    (run : ((logFrom World.Empty maxBytes).restrict (permitted noFaults)).Run world trace) :
    (world.lock = none → world.log.Suffix world.log.records ∧
      (world.log.previous.isSome = true →
        maxBytes < (world.log.previous.getD []).length + world.log.live.length)) ∧
    (¬world.Preparing →
      (world.log.live.length : ℤ) ≤ max maxBytes (lastLength world.log.records)) ∧
    (world.Preparing →
      (world.log.live.length : ℤ) ≤ max maxBytes (lastLength world.log.records.dropLast)) := by
  have guarded : Guarded (fun log => log.Retains maxBytes log.records)
      (fun point log => point.Retains maxBytes log) world := by
    refine guarded_of_run run (fun _ empty => empty.1) ?_ ?_ ?_ ?_
    · rintro start ⟨_, empty⟩
      rw [empty]
      refine ⟨⟨[], [], [], rfl, rfl, rfl⟩, ?_, nofun⟩
      exact le_max_of_le_right (le_refl _)
    · exact fun log request utc retains =>
        ⟨log.records, rfl, ⟨retains.suffix, retains.bound, retains.filled⟩⟩
    · exact fun _ _ _ _ _ _ retains good taken => retains.io good taken
    · rintro (_ | _ | _ | _ | _ | _ | _ | ⟨_, _ | _⟩ | _) log retains stops
      case writing.nil => exact Log.Writing.retains retains
      all_goals first | exact retains.elim | cases stops
  refine ⟨fun free => ⟨(guarded.free free).suffix, (guarded.free free).filled⟩, ?_, ?_⟩
  · intro ready
    cases held : world.lock with
    | none => exact (guarded.free held).bound
    | some thread =>
        obtain ⟨point, inside⟩ := guarded.held thread held
        exact (guarded.alone thread point inside).2.bound.1 fun preparing =>
          ready ⟨thread, point, inside, preparing⟩
  · rintro ⟨thread, point, inside, preparing⟩
    exact (guarded.alone thread point inside).2.bound.2 preparing

/-- Two records under a cap that holds one. -/
theorem second_record_rolls :
    ∃ world : World, world.log.records = [sent.record epoch, sent.record epoch] ∧
      world.log.Suffix world.log.records ∧ world.log.previous.isSome = true := by
  have start : ((logFrom World.Empty 100).restrict (permitted noFaults)).Run World.fresh [] :=
    .start ⟨World.fresh_opened, rfl⟩
  obtain ⟨trace, run⟩ := run_call start 0 sent epoch rfl rfl
    (Path.written (by simp [World.fresh, sent_length]) sent_some rfl rfl) rfl
  obtain ⟨trace, run⟩ := run_call run 0 sent epoch rfl rfl
    (Path.rolled (by simp [World.fresh, sent_length])
      (List.append_ne_nil_of_right_ne_nil _ sent_some)
      (by simp [World.fresh, sent_length, chunkSize]) sent_some) rfl
  exact ⟨_, rfl, ((log_retained run).1 rfl).1, rfl⟩

end LorahamRns.RfLog
