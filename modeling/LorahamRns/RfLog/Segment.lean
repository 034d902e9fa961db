import LorahamRns.RfLog.Lines

/-!
# The previous segment

Opening `<path>.1` empties it before the first byte is copied.  Without a fault behind
that point it only ever changes to a complete copy of the live file.
-/

namespace LorahamRns.RfLog

open LorahamRns.Lib

/-! ## A copy under way -/

/-- Opening succeeded, and the file object has been given the first `off` bytes of the
live file. -/
structure Log.Copied (log : Log) (off : ℕ) : Prop where
  stored : ∃ front, log.previous = some front ∧ front ++ log.unflushed = log.live.take off
  inside : off ≤ log.live.length

variable {maxBytes : ℤ} {log : Log} {off : ℕ} {chunk flushed rest : Bytes}

theorem Log.Copied.opened (log : Log) :
    Log.Copied { log with previous := some [], unflushed := [] } 0 :=
  ⟨⟨[], rfl, rfl⟩, Nat.zero_le _⟩

/-- One more chunk. -/
theorem Log.Copied.store (copied : log.Copied off)
    (here : chunk <+: (log.live.drop off).take chunkSize)
    (buffer : log.unflushed ++ chunk = flushed ++ rest) :
    (log.flush flushed rest).Copied (off + chunk.length) := by
  obtain ⟨⟨front, previous, stored⟩, inside⟩ := copied
  have prefix' : chunk <+: log.live.drop off := here.trans (List.take_prefix _ _)
  refine ⟨⟨front ++ flushed, ?_, ?_⟩, ?_⟩
  · rw [Log.flush, previous]
    rfl
  · rw [Log.flush, List.append_assoc, ← buffer, ← List.append_assoc, stored]
    dsimp only
    rw [List.take_add, ← List.prefix_iff_eq_take.mp prefix']
  · have short := prefix'.length_le
    rw [List.length_drop] at short
    change off + chunk.length ≤ log.live.length
    omega

/-- At the end of the live file the copy is complete. -/
theorem Log.Copied.complete (copied : log.Copied off) (all : log.live.length ≤ off) :
    ∃ front, log.previous = some front ∧ front ++ log.unflushed = log.live := by
  obtain ⟨⟨front, previous, stored⟩, _⟩ := copied
  rw [List.take_of_length_le all] at stored
  exact ⟨front, previous, stored⟩

/-- Closing writes out the rest. -/
theorem flush_complete {front : Bytes} (previous : log.previous = some front)
    (whole : front ++ log.unflushed = log.live) :
    (log.flush log.unflushed []).previous = some log.live := by
  rw [Log.flush, previous, Option.map_some, whole]

/-! ## What `<path>.1` holds -/

/-- Between opening `<path>.1` and closing it. -/
def Point.Copying : Point → Prop
  | .copying _ _ | .storing _ _ _ | .finishing _ | .abandoning _ => True
  | _ => False

/-- `<path>.1` holds the last complete copy, or what it held at first. -/
def Log.Kept (log : Log) : Prop := log.previous = log.segment

/-- Nothing fails between opening and closing `<path>.1`. -/
def copyHolds : Permits := fun point _ call reply =>
  match point with
  | .copying _ _ | .storing _ _ _ | .finishing _ => call.faulty reply = false
  | _ => True

/-- What holds at each point. -/
def Point.Kept (log : Log) : Point → Prop
  | .copying _ off => log.Copied off
  | .storing _ off chunk => log.Copied off ∧ chunk <+: (log.live.drop off).take chunkSize
  | .finishing _ => ∃ front, log.previous = some front ∧ front ++ log.unflushed = log.live
  | .abandoning _ => False
  | _ => log.Kept

theorem Point.Kept.outside {point : Point} (kept : point.Kept log) (outside : ¬point.Copying) :
    log.Kept := by
  cases point with
  | copying | storing | finishing | abandoning => exact absurd trivial outside
  | _ => exact kept

theorem Point.Kept.io {point next : Point} {call : Call} {reply : call.Reply} {after : Log}
    (kept : point.Kept log) (holds : copyHolds point log call reply)
    (taken : point.Io maxBytes log call reply next after) : next.Kept after := by
  cases taken.moves with
  | tooLong | fits | unmeasured | unopened | truncated | untruncated | wrote | interrupted
  | unwritten => exact kept
  | opened => exact .opened log
  | read _ here => exact ⟨kept, here⟩
  | atEnd all => exact kept.complete all
  | unread | unstored | unfinished => cases holds
  | stored buffer => exact kept.1.store kept.2 buffer
  | finished =>
      obtain ⟨front, previous, whole⟩ := kept
      exact flush_complete previous whole
  | abandoned => exact kept.elim

/-- A call into the system leaves the live file alone while a copy is under way. -/
theorem Point.Io.live_of_copying {point next : Point} {call : Call} {reply : call.Reply}
    {after : Log} (taken : point.Io maxBytes log call reply next after)
    (copying : point.Copying) : after.live = log.live := by
  cases taken.moves with
  | read | atEnd | unread | stored | unstored | finished | unfinished | abandoned => rfl
  | _ => exact copying.elim

/-- A thread is between opening and closing `<path>.1`. -/
def World.Copying (world : World) : Prop :=
  ∃ thread point, world.phase thread = .inside point ∧ point.Copying

/-- Whenever no copy is under way, `<path>.1` holds the last complete copy of the live file
or what it held at first; and a copy leaves the live file as it is. -/
theorem segment_kept {world : World} {trace : List Label}
    (run : ((rfLog maxBytes).restrict (permitted copyHolds)).Run world trace) :
    (¬world.Copying → world.log.Kept) ∧
      ∀ label after, world.Copying → world.Step maxBytes label after →
        after.log.live = world.log.live := by
  have guarded : Guarded Log.Kept (fun point log => point.Kept log) world := by
    refine guarded_of_run run (fun _ => id) ?_ ?_ ?_ ?_
    · exact fun world opened => opened.segment.symm
    · exact fun _ _ _ kept => kept
    · exact fun _ _ _ _ _ _ kept holds taken => kept.io holds taken
    · rintro (_ | _ | _ | _ | _ | _ | _ | ⟨_, _ | _⟩ | _) log kept stops <;>
        first | exact kept | cases stops
  refine ⟨fun outside => ?_, ?_⟩
  · cases held : world.lock with
    | none => exact guarded.free held
    | some thread =>
        obtain ⟨point, inside⟩ := guarded.held thread held
        exact (guarded.alone thread point inside).2.outside fun copying =>
          outside ⟨thread, point, inside, copying⟩
  · rintro label after ⟨thread, point, inside, copying⟩ step
    have alone {other : ℕ} {point' : Point} (inside' : world.phase other = .inside point') :
        point' = point := by
      have held := (guarded.alone thread point inside).1
      have same := Option.some_inj.mp ((guarded.alone other point' inside').1.symm.trans held)
      rw [same] at inside'
      exact Phase.inside.inj (inside'.symm.trans inside)
    cases step with
    | request | unlocked => rfl
    | locked utc waiting free => rfl
    | io inside' taken => exact taken.live_of_copying (alone inside' ▸ copying)

/-! ## Rollovers with and without a fault -/

/-- No call fails. -/
def noFaults : Permits := fun _ _ call reply => call.faulty reply = false

theorem copyHolds_of_noFaults {point : Point} {log : Log} {call : Call} {reply : call.Reply}
    (good : noFaults point log call reply) : copyHolds point log call reply := by
  cases point with
  | copying | storing | finishing => exact good
  | _ => trivial

theorem Path.mono {permits wider : Permits} {point last : Point} {after : Log}
    (implies : ∀ point log call reply, permits point log call reply → wider point log call reply)
    (path : Path maxBytes permits point log last after) :
    Path maxBytes wider point log last after := by
  induction path with
  | refl => exact .refl
  | step _ allowed taken ih => exact ih.step (implies _ _ _ _ allowed) taken

/-- A record that does not fit opens `<path>.1`. -/
theorem Path.opened {raw : Bytes} (long : maxBytes < log.live.length + raw.length) :
    Path maxBytes noFaults (.measuring raw) log (.copying raw 0)
      { log with previous := some [], unflushed := [] } := by
  have start : Path maxBytes noFaults (.measuring raw) log (.measuring raw) log := .refl
  have measured := start.call .fstat (some log.live.length) rfl
    ⟨_, log, rfl, (if_pos long).symm, ⟨rfl, fun n same => (Option.some_inj.mp same).symm⟩, rfl⟩
  exact measured.call .openPrevious true rfl ⟨_, _, rfl, rfl, rfl, rfl⟩

/-- A rollover whose first read fails, and the record written behind the live file. -/
theorem Path.unread {raw : Bytes} (long : maxBytes < log.live.length + raw.length)
    (line : raw ≠ []) :
    Path maxBytes (fun _ _ _ _ => True) (.measuring raw) log (.writing raw [])
      { log with live := log.live ++ raw, previous := some [], unflushed := [] } := by
  have opened := (Path.opened long).mono fun _ _ _ _ _ => trivial
  have unread := opened.call (.pread chunkSize 0) none trivial
    ⟨_, _, rfl, rfl, ⟨rfl, nofun⟩, rfl⟩
  have closed := unread.call .close true trivial ⟨_, _, rfl, rfl, rfl, rfl⟩
  exact closed.line line trivial

/-- A rollover of a live file that is read in one chunk. -/
theorem Path.rolled {raw : Bytes} (long : maxBytes < log.live.length + raw.length)
    (some' : log.live ≠ []) (small : log.live.length ≤ chunkSize) (line : raw ≠ []) :
    Path maxBytes noFaults (.measuring raw) log (.writing raw [])
      { log with
        live := raw, previous := some log.live, unflushed := [], segment := some log.live } := by
  obtain ⟨live, previous, unflushed, segment, records⟩ := log
  obtain ⟨first, rest, rfl⟩ := List.exists_cons_of_ne_nil some'
  have read := (Path.opened long).call (.pread chunkSize 0) (some (first :: rest)) rfl
    ⟨_, _, rfl, rfl, ⟨rfl, fun chunk same => ?_⟩, rfl⟩
  · have stored := read.call (.write (first :: rest)) true rfl
      ⟨_, _, rfl, rfl, ⟨first :: rest, [], by simp, rfl⟩, rfl⟩
    have ended := stored.call (.pread chunkSize (0 + (first :: rest).length)) (some []) rfl
      ⟨_, _, rfl, rfl, ⟨rfl, fun chunk same => ?_⟩, rfl⟩
    · have closed := ended.call .close true rfl ⟨_, _, rfl, rfl, rfl, rfl⟩
      have truncated := closed.call .ftruncate true rfl ⟨_, _, rfl, rfl, rfl, rfl⟩
      simpa [Log.flush] using truncated.line line rfl
    · obtain rfl := Option.some_inj.mp same
      exact ⟨List.nil_prefix, fun _ => Nat.le_add_left _ _⟩
  · obtain rfl := Option.some_inj.mp same
    refine ⟨?_, nofun⟩
    rw [List.drop_zero, List.take_of_length_le small]

/-- A log with one record, and a previous segment of two bytes. -/
def World.running : World :=
  ⟨⟨sent.record epoch, some [1, 2], [], some [1, 2], [sent.record epoch]⟩, none, fun _ => .idle⟩

theorem World.running_opened : World.running.Opened := by
  refine ⟨rfl, fun _ => rfl, (List.append_nil _).symm, fun record found => ?_, rfl⟩
  exact ⟨sent, epoch, List.mem_singleton.mp found⟩

/-- The copy fails at its first read: the previous segment is gone. -/
theorem failed_copy_loses_segment :
    ∃ world trace, (rfLog 100).Run world trace ∧ ¬world.Copying ∧ ¬world.log.Kept := by
  have start : ((rfLog 100).restrict (permitted fun _ _ _ _ => True)).Run World.running [] :=
    .start World.running_opened
  obtain ⟨trace, run⟩ := run_call start 0 sent epoch rfl rfl
    (Path.unread (by simp [World.running, sent_length]) sent_some) rfl
  refine ⟨_, trace, run.of_restrict, ?_, ?_⟩
  · rintro ⟨thread, point, inside, _⟩
    cases inside
  · unfold Log.Kept
    decide

/-- A rollover without a fault replaces the previous segment by the live file. -/
theorem rolled_segment_kept :
    ∃ world : World, world.log.previous = some (sent.record epoch) ∧ world.log.Kept := by
  have start : ((rfLog 100).restrict (permitted copyHolds)).Run World.running [] :=
    .start World.running_opened
  obtain ⟨trace, run⟩ := run_call start 0 sent epoch rfl rfl
    ((Path.rolled (by simp [World.running, sent_length]) sent_some
      (by rw [World.running, sent_length]; decide) sent_some).mono
        fun _ _ _ _ => copyHolds_of_noFaults) rfl
  refine ⟨_, rfl, (segment_kept run).1 ?_⟩
  rintro ⟨thread, point, inside, _⟩
  cases inside

end LorahamRns.RfLog
