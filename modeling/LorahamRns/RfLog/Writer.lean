import LorahamRns.Lib.Process
import LorahamRns.RfLog.Record

/-!
# RfLog._write

One record at a time: the size check, the copy to `<path>.1` and the truncate of a
rollover, and the loop that writes the line.  Every call into the system may fail, and a
write may be short.
-/

namespace LorahamRns.RfLog

open LorahamRns.Lib

/-- The calls under the lock.  `write` and `close` are those of the file object open on
`<path>.1`, the others work on the log's own descriptor. -/
inductive Call where
  | fstat
  | openPrevious
  | pread (count offset : ℕ)
  | write (chunk : Bytes)
  | close
  | ftruncate
  | osWrite (raw : Bytes)
  deriving DecidableEq

/-- `os.write`: the bytes taken, `InterruptedError`, or another `OSError`. -/
inductive WriteReply where
  | wrote (count : ℕ)
  | interrupted
  | failed
  deriving DecidableEq

/-- `none` and `false` where the call raises `OSError`. -/
@[reducible]
def Call.Reply : Call → Type
  | .fstat => Option ℕ
  | .pread _ _ => Option Bytes
  | .openPrevious | .write _ | .close | .ftruncate => Bool
  | .osWrite _ => WriteReply

/-- The reply is an I/O fault. -/
def Call.faulty : (call : Call) → call.Reply → Bool
  | .fstat, size => size.isNone
  | .pread _ _, chunk => chunk.isNone
  | .openPrevious, succeeded | .write _, succeeded | .close, succeeded
  | .ftruncate, succeeded => !succeeded
  | .osWrite _, reply => reply = .failed

def chunkSize : ℕ := 65536

/-- Where a call of `_write` is.  `finishing` and `abandoning` are the two ways out of
`_copy_to_previous`; `writing` carries the record and what is left of it. -/
inductive Point where
  | measuring (raw : Bytes)
  | opening (raw : Bytes)
  | copying (raw : Bytes) (off : ℕ)
  | storing (raw : Bytes) (off : ℕ) (chunk : Bytes)
  | finishing (raw : Bytes)
  | abandoning (raw : Bytes)
  | truncating (raw : Bytes)
  | writing (raw : Bytes) (left : Bytes)
  | returned
  deriving DecidableEq

def Point.next (maxBytes : ℤ) : Point → Action Call Call.Reply Point Unit
  | .measuring raw =>
      .call .fstat fun
        | some size => if maxBytes < size + raw.length then .opening raw else .writing raw raw
        | none => .returned
  | .opening raw =>
      .call .openPrevious fun succeeded => if succeeded then .copying raw 0 else .writing raw raw
  | .copying raw off =>
      .call (.pread chunkSize off) fun
        | none => .abandoning raw
        | some [] => .finishing raw
        | some (byte :: more) => .storing raw off (byte :: more)
  | .storing raw off chunk =>
      .call (.write chunk) fun succeeded =>
        if succeeded then .copying raw (off + chunk.length) else .abandoning raw
  | .finishing raw =>
      .call .close fun succeeded => if succeeded then .truncating raw else .writing raw raw
  | .abandoning raw => .call .close fun _ => .writing raw raw
  | .truncating raw => .call .ftruncate fun _ => .writing raw raw
  | .writing _ [] => .stop ()
  | .writing raw (byte :: more) =>
      .call (.osWrite (byte :: more)) fun
        | .wrote count => .writing raw ((byte :: more).drop count)
        | .interrupted => .writing raw (byte :: more)
        | .failed => .returned
  | .returned => .stop ()

/-! ## The files -/

/-- The live file, `<path>.1` and what its file object has not written out yet.
`segment` is what the log took last for a complete copy, and `records` are the records
in lock order; no call reads either. -/
structure Log where
  live : Bytes
  previous : Option Bytes
  unflushed : Bytes
  segment : Option Bytes
  records : List Bytes
  deriving DecidableEq

/-- Some of `pending` reaches `<path>.1`. -/
def Log.flush (log : Log) (flushed rest : Bytes) : Log :=
  { log with previous := log.previous.map (· ++ flushed), unflushed := rest }

/-- The answers the system may give.  A read returns at least one byte before the end;
a failed write or close may have written some of what was pending. -/
def Answers : (call : Call) → Log → call.Reply → Log → Prop
  | .fstat, log, size, after => after = log ∧ ∀ n ∈ size, n = log.live.length
  | .openPrevious, log, true, after => after = { log with previous := some [], unflushed := [] }
  | .openPrevious, log, false, after => after = log
  | .pread count offset, log, chunk, after =>
      after = log ∧ ∀ bytes ∈ chunk, bytes <+: (log.live.drop offset).take count ∧
        (bytes = [] → log.live.length ≤ offset)
  | .write chunk, log, true, after =>
      ∃ flushed rest, log.unflushed ++ chunk = flushed ++ rest ∧ after = log.flush flushed rest
  | .write chunk, log, false, after =>
      ∃ flushed rest lost, log.unflushed ++ chunk = flushed ++ rest ++ lost ∧
        after = log.flush flushed rest
  | .close, log, true, after => after = log.flush log.unflushed []
  | .close, log, false, after =>
      ∃ flushed lost, log.unflushed = flushed ++ lost ∧ after = log.flush flushed []
  | .ftruncate, log, true, after => after = { log with live := [] }
  | .ftruncate, log, false, after => after = log
  | .osWrite raw, log, .wrote count, after =>
      count ≤ raw.length ∧ after = { log with live := log.live ++ raw.take count }
  | .osWrite _, log, .interrupted, after => after = log
  | .osWrite _, log, .failed, after => after = log

/-- One call of `_write` and its answer. -/
def Point.Io (maxBytes : ℤ) (point : Point) (log : Log) (call : Call) (reply : call.Reply)
    (next : Point) (after : Log) : Prop :=
  ∃ resume answered, point.next maxBytes = .call call resume ∧ next = resume reply ∧
    Answers call log reply answered ∧
    -- the copy is taken for complete where `_copy_to_previous` returns True
    after = match next with
      | .truncating _ => { answered with segment := some log.live }
      | _ => answered

/-! ## What one call can do -/

/-- The moves from each point, one for each kind of answer. -/
inductive Moves (maxBytes : ℤ) (log : Log) :
    Point → (call : Call) → call.Reply → Point → Log → Prop where
  | tooLong {raw : Bytes} (long : maxBytes < log.live.length + raw.length) :
      Moves maxBytes log (.measuring raw) .fstat (some log.live.length) (.opening raw) log
  | fits {raw : Bytes} (short : (log.live.length + raw.length : ℤ) ≤ maxBytes) :
      Moves maxBytes log (.measuring raw) .fstat (some log.live.length) (.writing raw raw) log
  | unmeasured {raw : Bytes} : Moves maxBytes log (.measuring raw) .fstat none .returned log
  | opened {raw : Bytes} :
      Moves maxBytes log (.opening raw) .openPrevious true (.copying raw 0)
        { log with previous := some [], unflushed := [] }
  | unopened {raw : Bytes} :
      Moves maxBytes log (.opening raw) .openPrevious false (.writing raw raw) log
  | read {raw chunk : Bytes} {off : ℕ} (some' : chunk ≠ [])
      (here : chunk <+: (log.live.drop off).take chunkSize) :
      Moves maxBytes log (.copying raw off) (.pread chunkSize off) (some chunk)
        (.storing raw off chunk) log
  | atEnd {raw : Bytes} {off : ℕ} (all : log.live.length ≤ off) :
      Moves maxBytes log (.copying raw off) (.pread chunkSize off) (some []) (.finishing raw) log
  | unread {raw : Bytes} {off : ℕ} :
      Moves maxBytes log (.copying raw off) (.pread chunkSize off) none (.abandoning raw) log
  | stored {raw chunk flushed rest : Bytes} {off : ℕ}
      (buffer : log.unflushed ++ chunk = flushed ++ rest) :
      Moves maxBytes log (.storing raw off chunk) (.write chunk) true
        (.copying raw (off + chunk.length)) (log.flush flushed rest)
  | unstored {raw chunk flushed rest : Bytes} {off : ℕ} :
      Moves maxBytes log (.storing raw off chunk) (.write chunk) false (.abandoning raw)
        (log.flush flushed rest)
  | finished {raw : Bytes} :
      Moves maxBytes log (.finishing raw) .close true (.truncating raw)
        { log.flush log.unflushed [] with segment := some log.live }
  | unfinished {raw flushed : Bytes} :
      Moves maxBytes log (.finishing raw) .close false (.writing raw raw) (log.flush flushed [])
  | abandoned {raw flushed : Bytes} {reply : Bool} :
      Moves maxBytes log (.abandoning raw) .close reply (.writing raw raw) (log.flush flushed [])
  | truncated {raw : Bytes} :
      Moves maxBytes log (.truncating raw) .ftruncate true (.writing raw raw)
        { log with live := [] }
  | untruncated {raw : Bytes} :
      Moves maxBytes log (.truncating raw) .ftruncate false (.writing raw raw) log
  | wrote {raw left : Bytes} {count : ℕ} (some' : left ≠ []) (fits : count ≤ left.length) :
      Moves maxBytes log (.writing raw left) (.osWrite left) (.wrote count)
        (.writing raw (left.drop count)) { log with live := log.live ++ left.take count }
  | interrupted {raw left : Bytes} :
      Moves maxBytes log (.writing raw left) (.osWrite left) .interrupted (.writing raw left) log
  | unwritten {raw left : Bytes} :
      Moves maxBytes log (.writing raw left) (.osWrite left) .failed .returned log

theorem Point.Io.moves {maxBytes : ℤ} {point next : Point} {log after : Log} {call : Call}
    {reply : call.Reply} (io : point.Io maxBytes log call reply next after) :
    Moves maxBytes log point call reply next after := by
  obtain ⟨resume, answered, action, rfl, answers, rfl⟩ := io
  cases point with
  | measuring raw =>
      obtain ⟨rfl, rfl⟩ := Action.call.inj action
      obtain ⟨rfl, size⟩ := answers
      cases reply with
      | none => exact .unmeasured
      | some n =>
          obtain rfl := size n rfl
          dsimp only
          split
          case isTrue long => exact .tooLong long
          case isFalse short => exact .fits (not_lt.mp short)
  | opening raw =>
      obtain ⟨rfl, rfl⟩ := Action.call.inj action
      cases reply with
      | true =>
          obtain rfl := answers
          exact .opened
      | false =>
          obtain rfl := answers
          exact .unopened
  | copying raw off =>
      obtain ⟨rfl, rfl⟩ := Action.call.inj action
      obtain ⟨rfl, read⟩ := answers
      cases reply with
      | none => exact .unread
      | some chunk =>
          obtain ⟨here, all⟩ := read chunk rfl
          cases chunk with
          | nil => exact .atEnd (all rfl)
          | cons byte more => exact .read (List.cons_ne_nil _ _) here
  | storing raw off chunk =>
      obtain ⟨rfl, rfl⟩ := Action.call.inj action
      cases reply with
      | true =>
          obtain ⟨flushed, rest, buffer, rfl⟩ := answers
          exact .stored buffer
      | false =>
          obtain ⟨flushed, rest, lost, _, rfl⟩ := answers
          exact .unstored
  | finishing raw =>
      obtain ⟨rfl, rfl⟩ := Action.call.inj action
      cases reply with
      | true =>
          obtain rfl := answers
          exact .finished
      | false =>
          obtain ⟨flushed, lost, _, rfl⟩ := answers
          exact .unfinished
  | abandoning raw =>
      obtain ⟨rfl, rfl⟩ := Action.call.inj action
      cases reply with
      | true =>
          obtain rfl := answers
          exact .abandoned
      | false =>
          obtain ⟨flushed, lost, _, rfl⟩ := answers
          exact .abandoned
  | truncating raw =>
      obtain ⟨rfl, rfl⟩ := Action.call.inj action
      cases reply with
      | true =>
          obtain rfl := answers
          exact .truncated
      | false =>
          obtain rfl := answers
          exact .untruncated
  | writing raw left =>
      cases left with
      | nil => cases action
      | cons byte more =>
          obtain ⟨rfl, rfl⟩ := Action.call.inj action
          cases reply with
          | wrote count =>
              obtain ⟨fits, rfl⟩ := answers
              exact .wrote (List.cons_ne_nil _ _) fits
          | interrupted =>
              obtain rfl := answers
              exact .interrupted
          | failed =>
              obtain rfl := answers
              exact .unwritten
  | returned => cases action

end LorahamRns.RfLog
