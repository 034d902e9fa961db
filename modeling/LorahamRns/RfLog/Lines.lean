import LorahamRns.RfLog.Machine

/-!
# Lines of the live file

A write that fails part-way leaves a piece of its record at the end of the live file.
As long as no later record starts on such a piece, every line of the file is one record.
-/

namespace LorahamRns.RfLog

open LorahamRns.Lib

/-! ## Lines of a text -/

/-- The newline-terminated lines, the first of which goes on from `front`. -/
def linesFrom (front : Bytes) : Bytes → List Bytes
  | [] => []
  | byte :: rest =>
      if byte = newline then (front ++ [byte]) :: linesFrom [] rest
      else linesFrom (front ++ [byte]) rest

def terminatedLines (text : Bytes) : List Bytes := linesFrom [] text

/-- Text that ends with its only newline. -/
def OneLine (record : Bytes) : Prop := ∃ body, record = body ++ [newline] ∧ newline ∉ body

theorem linesFrom_append {body : Bytes} (none : newline ∉ body) (front rest : Bytes) :
    linesFrom front (body ++ rest) = linesFrom (front ++ body) rest := by
  induction body generalizing front with
  | nil => rw [List.nil_append, List.append_nil]
  | cons byte body ih =>
      obtain ⟨other, none⟩ := not_or.mp (mt List.mem_cons.mpr none)
      rw [List.cons_append, linesFrom, if_neg (Ne.symm other), ih none, List.append_assoc]
      rfl

theorem linesFrom_of_not_mem {text : Bytes} (none : newline ∉ text) (front : Bytes) :
    linesFrom front text = [] := by
  have := linesFrom_append none front []
  rwa [List.append_nil, linesFrom] at this

/-- Whole lines with an unterminated rest have exactly these lines. -/
theorem terminatedLines_flatten {whole : List Bytes} {tail : Bytes}
    (lines : ∀ record ∈ whole, OneLine record) (none : newline ∉ tail) :
    terminatedLines (whole.flatten ++ tail) = whole := by
  induction whole with
  | nil => exact linesFrom_of_not_mem none []
  | cons record rest ih =>
      obtain ⟨body, rfl, inner⟩ := lines record List.mem_cons_self
      have more := ih fun other found => lines other (List.mem_cons_of_mem _ found)
      unfold terminatedLines at more ⊢
      rw [List.flatten_cons, List.append_assoc, List.append_assoc, linesFrom_append inner,
        List.singleton_append, linesFrom, if_pos rfl, more, List.nil_append]

/-! ## The live file -/

/-- Every newline-terminated line of the live file is a record. -/
def Log.Lines (log : Log) : Prop := ∀ line ∈ terminatedLines log.live, line ∈ log.records

/-- The live file ends where a record may start. -/
def Log.AtLineEnd (log : Log) : Prop := log.live = [] ∨ log.live.getLast? = some newline

instance (log : Log) : Decidable log.AtLineEnd := inferInstanceAs (Decidable (_ ∨ _))

/-- No record starts on a piece that an earlier write has left. -/
def startsOnLine : Permits := fun point log call reply =>
  match point, call, reply with
  | .writing raw left, .osWrite _, .wrote count => left = raw → 0 < count → log.AtLineEnd
  | _, _, _ => True

/-- Whole records, and the unterminated rest. -/
structure Log.Pieces (log : Log) (whole : List Bytes) (tail : Bytes) : Prop where
  live : log.live = whole.flatten ++ tail
  records : ∀ record ∈ whole, record ∈ log.records
  lines : ∀ record ∈ log.records, OneLine record

/-- Whole records, and at most one piece at the end. -/
def Log.Settled (log : Log) : Prop := ∃ whole tail, log.Pieces whole tail ∧ newline ∉ tail

/-- What holds at each point. -/
def Point.Settled (log : Log) : Point → Prop
  | .measuring raw | .opening raw | .copying raw _ | .storing raw _ _ | .finishing raw
  | .abandoning raw | .truncating raw => raw ∈ log.records ∧ log.Settled
  | .writing raw left =>
      raw ∈ log.records ∧
        (left = raw ∧ log.Settled ∨
          ∃ whole done, done ≠ [] ∧ raw = done ++ left ∧ log.Pieces whole done)
  | .returned => log.Settled

variable {log after : Log}

theorem Log.Settled.lines (settled : log.Settled) : log.Lines := by
  obtain ⟨whole, tail, pieces, none⟩ := settled
  intro line found
  rw [pieces.live, terminatedLines_flatten
    (fun record found => pieces.lines record (pieces.records record found)) none] at found
  exact pieces.records line found

/-- The file after a part of a record. -/
theorem Log.Pieces.settled {whole : List Bytes} {done left : Bytes}
    (pieces : log.Pieces whole done) (record : done ++ left ∈ log.records) : log.Settled := by
  obtain ⟨body, eq, none⟩ := pieces.lines _ record
  rcases List.eq_nil_or_concat left with rfl | ⟨front, last, rfl⟩
  · rw [List.append_nil] at record
    refine ⟨whole ++ [done], [], ⟨?_, ?_, pieces.lines⟩, List.not_mem_nil⟩
    · rw [pieces.live, List.flatten_append, List.flatten_singleton, List.append_nil]
    · intro other found
      rcases List.mem_append.mp found with old | new
      · exact pieces.records other old
      · exact List.mem_singleton.mp new ▸ record
  · rw [List.concat_eq_append, ← List.append_assoc] at eq
    obtain ⟨rfl, _⟩ := List.append_inj' eq rfl
    exact ⟨whole, done, pieces, fun inside => none (List.mem_append_left _ inside)⟩

theorem Point.Settled.file {point : Point} (settled : point.Settled log) : log.Settled := by
  cases point with
  | writing raw left =>
      obtain ⟨record, ⟨_, settled⟩ | ⟨whole, done, _, rfl, pieces⟩⟩ := settled
      · exact settled
      · exact pieces.settled record
  | returned => exact settled
  | _ => exact settled.2

/-- A settled file that ends at a line end is made of whole records. -/
theorem Log.Settled.whole (settled : log.Settled) (atEnd : log.AtLineEnd) :
    ∃ whole, log.Pieces whole [] := by
  obtain ⟨whole, tail, pieces, none⟩ := settled
  refine ⟨whole, ?_⟩
  rcases List.eq_nil_or_concat tail with rfl | ⟨front, last, rfl⟩
  · exact pieces
  · rw [List.concat_eq_append] at pieces none
    rcases atEnd with empty | ends
    · rw [pieces.live] at empty
      simp at empty
    · rw [pieces.live, ← List.append_assoc, List.getLast?_concat] at ends
      rw [Option.some_inj.mp ends] at none
      exact absurd (List.mem_append_right _ (List.mem_singleton_self newline)) none

/-- What settles a file does not depend on `<path>.1`. -/
theorem Log.Settled.congr (settled : log.Settled) (live : after.live = log.live)
    (records : after.records = log.records) : after.Settled := by
  obtain ⟨whole, tail, pieces, none⟩ := settled
  refine ⟨whole, tail, ⟨live ▸ pieces.live, ?_, ?_⟩, none⟩
  · rw [records]
    exact pieces.records
  · rw [records]
    exact pieces.lines

/-- A record whose first bytes are written at a line end. -/
theorem Log.Settled.starts {raw : Bytes} {count : ℕ} (settled : log.Settled)
    (record : raw ∈ log.records) (fits : count ≤ raw.length)
    (atEnd : 0 < count → log.AtLineEnd) :
    (Point.writing raw (raw.drop count)).Settled
      { log with live := log.live ++ raw.take count } := by
  refine ⟨record, ?_⟩
  rcases Nat.eq_zero_or_pos count with rfl | positive
  · refine Or.inl ⟨rfl, settled.congr ?_ rfl⟩
    exact List.append_nil _
  · obtain ⟨whole, pieces⟩ := settled.whole (atEnd positive)
    refine Or.inr ⟨whole, raw.take count, ?_, (List.take_append_drop count raw).symm, ?_⟩
    · rw [← List.length_pos_iff, List.length_take, Nat.min_eq_left fits]
      exact positive
    · refine ⟨?_, pieces.records, pieces.lines⟩
      dsimp only
      rw [pieces.live, List.append_nil]

/-- A record that goes on. -/
theorem Log.Pieces.continues {whole : List Bytes} {done left : Bytes} (count : ℕ)
    (pieces : log.Pieces whole done) (some : done ≠ []) (record : done ++ left ∈ log.records) :
    (Point.writing (done ++ left) (left.drop count)).Settled
      { log with live := log.live ++ left.take count } := by
  refine ⟨record, Or.inr ⟨whole, done ++ left.take count, ?_, ?_, ?_⟩⟩
  · exact List.append_ne_nil_of_left_ne_nil some _
  · rw [List.append_assoc, List.take_append_drop]
  · refine ⟨?_, pieces.records, pieces.lines⟩
    dsimp only
    rw [pieces.live, List.append_assoc]

/-- One call keeps every line whole. -/
theorem Point.Settled.io {maxBytes : ℤ} {point next : Point} {call : Call} {reply : call.Reply}
    (settled : point.Settled log) (starts : startsOnLine point log call reply)
    (taken : point.Io maxBytes log call reply next after) : next.Settled after := by
  cases taken.moves with
  | tooLong | read | atEnd | unread => exact settled
  | fits | unopened | untruncated => exact ⟨settled.1, Or.inl ⟨rfl, settled.2⟩⟩
  | unmeasured => exact settled.2
  | opened | stored | unstored | finished => exact ⟨settled.1, settled.2.congr rfl rfl⟩
  | unfinished | abandoned => exact ⟨settled.1, Or.inl ⟨rfl, settled.2.congr rfl rfl⟩⟩
  | truncated =>
      obtain ⟨record, whole, tail, pieces, _⟩ := settled
      exact ⟨record, Or.inl ⟨rfl, [], [], ⟨rfl, nofun, pieces.lines⟩, List.not_mem_nil⟩⟩
  | @wrote raw left count _ fits =>
      obtain ⟨record, ⟨rfl, settled⟩ | ⟨whole, done, started, rfl, pieces⟩⟩ := settled
      · exact settled.starts record fits (starts rfl)
      · exact pieces.continues count started record
  | interrupted => exact settled
  | unwritten => exact settled.file

/-- As long as no record starts on a piece of another, every line of the live file is a
record. -/
theorem lines_whole {maxBytes : ℤ} {world : World} {trace : List Label}
    (run : ((rfLog maxBytes).restrict (permitted startsOnLine)).Run world trace) :
    world.log.Lines := by
  have oneLine (request : Request) (utc : Utc) : OneLine (request.record utc) :=
    record_line request utc
  have guarded : Guarded Log.Settled (fun point log => point.Settled log) world := by
    refine guarded_of_run run (fun _ => id) ?_ ?_ ?_ ?_
    · intro world opened
      refine ⟨world.log.records, [], ⟨?_, fun _ => id, ?_⟩, List.not_mem_nil⟩
      · rw [List.append_nil, opened.live]
      · intro record found
        obtain ⟨request, utc, rfl⟩ := opened.lines record found
        exact oneLine request utc
    · rintro log request utc ⟨whole, tail, pieces, none⟩
      refine ⟨List.mem_append_right _ (List.mem_singleton_self _), whole, tail, ⟨pieces.live,
        fun record found => List.mem_append_left _ (pieces.records record found), ?_⟩, none⟩
      intro record found
      rcases List.mem_append.mp found with old | new
      · exact pieces.lines record old
      · exact List.mem_singleton.mp new ▸ oneLine request utc
    · exact fun _ _ _ _ _ _ settled starts taken => settled.io starts taken
    · exact fun _ _ settled _ => settled.file
  exact guarded.always (fun _ settled => settled.lines) fun _ _ settled => settled.file.lines

/-! ## A piece in the way -/

/-- A log just created, before any call. -/
def World.fresh : World := ⟨⟨[], none, [], none, []⟩, none, fun _ => .idle⟩

theorem World.fresh_opened : World.fresh.Opened :=
  ⟨rfl, fun _ => rfl, rfl, nofun, rfl⟩

/-- An unconfirmed empty packet at the start of time. -/
def sent : Request := .tx .unconfirmed []

def epoch : Utc := ⟨1970, 1, 1, 0, 0, 0, 0⟩

theorem sent_length : (sent.record epoch).length = 81 := by decide +kernel

theorem sent_some : sent.record epoch ≠ [] :=
  List.ne_nil_of_length_pos (sent_length ▸ by decide)

/-- Five bytes of a record reach the file before the write fails, and the next record is
written behind them. -/
theorem cut_record_merges :
    ∃ world trace, (rfLog 1000).Run world trace ∧ ¬world.log.Lines := by
  have start : ((rfLog 1000).restrict (permitted fun _ _ _ _ => True)).Run World.fresh [] :=
    .start World.fresh_opened
  obtain ⟨trace, run⟩ := run_call start 0 sent epoch rfl rfl
    (Path.cut 5 (by simp [World.fresh, sent_length]) (by rw [sent_length]; decide)) rfl
  obtain ⟨trace, run⟩ := run_call run 0 sent epoch rfl rfl
    (Path.written (by simp [World.fresh, sent_length]) sent_some trivial trivial) rfl
  refine ⟨_, trace, run.of_restrict, fun lines => ?_⟩
  have merged : (sent.record epoch).take 5 ++ sent.record epoch ∈
      [sent.record epoch, sent.record epoch] := lines _ (by decide +kernel)
  revert merged
  decide +kernel

/-- A record written at once is a line of the file. -/
theorem whole_record_is_line :
    ∃ world : World, world.log.live = sent.record epoch ∧ world.log.Lines := by
  obtain ⟨trace, run⟩ := run_call (System.Run.start World.fresh_opened) 0 sent epoch rfl rfl
    (@Path.written 1000 startsOnLine _ _ (by simp [World.fresh, sent_length]) sent_some
      trivial (fun _ _ => Or.inl rfl)) rfl
  exact ⟨_, rfl, lines_whole run⟩

end LorahamRns.RfLog
