import LorahamRns.Lib.LineBuffer
import LorahamRns.RfLog.Lines
import LorahamRns.RfLog.Reading

/-!
# Torn lines

A record whose write is cut short stays in front of the next one on the same line.  Such a
line holds more than one moment in front of its quotes, or more than two quotes, and is read
as no packet: whatever fails, what is read from the live file has been logged.
-/

namespace LorahamRns.RfLog

open LorahamRns.Lib
open LorahamRns.Lib.LineBuffer (complete pending)
open LorahamRns.Lib.Separated

/-! ## One moment, two quotes -/

/-- The moment without the letter at its end. -/
def Utc.stamp (utc : Utc) : List Char :=
  padded 4 utc.year ++ ['-'] ++ padded 2 utc.month ++ ['-'] ++ padded 2 utc.day ++ ['T'] ++
    padded 2 utc.hour ++ [':'] ++ padded 2 utc.minute ++ [':'] ++ padded 2 utc.second ++ ['.'] ++
    padded 3 utc.milli

/-- What stands between the moment and the quotes. -/
def Entry.fields : Entry → List Char
  | .rx _ rssi snr data =>
      " RX rssi=".toList ++ rssi.text ++ " snr=".toList ++ snr.text ++ " len=".toList ++
        decimal data.length ++ (" hex=".toList ++ hex data ++ " ascii=".toList)
  | .tx _ outcome data =>
      " TX rssi=- snr=- len=".toList ++ decimal data.length ++ " outcome=".toList ++
        outcome.text ++ (" hex=".toList ++ hex data ++ " ascii=".toList)

theorem Entry.text_eq (entry : Entry) : entry.text =
    (entry.utc.stamp ++ 'Z' :: entry.fields) ++ '"' :: (ascii entry.data ++ ['"']) := by
  have label : " ascii=\"".toList = " ascii=".toList ++ ['"'] := by decide +kernel
  cases entry with
  | rx utc rssi snr data =>
      unfold Entry.text payloadText Utc.text Entry.fields Entry.utc Entry.data Utc.stamp
      rw [label]
      simp only [List.append_assoc, List.cons_append, List.nil_append]
  | tx utc outcome data =>
      unfold Entry.text payloadText Utc.text Entry.fields Entry.utc Entry.data Utc.stamp
      rw [label]
      simp only [List.append_assoc, List.cons_append, List.nil_append]

theorem padded_length {width number : ℕ} (small : number < 10 ^ width) (some : 0 < width) :
    (padded width number).length = width := by
  have short : (decimal number).length ≤ width :=
    (Nat.length_toDigits_le_iff (by decide) some).mpr small
  rw [padded, List.length_append, List.length_replicate, Nat.sub_add_cancel short]

theorem Utc.stamp_length {utc : Utc} (regular : utc.Regular) : utc.stamp.length = 23 := by
  unfold Utc.stamp
  simp only [List.length_append, List.length_singleton,
    padded_length (show utc.year < 10 ^ 4 from regular.year) (by decide),
    padded_length (show utc.month < 10 ^ 2 from regular.month) (by decide),
    padded_length (show utc.day < 10 ^ 2 from regular.day) (by decide),
    padded_length (show utc.hour < 10 ^ 2 from regular.hour) (by decide),
    padded_length (show utc.minute < 10 ^ 2 from regular.minute) (by decide),
    padded_length (show utc.second < 10 ^ 2 from regular.second) (by decide),
    padded_length (show utc.milli < 10 ^ 3 from regular.milli) (by decide)]

theorem Utc.not_mem_stamp (utc : Utc) {stop : Char} (digit : stop.isDigit = false)
    (other : stop ∉ ['-', 'T', ':', '.']) : stop ∉ utc.stamp := by
  simp only [List.mem_cons, List.not_mem_nil, or_false, not_or] at other
  obtain ⟨dash, letter, colon, point⟩ := other
  unfold Utc.stamp
  simp only [List.mem_append, List.mem_singleton, not_or]
  have number (width value : ℕ) : stop ∉ padded width value :=
    (padded_digits width value).not_mem digit
  exact ⟨⟨⟨⟨⟨⟨⟨⟨⟨⟨⟨⟨number _ _, dash⟩, number _ _⟩, dash⟩, number _ _⟩, letter⟩, number _ _⟩,
    colon⟩, number _ _⟩, colon⟩, number _ _⟩, point⟩, number _ _⟩

/-- Neither a quote nor the letter of the moment. -/
theorem Entry.not_mem_fields (entry : Entry) {stop : Char} (mark : stop = '"' ∨ stop = 'Z') :
    stop ∉ entry.fields := by
  have digit : stop.isDigit = false := by rcases mark with rfl | rfl <;> rfl
  have point : stop ≠ '.' := by rcases mark with rfl | rfl <;> decide
  have sign : stop ≠ '-' := by rcases mark with rfl | rfl <;> decide
  have shown (data : Bytes) : stop ∉ hex data :=
    not_mem_hex data (by rcases mark with rfl | rfl <;> decide)
  have label : stop ∉ " RX rssi=".toList ∧ stop ∉ " snr=".toList ∧ stop ∉ " len=".toList ∧
      stop ∉ " hex=".toList ∧ stop ∉ " ascii=".toList ∧ stop ∉ " outcome=".toList ∧
      stop ∉ " TX rssi=- snr=- len=".toList := by
    rcases mark with rfl | rfl <;> decide +kernel
  obtain ⟨received, snr, len, hex, ascii, outcome, sent⟩ := label
  cases entry with
  | rx utc first second data =>
      unfold Entry.fields
      simp only [List.mem_append, not_or]
      exact ⟨⟨⟨⟨⟨⟨received, first.not_mem_text digit point sign⟩, snr⟩,
        second.not_mem_text digit point sign⟩, len⟩, (digits_toDigits _).not_mem digit⟩,
        ⟨hex, shown data⟩, ascii⟩
  | tx utc result data =>
      unfold Entry.fields
      simp only [List.mem_append, not_or]
      exact ⟨⟨⟨⟨sent, (digits_toDigits _).not_mem digit⟩, outcome⟩,
        result.not_mem_text (Or.inr mark)⟩, ⟨hex, shown data⟩, ascii⟩

theorem quote_not_mem_ascii (data : Bytes) : '"' ∉ ascii data := by
  intro found
  obtain ⟨byte, _, same⟩ := List.mem_map.mp found
  split at same
  case isTrue shown =>
    have value := congrArg Char.toNat same
    rw [toNat_character] at value
    exact shown.2.2.1 value
  case isFalse => exact absurd same (by decide)

/-- The quotes stand behind the moment and the fields. -/
theorem Entry.quote_not_mem (entry : Entry) : '"' ∉ entry.utc.stamp ++ 'Z' :: entry.fields := by
  rw [List.mem_append, List.mem_cons, not_or, not_or]
  exact ⟨entry.utc.not_mem_stamp rfl (by decide), by decide, entry.not_mem_fields (Or.inl rfl)⟩

theorem Entry.count_quote (entry : Entry) : entry.text.count '"' = 2 := by
  rw [entry.text_eq, List.count_append, List.count_eq_zero_of_not_mem entry.quote_not_mem,
    List.count_cons_self, List.count_append,
    List.count_eq_zero_of_not_mem (quote_not_mem_ascii _)]
  rfl

/-- Nothing stands in front of a record on a line that is one. -/
theorem nothing_in_front {piece : List Char} {entry whole : Entry} (regular : entry.utc.Regular)
    (wholeRegular : whole.utc.Regular) (same : piece ++ entry.text = whole.text) : piece = [] := by
  have quotes := congrArg (List.count '"') same
  rw [List.count_append, entry.count_quote, whole.count_quote] at quotes
  have noQuote : '"' ∉ piece := List.count_eq_zero.mp (by omega)
  rw [entry.text_eq, whole.text_eq, ← List.append_assoc] at same
  obtain ⟨fronts, _⟩ := append_cons_inj
    (List.mem_append.not.mpr (not_or.mpr ⟨noQuote, entry.quote_not_mem⟩)) whole.quote_not_mem same
  -- the letter of the moment stands once in each front
  have letter (entry : Entry) : 'Z' ∉ entry.utc.stamp ∧ 'Z' ∉ entry.fields :=
    ⟨entry.utc.not_mem_stamp rfl (by decide), entry.not_mem_fields (Or.inr rfl)⟩
  have letters := congrArg (List.count 'Z') fronts
  simp only [List.count_append, List.count_cons_self,
    List.count_eq_zero_of_not_mem (letter _).1, List.count_eq_zero_of_not_mem (letter _).2] at letters
  have noLetter : 'Z' ∉ piece := List.count_eq_zero.mp (by omega)
  rw [← List.append_assoc] at fronts
  obtain ⟨stamps, _⟩ := append_cons_inj
    (List.mem_append.not.mpr (not_or.mpr ⟨noLetter, (letter entry).1⟩)) (letter whole).1 fronts
  have lengths := congrArg List.length stamps
  rw [List.length_append, Utc.stamp_length regular, Utc.stamp_length wholeRegular] at lengths
  exact List.eq_nil_of_length_eq_zero (by omega)

/-! ## Lines of a torn file -/

def Entry.record (entry : Entry) : Bytes := entry.line ++ [newline]

/-- What has been written when each record got as far as it did, and the file was emptied at
times. -/
inductive Torn : List Entry → Bytes → Prop where
  | emptied (logged : List Entry) : Torn logged []
  | written {logged : List Entry} {live done : Bytes} {entry : Entry} (torn : Torn logged live)
      (part : done <+: entry.record) : Torn (logged ++ [entry]) (live ++ done)

/-- The packets of the lines that are read as one. -/
def readFile (text : Bytes) : List Entry := (complete newline text).filterMap readLine

/-- A line that ends in a record is that record or no packet. -/
theorem readLine_behind {front : Bytes} {entry whole : Entry} (regular : entry.utc.Regular)
    (read : readLine (front ++ entry.line) = some whole) : whole = entry := by
  obtain ⟨same, wholeRegular⟩ := readLine_iff.mp read
  have texts := congrArg characters same
  rw [characters, List.map_append] at texts
  change characters front ++ characters (encode entry.text) = characters (encode whole.text) at texts
  rw [characters_encode entry.text_plain, characters_encode whole.text_plain] at texts
  have empty := List.map_eq_nil_iff.mp (nothing_in_front regular wholeRegular texts)
  rw [empty, List.nil_append, readLine_iff.mpr ⟨rfl, regular⟩] at read
  exact (Option.some_inj.mp read).symm

/-- What a part of a record adds to the lines. -/
theorem read_part {front done : Bytes} {entry : Entry} (none : newline ∉ front)
    (regular : entry.utc.Regular) (part : done <+: entry.record) :
    (readFile (front ++ done)).Sublist [entry] := by
  unfold readFile
  rcases List.prefix_concat_iff.mp part with rfl | short
  · have whole : newline ∉ front ++ entry.line :=
      List.mem_append.not.mpr (not_or.mpr ⟨none, entry.newline_not_mem⟩)
    rw [← List.append_assoc, LineBuffer.complete_line whole, LineBuffer.complete_of_not_mem
      List.not_mem_nil, List.filterMap_cons]
    cases read : readLine (front ++ entry.line) with
    | none => exact List.nil_sublist _
    | some whole =>
        rw [readLine_behind regular read]
        exact List.Sublist.refl _
  · have unfinished : newline ∉ front ++ done :=
      List.mem_append.not.mpr (not_or.mpr ⟨none, fun inside =>
        entry.newline_not_mem (short.subset inside)⟩)
    rw [LineBuffer.complete_of_not_mem unfinished]
    exact List.nil_sublist _

theorem Torn.read {logged : List Entry} {live : Bytes} (torn : Torn logged live)
    (regular : ∀ entry ∈ logged, entry.utc.Regular) : (readFile live).Sublist logged := by
  induction torn with
  | emptied logged => exact List.nil_sublist _
  | @written logged live done entry torn part ih =>
      have earlier := ih fun other found => regular other (List.mem_append_left _ found)
      have last := read_part (LineBuffer.separator_not_mem_pending live)
        (regular entry (List.mem_append_right _ (List.mem_singleton_self _))) part
      unfold readFile at *
      rw [LineBuffer.complete_append, List.filterMap_append]
      exact earlier.append last

/-- From whole records, all of them are read. -/
theorem readFile_records {logged : List Entry} (regular : ∀ entry ∈ logged, entry.utc.Regular) :
    readFile (logged.map Entry.record).flatten = logged := by
  induction logged with
  | nil => rfl
  | cons entry logged ih =>
      obtain ⟨first, rest⟩ := List.forall_mem_cons.mp regular
      unfold readFile at ih ⊢
      rw [List.map_cons, List.flatten_cons, Entry.record, List.append_assoc, List.singleton_append,
        LineBuffer.complete_line entry.newline_not_mem,
        List.filterMap_cons_some (readLine_iff.mpr ⟨rfl, first⟩), ih rest]

/-- No two entries have the same record. -/
theorem Entry.record_injective : Function.Injective Entry.record := by
  intro entry other same
  have lines := List.append_cancel_right same
  have texts := congrArg characters lines
  rw [Entry.line, Entry.line, characters_encode entry.text_plain,
    characters_encode other.text_plain] at texts
  have read := readFields_text entry
  rw [texts, readFields_text other] at read
  exact (Option.some_inj.mp read).symm

/-! ## Whole runs -/

/-- The records logged so far, with the part of each that is in the live file. -/
def Log.Torn (log : Log) : Prop :=
  ∃ logged, log.records = logged.map Entry.record ∧ RfLog.Torn logged log.live

/-- A record of which nothing has been written yet. -/
def Log.Before (log : Log) (raw : Bytes) : Prop :=
  ∃ logged entry, log.records = (logged ++ [entry]).map Entry.record ∧ raw = entry.record ∧
    RfLog.Torn logged log.live

/-- A record of which `left` has not been written. -/
def Log.Amid (log : Log) (raw left : Bytes) : Prop :=
  ∃ logged entry before done, log.records = (logged ++ [entry]).map Entry.record ∧
    raw = entry.record ∧ raw = done ++ left ∧ log.live = before ++ done ∧ RfLog.Torn logged before

/-- What holds at each point. -/
def Point.Torn (log : Log) : Point → Prop
  | .measuring raw | .opening raw | .copying raw _ | .storing raw _ _ | .finishing raw
  | .abandoning raw | .truncating raw => log.Before raw
  | .writing raw left => log.Amid raw left
  | .returned => log.Torn

variable {log after : Log} {raw left : Bytes}

theorem Log.Before.congr (before : log.Before raw) (live : after.live = log.live)
    (records : after.records = log.records) : after.Before raw := by
  unfold Log.Before
  rwa [live, records]

theorem Log.Before.amid (before : log.Before raw) : log.Amid raw raw := by
  obtain ⟨logged, entry, records, rfl, torn⟩ := before
  exact ⟨logged, entry, log.live, [], records, rfl, rfl, (List.append_nil _).symm, torn⟩

/-- The record has got as far as it will. -/
theorem Log.Amid.torn (amid : log.Amid raw left) : log.Torn := by
  obtain ⟨logged, entry, before, done, records, rfl, split, live, torn⟩ := amid
  refine ⟨logged ++ [entry], records, ?_⟩
  rw [live]
  exact torn.written ⟨left, split.symm⟩

theorem Log.Before.torn (before : log.Before raw) : log.Torn := before.amid.torn

theorem Log.Amid.more (amid : log.Amid raw left) (count : ℕ) :
    Log.Amid { log with live := log.live ++ left.take count } raw (left.drop count) := by
  obtain ⟨logged, entry, before, done, records, whole, split, live, torn⟩ := amid
  refine ⟨logged, entry, before, done ++ left.take count, records, whole, ?_, ?_, torn⟩
  · rw [List.append_assoc, List.take_append_drop]
    exact split
  · dsimp only
    rw [live, List.append_assoc]

/-- One call keeps the live file torn from the records, whatever it is answered. -/
theorem Point.Torn.io {maxBytes : ℤ} {point next : Point} {call : Call} {reply : call.Reply}
    (torn : point.Torn log) (taken : point.Io maxBytes log call reply next after) :
    next.Torn after := by
  cases taken.moves with
  | tooLong | read | atEnd | unread => exact torn
  | fits | unopened | untruncated => exact Log.Before.amid torn
  | unmeasured => exact Log.Before.torn torn
  | opened | stored | unstored | finished => exact Log.Before.congr torn rfl rfl
  | unfinished | abandoned => exact (Log.Before.congr torn rfl rfl).amid
  | truncated =>
      obtain ⟨logged, entry, records, rfl, _⟩ := torn
      exact ⟨logged, entry, [], [], records, rfl, rfl, rfl, .emptied logged⟩
  | wrote => exact Log.Amid.more torn _
  | interrupted => exact torn
  | unwritten => exact Log.Amid.torn torn

theorem Point.Torn.file {point : Point} (torn : point.Torn log) : log.Torn := by
  cases point with
  | writing raw left => exact Log.Amid.torn torn
  | returned => exact torn
  | _ => exact Log.Before.torn torn

/-- Records written one behind the other. -/
theorem torn_flatten (logged : List Entry) :
    RfLog.Torn logged (logged.map Entry.record).flatten := by
  induction logged using List.reverseRecOn with
  | nil => exact .emptied []
  | append_singleton logged entry ih =>
      rw [List.map_append, List.flatten_append, List.map_singleton, List.flatten_singleton]
      exact ih.written (List.prefix_refl _)

theorem World.Opened.torn {world : World} (opened : world.Opened) : world.log.Torn := by
  have entries : world.log.records ∈ Set.range (List.map Entry.record) := by
    rw [Set.range_list_map]
    intro record found
    obtain ⟨request, utc, rfl⟩ := opened.lines record found
    exact ⟨request.entry utc, (request.record_eq utc).symm⟩
  obtain ⟨logged, records⟩ := entries
  refine ⟨logged, records.symm, ?_⟩
  rw [opened.live, ← records]
  exact torn_flatten logged

/-- Whatever calls fail or fall short: the packets read from the live file are packets that
were logged, each once and in their order; and where it holds whole records, all of these are
read. -/
theorem read_packets_were_logged {maxBytes : ℤ} {world : World} {trace : List Label}
    (run : (rfLog maxBytes).Run world trace)
    (clock : ∀ entry : Entry, entry.record ∈ world.log.records → entry.utc.Regular) :
    ∃ logged : List Entry, world.log.records = logged.map Entry.record ∧
      (readFile world.log.live).Sublist logged ∧
      ∀ kept, kept.Sublist logged → world.log.live = (kept.map Entry.record).flatten →
        readFile world.log.live = kept := by
  have unrestricted : ((rfLog maxBytes).restrict (permitted fun _ _ _ _ => True)).Run world
      trace := run.restrict_of_labels fun label _ state after => by
    cases label <;> simp [permitted]
  have guarded : Guarded Log.Torn (fun point log => point.Torn log) world := by
    refine guarded_of_run unrestricted (fun _ => id) ?_ ?_ ?_ ?_
    · exact fun _ opened => opened.torn
    · rintro log request utc ⟨logged, records, torn⟩
      refine ⟨logged, request.entry utc, ?_, request.record_eq utc, torn⟩
      rw [List.map_append, ← records, List.map_singleton, Entry.record, ← request.record_eq]
    · exact fun _ _ _ _ _ _ torn _ taken => torn.io taken
    · exact fun _ _ torn _ => torn.file
  obtain ⟨logged, records, torn⟩ := guarded.always (fun _ torn => torn) fun _ _ torn => torn.file
  have regular : ∀ entry ∈ logged, entry.utc.Regular := fun entry found =>
    clock entry (records ▸ List.mem_map_of_mem found)
  refine ⟨logged, records, torn.read regular, fun kept part live => ?_⟩
  rw [live]
  exact readFile_records fun entry found => regular entry (part.subset found)

/-- Of a record, five bytes of a second and a third behind them the first is read. -/
theorem torn_line_is_not_read :
    ∃ world : World, world.log.records.length = 3 ∧
      readFile world.log.live = [sent.entry epoch] ∧
      ∃ logged : List Entry, world.log.records = logged.map Entry.record ∧
        (readFile world.log.live).Sublist logged := by
  have start : ((rfLog 1000).restrict (permitted fun _ _ _ _ => True)).Run World.fresh [] :=
    .start World.fresh_opened
  obtain ⟨trace, run⟩ := run_call start 0 sent epoch rfl rfl
    (Path.written (by simp [World.fresh, sent_length]) sent_some trivial trivial) rfl
  obtain ⟨trace, run⟩ := run_call run 0 sent epoch rfl rfl
    (Path.cut 5 (by simp [World.fresh, sent_length]) (by rw [sent_length]; decide)) rfl
  obtain ⟨trace, run⟩ := run_call run 0 sent epoch rfl rfl
    (Path.written (by simp [World.fresh, sent_length]) sent_some trivial trivial) rfl
  have clock : ∀ entry : Entry,
      entry.record ∈ [sent.record epoch, sent.record epoch, sent.record epoch] →
      entry.utc.Regular := by
    intro entry found
    have same : entry.record = (sent.entry epoch).record := by
      have whole : entry.record = sent.record epoch := by simpa using found
      rw [whole, sent.record_eq]
      rfl
    rw [Entry.record_injective same]
    decide
  obtain ⟨logged, records, read, _⟩ := read_packets_were_logged run.of_restrict clock
  exact ⟨_, rfl, by decide +kernel, logged, records, read⟩

end LorahamRns.RfLog
