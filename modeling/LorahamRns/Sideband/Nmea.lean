import LorahamRns.Duty.Ledger
import LorahamRns.Lib.PyFloat
import LorahamRns.Node.Exposure

/-!
# A session with an NMEA receiver

`NmeaSource.read_once` takes one line after the other.  A sentence whose checksum is wrong is
skipped, and so is one that `int` or an index raises on with `ValueError` or `IndexError`; a
coordinate that reads as infinite raises `OverflowError` and ends the session.
-/

namespace LorahamRns.Sideband

open LorahamRns.Lib
open LorahamRns.Node (isSpace strip)

namespace Nmea

/-! ## The checksum -/

/-- The exclusive or of all characters. -/
def parity (body : List Char) : ℕ := body.foldl (fun check ch => check ^^^ ch.toNat) 0

/-- `rpartition` without the separator. -/
def rpartition (separator : Char) (text : List Char) : List Char × List Char :=
  (((text.reverse.dropWhile (· ≠ separator)).tail).reverse,
    (text.reverse.takeWhile (· ≠ separator)).reverse)

/-- `int(given, 16)` of at most two characters; `none` where it raises. -/
def hexInt (given : List Char) : Option ℤ :=
  let (negative, digits) := Json.scanSign (strip isSpace given)
  if digits = [] then none
  else (digits.mapM Json.hexValue).map fun values =>
    Decimal.Numeral.signed negative (values.foldl (fun number digit => number * 16 + digit) 0)

/-- `_nmea_checksum_ok`. -/
def checksumOk (line : List Char) : Bool :=
  let line := strip isSpace line
  if line.head? ≠ some '$' ∨ '*' ∉ line then false
  else
    let (body, given) := rpartition '*' line.tail
    let given := (strip isSpace given).take 2
    if given.length ≠ 2 then false
    else match hexInt given with
      | some number => (parity body : ℤ) = number
      | none => false

/-! ## A sentence -/

/-- What is raised from within a sentence. -/
inductive Raised where
  | value
  | overflow
  deriving DecidableEq

/-- `Fix` as a sentence gives it: degrees, and what else stands in it. -/
structure Position where
  lat : ℚ
  lon : ℚ
  alt : Option PyFloat
  speed : Option PyFloat
  bearing : Option PyFloat

/-- `int` of a float cuts the fraction off. -/
def truncate (value : ℚ) : ℤ := value.num.tdiv value.den

/-- `_dm_to_deg`. -/
def dmToDeg (value hemi : List Char) : Except Raised (Option ℚ) :=
  match Duty.floatOfText value with
  | none => .ok none
  | some .nan => .error .value
  | some (.infinity _) => .error .overflow
  | some (.finite raw _) =>
      let degrees := truncate (raw.val / 100)
      let deg := degrees + (raw.val - degrees * 100) / 60
      .ok (some (if hemi = ['S'] ∨ hemi = ['W'] then -deg else deg))

/-- `_valid_position`, and the fix of one. -/
def located (lat lon : Option ℚ) (alt speed bearing : Option PyFloat) : Option Position :=
  match lat, lon with
  | some lat, some lon =>
      if -90 ≤ lat ∧ lat ≤ 90 ∧ -180 ≤ lon ∧ lon ≤ 180 then some ⟨lat, lon, alt, speed, bearing⟩
      else none
  | _, _ => none

/-- Kilometres per hour in a knot. -/
def knot : Decimal := .ofScaled 1852 (-3)

/-- The fields of a sentence, from the talker and type on.  No field is looked at beyond the
length that has been checked. -/
def readParts (parts : List (List Char)) : Except Raised (Option Position) :=
  let part := fun place => parts.getD place []
  let kind := (part 0).drop ((part 0).length - 3)
  if kind ≠ "GGA".toList ∧ kind ≠ "RMC".toList then .ok none
  else if kind = "GGA".toList ∧ 9 < parts.length then
    if part 6 = [] ∨ part 6 = ['0'] then .ok none
    else do
      let lat ← dmToDeg (part 2) (part 3)
      let lon ← dmToDeg (part 4) (part 5)
      .ok (located lat lon (Duty.floatOfText (part 9)) none none)
  else if 8 < parts.length ∧ part 2 = ['A'] then do
    let lat ← dmToDeg (part 3) (part 4)
    let lon ← dmToDeg (part 5) (part 6)
    .ok (located lat lon none ((Duty.floatOfText (part 7)).map (PyFloat.scale knot))
      (Duty.floatOfText (part 8)))
  else .ok none

/-- The body of the loop; `ValueError` is caught, `OverflowError` is not. -/
def readSentence (line : List Char) : Except Raised (Option Position) :=
  if !checksumOk line then .ok none
  else match readParts ((strip isSpace line).splitOn ',') with
    | .error .value => .ok none
    | result => result

/-! ## The session -/

/-- The fixes stored, oldest first, and whether an exception has ended the session. -/
structure Session where
  fixes : List Position
  raised : Bool

def readLines : List (List Char) → List Position → Session
  | [], fixes => ⟨fixes, false⟩
  | line :: lines, fixes =>
      match readSentence line with
      | .error _ => ⟨fixes, true⟩
      | .ok none => readLines lines fixes
      | .ok (some position) => readLines lines (fixes ++ [position])

/-- `read_once` on what `readline` returns, up to where the session is stopped.  An empty
line, of a file at its end, is skipped like every line without a checksum. -/
def readOnce (lines : List (List Char)) : Session := readLines lines []

/-- The fix of a sentence on its own. -/
def sentenceFix (line : List Char) : Option Position :=
  match readSentence line with
  | .ok fix => fix
  | .error _ => none

/-- A position on the planet. -/
def Position.OnEarth (position : Position) : Prop :=
  -90 ≤ position.lat ∧ position.lat ≤ 90 ∧ -180 ≤ position.lon ∧ position.lon ≤ 180

theorem located_onEarth {lat lon : Option ℚ} {alt speed bearing : Option PyFloat}
    {position : Position} (found : located lat lon alt speed bearing = some position) :
    position.OnEarth := by
  unfold located at found
  split at found
  · split at found
    case isTrue inRange =>
      obtain rfl := Option.some_inj.mp found
      exact inRange
    case isFalse => cases found
  · cases found

/-- What the two coordinates give, if they raise nothing. -/
theorem bind_located {lat lon : Except Raised (Option ℚ)} {alt speed bearing : Option PyFloat}
    {position : Position}
    (found : (do .ok (located (← lat) (← lon) alt speed bearing)) =
      Except.ok (ε := Raised) (some position)) : position.OnEarth := by
  cases lat with
  | error reason => cases found
  | ok lat =>
      cases lon with
      | error reason => cases found
      | ok lon => exact located_onEarth (Except.ok.inj found)

theorem readParts_onEarth {parts : List (List Char)} {position : Position}
    (found : readParts parts = .ok (some position)) : position.OnEarth := by
  unfold readParts at found
  dsimp only at found
  split at found
  · cases found
  split at found
  · split at found
    · cases found
    · exact bind_located found
  split at found
  · exact bind_located found
  · cases found

/-- Every fix is of a sentence with the right checksum, and on the planet. -/
theorem sentenceFix_some {line : List Char} {position : Position}
    (found : sentenceFix line = some position) : checksumOk line = true ∧ position.OnEarth := by
  unfold sentenceFix readSentence at found
  by_cases ok : checksumOk line = true
  · refine ⟨ok, ?_⟩
    rw [ok, Bool.not_true, if_neg Bool.false_ne_true] at found
    cases read : readParts ((strip isSpace line).splitOn ',') with
    | error reason =>
        rw [read] at found
        cases reason <;> cases found
    | ok fix =>
        rw [read] at found
        exact readParts_onEarth (read.trans (congrArg _ found))
  · rw [Bool.not_eq_true] at ok
    rw [ok] at found
    cases found

/-! ## Noise on the line -/

theorem parity_append (front back : List Char) :
    parity (front ++ back) = parity front ^^^ parity back := by
  have start (body : List Char) (check : ℕ) :
      body.foldl (fun check ch => check ^^^ ch.toNat) check = check ^^^ parity body := by
    induction body generalizing check with
    | nil => exact (Nat.xor_zero check).symm
    | cons ch body ih =>
        unfold parity
        rw [List.foldl_cons, List.foldl_cons, ih, ih (0 ^^^ ch.toNat), Nat.zero_xor,
          Nat.xor_assoc]
  rw [parity, List.foldl_append, start back]
  rfl

/-- One character of another code gives another parity. -/
theorem parity_injective {front back : List Char} {old new : Char}
    (same : parity (front ++ new :: back) = parity (front ++ old :: back)) : new = old := by
  have single (ch : Char) : parity (ch :: back) = ch.toNat ^^^ parity back := by
    rw [← List.singleton_append, parity_append]
    change (0 ^^^ ch.toNat) ^^^ parity back = _
    rw [Nat.zero_xor]
  rw [parity_append, parity_append, single, single] at same
  exact Char.toNat_inj.mp (Nat.xor_left_injective (Nat.xor_right_injective same))

theorem rdropWhile_stop {drops : Char → Bool} {stop : Char} (stays : drops stop = false)
    (front back : List Char) :
    (front ++ stop :: back).rdropWhile drops = front ++ stop :: back.rdropWhile drops := by
  unfold List.rdropWhile
  rw [List.reverse_append, List.reverse_cons, List.append_assoc, List.dropWhile_append]
  split
  case isTrue all =>
    rw [List.isEmpty_iff.mp all, List.singleton_append,
      List.dropWhile_cons_of_neg (by rw [stays]; exact Bool.false_ne_true), List.reverse_cons,
      List.reverse_reverse]
    rfl
  case isFalse =>
    rw [List.reverse_append, List.reverse_append, List.reverse_reverse, List.reverse_singleton,
      List.append_assoc, List.singleton_append]

/-- Blanks in front of a sentence and behind it are stripped, whatever stands in its body. -/
theorem strip_sentence {lead : List Char} (blank : ∀ ch ∈ lead, isSpace ch = true)
    (body given : List Char) : strip isSpace (lead ++ '$' :: (body ++ '*' :: given)) =
      '$' :: (body ++ '*' :: given.rdropWhile isSpace) := by
  rw [strip, List.dropWhile_append_of_pos blank, List.dropWhile_cons_of_neg (by decide),
    ← List.cons_append, rdropWhile_stop (by decide), List.cons_append]

/-- The last separator divides a text. -/
theorem rpartition_last {separator : Char} {given : List Char} (last : separator ∉ given)
    (body : List Char) : rpartition separator (body ++ separator :: given) = (body, given) := by
  have other : ∀ ch ∈ given.reverse, decide (ch ≠ separator) = true := fun ch found =>
    decide_eq_true fun same => last (same ▸ List.mem_reverse.mp found)
  unfold rpartition
  rw [List.reverse_append, List.reverse_cons, List.append_assoc, List.singleton_append,
    List.dropWhile_append_of_pos other, List.takeWhile_append_of_pos other,
    List.dropWhile_cons_of_neg (by simp), List.takeWhile_cons_of_neg (by simp), List.append_nil,
    List.reverse_reverse, List.tail_cons, List.reverse_reverse]

/-- The number behind the star. -/
def givenNumber (given : List Char) : Option ℤ :=
  let given := (strip isSpace (given.rdropWhile isSpace)).take 2
  if given.length ≠ 2 then none else hexInt given

/-- The checksum is right exactly if the number behind the star is the parity of the body. -/
theorem checksumOk_iff {lead body given : List Char} (blank : ∀ ch ∈ lead, isSpace ch = true)
    (last : '*' ∉ given) : checksumOk (lead ++ '$' :: (body ++ '*' :: given)) = true ↔
      givenNumber given = some (parity body : ℤ) := by
  have star : '*' ∉ given.rdropWhile isSpace := fun found =>
    last ((List.rdropWhile_prefix _ _).subset found)
  have starts : ('$' :: (body ++ '*' :: given.rdropWhile isSpace)).head? = some '$' := rfl
  have inside : '*' ∈ '$' :: (body ++ '*' :: given.rdropWhile isSpace) := by simp
  unfold checksumOk givenNumber
  dsimp only
  rw [strip_sentence blank, List.tail_cons, rpartition_last star,
    if_neg (not_or.mpr ⟨not_not.mpr starts, not_not.mpr inside⟩)]
  dsimp only
  split
  · simp
  · cases hexInt ((strip isSpace (given.rdropWhile isSpace)).take 2) with
    | none => simp
    | some number => simp [eq_comm]

/-- A character of the body has become another one, and the line is still one. -/
structure Damaged (line received : List Char) : Prop where
  place : ∃ lead front back given old new, (∀ ch ∈ lead, isSpace ch = true) ∧ '*' ∉ given ∧
    new ≠ old ∧ line = lead ++ '$' :: ((front ++ old :: back) ++ '*' :: given) ∧
    received = lead ++ '$' :: ((front ++ new :: back) ++ '*' :: given)

/-- Such a sentence is refused. -/
theorem Damaged.refused {line received : List Char} (damaged : Damaged line received)
    (ok : checksumOk line = true) : checksumOk received = false := by
  obtain ⟨lead, front, back, given, old, new, blank, last, other, rfl, rfl⟩ := damaged.place
  rw [checksumOk_iff blank last] at ok
  rw [← Bool.not_eq_true, checksumOk_iff blank last, ok]
  intro same
  exact other (parity_injective (Int.ofNat_inj.mp (Option.some_inj.mp same)).symm)

/-- What may become of a sentence with the right checksum: nothing, or one wrong character in
its body. -/
def Noise (line received : List Char) : Prop :=
  received = line ∨ checksumOk line = true ∧ Damaged line received

/-- The sentences that have come through as they were sent. -/
def undamaged (sent received : List (List Char)) : List (List Char) :=
  ((sent.zip received).filter fun pair => pair.1 = pair.2).map Prod.fst

theorem undamaged_sublist (sent received : List (List Char)) :
    (undamaged sent received).Sublist sent := by
  refine (List.filter_sublist.map Prod.fst).trans ?_
  induction sent generalizing received with
  | nil => exact List.nil_sublist _
  | cons line sent ih =>
      cases received with
      | nil => exact List.nil_sublist _
      | cons other received => exact (ih received).cons_cons line

theorem readLines_refused {line : List Char} (bad : checksumOk line = false)
    (lines : List (List Char)) (fixes : List Position) :
    readLines (line :: lines) fixes = readLines lines fixes := by
  have nothing : readSentence line = .ok none := by
    unfold readSentence
    rw [bad]
    rfl
  rw [readLines, nothing]

/-- A damaged sentence is as if it had not been sent. -/
theorem readLines_noise {sent received : List (List Char)}
    (noise : List.Forall₂ Noise sent received) (fixes : List Position) :
    readLines received fixes = readLines (undamaged sent received) fixes := by
  induction noise generalizing fixes with
  | nil => rfl
  | @cons line other sent received first rest ih =>
      by_cases same : line = other
      · subst same
        have kept : undamaged (line :: sent) (line :: received) =
            line :: undamaged sent received := by
          simp [undamaged]
        rw [kept, readLines, readLines]
        cases readSentence line with
        | error reason => rfl
        | ok fix =>
            cases fix with
            | none => exact ih fixes
            | some position => exact ih _
      · have dropped : undamaged (line :: sent) (other :: received) = undamaged sent received := by
          simp [undamaged, same]
        obtain ⟨ok, damaged⟩ := first.resolve_left (Ne.symm same)
        rw [dropped, readLines_refused (damaged.refused ok), ih]

/-- A session stores fixes of its sentences, in order. -/
theorem readLines_fixes (lines : List (List Char)) (fixes : List Position) :
    ∃ stored, (readLines lines fixes).fixes = fixes ++ stored ∧
      stored.Sublist (lines.filterMap sentenceFix) := by
  induction lines generalizing fixes with
  | nil => exact ⟨[], (List.append_nil _).symm, List.nil_sublist _⟩
  | cons line lines ih =>
      rw [readLines]
      cases read : readSentence line with
      | error reason => exact ⟨[], (List.append_nil _).symm, List.nil_sublist _⟩
      | ok fix =>
          have own : sentenceFix line = fix := by rw [sentenceFix, read]
          cases fix with
          | none =>
              rw [List.filterMap_cons_none own]
              exact ih fixes
          | some position =>
              rw [List.filterMap_cons_some own]
              obtain ⟨stored, same, part⟩ := ih (fixes ++ [position])
              refine ⟨position :: stored, ?_, part.cons_cons position⟩
              rw [List.append_cons]
              exact same

/-- Noise on the line only loses fixes: a session in which any number of sentences have each
had one character of their body replaced is the session of the others, and stores a
subsequence of what was sent, all of it on the planet. -/
theorem noise_only_loses_fixes {sent received : List (List Char)}
    (noise : List.Forall₂ Noise sent received) :
    readOnce received = readOnce (undamaged sent received) ∧
      (readOnce received).fixes.Sublist (sent.filterMap sentenceFix) ∧
      ∀ position ∈ (readOnce received).fixes, position.OnEarth := by
  have same := readLines_noise noise []
  obtain ⟨stored, fixes, part⟩ := readLines_fixes (undamaged sent received) []
  rw [List.nil_append] at fixes
  have subsequence : (readOnce received).fixes.Sublist (sent.filterMap sentenceFix) := by
    rw [readOnce, same, fixes]
    exact part.trans ((undamaged_sublist sent received).filterMap sentenceFix)
  refine ⟨same, subsequence, fun position found => ?_⟩
  obtain ⟨line, _, own⟩ := List.mem_filterMap.mp (subsequence.subset found)
  exact (sentenceFix_some own).2

def ggaLine : List Char :=
  "$GPGGA,123519,4807.038,N,01131.000,E,1,08,0.9,545.4,M,46.9,M,,*47\r\n".toList

/-- A degree of latitude more. -/
def movedLine : List Char :=
  "$GPGGA,123519,4907.038,N,01131.000,E,1,08,0.9,545.4,M,46.9,M,,*47\r\n".toList

theorem moved_damaged : Damaged ggaLine movedLine :=
  ⟨[], "GPGGA,123519,4".toList, "07.038,N,01131.000,E,1,08,0.9,545.4,M,46.9,M,,".toList,
    "47\r\n".toList, '8', '9', nofun, by decide +kernel, by decide, by decide +kernel,
    by decide +kernel⟩

/-- Of two sentences the second comes through with another latitude and is not stored. -/
theorem moved_position_is_not_stored :
    (readOnce [ggaLine, movedLine]).fixes.length = 1 ∧
      (readOnce [ggaLine, movedLine]).fixes.Sublist
        ([ggaLine, ggaLine].filterMap sentenceFix) := by
  have noise : List.Forall₂ Noise [ggaLine, ggaLine] [ggaLine, movedLine] :=
    .cons (Or.inl rfl) (.cons (Or.inr ⟨by decide +kernel, moved_damaged⟩) .nil)
  exact ⟨by decide +kernel, (noise_only_loses_fixes noise).2.1⟩

end Nmea

end LorahamRns.Sideband
