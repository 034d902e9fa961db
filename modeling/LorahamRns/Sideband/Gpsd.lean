import LorahamRns.Duty.Ledger
import LorahamRns.Lib.Encoding
import LorahamRns.Lib.LineBuffer
import LorahamRns.Lib.PyFloat

/-!
# A session with gpsd

`GpsdSource.read_once` buffers what arrives and takes one JSON line after the other.  A
line that is no JSON is skipped; what a line raises otherwise ends the session, with
whatever stands behind it.
-/

namespace LorahamRns.Sideband

open LorahamRns.Lib
open LorahamRns.Lib.LineBuffer (complete pending)

namespace Gpsd

/-- What ends a session from within a line: `get` on a value that is no object, an integer
that no float holds, a document nested too deep. -/
inductive Raised where
  | attribute
  | overflow
  | recursion
  deriving DecidableEq

/-- `Fix`, without its time. -/
structure Position where
  lat : PyFloat
  lon : PyFloat
  alt : Option PyFloat
  speed : Option PyFloat
  bearing : Option PyFloat
  accuracy : Option PyFloat

structure Fix where
  position : Position
  time : ℚ

/-! ## One line -/

/-- `_f`: an `OverflowError` goes out. -/
def f : Option Json → Except Raised (Option PyFloat)
  | none => .ok none
  | some value =>
      match Duty.pyFloat value with
      | .value float => .ok (some float)
      | .refused => .ok none
      | .overflow => .error .overflow

/-- `_valid_position`. -/
def validPosition (lat lon : Option PyFloat) : Bool :=
  match lat.bind PyFloat.finite?, lon.bind PyFloat.finite? with
  | some lat, some lon => -90 ≤ lat && lat ≤ 90 && -180 ≤ lon && lon ≤ 180
  | _, _ => false

def isTpv (fields : List (List Char × Json)) : Bool :=
  match Json.get? fields "class".toList with
  | some (.str name) => name = "TPV".toList
  | _ => false

/-- Kilometres per hour in a metre per second. -/
def kmh : Decimal := .ofScaled 36 (-1)

/-- What is read from an object; nothing unless it is a `TPV` with a valid position. -/
def readObject (fields : List (List Char × Json)) : Except Raised (Option Position) :=
  if !isTpv fields then .ok none
  else do
    let lat ← f (Json.get? fields "lat".toList)
    let lon ← f (Json.get? fields "lon".toList)
    match lat, lon with
    | some latitude, some longitude =>
        if !validPosition lat lon then pure none
        else
          let spd ← f (Json.get? fields "speed".toList)
          let alt ← f (Json.get? fields "alt".toList)
          let track ← f (Json.get? fields "track".toList)
          let eph ← f (Json.get? fields "eph".toList)
          pure (some ⟨latitude, longitude, alt, spd.map (PyFloat.scale kmh), track, eph⟩)
    | _, _ => pure none

/-- The text of a line. -/
def lineText (line : List UInt8) : List Char := Json.decodeReplace line.length line

/-- `json.loads`, `none` where it raises `ValueError`. -/
def loads (text : List Char) : Option Json := (Json.loads text).filter Json.digitsFit

/-- The body of the inner loop.  `tooDeep` tells on which texts the decoder runs out of
stack. -/
def readLine (tooDeep : List Char → Bool) (line : List UInt8) :
    Except Raised (Option Position) :=
  if tooDeep (lineText line) then .error .recursion
  else match loads (lineText line) with
    | none => .ok none
    | some (.obj fields) => readObject fields
    | some _ => .error .attribute

/-! ## The session -/

def newline : UInt8 := 10

/-- How a session stands: what is in the buffer, or how it ended. -/
inductive Standing where
  | receiving (buf : List UInt8)
  | closed
  | raised (reason : Raised)

/-- The fixes stored, oldest first. -/
structure Session where
  fixes : List Fix
  standing : Standing

section

variable (clock : ℕ → ℚ) (tooDeep : List Char → Bool)

/-- The inner loop; every line takes a byte at least. -/
def drain : ℕ → List UInt8 → List Fix → Session
  | 0, buf, fixes => ⟨fixes, .receiving buf⟩
  | fuel + 1, buf, fixes =>
      if newline ∉ buf then ⟨fixes, .receiving buf⟩
      else
        let line := buf.takeWhile (· ≠ newline)
        let rest := (buf.dropWhile (· ≠ newline)).tail
        match readLine tooDeep line with
        | .error reason => ⟨fixes, .raised reason⟩
        | .ok none => drain fuel rest fixes
        | .ok (some position) => drain fuel rest (fixes ++ [⟨position, clock fixes.length⟩])

/-- The outer loop over what `recv` returns, up to where the session is stopped or times
out; nothing returned means the other end has closed. -/
def receive : List (List UInt8) → List UInt8 → List Fix → Session
  | [], buf, fixes => ⟨fixes, .receiving buf⟩
  | chunk :: chunks, buf, fixes =>
      if chunk = [] then ⟨fixes, .closed⟩
      else
        match drain clock tooDeep (buf ++ chunk).length (buf ++ chunk) fixes with
        | ⟨fixes, .receiving buf⟩ => receive chunks buf fixes
        | session => session

/-- `read_once` behind the request.  `clock` gives the time of each stored fix. -/
def readOnce (chunks : List (List UInt8)) : Session := receive clock tooDeep chunks [] []

end

/-! ## Line by line -/

/-- A number, where `float` gives one. -/
def number (value : Option Json) : Option PyFloat :=
  value.bind fun value =>
    match Duty.pyFloat value with
    | .value float => some float
    | _ => none

/-- The fix of an object: a `TPV` with an in-range position has one. -/
def objectFix (fields : List (List Char × Json)) : Option Position :=
  let field := fun key : String => number (Json.get? fields key.toList)
  match field "lat", field "lon" with
  | some lat, some lon =>
      if isTpv fields && validPosition (some lat) (some lon) then
        some ⟨lat, lon, field "alt", (field "speed").map (PyFloat.scale kmh), field "track",
          field "eph"⟩
      else none
  | _, _ => none

/-- The fix of a line on its own; every other line has none. -/
def lineFix (line : List UInt8) : Option Position :=
  match loads (lineText line) with
  | some (.obj fields) => objectFix fields
  | _ => none

/-- The fixes with their times. -/
def stamped (clock : ℕ → ℚ) (positions : List Position) : List Fix :=
  positions.mapIdx fun place position => ⟨position, clock place⟩

/-- What a stream stores, line by line. -/
def expected (clock : ℕ → ℚ) (stream : List UInt8) : List Fix :=
  stamped clock ((complete newline stream).filterMap lineFix)

/-- The stream of a session. -/
def received (chunks : List (List UInt8)) : List UInt8 := (chunks.takeWhile (· ≠ [])).flatten

/-- The field holds an integer that no float holds. -/
def Overflows (fields : List (List Char × Json)) (key : String) : Prop :=
  f (Json.get? fields key.toList) = .error .overflow

/-- A `TPV` with such an integer among the fields that are read. -/
def ObjectEndsSession (fields : List (List Char × Json)) : Prop :=
  isTpv fields = true ∧
    (Overflows fields "lat" ∨ Overflows fields "lon" ∨
      validPosition (number (Json.get? fields "lat".toList))
          (number (Json.get? fields "lon".toList)) = true ∧
        (Overflows fields "speed" ∨ Overflows fields "alt" ∨ Overflows fields "track" ∨
          Overflows fields "eph"))

/-- The lines that end a session: nested too deep, a JSON value that is no object, or an
object of the kind above. -/
def EndsSession (tooDeep : List Char → Bool) (line : List UInt8) : Prop :=
  tooDeep (lineText line) = true ∨
    ∃ value, loads (lineText line) = some value ∧
      match value with
      | .obj fields => ObjectEndsSession fields
      | _ => True

theorem f_of_overflows {fields : List (List Char × Json)} {key : String}
    (overflows : Overflows fields key) : f (Json.get? fields key.toList) = .error .overflow :=
  overflows

theorem f_of_not_overflows {fields : List (List Char × Json)} {key : String}
    (fits : ¬ Overflows fields key) :
    f (Json.get? fields key.toList) = .ok (number (Json.get? fields key.toList)) := by
  unfold Overflows at fits
  generalize Json.get? fields key.toList = value at fits ⊢
  cases value with
  | none => rfl
  | some value =>
      unfold f number at *
      dsimp only [Option.bind_some] at *
      generalize Duty.pyFloat value = converted at fits ⊢
      cases converted with
      | value float => rfl
      | refused => rfl
      | overflow => exact absurd rfl fits

theorem validPosition_some {lat lon : Option PyFloat} (valid : validPosition lat lon = true) :
    ∃ latitude longitude, lat = some latitude ∧ lon = some longitude := by
  cases lat with
  | none => cases valid
  | some latitude =>
      cases lon with
      | none =>
          unfold validPosition at valid
          split at valid
          · next found => cases found
          · cases valid
      | some longitude => exact ⟨latitude, longitude, rfl, rfl⟩

/-- A number that cannot be computed is no position. -/
theorem number_of_overflows {fields : List (List Char × Json)} {key : String}
    (overflows : Overflows fields key) : number (Json.get? fields key.toList) = none := by
  unfold Overflows at overflows
  generalize Json.get? fields key.toList = value at overflows ⊢
  cases value with
  | none => rfl
  | some value =>
      unfold f number at *
      dsimp only [Option.bind_some] at *
      generalize Duty.pyFloat value = converted at overflows ⊢
      cases converted with
      | value float => cases overflows
      | refused => rfl
      | overflow => rfl

/-- An object that does not end the session gives the fix it has on its own. -/
theorem readObject_ok {fields : List (List Char × Json)} (ongoing : ¬ ObjectEndsSession fields) :
    readObject fields = .ok (objectFix fields) := by
  unfold readObject objectFix
  by_cases tpv : isTpv fields = true
  case neg =>
    rw [if_pos (by simp [tpv])]
    dsimp only
    split
    · rw [if_neg (by simp [tpv])]
    · rfl
  have noLat : ¬ Overflows fields "lat" := fun beyond => ongoing ⟨tpv, Or.inl beyond⟩
  have noLon : ¬ Overflows fields "lon" := fun beyond => ongoing ⟨tpv, Or.inr (Or.inl beyond)⟩
  rw [if_neg (by simp [tpv]), f_of_not_overflows noLat, f_of_not_overflows noLon]
  dsimp only [bind, Except.bind]
  split
  · next latitude longitude foundLat foundLon =>
      rw [foundLat, foundLon]
      by_cases valid : validPosition (some latitude) (some longitude) = true
      · have position : validPosition (number (Json.get? fields "lat".toList))
            (number (Json.get? fields "lon".toList)) = true := by
          rw [foundLat, foundLon, valid]
        have rest (key : String) (beyond : Overflows fields key)
            (among : Overflows fields key → Overflows fields "speed" ∨ Overflows fields "alt" ∨
              Overflows fields "track" ∨ Overflows fields "eph") : False :=
          ongoing ⟨tpv, Or.inr (Or.inr ⟨position, among beyond⟩)⟩
        rw [if_neg (by simp [valid]), if_pos (by simp [tpv, valid]),
          f_of_not_overflows fun beyond => rest _ beyond Or.inl,
          f_of_not_overflows fun beyond => rest _ beyond fun o => Or.inr (Or.inl o),
          f_of_not_overflows fun beyond => rest _ beyond fun o => Or.inr (Or.inr (Or.inl o)),
          f_of_not_overflows fun beyond => rest _ beyond fun o => Or.inr (Or.inr (Or.inr o))]
        rfl
      · rw [if_pos (by simp [valid]), if_neg (by simp [valid])]
        rfl
  · rfl

theorem readObject_raises {fields : List (List Char × Json)} (ends : ObjectEndsSession fields) :
    ∃ reason, readObject fields = .error reason := by
  obtain ⟨tpv, lat | rest⟩ := ends
  · unfold readObject
    rw [if_neg (by simp [tpv]), f_of_overflows lat]
    exact ⟨_, rfl⟩
  by_cases beyondLat : Overflows fields "lat"
  · unfold readObject
    rw [if_neg (by simp [tpv]), f_of_overflows beyondLat]
    exact ⟨_, rfl⟩
  by_cases beyondLon : Overflows fields "lon"
  · unfold readObject
    rw [if_neg (by simp [tpv]), f_of_not_overflows beyondLat, f_of_overflows beyondLon]
    exact ⟨_, rfl⟩
  obtain ⟨valid, behind⟩ := rest.resolve_left beyondLon
  obtain ⟨latitude, longitude, foundLat, foundLon⟩ := validPosition_some valid
  rw [foundLat, foundLon] at valid
  unfold readObject
  rw [if_neg (by simp [tpv]), f_of_not_overflows beyondLat, f_of_not_overflows beyondLon,
    foundLat, foundLon]
  dsimp only [bind, Except.bind]
  rw [if_neg (by simp [valid])]
  -- the first of the four fields that overflows raises
  by_cases speed : Overflows fields "speed"
  · rw [f_of_overflows speed]
    exact ⟨_, rfl⟩
  rw [f_of_not_overflows speed]
  by_cases alt : Overflows fields "alt"
  · rw [f_of_overflows alt]
    exact ⟨_, rfl⟩
  rw [f_of_not_overflows alt]
  by_cases track : Overflows fields "track"
  · rw [f_of_overflows track]
    exact ⟨_, rfl⟩
  rw [f_of_not_overflows track]
  have eph : Overflows fields "eph" :=
    ((behind.resolve_left speed).resolve_left alt).resolve_left track
  rw [f_of_overflows eph]
  exact ⟨_, rfl⟩

theorem readLine_ok {tooDeep : List Char → Bool} {line : List UInt8}
    (ongoing : ¬ EndsSession tooDeep line) : readLine tooDeep line = .ok (lineFix line) := by
  obtain ⟨shallow, fine⟩ := not_or.mp ongoing
  unfold readLine lineFix
  rw [if_neg shallow]
  cases read : loads (lineText line) with
  | none => rfl
  | some value =>
      cases value with
      | obj fields => exact readObject_ok fun ends => fine ⟨_, read, ends⟩
      | null | bool | int | float | str | arr => exact absurd ⟨_, read, trivial⟩ fine

theorem readLine_raises {tooDeep : List Char → Bool} {line : List UInt8}
    (ends : EndsSession tooDeep line) : ∃ reason, readLine tooDeep line = .error reason := by
  unfold readLine
  by_cases deep : tooDeep (lineText line) = true
  · rw [if_pos deep]
    exact ⟨_, rfl⟩
  obtain ⟨value, read, kind⟩ := ends.resolve_left deep
  rw [if_neg deep, read]
  cases value with
  | obj fields => exact readObject_raises kind
  | null | bool | int | float | str | arr => exact ⟨_, rfl⟩

/-! ## The loops -/

section

variable {clock : ℕ → ℚ} {tooDeep : List Char → Bool}

theorem stamped_append (positions : List Position) (position : Position) :
    stamped clock (positions ++ [position]) =
      stamped clock positions ++ [⟨position, clock positions.length⟩] :=
  List.mapIdx_concat

theorem stamped_length (positions : List Position) :
    (stamped clock positions).length = positions.length :=
  List.length_mapIdx

/-- The session was ended by a line. -/
def Session.Raised (session : Session) : Prop := ∃ reason, session.standing = .raised reason

/-- `partition` at the first newline. -/
theorem partition_line {line : List UInt8} (whole : newline ∉ line) (rest : List UInt8) :
    (line ++ newline :: rest).takeWhile (· ≠ newline) = line ∧
      ((line ++ newline :: rest).dropWhile (· ≠ newline)).tail = rest := by
  have other : ∀ byte ∈ line, decide (byte ≠ newline) = true := fun byte member =>
    decide_eq_true fun same => whole (same ▸ member)
  constructor
  · rw [List.takeWhile_append_of_pos other]
    simp
  · rw [List.dropWhile_append_of_pos other]
    simp

/-- One turn of the inner loop. -/
theorem drain_line {line : List UInt8} (whole : newline ∉ line) (rest : List UInt8) (fuel : ℕ)
    (fixes : List Fix) :
    drain clock tooDeep (fuel + 1) (line ++ newline :: rest) fixes =
      match readLine tooDeep line with
      | .error reason => ⟨fixes, .raised reason⟩
      | .ok none => drain clock tooDeep fuel rest fixes
      | .ok (some position) =>
          drain clock tooDeep fuel rest (fixes ++ [⟨position, clock fixes.length⟩]) := by
  have some : ¬ newline ∉ line ++ newline :: rest :=
    not_not.mpr (List.mem_append_right _ List.mem_cons_self)
  rw [drain, if_neg some, (partition_line whole rest).1, (partition_line whole rest).2]

/-- Without a line that ends the session the inner loop stores the fixes of the lines. -/
theorem drain_ok (clock : ℕ → ℚ) (buf : List UInt8) (fuel : ℕ) (enough : buf.length ≤ fuel)
    (positions : List Position)
    (ongoing : ∀ line ∈ complete newline buf, ¬ EndsSession tooDeep line) :
    drain clock tooDeep fuel buf (stamped clock positions) =
      ⟨stamped clock (positions ++ (complete newline buf).filterMap lineFix),
        .receiving (pending newline buf)⟩ := by
  induction buf using LineBuffer.line_induction newline generalizing fuel positions with
  | unfinished buf none =>
      rw [LineBuffer.complete_of_not_mem none, LineBuffer.pending_of_not_mem none,
        List.filterMap_nil, List.append_nil]
      cases fuel with
      | zero => rfl
      | succ fuel => exact if_pos none
  | line line rest whole ih =>
      rw [LineBuffer.complete_line whole] at ongoing ⊢
      rw [LineBuffer.pending_line whole]
      obtain ⟨here, later⟩ := List.forall_mem_cons.mp ongoing
      rw [List.length_append, List.length_cons] at enough
      obtain ⟨less, rfl⟩ : ∃ less, fuel = less + 1 := ⟨fuel - 1, by omega⟩
      rw [drain_line whole, readLine_ok here]
      cases fix : lineFix line with
      | none =>
          rw [List.filterMap_cons_none fix]
          exact ih less (by omega) positions later
      | some position =>
          rw [List.filterMap_cons_some fix, stamped_length]
          dsimp only
          rw [← stamped_append, ih less (by omega) _ later, List.append_assoc,
            List.singleton_append]

/-- A line that ends the session ends it. -/
theorem drain_raises (clock : ℕ → ℚ) (buf : List UInt8) (fuel : ℕ) (enough : buf.length ≤ fuel)
    (fixes : List Fix) (ends : ∃ line ∈ complete newline buf, EndsSession tooDeep line) :
    (drain clock tooDeep fuel buf fixes).Raised := by
  induction buf using LineBuffer.line_induction newline generalizing fuel fixes with
  | unfinished buf none =>
      rw [LineBuffer.complete_of_not_mem none] at ends
      obtain ⟨_, member, _⟩ := ends
      cases member
  | line line rest whole ih =>
      rw [LineBuffer.complete_line whole] at ends
      rw [List.length_append, List.length_cons] at enough
      obtain ⟨less, rfl⟩ : ∃ less, fuel = less + 1 := ⟨fuel - 1, by omega⟩
      rw [drain_line whole]
      by_cases here : EndsSession tooDeep line
      · obtain ⟨reason, raised⟩ := readLine_raises here
        rw [raised]
        exact ⟨reason, rfl⟩
      · have later : ∃ line ∈ complete newline rest, EndsSession tooDeep line := by
          obtain ⟨other, member, ends⟩ := ends
          rcases List.mem_cons.mp member with rfl | behind
          · exact absurd ends here
          · exact ⟨other, behind, ends⟩
        rw [readLine_ok here]
        cases lineFix line with
        | none => exact ih less (by omega) fixes later
        | some position => exact ih less (by omega) _ later

theorem received_cons {chunk : List UInt8} (some : chunk ≠ []) (chunks : List (List UInt8)) :
    received (chunk :: chunks) = chunk ++ received chunks := by
  unfold received
  rw [List.takeWhile_cons_of_pos (by simp [some]), List.flatten_cons]

/-- The lines of what is in the buffer, of one more chunk and of all that follows. -/
theorem complete_chunk (buf chunk stream : List UInt8) :
    complete newline (buf ++ (chunk ++ stream)) =
      complete newline (buf ++ chunk) ++
        complete newline (pending newline (buf ++ chunk) ++ stream) := by
  rw [← List.append_assoc, LineBuffer.complete_append]

theorem receive_ok (chunks : List (List UInt8)) (buf : List UInt8)
    (unfinished : newline ∉ buf) (positions : List Position)
    (ongoing : ∀ line ∈ complete newline (buf ++ received chunks),
      ¬ EndsSession tooDeep line) :
    (receive clock tooDeep chunks buf (stamped clock positions)).fixes =
        stamped clock (positions ++
          (complete newline (buf ++ received chunks)).filterMap lineFix) ∧
      ¬ (receive clock tooDeep chunks buf (stamped clock positions)).Raised := by
  have nothing (stop : received chunks = []) :
      positions ++ (complete newline (buf ++ received chunks)).filterMap lineFix = positions := by
    rw [stop, List.append_nil, LineBuffer.complete_of_not_mem unfinished, List.filterMap_nil,
      List.append_nil]
  induction chunks generalizing buf positions with
  | nil =>
      rw [nothing rfl]
      exact ⟨rfl, nofun⟩
  | cons chunk chunks ih =>
      by_cases closed : chunk = []
      · rw [nothing (by subst closed; rfl), receive, if_pos closed]
        exact ⟨rfl, nofun⟩
      · rw [received_cons closed, complete_chunk] at ongoing ⊢
        have stored := drain_ok clock (buf ++ chunk) _ le_rfl positions
          fun line member => ongoing line (List.mem_append_left _ member)
        rw [receive, if_neg closed, stored, List.filterMap_append, ← List.append_assoc]
        dsimp only
        refine ih _ (LineBuffer.separator_not_mem_pending _) _
          (fun line member => ongoing line (List.mem_append_right _ member)) fun stop => ?_
        rw [stop, List.append_nil,
          LineBuffer.complete_of_not_mem (LineBuffer.separator_not_mem_pending _),
          List.filterMap_nil, List.append_nil]

theorem receive_raises (chunks : List (List UInt8)) (buf : List UInt8)
    (unfinished : newline ∉ buf) (positions : List Position)
    (ends : ∃ line ∈ complete newline (buf ++ received chunks), EndsSession tooDeep line) :
    (receive clock tooDeep chunks buf (stamped clock positions)).Raised := by
  induction chunks generalizing buf positions with
  | nil =>
      obtain ⟨_, member, _⟩ := ends
      rw [received, List.takeWhile_nil, List.flatten_nil, List.append_nil,
        LineBuffer.complete_of_not_mem unfinished] at member
      cases member
  | cons chunk chunks ih =>
      by_cases closed : chunk = []
      · obtain ⟨_, member, _⟩ := ends
        subst closed
        rw [received, List.takeWhile_cons_of_neg (by simp), List.flatten_nil, List.append_nil,
          LineBuffer.complete_of_not_mem unfinished] at member
        cases member
      rw [received_cons closed, complete_chunk] at ends
      rw [receive, if_neg closed]
      by_cases here : ∃ line ∈ complete newline (buf ++ chunk), EndsSession tooDeep line
      · obtain ⟨reason, raised⟩ := drain_raises clock _ _ le_rfl (stamped clock positions) here
        split
        · next standing => cases (congrArg Session.standing standing).symm.trans raised
        · exact ⟨reason, raised⟩
      · have ongoing : ∀ line ∈ complete newline (buf ++ chunk), ¬ EndsSession tooDeep line :=
          fun line member ends => here ⟨line, member, ends⟩
        rw [drain_ok clock _ _ le_rfl positions ongoing]
        refine ih _ (LineBuffer.separator_not_mem_pending _) _ ?_
        obtain ⟨line, member, ends⟩ := ends
        rcases List.mem_append.mp member with now | later
        · exact absurd ⟨line, now, ends⟩ here
        · exact ⟨line, later, ends⟩

end

/-- However the stream is cut, a session stores what its lines store on their own, and goes
on, exactly when none of its lines is of the kinds that end it. -/
theorem fixes_line_by_line_iff (clock : ℕ → ℚ) (tooDeep : List Char → Bool)
    (chunks : List (List UInt8)) :
    ((readOnce clock tooDeep chunks).fixes = expected clock (received chunks) ∧
        ¬ (readOnce clock tooDeep chunks).Raised) ↔
      ∀ line ∈ complete newline (received chunks), ¬ EndsSession tooDeep line := by
  have unfinished : newline ∉ ([] : List UInt8) := List.not_mem_nil
  constructor
  · rintro ⟨_, ongoing⟩ line member ends
    exact ongoing (receive_raises chunks [] unfinished [] ⟨line, member, ends⟩)
  · intro ongoing
    exact receive_ok chunks [] unfinished [] ongoing

/-- `[]`. -/
def arrayLine : List UInt8 := [0x5B, 0x5D]

/-- `{"class":"TPV","lat":5,"lon":8}`. -/
def tpvLine : List UInt8 :=
  [0x7B, 0x22, 0x63, 0x6C, 0x61, 0x73, 0x73, 0x22, 0x3A, 0x22, 0x54, 0x50, 0x56, 0x22, 0x2C,
    0x22, 0x6C, 0x61, 0x74, 0x22, 0x3A, 0x35, 0x2C, 0x22, 0x6C, 0x6F, 0x6E, 0x22, 0x3A, 0x38, 0x7D]

/-- An empty array on a line of its own ends the session; the position behind it in the
same chunk is lost. -/
theorem array_line_loses_the_fix_behind_it :
    ¬ ∀ (clock : ℕ → ℚ) (tooDeep : List Char → Bool) (chunks : List (List UInt8)),
      (readOnce clock tooDeep chunks).fixes = expected clock (received chunks) ∧
        ¬ (readOnce clock tooDeep chunks).Raised := by
  intro claimed
  have same := (claimed (fun _ => 0) (fun _ => false)
    [arrayLine ++ newline :: tpvLine ++ [newline]]).1
  have stored : (readOnce (fun _ => 0) (fun _ => false)
      [arrayLine ++ newline :: tpvLine ++ [newline]]).fixes.length = 0 := by
    decide +kernel
  have meant : (expected (fun _ => 0)
      (received [arrayLine ++ newline :: tpvLine ++ [newline]])).length = 1 := by
    decide +kernel
  rw [same, meant] at stored
  cases stored

end Gpsd

end LorahamRns.Sideband
