import LorahamRns.Lib.Encoding
import LorahamRns.Lib.JsonRoundTrip

/-!
# The encoder writes ASCII

Every character of a written document is ASCII and none is a zero, so its bytes decode to
the text again, whatever the encoding is guessed from.
-/

namespace LorahamRns.Lib.Json

/-- `str.encode()` of an ASCII text. -/
def encode (text : List Char) : List UInt8 := text.map fun char => UInt8.ofNat char.toNat

def IsAscii (char : Char) : Prop := 0 < char.toNat ∧ char.toNat < 128

instance (char : Char) : Decidable (IsAscii char) := inferInstanceAs (Decidable (_ ∧ _))

/-- A text in ASCII. -/
def Ascii (text : List Char) : Prop := ∀ char ∈ text, IsAscii char

instance (text : List Char) : Decidable (Ascii text) := List.decidableBAll _ _

@[simp]
theorem ascii_append {left right : List Char} : Ascii (left ++ right) ↔ Ascii left ∧ Ascii right :=
  List.forall_mem_append

@[simp]
theorem ascii_cons {char : Char} {rest : List Char} :
    Ascii (char :: rest) ↔ IsAscii char ∧ Ascii rest :=
  List.forall_mem_cons

/-! ## What is written -/

theorem ascii_of_digits {digits : List Char} (h : ∀ char ∈ digits, char.isDigit = true) :
    Ascii digits := by
  intro char member
  have digit := h char member
  simp only [Char.isDigit, Bool.and_eq_true, decide_eq_true_eq] at digit
  have low : 48 ≤ char.toNat := digit.1
  have high : char.toNat ≤ 57 := digit.2
  exact ⟨by omega, by omega⟩

theorem hexDigit_ascii {digit : ℕ} (small : digit < 16) : IsAscii (hexDigit digit) := by
  interval_cases digit <;> decide

theorem unitText_ascii (unit : ℕ) : Ascii (unitText unit) := by
  have digit (number : ℕ) : IsAscii (hexDigit (number % 16)) :=
    hexDigit_ascii (Nat.mod_lt _ (by decide))
  simp only [unitText, ascii_cons]
  exact ⟨by decide, by decide, digit _, digit _, digit _, digit _, List.forall_mem_nil _⟩

theorem escape_ascii (char : Char) : Ascii (escape char) := by
  unfold escape
  split_ifs with _ _ _ _ _ _ _ plain
  · decide
  · decide
  · decide
  · decide
  · decide
  · decide
  · decide
  · rw [ascii_cons]
    exact ⟨⟨by omega, by omega⟩, nofun⟩
  · exact unitText_ascii _
  · exact ascii_append.mpr ⟨unitText_ascii _, unitText_ascii _⟩

theorem stringText_ascii (value : List Char) : Ascii (stringText value) := by
  unfold stringText
  rw [List.cons_append, ascii_cons, ascii_append]
  refine ⟨by decide, fun char member => ?_, by decide⟩
  obtain ⟨source, _, written⟩ := List.mem_flatMap.mp member
  exact escape_ascii source char written

theorem intText_ascii (value : ℤ) : Ascii (intText value) := by
  unfold intText
  refine ascii_append.mpr ⟨?_, ascii_of_digits (toDigits_all_digit _)⟩
  split <;> decide

theorem numeralText_ascii {numeral : Decimal.Numeral} (wellFormed : WellFormed numeral) :
    Ascii numeral.text := by
  obtain ⟨whole, fraction, exponent⟩ := wellFormed
  unfold Decimal.Numeral.text
  refine ascii_append.mpr ⟨ascii_append.mpr ⟨ascii_append.mpr ⟨?_, ?_⟩, ?_⟩, ?_⟩
  · split <;> decide
  · rcases whole with zero | ⟨first, rest, same, _, digit, digits⟩
    · rw [zero]
      decide
    · rw [same]
      exact ascii_of_digits (List.forall_mem_cons.mpr ⟨digit, digits⟩)
  · split
    · exact nofun
    · exact ascii_cons.mpr ⟨by decide, ascii_of_digits fraction⟩
  · cases given : numeral.exponent with
    | none => exact nofun
    | some pair =>
        obtain ⟨negative, digits⟩ := pair
        unfold Decimal.Numeral.exponentText
        refine ascii_cons.mpr ⟨by decide, ascii_cons.mpr ⟨?_, ?_⟩⟩
        · cases negative <;> decide
        · exact ascii_of_digits (exponent negative digits given).2

theorem floatText_ascii (value : PyFloat) : Ascii value.text := by
  match value with
  | .finite number inRange =>
      rw [PyFloat.text_finite]
      exact numeralText_ascii (numeral_wellFormed number)
  | .infinity false => exact (by decide : Ascii "Infinity".toList)
  | .infinity true => exact (by decide : Ascii "-Infinity".toList)
  | .nan => exact (by decide : Ascii "NaN".toList)

/-- Every document is written in ASCII. -/
theorem dumps_ascii (value : Json) : Ascii (dumps value) := by
  refine dumps.induct (fun value => Ascii (dumps value)) (fun fields => Ascii (dumpsFields fields))
    (fun items => Ascii (dumpsItems items)) ?null ?yes ?no ?int ?float ?str ?arr ?obj ?noItems
    ?item ?items ?noFields ?field ?fields value
  case null => decide
  case yes => decide
  case no => decide
  case int =>
    intro value
    rw [dumps]
    exact intText_ascii value
  case float =>
    intro value
    rw [dumps]
    exact floatText_ascii value
  case str =>
    intro value
    rw [dumps]
    exact stringText_ascii value
  case arr =>
    intro items written
    rw [dumps, List.cons_append]
    exact ascii_cons.mpr ⟨by decide, ascii_append.mpr ⟨written, by decide⟩⟩
  case obj =>
    intro fields written
    rw [dumps, List.cons_append]
    exact ascii_cons.mpr ⟨by decide, ascii_append.mpr ⟨written, by decide⟩⟩
  case noItems => decide
  case item =>
    intro item written
    rw [dumpsItems]
    exact written
  case items =>
    intro item next rest first others
    rw [dumpsItems]
    exact ascii_append.mpr ⟨first,
      ascii_cons.mpr ⟨by decide, ascii_cons.mpr ⟨by decide, others⟩⟩⟩
  case noFields => decide
  case field =>
    intro key value written
    rw [dumpsFields]
    exact ascii_append.mpr ⟨stringText_ascii key,
      ascii_cons.mpr ⟨by decide, ascii_cons.mpr ⟨by decide, written⟩⟩⟩
  case fields =>
    intro key value next rest first others
    rw [dumpsFields]
    simp only [List.append_assoc, List.cons_append]
    refine ascii_append.mpr ⟨stringText_ascii key, ascii_cons.mpr ⟨by decide, ascii_cons.mpr
      ⟨by decide, ascii_append.mpr ⟨first, ascii_cons.mpr ⟨by decide, ascii_cons.mpr
      ⟨by decide, others⟩⟩⟩⟩⟩⟩

/-! ## What the bytes decode to -/

/-- The byte of an ASCII character. -/
theorem encode_byte {char : Char} (ascii : IsAscii char) :
    (UInt8.ofNat char.toNat).toNat = char.toNat ∧ UInt8.ofNat char.toNat ≤ 0x7F ∧
      UInt8.ofNat char.toNat ≠ 0 := by
  obtain ⟨positive, small⟩ := ascii
  have value : (UInt8.ofNat char.toNat).toNat = char.toNat := by
    rw [UInt8.toNat_ofNat']
    omega
  refine ⟨value, ?_, fun zero => ?_⟩
  · rw [UInt8.le_iff_toNat_le, value]
    exact Nat.lt_succ_iff.mp small
  · rw [zero] at value
    exact positive.ne value

theorem decodeAll_encode {text : List Char} (ascii : Ascii text) {fuel : ℕ}
    (enough : text.length ≤ fuel) :
    decodeAll utf8 fuel (encode text) = some (text.map Char.toNat) := by
  induction text generalizing fuel with
  | nil => cases fuel <;> rfl
  | cons char rest ih =>
      obtain ⟨first, others⟩ := ascii_cons.mp ascii
      obtain ⟨value, small, _⟩ := encode_byte first
      obtain ⟨less, rfl⟩ : ∃ less, fuel = less + 1 := ⟨fuel - 1, by
        rw [List.length_cons] at enough
        omega⟩
      have taken : utf8 (encode (char :: rest)) = some (char.toNat, encode rest) := by
        change (if UInt8.ofNat char.toNat ≤ 0x7F then _ else _) = _
        rw [if_pos small, value]
        rfl
      rw [show encode (char :: rest) = UInt8.ofNat char.toNat :: encode rest from rfl] at taken ⊢
      rw [decodeAll, taken]
      · simp only [Option.bind_eq_bind, Option.bind_some, ih others (Nat.le_of_succ_le_succ enough)]
        rfl
      · exact List.cons_ne_nil _ _

/-- ASCII is taken for UTF-8. -/
theorem detectEncoding_encode {text : List Char} (ascii : Ascii text) :
    detectEncoding (encode text) = (.utf8, encode text) := by
  have mark {first : UInt8} {rest : List UInt8} (odd : first = 0 ∨ 0x7F < first) :
      (first :: rest).isPrefixOf (encode text) = false := by
    cases text with
    | nil => rfl
    | cons char behind =>
        obtain ⟨_, small, nonzero⟩ := encode_byte (ascii_cons.mp ascii).1
        have other : (first == UInt8.ofNat char.toNat) = false := by
          refine beq_eq_false_iff_ne.mpr ?_
          rintro rfl
          rcases odd with zero | large
          · exact nonzero zero
          · rw [UInt8.lt_iff_toNat_lt] at large
            rw [UInt8.le_iff_toNat_le] at small
            exact absurd large (not_lt.mpr small)
        change (first == UInt8.ofNat char.toNat && _) = false
        rw [other, Bool.false_and]
  have guessed : guessEncoding (encode text) = .utf8 := by
    match text with
    | [] => rfl
    | [first] => rfl
    | [first, second] =>
        obtain ⟨hfirst, others⟩ := ascii_cons.mp ascii
        have hsecond := (ascii_cons.mp others).1
        change (if UInt8.ofNat first.toNat = 0 then _
          else if UInt8.ofNat second.toNat = 0 then _ else Encoding.utf8) = _
        rw [if_neg (encode_byte hfirst).2.2, if_neg (encode_byte hsecond).2.2]
    | [first, second, third] => rfl
    | first :: second :: third :: fourth :: rest =>
        obtain ⟨hfirst, others⟩ := ascii_cons.mp ascii
        have hsecond := (ascii_cons.mp others).1
        change (if UInt8.ofNat first.toNat = 0 then _
          else if UInt8.ofNat second.toNat = 0 then _ else Encoding.utf8) = _
        rw [if_neg (encode_byte hfirst).2.2, if_neg (encode_byte hsecond).2.2]
  unfold detectEncoding
  rw [mark (Or.inl rfl), mark (Or.inr (by decide)), mark (Or.inr (by decide)),
    mark (Or.inr (by decide)), mark (Or.inr (by decide)), guessed]
  rfl

/-- The bytes of an ASCII text decode to it. -/
theorem decode_encode {text : List Char} (ascii : Ascii text) : decode (encode text) = some text := by
  unfold decode
  rw [detectEncoding_encode ascii]
  have codes : decodeAll utf8 (encode text).length (encode text) = some (text.map Char.toNat) :=
    decodeAll_encode ascii (by rw [encode, List.length_map])
  dsimp only
  rw [codes, Option.map_some, List.map_map, Option.some_inj]
  exact (List.map_congr_left fun char _ => charOf_toNat char).trans (List.map_id text)

end LorahamRns.Lib.Json
