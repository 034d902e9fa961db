import LorahamRns.Lib.JsonAppend

/-!
# The decoder reads back what the encoder wrote

Every value is the one its text denotes, whatever delimiter follows, and a text
cut short anywhere inside an object is refused.
-/

namespace LorahamRns.Lib.Json

/-- The end of the input or a delimiter. -/
def Ends (rest : List Char) : Prop := rest = [] ∨ Delimited rest

theorem ends_cons {char : Char} (hchar : isDelimiter char = true) (rest : List Char) :
    Ends (char :: rest) := Or.inr ⟨char, rest, rfl, hchar⟩

/-! ## Numbers -/

/-- No digit leads what remains. -/
def NoDigit (rest : List Char) : Prop :=
  ∀ char tail, rest = char :: tail → char.isDigit = false

theorem Ends.noDigit {rest : List Char} (ends : Ends rest) : NoDigit rest := by
  rintro char tail rfl
  rcases ends with h | ⟨first, behind, heq, hfirst⟩
  · cases h
  · injection heq with hchar _
    rw [hchar]
    exact isDelimiter_not_digit hfirst

theorem run_digits {digits rest : List Char} (hdigits : ∀ char ∈ digits, char.isDigit = true)
    (hrest : NoDigit rest) :
    (digits ++ rest).takeWhile Char.isDigit = digits ∧
      (digits ++ rest).dropWhile Char.isDigit = rest := by
  have htake : rest.takeWhile Char.isDigit = [] := by
    cases rest with
    | nil => rfl
    | cons char tail => simp [hrest char tail rfl]
  have hdrop : rest.dropWhile Char.isDigit = rest := by
    cases rest with
    | nil => rfl
    | cons char tail => simp [hrest char tail rfl]
  exact ⟨by rw [List.takeWhile_append_of_pos hdigits, htake, List.append_nil],
    by rw [List.dropWhile_append_of_pos hdigits, hdrop]⟩

/-- The shape of a number token. -/
structure WellFormed (numeral : Decimal.Numeral) : Prop where
  whole : numeral.whole = ['0'] ∨ ∃ first rest, numeral.whole = first :: rest ∧ first ≠ '0' ∧
    first.isDigit = true ∧ ∀ char ∈ rest, char.isDigit = true
  fraction : ∀ char ∈ numeral.fraction, char.isDigit = true
  exponent : ∀ negative digits, numeral.exponent = some (negative, digits) →
    digits ≠ [] ∧ ∀ char ∈ digits, char.isDigit = true

theorem scanExponent_text {exponent : Option (Bool × List Char)} {rest : List Char}
    (hexponent : ∀ negative digits, exponent = some (negative, digits) →
      digits ≠ [] ∧ ∀ char ∈ digits, char.isDigit = true) (ends : Ends rest) :
    scanExponent (Decimal.Numeral.exponentText exponent ++ rest) = (exponent, rest) := by
  cases exponent with
  | none =>
      rcases ends with rfl | ⟨char, tail, rfl, hchar⟩
      · rfl
      · have hmark : char ≠ 'e' ∧ char ≠ 'E' := by
          constructor <;> rintro rfl <;> exact absurd hchar (by decide)
        simp [Decimal.Numeral.exponentText, scanExponent, expect, hmark.1, hmark.2]
  | some entry =>
      obtain ⟨negative, digits⟩ := entry
      obtain ⟨hne, hdigits⟩ := hexponent negative digits rfl
      obtain ⟨htake, hdrop⟩ := run_digits hdigits ends.noDigit
      have hsign : ∀ input, scanSign ((if negative then '-' else '+') :: input) = (negative, input) := by
        intro input
        cases negative <;> simp [scanSign, expect]
      simp only [Decimal.Numeral.exponentText, List.cons_append, scanExponent, expect, if_true,
        Option.some_or, hsign, htake, hdrop]
      rw [if_neg (by simpa using hne)]

theorem exponentText_start (exponent : Option (Bool × List Char)) {rest : List Char}
    (ends : Ends rest) {char : Char} {tail : List Char}
    (h : Decimal.Numeral.exponentText exponent ++ rest = char :: tail) :
    char.isDigit = false ∧ char ≠ '.' := by
  cases exponent with
  | none =>
      refine ⟨ends.noDigit char tail h, ?_⟩
      rintro rfl
      rcases ends with rfl | delimited
      · cases h
      · exact delimited_no_point delimited tail h
  | some entry =>
      injection h with hchar _
      rw [← hchar]
      decide

theorem scanFraction_text {fraction : List Char} {exponent : Option (Bool × List Char)}
    {rest : List Char} (hfraction : ∀ char ∈ fraction, char.isDigit = true) (ends : Ends rest) :
    scanFraction ((if fraction.isEmpty then [] else '.' :: fraction) ++
      (Decimal.Numeral.exponentText exponent ++ rest)) =
      (fraction, Decimal.Numeral.exponentText exponent ++ rest) := by
  cases fraction with
  | nil =>
      simp only [List.isEmpty_nil, if_true, List.nil_append]
      cases hbehind : Decimal.Numeral.exponentText exponent ++ rest with
      | nil => rfl
      | cons char tail =>
          simp [scanFraction, expect, (exponentText_start exponent ends hbehind).2]
  | cons first others =>
      have hstop : NoDigit (Decimal.Numeral.exponentText exponent ++ rest) :=
        fun char tail h => (exponentText_start exponent ends h).1
      obtain ⟨htake, hdrop⟩ := run_digits hfraction hstop
      simp only [List.isEmpty_cons, Bool.false_eq_true, if_false, List.cons_append, scanFraction,
        expect, if_true]
      rw [← List.cons_append, htake, hdrop]
      simp

theorem scanWhole_text {whole behind : List Char}
    (hwhole : whole = ['0'] ∨ ∃ first rest, whole = first :: rest ∧ first ≠ '0' ∧
      first.isDigit = true ∧ ∀ char ∈ rest, char.isDigit = true)
    (hbehind : NoDigit behind) : scanWhole (whole ++ behind) = some (whole, behind) := by
  rcases hwhole with rfl | ⟨first, rest, rfl, hzero, hfirst, hrest⟩
  · rfl
  · obtain ⟨htake, hdrop⟩ := run_digits hrest hbehind
    simp [scanWhole, hzero, hfirst, htake, hdrop]

theorem scanMinus_text (negative : Bool) {whole behind : List Char}
    (hwhole : whole = ['0'] ∨ ∃ first rest, whole = first :: rest ∧ first ≠ '0' ∧
      first.isDigit = true ∧ ∀ char ∈ rest, char.isDigit = true) :
    scanMinus ((if negative then ['-'] else []) ++ (whole ++ behind)) =
      (negative, whole ++ behind) := by
  cases negative with
  | true => rfl
  | false =>
      rcases hwhole with rfl | ⟨first, rest, rfl, _, hfirst, _⟩
      · rfl
      · have hminus : first ≠ '-' := by
          rintro rfl
          exact absurd hfirst (by decide)
        simp [scanMinus, expect, hminus]

/-- A number token is read back in one piece. -/
theorem scanNumeral_text {numeral : Decimal.Numeral} (wellFormed : WellFormed numeral)
    {rest : List Char} (ends : Ends rest) :
    scanNumeral (numeral.text ++ rest) = some (numeral, rest) := by
  have hbehind : NoDigit ((if numeral.fraction.isEmpty then [] else '.' :: numeral.fraction) ++
      (Decimal.Numeral.exponentText numeral.exponent ++ rest)) := by
    intro char tail h
    by_cases hempty : numeral.fraction.isEmpty = true
    · rw [if_pos hempty, List.nil_append] at h
      exact (exponentText_start numeral.exponent ends h).1
    · rw [if_neg hempty] at h
      injection h with hchar _
      rw [← hchar]
      decide
  have htext : numeral.text ++ rest = (if numeral.negative then ['-'] else []) ++
      (numeral.whole ++ ((if numeral.fraction.isEmpty then [] else '.' :: numeral.fraction) ++
        (Decimal.Numeral.exponentText numeral.exponent ++ rest))) := by
    simp only [Decimal.Numeral.text, List.append_assoc]
  rw [htext]
  simp only [scanNumeral, scanMinus_text numeral.negative wellFormed.whole,
    scanWhole_text wellFormed.whole hbehind, Option.map_some,
    scanFraction_text wellFormed.fraction ends, scanExponent_text wellFormed.exponent ends]

theorem toDigits_all_digit (number : ℕ) : ∀ char ∈ Nat.toDigits 10 number, char.isDigit = true :=
  fun _ hchar => Nat.isDigit_of_mem_toDigits (by decide) (by decide) hchar

/-- The digits of a positive number have no leading zero. -/
theorem toDigits_head {number : ℕ} (hpos : 0 < number) :
    ∃ first rest, Nat.toDigits 10 number = first :: rest ∧ first ≠ '0' := by
  induction number using Nat.strong_induction_on with
  | _ number ih =>
      by_cases hsmall : number < 10
      · refine ⟨number.digitChar, [], Nat.toDigits_of_lt_base hsmall, ?_⟩
        interval_cases number <;> decide
      · obtain ⟨first, rest, hdigits, hfirst⟩ := ih (number / 10) (by omega) (by omega)
        refine ⟨first, rest ++ [(number % 10).digitChar], ?_, hfirst⟩
        rw [Nat.toDigits_of_base_le (by decide) (by omega), hdigits]
        rfl

theorem whole_toDigits (number : ℕ) : Nat.toDigits 10 number = ['0'] ∨
    ∃ first rest, Nat.toDigits 10 number = first :: rest ∧ first ≠ '0' ∧
      first.isDigit = true ∧ ∀ char ∈ rest, char.isDigit = true := by
  rcases Nat.eq_zero_or_pos number with rfl | hpos
  · exact Or.inl rfl
  · obtain ⟨first, rest, hdigits, hfirst⟩ := toDigits_head hpos
    have hall := toDigits_all_digit number
    rw [hdigits] at hall
    exact Or.inr ⟨first, rest, hdigits, hfirst, hall first List.mem_cons_self,
      fun char hchar => hall char (List.mem_cons_of_mem first hchar)⟩

/-- A non-empty front part of a number's digits is a whole part. -/
theorem whole_take {number count : ℕ} (hpos : 0 < number) (hcount : 0 < count) :
    ∃ first rest, (Nat.toDigits 10 number).take count = first :: rest ∧ first ≠ '0' ∧
      first.isDigit = true ∧ ∀ char ∈ rest, char.isDigit = true := by
  obtain ⟨first, rest, hdigits, hfirst⟩ := toDigits_head hpos
  have hall := toDigits_all_digit number
  rw [hdigits] at hall
  obtain ⟨less, rfl⟩ : ∃ less, count = less + 1 := ⟨count - 1, by omega⟩
  refine ⟨first, rest.take less, by rw [hdigits, List.take_succ_cons], hfirst,
    hall first List.mem_cons_self, fun char hchar => ?_⟩
  exact hall char (List.mem_cons_of_mem first (List.mem_of_mem_take hchar))

theorem exponentDigits_wellFormed (exponent : ℤ) :
    Decimal.exponentDigits exponent ≠ [] ∧
      ∀ char ∈ Decimal.exponentDigits exponent, char.isDigit = true := by
  unfold Decimal.exponentDigits
  split
  · refine ⟨List.cons_ne_nil _ _, fun char hchar => ?_⟩
    rcases List.mem_cons.mp hchar with rfl | htail
    · decide
    · exact toDigits_all_digit _ char htail
  · exact ⟨Nat.toDigits_ne_nil, toDigits_all_digit _⟩

theorem numeral_wellFormed (value : Decimal) : WellFormed value.numeral := by
  unfold Decimal.numeral
  dsimp only
  have hall := toDigits_all_digit value.significand
  by_cases hzero : value.significand = 0
  · rw [if_pos hzero]
    exact ⟨Or.inl rfl, by simp, by simp⟩
  have hpos : 0 < value.significand := Nat.pos_of_ne_zero hzero
  rw [if_neg hzero]
  split
  · rename_i hfixed
    split
    · exact ⟨whole_toDigits _, by simp, by simp⟩
    · exact ⟨Or.inr (whole_take hpos (by omega)),
        fun char hchar => hall char (List.mem_of_mem_drop hchar), by simp⟩
  · split
    · refine ⟨Or.inl rfl, fun char hchar => ?_, by simp⟩
      rcases List.mem_append.mp hchar with hzeros | hdigits
      · rw [List.eq_of_mem_replicate hzeros]
        decide
      · exact hall char hdigits
    · -- the stripped digits are a front part of the digits
      obtain ⟨stripped, hstripped⟩ :=
        List.rdropWhile_prefix (· == '0') (Nat.toDigits 10 value.significand)
      have hkept_all : ∀ char ∈ (Nat.toDigits 10 value.significand).rdropWhile (· == '0'),
          char.isDigit = true := fun char hchar =>
        hall char (hstripped ▸ List.mem_append_left stripped hchar)
      refine ⟨Or.inr ?_, fun char hchar => hkept_all char (List.mem_of_mem_drop hchar), ?_⟩
      · obtain ⟨first, rest, hdigits, hfirst⟩ := toDigits_head hpos
        rw [hdigits] at hstripped hkept_all ⊢
        cases hkept : (first :: rest).rdropWhile (· == '0') with
        | nil =>
            have hzeros := List.rdropWhile_eq_nil_iff.mp hkept first List.mem_cons_self
            exact absurd (by simpa using hzeros) hfirst
        | cons head tail =>
            rw [hkept] at hstripped hkept_all
            injection hstripped with hhead _
            exact ⟨head, [], rfl, by rw [hhead]; exact hfirst,
              hkept_all head List.mem_cons_self, by simp⟩
      · intro negative digits h
        simp only [Option.some.injEq, Prod.mk.injEq] at h
        rw [← h.2]
        exact exponentDigits_wellFormed _

/-! ## Strings -/

theorem hexValue_hexDigit {digit : ℕ} (h : digit < 16) : hexValue (hexDigit digit) = some digit := by
  interval_cases digit <;> decide

theorem scanUnit_unitText {unit : ℕ} (h : unit < 0x10000) (rest : List Char) :
    scanUnit ((unitText unit).drop 2 ++ rest) = some (unit, rest) := by
  have hunit : (((unit / 4096 % 16) * 16 + unit / 256 % 16) * 16 + unit / 16 % 16) * 16 + unit % 16 =
      unit := by omega
  simp only [unitText, List.drop_succ_cons, List.drop_zero, List.cons_append, List.nil_append,
    scanUnit, hexValue_hexDigit (Nat.mod_lt _ (by decide : 16 > 0)), Option.bind_eq_bind,
    Option.bind_some, hunit]

/-- The codes one character is escaped to. -/
def codesOf (char : Char) : List ℕ :=
  if char.toNat < 0x10000 then [char.toNat]
  else [0xD800 + (char.toNat - 0x10000) / 0x400, 0xDC00 + (char.toNat - 0x10000) % 0x400]

theorem scanString_unit {unit fuel : ℕ} {input left : List Char} {codes : List ℕ}
    (hunit : unit < 0x10000) (h : scanString fuel input = some (codes, left)) :
    scanString (fuel + 1) (unitText unit ++ input) = some (unit :: codes, left) := by
  have hshape : unitText unit ++ input = '\\' :: 'u' :: ((unitText unit).drop 2 ++ input) := rfl
  rw [hshape]
  simp only [scanString, Char.reduceEq, if_false, if_true, scanEscape,
    scanUnit_unitText hunit input, Option.bind_eq_bind, Option.bind_some, h]

theorem scanString_short {fuel : ℕ} {input left : List Char} {codes : List ℕ} {mark : Char} {code : ℕ}
    (hmark : scanEscape (mark :: input) = some (code, input))
    (h : scanString fuel input = some (codes, left)) :
    scanString (fuel + 1) ('\\' :: mark :: input) = some (code :: codes, left) := by
  simp only [scanString, Char.reduceEq, if_false, if_true, hmark, Option.bind_eq_bind,
    Option.bind_some, h]

theorem escape_length_pos (char : Char) : 0 < (escape char).length := by
  unfold escape
  split_ifs <;> simp [unitText]

theorem scanString_escape {fuel : ℕ} {input left : List Char} {codes : List ℕ} (char : Char)
    (h : scanString fuel input = some (codes, left)) :
    scanString (fuel + (escape char).length) (escape char ++ input) =
      some (codesOf char ++ codes, left) := by
  have hmore : ∀ {extra : ℕ}, fuel ≤ extra → scanString extra input = some (codes, left) := by
    intro extra hextra
    have happend := scanString_append h hextra []
    simpa using happend
  have hshort : ∀ {mark : Char} {code : ℕ},
      scanEscape (mark :: input) = some (code, input) →
      scanString (fuel + 2) ('\\' :: mark :: input) = some (code :: codes, left) :=
    fun hmark => scanString_short hmark (hmore (by omega))
  have hplain : char.toNat < 128 → codesOf char = [char.toNat] := by
    intro hsmall
    rw [codesOf, if_pos (by omega)]
  unfold escape
  by_cases hquote : char = '"'
  · subst hquote
    exact hshort (by simp [scanEscape])
  rw [if_neg hquote]
  by_cases hslash : char = '\\'
  · subst hslash
    exact hshort (by simp [scanEscape])
  rw [if_neg hslash]
  by_cases hnewline : char = '\n'
  · subst hnewline
    exact hshort (by simp [scanEscape])
  rw [if_neg hnewline]
  by_cases hreturn : char = '\r'
  · subst hreturn
    exact hshort (by simp [scanEscape])
  rw [if_neg hreturn]
  by_cases htab : char = '\t'
  · subst htab
    exact hshort (by simp [scanEscape])
  rw [if_neg htab]
  by_cases hfeed : char.toNat = 12
  · rw [if_pos hfeed, hplain (by omega), hfeed]
    exact hshort (by simp [scanEscape])
  rw [if_neg hfeed]
  by_cases hback : char.toNat = 8
  · rw [if_pos hback, hplain (by omega), hback]
    exact hshort (by simp [scanEscape])
  rw [if_neg hback]
  by_cases hprint : 32 ≤ char.toNat ∧ char.toNat < 127
  · rw [if_pos hprint, hplain (by omega)]
    simp only [List.length_singleton, List.cons_append, List.nil_append, scanString, hquote,
      hslash, if_false, if_neg (by omega : ¬ char.toNat < 32), h, Option.bind_eq_bind,
      Option.bind_some]
  rw [if_neg hprint]
  by_cases hbasic : char.toNat < 0x10000
  · rw [if_pos hbasic, codesOf, if_pos hbasic]
    have hunit : scanString (fuel + 5 + 1) (unitText char.toNat ++ input) =
        some (char.toNat :: codes, left) := scanString_unit hbasic (hmore (by omega))
    exact hunit
  · -- a surrogate pair is two escapes
    have hmax : char.toNat < 0x110000 := by
      rcases char.valid with hlow | ⟨_, hhigh⟩
      · exact lt_of_lt_of_le hlow (by decide)
      · exact hhigh
    rw [if_neg hbasic, codesOf, if_neg hbasic, List.append_assoc]
    have hlow : scanString (fuel + 10 + 1)
        (unitText (0xDC00 + (char.toNat - 0x10000) % 0x400) ++ input) =
        some ((0xDC00 + (char.toNat - 0x10000) % 0x400) :: codes, left) :=
      scanString_unit (by omega) (hmore (by omega))
    have hpair : scanString (fuel + 11 + 1)
        (unitText (0xD800 + (char.toNat - 0x10000) / 0x400) ++
          (unitText (0xDC00 + (char.toNat - 0x10000) % 0x400) ++ input)) =
        some ((0xD800 + (char.toNat - 0x10000) / 0x400) ::
          (0xDC00 + (char.toNat - 0x10000) % 0x400) :: codes, left) :=
      scanString_unit (by omega) hlow
    exact hpair

theorem scanString_text (chars rest : List Char) {fuel : ℕ}
    (hfuel : (chars.flatMap escape).length + 1 ≤ fuel) :
    scanString fuel (chars.flatMap escape ++ '"' :: rest) =
      some (chars.flatMap codesOf, rest) := by
  induction chars generalizing fuel with
  | nil =>
      obtain ⟨less, rfl⟩ : ∃ less, fuel = less + 1 := ⟨fuel - 1, by omega⟩
      simp [scanString]
  | cons char chars ih =>
      simp only [List.flatMap_cons, List.length_append, List.append_assoc] at hfuel ⊢
      obtain ⟨less, rfl⟩ : ∃ less, fuel = less + (escape char).length :=
        ⟨fuel - (escape char).length, by omega⟩
      exact scanString_escape char (ih (by omega))

theorem charOf_toNat (char : Char) : charOf char.toNat = char := by
  rw [charOf, if_pos (show char.toNat.isValidChar from char.valid)]
  exact Char.ofNat_toNat char

theorem joinCodes_append (char : Char) (codes : List ℕ) :
    joinCodes (codesOf char ++ codes) = char :: joinCodes codes := by
  unfold codesOf
  split
  · rename_i hbasic
    have hhigh : isHigh char.toNat = false := by
      rcases char.valid with hlow | ⟨hlow, _⟩
      · simp only [isHigh, decide_eq_false_iff_not, not_and]
        intro h
        have : char.toNat < 0xD800 := hlow
        omega
      · simp only [isHigh, decide_eq_false_iff_not, not_and]
        intro _
        have : 0xDFFF < char.toNat := hlow
        omega
    cases codes with
    | nil => simp [joinCodes, charOf_toNat]
    | cons code rest => simp [joinCodes, hhigh, charOf_toNat]
  · rename_i hbasic
    have hmax : char.toNat < 0x110000 := by
      rcases char.valid with hlow | ⟨_, hhigh⟩
      · exact lt_of_lt_of_le hlow (by decide)
      · exact hhigh
    have hcode : 0x10000 + (0xD800 + (char.toNat - 0x10000) / 0x400 - 0xD800) * 0x400 +
        (0xDC00 + (char.toNat - 0x10000) % 0x400 - 0xDC00) = char.toNat := by omega
    have hhigh : isHigh (0xD800 + (char.toNat - 0x10000) / 0x400) = true := by
      simp only [isHigh, decide_eq_true_eq]
      omega
    have hlow : isLow (0xDC00 + (char.toNat - 0x10000) % 0x400) = true := by
      simp only [isLow, decide_eq_true_eq]
      omega
    simp only [List.cons_append, List.nil_append, joinCodes, hhigh, hlow, Bool.and_self, if_true,
      hcode, charOf_toNat]

theorem joinCodes_codesOf (chars : List Char) : joinCodes (chars.flatMap codesOf) = chars := by
  induction chars with
  | nil => rfl
  | cons char chars ih => rw [List.flatMap_cons, joinCodes_append, ih]

/-! ## Values -/

/-- The first character of a value's text: no blank, no closing bracket. -/
structure Opens (text : List Char) : Prop where
  opens : ∃ first rest, text = first :: rest ∧ isBlank first = false ∧ first ≠ ']'

theorem Opens.skipBlanks_eq {text : List Char} (opens : Opens text) (rest : List Char) :
    skipBlanks (text ++ rest) = text ++ rest := by
  obtain ⟨first, behind, rfl, hblank, _⟩ := opens.opens
  exact List.dropWhile_cons_of_neg (by simp [hblank])

theorem Opens.no_close {text : List Char} (opens : Opens text) (rest : List Char) :
    expect ']' (text ++ rest) = none := by
  obtain ⟨first, behind, rfl, _, hclose⟩ := opens.opens
  simp [expect, hclose]

theorem numeralText_start {numeral : Decimal.Numeral} (wellFormed : WellFormed numeral) :
    ∃ first rest, numeral.text = first :: rest ∧ (first = '-' ∨ first.isDigit = true) := by
  unfold Decimal.Numeral.text
  cases numeral.negative with
  | true => exact ⟨'-', _, rfl, Or.inl rfl⟩
  | false =>
      rcases wellFormed.whole with hwhole | ⟨first, rest, hwhole, _, hdigit, _⟩
      · rw [hwhole]
        exact ⟨'0', _, rfl, Or.inr (by decide)⟩
      · rw [hwhole]
        exact ⟨first, _, rfl, Or.inr hdigit⟩

/-- A character that opens a number opens nothing else. -/
theorem number_start {first : Char} (h : first = '-' ∨ first.isDigit = true) :
    first ≠ '"' ∧ first ≠ '{' ∧ first ≠ '[' ∧ word? first = none ∧ isBlank first = false ∧
      first ≠ ']' := by
  have hnot : ∀ {char : Char}, char ≠ '-' → char.isDigit = false → first ≠ char := by
    rintro char hminus hdigit rfl
    rcases h with rfl | htrue
    · exact hminus rfl
    · rw [hdigit] at htrue
      cases htrue
  have hword : word? first = none := by
    simp [word?, hnot (by decide : 'n' ≠ '-') (by decide), hnot (by decide : 't' ≠ '-') (by decide),
      hnot (by decide : 'f' ≠ '-') (by decide), hnot (by decide : 'N' ≠ '-') (by decide),
      hnot (by decide : 'I' ≠ '-') (by decide)]
  have hblank : isBlank first = false := by
    simp [isBlank, hnot (by decide : ' ' ≠ '-') (by decide),
      hnot (by decide : '\t' ≠ '-') (by decide), hnot (by decide : '\n' ≠ '-') (by decide),
      hnot (by decide : '\r' ≠ '-') (by decide)]
  exact ⟨hnot (by decide) (by decide), hnot (by decide) (by decide), hnot (by decide) (by decide),
    hword, hblank, hnot (by decide) (by decide)⟩

theorem scanValue_numeral {numeral : Decimal.Numeral} (wellFormed : WellFormed numeral)
    {rest : List Char} (ends : Ends rest) {fuel : ℕ} (hfuel : 0 < fuel) :
    scanValue fuel (numeral.text ++ rest) = some (ofNumeral numeral, rest) := by
  obtain ⟨less, rfl⟩ : ∃ less, fuel = less + 1 := ⟨fuel - 1, by omega⟩
  have hscan := scanNumeral_text wellFormed ends
  have hinfinity := minusInfinity_none hscan []
  rw [List.append_nil] at hinfinity
  obtain ⟨first, tail, htext, hstart⟩ := numeralText_start wellFormed
  obtain ⟨hquote, hbrace, hbracket, hword, _, _⟩ := number_start hstart
  rw [htext, List.cons_append] at hscan hinfinity ⊢
  simp only [scanValue, hquote, hbrace, hbracket, hword, hinfinity, hscan, if_false,
    Option.map_some]

/-- The token of an integer. -/
def intNumeral (value : ℤ) : Decimal.Numeral :=
  ⟨decide (value < 0), Nat.toDigits 10 value.natAbs, [], none⟩

theorem intText_eq (value : ℤ) : intText value = (intNumeral value).text := by
  by_cases hneg : value < 0 <;>
    simp [intText, intNumeral, Decimal.Numeral.text, Decimal.Numeral.exponentText, hneg]

theorem intNumeral_wellFormed (value : ℤ) : WellFormed (intNumeral value) :=
  ⟨whole_toDigits _, by simp [intNumeral], by simp [intNumeral]⟩

theorem ofNumeral_intNumeral (value : ℤ) : ofNumeral (intNumeral value) = .int value := by
  simp [ofNumeral, intNumeral, Decimal.Numeral.isFloat, Decimal.Numeral.intValue,
    Decimal.signed_natAbs]

theorem numeral_isFloat (value : Decimal) : value.numeral.isFloat = true := by
  unfold Decimal.numeral
  dsimp only
  split_ifs with hzero hfixed hscale hsmall
  · rfl
  · rfl
  · -- digits remain behind the point
    have hdrop : (Nat.toDigits 10 value.significand).drop
        (((Nat.toDigits 10 value.significand).length : ℤ) - value.scale).toNat ≠ [] := by
      rw [ne_eq, List.drop_eq_nil_iff]
      omega
    simp only [Decimal.Numeral.isFloat, List.isEmpty_eq_false_iff.mpr hdrop, Bool.not_false,
      Bool.true_or]
  · simp [Decimal.Numeral.isFloat]
  · simp [Decimal.Numeral.isFloat]

theorem ofNumeral_numeral {value : Decimal} (inRange : |value.val| < floatLimit) :
    ofNumeral value.numeral = .float (.finite value inRange) := by
  rw [ofNumeral, if_pos (numeral_isFloat value), Decimal.numeral_value,
    PyFloat.ofDecimal_of_inRange inRange]

theorem expectAll_append_self (word rest : List Char) : expectAll word (word ++ rest) = some rest := by
  induction word with
  | nil => rfl
  | cons char word ih => simpa [expectAll, expect] using ih

/-- A word is recognised by its first letter. -/
theorem scanValue_word {first : Char} {word : List Char} {value : Json}
    (hword : word? first = some (word, value)) (hquote : first ≠ '"') (hbrace : first ≠ '{')
    (hbracket : first ≠ '[') (rest : List Char) {fuel : ℕ} (hfuel : 0 < fuel) :
    scanValue fuel ((first :: word) ++ rest) = some (value, rest) := by
  obtain ⟨less, rfl⟩ : ∃ less, fuel = less + 1 := ⟨fuel - 1, by omega⟩
  simp only [List.cons_append, scanValue, hquote, hbrace, hbracket, if_false, hword,
    expectAll_append_self, Option.map_some]

theorem scanValue_minusInfinity (rest : List Char) {fuel : ℕ} (hfuel : 0 < fuel) :
    scanValue fuel ("-Infinity".toList ++ rest) = some (.float (.infinity true), rest) := by
  obtain ⟨less, rfl⟩ : ∃ less, fuel = less + 1 := ⟨fuel - 1, by omega⟩
  have hshape : "-Infinity".toList ++ rest = '-' :: ("Infinity".toList ++ rest) := rfl
  have hexpect : expectAll "-Infinity".toList ('-' :: ("Infinity".toList ++ rest)) = some rest := by
    rw [← hshape, expectAll_append_self]
  have hword : word? '-' = none := rfl
  rw [hshape]
  simp only [scanValue, Char.reduceEq, if_false, hword, hexpect]

theorem scanValue_float (value : PyFloat) {rest : List Char} (ends : Ends rest) {fuel : ℕ}
    (hfuel : 0 < fuel) : scanValue fuel (value.text ++ rest) = some (.float value, rest) := by
  cases value with
  | finite value inRange =>
      rw [← ofNumeral_numeral inRange]
      exact scanValue_numeral (numeral_wellFormed value) ends hfuel
  | infinity negative =>
      cases negative with
      | false => exact scanValue_word rfl (by decide) (by decide) (by decide) rest hfuel
      | true => exact scanValue_minusInfinity rest hfuel
  | nan => exact scanValue_word rfl (by decide) (by decide) (by decide) rest hfuel

theorem float_opens (value : PyFloat) : Opens value.text := by
  cases value with
  | finite value inRange =>
      obtain ⟨first, rest, htext, hstart⟩ := numeralText_start (numeral_wellFormed value)
      obtain ⟨_, _, _, _, hblank, hclose⟩ := number_start hstart
      exact ⟨first, rest, htext, hblank, hclose⟩
  | infinity negative => cases negative <;> exact ⟨_, _, rfl, by decide, by decide⟩
  | nan => exact ⟨_, _, rfl, by decide, by decide⟩

theorem dumps_opens (value : Json) : Opens (dumps value) := by
  cases value with
  | null => exact ⟨_, _, rfl, by decide, by decide⟩
  | bool value => cases value <;> exact ⟨_, _, rfl, by decide, by decide⟩
  | int value =>
      obtain ⟨first, rest, htext, hstart⟩ := numeralText_start (intNumeral_wellFormed value)
      obtain ⟨_, _, _, _, hblank, hclose⟩ := number_start hstart
      rw [dumps, intText_eq]
      exact ⟨first, rest, htext, hblank, hclose⟩
  | float value =>
      rw [dumps]
      exact float_opens value
  | str value =>
      rw [dumps]
      exact ⟨_, _, rfl, by decide, by decide⟩
  | arr items =>
      rw [dumps]
      exact ⟨_, _, rfl, by decide, by decide⟩
  | obj fields =>
      rw [dumps]
      exact ⟨_, _, rfl, by decide, by decide⟩

theorem items_opens (item : Json) (rest : List Json) : Opens (dumpsItems (item :: rest)) := by
  cases rest with
  | nil =>
      rw [dumpsItems]
      exact dumps_opens item
  | cons next rest =>
      obtain ⟨first, tail, htext, hblank, hclose⟩ := (dumps_opens item).opens
      rw [dumpsItems, htext]
      exact ⟨first, _, rfl, hblank, hclose⟩

theorem fields_open (key : List Char) (value : Json) (rest : List (List Char × Json)) :
    ∃ tail, dumpsFields ((key, value) :: rest) = '"' :: tail := by
  cases rest with
  | nil => exact ⟨_, by rw [dumpsFields]; rfl⟩
  | cons next rest => exact ⟨_, by rw [dumpsFields]; rfl⟩

def ValueReads (value : Json) : Prop :=
  ∀ ⦃rest : List Char⦄ ⦃fuel : ℕ⦄, Ends rest → (dumps value).length ≤ fuel →
    scanValue fuel (dumps value ++ rest) = some (value, rest)

def ItemsRead (items : List Json) : Prop :=
  items ≠ [] → ∀ ⦃rest : List Char⦄ ⦃fuel : ℕ⦄, (dumpsItems items).length + 1 ≤ fuel →
    scanItems fuel (dumpsItems items ++ ']' :: rest) = some (items, rest)

def FieldsRead (fields : List (List Char × Json)) : Prop :=
  fields ≠ [] → ∀ ⦃rest : List Char⦄ ⦃fuel : ℕ⦄, (dumpsFields fields).length + 1 ≤ fuel →
    scanFields fuel (dumpsFields fields ++ '}' :: rest) = some (fields, rest)

theorem skipBlanks_cons {first : Char} (hblank : isBlank first = false) (rest : List Char) :
    skipBlanks (first :: rest) = first :: rest :=
  List.dropWhile_cons_of_neg (by simp [hblank])

theorem skipBlanks_space (rest : List Char) : skipBlanks (' ' :: rest) = skipBlanks rest :=
  List.dropWhile_cons_of_pos (by decide)

theorem expect_self (char : Char) (rest : List Char) : expect char (char :: rest) = some rest :=
  expect_some.mpr rfl

theorem expect_other {char first : Char} (hne : first ≠ char) (rest : List Char) :
    expect char (first :: rest) = none := if_neg hne

theorem dumps_length_pos (value : Json) : 0 < (dumps value).length := by
  obtain ⟨first, rest, htext, _, _⟩ := (dumps_opens value).opens
  rw [htext]
  exact Nat.succ_pos _

theorem str_reads (value : List Char) : ValueReads (.str value) := by
  intro rest fuel _ hfuel
  rw [dumps, stringText] at hfuel ⊢
  simp only [List.cons_append, List.length_cons, List.length_append, List.length_nil] at hfuel
  obtain ⟨less, rfl⟩ : ∃ less, fuel = less + 1 := ⟨fuel - 1, by omega⟩
  have hstring := scanString_text value rest (show (value.flatMap escape).length + 1 ≤ less by omega)
  simp only [List.cons_append, List.append_assoc, List.nil_append, scanValue, if_true, hstring,
    Option.map_some, joinCodes_codesOf]

theorem arr_reads {items : List Json} (read : ItemsRead items) : ValueReads (.arr items) := by
  intro rest fuel _ hfuel
  rw [dumps] at hfuel ⊢
  simp only [List.cons_append, List.length_cons, List.length_append, List.length_nil] at hfuel
  obtain ⟨less, rfl⟩ : ∃ less, fuel = less + 1 := ⟨fuel - 1, by omega⟩
  cases items with
  | nil =>
      rw [dumpsItems]
      simp only [List.cons_append, List.nil_append, scanValue, Char.reduceEq, if_false, if_true,
        skipBlanks_cons (by decide : isBlank ']' = false), expect_self]
  | cons item others =>
      have hread : scanItems less (dumpsItems (item :: others) ++ ']' :: rest) =
          some (item :: others, rest) := read (List.cons_ne_nil item others) (by omega)
      have opens := items_opens item others
      simp only [List.cons_append, List.append_assoc, List.nil_append, scanValue, Char.reduceEq,
        if_false, if_true, opens.skipBlanks_eq, opens.no_close, hread, Option.map_some]

theorem obj_reads {fields : List (List Char × Json)} (read : FieldsRead fields) :
    ValueReads (.obj fields) := by
  intro rest fuel _ hfuel
  rw [dumps] at hfuel ⊢
  simp only [List.cons_append, List.length_cons, List.length_append, List.length_nil] at hfuel
  obtain ⟨less, rfl⟩ : ∃ less, fuel = less + 1 := ⟨fuel - 1, by omega⟩
  cases fields with
  | nil =>
      rw [dumpsFields]
      simp only [List.cons_append, List.nil_append, scanValue, Char.reduceEq, if_false, if_true,
        skipBlanks_cons (by decide : isBlank '}' = false), expect_self]
  | cons field others =>
      have hread : scanFields less (dumpsFields (field :: others) ++ '}' :: rest) =
          some (field :: others, rest) := read (List.cons_ne_nil field others) (by omega)
      obtain ⟨tail, htail⟩ := fields_open field.1 field.2 others
      rw [htail] at hread ⊢
      simp only [List.cons_append] at hread
      simp only [List.cons_append, List.append_assoc, List.nil_append, scanValue, Char.reduceEq,
        if_false, if_true, skipBlanks_cons (by decide : isBlank '"' = false),
        expect_other (by decide : '"' ≠ '}'), hread, Option.map_some]

theorem item_reads {item : Json} (read : ValueReads item) : ItemsRead [item] := by
  intro _ rest fuel hfuel
  rw [dumpsItems] at hfuel ⊢
  obtain ⟨less, rfl⟩ : ∃ less, fuel = less + 1 := ⟨fuel - 1, by omega⟩
  have hitem := read (ends_cons (by decide : isDelimiter ']' = true) rest)
    (show (dumps item).length ≤ less by omega)
  simp only [scanItems, hitem, Option.bind_eq_bind, Option.bind_some,
    skipBlanks_cons (by decide : isBlank ']' = false), expect_self]

theorem items_read {item next : Json} {others : List Json} (first : ValueReads item)
    (read : ItemsRead (next :: others)) : ItemsRead (item :: next :: others) := by
  intro _ rest fuel hfuel
  have hpos := dumps_length_pos item
  rw [dumpsItems] at hfuel ⊢
  simp only [List.length_cons, List.length_append] at hfuel
  obtain ⟨less, rfl⟩ : ∃ less, fuel = less + 1 := ⟨fuel - 1, by omega⟩
  have hitem := first (ends_cons (by decide : isDelimiter ',' = true)
      (' ' :: (dumpsItems (next :: others) ++ ']' :: rest)))
    (show (dumps item).length ≤ less by omega)
  have hread : scanItems less (dumpsItems (next :: others) ++ ']' :: rest) =
      some (next :: others, rest) := read (List.cons_ne_nil next others) (by omega)
  simp only [List.append_assoc, List.cons_append, scanItems, hitem, Option.bind_eq_bind,
    Option.bind_some, skipBlanks_cons (by decide : isBlank ',' = false),
    expect_other (by decide : ',' ≠ ']'), expect_self, skipBlanks_space,
    (items_opens next others).skipBlanks_eq, hread]

/-- One field up to what stands behind its value. -/
theorem scanFields_field {key : List Char} {value : Json} (read : ValueReads value)
    {rest : List Char} (ends : Ends rest) {fuel : ℕ}
    (hkey : (stringText key).length ≤ fuel) (hvalue : (dumps value).length ≤ fuel) :
    scanFields (fuel + 1) (stringText key ++ ':' :: ' ' :: (dumps value ++ rest)) =
      (match expect '}' (skipBlanks rest) with
      | some left => some ([(key, value)], left)
      | none => (expect ',' (skipBlanks rest)).bind fun next =>
          (scanFields fuel (skipBlanks next)).bind fun result =>
            some ((key, value) :: result.1, result.2)) := by
  simp only [stringText, List.cons_append, List.length_cons, List.length_append, List.length_nil]
    at hkey
  have hstring := scanString_text key (':' :: ' ' :: (dumps value ++ rest))
    (show (key.flatMap escape).length + 1 ≤ fuel by omega)
  simp only [stringText, List.cons_append, List.append_assoc, List.nil_append, scanFields,
    expect_self, Option.bind_eq_bind, Option.bind_some, hstring,
    skipBlanks_cons (by decide : isBlank ':' = false), skipBlanks_space,
    (dumps_opens value).skipBlanks_eq, read ends hvalue, joinCodes_codesOf] <;>
  cases expect '}' (skipBlanks rest) <;> rfl

theorem field_reads {key : List Char} {value : Json} (read : ValueReads value) :
    FieldsRead [(key, value)] := by
  intro _ rest fuel hfuel
  rw [dumpsFields] at hfuel ⊢
  simp only [List.length_cons, List.length_append] at hfuel
  obtain ⟨less, rfl⟩ : ∃ less, fuel = less + 1 := ⟨fuel - 1, by omega⟩
  simp only [List.append_assoc, List.cons_append]
  rw [scanFields_field read (ends_cons (by decide) rest) (by omega) (by omega)]
  simp only [skipBlanks_cons (by decide : isBlank '}' = false), expect_self]

theorem fields_read {key : List Char} {value : Json} {next : List Char × Json}
    {others : List (List Char × Json)} (first : ValueReads value)
    (read : FieldsRead (next :: others)) : FieldsRead ((key, value) :: next :: others) := by
  intro _ rest fuel hfuel
  rw [dumpsFields] at hfuel ⊢
  simp only [List.length_cons, List.length_append] at hfuel
  obtain ⟨less, rfl⟩ : ∃ less, fuel = less + 1 := ⟨fuel - 1, by omega⟩
  have hread : scanFields less (dumpsFields (next :: others) ++ '}' :: rest) =
      some (next :: others, rest) := read (List.cons_ne_nil next others) (by omega)
  obtain ⟨tail, htail⟩ := fields_open next.1 next.2 others
  simp only [List.append_assoc, List.cons_append]
  rw [scanFields_field first (ends_cons (by decide) _) (by omega) (by omega)]
  rw [htail] at hread ⊢
  simp only [List.cons_append] at hread
  simp only [skipBlanks_cons (by decide : isBlank ',' = false),
    expect_other (by decide : ',' ≠ '}'), expect_self, Option.bind_some, List.cons_append,
    skipBlanks_space, skipBlanks_cons (by decide : isBlank '"' = false), hread]

/-- Every value is read back from its own text. -/
theorem scanValue_dumps (value : Json) : ValueReads value := by
  have hword : ∀ {word : Json} {fuel : ℕ}, (dumps word).length ≤ fuel → 0 < fuel :=
    fun hfuel => lt_of_lt_of_le (dumps_length_pos _) hfuel
  refine dumps.induct ValueReads FieldsRead ItemsRead ?null ?yes ?no ?int ?float str_reads
    (fun _ => arr_reads) (fun _ => obj_reads) (fun h => absurd rfl h) (fun _ => item_reads)
    (fun _ _ _ => items_read) (fun h => absurd rfl h) (fun _ _ => field_reads)
    (fun _ _ _ _ => fields_read) value
  case null =>
    intro rest fuel _ hfuel
    exact scanValue_word rfl (by decide) (by decide) (by decide) rest (hword hfuel)
  case yes =>
    intro rest fuel _ hfuel
    exact scanValue_word rfl (by decide) (by decide) (by decide) rest (hword hfuel)
  case no =>
    intro rest fuel _ hfuel
    exact scanValue_word rfl (by decide) (by decide) (by decide) rest (hword hfuel)
  case int =>
    intro value rest fuel ends hfuel
    have hpos := hword hfuel
    rw [dumps, intText_eq, scanValue_numeral (intNumeral_wellFormed value) ends hpos,
      ofNumeral_intNumeral]
  case float =>
    intro value rest fuel ends hfuel
    rw [dumps]
    exact scanValue_float value ends (hword hfuel)

theorem skipBlanks_dumps (value : Json) : skipBlanks (dumps value) = dumps value := by
  simpa using (dumps_opens value).skipBlanks_eq []

/-- Decoding inverts encoding. -/
theorem loads_dumps (value : Json) : loads (dumps value) = some value := by
  have hscan := scanValue_dumps value (Or.inl rfl) le_rfl
  rw [List.append_nil] at hscan
  simp only [loads, skipBlanks_dumps, hscan, Option.bind_eq_bind, Option.bind_some]
  rfl

/-- An object's text cut short is no document. -/
theorem loads_take_dumps (fields : List (List Char × Json)) {limit : ℕ} (hlimit : 0 < limit)
    (hcut : limit < (dumps (.obj fields)).length) :
    loads ((dumps (.obj fields)).take limit) = none := by
  obtain ⟨less, rfl⟩ : ∃ less, limit = less + 1 := ⟨limit - 1, by omega⟩
  have hscan := scanValue_dumps (.obj fields) (Or.inl rfl) le_rfl
  rw [dumps] at hscan hcut ⊢
  simp only [List.cons_append, List.take_succ_cons, List.append_nil] at hscan ⊢
  simp only [List.cons_append, List.length_cons] at hcut
  have hrest : (dumpsFields fields ++ ['}']).drop less ≠ [] := by
    rw [ne_eq, List.drop_eq_nil_iff]
    omega
  have hwhole : scanValue
      ('{' :: (dumpsFields fields ++ ['}']).take less ++ (dumpsFields fields ++ ['}']).drop less).length
      ('{' :: (dumpsFields fields ++ ['}']).take less ++ (dumpsFields fields ++ ['}']).drop less) =
      some (.obj fields, []) := by
    rw [List.cons_append, List.take_append_drop]
    exact hscan
  exact loads_prefix_none hwhole hrest

end LorahamRns.Lib.Json
