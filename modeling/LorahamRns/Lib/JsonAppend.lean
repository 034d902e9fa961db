import LorahamRns.Lib.JsonScan

/-!
# Input behind a completed value

A scanner that has finished does not look at what follows.  More fuel and more
input behind the end leave the value and its remaining input as they were, so
an object text that is accepted is not a proper prefix of another one.
-/

namespace LorahamRns.Lib.Json

/-- The characters that can follow a value inside a list or an object. -/
def isDelimiter (char : Char) : Bool :=
  isBlank char || char == ',' || char == ']' || char == '}'

/-- What remains starts with a delimiter. -/
def Delimited (rest : List Char) : Prop :=
  ∃ char tail, rest = char :: tail ∧ isDelimiter char = true

theorem Delimited.ne_nil {rest : List Char} (delimited : Delimited rest) : rest ≠ [] := by
  obtain ⟨char, tail, rfl, _⟩ := delimited
  exact List.cons_ne_nil char tail

theorem isDelimiter_cases {char : Char} (h : isDelimiter char = true) :
    char = ' ' ∨ char = '\t' ∨ char = '\n' ∨ char = '\r' ∨ char = ',' ∨ char = ']' ∨ char = '}' := by
  simpa [isDelimiter, isBlank, or_assoc] using h

theorem isDelimiter_not_digit {char : Char} (h : isDelimiter char = true) :
    char.isDigit = false := by
  rcases isDelimiter_cases h with rfl | rfl | rfl | rfl | rfl | rfl | rfl <;> decide

/-! ## Runs of one class of characters -/

theorem dropWhile_append {α : Type} {keep : α → Bool} {input : List α}
    (hne : input.dropWhile keep ≠ []) (more : List α) :
    (input ++ more).dropWhile keep = input.dropWhile keep ++ more := by
  rw [List.dropWhile_append]
  simp [hne]

theorem takeWhile_append {α : Type} {keep : α → Bool} {input : List α}
    (hne : input.dropWhile keep ≠ []) (more : List α) :
    (input ++ more).takeWhile keep = input.takeWhile keep := by
  induction input with
  | nil => exact absurd rfl hne
  | cons first rest ih =>
      by_cases hfirst : keep first = true
      · rw [List.dropWhile_cons_of_pos hfirst] at hne
        rw [List.cons_append, List.takeWhile_cons_of_pos hfirst,
          List.takeWhile_cons_of_pos hfirst, ih hne]
      · rw [List.cons_append, List.takeWhile_cons_of_neg hfirst,
          List.takeWhile_cons_of_neg hfirst]

theorem skipBlanks_append {input : List Char} (hne : skipBlanks input ≠ []) (more : List Char) :
    skipBlanks (input ++ more) = skipBlanks input ++ more := dropWhile_append hne more

theorem expect_some {char : Char} {input left : List Char} :
    expect char input = some left ↔ input = char :: left := by
  cases input with
  | nil => simp [expect]
  | cons first rest =>
      simp only [expect, List.cons.injEq]
      split <;> simp_all

theorem expect_append {char : Char} {input : List Char} (hne : input ≠ []) (more : List Char) :
    expect char (input ++ more) = (expect char input).map (· ++ more) := by
  cases input with
  | nil => exact absurd rfl hne
  | cons first rest =>
      simp only [List.cons_append, expect]
      split <;> rfl

/-- Whatever stands before a delimiter is delimited, blanks included. -/
theorem delimited_of_skipBlanks {input left : List Char} {char : Char}
    (hchar : isDelimiter char = true) (h : skipBlanks input = char :: left) :
    Delimited input := by
  cases input with
  | nil => simp [skipBlanks] at h
  | cons first rest =>
      refine ⟨first, rest, rfl, ?_⟩
      by_cases hblank : isBlank first = true
      · simp [isDelimiter, hblank]
      · rw [skipBlanks, List.dropWhile_cons_of_neg (by simpa using hblank)] at h
        injection h with hfirst _
        rw [hfirst]
        exact hchar

/-! ## Numbers and strings -/

theorem scanWhole_append {input whole left : List Char}
    (h : scanWhole input = some (whole, left)) (hne : left ≠ []) (more : List Char) :
    scanWhole (input ++ more) = some (whole, left ++ more) := by
  cases input with
  | nil => simp [scanWhole] at h
  | cons first rest =>
      simp only [scanWhole, List.cons_append] at h ⊢
      split at h
      · simp_all
      · split at h
        · simp only [Option.some.injEq, Prod.mk.injEq] at h
          obtain ⟨rfl, rfl⟩ := h
          simp_all [dropWhile_append hne, takeWhile_append hne]
        · cases h

theorem scanFraction_append {input : List Char} (more : List Char)
    (hdelimited : (scanFraction input).2 ≠ [])
    (hpoint : ∀ tail, (scanFraction input).2 ≠ '.' :: tail) :
    scanFraction (input ++ more) = ((scanFraction input).1, (scanFraction input).2 ++ more) := by
  cases hinput : input with
  | nil => simp [hinput, scanFraction, expect] at hdelimited
  | cons first rest =>
      subst hinput
      unfold scanFraction at hdelimited hpoint ⊢
      rw [expect_append (List.cons_ne_nil first rest)]
      cases hexpect : expect '.' (first :: rest) with
      | none => simp
      | some behind =>
          simp only [hexpect] at hdelimited hpoint
          simp only [Option.map_some]
          by_cases hempty : (behind.takeWhile Char.isDigit).isEmpty = true
          · rw [if_pos hempty] at hpoint
            exact absurd (expect_some.mp hexpect) (hpoint behind)
          · rw [if_neg hempty] at hdelimited
            rw [takeWhile_append hdelimited, dropWhile_append hdelimited, if_neg hempty,
              if_neg hempty]

theorem scanSign_append {input : List Char} (hne : input ≠ []) (more : List Char) :
    scanSign (input ++ more) = ((scanSign input).1, (scanSign input).2 ++ more) := by
  unfold scanSign
  rw [expect_append hne, expect_append hne]
  cases expect '-' input with
  | some rest => rfl
  | none => cases expect '+' input <;> rfl

theorem scanExponent_append {input : List Char} (more : List Char)
    (hdelimited : Delimited (scanExponent input).2) :
    scanExponent (input ++ more) = ((scanExponent input).1, (scanExponent input).2 ++ more) := by
  have hmark : ∀ {char : Char} {tail : List Char}, Delimited (char :: tail) → char ≠ 'e' ∧ char ≠ 'E' := by
    rintro char tail ⟨first, rest, heq, hfirst⟩
    injection heq with hchar _
    rw [hchar]
    rcases isDelimiter_cases hfirst with rfl | rfl | rfl | rfl | rfl | rfl | rfl <;> decide
  cases hinput : input with
  | nil => exact (hdelimited.ne_nil (by simp [hinput, scanExponent, expect])).elim
  | cons first rest =>
      subst hinput
      unfold scanExponent at hdelimited ⊢
      rw [expect_append (List.cons_ne_nil first rest), expect_append (List.cons_ne_nil first rest)]
      cases hexpect : (expect 'e' (first :: rest)).or (expect 'E' (first :: rest)) with
      | none =>
          have hnone := Option.or_eq_none_iff.mp hexpect
          simp [hnone.1, hnone.2]
      | some behind =>
          have hmap : (Option.map (· ++ more) (expect 'e' (first :: rest))).or
              (Option.map (· ++ more) (expect 'E' (first :: rest))) = some (behind ++ more) := by
            rw [← Option.map_or, hexpect]
            rfl
          rw [hmap]
          simp only [hexpect] at hdelimited ⊢
          have hfirst : first = 'e' ∨ first = 'E' := by
            rcases Option.or_eq_some_iff.mp hexpect with h | ⟨_, h⟩
            · exact Or.inl (List.cons.inj (expect_some.mp h)).1
            · exact Or.inr (List.cons.inj (expect_some.mp h)).1
          by_cases hempty : ((scanSign behind).2.takeWhile Char.isDigit).isEmpty = true
          · rw [if_pos hempty] at hdelimited
            have := hmark hdelimited
            rcases hfirst with h | h
            · exact absurd h this.1
            · exact absurd h this.2
          · rw [if_neg hempty] at hdelimited
            have hbehind : behind ≠ [] := by
              rintro rfl
              exact hempty (by simp [scanSign, expect])
            rw [scanSign_append hbehind, takeWhile_append hdelimited.ne_nil,
              dropWhile_append hdelimited.ne_nil, if_neg hempty, if_neg hempty]

theorem delimited_no_point {rest : List Char} (delimited : Delimited rest) (tail : List Char) :
    rest ≠ '.' :: tail := by
  obtain ⟨char, behind, rfl, hchar⟩ := delimited
  intro heq
  injection heq with hpoint _
  rw [hpoint] at hchar
  exact absurd hchar (by decide)

/-- An exponent that is not there leaves its input; one that is there starts
behind an exponent mark, not behind a point. -/
theorem scanExponent_no_point {input : List Char} (delimited : Delimited (scanExponent input).2)
    (tail : List Char) : input ≠ '.' :: tail := by
  rintro rfl
  simp only [scanExponent, expect, Char.reduceEq, if_false, Option.or_self] at delimited
  exact delimited_no_point delimited tail rfl

theorem scanExponent_ne_nil {input : List Char} (delimited : Delimited (scanExponent input).2) :
    input ≠ [] := by
  rintro rfl
  exact delimited.ne_nil (by simp [scanExponent, expect])

theorem scanMinus_append {input : List Char} (hne : input ≠ []) (more : List Char) :
    scanMinus (input ++ more) = ((scanMinus input).1, (scanMinus input).2 ++ more) := by
  unfold scanMinus
  rw [expect_append hne]
  cases expect '-' input <;> rfl

theorem scanNumeral_append {input left : List Char} {numeral : Decimal.Numeral}
    (h : scanNumeral input = some (numeral, left)) (delimited : Delimited left)
    (more : List Char) : scanNumeral (input ++ more) = some (numeral, left ++ more) := by
  have hinput : input ≠ [] := by
    rintro rfl
    simp [scanNumeral, scanMinus, expect, scanWhole] at h
  simp only [scanNumeral] at h ⊢
  obtain ⟨⟨whole, behind⟩, hwhole, hrest⟩ := Option.map_eq_some_iff.mp h
  simp only [Prod.mk.injEq] at hrest
  obtain ⟨hnumeral, hleft⟩ := hrest
  rw [← hleft] at delimited
  have hfraction : (scanFraction behind).2 ≠ [] := scanExponent_ne_nil delimited
  have hpoint := scanExponent_no_point delimited
  have hbehind : behind ≠ [] := by
    rintro rfl
    exact hfraction (by simp [scanFraction, expect])
  rw [scanMinus_append hinput, scanWhole_append hwhole hbehind]
  simp only [Option.map_some, scanFraction_append more hfraction hpoint,
    scanExponent_append more delimited, hnumeral, hleft]

theorem scanUnit_append {input left : List Char} {unit : ℕ}
    (h : scanUnit input = some (unit, left)) (more : List Char) :
    scanUnit (input ++ more) = some (unit, left ++ more) := by
  match input, h with
  | first :: second :: third :: fourth :: rest, h =>
      simp only [scanUnit, Option.bind_eq_bind, Option.bind_eq_some_iff, Option.some.injEq,
        Prod.mk.injEq] at h
      obtain ⟨a, ha, b, hb, c, hc, d, hd, hunit, hleft⟩ := h
      simp [scanUnit, ha, hb, hc, hd, hunit, hleft]

theorem scanEscape_append {input left : List Char} {code : ℕ}
    (h : scanEscape input = some (code, left)) (more : List Char) :
    scanEscape (input ++ more) = some (code, left ++ more) := by
  cases input with
  | nil => simp [scanEscape] at h
  | cons first rest =>
      simp only [scanEscape, List.cons_append] at h ⊢
      by_cases hunicode : first = 'u'
      · subst hunicode
        simp only [Char.reduceEq, if_false, if_true] at h ⊢
        exact scanUnit_append h more
      · simp only [hunicode, if_false] at h ⊢
        split_ifs at h ⊢ <;> simp_all

theorem scanString_append {fuel : ℕ} {input left : List Char} {codes : List ℕ}
    (h : scanString fuel input = some (codes, left)) {extra : ℕ} (hfuel : fuel ≤ extra)
    (more : List Char) : scanString extra (input ++ more) = some (codes, left ++ more) := by
  induction fuel generalizing input codes left extra with
  | zero => simp [scanString] at h
  | succ fuel ih =>
      obtain ⟨extra, rfl⟩ : ∃ less, extra = less + 1 := ⟨extra - 1, by omega⟩
      cases input with
      | nil => simp [scanString] at h
      | cons first rest =>
          simp only [scanString, List.cons_append] at h ⊢
          by_cases hquote : first = '"'
          · simp_all
          rw [if_neg hquote] at h ⊢
          by_cases hslash : first = '\\'
          · rw [if_pos hslash] at h ⊢
            simp only [Option.bind_eq_bind, Option.bind_eq_some_iff, Option.some.injEq,
              Prod.mk.injEq, Prod.exists] at h
            obtain ⟨code, behind, hescape, inner, rest, hstring, hcodes, hleft⟩ := h
            rw [scanEscape_append hescape]
            simp only [Option.bind_eq_bind, Option.bind_some]
            rw [ih hstring (by omega)]
            simp [hcodes, hleft]
          · rw [if_neg hslash] at h ⊢
            by_cases hcontrol : first.toNat < 32
            · rw [if_pos hcontrol] at h
              cases h
            · rw [if_neg hcontrol] at h ⊢
              simp only [Option.bind_eq_bind, Option.bind_eq_some_iff, Option.some.injEq,
                Prod.mk.injEq, Prod.exists] at h
              obtain ⟨inner, rest, hstring, hcodes, hleft⟩ := h
              rw [ih hstring (by omega)]
              simp [hcodes, hleft]

theorem expectAll_append {word input left : List Char} (h : expectAll word input = some left)
    (more : List Char) : expectAll word (input ++ more) = some (left ++ more) := by
  induction word generalizing input with
  | nil => simpa [expectAll] using h
  | cons char word ih =>
      simp only [expectAll, Option.bind_eq_some_iff] at h ⊢
      obtain ⟨behind, hexpect, hword⟩ := h
      refine ⟨behind ++ more, ?_, ih hword⟩
      rw [expect_some] at hexpect ⊢
      rw [hexpect]
      rfl

/-! ## Values -/

theorem scanItems_ne_nil {fuel : ℕ} {input : List Char} {result : List Json × List Char}
    (h : scanItems fuel input = some result) : input ≠ [] := by
  rintro rfl
  cases fuel with
  | zero => simp [scanItems] at h
  | succ fuel => cases fuel <;> simp [scanItems, scanValue] at h

theorem scanFields_ne_nil {fuel : ℕ} {input : List Char}
    {result : List (List Char × Json) × List Char}
    (h : scanFields fuel input = some result) : input ≠ [] := by
  rintro rfl
  cases fuel <;> simp [scanFields, expect] at h

/-- The closing bracket found behind blanks stays found with more input. -/
theorem expect_skipBlanks_append {char : Char} {input left : List Char}
    (h : expect char (skipBlanks input) = some left) (more : List Char) :
    expect char (skipBlanks (input ++ more)) = some (left ++ more) := by
  have hcons := expect_some.mp h
  have hne : skipBlanks input ≠ [] := by
    rw [hcons]
    exact List.cons_ne_nil char left
  rw [skipBlanks_append hne, expect_append hne, h]
  rfl

theorem expect_skipBlanks_none_append {char : Char} {input : List Char}
    (hne : skipBlanks input ≠ []) (h : expect char (skipBlanks input) = none) (more : List Char) :
    expect char (skipBlanks (input ++ more)) = none := by
  rw [skipBlanks_append hne, expect_append hne, h]
  rfl

theorem skipBlanks_ne_nil_of_expect {char : Char} {input left : List Char}
    (h : expect char (skipBlanks input) = some left) : skipBlanks input ≠ [] := by
  rw [expect_some.mp h]
  exact List.cons_ne_nil char left

/-- A number needs a delimiter behind it to be complete, an object does not. -/
def Complete (input left : List Char) : Prop :=
  Delimited left ∨ ∃ rest, input = '{' :: rest

def ValueAppends (fuel : ℕ) : Prop :=
  ∀ {input left : List Char} {value : Json}, scanValue fuel input = some (value, left) →
    Complete input left → ∀ {extra : ℕ}, fuel ≤ extra → ∀ more : List Char,
      scanValue extra (input ++ more) = some (value, left ++ more)

def ItemsAppend (fuel : ℕ) : Prop :=
  ∀ {input left : List Char} {items : List Json}, scanItems fuel input = some (items, left) →
    ∀ {extra : ℕ}, fuel ≤ extra → ∀ more : List Char,
      scanItems extra (input ++ more) = some (items, left ++ more)

def FieldsAppend (fuel : ℕ) : Prop :=
  ∀ {input left : List Char} {fields : List (List Char × Json)},
    scanFields fuel input = some (fields, left) →
    ∀ {extra : ℕ}, fuel ≤ extra → ∀ more : List Char,
      scanFields extra (input ++ more) = some (fields, left ++ more)

theorem itemsAppend_succ {fuel : ℕ} (values : ValueAppends fuel) (rest : ItemsAppend fuel) :
    ItemsAppend (fuel + 1) := by
  intro input left items h extra hfuel more
  obtain ⟨extra, rfl⟩ : ∃ less, extra = less + 1 := ⟨extra - 1, by omega⟩
  simp only [scanItems, Option.bind_eq_bind, Option.bind_eq_some_iff, Prod.exists] at h ⊢
  obtain ⟨item, behind, hitem, hrest⟩ := h
  cases hclose : expect ']' (skipBlanks behind) with
  | some found =>
      simp only [hclose, Option.some.injEq, Prod.mk.injEq] at hrest
      obtain ⟨rfl, rfl⟩ := hrest
      have hdelimited : Delimited behind :=
        delimited_of_skipBlanks (by decide) (expect_some.mp hclose)
      refine ⟨item, behind ++ more, values hitem (Or.inl hdelimited) (by omega) more, ?_⟩
      rw [expect_skipBlanks_append hclose]
  | none =>
      simp only [hclose, Option.bind_eq_some_iff, Prod.exists] at hrest
      obtain ⟨next, hcomma, others, tail, hothers, heq⟩ := hrest
      have hdelimited : Delimited behind :=
        delimited_of_skipBlanks (by decide) (expect_some.mp hcomma)
      refine ⟨item, behind ++ more, values hitem (Or.inl hdelimited) (by omega) more, ?_⟩
      rw [expect_skipBlanks_none_append (skipBlanks_ne_nil_of_expect hcomma) hclose,
        expect_skipBlanks_append hcomma]
      simp only [Option.bind_some, skipBlanks_append (scanItems_ne_nil hothers),
        rest hothers (show fuel ≤ extra by omega)]
      simp_all

theorem fieldsAppend_succ {fuel : ℕ} (values : ValueAppends fuel) (rest : FieldsAppend fuel) :
    FieldsAppend (fuel + 1) := by
  intro input left fields h extra hfuel more
  obtain ⟨extra, rfl⟩ : ∃ less, extra = less + 1 := ⟨extra - 1, by omega⟩
  simp only [scanFields, Option.bind_eq_bind, Option.bind_eq_some_iff, Prod.exists] at h ⊢
  obtain ⟨start, hquote, codes, behindKey, hkey, colon, hcolon, value, behind, hvalue, hrest⟩ := h
  have hquote' : expect '"' (input ++ more) = some (start ++ more) := by
    rw [expect_some] at hquote ⊢
    rw [hquote]
    rfl
  have hvalue_ne : skipBlanks colon ≠ [] := by
    intro hnil
    rw [hnil] at hvalue
    cases fuel <;> simp [scanValue] at hvalue
  refine ⟨start ++ more, hquote', codes, behindKey ++ more,
    scanString_append hkey (by omega) more, colon ++ more,
    expect_skipBlanks_append hcolon more, value, behind ++ more, ?_⟩
  rw [skipBlanks_append hvalue_ne]
  cases hclose : expect '}' (skipBlanks behind) with
  | some found =>
      simp only [hclose, Option.some.injEq, Prod.mk.injEq] at hrest
      obtain ⟨rfl, rfl⟩ := hrest
      have hdelimited : Delimited behind :=
        delimited_of_skipBlanks (by decide) (expect_some.mp hclose)
      refine ⟨values hvalue (Or.inl hdelimited) (by omega) more, ?_⟩
      rw [expect_skipBlanks_append hclose]
  | none =>
      simp only [hclose, Option.bind_eq_some_iff, Prod.exists] at hrest
      obtain ⟨next, hcomma, others, tail, hothers, heq⟩ := hrest
      have hdelimited : Delimited behind :=
        delimited_of_skipBlanks (by decide) (expect_some.mp hcomma)
      refine ⟨values hvalue (Or.inl hdelimited) (by omega) more, ?_⟩
      rw [expect_skipBlanks_none_append (skipBlanks_ne_nil_of_expect hcomma) hclose,
        expect_skipBlanks_append hcomma]
      simp only [Option.bind_some, skipBlanks_append (scanFields_ne_nil hothers),
        rest hothers (show fuel ≤ extra by omega)]
      simp_all

/-- A number starts with a digit, behind its sign if it has one. -/
theorem scanNumeral_start {input : List Char} {result : Decimal.Numeral × List Char}
    (h : scanNumeral input = some result) :
    ∃ first rest, first.isDigit = true ∧ (input = first :: rest ∨ input = '-' :: first :: rest) := by
  obtain ⟨⟨whole, behind⟩, hwhole, _⟩ := Option.map_eq_some_iff.mp h
  have hdigit : ∃ first rest, first.isDigit = true ∧ (scanMinus input).2 = first :: rest := by
    cases hstart : (scanMinus input).2 with
    | nil => simp [hstart, scanWhole] at hwhole
    | cons first rest =>
        refine ⟨first, rest, ?_, rfl⟩
        simp only [hstart, scanWhole] at hwhole
        split at hwhole
        · simp_all
        · split at hwhole
          · assumption
          · cases hwhole
  obtain ⟨first, rest, hfirst, hstart⟩ := hdigit
  refine ⟨first, rest, hfirst, ?_⟩
  unfold scanMinus at hstart
  cases hminus : expect '-' input with
  | none =>
      rw [hminus] at hstart
      exact Or.inl hstart
  | some tail =>
      rw [hminus] at hstart
      refine Or.inr ?_
      rw [expect_some.mp hminus, show tail = first :: rest from hstart]

theorem minusInfinity_none {input : List Char} {result : Decimal.Numeral × List Char}
    (h : scanNumeral input = some result) (more : List Char) :
    expectAll "-Infinity".toList (input ++ more) = none := by
  have hnot : ∀ {char : Char}, char.isDigit = true → char ≠ '-' ∧ char ≠ 'I' := by
    intro char hchar
    constructor <;> rintro rfl <;> exact absurd hchar (by decide)
  obtain ⟨first, rest, hfirst, rfl | rfl⟩ := scanNumeral_start h
  · simp [expectAll, expect, (hnot hfirst).1]
  · simp [expectAll, expect, (hnot hfirst).2]

theorem valueAppends_succ {fuel : ℕ} (items : ItemsAppend fuel) (fields : FieldsAppend fuel) :
    ValueAppends (fuel + 1) := by
  intro input left value h complete extra hfuel more
  obtain ⟨extra, rfl⟩ : ∃ less, extra = less + 1 := ⟨extra - 1, by omega⟩
  have hless : fuel ≤ extra := by omega
  cases input with
  | nil => simp [scanValue] at h
  | cons first rest =>
      simp only [scanValue, List.cons_append] at h ⊢
      split at h
      · -- a string
        rename_i hfirst
        rw [if_pos hfirst]
        obtain ⟨⟨codes, tail⟩, hstring, heq⟩ := Option.map_eq_some_iff.mp h
        simp only [Prod.mk.injEq] at heq
        obtain ⟨rfl, rfl⟩ := heq
        rw [scanString_append hstring hless]
        rfl
      rename_i hstring
      rw [if_neg hstring]
      split at h
      · -- an object
        rename_i hfirst
        rw [if_pos hfirst]
        cases hclose : expect '}' (skipBlanks rest) with
        | some found =>
            simp only [hclose, Option.some.injEq, Prod.mk.injEq] at h
            obtain ⟨rfl, rfl⟩ := h
            rw [expect_skipBlanks_append hclose]
        | none =>
            rw [hclose] at h
            obtain ⟨⟨inner, tail⟩, hinner, heq⟩ := Option.map_eq_some_iff.mp h
            simp only [Prod.mk.injEq] at heq
            obtain ⟨rfl, rfl⟩ := heq
            have hne := scanFields_ne_nil hinner
            rw [expect_skipBlanks_none_append hne hclose, skipBlanks_append hne]
            simp [fields hinner hless more]
      rename_i hobject
      rw [if_neg hobject]
      have delimited : Delimited left := by
        rcases complete with h | ⟨_, heq⟩
        · exact h
        · exact absurd (List.cons.inj heq).1 hobject
      split at h
      · -- a list
        rename_i hfirst
        rw [if_pos hfirst]
        cases hclose : expect ']' (skipBlanks rest) with
        | some found =>
            simp only [hclose, Option.some.injEq, Prod.mk.injEq] at h
            obtain ⟨rfl, rfl⟩ := h
            rw [expect_skipBlanks_append hclose]
        | none =>
            rw [hclose] at h
            obtain ⟨⟨inner, tail⟩, hinner, heq⟩ := Option.map_eq_some_iff.mp h
            simp only [Prod.mk.injEq] at heq
            obtain ⟨rfl, rfl⟩ := heq
            have hne := scanItems_ne_nil hinner
            rw [expect_skipBlanks_none_append hne hclose, skipBlanks_append hne]
            simp [items hinner hless more]
      rename_i hlist
      rw [if_neg hlist]
      cases hword : word? first with
      | some entry =>
          simp only [hword] at h
          obtain ⟨tail, htail, heq⟩ := Option.map_eq_some_iff.mp h
          simp only [Prod.mk.injEq] at heq
          obtain ⟨rfl, rfl⟩ := heq
          simp [expectAll_append htail more]
      | none =>
          simp only [hword] at h
          cases hminus : expectAll "-Infinity".toList (first :: rest) with
          | some found =>
              simp only [hminus, Option.some.injEq, Prod.mk.injEq] at h
              obtain ⟨rfl, rfl⟩ := h
              have happend := expectAll_append hminus more
              rw [List.cons_append] at happend
              simp only [happend]
          | none =>
              simp only [hminus] at h
              obtain ⟨⟨numeral, tail⟩, hnumeral, heq⟩ := Option.map_eq_some_iff.mp h
              simp only [Prod.mk.injEq] at heq
              obtain ⟨rfl, rfl⟩ := heq
              have hinfinity := minusInfinity_none hnumeral more
              have happend := scanNumeral_append hnumeral delimited more
              rw [List.cons_append] at hinfinity happend
              simp only [hinfinity, happend, Option.map_some]

theorem append_all (fuel : ℕ) : ValueAppends fuel ∧ ItemsAppend fuel ∧ FieldsAppend fuel := by
  induction fuel with
  | zero =>
      refine ⟨?_, ?_, ?_⟩
      · intro input left value h
        simp [scanValue] at h
      · intro input left items h
        simp [scanItems] at h
      · intro input left fields h
        simp [scanFields] at h
  | succ fuel ih =>
      obtain ⟨values, items, fields⟩ := ih
      exact ⟨valueAppends_succ items fields, itemsAppend_succ values items,
        fieldsAppend_succ values fields⟩

/-- A document whose text starts with a brace is no proper prefix of another
accepted text: the shorter one would already have been complete. -/
theorem loads_prefix_none {text rest : List Char} {value : Json}
    (hwhole : scanValue ('{' :: text ++ rest).length ('{' :: text ++ rest) = some (value, []))
    (hproper : rest ≠ []) : loads ('{' :: text) = none := by
  rw [Option.eq_none_iff_forall_ne_some]
  intro found hfound
  have hskip : skipBlanks ('{' :: text) = '{' :: text :=
    List.dropWhile_cons_of_neg (by decide)
  simp only [loads, hskip, Option.bind_eq_bind, Option.bind_eq_some_iff, Prod.exists] at hfound
  obtain ⟨inner, left, hscan, _⟩ := hfound
  have happend := (append_all _).1 hscan (Or.inr ⟨text, rfl⟩)
    (show ('{' :: text).length ≤ ('{' :: text ++ rest).length by simp) rest
  rw [hwhole] at happend
  simp only [Option.some.injEq, Prod.mk.injEq] at happend
  exact hproper (List.append_eq_nil_iff.mp happend.2.symm).2

end LorahamRns.Lib.Json
