import Kraal.Foundation.JsonText
import Kraal.Foundation.Unambiguous
import Mathlib.Data.List.TakeWhile

/-!
# Reading JSON text

A scanner for JSON text with blanks between the tokens.  It takes the literals of floating point
numbers that are not numbers, and of an object whose keys come again it keeps the last values.

Main results:

- Definition {lit}`loads`: the value of a text.
- Theorem {lit}`scanNumber_append`: a number is read up to the next mark.
- Theorem {lit}`loads_dumps`: the text of a value is read back, with its keys in order.
- Theorem {lit}`dumps_eq_iff`: which values have the same text.
-/

namespace Foundation

variable {F : Type} (floats : FloatFormat F)

/-! ## Numbers -/

/-- The sign in front of a number, and what follows it. -/
def scanSign : List Char → List Char × List Char
  | '-' :: text => (['-'], text)
  | text => ([], text)

/-- The digits of an integer, without a zero in front. -/
def scanWhole : List Char → Option (List Char × List Char)
  | '0' :: text => some (['0'], text)
  | text =>
      if text.takeWhile Char.isDigit = [] then none
      else some (text.takeWhile Char.isDigit, text.dropWhile Char.isDigit)

/-- A point and the digits after it, if there are any. -/
def scanFraction : List Char → List Char × List Char
  | '.' :: text =>
      if text.takeWhile Char.isDigit = [] then ([], '.' :: text)
      else ('.' :: text.takeWhile Char.isDigit, text.dropWhile Char.isDigit)
  | text => ([], text)

/-- The sign of an exponent, and what follows it. -/
def scanExponentSign : List Char → List Char × List Char
  | '+' :: text => (['+'], text)
  | '-' :: text => (['-'], text)
  | text => ([], text)

/-- The exponent of a number, if there is one. -/
def scanExponent : List Char → List Char × List Char
  | [] => ([], [])
  | c :: text =>
      if c = 'e' ∨ c = 'E' then
        let (sign, digits) := scanExponentSign text
        if digits.takeWhile Char.isDigit = [] then ([], c :: text)
        else (c :: (sign ++ digits.takeWhile Char.isDigit), digits.dropWhile Char.isDigit)
      else ([], c :: text)

/-- The integer of a sign and digits. -/
def intOfDigits (sign digits : List Char) : Int :=
  if sign = [] then Nat.ofDigitChars 10 digits 0 else -Nat.ofDigitChars 10 digits 0

/-- A number at the front of a text.  It is an integer if it has no fraction and no exponent. -/
def scanNumber (text : List Char) : Option (JsonValue F × List Char) := do
  let (sign, text) := scanSign text
  let (whole, text) ← scanWhole text
  let (fraction, text) := scanFraction text
  let (exponent, text) := scanExponent text
  if fraction = [] ∧ exponent = [] then return (.int (intOfDigits sign whole), text)
  else
    let literal := sign ++ whole ++ fraction ++ exponent
    return (.float (floats.parse (String.ofList literal)), text)

/-! ## Values -/

/-- A literal at the front of a text. -/
def scanLiteral (literals : List (List Char × JsonValue F)) (text : List Char) :
    Option (JsonValue F × List Char) :=
  literals.findSome? fun literal =>
    if literal.1.isPrefixOf text then some (literal.2, text.drop literal.1.length) else none

/-- The words that stand for values. -/
def words : List (List Char × JsonValue F) :=
  [(['n', 'u', 'l', 'l'], .null), (['t', 'r', 'u', 'e'], .bool true),
    (['f', 'a', 'l', 's', 'e'], .bool false)]

/-- The literals of the floating point numbers that are not numbers. -/
def constants : List (List Char × JsonValue F) :=
  [(['N', 'a', 'N'], .float (floats.parse "NaN")),
    (['I', 'n', 'f', 'i', 'n', 'i', 't', 'y'], .float (floats.parse "Infinity")),
    (['-', 'I', 'n', 'f', 'i', 'n', 'i', 't', 'y'], .float (floats.parse "-Infinity"))]

/-- A value that is neither a string, an array nor an object. -/
def scanAtom (text : List Char) : Option (JsonValue F × List Char) :=
  scanLiteral words text <|> scanNumber floats text <|> scanLiteral (constants floats) text

/-- The blanks between tokens. -/
def isJsonBlank (c : Char) : Bool :=
  c = ' ' || c = '\t' || c = '\n' || c = '\r'

/-- A text without the blanks in front. -/
def skipBlanks (text : List Char) : List Char :=
  text.dropWhile isJsonBlank

mutual

/-- A value at the front of a text, and what follows it. -/
def scanValue : Nat → List Char → Option (JsonValue F × List Char)
  | 0, _ => none
  | _ + 1, [] => none
  | fuel + 1, c :: text =>
      if c = '\"' then do
        let (s, text) ← scanString text
        return (.str s, text)
      else if c = '[' then
        match skipBlanks text with
        | ']' :: text => some (.arr [], text)
        | text => do
            let (items, text) ← scanItems fuel text
            return (.arr items, text)
      else if c = '\x7b' then
        match skipBlanks text with
        | '\x7d' :: text => some (.obj [], text)
        | text => do
            let (pairs, text) ← scanPairs fuel text
            return (.obj (entriesOf pairs), text)
      else scanAtom floats (c :: text)

/-- The items up to the end of an array. -/
def scanItems : Nat → List Char → Option (List (JsonValue F) × List Char)
  | 0, _ => none
  | fuel + 1, text => do
      let (item, text) ← scanValue fuel text
      match skipBlanks text with
      | ']' :: text => return ([item], text)
      | ',' :: text => do
          let (items, text) ← scanItems fuel (skipBlanks text)
          return (item :: items, text)
      | _ => none

/-- The pairs of a key and a value up to the end of an object. -/
def scanPairs : Nat → List Char → Option (List (String × JsonValue F) × List Char)
  | 0, _ => none
  | _ + 1, [] => none
  | fuel + 1, c :: text =>
      if c = '\"' then do
        let (key, text) ← scanString text
        match skipBlanks text with
        | ':' :: text => do
            let (value, text) ← scanValue fuel (skipBlanks text)
            match skipBlanks text with
            | '\x7d' :: text => return ([(key, value)], text)
            | ',' :: text => do
                let (pairs, text) ← scanPairs fuel (skipBlanks text)
                return ((key, value) :: pairs, text)
            | _ => none
        | _ => none
      else none

end

/-- The value of a text that holds nothing else.  The fuel is enough for every text, since every
two calls take a character off it. -/
def loads (text : String) : Option (JsonValue F) := do
  let chars := text.toList
  let (v, rest) ← scanValue floats (2 * chars.length + 1) (skipBlanks chars)
  if skipBlanks rest = [] then return v else none

/-! ## Numbers up to the next mark -/

/-- Whether a character may go on with a number. -/
def isNumeric (c : Char) : Bool :=
  c.isDigit || c = '.' || c = 'e' || c = 'E' || c = '+' || c = '-'

/-- A text that does not go on with a number. -/
def EndsNumber (rest : List Char) : Prop :=
  Ends (fun c => isNumeric c = false) rest

variable {rest : List Char}

/-- What may come after a number. -/
theorem EndsNumber.cases (h : EndsNumber rest) :
    rest = [] ∨ ∃ c text, rest = c :: text ∧ c.isDigit = false ∧ c ≠ '.' ∧ c ≠ 'e' ∧ c ≠ 'E' ∧
      c ≠ '+' ∧ c ≠ '-' := by
  cases rest with
  | nil => exact Or.inl rfl
  | cons c text =>
      have hc := h c rfl
      simp only [isNumeric, Bool.or_eq_false_iff, decide_eq_false_iff_not] at hc
      obtain ⟨⟨⟨⟨⟨hdigit, hpoint⟩, he⟩, hE⟩, hplus⟩, hminus⟩ := hc
      exact Or.inr ⟨c, text, rfl, hdigit, hpoint, he, hE, hplus, hminus⟩

/-- Digits end with the number. -/
theorem takeWhile_append_of_ends (h : EndsNumber rest) (text : List Char) :
    (text ++ rest).takeWhile Char.isDigit = text.takeWhile Char.isDigit := by
  induction text with
  | nil =>
      rcases h.cases with rfl | ⟨c, rest, rfl, hdigit, -⟩
      · rfl
      · rw [List.nil_append, List.takeWhile_cons, hdigit]
        rfl
  | cons c text ih => rw [List.cons_append, List.takeWhile_cons, List.takeWhile_cons, ih]

/-- What follows the digits ends with the number. -/
theorem dropWhile_append_of_ends (h : EndsNumber rest) (text : List Char) :
    (text ++ rest).dropWhile Char.isDigit = text.dropWhile Char.isDigit ++ rest := by
  induction text with
  | nil =>
      rcases h.cases with rfl | ⟨c, rest, rfl, hdigit, -⟩
      · rfl
      · rw [List.nil_append, List.dropWhile_cons, hdigit]
        rfl
  | cons c text ih =>
      rw [List.cons_append, List.dropWhile_cons, List.dropWhile_cons, ih]
      split <;> rfl

/-- A text that does not start with a numeric character does not start with it when followed by
such a text either. -/
theorem EndsNumber.append_ne (h : EndsNumber rest) {c : Char} (hc : isNumeric c = true)
    {text : List Char} (hne : ∀ tail, text = c :: tail → False) (tail : List Char) :
    text ++ rest = c :: tail → False := by
  intro htail
  cases text with
  | nil =>
      have hfalse : isNumeric c = false := h c (by rw [← List.nil_append rest, htail]; rfl)
      rw [hc] at hfalse
      cases hfalse
  | cons d text => exact hne text (by rw [(List.cons.inj htail).1])

/-- The sign does not depend on what follows the number. -/
theorem scanSign_append (h : EndsNumber rest) (text : List Char) :
    scanSign (text ++ rest) = ((scanSign text).1, (scanSign text).2 ++ rest) := by
  fun_cases scanSign text with
  | case1 text => rfl
  | case2 text hminus =>
      rw [scanSign]
      exact h.append_ne rfl hminus

/-- The integer part does not depend on what follows the number. -/
theorem scanWhole_append (h : EndsNumber rest) (text : List Char) :
    scanWhole (text ++ rest) =
      (scanWhole text).map fun scanned => (scanned.1, scanned.2 ++ rest) := by
  fun_cases scanWhole text with
  | case1 text => rfl
  | case2 text hzero hnone =>
      rw [scanWhole, takeWhile_append_of_ends h, if_pos hnone]
      · rfl
      · exact h.append_ne rfl hzero
  | case3 text hzero hsome =>
      rw [scanWhole, takeWhile_append_of_ends h, dropWhile_append_of_ends h, if_neg hsome]
      · rfl
      · exact h.append_ne rfl hzero

/-- The fraction does not depend on what follows the number. -/
theorem scanFraction_append (h : EndsNumber rest) (text : List Char) :
    scanFraction (text ++ rest) = ((scanFraction text).1, (scanFraction text).2 ++ rest) := by
  fun_cases scanFraction text with
  | case1 text hnone =>
      rw [List.cons_append, scanFraction, takeWhile_append_of_ends h, if_pos hnone]
  | case2 text hsome =>
      rw [List.cons_append, scanFraction, takeWhile_append_of_ends h, dropWhile_append_of_ends h,
        if_neg hsome]
  | case3 text hpoint =>
      rw [scanFraction]
      exact h.append_ne rfl hpoint

/-- The sign of the exponent does not depend on what follows the number. -/
theorem scanExponentSign_append (h : EndsNumber rest) (text : List Char) :
    scanExponentSign (text ++ rest) =
      ((scanExponentSign text).1, (scanExponentSign text).2 ++ rest) := by
  fun_cases scanExponentSign text with
  | case1 text => rfl
  | case2 text => rfl
  | case3 text hplus hminus =>
      rw [scanExponentSign]
      · exact h.append_ne rfl hplus
      · exact h.append_ne rfl hminus

/-- The exponent does not depend on what follows the number. -/
theorem scanExponent_append (h : EndsNumber rest) (text : List Char) :
    scanExponent (text ++ rest) = ((scanExponent text).1, (scanExponent text).2 ++ rest) := by
  cases text with
  | nil =>
      rw [List.nil_append]
      rcases h.cases with rfl | ⟨c, rest, rfl, -, -, he, hE, -⟩
      · rfl
      · exact if_neg (by simp [he, hE])
  | cons c text =>
      rw [List.cons_append, scanExponent, scanExponent]
      split
      · simp only [scanExponentSign_append h, takeWhile_append_of_ends h,
          dropWhile_append_of_ends h]
        split <;> rfl
      · rfl

/-- A number is read up to the next mark. -/
theorem scanNumber_append (h : EndsNumber rest) (text : List Char) :
    scanNumber floats (text ++ rest) =
      (scanNumber floats text).map fun scanned => (scanned.1, scanned.2 ++ rest) := by
  unfold scanNumber
  simp only [scanSign_append h, scanWhole_append h]
  cases hwhole : scanWhole (scanSign text).2 with
  | none => rfl
  | some scanned =>
      simp only [Option.map_some, Option.bind_eq_bind, Option.bind_some, scanFraction_append h,
        scanExponent_append h]
      split <;> rfl

/-! ## The digits of an integer -/

/-- The digits of a number are digits. -/
theorem takeWhile_toDigits (n : Nat) :
    (Nat.toDigits 10 n).takeWhile Char.isDigit = Nat.toDigits 10 n := by
  rw [List.takeWhile_eq_self_iff]
  exact fun c hc => Nat.isDigit_of_mem_toDigits (by decide) (by decide) hc

/-- Nothing follows the digits of a number. -/
theorem dropWhile_toDigits (n : Nat) : (Nat.toDigits 10 n).dropWhile Char.isDigit = [] := by
  rw [List.dropWhile_eq_nil_iff]
  exact fun c hc => Nat.isDigit_of_mem_toDigits (by decide) (by decide) hc

/-- Only the digits of zero start with a zero. -/
theorem toDigits_cons {n : Nat} (h : 0 < n) :
    ∃ c text, Nat.toDigits 10 n = c :: text ∧ c ≠ '0' := by
  induction n using Nat.strong_induction_on with
  | _ n ih =>
      rcases Nat.lt_or_ge n 10 with hsmall | hlarge
      · have hdigit : ∀ n < 10, 0 < n → n.digitChar ≠ '0' := by decide
        rw [Nat.toDigits_of_lt_base hsmall]
        exact ⟨n.digitChar, [], rfl, hdigit n hsmall h⟩
      · obtain ⟨c, text, hdigits, hc⟩ := ih (n / 10) (by omega) (by omega)
        rw [Nat.toDigits_of_base_le (by decide) hlarge, hdigits]
        exact ⟨c, text ++ [Nat.digitChar (n % 10)], rfl, hc⟩

/-- The digits of a number are read. -/
theorem scanWhole_toDigits (n : Nat) :
    scanWhole (Nat.toDigits 10 n) = some (Nat.toDigits 10 n, []) := by
  rcases Nat.eq_zero_or_pos n with hzero | hpos
  · rw [hzero]
    rfl
  · obtain ⟨c, text, hdigits, hne⟩ := toDigits_cons hpos
    have htake := takeWhile_toDigits n
    have hdrop := dropWhile_toDigits n
    rw [hdigits] at htake hdrop ⊢
    rw [scanWhole, htake, hdrop]
    · rfl
    · intro tail htail
      exact hne (List.cons.inj htail).1

/-- The digits of a number have no sign. -/
theorem scanSign_toDigits (n : Nat) : scanSign (Nat.toDigits 10 n) = ([], Nat.toDigits 10 n) := by
  rw [scanSign]
  intro tail htail
  have hminus : '-' ∈ Nat.toDigits 10 n := by
    rw [htail]
    exact List.mem_cons_self
  exact absurd (Nat.isDigit_of_mem_toDigits (by decide) (by decide) hminus) (by decide)

/-- An integer is read back. -/
theorem scanNumber_intChars (n : Int) : scanNumber floats (intChars n) = some (.int n, []) := by
  cases n with
  | ofNat n =>
      simp only [scanNumber, intChars, scanSign_toDigits, scanWhole_toDigits]
      simp [scanFraction, scanExponent, intOfDigits]
  | negSucc n =>
      simp only [scanNumber, intChars, scanSign, scanWhole_toDigits]
      simp [scanFraction, scanExponent, intOfDigits, Int.negSucc_eq]

/-! ## Atoms up to the next mark -/

/-- Whether a literal or a number starts with a character. -/
def startsAtom (c : Char) : Bool :=
  c.isDigit || c = '-' || c = 'n' || c = 't' || c = 'f' || c = 'N' || c = 'I'

/-- A literal that is read is one of those. -/
theorem scanLiteral_eq_some {literals : List (List Char × JsonValue F)} {text : List Char}
    {scanned : JsonValue F × List Char} (h : scanLiteral literals text = some scanned) :
    ∃ literal ∈ literals, text = literal.1 ++ scanned.2 ∧ scanned.1 = literal.2 := by
  obtain ⟨literal, hmem, hsome⟩ := List.exists_of_findSome?_eq_some h
  split at hsome
  · rename_i hstart
    obtain ⟨rest, htext⟩ := List.isPrefixOf_iff_prefix.mp hstart
    rw [← htext, List.drop_left] at hsome
    rw [← Option.some.inj hsome]
    exact ⟨literal, hmem, htext.symm, rfl⟩
  · cases hsome

/-- An integer part starts with a digit. -/
theorem scanWhole_cons {text : List Char} {scanned : List Char × List Char}
    (h : scanWhole text = some scanned) : ∃ c tail, text = c :: tail ∧ c.isDigit = true := by
  fun_cases scanWhole text with
  | case1 text => exact ⟨'0', text, rfl, rfl⟩
  | case2 text hzero hnone =>
      rw [scanWhole, if_pos hnone] at h
      · cases h
      · exact hzero
  | case3 text hzero hsome =>
      cases text with
      | nil => exact absurd rfl hsome
      | cons c text =>
          refine ⟨c, text, rfl, ?_⟩
          by_contra hdigit
          exact hsome (List.takeWhile_cons_of_neg hdigit)

/-- A number starts with a digit or a sign. -/
theorem scanNumber_cons {text : List Char} {scanned : JsonValue F × List Char}
    (h : scanNumber floats text = some scanned) :
    ∃ c tail, text = c :: tail ∧ (c = '-' ∨ c.isDigit = true) := by
  fun_cases scanSign text with
  | case1 text => exact ⟨'-', text, rfl, Or.inl rfl⟩
  | case2 text hminus =>
      simp only [scanNumber, scanSign, Option.bind_eq_bind, Option.bind_eq_some_iff] at h
      obtain ⟨whole, hwhole, -⟩ := h
      obtain ⟨c, tail, htext, hdigit⟩ := scanWhole_cons hwhole
      exact ⟨c, tail, htext, Or.inr hdigit⟩

/-- The three ways to read an atom. -/
theorem scanAtom_cases {text : List Char} {scanned : JsonValue F × List Char}
    (h : scanAtom floats text = some scanned) :
    scanLiteral words text = some scanned ∨ scanNumber floats text = some scanned ∨
      scanLiteral (constants floats) text = some scanned := by
  unfold scanAtom at h
  cases hword : scanLiteral (words (F := F)) text with
  | some found =>
      rw [hword] at h
      exact Or.inl h
  | none =>
      rw [hword] at h
      cases hnumber : scanNumber floats text with
      | some found =>
          rw [hnumber] at h
          exact Or.inr (Or.inl h)
      | none =>
          rw [hnumber] at h
          exact Or.inr (Or.inr h)

/-- A scalar starts with one of its marks. -/
theorem scanAtom_cons {text : List Char} {scanned : JsonValue F × List Char}
    (h : scanAtom floats text = some scanned) :
    ∃ c tail, text = c :: tail ∧ startsAtom c = true := by
  rcases scanAtom_cases floats h with hword | hnumber | hconstant
  · obtain ⟨literal, hmem, htext, -⟩ := scanLiteral_eq_some hword
    simp only [words, List.mem_cons, List.not_mem_nil, or_false] at hmem
    rcases hmem with rfl | rfl | rfl
    · exact ⟨'n', _, htext, rfl⟩
    · exact ⟨'t', _, htext, rfl⟩
    · exact ⟨'f', _, htext, rfl⟩
  · obtain ⟨c, tail, htext, hc⟩ := scanNumber_cons floats hnumber
    refine ⟨c, tail, htext, ?_⟩
    rcases hc with hminus | hdigit
    · rw [hminus]
      rfl
    · rw [startsAtom, hdigit]
      rfl
  · obtain ⟨literal, hmem, htext, -⟩ := scanLiteral_eq_some hconstant
    simp only [constants, List.mem_cons, List.not_mem_nil, or_false] at hmem
    rcases hmem with rfl | rfl | rfl
    · exact ⟨'N', _, htext, rfl⟩
    · exact ⟨'I', _, htext, rfl⟩
    · exact ⟨'-', _, htext, rfl⟩

/-- No word starts like a number. -/
theorem scanLiteral_words_of_number {c : Char} (hc : c = '-' ∨ c.isDigit = true)
    (text : List Char) : scanLiteral (words (F := F)) (c :: text) = none := by
  cases hword : scanLiteral (words (F := F)) (c :: text) with
  | none => rfl
  | some found =>
      obtain ⟨literal, hmem, htext, -⟩ := scanLiteral_eq_some hword
      simp only [words, List.mem_cons, List.not_mem_nil, or_false] at hmem
      rcases hmem with rfl | rfl | rfl
      all_goals
        have hfirst := (List.cons.inj htext).1
        rw [hfirst] at hc
        exact absurd hc (by decide)

/-- A number is a scalar. -/
theorem scanAtom_of_scanNumber {text : List Char} {scanned : JsonValue F × List Char}
    (h : scanNumber floats text = some scanned) : scanAtom floats text = some scanned := by
  obtain ⟨c, tail, htext, hc⟩ := scanNumber_cons floats h
  have hwords := scanLiteral_words_of_number (F := F) hc tail
  rw [← htext] at hwords
  rw [scanAtom, hwords, h]
  rfl

/-- An atom is read up to the next mark. -/
theorem scanAtom_append (h : EndsNumber rest) {text : List Char} {v : JsonValue F}
    (hatom : scanAtom floats text = some (v, [])) :
    scanAtom floats (text ++ rest) = some (v, rest) := by
  rcases scanAtom_cases floats hatom with hword | hnumber | hconstant
  · obtain ⟨literal, hmem, htext, hv⟩ := scanLiteral_eq_some hword
    simp only [words, List.mem_cons, List.not_mem_nil, or_false] at hmem
    rw [List.append_nil] at htext
    change v = literal.2 at hv
    rw [htext, hv]
    rcases hmem with rfl | rfl | rfl
    · rfl
    · rfl
    · rfl
  · have happend := scanNumber_append floats h text
    rw [hnumber, Option.map_some, List.nil_append] at happend
    exact scanAtom_of_scanNumber floats happend
  · obtain ⟨literal, hmem, htext, hv⟩ := scanLiteral_eq_some hconstant
    simp only [constants, List.mem_cons, List.not_mem_nil, or_false] at hmem
    rw [List.append_nil] at htext
    change v = literal.2 at hv
    rw [htext, hv]
    rcases hmem with rfl | rfl | rfl
    · rfl
    · rfl
    · rfl

/-- The text of a number is one of the constants, or it has a fraction or an exponent, and it is
read back. -/
def FloatFormat.Regular (floats : FloatFormat F) : Prop :=
  ∀ x, scanAtom floats (floats.repr x).toList = some (.float x, [])

/-! ## The round trip -/

/-- A mark of a scalar is no other mark. -/
theorem startsAtom_ne {c d : Char} (hc : startsAtom c = true) (hd : startsAtom d = false) :
    c ≠ d := by
  intro hcd
  rw [hcd, hd] at hc
  cases hc

/-- A mark of a scalar is not blank. -/
theorem isJsonBlank_of_startsAtom {c : Char} (h : startsAtom c = true) :
    isJsonBlank c = false := by
  have hspace := startsAtom_ne (d := ' ') h rfl
  have htab := startsAtom_ne (d := '\t') h rfl
  have hline := startsAtom_ne (d := '\n') h rfl
  have hreturn := startsAtom_ne (d := '\r') h rfl
  simp [isJsonBlank, hspace, htab, hline, hreturn]

/-- The text of a value is read up to the next mark. -/
def ReadsBack (v : JsonValue F) : Prop :=
  ∀ fuel rest, 2 * (jsonChars floats v).length < fuel → EndsNumber rest →
    scanValue floats fuel (jsonChars floats v ++ rest) = some (v, rest)

/-- A value starts with a mark. -/
theorem scanValue_cons {fuel : Nat} {text : List Char} {scanned : JsonValue F × List Char}
    (h : scanValue floats fuel text = some scanned) :
    ∃ c tail, text = c :: tail ∧ isJsonBlank c = false ∧ c ≠ ']' := by
  cases fuel with
  | zero => cases h
  | succ fuel =>
      cases text with
      | nil => cases h
      | cons c tail =>
          refine ⟨c, tail, rfl, ?_⟩
          rw [scanValue] at h
          split_ifs at h with hquote hbracket hbrace
          · rw [hquote]
            exact ⟨rfl, by decide⟩
          · rw [hbracket]
            exact ⟨rfl, by decide⟩
          · rw [hbrace]
            exact ⟨rfl, by decide⟩
          · obtain ⟨d, tail', htext, hd⟩ := scanAtom_cons floats h
            rw [(List.cons.inj htext).1]
            exact ⟨isJsonBlank_of_startsAtom hd, startsAtom_ne hd rfl⟩

variable {floats}

/-- The text of a value does not start with a blank, nor with the end of an array. -/
theorem ReadsBack.cons {v : JsonValue F} (h : ReadsBack floats v) :
    ∃ c tail, jsonChars floats v = c :: tail ∧ isJsonBlank c = false ∧ c ≠ ']' := by
  have hscan := h (2 * (jsonChars floats v).length + 1) [] (Nat.lt_succ_self _) ends_nil
  rw [List.append_nil] at hscan
  exact scanValue_cons floats hscan

/-- Blanks end at a mark. -/
theorem skipBlanks_cons {c : Char} (h : isJsonBlank c = false) (text : List Char) :
    skipBlanks (c :: text) = c :: text := by
  rw [skipBlanks, List.dropWhile_cons, h]
  rfl

/-- A scalar that is read is read back. -/
theorem readsBack_of_atom {v : JsonValue F}
    (h : scanAtom floats (jsonChars floats v) = some (v, [])) : ReadsBack floats v := by
  intro fuel rest hfuel hrest
  cases fuel with
  | zero => exact absurd hfuel (Nat.not_lt_zero _)
  | succ fuel =>
      have hatom := scanAtom_append floats hrest h
      obtain ⟨c, tail, htext, hc⟩ := scanAtom_cons floats h
      rw [htext, List.cons_append] at hatom ⊢
      rw [scanValue, if_neg (startsAtom_ne hc rfl), if_neg (startsAtom_ne hc rfl),
        if_neg (startsAtom_ne hc rfl)]
      exact hatom

/-- A string is read back. -/
theorem readsBack_str (s : String) : ReadsBack floats (.str s) := by
  intro fuel rest hfuel hrest
  cases fuel with
  | zero => exact absurd hfuel (Nat.not_lt_zero _)
  | succ fuel =>
      obtain ⟨inner, htext, hscan⟩ := scanString_stringChars s rest
      rw [jsonChars, htext, scanValue, if_pos rfl, hscan]
      rfl

/-- Texts between commas start with the first one. -/
theorem intercalate_cons_cons_left (c : Char) (text : List Char) (texts : List (List Char)) :
    [','].intercalate ((c :: text) :: texts) = c :: [','].intercalate (text :: texts) := by
  cases texts with
  | nil => rw [List.intercalate_singleton, List.intercalate_singleton]
  | cons next texts =>
      rw [List.intercalate_cons_cons, List.intercalate_cons_cons]
      rfl

/-- The items of an array do not start with a blank, nor with the end of the array. -/
theorem ReadsBack.intercalate_cons {item : JsonValue F} (h : ReadsBack floats item)
    (texts : List (List Char)) :
    ∃ c tail, [','].intercalate (jsonChars floats item :: texts) = c :: tail ∧
      isJsonBlank c = false ∧ c ≠ ']' := by
  obtain ⟨c, tail, htext, hblank, hend⟩ := h.cons
  rw [htext, intercalate_cons_cons_left]
  exact ⟨c, _, rfl, hblank, hend⟩

/-- The items of an array are read up to its end. -/
theorem scanItems_intercalate {items : List (JsonValue F)} {item : JsonValue F}
    (h : ∀ read ∈ item :: items, ReadsBack floats read) (fuel : Nat) (rest : List Char)
    (hfuel : 2 * ([','].intercalate ((item :: items).map (jsonChars floats))).length + 1 < fuel) :
    scanItems floats fuel
        ([','].intercalate ((item :: items).map (jsonChars floats)) ++ ']' :: rest) =
      some (item :: items, rest) := by
  induction items generalizing item fuel with
  | nil =>
      cases fuel with
      | zero => exact absurd hfuel (Nat.not_lt_zero _)
      | succ fuel =>
          rw [List.map_singleton, List.intercalate_singleton] at hfuel ⊢
          have hitem := h item List.mem_cons_self fuel (']' :: rest) (by omega) (ends_cons rfl)
          rw [scanItems, hitem]
          rfl
  | cons next items ih =>
      cases fuel with
      | zero => exact absurd hfuel (Nat.not_lt_zero _)
      | succ fuel =>
          rw [List.map_cons, List.map_cons, List.intercalate_cons_cons, ← List.map_cons] at hfuel ⊢
          simp only [List.length_append, List.length_singleton] at hfuel
          have hnext := h next (List.mem_cons_of_mem _ List.mem_cons_self)
          have hrest : ∀ read ∈ next :: items, ReadsBack floats read :=
            fun read hread => h read (List.mem_cons_of_mem _ hread)
          have hitems := ih hrest fuel (by omega)
          have hitem := h item List.mem_cons_self fuel
            (',' :: ([','].intercalate ((next :: items).map (jsonChars floats)) ++ ']' :: rest))
            (by omega) (ends_cons rfl)
          obtain ⟨c, tail, htexts, hblank, -⟩ :=
            hnext.intercalate_cons (items.map (jsonChars floats))
          rw [List.append_assoc, List.append_assoc, scanItems, List.singleton_append, hitem]
          rw [List.map_cons, htexts, List.cons_append] at hitems ⊢
          change ((scanItems floats fuel (skipBlanks (c :: (tail ++ ']' :: rest)))).bind fun
            scanned => some (item :: scanned.1, scanned.2)) = _
          rw [skipBlanks_cons hblank, hitems]
          rfl

/-- An array is read back if its items are. -/
theorem readsBack_arr {items : List (JsonValue F)} (h : ∀ item ∈ items, ReadsBack floats item) :
    ReadsBack floats (.arr items) := by
  intro fuel rest hfuel hrest
  cases fuel with
  | zero => exact absurd hfuel (Nat.not_lt_zero _)
  | succ fuel =>
      rw [jsonChars, itemTexts_eq_map] at hfuel ⊢
      rw [List.cons_append, List.append_assoc, List.singleton_append, scanValue,
        if_neg (by decide), if_pos rfl]
      cases items with
      | nil => rfl
      | cons item items =>
          simp only [List.length_cons, List.length_append, List.length_nil] at hfuel
          have hitems := scanItems_intercalate h fuel rest (by omega)
          obtain ⟨c, tail, htexts, hblank, hend⟩ :=
            (h item List.mem_cons_self).intercalate_cons (items.map (jsonChars floats))
          rw [List.map_cons, htexts, List.cons_append] at hitems ⊢
          rw [skipBlanks_cons hblank]
          split
          · rename_i text htext
            exact absurd (List.cons.inj htext).1 hend
          · rw [hitems]
            rfl

/-- One pair is read, and what follows it tells whether the object ends. -/
theorem scanPairs_fieldChars {field : String × JsonValue F} (h : ReadsBack floats field.2)
    {fuel : Nat} {rest : List Char} (hfuel : 2 * (fieldChars floats field).length ≤ fuel)
    (hrest : EndsNumber rest) :
    scanPairs floats (fuel + 1) (fieldChars floats field ++ rest) =
      match skipBlanks rest with
      | '\x7d' :: text => some ([field], text)
      | ',' :: text => do
          let (pairs, text) ← scanPairs floats fuel (skipBlanks text)
          return (field :: pairs, text)
      | _ => none := by
  simp only [fieldChars, List.length_append, List.length_cons] at hfuel
  have hscan := h fuel rest (by omega) hrest
  obtain ⟨inner, htext, hkey⟩ := scanString_stringChars field.1
    (':' :: (jsonChars floats field.2 ++ rest))
  obtain ⟨c, tail, hchars, hblank, -⟩ := h.cons
  rw [fieldChars, List.append_assoc, List.cons_append, htext, scanPairs, if_pos rfl, hkey]
  rw [hchars, List.cons_append] at hscan ⊢
  change ((scanValue floats fuel (skipBlanks (c :: (tail ++ rest)))).bind _) = _
  rw [skipBlanks_cons hblank, hscan]
  rfl

/-- The pairs of an object start with a quote. -/
theorem intercalate_fieldChars (field : String × JsonValue F) (texts : List (List Char)) :
    ∃ tail, [','].intercalate (fieldChars floats field :: texts) = '\"' :: tail := by
  rw [fieldChars, stringChars, List.cons_append, intercalate_cons_cons_left]
  exact ⟨_, rfl⟩

/-- The pairs of an object are read up to its end. -/
theorem scanPairs_intercalate {fields : List (String × JsonValue F)} {field : String × JsonValue F}
    (h : ∀ read ∈ field :: fields, ReadsBack floats read.2) (fuel : Nat) (rest : List Char)
    (hfuel : 2 * ([','].intercalate ((field :: fields).map (fieldChars floats))).length < fuel) :
    scanPairs floats fuel
        ([','].intercalate ((field :: fields).map (fieldChars floats)) ++ '\x7d' :: rest) =
      some (field :: fields, rest) := by
  induction fields generalizing field fuel with
  | nil =>
      cases fuel with
      | zero => exact absurd hfuel (Nat.not_lt_zero _)
      | succ fuel =>
          rw [List.map_singleton, List.intercalate_singleton] at hfuel ⊢
          rw [scanPairs_fieldChars (h field List.mem_cons_self) (by omega) (ends_cons rfl)]
          rfl
  | cons next fields ih =>
      cases fuel with
      | zero => exact absurd hfuel (Nat.not_lt_zero _)
      | succ fuel =>
          rw [List.map_cons, List.map_cons, List.intercalate_cons_cons, ← List.map_cons] at hfuel ⊢
          simp only [List.length_append, List.length_singleton] at hfuel
          have hrest : ∀ read ∈ next :: fields, ReadsBack floats read.2 :=
            fun read hread => h read (List.mem_cons_of_mem _ hread)
          have hpairs := ih hrest fuel (by omega)
          obtain ⟨tail, htexts⟩ := intercalate_fieldChars next (fields.map (fieldChars floats))
          rw [List.append_assoc, List.append_assoc, List.singleton_append,
            scanPairs_fieldChars (h field List.mem_cons_self) (by omega) (ends_cons rfl)]
          rw [List.map_cons, htexts, List.cons_append] at hpairs ⊢
          change ((scanPairs floats fuel (skipBlanks ('\"' :: (tail ++ '\x7d' :: rest)))).bind fun
            scanned => some (field :: scanned.1, scanned.2)) = _
          rw [skipBlanks_cons rfl, hpairs]
          rfl

/-- An object is read back if its values are. -/
theorem readsBack_obj {fields : List (String × JsonValue F)}
    (hnodup : (fields.map Prod.fst).Nodup) (h : ∀ field ∈ fields, ReadsBack floats field.2) :
    ReadsBack floats (.obj fields) := by
  intro fuel rest hfuel hrest
  cases fuel with
  | zero => exact absurd hfuel (Nat.not_lt_zero _)
  | succ fuel =>
      rw [jsonChars, fieldTexts_eq_map] at hfuel ⊢
      rw [List.cons_append, List.append_assoc, List.singleton_append, scanValue,
        if_neg (by decide), if_neg (by decide), if_pos rfl]
      cases fields with
      | nil => rfl
      | cons field fields =>
          simp only [List.length_cons, List.length_append, List.length_nil] at hfuel
          have hpairs := scanPairs_intercalate h fuel rest (by omega)
          obtain ⟨tail, htexts⟩ := intercalate_fieldChars field (fields.map (fieldChars floats))
          rw [List.map_cons, htexts, List.cons_append] at hpairs ⊢
          rw [skipBlanks_cons rfl]
          change ((scanPairs floats fuel ('\"' :: (tail ++ '\x7d' :: rest))).bind fun
            scanned => some (JsonValue.obj (entriesOf scanned.1), scanned.2)) = _
          rw [hpairs, Option.bind_some, entriesOf_eq hnodup]

/-- Every value with distinct keys is read back. -/
theorem readsBack (hfloats : floats.Regular) {v : JsonValue F} (h : v.KeysDistinct) :
    ReadsBack floats v := by
  induction v using JsonValue.values_induction with
  | hnull => exact readsBack_of_atom rfl
  | hbool b => cases b <;> exact readsBack_of_atom rfl
  | hint n => exact readsBack_of_atom (scanAtom_of_scanNumber floats (scanNumber_intChars floats n))
  | hfloat x => exact readsBack_of_atom (hfloats x)
  | hstr s => exact readsBack_str s
  | harr items ih =>
      cases h with
      | arr hitems => exact readsBack_arr fun item hitem => ih item hitem (hitems item hitem)
  | hobj fields ih =>
      cases h with
      | obj hnodup hfields =>
          exact readsBack_obj hnodup fun field hfield => ih field hfield (hfields field hfield)

/-- A value is read back. -/
theorem loads_jsonChars (hfloats : floats.Regular) {v : JsonValue F} (h : v.KeysDistinct) :
    loads floats (String.ofList (jsonChars floats v)) = some v := by
  have hread := readsBack hfloats h
  obtain ⟨c, tail, htext, hblank, -⟩ := hread.cons
  have hscan := hread (2 * (jsonChars floats v).length + 1) [] (Nat.lt_succ_self _) ends_nil
  rw [List.append_nil] at hscan
  have hskip : skipBlanks (jsonChars floats v) = jsonChars floats v := by
    rw [htext, skipBlanks_cons hblank]
  rw [loads, String.toList_ofList, hskip, hscan]
  rfl

/-- The text of a value is read back, with its keys in order. -/
theorem loads_dumps (hfloats : floats.Regular) {v : JsonValue F} (h : v.KeysDistinct) :
    loads floats (dumps floats v) = some v.sortKeys :=
  loads_jsonChars hfloats h.sortKeys

/-- Values have the same text exactly if they are the same up to the order of keys. -/
theorem dumps_eq_iff (hfloats : floats.Regular) {v w : JsonValue F} (hv : v.KeysDistinct)
    (hw : w.KeysDistinct) : dumps floats v = dumps floats w ↔ v.Reordered w := by
  rw [← JsonValue.sortKeys_eq_iff hv hw]
  constructor
  · intro h
    have hread := loads_dumps hfloats hv
    rw [h, loads_dumps hfloats hw] at hread
    exact (Option.some.inj hread).symm
  · intro h
    rw [← dumps_sortKeys floats v, h, dumps_sortKeys]

end Foundation
