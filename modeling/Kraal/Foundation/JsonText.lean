import Kraal.Foundation.Bytes
import Kraal.Foundation.JsonValue
import Mathlib.Data.Char
import Mathlib.Data.Rat.Defs

/-!
# JSON text

A value is written without blanks, in characters of ASCII.  A string is quoted, and what is not
printable in it is escaped by its code units.

Main results:

- Definitions {lit}`jsonChars` and {lit}`dumps`: the text of a value, and the text with sorted keys.
- Theorem {lit}`dumps_sortKeys`: the order of the keys does not matter to the text.
- Theorem {lit}`scanString_stringChars`: a quoted string is read off the front of any text.
-/

namespace Foundation

/-- How floating point numbers are written and read, and which rational numbers they are. -/
structure FloatFormat (F : Type) where
  repr : F → String
  parse : String → F
  value : F → Option ℚ

/-! ## Strings -/

/-- The code units of a character. -/
def utf16 (c : Char) : List Nat :=
  if c.toNat < 0x10000 then [c.toNat]
  else [0xd800 + (c.toNat - 0x10000) / 0x400, 0xdc00 + (c.toNat - 0x10000) % 0x400]

/-- The escape of a code unit, with four digits in lower case. -/
def escapeUnit (unit : Nat) : List Char :=
  ['\\', 'u', Nat.digitChar (unit / 0x1000), Nat.digitChar (unit / 0x100 % 16),
    Nat.digitChar (unit / 16 % 16), Nat.digitChar (unit % 16)]

/-- A character of a quoted string. -/
def escapeAscii (c : Char) : List Char :=
  if c = '\\' then ['\\', '\\']
  else if c = '\"' then ['\\', '\"']
  else if c = '\x08' then ['\\', 'b']
  else if c = '\x0c' then ['\\', 'f']
  else if c = '\n' then ['\\', 'n']
  else if c = '\r' then ['\\', 'r']
  else if c = '\t' then ['\\', 't']
  else if 0x20 ≤ c.toNat ∧ c.toNat ≤ 0x7e then [c]
  else (utf16 c).flatMap escapeUnit

/-- A string between quotes. -/
def stringChars (s : String) : List Char :=
  '\"' :: (s.toList.flatMap escapeAscii ++ ['\"'])

/-! ## Values -/

section Values

variable {F : Type} (floats : FloatFormat F)

/-- The decimal digits of an integer. -/
def intChars : Int → List Char
  | .ofNat n => Nat.toDigits 10 n
  | .negSucc n => '-' :: Nat.toDigits 10 (n + 1)

mutual

/-- The text of a value, with the fields in the order they have. -/
def jsonChars : JsonValue F → List Char
  | .null => ['n', 'u', 'l', 'l']
  | .bool true => ['t', 'r', 'u', 'e']
  | .bool false => ['f', 'a', 'l', 's', 'e']
  | .int n => intChars n
  | .float x => (floats.repr x).toList
  | .str s => stringChars s
  | .arr items => '[' :: ([','].intercalate (itemTexts items) ++ [']'])
  | .obj fields => '\x7b' :: ([','].intercalate (fieldTexts fields) ++ ['\x7d'])

/-- The texts of the items of an array. -/
def itemTexts : List (JsonValue F) → List (List Char)
  | [] => []
  | item :: items => jsonChars item :: itemTexts items

/-- The texts of the fields of an object. -/
def fieldTexts : List (String × JsonValue F) → List (List Char)
  | [] => []
  | (key, value) :: fields => (stringChars key ++ ':' :: jsonChars value) :: fieldTexts fields

end

/-- The text of a value with sorted keys. -/
def dumps (v : JsonValue F) : String :=
  String.ofList (jsonChars floats v.sortKeys)

/-- The text of a field. -/
def fieldChars (field : String × JsonValue F) : List Char :=
  stringChars field.1 ++ ':' :: jsonChars floats field.2

/-- The texts of the items, one by one. -/
theorem itemTexts_eq_map (items : List (JsonValue F)) :
    itemTexts floats items = items.map (jsonChars floats) := by
  induction items with
  | nil => rfl
  | cons item items ih => rw [itemTexts, ih, List.map_cons]

/-- The texts of the fields, one by one. -/
theorem fieldTexts_eq_map (fields : List (String × JsonValue F)) :
    fieldTexts floats fields = fields.map (fieldChars floats) := by
  induction fields with
  | nil => rfl
  | cons field fields ih => rw [fieldTexts, ih, List.map_cons, fieldChars]

/-- The order of the keys does not matter to the text. -/
theorem dumps_sortKeys (v : JsonValue F) : dumps floats v.sortKeys = dumps floats v := by
  rw [dumps, dumps, JsonValue.sortKeys_sortKeys]

end Values

/-! ## Reading a string -/

/-- The character that a short escape stands for. -/
def unescape (c : Char) : Option Char :=
  if c = '\"' then some '\"'
  else if c = '\\' then some '\\'
  else if c = '/' then some '/'
  else if c = 'b' then some '\x08'
  else if c = 'f' then some '\x0c'
  else if c = 'n' then some '\n'
  else if c = 'r' then some '\r'
  else if c = 't' then some '\t'
  else none

/-- The code unit of four digits in either case. -/
def readUnit (a b c d : Char) : Option Nat := do
  let a ← hexValue a
  let b ← hexValue b
  let c ← hexValue c
  let d ← hexValue d
  return ((a * 16 + b) * 16 + c) * 16 + d

/-- The code units up to the closing quote, and what follows it. -/
def scanUnits : List Char → Option (List Nat × List Char)
  | [] => none
  | '\"' :: text => some ([], text)
  | '\\' :: 'u' :: a :: b :: c :: d :: text => do
      let unit ← readUnit a b c d
      let (units, text) ← scanUnits text
      return (unit :: units, text)
  | '\\' :: c :: text => do
      let c ← unescape c
      let (units, text) ← scanUnits text
      return (c.toNat :: units, text)
  | c :: text =>
      -- a control character does not stand in a string
      if c.toNat < 0x20 then none
      else do
        let (units, text) ← scanUnits text
        return (c.toNat :: units, text)

/-- Whether a code unit is one of a pair. -/
def isSurrogate (unit : Nat) : Bool :=
  0xd800 ≤ unit && unit ≤ 0xdfff

/-- The characters of code units, if no half of a pair is left alone. -/
def joinUnits : List Nat → Option (List Char)
  | [] => some []
  | [unit] => if isSurrogate unit then none else some [Char.ofNat unit]
  | high :: low :: units =>
      if 0xd800 ≤ high ∧ high ≤ 0xdbff ∧ 0xdc00 ≤ low ∧ low ≤ 0xdfff then
        (joinUnits units).map fun chars =>
          Char.ofNat (0x10000 + ((high - 0xd800) * 0x400 + (low - 0xdc00))) :: chars
      else if isSurrogate high then none
      else (joinUnits (low :: units)).map fun chars => Char.ofNat high :: chars

/-- The string up to the closing quote, and what follows it. -/
def scanString (text : List Char) : Option (String × List Char) := do
  let (units, text) ← scanUnits text
  let chars ← joinUnits units
  return (String.ofList chars, text)

/-- A character is not a surrogate. -/
theorem toNat_valid (c : Char) : c.toNat < 0xd800 ∨ 0xdfff < c.toNat ∧ c.toNat < 0x110000 :=
  c.valid

/-- The digits of a code unit are read back. -/
theorem readUnit_digits {unit : Nat} (h : unit < 0x10000) :
    readUnit (Nat.digitChar (unit / 0x1000)) (Nat.digitChar (unit / 0x100 % 16))
      (Nat.digitChar (unit / 16 % 16)) (Nat.digitChar (unit % 16)) = some unit := by
  have hunit : ((unit / 0x1000 * 16 + unit / 0x100 % 16) * 16 + unit / 16 % 16) * 16 + unit % 16 =
      unit := by omega
  rw [readUnit, hexValue_digitChar (by omega), hexValue_digitChar (by omega),
    hexValue_digitChar (by omega), hexValue_digitChar (by omega)]
  exact congrArg some hunit

/-- A code unit has sixteen bits. -/
theorem utf16_lt {c : Char} {unit : Nat} (h : unit ∈ utf16 c) : unit < 0x10000 := by
  have hvalid := toNat_valid c
  unfold utf16 at h
  split at h
  · rw [List.mem_singleton] at h
    omega
  · simp only [List.mem_cons, List.not_mem_nil, or_false] at h
    omega

/-- Escaped code units are read back. -/
theorem scanUnits_escapeUnits {units : List Nat} (h : ∀ unit ∈ units, unit < 0x10000)
    (text : List Char) :
    scanUnits (units.flatMap escapeUnit ++ text) =
      (scanUnits text).map fun scanned => (units ++ scanned.1, scanned.2) := by
  induction units with
  | nil => cases hscan : scanUnits text <;> simp [hscan]
  | cons unit units ih =>
      have hunit := readUnit_digits (h unit List.mem_cons_self)
      rw [List.flatMap_cons, List.append_assoc, escapeUnit]
      simp only [List.cons_append, List.nil_append]
      rw [scanUnits, hunit, ih fun unit' hunit' => h unit' (List.mem_cons_of_mem _ hunit')]
      cases scanUnits text <;> rfl

/-- A character that stands for itself is read as it is. -/
theorem scanUnits_plain {c : Char} (hquote : c ≠ '\"') (hbackslash : c ≠ '\\')
    (hcontrol : ¬ c.toNat < 0x20) (text : List Char) :
    scanUnits (c :: text) =
      (scanUnits text).map fun scanned => (c.toNat :: scanned.1, scanned.2) := by
  rw [scanUnits.eq_def]
  split
  · simp_all
  · simp_all
  · simp_all
  · simp_all
  · rename_i c' text' h
    obtain ⟨rfl, rfl⟩ := List.cons.inj h
    rw [if_neg hcontrol]
    cases scanUnits text <;> rfl

/-- A short escape is read as the character it stands for. -/
theorem scanUnits_short {e c : Char} (he : e ≠ 'u') (hc : unescape e = some c)
    (hunits : utf16 c = [c.toNat]) (text : List Char) :
    scanUnits (['\\', e] ++ text) =
      (scanUnits text).map fun scanned => (utf16 c ++ scanned.1, scanned.2) := by
  have hscan : scanUnits ('\\' :: e :: text) = (do
      let c ← unescape e
      let (units, text) ← scanUnits text
      return (c.toNat :: units, text)) := by
    rw [scanUnits]
    intro _ _ _ _ _ h
    exact absurd h he
  rw [List.cons_append, List.singleton_append, hscan, hc, hunits]
  cases scanUnits text <;> rfl

/-- An escaped character is read as its code units. -/
theorem scanUnits_escapeAscii (c : Char) (text : List Char) :
    scanUnits (escapeAscii c ++ text) =
      (scanUnits text).map fun scanned => (utf16 c ++ scanned.1, scanned.2) := by
  unfold escapeAscii
  split_ifs with hbackslash hquote hb hf hn hr ht hprint
  · subst hbackslash
    exact scanUnits_short (by decide) rfl rfl text
  · subst hquote
    exact scanUnits_short (by decide) rfl rfl text
  · subst hb
    exact scanUnits_short (by decide) rfl rfl text
  · subst hf
    exact scanUnits_short (by decide) rfl rfl text
  · subst hn
    exact scanUnits_short (by decide) rfl rfl text
  · subst hr
    exact scanUnits_short (by decide) rfl rfl text
  · subst ht
    exact scanUnits_short (by decide) rfl rfl text
  · have hunits : utf16 c = [c.toNat] := if_pos (by omega)
    rw [List.singleton_append, scanUnits_plain hquote hbackslash (by omega), hunits]
    rfl
  · exact scanUnits_escapeUnits (fun unit hunit => utf16_lt hunit) text

/-- The text of a string is read up to its end. -/
theorem scanUnits_flatMap_escapeAscii (chars text : List Char) :
    scanUnits (chars.flatMap escapeAscii ++ '\"' :: text) = some (chars.flatMap utf16, text) := by
  induction chars with
  | nil => rfl
  | cons c chars ih =>
      rw [List.flatMap_cons, List.append_assoc, scanUnits_escapeAscii, ih, List.flatMap_cons]
      rfl

/-- The code units of a character are joined again. -/
theorem joinUnits_utf16 (c : Char) (units : List Nat) :
    joinUnits (utf16 c ++ units) = (joinUnits units).map fun chars => c :: chars := by
  have hvalid := toNat_valid c
  unfold utf16
  split
  · have hsurrogate : isSurrogate c.toNat = false := by
      simp only [isSurrogate, Bool.and_eq_false_iff, decide_eq_false_iff_not]
      omega
    cases units with
    | nil => simp [joinUnits, hsurrogate]
    | cons unit units =>
        rw [List.singleton_append, joinUnits, if_neg (by omega), hsurrogate, Char.ofNat_toNat]
        rfl
  · have hcode : 0x10000 + ((0xd800 + (c.toNat - 0x10000) / 0x400 - 0xd800) * 0x400 +
        (0xdc00 + (c.toNat - 0x10000) % 0x400 - 0xdc00)) = c.toNat := by omega
    rw [List.cons_append, List.singleton_append, joinUnits, if_pos (by omega), hcode,
      Char.ofNat_toNat]

/-- The code units of a string are joined back. -/
theorem joinUnits_flatMap_utf16 (chars : List Char) :
    joinUnits (chars.flatMap utf16) = some chars := by
  induction chars with
  | nil => rfl
  | cons c chars ih =>
      rw [List.flatMap_cons, joinUnits_utf16, ih]
      rfl

/-- A quoted string is read off the front of any text. -/
theorem scanString_stringChars (s : String) (text : List Char) :
    ∃ inner, stringChars s ++ text = '\"' :: inner ∧ scanString inner = some (s, text) := by
  refine ⟨s.toList.flatMap escapeAscii ++ '\"' :: text, by simp [stringChars], ?_⟩
  rw [scanString, scanUnits_flatMap_escapeAscii]
  change (joinUnits (s.toList.flatMap utf16)).bind _ = _
  rw [joinUnits_flatMap_utf16]
  change some (String.ofList s.toList, text) = some (s, text)
  rw [String.ofList_toList]

end Foundation
