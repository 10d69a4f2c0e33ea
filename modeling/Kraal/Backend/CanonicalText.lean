import Kraal.Backend.Idempotency
import Kraal.Foundation.Unambiguous
import Mathlib.Data.List.Nodup

/-!
# The canonical text tells JSON values apart

Two values have the same canonical text exactly if they are the same up to the order of the
keys of their objects.  Then a changed body never has the fingerprint text of the original
one, and a body whose keys are written in another order always has it.

Main results:

- Theorem {lit}`quoteJsonString_inj`: a quoted string is read off the front of any text.
- Theorem {lit}`stableStringify_congr`: the order of the keys does not matter.
- Theorem {lit}`unambiguous_text`: everything else does.
-/

namespace Kraal
namespace Backend

open Foundation

/-! ## The text of a string -/

/-- A character of a quoted string, escaped if it is a quote, a backslash or a control
character. -/
def escapeChar (c : Char) : List Char :=
  if c = '\x08' then ['\\', 'b']
  else if c = '\t' then ['\\', 't']
  else if c = '\n' then ['\\', 'n']
  else if c = '\x0c' then ['\\', 'f']
  else if c = '\r' then ['\\', 'r']
  else if c = '\"' then ['\\', '\"']
  else if c = '\\' then ['\\', '\\']
  else if c.toNat < 0x20 then
    ['\\', 'u', '0', '0', Nat.digitChar (c.toNat / 16), Nat.digitChar (c.toNat % 16)]
  else [c]

/-- The text that the runtime prints for a string. -/
def quoteJsonString (s : String) : String :=
  String.ofList ('\"' :: s.toList.flatMap escapeChar ++ ['\"'])

/-- The character that an escape stands for. -/
def unescape : List Char → Option Char
  | ['\\', 'b'] => some '\x08'
  | ['\\', 't'] => some '\t'
  | ['\\', 'n'] => some '\n'
  | ['\\', 'f'] => some '\x0c'
  | ['\\', 'r'] => some '\r'
  | ['\\', '\"'] => some '\"'
  | ['\\', '\\'] => some '\\'
  | ['\\', 'u', '0', '0', x, y] =>
      (List.range 32).findSome? fun n =>
        if Nat.digitChar (n / 16) = x ∧ Nat.digitChar (n % 16) = y then some (Char.ofNat n)
        else none
  | [c] => some c
  | _ => none

/-- A control character is read back. -/
theorem unescape_escapeChar_control : ∀ n < 32,
    unescape (escapeChar (Char.ofNat n)) = some (Char.ofNat n) := by
  decide

/-- Any other character but the quote and the backslash stands for itself. -/
theorem escapeChar_plain {c : Char} (hcontrol : ¬ c.toNat < 32) (hquote : c ≠ '\"')
    (hbackslash : c ≠ '\\') : escapeChar c = [c] := by
  have hne : ∀ d : Char, d.toNat < 32 → c ≠ d := by
    intro d hd hcd
    rw [hcd] at hcontrol
    exact hcontrol hd
  unfold escapeChar
  rw [if_neg (hne _ (by decide)), if_neg (hne _ (by decide)), if_neg (hne _ (by decide)),
    if_neg (hne _ (by decide)), if_neg (hne _ (by decide)), if_neg hquote, if_neg hbackslash,
    if_neg hcontrol]

set_option linter.auxLemma false in
/-- A character alone stands for itself, unless it is the backslash. -/
theorem unescape_singleton {c : Char} (hbackslash : c ≠ '\\') : unescape [c] = some c := by
  -- the overlapping literals leave the match without equations to rewrite with
  delta unescape unescape.match_1
  exact dif_neg hbackslash

/-- Every character is read back. -/
theorem unescape_escapeChar (c : Char) : unescape (escapeChar c) = some c := by
  by_cases hcontrol : c.toNat < 32
  · rw [← Char.ofNat_toNat c]
    exact unescape_escapeChar_control c.toNat hcontrol
  · by_cases hquote : c = '\"'
    · rw [hquote]
      decide
    · by_cases hbackslash : c = '\\'
      · rw [hbackslash]
        decide
      · rw [escapeChar_plain hcontrol hquote hbackslash]
        exact unescape_singleton hbackslash

/-- The three shapes of an escaped character. -/
inductive EscapeShape : List Char → Prop
  | plain {c : Char} (hquote : c ≠ '\"') (hbackslash : c ≠ '\\') : EscapeShape [c]
  | short {e : Char} (he : e ≠ 'u') : EscapeShape ['\\', e]
  | unicode (x y : Char) : EscapeShape ['\\', 'u', '0', '0', x, y]

/-- What the text of a character looks like. -/
theorem escapeChar_shape (c : Char) : EscapeShape (escapeChar c) := by
  unfold escapeChar
  repeat' split
  all_goals first
    | exact .unicode _ _
    | exact .short (by decide)
    | exact .plain (by assumption) (by assumption)

/-- The text of an escaped character tells where it ends. -/
theorem EscapeShape.append_inj {l l' rest rest' : List Char} (hl : EscapeShape l)
    (hl' : EscapeShape l') (h : l ++ rest = l' ++ rest') : l = l' ∧ rest = rest' := by
  cases hl with
  | plain hquote hbackslash =>
      cases hl' with
      | plain _ _ => simpa using h
      | short _ => exact absurd (List.cons.inj h).1 hbackslash
      | unicode _ _ => exact absurd (List.cons.inj h).1 hbackslash
  | short he =>
      cases hl' with
      | plain _ hbackslash => exact absurd (List.cons.inj h).1.symm hbackslash
      | short _ => simpa using h
      | unicode _ _ => exact absurd (List.cons.inj (List.cons.inj h).2).1 he
  | unicode _ _ =>
      cases hl' with
      | plain _ hbackslash => exact absurd (List.cons.inj h).1.symm hbackslash
      | short he => exact absurd (List.cons.inj (List.cons.inj h).2).1.symm he
      | unicode _ _ => simpa [and_assoc] using h

/-- The text of a character ends by itself. -/
theorem escapeChar_append_inj {c c' : Char} {rest rest' : List Char}
    (h : escapeChar c ++ rest = escapeChar c' ++ rest') : c = c' ∧ rest = rest' := by
  rcases (escapeChar_shape c).append_inj (escapeChar_shape c') h with ⟨hc, hrest⟩
  have hsome := unescape_escapeChar c
  rw [hc, unescape_escapeChar c', Option.some.injEq] at hsome
  exact ⟨hsome.symm, hrest⟩

/-- An escaped character does not start with a quote. -/
theorem EscapeShape.ne_quote {l rest rest' : List Char} (hl : EscapeShape l) :
    l ++ rest ≠ '\"' :: rest' := by
  intro h
  cases hl with
  | plain hquote _ => exact hquote (List.cons.inj h).1
  | short _ => exact absurd (List.cons.inj h).1 (by decide)
  | unicode _ _ => exact absurd (List.cons.inj h).1 (by decide)

/-- The text of a string ends with the quote. -/
theorem escaped_append_inj {s s' rest rest' : List Char}
    (h : s.flatMap escapeChar ++ '\"' :: rest = s'.flatMap escapeChar ++ '\"' :: rest') :
    s = s' ∧ rest = rest' := by
  induction s generalizing s' with
  | nil =>
      cases s' with
      | nil => exact ⟨rfl, (List.cons.inj h).2⟩
      | cons c' s' =>
          rw [List.flatMap_cons, List.append_assoc] at h
          exact absurd h.symm (escapeChar_shape c').ne_quote
  | cons c s ih =>
      rw [List.flatMap_cons, List.append_assoc] at h
      cases s' with
      | nil => exact absurd h (escapeChar_shape c).ne_quote
      | cons c' s' =>
          rw [List.flatMap_cons, List.append_assoc] at h
          rcases escapeChar_append_inj h with ⟨rfl, htail⟩
          rcases ih htail with ⟨rfl, hrest⟩
          exact ⟨rfl, hrest⟩

/-- The characters of a quoted string. -/
theorem toList_quoteJsonString (s : String) :
    (quoteJsonString s).toList = '\"' :: s.toList.flatMap escapeChar ++ ['\"'] :=
  String.toList_ofList

/-- A quoted string is read off the front of any text. -/
theorem quoteJsonString_inj {s s' : String} {rest rest' : List Char}
    (h : (quoteJsonString s).toList ++ rest = (quoteJsonString s').toList ++ rest') :
    s = s' ∧ rest = rest' := by
  simp only [toList_quoteJsonString, List.cons_append, List.append_assoc, List.nil_append,
    List.cons.injEq, true_and] at h
  rcases escaped_append_inj h with ⟨hs, hrest⟩
  exact ⟨String.toList_inj.mp hs, hrest⟩

/-! ## The order of the keys -/

/-- The code units of a character end by themselves. -/
theorem codeUnits_append_inj {c c' : Char} {rest rest' : List Nat}
    (h : codeUnits c ++ rest = codeUnits c' ++ rest') : c = c' ∧ rest = rest' := by
  have hc := c.valid
  have hc' := c'.valid
  unfold UInt32.isValidChar Nat.isValidChar at hc hc'
  change c.toNat < _ ∨ _ < c.toNat ∧ c.toNat < _ at hc
  change c'.toNat < _ ∨ _ < c'.toNat ∧ c'.toNat < _ at hc'
  rw [← Char.toNat_inj]
  unfold codeUnits at h
  split at h <;> split at h <;>
    simp only [List.cons_append, List.nil_append, List.cons.injEq] at h
  · exact h
  -- a surrogate is no character of its own
  · omega
  · omega
  · rcases h with ⟨hhigh, hlow, hrest⟩
    have hnat : c.toNat = c'.toNat := by omega
    exact ⟨hnat, hrest⟩

/-- A character has a code unit. -/
theorem codeUnits_ne_nil (c : Char) (rest : List Nat) : codeUnits c ++ rest ≠ [] := by
  unfold codeUnits
  split <;> simp

/-- The code units of some characters determine them. -/
theorem flatMap_codeUnits_inj {l l' : List Char} (h : l.flatMap codeUnits = l'.flatMap codeUnits) :
    l = l' := by
  induction l generalizing l' with
  | nil =>
      cases l' with
      | nil => rfl
      | cons c' l' => exact absurd h.symm (codeUnits_ne_nil c' _)
  | cons c l ih =>
      cases l' with
      | nil => exact absurd h (codeUnits_ne_nil c _)
      | cons c' l' =>
          rcases codeUnits_append_inj h with ⟨rfl, htail⟩
          rw [ih htail]

/-- Any two keys are in order one way or the other. -/
theorem keyLe_total (a b : String) : (keyLe a b || keyLe b a) = true := by
  simp only [keyLe, Bool.or_eq_true, decide_eq_true_eq]
  exact le_total _ _

/-- The order of keys is transitive. -/
theorem keyLe_trans {a b c : String} (hab : keyLe a b = true) (hbc : keyLe b c = true) :
    keyLe a c = true := by
  simp only [keyLe, decide_eq_true_eq] at hab hbc ⊢
  exact le_trans hab hbc

/-- The order of keys tells all keys apart. -/
theorem keyLe_antisymm {a b : String} (hab : keyLe a b = true) (hba : keyLe b a = true) :
    a = b := by
  simp only [keyLe, decide_eq_true_eq] at hab hba
  exact String.toList_inj.mp (flatMap_codeUnits_inj (le_antisymm hab hba))

/-! ## Values up to the order of keys -/

mutual

/-- Two values are the same up to the order of the keys of their objects. -/
inductive SameValue : Json → Json → Prop
  | null : SameValue .null .null
  | bool (b : Bool) : SameValue (.bool b) (.bool b)
  | num (x : ℚ) : SameValue (.num x) (.num x)
  | str (s : String) : SameValue (.str s) (.str s)
  | arr {items items' : List Json} (hitems : List.Forall₂ SameValue items items') :
      SameValue (.arr items) (.arr items')
  | obj {fields reordered fields' : List (String × Json)}
      (hfields : List.Forall₂ SameField fields reordered) (hperm : reordered.Perm fields') :
      SameValue (.obj fields) (.obj fields')

/-- Two fields have the same key and the same value. -/
inductive SameField : String × Json → String × Json → Prop
  | mk (key : String) {value value' : Json} (hvalue : SameValue value value') :
      SameField (key, value) (key, value')

end

/-- The keys of every object of a value are distinct. -/
inductive Json.KeysDistinct : Json → Prop
  | null : KeysDistinct .null
  | bool (b : Bool) : KeysDistinct (.bool b)
  | num (x : ℚ) : KeysDistinct (.num x)
  | str (s : String) : KeysDistinct (.str s)
  | arr {items : List Json} (hitems : ∀ item ∈ items, KeysDistinct item) :
      KeysDistinct (.arr items)
  | obj {fields : List (String × Json)} (hnodup : (fields.map Prod.fst).Nodup)
      (hfields : ∀ field ∈ fields, KeysDistinct field.2) : KeysDistinct (.obj fields)

/-- Induction over the values inside a value. -/
theorem Json.values_induction {P : Json → Prop} (hnull : P .null) (hbool : ∀ b, P (.bool b))
    (hnum : ∀ x, P (.num x)) (hstr : ∀ s, P (.str s))
    (harr : ∀ items, (∀ item ∈ items, P item) → P (.arr items))
    (hobj : ∀ fields : List (String × Json), (∀ field ∈ fields, P field.2) → P (.obj fields)) :
    ∀ v, P v
  | .null => hnull
  | .bool b => hbool b
  | .num x => hnum x
  | .str s => hstr s
  | .arr items => harr items fun item hitem =>
      have := List.sizeOf_lt_of_mem hitem
      values_induction hnull hbool hnum hstr harr hobj item
  | .obj fields => hobj fields fun field hfield =>
      have := List.sizeOf_lt_of_mem hfield
      values_induction hnull hbool hnum hstr harr hobj field.2
termination_by v => sizeOf v
decreasing_by
  · simp only [Json.arr.sizeOf_spec]
    omega
  · rcases field with ⟨key, value⟩
    simp only [Prod.mk.sizeOf_spec] at this
    simp only [Json.obj.sizeOf_spec]
    omega

/-! ## The order of the keys does not matter -/

variable {print : ScalarText}

/-- The texts of the items, one by one. -/
theorem stringifyItems_eq_map (print : ScalarText) (items : List Json) :
    stringifyItems print items = items.map (stableStringify print) := by
  induction items with
  | nil => rfl
  | cons item items ih => rw [stringifyItems, ih, List.map_cons]

/-- The text of the value of a field next to its key. -/
def fieldText (print : ScalarText) (field : String × Json) : String × String :=
  (field.1, stableStringify print field.2)

/-- The texts of the fields, one by one. -/
theorem stringifyFields_eq_map (print : ScalarText) (fields : List (String × Json)) :
    stringifyFields print fields = fields.map (fieldText print) := by
  induction fields with
  | nil => rfl
  | cons field fields ih => rw [stringifyFields, ih, List.map_cons, fieldText]

/-- The order of two fields. -/
def fieldLe (a b : String × Json) : Bool := keyLe a.1 b.1

/-- The fields of an object in the order of their keys. -/
def sortedFields (fields : List (String × Json)) : List (String × Json) := fields.mergeSort fieldLe

/-- No field is lost or gained in order. -/
theorem sortedFields_perm (fields : List (String × Json)) : (sortedFields fields).Perm fields :=
  List.mergeSort_perm _ _

/-- Lists with related items have the same image, if related items do. -/
theorem map_eq_of_forall₂ {α β : Type} {R : α → α → Prop} {f : α → β} {l l' : List α}
    (h : List.Forall₂ R l l') (hf : ∀ a ∈ l, ∀ a', R a a' → f a = f a') : l.map f = l'.map f := by
  induction h with
  | nil => rfl
  | cons hR _ ih =>
      rw [List.map_cons, List.map_cons, hf _ List.mem_cons_self _ hR,
        ih fun a ha => hf a (List.mem_cons_of_mem _ ha)]

/-- Entries with distinct keys are sorted in one way only. -/
theorem mergeSort_eq_of_perm {entries entries' : List (String × String)}
    (hnodup : (entries.map Prod.fst).Nodup) (hperm : entries.Perm entries') :
    (entries.mergeSort fun a b => keyLe a.1 b.1) =
      entries'.mergeSort fun a b => keyLe a.1 b.1 := by
  have hsorted : ∀ l : List (String × String),
      (l.mergeSort fun a b => keyLe a.1 b.1).Pairwise fun a b => keyLe a.1 b.1 = true :=
    List.pairwise_mergeSort (fun _ _ _ hab hbc => keyLe_trans hab hbc)
      (fun a b => keyLe_total a.1 b.1)
  apply List.Perm.eq_of_pairwise _ (hsorted entries) (hsorted entries')
  · exact (List.mergeSort_perm _ _).trans (hperm.trans (List.mergeSort_perm _ _).symm)
  · intro a b ha hb hab hba
    have ha' : a ∈ entries := List.mem_mergeSort.mp ha
    have hb' : b ∈ entries := hperm.mem_iff.mpr (List.mem_mergeSort.mp hb)
    exact List.inj_on_of_nodup_map hnodup ha' hb' (keyLe_antisymm hab hba)

/-- Values that are the same up to the order of keys have the same text. -/
theorem stableStringify_congr {v : Json} : ∀ {w : Json}, SameValue v w → v.KeysDistinct →
    stableStringify print v = stableStringify print w := by
  induction v using Json.values_induction with
  | hnull | hbool _ | hnum _ | hstr _ =>
      intro w hsame _
      cases hsame
      rfl
  | harr items ih =>
      intro w hsame hdistinct
      cases hsame with
      | arr hitems =>
          cases hdistinct with
          | arr hdistinct =>
              have htexts := map_eq_of_forall₂ hitems fun item hitem item' hsame =>
                ih item hitem hsame (hdistinct item hitem)
              simp only [stableStringify, stringifyItems_eq_map, htexts]
  | hobj fields ih =>
      intro w hsame hdistinct
      cases hsame with
      | obj hfields hperm =>
          cases hdistinct with
          | obj hnodup hdistinct =>
              have htexts := map_eq_of_forall₂ (f := fieldText print) hfields
                fun field hfield field' hsame => by
                  cases hsame with
                  | mk key hvalue =>
                      rw [fieldText, fieldText, ih _ hfield hvalue (hdistinct _ hfield)]
              have hkeys : ((fields.map (fieldText print)).map Prod.fst).Nodup := by
                rw [List.map_map]
                exact hnodup
              rw [stableStringify, stableStringify, stringifyFields_eq_map,
                stringifyFields_eq_map, mergeSort_eq_of_perm hkeys]
              rw [htexts]
              exact hperm.map _

/-! ## Everything else does -/

/-- The text of an object. -/
theorem stableStringify_obj (print : ScalarText) (fields : List (String × Json)) :
    stableStringify print (.obj fields) =
      "\x7b" ++ ",".intercalate ((sortedFields fields).map fun field =>
        printEntry print (fieldText print field)) ++ "\x7d" := by
  have hsort : (sortedFields fields).map (fieldText print) =
      (fields.map (fieldText print)).mergeSort fun a b => keyLe a.1 b.1 :=
    List.map_mergeSort fun _ _ _ _ => rfl
  rw [stableStringify, stringifyFields_eq_map, ← hsort, List.map_map]
  rfl

/-- What the runtime is known to print for strings and numbers. -/
structure PrintsJson (print : ScalarText) : Prop where
  string : ∀ s, print.string s = quoteJsonString s
  /-- Different numbers have different texts. -/
  number_injective : Function.Injective print.number
  /-- A number starts with a digit or a minus sign. -/
  number_first : ∀ x, ∃ c cs, (print.number x).toList = c :: cs ∧ (c.isDigit = true ∨ c = '-')
  /-- A number is written with digits, signs, a point and an exponent mark. -/
  number_chars : ∀ x, ∀ c ∈ (print.number x).toList,
    c.isDigit = true ∨ c = '-' ∨ c = '+' ∨ c = '.' ∨ c = 'e'

/-- The marks that may follow a value. -/
def Mark (c : Char) : Prop := c = ',' ∨ c = ']' ∨ c = '\x7d'

/-- The characters of the text of a value. -/
def text (print : ScalarText) (v : Json) : List Char := (stableStringify print v).toList

/-- The characters of a field. -/
def textOfField (print : ScalarText) (field : String × Json) : List Char :=
  (print.string field.1).toList ++ ':' :: text print field.2

/-- The text of null. -/
@[simp]
theorem text_null : text print .null = ['n', 'u', 'l', 'l'] := by
  rw [text, stableStringify]
  rfl

/-- The text of a boolean. -/
theorem text_bool (b : Bool) :
    text print (.bool b) = if b then ['t', 'r', 'u', 'e'] else ['f', 'a', 'l', 's', 'e'] := by
  rw [text, stableStringify]
  cases b <;> rfl

/-- The text of a number. -/
theorem text_num (x : ℚ) : text print (.num x) = (print.number x).toList := by
  rw [text, stableStringify]

/-- The text of a string. -/
theorem text_str (s : String) : text print (.str s) = (print.string s).toList := by
  rw [text, stableStringify]

/-- The text of an array. -/
theorem text_arr (items : List Json) :
    text print (.arr items) = '[' :: (separated ',' (text print) items ++ [']']) := by
  have hmap : (stringifyItems print items).map String.toList = items.map (text print) := by
    rw [stringifyItems_eq_map, List.map_map]
    rfl
  rw [text, stableStringify, String.toList_append, String.toList_append,
    String.toList_intercalate, hmap]
  rfl

/-- The text of an object. -/
theorem text_obj (fields : List (String × Json)) : text print (.obj fields) =
    '\x7b' :: (separated ',' (textOfField print) (sortedFields fields) ++ ['\x7d']) := by
  have hmap : ((sortedFields fields).map fun field =>
      printEntry print (fieldText print field)).map String.toList =
        (sortedFields fields).map (textOfField print) := by
    rw [List.map_map]
    apply List.map_congr_left
    intro field _
    simp [printEntry, fieldText, textOfField, text]
  rw [text, stableStringify_obj, String.toList_append, String.toList_append,
    String.toList_intercalate, hmap]
  rfl

/-- What the text of a value starts with. -/
def Starts : Json → Char → Prop
  | .null, c => c = 'n'
  | .bool true, c => c = 't'
  | .bool false, c => c = 'f'
  | .num _, c => c.isDigit = true ∨ c = '-'
  | .str _, c => c = '\"'
  | .arr _, c => c = '['
  | .obj _, c => c = '\x7b'

/-- A text starts with a character that tells the kind of its value. -/
theorem text_starts (hprint : PrintsJson print) (v : Json) :
    ∃ c cs, text print v = c :: cs ∧ Starts v c := by
  cases v with
  | null => exact ⟨'n', _, text_null, rfl⟩
  | bool b =>
      rw [text_bool]
      cases b with
      | true => exact ⟨'t', _, rfl, rfl⟩
      | false => exact ⟨'f', _, rfl, rfl⟩
  | num x =>
      rcases hprint.number_first x with ⟨c, cs, htext, hc⟩
      exact ⟨c, cs, by rw [text_num, htext], hc⟩
  | str s =>
      exact ⟨'\"', _, by rw [text_str, hprint.string, toList_quoteJsonString]; rfl, rfl⟩
  | arr items => exact ⟨'[', _, text_arr items, rfl⟩
  | obj fields => exact ⟨'\x7b', _, text_obj fields, rfl⟩

/-- A value does not start with a mark. -/
theorem Starts.not_mark {v : Json} {c : Char} (h : Starts v c) : ¬ Mark c := by
  intro hmark
  rcases hmark with rfl | rfl | rfl <;> rcases v with _ | (_ | _) | _ | _ | _ | _ <;>
    exact absurd h (by simp only [Starts]; decide)

/-- Two values that start with the same character are written in the same way. -/
inductive SameKind : Json → Json → Prop
  | null : SameKind .null .null
  | bool (b : Bool) : SameKind (.bool b) (.bool b)
  | num (x y : ℚ) : SameKind (.num x) (.num y)
  | str (s t : String) : SameKind (.str s) (.str t)
  | arr (items items' : List Json) : SameKind (.arr items) (.arr items')
  | obj (fields fields' : List (String × Json)) : SameKind (.obj fields) (.obj fields')

/-- Values that start alike are of the same kind. -/
theorem Starts.sameKind {v w : Json} {c : Char} (hv : Starts v c) (hw : Starts w c) :
    SameKind v w := by
  rcases v with _ | (_ | _) | _ | _ | _ | _ <;> rcases w with _ | (_ | _) | _ | _ | _ | _ <;>
    first
    | constructor
    -- a digit or a minus sign starts a number only
    | (obtain rfl : c = _ := hv; exact absurd hw (by simp only [Starts]; decide))
    | (obtain rfl : c = _ := hw; exact absurd hv (by simp only [Starts]; decide))

/-- The text of an item is not taken for the end of the array. -/
theorem opens_text (hprint : PrintsJson print) : Opens ']' (text print) := by
  intro v
  rcases text_starts hprint v with ⟨c, cs, htext, hstarts⟩
  exact ⟨c, cs, htext, fun hc => hstarts.not_mark (.inr (.inl hc))⟩

/-- The text of a field is not taken for the end of the object. -/
theorem opens_textOfField (hprint : PrintsJson print) : Opens '\x7d' (textOfField print) := by
  intro field
  rw [textOfField, hprint.string, toList_quoteJsonString]
  exact ⟨'\"', _, rfl, by decide⟩

/-- No character of a number is a mark. -/
theorem number_not_mark (hprint : PrintsJson print) (x : ℚ) :
    ∀ c ∈ (print.number x).toList, ¬ Mark c := by
  intro c hc hmark
  have hchar := hprint.number_chars x c hc
  rcases hmark with rfl | rfl | rfl <;> exact absurd hchar (by decide)

/-- A field is read up to the end of its value if its value is. -/
theorem unambiguous_field (hprint : PrintsJson print) {field : String × Json}
    (hvalue : Unambiguous Mark (text print) SameValue field.2) :
    Unambiguous Mark (textOfField print) SameField field := by
  intro field' rest rest' hrest hrest' h
  rcases field with ⟨key, value⟩
  rcases field' with ⟨key', value'⟩
  simp only [textOfField, hprint.string, List.append_assoc] at h
  rcases quoteJsonString_inj h with ⟨rfl, htail⟩
  rcases hvalue value' rest rest' hrest hrest' (List.cons.inj htail).2 with ⟨hsame, htail⟩
  exact ⟨.mk key hsame, htail⟩

/-- Values whose texts start alike are of the same kind. -/
theorem sameKind_of_append (hprint : PrintsJson print) {v w : Json} {rest rest' : List Char}
    (h : text print v ++ rest = text print w ++ rest') : SameKind v w := by
  rcases text_starts hprint v with ⟨c, cs, hv, hstarts⟩
  rcases text_starts hprint w with ⟨c', cs', hw, hstarts'⟩
  rw [hv, hw, List.cons_append, List.cons_append, List.cons.injEq] at h
  rw [← h.1] at hstarts'
  exact hstarts.sameKind hstarts'

/-- Where the text of a value stands, only the text of the same value can be read. -/
theorem unambiguous_text (hprint : PrintsJson print) (v : Json) :
    Unambiguous Mark (text print) SameValue v := by
  induction v using Json.values_induction with
  | hnull =>
      intro w rest rest' _ _ h
      cases sameKind_of_append hprint h
      exact ⟨.null, List.append_cancel_left h⟩
  | hbool b =>
      intro w rest rest' _ _ h
      cases sameKind_of_append hprint h
      exact ⟨.bool b, List.append_cancel_left h⟩
  | hnum x =>
      intro w rest rest' hrest hrest' h
      cases sameKind_of_append hprint h
      rename_i y
      rw [text_num, text_num] at h
      rcases append_inj_of_ends (number_not_mark hprint x) (number_not_mark hprint y) hrest hrest' h
        with ⟨hnumber, htail⟩
      rw [hprint.number_injective (String.toList_inj.mp hnumber)]
      exact ⟨.num y, htail⟩
  | hstr s =>
      intro w rest rest' _ _ h
      cases sameKind_of_append hprint h
      rw [text_str, text_str, hprint.string, hprint.string] at h
      rcases quoteJsonString_inj h with ⟨rfl, htail⟩
      exact ⟨.str s, htail⟩
  | harr items ih =>
      intro w rest rest' _ _ h
      cases sameKind_of_append hprint h
      rw [text_arr, text_arr, List.cons_append, List.cons_append, List.append_assoc,
        List.append_assoc] at h
      rcases unambiguous_separated (.inl rfl) (.inr (.inl rfl)) (by decide) (opens_text hprint) ih
        (List.cons.inj h).2 with ⟨hitems, htail⟩
      exact ⟨.arr hitems, htail⟩
  | hobj fields ih =>
      intro w rest rest' _ _ h
      cases sameKind_of_append hprint h
      rename_i fields'
      rw [text_obj, text_obj, List.cons_append, List.cons_append, List.append_assoc,
        List.append_assoc] at h
      have hsorted : ∀ field ∈ sortedFields fields,
          Unambiguous Mark (textOfField print) SameField field := fun field hfield =>
        unambiguous_field hprint (ih field ((sortedFields_perm fields).mem_iff.mp hfield))
      rcases unambiguous_separated (.inl rfl) (.inr (.inr rfl)) (by decide)
        (opens_textOfField hprint) hsorted (List.cons.inj h).2 with ⟨hfields, htail⟩
      -- the fields of the first object in their own order, next to those of the second one
      rcases List.perm_comp_forall₂ (sortedFields_perm fields).symm hfields with
        ⟨reordered, hreordered, hperm⟩
      exact ⟨.obj hreordered (hperm.trans (sortedFields_perm fields')), htail⟩

/-! ## Fingerprints -/

/-- The text that the fingerprint of a request is the hash of. -/
def fingerprintText (print : ScalarText) (req : Request) : String :=
  "POST " ++ req.path ++ "\n" ++ stableStringify print req.bodyOrEmpty

/-- The fingerprint is the digest of the canonical text. -/
theorem fingerprintOf_eq (rt : Runtime) (req : Request) :
    fingerprintOf rt req = rt.sha256Hex (fingerprintText rt.print req) :=
  rfl

/-- Two values have the same canonical text exactly if they are the same up to the order of
keys. -/
theorem stableStringify_eq_iff (hprint : PrintsJson print) {v w : Json} (hv : v.KeysDistinct) :
    stableStringify print v = stableStringify print w ↔ SameValue v w := by
  constructor
  · intro h
    have htexts : text print v ++ [] = text print w ++ [] := by rw [text, text, h]
    exact (unambiguous_text hprint v w [] [] ends_nil ends_nil htexts).1
  · intro hsame
    exact stableStringify_congr hsame hv

/-- The canonical texts are equal exactly for the same values, and so are the texts under the
fingerprints of two requests to one path. -/
theorem canonical_text_iff (hprint : PrintsJson print) :
    (∀ v w : Json, v.KeysDistinct → w.KeysDistinct →
      (stableStringify print v = stableStringify print w ↔ SameValue v w)) ∧
    ∀ req req' : Request, req.path = req'.path → req.bodyOrEmpty.KeysDistinct →
      req'.bodyOrEmpty.KeysDistinct →
      (fingerprintText print req = fingerprintText print req' ↔
        SameValue req.bodyOrEmpty req'.bodyOrEmpty) := by
  constructor
  · intro v w hv _
    exact stableStringify_eq_iff hprint hv
  · intro req req' hpath hbody _
    rw [← stableStringify_eq_iff hprint hbody, fingerprintText, fingerprintText, hpath,
      String.append_right_inj]

/-! ## Whole numbers in decimal -/

/-- Digits differ. -/
theorem digitChar_inj {m n : Nat} (hm : m < 10) (hn : n < 10)
    (h : m.digitChar = n.digitChar) : m = n := by
  have hcode := congrArg Char.toNat h
  rw [Nat.toNat_digitChar_of_lt_ten hm, Nat.toNat_digitChar_of_lt_ten hn] at hcode
  exact Nat.add_left_cancel hcode

/-- Numbers have different digits. -/
theorem toDigits_inj {m n : Nat} (h : Nat.toDigits 10 m = Nat.toDigits 10 n) : m = n := by
  induction m using Nat.strong_induction_on generalizing n with
  | _ m ih =>
      rw [Nat.toDigits_eq_if (by decide), Nat.toDigits_eq_if (n := n) (by decide)] at h
      split at h <;> split at h
      · rename_i hm hn
        exact digitChar_inj hm hn (List.singleton_inj.mp h)
      · simpa using congrArg List.length h
      · simpa using congrArg List.length h
      · obtain ⟨hinit, hlast⟩ := List.append_inj' h rfl
        have hrest : m / 10 = n / 10 := ih (m / 10) (by omega) hinit
        have hdigit : m % 10 = n % 10 :=
          digitChar_inj (Nat.mod_lt _ (by decide)) (Nat.mod_lt _ (by decide))
            (List.singleton_inj.mp hlast)
        omega

/-- The characters of an integer in decimal. -/
def intChars (a : Int) : List Char :=
  if 0 ≤ a then Nat.toDigits 10 a.toNat else '-' :: Nat.toDigits 10 (-a).toNat

/-- The text of an integer has digits and a sign. -/
theorem intChars_chars (a : Int) : ∀ c ∈ intChars a, c.isDigit = true ∨ c = '-' := by
  intro c hc
  unfold intChars at hc
  split at hc
  · exact .inl (Nat.isDigit_of_mem_toDigits (by decide) (by decide) hc)
  · rcases List.mem_cons.mp hc with hminus | hc
    · exact .inr hminus
    · exact .inl (Nat.isDigit_of_mem_toDigits (by decide) (by decide) hc)

/-- The text of an integer is not empty. -/
theorem intChars_ne_nil (a : Int) : intChars a ≠ [] := by
  unfold intChars
  split
  · exact Nat.toDigits_ne_nil
  · exact List.cons_ne_nil _ _

/-- Integers have different texts. -/
theorem intChars_inj {a b : Int} (h : intChars a = intChars b) : a = b := by
  have hdigits : ∀ (n m : Nat), Nat.toDigits 10 n ≠ '-' :: Nat.toDigits 10 m := by
    intro n m heq
    have hminus : '-' ∈ Nat.toDigits 10 n := by rw [heq]; exact List.mem_cons_self
    exact absurd (Nat.isDigit_of_mem_toDigits (by decide) (by decide) hminus) (by decide)
  unfold intChars at h
  split at h <;> split at h
  · have hnat := toDigits_inj h
    omega
  · exact absurd h (hdigits _ _)
  · exact absurd h.symm (hdigits _ _)
  · have hnat := toDigits_inj (List.cons.inj h).2
    omega

/-- A whole number in decimal, and any other number as a numerator, a point and a denominator,
which is enough to tell it apart. -/
def decimalText : ScalarText where
  string := quoteJsonString
  number x := String.ofList
    (intChars x.num ++ if x.den = 1 then [] else '.' :: Nat.toDigits 10 x.den)

/-- The text of a number. -/
theorem toList_decimalText (x : ℚ) : (decimalText.number x).toList =
    intChars x.num ++ if x.den = 1 then [] else '.' :: Nat.toDigits 10 x.den :=
  String.toList_ofList

/-- Such texts are those of JSON. -/
theorem printsJson_decimalText : PrintsJson decimalText where
  string _ := rfl
  number_injective := by
    intro x y h
    have htexts := congrArg String.toList h
    rw [toList_decimalText, toList_decimalText] at htexts
    -- the numerators end at the points
    have hpoint : ∀ a : Int, ∀ c ∈ intChars a, ¬ c = '.' := by
      intro a c hc hdot
      rcases intChars_chars a c hc with hdigit | hminus
      · rw [hdot] at hdigit
        exact absurd hdigit (by decide)
      · rw [hdot] at hminus
        exact absurd hminus (by decide)
    have hends : ∀ z : ℚ, Foundation.Ends (· = '.')
        (if z.den = 1 then [] else '.' :: Nat.toDigits 10 z.den) := by
      intro z
      split
      · exact ends_nil
      · exact ends_cons rfl
    rcases append_inj_of_ends (hpoint _) (hpoint _) (hends x) (hends y) htexts with ⟨hnum, hden⟩
    apply Rat.ext (intChars_inj hnum)
    split at hden <;> split at hden
    · rename_i hx hy
      rw [hx, hy]
    · cases hden
    · cases hden
    · exact toDigits_inj (List.cons.inj hden).2
  number_first := by
    intro x
    rw [toList_decimalText]
    rcases List.exists_cons_of_ne_nil (intChars_ne_nil x.num) with ⟨c, cs, hchars⟩
    refine ⟨c, _, by rw [hchars, List.cons_append], intChars_chars x.num c ?_⟩
    rw [hchars]
    exact List.mem_cons_self
  number_chars := by
    intro x c hc
    rw [toList_decimalText, List.mem_append] at hc
    rcases hc with hc | hc
    · rcases intChars_chars x.num c hc with hdigit | hminus
      · exact .inl hdigit
      · exact .inr (.inl hminus)
    · split at hc
      · cases hc
      · rcases List.mem_cons.mp hc with hdot | hc
        · exact .inr (.inr (.inr (.inl hdot)))
        · exact .inl (Nat.isDigit_of_mem_toDigits (by decide) (by decide) hc)

/-- The body of a retirement whose keys are written in two orders. -/
def retireBody : Json := .obj [("account", .str "GA"), ("amounts", .arr [.num 5, .null])]

/-- The same body with its keys the other way round. -/
def reorderedBody : Json := .obj [("amounts", .arr [.num 5, .null]), ("account", .str "GA")]

/-- No key comes twice in the two bodies. -/
theorem retireBody_keysDistinct : retireBody.KeysDistinct ∧ reorderedBody.KeysDistinct := by
  have hitems : ∀ item ∈ [Json.num 5, Json.null], item.KeysDistinct := by
    intro item hitem
    simp only [List.mem_cons, List.not_mem_nil, or_false] at hitem
    rcases hitem with rfl | rfl
    · exact .num 5
    · exact .null
  constructor
  · refine .obj (by decide) ?_
    intro field hfield
    simp only [List.mem_cons, List.not_mem_nil, or_false] at hfield
    rcases hfield with rfl | rfl
    · exact .str "GA"
    · exact .arr hitems
  · refine .obj (by decide) ?_
    intro field hfield
    simp only [List.mem_cons, List.not_mem_nil, or_false] at hfield
    rcases hfield with rfl | rfl
    · exact .arr hitems
    · exact .str "GA"

/-- The two bodies are the same but for the order. -/
theorem retireBody_same : SameValue retireBody reorderedBody := by
  have hitems : SameValue (.arr [.num 5, .null]) (.arr [.num 5, .null]) :=
    .arr (.cons (.num 5) (.cons .null .nil))
  exact .obj (.cons (.mk "account" (.str "GA")) (.cons (.mk "amounts" hitems) .nil)) (.swap _ _ _)

theorem retireBody_canonical_text :
    stableStringify decimalText retireBody = stableStringify decimalText reorderedBody ∧
    fingerprintText decimalText ⟨.retire, "/retire", none, some retireBody⟩ =
      fingerprintText decimalText ⟨.retire, "/retire", none, some reorderedBody⟩ :=
  ⟨((canonical_text_iff printsJson_decimalText).1 _ _ retireBody_keysDistinct.1
      retireBody_keysDistinct.2).mpr retireBody_same,
    ((canonical_text_iff printsJson_decimalText).2 ⟨.retire, "/retire", none, some retireBody⟩
      ⟨.retire, "/retire", none, some reorderedBody⟩ rfl retireBody_keysDistinct.1
      retireBody_keysDistinct.2).mpr retireBody_same⟩

end Backend
end Kraal
