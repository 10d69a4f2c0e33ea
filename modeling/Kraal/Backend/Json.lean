import Mathlib.Data.List.Lex
import Mathlib.Data.Rat.Defs

/-!
# JSON values and their canonical text

The bodies of the requests are JSON values.  Their fingerprint is taken of a text with the
keys of every object in order, so that the order in which a client writes them does not
matter.

The text of a string and of a number is what the runtime prints for them, a parameter here.
A number is the one that the runtime has read, which is a double: the type has all of these and
more.

Main results:

- Definition {lit}`stableStringify`: the canonical text of a value.
-/

namespace Kraal
namespace Backend

/-- A JSON value.  The keys of an object are distinct. -/
inductive Json where
  | null
  | bool (b : Bool)
  | num (x : ℚ)
  | str (s : String)
  | arr (items : List Json)
  | obj (fields : List (String × Json))

/-- The value of a property, undefined if there is none. -/
def Json.field (name : String) : Json → Option Json
  | .obj fields => fields.lookup name
  | _ => none

/-- A number that is a positive integer, without a bound. -/
abbrev Quantity := { n : Int // 0 < n }

instance : DecidableEq Quantity := inferInstanceAs (DecidableEq { n : Int // 0 < n })

/-- The integer that a property holds if it is a positive one. -/
def isPositiveInt : Option Json → Option Quantity
  | some (.num x) => if h : x.den = 1 ∧ 0 < x.num then some ⟨x.num, h.2⟩ else none
  | _ => none

/-- The string that a property holds if it is a nonempty one. -/
def isNonEmptyString : Option Json → Option String
  | some (.str s) => if s = "" then none else some s
  | _ => none

/-! ## Canonical text -/

/-- How the runtime prints strings and numbers. -/
structure ScalarText where
  string : String → String
  number : ℚ → String

/-- The code units of a character in the encoding of the runtime. -/
def codeUnits (c : Char) : List Nat :=
  if c.toNat < 0x10000 then [c.toNat]
  else [0xd800 + (c.toNat - 0x10000) / 0x400, 0xdc00 + (c.toNat - 0x10000) % 0x400]

/-- The order in which the runtime compares strings: code unit by code unit. -/
def keyLe (a b : String) : Bool :=
  decide (a.toList.flatMap codeUnits ≤ b.toList.flatMap codeUnits)

/-- An entry of an object is printed as its key and its value. -/
def printEntry (print : ScalarText) (entry : String × String) : String :=
  print.string entry.1 ++ ":" ++ entry.2

mutual

/-- The text of a value, with the keys of its objects in order. -/
def stableStringify (print : ScalarText) : Json → String
  | .arr items => "[" ++ ",".intercalate (stringifyItems print items) ++ "]"
  | .obj fields =>
      "\x7b" ++ ",".intercalate (((stringifyFields print fields).mergeSort fun a b =>
        keyLe a.1 b.1).map (printEntry print)) ++ "\x7d"
  | .null => "null"
  | .bool b => if b then "true" else "false"
  | .num x => print.number x
  | .str s => print.string s

/-- The texts of the items of an array. -/
def stringifyItems (print : ScalarText) : List Json → List String
  | [] => []
  | item :: items => stableStringify print item :: stringifyItems print items

/-- The keys of an object with the texts of their values. -/
def stringifyFields (print : ScalarText) : List (String × Json) → List (String × String)
  | [] => []
  | (key, value) :: fields =>
      (key, stableStringify print value) :: stringifyFields print fields

end

end Backend
end Kraal
