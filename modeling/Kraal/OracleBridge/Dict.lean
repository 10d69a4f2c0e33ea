import Kraal.Foundation.JsonScanner
import Kraal.OracleBridge.ReplayDlq

/-!
# Reading JSON values

How the bridge looks into the values it has read: the operations of its language on dictionaries,
and what they say about values of another type.

Main results:

- Definitions {lit}`get`, {lit}`contains` and {lit}`item`: looking up a key.
- Theorem {lit}`Holds.sortKeys`: what is found under a key does not depend on the order of the keys.
-/

namespace Kraal
namespace OracleBridge

open Foundation

variable {F : Type}

/-! ## Operations -/

/-- The name of the type of a value. -/
def typeName : JsonValue F → String
  | .null => "NoneType"
  | .bool _ => "bool"
  | .int _ => "int"
  | .float _ => "float"
  | .str _ => "str"
  | .arr _ => "list"
  | .obj _ => "dict"

/-- An error of a type. -/
def typeError (message : String) : Failure :=
  ⟨"TypeError", message⟩

/-- The value under a key, with a default. -/
def get (v : JsonValue F) (key : String) (default : JsonValue F) :
    Except Failure (JsonValue F) :=
  match v with
  | .obj fields => .ok ((fields.lookup key).getD default)
  | v => .error ⟨"AttributeError", "'" ++ typeName v ++ "' object has no attribute 'get'"⟩

/-- Whether a value is a given text. -/
def equalsText (v : JsonValue F) (text : String) : Bool :=
  match v with
  | .str s => s == text
  | _ => false

/-- Whether a key is in a dictionary.  A list is searched for the text, a text for a part. -/
def contains (v : JsonValue F) (key : String) : Except Failure Bool :=
  match v with
  | .obj fields => .ok (fields.lookup key).isSome
  | .arr items => .ok (items.any fun item => equalsText item key)
  | .str s => .ok (occursIn key s)
  | v => .error (typeError ("argument of type '" ++ typeName v ++ "' is not iterable"))

/-- The value under a key that has to be there. -/
def item (v : JsonValue F) (key : String) : Except Failure (JsonValue F) :=
  match v with
  | .obj fields =>
      match fields.lookup key with
      | some held => .ok held
      | none => .error ⟨"KeyError", "'" ++ key ++ "'"⟩
  | .arr _ => .error (typeError "list indices must be integers or slices, not str")
  | .str _ => .error (typeError "string indices must be integers, not 'str'")
  | v => .error (typeError ("'" ++ typeName v ++ "' object is not subscriptable"))

/-- The length of a value. -/
def len (v : JsonValue F) : Except Failure Nat :=
  match v with
  | .str s => .ok s.length
  | .arr items => .ok items.length
  | .obj fields => .ok fields.length
  | v => .error (typeError ("object of type '" ++ typeName v ++ "' has no len()"))

/-- The first characters of a text, or the first items of a list. -/
def slice (v : JsonValue F) (length : Nat) : Except Failure (JsonValue F) :=
  match v with
  | .str s => .ok (.str (String.ofList (s.toList.take length)))
  | .arr items => .ok (.arr (items.take length))
  | .obj _ => .error (typeError "unhashable type: 'slice'")
  | v => .error (typeError ("'" ++ typeName v ++ "' object is not subscriptable"))

/-- The number that a value is, if it is one. -/
def numeric (floats : FloatFormat F) : JsonValue F → Option ℚ
  | .int n => some n
  | .bool b => some (if b then 1 else 0)
  | .float x => floats.value x
  | _ => none

/-- Whether a value is equal to an integer. -/
def equalsInt (floats : FloatFormat F) (v : JsonValue F) (n : Int) : Bool :=
  numeric floats v == some (n : ℚ)

/-- Whether a value counts as true. -/
def truthy (floats : FloatFormat F) : JsonValue F → Bool
  | .null => false
  | .str s => s != ""
  | .arr items => !items.isEmpty
  | .obj fields => !fields.isEmpty
  | v => !equalsInt floats v 0

/-! ## What is under a key -/

/-- A value is a dictionary that holds a value under a key. -/
def Holds (v : JsonValue F) (key : String) (held : JsonValue F) : Prop :=
  ∃ fields, v = .obj fields ∧ fields.lookup key = some held

variable {v held default : JsonValue F} {key : String}

/-- A value that is held is got. -/
theorem Holds.get (h : Holds v key held) (default : JsonValue F) :
    get v key default = .ok held := by
  obtain ⟨fields, rfl, hlookup⟩ := h
  rw [OracleBridge.get, hlookup]
  rfl

/-- A key that is held is found. -/
theorem Holds.contains (h : Holds v key held) : contains v key = .ok true := by
  obtain ⟨fields, rfl, hlookup⟩ := h
  rw [OracleBridge.contains, hlookup]
  rfl

/-- A value that is held is the item. -/
theorem Holds.item (h : Holds v key held) : item v key = .ok held := by
  obtain ⟨fields, rfl, hlookup⟩ := h
  rw [OracleBridge.item, hlookup]

/-- A key has one value. -/
theorem Holds.unique {held' : JsonValue F} (h : Holds v key held) (h' : Holds v key held') :
    held = held' := by
  have hget := h.get .null
  rw [h'.get .null] at hget
  exact (Except.ok.inj hget).symm

/-- What is found is the default, or it is held. -/
theorem get_eq_ok (h : get v key default = .ok held) : Holds v key held ∨ held = default := by
  cases v with
  | obj fields =>
      rw [get, Except.ok.injEq] at h
      cases hlookup : fields.lookup key with
      | none =>
          rw [hlookup] at h
          exact Or.inr h.symm
      | some found =>
          rw [hlookup, Option.getD_some] at h
          exact Or.inl ⟨fields, rfl, by rw [hlookup, h]⟩
  | _ => cases h

/-- An item is held. -/
theorem item_eq_ok (h : item v key = .ok held) : Holds v key held := by
  cases v with
  | obj fields =>
      rw [item] at h
      split at h
      · rename_i found hlookup
        exact ⟨fields, rfl, by rw [hlookup, Except.ok.inj h]⟩
      · cases h
  | _ => cases h

/-- What is found under a key does not depend on the order of the keys. -/
theorem Holds.sortKeys (h : Holds v key held) (hdistinct : v.KeysDistinct) :
    Holds v.sortKeys key held.sortKeys := by
  obtain ⟨fields, rfl, hlookup⟩ := h
  cases hdistinct with
  | obj hnodup _ =>
      refine ⟨JsonValue.sortFields fields, JsonValue.sortKeys_obj fields, ?_⟩
      rw [JsonValue.lookup_sortFields hnodup, hlookup]
      rfl

/-- What is held with the keys in order is held without. -/
theorem holds_of_sortKeys (h : Holds v.sortKeys key held) (hdistinct : v.KeysDistinct) :
    ∃ found, Holds v key found ∧ held = found.sortKeys := by
  obtain ⟨sorted, hsorted, hlookup⟩ := h
  cases hdistinct with
  | obj hnodup _ =>
      rw [JsonValue.sortKeys_obj, JsonValue.obj.injEq] at hsorted
      rw [← hsorted, JsonValue.lookup_sortFields hnodup, Option.map_eq_some_iff] at hlookup
      obtain ⟨found, hfound, hheld⟩ := hlookup
      exact ⟨found, ⟨_, rfl, hfound⟩, hheld.symm⟩
  | _ => cases hsorted

/-- A value that is held has distinct keys. -/
theorem Holds.keysDistinct (h : Holds v key held) (hdistinct : v.KeysDistinct) :
    held.KeysDistinct := by
  obtain ⟨fields, rfl, hlookup⟩ := h
  cases hdistinct with
  | obj hnodup hfields =>
      exact hfields (key, held) ((lookup_eq_some_iff_mem hnodup).mp hlookup)

end OracleBridge
end Kraal
