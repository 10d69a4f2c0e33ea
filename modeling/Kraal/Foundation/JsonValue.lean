import Kraal.Foundation.Entries
import Mathlib.Data.List.Nodup
import Mathlib.Data.List.Sort
import Mathlib.Data.String.Basic

/-!
# JSON values

A JSON value is a scalar, an array or an object, and the fields of an object have an order.  The
values are generic in the type of the floating point numbers.

Main results:

- Theorem {lit}`JsonValue.values_induction`: induction over the values inside a value.
- Theorem {lit}`JsonValue.sortKeys_sortKeys`: fields that are in order stay as they are.
- Theorem {lit}`JsonValue.lookup_sortFields`: what an object holds does not depend on the order.
- Theorem {lit}`JsonValue.sortKeys_eq_iff`: which values are equal with their keys in order.
-/

namespace Foundation

/-- A value that can be written as JSON. -/
inductive JsonValue (F : Type) where
  | null
  | bool (b : Bool)
  | int (n : Int)
  | float (x : F)
  | str (s : String)
  | arr (items : List (JsonValue F))
  | obj (fields : List (String × JsonValue F))

namespace JsonValue

variable {F : Type}

/-- Induction over the values inside a value. -/
theorem values_induction {P : JsonValue F → Prop} (hnull : P .null) (hbool : ∀ b, P (.bool b))
    (hint : ∀ n, P (.int n)) (hfloat : ∀ x, P (.float x)) (hstr : ∀ s, P (.str s))
    (harr : ∀ items, (∀ item ∈ items, P item) → P (.arr items))
    (hobj : ∀ fields : List (String × JsonValue F), (∀ field ∈ fields, P field.2) →
      P (.obj fields)) :
    ∀ v, P v
  | .null => hnull
  | .bool b => hbool b
  | .int n => hint n
  | .float x => hfloat x
  | .str s => hstr s
  | .arr items => harr items fun item hitem =>
      have := List.sizeOf_lt_of_mem hitem
      values_induction hnull hbool hint hfloat hstr harr hobj item
  | .obj fields => hobj fields fun field hfield =>
      have := List.sizeOf_lt_of_mem hfield
      values_induction hnull hbool hint hfloat hstr harr hobj field.2
termination_by v => sizeOf v
decreasing_by
  · simp only [arr.sizeOf_spec]
    omega
  · rcases field with ⟨key, value⟩
    simp only [Prod.mk.sizeOf_spec] at this
    simp only [obj.sizeOf_spec]
    omega

/-- The keys of every object of a value are distinct. -/
inductive KeysDistinct : JsonValue F → Prop
  | null : KeysDistinct .null
  | bool (b : Bool) : KeysDistinct (.bool b)
  | int (n : Int) : KeysDistinct (.int n)
  | float (x : F) : KeysDistinct (.float x)
  | str (s : String) : KeysDistinct (.str s)
  | arr {items : List (JsonValue F)} (hitems : ∀ item ∈ items, KeysDistinct item) :
      KeysDistinct (.arr items)
  | obj {fields : List (String × JsonValue F)} (hnodup : (fields.map Prod.fst).Nodup)
      (hfields : ∀ field ∈ fields, KeysDistinct field.2) : KeysDistinct (.obj fields)

/-! ## The order of the fields -/

/-- The order of two fields, by their keys. -/
def FieldLe (a b : String × JsonValue F) : Prop :=
  a.1 ≤ b.1

instance : DecidableRel (FieldLe (F := F)) :=
  fun a b => inferInstanceAs (Decidable (a.1 ≤ b.1))

instance : Std.Total (FieldLe (F := F)) :=
  ⟨fun a b => le_total a.1 b.1⟩

instance : IsTrans (String × JsonValue F) FieldLe :=
  ⟨fun _ _ _ hab hbc => le_trans hab hbc⟩

mutual

/-- A value with the fields of its objects in the order of their keys. -/
def sortKeys : JsonValue F → JsonValue F
  | .null => .null
  | .bool b => .bool b
  | .int n => .int n
  | .float x => .float x
  | .str s => .str s
  | .arr items => .arr (sortItems items)
  | .obj fields => .obj ((sortValues fields).insertionSort FieldLe)

/-- The items of an array with their keys in order. -/
def sortItems : List (JsonValue F) → List (JsonValue F)
  | [] => []
  | item :: items => sortKeys item :: sortItems items

/-- Fields whose values have their keys in order. -/
def sortValues : List (String × JsonValue F) → List (String × JsonValue F)
  | [] => []
  | (key, value) :: fields => (key, sortKeys value) :: sortValues fields

end

/-- A field with its value in order. -/
def sortField (field : String × JsonValue F) : String × JsonValue F :=
  (field.1, field.2.sortKeys)

theorem sortItems_eq_map (items : List (JsonValue F)) : sortItems items = items.map sortKeys := by
  induction items with
  | nil => rfl
  | cons item items ih => rw [sortItems, ih, List.map_cons]

theorem sortValues_eq_map (fields : List (String × JsonValue F)) :
    sortValues fields = fields.map sortField := by
  induction fields with
  | nil => rfl
  | cons field fields ih => rw [sortValues, ih, List.map_cons, sortField]

/-- The fields of an object in order. -/
def sortFields (fields : List (String × JsonValue F)) : List (String × JsonValue F) :=
  (fields.map sortField).insertionSort FieldLe

theorem sortKeys_arr (items : List (JsonValue F)) :
    sortKeys (.arr items) = .arr (items.map sortKeys) := by
  rw [sortKeys, sortItems_eq_map]

theorem sortKeys_obj (fields : List (String × JsonValue F)) :
    sortKeys (.obj fields) = .obj (sortFields fields) := by
  rw [sortKeys, sortValues_eq_map, sortFields]

theorem sortFields_perm (fields : List (String × JsonValue F)) :
    (sortFields fields).Perm (fields.map sortField) :=
  List.perm_insertionSort _ _

/-- Fields that are in order stay as they are. -/
theorem sortKeys_sortKeys (v : JsonValue F) : v.sortKeys.sortKeys = v.sortKeys := by
  induction v using values_induction with
  | hnull | hbool _ | hint _ | hfloat _ | hstr _ => rfl
  | harr items ih =>
      have hitems : (items.map sortKeys).map sortKeys = items.map sortKeys := by
        rw [List.map_map]
        exact List.map_congr_left fun item hitem => ih item hitem
      rw [sortKeys_arr, sortKeys_arr, hitems]
  | hobj fields ih =>
      have hfields : (fields.map sortField).map sortField = fields.map sortField := by
        rw [List.map_map]
        apply List.map_congr_left
        intro field hfield
        rw [Function.comp_apply, sortField, sortField, ih field hfield]
      have hsort : (sortFields fields).map sortField = sortFields fields := by
        rw [sortFields, List.map_insertionSort FieldLe FieldLe, hfields]
        exact fun _ _ _ _ => Iff.rfl
      have hsorted : (sortFields fields).Pairwise FieldLe := List.pairwise_insertionSort _ _
      rw [sortKeys_obj, sortKeys_obj, sortFields, hsort, hsorted.insertionSort_eq]

theorem map_fst_sortField (fields : List (String × JsonValue F)) :
    (fields.map sortField).map Prod.fst = fields.map Prod.fst := by
  rw [List.map_map]
  rfl

theorem nodup_sortFields {fields : List (String × JsonValue F)}
    (h : (fields.map Prod.fst).Nodup) : ((sortFields fields).map Prod.fst).Nodup := by
  rw [((sortFields_perm fields).map Prod.fst).nodup_iff, map_fst_sortField]
  exact h

/-- Keys that are distinct stay distinct. -/
theorem KeysDistinct.sortKeys {v : JsonValue F} (h : v.KeysDistinct) :
    v.sortKeys.KeysDistinct := by
  induction v using values_induction with
  | hnull | hbool _ | hint _ | hfloat _ | hstr _ => exact h
  | harr items ih =>
      cases h with
      | arr hitems =>
          rw [sortKeys_arr]
          apply KeysDistinct.arr
          intro item hitem
          obtain ⟨item', hitem', rfl⟩ := List.mem_map.mp hitem
          exact ih item' hitem' (hitems item' hitem')
  | hobj fields ih =>
      cases h with
      | obj hnodup hfields =>
          rw [sortKeys_obj]
          apply KeysDistinct.obj (nodup_sortFields hnodup)
          intro field hfield
          have hmem := (sortFields_perm fields).mem_iff.mp hfield
          obtain ⟨field', hfield', rfl⟩ := List.mem_map.mp hmem
          exact ih field' hfield' (hfields field' hfield')

/-! ## Reading a field -/

theorem lookup_map_sortField (fields : List (String × JsonValue F)) (key : String) :
    (fields.map sortField).lookup key = (fields.lookup key).map JsonValue.sortKeys := by
  induction fields with
  | nil => rfl
  | cons field fields ih =>
      rcases field with ⟨first, held⟩
      rw [List.map_cons, sortField, List.lookup_cons, List.lookup_cons, ih]
      cases key == first <;> rfl

/-- What an object holds does not depend on the order of its fields. -/
theorem lookup_sortFields {fields : List (String × JsonValue F)}
    (h : (fields.map Prod.fst).Nodup) (key : String) :
    (sortFields fields).lookup key = (fields.lookup key).map JsonValue.sortKeys := by
  rw [lookup_eq_of_perm (sortFields_perm fields) (nodup_sortFields h), lookup_map_sortField]

/-! ## Values that are the same up to the order of keys -/

/-- The same items, and under the same keys the same values, in any order of the keys. -/
inductive Reordered : JsonValue F → JsonValue F → Prop
  | null : Reordered .null .null
  | bool (b : Bool) : Reordered (.bool b) (.bool b)
  | int (n : Int) : Reordered (.int n) (.int n)
  | float (x : F) : Reordered (.float x) (.float x)
  | str (s : String) : Reordered (.str s) (.str s)
  | arr {items items' : List (JsonValue F)} (hitems : List.Forall₂ Reordered items items') :
      Reordered (.arr items) (.arr items')
  | obj {fields fields' : List (String × JsonValue F)}
      (hkeys : (fields.map Prod.fst).Perm (fields'.map Prod.fst))
      (hvalues : ∀ field ∈ fields, ∀ field' ∈ fields', field.1 = field'.1 →
        Reordered field.2 field'.2) :
      Reordered (.obj fields) (.obj fields')

/-- Fields in order are determined by which fields there are. -/
theorem sortFields_eq_of_perm {fields fields' : List (String × JsonValue F)}
    (hnodup : (fields.map Prod.fst).Nodup)
    (h : (fields.map sortField).Perm (fields'.map sortField)) :
    sortFields fields = sortFields fields' := by
  have hperm : (sortFields fields).Perm (sortFields fields') :=
    (sortFields_perm fields).trans (h.trans (sortFields_perm fields').symm)
  have hle : (sortFields fields).Pairwise FieldLe := List.pairwise_insertionSort _ _
  have hle' : (sortFields fields').Pairwise FieldLe := List.pairwise_insertionSort _ _
  refine hperm.eq_of_pairwise ?_ hle hle'
  intro a b ha hb hab hba
  have hkey : a.1 = b.1 := le_antisymm hab hba
  have hb' : b ∈ sortFields fields := hperm.mem_iff.mpr hb
  exact List.inj_on_of_nodup_map (nodup_sortFields hnodup) ha hb' hkey

/-- Lists with related items, in terms of what two functions of the items have in common. -/
theorem map_eq_map_iff_forall₂ {α β : Type} {f : α → β} {R : α → α → Prop} {xs ys : List α}
    (h : ∀ x ∈ xs, ∀ y ∈ ys, R x y ↔ f x = f y) :
    xs.map f = ys.map f ↔ List.Forall₂ R xs ys := by
  induction xs generalizing ys with
  | nil =>
      cases ys with
      | nil => simp
      | cons y ys => simp
  | cons x xs ih =>
      cases ys with
      | nil => simp
      | cons y ys =>
          have hrest := ih fun x' hx' y' hy' =>
            h x' (List.mem_cons_of_mem _ hx') y' (List.mem_cons_of_mem _ hy')
          rw [List.map_cons, List.map_cons, List.cons.injEq, List.forall₂_cons, hrest,
            h x List.mem_cons_self y List.mem_cons_self]

/-- Objects have the same fields, put in order, if they have the same keys and the same values
under them, put in order. -/
theorem sortFields_eq_iff {fields fields' : List (String × JsonValue F)}
    (hnodup : (fields.map Prod.fst).Nodup) (hnodup' : (fields'.map Prod.fst).Nodup) :
    sortFields fields = sortFields fields' ↔
      (fields.map Prod.fst).Perm (fields'.map Prod.fst) ∧
        ∀ field ∈ fields, ∀ field' ∈ fields', field.1 = field'.1 →
          field.2.sortKeys = field'.2.sortKeys := by
  constructor
  · intro h
    have hperm : (fields.map sortField).Perm (fields'.map sortField) := by
      have hsorted := sortFields_perm fields'
      rw [← h] at hsorted
      exact (sortFields_perm fields).symm.trans hsorted
    refine ⟨?_, ?_⟩
    · have hkeys := hperm.map Prod.fst
      rw [map_fst_sortField, map_fst_sortField] at hkeys
      exact hkeys
    · intro field hfield field' hfield' hkey
      have hmem := hperm.mem_iff.mp (List.mem_map_of_mem hfield)
      rcases List.mem_map.mp hmem with ⟨found, hfound, hsame⟩
      have hfirst : found.1 = field'.1 := (congrArg Prod.fst hsame).trans hkey
      obtain rfl := List.inj_on_of_nodup_map hnodup' hfound hfield' hfirst
      exact (congrArg Prod.snd hsame).symm
  · intro h
    rcases h with ⟨hkeys, hvalues⟩
    apply sortFields_eq_of_perm hnodup
    have hinjective : ∀ fields : List (String × JsonValue F), (fields.map Prod.fst).Nodup →
        (fields.map sortField).Nodup := by
      intro fields hnodup
      apply List.Nodup.of_map Prod.fst
      rw [map_fst_sortField]
      exact hnodup
    rw [List.perm_ext_iff_of_nodup (hinjective fields hnodup) (hinjective fields' hnodup')]
    intro a
    constructor
    · intro ha
      rcases List.mem_map.mp ha with ⟨field, hfield, rfl⟩
      have hkey := hkeys.mem_iff.mp (List.mem_map_of_mem hfield)
      rcases List.mem_map.mp hkey with ⟨field', hfield', hsame⟩
      have hvalue := hvalues field hfield field' hfield' hsame.symm
      exact List.mem_map.mpr ⟨field', hfield', Prod.ext hsame hvalue.symm⟩
    · intro ha
      rcases List.mem_map.mp ha with ⟨field', hfield', rfl⟩
      have hkey := hkeys.mem_iff.mpr (List.mem_map_of_mem hfield')
      rcases List.mem_map.mp hkey with ⟨field, hfield, hsame⟩
      have hvalue := hvalues field hfield field' hfield' hsame
      exact List.mem_map.mpr ⟨field, hfield, Prod.ext hsame hvalue⟩

/-- The order of keys is all that putting them in order forgets. -/
theorem sortKeys_eq_iff {v w : JsonValue F} (hv : v.KeysDistinct) (hw : w.KeysDistinct) :
    v.sortKeys = w.sortKeys ↔ Reordered v w := by
  induction v using values_induction generalizing w with
  | harr items ih =>
      cases hv with
      | arr hitems =>
          cases hw with
          | @arr items' hitems' =>
              have hrelated : ∀ item ∈ items, ∀ item' ∈ items',
                  Reordered item item' ↔ item.sortKeys = item'.sortKeys := by
                intro item hitem item' hitem'
                exact (ih item hitem (hitems item hitem) (hitems' item' hitem')).symm
              rw [sortKeys_arr, sortKeys_arr, JsonValue.arr.injEq,
                map_eq_map_iff_forall₂ hrelated]
              constructor
              · exact Reordered.arr
              · intro h
                cases h with
                | arr h => exact h
          | obj =>
              rw [sortKeys_arr, sortKeys_obj]
              exact iff_of_false (fun h => by cases h) fun h => by cases h
          | _ => exact iff_of_false (fun h => by cases h) fun h => by cases h
  | hobj fields ih =>
      cases hv with
      | obj hnodup hfields =>
          cases hw with
          | @obj fields' hnodup' hfields' =>
              have hrelated : ∀ field ∈ fields, ∀ field' ∈ fields',
                  field.2.sortKeys = field'.2.sortKeys ↔ Reordered field.2 field'.2 := by
                intro field hfield field' hfield'
                exact ih field hfield (hfields field hfield) (hfields' field' hfield')
              rw [sortKeys_obj, sortKeys_obj, JsonValue.obj.injEq,
                sortFields_eq_iff hnodup hnodup']
              constructor
              · intro h
                refine .obj h.1 fun field hfield field' hfield' hkey => ?_
                exact (hrelated field hfield field' hfield').mp
                  (h.2 field hfield field' hfield' hkey)
              · intro h
                cases h with
                | obj hkeys hvalues =>
                    refine ⟨hkeys, fun field hfield field' hfield' hkey => ?_⟩
                    exact (hrelated field hfield field' hfield').mpr
                      (hvalues field hfield field' hfield' hkey)
          | arr =>
              rw [sortKeys_arr, sortKeys_obj]
              exact iff_of_false (fun h => by cases h) fun h => by cases h
          | _ => exact iff_of_false (fun h => by cases h) fun h => by cases h
  | _ =>
      constructor
      · intro h
        -- only one constructor agrees with the value
        cases hw <;> cases h
        constructor
      · intro h
        cases h
        rfl

end JsonValue

end Foundation
