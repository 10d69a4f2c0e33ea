import Mathlib.Algebra.Order.BigOperators.Group.List
import Mathlib.Data.List.AList
import Mathlib.Tactic.Ring

/-!
# Keyed storage

A finite map from keys to values with the operations of a key-value store:
reading, writing and removing a row.  It is Mathlib's association list, whose
keys are duplicate free by construction, with one lemma for each operation.
The second part sums a weight over all rows, the form in which totals over an
unbounded set of owners are stated.

Main results:

- Theorems {lit}`Storage.get_set` and {lit}`Storage.get_remove`: what a store
  holds after a write or a removal.
- Theorem {lit}`Storage.get_retain`: what a store holds when rows are removed by a condition.
- Theorems {lit}`Storage.sum_set` and {lit}`Storage.sum_remove`: the effect of
  one write or removal on the sum over all rows.
- Theorem {lit}`Storage.weightAt_le_sum`: with nonnegative weights, no row
  outweighs the sum, and {lit}`Storage.weightAt_add_le_sum` is the same for two rows.
-/

namespace Foundation

/-- A finite map from keys to values. -/
structure Storage (K V : Type) where
  rows : AList fun _ : K => V

namespace Storage

variable {K V : Type}

/-- The store without rows. -/
def empty : Storage K V := ⟨∅⟩

instance : Inhabited (Storage K V) := ⟨empty⟩

variable [DecidableEq K]

/-- The value stored under a key. -/
def get (s : Storage K V) (k : K) : Option V := s.rows.lookup k

/-- Write a row, replacing the row of the same key. -/
def set (s : Storage K V) (k : K) (v : V) : Storage K V := ⟨s.rows.insert k v⟩

/-- Remove the row of a key. -/
def remove (s : Storage K V) (k : K) : Storage K V := ⟨s.rows.erase k⟩

/-- Whether a row is stored under a key. -/
def has (s : Storage K V) (k : K) : Bool := (s.get k).isSome

theorem has_eq_false {s : Storage K V} {k : K} : s.has k = false ↔ s.get k = none := by
  simp [has]

@[simp]
theorem get_empty (k : K) : (empty : Storage K V).get k = none :=
  AList.lookup_empty k

theorem get_set (s : Storage K V) (k k' : K) (v : V) :
    (s.set k v).get k' = if k' = k then some v else s.get k' := by
  split
  · rename_i h
    subst h
    exact AList.lookup_insert s.rows
  · rename_i h
    exact AList.lookup_insert_ne h

@[simp]
theorem get_set_self (s : Storage K V) (k : K) (v : V) : (s.set k v).get k = some v := by
  rw [get_set, if_pos rfl]

theorem get_set_of_ne (s : Storage K V) {k k' : K} (v : V) (h : k' ≠ k) :
    (s.set k v).get k' = s.get k' := by
  rw [get_set, if_neg h]

/-- A row read after a write is the one written, or an old row under another key. -/
theorem get_set_eq_some {s : Storage K V} {k k' : K} {v v' : V} :
    (s.set k v).get k' = some v' ↔ k' = k ∧ v = v' ∨ k' ≠ k ∧ s.get k' = some v' := by
  rw [get_set]
  by_cases hkey : k' = k
  · simp [hkey]
  · simp [hkey]

/-- What holds of every row, and of a row that is written, holds of every row afterwards. -/
theorem forall_get_set {P : K → V → Prop} {s : Storage K V} {k : K} {v : V}
    (hs : ∀ k v, s.get k = some v → P k v) (hv : P k v) :
    ∀ k' v', (s.set k v).get k' = some v' → P k' v' := by
  intro k' v' h
  rcases get_set_eq_some.mp h with ⟨hkey, hvalue⟩ | ⟨-, hold⟩
  · rw [hkey, ← hvalue]
    exact hv
  · exact hs k' v' hold

/-- Rewriting a stored row keeps the set of stored keys. -/
theorem isSome_get_set {s : Storage K V} {k : K} {old new : V} (hold : s.get k = some old)
    (k' : K) : ((s.set k new).get k').isSome = (s.get k').isSome := by
  rw [get_set]
  by_cases hkey : k' = k
  · rw [if_pos hkey, hkey, hold]
    rfl
  · rw [if_neg hkey]

theorem get_remove (s : Storage K V) (k k' : K) :
    (s.remove k).get k' = if k' = k then none else s.get k' := by
  split
  · rename_i h
    subst h
    exact AList.lookup_erase k' s.rows
  · rename_i h
    exact AList.lookup_erase_ne h

/-! ## Removing many rows -/

omit [DecidableEq K] in
/-- The number of rows. -/
def size (s : Storage K V) : Nat := s.rows.entries.length

omit [DecidableEq K] in
/-- Keep the rows that satisfy a condition. -/
def retain (s : Storage K V) (keep : K → V → Bool) : Storage K V :=
  ⟨⟨s.rows.entries.filter fun row => keep row.1 row.2,
    s.rows.nodupKeys.sublist List.filter_sublist⟩⟩

/-- Writing a row under a new key adds one. -/
theorem size_set_of_none {s : Storage K V} {k : K} (h : s.get k = none) (v : V) :
    (s.set k v).size = s.size + 1 := by
  have hkey : k ∉ s.rows.entries.keys := List.dlookup_eq_none.mp h
  rw [size, set, AList.entries_insert, List.kerase_of_notMem_keys hkey]
  rfl

theorem get_eq_some_iff {s : Storage K V} {k : K} {v : V} :
    s.get k = some v ↔ ⟨k, v⟩ ∈ s.rows.entries :=
  List.mem_dlookup_iff s.rows.nodupKeys

/-! ## The rows as a list -/

omit [DecidableEq K] in
/-- The keys of all rows. -/
def keys (s : Storage K V) : List K := s.rows.entries.map Sigma.fst

omit [DecidableEq K] in
/-- The values of all rows. -/
def values (s : Storage K V) : List V := s.rows.entries.map Sigma.snd

/-- A field of the values that is their key tells the values apart. -/
theorem nodup_map_values {s : Storage K V} {f : V → K}
    (hf : ∀ k v, s.get k = some v → f v = k) : (s.values.map f).Nodup := by
  have hkeys : s.values.map f = s.keys := by
    rw [values, keys, List.map_map]
    apply List.map_congr_left
    intro row hrow
    exact hf row.1 row.2 (get_eq_some_iff.mpr hrow)
  rw [hkeys]
  exact s.rows.nodupKeys

/-! ## Removing rows by a condition -/

theorem get_retain (s : Storage K V) (keep : K → V → Bool) (k : K) :
    (s.retain keep).get k = (s.get k).filter (keep k) := by
  ext v
  rw [get_eq_some_iff, Option.filter_eq_some_iff, get_eq_some_iff]
  simp [retain]

/-! ## Sums over all rows -/

/-- The sum of a weight over all rows. -/
def sum (w : K → V → Int) (s : Storage K V) : Int :=
  (s.rows.entries.map fun row => w row.1 row.2).sum

/-- The weight of the row of one key, zero if there is none. -/
def weightAt (w : K → V → Int) (s : Storage K V) (k : K) : Int :=
  (s.get k).elim 0 (w k)

omit [DecidableEq K] in
@[simp]
theorem sum_empty (w : K → V → Int) : (empty : Storage K V).sum w = 0 :=
  rfl

private theorem sum_kerase (w : K → V → Int) (k : K)
    (rows : List (Sigma fun _ : K => V)) :
    ((rows.kerase k).map fun row => w row.1 row.2).sum =
      (rows.map fun row => w row.1 row.2).sum - (rows.dlookup k).elim 0 (w k) := by
  induction rows with
  | nil => simp
  | cons row rows ih =>
      by_cases h : k = row.1
      · obtain ⟨k', v⟩ := row
        subst h
        simp [List.kerase_cons_eq]
      · rw [List.kerase_cons_ne h, List.dlookup_cons_ne _ _ h, List.map_cons, List.map_cons,
          List.sum_cons, List.sum_cons, ih]
        ring

/-- Removing a row takes its weight out of the sum. -/
theorem sum_remove (w : K → V → Int) (s : Storage K V) (k : K) :
    (s.remove k).sum w = s.sum w - s.weightAt w k :=
  sum_kerase w k s.rows.entries

/-- Writing a row exchanges the weight of the old row for that of the new one. -/
theorem sum_set (w : K → V → Int) (s : Storage K V) (k : K) (v : V) :
    (s.set k v).sum w = s.sum w - s.weightAt w k + w k v := by
  have hrest := sum_kerase w k s.rows.entries
  have hset : (s.set k v).sum w =
      w k v + ((s.rows.entries.kerase k).map fun row => w row.1 row.2).sum := by
    rw [sum, set, AList.entries_insert, List.map_cons, List.sum_cons]
  rw [hset, hrest, sum, weightAt]
  change _ = _ - (s.rows.entries.dlookup k).elim 0 (w k) + _
  ring

theorem weightAt_remove (w : K → V → Int) (s : Storage K V) (k k' : K) :
    (s.remove k).weightAt w k' = if k' = k then 0 else s.weightAt w k' := by
  rw [weightAt, get_remove]
  split <;> rfl

/-- The sum of nonnegative weights is nonnegative. -/
theorem sum_nonneg {w : K → V → Int} {s : Storage K V}
    (hw : ∀ k v, s.get k = some v → 0 ≤ w k v) : 0 ≤ s.sum w := by
  apply List.sum_nonneg
  intro x hx
  obtain ⟨row, hrow, rfl⟩ := List.mem_map.mp hx
  exact hw row.1 row.2 ((List.mem_dlookup_iff s.rows.nodupKeys).mpr hrow)

/-- The sum of weights that are all zero. -/
theorem sum_eq_zero {w : K → V → Int} {s : Storage K V}
    (hw : ∀ k v, s.get k = some v → w k v = 0) : s.sum w = 0 := by
  apply List.sum_eq_zero
  intro x hx
  obtain ⟨row, hrow, rfl⟩ := List.mem_map.mp hx
  exact hw row.1 row.2 ((List.mem_dlookup_iff s.rows.nodupKeys).mpr hrow)

/-- With nonnegative weights no row outweighs the sum. -/
theorem weightAt_le_sum {w : K → V → Int} {s : Storage K V}
    (hw : ∀ k v, s.get k = some v → 0 ≤ w k v) (k : K) : s.weightAt w k ≤ s.sum w := by
  have hrest : 0 ≤ (s.remove k).sum w := by
    apply sum_nonneg
    intro k' v hv
    rw [get_remove] at hv
    split at hv
    · cases hv
    · exact hw k' v hv
  rw [sum_remove] at hrest
  omega

/-- With nonnegative weights two distinct rows together do not outweigh the sum. -/
theorem weightAt_add_le_sum {w : K → V → Int} {s : Storage K V}
    (hw : ∀ k v, s.get k = some v → 0 ≤ w k v) {k k' : K} (hne : k ≠ k') :
    s.weightAt w k + s.weightAt w k' ≤ s.sum w := by
  have hrest : (s.remove k).weightAt w k' ≤ (s.remove k).sum w := by
    apply weightAt_le_sum
    intro l v hv
    rw [get_remove] at hv
    split at hv
    · cases hv
    · exact hw l v hv
  rw [sum_remove, weightAt_remove, if_neg hne.symm] at hrest
  omega

end Storage

end Foundation
