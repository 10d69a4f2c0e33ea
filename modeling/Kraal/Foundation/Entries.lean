import Mathlib.Data.List.Dedup
import Mathlib.Data.List.Perm.Basic

/-!
# Entries under keys

A dictionary that keeps the order in which its keys came first.  A pair that is put into it
replaces the value of its key, or comes at the end.

Main results:

- Definition {lit}`entriesOf`: the dictionary of some pairs.
- Theorem {lit}`lookup_eq_some_iff_mem`: what is found under a key.
- Theorem {lit}`keys_entriesOf_nodup`: no key comes twice in it.
- Theorem {lit}`length_entriesOf`: it has one entry for each key of the pairs.
- Theorem {lit}`entriesOf_eq`: pairs with distinct keys are taken over as they are.
-/

namespace Foundation

variable {α : Type}

/-- Put a pair into a dictionary, in its place if the key is there and at the end otherwise. -/
def putEntry (entries : List (String × α)) (entry : String × α) : List (String × α) :=
  if entries.any (fun held => held.1 == entry.1) then
    entries.map fun held => if held.1 = entry.1 then entry else held
  else entries ++ [entry]

/-- The dictionary of some pairs, given one after the other. -/
def entriesOf (pairs : List (String × α)) : List (String × α) :=
  pairs.foldl putEntry []

variable {entries pairs : List (String × α)} {entry : String × α}

/-! ## Looking up a key -/

/-- What is found under a key is the pair of the key. -/
theorem lookup_eq_some_iff_mem (hnodup : (entries.map Prod.fst).Nodup) {key : String} {value : α} :
    entries.lookup key = some value ↔ (key, value) ∈ entries := by
  induction entries with
  | nil => simp
  | cons entry entries ih =>
      rcases entry with ⟨first, held⟩
      rw [List.map_cons, List.nodup_cons] at hnodup
      rw [List.lookup_cons, List.mem_cons, Prod.mk.injEq]
      cases hkey : key == first with
      | true =>
          have heq : key = first := eq_of_beq hkey
          -- the key does not come again
          have hfresh : (key, value) ∉ entries := by
            intro hmem
            have hkeys : key ∈ entries.map Prod.fst := List.mem_map_of_mem (f := Prod.fst) hmem
            rw [heq] at hkeys
            exact hnodup.1 hkeys
          constructor
          · intro h
            exact Or.inl ⟨heq, (Option.some.inj h).symm⟩
          · intro h
            rcases h with ⟨-, hvalue⟩ | hmem
            · rw [hvalue]
            · exact absurd hmem hfresh
      | false =>
          have hne : key ≠ first := ne_of_beq_false hkey
          constructor
          · intro h
            exact Or.inr ((ih hnodup.2).mp h)
          · intro h
            rcases h with ⟨heq, -⟩ | hmem
            · exact absurd heq hne
            · exact (ih hnodup.2).mpr hmem

/-- What is found does not depend on the order. -/
theorem lookup_eq_of_perm {entries' : List (String × α)}
    (hperm : entries.Perm entries') (hnodup : (entries.map Prod.fst).Nodup) (key : String) :
    entries.lookup key = entries'.lookup key := by
  have hnodup' : (entries'.map Prod.fst).Nodup := (hperm.map Prod.fst).nodup_iff.mp hnodup
  ext value
  rw [lookup_eq_some_iff_mem hnodup, lookup_eq_some_iff_mem hnodup', hperm.mem_iff]

/-! ## Putting pairs -/

/-- A key is held if some pair has it. -/
theorem any_key_eq_true :
    entries.any (fun held => held.1 == entry.1) = true ↔ entry.1 ∈ entries.map Prod.fst := by
  rw [List.any_eq_true, List.mem_map]
  constructor
  · intro h
    rcases h with ⟨held, hheld, hkey⟩
    exact ⟨held, hheld, eq_of_beq hkey⟩
  · intro h
    rcases h with ⟨held, hheld, hkey⟩
    exact ⟨held, hheld, beq_iff_eq.mpr hkey⟩

/-- A pair with a new key comes at the end. -/
theorem putEntry_of_fresh (hfresh : entry.1 ∉ entries.map Prod.fst) :
    putEntry entries entry = entries ++ [entry] := by
  unfold putEntry
  rw [if_neg (mt any_key_eq_true.mp hfresh)]

/-- A pair with a key that is held leaves the keys as they are. -/
theorem keys_putEntry_of_held (hheld : entry.1 ∈ entries.map Prod.fst) :
    (putEntry entries entry).map Prod.fst = entries.map Prod.fst := by
  unfold putEntry
  rw [if_pos (any_key_eq_true.mpr hheld), List.map_map]
  apply List.map_congr_left
  intro held _
  by_cases hkey : held.1 = entry.1
  · simp [hkey]
  · simp [hkey]

/-- The keys after one more pair. -/
theorem mem_keys_putEntry {key : String} :
    key ∈ (putEntry entries entry).map Prod.fst ↔
      key ∈ entries.map Prod.fst ∨ key = entry.1 := by
  by_cases hheld : entry.1 ∈ entries.map Prod.fst
  · rw [keys_putEntry_of_held hheld]
    constructor
    · exact Or.inl
    · intro h
      rcases h with h | rfl
      · exact h
      · exact hheld
  · rw [putEntry_of_fresh hheld, List.map_append, List.mem_append, List.map_singleton,
      List.mem_singleton]

/-- No key comes twice after one more pair. -/
theorem keys_putEntry_nodup (h : (entries.map Prod.fst).Nodup) :
    ((putEntry entries entry).map Prod.fst).Nodup := by
  by_cases hheld : entry.1 ∈ entries.map Prod.fst
  · rw [keys_putEntry_of_held hheld]
    exact h
  · rw [putEntry_of_fresh hheld, List.map_append, List.map_singleton]
    exact h.append (List.nodup_singleton _) (List.disjoint_singleton.mpr hheld)

/-- Putting pairs into a dictionary keeps its keys distinct. -/
theorem keys_foldl_nodup (h : (entries.map Prod.fst).Nodup) :
    ((pairs.foldl putEntry entries).map Prod.fst).Nodup := by
  induction pairs generalizing entries with
  | nil => exact h
  | cons pair pairs ih => exact ih (keys_putEntry_nodup h)

/-- The keys after some more pairs. -/
theorem mem_keys_foldl {key : String} :
    key ∈ (pairs.foldl putEntry entries).map Prod.fst ↔
      key ∈ entries.map Prod.fst ∨ key ∈ pairs.map Prod.fst := by
  induction pairs generalizing entries with
  | nil => simp
  | cons pair pairs ih =>
      rw [List.foldl_cons, ih, mem_keys_putEntry, List.map_cons, List.mem_cons, or_assoc]

/-- No key comes twice in a dictionary. -/
theorem keys_entriesOf_nodup : ((entriesOf pairs).map Prod.fst).Nodup :=
  keys_foldl_nodup List.nodup_nil

/-- The keys of a dictionary are those of its pairs, once each. -/
theorem keys_entriesOf_perm :
    ((entriesOf pairs).map Prod.fst).Perm (pairs.map Prod.fst).dedup := by
  apply (List.perm_ext_iff_of_nodup keys_entriesOf_nodup (List.nodup_dedup _)).mpr
  intro key
  unfold entriesOf
  rw [mem_keys_foldl, List.mem_dedup, List.map_nil]
  simp

/-- A pair of the dictionary was there or is the new one. -/
theorem mem_putEntry {held : String × α} (h : held ∈ putEntry entries entry) :
    held ∈ entries ∨ held = entry := by
  unfold putEntry at h
  split at h
  · rcases List.mem_map.mp h with ⟨found, hfound, hheld⟩
    split at hheld
    · exact Or.inr hheld.symm
    · exact Or.inl (hheld ▸ hfound)
  · rw [List.mem_append, List.mem_singleton] at h
    exact h

/-- A pair of the dictionary was there or is one of the new ones. -/
theorem mem_foldl_putEntry {held : String × α} (h : held ∈ pairs.foldl putEntry entries) :
    held ∈ entries ∨ held ∈ pairs := by
  induction pairs generalizing entries with
  | nil => exact Or.inl h
  | cons pair pairs ih =>
      rcases ih h with hput | hpairs
      · rcases mem_putEntry hput with hheld | rfl
        · exact Or.inl hheld
        · exact Or.inr List.mem_cons_self
      · exact Or.inr (List.mem_cons_of_mem pair hpairs)

/-- Every entry is one of the pairs. -/
theorem mem_of_mem_entriesOf {held : String × α} (h : held ∈ entriesOf pairs) : held ∈ pairs := by
  rcases mem_foldl_putEntry h with hnil | hpairs
  · cases hnil
  · exact hpairs

/-- There is one entry for each key. -/
theorem length_entriesOf : (entriesOf pairs).length = (pairs.map Prod.fst).dedup.length := by
  rw [← keys_entriesOf_perm.length_eq, List.length_map]

/-- Pairs with new and distinct keys come after the entries that are there. -/
theorem foldl_putEntry (h : ((entries ++ pairs).map Prod.fst).Nodup) :
    pairs.foldl putEntry entries = entries ++ pairs := by
  induction pairs generalizing entries with
  | nil => rw [List.foldl_nil, List.append_nil]
  | cons pair pairs ih =>
      have hsplit : entries ++ pair :: pairs = (entries ++ [pair]) ++ pairs := by simp
      have hfresh : pair.1 ∉ entries.map Prod.fst := by
        intro hheld
        rw [List.map_append, List.nodup_append] at h
        exact h.2.2 pair.1 hheld pair.1 (List.mem_map_of_mem List.mem_cons_self) rfl
      rw [hsplit] at h
      rw [List.foldl_cons, putEntry_of_fresh hfresh, hsplit]
      exact ih h

/-- Pairs with distinct keys are taken over as they are. -/
theorem entriesOf_eq (h : (pairs.map Prod.fst).Nodup) : entriesOf pairs = pairs :=
  foldl_putEntry h

end Foundation
