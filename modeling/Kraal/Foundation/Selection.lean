import Mathlib.Data.List.Sort
import Mathlib.Data.Prod.Lex

/-!
# The first rows in the order of a key

A query with an order and a limit returns the first rows in the order of a key.  Rows with the same
key come in any order, so that it depends on this order which of them are returned.

Whether a selection must hold a row of some kind depends on the rows of other kinds in front of the
first one of the kind: if they fill the selection, it may hold none.

Main results:

- Definition {lit}`Selects`: what a query may return.
- Theorem {lit}`Selects.exists_of_lt`: a selection that others do not fill.
- Theorem {lit}`flatMap_selectPage`: the pages of a list of rows make it up.
- Theorem {lit}`exists_selectLast_iff`: when the selection that prefers the others holds one of the
  rows.
-/

namespace Foundation

variable {α κ : Type} [LinearOrder κ] {key : α → κ} {rows batch : List α} {limit : Nat} {x : α}

/-- A batch is made of the first rows in the order of a key, up to a limit. -/
structure Selects (key : α → κ) (rows : List α) (limit : Nat) (batch : List α) : Prop where
  split : ∃ rest, (batch ++ rest).Perm rows ∧
    (batch ++ rest).Pairwise fun a b => key a ≤ key b
  length : batch.length = min limit rows.length

theorem Selects.mem (h : Selects key rows limit batch) (hx : x ∈ batch) : x ∈ rows := by
  rcases h.split with ⟨rest, hperm, -⟩
  exact hperm.mem_iff.mp (List.mem_append_left _ hx)

/-- The rows of a selection are different ones if all rows are. -/
theorem Selects.nodup {β : Type} {f : α → β} (h : Selects key rows limit batch)
    (hrows : (rows.map f).Nodup) : (batch.map f).Nodup := by
  rcases h.split with ⟨rest, hperm, -⟩
  have hall := (hperm.map f).nodup_iff.mpr hrows
  rw [List.map_append] at hall
  exact hall.of_append_left

/-- A row that is not selected comes after a full selection. -/
theorem Selects.full (h : Selects key rows limit batch) (hx : x ∈ rows) (hleft : x ∉ batch) :
    batch.length = limit ∧ ∀ y ∈ batch, key y ≤ key x := by
  rcases h.split with ⟨rest, hperm, hsorted⟩
  have hrest : x ∈ rest :=
    (List.mem_append.mp (hperm.mem_iff.mpr hx)).resolve_left hleft
  constructor
  · have hlength := h.length
    have hsum := hperm.length_eq
    rw [List.length_append] at hsum
    have hpos := List.length_pos_of_mem hrest
    omega
  · intro y hy
    exact (List.pairwise_append.mp hsorted).2.2 y hy x hrest

/-- An order that tells more rows apart. -/
theorem Selects.of_refines {κ' : Type} [LinearOrder κ'] {key' : α → κ'}
    (h : Selects key' rows limit batch) (hkey : ∀ a b, key' a ≤ key' b → key a ≤ key b) :
    Selects key rows limit batch := by
  rcases h.split with ⟨rest, hperm, hsorted⟩
  exact ⟨⟨rest, hperm, hsorted.imp fun {a b} => hkey a b⟩, h.length⟩

/-! ## A selection -/

/-- The first rows, those of the same key as they stand. -/
def select (key : α → κ) (rows : List α) (limit : Nat) : List α :=
  (rows.insertionSort fun a b => key a ≤ key b).take limit

theorem select_selects (key : α → κ) (rows : List α) (limit : Nat) :
    Selects key rows limit (select key rows limit) := by
  have htotal : Std.Total fun a b : α => key a ≤ key b := ⟨fun a b => le_total (key a) (key b)⟩
  have htrans : IsTrans α fun a b => key a ≤ key b := ⟨fun _ _ _ hab hbc => hab.trans hbc⟩
  refine ⟨⟨(rows.insertionSort fun a b => key a ≤ key b).drop limit, ?_, ?_⟩, ?_⟩
  · rw [select, List.take_append_drop]
    exact List.perm_insertionSort _ rows
  · rw [select, List.take_append_drop]
    exact List.pairwise_insertionSort _ rows
  · rw [select, List.length_take, List.length_insertionSort]

/-! ## Pages -/

/-- A page of the rows in the order of a key: some are left out and the next ones returned. -/
def selectPage (key : α → κ) (rows : List α) (limit offset : Nat) : List α :=
  ((rows.insertionSort fun a b => key a ≤ key b).drop offset).take limit

/-- Pages that follow each other are one selection. -/
theorem flatMap_selectPage (key : α → κ) (rows : List α) (limit pages : Nat) :
    ((List.range pages).flatMap fun page => selectPage key rows limit (page * limit)) =
      select key rows (pages * limit) := by
  induction pages with
  | zero => simp [select]
  | succ pages ih =>
      rw [List.range_succ, List.flatMap_append, ih, List.flatMap_singleton, select, select,
        selectPage, Nat.succ_mul, List.take_add]

/-- A selection without an end holds every row once. -/
theorem select_perm (h : rows.length ≤ limit) : (select key rows limit).Perm rows := by
  rw [select, List.take_of_length_le (by rwa [List.length_insertionSort])]
  exact List.perm_insertionSort _ rows

theorem select_pairwise (key : α → κ) (rows : List α) (limit : Nat) :
    (select key rows limit).Pairwise fun a b => key a ≤ key b := by
  rcases (select_selects key rows limit).split with ⟨rest, -, hsorted⟩
  exact (List.pairwise_append.mp hsorted).1

/-! ## Rows of one kind -/

variable {p : α → Prop} [DecidablePred p]

/-- The rows that are not of a kind, and not behind a row. -/
def others (key : α → κ) (p : α → Prop) [DecidablePred p] (rows : List α) (x : α) : List α :=
  rows.filter fun y => ¬ p y ∧ key y ≤ key x

/-- A selection holds a row of a kind if the others do not fill it. -/
theorem Selects.exists_of_lt (h : Selects key rows limit batch) (hx : x ∈ rows) (hp : p x)
    (hlt : (others key p rows x).length < limit) : ∃ y ∈ batch, p y := by
  by_contra hnone
  have hothers : ∀ y ∈ batch, ¬ p y := fun y hy hpy => hnone ⟨y, hy, hpy⟩
  rcases h.full hx fun hmem => hothers x hmem hp with ⟨hlength, hbefore⟩
  rcases h.split with ⟨rest, hperm, -⟩
  have hbatch : batch.filter (fun y => ¬ p y ∧ key y ≤ key x) = batch :=
    List.filter_eq_self.mpr fun y hy => decide_eq_true ⟨hothers y hy, hbefore y hy⟩
  have hcount := (hperm.filter fun y => ¬ p y ∧ key y ≤ key x).length_eq
  rw [List.filter_append, hbatch, List.length_append] at hcount
  rw [others] at hlt
  omega

/-- The first rows, of those with the same key the ones of a kind last. -/
def selectLast (key : α → κ) (p : α → Prop) [DecidablePred p] (rows : List α) (limit : Nat) :
    List α :=
  select (fun y => toLex (key y, decide (p y))) rows limit

theorem selectLast_selects (key : α → κ) (p : α → Prop) [DecidablePred p] (rows : List α)
    (limit : Nat) : Selects key rows limit (selectLast key p rows limit) := by
  refine (select_selects _ rows limit).of_refines fun a b hle => ?_
  rcases Prod.Lex.toLex_le_toLex.mp hle with hlt | ⟨heq, -⟩
  · exact hlt.le
  · exact heq.le

/-- The selection that prefers the others holds a row of the kind if and only if the others do not
fill it. -/
theorem exists_selectLast_iff :
    (∃ y ∈ selectLast key p rows limit, p y) ↔
      ∃ y ∈ rows, p y ∧ (others key p rows y).length < limit := by
  have hselects := select_selects (fun y => toLex (key y, decide (p y))) rows limit
  constructor
  · intro h
    rcases h with ⟨x, hx, hp⟩
    refine ⟨x, hselects.mem hx, hp, ?_⟩
    rcases hselects.split with ⟨rest, hperm, hsorted⟩
    have hcount := (hperm.filter fun y => ¬ p y ∧ key y ≤ key x).length_eq
    -- the others that are not behind the row come before it
    have hrest : rest.filter (fun y => ¬ p y ∧ key y ≤ key x) = [] := by
      refine List.filter_eq_nil_iff.mpr fun y hy hother => ?_
      have hother := of_decide_eq_true hother
      have hle := (List.pairwise_append.mp hsorted).2.2 x hx y hy
      rcases Prod.Lex.toLex_le_toLex.mp hle with hlt | ⟨-, himp⟩
      · exact absurd hother.2 (not_le.mpr hlt)
      · rw [decide_eq_true hp, decide_eq_false hother.1] at himp
        have himp : true ≤ false := himp
        exact absurd himp (by decide)
    have hself : (selectLast key p rows limit).filter (fun y => ¬ p y ∧ key y ≤ key x) ≠
        selectLast key p rows limit := by
      intro hall
      have hmem := List.filter_eq_self.mp hall x hx
      exact (of_decide_eq_true hmem).1 hp
    have hlt := lt_of_le_of_ne (List.length_filter_le _ _) fun hlength =>
      hself (List.filter_sublist.eq_of_length hlength)
    have hlimit := hselects.length
    rw [List.filter_append, hrest, List.append_nil] at hcount
    rw [others, ← hcount]
    change _ < (select _ rows limit).length at hlt
    exact hlt.trans_le (hlimit.le.trans (min_le_left _ _))
  · intro h
    rcases h with ⟨x, hx, hp, hlt⟩
    exact (selectLast_selects key p rows limit).exists_of_lt hx hp hlt

end Foundation
