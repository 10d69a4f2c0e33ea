import Mathlib.Algebra.Order.BigOperators.Group.List
import Mathlib.Algebra.Order.Field.Basic
import Mathlib.Tactic.Linarith
import Mathlib.Tactic.Ring

/-!
# Weighted medians

Items in the order of their values, each with a weight.  A weighted median is the item at which
the sum of the weights, from the smallest value on, first reaches half of the total.

Main results:

- Definition {lit}`IsWeightedMedian`: the item at which half of the weight is reached.
- Theorems {lit}`IsWeightedMedian.weightBelow_lt` and {lit}`IsWeightedMedian.weightAbove_le`: at
  most half of the weight lies on either side of a weighted median.
- Theorems {lit}`IsWeightedMedian.le_of_weightBelow` and {lit}`IsWeightedMedian.ge_of_weightAbove`:
  on which side of a value a weighted median lies.
- Theorem {lit}`IsWeightedMedian.between`: a weighted median lies in every interval that holds
  more than half of the weight.
-/

namespace Foundation

variable {ι α K : Type} [LinearOrder α] [Field K] {weight : ι → K} {value : ι → α}
  {items before after : List ι} {x : ι}

/-- The sum of the weights of some items. -/
def totalWeight (weight : ι → K) (items : List ι) : K := (items.map weight).sum

/-- The sum of the weights of the items with a property. -/
def weightWhere (weight : ι → K) (P : ι → Prop) [DecidablePred P] (items : List ι) : K :=
  totalWeight weight (items.filter fun x => P x)

/-- The weights of two parts. -/
@[simp]
theorem totalWeight_append (before after : List ι) :
    totalWeight weight (before ++ after) =
      totalWeight weight before + totalWeight weight after := by
  simp [totalWeight]

/-- The weight of an item and of the rest. -/
@[simp]
theorem totalWeight_cons (x : ι) (items : List ι) :
    totalWeight weight (x :: items) = weight x + totalWeight weight items := by
  simp [totalWeight]

/-- The total weight does not depend on the order. -/
theorem totalWeight_perm (h : before.Perm after) :
    totalWeight weight before = totalWeight weight after :=
  (h.map weight).sum_eq

section Where

variable {P : ι → Prop} [DecidablePred P]

/-- The weights of two parts. -/
theorem weightWhere_append (before after : List ι) :
    weightWhere weight P (before ++ after) =
      weightWhere weight P before + weightWhere weight P after := by
  simp [weightWhere]

/-- The weight does not depend on the order. -/
theorem weightWhere_perm (h : before.Perm after) :
    weightWhere weight P before = weightWhere weight P after :=
  totalWeight_perm (h.filter _)

/-- Nothing weighs nothing. -/
theorem weightWhere_eq_zero (h : ∀ x ∈ items, ¬ P x) : weightWhere weight P items = 0 := by
  have hnone : items.filter (fun x => P x) = [] := by
    rw [List.filter_eq_nil_iff]
    intro x hx
    simpa using h x hx
  rw [weightWhere, hnone, totalWeight, List.map_nil, List.sum_nil]

/-- All weigh the total. -/
theorem weightWhere_eq_totalWeight (h : ∀ x ∈ items, P x) :
    weightWhere weight P items = totalWeight weight items := by
  have hall : items.filter (fun x => P x) = items := by
    rw [List.filter_eq_self]
    intro x hx
    simpa using h x hx
  rw [weightWhere, hall]

/-- The weight of items that stand for others. -/
theorem weightWhere_map {κ : Type} {items : List κ} {f : κ → ι} {weight' : κ → K} {Q : κ → Prop}
    [DecidablePred Q] (hweight : ∀ x ∈ items, weight (f x) = weight' x)
    (hQ : ∀ x ∈ items, P (f x) ↔ Q x) :
    weightWhere weight P (items.map f) = weightWhere weight' Q items := by
  induction items with
  | nil => rfl
  | cons x items ih =>
      have hrest := ih (fun y hy => hweight y (List.mem_cons_of_mem x hy))
        (fun y hy => hQ y (List.mem_cons_of_mem x hy))
      rw [List.map_cons, ← List.singleton_append, ← List.singleton_append (l := items),
        weightWhere_append, weightWhere_append, hrest]
      congr 1
      have hfirst := hQ x List.mem_cons_self
      by_cases hx : Q x
      · simp [weightWhere, totalWeight, hx, hfirst.mpr hx, hweight x List.mem_cons_self]
      · simp [weightWhere, totalWeight, hx, mt hfirst.mp hx]

/-- The items with a property and those without it weigh as much as all. -/
theorem weightWhere_add_not (items : List ι) :
    weightWhere weight P items + weightWhere weight (fun x => ¬ P x) items =
      totalWeight weight items := by
  induction items with
  | nil => simp [weightWhere, totalWeight]
  | cons x items ih =>
      rw [← List.singleton_append, weightWhere_append, weightWhere_append, totalWeight_append, ← ih]
      by_cases hx : P x
      · simp [weightWhere, totalWeight, hx]
        ring
      · simp [weightWhere, totalWeight, hx]
        ring

variable [LinearOrder K] [IsStrictOrderedRing K]

/-- The total weight is not negative. -/
theorem totalWeight_nonneg (hpos : ∀ x ∈ items, 0 ≤ weight x) : 0 ≤ totalWeight weight items := by
  apply List.sum_nonneg
  intro n hn
  rcases List.mem_map.mp hn with ⟨x, hx, rfl⟩
  exact hpos x hx

/-- The weight of some is not negative. -/
theorem weightWhere_nonneg (hpos : ∀ x ∈ items, 0 ≤ weight x) : 0 ≤ weightWhere weight P items :=
  totalWeight_nonneg fun x hx => hpos x (List.mem_of_mem_filter hx)

/-- Some weigh no more than all. -/
theorem weightWhere_le (hpos : ∀ x ∈ items, 0 ≤ weight x) :
    weightWhere weight P items ≤ totalWeight weight items := by
  have hrest : 0 ≤ weightWhere weight (fun x => ¬ P x) items := weightWhere_nonneg hpos
  rw [← weightWhere_add_not (P := P)]
  linarith

/-- A weaker property holds of at least as much weight. -/
theorem weightWhere_mono {Q : ι → Prop} [DecidablePred Q] (hpos : ∀ x ∈ items, 0 ≤ weight x)
    (h : ∀ x ∈ items, P x → Q x) : weightWhere weight P items ≤ weightWhere weight Q items := by
  have hsub : (items.filter fun x => P x) = (items.filter fun x => Q x).filter fun x => P x := by
    rw [List.filter_filter]
    apply List.filter_congr
    intro x hx
    by_cases hP : P x
    · simp [hP, h x hx hP]
    · simp [hP]
  rw [weightWhere, hsub]
  exact weightWhere_le fun x hx => hpos x (List.mem_of_mem_filter hx)

end Where

variable [LinearOrder K] [IsStrictOrderedRing K]

/-- The item at which the weights of the items, in the order of their values, first sum up to
half of the total. -/
structure IsWeightedMedian (weight : ι → K) (value : ι → α) (items : List ι) (x : ι) : Prop where
  split : ∃ before after, (before ++ x :: after).Perm items ∧
    (before ++ x :: after).Pairwise (fun a b => value a ≤ value b) ∧
    totalWeight weight before < totalWeight weight items / 2 ∧
    totalWeight weight items / 2 ≤ totalWeight weight before + weight x

/-- The weight of the items with a value below a given one. -/
def weightBelow (weight : ι → K) (value : ι → α) (v : α) (items : List ι) : K :=
  weightWhere weight (fun y => value y < v) items

/-- The weight of the items with a value above a given one. -/
def weightAbove (weight : ι → K) (value : ι → α) (v : α) (items : List ι) : K :=
  weightWhere weight (fun y => v < value y) items

namespace IsWeightedMedian

variable (h : IsWeightedMedian weight value items x)

include h

omit [IsStrictOrderedRing K] in
theorem mem : x ∈ items := by
  rcases h.split with ⟨before, after, hperm, -⟩
  exact hperm.mem_iff.mp (List.mem_append_right _ List.mem_cons_self)

omit [IsStrictOrderedRing K] in
/-- The items before a weighted median and those after it. -/
theorem parts : ∃ before after, (before ++ x :: after).Perm items ∧
    (∀ y ∈ before, value y ≤ value x) ∧ (∀ y ∈ after, value x ≤ value y) ∧
    totalWeight weight before < totalWeight weight items / 2 ∧
    totalWeight weight items / 2 ≤ totalWeight weight before + weight x ∧
    totalWeight weight items = totalWeight weight before + (weight x + totalWeight weight after)
    := by
  rcases h.split with ⟨before, after, hperm, hsorted, hbelow, hreach⟩
  rw [List.pairwise_append, List.pairwise_cons] at hsorted
  rcases hsorted with ⟨-, ⟨hafter, -⟩, hcross⟩
  refine ⟨before, after, hperm, ?_, hafter, hbelow, hreach, ?_⟩
  · intro y hy
    exact hcross y hy x List.mem_cons_self
  · rw [← totalWeight_perm hperm, totalWeight_append, totalWeight_cons]

variable (hpos : ∀ y ∈ items, 0 ≤ weight y)

include hpos

/-- Less than half of the weight lies below a weighted median. -/
theorem weightBelow_lt :
    weightBelow weight value (value x) items < totalWeight weight items / 2 := by
  rcases h.parts with ⟨before, after, hperm, -, hafter, hbelow, -, -⟩
  have hbefore : ∀ y ∈ before, 0 ≤ weight y := fun y hy =>
    hpos y (hperm.mem_iff.mp (List.mem_append_left _ hy))
  have hnone : ∀ y ∈ x :: after, ¬ value y < value x := by
    intro y hy
    rcases List.mem_cons.mp hy with rfl | hy
    · exact lt_irrefl _
    · exact not_lt.mpr (hafter y hy)
  rw [weightBelow, ← weightWhere_perm hperm, weightWhere_append, weightWhere_eq_zero hnone,
    add_zero]
  exact (weightWhere_le hbefore).trans_lt hbelow

/-- At most half of the weight lies above a weighted median. -/
theorem weightAbove_le :
    weightAbove weight value (value x) items ≤ totalWeight weight items / 2 := by
  rcases h.parts with ⟨before, after, hperm, hbefore, -, -, hreach, htotal⟩
  have hafter : ∀ y ∈ after, 0 ≤ weight y := fun y hy =>
    hpos y (hperm.mem_iff.mp (List.mem_append_right _ (List.mem_cons_of_mem _ hy)))
  have hnone : ∀ y ∈ before ++ [x], ¬ value x < value y := by
    intro y hy
    rcases List.mem_append.mp hy with hy | hy
    · exact not_lt.mpr (hbefore y hy)
    · rw [List.mem_singleton.mp hy]
      exact lt_irrefl _
  rw [weightAbove, ← weightWhere_perm hperm, ← List.singleton_append, ← List.append_assoc,
    weightWhere_append, weightWhere_eq_zero hnone, zero_add]
  have hrest := weightWhere_le (P := fun y => value x < value y) hafter
  linarith

/-- A value with less than half of the weight below it is at most a weighted median. -/
theorem le_of_weightBelow {v : α}
    (hv : weightBelow weight value v items < totalWeight weight items / 2) : v ≤ value x := by
  by_contra hlt
  rw [not_le] at hlt
  rcases h.parts with ⟨before, after, hperm, hbefore, -, -, hreach, -⟩
  have hall : ∀ y ∈ before ++ [x], value y < v := by
    intro y hy
    rcases List.mem_append.mp hy with hy | hy
    · exact (hbefore y hy).trans_lt hlt
    · rw [List.mem_singleton.mp hy]
      exact hlt
  have hafter : ∀ y ∈ after, 0 ≤ weight y := fun y hy =>
    hpos y (hperm.mem_iff.mp (List.mem_append_right _ (List.mem_cons_of_mem _ hy)))
  rw [weightBelow, ← weightWhere_perm hperm, ← List.singleton_append, ← List.append_assoc,
    weightWhere_append, weightWhere_eq_totalWeight hall, totalWeight_append, totalWeight_cons] at hv
  have hrest : 0 ≤ weightWhere weight (fun y => value y < v) after := weightWhere_nonneg hafter
  have hnil : totalWeight weight ([] : List ι) = 0 := rfl
  linarith

/-- A value with at most half of the weight above it is at least a weighted median. -/
theorem ge_of_weightAbove {v : α}
    (hv : weightAbove weight value v items ≤ totalWeight weight items / 2) : value x ≤ v := by
  by_contra hlt
  rw [not_le] at hlt
  rcases h.parts with ⟨before, after, hperm, -, hafter, hbelow, -, htotal⟩
  have hall : ∀ y ∈ x :: after, v < value y := by
    intro y hy
    rcases List.mem_cons.mp hy with rfl | hy
    · exact hlt
    · exact hlt.trans_le (hafter y hy)
  have hbefore : ∀ y ∈ before, 0 ≤ weight y := fun y hy =>
    hpos y (hperm.mem_iff.mp (List.mem_append_left _ hy))
  rw [weightAbove, ← weightWhere_perm hperm, weightWhere_append, weightWhere_eq_totalWeight hall,
    totalWeight_cons] at hv
  have hrest : 0 ≤ weightWhere weight (fun y => v < value y) before := weightWhere_nonneg hbefore
  linarith

/-- The same items, in any order, have weighted medians of one value. -/
theorem value_eq_of_perm {items' : List ι} {x' : ι}
    (h' : IsWeightedMedian weight value items' x') (hperm : items.Perm items') :
    value x = value x' := by
  have hpos' : ∀ y ∈ items', 0 ≤ weight y := fun y hy => hpos y (hperm.mem_iff.mpr hy)
  apply le_antisymm
  · apply h.ge_of_weightAbove hpos
    have habove := h'.weightAbove_le hpos'
    rw [weightAbove, ← weightWhere_perm hperm, ← totalWeight_perm hperm] at habove
    exact habove
  · apply h'.ge_of_weightAbove hpos'
    have habove := h.weightAbove_le hpos
    rw [weightAbove, weightWhere_perm hperm, totalWeight_perm hperm] at habove
    exact habove

/-- A weighted median lies in every interval that holds more than half of the weight. -/
theorem between {lo hi : α}
    (hmajority : totalWeight weight items <
      2 * weightWhere weight (fun y => lo ≤ value y ∧ value y ≤ hi) items) :
    lo ≤ value x ∧ value x ≤ hi := by
  have hsum : weightWhere weight (fun y => lo ≤ value y ∧ value y ≤ hi) items +
      weightWhere weight (fun y => ¬ (lo ≤ value y ∧ value y ≤ hi)) items =
        totalWeight weight items := weightWhere_add_not items
  constructor
  · apply h.le_of_weightBelow hpos
    have houtside : weightBelow weight value lo items ≤
        weightWhere weight (fun y => ¬ (lo ≤ value y ∧ value y ≤ hi)) items :=
      weightWhere_mono hpos fun y _ hlt hin => absurd hin.1 (not_le.mpr hlt)
    linarith
  · apply h.ge_of_weightAbove hpos
    have houtside : weightAbove weight value hi items ≤
        weightWhere weight (fun y => ¬ (lo ≤ value y ∧ value y ≤ hi)) items :=
      weightWhere_mono hpos fun y _ hlt hin => absurd hin.2 (not_le.mpr hlt)
    linarith

end IsWeightedMedian

end Foundation
