import Mathlib.Data.List.GetD
import Mathlib.Data.List.Sort

/-!
# Order statistics

The values of a sorted list by their positions, and how many of them lie between two of these.

Main results:

- Theorem {lit}`getD_mono`: the values of a sorted list grow with the position.
- Theorem {lit}`le_countP_of_between`: as many values as positions lie between two positions.
- Theorems {lit}`sorted_lone_above` and {lit}`sorted_lone_below`: where a single other value comes
  among equal ones.
- Theorem {lit}`getD_lone_middle`: away from the ends it is not seen.
-/

namespace Foundation

variable {α : Type} [LinearOrder α] {xs : List α} {i j : Nat}

theorem getD_mono (hsorted : xs.Pairwise (· ≤ ·)) (hij : i ≤ j) (hj : j < xs.length) (d : α) :
    xs.getD i d ≤ xs.getD j d := by
  rw [List.getD_eq_getElem xs d (hij.trans_lt hj), List.getD_eq_getElem xs d hj]
  rcases hij.eq_or_lt with rfl | hlt
  · exact le_rfl
  · exact List.pairwise_iff_getElem.mp hsorted i j _ hj hlt

/-- The values at the positions from one to another. -/
theorem mem_drop_take (hsorted : xs.Pairwise (· ≤ ·)) (hj : j < xs.length) (d : α) {x : α}
    (hx : x ∈ (xs.take (j + 1)).drop i) : xs.getD i d ≤ x ∧ x ≤ xs.getD j d := by
  rcases List.mem_iff_getElem.mp hx with ⟨k, hk, rfl⟩
  rw [List.length_drop, List.length_take] at hk
  have hposition : i + k < xs.length := by omega
  have hvalue : ((xs.take (j + 1)).drop i)[k] = xs.getD (i + k) d := by
    rw [List.getElem_drop, List.getElem_take, List.getD_eq_getElem xs d hposition]
  rw [hvalue]
  exact ⟨getD_mono hsorted (Nat.le_add_right i k) hposition d,
    getD_mono hsorted (by omega) hj d⟩

/-- As many values as positions lie between two positions. -/
theorem le_countP_of_between (hsorted : xs.Pairwise (· ≤ ·)) (hj : j < xs.length) (d : α)
    {accept : α → Bool} (haccept : ∀ x, xs.getD i d ≤ x → x ≤ xs.getD j d → accept x = true) :
    j + 1 - i ≤ xs.countP accept := by
  have hall : ((xs.take (j + 1)).drop i).countP accept = ((xs.take (j + 1)).drop i).length := by
    rw [List.countP_eq_length]
    intro x hx
    have hbetween := mem_drop_take hsorted hj d hx
    exact haccept x hbetween.1 hbetween.2
  have hlength : ((xs.take (j + 1)).drop i).length = j + 1 - i := by
    rw [List.length_drop, List.length_take]
    omega
  rw [← hlength, ← hall]
  exact ((List.drop_sublist i _).trans (List.take_sublist (j + 1) xs)).countP_le

/-- A single value above all others, which are equal, comes last. -/
theorem sorted_lone_above {v b : α} {m : Nat} (hsorted : xs.Pairwise (· ≤ ·))
    (hperm : xs.Perm (v :: List.replicate m b)) (hv : b ≤ v) :
    xs = List.replicate m b ++ [v] := by
  have hlone : (List.replicate m b ++ [v]).Pairwise (· ≤ ·) := by
    rw [List.pairwise_append]
    refine ⟨List.pairwise_replicate.mpr (Or.inr le_rfl), List.pairwise_singleton _ _, ?_⟩
    intro x hx y hy
    rw [List.eq_of_mem_replicate hx, List.mem_singleton.mp hy]
    exact hv
  exact (hperm.trans (List.perm_append_singleton v _).symm).eq_of_pairwise
    (fun _ _ _ _ => le_antisymm) hsorted hlone

/-- A single value below all others, which are equal, comes first. -/
theorem sorted_lone_below {v b : α} {m : Nat} (hsorted : xs.Pairwise (· ≤ ·))
    (hperm : xs.Perm (v :: List.replicate m b)) (hv : v ≤ b) : xs = v :: List.replicate m b := by
  have hlone : (v :: List.replicate m b).Pairwise (· ≤ ·) := by
    rw [List.pairwise_cons]
    refine ⟨?_, List.pairwise_replicate.mpr (Or.inr le_rfl)⟩
    intro x hx
    rw [List.eq_of_mem_replicate hx]
    exact hv
  exact hperm.eq_of_pairwise (fun _ _ _ _ => le_antisymm) hsorted hlone

section Lone

variable {v b : α} {m : Nat} (hsorted : xs.Pairwise (· ≤ ·))
  (hperm : xs.Perm (v :: List.replicate m b)) (d : α)

include hsorted hperm

theorem getD_lone_above (hv : b ≤ v) (hi : i < m) : xs.getD i d = b := by
  rw [sorted_lone_above hsorted hperm hv, List.getD_append _ _ _ _ (by simpa using hi),
    List.getD_replicate _ hi]

theorem getD_lone_last (hv : b ≤ v) : xs.getD m d = v := by
  rw [sorted_lone_above hsorted hperm hv, List.getD_append_right _ _ _ _ (by simp)]
  simp

theorem getD_lone_first (hv : v ≤ b) : xs.getD 0 d = v := by
  rw [sorted_lone_below hsorted hperm hv]
  rfl

theorem getD_lone_below (hv : v ≤ b) (hpos : 1 ≤ i) (hi : i ≤ m) : xs.getD i d = b := by
  rw [sorted_lone_below hsorted hperm hv]
  cases i with
  | zero => omega
  | succ k => rw [List.getD_cons_succ, List.getD_replicate _ hi]

/-- Between the ends all values are the equal ones. -/
theorem getD_lone_middle (hpos : 1 ≤ i) (hi : i < m) : xs.getD i d = b := by
  rcases le_total b v with hv | hv
  · exact getD_lone_above hsorted hperm d hv hi
  · exact getD_lone_below hsorted hperm d hv hpos hi.le

end Lone

end Foundation
