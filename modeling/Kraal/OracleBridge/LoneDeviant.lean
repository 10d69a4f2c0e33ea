import Kraal.Foundation.Double
import Kraal.OracleBridge.Outliers
import Mathlib.Tactic.IntervalCases

/-!
# A single deviating price

All sources but one report the same price.  The quartiles find the deviating source if there are at
least six sources, and the median of the deviations never does.

The quartiles are computed in doubles.  As long as the prices stay below 2^50 they are exact, and
the bounds around them are rounded to the right side.

Main results:

- Definition {lit}`KeepsQuarters`: the roundings that are good enough for the quartiles.
- Theorem {lit}`percentile_of_keepsQuarters`: the quartiles of small prices are exact.
- Theorem {lit}`fences_of_lone`: when the quartiles leave out a single deviating price.
- Theorem {lit}`finds_lone_deviant_iff`: when the aggregation finds it.
-/

namespace Kraal
namespace OracleBridge

open Foundation

/-! ## Roundings that keep quarters -/

/-- A rounding keeps the order, and the quarters that a double can hold. -/
structure KeepsQuarters (round : ℚ → ℚ) : Prop where
  mono : Monotone round
  quarter : ∀ k : ℤ, k.natAbs < 2 ^ 53 → round (k / 4) = k / 4

section Quarters

variable {round : ℚ → ℚ} {values : List Int} {p : ℚ} {k : Nat}

theorem KeepsQuarters.intCast (h : KeepsQuarters round) {v : ℤ} (hv : v.natAbs < 2 ^ 51) :
    round v = v := by
  have hquarters : (v : ℚ) = (4 * v : ℤ) / 4 := by
    push_cast
    ring
  rw [hquarters]
  exact h.quarter (4 * v) (by omega)

theorem KeepsQuarters.zero (h : KeepsQuarters round) : round 0 = 0 := by
  exact_mod_cast h.intCast (v := 0) (by decide)

theorem ordered_mem {i : Nat} (hi : i < values.length) : ordered values i ∈ values := by
  have hperm := sortedBy_perm id values
  rw [← hperm.length_eq] at hi
  rw [ordered, List.getD_eq_getElem _ _ hi]
  exact hperm.mem_iff.mp (List.getElem_mem hi)

/-- The quartiles of small values are exact. -/
theorem percentile_of_keepsQuarters (h : KeepsQuarters round)
    (hsmall : ∀ v ∈ values, v.natAbs < 2 ^ 50)
    (hrank : p / 100 * (values.length + 1) = k / 4) (hlow : 4 ≤ k)
    (hhigh : k ≤ 4 * values.length) : percentile round values p = percentile id values p := by
  rcases hhigh.eq_or_lt with rfl | hlt
  · have hne : values ≠ [] := by
      rintro rfl
      simp at hlow
    have hlast : p / 100 * (values.length + 1) = values.length := by
      rw [hrank]
      push_cast
      ring
    have hvalue := hsmall _ (ordered_mem (Nat.sub_one_lt (List.length_pos_iff.mpr hne).ne'))
    rw [percentile_last hlast hne, percentile_last hlast hne, h.intCast (by omega), id]
  · rw [percentile_eq hrank hlow hlt, percentile_eq hrank hlow hlt]
    have hlower := hsmall _ (ordered_mem (i := k / 4 - 1) (by omega))
    have hupper := hsmall _ (ordered_mem (i := k / 4) (by omega))
    have hpart : k % 4 < 4 := Nat.mod_lt k (by decide)
    generalize ordered values (k / 4 - 1) = lower at *
    generalize ordered values (k / 4) = upper at *
    generalize k % 4 = part at *
    have hstep : round (upper - lower) = upper - lower := by
      exact_mod_cast h.intCast (v := upper - lower) (by omega)
    have hproduct : round ((part : ℚ) / 4 * (upper - lower)) = part / 4 * (upper - lower) := by
      have hquarters : (part : ℚ) / 4 * (upper - lower) = (part * (upper - lower) : ℤ) / 4 := by
        push_cast
        ring
      rw [hquarters]
      apply h.quarter
      interval_cases part <;> omega
    -- what is interpolated lies between the two values
    have hsum : round ((lower : ℚ) + part / 4 * (upper - lower)) =
        lower + part / 4 * (upper - lower) := by
      have hquarters : (lower : ℚ) + part / 4 * (upper - lower) =
          (4 * lower + part * (upper - lower) : ℤ) / 4 := by
        push_cast
        ring
      rw [hquarters]
      apply h.quarter
      interval_cases part <;> omega
    rw [hstep, h.intCast (by omega), hproduct, hsum]
    rfl

/-- The margin around the quartiles.  It reaches from a quartile at two quarters of the deviation or
more to the deviating value, and is small if the quartile is at one quarter. -/
theorem KeepsQuarters.margin (h : KeepsQuarters round) (quarters d : Nat) (hquarters : quarters ≤ 4)
    (hd : d < 2 ^ 51) :
    0 ≤ round (3 / 2 * round (quarters / 4 * d)) ∧
      (2 ≤ quarters → (d : ℚ) - quarters / 4 * d ≤ round (3 / 2 * round (quarters / 4 * d))) ∧
      (quarters ≤ 1 → round (3 / 2 * round (quarters / 4 * d)) ≤ d / 2) := by
  have hrange : round ((quarters : ℚ) / 4 * d) = quarters / 4 * d := by
    have hnumber : (quarters : ℚ) / 4 * d = (quarters * d : ℤ) / 4 := by
      push_cast
      ring
    rw [hnumber]
    apply h.quarter
    interval_cases quarters <;> omega
  have hd' : (0 : ℚ) ≤ d := Nat.cast_nonneg d
  rw [hrange]
  refine ⟨?_, ?_, ?_⟩
  · rw [← h.zero]
    exact h.mono (by positivity)
  · intro hmany
    have hrest : round ((d : ℚ) - quarters / 4 * d) = d - quarters / 4 * d := by
      have hnumber : (d : ℚ) - quarters / 4 * d = ((4 - quarters) * d : ℤ) / 4 := by
        push_cast
        ring
      rw [hnumber]
      apply h.quarter
      interval_cases quarters <;> omega
    rw [← hrest]
    apply h.mono
    have hmany' : (2 : ℚ) ≤ quarters := by exact_mod_cast hmany
    nlinarith
  · intro hfew
    have hhalf : round ((d : ℚ) / 2) = d / 2 := by
      have hnumber : (d : ℚ) / 2 = (2 * d : ℤ) / 4 := by
        push_cast
        ring
      rw [hnumber]
      exact h.quarter (2 * d) (by omega)
    rw [← hhalf]
    apply h.mono
    have hfew' : (quarters : ℚ) ≤ 1 := by exact_mod_cast hfew
    nlinarith

/-- The lower bound, if the deviating value is below the others: it is not above these, and it is
not above the deviating value if the margin reaches it. -/
theorem KeepsQuarters.lower_bound (h : KeepsQuarters round) {v b : ℤ} (hv : v.natAbs < 2 ^ 50)
    (hb : b.natAbs < 2 ^ 50) (hlt : v < b) {quarters : Nat} {margin : ℚ} (hpos : 0 ≤ margin)
    (hreach : 2 ≤ quarters → (b - v : ℚ) - quarters / 4 * (b - v) ≤ margin)
    (hshort : quarters ≤ 1 → margin ≤ (b - v) / 2) :
    round (b + quarters / 4 * (v - b) - margin) ≤ b ∧
      (round (b + quarters / 4 * (v - b) - margin) ≤ v ↔ 2 ≤ quarters) := by
  have hdeviation : (0 : ℚ) < b - v := by
    rw [sub_pos]
    exact_mod_cast hlt
  have hspread : 0 ≤ (quarters : ℚ) / 4 * (b - v) := by positivity
  refine ⟨?_, ?_⟩
  · rw [← h.intCast (v := b) (by omega)]
    apply h.mono
    rw [h.intCast (by omega)]
    linarith
  · constructor
    · intro hle
      by_contra hfew
      have hone : quarters ≤ 1 := by omega
      have hone' : (quarters : ℚ) ≤ 1 := by exact_mod_cast hone
      have hquarter : round ((v : ℚ) + (b - v) / 4) = v + (b - v) / 4 := by
        have hnumber : (v : ℚ) + (b - v) / 4 = (4 * v + (b - v) : ℤ) / 4 := by
          push_cast
          ring
        rw [hnumber]
        exact h.quarter _ (by omega)
      have hbetween : (v : ℚ) + (b - v) / 4 ≤ b + quarters / 4 * (v - b) - margin := by
        nlinarith [hshort hone]
      have hbound := (h.mono hbetween).trans hle
      rw [hquarter] at hbound
      linarith
    · intro hmany
      rw [← h.intCast (v := v) (by omega)]
      apply h.mono
      rw [h.intCast (by omega)]
      linarith [hreach hmany]

/-- The same rounding, seen from below. -/
theorem KeepsQuarters.neg (h : KeepsQuarters round) : KeepsQuarters fun x => -round (-x) where
  mono _ _ hle := neg_le_neg (h.mono (neg_le_neg hle))
  quarter k hk := by
    have hkept := h.quarter (-k) (by omega)
    push_cast at hkept
    rw [← neg_div, hkept, neg_div, neg_neg]

/-- The upper bound, if the deviating value is above the others. -/
theorem KeepsQuarters.upper_bound (h : KeepsQuarters round) {v b : ℤ} (hv : v.natAbs < 2 ^ 50)
    (hb : b.natAbs < 2 ^ 50) (hlt : b < v) {quarters : Nat} {margin : ℚ} (hpos : 0 ≤ margin)
    (hreach : 2 ≤ quarters → (v - b : ℚ) - quarters / 4 * (v - b) ≤ margin)
    (hshort : quarters ≤ 1 → margin ≤ (v - b) / 2) :
    b ≤ round (b + quarters / 4 * (v - b) + margin) ∧
      (v ≤ round (b + quarters / 4 * (v - b) + margin) ↔ 2 ≤ quarters) := by
  have hdistance : ((-b : ℤ) : ℚ) - (-v : ℤ) = v - b := by
    push_cast
    ring
  have hlower := h.neg.lower_bound (v := -v) (b := -b) (by omega) (by omega) (by omega) hpos
    (by rwa [hdistance]) (by rwa [hdistance])
  have hopposite : -(-(b : ℚ) + quarters / 4 * (-v - -b) - margin) =
      b + quarters / 4 * (v - b) + margin := by ring
  simp only [Int.cast_neg, neg_le_neg_iff] at hlower
  rwa [hopposite] at hlower

end Quarters

/-! ## The quartiles of equal values and a single other one -/

/-- How far the quartile on the side of a single deviating price is from the others, as a part of
the deviation. -/
def spread (n : Nat) : ℚ := ((7 - n : Nat) : ℚ) / 4

section Lone

variable {values : List Int} {b v : Int} {m : Nat}
  (hperm : values.Perm (v :: List.replicate m b)) (hmany : 2 ≤ m)

include hperm

theorem length_of_lone : values.length = m + 1 := by
  rw [hperm.length_eq, List.length_cons, List.length_replicate]

theorem ordered_perm : (sortedBy id values).Perm (v :: List.replicate m b) :=
  (sortedBy_perm id values).trans hperm

include hmany

/-- The quartiles of equal values with a single larger one. -/
theorem quartiles_of_lone_above (hv : b ≤ v) :
    percentile id values 25 = .ok b ∧
      percentile id values 75 = .ok (b + spread values.length * (v - b)) := by
  have hlength := length_of_lone hperm
  have hsorted := sortedBy_pairwise id values
  have hsame : ∀ i, i < m → ordered values i = b := fun i hi =>
    getD_lone_above hsorted (ordered_perm hperm) 0 hv hi
  have hlast : ordered values m = v :=
    getD_lone_last hsorted (ordered_perm hperm) 0 hv
  constructor
  · rcases percentile_bounds (rank_lower values) (by omega) (by omega) with ⟨q, hq, hlo, hhi⟩
    rw [hsame _ (by omega)] at hlo hhi
    rw [hq, le_antisymm hhi hlo]
  · by_cases hsmall : values.length ≤ 3
    · have hthree : m = 2 := by omega
      have hrank : (75 : ℚ) / 100 * (values.length + 1) = values.length := by
        rw [hlength, hthree]
        norm_num
      have hne : values ≠ [] := by
        intro hnil
        rw [hnil, List.length_nil] at hlength
        omega
      have hindex : values.length - 1 = m := by omega
      rw [percentile_last hrank hne, hindex, hlast, hlength, hthree]
      norm_num [spread]
    · by_cases hfew : values.length ≤ 7
      · have hlow : 3 * (values.length + 1) / 4 = m := by omega
        have hrest : 3 * (values.length + 1) % 4 = 7 - values.length := by omega
        rw [percentile_eq (rank_upper values) (by omega) (by omega), hlow, hrest, hlast,
          hsame _ (by omega)]
        rfl
      · have hzero : spread values.length = 0 := by
          have hnone : 7 - values.length = 0 := by omega
          rw [spread, hnone]
          norm_num
        rcases percentile_bounds (rank_upper values) (by omega) (by omega) with ⟨q, hq, hlo, hhi⟩
        rw [hsame _ (by omega)] at hlo hhi
        rw [hq, le_antisymm hhi hlo, hzero, zero_mul, add_zero]

/-- The quartiles of equal values with a single smaller one. -/
theorem quartiles_of_lone_below (hv : v ≤ b) :
    percentile id values 25 = .ok (b + spread values.length * (v - b)) ∧
      percentile id values 75 = .ok b := by
  have hlength := length_of_lone hperm
  have hsorted := sortedBy_pairwise id values
  have hsame : ∀ i, 1 ≤ i → i ≤ m → ordered values i = b := fun i hpos hi =>
    getD_lone_below hsorted (ordered_perm hperm) 0 hv hpos hi
  have hfirst : ordered values 0 = v :=
    getD_lone_first hsorted (ordered_perm hperm) 0 hv
  constructor
  · by_cases hfew : values.length < 7
    · have hlow : (values.length + 1) / 4 - 1 = 0 := by omega
      have hnext : (values.length + 1) / 4 = 1 := by omega
      have hrest : (values.length + 1) % 4 = values.length - 3 := by omega
      have hparts : ((values.length - 3 : Nat) : ℚ) = 4 - ((7 - values.length : Nat) : ℚ) := by
        rw [eq_sub_iff_add_eq]
        exact_mod_cast (by omega : values.length - 3 + (7 - values.length) = 4)
      rw [percentile_eq (rank_lower values) (by omega) (by omega), hlow, hnext, hrest, hfirst,
        hsame 1 le_rfl (by omega), hparts, spread]
      simp only [id]
      congr 1
      ring
    · have hzero : spread values.length = 0 := by
        have hnone : 7 - values.length = 0 := by omega
        rw [spread, hnone]
        norm_num
      rcases percentile_bounds (rank_lower values) (by omega) (by omega) with ⟨q, hq, hlo, hhi⟩
      rw [hsame _ (by omega) (by omega)] at hlo hhi
      rw [hq, le_antisymm hhi hlo, hzero, zero_mul, add_zero]
  · rcases percentile_bounds (rank_upper values) (by omega) (by omega) with ⟨q, hq, hlo, hhi⟩
    rw [hsame _ (by omega) (by omega)] at hlo hhi
    rw [hq, le_antisymm hhi hlo]

/-- The quartiles leave out a single deviating value from six values on. -/
theorem fences_of_lone {round : ℚ → ℚ} (hround : KeepsQuarters round) (hv : v.natAbs < 2 ^ 50)
    (hb : b.natAbs < 2 ^ 50) (hne : v ≠ b) :
    ∃ q1 q3, percentile round values 25 = .ok q1 ∧ percentile round values 75 = .ok q3 ∧
      withinFences round (3 / 2) q1 q3 b = true ∧
      (withinFences round (3 / 2) q1 q3 v = true ↔ values.length < 6) := by
  have hlength := length_of_lone hperm
  have hsmall : ∀ x ∈ values, x.natAbs < 2 ^ 50 := by
    intro x hx
    rcases List.mem_cons.mp (hperm.mem_iff.mp hx) with rfl | hx
    · exact hv
    · rw [List.eq_of_mem_replicate hx]
      exact hb
  have hexact := fun p (k : Nat) => percentile_of_keepsQuarters (p := p) (k := k) hround hsmall
  rw [hexact 25 _ (rank_lower values) (by omega) (by omega),
    hexact 75 _ (rank_upper values) (by omega) (by omega)]
  obtain ⟨d, hd⟩ : ∃ d : Nat, d = (v - b).natAbs := ⟨_, rfl⟩
  have hquarters : 2 ≤ 7 - values.length ↔ values.length < 6 := by omega
  obtain ⟨hpos, hreach, hshort⟩ := hround.margin (7 - values.length) d (by omega) (by omega)
  generalize hmargin : round (3 / 2 * round (((7 - values.length : Nat) : ℚ) / 4 * d)) = margin
    at hpos hreach hshort
  rw [← hquarters]
  rcases lt_or_gt_of_ne hne with hlt | hgt
  · rcases quartiles_of_lone_below hperm hmany hlt.le with ⟨hq1, hq3⟩
    have hdeviation : (d : ℚ) = b - v := by exact_mod_cast (by omega : (d : ℤ) = b - v)
    have hrange : (b : ℚ) - (b + spread values.length * (v - b)) =
        ((7 - values.length : Nat) : ℚ) / 4 * d := by
      rw [hdeviation, spread]
      ring
    rw [hdeviation] at hreach hshort
    obtain ⟨hbase, hdeviant⟩ := hround.lower_bound hv hb hlt hpos hreach hshort
    have hupper := hround.mono (le_add_of_nonneg_right hpos : (b : ℚ) ≤ _)
    rw [hround.intCast (by omega)] at hupper
    refine ⟨_, _, hq1, hq3, ?_, ?_⟩
    · rw [withinFences, decide_eq_true_iff, hrange, hmargin, spread]
      exact ⟨hbase, hupper⟩
    · rw [withinFences, decide_eq_true_iff, hrange, hmargin, spread,
        and_iff_left_of_imp fun _ => ?_]
      · exact hdeviant
      · exact le_trans (by exact_mod_cast hlt.le) hupper
  · rcases quartiles_of_lone_above hperm hmany hgt.le with ⟨hq1, hq3⟩
    have hdeviation : (d : ℚ) = v - b := by exact_mod_cast (by omega : (d : ℤ) = v - b)
    have hrange : (b : ℚ) + spread values.length * (v - b) - b =
        ((7 - values.length : Nat) : ℚ) / 4 * d := by
      rw [hdeviation, spread]
      ring
    rw [hdeviation] at hreach hshort
    obtain ⟨hbase, hdeviant⟩ := hround.upper_bound hv hb hgt hpos hreach hshort
    have hlower := hround.mono (sub_le_self (b : ℚ) hpos)
    rw [hround.intCast (by omega)] at hlower
    refine ⟨_, _, hq1, hq3, ?_, ?_⟩
    · rw [withinFences, decide_eq_true_iff, hrange, hmargin, spread]
      exact ⟨hlower, hbase⟩
    · rw [withinFences, decide_eq_true_iff, hrange, hmargin, spread,
        and_iff_right_of_imp fun _ => ?_]
      · exact hdeviant
      · exact hlower.trans (by exact_mod_cast hgt.le)

end Lone

/-- Equal numbers with a single other one have themselves as their median, if they are a float or
there is a middle one. -/
theorem median_of_lone (round : ℚ → ℚ) {values : List ℚ} {b v : ℚ} {m : Nat}
    (hperm : values.Perm (v :: List.replicate m b)) (hmany : 2 ≤ m) :
    median round values = if values.length % 2 = 1 then b else round b := by
  have hsorted := sortedBy_pairwise id values
  have hlone := (sortedBy_perm id values).trans hperm
  have hlength : (sortedBy id values).length = m + 1 := by
    rw [hlone.length_eq, List.length_cons, List.length_replicate]
  have hcount : values.length = m + 1 := by
    rw [hperm.length_eq, List.length_cons, List.length_replicate]
  have hmiddle : ∀ i, 1 ≤ i → i < m → (sortedBy id values).getD i 0 = b := fun i hpos hi =>
    getD_lone_middle hsorted hlone 0 hpos hi
  unfold median
  simp only [hlength, hcount]
  split
  · exact hmiddle _ (by omega) (by omega)
  · rw [hmiddle _ (by omega) (by omega), hmiddle _ (by omega) (by omega), add_self_div_two]

/-- All sources but one report the same price. -/
structure LoneDeviant (sources : List PriceSource) (deviant : PriceSource) (base : Int) :
    Prop where
  enough : 3 ≤ sources.length
  deviates : deviant.value ≠ base
  others : ∃ others : List PriceSource, sources.Perm (deviant :: others) ∧
    ∀ s ∈ others, s.value = base

/-- The prices of some sources are small enough for exact quartiles. -/
def SmallPrices (sources : List PriceSource) : Prop :=
  ∀ s ∈ sources, s.value.natAbs < 2 ^ 50

section Deviant

variable {round : ℚ → ℚ} {cfg : AggregationConfig} {sources : List PriceSource}
  {deviant : PriceSource} {base : Int}

theorem SmallPrices.perm {sources' : List PriceSource} (h : SmallPrices sources)
    (hperm : sources'.Perm sources) : SmallPrices sources' :=
  fun s hs => h s (hperm.mem_iff.mp hs)

theorem LoneDeviant.perm {sources' : List PriceSource} (h : LoneDeviant sources deviant base)
    (hperm : sources'.Perm sources) : LoneDeviant sources' deviant base := by
  rcases h.others with ⟨others, hothers, hbase⟩
  exact ⟨hperm.length_eq ▸ h.enough, h.deviates, others, hperm.trans hothers, hbase⟩

theorem LoneDeviant.values (h : LoneDeviant sources deviant base) :
    (sources.map fun s => s.value).Perm
      (deviant.value :: List.replicate (sources.length - 1) base) := by
  rcases h.others with ⟨others, hperm, hbase⟩
  have hlength : sources.length - 1 = (others.map fun s => s.value).length := by
    rw [hperm.length_eq, List.length_cons, List.length_map, Nat.add_sub_cancel]
  have hothers : others.map (fun s => s.value) = List.replicate (sources.length - 1) base := by
    rw [hlength, List.eq_replicate_length]
    intro x hx
    rcases List.mem_map.mp hx with ⟨s, hs, rfl⟩
    exact hbase s hs
  rw [← hothers]
  exact hperm.map _

theorem LoneDeviant.small (h : LoneDeviant sources deviant base) (hsmall : SmallPrices sources) :
    deviant.value.natAbs < 2 ^ 50 ∧ base.natAbs < 2 ^ 50 := by
  rcases h.others with ⟨others, hperm, hbase⟩
  have hlength := hperm.length_eq
  rw [List.length_cons] at hlength
  have hne : others ≠ [] := by
    rintro rfl
    have henough := h.enough
    rw [List.length_nil] at hlength
    omega
  obtain ⟨other, hother⟩ := List.exists_mem_of_ne_nil _ hne
  refine ⟨hsmall _ (hperm.mem_iff.mpr List.mem_cons_self), ?_⟩
  rw [← hbase other hother]
  exact hsmall _ (hperm.mem_iff.mpr (List.mem_cons_of_mem _ hother))

/-- A test that the deviating price passes rejects nothing. -/
theorem LoneDeviant.partition_all (h : LoneDeviant sources deviant base) {accept : Int → Bool}
    (hbase : accept base = true) (hdeviant : accept deviant.value = true) :
    partitionSources accept sources = (sources, []) := by
  rcases h.others with ⟨others, hperm, hothers⟩
  have hall : ∀ s ∈ sources, accept s.value = true := by
    intro s hs
    rcases List.mem_cons.mp (hperm.mem_iff.mp hs) with rfl | hs
    · exact hdeviant
    · rw [hothers s hs]
      exact hbase
  have hkept : sources.filter (fun s => accept s.value) = sources := List.filter_eq_self.mpr hall
  have hnone : sources.filter (fun s => !accept s.value) = [] := by
    rw [List.filter_eq_nil_iff]
    intro s hs
    simp [hall s hs]
  rw [partitionSources, hkept, hnone, List.map_nil]

/-- A test that the deviating price does not pass rejects just that. -/
theorem LoneDeviant.partition_rest (h : LoneDeviant sources deviant base) {accept : Int → Bool}
    (hbase : accept base = true) (hdeviant : accept deviant.value = false) :
    (partitionSources accept sources).2 = [deviant.sourceId] ∧
      (partitionSources accept sources).1.length = sources.length - 1 ∧
      ∀ s ∈ (partitionSources accept sources).1, s.value = base := by
  rcases h.others with ⟨others, hperm, hothers⟩
  have hkept : (sources.filter fun s => accept s.value).Perm others := by
    have hfilter : (deviant :: others).filter (fun s => accept s.value) = others := by
      rw [List.filter_cons_of_neg (by simp [hdeviant]), List.filter_eq_self]
      intro s hs
      rw [hothers s hs]
      exact hbase
    rw [← hfilter]
    exact hperm.filter _
  have hrejected : (sources.filter fun s => !accept s.value).Perm [deviant] := by
    have hfilter : (deviant :: others).filter (fun s => !accept s.value) = [deviant] := by
      rw [List.filter_cons_of_pos (by simp [hdeviant]), List.cons.injEq, List.filter_eq_nil_iff]
      refine ⟨rfl, ?_⟩
      intro s hs
      rw [hothers s hs, hbase]
      simp
    rw [← hfilter]
    exact hperm.filter _
  refine ⟨?_, ?_, ?_⟩
  · rw [partitionSources, List.perm_singleton.mp hrejected]
    rfl
  · rw [partitionSources, hkept.length_eq, hperm.length_eq, List.length_cons, Nat.add_sub_cancel]
  · intro s hs
    exact hothers s (hkept.mem_iff.mp hs)

/-- What the quartiles make of the two prices. -/
theorem LoneDeviant.fences (h : LoneDeviant sources deviant base) (hround : KeepsQuarters round)
    (hsmall : SmallPrices sources) (hmultiplier : cfg.iqrMultiplier = 3 / 2) :
    ∃ accept, rejectOutliersIqr round cfg sources = .ok (partitionSources accept sources) ∧
      accept base = true ∧ (accept deviant.value = true ↔ sources.length < 6) := by
  have hlength : (sources.map fun s => s.value).length = sources.length := List.length_map _
  have hmany : 2 ≤ sources.length - 1 := Nat.le_sub_one_of_lt h.enough
  obtain ⟨hdeviant, hbase⟩ := h.small hsmall
  rcases fences_of_lone h.values hmany hround hdeviant hbase h.deviates
    with ⟨q1, q3, hq1, hq3, hinside, houtside⟩
  refine ⟨_, rejectOutliersIqr_of_many h.enough hq1 hq3, ?_⟩
  rw [hmultiplier, ← hlength]
  exact ⟨hinside, houtside⟩

/-- Fewer than six sources are all kept by the quartiles. -/
theorem LoneDeviant.iqr_few (h : LoneDeviant sources deviant base) (hround : KeepsQuarters round)
    (hsmall : SmallPrices sources) (hmultiplier : cfg.iqrMultiplier = 3 / 2)
    (hfew : sources.length < 6) : rejectOutliersIqr round cfg sources = .ok (sources, []) := by
  obtain ⟨accept, hreject, hbase, hdeviant⟩ := h.fences hround hsmall hmultiplier
  rw [hreject, h.partition_all hbase (hdeviant.mpr hfew)]

/-- From six sources on, the quartiles reject the deviating one. -/
theorem LoneDeviant.iqr_many (h : LoneDeviant sources deviant base) (hround : KeepsQuarters round)
    (hsmall : SmallPrices sources) (hmultiplier : cfg.iqrMultiplier = 3 / 2)
    (hmany : 6 ≤ sources.length) :
    ∃ filtered, rejectOutliersIqr round cfg sources = .ok filtered ∧
      filtered.2 = [deviant.sourceId] ∧ filtered.1.length = sources.length - 1 ∧
      ∀ s ∈ filtered.1, s.value = base := by
  obtain ⟨accept, hreject, hbase, hdeviant⟩ := h.fences hround hsmall hmultiplier
  have houtside : accept deviant.value = false := by
    rw [Bool.eq_false_iff, ne_eq, hdeviant]
    exact Nat.not_lt.mpr hmany
  exact ⟨_, hreject, h.partition_rest hbase houtside⟩

/-- The deviations from the median have median zero, which keeps all sources. -/
theorem LoneDeviant.mad (h : LoneDeviant sources deviant base) (hround : KeepsQuarters round)
    (cfg : AggregationConfig) : rejectOutliersMad round cfg sources = (sources, []) := by
  have hmany : 2 ≤ sources.length - 1 := Nat.le_sub_one_of_lt h.enough
  have hvalues : (sources.map fun s => (s.value : ℚ)).Perm
      ((deviant.value : ℚ) :: List.replicate (sources.length - 1) (base : ℚ)) := by
    have hcast := h.values.map fun v : Int => (v : ℚ)
    rw [List.map_map, List.map_cons, List.map_replicate] at hcast
    exact hcast
  have hmedian := median_of_lone round hvalues hmany
  generalize hvalues' : sources.map (fun s => (s.value : ℚ)) = values at hvalues hmedian
  -- the others do not deviate: they are the median, or it is rounded from them
  have hagree : deviation round values.length (median round values) base = 0 := by
    rw [hmedian, deviation]
    split
    · rw [sub_self, abs_zero]
    · rw [sub_self, hround.zero, abs_zero]
  apply rejectOutliersMad_of_zero
  have hdeviations : (deviations round sources).Perm
      (deviation round values.length (median round values) deviant.value ::
        List.replicate (sources.length - 1) 0) := by
    have hmap := hvalues.map (deviation round values.length (median round values))
    rw [List.map_cons, List.map_replicate, hagree] at hmap
    rw [deviations, hvalues']
    exact hmap
  rw [median_of_lone round hdeviations hmany, hround.zero, ite_self]

/-- With the quartiles and six sources the deviating one is rejected. -/
theorem LoneDeviant.rejected (h : LoneDeviant sources deviant base) (hround : KeepsQuarters round)
    (hsmall : SmallPrices sources) (hmultiplier : cfg.iqrMultiplier = 3 / 2)
    (hmethod : cfg.outlierMethod = .iqr) (hmany : 6 ≤ sources.length) :
    ∃ filtered, rejectOutliers round cfg sources = .ok filtered ∧
      filtered.2 = [deviant.sourceId] ∧ filtered.1.length = sources.length - 1 ∧
      ∀ s ∈ filtered.1, s.value = base := by
  unfold rejectOutliers
  rw [hmethod]
  exact h.iqr_many hround hsmall hmultiplier hmany

/-- With another method or fewer sources all of them are kept. -/
theorem LoneDeviant.kept (h : LoneDeviant sources deviant base) (hround : KeepsQuarters round)
    (hsmall : cfg.outlierMethod = .iqr → SmallPrices sources)
    (hmultiplier : cfg.iqrMultiplier = 3 / 2)
    (hnot : ¬ (cfg.outlierMethod = .iqr ∧ 6 ≤ sources.length)) :
    rejectOutliers round cfg sources = .ok (sources, []) := by
  unfold rejectOutliers
  cases hmethod : cfg.outlierMethod with
  | iqr =>
      have hfew : sources.length < 6 := by
        by_contra hmany
        exact hnot ⟨hmethod, Nat.not_lt.mp hmany⟩
      exact h.iqr_few hround (hsmall hmethod) hmultiplier hfew
  | mad => exact congrArg Except.ok (h.mad hround cfg)
  | none => rfl

end Deviant

end OracleBridge
end Kraal
