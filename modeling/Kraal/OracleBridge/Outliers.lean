import Kraal.Foundation.OrderStatistics
import Kraal.OracleBridge.Aggregation
import Mathlib.Data.Rat.Floor

/-!
# Outliers

What the two rejections keep.  They split the sources, and in exact arithmetic they keep at least
half of them, whatever the prices are.

Main results:

- Theorem {lit}`rejectOutliers_splits`: every source is kept or rejected.
- Theorem {lit}`percentile_eq`: a quartile interpolates between two neighbours.
- Theorem {lit}`percentile_bounds`: the values between which a percentile lies.
- Theorem {lit}`rejection_keeps_majority`: at least half of the sources are kept.
-/

namespace Kraal
namespace OracleBridge

open Foundation

/-! ## Kept and rejected sources -/

section Split

variable {round : ℚ → ℚ} {cfg : AggregationConfig} {sources : List PriceSource}
  {filtered : Filtered}

/-- Every source is kept or rejected, and none is both.  The kept sources keep their order, and so
do the rejected ones. -/
def Splits (sources : List PriceSource) (filtered : Filtered) : Prop :=
  ∃ outliers : List PriceSource, filtered.2 = outliers.map (fun s => s.sourceId) ∧
    filtered.1.Sublist sources ∧ outliers.Sublist sources ∧
    (filtered.1 ++ outliers).Perm sources

/-- A partition loses no source. -/
theorem splits_partitionSources (accept : Int → Bool) (sources : List PriceSource) :
    Splits sources (partitionSources accept sources) :=
  ⟨sources.filter fun s => !accept s.value, rfl, List.filter_sublist, List.filter_sublist,
    List.filter_append_perm _ _⟩

/-- Keeping all sources loses none. -/
theorem splits_all (sources : List PriceSource) : Splits sources (sources, []) :=
  ⟨[], rfl, List.Sublist.refl _, List.nil_sublist _, by rw [List.append_nil]⟩

/-- Rejection by quartiles loses no source. -/
theorem rejectOutliersIqr_splits (h : rejectOutliersIqr round cfg sources = .ok filtered) :
    Splits sources filtered := by
  unfold rejectOutliersIqr at h
  simp only [bind, Except.bind, pure, Except.pure] at h
  split at h
  · cases h
    exact splits_all sources
  · split at h
    · cases h
    · split at h
      · cases h
      · cases h
        exact splits_partitionSources _ _

/-- Rejection by the median deviation loses no source. -/
theorem rejectOutliersMad_splits (round : ℚ → ℚ) (cfg : AggregationConfig)
    (sources : List PriceSource) : Splits sources (rejectOutliersMad round cfg sources) := by
  unfold rejectOutliersMad
  simp only
  split
  · exact splits_all sources
  · split
    · exact splits_all sources
    · exact splits_partitionSources _ _

/-- Rejection loses no source. -/
theorem rejectOutliers_splits (h : rejectOutliers round cfg sources = .ok filtered) :
    Splits sources filtered := by
  unfold rejectOutliers at h
  split at h
  · exact rejectOutliersIqr_splits h
  · cases h
    exact rejectOutliersMad_splits round cfg sources
  · cases h
    exact splits_all sources

/-- The sources that are kept and those that are rejected are all. -/
theorem Splits.length (h : Splits sources filtered) :
    filtered.1.length + filtered.2.length = sources.length := by
  rcases h with ⟨outliers, hids, -, -, hperm⟩
  rw [hids, List.length_map, ← List.length_append, hperm.length_eq]

/-- How many sources a test keeps. -/
theorem length_partitionSources (accept : Int → Bool) (sources : List PriceSource) :
    (partitionSources accept sources).1.length =
      (sources.map fun s => s.value).countP accept := by
  rw [partitionSources, ← List.countP_eq_length_filter, List.countP_map]
  rfl

end Split

/-! ## Percentiles -/

section Percentile

variable {round : ℚ → ℚ} {values : List Int} {p : ℚ} {k : Nat}

/-- The values in their order, by their positions. -/
def ordered (values : List Int) (i : Nat) : Int :=
  (sortedBy id values).getD i 0

/-- The ordered values ascend. -/
theorem ordered_mono (values : List Int) {i j : Nat} (hij : i ≤ j) (hj : j < values.length) :
    ordered values i ≤ ordered values j := by
  have hlength := (sortedBy_perm id values).length_eq
  exact getD_mono (sortedBy_pairwise id values) hij (hlength ▸ hj) 0

/-- A percentile whose rank is a number of quarters below the length interpolates between two
neighbours. -/
theorem percentile_eq (hrank : p / 100 * (values.length + 1) = k / 4) (hlow : 4 ≤ k)
    (hhigh : k < 4 * values.length) :
    percentile round values p = .ok (round (round (ordered values (k / 4 - 1)) +
      round (((k % 4 : Nat) : ℚ) / 4 *
        round (ordered values (k / 4) - ordered values (k / 4 - 1))))) := by
  have hne : values ≠ [] := by
    intro hnil
    rw [hnil, List.length_nil] at hhigh
    omega
  have hlength := (sortedBy_perm id values).length_eq
  have hnot_low : ¬ (k / 4 : ℚ) < 1 := by
    rw [not_lt, le_div_iff₀ (by norm_num)]
    exact_mod_cast (by omega : 1 * 4 ≤ k)
  have hnot_high : ¬ (k / 4 : ℚ) ≥ values.length := by
    rw [ge_iff_le, not_le, div_lt_iff₀ (by norm_num)]
    exact_mod_cast (by omega : k < values.length * 4)
  have hfloor : (k / 4 : ℚ).floor.toNat = k / 4 := by
    have hint : (k / 4 : ℚ).floor = ((k / 4 : Nat) : Int) := Rat.floor_natCast_div_natCast k 4
    rw [hint, Int.toNat_natCast]
  have hupper : k / 4 - 1 + 1 = k / 4 := by omega
  have hnot_upper : ¬ k / 4 ≥ values.length := by omega
  have hfraction : (k / 4 : ℚ) - ((k / 4 - 1 : Nat) + 1) = ((k % 4 : Nat) : ℚ) / 4 := by
    have hdiv : (k : ℚ) = 4 * ((k / 4 - 1 : Nat) + 1) + (k % 4 : Nat) := by
      exact_mod_cast (by omega : k = 4 * (k / 4 - 1 + 1) + k % 4)
    rw [hdiv]
    ring
  unfold percentile ordered
  simp only [if_neg hne, hlength, hrank, if_neg hnot_low, if_neg hnot_high, hfloor, hupper,
    if_neg hnot_upper, hfraction]

/-- A percentile whose rank is the length is the last value. -/
theorem percentile_last (hrank : p / 100 * (values.length + 1) = values.length)
    (hne : values ≠ []) :
    percentile round values p = .ok (round (ordered values (values.length - 1))) := by
  have hlength := (sortedBy_perm id values).length_eq
  have hnot_low : ¬ (values.length : ℚ) < 1 := by
    rw [not_lt]
    exact_mod_cast List.length_pos_iff.mpr hne
  unfold percentile ordered
  simp only [if_neg hne, hlength, hrank, if_neg hnot_low, ge_iff_le, le_refl, if_true]

/-- The values between which a percentile lies in exact arithmetic. -/
theorem percentile_bounds (hrank : p / 100 * (values.length + 1) = k / 4) (hlow : 4 ≤ k)
    (hhigh : k ≤ 4 * values.length) :
    ∃ q, percentile id values p = .ok q ∧ (ordered values (k / 4 - 1) : ℚ) ≤ q ∧
      q ≤ ordered values ((k + 3) / 4 - 1) := by
  rcases hhigh.eq_or_lt with rfl | hlt
  · have hne : values ≠ [] := by
      rintro rfl
      simp at hlow
    have hlast : p / 100 * (values.length + 1) = values.length := by
      rw [hrank]
      push_cast
      ring
    have hindex : 4 * values.length / 4 - 1 = values.length - 1 := by omega
    have hindex' : (4 * values.length + 3) / 4 - 1 = values.length - 1 := by omega
    have hvalue : percentile id values p = .ok (ordered values (values.length - 1) : ℚ) :=
      percentile_last hlast hne
    exact ⟨_, hvalue, by rw [hindex], by rw [hindex']⟩
  · have hvalue : percentile id values p = .ok (ordered values (k / 4 - 1) +
        ((k % 4 : Nat) : ℚ) / 4 * (ordered values (k / 4) - ordered values (k / 4 - 1))) :=
      percentile_eq hrank hlow hlt
    refine ⟨_, hvalue, ?_, ?_⟩
    · have hmono := ordered_mono values (i := k / 4 - 1) (j := k / 4) (by omega) (by omega)
      have hstep : (0 : ℚ) ≤ ordered values (k / 4) - ordered values (k / 4 - 1) := by
        rw [sub_nonneg]
        exact_mod_cast hmono
      have hpart : (0 : ℚ) ≤ ((k % 4 : Nat) : ℚ) / 4 := by positivity
      linarith [mul_nonneg hpart hstep]
    · by_cases hwhole : k % 4 = 0
      · have hindex : (k + 3) / 4 - 1 = k / 4 - 1 := by omega
        rw [hindex, hwhole]
        simp
      · have hindex : (k + 3) / 4 - 1 = k / 4 := by omega
        have hmono := ordered_mono values (i := k / 4 - 1) (j := k / 4) (by omega) (by omega)
        have hstep : (0 : ℚ) ≤ ordered values (k / 4) - ordered values (k / 4 - 1) := by
          rw [sub_nonneg]
          exact_mod_cast hmono
        have hpart : ((k % 4 : Nat) : ℚ) / 4 ≤ 1 := by
          rw [div_le_one (by norm_num)]
          exact_mod_cast (by omega : k % 4 ≤ 4)
        rw [hindex]
        linarith [mul_le_mul_of_nonneg_right hpart hstep]

end Percentile

/-! ## At least half is kept -/

section Majority

variable {values : List Int} {n : Nat}

/-- The ranks of the quartiles of some values, in quarters. -/
theorem rank_lower (values : List Int) :
    (25 : ℚ) / 100 * (values.length + 1) = ((values.length + 1 : Nat) : ℚ) / 4 := by
  push_cast
  ring

/-- The rank of the upper quartile. -/
theorem rank_upper (values : List Int) :
    (75 : ℚ) / 100 * (values.length + 1) = ((3 * (values.length + 1) : Nat) : ℚ) / 4 := by
  push_cast
  ring

/-- Every exact median is at least the value in the lower middle. -/
theorem le_median (values : List ℚ) :
    (sortedBy id values).getD ((values.length - 1) / 2) 0 ≤ median id values := by
  have hlength := (sortedBy_perm id values).length_eq
  have hsorted := sortedBy_pairwise id values
  unfold median
  simp only [hlength, id_eq]
  split
  · rename_i hodd
    have hindex : (values.length - 1) / 2 = values.length / 2 := by omega
    rw [hindex]
  · rename_i heven
    have hindex : (values.length - 1) / 2 = values.length / 2 - 1 := by omega
    rw [hindex]
    by_cases hnil : values.length = 0
    · have hempty : sortedBy id values = [] := List.eq_nil_of_length_eq_zero (hlength.trans hnil)
      simp [hempty]
    · have hmono := getD_mono (i := values.length / 2 - 1) (j := values.length / 2) hsorted
        (by omega) (by omega) 0
      linarith

/-- The median of values that are not negative is not negative. -/
theorem median_nonneg {values : List ℚ} (h : ∀ x ∈ values, 0 ≤ x) : 0 ≤ median id values := by
  apply le_trans _ (le_median values)
  rw [List.getD_eq_getElem?_getD]
  cases hget : (sortedBy id values)[(values.length - 1) / 2]? with
  | none => exact le_rfl
  | some x => exact h x ((sortedBy_perm id values).mem_iff.mp (List.mem_of_getElem? hget))

/-- At least half of some values are not above their median. -/
theorem half_le_countP_median (values : List ℚ) :
    values.length ≤ 2 * values.countP fun x => x ≤ median id values := by
  by_cases hnil : values.length = 0
  · omega
  · have hperm := sortedBy_perm id values
    have hlength := hperm.length_eq
    have hcount : (values.length - 1) / 2 + 1 - 0 ≤
        (sortedBy id values).countP fun x => x ≤ median id values := by
      apply le_countP_of_between (sortedBy_pairwise id values) (by omega) 0
      intro x _ hx
      exact decide_eq_true (hx.trans (le_median values))
    rw [hperm.countP_eq] at hcount
    omega

/-- At least half of some values lie between the positions next to the quartiles. -/
theorem half_le_countP_quartiles (hmany : 3 ≤ values.length) {accept : Int → Bool}
    (haccept : ∀ v, ordered values ((values.length + 1 + 3) / 4 - 1) ≤ v →
      v ≤ ordered values (3 * (values.length + 1) / 4 - 1) → accept v = true) :
    values.length ≤ 2 * values.countP accept := by
  have hperm := sortedBy_perm id values
  have hlength := hperm.length_eq
  have hcount := le_countP_of_between (sortedBy_pairwise id values) (by omega) 0 haccept
  rw [hperm.countP_eq] at hcount
  omega

/-- A price is not outside of the quartiles by more than a multiple of their distance. -/
def withinFences (round : ℚ → ℚ) (multiplier q1 q3 : ℚ) (v : Int) : Bool :=
  round (q1 - round (multiplier * round (q3 - q1))) ≤ v ∧
    v ≤ round (q3 + round (multiplier * round (q3 - q1)))

/-- A value between the quartiles is within the fences. -/
theorem withinFences_of_between {multiplier q1 q3 : ℚ} {v : Int} (hmultiplier : 0 ≤ multiplier)
    (hlow : q1 ≤ v) (hhigh : v ≤ q3) : withinFences id multiplier q1 q3 v = true := by
  have hrange : 0 ≤ multiplier * (q3 - q1) := mul_nonneg hmultiplier (by linarith)
  unfold withinFences
  simp only [id_eq]
  exact decide_eq_true ⟨by linarith, by linarith⟩

/-- Few sources are all kept. -/
theorem rejectOutliersIqr_of_few {sources : List PriceSource} (round : ℚ → ℚ)
    (cfg : AggregationConfig) (hfew : sources.length ≤ 2) :
    rejectOutliersIqr round cfg sources = .ok (sources, []) := by
  unfold rejectOutliersIqr
  rw [if_pos hfew]
  rfl

/-- Three sources or more are partitioned by the fences. -/
theorem rejectOutliersIqr_of_many {round : ℚ → ℚ} {cfg : AggregationConfig}
    {sources : List PriceSource} {q1 q3 : ℚ} (hmany : 3 ≤ sources.length)
    (hq1 : percentile round (sources.map fun s => s.value) 25 = .ok q1)
    (hq3 : percentile round (sources.map fun s => s.value) 75 = .ok q3) :
    rejectOutliersIqr round cfg sources =
      .ok (partitionSources (withinFences round cfg.iqrMultiplier q1 q3) sources) := by
  unfold rejectOutliersIqr
  rw [if_neg (by omega)]
  simp only [bind, Except.bind, pure, Except.pure, hq1, hq3]
  rfl

/-- The quartiles keep at least half of the sources. -/
theorem rejectOutliersIqr_keeps {cfg : AggregationConfig} (hmultiplier : 0 ≤ cfg.iqrMultiplier)
    (sources : List PriceSource) :
    ∃ filtered, rejectOutliersIqr id cfg sources = .ok filtered ∧
      sources.length ≤ 2 * filtered.1.length := by
  by_cases hfew : sources.length ≤ 2
  · exact ⟨_, rejectOutliersIqr_of_few id cfg hfew, Nat.le_mul_of_pos_left _ Nat.two_pos⟩
  · have hmany : 3 ≤ sources.length := Nat.lt_of_not_le hfew
    have hlength : (sources.map fun s => s.value).length = sources.length := List.length_map _
    rcases percentile_bounds (rank_lower (sources.map fun s => s.value)) (by omega) (by omega)
      with ⟨q1, hq1, -, hlow⟩
    rcases percentile_bounds (rank_upper (sources.map fun s => s.value)) (by omega) (by omega)
      with ⟨q3, hq3, hhigh, -⟩
    refine ⟨_, rejectOutliersIqr_of_many hmany hq1 hq3, ?_⟩
    rw [length_partitionSources, ← hlength]
    apply half_le_countP_quartiles (hlength.symm ▸ hmany)
    intro v hlo hhi
    apply withinFences_of_between hmultiplier
    · exact hlow.trans (by exact_mod_cast hlo)
    · exact le_trans (by exact_mod_cast hhi) hhigh

/-- The distances of some prices from their median. -/
def deviations (round : ℚ → ℚ) (sources : List PriceSource) : List ℚ :=
  let values := sources.map fun s => (s.value : ℚ)
  values.map (deviation round values.length (median round values))

/-- The deviation in exact arithmetic. -/
theorem deviation_id (count : Nat) (med value : ℚ) : deviation id count med value = |value - med| :=
  ite_self _

/-- A price deviates from the median of some number of prices by at most some distance. -/
def withinDistance (round : ℚ → ℚ) (count : Nat) (distance med : ℚ) (v : Int) : Bool :=
  deviation round count med v ≤ distance

/-- If the values hardly deviate none is rejected. -/
theorem rejectOutliersMad_of_zero {round : ℚ → ℚ} {sources : List PriceSource}
    (cfg : AggregationConfig) (hzero : median round (deviations round sources) = 0) :
    rejectOutliersMad round cfg sources = (sources, []) := by
  unfold rejectOutliersMad
  split
  · rfl
  · exact if_pos hzero

/-- Otherwise the sources are partitioned by their distance. -/
theorem rejectOutliersMad_of_ne_zero {sources : List PriceSource} (cfg : AggregationConfig)
    (hmany : 1 < sources.length) (hzero : median id (deviations id sources) ≠ 0) :
    rejectOutliersMad id cfg sources = partitionSources (withinDistance id sources.length
      (cfg.madMultiplier * median id (deviations id sources))
      (median id (sources.map fun s => (s.value : ℚ)))) sources := by
  have hlength : (sources.map fun s => (s.value : ℚ)).length = sources.length :=
    List.length_map _
  unfold rejectOutliersMad
  rw [if_neg (Nat.not_le.mpr hmany), ← hlength]
  exact if_neg hzero

/-- The median of the deviations keeps at least half of the sources. -/
theorem rejectOutliersMad_keeps {cfg : AggregationConfig} (hmultiplier : 1 ≤ cfg.madMultiplier)
    (sources : List PriceSource) :
    sources.length ≤ 2 * (rejectOutliersMad id cfg sources).1.length := by
  by_cases hfew : sources.length ≤ 1
  · rw [rejectOutliersMad, if_pos hfew]
    exact Nat.le_mul_of_pos_left _ Nat.two_pos
  · by_cases hzero : median id (deviations id sources) = 0
    · rw [rejectOutliersMad_of_zero cfg hzero]
      exact Nat.le_mul_of_pos_left _ Nat.two_pos
    · rw [rejectOutliersMad_of_ne_zero cfg (Nat.not_le.mp hfew) hzero, length_partitionSources]
      have hnonneg : 0 ≤ median id (deviations id sources) := by
        apply median_nonneg
        intro x hx
        rcases List.mem_map.mp hx with ⟨v, -, rfl⟩
        rw [deviation_id]
        exact abs_nonneg _
      have hthreshold : median id (deviations id sources) ≤
          cfg.madMultiplier * median id (deviations id sources) :=
        le_mul_of_one_le_left hnonneg hmultiplier
      have hhalf := half_le_countP_median (deviations id sources)
      have hkept : (deviations id sources).countP
            (fun x => x ≤ median id (deviations id sources)) ≤
          (sources.map fun s => s.value).countP (withinDistance id sources.length
            (cfg.madMultiplier * median id (deviations id sources))
            (median id (sources.map fun s => (s.value : ℚ)))) := by
        generalize median id (deviations id sources) = mad at hthreshold
        rw [deviations, List.countP_map, List.countP_map, List.countP_map, List.length_map]
        apply List.countP_mono_left
        intro s _ hs
        simp only [Function.comp_apply, decide_eq_true_eq] at hs
        exact decide_eq_true (hs.trans hthreshold)
      have hlength : (deviations id sources).length = sources.length := by
        rw [deviations, List.length_map, List.length_map]
      omega

/-- Sources of which at least one is kept have a median. -/
theorem exists_weightedMedian {sources : List PriceSource} (hne : sources ≠ []) :
    ∃ value, weightedMedian sources = .ok value := by
  rcases scanValue_eq_some hne with ⟨source, -, hscan⟩
  exact ⟨_, weightedMedian_of_scanValue hne hscan⟩

/-- In exact arithmetic both rejections split the sources and keep at least half of them.  So an
aggregation that asks for at most half of its sources answers. -/
theorem rejection_keeps_majority (cfg : AggregationConfig) (hiqr : 0 ≤ cfg.iqrMultiplier)
    (hmad : 1 ≤ cfg.madMultiplier) (sources : List PriceSource) :
    (∃ filtered, rejectOutliersIqr id cfg sources = .ok filtered ∧ Splits sources filtered ∧
      sources.length ≤ 2 * filtered.1.length) ∧
    (Splits sources (rejectOutliersMad id cfg sources) ∧
      sources.length ≤ 2 * (rejectOutliersMad id cfg sources).1.length) ∧
    (SameIds cfg sources → 2 * cfg.minSourcesAfterRejection ≤ sources.length →
      ∃ result, PriceAggregator.aggregate id cfg sources = .ok result) := by
  refine ⟨?_, ⟨rejectOutliersMad_splits id cfg sources, rejectOutliersMad_keeps hmad sources⟩, ?_⟩
  · rcases rejectOutliersIqr_keeps hiqr sources with ⟨filtered, hfiltered, hhalf⟩
    exact ⟨filtered, hfiltered, rejectOutliersIqr_splits hfiltered, hhalf⟩
  · intro hsame hmin
    have hkept : ∃ filtered,
        rejectOutliers id cfg (sortedBy (fun s : PriceSource => s.sourceId) sources) =
            .ok filtered ∧
          sources.length ≤ 2 * filtered.1.length := by
      rw [← (sortedBy_perm (fun s : PriceSource => s.sourceId) sources).length_eq]
      unfold rejectOutliers
      cases cfg.outlierMethod with
      | iqr => exact rejectOutliersIqr_keeps hiqr _
      | mad => exact ⟨_, rfl, rejectOutliersMad_keeps hmad _⟩
      | none => exact ⟨_, rfl, Nat.le_mul_of_pos_left _ Nat.two_pos⟩
    rcases hkept with ⟨filtered, hfiltered, hhalf⟩
    have henough : cfg.minSourcesAfterRejection ≤ filtered.1.length := by omega
    have hne : filtered.1 ≠ [] := by
      intro hnil
      have hpos := cfg.min_pos
      rw [hnil, List.length_nil] at henough
      omega
    rcases exists_weightedMedian hne with ⟨value, hvalue⟩
    exact ⟨_, Aggregates.aggregate ⟨hsame, hfiltered, henough, hvalue⟩⟩

end Majority

/-- Every source has the same weight. -/
def equalWeights (ids : List String) : List (String × ℚ) := ids.map fun id => (id, 1)

/-- Equal weights are positive. -/
theorem equalWeights_pos (ids : List String) : ∀ entry ∈ equalWeights ids, 0 < entry.2 := by
  intro entry hentry
  rcases List.mem_map.mp hentry with ⟨id, -, rfl⟩
  exact unitWeight_pos

/-- Every source has its weight. -/
theorem lookup_equalWeights (ids : List String) :
    ∀ id ∈ ids, ((equalWeights ids).lookup id).isSome = true := by
  intro id hid
  rw [List.lookup_isSome_iff]
  exact ⟨(id, 1), List.mem_map_of_mem hid, beq_self_eq_true id⟩

/-- Six sources, of which five agree. -/
def sixConfig : AggregationConfig where
  sources := ["a", "b", "c", "d", "e", "f"]
  weights := equalWeights ["a", "b", "c", "d", "e", "f"]
  outlierMethod := .iqr
  iqrMultiplier := 3 / 2
  madMultiplier := 56 / 25
  minSourcesAfterRejection := 1
  weighted := lookup_equalWeights _
  weights_pos := equalWeights_pos _
  min_pos := one_enough

/-- Six sources, one of which deviates. -/
def sixSources : List PriceSource :=
  ⟨"a", 1300, 1, unitWeight_pos⟩ ::
    ["b", "c", "d", "e", "f"].map fun id => ⟨id, 1000, 1, unitWeight_pos⟩

/-- The six sources are those of the configuration. -/
theorem sameIds_sixSources : SameIds sixConfig sixSources := by
  rw [sameIds_iff]
  exact ⟨by decide, by decide⟩

/-- The six sources are split by both rejections, and an aggregation of them answers. -/
theorem sixSources_split :
    ((∃ filtered, rejectOutliersIqr id sixConfig sixSources = .ok filtered ∧
      Splits sixSources filtered ∧ sixSources.length ≤ 2 * filtered.1.length) ∧
    (Splits sixSources (rejectOutliersMad id sixConfig sixSources) ∧
      sixSources.length ≤ 2 * (rejectOutliersMad id sixConfig sixSources).1.length)) ∧
    ∃ result, PriceAggregator.aggregate id sixConfig sixSources = .ok result := by
  have hkept := rejection_keeps_majority sixConfig (by decide +kernel) (by decide +kernel)
    sixSources
  exact ⟨⟨hkept.1, hkept.2.1⟩, hkept.2.2 sameIds_sixSources (by decide)⟩

end OracleBridge
end Kraal
