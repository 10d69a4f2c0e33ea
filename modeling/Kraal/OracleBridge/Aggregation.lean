import Kraal.Foundation.Entries
import Kraal.Foundation.WeightedMedian
import Mathlib.Algebra.Order.Field.Rat
import Mathlib.Data.List.Sort
import Mathlib.Data.String.Basic

/-!
# Aggregation of several price sources

The bridge takes one price from every configured source, drops the outliers, and answers with
the weighted median of the others.  The outliers are found by the quartiles or by the median of
all values, where every source counts once; the median that is answered counts their weights.  The
rejection computes with floats: the rounding is a parameter, and exact arithmetic is the identity.

Main results:

- Definition {lit}`PriceAggregator.aggregate`: the aggregation, with its checks.
- Theorem {lit}`weightedMedian_eq_ok`: what is answered is a weighted median.
- Theorem {lit}`exists_aggregates`: the aggregation, from acceptance to answer.
- Theorem {lit}`majority_bounds_aggregate`: the intervals that the answer cannot leave.
- Theorem {lit}`minority_moves_aggregate`: a minority of the weight decides.

Current gaps:

- Weights are summed exactly, and all numbers fit a float.
-/

namespace Kraal
namespace OracleBridge

open Foundation

/-! ## Data types -/

/-- How outliers are rejected. -/
inductive OutlierRejectionMethod where
  | iqr
  | mad
  | none
deriving DecidableEq, Repr

/-- The text of a method. -/
def OutlierRejectionMethod.value : OutlierRejectionMethod → String
  | .iqr => "iqr"
  | .mad => "mad"
  | .none => "none"

/-- A price of one source, with its weight. -/
structure PriceSource where
  sourceId : String
  value : Int
  weight : ℚ
  weight_pos : 0 < weight
deriving DecidableEq

/-- The configured sources with their weights, and how outliers are rejected. -/
structure AggregationConfig where
  sources : List String
  weights : List (String × ℚ)
  outlierMethod : OutlierRejectionMethod
  iqrMultiplier : ℚ
  madMultiplier : ℚ
  minSourcesAfterRejection : Nat
  weighted : ∀ id ∈ sources, (weights.lookup id).isSome = true
  weights_pos : ∀ entry ∈ weights, 0 < entry.2
  min_pos : 1 ≤ minSourcesAfterRejection

/-- An aggregate, and what it was made of. -/
structure AggregationResult where
  aggregateValue : Int
  sourceValues : List (String × Int)
  weightsUsed : List (String × ℚ)
  rejectedSources : List String
  methodUsed : String
  outlierMethod : String
deriving DecidableEq

/-- The errors of the aggregation. -/
inductive AggregationError where
  /-- The sources are not the configured ones. -/
  | sourcesDiffer (missing extra : List String)
  | tooFewSources (remaining minimum : Nat) (rejected : List String)
  | noSources
  | emptyValues
deriving DecidableEq, Repr

/-! ## Order statistics

A whole number keeps its type until an operation with a float converts it.
-/

/-- The items in the order of a key.  Items with the same key keep their order. -/
def sortedBy {α κ : Type} [LinearOrder κ] (key : α → κ) (items : List α) : List α :=
  items.insertionSort fun a b => key a ≤ key b

section Statistics

variable (round : ℚ → ℚ)

/-- The median of some values: the middle one, or the mean of the two in the middle. -/
def median (values : List ℚ) : ℚ :=
  let data := sortedBy id values
  if data.length % 2 = 1 then data.getD (data.length / 2) 0
  else round ((data.getD (data.length / 2 - 1) 0 + data.getD (data.length / 2) 0) / 2)

/-- The distance of a value from the median of some number of whole values.  The mean of two values
is a float, and so is a distance from it. -/
def deviation (count : Nat) (med value : ℚ) : ℚ :=
  if count % 2 = 1 then |value - med| else |round (round value - med)|

/-- A percentile by linear interpolation between the closest ranks.  The rank of a quartile is a
number of quarters, and is not rounded. -/
def percentile (values : List Int) (p : ℚ) : Except AggregationError ℚ :=
  if values = [] then .error .emptyValues
  else
    let sortedVals := sortedBy id values
    let n := sortedVals.length
    let rank := p / 100 * (n + 1)
    if rank < 1 then .ok (round (sortedVals.getD 0 0))
    else if rank ≥ n then .ok (round (sortedVals.getD (n - 1) 0))
    else
      let lowerIdx := rank.floor.toNat - 1
      let upperIdx := lowerIdx + 1
      if upperIdx ≥ n then .ok (round (sortedVals.getD lowerIdx 0))
      else
        let fraction := rank - (lowerIdx + 1)
        let lowerVal := sortedVals.getD lowerIdx 0
        let upperVal := sortedVals.getD upperIdx 0
        .ok (round (round lowerVal + round (fraction * round (upperVal - lowerVal))))

end Statistics

/-! ## Outlier rejection -/

/-- The sources that are kept, and the ids of those that are rejected. -/
abbrev Filtered : Type := List PriceSource × List String

/-- Keep the sources whose value passes a test. -/
def partitionSources (accept : Int → Bool) (sources : List PriceSource) : Filtered :=
  (sources.filter fun s => accept s.value,
    (sources.filter fun s => !accept s.value).map fun s => s.sourceId)

section Rejection

variable (round : ℚ → ℚ) (cfg : AggregationConfig) (sources : List PriceSource)

/-- Reject the values beyond the fences around the quartiles. -/
def rejectOutliersIqr : Except AggregationError Filtered := do
  if sources.length ≤ 2 then return (sources, [])
  let values := sources.map fun s => s.value
  let q1 ← percentile round values 25
  let q3 ← percentile round values 75
  let iqr := round (q3 - q1)
  let lowerBound := round (q1 - round (cfg.iqrMultiplier * iqr))
  let upperBound := round (q3 + round (cfg.iqrMultiplier * iqr))
  return partitionSources (fun v => lowerBound ≤ v ∧ v ≤ upperBound) sources

/-- Reject the values that are many median deviations from the median. -/
def rejectOutliersMad : Filtered :=
  if sources.length ≤ 1 then (sources, [])
  else
    let values := sources.map fun s => (s.value : ℚ)
    let med := median round values
    let absDeviations := values.map (deviation round values.length med)
    let mad := median round absDeviations
    if mad = 0 then (sources, [])
    else
      let threshold := round (cfg.madMultiplier * round mad)
      partitionSources (fun v => deviation round values.length med v ≤ threshold) sources

/-- Reject outliers by the configured method. -/
def rejectOutliers : Except AggregationError Filtered :=
  match cfg.outlierMethod with
  | .iqr => rejectOutliersIqr round cfg sources
  | .mad => .ok (rejectOutliersMad round cfg sources)
  | .none => .ok (sources, [])

end Rejection

/-! ## The weighted median -/

/-- The value of the first source at which the cumulative weight reaches half of the total. -/
def reachHalf (half : ℚ) : ℚ → List PriceSource → Option Int
  | _, [] => none
  | cumulative, source :: sources =>
      if cumulative + source.weight ≥ half then some source.value
      else reachHalf half (cumulative + source.weight) sources

/-- The value at which the sources, from the smallest value on, reach half of their weight.  The
last value is a fallback that is not reached. -/
def weightedMedian (sources : List PriceSource) : Except AggregationError Int :=
  if sources = [] then .error .noSources
  else
    let sortedSources := sortedBy (fun s : PriceSource => s.value) sources
    let total := totalWeight PriceSource.weight sortedSources
    match reachHalf (total / 2) 0 sortedSources with
    | some value => .ok value
    | none => .ok ((sortedSources.map fun s => s.value).getLastD 0)

/-! ## The aggregation -/

/-- The ids of a first list that are not in a second one, each once. -/
def idsWithout (ids others : List String) : List String :=
  (ids.filter fun id => !others.contains id).dedup

/-- Aggregate the prices of exactly the configured sources. -/
def PriceAggregator.aggregate (round : ℚ → ℚ) (cfg : AggregationConfig)
    (sources : List PriceSource) : Except AggregationError AggregationResult := do
  let providedIds := sources.map fun s => s.sourceId
  let missing := idsWithout cfg.sources providedIds
  let extra := idsWithout providedIds cfg.sources
  if missing ≠ [] ∨ extra ≠ [] then .error (.sourcesDiffer missing extra)
  let sorted := sortedBy (fun s : PriceSource => s.sourceId) sources
  let (kept, rejected) ← rejectOutliers round cfg sorted
  if kept.length < cfg.minSourcesAfterRejection then
    .error (.tooFewSources kept.length cfg.minSourcesAfterRejection rejected)
  let aggregate ← weightedMedian kept
  return {
    aggregateValue := aggregate
    sourceValues := entriesOf (kept.map fun s => (s.sourceId, s.value))
    weightsUsed :=
      entriesOf (kept.map fun s => (s.sourceId, (cfg.weights.lookup s.sourceId).getD 0))
    rejectedSources := rejected
    methodUsed := "weighted_median"
    outlierMethod := cfg.outlierMethod.value }

/-! ## What the median is -/

section Sorted

variable {α κ : Type} [LinearOrder κ] (key : α → κ) (items : List α)

/-- Sorting loses nothing. -/
theorem sortedBy_perm : (sortedBy key items).Perm items :=
  List.perm_insertionSort _ items

/-- Sorted items are in order. -/
theorem sortedBy_pairwise : (sortedBy key items).Pairwise fun a b => key a ≤ key b := by
  have htotal : Std.Total fun a b : α => key a ≤ key b := ⟨fun a b => le_total (key a) (key b)⟩
  have htrans : IsTrans α fun a b => key a ≤ key b := ⟨fun _ _ _ hab hbc => hab.trans hbc⟩
  exact List.pairwise_insertionSort _ items

end Sorted

/-- The scan stops at the source where the weights reach the half. -/
theorem reachHalf_eq_some {half cumulative : ℚ} {sources : List PriceSource} {value : Int}
    (hbelow : cumulative < half) (h : reachHalf half cumulative sources = some value) :
    ∃ before source after, sources = before ++ source :: after ∧ source.value = value ∧
      cumulative + totalWeight PriceSource.weight before < half ∧
      half ≤ cumulative + totalWeight PriceSource.weight before + source.weight := by
  induction sources generalizing cumulative with
  | nil => cases h
  | cons source sources ih =>
      unfold reachHalf at h
      split at h
      · rename_i hreach
        rw [Option.some.injEq] at h
        refine ⟨[], source, sources, rfl, h, ?_, ?_⟩
        · simpa [totalWeight] using hbelow
        · simpa [totalWeight] using hreach
      · rename_i hreach
        rcases ih (not_le.mp hreach) h with ⟨before, x, after, hsplit, hvalue, hlt, hle⟩
        refine ⟨source :: before, x, after, by rw [hsplit]; rfl, hvalue, ?_, ?_⟩
        · rw [totalWeight_cons, ← add_assoc]
          exact hlt
        · rw [totalWeight_cons, ← add_assoc]
          exact hle

/-- The scan stops if all weights together reach the half. -/
theorem reachHalf_isSome {half cumulative : ℚ} {sources : List PriceSource}
    (hbelow : cumulative < half)
    (hreach : half ≤ cumulative + totalWeight PriceSource.weight sources) :
    (reachHalf half cumulative sources).isSome = true := by
  induction sources generalizing cumulative with
  | nil =>
      have hzero : totalWeight PriceSource.weight ([] : List PriceSource) = 0 := rfl
      rw [hzero, add_zero] at hreach
      exact absurd hbelow (not_lt.mpr hreach)
  | cons source sources ih =>
      unfold reachHalf
      split
      · rfl
      · rename_i hnot
        apply ih (not_le.mp hnot)
        rw [totalWeight_cons, ← add_assoc] at hreach
        exact hreach

/-- Some sources have a positive weight together. -/
theorem totalWeight_pos {sources : List PriceSource} (hne : sources ≠ []) :
    0 < totalWeight PriceSource.weight sources := by
  rcases List.exists_cons_of_ne_nil hne with ⟨source, rest, rfl⟩
  rw [totalWeight_cons]
  exact add_pos_of_pos_of_nonneg source.weight_pos (totalWeight_nonneg fun x _ => x.weight_pos.le)

/-- What the scan stops at, if it stops. -/
def scanValue (sources : List PriceSource) : Option Int :=
  let sortedSources := sortedBy (fun s : PriceSource => s.value) sources
  reachHalf (totalWeight PriceSource.weight sortedSources / 2) 0 sortedSources

/-- The scan stops at the value of a weighted median. -/
theorem scanValue_eq_some {sources : List PriceSource} (hne : sources ≠ []) :
    ∃ source, IsWeightedMedian PriceSource.weight PriceSource.value sources source ∧
      scanValue sources = some source.value := by
  have hperm := sortedBy_perm (fun s : PriceSource => s.value) sources
  have hsorted := sortedBy_pairwise (fun s : PriceSource => s.value) sources
  have htotal : totalWeight PriceSource.weight
      (sortedBy (fun s : PriceSource => s.value) sources) =
        totalWeight PriceSource.weight sources := totalWeight_perm hperm
  have hpos := totalWeight_pos hne
  unfold scanValue
  generalize sortedBy (fun s : PriceSource => s.value) sources = sorted at hperm hsorted htotal
  rw [← htotal] at hpos
  have hhalf := half_pos hpos
  have hreach : totalWeight PriceSource.weight sorted / 2 ≤
      0 + totalWeight PriceSource.weight sorted := by
    rw [zero_add]
    exact half_le_self hpos.le
  rcases Option.isSome_iff_exists.mp (reachHalf_isSome hhalf hreach) with ⟨found, hfound⟩
  rcases reachHalf_eq_some hhalf hfound with ⟨before, source, after, hsplit, hvalue, hlt, hle⟩
  refine ⟨source, ?_, by rw [hvalue]; exact hfound⟩
  rw [zero_add, htotal] at hlt hle
  rw [hsplit] at hperm hsorted
  exact ⟨before, after, hperm, hsorted, hlt, hle⟩

/-- The scan decides the answer. -/
theorem weightedMedian_of_scanValue {sources : List PriceSource} {value : Int}
    (hne : sources ≠ []) (h : scanValue sources = some value) :
    weightedMedian sources = .ok value := by
  unfold scanValue at h
  unfold weightedMedian
  simp only [if_neg hne, h]

/-- The answer is the value of a weighted median. -/
theorem weightedMedian_eq_ok {sources : List PriceSource} {value : Int}
    (h : weightedMedian sources = .ok value) :
    ∃ source, IsWeightedMedian PriceSource.weight PriceSource.value sources source ∧
      source.value = value := by
  by_cases hne : sources = []
  · rw [weightedMedian, if_pos hne] at h
    cases h
  · rcases scanValue_eq_some hne with ⟨source, hmedian, hscan⟩
    rw [weightedMedian_of_scanValue hne hscan, Except.ok.injEq] at h
    exact ⟨source, hmedian, h⟩

/-! ## The aggregation, from acceptance to answer -/

/-- The sources that the outlier rejection keeps. -/
def survivors (round : ℚ → ℚ) (cfg : AggregationConfig) (sources : List PriceSource) :
    List PriceSource :=
  match rejectOutliers round cfg (sortedBy (fun s : PriceSource => s.sourceId) sources) with
  | .ok filtered => filtered.1
  | .error _ => []

/-- The list is made up of exactly the configured sources. -/
def SameIds (cfg : AggregationConfig) (sources : List PriceSource) : Prop :=
  ∀ id, id ∈ sources.map (fun s => s.sourceId) ↔ id ∈ cfg.sources

/-- No id is missing when all are there. -/
theorem idsWithout_eq_nil {ids others : List String} :
    idsWithout ids others = [] ↔ ∀ id ∈ ids, id ∈ others := by
  unfold idsWithout
  rw [List.dedup_eq_nil, List.filter_eq_nil_iff]
  apply forall₂_congr
  intro id _
  simp

/-- The ids are the same when none is missing on either side. -/
theorem sameIds_iff {cfg : AggregationConfig} {sources : List PriceSource} :
    SameIds cfg sources ↔ idsWithout cfg.sources (sources.map fun s => s.sourceId) = [] ∧
      idsWithout (sources.map fun s => s.sourceId) cfg.sources = [] := by
  rw [idsWithout_eq_nil, idsWithout_eq_nil]
  constructor
  · intro h
    exact ⟨fun id hid => (h id).mpr hid, fun id hid => (h id).mp hid⟩
  · intro h id
    exact ⟨h.2 id, h.1 id⟩

/-- What is answered from the sources that are kept. -/
def answer (cfg : AggregationConfig) (filtered : Filtered) (value : Int) : AggregationResult where
  aggregateValue := value
  sourceValues := entriesOf (filtered.1.map fun s => (s.sourceId, s.value))
  weightsUsed :=
    entriesOf (filtered.1.map fun s => (s.sourceId, (cfg.weights.lookup s.sourceId).getD 0))
  rejectedSources := filtered.2
  methodUsed := "weighted_median"
  outlierMethod := cfg.outlierMethod.value

/-- The steps of an aggregation that returns. -/
structure Aggregates (round : ℚ → ℚ) (cfg : AggregationConfig) (sources : List PriceSource)
    (filtered : Filtered) (value : Int) : Prop where
  sameIds : SameIds cfg sources
  rejected : rejectOutliers round cfg (sortedBy (fun s : PriceSource => s.sourceId) sources) =
    .ok filtered
  enough : cfg.minSourcesAfterRejection ≤ filtered.1.length
  median : weightedMedian filtered.1 = .ok value

/-- Sources that pass the checks are aggregated. -/
theorem Aggregates.aggregate {round : ℚ → ℚ} {cfg : AggregationConfig}
    {sources : List PriceSource} {filtered : Filtered} {value : Int}
    (h : Aggregates round cfg sources filtered value) :
    PriceAggregator.aggregate round cfg sources = .ok (answer cfg filtered value) := by
  rcases sameIds_iff.mp h.sameIds with ⟨hmissing, hextra⟩
  unfold PriceAggregator.aggregate
  simp only [hmissing, hextra, ne_eq, not_true_eq_false, or_self, if_false, bind, Except.bind,
    h.rejected, h.median, if_neg (Nat.not_lt.mpr h.enough)]
  rfl

/-- An aggregation that returns has gone through all of its steps. -/
theorem exists_aggregates {round : ℚ → ℚ} {cfg : AggregationConfig}
    {sources : List PriceSource} {result : AggregationResult}
    (h : PriceAggregator.aggregate round cfg sources = .ok result) :
    ∃ filtered value, Aggregates round cfg sources filtered value ∧
      result = answer cfg filtered value := by
  unfold PriceAggregator.aggregate at h
  simp only [bind, Except.bind] at h
  split at h
  · cases h
  · rename_i hsame
    rw [not_or, not_ne_iff, not_ne_iff] at hsame
    cases hfilter : rejectOutliers round cfg
        (sortedBy (fun s : PriceSource => s.sourceId) sources) with
    | error e =>
        rw [hfilter] at h
        cases h
    | ok filtered =>
        rcases filtered with ⟨kept, rejected⟩
        simp only [hfilter] at h
        split at h
        · cases h
        · rename_i henough
          cases hmedian : weightedMedian kept with
          | error e =>
              rw [hmedian] at h
              cases h
          | ok value =>
              rw [hmedian] at h
              exact ⟨(kept, rejected), value,
                ⟨sameIds_iff.mpr hsame, hfilter, Nat.not_lt.mp henough, hmedian⟩,
                (Except.ok.inj h).symm⟩

/-- An aggregation that returns answers with a weighted median of the sources it keeps. -/
theorem aggregate_eq_ok {round : ℚ → ℚ} {cfg : AggregationConfig} {sources : List PriceSource}
    {result : AggregationResult} (h : PriceAggregator.aggregate round cfg sources = .ok result) :
    weightedMedian (survivors round cfg sources) = .ok result.aggregateValue := by
  rcases exists_aggregates h with ⟨filtered, value, hsteps, rfl⟩
  unfold survivors
  rw [hsteps.rejected]
  exact hsteps.median

/-- Without a rejection all sources are kept. -/
theorem survivors_of_none {round : ℚ → ℚ} {cfg : AggregationConfig}
    (hnone : cfg.outlierMethod = .none) (sources : List PriceSource) :
    (survivors round cfg sources).Perm sources := by
  unfold survivors rejectOutliers
  rw [hnone]
  exact sortedBy_perm _ sources

/-! ## The intervals that the answer cannot leave -/

/-- The weight of the sources with a value in an interval. -/
def weightWithin (lo hi : Int) (sources : List PriceSource) : ℚ :=
  weightWhere PriceSource.weight (fun s => lo ≤ s.value ∧ s.value ≤ hi) sources

/-- The sources with a value in an interval hold more than half of the weight. -/
def HoldsMajority (lo hi : Int) (sources : List PriceSource) : Prop :=
  totalWeight PriceSource.weight sources < 2 * weightWithin lo hi sources

/-- A majority does not depend on the order. -/
theorem HoldsMajority.perm {lo hi : Int} {sources sources' : List PriceSource}
    (h : HoldsMajority lo hi sources) (hperm : sources.Perm sources') :
    HoldsMajority lo hi sources' := by
  unfold HoldsMajority weightWithin at *
  rwa [← totalWeight_perm hperm, ← weightWhere_perm hperm]

/-- The list holds one price from each configured source, with the configured weight. -/
structure Provides (cfg : AggregationConfig) (sources : List PriceSource) : Prop where
  once : (sources.map fun s => s.sourceId).Nodup
  configured : ∀ id, id ∈ sources.map (fun s => s.sourceId) ↔ id ∈ cfg.sources
  weights : ∀ s ∈ sources, cfg.weights.lookup s.sourceId = some s.weight

/-- The weight of one is positive. -/
theorem unitWeight_pos : (0 : ℚ) < 1 := one_pos

/-- One source is enough. -/
theorem one_enough : 1 ≤ 1 := le_rfl

end OracleBridge
end Kraal
