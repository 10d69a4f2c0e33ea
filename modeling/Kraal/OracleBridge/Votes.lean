import Kraal.Foundation.Double
import Kraal.OracleBridge.Outliers

/-!
# The votes of the sources

What the answer of an aggregation says about the prices and the weights that went into it.  The
median counts the weights of the price objects, and every object in the list; the report names the
configured weights, and every source once.

Main results:

- Theorem {lit}`weightedMedian_balances`: the answer of the median, for any sources.
- Theorem {lit}`explained_iff`: when the reported weights explain the reported value.
- Theorem {lit}`oneVoteEach_iff`: when every source has one vote.
-/

namespace Kraal
namespace OracleBridge

open Foundation

/-! ## The weighted median -/

section Median

variable {sources : List PriceSource}

/-- At most half of the weight lies below a value, and at most half above it. -/
structure Balances (sources : List PriceSource) (v : Int) : Prop where
  below : weightBelow PriceSource.weight PriceSource.value v sources ≤
    totalWeight PriceSource.weight sources / 2
  above : weightAbove PriceSource.weight PriceSource.value v sources ≤
    totalWeight PriceSource.weight sources / 2

/-- Weights are not negative. -/
theorem weight_nonneg (sources : List PriceSource) : ∀ s ∈ sources, 0 ≤ PriceSource.weight s :=
  fun s _ => s.weight_pos.le

/-- A weighted median balances the weights. -/
theorem balances_of_isWeightedMedian {source : PriceSource}
    (h : IsWeightedMedian PriceSource.weight PriceSource.value sources source) :
    Balances sources source.value where
  below := (h.weightBelow_lt (weight_nonneg sources)).le
  above := h.weightAbove_le (weight_nonneg sources)

/-- Sources in any order have the same median. -/
theorem weightedMedian_perm {sources' : List PriceSource} {m : Int} (hperm : sources.Perm sources')
    (h : weightedMedian sources = .ok m) : weightedMedian sources' = .ok m := by
  rcases weightedMedian_eq_ok h with ⟨source, hmedian, rfl⟩
  have hne : sources' ≠ [] := by
    intro hnil
    rw [hnil, List.perm_nil] at hperm
    rw [hperm] at hmedian
    exact absurd hmedian.mem List.not_mem_nil
  rcases scanValue_eq_some hne with ⟨source', hmedian', hscan⟩
  rw [weightedMedian_of_scanValue hne hscan,
    hmedian.value_eq_of_perm (weight_nonneg sources) hmedian' hperm]

/-- The median of some sources is the smallest value that balances them.  The scan finds it before
it runs to its end, whatever the order of the sources. -/
theorem weightedMedian_balances (hne : sources ≠ []) :
    ∃ m, weightedMedian sources = .ok m ∧ scanValue sources = some m ∧
      (∃ s ∈ sources, s.value = m) ∧ Balances sources m ∧
      (∀ s ∈ sources, Balances sources s.value → m ≤ s.value) ∧
      ∀ sources' : List PriceSource, sources.Perm sources' → weightedMedian sources' = .ok m := by
  rcases scanValue_eq_some hne with ⟨source, hmedian, hscan⟩
  have hanswer := weightedMedian_of_scanValue hne hscan
  refine ⟨source.value, hanswer, hscan, ⟨source, hmedian.mem, rfl⟩,
    balances_of_isWeightedMedian hmedian, ?_, ?_⟩
  · intro s _ hs
    exact hmedian.ge_of_weightAbove (weight_nonneg sources) hs.above
  · intro sources' hperm
    exact weightedMedian_perm hperm hanswer

end Median

/-- Two sources that hold half of the weight each, and agree with nobody. -/
def evenSources : List PriceSource := [⟨"a", 7, 2, two_pos⟩, ⟨"b", 3, 2, two_pos⟩]

/-- The smaller of the two prices is answered. -/
theorem evenSources_balanced : ∃ m, weightedMedian evenSources = .ok m ∧
    scanValue evenSources = some m ∧ (∃ s ∈ evenSources, s.value = m) ∧ Balances evenSources m ∧
    (∀ s ∈ evenSources, Balances evenSources s.value → m ≤ s.value) ∧
    ∀ sources' : List PriceSource, evenSources.Perm sources' → weightedMedian sources' = .ok m :=
  weightedMedian_balances (List.cons_ne_nil _ _)

/-! ## The reported weights -/

section Report

variable {round : ℚ → ℚ} {cfg : AggregationConfig} {sources kept : List PriceSource}
  {result : AggregationResult}

/-- The prices in the report. -/
def reportedValues (kept : List PriceSource) : List (String × Int) :=
  entriesOf (kept.map fun s => (s.sourceId, s.value))

/-- The weights in the report. -/
def reportedWeights (cfg : AggregationConfig) (kept : List PriceSource) : List (String × ℚ) :=
  entriesOf (kept.map fun s => (s.sourceId, (cfg.weights.lookup s.sourceId).getD 0))

/-- The price that is reported for the source of a weight. -/
def valueUnder (values : List (String × Int)) (entry : String × ℚ) : Int :=
  (values.lookup entry.1).getD 0

/-- The reported value is a weighted median of the reported prices under the reported weights. -/
structure Explained (result : AggregationResult) : Prop where
  below : weightBelow Prod.snd (valueUnder result.sourceValues) result.aggregateValue
    result.weightsUsed ≤ totalWeight Prod.snd result.weightsUsed / 2
  above : weightAbove Prod.snd (valueUnder result.sourceValues) result.aggregateValue
    result.weightsUsed ≤ totalWeight Prod.snd result.weightsUsed / 2

/-- The cheapest sources that are a minority of the weights on the price objects are no majority of
the configured weights, and neither are the most expensive ones. -/
structure WeightsAgree (cfg : AggregationConfig) (kept : List PriceSource) : Prop where
  cheapest : ∀ v, weightBelow PriceSource.weight PriceSource.value v kept <
      totalWeight PriceSource.weight kept / 2 →
    weightBelow Prod.snd (valueUnder (reportedValues kept)) v (reportedWeights cfg kept) ≤
      totalWeight Prod.snd (reportedWeights cfg kept) / 2
  dearest : ∀ v, weightAbove PriceSource.weight PriceSource.value v kept ≤
      totalWeight PriceSource.weight kept / 2 →
    weightAbove Prod.snd (valueUnder (reportedValues kept)) v (reportedWeights cfg kept) ≤
      totalWeight Prod.snd (reportedWeights cfg kept) / 2

/-- A configured weight is not negative. -/
theorem lookup_getD_nonneg (cfg : AggregationConfig) (id : String) :
    0 ≤ (cfg.weights.lookup id).getD 0 := by
  cases hweight : cfg.weights.lookup id with
  | none => exact le_rfl
  | some weight =>
      rcases List.lookup_eq_some_iff.mp hweight with ⟨before, after, hsplit, -⟩
      apply (cfg.weights_pos (id, weight) _).le
      rw [hsplit]
      exact List.mem_append_right _ List.mem_cons_self

/-- A reported weight is not negative. -/
theorem reportedWeights_nonneg : ∀ entry ∈ reportedWeights cfg kept, 0 ≤ entry.2 := by
  intro entry hentry
  rcases List.mem_map.mp (mem_of_mem_entriesOf hentry) with ⟨s, -, rfl⟩
  exact lookup_getD_nonneg cfg s.sourceId

/-- The survivors are the sources that were kept. -/
theorem survivors_eq {filtered : Filtered} {value : Int}
    (h : Aggregates round cfg sources filtered value) :
    survivors round cfg sources = filtered.1 := by
  unfold survivors
  rw [h.rejected]

/-- The median of the kept sources, and what the report says about its value. -/
theorem exists_median (h : PriceAggregator.aggregate round cfg sources = .ok result) :
    ∃ source, IsWeightedMedian PriceSource.weight PriceSource.value
      (survivors round cfg sources) source ∧
      result.aggregateValue = source.value ∧
      result.sourceValues = reportedValues (survivors round cfg sources) ∧
      result.weightsUsed = reportedWeights cfg (survivors round cfg sources) := by
  rcases weightedMedian_eq_ok (aggregate_eq_ok h) with ⟨source, hmedian, hvalue⟩
  rcases exists_aggregates h with ⟨filtered, value, hsteps, rfl⟩
  rw [survivors_eq hsteps] at hmedian ⊢
  exact ⟨source, hmedian, hvalue.symm, rfl, rfl⟩

/-- If the report explains the aggregate the weights agree. -/
theorem Explained.weightsAgree (h : PriceAggregator.aggregate round cfg sources = .ok result)
    (hexplained : Explained result) : WeightsAgree cfg (survivors round cfg sources) := by
  rcases exists_median h with ⟨source, hmedian, hvalue, hvalues, hweights⟩
  have hpos := weight_nonneg (survivors round cfg sources)
  rcases hexplained with ⟨hbelow, habove⟩
  rw [hvalue, hvalues, hweights] at hbelow habove
  constructor
  · intro v hv
    have hle := hmedian.le_of_weightBelow hpos hv
    refine le_trans (weightWhere_mono reportedWeights_nonneg ?_) hbelow
    intro entry _ hentry
    exact lt_of_lt_of_le hentry hle
  · intro v hv
    have hle := hmedian.ge_of_weightAbove hpos hv
    refine le_trans (weightWhere_mono reportedWeights_nonneg ?_) habove
    intro entry _ hentry
    exact lt_of_le_of_lt hle hentry

/-- If the weights agree the report explains the aggregate. -/
theorem WeightsAgree.explained (h : PriceAggregator.aggregate round cfg sources = .ok result)
    (hagree : WeightsAgree cfg (survivors round cfg sources)) : Explained result := by
  rcases exists_median h with ⟨source, hmedian, hvalue, hvalues, hweights⟩
  have hpos := weight_nonneg (survivors round cfg sources)
  constructor
  · rw [hvalue, hvalues, hweights]
    exact hagree.cheapest source.value (hmedian.weightBelow_lt hpos)
  · rw [hvalue, hvalues, hweights]
    exact hagree.dearest source.value (hmedian.weightAbove_le hpos)

/-- The reported weights explain the reported value exactly if they agree with the weights on the
price objects about what a minority is. -/
theorem explained_iff (h : PriceAggregator.aggregate round cfg sources = .ok result) :
    Explained result ↔ WeightsAgree cfg (survivors round cfg sources) :=
  ⟨Explained.weightsAgree h, WeightsAgree.explained h⟩

/-! ### Prices that carry the configured weights -/

/-- The survivors come in the order of their ids. -/
theorem survivors_sublist (h : PriceAggregator.aggregate round cfg sources = .ok result) :
    (survivors round cfg sources).Sublist
      (sortedBy (fun s : PriceSource => s.sourceId) sources) := by
  rcases exists_aggregates h with ⟨filtered, value, hsteps, rfl⟩
  rcases rejectOutliers_splits hsteps.rejected with ⟨outliers, -, hkept, -, -⟩
  rw [survivors_eq hsteps]
  exact hkept

/-- If every source is kept once, with its configured weight, then the report holds the weights and
prices of the price objects. -/
theorem weightsAgree_of_configured (honce : (kept.map fun s => s.sourceId).Nodup)
    (hweights : ∀ s ∈ kept, cfg.weights.lookup s.sourceId = some s.weight) :
    WeightsAgree cfg kept := by
  have hvalues : reportedValues kept = kept.map fun s => (s.sourceId, s.value) := by
    apply entriesOf_eq
    rw [List.map_map]
    exact honce
  have hreported : reportedWeights cfg kept =
      kept.map fun s => (s.sourceId, (cfg.weights.lookup s.sourceId).getD 0) := by
    apply entriesOf_eq
    rw [List.map_map]
    exact honce
  have hprice : ∀ s ∈ kept, ∀ weight,
      valueUnder (reportedValues kept) (s.sourceId, weight) = s.value := by
    intro s hs weight
    have hkeys : ((reportedValues kept).map Prod.fst).Nodup := keys_entriesOf_nodup
    have hlookup : (reportedValues kept).lookup s.sourceId = some s.value := by
      rw [lookup_eq_some_iff_mem hkeys, hvalues]
      exact List.mem_map_of_mem hs
    rw [valueUnder, hlookup, Option.getD_some]
  have hweight : ∀ s ∈ kept, (cfg.weights.lookup s.sourceId).getD 0 = s.weight := by
    intro s hs
    rw [hweights s hs, Option.getD_some]
  have htotal : totalWeight Prod.snd (reportedWeights cfg kept) =
      totalWeight PriceSource.weight kept := by
    rw [hreported, totalWeight, totalWeight, List.map_map]
    congr 1
    exact List.map_congr_left hweight
  constructor
  · intro v hv
    rw [htotal]
    apply le_of_eq_of_le _ hv.le
    rw [hreported]
    exact weightWhere_map hweight fun s hs => by rw [hprice s hs]
  · intro v hv
    rw [htotal]
    apply le_of_eq_of_le _ hv
    rw [hreported]
    exact weightWhere_map hweight fun s hs => by rw [hprice s hs]

/-- Prices with their configured weights, one from each source, are reported as they are
counted. -/
theorem Provides.explained (hprovides : Provides cfg sources)
    (h : PriceAggregator.aggregate round cfg sources = .ok result) : Explained result := by
  apply WeightsAgree.explained h
  have hperm := sortedBy_perm (fun s : PriceSource => s.sourceId) sources
  have hsub := survivors_sublist h
  apply weightsAgree_of_configured
  · exact ((hperm.map _).nodup_iff.mpr hprovides.once).sublist (hsub.map _)
  · intro s hs
    exact hprovides.weights s (hperm.mem_iff.mp (hsub.subset hs))

end Report

/-- Weights of which one is larger than all others together. -/
def biasedWeights : List (String × ℚ) := [("a", 1), ("b", 3)]

/-- Both sources have a weight. -/
theorem lookup_biasedWeights : ∀ id ∈ ["a", "b"], (biasedWeights.lookup id).isSome = true := by
  decide

/-- Both weights are positive. -/
theorem biasedWeights_pos : ∀ entry ∈ biasedWeights, 0 < entry.2 := by
  decide

/-- Two sources of which the second one counts three times as much. -/
def biasedConfig : AggregationConfig where
  sources := ["a", "b"]
  weights := biasedWeights
  outlierMethod := .none
  iqrMultiplier := 3 / 2
  madMultiplier := 56 / 25
  minSourcesAfterRejection := 1
  weighted := lookup_biasedWeights
  weights_pos := biasedWeights_pos
  min_pos := one_enough

/-- Their prices, with the default weight. -/
def unweightedSources : List PriceSource :=
  [⟨"a", 10, 1, unitWeight_pos⟩, ⟨"b", 20, 1, unitWeight_pos⟩]

/-- The price of the source with the smaller configured weight is answered, and the report claims
that the other one counted three times as much. -/
theorem reported_weights_ignored : ¬ ∀ (cfg : AggregationConfig) (sources : List PriceSource)
    (result : AggregationResult), PriceAggregator.aggregate id cfg sources = .ok result →
    Explained result := by
  intro h
  have hresult : PriceAggregator.aggregate id biasedConfig unweightedSources = .ok ⟨10,
      [("a", 10), ("b", 20)], [("a", 1), ("b", 3)], [], "weighted_median", "none"⟩ := by
    decide +kernel
  have habove := (h biasedConfig unweightedSources _ hresult).above
  unfold weightAbove weightWhere totalWeight at habove
  exact absurd habove (by decide +kernel)

/-- The larger weight is positive. -/
theorem threefoldWeight_pos : (0 : ℚ) < 3 := three_pos

/-- Weights on the price objects that are the configured ones. -/
def weightedSources : List PriceSource :=
  [⟨"a", 10, 1, unitWeight_pos⟩, ⟨"b", 20, 3, threefoldWeight_pos⟩]

/-- The sources are those of the configuration. -/
theorem weightedSources_provided : Provides biasedConfig weightedSources where
  once := by decide
  configured := by
    intro id
    rfl
  weights := by decide +kernel

theorem weightedSources_explained :
    ∃ result, PriceAggregator.aggregate id biasedConfig weightedSources = .ok result ∧
      Explained result := by
  have hresult : PriceAggregator.aggregate id biasedConfig weightedSources = .ok ⟨20,
      [("a", 10), ("b", 20)], [("a", 1), ("b", 3)], [], "weighted_median", "none"⟩ := by
    decide +kernel
  have hperm : (survivors id biasedConfig weightedSources).Perm weightedSources :=
    survivors_of_none rfl weightedSources
  have hagree : WeightsAgree biasedConfig (survivors id biasedConfig weightedSources) := by
    apply weightsAgree_of_configured
    · exact (hperm.map _).nodup_iff.mpr weightedSources_provided.once
    · intro s hs
      exact weightedSources_provided.weights s (hperm.mem_iff.mp hs)
  exact ⟨_, hresult, (explained_iff hresult).mpr hagree⟩

/-! ## One vote for each source -/

section OneVote

variable {round : ℚ → ℚ} {cfg : AggregationConfig} {sources : List PriceSource}
  {result : AggregationResult}

/-- Every configured source has one vote: its price is counted once or rejected once, and so it is
reported.  The result does not depend on the order of the prices. -/
structure OneVoteEach (round : ℚ → ℚ) (cfg : AggregationConfig) (sources : List PriceSource)
    (result : AggregationResult) : Prop where
  votes : ((survivors round cfg sources).map (fun s => s.sourceId) ++ result.rejectedSources).Perm
    cfg.sources.dedup
  reported : result.sourceValues.length + result.rejectedSources.length =
    cfg.sources.dedup.length
  all : result.sourceValues.length + result.rejectedSources.length = sources.length
  ordered : ∀ sources' : List PriceSource, sources.Perm sources' →
    PriceAggregator.aggregate round cfg sources' = .ok result

/-- Distinct sources in any order are sorted alike. -/
theorem sortedBy_eq_of_perm {sources' : List PriceSource}
    (honce : (sources.map fun s => s.sourceId).Nodup) (hperm : sources.Perm sources') :
    sortedBy (fun s : PriceSource => s.sourceId) sources =
      sortedBy (fun s : PriceSource => s.sourceId) sources' := by
  have hleft := sortedBy_perm (fun s : PriceSource => s.sourceId) sources
  have hright := sortedBy_perm (fun s : PriceSource => s.sourceId) sources'
  apply (hleft.trans (hperm.trans hright.symm)).eq_of_pairwise _
    (sortedBy_pairwise _ sources) (sortedBy_pairwise _ sources')
  intro a b ha hb hab hba
  -- the id tells the sources apart
  exact List.inj_on_of_nodup_map honce (hleft.mem_iff.mp ha)
    (hperm.mem_iff.mpr (hright.mem_iff.mp hb)) (le_antisymm hab hba)

/-- The ids do not depend on the order. -/
theorem SameIds.perm {sources' : List PriceSource} (h : SameIds cfg sources)
    (hperm : sources.Perm sources') : SameIds cfg sources' := by
  intro id
  rw [← h id]
  exact ((hperm.map _).mem_iff).symm

/-- The aggregate does not depend on the order. -/
theorem aggregate_perm {sources' : List PriceSource}
    (honce : (sources.map fun s => s.sourceId).Nodup) (hperm : sources.Perm sources')
    (h : PriceAggregator.aggregate round cfg sources = .ok result) :
    PriceAggregator.aggregate round cfg sources' = .ok result := by
  rcases exists_aggregates h with ⟨filtered, value, hsteps, rfl⟩
  have hrejected := hsteps.rejected
  rw [sortedBy_eq_of_perm honce hperm] at hrejected
  exact Aggregates.aggregate ⟨hsteps.sameIds.perm hperm, hrejected, hsteps.enough, hsteps.median⟩

/-- The ids of the kept sources and of the rejected ones are those of all sources. -/
theorem Splits.ids {filtered : Filtered} (h : Splits sources filtered) :
    (filtered.1.map (fun s => s.sourceId) ++ filtered.2).Perm
      (sources.map fun s => s.sourceId) := by
  rcases h with ⟨outliers, hids, -, -, hperm⟩
  rw [hids, ← List.map_append]
  exact hperm.map _

/-- Every source has one vote exactly if no source comes twice in the list. -/
theorem oneVoteEach_iff (h : PriceAggregator.aggregate round cfg sources = .ok result) :
    OneVoteEach round cfg sources result ↔ (sources.map fun s => s.sourceId).Nodup := by
  rcases exists_aggregates h with ⟨filtered, value, hsteps, hresult⟩
  have hperm := sortedBy_perm (fun s : PriceSource => s.sourceId) sources
  have hsplits := rejectOutliers_splits hsteps.rejected
  have hconfigured : (sources.map fun s => s.sourceId).dedup.Perm cfg.sources.dedup := by
    rw [List.perm_ext_iff_of_nodup (List.nodup_dedup _) (List.nodup_dedup _)]
    intro id
    rw [List.mem_dedup, List.mem_dedup]
    exact hsteps.sameIds id
  constructor
  · intro hvotes
    have hlength : (sources.map fun s => s.sourceId).dedup.length =
        (sources.map fun s => s.sourceId).length := by
      rw [hconfigured.length_eq, List.length_map, ← hvotes.reported, hvotes.all]
    rw [← List.dedup_eq_self]
    exact (List.dedup_sublist _).eq_of_length hlength
  · intro honce
    have hids : (filtered.1.map (fun s => s.sourceId) ++ filtered.2).Perm cfg.sources.dedup := by
      rw [List.dedup_eq_self.mpr honce] at hconfigured
      exact hsplits.ids.trans ((hperm.map _).trans hconfigured)
    have hkept : (filtered.1.map fun s => s.sourceId).Nodup :=
      (List.nodup_append.mp (hids.nodup_iff.mpr (List.nodup_dedup _))).1
    have hvalues : result.sourceValues.length = filtered.1.length := by
      rw [hresult, answer, length_entriesOf, List.map_map]
      change (filtered.1.map fun s => s.sourceId).dedup.length = _
      rw [List.dedup_eq_self.mpr hkept, List.length_map]
    have hrejected : result.rejectedSources = filtered.2 := by
      rw [hresult]
      rfl
    constructor
    · rw [survivors_eq hsteps, hrejected]
      exact hids
    · rw [hvalues, hrejected, ← hids.length_eq, List.length_append, List.length_map]
    · rw [hvalues, hrejected, hsplits.length, hperm.length_eq]
    · intro sources' hperm'
      exact aggregate_perm honce hperm' h

end OneVote

/-- A list in which the first source comes twice. -/
def repeatedSources : List PriceSource :=
  [⟨"a", 10, 1, unitWeight_pos⟩, ⟨"a", 10, 1, unitWeight_pos⟩, ⟨"b", 20, 1, unitWeight_pos⟩]

/-- The source that comes twice has two votes, and is reported once. -/
theorem repeated_source_votes_twice : ¬ ∀ (cfg : AggregationConfig) (sources : List PriceSource)
    (result : AggregationResult), PriceAggregator.aggregate roundDouble cfg sources = .ok result →
    OneVoteEach roundDouble cfg sources result := by
  intro h
  have hresult : PriceAggregator.aggregate roundDouble biasedConfig repeatedSources = .ok ⟨10,
      [("a", 10), ("b", 20)], [("a", 1), ("b", 3)], [], "weighted_median", "none"⟩ := by
    decide +kernel
  exact absurd (h biasedConfig repeatedSources _ hresult).all (by decide)

theorem weightedSources_vote_once :
    ∃ result, PriceAggregator.aggregate roundDouble biasedConfig weightedSources = .ok result ∧
      OneVoteEach roundDouble biasedConfig weightedSources result := by
  have hresult : PriceAggregator.aggregate roundDouble biasedConfig weightedSources = .ok ⟨20,
      [("a", 10), ("b", 20)], [("a", 1), ("b", 3)], [], "weighted_median", "none"⟩ := by
    decide +kernel
  exact ⟨_, hresult, (oneVoteEach_iff hresult).mpr weightedSources_provided.once⟩

end OracleBridge
end Kraal
