import Kraal.CarbonOracle.CommitReveal

/-!
# The provenance of aggregated prices

The signature of an aggregate covers its feed, value, time and number of sources.  The
sources themselves, the methods and the content identifier are stored beside them, and no
signature covers those.

Main results:

- Theorem {lit}`Aggregation.message_eq_iff`: what the signed message determines.
- Theorem {lit}`reuse_succeeds_iff`: when a signature is accepted again.
- Theorem {lit}`provenance_iff`: when two uses of a signature store the same provenance.
- Theorem {lit}`signature_leaves_provenance_open`: one signature with two provenances.
-/

namespace Kraal
namespace CarbonOracle

open Foundation

variable {crypto : Crypto}

/-! ## The signed message -/

/-- The message that the signature of an aggregation covers. -/
def Aggregation.message (a : Aggregation) : Bytes :=
  aggregationMessage a.feedId a.aggregateValue a.timestampUtc a.numSources

/-- The message determines the feed, the value, the time and the number of sources, and
nothing else. -/
theorem Aggregation.message_eq_iff {a a' : Aggregation} :
    a.message = a'.message ↔
      a.feedId = a'.feedId ∧ a.aggregateValue = a'.aggregateValue ∧
        a.timestampUtc = a'.timestampUtc ∧ a.numSources = a'.numSources := by
  constructor
  · intro h
    unfold Aggregation.message aggregationMessage at h
    -- the integers have fixed lengths, so they split off from the end
    obtain ⟨h, hsources⟩ := List.append_inj' h (by simp)
    obtain ⟨h, htime⟩ := List.append_inj' h (by simp)
    obtain ⟨h, hvalue⟩ := List.append_inj' h (by simp)
    have hfeed := List.append_cancel_left h
    exact ⟨congrArg BytesN.mk hfeed, MInt.toBeBytes_injective hvalue,
      MInt.toBeBytes_injective htime, MInt.toBeBytes_injective hsources⟩
  · intro h
    rcases h with ⟨hfeed, hvalue, htime, hsources⟩
    rw [Aggregation.message, hfeed, hvalue, htime, hsources, Aggregation.message]

/-- The stored source values determine the submitted ones. -/
theorem Aggregation.storedValues_inj {a a' : Aggregation} :
    a.storedValues = a'.storedValues ↔ a.sourceValues = a'.sourceValues := by
  unfold Aggregation.storedValues
  apply (List.map_injective_iff.mpr ?_).eq_iff
  intro x y hxy
  rcases x with ⟨sourceId, value, weightNumerator, weightDenominator⟩
  rcases y with ⟨sourceId', value', weightNumerator', weightDenominator'⟩
  rw [SourceValue.mk.injEq] at hxy
  rcases hxy with ⟨rfl, rfl, rfl, rfl⟩
  rfl

/-! ## Uses of a signature -/

/-- A step submits an aggregation with a signature. -/
def Aggregates (crypto : Crypto) (e : Store × Invocation Op) (a : Aggregation)
    (signature : BytesN) : Prop :=
  Returns crypto e ∧ ∃ oracle, e.2.call = .submitAggregatedPrice oracle a signature

/-- What an accepted aggregation has passed. -/
theorem Aggregates.accepted {e : Store × Invocation Op} {a : Aggregation} {signature : BytesN}
    (h : Aggregates crypto e a signature) :
    ∃ oracle cfg, AggregationAccepted crypto oracle a signature e.2.env e.1 cfg := by
  rcases h with ⟨⟨⟨⟨⟩, s'⟩, hexec⟩, oracle, hcall⟩
  rw [hcall] at hexec
  rcases submitAggregatedPrice_eq_ok.mp hexec with ⟨cfg, cid, used, haccepted, -, -, -⟩
  exact ⟨oracle, cfg, haccepted⟩

/-- What an accepted aggregation stores. -/
theorem Aggregates.stored {e : Store × Invocation Op} {a : Aggregation} {signature : BytesN}
    (h : Aggregates crypto e a signature) :
    ∃ used, used.toInt = a.numSources.toInt - a.numSourcesRejected.toInt ∧
      (step (exec crypto) e.1 e.2).aggFeeds.get a.feedId =
        some (a.entry used e.2.env.sequence (a.ipfsCid.getD [])) := by
  rcases h with ⟨⟨⟨⟨⟩, s'⟩, hexec⟩, oracle, hcall⟩
  rw [step_of_ok hexec]
  rw [hcall] at hexec
  rcases submitAggregatedPrice_eq_ok.mp hexec with ⟨cfg, cid, used, -, ⟨rfl, -⟩, hused, rfl⟩
  exact ⟨used, hused, Storage.get_set_self _ _ _⟩

/-- The key that signatures count for in a state. -/
def Store.oraclePubkey (s : Store) : Option BytesN := s.config.map Config.oraclePubkey

/-- The sources that are used can be counted exactly if no more are rejected than there are. -/
theorem exists_used_iff {numSources rejected : U32} :
    (∃ used : U32, used.toInt = numSources.toInt - rejected.toInt) ↔ rejected ≤ numSources := by
  rw [← MInt.checkedSub_u32_isSome_iff, Option.isSome_iff_exists]
  simp only [MInt.checkedSub_eq_some]

/-- Whoever has seen a signature can submit it again with other sources, another method and
another content identifier. -/
theorem reuse_succeeds_iff {e : Store × Invocation Op} {a a' : Aggregation} {signature : BytesN}
    (h : Aggregates crypto e a signature) (hmessage : a.message = a'.message) {s : Store}
    (hkey : s.oraclePubkey = e.1.oraclePubkey) {env : Env} {oracle : Address}
    (hauth : env.authorized oracle = true) :
    (submitAggregatedPrice crypto oracle a' signature).Succeeds env s ↔
      (a'.ipfsCid.getD []).length ≤ maxCidLen ∧ a'.numSourcesRejected ≤ a'.numSources := by
  rcases h.accepted with ⟨oracle₀, cfg, haccepted⟩
  constructor
  · intro hok
    rcases hok with ⟨⟨⟨⟩, s'⟩, hok⟩
    rcases submitAggregatedPrice_eq_ok.mp hok with ⟨cfg', cid, used, -, ⟨rfl, hlen⟩, hused, -⟩
    exact ⟨hlen, exists_used_iff.mp ⟨used, hused⟩⟩
  · intro hfits
    rcases hfits with ⟨hlen, hrejected⟩
    have hconfig : ∃ cfg', s.config = some cfg' ∧ cfg'.oraclePubkey = cfg.oraclePubkey := by
      rw [Store.oraclePubkey, Store.oraclePubkey, haccepted.config, Option.map_some,
        Option.map_eq_some_iff] at hkey
      exact hkey
    rcases hconfig with ⟨cfg', hcfg', hpubkey⟩
    rcases exists_used_iff.mpr hrejected with ⟨used, hused⟩
    have hsources := (Aggregation.message_eq_iff.mp hmessage).2.2.2
    have haccepted' : AggregationAccepted crypto oracle a' signature env s cfg' := by
      refine ⟨hcfg', hauth, ?_, ?_⟩
      · rw [← hsources]
        exact haccepted.within_limit
      · have hsigned := haccepted.signed
        rw [hpubkey]
        change crypto.ed25519Verify cfg.oraclePubkey a'.message signature = true
        rw [← hmessage]
        exact hsigned
    exact ⟨((), _), submitAggregatedPrice_eq_ok.mpr
      ⟨cfg', _, used, haccepted', ⟨rfl, hlen⟩, hused, rfl⟩⟩

/-! ## Stored provenance -/

/-- Two aggregated prices have the same provenance. -/
structure SameProvenance (p q : AggregatedPriceEntry) : Prop where
  sourceValues : p.sourceValues = q.sourceValues
  method : p.metadata.method = q.metadata.method
  outlierMethod : p.metadata.outlierMethod = q.metadata.outlierMethod
  numSourcesUsed : p.metadata.numSourcesUsed = q.metadata.numSourcesUsed
  numSourcesRejected : p.metadata.numSourcesRejected = q.metadata.numSourcesRejected
  ipfsCid : p.ipfsCid = q.ipfsCid

/-- Two aggregations are submitted with the same sources, methods, number of rejected
sources and content identifier. -/
structure SameSources (a a' : Aggregation) : Prop where
  sourceValues : a.sourceValues = a'.sourceValues
  method : a.method = a'.method
  outlierMethod : a.outlierMethod = a'.outlierMethod
  numSourcesRejected : a.numSourcesRejected = a'.numSourcesRejected
  ipfsCid : a.ipfsCid.getD [] = a'.ipfsCid.getD []

/-- One signature is accepted twice, under one key and over one message. -/
structure SignedAlike (crypto : Crypto) (signature : BytesN) (e e' : Store × Invocation Op)
    (a a' : Aggregation) : Prop where
  first : Aggregates crypto e a signature
  second : Aggregates crypto e' a' signature
  key : e.1.oraclePubkey = e'.1.oraclePubkey
  message : a.message = a'.message

/-- Entries agree on their provenance exactly if the aggregations do. -/
theorem entry_sameProvenance_iff {a a' : Aggregation} {used used' recordedAt recordedAt' : U32}
    (hsources : a.numSources = a'.numSources)
    (hused : used.toInt = a.numSources.toInt - a.numSourcesRejected.toInt)
    (hused' : used'.toInt = a'.numSources.toInt - a'.numSourcesRejected.toInt) :
    SameProvenance (a.entry used recordedAt (a.ipfsCid.getD []))
        (a'.entry used' recordedAt' (a'.ipfsCid.getD [])) ↔ SameSources a a' := by
  constructor
  · intro h
    exact ⟨Aggregation.storedValues_inj.mp h.sourceValues, h.method, h.outlierMethod,
      h.numSourcesRejected, h.ipfsCid⟩
  · intro h
    have hsame : used.toInt = used'.toInt := by
      rw [hused, hused', hsources, h.numSourcesRejected]
    exact ⟨Aggregation.storedValues_inj.mpr h.sourceValues, h.method, h.outlierMethod,
      MInt.ext hsame, h.numSourcesRejected, h.ipfsCid⟩

/-- Two uses of one signature store the same provenance exactly if they were called with the
same. -/
theorem provenance_iff {signature : BytesN} {e e' : Store × Invocation Op} {a a' : Aggregation}
    (h : SignedAlike crypto signature e e' a a') :
    (∃ p q, (step (exec crypto) e.1 e.2).aggFeeds.get a.feedId = some p ∧
      (step (exec crypto) e'.1 e'.2).aggFeeds.get a'.feedId = some q ∧ SameProvenance p q) ↔
      SameSources a a' := by
  rcases h.first.stored with ⟨used, hused, hstored⟩
  rcases h.second.stored with ⟨used', hused', hstored'⟩
  have hsources := (Aggregation.message_eq_iff.mp h.message).2.2.2
  rw [← entry_sameProvenance_iff hsources hused hused', hstored, hstored']
  constructor
  · intro hagree
    rcases hagree with ⟨p, q, hp, hq, hsame⟩
    rw [Option.some.injEq] at hp hq
    rw [hp, hq]
    exact hsame
  · intro hsame
    exact ⟨_, _, rfl, rfl, hsame⟩

/-! ## One signature with two provenances -/

/-- An aggregation of one source. -/
def sampleAggregation (value : I64) (method : String) : Aggregation :=
  ⟨sampleFeed, 100, [("sentinel2", value, 1, 1)], method, "iqr", 0, 50, none⟩

/-- A caller submits a sample aggregation to the configured contract. -/
def submitAggregation (caller : Address) (a : Aggregation) (signature : BytesN) :
    Store × Invocation Op :=
  (Store.empty.withConfig sampleConfig,
    ⟨.signedBy 5 [caller], .submitAggregatedPrice caller a signature⟩)

theorem sampleAggregation_message (value : I64) (method : String) :
    (sampleAggregation value method).message = (sampleAggregation 100 "weighted_mean").message :=
  Aggregation.message_eq_iff.mpr ⟨rfl, rfl, rfl, rfl⟩

theorem aggregates_sample {signature : BytesN}
    (hsigned : crypto.ed25519Verify sampleKey (sampleAggregation 100 "weighted_mean").message
      signature = true) (caller : Address) (value : I64) (method : String) :
    Aggregates crypto (submitAggregation caller (sampleAggregation value method) signature)
      (sampleAggregation value method) signature := by
  have hauth := Env.authorized_signedBy 5 caller
  have hlimit : (sampleAggregation value method).numSources ≤ maxAggregationSources :=
    (by decide : (1 : U32) ≤ 10)
  have haccepted : AggregationAccepted crypto caller (sampleAggregation value method) signature
      (.signedBy 5 [caller]) (Store.empty.withConfig sampleConfig) sampleConfig := by
    refine ⟨rfl, hauth, hlimit, ?_⟩
    rw [← sampleAggregation_message value method] at hsigned
    exact hsigned
  exact ⟨⟨((), _), submitAggregatedPrice_eq_ok.mpr
    ⟨sampleConfig, [], 1, haccepted, ⟨rfl, Nat.zero_le _⟩, rfl, rfl⟩⟩, caller, rfl⟩

theorem sample_signedAlike {signature : BytesN}
    (hsigned : crypto.ed25519Verify sampleKey (sampleAggregation 100 "weighted_mean").message
      signature = true) :
    SignedAlike crypto signature
      (submitAggregation ⟨9⟩ (sampleAggregation 100 "weighted_mean") signature)
      (submitAggregation ⟨7⟩ (sampleAggregation 999 "median") signature)
      (sampleAggregation 100 "weighted_mean") (sampleAggregation 999 "median") :=
  ⟨aggregates_sample hsigned ⟨9⟩ 100 "weighted_mean", aggregates_sample hsigned ⟨7⟩ 999 "median",
    rfl, (sampleAggregation_message 999 "median").symm⟩

/-- Under every signature scheme in which the oracle key has signed that aggregate, anybody
can replace its sources and its method. -/
theorem signature_leaves_provenance_open : ¬ ∃ crypto : Crypto,
    (∃ signature, crypto.ed25519Verify sampleKey (sampleAggregation 100 "weighted_mean").message
      signature = true) ∧
    ∀ signature e e' a a', SignedAlike crypto signature e e' a a' →
      ∃ p q, (step (exec crypto) e.1 e.2).aggFeeds.get a.feedId = some p ∧
        (step (exec crypto) e'.1 e'.2).aggFeeds.get a'.feedId = some q ∧ SameProvenance p q := by
  intro h
  rcases h with ⟨crypto, ⟨signature, hsigned⟩, hbinds⟩
  have halike := sample_signedAlike hsigned
  rcases hbinds _ _ _ _ _ halike with ⟨p, q, hp, hq, hsame⟩
  rcases halike.first.stored with ⟨used, -, hstored⟩
  rcases halike.second.stored with ⟨used', -, hstored'⟩
  rw [hstored, Option.some.injEq] at hp
  rw [hstored', Option.some.injEq] at hq
  have hmethod := hsame.method
  rw [← hp, ← hq] at hmethod
  exact absurd hmethod (by decide : "weighted_mean" ≠ "median")

theorem sample_provenance_iff :
    let signature : BytesN :=
      ⟨sampleKey.toArray ++ (sampleAggregation 100 "weighted_mean").message⟩
    let e := submitAggregation ⟨9⟩ (sampleAggregation 100 "weighted_mean") signature
    let e' := submitAggregation ⟨7⟩ (sampleAggregation 999 "median") signature
    (∃ p q, (step (exec plainCrypto) e.1 e.2).aggFeeds.get sampleFeed = some p ∧
      (step (exec plainCrypto) e'.1 e'.2).aggFeeds.get sampleFeed = some q ∧
      SameProvenance p q) ↔
      SameSources (sampleAggregation 100 "weighted_mean") (sampleAggregation 999 "median") :=
  provenance_iff (sample_signedAlike (plainCrypto_verify _ _))

end CarbonOracle
end Kraal
