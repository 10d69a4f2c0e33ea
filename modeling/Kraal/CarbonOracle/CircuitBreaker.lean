import Kraal.CarbonOracle.CommitReveal

/-!
# The circuit breaker of carbon_oracle

An open breaker refuses direct submissions and heartbeats.  A reveal and an aggregated
submission write prices as well, and neither of them reads the breaker.

Main results:

- Theorem {lit}`step_open`: what a step that does not reset the breaker leaves as it was.
- Theorem {lit}`frozen_iff`: when no price changes while the breaker is open.
- Theorem {lit}`open_breaker_lets_price_in`: a price that is revealed after the trip.
-/

namespace Kraal
namespace CarbonOracle

open Foundation

variable {crypto : Crypto}

/-! ## Price writes -/

/-- Two states have the same prices and the same aggregated prices. -/
def SamePrices (s t : Store) : Prop :=
  ∀ feedId, t.feeds.get feedId = s.feeds.get feedId ∧ t.aggFeeds.get feedId = s.aggFeeds.get feedId

/-- A state has its own prices. -/
theorem SamePrices.refl (s : Store) : SamePrices s s :=
  fun _ => ⟨rfl, rfl⟩

/-- States with the same prices as a third one. -/
theorem SamePrices.trans {s t u : Store} (h : SamePrices s t) (h' : SamePrices t u) :
    SamePrices s u :=
  fun feedId => ⟨(h' feedId).1.trans (h feedId).1, (h' feedId).2.trans (h feedId).2⟩

/-- Having the same prices is symmetric. -/
theorem SamePrices.symm {s t : Store} (h : SamePrices s t) : SamePrices t s :=
  fun feedId => ⟨(h feedId).1.symm, (h feedId).2.symm⟩

/-- Writing a price changes none exactly if it is the stored one. -/
theorem samePrices_withFeed {s : Store} {feedId : BytesN} {entry : PriceEntry} :
    SamePrices s (s.withFeed feedId entry) ↔ s.feeds.get feedId = some entry := by
  constructor
  · intro h
    have hself := (h feedId).1
    rw [Store.withFeed_feeds, Storage.get_set_self] at hself
    exact hself.symm
  · intro hstored feedId'
    refine ⟨?_, rfl⟩
    rw [Store.withFeed_feeds, Storage.get_set]
    split
    · rename_i hsame
      rw [hsame, hstored]
    · rfl

/-- An aggregate is the same if it was stored before. -/
theorem samePrices_withAggFeed {s : Store} {feedId : BytesN} {entry : AggregatedPriceEntry} :
    SamePrices s (s.withAggFeed feedId entry) ↔ s.aggFeeds.get feedId = some entry := by
  constructor
  · intro h
    have hself := (h feedId).2
    rw [Store.withAggFeed_aggFeeds, Storage.get_set_self] at hself
    exact hself.symm
  · intro hstored feedId'
    refine ⟨rfl, ?_⟩
    rw [Store.withAggFeed_aggFeeds, Storage.get_set]
    split
    · rename_i hsame
      rw [hsame, hstored]
    · rfl

/-! ## Steps under an open breaker -/

/-- A step resets the breaker. -/
def Resets (crypto : Crypto) (e : Store × Invocation Op) : Prop :=
  Returns crypto e ∧ ∃ admin, e.2.call = .resetCircuitBreaker admin

/-- The two operations that write prices without reading the breaker write what is
stored already. -/
structure RewritesSame (crypto : Crypto) (e : Store × Invocation Op) : Prop where
  reveal : ∀ oracle feedId c salt signature ipfsCid,
    e.2.call = .revealPrice oracle feedId c salt signature ipfsCid → Returns crypto e →
    e.1.feeds.get feedId = some (c.entry e.2.env.sequence (ipfsCid.getD []))
  aggregate : ∀ oracle a signature numSourcesUsed,
    e.2.call = .submitAggregatedPrice oracle a signature → Returns crypto e →
    numSourcesUsed.toInt = a.numSources.toInt - a.numSourcesRejected.toInt →
    e.1.aggFeeds.get a.feedId =
      some (a.entry numSourcesUsed e.2.env.sequence (a.ipfsCid.getD []))

/-- The operations that write prices without reading the breaker. -/
def Op.unguarded : Op → Bool
  | .revealPrice _ _ _ _ _ _ => true
  | .submitAggregatedPrice _ _ _ => true
  | _ => false

/-- A call about no feed is guarded. -/
theorem Op.unguarded_of_feed {op : Op} (h : op.feed = none) : op.unguarded = false := by
  cases op with
  | revealPrice | submitAggregatedPrice => cases h
  | _ => rfl

/-- A guarded call rewrites nothing. -/
theorem rewritesSame_of_guarded {e : Store × Invocation Op} (h : e.2.call.unguarded = false) :
    RewritesSame crypto e := by
  constructor
  · intro oracle feedId c salt signature ipfsCid hcall
    rw [hcall] at h
    cases h
  · intro oracle a signature used hcall
    rw [hcall] at h
    cases h

/-- A reveal leaves the prices alone exactly if it rewrites what is stored. -/
theorem reveal_rewritesSame {e : Store × Invocation Op} (hreturns : Returns crypto e)
    {oracle : Address} {feedId : BytesN} {c : Computation} {salt signature : BytesN}
    {ipfsCid : Option Bytes}
    (hcall : e.2.call = .revealPrice oracle feedId c salt signature ipfsCid) :
    RewritesSame crypto e ↔
      e.1.feeds.get feedId = some (c.entry e.2.env.sequence (ipfsCid.getD [])) := by
  constructor
  · intro h
    exact h.reveal oracle feedId c salt signature ipfsCid hcall hreturns
  · intro hstored
    constructor
    · intro oracle' feedId' c' salt' signature' ipfsCid' hcall' _
      rw [hcall, Op.revealPrice.injEq] at hcall'
      rcases hcall' with ⟨-, rfl, rfl, -, -, rfl⟩
      exact hstored
    · intro oracle' a signature' used hcall'
      rw [hcall] at hcall'
      cases hcall'

/-- The same for an aggregated submission. -/
theorem aggregate_rewritesSame {e : Store × Invocation Op} (hreturns : Returns crypto e)
    {oracle : Address} {a : Aggregation} {signature : BytesN} {numSourcesUsed : U32}
    (hcall : e.2.call = .submitAggregatedPrice oracle a signature)
    (hused : numSourcesUsed.toInt = a.numSources.toInt - a.numSourcesRejected.toInt) :
    RewritesSame crypto e ↔ e.1.aggFeeds.get a.feedId =
      some (a.entry numSourcesUsed e.2.env.sequence (a.ipfsCid.getD [])) := by
  constructor
  · intro h
    exact h.aggregate oracle a signature numSourcesUsed hcall hreturns hused
  · intro hstored
    constructor
    · intro oracle' feedId' c' salt' signature' ipfsCid' hcall'
      rw [hcall] at hcall'
      cases hcall'
    · intro oracle' a' signature' used' hcall' _ hused'
      rw [hcall, Op.submitAggregatedPrice.injEq] at hcall'
      rcases hcall' with ⟨-, rfl, -⟩
      rw [show used' = numSourcesUsed from MInt.ext (hused'.trans hused.symm)]
      exact hstored

/-- A step that does not reset an open breaker leaves it open, and leaves the prices alone
exactly if it rewrites what is stored. -/
theorem step_open {s : Store} {i : Invocation Op} (hopen : s.circuitState ≠ .active)
    (hreset : ¬ Resets crypto (s, i)) :
    (step (exec crypto) s i).circuitState ≠ .active ∧
      (SamePrices s (step (exec crypto) s i) ↔ RewritesSame crypto (s, i)) := by
  by_cases hreturns : Returns crypto (s, i)
  · have hok := hreturns
    rcases hok with ⟨⟨⟨⟩, s'⟩, hexec⟩
    rw [step_of_ok hexec]
    rcases exec_cases hexec with ⟨cfg, hfeed, rfl⟩ | ⟨state, hfeed, rfl, hactive⟩ |
      ⟨oracle, c, feedId, signature, ipfsCid, -, hactive, -⟩ |
      ⟨oracle, feedId, commitmentHash, hcall, -, rfl⟩ |
      ⟨challenger, feedId, value, commitment, hcall, rfl⟩ |
      ⟨oracle, feedId, c, salt, signature, ipfsCid, cfg, commitment, expiry, hcall, -, rfl⟩ |
      ⟨oracle, a, signature, used, hcall, hused, rfl⟩
    · refine ⟨hopen, iff_of_true (SamePrices.refl s) ?_⟩
      exact rewritesSame_of_guarded (Op.unguarded_of_feed hfeed)
    · have hguarded : RewritesSame crypto (s, i) :=
        rewritesSame_of_guarded (Op.unguarded_of_feed hfeed)
      refine ⟨?_, iff_of_true (SamePrices.refl s) hguarded⟩
      intro hstate
      exact hreset ⟨hreturns, hactive hstate⟩
    · exact absurd hactive hopen
    · refine ⟨hopen, iff_of_true (SamePrices.refl s) ?_⟩
      exact rewritesSame_of_guarded (by rw [hcall]; rfl)
    · refine ⟨hopen, iff_of_true (SamePrices.refl s) ?_⟩
      exact rewritesSame_of_guarded (by rw [hcall]; rfl)
    · refine ⟨hopen, ?_⟩
      rw [reveal_rewritesSame hreturns hcall]
      exact samePrices_withFeed (s := s.withCommitment feedId _)
    · refine ⟨hopen, ?_⟩
      rw [aggregate_rewritesSame hreturns hcall hused]
      exact samePrices_withAggFeed
  · rw [step_of_not_succeeds hreturns]
    refine ⟨hopen, iff_of_true (SamePrices.refl s) ⟨?_, ?_⟩⟩
    · intro oracle feedId c salt signature ipfsCid hcall hok
      exact absurd hok hreturns
    · intro oracle a signature used hcall hok
      exact absurd hok hreturns

/-! ## Runs under an open breaker -/

/-- No step of a run resets the breaker. -/
def KeptOpen (crypto : Crypto) (s : Store) (run : List (Invocation Op)) : Prop :=
  ∀ e ∈ Run.trace (step (exec crypto)) s run, ¬ Resets crypto e

/-- The breaker stays open as long as nobody resets it. -/
theorem KeptOpen.trace_open {s : Store} {run : List (Invocation Op)} (h : KeptOpen crypto s run)
    (hopen : s.circuitState ≠ .active) :
    ∀ e ∈ Run.trace (step (exec crypto)) s run, e.1.circuitState ≠ .active := by
  apply Run.trace_invariant (I := fun t : Store => t.circuitState ≠ .active) hopen
  intro e he hkept
  exact (step_open hkept (h e he)).1

/-- While the breaker is open, no price changes exactly if every reveal and every aggregated
submission that gets through rewrites what is stored. -/
theorem frozen_iff {s : Store} (hopen : s.circuitState ≠ .active) {run : List (Invocation Op)}
    (hkept : KeptOpen crypto s run) :
    (∀ t, Run.Visits (step (exec crypto)) s run t → SamePrices s t) ↔
      ∀ e ∈ Run.trace (step (exec crypto)) s run, RewritesSame crypto e := by
  have hsteps : ∀ e ∈ Run.trace (step (exec crypto)) s run,
      (SamePrices e.1 (step (exec crypto) e.1 e.2) ↔ RewritesSame crypto e) := by
    intro e he
    exact (step_open (hkept.trace_open hopen e he) (hkept e he)).2
  constructor
  · intro hfrozen e he
    have hbefore := hfrozen _ (Run.visits_of_mem_trace he)
    have hafter := hfrozen _ (Run.visits_step he)
    exact (hsteps e he).mp (hbefore.symm.trans hafter)
  · intro hsame
    apply Run.visits_invariant (SamePrices.refl s)
    intro e he hbefore
    exact hbefore.trans ((hsteps e he).mpr (hsame e he))

/-! ## A price that is revealed after the trip -/

/-- The administrator trips the breaker one ledger after the commit. -/
def trippedRun (hash : BytesN) : List (Invocation Op) :=
  commitRun hash ++ [⟨.signedBy 6 [⟨0⟩], .tripCircuitBreaker ⟨0⟩⟩]

/-- The state after that run. -/
def trippedStore (hash : BytesN) : Store := (committedStore hash).withCircuit .tripped

/-- What that run leaves. -/
theorem final_trippedRun (crypto : Crypto) (hash : BytesN) :
    Run.final (step (exec crypto)) Store.empty (trippedRun hash) = trippedStore hash := by
  rw [trippedRun, Run.final_append, final_commitRun, Run.final_cons, Run.final_nil]
  apply step_of_ok
  exact adminSetCircuit_eq_ok.mpr ⟨sampleConfig, rfl, rfl, rfl, rfl⟩

/-- A reveal does not close the breaker. -/
theorem lateReveal_keptOpen (crypto : Crypto) (s : Store) (c : Computation) (signature : BytesN) :
    KeptOpen crypto s [lateReveal c signature] := by
  intro e he hreset
  rw [Run.trace_cons, Run.trace_nil, List.mem_singleton] at he
  subst he
  rcases hreset with ⟨-, admin, hcall⟩
  cases hcall

/-- Under every signature scheme in which the oracle key has signed anything for the feed, a
price gets in although the breaker is open. -/
theorem open_breaker_lets_price_in : ¬ ∃ crypto : Crypto,
    (∃ c signature, Attested crypto sampleConfig c sampleFeed signature) ∧
    ∀ s run, Run.Reachable (step (exec crypto)) Store.empty s → s.circuitState ≠ .active →
      KeptOpen crypto s run →
      ∀ t, Run.Visits (step (exec crypto)) s run t → SamePrices s t := by
  intro h
  rcases h with ⟨crypto, ⟨c, signature, hsigned⟩, hfrozen⟩
  have hreachable : Run.Reachable (step (exec crypto)) Store.empty
      (trippedStore (crypto.sha256 (buildCommitmentPayload c sampleFeed sampleKey))) :=
    ⟨trippedRun _, (final_trippedRun crypto _).symm⟩
  have hsame := hfrozen _ [lateReveal c signature] hreachable (by nofun)
    (lateReveal_keptOpen crypto _ c signature) _ ⟨[lateReveal c signature], [], rfl, rfl⟩
  have hfeed := (hsame sampleFeed).1
  -- the reveal writes the price although the breaker is open
  have hwritten := (lateReveal_reveals (s := trippedStore _) rfl (Storage.get_set_self _ _ _)
    hsigned).2
  rw [Run.final_cons, Run.final_nil, hwritten] at hfeed
  cases hfeed

theorem trippedRun_frozen_iff :
    (∀ t, Run.Visits (step (exec plainCrypto)) (trippedStore sampleKey)
        [lateReveal (sampleComputation 50) sampleKey] t → SamePrices (trippedStore sampleKey) t) ↔
      ∀ e ∈ Run.trace (step (exec plainCrypto)) (trippedStore sampleKey)
        [lateReveal (sampleComputation 50) sampleKey], RewritesSame plainCrypto e :=
  frozen_iff (by nofun) (lateReveal_keptOpen plainCrypto _ _ _)

end CarbonOracle
end Kraal
