import Kraal.CarbonOracle.CircuitBreaker
import Kraal.CarbonOracle.Deviation
import Kraal.PricedSystem.Wiring

/-!
# Trades and the prices behind them

A listing or a purchase is a trade.  Once the marketplace is configured to ask the oracle
contract, a trade gets through only on a price that the oracle key has signed, that nothing
has overwritten since and that is young enough, and only while neither breaker is open.

Main results:

- Theorem {lit}`trade_checked`: what a trade has found in the store of the oracle.
- Theorem {lit}`trades_backed`: the attestation behind every guarded trade of a run.
- Theorem {lit}`halt_lifted`: an open breaker stops trade until an administrator resets it.
-/

namespace Kraal
namespace PricedSystem

open Foundation
open CarbonSystem (Oracle calledBy wiredPeers)
open CarbonOracle (Attested Computation attestedPrice ledgerTime)

variable {crypto : Crypto} {d : Deployment}

/-! ## Trades and guards -/

/-- The operations that need a price. -/
def needsPrice : CarbonMarketplace.Op → Bool
  | .createListing _ _ _ _ => true
  | .purchaseListing _ _ _ _ => true
  | _ => false

/-- A step trades if it is a successful listing or purchase. -/
def Trades (crypto : Crypto) (d : Deployment) (e : System × Invocation Op) : Prop :=
  ∃ outside op, e.2.call = .market outside op ∧ needsPrice op = true ∧
    (exec crypto d e.2.call).Succeeds e.2.env e.1

/-- The marketplace asks the oracle contract for the price of a feed. -/
def Guarded (d : Deployment) (feedId : BytesN) (maxAge : I64) (s : System) : Prop :=
  ∃ cfg, s.market.config = some cfg ∧ cfg.oracle = some d.oracle ∧ cfg.feedId = some feedId ∧
    cfg.maxPriceAgeSeconds = maxAge

/-- What a guarded trade has found in the store of the oracle. -/
structure PriceChecked (feedId : BytesN) (maxAge : I64) (env : Env) (s : CarbonOracle.Store) :
    Prop where
  breaker : s.circuitState = .active
  price : ∃ entry, s.feeds.get feedId = some entry ∧
    (ledgerTime env).saturatingSub entry.timestampUtc ≤ maxAge

theorem decodeBreaker_eq_active {state : CarbonOracle.CircuitBreakerState} :
    .active = decodeBreaker state ↔ state = .active := by
  cases state <;> simp [decodeBreaker]

theorem answer_self {α : Type} {d : Deployment} {outside : Option α}
    {c : CarbonOracle.OracleCall α} {env : Env} {s : CarbonOracle.Store} {a : α}
    (h : answer d d.oracle outside c env s = some a) :
    ∃ s', c (calledBy d.market env) s = .ok (a, s') := by
  rw [answer, if_pos rfl] at h
  split at h
  · rename_i a' s' hcall
    rw [Option.some.injEq] at h
    rw [← h]
    exact ⟨s', hcall⟩
  · cases h

/-- The price check of the marketplace reads the store of the oracle contract. -/
theorem freshPrice_checked {outside : Oracle} {env : Env} {s : CarbonOracle.Store}
    {cfg : CarbonMarketplace.MarketConfig} {feedId : BytesN} {maxAge : I64}
    {t t' : CarbonSystem.CarbonStores} (horacle : cfg.oracle = some d.oracle)
    (hfeed : cfg.feedId = some feedId) (hage : cfg.maxPriceAgeSeconds = maxAge)
    (h : CarbonMarketplace.FreshPrice
      (wiredPeers d.toDeployment (answers d outside env s)) cfg env t t') :
    PriceChecked feedId maxAge env s := by
  unfold CarbonMarketplace.FreshPrice at h
  rw [horacle, hfeed, hage] at h
  rcases h with ⟨u, hstate, hstale⟩
  simp only [wiredPeers, answers, Option.map_eq_some_iff, Prod.mk.injEq] at hstate hstale
  rcases hstate with ⟨state, hstate, rfl, -⟩
  rcases hstale with ⟨stale, hstale, rfl, -⟩
  rcases answer_self hstate with ⟨s₁, hbreaker⟩
  rcases answer_self hstale with ⟨s₂, hprice⟩
  rcases isPriceStale_eq_ok.mp hprice with ⟨-, ⟨entry, hentry, hfresh⟩, -⟩
  refine ⟨decodeBreaker_eq_active.mp (breakerQuery_eq_ok.mp hbreaker).2.1, entry, hentry, ?_⟩
  have hyoung : ¬ (ledgerTime env).saturatingSub entry.timestampUtc > maxAge :=
    of_decide_eq_false hfresh.symm
  rw [gt_iff_lt, MInt.lt_def, not_lt] at hyoung
  exact hyoung

/-- What a trade has checked before it changes anything. -/
theorem trade_checked {e : System × Invocation Op} (h : Trades crypto d e) :
    e.1.market.circuitState = .active ∧ ∀ feedId maxAge, Guarded d feedId maxAge e.1 →
      PriceChecked feedId maxAge e.2.env (oraclePart e.1) := by
  rcases h with ⟨outside, op, hcall, hneeds, ⟨⟨⟨⟩, s'⟩, hok⟩⟩
  rw [hcall] at hok
  have hmarket := CarbonSystem.exec_market.mp ((exec_carbon (.market outside op) rfl).mp hok).1
  have hchecked : ∃ cfg t, e.1.market.config = some cfg ∧ e.1.market.circuitState = .active ∧
      CarbonMarketplace.FreshPrice
        (wiredPeers d.toDeployment (answers d outside e.2.env e.1.peers.oracle)) cfg e.2.env
        (carbonPart e.1).peers t := by
    cases op with
    | createListing seller projectId amount pricePerCredit =>
        rcases Call.bind_eq_ok.mp hmarket with ⟨id, u, hcreate, -⟩
        rcases CarbonMarketplace.createListing_eq_ok.mp hcreate with ⟨t, nonce, haccepted, -⟩
        rcases haccepted with ⟨cfg, t₁, project, t₂, balance, -, hcfg, hactive, hfresh, -⟩
        exact ⟨cfg, t₁, hcfg, hactive, hfresh⟩
    | purchaseListing buyer listingId paymentAmount maxLedger =>
        rcases CarbonMarketplace.purchaseListing_eq_ok.mp hmarket with
          ⟨cfg, listing, t, t₁, project, t₂, t₃, hchecked, -⟩
        exact ⟨cfg, t, hchecked.config, hchecked.market_active, hchecked.fresh⟩
    | _ => cases hneeds
  rcases hchecked with ⟨cfg, t, hcfg, hactive, hfresh⟩
  refine ⟨hactive, ?_⟩
  intro feedId maxAge hguarded
  rcases hguarded with ⟨cfg', hcfg', horacle, hfeed, hage⟩
  rw [hcfg, Option.some.injEq] at hcfg'
  subst hcfg'
  exact freshPrice_checked horacle hfeed hage hfresh

/-! ## The attestation behind a trade -/

/-- A step stores a price for a feed, from a computation that the oracle key in force has
signed for it. -/
def Attests (crypto : Crypto) (d : Deployment) (feedId : BytesN) (c : Computation)
    (e : System × Invocation Op) : Prop :=
  ∃ e', oracleEntry crypto d e = some e' ∧ ∃ cfg signature cid, e'.1.config = some cfg ∧
    Attested crypto cfg c feedId signature ∧
    attestedPrice crypto feedId e' = some (c.entry e'.2.env.sequence cid)

/-- A step writes the price of a feed. -/
def WritesPrice (crypto : Crypto) (d : Deployment) (feedId : BytesN)
    (e : System × Invocation Op) : Prop :=
  ∃ e', oracleEntry crypto d e = some e' ∧ (attestedPrice crypto feedId e').isSome = true

/-- A price that is stored after a run is the last one written for its feed, and the oracle
key has signed it. -/
theorem price_attested {run : List (Invocation Op)} {feedId : BytesN}
    {entry : CarbonOracle.PriceEntry}
    (h : (oraclePart (after crypto d run)).feeds.get feedId = some entry) :
    ∃ c : Computation, c.timestampUtc = entry.timestampUtc ∧
      Run.Since (Attests crypto d feedId c) (WritesPrice crypto d feedId)
        (history crypto d run) := by
  rw [oraclePart_after] at h
  have hread := (CarbonOracle.feedRegister crypto feedId).since_of_read
    (CarbonOracle.feedRegister_empty crypto feedId) h
  have hsince := (oracleProjection crypto d).since_inputs (genesis d) run hread
  rcases hsince with ⟨before, e, between, hpast, ⟨e', hentry, hwritten⟩, hbetween⟩
  have hprice : attestedPrice crypto feedId e' = some entry := hwritten
  rcases CarbonOracle.attestedPrice_signed hprice with
    ⟨cfg, c, signature, cid, hcfg, hsigned, rfl⟩
  exact ⟨c, rfl, before, e, between, hpast,
    ⟨e', hentry, cfg, signature, cid, hcfg, hsigned, hprice⟩, hbetween⟩

/-! ## The settings of the marketplace -/

/-- A step tells the marketplace where to ask for a price, on behalf of its administrator. -/
def ConfiguresOracle (crypto : Crypto) (d : Deployment) (oracle : Address) (feedId : BytesN)
    (maxAge : I64) (e : System × Invocation Op) : Prop :=
  ∃ outside,
    e.2.call = .market outside (.configureOracle d.marketAdmin oracle feedId maxAge) ∧
    e.2.env.authorized d.marketAdmin = true ∧ (exec crypto d e.2.call).Succeeds e.2.env e.1

/-- A step sets the breaker of the marketplace on behalf of its administrator. -/
def SetsMarket (crypto : Crypto) (d : Deployment) (state : CarbonMarketplace.CircuitBreakerState)
    (e : System × Invocation Op) : Prop :=
  ∃ outside, e.2.call = .market outside (.setCircuitBreakerState d.marketAdmin state) ∧
    e.2.env.authorized d.marketAdmin = true ∧ (exec crypto d e.2.call).Succeeds e.2.env e.1

/-- What an operation of a configured marketplace does to its settings when it returns. -/
theorem market_settings {sha256 : Bytes → BytesN} {σ : Type} {peers : CarbonMarketplace.Peers σ}
    {op : CarbonMarketplace.Op} {env : Env} {s s' : CarbonMarketplace.State σ}
    {cfg : CarbonMarketplace.MarketConfig} (hcfg : s.market.config = some cfg)
    (h : CarbonMarketplace.exec sha256 peers op env s = .ok ((), s')) :
    (s'.market.config = some cfg ∧ s'.market.circuit = s.market.circuit) ∨
    (∃ oracle feedId maxAge, op = .configureOracle cfg.admin oracle feedId maxAge ∧
      env.authorized cfg.admin = true ∧ s'.market.circuit = s.market.circuit ∧
      s'.market.config = some
        { cfg with oracle := oracle, feedId := feedId, maxPriceAgeSeconds := maxAge }) ∨
    (∃ state, op = .setCircuitBreakerState cfg.admin state ∧ env.authorized cfg.admin = true ∧
      s'.market.circuit = some state ∧ s'.market.config = some cfg) := by
  cases op with
  | initializeContract admin registry creditContract feeBps =>
      rcases CarbonMarketplace.initializeContract_eq_ok.mp h with ⟨hnone, -⟩
      rw [hcfg] at hnone
      cases hnone
  | configureOracle admin oracle feedId maxPriceAgeSeconds =>
      rcases CarbonMarketplace.configureOracle_eq_ok.mp h with ⟨cfg', hcfg', hauth, rfl, rfl⟩
      rw [hcfg, Option.some.injEq] at hcfg'
      subst hcfg'
      exact .inr (.inl ⟨oracle, feedId, maxPriceAgeSeconds, rfl, hauth, rfl, rfl⟩)
  | setCircuitBreakerState admin state =>
      rcases CarbonMarketplace.setCircuitBreakerState_eq_ok.mp h with ⟨cfg', hcfg', hauth, rfl, rfl⟩
      rw [hcfg, Option.some.injEq] at hcfg'
      subst hcfg'
      exact .inr (.inr ⟨state, rfl, hauth, rfl, hcfg⟩)
  | createListing seller projectId amount pricePerCredit =>
      rcases Call.bind_eq_ok.mp h with ⟨id, t, hcall, hpure⟩
      cases hpure
      rcases CarbonMarketplace.createListing_eq_ok.mp hcall with ⟨t, nonce, -, -, -, rfl⟩
      exact .inl ⟨hcfg, rfl⟩
  | purchaseListing buyer listingId paymentAmount maxLedger =>
      rcases CarbonMarketplace.purchaseListing_eq_ok.mp h with
        ⟨cfg', listing, t, t₁, project, t₂, t₃, -, -, -, -, -, rfl⟩
      exact .inl ⟨hcfg, rfl⟩
  | cancelListing seller listingId =>
      rcases CarbonMarketplace.cancelListing_eq_ok.mp h with ⟨-, -, -, listing, -, -, -, rfl⟩
      exact .inl ⟨hcfg, rfl⟩
  | mintProjectCredits projectId amount =>
      rcases CarbonMarketplace.mintProjectCredits_eq_ok.mp h with
        ⟨cfg', t₁, project, t₂, t₃, -, -, -, -, -, -, -, rfl⟩
      exact .inl ⟨hcfg, rfl⟩

/-- A step keeps the settings of the marketplace unless its administrator changes them. -/
theorem settings_step {e : System × Invocation Op} {cfg : CarbonMarketplace.MarketConfig}
    (hcfg : e.1.market.config = some cfg) (hadmin : cfg.admin = d.marketAdmin) :
    let s' := step (exec crypto d) e.1 e.2
    (s'.market.config = some cfg ∧ s'.market.circuit = e.1.market.circuit) ∨
    (∃ oracle feedId maxAge, ConfiguresOracle crypto d oracle feedId maxAge e ∧
      s'.market.circuit = e.1.market.circuit ∧ s'.market.config = some
        { cfg with oracle := oracle, feedId := feedId, maxPriceAgeSeconds := maxAge }) ∨
    (∃ state, SetsMarket crypto d state e ∧ s'.market.circuit = some state ∧
      s'.market.config = some cfg) := by
  intro s'
  by_cases hsucceeds : (exec crypto d e.2.call).Succeeds e.2.env e.1
  · have hdone := hsucceeds
    rcases hsucceeds with ⟨⟨⟨⟩, s''⟩, hok⟩
    have hs' : s' = s'' := step_of_ok hok
    rw [hs']
    have hsame : carbonPart s'' = carbonPart e.1 ∨ s''.market = e.1.market →
        s''.market.config = some cfg ∧ s''.market.circuit = e.1.market.circuit := by
      intro h
      have hmarket : s''.market = e.1.market := by
        rcases h with h | h
        · exact congrArg (fun s : CarbonSystem.System => s.market) h
        · exact h
      rw [hmarket]
      exact ⟨hcfg, rfl⟩
    cases hcall : e.2.call with
    | registry op =>
        rw [hcall] at hok
        rcases CarbonSystem.exec_registry.mp ((exec_carbon (.registry op) rfl).mp hok).1 with
          ⟨registry, -, hpart⟩
        exact .inl (hsame (.inr (congrArg (fun s : CarbonSystem.System => s.market) hpart)))
    | credit op =>
        rw [hcall] at hok
        rcases CarbonSystem.exec_credit.mp ((exec_carbon (.credit op) rfl).mp hok).1 with
          ⟨credit, -, hpart⟩
        exact .inl (hsame (.inr (congrArg (fun s : CarbonSystem.System => s.market) hpart)))
    | oracle op =>
        rw [hcall] at hok
        exact .inl (hsame (.inl (exec_oracle.mp hok).2))
    | market outside op =>
        rw [hcall] at hok
        have hmarket := CarbonSystem.exec_market.mp
          ((exec_carbon (.market outside op) rfl).mp hok).1
        rcases market_settings (s := carbonPart e.1) hcfg hmarket with hkept |
          ⟨oracle, feedId, maxAge, rfl, hauth, hcircuit, hconfig⟩ |
          ⟨state, rfl, hauth, hcircuit, hconfig⟩
        · exact .inl hkept
        · rw [hadmin] at hcall hauth
          exact .inr (.inl ⟨oracle, feedId, maxAge, ⟨outside, hcall, hauth, hdone⟩, hcircuit,
            hconfig⟩)
        · rw [hadmin] at hcall hauth
          exact .inr (.inr ⟨state, ⟨outside, hcall, hauth, hdone⟩, hcircuit, hconfig⟩)
  · have hs' : s' = e.1 := step_of_not_succeeds hsucceeds
    rw [hs']
    exact .inl ⟨hcfg, rfl⟩

/-- A step that configures the oracle leaves the marketplace asking it. -/
theorem ConfiguresOracle.configured {e : System × Invocation Op} {oracle : Address}
    {feedId : BytesN} {maxAge : I64} (h : ConfiguresOracle crypto d oracle feedId maxAge e) :
    ∃ cfg, (step (exec crypto d) e.1 e.2).market.config = some cfg ∧ cfg.oracle = some oracle ∧
      cfg.feedId = some feedId ∧ cfg.maxPriceAgeSeconds = maxAge := by
  rcases h with ⟨outside, hcall, -, ⟨⟨⟨⟩, s'⟩, hok⟩⟩
  rw [step_of_ok hok]
  rw [hcall] at hok
  have hmarket : CarbonMarketplace.configureOracle d.marketAdmin oracle feedId maxAge e.2.env
      (carbonPart e.1) = .ok ((), carbonPart s') :=
    CarbonSystem.exec_market.mp ((exec_carbon (.market outside _) rfl).mp hok).1
  rcases CarbonMarketplace.configureOracle_eq_ok.mp hmarket with ⟨cfg, -, -, -, hs'⟩
  exact ⟨_, congrArg (fun s : CarbonSystem.System => s.market.config) hs', rfl, rfl, rfl⟩

/-- The marketplace asks the oracle it was told to ask last. -/
theorem guarded_after {run : List (Invocation Op)} {feedId : BytesN} {maxAge : I64}
    (h : Run.Since (ConfiguresOracle crypto d d.oracle feedId maxAge)
      (fun e => ∃ oracle feedId' maxAge', ConfiguresOracle crypto d oracle feedId' maxAge' e)
      (history crypto d run)) :
    Guarded d feedId maxAge (after crypto d run) := by
  suffices hinv : (∃ cfg, (after crypto d run).market.config = some cfg ∧
      cfg.admin = d.marketAdmin) ∧
      (Run.Since (ConfiguresOracle crypto d d.oracle feedId maxAge)
        (fun e => ∃ oracle feedId' maxAge', ConfiguresOracle crypto d oracle feedId' maxAge' e)
        (history crypto d run) → Guarded d feedId maxAge (after crypto d run)) from hinv.2 h
  refine Run.history_invariant (s := genesis d)
    (P := fun past t => (∃ cfg, t.market.config = some cfg ∧ cfg.admin = d.marketAdmin) ∧
      (Run.Since (ConfiguresOracle crypto d d.oracle feedId maxAge)
        (fun e => ∃ oracle feedId' maxAge', ConfiguresOracle crypto d oracle feedId' maxAge' e)
        past → Guarded d feedId maxAge t)) ?_ ?_ run
  · exact ⟨⟨_, rfl, rfl⟩, fun hsince => absurd hsince Run.not_since_nil⟩
  · intro past t i ih
    rcases ih with ⟨⟨cfg, hcfg, hadmin⟩, ih⟩
    have hcases := @settings_step crypto d (t, i) cfg hcfg hadmin
    constructor
    · rcases hcases with ⟨hconfig, -⟩ | ⟨oracle, feedId', maxAge', -, -, hconfig⟩ |
        ⟨state, -, -, hconfig⟩
      · exact ⟨_, hconfig, hadmin⟩
      · exact ⟨_, hconfig, hadmin⟩
      · exact ⟨_, hconfig, hadmin⟩
    · intro hsince
      rcases Run.since_append_singleton.mp hsince with hnow | ⟨hbefore, hkept⟩
      · exact hnow.configured
      · rcases ih hbefore with ⟨cfg', hcfg', hguard⟩
        rw [hcfg, Option.some.injEq] at hcfg'
        subst hcfg'
        rcases hcases with ⟨hconfig, -⟩ | ⟨oracle, feedId', maxAge', hconfigures, -⟩ |
          ⟨state, -, -, hconfig⟩
        · exact ⟨cfg, hconfig, hguard⟩
        · exact absurd ⟨oracle, feedId', maxAge', hconfigures⟩ hkept
        · exact ⟨cfg, hconfig, hguard⟩

/-- Behind every trade of every run that follows the configuration of the oracle stands an
attestation by the oracle key: it was stored earlier in the run, nothing has overwritten
it, it is not older than configured, and both breakers are closed. -/
theorem trades_backed (crypto : Crypto) (d : Deployment) (run : List (Invocation Op))
    (before rest : List (System × Invocation Op)) (e : System × Invocation Op)
    (hsplit : history crypto d run = before ++ e :: rest) (feedId : BytesN) (maxAge : I64)
    (hguarded : Run.Since (ConfiguresOracle crypto d d.oracle feedId maxAge)
      (fun x => ∃ oracle feedId' maxAge', ConfiguresOracle crypto d oracle feedId' maxAge' x)
      before)
    (htrades : Trades crypto d e) :
    e.1.market.circuitState = .active ∧ (oraclePart e.1).circuitState = .active ∧
    ∃ c : Computation, (ledgerTime e.2.env).saturatingSub c.timestampUtc ≤ maxAge ∧
      Run.Since (Attests crypto d feedId c) (WritesPrice crypto d feedId) before := by
  rcases Run.trace_split hsplit with ⟨pre, post, -, rfl, hstate⟩
  have hguard : Guarded d feedId maxAge e.1 := by
    rw [hstate]
    exact guarded_after hguarded
  rcases trade_checked htrades with ⟨hactive, hprice⟩
  rcases hprice feedId maxAge hguard with ⟨hbreaker, entry, hentry, hage⟩
  rw [hstate] at hentry
  rcases price_attested hentry with ⟨c, htime, hsince⟩
  rw [← htime] at hage
  exact ⟨hactive, hbreaker, c, hage, hsince⟩

/-! ## Open breakers -/

/-- A step resets the breaker of the oracle on behalf of its administrator. -/
def ResetsOracle (crypto : Crypto) (d : Deployment) (e : System × Invocation Op) : Prop :=
  ∃ cfg, (oraclePart e.1).config = some cfg ∧
    e.2.call = .oracle (.resetCircuitBreaker cfg.admin) ∧ e.2.env.authorized cfg.admin = true ∧
    (exec crypto d e.2.call).Succeeds e.2.env e.1

/-- An open breaker of the marketplace is closed by its administrator only. -/
theorem setsMarket_of_closed {e : System × Invocation Op}
    (hwired : CarbonSystem.Wired d.toDeployment (carbonPart e.1))
    (hopen : e.1.market.circuitState ≠ .active)
    (hclosed : (step (exec crypto d) e.1 e.2).market.circuitState = .active) :
    SetsMarket crypto d .active e := by
  rcases hwired.market_config with ⟨cfg, hcfg, hadmin, -, -⟩
  have hcircuit : (step (exec crypto d) e.1 e.2).market.circuit ≠ e.1.market.circuit := by
    intro hsame
    apply hopen
    rw [← hclosed, CarbonMarketplace.Store.circuitState, CarbonMarketplace.Store.circuitState,
      hsame]
  rcases @settings_step crypto d e cfg hcfg hadmin with ⟨-, hsame⟩ |
    ⟨oracle, feedId, maxAge, -, hsame, -⟩ | ⟨state, hsets, hset, -⟩
  · exact absurd hsame hcircuit
  · exact absurd hsame hcircuit
  · have hstate : state = .active := by
      rw [CarbonMarketplace.Store.circuitState, hset] at hclosed
      exact hclosed
    rw [← hstate]
    exact hsets

/-- An open breaker of the oracle is closed by its administrator only. -/
theorem resetsOracle_of_closed {e : System × Invocation Op}
    (hopen : (oraclePart e.1).circuitState ≠ .active)
    (hclosed : (oraclePart (step (exec crypto d) e.1 e.2)).circuitState = .active) :
    ResetsOracle crypto d e := by
  cases hentry : oracleEntry crypto d e with
  | none =>
      have hnone : (oracleProjection crypto d).shown e = none := by
        simpa [oracleEntry, Run.Projection.entry] using hentry
      have hsame : oraclePart (step (exec crypto d) e.1 e.2) = oraclePart e.1 :=
        (oracleProjection crypto d).part_of_not_shown hnone
      rw [hsame] at hclosed
      exact absurd hclosed hopen
  | some e' =>
      rcases e' with ⟨t, i⟩
      rcases (oracleProjection crypto d).entry_eq_some.mp hentry with ⟨hshown, hpart⟩
      have hstep : oraclePart (step (exec crypto d) e.1 e.2) =
          step (CarbonOracle.exec crypto) (oraclePart e.1) i :=
        (oracleProjection crypto d).part_of_shown hshown
      rw [hstep] at hclosed
      have hresets : CarbonOracle.Resets crypto (oraclePart e.1, i) := by
        by_contra hnot
        exact (CarbonOracle.step_open hopen hnot).1 hclosed
      rcases hresets with ⟨hreturns, admin, hreset⟩
      have hsucceeds := (succeeds_iff_oracle hentry).mpr (by rw [← hpart]; exact hreturns)
      rcases oracleEntry_eq_some.mp hentry with ⟨hcall, henv, -⟩
      have hcall' : e.2.call = .oracle i.call := hcall
      rcases hreturns with ⟨⟨⟨⟩, s'⟩, hok⟩
      rw [hreset] at hcall'
      have hok' : CarbonOracle.adminSetCircuit .active admin i.env (oraclePart e.1) =
          .ok ((), s') := by
        have hexec := hok
        rw [hreset] at hexec
        exact hexec
      rcases CarbonOracle.adminSetCircuit_eq_ok.mp hok' with ⟨cfg, hcfg, hauth, rfl, -⟩
      have henv' : i.env = e.2.env := henv
      rw [henv'] at hauth
      exact ⟨cfg, hcfg, hcall', hauth, hsucceeds⟩

/-- After a step that leaves a breaker open, no trade gets through before an administrator has
reset that breaker: the one of the marketplace for every trade, the one of the oracle for
the guarded ones. -/
theorem halt_lifted (crypto : Crypto) (d : Deployment) (run : List (Invocation Op))
    (before between rest : List (System × Invocation Op)) (x e : System × Invocation Op)
    (hsplit : history crypto d run = before ++ x :: between ++ e :: rest)
    (htrades : Trades crypto d e) :
    ((step (exec crypto d) x.1 x.2).market.circuitState ≠ .active →
      ∃ r ∈ between, SetsMarket crypto d .active r) ∧
    ((oraclePart (step (exec crypto d) x.1 x.2)).circuitState ≠ .active →
      (∃ feedId maxAge, Guarded d feedId maxAge e.1) → ∃ r ∈ between, ResetsOracle crypto d r) := by
  rcases trade_checked htrades with ⟨hactive, hprice⟩
  have hwired : ∀ r ∈ between, CarbonSystem.Wired d.toDeployment (carbonPart r.1) := by
    intro r hr
    have hmem : r ∈ history crypto d run := by
      rw [hsplit]
      exact List.mem_append_left _ (List.mem_append_right _ (List.mem_cons_of_mem _ hr))
    rcases Run.mem_trace_iff.mp hmem with ⟨pre, post, -, hstate⟩
    rw [hstate]
    exact (sound_after crypto d pre).wired
  constructor
  · intro hopen
    rcases Run.exists_switch (P := fun s : System => s.market.circuitState ≠ .active) hsplit hopen
      (not_not.mpr hactive) with ⟨r, hr, hbefore, hafter⟩
    exact ⟨r, hr, setsMarket_of_closed (hwired r hr) hbefore (not_not.mp hafter)⟩
  · intro hopen hguarded
    rcases hguarded with ⟨feedId, maxAge, hguarded⟩
    rcases Run.exists_switch (P := fun s : System => (oraclePart s).circuitState ≠ .active) hsplit
      hopen (not_not.mpr (hprice feedId maxAge hguarded).breaker) with ⟨r, hr, hbefore, hafter⟩
    exact ⟨r, hr, resetsOracle_of_closed hbefore (not_not.mp hafter)⟩

/-! ## A trade after the breaker was tripped and reset -/

/-- The sample deployment with an oracle. -/
def sampleDeployment : Deployment := ⟨CarbonSystem.sampleDeployment, ⟨13⟩⟩

/-- Credits are issued and a signed price is stored. -/
def pricedRun : List (Invocation Op) :=
  [⟨.signedBy 1 [⟨1⟩], .registry (.registerProject ⟨1⟩ "forest" 1000 2024)⟩,
    ⟨.signedBy 2 [⟨10⟩], .registry (.verifyProject CarbonSystem.sampleProjectId)⟩,
    ⟨.signedBy 3 [⟨12⟩],
      .market CarbonSystem.noOracle (.mintProjectCredits CarbonSystem.sampleProjectId 100)⟩,
    ⟨.signedBy 4 [⟨0⟩], .oracle (.initializeContract ⟨0⟩ CarbonOracle.sampleKey 10)⟩,
    ⟨.signedBy 5 [⟨9⟩], .oracle (.submitPrice ⟨9⟩ (CarbonOracle.sampleComputation 100)
      CarbonOracle.sampleFeed
      (CarbonOracle.plainSignature (CarbonOracle.sampleComputation 100)) none)⟩]

/-- The marketplace is told to ask for that price. -/
def sampleGuard : Invocation Op :=
  ⟨.signedBy 6 [⟨12⟩],
    .market CarbonSystem.noOracle (.configureOracle ⟨12⟩ ⟨13⟩ CarbonOracle.sampleFeed 600)⟩

/-- The breaker of the oracle is tripped. -/
def sampleTrip : Invocation Op := ⟨.signedBy 7 [⟨0⟩], .oracle (.tripCircuitBreaker ⟨0⟩)⟩

/-- The breaker of the oracle is reset. -/
def sampleReset : Invocation Op := ⟨.signedBy 8 [⟨0⟩], .oracle (.resetCircuitBreaker ⟨0⟩)⟩

/-- The owner of the credits lists forty of them. -/
def sampleListing : Invocation Op :=
  ⟨.signedBy 9 [⟨1⟩],
    .market CarbonSystem.noOracle (.createListing ⟨1⟩ CarbonSystem.sampleProjectId 40 3)⟩

/-- The steps of a run and one more. -/
theorem history_append_singleton (crypto : Crypto) (d : Deployment) (run : List (Invocation Op))
    (i : Invocation Op) :
    history crypto d (run ++ [i]) = history crypto d run ++ [(after crypto d run, i)] := by
  rw [history, Run.trace_append]
  rfl

/-- The listing is backed by the price that was stored. -/
theorem sampleListing_backed :
    let crypto := CarbonOracle.plainCrypto
    let before := history crypto sampleDeployment (pricedRun ++ [sampleGuard])
    let e : System × Invocation Op :=
      (after crypto sampleDeployment (pricedRun ++ [sampleGuard]), sampleListing)
    e.1.market.circuitState = .active ∧ (oraclePart e.1).circuitState = .active ∧
    ∃ c : Computation, (ledgerTime e.2.env).saturatingSub c.timestampUtc ≤ (600 : I64) ∧
      Run.Since (Attests crypto sampleDeployment CarbonOracle.sampleFeed c)
        (WritesPrice crypto sampleDeployment CarbonOracle.sampleFeed) before := by
  intro crypto before e
  refine trades_backed crypto sampleDeployment (pricedRun ++ [sampleGuard] ++ [sampleListing])
    before [] e ?_ CarbonOracle.sampleFeed 600 ?_ ?_
  · exact history_append_singleton crypto sampleDeployment (pricedRun ++ [sampleGuard])
      sampleListing
  · have hbefore := history_append_singleton crypto sampleDeployment pricedRun sampleGuard
    change Run.Since _ _ (history crypto sampleDeployment (pricedRun ++ [sampleGuard]))
    rw [hbefore]
    refine Run.since_append_singleton.mpr (.inl ⟨CarbonSystem.noOracle, rfl, rfl, ?_⟩)
    decide +kernel
  · exact ⟨CarbonSystem.noOracle, _, rfl, rfl, by decide +kernel⟩

/-- The run that ends with the trip. -/
def trippedRun : List (Invocation Op) := pricedRun ++ [sampleGuard] ++ [sampleTrip]

/-- Between the trip and the listing lies the reset. -/
theorem sampleTrip_lifted :
    let crypto := CarbonOracle.plainCrypto
    let x : System × Invocation Op :=
      (after crypto sampleDeployment (pricedRun ++ [sampleGuard]), sampleTrip)
    let between := [(after crypto sampleDeployment trippedRun, sampleReset)]
    let e : System × Invocation Op :=
      (after crypto sampleDeployment (trippedRun ++ [sampleReset]), sampleListing)
    ((step (exec crypto sampleDeployment) x.1 x.2).market.circuitState ≠ .active →
      ∃ r ∈ between, SetsMarket crypto sampleDeployment .active r) ∧
    ((oraclePart (step (exec crypto sampleDeployment) x.1 x.2)).circuitState ≠ .active →
      (∃ feedId maxAge, Guarded sampleDeployment feedId maxAge e.1) →
      ∃ r ∈ between, ResetsOracle crypto sampleDeployment r) := by
  intro crypto x between e
  have hreset := history_append_singleton crypto sampleDeployment trippedRun sampleReset
  have htrip := history_append_singleton crypto sampleDeployment (pricedRun ++ [sampleGuard])
    sampleTrip
  have hsplit : history crypto sampleDeployment (trippedRun ++ [sampleReset] ++ [sampleListing]) =
      history crypto sampleDeployment (pricedRun ++ [sampleGuard]) ++ x :: between ++ [e] := by
    rw [history_append_singleton crypto sampleDeployment (trippedRun ++ [sampleReset]), hreset]
    change history crypto sampleDeployment (pricedRun ++ [sampleGuard] ++ [sampleTrip]) ++ _ ++ _ =
      _
    rw [htrip, List.append_assoc (history crypto sampleDeployment _)]
    rfl
  exact halt_lifted crypto sampleDeployment (trippedRun ++ [sampleReset] ++ [sampleListing]) _
    between [] x e hsplit ⟨CarbonSystem.noOracle, _, rfl, rfl, by decide +kernel⟩

end PricedSystem
end Kraal
