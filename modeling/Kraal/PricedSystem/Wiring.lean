import Kraal.CarbonOracle.Freshness
import Kraal.CarbonMarketplace.Simulation
import Kraal.CarbonSystem.Wiring

/-!
# The carbon contracts and the price oracle as one system

The marketplace asks a contract for the state of its breaker and the age of a price before
it lists or sells.  Here that contract is carbon_oracle with a store of its own, which its
operations change between the calls of the marketplace.  Other addresses that an
administrator may configure answer from outside.

Main results:

- Theorem {lit}`pricedPeers_embed`: during one call the oracle contract is a fixed list of
  answers.
- Definitions {lit}`carbonProjection` and {lit}`oracleProjection`: every step of the system is
  a step of the three carbon contracts, with the answers of the oracle at that moment, or
  a step of the oracle contract.
- Theorem {lit}`runs_refine`: what this says about a whole run.
-/

namespace Kraal
namespace PricedSystem

open Foundation
open CarbonSystem (CarbonStores Oracle Sound SystemError calledBy registryQuery wiredPeers)
open CarbonMarketplace (Peer Peers PeerEmbeds PeersEmbed State)

/-! ## Deployment and state -/

/-- The carbon contracts and the address of the price oracle. -/
structure Deployment extends CarbonSystem.Deployment where
  oracle : Address

/-- The stores of the contracts that the marketplace calls. -/
structure Stores where
  carbon : CarbonStores
  oracle : CarbonOracle.Store

/-- Replace the stores of the carbon contracts. -/
@[simps]
def Stores.withCarbon (t : Stores) (carbon : CarbonStores) : Stores := { t with carbon := carbon }

/-- Replace the store of the oracle. -/
@[simps]
def Stores.withOracle (t : Stores) (oracle : CarbonOracle.Store) : Stores :=
  { t with oracle := oracle }

/-- The state of the system: the store of the marketplace and those it calls. -/
abbrev System : Type := State Stores

/-- The system after the carbon contracts have been initialized, with a freshly deployed
oracle. -/
def genesis (d : Deployment) : System :=
  ⟨(CarbonSystem.genesis d.toDeployment).market,
    ⟨(CarbonSystem.genesis d.toDeployment).peers, CarbonOracle.Store.empty⟩⟩

/-- The three carbon contracts of the system. -/
def carbonPart (s : System) : CarbonSystem.System := ⟨s.market, s.peers.carbon⟩

/-- The oracle contract of the system. -/
def oraclePart (s : System) : CarbonOracle.Store := s.peers.oracle

/-! ## Calls of the marketplace -/

variable {α : Type}

/-- A call of the marketplace into one of the other carbon contracts. -/
def onCarbon (callee : Peer CarbonStores α) : Peer Stores α := fun env t =>
  (callee env t.carbon).map fun p => (p.1, t.withCarbon p.2)

/-- A call of the marketplace at the address of the oracle contract; another address
answers from outside. -/
def onOracle (d : Deployment) (callee : Address) (outside : Option α)
    (c : CarbonOracle.OracleCall α) : Peer Stores α := fun env t =>
  if callee = d.oracle then
    match c (calledBy d.market env) t.oracle with
    | .ok (a, oracle) => some (a, t.withOracle oracle)
    | .error _ => none
  else
    outside.map fun a => (a, t)

/-- The breaker state of the oracle as the marketplace decodes it. -/
def decodeBreaker : CarbonOracle.CircuitBreakerState → CarbonMarketplace.CircuitBreakerState
  | .active => .active
  | .tripped => .tripped
  | .adminPaused => .adminPaused

/-- The breaker query of the oracle, decoded by the caller. -/
def breakerQuery : CarbonOracle.OracleCall CarbonMarketplace.CircuitBreakerState := do
  let state ← CarbonOracle.getCircuitBreakerState
  pure (decodeBreaker state)

/-- The contracts that the marketplace calls, the oracle among them. -/
def pricedPeers (d : Deployment) (outside : Oracle) : Peers Stores where
  getProject callee projectId :=
    onCarbon ((wiredPeers d.toDeployment outside).getProject callee projectId)
  issueCredits callee projectId amount :=
    onCarbon ((wiredPeers d.toDeployment outside).issueCredits callee projectId amount)
  balanceOf callee owner projectId :=
    onCarbon ((wiredPeers d.toDeployment outside).balanceOf callee owner projectId)
  mint callee recipient projectId amount :=
    onCarbon ((wiredPeers d.toDeployment outside).mint callee recipient projectId amount)
  burn callee owner projectId amount :=
    onCarbon ((wiredPeers d.toDeployment outside).burn callee owner projectId amount)
  getCircuitBreakerState callee :=
    onOracle d callee (outside.getCircuitBreakerState callee) breakerQuery
  isPriceStale callee feedId maxAge :=
    onOracle d callee (outside.isPriceStale callee feedId maxAge)
      (CarbonOracle.isPriceStale feedId maxAge)

/-! ## The oracle as a list of answers -/

/-- The answer of the oracle contract to a query in a state of its store. -/
def answer (d : Deployment) (callee : Address) (outside : Option α)
    (c : CarbonOracle.OracleCall α) (env : Env) (s : CarbonOracle.Store) : Option α :=
  if callee = d.oracle then
    match c (calledBy d.market env) s with
    | .ok (a, _) => some a
    | .error _ => none
  else
    outside

/-- What the oracles answer during a call that starts in a state of the oracle contract. -/
def answers (d : Deployment) (outside : Oracle) (env : Env) (s : CarbonOracle.Store) : Oracle where
  getCircuitBreakerState callee :=
    answer d callee (outside.getCircuitBreakerState callee) breakerQuery env s
  isPriceStale callee feedId maxAge :=
    answer d callee (outside.isPriceStale callee feedId maxAge)
      (CarbonOracle.isPriceStale feedId maxAge) env s

section Queries

variable {env : Env} {s s' : CarbonOracle.Store}

theorem breakerQuery_eq_ok {state : CarbonMarketplace.CircuitBreakerState} :
    breakerQuery env s = .ok (state, s') ↔
      s.config.isSome = true ∧ state = decodeBreaker s.circuitState ∧ s' = s := by
  simp only [breakerQuery, CarbonOracle.getCircuitBreakerState, Option.isSome_iff_exists,
    Call.bind_eq_ok, CarbonOracle.requireConfig_eq_ok, Call.get_eq_ok, Call.pure_eq_ok,
    Prod.mk.injEq, ↓existsAndEq, true_and, and_true, exists_and_right]

theorem isPriceStale_eq_ok {feedId : BytesN} {maxAge : I64} {stale : Bool} :
    CarbonOracle.isPriceStale feedId maxAge env s = .ok (stale, s') ↔
      s.config.isSome = true ∧ (∃ entry, s.feeds.get feedId = some entry ∧
        stale = decide ((CarbonOracle.ledgerTime env).saturatingSub entry.timestampUtc > maxAge)) ∧
      s' = s := by
  simp only [CarbonOracle.isPriceStale, Option.isSome_iff_exists, Call.bind_eq_ok,
    CarbonOracle.requireConfig_eq_ok, Call.get_eq_ok, Call.okOr_eq_ok, Call.ask_eq_ok,
    Call.pure_eq_ok, Prod.mk.injEq, ↓existsAndEq, true_and, and_true]
  constructor
  · intro h
    rcases h with ⟨cfg, hcfg, entry, hentry, hstale, hs⟩
    exact ⟨⟨cfg, hcfg⟩, ⟨entry, hentry, hstale⟩, hs⟩
  · intro h
    rcases h with ⟨⟨cfg, hcfg⟩, ⟨entry, hentry, hstale⟩, hs⟩
    exact ⟨cfg, hcfg, entry, hentry, hstale, hs⟩

/-- A query that leaves the store alone is answered as the list of answers says. -/
theorem onOracle_embeds {d : Deployment} {callee : Address} {outside : Option α}
    {c : CarbonOracle.OracleCall α}
    (hread : ∀ env' a s', c env' s = .ok (a, s') → s' = s) :
    PeerEmbeds (fun t => Stores.mk t s) env (onOracle d callee outside c)
      (fun _ t => (answer d callee outside c env s).map fun a => (a, t)) := by
  intro t
  unfold onOracle answer
  by_cases hcallee : callee = d.oracle
  · rw [if_pos hcallee, if_pos hcallee]
    cases h : c (calledBy d.market env) s with
    | error f => rfl
    | ok p =>
        rcases p with ⟨a, s'⟩
        rw [hread _ a s' h]
        rfl
  · rw [if_neg hcallee, if_neg hcallee]
    cases outside <;> rfl

end Queries

theorem onCarbon_embeds {env : Env} {s : CarbonOracle.Store}
    {callee callee' : Peer CarbonStores α} (h : callee env = callee' env) :
    PeerEmbeds (fun t => Stores.mk t s) env (onCarbon callee) callee' := by
  intro t
  unfold onCarbon
  rw [h]
  rfl

/-- During one call the oracle contract is a fixed list of answers. -/
theorem pricedPeers_embed (d : Deployment) (outside : Oracle) (env : Env)
    (s : CarbonOracle.Store) :
    PeersEmbed (fun t => Stores.mk t s) env (pricedPeers d outside)
      (wiredPeers d.toDeployment (answers d outside env s)) where
  getProject _ _ := onCarbon_embeds rfl
  issueCredits _ _ _ := onCarbon_embeds rfl
  balanceOf _ _ _ := onCarbon_embeds rfl
  mint _ _ _ _ := onCarbon_embeds rfl
  burn _ _ _ _ := onCarbon_embeds rfl
  getCircuitBreakerState _ :=
    onOracle_embeds fun _ _ _ h => (breakerQuery_eq_ok.mp h).2.2
  isPriceStale _ _ _ :=
    onOracle_embeds fun _ _ _ h => (isPriceStale_eq_ok.mp h).2.2

/-! ## Operations of the system -/

/-- An operation on one of the four contracts; one on the marketplace comes with the
answers of the addresses that are none of them. -/
inductive Op where
  | registry (op : CarbonRegistry.Op)
  | credit (op : CarbonCredit.Op)
  | market (outside : Oracle) (op : CarbonMarketplace.Op)
  | oracle (op : CarbonOracle.Op)

/-- An error of the carbon contracts or of the oracle. -/
inductive PricedError where
  | carbon (e : SystemError)
  | oracle (e : CarbonOracle.Error)
deriving DecidableEq, Repr

/-- An operation that one of the contracts runs, with its calls into the others. -/
def exec (crypto : Crypto) (d : Deployment) : Op → Call Env System PricedError Unit
  | .registry op =>
      (CarbonRegistry.exec crypto.sha256 op).lift (fun s => s.peers.carbon.registry)
        (fun s registry => s.withPeers (s.peers.withCarbon (s.peers.carbon.withRegistry registry)))
        fun e => .carbon (.registry e)
  | .credit op => fun env s =>
      (CarbonCredit.exec (registryQuery d.toDeployment env s.peers.carbon.registry) op).lift
        (fun s => s.peers.carbon.credit)
        (fun s credit => s.withPeers (s.peers.withCarbon (s.peers.carbon.withCredit credit)))
        (fun e => .carbon (.credit e)) env s
  | .market outside op =>
      (CarbonMarketplace.exec crypto.sha256 (pricedPeers d outside) op).lift (fun s => s)
        (fun _ s => s) fun e => .carbon (.market e)
  | .oracle op =>
      (CarbonOracle.exec crypto op).lift (fun s => s.peers.oracle)
        (fun s oracle => s.withPeers (s.peers.withOracle oracle)) .oracle

/-! ## Projection to the carbon contracts and to the oracle -/

/-- The call that an operation makes on the three carbon contracts, with the answers of the
oracle in the given state. -/
def carbonCall (d : Deployment) (s : System) (env : Env) : Op → Option CarbonSystem.Op
  | .registry op => some (.registry op)
  | .credit op => some (.credit op)
  | .market outside op => some (.market (answers d outside env s.peers.oracle) op)
  | .oracle _ => none

/-- The call that an operation makes on the oracle contract. -/
def oracleCall : Op → Option CarbonOracle.Op
  | .oracle op => some op
  | _ => none

variable {crypto : Crypto} {d : Deployment} {env : Env} {s s' : System}

/-- An operation on a carbon contract returns as it does in the system of those three, and
leaves the oracle alone. -/
theorem exec_carbon (op : Op) {op' : CarbonSystem.Op} (hop : carbonCall d s env op = some op') :
    exec crypto d op env s = .ok ((), s') ↔
      CarbonSystem.exec crypto.sha256 d.toDeployment op' env (carbonPart s) =
        .ok ((), carbonPart s') ∧ oraclePart s' = oraclePart s := by
  rcases s' with ⟨market', ⟨carbon', oracle'⟩⟩
  cases op with
  | registry op =>
      cases hop
      simp only [exec, Call.lift_eq_ok, CarbonSystem.exec_registry, carbonPart, oraclePart,
        State.withPeers, Stores.withCarbon, State.mk.injEq, Stores.mk.injEq]
      constructor
      · intro h
        rcases h with ⟨registry, hexec, hmarket, hcarbon, horacle⟩
        exact ⟨⟨registry, hexec, hmarket, hcarbon⟩, horacle⟩
      · intro h
        rcases h with ⟨⟨registry, hexec, hmarket, hcarbon⟩, horacle⟩
        exact ⟨registry, hexec, hmarket, hcarbon, horacle⟩
  | credit op =>
      cases hop
      simp only [exec, Call.lift_eq_ok, CarbonSystem.exec_credit, carbonPart, oraclePart,
        State.withPeers, Stores.withCarbon, State.mk.injEq, Stores.mk.injEq]
      constructor
      · intro h
        rcases h with ⟨credit, hexec, hmarket, hcarbon, horacle⟩
        exact ⟨⟨credit, hexec, hmarket, hcarbon⟩, horacle⟩
      · intro h
        rcases h with ⟨⟨credit, hexec, hmarket, hcarbon⟩, horacle⟩
        exact ⟨credit, hexec, hmarket, hcarbon, horacle⟩
  | market outside op =>
      cases hop
      have hembeds := CarbonMarketplace.exec_embeds
        (pricedPeers_embed d outside env s.peers.oracle) crypto.sha256 op
      have hiff : CarbonMarketplace.exec crypto.sha256 (pricedPeers d outside) op env s =
          .ok ((), ⟨market', ⟨carbon', oracle'⟩⟩) ↔ _ :=
        hembeds.eq_ok (t := carbonPart s)
      simp only [exec, Call.lift_eq_ok, CarbonSystem.exec_market, ↓existsAndEq, and_true]
      rw [hiff]
      constructor
      · intro h
        rcases h with ⟨t, hexec, heq⟩
        rcases t with ⟨market, carbon⟩
        simp only [State.embed, State.mk.injEq, Stores.mk.injEq] at heq
        rcases heq with ⟨rfl, rfl, rfl⟩
        exact ⟨hexec, rfl⟩
      · intro h
        refine ⟨_, h.1, ?_⟩
        have horacle : oracle' = s.peers.oracle := h.2
        rw [horacle]
        rfl
  | oracle op => cases hop

/-- An operation on the oracle returns as it does on that contract, and leaves the carbon
contracts alone. -/
theorem exec_oracle {op : CarbonOracle.Op} :
    exec crypto d (.oracle op) env s = .ok ((), s') ↔
      CarbonOracle.exec crypto op env (oraclePart s) = .ok ((), oraclePart s') ∧
        carbonPart s' = carbonPart s := by
  rcases s' with ⟨market', ⟨carbon', oracle'⟩⟩
  simp only [exec, Call.lift_eq_ok, carbonPart, oraclePart, State.withPeers, Stores.withOracle,
    State.mk.injEq, Stores.mk.injEq]
  constructor
  · intro h
    rcases h with ⟨oracle, hexec, hmarket, hcarbon, rfl⟩
    exact ⟨hexec, hmarket, hcarbon⟩
  · intro h
    rcases h with ⟨hexec, hmarket, hcarbon⟩
    exact ⟨oracle', hexec, hmarket, hcarbon, rfl⟩

/-- The operations on the carbon contracts are those that make no call on the oracle. -/
theorem carbonCall_eq_none {op : Op} (h : carbonCall d s env op = none) :
    ∃ op', op = .oracle op' := by
  cases op with
  | oracle op => exact ⟨op, rfl⟩
  | _ => cases h

/-- What the system does to the carbon contracts is a step of those three or none. -/
theorem carbonPart_step (crypto : Crypto) (d : Deployment) (s : System) (i : Invocation Op) :
    carbonPart (step (exec crypto d) s i) = (((carbonCall d s i.env i.call).map fun op =>
      (⟨i.env, op⟩ : Invocation CarbonSystem.Op)).map
        (step (CarbonSystem.exec crypto.sha256 d.toDeployment) (carbonPart s))).getD
          (carbonPart s) := by
  cases hop : carbonCall d s i.env i.call with
  | none =>
      rcases carbonCall_eq_none hop with ⟨op, hcall⟩
      apply step_induction (P := fun t => carbonPart t = carbonPart s) rfl
      intro s' hok
      rw [hcall] at hok
      exact (exec_oracle.mp hok).2
  | some op =>
      by_cases hsucceeds : (exec crypto d i.call).Succeeds i.env s
      · rcases hsucceeds with ⟨⟨⟨⟩, s'⟩, hok⟩
        rw [step_of_ok hok]
        exact (step_of_ok (i := ⟨i.env, op⟩) ((exec_carbon _ hop).mp hok).1).symm
      · rw [step_of_not_succeeds hsucceeds]
        refine (step_of_not_succeeds (i := ⟨i.env, op⟩) ?_).symm
        intro hcarbon
        rcases hcarbon with ⟨⟨⟨⟩, t⟩, hok⟩
        have hok' : exec crypto d i.call i.env s = .ok ((), ⟨t.market, ⟨t.peers, oraclePart s⟩⟩) :=
          (exec_carbon _ hop).mpr ⟨hok, rfl⟩
        exact hsucceeds ⟨_, hok'⟩

/-- What the system does to the oracle contract is a step of that contract or none. -/
theorem oraclePart_step (crypto : Crypto) (d : Deployment) (s : System) (i : Invocation Op) :
    oraclePart (step (exec crypto d) s i) = (((oracleCall i.call).map fun op =>
      (⟨i.env, op⟩ : Invocation CarbonOracle.Op)).map
        (step (CarbonOracle.exec crypto) (oraclePart s))).getD (oraclePart s) := by
  have hcarbon : ∀ op, carbonCall d s i.env i.call = some op →
      oraclePart (step (exec crypto d) s i) = oraclePart s := by
    intro op hop
    apply step_induction (P := fun t => oraclePart t = oraclePart s) rfl
    intro s' hok
    exact ((exec_carbon _ hop).mp hok).2
  cases hcall : i.call with
  | oracle op =>
      by_cases hsucceeds : (exec crypto d i.call).Succeeds i.env s
      · rcases hsucceeds with ⟨⟨⟨⟩, s'⟩, hok⟩
        rw [step_of_ok hok]
        rw [hcall] at hok
        exact (step_of_ok (i := ⟨i.env, op⟩) (exec_oracle.mp hok).1).symm
      · rw [step_of_not_succeeds hsucceeds]
        refine (step_of_not_succeeds (i := ⟨i.env, op⟩) ?_).symm
        intro horacle
        rcases horacle with ⟨⟨⟨⟩, t⟩, hok⟩
        apply hsucceeds
        rw [hcall]
        exact ⟨((), s.withPeers (s.peers.withOracle t)), exec_oracle.mpr ⟨hok, rfl⟩⟩
  | registry op => exact hcarbon (.registry op) (by rw [hcall]; rfl)
  | credit op => exact hcarbon (.credit op) (by rw [hcall]; rfl)
  | market outside op =>
      exact hcarbon (.market (answers d outside i.env s.peers.oracle) op) (by rw [hcall]; rfl)

/-- The steps of the three carbon contracts within the system. -/
def carbonProjection (crypto : Crypto) (d : Deployment) :
    Run.Projection (step (exec crypto d))
      (step (CarbonSystem.exec crypto.sha256 d.toDeployment)) where
  part := carbonPart
  shown e := (carbonCall d e.1 e.2.env e.2.call).map fun op => ⟨e.2.env, op⟩
  part_step := carbonPart_step crypto d

/-- The steps of the oracle contract within the system. -/
def oracleProjection (crypto : Crypto) (d : Deployment) :
    Run.Projection (step (exec crypto d)) (step (CarbonOracle.exec crypto)) where
  part := oraclePart
  shown e := (oracleCall e.2.call).map fun op => ⟨e.2.env, op⟩
  part_step := oraclePart_step crypto d

/-! ## Runs of the system -/

/-- The steps of a run from the deployment of the system. -/
def history (crypto : Crypto) (d : Deployment) (run : List (Invocation Op)) :
    List (System × Invocation Op) :=
  Run.trace (step (exec crypto d)) (genesis d) run

/-- The state after a run from the deployment of the system. -/
def after (crypto : Crypto) (d : Deployment) (run : List (Invocation Op)) : System :=
  Run.final (step (exec crypto d)) (genesis d) run

/-- The run that the three carbon contracts make within a run of the system. -/
def carbonRun (crypto : Crypto) (d : Deployment) (run : List (Invocation Op)) :
    List (Invocation CarbonSystem.Op) :=
  (carbonProjection crypto d).inputs (genesis d) run

/-- The run that the oracle contract makes within a run of the system. -/
def oracleRun (crypto : Crypto) (d : Deployment) (run : List (Invocation Op)) :
    List (Invocation CarbonOracle.Op) :=
  (oracleProjection crypto d).inputs (genesis d) run

theorem carbonPart_after (crypto : Crypto) (d : Deployment) (run : List (Invocation Op)) :
    carbonPart (after crypto d run) =
      Run.final (step (CarbonSystem.exec crypto.sha256 d.toDeployment))
        (CarbonSystem.genesis d.toDeployment) (carbonRun crypto d run) :=
  (carbonProjection crypto d).part_final (genesis d) run

theorem oraclePart_after (crypto : Crypto) (d : Deployment) (run : List (Invocation Op)) :
    oraclePart (after crypto d run) =
      Run.final (step (CarbonOracle.exec crypto)) CarbonOracle.Store.empty
        (oracleRun crypto d run) :=
  (oracleProjection crypto d).part_final (genesis d) run

/-- The step that a step of the system is for the carbon contracts. -/
abbrev carbonEntry (crypto : Crypto) (d : Deployment) (e : System × Invocation Op) :
    Option (CarbonSystem.System × Invocation CarbonSystem.Op) :=
  (carbonProjection crypto d).entry e

/-- The step that a step of the system is for the oracle contract. -/
abbrev oracleEntry (crypto : Crypto) (d : Deployment) (e : System × Invocation Op) :
    Option (CarbonOracle.Store × Invocation CarbonOracle.Op) :=
  (oracleProjection crypto d).entry e

theorem carbonEntry_eq_some {e : System × Invocation Op}
    {e' : CarbonSystem.System × Invocation CarbonSystem.Op} :
    carbonEntry crypto d e = some e' ↔
      carbonCall d e.1 e.2.env e.2.call = some e'.2.call ∧ e'.2.env = e.2.env ∧
        e'.1 = carbonPart e.1 := by
  rcases e' with ⟨t, ⟨env, op⟩⟩
  simp only [carbonEntry, Run.Projection.entry_eq_some, carbonProjection, Option.map_eq_some_iff,
    Invocation.mk.injEq]
  constructor
  · intro h
    rcases h with ⟨⟨op', hop, henv, rfl⟩, hpart⟩
    exact ⟨hop, henv.symm, hpart.symm⟩
  · intro h
    exact ⟨⟨op, h.1, h.2.1.symm, rfl⟩, h.2.2.symm⟩

theorem oracleEntry_eq_some {e : System × Invocation Op}
    {e' : CarbonOracle.Store × Invocation CarbonOracle.Op} :
    oracleEntry crypto d e = some e' ↔
      e.2.call = .oracle e'.2.call ∧ e'.2.env = e.2.env ∧ e'.1 = oraclePart e.1 := by
  rcases e with ⟨s, ⟨env, call⟩⟩
  rcases e' with ⟨t, ⟨env', op⟩⟩
  simp only [oracleEntry, Run.Projection.entry_eq_some, oracleProjection]
  cases call with
  | oracle op' => simp [oracleCall, eq_comm, and_assoc, and_left_comm]
  | _ => simp [oracleCall]

/-- What the parts of a run are. -/
structure Refines (crypto : Crypto) (d : Deployment) (run : List (Invocation Op)) : Prop where
  /-- The carbon contracts take the steps that are theirs, in the order of the run. -/
  carbon_steps : Run.trace (step (CarbonSystem.exec crypto.sha256 d.toDeployment))
    (CarbonSystem.genesis d.toDeployment) (carbonRun crypto d run) =
      (history crypto d run).filterMap (carbonEntry crypto d)
  carbon_final : carbonPart (after crypto d run) =
    Run.final (step (CarbonSystem.exec crypto.sha256 d.toDeployment))
      (CarbonSystem.genesis d.toDeployment) (carbonRun crypto d run)
  oracle_steps : Run.trace (step (CarbonOracle.exec crypto)) CarbonOracle.Store.empty
    (oracleRun crypto d run) = (history crypto d run).filterMap (oracleEntry crypto d)
  oracle_final : oraclePart (after crypto d run) =
    Run.final (step (CarbonOracle.exec crypto)) CarbonOracle.Store.empty (oracleRun crypto d run)
  /-- A step returns exactly if the step that it is for its contracts returns. -/
  carbon_outcome : ∀ e ∈ history crypto d run, ∀ e', carbonEntry crypto d e = some e' →
    ((exec crypto d e.2.call).Succeeds e.2.env e.1 ↔
      (CarbonSystem.exec crypto.sha256 d.toDeployment e'.2.call).Succeeds e'.2.env e'.1)
  oracle_outcome : ∀ e ∈ history crypto d run, ∀ e', oracleEntry crypto d e = some e' →
    ((exec crypto d e.2.call).Succeeds e.2.env e.1 ↔
      (CarbonOracle.exec crypto e'.2.call).Succeeds e'.2.env e'.1)
  /-- No step is for both or for neither. -/
  exclusive : ∀ e ∈ history crypto d run,
    (carbonEntry crypto d e).isSome = !(oracleEntry crypto d e).isSome

theorem succeeds_iff_carbon {e : System × Invocation Op}
    {e' : CarbonSystem.System × Invocation CarbonSystem.Op}
    (h : carbonEntry crypto d e = some e') :
    (exec crypto d e.2.call).Succeeds e.2.env e.1 ↔
      (CarbonSystem.exec crypto.sha256 d.toDeployment e'.2.call).Succeeds e'.2.env e'.1 := by
  rcases carbonEntry_eq_some.mp h with ⟨hop, henv, hpart⟩
  rw [henv, hpart]
  constructor
  · intro hs
    rcases hs with ⟨⟨⟨⟩, s'⟩, hok⟩
    exact ⟨_, ((exec_carbon _ hop).mp hok).1⟩
  · intro hs
    rcases hs with ⟨⟨⟨⟩, t⟩, hok⟩
    have hok' : exec crypto d e.2.call e.2.env e.1 =
        .ok ((), ⟨t.market, ⟨t.peers, oraclePart e.1⟩⟩) :=
      (exec_carbon _ hop).mpr ⟨hok, rfl⟩
    exact ⟨_, hok'⟩

theorem succeeds_iff_oracle {e : System × Invocation Op}
    {e' : CarbonOracle.Store × Invocation CarbonOracle.Op} (h : oracleEntry crypto d e = some e') :
    (exec crypto d e.2.call).Succeeds e.2.env e.1 ↔
      (CarbonOracle.exec crypto e'.2.call).Succeeds e'.2.env e'.1 := by
  rcases oracleEntry_eq_some.mp h with ⟨hop, henv, hpart⟩
  rw [henv, hpart, hop]
  constructor
  · intro hs
    rcases hs with ⟨⟨⟨⟩, s'⟩, hok⟩
    exact ⟨_, (exec_oracle.mp hok).1⟩
  · intro hs
    rcases hs with ⟨⟨⟨⟩, t⟩, hok⟩
    exact ⟨((), e.1.withPeers (e.1.peers.withOracle t)), exec_oracle.mpr ⟨hok, rfl⟩⟩

/-- A run of the system is a run of the three carbon contracts, with the answers that the
oracle contract gives at each call, interleaved with a run of the oracle contract. -/
theorem runs_refine (crypto : Crypto) (d : Deployment) (run : List (Invocation Op)) :
    Refines crypto d run where
  carbon_steps := (carbonProjection crypto d).trace_inputs (genesis d) run
  carbon_final := carbonPart_after crypto d run
  oracle_steps := (oracleProjection crypto d).trace_inputs (genesis d) run
  oracle_final := oraclePart_after crypto d run
  carbon_outcome _ _ _ := succeeds_iff_carbon
  oracle_outcome _ _ _ := succeeds_iff_oracle
  exclusive e _ := by
    rcases e with ⟨s, ⟨env, call⟩⟩
    cases call <;> rfl

/-- In every reachable state the carbon contracts are wired and the credits conserved. -/
theorem sound_after (crypto : Crypto) (d : Deployment) (run : List (Invocation Op)) :
    Sound d.toDeployment (carbonPart (after crypto d run)) := by
  rw [carbonPart_after]
  exact CarbonSystem.reachable_sound ⟨_, rfl⟩

end PricedSystem
end Kraal
