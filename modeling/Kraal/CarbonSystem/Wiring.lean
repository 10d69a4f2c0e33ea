import Kraal.CarbonCredit.Conservation
import Kraal.CarbonMarketplace.Contract

/-!
# The three carbon contracts wired together

The registry, the credit contract and the marketplace as one system: every call
between them runs the called contract on its own store, with the calling contract's
address authorized.  The oracle stays outside; its answers come with each call.

Main results:

- Theorem {lit}`exec_registry`, {lit}`exec_credit` and {lit}`exec_market`: an
  operation of the system runs one contract.
- Theorems {lit}`market_peers` and {lit}`market_cases`: what a marketplace operation does
  to the stores of the other two contracts.
- Theorem {lit}`Settles.ledger`: the settlement of a purchase is a transfer.
- Theorem {lit}`reachable_sound`: in every reachable state the contracts are wired and
  the credit ledger is conserved.
-/

namespace Kraal
namespace CarbonSystem

open Foundation
open CarbonRegistry (CarbonProject)
open CarbonCredit (Conserved ProjectQuery conserved_empty)
open CarbonMarketplace (CircuitBreakerState Peer Peers)

/-! ## Deployment and state -/

/-- The addresses of the contracts, their administrators and the marketplace fee. -/
structure Deployment where
  registry : Address
  credit : Address
  market : Address
  registryAdmin : Address
  creditAdmin : Address
  marketAdmin : Address
  feeBps : I128

/-- The stores of the two contracts that the marketplace calls. -/
structure CarbonStores where
  registry : CarbonRegistry.Store
  credit : CarbonCredit.Store

/-- Replace the store of the registry. -/
def CarbonStores.withRegistry (t : CarbonStores) (registry : CarbonRegistry.Store) :
    CarbonStores :=
  { t with registry := registry }

/-- Replace the store of the credit contract. -/
def CarbonStores.withCredit (t : CarbonStores) (credit : CarbonCredit.Store) : CarbonStores :=
  { t with credit := credit }

/-- The registry that was written is there. -/
@[simp]
theorem CarbonStores.withRegistry_registry (t : CarbonStores) (registry : CarbonRegistry.Store) :
    (t.withRegistry registry).registry = registry :=
  rfl

/-- Writing the registry leaves the credits alone. -/
@[simp]
theorem CarbonStores.withRegistry_credit (t : CarbonStores) (registry : CarbonRegistry.Store) :
    (t.withRegistry registry).credit = t.credit :=
  rfl

/-- Writing the credits leaves the registry alone. -/
@[simp]
theorem CarbonStores.withCredit_registry (t : CarbonStores) (credit : CarbonCredit.Store) :
    (t.withCredit credit).registry = t.registry :=
  rfl

/-- The credits that were written are there. -/
@[simp]
theorem CarbonStores.withCredit_credit (t : CarbonStores) (credit : CarbonCredit.Store) :
    (t.withCredit credit).credit = credit :=
  rfl

/-- The state of the system: the store of the marketplace and those it calls. -/
abbrev System : Type := CarbonMarketplace.State CarbonStores

/-- The system right after the three contracts have been initialized to call each other. -/
def genesis (d : Deployment) : System where
  market :=
    { CarbonMarketplace.Store.empty with
      config := some ⟨d.marketAdmin, d.registry, d.credit, d.feeBps, none, none, 0⟩ }
  peers :=
    { registry := { CarbonRegistry.Store.empty with config := some ⟨d.registryAdmin, d.market⟩ }
      credit :=
        { CarbonCredit.Store.empty with config := some ⟨d.creditAdmin, d.registry, d.market⟩ } }

/-! ## Calls between the contracts -/

/-- The environment of a contract that another contract calls. -/
def calledBy (caller : Address) (env : Env) : Env where
  sequence := env.sequence
  timestamp := env.timestamp
  authorized a := decide (a = caller) || env.authorized a

/-- The answer of the registry to the project query of the credit contract. -/
def registryQuery (d : Deployment) (env : Env) (registry : CarbonRegistry.Store) : ProjectQuery :=
  fun callee projectId =>
    if callee = d.registry then
      match CarbonRegistry.getProject projectId env registry with
      | .ok (project, _) => some project
      | .error _ => none
    else
      none

/-- The registry answers with the project that it stores. -/
@[simp]
theorem registryQuery_eq_some {d : Deployment} {env : Env} {registry : CarbonRegistry.Store}
    {callee : Address} {projectId : BytesN} {project : CarbonProject} :
    registryQuery d env registry callee projectId = some project ↔
      callee = d.registry ∧ registry.projects.get projectId = some project := by
  unfold registryQuery
  by_cases hcallee : callee = d.registry
  · rw [if_pos hcallee]
    constructor
    · intro h
      split at h
      · rename_i project' registry' hload
        rcases CarbonRegistry.loadProject_eq_ok.mp hload with ⟨hproject, -⟩
        rw [Option.some.injEq] at h
        rw [← h]
        exact ⟨hcallee, hproject⟩
      · cases h
    · intro hcase
      rcases hcase with ⟨-, hproject⟩
      have hload : CarbonRegistry.getProject projectId env registry = .ok (project, registry) :=
        CarbonRegistry.loadProject_eq_ok.mpr ⟨hproject, rfl⟩
      rw [hload]
  · simp [hcallee]

variable {α : Type}

/-- A call of the marketplace at the address of the registry. -/
def onRegistry (d : Deployment) (callee : Address) (c : CarbonRegistry.RegistryCall α) :
    Peer CarbonStores α := fun env t =>
  if callee = d.registry then
    match c (calledBy d.market env) t.registry with
    | .ok (a, registry) => some (a, t.withRegistry registry)
    | .error _ => none
  else
    none

/-- A call of the marketplace at the address of the credit contract. -/
def onCredit (d : Deployment) (callee : Address) (c : CarbonCredit.CreditCall α) :
    Peer CarbonStores α := fun env t =>
  if callee = d.credit then
    match c (calledBy d.market env) t.credit with
    | .ok (a, credit) => some (a, t.withCredit credit)
    | .error _ => none
  else
    none

/-- A call of the registry is one in the name of the marketplace. -/
@[simp]
theorem onRegistry_eq_some {d : Deployment} {callee : Address}
    {c : CarbonRegistry.RegistryCall α} {env : Env} {t t' : CarbonStores} {a : α} :
    onRegistry d callee c env t = some (a, t') ↔ callee = d.registry ∧
      ∃ registry, c (calledBy d.market env) t.registry = .ok (a, registry) ∧
        t' = t.withRegistry registry := by
  unfold onRegistry
  by_cases hcallee : callee = d.registry
  · cases h : c (calledBy d.market env) t.registry with
    | error f => simp [hcallee]
    | ok q => simp [hcallee, Prod.ext_iff, eq_comm, and_assoc]
  · simp [hcallee]

/-- A call of the credits is one in the name of the marketplace. -/
@[simp]
theorem onCredit_eq_some {d : Deployment} {callee : Address} {c : CarbonCredit.CreditCall α}
    {env : Env} {t t' : CarbonStores} {a : α} :
    onCredit d callee c env t = some (a, t') ↔ callee = d.credit ∧
      ∃ credit, c (calledBy d.market env) t.credit = .ok (a, credit) ∧
        t' = t.withCredit credit := by
  unfold onCredit
  by_cases hcallee : callee = d.credit
  · cases h : c (calledBy d.market env) t.credit with
    | error f => simp [hcallee]
    | ok q => simp [hcallee, Prod.ext_iff, eq_comm, and_assoc]
  · simp [hcallee]

/-- What the price oracles answer during one call. -/
structure Oracle where
  getCircuitBreakerState : Address → Option CircuitBreakerState
  isPriceStale : Address → BytesN → I64 → Option Bool

/-- The contracts that the marketplace calls. -/
def wiredPeers (d : Deployment) (oracle : Oracle) : Peers CarbonStores where
  getProject callee projectId := onRegistry d callee (CarbonRegistry.getProject projectId)
  issueCredits callee projectId amount :=
    onRegistry d callee (CarbonRegistry.issueCredits projectId amount)
  balanceOf callee owner projectId := onCredit d callee (CarbonCredit.balanceOf owner projectId)
  mint callee recipient projectId amount env t :=
    onCredit d callee
      (CarbonCredit.mint (registryQuery d env t.registry) recipient projectId amount) env t
  burn callee owner projectId amount := onCredit d callee (CarbonCredit.burn owner projectId amount)
  getCircuitBreakerState callee _ t := (oracle.getCircuitBreakerState callee).map fun a => (a, t)
  isPriceStale callee feedId maxAge _ t :=
    (oracle.isPriceStale callee feedId maxAge).map fun a => (a, t)

section Peers

variable {d : Deployment} {oracle : Oracle} {env : Env} {t t' : CarbonStores} {callee : Address}

/-- The registry is asked for a project. -/
@[simp]
theorem wiredPeers_getProject {projectId : BytesN} {project : CarbonProject} :
    (wiredPeers d oracle).getProject callee projectId env t = some (project, t') ↔
      callee = d.registry ∧ t.registry.projects.get projectId = some project ∧ t' = t := by
  simp only [wiredPeers, onRegistry_eq_some, CarbonRegistry.getProject,
    CarbonRegistry.loadProject_eq_ok]
  constructor
  · intro h
    rcases h with ⟨hcallee, registry, ⟨hproject, rfl⟩, rfl⟩
    exact ⟨hcallee, hproject, rfl⟩
  · intro h
    rcases h with ⟨hcallee, hproject, rfl⟩
    exact ⟨hcallee, t'.registry, ⟨hproject, rfl⟩, rfl⟩

/-- The credits are asked for a balance. -/
@[simp]
theorem wiredPeers_balanceOf {owner : Address} {projectId : BytesN} {balance : I128} :
    (wiredPeers d oracle).balanceOf callee owner projectId env t = some (balance, t') ↔
      callee = d.credit ∧ balance = t.credit.balanceOf owner projectId ∧ t' = t := by
  simp only [wiredPeers, onCredit_eq_some, CarbonCredit.balanceOf_eq_ok, Prod.mk.injEq]
  constructor
  · intro h
    rcases h with ⟨hcallee, credit, ⟨hbalance, rfl⟩, rfl⟩
    exact ⟨hcallee, hbalance, rfl⟩
  · intro h
    rcases h with ⟨hcallee, hbalance, rfl⟩
    exact ⟨hcallee, t'.credit, ⟨hbalance, rfl⟩, rfl⟩

/-- The registry is called to issue credits. -/
@[simp]
theorem wiredPeers_issueCredits {projectId : BytesN} {amount : I128} :
    (wiredPeers d oracle).issueCredits callee projectId amount env t = some ((), t') ↔
      callee = d.registry ∧ ∃ registry,
        CarbonRegistry.issueCredits projectId amount (calledBy d.market env) t.registry =
          .ok ((), registry) ∧ t' = t.withRegistry registry :=
  onRegistry_eq_some

/-- The credits are minted. -/
@[simp]
theorem wiredPeers_mint {recipient : Address} {projectId : BytesN} {amount : I128} :
    (wiredPeers d oracle).mint callee recipient projectId amount env t = some ((), t') ↔
      callee = d.credit ∧ ∃ credit,
        CarbonCredit.mint (registryQuery d env t.registry) recipient projectId amount
          (calledBy d.market env) t.credit = .ok ((), credit) ∧ t' = t.withCredit credit :=
  onCredit_eq_some

/-- The credits are burned. -/
@[simp]
theorem wiredPeers_burn {owner : Address} {projectId : BytesN} {amount : I128} :
    (wiredPeers d oracle).burn callee owner projectId amount env t = some ((), t') ↔
      callee = d.credit ∧ ∃ credit,
        CarbonCredit.burn owner projectId amount (calledBy d.market env) t.credit =
          .ok ((), credit) ∧ t' = t.withCredit credit :=
  onCredit_eq_some

/-- The price check reads the oracle and leaves the other contracts alone. -/
theorem freshPrice_stores {cfg : CarbonMarketplace.MarketConfig}
    (h : CarbonMarketplace.FreshPrice (wiredPeers d oracle) cfg env t t') : t' = t := by
  unfold CarbonMarketplace.FreshPrice at h
  split at h
  · rcases h with ⟨u, hstate, hstale⟩
    simp only [wiredPeers, Option.map_eq_some_iff, Prod.mk.injEq] at hstate hstale
    rcases hstate with ⟨_, -, -, rfl⟩
    rcases hstale with ⟨_, -, -, rfl⟩
    rfl
  · exact h

end Peers

/-! ## Operations of the system -/

/-- An operation on one of the three contracts; one on the marketplace comes with the
answers of the oracles during it. -/
inductive Op where
  | registry (op : CarbonRegistry.Op)
  | credit (op : CarbonCredit.Op)
  | market (oracle : Oracle) (op : CarbonMarketplace.Op)

/-- An error of one of the contracts. -/
inductive SystemError where
  | registry (e : CarbonRegistry.RegistryError)
  | credit (e : CarbonCredit.CreditError)
  | market (e : CarbonMarketplace.MarketError)
deriving DecidableEq, Repr

/-- A call that may reach all three contracts. -/
abbrev SystemCall (α : Type) : Type := Call Env System SystemError α

/-- An operation that one of the contracts runs, with its calls into the others. -/
def exec (sha256 : Bytes → BytesN) (d : Deployment) : Op → SystemCall Unit
  | .registry op =>
      (CarbonRegistry.exec sha256 op).lift (fun s => s.peers.registry)
        (fun s registry => s.withPeers (s.peers.withRegistry registry)) .registry
  | .credit op => fun env s =>
      (CarbonCredit.exec (registryQuery d env s.peers.registry) op).lift (fun s => s.peers.credit)
        (fun s credit => s.withPeers (s.peers.withCredit credit)) .credit env s
  | .market oracle op =>
      (CarbonMarketplace.exec sha256 (wiredPeers d oracle) op).lift (fun s => s) (fun _ s => s)
        .market

section Exec

variable {sha256 : Bytes → BytesN} {d : Deployment} {env : Env} {s s' : System}

/-- A call of the registry changes only the registry. -/
theorem exec_registry {op : CarbonRegistry.Op} :
    exec sha256 d (.registry op) env s = .ok ((), s') ↔ ∃ registry,
      CarbonRegistry.exec sha256 op env s.peers.registry = .ok ((), registry) ∧
      s' = s.withPeers (s.peers.withRegistry registry) := by
  simp [exec]

/-- A call of the credits changes only the credits. -/
theorem exec_credit {op : CarbonCredit.Op} :
    exec sha256 d (.credit op) env s = .ok ((), s') ↔ ∃ credit,
      CarbonCredit.exec (registryQuery d env s.peers.registry) op env s.peers.credit =
        .ok ((), credit) ∧
      s' = s.withPeers (s.peers.withCredit credit) := by
  simp [exec]

/-- A call of the marketplace. -/
theorem exec_market {oracle : Oracle} {op : CarbonMarketplace.Op} :
    exec sha256 d (.market oracle op) env s = .ok ((), s') ↔
      CarbonMarketplace.exec sha256 (wiredPeers d oracle) op env s = .ok ((), s') := by
  simp [exec]

/-- The two calls that settle a purchase: the credits are burned and minted again. -/
def Settles (d : Deployment) (env : Env) (seller buyer : Address) (projectId : BytesN)
    (amount : I128) (t t' : CarbonStores) : Prop :=
  ∃ burned credit,
    CarbonCredit.burn seller projectId amount (calledBy d.market env) t.credit =
      .ok ((), burned) ∧
    CarbonCredit.mint (registryQuery d env t.registry) buyer projectId amount
      (calledBy d.market env) burned = .ok ((), credit) ∧
    t' = t.withCredit credit

/-- The two calls that issue new credits: recorded in the registry, then minted. -/
def Issues (d : Deployment) (env : Env) (projectId : BytesN) (amount : I128)
    (t t' : CarbonStores) : Prop :=
  ∃ registry project credit,
    CarbonRegistry.issueCredits projectId amount (calledBy d.market env) t.registry =
      .ok ((), registry) ∧
    registry.projects.get projectId = some project ∧
    CarbonCredit.mint (registryQuery d env registry) project.owner projectId amount
      (calledBy d.market env) t.credit = .ok ((), credit) ∧
    t' = (t.withRegistry registry).withCredit credit

/-- A marketplace operation leaves the stores of the other contracts alone, unless it settles
the listing that it purchases or issues new credits. -/
theorem market_peers {oracle : Oracle} {op : CarbonMarketplace.Op}
    (h : CarbonMarketplace.exec sha256 (wiredPeers d oracle) op env s = .ok ((), s')) :
    (s'.peers = s.peers ∧ ∀ projectId amount, op ≠ .mintProjectCredits projectId amount) ∨
    (∃ buyer listingId paymentAmount maxLedger listing,
      op = .purchaseListing buyer listingId paymentAmount maxLedger ∧
      s.market.listings.get listingId = some listing ∧
      Settles d env listing.seller buyer listing.projectId listing.amount s.peers s'.peers) ∨
    (∃ projectId amount, op = .mintProjectCredits projectId amount ∧
      Issues d env projectId amount s.peers s'.peers) := by
  cases op with
  | initializeContract admin registry creditContract feeBps =>
      rcases CarbonMarketplace.initializeContract_eq_ok.mp h with ⟨-, rfl⟩
      exact .inl ⟨rfl, by simp⟩
  | configureOracle admin oracle' feedId maxPriceAgeSeconds =>
      rcases CarbonMarketplace.configureOracle_eq_ok.mp h with ⟨cfg, -, -, -, rfl⟩
      exact .inl ⟨rfl, by simp⟩
  | setCircuitBreakerState admin state =>
      rcases CarbonMarketplace.setCircuitBreakerState_eq_ok.mp h with ⟨cfg, -, -, -, rfl⟩
      exact .inl ⟨rfl, by simp⟩
  | createListing seller projectId amount pricePerCredit =>
      rcases Call.bind_eq_ok.mp h with ⟨id, u, hcall, hpure⟩
      cases hpure
      rcases CarbonMarketplace.createListing_eq_ok.mp hcall with ⟨t, nextNonce, haccepted, -, -,
        rfl⟩
      rcases haccepted with ⟨cfg, t₁, project, t₂, balance, -, -, -, hfresh, -, -, hproject, -,
        hbalance, -⟩
      rcases wiredPeers_getProject.mp hproject with ⟨-, -, rfl⟩
      rcases wiredPeers_balanceOf.mp hbalance with ⟨-, -, rfl⟩
      exact .inl ⟨freshPrice_stores hfresh, by simp⟩
  | purchaseListing buyer listingId paymentAmount maxLedger =>
      rcases CarbonMarketplace.purchaseListing_eq_ok.mp h with
        ⟨cfg, listing, t, t₁, project, t₂, t₃, hchecked, hproject, -, hburn, hmint, rfl⟩
      rcases wiredPeers_getProject.mp hproject with ⟨-, -, rfl⟩
      rcases wiredPeers_burn.mp hburn with ⟨-, burned, hburned, rfl⟩
      rcases wiredPeers_mint.mp hmint with ⟨-, credit, hminted, rfl⟩
      rw [freshPrice_stores hchecked.fresh] at hburned hminted ⊢
      exact .inr (.inl ⟨buyer, listingId, paymentAmount, maxLedger, listing, rfl, hchecked.stored,
        burned, credit, hburned, hminted, rfl⟩)
  | cancelListing seller listingId =>
      rcases CarbonMarketplace.cancelListing_eq_ok.mp h with ⟨-, -, -, listing, -, -, -, rfl⟩
      exact .inl ⟨rfl, by simp⟩
  | mintProjectCredits projectId amount =>
      rcases CarbonMarketplace.mintProjectCredits_eq_ok.mp h with
        ⟨cfg, t₁, project, t₂, t₃, -, -, -, -, hissue, hproject, hmint, rfl⟩
      rcases wiredPeers_issueCredits.mp hissue with ⟨-, registry, hissued, rfl⟩
      rcases wiredPeers_getProject.mp hproject with ⟨-, hstored, rfl⟩
      rcases wiredPeers_mint.mp hmint with ⟨-, credit, hminted, rfl⟩
      exact .inr (.inr ⟨projectId, amount, rfl, registry, project, credit, hissued, hstored,
        hminted, rfl⟩)

/-- What a marketplace operation does to the stores of the other contracts: nothing,
the settlement of a purchase, or the issue of new credits. -/
theorem market_cases {oracle : Oracle} {op : CarbonMarketplace.Op}
    (h : CarbonMarketplace.exec sha256 (wiredPeers d oracle) op env s = .ok ((), s')) :
    s'.peers = s.peers ∨
    (∃ seller buyer projectId amount,
      Settles d env seller buyer projectId amount s.peers s'.peers) ∨
    (∃ projectId amount, op = .mintProjectCredits projectId amount ∧
      Issues d env projectId amount s.peers s'.peers) := by
  rcases market_peers h with ⟨hpeers, -⟩ |
    ⟨buyer, listingId, paymentAmount, maxLedger, listing, -, -, hsettles⟩ | hissues
  · exact .inl hpeers
  · exact .inr (.inl ⟨listing.seller, buyer, listing.projectId, listing.amount, hsettles⟩)
  · exact .inr (.inr hissues)

end Exec

/-! ## The wiring -/

/-- The three contracts are configured to call each other. -/
structure Wired (d : Deployment) (s : System) : Prop where
  registry_config : s.peers.registry.config = some ⟨d.registryAdmin, d.market⟩
  credit_config : s.peers.credit.config = some ⟨d.creditAdmin, d.registry, d.market⟩
  market_config : ∃ cfg, s.market.config = some cfg ∧ cfg.admin = d.marketAdmin ∧
    cfg.registry = d.registry ∧ cfg.creditContract = d.credit

/-- The contracts are wired when they are deployed. -/
theorem wired_genesis (d : Deployment) : Wired d (genesis d) where
  registry_config := rfl
  credit_config := rfl
  market_config := ⟨_, rfl, rfl, rfl, rfl⟩

/-- The settlement of a purchase keeps the configuration of the credit contract. -/
theorem Settles.credit_config {d : Deployment} {env : Env} {seller buyer : Address}
    {projectId : BytesN} {amount : I128} {t t' : CarbonStores}
    (h : Settles d env seller buyer projectId amount t t') :
    t'.credit.config = t.credit.config := by
  rcases h with ⟨burned, credit, hburn, hmint, rfl⟩
  exact (CarbonCredit.mint_config hmint).trans (CarbonCredit.burn_config hburn)

/-- Every operation keeps the wiring, whether it returns or fails. -/
theorem Wired.step {sha256 : Bytes → BytesN} {d : Deployment} {s : System} (hs : Wired d s)
    (i : Invocation Op) : Wired d (Kraal.step (exec sha256 d) s i) := by
  apply step_induction hs
  intro s' hok
  cases hcall : i.call with
  | registry op =>
      rw [hcall] at hok
      rcases exec_registry.mp hok with ⟨registry, hexec, rfl⟩
      exact ⟨CarbonRegistry.exec_config hexec hs.registry_config, hs.credit_config,
        hs.market_config⟩
  | credit op =>
      rw [hcall] at hok
      rcases exec_credit.mp hok with ⟨credit, hexec, rfl⟩
      exact ⟨hs.registry_config, CarbonCredit.exec_config hexec hs.credit_config,
        hs.market_config⟩
  | market oracle op =>
      rw [hcall] at hok
      have hexec := exec_market.mp hok
      have hmarket : ∃ cfg, s'.market.config = some cfg ∧ cfg.admin = d.marketAdmin ∧
          cfg.registry = d.registry ∧ cfg.creditContract = d.credit := by
        rcases hs.market_config with ⟨cfg, hcfg, hadmin, hregistry, hcredit⟩
        rcases CarbonMarketplace.exec_config hexec hcfg with ⟨cfg', hcfg', ha, hr, hc⟩
        exact ⟨cfg', hcfg', ha.trans hadmin, hr.trans hregistry, hc.trans hcredit⟩
      rcases market_cases hexec with hpeers | ⟨seller, buyer, projectId, amount, hsettles⟩ |
        ⟨projectId, amount, -, registry, project, credit, hissue, -, hmint, hpeers⟩
      · refine ⟨?_, ?_, hmarket⟩
        · rw [hpeers]
          exact hs.registry_config
        · rw [hpeers]
          exact hs.credit_config
      · refine ⟨?_, hsettles.credit_config.trans hs.credit_config, hmarket⟩
        rcases hsettles with ⟨burned, credit, -, -, hpeers⟩
        rw [hpeers]
        exact hs.registry_config
      · refine ⟨?_, ?_, hmarket⟩
        · rw [hpeers]
          exact (CarbonRegistry.issueCredits_config hissue).trans hs.registry_config
        · rw [hpeers]
          exact (CarbonCredit.mint_config hmint).trans hs.credit_config

/-! ## Conservation in the system -/

/-- A settlement is a transfer in the abstract ledger, and nothing else. -/
theorem Settles.ledger {d : Deployment} {env : Env} {seller buyer : Address}
    {projectId : BytesN} {amount : I128} {t t' : CarbonStores} (ht : Conserved t.credit)
    (h : Settles d env seller buyer projectId amount t t') :
    t'.registry = t.registry ∧ Conserved t'.credit ∧
      t'.credit.ledger = t.credit.ledger.transfer seller buyer projectId amount.toInt := by
  rcases h with ⟨burned, credit, hburn, hmint, rfl⟩
  have hburned : Conserved burned := by
    rcases CarbonCredit.burn_eq_ok.mp hburn with ⟨-, hpos, hremove⟩
    exact ht.removeCredits hpos hremove
  refine ⟨rfl, hburned.mint hmint, ?_⟩
  rw [CarbonStores.withCredit_credit, CarbonCredit.mint_refines hmint,
    CarbonCredit.burn_refines ht hburn, Ledger.mint_burn_eq_transfer]

/-- The contracts are wired and the credit ledger is conserved. -/
structure Sound (d : Deployment) (s : System) : Prop where
  wired : Wired d s
  conserved : Conserved s.peers.credit

/-- The ledgers agree when the contracts are deployed. -/
theorem sound_genesis (d : Deployment) : Sound d (genesis d) where
  wired := wired_genesis d
  conserved := ⟨conserved_empty.balances_pos, conserved_empty.supplies_pos,
    conserved_empty.sum_eq⟩

/-- Every call keeps the contracts wired and the ledgers in agreement. -/
theorem Sound.step {sha256 : Bytes → BytesN} {d : Deployment} {s : System} (hs : Sound d s)
    (i : Invocation Op) : Sound d (Kraal.step (exec sha256 d) s i) := by
  refine ⟨hs.wired.step i, ?_⟩
  apply step_induction (P := fun s : System => Conserved s.peers.credit) hs.conserved
  intro s' hok
  cases hcall : i.call with
  | registry op =>
      rw [hcall] at hok
      rcases exec_registry.mp hok with ⟨registry, -, rfl⟩
      exact hs.conserved
  | credit op =>
      rw [hcall] at hok
      rcases exec_credit.mp hok with ⟨credit, hexec, rfl⟩
      exact hs.conserved.exec hexec
  | market oracle op =>
      rw [hcall] at hok
      rcases market_cases (exec_market.mp hok) with hpeers |
        ⟨seller, buyer, projectId, amount, hsettles⟩ |
        ⟨projectId, amount, -, registry, project, credit, -, -, hmint, hpeers⟩
      · rw [hpeers]
        exact hs.conserved
      · exact (hsettles.ledger hs.conserved).2.1
      · rw [hpeers]
        exact hs.conserved.mint hmint

/-- The contracts are wired and the ledgers agree in every reachable state. -/
theorem reachable_sound {sha256 : Bytes → BytesN} {d : Deployment} {s : System}
    (hs : Run.Reachable (step (exec sha256 d)) (genesis d) s) : Sound d s :=
  hs.invariant (sound_genesis d) fun _ i hs => hs.step i

/-! ## A sample deployment -/

/-- A deployment with three administrators. -/
def sampleDeployment : Deployment := ⟨⟨7⟩, ⟨8⟩, ⟨9⟩, ⟨10⟩, ⟨11⟩, ⟨12⟩, 0⟩

/-- No oracle answers. -/
def noOracle : Oracle := ⟨fun _ => none, fun _ _ _ => none⟩

/-- The id of a project of the vintage year 2024 under the identity hash. -/
def sampleProjectId : BytesN := ⟨(2024 : U32).toBeBytes⟩

/-- A project is registered and verified, and a hundred credits are issued for it. -/
def issuedRun : List (Invocation Op) :=
  [⟨.signedBy 1 [⟨1⟩], .registry (.registerProject ⟨1⟩ "forest" 1000 2024)⟩,
    ⟨.signedBy 2 [⟨10⟩], .registry (.verifyProject sampleProjectId)⟩,
    ⟨.signedBy 3 [⟨12⟩], .market noOracle (.mintProjectCredits sampleProjectId 100)⟩]

end CarbonSystem
end Kraal
