import Kraal.CarbonRegistry.Contract

/-!
# The carbon_marketplace contract

The orchestrator of the carbon contracts: it keeps the listings and calls the
registry, the credit contract and the price oracle.  The called contracts are a
parameter, {lit}`Peers`, over any type of states they may have; a call that fails
there traps the caller, and a failing entry point rolls back the peers as well.

Main results:

- Theorems {lit}`createListing_eq_ok`, {lit}`purchaseListing_eq_ok`,
  {lit}`cancelListing_eq_ok` and {lit}`mintProjectCredits_eq_ok`: the entry points,
  from acceptance to effect.
- Theorem {lit}`exec_listings`: what an operation can do to the listings.
-/

namespace Kraal
namespace CarbonMarketplace

open Foundation
open CarbonRegistry (CarbonProject ProjectStatus)

/-! ## Data types -/

/-- Marketplace-level configuration, with the oracle feed checked before
price-dependent operations once one is configured. -/
structure MarketConfig where
  admin : Address
  registry : Address
  creditContract : Address
  feeBps : I128
  oracle : Option Address
  feedId : Option BytesN
  maxPriceAgeSeconds : I64

/-- The states of the circuit breaker. -/
inductive CircuitBreakerState where
  | active
  | tripped
  | adminPaused
deriving DecidableEq, Repr

/-- Status of a listing. -/
inductive ListingStatus where
  | active
  | sold
  | cancelled
deriving DecidableEq, Repr

/-- A posted offer to sell carbon credits. -/
structure Listing where
  seller : Address
  projectId : BytesN
  amount : I128
  pricePerCredit : I128
  status : ListingStatus
deriving DecidableEq

/-- The errors that the contract returns. -/
inductive MarketError where
  | alreadyInitialized
  | notInitialized
  | unauthorized
  | listingNotFound
  | listingNotActive
  | insufficientFunds
  | invalidAmount
  | projectNotVerified
  | registryError
  | creditError
  | transactionExpired
  | circuitBreakerOpen
  | stalePriceFeed
deriving DecidableEq, Repr

/-- The storage of the contract: the instance configuration and breaker, the
listing rows, and the instance rows that count the listings of each seller. -/
structure Store where
  config : Option MarketConfig
  circuit : Option CircuitBreakerState
  listings : Storage BytesN Listing
  nonces : Storage Address U64

/-- The storage of a freshly deployed contract. -/
def Store.empty : Store := ⟨none, none, Storage.empty, Storage.empty⟩

/-- The breaker state, active until one is stored. -/
def Store.circuitState (s : Store) : CircuitBreakerState := s.circuit.getD .active

/-- The number of listings a seller has created, zero until one is stored. -/
def Store.sellerNonce (s : Store) (seller : Address) : U64 := (s.nonces.get seller).getD 0

/-- Write one listing row. -/
def Store.withListing (s : Store) (id : BytesN) (listing : Listing) : Store :=
  { s with listings := s.listings.set id listing }

/-- Write the nonce of a seller. -/
def Store.withNonce (s : Store) (seller : Address) (nonce : U64) : Store :=
  { s with nonces := s.nonces.set seller nonce }

/-- Writing a listing leaves the configuration alone. -/
@[simp]
theorem Store.withListing_config (s : Store) (id : BytesN) (listing : Listing) :
    (s.withListing id listing).config = s.config :=
  rfl

/-- The listing that was written is in its place. -/
@[simp]
theorem Store.withListing_listings (s : Store) (id : BytesN) (listing : Listing) :
    (s.withListing id listing).listings = s.listings.set id listing :=
  rfl

/-- Writing a listing leaves the nonces alone. -/
@[simp]
theorem Store.withListing_nonces (s : Store) (id : BytesN) (listing : Listing) :
    (s.withListing id listing).nonces = s.nonces :=
  rfl

/-- Writing a nonce leaves the configuration alone. -/
@[simp]
theorem Store.withNonce_config (s : Store) (seller : Address) (nonce : U64) :
    (s.withNonce seller nonce).config = s.config :=
  rfl

/-- Writing a nonce leaves the listings alone. -/
@[simp]
theorem Store.withNonce_listings (s : Store) (seller : Address) (nonce : U64) :
    (s.withNonce seller nonce).listings = s.listings :=
  rfl

/-- Writing a listing leaves the nonce of every seller alone. -/
@[simp]
theorem Store.withListing_sellerNonce (s : Store) (id : BytesN) (listing : Listing)
    (seller : Address) : (s.withListing id listing).sellerNonce seller = s.sellerNonce seller :=
  rfl

/-- The nonce of a seller after a write. -/
theorem Store.withNonce_sellerNonce (s : Store) (seller seller' : Address) (nonce : U64) :
    (s.withNonce seller nonce).sellerNonce seller' =
      if seller' = seller then nonce else s.sellerNonce seller' := by
  rw [sellerNonce, withNonce, Storage.get_set]
  split <;> rfl

/-! ## Called contracts -/

/-- A call into another contract: its answer and the state it leaves the called
contracts in, or nothing if it fails there. -/
abbrev Peer (σ α : Type) : Type := Env → σ → Option (α × σ)

/-- The entry points of other contracts that the marketplace calls, each by the
address it is called at. -/
structure Peers (σ : Type) where
  getProject : Address → BytesN → Peer σ CarbonProject
  issueCredits : Address → BytesN → I128 → Peer σ Unit
  balanceOf : Address → Address → BytesN → Peer σ I128
  mint : Address → Address → BytesN → I128 → Peer σ Unit
  burn : Address → Address → BytesN → I128 → Peer σ Unit
  getCircuitBreakerState : Address → Peer σ CircuitBreakerState
  isPriceStale : Address → BytesN → I64 → Peer σ Bool

/-- The storage of the marketplace next to the state of the contracts it calls. -/
structure State (σ : Type) where
  market : Store
  peers : σ

variable {σ α : Type}

/-- Replace the storage of the marketplace. -/
def State.withMarket (s : State σ) (market : Store) : State σ := { s with market := market }

/-- Replace the state of the called contracts. -/
def State.withPeers (s : State σ) (peers : σ) : State σ := { s with peers := peers }

/-- The storage that was written is there. -/
@[simp]
theorem State.withMarket_market (s : State σ) (market : Store) :
    (s.withMarket market).market = market :=
  rfl

/-- Writing the storage leaves the other contracts alone. -/
@[simp]
theorem State.withMarket_peers (s : State σ) (market : Store) :
    (s.withMarket market).peers = s.peers :=
  rfl

/-- What the other contracts do leaves the storage alone. -/
@[simp]
theorem State.withPeers_market (s : State σ) (peers : σ) : (s.withPeers peers).market = s.market :=
  rfl

/-- The state of the other contracts that was written is there. -/
@[simp]
theorem State.withPeers_peers (s : State σ) (peers : σ) : (s.withPeers peers).peers = peers :=
  rfl

/-- Of two writes of the storage the last one counts. -/
@[simp]
theorem State.withMarket_withMarket (s : State σ) (market market' : Store) :
    (s.withMarket market).withMarket market' = s.withMarket market' :=
  rfl

/-- Of two states of the other contracts the last one counts. -/
@[simp]
theorem State.withPeers_withPeers (s : State σ) (peers peers' : σ) :
    (s.withPeers peers).withPeers peers' = s.withPeers peers' :=
  rfl

/-- The two components are independent; the storage of the marketplace is written first. -/
@[simp]
theorem State.withPeers_withMarket (s : State σ) (market : Store) (peers : σ) :
    (s.withPeers peers).withMarket market = (s.withMarket market).withPeers peers :=
  rfl

/-- A call of the contract, which may call the other contracts. -/
abbrev MarketCall (σ α : Type) : Type := Call Env (State σ) MarketError α

/-- Read the storage of the marketplace. -/
def getStore : MarketCall σ Store := do
  let s ← Call.get
  pure s.market

/-- Update the storage of the marketplace. -/
def modifyStore (f : Store → Store) : MarketCall σ Unit :=
  Call.modify fun s => s.withMarket (f s.market)

/-- Call another contract; a failure there traps. -/
def invokeContract (callee : Peer σ α) : MarketCall σ α := fun env s =>
  match callee env s.peers with
  | some (a, peers) => .ok (a, s.withPeers peers)
  | none => .error .trap

/-- The storage is read and nothing is written. -/
@[simp]
theorem getStore_eq_ok {env : Env} {s : State σ} {p : Store × State σ} :
    (getStore : MarketCall σ Store) env s = .ok p ↔ p = (s.market, s) := by
  simp [getStore]

/-- An update of the storage succeeds. -/
@[simp]
theorem modifyStore_eq_ok {f : Store → Store} {env : Env} {s : State σ} {p : Unit × State σ} :
    (modifyStore f : MarketCall σ Unit) env s = .ok p ↔ p = ((), s.withMarket (f s.market)) := by
  simp [modifyStore]

/-- Another contract is called with success, and only its side changes. -/
@[simp]
theorem invokeContract_eq_ok {callee : Peer σ α} {env : Env} {s : State σ} {p : α × State σ} :
    invokeContract callee env s = .ok p ↔
      ∃ peers, callee env s.peers = some (p.1, peers) ∧ p.2 = s.withPeers peers := by
  unfold invokeContract
  rcases p with ⟨a, s'⟩
  cases h : callee env s.peers with
  | none => simp
  | some q =>
      rcases q with ⟨a', peers⟩
      simp [eq_comm, and_assoc]

/-! ## Internal helpers -/

/-- The configuration, once the contract is initialised. -/
def loadConfig : MarketCall σ MarketConfig := do
  let s ← getStore
  Call.okOr s.config .notInitialized

/-- Refuse the call unless the breaker is closed. -/
def requireMarketActive : MarketCall σ Unit := do
  let s ← getStore
  Call.failIf (s.circuitState ≠ .active) .circuitBreakerOpen

/-- Ask the oracle, if both it and its feed are configured, for an active breaker
and a price that is not stale. -/
def requireFreshPrice (peers : Peers σ) (cfg : MarketConfig) : MarketCall σ Unit :=
  match cfg.oracle, cfg.feedId with
  | some oracle, some feedId => do
      let oracleState ← invokeContract (peers.getCircuitBreakerState oracle)
      Call.failIf (oracleState ≠ .active) .circuitBreakerOpen
      let stale ← invokeContract (peers.isPriceStale oracle feedId cfg.maxPriceAgeSeconds)
      Call.failIf (stale = true) .stalePriceFeed
  | _, _ => pure ()

/-- The configuration is read when there is one. -/
@[simp]
theorem loadConfig_eq_ok {env : Env} {s : State σ} {p : MarketConfig × State σ} :
    (loadConfig : MarketCall σ MarketConfig) env s = .ok p ↔
      s.market.config = some p.1 ∧ p.2 = s := by
  simp [loadConfig, and_comm]

/-- A call goes on when the breaker is closed. -/
@[simp]
theorem requireMarketActive_eq_ok {env : Env} {s : State σ} {p : Unit × State σ} :
    (requireMarketActive : MarketCall σ Unit) env s = .ok p ↔
      s.market.circuitState = .active ∧ p = ((), s) := by
  simp [requireMarketActive]

/-- The price check passes, and leaves the called contracts in the given state. -/
def FreshPrice (peers : Peers σ) (cfg : MarketConfig) (env : Env) (t t' : σ) : Prop :=
  match cfg.oracle, cfg.feedId with
  | some oracle, some feedId =>
      ∃ u, peers.getCircuitBreakerState oracle env t = some (.active, u) ∧
        peers.isPriceStale oracle feedId cfg.maxPriceAgeSeconds env u = some (false, t')
  | _, _ => t' = t

/-- A call goes on when the price of the feed is fresh. -/
@[simp]
theorem requireFreshPrice_eq_ok {peers : Peers σ} {cfg : MarketConfig} {env : Env} {s : State σ}
    {p : Unit × State σ} :
    requireFreshPrice peers cfg env s = .ok p ↔
      ∃ t, FreshPrice peers cfg env s.peers t ∧ p = ((), s.withPeers t) := by
  unfold requireFreshPrice FreshPrice
  rcases cfg.oracle with _ | oracle
  · simp [State.withPeers]
  · rcases cfg.feedId with _ | feedId
    · simp [State.withPeers]
    · simp
      constructor
      · intro h
        rcases h with ⟨u, hbreaker, t, hstale, rfl⟩
        exact ⟨t, ⟨u, hbreaker, hstale⟩, rfl⟩
      · intro h
        rcases h with ⟨t, ⟨u, hbreaker, hstale⟩, rfl⟩
        exact ⟨u, hbreaker, t, hstale, rfl⟩

/-! ## Configuration -/

/-- Store the configuration, once. -/
def initializeContract (admin registry creditContract : Address) (feeBps : I128) :
    MarketCall σ Unit := do
  let s ← getStore
  Call.failIf (s.config.isSome) .alreadyInitialized
  modifyStore fun s =>
    { s with
      config := some
        { admin, registry, creditContract, feeBps
          oracle := none, feedId := none, maxPriceAgeSeconds := 0 } }

/-- Load the configuration for a caller who has authorized the call and is the
stored administrator. -/
def loadConfigAs (admin : Address) : MarketCall σ MarketConfig := do
  let cfg ← loadConfig
  requireAuth admin
  Call.failIf (admin ≠ cfg.admin) .unauthorized
  pure cfg

/-- Configure oracle freshness checks for price-dependent operations. -/
def configureOracle (admin oracle : Address) (feedId : BytesN) (maxPriceAgeSeconds : I64) :
    MarketCall σ Unit := do
  let cfg ← loadConfigAs admin
  modifyStore fun s =>
    { s with config := some { cfg with oracle := oracle, feedId := feedId, maxPriceAgeSeconds } }

/-- The administrator opens or closes the breaker. -/
def setCircuitBreakerState (admin : Address) (state : CircuitBreakerState) :
    MarketCall σ Unit := do
  let _ ← loadConfigAs admin
  modifyStore fun s => { s with circuit := some state }

/-- Read the state of the breaker. -/
def getCircuitBreakerState : MarketCall σ CircuitBreakerState := do
  let _ ← loadConfig
  let s ← getStore
  pure s.circuitState

/-! ## Listings -/

/-- The bytes hashed for the seller.  An address is no byte object, so the conversion
fails and the fallback is the empty byte string. -/
def sellerBytes (seller : Address) : Bytes :=
  (Bytes.tryFromVal (.address seller)).getD []

/-- The byte buffer that a listing id is the hash of. -/
def listingPreimage (sha256 : Bytes → BytesN) (seller : Address) (projectId : BytesN)
    (amount pricePerCredit : I128) (sequence : U32) (sellerNonce : U64) : Bytes :=
  (sha256 (sellerBytes seller)).toArray ++ projectId.toArray ++ amount.toBeBytes ++
    pricePerCredit.toBeBytes ++ sequence.toBeBytes ++ sellerNonce.toBeBytes

/-- The id under which a new listing is stored. -/
def newListingId (sha256 : Bytes → BytesN) (seller : Address) (projectId : BytesN)
    (amount pricePerCredit : I128) (sequence : U32) (sellerNonce : U64) : BytesN :=
  sha256 (listingPreimage sha256 seller projectId amount pricePerCredit sequence sellerNonce)

/-- Post a new listing and return its id.  The nonce of the seller is read and
incremented before the listing is stored; the increment traps on overflow. -/
def createListing (sha256 : Bytes → BytesN) (peers : Peers σ) (seller : Address)
    (projectId : BytesN) (amount pricePerCredit : I128) : MarketCall σ BytesN := do
  requireAuth seller
  let cfg ← loadConfig
  requireMarketActive
  requireFreshPrice peers cfg
  Call.failIf (amount ≤ 0 ∨ pricePerCredit ≤ 0) .invalidAmount
  let project ← invokeContract (peers.getProject cfg.registry projectId)
  Call.failIf (project.status ≠ .verified) .projectNotVerified
  let sellerBalance ← invokeContract (peers.balanceOf cfg.creditContract seller projectId)
  Call.failIf (sellerBalance < amount) .insufficientFunds
  let s ← getStore
  let sellerNonce := s.sellerNonce seller
  let nextNonce ← Call.okOrTrap (sellerNonce.checkedAdd 1)
  modifyStore fun s => s.withNonce seller nextNonce
  let env ← Call.ask
  let listingId :=
    newListingId sha256 seller projectId amount pricePerCredit env.sequence sellerNonce
  let listing : Listing := { seller, projectId, amount, pricePerCredit, status := .active }
  modifyStore fun s => s.withListing listingId listing
  pure listingId

/-- Purchase a listing: the credits are burned at the seller and minted at the
buyer.  The listing is written as sold before the three calls that follow. -/
def purchaseListing (peers : Peers σ) (buyer : Address) (listingId : BytesN)
    (paymentAmount : I128) (maxLedger : U32) : MarketCall σ Unit := do
  requireAuth buyer
  let cfg ← loadConfig
  requireMarketActive
  requireFreshPrice peers cfg
  let env ← Call.ask
  Call.failIf (env.sequence > maxLedger) .transactionExpired
  let s ← getStore
  let listing ← Call.okOr (s.listings.get listingId) .listingNotFound
  Call.failIf (listing.status ≠ .active) .listingNotActive
  let totalPrice ← Call.okOr (listing.pricePerCredit.checkedMul listing.amount) .invalidAmount
  Call.failIf (paymentAmount < totalPrice) .insufficientFunds
  modifyStore fun s => s.withListing listingId { listing with status := .sold }
  let project ← invokeContract (peers.getProject cfg.registry listing.projectId)
  Call.failIf (project.status ≠ .verified) .projectNotVerified
  invokeContract (peers.burn cfg.creditContract listing.seller listing.projectId listing.amount)
  invokeContract (peers.mint cfg.creditContract buyer listing.projectId listing.amount)

/-- Cancel an active listing; only the original seller may cancel. -/
def cancelListing (seller : Address) (listingId : BytesN) : MarketCall σ Unit := do
  requireAuth seller
  let _ ← loadConfig
  requireMarketActive
  let s ← getStore
  let listing ← Call.okOr (s.listings.get listingId) .listingNotFound
  Call.failIf (listing.status ≠ .active) .listingNotActive
  Call.failIf (listing.seller ≠ seller) .unauthorized
  modifyStore fun s => s.withListing listingId { listing with status := .cancelled }

/-- Issue new credits for a project: recorded in the registry, then minted to the
owner of the project. -/
def mintProjectCredits (peers : Peers σ) (projectId : BytesN) (amount : I128) :
    MarketCall σ Unit := do
  let cfg ← loadConfig
  requireMarketActive
  Call.failIf (amount ≤ 0) .invalidAmount
  requireAuth cfg.admin
  invokeContract (peers.issueCredits cfg.registry projectId amount)
  let project ← invokeContract (peers.getProject cfg.registry projectId)
  invokeContract (peers.mint cfg.creditContract project.owner projectId amount)

/-! ## Read-only queries -/

/-- Read a listing. -/
def getListing (listingId : BytesN) : MarketCall σ Listing := do
  let s ← getStore
  Call.okOr (s.listings.get listingId) .listingNotFound

/-- Read the configuration. -/
def getConfig : MarketCall σ MarketConfig := loadConfig

/-! ## Acceptance and effect of the entry points -/

/-- When the contract is initialised, and what that writes. -/
theorem initializeContract_eq_ok {admin registry creditContract : Address} {feeBps : I128}
    {env : Env} {s s' : State σ} :
    initializeContract admin registry creditContract feeBps env s = .ok ((), s') ↔
      s.market.config = none ∧ s' = s.withMarket { s.market with
        config := some ⟨admin, registry, creditContract, feeBps, none, none, 0⟩ } := by
  simp [initializeContract]

/-- When the oracle is configured, and what that writes. -/
theorem configureOracle_eq_ok {admin oracle : Address} {feedId : BytesN}
    {maxPriceAgeSeconds : I64} {env : Env} {s s' : State σ} :
    configureOracle admin oracle feedId maxPriceAgeSeconds env s = .ok ((), s') ↔
      ∃ cfg, s.market.config = some cfg ∧ env.authorized admin = true ∧ admin = cfg.admin ∧
        s' = s.withMarket { s.market with
          config := some { cfg with oracle := oracle, feedId := feedId, maxPriceAgeSeconds } } := by
  simp [configureOracle, loadConfigAs, and_assoc]

/-- When the breaker is set, and what that writes. -/
theorem setCircuitBreakerState_eq_ok {admin : Address} {state : CircuitBreakerState} {env : Env}
    {s s' : State σ} :
    setCircuitBreakerState admin state env s = .ok ((), s') ↔
      ∃ cfg, s.market.config = some cfg ∧ env.authorized admin = true ∧ admin = cfg.admin ∧
        s' = s.withMarket { s.market with circuit := some state } := by
  simp [setCircuitBreakerState, loadConfigAs, and_assoc]

/-- The checks that a new listing has to pass, and the state in which the called
contracts are afterwards. -/
def ListingAccepted (peers : Peers σ) (seller : Address) (projectId : BytesN)
    (amount pricePerCredit : I128) (env : Env) (s : State σ) (t : σ) : Prop :=
  ∃ cfg t₁ project t₂ sellerBalance, env.authorized seller = true ∧
    s.market.config = some cfg ∧ s.market.circuitState = .active ∧
    FreshPrice peers cfg env s.peers t₁ ∧ 0 < amount.toInt ∧ 0 < pricePerCredit.toInt ∧
    peers.getProject cfg.registry projectId env t₁ = some (project, t₂) ∧
    project.status = .verified ∧
    peers.balanceOf cfg.creditContract seller projectId env t₂ = some (sellerBalance, t) ∧
    amount.toInt ≤ sellerBalance.toInt

/-- When a listing is created, its id, and the two writes. -/
theorem createListing_eq_ok {sha256 : Bytes → BytesN} {peers : Peers σ} {seller : Address}
    {projectId : BytesN} {amount pricePerCredit : I128} {env : Env} {s s' : State σ}
    {id : BytesN} :
    createListing sha256 peers seller projectId amount pricePerCredit env s = .ok (id, s') ↔
      ∃ t nextNonce, ListingAccepted peers seller projectId amount pricePerCredit env s t ∧
        nextNonce.toInt = (s.market.sellerNonce seller).toInt + 1 ∧
        id = newListingId sha256 seller projectId amount pricePerCredit env.sequence
          (s.market.sellerNonce seller) ∧
        s' = (s.withMarket ((s.market.withNonce seller nextNonce).withListing id
          ⟨seller, projectId, amount, pricePerCredit, .active⟩)).withPeers t := by
  have hone : (1 : U64).toInt = 1 := rfl
  simp only [createListing, ListingAccepted, ne_eq, Call.bind_eq_ok, requireAuth_eq_ok,
    loadConfig_eq_ok, requireMarketActive_eq_ok, requireFreshPrice_eq_ok, Call.failIf_eq_ok,
    invokeContract_eq_ok, getStore_eq_ok, Call.okOrTrap_eq_ok, modifyStore_eq_ok, Call.ask_eq_ok,
    Call.pure_eq_ok, MInt.checkedAdd_eq_some, hone, Prod.mk.injEq, MInt.le_def, MInt.lt_def,
    MInt.toInt_zero, not_or, not_le, not_lt, Decidable.not_not, State.withPeers_market,
    State.withPeers_peers, State.withMarket_market, State.withPeers_withPeers,
    State.withMarket_withMarket, State.withPeers_withMarket, true_and, and_true, ↓existsAndEq,
    exists_eq_left, exists_const, and_assoc]
  constructor
  · intro h
    rcases h with ⟨hauth, cfg, hcfg, hactive, t₁, hfresh, hamount, hprice, project, t₂, hproject,
      hverified, balance, t, hbalance, hcovered, nextNonce, hnonce, rfl, hs⟩
    exact ⟨t, nextNonce, ⟨cfg, t₁, project, t₂, balance, hauth, hcfg, hactive, hfresh, hamount,
      hprice, hproject, hverified, hbalance, hcovered⟩, hnonce, rfl, hs⟩
  · intro h
    rcases h with ⟨t, nextNonce, ⟨cfg, t₁, project, t₂, balance, hauth, hcfg, hactive, hfresh,
      hamount, hprice, hproject, hverified, hbalance, hcovered⟩, hnonce, rfl, hs⟩
    exact ⟨hauth, cfg, hcfg, hactive, t₁, hfresh, hamount, hprice, project, t₂, hproject,
      hverified, balance, t, hbalance, hcovered, nextNonce, hnonce, rfl, hs⟩

/-- The checks that a purchase passes before it changes anything, with the listing it
reads and the state in which the price check leaves the called contracts. -/
structure PurchaseChecked (peers : Peers σ) (buyer : Address) (listingId : BytesN)
    (paymentAmount : I128) (maxLedger : U32) (env : Env) (s : State σ) (cfg : MarketConfig)
    (listing : Listing) (t : σ) : Prop where
  auth : env.authorized buyer = true
  config : s.market.config = some cfg
  market_active : s.market.circuitState = .active
  fresh : FreshPrice peers cfg env s.peers t
  in_time : env.sequence.toInt ≤ maxLedger.toInt
  stored : s.market.listings.get listingId = some listing
  listing_active : listing.status = .active
  paid : ∃ totalPrice : I128,
    totalPrice.toInt = listing.pricePerCredit.toInt * listing.amount.toInt ∧
    totalPrice.toInt ≤ paymentAmount.toInt

/-- When a listing is bought, with the calls of the other contracts in their order, and the write.
-/
theorem purchaseListing_eq_ok {peers : Peers σ} {buyer : Address} {listingId : BytesN}
    {paymentAmount : I128} {maxLedger : U32} {env : Env} {s s' : State σ} :
    purchaseListing peers buyer listingId paymentAmount maxLedger env s = .ok ((), s') ↔
      ∃ cfg listing t t₁ project t₂ t₃,
        PurchaseChecked peers buyer listingId paymentAmount maxLedger env s cfg listing t ∧
        peers.getProject cfg.registry listing.projectId env t = some (project, t₁) ∧
        project.status = .verified ∧
        peers.burn cfg.creditContract listing.seller listing.projectId listing.amount env t₁ =
          some ((), t₂) ∧
        peers.mint cfg.creditContract buyer listing.projectId listing.amount env t₂ =
          some ((), t₃) ∧
        s' = (s.withMarket (s.market.withListing listingId
          { listing with status := .sold })).withPeers t₃ := by
  simp only [purchaseListing, ne_eq, Call.bind_eq_ok, requireAuth_eq_ok, loadConfig_eq_ok,
    requireMarketActive_eq_ok, requireFreshPrice_eq_ok, Call.ask_eq_ok, Call.failIf_eq_ok,
    getStore_eq_ok, Call.okOr_eq_ok, modifyStore_eq_ok, invokeContract_eq_ok,
    MInt.checkedMul_eq_some, Prod.mk.injEq, MInt.lt_def, gt_iff_lt, not_lt, Decidable.not_not,
    State.withPeers_market, State.withPeers_peers, State.withPeers_withPeers,
    State.withPeers_withMarket, true_and, and_true, ↓existsAndEq, exists_eq_left,
    Unique.exists_iff, PUnit.default_eq_unit]
  constructor
  · intro h
    rcases h with ⟨hauth, cfg, hcfg, hactive, t, hfresh, htime, listing, hstored, hlisting,
      totalPrice, htotal, hpaid, project, t₁, hproject, hverified, t₂, hburn, t₃, hmint, hs⟩
    exact ⟨cfg, listing, t, t₁, project, t₂, t₃, ⟨hauth, hcfg, hactive, hfresh, htime, hstored,
      hlisting, totalPrice, htotal, hpaid⟩, hproject, hverified, hburn, hmint, hs⟩
  · intro h
    rcases h with ⟨cfg, listing, t, t₁, project, t₂, t₃, ⟨hauth, hcfg, hactive, hfresh, htime,
      hstored, hlisting, totalPrice, htotal, hpaid⟩, hproject, hverified, hburn, hmint, hs⟩
    exact ⟨hauth, cfg, hcfg, hactive, t, hfresh, htime, listing, hstored, hlisting, totalPrice,
      htotal, hpaid, project, t₁, hproject, hverified, t₂, hburn, t₃, hmint, hs⟩

/-- When a listing is cancelled, and what that writes. -/
theorem cancelListing_eq_ok {seller : Address} {listingId : BytesN} {env : Env}
    {s s' : State σ} :
    cancelListing seller listingId env s = .ok ((), s') ↔
      env.authorized seller = true ∧ s.market.config.isSome = true ∧
      s.market.circuitState = .active ∧ ∃ listing,
        s.market.listings.get listingId = some listing ∧ listing.status = .active ∧
        listing.seller = seller ∧
        s' = s.withMarket (s.market.withListing listingId
          { listing with status := .cancelled }) := by
  simp [cancelListing, Option.isSome_iff_exists]

/-- When credits are issued and minted, with the calls of the other contracts in their order. -/
theorem mintProjectCredits_eq_ok {peers : Peers σ} {projectId : BytesN} {amount : I128}
    {env : Env} {s s' : State σ} :
    mintProjectCredits peers projectId amount env s = .ok ((), s') ↔
      ∃ cfg t₁ project t₂ t₃, s.market.config = some cfg ∧ s.market.circuitState = .active ∧
        0 < amount.toInt ∧ env.authorized cfg.admin = true ∧
        peers.issueCredits cfg.registry projectId amount env s.peers = some ((), t₁) ∧
        peers.getProject cfg.registry projectId env t₁ = some (project, t₂) ∧
        peers.mint cfg.creditContract project.owner projectId amount env t₂ = some ((), t₃) ∧
        s' = s.withPeers t₃ := by
  simp only [mintProjectCredits, Call.bind_eq_ok, loadConfig_eq_ok, requireMarketActive_eq_ok,
    Call.failIf_eq_ok, requireAuth_eq_ok, invokeContract_eq_ok, Prod.mk.injEq, MInt.le_def,
    MInt.toInt_zero, not_le, State.withPeers_peers, State.withPeers_withPeers, true_and,
    ↓existsAndEq, and_true, exists_and_left, Unique.exists_iff, PUnit.default_eq_unit]

/-! ## The contract as a machine -/

/-- The state-changing entry points with their arguments. -/
inductive Op where
  | initializeContract (admin registry creditContract : Address) (feeBps : I128)
  | configureOracle (admin oracle : Address) (feedId : BytesN) (maxPriceAgeSeconds : I64)
  | setCircuitBreakerState (admin : Address) (state : CircuitBreakerState)
  | createListing (seller : Address) (projectId : BytesN) (amount pricePerCredit : I128)
  | purchaseListing (buyer : Address) (listingId : BytesN) (paymentAmount : I128) (maxLedger : U32)
  | cancelListing (seller : Address) (listingId : BytesN)
  | mintProjectCredits (projectId : BytesN) (amount : I128)

/-- The entry point that a call names. -/
def exec (sha256 : Bytes → BytesN) (peers : Peers σ) : Op → MarketCall σ Unit
  | .initializeContract admin registry creditContract feeBps =>
      initializeContract admin registry creditContract feeBps
  | .configureOracle admin oracle feedId maxPriceAgeSeconds =>
      configureOracle admin oracle feedId maxPriceAgeSeconds
  | .setCircuitBreakerState admin state => setCircuitBreakerState admin state
  | .createListing seller projectId amount pricePerCredit => do
      let _ ← createListing sha256 peers seller projectId amount pricePerCredit
  | .purchaseListing buyer listingId paymentAmount maxLedger =>
      purchaseListing peers buyer listingId paymentAmount maxLedger
  | .cancelListing seller listingId => cancelListing seller listingId
  | .mintProjectCredits projectId amount => mintProjectCredits peers projectId amount

/-- The listing that an operation closes and the status it then has. -/
def Op.closes : Op → Option (ListingStatus × BytesN)
  | .purchaseListing _ listingId _ _ => some (.sold, listingId)
  | .cancelListing _ listingId => some (.cancelled, listingId)
  | _ => none

/-- An operation that returns creates a listing, or it leaves the nonces alone and
closes at most one listing, which was active. -/
theorem exec_listings {sha256 : Bytes → BytesN} {peers : Peers σ} {op : Op} {env : Env}
    {s s' : State σ} (h : exec sha256 peers op env s = .ok ((), s')) :
    (∃ seller projectId amount pricePerCredit id,
      op = .createListing seller projectId amount pricePerCredit ∧
      createListing sha256 peers seller projectId amount pricePerCredit env s = .ok (id, s')) ∨
    s'.market.nonces = s.market.nonces ∧
      (op.closes = none ∧ s'.market.listings = s.market.listings ∨
      ∃ status id listing, op.closes = some (status, id) ∧
        s.market.listings.get id = some listing ∧ listing.status = .active ∧
        s'.market.listings = s.market.listings.set id { listing with status := status }) := by
  cases op with
  | initializeContract admin registry creditContract feeBps =>
      rcases initializeContract_eq_ok.mp h with ⟨-, rfl⟩
      exact .inr ⟨rfl, .inl ⟨rfl, rfl⟩⟩
  | configureOracle admin oracle feedId maxPriceAgeSeconds =>
      rcases configureOracle_eq_ok.mp h with ⟨cfg, -, -, -, rfl⟩
      exact .inr ⟨rfl, .inl ⟨rfl, rfl⟩⟩
  | setCircuitBreakerState admin state =>
      rcases setCircuitBreakerState_eq_ok.mp h with ⟨cfg, -, -, -, rfl⟩
      exact .inr ⟨rfl, .inl ⟨rfl, rfl⟩⟩
  | createListing seller projectId amount pricePerCredit =>
      rcases Call.bind_eq_ok.mp h with ⟨id, t, hcall, hpure⟩
      cases hpure
      exact .inl ⟨seller, projectId, amount, pricePerCredit, id, rfl, hcall⟩
  | purchaseListing buyer listingId paymentAmount maxLedger =>
      rcases purchaseListing_eq_ok.mp h with
        ⟨cfg, listing, t, t₁, project, t₂, t₃, hchecked, -, -, -, -, rfl⟩
      exact .inr ⟨rfl, .inr ⟨.sold, listingId, listing, rfl, hchecked.stored,
        hchecked.listing_active, rfl⟩⟩
  | cancelListing seller listingId =>
      rcases cancelListing_eq_ok.mp h with ⟨-, -, -, listing, hstored, hactive, -, rfl⟩
      exact .inr ⟨rfl, .inr ⟨.cancelled, listingId, listing, rfl, hstored, hactive, rfl⟩⟩
  | mintProjectCredits projectId amount =>
      rcases mintProjectCredits_eq_ok.mp h with ⟨cfg, t₁, project, t₂, t₃, -, -, -, -, -, -, -, rfl⟩
      exact .inr ⟨rfl, .inl ⟨rfl, rfl⟩⟩

/-- A configured marketplace keeps its administrator and the contracts it calls. -/
theorem exec_config {sha256 : Bytes → BytesN} {peers : Peers σ} {op : Op} {env : Env}
    {s s' : State σ} {cfg : MarketConfig} (h : exec sha256 peers op env s = .ok ((), s'))
    (hcfg : s.market.config = some cfg) :
    ∃ cfg', s'.market.config = some cfg' ∧ cfg'.admin = cfg.admin ∧
      cfg'.registry = cfg.registry ∧ cfg'.creditContract = cfg.creditContract := by
  cases op with
  | initializeContract admin registry creditContract feeBps =>
      rcases initializeContract_eq_ok.mp h with ⟨hnone, -⟩
      rw [hcfg] at hnone
      cases hnone
  | configureOracle admin oracle feedId maxPriceAgeSeconds =>
      rcases configureOracle_eq_ok.mp h with ⟨cfg', hcfg', -, -, rfl⟩
      rw [hcfg, Option.some.injEq] at hcfg'
      subst hcfg'
      exact ⟨_, rfl, rfl, rfl, rfl⟩
  | setCircuitBreakerState admin state =>
      rcases setCircuitBreakerState_eq_ok.mp h with ⟨cfg', -, -, -, rfl⟩
      exact ⟨cfg, hcfg, rfl, rfl, rfl⟩
  | createListing seller projectId amount pricePerCredit =>
      rcases Call.bind_eq_ok.mp h with ⟨id, t, hcall, hpure⟩
      cases hpure
      rcases createListing_eq_ok.mp hcall with ⟨t, nextNonce, -, -, -, rfl⟩
      exact ⟨cfg, hcfg, rfl, rfl, rfl⟩
  | purchaseListing buyer listingId paymentAmount maxLedger =>
      rcases purchaseListing_eq_ok.mp h with
        ⟨cfg', listing, t, t₁, project, t₂, t₃, -, -, -, -, -, rfl⟩
      exact ⟨cfg, hcfg, rfl, rfl, rfl⟩
  | cancelListing seller listingId =>
      rcases cancelListing_eq_ok.mp h with ⟨-, -, -, listing, -, -, -, rfl⟩
      exact ⟨cfg, hcfg, rfl, rfl, rfl⟩
  | mintProjectCredits projectId amount =>
      rcases mintProjectCredits_eq_ok.mp h with ⟨cfg', t₁, project, t₂, t₃, -, -, -, -, -, -, -,
        rfl⟩
      exact ⟨cfg, hcfg, rfl, rfl, rfl⟩

end CarbonMarketplace
end Kraal
