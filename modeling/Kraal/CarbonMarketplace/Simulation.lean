import Kraal.CarbonMarketplace.Contract
import Kraal.Foundation.Simulation

/-!
# What the marketplace sees of its peers

The marketplace knows the contracts it calls by their answers only.  Peers over a large
state that answer as peers over a small state do, through an embedding of the small state,
make every entry point do the same, errors and traps included.

Main results:

- Definition {lit}`PeersEmbed`: peers that answer through an embedding of their states.
- Theorem {lit}`exec_embeds`: every operation with such peers is a simulation.
-/

namespace Kraal
namespace CarbonMarketplace

open Foundation

variable {σ τ α : Type}

/-- The marketplace next to the small state, seen next to the large one. -/
def State.embed (embed : τ → σ) (s : State τ) : State σ := ⟨s.market, embed s.peers⟩

/-- A call into another contract answers through an embedding as another one does. -/
def PeerEmbeds (embed : τ → σ) (env : Env) (callee : Peer σ α) (callee' : Peer τ α) : Prop :=
  ∀ t, callee env (embed t) = (callee' env t).map fun p => (p.1, embed p.2)

/-- Peers that answer through an embedding of their states as other peers do. -/
structure PeersEmbed (embed : τ → σ) (env : Env) (peers : Peers σ) (peers' : Peers τ) : Prop where
  getProject : ∀ callee projectId,
    PeerEmbeds embed env (peers.getProject callee projectId) (peers'.getProject callee projectId)
  issueCredits : ∀ callee projectId amount,
    PeerEmbeds embed env (peers.issueCredits callee projectId amount)
      (peers'.issueCredits callee projectId amount)
  balanceOf : ∀ callee owner projectId,
    PeerEmbeds embed env (peers.balanceOf callee owner projectId)
      (peers'.balanceOf callee owner projectId)
  mint : ∀ callee recipient projectId amount,
    PeerEmbeds embed env (peers.mint callee recipient projectId amount)
      (peers'.mint callee recipient projectId amount)
  burn : ∀ callee owner projectId amount,
    PeerEmbeds embed env (peers.burn callee owner projectId amount)
      (peers'.burn callee owner projectId amount)
  getCircuitBreakerState : ∀ callee,
    PeerEmbeds embed env (peers.getCircuitBreakerState callee)
      (peers'.getCircuitBreakerState callee)
  isPriceStale : ∀ callee feedId maxAge,
    PeerEmbeds embed env (peers.isPriceStale callee feedId maxAge)
      (peers'.isPriceStale callee feedId maxAge)

/-! ## The primitive calls -/

/-- A marketplace call next to the large state simulates one next to the small state. -/
abbrev MarketEmbeds (embed : τ → σ) (env : Env) (c : MarketCall σ α) (c' : MarketCall τ α) : Prop :=
  Call.Embeds (State.embed embed) env c c'

variable {embed : τ → σ} {env : Env}

/-- Reading the storage is simulated. -/
theorem getStore_embeds : MarketEmbeds embed env getStore getStore :=
  fun _ => rfl

/-- An update of the storage is simulated. -/
theorem modifyStore_embeds (f : Store → Store) :
    MarketEmbeds embed env (modifyStore f) (modifyStore f) :=
  fun _ => rfl

/-- The check of an authorisation is simulated. -/
theorem requireAuth_embeds (a : Address) : MarketEmbeds embed env (requireAuth a) (requireAuth a) :=
  .bind .ask fun _ => .assert _

/-- A call of another contract is simulated if that contract is. -/
theorem invokeContract_embeds {callee : Peer σ α} {callee' : Peer τ α}
    (h : PeerEmbeds embed env callee callee') :
    MarketEmbeds embed env (invokeContract callee) (invokeContract callee') := by
  intro s
  have hanswer : callee env (State.embed embed s).peers =
      (callee' env s.peers).map fun p => (p.1, embed p.2) := h s.peers
  unfold invokeContract
  rw [hanswer]
  cases callee' env s.peers <;> rfl

/-- Reading the configuration is simulated. -/
theorem loadConfig_embeds : MarketEmbeds embed env loadConfig loadConfig :=
  .bind getStore_embeds fun _ => .okOr _ _

/-- The check of the administrator is simulated. -/
theorem loadConfigAs_embeds (admin : Address) :
    MarketEmbeds embed env (loadConfigAs admin) (loadConfigAs admin) := by
  refine .bind loadConfig_embeds fun _ => ?_
  refine .bind (requireAuth_embeds admin) fun _ => ?_
  exact .bind (.failIf _ _) fun _ => .pure _

/-- The check of the breaker is simulated. -/
theorem requireMarketActive_embeds :
    MarketEmbeds embed env requireMarketActive requireMarketActive :=
  .bind getStore_embeds fun _ => .failIf _ _

/-! ## The entry points -/

section EntryPoints

variable {peers : Peers σ} {peers' : Peers τ} (h : PeersEmbed embed env peers peers')

include h

/-- The check of the price is simulated. -/
theorem requireFreshPrice_embeds (cfg : MarketConfig) :
    MarketEmbeds embed env (requireFreshPrice peers cfg) (requireFreshPrice peers' cfg) := by
  unfold requireFreshPrice
  cases cfg.oracle with
  | none => exact .pure _
  | some oracle =>
      cases cfg.feedId with
      | none => exact .pure _
      | some feedId =>
          refine .bind (invokeContract_embeds (h.getCircuitBreakerState oracle)) fun _ => ?_
          refine .bind (.failIf _ _) fun _ => ?_
          refine .bind (invokeContract_embeds (h.isPriceStale oracle feedId _)) fun _ => ?_
          exact .failIf _ _

/-- Listing credits is simulated. -/
theorem createListing_embeds (sha256 : Bytes → BytesN) (seller : Address) (projectId : BytesN)
    (amount pricePerCredit : I128) :
    MarketEmbeds embed env (createListing sha256 peers seller projectId amount pricePerCredit)
      (createListing sha256 peers' seller projectId amount pricePerCredit) := by
  refine .bind (requireAuth_embeds seller) fun _ => ?_
  refine .bind loadConfig_embeds fun cfg => ?_
  refine .bind requireMarketActive_embeds fun _ => ?_
  refine .bind (requireFreshPrice_embeds h cfg) fun _ => ?_
  refine .bind (.failIf _ _) fun _ => ?_
  refine .bind (invokeContract_embeds (h.getProject _ projectId)) fun _ => ?_
  refine .bind (.failIf _ _) fun _ => ?_
  refine .bind (invokeContract_embeds (h.balanceOf _ seller projectId)) fun _ => ?_
  refine .bind (.failIf _ _) fun _ => ?_
  refine .bind getStore_embeds fun _ => ?_
  refine .bind (.okOrTrap _) fun _ => ?_
  refine .bind (modifyStore_embeds _) fun _ => ?_
  refine .bind .ask fun _ => ?_
  exact .bind (modifyStore_embeds _) fun _ => .pure _

/-- Buying a listing is simulated. -/
theorem purchaseListing_embeds (buyer : Address) (listingId : BytesN) (paymentAmount : I128)
    (maxLedger : U32) :
    MarketEmbeds embed env (purchaseListing peers buyer listingId paymentAmount maxLedger)
      (purchaseListing peers' buyer listingId paymentAmount maxLedger) := by
  refine .bind (requireAuth_embeds buyer) fun _ => ?_
  refine .bind loadConfig_embeds fun cfg => ?_
  refine .bind requireMarketActive_embeds fun _ => ?_
  refine .bind (requireFreshPrice_embeds h cfg) fun _ => ?_
  refine .bind .ask fun _ => ?_
  refine .bind (.failIf _ _) fun _ => ?_
  refine .bind getStore_embeds fun _ => ?_
  refine .bind (.okOr _ _) fun listing => ?_
  refine .bind (.failIf _ _) fun _ => ?_
  refine .bind (.okOr _ _) fun _ => ?_
  refine .bind (.failIf _ _) fun _ => ?_
  refine .bind (modifyStore_embeds _) fun _ => ?_
  refine .bind (invokeContract_embeds (h.getProject _ _)) fun _ => ?_
  refine .bind (.failIf _ _) fun _ => ?_
  refine .bind (invokeContract_embeds (h.burn _ _ _ _)) fun _ => ?_
  exact invokeContract_embeds (h.mint _ _ _ _)

/-- Minting credits is simulated. -/
theorem mintProjectCredits_embeds (projectId : BytesN) (amount : I128) :
    MarketEmbeds embed env (mintProjectCredits peers projectId amount)
      (mintProjectCredits peers' projectId amount) := by
  refine .bind loadConfig_embeds fun _ => ?_
  refine .bind requireMarketActive_embeds fun _ => ?_
  refine .bind (.failIf _ _) fun _ => ?_
  refine .bind (requireAuth_embeds _) fun _ => ?_
  refine .bind (invokeContract_embeds (h.issueCredits _ projectId amount)) fun _ => ?_
  refine .bind (invokeContract_embeds (h.getProject _ projectId)) fun _ => ?_
  exact invokeContract_embeds (h.mint _ _ _ _)

end EntryPoints

/-- Cancelling a listing is simulated. -/
theorem cancelListing_embeds (seller : Address) (listingId : BytesN) :
    MarketEmbeds embed env (cancelListing seller listingId) (cancelListing seller listingId) := by
  refine .bind (requireAuth_embeds seller) fun _ => ?_
  refine .bind loadConfig_embeds fun _ => ?_
  refine .bind requireMarketActive_embeds fun _ => ?_
  refine .bind getStore_embeds fun _ => ?_
  refine .bind (.okOr _ _) fun _ => ?_
  refine .bind (.failIf _ _) fun _ => ?_
  exact .bind (.failIf _ _) fun _ => modifyStore_embeds _

/-- Every operation does next to the large state what it does next to the small one. -/
theorem exec_embeds {peers : Peers σ} {peers' : Peers τ} (h : PeersEmbed embed env peers peers')
    (sha256 : Bytes → BytesN) (op : Op) :
    MarketEmbeds embed env (exec sha256 peers op) (exec sha256 peers' op) := by
  cases op with
  | initializeContract admin registry creditContract feeBps =>
      refine .bind getStore_embeds fun _ => ?_
      exact .bind (.failIf _ _) fun _ => modifyStore_embeds _
  | configureOracle admin oracle feedId maxPriceAgeSeconds =>
      exact .bind (loadConfigAs_embeds admin) fun _ => modifyStore_embeds _
  | setCircuitBreakerState admin state =>
      exact .bind (loadConfigAs_embeds admin) fun _ => modifyStore_embeds _
  | createListing seller projectId amount pricePerCredit =>
      exact .bind (createListing_embeds h sha256 seller projectId amount pricePerCredit) fun _ =>
        .pure _
  | purchaseListing buyer listingId paymentAmount maxLedger =>
      exact purchaseListing_embeds h buyer listingId paymentAmount maxLedger
  | cancelListing seller listingId => exact cancelListing_embeds seller listingId
  | mintProjectCredits projectId amount => exact mintProjectCredits_embeds h projectId amount

end CarbonMarketplace
end Kraal
