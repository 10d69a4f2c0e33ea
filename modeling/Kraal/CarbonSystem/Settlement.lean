import Kraal.CarbonSystem.Wiring

/-!
# Settlement of listings

A listing is settled at most once, whatever the other parties do in between, and a
settlement moves exactly its amount from the seller to the buyer.  The status is
written before the calls that move the credits; that none of them can fail with the
listing left sold is the rollback of the whole call.

Main results:

- Theorems {lit}`market_listing` and {lit}`listing_step`: a marketplace operation, and
  with it every step, keeps a stored listing or closes it while it is active.
- Theorem {lit}`purchase_effect`: what a successful purchase has checked and done.
- Theorem {lit}`settled_once`: the terms, the status and the purchases of a listing
  along any run that does not list under its id again.
-/

namespace Kraal
namespace CarbonSystem

open Foundation
open CarbonMarketplace (Listing ListingStatus)

variable {sha256 : Bytes → BytesN} {d : Deployment}

/-! ## Steps seen from one listing -/

/-- A step closes a listing: it is a successful purchase or cancellation of it. -/
def Closes (sha256 : Bytes → BytesN) (d : Deployment) (e : System × Invocation Op)
    (status : ListingStatus) (id : BytesN) : Prop :=
  ∃ oracle op, e.2.call = .market oracle op ∧ op.closes = some (status, id) ∧
    (exec sha256 d e.2.call).Succeeds e.2.env e.1

/-- A step lists under an id: it is a successful listing that returns it. -/
def Lists (sha256 : Bytes → BytesN) (d : Deployment) (e : System × Invocation Op) (id : BytesN) :
    Prop :=
  ∃ oracle seller projectId amount pricePerCredit s',
    e.2.call = .market oracle (.createListing seller projectId amount pricePerCredit) ∧
    CarbonMarketplace.createListing sha256 (wiredPeers d oracle) seller projectId amount
      pricePerCredit e.2.env e.1 = .ok (id, s')

/-- A closing status is not the active one. -/
theorem closes_ne_active {op : CarbonMarketplace.Op} {status : ListingStatus} {id : BytesN}
    (h : op.closes = some (status, id)) : status ≠ .active := by
  cases op with
  | purchaseListing buyer listingId paymentAmount maxLedger =>
      cases h
      decide
  | cancelListing seller listingId =>
      cases h
      decide
  | _ => cases h

/-- The operation of a closing step names the listing that it closes. -/
theorem Closes.op_closes {e : System × Invocation Op} {status : ListingStatus} {id : BytesN}
    (h : Closes sha256 d e status id) {oracle : Oracle} {op : CarbonMarketplace.Op}
    (hcall : e.2.call = .market oracle op) : op.closes = some (status, id) := by
  rcases h with ⟨oracle', op', hmarket, hclosed, -⟩
  cases hcall.symm.trans hmarket
  exact hclosed

/-- A marketplace operation that does not list under an id keeps the listing stored
there, or closes it while it is active. -/
theorem market_listing {s s' : System} {env : Env} {oracle : Oracle} {op : CarbonMarketplace.Op}
    {id : BytesN} {listing : Listing} (hstored : s.market.listings.get id = some listing)
    (hnot : ∀ seller projectId amount pricePerCredit,
      op = .createListing seller projectId amount pricePerCredit →
      CarbonMarketplace.createListing sha256 (wiredPeers d oracle) seller projectId amount
        pricePerCredit env s ≠ .ok (id, s'))
    (h : CarbonMarketplace.exec sha256 (wiredPeers d oracle) op env s = .ok ((), s')) :
    s'.market.listings.get id = some listing ∧ (∀ status, op.closes ≠ some (status, id)) ∨
    listing.status = .active ∧ ∃ status, op.closes = some (status, id) ∧
      s'.market.listings.get id = some { listing with status := status } := by
  rcases CarbonMarketplace.exec_listings h with
    ⟨seller, projectId, amount, pricePerCredit, id', rfl, hcreate⟩ |
    ⟨-, ⟨hnone, hlistings⟩ | ⟨status, id', listing', hsome, hlisted, hactive, hlistings⟩⟩
  · -- another listing is created
    have hother : id ≠ id' := by
      intro heq
      subst heq
      exact hnot seller projectId amount pricePerCredit rfl hcreate
    rcases CarbonMarketplace.createListing_eq_ok.mp hcreate with ⟨t, nonce, -, -, -, rfl⟩
    refine .inl ⟨?_, ?_⟩
    · rw [CarbonMarketplace.State.withPeers_market, CarbonMarketplace.State.withMarket_market,
        CarbonMarketplace.Store.withListing_listings, CarbonMarketplace.Store.withNonce_listings,
        Storage.get_set_of_ne _ _ hother, hstored]
    · intro status hcloses
      cases hcloses
  · refine .inl ⟨?_, ?_⟩
    · rw [hlistings, hstored]
    · intro status hcloses
      rw [hcloses] at hnone
      cases hnone
  · by_cases hsame : id = id'
    · subst hsame
      rw [hstored, Option.some.injEq] at hlisted
      subst hlisted
      refine .inr ⟨hactive, status, hsome, ?_⟩
      rw [hlistings, Storage.get_set_self]
    · refine .inl ⟨?_, ?_⟩
      · rw [hlistings, Storage.get_set_of_ne _ _ hsame, hstored]
      · intro status' hcloses
        rw [hcloses, Option.some.injEq, Prod.mk.injEq] at hsome
        exact hsame hsome.2

/-- A step that does not list under an id keeps the listing stored there, or closes it
while it is active. -/
theorem listing_step {s : System} {i : Invocation Op} {id : BytesN} {listing : Listing}
    (hstored : s.market.listings.get id = some listing) (hnot : ¬ Lists sha256 d (s, i) id) :
    (step (exec sha256 d) s i).market.listings.get id = some listing ∧
      (∀ status, ¬ Closes sha256 d (s, i) status id) ∨
    listing.status = .active ∧ ∃ status, Closes sha256 d (s, i) status id ∧
      (step (exec sha256 d) s i).market.listings.get id =
        some { listing with status := status } := by
  by_cases hsucceeds : (exec sha256 d i.call).Succeeds i.env s
  · rcases hsucceeds with ⟨⟨_, s'⟩, hok⟩
    have hdone : (exec sha256 d i.call).Succeeds i.env s := ⟨_, hok⟩
    rw [step_of_ok hok]
    cases hcall : i.call with
    | registry op =>
        rw [hcall] at hok
        rcases exec_registry.mp hok with ⟨registry, -, rfl⟩
        refine .inl ⟨hstored, ?_⟩
        intro status h
        rcases h with ⟨oracle, op', hmarket, -⟩
        cases hcall.symm.trans hmarket
    | credit op =>
        rw [hcall] at hok
        rcases exec_credit.mp hok with ⟨credit, -, rfl⟩
        refine .inl ⟨hstored, ?_⟩
        intro status h
        rcases h with ⟨oracle, op', hmarket, -⟩
        cases hcall.symm.trans hmarket
    | market oracle op =>
        rw [hcall] at hok
        have hother : ∀ seller projectId amount pricePerCredit,
            op = .createListing seller projectId amount pricePerCredit →
            CarbonMarketplace.createListing sha256 (wiredPeers d oracle) seller projectId amount
              pricePerCredit i.env s ≠ .ok (id, s') := by
          intro seller projectId amount pricePerCredit hop hcreate
          subst hop
          exact hnot ⟨oracle, seller, projectId, amount, pricePerCredit, s', hcall, hcreate⟩
        rcases market_listing hstored hother (exec_market.mp hok) with ⟨hkept, hnone⟩ |
          ⟨hactive, status, hcloses, hclosed⟩
        · exact .inl ⟨hkept, fun status h => hnone status (h.op_closes hcall)⟩
        · exact .inr ⟨hactive, status, ⟨oracle, op, hcall, hcloses, hdone⟩, hclosed⟩
  · rw [step_of_not_succeeds hsucceeds]
    refine .inl ⟨hstored, ?_⟩
    intro status h
    rcases h with ⟨oracle, op, -, -, hdone⟩
    exact hsucceeds hdone

/-- A closed listing is kept by every step that does not list under its id. -/
theorem listing_step_of_closed {s : System} {i : Invocation Op} {id : BytesN} {listing : Listing}
    (hstored : s.market.listings.get id = some listing) (hclosed : listing.status ≠ .active)
    (hnot : ¬ Lists sha256 d (s, i) id) :
    (step (exec sha256 d) s i).market.listings.get id = some listing := by
  rcases listing_step hstored hnot with ⟨hkept, -⟩ | ⟨hactive, -⟩
  · exact hkept
  · exact absurd hactive hclosed

/-! ## Purchases -/

/-- What a successful purchase of a listing has checked in the state before it, and how
the state after it differs. -/
structure PurchaseEffect (id : BytesN) (listing : Listing) (buyer : Address)
    (paymentAmount : I128) (maxLedger : U32) (env : Env) (s s' : System) : Prop where
  in_time : env.sequence.toInt ≤ maxLedger.toInt
  paid : listing.pricePerCredit.toInt * listing.amount.toInt ≤ paymentAmount.toInt
  project_verified : ∃ project, s.peers.registry.projects.get listing.projectId = some project ∧
    project.status = .verified
  market_active : s.market.circuitState = .active
  was_active : listing.status = .active
  now_sold : s'.market.listings.get id = some { listing with status := .sold }
  ledger_eq : s'.peers.credit.ledger = s.peers.credit.ledger.transfer listing.seller buyer
    listing.projectId listing.amount.toInt
  registry_eq : s'.peers.registry = s.peers.registry

theorem purchase_effect {s s' : System} (hs : Sound d s) {oracle : Oracle} {buyer : Address}
    {id : BytesN} {paymentAmount : I128} {maxLedger : U32} {env : Env} {listing : Listing}
    (hstored : s.market.listings.get id = some listing)
    (h : CarbonMarketplace.purchaseListing (wiredPeers d oracle) buyer id paymentAmount maxLedger
      env s = .ok ((), s')) :
    PurchaseEffect id listing buyer paymentAmount maxLedger env s s' := by
  rcases CarbonMarketplace.purchaseListing_eq_ok.mp h with
    ⟨cfg, listing', t, t₁, project, t₂, t₃, hchecked, hproject, hverified, hburn, hmint, rfl⟩
  have hlisting : listing' = listing := by
    have hboth := hchecked.stored
    rw [hstored, Option.some.injEq] at hboth
    exact hboth.symm
  subst hlisting
  have hfresh := freshPrice_stores hchecked.fresh
  subst hfresh
  rcases wiredPeers_getProject.mp hproject with ⟨-, hregistered, rfl⟩
  rcases wiredPeers_burn.mp hburn with ⟨-, burned, hburned, rfl⟩
  rcases wiredPeers_mint.mp hmint with ⟨-, credit, hminted, rfl⟩
  have hsettles : Settles d env listing'.seller buyer listing'.projectId listing'.amount s.peers
      (s.peers.withCredit credit) := ⟨burned, credit, hburned, hminted, rfl⟩
  rcases hchecked.paid with ⟨totalPrice, htotal, hpaid⟩
  exact
    { in_time := hchecked.in_time
      paid := htotal ▸ hpaid
      project_verified := ⟨project, hregistered, hverified⟩
      market_active := hchecked.market_active
      was_active := hchecked.listing_active
      now_sold := Storage.get_set_self _ _ _
      ledger_eq := (hsettles.ledger hs.conserved).2.2
      registry_eq := rfl }

/-! ## Runs after a listing was created -/

/-- No step of a run lists under the given id. -/
def NotRelisted (sha256 : Bytes → BytesN) (d : Deployment) (s : System)
    (run : List (Invocation Op)) (id : BytesN) : Prop :=
  ∀ e ∈ Run.trace (step (exec sha256 d)) s run, ¬ Lists sha256 d e id

/-- A listing is stored with the given terms, in whatever status. -/
def HasTerms (id : BytesN) (listing : Listing) (s : System) : Prop :=
  ∃ status, s.market.listings.get id = some { listing with status := status }

theorem HasTerms.step {s : System} {i : Invocation Op} {id : BytesN} {listing : Listing}
    (hs : HasTerms id listing s) (hnot : ¬ Lists sha256 d (s, i) id) :
    HasTerms id listing (Kraal.step (exec sha256 d) s i) := by
  rcases hs with ⟨status, hstatus⟩
  rcases listing_step hstatus hnot with ⟨hkept, -⟩ | ⟨-, status', -, hclosed⟩
  · exact ⟨status, hkept⟩
  · exact ⟨status', hclosed⟩

/-- The listing keeps its terms along a run: only its status can differ. -/
theorem NotRelisted.terms {s : System} {run : List (Invocation Op)} {id : BytesN}
    {listing : Listing} (hrun : NotRelisted sha256 d s run id)
    (hstored : s.market.listings.get id = some listing) :
    HasTerms id listing (Run.final (step (exec sha256 d)) s run) ∧
    ∀ e ∈ Run.trace (step (exec sha256 d)) s run, HasTerms id listing e.1 := by
  have hinit : HasTerms id listing s := ⟨listing.status, hstored⟩
  exact ⟨Run.final_invariant hinit fun e he hs => hs.step (hrun e he),
    Run.trace_invariant hinit fun e he hs => hs.step (hrun e he)⟩

/-- A listing that is sold or cancelled stays exactly as it is. -/
theorem NotRelisted.terminal {s : System} {run : List (Invocation Op)} {id : BytesN}
    {listing : Listing} (hrun : NotRelisted sha256 d s run id)
    (hstored : s.market.listings.get id = some listing) (hclosed : listing.status ≠ .active) :
    (Run.final (step (exec sha256 d)) s run).market.listings.get id = some listing := by
  apply Run.final_invariant (I := fun t : System => t.market.listings.get id = some listing)
    hstored
  intro e he hkept
  exact listing_step_of_closed hkept hclosed (hrun e he)

/-- Of all purchases and cancellations of a listing in a run, at most one succeeds. -/
theorem NotRelisted.closed_once {s : System} {run : List (Invocation Op)} {id : BytesN}
    {listing : Listing} (hrun : NotRelisted sha256 d s run id)
    (hstored : s.market.listings.get id = some listing) :
    (Run.trace (step (exec sha256 d)) s run).Pairwise fun e e' => ∀ status status',
      Closes sha256 d e status id → ¬ Closes sha256 d e' status' id := by
  have hterms := (hrun.terms hstored).2
  -- once closed, the stored listing is no longer active, and only an active one is closed
  apply Run.pairwise_trace (P := fun e t => ∀ status, Closes sha256 d e status id →
    ∃ closed, t.market.listings.get id = some closed ∧ closed.status ≠ .active)
  · intro e he status hcloses
    rcases hterms e he with ⟨status', hstatus'⟩
    rcases listing_step hstatus' (hrun e he) with ⟨-, hnone⟩ |
      ⟨-, status'', ⟨oracle, op, -, hop, -⟩, hclosed⟩
    · exact absurd hcloses (hnone status)
    · exact ⟨_, hclosed, closes_ne_active hop⟩
  · intro e e' he' hpast status hcloses
    rcases hpast status hcloses with ⟨closed, hkept, hstatus⟩
    exact ⟨closed, listing_step_of_closed hkept hstatus (hrun e' he'), hstatus⟩
  · intro e e' he' hpast status status' hcloses hcloses'
    rcases hpast status hcloses with ⟨closed, hkept, hstatus⟩
    rcases listing_step hkept (hrun e' he') with ⟨-, hnone⟩ | ⟨hactive, -⟩
    · exact hnone status' hcloses'
    · exact hstatus hactive

/-- What settlement promises of a listing along a run that starts in a state where it
is stored. -/
structure SettledOnce (sha256 : Bytes → BytesN) (d : Deployment) (s : System)
    (run : List (Invocation Op)) (id : BytesN) (listing : Listing) : Prop where
  terms_fixed : HasTerms id listing (Run.final (step (exec sha256 d)) s run)
  terminal : listing.status ≠ .active →
    (Run.final (step (exec sha256 d)) s run).market.listings.get id = some listing
  closed_once : (Run.trace (step (exec sha256 d)) s run).Pairwise fun e e' => ∀ status status',
    Closes sha256 d e status id → ¬ Closes sha256 d e' status' id
  purchase_effect : ∀ e ∈ Run.trace (step (exec sha256 d)) s run,
    ∀ oracle buyer paymentAmount maxLedger,
      e.2.call = .market oracle (.purchaseListing buyer id paymentAmount maxLedger) →
      (exec sha256 d e.2.call).Succeeds e.2.env e.1 →
      PurchaseEffect id { listing with status := .active } buyer paymentAmount maxLedger e.2.env
        e.1 (step (exec sha256 d) e.1 e.2)
  purchase_atomic : ∀ e ∈ Run.trace (step (exec sha256 d)) s run,
    ∀ oracle buyer paymentAmount maxLedger,
      e.2.call = .market oracle (.purchaseListing buyer id paymentAmount maxLedger) →
      ¬ (exec sha256 d e.2.call).Succeeds e.2.env e.1 → step (exec sha256 d) e.1 e.2 = e.1

/-- A listing is settled at most once, on its own terms and for exactly its amount, along
every run from a reachable state that holds it. -/
theorem settled_once (sha256 : Bytes → BytesN) (d : Deployment) (before run : List (Invocation Op))
    (id : BytesN) (listing : Listing)
    (hstored : (Run.final (step (exec sha256 d)) (genesis d) before).market.listings.get id =
      some listing)
    (hrun : NotRelisted sha256 d (Run.final (step (exec sha256 d)) (genesis d) before) run id) :
    SettledOnce sha256 d (Run.final (step (exec sha256 d)) (genesis d) before) run id listing := by
  have hsound : ∀ e ∈ Run.trace (step (exec sha256 d))
      (Run.final (step (exec sha256 d)) (genesis d) before) run, Sound d e.1 :=
    Run.trace_invariant (reachable_sound ⟨before, rfl⟩) fun e _ hs => hs.step e.2
  refine ⟨(hrun.terms hstored).1, hrun.terminal hstored, hrun.closed_once hstored, ?_, ?_⟩
  · intro e he oracle buyer paymentAmount maxLedger hcall hsucceeds
    rcases (hrun.terms hstored).2 e he with ⟨status, hstatus⟩
    rcases hsucceeds with ⟨⟨_, s'⟩, hok⟩
    rw [step_of_ok hok]
    rw [hcall] at hok
    have heffect := purchase_effect (hsound e he) hstatus (exec_market.mp hok)
    have hactive : status = .active := heffect.was_active
    subst hactive
    exact heffect
  · intro e _ oracle buyer paymentAmount maxLedger _ hfails
    exact step_of_not_succeeds hfails

/-! ## A purchase, a cancellation and a second purchase -/

/-- The owner of the issued credits lists forty of them. -/
def listedRun : List (Invocation Op) :=
  issuedRun ++ [⟨.signedBy 4 [⟨1⟩], .market noOracle (.createListing ⟨1⟩ sampleProjectId 40 3)⟩]

/-- The id of the listing under the identity hash. -/
def sampleListingId : BytesN :=
  CarbonMarketplace.newListingId BytesN.mk ⟨1⟩ sampleProjectId 40 3 4 0

/-- The listing is bought; its seller and a second buyer come too late. -/
def settlingRun : List (Invocation Op) :=
  [⟨.signedBy 5 [⟨2⟩], .market noOracle (.purchaseListing ⟨2⟩ sampleListingId 120 9)⟩,
    ⟨.signedBy 5 [⟨1⟩], .market noOracle (.cancelListing ⟨1⟩ sampleListingId)⟩,
    ⟨.signedBy 6 [⟨3⟩], .market noOracle (.purchaseListing ⟨3⟩ sampleListingId 120 9)⟩]

theorem settlingRun_settled :
    SettledOnce BytesN.mk sampleDeployment
      (Run.final (step (exec BytesN.mk sampleDeployment)) (genesis sampleDeployment) listedRun)
      settlingRun sampleListingId ⟨⟨1⟩, sampleProjectId, 40, 3, .active⟩ := by
  apply settled_once BytesN.mk sampleDeployment listedRun settlingRun
  · rfl
  · intro e he
    simp only [settlingRun, Run.trace_cons, Run.trace_nil, List.mem_cons, List.not_mem_nil,
      or_false] at he
    rcases he with rfl | rfl | rfl
    all_goals
      intro h
      rcases h with ⟨oracle, seller, projectId, amount, pricePerCredit, s', hcall, -⟩
      cases hcall

end CarbonSystem
end Kraal
