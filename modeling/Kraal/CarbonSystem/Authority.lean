import Kraal.CarbonSystem.Settlement

/-!
# Who can take credits away

A balance falls in two ways only.  Its owner spends, and has authorized that call; or a
listing of the owner is bought, which the owner has authorized when it was created, on the
terms of that day.  The one way around is a call that speaks for the marketplace contract.

Main results:

- Theorem {lit}`spends_of_balance_lt`: a credit operation that lowers a balance.
- Theorem {lit}`active_since`: where an active listing comes from, after every run.
- Theorem {lit}`debits_authorized`: the authorization behind every debit of every run.
-/

namespace Kraal
namespace CarbonSystem

open Foundation
open CarbonMarketplace (Listing ListingStatus)

variable {sha256 : Bytes → BytesN} {d : Deployment}

/-! ## Debits of the credit contract -/

/-- The amounts of an accepted operation are positive. -/
theorem movements_pos {registry : CarbonCredit.ProjectQuery} {op : CarbonCredit.Op} {env : Env}
    {s s' : CarbonCredit.Store} (h : CarbonCredit.exec registry op env s = .ok ((), s')) :
    ∀ m ∈ op.movements, 0 < m.amount := by
  cases op with
  | initializeContract admin registry marketplace =>
      intro m hm
      cases hm
  | mint recipient projectId amount =>
      rcases CarbonCredit.mint_eq_ok.mp h with ⟨⟨cfg, project, -, -, hpos, -⟩, -⟩
      intro m hm
      rw [List.mem_singleton.mp hm]
      exact hpos
  | transfer sender recipient projectId amount =>
      rcases CarbonCredit.transfer_eq_ok.mp h with ⟨⟨-, -, hpos⟩, -⟩
      intro m hm
      rw [List.mem_singleton.mp hm]
      exact hpos
  | burn owner projectId amount =>
      rcases CarbonCredit.burn_eq_ok.mp h with ⟨-, hpos, -⟩
      intro m hm
      rw [List.mem_singleton.mp hm]
      exact hpos
  | retire owner projectId amount operationId =>
      rcases CarbonCredit.retire_eq_ok.mp h with ⟨⟨-, -, hpos⟩, -⟩
      intro m hm
      rw [List.mem_singleton.mp hm]
      exact hpos
  | batchTransfer sender transfers =>
      have hall := (CarbonCredit.batchTransfer_eq_ok.mp h).2
      clear h
      induction transfers generalizing s with
      | nil =>
          intro m hm
          cases hm
      | cons t transfers ih =>
          rcases Call.bind_eq_ok.mp hall with ⟨_, u, hfirst, hrest⟩
          rcases CarbonCredit.transfer_eq_ok.mp hfirst with ⟨⟨-, -, hpos⟩, -⟩
          intro m hm
          rcases List.mem_cons.mp hm with rfl | hm
          · exact hpos
          · exact ih hrest m hm

/-- An accepted operation debits nobody who has not authorized it, unless it burns. -/
theorem debtor_authorized {registry : CarbonCredit.ProjectQuery} {op : CarbonCredit.Op} {env : Env}
    {s s' : CarbonCredit.Store} (h : CarbonCredit.exec registry op env s = .ok ((), s'))
    {m : Ledger.Movement Address BytesN} (hm : m ∈ op.movements) {owner : Address}
    (hdebtor : m.debtor = some owner) :
    env.authorized owner = true ∨ ∃ projectId amount, op = .burn owner projectId amount := by
  cases op with
  | initializeContract admin registry marketplace => cases hm
  | mint recipient projectId amount =>
      rw [List.mem_singleton.mp hm] at hdebtor
      cases hdebtor
  | transfer sender recipient projectId amount =>
      rw [List.mem_singleton.mp hm] at hdebtor
      cases hdebtor
      exact .inl (CarbonCredit.transfer_eq_ok.mp h).1.1
  | burn owner' projectId amount =>
      rw [List.mem_singleton.mp hm] at hdebtor
      cases hdebtor
      exact .inr ⟨projectId, amount, rfl⟩
  | retire owner' projectId amount operationId =>
      rw [List.mem_singleton.mp hm] at hdebtor
      cases hdebtor
      exact .inl (CarbonCredit.retire_eq_ok.mp h).1.1
  | batchTransfer sender transfers =>
      rcases List.mem_map.mp hm with ⟨t, -, rfl⟩
      cases hdebtor
      exact .inl (CarbonCredit.batchTransfer_eq_ok.mp h).1

/-- An operation that lowers a balance has been authorized by its owner, or it burns. -/
theorem spends_of_balance_lt {registry : CarbonCredit.ProjectQuery} {op : CarbonCredit.Op}
    {env : Env} {s s' : CarbonCredit.Store} (hs : CarbonCredit.Conserved s)
    (h : CarbonCredit.exec registry op env s = .ok ((), s')) {owner : Address} {projectId : BytesN}
    (hlt : (s'.balanceOf owner projectId).toInt < (s.balanceOf owner projectId).toInt) :
    env.authorized owner = true ∧ (∃ m ∈ op.movements, m.debtor = some owner) ∨
      ∃ projectId' amount, op = .burn owner projectId' amount := by
  have hledger : (op.movements.foldl Ledger.apply s.ledger).balance owner projectId <
      s.ledger.balance owner projectId := by
    rw [← CarbonCredit.exec_refines hs h]
    exact hlt
  rcases Ledger.exists_debtor (fun m hm => (movements_pos h m hm).le) hledger with
    ⟨m, hm, hdebtor⟩
  rcases debtor_authorized h hm hdebtor with hauth | hburn
  · exact .inl ⟨hauth, m, hm, hdebtor⟩
  · exact .inr hburn

/-! ## Where listings come from -/

/-- A step creates a listing under an id, authorized by its seller and for a project that is
verified and an amount that the seller owns. -/
structure Creates (sha256 : Bytes → BytesN) (d : Deployment) (e : System × Invocation Op)
    (id : BytesN) (listing : Listing) : Prop where
  call : ∃ oracle s', e.2.call = .market oracle (.createListing listing.seller listing.projectId
      listing.amount listing.pricePerCredit) ∧
    CarbonMarketplace.createListing sha256 (wiredPeers d oracle) listing.seller listing.projectId
      listing.amount listing.pricePerCredit e.2.env e.1 = .ok (id, s')
  auth : e.2.env.authorized listing.seller = true
  covered : listing.amount.toInt ≤
    (e.1.peers.credit.balanceOf listing.seller listing.projectId).toInt
  amount_pos : 0 < listing.amount.toInt
  price_pos : 0 < listing.pricePerCredit.toInt

/-- A step that lists under an id creates the listing that is stored there afterwards. -/
theorem Lists.creates {e : System × Invocation Op} {id : BytesN} (h : Lists sha256 d e id) :
    ∃ listing, (step (exec sha256 d) e.1 e.2).market.listings.get id = some listing ∧
      Creates sha256 d e id listing := by
  rcases h with ⟨oracle, seller, projectId, amount, pricePerCredit, s', hcall, hcreate⟩
  rcases CarbonMarketplace.createListing_eq_ok.mp hcreate with
    ⟨t, nonce, haccepted, -, -, hs'⟩
  rcases haccepted with ⟨cfg, t₁, project, t₂, balance, hauth, -, -, hfresh, hamount, hprice,
    hproject, -, hbalance, hcovered⟩
  rcases wiredPeers_getProject.mp hproject with ⟨-, -, rfl⟩
  rcases wiredPeers_balanceOf.mp hbalance with ⟨-, rfl, -⟩
  rw [freshPrice_stores hfresh] at hcovered
  have hok : exec sha256 d e.2.call e.2.env e.1 = .ok ((), s') := by
    rw [hcall, exec_market]
    exact Call.bind_eq_ok.mpr ⟨id, s', hcreate, rfl⟩
  refine ⟨⟨seller, projectId, amount, pricePerCredit, .active⟩, ?_,
    ⟨⟨oracle, s', hcall, hcreate⟩, hauth, hcovered, hamount, hprice⟩⟩
  rw [step_of_ok hok, hs']
  exact Storage.get_set_self _ _ _

/-- An id without a listing stays so in a step that does not list there. -/
theorem step_absent {s : System} {i : Invocation Op} {id : BytesN}
    (habsent : s.market.listings.get id = none) (hnot : ¬ Lists sha256 d (s, i) id) :
    (step (exec sha256 d) s i).market.listings.get id = none := by
  apply step_induction (P := fun t : System => t.market.listings.get id = none) habsent
  intro s' hok
  cases hcall : i.call with
  | registry op =>
      rw [hcall] at hok
      rcases exec_registry.mp hok with ⟨registry, -, rfl⟩
      exact habsent
  | credit op =>
      rw [hcall] at hok
      rcases exec_credit.mp hok with ⟨credit, -, rfl⟩
      exact habsent
  | market oracle op =>
      rw [hcall] at hok
      rcases CarbonMarketplace.exec_listings (exec_market.mp hok) with
        ⟨seller, projectId, amount, pricePerCredit, id', rfl, hcreate⟩ |
        ⟨-, ⟨-, hsame⟩ | ⟨status, id', listing, -, hlisted, -, hlistings⟩⟩
      · have hother : id ≠ id' := by
          intro heq
          subst heq
          exact hnot ⟨oracle, seller, projectId, amount, pricePerCredit, s', hcall, hcreate⟩
        rcases CarbonMarketplace.createListing_eq_ok.mp hcreate with ⟨t, nonce, -, -, -, rfl⟩
        exact (Storage.get_set_of_ne _ _ hother).trans habsent
      · rw [hsame, habsent]
      · have hother : id ≠ id' := by
          intro heq
          subst heq
          rw [habsent] at hlisted
          cases hlisted
        rw [hlistings, Storage.get_set_of_ne _ _ hother, habsent]

/-- A step changes the listing under an id: it lists there, or closes the one that is there. -/
def Touches (sha256 : Bytes → BytesN) (d : Deployment) (id : BytesN)
    (e : System × Invocation Op) : Prop :=
  Lists sha256 d e id ∨ ∃ status, Closes sha256 d e status id

/-- An active listing was created by a step that nothing about it has followed. -/
theorem active_since (sha256 : Bytes → BytesN) (d : Deployment) (run : List (Invocation Op))
    {id : BytesN} {listing : Listing}
    (hstored : (Run.final (step (exec sha256 d)) (genesis d) run).market.listings.get id =
      some listing)
    (hactive : listing.status = .active) :
    Run.Since (fun e => Creates sha256 d e id listing) (Touches sha256 d id)
      (Run.trace (step (exec sha256 d)) (genesis d) run) := by
  revert listing
  refine Run.history_invariant (s := genesis d)
    (P := fun past t => ∀ {listing}, t.market.listings.get id = some listing →
      listing.status = .active →
        Run.Since (fun e => Creates sha256 d e id listing) (Touches sha256 d id) past) ?_ ?_ run
  · intro listing hstored
    cases hstored
  · intro past t i ih listing hstored hactive
    rw [Run.since_append_singleton]
    by_cases hlists : Lists sha256 d (t, i) id
    · rcases hlists.creates with ⟨listing', hstored', hcreates⟩
      have hsame : listing' = listing := Option.some.inj (hstored'.symm.trans hstored)
      rw [← hsame]
      exact .inl hcreates
    · right
      cases hbefore : t.market.listings.get id with
      | none =>
          -- a step that does not list there leaves an absent row absent
          rw [step_absent hbefore hlists] at hstored
          cases hstored
      | some old =>
          rcases listing_step hbefore hlists with ⟨hkept, hopen⟩ | ⟨-, status, hcloses, hclosed⟩
          · have hsame : old = listing := Option.some.inj (hkept.symm.trans hstored)
            subst hsame
            refine ⟨ih hbefore hactive, ?_⟩
            intro htouches
            rcases htouches with hlisted | ⟨status, hcloses⟩
            · exact hlists hlisted
            · exact hopen status hcloses
          · rcases hcloses with ⟨oracle, op, -, hop, -⟩
            have hsame := Option.some.inj (hclosed.symm.trans hstored)
            rw [← hsame] at hactive
            exact absurd hactive (closes_ne_active hop)

/-! ## The authorization behind a debit -/

/-- The balance of an owner in the credit contract. -/
def balance (s : System) (owner : Address) (projectId : BytesN) : Int :=
  (s.peers.credit.balanceOf owner projectId).toInt

/-- A step is a credit operation of an owner, who has authorized it and whom it debits. -/
def Spends (e : System × Invocation Op) (owner : Address) : Prop :=
  ∃ op, e.2.call = .credit op ∧ e.2.env.authorized owner = true ∧
    ∃ m ∈ op.movements, m.debtor = some owner

/-- A step burns the credits of an owner in the name of the marketplace contract. -/
def BurnsAsMarket (d : Deployment) (e : System × Invocation Op) (owner : Address) : Prop :=
  ∃ projectId amount, e.2.call = .credit (.burn owner projectId amount) ∧
    e.2.env.authorized d.market = true

/-- A step sells a listing of an owner, which the owner has created in the past and which
nothing has changed since. -/
def SellsListing (sha256 : Bytes → BytesN) (d : Deployment) (past : List (System × Invocation Op))
    (e : System × Invocation Op) (owner : Address) (projectId : BytesN) : Prop :=
  ∃ oracle buyer id paymentAmount maxLedger, ∃ listing : Listing,
    e.2.call = .market oracle (.purchaseListing buyer id paymentAmount maxLedger) ∧
    listing.seller = owner ∧ listing.projectId = projectId ∧
    balance (step (exec sha256 d) e.1 e.2) owner projectId =
      balance e.1 owner projectId - listing.amount.toInt ∧
    listing.pricePerCredit.toInt * listing.amount.toInt ≤ paymentAmount.toInt ∧
    Run.Since (fun x => Creates sha256 d x id listing) (Touches sha256 d id) past

/-- A purchase lowers the balance of the seller of its listing only, and by its amount. -/
theorem seller_of_balance_lt {L : Ledger Address BytesN} {seller buyer owner : Address}
    {projectId projectId' : BytesN} {n : Int} (hn : 0 ≤ n)
    (hlt : (L.transfer seller buyer projectId n).balance owner projectId' <
      L.balance owner projectId') :
    seller = owner ∧ projectId = projectId' ∧
      (L.transfer seller buyer projectId n).balance owner projectId' =
        L.balance owner projectId' - n := by
  simp only [Ledger.transfer, Ledger.amountFor] at hlt ⊢
  by_cases hseller : owner = seller ∧ projectId' = projectId
  · rw [if_pos hseller] at hlt ⊢
    by_cases hbuyer : owner = buyer ∧ projectId' = projectId
    · rw [if_pos hbuyer] at hlt
      omega
    · rw [if_neg hbuyer]
      exact ⟨hseller.1.symm, hseller.2.symm, by omega⟩
  · rw [if_neg hseller] at hlt
    split at hlt <;> omega

/-- Behind every step of every run that lowers a balance stands an authorization of its
owner: of the step itself, or of the listing that the step sells.  Otherwise the step burns
credits in the name of the marketplace contract. -/
theorem debits_authorized (sha256 : Bytes → BytesN) (d : Deployment) (run : List (Invocation Op))
    (before rest : List (System × Invocation Op)) (e : System × Invocation Op)
    (hsplit : Run.trace (step (exec sha256 d)) (genesis d) run = before ++ e :: rest)
    (owner : Address) (projectId : BytesN)
    (hdebit : balance (step (exec sha256 d) e.1 e.2) owner projectId <
      balance e.1 owner projectId) :
    Spends e owner ∨ BurnsAsMarket d e owner ∨
      SellsListing sha256 d before e owner projectId := by
  rcases Run.trace_split hsplit with ⟨pre, post, -, rfl, hstate⟩
  have hsound : Sound d e.1 := by
    rw [hstate]
    exact reachable_sound ⟨pre, rfl⟩
  by_cases hsucceeds : (exec sha256 d e.2.call).Succeeds e.2.env e.1
  · rcases hsucceeds with ⟨⟨⟨⟩, s'⟩, hok⟩
    have hstep : step (exec sha256 d) e.1 e.2 = s' := step_of_ok hok
    rw [hstep] at hdebit
    cases hcall : e.2.call with
    | registry op =>
        rw [hcall] at hok
        rcases exec_registry.mp hok with ⟨registry, -, rfl⟩
        exact absurd hdebit (lt_irrefl _)
    | credit op =>
        rw [hcall] at hok
        rcases exec_credit.mp hok with ⟨credit, hexec, rfl⟩
        rcases spends_of_balance_lt hsound.conserved hexec hdebit with ⟨hauth, hmoves⟩ |
          ⟨projectId', amount, rfl⟩
        · exact .inl ⟨op, hcall, hauth, hmoves⟩
        · rcases CarbonCredit.burn_eq_ok.mp hexec with ⟨⟨cfg, hcfg, hauth⟩, -⟩
          rw [hsound.wired.credit_config, Option.some.injEq] at hcfg
          subst hcfg
          exact .inr (.inl ⟨projectId', amount, hcall, hauth⟩)
    | market oracle op =>
        rw [hcall] at hok
        rcases market_peers (exec_market.mp hok) with ⟨hpeers, -⟩ |
          ⟨buyer, id, paymentAmount, maxLedger, listing, rfl, hlisted, hsettles⟩ |
          ⟨projectId', amount, -, registry, project, credit, -, -, hmint, hpeers⟩
        · unfold balance at hdebit
          rw [hpeers] at hdebit
          exact absurd hdebit (lt_irrefl _)
        · have heffect := purchase_effect hsound hlisted (exec_market.mp hok)
          have hsince := active_since sha256 d pre (hstate ▸ hlisted) heffect.was_active
          have hledger : (e.1.peers.credit.ledger.transfer listing.seller buyer listing.projectId
              listing.amount.toInt).balance owner projectId <
                e.1.peers.credit.ledger.balance owner projectId := by
            rw [← heffect.ledger_eq]
            exact hdebit
          have hpos : 0 ≤ listing.amount.toInt := by
            rcases hsince with ⟨first, x, between, -, hcreates, -⟩
            exact hcreates.amount_pos.le
          rcases seller_of_balance_lt hpos hledger with ⟨hseller, hproject, hafter⟩
          rw [← heffect.ledger_eq] at hafter
          refine .inr (.inr ⟨oracle, buyer, id, paymentAmount, maxLedger, listing, hcall, hseller,
            hproject, ?_, heffect.paid, hsince⟩)
          rw [hstep]
          exact hafter
        · -- issuing credits only raises balances
          have hledger := CarbonCredit.mint_refines hmint
          rcases CarbonCredit.mint_eq_ok.mp hmint with ⟨⟨cfg, project', -, -, hpos, -⟩, -⟩
          have hraised : (s'.peers.credit.ledger).balance owner projectId =
              e.1.peers.credit.ledger.balance owner projectId +
                Ledger.amountFor project.owner projectId' amount.toInt owner projectId := by
            rw [hpeers, CarbonStores.withCredit_credit, hledger]
            rfl
          have hnonneg := Ledger.amountFor_nonneg (h := project.owner) (a := projectId') hpos.le
            owner projectId
          have hlt : (s'.peers.credit.ledger).balance owner projectId <
              e.1.peers.credit.ledger.balance owner projectId := hdebit
          omega
  · rw [step_of_not_succeeds hsucceeds] at hdebit
    exact absurd hdebit (lt_irrefl _)

/-! ## The seller of a bought listing -/

/-- The sample listing is bought. -/
def samplePurchase : Invocation Op :=
  ⟨.signedBy 5 [⟨2⟩], .market noOracle (.purchaseListing ⟨2⟩ sampleListingId 120 9)⟩

theorem samplePurchase_authorized :
    let past := Run.trace (step (exec BytesN.mk sampleDeployment)) (genesis sampleDeployment)
      listedRun
    let e : System × Invocation Op :=
      (Run.final (step (exec BytesN.mk sampleDeployment)) (genesis sampleDeployment) listedRun,
        samplePurchase)
    Spends e ⟨1⟩ ∨ BurnsAsMarket sampleDeployment e ⟨1⟩ ∨
      SellsListing BytesN.mk sampleDeployment past e ⟨1⟩ sampleProjectId := by
  intro past e
  refine debits_authorized BytesN.mk sampleDeployment (listedRun ++ [samplePurchase]) past [] e ?_
    ⟨1⟩ sampleProjectId ?_
  · exact Run.trace_append _ listedRun [samplePurchase]
  · decide +kernel

end CarbonSystem
end Kraal
