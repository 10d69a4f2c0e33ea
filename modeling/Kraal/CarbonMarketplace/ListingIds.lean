import Kraal.CarbonMarketplace.Contract

/-!
# Listing ids of the carbon marketplace

A listing id is the hash of six fields, one of them the hash of the seller.  The
conversion of the seller to bytes always takes its fallback, so this field is the
same for all sellers, and what is left to tell two sellers apart is the nonce that
each of them counts from zero.  Runs are over an environment that may answer every
call of the marketplace in any way.

Main results:

- Theorem {lit}`newListingId_injective`: what an id determines of the listing.
- Theorem {lit}`reachable_recorded`: the stored ids are the ids that the run created,
  and every creation has advanced the nonce of its seller.
- Theorem {lit}`listingIdsUnique_iff`: ids stay unique exactly when no two sellers
  list on the same terms, in the same ledger and at the same nonce.
- Theorem {lit}`listings_collide`: two sellers who do so share one listing.
-/

namespace Kraal
namespace CarbonMarketplace

open Foundation

variable {σ : Type} {sha256 : Bytes → BytesN}

/-- A call with the answers that it gets from the other contracts. -/
abbrev Answered (σ : Type) : Type := Peers σ × Op

/-- A call with the answers of the other contracts to it. -/
def execAnswered (sha256 : Bytes → BytesN) (c : Answered σ) : MarketCall σ Unit :=
  exec sha256 c.1 c.2

/-- A run of the marketplace from its deployment, as the list of its steps. -/
abbrev history (sha256 : Bytes → BytesN) (t : σ) (run : List (Invocation (Answered σ))) :
    List (State σ × Invocation (Answered σ)) :=
  Run.trace (step (execAnswered sha256)) ⟨Store.empty, t⟩ run

/-! ## What an id determines -/

/-- The seller leaves no mark in the preimage. -/
theorem sellerBytes_eq (seller : Address) : sellerBytes seller = [] :=
  rfl

/-- An id determines the terms of the listing, its ledger and the nonce, but not the
seller. -/
theorem newListingId_injective (hinj : Function.Injective sha256) {seller seller' : Address}
    {projectId projectId' : BytesN} {amount amount' pricePerCredit pricePerCredit' : I128}
    {sequence sequence' : U32} {sellerNonce sellerNonce' : U64}
    (h : newListingId sha256 seller projectId amount pricePerCredit sequence sellerNonce =
      newListingId sha256 seller' projectId' amount' pricePerCredit' sequence' sellerNonce') :
    projectId = projectId' ∧ amount = amount' ∧ pricePerCredit = pricePerCredit' ∧
      sequence = sequence' ∧ sellerNonce = sellerNonce' := by
  have hpreimage := hinj h
  -- the fixed-width fields are cut off from the right; what remains starts alike
  simp only [listingPreimage, sellerBytes_eq] at hpreimage
  rcases List.append_inj' hpreimage (by simp) with ⟨hpreimage, hnonce⟩
  rcases List.append_inj' hpreimage (by simp) with ⟨hpreimage, hsequence⟩
  rcases List.append_inj' hpreimage (by simp) with ⟨hpreimage, hprice⟩
  rcases List.append_inj' hpreimage (by simp) with ⟨hpreimage, hamount⟩
  have hproject := List.append_cancel_left hpreimage
  refine ⟨?_, MInt.toBeBytes_injective hamount, MInt.toBeBytes_injective hprice,
    MInt.toBeBytes_injective hsequence, MInt.toBeBytes_injective hnonce⟩
  rcases projectId with ⟨bytes⟩
  rcases projectId' with ⟨bytes'⟩
  rw [BytesN.mk.injEq]
  exact hproject

/-! ## Steps that create a listing -/

/-- A step is a successful listing of the given terms, which returns the given id. -/
def Creates (sha256 : Bytes → BytesN) (e : State σ × Invocation (Answered σ)) (seller : Address)
    (projectId : BytesN) (amount pricePerCredit : I128) (id : BytesN) : Prop :=
  e.2.call.2 = .createListing seller projectId amount pricePerCredit ∧
    ∃ s', createListing sha256 e.2.call.1 seller projectId amount pricePerCredit e.2.env e.1 =
      .ok (id, s')

section Creates

variable {e : State σ × Invocation (Answered σ)} {seller : Address} {projectId : BytesN}
  {amount pricePerCredit : I128} {id : BytesN}

theorem Creates.id_eq (h : Creates sha256 e seller projectId amount pricePerCredit id) :
    id = newListingId sha256 seller projectId amount pricePerCredit e.2.env.sequence
      (e.1.market.sellerNonce seller) := by
  rcases h with ⟨-, s', hok⟩
  rcases createListing_eq_ok.mp hok with ⟨t, nextNonce, -, -, hid, -⟩
  exact hid

/-- The state that a creation leaves. -/
theorem Creates.step_eq (h : Creates sha256 e seller projectId amount pricePerCredit id) :
    ∃ t nextNonce, nextNonce.toInt = (e.1.market.sellerNonce seller).toInt + 1 ∧
      step (execAnswered sha256) e.1 e.2 =
        (e.1.withMarket ((e.1.market.withNonce seller nextNonce).withListing id
          ⟨seller, projectId, amount, pricePerCredit, .active⟩)).withPeers t := by
  rcases h with ⟨hcall, s', hok⟩
  rcases createListing_eq_ok.mp hok with ⟨t, nextNonce, -, hnonce, -, hs⟩
  refine ⟨t, nextNonce, hnonce, ?_⟩
  rw [← hs]
  apply Call.commit_of_ok (a := ())
  rw [execAnswered, hcall, exec, Call.bind_eq_ok]
  exact ⟨id, s', hok, rfl⟩

end Creates

/-- A step creates a listing, or it keeps every nonce and the set of stored ids. -/
theorem step_cases (sha256 : Bytes → BytesN) (s : State σ) (i : Invocation (Answered σ)) :
    (∃ seller projectId amount pricePerCredit id,
      Creates sha256 (s, i) seller projectId amount pricePerCredit id) ∨
    (step (execAnswered sha256) s i).market.nonces = s.market.nonces ∧
      ∀ id, ((step (execAnswered sha256) s i).market.listings.get id).isSome =
        (s.market.listings.get id).isSome := by
  cases hok : execAnswered sha256 i.call i.env s with
  | error f =>
      right
      rw [step, Call.commit_of_error hok]
      exact ⟨rfl, fun _ => rfl⟩
  | ok p =>
      rcases p with ⟨_, s'⟩
      rw [step, Call.commit_of_ok hok]
      rcases exec_listings hok with ⟨seller, projectId, amount, pricePerCredit, id, hcall, hcreate⟩
        | ⟨hnonces, ⟨-, hlistings⟩ | ⟨status, id, listing, -, hstored, -, hlistings⟩⟩
      · exact .inl ⟨seller, projectId, amount, pricePerCredit, id, hcall, s', hcreate⟩
      · exact .inr ⟨hnonces, fun id => by rw [hlistings]⟩
      · refine .inr ⟨hnonces, fun id' => ?_⟩
        rw [hlistings, Storage.isSome_get_set hstored]

/-! ## Nonces and stored ids along a run -/

/-- What the past steps of a run say about its present state. -/
structure Recorded (sha256 : Bytes → BytesN) (past : List (State σ × Invocation (Answered σ)))
    (s : State σ) : Prop where
  created_of_stored : ∀ id, (s.market.listings.get id).isSome = true → ∃ e ∈ past,
    ∃ seller projectId amount pricePerCredit,
      Creates sha256 e seller projectId amount pricePerCredit id
  stored_of_created : ∀ e ∈ past, ∀ seller projectId amount pricePerCredit id,
    Creates sha256 e seller projectId amount pricePerCredit id →
      (s.market.listings.get id).isSome = true
  nonce_passed : ∀ e ∈ past, ∀ seller projectId amount pricePerCredit id,
    Creates sha256 e seller projectId amount pricePerCredit id →
      (e.1.market.sellerNonce seller).toInt < (s.market.sellerNonce seller).toInt

/-- No step takes a nonce back or removes a listing. -/
theorem step_monotone (sha256 : Bytes → BytesN) (s : State σ) (i : Invocation (Answered σ)) :
    (∀ seller, (s.market.sellerNonce seller).toInt ≤
      ((step (execAnswered sha256) s i).market.sellerNonce seller).toInt) ∧
    ∀ id, (s.market.listings.get id).isSome = true →
      ((step (execAnswered sha256) s i).market.listings.get id).isSome = true := by
  rcases step_cases sha256 s i with
    ⟨seller, projectId, amount, pricePerCredit, id, hcreates⟩ | ⟨hnonces, hstored⟩
  · rcases hcreates.step_eq with ⟨t, nextNonce, hnonce, heq⟩
    rw [heq]
    constructor
    · intro seller'
      simp only [State.withPeers_market, State.withMarket_market, Store.withListing_sellerNonce,
        Store.withNonce_sellerNonce]
      by_cases hseller : seller' = seller
      · rw [if_pos hseller, hseller, hnonce]
        exact Int.le_add_one le_rfl
      · rw [if_neg hseller]
    · intro id' hid'
      simp only [State.withPeers_market, State.withMarket_market, Store.withListing_listings,
        Store.withNonce_listings, Storage.get_set]
      split
      · rfl
      · exact hid'
  · constructor
    · intro seller
      rw [Store.sellerNonce, Store.sellerNonce, hnonces]
    · intro id hid
      rw [hstored, hid]

/-- One more step extends the history, whether it creates a listing or not. -/
theorem Recorded.step {past : List (State σ × Invocation (Answered σ))} {s : State σ}
    (hs : Recorded sha256 past s) (i : Invocation (Answered σ)) :
    Recorded sha256 (past ++ [(s, i)]) (Kraal.step (execAnswered sha256) s i) := by
  have hmono := step_monotone sha256 s i
  refine ⟨?_, ?_, ?_⟩
  · intro id hid
    rcases step_cases sha256 s i with
      ⟨seller, projectId, amount, pricePerCredit, newId, hcreates⟩ | ⟨-, hstored⟩
    · by_cases hnew : id = newId
      · subst hnew
        exact ⟨(s, i), List.mem_append_right _ List.mem_cons_self, seller, projectId, amount,
          pricePerCredit, hcreates⟩
      · rcases hcreates.step_eq with ⟨t, nextNonce, -, heq⟩
        rw [heq] at hid
        simp only [State.withPeers_market, State.withMarket_market, Store.withListing_listings,
          Store.withNonce_listings, Storage.get_set, if_neg hnew] at hid
        rcases hs.created_of_stored id hid with ⟨e, he, hcreated⟩
        exact ⟨e, List.mem_append_left _ he, hcreated⟩
    · rw [hstored] at hid
      rcases hs.created_of_stored id hid with ⟨e, he, hcreated⟩
      exact ⟨e, List.mem_append_left _ he, hcreated⟩
  · intro e he seller projectId amount pricePerCredit id hcreates
    rcases List.mem_append.mp he with he | he
    · exact hmono.2 id (hs.stored_of_created e he _ _ _ _ id hcreates)
    · rw [List.mem_singleton.mp he] at hcreates
      rcases hcreates.step_eq with ⟨t, nextNonce, -, heq⟩
      rw [heq]
      simp
  · intro e he seller projectId amount pricePerCredit id hcreates
    rcases List.mem_append.mp he with he | he
    · exact (hs.nonce_passed e he _ _ _ _ id hcreates).trans_le (hmono.1 seller)
    · have hlast := List.mem_singleton.mp he
      subst hlast
      rcases hcreates.step_eq with ⟨t, nextNonce, hnonce, heq⟩
      rw [heq]
      simp only [State.withPeers_market, State.withMarket_market, Store.withListing_sellerNonce,
        Store.withNonce_sellerNonce, if_true, hnonce]
      exact Int.lt_add_one_of_le le_rfl

/-- The stored ids and the nonces record all creations of a run. -/
theorem reachable_recorded (sha256 : Bytes → BytesN) (t : σ)
    (run : List (Invocation (Answered σ))) :
    Recorded sha256 (history sha256 t run)
      (Run.final (step (execAnswered sha256)) ⟨Store.empty, t⟩ run) := by
  apply Run.history_invariant (P := Recorded sha256)
  · refine ⟨?_, ?_, ?_⟩
    · intro id hid
      simp [Store.empty] at hid
    · intro e he
      cases he
    · intro e he
      cases he
  · intro past s i hs
    exact hs.step i

/-! ## Uniqueness -/

/-- No successful listing of a run returns an id that is stored already. -/
def ListingIdsUnique (sha256 : Bytes → BytesN) (t : σ) (run : List (Invocation (Answered σ))) :
    Prop :=
  ∀ e ∈ history sha256 t run, ∀ seller projectId amount pricePerCredit id,
    Creates sha256 e seller projectId amount pricePerCredit id →
      e.1.market.listings.get id = none

/-- No two sellers of a run list the same amount of the same project for the same
price in the same ledger and at the same nonce. -/
def NoSharedTerms (sha256 : Bytes → BytesN) (t : σ) (run : List (Invocation (Answered σ))) :
    Prop :=
  (history sha256 t run).Pairwise fun e e' =>
    ∀ seller seller' projectId amount pricePerCredit id id',
      Creates sha256 e seller projectId amount pricePerCredit id →
      Creates sha256 e' seller' projectId amount pricePerCredit id' →
      seller ≠ seller' → e.2.env.sequence = e'.2.env.sequence →
      e.1.market.sellerNonce seller ≠ e'.1.market.sellerNonce seller'

theorem ListingIdsUnique.noSharedTerms {t : σ} {run : List (Invocation (Answered σ))}
    (hrun : ListingIdsUnique sha256 t run) : NoSharedTerms sha256 t run := by
  -- the id that the earlier call created is still stored when the later call creates it
  apply Run.pairwise_trace (P := fun e s => ∀ seller projectId amount pricePerCredit id,
    Creates sha256 e seller projectId amount pricePerCredit id →
      (s.market.listings.get id).isSome = true)
  · intro e _ seller projectId amount pricePerCredit id hcreates
    rcases hcreates.step_eq with ⟨t', nextNonce, -, heq⟩
    rw [heq]
    simp
  · intro e e' _ hpast seller projectId amount pricePerCredit id hcreates
    exact (step_monotone sha256 e'.1 e'.2).2 id (hpast _ _ _ _ id hcreates)
  · intro e e' he' hpast seller seller' projectId amount pricePerCredit id id' hcreates hcreates' _
      hsequence hnonce
    have hsame : id' = id := by
      rw [hcreates.id_eq, hcreates'.id_eq, ← hsequence, ← hnonce]
      rfl
    have hstored := hpast _ _ _ _ id hcreates
    rw [← hsame, hrun e' he' _ _ _ _ id' hcreates'] at hstored
    cases hstored

theorem NoSharedTerms.listingIdsUnique (hinj : Function.Injective sha256) {t : σ}
    {run : List (Invocation (Answered σ))} (hrun : NoSharedTerms sha256 t run) :
    ListingIdsUnique sha256 t run := by
  intro e' he' seller' projectId' amount' pricePerCredit' id hcreates'
  rcases Run.mem_trace_iff.mp he' with ⟨pre, post, rfl, hstate⟩
  have hrecorded := reachable_recorded sha256 t pre
  rw [← hstate] at hrecorded
  by_contra hstored
  have hsome : (e'.1.market.listings.get id).isSome = true := Option.isSome_iff_ne_none.mpr hstored
  rcases hrecorded.created_of_stored id hsome with
    ⟨e, he, seller, projectId, amount, pricePerCredit, hcreates⟩
  have hids := hcreates.id_eq.symm.trans hcreates'.id_eq
  rcases newListingId_injective hinj hids with ⟨rfl, rfl, rfl, hsequence, hnonce⟩
  by_cases hseller : seller = seller'
  · -- the nonce of one seller has moved on since
    subst hseller
    have hpassed := hrecorded.nonce_passed e he _ _ _ _ id hcreates
    rw [hnonce] at hpassed
    exact lt_irrefl _ hpassed
  · have hpair := Run.pairwise_prefix hrun e he
    rw [← hstate] at hpair
    exact hpair seller seller' projectId amount pricePerCredit id id hcreates hcreates' hseller
      hsequence hnonce

/-- Ids stay unique exactly when no two sellers list on the same terms, in the same
ledger and at the same nonce. -/
theorem listingIdsUnique_iff (hinj : Function.Injective sha256) (t : σ)
    (run : List (Invocation (Answered σ))) :
    ListingIdsUnique sha256 t run ↔ NoSharedTerms sha256 t run :=
  ⟨ListingIdsUnique.noSharedTerms, NoSharedTerms.listingIdsUnique hinj⟩

/-! ## Runs with shared and with different terms -/

/-- Called contracts that report a verified project and a balance of one hundred. -/
def verifiedPeers : Peers Unit where
  getProject _ _ _ t := some (⟨⟨1⟩, "forest", 1000, 200, .verified, 2024⟩, t)
  issueCredits _ _ _ _ _ := none
  balanceOf _ _ _ _ t := some (100, t)
  mint _ _ _ _ _ _ := none
  burn _ _ _ _ _ _ := none
  getCircuitBreakerState _ _ _ := none
  isPriceStale _ _ _ _ _ := none

/-- Two sellers post their first listings in one ledger, for the given amounts. -/
def twoListings (amount amount' : I128) : List (Invocation (Answered Unit)) :=
  [⟨.signedBy 1 [], verifiedPeers, .initializeContract ⟨0⟩ ⟨7⟩ ⟨8⟩ 0⟩,
    ⟨.signedBy 5 [⟨1⟩], verifiedPeers, .createListing ⟨1⟩ ⟨List.replicate 32 0⟩ amount 3⟩,
    ⟨.signedBy 5 [⟨2⟩], verifiedPeers, .createListing ⟨2⟩ ⟨List.replicate 32 0⟩ amount' 3⟩]

/-- Two sellers who list on the same terms in one ledger share an id under every
hash, and the second listing replaces the first. -/
theorem listings_collide :
    ¬ ∃ sha256 : Bytes → BytesN, ListingIdsUnique sha256 () (twoListings 10 10) := by
  intro h
  rcases h with ⟨sha256, hunique⟩
  have hterms := hunique.noSharedTerms
  simp only [NoSharedTerms, history, twoListings, Run.trace_cons, Run.trace_nil,
    List.pairwise_cons] at hterms
  have hpair := hterms.2.1 _ List.mem_cons_self
  exact hpair ⟨1⟩ ⟨2⟩ _ 10 3 _ _ ⟨rfl, _, rfl⟩ ⟨rfl, _, rfl⟩ (by decide) rfl rfl

/-- Two sellers who list different amounts get different ids. -/
theorem twoListings_unique : ListingIdsUnique BytesN.mk () (twoListings 10 11) := by
  apply (listingIdsUnique_iff BytesN.mk_injective _ _).mpr
  simp only [NoSharedTerms, history, twoListings, Run.trace_cons, Run.trace_nil,
    List.pairwise_cons, List.mem_cons, List.not_mem_nil, or_false, forall_eq_or_imp, forall_eq,
    List.Pairwise.nil, and_true, false_implies, implies_true]
  refine ⟨⟨?_, ?_⟩, ?_⟩
  · intro seller seller' projectId amount pricePerCredit id id' hcreates
    cases hcreates.1
  · intro seller seller' projectId amount pricePerCredit id id' hcreates
    cases hcreates.1
  · intro seller seller' projectId amount pricePerCredit id id' hcreates hcreates'
    have hamount : amount = 10 := by
      cases hcreates.1
      rfl
    have hamount' : amount = 11 := by
      cases hcreates'.1
      rfl
    rw [hamount] at hamount'
    exact absurd hamount' (by decide)

end CarbonMarketplace
end Kraal
