import Kraal.CarbonSystem.Verification

/-!
# The accounts of the system

Every balance and supply of the credit contract is the sum of what the calls of the whole system
have moved: the operations of the credit contract itself, the purchases that pass the credits of a
listing from its seller to the buyer, and the issues that the marketplace mints for the owner of a
project.  The machine integers of the contract never show: the sums are exact.

Main results:

- Definition {lit}`moved`: the movements that a step stands for.
- Theorem {lit}`step_ledger`: a step acts on the abstract ledger as its movements.
- Theorem {lit}`accounts_replayed`: the accounts after a run are the replay of its movements.
-/

namespace Kraal
namespace CarbonSystem

open Foundation

variable {sha256 : Bytes → BytesN} {d : Deployment}

/-! ## Movements of a step -/

/-- The movements that an operation stands for if it returns. -/
def Op.movements (s : System) : Op → List (Ledger.Movement Address BytesN)
  | .registry _ => []
  | .credit op => op.movements
  | .market _ (.purchaseListing buyer listingId _ _) =>
      (s.market.listings.get listingId).toList.map fun listing =>
        .transfer listing.seller buyer listing.projectId listing.amount.toInt
  | .market _ (.mintProjectCredits projectId amount) =>
      (s.peers.registry.projects.get projectId).toList.map fun project =>
        .mint project.owner projectId amount.toInt
  | .market _ _ => []

/-- The movements of a step: none if its call fails. -/
def moved (sha256 : Bytes → BytesN) (d : Deployment) (e : System × Invocation Op) :
    List (Ledger.Movement Address BytesN) :=
  match exec sha256 d e.2.call e.2.env e.1 with
  | .ok _ => e.2.call.movements e.1
  | .error _ => []

/-- A marketplace operation that neither buys nor mints moves nothing. -/
theorem movements_market {s : System} {oracle : Oracle} {op : CarbonMarketplace.Op}
    (hbuys : ∀ buyer listingId paymentAmount maxLedger,
      op ≠ .purchaseListing buyer listingId paymentAmount maxLedger)
    (hmints : ∀ projectId amount, op ≠ .mintProjectCredits projectId amount) :
    (Op.market oracle op).movements s = [] := by
  cases op with
  | purchaseListing buyer listingId paymentAmount maxLedger => exact absurd rfl (hbuys _ _ _ _)
  | mintProjectCredits projectId amount => exact absurd rfl (hmints _ _)
  | initializeContract | configureOracle | setCircuitBreakerState | createListing |
    cancelListing => rfl

/-- A purchase that returns settles the listing that it names. -/
theorem purchase_settles {s s' : System} {env : Env} {oracle : Oracle} {buyer : Address}
    {listingId : BytesN} {paymentAmount : I128} {maxLedger : U32}
    (h : CarbonMarketplace.exec sha256 (wiredPeers d oracle)
      (.purchaseListing buyer listingId paymentAmount maxLedger) env s = .ok ((), s')) :
    ∃ listing, s.market.listings.get listingId = some listing ∧
      Settles d env listing.seller buyer listing.projectId listing.amount s.peers s'.peers := by
  rcases CarbonMarketplace.purchaseListing_eq_ok.mp h with
    ⟨cfg, listing, t, t₁, project, t₂, t₃, hchecked, hproject, -, hburn, hmint, rfl⟩
  have hfresh := freshPrice_stores hchecked.fresh
  subst hfresh
  rcases wiredPeers_getProject.mp hproject with ⟨-, -, rfl⟩
  rcases wiredPeers_burn.mp hburn with ⟨-, burned, hburned, rfl⟩
  rcases wiredPeers_mint.mp hmint with ⟨-, credit, hminted, rfl⟩
  exact ⟨listing, hchecked.stored, burned, credit, hburned, hminted, rfl⟩

/-- An issue mints for the owner that is stored before it. -/
theorem issues_ledger {t t' : CarbonStores} {env : Env} {projectId : BytesN} {amount : I128}
    (h : Issues d env projectId amount t t') :
    0 < amount.toInt ∧ ∃ project, t.registry.projects.get projectId = some project ∧
      t'.credit.ledger = t.credit.ledger.mint project.owner projectId amount.toInt := by
  rcases h with ⟨registry, project, credit, hissue, hafter, hmint, rfl⟩
  rcases CarbonRegistry.issueCredits_eq_ok.mp hissue with
    ⟨cfg, project', newIssued, -, -, hpos, hstored, -, -, -, rfl⟩
  have howner : project.owner = project'.owner := by
    have hsame : (some project : Option CarbonRegistry.CarbonProject) =
        some { project' with issuedCredits := newIssued } := by
      rw [← hafter]
      exact Storage.get_set_self _ _ _
    rw [Option.some.injEq] at hsame
    rw [hsame]
  refine ⟨hpos, project', hstored, ?_⟩
  rw [CarbonStores.withCredit_credit, CarbonCredit.mint_refines hmint, howner]

/-- A settlement moves a positive amount. -/
theorem Settles.amount_pos {env : Env} {seller buyer : Address} {projectId : BytesN}
    {amount : I128} {t t' : CarbonStores}
    (h : Settles d env seller buyer projectId amount t t') : 0 < amount.toInt := by
  rcases h with ⟨burned, credit, hburn, -, -⟩
  exact (CarbonCredit.burn_eq_ok.mp hburn).2.1

/-- A marketplace operation that returns acts on the ledger as its movements. -/
theorem market_ledger {s s' : System} {env : Env} {oracle : Oracle} {op : CarbonMarketplace.Op}
    (hs : Sound d s)
    (h : CarbonMarketplace.exec sha256 (wiredPeers d oracle) op env s = .ok ((), s')) :
    s'.peers.credit.ledger =
        ((Op.market oracle op).movements s).foldl Ledger.apply s.peers.credit.ledger ∧
      ∀ m ∈ (Op.market oracle op).movements s, 0 < m.amount := by
  by_cases hbuys : ∃ buyer listingId paymentAmount maxLedger,
      op = .purchaseListing buyer listingId paymentAmount maxLedger
  · rcases hbuys with ⟨buyer, listingId, paymentAmount, maxLedger, rfl⟩
    rcases purchase_settles h with ⟨listing, hlisted, hsettles⟩
    have hmoves : (Op.market oracle
        (.purchaseListing buyer listingId paymentAmount maxLedger)).movements s =
        [.transfer listing.seller buyer listing.projectId listing.amount.toInt] := by
      simp only [Op.movements, hlisted, Option.toList_some, List.map_singleton]
    rw [hmoves]
    refine ⟨(hsettles.ledger hs.conserved).2.2, ?_⟩
    intro m hm
    rw [List.mem_singleton.mp hm]
    exact hsettles.amount_pos
  · rcases market_peers h with ⟨hpeers, hmints⟩ |
      ⟨buyer, listingId, paymentAmount, maxLedger, listing, hop, -, -⟩ |
      ⟨projectId, amount, rfl, hissues⟩
    · have hother : ∀ buyer listingId paymentAmount maxLedger,
          op ≠ .purchaseListing buyer listingId paymentAmount maxLedger := by
        intro buyer listingId paymentAmount maxLedger hop
        exact hbuys ⟨buyer, listingId, paymentAmount, maxLedger, hop⟩
      rw [movements_market hother hmints, hpeers]
      exact ⟨rfl, fun m hm => absurd hm List.not_mem_nil⟩
    · exact absurd ⟨buyer, listingId, paymentAmount, maxLedger, hop⟩ hbuys
    · rcases issues_ledger hissues with ⟨hpos, project, hstored, hledger⟩
      have hmoves : (Op.market oracle (.mintProjectCredits projectId amount)).movements s =
          [.mint project.owner projectId amount.toInt] := by
        simp only [Op.movements, hstored, Option.toList_some, List.map_singleton]
      rw [hmoves]
      refine ⟨hledger, ?_⟩
      intro m hm
      rw [List.mem_singleton.mp hm]
      exact hpos

/-- An operation that returns acts on the ledger as its movements, which are positive. -/
theorem exec_ledger {s s' : System} {env : Env} {op : Op} (hs : Sound d s)
    (h : exec sha256 d op env s = .ok ((), s')) :
    s'.peers.credit.ledger = (op.movements s).foldl Ledger.apply s.peers.credit.ledger ∧
      ∀ m ∈ op.movements s, 0 < m.amount := by
  cases op with
  | registry op =>
      rcases exec_registry.mp h with ⟨registry, -, rfl⟩
      exact ⟨rfl, fun m hm => absurd hm List.not_mem_nil⟩
  | credit op =>
      rcases exec_credit.mp h with ⟨credit, hexec, rfl⟩
      exact ⟨CarbonCredit.exec_refines hs.conserved hexec, movements_pos hexec⟩
  | market oracle op => exact market_ledger hs (exec_market.mp h)

/-! ## Accounts along a run -/

/-- A step acts on the ledger as what it moves, which is positive. -/
theorem step_ledger {s : System} (hs : Sound d s) (i : Invocation Op) :
    (step (exec sha256 d) s i).peers.credit.ledger =
        (moved sha256 d (s, i)).foldl Ledger.apply s.peers.credit.ledger ∧
      ∀ m ∈ moved sha256 d (s, i), 0 < m.amount := by
  unfold moved
  cases hexec : exec sha256 d i.call i.env s with
  | ok p =>
      rcases p with ⟨⟨⟩, s'⟩
      rw [step_of_ok hexec]
      exact exec_ledger hs hexec
  | error f =>
      have hfails : ¬ (exec sha256 d i.call).Succeeds i.env s := fun h => h.ne_error hexec
      rw [step_of_not_succeeds hfails]
      exact ⟨rfl, fun m hm => absurd hm List.not_mem_nil⟩

/-- The movements of a run, in the order of its steps. -/
def movementsOf (sha256 : Bytes → BytesN) (d : Deployment) (run : List (Invocation Op)) :
    List (Ledger.Movement Address BytesN) :=
  (Run.trace (step (exec sha256 d)) (genesis d) run).flatMap (moved sha256 d)

/-- The accounts of the credit contract, by the movements that a run has made. -/
structure Replayed (s : System) (ms : List (Ledger.Movement Address BytesN)) : Prop where
  ledger_eq : s.peers.credit.ledger = ms.foldl Ledger.apply Ledger.zero
  amounts_pos : ∀ m ∈ ms, 0 < m.amount
  balance_eq : ∀ owner projectId, (s.peers.credit.balanceOf owner projectId).toInt =
    (ms.map fun m => m.received owner projectId).sum - (ms.map fun m => m.sent owner projectId).sum
  supply_eq : ∀ projectId, (s.peers.credit.totalSupply projectId).toInt =
    (ms.map fun m => m.issued projectId).sum - (ms.map fun m => m.retires projectId).sum
  retired_eq : ∀ projectId, (s.peers.credit.retiredSupply projectId).toInt =
    (ms.map fun m => m.retires projectId).sum

/-- A ledger that replays movements from nothing has the sums of them in its rows. -/
theorem Replayed.of_ledger {s : System} {ms : List (Ledger.Movement Address BytesN)}
    (hledger : s.peers.credit.ledger = ms.foldl Ledger.apply Ledger.zero)
    (hpos : ∀ m ∈ ms, 0 < m.amount) : Replayed s ms := by
  have hretired : ∀ projectId, (s.peers.credit.retiredSupply projectId).toInt =
      (ms.map fun m => m.retires projectId).sum := by
    intro projectId
    have hrow := congrFun (congrArg Ledger.retired hledger) projectId
    rw [Ledger.retired_foldl] at hrow
    exact hrow.trans (Int.zero_add _)
  refine ⟨hledger, hpos, ?_, ?_, hretired⟩
  · intro owner projectId
    have hrow := congrFun (congrFun (congrArg Ledger.balance hledger) owner) projectId
    rw [Ledger.balance_foldl] at hrow
    change (s.peers.credit.balanceOf owner projectId).toInt = 0 + _ - _ at hrow
    rw [hrow, Int.zero_add]
  · intro projectId
    -- what is not retired of everything that exists
    have hrow := congrArg (fun L => Ledger.outstanding L projectId) hledger
    simp only [Ledger.outstanding_foldl] at hrow
    change (s.peers.credit.totalSupply projectId).toInt +
      (s.peers.credit.retiredSupply projectId).toInt = 0 + 0 + _ at hrow
    rw [hretired] at hrow
    omega

/-- After every run, the balances, the supplies and the retired supplies of all projects are the
exact sums of what the successful calls of the run have moved. -/
theorem accounts_replayed (sha256 : Bytes → BytesN) (d : Deployment)
    (run : List (Invocation Op)) :
    Replayed (Run.final (step (exec sha256 d)) (genesis d) run) (movementsOf sha256 d run) := by
  have hrun : Sound d (Run.final (step (exec sha256 d)) (genesis d) run) ∧
      (Run.final (step (exec sha256 d)) (genesis d) run).peers.credit.ledger =
        (movementsOf sha256 d run).foldl Ledger.apply Ledger.zero ∧
      ∀ m ∈ movementsOf sha256 d run, 0 < m.amount := by
    apply Run.history_invariant (P := fun past s => Sound d s ∧
      s.peers.credit.ledger = (past.flatMap (moved sha256 d)).foldl Ledger.apply Ledger.zero ∧
      ∀ m ∈ past.flatMap (moved sha256 d), 0 < m.amount)
    · exact ⟨sound_genesis d, rfl, fun m hm => absurd hm List.not_mem_nil⟩
    · intro past s i hpast
      rcases hpast with ⟨hs, hledger, hpos⟩
      have hstep := @step_ledger sha256 _ _ hs i
      rcases hstep with ⟨hnext, hnew⟩
      rw [List.flatMap_append, List.flatMap_singleton]
      refine ⟨hs.step i, ?_, ?_⟩
      · rw [List.foldl_append, ← hledger, hnext]
      · intro m hm
        rcases List.mem_append.mp hm with hm | hm
        · exact hpos m hm
        · exact hnew m hm
  exact Replayed.of_ledger hrun.2.1 hrun.2.2

end CarbonSystem
end Kraal
