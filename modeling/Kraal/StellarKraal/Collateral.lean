import Kraal.StellarKraal.AssetIds

/-!
# Collateral of StellarKraal

Which loan encumbers an asset is recorded twice: by a flag on the asset and by the
active loans that name it.  Three operations maintain the two records, each with two
separate writes.  The records agree in every reachable state, and no asset backs two
loans, as long as no registration replaces an asset under an open loan.

Main results:

- Definition {lit}`Exclusive` and theorem {lit}`Exclusive.step`: the flag, the active
  loans and their uniqueness, preserved by every operation.
- Theorem {lit}`LoanIdsCounted.fresh`: a new loan never takes a stored id.
- Theorem {lit}`collateral_exclusive`: what holds after every run without two
  registrations in one ledger.
-/

namespace Kraal
namespace StellarKraal

open Foundation

variable {sha256 : Bytes → BytesN}

/-! ## Active loans on an asset -/

/-- An active loan references an asset. -/
def ActiveOn (s : Store) (assetId loanId : BytesN) : Prop :=
  ∃ loan, s.loans.get loanId = some loan ∧ loan.active = true ∧ loan.assetId = assetId

/-- Writing a loan row changes the active loans at its own id only. -/
theorem activeOn_withLoan {s : Store} {id : BytesN} {loan : Loan} {assetId loanId : BytesN} :
    ActiveOn (s.withLoan id loan) assetId loanId ↔
      loanId = id ∧ loan.active = true ∧ loan.assetId = assetId ∨
      loanId ≠ id ∧ ActiveOn s assetId loanId := by
  unfold ActiveOn
  rw [Store.withLoan_loans, Storage.get_set]
  by_cases hid : loanId = id
  · simp [hid]
  · simp [hid]

/-- The flags on the assets and the active loans agree, and no asset backs two loans. -/
structure Exclusive (s : Store) : Prop where
  asset_exists : ∀ loanId loan, s.loans.get loanId = some loan →
    (s.assets.get loan.assetId).isSome = true
  free : ∀ assetId asset, s.assets.get assetId = some asset → asset.onLoan = false →
    ∀ loanId, ¬ ActiveOn s assetId loanId
  held : ∀ assetId asset, s.assets.get assetId = some asset → asset.onLoan = true →
    ∃ loanId, ActiveOn s assetId loanId
  unique : ∀ assetId loanId loanId', ActiveOn s assetId loanId → ActiveOn s assetId loanId' →
    loanId = loanId'

theorem exclusive_empty : Exclusive Store.empty := by
  refine ⟨?_, ?_, ?_, ?_⟩
  · intro loanId loan h
    simp [Store.empty] at h
  · intro assetId asset h
    simp [Store.empty] at h
  · intro assetId asset h
    simp [Store.empty] at h
  · intro assetId loanId loanId' hcase
    rcases hcase with ⟨loan, h, -⟩
    simp [Store.empty] at h

namespace Exclusive

variable {s : Store}

/-- An active loan has its asset flagged. -/
theorem onLoan_of_active (hs : Exclusive s) {assetId loanId : BytesN} {asset : Asset}
    (hasset : s.assets.get assetId = some asset) (hactive : ActiveOn s assetId loanId) :
    asset.onLoan = true := by
  by_contra hfree
  exact hs.free assetId asset hasset (by simpa using hfree) loanId hactive

/-- A new asset under a fresh id backs no loan. -/
theorem register (hs : Exclusive s) {id : BytesN} {asset : Asset} (hfresh : s.assets.get id = none)
    (hfree : asset.onLoan = false) : Exclusive (s.withAsset id asset) := by
  have hunreferenced : ∀ loanId, ¬ ActiveOn s id loanId := by
    intro loanId h
    rcases h with ⟨loan, hloan, -, rfl⟩
    have hexists := hs.asset_exists loanId loan hloan
    rw [hfresh] at hexists
    cases hexists
  refine ⟨?_, ?_, ?_, hs.unique⟩
  · intro loanId loan hloan
    rw [Store.withAsset_assets, Storage.get_set]
    split
    · rfl
    · exact hs.asset_exists loanId loan hloan
  · intro assetId asset' hstored hoff
    rcases Storage.get_set_eq_some.mp hstored with ⟨rfl, -⟩ | ⟨-, hold⟩
    · exact hunreferenced
    · exact hs.free assetId asset' hold hoff
  · intro assetId asset' hstored hon
    rcases Storage.get_set_eq_some.mp hstored with ⟨-, rfl⟩ | ⟨-, hold⟩
    · rw [hfree] at hon
      cases hon
    · exact hs.held assetId asset' hold hon

/-- Flagging a free asset and adding a loan on it under a fresh id. -/
theorem openLoan (hs : Exclusive s) {assetId id : BytesN} {asset : Asset} {nonce : U64}
    {loan : Loan} (hasset : s.assets.get assetId = some asset) (hfree : asset.onLoan = false)
    (hfresh : s.loans.get id = none) (hloanAsset : loan.assetId = assetId)
    (hactive : loan.active = true) :
    Exclusive (((s.withAsset assetId { asset with onLoan := true }).withCounter nonce).withLoan
      id loan) := by
  subst hloanAsset
  -- the active loans are the old ones and the new one
  have hactiveOn : ∀ a l, ActiveOn (((s.withAsset loan.assetId
      { asset with onLoan := true }).withCounter nonce).withLoan id loan) a l ↔
      l = id ∧ loan.assetId = a ∨ l ≠ id ∧ ActiveOn s a l := by
    intro a l
    rw [activeOn_withLoan]
    simp only [hactive, true_and]
    exact Iff.rfl
  have hold : ∀ a l, ActiveOn s a l → l ≠ id := by
    intro a l h heq
    rcases h with ⟨loan', hloan', -⟩
    subst heq
    rw [hfresh] at hloan'
    cases hloan'
  refine ⟨?_, ?_, ?_, ?_⟩
  · intro l loan' hstored
    change ((s.assets.set loan.assetId _).get loan'.assetId).isSome = true
    rw [Storage.isSome_get_set hasset]
    rcases Storage.get_set_eq_some.mp hstored with ⟨-, hnew⟩ | ⟨-, hbefore⟩
    · rw [← hnew, hasset]
      rfl
    · exact hs.asset_exists l loan' hbefore
  · intro a asset' hstored hoff l hl
    rcases Storage.get_set_eq_some.mp hstored with ⟨-, hnew⟩ | ⟨ha, hbefore⟩
    · rw [← hnew] at hoff
      cases hoff
    · rcases (hactiveOn a l).mp hl with ⟨-, hsame⟩ | ⟨-, hl⟩
      · exact ha hsame.symm
      · exact hs.free a asset' hbefore hoff l hl
  · intro a asset' hstored hon
    rcases Storage.get_set_eq_some.mp hstored with ⟨ha, -⟩ | ⟨-, hbefore⟩
    · exact ⟨id, (hactiveOn a id).mpr (.inl ⟨rfl, ha.symm⟩)⟩
    · rcases hs.held a asset' hbefore hon with ⟨l, hl⟩
      exact ⟨l, (hactiveOn a l).mpr (.inr ⟨hold a l hl, hl⟩)⟩
  · intro a l l' hl hl'
    rcases (hactiveOn a l).mp hl with ⟨rfl, rfl⟩ | ⟨-, hbefore⟩
    · rcases (hactiveOn loan.assetId l').mp hl' with ⟨rfl, -⟩ | ⟨-, hbefore'⟩
      · rfl
      · exact absurd hbefore' (hs.free loan.assetId asset hasset hfree l')
    · rcases (hactiveOn a l').mp hl' with ⟨rfl, rfl⟩ | ⟨-, hbefore'⟩
      · exact absurd hbefore (hs.free loan.assetId asset hasset hfree l)
      · exact hs.unique a l l' hbefore hbefore'

/-- Rewriting an active loan that stays active on its asset. -/
theorem rewriteLoan (hs : Exclusive s) {id : BytesN} {loan loan' : Loan}
    (hstored : s.loans.get id = some loan) (hactive : loan.active = true)
    (hasset : loan'.assetId = loan.assetId) (hactive' : loan'.active = true) :
    Exclusive (s.withLoan id loan') := by
  have hactiveOn : ∀ a l, ActiveOn (s.withLoan id loan') a l ↔ ActiveOn s a l := by
    intro a l
    rw [activeOn_withLoan, hasset]
    constructor
    · intro h
      rcases h with ⟨rfl, -, rfl⟩ | ⟨-, hl⟩
      · exact ⟨loan, hstored, hactive, rfl⟩
      · exact hl
    · intro hl
      by_cases hid : l = id
      · rcases hl with ⟨loan'', hloan'', -, rfl⟩
        subst hid
        rw [hstored, Option.some.injEq] at hloan''
        subst hloan''
        exact .inl ⟨rfl, hactive', rfl⟩
      · exact .inr ⟨hid, hl⟩
  refine ⟨?_, ?_, ?_, ?_⟩
  · apply Storage.forall_get_set hs.asset_exists
    rw [hasset]
    exact hs.asset_exists id loan hstored
  · intro a asset ha hoff l hl
    exact hs.free a asset ha hoff l ((hactiveOn a l).mp hl)
  · intro a asset ha hon
    rcases hs.held a asset ha hon with ⟨l, hl⟩
    exact ⟨l, (hactiveOn a l).mpr hl⟩
  · intro a l l' hl hl'
    exact hs.unique a l l' ((hactiveOn a l).mp hl) ((hactiveOn a l').mp hl')

/-- Closing an active loan releases its asset. -/
theorem close (hs : Exclusive s) {id : BytesN} {loan : Loan} {now : U32} {s' : Store}
    (hstored : s.loans.get id = some loan) (hactive : loan.active = true)
    (h : Closes id loan now s s') : Exclusive s' := by
  rcases h with ⟨asset, hasset, rfl⟩
  have hon : asset.onLoan = true := hs.onLoan_of_active hasset ⟨loan, hstored, hactive, rfl⟩
  have hactiveOn : ∀ a l, ActiveOn ((s.withAsset loan.assetId
      { asset with onLoan := false }).withLoan id (closedLoan loan now)) a l ↔
      l ≠ id ∧ ActiveOn s a l := by
    intro a l
    rw [activeOn_withLoan]
    constructor
    · intro hcase
      rcases hcase with ⟨-, hclosed, -⟩ | hl
      · cases hclosed
      · exact hl
    · intro hl
      exact .inr hl
  refine ⟨?_, ?_, ?_, ?_⟩
  · have hexists : ∀ l loan', (s.loans.set id (closedLoan loan now)).get l = some loan' →
        (s.assets.get loan'.assetId).isSome = true :=
      Storage.forall_get_set hs.asset_exists (hs.asset_exists id loan hstored)
    intro l loan' hrow
    change ((s.assets.set loan.assetId _).get loan'.assetId).isSome = true
    rw [Storage.isSome_get_set hasset]
    exact hexists l loan' hrow
  · intro a asset' hrow hoff l hl
    rcases (hactiveOn a l).mp hl with ⟨hne, hbefore⟩
    rcases Storage.get_set_eq_some.mp hrow with ⟨ha, -⟩ | ⟨-, hold⟩
    · -- the closed loan was the only one on its asset
      subst ha
      exact hne (hs.unique loan.assetId l id hbefore ⟨loan, hstored, hactive, rfl⟩)
    · exact hs.free a asset' hold hoff l hbefore
  · intro a asset' hrow hflag
    rcases Storage.get_set_eq_some.mp hrow with ⟨-, hnew⟩ | ⟨ha, hold⟩
    · rw [← hnew] at hflag
      cases hflag
    · rcases hs.held a asset' hold hflag with ⟨l, hl⟩
      refine ⟨l, (hactiveOn a l).mpr ⟨?_, hl⟩⟩
      intro hsame
      subst hsame
      rcases hl with ⟨loan', hloan', -, rfl⟩
      rw [hstored, Option.some.injEq] at hloan'
      exact ha (by rw [hloan'])
  · intro a l l' hl hl'
    exact hs.unique a l l' ((hactiveOn a l).mp hl).2 ((hactiveOn a l').mp hl').2

end Exclusive

/-! ## Loan ids -/

/-- Every loan lies under the hash of its ledger, its asset and a nonce that the counter
has reached. -/
def LoanIdsCounted (sha256 : Bytes → BytesN) (s : Store) : Prop :=
  ∀ id loan, s.loans.get id = some loan → ∃ sequence nonce,
    id = newLoanId sha256 sequence loan.assetId nonce ∧ nonce.toInt ≤ s.loanNonce.toInt

/-- The nonce ends the preimage of a loan id, so the id determines it. -/
theorem newLoanId_nonce (hinj : Function.Injective sha256) {sequence sequence' : U32}
    {assetId assetId' : BytesN} {nonce nonce' : U64}
    (h : newLoanId sha256 sequence assetId nonce = newLoanId sha256 sequence' assetId' nonce') :
    nonce = nonce' := by
  rcases List.append_inj' (hinj h) (by simp) with ⟨-, hnonce⟩
  exact MInt.toBeBytes_injective hnonce

/-- A new loan never takes a stored id. -/
theorem LoanIdsCounted.fresh (hinj : Function.Injective sha256) {s s' : Store}
    (hs : LoanIdsCounted sha256 s) {borrower : Address} {assetId id : BytesN}
    {principalStroops : I128} {env : Env}
    (h : openLoan sha256 borrower assetId principalStroops env s = .ok (id, s')) :
    s.loans.get id = none := by
  rcases openLoan_eq_ok.mp h with ⟨cfg, asset, balance, nonce, -, -, hnonce, rfl, -⟩
  by_contra hstored
  rcases Option.ne_none_iff_exists'.mp hstored with ⟨loan, hloan⟩
  rcases hs _ loan hloan with ⟨sequence, nonce', hid, hle⟩
  rw [← newLoanId_nonce hinj hid] at hle
  omega

/-! ## Preservation -/

theorem Exclusive.step (hinj : Function.Injective sha256) {s : Store} {i : Invocation Op}
    (hs : Exclusive s) (hids : LoanIdsCounted sha256 s)
    (hfresh : FreshRegistration sha256 (s, i)) : Exclusive (Kraal.step (exec sha256) s i) := by
  apply step_induction hs
  intro s' hok
  rcases exec_cases hok with ⟨cfg, -, -, -, rfl⟩ |
    ⟨owner, animalType, tagId, appraisedValueXlm, hcall, hregister⟩ |
    ⟨borrower, assetId, principalStroops, id, -, hopen⟩ |
    ⟨caller, loanId, repaymentStroops, cfg, loan, accrued, -, haccrues, -, rfl⟩ |
    ⟨caller, loanId, cfg, loan, accrued, -, haccrues, hcloses⟩ |
    ⟨oracle, price, -, rfl⟩
  · exact ⟨hs.asset_exists, hs.free, hs.held, hs.unique⟩
  · have hnone := hfresh ⟨owner, animalType, tagId, appraisedValueXlm, s', hcall, hregister⟩
    rcases registerAsset_eq_ok.mp hregister with ⟨-, -, -, rfl⟩
    exact hs.register hnone rfl
  · have hnone := hids.fresh hinj hopen
    rcases openLoan_eq_ok.mp hopen with ⟨cfg, asset, balance, nonce, haccepted, -, -, -, rfl⟩
    exact hs.openLoan haccepted.stored haccepted.free hnone rfl rfl
  · exact hs.rewriteLoan haccrues.stored haccrues.active rfl haccrues.active
  · exact hs.close haccrues.stored haccrues.active hcloses
  · exact ⟨hs.asset_exists, hs.free, hs.held, hs.unique⟩

theorem LoanIdsCounted.rewriteLoan {s : Store} {id : BytesN} {loan loan' : Loan}
    (hs : LoanIdsCounted sha256 s) (hstored : s.loans.get id = some loan)
    (hasset : loan'.assetId = loan.assetId) {s' : Store} (hloans : s'.loans = s.loans.set id loan')
    (hnonce : s'.loanNonce = s.loanNonce) : LoanIdsCounted sha256 s' := by
  rw [LoanIdsCounted, hloans, hnonce]
  apply Storage.forall_get_set hs
  rw [hasset]
  exact hs id loan hstored

theorem LoanIdsCounted.step {s : Store} (hs : LoanIdsCounted sha256 s) (i : Invocation Op) :
    LoanIdsCounted sha256 (Kraal.step (exec sha256) s i) := by
  apply step_induction hs
  intro s' hok
  rcases exec_cases hok with ⟨cfg, -, -, -, rfl⟩ |
    ⟨owner, animalType, tagId, appraisedValueXlm, -, hregister⟩ |
    ⟨borrower, assetId, principalStroops, id, -, hopen⟩ |
    ⟨caller, loanId, repaymentStroops, cfg, loan, accrued, -, haccrues, -, rfl⟩ |
    ⟨caller, loanId, cfg, loan, accrued, -, haccrues, asset, -, rfl⟩ |
    ⟨oracle, price, -, rfl⟩
  · exact hs
  · rcases registerAsset_eq_ok.mp hregister with ⟨-, -, -, rfl⟩
    exact hs
  · rcases openLoan_eq_ok.mp hopen with ⟨cfg, asset, balance, nonce, -, -, hnonce, rfl, rfl⟩
    rw [LoanIdsCounted, Store.withLoan_loanNonce, Store.withCounter_loanNonce]
    apply Storage.forall_get_set
    · intro id' loan hold
      rcases hs id' loan hold with ⟨sequence, nonce', hid, hle⟩
      exact ⟨sequence, nonce', hid, by omega⟩
    · exact ⟨i.env.sequence, nonce, rfl, le_rfl⟩
  · have hasset : (repaidLoan loan (accrued.saturatingSub repaymentStroops)
        i.env.sequence).assetId = loan.assetId := rfl
    exact hs.rewriteLoan haccrues.stored hasset rfl rfl
  · have hasset : (closedLoan loan i.env.sequence).assetId = loan.assetId := rfl
    exact hs.rewriteLoan haccrues.stored hasset rfl rfl
  · exact hs

theorem reachable_loanIdsCounted {s : Store}
    (hs : Run.Reachable (step (exec sha256)) Store.empty s) : LoanIdsCounted sha256 s := by
  refine hs.invariant ?_ fun _ i hs => hs.step i
  intro id loan h
  simp [Store.empty] at h

/-- An inactive loan keeps its whole record in every step. -/
theorem step_keeps_inactive (hinj : Function.Injective sha256) {s : Store} {i : Invocation Op}
    (hids : LoanIdsCounted sha256 s) {loanId : BytesN} {loan : Loan}
    (hloan : s.loans.get loanId = some loan) (hinactive : loan.active = false) :
    (step (exec sha256) s i).loans.get loanId = some loan := by
  have hother : ∀ caller id env cfg loan' accrued,
      LoanAccrues caller id env s cfg loan' accrued → loanId ≠ id := by
    intro caller id env cfg loan' accrued haccrues heq
    subst heq
    have hsame := haccrues.stored
    rw [hloan, Option.some.injEq] at hsame
    have hactive := haccrues.active
    rw [← hsame, hinactive] at hactive
    cases hactive
  apply step_induction (P := fun t : Store => t.loans.get loanId = some loan) hloan
  intro s' hok
  rcases exec_cases hok with ⟨cfg, -, -, -, rfl⟩ |
    ⟨owner, animalType, tagId, appraisedValueXlm, -, hregister⟩ |
    ⟨borrower, assetId, principalStroops, id, -, hopen⟩ |
    ⟨caller, id, repaymentStroops, cfg, loan', accrued, -, haccrues, -, rfl⟩ |
    ⟨caller, id, cfg, loan', accrued, -, haccrues, asset, -, rfl⟩ |
    ⟨oracle, price, -, rfl⟩
  · exact hloan
  · rcases registerAsset_eq_ok.mp hregister with ⟨-, -, -, rfl⟩
    exact hloan
  · have hnone := hids.fresh hinj hopen
    rcases openLoan_eq_ok.mp hopen with ⟨cfg, asset, balance, nonce, -, -, -, -, rfl⟩
    have hne : loanId ≠ id := by
      intro heq
      subst heq
      rw [hnone] at hloan
      cases hloan
    exact (Storage.get_set_of_ne _ _ hne).trans hloan
  · exact (Storage.get_set_of_ne _ _ (hother _ _ _ _ _ _ haccrues)).trans hloan
  · exact (Storage.get_set_of_ne _ _ (hother _ _ _ _ _ _ haccrues)).trans hloan
  · exact hloan

/-! ## Exclusivity along runs -/

/-- What holds of assets and loans after a run. -/
structure CollateralExclusive (sha256 : Bytes → BytesN) (run : List (Invocation Op)) : Prop where
  onLoan_iff : ∀ assetId asset,
    (Run.final (step (exec sha256)) Store.empty run).assets.get assetId = some asset →
    (asset.onLoan = true ↔
      ∃! loanId, ActiveOn (Run.final (step (exec sha256)) Store.empty run) assetId loanId) ∧
    (asset.onLoan = false ↔
      ∀ loanId, ¬ ActiveOn (Run.final (step (exec sha256)) Store.empty run) assetId loanId)
  asset_exists : ∀ loanId loan,
    (Run.final (step (exec sha256)) Store.empty run).loans.get loanId = some loan →
    ∃ asset, (Run.final (step (exec sha256)) Store.empty run).assets.get loan.assetId = some asset
  loan_id_fresh : ∀ borrower assetId principalStroops env id s',
    openLoan sha256 borrower assetId principalStroops env
      (Run.final (step (exec sha256)) Store.empty run) = .ok (id, s') →
    (Run.final (step (exec sha256)) Store.empty run).loans.get id = none
  inactive_kept : ∀ before later, run = before ++ later → ∀ loanId loan,
    (Run.final (step (exec sha256)) Store.empty before).loans.get loanId = some loan →
    loan.active = false →
    (Run.final (step (exec sha256)) Store.empty run).loans.get loanId = some loan

/-- An inactive loan keeps its whole record along every run. -/
theorem final_keeps_inactive (hinj : Function.Injective sha256) {s : Store}
    (hids : LoanIdsCounted sha256 s) {loanId : BytesN} {loan : Loan}
    (hloan : s.loans.get loanId = some loan) (hinactive : loan.active = false)
    (run : List (Invocation Op)) :
    (Run.final (step (exec sha256)) s run).loans.get loanId = some loan := by
  have hkept : LoanIdsCounted sha256 (Run.final (step (exec sha256)) s run) ∧
      (Run.final (step (exec sha256)) s run).loans.get loanId = some loan := by
    apply Run.final_invariant
      (I := fun t : Store => LoanIdsCounted sha256 t ∧ t.loans.get loanId = some loan)
      ⟨hids, hloan⟩
    intro e _ ht
    exact ⟨ht.1.step e.2, step_keeps_inactive hinj ht.1 ht.2 hinactive⟩
  exact hkept.2

/-- The flag of an asset counts the active loans on it: one or none. -/
theorem Exclusive.onLoan_iff {s : Store} (hs : Exclusive s) {assetId : BytesN} {asset : Asset}
    (hasset : s.assets.get assetId = some asset) :
    (asset.onLoan = true ↔ ∃! loanId, ActiveOn s assetId loanId) ∧
      (asset.onLoan = false ↔ ∀ loanId, ¬ ActiveOn s assetId loanId) := by
  cases honLoan : asset.onLoan with
  | false =>
      have hnone := hs.free assetId asset hasset honLoan
      simp only [Bool.false_eq_true, false_iff, true_iff]
      exact ⟨fun ⟨loanId, hactive, _⟩ => hnone loanId hactive, hnone⟩
  | true =>
      rcases hs.held assetId asset hasset honLoan with ⟨loanId, hactive⟩
      have honly : ∀ l, ActiveOn s assetId l → l = loanId := by
        intro l hl
        exact hs.unique assetId l loanId hl hactive
      simp only [true_iff, Bool.true_eq_false, false_iff, not_forall, not_not]
      exact ⟨⟨loanId, hactive, honly⟩, loanId, hactive⟩

/-- After every run without two registrations in one ledger, the flag of an asset says
whether exactly one or no active loan references it, every loan has its asset, new
loans take fresh ids and inactive loans have not changed. -/
theorem collateral_exclusive (hinj : Function.Injective sha256) (run : List (Invocation Op))
    (hrun : DistinctLedgers sha256 run) : CollateralExclusive sha256 run := by
  have hfinal : Exclusive (Run.final (step (exec sha256)) Store.empty run) ∧
      LoanIdsCounted sha256 (Run.final (step (exec sha256)) Store.empty run) := by
    apply Run.final_invariant (I := fun s => Exclusive s ∧ LoanIdsCounted sha256 s)
      ⟨exclusive_empty, reachable_loanIdsCounted (Run.Reachable.refl _)⟩
    intro e he hinv
    exact ⟨hinv.1.step hinj hinv.2 (hrun.fresh hinj e he), hinv.2.step e.2⟩
  rcases hfinal with ⟨hexclusive, hids⟩
  refine ⟨?_, ?_, ?_, ?_⟩
  · intro assetId asset hasset
    exact hexclusive.onLoan_iff hasset
  · intro loanId loan hloan
    exact Option.isSome_iff_exists.mp (hexclusive.asset_exists loanId loan hloan)
  · intro borrower assetId principalStroops env id s' hopen
    exact hids.fresh hinj hopen
  · intro before later hsplit loanId loan hloan hinactive
    subst hsplit
    rw [Run.final_append]
    exact final_keeps_inactive hinj (reachable_loanIdsCounted ⟨before, rfl⟩) hloan hinactive later

/-! ## A loan that is repaid and reopened -/

/-- The id of an asset registered in ledger seven, under the identity hash. -/
def sampleAssetId : BytesN := assetIdAt BytesN.mk 7

/-- A loan is opened, repaid in full and opened again in the same ledger, next to a
registration in a later one. -/
def reopenedRun : List (Invocation Op) :=
  [⟨.signedBy 1 [⟨0⟩], .initializeContract sampleConfig⟩,
    ⟨.signedBy 7 [⟨4⟩], .registerAsset ⟨4⟩ "cow" "A1" 1000⟩,
    ⟨.signedBy 9 [⟨4⟩], .openLoan ⟨4⟩ sampleAssetId 100⟩,
    ⟨.signedBy 9 [⟨4⟩], .repayLoan ⟨4⟩ (newLoanId BytesN.mk 9 sampleAssetId 1) 105⟩,
    ⟨.signedBy 9 [⟨4⟩], .openLoan ⟨4⟩ sampleAssetId 100⟩,
    ⟨.signedBy 9 [⟨5⟩], .registerAsset ⟨5⟩ "goat" "B2" 10⟩]

theorem reopenedRun_exclusive : CollateralExclusive BytesN.mk reopenedRun := by
  apply collateral_exclusive BytesN.mk_injective
  have hledgers : (7 : U32) ≠ 9 := by decide
  simp only [DistinctLedgers, history, reopenedRun, Run.trace_cons, Run.trace_nil,
    List.pairwise_cons, List.mem_cons, List.not_mem_nil, or_false, forall_eq_or_imp, forall_eq,
    List.Pairwise.nil, and_true, false_implies, implies_true, Registers]
  simp [hledgers, Env.signedBy]

end StellarKraal
end Kraal
