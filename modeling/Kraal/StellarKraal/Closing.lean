import Kraal.StellarKraal.Liquidation

/-!
# Closing a loan of StellarKraal

A loan is closed by a repayment that covers what has accrued.  The accrual multiplies the
balance by the rate and by the elapsed ledgers before it divides, and neither the rate
nor the size of a loan is bounded when it is admitted, so the products can leave the
integer type.  Then nobody can repay or liquidate the loan, and its asset stays locked.

Main results:

- Theorem {lit}`exists_accrued_iff`: when an accrual returns.
- Theorem {lit}`closable_iff`: when a loan of a reachable state can be closed.
- Theorem {lit}`loan_locked`: an accepted configuration under which a loan never can.
-/

namespace Kraal
namespace StellarKraal

open Foundation

variable {sha256 : Bytes → BytesN}

/-! ## When the accrual returns -/

/-- The products and the sum of an accrual are representable. -/
structure AccrualFits (balance rateBps ledgers : Int) : Prop where
  product : MInt.InRange IntType.i128 (balance * rateBps)
  total : MInt.InRange IntType.i128 (balance * rateBps * ledgers)
  sum : MInt.InRange IntType.i128 (balance + interest balance rateBps ledgers)

/-- An accrual returns exactly when its products and its sum are representable. -/
theorem exists_accrued_iff {balance rateBps ledgers : I128} :
    (∃ accrued, Accrued balance rateBps ledgers accrued) ↔
      AccrualFits balance.toInt rateBps.toInt ledgers.toInt := by
  constructor
  · intro h
    rcases h with ⟨accrued, ⟨product, total, fee, hproduct, htotal, -⟩, haccrued⟩
    rw [hproduct] at htotal
    exact ⟨MInt.inRange_iff_exists.mpr ⟨product, hproduct⟩,
      MInt.inRange_iff_exists.mpr ⟨total, htotal⟩, MInt.inRange_iff_exists.mpr ⟨accrued, haccrued⟩⟩
  · intro h
    rcases MInt.inRange_iff_exists.mp h.product with ⟨product, hproduct⟩
    rcases MInt.inRange_iff_exists.mp h.total with ⟨total, htotal⟩
    rcases MInt.inRange_iff_exists.mp h.sum with ⟨accrued, haccrued⟩
    have hquotient := h.total.tdiv (by decide : (0 : Int) < 63072000000)
    rcases MInt.inRange_iff_exists.mp hquotient with ⟨fee, hfee⟩
    refine ⟨accrued, ⟨product, total, fee, hproduct, ?_, ?_⟩, haccrued⟩
    · rw [htotal, hproduct]
    · rw [hfee, htotal]

/-! ## When a loan can be closed -/

/-- A repayment closes a loan: nothing is left, and the asset is free. -/
def RepayCloses (caller : Address) (loanId : BytesN) (loan : Loan) (repaymentStroops : I128)
    (env : Env) (s : Store) : Prop :=
  ∃ s' closed asset, repayLoan caller loanId repaymentStroops env s = .ok (0, s') ∧
    s'.loans.get loanId = some closed ∧ closed.balance = 0 ∧ closed.active = false ∧
    s'.assets.get loan.assetId = some asset ∧ asset.onLoan = false

/-- Every large enough repayment closes a loan. -/
def Closable (caller : Address) (loanId : BytesN) (loan : Loan) (env : Env) (s : Store) : Prop :=
  ∃ enough : I128, ∀ repaymentStroops, enough ≤ repaymentStroops →
    RepayCloses caller loanId loan repaymentStroops env s

/-- A repayment that returns has accrued the interest. -/
theorem Closable.fits {caller : Address} {loanId : BytesN} {loan : Loan} {env : Env} {s : Store}
    {cfg : Config} (h : Closable caller loanId loan env s) (hcfg : s.config = some cfg)
    (hloan : s.loans.get loanId = some loan) :
    AccrualFits loan.balance.toInt cfg.interestRateBps.toInt
      (elapsed env.sequence loan.updatedAt).toInt := by
  rcases h with ⟨enough, hcloses⟩
  rcases hcloses enough (le_refl enough.toInt) with ⟨s', closed, asset, hrepay, -⟩
  rcases repayLoan_eq_ok.mp hrepay with ⟨cfg', loan', accrued, haccrues, -⟩
  have hcfg' := haccrues.config
  have hloan' := haccrues.stored
  rw [hcfg, Option.some.injEq] at hcfg'
  rw [hloan, Option.some.injEq] at hloan'
  subst hcfg'
  subst hloan'
  exact exists_accrued_iff.mp ⟨accrued, haccrues.accrued_eq⟩

/-- A repayment of at least the accrued balance closes the loan. -/
theorem repayCloses_of_accrued {caller : Address} {loanId : BytesN} {loan : Loan}
    {repaymentStroops : I128} {env : Env} {s : Store} {cfg : Config} {accrued : I128}
    (haccrues : LoanAccrues caller loanId env s cfg loan accrued)
    (hasset : (s.assets.get loan.assetId).isSome = true)
    (hcovers : accrued ≤ repaymentStroops) :
    RepayCloses caller loanId loan repaymentStroops env s := by
  rcases Option.isSome_iff_exists.mp hasset with ⟨asset, hstored⟩
  have hall : RepaysAll accrued repaymentStroops := .inr hcovers
  refine ⟨_, closedLoan loan env.sequence, { asset with onLoan := false },
    repayLoan_eq_ok.mpr ⟨cfg, loan, accrued, haccrues, .inl ⟨hall, rfl, asset, hstored, rfl⟩⟩,
    ?_, rfl, rfl, ?_, rfl⟩
  · exact Storage.get_set_self _ _ _
  · exact Storage.get_set_self _ _ _

/-- An active loan can be closed in a ledger exactly when the accrual up to it stays
within the integer type. -/
theorem closable_iff {s : Store} {cfg : Config} {caller : Address} {loanId : BytesN} {loan : Loan}
    {env : Env} (hs : Run.Reachable (step (exec sha256)) Store.empty s)
    (hcfg : s.config = some cfg) (hloan : s.loans.get loanId = some loan)
    (hactive : loan.active = true) (hauth : env.authorized caller = true) :
    Closable caller loanId loan env s ↔
      AccrualFits loan.balance.toInt cfg.interestRateBps.toInt
        (elapsed env.sequence loan.updatedAt).toInt := by
  constructor
  · intro h
    exact h.fits hcfg hloan
  · intro hfits
    rcases exists_accrued_iff.mpr hfits with ⟨accrued, haccrued⟩
    refine ⟨accrued, fun repaymentStroops hcovers => ?_⟩
    exact repayCloses_of_accrued ⟨hcfg, hauth, hloan, hactive, haccrued⟩
      (assetsExist_reachable hs loanId loan hloan) hcovers

/-! ## A rate that locks every loan -/

/-- The largest rate there is, which is accepted. -/
def lockingConfig : Config := { sampleConfig with interestRateBps := MInt.maxValue IntType.i128 }

theorem lockingConfig_accepted : ConfigAccepted lockingConfig :=
  ⟨by decide, by decide, by decide⟩

theorem lockedLoan_reachable (sha256 : Bytes → BytesN) :
    Run.Reachable (step (exec sha256)) Store.empty
      (borrowedStore sha256 lockingConfig 100 105) := by
  apply borrowedStore_reachable lockingConfig_accepted
  exact openLoan_ownedStore (by decide : (6000000 : I128).toInt = _)
    (by decide : (600 : I128).toInt = _) (by decide) (by decide)

/-- Under every hash, an owner who borrows a hundred can never repay it. -/
theorem loan_locked : ¬ ∃ sha256 : Bytes → BytesN, ∀ s cfg caller loanId loan env,
    Run.Reachable (step (exec sha256)) Store.empty s → s.config = some cfg →
      s.loans.get loanId = some loan → loan.active = true → env.authorized caller = true →
      Closable caller loanId loan env s := by
  intro h
  rcases h with ⟨sha256, hclosable⟩
  have hloan := hclosable (borrowedStore sha256 lockingConfig 100 105) lockingConfig ⟨4⟩
    (sampleLoanId sha256) (ownerLoan sha256 100 105) (.signedBy 9 [⟨4⟩])
    (lockedLoan_reachable sha256) rfl (Storage.get_set_self _ _ _) rfl rfl
  have hfits := hloan.fits rfl (Storage.get_set_self _ _ _)
  have hproduct : 105 * IntType.i128.hi ≤ IntType.i128.hi := hfits.product.2
  exact absurd hproduct (by decide)

theorem openedStore_closable_iff :
    Closable ⟨4⟩ (sampleLoanId BytesN.mk) (sampleLoan BytesN.mk) (.signedBy 700009 [⟨4⟩])
        (openedStore BytesN.mk ⟨4⟩ (sampleLoanId BytesN.mk)) ↔
      AccrualFits 105 500 700000 :=
  closable_iff (openedStore_reachable BytesN.mk) rfl (Storage.get_set_self _ _ _) rfl rfl

end StellarKraal
end Kraal
