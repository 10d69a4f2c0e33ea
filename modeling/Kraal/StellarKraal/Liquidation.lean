import Kraal.StellarKraal.Interest

/-!
# Liquidation of StellarKraal

A loan can be liquidated once its health factor, computed from the accrued balance, is
below 120.  Read as a condition on exact products, the truncated quotient compares the
balance with a fixed limit, so the decision only moves one way as interest accrues.
The public view of the health factor reads the balance as it was stored instead.

Main results:

- Theorem {lit}`healthFactor_safe_iff`: the limit that the health factor stands for.
- Theorem {lit}`liquidate_outcome`: how a liquidation of an active loan can end.
- Theorem {lit}`liquidation_margin`: a new loan is safe in its ledger, and a loan that can
  be liquidated stays so.
- Theorem {lit}`health_view_agrees_iff`: when the view predicts the liquidation.
- Theorem {lit}`health_view_disagrees`: a loan that it calls safe and that is liquidated.
-/

namespace Kraal
namespace StellarKraal

open Foundation

variable {sha256 : Bytes → BytesN}

/-! ## What every run keeps -/

/-- A stored configuration is never replaced. -/
theorem config_step {s : Store} {cfg : Config} (h : s.config = some cfg) (i : Invocation Op) :
    (step (exec sha256) s i).config = some cfg := by
  refine step_induction (P := fun t : Store => t.config = some cfg) h ?_
  intro s' hok
  rcases exec_cases hok with ⟨cfg', -, hnone, -, -⟩ |
    ⟨owner, animalType, tagId, appraisedValueXlm, -, hregister⟩ |
    ⟨borrower, assetId, principalStroops, id, -, hopen⟩ |
    ⟨caller, loanId, repaymentStroops, cfg', loan, accrued, -, -, -, rfl⟩ |
    ⟨caller, loanId, cfg', loan, accrued, -, -, asset, -, rfl⟩ |
    ⟨oracle, price, -, rfl⟩
  · rw [h] at hnone
    cases hnone
  · rcases registerAsset_eq_ok.mp hregister with ⟨-, -, -, rfl⟩
    exact h
  · rcases openLoan_eq_ok.mp hopen with ⟨cfg', asset, balance, nonce, -, -, -, -, rfl⟩
    exact h
  · exact h
  · exact h
  · exact h

theorem config_reachable {s t : Store} {cfg : Config} (h : s.config = some cfg)
    (ht : Run.Reachable (step (exec sha256)) s t) : t.config = some cfg :=
  ht.invariant (I := fun t => t.config = some cfg) h fun _ i hs => config_step hs i

/-- Every loan names a stored asset. -/
def AssetsExist (s : Store) : Prop :=
  ∀ loanId loan, s.loans.get loanId = some loan → (s.assets.get loan.assetId).isSome = true

/-- Assets are overwritten and never removed. -/
theorem isSome_withAsset {s : Store} {id assetId : BytesN} {asset : Asset}
    (h : (s.assets.get assetId).isSome = true) :
    ((s.withAsset id asset).assets.get assetId).isSome = true := by
  rw [Store.withAsset_assets, Storage.get_set]
  split
  · rfl
  · exact h

theorem AssetsExist.withAsset {s : Store} (hs : AssetsExist s) (id : BytesN) (asset : Asset) :
    AssetsExist (s.withAsset id asset) :=
  fun loanId loan hloan => isSome_withAsset (hs loanId loan hloan)

theorem AssetsExist.withLoan {s : Store} (hs : AssetsExist s) {id : BytesN} {loan : Loan}
    (hasset : (s.assets.get loan.assetId).isSome = true) : AssetsExist (s.withLoan id loan) :=
  Storage.forall_get_set hs hasset

theorem AssetsExist.step {s : Store} (hs : AssetsExist s) (i : Invocation Op) :
    AssetsExist (Kraal.step (exec sha256) s i) := by
  apply step_induction hs
  intro s' hok
  rcases exec_cases hok with ⟨cfg, -, -, -, rfl⟩ |
    ⟨owner, animalType, tagId, appraisedValueXlm, -, hregister⟩ |
    ⟨borrower, assetId, principalStroops, id, -, hopen⟩ |
    ⟨caller, loanId, repaymentStroops, cfg, loan, accrued, -, haccrues, -, rfl⟩ |
    ⟨caller, loanId, cfg, loan, accrued, -, haccrues, asset, hasset, rfl⟩ |
    ⟨oracle, price, -, rfl⟩
  · exact hs
  · rcases registerAsset_eq_ok.mp hregister with ⟨-, -, -, rfl⟩
    exact hs.withAsset _ _
  · rcases openLoan_eq_ok.mp hopen with ⟨cfg, asset, balance, nonce, -, -, -, -, rfl⟩
    apply AssetsExist.withLoan (hs.withAsset assetId _)
    change ((s.assets.set assetId _).get assetId).isSome = true
    rw [Storage.get_set_self]
    rfl
  · exact hs.withLoan (hs loanId loan haccrues.stored)
  · exact (hs.withAsset _ _).withLoan (isSome_withAsset (hs loanId loan haccrues.stored))
  · exact hs

theorem assetsExist_reachable {s : Store} (hs : Run.Reachable (step (exec sha256)) Store.empty s) :
    AssetsExist s := by
  refine hs.invariant ?_ fun _ i h => h.step i
  intro loanId loan hloan
  simp [Store.empty] at hloan

/-! ## The limit of a health factor -/

/-- A balance is on the safe side of the limit that the collateral sets: in exact
arithmetic, with a case for each sign. -/
def SafeBalance (appraisedValue threshold balance : Int) : Prop :=
  balance = 0 ∨ 0 < balance ∧ 12000 * balance ≤ appraisedValue * threshold ∨
    balance < 0 ∧ appraisedValue * threshold ≤ 12000 * balance

/-- A larger debt is no safer. -/
theorem SafeBalance.anti {appraisedValue threshold balance balance' : Int}
    (h : SafeBalance appraisedValue threshold balance') (hpos : 0 < balance)
    (hle : balance ≤ balance') : SafeBalance appraisedValue threshold balance := by
  unfold SafeBalance at *
  omega

/-- The truncated health factor compares the balance with the limit. -/
theorem healthFactor_safe_iff {cfg : Config} {s : Store} {loan : Loan} {hf : I128} {asset : Asset}
    (h : HealthFactor cfg s loan hf) (hasset : s.assets.get loan.assetId = some asset) :
    120 ≤ hf.toInt ↔ SafeBalance asset.appraisedValueXlm.toInt
      cfg.liquidationThresholdBps.toInt loan.balance.toInt := by
  rcases h with ⟨hzero, rfl⟩ | ⟨hne, asset', hasset', scaled, numerator, denominator, hscaled,
    hnumerator, hdenominator, -, hf_eq⟩
  · rw [MInt.eq_zero_iff] at hzero
    have hmax : (120 : Int) ≤ IntType.i128.hi := by decide
    exact iff_of_true hmax (.inl hzero)
  · rw [hasset, Option.some.injEq] at hasset'
    subst hasset'
    rw [Ne, MInt.eq_zero_iff] at hne
    rw [hf_eq, ← not_lt, SafeBalance]
    rcases lt_or_gt_of_ne hne with hneg | hpos
    · rw [tdiv_lt_iff_of_neg (by omega) (by decide), hnumerator, hscaled, hdenominator]
      omega
    · rw [tdiv_lt_iff (by omega) (by decide), hnumerator, hscaled, hdenominator]
      omega

/-! ## How a liquidation ends -/

theorem accrue_eq_error {balance rateBps ledgers : I128} {env : Env} {s : Store}
    {f : Fault Error} (h : accrue balance rateBps ledgers env s = .error f) :
    f = .error .arithmeticError := by
  simp only [accrue, Call.bind_eq_error, Call.okOr_eq_error, Call.okOr_eq_ok] at h
  rcases h with ⟨-, h⟩ | ⟨_, _, -, ⟨-, h⟩ | ⟨_, _, -, ⟨-, h⟩ | ⟨_, _, -, ⟨-, h⟩ |
    ⟨_, _, -, -, h⟩⟩⟩⟩
  all_goals exact h

theorem accrueLoan_eq_error {cfg : Config} {loan : Loan} {env : Env} {s : Store} {f : Fault Error}
    (h : accrueLoan cfg loan env s = .error f) : f = .error .arithmeticError := by
  rw [accrueLoan, Call.bind_of_ok rfl] at h
  rcases Call.bind_eq_error.mp h with haccrue | ⟨_, _, -, hpure⟩
  · exact accrue_eq_error haccrue
  · cases hpure

theorem healthFactorInner_eq_error {cfg : Config} {loan : Loan} {env : Env} {s : Store}
    {f : Fault Error} (hasset : (s.assets.get loan.assetId).isSome = true)
    (h : healthFactorInner cfg loan env s = .error f) : f = .error .arithmeticError := by
  rcases Option.isSome_iff_exists.mp hasset with ⟨asset, hstored⟩
  by_cases hzero : loan.balance = 0
  · rw [healthFactorInner, if_pos hzero] at h
    cases h
  · rw [healthFactorInner, if_neg hzero, Call.bind_of_ok rfl, hstored, Call.bind_of_ok rfl] at h
    simp only [Call.bind_eq_error, Call.okOr_eq_error, Call.okOr_eq_ok] at h
    rcases h with ⟨-, h⟩ | ⟨_, _, -, ⟨-, h⟩ | ⟨_, _, -, ⟨-, h⟩ | ⟨_, _, -, -, h⟩⟩⟩
    all_goals exact h

/-- Closing a loan whose asset is stored does not fail. -/
theorem closeLoan_succeeds {loanId : BytesN} {loan : Loan} {env : Env} {s : Store}
    (hasset : (s.assets.get loan.assetId).isSome = true) :
    (closeLoan loanId loan).Succeeds env s := by
  rcases Option.isSome_iff_exists.mp hasset with ⟨asset, hstored⟩
  have hcloses : Closes loanId loan loan.updatedAt s _ := ⟨asset, hstored, rfl⟩
  exact ⟨((), _), closeLoan_eq_ok.mpr hcloses⟩

/-- The accrual and the health check of a liquidation. -/
def ChecksHealth (cfg : Config) (loan : Loan) (env : Env) (s : Store) (hf : I128) : Prop :=
  ∃ accrued, accrueLoan cfg loan env s = .ok (accrued, s) ∧
    healthFactorInner cfg accrued env s = .ok (hf, s)

/-- A liquidation of an active loan fails in its arithmetic, or its health check decides. -/
theorem liquidate_outcome {liquidator : Address} {loanId : BytesN} {env : Env} {s : Store}
    {cfg : Config} {loan : Loan} (hcfg : s.config = some cfg)
    (hauth : env.authorized liquidator = true) (hloan : s.loans.get loanId = some loan)
    (hactive : loan.active = true) (hasset : (s.assets.get loan.assetId).isSome = true) :
    liquidate liquidator loanId env s = .error (.error .arithmeticError) ∨
      ∃ hf, ChecksHealth cfg loan env s hf ∧
        (120 ≤ hf.toInt ∧ liquidate liquidator loanId env s = .error (.error .healthFactorSafe) ∨
          hf.toInt < 120 ∧ (liquidate liquidator loanId).Succeeds env s) := by
  have hconfig : requireConfig env s = .ok (cfg, s) := requireConfig_eq_ok.mpr ⟨hcfg, rfl⟩
  have hsigned : (requireAuth liquidator : KraalCall Unit) env s = .ok ((), s) :=
    requireAuth_eq_ok.mpr ⟨hauth, rfl⟩
  have hload : loadActiveLoan loanId env s = .ok (loan, s) :=
    loadActiveLoan_eq_ok.mpr ⟨hloan, hactive, rfl⟩
  unfold Call.Succeeds
  generalize hresult : liquidate liquidator loanId env s = result
  rw [liquidate, Call.bind_of_ok hconfig, Call.bind_of_ok hsigned, Call.bind_of_ok hload]
    at hresult
  cases haccrue : accrueLoan cfg loan env s with
  | error f =>
      rw [Call.bind_of_error haccrue, accrueLoan_eq_error haccrue] at hresult
      exact .inl hresult.symm
  | ok p =>
      rcases accrueLoan_eq_ok.mp haccrue with ⟨balance, -, rfl⟩
      rw [Call.bind_of_ok haccrue] at hresult
      cases hhealth : healthFactorInner cfg { loan with balance, updatedAt := env.sequence }
          env s with
      | error f =>
          have hfault : f = .error .arithmeticError :=
            healthFactorInner_eq_error (by exact hasset) hhealth
          rw [Call.bind_of_error hhealth, hfault] at hresult
          exact .inl hresult.symm
      | ok q =>
          rcases q with ⟨hf, s'⟩
          have hs : s' = s := (healthFactorInner_eq_ok.mp hhealth).2
          subst hs
          rw [Call.bind_of_ok hhealth] at hresult
          by_cases hlimit : hf ≥ 120
          · rw [Call.bind_of_error (Call.failIf_eq_error.mpr ⟨hlimit, rfl⟩)] at hresult
            exact .inr ⟨hf, ⟨_, haccrue, hhealth⟩, .inl ⟨hlimit, hresult.symm⟩⟩
          · rw [Call.bind_of_ok (Call.failIf_eq_ok.mpr ⟨hlimit, rfl⟩)] at hresult
            cases result with
            | ok p => exact .inr ⟨hf, ⟨_, haccrue, hhealth⟩, .inr ⟨not_le.mp hlimit, p, rfl⟩⟩
            | error f =>
                -- what remains is the arithmetic of the bonus and closing the loan
                simp only [Call.bind_eq_error, Call.okOr_eq_error, Call.okOr_eq_ok,
                  Call.pure_eq_error, and_false, exists_false, or_false] at hresult
                rcases hresult with ⟨-, rfl⟩ | ⟨bonus, _, ⟨-, rfl⟩, ⟨-, rfl⟩ |
                  ⟨scaled, _, ⟨-, rfl⟩, ⟨-, rfl⟩ | ⟨seized, _, ⟨-, rfl⟩, hclose⟩⟩⟩
                · exact .inl rfl
                · exact .inl rfl
                · exact .inl rfl
                · exact absurd hclose (closeLoan_succeeds (by exact hasset)).ne_error

theorem liquidate_unauthorized {liquidator : Address} {loanId : BytesN} {env : Env} {s : Store}
    {cfg : Config} (hcfg : s.config = some cfg) (hauth : env.authorized liquidator = false) :
    liquidate liquidator loanId env s = .error .trap := by
  have hconfig : requireConfig env s = .ok (cfg, s) := requireConfig_eq_ok.mpr ⟨hcfg, rfl⟩
  rw [liquidate, Call.bind_of_ok hconfig]
  exact Call.bind_of_error (requireAuth_eq_error.mpr ⟨hauth, rfl⟩)

/-- The health check of a liquidation compares the accrued debt with the limit. -/
theorem ChecksHealth.safe_iff {cfg : Config} {loan : Loan} {env : Env} {s : Store} {hf : I128}
    {asset : Asset} (h : ChecksHealth cfg loan env s hf)
    (hasset : s.assets.get loan.assetId = some asset) :
    120 ≤ hf.toInt ↔ SafeBalance asset.appraisedValueXlm.toInt
      cfg.liquidationThresholdBps.toInt (debt cfg loan env.sequence) := by
  rcases h with ⟨accrued, haccrue, hhealth⟩
  rcases accrueLoan_eq_ok.mp haccrue with ⟨balance, haccrued, hsame⟩
  cases hsame
  have hdebt : balance.toInt = debt cfg loan env.sequence := haccrued.2
  have hfactor := (healthFactorInner_eq_ok.mp hhealth).1
  rw [healthFactor_safe_iff hfactor hasset]
  change SafeBalance _ _ balance.toInt ↔ _
  rw [hdebt]

/-! ## The margin of a new loan -/

/-- A later state in which a loan and its asset are as they were. -/
structure Untouched (sha256 : Bytes → BytesN) (s t : Store) (assetId loanId : BytesN) : Prop where
  later : Run.Reachable (step (exec sha256)) s t
  same_loan : t.loans.get loanId = s.loans.get loanId
  same_asset : t.assets.get assetId = s.assets.get assetId

/-- The health check of a liquidation passes. -/
def PassesHealthCheck (loanId : BytesN) (env : Env) (s : Store) : Prop :=
  ∃ cfg loan hf, s.config = some cfg ∧ s.loans.get loanId = some loan ∧ loan.active = true ∧
    ChecksHealth cfg loan env s hf ∧ hf.toInt < 120

/-- What a loan opened in a ledger promises as long as nothing touches it. -/
structure LiquidationMargin (sha256 : Bytes → BytesN) (s : Store) (assetId loanId : BytesN)
    (opening : U32) : Prop where
  safe_at_opening : ∀ t, Untouched sha256 s t assetId loanId → ∀ liquidator env,
    env.sequence = opening → ¬ (liquidate liquidator loanId).Succeeds env t ∧
      (env.authorized liquidator = true →
        liquidate liquidator loanId env t = .error (.error .healthFactorSafe) ∨
        liquidate liquidator loanId env t = .error (.error .arithmeticError))
  upward_closed : ∀ t t', Untouched sha256 s t assetId loanId →
    Untouched sha256 s t' assetId loanId → ∀ env env', env.sequence ≤ env'.sequence →
    PassesHealthCheck loanId env t → ∀ liquidator,
      liquidate liquidator loanId env' t' ≠ .error (.error .healthFactorSafe)
  accrual_mono : ∀ t t', Untouched sha256 s t assetId loanId →
    Untouched sha256 s t' assetId loanId → ∀ env env', env.sequence ≤ env'.sequence →
    ∀ cfg loan accrued accrued', t.config = some cfg → t.loans.get loanId = some loan →
      accrueLoan cfg loan env t = .ok (accrued, t) →
      accrueLoan cfg loan env' t' = .ok (accrued', t') →
      accrued.balance ≤ accrued'.balance

/-- A principal within the loan-to-value limit is on the safe side of the liquidation
limit, if the threshold leaves a fifth of it as a margin. -/
theorem safeBalance_principal {appraisedValue ratio threshold principal : Int}
    (hratio : 0 < ratio) (hmargin : 120 * ratio ≤ 100 * threshold) (hprincipal : 0 < principal)
    (hltv : principal ≤ (appraisedValue * ratio).tdiv 10000) :
    SafeBalance appraisedValue threshold principal := by
  have hscaled : 10000 * principal ≤ appraisedValue * ratio := by
    by_contra hlt
    have hquotient := (tdiv_lt_iff (a := appraisedValue * ratio) (by decide : (0 : Int) < 10000)
      hprincipal).mpr (by omega)
    omega
  have hvalue : 0 < appraisedValue := by
    have hpos : 0 < appraisedValue * ratio := by omega
    exact (mul_pos_iff_of_pos_right hratio).mp hpos
  have hthreshold : appraisedValue * (120 * ratio) ≤ appraisedValue * (100 * threshold) :=
    mul_le_mul_of_nonneg_left hmargin hvalue.le
  right
  left
  constructor
  · exact hprincipal
  · linarith

/-- The rows that an opened loan leaves, as an untouched state still has them. -/
structure OpenedRows (t : Store) (cfg : Config) (assetId loanId : BytesN) (opening : U32)
    (loan : Loan) (asset : Asset) : Prop where
  config : t.config = some cfg
  loan_stored : t.loans.get loanId = some loan
  active : loan.active = true
  updated : loan.updatedAt = opening
  asset_stored : t.assets.get loan.assetId = some asset
  balance_pos : 0 < loan.balance.toInt
  safe : SafeBalance asset.appraisedValueXlm.toInt cfg.liquidationThresholdBps.toInt
    loan.balance.toInt

/-- The configurations with a margin between the ratio and the threshold, without a fee. -/
structure MarginConfig (cfg : Config) : Prop where
  accepted : ConfigAccepted cfg
  margin : 120 * cfg.collateralRatioBps.toInt ≤ 100 * cfg.liquidationThresholdBps.toInt
  no_fee : cfg.creationFeeStroops.toInt = 0
  rate_nonneg : 0 ≤ cfg.interestRateBps.toInt

theorem opened_rows {borrower : Address} {assetId loanId : BytesN} {principalStroops : I128}
    {env : Env} {s s' : Store} {cfg : Config} (hcfg : s.config = some cfg)
    (hmargin : MarginConfig cfg)
    (hprincipal : 0 < principalStroops.toInt)
    (hopen : openLoan sha256 borrower assetId principalStroops env s = .ok (loanId, s')) :
    ∃ loan asset, ∀ t, Untouched sha256 s' t assetId loanId →
      OpenedRows t cfg assetId loanId env.sequence loan asset := by
  rcases openLoan_eq_ok.mp hopen with ⟨cfg', asset, balance, nonce, haccepted, hbalance, -, -, hs⟩
  have hsame := haccepted.config
  rw [hcfg, Option.some.injEq] at hsame
  subst hsame
  rw [hmargin.no_fee, add_zero] at hbalance
  rcases haccepted.within_ltv with ⟨scaled, maxPrincipal, hscaled, hmax, hle⟩
  rw [hmax, hscaled] at hle
  have hsafe := safeBalance_principal hmargin.accepted.ratio_pos hmargin.margin hprincipal hle
  have hloan := congrArg (fun u => u.loans.get loanId) hs
  have hasset := congrArg (fun u => u.assets.get assetId) hs
  simp only [Store.withLoan_loans, Store.withLoan_assets, Store.withCounter_assets,
    Store.withAsset_assets, Storage.get_set_self] at hloan hasset
  have hconfig : s'.config = some cfg := by
    rw [hs]
    exact hcfg
  refine ⟨_, _, fun t ht => ⟨config_reachable hconfig ht.later, ht.same_loan.trans hloan, rfl, rfl,
    ht.same_asset.trans hasset, ?_, ?_⟩⟩
  · rw [hbalance]
    exact hprincipal
  · rw [hbalance]
    exact hsafe

/-- No interest accrues in the ledger of the last touch. -/
theorem debt_self (cfg : Config) (loan : Loan) :
    debt cfg loan loan.updatedAt = loan.balance.toInt := by
  have helapsed : (elapsed loan.updatedAt loan.updatedAt).toInt = 0 := by
    rw [toInt_elapsed, sub_self, max_self]
  rw [debt, interest, helapsed, mul_zero, Int.zero_tdiv, add_zero]

namespace OpenedRows

variable {t : Store} {cfg : Config} {assetId loanId : BytesN} {opening : U32} {loan : Loan}
  {asset : Asset}

theorem asset_isSome (h : OpenedRows t cfg assetId loanId opening loan asset) :
    (t.assets.get loan.assetId).isSome = true := by
  rw [h.asset_stored]
  rfl

/-- A liquidation that calls the loan safe has checked that it is. -/
theorem safe_of_liquidate (h : OpenedRows t cfg assetId loanId opening loan asset)
    {liquidator : Address} {env : Env}
    (hsafe : liquidate liquidator loanId env t = .error (.error .healthFactorSafe)) :
    SafeBalance asset.appraisedValueXlm.toInt cfg.liquidationThresholdBps.toInt
      (debt cfg loan env.sequence) := by
  cases hauth : env.authorized liquidator with
  | false =>
      rw [liquidate_unauthorized h.config hauth] at hsafe
      cases hsafe
  | true =>
      rcases liquidate_outcome h.config hauth h.loan_stored h.active h.asset_isSome with
        hfail | ⟨hf, hchecks, ⟨hge, -⟩ | ⟨-, hok⟩⟩
      · rw [hfail] at hsafe
        cases hsafe
      · exact (hchecks.safe_iff h.asset_stored).mp hge
      · exact absurd hsafe hok.ne_error

/-- A liquidation whose health check passes has found the debt past the limit. -/
theorem not_safe_of_passes (h : OpenedRows t cfg assetId loanId opening loan asset) {env : Env}
    (hpasses : PassesHealthCheck loanId env t) :
    ¬ SafeBalance asset.appraisedValueXlm.toInt cfg.liquidationThresholdBps.toInt
      (debt cfg loan env.sequence) := by
  rcases hpasses with ⟨cfg', loan', hf, hcfg, hloan, -, hchecks, hlt⟩
  rw [h.config, Option.some.injEq] at hcfg
  rw [h.loan_stored, Option.some.injEq] at hloan
  subst hcfg
  subst hloan
  rw [← hchecks.safe_iff h.asset_stored, not_le]
  exact hlt

/-- In the ledger of its opening the loan is safe. -/
theorem liquidate_opening (h : OpenedRows t cfg assetId loanId opening loan asset)
    (liquidator : Address) {env : Env} (hledger : env.sequence = opening) :
    ¬ (liquidate liquidator loanId).Succeeds env t ∧
      (env.authorized liquidator = true →
        liquidate liquidator loanId env t = .error (.error .healthFactorSafe) ∨
        liquidate liquidator loanId env t = .error (.error .arithmeticError)) := by
  have hsafe : SafeBalance asset.appraisedValueXlm.toInt cfg.liquidationThresholdBps.toInt
      (debt cfg loan env.sequence) := by
    rw [hledger, ← h.updated, debt_self]
    exact h.safe
  cases hauth : env.authorized liquidator with
  | false =>
      refine ⟨fun hok => hok.ne_error (liquidate_unauthorized h.config hauth), ?_⟩
      intro htrue
      cases htrue
  | true =>
      rcases liquidate_outcome h.config hauth h.loan_stored h.active h.asset_isSome with
        hfail | ⟨hf, hchecks, ⟨-, hfail⟩ | ⟨hlt, -⟩⟩
      · exact ⟨fun hok => hok.ne_error hfail, fun _ => .inr hfail⟩
      · exact ⟨fun hok => hok.ne_error hfail, fun _ => .inl hfail⟩
      · exact absurd ((hchecks.safe_iff h.asset_stored).mpr hsafe) (not_le.mpr hlt)

end OpenedRows

/-- A loan that is opened in a configuration with a margin is not liquidated in its
ledger, and once it can be liquidated it stays so. -/
theorem liquidation_margin {borrower : Address} {assetId loanId : BytesN}
    {principalStroops : I128} {env : Env} {s s' : Store} {cfg : Config}
    (hcfg : s.config = some cfg) (hmargin : MarginConfig cfg)
    (hprincipal : 0 < principalStroops.toInt)
    (hopen : openLoan sha256 borrower assetId principalStroops env s = .ok (loanId, s')) :
    LiquidationMargin sha256 s' assetId loanId env.sequence := by
  rcases opened_rows hcfg hmargin hprincipal hopen with ⟨loan, asset, hrows⟩
  refine ⟨?_, ?_, ?_⟩
  · intro t ht liquidator env' hledger
    exact (hrows t ht).liquidate_opening liquidator hledger
  · intro t t' ht ht' env₁ env₂ hle hpasses liquidator hfails
    have h := hrows t ht
    have hsafe := (hrows t' ht').safe_of_liquidate hfails
    -- the debt only grows, so it was on the safe side before
    have hearlier := hsafe.anti
      (h.balance_pos.trans_le (balance_le_debt hmargin.rate_nonneg h.balance_pos.le env₁.sequence))
      (debt_mono hmargin.rate_nonneg h.balance_pos.le hle)
    exact h.not_safe_of_passes hpasses hearlier
  · intro t t' ht ht' env₁ env₂ hle cfg' loan' accrued accrued' hcfg' hloan' haccrued haccrued'
    have h := hrows t ht
    rw [h.config, Option.some.injEq] at hcfg'
    rw [h.loan_stored, Option.some.injEq] at hloan'
    subst hcfg'
    subst hloan'
    rcases accrueLoan_eq_ok.mp haccrued with ⟨balance, hbalance, hsame⟩
    rcases accrueLoan_eq_ok.mp haccrued' with ⟨balance', hbalance', hsame'⟩
    cases hsame
    cases hsame'
    have hdebt : balance.toInt = debt cfg loan env₁.sequence := hbalance.2
    have hdebt' : balance'.toInt = debt cfg loan env₂.sequence := hbalance'.2
    rw [MInt.le_def, hdebt, hdebt']
    exact debt_mono hmargin.rate_nonneg h.balance_pos.le hle

/-! ## The view of the health factor -/

theorem healthFactor_eq_ok {loanId : BytesN} {env : Env} {s : Store} {cfg : Config} {loan : Loan}
    (hcfg : s.config = some cfg) (hloan : s.loans.get loanId = some loan) {p : I128 × Store} :
    healthFactor loanId env s = .ok p ↔ HealthFactor cfg s loan p.1 ∧ p.2 = s := by
  have hconfig : requireConfig env s = .ok (cfg, s) := requireConfig_eq_ok.mpr ⟨hcfg, rfl⟩
  rw [healthFactor, Call.bind_of_ok hconfig, Call.bind_of_ok rfl, hloan, Call.bind_of_ok rfl]
  exact healthFactorInner_eq_ok

/-- The view predicts the liquidation of a loan exactly when the interest since its last
touch does not carry the balance across the limit. -/
theorem health_view_agrees_iff {s : Store} {liquidator : Address} {loanId : BytesN} {env : Env}
    {cfg : Config} {loan : Loan} {hf : I128}
    (hs : Run.Reachable (step (exec sha256)) Store.empty s) (hcfg : s.config = some cfg)
    (hloan : s.loans.get loanId = some loan) (hactive : loan.active = true)
    (hauth : env.authorized liquidator = true) (hview : healthFactor loanId env s = .ok (hf, s))
    (harithmetic : liquidate liquidator loanId env s ≠ .error (.error .arithmeticError)) :
    ∃ asset, s.assets.get loan.assetId = some asset ∧
      ((liquidate liquidator loanId env s = .error (.error .healthFactorSafe) ↔ 120 ≤ hf.toInt) ↔
        (SafeBalance asset.appraisedValueXlm.toInt cfg.liquidationThresholdBps.toInt
            loan.balance.toInt ↔
          SafeBalance asset.appraisedValueXlm.toInt cfg.liquidationThresholdBps.toInt
            (debt cfg loan env.sequence))) := by
  have hexists := assetsExist_reachable hs loanId loan hloan
  rcases Option.isSome_iff_exists.mp hexists with ⟨asset, hasset⟩
  have hstored := healthFactor_safe_iff ((healthFactor_eq_ok hcfg hloan).mp hview).1 hasset
  have haccrued : liquidate liquidator loanId env s = .error (.error .healthFactorSafe) ↔
      SafeBalance asset.appraisedValueXlm.toInt cfg.liquidationThresholdBps.toInt
        (debt cfg loan env.sequence) := by
    rcases liquidate_outcome hcfg hauth hloan hactive hexists with
      hfail | ⟨hf', hchecks, ⟨hge, hfail⟩ | ⟨hlt, hok⟩⟩
    · exact absurd hfail harithmetic
    · rw [← hchecks.safe_iff hasset]
      exact iff_of_true hfail hge
    · rw [← hchecks.safe_iff hasset]
      exact iff_of_false hok.ne_error (not_le.mpr hlt)
  refine ⟨asset, hasset, ?_⟩
  rw [haccrued, hstored]
  exact ⟨Iff.symm, Iff.symm⟩

/-! ## A loan at the edge of its collateral -/

/-- An owner registers an animal of value one thousand, and borrows on it. -/
def ownerRun (sha256 : Bytes → BytesN) (cfg : Config) (principalStroops : I128) :
    List (Invocation Op) :=
  [⟨.signedBy 1 [cfg.admin], .initializeContract cfg⟩,
    ⟨.signedBy 7 [⟨4⟩], .registerAsset ⟨4⟩ "cow" "A1" 1000⟩,
    ⟨.signedBy 9 [⟨4⟩], .openLoan ⟨4⟩ (assetIdAt sha256 7) principalStroops⟩]

/-- The state of that run in which the animal is registered. -/
def ownedStore (sha256 : Bytes → BytesN) (cfg : Config) : Store :=
  Store.withAsset { Store.empty with config := some cfg } (assetIdAt sha256 7)
    ⟨⟨4⟩, "cow", "A1", 1000, false⟩

/-- The loan that the owner takes. -/
def ownerLoan (sha256 : Bytes → BytesN) (principalStroops balance : I128) : Loan :=
  ⟨⟨4⟩, assetIdAt sha256 7, principalStroops, balance, 9, 9, true⟩

/-- The state after that run. -/
def borrowedStore (sha256 : Bytes → BytesN) (cfg : Config) (principalStroops balance : I128) :
    Store :=
  (((ownedStore sha256 cfg).withAsset (assetIdAt sha256 7)
    ⟨⟨4⟩, "cow", "A1", 1000, true⟩).withCounter 1).withLoan (sampleLoanId sha256)
      (ownerLoan sha256 principalStroops balance)

theorem openLoan_ownedStore {cfg : Config} {principalStroops balance : I128}
    {scaled maxPrincipal : I128} (hscaled : scaled.toInt = 1000 * cfg.collateralRatioBps.toInt)
    (hmax : maxPrincipal.toInt = scaled.toInt.tdiv 10000)
    (hle : principalStroops.toInt ≤ maxPrincipal.toInt)
    (hbalance : balance.toInt = principalStroops.toInt + cfg.creationFeeStroops.toInt) :
    openLoan sha256 ⟨4⟩ (assetIdAt sha256 7) principalStroops (.signedBy 9 [⟨4⟩])
        (ownedStore sha256 cfg) =
      .ok (sampleLoanId sha256, borrowedStore sha256 cfg principalStroops balance) := by
  refine openLoan_eq_ok.mpr ⟨cfg, ⟨⟨4⟩, "cow", "A1", 1000, false⟩, balance, 1, ?_, hbalance, rfl,
    rfl, rfl⟩
  exact ⟨rfl, rfl, Storage.get_set_self _ _ _, rfl, scaled, maxPrincipal, hscaled, hmax, hle⟩

theorem borrowedStore_reachable {cfg : Config} (haccepted : ConfigAccepted cfg)
    {principalStroops balance : I128}
    (hopen : openLoan sha256 ⟨4⟩ (assetIdAt sha256 7) principalStroops (.signedBy 9 [⟨4⟩])
        (ownedStore sha256 cfg) =
      .ok (sampleLoanId sha256, borrowedStore sha256 cfg principalStroops balance)) :
    Run.Reachable (step (exec sha256)) Store.empty
      (borrowedStore sha256 cfg principalStroops balance) := by
  have hregister : step (exec sha256) { Store.empty with config := some cfg }
      ⟨.signedBy 7 [⟨4⟩], .registerAsset ⟨4⟩ "cow" "A1" 1000⟩ = ownedStore sha256 cfg := by
    apply step_of_ok
    exact Call.bind_eq_ok.mpr ⟨_, _, registerAsset_eq_ok.mpr ⟨rfl, rfl, rfl, rfl⟩, rfl⟩
  have hborrow : step (exec sha256) (ownedStore sha256 cfg)
      ⟨.signedBy 9 [⟨4⟩], .openLoan ⟨4⟩ (assetIdAt sha256 7) principalStroops⟩ =
        borrowedStore sha256 cfg principalStroops balance := by
    apply step_of_ok
    exact Call.bind_eq_ok.mpr ⟨_, _, hopen, rfl⟩
  refine ⟨ownerRun sha256 cfg principalStroops, ?_⟩
  rw [ownerRun, Run.final_cons, step_initializeContract haccepted 1, Run.final_cons, hregister,
    Run.final_cons, hborrow, Run.final_nil]

/-- A configuration with a margin between the ratio and the threshold. -/
def marginConfig : Config := { sampleConfig with creationFeeStroops := 0 }

theorem marginConfig_margin : MarginConfig marginConfig :=
  ⟨⟨by decide, by decide, by decide⟩, by decide, by decide, by decide⟩

/-- The owner borrows as much as the collateral allows. -/
theorem openLoan_maximal (sha256 : Bytes → BytesN) :
    openLoan sha256 ⟨4⟩ (assetIdAt sha256 7) 600 (.signedBy 9 [⟨4⟩])
        (ownedStore sha256 marginConfig) =
      .ok (sampleLoanId sha256, borrowedStore sha256 marginConfig 600 600) :=
  openLoan_ownedStore (by decide : (6000000 : I128).toInt = _) (by decide : (600 : I128).toInt = _)
    (by decide) (by decide)

theorem maximalLoan_margin :
    LiquidationMargin BytesN.mk (borrowedStore BytesN.mk marginConfig 600 600)
      (assetIdAt BytesN.mk 7) (sampleLoanId BytesN.mk) 9 :=
  liquidation_margin rfl marginConfig_margin (by decide) (openLoan_maximal BytesN.mk)

theorem maximalLoan_reachable (sha256 : Bytes → BytesN) :
    Run.Reachable (step (exec sha256)) Store.empty (borrowedStore sha256 marginConfig 600 600) :=
  borrowedStore_reachable marginConfig_margin.accepted (openLoan_maximal sha256)

/-- The view of that loan, in every ledger. -/
theorem maximalLoan_view (sha256 : Bytes → BytesN) (env : Env) :
    healthFactor (sampleLoanId sha256) env (borrowedStore sha256 marginConfig 600 600) =
      .ok (133, borrowedStore sha256 marginConfig 600 600) := by
  have hloan : (borrowedStore sha256 marginConfig 600 600).loans.get (sampleLoanId sha256) =
      some (ownerLoan sha256 600 600) := Storage.get_set_self _ _ _
  have hne : (600 : I128) ≠ 0 := by decide
  refine (healthFactor_eq_ok rfl hloan).mpr ⟨.inr ⟨hne, _, Storage.get_set_self _ _ _, ?_⟩, rfl⟩
  exact ⟨8000000, 800000000, 6000000, rfl, rfl, rfl, by decide, rfl⟩

/-- Its liquidation after fifteen million ledgers, when it owes seventy-one more. -/
theorem maximalLoan_liquidated (sha256 : Bytes → BytesN) :
    (liquidate ⟨7⟩ (sampleLoanId sha256)).Succeeds (.signedBy 15000009 [⟨7⟩])
      (borrowedStore sha256 marginConfig 600 600) := by
  have hne : (671 : I128) ≠ 0 := by decide
  have haccrued : Accrued 600 marginConfig.interestRateBps (elapsed 15000009 9) 671 :=
    ⟨⟨300000, 4500000000000, 71, rfl, rfl, rfl⟩, rfl⟩
  refine ⟨(704, _), liquidate_eq_ok.mpr ⟨marginConfig, ownerLoan sha256 600 600, 671,
    ⟨rfl, rfl, Storage.get_set_self _ _ _, rfl, haccrued⟩, ⟨⟨119, ?_, by decide⟩, ?_⟩,
    ⟨_, Storage.get_set_self _ _ _, rfl⟩⟩⟩
  · refine .inr ⟨hne, _, Storage.get_set_self _ _ _, ?_⟩
    exact ⟨8000000, 800000000, 6710000, rfl, rfl, rfl, by decide, rfl⟩
  · exact ⟨10500, 7045500, rfl, rfl, rfl⟩

theorem maximalLoan_agrees_iff :
    ∃ asset, (borrowedStore BytesN.mk marginConfig 600 600).assets.get (assetIdAt BytesN.mk 7) =
        some asset ∧
      ((liquidate ⟨7⟩ (sampleLoanId BytesN.mk) (.signedBy 15000009 [⟨7⟩])
            (borrowedStore BytesN.mk marginConfig 600 600) =
          .error (.error .healthFactorSafe) ↔ 120 ≤ (133 : I128).toInt) ↔
        (SafeBalance asset.appraisedValueXlm.toInt marginConfig.liquidationThresholdBps.toInt 600 ↔
          SafeBalance asset.appraisedValueXlm.toInt marginConfig.liquidationThresholdBps.toInt
            (debt marginConfig (ownerLoan BytesN.mk 600 600) 15000009))) :=
  health_view_agrees_iff (maximalLoan_reachable BytesN.mk) rfl (Storage.get_set_self _ _ _) rfl rfl
    (maximalLoan_view BytesN.mk _) (maximalLoan_liquidated BytesN.mk).ne_error

/-- Under every hash, the view calls a loan safe that is liquidated in the same ledger. -/
theorem health_view_disagrees : ¬ ∃ sha256 : Bytes → BytesN,
    ∀ s liquidator loanId env loan hf, Run.Reachable (step (exec sha256)) Store.empty s →
      s.loans.get loanId = some loan → loan.active = true → env.authorized liquidator = true →
      healthFactor loanId env s = .ok (hf, s) →
      liquidate liquidator loanId env s ≠ .error (.error .arithmeticError) →
      (liquidate liquidator loanId env s = .error (.error .healthFactorSafe) ↔
        120 ≤ hf.toInt) := by
  intro h
  rcases h with ⟨sha256, hagrees⟩
  have hliquidated := maximalLoan_liquidated sha256
  have hiff := hagrees _ _ _ _ _ _ (maximalLoan_reachable sha256) (Storage.get_set_self _ _ _) rfl
    rfl (maximalLoan_view sha256 _) hliquidated.ne_error
  have hview : 120 ≤ (133 : I128).toInt := by decide
  exact hliquidated.ne_error (hiff.mpr hview)

end StellarKraal
end Kraal
