import Kraal.Soroban.Host

/-!
# The StellarKraal contract

Loans against livestock: an owner registers an appraised animal, a borrower takes a
loan that encumbers it, and repayment or liquidation releases it again.  Interest
accrues when a loan is touched, truncated toward zero.

Main results:

- Theorem {lit}`accrue_eq_ok`: accrual is the stated formula or fails.
- Theorems {lit}`registerAsset_eq_ok`, {lit}`openLoan_eq_ok`, {lit}`repayLoan_eq_ok` and
  {lit}`liquidate_eq_ok`: the entry points, from acceptance to effect.
- Theorem {lit}`exec_cases`: everything an operation can do to assets and loans.
-/

namespace Kraal
namespace StellarKraal

open Foundation

/-! ## Data types -/

/-- The configuration: the administrator, three price oracles and the rates. -/
structure Config where
  admin : Address
  oracle1 : Address
  oracle2 : Address
  oracle3 : Address
  collateralRatioBps : I128
  liquidationThresholdBps : I128
  liquidationBonusBps : I128
  interestRateBps : I128
  creationFeeStroops : I128
  maxPriceAgeLedgers : U32

/-- An appraised animal, and whether a loan encumbers it. -/
structure Asset where
  owner : Address
  animalType : Symbol
  tagId : Symbol
  appraisedValueXlm : I128
  onLoan : Bool
deriving DecidableEq

/-- A loan against an asset. -/
structure Loan where
  borrower : Address
  assetId : BytesN
  principal : I128
  balance : I128
  openedAt : U32
  updatedAt : U32
  active : Bool
deriving DecidableEq

/-- A price and the ledger of its submission. -/
structure PriceEntry where
  price : I128
  submittedAt : U32
deriving DecidableEq

/-- The errors that the contract returns. -/
inductive Error where
  | alreadyInitialized
  | notInitialized
  | unauthorized
  | assetNotFound
  | loanNotFound
  | assetAlreadyOnLoan
  | principalExceedsLtv
  | loanNotActive
  | healthFactorSafe
  | insufficientPrice
  | arithmeticError
  | stalePrices
  | invalidConfig
deriving DecidableEq, Repr

/-- The storage of the contract: the instance rows for the configuration, the loan
counter and the oracle prices, and the persistent asset and loan rows. -/
structure Store where
  config : Option Config
  loanCounter : Option U64
  prices : Storage Address PriceEntry
  assets : Storage BytesN Asset
  loans : Storage BytesN Loan

/-- The storage of a freshly deployed contract. -/
def Store.empty : Store := ⟨none, none, Storage.empty, Storage.empty, Storage.empty⟩

/-- The number of loans opened so far, zero until one is stored. -/
def Store.loanNonce (s : Store) : U64 := s.loanCounter.getD 0

/-- Write one asset row. -/
def Store.withAsset (s : Store) (id : BytesN) (asset : Asset) : Store :=
  { s with assets := s.assets.set id asset }

/-- Write one loan row. -/
def Store.withLoan (s : Store) (id : BytesN) (loan : Loan) : Store :=
  { s with loans := s.loans.set id loan }

/-- Write the loan counter. -/
def Store.withCounter (s : Store) (nonce : U64) : Store := { s with loanCounter := some nonce }

/-- The asset that was written is in its place. -/
@[simp]
theorem Store.withAsset_assets (s : Store) (id : BytesN) (asset : Asset) :
    (s.withAsset id asset).assets = s.assets.set id asset :=
  rfl

/-- Writing an asset leaves the loans alone. -/
@[simp]
theorem Store.withAsset_loans (s : Store) (id : BytesN) (asset : Asset) :
    (s.withAsset id asset).loans = s.loans :=
  rfl

/-- Writing an asset leaves the configuration alone. -/
@[simp]
theorem Store.withAsset_config (s : Store) (id : BytesN) (asset : Asset) :
    (s.withAsset id asset).config = s.config :=
  rfl

/-- Writing an asset leaves the counter alone. -/
@[simp]
theorem Store.withAsset_loanNonce (s : Store) (id : BytesN) (asset : Asset) :
    (s.withAsset id asset).loanNonce = s.loanNonce :=
  rfl

/-- Writing a loan leaves the assets alone. -/
@[simp]
theorem Store.withLoan_assets (s : Store) (id : BytesN) (loan : Loan) :
    (s.withLoan id loan).assets = s.assets :=
  rfl

/-- The loan that was written is in its place. -/
@[simp]
theorem Store.withLoan_loans (s : Store) (id : BytesN) (loan : Loan) :
    (s.withLoan id loan).loans = s.loans.set id loan :=
  rfl

/-- Writing a loan leaves the configuration alone. -/
@[simp]
theorem Store.withLoan_config (s : Store) (id : BytesN) (loan : Loan) :
    (s.withLoan id loan).config = s.config :=
  rfl

/-- Writing a loan leaves the counter alone. -/
@[simp]
theorem Store.withLoan_loanNonce (s : Store) (id : BytesN) (loan : Loan) :
    (s.withLoan id loan).loanNonce = s.loanNonce :=
  rfl

/-- Counting a loan leaves the assets alone. -/
@[simp]
theorem Store.withCounter_assets (s : Store) (nonce : U64) :
    (s.withCounter nonce).assets = s.assets :=
  rfl

/-- Counting a loan leaves the loans alone. -/
@[simp]
theorem Store.withCounter_loans (s : Store) (nonce : U64) : (s.withCounter nonce).loans = s.loans :=
  rfl

/-- Counting a loan leaves the configuration alone. -/
@[simp]
theorem Store.withCounter_config (s : Store) (nonce : U64) :
    (s.withCounter nonce).config = s.config :=
  rfl

/-- The counter that was written is there. -/
@[simp]
theorem Store.withCounter_loanNonce (s : Store) (nonce : U64) :
    (s.withCounter nonce).loanNonce = nonce :=
  rfl

/-- A call of the contract, which reads the environment and writes the storage. -/
abbrev KraalCall (α : Type) : Type := Call Env Store Error α

/-! ## Interest -/

/-- About one ledger every five seconds. -/
def ledgersPerYear : I128 := 6307200

/-- Add the interest of a number of ledgers to a balance. -/
def accrue (balance rateBps ledgers : I128) : KraalCall I128 := do
  let product ← Call.okOr (balance.checkedMul rateBps) .arithmeticError
  let total ← Call.okOr (product.checkedMul ledgers) .arithmeticError
  let divisor ← Call.okOr ((10000 : I128).checkedMul ledgersPerYear) .arithmeticError
  let interest ← Call.okOr (total.checkedDiv divisor) .arithmeticError
  Call.okOr (balance.checkedAdd interest) .arithmeticError

/-- The exact interest on a balance, truncated toward zero. -/
def interest (balance rateBps ledgers : Int) : Int :=
  (balance * rateBps * ledgers).tdiv 63072000000

/-- An accrual that stays within the integer type at every step. -/
def Accrued (balance rateBps ledgers accrued : I128) : Prop :=
  (∃ product total interest : I128, product.toInt = balance.toInt * rateBps.toInt ∧
    total.toInt = product.toInt * ledgers.toInt ∧ interest.toInt = total.toInt.tdiv 63072000000) ∧
  accrued.toInt = balance.toInt + interest balance.toInt rateBps.toInt ledgers.toInt

/-- Accrual is the stated formula, or it fails. -/
theorem accrue_eq_ok {balance rateBps ledgers : I128} {env : Env} {s : Store} {p : I128 × Store} :
    accrue balance rateBps ledgers env s = .ok p ↔
      Accrued balance rateBps ledgers p.1 ∧ p.2 = s := by
  have hdivisor : (10000 : I128).checkedMul ledgersPerYear = some 63072000000 := rfl
  have hvalue : (63072000000 : I128).toInt = 63072000000 := rfl
  rcases p with ⟨accrued, s'⟩
  simp only [accrue, Accrued, interest, Call.bind_eq_ok, Call.okOr_eq_ok, hdivisor,
    MInt.checkedMul_eq_some, MInt.checkedDiv_eq_some, MInt.checkedAdd_eq_some, hvalue,
    Option.some.injEq, ↓existsAndEq, and_true, exists_eq_left']
  constructor
  · intro h
    rcases h with ⟨product, hproduct, total, htotal, fee, ⟨-, hfee⟩, haccrued, hs⟩
    refine ⟨⟨⟨product, total, fee, hproduct, htotal, hfee⟩, ?_⟩, hs⟩
    rw [haccrued, hfee, htotal, hproduct]
  · intro h
    rcases h with ⟨⟨⟨product, total, fee, hproduct, htotal, hfee⟩, haccrued⟩, hs⟩
    refine ⟨product, hproduct, total, htotal, fee, ⟨by decide, hfee⟩, ?_, hs⟩
    rw [haccrued, hfee, htotal, hproduct]

/-! ## Prices -/

/-- The median of three prices, by three conditional swaps. -/
def median3 (a b c : I128) : I128 :=
  let (x, y) := if b < a then (b, a) else (a, b)
  let (y, _) := if c < y then (c, y) else (y, c)
  if y < x then x else y

/-- The configuration, once the contract is initialised. -/
def requireConfig : KraalCall Config := do
  let s ← Call.get
  Call.okOr s.config .notInitialized

/-- The configuration is read when there is one. -/
@[simp]
theorem requireConfig_eq_ok {env : Env} {s : Store} {p : Config × Store} :
    requireConfig env s = .ok p ↔ s.config = some p.1 ∧ p.2 = s := by
  simp [requireConfig, and_comm]

/-- The median of the three oracle prices, if none of them is missing or stale. -/
def getMedianPrice (cfg : Config) : KraalCall I128 := do
  let env ← Call.ask
  let s ← Call.get
  let p1 ← Call.okOr (s.prices.get cfg.oracle1) .stalePrices
  let p2 ← Call.okOr (s.prices.get cfg.oracle2) .stalePrices
  let p3 ← Call.okOr (s.prices.get cfg.oracle3) .stalePrices
  let now := env.sequence
  Call.failIf (now.saturatingSub p1.submittedAt > cfg.maxPriceAgeLedgers ∨
    now.saturatingSub p2.submittedAt > cfg.maxPriceAgeLedgers ∨
    now.saturatingSub p3.submittedAt > cfg.maxPriceAgeLedgers) .stalePrices
  pure (median3 p1.price p2.price p3.price)

/-! ## Configuration and registration -/

/-- Store the configuration, whose fields are the arguments of the call.  The
collateral ratio has to be positive and below the liquidation threshold, which is
at most ten thousand basis points. -/
def initializeContract (cfg : Config) : KraalCall Unit := do
  let s ← Call.get
  Call.failIf (s.config.isSome) .alreadyInitialized
  Call.failIf (cfg.collateralRatioBps ≤ 0 ∨ cfg.collateralRatioBps > 10000) .invalidConfig
  Call.failIf (cfg.liquidationThresholdBps ≤ cfg.collateralRatioBps ∨
    cfg.liquidationThresholdBps > 10000) .invalidConfig
  requireAuth cfg.admin
  Call.modify fun s => { s with config := some cfg }

/-- The id of an asset: the hash of the ledger it is registered in. -/
def assetIdAt (sha256 : Bytes → BytesN) (sequence : U32) : BytesN :=
  sha256 sequence.toBeBytes

/-- Store an asset of its owner, under an id that the ledger gives. -/
def registerAsset (sha256 : Bytes → BytesN) (owner : Address) (animalType tagId : Symbol)
    (appraisedValueXlm : I128) : KraalCall BytesN := do
  let _ ← requireConfig
  requireAuth owner
  let env ← Call.ask
  let id := assetIdAt sha256 env.sequence
  let asset : Asset := { owner, animalType, tagId, appraisedValueXlm, onLoan := false }
  Call.modify fun s => s.withAsset id asset
  pure id

/-! ## Loans -/

/-- The id of a loan: the hash of the ledger, the asset and the nonce. -/
def newLoanId (sha256 : Bytes → BytesN) (sequence : U32) (assetId : BytesN) (nonce : U64) :
    BytesN :=
  sha256 (sequence.toBeBytes ++ assetId.toArray ++ nonce.toBeBytes)

/-- Open a loan on an asset that no loan encumbers, up to the collateral ratio. -/
def openLoan (sha256 : Bytes → BytesN) (borrower : Address) (assetId : BytesN)
    (principalStroops : I128) : KraalCall BytesN := do
  let cfg ← requireConfig
  requireAuth borrower
  let s ← Call.get
  let asset ← Call.okOr (s.assets.get assetId) .assetNotFound
  Call.failIf (asset.onLoan = true) .assetAlreadyOnLoan
  let scaled ← Call.okOr (asset.appraisedValueXlm.checkedMul cfg.collateralRatioBps)
    .arithmeticError
  let maxPrincipal ← Call.okOr (scaled.checkedDiv 10000) .arithmeticError
  Call.failIf (principalStroops > maxPrincipal) .principalExceedsLtv
  let env ← Call.ask
  let now := env.sequence
  let balance ← Call.okOr (principalStroops.checkedAdd cfg.creationFeeStroops) .arithmeticError
  let nextLoanNonce ← Call.okOr (s.loanNonce.checkedAdd 1) .arithmeticError
  let loanId := newLoanId sha256 now assetId nextLoanNonce
  let loan : Loan :=
    { borrower, assetId, principal := principalStroops, balance, openedAt := now, updatedAt := now
      active := true }
  Call.modify fun s => s.withAsset assetId { asset with onLoan := true }
  Call.modify fun s => s.withCounter nextLoanNonce
  Call.modify fun s => s.withLoan loanId loan
  pure loanId

/-- The number of ledgers since a loan was last touched. -/
def elapsed (now updatedAt : U32) : I128 :=
  (now.saturatingSub updatedAt).widen IntType.i128 (by decide) (by decide)

/-- Load a loan that is still active. -/
def loadActiveLoan (loanId : BytesN) : KraalCall Loan := do
  let s ← Call.get
  let loan ← Call.okOr (s.loans.get loanId) .loanNotFound
  Call.failIf (loan.active = false) .loanNotActive
  pure loan

/-- The loan with the interest accrued up to the current ledger. -/
def accrueLoan (cfg : Config) (loan : Loan) : KraalCall Loan := do
  let env ← Call.ask
  let balance ← accrue loan.balance cfg.interestRateBps (elapsed env.sequence loan.updatedAt)
  pure { loan with balance, updatedAt := env.sequence }

/-- Close a loan and release its asset. -/
def closeLoan (loanId : BytesN) (loan : Loan) : KraalCall Unit := do
  let s ← Call.get
  let asset ← Call.okOr (s.assets.get loan.assetId) .assetNotFound
  Call.modify fun s => s.withAsset loan.assetId { asset with onLoan := false }
  Call.modify fun s => s.withLoan loanId { loan with balance := 0, active := false }

/-- Take a repayment off an accrued loan, close the loan if nothing is left, and return
what is left. -/
def applyRepayment (loanId : BytesN) (loan : Loan) (repaymentStroops : I128) : KraalCall I128 := do
  let newBalance := loan.balance.saturatingSub repaymentStroops
  if newBalance = 0 ∨ repaymentStroops ≥ loan.balance then
    closeLoan loanId loan
    pure 0
  else
    Call.modify fun s => s.withLoan loanId { loan with balance := newBalance }
    pure newBalance

/-- Pay interest up to now and then a part of a loan, or all of it. -/
def repayLoan (caller : Address) (loanId : BytesN) (repaymentStroops : I128) : KraalCall I128 := do
  let cfg ← requireConfig
  requireAuth caller
  let loaded ← loadActiveLoan loanId
  let loan ← accrueLoan cfg loaded
  applyRepayment loanId loan repaymentStroops

/-- The value of the collateral at the liquidation threshold, over the balance. -/
def healthFactorInner (cfg : Config) (loan : Loan) : KraalCall I128 := do
  if loan.balance = 0 then
    pure (MInt.maxValue IntType.i128)
  else
    let s ← Call.get
    let asset ← Call.okOr (s.assets.get loan.assetId) .assetNotFound
    let scaled ← Call.okOr (asset.appraisedValueXlm.checkedMul cfg.liquidationThresholdBps)
      .arithmeticError
    let numerator ← Call.okOr (scaled.checkedMul 100) .arithmeticError
    let denominator ← Call.okOr (loan.balance.checkedMul 10000) .arithmeticError
    Call.okOr (numerator.checkedDiv denominator) .arithmeticError

/-- Close a loan whose health factor is below 120 and return the amount seized. -/
def liquidate (liquidator : Address) (loanId : BytesN) : KraalCall I128 := do
  let cfg ← requireConfig
  requireAuth liquidator
  let loaded ← loadActiveLoan loanId
  let loan ← accrueLoan cfg loaded
  let hf ← healthFactorInner cfg loan
  Call.failIf (hf ≥ 120) .healthFactorSafe
  let bonus ← Call.okOr ((10000 : I128).checkedAdd cfg.liquidationBonusBps) .arithmeticError
  let scaled ← Call.okOr (loan.balance.checkedMul bonus) .arithmeticError
  let seized ← Call.okOr (scaled.checkedDiv 10000) .arithmeticError
  closeLoan loanId loan
  pure seized

/-- The health of a loan at the balance that is stored. -/
def healthFactor (loanId : BytesN) : KraalCall I128 := do
  let cfg ← requireConfig
  let s ← Call.get
  let loan ← Call.okOr (s.loans.get loanId) .loanNotFound
  healthFactorInner cfg loan

/-- An oracle of the configuration submits its price. -/
def submitPrice (oracle : Address) (price : I128) : KraalCall Unit := do
  let cfg ← requireConfig
  requireAuth oracle
  Call.failIf (oracle ≠ cfg.oracle1 ∧ oracle ≠ cfg.oracle2 ∧ oracle ≠ cfg.oracle3) .unauthorized
  let env ← Call.ask
  let entry : PriceEntry := { price, submittedAt := env.sequence }
  Call.modify fun s => { s with prices := s.prices.set oracle entry }

/-! ## Read-only queries -/

/-- Read an asset. -/
def getAsset (assetId : BytesN) : KraalCall Asset := do
  let _ ← requireConfig
  let s ← Call.get
  Call.okOr (s.assets.get assetId) .assetNotFound

/-- Read a loan. -/
def getLoan (loanId : BytesN) : KraalCall Loan := do
  let _ ← requireConfig
  let s ← Call.get
  Call.okOr (s.loans.get loanId) .loanNotFound

/-- Read the configuration. -/
def getConfig : KraalCall Config := requireConfig

/-- The median of the prices. -/
def getPrice : KraalCall I128 := do
  let cfg ← requireConfig
  getMedianPrice cfg

/-! ## Acceptance and effect of the entry points -/

/-- The configurations that can be stored. -/
structure ConfigAccepted (cfg : Config) : Prop where
  ratio_pos : 0 < cfg.collateralRatioBps.toInt
  ratio_lt : cfg.collateralRatioBps.toInt < cfg.liquidationThresholdBps.toInt
  threshold_le : cfg.liquidationThresholdBps.toInt ≤ 10000

/-- When the contract is initialised, and what that writes. -/
theorem initializeContract_eq_ok {cfg : Config} {env : Env} {s s' : Store} :
    initializeContract cfg env s = .ok ((), s') ↔
      s.config = none ∧ ConfigAccepted cfg ∧ env.authorized cfg.admin = true ∧
        s' = { s with config := some cfg } := by
  have hvalue : (10000 : I128).toInt = 10000 := rfl
  simp only [initializeContract, Call.bind_eq_ok, Call.get_eq_ok, Call.failIf_eq_ok,
    requireAuth_eq_ok, Call.modify_eq_ok, Prod.mk.injEq, MInt.le_def, MInt.lt_def, gt_iff_lt,
    MInt.toInt_zero, hvalue, not_or, not_le, not_lt, Bool.not_eq_true, Option.isSome_eq_false_iff,
    Option.isNone_iff_eq_none, ↓existsAndEq, true_and, and_true, exists_const]
  constructor
  · intro h
    rcases h with ⟨hnone, ⟨hpos, -⟩, ⟨hlt, hle⟩, hauth, hs⟩
    exact ⟨hnone, ⟨hpos, hlt, hle⟩, hauth, hs⟩
  · intro h
    rcases h with ⟨hnone, ⟨hpos, hlt, hle⟩, hauth, hs⟩
    exact ⟨hnone, ⟨hpos, by omega⟩, ⟨hlt, hle⟩, hauth, hs⟩

/-- When an asset is registered, its id, and what that writes. -/
theorem registerAsset_eq_ok {sha256 : Bytes → BytesN} {owner : Address}
    {animalType tagId : Symbol} {appraisedValueXlm : I128} {env : Env} {s s' : Store}
    {id : BytesN} :
    registerAsset sha256 owner animalType tagId appraisedValueXlm env s = .ok (id, s') ↔
      s.config.isSome = true ∧ env.authorized owner = true ∧
        id = assetIdAt sha256 env.sequence ∧
        s' = s.withAsset id ⟨owner, animalType, tagId, appraisedValueXlm, false⟩ := by
  simp only [registerAsset, Option.isSome_iff_exists, Call.bind_eq_ok, requireConfig_eq_ok,
    requireAuth_eq_ok, Call.ask_eq_ok, Call.modify_eq_ok, Call.pure_eq_ok, Prod.mk.injEq,
    ↓existsAndEq, true_and, and_true, exists_const, exists_and_right]
  constructor
  · intro h
    rcases h with ⟨hcfg, hauth, rfl, hs⟩
    exact ⟨hcfg, hauth, rfl, hs⟩
  · intro h
    rcases h with ⟨hcfg, hauth, rfl, hs⟩
    exact ⟨hcfg, hauth, rfl, hs⟩

/-- The checks that a new loan has to pass, with the configuration and the asset it reads. -/
structure LoanAccepted (borrower : Address) (assetId : BytesN) (principalStroops : I128)
    (env : Env) (s : Store) (cfg : Config) (asset : Asset) : Prop where
  config : s.config = some cfg
  auth : env.authorized borrower = true
  stored : s.assets.get assetId = some asset
  free : asset.onLoan = false
  within_ltv : ∃ scaled maxPrincipal : I128,
    scaled.toInt = asset.appraisedValueXlm.toInt * cfg.collateralRatioBps.toInt ∧
    maxPrincipal.toInt = scaled.toInt.tdiv 10000 ∧ principalStroops.toInt ≤ maxPrincipal.toInt

/-- When a loan is opened, its id, and what that writes. -/
theorem openLoan_eq_ok {sha256 : Bytes → BytesN} {borrower : Address} {assetId : BytesN}
    {principalStroops : I128} {env : Env} {s s' : Store} {id : BytesN} :
    openLoan sha256 borrower assetId principalStroops env s = .ok (id, s') ↔
      ∃ cfg asset balance nonce,
        LoanAccepted borrower assetId principalStroops env s cfg asset ∧
        balance.toInt = principalStroops.toInt + cfg.creationFeeStroops.toInt ∧
        nonce.toInt = s.loanNonce.toInt + 1 ∧
        id = newLoanId sha256 env.sequence assetId nonce ∧
        s' = ((s.withAsset assetId { asset with onLoan := true }).withCounter nonce).withLoan id
          ⟨borrower, assetId, principalStroops, balance, env.sequence, env.sequence, true⟩ := by
  have hone : (1 : U64).toInt = 1 := rfl
  have hvalue : (10000 : I128).toInt = 10000 := rfl
  have hne : (10000 : Int) ≠ 0 := by decide
  simp only [openLoan, Call.bind_eq_ok, requireConfig_eq_ok, requireAuth_eq_ok, Call.get_eq_ok,
    Call.okOr_eq_ok, Call.failIf_eq_ok, Call.ask_eq_ok, Call.modify_eq_ok, Call.pure_eq_ok,
    MInt.checkedMul_eq_some, MInt.checkedDiv_eq_some, MInt.checkedAdd_eq_some, hone, hvalue,
    MInt.lt_def, gt_iff_lt, not_lt, Bool.not_eq_true, Prod.mk.injEq, hne, ne_eq, not_false_eq_true,
    ↓existsAndEq, true_and, and_true, exists_const]
  constructor
  · intro h
    rcases h with ⟨cfg, hcfg, hauth, asset, hstored, hfree, scaled, hscaled, maxPrincipal, hmax,
      hle, balance, hbalance, nonce, hnonce, rfl, hs⟩
    exact ⟨cfg, asset, balance, nonce,
      ⟨hcfg, hauth, hstored, hfree, scaled, maxPrincipal, hscaled, hmax, hle⟩, hbalance, hnonce,
      rfl, hs⟩
  · intro h
    rcases h with ⟨cfg, asset, balance, nonce,
      ⟨hcfg, hauth, hstored, hfree, scaled, maxPrincipal, hscaled, hmax, hle⟩, hbalance, hnonce,
      rfl, hs⟩
    exact ⟨cfg, hcfg, hauth, asset, hstored, hfree, scaled, hscaled, maxPrincipal, hmax, hle,
      balance, hbalance, nonce, hnonce, rfl, hs⟩

/-- A loan is read when it is active. -/
@[simp]
theorem loadActiveLoan_eq_ok {loanId : BytesN} {env : Env} {s : Store} {p : Loan × Store} :
    loadActiveLoan loanId env s = .ok p ↔
      s.loans.get loanId = some p.1 ∧ p.1.active = true ∧ p.2 = s := by
  rcases p with ⟨loan, s'⟩
  simp [loadActiveLoan]

/-- What interest does to a loan that is in hand. -/
@[simp]
theorem accrueLoan_eq_ok {cfg : Config} {loan : Loan} {env : Env} {s : Store} {p : Loan × Store} :
    accrueLoan cfg loan env s = .ok p ↔ ∃ balance,
      Accrued loan.balance cfg.interestRateBps (elapsed env.sequence loan.updatedAt) balance ∧
      p = ({ loan with balance := balance, updatedAt := env.sequence }, s) := by
  simp [accrueLoan, accrue_eq_ok]

/-- A repayment closes a loan that has accrued the given balance. -/
def RepaysAll (accrued repaymentStroops : I128) : Prop :=
  accrued.saturatingSub repaymentStroops = 0 ∨ repaymentStroops ≥ accrued

/-- The loan that a partial repayment leaves. -/
def repaidLoan (loan : Loan) (balance : I128) (now : U32) : Loan :=
  { loan with balance := balance, updatedAt := now }

/-- The loan that a full repayment or a liquidation leaves. -/
def closedLoan (loan : Loan) (now : U32) : Loan :=
  { loan with balance := 0, updatedAt := now, active := false }

/-- A loan and its asset after the loan is closed. -/
def Closes (loanId : BytesN) (loan : Loan) (now : U32) (s s' : Store) : Prop :=
  ∃ asset, s.assets.get loan.assetId = some asset ∧
    s' = (s.withAsset loan.assetId { asset with onLoan := false }).withLoan loanId
      (closedLoan loan now)

/-- What closing a loan writes. -/
theorem closeLoan_eq_ok {loanId : BytesN} {loan : Loan} {balance : I128} {now : U32} {env : Env}
    {s : Store} {p : Unit × Store} :
    closeLoan loanId { loan with balance := balance, updatedAt := now } env s = .ok p ↔
      Closes loanId loan now s p.2 := by
  simp [closeLoan, Closes, closedLoan, Prod.ext_iff]

/-- A repayment closes the loan or lowers its balance. -/
theorem applyRepayment_eq_ok {loanId : BytesN} {loan : Loan} {accrued repaymentStroops : I128}
    {now : U32} {env : Env} {s s' : Store} {left : I128} :
    applyRepayment loanId { loan with balance := accrued, updatedAt := now } repaymentStroops
        env s = .ok (left, s') ↔
      RepaysAll accrued repaymentStroops ∧ left = 0 ∧ Closes loanId loan now s s' ∨
      ¬ RepaysAll accrued repaymentStroops ∧ left = accrued.saturatingSub repaymentStroops ∧
        s' = s.withLoan loanId (repaidLoan loan left now) := by
  simp only [applyRepayment, RepaysAll, repaidLoan, Call.ite_eq_ok, Call.bind_eq_ok,
    closeLoan_eq_ok, Call.modify_eq_ok, Call.pure_eq_ok, Prod.mk.injEq, ↓existsAndEq, true_and,
    and_true, exists_const]
  constructor
  · intro h
    rcases h with ⟨hall, hcloses, rfl⟩ | ⟨hpart, rfl, rfl⟩
    · exact .inl ⟨hall, rfl, hcloses⟩
    · exact .inr ⟨hpart, rfl, rfl⟩
  · intro h
    rcases h with ⟨hall, rfl, hcloses⟩ | ⟨hpart, rfl, rfl⟩
    · exact .inl ⟨hall, hcloses, rfl⟩
    · exact .inr ⟨hpart, rfl, rfl⟩

/-- A loan that is touched: it is active, and its balance accrues to the given amount. -/
structure LoanAccrues (caller : Address) (loanId : BytesN) (env : Env) (s : Store) (cfg : Config)
    (loan : Loan) (accrued : I128) : Prop where
  config : s.config = some cfg
  auth : env.authorized caller = true
  stored : s.loans.get loanId = some loan
  active : loan.active = true
  accrued_eq : Accrued loan.balance cfg.interestRateBps (elapsed env.sequence loan.updatedAt)
    accrued

/-- When a loan is repaid, and what that writes. -/
theorem repayLoan_eq_ok {caller : Address} {loanId : BytesN} {repaymentStroops : I128} {env : Env}
    {s s' : Store} {left : I128} :
    repayLoan caller loanId repaymentStroops env s = .ok (left, s') ↔
      ∃ cfg loan accrued, LoanAccrues caller loanId env s cfg loan accrued ∧
        (RepaysAll accrued repaymentStroops ∧ left = 0 ∧ Closes loanId loan env.sequence s s' ∨
        ¬ RepaysAll accrued repaymentStroops ∧ left = accrued.saturatingSub repaymentStroops ∧
          s' = s.withLoan loanId (repaidLoan loan left env.sequence)) := by
  simp only [repayLoan, Call.bind_eq_ok, requireConfig_eq_ok, requireAuth_eq_ok,
    loadActiveLoan_eq_ok, accrueLoan_eq_ok, Prod.mk.injEq, ↓existsAndEq, true_and, and_true,
    exists_const, applyRepayment_eq_ok]
  constructor
  · intro h
    rcases h with ⟨cfg, hcfg, hauth, loan, ⟨hstored, hactive⟩, accrued, haccrued, hrest⟩
    exact ⟨cfg, loan, accrued, ⟨hcfg, hauth, hstored, hactive, haccrued⟩, hrest⟩
  · intro h
    rcases h with ⟨cfg, loan, accrued, ⟨hcfg, hauth, hstored, hactive, haccrued⟩, hrest⟩
    exact ⟨cfg, hcfg, hauth, loan, ⟨hstored, hactive⟩, accrued, haccrued, hrest⟩

/-- The health factor of a loan: the largest value if nothing is owed, else the value of
the asset at the liquidation threshold over the balance. -/
def HealthFactor (cfg : Config) (s : Store) (loan : Loan) (hf : I128) : Prop :=
  loan.balance = 0 ∧ hf = MInt.maxValue IntType.i128 ∨
  loan.balance ≠ 0 ∧ ∃ asset, s.assets.get loan.assetId = some asset ∧
    ∃ scaled numerator denominator : I128,
      scaled.toInt = asset.appraisedValueXlm.toInt * cfg.liquidationThresholdBps.toInt ∧
      numerator.toInt = scaled.toInt * 100 ∧ denominator.toInt = loan.balance.toInt * 10000 ∧
      denominator.toInt ≠ 0 ∧ hf.toInt = numerator.toInt.tdiv denominator.toInt

/-- When a loan has a health, and which. -/
theorem healthFactorInner_eq_ok {cfg : Config} {loan : Loan} {env : Env} {s : Store}
    {p : I128 × Store} :
    healthFactorInner cfg loan env s = .ok p ↔ HealthFactor cfg s loan p.1 ∧ p.2 = s := by
  have hvalue : (10000 : I128).toInt = 10000 := rfl
  have hhundred : (100 : I128).toInt = 100 := rfl
  rcases p with ⟨hf, s'⟩
  simp only [healthFactorInner, HealthFactor, Call.ite_eq_ok, Call.bind_eq_ok, Call.get_eq_ok,
    Call.okOr_eq_ok, Call.pure_eq_ok, MInt.checkedMul_eq_some, MInt.checkedDiv_eq_some, hvalue,
    hhundred, Prod.mk.injEq, ↓existsAndEq, true_and, and_true, ne_eq]
  constructor
  · intro h
    rcases h with ⟨hzero, hmax, hs⟩ | ⟨hzero, asset, hasset, scaled, hscaled, numerator, hnumerator,
      denominator, hdenominator, ⟨hne, hhf⟩, hs⟩
    · exact ⟨.inl ⟨hzero, hmax⟩, hs⟩
    · exact ⟨.inr ⟨hzero, asset, hasset, scaled, numerator, denominator, hscaled, hnumerator,
        hdenominator, hne, hhf⟩, hs⟩
  · intro h
    rcases h with ⟨⟨hzero, hmax⟩ | ⟨hzero, asset, hasset, scaled, numerator, denominator, hscaled,
      hnumerator, hdenominator, hne, hhf⟩, hs⟩
    · exact .inl ⟨hzero, hmax, hs⟩
    · exact .inr ⟨hzero, asset, hasset, scaled, hscaled, numerator, hnumerator, denominator,
        hdenominator, ⟨hne, hhf⟩, hs⟩

/-- The checks of a liquidation after the loan has accrued, and the amount it seizes. -/
def Seizes (cfg : Config) (s : Store) (loan : Loan) (seized : I128) : Prop :=
  (∃ hf, HealthFactor cfg s loan hf ∧ hf.toInt < 120) ∧
  ∃ bonus scaled : I128, bonus.toInt = 10000 + cfg.liquidationBonusBps.toInt ∧
    scaled.toInt = loan.balance.toInt * bonus.toInt ∧ seized.toInt = scaled.toInt.tdiv 10000

/-- When a loan is liquidated, what is seized, and what that writes. -/
theorem liquidate_eq_ok {liquidator : Address} {loanId : BytesN} {env : Env} {s s' : Store}
    {seized : I128} :
    liquidate liquidator loanId env s = .ok (seized, s') ↔
      ∃ cfg loan accrued, LoanAccrues liquidator loanId env s cfg loan accrued ∧
        Seizes cfg s (repaidLoan loan accrued env.sequence) seized ∧
        Closes loanId loan env.sequence s s' := by
  have hvalue : (10000 : I128).toInt = 10000 := rfl
  have hlimit : (120 : I128).toInt = 120 := rfl
  have hne : (10000 : Int) ≠ 0 := by decide
  simp only [liquidate, Seizes, Call.bind_eq_ok, requireConfig_eq_ok, requireAuth_eq_ok,
    loadActiveLoan_eq_ok, accrueLoan_eq_ok, healthFactorInner_eq_ok, Call.failIf_eq_ok,
    Call.okOr_eq_ok, closeLoan_eq_ok, Call.pure_eq_ok, MInt.checkedAdd_eq_some,
    MInt.checkedMul_eq_some, MInt.checkedDiv_eq_some, hvalue, hlimit, hne, MInt.le_def,
    ge_iff_le, not_le, Prod.mk.injEq, ne_eq, not_false_eq_true, ↓existsAndEq, true_and, and_true,
    exists_const]
  constructor
  · intro h
    rcases h with ⟨cfg, hcfg, hauth, loan, ⟨hstored, hactive⟩, accrued, haccrued, hf, hfactor,
      hunsafe, bonus, hbonus, scaled, hscaled, hseized, hcloses⟩
    exact ⟨cfg, loan, accrued, ⟨hcfg, hauth, hstored, hactive, haccrued⟩,
      ⟨⟨hf, hfactor, hunsafe⟩, bonus, scaled, hbonus, hscaled, hseized⟩, hcloses⟩
  · intro h
    rcases h with ⟨cfg, loan, accrued, ⟨hcfg, hauth, hstored, hactive, haccrued⟩,
      ⟨⟨hf, hfactor, hunsafe⟩, bonus, scaled, hbonus, hscaled, hseized⟩, hcloses⟩
    exact ⟨cfg, hcfg, hauth, loan, ⟨hstored, hactive⟩, accrued, haccrued, hf, hfactor, hunsafe,
      bonus, hbonus, scaled, hscaled, hseized, hcloses⟩

/-- When a price is submitted, and what that writes. -/
theorem submitPrice_eq_ok {oracle : Address} {price : I128} {env : Env} {s s' : Store} :
    submitPrice oracle price env s = .ok ((), s') ↔
      ∃ cfg, s.config = some cfg ∧ env.authorized oracle = true ∧
        (oracle = cfg.oracle1 ∨ oracle = cfg.oracle2 ∨ oracle = cfg.oracle3) ∧
        s' = { s with prices := s.prices.set oracle ⟨price, env.sequence⟩ } := by
  simp [submitPrice, or_iff_not_imp_left]

/-! ## The contract as a machine -/

/-- The state-changing entry points with their arguments. -/
inductive Op where
  | initializeContract (cfg : Config)
  | registerAsset (owner : Address) (animalType tagId : Symbol) (appraisedValueXlm : I128)
  | openLoan (borrower : Address) (assetId : BytesN) (principalStroops : I128)
  | repayLoan (caller : Address) (loanId : BytesN) (repaymentStroops : I128)
  | liquidate (liquidator : Address) (loanId : BytesN)
  | submitPrice (oracle : Address) (price : I128)

/-- The entry point that a call names. -/
def exec (sha256 : Bytes → BytesN) : Op → KraalCall Unit
  | .initializeContract cfg => initializeContract cfg
  | .registerAsset owner animalType tagId appraisedValueXlm => do
      let _ ← registerAsset sha256 owner animalType tagId appraisedValueXlm
  | .openLoan borrower assetId principalStroops => do
      let _ ← openLoan sha256 borrower assetId principalStroops
  | .repayLoan caller loanId repaymentStroops => do
      let _ ← repayLoan caller loanId repaymentStroops
  | .liquidate liquidator loanId => do
      let _ ← liquidate liquidator loanId
  | .submitPrice oracle price => submitPrice oracle price

/-- An operation that can close a loan: a liquidation, or a repayment of the whole. -/
def Op.ClosesLoan (caller : Address) (loanId : BytesN) (accrued : I128) : Op → Prop
  | .liquidate liquidator id => liquidator = caller ∧ id = loanId
  | .repayLoan repayer id repaymentStroops =>
      repayer = caller ∧ id = loanId ∧ RepaysAll accrued repaymentStroops
  | _ => False

/-- Everything an operation can do when it returns. -/
theorem exec_cases {sha256 : Bytes → BytesN} {op : Op} {env : Env} {s s' : Store}
    (h : exec sha256 op env s = .ok ((), s')) :
    (∃ cfg, op = .initializeContract cfg ∧ s.config = none ∧ ConfigAccepted cfg ∧
      s' = { s with config := some cfg }) ∨
    (∃ owner animalType tagId appraisedValueXlm,
      op = .registerAsset owner animalType tagId appraisedValueXlm ∧
      registerAsset sha256 owner animalType tagId appraisedValueXlm env s =
        .ok (assetIdAt sha256 env.sequence, s')) ∨
    (∃ borrower assetId principalStroops id,
      op = .openLoan borrower assetId principalStroops ∧
      openLoan sha256 borrower assetId principalStroops env s = .ok (id, s')) ∨
    (∃ caller loanId repaymentStroops cfg loan accrued,
      op = .repayLoan caller loanId repaymentStroops ∧
      LoanAccrues caller loanId env s cfg loan accrued ∧ ¬ RepaysAll accrued repaymentStroops ∧
      s' = s.withLoan loanId
        (repaidLoan loan (accrued.saturatingSub repaymentStroops) env.sequence)) ∨
    (∃ caller loanId cfg loan accrued, op.ClosesLoan caller loanId accrued ∧
      LoanAccrues caller loanId env s cfg loan accrued ∧ Closes loanId loan env.sequence s s') ∨
    (∃ oracle price, op = .submitPrice oracle price ∧
      s' = { s with prices := s.prices.set oracle ⟨price, env.sequence⟩ }) := by
  cases op with
  | initializeContract cfg =>
      rcases initializeContract_eq_ok.mp h with ⟨hnone, haccepted, -, hs⟩
      exact .inl ⟨cfg, rfl, hnone, haccepted, hs⟩
  | registerAsset owner animalType tagId appraisedValueXlm =>
      rcases Call.bind_eq_ok.mp h with ⟨id, t, hcall, hpure⟩
      cases hpure
      have hid := (registerAsset_eq_ok.mp hcall).2.2.1
      subst hid
      exact .inr (.inl ⟨owner, animalType, tagId, appraisedValueXlm, rfl, hcall⟩)
  | openLoan borrower assetId principalStroops =>
      rcases Call.bind_eq_ok.mp h with ⟨id, t, hcall, hpure⟩
      cases hpure
      exact .inr (.inr (.inl ⟨borrower, assetId, principalStroops, id, rfl, hcall⟩))
  | repayLoan caller loanId repaymentStroops =>
      rcases Call.bind_eq_ok.mp h with ⟨left, t, hcall, hpure⟩
      cases hpure
      rcases repayLoan_eq_ok.mp hcall with ⟨cfg, loan, accrued, haccrues,
        ⟨hall, -, hcloses⟩ | ⟨hpart, rfl, hs⟩⟩
      · exact .inr (.inr (.inr (.inr (.inl ⟨caller, loanId, cfg, loan, accrued, ⟨rfl, rfl, hall⟩,
          haccrues, hcloses⟩))))
      · exact .inr (.inr (.inr (.inl ⟨caller, loanId, repaymentStroops, cfg, loan, accrued, rfl,
          haccrues, hpart, hs⟩)))
  | liquidate liquidator loanId =>
      rcases Call.bind_eq_ok.mp h with ⟨seized, t, hcall, hpure⟩
      cases hpure
      rcases liquidate_eq_ok.mp hcall with ⟨cfg, loan, accrued, haccrues, -, hcloses⟩
      exact .inr (.inr (.inr (.inr (.inl ⟨liquidator, loanId, cfg, loan, accrued, ⟨rfl, rfl⟩,
        haccrues, hcloses⟩))))
  | submitPrice oracle price =>
      rcases submitPrice_eq_ok.mp h with ⟨cfg, -, -, -, hs⟩
      exact .inr (.inr (.inr (.inr (.inr ⟨oracle, price, rfl, hs⟩))))

/-- An acceptable configuration is stored by its own admin. -/
theorem step_initializeContract {sha256 : Bytes → BytesN} {cfg : Config}
    (haccepted : ConfigAccepted cfg) (sequence : U32) :
    step (exec sha256) Store.empty ⟨.signedBy sequence [cfg.admin], .initializeContract cfg⟩ =
      { Store.empty with config := some cfg } := by
  apply step_of_ok
  exact initializeContract_eq_ok.mpr ⟨rfl, haccepted, Env.authorized_signedBy _ _, rfl⟩

end StellarKraal
end Kraal
