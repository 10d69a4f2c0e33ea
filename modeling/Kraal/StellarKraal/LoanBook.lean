import Kraal.StellarKraal.Ownership

/-!
# The loan book of StellarKraal

A loan is closed when a repayment covers the accrued balance, and otherwise keeps what is
left.  The signs of principal, fee, rate and repayment are never checked, so the book is
sane exactly along the runs whose arguments keep them in order.

Main results:

- Theorem {lit}`repaysAll_iff`: the two tests that close a loan are one.
- Theorem {lit}`Repays.step_eq`: the balance that a repayment leaves.
- Theorem {lit}`balancesPositive_iff`: active balances are positive exactly when every
  loan is opened with a positive balance.
- Theorem {lit}`loanBookSane_iff`: the whole book, with repayments that never increase
  a debt.
- Theorem {lit}`repayment_increases_debt`: a negative repayment.
-/

namespace Kraal
namespace StellarKraal

open Foundation

variable {sha256 : Bytes → BytesN}

/-! ## Debts and repayments -/

/-- The balance of a loan with the interest accrued up to a ledger. -/
def debt (cfg : Config) (loan : Loan) (now : U32) : Int :=
  loan.balance.toInt +
    interest loan.balance.toInt cfg.interestRateBps.toInt (elapsed now loan.updatedAt).toInt

/-- The two tests that close a loan are one: the difference of two balances is clamped to
zero only if it is zero. -/
theorem repaysAll_iff {accrued repaymentStroops : I128} :
    RepaysAll accrued repaymentStroops ↔ accrued.toInt ≤ repaymentStroops.toInt := by
  have hlo : IntType.i128.lo < 0 := by decide
  have hhi : 0 < IntType.i128.hi := by decide
  rw [RepaysAll, MInt.eq_zero_iff, MInt.toInt_saturatingSub, ge_iff_le, MInt.le_def]
  omega

/-- What is left of a debt that is not repaid in full. -/
theorem toInt_left {accrued repaymentStroops : I128}
    (hpart : ¬ RepaysAll accrued repaymentStroops) :
    (accrued.saturatingSub repaymentStroops).toInt =
      min (accrued.toInt - repaymentStroops.toInt) IntType.i128.hi := by
  have hlo : IntType.i128.lo < 0 := by decide
  have hhi : 0 < IntType.i128.hi := by decide
  rw [repaysAll_iff] at hpart
  rw [MInt.toInt_saturatingSub]
  omega

/-- A step repays a loan. -/
def Repays (e : Store × Invocation Op) (loanId : BytesN) (repaymentStroops : I128) : Prop :=
  ∃ caller left s', e.2.call = .repayLoan caller loanId repaymentStroops ∧
    repayLoan caller loanId repaymentStroops e.2.env e.1 = .ok (left, s')

/-- A debt after a repayment: gone if the repayment covers it, else reduced by the
repayment, up to the largest representable balance. -/
def Left (owed repayment left : Int) : Prop :=
  owed ≤ repayment ∧ left = 0 ∨
    repayment < owed ∧ left = min (owed - repayment) IntType.i128.hi

/-- A repayment leaves at most the debt if it is not negative and neither is the debt, or
if the debt cannot grow. -/
theorem Left.le_iff {owed repayment left : Int} (h : Left owed repayment left)
    (howed : owed ≤ IntType.i128.hi) :
    left ≤ owed ↔ 0 ≤ owed ∧ 0 ≤ repayment ∨ owed = IntType.i128.hi := by
  have hhi : 0 < IntType.i128.hi := by decide
  rcases h with ⟨hall, hleft⟩ | ⟨hpart, hleft⟩
  · omega
  · omega

/-- The loan that a repaying step reads, and the balance that it leaves. -/
theorem Repays.step_eq {e : Store × Invocation Op} {loanId : BytesN} {repaymentStroops : I128}
    (h : Repays e loanId repaymentStroops) :
    ∃ cfg loan left, e.1.config = some cfg ∧ e.1.loans.get loanId = some loan ∧
      (step (exec sha256) e.1 e.2).loans.get loanId = some left ∧
      debt cfg loan e.2.env.sequence ≤ IntType.i128.hi ∧
      Left (debt cfg loan e.2.env.sequence) repaymentStroops.toInt left.balance.toInt := by
  rcases h with ⟨caller, left, s', hcall, hrepay⟩
  have hstep : step (exec sha256) e.1 e.2 = s' := by
    apply step_of_ok
    rw [hcall, exec, Call.bind_eq_ok]
    exact ⟨left, s', hrepay, rfl⟩
  rcases repayLoan_eq_ok.mp hrepay with ⟨cfg, loan, accrued, haccrues, hrest⟩
  have hdebt : accrued.toInt = debt cfg loan e.2.env.sequence := haccrues.accrued_eq.2
  have hmax : debt cfg loan e.2.env.sequence ≤ IntType.i128.hi := by
    rw [← hdebt]
    exact accrued.le_hi
  rw [hstep]
  rcases hrest with ⟨hall, -, asset, -, rfl⟩ | ⟨hpart, rfl, rfl⟩
  · refine ⟨cfg, loan, closedLoan loan e.2.env.sequence, haccrues.config, haccrues.stored,
      Storage.get_set_self _ _ _, hmax, .inl ⟨?_, MInt.toInt_zero⟩⟩
    rw [← hdebt]
    exact repaysAll_iff.mp hall
  · have hleft := toInt_left hpart
    rw [repaysAll_iff, not_le] at hpart
    rw [hdebt] at hpart hleft
    exact ⟨cfg, loan, _, haccrues.config, haccrues.stored, Storage.get_set_self _ _ _, hmax,
      .inr ⟨hpart, hleft⟩⟩

/-! ## Balances -/

/-- An active loan owes something, and an inactive one nothing. -/
def Loan.Sane (loan : Loan) : Prop :=
  (loan.active = true → 0 < loan.balance.toInt) ∧ (loan.active = false → loan.balance.toInt = 0)

/-- Every stored loan is sane. -/
def BalancesSane (s : Store) : Prop :=
  ∀ loanId loan, s.loans.get loanId = some loan → loan.Sane

theorem BalancesSane.withLoan {s : Store} (hs : BalancesSane s) {id : BytesN} {new : Loan}
    (hnew : new.Sane) : BalancesSane (s.withLoan id new) :=
  Storage.forall_get_set hs hnew

/-- A loan that is closed owes nothing. -/
theorem closedLoan_sane (loan : Loan) (now : U32) : (closedLoan loan now).Sane := by
  refine ⟨?_, ?_⟩
  · intro hactive
    cases hactive
  · intro _
    exact MInt.toInt_zero

/-- A loan that is repaid in part still owes something, whatever the signs. -/
theorem repaidLoan_sane {loan : Loan} (hactive : loan.active = true)
    {accrued repaymentStroops : I128} (hpart : ¬ RepaysAll accrued repaymentStroops) (now : U32) :
    (repaidLoan loan (accrued.saturatingSub repaymentStroops) now).Sane := by
  have hhi : 0 < IntType.i128.hi := by decide
  have hleft := toInt_left hpart
  rw [repaysAll_iff, not_le] at hpart
  refine ⟨?_, ?_⟩
  · intro _
    change 0 < (accrued.saturatingSub repaymentStroops).toInt
    omega
  · intro hinactive
    change loan.active = false at hinactive
    rw [hactive] at hinactive
    cases hinactive

/-- Every loan that a step opens starts with a positive balance. -/
def OpensPositive (sha256 : Bytes → BytesN) (e : Store × Invocation Op) : Prop :=
  ∀ borrower assetId principalStroops, Opens sha256 e borrower assetId principalStroops →
    ∀ cfg, e.1.config = some cfg → 0 < principalStroops.toInt + cfg.creationFeeStroops.toInt

theorem BalancesSane.step {s : Store} {i : Invocation Op} (hs : BalancesSane s)
    (hopens : OpensPositive sha256 (s, i)) : BalancesSane (Kraal.step (exec sha256) s i) := by
  apply step_induction hs
  intro s' hok
  rcases exec_cases hok with ⟨cfg, -, -, -, rfl⟩ |
    ⟨owner, animalType, tagId, appraisedValueXlm, -, hregister⟩ |
    ⟨borrower, assetId, principalStroops, id, hcall, hopen⟩ |
    ⟨caller, loanId, repaymentStroops, cfg, loan, accrued, -, haccrues, hpart, rfl⟩ |
    ⟨caller, loanId, cfg, loan, accrued, -, haccrues, asset, -, rfl⟩ |
    ⟨oracle, price, -, rfl⟩
  · exact hs
  · rcases registerAsset_eq_ok.mp hregister with ⟨-, -, -, rfl⟩
    exact hs
  · have hpositive := hopens borrower assetId principalStroops ⟨id, s', hcall, hopen⟩
    rcases openLoan_eq_ok.mp hopen with ⟨cfg, asset, balance, nonce, haccepted, hbalance, -, -, rfl⟩
    refine BalancesSane.withLoan hs ⟨fun _ => ?_, fun hinactive => ?_⟩
    · rw [hbalance]
      exact hpositive cfg haccepted.config
    · cases hinactive
  · exact hs.withLoan (repaidLoan_sane haccrues.active hpart i.env.sequence)
  · exact BalancesSane.withLoan hs (closedLoan_sane loan i.env.sequence)
  · exact hs

/-- Active balances are positive and inactive balances zero in every state of a run
exactly when every loan is opened with a positive balance. -/
theorem balancesPositive_iff (run : List (Invocation Op)) :
    (∀ s, Run.Visits (step (exec sha256)) Store.empty run s → BalancesSane s) ↔
      ∀ e ∈ history sha256 run, OpensPositive sha256 e := by
  constructor
  · intro hsane e he borrower assetId principalStroops hopens cfg hcfg
    rcases hopens.step_eq with ⟨cfg', asset, balance, nonce, id, haccepted, hbalance, hstep⟩
    have hsame := haccepted.config
    rw [hcfg, Option.some.injEq] at hsame
    subst hsame
    have hafter := hsane _ (Run.visits_step he)
    rw [hstep] at hafter
    have hpositive := (hafter id _ (Storage.get_set_self _ _ _)).1 rfl
    rw [← hbalance]
    exact hpositive
  · intro hopens
    apply Run.visits_invariant
    · intro loanId loan hloan
      simp [Store.empty] at hloan
    · intro e he hs
      exact hs.step (hopens e he)

/-! ## The loan book along runs -/

/-- What a run should keep: sane balances in every state, and no repayment that leaves
more than the debt accrued up to its ledger. -/
structure LoanBookSane (sha256 : Bytes → BytesN) (run : List (Invocation Op)) : Prop where
  balances : ∀ s, Run.Visits (step (exec sha256)) Store.empty run s → BalancesSane s
  repayments : ∀ e ∈ history sha256 run, ∀ loanId repaymentStroops,
    Repays e loanId repaymentStroops → ∀ cfg loan left, e.1.config = some cfg →
      e.1.loans.get loanId = some loan →
      (step (exec sha256) e.1 e.2).loans.get loanId = some left →
      left.balance.toInt ≤ debt cfg loan e.2.env.sequence

/-- A repayment and the debt it is for are not negative, or the debt cannot grow. -/
def RepaysInOrder (e : Store × Invocation Op) : Prop :=
  ∀ loanId repaymentStroops, Repays e loanId repaymentStroops →
    ∀ cfg loan, e.1.config = some cfg → e.1.loans.get loanId = some loan →
      0 ≤ debt cfg loan e.2.env.sequence ∧ 0 ≤ repaymentStroops.toInt ∨
        debt cfg loan e.2.env.sequence = IntType.i128.hi

/-- A step that repays leaves at most the debt exactly when its signs are in order. -/
theorem repaysInOrder_iff (e : Store × Invocation Op) :
    (∀ loanId repaymentStroops, Repays e loanId repaymentStroops → ∀ cfg loan left,
      e.1.config = some cfg → e.1.loans.get loanId = some loan →
      (step (exec sha256) e.1 e.2).loans.get loanId = some left →
      left.balance.toInt ≤ debt cfg loan e.2.env.sequence) ↔ RepaysInOrder e := by
  have hsame : ∀ {loanId repaymentStroops}, Repays e loanId repaymentStroops →
      ∀ cfg loan, e.1.config = some cfg → e.1.loans.get loanId = some loan →
      ∃ left, (step (exec sha256) e.1 e.2).loans.get loanId = some left ∧
        debt cfg loan e.2.env.sequence ≤ IntType.i128.hi ∧
        Left (debt cfg loan e.2.env.sequence) repaymentStroops.toInt left.balance.toInt := by
    intro loanId repaymentStroops hrepays cfg loan hcfg hloan
    rcases hrepays.step_eq with ⟨cfg', loan', left, hcfg', hloan', hleft⟩
    rw [hcfg, Option.some.injEq] at hcfg'
    rw [hloan, Option.some.injEq] at hloan'
    subst hcfg'
    subst hloan'
    exact ⟨left, hleft⟩
  constructor
  · intro hle loanId repaymentStroops hrepays cfg loan hcfg hloan
    rcases hsame hrepays cfg loan hcfg hloan with ⟨left, hstored, hmax, hleft⟩
    have hbound := hle loanId repaymentStroops hrepays cfg loan left hcfg hloan hstored
    exact (hleft.le_iff hmax).mp hbound
  · intro hordered loanId repaymentStroops hrepays cfg loan left hcfg hloan hstored
    rcases hsame hrepays cfg loan hcfg hloan with ⟨left', hstored', hmax, hleft⟩
    rw [hstored, Option.some.injEq] at hstored'
    subst hstored'
    have hsigns := hordered loanId repaymentStroops hrepays cfg loan hcfg hloan
    exact (hleft.le_iff hmax).mpr hsigns

/-- The loan book stays sane along a run exactly when every loan is opened with a positive
balance and every repayment has its signs in order. -/
theorem loanBookSane_iff (sha256 : Bytes → BytesN) (run : List (Invocation Op)) :
    LoanBookSane sha256 run ↔
      ∀ e ∈ history sha256 run, OpensPositive sha256 e ∧ RepaysInOrder e := by
  constructor
  · intro hsane e he
    exact ⟨(balancesPositive_iff run).mp hsane.balances e he,
      (repaysInOrder_iff e).mp (hsane.repayments e he)⟩
  · intro hordered
    exact ⟨(balancesPositive_iff run).mpr fun e he => (hordered e he).1,
      fun e he => (repaysInOrder_iff e).mpr (hordered e he).2⟩

/-! ## A repayment that borrows more -/

/-- The id of the loan that an owner opens. -/
def sampleLoanId (sha256 : Bytes → BytesN) : BytesN := newLoanId sha256 9 (assetIdAt sha256 7) 1

/-- That loan: a hundred and the fee of five. -/
def sampleLoan (sha256 : Bytes → BytesN) : Loan :=
  ⟨⟨4⟩, assetIdAt sha256 7, 100, 105, 9, 9, true⟩

/-- A repayment of minus fifty in the ledger of the loan. -/
def negativeRepayment (sha256 : Bytes → BytesN) : Invocation Op :=
  ⟨.signedBy 9 [⟨4⟩], .repayLoan ⟨4⟩ (sampleLoanId sha256) ⟨-50, by decide, by decide⟩⟩

/-- An owner opens a loan and makes that repayment. -/
def debtRun (sha256 : Bytes → BytesN) : List (Invocation Op) :=
  loanRun sha256 ⟨4⟩ ++ [negativeRepayment sha256]

theorem negativeRepayment_mem (sha256 : Bytes → BytesN) :
    (openedStore sha256 ⟨4⟩ (sampleLoanId sha256), negativeRepayment sha256) ∈
      history sha256 (debtRun sha256) := by
  rw [history, debtRun, Run.trace_append, final_loanRun]
  exact List.mem_append_right _ List.mem_cons_self

theorem negativeRepayment_repays (sha256 : Bytes → BytesN) :
    Repays (openedStore sha256 ⟨4⟩ (sampleLoanId sha256), negativeRepayment sha256)
      (sampleLoanId sha256) ⟨-50, by decide, by decide⟩ := by
  refine ⟨⟨4⟩, 155, _, rfl, repayLoan_eq_ok.mpr ⟨sampleConfig, sampleLoan sha256, 105,
    ⟨rfl, rfl, Storage.get_set_self _ _ _, rfl, ?_⟩, .inr ⟨?_, rfl, rfl⟩⟩⟩
  · exact ⟨⟨52500, 0, 0, rfl, rfl, rfl⟩, rfl⟩
  · rw [repaysAll_iff]
    decide

/-- Under every hash, a negative repayment increases the debt. -/
theorem repayment_increases_debt :
    ¬ ∃ sha256 : Bytes → BytesN, LoanBookSane sha256 (debtRun sha256) := by
  intro h
  rcases h with ⟨sha256, hsane⟩
  have hdebt : debt sampleConfig (sampleLoan sha256) 9 = 105 := rfl
  have hordered : RepaysInOrder
      (openedStore sha256 ⟨4⟩ (sampleLoanId sha256), negativeRepayment sha256) := by
    apply (repaysInOrder_iff _).mp
    exact hsane.repayments _ (negativeRepayment_mem sha256)
  rcases hordered _ _ (negativeRepayment_repays sha256) sampleConfig (sampleLoan sha256) rfl
    (Storage.get_set_self _ _ _) with ⟨-, hnonneg⟩ | hmax
  · exact absurd hnonneg (by decide)
  · change debt sampleConfig (sampleLoan sha256) 9 = IntType.i128.hi at hmax
    rw [hdebt] at hmax
    exact absurd hmax (by decide)

end StellarKraal
end Kraal
