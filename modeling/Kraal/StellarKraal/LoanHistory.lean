import Kraal.Foundation.Journal
import Kraal.StellarKraal.LoanBook

/-!
# The history of a loan

A stored loan is what its calls have made of it: the call that opened it, and every
repayment and liquidation that has returned since, each with the interest up to its own
ledger.  Nothing else that happens to the contract changes it.

Main results:

- Theorems {lit}`repayLoan_account` and {lit}`liquidate_account`: a call that touches a
  loan does to it what the exact account says.
- Definition {lit}`loanJournal`: what a step does to the row of a loan.
- Theorem {lit}`loans_replayed`: a row is stored exactly if it is the replay of the run.
-/

namespace Kraal
namespace StellarKraal

open Foundation

variable {sha256 : Bytes → BytesN}

/-! ## Accounts in exact integers -/

/-- A loan whose amounts are exact integers. -/
structure Account where
  borrower : Address
  assetId : BytesN
  principal : Int
  balance : Int
  openedAt : U32
  touchedAt : U32
  active : Bool
deriving DecidableEq

/-- What the account of a loan holds. -/
def Loan.account (loan : Loan) : Account where
  borrower := loan.borrower
  assetId := loan.assetId
  principal := loan.principal.toInt
  balance := loan.balance.toInt
  openedAt := loan.openedAt
  touchedAt := loan.updatedAt
  active := loan.active

/-- The account of a new loan: the fee is owed from the start. -/
def Config.opening (cfg : Config) (borrower : Address) (assetId : BytesN) (principalStroops : Int)
    (now : U32) : Account where
  borrower := borrower
  assetId := assetId
  principal := principalStroops
  balance := principalStroops + cfg.creationFeeStroops.toInt
  openedAt := now
  touchedAt := now
  active := true

/-- A call that touches a loan, with the rate in force and its ledger.  A repayment states
an amount, and a liquidation none. -/
structure Touch where
  rateBps : Int
  now : U32
  repayment : Option Int
deriving DecidableEq

/-- The debt that a call finds, with the interest since the call before. -/
def Account.owed (a : Account) (t : Touch) : Int :=
  a.balance + interest a.balance t.rateBps (elapsed t.now a.touchedAt).toInt

/-- The debt that a call leaves.  A negative repayment raises it up to the largest
representable balance. -/
def Account.left (a : Account) (t : Touch) : Int :=
  match t.repayment with
  | none => 0
  | some repayment =>
      if a.owed t ≤ repayment then 0 else min (a.owed t - repayment) IntType.i128.hi

/-- The account after a call: a loan is closed when nothing is left. -/
def Account.touch (a : Account) (t : Touch) : Account :=
  { a with balance := a.left t, touchedAt := t.now, active := decide (a.left t ≠ 0) }

theorem Account.left_liquidation (a : Account) (rateBps : Int) (now : U32) :
    a.left ⟨rateBps, now, none⟩ = 0 :=
  rfl

theorem Account.left_of_le {a : Account} {rateBps repayment : Int} {now : U32}
    (h : a.owed ⟨rateBps, now, some repayment⟩ ≤ repayment) :
    a.left ⟨rateBps, now, some repayment⟩ = 0 :=
  if_pos h

theorem Account.left_of_lt {a : Account} {rateBps repayment : Int} {now : U32}
    (h : repayment < a.owed ⟨rateBps, now, some repayment⟩) :
    a.left ⟨rateBps, now, some repayment⟩ =
      min (a.owed ⟨rateBps, now, some repayment⟩ - repayment) IntType.i128.hi :=
  if_neg (not_le.mpr h)

/-- A loan that is closed is the account after a call that leaves nothing. -/
theorem account_closedLoan {loan : Loan} {rateBps : Int} {now : U32} {repayment : Option Int}
    (h : loan.account.left ⟨rateBps, now, repayment⟩ = 0) :
    (closedLoan loan now).account = loan.account.touch ⟨rateBps, now, repayment⟩ := by
  rw [Account.touch, h]
  rfl

/-! ## Calls that touch a loan -/

/-- The account of a loan that a call finds owes what the contract has accrued. -/
theorem LoanAccrues.owed {caller : Address} {loanId : BytesN} {env : Env} {s : Store}
    {cfg : Config} {loan : Loan} {accrued : I128}
    (h : LoanAccrues caller loanId env s cfg loan accrued) (repayment : Option Int) :
    loan.account.owed ⟨cfg.interestRateBps.toInt, env.sequence, repayment⟩ = accrued.toInt :=
  h.accrued_eq.2.symm

/-- A repayment does to a loan what it does to the account. -/
theorem repayLoan_account {caller : Address} {loanId : BytesN} {repaymentStroops : I128}
    {env : Env} {s s' : Store} {left : I128}
    (h : repayLoan caller loanId repaymentStroops env s = .ok (left, s')) :
    ∃ cfg loan new, s.config = some cfg ∧ s.loans.get loanId = some loan ∧
      s'.loans = s.loans.set loanId new ∧ new.account = loan.account.touch
        ⟨cfg.interestRateBps.toInt, env.sequence, some repaymentStroops.toInt⟩ := by
  rcases repayLoan_eq_ok.mp h with ⟨cfg, loan, accrued, haccrues, hrest⟩
  have howed := haccrues.owed (some repaymentStroops.toInt)
  rcases hrest with ⟨hall, -, asset, -, rfl⟩ | ⟨hpart, rfl, rfl⟩
  · refine ⟨cfg, loan, _, haccrues.config, haccrues.stored, rfl, account_closedLoan ?_⟩
    apply Account.left_of_le
    rw [howed]
    exact repaysAll_iff.mp hall
  · refine ⟨cfg, loan, _, haccrues.config, haccrues.stored, rfl, ?_⟩
    have hvalue := toInt_left hpart
    have hhi : 0 < IntType.i128.hi := by decide
    rw [repaysAll_iff, not_le] at hpart
    have hleft := Account.left_of_lt (a := loan.account) (howed ▸ hpart)
    rw [howed, ← hvalue] at hleft
    have hne : (accrued.saturatingSub repaymentStroops).toInt ≠ 0 := by omega
    rw [Account.touch, hleft, decide_eq_true hne, ← haccrues.active]
    rfl

/-- A liquidation does to a loan what it does to the account. -/
theorem liquidate_account {liquidator : Address} {loanId : BytesN} {env : Env} {s s' : Store}
    {seized : I128} (h : liquidate liquidator loanId env s = .ok (seized, s')) :
    ∃ cfg loan new, s.config = some cfg ∧ s.loans.get loanId = some loan ∧
      s'.loans = s.loans.set loanId new ∧
      new.account = loan.account.touch ⟨cfg.interestRateBps.toInt, env.sequence, none⟩ := by
  rcases liquidate_eq_ok.mp h with ⟨cfg, loan, accrued, haccrues, -, asset, -, rfl⟩
  exact ⟨cfg, loan, _, haccrues.config, haccrues.stored, rfl,
    account_closedLoan (loan.account.left_liquidation _ _)⟩

/-! ## The journal of a loan -/

/-- The account that a step opens under an id. -/
def openingOf (sha256 : Bytes → BytesN) (loanId : BytesN) (e : Store × Invocation Op) :
    Option Account :=
  match e.2.call with
  | .openLoan borrower assetId principalStroops =>
      match openLoan sha256 borrower assetId principalStroops e.2.env e.1 with
      | .ok (id, _) =>
          if id = loanId then
            e.1.config.map fun cfg =>
              cfg.opening borrower assetId principalStroops.toInt e.2.env.sequence
          else none
      | .error _ => none
  | _ => none

/-- The touch that a step is for the loan under an id. -/
def touchOf (loanId : BytesN) (e : Store × Invocation Op) : Option Touch :=
  match e.2.call with
  | .repayLoan caller id repaymentStroops =>
      if id = loanId ∧ (repayLoan caller id repaymentStroops).Succeeds e.2.env e.1 then
        e.1.config.map fun cfg =>
          ⟨cfg.interestRateBps.toInt, e.2.env.sequence, some repaymentStroops.toInt⟩
      else none
  | .liquidate liquidator id =>
      if id = loanId ∧ (liquidate liquidator id).Succeeds e.2.env e.1 then
        e.1.config.map fun cfg => ⟨cfg.interestRateBps.toInt, e.2.env.sequence, none⟩
      else none
  | _ => none

/-- The account that is stored under an id. -/
def Store.accountOf (s : Store) (loanId : BytesN) : Option Account :=
  (s.loans.get loanId).map Loan.account

theorem accountOf_of_loans {s s' : Store} (h : s'.loans = s.loans) (loanId : BytesN) :
    s'.accountOf loanId = s.accountOf loanId := by
  rw [Store.accountOf, Store.accountOf, h]

/-- A row that is rewritten by a touch. -/
theorem accountOf_touched {s s' : Store} {id : BytesN} {loan new : Loan} {t : Touch}
    (hstored : s.loans.get id = some loan) (hloans : s'.loans = s.loans.set id new)
    (hnew : new.account = loan.account.touch t) (loanId : BytesN) :
    s'.accountOf loanId =
      (s.accountOf loanId).map fun a => if id = loanId then a.touch t else a := by
  rw [Store.accountOf, Store.accountOf, hloans]
  by_cases hid : id = loanId
  · subst hid
    rw [Storage.get_set_self, hstored, Option.map_some, Option.map_some, Option.map_some,
      if_pos rfl, hnew]
  · rw [Storage.get_set_of_ne _ _ (Ne.symm hid)]
    simp only [hid, if_false, Option.map_id']

theorem step_openLoan {s : Store} {env : Env} (borrower : Address) (assetId : BytesN)
    (principalStroops : I128) (loanId : BytesN) :
    (step (exec sha256) s ⟨env, .openLoan borrower assetId principalStroops⟩).accountOf loanId =
      (openingOf sha256 loanId (s, ⟨env, .openLoan borrower assetId principalStroops⟩)).or
        (s.accountOf loanId) := by
  cases hcall : openLoan sha256 borrower assetId principalStroops env s with
  | error f =>
      have hfails : exec sha256 (.openLoan borrower assetId principalStroops) env s = .error f :=
        Call.bind_of_error hcall
      simp only [step, openingOf, hcall, Option.none_or, Call.commit_of_error hfails]
  | ok p =>
      rcases p with ⟨id, s'⟩
      have hok : exec sha256 (.openLoan borrower assetId principalStroops) env s = .ok ((), s') :=
        Call.bind_eq_ok.mpr ⟨id, s', hcall, rfl⟩
      rcases openLoan_eq_ok.mp hcall with
        ⟨cfg, asset, balance, nonce, haccepted, hbalance, -, -, hs'⟩
      rw [step_of_ok (i := ⟨env, _⟩) hok]
      simp only [openingOf, hcall, haccepted.config, Option.map_some]
      by_cases hid : id = loanId
      · subst hid
        rw [if_pos rfl, Option.some_or, hs', Store.accountOf, Store.withLoan_loans,
          Storage.get_set_self, Option.map_some]
        simp [Loan.account, Config.opening, hbalance]
      · rw [if_neg hid, Option.none_or, hs', Store.accountOf, Store.withLoan_loans,
          Storage.get_set_of_ne _ _ (Ne.symm hid)]
        rfl

/-- A call that returns with a rewritten row is a touch of that row. -/
theorem step_touch {s s' : Store} {i : Invocation Op} {id loanId : BytesN} {loan new : Loan}
    {t : Touch} (hok : exec sha256 i.call i.env s = .ok ((), s'))
    (hstored : s.loans.get id = some loan) (hloans : s'.loans = s.loans.set id new)
    (hnew : new.account = loan.account.touch t)
    (htouch : touchOf loanId (s, i) = if id = loanId then some t else none) :
    (step (exec sha256) s i).accountOf loanId =
      (s.accountOf loanId).map fun a => (touchOf loanId (s, i)).elim a a.touch := by
  rw [step_of_ok hok, accountOf_touched hstored hloans hnew, htouch]
  split <;> rfl

/-- What a step does to the row of a loan. -/
theorem accountOf_step (loanId : BytesN) (s : Store) (i : Invocation Op) :
    (step (exec sha256) s i).accountOf loanId = (openingOf sha256 loanId (s, i)).or
      ((s.accountOf loanId).map fun a => (touchOf loanId (s, i)).elim a a.touch) := by
  rcases i with ⟨env, call⟩
  have hkept : (∀ s', exec sha256 call env s = .ok ((), s') → s'.loans = s.loans) →
      (step (exec sha256) s ⟨env, call⟩).accountOf loanId = s.accountOf loanId := by
    intro hloans
    apply step_induction (P := fun t : Store => t.accountOf loanId = s.accountOf loanId) rfl
    intro s' hok
    exact accountOf_of_loans (hloans s' hok) loanId
  cases call with
  | initializeContract cfg =>
      have hsame := hkept fun s' hok => by
        rcases initializeContract_eq_ok.mp hok with ⟨-, -, -, rfl⟩
        rfl
      rw [hsame]
      simp [openingOf, touchOf]
  | registerAsset owner animalType tagId appraisedValueXlm =>
      have hsame := hkept fun s' hok => by
        rcases Call.bind_eq_ok.mp hok with ⟨id, t, hcall, hpure⟩
        cases hpure
        rcases registerAsset_eq_ok.mp hcall with ⟨-, -, -, rfl⟩
        rfl
      rw [hsame]
      simp [openingOf, touchOf]
  | submitPrice oracle price =>
      have hsame := hkept fun s' hok => by
        rcases submitPrice_eq_ok.mp hok with ⟨cfg, -, -, -, rfl⟩
        rfl
      rw [hsame]
      simp [openingOf, touchOf]
  | openLoan borrower assetId principalStroops =>
      rw [step_openLoan]
      simp [touchOf]
  | repayLoan caller id repaymentStroops =>
      rw [openingOf, Option.none_or]
      cases hcall : repayLoan caller id repaymentStroops env s with
      | error f =>
          have hfails : ¬ (repayLoan caller id repaymentStroops).Succeeds env s := by
            intro hs
            exact hs.ne_error hcall
          rw [hkept fun s' hok => by
            rcases Call.bind_eq_ok.mp hok with ⟨left, t, hreturn, -⟩
            exact absurd ⟨_, hreturn⟩ hfails]
          simp [touchOf, hfails]
      | ok p =>
          rcases p with ⟨left, s'⟩
          rcases repayLoan_account hcall with ⟨cfg, loan, new, hcfg, hstored, hloans, hnew⟩
          refine step_touch (Call.bind_eq_ok.mpr ⟨left, s', hcall, rfl⟩) hstored hloans hnew ?_
          have hsucceeds : (repayLoan caller id repaymentStroops).Succeeds env s := ⟨_, hcall⟩
          simp [touchOf, hsucceeds, hcfg]
  | liquidate liquidator id =>
      rw [openingOf, Option.none_or]
      cases hcall : liquidate liquidator id env s with
      | error f =>
          have hfails : ¬ (liquidate liquidator id).Succeeds env s := by
            intro hs
            exact hs.ne_error hcall
          rw [hkept fun s' hok => by
            rcases Call.bind_eq_ok.mp hok with ⟨seized, t, hreturn, -⟩
            exact absurd ⟨_, hreturn⟩ hfails]
          simp [touchOf, hfails]
      | ok p =>
          rcases p with ⟨seized, s'⟩
          rcases liquidate_account hcall with ⟨cfg, loan, new, hcfg, hstored, hloans, hnew⟩
          refine step_touch (Call.bind_eq_ok.mpr ⟨seized, s', hcall, rfl⟩) hstored hloans hnew ?_
          have hsucceeds : (liquidate liquidator id).Succeeds env s := ⟨_, hcall⟩
          simp [touchOf, hsucceeds, hcfg]

/-- The journal of the loan under an id. -/
def loanJournal (sha256 : Bytes → BytesN) (loanId : BytesN) :
    Journal (step (exec sha256)) Account Touch where
  read s := s.accountOf loanId
  created := openingOf sha256 loanId
  event := touchOf loanId
  apply := Account.touch
  read_step := accountOf_step loanId

/-- A loan is stored exactly if it is the replay of the run: the account that the last
opening under its id has made, changed by the repayments and liquidations that have
returned since, and by nothing else. -/
theorem loans_replayed (sha256 : Bytes → BytesN) (run : List (Invocation Op)) (loanId : BytesN)
    (a : Account) :
    (Run.final (step (exec sha256)) Store.empty run).accountOf loanId = some a ↔
      (loanJournal sha256 loanId).Replays (history sha256 run) a :=
  (loanJournal sha256 loanId).read_final_iff rfl run

end StellarKraal
end Kraal
