import Kraal.Foundation.Accrual
import Kraal.StellarKraal.LoanBook

/-!
# Touching a loan of StellarKraal

A repayment of nothing accrues the interest so far and starts the next period at the
current ledger.  Interest then compounds, and is truncated to whole stroops once more.
Whoever touches a loan at every ledger therefore keeps its interest at zero if a single
ledger earns less than a stroop.

Main results:

- Theorem {lit}`touch_eq`: the state that a touch leaves.
- Theorem {lit}`touchedBalance_eq`: a run of touches grows the balance part by part.
- Theorem {lit}`touching_loses_at_most`: touches lose at most one stroop each.
- Theorem {lit}`touching_lowers_debt`: and they do lose it.
-/

namespace Kraal
namespace StellarKraal

open Foundation

variable {sha256 : Bytes → BytesN}

/-! ## Elapsed ledgers -/

/-- The ledgers since the last touch, none if the clock stands before it. -/
theorem toInt_elapsed (now updatedAt : U32) :
    (elapsed now updatedAt).toInt = max 0 (now.toInt - updatedAt.toInt) := by
  have hnow := now.le_hi
  have hupdated : 0 ≤ updatedAt.toInt := updatedAt.lo_le
  have hlo : IntType.u32.lo = 0 := rfl
  rw [elapsed, MInt.toInt_widen, MInt.toInt_saturatingSub]
  omega

/-- The ledgers that have passed are not negative. -/
theorem elapsed_nonneg (now updatedAt : U32) : 0 ≤ (elapsed now updatedAt).toInt := by
  rw [toInt_elapsed]
  exact le_max_left _ _

/-- More ledgers have passed later. -/
theorem elapsed_mono {now now' : U32} (h : now.toInt ≤ now'.toInt) (updatedAt : U32) :
    (elapsed now updatedAt).toInt ≤ (elapsed now' updatedAt).toInt := by
  rw [toInt_elapsed, toInt_elapsed]
  omega

/-- A debt is the balance grown over the elapsed ledgers. -/
theorem debt_eq_grow (cfg : Config) (loan : Loan) (now : U32) :
    debt cfg loan now = Accrual.grow 63072000000 cfg.interestRateBps.toInt loan.balance.toInt
      (elapsed now loan.updatedAt).toInt :=
  rfl

/-- Interest does not lower the balance. -/
theorem balance_le_debt {cfg : Config} (hrate : 0 ≤ cfg.interestRateBps.toInt) {loan : Loan}
    (hbalance : 0 ≤ loan.balance.toInt) (now : U32) : loan.balance.toInt ≤ debt cfg loan now :=
  Accrual.le_grow (by decide) hrate hbalance (elapsed_nonneg now loan.updatedAt)

/-- The debt grows. -/
theorem debt_mono {cfg : Config} (hrate : 0 ≤ cfg.interestRateBps.toInt) {loan : Loan}
    (hbalance : 0 ≤ loan.balance.toInt) {now now' : U32} (h : now.toInt ≤ now'.toInt) :
    debt cfg loan now ≤ debt cfg loan now' :=
  Accrual.grow_mono (by decide) hrate hbalance (elapsed_mono h loan.updatedAt)

/-! ## One touch -/

/-- A repayment of nothing, by anybody. -/
def touch (loanId : BytesN) (t : Address × Env) : Invocation Op :=
  ⟨t.2, .repayLoan t.1 loanId 0⟩

/-- A loan that earns interest: it is active and owes something, at a rate that is not
negative. -/
structure Earning (s : Store) (loanId : BytesN) (cfg : Config) (loan : Loan) : Prop where
  config : s.config = some cfg
  rate_nonneg : 0 ≤ cfg.interestRateBps.toInt
  stored : s.loans.get loanId = some loan
  active : loan.active = true
  balance_pos : 0 < loan.balance.toInt

/-- A loan that earns is owed. -/
theorem Earning.debt_pos {s : Store} {loanId : BytesN} {cfg : Config} {loan : Loan}
    (h : Earning s loanId cfg loan) (now : U32) : 0 < debt cfg loan now :=
  h.balance_pos.trans_le (balance_le_debt h.rate_nonneg h.balance_pos.le now)

/-- A touch that succeeds writes the accrued balance, and nothing else. -/
theorem touch_eq {s : Store} {loanId : BytesN} {cfg : Config} {loan : Loan} {t : Address × Env}
    (h : Earning s loanId cfg loan)
    (hok : (exec sha256 (touch loanId t).call).Succeeds t.2 s) :
    ∃ accrued, accrued.toInt = debt cfg loan t.2.sequence ∧
      step (exec sha256) s (touch loanId t) =
        s.withLoan loanId (repaidLoan loan accrued t.2.sequence) := by
  rcases hok with ⟨⟨⟨⟩, s'⟩, hexec⟩
  have hstep : step (exec sha256) s (touch loanId t) = s' := step_of_ok hexec
  rcases Call.bind_eq_ok.mp hexec with ⟨left, s'', hrepay, hpure⟩
  cases hpure
  rcases repayLoan_eq_ok.mp hrepay with ⟨cfg', loan', accrued, haccrues, hrest⟩
  have hcfg := haccrues.config
  have hloan := haccrues.stored
  rw [h.config, Option.some.injEq] at hcfg
  rw [h.stored, Option.some.injEq] at hloan
  subst hcfg
  subst hloan
  have hdebt : accrued.toInt = debt cfg loan t.2.sequence := haccrues.accrued_eq.2
  have hpos := h.debt_pos t.2.sequence
  have hpart : ¬ RepaysAll accrued 0 := by
    rw [repaysAll_iff, MInt.toInt_zero]
    omega
  rcases hrest with ⟨hall, -⟩ | ⟨-, rfl, rfl⟩
  · exact absurd hall hpart
  · refine ⟨accrued.saturatingSub 0, ?_, hstep⟩
    have hmax := accrued.le_hi
    rw [toInt_left hpart, MInt.toInt_zero, sub_zero, min_eq_left hmax, hdebt]

/-- A touched loan keeps earning. -/
theorem Earning.withLoan {s : Store} {loanId : BytesN} {cfg : Config} {loan : Loan}
    (h : Earning s loanId cfg loan) {accrued : I128} (hpos : 0 < accrued.toInt) (now : U32) :
    Earning (s.withLoan loanId (repaidLoan loan accrued now)) loanId cfg
      (repaidLoan loan accrued now) :=
  ⟨h.config, h.rate_nonneg, Storage.get_set_self _ _ _, h.active, hpos⟩

/-- A touch of a loan that earns interest returns if the accrual does. -/
theorem touch_eq_ok {s : Store} {loanId : BytesN} {cfg : Config} {loan : Loan}
    {t : Address × Env} {accrued : I128} (h : Earning s loanId cfg loan)
    (hauth : t.2.authorized t.1 = true)
    (haccrued : Accrued loan.balance cfg.interestRateBps (elapsed t.2.sequence loan.updatedAt)
      accrued) :
    (exec sha256 (touch loanId t).call).Succeeds t.2 s := by
  have hdebt : accrued.toInt = debt cfg loan t.2.sequence := haccrued.2
  have hpos := h.debt_pos t.2.sequence
  have hpart : ¬ RepaysAll accrued 0 := by
    rw [repaysAll_iff, MInt.toInt_zero]
    omega
  refine ⟨((), _), Call.bind_eq_ok.mpr ⟨_, _, repayLoan_eq_ok.mpr ⟨cfg, loan, accrued, ?_,
    .inr ⟨hpart, rfl, rfl⟩⟩, rfl⟩⟩
  exact ⟨h.config, hauth, h.stored, h.active, haccrued⟩

/-! ## Many touches -/

/-- Every call of a run returns. -/
def AllSucceed (sha256 : Bytes → BytesN) (s : Store) (run : List (Invocation Op)) : Prop :=
  ∀ e ∈ Run.trace (step (exec sha256)) s run, (exec sha256 e.2.call).Succeeds e.2.env e.1

/-- No calls all succeed. -/
theorem allSucceed_nil (s : Store) : AllSucceed sha256 s [] := by
  intro e he
  cases he

/-- Calls succeed when the first and the others do. -/
theorem allSucceed_cons {s : Store} {i : Invocation Op} {run : List (Invocation Op)} :
    AllSucceed sha256 s (i :: run) ↔
      (exec sha256 i.call).Succeeds i.env s ∧ AllSucceed sha256 (step (exec sha256) s i) run := by
  unfold AllSucceed
  rw [Run.trace_cons, List.forall_mem_cons]

/-- The balance of a stored loan, zero if there is none. -/
def Store.balanceOf (s : Store) (loanId : BytesN) : Int :=
  ((s.loans.get loanId).map fun loan => loan.balance.toInt).getD 0

/-- The balance of a loan that is stored. -/
theorem Store.balanceOf_of_get {s : Store} {loanId : BytesN} {loan : Loan}
    (h : s.loans.get loanId = some loan) : s.balanceOf loanId = loan.balance.toInt := by
  rw [Store.balanceOf, h, Option.map_some, Option.getD_some]

/-- The ledgers of a sequence of touches. -/
def ledgersOf (touches : List (Address × Env)) : List Int :=
  touches.map fun t => t.2.sequence.toInt

/-- The ledgers of a touch and of the rest. -/
@[simp]
theorem ledgersOf_cons (t : Address × Env) (touches : List (Address × Env)) :
    ledgersOf (t :: touches) = t.2.sequence.toInt :: ledgersOf touches :=
  rfl

/-- The ledgers after one more touch. -/
@[simp]
theorem ledgersOf_append_singleton (touches : List (Address × Env)) (t : Address × Env) :
    ledgersOf (touches ++ [t]) = ledgersOf touches ++ [t.2.sequence.toInt] := by
  simp [ledgersOf]

/-- There is one ledger to a touch. -/
@[simp]
theorem length_ledgersOf (touches : List (Address × Env)) :
    (ledgersOf touches).length = touches.length :=
  List.length_map _

/-- The balance after a run of touches. -/
def touchedBalance (sha256 : Bytes → BytesN) (s : Store) (loanId : BytesN)
    (touches : List (Address × Env)) : Int :=
  (Run.final (step (exec sha256)) s (touches.map (touch loanId))).balanceOf loanId

/-- A run of touches grows the balance over the times between them. -/
theorem touchedBalance_eq {touches : List (Address × Env)} {s : Store} {loanId : BytesN}
    {cfg : Config} {loan : Loan} (h : Earning s loanId cfg loan)
    (hok : AllSucceed sha256 s (touches.map (touch loanId))) :
    touchedBalance sha256 s loanId touches =
      Accrual.growAll 63072000000 cfg.interestRateBps.toInt loan.balance.toInt
        (Accrual.spans loan.updatedAt.toInt (ledgersOf touches)) := by
  induction touches generalizing s loan with
  | nil => exact Store.balanceOf_of_get h.stored
  | cons t touches ih =>
      rcases allSucceed_cons.mp hok with ⟨hfirst, hrest⟩
      rcases touch_eq h hfirst with ⟨accrued, hdebt, hstep⟩
      have hpos : 0 < accrued.toInt := by
        rw [hdebt]
        exact h.debt_pos t.2.sequence
      have hnext := h.withLoan hpos t.2.sequence
      rw [← hstep] at hnext
      have hgrown := ih hnext hrest
      rw [debt_eq_grow, toInt_elapsed] at hdebt
      rw [ledgersOf_cons, Accrual.spans, Accrual.growAll_cons, ← hdebt]
      exact hgrown

/-! ## Many touches against one -/

/-- Two runs from one loan that earns interest: it is touched at increasing ledgers, or
once at the last of them. -/
structure TouchedTwice (sha256 : Bytes → BytesN) (s : Store) (loanId : BytesN)
    (touches : List (Address × Env)) (last once : Address × Env) : Prop where
  earning : ∃ cfg loan, Earning s loanId cfg loan
  increasing : (ledgersOf (touches ++ [last])).Pairwise (· ≤ ·)
  same_ledger : once.2.sequence = last.2.sequence
  touches_succeed : AllSucceed sha256 s ((touches ++ [last]).map (touch loanId))
  once_succeeds : AllSucceed sha256 s ([once].map (touch loanId))

/-- Touching a loan before its last touch loses at most one stroop each time. -/
theorem touching_loses_at_most {s : Store} {loanId : BytesN} {touches : List (Address × Env)}
    {last once : Address × Env} (h : TouchedTwice sha256 s loanId touches last once) :
    touchedBalance sha256 s loanId [once] ≤
      touchedBalance sha256 s loanId (touches ++ [last]) + touches.length := by
  rcases h.earning with ⟨cfg, loan, hearning⟩
  rw [touchedBalance_eq hearning h.touches_succeed, touchedBalance_eq hearning h.once_succeeds,
    ledgersOf_append_singleton, ← h.same_ledger]
  -- the times between the touches cover the one period
  have hnonneg := Accrual.spans_nonneg loan.updatedAt.toInt
    (ledgersOf touches ++ [once.2.sequence.toInt])
  have hcover := Accrual.le_sum_spans loan.updatedAt.toInt (ledgersOf touches)
    once.2.sequence.toInt
  have hloss := Accrual.grow_le_growAll (by decide : (0 : Int) < 63072000000)
    hearning.rate_nonneg hearning.balance_pos.le hnonneg
    (Accrual.spans_ne_nil _ (by simp)) (max_le (List.sum_nonneg hnonneg) hcover)
  rw [Accrual.length_spans, List.length_append, length_ledgersOf, List.length_singleton] at hloss
  push_cast at hloss
  rw [add_sub_cancel_right] at hloss
  exact hloss

/-! ## A loan that is kept from earning -/

/-- A touch by its signer. -/
def signedTouch (sequence : U32) : Address × Env := (⟨7⟩, .signedBy sequence [⟨7⟩])

/-- The loan that was opened earns. -/
theorem openedStore_earning (sha256 : Bytes → BytesN) :
    Earning (openedStore sha256 ⟨4⟩ (sampleLoanId sha256)) (sampleLoanId sha256) sampleConfig
      (sampleLoan sha256) :=
  ⟨rfl, by decide, Storage.get_set_self _ _ _, rfl, (by decide : (0 : Int) < 105)⟩

/-- The loan can be opened. -/
theorem openedStore_reachable (sha256 : Bytes → BytesN) :
    Run.Reachable (step (exec sha256)) Store.empty
      (openedStore sha256 ⟨4⟩ (sampleLoanId sha256)) :=
  ⟨loanRun sha256 ⟨4⟩, (final_loanRun sha256 ⟨4⟩).symm⟩

/-- The loan earns one stroop over the whole time, and none in either half of it. -/
theorem openedStore_touchedTwice (sha256 : Bytes → BytesN) :
    TouchedTwice sha256 (openedStore sha256 ⟨4⟩ (sampleLoanId sha256)) (sampleLoanId sha256)
      [signedTouch 700009] (signedTouch 1400009) (signedTouch 1400009) := by
  have hearning := openedStore_earning sha256
  have hhalf : Accrued (105 : I128) sampleConfig.interestRateBps 700000 105 :=
    ⟨⟨52500, 36750000000, 0, rfl, rfl, rfl⟩, rfl⟩
  have hwhole : Accrued (105 : I128) sampleConfig.interestRateBps 1400000 106 :=
    ⟨⟨52500, 73500000000, 1, rfl, rfl, rfl⟩, rfl⟩
  have hearly : (exec sha256 (touch (sampleLoanId sha256) (signedTouch 700009)).call).Succeeds
      (signedTouch 700009).2 _ := touch_eq_ok hearning rfl hhalf
  rcases touch_eq hearning hearly with ⟨accrued, hdebt, hstep⟩
  have hpos : 0 < accrued.toInt := by
    rw [hdebt]
    exact hearning.debt_pos _
  have hvalue : accrued = 105 := MInt.ext hdebt
  have hnext := hearning.withLoan hpos 700009
  rw [hvalue] at hstep hnext
  have hlate : (exec sha256 (touch (sampleLoanId sha256) (signedTouch 1400009)).call).Succeeds
      (signedTouch 1400009).2 _ := touch_eq_ok hnext rfl hhalf
  refine ⟨⟨_, _, hearning⟩, by decide, rfl, ?_, ?_⟩
  · refine allSucceed_cons.mpr ⟨hearly, allSucceed_cons.mpr ⟨?_, allSucceed_nil _⟩⟩
    rw [hstep]
    exact hlate
  · exact allSucceed_cons.mpr ⟨touch_eq_ok hearning rfl hwhole, allSucceed_nil _⟩

theorem openedStore_loses_at_most :
    touchedBalance BytesN.mk (openedStore BytesN.mk ⟨4⟩ (sampleLoanId BytesN.mk))
        (sampleLoanId BytesN.mk) [signedTouch 1400009] ≤
      touchedBalance BytesN.mk (openedStore BytesN.mk ⟨4⟩ (sampleLoanId BytesN.mk))
        (sampleLoanId BytesN.mk) ([signedTouch 700009] ++ [signedTouch 1400009]) + 1 :=
  touching_loses_at_most (openedStore_touchedTwice BytesN.mk)

/-- Under every hash, a touch in between lowers the debt of a loan in a reachable state. -/
theorem touching_lowers_debt : ¬ ∃ sha256 : Bytes → BytesN, ∀ s loanId touches last once,
    Run.Reachable (step (exec sha256)) Store.empty s →
    TouchedTwice sha256 s loanId touches last once →
    touchedBalance sha256 s loanId [once] ≤
      touchedBalance sha256 s loanId (touches ++ [last]) := by
  intro h
  rcases h with ⟨sha256, hnever⟩
  have htwice := openedStore_touchedTwice sha256
  have hearning := openedStore_earning sha256
  have hmany : touchedBalance sha256 (openedStore sha256 ⟨4⟩ (sampleLoanId sha256))
      (sampleLoanId sha256) ([signedTouch 700009] ++ [signedTouch 1400009]) = 105 :=
    touchedBalance_eq hearning htwice.touches_succeed
  have hone : touchedBalance sha256 (openedStore sha256 ⟨4⟩ (sampleLoanId sha256))
      (sampleLoanId sha256) [signedTouch 1400009] = 106 :=
    touchedBalance_eq hearning htwice.once_succeeds
  have hle := hnever _ _ _ _ _ (openedStore_reachable sha256) htwice
  rw [hmany, hone] at hle
  exact absurd hle (by decide)

end StellarKraal
end Kraal
