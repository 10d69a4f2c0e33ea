import Kraal.CarbonCredit.Contract
import Kraal.Foundation.Ledger

/-!
# Conservation in the credit contract

The balance rows of a project always add up to its stored total supply, although
the sum ranges over an unbounded set of holders and no operation ever computes it.
From this follows that the saturating and the unchecked arithmetic of the contract
is exact, and that every operation acts on the abstract ledger of balances and
supplies as the movement it is named after.

Main results:

- Definition {lit}`Conserved` and theorem {lit}`Conserved.step`: the invariant and
  its preservation by every operation.
- Theorem {lit}`ledger_conserved`: conservation and exact arithmetic in every
  reachable state.
- Theorem {lit}`exec_refines`: every operation acts on the abstract ledger as the
  movements it stands for.
-/

namespace Kraal
namespace CarbonCredit

open Foundation

/-! ## Positive rows -/

section Rows

variable {K : Type} [DecidableEq K]

/-- Every stored amount is strictly positive. -/
def RowsPositive (rows : Storage K I128) : Prop :=
  ∀ k amount, rows.get k = some amount → 0 < amount.toInt

/-- No amount is stored at first. -/
theorem rowsPositive_empty : RowsPositive (Storage.empty : Storage K I128) := by
  intro k amount h
  simp at h

/-- A positive amount may be stored. -/
theorem RowsPositive.set {rows : Storage K I128} (hrows : RowsPositive rows) (k : K)
    {amount : I128} (hamount : 0 < amount.toInt) : RowsPositive (rows.set k amount) :=
  Storage.forall_get_set hrows hamount

/-- Removing the row at zero keeps the rows positive after any nonnegative write. -/
theorem RowsPositive.writeAmountOrRemove {rows : Storage K I128} (hrows : RowsPositive rows)
    (k : K) {amount : I128} (hamount : 0 ≤ amount.toInt) :
    RowsPositive (writeAmountOrRemove rows k amount) := by
  unfold CarbonCredit.writeAmountOrRemove
  by_cases hzero : amount = 0
  · rw [if_pos hzero]
    intro k' amount' h
    rw [Storage.get_remove] at h
    split at h
    · cases h
    · exact hrows k' amount' h
  · rw [if_neg hzero]
    have hne : amount.toInt ≠ 0 := fun h => hzero (MInt.eq_zero_iff.mpr h)
    exact hrows.set k (by omega)

/-- No amount is negative. -/
theorem RowsPositive.amountAt_nonneg {rows : Storage K I128} (hrows : RowsPositive rows) (k : K) :
    0 ≤ (amountAt rows k).toInt := by
  unfold amountAt
  cases h : rows.get k with
  | none => simp
  | some amount => exact (hrows k amount h).le

end Rows

/-! ## The sum of all balances of a project -/

/-- What a balance row contributes to the holdings of a project. -/
def holding (projectId : BytesN) (k : Address × BytesN) (amount : I128) : Int :=
  if k.2 = projectId then amount.toInt else 0

/-- The sum of all balance rows of a project. -/
def Store.sumOfBalances (s : Store) (projectId : BytesN) : Int :=
  s.balances.sum (holding projectId)

/-- What a row counts for a project. -/
theorem weightAt_holding (rows : Storage (Address × BytesN) I128) (projectId : BytesN)
    (k : Address × BytesN) :
    rows.weightAt (holding projectId) k = holding projectId k (amountAt rows k) := by
  unfold Storage.weightAt amountAt holding
  cases rows.get k <;> simp

/-- The sum for a project after a write. -/
theorem sum_holding_set (rows : Storage (Address × BytesN) I128) (projectId : BytesN)
    (k : Address × BytesN) (amount : I128) :
    (rows.set k amount).sum (holding projectId) =
      rows.sum (holding projectId) - holding projectId k (amountAt rows k) +
        holding projectId k amount := by
  rw [Storage.sum_set, weightAt_holding]

/-- A row removed at zero counts as the zero that was written. -/
theorem sum_holding_writeAmountOrRemove (rows : Storage (Address × BytesN) I128)
    (projectId : BytesN) (k : Address × BytesN) (amount : I128) :
    (writeAmountOrRemove rows k amount).sum (holding projectId) =
      rows.sum (holding projectId) - holding projectId k (amountAt rows k) +
        holding projectId k amount := by
  unfold writeAmountOrRemove
  by_cases hzero : amount = 0
  · rw [if_pos hzero, Storage.sum_remove, weightAt_holding, hzero]
    simp [holding]
  · rw [if_neg hzero, sum_holding_set]

/-! ## The conservation invariant -/

/-- The ledger is conserved: all stored amounts are positive and the balances of
every project add up to its total supply. -/
structure Conserved (s : Store) : Prop where
  balances_pos : RowsPositive s.balances
  supplies_pos : RowsPositive s.supplies
  sum_eq : ∀ projectId, s.sumOfBalances projectId = (s.totalSupply projectId).toInt

/-- The sums agree at first. -/
theorem conserved_empty : Conserved Store.empty where
  balances_pos := rowsPositive_empty
  supplies_pos := rowsPositive_empty
  sum_eq projectId := by
    simp [Store.sumOfBalances, Store.totalSupply, Store.empty]

namespace Conserved

variable {s : Store}

/-- No balance is negative. -/
theorem balance_nonneg (hs : Conserved s) (owner : Address) (projectId : BytesN) :
    0 ≤ (s.balanceOf owner projectId).toInt :=
  hs.balances_pos.amountAt_nonneg _

/-- No row counts negatively. -/
private theorem holding_nonneg (hs : Conserved s) (projectId : BytesN) (k : Address × BytesN)
    (amount : I128) (h : s.balances.get k = some amount) : 0 ≤ holding projectId k amount := by
  unfold holding
  split
  · exact (hs.balances_pos k amount h).le
  · exact le_rfl

/-- No balance exceeds the total supply. -/
theorem balance_le_supply (hs : Conserved s) (owner : Address) (projectId : BytesN) :
    (s.balanceOf owner projectId).toInt ≤ (s.totalSupply projectId).toInt := by
  have h := Storage.weightAt_le_sum (hs.holding_nonneg projectId) (owner, projectId)
  rw [weightAt_holding, holding, if_pos rfl] at h
  rw [← hs.sum_eq]
  exact h

/-- Two holders together own at most the total supply. -/
theorem balances_le_supply (hs : Conserved s) {owner owner' : Address} (hne : owner ≠ owner')
    (projectId : BytesN) :
    (s.balanceOf owner projectId).toInt + (s.balanceOf owner' projectId).toInt ≤
      (s.totalSupply projectId).toInt := by
  have hkeys : (owner, projectId) ≠ (owner', projectId) := fun h => hne (Prod.mk.inj h).1
  have h := Storage.weightAt_add_le_sum (hs.holding_nonneg projectId) hkeys
  rw [weightAt_holding, weightAt_holding, holding, holding, if_pos rfl, if_pos rfl] at h
  rw [← hs.sum_eq]
  exact h

/-- A covered amount leaves the supply without saturation. -/
theorem supply_exact (hs : Conserved s) {owner : Address} {projectId : BytesN} {amount : I128}
    (hpos : 0 < amount.toInt) (hle : amount.toInt ≤ (s.balanceOf owner projectId).toInt) :
    ((s.totalSupply projectId).saturatingSub amount).toInt =
      (s.totalSupply projectId).toInt - amount.toInt := by
  have hcover := hs.balance_le_supply owner projectId
  have hhi := (s.totalSupply projectId).le_hi
  have hlo := IntType.i128.lo_le_zero
  exact MInt.saturatingSub_exact (by omega) (by omega)

/-! ### Preservation by the operations -/

/-- Minting keeps the sums. -/
theorem mint (hs : Conserved s) {registry : ProjectQuery} {recipient : Address}
    {projectId : BytesN} {amount : I128} {env : Env} {s' : Store}
    (h : mint registry recipient projectId amount env s = .ok ((), s')) : Conserved s' := by
  rcases mint_eq_ok.mp h with
    ⟨⟨cfg, project, -, -, hpos, -, -⟩, newBalance, hbalance, newSupply, hsupply, rfl⟩
  have hnonneg := hs.balance_nonneg recipient projectId
  have hsupplyNonneg := hs.supplies_pos.amountAt_nonneg projectId
  have hsum := hs.sum_eq
  simp only [Store.sumOfBalances, Store.totalSupply, Store.balanceOf] at *
  refine ⟨hs.balances_pos.set _ (by omega), hs.supplies_pos.writeAmountOrRemove _ (by omega), ?_⟩
  intro projectId'
  simp only [Store.sumOfBalances, Store.totalSupply, Store.withSupplies, Store.withBalances]
  rw [sum_holding_set, amountAt_writeAmountOrRemove, hsum]
  by_cases hproject : projectId' = projectId
  · subst hproject
    simp only [holding, if_true]
    omega
  · simp [holding, hproject, Ne.symm hproject]

/-- Removing credits keeps the sums. -/
theorem removeCredits (hs : Conserved s) {owner : Address} {projectId : BytesN} {amount : I128}
    {env : Env} {s' : Store} (hpos : 0 < amount.toInt)
    (h : removeCredits owner projectId amount env s = .ok ((), s')) : Conserved s' := by
  rcases removeCredits_eq_ok.mp h with ⟨hle, newBalance, hbalance, rfl⟩
  have hcover := hs.balance_le_supply owner projectId
  have hexact := hs.supply_exact hpos hle
  have hsum := hs.sum_eq
  simp only [Store.sumOfBalances, Store.totalSupply, Store.balanceOf] at *
  refine ⟨hs.balances_pos.writeAmountOrRemove _ (by omega),
    hs.supplies_pos.writeAmountOrRemove _ (by rw [hexact]; omega), ?_⟩
  intro projectId'
  simp only [Store.sumOfBalances, Store.totalSupply, Store.withSupplies, Store.withBalances]
  rw [sum_holding_writeAmountOrRemove, amountAt_writeAmountOrRemove, hsum]
  by_cases hproject : projectId' = projectId
  · subst hproject
    simp only [holding, if_true]
    omega
  · simp [holding, hproject, Ne.symm hproject]

/-- A transfer keeps the sums. -/
theorem transfer (hs : Conserved s) {sender recipient : Address} {projectId : BytesN}
    {amount : I128} {env : Env} {s' : Store}
    (h : transfer sender recipient projectId amount env s = .ok ((), s')) : Conserved s' := by
  rcases transfer_eq_ok.mp h with ⟨⟨-, -, hpos⟩, ⟨-, rfl⟩ |
    ⟨hne, hle, newFromBal, hfrom, newToBal, hto, rfl⟩⟩
  · exact hs
  · have hnonneg := hs.balance_nonneg recipient projectId
    have hsum := hs.sum_eq
    have hkeys : (recipient, projectId) ≠ (sender, projectId) :=
      fun h => hne (Prod.mk.inj h).1.symm
    simp only [Store.sumOfBalances, Store.totalSupply, Store.balanceOf] at *
    refine ⟨(hs.balances_pos.writeAmountOrRemove _ (by omega)).set _ (by omega),
      hs.supplies_pos, ?_⟩
    intro projectId'
    simp only [Store.sumOfBalances, Store.totalSupply, Store.withBalances]
    rw [sum_holding_set, sum_holding_writeAmountOrRemove, amountAt_writeAmountOrRemove,
      if_neg hkeys, hsum]
    unfold holding
    split <;> omega

/-- Some transfers keep the sums. -/
theorem transferAll (hs : Conserved s) {sender : Address}
    {transfers : List (Address × BytesN × I128)} {env : Env} {s' : Store}
    (h : transferAll sender transfers env s = .ok ((), s')) : Conserved s' := by
  induction transfers generalizing s with
  | nil =>
      cases h
      exact hs
  | cons t transfers ih =>
      rcases Call.bind_eq_ok.mp h with ⟨_, t', hfirst, hrest⟩
      exact ih (hs.transfer hfirst) hrest

/-- Retiring keeps the sums. -/
theorem retire (hs : Conserved s) {owner : Address} {projectId : BytesN} {amount : I128}
    {operationId : BytesN} {env : Env} {s' : Store}
    (h : retire owner projectId amount operationId env s = .ok ((), s')) : Conserved s' := by
  rcases retire_eq_ok.mp h with ⟨⟨-, -, hpos⟩, -, t, hremove, newRetired, -, rfl⟩
  -- the recorded operation and the retired pool are no part of the invariant
  have hrecorded : Conserved { s with retireOps := s.retireOps.set operationId true } :=
    ⟨hs.balances_pos, hs.supplies_pos, hs.sum_eq⟩
  have ht := hrecorded.removeCredits hpos hremove
  exact ⟨ht.balances_pos, ht.supplies_pos, ht.sum_eq⟩

/-- Every operation that returns keeps the ledger conserved. -/
theorem exec (hs : Conserved s) {registry : ProjectQuery} {op : Op} {env : Env} {s' : Store}
    (h : exec registry op env s = .ok ((), s')) : Conserved s' := by
  cases op with
  | initializeContract admin registry marketplace =>
      rcases initializeContract_eq_ok.mp h with ⟨-, rfl⟩
      exact ⟨hs.balances_pos, hs.supplies_pos, hs.sum_eq⟩
  | mint recipient projectId amount => exact hs.mint h
  | transfer sender recipient projectId amount => exact hs.transfer h
  | burn owner projectId amount =>
      rcases burn_eq_ok.mp h with ⟨-, hpos, hremove⟩
      exact hs.removeCredits hpos hremove
  | retire owner projectId amount operationId => exact hs.retire h
  | batchTransfer sender transfers => exact hs.transferAll (batchTransfer_eq_ok.mp h).2

/-- Every operation keeps the ledger conserved, whether it returns or fails. -/
theorem step (hs : Conserved s) (i : Invocation Answered) :
    Conserved (Kraal.step execAnswered s i) :=
  step_induction hs fun _ => hs.exec

end Conserved

/-- The sums agree in every reachable state. -/
theorem reachable_conserved {s : Store} (hs : Run.Reachable (step execAnswered) Store.empty s) :
    Conserved s :=
  hs.invariant conserved_empty fun _ i hs => hs.step i

/-! ## Exact arithmetic -/

/-- The arithmetic of the contract is exact in a state: the saturating subtraction
never saturates, the plain subtractions never trap and the credit to the recipient
of a transfer never overflows. -/
structure ExactArithmetic (s : Store) : Prop where
  supply_exact : ∀ owner projectId (amount : I128), 0 < amount.toInt →
    amount.toInt ≤ (s.balanceOf owner projectId).toInt →
    ((s.totalSupply projectId).saturatingSub amount).toInt =
      (s.totalSupply projectId).toInt - amount.toInt
  remove_never_traps : ∀ owner projectId amount env, 0 < amount.toInt →
    removeCredits owner projectId amount env s ≠ .error .trap
  transfer_never_traps : ∀ sender recipient projectId amount env,
    env.authorized sender = true →
    transfer sender recipient projectId amount env s ≠ .error .trap
  transfer_never_overflows : ∀ sender recipient projectId amount env,
    transfer sender recipient projectId amount env s = .error (.error .invalidAmount) →
    amount.toInt ≤ 0

/-- A balance that covers a positive amount can be reduced by it. -/
theorem checkedSub_of_covered {balance amount : I128} (hpos : 0 < amount.toInt)
    (hle : amount.toInt ≤ balance.toInt) : balance.checkedSub amount ≠ none := by
  have hhi := balance.le_hi
  have hlo := IntType.i128.lo_le_zero
  rw [← Option.isSome_iff_ne_none]
  exact MInt.checkedSub_isSome (by omega) (by omega)

namespace Conserved

variable {s : Store}

/-- A recipient can take whatever another holder owns. -/
theorem checkedAdd_of_owned (hs : Conserved s) {sender recipient : Address} {projectId : BytesN}
    {amount : I128} (hne : sender ≠ recipient) (hpos : 0 < amount.toInt)
    (hle : amount.toInt ≤ (s.balanceOf sender projectId).toInt) :
    (s.balanceOf recipient projectId).checkedAdd amount ≠ none := by
  have hboth := hs.balances_le_supply hne projectId
  have hnonneg := hs.balance_nonneg recipient projectId
  have hhi := (s.totalSupply projectId).le_hi
  have hlo := IntType.i128.lo_le_zero
  rw [← Option.isSome_iff_ne_none]
  exact MInt.checkedAdd_isSome (by omega) (by omega)

/-- No sum overflows where the sums agree. -/
theorem exactArithmetic (hs : Conserved s) : ExactArithmetic s where
  supply_exact _ _ _ hpos hle := hs.supply_exact hpos hle
  remove_never_traps owner projectId amount env hpos htrap := by
    rcases removeCredits_eq_error.mp htrap with ⟨-, hf⟩ | ⟨hle, hsub, -⟩
    · cases hf
    · exact checkedSub_of_covered hpos hle hsub
  transfer_never_traps sender recipient projectId amount env hauth htrap := by
    rcases transfer_eq_error.mp htrap with ⟨hunauth, -⟩ | ⟨-, ⟨-, hf⟩ | ⟨-, ⟨-, hf⟩ |
      ⟨hpos, -, ⟨-, hf⟩ | ⟨hle, ⟨hsub, -⟩ | ⟨-, -, hf⟩⟩⟩⟩⟩
    · rw [hauth] at hunauth
      cases hunauth
    · cases hf
    · cases hf
    · cases hf
    · exact checkedSub_of_covered hpos hle hsub
    · cases hf
  transfer_never_overflows sender recipient projectId amount env hoverflow := by
    rcases transfer_eq_error.mp hoverflow with ⟨-, hf⟩ | ⟨-, ⟨-, hf⟩ | ⟨-, ⟨hnonpos, -⟩ |
      ⟨hpos, hne, ⟨-, hf⟩ | ⟨hle, ⟨-, hf⟩ | ⟨-, hadd, -⟩⟩⟩⟩⟩
    · cases hf
    · cases hf
    · exact hnonpos
    · cases hf
    · cases hf
    · exact absurd hadd (hs.checkedAdd_of_owned hne hpos hle)

end Conserved

/-- In every state that a run reaches, and in every state inside a batch that starts
there, the balances of each project add up to its supply, all stored amounts are
positive and the arithmetic is exact. -/
theorem ledger_conserved (run : List (Invocation Answered)) :
    Conserved (Run.final (step execAnswered) Store.empty run) ∧
    ∀ sender transfers env t,
      transferAll sender transfers env (Run.final (step execAnswered) Store.empty run) =
        .ok ((), t) →
      Conserved t ∧ ExactArithmetic t := by
  have hfinal : Conserved (Run.final (step execAnswered) Store.empty run) :=
    reachable_conserved ⟨run, rfl⟩
  refine ⟨hfinal, ?_⟩
  intro sender transfers env t hbatch
  have ht : Conserved t := hfinal.transferAll hbatch
  exact ⟨ht, ht.exactArithmetic⟩

/-! ## Refinement of the abstract ledger -/

/-- The abstract ledger that a store represents. -/
def Store.ledger (s : Store) : Ledger Address BytesN where
  balance owner projectId := (s.balanceOf owner projectId).toInt
  supply projectId := (s.totalSupply projectId).toInt
  retired projectId := (s.retiredSupply projectId).toInt

/-- A row whose amount changes by `n` changes the amount read there, and nowhere else. -/
theorem toInt_write {K : Type} [DecidableEq K] {rows : Storage K I128} {k : K} {amount : I128}
    {n : Int} (h : amount.toInt = (amountAt rows k).toInt + n) (k' : K) :
    (if k' = k then amount else amountAt rows k').toInt =
      (amountAt rows k').toInt + if k' = k then n else 0 := by
  by_cases hkey : k' = k
  · rw [if_pos hkey, if_pos hkey, h, hkey]
  · rw [if_neg hkey, if_neg hkey, Int.add_zero]

/-- Minting is minting in the ledger. -/
theorem mint_refines {registry : ProjectQuery} {recipient : Address} {projectId : BytesN}
    {amount : I128} {env : Env} {s s' : Store}
    (h : mint registry recipient projectId amount env s = .ok ((), s')) :
    s'.ledger = s.ledger.mint recipient projectId amount.toInt := by
  rcases mint_eq_ok.mp h with ⟨-, newBalance, hbalance, newSupply, hsupply, rfl⟩
  ext owner' projectId'
  · change (amountAt (s.balances.set _ _) _).toInt = _
    rw [amountAt_set, toInt_write hbalance]
    simp [Store.ledger, Ledger.mint, Ledger.amountFor, Store.balanceOf]
  · change (amountAt (writeAmountOrRemove s.supplies _ _) _).toInt = _
    rw [amountAt_writeAmountOrRemove, toInt_write hsupply]
    rfl
  · rfl

/-- What `burn` and `retire` share acts as a burn, unless the supply saturates. -/
theorem removeCredits_refines {owner : Address} {projectId : BytesN} {amount : I128} {env : Env}
    {s s' : Store} (hs : Conserved s) (hpos : 0 < amount.toInt)
    (h : removeCredits owner projectId amount env s = .ok ((), s')) :
    s'.ledger = s.ledger.burn owner projectId amount.toInt := by
  rcases removeCredits_eq_ok.mp h with ⟨hle, newBalance, hbalance, rfl⟩
  have hsupply := hs.supply_exact hpos hle
  rw [Int.sub_eq_add_neg] at hbalance hsupply
  ext owner' projectId'
  · change (amountAt (writeAmountOrRemove s.balances _ _) _).toInt = _
    rw [amountAt_writeAmountOrRemove, toInt_write hbalance]
    simp only [Store.ledger, Ledger.burn, Ledger.amountFor, Store.balanceOf, Prod.mk.injEq]
    split <;> omega
  · change (amountAt (writeAmountOrRemove s.supplies _ _) _).toInt = _
    rw [amountAt_writeAmountOrRemove, toInt_write hsupply]
    simp only [Store.ledger, Ledger.burn, Ledger.amountOf, Store.totalSupply]
    split <;> omega
  · rfl

/-- Burning is burning in the ledger. -/
theorem burn_refines {owner : Address} {projectId : BytesN} {amount : I128} {env : Env}
    {s s' : Store} (hs : Conserved s) (h : burn owner projectId amount env s = .ok ((), s')) :
    s'.ledger = s.ledger.burn owner projectId amount.toInt := by
  rcases burn_eq_ok.mp h with ⟨-, hpos, hremove⟩
  exact removeCredits_refines hs hpos hremove

/-- Retiring is retiring in the ledger. -/
theorem retire_refines {owner : Address} {projectId : BytesN} {amount : I128}
    {operationId : BytesN} {env : Env} {s s' : Store} (hs : Conserved s)
    (h : retire owner projectId amount operationId env s = .ok ((), s')) :
    s'.ledger = s.ledger.retire owner projectId amount.toInt := by
  rcases retire_eq_ok.mp h with ⟨⟨-, -, hpos⟩, -, t, hremove, newRetired, hretired, rfl⟩
  have hrecorded : Conserved { s with retireOps := s.retireOps.set operationId true } :=
    ⟨hs.balances_pos, hs.supplies_pos, hs.sum_eq⟩
  have hburn := removeCredits_refines hrecorded hpos hremove
  have hbalance := congrArg Ledger.balance hburn
  have hsupply := congrArg Ledger.supply hburn
  apply Ledger.ext
  · exact hbalance
  · exact hsupply
  · funext projectId'
    have hrow : (amountAt t.retired projectId').toInt = (s.retiredSupply projectId').toInt :=
      congrFun (congrArg Ledger.retired hburn) projectId'
    change (amountAt (t.retired.set _ _) _).toInt = _
    rw [amountAt_set, toInt_write hretired, hrow]
    rfl

/-- A transfer is one in the ledger. -/
theorem transfer_refines {sender recipient : Address} {projectId : BytesN} {amount : I128}
    {env : Env} {s s' : Store}
    (h : transfer sender recipient projectId amount env s = .ok ((), s')) :
    s'.ledger = s.ledger.transfer sender recipient projectId amount.toInt := by
  rcases transfer_eq_ok.mp h with ⟨-, ⟨rfl, rfl⟩ | ⟨hne, -, newFromBal, hfrom, newToBal, hto, rfl⟩⟩
  · rw [Ledger.transfer_self]
  · have hkeys : (recipient, projectId) ≠ (sender, projectId) :=
      fun h => hne (Prod.mk.inj h).1.symm
    rw [Int.sub_eq_add_neg] at hfrom
    have hto' : newToBal.toInt = (amountAt
        (writeAmountOrRemove s.balances (sender, projectId) newFromBal)
          (recipient, projectId)).toInt + amount.toInt := by
      rw [amountAt_writeAmountOrRemove, if_neg hkeys]
      exact hto
    ext owner' projectId'
    · change (amountAt ((writeAmountOrRemove s.balances _ _).set _ _) _).toInt = _
      rw [amountAt_set, toInt_write hto', amountAt_writeAmountOrRemove, toInt_write hfrom]
      simp only [Store.ledger, Ledger.transfer, Ledger.amountFor, Store.balanceOf, Prod.mk.injEq]
      split <;> split <;> omega
    · rfl
    · rfl

/-- The movement that one row of a batch stands for. -/
def transferMovement (sender : Address) (t : Address × BytesN × I128) :
    Ledger.Movement Address BytesN :=
  .transfer sender t.1 t.2.1 t.2.2.toInt

/-- A batch acts as its transfers one after the other. -/
theorem transferAll_refines {sender : Address} {transfers : List (Address × BytesN × I128)}
    {env : Env} {s s' : Store} (h : transferAll sender transfers env s = .ok ((), s')) :
    s'.ledger = (transfers.map (transferMovement sender)).foldl Ledger.apply s.ledger := by
  induction transfers generalizing s with
  | nil =>
      cases h
      rfl
  | cons t transfers ih =>
      rcases Call.bind_eq_ok.mp h with ⟨_, t', hfirst, hrest⟩
      rw [ih hrest, transfer_refines hfirst]
      rfl

/-- The movements that an operation stands for. -/
def Op.movements : Op → List (Ledger.Movement Address BytesN)
  | .initializeContract _ _ _ => []
  | .mint recipient projectId amount => [.mint recipient projectId amount.toInt]
  | .transfer sender recipient projectId amount =>
      [.transfer sender recipient projectId amount.toInt]
  | .burn owner projectId amount => [.burn owner projectId amount.toInt]
  | .retire owner projectId amount _ => [.retire owner projectId amount.toInt]
  | .batchTransfer sender transfers => transfers.map (transferMovement sender)

/-- Every operation that returns acts on the abstract ledger as its movements. -/
theorem exec_refines {registry : ProjectQuery} {op : Op} {env : Env} {s s' : Store}
    (hs : Conserved s) (h : exec registry op env s = .ok ((), s')) :
    s'.ledger = op.movements.foldl Ledger.apply s.ledger := by
  cases op with
  | initializeContract admin registry marketplace =>
      rcases initializeContract_eq_ok.mp h with ⟨-, rfl⟩
      rfl
  | mint recipient projectId amount => exact mint_refines h
  | transfer sender recipient projectId amount => exact transfer_refines h
  | burn owner projectId amount => exact burn_refines hs h
  | retire owner projectId amount operationId => exact retire_refines hs h
  | batchTransfer sender transfers => exact transferAll_refines (batchTransfer_eq_ok.mp h).2

/-- Without minting and burning, an operation leaves what exists of every project alone. -/
theorem exec_outstanding {registry : ProjectQuery} {op : Op} {env : Env} {s s' : Store}
    (hs : Conserved s) (h : exec registry op env s = .ok ((), s'))
    (hmint : ∀ recipient projectId amount, op ≠ .mint recipient projectId amount)
    (hburn : ∀ owner projectId amount, op ≠ .burn owner projectId amount) (projectId : BytesN) :
    s'.ledger.outstanding projectId = s.ledger.outstanding projectId := by
  have hissued : (op.movements.map fun m => m.issued projectId).sum = 0 := by
    cases op with
    | initializeContract admin registry marketplace => rfl
    | mint recipient projectId amount => exact absurd rfl (hmint _ _ _)
    | transfer sender recipient projectId amount => rfl
    | burn owner projectId amount => exact absurd rfl (hburn _ _ _)
    | retire owner projectId amount operationId => rfl
    | batchTransfer sender transfers =>
        apply List.sum_eq_zero
        intro n hn
        rcases List.mem_map.mp hn with ⟨m, hm, rfl⟩
        rcases List.mem_map.mp hm with ⟨t, -, rfl⟩
        rfl
  rw [exec_refines hs h, Ledger.outstanding_foldl, hissued, Int.add_zero]

end CarbonCredit
end Kraal
