import Kraal.CarbonRegistry.Contract

/-!
# The carbon_credit contract

The token-like contract that tracks credit balances tied to projects.  Its one
call to another contract, the project query of `mint`, is a parameter: the answer
of whatever contract the configuration names as the registry, with {lit}`none` for
a call that fails there.

Main results:

- Theorems {lit}`mint_eq_ok`, {lit}`transfer_eq_ok`, {lit}`burn_eq_ok` and
  {lit}`retire_eq_ok`: the entry points, from acceptance to effect.
- Theorem {lit}`transfer_eq_error`: every way in which a transfer fails.
- Theorem {lit}`amountAt_writeAmountOrRemove`: the row removed at zero reads as the
  zero that was written.
-/

namespace Kraal
namespace CarbonCredit

open Foundation
open CarbonRegistry (CarbonProject ProjectStatus)

/-! ## Data types -/

/-- Credit contract configuration; the marketplace is the sole minter and burner. -/
structure CreditConfig where
  admin : Address
  registry : Address
  marketplace : Address
deriving DecidableEq, Repr

/-- The errors that the contract returns. -/
inductive CreditError where
  | alreadyInitialized
  | notInitialized
  | unauthorized
  | insufficientBalance
  | projectNotVerified
  | invalidAmount
  | registryError
  | alreadyRetired
deriving DecidableEq, Repr

/-- The storage of the contract: balance rows by owner and project, total and
retired supply rows by project, and the recorded retire operations. -/
structure Store where
  config : Option CreditConfig
  balances : Storage (Address × BytesN) I128
  supplies : Storage BytesN I128
  retired : Storage BytesN I128
  retireOps : Storage BytesN Bool

/-- The storage of a freshly deployed contract. -/
def Store.empty : Store := ⟨none, Storage.empty, Storage.empty, Storage.empty, Storage.empty⟩

/-- Replace the balance rows. -/
def Store.withBalances (s : Store) (rows : Storage (Address × BytesN) I128) : Store :=
  { s with balances := rows }

/-- Replace the total-supply rows. -/
def Store.withSupplies (s : Store) (rows : Storage BytesN I128) : Store :=
  { s with supplies := rows }

/-- A call of the contract, which reads the environment and writes the storage. -/
abbrev CreditCall (α : Type) : Type := Call Env Store CreditError α

/-- What the contract at an address answers to a project query. -/
abbrev ProjectQuery : Type := Address → BytesN → Option CarbonProject

/-! ## Amount rows -/

section Amounts

variable {K : Type} [DecidableEq K]

/-- The amount stored under a key, zero if there is no row. -/
def amountAt (rows : Storage K I128) (k : K) : I128 := (rows.get k).getD 0

/-- Write an amount, or remove the row if the amount is zero. -/
def writeAmountOrRemove (rows : Storage K I128) (k : K) (amount : I128) : Storage K I128 :=
  if amount = 0 then rows.remove k else rows.set k amount

/-- Nothing is held under any key at first. -/
@[simp]
theorem amountAt_empty (k : K) : amountAt Storage.empty k = 0 := by
  simp [amountAt]

/-- The amount under a key after a write. -/
theorem amountAt_set (rows : Storage K I128) (k k' : K) (amount : I128) :
    amountAt (rows.set k amount) k' = if k' = k then amount else amountAt rows k' := by
  rw [amountAt, Storage.get_set]
  split <;> rfl

/-- The row removed at zero reads as the zero that was written. -/
theorem amountAt_writeAmountOrRemove (rows : Storage K I128) (k k' : K) (amount : I128) :
    amountAt (writeAmountOrRemove rows k amount) k' =
      if k' = k then amount else amountAt rows k' := by
  unfold writeAmountOrRemove
  split
  · rename_i hzero
    rw [amountAt, Storage.get_remove]
    split
    · rw [hzero]
      rfl
    · rfl
  · exact amountAt_set rows k k' amount

end Amounts

/-! ## Read-only queries -/

/-- The credits of an owner in a project. -/
def Store.balanceOf (s : Store) (owner : Address) (projectId : BytesN) : I128 :=
  amountAt s.balances (owner, projectId)

/-- The credits of a project that circulate. -/
def Store.totalSupply (s : Store) (projectId : BytesN) : I128 :=
  amountAt s.supplies projectId

/-- The credits of a project that were retired. -/
def Store.retiredSupply (s : Store) (projectId : BytesN) : I128 :=
  amountAt s.retired projectId

/-- Read the credits of an owner in a project. -/
def balanceOf (owner : Address) (projectId : BytesN) : CreditCall I128 := do
  let s ← Call.get
  pure (s.balanceOf owner projectId)

/-- Read the credits of a project that circulate. -/
def totalSupply (projectId : BytesN) : CreditCall I128 := do
  let s ← Call.get
  pure (s.totalSupply projectId)

/-- Read the credits of a project that were retired. -/
def retiredSupply (projectId : BytesN) : CreditCall I128 := do
  let s ← Call.get
  pure (s.retiredSupply projectId)

/-- Writing balances leaves the supplies alone. -/
@[simp]
theorem Store.supplies_withBalances (s : Store) (rows : Storage (Address × BytesN) I128) :
    (s.withBalances rows).supplies = s.supplies :=
  rfl

/-- Writing balances leaves the supply of every project alone. -/
@[simp]
theorem Store.totalSupply_withBalances (s : Store) (rows : Storage (Address × BytesN) I128)
    (projectId : BytesN) : (s.withBalances rows).totalSupply projectId = s.totalSupply projectId :=
  rfl

/-- The balances that were written are there. -/
@[simp]
theorem Store.balances_withBalances (s : Store) (rows : Storage (Address × BytesN) I128) :
    (s.withBalances rows).balances = rows :=
  rfl

/-- Of two writes of the balances the last one counts. -/
@[simp]
theorem Store.withBalances_withBalances (s : Store) (rows rows' : Storage (Address × BytesN) I128) :
    (s.withBalances rows).withBalances rows' = s.withBalances rows' :=
  rfl

/-- The balance is returned and nothing is written. -/
@[simp]
theorem balanceOf_eq_ok {owner : Address} {projectId : BytesN} {env : Env} {s : Store}
    {p : I128 × Store} :
    balanceOf owner projectId env s = .ok p ↔ p = (s.balanceOf owner projectId, s) := by
  simp [balanceOf]

/-- Reading a balance does not fail. -/
@[simp]
theorem balanceOf_eq_error {owner : Address} {projectId : BytesN} {env : Env} {s : Store}
    {f : Fault CreditError} : balanceOf owner projectId env s = .error f ↔ False := by
  simp [balanceOf, Call.bind_eq_error]

/-- The supply is returned and nothing is written. -/
@[simp]
theorem totalSupply_eq_ok {projectId : BytesN} {env : Env} {s : Store} {p : I128 × Store} :
    totalSupply projectId env s = .ok p ↔ p = (s.totalSupply projectId, s) := by
  simp [totalSupply]

/-- Reading a supply does not fail. -/
@[simp]
theorem totalSupply_eq_error {projectId : BytesN} {env : Env} {s : Store}
    {f : Fault CreditError} : totalSupply projectId env s = .error f ↔ False := by
  simp [totalSupply, Call.bind_eq_error]

/-- The retired supply is returned and nothing is written. -/
@[simp]
theorem retiredSupply_eq_ok {projectId : BytesN} {env : Env} {s : Store} {p : I128 × Store} :
    retiredSupply projectId env s = .ok p ↔ p = (s.retiredSupply projectId, s) := by
  simp [retiredSupply]

/-! ## Initialization -/

/-- The configuration, once the contract is initialised. -/
def loadConfig : CreditCall CreditConfig := do
  let s ← Call.get
  Call.okOr s.config .notInitialized

/-- The configuration is read when there is one. -/
@[simp]
theorem loadConfig_eq_ok {env : Env} {s : Store} {p : CreditConfig × Store} :
    loadConfig env s = .ok p ↔ s.config = some p.1 ∧ p.2 = s := by
  simp [loadConfig, and_comm]

/-- Without a configuration the contract is not initialised. -/
@[simp]
theorem loadConfig_eq_error {env : Env} {s : Store} {f : Fault CreditError} :
    loadConfig env s = .error f ↔ s.config = none ∧ f = .error .notInitialized := by
  simp [loadConfig, Call.bind_eq_error]

/-- Store the configuration, once. -/
def initializeContract (admin registry marketplace : Address) : CreditCall Unit := do
  let s ← Call.get
  Call.failIf (s.config.isSome) .alreadyInitialized
  Call.put { s with config := some { admin, registry, marketplace } }

/-! ## Token operations -/

/-- Mint credits to an address; only the marketplace may call this, and only for
a project that the registry reports as verified. -/
def mint (registry : ProjectQuery) (recipient : Address) (projectId : BytesN) (amount : I128) :
    CreditCall Unit := do
  let cfg ← loadConfig
  requireAuth cfg.marketplace
  Call.failIf (amount ≤ 0) .invalidAmount
  let project ← Call.okOrTrap (registry cfg.registry projectId)
  Call.failIf (project.status ≠ .verified) .projectNotVerified
  let current ← balanceOf recipient projectId
  let newBalance ← Call.okOr (current.checkedAdd amount) .invalidAmount
  Call.modify fun s => s.withBalances (s.balances.set (recipient, projectId) newBalance)
  let currentSupply ← totalSupply projectId
  let newSupply ← Call.okOr (currentSupply.checkedAdd amount) .invalidAmount
  Call.modify fun s => s.withSupplies (writeAmountOrRemove s.supplies projectId newSupply)

/-- Transfer credits within one project.  The plain subtraction would trap on
overflow; the balance check before it rules that out. -/
def transfer (sender recipient : Address) (projectId : BytesN) (amount : I128) :
    CreditCall Unit := do
  requireAuth sender
  let _ ← loadConfig
  Call.failIf (amount ≤ 0) .invalidAmount
  if sender = recipient then
    pure ()
  else
    let fromBal ← balanceOf sender projectId
    Call.failIf (fromBal < amount) .insufficientBalance
    let toBal ← balanceOf recipient projectId
    let newFromBal ← Call.okOrTrap (fromBal.checkedSub amount)
    Call.modify fun s =>
      s.withBalances (writeAmountOrRemove s.balances (sender, projectId) newFromBal)
    let newToBal ← Call.okOr (toBal.checkedAdd amount) .invalidAmount
    Call.modify fun s => s.withBalances (s.balances.set (recipient, projectId) newToBal)

/-- The part that `burn` and `retire` share: the amount leaves the balance, which
has to cover it, and the total supply. -/
def removeCredits (owner : Address) (projectId : BytesN) (amount : I128) : CreditCall Unit := do
  let current ← balanceOf owner projectId
  Call.failIf (current < amount) .insufficientBalance
  let newBalance ← Call.okOrTrap (current.checkedSub amount)
  Call.modify fun s => s.withBalances (writeAmountOrRemove s.balances (owner, projectId) newBalance)
  let currentSupply ← totalSupply projectId
  let newSupply := currentSupply.saturatingSub amount
  Call.modify fun s => s.withSupplies (writeAmountOrRemove s.supplies projectId newSupply)

/-- Burn credits; only the marketplace may call this. -/
def burn (owner : Address) (projectId : BytesN) (amount : I128) : CreditCall Unit := do
  let cfg ← loadConfig
  requireAuth cfg.marketplace
  Call.failIf (amount ≤ 0) .invalidAmount
  removeCredits owner projectId amount

/-- Retire credits: they leave the balance and the supply for the retired pool.
The operation id is recorded before anything else is written. -/
def retire (owner : Address) (projectId : BytesN) (amount : I128) (operationId : BytesN) :
    CreditCall Unit := do
  requireAuth owner
  let _ ← loadConfig
  Call.failIf (amount ≤ 0) .invalidAmount
  let s ← Call.get
  Call.failIf (s.retireOps.has operationId) .alreadyRetired
  Call.modify fun s => { s with retireOps := s.retireOps.set operationId true }
  removeCredits owner projectId amount
  let currentRetired ← retiredSupply projectId
  let newRetired ← Call.okOr (currentRetired.checkedAdd amount) .invalidAmount
  Call.modify fun s => { s with retired := s.retired.set projectId newRetired }

/-- The loop of a batch: the transfers one after the other, until one fails. -/
def transferAll (sender : Address) : List (Address × BytesN × I128) → CreditCall Unit
  | [] => pure ()
  | (recipient, projectId, amount) :: transfers => do
      transfer sender recipient projectId amount
      transferAll sender transfers

/-- Make some transfers of a sender in one call. -/
def batchTransfer (sender : Address) (transfers : List (Address × BytesN × I128)) :
    CreditCall Unit := do
  requireAuth sender
  transferAll sender transfers

/-! ## Acceptance and effect of the entry points -/

/-- When the contract is initialised, and what that writes. -/
theorem initializeContract_eq_ok {admin registry marketplace : Address} {env : Env}
    {s s' : Store} :
    initializeContract admin registry marketplace env s = .ok ((), s') ↔
      s.config = none ∧ s' = { s with config := some ⟨admin, registry, marketplace⟩ } := by
  simp [initializeContract]

/-- The checks of `mint` before it reads a balance: the marketplace has authorized
the call, the amount is positive and the registry reports a verified project. -/
def MintAccepted (registry : ProjectQuery) (projectId : BytesN) (amount : I128) (env : Env)
    (s : Store) : Prop :=
  ∃ cfg project, s.config = some cfg ∧ env.authorized cfg.marketplace = true ∧
    0 < amount.toInt ∧ registry cfg.registry projectId = some project ∧
    project.status = .verified

/-- When credits are minted, and the balance and the supply that are written. -/
theorem mint_eq_ok {registry : ProjectQuery} {recipient : Address} {projectId : BytesN}
    {amount : I128} {env : Env} {s s' : Store} :
    mint registry recipient projectId amount env s = .ok ((), s') ↔
      MintAccepted registry projectId amount env s ∧
      ∃ newBalance : I128,
        newBalance.toInt = (s.balanceOf recipient projectId).toInt + amount.toInt ∧
        ∃ newSupply : I128, newSupply.toInt = (s.totalSupply projectId).toInt + amount.toInt ∧
        s' = (s.withBalances (s.balances.set (recipient, projectId) newBalance)).withSupplies
          (writeAmountOrRemove s.supplies projectId newSupply) := by
  simp only [mint, ne_eq, Call.bind_eq_ok, loadConfig_eq_ok, requireAuth_eq_ok, Call.failIf_eq_ok,
    Call.okOrTrap_eq_ok, balanceOf_eq_ok, totalSupply_eq_ok, Call.okOr_eq_ok, Call.modify_eq_ok,
    Store.totalSupply_withBalances, Store.supplies_withBalances, MInt.checkedAdd_eq_some,
      Prod.mk.injEq, MInt.le_def,
    MInt.toInt_zero, not_le, Decidable.not_not, true_and, ↓existsAndEq, and_true, exists_eq_left,
    exists_const]
  constructor
  · intro h
    rcases h with ⟨cfg, hcfg, hauth, hpos, project, hproject, hverified, hrest⟩
    exact ⟨⟨cfg, project, hcfg, hauth, hpos, hproject, hverified⟩, hrest⟩
  · intro h
    rcases h with ⟨⟨cfg, project, hcfg, hauth, hpos, hproject, hverified⟩, hrest⟩
    exact ⟨cfg, hcfg, hauth, hpos, project, hproject, hverified, hrest⟩

/-- The checks that `transfer` and `retire` make before they look at a balance. -/
def OwnerAccepted (owner : Address) (amount : I128) (env : Env) (s : Store) : Prop :=
  env.authorized owner = true ∧ s.config.isSome = true ∧ 0 < amount.toInt

/-- When credits are transferred, and the two balances that are written.  A transfer to oneself
writes nothing. -/
theorem transfer_eq_ok {sender recipient : Address} {projectId : BytesN} {amount : I128}
    {env : Env} {s s' : Store} :
    transfer sender recipient projectId amount env s = .ok ((), s') ↔
      OwnerAccepted sender amount env s ∧
      (sender = recipient ∧ s' = s ∨
        sender ≠ recipient ∧ amount.toInt ≤ (s.balanceOf sender projectId).toInt ∧
        ∃ newFromBal : I128,
          newFromBal.toInt = (s.balanceOf sender projectId).toInt - amount.toInt ∧
          ∃ newToBal : I128,
          newToBal.toInt = (s.balanceOf recipient projectId).toInt + amount.toInt ∧
          s' = s.withBalances
            ((writeAmountOrRemove s.balances (sender, projectId) newFromBal).set
              (recipient, projectId) newToBal)) := by
  by_cases hself : sender = recipient
  · simp [transfer, OwnerAccepted, hself, Option.isSome_iff_exists]
    tauto
  · simp [transfer, OwnerAccepted, hself, Option.isSome_iff_exists, and_assoc]

/-- When credits are removed, and the balance and the supply that are written. -/
theorem removeCredits_eq_ok {owner : Address} {projectId : BytesN} {amount : I128} {env : Env}
    {s s' : Store} :
    removeCredits owner projectId amount env s = .ok ((), s') ↔
      amount.toInt ≤ (s.balanceOf owner projectId).toInt ∧
      ∃ newBalance : I128,
        newBalance.toInt = (s.balanceOf owner projectId).toInt - amount.toInt ∧
        s' = (s.withBalances
          (writeAmountOrRemove s.balances (owner, projectId) newBalance)).withSupplies
            (writeAmountOrRemove s.supplies projectId
              ((s.totalSupply projectId).saturatingSub amount)) := by
  simp [removeCredits]

/-- The marketplace burns what can be removed. -/
theorem burn_eq_ok {owner : Address} {projectId : BytesN} {amount : I128} {env : Env}
    {s s' : Store} :
    burn owner projectId amount env s = .ok ((), s') ↔
      (∃ cfg, s.config = some cfg ∧ env.authorized cfg.marketplace = true) ∧ 0 < amount.toInt ∧
      removeCredits owner projectId amount env s = .ok ((), s') := by
  simp only [burn, Call.bind_eq_ok, loadConfig_eq_ok, requireAuth_eq_ok, Call.failIf_eq_ok,
    Prod.mk.injEq, MInt.le_def, MInt.toInt_zero, not_le, true_and, ↓existsAndEq, and_true,
    exists_const]
  constructor
  · intro h
    rcases h with ⟨cfg, hcfg, hauth, hrest⟩
    exact ⟨⟨cfg, hcfg, hauth⟩, hrest⟩
  · intro h
    rcases h with ⟨⟨cfg, hcfg, hauth⟩, hrest⟩
    exact ⟨cfg, hcfg, hauth, hrest⟩

/-- An owner retires under a new operation id what can be removed. -/
theorem retire_eq_ok {owner : Address} {projectId : BytesN} {amount : I128}
    {operationId : BytesN} {env : Env} {s s' : Store} :
    retire owner projectId amount operationId env s = .ok ((), s') ↔
      OwnerAccepted owner amount env s ∧ s.retireOps.has operationId = false ∧
      ∃ t, removeCredits owner projectId amount env
          { s with retireOps := s.retireOps.set operationId true } = .ok ((), t) ∧
        ∃ newRetired : I128,
          newRetired.toInt = (t.retiredSupply projectId).toInt + amount.toInt ∧
          s' = { t with retired := t.retired.set projectId newRetired } := by
  simp only [retire, OwnerAccepted, Option.isSome_iff_exists, Call.bind_eq_ok, requireAuth_eq_ok,
    loadConfig_eq_ok, Call.failIf_eq_ok, Call.get_eq_ok, Call.modify_eq_ok, retiredSupply_eq_ok,
    Call.okOr_eq_ok, MInt.checkedAdd_eq_some, Prod.mk.injEq, MInt.le_def, MInt.toInt_zero, not_le,
    Bool.not_eq_true, true_and, ↓existsAndEq, exists_eq_left, exists_and_right,
    and_assoc, Unique.exists_iff, PUnit.default_eq_unit]

/-- A batch that its sender authorises succeeds when all its transfers do. -/
theorem batchTransfer_eq_ok {sender : Address} {transfers : List (Address × BytesN × I128)}
    {env : Env} {s s' : Store} :
    batchTransfer sender transfers env s = .ok ((), s') ↔
      env.authorized sender = true ∧ transferAll sender transfers env s = .ok ((), s') := by
  simp [batchTransfer]

/-! ## How the movements of credits fail -/

/-- How removing credits fails. -/
theorem removeCredits_eq_error {owner : Address} {projectId : BytesN} {amount : I128} {env : Env}
    {s : Store} {f : Fault CreditError} :
    removeCredits owner projectId amount env s = .error f ↔
      (s.balanceOf owner projectId).toInt < amount.toInt ∧ f = .error .insufficientBalance ∨
      amount.toInt ≤ (s.balanceOf owner projectId).toInt ∧
        (s.balanceOf owner projectId).checkedSub amount = none ∧ f = .trap := by
  simp [removeCredits, Call.bind_eq_error]

/-- How a transfer fails. -/
theorem transfer_eq_error {sender recipient : Address} {projectId : BytesN} {amount : I128}
    {env : Env} {s : Store} {f : Fault CreditError} :
    transfer sender recipient projectId amount env s = .error f ↔
      env.authorized sender = false ∧ f = .trap ∨ env.authorized sender = true ∧
        (s.config = none ∧ f = .error .notInitialized ∨ s.config.isSome = true ∧
        (amount.toInt ≤ 0 ∧ f = .error .invalidAmount ∨ 0 < amount.toInt ∧ sender ≠ recipient ∧
        ((s.balanceOf sender projectId).toInt < amount.toInt ∧ f = .error .insufficientBalance ∨
          amount.toInt ≤ (s.balanceOf sender projectId).toInt ∧
          ((s.balanceOf sender projectId).checkedSub amount = none ∧ f = .trap ∨
            ((s.balanceOf sender projectId).checkedSub amount).isSome = true ∧
            (s.balanceOf recipient projectId).checkedAdd amount = none ∧
            f = .error .invalidAmount)))) := by
  by_cases hself : sender = recipient
  · simp [transfer, hself, Option.isSome_iff_exists, Call.bind_eq_error]
  · simp [transfer, hself, Option.isSome_iff_exists, Call.bind_eq_error]

/-! ## The contract as a machine -/

/-- The state-changing entry points with their arguments. -/
inductive Op where
  | initializeContract (admin registry marketplace : Address)
  | mint (recipient : Address) (projectId : BytesN) (amount : I128)
  | transfer (sender recipient : Address) (projectId : BytesN) (amount : I128)
  | burn (owner : Address) (projectId : BytesN) (amount : I128)
  | retire (owner : Address) (projectId : BytesN) (amount : I128) (operationId : BytesN)
  | batchTransfer (sender : Address) (transfers : List (Address × BytesN × I128))

/-- The entry point that a call names. -/
def exec (registry : ProjectQuery) : Op → CreditCall Unit
  | .initializeContract admin registry marketplace => initializeContract admin registry marketplace
  | .mint recipient projectId amount => mint registry recipient projectId amount
  | .transfer sender recipient projectId amount => transfer sender recipient projectId amount
  | .burn owner projectId amount => burn owner projectId amount
  | .retire owner projectId amount operationId => retire owner projectId amount operationId
  | .batchTransfer sender transfers => batchTransfer sender transfers

/-- Removing credits leaves the configuration alone. -/
theorem removeCredits_config {owner : Address} {projectId : BytesN} {amount : I128} {env : Env}
    {s s' : Store} (h : removeCredits owner projectId amount env s = .ok ((), s')) :
    s'.config = s.config := by
  rcases removeCredits_eq_ok.mp h with ⟨-, newBalance, -, rfl⟩
  rfl

/-- Burning leaves the configuration alone. -/
theorem burn_config {owner : Address} {projectId : BytesN} {amount : I128} {env : Env}
    {s s' : Store} (h : burn owner projectId amount env s = .ok ((), s')) :
    s'.config = s.config := by
  rcases burn_eq_ok.mp h with ⟨-, -, hremove⟩
  exact removeCredits_config hremove

/-- Minting leaves the configuration alone. -/
theorem mint_config {registry : ProjectQuery} {recipient : Address} {projectId : BytesN}
    {amount : I128} {env : Env} {s s' : Store}
    (h : mint registry recipient projectId amount env s = .ok ((), s')) :
    s'.config = s.config := by
  rcases mint_eq_ok.mp h with ⟨-, newBalance, -, newSupply, -, rfl⟩
  rfl

/-- A transfer leaves the configuration alone. -/
theorem transfer_config {sender recipient : Address} {projectId : BytesN} {amount : I128}
    {env : Env} {s s' : Store}
    (h : transfer sender recipient projectId amount env s = .ok ((), s')) :
    s'.config = s.config := by
  rcases transfer_eq_ok.mp h with ⟨-, ⟨-, rfl⟩ | ⟨-, -, newFromBal, -, newToBal, -, rfl⟩⟩
  · rfl
  · rfl

/-- Some transfers leave the configuration alone. -/
theorem transferAll_config {sender : Address} {transfers : List (Address × BytesN × I128)}
    {env : Env} {s s' : Store} (h : transferAll sender transfers env s = .ok ((), s')) :
    s'.config = s.config := by
  induction transfers generalizing s with
  | nil =>
      cases h
      rfl
  | cons t transfers ih =>
      rcases Call.bind_eq_ok.mp h with ⟨_, t', hfirst, hrest⟩
      rw [ih hrest, transfer_config hfirst]

/-- A configured credit contract keeps its configuration. -/
theorem exec_config {registry : ProjectQuery} {op : Op} {env : Env} {s s' : Store}
    {cfg : CreditConfig} (h : exec registry op env s = .ok ((), s')) (hcfg : s.config = some cfg) :
    s'.config = some cfg := by
  rw [← hcfg]
  cases op with
  | initializeContract admin registry marketplace =>
      rcases initializeContract_eq_ok.mp h with ⟨hnone, -⟩
      rw [hcfg] at hnone
      cases hnone
  | mint recipient projectId amount => exact mint_config h
  | transfer sender recipient projectId amount => exact transfer_config h
  | burn owner projectId amount => exact burn_config h
  | retire owner projectId amount operationId =>
      rcases retire_eq_ok.mp h with ⟨-, -, t, hremove, newRetired, -, rfl⟩
      have ht := removeCredits_config hremove
      exact ht
  | batchTransfer sender transfers => exact transferAll_config (batchTransfer_eq_ok.mp h).2

/-- An operation with the answers that it gets from the registry. -/
abbrev Answered : Type := ProjectQuery × Op

/-- A call with the answers of the registry to it. -/
def execAnswered (c : Answered) : CreditCall Unit := exec c.1 c.2

end CarbonCredit
end Kraal
