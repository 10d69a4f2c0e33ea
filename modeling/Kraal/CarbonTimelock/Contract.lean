import Kraal.Soroban.Host

/-!
# The carbon_timelock contract

A time-delay guard for the administration of the carbon contracts: an operation is
proposed, waits for its delay, and is then executed or has been cancelled.  The
definitions follow the entry points statement by statement; each is followed by the
theorem that says exactly when it returns and what it has done then.

Main results:

- Theorems {lit}`proposeOperation_eq_ok`, {lit}`executeOperation_eq_ok` and
  {lit}`cancelOperation_eq_ok`: the entry points, from acceptance to effect.
- Theorem {lit}`step_cases`: everything an invocation of the contract can do.
-/

namespace Kraal
namespace CarbonTimelock

open Foundation

/-! ## Constants -/

/-- Minimum delay for a key rotation and a forced retirement. -/
def minDelayRotateKey : U32 := 17280

/-- Minimum delay for a pause of the marketplace. -/
def minDelayPause : U32 := 8640

/-- Minimum delay of any operation. -/
def absoluteMinDelay : U32 := 100

/-! ## Data types -/

/-- The administrator proposes and executes; the guardian can only cancel. -/
structure TimelockConfig where
  admin : Address
  guardian : Address
deriving DecidableEq

/-- The type of administration that waits. -/
inductive OperationType where
  | rotateOracleKey
  | forceRetireProject
  | pauseMarketplace
  | generic
deriving DecidableEq, Repr

/-- How an operation stands. -/
inductive OperationStatus where
  | pending
  | executed
  | cancelled
deriving DecidableEq, Repr

/-- A queued operation, with the hash of the parameters it is to be executed with. -/
structure TimelockOperation where
  opType : OperationType
  paramsHash : BytesN
  proposedAt : U32
  executeAfter : U32
  proposer : Address
  status : OperationStatus
deriving DecidableEq

/-- The errors that the contract returns. -/
inductive TimelockError where
  | alreadyInitialized
  | notInitialized
  | unauthorized
  | operationNotFound
  | delayNotElapsed
  | operationNotPending
  | paramsMismatch
  | delayTooShort
  | duplicateOperation
deriving DecidableEq, Repr

/-- The storage of the contract: the instance configuration and the operation rows. -/
structure Store where
  config : Option TimelockConfig
  operations : Storage BytesN TimelockOperation

/-- The storage of a freshly deployed contract. -/
def Store.empty : Store := ⟨none, Storage.empty⟩

/-- Write the configuration. -/
def Store.withConfig (s : Store) (cfg : TimelockConfig) : Store := { s with config := some cfg }

/-- Write one operation row. -/
def Store.withOperation (s : Store) (opId : BytesN) (op : TimelockOperation) : Store :=
  { s with operations := s.operations.set opId op }

/-- The configuration that was written is there. -/
@[simp]
theorem Store.withConfig_config (s : Store) (cfg : TimelockConfig) :
    (s.withConfig cfg).config = some cfg :=
  rfl

/-- Writing the configuration leaves the operations alone. -/
@[simp]
theorem Store.withConfig_operations (s : Store) (cfg : TimelockConfig) :
    (s.withConfig cfg).operations = s.operations :=
  rfl

/-- Writing an operation leaves the configuration alone. -/
@[simp]
theorem Store.withOperation_config (s : Store) (opId : BytesN) (op : TimelockOperation) :
    (s.withOperation opId op).config = s.config :=
  rfl

/-- The operation under an id after a write. -/
theorem Store.withOperation_get (s : Store) (opId opId' : BytesN) (op : TimelockOperation) :
    (s.withOperation opId op).operations.get opId' =
      if opId' = opId then some op else s.operations.get opId' :=
  Storage.get_set _ _ _ _

/-- A call of the contract, which reads the environment and writes the storage. -/
abbrev TimelockCall (α : Type) : Type := Call Env Store TimelockError α

/-! ## Internal helpers -/

/-- The configuration, once the contract is initialised. -/
def loadConfig : TimelockCall TimelockConfig := do
  let s ← Call.get
  Call.okOr s.config .notInitialized

/-- The operation under an id. -/
def loadOperation (opId : BytesN) : TimelockCall TimelockOperation := do
  let s ← Call.get
  Call.okOr (s.operations.get opId) .operationNotFound

/-- Write an operation under its id. -/
def saveOperation (opId : BytesN) (op : TimelockOperation) : TimelockCall Unit := do
  let s ← Call.get
  Call.put (s.withOperation opId op)

/-- The minimum required delay of an operation type. -/
def minimumDelay : OperationType → U32
  | .rotateOracleKey => minDelayRotateKey
  | .forceRetireProject => minDelayRotateKey
  | .pauseMarketplace => minDelayPause
  | .generic => absoluteMinDelay

/-- The configuration is read when there is one. -/
@[simp]
theorem loadConfig_eq_ok {env : Env} {s : Store} {p : TimelockConfig × Store} :
    loadConfig env s = .ok p ↔ s.config = some p.1 ∧ p.2 = s := by
  simp [loadConfig, and_comm]

/-- An operation is read when there is one. -/
@[simp]
theorem loadOperation_eq_ok {opId : BytesN} {env : Env} {s : Store}
    {p : TimelockOperation × Store} :
    loadOperation opId env s = .ok p ↔ s.operations.get opId = some p.1 ∧ p.2 = s := by
  simp [loadOperation, and_comm]

/-- Writing an operation succeeds. -/
@[simp]
theorem saveOperation_eq_ok {opId : BytesN} {op : TimelockOperation} {env : Env} {s : Store}
    {p : Unit × Store} :
    saveOperation opId op env s = .ok p ↔ p = ((), s.withOperation opId op) := by
  simp [saveOperation]

/-! ## Initialization -/

/-- Store the configuration, once. -/
def initializeContract (admin guardian : Address) : TimelockCall Unit := do
  let s ← Call.get
  Call.failIf (s.config.isSome) .alreadyInitialized
  requireAuth admin
  Call.put (s.withConfig { admin, guardian })

/-! ## Operation lifecycle -/

/-- The record that a proposal stores.  The deadline saturates. -/
def newOperation (proposer : Address) (opType : OperationType) (paramsHash : BytesN)
    (delayLedgers currentLedger : U32) : TimelockOperation where
  opType := opType
  paramsHash := paramsHash
  proposedAt := currentLedger
  executeAfter := currentLedger.saturatingAdd delayLedgers
  proposer := proposer
  status := .pending

/-- Propose an operation. -/
def proposeOperation (proposer : Address) (opId : BytesN) (opType : OperationType)
    (paramsHash : BytesN) (delayLedgers : U32) : TimelockCall Unit := do
  let cfg ← loadConfig
  requireAuth proposer
  Call.failIf (proposer ≠ cfg.admin) .unauthorized
  let minDelay := minimumDelay opType
  Call.failIf (delayLedgers < minDelay) .delayTooShort
  let s ← Call.get
  Call.failIf (s.operations.has opId) .duplicateOperation
  let env ← Call.ask
  saveOperation opId (newOperation proposer opType paramsHash delayLedgers env.sequence)

/-- Execute a proposed operation after its delay. -/
def executeOperation (executor : Address) (opId actualParamsHash : BytesN) :
    TimelockCall Unit := do
  let cfg ← loadConfig
  requireAuth executor
  let op ← loadOperation opId
  Call.failIf (executor ≠ op.proposer) .unauthorized
  Call.failIf (executor ≠ cfg.admin) .unauthorized
  Call.failIf (op.status ≠ .pending) .operationNotPending
  let env ← Call.ask
  Call.failIf (env.sequence < op.executeAfter) .delayNotElapsed
  Call.failIf (actualParamsHash ≠ op.paramsHash) .paramsMismatch
  saveOperation opId { op with status := .executed }

/-- Cancel a pending operation, at any ledger. -/
def cancelOperation (canceller : Address) (opId : BytesN) : TimelockCall Unit := do
  let cfg ← loadConfig
  requireAuth canceller
  Call.failIf (canceller ≠ cfg.admin ∧ canceller ≠ cfg.guardian) .unauthorized
  let op ← loadOperation opId
  Call.failIf (op.status ≠ .pending) .operationNotPending
  saveOperation opId { op with status := .cancelled }

/-! ## Read-only queries -/

/-- Read an operation. -/
def getOperation (opId : BytesN) : TimelockCall TimelockOperation := loadOperation opId

/-- Whether an operation is pending and its delay has elapsed. -/
def isReady (opId : BytesN) : TimelockCall Bool := do
  let op ← loadOperation opId
  let env ← Call.ask
  pure (op.status = .pending ∧ op.executeAfter ≤ env.sequence)

/-- Read the configuration. -/
def getConfig : TimelockCall TimelockConfig := loadConfig

/-- The shortest delay of a type of operation. -/
def getMinimumDelay (opType : OperationType) : TimelockCall U32 := pure (minimumDelay opType)

/-! ## Acceptance and effect of the entry points -/

/-- When the contract is initialised, and what that writes. -/
theorem initializeContract_eq_ok {admin guardian : Address} {env : Env} {s s' : Store} :
    initializeContract admin guardian env s = .ok ((), s') ↔
      s.config = none ∧ env.authorized admin = true ∧ s' = s.withConfig ⟨admin, guardian⟩ := by
  simp [initializeContract]

/-- When an operation is proposed, and what that writes. -/
theorem proposeOperation_eq_ok {proposer : Address} {opId : BytesN} {opType : OperationType}
    {paramsHash : BytesN} {delayLedgers : U32} {env : Env} {s s' : Store} :
    proposeOperation proposer opId opType paramsHash delayLedgers env s = .ok ((), s') ↔
      ∃ cfg, s.config = some cfg ∧ env.authorized proposer = true ∧ proposer = cfg.admin ∧
        minimumDelay opType ≤ delayLedgers ∧ s.operations.get opId = none ∧
        s' = s.withOperation opId
          (newOperation proposer opType paramsHash delayLedgers env.sequence) := by
  simp [proposeOperation, Storage.has_eq_false]

/-- When an operation is executed, and what that writes. -/
theorem executeOperation_eq_ok {executor : Address} {opId actualParamsHash : BytesN} {env : Env}
    {s s' : Store} :
    executeOperation executor opId actualParamsHash env s = .ok ((), s') ↔
      ∃ cfg op, s.config = some cfg ∧ env.authorized executor = true ∧
        s.operations.get opId = some op ∧ executor = op.proposer ∧ executor = cfg.admin ∧
        op.status = .pending ∧ op.executeAfter ≤ env.sequence ∧
        actualParamsHash = op.paramsHash ∧
        s' = s.withOperation opId { op with status := .executed } := by
  simp [executeOperation]

/-- When an operation is cancelled, and what that writes. -/
theorem cancelOperation_eq_ok {canceller : Address} {opId : BytesN} {env : Env} {s s' : Store} :
    cancelOperation canceller opId env s = .ok ((), s') ↔
      ∃ cfg op, s.config = some cfg ∧ env.authorized canceller = true ∧
        (canceller = cfg.admin ∨ canceller = cfg.guardian) ∧
        s.operations.get opId = some op ∧ op.status = .pending ∧
        s' = s.withOperation opId { op with status := .cancelled } := by
  simp [cancelOperation, or_iff_not_imp_left]

/-- An operation is ready if it is pending and its delay has elapsed. -/
theorem isReady_eq_ok {opId : BytesN} {env : Env} {s : Store} {p : Bool × Store} :
    isReady opId env s = .ok p ↔
      ∃ op, s.operations.get opId = some op ∧
        p = (decide (op.status = .pending ∧ op.executeAfter ≤ env.sequence), s) := by
  simp [isReady]

/-! ## The contract as a machine -/

/-- The state-changing entry points with their arguments. -/
inductive Op where
  | initializeContract (admin guardian : Address)
  | proposeOperation (proposer : Address) (opId : BytesN) (opType : OperationType)
      (paramsHash : BytesN) (delayLedgers : U32)
  | executeOperation (executor : Address) (opId actualParamsHash : BytesN)
  | cancelOperation (canceller : Address) (opId : BytesN)

/-- The entry point that a call names. -/
def exec : Op → TimelockCall Unit
  | .initializeContract admin guardian => initializeContract admin guardian
  | .proposeOperation proposer opId opType paramsHash delayLedgers =>
      proposeOperation proposer opId opType paramsHash delayLedgers
  | .executeOperation executor opId actualParamsHash =>
      executeOperation executor opId actualParamsHash
  | .cancelOperation canceller opId => cancelOperation canceller opId

/-- Everything an invocation of the contract can do. -/
theorem step_cases (s : Store) (i : Invocation Op) :
    (step exec s i = s ∧ ¬ (exec i.call).Succeeds i.env s) ∨
    (∃ admin guardian, i.call = .initializeContract admin guardian ∧ s.config = none ∧
      step exec s i = s.withConfig ⟨admin, guardian⟩) ∨
    (∃ opId opType paramsHash delayLedgers cfg,
      i.call = .proposeOperation cfg.admin opId opType paramsHash delayLedgers ∧
      (exec i.call).Succeeds i.env s ∧ s.config = some cfg ∧ i.env.authorized cfg.admin = true ∧
      minimumDelay opType ≤ delayLedgers ∧ s.operations.get opId = none ∧
      step exec s i = s.withOperation opId
        (newOperation cfg.admin opType paramsHash delayLedgers i.env.sequence)) ∨
    (∃ opId cfg op, i.call = .executeOperation op.proposer opId op.paramsHash ∧
      s.config = some cfg ∧ i.env.authorized op.proposer = true ∧
      s.operations.get opId = some op ∧ op.proposer = cfg.admin ∧ op.status = .pending ∧
      op.executeAfter ≤ i.env.sequence ∧
      step exec s i = s.withOperation opId { op with status := .executed }) ∨
    (∃ canceller opId cfg op, i.call = .cancelOperation canceller opId ∧
      s.config = some cfg ∧ i.env.authorized canceller = true ∧
      (canceller = cfg.admin ∨ canceller = cfg.guardian) ∧
      s.operations.get opId = some op ∧ op.status = .pending ∧
      step exec s i = s.withOperation opId { op with status := .cancelled }) := by
  by_cases hreturns : (exec i.call).Succeeds i.env s
  · right
    have hok := hreturns
    rcases hok with ⟨⟨⟨⟩, s'⟩, hexec⟩
    rw [step_of_ok hexec]
    cases hcall : i.call with
    | initializeContract admin guardian =>
        rw [hcall] at hexec
        rcases initializeContract_eq_ok.mp hexec with ⟨hnone, -, hs⟩
        exact .inl ⟨admin, guardian, rfl, hnone, hs⟩
    | proposeOperation proposer opId opType paramsHash delayLedgers =>
        rw [hcall] at hexec hreturns
        rcases proposeOperation_eq_ok.mp hexec with ⟨cfg, hcfg, hauth, rfl, hrest⟩
        exact .inr (.inl ⟨opId, opType, paramsHash, delayLedgers, cfg, rfl, hreturns, hcfg, hauth,
          hrest⟩)
    | executeOperation executor opId actualParamsHash =>
        rw [hcall] at hexec
        rcases executeOperation_eq_ok.mp hexec with
          ⟨cfg, op, hcfg, hauth, hop, rfl, hadmin, hpending, hdelay, rfl, hs⟩
        exact .inr (.inr (.inl ⟨opId, cfg, op, rfl, hcfg, hauth, hop, hadmin, hpending, hdelay,
          hs⟩))
    | cancelOperation canceller opId =>
        rw [hcall] at hexec
        rcases cancelOperation_eq_ok.mp hexec with ⟨cfg, op, hrest⟩
        exact .inr (.inr (.inr ⟨canceller, opId, cfg, op, rfl, hrest⟩))
  · exact .inl ⟨step_of_not_succeeds hreturns, hreturns⟩

end CarbonTimelock
end Kraal
