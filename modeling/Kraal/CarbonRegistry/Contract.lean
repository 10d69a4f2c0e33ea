import Kraal.Soroban.Host

/-!
# The carbon_registry contract

A state store of carbon projects and their verification status, queried by the
other carbon contracts.  The definitions follow the entry points of the contract
statement by statement; each is followed by the theorem that says exactly when
it returns and what it has done then.

Main results:

- Theorem {lit}`projectId_eq`: the id of a registration depends on its vintage
  year alone.
- Theorems {lit}`registerProject_eq_ok`, {lit}`setStatus_eq_ok` and
  {lit}`issueCredits_eq_ok`: the entry points, from acceptance to effect.
-/

namespace Kraal
namespace CarbonRegistry

open Foundation

/-! ## Data types -/

/-- Registry-level configuration: the administrator, and the marketplace that is
allowed to issue credits. -/
structure RegistryConfig where
  admin : Address
  marketplace : Address
deriving DecidableEq, Repr

/-- Lifecycle status of a carbon project. -/
inductive ProjectStatus where
  | pending
  | verified
  | suspended
  | retired
deriving DecidableEq, Repr

/-- Persistent state of one carbon project. -/
structure CarbonProject where
  owner : Address
  name : Symbol
  totalCredits : I128
  issuedCredits : I128
  status : ProjectStatus
  vintageYear : U32
deriving DecidableEq

/-- The errors that the contract returns. -/
inductive RegistryError where
  | alreadyInitialized
  | notInitialized
  | unauthorized
  | projectNotFound
  | projectNotVerified
  | insufficientCredits
  | invalidAmount
  | projectSuspended
deriving DecidableEq, Repr

/-- The storage of the contract: the instance configuration and the project rows. -/
structure Store where
  config : Option RegistryConfig
  projects : Storage BytesN CarbonProject

/-- The storage of a freshly deployed contract. -/
def Store.empty : Store := ⟨none, Storage.empty⟩

/-- Write one project row. -/
def Store.withProject (s : Store) (id : BytesN) (project : CarbonProject) : Store :=
  { s with projects := s.projects.set id project }

/-- Writing a project leaves the configuration alone. -/
@[simp]
theorem Store.withProject_config (s : Store) (id : BytesN) (project : CarbonProject) :
    (s.withProject id project).config = s.config :=
  rfl

/-- The project under an id after a write. -/
theorem Store.withProject_get (s : Store) (id id' : BytesN) (project : CarbonProject) :
    (s.withProject id project).projects.get id' =
      if id' = id then some project else s.projects.get id' :=
  Storage.get_set _ _ _ _

/-- A call of the contract, which reads the environment and writes the storage. -/
abbrev RegistryCall (α : Type) : Type := Call Env Store RegistryError α

/-! ## Storage helpers -/

/-- The configuration, once the contract is initialised. -/
def loadConfig : RegistryCall RegistryConfig := do
  let s ← Call.get
  Call.okOr s.config .notInitialized

/-- The project under an id. -/
def loadProject (id : BytesN) : RegistryCall CarbonProject := do
  let s ← Call.get
  Call.okOr (s.projects.get id) .projectNotFound

/-- Write a project under its id. -/
def saveProject (id : BytesN) (project : CarbonProject) : RegistryCall Unit := do
  let s ← Call.get
  Call.put (s.withProject id project)

/-- The configuration is read when there is one. -/
@[simp]
theorem loadConfig_eq_ok {env : Env} {s : Store} {p : RegistryConfig × Store} :
    loadConfig env s = .ok p ↔ s.config = some p.1 ∧ p.2 = s := by
  simp [loadConfig, and_comm]

/-- A project is read when there is one. -/
@[simp]
theorem loadProject_eq_ok {id : BytesN} {env : Env} {s : Store} {p : CarbonProject × Store} :
    loadProject id env s = .ok p ↔ s.projects.get id = some p.1 ∧ p.2 = s := by
  simp [loadProject, and_comm]

/-- Writing a project succeeds. -/
@[simp]
theorem saveProject_eq_ok {id : BytesN} {project : CarbonProject} {env : Env} {s : Store}
    {p : Unit × Store} :
    saveProject id project env s = .ok p ↔ p = ((), s.withProject id project) := by
  simp [saveProject]

/-! ## Initialization -/

/-- Store the configuration, once. -/
def initializeContract (admin marketplace : Address) : RegistryCall Unit := do
  let s ← Call.get
  Call.failIf (s.config.isSome) .alreadyInitialized
  Call.put { s with config := some { admin, marketplace } }

/-! ## Project lifecycle -/

/-- The bytes hashed into a project id.  The tuple of owner, name and vintage
year is no byte object, so the conversion fails and the fallback encodes the
vintage year only. -/
def projectIdBytes (owner : Address) (name : Symbol) (vintageYear : U32) : Bytes :=
  (Bytes.tryFromVal (.vec [.address owner, .symbol name, .u32 vintageYear])).getD
    vintageYear.toBeBytes

/-- The id under which a registration stores its project. -/
def projectId (sha256 : Bytes → BytesN) (owner : Address) (name : Symbol) (vintageYear : U32) :
    BytesN :=
  sha256 (projectIdBytes owner name vintageYear)

/-- The record that a registration stores. -/
def newProject (owner : Address) (name : Symbol) (totalCredits : I128) (vintageYear : U32) :
    CarbonProject where
  owner := owner
  name := name
  totalCredits := totalCredits
  issuedCredits := 0
  status := .pending
  vintageYear := vintageYear

/-- Register a new carbon project and return its id. -/
def registerProject (sha256 : Bytes → BytesN) (owner : Address) (name : Symbol)
    (totalCredits : I128) (vintageYear : U32) : RegistryCall BytesN := do
  requireAuth owner
  let _ ← loadConfig
  Call.failIf (totalCredits ≤ 0) .invalidAmount
  let id := projectId sha256 owner name vintageYear
  saveProject id (newProject owner name totalCredits vintageYear)
  pure id

/-- The common body of the three status changes: only the administrator may make
one, and no status is refused. -/
def setStatus (status : ProjectStatus) (id : BytesN) : RegistryCall Unit := do
  let cfg ← loadConfig
  requireAuth cfg.admin
  let project ← loadProject id
  saveProject id { project with status := status }

/-- The administrator verifies a project, whatever its status is. -/
def verifyProject (id : BytesN) : RegistryCall Unit := setStatus .verified id

/-- The administrator suspends a project, whatever its status is. -/
def suspendProject (id : BytesN) : RegistryCall Unit := setStatus .suspended id

/-- The administrator retires a project, whatever its status is. -/
def retireProject (id : BytesN) : RegistryCall Unit := setStatus .retired id

/-- Record the issue of credits against the total allocation of a project. -/
def issueCredits (id : BytesN) (amount : I128) : RegistryCall Unit := do
  let cfg ← loadConfig
  requireAuth cfg.marketplace
  Call.failIf (amount ≤ 0) .invalidAmount
  let project ← loadProject id
  Call.failIf (project.status = .suspended) .projectSuspended
  Call.failIf (project.status ≠ .verified) .projectNotVerified
  let newIssued ← Call.okOr (project.issuedCredits.checkedAdd amount) .invalidAmount
  Call.failIf (newIssued > project.totalCredits) .insufficientCredits
  saveProject id { project with issuedCredits := newIssued }

/-! ## Read-only queries -/

/-- Read a project. -/
def getProject (id : BytesN) : RegistryCall CarbonProject := loadProject id

/-! ## Acceptance and effect of the entry points -/

/-- When the contract is initialised, and what that writes. -/
theorem initializeContract_eq_ok {admin marketplace : Address} {env : Env} {s s' : Store} :
    initializeContract admin marketplace env s = .ok ((), s') ↔
      s.config = none ∧ s' = { s with config := some ⟨admin, marketplace⟩ } := by
  simp [initializeContract]

/-- The fallback branch decides the id: owner and name do not enter it. -/
theorem projectId_eq (sha256 : Bytes → BytesN) (owner : Address) (name : Symbol)
    (vintageYear : U32) :
    projectId sha256 owner name vintageYear = sha256 vintageYear.toBeBytes :=
  rfl

/-- The checks a registration has to pass. -/
def RegistrationAccepted (owner : Address) (totalCredits : I128) (env : Env) (s : Store) : Prop :=
  env.authorized owner = true ∧ s.config.isSome = true ∧ 0 < totalCredits.toInt

/-- When a project is registered, its id, and what that writes. -/
theorem registerProject_eq_ok {sha256 : Bytes → BytesN} {owner : Address} {name : Symbol}
    {totalCredits : I128} {vintageYear : U32} {env : Env} {s s' : Store} {id : BytesN} :
    registerProject sha256 owner name totalCredits vintageYear env s = .ok (id, s') ↔
      RegistrationAccepted owner totalCredits env s ∧
      id = projectId sha256 owner name vintageYear ∧
      s' = s.withProject id (newProject owner name totalCredits vintageYear) := by
  simp only [registerProject, RegistrationAccepted, Option.isSome_iff_exists, Call.bind_eq_ok,
    requireAuth_eq_ok, loadConfig_eq_ok, Call.failIf_eq_ok, saveProject_eq_ok, Call.pure_eq_ok,
    Prod.mk.injEq, MInt.le_def, MInt.toInt_zero, not_le, true_and, exists_eq_left, exists_const,
    ↓existsAndEq, and_true, exists_and_right]
  constructor
  · intro h
    rcases h with ⟨hauth, hcfg, hpos, rfl, hs⟩
    exact ⟨⟨hauth, hcfg, hpos⟩, rfl, hs⟩
  · intro h
    rcases h with ⟨⟨hauth, hcfg, hpos⟩, rfl, hs⟩
    exact ⟨hauth, hcfg, hpos, rfl, hs⟩

/-- When the status of a project is set, and what that writes. -/
theorem setStatus_eq_ok {status : ProjectStatus} {id : BytesN} {env : Env} {s s' : Store} :
    setStatus status id env s = .ok ((), s') ↔
      ∃ cfg project, s.config = some cfg ∧ env.authorized cfg.admin = true ∧
        s.projects.get id = some project ∧
        s' = s.withProject id { project with status := status } := by
  simp [setStatus]

/-- When credits are issued, and what that writes. -/
theorem issueCredits_eq_ok {id : BytesN} {amount : I128} {env : Env} {s s' : Store} :
    issueCredits id amount env s = .ok ((), s') ↔
      ∃ cfg project newIssued, s.config = some cfg ∧ env.authorized cfg.marketplace = true ∧
        0 < amount.toInt ∧ s.projects.get id = some project ∧ project.status = .verified ∧
        newIssued.toInt = project.issuedCredits.toInt + amount.toInt ∧
        newIssued.toInt ≤ project.totalCredits.toInt ∧
        s' = s.withProject id { project with issuedCredits := newIssued } := by
  simp only [issueCredits, ne_eq, Call.bind_eq_ok, loadConfig_eq_ok, requireAuth_eq_ok,
    Call.failIf_eq_ok, loadProject_eq_ok, Call.okOr_eq_ok, saveProject_eq_ok,
    MInt.checkedAdd_eq_some, Prod.mk.injEq, MInt.le_def, MInt.lt_def, gt_iff_lt, MInt.toInt_zero,
    not_le, not_lt, Decidable.not_not, true_and, ↓existsAndEq, and_true, exists_const,
    exists_and_left]
  constructor
  · intro h
    rcases h with ⟨cfg, hcfg, hauth, hpos, project, hproject, -, hrest⟩
    exact ⟨cfg, hcfg, hauth, hpos, project, hproject, hrest⟩
  · intro h
    rcases h with ⟨cfg, hcfg, hauth, hpos, project, hproject, hverified, hrest⟩
    have hnotSuspended : ¬project.status = .suspended := by simp [hverified]
    exact ⟨cfg, hcfg, hauth, hpos, project, hproject, hnotSuspended, hverified, hrest⟩

/-- Issuing credits leaves the configuration alone. -/
theorem issueCredits_config {id : BytesN} {amount : I128} {env : Env} {s s' : Store}
    (h : issueCredits id amount env s = .ok ((), s')) : s'.config = s.config := by
  rcases issueCredits_eq_ok.mp h with ⟨cfg, project, newIssued, -, -, -, -, -, -, -, rfl⟩
  rfl

/-! ## The contract as a machine -/

/-- The state-changing entry points with their arguments. -/
inductive Op where
  | initializeContract (admin marketplace : Address)
  | registerProject (owner : Address) (name : Symbol) (totalCredits : I128) (vintageYear : U32)
  | verifyProject (id : BytesN)
  | suspendProject (id : BytesN)
  | retireProject (id : BytesN)
  | issueCredits (id : BytesN) (amount : I128)

/-- The entry point that a call names. -/
def exec (sha256 : Bytes → BytesN) : Op → RegistryCall Unit
  | .initializeContract admin marketplace => initializeContract admin marketplace
  | .registerProject owner name totalCredits vintageYear => do
      let _ ← registerProject sha256 owner name totalCredits vintageYear
  | .verifyProject id => verifyProject id
  | .suspendProject id => suspendProject id
  | .retireProject id => retireProject id
  | .issueCredits id amount => issueCredits id amount

/-- The status that an operation writes and the project it writes it to. -/
def Op.statusChange : Op → Option (ProjectStatus × BytesN)
  | .verifyProject id => some (.verified, id)
  | .suspendProject id => some (.suspended, id)
  | .retireProject id => some (.retired, id)
  | _ => none

/-- The three status changes have one body. -/
theorem exec_of_statusChange {sha256 : Bytes → BytesN} {op : Op} {status : ProjectStatus}
    {id : BytesN} (h : op.statusChange = some (status, id)) :
    exec sha256 op = setStatus status id := by
  cases op with
  | verifyProject id =>
      cases h
      rfl
  | suspendProject id =>
      cases h
      rfl
  | retireProject id =>
      cases h
      rfl
  | _ => cases h

/-- Everything an operation of the registry can do when it returns. -/
theorem exec_cases {sha256 : Bytes → BytesN} {op : Op} {env : Env} {s s' : Store}
    (h : exec sha256 op env s = .ok ((), s')) :
    (∃ admin marketplace, op = .initializeContract admin marketplace ∧ s.config = none ∧
      s' = { s with config := some ⟨admin, marketplace⟩ }) ∨
    (∃ owner name totalCredits vintageYear,
      op = .registerProject owner name totalCredits vintageYear ∧
      RegistrationAccepted owner totalCredits env s ∧
      s' = s.withProject (projectId sha256 owner name vintageYear)
        (newProject owner name totalCredits vintageYear)) ∨
    (∃ status id cfg project, op.statusChange = some (status, id) ∧ s.config = some cfg ∧
      env.authorized cfg.admin = true ∧ s.projects.get id = some project ∧
      s' = s.withProject id { project with status := status }) ∨
    (∃ id amount cfg project newIssued, op = .issueCredits id amount ∧ s.config = some cfg ∧
      env.authorized cfg.marketplace = true ∧ 0 < amount.toInt ∧
      s.projects.get id = some project ∧ project.status = .verified ∧
      newIssued.toInt = project.issuedCredits.toInt + amount.toInt ∧
      newIssued.toInt ≤ project.totalCredits.toInt ∧
      s' = s.withProject id { project with issuedCredits := newIssued }) := by
  -- the three status changes have one body and form one case
  have hstatus : ∀ {status id}, op.statusChange = some (status, id) →
      setStatus status id env s = .ok ((), s') → ∃ status id cfg project,
        op.statusChange = some (status, id) ∧ s.config = some cfg ∧
        env.authorized cfg.admin = true ∧ s.projects.get id = some project ∧
        s' = s.withProject id { project with status := status } := by
    intro status id hop hset
    rcases setStatus_eq_ok.mp hset with ⟨cfg, project, hrest⟩
    exact ⟨status, id, cfg, project, hop, hrest⟩
  cases op with
  | initializeContract admin marketplace =>
      exact .inl ⟨admin, marketplace, rfl, initializeContract_eq_ok.mp h⟩
  | registerProject owner name totalCredits vintageYear =>
      rcases Call.bind_eq_ok.mp h with ⟨id, t, hcall, hpure⟩
      cases hpure
      rcases registerProject_eq_ok.mp hcall with ⟨haccepted, rfl, hs⟩
      exact .inr (.inl ⟨owner, name, totalCredits, vintageYear, rfl, haccepted, hs⟩)
  | verifyProject id => exact .inr (.inr (.inl (hstatus rfl h)))
  | suspendProject id => exact .inr (.inr (.inl (hstatus rfl h)))
  | retireProject id => exact .inr (.inr (.inl (hstatus rfl h)))
  | issueCredits id amount =>
      rcases issueCredits_eq_ok.mp h with ⟨cfg, project, newIssued, hrest⟩
      exact .inr (.inr (.inr ⟨id, amount, cfg, project, newIssued, rfl, hrest⟩))

/-- A configured registry keeps its configuration. -/
theorem exec_config {sha256 : Bytes → BytesN} {op : Op} {env : Env} {s s' : Store}
    {cfg : RegistryConfig} (h : exec sha256 op env s = .ok ((), s')) (hcfg : s.config = some cfg) :
    s'.config = some cfg := by
  rcases exec_cases h with ⟨admin, marketplace, -, hnone, -⟩ |
    ⟨owner, name, totalCredits, vintageYear, -, -, rfl⟩ |
    ⟨status, id, cfg', project, -, -, -, -, rfl⟩ |
    ⟨id, amount, cfg', project, newIssued, -, -, -, -, -, -, -, -, rfl⟩
  · rw [hcfg] at hnone
    cases hnone
  · exact hcfg
  · exact hcfg
  · exact hcfg

end CarbonRegistry
end Kraal
