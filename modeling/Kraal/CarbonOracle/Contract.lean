import Kraal.Soroban.Host
import Mathlib.Tactic.Simps.Basic

/-!
# The carbon_oracle contract

Price feeds of signed computations.  A price is submitted with its signature, or it is
committed to by a hash, may be challenged during a window, and is revealed after it.
Aggregated prices have a feed store of their own.  A circuit breaker trips on a large
deviation or by hand.

Main results:

- Theorems {lit}`submitPrice_eq_ok`, {lit}`commitPrice_eq_ok`, {lit}`challengePrice_eq_ok`,
  {lit}`revealPrice_eq_ok` and {lit}`submitAggregatedPrice_eq_ok`: the entry points, from
  acceptance to effect.
- Theorem {lit}`buildCommitmentPayload_inj`: a commitment payload determines its fields.
- Theorem {lit}`exec_cases`: everything an operation can do when it returns.
-/

namespace Kraal
namespace CarbonOracle

open Foundation

/-! ## Data types -/

/-- The state of a price commitment in the commit-reveal scheme. -/
inductive CommitmentState where
  | committed
  | challengeWindow
  | revealed
  | disputed
deriving DecidableEq, Repr

/-- The administrator, the key whose signatures count, the challenge window in ledgers,
and the last heartbeat of the operator. -/
structure Config where
  admin : Address
  oraclePubkey : BytesN
  challengeWindowDuration : U32
  lastHeartbeat : I64

/-- A commitment to a price, and how it stands. -/
structure PriceCommitment where
  commitmentHash : BytesN
  recordedAt : U32
  state : CommitmentState
deriving DecidableEq

/-- A stored price, with the hashes that say how it was computed. -/
structure PriceEntry where
  outputValue : I64
  timestampUtc : I64
  scriptHash : BytesN
  inputParamsHash : BytesN
  recordedAt : U32
  ipfsCid : Bytes
deriving DecidableEq

/-- The value of one source of an aggregate, and its weight as a fraction. -/
structure SourceValue where
  sourceId : String
  value : I64
  weightNumerator : I128
  weightDenominator : I128
deriving DecidableEq

/-- How an aggregate was made. -/
structure AggregationMetadata where
  method : String
  outlierMethod : String
  numSourcesUsed : U32
  numSourcesRejected : U32
  timestampUtc : I64
deriving DecidableEq

/-- The states of the circuit breaker. -/
inductive CircuitBreakerState where
  | active
  | tripped
  | adminPaused
deriving DecidableEq, Repr

/-- An aggregate with the values of its sources. -/
structure AggregatedPriceEntry where
  aggregateValue : I64
  sourceValues : List SourceValue
  metadata : AggregationMetadata
  recordedAt : U32
  ipfsCid : Bytes
deriving DecidableEq

/-- The errors that the contract returns. -/
inductive Error where
  | alreadyInitialized
  | notInitialized
  | unauthorized
  | invalidAttestation
  | feedNotFound
  | unsupportedSchemaVersion
  | commitmentNotFound
  | commitmentActive
  | challengeWindowNotExpired
  | challengeWindowExpired
  | invalidReveal
  | invalidCommitmentState
  | cidTooLong
  | circuitBreakerTripped
  | circuitBreakerOpen
  | staleFeed
deriving DecidableEq, Repr

/-- The storage of the contract: the instance rows for the configuration and the circuit
breaker, and the persistent rows of each feed. -/
structure Store where
  config : Option Config
  circuit : Option CircuitBreakerState
  feeds : Storage BytesN PriceEntry
  aggFeeds : Storage BytesN AggregatedPriceEntry
  commitments : Storage BytesN PriceCommitment

/-- The storage of a freshly deployed contract. -/
def Store.empty : Store := ⟨none, none, Storage.empty, Storage.empty, Storage.empty⟩

/-- The state of the circuit breaker, active until one is stored. -/
def Store.circuitState (s : Store) : CircuitBreakerState := s.circuit.getD .active

/-- Write the configuration. -/
@[simps]
def Store.withConfig (s : Store) (cfg : Config) : Store := { s with config := some cfg }

/-- Write the state of the circuit breaker. -/
@[simps]
def Store.withCircuit (s : Store) (state : CircuitBreakerState) : Store :=
  { s with circuit := some state }

/-- Write the price of a feed. -/
@[simps]
def Store.withFeed (s : Store) (feedId : BytesN) (entry : PriceEntry) : Store :=
  { s with feeds := s.feeds.set feedId entry }

/-- Write the aggregated price of a feed. -/
@[simps]
def Store.withAggFeed (s : Store) (feedId : BytesN) (entry : AggregatedPriceEntry) : Store :=
  { s with aggFeeds := s.aggFeeds.set feedId entry }

/-- Write the commitment of a feed. -/
@[simps]
def Store.withCommitment (s : Store) (feedId : BytesN) (commitment : PriceCommitment) : Store :=
  { s with commitments := s.commitments.set feedId commitment }

/-- A call of the contract, which reads the environment and writes the storage. -/
abbrev OracleCall (α : Type) : Type := Call Env Store Error α

/-! ## Signed payloads -/

/-- The computation that an attestation is about. -/
@[ext]
structure Computation where
  scriptHash : BytesN
  inputParamsHash : BytesN
  outputValue : I64
  timestampUtc : I64
deriving DecidableEq

/-- The version of the payload that is signed. -/
def schemaVersion : UInt8 := 1

/-- The attestation payload of a computation for a feed. -/
def buildPayload (schemaVersion : UInt8) (c : Computation) (feedId : BytesN) : Bytes :=
  [schemaVersion] ++ c.scriptHash.toArray ++ c.inputParamsHash.toArray ++
    c.outputValue.toBeBytes ++ c.timestampUtc.toBeBytes ++ feedId.toArray

/-- The payload that a commitment hashes. -/
def buildCommitmentPayload (c : Computation) (feedId salt : BytesN) : Bytes :=
  c.scriptHash.toArray ++ c.inputParamsHash.toArray ++ c.outputValue.toBeBytes ++
    c.timestampUtc.toBeBytes ++ feedId.toArray ++ salt.toArray

/-- The message that the signature of an aggregate covers. -/
def aggregationMessage (feedId : BytesN) (aggregateValue timestampUtc : I64) (numSources : U32) :
    Bytes :=
  [2] ++ feedId.toArray ++ aggregateValue.toBeBytes ++ timestampUtc.toBeBytes ++
    numSources.toBeBytes

/-! ## Helpers -/

/-- The configuration, once the contract is initialised. -/
def requireConfig : OracleCall Config := do
  let s ← Call.get
  Call.okOr s.config .notInitialized

/-- The configuration is read when there is one. -/
@[simp]
theorem requireConfig_eq_ok {env : Env} {s : Store} {p : Config × Store} :
    requireConfig env s = .ok p ↔ s.config = some p.1 ∧ p.2 = s := by
  simp [requireConfig, and_comm]

/-- The longest content identifier, in bytes. -/
def maxCidLen : Nat := 64

/-- The bytes of an optional content identifier, empty if there is none. -/
def cidToBytes (cid : Option Bytes) : OracleCall Bytes := do
  match cid with
  | none => pure []
  | some b =>
      Call.failIf (b.length > maxCidLen) .cidTooLong
      pure b

/-- A content identifier that is short enough, and the bytes that are stored for it. -/
def CidAccepted (cid : Option Bytes) (bytes : Bytes) : Prop :=
  bytes = cid.getD [] ∧ bytes.length ≤ maxCidLen

/-- A content identifier is taken when it is short enough. -/
@[simp]
theorem cidToBytes_eq_ok {cid : Option Bytes} {env : Env} {s : Store} {p : Bytes × Store} :
    cidToBytes cid env s = .ok p ↔ CidAccepted cid p.1 ∧ p.2 = s := by
  rcases p with ⟨bytes, s'⟩
  cases cid with
  | none =>
      simp only [cidToBytes, CidAccepted, Call.pure_eq_ok, Prod.mk.injEq, Option.getD_none]
      constructor
      · intro h
        rcases h with ⟨rfl, rfl⟩
        exact ⟨⟨rfl, Nat.zero_le _⟩, rfl⟩
      · intro h
        exact ⟨h.1.1, h.2⟩
  | some b =>
      simp only [cidToBytes, CidAccepted, Call.bind_eq_ok, Call.failIf_eq_ok, Call.pure_eq_ok,
        Prod.mk.injEq, Option.getD_some, not_lt, ↓existsAndEq, true_and, and_true, exists_const]
      constructor
      · intro h
        rcases h with ⟨hlen, rfl, rfl⟩
        exact ⟨⟨rfl, hlen⟩, rfl⟩
      · intro h
        rcases h with ⟨⟨rfl, hlen⟩, rfl⟩
        exact ⟨hlen, rfl, rfl⟩

/-! ## The circuit breaker -/

/-- Write the state of the breaker. -/
def setCircuitState (state : CircuitBreakerState) : OracleCall Unit :=
  Call.modify fun s => s.withCircuit state

/-- Refuse the call unless the breaker is closed. -/
def requireActive : OracleCall Unit := do
  let s ← Call.get
  Call.failIf (s.circuitState ≠ .active) .circuitBreakerOpen

/-- A call goes on when the breaker is closed. -/
@[simp]
theorem requireActive_eq_ok {env : Env} {s : Store} {p : Unit × Store} :
    requireActive env s = .ok p ↔ s.circuitState = .active ∧ p = ((), s) := by
  simp [requireActive]

/-- A new value differs from the previous one by more than its whole.  The products are
those of 128-bit integers, which two 64-bit factors cannot overflow. -/
def Deviates (previous outputValue : I64) : Prop :=
  let delta :=
    if outputValue ≥ previous then outputValue.saturatingSub previous
    else previous.saturatingSub outputValue
  let baseline := if previous < 0 then previous.saturatingNeg else previous
  baseline > 0 ∧ delta.toInt * 10000 > baseline.toInt * 10000

instance (previous outputValue : I64) : Decidable (Deviates previous outputValue) :=
  inferInstanceAs (Decidable (_ ∧ _))

/-- Trip the breaker if a value deviates from the stored one. -/
def checkDeviation (feedId : BytesN) (outputValue : I64) : OracleCall Unit := do
  let s ← Call.get
  match s.feeds.get feedId with
  | some previous =>
      if Deviates previous.outputValue outputValue then setCircuitState .tripped else pure ()
  | none => pure ()

/-- The store after the deviation check. -/
def Store.afterDeviation (s : Store) (feedId : BytesN) (outputValue : I64) : Store :=
  match s.feeds.get feedId with
  | some previous =>
      if Deviates previous.outputValue outputValue then s.withCircuit .tripped else s
  | none => s

/-- The check of the deviation never fails, and may trip the breaker. -/
@[simp]
theorem checkDeviation_eq_ok {feedId : BytesN} {outputValue : I64} {env : Env} {s : Store}
    {p : Unit × Store} :
    checkDeviation feedId outputValue env s = .ok p ↔
      p = ((), s.afterDeviation feedId outputValue) := by
  rw [checkDeviation, Call.bind_of_ok rfl, Store.afterDeviation]
  cases s.feeds.get feedId with
  | none => exact Call.pure_eq_ok
  | some previous =>
      by_cases hdeviates : Deviates previous.outputValue outputValue
      · simp only [hdeviates, if_true]
        exact Call.modify_eq_ok
      · simp only [hdeviates, if_false]
        exact Call.pure_eq_ok

/-- The deviation check writes the circuit breaker only. -/
theorem Store.afterDeviation_eq (s : Store) (feedId : BytesN) (outputValue : I64) :
    ∃ circuit, s.afterDeviation feedId outputValue = { s with circuit := circuit } := by
  unfold Store.afterDeviation
  split
  · split
    · exact ⟨some .tripped, rfl⟩
    · exact ⟨s.circuit, rfl⟩
  · exact ⟨s.circuit, rfl⟩

/-- The check of the deviation leaves the commitments alone. -/
@[simp]
theorem Store.afterDeviation_commitments (s : Store) (feedId : BytesN) (outputValue : I64) :
    (s.afterDeviation feedId outputValue).commitments = s.commitments := by
  rcases s.afterDeviation_eq feedId outputValue with ⟨circuit, heq⟩
  rw [heq]

/-- The check of the deviation leaves the prices alone. -/
@[simp]
theorem Store.afterDeviation_feeds (s : Store) (feedId : BytesN) (outputValue : I64) :
    (s.afterDeviation feedId outputValue).feeds = s.feeds := by
  rcases s.afterDeviation_eq feedId outputValue with ⟨circuit, heq⟩
  rw [heq]

/-- The check of the deviation leaves the aggregates alone. -/
@[simp]
theorem Store.afterDeviation_aggFeeds (s : Store) (feedId : BytesN) (outputValue : I64) :
    (s.afterDeviation feedId outputValue).aggFeeds = s.aggFeeds := by
  rcases s.afterDeviation_eq feedId outputValue with ⟨circuit, heq⟩
  rw [heq]

/-! ## Entry points -/

/-- Store the configuration, once. -/
def initializeContract (admin : Address) (oraclePubkey : BytesN) (challengeWindowDuration : U32) :
    OracleCall Unit := do
  let s ← Call.get
  Call.failIf (s.config.isSome) .alreadyInitialized
  requireAuth admin
  let cfg : Config := { admin, oraclePubkey, challengeWindowDuration, lastHeartbeat := 0 }
  Call.modify fun s => s.withConfig cfg

/-- Store the price of a computation that the oracle key has signed. -/
def submitPrice (crypto : Crypto) (oracle : Address) (c : Computation) (feedId signature : BytesN)
    (ipfsCid : Option Bytes) : OracleCall Unit := do
  let cfg ← requireConfig
  requireActive
  requireAuth oracle
  let payload := buildPayload schemaVersion c feedId
  ed25519Verify crypto cfg.oraclePubkey payload signature
  checkDeviation feedId c.outputValue
  let cidBytes ← cidToBytes ipfsCid
  let env ← Call.ask
  let entry : PriceEntry :=
    { outputValue := c.outputValue, timestampUtc := c.timestampUtc, scriptHash := c.scriptHash
      inputParamsHash := c.inputParamsHash, recordedAt := env.sequence, ipfsCid := cidBytes }
  Call.modify fun s => s.withFeed feedId entry

/-- Load the configuration for its administrator. -/
def requireAdmin (admin : Address) : OracleCall Config := do
  let cfg ← requireConfig
  requireAuth admin
  Call.failIf (admin ≠ cfg.admin) .unauthorized
  pure cfg

/-- The administrator sets the length of the challenge window. -/
def setChallengeWindow (admin : Address) (duration : U32) : OracleCall Unit := do
  let cfg ← requireAdmin admin
  Call.modify fun s => s.withConfig { cfg with challengeWindowDuration := duration }

/-- Commit to a price.  The challenge window starts at once. -/
def commitPrice (oracle : Address) (feedId commitmentHash : BytesN) : OracleCall Unit := do
  let _ ← requireConfig
  requireAuth oracle
  let s ← Call.get
  match s.commitments.get feedId with
  | some existing =>
      Call.failIf (existing.state = .committed ∨ existing.state = .challengeWindow)
        .commitmentActive
  | none => pure ()
  let env ← Call.ask
  let commitment : PriceCommitment :=
    { commitmentHash, recordedAt := env.sequence, state := .challengeWindow }
  Call.modify fun s => s.withCommitment feedId commitment

/-- Load a commitment whose challenge window has started, with the first ledger after the
window.  The sum is that of 32-bit integers and traps on overflow. -/
def loadCommitment (cfg : Config) (feedId : BytesN) : OracleCall (PriceCommitment × U32) := do
  let s ← Call.get
  let commitment ← Call.okOr (s.commitments.get feedId) .commitmentNotFound
  Call.failIf (commitment.state ≠ .challengeWindow) .invalidCommitmentState
  let expiry ← Call.okOrTrap (commitment.recordedAt.checkedAdd cfg.challengeWindowDuration)
  pure (commitment, expiry)

/-- Dispute a commitment within its challenge window.  The alternative value is ignored. -/
def challengePrice (challenger : Address) (feedId : BytesN) (_alternativeOutputValue : I64) :
    OracleCall Unit := do
  let cfg ← requireConfig
  requireAuth challenger
  let (commitment, expiry) ← loadCommitment cfg feedId
  let env ← Call.ask
  Call.failIf (env.sequence ≥ expiry) .challengeWindowExpired
  Call.modify fun s => s.withCommitment feedId { commitment with state := .disputed }

/-- Reveal a committed price after its challenge window. -/
def revealPrice (crypto : Crypto) (oracle : Address) (feedId : BytesN) (c : Computation)
    (salt signature : BytesN) (ipfsCid : Option Bytes) : OracleCall Unit := do
  let cfg ← requireConfig
  requireAuth oracle
  let (commitment, expiry) ← loadCommitment cfg feedId
  let env ← Call.ask
  Call.failIf (env.sequence < expiry) .challengeWindowNotExpired
  let payload := buildCommitmentPayload c feedId salt
  let expectedHash := crypto.sha256 payload
  Call.failIf (expectedHash ≠ commitment.commitmentHash) .invalidReveal
  let attestationPayload := buildPayload schemaVersion c feedId
  ed25519Verify crypto cfg.oraclePubkey attestationPayload signature
  Call.modify fun s => s.withCommitment feedId { commitment with state := .revealed }
  let cidBytes ← cidToBytes ipfsCid
  let entry : PriceEntry :=
    { outputValue := c.outputValue, timestampUtc := c.timestampUtc, scriptHash := c.scriptHash
      inputParamsHash := c.inputParamsHash, recordedAt := env.sequence, ipfsCid := cidBytes }
  Call.modify fun s => s.withFeed feedId entry

/-- The administrator replaces the key of the oracle. -/
def rotateKey (admin : Address) (newPubkey : BytesN) : OracleCall Unit := do
  let cfg ← requireAdmin admin
  Call.modify fun s => s.withConfig { cfg with oraclePubkey := newPubkey }

/-- The arguments of an aggregated submission but for the caller and the signature. -/
structure Aggregation where
  feedId : BytesN
  aggregateValue : I64
  sourceValues : List (String × I64 × I128 × I128)
  method : String
  outlierMethod : String
  numSourcesRejected : U32
  timestampUtc : I64
  ipfsCid : Option Bytes

/-- The largest number of sources of one aggregate. -/
def maxAggregationSources : U32 := 10

/-- The number of sources.  A host vector has no more than fit in 32 bits. -/
def Aggregation.numSources (a : Aggregation) : U32 := MInt.clamp IntType.u32 a.sourceValues.length

/-- The source values as they are stored. -/
def Aggregation.storedValues (a : Aggregation) : List SourceValue :=
  a.sourceValues.map fun (sourceId, value, weightNumerator, weightDenominator) =>
    { sourceId, value, weightNumerator, weightDenominator }

/-- Store an aggregate that the oracle key has signed.  The number of sources that were
used is a difference of 32-bit integers and traps on overflow. -/
def submitAggregatedPrice (crypto : Crypto) (oracle : Address) (a : Aggregation)
    (signature : BytesN) : OracleCall Unit := do
  let cfg ← requireConfig
  requireAuth oracle
  Call.failIf (a.numSources > maxAggregationSources) .invalidAttestation
  let msg := aggregationMessage a.feedId a.aggregateValue a.timestampUtc a.numSources
  ed25519Verify crypto cfg.oraclePubkey msg signature
  let cidBytes ← cidToBytes a.ipfsCid
  let numSourcesUsed ← Call.okOrTrap (a.numSources.checkedSub a.numSourcesRejected)
  let env ← Call.ask
  let metadata : AggregationMetadata :=
    { method := a.method, outlierMethod := a.outlierMethod, numSourcesUsed
      numSourcesRejected := a.numSourcesRejected, timestampUtc := a.timestampUtc }
  let entry : AggregatedPriceEntry :=
    { aggregateValue := a.aggregateValue, sourceValues := a.storedValues, metadata
      recordedAt := env.sequence, ipfsCid := cidBytes }
  Call.modify fun s => s.withAggFeed a.feedId entry

/-- Anyone who signs writes the time of the last heartbeat. -/
def heartbeat (oracle : Address) (timestampUtc : I64) : OracleCall Unit := do
  let cfg ← requireConfig
  requireActive
  requireAuth oracle
  Call.modify fun s => s.withConfig { cfg with lastHeartbeat := timestampUtc }

/-- Set the breaker on behalf of the administrator. -/
def adminSetCircuit (state : CircuitBreakerState) (admin : Address) : OracleCall Unit := do
  let _ ← requireAdmin admin
  setCircuitState state

/-- The administrator opens the breaker. -/
def tripCircuitBreaker (admin : Address) : OracleCall Unit := adminSetCircuit .tripped admin

/-- The administrator pauses the contract. -/
def adminPause (admin : Address) : OracleCall Unit := adminSetCircuit .adminPaused admin

/-- The administrator closes the breaker. -/
def resetCircuitBreaker (admin : Address) : OracleCall Unit := adminSetCircuit .active admin

/-! ## Read-only queries -/

/-- The oldest heartbeat that a price is returned with, in seconds. -/
def heartbeatExpirySeconds : I64 := 3600

/-- The time of the current ledger as a signed integer. -/
def ledgerTime (env : Env) : I64 := env.timestamp.wrap IntType.i64

/-- The stored price of a feed, unless the heartbeat of the operator has expired. -/
def getPrice (feedId : BytesN) : OracleCall PriceEntry := do
  let cfg ← requireConfig
  let env ← Call.ask
  Call.failIf (cfg.lastHeartbeat ≠ 0 ∧
    (ledgerTime env).saturatingSub cfg.lastHeartbeat > heartbeatExpirySeconds) .staleFeed
  let s ← Call.get
  Call.okOr (s.feeds.get feedId) .feedNotFound

/-- Read the commitment for a feed. -/
def getCommitment (feedId : BytesN) : OracleCall PriceCommitment := do
  let _ ← requireConfig
  let s ← Call.get
  Call.okOr (s.commitments.get feedId) .commitmentNotFound

/-- Read the aggregate of a feed. -/
def getAggregatedPrice (feedId : BytesN) : OracleCall AggregatedPriceEntry := do
  let _ ← requireConfig
  let s ← Call.get
  Call.okOr (s.aggFeeds.get feedId) .feedNotFound

/-- Whether the computation of a price is older than a number of seconds. -/
def isPriceStale (feedId : BytesN) (maxAgeSeconds : I64) : OracleCall Bool := do
  let _ ← requireConfig
  let s ← Call.get
  let entry ← Call.okOr (s.feeds.get feedId) .feedNotFound
  let env ← Call.ask
  pure (decide ((ledgerTime env).saturatingSub entry.timestampUtc > maxAgeSeconds))

/-- Read the state of the breaker. -/
def getCircuitBreakerState : OracleCall CircuitBreakerState := do
  let _ ← requireConfig
  let s ← Call.get
  pure s.circuitState

/-- Read the configuration. -/
def getConfig : OracleCall Config := requireConfig

/-! ## Acceptance and effect of the entry points -/

/-- The price entry of a computation. -/
def Computation.entry (c : Computation) (recordedAt : U32) (cid : Bytes) : PriceEntry :=
  ⟨c.outputValue, c.timestampUtc, c.scriptHash, c.inputParamsHash, recordedAt, cid⟩

/-- The key of a configuration has signed a computation for a feed. -/
def Attested (crypto : Crypto) (cfg : Config) (c : Computation) (feedId signature : BytesN) :
    Prop :=
  crypto.ed25519Verify cfg.oraclePubkey (buildPayload schemaVersion c feedId) signature = true

variable {crypto : Crypto} {env : Env} {s s' : Store}

/-- When the contract is initialised, and what that writes. -/
theorem initializeContract_eq_ok {admin : Address} {oraclePubkey : BytesN}
    {challengeWindowDuration : U32} :
    initializeContract admin oraclePubkey challengeWindowDuration env s = .ok ((), s') ↔
      s.config = none ∧ env.authorized admin = true ∧
        s' = s.withConfig ⟨admin, oraclePubkey, challengeWindowDuration, 0⟩ := by
  simp [initializeContract]

/-- When a price is submitted, and what that writes. -/
theorem submitPrice_eq_ok {oracle : Address} {c : Computation} {feedId signature : BytesN}
    {ipfsCid : Option Bytes} :
    submitPrice crypto oracle c feedId signature ipfsCid env s = .ok ((), s') ↔
      ∃ cfg cid, s.config = some cfg ∧ s.circuitState = .active ∧
        env.authorized oracle = true ∧ Attested crypto cfg c feedId signature ∧
        CidAccepted ipfsCid cid ∧
        s' = (s.afterDeviation feedId c.outputValue).withFeed feedId
          (c.entry env.sequence cid) := by
  simp only [submitPrice, Attested, Computation.entry, Call.bind_eq_ok, requireConfig_eq_ok,
    requireActive_eq_ok, requireAuth_eq_ok, ed25519Verify_eq_ok, checkDeviation_eq_ok,
    cidToBytes_eq_ok, Call.ask_eq_ok, Call.modify_eq_ok, Prod.mk.injEq, ↓existsAndEq, true_and,
    and_true, exists_const]
  constructor
  · intro h
    rcases h with ⟨cfg, hcfg, hactive, hauth, hsigned, cid, hcid, hs⟩
    exact ⟨cfg, cid, hcfg, hactive, hauth, hsigned, hcid, hs⟩
  · intro h
    rcases h with ⟨cfg, cid, hcfg, hactive, hauth, hsigned, hcid, hs⟩
    exact ⟨cfg, hcfg, hactive, hauth, hsigned, cid, hcid, hs⟩

/-- A call goes on when the administrator has authorised it. -/
@[simp]
theorem requireAdmin_eq_ok {admin : Address} {p : Config × Store} :
    requireAdmin admin env s = .ok p ↔
      s.config = some p.1 ∧ env.authorized admin = true ∧ admin = p.1.admin ∧ p.2 = s := by
  rcases p with ⟨cfg, s'⟩
  simp only [requireAdmin, Call.bind_eq_ok, requireConfig_eq_ok, requireAuth_eq_ok,
    Call.failIf_eq_ok, Call.pure_eq_ok, Prod.mk.injEq, not_not, ne_eq, ↓existsAndEq, true_and,
    and_true, exists_const]

/-- No commitment that waits for its reveal is stored for a feed. -/
def CommitmentFree (s : Store) (feedId : BytesN) : Prop :=
  ∀ existing, s.commitments.get feedId = some existing →
    existing.state ≠ .committed ∧ existing.state ≠ .challengeWindow

/-- When a price is committed to, and what that writes. -/
theorem commitPrice_eq_ok {oracle : Address} {feedId commitmentHash : BytesN} :
    commitPrice oracle feedId commitmentHash env s = .ok ((), s') ↔
      s.config.isSome = true ∧ env.authorized oracle = true ∧ CommitmentFree s feedId ∧
        s' = s.withCommitment feedId ⟨commitmentHash, env.sequence, .challengeWindow⟩ := by
  simp only [commitPrice, CommitmentFree, Option.isSome_iff_exists, Call.bind_eq_ok,
    requireConfig_eq_ok, requireAuth_eq_ok, Call.get_eq_ok, Prod.mk.injEq, ↓existsAndEq, true_and,
    and_true, exists_const, exists_and_right]
  cases s.commitments.get feedId with
  | none => simp
  | some existing => simp

/-- A commitment whose challenge window has started and ends before the given ledger. -/
structure Pending (s : Store) (cfg : Config) (feedId : BytesN) (commitment : PriceCommitment)
    (expiry : U32) : Prop where
  stored : s.commitments.get feedId = some commitment
  window : commitment.state = .challengeWindow
  expiry_eq : expiry.toInt = commitment.recordedAt.toInt + cfg.challengeWindowDuration.toInt

/-- A commitment is read while it waits. -/
@[simp]
theorem loadCommitment_eq_ok {cfg : Config} {feedId : BytesN}
    {p : (PriceCommitment × U32) × Store} :
    loadCommitment cfg feedId env s = .ok p ↔ Pending s cfg feedId p.1.1 p.1.2 ∧ p.2 = s := by
  rcases p with ⟨⟨commitment, expiry⟩, s'⟩
  simp only [loadCommitment, Call.bind_eq_ok, Call.get_eq_ok, Call.okOr_eq_ok, Call.failIf_eq_ok,
    Call.okOrTrap_eq_ok, Call.pure_eq_ok, MInt.checkedAdd_eq_some, Prod.mk.injEq, not_not, ne_eq,
    ↓existsAndEq, true_and, and_true, exists_const]
  constructor
  · intro h
    rcases h with ⟨hstored, hwindow, hexpiry, hs⟩
    exact ⟨⟨hstored, hwindow, hexpiry⟩, hs⟩
  · intro h
    rcases h with ⟨⟨hstored, hwindow, hexpiry⟩, hs⟩
    exact ⟨hstored, hwindow, hexpiry, hs⟩

/-- When a commitment is challenged, and what that writes. -/
theorem challengePrice_eq_ok {challenger : Address} {feedId : BytesN}
    {alternativeOutputValue : I64} :
    challengePrice challenger feedId alternativeOutputValue env s = .ok ((), s') ↔
      ∃ cfg commitment expiry, s.config = some cfg ∧ env.authorized challenger = true ∧
        Pending s cfg feedId commitment expiry ∧ env.sequence.toInt < expiry.toInt ∧
        s' = s.withCommitment feedId { commitment with state := .disputed } := by
  simp only [challengePrice, Call.bind_eq_ok, requireConfig_eq_ok, requireAuth_eq_ok,
    loadCommitment_eq_ok, Call.ask_eq_ok, Call.failIf_eq_ok, Call.modify_eq_ok, ge_iff_le,
    MInt.le_def, not_le, Prod.mk.injEq, Prod.exists, ↓existsAndEq, true_and, and_true, exists_const]
  constructor
  · intro h
    rcases h with ⟨cfg, hcfg, hauth, commitment, expiry, hpending, hnow, hs⟩
    exact ⟨cfg, commitment, expiry, hcfg, hauth, hpending, hnow, hs⟩
  · intro h
    rcases h with ⟨cfg, commitment, expiry, hcfg, hauth, hpending, hnow, hs⟩
    exact ⟨cfg, hcfg, hauth, commitment, expiry, hpending, hnow, hs⟩

/-- The checks of a reveal, with what it reads. -/
structure RevealAccepted (crypto : Crypto) (oracle : Address) (feedId : BytesN) (c : Computation)
    (salt signature : BytesN) (env : Env) (s : Store) (cfg : Config) (commitment : PriceCommitment)
    (expiry : U32) : Prop where
  config : s.config = some cfg
  auth : env.authorized oracle = true
  pending : Pending s cfg feedId commitment expiry
  expired : expiry.toInt ≤ env.sequence.toInt
  opens : crypto.sha256 (buildCommitmentPayload c feedId salt) = commitment.commitmentHash
  attested : Attested crypto cfg c feedId signature

/-- When a price is revealed, and what that writes. -/
theorem revealPrice_eq_ok {oracle : Address} {feedId : BytesN} {c : Computation}
    {salt signature : BytesN} {ipfsCid : Option Bytes} :
    revealPrice crypto oracle feedId c salt signature ipfsCid env s = .ok ((), s') ↔
      ∃ cfg commitment expiry cid,
        RevealAccepted crypto oracle feedId c salt signature env s cfg commitment expiry ∧
        CidAccepted ipfsCid cid ∧
        s' = (s.withCommitment feedId { commitment with state := .revealed }).withFeed feedId
          (c.entry env.sequence cid) := by
  simp only [revealPrice, Computation.entry, Call.bind_eq_ok, requireConfig_eq_ok,
    requireAuth_eq_ok, loadCommitment_eq_ok, Call.ask_eq_ok, Call.failIf_eq_ok, ed25519Verify_eq_ok,
    Call.modify_eq_ok, cidToBytes_eq_ok, MInt.lt_def, not_lt, ne_eq, not_not, Prod.mk.injEq,
    Prod.exists, ↓existsAndEq, true_and, and_true, exists_const]
  constructor
  · intro h
    rcases h with ⟨cfg, hcfg, hauth, commitment, expiry, hpending, hnow, hopens, hsigned, cid, hcid,
      hs⟩
    exact ⟨cfg, commitment, expiry, cid, ⟨hcfg, hauth, hpending, hnow, hopens, hsigned⟩, hcid, hs⟩
  · intro h
    rcases h with ⟨cfg, commitment, expiry, cid, ⟨hcfg, hauth, hpending, hnow, hopens, hsigned⟩,
      hcid, hs⟩
    exact ⟨cfg, hcfg, hauth, commitment, expiry, hpending, hnow, hopens, hsigned, cid, hcid, hs⟩

/-- The checks of an aggregated submission, with what it reads. -/
structure AggregationAccepted (crypto : Crypto) (oracle : Address) (a : Aggregation)
    (signature : BytesN) (env : Env) (s : Store) (cfg : Config) : Prop where
  config : s.config = some cfg
  auth : env.authorized oracle = true
  within_limit : a.numSources ≤ maxAggregationSources
  signed : crypto.ed25519Verify cfg.oraclePubkey
    (aggregationMessage a.feedId a.aggregateValue a.timestampUtc a.numSources) signature = true

/-- The entry that an aggregated submission stores. -/
def Aggregation.entry (a : Aggregation) (numSourcesUsed recordedAt : U32) (cid : Bytes) :
    AggregatedPriceEntry :=
  ⟨a.aggregateValue, a.storedValues,
    ⟨a.method, a.outlierMethod, numSourcesUsed, a.numSourcesRejected, a.timestampUtc⟩, recordedAt,
    cid⟩

/-- When an aggregate is submitted, and what that writes. -/
theorem submitAggregatedPrice_eq_ok {oracle : Address} {a : Aggregation} {signature : BytesN} :
    submitAggregatedPrice crypto oracle a signature env s = .ok ((), s') ↔
      ∃ cfg cid numSourcesUsed, AggregationAccepted crypto oracle a signature env s cfg ∧
        CidAccepted a.ipfsCid cid ∧
        numSourcesUsed.toInt = a.numSources.toInt - a.numSourcesRejected.toInt ∧
        s' = s.withAggFeed a.feedId (a.entry numSourcesUsed env.sequence cid) := by
  simp only [submitAggregatedPrice, Aggregation.entry, Call.bind_eq_ok, requireConfig_eq_ok,
    requireAuth_eq_ok, Call.failIf_eq_ok, ed25519Verify_eq_ok, cidToBytes_eq_ok,
    Call.okOrTrap_eq_ok, MInt.checkedSub_eq_some, Call.ask_eq_ok, Call.modify_eq_ok, gt_iff_lt,
    MInt.lt_def, not_lt, Prod.mk.injEq, ↓existsAndEq, true_and, and_true, exists_const]
  constructor
  · intro h
    rcases h with ⟨cfg, hcfg, hauth, hlimit, hsigned, cid, hcid, used, hused, hs⟩
    exact ⟨cfg, cid, used, ⟨hcfg, hauth, hlimit, hsigned⟩, hcid, hused, hs⟩
  · intro h
    rcases h with ⟨cfg, cid, used, ⟨hcfg, hauth, hlimit, hsigned⟩, hcid, hused, hs⟩
    exact ⟨cfg, hcfg, hauth, hlimit, hsigned, cid, hcid, used, hused, hs⟩

/-- When a heartbeat is written. -/
theorem heartbeat_eq_ok {oracle : Address} {timestampUtc : I64} :
    heartbeat oracle timestampUtc env s = .ok ((), s') ↔
      ∃ cfg, s.config = some cfg ∧ s.circuitState = .active ∧ env.authorized oracle = true ∧
        s' = s.withConfig { cfg with lastHeartbeat := timestampUtc } := by
  simp [heartbeat]

/-- When the length of the window is set, and what that writes. -/
theorem setChallengeWindow_eq_ok {admin : Address} {duration : U32} :
    setChallengeWindow admin duration env s = .ok ((), s') ↔
      ∃ cfg, s.config = some cfg ∧ env.authorized admin = true ∧ admin = cfg.admin ∧
        s' = s.withConfig { cfg with challengeWindowDuration := duration } := by
  simp [setChallengeWindow, and_assoc]

/-- When the key is replaced, and what that writes. -/
theorem rotateKey_eq_ok {admin : Address} {newPubkey : BytesN} :
    rotateKey admin newPubkey env s = .ok ((), s') ↔
      ∃ cfg, s.config = some cfg ∧ env.authorized admin = true ∧ admin = cfg.admin ∧
        s' = s.withConfig { cfg with oraclePubkey := newPubkey } := by
  simp [rotateKey, and_assoc]

/-- When the administrator sets the breaker, and what that writes. -/
theorem adminSetCircuit_eq_ok {state : CircuitBreakerState} {admin : Address} :
    adminSetCircuit state admin env s = .ok ((), s') ↔
      ∃ cfg, s.config = some cfg ∧ env.authorized admin = true ∧ admin = cfg.admin ∧
        s' = s.withCircuit state := by
  simp [adminSetCircuit, setCircuitState, and_assoc]

/-- The heartbeat of the operator has expired. -/
def HeartbeatExpired (cfg : Config) (env : Env) : Prop :=
  cfg.lastHeartbeat ≠ 0 ∧ (ledgerTime env).saturatingSub cfg.lastHeartbeat > heartbeatExpirySeconds

/-- When a price is read. -/
theorem getPrice_eq_ok {feedId : BytesN} {p : PriceEntry} :
    getPrice feedId env s = .ok (p, s') ↔
      ∃ cfg, s.config = some cfg ∧ ¬ HeartbeatExpired cfg env ∧ s.feeds.get feedId = some p ∧
        s' = s := by
  simp only [getPrice, HeartbeatExpired, Call.bind_eq_ok, requireConfig_eq_ok, Call.ask_eq_ok,
    Call.failIf_eq_ok, Call.get_eq_ok, Call.okOr_eq_ok, Prod.mk.injEq, ↓existsAndEq, true_and,
    and_true, exists_const]

/-! ## The contract as a machine -/

/-- The state-changing entry points with their arguments. -/
inductive Op where
  | initializeContract (admin : Address) (oraclePubkey : BytesN) (challengeWindowDuration : U32)
  | submitPrice (oracle : Address) (c : Computation) (feedId signature : BytesN)
      (ipfsCid : Option Bytes)
  | setChallengeWindow (admin : Address) (duration : U32)
  | commitPrice (oracle : Address) (feedId commitmentHash : BytesN)
  | challengePrice (challenger : Address) (feedId : BytesN) (alternativeOutputValue : I64)
  | revealPrice (oracle : Address) (feedId : BytesN) (c : Computation) (salt signature : BytesN)
      (ipfsCid : Option Bytes)
  | rotateKey (admin : Address) (newPubkey : BytesN)
  | submitAggregatedPrice (oracle : Address) (a : Aggregation) (signature : BytesN)
  | heartbeat (oracle : Address) (timestampUtc : I64)
  | tripCircuitBreaker (admin : Address)
  | adminPause (admin : Address)
  | resetCircuitBreaker (admin : Address)

/-- The entry point that a call names. -/
def exec (crypto : Crypto) : Op → OracleCall Unit
  | .initializeContract admin oraclePubkey challengeWindowDuration =>
      initializeContract admin oraclePubkey challengeWindowDuration
  | .submitPrice oracle c feedId signature ipfsCid =>
      submitPrice crypto oracle c feedId signature ipfsCid
  | .setChallengeWindow admin duration => setChallengeWindow admin duration
  | .commitPrice oracle feedId commitmentHash => commitPrice oracle feedId commitmentHash
  | .challengePrice challenger feedId alternativeOutputValue =>
      challengePrice challenger feedId alternativeOutputValue
  | .revealPrice oracle feedId c salt signature ipfsCid =>
      revealPrice crypto oracle feedId c salt signature ipfsCid
  | .rotateKey admin newPubkey => rotateKey admin newPubkey
  | .submitAggregatedPrice oracle a signature => submitAggregatedPrice crypto oracle a signature
  | .heartbeat oracle timestampUtc => heartbeat oracle timestampUtc
  | .tripCircuitBreaker admin => tripCircuitBreaker admin
  | .adminPause admin => adminPause admin
  | .resetCircuitBreaker admin => resetCircuitBreaker admin

/-- The feed whose commitment an operation is about. -/
def Op.commitmentFeed : Op → Option BytesN
  | .commitPrice _ feedId _ => some feedId
  | .challengePrice _ feedId _ => some feedId
  | .revealPrice _ feedId _ _ _ _ => some feedId
  | _ => none

/-- The feed whose rows an operation writes. -/
def Op.feed : Op → Option BytesN
  | .submitPrice _ _ feedId _ _ => some feedId
  | .submitAggregatedPrice _ a _ => some a.feedId
  | op => op.commitmentFeed

/-- A call that is about no feed is about no commitment. -/
theorem Op.commitmentFeed_of_feed {op : Op} (h : op.feed = none) : op.commitmentFeed = none := by
  cases op with
  | commitPrice | challengePrice | revealPrice => cases h
  | _ => rfl

/-- Everything an operation can do when it returns. -/
theorem exec_cases {op : Op} (h : exec crypto op env s = .ok ((), s')) :
    (∃ cfg, op.feed = none ∧ s' = s.withConfig cfg) ∨
    (∃ state, op.feed = none ∧ s' = s.withCircuit state ∧
      (state = .active → ∃ admin, op = .resetCircuitBreaker admin)) ∨
    (∃ oracle c feedId signature ipfsCid,
      op = .submitPrice oracle c feedId signature ipfsCid ∧ s.circuitState = .active ∧
      s' = (s.afterDeviation feedId c.outputValue).withFeed feedId
        (c.entry env.sequence (ipfsCid.getD []))) ∨
    (∃ oracle feedId commitmentHash, op = .commitPrice oracle feedId commitmentHash ∧
      CommitmentFree s feedId ∧
      s' = s.withCommitment feedId ⟨commitmentHash, env.sequence, .challengeWindow⟩) ∨
    (∃ challenger feedId alternativeOutputValue, ∃ commitment : PriceCommitment,
      op = .challengePrice challenger feedId alternativeOutputValue ∧
      s' = s.withCommitment feedId { commitment with state := .disputed }) ∨
    (∃ oracle feedId c salt signature ipfsCid cfg commitment expiry,
      op = .revealPrice oracle feedId c salt signature ipfsCid ∧
      RevealAccepted crypto oracle feedId c salt signature env s cfg commitment expiry ∧
      s' = (s.withCommitment feedId { commitment with state := .revealed }).withFeed feedId
        (c.entry env.sequence (ipfsCid.getD []))) ∨
    (∃ oracle a signature numSourcesUsed,
      op = .submitAggregatedPrice oracle a signature ∧
      numSourcesUsed.toInt = a.numSources.toInt - a.numSourcesRejected.toInt ∧
      s' = s.withAggFeed a.feedId
        (a.entry numSourcesUsed env.sequence (a.ipfsCid.getD []))) := by
  cases op with
  | initializeContract admin oraclePubkey challengeWindowDuration =>
      exact .inl ⟨_, rfl, (initializeContract_eq_ok.mp h).2.2⟩
  | submitPrice oracle c feedId signature ipfsCid =>
      rcases submitPrice_eq_ok.mp h with ⟨cfg, cid, -, hactive, -, -, ⟨rfl, -⟩, hs⟩
      exact .inr (.inr (.inl ⟨oracle, c, feedId, signature, ipfsCid, rfl, hactive, hs⟩))
  | setChallengeWindow admin duration =>
      rcases setChallengeWindow_eq_ok.mp h with ⟨cfg, -, -, -, hs⟩
      exact .inl ⟨_, rfl, hs⟩
  | commitPrice oracle feedId commitmentHash =>
      rcases commitPrice_eq_ok.mp h with ⟨-, -, hfree, hs⟩
      exact .inr (.inr (.inr (.inl ⟨oracle, feedId, commitmentHash, rfl, hfree, hs⟩)))
  | challengePrice challenger feedId alternativeOutputValue =>
      have hcall : challengePrice challenger feedId alternativeOutputValue env s = .ok ((), s') := h
      rcases challengePrice_eq_ok.mp hcall with ⟨cfg, commitment, expiry, -, -, -, -, hs⟩
      exact .inr (.inr (.inr (.inr (.inl ⟨challenger, feedId, alternativeOutputValue, commitment,
        rfl, hs⟩))))
  | revealPrice oracle feedId c salt signature ipfsCid =>
      rcases revealPrice_eq_ok.mp h with ⟨cfg, commitment, expiry, cid, haccepted, ⟨rfl, -⟩, hs⟩
      exact .inr (.inr (.inr (.inr (.inr (.inl ⟨oracle, feedId, c, salt, signature, ipfsCid, cfg,
        commitment, expiry, rfl, haccepted, hs⟩)))))
  | rotateKey admin newPubkey =>
      rcases rotateKey_eq_ok.mp h with ⟨cfg, -, -, -, hs⟩
      exact .inl ⟨_, rfl, hs⟩
  | submitAggregatedPrice oracle a signature =>
      rcases submitAggregatedPrice_eq_ok.mp h with ⟨cfg, cid, used, -, ⟨rfl, -⟩, hused, hs⟩
      exact .inr (.inr (.inr (.inr (.inr (.inr ⟨oracle, a, signature, used, rfl, hused, hs⟩)))))
  | heartbeat oracle timestampUtc =>
      rcases heartbeat_eq_ok.mp h with ⟨cfg, -, -, -, hs⟩
      exact .inl ⟨_, rfl, hs⟩
  | tripCircuitBreaker admin =>
      rcases adminSetCircuit_eq_ok.mp h with ⟨cfg, -, -, -, hs⟩
      refine .inr (.inl ⟨_, rfl, hs, ?_⟩)
      intro hstate
      cases hstate
  | adminPause admin =>
      rcases adminSetCircuit_eq_ok.mp h with ⟨cfg, -, -, -, hs⟩
      refine .inr (.inl ⟨_, rfl, hs, ?_⟩)
      intro hstate
      cases hstate
  | resetCircuitBreaker admin =>
      rcases adminSetCircuit_eq_ok.mp h with ⟨cfg, -, -, -, hs⟩
      exact .inr (.inl ⟨_, rfl, hs, fun _ => ⟨admin, rfl⟩⟩)

/-- The time that an operation reports as a heartbeat. -/
def Op.heartbeatTime : Op → Option I64
  | .heartbeat _ timestampUtc => some timestampUtc
  | _ => none

/-- Everything an operation can do to the configuration when it returns. -/
theorem config_cases {op : Op} (h : exec crypto op env s = .ok ((), s')) :
    (∃ admin oraclePubkey duration, op = .initializeContract admin oraclePubkey duration ∧
      s.config = none ∧ s' = s.withConfig ⟨admin, oraclePubkey, duration, 0⟩) ∨
    (∃ oracle timestampUtc cfg, op = .heartbeat oracle timestampUtc ∧ s.config = some cfg ∧
      s' = s.withConfig { cfg with lastHeartbeat := timestampUtc }) ∨
    (∃ duration cfg, op = .setChallengeWindow cfg.admin duration ∧ s.config = some cfg ∧
      env.authorized cfg.admin = true ∧
      s' = s.withConfig { cfg with challengeWindowDuration := duration }) ∨
    (∃ oraclePubkey cfg, op = .rotateKey cfg.admin oraclePubkey ∧ s.config = some cfg ∧
      env.authorized cfg.admin = true ∧
      s' = s.withConfig { cfg with oraclePubkey := oraclePubkey }) ∨
    (op.heartbeatTime = none ∧ s.config.isSome = true ∧ s'.config = s.config) := by
  cases op with
  | initializeContract admin oraclePubkey duration =>
      rcases initializeContract_eq_ok.mp h with ⟨hcfg, -, hs⟩
      exact .inl ⟨admin, oraclePubkey, duration, rfl, hcfg, hs⟩
  | heartbeat oracle timestampUtc =>
      rcases heartbeat_eq_ok.mp h with ⟨cfg, hcfg, -, -, hs⟩
      exact .inr (.inl ⟨oracle, timestampUtc, cfg, rfl, hcfg, hs⟩)
  | setChallengeWindow admin duration =>
      rcases setChallengeWindow_eq_ok.mp h with ⟨cfg, hcfg, hauth, rfl, hs⟩
      exact .inr (.inr (.inl ⟨duration, cfg, rfl, hcfg, hauth, hs⟩))
  | rotateKey admin newPubkey =>
      rcases rotateKey_eq_ok.mp h with ⟨cfg, hcfg, hauth, rfl, hs⟩
      exact .inr (.inr (.inr (.inl ⟨newPubkey, cfg, rfl, hcfg, hauth, hs⟩)))
  | submitPrice oracle c feedId signature ipfsCid =>
      rcases submitPrice_eq_ok.mp h with ⟨cfg, cid, hcfg, -, -, -, -, rfl⟩
      refine .inr (.inr (.inr (.inr ⟨rfl, ?_, ?_⟩)))
      · rw [hcfg]
        rfl
      · rcases s.afterDeviation_eq feedId c.outputValue with ⟨circuit, heq⟩
        rw [Store.withFeed_config, heq]
  | commitPrice oracle feedId commitmentHash =>
      rcases commitPrice_eq_ok.mp h with ⟨hcfg, -, -, rfl⟩
      exact .inr (.inr (.inr (.inr ⟨rfl, hcfg, rfl⟩)))
  | challengePrice challenger feedId alternativeOutputValue =>
      have hcall : challengePrice challenger feedId alternativeOutputValue env s = .ok ((), s') := h
      rcases challengePrice_eq_ok.mp hcall with ⟨cfg, commitment, expiry, hcfg, -, -, -, rfl⟩
      exact .inr (.inr (.inr (.inr ⟨rfl, by rw [hcfg]; rfl, rfl⟩)))
  | revealPrice oracle feedId c salt signature ipfsCid =>
      rcases revealPrice_eq_ok.mp h with ⟨cfg, commitment, expiry, cid, haccepted, -, rfl⟩
      exact .inr (.inr (.inr (.inr ⟨rfl, by rw [haccepted.config]; rfl, rfl⟩)))
  | submitAggregatedPrice oracle a signature =>
      rcases submitAggregatedPrice_eq_ok.mp h with ⟨cfg, cid, used, haccepted, -, -, rfl⟩
      exact .inr (.inr (.inr (.inr ⟨rfl, by rw [haccepted.config]; rfl, rfl⟩)))
  | tripCircuitBreaker admin =>
      rcases adminSetCircuit_eq_ok.mp h with ⟨cfg, hcfg, -, -, rfl⟩
      exact .inr (.inr (.inr (.inr ⟨rfl, by rw [hcfg]; rfl, rfl⟩)))
  | adminPause admin =>
      rcases adminSetCircuit_eq_ok.mp h with ⟨cfg, hcfg, -, -, rfl⟩
      exact .inr (.inr (.inr (.inr ⟨rfl, by rw [hcfg]; rfl, rfl⟩)))
  | resetCircuitBreaker admin =>
      rcases adminSetCircuit_eq_ok.mp h with ⟨cfg, hcfg, -, -, rfl⟩
      exact .inr (.inr (.inr (.inr ⟨rfl, by rw [hcfg]; rfl, rfl⟩)))

/-! ## What a payload determines -/

/-- The byte arrays of a computation and its salt have the length of a hash. -/
structure Sized (c : Computation) (feedId salt : BytesN) : Prop where
  scriptHash : c.scriptHash.toArray.length = 32
  inputParamsHash : c.inputParamsHash.toArray.length = 32
  feedId : feedId.toArray.length = 32
  salt : salt.toArray.length = 32

/-- A commitment payload determines the computation, the feed and the salt. -/
theorem buildCommitmentPayload_inj {c c' : Computation} {feedId feedId' salt salt' : BytesN}
    (hsized : Sized c feedId salt) (hsized' : Sized c' feedId' salt')
    (h : buildCommitmentPayload c feedId salt = buildCommitmentPayload c' feedId' salt') :
    c = c' ∧ feedId = feedId' ∧ salt = salt' := by
  unfold buildCommitmentPayload at h
  obtain ⟨h, hsalt⟩ := List.append_inj' h (hsized.salt.trans hsized'.salt.symm)
  obtain ⟨h, hfeed⟩ := List.append_inj' h (hsized.feedId.trans hsized'.feedId.symm)
  obtain ⟨h, htime⟩ := List.append_inj' h (by simp)
  obtain ⟨h, hvalue⟩ := List.append_inj' h (by simp)
  obtain ⟨hscript, hparams⟩ := List.append_inj' h
    (hsized.inputParamsHash.trans hsized'.inputParamsHash.symm)
  refine ⟨?_, congrArg BytesN.mk hfeed, congrArg BytesN.mk hsalt⟩
  rw [Computation.ext_iff]
  exact ⟨congrArg BytesN.mk hscript, congrArg BytesN.mk hparams, MInt.toBeBytes_injective hvalue,
    MInt.toBeBytes_injective htime⟩

end CarbonOracle
end Kraal
