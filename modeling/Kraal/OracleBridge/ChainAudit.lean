import Kraal.CarbonOracle.Freshness
import Kraal.Foundation.Simulation
import Kraal.OracleBridge.Bridge
import Kraal.OracleBridge.Pipeline

/-!
# Auditing the chain

The bridge, the contents that are pinned and the oracle contract as one machine.  A
submission attests a result, pins the record about it and hands the attestation over with
the content identifier.  Others call the contract and pin contents at any time.  Whatever
they do, a price that the bridge has put on chain can be audited later: its content
identifier leads to a record that verifies and signs the very fields of the price.

Main results:

- Definition {lit}`ContractClient.Submits`: what is assumed about the client of the contract.
- Theorem {lit}`contractCall_submit`: what a submission has prepared, pinned and sent.
- Definition {lit}`contractProjection`: the contract within the machine.
- Theorem {lit}`stored_prices_audited`: the audit of every price that is stored after a run.
-/

namespace Kraal
namespace OracleBridge

open Foundation
open CarbonOracle (Computation PriceEntry attestedPrice buildPayload)

variable {F : Type} {crypto : Crypto}

/-! ## The client of the contract -/

/-- What becomes of a call of the client: what its caller is told, and what it has sent to the
contract.  A client may raise after it has sent something. -/
structure Delivery where
  outcome : Except Failure String
  sent : Option CarbonOracle.Op

/-- A client of the contract.  What it does may depend on the ledger and on what is on chain. -/
structure ContractClient where
  submitPrice : Env → CarbonOracle.Store → SignedAttestation → Delivery
  submitPriceWithCid : Env → CarbonOracle.Store → SignedAttestation → String → Delivery

/-- What the bridge sees of a client. -/
def ContractClient.seenBy (client : ContractClient) (env : Env) (s : CarbonOracle.Store) :
    SubmissionClient where
  submitPrice attestation := (client.submitPrice env s attestation).outcome
  submitPriceWithCid attestation ipfsCid :=
    (client.submitPriceWithCid env s attestation ipfsCid).outcome

/-- What is sent to the contract with an identifier, or without it if the client does not know the
call.  A call that it does not know sends nothing. -/
def ContractClient.sentWithCid (client : ContractClient) (env : Env) (s : CarbonOracle.Store)
    (attestation : SignedAttestation) (ipfsCid : String) : Option CarbonOracle.Op :=
  match validateCid ipfsCid with
  | .error _ => none
  | .ok () =>
      match (client.submitPriceWithCid env s attestation ipfsCid).outcome with
      | .ok _ => (client.submitPriceWithCid env s attestation ipfsCid).sent
      | .error exc =>
          if exc.typeName = "AttributeError" then (client.submitPrice env s attestation).sent
          else (client.submitPriceWithCid env s attestation ipfsCid).sent

/-- The call of the contract with the fields of an attestation, its signature and the bytes of the
content identifier. -/
def submitCall (oracle : Address) (attestation : SignedAttestation) (ipfsCid : Option String) :
    CarbonOracle.Op :=
  .submitPrice oracle attestation.payload.computation ⟨attestation.payload.feedId⟩
    ⟨attestation.signature⟩ (ipfsCid.map utf8)

/-- A client knows the call with an identifier, and sends nothing but the attestation and the
identifier that it is given. -/
structure ContractClient.Submits (client : ContractClient) (oracle : Address) : Prop where
  known : ∀ env s attestation ipfsCid exc,
    (client.submitPriceWithCid env s attestation ipfsCid).outcome = .error exc →
      exc.typeName ≠ "AttributeError"
  sends : ∀ env s attestation ipfsCid op,
    (client.submitPriceWithCid env s attestation ipfsCid).sent = some op →
      op = submitCall oracle attestation (some ipfsCid)

/-- What such a client sends for the bridge. -/
theorem ContractClient.Submits.sentWithCid {client : ContractClient} {oracle : Address}
    (h : client.Submits oracle) {env : Env} {s : CarbonOracle.Store}
    {attestation : SignedAttestation} {ipfsCid : String} {op : CarbonOracle.Op}
    (hsent : client.sentWithCid env s attestation ipfsCid = some op) :
    op = submitCall oracle attestation (some ipfsCid) := by
  unfold ContractClient.sentWithCid at hsent
  split at hsent
  · cases hsent
  · split at hsent
    · exact h.sends _ _ _ _ _ hsent
    · next exc houtcome =>
        rw [if_neg (h.known _ _ _ _ exc houtcome)] at hsent
        exact h.sends _ _ _ _ _ hsent

/-! ## The machine -/

/-- An operator of the bridge. -/
structure Operator (crypto : Crypto) (F : Type) where
  signer : OracleSigner crypto
  platform : Platform F
  client : ContractClient
  oracle : Address

/-- The contract and the pinned contents. -/
structure World where
  contract : CarbonOracle.Store
  ipfs : SimulatedIPFSClient

/-- Nothing is stored and nothing is pinned. -/
def World.empty : World := ⟨CarbonOracle.Store.empty, ⟨Storage.empty⟩⟩

/-- The operator submits a result at a time of the day, or anybody pins contents or calls the
contract. -/
inductive Action (F : Type) where
  | submit (now : Int) (result : GEEResult (JsonDict F))
  | pin (content : Bytes)
  | call (op : CarbonOracle.Op)

variable (b : Operator crypto F)

/-- The operator runs the bridge on a result. -/
def attempt (w : World) (env : Env) (now : Int) (result : GEEResult (JsonDict F)) :
    Except RecordFailure (SignedAttestation × String × ProvenanceRecord F) × SimulatedIPFSClient :=
  process b.signer b.platform (b.client.seenBy env w.contract) now w.ipfs result

/-- The call that a step makes on the contract.  The bridge sends what it has prepared and pinned,
whatever it is told about it. -/
def contractCall (e : World × Invocation (Action F)) : Option CarbonOracle.Op :=
  match e.2.call with
  | .submit now result =>
      match prepare b.signer b.platform now result with
      | .ok (attestation, _, recordDict) =>
          b.client.sentWithCid e.2.env e.1.contract attestation
            (pinProvenanceRecord crypto b.platform.floats e.1.ipfs recordDict).1
      | .error _ => none
  | .pin _ => none
  | .call op => some op

/-- The contents that a step pins. -/
def pinnedBy (e : World × Invocation (Action F)) : Option Bytes :=
  match e.2.call with
  | .submit now result =>
      match prepare b.signer b.platform now result with
      | .ok (_, _, recordDict) => some (pinnedBytes b.platform recordDict)
      | .error _ => none
  | .pin content => some content
  | .call _ => none

/-- A step on the contract, if there is a call, and one on the pinned contents. -/
def worldStep (w : World) (i : Invocation (Action F)) : World where
  contract :=
    match contractCall b (w, i) with
    | some op => step (CarbonOracle.exec crypto) w.contract ⟨i.env, op⟩
    | none => w.contract
  ipfs :=
    match i.call with
    | .submit now result => (attempt b w i.env now result).2
    | .pin content => (w.ipfs.pin crypto content).2
    | .call _ => w.ipfs

variable {b}

/-- The call that a submission makes, and what it has prepared and pinned. -/
theorem contractCall_submit (hclient : b.client.Submits b.oracle) {w : World} {env : Env}
    {now : Int} {result : GEEResult (JsonDict F)} {op : CarbonOracle.Op}
    (h : contractCall b (w, ⟨env, .submit now result⟩) = some op) :
    ∃ attestation pinned recordDict,
      prepare b.signer b.platform now result = .ok (attestation, pinned, recordDict) ∧
      op = submitCall b.oracle attestation
        (some (simulatedCid crypto (pinnedBytes b.platform recordDict))) := by
  simp only [contractCall] at h
  split at h
  · next attestation pinned recordDict hprepare =>
      exact ⟨attestation, pinned, recordDict, hprepare, hclient.sentWithCid h⟩
  · cases h

/-- A submission pins the record that it has prepared, whatever becomes of it. -/
theorem attempt_ipfs (w : World) (env : Env) (now : Int) (result : GEEResult (JsonDict F)) :
    (attempt b w env now result).2 =
      match prepare b.signer b.platform now result with
      | .ok (_, _, recordDict) => (w.ipfs.pin crypto (pinnedBytes b.platform recordDict)).2
      | .error _ => w.ipfs := by
  unfold attempt process
  cases prepare b.signer b.platform now result with
  | error failure => rfl
  | ok p =>
      rcases p with ⟨attestation, provenance, recordDict⟩
      simp only [pinProvenanceRecord, pinnedBytes, SimulatedIPFSClient.pin]
      split <;> rfl

/-- What a step does to the pinned contents. -/
theorem worldStep_ipfs (w : World) (i : Invocation (Action F)) :
    (worldStep b w i).ipfs = match pinnedBy b (w, i) with
      | some content => (w.ipfs.pin crypto content).2
      | none => w.ipfs := by
  rcases i with ⟨env, call⟩
  cases call with
  | submit now result =>
      have hipfs : (worldStep b w ⟨env, .submit now result⟩).ipfs =
          (attempt b w env now result).2 := rfl
      rw [hipfs, attempt_ipfs]
      simp only [pinnedBy]
      split <;> rfl
  | pin content => rfl
  | call op => rfl

/-- What a step does to the contract is a step of that contract or none. -/
theorem worldStep_contract (b : Operator crypto F) (w : World) (i : Invocation (Action F)) :
    (worldStep b w i).contract = (((contractCall b (w, i)).map fun op =>
      (⟨i.env, op⟩ : Invocation CarbonOracle.Op)).map
        (step (CarbonOracle.exec crypto) w.contract)).getD w.contract := by
  rw [worldStep]
  cases contractCall b (w, i) with
  | some op => rfl
  | none => rfl

/-- The steps of the contract within the machine. -/
def contractProjection (b : Operator crypto F) :
    Run.Projection (worldStep b) (step (CarbonOracle.exec crypto)) where
  part := World.contract
  shown e := (contractCall b e).map fun op => ⟨e.2.env, op⟩
  part_step := worldStep_contract b

/-! ## Pinned contents stay -/

/-- Contents that a run pins have other identifiers than what is pinned already, or they are
the same. -/
def ContentsDistinct (b : Operator crypto F) (run : List (Invocation (Action F))) : Prop :=
  ∀ e ∈ Run.trace (worldStep b) World.empty run, ∀ content, pinnedBy b e = some content →
    NoCollision crypto e.1.ipfs [content]

/-- A step leaves what is pinned in place. -/
theorem worldStep_keeps {w : World} {i : Invocation (Action F)}
    (hdistinct : ∀ content, pinnedBy b (w, i) = some content → NoCollision crypto w.ipfs [content])
    {cid : String} {held : Bytes} (hheld : w.ipfs.store.get cid = some held) :
    (worldStep b w i).ipfs.store.get cid = some held := by
  rw [worldStep_ipfs]
  cases hpinned : pinnedBy b (w, i) with
  | none => exact hheld
  | some content =>
      have hget := get_pinAll hheld (hdistinct content hpinned)
      simp only [SimulatedIPFSClient.pinAll, List.foldl_cons, List.foldl_nil,
        SimulatedIPFSClient.get] at hget
      split at hget
      · next hstored =>
          rw [Except.ok.injEq] at hget
          rw [← hget]
          exact hstored
      · cases hget

/-! ## Audits -/

/-- The computation behind a price. -/
def entryComputation (entry : PriceEntry) : Computation :=
  ⟨entry.scriptHash, entry.inputParamsHash, entry.outputValue, entry.timestampUtc⟩

/-- The content identifier of a price leads to a record that verifies, and its signed payload
is that of the fields of the price. -/
def Audited (b : Operator crypto F) (ipfs : SimulatedIPFSClient) (feedId : BytesN)
    (entry : PriceEntry) : Prop :=
  ∃ cid pinned record, entry.ipfsCid = utf8 cid ∧ ipfs.get cid = .ok pinned ∧
    loadFromFile b.platform.floats (some pinned) = .ok (.record record) ∧
    cmdVerify b.platform crypto (.record record) true = .ok 0 ∧
    SignsOwnFields crypto b.platform.floats record ∧
    signedPayload record =
      some (buildPayload CarbonOracle.schemaVersion (entryComputation entry) feedId)

/-- A price has the fields of a result. -/
structure RecordsResult (crypto : Crypto) (floats : FloatFormat F)
    (result : GEEResult (JsonDict F)) (entry : PriceEntry) : Prop where
  outputValue : entry.outputValue.toInt = result.outputValue
  timestampUtc : entry.timestampUtc.toInt = result.timestampUtc
  scriptHash : entry.scriptHash = ⟨result.scriptHash crypto⟩
  inputParamsHash :
    entry.inputParamsHash = ⟨sha256 crypto (utf8 (dumps floats result.inputParams.value))⟩

/-- A step puts a price for a feed on chain. -/
def PutOnChain (b : Operator crypto F) (feedId : BytesN) (entry : PriceEntry)
    (e : World × Invocation (Action F)) : Prop :=
  ∃ op, contractCall b e = some op ∧
    attestedPrice crypto feedId (e.1.contract, ⟨e.2.env, op⟩) = some entry

/-- A step puts a price on chain exactly if what it shows of the contract does. -/
theorem putOnChain_iff {feedId : BytesN} {entry : PriceEntry}
    {e : World × Invocation (Action F)} :
    PutOnChain b feedId entry e ↔ ∃ x, (contractProjection b).entry e = some x ∧
      attestedPrice crypto feedId x = some entry := by
  simp only [PutOnChain, Run.Projection.entry, contractProjection, Option.map_map,
    Option.map_eq_some_iff]
  constructor
  · intro h
    rcases h with ⟨op, hop, hprice⟩
    exact ⟨_, ⟨op, hop, rfl⟩, hprice⟩
  · intro h
    rcases h with ⟨x, ⟨op, hop, rfl⟩, hprice⟩
    exact ⟨op, hop, hprice⟩

/-- Contents that a run has pinned are there at its end. -/
theorem pinned_stays {run : List (Invocation (Action F))} (hcontents : ContentsDistinct b run)
    {e : World × Invocation (Action F)} (he : e ∈ Run.trace (worldStep b) World.empty run)
    {content : Bytes} (hpinned : pinnedBy b e = some content) :
    (Run.final (worldStep b) World.empty run).ipfs.store.get (simulatedCid crypto content) =
      some content := by
  rcases Run.mem_trace_iff.mp he with ⟨pre, post, rfl, hstate⟩
  rw [Run.final_append, Run.final_cons, ← hstate]
  refine Run.final_invariant
    (I := fun w : World => w.ipfs.store.get (simulatedCid crypto content) = some content) ?_ ?_
  · rw [worldStep_ipfs, hpinned]
    exact Storage.get_set_self _ _ _
  · intro later hlater hheld
    refine worldStep_keeps (hcontents later ?_) hheld
    rw [Run.trace_append, Run.trace_cons, ← hstate]
    exact List.mem_append_right _ (List.mem_cons_of_mem _ hlater)

/-- The price that a submission puts on chain has the fields of the attestation. -/
theorem submitCall_price {oracle : Address} {attestation : SignedAttestation} {cid : String}
    {feedId : BytesN} {recordedAt : U32} {entry : PriceEntry}
    (h : (submitCall oracle attestation (some cid)).price feedId recordedAt = some entry) :
    feedId = ⟨attestation.payload.feedId⟩ ∧
      entry = attestation.payload.computation.entry recordedAt (utf8 cid) := by
  unfold submitCall CarbonOracle.Op.price at h
  simp only [Option.ite_none_right_eq_some, Option.some.injEq] at h
  exact ⟨h.1, h.2.symm⟩

theorem ipfsCid_entry (c : Computation) (recordedAt : U32) (cid : Bytes) :
    (c.entry recordedAt cid).ipfsCid = cid :=
  rfl

theorem entryComputation_entry (c : Computation) (recordedAt : U32) (cid : Bytes) :
    entryComputation (c.entry recordedAt cid) = c :=
  rfl

/-- What is attested is the result, and the record about it has the payload of the contract. -/
theorem attested_of_provenanceOf {signer : OracleSigner crypto} {platform : Platform F}
    {now : Int} {result : GEEResult (JsonDict F)} {attestation : SignedAttestation}
    {provenance : ProvenanceRecord F}
    (h : provenanceOf signer platform now result = .ok (attestation, provenance)) :
    Attests signer (result.scriptHash crypto)
        (sha256 crypto (utf8 (dumps platform.floats result.inputParams.value)))
        result.outputValue result.timestampUtc result.feedId attestation ∧
      provenance.attestationPayloadBytes = buildPayload CarbonOracle.schemaVersion
        attestation.payload.computation ⟨attestation.payload.feedId⟩ := by
  unfold provenanceOf at h
  simp only [exceptBind_eq_ok] at h
  rcases h with ⟨attested, hattest, text, -, payload, hpayload, hreturn⟩
  obtain ⟨rfl, rfl⟩ := Prod.mk.inj (Except.ok.inj hreturn)
  rcases attest_eq_ok hattest with ⟨paramsHash, hparams, hattests⟩
  have hhash : sha256 crypto (utf8 (dumps platform.floats result.inputParams.value)) =
      paramsHash := Except.ok.inj hparams
  rw [AttestationPayload.toBytes_eq hattests.schemaVersion, Except.ok.injEq] at hpayload
  rw [hhash, buildPayload_eq]
  exact ⟨hattests, hpayload.symm⟩

/-- A price of an attestation has the fields of the result that was attested. -/
theorem recordsResult_of_attests {signer : OracleSigner crypto} {floats : FloatFormat F}
    {result : GEEResult (JsonDict F)} {attestation : SignedAttestation}
    (h : Attests signer (result.scriptHash crypto)
      (sha256 crypto (utf8 (dumps floats result.inputParams.value))) result.outputValue
      result.timestampUtc result.feedId attestation) (recordedAt : U32) (cid : Bytes) :
    RecordsResult crypto floats result (attestation.payload.computation.entry recordedAt cid) where
  outputValue := h.outputValue
  timestampUtc := h.timestampUtc
  scriptHash := congrArg BytesN.mk h.scriptHash
  inputParamsHash := congrArg BytesN.mk h.inputParamsHash

/-- The record that a submission prepares is read back from where it was pinned. -/
theorem Prepared.audited (hfloats : b.platform.floats.Regular)
    (hschema : SchemaIgnoresOrder b.platform) {now : Int} {result : GEEResult (JsonDict F)}
    {attestation : SignedAttestation} {provenance : ProvenanceRecord F} {recordDict : JsonValue F}
    (h : Prepared b.signer b.platform now result attestation provenance recordDict)
    {ipfs : SimulatedIPFSClient}
    (hheld : ipfs.store.get (simulatedCid crypto (pinnedBytes b.platform recordDict)) =
      some (pinnedBytes b.platform recordDict)) (recordedAt : U32) :
    Audited b ipfs ⟨attestation.payload.feedId⟩ (attestation.payload.computation.entry recordedAt
      (utf8 (simulatedCid crypto (pinnedBytes b.platform recordDict)))) := by
  have hdistinct := keysDistinct_toDict h.written
  rcases holdsRecord_toDict h.written with ⟨gs, ip, comp, att, sub, given, hholds⟩
  have hsorted := hholds.sortKeys hdistinct
  have haccepts : SchemaAccepts b.platform recordDict.sortKeys := fun iterErrors hplatform =>
    hschema iterErrors hplatform recordDict hdistinct (h.accepted iterErrors hplatform)
  rcases (recordOf_provenanceOf h.attested).verifies hsorted haccepts with ⟨hverified, hsigns⟩
  refine ⟨simulatedCid crypto (pinnedBytes b.platform recordDict),
    pinnedBytes b.platform recordDict, recordDict.sortKeys, ?_, ?_, ?_, hverified, hsigns, ?_⟩
  · exact ipfsCid_entry _ _ _
  · rw [SimulatedIPFSClient.get, hheld]
  · rw [loadFromFile, pinnedBytes, decodeUtf8_utf8]
    simp only [loads_dumps hfloats hdistinct]
  · rw [entryComputation_entry, ← (attested_of_provenanceOf h.attested).2]
    exact hexAt_of_holds hsorted.attestation hsorted.payloadHex

/-- A price that a submission puts on chain can be audited wherever its record is. -/
theorem submission_audited (hclient : b.client.Submits b.oracle)
    (hfloats : b.platform.floats.Regular) (hschema : SchemaIgnoresOrder b.platform)
    {e : World × Invocation (Action F)} {feedId : BytesN} {entry : PriceEntry}
    (h : PutOnChain b feedId entry e) {now : Int} {result : GEEResult (JsonDict F)}
    (hcall : e.2.call = .submit now result) {ipfs : SimulatedIPFSClient}
    (hheld : ∀ content, pinnedBy b e = some content →
      ipfs.store.get (simulatedCid crypto content) = some content) :
    RecordsResult crypto b.platform.floats result entry ∧ Audited b ipfs feedId entry := by
  rcases e with ⟨w, ⟨env, call⟩⟩
  obtain rfl : call = .submit now result := hcall
  rcases h with ⟨op, hop, hprice⟩
  obtain ⟨attestation, pinned, recordDict, hprepare, rfl⟩ := contractCall_submit hclient hop
  have hprepared := prepare_eq_ok hprepare
  unfold attestedPrice at hprice
  split at hprice
  · rcases submitCall_price hprice with ⟨rfl, rfl⟩
    refine ⟨recordsResult_of_attests (attested_of_provenanceOf hprepared.attested).1 _ _, ?_⟩
    refine hprepared.audited hfloats hschema (hheld _ ?_) _
    simp only [pinnedBy, hprepare]
  · cases hprice

/-- Every price that a run has stored was put there by a step after which nobody has put another
one, and it can be audited with any pinned contents that have kept those of the run. -/
theorem stored_since (hclient : b.client.Submits b.oracle) (hfloats : b.platform.floats.Regular)
    (hschema : SchemaIgnoresOrder b.platform) {run : List (Invocation (Action F))}
    {ipfs : SimulatedIPFSClient} (hkept : ∀ e ∈ Run.trace (worldStep b) World.empty run,
      ∀ content, pinnedBy b e = some content →
        ipfs.store.get (simulatedCid crypto content) = some content)
    {feedId : BytesN} {entry : PriceEntry}
    (h : (Run.final (worldStep b) World.empty run).contract.feeds.get feedId = some entry) :
    Run.Since
      (fun e => PutOnChain b feedId entry e ∧ ∀ now result, e.2.call = .submit now result →
        RecordsResult crypto b.platform.floats result entry ∧ Audited b ipfs feedId entry)
      (fun e => ∃ later, PutOnChain b feedId later e)
      (Run.trace (worldStep b) World.empty run) := by
  have hpart := (contractProjection b).part_final World.empty run
  have hstored : (CarbonOracle.feedRegister crypto feedId).read (Run.final
      (step (CarbonOracle.exec crypto)) ((contractProjection b).part World.empty)
      ((contractProjection b).inputs World.empty run)) = some entry := by
    rw [← hpart]
    exact h
  have hread := (CarbonOracle.feedRegister crypto feedId).since_of_read
    (CarbonOracle.feedRegister_empty crypto feedId) hstored
  rcases (contractProjection b).since_inputs World.empty run hread with
    ⟨before, e, between, hpast, hput, hbetween⟩
  have he : e ∈ Run.trace (worldStep b) World.empty run := by
    rw [hpast]
    exact List.mem_append_right _ List.mem_cons_self
  have hon : PutOnChain b feedId entry e := putOnChain_iff.mpr hput
  refine ⟨before, e, between, hpast, ⟨hon, ?_⟩, ?_⟩
  · intro now result hcall
    exact submission_audited hclient hfloats hschema hon hcall (hkept e he)
  · intro x hx hlater
    rcases hlater with ⟨later, hlater⟩
    rcases putOnChain_iff.mp hlater with ⟨y, hy, hwritten⟩
    exact hbetween x hx ⟨y, hy, Option.isSome_of_eq_some hwritten⟩

/-- Every price that a run has stored was put there by a step after which nobody has put another
one.  If the bridge has submitted it, then it has the fields of the result, and it can be audited
with what is pinned at the end. -/
theorem stored_prices_audited (hclient : b.client.Submits b.oracle)
    (hfloats : b.platform.floats.Regular) (hschema : SchemaIgnoresOrder b.platform)
    {run : List (Invocation (Action F))} (hcontents : ContentsDistinct b run) {feedId : BytesN}
    {entry : PriceEntry}
    (h : (Run.final (worldStep b) World.empty run).contract.feeds.get feedId = some entry) :
    Run.Since
      (fun e => PutOnChain b feedId entry e ∧ ∀ now result, e.2.call = .submit now result →
        RecordsResult crypto b.platform.floats result entry ∧
          Audited b (Run.final (worldStep b) World.empty run).ipfs feedId entry)
      (fun e => ∃ later, PutOnChain b feedId later e)
      (Run.trace (worldStep b) World.empty run) :=
  stored_since hclient hfloats hschema (fun _ he _ => pinned_stays hcontents he) h

/-! ## Submissions that reach the chain -/

theorem utf8Size_of_mem_hexChars {bytes : Bytes} {c : Char} (h : c ∈ hexChars bytes) :
    c.utf8Size = 1 := by
  have hdigit : ∀ n < 16, (Nat.digitChar n).utf8Size = 1 := by decide
  rcases List.mem_flatMap.mp h with ⟨byte, -, hpair⟩
  have hbyte := byte.toNat_lt
  simp only [hexPair, List.mem_cons, List.not_mem_nil, or_false] at hpair
  rcases hpair with rfl | rfl
  · exact hdigit _ (by omega)
  · exact hdigit _ (by omega)

/-- A text whose characters take one byte each has as many bytes as characters. -/
theorem length_utf8_of_utf8Size {chars : List Char} (h : ∀ c ∈ chars, c.utf8Size = 1) :
    (utf8 (String.ofList chars)).length = chars.length := by
  induction chars with
  | nil => rfl
  | cons c chars ih =>
      have hfirst := h c List.mem_cons_self
      have hrest := ih fun c' hc' => h c' (List.mem_cons_of_mem _ hc')
      rw [utf8, String.toList_ofList] at hrest ⊢
      rw [List.flatMap_cons, List.length_append, hrest, String.length_utf8EncodeChar, hfirst,
        List.length_cons, Nat.add_comm]

/-- The contract has room for the identifiers of contents. -/
theorem length_utf8_simulatedCid (crypto : Crypto) (content : Bytes) :
    (utf8 (simulatedCid crypto content)).length ≤ CarbonOracle.maxCidLen := by
  have hsplit : simulatedCid crypto content = String.ofList ("bafkrei".toList ++
      (hexChars (sha256 crypto content)).take 39) := by
    rw [simulatedCid, firstCharacters, hex, String.toList_ofList, String.ofList_append,
      String.ofList_toList]
  have hascii : ∀ c ∈ (hexChars (sha256 crypto content)).take 39, c.utf8Size = 1 := by
    intro c hc
    exact utf8Size_of_mem_hexChars (List.mem_of_mem_take hc)
  have hlength := List.length_take_le 39 (hexChars (sha256 crypto content))
  have hhead : (utf8 (String.ofList "bafkrei".toList)).length = 7 := by decide +kernel
  rw [hsplit, utf8_ofList_append, List.length_append, hhead, length_utf8_of_utf8Size hascii]
  change _ ≤ 64
  omega

/-- The contract accepts the attestations of a signer whose key it has. -/
theorem submitCall_succeeds {signer : OracleSigner crypto} {script params : Bytes}
    {value time : Int} {feed : FeedId} {attestation : SignedAttestation}
    (h : Attests signer script params value time feed attestation) {s : CarbonOracle.Store}
    {cfg : CarbonOracle.Config} (hcfg : s.config = some cfg)
    (hkey : cfg.oraclePubkey = ⟨signer.publicKeyBytes⟩) (hactive : s.circuitState = .active)
    {env : Env} {oracle : Address} (hauth : env.authorized oracle = true) {cid : String}
    (hcid : (utf8 cid).length ≤ CarbonOracle.maxCidLen) :
    (CarbonOracle.exec crypto (submitCall oracle attestation (some cid))).Succeeds env s := by
  have hsigned : CarbonOracle.Attested crypto cfg attestation.payload.computation
      ⟨attestation.payload.feedId⟩ ⟨attestation.signature⟩ := by
    rw [CarbonOracle.Attested, hkey, buildPayload_eq, h.signature, h.scriptHash,
      h.inputParamsHash, h.outputValue, h.timestampUtc]
    exact signer.verifies _
  have haccepted : CarbonOracle.CidAccepted (some (utf8 cid)) (utf8 cid) := ⟨rfl, hcid⟩
  exact ⟨_, CarbonOracle.submitPrice_eq_ok.mpr
    ⟨cfg, utf8 cid, hcfg, hactive, hauth, hsigned, haccepted, rfl⟩⟩

/-- A submission makes the call that it has prepared if the client sends it. -/
theorem contractCall_of_prepare {w : World} {env : Env} {now : Int}
    {result : GEEResult (JsonDict F)} {attestation : SignedAttestation}
    {pinned : ProvenanceRecord F} {recordDict : JsonValue F}
    (hprepare : prepare b.signer b.platform now result = .ok (attestation, pinned, recordDict))
    (hclient : b.client.Submits b.oracle) (hsends : ∀ ipfsCid,
      ((b.client.submitPriceWithCid env w.contract attestation ipfsCid).sent).isSome = true) :
    contractCall b (w, ⟨env, .submit now result⟩) = some (submitCall b.oracle attestation
      (some (simulatedCid crypto (pinnedBytes b.platform recordDict)))) := by
  have hcall : contractCall b (w, ⟨env, .submit now result⟩) = b.client.sentWithCid env w.contract
      attestation (simulatedCid crypto (pinnedBytes b.platform recordDict)) := by
    simp only [contractCall, hprepare]
    rfl
  obtain ⟨op, hop⟩ := Option.isSome_iff_exists.mp
    (hsends (simulatedCid crypto (pinnedBytes b.platform recordDict)))
  rw [hcall, ContractClient.sentWithCid, validateCid_simulatedCid, ← hclient.sends _ _ _ _ _ hop]
  dsimp only
  split
  · exact hop
  · next exc houtcome => rw [if_neg (hclient.known _ _ _ _ exc houtcome), hop]

theorem submitCall_price_self (oracle : Address) (attestation : SignedAttestation) (cid : String)
    (recordedAt : U32) :
    (submitCall oracle attestation (some cid)).price ⟨attestation.payload.feedId⟩ recordedAt =
      some (attestation.payload.computation.entry recordedAt (utf8 cid)) :=
  if_pos rfl

/-- What is prepared reaches the chain if the contract has the key of the signer, the circuit is
closed and the oracle signs the call. -/
theorem submission_accepted {w : World} {env : Env} {now : Int} {result : GEEResult (JsonDict F)}
    {attestation : SignedAttestation} {pinned : ProvenanceRecord F} {recordDict : JsonValue F}
    (hprepare : prepare b.signer b.platform now result = .ok (attestation, pinned, recordDict))
    {cfg : CarbonOracle.Config} (hcfg : w.contract.config = some cfg)
    (hkey : cfg.oraclePubkey = ⟨b.signer.publicKeyBytes⟩)
    (hactive : w.contract.circuitState = .active) (hauth : env.authorized b.oracle = true)
    (hclient : b.client.Submits b.oracle) (hsends : ∀ ipfsCid,
      ((b.client.submitPriceWithCid env w.contract attestation ipfsCid).sent).isSome = true) :
    ∃ entry, PutOnChain b ⟨attestation.payload.feedId⟩ entry (w, ⟨env, .submit now result⟩) := by
  have hattests := (attested_of_provenanceOf (prepare_eq_ok hprepare).attested).1
  have hok := submitCall_succeeds hattests hcfg hkey hactive hauth
    (length_utf8_simulatedCid crypto (pinnedBytes b.platform recordDict))
  have hreturns : CarbonOracle.Returns crypto (w.contract, ⟨env, submitCall b.oracle attestation
      (some (simulatedCid crypto (pinnedBytes b.platform recordDict)))⟩) := hok
  refine ⟨attestation.payload.computation.entry env.sequence
    (utf8 (simulatedCid crypto (pinnedBytes b.platform recordDict))), _,
    contractCall_of_prepare hprepare hclient hsends, ?_⟩
  rw [attestedPrice, if_pos hreturns]
  exact submitCall_price_self b.oracle attestation _ env.sequence

/-- What a step puts on chain is stored. -/
theorem PutOnChain.stored {feedId : BytesN} {entry : PriceEntry} {w : World}
    {i : Invocation (Action F)} (h : PutOnChain b feedId entry (w, i)) :
    (worldStep b w i).contract.feeds.get feedId = some entry := by
  rcases h with ⟨op, hop, hprice⟩
  have hshown : (contractProjection b).shown (w, i) = some ⟨i.env, op⟩ := by
    simp only [contractProjection, hop, Option.map_some]
  have hpart := (contractProjection b).part_of_shown hshown
  change (worldStep b w i).contract = _ at hpart
  have hfeed := CarbonOracle.step_feed crypto feedId w.contract ⟨i.env, op⟩
  rw [hprice, Option.some_or] at hfeed
  rw [hpart]
  exact hfeed

/-- A client sends a call, and tells its caller whether the contract has accepted it. -/
def deliver (call : CarbonOracle.Op) (env : Env) (s : CarbonOracle.Store) : Delivery where
  outcome :=
    match CarbonOracle.exec sampleCrypto call env s with
    | .ok _ => .ok "tx_1"
    | .error _ => .error ⟨"HostError", "rejected"⟩
  sent := some call

/-- A client that submits for an oracle and whose submissions land. -/
def deliveringClient (oracle : Address) : ContractClient where
  submitPrice env s attestation := deliver (submitCall oracle attestation none) env s
  submitPriceWithCid env s attestation ipfsCid :=
    deliver (submitCall oracle attestation (some ipfsCid)) env s

theorem deliveringClient_submits (oracle : Address) : (deliveringClient oracle).Submits oracle where
  known := by
    intro env s attestation ipfsCid exc houtcome
    simp only [deliveringClient, deliver] at houtcome
    split at houtcome
    · cases houtcome
    · rw [← Except.error.inj houtcome]
      decide
  sends _ _ _ _ _ hsent := (Option.some.inj hsent).symm

/-- An operator whose transactions are all called alike. -/
def sampleOperator : Operator sampleCrypto Unit where
  signer := sampleSigner
  platform := samplePlatform
  client := deliveringClient ⟨2⟩
  oracle := ⟨2⟩

/-- The administrator sets the contract up with the key of the operator. -/
def sampleSetup : Invocation (Action Unit) :=
  ⟨.signedBy 10 [⟨1⟩], .call (.initializeContract ⟨1⟩ ⟨List.replicate 32 7⟩ 5)⟩

/-- The contract is set up, and a result is submitted to it. -/
def sampleAudit : List (Invocation (Action Unit)) :=
  [sampleSetup, ⟨.signedBy 20 [⟨2⟩], .submit 1700000000 sampleSubmission⟩]

theorem sampleAudit_contents : ContentsDistinct sampleOperator sampleAudit := by
  intro e he content hpinned content' hcontent' held hheld
  simp only [sampleAudit, Run.trace_cons, Run.trace_nil, List.mem_cons, List.not_mem_nil,
    or_false] at he
  -- nothing is pinned before the submission
  rcases he with rfl | rfl
  · cases hheld
  · cases hheld

theorem sampleAudit_stored : ∃ feedId entry,
    (Run.final (worldStep sampleOperator) World.empty sampleAudit).contract.feeds.get feedId =
      some entry := by
  rcases sampleSubmission_processable.prepare sampleCrypto_digests sampleSigner with
    ⟨attestation, pinned, recordDict, hprepare⟩
  have hauth : (Env.signedBy 20 [⟨2⟩]).authorized sampleOperator.oracle = true := rfl
  have haccepted := submission_accepted (b := sampleOperator)
    (w := worldStep sampleOperator World.empty sampleSetup) hprepare rfl rfl rfl hauth
    (deliveringClient_submits ⟨2⟩) fun _ => rfl
  rcases haccepted with ⟨entry, hput⟩
  refine ⟨⟨attestation.payload.feedId⟩, entry, ?_⟩
  rw [sampleAudit, Run.final_cons, Run.final_cons, Run.final_nil]
  exact hput.stored

theorem sampleAudit_audited : ∃ feedId entry,
    Run.Since
      (fun e => PutOnChain sampleOperator feedId entry e ∧
        ∀ now result, e.2.call = .submit now result →
          RecordsResult sampleCrypto samplePlatform.floats result entry ∧
            Audited sampleOperator
              (Run.final (worldStep sampleOperator) World.empty sampleAudit).ipfs feedId entry)
      (fun e => ∃ later, PutOnChain sampleOperator feedId later e)
      (Run.trace (worldStep sampleOperator) World.empty sampleAudit) := by
  rcases sampleAudit_stored with ⟨feedId, entry, hstored⟩
  have haudited := stored_prices_audited (b := sampleOperator) (deliveringClient_submits ⟨2⟩)
    samplePlatform_regular samplePlatform_ignoresOrder sampleAudit_contents hstored
  exact ⟨feedId, entry, haudited⟩

end OracleBridge
end Kraal
