import Kraal.CarbonOracle.CommitReveal
import Kraal.OracleBridge.Attestation

/-!
# Commit and reveal from the bridge

The bridge commits to a result by the hash of its fields and of a salt, and reveals it later with an
attestation and the salt.  The contract rebuilds both payloads from the arguments of the reveal.

Main results:

- Definitions {lit}`commit` and {lit}`reveal`: what the bridge submits.
- Theorem {lit}`payloads_agree`: the payload of the attestation is that of the contract.
- Theorem {lit}`commitmentHash_of_attests`: the hash that is committed to is the one that is
  recomputed.
- Theorem {lit}`interoperates`: an unchallenged commit can be revealed after its window.
-/

namespace Kraal
namespace OracleBridge

open Foundation
open CarbonOracle (Op Computation PriceEntry Store buildPayload buildCommitmentPayload exec)

/-! ## Results -/

/-- The output of one run of a script, with its parameters. -/
structure GEEResult (α : Type) where
  scriptSource : String
  inputParams : α
  outputValue : Int
  feedId : FeedId
  timestampUtc : Int
  scriptAssetPath : String := "users/oracle/scripts/carbon_sequestration"
  scriptVersionTag : String := "untagged"

/-- The digest of the script of a result. -/
def GEEResult.scriptHash (crypto : Crypto) {α : Type} (result : GEEResult α) : Bytes :=
  sha256 crypto (utf8 result.scriptSource)

/-! ## The bridge -/

section Bridge

variable {crypto : Crypto} {α : Type} (dumps : α → Except Failure String)

/-- The hash that a result is committed to with a salt. -/
def commitmentHash (crypto : Crypto) (result : GEEResult α) (salt : Bytes) :
    Except Failure Bytes := do
  let feedId ← padFeedId result.feedId
  let inputParamsHash ← canonicalParamsHash crypto dumps result.inputParams
  let outputValue ← toBytes result.outputValue
  let timestampUtc ← toBytes result.timestampUtc
  let payload := [] ++ result.scriptHash crypto ++ inputParamsHash ++ outputValue ++
    timestampUtc ++ feedId ++ salt
  return sha256 crypto payload

/-- Commit to a result: the identifier and the hash that the client is given. -/
def commit (crypto : Crypto) (result : GEEResult α) (salt : Bytes) :
    Except Failure (FeedId × Bytes) := do
  let hash ← commitmentHash dumps crypto result salt
  return (result.feedId, hash)

/-- Reveal a result: the attestation and the salt that the client is given. -/
def reveal (signer : OracleSigner crypto) (result : GEEResult α) (salt : Bytes) :
    Except Failure (SignedAttestation × Bytes) := do
  let attestation ← signer.attest dumps (result.scriptHash crypto) (.dict result.inputParams)
    result.outputValue result.timestampUtc result.feedId
  return (attestation, salt)

end Bridge

/-! ## The client -/

/-- An integer that fits is not too small. -/
theorem fitsI64_lo {x : Int} (h : FitsI64 x) : IntType.i64.lo ≤ x :=
  h.1

/-- An integer that fits is not too large. -/
theorem fitsI64_hi {x : Int} (h : FitsI64 x) : x ≤ IntType.i64.hi :=
  Int.le_sub_one_of_lt h.2

/-- The computation of a payload, in the types of the contract. -/
def AttestationPayload.computation (payload : AttestationPayload) : Computation where
  scriptHash := ⟨payload.scriptHash⟩
  inputParamsHash := ⟨payload.inputParamsHash⟩
  outputValue := ⟨payload.outputValue, fitsI64_lo payload.outputValue_fits,
    fitsI64_hi payload.outputValue_fits⟩
  timestampUtc := ⟨payload.timestampUtc, fitsI64_lo payload.timestampUtc_fits,
    fitsI64_hi payload.timestampUtc_fits⟩

/-- The client passes a commitment on, with the identifier filled up. -/
def commitCall (oracle : Address) (submitted : FeedId × Bytes) : Except Failure Op := do
  let feedId ← padFeedId submitted.1
  return .commitPrice oracle ⟨feedId⟩ ⟨submitted.2⟩

/-- The client passes the fields of an attestation on, with its signature and the salt. -/
def revealCall (oracle : Address) (submitted : SignedAttestation × Bytes) : Op :=
  .revealPrice oracle ⟨submitted.1.payload.feedId⟩ submitted.1.payload.computation
    ⟨submitted.2⟩ ⟨submitted.1.signature⟩ none

/-! ## Payloads -/

/-- The bytes of an integer of the contract are those that are packed. -/
theorem toBeBytes_i64 (a : I64) : a.toBeBytes = signedBytes 8 a.toInt :=
  rfl

/-- The payload of the contract has the bytes of the packed fields. -/
theorem buildPayload_eq (payload : AttestationPayload) :
    buildPayload CarbonOracle.schemaVersion payload.computation ⟨payload.feedId⟩ =
      payloadBytes payload.scriptHash payload.inputParamsHash payload.outputValue
        payload.timestampUtc payload.feedId := by
  simp only [buildPayload, payloadBytes, AttestationPayload.computation, toBeBytes_i64,
    CarbonOracle.schemaVersion, List.append_assoc, List.append_nil]

/-- The three encoders of a payload give the same 113 bytes for the same fields. -/
theorem payloads_agree {payload : AttestationPayload} (hversion : payload.schemaVersion = 1) :
    ∃ bytes, bytes.length = 113 ∧ payload.toBytes = .ok bytes ∧
      buildCanonicalPayload payload.schemaVersion payload.scriptHash payload.inputParamsHash
        payload.outputValue payload.timestampUtc payload.feedId = .ok bytes ∧
      buildPayload CarbonOracle.schemaVersion payload.computation ⟨payload.feedId⟩ = bytes := by
  refine ⟨_, ?_, AttestationPayload.toBytes_eq hversion, ?_, buildPayload_eq payload⟩
  · exact length_payloadBytes payload.scriptHash_length payload.inputParamsHash_length
      payload.feedId_length payload.outputValue payload.timestampUtc
  · rw [hversion]
    exact buildCanonicalPayload_eq payload.scriptHash_length payload.inputParamsHash_length
      payload.feedId_length payload.outputValue_fits payload.timestampUtc_fits

/-! ## Commitments -/

/-- A result that can be submitted: its parameters have a canonical text, its integers fit, and its
identifier is not too long. -/
structure Submittable {α : Type} (dumps : α → Except Failure String) (result : GEEResult α) :
    Prop where
  inputParams : ∃ text, dumps result.inputParams = .ok text
  outputValue : FitsI64 result.outputValue
  timestampUtc : FitsI64 result.timestampUtc
  feedId : result.feedId.bytes.length ≤ 32

section Commitments

variable {crypto : Crypto} {α : Type} {dumps : α → Except Failure String}
  {result : GEEResult α} {paramsHash : Bytes}

/-- The parameters of a result have a digest. -/
theorem Submittable.canonicalParamsHash (h : Submittable dumps result) (crypto : Crypto) :
    ∃ text, canonicalParamsHash crypto dumps result.inputParams =
      .ok (sha256 crypto (utf8 text)) := by
  obtain ⟨text, htext⟩ := h.inputParams
  refine ⟨text, ?_⟩
  rw [OracleBridge.canonicalParamsHash, htext]
  rfl

/-- The bridge attests a result that can be submitted. -/
theorem Submittable.reveal (h : Submittable dumps result) (hdigests : Digests crypto)
    (signer : OracleSigner crypto) (salt : Bytes) :
    ∃ attestation, OracleBridge.reveal dumps signer result salt = .ok (attestation, salt) := by
  obtain ⟨text, hparams⟩ := h.canonicalParamsHash crypto
  obtain ⟨attestation, hattest⟩ := attest_of_fits signer (hdigests (utf8 result.scriptSource))
    hparams (hdigests (utf8 text)) h.outputValue h.timestampUtc h.feedId
  refine ⟨attestation, ?_⟩
  unfold OracleBridge.reveal
  simp only [exceptBind_eq_ok]
  exact ⟨attestation, hattest, rfl⟩

/-- What the bridge reveals is an attestation of the result. -/
theorem reveal_eq_ok {signer : OracleSigner crypto} {salt : Bytes}
    {revealed : SignedAttestation × Bytes} (h : reveal dumps signer result salt = .ok revealed) :
    revealed.2 = salt ∧ ∃ paramsHash,
      canonicalParamsHash crypto dumps result.inputParams = .ok paramsHash ∧
      Attests signer (result.scriptHash crypto) paramsHash result.outputValue result.timestampUtc
        result.feedId revealed.1 := by
  unfold reveal at h
  simp only [exceptBind_eq_ok] at h
  rcases h with ⟨attestation, hattest, hrevealed⟩
  rw [← Except.ok.inj hrevealed]
  exact ⟨rfl, attest_eq_ok hattest⟩

/-- The hash that the contract recomputes from an attestation and a salt. -/
def recomputedHash (crypto : Crypto) (attestation : SignedAttestation) (salt : Bytes) : BytesN :=
  crypto.sha256 (buildCommitmentPayload attestation.payload.computation
    ⟨attestation.payload.feedId⟩ ⟨salt⟩)

/-- The hash of a commitment is the one that the contract recomputes. -/
theorem commitmentHash_of_attests {signer : OracleSigner crypto} {attestation : SignedAttestation}
    (hparams : canonicalParamsHash crypto dumps result.inputParams = .ok paramsHash)
    (h : Attests signer (result.scriptHash crypto) paramsHash result.outputValue
      result.timestampUtc result.feedId attestation) (salt : Bytes) :
    commitmentHash dumps crypto result salt =
      .ok (recomputedHash crypto attestation salt).toArray := by
  have hvalue := attestation.payload.outputValue_fits
  have htime := attestation.payload.timestampUtc_fits
  have hbytes : buildCommitmentPayload attestation.payload.computation
      ⟨attestation.payload.feedId⟩ ⟨salt⟩ =
      [] ++ result.scriptHash crypto ++ paramsHash ++ signedBytes 8 result.outputValue ++
        signedBytes 8 result.timestampUtc ++ attestation.payload.feedId ++ salt := by
    rw [← h.scriptHash, ← h.inputParamsHash, ← h.outputValue, ← h.timestampUtc]
    rfl
  rw [h.outputValue] at hvalue
  rw [h.timestampUtc] at htime
  unfold commitmentHash recomputedHash
  simp only [exceptBind_eq_ok]
  refine ⟨_, h.feedId, paramsHash, hparams, _, toBytes_of_fits hvalue, _, toBytes_of_fits htime, ?_⟩
  rw [hbytes]
  rfl

/-- An attested result is committed to. -/
theorem commit_of_attests {signer : OracleSigner crypto} {attestation : SignedAttestation}
    (hparams : canonicalParamsHash crypto dumps result.inputParams = .ok paramsHash)
    (h : Attests signer (result.scriptHash crypto) paramsHash result.outputValue
      result.timestampUtc result.feedId attestation) (salt : Bytes) :
    commit dumps crypto result salt =
      .ok (result.feedId, (recomputedHash crypto attestation salt).toArray) := by
  unfold commit
  simp only [exceptBind_eq_ok]
  exact ⟨_, commitmentHash_of_attests hparams h salt, rfl⟩

end Commitments

/-! ## Acceptance -/

/-- A commit was accepted, and nobody has answered it since.  Its window is over, and the key of the
signer is registered. -/
structure RevealDue {crypto : Crypto} (signer : OracleSigner crypto) (feedId : BytesN) (s : Store)
    (committed : Invocation Op) (between : List (Invocation Op)) (env : Env) : Prop where
  accepted : (exec crypto committed.call).Succeeds committed.env s
  unanswered : ∀ e ∈ Run.trace (step (exec crypto)) (step (exec crypto) s committed) between,
    ¬ CarbonOracle.Challenges crypto e feedId ∧
      ∀ c salt, ¬ CarbonOracle.Reveals crypto e feedId c salt
  registered : ∃ cfg,
    (Run.final (step (exec crypto)) s (committed :: between)).config = some cfg ∧
      cfg.oraclePubkey = ⟨signer.publicKeyBytes⟩ ∧
      committed.env.sequence.toInt + cfg.challengeWindowDuration.toInt ≤ env.sequence.toInt

/-- A price entry has exactly the fields of a result. -/
structure EntryOf (crypto : Crypto) {α : Type} (dumps : α → Except Failure String)
    (result : GEEResult α) (recordedAt : U32) (entry : PriceEntry) : Prop where
  outputValue : entry.outputValue.toInt = result.outputValue
  timestampUtc : entry.timestampUtc.toInt = result.timestampUtc
  scriptHash : entry.scriptHash = ⟨result.scriptHash crypto⟩
  inputParamsHash :
    canonicalParamsHash crypto dumps result.inputParams = .ok entry.inputParamsHash.toArray
  recordedAt : entry.recordedAt = recordedAt
  ipfsCid : entry.ipfsCid = []

/-- What the bridge and the contract agree on about a result and a salt. -/
structure Interoperates {crypto : Crypto} {α : Type} (dumps : α → Except Failure String)
    (signer : OracleSigner crypto) (result : GEEResult α) (salt : Bytes) : Prop where
  /-- The three encoders give the same 113 bytes for the same fields. -/
  payloads : ∀ payload : AttestationPayload, payload.schemaVersion = 1 →
    ∃ bytes, bytes.length = 113 ∧ payload.toBytes = .ok bytes ∧
      buildCanonicalPayload payload.schemaVersion payload.scriptHash payload.inputParamsHash
        payload.outputValue payload.timestampUtc payload.feedId = .ok bytes ∧
      buildPayload CarbonOracle.schemaVersion payload.computation ⟨payload.feedId⟩ = bytes
  /-- The hash that is committed to is recomputed from what is revealed. -/
  commitments : ∃ attestation hash,
    commit dumps crypto result salt = .ok (result.feedId, hash) ∧
      reveal dumps signer result salt = .ok (attestation, salt) ∧
      recomputedHash crypto attestation salt = ⟨hash⟩
  /-- A reveal that is due is accepted, and stores the fields of the result. -/
  accepted : ∀ submitted revealed, commit dumps crypto result salt = .ok submitted →
    reveal dumps signer result salt = .ok revealed →
    ∀ oracle call, commitCall oracle submitted = .ok call → ∀ s env between env' oracle',
      RevealDue signer ⟨revealed.1.payload.feedId⟩ s ⟨env, call⟩ between env' →
      env'.authorized oracle' = true →
      ∃ t entry, exec crypto (revealCall oracle' revealed) env'
          (Run.final (step (exec crypto)) s (⟨env, call⟩ :: between)) = .ok ((), t) ∧
        t.feeds.get ⟨revealed.1.payload.feedId⟩ = some entry ∧
        EntryOf crypto dumps result env'.sequence entry

section Acceptance

variable {crypto : Crypto} {α : Type} {dumps : α → Except Failure String}
  {result : GEEResult α}

/-- The commitment that an accepted commit of the bridge stores. -/
theorem step_commitCall {oracle : Address} {hash : BytesN} {feedId : BytesN} {s : Store} {env : Env}
    (h : (exec crypto (.commitPrice oracle feedId hash)).Succeeds env s) :
    (step (exec crypto) s ⟨env, .commitPrice oracle feedId hash⟩).commitments.get feedId =
      some ⟨hash, env.sequence, .challengeWindow⟩ := by
  rcases h with ⟨⟨⟨⟩, s'⟩, hexec⟩
  have hstep : step (exec crypto) s ⟨env, .commitPrice oracle feedId hash⟩ = s' :=
    step_of_ok hexec
  rw [hstep, (CarbonOracle.commitPrice_eq_ok.mp hexec).2.2.2]
  exact Storage.get_set_self _ _ _

/-- A reveal that is due is accepted. -/
theorem revealCall_of_due {signer : OracleSigner crypto} {paramsHash salt : Bytes}
    {attestation : SignedAttestation}
    (hparams : canonicalParamsHash crypto dumps result.inputParams = .ok paramsHash)
    (h : Attests signer (result.scriptHash crypto) paramsHash result.outputValue
      result.timestampUtc result.feedId attestation)
    {oracle oracle' : Address} {s : Store} {env env' : Env} {between : List (Invocation Op)}
    (hdue : RevealDue signer ⟨attestation.payload.feedId⟩ s
      ⟨env, .commitPrice oracle ⟨attestation.payload.feedId⟩
        (recomputedHash crypto attestation salt)⟩ between env')
    (hauth : env'.authorized oracle' = true) :
    ∃ t entry, exec crypto (revealCall oracle' (attestation, salt)) env'
        (Run.final (step (exec crypto)) s (⟨env, .commitPrice oracle
          ⟨attestation.payload.feedId⟩ (recomputedHash crypto attestation salt)⟩ :: between)) =
          .ok ((), t) ∧
      t.feeds.get ⟨attestation.payload.feedId⟩ = some entry ∧
      EntryOf crypto dumps result env'.sequence entry := by
  obtain ⟨cfg, hcfg, hkey, hover⟩ := hdue.registered
  have hstored := CarbonOracle.commitment_stands (step_commitCall hdue.accepted) rfl
    hdue.unanswered
  rw [Run.final_cons] at hcfg ⊢
  generalize Run.final (step (exec crypto)) _ between = t at hcfg hstored ⊢
  -- the end of the window is at most the ledger of the reveal, so it fits
  have hlo : IntType.u32.lo ≤ env.sequence.toInt + cfg.challengeWindowDuration.toInt :=
    Int.add_nonneg env.sequence.lo_le cfg.challengeWindowDuration.lo_le
  let expiry : U32 := ⟨env.sequence.toInt + cfg.challengeWindowDuration.toInt, hlo,
    hover.trans env'.sequence.le_hi⟩
  have hsigned : CarbonOracle.Attested crypto cfg attestation.payload.computation
      ⟨attestation.payload.feedId⟩ ⟨attestation.signature⟩ := by
    rw [CarbonOracle.Attested, hkey, buildPayload_eq, h.signature, h.scriptHash,
      h.inputParamsHash, h.outputValue, h.timestampUtc]
    exact signer.verifies _
  have haccepted : CarbonOracle.RevealAccepted crypto oracle' ⟨attestation.payload.feedId⟩
      attestation.payload.computation ⟨salt⟩ ⟨attestation.signature⟩ env' t cfg
      ⟨recomputedHash crypto attestation salt, env.sequence, .challengeWindow⟩ expiry :=
    ⟨hcfg, hauth, ⟨hstored, rfl, rfl⟩, hover, rfl, hsigned⟩
  refine ⟨_, _, CarbonOracle.revealPrice_eq_ok.mpr ⟨cfg, _, expiry, [], haccepted,
    ⟨rfl, Nat.zero_le _⟩, rfl⟩, Storage.get_set_self _ _ _, ?_⟩
  constructor
  · exact h.outputValue
  · exact h.timestampUtc
  · exact congrArg BytesN.mk h.scriptHash
  · rw [hparams]
    exact congrArg Except.ok h.inputParamsHash.symm
  · rfl
  · rfl

end Acceptance

/-- The bridge and the contract agree about every result that can be submitted. -/
theorem interoperates {crypto : Crypto} {α : Type} {dumps : α → Except Failure String}
    (hdigests : Digests crypto) (signer : OracleSigner crypto) {result : GEEResult α}
    (h : Submittable dumps result) (salt : Bytes) : Interoperates dumps signer result salt := by
  constructor
  · intro payload hversion
    exact payloads_agree hversion
  · obtain ⟨attestation, hreveal⟩ := h.reveal hdigests signer salt
    obtain ⟨-, paramsHash, hparams, hattests⟩ := reveal_eq_ok hreveal
    exact ⟨attestation, _, commit_of_attests hparams hattests salt, hreveal, rfl⟩
  · intro submitted revealed hcommit hreveal oracle call hcall s env between env' oracle' hdue hauth
    obtain ⟨attestation, salt'⟩ := revealed
    obtain ⟨hsalt, paramsHash, hparams, hattests⟩ := reveal_eq_ok hreveal
    dsimp only at hsalt hattests
    subst hsalt
    rw [commit_of_attests hparams hattests salt', Except.ok.injEq] at hcommit
    rw [← hcommit] at hcall
    unfold commitCall at hcall
    simp only [exceptBind_eq_ok] at hcall
    obtain ⟨feedId, hfeed, hcall⟩ := hcall
    rw [hattests.feedId, Except.ok.injEq] at hfeed
    rw [← Except.ok.inj hcall, ← hfeed] at hdue ⊢
    exact revealCall_of_due hparams hattests hdue hauth

/-! ## An example -/

/-- The first bytes of a message as its hash, and those of key and message as its signature. -/
def sampleCrypto : Crypto where
  sha256 data := ⟨ljust 32 (data.take 32)⟩
  ed25519Verify publicKey message signature :=
    decide (signature = ⟨ljust 64 ((publicKey.toArray ++ message).take 64)⟩)

/-- The sample hash gives thirty-two bytes. -/
theorem sampleCrypto_digests : Digests sampleCrypto :=
  fun data => length_ljust (List.length_take_le 32 data)

/-- A sample signature has its length. -/
theorem length_sampleSignature (message : Bytes) :
    (ljust 64 ((List.replicate 32 7 ++ message).take 64)).length = 64 :=
  length_ljust (List.length_take_le 64 _)

/-- A sample signature is good. -/
theorem sampleSignature_verifies (message : Bytes) :
    sampleCrypto.ed25519Verify ⟨List.replicate 32 7⟩ message
      ⟨ljust 64 ((List.replicate 32 7 ++ message).take 64)⟩ = true :=
  decide_eq_true rfl

/-- A signer under that scheme. -/
def sampleSigner : OracleSigner sampleCrypto where
  publicKeyBytes := List.replicate 32 7
  signMessage message := ljust 64 ((List.replicate 32 7 ++ message).take 64)
  publicKeyBytes_length := List.length_replicate
  signMessage_length := length_sampleSignature
  verifies := sampleSignature_verifies

/-- A loss of carbon under a short identifier, without parameters. -/
def sampleResult : GEEResult Unit where
  scriptSource := "return -5;"
  inputParams := ()
  outputValue := -5
  feedId := .text "CBL-EUA"
  timestampUtc := 1700000000

/-- The canonical text of no parameters. -/
def noParams (_ : Unit) : Except Failure String :=
  .ok "\x7b\x7d"

/-- The sample result can be submitted. -/
theorem sampleResult_submittable : Submittable noParams sampleResult :=
  ⟨⟨"\x7b\x7d", rfl⟩, by decide, by decide, by decide +kernel⟩

theorem sampleResult_interoperates :
    Interoperates noParams sampleSigner sampleResult (List.replicate 32 9) :=
  interoperates sampleCrypto_digests sampleSigner sampleResult_submittable _

end OracleBridge
end Kraal
