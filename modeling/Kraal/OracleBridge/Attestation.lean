import Kraal.OracleBridge.Runtime

/-!
# Attestations

The canonical payload of a computation, and its signature.  The payload has 113 bytes: the version
of the schema, the hashes of the script and of its parameters, the value and the time, and the
identifier of the feed.

Main results:

- Definitions {lit}`AttestationPayload.toBytes` and {lit}`buildCanonicalPayload`: the payload, as it
  is signed and as it is rebuilt from a record.
- Theorems {lit}`AttestationPayload.toBytes_eq` and {lit}`buildCanonicalPayload_eq`: their bytes.
- Theorem {lit}`attest_eq_ok`: what an attestation of the signer says.
-/

namespace Kraal
namespace OracleBridge

open Foundation

/-! ## Constants -/

/-- The version of the payload that is signed. -/
def schemaVersion : Int := 1

/-- The length of the payload that is signed. -/
def payloadLength : Nat := 113

/-! ## Helpers -/

section Helpers

variable (crypto : Crypto) {α : Type} (dumps : α → Except Failure String)

/-- The digest of some bytes. -/
def sha256 (data : Bytes) : Bytes :=
  (crypto.sha256 data).toArray

/-- The hash of the canonical text of parameters. -/
def canonicalParamsHash (params : α) : Except Failure Bytes := do
  let canonical ← dumps params
  return sha256 crypto (utf8 canonical)

end Helpers

/-- A hash has 32 bytes. -/
def Digests (crypto : Crypto) : Prop :=
  ∀ data, (sha256 crypto data).length = 32

/-- The identifier of a feed, as text or as bytes. -/
inductive FeedId where
  | text (s : String)
  | raw (bytes : Bytes)
deriving DecidableEq

/-- The bytes of the identifier, before they are filled up. -/
def FeedId.bytes : FeedId → Bytes
  | .text s => utf8 s
  | .raw bytes => bytes

/-- The identifier with zeros after it, up to 32 bytes. -/
def padFeedId (feedId : FeedId) : Except Failure Bytes :=
  if feedId.bytes.length > 32 then
    .error ⟨"ValueError", "feed_id exceeds 32 bytes: " ++ toString feedId.bytes.length ++
      " bytes given"⟩
  else .ok (ljust 32 feedId.bytes)

/-- A feed id that is short enough is filled up. -/
theorem padFeedId_eq_ok {feedId : FeedId} {padded : Bytes} :
    padFeedId feedId = .ok padded ↔
      feedId.bytes.length ≤ 32 ∧ padded = ljust 32 feedId.bytes := by
  unfold padFeedId
  split
  · rename_i hlong
    exact iff_of_false (fun h => by cases h) fun h => Nat.not_le.mpr hlong h.1
  · rename_i hshort
    rw [Except.ok.injEq, eq_comm]
    exact (and_iff_right (Nat.not_lt.mp hshort)).symm

/-! ## Payload -/

/-- The fields of a payload.  Hashes and identifier have their lengths, and the integers fit. -/
structure AttestationPayload where
  scriptHash : Bytes
  inputParamsHash : Bytes
  outputValue : Int
  timestampUtc : Int
  feedId : Bytes
  schemaVersion : Int
  scriptHash_length : scriptHash.length = 32
  inputParamsHash_length : inputParamsHash.length = 32
  feedId_length : feedId.length = 32
  outputValue_fits : FitsI64 outputValue
  timestampUtc_fits : FitsI64 timestampUtc

/-- Build a payload after its checks. -/
def attestationPayload (scriptHash inputParamsHash : Bytes) (outputValue timestampUtc : Int)
    (feedId : Bytes) : Except Failure AttestationPayload :=
  if hscript : scriptHash.length = 32 then
    if hparams : inputParamsHash.length = 32 then
      if hfeed : feedId.length = 32 then
        if hvalue : FitsI64 outputValue then
          if htime : FitsI64 timestampUtc then
            .ok ⟨scriptHash, inputParamsHash, outputValue, timestampUtc, feedId, schemaVersion,
              hscript, hparams, hfeed, hvalue, htime⟩
          else .error ⟨"ValueError", "timestamp_utc must fit in an i64"⟩
        else .error ⟨"ValueError", "output_value must fit in an i64"⟩
      else .error ⟨"ValueError", "feed_id must be exactly 32 bytes"⟩
    else .error ⟨"ValueError", "input_params_hash must be exactly 32 bytes"⟩
  else .error ⟨"ValueError", "script_hash must be exactly 32 bytes"⟩

/-- A payload has the fields that it was made of. -/
theorem attestationPayload_eq_ok {scriptHash inputParamsHash feedId : Bytes}
    {outputValue timestampUtc : Int} {payload : AttestationPayload}
    (h : attestationPayload scriptHash inputParamsHash outputValue timestampUtc feedId =
      .ok payload) :
    payload.scriptHash = scriptHash ∧ payload.inputParamsHash = inputParamsHash ∧
      payload.outputValue = outputValue ∧ payload.timestampUtc = timestampUtc ∧
      payload.feedId = feedId ∧ payload.schemaVersion = schemaVersion := by
  unfold attestationPayload at h
  split_ifs at h with hscript hparams hfeed hvalue htime
  rw [← Except.ok.inj h]
  exact ⟨rfl, rfl, rfl, rfl, rfl, rfl⟩

/-- Fields that fit make a payload. -/
theorem attestationPayload_of_fits {scriptHash inputParamsHash feedId : Bytes}
    {outputValue timestampUtc : Int} (hscript : scriptHash.length = 32)
    (hparams : inputParamsHash.length = 32) (hfeed : feedId.length = 32)
    (hvalue : FitsI64 outputValue) (htime : FitsI64 timestampUtc) :
    attestationPayload scriptHash inputParamsHash outputValue timestampUtc feedId =
      .ok ⟨scriptHash, inputParamsHash, outputValue, timestampUtc, feedId, schemaVersion,
        hscript, hparams, hfeed, hvalue, htime⟩ := by
  unfold attestationPayload
  rw [dif_pos hscript, dif_pos hparams, dif_pos hfeed, dif_pos hvalue, dif_pos htime]

/-- The bytes of a payload that a field of each kind makes up. -/
def payloadBytes (scriptHash inputParamsHash : Bytes) (outputValue timestampUtc : Int)
    (feedId : Bytes) : Bytes :=
  [1] ++ (scriptHash ++ (inputParamsHash ++ (signedBytes 8 outputValue ++
    (signedBytes 8 timestampUtc ++ (feedId ++ [])))))

/-- Fields that fit are packed. -/
theorem structPack_payload {scriptHash inputParamsHash feedId : Bytes}
    {outputValue timestampUtc : Int} (hscript : scriptHash.length = 32)
    (hparams : inputParamsHash.length = 32) (hfeed : feedId.length = 32)
    (hvalue : FitsI64 outputValue) (htime : FitsI64 timestampUtc) :
    structPack [.ubyte 1, .string 32 scriptHash, .string 32 inputParamsHash, .quad outputValue,
        .quad timestampUtc, .string 32 feedId] =
      .ok (payloadBytes scriptHash inputParamsHash outputValue timestampUtc feedId) := by
  apply structPack_cons rfl
  apply structPack_cons (PackedField.bytes_string hscript)
  apply structPack_cons (PackedField.bytes_string hparams)
  apply structPack_cons (PackedField.bytes_quad hvalue)
  apply structPack_cons (PackedField.bytes_quad htime)
  exact structPack_cons (PackedField.bytes_string hfeed) rfl

/-- The packed fields have the length of a payload. -/
theorem length_payloadBytes {scriptHash inputParamsHash feedId : Bytes}
    (hscript : scriptHash.length = 32) (hparams : inputParamsHash.length = 32)
    (hfeed : feedId.length = 32) (outputValue timestampUtc : Int) :
    (payloadBytes scriptHash inputParamsHash outputValue timestampUtc feedId).length =
      payloadLength := by
  simp only [payloadBytes, List.length_append, length_signedBytes, hscript, hparams, hfeed]
  rfl

/-- The payload, as it is signed. -/
def AttestationPayload.toBytes (payload : AttestationPayload) : Except Failure Bytes := do
  let packed ← structPack [.ubyte payload.schemaVersion, .string 32 payload.scriptHash,
    .string 32 payload.inputParamsHash, .quad payload.outputValue, .quad payload.timestampUtc,
    .string 32 payload.feedId]
  if packed.length = payloadLength then return packed
  else throw ⟨"AssertionError", "BUG: unexpected payload length"⟩

/-- The payload, as it is rebuilt from the fields of a record. -/
def buildCanonicalPayload (schemaVersion : Int) (scriptHashBytes inputParamsHashBytes : Bytes)
    (outputValue timestampUtc : Int) (feedIdBytes : Bytes) : Except Failure Bytes := do
  let buf ← structPack [.ubyte schemaVersion, .string 32 scriptHashBytes,
    .string 32 inputParamsHashBytes, .quad outputValue, .quad timestampUtc, .string 32 feedIdBytes]
  if buf.length = 113 then return buf
  else throw ⟨"AssertionError", ""⟩

/-- The bytes of a payload are its packed fields. -/
theorem AttestationPayload.toBytes_eq {payload : AttestationPayload}
    (hversion : payload.schemaVersion = 1) :
    payload.toBytes = .ok (payloadBytes payload.scriptHash payload.inputParamsHash
      payload.outputValue payload.timestampUtc payload.feedId) := by
  have hlength := length_payloadBytes payload.scriptHash_length payload.inputParamsHash_length
    payload.feedId_length payload.outputValue payload.timestampUtc
  rw [AttestationPayload.toBytes, hversion, structPack_payload payload.scriptHash_length
    payload.inputParamsHash_length payload.feedId_length payload.outputValue_fits
    payload.timestampUtc_fits]
  exact if_pos hlength

/-- The canonical payload is that of the packed fields. -/
theorem buildCanonicalPayload_eq {scriptHash inputParamsHash feedId : Bytes}
    {outputValue timestampUtc : Int} (hscript : scriptHash.length = 32)
    (hparams : inputParamsHash.length = 32) (hfeed : feedId.length = 32)
    (hvalue : FitsI64 outputValue) (htime : FitsI64 timestampUtc) :
    buildCanonicalPayload 1 scriptHash inputParamsHash outputValue timestampUtc feedId =
      .ok (payloadBytes scriptHash inputParamsHash outputValue timestampUtc feedId) := by
  have hlength := length_payloadBytes hscript hparams hfeed outputValue timestampUtc
  rw [buildCanonicalPayload, structPack_payload hscript hparams hfeed hvalue htime]
  exact if_pos hlength

/-! ## Signer -/

/-- A signing key with its public key.  What it signs is verified under its public key. -/
structure OracleSigner (crypto : Crypto) where
  publicKeyBytes : Bytes
  signMessage : Bytes → Bytes
  publicKeyBytes_length : publicKeyBytes.length = 32
  signMessage_length : ∀ message, (signMessage message).length = 64
  verifies : ∀ message,
    crypto.ed25519Verify ⟨publicKeyBytes⟩ message ⟨signMessage message⟩ = true

/-- A payload with its signature. -/
structure SignedAttestation where
  payload : AttestationPayload
  publicKey : Bytes
  signature : Bytes
  publicKey_length : publicKey.length = 32
  signature_length : signature.length = 64

/-- Put a payload and its signature together after their checks. -/
def signedAttestation (payload : AttestationPayload) (publicKey signature : Bytes) :
    Except Failure SignedAttestation :=
  if hkey : publicKey.length = 32 then
    if hsignature : signature.length = 64 then
      .ok ⟨payload, publicKey, signature, hkey, hsignature⟩
    else .error ⟨"ValueError", "signature must be 64 bytes"⟩
  else .error ⟨"ValueError", "public_key must be 32 bytes"⟩

/-- Parameters, or the hash of them. -/
inductive InputParams (α : Type) where
  | dict (params : α)
  | hash (bytes : Bytes)

section Signer

variable {crypto : Crypto} {α : Type} (dumps : α → Except Failure String)
  (signer : OracleSigner crypto)

/-- The signature of a payload. -/
def OracleSigner.sign (payload : AttestationPayload) : Except Failure Bytes := do
  let message ← payload.toBytes
  return signer.signMessage message

/-- The hash of parameters that are given as such, or the hash that is given. -/
def InputParams.paramsHash (crypto : Crypto) : InputParams α → Except Failure Bytes
  | .dict params => canonicalParamsHash crypto dumps params
  | .hash bytes => .ok bytes

/-- Build the payload of a computation and sign it. -/
def OracleSigner.attest (scriptHash : Bytes) (inputParams : InputParams α)
    (outputValue timestampUtc : Int) (feedId : FeedId) : Except Failure SignedAttestation := do
  let paramsHash ← inputParams.paramsHash dumps crypto
  let feedId ← padFeedId feedId
  let payload ← attestationPayload scriptHash paramsHash outputValue timestampUtc feedId
  let signature ← signer.sign payload
  signedAttestation payload signer.publicKeyBytes signature

end Signer

/-! ## What an attestation says -/

/-- An attestation of a signer about a computation with these fields. -/
structure Attests {crypto : Crypto} (signer : OracleSigner crypto) (script params : Bytes)
    (value time : Int) (feed : FeedId) (attestation : SignedAttestation) : Prop where
  scriptHash : attestation.payload.scriptHash = script
  inputParamsHash : attestation.payload.inputParamsHash = params
  outputValue : attestation.payload.outputValue = value
  timestampUtc : attestation.payload.timestampUtc = time
  feedId : padFeedId feed = .ok attestation.payload.feedId
  schemaVersion : attestation.payload.schemaVersion = 1
  publicKey : attestation.publicKey = signer.publicKeyBytes
  signature : attestation.signature =
    signer.signMessage (payloadBytes script params value time attestation.payload.feedId)

section Attest

variable {crypto : Crypto} {α : Type} {dumps : α → Except Failure String}
  {signer : OracleSigner crypto} {scriptHash paramsHash : Bytes} {params : α}
  {outputValue timestampUtc : Int} {feedId : FeedId} {attestation : SignedAttestation}

/-- The bytes that the signature covers. -/
theorem Attests.toBytes
    (h : Attests signer scriptHash paramsHash outputValue timestampUtc feedId attestation) :
    attestation.payload.toBytes = .ok (payloadBytes scriptHash paramsHash outputValue timestampUtc
      attestation.payload.feedId) := by
  rw [AttestationPayload.toBytes_eq h.schemaVersion, h.scriptHash, h.inputParamsHash,
    h.outputValue, h.timestampUtc]

/-- The signature of a payload of the current version. -/
theorem sign_eq {payload : AttestationPayload} (hversion : payload.schemaVersion = 1) :
    signer.sign payload = .ok (signer.signMessage (payloadBytes payload.scriptHash
      payload.inputParamsHash payload.outputValue payload.timestampUtc payload.feedId)) := by
  rw [OracleSigner.sign, AttestationPayload.toBytes_eq hversion]
  rfl

/-- A signature makes an attestation. -/
theorem signedAttestation_sign (payload : AttestationPayload) (message : Bytes) :
    signedAttestation payload signer.publicKeyBytes (signer.signMessage message) =
      .ok ⟨payload, signer.publicKeyBytes, signer.signMessage message,
        signer.publicKeyBytes_length, signer.signMessage_length message⟩ := by
  unfold signedAttestation
  rw [dif_pos signer.publicKeyBytes_length, dif_pos (signer.signMessage_length message)]

/-- What the signer attests, with the hash of the parameters. -/
theorem attest_eq_ok
    (h : signer.attest dumps scriptHash (.dict params) outputValue timestampUtc feedId =
      .ok attestation) :
    ∃ paramsHash, canonicalParamsHash crypto dumps params = .ok paramsHash ∧
      Attests signer scriptHash paramsHash outputValue timestampUtc feedId attestation := by
  unfold OracleSigner.attest at h
  simp only [exceptBind_eq_ok] at h
  rcases h with ⟨hash, hhash, padded, hpadded, payload, hpayload, signature, hsignature, hsigned⟩
  refine ⟨hash, hhash, ?_⟩
  obtain ⟨hscript, hparams, hvalue, htime, hfeed, hversion⟩ := attestationPayload_eq_ok hpayload
  rw [sign_eq hversion, Except.ok.injEq] at hsignature
  rw [← hsignature, signedAttestation_sign, Except.ok.injEq] at hsigned
  subst hscript hparams hvalue htime hfeed hsigned
  exact ⟨rfl, rfl, rfl, rfl, hpadded, hversion, rfl, rfl⟩

/-- A computation whose fields fit is attested. -/
theorem attest_of_fits (signer : OracleSigner crypto) (hscript : scriptHash.length = 32)
    (hparams : canonicalParamsHash crypto dumps params = .ok paramsHash)
    (hhash : paramsHash.length = 32) (hvalue : FitsI64 outputValue)
    (htime : FitsI64 timestampUtc) (hfeed : feedId.bytes.length ≤ 32) :
    ∃ attestation,
      signer.attest dumps scriptHash (.dict params) outputValue timestampUtc feedId =
        .ok attestation := by
  have hpadded := padFeedId_eq_ok.mpr ⟨hfeed, rfl⟩
  have hpayload := attestationPayload_of_fits hscript hhash (length_ljust hfeed) hvalue htime
  obtain ⟨-, -, -, -, -, hversion⟩ := attestationPayload_eq_ok hpayload
  unfold OracleSigner.attest
  simp only [exceptBind_eq_ok]
  exact ⟨_, paramsHash, hparams, _, hpadded, _, hpayload, _, sign_eq hversion,
    signedAttestation_sign _ _⟩

end Attest

end OracleBridge
end Kraal
