import Kraal.OracleBridge.VerifyProvenance

/-!
# The pipeline of a submission

The bridge attests a result, writes its provenance record, checks it, pins its text and submits the
attestation with the identifier of what was pinned.  The text is later read back and verified.

Main results:

- Definition {lit}`process`: the pipeline.
- Theorem {lit}`padFeedId_feedIdText`: the text of an identifier is filled up to the same bytes.
- Theorem {lit}`process_eq_ok`: what a submission that succeeds has pinned.
- Theorem {lit}`processed_verifies`: what was pinned verifies when it is read back.
-/

namespace Kraal
namespace OracleBridge

open Foundation

variable {F : Type}

/-! ## Pinned contents -/

/-- A short identifier of contents. -/
def simulatedCid (crypto : Crypto) (content : Bytes) : String :=
  "bafkrei" ++ firstCharacters 39 (hex (sha256 crypto content))

/-- The client that keeps what is pinned in memory. -/
structure SimulatedIPFSClient where
  store : Storage String Bytes

/-- Store a content under its identifier. -/
def SimulatedIPFSClient.pin (crypto : Crypto) (ipfs : SimulatedIPFSClient) (content : Bytes) :
    String × SimulatedIPFSClient :=
  (simulatedCid crypto content, ⟨ipfs.store.set (simulatedCid crypto content) content⟩)

/-- Read the content under an identifier. -/
def SimulatedIPFSClient.get (ipfs : SimulatedIPFSClient) (cid : String) : Except Failure Bytes :=
  match ipfs.store.get cid with
  | some content => .ok content
  | none => .error ⟨"KeyError", "CID not found in simulated store: '" ++ cid ++ "'"⟩

/-- Pin the text of a record. -/
def pinProvenanceRecord (crypto : Crypto) (floats : FloatFormat F) (ipfs : SimulatedIPFSClient)
    (recordDict : JsonValue F) : String × SimulatedIPFSClient :=
  ipfs.pin crypto (utf8 (dumps floats recordDict))

/-- The client after more contents were pinned. -/
def SimulatedIPFSClient.pinAll (crypto : Crypto) (ipfs : SimulatedIPFSClient)
    (contents : List Bytes) : SimulatedIPFSClient :=
  contents.foldl (fun ipfs content => (ipfs.pin crypto content).2) ipfs

/-! ## Submission -/

/-- The calls of the client that submits to the contract. -/
structure SubmissionClient where
  submitPrice : SignedAttestation → Except Failure String
  submitPriceWithCid : SignedAttestation → String → Except Failure String

/-- The longest content identifier. -/
def maxCidLen : Nat := 64

/-- The checks of a content identifier. -/
def validateCid (ipfsCid : String) : Except Failure Unit :=
  if ipfsCid = "" then
    .error ⟨"ValueError", "ipfs_cid must be a non-empty string, got ''"⟩
  else if ipfsCid.length > maxCidLen then
    .error ⟨"ValueError", "ipfs_cid length " ++ toString ipfsCid.length ++
      " exceeds MAX_CID_LEN (64): '" ++ ipfsCid ++ "'"⟩
  else .ok ()

/-- Submit with the identifier, or without it if the client does not know it. -/
def submitWithCid (client : SubmissionClient) (attestation : SignedAttestation)
    (ipfsCid : String) : Except Failure String := do
  validateCid ipfsCid
  match client.submitPriceWithCid attestation ipfsCid with
  | .ok txRef => return txRef
  | .error exc =>
      if exc.typeName = "AttributeError" then client.submitPrice attestation else .error exc

/-! ## The pipeline -/

/-- A text without the zeros at its end. -/
def rstripZeros (text : String) : String :=
  String.ofList (text.toList.rdropWhile (fun c => c = '\x00'))

/-- The identifier of a feed as it is written into a record. -/
def feedIdText : FeedId → Except Failure String
  | .text s => .ok s
  | .raw bytes =>
      match decodeUtf8 bytes with
      | some s => .ok (rstripZeros s)
      | none => .error ⟨"UnicodeDecodeError", "invalid start byte"⟩

section Pipeline

variable {crypto : Crypto} (signer : OracleSigner crypto) (platform : Platform F)

/-- The record about a result. -/
def recordFor (now : Int) (result : GEEResult (JsonDict F)) (scriptHash : Bytes)
    (attestation : SignedAttestation) (feedId : String) (payloadBytes : Bytes) :
    ProvenanceRecord F where
  scriptAssetPath := result.scriptAssetPath
  scriptVersionHash := hex scriptHash
  scriptVersionTag := result.scriptVersionTag
  inputParams := result.inputParams
  outputValue := result.outputValue
  feedId := feedId
  timestampUtc := result.timestampUtc
  attestationPublicKey := hex attestation.publicKey
  attestationSignature := hex attestation.signature
  attestationPayloadBytes := payloadBytes
  recordType := "single"
  scriptSourcePreview := some (firstCharacters 512 result.scriptSource)
  submittedAtUtc := now

/-- The attestation of a result, and the record about it. -/
def provenanceOf (now : Int) (result : GEEResult (JsonDict F)) :
    Except Failure (SignedAttestation × ProvenanceRecord F) := do
  let attestation ← signer.attest (canonicalText platform.floats) (result.scriptHash crypto)
    (.dict result.inputParams) result.outputValue result.timestampUtc result.feedId
  let feedId ← feedIdText result.feedId
  let payloadBytes ← attestation.payload.toBytes
  return (attestation,
    recordFor now result (result.scriptHash crypto) attestation feedId payloadBytes)

/-- An exception that has nothing to do with validation. -/
def orOther {α : Type} : Except Failure α → Except RecordFailure α
  | .ok a => .ok a
  | .error exc => .error (.other exc)

/-- The steps before the record is pinned: attest, write the dictionary, check it. -/
def prepare (now : Int) (result : GEEResult (JsonDict F)) :
    Except RecordFailure (SignedAttestation × ProvenanceRecord F × JsonValue F) := do
  let (attestation, provenance) ← orOther (provenanceOf signer platform now result)
  let recordDict ← orOther (provenance.toDict platform crypto)
  validateProvenanceRecord platform recordDict
  return (attestation, provenance, recordDict)

/-- Attest a result, pin its record and submit it.  What is pinned stays when the submission
fails. -/
def process (client : SubmissionClient) (now : Int) (ipfs : SimulatedIPFSClient)
    (result : GEEResult (JsonDict F)) :
    Except RecordFailure (SignedAttestation × String × ProvenanceRecord F) × SimulatedIPFSClient :=
  match prepare signer platform now result with
  | .error failure => (.error failure, ipfs)
  | .ok (attestation, provenance, recordDict) =>
      match pinProvenanceRecord crypto platform.floats ipfs recordDict with
      | (ipfsCid, ipfs) =>
          match submitWithCid client attestation ipfsCid with
          | .error exc => (.error (.other exc), ipfs)
          | .ok txRef =>
              (.ok (attestation, txRef,
                { provenance with ipfsCid := some ipfsCid, txRef := some txRef }), ipfs)

end Pipeline

/-! ## The identifier of a feed -/

/-- Zeros are encoded as zeros. -/
theorem utf8_zeros (n : Nat) :
    utf8 (String.ofList (List.replicate n '\x00')) = List.replicate n 0 := by
  induction n with
  | zero => rfl
  | succ n ih =>
      have hsplit : List.replicate (n + 1) '\x00' = ['\x00'] ++ List.replicate n '\x00' := rfl
      rw [hsplit, utf8_ofList_append, ih]
      rfl

/-- A text is what is left of it, and the zeros that were taken off. -/
theorem utf8_rstripZeros (text : String) :
    ∃ n, utf8 text = utf8 (rstripZeros text) ++ List.replicate n 0 := by
  have hzeros : ∃ n, text.toList.rtakeWhile (fun c => c = '\x00') = List.replicate n '\x00' := by
    refine ⟨_, List.eq_replicate_of_mem ?_⟩
    intro c hc
    simpa using List.mem_rtakeWhile_imp hc
  obtain ⟨n, hzeros⟩ := hzeros
  have hsplit : text.toList.rdropWhile (fun c => c = '\x00') ++ List.replicate n '\x00' =
      text.toList := by
    rw [← hzeros]
    exact List.rdropWhile_append_rtakeWhile
  refine ⟨n, ?_⟩
  calc utf8 text = utf8 (String.ofList text.toList) := by rw [String.ofList_toList]
    _ = utf8 (String.ofList (text.toList.rdropWhile (fun c => c = '\x00') ++
          List.replicate n '\x00')) := by rw [hsplit]
    _ = utf8 (rstripZeros text) ++ List.replicate n 0 := by
      rw [utf8_ofList_append, utf8_zeros]
      rfl

/-- A field that ends with zeros is filled up as without them. -/
theorem ljust_append_zeros {bytes : Bytes} {n : Nat}
    (h : (bytes ++ List.replicate n 0).length ≤ 32) :
    ljust 32 (bytes ++ List.replicate n 0) = ljust 32 bytes := by
  rw [List.length_append, List.length_replicate] at h
  unfold ljust
  rw [List.append_assoc, List.replicate_append_replicate, List.length_append,
    List.length_replicate]
  congr 2
  omega

/-- The text of an identifier is filled up to the same bytes. -/
theorem padFeedId_feedIdText {feedId : FeedId} {text : String} {padded : Bytes}
    (htext : feedIdText feedId = .ok text) (hpadded : padFeedId feedId = .ok padded) :
    padFeedId (.text text) = .ok padded := by
  cases feedId with
  | text s =>
      rw [feedIdText, Except.ok.injEq] at htext
      rw [← htext]
      exact hpadded
  | raw bytes =>
      rw [feedIdText] at htext
      split at htext
      · rename_i s hs
        rw [← Except.ok.inj htext]
        obtain ⟨hlength, rfl⟩ := padFeedId_eq_ok.mp hpadded
        obtain ⟨n, hzeros⟩ := utf8_rstripZeros s
        rw [utf8_of_decodeUtf8 hs] at hzeros
        rw [FeedId.bytes, hzeros] at hlength
        rw [padFeedId_eq_ok, FeedId.bytes, FeedId.bytes]
        refine ⟨?_, ?_⟩
        · rw [List.length_append] at hlength
          omega
        · rw [hzeros, ljust_append_zeros hlength]
      · cases htext

/-! ## What a submission has pinned -/

section Submissions

variable {crypto : Crypto} {signer : OracleSigner crypto} {platform : Platform F}
  {client : SubmissionClient} {now : Int} {ipfs ipfs' : SimulatedIPFSClient}
  {result : GEEResult (JsonDict F)} {attestation : SignedAttestation} {txRef : String}
  {provenance : ProvenanceRecord F} {recordDict : JsonValue F}

/-- The result is kept. -/
theorem orOther_eq_ok {α : Type} {x : Except Failure α} {a : α} :
    orOther x = .ok a ↔ x = .ok a := by
  cases x with
  | ok b =>
      rw [orOther, Except.ok.injEq, Except.ok.injEq]
  | error exc => exact iff_of_false (fun h => by cases h) fun h => by cases h

/-- What is established before a record is pinned. -/
structure Prepared (signer : OracleSigner crypto) (platform : Platform F) (now : Int)
    (result : GEEResult (JsonDict F)) (attestation : SignedAttestation)
    (provenance : ProvenanceRecord F) (recordDict : JsonValue F) : Prop where
  attested : provenanceOf signer platform now result = .ok (attestation, provenance)
  written : provenance.toDict platform crypto = .ok recordDict
  accepted : SchemaAccepts platform recordDict

/-- A record that is validated is accepted by the schema. -/
theorem schemaAccepts_of_validate (h : validateProvenanceRecord platform recordDict = .ok ()) :
    SchemaAccepts platform recordDict := by
  intro iterErrors hplatform
  unfold validateProvenanceRecord at h
  rw [hplatform] at h
  split at h
  · cases h
  · change (if iterErrors recordDict = [] then Except.ok () else _) = _ at h
    split at h
    · assumption
    · cases h
  · cases h

/-- What was checked when a submission is prepared. -/
theorem prepare_eq_ok
    (h : prepare signer platform now result = .ok (attestation, provenance, recordDict)) :
    Prepared signer platform now result attestation provenance recordDict := by
  unfold prepare at h
  simp only [exceptBind_eq_ok, orOther_eq_ok] at h
  obtain ⟨⟨attested, record⟩, hattested, dict, hdict, ⟨⟩, hvalid, hreturn⟩ := h
  obtain ⟨rfl, rfl, rfl⟩ : attested = attestation ∧ record = provenance ∧ dict = recordDict := by
    simpa using Except.ok.inj hreturn
  exact ⟨hattested, hdict, schemaAccepts_of_validate hvalid⟩

/-- The bytes that are pinned for a dictionary. -/
def pinnedBytes (platform : Platform F) (recordDict : JsonValue F) : Bytes :=
  utf8 (dumps platform.floats recordDict)

/-- What a submission that succeeds has pinned and submitted. -/
theorem process_eq_ok
    (h : process signer platform client now ipfs result =
      (.ok (attestation, txRef, provenance), ipfs')) :
    ∃ pinned recordDict, Prepared signer platform now result attestation pinned recordDict ∧
      provenance.ipfsCid = some (simulatedCid crypto (pinnedBytes platform recordDict)) ∧
      ipfs' = (ipfs.pin crypto (pinnedBytes platform recordDict)).2 ∧
      submitWithCid client attestation (simulatedCid crypto (pinnedBytes platform recordDict)) =
        .ok txRef := by
  unfold process at h
  split at h
  · cases h
  · rename_i attested pinned recordDict hprepared
    split at h
    rename_i cid pinnedStore hpin
    split at h
    · cases h
    · rename_i ref hsubmit
      obtain ⟨hcid, hstore⟩ := Prod.mk.inj hpin
      obtain ⟨hok, rfl⟩ := Prod.mk.inj h
      obtain ⟨rfl, hrest⟩ := Prod.mk.inj (Except.ok.inj hok)
      obtain ⟨rfl, rfl⟩ := Prod.mk.inj hrest
      rw [← hcid] at hsubmit
      exact ⟨pinned, recordDict, prepare_eq_ok hprepared, congrArg some hcid.symm, hstore.symm,
        hsubmit⟩

/-- A record vouches for an attested result, and names its script, its parameters and its feed. -/
structure RecordOf (signer : OracleSigner crypto) (floats : FloatFormat F)
    (result : GEEResult (JsonDict F)) (attestation : SignedAttestation)
    (record : ProvenanceRecord F) : Prop where
  vouched : Vouched crypto record (result.scriptHash crypto)
    (sha256 crypto (utf8 (dumps floats result.inputParams.value))) attestation.payload.feedId
    attestation.publicKey attestation.signature
  scriptVersionHash : record.scriptVersionHash = hex (result.scriptHash crypto)
  inputParams : record.inputParams = result.inputParams
  feedId : padFeedId (.text record.feedId) = .ok attestation.payload.feedId

/-- The record is that of the result. -/
theorem recordOf_provenanceOf
    (h : provenanceOf signer platform now result = .ok (attestation, provenance)) :
    RecordOf signer platform.floats result attestation provenance := by
  unfold provenanceOf at h
  simp only [exceptBind_eq_ok] at h
  obtain ⟨attested, hattest, text, htext, payload, hpayload, hreturn⟩ := h
  obtain ⟨rfl, rfl⟩ := Prod.mk.inj (Except.ok.inj hreturn)
  obtain ⟨paramsHash, hparams, hattests⟩ := attest_eq_ok hattest
  have hhash : sha256 crypto (utf8 (dumps platform.floats result.inputParams.value)) =
      paramsHash := Except.ok.inj hparams
  rw [hattests.toBytes, Except.ok.injEq] at hpayload
  have hvalue := attested.payload.outputValue_fits
  have htime := attested.payload.timestampUtc_fits
  rw [hattests.outputValue] at hvalue
  rw [hattests.timestampUtc] at htime
  refine ⟨?_, rfl, rfl, padFeedId_feedIdText htext hattests.feedId⟩
  constructor
  case recordType | publicKeyText | signatureText => rfl
  case script_length =>
    rw [← hattests.scriptHash]
    exact attested.payload.scriptHash_length
  case params_length =>
    rw [hhash, ← hattests.inputParamsHash]
    exact attested.payload.inputParamsHash_length
  case feedId_length => exact attested.payload.feedId_length
  case outputValue_fits => exact hvalue
  case timestampUtc_fits => exact htime
  case payload =>
    rw [hhash]
    exact hpayload.symm
  case publicKey_length => exact attested.publicKey_length
  case signature_length => exact attested.signature_length
  case valid =>
    rw [hattests.publicKey, hattests.signature, hpayload]
    exact signer.verifies payload

end Submissions

/-! ## Reading back what was pinned -/

/-- The schema, if it is checked, does not look at the order of the keys. -/
def SchemaIgnoresOrder (platform : Platform F) : Prop :=
  ∀ iterErrors, platform.jsonschema = some iterErrors → ∀ v : JsonValue F, v.KeysDistinct →
    iterErrors v = [] → iterErrors v.sortKeys = []

/-- Contents that are pinned later have other identifiers, or they are what is there already. -/
def NoCollision (crypto : Crypto) (ipfs : SimulatedIPFSClient) (contents : List Bytes) : Prop :=
  ∀ content ∈ contents, ∀ held, ipfs.store.get (simulatedCid crypto content) = some held →
    held = content

section ReadingBack

variable {crypto : Crypto} {signer : OracleSigner crypto} {platform : Platform F}
  {client : SubmissionClient} {now : Int} {ipfs ipfs' : SimulatedIPFSClient}
  {result : GEEResult (JsonDict F)} {attestation : SignedAttestation} {txRef : String}
  {provenance : ProvenanceRecord F} {recordDict : JsonValue F}

/-- Contents that are pinned later leave what is there in place. -/
theorem get_pinAll {contents : List Bytes} {cid : String} {held : Bytes}
    (hheld : ipfs.store.get cid = some held) (h : NoCollision crypto ipfs contents) :
    (ipfs.pinAll crypto contents).get cid = .ok held := by
  have hsame : ∀ content ∈ contents, simulatedCid crypto content = cid → content = held := by
    intro content hcontent hcid
    exact (h content hcontent held (by rw [hcid, hheld])).symm
  clear h
  induction contents generalizing ipfs with
  | nil =>
      rw [SimulatedIPFSClient.pinAll, List.foldl_nil, SimulatedIPFSClient.get, hheld]
  | cons content contents ih =>
      rw [SimulatedIPFSClient.pinAll, List.foldl_cons]
      apply ih
      · by_cases hcid : simulatedCid crypto content = cid
        · rw [← hsame content List.mem_cons_self hcid, ← hcid]
          exact Storage.get_set_self _ _ _
        · rw [SimulatedIPFSClient.pin, Storage.get_set_of_ne _ _ (Ne.symm hcid)]
          exact hheld
      · exact fun content' hcontent' => hsame content' (List.mem_cons_of_mem _ hcontent')

/-- The dictionary of an attested result verifies, and has the slices of its payload. -/
theorem RecordOf.verifies (h : RecordOf signer platform.floats result attestation provenance)
    {dict gs ip comp att sub given : JsonValue F}
    (hholds : HoldsRecord crypto platform.floats provenance dict gs ip comp att sub given)
    (hschema : SchemaAccepts platform dict) :
    cmdVerify platform crypto (.record dict) true = .ok 0 ∧
      SignsOwnFields crypto platform.floats dict := by
  have hverified := hholds.cmdVerify h.vouched hschema
  have hversion := hholds.versionHash
  have hparams := hholds.paramsHash
  rw [h.scriptVersionHash] at hversion
  rw [h.inputParams, canonicalParamsHashHex] at hparams
  have hsigned : signedPayload dict = some provenance.attestationPayloadBytes :=
    hexAt_of_holds hholds.attestation hholds.payloadHex
  have hfeed : paddedFeedId dict = some attestation.payload.feedId := by
    rw [paddedFeedId, textAt_eq_some.mpr (fieldAt_eq_some.mpr
      ⟨comp, hholds.computation, hholds.feedId⟩)]
    exact toOption_eq_some.mpr h.feedId
  obtain ⟨hslice, hslice', -, -, hslice''⟩ := slices_payloadBytes h.vouched.script_length
    h.vouched.params_length h.vouched.feedId_length provenance.outputValue provenance.timestampUtc
  rw [← h.vouched.payload] at hslice hslice' hslice''
  refine ⟨hverified, signsOwnFields_of_slices hverified ⟨?_, ?_, ?_⟩⟩
  · refine ⟨_, _, hsigned, hexAt_of_holds hholds.geeScript hversion, ?_⟩
    rw [hslice, ljust_take_of_length h.vouched.script_length]
  · refine ⟨_, _, hsigned, hexAt_of_holds hholds.inputParams hparams, ?_⟩
    rw [hslice', ljust_take_of_length h.vouched.params_length]
  · exact ⟨_, _, hsigned, hfeed, hslice''⟩

/-- What a submission has pinned verifies when it is read back. -/
theorem processed_verifies (hfloats : platform.floats.Regular)
    (hschema : SchemaIgnoresOrder platform)
    (h : process signer platform client now ipfs result =
      (.ok (attestation, txRef, provenance), ipfs'))
    {later : List Bytes} (hlater : NoCollision crypto ipfs' later) :
    ∃ cid pinned record, submitWithCid client attestation cid = .ok txRef ∧
      provenance.ipfsCid = some cid ∧
      (ipfs'.pinAll crypto later).get cid = .ok pinned ∧
      loadFromFile platform.floats (some pinned) = .ok (.record record) ∧
      cmdVerify platform crypto (.record record) true = .ok 0 ∧
      SignsOwnFields crypto platform.floats record := by
  obtain ⟨pinned, recordDict, hprepared, hcid, rfl, hsubmit⟩ := process_eq_ok h
  have hdistinct := keysDistinct_toDict hprepared.written
  obtain ⟨gs, ip, comp, att, sub, given, hholds⟩ := holdsRecord_toDict hprepared.written
  have hsorted : SchemaAccepts platform recordDict.sortKeys := fun iterErrors hplatform =>
    hschema iterErrors hplatform recordDict hdistinct (hprepared.accepted iterErrors hplatform)
  obtain ⟨hverified, hsigns⟩ :=
    (recordOf_provenanceOf hprepared.attested).verifies (hholds.sortKeys hdistinct) hsorted
  have hheld : (ipfs.pin crypto (pinnedBytes platform recordDict)).2.store.get
      (simulatedCid crypto (pinnedBytes platform recordDict)) =
        some (pinnedBytes platform recordDict) := Storage.get_set_self _ _ _
  have hget := get_pinAll hheld hlater
  refine ⟨_, _, recordDict.sortKeys, hsubmit, hcid, hget, ?_, hverified, hsigns⟩
  rw [loadFromFile, pinnedBytes, decodeUtf8_utf8]
  simp only [loads_dumps hfloats hdistinct]

end ReadingBack

/-! ## Submissions that succeed -/

/-- The identifiers of the simulated store are valid. -/
theorem validateCid_simulatedCid (crypto : Crypto) (content : Bytes) :
    validateCid (simulatedCid crypto content) = .ok () := by
  have hlength : (simulatedCid crypto content).length =
      7 + (firstCharacters 39 (hex (sha256 crypto content))).length := by
    rw [simulatedCid, String.length_append]
    rfl
  have hle : (firstCharacters 39 (hex (sha256 crypto content))).length ≤ 39 := by
    rw [firstCharacters, String.length_ofList]
    exact List.length_take_le _ _
  have hne : simulatedCid crypto content ≠ "" := by
    intro hempty
    rw [hempty, String.length_empty] at hlength
    omega
  unfold validateCid maxCidLen
  rw [if_neg hne, if_neg (by omega)]

/-- What lets a submission succeed. -/
structure Processable (platform : Platform F) (client : SubmissionClient) (now : Int)
    (result : GEEResult (JsonDict F)) : Prop where
  outputValue : FitsI64 result.outputValue
  timestampUtc : FitsI64 result.timestampUtc
  feedId : result.feedId.bytes.length ≤ 32
  feedIdText : ∃ text, feedIdText result.feedId = .ok text
  submittedAtIso : ∃ text, platform.utcIso now = .ok text
  timestampIso : ∃ text, platform.utcIso result.timestampUtc = .ok text
  schema : ∀ dict, SchemaAccepts platform dict
  client : ∀ attestation cid, ∃ txRef, client.submitPriceWithCid attestation cid = .ok txRef

/-- A record that is built is validated if the schema accepts it. -/
theorem validate_of_holds {crypto : Crypto} {platform : Platform F} {record : ProvenanceRecord F}
    {dict : JsonValue F} (hdict : record.toDict platform crypto = .ok dict)
    (hsingle : record.recordType = "single") (hlengths : HexLengths record)
    (hschema : SchemaAccepts platform dict) : validateProvenanceRecord platform dict = .ok () := by
  obtain ⟨gs, ip, comp, att, sub, given, hholds⟩ := holdsRecord_toDict hdict
  rw [validateProvenanceRecord, hholds.lightweightValidate hsingle hlengths]
  cases hplatform : platform.jsonschema with
  | none => rfl
  | some iterErrors => simp only [hschema iterErrors hplatform, if_true]

/-- A submission with an identifier goes to the client. -/
theorem submitWithCid_of_ok {client : SubmissionClient} {attestation : SignedAttestation}
    {crypto : Crypto} {content : Bytes} {txRef : String}
    (h : client.submitPriceWithCid attestation (simulatedCid crypto content) = .ok txRef) :
    submitWithCid client attestation (simulatedCid crypto content) = .ok txRef := by
  rw [submitWithCid, validateCid_simulatedCid, h]
  rfl

section Success

variable {crypto : Crypto} {platform : Platform F} {client : SubmissionClient} {now : Int}
  {result : GEEResult (JsonDict F)}

/-- The record of a result that can be processed is written and passes its checks. -/
theorem Processable.prepare (h : Processable platform client now result)
    (hdigests : Digests crypto) (signer : OracleSigner crypto) :
    ∃ attestation provenance recordDict, prepare signer platform now result =
      .ok (attestation, provenance, recordDict) := by
  obtain ⟨text, htext⟩ := h.feedIdText
  obtain ⟨submittedIso, hsubmitted⟩ := h.submittedAtIso
  obtain ⟨timestampIso, htimestamp⟩ := h.timestampIso
  have hparams : canonicalParamsHash crypto (canonicalText platform.floats) result.inputParams =
      .ok (sha256 crypto (utf8 (dumps platform.floats result.inputParams.value))) := rfl
  obtain ⟨attestation, hattest⟩ := attest_of_fits signer (hdigests (utf8 result.scriptSource))
    hparams (hdigests _) h.outputValue h.timestampUtc h.feedId
  obtain ⟨paramsHash, -, hattests⟩ := attest_eq_ok hattest
  have hattested : ∃ payload, provenanceOf signer platform now result = .ok (attestation,
      recordFor now result (result.scriptHash crypto) attestation text payload) := by
    unfold provenanceOf
    simp only [exceptBind_eq_ok]
    exact ⟨_, attestation, hattest, text, htext, _, hattests.toBytes, rfl⟩
  obtain ⟨payload, hattested⟩ := hattested
  have hwritten : ∃ dict, (recordFor now result (result.scriptHash crypto) attestation text
      payload).toDict platform crypto = .ok dict := by
    unfold ProvenanceRecord.toDict
    simp only [exceptBind_eq_ok]
    exact ⟨_, submittedIso, hsubmitted, timestampIso, htimestamp, rfl⟩
  obtain ⟨dict, hwritten⟩ := hwritten
  have hvalid := validate_of_holds hwritten rfl
    (recordOf_provenanceOf hattested).vouched.hexLengths (h.schema dict)
  refine ⟨attestation, recordFor now result (result.scriptHash crypto) attestation text payload,
    dict, ?_⟩
  unfold OracleBridge.prepare
  simp only [exceptBind_eq_ok, orOther_eq_ok]
  exact ⟨_, hattested, dict, hwritten, (), hvalid, rfl⟩

/-- A submission whose fields fit succeeds. -/
theorem Processable.process (h : Processable platform client now result)
    (hdigests : Digests crypto) (signer : OracleSigner crypto) (ipfs : SimulatedIPFSClient) :
    ∃ attestation txRef provenance ipfs', process signer platform client now ipfs result =
      (.ok (attestation, txRef, provenance), ipfs') := by
  obtain ⟨attestation, pinned, recordDict, hprepared⟩ := h.prepare hdigests signer
  obtain ⟨txRef, hsubmit⟩ := h.client attestation
    (simulatedCid crypto (pinnedBytes platform recordDict))
  have hsubmitted := submitWithCid_of_ok hsubmit
  refine ⟨attestation, txRef, { pinned with
    ipfsCid := some (simulatedCid crypto (pinnedBytes platform recordDict)), txRef := some txRef },
    (ipfs.pin crypto (pinnedBytes platform recordDict)).2, ?_⟩
  simp only [OracleBridge.process, hprepared, pinProvenanceRecord, SimulatedIPFSClient.pin]
  rw [← pinnedBytes, hsubmitted]

end Success

/-- Parameters whose keys are not in order. -/
def sampleFields : List (String × JsonValue Unit) :=
  [("startDate", .str "2024-01-01"), ("scale", .int 30)]

/-- No key comes twice in the parameters. -/
theorem sampleFields_keysDistinct : (JsonValue.obj sampleFields).KeysDistinct := by
  refine .obj (by decide) ?_
  simp only [sampleFields, List.forall_mem_cons]
  exact ⟨.str _, .int _, by simp⟩

/-- A submission under an identifier that was filled up already. -/
def sampleSubmission : GEEResult (JsonDict Unit) where
  scriptSource := "return -5;"
  inputParams := ⟨sampleFields, sampleFields_keysDistinct⟩
  outputValue := -5
  feedId := .raw (utf8 "CBL-EUA" ++ [0, 0])
  timestampUtc := 1700000000

/-- A client that submits without fail. -/
def sampleClient : SubmissionClient where
  submitPrice _ := .ok "tx_1"
  submitPriceWithCid _ _ := .ok "tx_1"

/-- The platform prints numbers that are read back. -/
theorem samplePlatform_regular : samplePlatform.floats.Regular := by
  intro x
  have htext : "NaN".toList = ['N', 'a', 'N'] := by decide
  change scanAtom samplePlatform.floats "NaN".toList = _
  rw [htext]
  rfl

/-- The schema of the platform ignores the order of keys. -/
theorem samplePlatform_ignoresOrder : SchemaIgnoresOrder samplePlatform := by
  intro iterErrors hplatform
  cases hplatform

/-- The submission can be processed. -/
theorem sampleSubmission_processable :
    Processable samplePlatform sampleClient 1700000000 sampleSubmission where
  outputValue := by decide
  timestampUtc := by decide
  feedId := by decide +kernel
  feedIdText := ⟨"CBL-EUA", by decide +kernel⟩
  submittedAtIso := ⟨_, rfl⟩
  timestampIso := ⟨_, rfl⟩
  schema := fun dict iterErrors hplatform => by cases hplatform
  client := fun attestation cid => ⟨"tx_1", rfl⟩

theorem sampleSubmission_verifies :
    ∃ attestation txRef provenance ipfs cid pinned record,
      process sampleSigner samplePlatform sampleClient 1700000000 ⟨Storage.empty⟩
        sampleSubmission = (.ok (attestation, txRef, provenance), ipfs) ∧
      submitWithCid sampleClient attestation cid = .ok txRef ∧ provenance.ipfsCid = some cid ∧
      (ipfs.pinAll sampleCrypto []).get cid = .ok pinned ∧
      loadFromFile samplePlatform.floats (some pinned) = .ok (.record record) ∧
      cmdVerify samplePlatform sampleCrypto (.record record) true = .ok 0 ∧
      SignsOwnFields sampleCrypto samplePlatform.floats record := by
  obtain ⟨attestation, txRef, provenance, ipfs, hprocess⟩ :=
    sampleSubmission_processable.process sampleCrypto_digests sampleSigner ⟨Storage.empty⟩
  have hlater : NoCollision sampleCrypto ipfs [] := by
    intro content hcontent
    cases hcontent
  obtain ⟨cid, pinned, record, hverified⟩ := processed_verifies samplePlatform_regular
    samplePlatform_ignoresOrder hprocess hlater
  exact ⟨attestation, txRef, provenance, ipfs, cid, pinned, record, hprocess, hverified⟩

end OracleBridge
end Kraal
