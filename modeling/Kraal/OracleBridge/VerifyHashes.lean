import Kraal.OracleBridge.Pipeline

/-!
# The hashes of a loaded record

A record is rebuilt from its dictionary and asked whether its hashes are consistent.  The values are
taken from the dictionary as they are, only the payload is decoded.  The hash of the parameters is
not among them: it is computed again when the record is written as a dictionary, and what is
compared is one computation with another one.

Main results:

- Definitions {lit}`fromDict` and {lit}`LoadedRecord.verifyHashes`.
- Theorem {lit}`loaded_toDict`: the records of the bridge are written alike.
- Theorem {lit}`verifyHashes_eq_nil`: what is known of a record without errors.
- Theorem {lit}`detects_iff`: which inconsistencies are detected.

Current gaps:

- A time that is not an integer is refused.
-/

namespace Kraal
namespace OracleBridge

open Foundation

variable {F : Type}

/-! ## Loaded records -/

/-- A record with the values of a dictionary. -/
structure LoadedRecord (F : Type) where
  scriptAssetPath : JsonValue F
  scriptVersionHash : JsonValue F
  scriptVersionTag : JsonValue F
  inputParams : JsonValue F
  outputValue : JsonValue F
  feedId : JsonValue F
  timestampUtc : JsonValue F
  attestationPublicKey : JsonValue F
  attestationSignature : JsonValue F
  attestationPayloadBytes : Bytes
  recordType : JsonValue F
  scriptSourcePreview : JsonValue F
  aggregationMetadata : JsonValue F
  submittedAtUtc : JsonValue F
  txRef : JsonValue F
  ipfsCid : JsonValue F

/-- Rebuild a record from its dictionary. -/
def fromDict (data : JsonValue F) : Except Failure (LoadedRecord F) := do
  let sub ← item data "submission"
  let att ← item data "attestation"
  let comp ← item data "computation"
  let gs ← item data "gee_script"
  let ip ← item data "input_params"
  let scriptAssetPath ← item gs "asset_path"
  let scriptVersionHash ← item gs "version_hash"
  let scriptVersionTag ← item gs "version_tag"
  let scriptSourcePreview ← get gs "source_preview" .null
  let inputParams ← item ip "params"
  let outputValue ← item comp "output_value"
  let feedId ← item comp "feed_id"
  let timestampUtc ← item comp "timestamp_utc"
  let attestationPublicKey ← item att "public_key"
  let attestationSignature ← item att "signature"
  let payloadHex ← item att "payload_hex"
  let attestationPayloadBytes ← fromHexValue payloadHex
  let recordType ← item data "record_type"
  let aggregationMetadata ← get data "aggregation" .null
  let submittedAtUtc ← item sub "submitted_at_utc"
  let txRef ← get sub "tx_ref" .null
  let ipfsCid ← get sub "ipfs_cid" .null
  return ⟨scriptAssetPath, scriptVersionHash, scriptVersionTag, inputParams, outputValue, feedId,
    timestampUtc, attestationPublicKey, attestationSignature, attestationPayloadBytes, recordType,
    scriptSourcePreview, aggregationMetadata, submittedAtUtc, txRef, ipfsCid⟩

/-- The text of a time. -/
def utcIsoValue (platform : Platform F) (v : JsonValue F) : Except Failure String :=
  match numeric platform.floats v with
  | some time =>
      if time.den = 1 then platform.utcIso time.num
      else .error (typeError "an integer is required")
  | none => .error (typeError ("an integer is required (got type " ++ typeName v ++ ")"))

/-- A field for a value, unless it counts as false. -/
def truthyField (floats : FloatFormat F) (key : String) (v : JsonValue F) :
    List (String × JsonValue F) :=
  if truthy floats v then [(key, v)] else []

/-- What is wrong with the hashes of a record. -/
inductive HashError (F : Type) where
  | paramsHash (stored : JsonValue F) (computed : String)
  | payloadLength (length : Nat)
  | outputValue (stored : Int) (record : JsonValue F)
  | timestamp (stored : Int) (record : JsonValue F)

namespace LoadedRecord

variable (record : LoadedRecord F) (platform : Platform F) (crypto : Crypto)

/-- The preview of the script, cut off. -/
def sourcePreview (floats : FloatFormat F) : Except Failure (List (String × JsonValue F)) :=
  if truthy floats record.scriptSourcePreview then do
    let preview ← slice record.scriptSourcePreview 512
    return [("source_preview", preview)]
  else return []

/-- The block of an aggregated record, unless it counts as false. -/
def aggregation (floats : FloatFormat F) : List (String × JsonValue F) :=
  if equalsText record.recordType "aggregated" then
    truthyField floats "aggregation" record.aggregationMetadata
  else []

/-- The dictionary that is written for a record. -/
def toDict : Except Failure (JsonValue F) := do
  let paramsHash := canonicalParamsHashHex crypto platform.floats record.inputParams
  let preview ← record.sourcePreview platform.floats
  let submittedAtIso ← utcIsoValue platform record.submittedAtUtc
  let timestampIso ← utcIsoValue platform record.timestampUtc
  return .obj ([("schema_version", .int 1), ("record_type", record.recordType),
    ("gee_script", .obj ([("asset_path", record.scriptAssetPath),
      ("version_hash", record.scriptVersionHash), ("version_tag", record.scriptVersionTag)] ++
        preview)),
    ("input_params", .obj [("params", record.inputParams), ("params_hash", .str paramsHash)]),
    ("computation", .obj [("output_value", record.outputValue), ("feed_id", record.feedId),
      ("timestamp_utc", record.timestampUtc), ("timestamp_iso", .str timestampIso)]),
    ("attestation", .obj [("schema_version", .int 1), ("public_key", record.attestationPublicKey),
      ("signature", record.attestationSignature),
      ("payload_hex", .str (hex record.attestationPayloadBytes))]),
    ("submission", .obj ([("submitted_at_iso", .str submittedAtIso),
      ("submitted_at_utc", record.submittedAtUtc)] ++
        (truthyField platform.floats "tx_ref" record.txRef ++
          truthyField platform.floats "ipfs_cid" record.ipfsCid)))] ++
    record.aggregation platform.floats)

/-- The errors of the integers in the payload. -/
def integerErrors (floats : FloatFormat F) : List (HashError F) :=
  let storedOv := signedOfBytes (byteSlice 65 73 record.attestationPayloadBytes)
  let storedTs := signedOfBytes (byteSlice 73 81 record.attestationPayloadBytes)
  (if equalsInt floats record.outputValue storedOv then []
    else [.outputValue storedOv record.outputValue]) ++
  (if equalsInt floats record.timestampUtc storedTs then []
    else [.timestamp storedTs record.timestampUtc])

/-- The errors of the hashes of a record. -/
def verifyHashes : Except Failure (List (HashError F)) := do
  let expectedHash := canonicalParamsHashHex crypto platform.floats record.inputParams
  let recordDict ← record.toDict platform crypto
  let ip ← item recordDict "input_params"
  let storedHash ← item ip "params_hash"
  let length := record.attestationPayloadBytes.length
  return (if equalsText storedHash expectedHash then []
      else [.paramsHash storedHash expectedHash]) ++
    ((if length = 113 then [] else [.payloadLength length]) ++
    (if length = 113 then record.integerErrors platform.floats else []))

end LoadedRecord

/-! ## The records of the bridge -/

/-- A text that may be absent. -/
def textOrNull : Option String → JsonValue F
  | some s => .str s
  | none => .null

/-- A record of the bridge, with its values as those of a dictionary. -/
def ProvenanceRecord.loaded (record : ProvenanceRecord F) : LoadedRecord F where
  scriptAssetPath := .str record.scriptAssetPath
  scriptVersionHash := .str record.scriptVersionHash
  scriptVersionTag := .str record.scriptVersionTag
  inputParams := record.inputParams.value
  outputValue := .int record.outputValue
  feedId := .str record.feedId
  timestampUtc := .int record.timestampUtc
  attestationPublicKey := .str record.attestationPublicKey
  attestationSignature := .str record.attestationSignature
  attestationPayloadBytes := record.attestationPayloadBytes
  recordType := .str record.recordType
  scriptSourcePreview := textOrNull record.scriptSourcePreview
  aggregationMetadata :=
    match record.aggregationMetadata with
    | some metadata => metadata.value
    | none => .null
  submittedAtUtc := .int record.submittedAtUtc
  txRef := textOrNull record.txRef
  ipfsCid := textOrNull record.ipfsCid

section Bridge

variable {platform : Platform F} {crypto : Crypto} {record : ProvenanceRecord F}

/-- The time of an integer. -/
theorem utcIsoValue_int (time : Int) : utcIsoValue platform (.int time) = platform.utcIso time := by
  unfold utcIsoValue
  change (if ((time : ℚ)).den = 1 then platform.utcIso (time : ℚ).num else _) = _
  rw [if_pos (Rat.den_intCast time), Rat.num_intCast]

/-- A text that is not empty is written. -/
theorem truthyField_textOrNull (floats : FloatFormat F) (key : String) (text : Option String) :
    truthyField floats key (textOrNull text) = optionalField key text := by
  cases text with
  | none => rfl
  | some s =>
      by_cases hempty : s = ""
      · simp [truthyField, textOrNull, truthy, optionalField, hempty]
      · simp [truthyField, textOrNull, truthy, optionalField, hempty]

/-- Only an empty text is cut to nothing. -/
theorem firstCharacters_eq_empty {length : Nat} (h : 0 < length) {text : String} :
    firstCharacters length text = "" ↔ text = "" := by
  rw [firstCharacters, ← String.toList_inj, String.toList_ofList, ← String.toList_inj]
  change text.toList.take length = [] ↔ text.toList = []
  rw [List.take_eq_nil_iff]
  constructor
  · intro hempty
    exact hempty.resolve_left h.ne'
  · exact Or.inr

/-- The preview of a loaded record. -/
theorem loaded_sourcePreview (floats : FloatFormat F) :
    record.loaded.sourcePreview floats = .ok (optionalField "source_preview"
      (record.scriptSourcePreview.map (firstCharacters 512))) := by
  have hvalue : record.loaded.scriptSourcePreview = textOrNull record.scriptSourcePreview := rfl
  unfold LoadedRecord.sourcePreview
  rw [hvalue]
  cases record.scriptSourcePreview with
  | none => rfl
  | some s =>
      by_cases hempty : s = ""
      · rw [hempty]
        rfl
      · have htruthy : truthy floats (textOrNull (some s)) = true := by
          simp [truthy, textOrNull, hempty]
        have hfirst := mt (firstCharacters_eq_empty (by decide : 0 < 512)).mp hempty
        rw [if_pos htruthy, Option.map_some, optionalField, if_neg hfirst]
        rfl

/-- The metadata of a loaded record. -/
theorem loaded_aggregation (floats : FloatFormat F) :
    record.loaded.aggregation floats = record.aggregation := by
  unfold LoadedRecord.aggregation ProvenanceRecord.aggregation ProvenanceRecord.loaded
  by_cases htype : record.recordType = "aggregated"
  · have hequal : equalsText (.str record.recordType : JsonValue F) "aggregated" = true :=
      equalsText_eq_true.mpr (congrArg JsonValue.str htype)
    rw [if_pos hequal]
    cases record.aggregationMetadata with
    | none => rfl
    | some metadata =>
        by_cases hfields : metadata.fields = []
        · simp [truthyField, truthy, JsonDict.value, hfields]
        · simp [truthyField, truthy, JsonDict.value, hfields, htype]
  · have hequal : ¬ equalsText (.str record.recordType : JsonValue F) "aggregated" = true := by
      rw [equalsText_eq_true, JsonValue.str.injEq]
      exact htype
    rw [if_neg hequal]
    cases record.aggregationMetadata with
    | none => rfl
    | some metadata => simp [htype]

/-- The records of the bridge are written as they are when they are loaded. -/
theorem loaded_toDict : record.loaded.toDict platform crypto = record.toDict platform crypto := by
  unfold LoadedRecord.toDict ProvenanceRecord.toDict
  rw [loaded_sourcePreview, loaded_aggregation]
  simp only [ProvenanceRecord.loaded, utcIsoValue_int, truthyField_textOrNull]
  rfl

end Bridge

/-! ## What is compared -/

section Checks

variable {platform : Platform F} {crypto : Crypto} {floats : FloatFormat F}
  {record : LoadedRecord F} {dict : JsonValue F} {errors : List (HashError F)}

/-- The hash that is looked up in the dictionary of a record is the one that was just computed. -/
theorem storedHash_toDict (h : record.toDict platform crypto = .ok dict) :
    ∃ ip, Holds dict "input_params" ip ∧ Holds ip "params_hash"
      (.str (canonicalParamsHashHex crypto platform.floats record.inputParams)) := by
  unfold LoadedRecord.toDict at h
  simp only [exceptBind_eq_ok] at h
  rcases h with ⟨preview, -, submittedAtIso, -, timestampIso, -, hdict⟩
  rw [← Except.ok.inj hdict]
  exact ⟨_, holds_obj rfl, holds_obj rfl⟩

/-- Which integers agree with the payload. -/
theorem integerErrors_eq_nil :
    record.integerErrors floats = [] ↔
      equalsInt floats record.outputValue
        (signedOfBytes (byteSlice 65 73 record.attestationPayloadBytes)) = true ∧
      equalsInt floats record.timestampUtc
        (signedOfBytes (byteSlice 73 81 record.attestationPayloadBytes)) = true := by
  simp [LoadedRecord.integerErrors]

/-- A record without errors has a payload of the right length that holds its integers.  The hashes
are not compared with anything that was stored. -/
theorem verifyHashes_eq_nil (h : record.verifyHashes platform crypto = .ok errors) :
    errors = [] ↔ record.attestationPayloadBytes.length = 113 ∧
      record.integerErrors platform.floats = [] := by
  unfold LoadedRecord.verifyHashes at h
  simp only [exceptBind_eq_ok] at h
  rcases h with ⟨written, hwritten, ip, hip, storedHash, hstored, hreturn⟩
  rcases storedHash_toDict hwritten with ⟨ip', hip', hstored'⟩
  have hsame : ip' = ip := Except.ok.inj (hip'.item.symm.trans hip)
  rw [hsame] at hstored'
  have hhash := Except.ok.inj (hstored'.item.symm.trans hstored)
  have hequal : equalsText storedHash
      (canonicalParamsHashHex crypto platform.floats record.inputParams) = true :=
    equalsText_eq_true.mpr hhash.symm
  rw [← Except.ok.inj hreturn, if_pos hequal, List.nil_append]
  by_cases hlength : record.attestationPayloadBytes.length = 113
  · rw [if_pos hlength, if_pos hlength, List.nil_append]
    exact (and_iff_right hlength).symm
  · rw [if_neg hlength, if_neg hlength]
    simp [hlength]

/-- What a record takes from a dictionary. -/
structure LoadedFrom (dict : JsonValue F) (record : LoadedRecord F) : Prop where
  signed : signedPayload dict = some record.attestationPayloadBytes
  outputValue : fieldAt dict "computation" "output_value" = some record.outputValue
  timestampUtc : fieldAt dict "computation" "timestamp_utc" = some record.timestampUtc

/-- What a record was loaded from. -/
theorem fromDict_eq_ok (h : fromDict dict = .ok record) : LoadedFrom dict record := by
  unfold fromDict at h
  simp only [exceptBind_eq_ok] at h
  rcases h with ⟨_, -, att, hatt, comp, hcomp, _, -, _, -, h⟩
  rcases h with ⟨_, -, _, -, _, -, _, -, _, -, outputValue, hvalue, _, -, timestampUtc, htime, h⟩
  rcases h with ⟨_, -, _, -, payloadHex, hhex, bytes, hbytes, h⟩
  rcases h with ⟨_, -, _, -, _, -, _, -, _, -, hreturn⟩
  rcases fromHexValue_eq_ok hbytes with ⟨text, rfl, htext⟩
  have hsigned := fieldAt_eq_some.mpr ⟨att, item_eq_ok hatt, item_eq_ok hhex⟩
  rw [← Except.ok.inj hreturn]
  constructor
  · rw [signedPayload, hexAt, textAt_eq_some.mpr hsigned]
    exact htext
  · exact fieldAt_eq_some.mpr ⟨comp, item_eq_ok hcomp, item_eq_ok hvalue⟩
  · exact fieldAt_eq_some.mpr ⟨comp, item_eq_ok hcomp, item_eq_ok htime⟩

/-- A field that holds an integer equals it. -/
theorem equalsInt_of_integerAt {part key : String} {held : JsonValue F} {n : Int}
    (hfield : fieldAt dict part key = some held) (h : integerAt floats dict part key = some n) :
    equalsInt floats held n = true := by
  rw [integerAt, hfield] at h
  change ((numeric floats held).bind fun x => if x.den = 1 then some x.num else none) = some n at h
  rw [Option.bind_eq_some_iff] at h
  rcases h with ⟨x, hx, hn⟩
  split at hn
  · rename_i hden
    have hnum : x.num = n := Option.some.inj hn
    have hcast : ((n : ℤ) : ℚ) = x := by
      rw [← hnum]
      exact Rat.coe_int_num_of_den_eq_one hden
    rw [equalsInt, hx, hcast]
    exact beq_self_eq_true _
  · cases hn

/-! ## What is detected -/

/-- The payload has its length and holds the integers of the record. -/
def IntegersAgree (floats : FloatFormat F) (dict : JsonValue F) : Prop :=
  ∃ payload, signedPayload dict = some payload ∧ payload.length = 113 ∧
    integerAt floats dict "computation" "output_value" =
      some (signedOfBytes (byteSlice 65 73 payload)) ∧
    integerAt floats dict "computation" "timestamp_utc" =
      some (signedOfBytes (byteSlice 73 81 payload))

/-- The hash of the parameters is the canonical one, and the payload holds the hashes and the
identifier of the record. -/
def HashesAgree (crypto : Crypto) (floats : FloatFormat F) (dict : JsonValue F) : Prop :=
  (∃ params, fieldAt dict "input_params" "params" = some params ∧
    textAt dict "input_params" "params_hash" =
      some (canonicalParamsHashHex crypto floats params)) ∧
  ∃ payload, signedPayload dict = some payload ∧
    hexAt dict "gee_script" "version_hash" = some (byteSlice 1 33 payload) ∧
    hexAt dict "input_params" "params_hash" = some (byteSlice 33 65 payload) ∧
    paddedFeedId dict = some (byteSlice 81 113 payload)

/-- The hash of the parameters is the canonical one, and the payload encodes the fields of the
record. -/
structure Consistent (crypto : Crypto) (floats : FloatFormat F) (dict : JsonValue F) : Prop where
  paramsHash : ∃ params, fieldAt dict "input_params" "params" = some params ∧
    textAt dict "input_params" "params_hash" =
      some (canonicalParamsHashHex crypto floats params)
  payload : ∃ payload, signedPayload dict = some payload ∧ payload.length = 113 ∧
    hexAt dict "gee_script" "version_hash" = some (byteSlice 1 33 payload) ∧
    hexAt dict "input_params" "params_hash" = some (byteSlice 33 65 payload) ∧
    integerAt floats dict "computation" "output_value" =
      some (signedOfBytes (byteSlice 65 73 payload)) ∧
    integerAt floats dict "computation" "timestamp_utc" =
      some (signedOfBytes (byteSlice 73 81 payload)) ∧
    paddedFeedId dict = some (byteSlice 81 113 payload)

/-- A record is consistent when its integers and its digests agree. -/
theorem consistent_iff :
    Consistent crypto floats dict ↔ IntegersAgree floats dict ∧ HashesAgree crypto floats dict := by
  constructor
  · intro h
    rcases h.payload with ⟨payload, hsigned, hlength, hscript, hparams, hvalue, htime, hfeed⟩
    exact ⟨⟨payload, hsigned, hlength, hvalue, htime⟩, h.paramsHash, payload, hsigned, hscript,
      hparams, hfeed⟩
  · intro h
    rcases h with ⟨⟨payload, hsigned, hlength, hvalue, htime⟩, hhash, payload', hsigned', hscript,
      hparams, hfeed⟩
    have hsame : payload' = payload := Option.some.inj (hsigned'.symm.trans hsigned)
    rw [hsame] at hscript hparams hfeed
    exact ⟨hhash, payload, hsigned, hlength, hscript, hparams, hvalue, htime, hfeed⟩

/-- The record has no errors exactly if its integers agree with those in its dictionary. -/
theorem errors_eq_nil_iff (hload : fromDict dict = .ok record)
    (hverify : record.verifyHashes platform crypto = .ok errors) :
    errors = [] ↔ IntegersAgree platform.floats dict := by
  have hloaded := fromDict_eq_ok hload
  rw [verifyHashes_eq_nil hverify, integerErrors_eq_nil]
  constructor
  · intro h
    rcases h with ⟨hlength, hvalue, htime⟩
    exact ⟨_, hloaded.signed, hlength, integerAt_of_equalsInt hloaded.outputValue hvalue,
      integerAt_of_equalsInt hloaded.timestampUtc htime⟩
  · intro h
    rcases h with ⟨payload, hsigned, hlength, hvalue, htime⟩
    have hsame : record.attestationPayloadBytes = payload :=
      Option.some.inj (hloaded.signed.symm.trans hsigned)
    rw [hsame]
    exact ⟨hlength, equalsInt_of_integerAt hloaded.outputValue hvalue,
      equalsInt_of_integerAt hloaded.timestampUtc htime⟩

/-- An inconsistency of the integers is detected, any other one is not. -/
theorem detects_iff (hload : fromDict dict = .ok record)
    (hverify : record.verifyHashes platform crypto = .ok errors) :
    (errors = [] → Consistent crypto platform.floats dict) ↔
      ¬ IntegersAgree platform.floats dict ∨ HashesAgree crypto platform.floats dict := by
  rw [errors_eq_nil_iff hload hverify, consistent_iff]
  constructor
  · intro h
    by_cases hintegers : IntegersAgree platform.floats dict
    · exact Or.inr (h hintegers).2
    · exact Or.inl hintegers
  · intro h hintegers
    rcases h with hnot | hhashes
    · exact absurd hintegers hnot
    · exact ⟨hintegers, hhashes⟩

end Checks

/-! ## A record with a foreign hash -/

/-- The records of the bridge have no errors. -/
theorem verifyHashes_of_vouched {platform : Platform F} {crypto : Crypto}
    {record : ProvenanceRecord F} {dict : JsonValue F}
    {script params feedId publicKey signature : Bytes}
    (hvouched : Vouched crypto record script params feedId publicKey signature)
    (hdict : record.toDict platform crypto = .ok dict) :
    record.loaded.verifyHashes platform crypto = .ok [] := by
  have hloaded := loaded_toDict.trans hdict
  rcases storedHash_toDict hloaded with ⟨ip, hip, hstored⟩
  have hreturns : ∃ errors, record.loaded.verifyHashes platform crypto = .ok errors := by
    unfold LoadedRecord.verifyHashes
    simp only [exceptBind_eq_ok]
    exact ⟨_, dict, hloaded, ip, hip.item, _, hstored.item, rfl⟩
  rcases hreturns with ⟨errors, hverify⟩
  have hbytes : record.loaded.attestationPayloadBytes = record.attestationPayloadBytes := rfl
  obtain ⟨-, -, hvalue, htime, -⟩ := slices_payloadBytes hvouched.script_length
    hvouched.params_length hvouched.feedId_length record.outputValue record.timestampUtc
  rw [← hvouched.payload] at hvalue htime
  have hnil : errors = [] := by
    rw [verifyHashes_eq_nil hverify, integerErrors_eq_nil, hbytes, hvalue, htime,
      signedOfBytes_of_fits hvouched.outputValue_fits,
      signedOfBytes_of_fits hvouched.timestampUtc_fits]
    exact ⟨hvouched.hexLengths.payload, equalsInt_int _ _, equalsInt_int _ _⟩
  rw [hverify, hnil]

/-- The dictionary of the sample with another hash of the parameters stored in it. -/
def dictStoring (paramsHash : Bytes) : JsonValue Unit :=
  .obj [("schema_version", .int 1), ("record_type", .str "single"),
    ("gee_script", (recordNaming sampleScriptHash).geeScript),
    ("input_params", .obj [("params", noParameters.value),
      ("params_hash", .str (hex paramsHash))]),
    ("computation", (recordNaming sampleScriptHash).computationDict "2023-11-14T22:13:20Z"),
    ("attestation", (recordNaming sampleScriptHash).attestationDict),
    ("submission", (recordNaming sampleScriptHash).submission "2023-11-14T22:13:20Z")]

/-- The sample record is loaded. -/
theorem fromDict_dictStoring (paramsHash : Bytes) :
    fromDict (dictStoring paramsHash) = .ok (recordNaming sampleScriptHash).loaded := by
  have hbytes : fromHexValue (F := Unit) (.str (hex samplePayload)) = .ok samplePayload := by
    rw [fromHexValue, fromHex_hex]
  unfold fromDict
  simp only [exceptBind_eq_ok]
  -- the blocks of the dictionary
  refine ⟨_, rfl, _, rfl, _, rfl, _, rfl, _, rfl, ?_⟩
  -- the fields of the script, of the parameters and of the computation
  refine ⟨_, rfl, _, rfl, _, rfl, _, rfl, _, rfl, _, rfl, _, rfl, _, rfl, ?_⟩
  -- the attestation and its payload
  refine ⟨_, rfl, _, rfl, _, rfl, _, hbytes, ?_⟩
  refine ⟨_, rfl, _, rfl, _, rfl, _, rfl, _, rfl, ?_⟩
  rfl

/-- The sample record has no errors. -/
theorem verifyHashes_sample :
    (recordNaming sampleScriptHash).loaded.verifyHashes samplePlatform sampleCrypto = .ok [] := by
  have hdict : (recordNaming sampleScriptHash).toDict samplePlatform sampleCrypto =
      .ok (dictNaming sampleScriptHash) := rfl
  exact verifyHashes_of_vouched (vouched_recordNaming sampleScriptHash) hdict

/-- The dictionary passes the checks of a record whatever hash is stored in it. -/
theorem dictStoring_valid (paramsHash : Bytes) :
    validateProvenanceRecord samplePlatform (dictStoring paramsHash) = .ok () := by
  have hlengths := (vouched_recordNaming sampleScriptHash).hexLengths
  have hpayload : (hex samplePayload).length = 226 := by
    rw [length_hex]
    exact congrArg (2 * ·) hlengths.payload
  have hversion : equalsInt samplePlatform.floats (.int 1) 1 = true := equalsInt_int _ _
  have hlight : lightweightValidate samplePlatform.floats (dictStoring paramsHash) = .ok [] := by
    unfold lightweightValidate
    simp only [exceptBind_eq_ok]
    refine ⟨[], rfl, .int 1, rfl, .str "single", rfl, ?_⟩
    refine ⟨_, rfl, [], rfl, _, rfl, [], rfl, _, rfl, [], rfl, _, rfl, [], rfl, ?_⟩
    refine ⟨_, wrongLength_of_holds (holds_obj rfl) hlengths.publicKey _, ?_⟩
    refine ⟨_, wrongLength_of_holds (holds_obj rfl) hlengths.signature _, ?_⟩
    refine ⟨_, wrongLength_of_holds (holds_obj rfl) hpayload _, ?_⟩
    refine ⟨_, rfl, [], rfl, [], rfl, ?_⟩
    rw [hversion]
    rfl
  rw [validateProvenanceRecord, hlight]
  rfl

/-- The hash of the parameters that is stored in a record can be any. -/
theorem foreign_params_hash_undetected : ¬ ∀ (platform : Platform Unit) (crypto : Crypto)
    (dict : JsonValue Unit) (record : LoadedRecord Unit),
    validateProvenanceRecord platform dict = .ok () → fromDict dict = .ok record →
    record.verifyHashes platform crypto = .ok [] → Consistent crypto platform.floats dict := by
  intro h
  have hconsistent := h samplePlatform sampleCrypto (dictStoring (List.replicate 32 1)) _
    (dictStoring_valid _) (fromDict_dictStoring _) verifyHashes_sample
  rcases hconsistent.payload with ⟨payload, hsigned, -, -, hparams, -⟩
  have hpayload : textAt (dictStoring (List.replicate 32 1)) "attestation" "payload_hex" =
      some (hex samplePayload) := rfl
  have hstored : textAt (dictStoring (List.replicate 32 1)) "input_params" "params_hash" =
      some (hex (List.replicate 32 1)) := rfl
  rw [signedPayload, hexAt, hpayload, Option.bind_some, fromHex_hex, Option.some.injEq] at hsigned
  rw [hexAt, hstored, Option.bind_some, fromHex_hex, Option.some.injEq, ← hsigned,
    samplePayload_slices.2.1] at hparams
  revert hparams
  decide +kernel

/-- The sample record is consistent. -/
theorem sample_consistent :
    Consistent sampleCrypto samplePlatform.floats (dictStoring sampleParamsHash) := by
  have hhashes : HashesAgree sampleCrypto samplePlatform.floats (dictStoring sampleParamsHash) := by
    have hpayload : textAt (dictStoring sampleParamsHash) "attestation" "payload_hex" =
        some (hex samplePayload) := rfl
    have hscript : textAt (dictStoring sampleParamsHash) "gee_script" "version_hash" =
        some (hex sampleScriptHash) := rfl
    have hparams : textAt (dictStoring sampleParamsHash) "input_params" "params_hash" =
        some (hex sampleParamsHash) := rfl
    obtain ⟨hslice, hslice', hslice''⟩ := samplePayload_slices
    refine ⟨⟨noParameters.value, rfl, rfl⟩, samplePayload, ?_, ?_, ?_, ?_⟩
    · rw [signedPayload, hexAt, hpayload, Option.bind_some, fromHex_hex]
    · rw [hexAt, hscript, Option.bind_some, fromHex_hex, hslice]
    · rw [hexAt, hparams, Option.bind_some, fromHex_hex, hslice']
    · rw [hslice'']
      have htext : textAt (dictStoring sampleParamsHash) "computation" "feed_id" =
          some "CBL-EUA" := rfl
      rw [paddedFeedId, htext]
      rfl
  exact (detects_iff (fromDict_dictStoring sampleParamsHash) verifyHashes_sample).mpr
    (Or.inr hhashes) rfl

end OracleBridge
end Kraal
