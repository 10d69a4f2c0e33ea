import Kraal.OracleBridge.Bridge
import Kraal.OracleBridge.Dict

/-!
# Provenance records

The record that is stored for a submission: what it consists of, the dictionary that is written for
it, and the checks that a dictionary has to pass.

Main results:

- Definition {lit}`ProvenanceRecord.toDict`: the dictionary of a record.
- Definition {lit}`validateProvenanceRecord`: the checks of a dictionary.
- Theorem {lit}`lightweightValidate_eq_nil`: what the checks without a schema establish.
- Theorem {lit}`HoldsRecord.lightweightValidate`: the records of single submissions pass them.

Current gaps:

- The texts of the schema validator are not modelled, nor is the schema.
-/

namespace Kraal
namespace OracleBridge

open Foundation

variable {F : Type}

/-- What the bridge takes from its platform: the floating point numbers, the text of a time, and the
schema validator if that is installed. -/
structure Platform (F : Type) where
  floats : FloatFormat F
  utcIso : Int → Except Failure String
  jsonschema : Option (JsonValue F → List String)

/-- A dictionary of JSON values.  No key comes twice in it, at any level. -/
structure JsonDict (F : Type) where
  fields : List (String × JsonValue F)
  keysDistinct : (JsonValue.obj fields).KeysDistinct

/-- A dictionary as a value. -/
def JsonDict.value (dict : JsonDict F) : JsonValue F :=
  .obj dict.fields

/-- The canonical text of parameters. -/
def canonicalText (floats : FloatFormat F) (params : JsonDict F) : Except Failure String :=
  .ok (dumps floats params.value)

/-- The hash of the canonical text of parameters, as text. -/
def canonicalParamsHashHex (crypto : Crypto) (floats : FloatFormat F) (params : JsonValue F) :
    String :=
  hex (sha256 crypto (utf8 (dumps floats params)))

/-! ## Records -/

/-- Everything that is recorded about a submission. -/
structure ProvenanceRecord (F : Type) where
  scriptAssetPath : String
  scriptVersionHash : String
  scriptVersionTag : String
  inputParams : JsonDict F
  outputValue : Int
  feedId : String
  timestampUtc : Int
  attestationPublicKey : String
  attestationSignature : String
  attestationPayloadBytes : Bytes
  recordType : String := "single"
  scriptSourcePreview : Option String := none
  aggregationMetadata : Option (JsonDict F) := none
  submittedAtUtc : Int
  txRef : Option String := none
  ipfsCid : Option String := none

/-- A field for a text, unless there is none or it is empty. -/
def optionalField (key : String) (text : Option String) : List (String × JsonValue F) :=
  match text with
  | some s => if s = "" then [] else [(key, .str s)]
  | none => []

/-- The first characters of a text. -/
def firstCharacters (length : Nat) (text : String) : String :=
  String.ofList (text.toList.take length)

namespace ProvenanceRecord

variable (record : ProvenanceRecord F)

/-- The part of a record about the script. -/
def geeScript : JsonValue F :=
  .obj ([("asset_path", .str record.scriptAssetPath),
    ("version_hash", .str record.scriptVersionHash),
    ("version_tag", .str record.scriptVersionTag)] ++
    optionalField "source_preview" (record.scriptSourcePreview.map (firstCharacters 512)))

/-- The part of a record about the parameters. -/
def inputParamsDict (crypto : Crypto) (floats : FloatFormat F) : JsonValue F :=
  .obj [("params", record.inputParams.value),
    ("params_hash", .str (canonicalParamsHashHex crypto floats record.inputParams.value))]

/-- The part of a record about the computation. -/
def computationDict (timestampIso : String) : JsonValue F :=
  .obj [("output_value", .int record.outputValue), ("feed_id", .str record.feedId),
    ("timestamp_utc", .int record.timestampUtc), ("timestamp_iso", .str timestampIso)]

/-- The part of a record about the attestation. -/
def attestationDict : JsonValue F :=
  .obj [("schema_version", .int 1), ("public_key", .str record.attestationPublicKey),
    ("signature", .str record.attestationSignature),
    ("payload_hex", .str (hex record.attestationPayloadBytes))]

/-- The part of a record about the submission. -/
def submission (submittedAtIso : String) : JsonValue F :=
  .obj ([("submitted_at_iso", .str submittedAtIso),
    ("submitted_at_utc", .int record.submittedAtUtc)] ++
    (optionalField "tx_ref" record.txRef ++ optionalField "ipfs_cid" record.ipfsCid))

/-- The block of an aggregated record, unless it is empty. -/
def aggregation : List (String × JsonValue F) :=
  match record.aggregationMetadata with
  | some metadata =>
      if record.recordType = "aggregated" ∧ metadata.fields ≠ [] then
        [("aggregation", metadata.value)]
      else []
  | none => []

/-- The dictionary that is written for a record. -/
def toDict (platform : Platform F) (crypto : Crypto) : Except Failure (JsonValue F) := do
  let submittedAtIso ← platform.utcIso record.submittedAtUtc
  let timestampIso ← platform.utcIso record.timestampUtc
  return .obj ([("schema_version", .int 1), ("record_type", .str record.recordType),
    ("gee_script", record.geeScript),
    ("input_params", record.inputParamsDict crypto platform.floats),
    ("computation", record.computationDict timestampIso),
    ("attestation", record.attestationDict),
    ("submission", record.submission submittedAtIso)] ++ record.aggregation)

end ProvenanceRecord

/-! ## Validation -/

/-- An exception of the pipeline: the errors of a record, or any other. -/
inductive RecordFailure where
  | validation (errors : List String)
  | other (exc : Failure)
deriving DecidableEq

/-- An error for every key that is not in a value. -/
def missingFields (v : JsonValue F) (text : String) : List String → Except Failure (List String)
  | [] => .ok []
  | key :: keys => do
      let held ← contains v key
      let errors ← missingFields v text keys
      return if held then errors else (text ++ key) :: errors

/-- An error if a text under a key is not of a length. -/
def wrongLength (v : JsonValue F) (key : String) (length : Nat) (message : String) :
    Except Failure (List String) := do
  let held ← contains v key
  if held then
    let found ← item v key
    let actual ← len found
    return if actual = length then [] else [message]
  else return []

/-- The parts that a record must have. -/
def requiredTop : List String :=
  ["schema_version", "record_type", "gee_script", "input_params", "computation", "attestation",
    "submission"]

/-- The errors of the block of an aggregated record. -/
def aggregationErrors (record : JsonValue F) : Except Failure (List String) := do
  let recordType ← get record "record_type" .null
  if equalsText recordType "aggregated" then
    let aggregation ← get record "aggregation" .null
    match aggregation with
    | .null => return ["aggregation block required for aggregated records"]
    | aggregation =>
        missingFields aggregation "Missing aggregation."
          ["method", "outlier_method", "source_values", "weights_used", "rejected_sources"]
  else return []

/-- The checks of a record that need no schema. -/
def lightweightValidate (floats : FloatFormat F) (record : JsonValue F) :
    Except Failure (List String) := do
  let top ← missingFields record "Missing required field: " requiredTop
  let version ← get record "schema_version" .null
  let versionErrors := if equalsInt floats version 1 then [] else ["schema_version must be 1"]
  let recordType ← get record "record_type" .null
  let typeErrors :=
    if equalsText recordType "single" || equalsText recordType "aggregated" then []
    else ["record_type must be 'single' or 'aggregated'"]
  let gs ← get record "gee_script" (.obj [])
  let gsErrors ← missingFields gs "Missing gee_script."
    ["asset_path", "version_hash", "version_tag"]
  let ip ← get record "input_params" (.obj [])
  let ipErrors ← missingFields ip "Missing input_params." ["params", "params_hash"]
  let comp ← get record "computation" (.obj [])
  let compErrors ← missingFields comp "Missing computation."
    ["output_value", "feed_id", "timestamp_utc", "timestamp_iso"]
  let att ← get record "attestation" (.obj [])
  let attErrors ← missingFields att "Missing attestation."
    ["schema_version", "public_key", "signature", "payload_hex"]
  let keyErrors ← wrongLength att "public_key" 64 "attestation.public_key must be 64 hex chars"
  let signatureErrors ←
    wrongLength att "signature" 128 "attestation.signature must be 128 hex chars"
  let payloadErrors ←
    wrongLength att "payload_hex" 226 "attestation.payload_hex must be 226 hex chars"
  let sub ← get record "submission" (.obj [])
  let subErrors ← missingFields sub "Missing submission." ["submitted_at_iso", "submitted_at_utc"]
  let aggErrors ← aggregationErrors record
  return top ++ versionErrors ++ typeErrors ++ gsErrors ++ ipErrors ++ compErrors ++ attErrors ++
    keyErrors ++ signatureErrors ++ payloadErrors ++ subErrors ++ aggErrors

/-- The checks of a record, with the schema if its validator is installed. -/
def validateProvenanceRecord (platform : Platform F) (record : JsonValue F) :
    Except RecordFailure Unit :=
  match lightweightValidate platform.floats record with
  | .error exc => .error (.other exc)
  | .ok [] =>
      match platform.jsonschema with
      | some iterErrors =>
          if iterErrors record = [] then .ok () else .error (.validation (iterErrors record))
      | none => .ok ()
  | .ok errors => .error (.validation errors)

/-! ## What the checks establish -/

theorem missingFields_eq_nil {v : JsonValue F} {text : String} {keys : List String} :
    missingFields v text keys = .ok [] ↔ ∀ key ∈ keys, contains v key = .ok true := by
  induction keys with
  | nil => simp [missingFields]
  | cons key keys ih =>
      rw [missingFields, List.forall_mem_cons, ← ih]
      simp only [exceptBind_eq_ok]
      constructor
      · intro h
        obtain ⟨held, hheld, errors, herrors, hreturn⟩ := h
        cases held with
        | true => exact ⟨hheld, herrors.trans hreturn⟩
        | false => cases hreturn
      · intro h
        exact ⟨true, h.1, [], h.2, rfl⟩

theorem missingFields_cons {v held : JsonValue F} {text key : String} {keys : List String}
    (hkey : Holds v key held) (hkeys : missingFields v text keys = .ok []) :
    missingFields v text (key :: keys) = .ok [] := by
  rw [missingFields, hkey.contains, hkeys]
  rfl

/-- A key that is in a dictionary is read without the default. -/
theorem holds_of_contains {v held default : JsonValue F} {key : String}
    (hcontains : contains v key = .ok true) (hget : get v key default = .ok held) :
    Holds v key held := by
  cases v with
  | obj fields =>
      rw [contains, Except.ok.injEq, Option.isSome_iff_exists] at hcontains
      obtain ⟨found, hfound⟩ := hcontains
      have hholds : Holds (.obj fields) key found := ⟨fields, rfl, hfound⟩
      rw [hholds.get, Except.ok.injEq] at hget
      rw [← hget]
      exact hholds
  | _ => cases hget

/-- The keys that the checks without a schema find. -/
theorem lightweightValidate_eq_nil {floats : FloatFormat F} {record : JsonValue F}
    (h : lightweightValidate floats record = .ok []) :
    (∀ key ∈ requiredTop, contains record key = .ok true) ∧
      ∃ ip, get record "input_params" (.obj []) = .ok ip ∧
        ∀ key ∈ ["params", "params_hash"], contains ip key = .ok true := by
  unfold lightweightValidate at h
  simp only [exceptBind_eq_ok] at h
  obtain ⟨top, htop, version, -, type, -, gs, -, gsErrors, -, ip, hip, ipErrors, hipErrors, h⟩ := h
  obtain ⟨comp, -, compErrors, -, att, -, attErrors, -, keyErrors, -, signatureErrors, -, h⟩ := h
  obtain ⟨payloadErrors, -, sub, -, subErrors, -, aggErrors, -, hreturn⟩ := h
  have hnil := Except.ok.inj hreturn
  simp only [List.append_eq_nil_iff] at hnil
  obtain ⟨⟨⟨⟨⟨⟨⟨⟨⟨⟨⟨rfl, -⟩, -⟩, -⟩, rfl⟩, -⟩, -⟩, -⟩, -⟩, -⟩, -⟩, -⟩ := hnil
  exact ⟨missingFields_eq_nil.mp htop, ip, hip, missingFields_eq_nil.mp hipErrors⟩

/-! ## The dictionary of a record -/

/-- A dictionary has the fields of a record, in some order.  Its parameters have the same text. -/
structure HoldsRecord (crypto : Crypto) (floats : FloatFormat F) (record : ProvenanceRecord F)
    (dict gs ip comp att sub given : JsonValue F) : Prop where
  schemaVersion : Holds dict "schema_version" (.int 1)
  recordType : Holds dict "record_type" (.str record.recordType)
  geeScript : Holds dict "gee_script" gs
  inputParams : Holds dict "input_params" ip
  computation : Holds dict "computation" comp
  attestation : Holds dict "attestation" att
  submission : Holds dict "submission" sub
  assetPath : Holds gs "asset_path" (.str record.scriptAssetPath)
  versionHash : Holds gs "version_hash" (.str record.scriptVersionHash)
  versionTag : Holds gs "version_tag" (.str record.scriptVersionTag)
  sourcePreview : ∀ held, Holds gs "source_preview" held → ∃ text, held = .str text
  params : Holds ip "params" given
  paramsText : dumps floats given = dumps floats record.inputParams.value
  paramsHash : Holds ip "params_hash"
    (.str (canonicalParamsHashHex crypto floats record.inputParams.value))
  outputValue : Holds comp "output_value" (.int record.outputValue)
  feedId : Holds comp "feed_id" (.str record.feedId)
  timestampUtc : Holds comp "timestamp_utc" (.int record.timestampUtc)
  timestampIso : ∃ held, Holds comp "timestamp_iso" held
  attestationVersion : Holds att "schema_version" (.int 1)
  publicKey : Holds att "public_key" (.str record.attestationPublicKey)
  signature : Holds att "signature" (.str record.attestationSignature)
  payloadHex : Holds att "payload_hex" (.str (hex record.attestationPayloadBytes))
  submittedAtIso : ∃ held, Holds sub "submitted_at_iso" held
  submittedAtUtc : ∃ held, Holds sub "submitted_at_utc" held

theorem holds_obj {fields : List (String × JsonValue F)} {key : String} {held : JsonValue F}
    (h : fields.lookup key = some held) : Holds (.obj fields) key held :=
  ⟨fields, rfl, h⟩

section Dictionary

variable {crypto : Crypto} {platform : Platform F} {floats : FloatFormat F}
  {record : ProvenanceRecord F} {dict gs ip comp att sub given : JsonValue F}

theorem optionalField_lookup {key key' : String} {text : Option String} {held : JsonValue F}
    (h : (optionalField key text).lookup key' = some held) : ∃ s, held = .str s := by
  cases text with
  | none => cases h
  | some s =>
      rw [optionalField] at h
      split at h
      · cases h
      · rw [List.lookup_cons] at h
        split at h
        · exact ⟨s, (Option.some.inj h).symm⟩
        · cases h

/-- The dictionary of a record has its fields. -/
theorem holdsRecord_toDict (h : record.toDict platform crypto = .ok dict) :
    ∃ gs ip comp att sub given,
      HoldsRecord crypto platform.floats record dict gs ip comp att sub given := by
  unfold ProvenanceRecord.toDict at h
  simp only [exceptBind_eq_ok] at h
  obtain ⟨submittedAtIso, -, timestampIso, -, hdict⟩ := h
  refine ⟨record.geeScript, record.inputParamsDict crypto platform.floats,
    record.computationDict timestampIso, record.attestationDict, record.submission submittedAtIso,
    record.inputParams.value, ?_⟩
  rw [← Except.ok.inj hdict]
  constructor
  case sourcePreview =>
    intro held hheld
    obtain ⟨fields, hfields, hlookup⟩ := hheld
    rw [← JsonValue.obj.inj hfields] at hlookup
    exact optionalField_lookup hlookup
  case paramsText => rfl
  case timestampIso | submittedAtIso | submittedAtUtc => exact ⟨_, holds_obj rfl⟩
  all_goals exact holds_obj rfl

theorem fst_of_mem_optionalField {key : String} {text : Option String}
    {field : String × JsonValue F} (h : field ∈ optionalField key text) :
    field.1 = key ∧ field.2.KeysDistinct := by
  cases text with
  | none => cases h
  | some s =>
      rw [optionalField] at h
      split at h
      · cases h
      · rw [List.mem_singleton.mp h]
        exact ⟨rfl, .str s⟩

/-- An optional field keeps keys distinct if its key is new. -/
theorem keysDistinct_append_optionalField {fields : List (String × JsonValue F)} {key : String}
    (h : (JsonValue.obj fields).KeysDistinct) (hkey : ∀ field ∈ fields, field.1 ≠ key)
    (text : Option String) : (JsonValue.obj (fields ++ optionalField key text)).KeysDistinct := by
  cases h with
  | obj hnodup hfields =>
      refine .obj ?_ ?_
      · rw [List.map_append, List.nodup_append]
        refine ⟨hnodup, ?_, ?_⟩
        · cases text with
          | none => exact List.nodup_nil
          | some s =>
              rw [optionalField]
              split
              · exact List.nodup_nil
              · exact List.nodup_singleton key
        · intro a ha b hb hab
          obtain ⟨field, hfield, rfl⟩ := List.mem_map.mp ha
          obtain ⟨field', hfield', rfl⟩ := List.mem_map.mp hb
          exact hkey field hfield (hab.trans (fst_of_mem_optionalField hfield').1)
      · intro field hfield
        rcases List.mem_append.mp hfield with hfield | hfield
        · exact hfields field hfield
        · exact (fst_of_mem_optionalField hfield).2

theorem keysDistinct_geeScript (record : ProvenanceRecord F) : record.geeScript.KeysDistinct := by
  apply keysDistinct_append_optionalField
  · refine .obj (by simp) ?_
    simp only [List.forall_mem_cons]
    exact ⟨.str _, .str _, .str _, by simp⟩
  · simp

theorem keysDistinct_submission (record : ProvenanceRecord F) (submittedAtIso : String) :
    (record.submission submittedAtIso).KeysDistinct := by
  unfold ProvenanceRecord.submission
  rw [← List.append_assoc]
  apply keysDistinct_append_optionalField
  · apply keysDistinct_append_optionalField
    · refine .obj (by simp) ?_
      simp only [List.forall_mem_cons]
      exact ⟨.str _, .int _, by simp⟩
    · simp
  · intro field hfield
    rcases List.mem_append.mp hfield with hbase | hoptional
    · simp only [List.mem_cons, List.not_mem_nil, or_false] at hbase
      rcases hbase with rfl | rfl
      · simp
      · simp
    · rw [(fst_of_mem_optionalField hoptional).1]
      decide

theorem aggregation_cases (record : ProvenanceRecord F) :
    record.aggregation = [] ∨
      ∃ metadata : JsonDict F, record.aggregation = [("aggregation", metadata.value)] := by
  unfold ProvenanceRecord.aggregation
  split
  · rename_i metadata _
    split
    · exact Or.inr ⟨metadata, rfl⟩
    · exact Or.inl rfl
  · exact Or.inl rfl

/-- No key comes twice in the dictionary of a record. -/
theorem keysDistinct_toDict (h : record.toDict platform crypto = .ok dict) :
    dict.KeysDistinct := by
  unfold ProvenanceRecord.toDict at h
  simp only [exceptBind_eq_ok] at h
  obtain ⟨submittedAtIso, -, timestampIso, -, hdict⟩ := h
  have hgs := keysDistinct_geeScript record
  have hsub := keysDistinct_submission record submittedAtIso
  have hip : (record.inputParamsDict crypto platform.floats).KeysDistinct := by
    refine .obj (by simp) ?_
    simp only [List.forall_mem_cons]
    exact ⟨record.inputParams.keysDistinct, .str _, by simp⟩
  have hcomp : (record.computationDict (F := F) timestampIso).KeysDistinct := by
    refine .obj (by simp) ?_
    simp only [List.forall_mem_cons]
    exact ⟨.int _, .str _, .int _, .str _, by simp⟩
  have hatt : (record.attestationDict (F := F)).KeysDistinct := by
    refine .obj (by simp) ?_
    simp only [List.forall_mem_cons]
    exact ⟨.int _, .str _, .str _, .str _, by simp⟩
  rw [← Except.ok.inj hdict]
  rcases aggregation_cases record with hnone | ⟨metadata, hmetadata⟩
  · rw [hnone]
    refine .obj (by simp) ?_
    simp only [List.append_nil, List.forall_mem_cons]
    exact ⟨.int _, .str _, hgs, hip, hcomp, hatt, hsub, by simp⟩
  · rw [hmetadata]
    refine .obj (by simp) ?_
    simp only [List.cons_append, List.nil_append, List.forall_mem_cons]
    exact ⟨.int _, .str _, hgs, hip, hcomp, hatt, hsub, metadata.keysDistinct, by simp⟩

/-- The order of the keys does not matter to the fields. -/
theorem HoldsRecord.sortKeys (h : HoldsRecord crypto floats record dict gs ip comp att sub given)
    (hdict : dict.KeysDistinct) :
    HoldsRecord crypto floats record dict.sortKeys gs.sortKeys ip.sortKeys comp.sortKeys
      att.sortKeys sub.sortKeys given.sortKeys := by
  have hgs := h.geeScript.keysDistinct hdict
  have hip := h.inputParams.keysDistinct hdict
  have hcomp := h.computation.keysDistinct hdict
  have hatt := h.attestation.keysDistinct hdict
  have hsub := h.submission.keysDistinct hdict
  constructor
  case sourcePreview =>
    intro held hheld
    obtain ⟨found, hfound, rfl⟩ := holds_of_sortKeys hheld hgs
    obtain ⟨text, rfl⟩ := h.sourcePreview found hfound
    exact ⟨text, rfl⟩
  case paramsText =>
    rw [dumps_sortKeys]
    exact h.paramsText
  case timestampIso =>
    obtain ⟨held, hheld⟩ := h.timestampIso
    exact ⟨_, hheld.sortKeys hcomp⟩
  case submittedAtIso =>
    obtain ⟨held, hheld⟩ := h.submittedAtIso
    exact ⟨_, hheld.sortKeys hsub⟩
  case submittedAtUtc =>
    obtain ⟨held, hheld⟩ := h.submittedAtUtc
    exact ⟨_, hheld.sortKeys hsub⟩
  case schemaVersion => exact h.schemaVersion.sortKeys hdict
  case recordType => exact h.recordType.sortKeys hdict
  case geeScript => exact h.geeScript.sortKeys hdict
  case inputParams => exact h.inputParams.sortKeys hdict
  case computation => exact h.computation.sortKeys hdict
  case attestation => exact h.attestation.sortKeys hdict
  case submission => exact h.submission.sortKeys hdict
  case assetPath => exact h.assetPath.sortKeys hgs
  case versionHash => exact h.versionHash.sortKeys hgs
  case versionTag => exact h.versionTag.sortKeys hgs
  case params => exact h.params.sortKeys hip
  case paramsHash => exact h.paramsHash.sortKeys hip
  case outputValue => exact h.outputValue.sortKeys hcomp
  case feedId => exact h.feedId.sortKeys hcomp
  case timestampUtc => exact h.timestampUtc.sortKeys hcomp
  case attestationVersion => exact h.attestationVersion.sortKeys hatt
  case publicKey => exact h.publicKey.sortKeys hatt
  case signature => exact h.signature.sortKeys hatt
  case payloadHex => exact h.payloadHex.sortKeys hatt

theorem wrongLength_of_holds {v : JsonValue F} {key text : String} {length : Nat}
    (h : Holds v key (.str text)) (hlength : text.length = length) (message : String) :
    wrongLength v key length message = .ok [] := by
  unfold wrongLength
  simp only [exceptBind_eq_ok]
  refine ⟨true, h.contains, ?_⟩
  rw [if_pos rfl]
  simp only [exceptBind_eq_ok]
  exact ⟨_, h.item, _, rfl, by rw [if_pos hlength]; rfl⟩

/-- The texts of an attestation have their lengths. -/
structure HexLengths (record : ProvenanceRecord F) : Prop where
  publicKey : record.attestationPublicKey.length = 64
  signature : record.attestationSignature.length = 128
  payload : record.attestationPayloadBytes.length = 113

/-- The dictionary of a record passes the checks without a schema if it passes those of its type. -/
theorem HoldsRecord.lightweightValidate_of_type
    (h : HoldsRecord crypto floats record dict gs ip comp att sub given)
    (htype : record.recordType = "single" ∨ record.recordType = "aggregated")
    (hagg : aggregationErrors dict = .ok []) (hlengths : HexLengths record) :
    OracleBridge.lightweightValidate floats dict = .ok [] := by
  obtain ⟨timestampIso, hiso⟩ := h.timestampIso
  obtain ⟨submittedAtIso, hsubmittedIso⟩ := h.submittedAtIso
  obtain ⟨submittedAtUtc, hsubmittedUtc⟩ := h.submittedAtUtc
  have htop : missingFields dict "Missing required field: " requiredTop = .ok [] := by
    apply missingFields_cons h.schemaVersion
    apply missingFields_cons h.recordType
    apply missingFields_cons h.geeScript
    apply missingFields_cons h.inputParams
    apply missingFields_cons h.computation
    apply missingFields_cons h.attestation
    exact missingFields_cons h.submission rfl
  have hgs : missingFields gs "Missing gee_script." ["asset_path", "version_hash", "version_tag"] =
      .ok [] := by
    apply missingFields_cons h.assetPath
    apply missingFields_cons h.versionHash
    exact missingFields_cons h.versionTag rfl
  have hip : missingFields ip "Missing input_params." ["params", "params_hash"] = .ok [] := by
    apply missingFields_cons h.params
    exact missingFields_cons h.paramsHash rfl
  have hcomp : missingFields comp "Missing computation."
      ["output_value", "feed_id", "timestamp_utc", "timestamp_iso"] = .ok [] := by
    apply missingFields_cons h.outputValue
    apply missingFields_cons h.feedId
    apply missingFields_cons h.timestampUtc
    exact missingFields_cons hiso rfl
  have hatt : missingFields att "Missing attestation."
      ["schema_version", "public_key", "signature", "payload_hex"] = .ok [] := by
    apply missingFields_cons h.attestationVersion
    apply missingFields_cons h.publicKey
    apply missingFields_cons h.signature
    exact missingFields_cons h.payloadHex rfl
  have hsub : missingFields sub "Missing submission." ["submitted_at_iso", "submitted_at_utc"] =
      .ok [] := by
    apply missingFields_cons hsubmittedIso
    exact missingFields_cons hsubmittedUtc rfl
  have hpayload : (hex record.attestationPayloadBytes).length = 226 := by
    rw [length_hex, hlengths.payload]
  have hknown : (equalsText (.str record.recordType : JsonValue F) "single" ||
      equalsText (.str record.recordType : JsonValue F) "aggregated") = true := by
    rcases htype with htype | htype
    · rw [htype]
      rfl
    · rw [htype]
      rfl
  unfold OracleBridge.lightweightValidate
  simp only [exceptBind_eq_ok]
  refine ⟨_, htop, _, h.schemaVersion.get _, _, h.recordType.get _, _, h.geeScript.get _, _, hgs,
    _, h.inputParams.get _, _, hip, _, h.computation.get _, _, hcomp, _, h.attestation.get _,
    _, hatt, _, wrongLength_of_holds h.publicKey hlengths.publicKey _,
    _, wrongLength_of_holds h.signature hlengths.signature _,
    _, wrongLength_of_holds h.payloadHex hpayload _, _, h.submission.get _, _, hsub, _, hagg, ?_⟩
  have hversion : equalsInt floats (.int 1) 1 = true := by simp [equalsInt, numeric]
  rw [hversion, hknown]
  rfl

/-- The dictionary of the record of a single submission passes the checks without a schema. -/
theorem HoldsRecord.lightweightValidate
    (h : HoldsRecord crypto floats record dict gs ip comp att sub given)
    (hsingle : record.recordType = "single") (hlengths : HexLengths record) :
    lightweightValidate floats dict = .ok [] := by
  have hrecordType := h.recordType
  rw [hsingle] at hrecordType
  apply h.lightweightValidate_of_type (.inl hsingle) _ hlengths
  unfold aggregationErrors
  simp only [exceptBind_eq_ok]
  exact ⟨_, hrecordType.get _, rfl⟩

/-- The block of an aggregated record has the keys that it needs. -/
theorem aggregationErrors_of_holds {block : JsonValue F}
    (htype : Holds dict "record_type" (.str "aggregated")) (hblock : Holds dict "aggregation" block)
    (hkeys : missingFields block "Missing aggregation."
      ["method", "outlier_method", "source_values", "weights_used", "rejected_sources"] = .ok []) :
    aggregationErrors dict = .ok [] := by
  unfold aggregationErrors
  simp only [exceptBind_eq_ok]
  refine ⟨_, htype.get _, ?_⟩
  have haggregated : equalsText (.str "aggregated" : JsonValue F) "aggregated" = true := rfl
  rw [if_pos haggregated]
  simp only [exceptBind_eq_ok]
  refine ⟨block, hblock.get _, ?_⟩
  cases block with
  | null =>
      rw [missingFields] at hkeys
      cases hkeys
  | _ => exact hkeys

/-- An aggregated record has its block in its dictionary. -/
theorem holds_aggregation {metadata : JsonDict F} (htype : record.recordType = "aggregated")
    (hmetadata : record.aggregationMetadata = some metadata) (hfields : metadata.fields ≠ [])
    (h : record.toDict platform crypto = .ok dict) :
    Holds dict "aggregation" metadata.value := by
  unfold ProvenanceRecord.toDict at h
  simp only [exceptBind_eq_ok] at h
  obtain ⟨submittedAtIso, -, timestampIso, -, hdict⟩ := h
  have hblock : record.aggregation = [("aggregation", metadata.value)] := by
    rw [ProvenanceRecord.aggregation, hmetadata]
    exact if_pos ⟨htype, hfields⟩
  rw [← Except.ok.inj hdict, hblock]
  exact holds_obj rfl

end Dictionary

end OracleBridge
end Kraal
