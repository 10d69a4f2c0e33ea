import Kraal.OracleBridge.VerifyHashes

/-!
# Records that are read back

A record is written as a dictionary, pinned as a text and rebuilt from either.  A text that is
empty is not written, a preview is cut off, and the block of an aggregation is written only for
an aggregated record.  What is rebuilt is the rest of the record.  Written again, it has the same
text and so the same content identifier.

Main results:

- Definition {lit}`ProvenanceRecord.kept`: what is written of a record.
- Theorem {lit}`fromDict_of_holds`: what is rebuilt from a dictionary that holds a record.
- Theorem {lit}`record_round_trips`: what becomes of a record that is written and rebuilt.
- Theorem {lit}`params_bound`: which parameters have the same text, and what their hash binds.
-/

namespace Kraal
namespace OracleBridge

open Foundation

variable {F : Type}

/-! ## What is written of a record -/

/-- A text, unless it is empty. -/
def keptText (text : Option String) : Option String :=
  text.filter (· ≠ "")

/-- A dictionary with its keys in order. -/
def JsonDict.sortKeys (dict : JsonDict F) : JsonDict F where
  fields := JsonValue.sortFields dict.fields
  keysDistinct := JsonValue.sortKeys_obj dict.fields ▸ dict.keysDistinct.sortKeys

/-- The value of a dictionary with its keys in order. -/
@[simp]
theorem JsonDict.value_sortKeys (dict : JsonDict F) :
    dict.sortKeys.value = dict.value.sortKeys :=
  (JsonValue.sortKeys_obj dict.fields).symm

namespace ProvenanceRecord

variable (record : ProvenanceRecord F)

/-- The block of an aggregated record, unless it is empty. -/
def keptMetadata : Option (JsonDict F) :=
  record.aggregationMetadata.filter fun metadata =>
    record.recordType = "aggregated" ∧ metadata.fields ≠ []

/-- What is written of a record. -/
def kept : ProvenanceRecord F :=
  { record with
    scriptSourcePreview := keptText (record.scriptSourcePreview.map (firstCharacters 512))
    aggregationMetadata := record.keptMetadata
    txRef := keptText record.txRef
    ipfsCid := keptText record.ipfsCid }

/-- A record with the keys of its dictionaries in order. -/
def sortKeys : ProvenanceRecord F :=
  { record with
    inputParams := record.inputParams.sortKeys
    aggregationMetadata := record.aggregationMetadata.map JsonDict.sortKeys }

/-- Nothing of a record is left out when it is written. -/
structure WrittenInFull : Prop where
  preview : ∀ text, record.scriptSourcePreview = some text → text ≠ "" ∧ text.length ≤ 512
  aggregation : ∀ metadata, record.aggregationMetadata = some metadata →
    record.recordType = "aggregated" ∧ metadata.fields ≠ []
  txRef : record.txRef ≠ some ""
  ipfsCid : record.ipfsCid ≠ some ""

end ProvenanceRecord

/-! ## Optional fields -/

/-- An empty text is not kept. -/
theorem keptText_empty : keptText (some "") = none :=
  rfl

/-- Any other text is kept. -/
theorem keptText_of_ne {text : String} (h : text ≠ "") : keptText (some text) = some text := by
  simp [keptText, h]

/-- A field is written for a text that is kept. -/
theorem optionalField_keptText (key : String) (text : Option String) :
    optionalField (F := F) key (keptText text) = optionalField key text := by
  cases text with
  | none => rfl
  | some s =>
      by_cases hempty : s = ""
      · rw [hempty, keptText_empty]
        rfl
      · rw [keptText_of_ne hempty]

/-- The field of a text that is kept is found. -/
theorem lookup_optionalField (key : String) (text : Option String) :
    (optionalField (F := F) key text).lookup key = (keptText text).map .str := by
  cases text with
  | none => rfl
  | some s =>
      by_cases hempty : s = ""
      · rw [hempty]
        rfl
      · rw [keptText_of_ne hempty, optionalField, if_neg hempty]
        simp

/-- No other field is found there. -/
theorem lookup_optionalField_of_ne {key key' : String} (h : key' ≠ key) (text : Option String) :
    (optionalField (F := F) key text).lookup key' = none := by
  cases text with
  | none => rfl
  | some s =>
      rw [optionalField]
      split
      · rfl
      · rw [List.lookup_cons, beq_eq_false_iff_ne.mpr h]
        rfl

/-- A text, or null. -/
theorem getD_map_str (text : Option String) :
    (text.map (JsonValue.str (F := F))).getD .null = textOrNull text := by
  cases text <;> rfl

/-- What is found under a key with a default does not depend on the order of the keys. -/
theorem get_sortKeys {v held default : JsonValue F} {key : String} (hdistinct : v.KeysDistinct)
    (h : get v key default = .ok held) :
    get v.sortKeys key default.sortKeys = .ok held.sortKeys := by
  cases hdistinct with
  | @obj fields hnodup _ =>
      rw [get, Except.ok.injEq] at h
      rw [JsonValue.sortKeys_obj, get, JsonValue.lookup_sortFields hnodup, ← h]
      cases fields.lookup key <;> rfl
  | _ => cases h

/-- A text has no keys. -/
theorem sortKeys_textOrNull (text : Option String) :
    (textOrNull (F := F) text).sortKeys = textOrNull text := by
  cases text <;> rfl

/-- A block, or nothing. -/
def metadataOrNull : Option (JsonDict F) → JsonValue F
  | some metadata => metadata.value
  | none => .null

/-- The metadata with their keys in order. -/
theorem sortKeys_metadataOrNull (metadata : Option (JsonDict F)) :
    (metadataOrNull metadata).sortKeys = metadataOrNull (metadata.map JsonDict.sortKeys) := by
  cases metadata with
  | none => rfl
  | some metadata => exact metadata.value_sortKeys.symm

/-! ## Rebuilding a record -/

section Rebuilding

variable {platform : Platform F} {crypto : Crypto} {floats : FloatFormat F}
  {record : ProvenanceRecord F} {dict gs ip comp att sub given : JsonValue F}

/-- What is found where a field may be missing. -/
structure OptionalHolds (dict gs sub preview metadata txRef ipfsCid : JsonValue F) : Prop where
  preview : get gs "source_preview" .null = .ok preview
  metadata : get dict "aggregation" .null = .ok metadata
  txRef : get sub "tx_ref" .null = .ok txRef
  ipfsCid : get sub "ipfs_cid" .null = .ok ipfsCid

variable {preview metadata txRef ipfsCid : JsonValue F}

/-- What is rebuilt from a dictionary that holds a record. -/
theorem fromDict_of_holds
    (h : HoldsRecord crypto floats record dict gs ip comp att sub given)
    (hsub : Holds sub "submitted_at_utc" (.int record.submittedAtUtc))
    (hoptional : OptionalHolds dict gs sub preview metadata txRef ipfsCid) :
    fromDict dict = .ok { record.loaded with
      inputParams := given
      scriptSourcePreview := preview
      aggregationMetadata := metadata
      txRef := txRef
      ipfsCid := ipfsCid } := by
  have hpayload : fromHexValue (.str (hex record.attestationPayloadBytes) : JsonValue F) =
      .ok record.attestationPayloadBytes := by
    simp only [fromHexValue, fromHex_hex]
  unfold fromDict
  simp only [exceptBind_eq_ok]
  refine ⟨_, h.submission.item, _, h.attestation.item, _, h.computation.item, _, h.geeScript.item,
    _, h.inputParams.item, ?_⟩
  refine ⟨_, h.assetPath.item, _, h.versionHash.item, _, h.versionTag.item, _, hoptional.preview,
    _, h.params.item, _, h.outputValue.item, _, h.feedId.item, _, h.timestampUtc.item, ?_⟩
  refine ⟨_, h.publicKey.item, _, h.signature.item, _, h.payloadHex.item, _, hpayload,
    _, h.recordType.item, _, hoptional.metadata, _, hsub.item, _, hoptional.txRef,
    _, hoptional.ipfsCid, ?_⟩
  rfl

/-- The metadata that are kept are found. -/
theorem lookup_aggregation (record : ProvenanceRecord F) :
    (record.aggregation.lookup "aggregation").getD .null = metadataOrNull record.keptMetadata := by
  unfold ProvenanceRecord.aggregation ProvenanceRecord.keptMetadata
  cases record.aggregationMetadata with
  | none => rfl
  | some metadata =>
      by_cases hwritten : record.recordType = "aggregated" ∧ metadata.fields ≠ []
      · have hkept : (some metadata).filter (fun metadata : JsonDict F =>
            record.recordType = "aggregated" ∧ metadata.fields ≠ []) = some metadata := by
          rw [Option.filter_some, if_pos (decide_eq_true hwritten)]
        rw [hkept]
        simp only [if_pos hwritten]
        rfl
      · have hdropped : (some metadata).filter (fun metadata : JsonDict F =>
            record.recordType = "aggregated" ∧ metadata.fields ≠ []) = none := by
          rw [Option.filter_some, if_neg (by simpa using hwritten)]
        rw [hdropped]
        simp only [if_neg hwritten]
        rfl

/-- What is found in the dictionary of a record where a field may be missing. -/
theorem optionalHolds_toDict (h : record.toDict platform crypto = .ok dict)
    (hgs : Holds dict "gee_script" gs) (hsub : Holds dict "submission" sub) :
    OptionalHolds dict gs sub (textOrNull record.kept.scriptSourcePreview)
      (metadataOrNull record.kept.aggregationMetadata) (textOrNull record.kept.txRef)
      (textOrNull record.kept.ipfsCid) := by
  unfold ProvenanceRecord.toDict at h
  simp only [exceptBind_eq_ok] at h
  rcases h with ⟨submittedAtIso, -, timestampIso, -, hdict⟩
  obtain rfl := Except.ok.inj hdict
  obtain rfl := hgs.unique (holds_obj rfl)
  obtain rfl := hsub.unique (holds_obj rfl)
  constructor
  case preview =>
    change Except.ok ((List.lookup "source_preview"
      (optionalField "source_preview" _)).getD .null) = _
    rw [lookup_optionalField, getD_map_str]
    rfl
  case metadata =>
    change Except.ok ((record.aggregation.lookup "aggregation").getD .null) = _
    rw [lookup_aggregation]
    rfl
  case txRef =>
    change Except.ok ((List.lookup "tx_ref"
      (optionalField "tx_ref" record.txRef ++ optionalField "ipfs_cid" record.ipfsCid)).getD
        .null) = _
    rw [List.lookup_append, lookup_optionalField,
      lookup_optionalField_of_ne (by decide), Option.or_none, getD_map_str]
    rfl
  case ipfsCid =>
    change Except.ok ((List.lookup "ipfs_cid"
      (optionalField "tx_ref" record.txRef ++ optionalField "ipfs_cid" record.ipfsCid)).getD
        .null) = _
    rw [List.lookup_append, lookup_optionalField,
      lookup_optionalField_of_ne (by decide), Option.none_or, getD_map_str]
    rfl

/-- The parts of the dictionary of a record. -/
theorem parts_toDict (h : record.toDict platform crypto = .ok dict) :
    ∃ gs ip comp att sub,
      HoldsRecord crypto platform.floats record dict gs ip comp att sub
        record.inputParams.value ∧
      Holds sub "submitted_at_utc" (.int record.submittedAtUtc) := by
  rcases holdsRecord_toDict h with ⟨gs, ip, comp, att, sub, given, hholds⟩
  have hsub := hholds.submission
  have hip := hholds.inputParams
  unfold ProvenanceRecord.toDict at h
  simp only [exceptBind_eq_ok] at h
  rcases h with ⟨submittedAtIso, -, timestampIso, -, hdict⟩
  obtain rfl := Except.ok.inj hdict
  obtain rfl := hsub.unique (holds_obj rfl)
  obtain rfl := hip.unique (holds_obj rfl)
  obtain rfl := hholds.params.unique (holds_obj rfl)
  exact ⟨gs, _, comp, att, _, hholds, holds_obj rfl⟩

/-- What is rebuilt from the dictionary of a record is what was written of it. -/
theorem fromDict_toDict (h : record.toDict platform crypto = .ok dict) :
    fromDict dict = .ok record.kept.loaded := by
  rcases parts_toDict h with ⟨gs, ip, comp, att, sub, hholds, hutc⟩
  have hrebuilt := fromDict_of_holds hholds hutc
    (optionalHolds_toDict h hholds.geeScript hholds.submission)
  exact hrebuilt

/-- The same for the dictionary with its keys in order. -/
theorem fromDict_sortKeys (h : record.toDict platform crypto = .ok dict) :
    fromDict dict.sortKeys = .ok record.kept.sortKeys.loaded := by
  have hdistinct := keysDistinct_toDict h
  rcases parts_toDict h with ⟨gs, ip, comp, att, sub, hholds, hutc⟩
  have hgs := hholds.geeScript.keysDistinct hdistinct
  have hsub := hholds.submission.keysDistinct hdistinct
  have hoptional := optionalHolds_toDict h hholds.geeScript hholds.submission
  have hsorted : OptionalHolds dict.sortKeys gs.sortKeys sub.sortKeys
      (textOrNull record.kept.scriptSourcePreview)
      (metadataOrNull (record.kept.aggregationMetadata.map JsonDict.sortKeys))
      (textOrNull record.kept.txRef) (textOrNull record.kept.ipfsCid) := by
    constructor
    · rw [← sortKeys_textOrNull]
      exact get_sortKeys hgs hoptional.preview
    · rw [← sortKeys_metadataOrNull]
      exact get_sortKeys hdistinct hoptional.metadata
    · rw [← sortKeys_textOrNull]
      exact get_sortKeys hsub hoptional.txRef
    · rw [← sortKeys_textOrNull]
      exact get_sortKeys hsub hoptional.ipfsCid
  have hrebuilt := fromDict_of_holds (hholds.sortKeys hdistinct) (hutc.sortKeys hsub) hsorted
  rw [← JsonDict.value_sortKeys] at hrebuilt
  exact hrebuilt

/-! ## Writing what was rebuilt -/

/-- A text that was cut is not cut again. -/
theorem firstCharacters_firstCharacters (length : Nat) (text : String) :
    firstCharacters length (firstCharacters length text) = firstCharacters length text := by
  simp [firstCharacters, List.take_take]

/-- What is kept of a record has the same script. -/
theorem kept_geeScript (record : ProvenanceRecord F) :
    record.kept.geeScript = record.geeScript := by
  have hpreview : optionalField (F := F) "source_preview"
      ((keptText (record.scriptSourcePreview.map (firstCharacters 512))).map
        (firstCharacters 512)) =
      optionalField "source_preview" (record.scriptSourcePreview.map (firstCharacters 512)) := by
    cases record.scriptSourcePreview with
    | none => rfl
    | some s =>
        rw [Option.map_some]
        by_cases hempty : firstCharacters 512 s = ""
        · rw [hempty]
          rfl
        · rw [keptText_of_ne hempty, Option.map_some, firstCharacters_firstCharacters]
  simp only [ProvenanceRecord.geeScript, ProvenanceRecord.kept, hpreview]

/-- What is kept of a record has the same submission. -/
theorem kept_submission (record : ProvenanceRecord F) (submittedAtIso : String) :
    record.kept.submission submittedAtIso = record.submission submittedAtIso := by
  simp only [ProvenanceRecord.submission, ProvenanceRecord.kept, optionalField_keptText]

/-- What is kept of a record has the same metadata. -/
theorem kept_aggregation (record : ProvenanceRecord F) :
    record.kept.aggregation = record.aggregation := by
  unfold ProvenanceRecord.aggregation ProvenanceRecord.kept ProvenanceRecord.keptMetadata
  cases record.aggregationMetadata with
  | none => rfl
  | some metadata =>
      by_cases hwritten : record.recordType = "aggregated" ∧ metadata.fields ≠ []
      · rw [Option.filter_some, if_pos (decide_eq_true hwritten)]
      · rw [Option.filter_some, if_neg (by simpa using hwritten)]
        simp only [if_neg hwritten]

/-- What is written of a record is written as the record is. -/
theorem kept_toDict (record : ProvenanceRecord F) :
    record.kept.toDict platform crypto = record.toDict platform crypto := by
  unfold ProvenanceRecord.toDict
  rw [kept_geeScript, kept_aggregation]
  simp only [kept_submission]
  rfl

/-- Objects whose fields are the same up to the order of keys within them are the same up to that
order. -/
theorem sortKeys_obj_congr {fields fields' : List (String × JsonValue F)}
    (h : fields.map JsonValue.sortField = fields'.map JsonValue.sortField) :
    (JsonValue.obj fields).sortKeys = (JsonValue.obj fields').sortKeys := by
  rw [JsonValue.sortKeys_obj, JsonValue.sortKeys_obj, JsonValue.sortFields, h,
    JsonValue.sortFields]

/-- The parameters may be put in order before or after. -/
theorem sortKeys_inputParamsDict (record : ProvenanceRecord F) :
    (record.sortKeys.inputParamsDict crypto floats).sortKeys =
      (record.inputParamsDict crypto floats).sortKeys := by
  have hhash : canonicalParamsHashHex crypto floats record.inputParams.value.sortKeys =
      canonicalParamsHashHex crypto floats record.inputParams.value := by
    rw [canonicalParamsHashHex, dumps_sortKeys, canonicalParamsHashHex]
  apply sortKeys_obj_congr
  simp only [ProvenanceRecord.sortKeys, JsonDict.value_sortKeys, hhash, List.map_cons,
    List.map_nil, JsonValue.sortField, JsonValue.sortKeys_sortKeys]

/-- The metadata may be put in order before or after. -/
theorem sortKeys_aggregation (record : ProvenanceRecord F) :
    record.sortKeys.aggregation.map JsonValue.sortField =
      record.aggregation.map JsonValue.sortField := by
  have hempty : ∀ metadata : JsonDict F, metadata.sortKeys.fields = [] ↔ metadata.fields = [] := by
    intro metadata
    have hlength : metadata.sortKeys.fields.length = metadata.fields.length := by
      have hperm := (JsonValue.sortFields_perm metadata.fields).length_eq
      rw [List.length_map] at hperm
      exact hperm
    rw [← List.length_eq_zero_iff, hlength, List.length_eq_zero_iff]
  unfold ProvenanceRecord.aggregation ProvenanceRecord.sortKeys
  cases record.aggregationMetadata with
  | none => rfl
  | some metadata =>
      rw [Option.map_some]
      simp only [ne_eq, hempty]
      split
      · simp [JsonValue.sortField, JsonValue.sortKeys_sortKeys]
      · rfl

/-- A record whose keys were put in order is written with the same text. -/
theorem sortKeys_toDict (h : record.toDict platform crypto = .ok dict) :
    ∃ dict', record.sortKeys.toDict platform crypto = .ok dict' ∧
      dict'.sortKeys = dict.sortKeys := by
  unfold ProvenanceRecord.toDict at h ⊢
  simp only [exceptBind_eq_ok] at h ⊢
  rcases h with ⟨submittedAtIso, hsubmitted, timestampIso, htimestamp, hdict⟩
  obtain rfl := Except.ok.inj hdict
  refine ⟨_, ⟨submittedAtIso, hsubmitted, timestampIso, htimestamp, rfl⟩, ?_⟩
  apply sortKeys_obj_congr
  rw [List.map_append, sortKeys_aggregation, List.map_append]
  simp only [List.map_cons, List.map_nil, JsonValue.sortField, sortKeys_inputParamsDict]
  rfl

/-! ## Records that are written in full -/

/-- Which texts are kept. -/
theorem keptText_eq_self {text : Option String} : keptText text = text ↔ text ≠ some "" := by
  cases text with
  | none => simp [keptText]
  | some s =>
      by_cases hempty : s = ""
      · rw [hempty, keptText_empty]
        simp
      · rw [keptText_of_ne hempty]
        simp [hempty]

/-- Which texts are not cut. -/
theorem firstCharacters_eq_self {length : Nat} {text : String} :
    firstCharacters length text = text ↔ text.length ≤ length := by
  rw [firstCharacters, ← String.toList_inj, String.toList_ofList, List.take_eq_self_iff,
    String.length_toList]

/-- A preview is kept as it is if it is neither empty nor too long. -/
theorem keptPreview_eq_self {text : Option String} :
    keptText (text.map (firstCharacters 512)) = text ↔
      ∀ s, text = some s → s ≠ "" ∧ s.length ≤ 512 := by
  cases text with
  | none => simp [keptText]
  | some s =>
      rw [Option.map_some]
      by_cases hempty : s = ""
      · have hfirst := (firstCharacters_eq_empty (by decide : 0 < 512)).mpr hempty
        rw [hfirst, keptText_empty]
        simp [hempty]
      · have hfirst := mt (firstCharacters_eq_empty (by decide : 0 < 512)).mp hempty
        rw [keptText_of_ne hfirst, Option.some.injEq, firstCharacters_eq_self]
        simp [hempty]

/-- Which metadata are kept. -/
theorem keptMetadata_eq_self {record : ProvenanceRecord F} :
    record.keptMetadata = record.aggregationMetadata ↔
      ∀ metadata, record.aggregationMetadata = some metadata →
        record.recordType = "aggregated" ∧ metadata.fields ≠ [] := by
  unfold ProvenanceRecord.keptMetadata
  cases record.aggregationMetadata with
  | none => simp
  | some metadata => simp [Option.filter_some]

/-- A record is kept as it is exactly if it is written in full. -/
theorem kept_eq_self {record : ProvenanceRecord F} :
    record.kept = record ↔ record.WrittenInFull := by
  constructor
  · intro h
    constructor
    · exact keptPreview_eq_self.mp (congrArg ProvenanceRecord.scriptSourcePreview h)
    · exact keptMetadata_eq_self.mp (congrArg ProvenanceRecord.aggregationMetadata h)
    · exact keptText_eq_self.mp (congrArg ProvenanceRecord.txRef h)
    · exact keptText_eq_self.mp (congrArg ProvenanceRecord.ipfsCid h)
  · intro h
    unfold ProvenanceRecord.kept
    rw [keptPreview_eq_self.mpr h.preview, keptMetadata_eq_self.mpr h.aggregation,
      keptText_eq_self.mpr h.txRef, keptText_eq_self.mpr h.ipfsCid]

/-- A text differs from null and from other texts. -/
theorem textOrNull_injective : Function.Injective (textOrNull (F := F)) := by
  intro text text' h
  cases text with
  | none =>
      cases text' with
      | none => rfl
      | some s' => cases h
  | some s =>
      cases text' with
      | none => cases h
      | some s' => rw [JsonValue.str.inj h]

/-- Metadata differ from null and from other metadata. -/
theorem metadataOrNull_injective : Function.Injective (metadataOrNull (F := F)) := by
  intro metadata metadata' h
  cases metadata with
  | none =>
      cases metadata' with
      | none => rfl
      | some _ => cases h
  | some metadata =>
      cases metadata' with
      | none => cases h
      | some metadata' =>
          rcases metadata with ⟨fields, hfields⟩
          rcases metadata' with ⟨fields', hfields'⟩
          obtain rfl := JsonValue.obj.inj h
          rfl

/-- What is kept of a record has its values exactly if nothing is left out. -/
theorem kept_loaded_eq {record : ProvenanceRecord F} :
    record.kept.loaded = record.loaded ↔ record.WrittenInFull := by
  rw [← kept_eq_self]
  constructor
  · intro h
    have hpreview := textOrNull_injective (congrArg LoadedRecord.scriptSourcePreview h)
    have hmetadata := metadataOrNull_injective (congrArg LoadedRecord.aggregationMetadata h)
    have htxRef := textOrNull_injective (congrArg LoadedRecord.txRef h)
    have hipfsCid := textOrNull_injective (congrArg LoadedRecord.ipfsCid h)
    change keptText _ = _ at hpreview htxRef hipfsCid
    change record.keptMetadata = _ at hmetadata
    unfold ProvenanceRecord.kept
    rw [hpreview, hmetadata, htxRef, hipfsCid]
  · intro h
    rw [h]

/-! ## The round trip -/

/-- What becomes of a record that is written and rebuilt. -/
structure RoundTrip (platform : Platform F) (crypto : Crypto) (record : ProvenanceRecord F)
    (dict : JsonValue F) : Prop where
  /-- The dictionary holds what is kept of the record. -/
  rebuilt : fromDict dict = .ok record.kept.loaded
  /-- The record comes back as it was exactly if it is written in full. -/
  faithful : fromDict dict = .ok record.loaded ↔ record.WrittenInFull
  /-- What is kept is written alike. -/
  rewritten : record.kept.loaded.toDict platform crypto = .ok dict
  /-- The text holds the same, up to the order of keys, and is written again as it was. -/
  reread : ∃ read dict', loads platform.floats (dumps platform.floats dict) = some read ∧
    fromDict read = .ok record.kept.sortKeys.loaded ∧
    record.kept.sortKeys.loaded.toDict platform crypto = .ok dict' ∧
    dumps platform.floats dict' = dumps platform.floats dict

/-- A record that is written is rebuilt, but for what is not written, and written again with the
same text. -/
theorem record_round_trips (hfloats : platform.floats.Regular)
    (h : record.toDict platform crypto = .ok dict) : RoundTrip platform crypto record dict where
  rebuilt := fromDict_toDict h
  faithful := by
    rw [fromDict_toDict h, Except.ok.injEq]
    exact kept_loaded_eq
  rewritten := by
    rw [loaded_toDict, kept_toDict]
    exact h
  reread := by
    have hkept : record.kept.toDict platform crypto = .ok dict := by
      rw [kept_toDict]
      exact h
    rcases sortKeys_toDict hkept with ⟨dict', hdict', hsame⟩
    refine ⟨dict.sortKeys, dict', loads_dumps hfloats (keysDistinct_toDict h),
      fromDict_sortKeys h, ?_, ?_⟩
    · rw [loaded_toDict]
      exact hdict'
    · rw [← dumps_sortKeys platform.floats dict', hsame, dumps_sortKeys]

end Rebuilding

/-- A record of a single submission that was not pinned yet, with a block that is not written. -/
def sampleRecord : ProvenanceRecord Unit where
  scriptAssetPath := "users/oracle/scripts/carbon_sequestration"
  scriptVersionHash := "00"
  scriptVersionTag := "untagged"
  inputParams := ⟨sampleFields, sampleFields_keysDistinct⟩
  outputValue := -5
  feedId := "CBL-EUA"
  timestampUtc := 1700000000
  attestationPublicKey := "07"
  attestationSignature := "07"
  attestationPayloadBytes := [1]
  scriptSourcePreview := some "return -5;"
  aggregationMetadata := some ⟨sampleFields, sampleFields_keysDistinct⟩
  submittedAtUtc := 1700000000
  ipfsCid := some ""

theorem sampleRecord_round_trips :
    ∃ dict, sampleRecord.toDict samplePlatform sampleCrypto = .ok dict ∧
      RoundTrip samplePlatform sampleCrypto sampleRecord dict :=
  ⟨_, rfl, record_round_trips samplePlatform_regular rfl⟩

/-! ## The hash of the parameters -/

/-- Two texts with the same hash. -/
def Collision (crypto : Crypto) (text text' : String) : Prop :=
  text ≠ text' ∧ sha256 crypto (utf8 text) = sha256 crypto (utf8 text')

/-- Parameters have the same canonical text exactly if they are the same up to the order of keys.
If they are not and have the same hash, then their texts are a collision. -/
theorem params_bound {floats : FloatFormat F} (hfloats : floats.Regular) (crypto : Crypto)
    (params params' : JsonDict F) :
    (canonicalText floats params = canonicalText floats params' ↔
      params.value.Reordered params'.value) ∧
    (canonicalParamsHash crypto (canonicalText floats) params =
        canonicalParamsHash crypto (canonicalText floats) params' ↔
      params.value.Reordered params'.value ∨
        Collision crypto (dumps floats params.value) (dumps floats params'.value)) := by
  have htext := dumps_eq_iff hfloats params.keysDistinct params'.keysDistinct
  have hhash : ∀ params : JsonDict F, canonicalParamsHash crypto (canonicalText floats) params =
      .ok (sha256 crypto (utf8 (dumps floats params.value))) := fun _ => rfl
  refine ⟨?_, ?_⟩
  · rw [canonicalText, canonicalText, Except.ok.injEq]
    exact htext
  · rw [hhash, hhash, Except.ok.injEq]
    constructor
    · intro h
      by_cases hsame : dumps floats params.value = dumps floats params'.value
      · exact .inl (htext.mp hsame)
      · exact .inr ⟨hsame, h⟩
    · intro h
      rcases h with hreordered | hcollision
      · have hsame := htext.mpr hreordered
        change dumps floats params.value = dumps floats params'.value at hsame
        rw [hsame]
      · exact hcollision.2

/-- The parameters of the sample in the other order. -/
def swappedFields : List (String × JsonValue Unit) :=
  [("scale", .int 30), ("startDate", .str "2024-01-01")]

/-- No key comes twice in the parameters. -/
theorem swappedFields_keysDistinct : (JsonValue.obj swappedFields).KeysDistinct := by
  refine .obj (by decide) ?_
  simp only [swappedFields, List.forall_mem_cons]
  exact ⟨.int _, .str _, by simp⟩

theorem sampleFields_bound :
    (canonicalText samplePlatform.floats ⟨sampleFields, sampleFields_keysDistinct⟩ =
        canonicalText samplePlatform.floats ⟨swappedFields, swappedFields_keysDistinct⟩ ↔
      (JsonValue.obj sampleFields).Reordered (.obj swappedFields)) ∧
    (canonicalParamsHash sampleCrypto (canonicalText samplePlatform.floats)
          ⟨sampleFields, sampleFields_keysDistinct⟩ =
        canonicalParamsHash sampleCrypto (canonicalText samplePlatform.floats)
          ⟨swappedFields, swappedFields_keysDistinct⟩ ↔
      (JsonValue.obj sampleFields).Reordered (.obj swappedFields) ∨
        Collision sampleCrypto (dumps samplePlatform.floats (.obj sampleFields))
          (dumps samplePlatform.floats (.obj swappedFields))) :=
  params_bound samplePlatform_regular sampleCrypto ⟨sampleFields, sampleFields_keysDistinct⟩
    ⟨swappedFields, swappedFields_keysDistinct⟩

end OracleBridge
end Kraal
