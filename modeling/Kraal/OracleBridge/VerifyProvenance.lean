import Kraal.OracleBridge.ProvenanceRecord

/-!
# Verifying provenance records

The operator's command that verifies a record.  Of the payload it compares the first byte and the
two integers with the record.  The hash of the script, the hash of the parameters and the identifier
of the feed in the payload are not compared with those of the record.

Main results:

- Definition {lit}`cmdVerify`: the command.
- Theorem {lit}`cmdVerify_eq_zero`: what a record that passes is known to hold.
- Theorem {lit}`signsOwnFields_iff`: which records that pass have signed what they say.
- Theorem {lit}`foreign_script_verifies`: a record about another script passes.

Current gaps:

- What the command prints is not modelled, nor how it fetches a record by its identifier.
-/

namespace Kraal
namespace OracleBridge

open Foundation

variable {F : Type}

/-! ## The checks -/

/-- The bytes of hexadecimal text that is read from a record. -/
def fromHexValue : JsonValue F → Except Failure Bytes
  | .str s =>
      match fromHex s with
      | some bytes => .ok bytes
      | none => .error ⟨"ValueError", "non-hexadecimal number found in fromhex() arg"⟩
  | v => .error (typeError ("fromhex() argument must be str, not " ++ typeName v))

/-- The bytes of a payload from one place up to another. -/
def byteSlice (start stop : Nat) (payload : Bytes) : Bytes :=
  (payload.drop start).take (stop - start)

/-- Whether the hash of the script is that of its preview, if there is one. -/
def verifyScriptHash (crypto : Crypto) (floats : FloatFormat F) (record : JsonValue F) :
    Except Failure (Option Bool) := do
  let gs ← get record "gee_script" (.obj [])
  let storedHash ← get gs "version_hash" (.str "")
  let preview ← get gs "source_preview" (.str "")
  if truthy floats preview then
    match preview with
    | .str source => return some (equalsText storedHash (hex (sha256 crypto (utf8 source))))
    | preview => .error ⟨"AttributeError", "'" ++ typeName preview ++
        "' object has no attribute 'encode'"⟩
  else return none

/-- Whether the hash of the parameters is that of their canonical text. -/
def verifyParamsHash (crypto : Crypto) (floats : FloatFormat F) (record : JsonValue F) :
    Except Failure Bool := do
  let ip ← get record "input_params" (.obj [])
  let stored ← get ip "params_hash" (.str "")
  let params ← get ip "params" (.obj [])
  return equalsText stored (canonicalParamsHashHex crypto floats params)

/-- What is wrong with a payload, with what it holds and what the record says. -/
inductive PayloadError (F : Type) where
  | payloadHexLength (length : Nat)
  | outputValue (stored : Int) (expected : JsonValue F)
  | timestamp (stored : Int) (expected : JsonValue F)
  | schemaVersion (stored : Nat)

/-- The errors of the payload.  Its bytes from 1 to 65 and from 81 on are not looked at. -/
def verifyPayloadFields (floats : FloatFormat F) (record : JsonValue F) :
    Except Failure (List (PayloadError F)) := do
  let att ← get record "attestation" (.obj [])
  let comp ← get record "computation" (.obj [])
  let payloadHex ← get att "payload_hex" (.str "")
  let length ← len payloadHex
  if length = 226 then
    let payload ← fromHexValue payloadHex
    let storedOv := signedOfBytes (byteSlice 65 73 payload)
    let expectedOv ← get comp "output_value" .null
    let storedTs := signedOfBytes (byteSlice 73 81 payload)
    let expectedTs ← get comp "timestamp_utc" .null
    match payload.head? with
    | some version =>
        return (if equalsInt floats expectedOv storedOv then []
            else [.outputValue storedOv expectedOv]) ++
          ((if equalsInt floats expectedTs storedTs then []
            else [.timestamp storedTs expectedTs]) ++
          (if version = 1 then [] else [.schemaVersion version.toNat]))
    | none => .error ⟨"IndexError", "index out of range"⟩
  else return [.payloadHexLength length]

/-- The key, the signature and the payload of an attestation. -/
def decodeAttestation (att : JsonValue F) : Except Failure (Bytes × Bytes × Bytes) := do
  let publicKey ← item att "public_key"
  let pubkeyBytes ← fromHexValue publicKey
  let signature ← item att "signature"
  let sigBytes ← fromHexValue signature
  let payloadHex ← item att "payload_hex"
  let payloadBytes ← fromHexValue payloadHex
  return (pubkeyBytes, sigBytes, payloadBytes)

/-- Whether the signature of the attestation is valid under its own key. -/
def verifySignature (crypto : Crypto) (record : JsonValue F) : Except Failure Bool := do
  let att ← get record "attestation" (.obj [])
  match decodeAttestation att with
  | .ok (pubkeyBytes, sigBytes, payloadBytes) =>
      return pubkeyBytes.length = 32 &&
        crypto.ed25519Verify ⟨pubkeyBytes⟩ payloadBytes ⟨sigBytes⟩
  | .error exc =>
      if exc.typeName = "KeyError" ∨ exc.typeName = "ValueError" then return false
      else .error exc

/-! ## The command -/

/-- What is loaded for the command. -/
inductive Loaded (F : Type) where
  | record (v : JsonValue F)
  | notFound
  | invalidJson

/-- Load a record from a file, if there is one. -/
def loadFromFile (floats : FloatFormat F) (file : Option Bytes) : Except Failure (Loaded F) :=
  match file with
  | none => .ok .notFound
  | some bytes =>
      match decodeUtf8 bytes with
      | none => .error ⟨"UnicodeDecodeError", "invalid start byte"⟩
      | some text =>
          match loads floats text with
          | some v => .ok (.record v)
          | none => .ok .invalidJson

section Command

variable (platform : Platform F) (crypto : Crypto)

/-- Whether a record conforms to the schema. -/
def conforms (record : JsonValue F) : Except Failure Bool :=
  match validateProvenanceRecord platform record with
  | .ok () => .ok true
  | .error (.validation _) => .ok false
  | .error (.other exc) => .error exc

/-- Check the hash of the parameters, and find the text that is printed about it. -/
def checkParamsHash (record : JsonValue F) : Except Failure Bool := do
  let matched ← verifyParamsHash crypto platform.floats record
  if matched then
    let ip ← item record "input_params"
    let hash ← item ip "params_hash"
    let _ ← slice hash 16
    return true
  else
    let ip ← get record "input_params" (.obj [])
    let stored ← get ip "params_hash" (.str "N/A")
    let _ ← slice stored 16
    return false

/-- Look at the hash of the script.  The verdict does not depend on it. -/
def checkScriptHash (record : JsonValue F) : Except Failure Unit := do
  let gs ← get record "gee_script" (.obj [])
  let preview ← get gs "source_preview" .null
  if truthy platform.floats preview then
    let _ ← verifyScriptHash crypto platform.floats record
    return ()
  else
    let _ ← get gs "asset_path" (.str "N/A")
    let _ ← get gs "version_tag" (.str "N/A")
    return ()

/-- Check the signature, or find the text that is printed instead. -/
def checkSignature (record : JsonValue F) (checkSig : Bool) : Except Failure Bool := do
  if checkSig then verifySignature crypto record
  else
    let att ← get record "attestation" (.obj [])
    let publicKey ← get att "public_key" (.str "N/A")
    let _ ← slice publicKey 32
    return true

/-- The verification of a record: the exit code of the command. -/
def verifyRecord (record : JsonValue F) (checkSig : Bool) : Except Failure Nat := do
  let schemaOk ← conforms platform record
  let paramsOk ← checkParamsHash platform crypto record
  let payloadErrors ← verifyPayloadFields platform.floats record
  checkScriptHash platform crypto record
  let signatureOk ← checkSignature crypto record checkSig
  return if schemaOk && paramsOk && payloadErrors.isEmpty && signatureOk then 0 else 1

/-- The exit code for what is loaded. -/
def cmdVerify (loaded : Loaded F) (checkSig : Bool) : Except Failure Nat :=
  match loaded with
  | .record v => verifyRecord platform crypto v checkSig
  | .notFound => .ok 2
  | .invalidJson => .ok 3

end Command

/-! ## What a payload is to be -/

/-- The value under a key of a section of a record. -/
def fieldAt (record : JsonValue F) (part key : String) : Option (JsonValue F) :=
  match record with
  | .obj fields =>
      match fields.lookup part with
      | some (.obj inner) => inner.lookup key
      | _ => none
  | _ => none

/-- The text under a key of a part, if it is one. -/
def textAt (record : JsonValue F) (part key : String) : Option String :=
  match fieldAt record part key with
  | some (.str s) => some s
  | _ => none

/-- The bytes under a key of a part, if they can be read. -/
def hexAt (record : JsonValue F) (part key : String) : Option Bytes :=
  (textAt record part key).bind fromHex

/-- The integer under a key, however the number is written. -/
def integerAt (floats : FloatFormat F) (record : JsonValue F) (part key : String) :
    Option Int := do
  let v ← fieldAt record part key
  let x ← numeric floats v
  if x.den = 1 then return x.num else none

/-- The payload that is signed. -/
def signedPayload (record : JsonValue F) : Option Bytes :=
  hexAt record "attestation" "payload_hex"

/-- The identifier of the feed of a record, filled up with zeros. -/
def paddedFeedId (record : JsonValue F) : Option Bytes := do
  let feedId ← textAt record "computation" "feed_id"
  (padFeedId (.text feedId)).toOption

/-- The payload that is rebuilt from the fields of a record. -/
def rebuiltPayload (floats : FloatFormat F) (record : JsonValue F) : Option Bytes := do
  let script ← hexAt record "gee_script" "version_hash"
  let params ← hexAt record "input_params" "params_hash"
  let value ← integerAt floats record "computation" "output_value"
  let time ← integerAt floats record "computation" "timestamp_utc"
  let feedId ← paddedFeedId record
  (buildCanonicalPayload 1 script params value time feedId).toOption

/-- What a record has signed is the payload of its own fields. -/
structure SignsOwnFields (crypto : Crypto) (floats : FloatFormat F) (record : JsonValue F) :
    Prop where
  /-- The hash of the parameters is the canonical one. -/
  paramsHash : ∃ params, fieldAt record "input_params" "params" = some params ∧
    textAt record "input_params" "params_hash" =
      some (canonicalParamsHashHex crypto floats params)
  /-- The payload is the one that is rebuilt, and its signature is valid. -/
  payload : ∃ payload publicKey signature, signedPayload record = some payload ∧
    rebuiltPayload floats record = some payload ∧
    hexAt record "attestation" "public_key" = some publicKey ∧
    hexAt record "attestation" "signature" = some signature ∧
    crypto.ed25519Verify ⟨publicKey⟩ payload ⟨signature⟩ = true

/-- The bytes of the payload that the command does not compare are those of the record. -/
structure OwnSlices (record : JsonValue F) : Prop where
  scriptHash : ∃ payload script, signedPayload record = some payload ∧
    hexAt record "gee_script" "version_hash" = some script ∧
    byteSlice 1 33 payload = ljust 32 (script.take 32)
  paramsHash : ∃ payload params, signedPayload record = some payload ∧
    hexAt record "input_params" "params_hash" = some params ∧
    byteSlice 33 65 payload = ljust 32 (params.take 32)
  feedId : ∃ payload feedId, signedPayload record = some payload ∧
    paddedFeedId record = some feedId ∧ byteSlice 81 113 payload = feedId

/-! ## What the checks establish -/

/-- A field of a part is held by the part that the record holds. -/
theorem fieldAt_eq_some {record held : JsonValue F} {part key : String} :
    fieldAt record part key = some held ↔
      ∃ inner, Holds record part inner ∧ Holds inner key held := by
  constructor
  · intro h
    unfold fieldAt at h
    split at h
    · rename_i fields
      split at h
      · rename_i inner hinner
        exact ⟨.obj inner, holds_obj hinner, holds_obj h⟩
      · cases h
    · cases h
  · intro h
    obtain ⟨inner, ⟨fields, rfl, hfields⟩, ⟨innerFields, rfl, hinner⟩⟩ := h
    rw [fieldAt, hfields]
    exact hinner

/-- A text is a field that is one. -/
theorem textAt_eq_some {record : JsonValue F} {part key text : String} :
    textAt record part key = some text ↔ fieldAt record part key = some (.str text) := by
  unfold textAt
  split
  · rename_i s hfield
    rw [hfield, Option.some.injEq, Option.some.injEq, JsonValue.str.injEq]
  · rename_i hfield
    exact iff_of_false (by simp) (hfield text)

/-- Digits that are held are read. -/
theorem hexAt_of_holds {record inner : JsonValue F} {part key : String} {bytes : Bytes}
    (hinner : Holds record part inner) (hheld : Holds inner key (.str (hex bytes))) :
    hexAt record part key = some bytes := by
  rw [hexAt, textAt_eq_some.mpr (fieldAt_eq_some.mpr ⟨inner, hinner, hheld⟩), Option.bind_some,
    fromHex_hex]

variable {crypto : Crypto} {platform : Platform F} {floats : FloatFormat F}
  {record : JsonValue F}

/-- A value equals a text if it is that text. -/
theorem equalsText_eq_true {v : JsonValue F} {text : String} :
    equalsText v text = true ↔ v = .str text := by
  cases v <;> simp [equalsText]

/-- Bytes are read from the digits of a text. -/
theorem fromHexValue_eq_ok {v : JsonValue F} {bytes : Bytes} (h : fromHexValue v = .ok bytes) :
    ∃ text, v = .str text ∧ fromHex text = some bytes := by
  cases v with
  | str text =>
      rw [fromHexValue] at h
      split at h
      · rename_i found hfound
        exact ⟨text, rfl, by rw [hfound, Except.ok.inj h]⟩
      · cases h
  | _ => cases h

/-- The parameters of a record that passes have the hash that the record says. -/
theorem verifyParamsHash_eq_true (h : verifyParamsHash crypto floats record = .ok true)
    (hvalid : lightweightValidate floats record = .ok []) :
    ∃ params, fieldAt record "input_params" "params" = some params ∧
      textAt record "input_params" "params_hash" =
        some (canonicalParamsHashHex crypto floats params) := by
  unfold verifyParamsHash at h
  simp only [exceptBind_eq_ok] at h
  obtain ⟨ip, hip, stored, hstored, params, hparams, hequal⟩ := h
  obtain ⟨htop, ip', hip', hkeys⟩ := lightweightValidate_eq_nil hvalid
  rw [hip, Except.ok.injEq] at hip'
  rw [← hip'] at hkeys
  have hsection := holds_of_contains (htop "input_params" (by decide)) hip
  have hparams := holds_of_contains (hkeys "params" (by decide)) hparams
  have hstored := holds_of_contains (hkeys "params_hash" (by decide)) hstored
  rw [equalsText_eq_true.mp (Except.ok.inj hequal)] at hstored
  refine ⟨params, fieldAt_eq_some.mpr ⟨ip, hsection, hparams⟩, ?_⟩
  rw [textAt_eq_some]
  exact fieldAt_eq_some.mpr ⟨ip, hsection, hstored⟩

/-- What is got and is not the default is held. -/
theorem holds_of_get {v held default : JsonValue F} {key : String}
    (h : get v key default = .ok held) (hne : held ≠ default) : Holds v key held := by
  rcases get_eq_ok h with hholds | hdefault
  · exact hholds
  · exact absurd hdefault hne

/-- An empty object holds nothing. -/
theorem not_holds_empty {key : String} {held : JsonValue F} : ¬ Holds (.obj []) key held := by
  intro h
  obtain ⟨fields, hfields, hlookup⟩ := h
  rw [← JsonValue.obj.inj hfields] at hlookup
  cases hlookup

/-- A section that something is found in is not the default. -/
theorem fieldAt_of_get {part key : String} {inner held : JsonValue F}
    (hinner : get record part (.obj []) = .ok inner) (hheld : Holds inner key held) :
    fieldAt record part key = some held := by
  refine fieldAt_eq_some.mpr ⟨inner, holds_of_get hinner ?_, hheld⟩
  intro hempty
  rw [hempty] at hheld
  exact not_holds_empty hheld

/-- A field that equals an integer holds it. -/
theorem integerAt_of_equalsInt {part key : String} {held : JsonValue F} {n : Int}
    (hfield : fieldAt record part key = some held) (hequal : equalsInt floats held n = true) :
    integerAt floats record part key = some n := by
  have hnumeric : numeric floats held = some (n : ℚ) := eq_of_beq hequal
  rw [integerAt, hfield]
  change ((numeric floats held).bind fun x => if x.den = 1 then some x.num else none) = some n
  rw [hnumeric, Option.bind_some, Rat.den_intCast, if_pos rfl, Rat.num_intCast]

/-- A number that is compared with success is there. -/
theorem integerAt_of_get {part key : String} {inner held : JsonValue F} {n : Int}
    (hinner : get record part (.obj []) = .ok inner) (hheld : get inner key .null = .ok held)
    (hequal : equalsInt floats held n = true) : integerAt floats record part key = some n := by
  refine integerAt_of_equalsInt (fieldAt_of_get hinner (holds_of_get hheld ?_)) hequal
  intro hnull
  rw [hnull] at hequal
  cases hequal

/-- What a payload without errors agrees with the record in. -/
structure ChecksPayload (floats : FloatFormat F) (record : JsonValue F) (payload : Bytes) :
    Prop where
  signed : signedPayload record = some payload
  length_le : payload.length ≤ 113
  version : payload.head? = some 1
  outputValue : integerAt floats record "computation" "output_value" =
    some (signedOfBytes (byteSlice 65 73 payload))
  timestampUtc : integerAt floats record "computation" "timestamp_utc" =
    some (signedOfBytes (byteSlice 73 81 payload))

/-- Without an error all fields of the payload were checked. -/
theorem verifyPayloadFields_eq_nil (h : verifyPayloadFields floats record = .ok []) :
    ∃ payload, ChecksPayload floats record payload := by
  unfold verifyPayloadFields at h
  simp only [exceptBind_eq_ok] at h
  obtain ⟨att, hatt, comp, hcomp, payloadHex, hpayloadHex, length, hlength, h⟩ := h
  split at h
  · rename_i hlong
    simp only [exceptBind_eq_ok] at h
    obtain ⟨payload, hpayload, expectedOv, hvalue, expectedTs, htime, h⟩ := h
    obtain ⟨text, rfl, htext⟩ := fromHexValue_eq_ok hpayload
    rw [len, Except.ok.injEq, hlong] at hlength
    have hheld : Holds att "payload_hex" (.str text) := by
      apply holds_of_get hpayloadHex
      intro hempty
      rw [JsonValue.str.inj hempty] at hlength
      cases hlength
    split at h
    · rename_i version hversion
      have hnil := Except.ok.inj h
      simp only [List.append_eq_nil_iff, ite_eq_left_iff, List.cons_ne_nil, imp_false,
        Decidable.not_not] at hnil
      obtain ⟨hov, hts, hone⟩ := hnil
      refine ⟨payload, ?_, ?_, by rw [hversion, hone], integerAt_of_get hcomp hvalue hov,
        integerAt_of_get hcomp htime hts⟩
      · rw [signedPayload, hexAt, textAt_eq_some.mpr (fieldAt_of_get hatt hheld)]
        exact htext
      · have hread := length_of_readHex htext
        rw [String.length_toList] at hread
        omega
    · cases h
  · cases h

/-- Digits that are read as an item are held. -/
theorem hexAt_of_item {part key : String} {inner held : JsonValue F} {bytes : Bytes}
    (hinner : get record part (.obj []) = .ok inner) (hheld : item inner key = .ok held)
    (hbytes : fromHexValue held = .ok bytes) : hexAt record part key = some bytes := by
  obtain ⟨text, rfl, htext⟩ := fromHexValue_eq_ok hbytes
  rw [hexAt, textAt_eq_some.mpr (fieldAt_of_get hinner (item_eq_ok hheld))]
  exact htext

/-- A signature that is found valid is that of the payload under the key of the record. -/
theorem verifySignature_eq_true {payload : Bytes} (h : verifySignature crypto record = .ok true)
    (hpayload : signedPayload record = some payload) :
    ∃ publicKey signature, hexAt record "attestation" "public_key" = some publicKey ∧
      hexAt record "attestation" "signature" = some signature ∧
      crypto.ed25519Verify ⟨publicKey⟩ payload ⟨signature⟩ = true := by
  unfold verifySignature at h
  simp only [exceptBind_eq_ok] at h
  obtain ⟨att, hatt, h⟩ := h
  split at h
  · rename_i pubkeyBytes sigBytes payloadBytes hdecoded
    have hvalid := Except.ok.inj h
    rw [Bool.and_eq_true] at hvalid
    unfold decodeAttestation at hdecoded
    simp only [exceptBind_eq_ok] at hdecoded
    obtain ⟨publicKey, hkey, keyBytes, hkeyBytes, signature, hsig, signatureBytes, hsigBytes,
      payloadHex, hhex, bytes, hbytes, hreturn⟩ := hdecoded
    obtain ⟨rfl, rfl, rfl⟩ : keyBytes = pubkeyBytes ∧ signatureBytes = sigBytes ∧
        bytes = payloadBytes := by
      simpa using Except.ok.inj hreturn
    have hsigned := hexAt_of_item hatt hhex hbytes
    rw [← signedPayload, hpayload, Option.some.injEq] at hsigned
    rw [hsigned]
    exact ⟨keyBytes, signatureBytes, hexAt_of_item hatt hkey hkeyBytes,
      hexAt_of_item hatt hsig hsigBytes, hvalid.2⟩
  · split at h
    · cases h
    · cases h

/-- A record that conforms has passed the lightweight check. -/
theorem conforms_eq_true (h : conforms platform record = .ok true) :
    lightweightValidate platform.floats record = .ok [] := by
  unfold conforms validateProvenanceRecord at h
  cases hvalidate : lightweightValidate platform.floats record with
  | error exc =>
      rw [hvalidate] at h
      cases h
  | ok errors =>
      cases errors with
      | nil => rfl
      | cons error errors =>
          rw [hvalidate] at h
          cases h

/-- The check of the parameters is that of their digest. -/
theorem checkParamsHash_eq_true (h : checkParamsHash platform crypto record = .ok true) :
    verifyParamsHash crypto platform.floats record = .ok true := by
  unfold checkParamsHash at h
  simp only [exceptBind_eq_ok] at h
  obtain ⟨matched, hmatched, h⟩ := h
  cases matched with
  | true => exact hmatched
  | false =>
      rw [if_neg Bool.false_ne_true] at h
      simp only [exceptBind_eq_ok] at h
      obtain ⟨-, -, -, -, -, -, hreturn⟩ := h
      cases hreturn

/-- A record that passes has passed every check. -/
theorem cmdVerify_eq_zero (h : cmdVerify platform crypto (.record record) true = .ok 0) :
    lightweightValidate platform.floats record = .ok [] ∧
      verifyParamsHash crypto platform.floats record = .ok true ∧
      verifyPayloadFields platform.floats record = .ok [] ∧
      verifySignature crypto record = .ok true := by
  unfold cmdVerify verifyRecord at h
  simp only [exceptBind_eq_ok] at h
  obtain ⟨schemaOk, hschema, paramsOk, hparams, errors, herrors, -, -, signatureOk, hsignature,
    hreturn⟩ := h
  have hall : (schemaOk && paramsOk && errors.isEmpty && signatureOk) = true := by
    by_contra hnot
    rw [if_neg hnot] at hreturn
    cases hreturn
  simp only [Bool.and_eq_true, List.isEmpty_iff] at hall
  obtain ⟨⟨⟨rfl, rfl⟩, rfl⟩, rfl⟩ := hall
  exact ⟨conforms_eq_true hschema, checkParamsHash_eq_true hparams, herrors, hsignature⟩

/-! ## Which records have signed what they say -/

/-- The rest of a payload starts with a slice. -/
theorem drop_eq_append (start stop : Nat) (h : start ≤ stop) (payload : Bytes) :
    payload.drop start = byteSlice start stop payload ++ payload.drop stop := by
  have hdrop : (payload.drop start).drop (stop - start) = payload.drop stop := by
    rw [List.drop_drop, Nat.add_sub_of_le h]
  rw [byteSlice, ← hdrop, List.take_append_drop]

/-- A slice inside the payload has its length. -/
theorem length_byteSlice {start stop : Nat} {payload : Bytes} (h : stop ≤ payload.length) :
    (byteSlice start stop payload).length = stop - start := by
  rw [byteSlice, List.length_take, List.length_drop]
  omega

/-- The slices of a payload make it up. -/
theorem payload_eq_slices {payload : Bytes} (hlength : payload.length = 113)
    (hversion : payload.head? = some 1) :
    payload = payloadBytes (byteSlice 1 33 payload) (byteSlice 33 65 payload)
      (signedOfBytes (byteSlice 65 73 payload)) (signedOfBytes (byteSlice 73 81 payload))
      (byteSlice 81 113 payload) := by
  have hvalue := signedBytes_signedOfBytes (byteSlice 65 73 payload)
  have htime := signedBytes_signedOfBytes (byteSlice 73 81 payload)
  have hfirst : payload = [1] ++ payload.drop 1 := by
    cases payload with
    | nil => cases hversion
    | cons byte rest => rw [Option.some.inj hversion]; rfl
  have hend : payload.drop 113 = [] := List.drop_eq_nil_of_le hlength.le
  rw [length_byteSlice (by omega)] at hvalue htime
  rw [payloadBytes, hvalue, htime]
  calc payload = [1] ++ payload.drop 1 := hfirst
    _ = _ := by
      rw [drop_eq_append 1 33 (by decide), drop_eq_append 33 65 (by decide),
        drop_eq_append 65 73 (by decide), drop_eq_append 73 81 (by decide),
        drop_eq_append 81 113 (by decide), hend]

/-- The slice of a field is the field. -/
theorem byteSlice_append {start stop : Nat} {first middle last : Bytes}
    (hstart : first.length = start) (hstop : start + middle.length = stop) :
    byteSlice start stop (first ++ (middle ++ last)) = middle := by
  rw [byteSlice, List.drop_left' hstart]
  exact List.take_left' (by omega)

/-- The slices of a payload are its fields. -/
theorem slices_payloadBytes {script params feedId : Bytes} (hscript : script.length = 32)
    (hparams : params.length = 32) (hfeed : feedId.length = 32) (value time : Int) :
    byteSlice 1 33 (payloadBytes script params value time feedId) = script ∧
      byteSlice 33 65 (payloadBytes script params value time feedId) = params ∧
      byteSlice 65 73 (payloadBytes script params value time feedId) = signedBytes 8 value ∧
      byteSlice 73 81 (payloadBytes script params value time feedId) = signedBytes 8 time ∧
      byteSlice 81 113 (payloadBytes script params value time feedId) = feedId := by
  unfold payloadBytes
  refine ⟨byteSlice_append rfl (by omega), ?_, ?_, ?_, ?_⟩
  · rw [← List.append_assoc]
    exact byteSlice_append (by simp [hscript]) (by omega)
  · rw [← List.append_assoc, ← List.append_assoc]
    exact byteSlice_append (by simp [hscript, hparams]) (by simp)
  · rw [← List.append_assoc, ← List.append_assoc, ← List.append_assoc]
    exact byteSlice_append (by simp [hscript, hparams]) (by simp)
  · rw [← List.append_assoc, ← List.append_assoc, ← List.append_assoc, ← List.append_assoc]
    exact byteSlice_append (by simp [hscript, hparams]) (by omega)

/-- A field is cut and filled up to its length. -/
theorem length_ljust_take (bytes : Bytes) : (ljust 32 (bytes.take 32)).length = 32 :=
  length_ljust (List.length_take_le 32 bytes)

/-- An integer that is packed fits. -/
theorem fits_of_quad {x : Int} {bytes : Bytes} (h : (PackedField.quad x).bytes = .ok bytes) :
    FitsI64 x := by
  by_contra hnot
  rw [PackedField.bytes, if_neg hnot] at h
  cases h

/-- The payload of integers that fit.  The hashes are cut off or filled up. -/
theorem buildCanonicalPayload_of_fits {value time : Int} (hvalue : FitsI64 value)
    (htime : FitsI64 time) (script params feedId : Bytes) :
    buildCanonicalPayload 1 script params value time feedId =
      .ok (payloadBytes (ljust 32 (script.take 32)) (ljust 32 (params.take 32)) value time
        (ljust 32 (feedId.take 32))) := by
  have hlength := length_payloadBytes (length_ljust_take script) (length_ljust_take params)
    (length_ljust_take feedId) value time
  have hpack : structPack [.ubyte 1, .string 32 script, .string 32 params, .quad value,
      .quad time, .string 32 feedId] = .ok (payloadBytes (ljust 32 (script.take 32))
        (ljust 32 (params.take 32)) value time (ljust 32 (feedId.take 32))) := by
    apply structPack_cons rfl
    apply structPack_cons rfl
    apply structPack_cons rfl
    apply structPack_cons (PackedField.bytes_quad hvalue)
    apply structPack_cons (PackedField.bytes_quad htime)
    exact structPack_cons rfl rfl
  rw [buildCanonicalPayload, hpack]
  exact if_pos hlength

/-- What a payload that is built consists of. -/
theorem buildCanonicalPayload_eq_ok {script params feedId payload : Bytes} {value time : Int}
    (h : buildCanonicalPayload 1 script params value time feedId = .ok payload) :
    payload = payloadBytes (ljust 32 (script.take 32)) (ljust 32 (params.take 32)) value time
      (ljust 32 (feedId.take 32)) := by
  have hfits := h
  unfold buildCanonicalPayload at hfits
  simp only [structPack, exceptBind_eq_ok] at hfits
  obtain ⟨_, ⟨_, _, _, ⟨_, _, _, ⟨_, _, _, ⟨_, hvalue, _, ⟨_, htime, _⟩, _⟩, _⟩, _⟩, _⟩, _⟩ := hfits
  rw [buildCanonicalPayload_of_fits (fits_of_quad hvalue) (fits_of_quad htime),
    Except.ok.injEq] at h
  exact h.symm

/-- A field of the right length stays as it is. -/
theorem ljust_take_of_length {bytes : Bytes} (h : bytes.length = 32) :
    ljust 32 (bytes.take 32) = bytes := by
  rw [← h, List.take_length, ljust, Nat.sub_self, List.replicate_zero, List.append_nil]

/-- A result that is one. -/
theorem toOption_eq_some {β : Type} {x : Except Failure β} {b : β} :
    x.toOption = some b ↔ x = .ok b := by
  cases x <;> simp [Except.toOption]

/-- A feed id is filled up to its length. -/
theorem length_of_paddedFeedId {feedId : Bytes} (h : paddedFeedId record = some feedId) :
    feedId.length = 32 := by
  unfold paddedFeedId at h
  simp only [Option.bind_eq_bind, Option.bind_eq_some_iff, toOption_eq_some, padFeedId_eq_ok] at h
  obtain ⟨text, -, hlength, rfl⟩ := h
  exact length_ljust hlength

/-- The fields that a payload is rebuilt from. -/
theorem rebuiltPayload_eq_some {payload : Bytes} :
    rebuiltPayload floats record = some payload ↔
      ∃ script, hexAt record "gee_script" "version_hash" = some script ∧
      ∃ params, hexAt record "input_params" "params_hash" = some params ∧
      ∃ value, integerAt floats record "computation" "output_value" = some value ∧
      ∃ time, integerAt floats record "computation" "timestamp_utc" = some time ∧
      ∃ feedId, paddedFeedId record = some feedId ∧
        buildCanonicalPayload 1 script params value time feedId = .ok payload := by
  unfold rebuiltPayload
  simp only [Option.bind_eq_bind, Option.bind_eq_some_iff, toOption_eq_some]

/-- What is rebuilt has the slices of the fields. -/
theorem ownSlices_of_rebuilt {payload : Bytes} (hsigned : signedPayload record = some payload)
    (hrebuilt : rebuiltPayload floats record = some payload) : OwnSlices record := by
  obtain ⟨script, hscript, params, hparams, value, -, time, -, feedId, hfeed, hbuilt⟩ :=
    rebuiltPayload_eq_some.mp hrebuilt
  have hpayload := buildCanonicalPayload_eq_ok hbuilt
  obtain ⟨hslice, hslice', -, -, hslice''⟩ := slices_payloadBytes (length_ljust_take script)
    (length_ljust_take params) (length_ljust_take feedId) value time
  rw [← hpayload] at hslice hslice' hslice''
  rw [ljust_take_of_length (length_of_paddedFeedId hfeed)] at hslice''
  exact ⟨⟨payload, script, hsigned, hscript, hslice⟩, ⟨payload, params, hsigned, hparams, hslice'⟩,
    ⟨payload, feedId, hsigned, hfeed, hslice''⟩⟩

/-- With the slices of the record, the bytes that are compared determine the payload. -/
theorem rebuilt_of_ownSlices {payload : Bytes} (hchecks : ChecksPayload floats record payload)
    (hslices : OwnSlices record) : rebuiltPayload floats record = some payload := by
  obtain ⟨_, script, hsigned, hscript, hscriptSlice⟩ := hslices.scriptHash
  obtain ⟨_, params, hsigned', hparams, hparamsSlice⟩ := hslices.paramsHash
  obtain ⟨_, feedId, hsigned'', hfeed, hfeedSlice⟩ := hslices.feedId
  rw [hchecks.signed, Option.some.injEq] at hsigned hsigned' hsigned''
  rw [← hsigned] at hscriptSlice
  rw [← hsigned'] at hparamsSlice
  rw [← hsigned''] at hfeedSlice
  -- the last slice is only there if the payload has all of its bytes
  have hlength : payload.length = 113 := by
    have hfeedLength := length_of_paddedFeedId hfeed
    have hle := hchecks.length_le
    rw [← hfeedSlice, byteSlice, List.length_take, List.length_drop] at hfeedLength
    omega
  have hvalue : FitsI64 (signedOfBytes (byteSlice 65 73 payload)) :=
    fitsI64_signedOfBytes (length_byteSlice (by omega))
  have htime : FitsI64 (signedOfBytes (byteSlice 73 81 payload)) :=
    fitsI64_signedOfBytes (length_byteSlice (by omega))
  refine rebuiltPayload_eq_some.mpr ⟨script, hscript, params, hparams, _, hchecks.outputValue, _,
    hchecks.timestampUtc, feedId, hfeed, ?_⟩
  rw [buildCanonicalPayload_of_fits hvalue htime, ← hscriptSlice, ← hparamsSlice,
    ljust_take_of_length (length_of_paddedFeedId hfeed), ← hfeedSlice]
  exact congrArg Except.ok (payload_eq_slices hlength hchecks.version).symm

/-- A record that is verified signs its fields if the slices are its own. -/
theorem signsOwnFields_of_slices (h : cmdVerify platform crypto (.record record) true = .ok 0)
    (hslices : OwnSlices record) : SignsOwnFields crypto platform.floats record := by
  obtain ⟨hvalid, hparams, hpayload, hsignature⟩ := cmdVerify_eq_zero h
  obtain ⟨payload, hchecks⟩ := verifyPayloadFields_eq_nil hpayload
  obtain ⟨publicKey, signature, hkey, hsig, hverify⟩ :=
    verifySignature_eq_true hsignature hchecks.signed
  exact ⟨verifyParamsHash_eq_true hparams hvalid, payload, publicKey, signature, hchecks.signed,
    rebuilt_of_ownSlices hchecks hslices, hkey, hsig, hverify⟩

/-- A record that signs its fields has its own slices. -/
theorem ownSlices_of_signsOwnFields (h : SignsOwnFields crypto floats record) :
    OwnSlices record := by
  obtain ⟨payload, -, -, hsigned, hrebuilt, -⟩ := h.payload
  exact ownSlices_of_rebuilt hsigned hrebuilt

/-- A record that passes has signed the payload of its own fields exactly if the bytes that are not
compared are those of the record. -/
theorem signsOwnFields_iff (h : cmdVerify platform crypto (.record record) true = .ok 0) :
    SignsOwnFields crypto platform.floats record ↔ OwnSlices record := by
  constructor
  · intro hown
    exact ownSlices_of_signsOwnFields hown
  · intro hslices
    exact signsOwnFields_of_slices h hslices

/-! ## Which records pass -/

/-- A record carries a payload about its integers, signed under the key that it names.  Nothing is
asked of the hashes and the identifier in the payload. -/
structure Vouched (crypto : Crypto) (record : ProvenanceRecord F) (script params feedId : Bytes)
    (publicKey signature : Bytes) : Prop where
  recordType : record.recordType = "single"
  script_length : script.length = 32
  params_length : params.length = 32
  feedId_length : feedId.length = 32
  outputValue_fits : FitsI64 record.outputValue
  timestampUtc_fits : FitsI64 record.timestampUtc
  payload : record.attestationPayloadBytes =
    payloadBytes script params record.outputValue record.timestampUtc feedId
  publicKey_length : publicKey.length = 32
  signature_length : signature.length = 64
  publicKeyText : record.attestationPublicKey = hex publicKey
  signatureText : record.attestationSignature = hex signature
  valid : crypto.ed25519Verify ⟨publicKey⟩ record.attestationPayloadBytes ⟨signature⟩ = true

/-- The schema, if it is checked, finds no errors in a dictionary. -/
def SchemaAccepts (platform : Platform F) (dict : JsonValue F) : Prop :=
  ∀ iterErrors, platform.jsonschema = some iterErrors → iterErrors dict = []

section Passing

variable {provenance : ProvenanceRecord F} {script params feedId publicKey signature : Bytes}
  {dict gs ip comp att sub given : JsonValue F}

/-- The digits of a record that is vouched for have the right lengths. -/
theorem Vouched.hexLengths
    (h : Vouched crypto provenance script params feedId publicKey signature) :
    HexLengths provenance := by
  constructor
  · rw [h.publicKeyText, length_hex, h.publicKey_length]
  · rw [h.signatureText, length_hex, h.signature_length]
  · rw [h.payload]
    exact length_payloadBytes h.script_length h.params_length h.feedId_length _ _

/-- A record that passes both checks conforms. -/
theorem conforms_of_schema (hvalid : lightweightValidate platform.floats dict = .ok [])
    (hschema : SchemaAccepts platform dict) : conforms platform dict = .ok true := by
  unfold conforms validateProvenanceRecord
  rw [hvalid]
  cases hplatform : platform.jsonschema with
  | none => rfl
  | some iterErrors => simp only [hschema iterErrors hplatform, if_true]

/-- The digest of the parameters of a built record is right. -/
theorem HoldsRecord.verifyParamsHash
    (h : HoldsRecord crypto floats provenance dict gs ip comp att sub given) :
    verifyParamsHash crypto floats dict = .ok true := by
  unfold OracleBridge.verifyParamsHash
  simp only [exceptBind_eq_ok]
  refine ⟨ip, h.inputParams.get _, _, h.paramsHash.get _, given, h.params.get _, ?_⟩
  rw [canonicalParamsHashHex, canonicalParamsHashHex, h.paramsText]
  exact congrArg Except.ok (equalsText_eq_true.mpr rfl)

/-- The check of the parameters of a built record passes. -/
theorem HoldsRecord.checkParamsHash
    (h : HoldsRecord crypto platform.floats provenance dict gs ip comp att sub given) :
    checkParamsHash platform crypto dict = .ok true := by
  unfold OracleBridge.checkParamsHash
  simp only [exceptBind_eq_ok]
  refine ⟨true, h.verifyParamsHash, ?_⟩
  rw [if_pos rfl]
  simp only [exceptBind_eq_ok]
  exact ⟨ip, h.inputParams.item, _, h.paramsHash.item, _, rfl, rfl⟩

/-- An integer equals itself. -/
theorem equalsInt_int (floats : FloatFormat F) (n : Int) : equalsInt floats (.int n) n = true := by
  simp [equalsInt, numeric]

/-- The fields of the payload of a built record pass. -/
theorem HoldsRecord.verifyPayloadFields
    (h : HoldsRecord crypto floats provenance dict gs ip comp att sub given)
    (hvouched : Vouched crypto provenance script params feedId publicKey signature) :
    verifyPayloadFields floats dict = .ok [] := by
  have hlength : (hex provenance.attestationPayloadBytes).length = 226 := by
    rw [length_hex, hvouched.hexLengths.payload]
  have hbytes : fromHexValue (F := F) (.str (hex provenance.attestationPayloadBytes)) =
      .ok provenance.attestationPayloadBytes := by
    rw [fromHexValue, fromHex_hex]
  obtain ⟨-, -, hvalue, htime, -⟩ := slices_payloadBytes hvouched.script_length
    hvouched.params_length hvouched.feedId_length provenance.outputValue provenance.timestampUtc
  rw [← hvouched.payload] at hvalue htime
  have hhead : provenance.attestationPayloadBytes.head? = some 1 := by
    rw [hvouched.payload]
    rfl
  unfold OracleBridge.verifyPayloadFields
  simp only [exceptBind_eq_ok]
  refine ⟨att, h.attestation.get _, comp, h.computation.get _, _, h.payloadHex.get _, _, rfl, ?_⟩
  rw [if_pos hlength]
  simp only [exceptBind_eq_ok]
  refine ⟨_, hbytes, _, h.outputValue.get _, _, h.timestampUtc.get _, ?_⟩
  rw [hhead, hvalue, htime, signedOfBytes_of_fits hvouched.outputValue_fits,
    signedOfBytes_of_fits hvouched.timestampUtc_fits, equalsInt_int, equalsInt_int]
  rfl

/-- The script of a built record passes. -/
theorem HoldsRecord.checkScriptHash
    (h : HoldsRecord crypto platform.floats provenance dict gs ip comp att sub given) :
    checkScriptHash platform crypto dict = .ok () := by
  have hpreview : get gs "source_preview" .null = .ok .null ∨
      ∃ text, Holds gs "source_preview" (.str text) := by
    obtain ⟨fields, rfl, -⟩ := h.assetPath
    cases hlookup : fields.lookup "source_preview" with
    | none =>
        rw [get, hlookup]
        exact Or.inl rfl
    | some held =>
        obtain ⟨text, rfl⟩ := h.sourcePreview held (holds_obj hlookup)
        exact Or.inr ⟨text, holds_obj hlookup⟩
  unfold OracleBridge.checkScriptHash
  simp only [exceptBind_eq_ok]
  rcases hpreview with hnone | ⟨text, htext⟩
  · refine ⟨gs, h.geeScript.get _, .null, hnone, ?_⟩
    have hfalse : truthy platform.floats .null = false := rfl
    rw [hfalse, if_neg Bool.false_ne_true]
    simp only [exceptBind_eq_ok]
    exact ⟨_, h.assetPath.get _, _, h.versionTag.get _, rfl⟩
  · refine ⟨gs, h.geeScript.get _, .str text, htext.get _, ?_⟩
    by_cases htruthy : truthy platform.floats (.str text) = true
    · have hscript : verifyScriptHash crypto platform.floats dict =
          .ok (some (equalsText (F := F) (.str provenance.scriptVersionHash)
            (hex (sha256 crypto (utf8 text))))) := by
        unfold verifyScriptHash
        simp only [exceptBind_eq_ok]
        refine ⟨gs, h.geeScript.get _, _, h.versionHash.get _, _, htext.get _, ?_⟩
        rw [if_pos htruthy]
        rfl
      rw [if_pos htruthy]
      simp only [exceptBind_eq_ok]
      exact ⟨_, hscript, rfl⟩
    · rw [if_neg htruthy]
      simp only [exceptBind_eq_ok]
      exact ⟨_, h.assetPath.get _, _, h.versionTag.get _, rfl⟩

/-- The signature of a built record passes. -/
theorem HoldsRecord.verifySignature
    (h : HoldsRecord crypto floats provenance dict gs ip comp att sub given)
    (hvouched : Vouched crypto provenance script params feedId publicKey signature) :
    verifySignature crypto dict = .ok true := by
  have hkey := h.publicKey
  have hsig := h.signature
  rw [hvouched.publicKeyText] at hkey
  rw [hvouched.signatureText] at hsig
  have hhex : ∀ bytes, fromHexValue (F := F) (.str (hex bytes)) = .ok bytes := by
    intro bytes
    rw [fromHexValue, fromHex_hex]
  have hdecoded : decodeAttestation att =
      .ok (publicKey, signature, provenance.attestationPayloadBytes) := by
    unfold decodeAttestation
    simp only [exceptBind_eq_ok]
    exact ⟨_, hkey.item, _, hhex _, _, hsig.item, _, hhex _, _, h.payloadHex.item, _, hhex _, rfl⟩
  unfold OracleBridge.verifySignature
  simp only [exceptBind_eq_ok]
  refine ⟨att, h.attestation.get _, ?_⟩
  rw [hdecoded]
  simp only [hvouched.publicKey_length, hvouched.valid]
  rfl

/-- The dictionary of a vouched record passes, whatever it says about the script and the feed. -/
theorem HoldsRecord.cmdVerify
    (h : HoldsRecord crypto platform.floats provenance dict gs ip comp att sub given)
    (hvouched : Vouched crypto provenance script params feedId publicKey signature)
    (hschema : SchemaAccepts platform dict) :
    cmdVerify platform crypto (.record dict) true = .ok 0 := by
  have hvalid := h.lightweightValidate hvouched.recordType hvouched.hexLengths
  unfold OracleBridge.cmdVerify verifyRecord
  simp only [exceptBind_eq_ok]
  exact ⟨true, conforms_of_schema hvalid hschema, true, h.checkParamsHash, [],
    h.verifyPayloadFields hvouched, (), h.checkScriptHash, true, h.verifySignature hvouched, rfl⟩

end Passing

/-! ## A record about another script -/

/-- A platform without a schema validator. -/
def samplePlatform : Platform Unit where
  floats := ⟨fun _ => "NaN", fun _ => (), fun _ => none⟩
  utcIso _ := .ok "2023-11-14T22:13:20Z"
  jsonschema := none

/-- No parameters have no key twice. -/
theorem noParameters_keysDistinct : (JsonValue.obj (F := Unit) []).KeysDistinct :=
  .obj List.nodup_nil fun _ hfield => absurd hfield List.not_mem_nil

/-- No parameters. -/
def noParameters : JsonDict Unit where
  fields := []
  keysDistinct := noParameters_keysDistinct

/-- The digest of the script of the record. -/
def sampleScriptHash : Bytes :=
  sha256 sampleCrypto (utf8 "return -5;")

/-- The digest of the parameters of the record. -/
def sampleParamsHash : Bytes :=
  sha256 sampleCrypto (utf8 (dumps samplePlatform.floats noParameters.value))

/-- The payload that is signed in the sample. -/
def samplePayload : Bytes :=
  payloadBytes sampleScriptHash sampleParamsHash (-5) 1700000000 (ljust 32 (utf8 "CBL-EUA"))

/-- A record with the payload of the sample that names a script by a hash. -/
def recordNaming (scriptHash : Bytes) : ProvenanceRecord Unit where
  scriptAssetPath := "users/oracle/scripts/carbon_sequestration"
  scriptVersionHash := hex scriptHash
  scriptVersionTag := "untagged"
  inputParams := noParameters
  outputValue := -5
  feedId := "CBL-EUA"
  timestampUtc := 1700000000
  attestationPublicKey := hex sampleSigner.publicKeyBytes
  attestationSignature := hex (sampleSigner.signMessage samplePayload)
  attestationPayloadBytes := samplePayload
  submittedAtUtc := 1700000000

/-- The dictionary of the record. -/
def dictNaming (scriptHash : Bytes) : JsonValue Unit :=
  .obj [("schema_version", .int 1), ("record_type", .str "single"),
    ("gee_script", (recordNaming scriptHash).geeScript),
    ("input_params", (recordNaming scriptHash).inputParamsDict sampleCrypto samplePlatform.floats),
    ("computation", (recordNaming scriptHash).computationDict "2023-11-14T22:13:20Z"),
    ("attestation", (recordNaming scriptHash).attestationDict),
    ("submission", (recordNaming scriptHash).submission "2023-11-14T22:13:20Z")]

/-- The sample record is vouched for, whatever script it names. -/
theorem vouched_recordNaming (scriptHash : Bytes) :
    Vouched sampleCrypto (recordNaming scriptHash) sampleScriptHash sampleParamsHash
      (ljust 32 (utf8 "CBL-EUA")) sampleSigner.publicKeyBytes
      (sampleSigner.signMessage samplePayload) where
  recordType := rfl
  script_length := sampleCrypto_digests _
  params_length := sampleCrypto_digests _
  feedId_length := length_ljust (by decide +kernel)
  outputValue_fits := (by decide : FitsI64 (-5))
  timestampUtc_fits := (by decide : FitsI64 1700000000)
  payload := rfl
  publicKey_length := sampleSigner.publicKeyBytes_length
  signature_length := sampleSigner.signMessage_length _
  publicKeyText := rfl
  signatureText := rfl
  valid := sampleSigner.verifies samplePayload

/-- The sample record is verified, whatever script it names. -/
theorem dictNaming_verifies (scriptHash : Bytes) :
    cmdVerify samplePlatform sampleCrypto (.record (dictNaming scriptHash)) true = .ok 0 := by
  have hdict : (recordNaming scriptHash).toDict samplePlatform sampleCrypto =
      .ok (dictNaming scriptHash) := rfl
  obtain ⟨gs, ip, comp, att, sub, given, hholds⟩ := holdsRecord_toDict hdict
  refine hholds.cmdVerify (vouched_recordNaming scriptHash) ?_
  intro iterErrors hschema
  cases hschema

/-- The payload that the sample record signs. -/
theorem signedPayload_dictNaming (scriptHash : Bytes) :
    signedPayload (dictNaming scriptHash) = some samplePayload := by
  have htext : textAt (dictNaming scriptHash) "attestation" "payload_hex" =
      some (hex samplePayload) := rfl
  rw [signedPayload, hexAt, htext, Option.bind_some, fromHex_hex]

/-- The script that the sample record names. -/
theorem versionHash_dictNaming (scriptHash : Bytes) :
    hexAt (dictNaming scriptHash) "gee_script" "version_hash" = some scriptHash := by
  have htext : textAt (dictNaming scriptHash) "gee_script" "version_hash" =
      some (hex scriptHash) := rfl
  rw [hexAt, htext, Option.bind_some, fromHex_hex]

/-- The parameters that the sample record names. -/
theorem paramsHash_dictNaming (scriptHash : Bytes) :
    hexAt (dictNaming scriptHash) "input_params" "params_hash" = some sampleParamsHash := by
  have htext : textAt (dictNaming scriptHash) "input_params" "params_hash" =
      some (hex sampleParamsHash) := rfl
  rw [hexAt, htext, Option.bind_some, fromHex_hex]

/-- The slices of the sample payload. -/
theorem samplePayload_slices :
    byteSlice 1 33 samplePayload = sampleScriptHash ∧
      byteSlice 33 65 samplePayload = sampleParamsHash ∧
      byteSlice 81 113 samplePayload = ljust 32 (utf8 "CBL-EUA") := by
  obtain ⟨hscript, hparams, -, -, hfeed⟩ := slices_payloadBytes
    (vouched_recordNaming []).script_length (vouched_recordNaming []).params_length
    (vouched_recordNaming []).feedId_length (-5) 1700000000
  exact ⟨hscript, hparams, hfeed⟩

/-- The sample record that names its own script has its own slices. -/
theorem dictNaming_slices : OwnSlices (dictNaming sampleScriptHash) := by
  obtain ⟨hscript, hparams, hfeed⟩ := samplePayload_slices
  have hscriptLength : sampleScriptHash.length = 32 := sampleCrypto_digests _
  have hparamsLength : sampleParamsHash.length = 32 := sampleCrypto_digests _
  constructor
  · refine ⟨samplePayload, sampleScriptHash, signedPayload_dictNaming _,
      versionHash_dictNaming _, ?_⟩
    rw [hscript, ljust_take_of_length hscriptLength]
  · refine ⟨samplePayload, sampleParamsHash, signedPayload_dictNaming _,
      paramsHash_dictNaming _, ?_⟩
    rw [hparams, ljust_take_of_length hparamsLength]
  · refine ⟨samplePayload, ljust 32 (utf8 "CBL-EUA"), signedPayload_dictNaming _, ?_, hfeed⟩
    have htext : textAt (dictNaming sampleScriptHash) "computation" "feed_id" =
        some "CBL-EUA" := rfl
    rw [paddedFeedId, htext]
    rfl

/-- The record of the sample has signed what it says. -/
theorem dictNaming_signsOwnFields :
    SignsOwnFields sampleCrypto samplePlatform.floats (dictNaming sampleScriptHash) :=
  (signsOwnFields_iff (dictNaming_verifies sampleScriptHash)).mpr dictNaming_slices

/-- A record that names a script of another hash passes, but it has not signed what it says. -/
theorem foreign_script_verifies :
    cmdVerify samplePlatform sampleCrypto (.record (dictNaming (List.replicate 32 1))) true =
        .ok 0 ∧
      ¬ SignsOwnFields sampleCrypto samplePlatform.floats (dictNaming (List.replicate 32 1)) := by
  refine ⟨dictNaming_verifies _, ?_⟩
  intro hown
  obtain ⟨payload, script, hsigned, hscript, hslice⟩ :=
    (ownSlices_of_signsOwnFields hown).scriptHash
  rw [signedPayload_dictNaming, Option.some.injEq] at hsigned
  rw [versionHash_dictNaming, Option.some.injEq] at hscript
  rw [← hsigned, ← hscript, samplePayload_slices.1] at hslice
  revert hslice
  decide +kernel

end OracleBridge
end Kraal
