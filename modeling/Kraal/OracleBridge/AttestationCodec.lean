import Kraal.OracleBridge.VerifyProvenance

/-!
# Reading attestations back

The bytes of a payload are read back into its fields, and the dictionary of a signed attestation
into the attestation.

Main results:

- Definitions {lit}`AttestationPayload.fromBytes` and {lit}`SignedAttestation.fromDict`: reading.
- Theorem {lit}`attestation_codec`: writing and reading are inverse to each other.

Current gaps:

- A dictionary whose integers are values of another type is an error here.
-/

namespace Kraal
namespace OracleBridge

open Foundation

variable {F : Type}

/-! ## Bytes -/

/-- The fields of a payload, in their order. -/
def packFmt : List PackedFormat :=
  [.ubyte, .string 32, .string 32, .quad, .quad, .string 32]

/-- Build a payload of a given version after its checks, which do not look at the version. -/
def attestationPayloadOf (version : Int) (scriptHash inputParamsHash : Bytes)
    (outputValue timestampUtc : Int) (feedId : Bytes) : Except Failure AttestationPayload := do
  let payload ← attestationPayload scriptHash inputParamsHash outputValue timestampUtc feedId
  return { payload with schemaVersion := version }

namespace AttestationPayload

/-- The payload that some bytes stand for. -/
def fromBytes (data : Bytes) : Except Failure AttestationPayload :=
  if data.length ≠ payloadLength then
    .error ⟨"ValueError", "Expected " ++ toString payloadLength ++ " bytes, got " ++
      toString data.length⟩
  else do
    let fields ← structUnpack packFmt data
    match fields with
    | [.ubyte version, .string _ scriptHash, .string _ inputParamsHash, .quad outputValue,
        .quad timestampUtc, .string _ feedId] =>
        attestationPayloadOf version scriptHash inputParamsHash outputValue timestampUtc feedId
    | _ => .error ⟨"ValueError", "not enough values to unpack"⟩

/-- The fields that are packed for a payload. -/
def packed (payload : AttestationPayload) : List PackedField :=
  [.ubyte payload.schemaVersion, .string 32 payload.scriptHash, .string 32 payload.inputParamsHash,
    .quad payload.outputValue, .quad payload.timestampUtc, .string 32 payload.feedId]

/-- The fields of a payload as a dictionary. -/
def toDict (payload : AttestationPayload) : List (String × JsonValue F) :=
  [("schema_version", .int payload.schemaVersion), ("script_hash", .str (hex payload.scriptHash)),
    ("input_params_hash", .str (hex payload.inputParamsHash)),
    ("output_value", .int payload.outputValue), ("timestamp_utc", .int payload.timestampUtc),
    ("feed_id", .str (hex payload.feedId))]

variable {payload : AttestationPayload} {data : Bytes}

theorem attestationPayloadOf_self (payload : AttestationPayload) :
    attestationPayloadOf payload.schemaVersion payload.scriptHash payload.inputParamsHash
      payload.outputValue payload.timestampUtc payload.feedId = .ok payload := by
  unfold attestationPayloadOf
  rw [attestationPayload_of_fits payload.scriptHash_length payload.inputParamsHash_length
    payload.feedId_length payload.outputValue_fits payload.timestampUtc_fits]
  rfl

theorem fits_packed (hlo : 0 ≤ payload.schemaVersion) (hhi : payload.schemaVersion < 256) :
    List.Forall₂ PackedFormat.Fits packFmt payload.packed :=
  .cons (.ubyte hlo hhi) (.cons (.string payload.scriptHash_length)
    (.cons (.string payload.inputParamsHash_length) (.cons (.quad payload.outputValue_fits)
      (.cons (.quad payload.timestampUtc_fits) (.cons (.string payload.feedId_length) .nil)))))

theorem toBytes_of_packed (hpack : structPack payload.packed = .ok data)
    (hlength : data.length = payloadLength) : payload.toBytes = .ok data := by
  unfold toBytes
  unfold packed at hpack
  rw [hpack]
  exact if_pos hlength

/-- What is read from the bytes of a payload. -/
theorem fromBytes_of_packed (hlength : data.length = payloadLength)
    (hfields : readFields packFmt data = payload.packed) : fromBytes data = .ok payload := by
  have hsize : data.length = totalSize packFmt := hlength
  unfold fromBytes structUnpack
  rw [if_neg (not_not.mpr hlength), if_pos hsize, hfields]
  exact attestationPayloadOf_self payload

/-- A payload is read back from its bytes. -/
theorem fromBytes_toBytes (hlo : 0 ≤ payload.schemaVersion) (hhi : payload.schemaVersion < 256) :
    ∃ data, payload.toBytes = .ok data ∧ fromBytes data = .ok payload := by
  rcases structUnpack_structPack (fits_packed hlo hhi) with ⟨data, hpack, hlength, hfields⟩
  exact ⟨data, toBytes_of_packed hpack hlength, fromBytes_of_packed hlength hfields⟩

/-- All bytes of the right length are those of a payload. -/
theorem toBytes_fromBytes (hlength : data.length = payloadLength) :
    ∃ payload, fromBytes data = .ok payload ∧ payload.toBytes = .ok data := by
  have hsize : data.length = 113 := hlength
  have hquad : ∀ start, start + 8 ≤ 113 →
      FitsI64 (signedOfBytes ((data.drop start).take 8)) := by
    intro start hstart
    apply fitsI64_signedOfBytes
    rw [List.length_take, List.length_drop]
    omega
  have hstring : ∀ start, start + 32 ≤ 113 → ((data.drop start).take 32).length = 32 := by
    intro start hstart
    rw [List.length_take, List.length_drop]
    omega
  let payload : AttestationPayload := {
    scriptHash := (data.drop 1).take 32
    inputParamsHash := (data.drop 33).take 32
    outputValue := signedOfBytes ((data.drop 65).take 8)
    timestampUtc := signedOfBytes ((data.drop 73).take 8)
    feedId := (data.drop 81).take 32
    schemaVersion := natOfBytes (data.take 1)
    scriptHash_length := hstring 1 (by omega)
    inputParamsHash_length := hstring 33 (by omega)
    feedId_length := hstring 81 (by omega)
    outputValue_fits := hquad 65 (by omega)
    timestampUtc_fits := hquad 73 (by omega) }
  have hfields : readFields packFmt data = payload.packed := by
    simp only [packFmt, readFields, PackedFormat.size, PackedFormat.read, List.drop_drop]
    rfl
  refine ⟨payload, fromBytes_of_packed hlength hfields, toBytes_of_packed ?_ hlength⟩
  rw [← hfields]
  exact structPack_readFields hlength

/-- No other bytes are read. -/
theorem fromBytes_of_length_ne (hlength : data.length ≠ payloadLength) :
    ∃ message, fromBytes data = .error ⟨"ValueError", message⟩ :=
  ⟨_, if_pos hlength⟩

end AttestationPayload

/-! ## Dictionaries -/

/-- An integer that is read from a dictionary. -/
def intValue : JsonValue F → Except Failure Int
  | .int n => .ok n
  | v => .error (typeError ("expected an integer, got " ++ typeName v))

namespace SignedAttestation

/-- The dictionary of a signed attestation, with its bytes in hexadecimal. -/
def toDict (attestation : SignedAttestation) : JsonValue F :=
  .obj (attestation.payload.toDict ++ [("public_key", .str (hex attestation.publicKey)),
    ("signature", .str (hex attestation.signature))])

/-- The attestation of a dictionary. -/
def fromDict (dict : JsonValue F) : Except Failure SignedAttestation := do
  let version ← item dict "schema_version" >>= intValue
  let scriptHash ← item dict "script_hash" >>= fromHexValue
  let inputParamsHash ← item dict "input_params_hash" >>= fromHexValue
  let outputValue ← item dict "output_value" >>= intValue
  let timestampUtc ← item dict "timestamp_utc" >>= intValue
  let feedId ← item dict "feed_id" >>= fromHexValue
  let payload ←
    attestationPayloadOf version scriptHash inputParamsHash outputValue timestampUtc feedId
  let publicKey ← item dict "public_key" >>= fromHexValue
  let signature ← item dict "signature" >>= fromHexValue
  signedAttestation payload publicKey signature

theorem item_hex {fields : List (String × JsonValue F)} {key : String} {bytes : Bytes}
    (h : fields.lookup key = some (.str (hex bytes))) :
    (item (.obj fields) key >>= fromHexValue) = .ok bytes := by
  have hitem : item (.obj fields) key = .ok (.str (hex bytes)) := by
    rw [item, h]
  rw [hitem, exceptBind_eq_ok]
  refine ⟨_, rfl, ?_⟩
  rw [fromHexValue, fromHex_hex]

theorem item_int {fields : List (String × JsonValue F)} {key : String} {n : Int}
    (h : fields.lookup key = some (.int n)) : (item (.obj fields) key >>= intValue) = .ok n := by
  have hitem : item (.obj fields) key = .ok (.int n) := by
    rw [item, h]
  rw [hitem]
  rfl

/-- A signed attestation is read back from its dictionary. -/
theorem fromDict_toDict (attestation : SignedAttestation) :
    fromDict (attestation.toDict (F := F)) = .ok attestation := by
  have hsigned : signedAttestation attestation.payload attestation.publicKey
      attestation.signature = .ok attestation := by
    rw [signedAttestation, dif_pos attestation.publicKey_length,
      dif_pos attestation.signature_length]
  unfold fromDict toDict
  apply exceptBind_of_ok (item_int rfl)
  apply exceptBind_of_ok (item_hex rfl)
  apply exceptBind_of_ok (item_hex rfl)
  apply exceptBind_of_ok (item_int rfl)
  apply exceptBind_of_ok (item_int rfl)
  apply exceptBind_of_ok (item_hex rfl)
  apply exceptBind_of_ok (AttestationPayload.attestationPayloadOf_self attestation.payload)
  apply exceptBind_of_ok (item_hex rfl)
  exact exceptBind_of_ok (item_hex rfl) hsigned

end SignedAttestation

/-- Payloads and bytes, and attestations and dictionaries, are read back from each other, and bytes
of any other length are refused. -/
theorem attestation_codec (F : Type) :
    (∀ payload : AttestationPayload, 0 ≤ payload.schemaVersion → payload.schemaVersion ≤ 255 →
      ∃ data, payload.toBytes = .ok data ∧ AttestationPayload.fromBytes data = .ok payload) ∧
    (∀ data : Bytes, data.length = 113 →
      ∃ payload, AttestationPayload.fromBytes data = .ok payload ∧ payload.toBytes = .ok data) ∧
    (∀ data : Bytes, data.length ≠ 113 →
      ∃ message, AttestationPayload.fromBytes data = .error ⟨"ValueError", message⟩) ∧
    ∀ attestation : SignedAttestation,
      SignedAttestation.fromDict (attestation.toDict (F := F)) = .ok attestation := by
  refine ⟨?_, ?_, ?_, SignedAttestation.fromDict_toDict⟩
  · intro payload hlo hhi
    exact AttestationPayload.fromBytes_toBytes hlo (Int.lt_add_one_of_le hhi)
  · intro data hlength
    exact AttestationPayload.toBytes_fromBytes hlength
  · intro data hlength
    exact AttestationPayload.fromBytes_of_length_ne hlength

/-- Zeros are the bytes of a payload, of version zero. -/
theorem zeros_read_back :
    ∃ payload, AttestationPayload.fromBytes (List.replicate 113 0) = .ok payload ∧
      payload.toBytes = .ok (List.replicate 113 0) :=
  (attestation_codec ℚ).2.1 _ List.length_replicate

end OracleBridge
end Kraal
