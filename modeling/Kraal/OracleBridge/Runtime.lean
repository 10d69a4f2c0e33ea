import Kraal.Foundation.Bytes
import Kraal.Soroban.Host

/-!
# Exceptions, bytes and text

What the bridge uses of its language: exceptions, the encoding of text, the conversions between
integers and bytes, and hexadecimal text.

Main results:

- Definitions {lit}`structPack` and {lit}`structUnpack`: fields packed one after the other,
  big-endian.
- Theorems {lit}`structUnpack_structPack` and {lit}`structPack_readFields`: fields and bytes are
  read back from each other.
- Theorems {lit}`utf8_of_decodeUtf8` and {lit}`fromHex_hex`: text and bytes are read back.
-/

namespace Kraal
namespace OracleBridge

open Foundation

/-- An exception, by its type and its text. -/
structure Failure where
  typeName : String
  message : String
deriving DecidableEq, Repr

/-! ## Text -/

/-- The bytes of a text. -/
def utf8 (text : String) : Bytes :=
  text.toList.flatMap String.utf8EncodeChar

/-- The encoding goes character by character. -/
theorem utf8_ofList_append (xs ys : List Char) :
    utf8 (String.ofList (xs ++ ys)) = utf8 (String.ofList xs) ++ utf8 (String.ofList ys) := by
  simp [utf8]

/-- The text of bytes, if they are the bytes of one. -/
def decodeUtf8 (bytes : Bytes) : Option String :=
  String.fromUTF8? bytes.toByteArray

/-- The bytes of a text in an array are its encoding. -/
theorem toByteArray_utf8 (text : String) : (utf8 text).toByteArray = text.toByteArray := by
  rw [← String.utf8Encode_toList, utf8]
  rfl

/-- An array has one list of bytes. -/
theorem toByteArray_injective {xs ys : Bytes} (h : xs.toByteArray = ys.toByteArray) : xs = ys := by
  have hlist := congrArg (fun bytes : ByteArray => bytes.data.toList) h
  simpa only [List.toList_data_toByteArray] using hlist

/-- What was decoded is encoded back. -/
theorem utf8_of_decodeUtf8 {bytes : Bytes} {text : String} (h : decodeUtf8 bytes = some text) :
    utf8 text = bytes := by
  unfold decodeUtf8 String.fromUTF8? at h
  split at h
  · apply toByteArray_injective
    rw [toByteArray_utf8, ← Option.some.inj h]
    rfl
  · cases h

/-- What was encoded is decoded back. -/
theorem decodeUtf8_utf8 (text : String) : decodeUtf8 (utf8 text) = some text := by
  unfold decodeUtf8 String.fromUTF8?
  rw [toByteArray_utf8, dif_pos text.isValidUTF8]
  rfl

/-! ## Integers -/

/-- An integer of 64 bits with a sign. -/
def FitsI64 (x : Int) : Prop :=
  -2 ^ 63 ≤ x ∧ x < 2 ^ 63

instance (x : Int) : Decidable (FitsI64 x) :=
  inferInstanceAs (Decidable (_ ∧ _))

/-- Eight bytes hold an integer that fits. -/
theorem fitsI64_signedOfBytes {bytes : Bytes} (h : bytes.length = 8) :
    FitsI64 (signedOfBytes bytes) := by
  have hrange := signedOfBytes_range bytes
  rw [h] at hrange
  unfold FitsI64
  omega

/-- An integer that fits is read back. -/
theorem signedOfBytes_of_fits {x : Int} (h : FitsI64 x) :
    signedOfBytes (signedBytes 8 x) = x := by
  have hlo := h.1
  have hhi := h.2
  exact signedOfBytes_signedBytes (by norm_num; omega) (by norm_num; omega)

/-- The eight bytes of an integer, big-endian and with a sign. -/
def toBytes (x : Int) : Except Failure Bytes :=
  if FitsI64 x then .ok (signedBytes 8 x) else .error ⟨"OverflowError", "int too big to convert"⟩

/-- An integer that fits is written. -/
theorem toBytes_of_fits {x : Int} (h : FitsI64 x) : toBytes x = .ok (signedBytes 8 x) :=
  if_pos h

/-! ## Packed fields -/

/-- Bytes with zeros after them, up to a length. -/
def ljust (length : Nat) (bytes : Bytes) : Bytes :=
  bytes ++ List.replicate (length - bytes.length) 0

/-- A field that is short enough is filled up. -/
theorem length_ljust {length : Nat} {bytes : Bytes} (h : bytes.length ≤ length) :
    (ljust length bytes).length = length := by
  rw [ljust, List.length_append, List.length_replicate]
  omega

/-- A field of a packed structure: a byte, a string of a fixed length, or an integer. -/
inductive PackedField where
  | ubyte (x : Int)
  | string (length : Nat) (bytes : Bytes)
  | quad (x : Int)

/-- The bytes of a field.  A string is cut off or filled up with zeros. -/
def PackedField.bytes : PackedField → Except Failure Bytes
  | .ubyte x =>
      if 0 ≤ x ∧ x < 256 then .ok [UInt8.ofNat x.toNat]
      else .error ⟨"error", "ubyte format requires 0 <= number <= 255"⟩
  | .string length bytes => .ok (ljust length (bytes.take length))
  | .quad x =>
      if FitsI64 x then .ok (signedBytes 8 x)
      else .error ⟨"error", "int too large to convert"⟩

/-- The fields one after the other, big-endian and without gaps. -/
def structPack : List PackedField → Except Failure Bytes
  | [] => .ok []
  | field :: fields => do
      let first ← field.bytes
      let rest ← structPack fields
      return first ++ rest

/-- Fields are packed one after the other. -/
theorem structPack_cons {field : PackedField} {fields : List PackedField} {first rest : Bytes}
    (hfirst : field.bytes = .ok first) (hrest : structPack fields = .ok rest) :
    structPack (field :: fields) = .ok (first ++ rest) := by
  rw [structPack, hfirst, hrest]
  rfl

/-- Bytes of the right length are packed as they are. -/
theorem PackedField.bytes_string {length : Nat} {bytes : Bytes} (h : bytes.length = length) :
    (PackedField.string length bytes).bytes = .ok bytes := by
  rw [PackedField.bytes, ← h, List.take_length, ljust, Nat.sub_self, List.replicate_zero,
    List.append_nil]

/-- An integer that fits is packed. -/
theorem PackedField.bytes_quad {x : Int} (h : FitsI64 x) :
    (PackedField.quad x).bytes = .ok (signedBytes 8 x) :=
  if_pos h

/-! ## Unpacked fields -/

/-- The kind of a field, without its contents. -/
inductive PackedFormat where
  | ubyte
  | string (length : Nat)
  | quad

/-- The number of bytes of a format. -/
def PackedFormat.size : PackedFormat → Nat
  | .ubyte => 1
  | .string length => length
  | .quad => 8

/-- The field of a kind with some bytes. -/
def PackedFormat.read (bytes : Bytes) : PackedFormat → PackedField
  | .ubyte => .ubyte (natOfBytes bytes)
  | .string length => .string length bytes
  | .quad => .quad (signedOfBytes bytes)

/-- Read fields of some formats, one after the other. -/
def readFields : List PackedFormat → Bytes → List PackedField
  | [], _ => []
  | format :: formats, data =>
      format.read (data.take format.size) :: readFields formats (data.drop format.size)

/-- The number of bytes of some formats. -/
def totalSize (formats : List PackedFormat) : Nat :=
  (formats.map PackedFormat.size).sum

/-- The fields of some bytes, of which there have to be as many as the fields take up. -/
def structUnpack (formats : List PackedFormat) (data : Bytes) : Except Failure (List PackedField) :=
  if data.length = totalSize formats then .ok (readFields formats data)
  else .error ⟨"error", "unpack requires a buffer of " ++ toString (totalSize formats) ++ " bytes"⟩

/-- A field is of a kind, and packing it loses nothing. -/
inductive PackedFormat.Fits : PackedFormat → PackedField → Prop
  | ubyte {x : Int} (hlo : 0 ≤ x) (hhi : x < 256) : Fits .ubyte (.ubyte x)
  | string {length : Nat} {bytes : Bytes} (h : bytes.length = length) :
      Fits (.string length) (.string length bytes)
  | quad {x : Int} (h : FitsI64 x) : Fits .quad (.quad x)

/-- A single byte is its own value. -/
theorem natOfBytes_ofNat {n : Nat} (h : n < 256) : natOfBytes [UInt8.ofNat n] = n := by
  rw [← List.nil_append [UInt8.ofNat n], natOfBytes_append_singleton, natOfBytes_nil, Nat.zero_mul,
    Nat.zero_add, UInt8.toNat_ofNat']
  exact Nat.mod_eq_of_lt h

/-- A field that fits is read back from its bytes. -/
theorem PackedFormat.Fits.read {format : PackedFormat} {field : PackedField}
    (h : format.Fits field) :
    ∃ bytes, field.bytes = .ok bytes ∧ bytes.length = format.size ∧
      format.read bytes = field := by
  cases h with
  | ubyte hlo hhi =>
      refine ⟨_, if_pos ⟨hlo, hhi⟩, rfl, ?_⟩
      rw [PackedFormat.read, natOfBytes_ofNat (by omega), Int.toNat_of_nonneg hlo]
  | string hlength => exact ⟨_, PackedField.bytes_string hlength, hlength, rfl⟩
  | quad hfits =>
      refine ⟨_, PackedField.bytes_quad hfits, length_signedBytes 8 _, ?_⟩
      rw [PackedFormat.read, signedOfBytes_of_fits hfits]

/-- What is read is packed into the bytes it was read from. -/
theorem PackedFormat.bytes_read {format : PackedFormat} {bytes : Bytes}
    (h : bytes.length = format.size) : (format.read bytes).bytes = .ok bytes := by
  cases format with
  | ubyte =>
      rcases List.length_eq_one_iff.mp h with ⟨byte, rfl⟩
      have hbyte : natOfBytes [byte] = byte.toNat := by
        rw [← List.nil_append [byte], natOfBytes_append_singleton, natOfBytes_nil, Nat.zero_mul,
          Nat.zero_add]
      have hlt := byte.toNat_lt
      rw [PackedFormat.read, PackedField.bytes, hbyte, if_pos ⟨by omega, by omega⟩,
        Int.toNat_natCast, UInt8.ofNat_toNat]
  | string length => exact PackedField.bytes_string h
  | quad =>
      have hsame := signedBytes_signedOfBytes bytes
      rw [show bytes.length = 8 from h] at hsame
      rw [PackedFormat.read, PackedField.bytes_quad (fitsI64_signedOfBytes h), hsame]

/-- Fields that fit are unpacked from the bytes they are packed into. -/
theorem structUnpack_structPack {formats : List PackedFormat} {fields : List PackedField}
    (h : List.Forall₂ PackedFormat.Fits formats fields) :
    ∃ data, structPack fields = .ok data ∧ data.length = totalSize formats ∧
      readFields formats data = fields := by
  induction h with
  | nil => exact ⟨[], rfl, rfl, rfl⟩
  | cons hfirst _ ih =>
      rcases hfirst.read with ⟨first, hbytes, hlength, hread⟩
      rcases ih with ⟨rest, hpack, htotal, hfields⟩
      refine ⟨first ++ rest, structPack_cons hbytes hpack, ?_, ?_⟩
      · rw [List.length_append, hlength, htotal]
        rfl
      · rw [readFields, ← hlength, List.take_left, List.drop_left, hread, hfields]

/-- Fields that are unpacked are packed into the bytes they came from. -/
theorem structPack_readFields {formats : List PackedFormat} {data : Bytes}
    (h : data.length = totalSize formats) : structPack (readFields formats data) = .ok data := by
  induction formats generalizing data with
  | nil => rw [List.eq_nil_of_length_eq_zero h, readFields, structPack]
  | cons format formats ih =>
      have htotal : data.length = format.size + totalSize formats := h
      have hfirst : (data.take format.size).length = format.size := by
        rw [List.length_take]
        omega
      have hrest : (data.drop format.size).length = totalSize formats := by
        rw [List.length_drop]
        omega
      have hpack := structPack_cons (PackedFormat.bytes_read hfirst) (ih hrest)
      rw [List.take_append_drop] at hpack
      exact hpack

/-! ## Hexadecimal text -/

/-- The blanks that may stand between the digits of two bytes. -/
def isBlank (c : Char) : Bool :=
  c.toNat = 32 || (9 ≤ c.toNat && c.toNat ≤ 13)

/-- The hexadecimal digits of some bytes. -/
def hex (bytes : Bytes) : String :=
  String.ofList (hexChars bytes)

/-- The bytes of hexadecimal text, in either case and with blanks between them. -/
def fromHex (text : String) : Option Bytes :=
  readHex isBlank text.toList

/-- Digits are read back. -/
theorem fromHex_hex (bytes : Bytes) : fromHex (hex bytes) = some bytes := by
  rw [fromHex, hex, String.toList_ofList]
  exact readHex_hexChars (by decide) bytes

/-- There are two digits to a byte. -/
@[simp]
theorem length_hex (bytes : Bytes) : (hex bytes).length = 2 * bytes.length := by
  rw [hex, String.length_ofList, length_hexChars]

end OracleBridge
end Kraal
