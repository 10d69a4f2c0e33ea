import Kraal.Foundation.MachineInt
import Mathlib.Data.List.Induction
import Mathlib.Data.Nat.Digits.Defs

/-!
# Bytes as numbers and as text

A string of bytes is read as a number, most significant byte first, with or without a sign, and
is written as hexadecimal text.

Main results:

- Theorems {lit}`natOfBytes_bigEndian` and {lit}`bigEndian_natOfBytes`: reading and writing a number
  are inverse to each other.
- Theorems {lit}`signedOfBytes_signedBytes` and {lit}`signedBytes_signedOfBytes`: the same in two's
  complement.
- Theorem {lit}`readHex_hexChars`: hexadecimal text is read back.
-/

namespace Foundation

/-! ## Numbers -/

/-- The number of a string of digits in base 256. -/
def natOfBytes (bytes : List UInt8) : Nat :=
  bytes.foldl (fun n byte => n * 256 + byte.toNat) 0

/-- No bytes are zero. -/
@[simp]
theorem natOfBytes_nil : natOfBytes [] = 0 :=
  rfl

/-- One more byte is the lowest one. -/
@[simp]
theorem natOfBytes_append_singleton (bytes : List UInt8) (byte : UInt8) :
    natOfBytes (bytes ++ [byte]) = natOfBytes bytes * 256 + byte.toNat := by
  rw [natOfBytes, List.foldl_append]
  rfl

/-- The value of some bytes is bounded by their number. -/
theorem natOfBytes_lt (bytes : List UInt8) : natOfBytes bytes < 256 ^ bytes.length := by
  induction bytes using List.reverseRecOn with
  | nil => exact Nat.one_pos
  | append_singleton bytes byte ih =>
      have hbyte := byte.toNat_lt
      rw [natOfBytes_append_singleton, List.length_append, List.length_singleton, pow_succ]
      omega

/-- The bytes of a number are read back up to their number. -/
theorem natOfBytes_bigEndian (n x : Nat) : natOfBytes (bigEndian n x) = x % 256 ^ n := by
  induction n generalizing x with
  | zero => simp [bigEndian, Nat.mod_one]
  | succ n ih =>
      rw [bigEndian, natOfBytes_append_singleton, ih, pow_succ', Nat.mod_mul, UInt8.toNat_ofNat']
      omega

/-- The value of some bytes is written back. -/
theorem bigEndian_natOfBytes (bytes : List UInt8) :
    bigEndian bytes.length (natOfBytes bytes) = bytes := by
  induction bytes using List.reverseRecOn with
  | nil => rfl
  | append_singleton bytes byte ih =>
      have hbyte := byte.toNat_lt
      have hrest : (natOfBytes bytes * 256 + byte.toNat) / 256 = natOfBytes bytes := by omega
      have hlast : UInt8.ofNat (natOfBytes bytes * 256 + byte.toNat) = byte := by
        apply UInt8.toNat_inj.mp
        rw [UInt8.toNat_ofNat']
        omega
      rw [natOfBytes_append_singleton, List.length_append, List.length_singleton, bigEndian, hrest,
        ih, hlast]

/-! ## Two's complement -/

/-- The last digits of an integer in base 256. -/
def signedBytes (n : Nat) (x : Int) : List UInt8 :=
  bigEndian n (x % 256 ^ n).toNat

/-- The integer of a string of digits, negative in the upper half. -/
def signedOfBytes (bytes : List UInt8) : Int :=
  if 256 ^ bytes.length ≤ 2 * natOfBytes bytes then natOfBytes bytes - 256 ^ bytes.length
  else natOfBytes bytes

/-- The bytes of an integer have their length. -/
@[simp]
theorem length_signedBytes (n : Nat) (x : Int) : (signedBytes n x).length = n :=
  length_bigEndian _ _

/-- The bytes of an integer hold it in the complement of two. -/
theorem natOfBytes_signedBytes (n : Nat) (x : Int) :
    (natOfBytes (signedBytes n x) : Int) = x % 256 ^ n := by
  have hpos : (0 : Int) < 256 ^ n := by positivity
  have hnonneg := Int.emod_nonneg x hpos.ne'
  have hlt := Int.emod_lt_of_pos x hpos
  rw [signedBytes, natOfBytes_bigEndian, Nat.mod_eq_of_lt]
  · exact Int.toNat_of_nonneg hnonneg
  · zify
    rw [Int.toNat_of_nonneg hnonneg]
    exact hlt

/-- An integer of the range is read back. -/
theorem signedOfBytes_signedBytes {n : Nat} {x : Int} (hlo : -256 ^ n ≤ 2 * x)
    (hhi : 2 * x < 256 ^ n) : signedOfBytes (signedBytes n x) = x := by
  have hnat := natOfBytes_signedBytes n x
  have hpos : (0 : Int) < 256 ^ n := by positivity
  have hcast : ((256 ^ n : Nat) : Int) = 256 ^ n := by push_cast; rfl
  unfold signedOfBytes
  rw [length_signedBytes]
  rcases le_or_gt 0 x with hx | hx
  · rw [Int.emod_eq_of_lt hx (by omega)] at hnat
    rw [if_neg (by zify; omega), hnat]
  · have hmod : x % 256 ^ n = x + 256 ^ n := by
      rw [← Int.add_emod_right, Int.emod_eq_of_lt (by omega) (by omega)]
    rw [hmod] at hnat
    rw [if_pos (by zify; omega), hnat]
    omega

/-- The bytes of an integer that was read are those it was read from. -/
theorem signedBytes_signedOfBytes (bytes : List UInt8) :
    signedBytes bytes.length (signedOfBytes bytes) = bytes := by
  have hlt := natOfBytes_lt bytes
  have hmod : signedOfBytes bytes % 256 ^ bytes.length = (natOfBytes bytes : Int) := by
    have hlt' : (natOfBytes bytes : Int) < 256 ^ bytes.length := by exact_mod_cast hlt
    unfold signedOfBytes
    split
    · rw [← Int.add_emod_right, sub_add_cancel]
      exact Int.emod_eq_of_lt (Int.natCast_nonneg _) hlt'
    · exact Int.emod_eq_of_lt (Int.natCast_nonneg _) hlt'
  rw [signedBytes, hmod, Int.toNat_natCast]
  exact bigEndian_natOfBytes bytes

/-- The integer of some bytes is bounded by their number. -/
theorem signedOfBytes_range (bytes : List UInt8) :
    -256 ^ bytes.length ≤ 2 * signedOfBytes bytes ∧
      2 * signedOfBytes bytes < 256 ^ bytes.length := by
  have hlt : (natOfBytes bytes : Int) < 256 ^ bytes.length := by
    exact_mod_cast natOfBytes_lt bytes
  unfold signedOfBytes
  split
  · rename_i h
    zify at h
    omega
  · rename_i h
    zify at h
    omega

/-! ## Hexadecimal text -/

/-- The two digits of a byte. -/
def hexPair (byte : UInt8) : List Char :=
  [Nat.digitChar (byte.toNat / 16), Nat.digitChar (byte.toNat % 16)]

/-- The digits of a string of bytes, in lower case. -/
def hexChars (bytes : List UInt8) : List Char :=
  bytes.flatMap hexPair

/-- The value of a digit in either case. -/
def hexValue (c : Char) : Option Nat :=
  if '0' ≤ c ∧ c ≤ '9' then some (c.toNat - 48)
  else if 'a' ≤ c ∧ c ≤ 'f' then some (c.toNat - 87)
  else if 'A' ≤ c ∧ c ≤ 'F' then some (c.toNat - 55)
  else none

/-- Read pairs of digits, with blanks of a kind between the pairs. -/
def readHex (blank : Char → Bool) : List Char → Option (List UInt8)
  | [] => some []
  | [c] => if blank c then some [] else none
  | c :: d :: rest =>
      if blank c then readHex blank (d :: rest)
      else
        match hexValue c, hexValue d with
        | some high, some low =>
            (readHex blank rest).map fun bytes => UInt8.ofNat (high * 16 + low) :: bytes
        | _, _ => none

/-- There are two digits to a byte. -/
@[simp]
theorem length_hexChars (bytes : List UInt8) : (hexChars bytes).length = 2 * bytes.length := by
  induction bytes with
  | nil => rfl
  | cons byte bytes ih =>
      rw [hexChars, List.flatMap_cons, List.length_append, List.length_cons]
      rw [hexChars] at ih
      rw [ih, hexPair, List.length_cons, List.length_singleton]
      omega

/-- A digit is read back. -/
theorem hexValue_digitChar {n : Nat} (h : n < 16) : hexValue (Nat.digitChar n) = some n := by
  revert n
  decide

/-- What is written is read back, if no digit counts as a blank. -/
theorem readHex_hexChars {blank : Char → Bool}
    (hdigits : ∀ n < 16, blank (Nat.digitChar n) = false) (bytes : List UInt8) :
    readHex blank (hexChars bytes) = some bytes := by
  induction bytes with
  | nil => rfl
  | cons byte bytes ih =>
      have hbyte := byte.toNat_lt
      have hhigh : byte.toNat / 16 < 16 := by omega
      have hlow : byte.toNat % 16 < 16 := by omega
      have hwhole : UInt8.ofNat (byte.toNat / 16 * 16 + byte.toNat % 16) = byte := by
        rw [Nat.div_add_mod', UInt8.ofNat_toNat]
      change readHex blank (Nat.digitChar (byte.toNat / 16) ::
        Nat.digitChar (byte.toNat % 16) :: hexChars bytes) = some (byte :: bytes)
      rw [readHex, hdigits _ hhigh, hexValue_digitChar hhigh, hexValue_digitChar hlow]
      simp only [Bool.false_eq_true, if_false, ih, Option.map_some, hwhole]

/-- Two characters are read for every byte, at least. -/
theorem length_of_readHex {blank : Char → Bool} {chars : List Char} {bytes : List UInt8}
    (h : readHex blank chars = some bytes) : 2 * bytes.length ≤ chars.length := by
  induction chars using readHex.induct blank generalizing bytes with
  | case1 =>
      rw [← Option.some.inj h]
      exact Nat.zero_le _
  | case2 c hblank =>
      rw [readHex, if_pos hblank] at h
      rw [← Option.some.inj h]
      exact Nat.zero_le _
  | case3 c hblank =>
      rw [readHex, if_neg hblank] at h
      cases h
  | case4 c d rest hblank ih =>
      rw [readHex, if_pos hblank] at h
      exact Nat.le_succ_of_le (ih h)
  | case5 c d rest hblank high low hhigh hlow ih =>
      rw [readHex, if_neg hblank, hhigh, hlow] at h
      obtain ⟨tail, htail, rfl⟩ := Option.map_eq_some_iff.mp h
      have hle := ih htail
      simp only [List.length_cons]
      omega
  | case6 c d rest hblank hnone =>
      rw [readHex, if_neg hblank] at h
      split at h
      · rename_i high low hhigh hlow
        exact absurd hlow (hnone high low hhigh)
      · cases h

end Foundation
