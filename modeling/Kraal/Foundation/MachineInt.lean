import Mathlib.Tactic.Linarith
import Mathlib.Tactic.Positivity
import Mathlib.Data.Int.ModEq

/-!
# Machine integers with explicit overflow

Fixed-width integers in the style of a systems language.  A value is an exact
integer together with the proof that it lies in the range of its type, so an
out-of-range value cannot be built; arithmetic is the exact integer arithmetic
followed by a range check.  Every operation is specified through
{lit}`toInt`, which turns overflow reasoning into linear integer arithmetic.

Main results:

- Theorem {lit}`MInt.ofInt?_eq_some`: the range check returns exactly the
  integer it was given.
- Theorems {lit}`MInt.checkedAdd_eq_some`, {lit}`MInt.checkedSub_eq_some`,
  {lit}`MInt.checkedMul_eq_some`, {lit}`MInt.checkedDiv_eq_some`: a checked
  operation that returns a value returns the exact result.
- Theorem {lit}`MInt.saturatingSub_exact`: a saturating subtraction whose exact
  result is representable does not saturate.
- Theorem {lit}`MInt.toBeBytes_injective`: the big-endian encoding of one type
  is injective, and {lit}`MInt.length_toBeBytes` gives its fixed length.
-/

namespace Foundation

/-! ## Integer types -/

/-- An integer type: its range, which contains zero, and a number of bytes that
is enough to tell its values apart. -/
structure IntType where
  bytes : Nat
  lo : Int
  hi : Int
  lo_le_zero : lo ≤ 0
  zero_le_hi : 0 ≤ hi
  range_lt : hi - lo < 256 ^ bytes

/-- Unsigned 32-bit integers. -/
def IntType.u32 : IntType := ⟨4, 0, 2 ^ 32 - 1, by decide, by decide, by decide⟩

/-- Unsigned 64-bit integers. -/
def IntType.u64 : IntType := ⟨8, 0, 2 ^ 64 - 1, by decide, by decide, by decide⟩

/-- Signed 64-bit integers. -/
def IntType.i64 : IntType := ⟨8, -2 ^ 63, 2 ^ 63 - 1, by decide, by decide, by decide⟩

/-- Signed 128-bit integers. -/
def IntType.i128 : IntType := ⟨16, -2 ^ 127, 2 ^ 127 - 1, by decide, by decide, by decide⟩

/-- A machine integer of type `t`. -/
@[ext]
structure MInt (t : IntType) where
  toInt : Int
  lo_le : t.lo ≤ toInt
  le_hi : toInt ≤ t.hi
deriving DecidableEq

/-- Unsigned integers of 32 bits. -/
abbrev U32 := MInt IntType.u32

/-- Unsigned integers of 64 bits. -/
abbrev U64 := MInt IntType.u64

/-- Signed integers of 64 bits. -/
abbrev I64 := MInt IntType.i64

/-- Signed integers of 128 bits. -/
abbrev I128 := MInt IntType.i128

namespace MInt

variable {t : IntType}

theorem toInt_injective : Function.Injective (toInt : MInt t → Int) :=
  fun _ _ h => MInt.ext h

/-- The value of an integer if it is representable. -/
def ofInt? (t : IntType) (x : Int) : Option (MInt t) :=
  if h : t.lo ≤ x ∧ x ≤ t.hi then some ⟨x, h.1, h.2⟩ else none

/-- The representable value closest to an integer. -/
def clamp (t : IntType) (x : Int) : MInt t where
  toInt := max t.lo (min x t.hi)
  lo_le := le_max_left _ _
  le_hi := by
    have := t.lo_le_zero
    have := t.zero_le_hi
    omega

/-- The largest value of the type. -/
def maxValue (t : IntType) : MInt t :=
  ⟨t.hi, le_trans t.lo_le_zero t.zero_le_hi, le_rfl⟩

instance (n : Nat) : OfNat (MInt t) n := ⟨clamp t n⟩

instance : Inhabited (MInt t) := ⟨0⟩

instance : LE (MInt t) := ⟨fun a b => a.toInt ≤ b.toInt⟩

instance : LT (MInt t) := ⟨fun a b => a.toInt < b.toInt⟩

instance (a b : MInt t) : Decidable (a ≤ b) := inferInstanceAs (Decidable (a.toInt ≤ b.toInt))

instance (a b : MInt t) : Decidable (a < b) := inferInstanceAs (Decidable (a.toInt < b.toInt))

@[simp]
theorem le_def (a b : MInt t) : a ≤ b ↔ a.toInt ≤ b.toInt :=
  Iff.rfl

@[simp]
theorem lt_def (a b : MInt t) : a < b ↔ a.toInt < b.toInt :=
  Iff.rfl

/-- The range check returns exactly the integer it was given. -/
@[simp]
theorem ofInt?_eq_some {x : Int} {a : MInt t} : ofInt? t x = some a ↔ a.toInt = x := by
  unfold ofInt?
  split
  · simp only [Option.some.injEq, MInt.ext_iff]
    exact eq_comm
  · rename_i hout
    simp only [reduceCtorEq, false_iff]
    intro hsame
    subst hsame
    exact hout ⟨a.lo_le, a.le_hi⟩

/-- The range check fails exactly outside the range. -/
@[simp]
theorem ofInt?_eq_none {x : Int} : ofInt? t x = none ↔ x < t.lo ∨ t.hi < x := by
  unfold ofInt?
  split <;> simp only [reduceCtorEq, false_iff, true_iff] <;> omega

/-- An integer is representable. -/
def InRange (t : IntType) (x : Int) : Prop := t.lo ≤ x ∧ x ≤ t.hi

theorem inRange_iff_exists {x : Int} : InRange t x ↔ ∃ a : MInt t, a.toInt = x := by
  constructor
  · intro h
    exact ⟨⟨x, h.1, h.2⟩, rfl⟩
  · intro h
    rcases h with ⟨a, rfl⟩
    exact ⟨a.lo_le, a.le_hi⟩

/-- A quotient truncated toward zero is representable if the dividend is. -/
theorem InRange.tdiv {x : Int} (h : InRange t x) {d : Int} (hd : 0 < d) :
    InRange t (x.tdiv d) := by
  have hlo := t.lo_le_zero
  have hhi := t.zero_le_hi
  rcases le_total 0 x with hx | hx
  · have hle := Int.tdiv_le_self d hx
    have hnonneg := Int.tdiv_nonneg hx hd.le
    exact ⟨hlo.trans hnonneg, hle.trans h.2⟩
  · have hle := Int.tdiv_le_self d (neg_nonneg.mpr hx)
    have hnonneg := Int.tdiv_nonneg (neg_nonneg.mpr hx) hd.le
    rw [Int.neg_tdiv] at hle hnonneg
    exact ⟨h.1.trans (neg_le_neg_iff.mp hle), (neg_nonneg.mp hnonneg).trans hhi⟩

/-- A clamped representable integer is itself. -/
theorem toInt_clamp {x : Int} (hlo : t.lo ≤ x) (hhi : x ≤ t.hi) : (clamp t x).toInt = x := by
  simp only [clamp]
  omega

@[simp]
theorem toInt_zero : (0 : MInt t).toInt = 0 :=
  toInt_clamp t.lo_le_zero t.zero_le_hi

theorem eq_zero_iff {a : MInt t} : a = 0 ↔ a.toInt = 0 := by
  rw [MInt.ext_iff, toInt_zero]

/-! ## Arithmetic -/

/-- Addition that fails on overflow. -/
def checkedAdd (a b : MInt t) : Option (MInt t) := ofInt? t (a.toInt + b.toInt)

/-- Subtraction that fails on overflow. -/
def checkedSub (a b : MInt t) : Option (MInt t) := ofInt? t (a.toInt - b.toInt)

/-- Multiplication that fails on overflow. -/
def checkedMul (a b : MInt t) : Option (MInt t) := ofInt? t (a.toInt * b.toInt)

/-- Division truncated toward zero, which fails on a zero divisor and on overflow. -/
def checkedDiv (a b : MInt t) : Option (MInt t) :=
  if b.toInt = 0 then none else ofInt? t (a.toInt.tdiv b.toInt)

/-- The remainder of that division, with the sign of the dividend.  It fails where the division
does. -/
def checkedRem (a b : MInt t) : Option (MInt t) :=
  if (checkedDiv a b).isNone then none else ofInt? t (a.toInt.tmod b.toInt)

/-- Addition clamped to the range of the type. -/
def saturatingAdd (a b : MInt t) : MInt t := clamp t (a.toInt + b.toInt)

/-- Subtraction clamped to the range of the type. -/
def saturatingSub (a b : MInt t) : MInt t := clamp t (a.toInt - b.toInt)

/-- Negation clamped to the range of the type. -/
def saturatingNeg (a : MInt t) : MInt t := clamp t (-a.toInt)

/-- Conversion that keeps the value modulo the size of the target type. -/
def wrap {s : IntType} (a : MInt s) (t : IntType) : MInt t where
  toInt := t.lo + (a.toInt - t.lo) % (t.hi - t.lo + 1)
  lo_le := by
    have := t.lo_le_zero
    have := t.zero_le_hi
    have := Int.emod_nonneg (a.toInt - t.lo) (by omega : t.hi - t.lo + 1 ≠ 0)
    omega
  le_hi := by
    have := t.lo_le_zero
    have := t.zero_le_hi
    have := Int.emod_lt_of_pos (a.toInt - t.lo) (by omega : 0 < t.hi - t.lo + 1)
    omega

/-- Conversion to a type whose range includes that of the source type. -/
def widen {s : IntType} (a : MInt s) (t : IntType) (hlo : t.lo ≤ s.lo) (hhi : s.hi ≤ t.hi) :
    MInt t :=
  ⟨a.toInt, le_trans hlo a.lo_le, le_trans a.le_hi hhi⟩

@[simp]
theorem toInt_widen {s : IntType} (a : MInt s) (hlo : t.lo ≤ s.lo) (hhi : s.hi ≤ t.hi) :
    (a.widen t hlo hhi).toInt = a.toInt :=
  rfl

@[simp]
theorem checkedAdd_eq_some {a b c : MInt t} :
    checkedAdd a b = some c ↔ c.toInt = a.toInt + b.toInt :=
  ofInt?_eq_some

@[simp]
theorem checkedSub_eq_some {a b c : MInt t} :
    checkedSub a b = some c ↔ c.toInt = a.toInt - b.toInt :=
  ofInt?_eq_some

@[simp]
theorem checkedMul_eq_some {a b c : MInt t} :
    checkedMul a b = some c ↔ c.toInt = a.toInt * b.toInt :=
  ofInt?_eq_some

@[simp]
theorem checkedDiv_eq_some {a b c : MInt t} :
    checkedDiv a b = some c ↔ b.toInt ≠ 0 ∧ c.toInt = a.toInt.tdiv b.toInt := by
  unfold checkedDiv
  split <;> simp [*]

/-- A division by a positive number does not fail. -/
theorem checkedDiv_of_pos {a b : MInt t} (hb : 0 < b.toInt) :
    ∃ c, checkedDiv a b = some c ∧ c.toInt = a.toInt.tdiv b.toInt := by
  rcases inRange_iff_exists.mp (InRange.tdiv ⟨a.lo_le, a.le_hi⟩ hb) with ⟨c, hc⟩
  exact ⟨c, checkedDiv_eq_some.mpr ⟨hb.ne', hc⟩, hc⟩

/-- Neither does its remainder. -/
theorem checkedRem_of_pos {a b : MInt t} (hb : 0 < b.toInt) :
    ∃ c, checkedRem a b = some c ∧ c.toInt = a.toInt.tmod b.toInt := by
  rcases checkedDiv_of_pos (a := a) hb with ⟨quotient, hquotient, -⟩
  have hrange : InRange t (a.toInt.tmod b.toInt) := by
    have hlo := t.lo_le_zero
    have hhi := t.zero_le_hi
    have ha := a.lo_le
    have hb' := b.le_hi
    have hlt := Int.tmod_lt_of_pos a.toInt hb
    rcases le_total 0 a.toInt with hnonneg | hneg
    · exact ⟨hlo.trans (Int.tmod_nonneg b.toInt hnonneg), hlt.le.trans hb'⟩
    · have hle := Int.tmod_nonneg b.toInt (neg_nonneg.mpr hneg)
      have hquot := Int.tdiv_nonneg (neg_nonneg.mpr hneg) hb.le
      have hsplit := Int.mul_tdiv_add_tmod (-a.toInt) b.toInt
      rw [Int.neg_tmod] at hle hsplit
      have hprod := mul_nonneg hb.le hquot
      exact ⟨by linarith, by linarith⟩
  rcases inRange_iff_exists.mp hrange with ⟨c, hc⟩
  refine ⟨c, ?_, hc⟩
  rw [checkedRem, hquotient]
  exact ofInt?_eq_some.mpr hc

/-- Addition succeeds whenever the exact sum is representable. -/
theorem checkedAdd_isSome {a b : MInt t} (hlo : t.lo ≤ a.toInt + b.toInt)
    (hhi : a.toInt + b.toInt ≤ t.hi) : (checkedAdd a b).isSome := by
  rw [Option.isSome_iff_ne_none, Ne, checkedAdd, ofInt?_eq_none]
  omega

/-- Subtraction succeeds whenever the exact difference is representable. -/
theorem checkedSub_isSome {a b : MInt t} (hlo : t.lo ≤ a.toInt - b.toInt)
    (hhi : a.toInt - b.toInt ≤ t.hi) : (checkedSub a b).isSome := by
  rw [Option.isSome_iff_ne_none, Ne, checkedSub, ofInt?_eq_none]
  omega

theorem ofInt?_isSome_iff {x : Int} : (ofInt? t x).isSome = true ↔ InRange t x := by
  unfold ofInt? InRange
  split <;> simp [*]

/-- An unsigned sum does not overflow exactly if it is not too large. -/
theorem checkedAdd_u32_isSome_iff {a b : U32} :
    (checkedAdd a b).isSome = true ↔ a.toInt + b.toInt ≤ 2 ^ 32 - 1 := by
  rw [checkedAdd, ofInt?_isSome_iff]
  constructor
  · intro h
    exact h.2
  · intro hle
    exact ⟨add_nonneg a.lo_le b.lo_le, hle⟩

/-- An unsigned difference does not underflow exactly if it is not negative. -/
theorem checkedSub_u32_isSome_iff {a b : U32} : (checkedSub a b).isSome = true ↔ b ≤ a := by
  rw [checkedSub, ofInt?_isSome_iff, le_def]
  constructor
  · intro h
    exact sub_nonneg.mp h.1
  · intro hle
    exact ⟨sub_nonneg.mpr hle, (sub_le_self _ b.lo_le).trans a.le_hi⟩

/-- The clamped unsigned sum is the exact sum or the largest value. -/
theorem toInt_saturatingAdd_u32 (a b : U32) :
    (saturatingAdd a b).toInt = min (a.toInt + b.toInt) (2 ^ 32 - 1) := by
  have ha := a.lo_le
  have hb := b.lo_le
  change max 0 (min (a.toInt + b.toInt) (2 ^ 32 - 1)) = _
  change 0 ≤ a.toInt at ha
  change 0 ≤ b.toInt at hb
  omega

/-- The clamped difference, in exact arithmetic. -/
theorem toInt_saturatingSub (a b : MInt t) :
    (saturatingSub a b).toInt = max t.lo (min (a.toInt - b.toInt) t.hi) :=
  rfl

/-- A saturating subtraction with a representable result is exact. -/
theorem saturatingSub_exact {a b : MInt t} (hlo : t.lo ≤ a.toInt - b.toInt)
    (hhi : a.toInt - b.toInt ≤ t.hi) : (saturatingSub a b).toInt = a.toInt - b.toInt :=
  toInt_clamp hlo hhi

end MInt

/-! ## Truncated quotients against a limit -/

/-- A quotient by a positive number, truncated toward zero, is below a positive limit
exactly when the exact quotient is. -/
theorem tdiv_lt_iff {a b limit : Int} (hb : 0 < b) (hlimit : 0 < limit) :
    a.tdiv b < limit ↔ a < limit * b := by
  rcases le_total 0 a with ha | ha
  · rw [Int.tdiv_eq_ediv_of_nonneg ha, Int.ediv_lt_iff_lt_mul hb]
  · have hquotient : a.tdiv b ≤ 0 := by
      have hneg := Int.tdiv_nonneg (neg_nonneg.mpr ha) hb.le
      rw [Int.neg_tdiv] at hneg
      omega
    have hproduct : 0 < limit * b := mul_pos hlimit hb
    constructor
    · intro _
      exact ha.trans_lt hproduct
    · intro _
      exact hquotient.trans_lt hlimit

/-- The same for a quotient by a negative number. -/
theorem tdiv_lt_iff_of_neg {a b limit : Int} (hb : b < 0) (hlimit : 0 < limit) :
    a.tdiv b < limit ↔ limit * b < a := by
  rw [← Int.neg_tdiv_neg, tdiv_lt_iff (neg_pos.mpr hb) hlimit, mul_neg, neg_lt_neg_iff]

/-! ## Big-endian encoding -/

/-- The last `n` base-256 digits of a natural number, most significant first. -/
def bigEndian : Nat → Nat → List UInt8
  | 0, _ => []
  | n + 1, x => bigEndian n (x / 256) ++ [UInt8.ofNat x]

@[simp]
theorem length_bigEndian (n x : Nat) : (bigEndian n x).length = n := by
  induction n generalizing x with
  | zero => rfl
  | succ n ih => simp [bigEndian, ih]

/-- Equal digit strings come from numbers that agree modulo the base power. -/
theorem mod_eq_of_bigEndian_eq {n x y : Nat} (h : bigEndian n x = bigEndian n y) :
    x % 256 ^ n = y % 256 ^ n := by
  induction n generalizing x y with
  | zero => simp [Nat.mod_one]
  | succ n ih =>
      simp only [bigEndian] at h
      obtain ⟨hinit, hlast⟩ := List.append_inj' h rfl
      have hdigit : x % 256 = y % 256 := by
        have := congrArg UInt8.toNat (List.singleton_inj.mp hlast)
        simpa using this
      have hrest : x / 256 % 256 ^ n = y / 256 % 256 ^ n := ih hinit
      rw [pow_succ', Nat.mod_mul, Nat.mod_mul, hdigit, hrest]

namespace MInt

variable {t : IntType}

/-- Two's complement big-endian bytes of a machine integer. -/
def toBeBytes (a : MInt t) : List UInt8 :=
  bigEndian t.bytes (a.toInt % 256 ^ t.bytes).toNat

@[simp]
theorem length_toBeBytes (a : MInt t) : a.toBeBytes.length = t.bytes :=
  length_bigEndian _ _

/-- The encoding of one integer type is injective. -/
theorem toBeBytes_injective : Function.Injective (toBeBytes : MInt t → List UInt8) := by
  intro a b h
  have hpos : (0 : Int) < 256 ^ t.bytes := by positivity
  have hmod : a.toInt % 256 ^ t.bytes = b.toInt % 256 ^ t.bytes := by
    have hnat := mod_eq_of_bigEndian_eq h
    have ha := Int.emod_nonneg a.toInt hpos.ne'
    have hb := Int.emod_nonneg b.toInt hpos.ne'
    have ha' := Int.emod_lt_of_pos a.toInt hpos
    have hb' := Int.emod_lt_of_pos b.toInt hpos
    have hcast : ((256 ^ t.bytes : Nat) : Int) = 256 ^ t.bytes := by push_cast; rfl
    rw [Nat.mod_eq_of_lt (by omega), Nat.mod_eq_of_lt (by omega)] at hnat
    omega
  -- two values of one type are less than the modulus apart
  have hsub : (256 ^ t.bytes : Int) ∣ a.toInt - b.toInt := Int.ModEq.dvd (Int.ModEq.symm hmod)
  have hrange := t.range_lt
  have := a.lo_le
  have := a.le_hi
  have := b.lo_le
  have := b.le_hi
  have hzero : a.toInt - b.toInt = 0 :=
    Int.eq_zero_of_abs_lt_dvd hsub (abs_lt.mpr ⟨by omega, by omega⟩)
  exact toInt_injective (by omega)

end MInt

end Foundation
