import Mathlib.Algebra.Order.Floor.Ring
import Mathlib.Algebra.Order.Round
import Mathlib.Data.Int.ConditionallyCompleteOrder
import Mathlib.Data.Int.Log
import Mathlib.Data.Rat.Floor
import Mathlib.Tactic.FieldSimp
import Mathlib.Tactic.Linarith
import Mathlib.Tactic.NormNum
import Mathlib.Tactic.Positivity
import Mathlib.Tactic.Ring

/-!
# Binary floating point

A rational number is rounded to the nearest one with some number of binary digits, and half way
between two of them to the one with the even last digit.  The result of an operation on floats is
the exact result rounded so.

Main results:

- Definition {lit}`roundFloat`: the rounding, and {lit}`roundDouble` with 53 digits.
- Theorem {lit}`roundFloat_mono`: rounding is monotone.
- Theorem {lit}`roundFloat_mul_zpow`: a number that fits is kept.
- Theorem {lit}`roundFloat_le_natCast_iff`: what is rounded to a natural number or below it.
- Definition {lit}`ExactUpTo`: any rounding that keeps the order and the natural numbers up to one
  of them, as that to doubles does and none at all.

Current gaps:

- Exponents are not bounded: there are no infinities and no subnormal numbers.
-/

namespace Foundation

/-! ## Rounding to an integer -/

/-- The nearest integer, and the even one of two that are equally near. -/
def roundEven (x : ℚ) : ℤ :=
  if x - ⌊x⌋ < 1 / 2 then ⌊x⌋
  else if 1 / 2 < x - ⌊x⌋ then ⌊x⌋ + 1
  else ⌊x⌋ + ⌊x⌋ % 2

/-- Rounding does not go below the integer part. -/
theorem floor_le_roundEven (x : ℚ) : ⌊x⌋ ≤ roundEven x := by
  have hparity := Int.emod_nonneg ⌊x⌋ (by decide : (2 : ℤ) ≠ 0)
  unfold roundEven
  split_ifs
  · exact le_rfl
  · omega
  · omega

/-- Rounding does not go above the next integer. -/
theorem roundEven_le_floor_add_one (x : ℚ) : roundEven x ≤ ⌊x⌋ + 1 := by
  have hparity := Int.emod_lt_of_pos ⌊x⌋ (by decide : (0 : ℤ) < 2)
  unfold roundEven
  split_ifs
  · omega
  · exact le_rfl
  · omega

/-- Integers stay as they are. -/
@[simp]
theorem roundEven_intCast (k : ℤ) : roundEven k = k := by
  simp [roundEven]

/-- An integer that is less than one half away is the nearest one. -/
theorem roundEven_eq {x : ℚ} {k : ℤ} (hlow : (k : ℚ) - 1 / 2 < x) (hhigh : x < k + 1 / 2) :
    roundEven x = k := by
  unfold roundEven
  by_cases hbelow : x < k
  · have hfloor : ⌊x⌋ = k - 1 := by
      rw [Int.floor_eq_iff]
      push_cast
      constructor <;> linarith
    rw [hfloor]
    push_cast
    rw [if_neg (by linarith), if_pos (by linarith)]
    omega
  · have hfloor : ⌊x⌋ = k := Int.floor_eq_iff.mpr ⟨not_lt.mp hbelow, by linarith⟩
    rw [hfloor, if_pos (by linarith)]

/-- An even integer that is one half away at most is the nearest one, or it is taken. -/
theorem roundEven_eq_of_even {x : ℚ} {k : ℤ} (heven : k % 2 = 0) (hlow : (k : ℚ) - 1 / 2 ≤ x)
    (hhigh : x ≤ k + 1 / 2) : roundEven x = k := by
  rcases hlow.lt_or_eq with hlow | rfl
  · rcases hhigh.lt_or_eq with hhigh | rfl
    · exact roundEven_eq hlow hhigh
    · have hfloor : ⌊(k : ℚ) + 1 / 2⌋ = k := Int.floor_eq_iff.mpr ⟨by linarith, by linarith⟩
      unfold roundEven
      rw [hfloor, add_sub_cancel_left, if_neg (lt_irrefl _), if_neg (lt_irrefl _), heven, add_zero]
  · have hfloor : ⌊(k : ℚ) - 1 / 2⌋ = k - 1 := by
      rw [Int.floor_eq_iff]
      push_cast
      constructor <;> linarith
    have hhalf : (k : ℚ) - 1 / 2 - ((k - 1 : ℤ) : ℚ) = 1 / 2 := by
      push_cast
      ring
    unfold roundEven
    rw [hfloor, hhalf, if_neg (lt_irrefl _), if_neg (lt_irrefl _)]
    omega

/-- Rounding keeps the order. -/
theorem roundEven_mono : Monotone roundEven := by
  intro x y hle
  have hfloors := Int.floor_le_floor hle
  rcases hfloors.lt_or_eq with hlt | heq
  · calc
      roundEven x ≤ ⌊x⌋ + 1 := roundEven_le_floor_add_one x
      _ ≤ ⌊y⌋ := hlt
      _ ≤ roundEven y := floor_le_roundEven y
  · -- the same integer below: the fractions are in order
    by_cases hx : x - ⌊x⌋ < 1 / 2
    · have hdown : roundEven x = ⌊x⌋ := if_pos hx
      rw [hdown, heq]
      exact floor_le_roundEven y
    · by_cases hy : 1 / 2 < y - ⌊y⌋
      · have hup : roundEven y = ⌊y⌋ + 1 := by
          rw [roundEven, if_neg (not_lt.mpr hy.le), if_pos hy]
        rw [hup, ← heq]
        exact roundEven_le_floor_add_one x
      · -- both are one half above it
        rw [heq] at hx
        have hback : y - ⌊y⌋ ≤ x - ⌊y⌋ := (not_lt.mp hy).trans (not_lt.mp hx)
        have hsame : x = y := le_antisymm hle ((sub_le_sub_iff_right _).mp hback)
        rw [hsame]

/-- Rounding keeps the sign. -/
theorem roundEven_nonneg {x : ℚ} (h : 0 ≤ x) : 0 ≤ roundEven x :=
  (Int.floor_nonneg.mpr h).trans (floor_le_roundEven x)

/-! ## Rounding to digits -/

/-- The exponent of the last of some number of digits of a positive number. -/
def lastExponent (digits : ℕ) (x : ℚ) : ℤ := Int.log 2 x + 1 - digits

/-- A number that is not negative, rounded to some number of digits. -/
def roundMagnitude (digits : ℕ) (x : ℚ) : ℚ :=
  roundEven (x / 2 ^ lastExponent digits x) * 2 ^ lastExponent digits x

/-- A number rounded to some number of digits. -/
def roundFloat (digits : ℕ) (x : ℚ) : ℚ :=
  if 0 ≤ x then roundMagnitude digits x else -roundMagnitude digits (-x)

/-- A number rounded to a double. -/
def roundDouble (x : ℚ) : ℚ := roundFloat 53 x

variable {digits : ℕ} {x y : ℚ}

/-- Powers of two are positive. -/
theorem two_zpow_pos (e : ℤ) : (0 : ℚ) < 2 ^ e := zpow_pos (by norm_num) e

/-- The binary logarithm of a number between two powers of two. -/
theorem log_eq {e : ℤ} (hlow : 2 ^ e ≤ x) (hhigh : x < 2 ^ (e + 1)) : Int.log 2 x = e := by
  have hpos : 0 < x := (two_zpow_pos e).trans_le hlow
  refine le_antisymm ?_ ?_
  · rw [← Int.lt_add_one_iff, ← Int.lt_zpow_iff_log_lt (by norm_num) hpos]
    exact_mod_cast hhigh
  · rw [← Int.zpow_le_iff_le_log (by norm_num) hpos]
    exact_mod_cast hlow

/-- A magnitude is not negative. -/
theorem roundMagnitude_nonneg (digits : ℕ) (h : 0 ≤ x) : 0 ≤ roundMagnitude digits x := by
  have hquotient : 0 ≤ x / 2 ^ lastExponent digits x := div_nonneg h (two_zpow_pos _).le
  have hround : (0 : ℚ) ≤ roundEven (x / 2 ^ lastExponent digits x) := by
    exact_mod_cast roundEven_nonneg hquotient
  exact mul_nonneg hround (two_zpow_pos _).le

/-- A number whose digits end before the last one is kept. -/
theorem roundMagnitude_of_eq {k : ℤ} (h : x = k * 2 ^ lastExponent digits x) :
    roundMagnitude digits x = x := by
  have hquotient : x / 2 ^ lastExponent digits x = k := by
    rw [div_eq_iff (two_zpow_pos _).ne']
    exact h
  rw [roundMagnitude, hquotient, roundEven_intCast]
  exact h.symm

/-- A magnitude is rounded to the next power of two at most. -/
theorem roundMagnitude_le (digits : ℕ) (x : ℚ) :
    roundMagnitude digits x ≤ 2 ^ (Int.log 2 x + 1) := by
  have hlog : x < 2 ^ (Int.log 2 x + 1) := by
    exact_mod_cast Int.lt_zpow_succ_log_self (R := ℚ) (by norm_num : 1 < 2) x
  have hsplit : (2 : ℚ) ^ (Int.log 2 x + 1) = 2 ^ digits * 2 ^ lastExponent digits x := by
    rw [← zpow_natCast, ← zpow_add₀ (by norm_num)]
    congr 1
    unfold lastExponent
    ring
  have hquotient : x / 2 ^ lastExponent digits x ≤ ((2 ^ digits : ℤ) : ℚ) := by
    rw [div_le_iff₀ (two_zpow_pos _)]
    push_cast
    rw [← hsplit]
    exact hlog.le
  have hround := roundEven_mono hquotient
  rw [roundEven_intCast] at hround
  rw [hsplit]
  refine mul_le_mul_of_nonneg_right ?_ (two_zpow_pos _).le
  exact_mod_cast hround

/-- A magnitude is rounded to the last power of two at least. -/
theorem le_roundMagnitude (hdigits : 0 < digits) (h : 0 < x) :
    2 ^ Int.log 2 x ≤ roundMagnitude digits x := by
  have hlog : (2 : ℚ) ^ Int.log 2 x ≤ x := by
    exact_mod_cast Int.zpow_log_le_self (R := ℚ) (by norm_num : 1 < 2) h
  have hsplit : (2 : ℚ) ^ Int.log 2 x = 2 ^ (digits - 1) * 2 ^ lastExponent digits x := by
    rw [← zpow_natCast, ← zpow_add₀ (by norm_num)]
    congr 1
    unfold lastExponent
    omega
  have hquotient : ((2 ^ (digits - 1) : ℤ) : ℚ) ≤ x / 2 ^ lastExponent digits x := by
    rw [le_div_iff₀ (two_zpow_pos _)]
    push_cast
    rw [← hsplit]
    exact hlog
  have hround := roundEven_mono hquotient
  rw [roundEven_intCast] at hround
  rw [hsplit]
  refine mul_le_mul_of_nonneg_right ?_ (two_zpow_pos _).le
  exact_mod_cast hround

/-- Rounding a magnitude keeps the order. -/
theorem roundMagnitude_mono (hdigits : 0 < digits) (h : 0 ≤ x) (hle : x ≤ y) :
    roundMagnitude digits x ≤ roundMagnitude digits y := by
  rcases h.lt_or_eq with hpos | rfl
  · rcases (Int.log_mono_right (b := 2) hpos hle).lt_or_eq with hlt | heq
    · calc
        roundMagnitude digits x ≤ 2 ^ (Int.log 2 x + 1) := roundMagnitude_le digits x
        _ ≤ 2 ^ Int.log 2 y := zpow_le_zpow_right₀ (by norm_num) hlt
        _ ≤ roundMagnitude digits y := le_roundMagnitude hdigits (hpos.trans_le hle)
    · -- the same exponent: the quotients are in order
      have hexponent : lastExponent digits x = lastExponent digits y := by
        rw [lastExponent, heq, lastExponent]
      unfold roundMagnitude
      rw [hexponent]
      refine mul_le_mul_of_nonneg_right ?_ (two_zpow_pos _).le
      exact_mod_cast roundEven_mono (div_le_div_of_nonneg_right hle (two_zpow_pos _).le)
  · have hzero : roundMagnitude digits 0 = 0 := roundMagnitude_of_eq (k := 0) (by simp)
    rw [hzero]
    exact roundMagnitude_nonneg digits hle

/-- Rounding is monotone. -/
theorem roundFloat_mono (hdigits : 0 < digits) : Monotone (roundFloat digits) := by
  intro x y hle
  unfold roundFloat
  split_ifs with hx hy hy
  · exact roundMagnitude_mono hdigits hx hle
  · exact absurd (hx.trans hle) hy
  · have hlow := roundMagnitude_nonneg digits (neg_nonneg.mpr (not_le.mp hx).le)
    have hhigh := roundMagnitude_nonneg digits hy
    linarith
  · exact neg_le_neg (roundMagnitude_mono hdigits (neg_nonneg.mpr (not_le.mp hy).le)
      (neg_le_neg hle))

/-! ## Numbers that fit -/

/-- The last digit of a number that is small enough. -/
theorem lastExponent_le {e : ℤ} (h : 0 < x) (hlt : x < 2 ^ (digits + e)) :
    lastExponent digits x ≤ e := by
  have hlog : Int.log 2 x < digits + e := by
    rw [← Int.lt_zpow_iff_log_lt (by norm_num) h]
    exact_mod_cast hlt
  unfold lastExponent
  omega

/-- A number with few enough digits stays as it is. -/
theorem roundMagnitude_mul_zpow {n : ℕ} (h : n < 2 ^ digits) (e : ℤ) :
    roundMagnitude digits (n * 2 ^ e) = n * 2 ^ e := by
  rcases Nat.eq_zero_or_pos n with rfl | hpos
  · exact roundMagnitude_of_eq (k := 0) (by simp)
  · have hn : (0 : ℚ) < n := by exact_mod_cast hpos
    have hlt : (n : ℚ) * 2 ^ e < 2 ^ (digits + e) := by
      rw [zpow_add₀ (by norm_num), zpow_natCast]
      exact mul_lt_mul_of_pos_right (by exact_mod_cast h) (two_zpow_pos e)
    have hlast := lastExponent_le (mul_pos hn (two_zpow_pos e)) hlt
    -- the digits up to the last one are those of a multiple
    obtain ⟨shift, hshift⟩ := Int.eq_ofNat_of_zero_le (sub_nonneg.mpr hlast)
    refine roundMagnitude_of_eq (k := n * 2 ^ shift) ?_
    have hsplit : (2 : ℚ) ^ e = 2 ^ shift * 2 ^ lastExponent digits ((n : ℚ) * 2 ^ e) := by
      rw [← zpow_natCast, ← zpow_add₀ (by norm_num), ← hshift, sub_add_cancel]
    push_cast
    rw [mul_assoc, ← hsplit]

/-- A number that fits is kept. -/
theorem roundFloat_mul_zpow {k : ℤ} (h : k.natAbs < 2 ^ digits) (e : ℤ) :
    roundFloat digits (k * 2 ^ e) = k * 2 ^ e := by
  have hkept := roundMagnitude_mul_zpow h e
  rw [Nat.cast_natAbs, Int.cast_abs] at hkept
  unfold roundFloat
  rcases le_or_gt 0 (k : ℚ) with hk | hk
  · rw [abs_of_nonneg hk] at hkept
    rw [if_pos (mul_nonneg hk (two_zpow_pos e).le), hkept]
  · rw [abs_of_neg hk, neg_mul] at hkept
    rw [if_neg (not_le.mpr (mul_neg_of_neg_of_pos hk (two_zpow_pos e))), hkept, neg_neg]

/-- An integer with few enough digits stays as it is. -/
theorem roundFloat_natCast {n : ℕ} (h : n < 2 ^ digits) : roundFloat digits n = n := by
  have hkept := roundFloat_mul_zpow (k := n) h 0
  rwa [zpow_zero, mul_one, Int.cast_natCast] at hkept

/-! ## What a number is rounded to -/

/-- A number with some exponent is rounded to a multiple of the last one. -/
theorem roundFloat_of_zpow_le {e : ℤ} (hlow : 2 ^ (e + digits - 1) ≤ x)
    (hhigh : x < 2 ^ (e + digits)) : roundFloat digits x = roundEven (x / 2 ^ e) * 2 ^ e := by
  have hpos : 0 < x := (two_zpow_pos _).trans_le hlow
  have hlog : Int.log 2 x = e + digits - 1 := log_eq hlow (by rwa [sub_add_cancel])
  have hlast : lastExponent digits x = e := by
    rw [lastExponent, hlog]
    ring
  rw [roundFloat, if_pos hpos.le, roundMagnitude, hlast]

/-! ## Next to a natural number -/

/-- The last digit of a positive natural number. -/
def lastDigit (digits n : ℕ) : ℚ := 2 ^ ((Nat.log 2 n : ℤ) + 1 - digits)

variable {n : ℕ}

/-- The last digit has a positive weight. -/
theorem lastDigit_pos (digits n : ℕ) : 0 < lastDigit digits n := two_zpow_pos _

/-- The last digit of a number with few enough digits is that of an integer or below. -/
theorem lastDigit_le_one (h : Nat.log 2 n < digits) : lastDigit digits n ≤ 1 :=
  zpow_le_one_of_nonpos₀ (by norm_num) (by omega)

/-- A number that is short of all digits is an even multiple of the last one. -/
theorem natCast_eq_mul_lastDigit (h : Nat.log 2 n < digits - 1) :
    ∃ k : ℤ, k % 2 = 0 ∧ (n : ℚ) = k * lastDigit digits n := by
  obtain ⟨shift, hshift⟩ := Nat.exists_eq_add_of_lt h
  refine ⟨n * 2 ^ shift * 2, Int.mul_emod_left _ 2, ?_⟩
  have hpower : (2 : ℚ) ^ shift * 2 * lastDigit digits n = 1 := by
    rw [← pow_succ, ← zpow_natCast, lastDigit, ← zpow_add₀ (by norm_num)]
    have hzero : ((shift + 1 : ℕ) : ℤ) + ((Nat.log 2 n : ℤ) + 1 - digits) = 0 := by omega
    rw [hzero, zpow_zero]
  push_cast
  rw [mul_assoc, mul_assoc, ← mul_assoc (2 ^ shift : ℚ), hpower, mul_one]

/-- A number up to the next natural number has its last digit. -/
theorem roundFloat_of_lt_succ (hn : 0 < n) (hlow : n ≤ x) (hhigh : x < n + 1) :
    roundFloat digits x = roundEven (x / lastDigit digits n) * lastDigit digits n := by
  have hpow : ((2 ^ Nat.log 2 n : ℕ) : ℚ) ≤ n := by exact_mod_cast Nat.pow_log_le_self 2 hn.ne'
  have hnext : (n : ℚ) + 1 ≤ (2 ^ (Nat.log 2 n + 1) : ℕ) := by
    exact_mod_cast Nat.lt_pow_succ_log_self (by norm_num) n
  have hlog : Int.log 2 x = Nat.log 2 n := by
    refine log_eq ?_ ?_
    · rw [zpow_natCast]
      push_cast at hpow
      exact hpow.trans hlow
    · rw [← Nat.cast_succ, zpow_natCast]
      push_cast at hnext
      exact hhigh.trans_le hnext
  rw [roundFloat, if_pos ((Nat.cast_nonneg n).trans hlow), roundMagnitude, lastExponent, hlog]
  rfl

/-- What is rounded to a natural number or below it: what is no more than half of the last digit
above it. -/
theorem roundFloat_le_natCast_iff (hn : 0 < n) (h : n < 2 ^ (digits - 1)) (x : ℚ) :
    roundFloat digits x ≤ n ↔ x ≤ n + lastDigit digits n / 2 := by
  have hlog : Nat.log 2 n < digits - 1 := Nat.log_lt_of_lt_pow hn.ne' h
  have hpos := lastDigit_pos digits n
  have hone : lastDigit digits n ≤ 1 := lastDigit_le_one (by omega)
  have hmono : Monotone (roundFloat digits) := roundFloat_mono (by omega)
  obtain ⟨k, heven, hk⟩ := natCast_eq_mul_lastDigit hlog
  constructor
  · intro hle
    by_contra hlt
    rw [not_le] at hlt
    -- three quarters of the digit are rounded up
    have hbetween : (n : ℚ) + lastDigit digits n / 2 <
        min x (n + 3 / 4 * lastDigit digits n) := lt_min hlt (by linarith)
    have hupper := min_le_right x (n + 3 / 4 * lastDigit digits n)
    have hround : roundFloat digits (min x (n + 3 / 4 * lastDigit digits n)) =
        ((k + 1 : ℤ) : ℚ) * lastDigit digits n := by
      rw [roundFloat_of_lt_succ hn (by linarith) (by linarith), roundEven_eq]
      · rw [lt_div_iff₀ hpos]
        push_cast
        linarith
      · rw [div_lt_iff₀ hpos]
        push_cast
        linarith
    have hless := (hmono (min_le_left x (n + 3 / 4 * lastDigit digits n))).trans hle
    rw [hround, hk] at hless
    push_cast at hless
    linarith
  · intro hle
    refine (hmono hle).trans_eq ?_
    have hquotient : ((n : ℚ) + lastDigit digits n / 2) / lastDigit digits n = k + 1 / 2 := by
      rw [div_eq_iff hpos.ne', hk]
      ring
    rw [roundFloat_of_lt_succ hn (by linarith) (by linarith), hquotient,
      roundEven_eq_of_even heven (by linarith) le_rfl, hk]

/-! ## Roundings that keep natural numbers -/

/-- A rounding keeps the order, and the natural numbers up to one of them. -/
structure ExactUpTo (round : ℚ → ℚ) (n : ℕ) : Prop where
  mono : Monotone round
  natCast : ∀ m : ℕ, m ≤ n → round m = m

/-- Exact arithmetic rounds nothing. -/
theorem exactUpTo_id (n : ℕ) : ExactUpTo id n := ⟨monotone_id, fun _ _ => rfl⟩

/-- Doubles hold the integers below two to the fifty-three. -/
theorem exactUpTo_roundDouble (h : n < 2 ^ 53) : ExactUpTo roundDouble n where
  mono := roundFloat_mono (by decide)
  natCast _ hm := roundFloat_natCast (hm.trans_lt h)

section

variable {round : ℚ → ℚ}

/-- Zero stays zero. -/
theorem ExactUpTo.zero (h : ExactUpTo round n) : round 0 = 0 := by
  exact_mod_cast h.natCast 0 (Nat.zero_le n)

/-- Rounding keeps the sign. -/
theorem ExactUpTo.nonneg (h : ExactUpTo round n) (hx : 0 ≤ x) : 0 ≤ round x :=
  h.zero.ge.trans (h.mono hx)

/-- Rounding does not go beyond an integer that stays as it is. -/
theorem ExactUpTo.le_natCast (h : ExactUpTo round n) {m : ℕ} (hm : m ≤ n) (hx : x ≤ m) :
    round x ≤ m :=
  (h.mono hx).trans_eq (h.natCast m hm)

/-- What is rounded to a natural number or below it is not the next one. -/
theorem ExactUpTo.le_of_round_le (h : ExactUpTo round (n + 1)) {m : ℕ} (hm : (m : ℚ) ≤ x)
    (hle : round x ≤ n) : m ≤ n := by
  by_contra hlt
  have hnext : ((n + 1 : ℕ) : ℚ) ≤ x := le_trans (by exact_mod_cast not_le.mp hlt) hm
  have hround := (h.mono hnext).trans hle
  rw [h.natCast (n + 1) le_rfl] at hround
  exact absurd (Nat.cast_le.mp hround) (Nat.not_succ_le_self n)

end

end Foundation
