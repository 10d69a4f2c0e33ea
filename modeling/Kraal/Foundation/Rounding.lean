import Mathlib.Data.Nat.Size
import Mathlib.Algebra.Order.Ring.Nat
import Mathlib.Data.Int.Basic

/-!
# Rounding to binary digits

A natural number that needs more than some number of binary digits is rounded to the nearest one
that does not, and half way between two of them to the one with the even last digit.  A negative
number is rounded as its absolute value is.

Main results:

- Theorem {lit}`roundBits_of_lt`: a number that fits is kept.
- Theorem {lit}`two_pow_le_roundBits`: a number that does not fit is not rounded to one below.
- Theorem {lit}`roundInt_of_lt`: an integer that fits is kept.
-/

namespace Foundation

/-- The quotient by a power of two, rounded to the nearest one and half to even. -/
def roundShift (n shift : Nat) : Nat :=
  let quotient := n / 2 ^ shift
  let rest := n % 2 ^ shift
  if 2 * rest < 2 ^ shift then quotient
  else if 2 ^ shift < 2 * rest then quotient + 1
  else quotient + quotient % 2

/-- A number rounded to some number of binary digits. -/
def roundBits (digits n : Nat) : Nat :=
  let shift := n.size - digits
  roundShift n shift * 2 ^ shift

variable {digits n shift : Nat}

@[simp]
theorem roundShift_zero (n : Nat) : roundShift n 0 = n := by
  simp [roundShift, Nat.mod_one]

theorem le_roundShift (n shift : Nat) : n / 2 ^ shift ≤ roundShift n shift := by
  unfold roundShift
  dsimp only
  split
  · exact le_rfl
  · split
    · exact Nat.le_succ _
    · exact Nat.le_add_right _ _

/-- A number that fits is kept. -/
theorem roundBits_of_lt (h : n < 2 ^ digits) : roundBits digits n = n := by
  have hsize : n.size - digits = 0 := Nat.sub_eq_zero_of_le (Nat.size_le.mpr h)
  unfold roundBits
  dsimp only
  rw [hsize, roundShift_zero, pow_zero, mul_one]

/-- A number that does not fit is not rounded to one below all of these. -/
theorem two_pow_le_roundBits (hdigits : 0 < digits) (h : 2 ^ digits ≤ n) :
    2 ^ digits ≤ roundBits digits n := by
  have hsize : digits < n.size := Nat.lt_size.mpr h
  have hlast : 2 ^ (n.size - 1) ≤ n := Nat.lt_size.mp (by omega)
  have hsplit : 2 ^ (n.size - 1) = 2 ^ (digits - 1) * 2 ^ (n.size - digits) := by
    rw [← pow_add]
    congr 1
    omega
  have hquotient : 2 ^ (digits - 1) ≤ n / 2 ^ (n.size - digits) := by
    apply (Nat.le_div_iff_mul_le (Nat.two_pow_pos _)).mpr
    rw [← hsplit]
    exact hlast
  calc
    2 ^ digits ≤ 2 ^ (n.size - 1) := Nat.pow_le_pow_right (by decide) (by omega)
    _ = 2 ^ (digits - 1) * 2 ^ (n.size - digits) := hsplit
    _ ≤ roundShift n (n.size - digits) * 2 ^ (n.size - digits) :=
        Nat.mul_le_mul_right _ (hquotient.trans (le_roundShift _ _))

/-- An integer rounded to some number of binary digits. -/
def roundInt (digits : Nat) (n : Int) : Int := n.sign * roundBits digits n.natAbs

/-- An integer that fits is kept. -/
theorem roundInt_of_lt {n : Int} (h : n.natAbs < 2 ^ digits) : roundInt digits n = n := by
  rw [roundInt, roundBits_of_lt h]
  exact Int.sign_mul_natAbs n

end Foundation
