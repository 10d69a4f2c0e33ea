import Kraal.Foundation.MachineInt

/-!
# Fixed-point numbers

The conversions between quantities and their fixed-point representation, which the contracts share.
The conversion back is documented to round down; it divides with truncation toward zero, and so it
rounds negative quantities up.

Main results:

- Definitions {lit}`toFixed` and {lit}`fromFixed`: the two conversions.
- Theorem {lit}`fromFixed_eq_ok`: what the conversion back returns.
- Theorem {lit}`convertsExactly_iff`: for which quantities it rounds down within its tolerance.
-/

namespace Kraal
namespace Arithmetic

open Foundation

/-- The largest number of 32 bits, which bounds a credit quantity. -/
def maxCreditQuantity : I128 := ⟨2 ^ 31 - 1, by decide, by decide⟩

/-- The errors of the conversions. -/
inductive ArithmeticError where
  | overflow
  | outOfRange
  | precisionLoss
  | divisionByZero
deriving DecidableEq, Repr

/-- A value that is there, or an error. -/
def okOr {α : Type} (x : Option α) (e : ArithmeticError) : Except ArithmeticError α :=
  match x with
  | some a => .ok a
  | none => .error e

/-! ## Conversions -/

/-- A quantity in units of the scale. -/
def toFixed (real scale : I128) : Except ArithmeticError I128 := do
  let fixed ← okOr (real.checkedMul scale) .overflow
  let bound ← okOr (maxCreditQuantity.checkedMul scale) .overflow
  if bound < fixed then .error .outOfRange else .ok fixed

/-- The quantity of a number of units, if what is left over is within a tolerance.  The absolute
value of a remainder by a positive number does not overflow. -/
def fromFixed (fixed scale tolerance : I128) : Except ArithmeticError I128 :=
  if scale.toInt ≤ 0 then .error .divisionByZero
  else do
    let whole ← okOr (fixed.checkedDiv scale) .divisionByZero
    let remainder ← okOr (fixed.checkedRem scale) .divisionByZero
    if |remainder.toInt| > tolerance.toInt then .error .precisionLoss else .ok whole

variable {real fixed scale tolerance w : I128}

/-- A quantity that is converted is the product with the scale. -/
theorem toFixed_eq_ok (h : toFixed real scale = .ok fixed) :
    fixed.toInt = real.toInt * scale.toInt := by
  unfold toFixed okOr at h
  simp only [bind, Except.bind] at h
  cases hmul : real.checkedMul scale with
  | none =>
      rw [hmul] at h
      cases h
  | some product =>
      rw [hmul] at h
      cases hbound : maxCreditQuantity.checkedMul scale with
      | none =>
          rw [hbound] at h
          cases h
      | some bound =>
          simp only [hbound] at h
          split at h
          · cases h
          · cases h
            exact MInt.checkedMul_eq_some.mp hmul

/-- The conversion back, by a positive scale. -/
theorem fromFixed_eq (fixed tolerance : I128) (hscale : 0 < scale.toInt) :
    ∃ whole : I128, whole.toInt = fixed.toInt.tdiv scale.toInt ∧
      fromFixed fixed scale tolerance =
        if |fixed.toInt.tmod scale.toInt| > tolerance.toInt then .error .precisionLoss
        else .ok whole := by
  rcases MInt.checkedDiv_of_pos (a := fixed) hscale with ⟨whole, hdiv, hwhole⟩
  rcases MInt.checkedRem_of_pos (a := fixed) hscale with ⟨remainder, hrem, hremainder⟩
  refine ⟨whole, hwhole, ?_⟩
  rw [fromFixed, if_neg (not_le.mpr hscale), hdiv, hrem, ← hremainder]
  rfl

theorem fromFixed_eq_ok (hscale : 0 < scale.toInt) :
    fromFixed fixed scale tolerance = .ok w ↔
      w.toInt = fixed.toInt.tdiv scale.toInt ∧
        |fixed.toInt.tmod scale.toInt| ≤ tolerance.toInt := by
  rcases fromFixed_eq fixed tolerance hscale with ⟨whole, hwhole, heq⟩
  rw [heq]
  split
  · rename_i hloss
    constructor
    · intro h
      cases h
    · intro h
      exact absurd h.2 (not_le.mpr hloss)
  · rename_i hkept
    rw [Except.ok.injEq, MInt.ext_iff, hwhole]
    constructor
    · intro h
      exact ⟨h.symm, not_lt.mp hkept⟩
    · intro h
      exact h.1.symm

/-- The conversion back fails only by a loss of precision. -/
theorem fromFixed_eq_error (hscale : 0 < scale.toInt)
    (hloss : tolerance.toInt < |fixed.toInt.tmod scale.toInt|) :
    fromFixed fixed scale tolerance = .error .precisionLoss := by
  rcases fromFixed_eq fixed tolerance hscale with ⟨whole, -, heq⟩
  rw [heq, if_pos hloss]

/-! ## Rounding down -/

/-- The conversion back returns the floor of the quotient if that is within the tolerance below the
quantity, and reports a loss of precision otherwise. -/
structure RoundsDown (fixed scale tolerance : I128) : Prop where
  floor : ∀ w : I128, fromFixed fixed scale tolerance = .ok w ↔
    w.toInt = fixed.toInt.fdiv scale.toInt ∧
      fixed.toInt - w.toInt * scale.toInt ≤ tolerance.toInt
  loss : (∀ w : I128, fromFixed fixed scale tolerance ≠ .ok w) →
    fromFixed fixed scale tolerance = .error .precisionLoss

/-- A quantity that is converted comes back without any loss. -/
def RoundTrips (scale : I128) : Prop :=
  ∀ real fixed : I128, toFixed real scale = .ok fixed → fromFixed fixed scale 0 = .ok real

theorem roundTrips (hscale : 0 < scale.toInt) : RoundTrips scale := by
  intro real fixed h
  rw [fromFixed_eq_ok hscale, toFixed_eq_ok h]
  constructor
  · exact (Int.mul_tdiv_cancel real.toInt hscale.ne').symm
  · rw [Int.mul_tmod_left, abs_zero]
    exact le_rfl

/-- No multiple of the scale is within the tolerance of a quantity. -/
def FarFromMultiples (fixed scale tolerance : I128) : Prop :=
  ∀ k : Int, tolerance.toInt < |fixed.toInt - k * scale.toInt|

theorem loss_of_fails (hscale : 0 < scale.toInt)
    (hfails : ∀ w : I128, fromFixed fixed scale tolerance ≠ .ok w) :
    fromFixed fixed scale tolerance = .error .precisionLoss := by
  rcases fromFixed_eq fixed tolerance hscale with ⟨whole, -, heq⟩
  rw [heq] at hfails ⊢
  split
  · rfl
  · rename_i hkept
    rw [if_neg hkept] at hfails
    exact absurd rfl (hfails whole)

/-- Where the remainder is not negative, truncation is the floor. -/
theorem fdiv_of_nonneg (hscale : 0 < scale.toInt) (hrest : 0 ≤ fixed.toInt.tmod scale.toInt) :
    fixed.toInt.fdiv scale.toInt = fixed.toInt.tdiv scale.toInt := by
  have hsplit := Int.tdiv_mul_add_tmod fixed.toInt scale.toInt
  have hlt := Int.tmod_lt_of_pos fixed.toInt hscale
  rw [Int.fdiv_eq_ediv_of_nonneg _ hscale.le, Int.ediv_eq_iff_of_pos hscale]
  omega

/-- Where the remainder is negative, the floor is the next smaller number. -/
theorem fdiv_of_neg (hscale : 0 < scale.toInt) (hrest : fixed.toInt.tmod scale.toInt < 0) :
    fixed.toInt.fdiv scale.toInt = fixed.toInt.tdiv scale.toInt - 1 := by
  have hsplit := Int.tdiv_mul_add_tmod fixed.toInt scale.toInt
  have hlt := Int.lt_tmod_of_pos fixed.toInt hscale
  rw [Int.fdiv_eq_ediv_of_nonneg _ hscale.le, Int.ediv_eq_iff_of_pos hscale, sub_mul, one_mul]
  omega

theorem tmod_nonneg_iff :
    0 ≤ fixed.toInt.tmod scale.toInt ↔ 0 ≤ fixed.toInt ∨ scale.toInt ∣ fixed.toInt := by
  constructor
  · intro hrest
    rcases le_or_gt 0 fixed.toInt with hnonneg | hneg
    · exact Or.inl hnonneg
    · right
      have hle := Int.tmod_nonneg scale.toInt (neg_nonneg.mpr hneg.le)
      rw [Int.neg_tmod] at hle
      exact Int.dvd_of_tmod_eq_zero (by omega)
  · intro h
    rcases h with hnonneg | hdvd
    · exact Int.tmod_nonneg _ hnonneg
    · rw [Int.tmod_eq_zero_of_dvd hdvd]

/-- The floor of a quotient by a positive number is representable. -/
theorem exists_floor (fixed : I128) (hscale : 0 < scale.toInt) :
    ∃ w : I128, w.toInt = fixed.toInt.fdiv scale.toInt := by
  rw [← MInt.inRange_iff_exists, Int.fdiv_eq_ediv_of_nonneg _ hscale.le]
  constructor
  · rw [Int.le_ediv_iff_mul_le hscale]
    have hlo := fixed.lo_le
    have hproduct : IntType.i128.lo * scale.toInt ≤ IntType.i128.lo * 1 :=
      mul_le_mul_of_nonpos_left hscale IntType.i128.lo_le_zero
    linarith
  · have hhi := fixed.le_hi
    have hbound := IntType.i128.zero_le_hi
    have hproduct : (IntType.i128.hi + 1) * 1 ≤ (IntType.i128.hi + 1) * scale.toInt :=
      mul_le_mul_of_nonneg_left hscale (by omega)
    have hlt : fixed.toInt / scale.toInt < IntType.i128.hi + 1 := by
      rw [Int.ediv_lt_iff_lt_mul hscale]
      linarith
    omega

/-- A remainder that is not negative is what the floor leaves over. -/
theorem roundsDown_of_nonneg (hscale : 0 < scale.toInt)
    (hrest : 0 ≤ fixed.toInt.tmod scale.toInt) : RoundsDown fixed scale tolerance where
  floor w := by
    have hsplit := Int.tdiv_mul_add_tmod fixed.toInt scale.toInt
    rw [fromFixed_eq_ok hscale, abs_of_nonneg hrest, fdiv_of_nonneg hscale hrest]
    apply and_congr_right
    intro hw
    rw [hw]
    constructor <;> intro h <;> linarith
  loss := loss_of_fails hscale

/-- Between two multiples of the scale, a quantity is far from all multiples if it is far from the
two. -/
theorem far_of_neighbours (hscale : 0 < scale.toInt)
    (habove : tolerance.toInt < -fixed.toInt.tmod scale.toInt)
    (hbelow : tolerance.toInt < scale.toInt + fixed.toInt.tmod scale.toInt) :
    FarFromMultiples fixed scale tolerance := by
  intro k
  have hsplit := Int.tdiv_mul_add_tmod fixed.toInt scale.toInt
  rcases le_or_gt (fixed.toInt.tdiv scale.toInt) k with hk | hk
  · have hproduct := mul_le_mul_of_nonneg_right hk hscale.le
    exact lt_of_lt_of_le (by linarith) (neg_le_abs _)
  · have hproduct := mul_le_mul_of_nonneg_right (Int.add_one_le_of_lt hk) hscale.le
    rw [add_mul, one_mul] at hproduct
    exact lt_of_lt_of_le (by linarith) (le_abs_self _)

/-- With a negative remainder, the conversion meets its documentation only where it has to fail. -/
theorem roundsDown_of_neg_iff (hscale : 0 < scale.toInt)
    (hrest : fixed.toInt.tmod scale.toInt < 0) :
    RoundsDown fixed scale tolerance ↔ FarFromMultiples fixed scale tolerance := by
  have hsplit := Int.tdiv_mul_add_tmod fixed.toInt scale.toInt
  have hfloor := fdiv_of_neg hscale hrest
  constructor
  · intro h
    rcases fromFixed_eq fixed tolerance hscale with ⟨whole, hwhole, heq⟩
    -- the truncated quotient is not the floor, so it is not returned
    have habove : tolerance.toInt < -fixed.toInt.tmod scale.toInt := by
      by_contra hkept
      rw [← abs_of_neg hrest] at hkept
      rw [if_neg hkept] at heq
      have hw := ((h.floor whole).mp heq).1
      omega
    have hloss := fromFixed_eq_error hscale (abs_of_neg hrest ▸ habove)
    rcases exists_floor fixed hscale with ⟨w, hw⟩
    have hbelow : tolerance.toInt < scale.toInt + fixed.toInt.tmod scale.toInt := by
      by_contra hkept
      have hleft : fixed.toInt - w.toInt * scale.toInt ≤ tolerance.toInt := by
        rw [hw, hfloor, sub_mul, one_mul]
        linarith
      rw [(h.floor w).mpr ⟨hw, hleft⟩] at hloss
      cases hloss
    exact far_of_neighbours hscale habove hbelow
  · intro hfar
    have hnear := hfar (fixed.toInt.tdiv scale.toInt)
    have hremainder : fixed.toInt - fixed.toInt.tdiv scale.toInt * scale.toInt =
        fixed.toInt.tmod scale.toInt := by linarith
    rw [hremainder] at hnear
    have hloss := fromFixed_eq_error hscale hnear
    refine ⟨?_, fun _ => hloss⟩
    intro w
    rw [hloss]
    constructor
    · intro h
      cases h
    · intro h
      have hbelow := hfar w.toInt
      have hpos : 0 ≤ fixed.toInt - w.toInt * scale.toInt := by
        rw [h.1, hfloor, sub_mul, one_mul]
        have hlt := Int.lt_tmod_of_pos fixed.toInt hscale
        linarith
      rw [abs_of_nonneg hpos] at hbelow
      exact absurd h.2 (not_le.mpr hbelow)

/-- The conversions round down and invert each other exactly for the quantities that are not
negative, for the multiples of the scale, and for those that are farther than the tolerance from any
multiple. -/
theorem convertsExactly_iff (fixed scale tolerance : I128) (hscale : 0 < scale.toInt) :
    (RoundsDown fixed scale tolerance ∧ RoundTrips scale) ↔
      0 ≤ fixed.toInt ∨ scale.toInt ∣ fixed.toInt ∨ FarFromMultiples fixed scale tolerance := by
  rw [and_iff_left (roundTrips hscale), ← or_assoc, ← tmod_nonneg_iff]
  rcases le_or_gt 0 (fixed.toInt.tmod scale.toInt) with hrest | hrest
  · exact iff_of_true (roundsDown_of_nonneg hscale hrest) (Or.inl hrest)
  · rw [roundsDown_of_neg_iff hscale hrest, or_iff_right (not_le.mpr hrest)]

/-- Seven units below zero, at two units for each. -/
def minusSeven : I128 := ⟨-7, by decide, by decide⟩

/-- The floor of minus seven halves is minus four, and one unit is left over; minus three is
returned. -/
theorem negative_rounds_up : ¬ ∀ fixed scale tolerance : I128, 0 < scale.toInt →
    0 ≤ tolerance.toInt → RoundsDown fixed scale tolerance ∧ RoundTrips scale := by
  intro h
  have hrounds := (h minusSeven 2 1 (by decide) (by decide)).1
  have hanswer : fromFixed minusSeven 2 1 = .ok ⟨-3, by decide, by decide⟩ := by decide +kernel
  exact absurd ((hrounds.floor _).mp hanswer).1 (by decide)

/-- Seven units above zero are converted as documented. -/
theorem positive_rounds_down : RoundsDown ⟨7, by decide, by decide⟩ 2 1 ∧ RoundTrips 2 :=
  (convertsExactly_iff ⟨7, by decide, by decide⟩ 2 1 (by decide)).mpr (Or.inl (by decide))

end Arithmetic
end Kraal
