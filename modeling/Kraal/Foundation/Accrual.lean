import Mathlib.Algebra.Order.BigOperators.Group.List
import Mathlib.Tactic.Linarith
import Mathlib.Tactic.Ring

/-!
# Growth in whole units

An amount grows in proportion to itself and to the time that passes, and what it gains
is truncated to whole units.  Splitting a period into several growths compounds the
gain and truncates it once for each part.  Multiplied out by the divisor, the two
effects can be compared without any division.

Main results:

- Theorem {lit}`grow_mono`: growth over a longer time leaves at least as much.
- Theorem {lit}`grow_lower`: one growth loses less than one unit.
- Theorem {lit}`grow_le_growAll`: growing part by part loses at most one unit for each
  part but the last, whatever the parts are.
- Theorem {lit}`le_sum_spans`: the times between marks cover the time to the last mark.
-/

namespace Foundation
namespace Accrual

variable {divisor rate amount : Int}

/-- An amount after a time, with what it gains truncated toward zero. -/
def grow (divisor rate amount time : Int) : Int :=
  amount + (amount * rate * time).tdiv divisor

/-- Growth over several times, one after the other. -/
def growAll (divisor rate amount : Int) (times : List Int) : Int :=
  times.foldl (grow divisor rate) amount

/-- Without spans nothing grows. -/
@[simp]
theorem growAll_nil : growAll divisor rate amount [] = amount :=
  rfl

/-- The growth over a span and over the rest. -/
@[simp]
theorem growAll_cons (time : Int) (times : List Int) :
    growAll divisor rate amount (time :: times) =
      growAll divisor rate (grow divisor rate amount time) times :=
  rfl

/-! ## One growth -/

/-- The gain is not negative. -/
theorem gain_nonneg (hrate : 0 ≤ rate) (hamount : 0 ≤ amount) {time : Int} (htime : 0 ≤ time) :
    0 ≤ amount * rate * time :=
  mul_nonneg (mul_nonneg hamount hrate) htime

/-- An amount grows. -/
theorem le_grow (hdivisor : 0 < divisor) (hrate : 0 ≤ rate) (hamount : 0 ≤ amount) {time : Int}
    (htime : 0 ≤ time) : amount ≤ grow divisor rate amount time := by
  have hgain : 0 ≤ (amount * rate * time).tdiv divisor :=
    Int.tdiv_nonneg (gain_nonneg hrate hamount htime) hdivisor.le
  rw [grow]
  omega

/-- Growth over a longer time leaves at least as much. -/
theorem grow_mono (hdivisor : 0 < divisor) (hrate : 0 ≤ rate) (hamount : 0 ≤ amount)
    {time time' : Int} (hle : time ≤ time') :
    grow divisor rate amount time ≤ grow divisor rate amount time' := by
  have hgain : amount * rate * time ≤ amount * rate * time' :=
    mul_le_mul_of_nonneg_left hle (mul_nonneg hamount hrate)
  have hdiv := Int.tdiv_le_tdiv hdivisor hgain
  rw [grow, grow]
  omega

/-- One growth gains at most the exact share. -/
theorem grow_upper (hdivisor : 0 < divisor) (hrate : 0 ≤ rate) (hamount : 0 ≤ amount) {time : Int}
    (htime : 0 ≤ time) :
    divisor * grow divisor rate amount time ≤ divisor * amount + amount * rate * time := by
  have hnonneg := gain_nonneg hrate hamount htime
  have hdiv := Int.mul_ediv_self_le (x := amount * rate * time) hdivisor.ne'
  rw [grow, Int.tdiv_eq_ediv_of_nonneg hnonneg, mul_add]
  omega

/-- One growth loses less than one unit of the exact share. -/
theorem grow_lower (hdivisor : 0 < divisor) (hrate : 0 ≤ rate) (hamount : 0 ≤ amount) {time : Int}
    (htime : 0 ≤ time) :
    divisor * amount + amount * rate * time - (divisor - 1) ≤
      divisor * grow divisor rate amount time := by
  have hnonneg := gain_nonneg hrate hamount htime
  have hdiv := Int.lt_mul_ediv_self_add (x := amount * rate * time) hdivisor
  rw [grow, Int.tdiv_eq_ediv_of_nonneg hnonneg, mul_add]
  omega

/-! ## Growth part by part -/

/-- Growing part by part loses less than one unit of the exact share for each part. -/
theorem growAll_lower (hdivisor : 0 < divisor) (hrate : 0 ≤ rate) (hamount : 0 ≤ amount)
    {times : List Int} (htimes : ∀ time ∈ times, 0 ≤ time) :
    divisor * amount + amount * rate * times.sum - (divisor - 1) * times.length ≤
      divisor * growAll divisor rate amount times := by
  induction times generalizing amount with
  | nil => simp
  | cons time times ih =>
      have htime : 0 ≤ time := htimes time List.mem_cons_self
      have hrest : ∀ time ∈ times, 0 ≤ time := fun t ht => htimes t (List.mem_cons_of_mem _ ht)
      have hfirst := grow_lower hdivisor hrate hamount htime
      have hgrown := le_grow hdivisor hrate hamount htime
      have htail := ih (hamount.trans hgrown) hrest
      -- the rest of the time works on at least the amount it started from
      have hcompound : amount * rate * times.sum ≤
          grow divisor rate amount time * rate * times.sum :=
        mul_le_mul_of_nonneg_right (mul_le_mul_of_nonneg_right hgrown hrate)
          (List.sum_nonneg hrest)
      rw [growAll_cons, List.sum_cons, List.length_cons, Nat.cast_succ, mul_add, mul_add]
      linarith

/-- Growing part by part, against one growth over no more time: less than one unit is
lost for each part, so at most one for each part but the last. -/
theorem grow_le_growAll (hdivisor : 0 < divisor) (hrate : 0 ≤ rate) (hamount : 0 ≤ amount)
    {times : List Int} (htimes : ∀ time ∈ times, 0 ≤ time) (hsome : times ≠ []) {time : Int}
    (hcover : time ≤ times.sum) :
    grow divisor rate amount time ≤ growAll divisor rate amount times + (times.length - 1) := by
  have hwhole := grow_mono hdivisor hrate hamount hcover
  have hupper := grow_upper hdivisor hrate hamount (List.sum_nonneg htimes)
  have hlower := growAll_lower hdivisor hrate hamount htimes
  have hlength : (1 : Int) ≤ times.length := by
    exact_mod_cast List.length_pos_iff.mpr hsome
  -- both bounds are multiples of the divisor but for one unit a part
  have hlt : divisor * grow divisor rate amount times.sum <
      divisor * (growAll divisor rate amount times + times.length) := by
    calc
      divisor * grow divisor rate amount times.sum
          ≤ divisor * amount + amount * rate * times.sum := hupper
      _ ≤ divisor * growAll divisor rate amount times + (divisor - 1) * times.length := by
        linarith
      _ < divisor * (growAll divisor rate amount times + times.length) := by
        linarith
  have hunits := lt_of_mul_lt_mul_left hlt hdivisor.le
  omega

/-! ## Times between marks -/

/-- The times between marks on a clock, none of them negative. -/
def spans (start : Int) : List Int → List Int
  | [] => []
  | mark :: marks => max 0 (mark - start) :: spans mark marks

/-- Spans are not negative. -/
theorem spans_nonneg (start : Int) (marks : List Int) : ∀ time ∈ spans start marks, 0 ≤ time := by
  induction marks generalizing start with
  | nil => simp [spans]
  | cons mark marks ih =>
      intro time h
      rcases List.mem_cons.mp h with rfl | h
      · exact le_max_left _ _
      · exact ih mark time h

/-- There is one span to a mark. -/
@[simp]
theorem length_spans (start : Int) (marks : List Int) :
    (spans start marks).length = marks.length := by
  induction marks generalizing start with
  | nil => rfl
  | cons mark marks ih => simp [spans, ih]

/-- Where there are marks there are spans. -/
theorem spans_ne_nil (start : Int) {marks : List Int} (h : marks ≠ []) :
    spans start marks ≠ [] := by
  cases marks with
  | nil => exact absurd rfl h
  | cons mark marks => exact List.cons_ne_nil _ _

/-- The spans up to a last mark cover the time from the start to it. -/
theorem le_sum_spans (start : Int) (marks : List Int) (last : Int) :
    last - start ≤ (spans start (marks ++ [last])).sum := by
  induction marks generalizing start with
  | nil => simp [spans]
  | cons mark marks ih =>
      have hrest := ih mark
      have hfirst := le_max_right 0 (mark - start)
      rw [List.cons_append, spans, List.sum_cons]
      omega

end Accrual
end Foundation
