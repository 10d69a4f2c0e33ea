import Mathlib.Algebra.Order.Field.Basic
import Mathlib.Data.Int.Basic
import Mathlib.Data.Rat.Cast.Order
import Mathlib.Tactic.FieldSimp
import Mathlib.Tactic.Linarith
import Mathlib.Tactic.Ring

/-!
# Two counters for a sliding window

Time is cut into windows of a fixed length, and arrivals are counted window by window.  How many
arrivals lie in the last window length before a time is estimated from two of these counters: the
one of the current window, and the one of the window before with a weight that falls from one to
zero while the current window passes.

Arrivals that are let in while the estimate is within a limit are bounded in every window, and in
every interval of the length of a window, even if the counters forget arrivals that have left
the interval.

Main results:

- Definition {lit}`estimate`: the weighted sum of two counters.
- Theorem {lit}`inWindow_append_le`: at most the limit is let in during one window.
- Theorem {lit}`recent_append_le`: what is let in during an interval of the length of a window.
- Theorems {lit}`Tracks.count` and {lit}`CoversFrom.count`: counters that roll over are those of
  the arrivals, or cover them if they have forgotten what is not recent.
- Theorem {lit}`roll_of_window_lt`: in a later window, what was counted before it is the previous
  counter, or it is forgotten.
-/

namespace Foundation

namespace SlidingWindow

variable {W s t : Int} {ts : List Int} {current previous limit : Nat}

/-! ## Windows -/

/-- The number of arrivals in a window. -/
def inWindow (W : Int) (ts : List Int) (k : Int) : Nat :=
  ts.countP fun s => s / W = k

/-- The number of arrivals in the window length that ends at a time. -/
def recent (W : Int) (ts : List Int) (t : Int) : Nat :=
  ts.countP fun s => t - W < s ∧ s ≤ t

/-- The number of arrivals in the window before, less than a window length ago. -/
def recentPrevious (W : Int) (ts : List Int) (t : Int) : Nat :=
  ts.countP fun s => s / W = t / W - 1 ∧ t - W < s

/-- Nothing is counted at first. -/
@[simp]
theorem inWindow_nil (W k : Int) : inWindow W [] k = 0 :=
  rfl

/-- The counts of two parts. -/
@[simp]
theorem inWindow_append (W : Int) (ts ts' : List Int) (k : Int) :
    inWindow W (ts ++ ts') k = inWindow W ts k + inWindow W ts' k := by
  simp [inWindow]

/-- A single time is counted in its window. -/
@[simp]
theorem inWindow_singleton (W s k : Int) : inWindow W [s] k = if s / W = k then 1 else 0 := by
  simp [inWindow, List.countP_cons]

/-- Nothing is counted at first. -/
@[simp]
theorem recentPrevious_nil (W t : Int) : recentPrevious W [] t = 0 :=
  rfl

/-- The counts of two parts. -/
theorem recentPrevious_append (W : Int) (ts ts' : List Int) (t : Int) :
    recentPrevious W (ts ++ ts') t = recentPrevious W ts t + recentPrevious W ts' t := by
  simp [recentPrevious]

/-- What is recent of the previous window is in it. -/
theorem recentPrevious_le_inWindow (W : Int) (ts : List Int) (t : Int) :
    recentPrevious W ts t ≤ inWindow W ts (t / W - 1) := by
  apply List.countP_mono_left
  intro s _ h
  simp only [decide_eq_true_eq] at h ⊢
  exact h.1

/-- Later, fewer of the arrivals of the window before are recent. -/
theorem recentPrevious_anti (hwindow : t / W = s / W) (hle : s ≤ t) :
    recentPrevious W ts t ≤ recentPrevious W ts s := by
  apply List.countP_mono_left
  intro s' _ h
  simp only [decide_eq_true_eq] at h ⊢
  rw [← hwindow]
  exact ⟨h.1, by omega⟩

/-- A window length ago lies in the window before. -/
theorem sub_ediv (hW : 0 < W) (t : Int) : (t - W) / W = t / W - 1 := by
  have hshift := Int.add_mul_ediv_right t (-1) hW.ne'
  have hsub : t - W = t + -1 * W := by ring
  rw [hsub, hshift]
  ring

/-- What is recent lies in the current window or in the one before. -/
theorem recent_le (hW : 0 < W) (ts : List Int) (t : Int) :
    recent W ts t ≤ inWindow W ts (t / W) + recentPrevious W ts t := by
  induction ts with
  | nil => simp [recent]
  | cons s ts ih =>
      have hcons : recent W (s :: ts) t = recent W ts t + recent W [s] t := by
        simp [recent, List.countP_cons]
      have hcurrent := inWindow_append W [s] ts (t / W)
      have hprevious := recentPrevious_append W [s] ts t
      rw [List.singleton_append] at hcurrent hprevious
      have hone : recent W [s] t ≤ inWindow W [s] (t / W) + recentPrevious W [s] t := by
        by_cases hs : t - W < s ∧ s ≤ t
        · have hafter := Int.ediv_le_ediv hW hs.1.le
          have hbefore := Int.ediv_le_ediv hW hs.2
          rw [sub_ediv hW] at hafter
          by_cases hwindow : s / W = t / W
          · simp [recent, inWindow, hs, hwindow]
          · have hprev : s / W = t / W - 1 := by omega
            simp [recent, recentPrevious, hs, hprev]
        · simp [recent, hs]
      omega

/-- Nothing is in a window that begins after the last arrival. -/
theorem inWindow_eq_zero (hW : 0 < W) (hts : ∀ s' ∈ ts, s' ≤ s) {k : Int} (hk : s / W < k) :
    inWindow W ts k = 0 := by
  rw [inWindow, List.countP_eq_zero]
  intro s' hs'
  have hle := Int.ediv_le_ediv hW (hts s' hs')
  simp only [decide_eq_true_eq]
  omega

/-! ## The estimate -/

/-- How much of its window has passed at a time. -/
def offset (W t : Int) : ℚ :=
  ((t % W : Int) : ℚ) / W

/-- The weight of the window before: it falls from one to zero while a window passes. -/
def weight (W t : Int) : ℚ :=
  1 - offset W t

/-- The estimate from the counters of the current window and of the one before. -/
def estimate (W : Int) (current previous : Nat) (t : Int) : ℚ :=
  current + previous * weight W t

/-- A window starts with offset zero. -/
theorem offset_nonneg (hW : 0 < W) (t : Int) : 0 ≤ offset W t := by
  have hW' : (0 : ℚ) < W := by exact_mod_cast hW
  have hmod : (0 : ℚ) ≤ ((t % W : Int) : ℚ) := by
    exact_mod_cast Int.emod_nonneg t hW.ne'
  exact div_nonneg hmod hW'.le

/-- A window ends before offset one. -/
theorem offset_lt_one (hW : 0 < W) (t : Int) : offset W t < 1 := by
  have hW' : (0 : ℚ) < W := by exact_mod_cast hW
  have hmod : ((t % W : Int) : ℚ) < W := by exact_mod_cast Int.emod_lt_of_pos t hW
  exact (div_lt_one hW').mpr hmod

/-- Within a window the offset grows. -/
theorem offset_mono (hW : 0 < W) (hwindow : t / W = s / W) (hle : s ≤ t) :
    offset W s ≤ offset W t := by
  have hW' : (0 : ℚ) < W := by exact_mod_cast hW
  have ht := Int.mul_ediv_add_emod t W
  have hs := Int.mul_ediv_add_emod s W
  rw [hwindow] at ht
  have hmod : s % W ≤ t % W := by omega
  have hmod' : ((s % W : Int) : ℚ) ≤ ((t % W : Int) : ℚ) := by exact_mod_cast hmod
  exact div_le_div_of_nonneg_right hmod' hW'.le

/-- The previous window always has some weight. -/
theorem weight_pos (hW : 0 < W) (t : Int) : 0 < weight W t := by
  have hoffset := offset_lt_one hW t
  unfold weight
  linarith

/-- The estimate is the count of the current window at least. -/
theorem current_le_estimate (hW : 0 < W) (current previous : Nat) (t : Int) :
    (current : ℚ) ≤ estimate W current previous t := by
  have hprevious : (0 : ℚ) ≤ previous := Nat.cast_nonneg previous
  have hweight := mul_nonneg hprevious (weight_pos hW t).le
  unfold estimate
  linarith

/-! ## What is let in -/

/-- Counters that have seen every arrival of the current window, and those of the one before that
are recent. -/
structure Covers (W : Int) (ts : List Int) (t : Int) (current previous : Nat) : Prop where
  current : inWindow W ts (t / W) ≤ current
  previous : recentPrevious W ts t ≤ previous

/-- Another arrival is let in: no window holds more than the limit. -/
theorem inWindow_append_le (hcovers : Covers W ts s current previous)
    (hcurrent : current + 1 ≤ limit) (hlimit : ∀ k, inWindow W ts k ≤ limit) (k : Int) :
    inWindow W (ts ++ [s]) k ≤ limit := by
  have hseen := hcovers.current
  by_cases hk : s / W = k
  · subst hk
    simp
    omega
  · simp [hk, hlimit k]

/-- The limit with something on top of it for the offset. -/
theorem le_limit_of_le (hW : 0 < W) {n : Nat} (h : n ≤ limit) (t : Int) :
    (n : ℚ) ≤ limit * (1 + offset W t) := by
  have hlimit : (0 : ℚ) ≤ limit := Nat.cast_nonneg limit
  have hscaled := mul_nonneg hlimit (offset_nonneg hW t)
  have h' : (n : ℚ) ≤ limit := by exact_mod_cast h
  linarith

/-- In the window of the last admission, what is recent comes to the estimate at that time, and to
the share of the window before that has been weighted away since. -/
theorem recent_append_le_of_window (hW : 0 < W) (hcovers : Covers W ts s current previous)
    (hestimate : estimate W (current + 1) previous s ≤ limit)
    (hlimit : ∀ k, inWindow W ts k ≤ limit) (hst : s ≤ t) (hwindow : t / W = s / W) :
    (recent W (ts ++ [s]) t : ℚ) ≤ limit * (1 + offset W t) := by
  have hle := recent_le hW (ts ++ [s]) t
  have hnew : recentPrevious W [s] t = 0 := by
    simp [recentPrevious, hwindow]
    omega
  have hcurrent : inWindow W (ts ++ [s]) (t / W) ≤ current + 1 := by
    have hseen := hcovers.current
    rw [inWindow_append, inWindow_singleton, if_pos hwindow.symm, hwindow]
    omega
  have hprevious := (recentPrevious_anti hwindow hst).trans hcovers.previous
  have hbound := (recentPrevious_le_inWindow W ts t).trans (hlimit _)
  rw [recentPrevious_append, hnew, Nat.add_zero] at hle
  have hcurrent' : (recent W (ts ++ [s]) t : ℚ) ≤ (current + 1 : Nat) + recentPrevious W ts t := by
    exact_mod_cast hle.trans (Nat.add_le_add_right hcurrent _)
  have hprevious' : (recentPrevious W ts t : ℚ) ≤ previous := by exact_mod_cast hprevious
  have hbound' : (recentPrevious W ts t : ℚ) ≤ limit := by exact_mod_cast hbound
  -- the weight at the last admission is at least the weight now
  have hoffset := offset_mono hW hwindow hst
  have hfall := mul_le_mul_of_nonneg_right hprevious' (weight_pos hW s).le
  have hshare := mul_le_mul_of_nonneg_right hbound' (offset_nonneg hW t)
  have hgap := mul_le_mul_of_nonneg_left hoffset (Nat.cast_nonneg (α := ℚ) (recentPrevious W ts t))
  unfold estimate at hestimate
  unfold weight at hestimate hfall
  linarith

/-- Once a new window has begun, what is recent was let in during the window before. -/
theorem recent_append_le_of_lt (hW : 0 < W) (hts : ∀ s' ∈ ts, s' ≤ s)
    (hlimit : ∀ k, inWindow W (ts ++ [s]) k ≤ limit) (hwindow : s / W < t / W) :
    recent W (ts ++ [s]) t ≤ limit := by
  have hle := recent_le hW (ts ++ [s]) t
  have hlast : ∀ s' ∈ ts ++ [s], s' ≤ s := by
    intro s' hs'
    rcases List.mem_append.mp hs' with hs' | hs'
    · exact hts s' hs'
    · exact (List.mem_singleton.mp hs').le
  have hempty := inWindow_eq_zero hW hlast hwindow
  have hprevious := (recentPrevious_le_inWindow W (ts ++ [s]) t).trans (hlimit _)
  omega

/-- Another arrival is let in: what is let in during an interval of the length of a window that
ends at an offset into a window. -/
theorem recent_append_le (hW : 0 < W) (hts : ∀ s' ∈ ts, s' ≤ s)
    (hcovers : Covers W ts s current previous)
    (hestimate : estimate W (current + 1) previous s ≤ limit)
    (hlimit : ∀ k, inWindow W ts k ≤ limit)
    (hrecent : ∀ t, (recent W ts t : ℚ) ≤ limit * (1 + offset W t)) (t : Int) :
    (recent W (ts ++ [s]) t : ℚ) ≤ limit * (1 + offset W t) := by
  by_cases hst : s ≤ t
  · by_cases hwindow : t / W = s / W
    · exact recent_append_le_of_window hW hcovers hestimate hlimit hst hwindow
    · have hlater := Int.ediv_le_ediv hW hst
      have hcurrent : current + 1 ≤ limit := by
        have hle := (current_le_estimate hW (current + 1) previous s).trans hestimate
        exact_mod_cast hle
      have hlimit' := inWindow_append_le hcovers hcurrent hlimit
      exact le_limit_of_le hW (recent_append_le_of_lt hW hts hlimit' (by omega)) t
  · have hsame : recent W (ts ++ [s]) t = recent W ts t := by
      simp [recent, hst]
    rw [hsame]
    exact hrecent t

/-! ## Counters that roll over -/

/-- The counters of a window and of the one before it. -/
structure Counters where
  window : Int
  current : Nat
  previous : Nat
deriving DecidableEq, Repr

/-- The counters as they are in a window that begins at the same time or later. -/
def roll (c : Option Counters) (k : Int) : Nat × Nat :=
  match c with
  | none => (0, 0)
  | some c =>
      if c.window < k - 1 then (0, 0)
      else if c.window = k - 1 then (0, c.current)
      else (c.current, c.previous)

/-- Count an arrival in a window. -/
def count (c : Option Counters) (k : Int) : Counters :=
  ⟨k, (roll c k).1 + 1, (roll c k).2⟩

/-- Without counters nothing is counted. -/
@[simp]
theorem roll_none (k : Int) : roll none k = (0, 0) :=
  rfl

/-- Counters of the same window are kept. -/
theorem roll_of_eq {c : Counters} {k : Int} (h : c.window = k) :
    roll (some c) k = (c.current, c.previous) := by
  have hlt : ¬ c.window < k - 1 := by omega
  have hne : c.window ≠ k - 1 := by omega
  simp [roll, hlt, hne]

/-- Counters of the previous window become the previous ones. -/
theorem roll_of_eq_sub {c : Counters} {k : Int} (h : c.window = k - 1) :
    roll (some c) k = (0, c.current) := by
  simp [roll, h]

/-- Older counters are dropped. -/
theorem roll_of_lt {c : Counters} {k : Int} (h : c.window < k - 1) :
    roll (some c) k = (0, 0) := by
  simp [roll, h]

/-- A count in the same window. -/
@[simp]
theorem roll_count_self (c : Option Counters) (k : Int) :
    roll (some (count c k)) k = ((roll c k).1 + 1, (roll c k).2) :=
  roll_of_eq rfl

/-- A count in the window before. -/
@[simp]
theorem roll_count_succ (c : Option Counters) (k : Int) :
    roll (some (count c k)) (k + 1) = (0, (roll c k).1 + 1) :=
  roll_of_eq_sub (Int.add_sub_cancel k 1).symm

/-- A count in an older window. -/
theorem roll_count_of_lt (c : Option Counters) {k k' : Int} (h : k + 1 < k') :
    roll (some (count c k)) k' = (0, 0) :=
  roll_of_lt (Int.lt_sub_right_of_add_lt h)

/-- In a later window nothing has been counted, and what was counted before it is the previous
counter, or it is forgotten. -/
theorem roll_of_window_lt {c : Option Counters} {k k' : Int} (h : ∀ e, c = some e → e.window ≤ k)
    (hlt : k < k') : (roll c k').1 = 0 ∧ (roll c k').2 ≤ (roll c k).1 := by
  cases c with
  | none => exact ⟨rfl, le_rfl⟩
  | some c =>
      have hc := h c rfl
      by_cases hlast : c.window = k' - 1
      · rw [roll_of_eq_sub hlast, roll_of_eq (k := k) (by omega)]
        exact ⟨rfl, le_rfl⟩
      · rw [roll_of_lt (k := k') (by omega)]
        exact ⟨rfl, Nat.zero_le _⟩

/-- The window of a later time is the same one, the next one or one after that. -/
theorem window_cases (hW : 0 < W) (hst : s ≤ t) :
    t / W = s / W ∨ t / W = s / W + 1 ∨ s / W + 1 < t / W := by
  have hle := Int.ediv_le_ediv hW hst
  omega

/-! ### Counters that forget nothing -/

/-- From a time on the counters are those of the arrivals. -/
structure Tracks (W : Int) (ts : List Int) (now : Int) (c : Option Counters) : Prop where
  arrived : ∀ s ∈ ts, s ≤ now
  exact : ∀ t, now ≤ t → roll c (t / W) = (inWindow W ts (t / W), inWindow W ts (t / W - 1))

/-- Counters track the times until later ones come. -/
theorem Tracks.later {c : Option Counters} (h : Tracks W ts s c) (hst : s ≤ t) :
    Tracks W ts t c :=
  ⟨fun s' hs' => (h.arrived s' hs').trans hst, fun t' ht' => h.exact t' (hst.trans ht')⟩

/-- Nothing is tracked at first. -/
theorem tracks_nil (W now : Int) : Tracks W [] now none :=
  ⟨fun _ hs => absurd hs List.not_mem_nil, fun _ _ => rfl⟩

/-- Nothing that has arrived matters any more after two windows. -/
theorem Tracks.forget (hW : 0 < W) (hts : ∀ s' ∈ ts, s' ≤ s) (hst : s + 2 * W ≤ t) :
    Tracks W ts t none := by
  refine ⟨fun s' hs' => (hts s' hs').trans (by omega), fun t' ht' => ?_⟩
  have hpast : (s + 2 * W) / W ≤ t' / W := Int.ediv_le_ediv hW (hst.trans ht')
  rw [Int.add_mul_ediv_right s 2 hW.ne'] at hpast
  rw [roll_none, inWindow_eq_zero hW hts (by omega), inWindow_eq_zero hW hts (by omega)]

/-- Counting a time tracks it. -/
theorem Tracks.count {c : Option Counters} (hW : 0 < W) (h : Tracks W ts s c) :
    Tracks W (ts ++ [s]) s (some (count c (s / W))) := by
  have hseen := h.exact s le_rfl
  refine ⟨fun s' hs' => ?_, fun t ht => ?_⟩
  · rcases List.mem_append.mp hs' with hs' | hs'
    · exact h.arrived s' hs'
    · exact (List.mem_singleton.mp hs').le
  · rcases window_cases hW ht with hwindow | hwindow | hwindow
    · have hbefore : s / W ≠ s / W - 1 := by omega
      simp [hwindow, hseen, hbefore]
    · have hempty : inWindow W ts (s / W + 1) = 0 := inWindow_eq_zero hW h.arrived (by omega)
      simp [hwindow, hseen, hempty]
    · have hempty : inWindow W ts (t / W) = 0 := inWindow_eq_zero hW h.arrived (by omega)
      have hempty' : inWindow W ts (t / W - 1) = 0 := inWindow_eq_zero hW h.arrived (by omega)
      have hnow : s / W ≠ t / W := by omega
      have hbefore : s / W ≠ t / W - 1 := by omega
      simp [roll_count_of_lt c hwindow, hempty, hempty', hnow, hbefore]

/-! ### Counters that may forget what is not recent -/

/-- From a time on the counters cover the arrivals. -/
structure CoversFrom (W : Int) (ts : List Int) (now : Int) (c : Option Counters) : Prop where
  arrived : ∀ s ∈ ts, s ≤ now
  covers : ∀ t, now ≤ t → Covers W ts t (roll c (t / W)).1 (roll c (t / W)).2

/-- Counters cover the times until later ones come. -/
theorem CoversFrom.later {c : Option Counters} (h : CoversFrom W ts s c) (hst : s ≤ t) :
    CoversFrom W ts t c :=
  ⟨fun s' hs' => (h.arrived s' hs').trans hst, fun t' ht' => h.covers t' (hst.trans ht')⟩

/-- Nothing is to be covered at first. -/
theorem coversFrom_nil (W now : Int) (c : Option Counters) : CoversFrom W [] now c :=
  ⟨fun _ hs => absurd hs List.not_mem_nil, fun _ _ => ⟨Nat.zero_le _, Nat.zero_le _⟩⟩

/-- What has arrived a window length ago is not recent. -/
theorem CoversFrom.forget (hW : 0 < W) (hts : ∀ s' ∈ ts, s' ≤ s) (hst : s + W ≤ t) :
    CoversFrom W ts t none := by
  refine ⟨fun s' hs' => (hts s' hs').trans (by omega), fun t' ht' => ⟨?_, ?_⟩⟩
  · have hpast : (s + 1 * W) / W ≤ t' / W := Int.ediv_le_ediv hW (by omega)
    rw [Int.add_mul_ediv_right s 1 hW.ne'] at hpast
    exact (inWindow_eq_zero hW hts (by omega)).le
  · refine Nat.le_of_eq (List.countP_eq_zero.mpr fun s' hs' => ?_)
    have hle := hts s' hs'
    simp only [decide_eq_true_eq]
    omega

/-- An arrival that is counted may be one of those that are covered, or not. -/
theorem CoversFrom.count {c : Option Counters} (hW : 0 < W) (h : CoversFrom W ts s c)
    {ts' : List Int} (hnew : ts' = [] ∨ ts' = [s]) :
    CoversFrom W (ts ++ ts') s (some (count c (s / W))) := by
  have hcurrent := (h.covers s le_rfl).current
  have harrived : ∀ s' ∈ ts', s' ≤ s := by
    rcases hnew with rfl | rfl <;> simp
  have hone : inWindow W ts' (s / W) ≤ 1 := by
    rcases hnew with rfl | rfl <;> simp
  refine ⟨fun s' hs' => ?_, fun t ht => ?_⟩
  · rcases List.mem_append.mp hs' with hs' | hs'
    · exact h.arrived s' hs'
    · exact harrived s' hs'
  · have hprevious := recentPrevious_le_inWindow W (ts ++ ts') t
    rcases window_cases hW ht with hwindow | hwindow | hwindow
    · have hold := (recentPrevious_anti hwindow ht).trans (h.covers s le_rfl).previous
      have hnone : recentPrevious W ts' t = 0 := by
        rcases hnew with rfl | rfl
        · rfl
        · simp [recentPrevious, hwindow]
          omega
      constructor
      · simp [hwindow]
        omega
      · simp [recentPrevious_append, hwindow, hnone]
        exact hold
    · rw [hwindow, Int.add_sub_cancel, inWindow_append] at hprevious
      have hempty := inWindow_eq_zero hW h.arrived (Int.lt_succ (s / W))
      have hempty' := inWindow_eq_zero hW harrived (Int.lt_succ (s / W))
      constructor
      · simp [hwindow, hempty, hempty']
      · simp [hwindow]
        omega
    · have hempty := inWindow_eq_zero hW h.arrived (k := t / W) (by omega)
      have hempty' := inWindow_eq_zero hW harrived (k := t / W) (by omega)
      have hbefore := inWindow_eq_zero hW h.arrived (k := t / W - 1) (by omega)
      have hbefore' := inWindow_eq_zero hW harrived (k := t / W - 1) (by omega)
      rw [inWindow_append, hbefore, hbefore'] at hprevious
      rw [roll_count_of_lt c hwindow]
      refine ⟨?_, hprevious⟩
      simp [hempty, hempty']

end SlidingWindow

end Foundation
