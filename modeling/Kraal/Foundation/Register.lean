import Kraal.Foundation.Run
import Mathlib.Order.WithBot

/-!
# Registers that steps overwrite

A register is a part of the state that a step either overwrites or keeps.  The values
carry a rank.  The rank of the register never drops along a run exactly if the writes of
the run come in the order of their ranks.

Main results:

- Theorem {lit}`Register.written_of_read`: a value that is read was written by a step.
- Theorems {lit}`Register.since_of_read` and {lit}`Register.read_iff_since`: it was written
  last by that step.
- Theorem {lit}`Register.ascends_iff`: when the rank of a register never drops.
- Theorem {lit}`Register.Ascends.le_final`: a register that ascends ends above every write.
-/

namespace Foundation

/-- A part of the state, with the value that a step writes to it. -/
structure Register {σ ι : Type} (step : σ → ι → σ) (β : Type) where
  read : σ → Option β
  written : σ × ι → Option β
  read_step : ∀ s i, read (step s i) = (written (s, i)).or (read s)

namespace Register

variable {σ ι β κ : Type} {step : σ → ι → σ} (R : Register step β)

/-- What is written is read. -/
theorem read_of_written {e : σ × ι} {b : β} (h : R.written e = some b) :
    R.read (step e.1 e.2) = some b := by
  rw [R.read_step, h, Option.some_or]

/-- What is not written over is read. -/
theorem read_of_not_written {e : σ × ι} (h : R.written e = none) :
    R.read (step e.1 e.2) = R.read e.1 := by
  rw [R.read_step, h, Option.none_or]

/-- A value that is read after a run was written by one of its steps. -/
theorem written_of_read {s : σ} (hinit : R.read s = none) {inputs : List ι} {b : β}
    (hread : R.read (Run.final step s inputs) = some b) :
    ∃ e ∈ Run.trace step s inputs, R.written e = some b := by
  revert b
  refine Run.history_invariant (s := s)
    (P := fun past t => ∀ {b}, R.read t = some b → ∃ e ∈ past, R.written e = some b) ?_ ?_ inputs
  · intro b hread
    rw [hinit] at hread
    cases hread
  · intro past t i ih b hread
    cases hwritten : R.written (t, i) with
    | none =>
        rw [R.read_of_not_written (e := (t, i)) hwritten] at hread
        rcases ih hread with ⟨e, he, hsource⟩
        exact ⟨e, List.mem_append_left _ he, hsource⟩
    | some b' =>
        rw [R.read_of_written (e := (t, i)) hwritten, Option.some.injEq] at hread
        subst hread
        exact ⟨(t, i), by simp, hwritten⟩

/-- A value that is read after a run was written by a step that no later write follows. -/
theorem since_of_read {s : σ} (hinit : R.read s = none) {inputs : List ι} {b : β}
    (hread : R.read (Run.final step s inputs) = some b) :
    Run.Since (fun e => R.written e = some b) (fun e => (R.written e).isSome = true)
      (Run.trace step s inputs) := by
  revert b
  refine Run.history_invariant (s := s)
    (P := fun past t => ∀ {b}, R.read t = some b → Run.Since (fun e => R.written e = some b)
      (fun e => (R.written e).isSome = true) past) ?_ ?_ inputs
  · intro b hread
    rw [hinit] at hread
    cases hread
  · intro past t i ih b hread
    rw [Run.since_append_singleton]
    cases hwritten : R.written (t, i) with
    | none =>
        rw [R.read_of_not_written (e := (t, i)) hwritten] at hread
        exact .inr ⟨ih hread, by simp⟩
    | some b' =>
        rw [R.read_of_written (e := (t, i)) hwritten] at hread
        exact .inl hread

/-- A value is read after a run exactly if no later write follows a step that wrote it. -/
theorem read_iff_since {s : σ} (hinit : R.read s = none) {inputs : List ι} {b : β} :
    R.read (Run.final step s inputs) = some b ↔ Run.Since (fun e => R.written e = some b)
      (fun e => (R.written e).isSome = true) (Run.trace step s inputs) := by
  refine ⟨R.since_of_read hinit, ?_⟩
  refine Run.history_invariant (s := s)
    (P := fun past t => Run.Since (fun e => R.written e = some b)
      (fun e => (R.written e).isSome = true) past → R.read t = some b) ?_ ?_ inputs
  · intro h
    exact absurd h Run.not_since_nil
  · intro past t i ih h
    rcases Run.since_append_singleton.mp h with hnow | ⟨hbefore, hkept⟩
    · exact R.read_of_written (e := (t, i)) hnow
    · rw [Bool.not_eq_true, Option.isSome_eq_false_iff, Option.isNone_iff_eq_none] at hkept
      rw [R.read_of_not_written (e := (t, i)) hkept]
      exact ih hbefore

/-- A register that holds a value keeps one, and a register that gains one was written. -/
theorem read_final_isSome (s : σ) (inputs : List ι) :
    (R.read (Run.final step s inputs)).isSome = true ↔
      (R.read s).isSome = true ∨ ∃ e ∈ Run.trace step s inputs, (R.written e).isSome = true := by
  refine Run.history_invariant
    (P := fun past t => (R.read t).isSome = true ↔
      (R.read s).isSome = true ∨ ∃ e ∈ past, (R.written e).isSome = true) ?_ ?_ inputs
  · simp
  · intro past t i ih
    cases hwritten : R.written (t, i) with
    | none =>
        rw [R.read_of_not_written (e := (t, i)) hwritten, ih]
        simp [hwritten, or_and_right, exists_or]
    | some b =>
        rw [R.read_of_written (e := (t, i)) hwritten]
        simp [hwritten, or_and_right, exists_or]

/-! ## The rank of a register -/

variable (rank : β → κ)

/-- The rank of the value of a register, below every rank if there is none. -/
def level (s : σ) : WithBot κ :=
  match R.read s with
  | none => ⊥
  | some b => (rank b : WithBot κ)

/-- An empty register is at the bottom. -/
theorem level_of_none {s : σ} (h : R.read s = none) : R.level rank s = ⊥ := by
  rw [level, h]

/-- The level of what is read. -/
theorem level_of_some {s : σ} {b : β} (h : R.read s = some b) : R.level rank s = rank b := by
  rw [level, h]

/-- The level stays while nothing is written. -/
theorem level_of_not_written {e : σ × ι} (h : R.written e = none) :
    R.level rank (step e.1 e.2) = R.level rank e.1 := by
  rw [level, level, R.read_of_not_written h]

variable [LinearOrder κ]

/-- No step of a run lowers the rank of the register. -/
def Ascends (s : σ) (inputs : List ι) : Prop :=
  ∀ e ∈ Run.trace step s inputs, R.level rank e.1 ≤ R.level rank (step e.1 e.2)

/-- The writes of a run come in the order of their ranks. -/
def InOrder (s : σ) (inputs : List ι) : Prop :=
  (Run.trace step s inputs).Pairwise fun e e' =>
    ∀ b b', R.written e = some b → R.written e' = some b' → rank b ≤ rank b'

variable {R rank} {s : σ}

/-- The first part of a run that ascends. -/
theorem Ascends.pre {pre post : List ι} (h : R.Ascends rank s (pre ++ post)) :
    R.Ascends rank s pre := by
  intro e he
  apply h
  rw [Run.trace_append]
  exact List.mem_append_left _ he

/-- A register that ascends over a run ascends over each of its parts. -/
theorem Ascends.level_le {pre mid post : List ι} (h : R.Ascends rank s (pre ++ mid ++ post)) :
    R.level rank (Run.final step s pre) ≤ R.level rank (Run.final step s (pre ++ mid)) := by
  rw [Run.final_append]
  apply Run.final_invariant (I := fun t => R.level rank (Run.final step s pre) ≤ R.level rank t)
  · exact le_refl _
  · intro e he hbefore
    refine le_trans hbefore (h e ?_)
    rw [List.append_assoc, Run.trace_append, Run.trace_append]
    exact List.mem_append_right _ (List.mem_append_left _ he)

/-- What a step writes is not above the register after the run. -/
theorem Ascends.le_final {inputs : List ι} (h : R.Ascends rank s inputs) {e : σ × ι}
    (he : e ∈ Run.trace step s inputs) {b : β} (hwritten : R.written e = some b) :
    (rank b : WithBot κ) ≤ R.level rank (Run.final step s inputs) := by
  rcases Run.mem_trace_iff.mp he with ⟨pre, post, rfl, hstate⟩
  have hafter : R.level rank (Run.final step s (pre ++ [e.2])) = rank b := by
    rw [Run.final_append, ← hstate]
    exact R.level_of_some rank (R.read_of_written hwritten)
  have hsplit : pre ++ e.2 :: post = pre ++ [e.2] ++ post ++ [] := by simp
  rw [hsplit] at h
  have hle := h.level_le
  rw [hafter] at hle
  simpa using hle

/-- Where the level ascends the writes are in order. -/
theorem Ascends.inOrder {inputs : List ι} (h : R.Ascends rank s inputs) :
    R.InOrder rank s inputs := by
  refine Run.pairwise_trace
    (P := fun e t => ∀ b, R.written e = some b → (rank b : WithBot κ) ≤ R.level rank t) ?_ ?_ ?_
  · intro e _ b hwritten
    rw [R.level_of_some rank (R.read_of_written hwritten)]
  · intro e e' he' hbelow b hwritten
    exact le_trans (hbelow b hwritten) (h e' he')
  · intro e e' he' hbelow b b' hwritten hwritten'
    have hle := le_trans (hbelow b hwritten) (h e' he')
    rw [R.level_of_some rank (R.read_of_written hwritten')] at hle
    exact WithBot.coe_le_coe.mp hle

/-- Where the writes are in order the level ascends. -/
theorem InOrder.ascends {inputs : List ι} (hinit : R.read s = none)
    (h : R.InOrder rank s inputs) : R.Ascends rank s inputs := by
  intro e he
  cases hwritten : R.written e with
  | none => exact le_of_eq (R.level_of_not_written rank hwritten).symm
  | some b' =>
      rw [R.level_of_some rank (R.read_of_written hwritten)]
      cases hread : R.read e.1 with
      | none =>
          rw [R.level_of_none rank hread]
          exact bot_le
      | some b =>
          -- the value that is overwritten comes from an earlier step
          rcases Run.mem_trace_iff.mp he with ⟨pre, post, rfl, hstate⟩
          have hread' := hread
          rw [hstate] at hread'
          rcases R.written_of_read hinit hread' with ⟨first, hfirst, hsource⟩
          have hlater := Run.pairwise_prefix h first hfirst
          rw [← hstate] at hlater
          rw [R.level_of_some rank hread]
          exact WithBot.coe_le_coe.mpr (hlater b b' hsource hwritten)

/-- The rank of a register that starts empty never drops exactly if its writes come in
order. -/
theorem ascends_iff {inputs : List ι} (hinit : R.read s = none) :
    R.Ascends rank s inputs ↔ R.InOrder rank s inputs :=
  ⟨Ascends.inOrder, InOrder.ascends hinit⟩

end Register

end Foundation
