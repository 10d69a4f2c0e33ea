import Mathlib.Data.List.Induction

/-!
# Runs of a deterministic machine

A machine is a total step function on states and inputs.  A run is the list of
its inputs; its trace pairs every input with the state in which it was applied,
so that a property of one step, of every step, or of two steps of a run is a
property of one entry, of all entries, or of two entries of the trace.

Main results:

- Theorem {lit}`mem_trace_iff`: the entries of a trace are the steps that the
  run takes after its prefixes.
- Theorems {lit}`trace_invariant` and {lit}`final_invariant`: an invariant kept
  by every step of a run holds before every step and at the end.
- Theorem {lit}`visits_invariant`: the same for every state a run visits.
- Theorem {lit}`history_invariant`: the same for an invariant that relates a
  state to the trace that led to it.
- Theorem {lit}`pairwise_trace`: a property of two steps of a run, from what the
  earlier step establishes and the steps in between keep.
- Theorem {lit}`exists_switch`: a property that holds and later does not is lost by a step.
- Definition {lit}`Since` and theorem {lit}`since_append_singleton`: an event of the past
  with nothing of a second kind after it, one step at a time.
-/

namespace Foundation

namespace Run

variable {σ ι : Type} {step : σ → ι → σ}

/-- The state after a run. -/
def final (step : σ → ι → σ) (s : σ) (inputs : List ι) : σ :=
  inputs.foldl step s

/-- The steps of a run: every input with the state before it. -/
def trace (step : σ → ι → σ) : σ → List ι → List (σ × ι)
  | _, [] => []
  | s, i :: inputs => (s, i) :: trace step (step s i) inputs

/-- A state is reachable if some run ends in it. -/
def Reachable (step : σ → ι → σ) (s t : σ) : Prop :=
  ∃ inputs, t = final step s inputs

@[simp]
theorem final_nil (s : σ) : final step s [] = s :=
  rfl

@[simp]
theorem final_cons (s : σ) (i : ι) (inputs : List ι) :
    final step s (i :: inputs) = final step (step s i) inputs :=
  rfl

theorem final_append (s : σ) (xs ys : List ι) :
    final step s (xs ++ ys) = final step (final step s xs) ys :=
  List.foldl_append

@[simp]
theorem trace_nil (s : σ) : trace step s [] = [] :=
  rfl

@[simp]
theorem trace_cons (s : σ) (i : ι) (inputs : List ι) :
    trace step s (i :: inputs) = (s, i) :: trace step (step s i) inputs :=
  rfl

theorem trace_append (s : σ) (xs ys : List ι) :
    trace step s (xs ++ ys) = trace step s xs ++ trace step (final step s xs) ys := by
  induction xs generalizing s with
  | nil => rfl
  | cons x xs ih => simp [ih]

/-- The steps of a run are exactly the steps taken after its prefixes. -/
theorem mem_trace_iff {s : σ} {inputs : List ι} {e : σ × ι} :
    e ∈ trace step s inputs ↔
      ∃ pre post, inputs = pre ++ e.2 :: post ∧ e.1 = final step s pre := by
  constructor
  · intro he
    induction inputs generalizing s with
    | nil => cases he
    | cons i inputs ih =>
        rcases List.mem_cons.mp he with rfl | he
        · exact ⟨[], inputs, rfl, rfl⟩
        · obtain ⟨pre, post, hinputs, hstate⟩ := ih he
          exact ⟨i :: pre, post, by rw [hinputs]; rfl, hstate⟩
  · intro h
    rcases h with ⟨pre, post, rfl, hstate⟩
    obtain ⟨t, i⟩ := e
    subst hstate
    rw [trace_append]
    exact List.mem_append_right _ List.mem_cons_self

/-- The inputs of the steps of a run are the inputs of the run. -/
theorem input_mem_of_mem_trace {s : σ} {inputs : List ι} {e : σ × ι}
    (he : e ∈ trace step s inputs) : e.2 ∈ inputs := by
  obtain ⟨pre, post, hinputs, -⟩ := mem_trace_iff.mp he
  rw [hinputs]
  exact List.mem_append_right _ List.mem_cons_self

theorem Reachable.refl (s : σ) : Reachable step s s :=
  ⟨[], rfl⟩

/-- The state before a step of a run is reachable. -/
theorem reachable_of_mem_trace {s : σ} {inputs : List ι} {e : σ × ι}
    (he : e ∈ trace step s inputs) : Reachable step s e.1 := by
  obtain ⟨pre, _, _, hstate⟩ := mem_trace_iff.mp he
  exact ⟨pre, hstate⟩

/-! ## Invariants of one state -/

/-- An invariant kept by every step of a run holds at its end. -/
theorem final_invariant {I : σ → Prop} {s : σ} {inputs : List ι} (hinit : I s)
    (hstep : ∀ e ∈ trace step s inputs, I e.1 → I (step e.1 e.2)) :
    I (final step s inputs) := by
  induction inputs generalizing s with
  | nil => exact hinit
  | cons i inputs ih =>
      apply ih (hstep (s, i) List.mem_cons_self hinit)
      intro e he
      exact hstep e (List.mem_cons_of_mem _ he)

/-- An invariant kept by every step of a run holds before each of them. -/
theorem trace_invariant {I : σ → Prop} {s : σ} {inputs : List ι} (hinit : I s)
    (hstep : ∀ e ∈ trace step s inputs, I e.1 → I (step e.1 e.2)) :
    ∀ e ∈ trace step s inputs, I e.1 := by
  intro e he
  obtain ⟨pre, post, rfl, hstate⟩ := mem_trace_iff.mp he
  rw [hstate]
  apply final_invariant hinit
  intro e' he'
  apply hstep
  rw [trace_append]
  exact List.mem_append_left _ he'

/-- An invariant kept by every step holds in every reachable state. -/
theorem Reachable.invariant {I : σ → Prop} {s t : σ} (ht : Reachable step s t) (hinit : I s)
    (hstep : ∀ s i, I s → I (step s i)) : I t := by
  obtain ⟨inputs, rfl⟩ := ht
  exact final_invariant hinit fun e _ => hstep e.1 e.2

/-! ## Visited states -/

/-- A run visits the states after its prefixes, the first and the last included. -/
def Visits (step : σ → ι → σ) (s : σ) (inputs : List ι) (t : σ) : Prop :=
  ∃ pre post, inputs = pre ++ post ∧ t = final step s pre

theorem visits_of_mem_trace {s : σ} {inputs : List ι} {e : σ × ι}
    (he : e ∈ trace step s inputs) : Visits step s inputs e.1 := by
  obtain ⟨pre, post, hinputs, hstate⟩ := mem_trace_iff.mp he
  exact ⟨pre, e.2 :: post, hinputs, hstate⟩

/-- The state after a step of a run is visited. -/
theorem visits_step {s : σ} {inputs : List ι} {e : σ × ι} (he : e ∈ trace step s inputs) :
    Visits step s inputs (step e.1 e.2) := by
  obtain ⟨pre, post, hinputs, hstate⟩ := mem_trace_iff.mp he
  refine ⟨pre ++ [e.2], post, by rw [hinputs, List.append_cons], ?_⟩
  rw [final_append, ← hstate]
  rfl

theorem visits_final (s : σ) (inputs : List ι) : Visits step s inputs (final step s inputs) :=
  ⟨inputs, [], (List.append_nil inputs).symm, rfl⟩

/-- An invariant kept by every step of a run holds in every state it visits. -/
theorem visits_invariant {I : σ → Prop} {s : σ} {inputs : List ι} (hinit : I s)
    (hstep : ∀ e ∈ trace step s inputs, I e.1 → I (step e.1 e.2)) :
    ∀ t, Visits step s inputs t → I t := by
  intro t h
  rcases h with ⟨pre, post, rfl, rfl⟩
  apply final_invariant hinit
  intro e he
  apply hstep
  rw [trace_append]
  exact List.mem_append_left _ he

/-! ## Invariants of the history -/

/-- An invariant of the trace so far and the state it led to, kept by the inputs of a run. -/
theorem history_invariant_of_mem {P : List (σ × ι) → σ → Prop} {s : σ} {inputs : List ι}
    (hinit : P [] s)
    (hstep : ∀ past s, ∀ i ∈ inputs, P past s → P (past ++ [(s, i)]) (step s i)) :
    P (trace step s inputs) (final step s inputs) := by
  -- the last step of a run extends the history of the rest
  induction inputs using List.reverseRecOn with
  | nil => exact hinit
  | append_singleton inputs i ih =>
      have hpast := ih fun past s j hj => hstep past s j (List.mem_append_left _ hj)
      rw [trace_append, final_append]
      exact hstep _ _ i (List.mem_append_right _ List.mem_cons_self) hpast

/-- An invariant of the trace so far and the state it led to. -/
theorem history_invariant {P : List (σ × ι) → σ → Prop} {s : σ} (hinit : P [] s)
    (hstep : ∀ past s i, P past s → P (past ++ [(s, i)]) (step s i)) (inputs : List ι) :
    P (trace step s inputs) (final step s inputs) :=
  history_invariant_of_mem hinit fun past s i _ => hstep past s i

/-- What relates all pairs of steps relates the steps of a prefix to the next step. -/
theorem pairwise_prefix {R : σ × ι → σ × ι → Prop} {s : σ} {pre post : List ι} {i : ι}
    (h : (trace step s (pre ++ i :: post)).Pairwise R) :
    ∀ e ∈ trace step s pre, R e (final step s pre, i) := by
  rw [trace_append, List.pairwise_append] at h
  intro e he
  exact h.2.2 e he _ List.mem_cons_self

/-- A relation between an earlier and a later step of a run, from a fact that the
earlier step establishes, that every step keeps, and that the later step uses. -/
theorem pairwise_trace {R : σ × ι → σ × ι → Prop} {P : σ × ι → σ → Prop} {s : σ}
    {inputs : List ι} (hnow : ∀ e ∈ trace step s inputs, P e (step e.1 e.2))
    (hkeep : ∀ e, ∀ e' ∈ trace step s inputs, P e e'.1 → P e (step e'.1 e'.2))
    (huse : ∀ e, ∀ e' ∈ trace step s inputs, P e e'.1 → R e e') :
    (trace step s inputs).Pairwise R := by
  induction inputs generalizing s with
  | nil => exact List.Pairwise.nil
  | cons i inputs ih =>
      have htail : ∀ e ∈ trace step (step s i) inputs, e ∈ trace step s (i :: inputs) :=
        fun e he => List.mem_cons_of_mem _ he
      rw [trace_cons, List.pairwise_cons]
      constructor
      · have hpast : ∀ e ∈ trace step (step s i) inputs, P (s, i) e.1 :=
          trace_invariant (hnow (s, i) List.mem_cons_self)
            fun e he => hkeep (s, i) e (htail e he)
        intro e he
        exact huse (s, i) e (htail e he) (hpast e he)
      · exact ih (fun e he => hnow e (htail e he)) (fun e e' he' => hkeep e e' (htail e' he'))
          fun e e' he' => huse e e' (htail e' he')

/-- The part of a trace before one of its steps is the trace of a prefix of the run. -/
theorem trace_split {s : σ} {inputs : List ι} {before after : List (σ × ι)} {e : σ × ι}
    (h : trace step s inputs = before ++ e :: after) :
    ∃ pre post, inputs = pre ++ e.2 :: post ∧ before = trace step s pre ∧
      e.1 = final step s pre := by
  induction before generalizing s inputs with
  | nil =>
      cases inputs with
      | nil => cases h
      | cons i inputs =>
          rcases List.cons.inj h with ⟨rfl, -⟩
          exact ⟨[], inputs, rfl, rfl, rfl⟩
  | cons first before ih =>
      cases inputs with
      | nil => cases h
      | cons i inputs =>
          rcases List.cons.inj h with ⟨rfl, hrest⟩
          rcases ih hrest with ⟨pre, post, hinputs, hbefore, hstate⟩
          exact ⟨i :: pre, post, by rw [hinputs]; rfl, by rw [hbefore]; rfl, hstate⟩

/-- A property that one step establishes and that is lost at a later one was lost by a step
in between. -/
theorem exists_switch {P : σ → Prop} {s : σ} {inputs : List ι}
    {before between after : List (σ × ι)} {x e : σ × ι}
    (h : trace step s inputs = before ++ x :: between ++ e :: after) (hstart : P (step x.1 x.2))
    (hend : ¬ P e.1) : ∃ r ∈ between, P r.1 ∧ ¬ P (step r.1 r.2) := by
  rcases trace_split h with ⟨pre, post, -, hpast, hstate⟩
  rcases trace_split hpast.symm with ⟨first, mid, rfl, hbefore, hx⟩
  rw [trace_append, hbefore, List.append_cancel_left_eq, trace_cons, ← hx] at hpast
  have hbetween : between = trace step (step x.1 x.2) mid := (List.cons.inj hpast).2
  by_contra hkept
  simp only [not_exists, not_and, not_not] at hkept
  apply hend
  rw [hstate, final_append, ← hx, final_cons]
  apply final_invariant hstart
  intro r hr
  rw [← hbetween] at hr
  exact hkept r hr

/-! ## Since an event -/

/-- An event of the past, with nothing of a second kind after it. -/
def Since {α : Type} (start stop : α → Prop) (past : List α) : Prop :=
  ∃ before e between, past = before ++ e :: between ∧ start e ∧ ∀ x ∈ between, ¬ stop x

theorem not_since_nil {α : Type} {start stop : α → Prop} : ¬ Since start stop [] := by
  intro h
  rcases h with ⟨before, e, between, hpast, -⟩
  simp at hpast

/-- After one more step the event is that step, or an earlier one that the step keeps. -/
theorem since_append_singleton {α : Type} {start stop : α → Prop} {past : List α} {e : α} :
    Since start stop (past ++ [e]) ↔ start e ∨ Since start stop past ∧ ¬ stop e := by
  constructor
  · intro h
    rcases h with ⟨before, first, between, hpast, hstart, hbetween⟩
    -- the last step is the event itself, or one of those after it
    induction between using List.reverseRecOn with
    | nil =>
        obtain ⟨-, hlast⟩ := List.append_inj' hpast rfl
        rw [List.singleton_inj.mp hlast]
        exact .inl hstart
    | append_singleton between last _ =>
        rw [← List.cons_append, ← List.append_assoc] at hpast
        obtain ⟨hpast, hlast⟩ := List.append_inj' hpast rfl
        rw [List.singleton_inj.mp hlast]
        refine .inr ⟨⟨before, first, between, hpast, hstart, ?_⟩, ?_⟩
        · intro x hx
          exact hbetween x (List.mem_append_left _ hx)
        · exact hbetween last (List.mem_append_right _ List.mem_cons_self)
  · intro h
    rcases h with hstart | ⟨⟨before, first, between, rfl, hstart, hbetween⟩, hkept⟩
    · exact ⟨past, e, [], rfl, hstart, fun _ hx => absurd hx List.not_mem_nil⟩
    · refine ⟨before, first, between ++ [e], by simp, hstart, ?_⟩
      intro x hx
      rcases List.mem_append.mp hx with hx | hx
      · exact hbetween x hx
      · rw [List.mem_singleton.mp hx]
        exact hkept

theorem Since.mono {α : Type} {start start' stop : α → Prop} {past : List α}
    (h : Since start stop past) (himp : ∀ e, start e → start' e) : Since start' stop past := by
  rcases h with ⟨before, e, between, hpast, hstart, hbetween⟩
  exact ⟨before, e, between, hpast, himp e hstart, hbetween⟩

/-- The event lies after every event of the second kind. -/
theorem Since.exists_between {α : Type} {start stop : α → Prop} {before between : List α} {x : α}
    (h : Since start stop (before ++ x :: between)) (hstop : stop x) (hstart : ¬ start x) :
    ∃ e ∈ between, start e := by
  rcases h with ⟨before', e, between', hpast, he, hbetween'⟩
  rcases List.append_eq_append_iff.mp hpast with ⟨mid, -, hmid⟩ | ⟨mid, -, hmid⟩
  · cases mid with
    | nil =>
        rcases List.cons.inj hmid with ⟨rfl, -⟩
        exact absurd he hstart
    | cons y mid =>
        rcases List.cons.inj hmid with ⟨-, rfl⟩
        exact ⟨e, List.mem_append_right _ List.mem_cons_self, he⟩
  · cases mid with
    | nil =>
        rcases List.cons.inj hmid with ⟨rfl, -⟩
        exact absurd he hstart
    | cons y mid =>
        rcases List.cons.inj hmid with ⟨-, rfl⟩
        exact absurd hstop (hbetween' x (List.mem_append_right _ List.mem_cons_self))

end Run

end Foundation
