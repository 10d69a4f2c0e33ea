import Kraal.Foundation.Call
import Kraal.Foundation.Run

/-!
# Simulations between machines

A call on a large state simulates a call on a small one if it does the same through an
embedding of the small state.  A machine projects to another one if each of its steps is,
on a part of its state, a step of the other machine or no step at all.

Main results:

- Theorem {lit}`Call.Embeds.bind`: a sequence of simulations is a simulation.
- Theorem {lit}`Call.Embeds.commit`: committing commutes with the embedding.
- Definition {lit}`Call.ReturnsAlike`: calls that return the same and may write other things.
- Theorems {lit}`Projection.part_final` and {lit}`Projection.trace_inputs`: the part of a run
  is a run of the other machine, with the same steps in the same order.
- Theorem {lit}`Projection.since_inputs`: what has happened since an event.
-/

namespace Foundation

/-! ## Calls through an embedding of their states -/

namespace Call

variable {ρ σ τ ε α β : Type} {embed : τ → σ} {r : ρ}

/-- The outcome of a call, with the state it leaves in the large one. -/
def embedOutcome (embed : τ → σ) : Except (Fault ε) (α × τ) → Except (Fault ε) (α × σ)
  | .ok (a, t) => .ok (a, embed t)
  | .error f => .error f

/-- A call does on the large state what another one does on the small state. -/
def Embeds (embed : τ → σ) (r : ρ) (c : Call ρ σ ε α) (c' : Call ρ τ ε α) : Prop :=
  ∀ t, c r (embed t) = embedOutcome embed (c' r t)

/-- Returning a value is simulated. -/
theorem Embeds.pure (a : α) :
    Embeds embed r (Pure.pure a : Call ρ σ ε α) (Pure.pure a : Call ρ τ ε α) :=
  fun _ => rfl

/-- Reading the environment is simulated. -/
theorem Embeds.ask : Embeds embed r (ask : Call ρ σ ε ρ) ask :=
  fun _ => rfl

/-- A check is simulated. -/
theorem Embeds.failIf (c : Prop) [Decidable c] (e : ε) :
    Embeds embed r (failIf c e : Call ρ σ ε Unit) (failIf c e) := by
  intro t
  unfold Call.failIf
  split <;> rfl

/-- An assertion is simulated. -/
theorem Embeds.assert (c : Prop) [Decidable c] :
    Embeds embed r (assert c : Call ρ σ ε Unit) (assert c) := by
  intro t
  unfold Call.assert
  split <;> rfl

/-- A value that may be missing is simulated. -/
theorem Embeds.okOr (o : Option α) (e : ε) :
    Embeds embed r (okOr o e : Call ρ σ ε α) (okOr o e) := by
  intro t
  cases o <;> rfl

/-- A value that may be missing is simulated. -/
theorem Embeds.okOrTrap (o : Option α) :
    Embeds embed r (okOrTrap o : Call ρ σ ε α) (okOrTrap o) := by
  intro t
  cases o <;> rfl

/-- A sequence of simulations is a simulation of the sequence. -/
theorem Embeds.bind {x : Call ρ σ ε α} {x' : Call ρ τ ε α} {f : α → Call ρ σ ε β}
    {f' : α → Call ρ τ ε β} (hx : Embeds embed r x x') (hf : ∀ a, Embeds embed r (f a) (f' a)) :
    Embeds embed r (x >>= f) (x' >>= f') := by
  intro t
  cases h : x' r t with
  | error fault =>
      have hfail : x r (embed t) = .error fault := by
        rw [hx t, h]
        rfl
      rw [bind_of_error hfail, bind_of_error h]
      rfl
  | ok p =>
      rcases p with ⟨a, t'⟩
      have hreturn : x r (embed t) = .ok (a, embed t') := by
        rw [hx t, h]
        rfl
      rw [bind_of_ok hreturn, bind_of_ok h]
      exact hf a t'

/-- Reading the state is simulated if what follows is. -/
theorem Embeds.get_bind {f : σ → Call ρ σ ε α} {f' : τ → Call ρ τ ε α}
    (hf : ∀ t, Embeds embed r (f (embed t)) (f' t)) : Embeds embed r (get >>= f) (get >>= f') :=
  fun t => hf t t

/-- An update is simulated if it commutes with the embedding. -/
theorem Embeds.modify {f : σ → σ} {f' : τ → τ} (hf : ∀ t, f (embed t) = embed (f' t)) :
    Embeds embed r (modify f : Call ρ σ ε Unit) (modify f') := by
  intro t
  change Except.ok ((), f (embed t)) = .ok ((), embed (f' t))
  rw [hf]

/-- A choice between two simulated calls is simulated. -/
theorem Embeds.ite {b : Prop} [Decidable b] {x y : Call ρ σ ε α} {x' y' : Call ρ τ ε α}
    (hx : Embeds embed r x x') (hy : Embeds embed r y y') :
    Embeds embed r (if b then x else y) (if b then x' else y') := by
  split
  · exact hx
  · exact hy

variable {c : Call ρ σ ε α} {c' : Call ρ τ ε α}

/-- A simulated call returns with the embedded state, and only with that. -/
theorem Embeds.eq_ok (h : Embeds embed r c c') {t : τ} {a : α} {s : σ} :
    c r (embed t) = .ok (a, s) ↔ ∃ t', c' r t = .ok (a, t') ∧ s = embed t' := by
  rw [h t]
  cases c' r t with
  | error fault => simp [embedOutcome]
  | ok p =>
      rcases p with ⟨b, t'⟩
      simp [embedOutcome, eq_comm, and_assoc]

/-- What a call returns, whatever state it leaves. -/
def returned (c : Call ρ σ ε α) (r : ρ) (s : σ) : Except (Fault ε) α :=
  (c r s).map Prod.fst

/-- What a call returns if it returns. -/
theorem returned_eq_ok {a : α} {s : σ} : c.returned r s = .ok a ↔ ∃ s', c r s = .ok (a, s') := by
  unfold returned
  cases c r s with
  | error f => simp [Except.map]
  | ok p =>
      rcases p with ⟨b, s'⟩
      simp [Except.map]

/-- A call returns on the large state what another one returns on the small state.  The states that
they leave may differ. -/
def ReturnsAlike (embed : τ → σ) (r : ρ) (c : Call ρ σ ε α) (c' : Call ρ τ ε α) : Prop :=
  ∀ t, c.returned r (embed t) = c'.returned r t

/-- A simulated call returns the same value or the same error. -/
theorem Embeds.returnsAlike (h : Embeds embed r c c') : ReturnsAlike embed r c c' := by
  intro t
  rw [returned, returned, h t]
  cases c' r t <;> rfl

/-- An update returns nothing, whatever it writes. -/
theorem ReturnsAlike.modify (f : σ → σ) (f' : τ → τ) :
    ReturnsAlike embed r (Call.modify f : Call ρ σ ε Unit) (Call.modify f') :=
  fun _ => rfl

/-- After simulated calls it is enough that the last one returns alike. -/
theorem Embeds.bind_returnsAlike {x : Call ρ σ ε α} {x' : Call ρ τ ε α} {f : α → Call ρ σ ε β}
    {f' : α → Call ρ τ ε β} (hx : Embeds embed r x x')
    (hf : ∀ a, ReturnsAlike embed r (f a) (f' a)) :
    ReturnsAlike embed r (x >>= f) (x' >>= f') := by
  intro t
  unfold returned
  cases h : x' r t with
  | error fault =>
      have hfail : x r (embed t) = .error fault := by
        rw [hx t, h]
        rfl
      rw [bind_of_error hfail, bind_of_error h]
      rfl
  | ok p =>
      rcases p with ⟨a, t'⟩
      rw [bind_of_ok (hx.eq_ok.mpr ⟨t', h, rfl⟩), bind_of_ok h]
      exact hf a t'

/-- Committing a simulated call commutes with the embedding. -/
theorem Embeds.commit (h : Embeds embed r c c') (t : τ) :
    c.commit r (embed t) = embed (c'.commit r t) := by
  cases hcall : c' r t with
  | error fault =>
      have hfail : c r (embed t) = .error fault := by
        rw [h t, hcall]
        rfl
      rw [commit_of_error hfail, commit_of_error hcall]
  | ok p =>
      rcases p with ⟨a, t'⟩
      rw [commit_of_ok hcall, commit_of_ok (h.eq_ok.mpr ⟨t', hcall, rfl⟩)]

end Call

/-! ## Machines that project to another one -/

namespace Run

variable {σ τ ι κ : Type} {step : σ → ι → σ} {step' : τ → κ → τ}

/-- A machine whose steps are steps of another one on a part of its state.  A step that
shows no input leaves that part alone. -/
structure Projection (step : σ → ι → σ) (step' : τ → κ → τ) where
  part : σ → τ
  shown : σ × ι → Option κ
  part_step : ∀ s i, part (step s i) = ((shown (s, i)).map (step' (part s))).getD (part s)

namespace Projection

variable (P : Projection step step')

/-- A step that shows an input is one of the other machine. -/
theorem part_of_shown {e : σ × ι} {k : κ} (h : P.shown e = some k) :
    P.part (step e.1 e.2) = step' (P.part e.1) k := by
  rw [P.part_step, h]
  rfl

/-- A step that shows no input leaves the part alone. -/
theorem part_of_not_shown {e : σ × ι} (h : P.shown e = none) :
    P.part (step e.1 e.2) = P.part e.1 := by
  rw [P.part_step, h]
  rfl

/-- The step of the other machine that a step shows. -/
def entry (e : σ × ι) : Option (τ × κ) :=
  (P.shown e).map fun k => (P.part e.1, k)

/-- Which step of the other machine a step shows. -/
theorem entry_eq_some {e : σ × ι} {e' : τ × κ} :
    P.entry e = some e' ↔ P.shown e = some e'.2 ∧ P.part e.1 = e'.1 := by
  rcases e' with ⟨t, k⟩
  simp only [entry, Option.map_eq_some_iff, Prod.mk.injEq]
  constructor
  · intro h
    rcases h with ⟨k', hk', hpart, rfl⟩
    exact ⟨hk', hpart⟩
  · intro h
    exact ⟨k, h.1, h.2, rfl⟩

/-- The inputs that a run shows. -/
def inputs (s : σ) (run : List ι) : List κ :=
  (trace step s run).filterMap P.shown

/-- The part of a run is a run of the other machine. -/
theorem part_final (s : σ) (run : List ι) :
    P.part (final step s run) = final step' (P.part s) (P.inputs s run) := by
  induction run generalizing s with
  | nil => rfl
  | cons i run ih =>
      rw [final_cons, ih, inputs, inputs, trace_cons]
      cases h : P.shown (s, i) with
      | none =>
          rw [List.filterMap_cons_none h, P.part_of_not_shown (e := (s, i)) h]
      | some k =>
          rw [List.filterMap_cons_some h, P.part_of_shown (e := (s, i)) h, final_cons]

/-- The steps of the other machine are those that the run shows, in their order. -/
theorem trace_inputs (s : σ) (run : List ι) :
    trace step' (P.part s) (P.inputs s run) = (trace step s run).filterMap P.entry := by
  induction run generalizing s with
  | nil => rfl
  | cons i run ih =>
      have hrest := ih (step s i)
      unfold inputs at hrest ⊢
      rw [trace_cons]
      cases h : P.shown (s, i) with
      | none =>
          have hentry : P.entry (s, i) = none := by
            rw [entry, h]
            rfl
          rw [List.filterMap_cons_none h, List.filterMap_cons_none hentry, ← hrest,
            P.part_of_not_shown (e := (s, i)) h]
      | some k =>
          have hentry : P.entry (s, i) = some (P.part s, k) := by
            rw [entry, h]
            rfl
          rw [List.filterMap_cons_some h, List.filterMap_cons_some hentry, trace_cons, ← hrest,
            P.part_of_shown (e := (s, i)) h]

/-- An event that the other machine has seen since was shown since. -/
theorem since_inputs {start stop : τ × κ → Prop} (s : σ) (run : List ι)
    (h : Since start stop (trace step' (P.part s) (P.inputs s run))) :
    Since (fun e => ∃ x, P.entry e = some x ∧ start x) (fun e => ∃ x, P.entry e = some x ∧ stop x)
      (trace step s run) := by
  rw [trace_inputs] at h
  rcases h with ⟨before, x, between, hpast, hstart, hbetween⟩
  rcases List.filterMap_eq_append_iff.mp hpast with ⟨pre, rest, hrun, -, hrest⟩
  rcases List.filterMap_eq_cons_iff.mp hrest with ⟨silent, e, post, rfl, hsilent, hx, hpost⟩
  refine ⟨pre ++ silent, e, post, by rw [hrun, List.append_assoc], ⟨x, hx, hstart⟩, ?_⟩
  intro e' he' hstop
  rcases hstop with ⟨y, hy, hstop⟩
  refine hbetween y ?_ hstop
  rw [← hpost]
  exact List.mem_filterMap.mpr ⟨e', he', hy⟩

end Projection

end Run

end Foundation
