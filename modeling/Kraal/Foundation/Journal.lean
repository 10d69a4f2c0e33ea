import Kraal.Foundation.Register

/-!
# Records that are the replay of their journal

A record of the state that a step creates and later steps change by events, each of them
read off the step alone.  The record is then what its events make of the value it was
created with.

Main results:

- Theorem {lit}`Journal.replays_append_singleton`: a replay taken one step further.
- Theorem {lit}`Journal.read_final_iff`: the record after a run is the replay of the run.
- Definition {lit}`Journal.register`: a field of the record is a register.
-/

namespace Foundation

/-- A record, with the value that a step creates for it, the event that a step is for it, and
what an event does. -/
structure Journal {σ ι : Type} (step : σ → ι → σ) (ρ κ : Type) where
  read : σ → Option ρ
  created : σ × ι → Option ρ
  event : σ × ι → Option κ
  apply : ρ → κ → ρ
  read_step : ∀ s i, read (step s i) =
    (created (s, i)).or ((read s).map fun r => (event (s, i)).elim r (apply r))

namespace Journal

variable {σ ι ρ κ : Type} {step : σ → ι → σ} (J : Journal step ρ κ)

/-- The events of a list of steps, in their order. -/
def events (past : List (σ × ι)) : List κ := past.filterMap J.event

/-- A record is the replay of the steps since it was created. -/
def Replays (past : List (σ × ι)) (r : ρ) : Prop :=
  ∃ before e after first, past = before ++ e :: after ∧ J.created e = some first ∧
    (∀ x ∈ after, J.created x = none) ∧ (J.events after).foldl J.apply first = r

/-- The events of two parts of a past. -/
theorem events_append (past past' : List (σ × ι)) :
    J.events (past ++ past') = J.events past ++ J.events past' :=
  List.filterMap_append

/-- What one more step does to a record. -/
theorem foldl_events_singleton (e : σ × ι) (r : ρ) :
    (J.events [e]).foldl J.apply r = (J.event e).elim r (J.apply r) := by
  cases h : J.event e with
  | none => simp [events, h]
  | some k => simp [events, h]

/-- Nothing is replayed from no past. -/
theorem not_replays_nil {r : ρ} : ¬ J.Replays [] r := by
  intro h
  rcases h with ⟨before, e, after, first, hpast, -⟩
  simp at hpast

/-- A replay ends with the step that creates the record, or the step adds its event. -/
theorem replays_append_singleton {past : List (σ × ι)} {e : σ × ι} {r : ρ} :
    J.Replays (past ++ [e]) r ↔ J.created e = some r ∨
      J.created e = none ∧ ∃ r', J.Replays past r' ∧ (J.event e).elim r' (J.apply r') = r := by
  constructor
  · intro h
    rcases h with ⟨before, x, after, first, hpast, hfirst, hafter, hreplay⟩
    -- the last step creates the record, or it is one of those after that
    induction after using List.reverseRecOn with
    | nil =>
        obtain ⟨-, hlast⟩ := List.append_inj' hpast rfl
        rw [List.singleton_inj.mp hlast, hfirst]
        exact .inl (congrArg some hreplay)
    | append_singleton after last _ =>
        rw [← List.cons_append, ← List.append_assoc] at hpast
        obtain ⟨hpast, hlast⟩ := List.append_inj' hpast rfl
        have hsame : e = last := List.singleton_inj.mp hlast
        subst hsame
        rw [events_append, List.foldl_append, foldl_events_singleton] at hreplay
        refine .inr ⟨hafter e (by simp), _,
          ⟨before, x, after, first, List.append_cancel_right hpast, hfirst, ?_, rfl⟩, hreplay⟩
        intro y hy
        exact hafter y (List.mem_append_left _ hy)
  · intro h
    rcases h with hcreated | ⟨hnone, r', ⟨before, x, after, first, rfl, hfirst, hafter, rfl⟩, hr⟩
    · exact ⟨past, e, [], r, rfl, hcreated, fun _ hx => absurd hx List.not_mem_nil, rfl⟩
    · refine ⟨before, x, after ++ [e], first, by simp, hfirst, ?_, ?_⟩
      · intro y hy
        rcases List.mem_append.mp hy with hy | hy
        · exact hafter y hy
        · rw [List.mem_singleton.mp hy]
          exact hnone
      · rw [events_append, List.foldl_append, foldl_events_singleton]
        exact hr

/-- The record after a run is the replay of the run. -/
theorem read_final_iff {s : σ} (hinit : J.read s = none) (inputs : List ι) {r : ρ} :
    J.read (Run.final step s inputs) = some r ↔ J.Replays (Run.trace step s inputs) r := by
  induction inputs using List.reverseRecOn generalizing r with
  | nil =>
      rw [Run.final_nil, hinit, Run.trace_nil]
      simp [not_replays_nil]
  | append_singleton inputs i ih =>
      rw [Run.trace_append, Run.final_append, Run.final_cons, Run.final_nil, J.read_step,
        Run.trace_cons, Run.trace_nil, replays_append_singleton]
      cases hcreated : J.created (Run.final step s inputs, i) with
      | some first => simp
      | none => simp [← ih]

/-- A field of the record, with the value that an event gives it, is a register. -/
def register {β : Type} (field : ρ → β) (changed : κ → Option β)
    (happly : ∀ r k, field (J.apply r k) = (changed k).getD (field r)) : Register step β where
  read s := (J.read s).map field
  written e := ((J.created e).map field).or ((J.read e.1).bind fun _ => (J.event e).bind changed)
  read_step s i := by
    rw [J.read_step]
    cases J.created (s, i) with
    | some first => rfl
    | none =>
        cases J.read s with
        | none => rfl
        | some r =>
            cases J.event (s, i) with
            | none => rfl
            | some k =>
                simp only [Option.map_some, Option.map_none, Option.none_or, Option.bind_some,
                  Option.elim_some, happly]
                cases changed k <;> rfl

end Journal

end Foundation
