import Kraal.Backend.Outcome

/-!
# At most one submission in a lifetime

An event is submitted only if the key of its request has no recent event.  Events are stamped
by a clock that never goes back, so the events of one key lie a lifetime apart.

Main results:

- Theorem {lit}`step_events`: a step submits at most one event, and only under a key without a
  recent one.
- Theorem {lit}`submissions_apart`: the events of one key, in every run.
-/

namespace Kraal
namespace Backend

open Foundation

variable {cfg : AppConfig} {rt : Runtime}

/-- The state after a run on an empty database. -/
def finalWorld (cfg : AppConfig) (rt : Runtime) (run : List Input) : World :=
  Run.final (step cfg rt) World.initial run

/-! ## The events of a step -/

/-- A step submits at most one event, and only under a key without a recent one. -/
theorem step_events (cfg : AppConfig) (rt : Runtime) (w : World) (i : Input) :
    (step cfg rt w i).store.db.chainEvents = w.store.db.chainEvents ∨
    ∃ time endpoint key body ev, w.clock ≤ time ∧ ev.createdAt ≤ (step cfg rt w i).clock ∧
      Submission rt endpoint key body w.store.db time ev ∧
      (¬ ∃ ev, Recent cfg w.store.db key time ev) ∧
      (step cfg rt w i).store.db.chainEvents = w.store.db.chainEvents ++ [ev] := by
  rcases step_cases cfg rt w i with ⟨hdb, -⟩ | ⟨req, script, key, exit, -, -, -, houtcome, -⟩
  · exact .inl (by rw [hdb])
  · cases houtcome with
    | replayed _ _ _ _ hdb => exact .inl (by rw [hdb])
    | mismatched _ _ hdb => exact .inl (by rw [hdb])
    | rejected _ _ _ hevents _ _ _ => exact .inl hevents
    | failed _ _ hevents _ _ _ => exact .inl hevents
    | lost _ _ _ _ _ hevents _ _ _ => exact .inl hevents
    | reconciled _ _ _ _ hevents _ _ _ => exact .inl hevents
    | submitted _ _ hold hev hclock hevents _ _ _ =>
        exact .inr ⟨_, _, key, _, _, le_arrival w script, hclock, hev, hold, hevents⟩
    | executed _ hold hev hclock _ _ hevents _ _ _ =>
        exact .inr ⟨_, _, key, _, _, le_arrival w script, hclock, hev, hold, hevents⟩

/-! ## The events of a run -/

/-- Events in the order of their times, none later than the clock. -/
structure Stamped (w : World) : Prop where
  sorted : w.store.db.chainEvents.Pairwise fun e e' => e.createdAt ≤ e'.createdAt
  past : ∀ e ∈ w.store.db.chainEvents, e.createdAt ≤ w.clock

theorem Stamped.step {w : World} (h : Stamped w) (i : Input) : Stamped (step cfg rt w i) := by
  have hclock := clock_le_step cfg rt w i
  rcases step_events cfg rt w i with hsame |
    ⟨time, endpoint, key, body, ev, htime, hev, hsubmission, -, hevents⟩
  · constructor
    · rw [hsame]
      exact h.sorted
    · intro e he
      rw [hsame] at he
      exact (h.past e he).trans hclock
  · have hcreated : time ≤ ev.createdAt := hsubmission.created.trans hsubmission.submitted
    have hpast : ∀ e ∈ w.store.db.chainEvents, e.createdAt ≤ ev.createdAt := by
      intro e he
      have hbefore := h.past e he
      omega
    constructor
    · rw [hevents]
      simpa [List.pairwise_append] using ⟨h.sorted, hpast⟩
    · intro e he
      rw [hevents] at he
      rcases List.mem_append.mp he with he | he
      · exact (h.past e he).trans hclock
      · rw [List.mem_singleton.mp he]
        exact hev

theorem stamped_initial : Stamped World.initial := by
  constructor
  · exact List.Pairwise.nil
  · intro e he
    cases he

/-- An event of a key without a recent event lies a lifetime back. -/
theorem old_of_not_recent {w : World} (hw : Stamped w) {key : String} {time : Int}
    (hold : ¬ ∃ ev, Recent cfg w.store.db key time ev) {e : ChainEvent}
    (he : e ∈ w.store.db.chainEvents) (hkey : e.dedupId = key) :
    e.createdAt + cfg.idempotencyTtlSeconds ≤ time := by
  subst hkey
  rcases latestEvent_last hw.sorted he with ⟨ev, hlatest, hbefore⟩
  have hnotRecent : ¬ time - ev.createdAt < cfg.idempotencyTtlSeconds :=
    fun h => hold ⟨ev, hlatest, h⟩
  rcases hbefore with rfl | hbefore
  · omega
  · omega

/-- Any two events of one key are created a lifetime apart. -/
theorem submissions_apart (cfg : AppConfig) (rt : Runtime) (run : List Input) :
    (finalWorld cfg rt run).store.db.chainEvents.Pairwise fun e e' =>
      e.dedupId = e'.dedupId → e.createdAt + cfg.idempotencyTtlSeconds ≤ e'.createdAt := by
  have hinvariant : Stamped (finalWorld cfg rt run) ∧
      (finalWorld cfg rt run).store.db.chainEvents.Pairwise fun e e' =>
        e.dedupId = e'.dedupId → e.createdAt + cfg.idempotencyTtlSeconds ≤ e'.createdAt := by
    refine Run.final_invariant (I := fun w => Stamped w ∧ w.store.db.chainEvents.Pairwise _) ?_ ?_
    · exact ⟨stamped_initial, List.Pairwise.nil⟩
    · intro e _ h
      rcases h with ⟨hstamped, hapart⟩
      refine ⟨hstamped.step e.2, ?_⟩
      rcases step_events cfg rt e.1 e.2 with hsame |
        ⟨time, endpoint, key, body, ev, htime, -, hsubmission, hold, hevents⟩
      · rw [hsame]
        exact hapart
      · rw [hevents]
        simp only [List.pairwise_append, List.pairwise_singleton, List.mem_singleton, forall_eq,
          true_and]
        refine ⟨hapart, fun e' he' hkey => ?_⟩
        rw [hsubmission.dedupId] at hkey
        have hapart' := old_of_not_recent hstamped hold he' hkey
        have hcreated := hsubmission.created.trans hsubmission.submitted
        omega
  exact hinvariant.2

end Backend
end Kraal
