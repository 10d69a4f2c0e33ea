import Kraal.CarbonTimelock.Contract

/-!
# The lifecycle of an operation

An operation is proposed once, waits, and is then executed or cancelled, once.  Nothing but
its status changes after the proposal, so what is executed is what was proposed.

Main results:

- Theorem {lit}`step_continues`: what one invocation does to a stored operation.
- Theorem {lit}`stored_was_proposed`: every stored operation goes back to a proposal.
- Theorem {lit}`isReady_iff`: the view agrees with the guarded action.
- Theorem {lit}`lifecycle`: the safety case of the timelock, for every run.
-/

namespace Kraal
namespace CarbonTimelock

open Foundation

/-! ## Steps -/

/-- The steps of a run from a freshly deployed contract. -/
def history (run : List (Invocation Op)) : List (Store × Invocation Op) :=
  Run.trace (step exec) Store.empty run

/-- A step returns. -/
def Returns (e : Store × Invocation Op) : Prop :=
  (exec e.2.call).Succeeds e.2.env e.1

/-- A step proposes an operation with a delay. -/
def Proposes (e : Store × Invocation Op) (opId : BytesN) (delayLedgers : U32)
    (op : TimelockOperation) : Prop :=
  ∃ proposer opType paramsHash, Returns e ∧
    e.2.call = .proposeOperation proposer opId opType paramsHash delayLedgers ∧
    op = newOperation proposer opType paramsHash delayLedgers e.2.env.sequence

/-- A step executes an operation. -/
def Executes (e : Store × Invocation Op) (opId : BytesN) : Prop :=
  ∃ executor actualParamsHash, Returns e ∧
    e.2.call = .executeOperation executor opId actualParamsHash

/-- The status of an operation, if it is stored. -/
def Store.status (s : Store) (opId : BytesN) : Option OperationStatus :=
  (s.operations.get opId).map TimelockOperation.status

/-- A later record of an operation: it has the same terms, and its status has changed only if
it was pending. -/
structure Continues (op op' : TimelockOperation) : Prop where
  terms : op' = { op with status := op'.status }
  settled : op.status ≠ .pending → op'.status = op.status

theorem Continues.refl (op : TimelockOperation) : Continues op op :=
  ⟨rfl, fun _ => rfl⟩

theorem Continues.trans {op op' op'' : TimelockOperation} (h : Continues op op')
    (h' : Continues op' op'') : Continues op op'' := by
  constructor
  · rw [h'.terms, h.terms]
  · intro hsettled
    have hsame := h.settled hsettled
    rw [← hsame] at hsettled
    rw [h'.settled hsettled, hsame]

theorem Continues.ofStatus {op : TimelockOperation} (hpending : op.status = .pending)
    (status : OperationStatus) : Continues op { op with status := status } :=
  ⟨rfl, fun hsettled => absurd hpending hsettled⟩

/-- An invocation leaves the operations alone, adds one, or settles a pending one. -/
theorem step_operations (s : Store) (i : Invocation Op) :
    (step exec s i).operations = s.operations ∨
    (∃ opId delayLedgers op, Proposes (s, i) opId delayLedgers op ∧
      s.operations.get opId = none ∧ (step exec s i).operations = s.operations.set opId op) ∨
    (∃ opId op status, s.operations.get opId = some op ∧ op.status = .pending ∧
      (step exec s i).operations = s.operations.set opId { op with status := status }) := by
  rcases step_cases s i with ⟨hs, -⟩ | ⟨admin, guardian, -, -, hs⟩ |
    ⟨opId, opType, paramsHash, delayLedgers, cfg, hcall, hreturns, -, -, -, hnone, hs⟩ |
    ⟨opId, cfg, op, -, -, -, hop, -, hpending, -, hs⟩ |
    ⟨canceller, opId, cfg, op, -, -, -, -, hop, hpending, hs⟩
  · exact .inl (by rw [hs])
  · exact .inl (by rw [hs, Store.withConfig_operations])
  · have hproposes : Proposes (s, i) opId delayLedgers
        (newOperation cfg.admin opType paramsHash delayLedgers i.env.sequence) :=
      ⟨cfg.admin, opType, paramsHash, hreturns, hcall, rfl⟩
    exact .inr (.inl ⟨opId, delayLedgers, _, hproposes, hnone, by rw [hs]; rfl⟩)
  · exact .inr (.inr ⟨opId, op, .executed, hop, hpending, by rw [hs]; rfl⟩)
  · exact .inr (.inr ⟨opId, op, .cancelled, hop, hpending, by rw [hs]; rfl⟩)

/-- An invocation continues every stored operation. -/
theorem step_continues (s : Store) (i : Invocation Op) {opId : BytesN} {op : TimelockOperation}
    (hop : s.operations.get opId = some op) :
    ∃ op', (step exec s i).operations.get opId = some op' ∧ Continues op op' := by
  rcases step_operations s i with hs | ⟨opId', delayLedgers, op', -, hnone, hs⟩ |
    ⟨opId', op', status, hop', hpending, hs⟩
  · rw [hs]
    exact ⟨op, hop, .refl op⟩
  · have hid : opId ≠ opId' := by
      intro hid
      rw [hid, hnone] at hop
      cases hop
    rw [hs, Storage.get_set_of_ne _ _ hid]
    exact ⟨op, hop, .refl op⟩
  · rw [hs]
    by_cases hid : opId = opId'
    · subst hid
      rw [hop, Option.some.injEq] at hop'
      subst hop'
      exact ⟨_, Storage.get_set_self _ _ _, .ofStatus hpending status⟩
    · exact ⟨op, (Storage.get_set_of_ne _ _ hid).trans hop, .refl op⟩

/-- A run continues every stored operation. -/
theorem final_continues {s : Store} {opId : BytesN} {op : TimelockOperation}
    (hop : s.operations.get opId = some op) (run : List (Invocation Op)) :
    ∃ op', (Run.final (step exec) s run).operations.get opId = some op' ∧ Continues op op' := by
  refine Run.final_invariant (I := fun (t : Store) => ∃ op', t.operations.get opId = some op' ∧
    Continues op op') ⟨op, hop, .refl op⟩ ?_
  intro e _ h
  rcases h with ⟨op', hop', hcontinues⟩
  rcases step_continues e.1 e.2 hop' with ⟨op'', hop'', hcontinues'⟩
  exact ⟨op'', hop'', hcontinues.trans hcontinues'⟩

/-! ## Proposals -/

/-- A proposal finds its id unused and stores its operation under it. -/
theorem Proposes.effect {s : Store} {i : Invocation Op} {opId : BytesN} {delayLedgers : U32}
    {op : TimelockOperation} (h : Proposes (s, i) opId delayLedgers op) :
    s.operations.get opId = none ∧ minimumDelay op.opType ≤ delayLedgers ∧
      (step exec s i).operations.get opId = some op := by
  rcases h with ⟨proposer, opType, paramsHash, ⟨⟨⟨⟩, s'⟩, hexec⟩, hcall, rfl⟩
  rw [step_of_ok hexec]
  change i.call = _ at hcall
  rw [hcall] at hexec
  rcases proposeOperation_eq_ok.mp hexec with ⟨cfg, -, -, -, hdelay, hnone, rfl⟩
  refine ⟨hnone, hdelay, ?_⟩
  rw [Store.withOperation_get, if_pos rfl]

/-- An operation that is stored after a step was stored before it, or the step proposes it. -/
theorem stored_step {s : Store} {i : Invocation Op} {opId : BytesN} {op' : TimelockOperation}
    (hop' : (step exec s i).operations.get opId = some op') :
    (∃ op, s.operations.get opId = some op ∧ Continues op op') ∨
      ∃ delayLedgers, Proposes (s, i) opId delayLedgers op' := by
  cases hop : s.operations.get opId with
  | some op =>
      rcases step_continues s i hop with ⟨op'', hop'', hcontinues⟩
      rw [hop', Option.some.injEq] at hop''
      subst hop''
      exact .inl ⟨op, rfl, hcontinues⟩
  | none =>
      right
      rcases step_operations s i with hs | ⟨opId', delayLedgers, op, hproposes, -, hs⟩ |
        ⟨opId', op, status, hold, -, hs⟩
      · rw [hs, hop] at hop'
        cases hop'
      · rw [hs, Storage.get_set_eq_some, hop] at hop'
        rcases hop' with ⟨rfl, rfl⟩ | ⟨-, hnone⟩
        · exact ⟨delayLedgers, hproposes⟩
        · cases hnone
      · rw [hs, Storage.get_set_eq_some, hop] at hop'
        rcases hop' with ⟨rfl, -⟩ | ⟨-, hnone⟩
        · rw [hop] at hold
          cases hold
        · cases hnone

/-- Every stored operation goes back to a proposal. -/
theorem stored_was_proposed (run : List (Invocation Op)) :
    ∀ opId op', (Run.final (step exec) Store.empty run).operations.get opId = some op' →
      ∃ e ∈ history run, ∃ delayLedgers op, Proposes e opId delayLedgers op ∧
        Continues op op' := by
  refine Run.history_invariant (P := fun past (t : Store) => ∀ opId op',
    t.operations.get opId = some op' → ∃ e ∈ past, ∃ delayLedgers op,
      Proposes e opId delayLedgers op ∧ Continues op op') ?_ ?_ run
  · intro opId op' hop'
    simp [Store.empty] at hop'
  · intro past t i ih opId op' hop'
    rcases stored_step hop' with ⟨op, hop, hcontinues⟩ | ⟨delayLedgers, hproposes⟩
    · rcases ih opId op hop with ⟨e, he, delayLedgers, first, hproposes, hcontinues'⟩
      exact ⟨e, List.mem_append_left _ he, delayLedgers, first, hproposes,
        hcontinues'.trans hcontinues⟩
    · exact ⟨(t, i), by simp, delayLedgers, op', hproposes, .refl op'⟩

/-- No id is proposed twice. -/
theorem proposed_once (run : List (Invocation Op)) :
    (history run).Pairwise fun e e' => ∀ opId delayLedgers delayLedgers' op op',
      Proposes e opId delayLedgers op → ¬ Proposes e' opId delayLedgers' op' := by
  refine Run.pairwise_trace (P := fun e t => ∀ opId delayLedgers op,
    Proposes e opId delayLedgers op → (t.operations.get opId).isSome = true) ?_ ?_ ?_
  · intro e _ opId delayLedgers op hproposes
    simp [hproposes.effect.2.2]
  · intro e e' _ hstored opId delayLedgers op hproposes
    rcases Option.isSome_iff_exists.mp (hstored opId delayLedgers op hproposes) with ⟨op', hop'⟩
    rcases step_continues e'.1 e'.2 hop' with ⟨op'', hop'', -⟩
    simp [hop'']
  · intro e e' _ hstored opId delayLedgers delayLedgers' op op' hproposes hproposes'
    have hsome := hstored opId delayLedgers op hproposes
    rw [hproposes'.effect.1] at hsome
    cases hsome

/-! ## Settlement -/

/-- A step executes an operation as it was proposed, on the authority of its proposer. -/
def ExecutesAsProposed (e : Store × Invocation Op) (opId : BytesN) : Prop :=
  ∃ cfg op, e.1.config = some cfg ∧ e.1.operations.get opId = some op ∧ op.status = .pending ∧
    e.2.call = .executeOperation op.proposer opId op.paramsHash ∧
    e.2.env.authorized op.proposer = true ∧ op.proposer = cfg.admin ∧
    op.executeAfter ≤ e.2.env.sequence

/-- A step cancels an operation on the authority of the administrator or the guardian. -/
def CancelsWithAuthority (e : Store × Invocation Op) (opId : BytesN) : Prop :=
  ∃ cfg canceller, e.1.config = some cfg ∧ e.1.status opId = some .pending ∧
    e.2.call = .cancelOperation canceller opId ∧ e.2.env.authorized canceller = true ∧
    (canceller = cfg.admin ∨ canceller = cfg.guardian)

/-- A status that is read after a write is the one written, or an old one. -/
theorem status_withOperation {s : Store} {opId opId' : BytesN} {op : TimelockOperation}
    {status : OperationStatus} (h : (s.withOperation opId op).status opId' = some status) :
    opId' = opId ∧ status = op.status ∨ s.status opId' = some status := by
  rw [Store.status, Store.withOperation_get] at h
  by_cases hid : opId' = opId
  · rw [if_pos hid, Option.map_some, Option.some.injEq] at h
    exact .inl ⟨hid, h.symm⟩
  · rw [if_neg hid] at h
    exact .inr h

/-- A step changes a status by a proposal, an execution or a cancellation. -/
theorem step_status {s : Store} {i : Invocation Op} {opId : BytesN} {status : OperationStatus}
    (hnew : (step exec s i).status opId = some status) :
    s.status opId = some status ∨ status = .pending ∨
      status = .executed ∧ ExecutesAsProposed (s, i) opId ∨
      status = .cancelled ∧ CancelsWithAuthority (s, i) opId := by
  rcases step_cases s i with ⟨hs, -⟩ | ⟨admin, guardian, -, -, hs⟩ |
    ⟨opId', opType, paramsHash, delayLedgers, cfg, -, -, -, -, -, -, hs⟩ |
    ⟨opId', cfg, op, hcall, hcfg, hauth, hop, hadmin, hpending, hdelay, hs⟩ |
    ⟨canceller, opId', cfg, op, hcall, hcfg, hauth, hallowed, hop, hpending, hs⟩
  · rw [hs] at hnew
    exact .inl hnew
  · rw [hs] at hnew
    exact .inl hnew
  · rw [hs] at hnew
    rcases status_withOperation hnew with ⟨-, rfl⟩ | hold
    · exact .inr (.inl rfl)
    · exact .inl hold
  · rw [hs] at hnew
    rcases status_withOperation hnew with ⟨rfl, rfl⟩ | hold
    · exact .inr (.inr (.inl ⟨rfl, cfg, op, hcfg, hop, hpending, hcall, hauth, hadmin, hdelay⟩))
    · exact .inl hold
  · rw [hs] at hnew
    rcases status_withOperation hnew with ⟨rfl, rfl⟩ | hold
    · have hold : s.status opId = some .pending := by rw [Store.status, hop, ← hpending]; rfl
      exact .inr (.inr (.inr ⟨rfl, cfg, canceller, hcfg, hold, hcall, hauth, hallowed⟩))
    · exact .inl hold

/-! ## The view -/

/-- The proposer of every stored operation is the administrator. -/
def AdminProposed (s : Store) : Prop :=
  ∀ opId op, s.operations.get opId = some op → ∃ cfg, s.config = some cfg ∧
    op.proposer = cfg.admin

theorem AdminProposed.step {s : Store} (h : AdminProposed s) (i : Invocation Op) :
    AdminProposed (Kraal.step exec s i) := by
  rcases step_cases s i with ⟨hs, -⟩ | ⟨admin, guardian, -, hnone, hs⟩ |
    ⟨opId, opType, paramsHash, delayLedgers, cfg, -, -, hcfg, -, -, -, hs⟩ |
    ⟨opId, cfg, op, -, hcfg, -, -, hadmin, -, -, hs⟩ |
    ⟨canceller, opId, cfg, op, -, hcfg, -, -, hop, -, hs⟩
  · rw [hs]
    exact h
  · intro opId op hop
    rw [hs] at hop
    rcases h opId op hop with ⟨cfg, hcfg, -⟩
    rw [hnone] at hcfg
    cases hcfg
  · rw [hs]
    exact Storage.forall_get_set h ⟨cfg, hcfg, rfl⟩
  · rw [hs]
    exact Storage.forall_get_set h ⟨cfg, hcfg, hadmin⟩
  · rw [hs]
    exact Storage.forall_get_set h (h opId op hop)

theorem adminProposed_of_reachable {s : Store}
    (hs : Run.Reachable (step exec) Store.empty s) : AdminProposed s := by
  refine hs.invariant ?_ fun _ i h => h.step i
  intro opId op hop
  simp [Store.empty] at hop

/-- The view is true exactly if the operation can be executed by its proposer, with the
stored parameters, in the same ledger. -/
theorem isReady_iff {s : Store} (h : AdminProposed s) (opId : BytesN) (env : Env) :
    isReady opId env s = .ok (true, s) ↔
      ∃ op, s.operations.get opId = some op ∧
        (executeOperation op.proposer opId op.paramsHash).Succeeds
          (.signedBy env.sequence [op.proposer]) s := by
  rw [isReady_eq_ok]
  refine exists_congr fun op => and_congr_right fun hop => ?_
  rcases h opId op hop with ⟨cfg, hcfg, hadmin⟩
  constructor
  · intro hready
    rw [Prod.mk.injEq, eq_comm, decide_eq_true_eq] at hready
    rcases hready with ⟨⟨hpending, hdelay⟩, -⟩
    exact ⟨((), _), executeOperation_eq_ok.mpr ⟨cfg, op, hcfg, Env.authorized_signedBy _ _, hop,
      rfl, hadmin, hpending, hdelay, rfl, rfl⟩⟩
  · intro hsucceeds
    rcases hsucceeds with ⟨⟨⟨⟩, s'⟩, hexec⟩
    rcases executeOperation_eq_ok.mp hexec with ⟨-, op', -, -, hop', -, -, hpending, hdelay, -, -⟩
    rw [hop, Option.some.injEq] at hop'
    subst hop'
    rw [Prod.mk.injEq, eq_comm, decide_eq_true_eq]
    exact ⟨⟨hpending, hdelay⟩, rfl⟩

/-! ## The safety case -/

/-- The lifecycle of the operations in a run. -/
structure Lifecycle (run : List (Invocation Op)) : Prop where
  /-- An operation keeps its terms until the end of the run, and its status once it has left
  pending. -/
  terms : ∀ s, Run.Visits (step exec) Store.empty run s → ∀ opId op,
    s.operations.get opId = some op →
      ∃ op', (Run.final (step exec) Store.empty run).operations.get opId = some op' ∧
        Continues op op'
  /-- A proposal starts with the terms it was made with, at an unused id. -/
  start : ∀ e ∈ history run, ∀ opId delayLedgers op, Proposes e opId delayLedgers op →
    e.1.operations.get opId = none ∧ (step exec e.1 e.2).operations.get opId = some op
  /-- No id is proposed twice. -/
  once : (history run).Pairwise fun e e' => ∀ opId delayLedgers delayLedgers' op op',
    Proposes e opId delayLedgers op → ¬ Proposes e' opId delayLedgers' op'
  /-- A status becomes executed as the proposer has proposed it. -/
  executed : ∀ e ∈ history run, ∀ opId, e.1.status opId ≠ some .executed →
    (step exec e.1 e.2).status opId = some .executed → ExecutesAsProposed e opId
  /-- A status becomes cancelled by the administrator or the guardian. -/
  cancelled : ∀ e ∈ history run, ∀ opId, e.1.status opId ≠ some .cancelled →
    (step exec e.1 e.2).status opId = some .cancelled → CancelsWithAuthority e opId
  /-- The view agrees with the guarded action. -/
  ready : ∀ s, Run.Visits (step exec) Store.empty run s → ∀ opId env,
    (isReady opId env s = .ok (true, s) ↔
      ∃ op, s.operations.get opId = some op ∧
        (executeOperation op.proposer opId op.paramsHash).Succeeds
          (.signedBy env.sequence [op.proposer]) s)

/-- Every run of the timelock keeps the lifecycle, whatever the ledgers of its calls. -/
theorem lifecycle (run : List (Invocation Op)) : Lifecycle run where
  terms := by
    intro s hs opId op hop
    rcases hs with ⟨pre, post, rfl, rfl⟩
    rw [Run.final_append]
    exact final_continues hop post
  start := by
    intro e _ opId delayLedgers op hproposes
    exact ⟨hproposes.effect.1, hproposes.effect.2.2⟩
  once := proposed_once run
  executed := by
    intro e _ opId hold hnew
    rcases step_status hnew with hsame | hpending | ⟨-, hexecutes⟩ | ⟨hcancelled, -⟩
    · exact absurd hsame hold
    · cases hpending
    · exact hexecutes
    · cases hcancelled
  cancelled := by
    intro e _ opId hold hnew
    rcases step_status hnew with hsame | hpending | ⟨hexecuted, -⟩ | ⟨-, hcancels⟩
    · exact absurd hsame hold
    · cases hpending
    · cases hexecuted
    · exact hcancels
  ready := by
    intro s hs opId env
    rcases hs with ⟨pre, post, -, hpre⟩
    exact isReady_iff (adminProposed_of_reachable ⟨pre, hpre⟩) opId env

end CarbonTimelock
end Kraal
