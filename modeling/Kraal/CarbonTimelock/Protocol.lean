import Kraal.CarbonTimelock.Lifecycle

/-!
# The timelock, as the past decides it

An operation is open while its proposal has been neither executed nor cancelled.  Which calls
succeed after a run is a matter of the open proposals, of the accounts that the contract was
initialised with, and of the ids that were ever proposed.

Main results:

- Theorem {lit}`open_iff`: an operation waits exactly if its proposal is open.
- Theorem {lit}`config_iff`: the accounts are those that the contract was initialised with.
- Theorem {lit}`decided_by_history`: when each of the calls succeeds after a run.
-/

namespace Kraal
namespace CarbonTimelock

open Foundation

/-! ## Open proposals -/

/-- A step cancels an operation. -/
def Cancels (e : Store × Invocation Op) (opId : BytesN) : Prop :=
  ∃ canceller, Returns e ∧ e.2.call = .cancelOperation canceller opId

/-- A step executes or cancels an operation. -/
def Settles (e : Store × Invocation Op) (opId : BytesN) : Prop :=
  Executes e opId ∨ Cancels e opId

/-- An operation was proposed, and has been neither executed nor cancelled since. -/
def Open (opId : BytesN) (op : TimelockOperation) (past : List (Store × Invocation Op)) : Prop :=
  Run.Since (fun e => ∃ delayLedgers, Proposes e opId delayLedgers op)
    (fun e => Settles e opId) past

variable {s : Store} {i : Invocation Op} {opId : BytesN} {op : TimelockOperation} {env : Env}

theorem Settles.returns {e : Store × Invocation Op} (h : Settles e opId) : Returns e := by
  rcases h with ⟨executor, actualParamsHash, hreturns, -⟩ | ⟨canceller, hreturns, -⟩
  · exact hreturns
  · exact hreturns

/-- An operation is executed or cancelled only while it is pending, and is not after that. -/
theorem Settles.effect (h : Settles (s, i) opId) :
    (∃ op, s.operations.get opId = some op ∧ op.status = .pending) ∧
      ∃ op', (step exec s i).operations.get opId = some op' ∧ op'.status ≠ .pending := by
  rcases h with ⟨executor, actualParamsHash, ⟨⟨⟨⟩, s'⟩, hexec⟩, hcall⟩ |
    ⟨canceller, ⟨⟨⟨⟩, s'⟩, hexec⟩, hcall⟩
  · rw [step_of_ok hexec]
    change i.call = _ at hcall
    rw [hcall] at hexec
    rcases executeOperation_eq_ok.mp hexec with ⟨cfg, op, -, -, hop, -, -, hpending, -, -, rfl⟩
    refine ⟨⟨op, hop, hpending⟩, _, Storage.get_set_self _ _ _, ?_⟩
    simp
  · rw [step_of_ok hexec]
    change i.call = _ at hcall
    rw [hcall] at hexec
    rcases cancelOperation_eq_ok.mp hexec with ⟨cfg, op, -, -, -, hop, hpending, rfl⟩
    refine ⟨⟨op, hop, hpending⟩, _, Storage.get_set_self _ _ _, ?_⟩
    simp

theorem Proposes.pending {e : Store × Invocation Op} {delayLedgers : U32}
    (h : Proposes e opId delayLedgers op) : op.status = .pending := by
  rcases h with ⟨proposer, opType, paramsHash, -, -, rfl⟩
  rfl

theorem not_settles_of_proposes {e : Store × Invocation Op} {delayLedgers : U32} {opId' : BytesN}
    (h : Proposes e opId delayLedgers op) : ¬ Settles e opId' := by
  intro hsettles
  rcases h with ⟨proposer, opType, paramsHash, -, hcall, -⟩
  rcases hsettles with ⟨executor, actualParamsHash, -, hcall'⟩ | ⟨canceller, -, hcall'⟩
  · rw [hcall] at hcall'
    cases hcall'
  · rw [hcall] at hcall'
    cases hcall'

/-- What a step does to the record of an operation: it proposes it, it settles it, or it leaves
it alone. -/
theorem step_operation (s : Store) (i : Invocation Op) (opId : BytesN) :
    (∃ op delayLedgers, Proposes (s, i) opId delayLedgers op ∧
      (step exec s i).operations.get opId = some op) ∨
    Settles (s, i) opId ∨
    (∀ op delayLedgers, ¬ Proposes (s, i) opId delayLedgers op) ∧ ¬ Settles (s, i) opId ∧
      (step exec s i).operations.get opId = s.operations.get opId := by
  by_cases hproposes : ∃ op delayLedgers, Proposes (s, i) opId delayLedgers op
  · rcases hproposes with ⟨op, delayLedgers, hproposes⟩
    exact .inl ⟨op, delayLedgers, hproposes, hproposes.effect.2.2⟩
  · by_cases hsettles : Settles (s, i) opId
    · exact .inr (.inl hsettles)
    · refine .inr (.inr ⟨fun op delayLedgers h => hproposes ⟨op, delayLedgers, h⟩, hsettles, ?_⟩)
      rcases step_cases s i with ⟨hs, -⟩ | ⟨admin, guardian, -, -, hs⟩ |
        ⟨opId', opType, paramsHash, delayLedgers, cfg, hcall, hreturns, -, -, -, -, hs⟩ |
        ⟨opId', cfg, op, hcall, hcfg, hauth, hop, hadmin, hpending, hdelay, hs⟩ |
        ⟨canceller, opId', cfg, op, hcall, hcfg, hauth, hallowed, hop, hpending, hs⟩
      · rw [hs]
      · rw [hs, Store.withConfig_operations]
      · have hne : opId ≠ opId' := by
          rintro rfl
          exact hproposes ⟨_, delayLedgers, cfg.admin, opType, paramsHash, hreturns, hcall, rfl⟩
        rw [hs, Store.withOperation_get, if_neg hne]
      · have hexec : executeOperation op.proposer opId' op.paramsHash i.env s =
            .ok ((), step exec s i) :=
          executeOperation_eq_ok.mpr ⟨cfg, op, hcfg, hauth, hop, rfl, hadmin, hpending, hdelay, rfl,
            hs⟩
        have hne : opId ≠ opId' := by
          rintro rfl
          refine hsettles (.inl ⟨op.proposer, op.paramsHash, ⟨((), step exec s i), ?_⟩, hcall⟩)
          rw [hcall]
          exact hexec
        rw [hs, Store.withOperation_get, if_neg hne]
      · have hexec : cancelOperation canceller opId' i.env s = .ok ((), step exec s i) :=
          cancelOperation_eq_ok.mpr ⟨cfg, op, hcfg, hauth, hallowed, hop, hpending, hs⟩
        have hne : opId ≠ opId' := by
          rintro rfl
          refine hsettles (.inr ⟨canceller, ⟨((), step exec s i), ?_⟩, hcall⟩)
          rw [hcall]
          exact hexec
        rw [hs, Store.withOperation_get, if_neg hne]

/-- An operation waits exactly if its proposal is open. -/
theorem open_iff (run : List (Invocation Op)) (opId : BytesN) (op : TimelockOperation) :
    (Run.final (step exec) Store.empty run).operations.get opId = some op ∧
        op.status = .pending ↔
      Open opId op (history run) := by
  refine Run.history_invariant (P := fun past (s : Store) => s.operations.get opId = some op ∧
    op.status = .pending ↔ Open opId op past) ?_ ?_ run
  · refine iff_of_false ?_ Run.not_since_nil
    simp [Store.empty]
  · intro past s i ih
    rw [Open, Run.since_append_singleton]
    rcases step_operation s i opId with ⟨op', delayLedgers, hproposes, hnew⟩ | hsettles |
      ⟨hnone, hkept, hsame⟩
    · rw [hnew, Option.some.injEq]
      constructor
      · intro h
        rcases h with ⟨rfl, -⟩
        exact .inl ⟨delayLedgers, hproposes⟩
      · intro h
        rcases h with ⟨delayLedgers', hproposes'⟩ | ⟨hopen, -⟩
        · have hnew' := hproposes'.effect.2.2
          rw [hnew, Option.some.injEq] at hnew'
          exact ⟨hnew', hproposes'.pending⟩
        · -- a proposal finds its id unused
          have hunused := (ih.mpr hopen).1
          rw [hproposes.effect.1] at hunused
          cases hunused
    · refine iff_of_false ?_ ?_
      · intro h
        rcases hsettles.effect.2 with ⟨op', hstored, hsettled⟩
        rw [h.1, Option.some.injEq] at hstored
        rw [← hstored] at hsettled
        exact hsettled h.2
      · intro h
        rcases h with ⟨delayLedgers, hproposes⟩ | ⟨-, hkept⟩
        · exact not_settles_of_proposes hproposes hsettles
        · exact hkept hsettles
    · rw [hsame, ih]
      constructor
      · intro h
        exact .inr ⟨h, hkept⟩
      · intro h
        rcases h with ⟨delayLedgers, hproposes⟩ | ⟨h, -⟩
        · exact absurd hproposes (hnone op delayLedgers)
        · exact h

/-- An id is in use exactly if it was ever proposed. -/
theorem stored_iff (run : List (Invocation Op)) (opId : BytesN) :
    (Run.final (step exec) Store.empty run).operations.get opId = none ↔
      ∀ e ∈ history run, ∀ delayLedgers op, ¬ Proposes e opId delayLedgers op := by
  constructor
  · intro hnone e he delayLedgers op hproposes
    rcases Run.mem_trace_iff.mp he with ⟨pre, post, rfl, hstate⟩
    -- what is proposed is stored until the end of the run
    have hstored := hproposes.effect.2.2
    rcases final_continues hstored post with ⟨op', hop', -⟩
    have hfinal : Run.final (step exec) Store.empty (pre ++ e.2 :: post) =
        Run.final (step exec) (step exec e.1 e.2) post := by
      rw [Run.final_append, ← hstate]
      rfl
    rw [hfinal, hop'] at hnone
    cases hnone
  · intro hnever
    by_contra hsome
    rcases Option.ne_none_iff_exists'.mp hsome with ⟨op', hop'⟩
    rcases stored_was_proposed run opId op' hop' with ⟨e, he, delayLedgers, op, hproposes, -⟩
    exact hnever e he delayLedgers op hproposes

/-! ## The accounts -/

/-- A step initialises the contract with these accounts. -/
def Initialises (e : Store × Invocation Op) (cfg : TimelockConfig) : Prop :=
  Returns e ∧ e.2.call = .initializeContract cfg.admin cfg.guardian

theorem Initialises.effect {cfg : TimelockConfig} (h : Initialises (s, i) cfg) :
    s.config = none ∧ (step exec s i).config = some cfg := by
  rcases h with ⟨⟨⟨⟨⟩, s'⟩, hexec⟩, hcall⟩
  rw [step_of_ok hexec]
  change i.call = _ at hcall
  rw [hcall] at hexec
  rcases initializeContract_eq_ok.mp hexec with ⟨hnone, -, rfl⟩
  exact ⟨hnone, rfl⟩

/-- A step initialises the contract, or keeps the accounts. -/
theorem step_accounts (s : Store) (i : Invocation Op) :
    (∃ cfg, Initialises (s, i) cfg) ∨ (step exec s i).config = s.config := by
  by_cases hreturns : Returns (s, i)
  · rcases step_cases s i with ⟨-, hfails⟩ | ⟨admin, guardian, hcall, -, hs⟩ |
      ⟨opId, opType, paramsHash, delayLedgers, cfg, -, -, -, -, -, -, hs⟩ |
      ⟨opId, cfg, op, -, -, -, -, -, -, -, hs⟩ | ⟨canceller, opId, cfg, op, -, -, -, -, -, -, hs⟩
    · exact absurd hreturns hfails
    · exact .inl ⟨⟨admin, guardian⟩, hreturns, hcall⟩
    · exact .inr (by rw [hs, Store.withOperation_config])
    · exact .inr (by rw [hs, Store.withOperation_config])
    · exact .inr (by rw [hs, Store.withOperation_config])
  · exact .inr (by rw [step_of_not_succeeds hreturns])

/-- The accounts are those that the contract was initialised with. -/
theorem config_iff (run : List (Invocation Op)) (cfg : TimelockConfig) :
    (Run.final (step exec) Store.empty run).config = some cfg ↔
      ∃ e ∈ history run, Initialises e cfg := by
  refine Run.history_invariant (P := fun past (s : Store) => s.config = some cfg ↔
    ∃ e ∈ past, Initialises e cfg) ?_ ?_ run
  · simp [Store.empty]
  · intro past s i ih
    constructor
    · intro h
      rcases step_accounts s i with ⟨cfg', hinit⟩ | hsame
      · have hnew := hinit.effect.2
        rw [h, Option.some.injEq] at hnew
        subst hnew
        exact ⟨(s, i), by simp, hinit⟩
      · rw [hsame] at h
        rcases ih.mp h with ⟨e, he, hinit⟩
        exact ⟨e, List.mem_append_left _ he, hinit⟩
    · intro h
      rcases h with ⟨e, he, hinit⟩
      rcases List.mem_append.mp he with he | he
      · have hold := ih.mpr ⟨e, he, hinit⟩
        rcases step_accounts s i with ⟨cfg', hinit'⟩ | hsame
        · -- a contract is initialised once
          have hnone := hinit'.effect.1
          rw [hold] at hnone
          cases hnone
        · rw [hsame]
          exact hold
      · rw [List.mem_singleton] at he
        subst he
        exact hinit.effect.2

/-! ## The calls, as the past decides them -/

/-- When the calls of the timelock succeed after a run. -/
structure DecidedByHistory (run : List (Invocation Op)) (env : Env) (opId : BytesN) : Prop where
  /-- The administrator proposes what was never proposed before, with a long enough delay. -/
  propose : ∀ proposer opType paramsHash delayLedgers,
    (proposeOperation proposer opId opType paramsHash delayLedgers).Succeeds env
        (Run.final (step exec) Store.empty run) ↔
      (∃ guardian, ∃ e ∈ history run, Initialises e ⟨proposer, guardian⟩) ∧
        env.authorized proposer = true ∧ minimumDelay opType ≤ delayLedgers ∧
        ∀ e ∈ history run, ∀ delayLedgers op, ¬ Proposes e opId delayLedgers op
  /-- The proposer executes an open operation after its deadline, with the parameters of the
  proposal. -/
  execute : ∀ executor actualParamsHash,
    (executeOperation executor opId actualParamsHash).Succeeds env
        (Run.final (step exec) Store.empty run) ↔
      ∃ op, Open opId op (history run) ∧ op.proposer = executor ∧
        op.paramsHash = actualParamsHash ∧ env.authorized executor = true ∧
        op.executeAfter ≤ env.sequence
  /-- The administrator or the guardian cancels an open operation at any time. -/
  cancel : ∀ canceller,
    (cancelOperation canceller opId).Succeeds env (Run.final (step exec) Store.empty run) ↔
      (∃ op, Open opId op (history run)) ∧ env.authorized canceller = true ∧
        ∃ cfg, (∃ e ∈ history run, Initialises e cfg) ∧
          (canceller = cfg.admin ∨ canceller = cfg.guardian)
  /-- An operation is ready exactly if it is open and its deadline has passed. -/
  ready : (∃ t, isReady opId env (Run.final (step exec) Store.empty run) = .ok (true, t)) ↔
    ∃ op, Open opId op (history run) ∧ op.executeAfter ≤ env.sequence

/-- After every run, the past decides which calls of the timelock succeed. -/
theorem decided_by_history (run : List (Invocation Op)) (env : Env) (opId : BytesN) :
    DecidedByHistory run env opId where
  propose proposer opType paramsHash delayLedgers := by
    rw [← stored_iff]
    simp only [← config_iff]
    constructor
    · intro h
      rcases h with ⟨⟨⟨⟩, s'⟩, hpropose⟩
      rcases proposeOperation_eq_ok.mp hpropose with ⟨cfg, hcfg, hauth, rfl, hdelay, hunused, -⟩
      exact ⟨⟨cfg.guardian, hcfg⟩, hauth, hdelay, hunused⟩
    · intro h
      rcases h with ⟨⟨guardian, hcfg⟩, hauth, hdelay, hunused⟩
      exact ⟨((), _), proposeOperation_eq_ok.mpr ⟨_, hcfg, hauth, rfl, hdelay, hunused, rfl⟩⟩
  execute executor actualParamsHash := by
    simp only [← open_iff]
    constructor
    · intro h
      rcases h with ⟨⟨⟨⟩, s'⟩, hexecute⟩
      rcases executeOperation_eq_ok.mp hexecute with
        ⟨cfg, op, -, hauth, hop, hproposer, -, hpending, hdelay, hhash, -⟩
      exact ⟨op, ⟨hop, hpending⟩, hproposer.symm, hhash.symm, hauth, hdelay⟩
    · intro h
      rcases h with ⟨op, ⟨hop, hpending⟩, rfl, rfl, hauth, hdelay⟩
      rcases adminProposed_of_reachable ⟨run, rfl⟩ opId op hop with ⟨cfg, hcfg, hadmin⟩
      exact ⟨((), _), executeOperation_eq_ok.mpr ⟨cfg, op, hcfg, hauth, hop, rfl, hadmin, hpending,
        hdelay, rfl, rfl⟩⟩
  cancel canceller := by
    simp only [← open_iff, ← config_iff]
    constructor
    · intro h
      rcases h with ⟨⟨⟨⟩, s'⟩, hcancel⟩
      rcases cancelOperation_eq_ok.mp hcancel with ⟨cfg, op, hcfg, hauth, hallowed, hop, hpending,
        -⟩
      exact ⟨⟨op, hop, hpending⟩, hauth, cfg, hcfg, hallowed⟩
    · intro h
      rcases h with ⟨⟨op, hop, hpending⟩, hauth, cfg, hcfg, hallowed⟩
      exact ⟨((), _), cancelOperation_eq_ok.mpr ⟨cfg, op, hcfg, hauth, hallowed, hop, hpending,
        rfl⟩⟩
  ready := by
    simp only [← open_iff, isReady_eq_ok]
    constructor
    · intro h
      rcases h with ⟨t, op, hop, hready⟩
      rw [Prod.mk.injEq, eq_comm, decide_eq_true_eq] at hready
      exact ⟨op, ⟨hop, hready.1.1⟩, hready.1.2⟩
    · intro h
      rcases h with ⟨op, ⟨hop, hpending⟩, hdelay⟩
      exact ⟨_, op, hop, by rw [decide_eq_true ⟨hpending, hdelay⟩]⟩

end CarbonTimelock
end Kraal
