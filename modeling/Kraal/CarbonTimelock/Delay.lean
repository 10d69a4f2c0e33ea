import Kraal.CarbonTimelock.Lifecycle

/-!
# The delay of an executed operation

An execution waits until the stored deadline.  The deadline is the sum of the ledger of the
proposal and the requested delay, cut off at the largest ledger, so an operation has waited
for its delay exactly if that sum is a ledger.

Main results:

- Theorem {lit}`executed_after_deadline`: every execution comes after the deadline that its
  proposal has computed.
- Theorem {lit}`delay_elapsed_iff`: when an executed operation has waited for its delay.
- Theorem {lit}`delay_cut_short`: a run in which it has not.
-/

namespace Kraal
namespace CarbonTimelock

open Foundation

/-! ## The delay that is enforced -/

/-- An operation that is proposed by one step has waited for its delay before another step, and
the delay is long enough for its type. -/
def DelayElapsed (proposal execution : Store × Invocation Op) (delayLedgers : U32)
    (op : TimelockOperation) : Prop :=
  delayLedgers.toInt ≤ execution.2.env.sequence.toInt - proposal.2.env.sequence.toInt ∧
    (minimumDelay op.opType).toInt ≤ delayLedgers.toInt

/-- Two proposals of one id in a run are the same step. -/
theorem Proposes.unique {run : List (Invocation Op)} {e e' : Store × Invocation Op}
    (he : e ∈ history run) (he' : e' ∈ history run) {opId : BytesN}
    {delayLedgers delayLedgers' : U32} {op op' : TimelockOperation}
    (h : Proposes e opId delayLedgers op) (h' : Proposes e' opId delayLedgers' op') :
    e = e' := by
  by_contra hne
  have : Std.Symm fun e e' : Store × Invocation Op => ∀ opId delayLedgers delayLedgers' op op',
      Proposes e opId delayLedgers op → ¬ Proposes e' opId delayLedgers' op' := by
    constructor
    intro e e' hnot opId delayLedgers delayLedgers' op op' h h'
    exact hnot opId delayLedgers' delayLedgers op' op h' h
  exact (proposed_once run).forall he he' hne opId _ _ _ _ h h'

/-- A step proposes one operation under an id, with one delay. -/
theorem Proposes.unique_terms {e : Store × Invocation Op} {opId : BytesN}
    {delayLedgers delayLedgers' : U32} {op op' : TimelockOperation}
    (h : Proposes e opId delayLedgers op) (h' : Proposes e opId delayLedgers' op') :
    delayLedgers' = delayLedgers ∧ op' = op := by
  rcases h with ⟨proposer, opType, paramsHash, -, hcall, rfl⟩
  rcases h' with ⟨proposer', opType', paramsHash', -, hcall', rfl⟩
  rw [hcall, Op.proposeOperation.injEq] at hcall'
  rcases hcall' with ⟨rfl, -, rfl, rfl, rfl⟩
  exact ⟨rfl, rfl⟩

/-- An executed operation has a pending record whose deadline has passed. -/
theorem Executes.deadline {e : Store × Invocation Op} {opId : BytesN} (h : Executes e opId) :
    ∃ op, e.1.operations.get opId = some op ∧ op.executeAfter ≤ e.2.env.sequence := by
  rcases h with ⟨executor, actualParamsHash, ⟨⟨⟨⟩, s'⟩, hexec⟩, hcall⟩
  rw [hcall] at hexec
  rcases executeOperation_eq_ok.mp hexec with ⟨-, op, -, -, hop, -, -, -, hdelay, -, -⟩
  exact ⟨op, hop, hdelay⟩

/-- Every execution comes after the deadline that its proposal has computed. -/
theorem executed_after_deadline {run : List (Invocation Op)} {e e' : Store × Invocation Op}
    (he : e ∈ history run) (he' : e' ∈ history run) {opId : BytesN} {delayLedgers : U32}
    {op : TimelockOperation} (hproposes : Proposes e opId delayLedgers op)
    (hexecutes : Executes e' opId) :
    min (e.2.env.sequence.toInt + delayLedgers.toInt) (2 ^ 32 - 1) ≤
      e'.2.env.sequence.toInt := by
  rcases hexecutes.deadline with ⟨stored, hstored, hdeadline⟩
  rcases Run.mem_trace_iff.mp he' with ⟨pre, post, hrun, hpre⟩
  rw [hpre] at hstored
  rcases stored_was_proposed pre opId stored hstored with
    ⟨e'', he'', delayLedgers', op', hproposes', hcontinues⟩
  have hmem : e'' ∈ history run := by
    rw [history, hrun, Run.trace_append]
    exact List.mem_append_left _ he''
  have hsame := hproposes'.unique hmem he hproposes
  subst hsame
  rcases hproposes.unique_terms hproposes' with ⟨rfl, rfl⟩
  rcases hproposes with ⟨proposer, opType, paramsHash, -, -, rfl⟩
  rw [hcontinues.terms] at hdeadline
  rw [← MInt.toInt_saturatingAdd_u32]
  exact hdeadline

/-- An executed operation has waited for its delay exactly if the ledger of its proposal and the
delay add up to a ledger. -/
theorem delay_elapsed_iff {run : List (Invocation Op)} {e e' : Store × Invocation Op}
    (he : e ∈ history run) (he' : e' ∈ history run) {opId : BytesN} {delayLedgers : U32}
    {op : TimelockOperation} (hproposes : Proposes e opId delayLedgers op)
    (hexecutes : Executes e' opId) :
    DelayElapsed e e' delayLedgers op ↔
      e.2.env.sequence.toInt + delayLedgers.toInt ≤ 2 ^ 32 - 1 := by
  have hdeadline := executed_after_deadline he he' hproposes hexecutes
  have hminimum : (minimumDelay op.opType).toInt ≤ delayLedgers.toInt := hproposes.effect.2.1
  have hlast : e'.2.env.sequence.toInt ≤ 2 ^ 32 - 1 := e'.2.env.sequence.le_hi
  constructor
  · intro h
    have helapsed := h.1
    omega
  · intro hsum
    refine ⟨?_, hminimum⟩
    omega

/-- Every executed operation of a run has waited for its delay. -/
def DelaysElapse (run : List (Invocation Op)) : Prop :=
  ∀ e ∈ history run, ∀ e' ∈ history run, ∀ opId delayLedgers op,
    Proposes e opId delayLedgers op → Executes e' opId → DelayElapsed e e' delayLedgers op

/-! ## A delay that is cut short -/

/-- The administrator of a fresh contract. -/
def configure : Invocation Op := ⟨.signedBy 1 [⟨0⟩], .initializeContract ⟨0⟩ ⟨1⟩⟩

/-- It proposes a generic operation with the shortest delay. -/
def proposal (proposed : U32) : Store × Invocation Op :=
  (Store.empty.withConfig ⟨⟨0⟩, ⟨1⟩⟩,
    ⟨.signedBy proposed [⟨0⟩], .proposeOperation ⟨0⟩ ⟨[7]⟩ .generic ⟨[8]⟩ 100⟩)

/-- The operation that is proposed. -/
def delayedOperation (proposed : U32) : TimelockOperation :=
  newOperation ⟨0⟩ .generic ⟨[8]⟩ 100 proposed

/-- It executes that operation. -/
def execution (proposed executed : U32) : Store × Invocation Op :=
  ((Store.empty.withConfig ⟨⟨0⟩, ⟨1⟩⟩).withOperation ⟨[7]⟩ (delayedOperation proposed),
    ⟨.signedBy executed [⟨0⟩], .executeOperation ⟨0⟩ ⟨[7]⟩ ⟨[8]⟩⟩)

theorem history_delayedRun (proposed executed : U32) :
    history [configure, (proposal proposed).2, (execution proposed executed).2] =
      [(Store.empty, configure), proposal proposed, execution proposed executed] :=
  rfl

theorem proposal_proposes (proposed : U32) :
    Proposes (proposal proposed) ⟨[7]⟩ 100 (delayedOperation proposed) := by
  have hexec : proposeOperation ⟨0⟩ ⟨[7]⟩ .generic ⟨[8]⟩ 100 (.signedBy proposed [⟨0⟩])
      (proposal proposed).1 = .ok ((), (execution proposed proposed).1) :=
    proposeOperation_eq_ok.mpr ⟨⟨⟨0⟩, ⟨1⟩⟩, rfl, Env.authorized_signedBy _ _, rfl, by decide,
      Storage.get_empty _, rfl⟩
  exact ⟨⟨0⟩, .generic, ⟨[8]⟩, ⟨_, hexec⟩, rfl, rfl⟩

theorem execution_executes {proposed executed : U32} (h : proposed.saturatingAdd 100 ≤ executed) :
    Executes (execution proposed executed) ⟨[7]⟩ := by
  have hexec : executeOperation ⟨0⟩ ⟨[7]⟩ ⟨[8]⟩ (.signedBy executed [⟨0⟩])
      (execution proposed executed).1 = .ok ((), (execution proposed executed).1.withOperation ⟨[7]⟩
        { delayedOperation proposed with status := .executed }) :=
    executeOperation_eq_ok.mpr ⟨⟨⟨0⟩, ⟨1⟩⟩, delayedOperation proposed, rfl,
      Env.authorized_signedBy _ _, Storage.get_set_self _ _ _, rfl, rfl, rfl, h, rfl, rfl⟩
  exact ⟨⟨0⟩, ⟨[8]⟩, ⟨_, hexec⟩, rfl⟩

/-- An operation that is proposed ten ledgers before the last is executed in the last. -/
theorem delay_cut_short :
    ¬ DelaysElapse [configure, (proposal 4294967285).2, (execution 4294967285 4294967295).2] := by
  intro h
  unfold DelaysElapse at h
  rw [history_delayedRun] at h
  have helapsed := h (proposal 4294967285) (by simp) (execution 4294967285 4294967295) (by simp)
    ⟨[7]⟩ 100 _ (proposal_proposes _) (execution_executes (by decide))
  exact absurd helapsed.1 (by decide)

theorem proposal_delay_elapsed_iff :
    DelayElapsed (proposal 10) (execution 10 110) 100 (delayedOperation 10) ↔
      (10 : U32).toInt + (100 : U32).toInt ≤ 2 ^ 32 - 1 := by
  have hhistory := history_delayedRun 10 110
  have hproposal : proposal 10 ∈ history [configure, (proposal 10).2, (execution 10 110).2] := by
    rw [hhistory]
    simp
  have hexecution :
      execution 10 110 ∈ history [configure, (proposal 10).2, (execution 10 110).2] := by
    rw [hhistory]
    simp
  exact delay_elapsed_iff hproposal hexecution (proposal_proposes 10)
    (execution_executes (by decide))

end CarbonTimelock
end Kraal
