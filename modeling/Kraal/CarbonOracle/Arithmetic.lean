import Kraal.CarbonOracle.CommitReveal

/-!
# The unchecked arithmetic of carbon_oracle

A challenge and a reveal add the challenge window to the ledger of the commitment, and an
aggregated submission subtracts the rejected sources from all of them.  The sum is bounded
by nothing but the arguments of the calls that set its parts.

Main results:

- Theorem {lit}`step_windowsFit_iff`: which steps keep all the sums in range.
- Theorem {lit}`arithmetic_safe_iff`: the runs in which nothing overflows.
- Theorem {lit}`window_overflows`: a window that no commitment can be opened under.
-/

namespace Kraal
namespace CarbonOracle

open Foundation

variable {crypto : Crypto}

/-! ## Sums and differences -/

/-- The end of the challenge window of every waiting commitment fits in 32 bits. -/
def WindowsFit (s : Store) : Prop :=
  ∀ cfg feedId commitment, s.config = some cfg → s.commitments.get feedId = some commitment →
    commitment.state = .challengeWindow →
    (commitment.recordedAt.checkedAdd cfg.challengeWindowDuration).isSome = true

/-- An aggregated submission gets as far as the subtraction. -/
def Subtracts (crypto : Crypto) (e : Store × Invocation Op) (a : Aggregation) : Prop :=
  ∃ oracle signature cfg cid, e.2.call = .submitAggregatedPrice oracle a signature ∧
    AggregationAccepted crypto oracle a signature e.2.env e.1 cfg ∧ CidAccepted a.ipfsCid cid

/-- No sum or difference of a run leaves the 32 bits. -/
structure ArithmeticSafe (crypto : Crypto) (run : List (Invocation Op)) : Prop where
  windows : ∀ s, Run.Visits (step (exec crypto)) Store.empty run s → WindowsFit s
  sources : ∀ e ∈ history crypto run, ∀ a, Subtracts crypto e a →
    (a.numSources.checkedSub a.numSourcesRejected).isSome = true

/-! ## Steps that keep the sums in range -/

/-- A step sets the challenge window. -/
def SetsWindow (crypto : Crypto) (e : Store × Invocation Op) (duration : U32) : Prop :=
  Returns crypto e ∧ ∃ admin, e.2.call = .setChallengeWindow admin duration

/-- The ledgers and windows of a step are small enough together. -/
structure WindowStepFits (crypto : Crypto) (e : Store × Invocation Op) : Prop where
  /-- A commitment is recorded at a ledger that leaves room for the window in force. -/
  commit : ∀ feedId hash cfg, Commits crypto e feedId hash → e.1.config = some cfg →
    e.2.env.sequence.toInt + cfg.challengeWindowDuration.toInt ≤ 2 ^ 32 - 1
  /-- A window leaves room for the ledgers of the commitments that wait. -/
  window : ∀ duration feedId commitment, SetsWindow crypto e duration →
    e.1.commitments.get feedId = some commitment → commitment.state = .challengeWindow →
    commitment.recordedAt.toInt + duration.toInt ≤ 2 ^ 32 - 1

/-- The contract has no commitments before it is initialised. -/
def Unused (s : Store) : Prop :=
  s.config = none → ∀ feedId, s.commitments.get feedId = none

/-- The window in force after a step is that before it, or the one that the step sets. -/
theorem step_window {s : Store} {i : Invocation Op} {cfg' : Config}
    (hcfg' : (step (exec crypto) s i).config = some cfg') :
    s.config = none ∨
    (∃ cfg, s.config = some cfg ∧
      cfg'.challengeWindowDuration = cfg.challengeWindowDuration) ∨
    SetsWindow crypto (s, i) cfg'.challengeWindowDuration := by
  by_cases hreturns : Returns crypto (s, i)
  · have hok := hreturns
    rcases hok with ⟨⟨⟨⟩, s'⟩, hexec⟩
    rw [step_of_ok hexec] at hcfg'
    rcases config_cases hexec with ⟨admin, oraclePubkey, duration, -, hnone, -⟩ |
      ⟨oracle, timestampUtc, cfg, -, hcfg, rfl⟩ | ⟨duration, cfg, hcall, -, -, rfl⟩ |
      ⟨oraclePubkey, cfg, -, hcfg, -, rfl⟩ | ⟨-, -, hsame⟩
    · exact .inl hnone
    · rw [Store.withConfig_config, Option.some.injEq] at hcfg'
      subst hcfg'
      exact .inr (.inl ⟨cfg, hcfg, rfl⟩)
    · rw [Store.withConfig_config, Option.some.injEq] at hcfg'
      subst hcfg'
      exact .inr (.inr ⟨hreturns, cfg.admin, hcall⟩)
    · rw [Store.withConfig_config, Option.some.injEq] at hcfg'
      subst hcfg'
      exact .inr (.inl ⟨cfg, hcfg, rfl⟩)
    · rw [hsame] at hcfg'
      exact .inr (.inl ⟨cfg', hcfg', rfl⟩)
  · rw [step_of_not_succeeds hreturns] at hcfg'
    exact .inr (.inl ⟨cfg', hcfg', rfl⟩)

/-- A commit leaves the configuration alone. -/
theorem Commits.config {s : Store} {i : Invocation Op} {feedId hash : BytesN}
    (h : Commits crypto (s, i) feedId hash) :
    s.config.isSome = true ∧ (step (exec crypto) s i).config = s.config := by
  rcases h with ⟨⟨⟨⟨⟩, s'⟩, hexec⟩, oracle, hcall⟩
  rw [step_of_ok hexec]
  rw [hcall] at hexec
  rcases commitPrice_eq_ok.mp hexec with ⟨hcfg, -, -, rfl⟩
  exact ⟨hcfg, rfl⟩

/-- A step that sets the window writes it and keeps the commitments. -/
theorem SetsWindow.effect {s : Store} {i : Invocation Op} {duration : U32}
    (h : SetsWindow crypto (s, i) duration) :
    ∃ cfg, (step (exec crypto) s i).config = some cfg ∧ cfg.challengeWindowDuration = duration ∧
      (step (exec crypto) s i).commitments = s.commitments := by
  rcases h with ⟨⟨⟨⟨⟩, s'⟩, hexec⟩, admin, hcall⟩
  rw [step_of_ok hexec]
  rw [hcall] at hexec
  rcases setChallengeWindow_eq_ok.mp hexec with ⟨cfg, -, -, -, rfl⟩
  exact ⟨_, rfl, rfl, rfl⟩

theorem Unused.step {s : Store} (h : Unused s) (i : Invocation Op) :
    Unused (Kraal.step (exec crypto) s i) := by
  intro hnone feedId
  by_cases hreturns : Returns crypto (s, i)
  · have hok := hreturns
    rcases hok with ⟨⟨⟨⟩, s'⟩, hexec⟩
    rw [step_of_ok hexec] at hnone
    -- every call that returns leaves a configuration behind
    rcases config_cases hexec with ⟨admin, oraclePubkey, duration, -, -, rfl⟩ |
      ⟨oracle, timestampUtc, cfg, -, -, rfl⟩ | ⟨duration, cfg, -, -, -, rfl⟩ |
      ⟨oraclePubkey, cfg, -, -, -, rfl⟩ | ⟨-, hsome, hsame⟩
    · simp at hnone
    · simp at hnone
    · simp at hnone
    · simp at hnone
    · rw [← hsame, hnone] at hsome
      cases hsome
  · rw [step_of_not_succeeds hreturns] at hnone ⊢
    exact h hnone feedId

/-- A step from a state whose sums are in range keeps them there exactly if its ledgers and
windows are small enough. -/
theorem step_windowsFit_iff {s : Store} {i : Invocation Op} (hunused : Unused s)
    (hfit : WindowsFit s) :
    WindowsFit (step (exec crypto) s i) ↔ WindowStepFits crypto (s, i) := by
  constructor
  · intro hafter
    constructor
    · intro feedId hash cfg hcommits hcfg
      have hconfig := hcommits.config.2
      rcases step_commitment crypto s i feedId with ⟨hkept, -⟩ | ⟨hash', -, hnew⟩ | ⟨hended, -⟩
      · exact absurd (.inl ⟨hash, hcommits⟩) hkept
      · have hsum := hafter cfg feedId _ (hconfig.trans hcfg) hnew rfl
        exact MInt.checkedAdd_u32_isSome_iff.mp hsum
      · exact absurd hcommits (not_commits hended feedId hash)
    · intro duration feedId commitment hsets hstored hwaits
      rcases hsets.effect with ⟨cfg, hcfg, hduration, hcommitments⟩
      have hsum := hafter cfg feedId commitment hcfg (by rw [hcommitments, hstored]) hwaits
      rw [hduration] at hsum
      exact MInt.checkedAdd_u32_isSome_iff.mp hsum
  · intro hstep cfg' feedId commitment hcfg' hstored hwaits
    rw [MInt.checkedAdd_u32_isSome_iff]
    rcases step_commitment crypto s i feedId with ⟨-, hsame⟩ | ⟨hash, hcommits, hnew⟩ |
      ⟨-, commitment', hended, hstate⟩
    · rw [hsame] at hstored
      rcases step_window hcfg' with hnone | ⟨cfg, hcfg, hwindow⟩ | hsets
      · rw [hunused hnone feedId] at hstored
        cases hstored
      · rw [hwindow]
        exact MInt.checkedAdd_u32_isSome_iff.mp (hfit cfg feedId commitment hcfg hstored hwaits)
      · exact hstep.window _ feedId commitment hsets hstored hwaits
    · rw [hcommits.config.2] at hcfg'
      rw [hnew, Option.some.injEq] at hstored
      subst hstored
      exact hstep.commit feedId hash cfg' hcommits hcfg'
    · rw [hended, Option.some.injEq] at hstored
      subst hstored
      exact absurd hwaits (ended_not_waiting hstate)

/-! ## Runs without an overflow -/

/-- The arguments of a step keep the arithmetic in range. -/
structure StepFits (crypto : Crypto) (e : Store × Invocation Op) : Prop where
  windows : WindowStepFits crypto e
  /-- An aggregate rejects no more sources than it has. -/
  sources : ∀ a, Subtracts crypto e a → a.numSourcesRejected ≤ a.numSources

theorem unused_empty : Unused Store.empty := by
  intro _ feedId
  exact Storage.get_empty feedId

theorem windowsFit_empty : WindowsFit Store.empty := by
  intro cfg feedId commitment hcfg
  cases hcfg

theorem unused_history {run : List (Invocation Op)} {e : Store × Invocation Op}
    (he : e ∈ history crypto run) : Unused e.1 :=
  Run.trace_invariant unused_empty (fun e _ hunused => hunused.step e.2) e he

/-- In a run nothing overflows exactly if the arguments of its steps keep it in range. -/
theorem arithmetic_safe_iff (crypto : Crypto) (run : List (Invocation Op)) :
    ArithmeticSafe crypto run ↔ ∀ e ∈ history crypto run, StepFits crypto e := by
  constructor
  · intro hsafe e he
    have hbefore := hsafe.windows e.1 (Run.visits_of_mem_trace he)
    have hafter := hsafe.windows _ (Run.visits_step he)
    refine ⟨(step_windowsFit_iff (unused_history he) hbefore).mp hafter, ?_⟩
    intro a hsubtracts
    exact MInt.checkedSub_u32_isSome_iff.mp (hsafe.sources e he a hsubtracts)
  · intro hsteps
    constructor
    · apply Run.visits_invariant windowsFit_empty
      intro e he hfit
      exact (step_windowsFit_iff (unused_history he) hfit).mpr (hsteps e he).windows
    · intro e he a hsubtracts
      exact MInt.checkedSub_u32_isSome_iff.mpr ((hsteps e he).sources a hsubtracts)

/-! ## A window that overflows -/

/-- A contract with the longest window, and a commitment in the fifth ledger. -/
def longWindowRun : List (Invocation Op) :=
  [⟨.signedBy 1 [⟨0⟩], .initializeContract ⟨0⟩ sampleKey (MInt.maxValue IntType.u32)⟩,
    ⟨.signedBy 5 [⟨9⟩], .commitPrice ⟨9⟩ sampleFeed sampleKey⟩]

theorem final_longWindowRun (crypto : Crypto) :
    Run.final (step (exec crypto)) Store.empty longWindowRun =
      (Store.empty.withConfig ⟨⟨0⟩, sampleKey, MInt.maxValue IntType.u32, 0⟩).withCommitment
        sampleFeed ⟨sampleKey, 5, .challengeWindow⟩ := by
  have hinit : step (exec crypto) Store.empty
      ⟨.signedBy 1 [⟨0⟩], .initializeContract ⟨0⟩ sampleKey (MInt.maxValue IntType.u32)⟩ =
        Store.empty.withConfig ⟨⟨0⟩, sampleKey, MInt.maxValue IntType.u32, 0⟩ := by
    apply step_of_ok
    exact initializeContract_eq_ok.mpr ⟨rfl, Env.authorized_signedBy 1 ⟨0⟩, rfl⟩
  rw [longWindowRun, Run.final_cons, hinit, Run.final_cons, Run.final_nil]
  apply step_of_ok
  refine commitPrice_eq_ok.mpr ⟨rfl, Env.authorized_signedBy 5 ⟨9⟩, ?_, rfl⟩
  intro existing hstored
  simp [Store.empty] at hstored

/-- Under every hash and signature scheme, the window of that commitment overflows. -/
theorem window_overflows : ¬ ∃ crypto : Crypto, ∀ run, ArithmeticSafe crypto run := by
  intro h
  rcases h with ⟨crypto, hsafe⟩
  have hvisits : Run.Visits (step (exec crypto)) Store.empty longWindowRun
      (Run.final (step (exec crypto)) Store.empty longWindowRun) :=
    ⟨longWindowRun, [], (List.append_nil _).symm, rfl⟩
  have hfit := (hsafe longWindowRun).windows _ hvisits
  rw [final_longWindowRun] at hfit
  have hsum := hfit _ sampleFeed _ rfl (Storage.get_set_self _ _ _) rfl
  rw [MInt.checkedAdd_u32_isSome_iff] at hsum
  exact absurd hsum (by decide : ¬ ((5 : Int) + (2 ^ 32 - 1) ≤ 2 ^ 32 - 1))

end CarbonOracle
end Kraal
