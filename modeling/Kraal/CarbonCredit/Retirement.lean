import Kraal.CarbonCredit.Batch

/-!
# Retirements in the credit contract

A retirement records its operation id before it looks at the balance, and adds its amount to
the retired supply at the end.  A call that fails in between leaves neither behind.  So an id
is taken by one successful retirement at most, and the retired supply is the sum of the
amounts of all of them.

Main results:

- Theorem {lit}`step_retireOps`: the ids that a step records.
- Theorem {lit}`step_retired`: the amount that a step retires.
- Theorem {lit}`retirement_sound`: both along a run, and when the next retirement is accepted.
-/

namespace Kraal
namespace CarbonCredit

open Foundation

/-! ## Successful retirements -/

/-- The steps of a run of a freshly deployed contract, each with the state before it. -/
def history (run : List (Invocation Answered)) : List (Store × Invocation Answered) :=
  Run.trace (step execAnswered) Store.empty run

/-- The state after a run. -/
def after (run : List (Invocation Answered)) : Store :=
  Run.final (step execAnswered) Store.empty run

/-- The id that a retirement is under. -/
def Op.retireId : Op → Option BytesN
  | .retire _ _ _ operationId => some operationId
  | _ => none

/-- A step is a successful retirement under an operation id. -/
def RetiresUnder (operationId : BytesN) (e : Store × Invocation Answered) : Prop :=
  (execAnswered e.2.call).Succeeds e.2.env e.1 ∧ e.2.call.2.retireId = some operationId

/-- The amount that an operation retires of a project if it succeeds. -/
def Op.retiredAmount : Op → BytesN → Int
  | .retire _ projectId amount _, p => Ledger.amountOf projectId amount.toInt p
  | _, _ => 0

/-- The amount that a step retires of a project. -/
def retiredBy (projectId : BytesN) (e : Store × Invocation Answered) : Int :=
  match execAnswered e.2.call e.2.env e.1 with
  | .ok _ => e.2.call.2.retiredAmount projectId
  | .error _ => 0

/-! ## Recorded ids -/

variable {registry : ProjectQuery} {op : Op} {env : Env} {s s' : Store} {i : Invocation Answered}
  {operationId : BytesN}

/-- Only a retirement records an id, and only its own. -/
theorem exec_retireOps (h : exec registry op env s = .ok ((), s')) (operationId : BytesN) :
    s'.retireOps.has operationId = true ↔
      s.retireOps.has operationId = true ∨ op.retireId = some operationId := by
  have hother : op.retireId = none → s'.retireOps = s.retireOps →
      (s'.retireOps.has operationId = true ↔
        s.retireOps.has operationId = true ∨ op.retireId = some operationId) := by
    intro hnone hsame
    rw [hsame, hnone]
    simp
  cases op with
  | initializeContract admin registry marketplace =>
      rcases initializeContract_eq_ok.mp h with ⟨-, rfl⟩
      exact hother rfl rfl
  | mint recipient projectId amount =>
      rcases mint_eq_ok.mp h with ⟨-, newBalance, -, newSupply, -, rfl⟩
      exact hother rfl rfl
  | transfer sender recipient projectId amount =>
      have hrest := congrArg Store.retireOps (transfer_rest h)
      exact hother rfl hrest
  | burn owner projectId amount =>
      rcases burn_eq_ok.mp h with ⟨-, -, hremove⟩
      rcases removeCredits_eq_ok.mp hremove with ⟨-, newBalance, -, rfl⟩
      exact hother rfl rfl
  | batchTransfer sender transfers =>
      have hrest := congrArg Store.retireOps (transferAll_rest (batchTransfer_eq_ok.mp h).2)
      exact hother rfl hrest
  | retire owner projectId amount operationId' =>
      rcases retire_eq_ok.mp h with ⟨-, -, t, hremove, newRetired, -, rfl⟩
      rcases removeCredits_eq_ok.mp hremove with ⟨-, newBalance, -, rfl⟩
      change (s.retireOps.set operationId' true).has operationId = true ↔ _
      rw [Storage.has, Storage.get_set, Op.retireId, Option.some.injEq]
      by_cases hid : operationId = operationId'
      · rw [if_pos hid]
        exact iff_of_true rfl (.inr hid.symm)
      · rw [if_neg hid]
        exact (or_iff_left (Ne.symm hid)).symm

/-- A step records the id of a successful retirement, and no other. -/
theorem step_retireOps (s : Store) (i : Invocation Answered) (operationId : BytesN) :
    (step execAnswered s i).retireOps.has operationId = true ↔
      s.retireOps.has operationId = true ∨ RetiresUnder operationId (s, i) := by
  by_cases hsucceeds : (execAnswered i.call).Succeeds i.env s
  · have hok := hsucceeds
    rcases hok with ⟨⟨⟨⟩, s'⟩, hexec⟩
    rw [step_of_ok hexec, exec_retireOps hexec, RetiresUnder, and_iff_right hsucceeds]
  · rw [step_of_not_succeeds hsucceeds, RetiresUnder, iff_false_intro hsucceeds, false_and,
      or_false]

/-- A retirement that succeeds finds its id unused. -/
theorem RetiresUnder.unused (h : RetiresUnder operationId (s, i)) :
    s.retireOps.has operationId = false := by
  rcases h with ⟨⟨⟨⟨⟩, s'⟩, hexec⟩, hid⟩
  rw [execAnswered] at hexec
  cases hop : i.call.2 with
  | retire owner projectId amount operationId' =>
      rw [hop] at hexec hid
      rw [Op.retireId, Option.some.injEq] at hid
      rw [← hid]
      exact (retire_eq_ok.mp hexec).2.1
  | initializeContract | mint | transfer | burn | batchTransfer =>
      rw [hop] at hid
      cases hid

/-! ## Retired amounts -/

theorem movements_retires (op : Op) (projectId : BytesN) :
    (op.movements.map fun m => m.retires projectId).sum = op.retiredAmount projectId := by
  cases op with
  | batchTransfer sender transfers =>
      apply List.sum_eq_zero
      intro n hn
      rcases List.mem_map.mp hn with ⟨m, hm, rfl⟩
      rcases List.mem_map.mp hm with ⟨t, -, rfl⟩
      rfl
  | retire owner projectId' amount operationId =>
      simp [Op.movements, Op.retiredAmount, Ledger.Movement.retires]
  | initializeContract | mint | transfer | burn => rfl

/-- A step adds to the retired supply what it retires. -/
theorem step_retired (hs : Conserved s) (i : Invocation Answered) (projectId : BytesN) :
    ((step execAnswered s i).retiredSupply projectId).toInt =
      (s.retiredSupply projectId).toInt + retiredBy projectId (s, i) := by
  unfold retiredBy
  cases hexec : execAnswered i.call i.env s with
  | ok p =>
      rcases p with ⟨⟨⟩, s'⟩
      have hretired := congrFun (congrArg Ledger.retired (exec_refines hs hexec)) projectId
      rw [Ledger.retired_foldl, movements_retires] at hretired
      rw [step_of_ok hexec]
      exact hretired
  | error f =>
      have hfails : ¬ (execAnswered i.call).Succeeds i.env s := fun h => h.ne_error hexec
      rw [step_of_not_succeeds hfails]
      exact (Int.add_zero _).symm

/-- No step retires a negative amount. -/
theorem retiredBy_nonneg (projectId : BytesN) (e : Store × Invocation Answered) :
    0 ≤ retiredBy projectId e := by
  unfold retiredBy
  cases hexec : execAnswered e.2.call e.2.env e.1 with
  | error f => exact le_rfl
  | ok p =>
      rcases p with ⟨⟨⟩, s'⟩
      rw [execAnswered] at hexec
      cases hop : e.2.call.2 with
      | retire owner projectId' amount operationId =>
          rw [hop] at hexec
          have hpos := (retire_eq_ok.mp hexec).1.2.2
          simp only [Op.retiredAmount, Ledger.amountOf]
          split
          · exact hpos.le
          · exact le_rfl
      | initializeContract | mint | transfer | burn | batchTransfer => exact le_rfl

/-! ## Retirements along a run -/

/-- The recorded ids are those of the successful retirements so far. -/
theorem recorded_iff (run : List (Invocation Answered)) (operationId : BytesN) :
    (after run).retireOps.has operationId = true ↔
      ∃ e ∈ history run, RetiresUnder operationId e := by
  apply Run.history_invariant (P := fun past s => s.retireOps.has operationId = true ↔
    ∃ e ∈ past, RetiresUnder operationId e)
  · simp [Store.empty, Storage.has]
  · intro past s i hpast
    rw [step_retireOps, hpast]
    simp only [List.mem_append, List.mem_singleton, or_and_right, exists_or, exists_eq_left]

theorem history_append (pre post : List (Invocation Answered)) :
    history (pre ++ post) =
      history pre ++ Run.trace (step execAnswered) (after pre) post :=
  Run.trace_append _ _ _

/-- The retired supply of a project is the sum of what was retired of it. -/
theorem retiredSupply_eq_sum (run : List (Invocation Answered)) (projectId : BytesN) :
    ((after run).retiredSupply projectId).toInt =
      ((history run).map (retiredBy projectId)).sum := by
  have hinvariant : Conserved (after run) ∧ ((after run).retiredSupply projectId).toInt =
      ((history run).map (retiredBy projectId)).sum := by
    apply Run.history_invariant (P := fun past s => Conserved s ∧
      (s.retiredSupply projectId).toInt = (past.map (retiredBy projectId)).sum)
    · exact ⟨conserved_empty, rfl⟩
    · intro past s i hpast
      refine ⟨hpast.1.step i, ?_⟩
      rw [step_retired hpast.1, hpast.2, List.map_append, List.sum_append, List.map_singleton,
        List.sum_singleton]
  exact hinvariant.2

/-- Two successful retirements of a run are under different ids. -/
theorem retires_once (run : List (Invocation Answered)) :
    (history run).Pairwise fun e e' =>
      ∀ operationId, RetiresUnder operationId e → ¬ RetiresUnder operationId e' := by
  apply Run.pairwise_trace (P := fun e s => ∀ operationId, RetiresUnder operationId e →
    s.retireOps.has operationId = true)
  · intro e _ operationId hretires
    exact (step_retireOps e.1 e.2 operationId).mpr (.inr hretires)
  · intro e e' _ hrecorded operationId hretires
    exact (step_retireOps e'.1 e'.2 operationId).mpr (.inl (hrecorded operationId hretires))
  · intro e e' _ hrecorded operationId hretires hagain
    have hhas := hrecorded operationId hretires
    rw [hagain.unused] at hhas
    cases hhas

/-- A retirement is accepted exactly if it is authorized and positive, its id is not recorded, the
balance covers it, and the retired supply has room for it. -/
theorem retire_succeeds_iff {owner : Address} {projectId : BytesN} {amount : I128} :
    (retire owner projectId amount operationId).Succeeds env s ↔
      OwnerAccepted owner amount env s ∧ s.retireOps.has operationId = false ∧
        amount.toInt ≤ (s.balanceOf owner projectId).toInt ∧
        (s.retiredSupply projectId).toInt + amount.toInt ≤ 2 ^ 127 - 1 := by
  constructor
  · intro h
    rcases h with ⟨⟨⟨⟩, s'⟩, hok⟩
    rcases retire_eq_ok.mp hok with ⟨haccepted, hunused, t, hremove, newRetired, hretired, -⟩
    rcases removeCredits_eq_ok.mp hremove with ⟨hle, newBalance, -, rfl⟩
    have hhi : newRetired.toInt ≤ 2 ^ 127 - 1 := newRetired.le_hi
    rw [hretired] at hhi
    exact ⟨haccepted, hunused, hle, hhi⟩
  · intro h
    rcases h with ⟨haccepted, hunused, hle, hhi⟩
    have hpos := haccepted.2.2
    rcases Option.ne_none_iff_exists'.mp (checkedSub_of_covered hpos hle) with ⟨newBalance, hsub⟩
    have hlo : IntType.i128.lo ≤ (s.retiredSupply projectId).toInt + amount.toInt :=
      (s.retiredSupply projectId).lo_le.trans (le_add_of_nonneg_right hpos.le)
    rcases Option.isSome_iff_exists.mp (MInt.checkedAdd_isSome hlo hhi) with ⟨newRetired, hadd⟩
    exact ⟨⟨(), _⟩, retire_eq_ok.mpr ⟨haccepted, hunused, _,
      removeCredits_eq_ok.mpr ⟨hle, newBalance, MInt.checkedSub_eq_some.mp hsub, rfl⟩, newRetired,
      MInt.checkedAdd_eq_some.mp hadd, rfl⟩⟩

/-- What a run guarantees about its retirements. -/
structure RetirementSound (run : List (Invocation Answered)) : Prop where
  /-- Every id occurs in one successful retirement at most. -/
  once : (history run).Pairwise fun e e' =>
    ∀ operationId, RetiresUnder operationId e → ¬ RetiresUnder operationId e'
  /-- The retired supply is the sum of the amounts of the successful retirements. -/
  total : ∀ projectId, ((after run).retiredSupply projectId).toInt =
    ((history run).map (retiredBy projectId)).sum
  /-- The retired supply never decreases. -/
  monotone : ∀ pre post, run = pre ++ post → ∀ projectId,
    (after pre).retiredSupply projectId ≤ (after run).retiredSupply projectId
  /-- A retirement that fails next changes nothing. -/
  failure : ∀ owner projectId amount operationId env,
    ¬ (retire owner projectId amount operationId).Succeeds env (after run) →
    (retire owner projectId amount operationId).commit env (after run) = after run
  /-- A retirement is accepted next if it is valid and its id is not that of a successful one. -/
  accepted : ∀ owner projectId amount operationId env,
    (retire owner projectId amount operationId).Succeeds env (after run) ↔
      OwnerAccepted owner amount env (after run) ∧
      (∀ e ∈ history run, ¬ RetiresUnder operationId e) ∧
      amount.toInt ≤ ((after run).balanceOf owner projectId).toInt ∧
      ((after run).retiredSupply projectId).toInt + amount.toInt ≤ 2 ^ 127 - 1

/-- Retirements are carried out once under each id, and add up. -/
theorem retirement_sound (run : List (Invocation Answered)) : RetirementSound run where
  once := retires_once run
  total := retiredSupply_eq_sum run
  monotone := by
    intro pre post hrun projectId
    rw [MInt.le_def, retiredSupply_eq_sum, retiredSupply_eq_sum, hrun, history_append,
      List.map_append, List.sum_append]
    have hrest : 0 ≤ ((Run.trace (step execAnswered) (after pre) post).map
        (retiredBy projectId)).sum := by
      apply List.sum_nonneg
      intro n hn
      rcases List.mem_map.mp hn with ⟨e, -, rfl⟩
      exact retiredBy_nonneg projectId e
    exact le_add_of_nonneg_right hrest
  failure := by
    intro owner projectId amount operationId env hfails
    exact Call.commit_of_not_succeeds hfails
  accepted := by
    intro owner projectId amount operationId env
    rw [retire_succeeds_iff]
    have hunused : (after run).retireOps.has operationId = false ↔
        ∀ e ∈ history run, ¬ RetiresUnder operationId e := by
      rw [← Bool.not_eq_true, recorded_iff]
      simp
    rw [hunused]

end CarbonCredit
end Kraal
