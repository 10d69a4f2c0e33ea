import Kraal.StellarKraal.Contract

/-!
# Asset ids of StellarKraal

The id of an asset is the hash of the ledger in which it is registered, and nothing
else enters it.  A registration writes its row without looking, so the runs in which
no registration lands on a stored asset are exactly those in which every ledger sees
at most one registration.

Main results:

- Theorem {lit}`step_assets`: what a step does to the set of stored assets.
- Theorem {lit}`reachable_registered`: every stored id comes from a registration.
- Theorem {lit}`neverOverwrites_iff`: assets are never overwritten exactly when no two
  registrations share a ledger.
- Theorem {lit}`registrations_overwrite`: two owners who register in one ledger.
-/

namespace Kraal
namespace StellarKraal

open Foundation

variable {sha256 : Bytes → BytesN}

/-- A run of the contract from its deployment, as the list of its steps. -/
abbrev history (sha256 : Bytes → BytesN) (run : List (Invocation Op)) :
    List (Store × Invocation Op) :=
  Run.trace (step (exec sha256)) Store.empty run

/-! ## Steps that register an asset -/

/-- A step is a successful registration. -/
def Registers (sha256 : Bytes → BytesN) (e : Store × Invocation Op) : Prop :=
  ∃ owner animalType tagId appraisedValueXlm s',
    e.2.call = .registerAsset owner animalType tagId appraisedValueXlm ∧
    registerAsset sha256 owner animalType tagId appraisedValueXlm e.2.env e.1 =
      .ok (assetIdAt sha256 e.2.env.sequence, s')

/-- The state that a registration leaves: one asset row is written. -/
theorem Registers.step_eq {e : Store × Invocation Op} (h : Registers sha256 e) :
    ∃ asset, step (exec sha256) e.1 e.2 =
      e.1.withAsset (assetIdAt sha256 e.2.env.sequence) asset ∧ asset.onLoan = false := by
  rcases h with ⟨owner, animalType, tagId, appraisedValueXlm, s', hcall, hok⟩
  rcases registerAsset_eq_ok.mp hok with ⟨-, -, -, hs⟩
  refine ⟨⟨owner, animalType, tagId, appraisedValueXlm, false⟩, ?_, rfl⟩
  rw [← hs]
  apply step_of_ok
  rw [hcall, exec, Call.bind_eq_ok]
  exact ⟨_, s', hok, rfl⟩

/-- A step registers an asset, or it keeps the set of stored assets. -/
theorem step_assets (sha256 : Bytes → BytesN) (s : Store) (i : Invocation Op) :
    Registers sha256 (s, i) ∨
    ∀ id, ((step (exec sha256) s i).assets.get id).isSome = (s.assets.get id).isSome := by
  by_cases hsucceeds : (exec sha256 i.call).Succeeds i.env s
  · rcases hsucceeds with ⟨⟨_, s'⟩, hok⟩
    rw [step_of_ok hok]
    rcases exec_cases hok with ⟨cfg, -, -, -, rfl⟩ |
      ⟨owner, animalType, tagId, appraisedValueXlm, hcall, hregister⟩ |
      ⟨borrower, assetId, principalStroops, id, -, hopen⟩ |
      ⟨caller, loanId, repaymentStroops, cfg, loan, accrued, -, -, -, rfl⟩ |
      ⟨caller, loanId, cfg, loan, accrued, -, -, asset, hasset, rfl⟩ |
      ⟨oracle, price, -, rfl⟩
    · exact .inr fun _ => rfl
    · exact .inl ⟨owner, animalType, tagId, appraisedValueXlm, s', hcall, hregister⟩
    · rcases openLoan_eq_ok.mp hopen with ⟨cfg, asset, balance, nonce, haccepted, -, -, -, rfl⟩
      exact .inr fun id => Storage.isSome_get_set haccepted.stored id
    · exact .inr fun _ => rfl
    · exact .inr fun id => Storage.isSome_get_set hasset id
    · exact .inr fun _ => rfl
  · rw [step_of_not_succeeds hsucceeds]
    exact .inr fun _ => rfl

/-- No step removes an asset. -/
theorem step_keeps_assets (sha256 : Bytes → BytesN) (s : Store) (i : Invocation Op) {id : BytesN}
    (hid : (s.assets.get id).isSome = true) :
    ((step (exec sha256) s i).assets.get id).isSome = true := by
  rcases step_assets sha256 s i with hregisters | hkept
  · rcases hregisters.step_eq with ⟨asset, heq, -⟩
    rw [heq, Store.withAsset_assets, Storage.get_set]
    split
    · rfl
    · exact hid
  · rw [hkept, hid]

/-! ## Stored ids along a run -/

/-- Every stored asset comes from a registration of the run. -/
def AllRegistered (sha256 : Bytes → BytesN) (past : List (Store × Invocation Op)) (s : Store) :
    Prop :=
  ∀ id, (s.assets.get id).isSome = true →
    ∃ e ∈ past, Registers sha256 e ∧ id = assetIdAt sha256 e.2.env.sequence

theorem reachable_registered (sha256 : Bytes → BytesN) (run : List (Invocation Op)) :
    AllRegistered sha256 (history sha256 run)
      (Run.final (step (exec sha256)) Store.empty run) := by
  apply Run.history_invariant (P := AllRegistered sha256)
  · intro id hid
    simp [Store.empty] at hid
  · intro past s i hs id hid
    have hpast : (s.assets.get id).isSome = true → ∃ e ∈ past ++ [(s, i)],
        Registers sha256 e ∧ id = assetIdAt sha256 e.2.env.sequence := by
      intro hstored
      rcases hs id hstored with ⟨e, he, hregisters⟩
      exact ⟨e, List.mem_append_left _ he, hregisters⟩
    rcases step_assets sha256 s i with hregisters | hkept
    · by_cases hnew : id = assetIdAt sha256 i.env.sequence
      · exact ⟨(s, i), List.mem_append_right _ List.mem_cons_self, hregisters, hnew⟩
      · rcases hregisters.step_eq with ⟨asset, heq, -⟩
        rw [heq, Store.withAsset_assets, Storage.get_set_of_ne _ _ hnew] at hid
        exact hpast hid
    · rw [hkept] at hid
      exact hpast hid

/-! ## Registrations that overwrite nothing -/

/-- A registration is fresh if the id it derives is not stored. -/
def FreshRegistration (sha256 : Bytes → BytesN) (e : Store × Invocation Op) : Prop :=
  Registers sha256 e → e.1.assets.get (assetIdAt sha256 e.2.env.sequence) = none

/-- No registration of a run writes an id that is stored, so none changes a stored asset. -/
def NeverOverwrites (sha256 : Bytes → BytesN) (run : List (Invocation Op)) : Prop :=
  ∀ e ∈ history sha256 run, FreshRegistration sha256 e ∧
    (Registers sha256 e → ∀ id asset, e.1.assets.get id = some asset →
      (step (exec sha256) e.1 e.2).assets.get id = some asset)

/-- No two registrations of a run share a ledger. -/
def DistinctLedgers (sha256 : Bytes → BytesN) (run : List (Invocation Op)) : Prop :=
  (history sha256 run).Pairwise fun e e' =>
    Registers sha256 e → Registers sha256 e' → e.2.env.sequence ≠ e'.2.env.sequence

/-- A fresh registration changes no stored asset. -/
theorem FreshRegistration.keeps {e : Store × Invocation Op} (hfresh : FreshRegistration sha256 e)
    (hregisters : Registers sha256 e) {id : BytesN} {asset : Asset}
    (hstored : e.1.assets.get id = some asset) :
    (step (exec sha256) e.1 e.2).assets.get id = some asset := by
  rcases hregisters.step_eq with ⟨new, heq, -⟩
  have hne : id ≠ assetIdAt sha256 e.2.env.sequence := by
    intro hsame
    subst hsame
    rw [hfresh hregisters] at hstored
    cases hstored
  rw [heq, Store.withAsset_assets, Storage.get_set_of_ne _ _ hne, hstored]

theorem assetIdAt_injective (hinj : Function.Injective sha256) :
    Function.Injective (assetIdAt sha256) :=
  hinj.comp MInt.toBeBytes_injective

theorem DistinctLedgers.fresh (hinj : Function.Injective sha256) {run : List (Invocation Op)}
    (hrun : DistinctLedgers sha256 run) :
    ∀ e ∈ history sha256 run, FreshRegistration sha256 e := by
  intro e' he' hregisters'
  rcases Run.mem_trace_iff.mp he' with ⟨pre, post, rfl, hstate⟩
  by_contra hstored
  have hsome : (e'.1.assets.get (assetIdAt sha256 e'.2.env.sequence)).isSome = true :=
    Option.isSome_iff_ne_none.mpr hstored
  have hpast := reachable_registered sha256 pre
  rw [← hstate] at hpast
  rcases hpast _ hsome with ⟨e, he, hregisters, hid⟩
  have hpair := Run.pairwise_prefix hrun e he
  rw [← hstate] at hpair
  exact hpair hregisters hregisters' (assetIdAt_injective hinj hid).symm

theorem NeverOverwrites.distinctLedgers {run : List (Invocation Op)}
    (hrun : NeverOverwrites sha256 run) : DistinctLedgers sha256 run := by
  -- the asset of the earlier registration is still stored at the later one
  apply Run.pairwise_trace (P := fun e s => Registers sha256 e →
    (s.assets.get (assetIdAt sha256 e.2.env.sequence)).isSome = true)
  · intro e _ hregisters
    rcases hregisters.step_eq with ⟨asset, heq, -⟩
    rw [heq, Store.withAsset_assets, Storage.get_set_self]
    rfl
  · intro e e' _ hpast hregisters
    exact step_keeps_assets sha256 e'.1 e'.2 (hpast hregisters)
  · intro e e' he' hpast hregisters hregisters' hsame
    have hstored := hpast hregisters
    rw [hsame, (hrun e' he').1 hregisters'] at hstored
    cases hstored

/-- Assets are never overwritten exactly when no two registrations share a ledger. -/
theorem neverOverwrites_iff (hinj : Function.Injective sha256) (run : List (Invocation Op)) :
    NeverOverwrites sha256 run ↔ DistinctLedgers sha256 run := by
  constructor
  · exact NeverOverwrites.distinctLedgers
  · intro hrun e he
    have hfresh := hrun.fresh hinj e he
    exact ⟨hfresh, fun hregisters _ _ hstored => hfresh.keeps hregisters hstored⟩

/-! ## Registrations in one ledger and in two -/

/-- A configuration with a collateral ratio of sixty percent and interest of five. -/
def sampleConfig : Config where
  admin := ⟨0⟩
  oracle1 := ⟨1⟩
  oracle2 := ⟨2⟩
  oracle3 := ⟨3⟩
  collateralRatioBps := 6000
  liquidationThresholdBps := 8000
  liquidationBonusBps := 500
  interestRateBps := 500
  creationFeeStroops := 5
  maxPriceAgeLedgers := 100

/-- Two owners register an animal each, in the given ledgers. -/
def twoAssets (sequence sequence' : U32) : List (Invocation Op) :=
  [⟨.signedBy 1 [⟨0⟩], .initializeContract sampleConfig⟩,
    ⟨.signedBy sequence [⟨4⟩], .registerAsset ⟨4⟩ "cow" "A1" 1000⟩,
    ⟨.signedBy sequence' [⟨5⟩], .registerAsset ⟨5⟩ "goat" "B2" 10⟩]

/-- Under every hash, the second registration of a ledger replaces the first asset. -/
theorem registrations_overwrite :
    ¬ ∃ sha256 : Bytes → BytesN, NeverOverwrites sha256 (twoAssets 7 7) := by
  intro h
  rcases h with ⟨sha256, hnever⟩
  have hledgers := hnever.distinctLedgers
  simp only [DistinctLedgers, history, twoAssets, Run.trace_cons, Run.trace_nil,
    List.pairwise_cons] at hledgers
  exact hledgers.2.1 _ List.mem_cons_self ⟨_, _, _, _, _, rfl, rfl⟩ ⟨_, _, _, _, _, rfl, rfl⟩ rfl

theorem twoAssets_kept : NeverOverwrites BytesN.mk (twoAssets 7 8) := by
  apply (neverOverwrites_iff BytesN.mk_injective _).mpr
  simp only [DistinctLedgers, history, twoAssets, Run.trace_cons, Run.trace_nil,
    List.pairwise_cons, List.mem_cons, List.not_mem_nil, or_false, forall_eq_or_imp, forall_eq,
    List.Pairwise.nil, and_true, false_implies, implies_true]
  refine ⟨⟨?_, ?_⟩, ?_⟩
  · intro h
    rcases h with ⟨owner, animalType, tagId, appraisedValueXlm, s', hcall, -⟩
    cases hcall
  · intro h
    rcases h with ⟨owner, animalType, tagId, appraisedValueXlm, s', hcall, -⟩
    cases hcall
  · intro _ _
    decide

end StellarKraal
end Kraal
