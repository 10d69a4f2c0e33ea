import Kraal.CarbonSystem.Wiring

/-!
# Issuance across the carbon contracts

The registry counts what it has allowed to be issued for a project, the credit
contract what exists of it.  The two agree in every reachable state, live and
retired credits together, as long as nobody but the marketplace itself speaks for
the marketplace and no registration lands on a stored project.

Main results:

- Definition {lit}`Issuance` and theorem {lit}`Issuance.step`: the invariant across
  the two stores and its preservation by every operation.
- Theorem {lit}`issuance_conserved`: what exists of a project is what the registry
  has issued for it, which stays within its allocation.
-/

namespace Kraal
namespace CarbonSystem

open Foundation
open CarbonRegistry (CarbonProject)

variable {sha256 : Bytes → BytesN} {d : Deployment}

/-! ## The invariant -/

/-- What exists of a project is what the registry has issued for it, within the
allocation of the project; of an unregistered project nothing exists. -/
structure Issuance (t : CarbonStores) : Prop where
  outstanding_eq : ∀ projectId project, t.registry.projects.get projectId = some project →
    t.credit.ledger.outstanding projectId = project.issuedCredits.toInt
  issued_le : ∀ projectId project, t.registry.projects.get projectId = some project →
    project.issuedCredits.toInt ≤ project.totalCredits.toInt
  unregistered : ∀ projectId, t.registry.projects.get projectId = none →
    t.credit.ledger.outstanding projectId = 0

/-- Nothing is issued at first. -/
theorem issuance_genesis (d : Deployment) : Issuance (genesis d).peers := by
  refine ⟨?_, ?_, ?_⟩
  · intro projectId project h
    cases h
  · intro projectId project h
    cases h
  · intro projectId _
    rfl

/-- One project row and the credits of that project change together. -/
theorem Issuance.withProject {t : CarbonStores} (ht : Issuance t) {projectId : BytesN}
    {project : CarbonProject} {credit : CarbonCredit.Store}
    (hledger : ∀ projectId', credit.ledger.outstanding projectId' =
      if projectId' = projectId then project.issuedCredits.toInt
      else t.credit.ledger.outstanding projectId')
    (hissued : project.issuedCredits.toInt ≤ project.totalCredits.toInt) :
    Issuance ⟨t.registry.withProject projectId project, credit⟩ := by
  refine ⟨?_, ?_, ?_⟩
  · intro projectId' project' hstored
    rw [hledger]
    rcases Storage.get_set_eq_some.mp hstored with ⟨hsame, hproject⟩ | ⟨hother, hold⟩
    · rw [if_pos hsame, hproject]
    · rw [if_neg hother, ht.outstanding_eq projectId' project' hold]
  · exact Storage.forall_get_set ht.issued_le hissued
  · intro projectId' hnone
    rw [CarbonRegistry.Store.withProject_get] at hnone
    by_cases hsame : projectId' = projectId
    · rw [if_pos hsame] at hnone
      cases hnone
    · rw [if_neg hsame] at hnone
      rw [hledger, if_neg hsame, ht.unregistered projectId' hnone]

/-- Rewriting a project row without touching its counts needs no new credits. -/
theorem Issuance.rewriteProject {t : CarbonStores} (ht : Issuance t) {projectId : BytesN}
    {project project' : CarbonProject} (hstored : t.registry.projects.get projectId = some project)
    (hissued : project'.issuedCredits = project.issuedCredits)
    (htotal : project'.totalCredits = project.totalCredits) :
    Issuance (t.withRegistry (t.registry.withProject projectId project')) := by
  apply ht.withProject
  · intro projectId'
    by_cases hsame : projectId' = projectId
    · rw [if_pos hsame, hsame, ht.outstanding_eq projectId project hstored, hissued]
    · rw [if_neg hsame]
  · rw [hissued, htotal]
    exact ht.issued_le projectId project hstored

/-! ## Preservation -/

/-- A registration is fresh if the id it derives is not stored. -/
def FreshRegistration (sha256 : Bytes → BytesN) (s : System) (i : Invocation Op) : Prop :=
  ∀ owner name totalCredits vintageYear,
    i.call = .registry (.registerProject owner name totalCredits vintageYear) →
    s.peers.registry.projects.get (CarbonRegistry.projectId sha256 owner name vintageYear) = none

/-- A call of the registry keeps the sums. -/
theorem Issuance.registry {s : System} {i : Invocation Op} (hs : Sound d s)
    (ht : Issuance s.peers) (hunsigned : i.env.authorized d.market = false)
    (hfresh : FreshRegistration sha256 s i) {op : CarbonRegistry.Op} (hcall : i.call = .registry op)
    {registry : CarbonRegistry.Store}
    (h : CarbonRegistry.exec sha256 op i.env s.peers.registry = .ok ((), registry)) :
    Issuance (s.peers.withRegistry registry) := by
  rcases CarbonRegistry.exec_cases h with ⟨admin, marketplace, -, -, rfl⟩ |
    ⟨owner, name, totalCredits, vintageYear, rfl, haccepted, rfl⟩ |
    ⟨status, id, cfg, project, -, -, -, hproject, rfl⟩ |
    ⟨id, amount, cfg, project, newIssued, -, hcfg, hauth, -⟩
  · exact ⟨ht.outstanding_eq, ht.issued_le, ht.unregistered⟩
  · -- nothing exists yet of the project that is registered
    have hnone := hfresh owner name totalCredits vintageYear hcall
    apply ht.withProject
    · intro projectId'
      by_cases hsame : projectId' = CarbonRegistry.projectId sha256 owner name vintageYear
      · rw [if_pos hsame, hsame, ht.unregistered _ hnone]
        rfl
      · rw [if_neg hsame]
    · exact haccepted.2.2.le
  · exact ht.rewriteProject hproject rfl rfl
  · -- only the marketplace issues credits
    rw [hs.wired.registry_config, Option.some.injEq] at hcfg
    subst hcfg
    rw [hunsigned] at hauth
    cases hauth

/-- A call of the credits keeps the sums. -/
theorem Issuance.credit {s : System} {i : Invocation Op} (hs : Sound d s)
    (ht : Issuance s.peers) (hunsigned : i.env.authorized d.market = false)
    {op : CarbonCredit.Op} {credit : CarbonCredit.Store}
    (h : CarbonCredit.exec (registryQuery d i.env s.peers.registry) op i.env s.peers.credit =
      .ok ((), credit)) : Issuance (s.peers.withCredit credit) := by
  -- only the marketplace mints and burns
  have hmarket : ∀ cfg, s.peers.credit.config = some cfg →
      i.env.authorized cfg.marketplace ≠ true := by
    intro cfg hcfg hauth
    rw [hs.wired.credit_config, Option.some.injEq] at hcfg
    subst hcfg
    rw [hunsigned] at hauth
    cases hauth
  have houtstanding := CarbonCredit.exec_outstanding hs.conserved h
    (by
      intro recipient projectId amount hsame
      subst hsame
      rcases CarbonCredit.mint_eq_ok.mp h with ⟨⟨cfg, project, hcfg, hauth, -⟩, -⟩
      exact hmarket cfg hcfg hauth)
    (by
      intro owner projectId amount hsame
      subst hsame
      rcases CarbonCredit.burn_eq_ok.mp h with ⟨⟨cfg, hcfg, hauth⟩, -⟩
      exact hmarket cfg hcfg hauth)
  refine ⟨?_, ht.issued_le, ?_⟩
  · intro projectId project hstored
    rw [CarbonStores.withCredit_credit, houtstanding]
    exact ht.outstanding_eq projectId project hstored
  · intro projectId hnone
    rw [CarbonStores.withCredit_credit, houtstanding]
    exact ht.unregistered projectId hnone

/-- A purchase keeps the sums. -/
theorem Issuance.settles {t t' : CarbonStores} (ht : Issuance t)
    (hconserved : CarbonCredit.Conserved t.credit) {env : Env} {seller buyer : Address}
    {projectId : BytesN} {amount : I128}
    (h : Settles d env seller buyer projectId amount t t') : Issuance t' := by
  rcases h.ledger hconserved with ⟨hregistry, -, hledger⟩
  refine ⟨?_, ?_, ?_⟩
  · intro projectId' project hstored
    rw [hregistry] at hstored
    rw [hledger, Ledger.outstanding_transfer]
    exact ht.outstanding_eq projectId' project hstored
  · rw [hregistry]
    exact ht.issued_le
  · intro projectId' hnone
    rw [hregistry] at hnone
    rw [hledger, Ledger.outstanding_transfer]
    exact ht.unregistered projectId' hnone

/-- Issuing credits keeps the sums. -/
theorem Issuance.issues {t t' : CarbonStores} (ht : Issuance t) {env : Env} {projectId : BytesN}
    {amount : I128} (h : Issues d env projectId amount t t') : Issuance t' := by
  rcases h with ⟨registry, project, credit, hissue, -, hmint, rfl⟩
  rcases CarbonRegistry.issueCredits_eq_ok.mp hissue with
    ⟨cfg, project', newIssued, -, -, -, hstored, -, hnew, hle, rfl⟩
  apply ht.withProject
  · intro projectId'
    rw [CarbonCredit.mint_refines hmint, Ledger.outstanding_mint, Ledger.amountOf]
    by_cases hsame : projectId' = projectId
    · rw [if_pos hsame, if_pos hsame, hsame, ht.outstanding_eq projectId project' hstored, hnew]
    · rw [if_neg hsame, if_neg hsame, Int.add_zero]
  · exact hle

/-- Every operation keeps issuance conserved, whether it returns or fails. -/
theorem Issuance.step {s : System} {i : Invocation Op} (hs : Sound d s) (ht : Issuance s.peers)
    (hunsigned : i.env.authorized d.market = false) (hfresh : FreshRegistration sha256 s i) :
    Issuance (Kraal.step (exec sha256 d) s i).peers := by
  apply step_induction (P := fun s : System => Issuance s.peers) ht
  intro s' hok
  cases hcall : i.call with
  | registry op =>
      rw [hcall] at hok
      rcases exec_registry.mp hok with ⟨registry, hexec, rfl⟩
      exact ht.registry hs hunsigned hfresh hcall hexec
  | credit op =>
      rw [hcall] at hok
      rcases exec_credit.mp hok with ⟨credit, hexec, rfl⟩
      exact ht.credit hs hunsigned hexec
  | market oracle op =>
      rw [hcall] at hok
      rcases market_cases (exec_market.mp hok) with hpeers |
        ⟨seller, buyer, projectId, amount, hsettles⟩ | ⟨projectId, amount, -, hissues⟩
      · rw [hpeers]
        exact ht
      · exact ht.settles hs.conserved hsettles
      · exact ht.issues hissues

/-! ## Conservation along runs -/

/-- A run in which nobody signs for the marketplace and every registration is fresh. -/
def Disciplined (sha256 : Bytes → BytesN) (d : Deployment) (run : List (Invocation Op)) : Prop :=
  ∀ e ∈ Run.trace (step (exec sha256 d)) (genesis d) run,
    e.2.env.authorized d.market = false ∧ FreshRegistration sha256 e.1 e.2

/-- After every disciplined run, live and retired credits of a project add up to what
the registry has issued, within the allocation of the project. -/
theorem issuance_conserved (sha256 : Bytes → BytesN) (d : Deployment) (run : List (Invocation Op))
    (hrun : Disciplined sha256 d run) (projectId : BytesN) :
    let t := (Run.final (step (exec sha256 d)) (genesis d) run).peers
    (∀ project, t.registry.projects.get projectId = some project →
      (t.credit.totalSupply projectId).toInt + (t.credit.retiredSupply projectId).toInt =
        project.issuedCredits.toInt ∧
      project.issuedCredits.toInt ≤ project.totalCredits.toInt) ∧
    (t.registry.projects.get projectId = none →
      (t.credit.totalSupply projectId).toInt + (t.credit.retiredSupply projectId).toInt = 0) := by
  intro t
  have hfinal : Sound d (Run.final (step (exec sha256 d)) (genesis d) run) ∧ Issuance t := by
    apply Run.final_invariant (I := fun s => Sound d s ∧ Issuance s.peers)
      ⟨sound_genesis d, issuance_genesis d⟩
    intro e he hinv
    exact ⟨hinv.1.step e.2, hinv.2.step hinv.1 (hrun e he).1 (hrun e he).2⟩
  constructor
  · intro project hstored
    exact ⟨hfinal.2.outstanding_eq projectId project hstored,
      hfinal.2.issued_le projectId project hstored⟩
  · exact hfinal.2.unregistered projectId

/-! ## A disciplined run -/

/-- The owner of the issued credits passes some on, and a part of them is retired. -/
def sampleRun : List (Invocation Op) :=
  issuedRun ++
    [⟨.signedBy 4 [⟨1⟩], .credit (.transfer ⟨1⟩ ⟨2⟩ sampleProjectId 30)⟩,
      ⟨.signedBy 5 [⟨2⟩], .credit (.retire ⟨2⟩ sampleProjectId 10 ⟨[1]⟩)⟩]

/-- The sample run is disciplined. -/
theorem sampleRun_disciplined : Disciplined BytesN.mk sampleDeployment sampleRun := by
  intro e he
  simp only [sampleRun, issuedRun, List.cons_append, List.nil_append, Run.trace_cons, Run.trace_nil,
    List.mem_cons, List.not_mem_nil, or_false] at he
  rcases he with rfl | rfl | rfl | rfl | rfl
  · refine ⟨rfl, ?_⟩
    intro owner name totalCredits vintageYear _
    rfl
  all_goals
    refine ⟨rfl, ?_⟩
    intro owner name totalCredits vintageYear hcall
    cases hcall

/-- Of the hundred credits issued in the sample run, ninety are live and ten retired. -/
theorem sampleRun_conserved :
    let t := (Run.final (step (exec BytesN.mk sampleDeployment)) (genesis sampleDeployment)
      sampleRun).peers
    (t.credit.totalSupply sampleProjectId).toInt + (t.credit.retiredSupply sampleProjectId).toInt =
      100 :=
  ((issuance_conserved BytesN.mk sampleDeployment sampleRun sampleRun_disciplined
    sampleProjectId).1 ⟨⟨1⟩, "forest", 1000, 100, .verified, 2024⟩ rfl).1

end CarbonSystem
end Kraal
