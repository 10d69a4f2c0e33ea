import Kraal.CarbonSystem.Wiring

/-!
# Retirement of projects

Retirement is meant to be permanent, but the three status changes are one unguarded
write: the administrator can verify or suspend a retired project, and a registration
that derives its id replaces it.  These are the only ways out, and while none of them
is taken nothing is issued, minted, listed or sold for the project.

Main results:

- Theorem {lit}`succeeds_needs_verified`: the operations that need a verified project.
- Theorem {lit}`HasStatus.step_retired`: a step keeps a project retired unless it
  revives it.
- Theorem {lit}`staysRetired_iff`: a project stays retired along a run exactly when no
  step of it revives the project.
- Theorem {lit}`retirement_reverted`: the administrator verifies a retired project and
  credits are issued for it again.
-/

namespace Kraal
namespace CarbonSystem

open Foundation
open CarbonRegistry (CarbonProject ProjectStatus)

variable {sha256 : Bytes → BytesN} {d : Deployment}

/-! ## Operations that need a verified project -/

/-- The project that an operation can only succeed for while it is verified. -/
def neededProject (s : System) : Op → Option BytesN
  | .registry (.issueCredits id _) => some id
  | .credit (.mint _ projectId _) => some projectId
  | .market _ (.createListing _ projectId _ _) => some projectId
  | .market _ (.purchaseListing _ listingId _ _) =>
      (s.market.listings.get listingId).map fun listing => listing.projectId
  | .market _ (.mintProjectCredits projectId _) => some projectId
  | _ => none

/-- A project is stored with the given status. -/
def HasStatus (status : ProjectStatus) (projectId : BytesN) (s : System) : Prop :=
  ∃ project, s.peers.registry.projects.get projectId = some project ∧ project.status = status

theorem HasStatus.unique {status status' : ProjectStatus} {projectId : BytesN} {s : System}
    (h : HasStatus status projectId s) (h' : HasStatus status' projectId s) : status = status' := by
  rcases h with ⟨project, hproject, rfl⟩
  rcases h' with ⟨project', hproject', rfl⟩
  rw [hproject, Option.some.injEq] at hproject'
  rw [hproject']

/-- Credits are issued, minted, listed and sold for verified projects only. -/
theorem succeeds_needs_verified {s : System} {op : Op} {env : Env} {projectId : BytesN}
    (hneeded : neededProject s op = some projectId)
    (hsucceeds : (exec sha256 d op).Succeeds env s) : HasStatus .verified projectId s := by
  rcases hsucceeds with ⟨⟨_, s'⟩, hok⟩
  cases op with
  | registry op =>
      rcases exec_registry.mp hok with ⟨registry, hexec, -⟩
      cases op with
      | issueCredits id amount =>
          cases hneeded
          rcases CarbonRegistry.issueCredits_eq_ok.mp hexec with
            ⟨cfg, project, newIssued, -, -, -, hproject, hverified, -⟩
          exact ⟨project, hproject, hverified⟩
      | _ => cases hneeded
  | credit op =>
      rcases exec_credit.mp hok with ⟨credit, hexec, -⟩
      cases op with
      | mint recipient projectId amount =>
          cases hneeded
          rcases CarbonCredit.mint_eq_ok.mp hexec with
            ⟨⟨cfg, project, -, -, -, hquery, hverified⟩, -⟩
          exact ⟨project, (registryQuery_eq_some.mp hquery).2, hverified⟩
      | _ => cases hneeded
  | market oracle op =>
      have hexec := exec_market.mp hok
      cases op with
      | createListing seller projectId amount pricePerCredit =>
          cases hneeded
          rcases Call.bind_eq_ok.mp hexec with ⟨id, u, hcall, -⟩
          rcases CarbonMarketplace.createListing_eq_ok.mp hcall with
            ⟨t, nextNonce, haccepted, -, -, -⟩
          rcases haccepted with ⟨cfg, t₁, project, t₂, balance, -, -, -, hfresh, -, -, hproject,
            hverified, -, -⟩
          rw [freshPrice_stores hfresh] at hproject
          exact ⟨project, (wiredPeers_getProject.mp hproject).2.1, hverified⟩
      | purchaseListing buyer listingId paymentAmount maxLedger =>
          rcases CarbonMarketplace.purchaseListing_eq_ok.mp hexec with
            ⟨cfg, listing, t, t₁, project, t₂, t₃, hchecked, hproject, hverified, -, -, -⟩
          simp only [neededProject, hchecked.stored, Option.map_some, Option.some.injEq] at hneeded
          subst hneeded
          rw [freshPrice_stores hchecked.fresh] at hproject
          exact ⟨project, (wiredPeers_getProject.mp hproject).2.1, hverified⟩
      | mintProjectCredits projectId amount =>
          cases hneeded
          rcases CarbonMarketplace.mintProjectCredits_eq_ok.mp hexec with
            ⟨cfg, t₁, project, t₂, t₃, -, -, -, -, hissue, -, -, -⟩
          rcases wiredPeers_issueCredits.mp hissue with ⟨-, registry, hissued, -⟩
          rcases CarbonRegistry.issueCredits_eq_ok.mp hissued with
            ⟨cfg', project', newIssued, -, -, -, hproject, hverified, -⟩
          exact ⟨project', hproject, hverified⟩
      | _ => cases hneeded

/-! ## Ways out of retirement -/

/-- A step takes a stored project out of retirement: the administrator of the registry
verifies or suspends it, or an accepted registration derives its id. -/
def Revives (sha256 : Bytes → BytesN) (d : Deployment) (e : System × Invocation Op)
    (projectId : BytesN) : Prop :=
  ∃ op, e.2.call = .registry op ∧
    ((∃ status, op.statusChange = some (status, projectId) ∧ status ≠ .retired ∧
      e.2.env.authorized d.registryAdmin = true) ∨
    ∃ owner name totalCredits vintageYear,
      op = .registerProject owner name totalCredits vintageYear ∧
      CarbonRegistry.projectId sha256 owner name vintageYear = projectId ∧
      e.2.env.authorized owner = true ∧ 0 < totalCredits.toInt)

/-- Writing a project row keeps the status of a project unless it is written anew. -/
theorem HasStatus.withProject {status : ProjectStatus} {projectId projectId' : BytesN}
    {s : System} {registry : CarbonRegistry.Store} {project : CarbonProject}
    (hs : HasStatus status projectId s)
    (hrows : registry.projects = (s.peers.registry.withProject projectId' project).projects)
    (hsame : projectId = projectId' → project.status = status) {s' : System}
    (hs' : s'.peers.registry = registry) : HasStatus status projectId s' := by
  rcases hs with ⟨old, hold, hstatus⟩
  unfold HasStatus
  rw [hs', hrows, CarbonRegistry.Store.withProject_get]
  by_cases hid : projectId = projectId'
  · rw [if_pos hid]
    exact ⟨project, rfl, hsame hid⟩
  · rw [if_neg hid]
    exact ⟨old, hold, hstatus⟩

/-- A retired project stays retired in a step that does not revive it. -/
theorem HasStatus.step_retired {s : System} {i : Invocation Op} {projectId : BytesN}
    (hwired : Wired d s) (hs : HasStatus .retired projectId s)
    (hnot : ¬ Revives sha256 d (s, i) projectId) :
    HasStatus .retired projectId (step (exec sha256 d) s i) := by
  apply step_induction hs
  intro s' hok
  cases hcall : i.call with
  | registry op =>
      rw [hcall] at hok
      rcases exec_registry.mp hok with ⟨registry, hexec, rfl⟩
      rcases CarbonRegistry.exec_cases hexec with ⟨admin, marketplace, -, -, rfl⟩ |
        ⟨owner, name, totalCredits, vintageYear, hop, haccepted, rfl⟩ |
        ⟨status, id, cfg, project, hop, hcfg, hauth, hproject, rfl⟩ |
        ⟨id, amount, cfg, project, newIssued, -, -, -, -, hproject, hverified, -, -, rfl⟩
      · exact hs
      · refine hs.withProject rfl ?_ rfl
        intro hid
        exact absurd ⟨op, hcall, .inr ⟨owner, name, totalCredits, vintageYear, hop, hid.symm,
          haccepted.1, haccepted.2.2⟩⟩ hnot
      · refine hs.withProject rfl ?_ rfl
        intro hsame
        subst hsame
        by_contra hstatus
        rw [hwired.registry_config, Option.some.injEq] at hcfg
        subst hcfg
        exact hnot ⟨op, hcall, .inl ⟨status, hop, hstatus, hauth⟩⟩
      · refine hs.withProject rfl ?_ rfl
        intro hsame
        subst hsame
        exact (hs.unique ⟨project, hproject, rfl⟩).symm
  | credit op =>
      rw [hcall] at hok
      rcases exec_credit.mp hok with ⟨credit, -, rfl⟩
      exact hs
  | market oracle op =>
      rw [hcall] at hok
      rcases market_cases (exec_market.mp hok) with hpeers |
        ⟨seller, buyer, projectId', amount, burned, credit, -, -, hpeers⟩ |
        ⟨projectId', amount, -, registry, project, credit, hissue, -, -, hpeers⟩
      · unfold HasStatus
        rw [hpeers]
        exact hs
      · unfold HasStatus
        rw [hpeers]
        exact hs
      · rcases CarbonRegistry.issueCredits_eq_ok.mp hissue with
          ⟨cfg, project', newIssued, -, -, -, hproject, -, -, -, rfl⟩
        refine hs.withProject rfl ?_ (congrArg CarbonStores.registry hpeers)
        intro hsame
        subst hsame
        exact (hs.unique ⟨project', hproject, rfl⟩).symm

/-- A step that revives a retired project leaves it in another status. -/
theorem Revives.status {s : System} {i : Invocation Op} {projectId : BytesN}
    (hwired : Wired d s) (hs : HasStatus .retired projectId s)
    (h : Revives sha256 d (s, i) projectId) :
    ∃ status, status ≠ .retired ∧ HasStatus status projectId (step (exec sha256 d) s i) := by
  rcases h with ⟨op, hcall, ⟨status, hop, hstatus, hauth⟩ |
    ⟨owner, name, totalCredits, vintageYear, rfl, hid, hauth, hpos⟩⟩
  · rcases hs with ⟨project, hproject, -⟩
    have hset : CarbonRegistry.exec sha256 op i.env s.peers.registry =
        .ok ((), s.peers.registry.withProject projectId { project with status := status }) := by
      rw [CarbonRegistry.exec_of_statusChange hop]
      exact CarbonRegistry.setStatus_eq_ok.mpr
        ⟨_, project, hwired.registry_config, hauth, hproject, rfl⟩
    refine ⟨status, hstatus, { project with status := status }, ?_, rfl⟩
    rw [step_of_ok (hcall ▸ exec_registry.mpr ⟨_, hset, rfl⟩)]
    exact Storage.get_set_self _ _ _
  · subst hid
    have hregister : CarbonRegistry.exec sha256
        (.registerProject owner name totalCredits vintageYear) i.env s.peers.registry =
        .ok ((), s.peers.registry.withProject
          (CarbonRegistry.projectId sha256 owner name vintageYear)
          (CarbonRegistry.newProject owner name totalCredits vintageYear)) := by
      rw [CarbonRegistry.exec, Call.bind_eq_ok]
      exact ⟨_, _, CarbonRegistry.registerProject_eq_ok.mpr
        ⟨⟨hauth, by rw [hwired.registry_config]; rfl, hpos⟩, rfl, rfl⟩, rfl⟩
    refine ⟨.pending, by decide,
      CarbonRegistry.newProject owner name totalCredits vintageYear, ?_, rfl⟩
    rw [step_of_ok (hcall ▸ exec_registry.mpr ⟨_, hregister, rfl⟩)]
    exact Storage.get_set_self _ _ _

/-! ## Permanence along runs -/

/-- A project is retired in every state that a run visits, and no operation of the run
that needs it verified succeeds. -/
def StaysRetired (sha256 : Bytes → BytesN) (d : Deployment) (s : System)
    (run : List (Invocation Op)) (projectId : BytesN) : Prop :=
  (∀ t, Run.Visits (step (exec sha256 d)) s run t → HasStatus .retired projectId t) ∧
  ∀ e ∈ Run.trace (step (exec sha256 d)) s run, neededProject e.1 e.2.call = some projectId →
    ¬ (exec sha256 d e.2.call).Succeeds e.2.env e.1

/-- No step of a run revives a project. -/
def NeverRevived (sha256 : Bytes → BytesN) (d : Deployment) (s : System)
    (run : List (Invocation Op)) (projectId : BytesN) : Prop :=
  ∀ e ∈ Run.trace (step (exec sha256 d)) s run, ¬ Revives sha256 d e projectId

/-- From any reachable state in which a project is retired, it stays retired along a run
exactly when no step of the run revives it. -/
theorem staysRetired_iff (sha256 : Bytes → BytesN) (d : Deployment)
    (before run : List (Invocation Op)) (projectId : BytesN)
    (hretired : HasStatus .retired projectId
      (Run.final (step (exec sha256 d)) (genesis d) before)) :
    StaysRetired sha256 d (Run.final (step (exec sha256 d)) (genesis d) before) run projectId ↔
      NeverRevived sha256 d (Run.final (step (exec sha256 d)) (genesis d) before) run
        projectId := by
  have hwired : ∀ e ∈ Run.trace (step (exec sha256 d))
      (Run.final (step (exec sha256 d)) (genesis d) before) run, Wired d e.1 :=
    Run.trace_invariant (reachable_sound ⟨before, rfl⟩).wired fun e _ hs => hs.step e.2
  constructor
  · intro hstays e he hrevives
    have hbefore := hstays.1 e.1 (Run.visits_of_mem_trace he)
    have hafter := hstays.1 _ (Run.visits_step he)
    rcases hrevives.status (hwired e he) hbefore with ⟨status, hstatus, hnow⟩
    exact hstatus (hnow.unique hafter)
  · intro hnever
    have hkeep : ∀ e ∈ Run.trace (step (exec sha256 d))
        (Run.final (step (exec sha256 d)) (genesis d) before) run,
        HasStatus .retired projectId e.1 →
        HasStatus .retired projectId (step (exec sha256 d) e.1 e.2) :=
      fun e he hs => hs.step_retired (hwired e he) (hnever e he)
    refine ⟨Run.visits_invariant hretired hkeep, ?_⟩
    intro e he hneeded hsucceeds
    have hnow := Run.trace_invariant hretired hkeep e he
    cases (succeeds_needs_verified hneeded hsucceeds).unique hnow

/-! ## Runs after a retirement -/

/-- The administrator retires the project of the sample run. -/
def retiredRun : List (Invocation Op) :=
  issuedRun ++ [⟨.signedBy 4 [⟨10⟩], .registry (.retireProject sampleProjectId)⟩]

/-- The administrator verifies the retired project, and credits are issued for it. -/
def revivingRun : List (Invocation Op) :=
  [⟨.signedBy 5 [⟨10⟩], .registry (.verifyProject sampleProjectId)⟩,
    ⟨.signedBy 6 [⟨12⟩], .market noOracle (.mintProjectCredits sampleProjectId 50)⟩]

/-- Issue is tried without verification, and the project is retired once more. -/
def idleRun : List (Invocation Op) :=
  [⟨.signedBy 5 [⟨12⟩], .market noOracle (.mintProjectCredits sampleProjectId 50)⟩,
    ⟨.signedBy 6 [⟨10⟩], .registry (.retireProject sampleProjectId)⟩]

theorem retiredRun_retired :
    HasStatus .retired sampleProjectId
      (Run.final (step (exec BytesN.mk sampleDeployment)) (genesis sampleDeployment) retiredRun) :=
  ⟨_, rfl, rfl⟩

/-- A retired project is verified again, and credits are issued for it. -/
theorem retirement_reverted :
    HasStatus .retired sampleProjectId
      (Run.final (step (exec BytesN.mk sampleDeployment)) (genesis sampleDeployment) retiredRun) ∧
    ¬ StaysRetired BytesN.mk sampleDeployment
      (Run.final (step (exec BytesN.mk sampleDeployment)) (genesis sampleDeployment) retiredRun)
      revivingRun sampleProjectId := by
  refine ⟨retiredRun_retired, ?_⟩
  intro hstays
  exact hstays.2 _ (List.mem_cons_of_mem _ List.mem_cons_self) rfl ⟨_, rfl⟩

theorem idleRun_retired :
    StaysRetired BytesN.mk sampleDeployment
      (Run.final (step (exec BytesN.mk sampleDeployment)) (genesis sampleDeployment) retiredRun)
      idleRun sampleProjectId := by
  apply (staysRetired_iff BytesN.mk sampleDeployment retiredRun idleRun sampleProjectId
    retiredRun_retired).mpr
  intro e he
  simp only [idleRun, Run.trace_cons, Run.trace_nil, List.mem_cons, List.not_mem_nil,
    or_false] at he
  rcases he with rfl | rfl
  · intro h
    rcases h with ⟨op, hcall, -⟩
    cases hcall
  · intro h
    rcases h with ⟨op, hcall,
      ⟨status, hop, hstatus, -⟩ | ⟨owner, name, totalCredits, vintageYear, hop, -⟩⟩
    · cases hcall
      cases hop
      exact hstatus rfl
    · cases hcall
      cases hop

end CarbonSystem
end Kraal
