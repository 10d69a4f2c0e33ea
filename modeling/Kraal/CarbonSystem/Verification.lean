import Kraal.CarbonSystem.Authority
import Kraal.CarbonSystem.Retirement
import Kraal.Foundation.Journal

/-!
# The history of a project

The record of a project in the registry is what the calls of the whole system have made of
it: the registration that created it, every change of status by the administrator, and every
issue, whether it came from the registry or through the marketplace.  So every call that
needs a verified project rests on a verification by the administrator that still stands.

Main results:

- Theorem {lit}`recordOf_step`: what a step of the system does to a record.
- Theorem {lit}`projects_replayed`: a project is stored exactly if it is the replay of the
  run.
- Theorem {lit}`verification_stands`: the verification behind every issue, mint, listing
  and sale, and behind every increase of a supply.
-/

namespace Kraal
namespace CarbonSystem

open Foundation
open CarbonRegistry (CarbonProject ProjectStatus newProject)

variable {sha256 : Bytes → BytesN} {d : Deployment}

/-! ## Records in exact integers -/

/-- A project whose amounts are exact integers. -/
structure ProjectRecord where
  owner : Address
  name : Symbol
  totalCredits : Int
  issuedCredits : Int
  status : ProjectStatus
  vintageYear : U32
deriving DecidableEq

/-- What the record of a project holds. -/
def projectRecord (project : CarbonProject) : ProjectRecord where
  owner := project.owner
  name := project.name
  totalCredits := project.totalCredits.toInt
  issuedCredits := project.issuedCredits.toInt
  status := project.status
  vintageYear := project.vintageYear

/-- What can happen to a registered project. -/
inductive ProjectEvent where
  | statusSet (status : ProjectStatus)
  | issued (amount : Int)
deriving DecidableEq

/-- What an event does to the record of a project. -/
def ProjectRecord.apply (r : ProjectRecord) : ProjectEvent → ProjectRecord
  | .statusSet status => { r with status := status }
  | .issued amount => { r with issuedCredits := r.issuedCredits + amount }

/-- The record that is stored for a project. -/
def recordOf (s : System) (projectId : BytesN) : Option ProjectRecord :=
  (s.peers.registry.projects.get projectId).map projectRecord

/-! ## What a call is for a project -/

/-- The record that a call creates when it returns. -/
def createdBy (sha256 : Bytes → BytesN) (projectId : BytesN) : Op → Option ProjectRecord
  | .registry (.registerProject owner name totalCredits vintageYear) =>
      if CarbonRegistry.projectId sha256 owner name vintageYear = projectId then
        some (projectRecord (newProject owner name totalCredits vintageYear))
      else none
  | _ => none

/-- The event that a call is when it returns. -/
def eventOf (projectId : BytesN) : Op → Option ProjectEvent
  | .registry (.verifyProject id) => if id = projectId then some (.statusSet .verified) else none
  | .registry (.suspendProject id) => if id = projectId then some (.statusSet .suspended) else none
  | .registry (.retireProject id) => if id = projectId then some (.statusSet .retired) else none
  | .registry (.issueCredits id amount) =>
      if id = projectId then some (.issued amount.toInt) else none
  | .market _ (.mintProjectCredits id amount) =>
      if id = projectId then some (.issued amount.toInt) else none
  | _ => none

/-- What a step that returns is, and nothing if it fails. -/
def ifReturns {α : Type} (sha256 : Bytes → BytesN) (d : Deployment) (what : Op → Option α)
    (e : System × Invocation Op) : Option α :=
  if (exec sha256 d e.2.call).Succeeds e.2.env e.1 then what e.2.call else none

theorem eventOf_statusChange {op : CarbonRegistry.Op} {status : ProjectStatus} {id : BytesN}
    (h : op.statusChange = some (status, id)) (projectId : BytesN) :
    eventOf projectId (.registry op) =
      if id = projectId then some (.statusSet status) else none := by
  cases op with
  | verifyProject id =>
      cases h
      rfl
  | suspendProject id =>
      cases h
      rfl
  | retireProject id =>
      cases h
      rfl
  | _ => cases h

theorem createdBy_statusChange {op : CarbonRegistry.Op} {c : ProjectStatus × BytesN}
    (h : op.statusChange = some c) (projectId : BytesN) :
    createdBy sha256 projectId (.registry op) = none := by
  cases op with
  | registerProject owner name totalCredits vintageYear => cases h
  | _ => rfl

theorem recordOf_of_projects {s s' : System}
    (h : s'.peers.registry.projects = s.peers.registry.projects) (projectId : BytesN) :
    recordOf s' projectId = recordOf s projectId := by
  rw [recordOf, recordOf, h]

/-- Writing a row over an old one applies the event that it stands for. -/
theorem recordOf_withProject {s s' : System} {id : BytesN} {old new : CarbonProject}
    {k : ProjectEvent} (hstored : s.peers.registry.projects.get id = some old)
    (hwritten : s'.peers.registry = s.peers.registry.withProject id new)
    (hnew : projectRecord new = (projectRecord old).apply k) (projectId : BytesN) :
    recordOf s' projectId = (recordOf s projectId).map fun r =>
      (if id = projectId then some k else none).elim r r.apply := by
  by_cases hid : id = projectId
  · subst hid
    rw [recordOf, recordOf, hwritten, CarbonRegistry.Store.withProject_get]
    simp [hstored, hnew]
  · have hsame : recordOf s' projectId = recordOf s projectId := by
      rw [recordOf, recordOf, hwritten, CarbonRegistry.Store.withProject_get,
        if_neg (Ne.symm hid)]
    simp [hid, hsame]

/-- What a call on the registry does to a record. -/
theorem recordOf_registry {s : System} {env : Env} {op : CarbonRegistry.Op}
    {registry : CarbonRegistry.Store}
    (hexec : CarbonRegistry.exec sha256 op env s.peers.registry = .ok ((), registry))
    (projectId : BytesN) :
    recordOf (s.withPeers (s.peers.withRegistry registry)) projectId =
      (createdBy sha256 projectId (.registry op)).or ((recordOf s projectId).map fun r =>
        (eventOf projectId (.registry op)).elim r r.apply) := by
  rcases CarbonRegistry.exec_cases hexec with ⟨admin, marketplace, rfl, -, rfl⟩ |
    ⟨owner, name, totalCredits, vintageYear, rfl, -, rfl⟩ |
    ⟨status, id, cfg, project, hop, -, -, hproject, rfl⟩ |
    ⟨id, amount, cfg, project, newIssued, rfl, -, -, -, hproject, -, hissued, -, rfl⟩
  · rw [recordOf_of_projects (s := s) (by rfl)]
    simp [createdBy, eventOf]
  · by_cases hid : CarbonRegistry.projectId sha256 owner name vintageYear = projectId
    · subst hid
      simp [createdBy, recordOf, CarbonRegistry.Store.withProject_get]
    · have hsame : recordOf (s.withPeers (s.peers.withRegistry (s.peers.registry.withProject
          (CarbonRegistry.projectId sha256 owner name vintageYear)
          (newProject owner name totalCredits vintageYear)))) projectId = recordOf s projectId := by
        simp [recordOf, CarbonRegistry.Store.withProject_get, Ne.symm hid]
      rw [hsame]
      simp [createdBy, eventOf, hid]
  · rw [createdBy_statusChange hop, eventOf_statusChange hop, Option.none_or]
    exact recordOf_withProject hproject rfl rfl projectId
  · refine recordOf_withProject (k := .issued amount.toInt) hproject rfl ?_ projectId
    simp [projectRecord, ProjectRecord.apply, hissued]

/-- What a call on the marketplace does to a record. -/
theorem recordOf_market {s s' : System} {env : Env} {oracle : Oracle} {op : CarbonMarketplace.Op}
    (hexec : CarbonMarketplace.exec sha256 (wiredPeers d oracle) op env s = .ok ((), s'))
    (projectId : BytesN) :
    recordOf s' projectId = (recordOf s projectId).map fun r =>
      (eventOf projectId (.market oracle op)).elim r r.apply := by
  rcases market_peers hexec with ⟨hpeers, hother⟩ |
    ⟨buyer, listingId, paymentAmount, maxLedger, listing, rfl, -, burned, credit, -, -, hpeers⟩ |
    ⟨id, amount, rfl, registry, project, credit, hissue, -, -, hpeers⟩
  · have hevent : eventOf projectId (.market oracle op) = none := by
      cases op with
      | mintProjectCredits id amount => exact absurd rfl (hother id amount)
      | _ => rfl
    rw [recordOf_of_projects (s := s) (by rw [hpeers]), hevent]
    simp
  · rw [recordOf_of_projects (s := s) (by rw [hpeers]; rfl)]
    simp [eventOf]
  · rcases CarbonRegistry.issueCredits_eq_ok.mp hissue with
      ⟨cfg, old, newIssued, -, -, -, hproject, -, hissued, -, rfl⟩
    refine recordOf_withProject (k := .issued amount.toInt) hproject
      (congrArg CarbonStores.registry hpeers) ?_ projectId
    simp [projectRecord, ProjectRecord.apply, hissued]

/-- What a step of the system does to a record. -/
theorem recordOf_step (projectId : BytesN) (s : System) (i : Invocation Op) :
    recordOf (step (exec sha256 d) s i) projectId =
      (ifReturns sha256 d (createdBy sha256 projectId) (s, i)).or
        ((recordOf s projectId).map fun r =>
          (ifReturns sha256 d (eventOf projectId) (s, i)).elim r r.apply) := by
  by_cases hsucceeds : (exec sha256 d i.call).Succeeds i.env s
  · rw [ifReturns, ifReturns, if_pos hsucceeds, if_pos hsucceeds]
    rcases hsucceeds with ⟨⟨⟨⟩, s'⟩, hok⟩
    rw [step_of_ok hok]
    cases hcall : i.call with
    | registry op =>
        rw [hcall] at hok
        rcases exec_registry.mp hok with ⟨registry, hexec, rfl⟩
        exact recordOf_registry hexec projectId
    | credit op =>
        rw [hcall] at hok
        rcases exec_credit.mp hok with ⟨credit, -, rfl⟩
        rw [recordOf_of_projects (s := s) (by rfl)]
        simp [createdBy, eventOf]
    | market oracle op =>
        rw [hcall] at hok
        exact recordOf_market (exec_market.mp hok) projectId
  · rw [ifReturns, ifReturns, if_neg hsucceeds, if_neg hsucceeds,
      step_of_not_succeeds hsucceeds]
    simp

/-- The journal of a project. -/
def projectJournal (sha256 : Bytes → BytesN) (d : Deployment) (projectId : BytesN) :
    Journal (step (exec sha256 d)) ProjectRecord ProjectEvent where
  read s := recordOf s projectId
  created := ifReturns sha256 d (createdBy sha256 projectId)
  event := ifReturns sha256 d (eventOf projectId)
  apply := ProjectRecord.apply
  read_step := recordOf_step projectId

/-- A project is stored exactly if it is the replay of the run: the last registration under
its id, changed by the status changes and the issues that have returned since. -/
theorem projects_replayed (sha256 : Bytes → BytesN) (d : Deployment) (run : List (Invocation Op))
    (projectId : BytesN) (r : ProjectRecord) :
    recordOf (Run.final (step (exec sha256 d)) (genesis d) run) projectId = some r ↔
      (projectJournal sha256 d projectId).Replays
        (Run.trace (step (exec sha256 d)) (genesis d) run) r :=
  (projectJournal sha256 d projectId).read_final_iff rfl run

/-! ## The verification behind an issue -/

/-- What an event does to the status of a project. -/
def ProjectEvent.newStatus : ProjectEvent → Option ProjectStatus
  | .statusSet status => some status
  | .issued _ => none

theorem status_apply (r : ProjectRecord) (k : ProjectEvent) :
    (r.apply k).status = k.newStatus.getD r.status := by
  cases k <;> rfl

/-- The status of a project. -/
def statusRegister (sha256 : Bytes → BytesN) (d : Deployment) (projectId : BytesN) :
    Register (step (exec sha256 d)) ProjectStatus :=
  (projectJournal sha256 d projectId).register ProjectRecord.status ProjectEvent.newStatus
    status_apply

/-- A step verifies a project, on behalf of the administrator of the registry. -/
def Verifies (sha256 : Bytes → BytesN) (d : Deployment) (projectId : BytesN)
    (e : System × Invocation Op) : Prop :=
  e.2.call = .registry (.verifyProject projectId) ∧ e.2.env.authorized d.registryAdmin = true ∧
    (exec sha256 d e.2.call).Succeeds e.2.env e.1

/-- A step registers a project or sets its status. -/
def SetsStatus (sha256 : Bytes → BytesN) (d : Deployment) (projectId : BytesN)
    (e : System × Invocation Op) : Prop :=
  (exec sha256 d e.2.call).Succeeds e.2.env e.1 ∧ ∃ op, e.2.call = .registry op ∧
    ((∃ status, op.statusChange = some (status, projectId)) ∨
    ∃ owner name totalCredits vintageYear,
      op = .registerProject owner name totalCredits vintageYear ∧
      CarbonRegistry.projectId sha256 owner name vintageYear = projectId)

theorem ifReturns_eq_some {α : Type} {what : Op → Option α} {e : System × Invocation Op} {a : α} :
    ifReturns sha256 d what e = some a ↔
      (exec sha256 d e.2.call).Succeeds e.2.env e.1 ∧ what e.2.call = some a := by
  unfold ifReturns
  split <;> simp_all

/-- A registration leaves a project pending. -/
theorem createdBy_status {op : Op} {projectId : BytesN} {r : ProjectRecord}
    (h : createdBy sha256 projectId op = some r) : r.status = .pending := by
  unfold createdBy at h
  split at h
  · split at h
    · cases h
      rfl
    · cases h
  · cases h

/-- The event that verifies a project is a call of one entry point. -/
theorem eventOf_verified {op : Op} {projectId : BytesN}
    (h : eventOf projectId op = some (.statusSet .verified)) :
    op = .registry (.verifyProject projectId) := by
  unfold eventOf at h
  split at h
  · split at h
    · next hid => rw [hid]
    · cases h
  all_goals simp at h

/-- What a step writes to the status of a project. -/
theorem statusRegister_written {e : System × Invocation Op} {projectId : BytesN}
    {status : ProjectStatus} :
    (statusRegister sha256 d projectId).written e = some status ↔
      (∃ r, ifReturns sha256 d (createdBy sha256 projectId) e = some r ∧ r.status = status) ∨
      ifReturns sha256 d (createdBy sha256 projectId) e = none ∧
        (recordOf e.1 projectId).isSome = true ∧
        ifReturns sha256 d (eventOf projectId) e = some (.statusSet status) := by
  have hevent : ∀ k : ProjectEvent, k.newStatus = some status ↔ k = .statusSet status := by
    intro k
    cases k <;> simp [ProjectEvent.newStatus]
  simp only [statusRegister, Journal.register, projectJournal, Option.or_eq_some_iff,
    Option.map_eq_some_iff, Option.map_eq_none_iff, Option.bind_eq_some_iff, hevent,
    Option.isSome_iff_exists, exists_eq_right]
  simp only [exists_and_right]

/-- A step that writes the status verified is a verification. -/
theorem verifies_of_written {e : System × Invocation Op} {projectId : BytesN} (hwired : Wired d e.1)
    (h : (statusRegister sha256 d projectId).written e = some .verified) :
    Verifies sha256 d projectId e := by
  rcases statusRegister_written.mp h with ⟨r, hcreated, hstatus⟩ | ⟨-, -, hevent⟩
  · rw [createdBy_status (ifReturns_eq_some.mp hcreated).2] at hstatus
    cases hstatus
  · rcases ifReturns_eq_some.mp hevent with ⟨hsucceeds, hcalled⟩
    have hcall := eventOf_verified hcalled
    refine ⟨hcall, ?_, hsucceeds⟩
    rcases hsucceeds with ⟨⟨⟨⟩, s'⟩, hok⟩
    rw [hcall] at hok
    rcases exec_registry.mp hok with ⟨registry, hexec, -⟩
    have hset : CarbonRegistry.setStatus .verified projectId e.2.env e.1.peers.registry =
        .ok ((), registry) := hexec
    rcases CarbonRegistry.setStatus_eq_ok.mp hset with ⟨cfg, project, hcfg, hauth, -⟩
    rw [hwired.registry_config, Option.some.injEq] at hcfg
    subst hcfg
    exact hauth

/-- A step that registers a project or sets its status writes the status. -/
theorem SetsStatus.written {e : System × Invocation Op} {projectId : BytesN}
    (h : SetsStatus sha256 d projectId e) :
    ((statusRegister sha256 d projectId).written e).isSome = true := by
  rw [Option.isSome_iff_exists]
  rcases h with ⟨hsucceeds, op, hcall, ⟨status, hop⟩ |
    ⟨owner, name, totalCredits, vintageYear, rfl, hid⟩⟩
  · refine ⟨status, statusRegister_written.mpr (.inr ⟨?_, ?_, ?_⟩)⟩
    · simp [ifReturns, hcall, createdBy_statusChange hop]
    · rcases hsucceeds with ⟨⟨⟨⟩, s'⟩, hok⟩
      rw [hcall] at hok
      rcases exec_registry.mp hok with ⟨registry, hexec, -⟩
      rw [CarbonRegistry.exec_of_statusChange hop] at hexec
      rcases CarbonRegistry.setStatus_eq_ok.mp hexec with ⟨cfg, project, -, -, hproject, -⟩
      simp [recordOf, hproject]
    · rw [ifReturns_eq_some, hcall, eventOf_statusChange hop, if_pos rfl]
      rw [hcall] at hsucceeds
      exact ⟨hsucceeds, rfl⟩
  · refine ⟨.pending, statusRegister_written.mpr (.inl
      ⟨projectRecord (newProject owner name totalCredits vintageYear), ?_, rfl⟩)⟩
    rw [ifReturns_eq_some, hcall, createdBy, if_pos hid]
    rw [hcall] at hsucceeds
    exact ⟨hsucceeds, rfl⟩

/-! ## Supplies -/

/-- The live supply of a project in the credit contract. -/
def liveSupply (s : System) (projectId : BytesN) : Int :=
  (s.peers.credit.totalSupply projectId).toInt

/-- A step that raises the supply of a project is a call that needs the project verified. -/
theorem needed_of_supply_lt {s : System} (hs : Sound d s) {i : Invocation Op} {projectId : BytesN}
    (hlt : liveSupply s projectId < liveSupply (step (exec sha256 d) s i) projectId) :
    neededProject s i.call = some projectId ∧ (exec sha256 d i.call).Succeeds i.env s := by
  by_cases hsucceeds : (exec sha256 d i.call).Succeeds i.env s
  · refine ⟨?_, hsucceeds⟩
    rcases hsucceeds with ⟨⟨⟨⟩, s'⟩, hok⟩
    rw [step_of_ok hok] at hlt
    cases hcall : i.call with
    | registry op =>
        rw [hcall] at hok
        rcases exec_registry.mp hok with ⟨registry, -, rfl⟩
        exact absurd hlt (lt_irrefl _)
    | credit op =>
        rw [hcall] at hok
        rcases exec_credit.mp hok with ⟨credit, hexec, rfl⟩
        have hledger : s.peers.credit.ledger.supply projectId <
            (op.movements.foldl Ledger.apply s.peers.credit.ledger).supply projectId := by
          rw [← CarbonCredit.exec_refines hs.conserved hexec]
          exact hlt
        rcases Ledger.exists_mint (fun m hm => (movements_pos hexec m hm).le) hledger with
          ⟨recipient, n, hmem⟩
        cases op with
        | mint recipient' projectId' amount =>
            cases List.mem_singleton.mp hmem
            rfl
        | batchTransfer sender transfers =>
            rcases List.mem_map.mp hmem with ⟨t, -, ht⟩
            cases ht
        | initializeContract admin registry marketplace => cases hmem
        | transfer sender recipient' projectId' amount => cases List.mem_singleton.mp hmem
        | burn owner projectId' amount => cases List.mem_singleton.mp hmem
        | retire owner projectId' amount operationId => cases List.mem_singleton.mp hmem
    | market oracle op =>
        rw [hcall] at hok
        rcases market_peers (exec_market.mp hok) with ⟨hpeers, -⟩ |
          ⟨buyer, listingId, paymentAmount, maxLedger, listing, rfl, -, hsettles⟩ |
          ⟨id, amount, rfl, registry, project, credit, -, -, hmint, hpeers⟩
        · unfold liveSupply at hlt
          rw [hpeers] at hlt
          exact absurd hlt (lt_irrefl _)
        · have hsame := congrArg (fun L : Ledger Address BytesN => L.supply projectId)
            (hsettles.ledger hs.conserved).2.2
          exact absurd hsame (ne_of_gt hlt)
        · by_contra hother
          have hledger := CarbonCredit.mint_refines hmint
          have hsupply : s'.peers.credit.ledger.supply projectId =
              s.peers.credit.ledger.supply projectId +
                Ledger.amountOf id amount.toInt projectId := by
            rw [hpeers, CarbonStores.withCredit_credit, hledger]
            rfl
          have hne : projectId ≠ id := by
            intro hid
            subst hid
            exact hother rfl
          rw [Ledger.amountOf, if_neg hne, Int.add_zero] at hsupply
          exact absurd hsupply (ne_of_gt hlt)
  · rw [step_of_not_succeeds hsucceeds] at hlt
    exact absurd hlt (lt_irrefl _)

/-! ## Standing verifications -/

/-- A step needs a verified project: it returns from a call that lists, sells, issues or mints
for the project, or it raises the supply of the project in some other way. -/
def NeedsVerified (sha256 : Bytes → BytesN) (d : Deployment) (e : System × Invocation Op)
    (projectId : BytesN) : Prop :=
  neededProject e.1 e.2.call = some projectId ∧ (exec sha256 d e.2.call).Succeeds e.2.env e.1 ∨
    liveSupply e.1 projectId < liveSupply (step (exec sha256 d) e.1 e.2) projectId

/-- Behind every step of every run that needs a verified project stands a verification by
the administrator of the registry, after which nothing has set the status or registered the
project anew. -/
theorem verification_stands (sha256 : Bytes → BytesN) (d : Deployment)
    (run : List (Invocation Op)) (before rest : List (System × Invocation Op))
    (e : System × Invocation Op)
    (hsplit : Run.trace (step (exec sha256 d)) (genesis d) run = before ++ e :: rest)
    (projectId : BytesN) (hneeds : NeedsVerified sha256 d e projectId) :
    Run.Since (Verifies sha256 d projectId) (SetsStatus sha256 d projectId) before := by
  rcases Run.trace_split hsplit with ⟨pre, post, -, rfl, hstate⟩
  have hsound : ∀ x ∈ Run.trace (step (exec sha256 d)) (genesis d) pre, Sound d x.1 := by
    intro x hx
    exact reachable_sound (Run.reachable_of_mem_trace hx)
  have hverified : HasStatus .verified projectId e.1 := by
    rcases hneeds with ⟨hneeded, hsucceeds⟩ | hraised
    · exact succeeds_needs_verified hneeded hsucceeds
    · have hreachable : Sound d e.1 := by
        rw [hstate]
        exact reachable_sound ⟨pre, rfl⟩
      rcases needed_of_supply_lt hreachable hraised with ⟨hneeded, hsucceeds⟩
      exact succeeds_needs_verified hneeded hsucceeds
  rcases hverified with ⟨project, hproject, hstatus⟩
  have hread : (statusRegister sha256 d projectId).read
      (Run.final (step (exec sha256 d)) (genesis d) pre) = some .verified := by
    rw [← hstate]
    simp [statusRegister, Journal.register, projectJournal, recordOf, hproject, projectRecord,
      hstatus]
  have hsince := (statusRegister sha256 d projectId).since_of_read rfl hread
  rcases hsince with ⟨first, x, between, hpast, hwritten, hbetween⟩
  have hx : x ∈ Run.trace (step (exec sha256 d)) (genesis d) pre := by
    rw [hpast]
    exact List.mem_append_right _ List.mem_cons_self
  refine ⟨first, x, between, hpast, verifies_of_written (hsound x hx).wired hwritten, ?_⟩
  intro y hy hsets
  exact hbetween y hy hsets.written

theorem samplePurchase_verified :
    let past := Run.trace (step (exec BytesN.mk sampleDeployment)) (genesis sampleDeployment)
      listedRun
    Run.Since (Verifies BytesN.mk sampleDeployment sampleProjectId)
      (SetsStatus BytesN.mk sampleDeployment sampleProjectId) past := by
  intro past
  refine verification_stands BytesN.mk sampleDeployment (listedRun ++ [samplePurchase]) past []
    (Run.final (step (exec BytesN.mk sampleDeployment)) (genesis sampleDeployment) listedRun,
      samplePurchase) ?_ sampleProjectId (.inl ⟨?_, ?_⟩)
  · exact Run.trace_append _ listedRun [samplePurchase]
  · decide +kernel
  · decide +kernel

end CarbonSystem
end Kraal
