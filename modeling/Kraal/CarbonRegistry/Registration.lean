import Kraal.CarbonRegistry.Contract

/-!
# Registrations of the carbon registry

A registration writes its project without looking whether the id is taken, and
the id is the hash of the vintage year alone.  This module says which runs are
nevertheless free of overwritten records and of shared ids: exactly those in
which no accepted registration meets a project of its own vintage year other than
the very record it writes.

Main results:

- Theorem {lit}`reachable_vintageKeyed`: every stored project lies under the
  hash of its vintage year.
- Theorem {lit}`registrationsSeparate_iff`: a run keeps registrations apart
  exactly when it never reuses a vintage year.
- Theorem {lit}`registrations_collide`: two owners who register in one vintage
  year share an id, and the second registration replaces the first record.
-/

namespace Kraal
namespace CarbonRegistry

open Foundation

variable {sha256 : Bytes → BytesN}

/-- A run of the registry from its deployment, as the list of its steps. -/
abbrev history (sha256 : Bytes → BytesN) (run : List (Invocation Op)) :
    List (Store × Invocation Op) :=
  Run.trace (step (exec sha256)) Store.empty run

/-! ## Where projects are stored -/

/-- Every stored project lies under the hash of its own vintage year. -/
def VintageKeyed (sha256 : Bytes → BytesN) (s : Store) : Prop :=
  ∀ id project, s.projects.get id = some project → id = sha256 project.vintageYear.toBeBytes

theorem vintageKeyed_empty : VintageKeyed sha256 Store.empty := by
  intro id project h
  simp [Store.empty] at h

/-- Rewriting a stored project without touching its vintage year keeps the keys right. -/
theorem VintageKeyed.withProject {s : Store} {id : BytesN} {project : CarbonProject}
    (hs : VintageKeyed sha256 s) (hid : id = sha256 project.vintageYear.toBeBytes) :
    VintageKeyed sha256 (s.withProject id project) :=
  Storage.forall_get_set hs hid

theorem VintageKeyed.step {s : Store} (hs : VintageKeyed sha256 s) (i : Invocation Op) :
    VintageKeyed sha256 (Kraal.step (exec sha256) s i) := by
  apply step_induction hs
  intro s' hok
  rcases exec_cases hok with ⟨admin, marketplace, -, -, rfl⟩ |
    ⟨owner, name, totalCredits, vintageYear, -, -, rfl⟩ |
    ⟨status, id, cfg, project, -, -, -, hproject, rfl⟩ |
    ⟨id, amount, cfg, project, newIssued, -, -, -, -, hproject, -, -, -, rfl⟩
  · exact hs
  · exact hs.withProject rfl
  · exact hs.withProject (hs id project hproject)
  · exact hs.withProject (hs id project hproject)

theorem reachable_vintageKeyed {s : Store}
    (hs : Run.Reachable (step (exec sha256)) Store.empty s) : VintageKeyed sha256 s :=
  hs.invariant vintageKeyed_empty fun _ i hs => hs.step i

/-! ## Keeping registrations apart -/

/-- No registration of a run changes a record that was stored before it, and two
registrations of different owner, name and vintage year never return one id. -/
def RegistrationsSeparate (sha256 : Bytes → BytesN) (run : List (Invocation Op)) : Prop :=
  (∀ e ∈ history sha256 run, ∀ owner name totalCredits vintageYear,
    e.2.call = .registerProject owner name totalCredits vintageYear →
    ∀ id project, e.1.projects.get id = some project →
      (step (exec sha256) e.1 e.2).projects.get id = some project) ∧
  (history sha256 run).Pairwise fun e e' =>
    ∀ owner name totalCredits vintageYear owner' name' totalCredits' vintageYear' id id' s s',
      e.2.call = .registerProject owner name totalCredits vintageYear →
      e'.2.call = .registerProject owner' name' totalCredits' vintageYear' →
      registerProject sha256 owner name totalCredits vintageYear e.2.env e.1 = .ok (id, s) →
      registerProject sha256 owner' name' totalCredits' vintageYear' e'.2.env e'.1 =
        .ok (id', s') →
      (owner, name, vintageYear) ≠ (owner', name', vintageYear') → id ≠ id'

/-- An accepted registration of a run meets no project of its vintage year, or
only the very record that it writes itself. -/
def NoVintageReuse (sha256 : Bytes → BytesN) (run : List (Invocation Op)) : Prop :=
  ∀ e ∈ history sha256 run, ∀ owner name totalCredits vintageYear,
    e.2.call = .registerProject owner name totalCredits vintageYear →
    RegistrationAccepted owner totalCredits e.2.env e.1 →
    ∀ id project, e.1.projects.get id = some project → project.vintageYear = vintageYear →
      project = newProject owner name totalCredits vintageYear

/-- The effect of a registration step, accepted or not. -/
theorem step_registerProject {s : Store} {i : Invocation Op} {owner : Address} {name : Symbol}
    {totalCredits : I128} {vintageYear : U32}
    (hcall : i.call = .registerProject owner name totalCredits vintageYear) :
    (RegistrationAccepted owner totalCredits i.env s →
      step (exec sha256) s i = s.withProject (projectId sha256 owner name vintageYear)
        (newProject owner name totalCredits vintageYear)) ∧
    (¬ RegistrationAccepted owner totalCredits i.env s → step (exec sha256) s i = s) := by
  constructor
  · intro haccepted
    apply Call.commit_of_ok (a := ())
    rw [hcall, exec, Call.bind_eq_ok]
    exact ⟨_, _, registerProject_eq_ok.mpr ⟨haccepted, rfl, rfl⟩, rfl⟩
  · intro hrefused
    apply Call.commit_of_not_succeeds
    intro h
    rcases h with ⟨p, hok⟩
    rw [hcall, exec, Call.bind_eq_ok] at hok
    rcases hok with ⟨id, t, hok, -⟩
    exact hrefused (registerProject_eq_ok.mp hok).1

theorem vintageKeyed_of_mem_history {run : List (Invocation Op)} {e : Store × Invocation Op}
    (he : e ∈ history sha256 run) : VintageKeyed sha256 e.1 :=
  reachable_vintageKeyed (Run.reachable_of_mem_trace he)

/-- Where no registration changes a stored record, an accepted one that meets its
vintage year finds the record it writes. -/
theorem noVintageReuse_of_separate {run : List (Invocation Op)}
    (hsep : RegistrationsSeparate sha256 run) : NoVintageReuse sha256 run := by
  intro e he owner name totalCredits vintageYear hcall haccepted id project hproject hvintage
  have hid : id = sha256 vintageYear.toBeBytes := by
    rw [← hvintage]
    exact vintageKeyed_of_mem_history he id project hproject
  have hkept := hsep.1 e he owner name totalCredits vintageYear hcall id project hproject
  rw [(step_registerProject hcall).1 haccepted, Store.withProject_get, projectId_eq, if_pos hid,
    Option.some.injEq] at hkept
  exact hkept.symm

/-- Without reuse of a vintage year a registration leaves every stored record alone. -/
theorem NoVintageReuse.keeps_records (hinj : Function.Injective sha256)
    {run : List (Invocation Op)} (hrun : NoVintageReuse sha256 run) {e : Store × Invocation Op}
    (he : e ∈ history sha256 run) {owner : Address} {name : Symbol} {totalCredits : I128}
    {vintageYear : U32} (hcall : e.2.call = .registerProject owner name totalCredits vintageYear)
    {id : BytesN} {project : CarbonProject} (hproject : e.1.projects.get id = some project) :
    (step (exec sha256) e.1 e.2).projects.get id = some project := by
  by_cases haccepted : RegistrationAccepted owner totalCredits e.2.env e.1
  · rw [(step_registerProject hcall).1 haccepted, Store.withProject_get, projectId_eq]
    by_cases hid : id = sha256 vintageYear.toBeBytes
    · -- the id is taken: by injectivity the stored project has the same vintage year
      have hkeyed := vintageKeyed_of_mem_history he id project hproject
      have hvintage : project.vintageYear = vintageYear :=
        MInt.toBeBytes_injective (hinj (hkeyed.symm.trans hid))
      rw [if_pos hid, hrun e he owner name totalCredits vintageYear hcall haccepted id project
        hproject hvintage]
    · rw [if_neg hid]
      exact hproject
  · rw [(step_registerProject hcall).2 haccepted]
    exact hproject

/-- A project of the given owner, name and vintage year is stored under an id. -/
def StoredAs (owner : Address) (name : Symbol) (vintageYear : U32) (id : BytesN) (s : Store) :
    Prop :=
  ∃ project, s.projects.get id = some project ∧ project.owner = owner ∧ project.name = name ∧
    project.vintageYear = vintageYear

/-- Rewriting a stored project keeps every identity if it keeps the project's own. -/
theorem StoredAs.withProject {owner : Address} {name : Symbol} {vintageYear : U32}
    {id id' : BytesN} {s : Store} {old new : CarbonProject}
    (hs : StoredAs owner name vintageYear id s) (hold : s.projects.get id' = some old)
    (howner : new.owner = old.owner) (hname : new.name = old.name)
    (hvintage : new.vintageYear = old.vintageYear) :
    StoredAs owner name vintageYear id (s.withProject id' new) := by
  rcases hs with ⟨project, hproject, ho, hn, hv⟩
  by_cases hid : id = id'
  · subst hid
    rw [hproject, Option.some.injEq] at hold
    subst hold
    refine ⟨new, ?_, howner.trans ho, hname.trans hn, hvintage.trans hv⟩
    rw [Store.withProject_get, if_pos rfl]
  · refine ⟨project, ?_, ho, hn, hv⟩
    rw [Store.withProject_get, if_neg hid, hproject]

/-- Only a registration can change the identity of a stored project. -/
theorem StoredAs.step {owner : Address} {name : Symbol} {vintageYear : U32} {id : BytesN}
    {s : Store} {i : Invocation Op} (hs : StoredAs owner name vintageYear id s)
    (hother : ∀ owner name totalCredits vintageYear,
      i.call ≠ .registerProject owner name totalCredits vintageYear) :
    StoredAs owner name vintageYear id (step (exec sha256) s i) := by
  apply step_induction hs
  intro s' hok
  rcases exec_cases hok with ⟨admin, marketplace, -, -, rfl⟩ |
    ⟨owner', name', totalCredits', vintageYear', hcall, -, rfl⟩ |
    ⟨status, id', cfg, project', -, -, -, hproject', rfl⟩ |
    ⟨id', amount, cfg, project', newIssued, -, -, -, -, hproject', -, -, -, rfl⟩
  · exact hs
  · exact absurd hcall (hother owner' name' totalCredits' vintageYear')
  · exact hs.withProject hproject' rfl rfl rfl
  · exact hs.withProject hproject' rfl rfl rfl

/-- What a successful registration leaves behind: its own identity under its id. -/
def LeavesIdentity (sha256 : Bytes → BytesN) (e : Store × Invocation Op) (s' : Store) : Prop :=
  ∀ owner name totalCredits vintageYear id s,
    e.2.call = .registerProject owner name totalCredits vintageYear →
    registerProject sha256 owner name totalCredits vintageYear e.2.env e.1 = .ok (id, s) →
    StoredAs owner name vintageYear id s'

/-- Without reuse of a vintage year, registrations of different owner, name and
vintage year return different ids. -/
theorem NoVintageReuse.distinct_ids (hinj : Function.Injective sha256)
    {run : List (Invocation Op)} (hrun : NoVintageReuse sha256 run) :
    (history sha256 run).Pairwise fun e e' =>
      ∀ owner name totalCredits vintageYear owner' name' totalCredits' vintageYear' id id' s s',
        e.2.call = .registerProject owner name totalCredits vintageYear →
        e'.2.call = .registerProject owner' name' totalCredits' vintageYear' →
        registerProject sha256 owner name totalCredits vintageYear e.2.env e.1 = .ok (id, s) →
        registerProject sha256 owner' name' totalCredits' vintageYear' e'.2.env e'.1 =
          .ok (id', s') →
        (owner, name, vintageYear) ≠ (owner', name', vintageYear') → id ≠ id' := by
  apply Run.pairwise_trace (P := LeavesIdentity sha256)
  · intro e _ owner name totalCredits vintageYear id s hcall hok
    rcases registerProject_eq_ok.mp hok with ⟨haccepted, rfl, -⟩
    rw [(step_registerProject hcall).1 haccepted]
    exact ⟨newProject owner name totalCredits vintageYear, Storage.get_set_self _ _ _, rfl, rfl,
      rfl⟩
  · intro e e' he' hpast owner name totalCredits vintageYear id s hcall hok
    have hstored := hpast owner name totalCredits vintageYear id s hcall hok
    by_cases hother : ∀ owner name totalCredits vintageYear,
        e'.2.call ≠ .registerProject owner name totalCredits vintageYear
    · exact hstored.step hother
    · simp only [ne_eq, not_forall, not_not] at hother
      rcases hother with ⟨owner', name', totalCredits', vintageYear', hcall'⟩
      rcases hstored with ⟨project, hproject, hidentity⟩
      exact ⟨project, hrun.keeps_records hinj he' hcall' hproject, hidentity⟩
  · intro e e' he' hpast owner name totalCredits vintageYear owner' name' totalCredits'
      vintageYear' id id' s s' hcall hcall' hok hok' hne hid
    subst hid
    rcases hpast owner name totalCredits vintageYear id s hcall hok with
      ⟨project, hproject, howner, hname, hvintage⟩
    rcases registerProject_eq_ok.mp hok with ⟨-, hid, -⟩
    rcases registerProject_eq_ok.mp hok' with ⟨haccepted', hid', -⟩
    have hyear : vintageYear = vintageYear' :=
      MInt.toBeBytes_injective (hinj (hid.symm.trans hid'))
    have hnew := hrun e' he' owner' name' totalCredits' vintageYear' hcall' haccepted' id project
      hproject (hvintage.trans hyear)
    subst hnew
    exact hne (by rw [← howner, ← hname, hyear]; rfl)

/-- A run keeps its registrations apart exactly when it never reuses a vintage year. -/
theorem registrationsSeparate_iff (hinj : Function.Injective sha256)
    (run : List (Invocation Op)) :
    RegistrationsSeparate sha256 run ↔ NoVintageReuse sha256 run := by
  constructor
  · exact noVintageReuse_of_separate
  · intro hrun
    refine ⟨?_, hrun.distinct_ids hinj⟩
    intro e he owner name totalCredits vintageYear hcall id project hproject
    exact hrun.keeps_records hinj he hcall hproject

/-! ## Runs with a shared and with separate vintage years -/

/-- Two owners register one project each, for the given vintage years. -/
def twoRegistrations (vintageYear vintageYear' : U32) : List (Invocation Op) :=
  [⟨.signedBy 1 [], .initializeContract ⟨0⟩ ⟨9⟩⟩,
    ⟨.signedBy 2 [⟨1⟩], .registerProject ⟨1⟩ "forest" 1000 vintageYear⟩,
    ⟨.signedBy 3 [⟨2⟩], .registerProject ⟨2⟩ "wind" 500 vintageYear'⟩]

/-- The state in which the second owner registers: the first project is stored. -/
theorem twoRegistrations_before_second (sha256 : Bytes → BytesN) (vintageYear vintageYear' : U32) :
    Run.final (step (exec sha256)) Store.empty
        ((twoRegistrations vintageYear vintageYear').take 2) =
      (⟨some ⟨⟨0⟩, ⟨9⟩⟩, Storage.empty⟩ : Store).withProject (sha256 vintageYear.toBeBytes)
        (newProject ⟨1⟩ "forest" 1000 vintageYear) :=
  rfl

/-- Two owners who register in one vintage year share an id under every hash, and
the second registration replaces the first record. -/
theorem registrations_collide :
    ¬ ∃ sha256 : Bytes → BytesN, RegistrationsSeparate sha256 (twoRegistrations 2024 2024) := by
  intro h
  rcases h with ⟨sha256, hsep⟩
  have hmem : (Run.final (step (exec sha256)) Store.empty ((twoRegistrations 2024 2024).take 2),
      ⟨Env.signedBy 3 [⟨2⟩], Op.registerProject ⟨2⟩ "wind" 500 2024⟩) ∈
      history sha256 (twoRegistrations 2024 2024) :=
    Run.mem_trace_iff.mpr ⟨(twoRegistrations 2024 2024).take 2, [], rfl, rfl⟩
  have haccepted : RegistrationAccepted ⟨2⟩ 500 (Env.signedBy 3 [⟨2⟩])
      (Run.final (step (exec sha256)) Store.empty ((twoRegistrations 2024 2024).take 2)) := by
    rw [twoRegistrations_before_second]
    exact ⟨rfl, rfl, by decide⟩
  have hstored : (Run.final (step (exec sha256)) Store.empty
      ((twoRegistrations 2024 2024).take 2)).projects.get (sha256 (2024 : U32).toBeBytes) =
        some (newProject ⟨1⟩ "forest" 1000 2024) := by
    rw [twoRegistrations_before_second]
    exact Storage.get_set_self _ _ _
  have hsame := noVintageReuse_of_separate hsep _ hmem ⟨2⟩ "wind" 500 2024 rfl haccepted _ _
    hstored rfl
  exact absurd hsame (by decide)

/-- Two owners who register in different vintage years are kept apart. -/
theorem twoRegistrations_separate :
    RegistrationsSeparate BytesN.mk (twoRegistrations 2024 2025) := by
  apply (registrationsSeparate_iff BytesN.mk_injective _).mpr
  intro e he owner name totalCredits vintageYear hcall _ id project hproject hvintage
  simp only [history, twoRegistrations, Run.trace_cons, Run.trace_nil, List.mem_cons,
    List.not_mem_nil, or_false] at he
  rcases he with rfl | rfl | rfl
  · cases hcall
  · cases hproject
  · cases hcall
    have hstored : ((⟨some ⟨⟨0⟩, ⟨9⟩⟩, Storage.empty⟩ : Store).withProject
        (BytesN.mk (2024 : U32).toBeBytes) (newProject ⟨1⟩ "forest" 1000 2024)).projects.get id =
          some project := hproject
    rw [Store.withProject_get] at hstored
    split at hstored
    · cases hstored
      exact absurd hvintage (by decide)
    · cases hstored

end CarbonRegistry
end Kraal
