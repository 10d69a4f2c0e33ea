import Kraal.Backend.Outcome

/-!
# Requests that fail before their transaction

Up to the end of its transaction a request makes a number of accesses that depends on what it
finds when it arrives.  If something goes wrong at one of them, the domain tables stay as they
are, whatever happens later.

Main results:

- Definition {lit}`accessesToCommit`: the number of these accesses.
- Theorem {lit}`domain_of_broken`: a request that fails there leaves the tables alone.
- Theorem {lit}`QuietAfterCommit.cases`: a request none of whose statements throws after its
  transaction is committed.
-/

namespace Kraal
namespace Backend

open Foundation

/-- Something goes wrong at an access. -/
def Tick.Faulty (tick : Tick) : Prop :=
  ¬ tick.Undisturbed

/-! ## Counting accesses -/

/-- The accesses of an execution up to the end of its transaction: it reads the clock, submits an
event in two accesses and applies it, and a purchase looks its listing up before. -/
def Endpoint.accesses : Endpoint → Nat
  | .listings => 4
  | .purchases => 5
  | .retire => 4

/-- The accesses that find the record of a key: an expired one is deleted. -/
def accessesToRecord (db : Database) (key : String) (time : Int) : Nat :=
  if (db.records.get key).isSome ∧ usable db key time = none then 2 else 1

/-- The accesses after the last event of a key is found, up to the end of the transaction. -/
def accessesToApply (cfg : AppConfig) (events : List ChainEvent) (key : String)
    (endpoint : Endpoint) (time : Int) (hasRecord : Bool) : Nat :=
  if (latestEvent events key).any fun ev => time - ev.createdAt < cfg.idempotencyTtlSeconds then 1
  else endpoint.accesses + if hasRecord then 0 else 1

/-- The accesses of a request that arrives at a time, up to the end of its transaction: it reads
the clock, its record and the last event of its key, which it looks for twice if it has a
record. -/
def accessesToCommit (cfg : AppConfig) (db : Database) (key : String) (endpoint : Endpoint)
    (time : Int) : Nat :=
  accessesToApply cfg db.chainEvents key endpoint time (usable db key time).isSome +
    (if (usable db key time).isSome then 2 else 1) + accessesToRecord db key time + 1

/-- No statement of a request throws after its transaction is committed, which needs that nothing
goes wrong before. -/
def QuietAfterCommit (cfg : AppConfig) (w : World) (key : String) (req : Request)
    (script : List Tick) : Prop :=
  let accesses := accessesToCommit cfg w.store.db key req.endpoint (arrival w script)
  (∀ tick ∈ script.take accesses, tick.Undisturbed) →
    ∀ tick ∈ script.drop accesses, tick.fault ≠ some .throws

/-! ## Programs that leave the tables alone -/

/-- A program has not returned and has left the domain tables alone. -/
def Unfinished {α : Type} (d : Domain) (exit : Exit Thrown α) (w : World) : Prop :=
  NotReturned exit ∧ w.store.db.domain = d

/-- A program has left the domain tables alone. -/
def Untouched {α : Type} (d : Domain) (_exit : Exit Thrown α) (w : World) : Prop :=
  w.store.db.domain = d

variable {α β : Type} {cfg : AppConfig} {rt : Runtime} {d : Domain} {key : String} {n : Nat}
  {w : World}

/-- The rule for an access that is followed by more: something goes wrong here or later. -/
theorem access_bind_broken {f : Store → Except Thrown α × Store} {g : α → Action β}
    {Q : Exit Thrown β → World → Prop}
    (hok : ∀ a clock, w.clock ≤ clock → (f w.store).1 = .ok a →
      (g a).EnsuresBroken Tick.Faulty n ⟨(f w.store).2, clock⟩ Q)
    (herror : ∀ e clock, (f w.store).1 = .error e → Q (.thrown e) ⟨(f w.store).2, clock⟩)
    (hthrows : ∀ clock, Q (.thrown .database) ⟨w.store, clock⟩)
    (hstops : ∀ clock, Q .stopped ⟨w.store, clock⟩) :
    (access f >>= g).EnsuresBroken Tick.Faulty (n + 1) w Q := by
  intro script hscript
  cases script with
  | nil => simp at hscript
  | cons tick rest =>
      rcases tick with ⟨elapsed, fault⟩
      cases fault with
      | some fault =>
          cases fault with
          | throws => exact hthrows _
          | stops => exact hstops _
      | none =>
          have hrest : ∃ entry ∈ rest.take n, entry.Faulty := by
            rcases hscript with ⟨entry, hentry, hfaulty⟩
            rw [List.take_succ_cons, List.mem_cons] at hentry
            rcases hentry with rfl | hentry
            · exact absurd rfl hfaulty
            · exact ⟨entry, hentry, hfaulty⟩
          have hrun : (access f >>= g) (⟨elapsed, none⟩ :: rest) w =
              (Program.ofExcept (f w.store).1 >>= g) rest ⟨(f w.store).2, w.clock + elapsed⟩ := rfl
          rw [hrun]
          cases hresult : (f w.store).1 with
          | ok a => exact hok a _ (by simp) hresult rest hrest
          | error e => exact herror e _ hresult

/-- The rule for a program that reads the clock first. -/
theorem now_bind_broken {g : Int → Action β} {Q : Exit Thrown β → World → Prop}
    (hok : ∀ clock, (g clock).EnsuresBroken Tick.Faulty n ⟨w.store, clock⟩ Q)
    (hthrows : ∀ clock, Q (.thrown .database) ⟨w.store, clock⟩)
    (hstops : ∀ clock, Q .stopped ⟨w.store, clock⟩) :
    (now >>= g).EnsuresBroken Tick.Faulty (n + 1) w Q := by
  rw [now, Program.bind_assoc]
  refine access_bind_broken ?_ ?_ hthrows hstops
  · intro _ clock _ _
    rw [Program.bind_assoc]
    exact Program.EnsuresBroken.bind_get (hok clock)
  · intro e clock h
    cases h

/-- Where something goes wrong at an access, the store stays as it is. -/
theorem access_broken {f : Store → Except Thrown α × Store} {Q : Exit Thrown α → World → Prop}
    (hthrows : ∀ clock, Q (.thrown .database) ⟨w.store, clock⟩)
    (hstops : ∀ clock, Q .stopped ⟨w.store, clock⟩) :
    (access f).EnsuresBroken Tick.Faulty 1 w Q := by
  intro script hscript
  cases script with
  | nil => simp at hscript
  | cons tick rest =>
      rcases tick with ⟨elapsed, fault⟩
      cases fault with
      | none => simp [Tick.Faulty, Tick.Undisturbed] at hscript
      | some fault =>
          cases fault with
          | throws => exact hthrows _
          | stops => exact hstops _

/-- A transaction that something goes wrong at is not committed. -/
theorem transaction_broken {fn : Sql Unit} (hw : w.store.db.domain = d) :
    (transaction fn).EnsuresBroken Tick.Faulty 1 w (Unfinished d) := by
  refine Program.EnsuresBroken.bind_get ?_
  split
  · refine Program.EnsuresBroken.bind_put (Program.Ensures.ensuresBroken ?_)
    exact Program.ensures_throw ⟨trivial, hw⟩
  · exact access_broken (fun _ => ⟨trivial, hw⟩) fun _ => ⟨trivial, hw⟩

/-- What comes after a program that has not returned is not run. -/
theorem bind_unfinished {x : Action α} {g : α → Action β}
    (hx : x.EnsuresBroken Tick.Faulty n w (Unfinished d)) :
    (x >>= g).EnsuresBroken Tick.Faulty n w (Unfinished d) := by
  refine hx.bind ?_ ?_ ?_
  · intro a w' h
    exact h.1.elim
  · intro e w' h
    exact ⟨trivial, h.2⟩
  · intro w' h
    exact ⟨trivial, h.2⟩

/-! ## Executions and reconciliations -/

/-- A settlement with a fault before its commit leaves the tables alone. -/
theorem settle_broken {endpoint : Endpoint} {payload : Payload} {answer : Action ResponseBody}
    (hw : w.store.db.domain = d) :
    (settle endpoint key payload answer).EnsuresBroken Tick.Faulty 3 w (Unfinished d) := by
  rw [settle, submit, Program.bind_assoc]
  refine now_bind_broken ?_ (fun _ => ⟨trivial, hw⟩) fun _ => ⟨trivial, hw⟩
  intro createdAt
  refine access_bind_broken ?_ ?_ (fun _ => ⟨trivial, hw⟩) fun _ => ⟨trivial, hw⟩
  · intro ev clock _ _
    exact bind_unfinished (transaction_broken hw)
  · intro e clock h
    cases h

/-- A listing with a fault before its commit leaves the tables alone. -/
theorem createListing_broken {body : CreateListingBody} (hw : w.store.db.domain = d) :
    (createListing rt body key).EnsuresBroken Tick.Faulty 4 w (Unfinished d) := by
  rw [createListing_eq]
  exact now_bind_broken (fun _ => settle_broken hw) (fun _ => ⟨trivial, hw⟩)
    fun _ => ⟨trivial, hw⟩

/-- A purchase with a fault before its commit leaves the tables alone. -/
theorem purchase_broken {body : PurchaseBody} (hw : w.store.db.domain = d) :
    (purchase rt body key).EnsuresBroken Tick.Faulty 5 w (Unfinished d) := by
  rw [purchase_eq]
  refine access_bind_broken ?_ ?_ (fun _ => ⟨trivial, hw⟩) fun _ => ⟨trivial, hw⟩
  · intro listing clock _ _
    cases listing with
    | none => exact (Program.ensures_throw ⟨trivial, hw⟩).ensuresBroken
    | some row =>
        by_cases hstock : row.quantityRemaining < body.quantity
        · simp only [hstock, if_true]
          exact (Program.ensures_throw ⟨trivial, hw⟩).ensuresBroken
        · simp only [hstock, if_false]
          exact now_bind_broken (fun _ => settle_broken hw) (fun _ => ⟨trivial, hw⟩)
            fun _ => ⟨trivial, hw⟩
  · intro e clock h
    cases h

/-- A retirement with a fault before its commit leaves the tables alone. -/
theorem retire_broken {body : RetireBody} (hw : w.store.db.domain = d) :
    (retire rt body key).EnsuresBroken Tick.Faulty 4 w (Unfinished d) := by
  rw [retire_eq]
  exact now_bind_broken (fun _ => settle_broken hw) (fun _ => ⟨trivial, hw⟩)
    fun _ => ⟨trivial, hw⟩

/-- The executions and the reconciliations of an endpoint do not commit where something goes
wrong up to the end of their transaction. -/
structure SpecBreaks (endpoint : Endpoint) {Body : Type} (spec : IdempotentSpec Body) : Prop where
  execute : ∀ body key w, (spec.execute body key).EnsuresBroken Tick.Faulty endpoint.accesses w
    (Unfinished w.store.db.domain)
  reconcile : ∀ event w, (spec.reconcile event).EnsuresBroken Tick.Faulty 1 w
    (Unfinished w.store.db.domain)

/-- The service for listings breaks before its commit. -/
theorem listingsSpec_breaks : SpecBreaks .listings (listingsSpec rt) where
  execute _ _ _ := createListing_broken rfl
  reconcile _ _ := bind_unfinished (transaction_broken rfl)

/-- The service for purchases breaks before its commit. -/
theorem purchasesSpec_breaks : SpecBreaks .purchases (purchasesSpec rt) where
  execute _ _ _ := purchase_broken rfl
  reconcile _ _ := bind_unfinished (transaction_broken rfl)

/-- The service for retirements breaks before its commit. -/
theorem retireSpec_breaks : SpecBreaks .retire (retireSpec rt) where
  execute _ _ _ := retire_broken rfl
  reconcile _ _ := bind_unfinished (transaction_broken rfl)

/-! ## The middleware -/

/-- Returning a value leaves the tables alone. -/
theorem pure_untouched (a : α) (hw : w.store.db.domain = d) :
    (pure a : Action α).EnsuresBroken Tick.Faulty n w (Untouched d) :=
  fun _ _ => hw

/-- What comes after a program that has not returned leaves the tables alone. -/
theorem bind_untouched {x : Action α} {g : α → Action β}
    (hx : x.EnsuresBroken Tick.Faulty n w (Unfinished d)) :
    (x >>= g).EnsuresBroken Tick.Faulty n w (Untouched d) := by
  refine hx.bind ?_ ?_ ?_
  · intro a w' h
    exact h.1.elim
  · intro e w' h
    exact h.2
  · intro w' h
    exact h.2

section

variable {Body : Type} {spec : IdempotentSpec Body} {endpoint : Endpoint} {fingerprint : String}
  {body : Option Json} {time : Int}

/-- The record of a failed execution is deleted, and nothing else. -/
theorem recover_untouched (e : Thrown) (hw : w.store.db.domain = d) :
    (deleteRecord key >>= fun _ => pure e.response).Ensures (fun _ => True) w (Untouched d) :=
  (recover_ensures e w).mono fun _ _ h => h.1.domain.trans hw

/-- After an execution with a fault before its commit the tables are as they were, whatever follows
one that returns. -/
theorem execute_broken (hspec : SpecBreaks endpoint spec) (validated : Body)
    {f : Except Thrown ExecuteResult → Action Response}
    (hrecover : ∀ e, f (.error e) = deleteRecord key >>= fun _ => pure e.response)
    (hw : w.store.db.domain = d) :
    ((spec.execute validated key).attempt >>= f).EnsuresBroken Tick.Faulty endpoint.accesses w
      (Untouched d) := by
  have hbreaks := hspec.execute validated key w
  rw [hw] at hbreaks
  refine Program.EnsuresBroken.bind (R := fun exit w' =>
    (∀ result, exit ≠ .returned (.ok result)) ∧ w'.store.db.domain = d)
    (hbreaks.attempt ?_ ?_ ?_) ?_ ?_ ?_
  · intro result w' h
    exact h.1.elim
  · intro e w' h
    exact ⟨fun result => by simp, h.2⟩
  · intro w' h
    exact ⟨fun result => by simp, h.2⟩
  · intro result w' h
    cases result with
    | error e =>
        rw [hrecover]
        exact recover_untouched e h.2
    | ok result => exact absurd rfl (h.1 result)
  · intro e w' h
    exact h.2
  · intro w' h
    exact h.2

/-- An execution with a fault before its commit leaves the tables alone. -/
theorem executeRequest_broken (hspec : SpecBreaks endpoint spec) {hasRecord : Bool}
    (hw : w.store.db.domain = d) :
    (executeRequest cfg spec key fingerprint body time hasRecord).EnsuresBroken Tick.Faulty
      (endpoint.accesses + if hasRecord then 0 else 1) w (Untouched d) := by
  unfold executeRequest
  cases spec.validate body with
  | error message => exact pure_untouched _ hw
  | ok validated =>
      cases hasRecord with
      | true =>
          simp only [if_true, Nat.add_zero]
          exact execute_broken hspec validated (fun _ => rfl) hw
      | false =>
          simp only [Bool.false_eq_true, if_false]
          change (insertInProgress key fingerprint spec.endpoint time
            (time + cfg.idempotencyTtlSeconds) >>= fun _ => _).EnsuresBroken _ _ _ _
          refine access_bind_broken ?_ ?_ (fun _ => hw) fun _ => hw
          · intro _ clock _ _
            refine execute_broken hspec validated (fun _ => rfl) ?_
            split
            · exact hw
            · exact hw
          · intro e clock _
            split
            · exact hw
            · exact hw

/-- A request with a fault before its commit leaves the tables alone. -/
theorem reconcileOrExecute_broken (hspec : SpecBreaks endpoint spec) {hasRecord : Bool}
    {events : List ChainEvent} (hevents : w.store.db.chainEvents = events)
    (hw : w.store.db.domain = d) :
    (reconcileOrExecute cfg spec key fingerprint body time hasRecord).EnsuresBroken Tick.Faulty
      (accessesToApply cfg events key endpoint time hasRecord + 1) w (Untouched d) := by
  refine access_bind_broken ?_ ?_ (fun _ => hw) fun _ => hw
  · intro event clock _ hevent
    rw [Except.ok.injEq, hevents] at hevent
    unfold accessesToApply
    rw [hevent]
    cases event with
    | none => exact executeRequest_broken hspec hw
    | some ev =>
        by_cases hrecent : time - ev.createdAt < cfg.idempotencyTtlSeconds
        · have hreconcile := hspec.reconcile ev ⟨w.store, clock⟩
          rw [hw] at hreconcile
          simp only [Option.any_some, hrecent, decide_true, if_true]
          exact bind_untouched hreconcile
        · simp only [Option.any_some, hrecent, decide_false, Bool.false_eq_true, if_false]
          exact executeRequest_broken hspec hw
  · intro e clock h
    cases h

/-- A request that something goes wrong with up to the end of its transaction leaves the tables
alone, whatever happens later. -/
theorem answerAt_broken (hspec : SpecBreaks endpoint spec) :
    (answerAt cfg spec key fingerprint body time).EnsuresBroken Tick.Faulty
      (accessesToApply cfg w.store.db.chainEvents key endpoint time
          (usable w.store.db key time).isSome +
        (if (usable w.store.db key time).isSome then 2 else 1) +
        accessesToRecord w.store.db key time) w (Untouched w.store.db.domain) := by
  rw [answerAt, currentRecord, Program.bind_assoc]
  unfold accessesToRecord
  cases hrecord : w.store.db.records.get key with
  | none =>
      have husable : usable w.store.db key time = none := by simp [usable, hrecord]
      simp only [husable, Option.isSome_none, Bool.false_eq_true, false_and, if_false]
      refine access_bind_broken ?_ ?_ (fun _ => rfl) fun _ => rfl
      · intro record clock _ hget
        rw [Except.ok.injEq, hrecord] at hget
        subst hget
        simp only [Program.pure_bind]
        exact reconcileOrExecute_broken hspec rfl rfl
      · intro e clock h
        cases h
  | some r =>
      by_cases hexpired : r.expiresAt ≤ time
      · have husable : usable w.store.db key time = none := by simp [usable, hrecord, hexpired]
        simp only [husable, Option.isSome_some, Option.isSome_none, Bool.false_eq_true, true_and,
          if_true, if_false]
        refine access_bind_broken (n := _ + 1 + 1) ?_ ?_ (fun _ => rfl) fun _ => rfl
        · intro record clock _ hget
          rw [Except.ok.injEq, hrecord] at hget
          subst hget
          simp only [hexpired, if_true, Program.bind_assoc]
          refine access_bind_broken ?_ ?_ (fun _ => rfl) fun _ => rfl
          · intro _ clock' _ _
            simp only [Program.pure_bind]
            exact reconcileOrExecute_broken hspec rfl rfl
          · intro e clock' h
            cases h
        · intro e clock h
          cases h
      · have husable : usable w.store.db key time = some r := by
          simp [usable, hrecord, not_le.mp hexpired]
        simp only [husable, Option.isSome_some, true_and, if_true, reduceCtorEq, if_false]
        refine access_bind_broken (n := _ + 1 + 1) ?_ ?_ (fun _ => rfl) fun _ => rfl
        · intro record clock _ hget
          rw [Except.ok.injEq, hrecord] at hget
          subst hget
          simp only [hexpired, if_false, Program.pure_bind]
          by_cases hfingerprint : r.fingerprint = fingerprint
          · simp only [hfingerprint, ne_eq, not_true_eq_false, if_false]
            split
            · exact pure_untouched _ rfl
            · refine access_bind_broken ?_ ?_ (fun _ => rfl) fun _ => rfl
              · intro pending clock' _ _
                cases pending with
                | none => exact pure_untouched _ rfl
                | some ev => exact reconcileOrExecute_broken hspec rfl rfl
              · intro e clock' h
                cases h
          · simp only [ne_eq, hfingerprint, not_false_eq_true, if_true]
            exact pure_untouched _ rfl
        · intro e clock h
          cases h

/-- A request under a key with a fault before its commit leaves the tables alone. -/
theorem idempotent_broken (hspec : SpecBreaks endpoint spec) {req : Request} {script : List Tick}
    (hkey : req.key.filter validKey = some key)
    (hbroken : ∃ tick ∈ script.take
      (accessesToCommit cfg w.store.db key endpoint (arrival w script)), tick.Faulty) :
    (idempotent cfg rt spec req script w).2.2.store.db.domain = w.store.db.domain := by
  unfold idempotent
  rw [hkey]
  cases script with
  | nil => simp at hbroken
  | cons tick rest =>
      rcases tick with ⟨elapsed, fault⟩
      cases fault with
      | some fault =>
          cases fault with
          | throws => rfl
          | stops => rfl
      | none =>
          rcases hbroken with ⟨entry, hentry, hfaulty⟩
          rw [accessesToCommit, List.take_succ_cons, List.mem_cons] at hentry
          rcases hentry with rfl | hentry
          · exact absurd rfl hfaulty
          · exact answerAt_broken (w := w.later elapsed) hspec rest ⟨entry, hentry, hfaulty⟩

end

/-- A request that something goes wrong with up to the end of its transaction leaves the domain
tables alone. -/
theorem domain_of_broken (cfg : AppConfig) (rt : Runtime) (w : World) {req : Request}
    {script : List Tick} (hkey : req.key.filter validKey = some key)
    (hbroken : ∃ tick ∈ script.take
      (accessesToCommit cfg w.store.db key req.endpoint (arrival w script)), tick.Faulty) :
    (step cfg rt w (.request req script)).store.db.domain = w.store.db.domain := by
  have hrun : (handleRequest cfg rt req script w).2.2.store.db.domain = w.store.db.domain := by
    unfold handleRequest
    cases hendpoint : req.endpoint with
    | listings =>
        rw [hendpoint] at hbroken
        exact idempotent_broken listingsSpec_breaks hkey hbroken
    | purchases =>
        rw [hendpoint] at hbroken
        exact idempotent_broken purchasesSpec_breaks hkey hbroken
    | retire =>
        rw [hendpoint] at hbroken
        exact idempotent_broken retireSpec_breaks hkey hbroken
  rw [← hrun]
  change ((handleRequest cfg rt req script w).2.2.after _).store.db.domain = _
  cases (handleRequest cfg rt req script w).1 with
  | returned r => rfl
  | thrown e => rfl
  | stopped => rfl

/-- A request throws nowhere, or leaves the domain tables alone by what goes wrong early. -/
theorem QuietAfterCommit.cases {req : Request} {script : List Tick}
    (h : QuietAfterCommit cfg w key req script) (rt : Runtime)
    (hkey : req.key.filter validKey = some key) :
    (∀ tick ∈ script, tick.fault ≠ some .throws) ∨
      (step cfg rt w (.request req script)).store.db.domain = w.store.db.domain := by
  by_cases hbroken : ∃ tick ∈ script.take
      (accessesToCommit cfg w.store.db key req.endpoint (arrival w script)), tick.Faulty
  · exact .inr (domain_of_broken cfg rt w hkey hbroken)
  · have hfine : ∀ tick ∈ script.take
        (accessesToCommit cfg w.store.db key req.endpoint (arrival w script)),
        tick.Undisturbed := by
      intro tick htick
      by_contra hfaulty
      exact hbroken ⟨tick, htick, hfaulty⟩
    refine .inl fun tick htick => ?_
    rw [← List.take_append_drop
      (accessesToCommit cfg w.store.db key req.endpoint (arrival w script)) script] at htick
    rcases List.mem_append.mp htick with hearly | hlate
    · rw [hfine tick hearly]
      simp
    · exact h hfine tick hlate

end Backend
end Kraal
