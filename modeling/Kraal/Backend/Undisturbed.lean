import Kraal.Backend.Outcome

/-!
# Requests that nothing disturbs

What a request does, and in which order, when no access fails: a request that nothing is known
of is executed, or it submits its event and fails with its transaction, and a request with a
recent event is answered from that event.  The outcomes say what a request can do at most; here
it is what a request does.

Main results:

- Theorem {lit}`request_executes`: a request that is executed.
- Theorem {lit}`request_crashes`: a request whose transaction fails after its submission.
- Theorem {lit}`request_reconciles`: a request that is answered from its event.
-/

namespace Kraal
namespace Backend

open Foundation

/-- Write the database of a world. -/
def World.withDb (w : World) (db : Database) : World := { w with store := w.store.withDb db }

/-- Switch the failure of the next transaction. -/
def World.withFailNext (w : World) (failNext : Bool) : World :=
  { w with store := { w.store with failNext := failNext } }

/-- The event that is submitted now. -/
def World.newEvent (w : World) (key : String) (payload : Payload) : ChainEvent :=
  ⟨w.store.db.chainEvents.length + 1, key, payload, w.clock⟩

variable {cfg : AppConfig} {rt : Runtime} {endpoint : Endpoint} {key : String} {payload : Payload}
  {w : World}

/-! ## Accesses -/

/-- A statement of the database runs. -/
theorem access_runs {α : Type} (f : Store → Except Thrown α × Store) (w : World) :
    (access f).Runs w (.ofExcept (f w.store).1) ⟨(f w.store).2, w.clock⟩ := by
  have hstill : w.later 0 = w := by simp [World.later]
  have hunfold : (access f) [] w =
      (Program.ofExcept (f w.store).1 : Action α) [] ⟨(f w.store).2, w.clock⟩ := by
    change (Program.ofExcept (f (w.later 0).store).1 : Action α) []
      ⟨(f (w.later 0).store).2, (w.later 0).clock⟩ = _
    rw [hstill]
  rw [Program.Runs, hunfold]
  cases (f w.store).1 with
  | ok a => rfl
  | error e => rfl

/-- The clock is read. -/
theorem now_runs (w : World) : now.Runs w (.returned w.clock) w :=
  (access_runs (fun s => (.ok (), s)) w).bind rfl

/-- A transaction runs and writes the tables. -/
theorem transaction_runs {fn : Sql Unit} {domain : Domain} (hready : w.store.failNext = false)
    (hfn : fn () w.store.db.domain = .ok ((), domain)) :
    (transaction fn).Runs w (.returned ()) (w.withDb (w.store.db.withDomain domain)) := by
  refine Program.Runs.bind (a := w) rfl ?_
  rw [if_neg (by simp [hready])]
  refine Eq.trans (access_runs _ w) ?_
  simp only [hfn]
  rfl

/-- A transaction that is to fail fails, once. -/
theorem transaction_fails {fn : Sql Unit} (hfail : w.store.failNext = true) :
    (transaction fn).Runs w (.thrown .database) (w.withFailNext false) := by
  refine Program.Runs.bind (a := w) rfl ?_
  rw [if_pos hfail]
  rfl

/-- A submission runs and is recorded. -/
theorem submit_runs (w : World) (payload : Payload) :
    (submit key payload).Runs w (.returned (w.newEvent key payload))
      (w.withDb (w.store.db.withEvent (w.newEvent key payload))) :=
  (now_runs w).bind (access_runs _ w)

/-! ## Services -/

/-- An answer about a payload reads the database at most. -/
def Replies (answer : Action ResponseBody) (payload : Payload) : Prop :=
  ∀ w : World, ∃ body : ResponseBody, answer.Runs w (.returned body) w ∧ body.Reports payload

/-- A body that reports the payload is the reply. -/
theorem replies_pure {body : ResponseBody} (h : body.Reports payload) :
    Replies (pure body) payload :=
  fun w => ⟨body, Program.runs_pure body w, h⟩

/-- The body that is read for a listing is the reply. -/
theorem replies_listingBody (payload : Payload) :
    Replies (listingBody payload.asListing) payload := by
  intro w
  refine ⟨_, (access_runs _ w).bind (Program.runs_pure _ _), .inl ⟨_, rfl⟩⟩

/-- A payload is submitted and applied. -/
theorem settle_runs (key : String) {answer : Action ResponseBody} {domain : Domain}
    (hready : w.store.failNext = false)
    (happly : applyAs endpoint payload () w.store.db.domain = .ok ((), domain))
    (hanswer : Replies answer payload) :
    ∃ body : ResponseBody, body.Reports payload ∧
      (settle endpoint key payload answer).Runs w (.returned ⟨201, body⟩)
        (w.withDb ((w.store.db.withEvent (w.newEvent key payload)).withDomain domain)) := by
  rcases hanswer (w.withDb ((w.store.db.withEvent (w.newEvent key payload)).withDomain domain))
    with ⟨body, hbody, hreports⟩
  refine ⟨body, hreports, (submit_runs w payload).bind ?_⟩
  have happlied : (transaction (applyAs endpoint payload)).Runs
      (w.withDb (w.store.db.withEvent (w.newEvent key payload))) (.returned ())
      (w.withDb ((w.store.db.withEvent (w.newEvent key payload)).withDomain domain)) :=
    transaction_runs hready happly
  exact happlied.bind (hbody.bind (Program.runs_pure _ _))

/-- A payload is submitted, and the transaction that follows fails. -/
theorem settle_fails (key : String) (answer : Action ResponseBody)
    (hfail : w.store.failNext = true) :
    (settle endpoint key payload answer).Runs w (.thrown .database)
      ((w.withDb (w.store.db.withEvent (w.newEvent key payload))).withFailNext false) := by
  have hfail' : (w.withDb (w.store.db.withEvent (w.newEvent key payload))).store.failNext =
      true := hfail
  exact (submit_runs w payload).bind (Program.Runs.bind_thrown (transaction_fails hfail') _)

/-- A payload is applied again. -/
theorem reapply_runs {answer : Action ResponseBody} {domain : Domain}
    (hready : w.store.failNext = false)
    (happly : applyAs endpoint payload () w.store.db.domain = .ok ((), domain))
    (hanswer : Replies answer payload) :
    ∃ body : ResponseBody, body.Reports payload ∧
      (reapply endpoint payload answer).Runs w (.returned ⟨200, body⟩)
        (w.withDb (w.store.db.withDomain domain)) := by
  rcases hanswer (w.withDb (w.store.db.withDomain domain)) with ⟨body, hbody, hreports⟩
  exact ⟨body, hreports, (transaction_runs hready happly).bind (hbody.bind (Program.runs_pure _ _))⟩

/-- A spec settles the new payloads of its endpoint and applies its events again. -/
structure SpecSettles (rt : Runtime) (endpoint : Endpoint) {Body : Type}
    (spec : IdempotentSpec Body) : Prop where
  execute : ∀ {request : Option Json} {key : String} {payload : Payload} {w : World},
    NewPayload rt key request w.store.db.domain payload endpoint → payload.createdAt = w.clock →
    ∃ b answer, spec.validate request = .ok b ∧ Replies answer payload ∧
      spec.execute b key [] w = settle endpoint key payload answer [] w
  reconcile : ∀ event, ∃ answer, Replies answer event.payload ∧
    spec.reconcile event = reapply endpoint event.payload answer

/-- The service for listings settles. -/
theorem listingsSpec_settles (rt : Runtime) : SpecSettles rt .listings (listingsSpec rt) where
  execute {request key payload w} hnew htime := by
    cases hnew with
    | listing hvalid hpayload =>
        rename_i b createdAt
        subst hpayload
        change createdAt = w.clock at htime
        subst htime
        refine ⟨b, _, hvalid, replies_listingBody _, ?_⟩
        change createListing rt b key [] w = _
        rw [createListing_eq, Program.bind_apply, now_runs w]
  reconcile event := ⟨_, replies_listingBody _, reconcileListing_eq event⟩

/-- The service for purchases settles. -/
theorem purchasesSpec_settles (rt : Runtime) : SpecSettles rt .purchases (purchasesSpec rt) where
  execute {request key payload w} hnew htime := by
    cases hnew with
    | purchase hvalid hrow hstock hpayload =>
        rename_i b row createdAt
        subst hpayload
        change createdAt = w.clock at htime
        subst htime
        refine ⟨b, _, hvalid, replies_pure (.inr (.inl rfl)), ?_⟩
        change purchase rt b key [] w = _
        have hlisting : (getListing b.listingId).Runs w (.returned (some row)) w := by
          rw [← hrow]
          exact access_runs _ w
        rw [purchase_eq, Program.bind_apply, hlisting]
        change (if row.quantityRemaining < b.quantity then _ else _ : Action ExecuteResult) [] w = _
        rw [if_neg (not_lt.mpr hstock), Program.bind_apply, now_runs w]
  reconcile event := ⟨_, replies_pure (.inr (.inl rfl)), reconcilePurchase_eq event⟩

/-- The service for retirements settles. -/
theorem retireSpec_settles (rt : Runtime) : SpecSettles rt .retire (retireSpec rt) where
  execute {request key payload w} hnew htime := by
    cases hnew with
    | retirement hvalid hpayload =>
        rename_i b createdAt
        subst hpayload
        change createdAt = w.clock at htime
        subst htime
        refine ⟨b, _, hvalid, replies_pure (.inr (.inr rfl)), ?_⟩
        change retire rt b key [] w = _
        rw [retire_eq, Program.bind_apply, now_runs w]
  reconcile event := ⟨_, replies_pure (.inr (.inr rfl)), reconcileRetirement_eq event⟩

/-! ## Records -/

/-- Write the records of a world. -/
def World.withRecords (w : World) (records : Storage String IdempotencyRecord) : World :=
  w.withDb (w.store.db.withRecords records)

/-- Records in which those of the other keys are the same. -/
def SameElsewhere (key : String) (records records' : Storage String IdempotencyRecord) : Prop :=
  ∀ k, k ≠ key → records'.get k = records.get k

/-- Records that are the same elsewhere as those of a third store. -/
theorem SameElsewhere.trans {records records' records'' : Storage String IdempotencyRecord}
    (h : SameElsewhere key records records') (h' : SameElsewhere key records' records'') :
    SameElsewhere key records records'' :=
  fun k hk => (h' k hk).trans (h k hk)

/-- Writing the record of the key leaves the others. -/
theorem SameElsewhere.set {records records' : Storage String IdempotencyRecord}
    (h : SameElsewhere key records records') (r : IdempotencyRecord) :
    SameElsewhere key records (records'.set key r) :=
  fun k hk => (Storage.get_set_of_ne _ _ hk).trans (h k hk)

/-- Removing the record of the key leaves the others. -/
theorem SameElsewhere.remove {records records' : Storage String IdempotencyRecord}
    (h : SameElsewhere key records records') :
    SameElsewhere key records (records'.remove key) :=
  fun k hk => by rw [Storage.get_remove, if_neg hk, h k hk]

/-- The record of a response to a request. -/
structure Recorded (fingerprint : String) (expiresAt : Int) (r : IdempotencyRecord) : Prop where
  fingerprint : r.fingerprint = fingerprint
  answered : r.Answered
  expiresAt : r.expiresAt = expiresAt

/-- A record is removed. -/
theorem deleteRecord_runs (key : String) (w : World) :
    (deleteRecord key).Runs w (.returned ()) (w.withRecords (w.store.db.records.remove key)) :=
  access_runs _ w

/-- A request that finds no record goes on without one. -/
theorem currentRecord_runs (husable : usable w.store.db key w.clock = none) :
    ∃ records, (currentRecord key w.clock).Runs w (.returned none) (w.withRecords records) ∧
      records.get key = none ∧ SameElsewhere key w.store.db.records records := by
  have hread : (getRecord key).Runs w (.returned (w.store.db.records.get key)) w :=
    access_runs _ w
  cases hrecord : w.store.db.records.get key with
  | none =>
      refine ⟨w.store.db.records, ?_, hrecord, fun _ _ => rfl⟩
      rw [hrecord] at hread
      exact hread.bind (Program.runs_pure _ _)
  | some r =>
      have hexpired : r.expiresAt ≤ w.clock := by
        simpa [usable, hrecord] using husable
      refine ⟨w.store.db.records.remove key, ?_, ?_, SameElsewhere.remove fun _ _ => rfl⟩
      · rw [hrecord] at hread
        refine hread.bind ?_
        change (if r.expiresAt ≤ w.clock then _ else _ : Action _).Runs w _ _
        rw [if_pos hexpired]
        exact (deleteRecord_runs key w).bind (Program.runs_pure _ _)
      · rw [Storage.get_remove, if_pos rfl]

/-! ## Execution -/

section

variable {Body : Type} {spec : IdempotentSpec Body} {fingerprint : String}
  {request : Option Json} {domain : Domain}

/-- A free key is marked. -/
theorem markInProgress_runs (fingerprint name : String) (expiresAt : Int)
    (hfree : w.store.db.records.get key = none) :
    ∃ r, (markInProgress key fingerprint name w.clock expiresAt false).Runs w (.returned ())
        (w.withRecords (w.store.db.records.set key r)) ∧
      r.fingerprint = fingerprint ∧ r.expiresAt = expiresAt := by
  refine ⟨⟨key, fingerprint, name, .inProgress, none, none, w.clock, expiresAt⟩, ?_, rfl, rfl⟩
  have hinsert := access_runs (fun s =>
    if s.db.records.has key then ((.error .database : Except Thrown Unit), s)
    else (.ok (), s.withDb (s.db.withRecords (s.db.records.set key
      ⟨key, fingerprint, name, .inProgress, none, none, w.clock, expiresAt⟩)))) w
  have hhas : w.store.db.records.has key = false := Storage.has_eq_false.mpr hfree
  simp only [hhas, Bool.false_eq_true, if_false] at hinsert
  exact hinsert

/-- A request that nothing is known of is executed. -/
theorem executeRequest_runs (cfg : AppConfig) (fingerprint : String)
    (hspec : SpecSettles rt endpoint spec)
    (hfree : w.store.db.records.get key = none) (hready : w.store.failNext = false)
    (hnew : NewPayload rt key request w.store.db.domain payload endpoint)
    (htime : payload.createdAt = w.clock)
    (happly : applyAs endpoint payload () w.store.db.domain = .ok ((), domain)) :
    ∃ records body, (executeRequest cfg spec key fingerprint request w.clock false).Runs w
        (.returned ⟨201, body, false, false⟩)
        (w.withDb ⟨records, domain, w.store.db.chainEvents ++ [w.newEvent key payload]⟩) ∧
      body.Reports payload ∧ SameElsewhere key w.store.db.records records ∧
      ∃ r, records.get key = some r ∧
        Recorded fingerprint (w.clock + cfg.idempotencyTtlSeconds) r := by
  rcases markInProgress_runs fingerprint spec.endpoint (w.clock + cfg.idempotencyTtlSeconds)
    hfree with ⟨marked, hmark, hfingerprint, hexpires⟩
  have hnew' : NewPayload rt key request
      (w.withRecords (w.store.db.records.set key marked)).store.db.domain payload endpoint := hnew
  rcases hspec.execute hnew' htime with ⟨b, answer, hvalid, hreplies, hexecute⟩
  rcases settle_runs (w := w.withRecords (w.store.db.records.set key marked)) key hready happly
    hreplies with ⟨body, hreports, hsettle⟩
  have hrun : (spec.execute b key).Runs (w.withRecords (w.store.db.records.set key marked)) _ _ :=
    hexecute.trans hsettle
  refine ⟨(w.store.db.records.set key marked).set key (completedRecord (some marked) key
    fingerprint spec.endpoint 201 body w.clock (w.clock + cfg.idempotencyTtlSeconds)), body, ?_,
    hreports, SameElsewhere.set (SameElsewhere.set (fun _ _ => rfl) marked) _, _,
    Storage.get_set_self _ _ _, ⟨hfingerprint, ⟨rfl, rfl⟩, hexpires⟩⟩
  unfold executeRequest
  rw [hvalid]
  refine hmark.bind (hrun.attempt_returned.bind ?_)
  have hcomplete := access_runs (fun s => ((.ok () : Except Thrown Unit), s.withDb
    (s.db.withRecords (s.db.records.set key (completedRecord (s.db.records.get key) key
      fingerprint spec.endpoint 201 body w.clock (w.clock + cfg.idempotencyTtlSeconds))))))
    ((w.withRecords (w.store.db.records.set key marked)).withDb
      (((w.withRecords (w.store.db.records.set key marked)).store.db.withEvent
        ((w.withRecords (w.store.db.records.set key marked)).newEvent key payload)).withDomain
          domain))
  have hmarked : (w.store.db.records.set key marked).get key = some marked :=
    Storage.get_set_self _ _ _
  refine Program.Runs.bind (a := ()) ?_ (Program.runs_pure _ _)
  refine hcomplete.trans ?_
  rw [← hmarked]
  rfl

/-- A request whose transaction fails has submitted its event and keeps no record. -/
theorem executeRequest_fails (cfg : AppConfig) (fingerprint : String)
    (hspec : SpecSettles rt endpoint spec)
    (hfree : w.store.db.records.get key = none) (hfail : w.store.failNext = true)
    (hnew : NewPayload rt key request w.store.db.domain payload endpoint)
    (htime : payload.createdAt = w.clock) :
    ∃ records message, (executeRequest cfg spec key fingerprint request w.clock false).Runs w
        (.returned (.reject 500 message))
        ((w.withDb ⟨records, w.store.db.domain,
          w.store.db.chainEvents ++ [w.newEvent key payload]⟩).withFailNext false) ∧
      SameElsewhere key w.store.db.records records ∧ records.get key = none := by
  rcases markInProgress_runs fingerprint spec.endpoint (w.clock + cfg.idempotencyTtlSeconds)
    hfree with ⟨marked, hmark, -⟩
  have hnew' : NewPayload rt key request
      (w.withRecords (w.store.db.records.set key marked)).store.db.domain payload endpoint := hnew
  rcases hspec.execute hnew' htime with ⟨b, answer, hvalid, -, hexecute⟩
  have hfail' : (w.withRecords (w.store.db.records.set key marked)).store.failNext = true := hfail
  have hrun : (spec.execute b key).Runs (w.withRecords (w.store.db.records.set key marked)) _ _ :=
    hexecute.trans (settle_fails key answer hfail')
  rcases Thrown.response_eq .database with ⟨message, hresponse⟩
  refine ⟨(w.store.db.records.set key marked).remove key, message, ?_,
    SameElsewhere.remove (SameElsewhere.set (fun _ _ => rfl) marked), ?_⟩
  · have hstatus : Response.reject 500 message = Thrown.database.response := hresponse.symm
    rw [hstatus]
    unfold executeRequest
    rw [hvalid]
    refine hmark.bind (hrun.attempt_thrown.bind ?_)
    exact (deleteRecord_runs key _).bind (Program.runs_pure _ _)
  · rw [Storage.get_remove, if_pos rfl]

/-- A request with a recent event is answered from it. -/
theorem reconcile_runs (fingerprint : String) (request : Option Json)
    (hspec : SpecSettles rt endpoint spec) {ev : ChainEvent}
    (hfree : w.store.db.records.get key = none) (hready : w.store.failNext = false)
    (hrecent : Recent cfg w.store.db key w.clock ev)
    (happly : applyAs endpoint ev.payload () w.store.db.domain = .ok ((), domain)) :
    ∃ records body, (reconcileOrExecute cfg spec key fingerprint request w.clock false).Runs w
        (.returned ⟨200, body, true, true⟩)
        (w.withDb ⟨records, domain, w.store.db.chainEvents⟩) ∧
      body.Reports ev.payload ∧ SameElsewhere key w.store.db.records records ∧
      ∃ r, records.get key = some r ∧
        Recorded fingerprint (w.clock + cfg.idempotencyTtlSeconds) r := by
  rcases hspec.reconcile ev with ⟨answer, hreplies, hreconcile⟩
  rcases reapply_runs hready happly hreplies with ⟨body, hreports, hreapply⟩
  rw [← hreconcile] at hreapply
  refine ⟨w.store.db.records.set key (completedRecord none key fingerprint spec.endpoint 200 body
    w.clock (w.clock + cfg.idempotencyTtlSeconds)), body, ?_, hreports,
    SameElsewhere.set (fun _ _ => rfl) _, _, Storage.get_set_self _ _ _, ⟨rfl, ⟨rfl, rfl⟩, rfl⟩⟩
  have hfind : (findEvent key).Runs w (.returned (some ev)) w := by
    rw [← hrecent.1]
    exact access_runs _ w
  refine hfind.bind ?_
  change (if w.clock - ev.createdAt < cfg.idempotencyTtlSeconds then _ else _ :
    Action Response).Runs w _ _
  rw [if_pos hrecent.2]
  refine hreapply.bind ?_
  have hcomplete := access_runs (fun s => ((.ok () : Except Thrown Unit), s.withDb
    (s.db.withRecords (s.db.records.set key (completedRecord (s.db.records.get key) key
      fingerprint spec.endpoint 200 body w.clock (w.clock + cfg.idempotencyTtlSeconds))))))
    (w.withDb (w.store.db.withDomain domain))
  refine Program.Runs.bind (a := ()) ?_ (Program.runs_pure _ _)
  refine hcomplete.trans ?_
  rw [← hfree]
  rfl

/-- A request without a recent event is executed. -/
theorem reconcileOrExecute_eq {hasRecord : Bool}
    (hold : ¬ ∃ ev, Recent cfg w.store.db key w.clock ev) :
    reconcileOrExecute cfg spec key fingerprint request w.clock hasRecord [] w =
      executeRequest cfg spec key fingerprint request w.clock hasRecord [] w := by
  have hfind : (findEvent key).Runs w (.returned (latestEvent w.store.db.chainEvents key)) w :=
    access_runs _ w
  unfold reconcileOrExecute
  rw [Program.bind_apply, hfind]
  cases hlatest : latestEvent w.store.db.chainEvents key with
  | none => rfl
  | some ev =>
      have hnotRecent : ¬ w.clock - ev.createdAt < cfg.idempotencyTtlSeconds :=
        fun h => hold ⟨ev, hlatest, h⟩
      change (if w.clock - ev.createdAt < cfg.idempotencyTtlSeconds then _ else _ :
        Action Response) [] w = _
      rw [if_neg hnotRecent]

/-! ## Requests -/

/-- Time passes before a request reads the clock, and nothing disturbs it. -/
def quiet (elapsed : Nat) : List Tick := [⟨elapsed, none⟩]

/-- What there is in a world, apart from its records. -/
structure Snapshot (domain : Domain) (events : List ChainEvent) (clock : Int) (failNext : Bool)
    (w : World) : Prop where
  domain : w.store.db.domain = domain
  events : w.store.db.chainEvents = events
  clock : w.clock = clock
  failNext : w.store.failNext = failNext

/-- The world before the first request. -/
theorem snapshot_initial : Snapshot Domain.empty [] 0 false World.initial :=
  ⟨rfl, rfl, rfl, rfl⟩

/-- The switch of the test hook, set in a world of which this much is known. -/
theorem Snapshot.failNextTransaction (cfg : AppConfig) (rt : Runtime) {d : Domain}
    {events : List ChainEvent} {time : Int} {failNext : Bool}
    (hw : Snapshot d events time failNext w) :
    Snapshot d events time true (step cfg rt w .failNextTransaction) :=
  ⟨hw.domain, hw.events, hw.clock, rfl⟩

/-- A request arrives when it is sent, some time later. -/
theorem arrival_quiet (w : World) (n : Nat) : arrival w (quiet n) = w.clock + n :=
  rfl

/-- Every request is served by the service of its endpoint. -/
theorem handleRequest_spec (cfg : AppConfig) (rt : Runtime) (req : Request) :
    ∃ (Body : Type) (spec : IdempotentSpec Body), SpecSettles rt req.endpoint spec ∧
      handleRequest cfg rt req = idempotent cfg rt spec req := by
  unfold handleRequest
  cases req.endpoint with
  | listings => exact ⟨_, _, listingsSpec_settles rt, rfl⟩
  | purchases => exact ⟨_, _, purchasesSpec_settles rt, rfl⟩
  | retire => exact ⟨_, _, retireSpec_settles rt, rfl⟩

/-- A step of the backend, from the run of its handler at the time of the arrival. -/
theorem step_quiet {req : Request} {n : Nat} {r : Response} {w' : World}
    (hhandler : handleRequest cfg rt req = idempotent cfg rt spec req)
    (hkey : req.key.filter validKey = some key)
    (hrun : (answerAt cfg spec key (fingerprintOf rt req) req.body (w.later n).clock).Runs
      (w.later n) (.returned r) w') :
    response cfg rt w req (quiet n) = some r ∧ step cfg rt w (.request req (quiet n)) = w' := by
  have hquiet : handleRequest cfg rt req (quiet n) w = (.returned r, [], w') := by
    have hnow : now (quiet n) w = (.returned (w.later n).clock, [], w.later n) := rfl
    rw [hhandler]
    unfold idempotent
    rw [hkey]
    change (now >>= fun time => answerAt cfg spec key (fingerprintOf rt req) req.body time)
      (quiet n) w = _
    rw [Program.bind_apply, hnow]
    exact hrun
  constructor
  · rw [response, hquiet]
    rfl
  · change (handleRequest cfg rt req (quiet n) w).2.2.after (handleRequest cfg rt req _ w).1 = w'
    rw [hquiet]
    rfl

/-- No submission is recent once all are old. -/
theorem not_recent_of_old {db : Database} {time : Int}
    (hold : ∀ ev, latestEvent db.chainEvents key = some ev →
      ev.createdAt + cfg.idempotencyTtlSeconds ≤ time) : ¬ ∃ ev, Recent cfg db key time ev := by
  intro h
  rcases h with ⟨ev, hlatest, hrecent⟩
  have hev := hold ev hlatest
  omega

section

variable {d : Domain} {events : List ChainEvent} {req : Request} {time time' : Int} {n : Nat}

/-- A request without a record and without a recent event submits a new event and applies it. -/
theorem request_executes (cfg : AppConfig) (rt : Runtime) (hw : Snapshot d events time false w)
    (hkey : req.key.filter validKey = some key) (htime : time + n = time')
    (husable : usable w.store.db key time' = none)
    (hold : ∀ ev, latestEvent events key = some ev →
      ev.createdAt + cfg.idempotencyTtlSeconds ≤ time')
    (hnew : NewPayload rt key req.body d payload req.endpoint)
    (hcreated : payload.createdAt = time')
    (happly : applyAs req.endpoint payload () d = .ok ((), domain)) :
    ∃ body, response cfg rt w req (quiet n) = some ⟨201, body, false, false⟩ ∧
      body.Reports payload ∧
      Snapshot domain (events ++ [⟨events.length + 1, key, payload, time'⟩]) time' false
        (step cfg rt w (.request req (quiet n))) ∧
      SameElsewhere key w.store.db.records
        (step cfg rt w (.request req (quiet n))).store.db.records ∧
      ∃ r, (step cfg rt w (.request req (quiet n))).store.db.records.get key = some r ∧
        Recorded (fingerprintOf rt req) (time' + cfg.idempotencyTtlSeconds) r := by
  rcases hw with ⟨rfl, rfl, rfl, hready⟩
  subst htime
  rcases handleRequest_spec cfg rt req with ⟨Body, spec, hspec, hhandler⟩
  have husable' : usable (w.later n).store.db key (w.later n).clock = none := husable
  rcases currentRecord_runs husable' with ⟨records₁, hcurrent, hfree, hsame⟩
  rcases executeRequest_runs cfg (fingerprintOf rt req) (w := (w.later n).withRecords records₁)
    hspec hfree hready hnew hcreated happly with
    ⟨records, body, hexecute, hreports, hsame', hrecord⟩
  have hrun : (answerAt cfg spec key (fingerprintOf rt req) req.body (w.later n).clock).Runs
      (w.later n) (.returned ⟨201, body, false, false⟩) _ :=
    hcurrent.bind ((reconcileOrExecute_eq (w := (w.later n).withRecords records₁)
      (not_recent_of_old hold)).trans hexecute)
  rcases step_quiet hhandler hkey hrun with ⟨hresponse, hstep⟩
  rw [hstep]
  exact ⟨body, hresponse, hreports, ⟨rfl, rfl, rfl, hready⟩, hsame.trans hsame', hrecord⟩

/-- A request whose transaction is made to fail submits a new event and leaves no record. -/
theorem request_crashes (cfg : AppConfig) (rt : Runtime) (hw : Snapshot d events time true w)
    (hkey : req.key.filter validKey = some key) (htime : time + n = time')
    (husable : usable w.store.db key time' = none)
    (hold : ∀ ev, latestEvent events key = some ev →
      ev.createdAt + cfg.idempotencyTtlSeconds ≤ time')
    (hnew : NewPayload rt key req.body d payload req.endpoint)
    (hcreated : payload.createdAt = time') :
    ∃ message, response cfg rt w req (quiet n) = some (.reject 500 message) ∧
      Snapshot d (events ++ [⟨events.length + 1, key, payload, time'⟩]) time' false
        (step cfg rt w (.request req (quiet n))) ∧
      SameElsewhere key w.store.db.records
        (step cfg rt w (.request req (quiet n))).store.db.records ∧
      (step cfg rt w (.request req (quiet n))).store.db.records.get key = none := by
  rcases hw with ⟨rfl, rfl, rfl, hfail⟩
  subst htime
  rcases handleRequest_spec cfg rt req with ⟨Body, spec, hspec, hhandler⟩
  have husable' : usable (w.later n).store.db key (w.later n).clock = none := husable
  rcases currentRecord_runs husable' with ⟨records₁, hcurrent, hfree, hsame⟩
  rcases executeRequest_fails cfg (fingerprintOf rt req) (w := (w.later n).withRecords records₁)
    hspec hfree hfail hnew hcreated with ⟨records, message, hexecute, hsame', hrecord⟩
  have hrun : (answerAt cfg spec key (fingerprintOf rt req) req.body (w.later n).clock).Runs
      (w.later n) (.returned (.reject 500 message)) _ :=
    hcurrent.bind ((reconcileOrExecute_eq (w := (w.later n).withRecords records₁)
      (not_recent_of_old hold)).trans hexecute)
  rcases step_quiet hhandler hkey hrun with ⟨hresponse, hstep⟩
  rw [hstep]
  exact ⟨message, hresponse, ⟨rfl, rfl, rfl, rfl⟩, hsame.trans hsame', hrecord⟩

/-- A request without a record is answered from a recent event of its key, whatever it asks. -/
theorem request_reconciles (cfg : AppConfig) (rt : Runtime) {ev : ChainEvent}
    (hw : Snapshot d events time false w)
    (hkey : req.key.filter validKey = some key) (htime : time + n = time')
    (husable : usable w.store.db key time' = none)
    (hlatest : latestEvent events key = some ev)
    (hrecent : time' - ev.createdAt < cfg.idempotencyTtlSeconds)
    (happly : applyAs req.endpoint ev.payload () d = .ok ((), domain)) :
    ∃ body, response cfg rt w req (quiet n) = some ⟨200, body, true, true⟩ ∧
      body.Reports ev.payload ∧
      Snapshot domain events time' false (step cfg rt w (.request req (quiet n))) ∧
      SameElsewhere key w.store.db.records
        (step cfg rt w (.request req (quiet n))).store.db.records ∧
      ∃ r, (step cfg rt w (.request req (quiet n))).store.db.records.get key = some r ∧
        Recorded (fingerprintOf rt req) (time' + cfg.idempotencyTtlSeconds) r := by
  rcases hw with ⟨rfl, rfl, rfl, hready⟩
  subst htime
  rcases handleRequest_spec cfg rt req with ⟨Body, spec, hspec, hhandler⟩
  have husable' : usable (w.later n).store.db key (w.later n).clock = none := husable
  rcases currentRecord_runs husable' with ⟨records₁, hcurrent, hfree, hsame⟩
  rcases reconcile_runs (fingerprintOf rt req) req.body (w := (w.later n).withRecords records₁)
    hspec hfree hready ⟨hlatest, hrecent⟩ happly with
    ⟨records, body, hreconcile, hreports, hsame', hrecord⟩
  have hrun : (answerAt cfg spec key (fingerprintOf rt req) req.body (w.later n).clock).Runs
      (w.later n) (.returned ⟨200, body, true, true⟩) _ :=
    hcurrent.bind hreconcile
  rcases step_quiet hhandler hkey hrun with ⟨hresponse, hstep⟩
  rw [hstep]
  exact ⟨body, hresponse, hreports, ⟨rfl, rfl, rfl, hready⟩, hsame.trans hsame', hrecord⟩

end

/-- No record is usable where none is stored. -/
theorem usable_of_none {db : Database} {time : Int} (h : db.records.get key = none) :
    usable db key time = none := by
  rw [usable, h]
  rfl

/-- A record that has not expired is usable. -/
theorem usable_of_record {db : Database} {time : Int} {r : IdempotencyRecord}
    (h : db.records.get key = some r) (htime : time < r.expiresAt) :
    usable db key time = some r := by
  rw [usable, h, Option.filter_some, if_pos (decide_eq_true htime)]

/-- A record that has expired is not usable. -/
theorem usable_of_expired {db : Database} {time : Int} {r : IdempotencyRecord}
    (h : db.records.get key = some r) (htime : r.expiresAt ≤ time) : usable db key time = none := by
  have hexpired : ¬ time < r.expiresAt := not_lt.mpr htime
  rw [usable, h, Option.filter_some, if_neg (by simpa using hexpired)]

/-- A key without events has no latest one. -/
theorem latestEvent_eq_none {events : List ChainEvent} (h : ∀ ev ∈ events, ev.dedupId ≠ key) :
    latestEvent events key = none := by
  cases hlatest : latestEvent events key with
  | none => rfl
  | some ev =>
      have hev := latestEvent_mem hlatest
      exact absurd hev.2 (h ev hev.1)

end

/-- A valid key is taken as it is. -/
theorem filter_validKey (h : validKey key = true) : (some key).filter validKey = some key := by
  rw [Option.filter_some, if_pos h]

/-- A runtime whose hash is the text itself. -/
def plainRuntime : Runtime where
  sha256Hex text := text
  print := ⟨fun s => "\"" ++ s ++ "\"", fun x => toString x.num⟩

/-! ## A listing of ten units -/

/-- Ten units. -/
abbrev tenUnits : Quantity := ⟨10, by decide⟩

/-- A request for a listing of ten units. -/
def stockRequest : Request :=
  ⟨.listings, "/marketplace/listings", some "stock",
    some (CreateListingBody.json ⟨"seller", "batch", ⟨10, by decide⟩, ⟨1, by decide⟩⟩)⟩

/-- The payload of the listing. -/
def stockPayload (rt : Runtime) : ListingPayload :=
  ⟨deriveId rt "lst" "stock", "seller", "batch", ⟨10, by decide⟩, ⟨1, by decide⟩, 0⟩

/-- The tables when the ten units are listed. -/
def stockDomain (rt : Runtime) : Domain :=
  Domain.empty.withListing ((stockPayload rt).row 10)

/-- The listing is stored. -/
theorem get_stockDomain (rt : Runtime) :
    (stockDomain rt).listings.get (deriveId rt "lst" "stock") = some ((stockPayload rt).row 10) :=
  Storage.get_set_self _ _ _

/-- The key of the listing is valid. -/
theorem validKey_stock : stockRequest.key.filter validKey = some "stock" :=
  filter_validKey (by decide)

/-- The listing is new. -/
theorem newPayload_stock (rt : Runtime) :
    NewPayload rt "stock" stockRequest.body Domain.empty (.listingCreated (stockPayload rt))
      .listings := by
  have hvalid : validateCreateListing stockRequest.body =
      .ok ⟨"seller", "batch", ⟨10, by decide⟩, ⟨1, by decide⟩⟩ :=
    validateCreateListing_json (by decide) (by decide)
  exact .listing hvalid rfl

/-- The listing is applied. -/
theorem applyAs_stock (rt : Runtime) :
    applyAs .listings (.listingCreated (stockPayload rt)) () Domain.empty =
      .ok ((), stockDomain rt) :=
  applyListing_eq_ok.mpr ⟨stockPayload rt, rfl, rfl⟩

/-- The event of the listing. -/
def stockEvent (rt : Runtime) : ChainEvent := ⟨1, "stock", .listingCreated (stockPayload rt), 0⟩

/-- The first request of all lists the ten units. -/
theorem stock_executes (cfg : AppConfig) (rt : Runtime) :
    Snapshot (stockDomain rt) [stockEvent rt] 0 false
        (step cfg rt World.initial (.request stockRequest (quiet 0))) ∧
      SameElsewhere "stock" Storage.empty
        (step cfg rt World.initial (.request stockRequest (quiet 0))).store.db.records ∧
      ∃ r, (step cfg rt World.initial (.request stockRequest (quiet 0))).store.db.records.get
        "stock" = some r ∧ r.expiresAt = cfg.idempotencyTtlSeconds := by
  have hstill : (0 : Int) + (0 : Nat) = 0 := rfl
  rcases request_executes cfg rt snapshot_initial validKey_stock hstill
    (usable_of_none rfl) (fun ev hev => by cases hev) (newPayload_stock rt) rfl (applyAs_stock rt)
    with ⟨-, -, -, hw, hsame, r, hr, hrecorded⟩
  exact ⟨hw, hsame, r, hr, hrecorded.expiresAt.trans (Int.zero_add _)⟩

/-! ## A retirement -/

/-- A request for a retirement. -/
def retireRequest (key : String) (quantity : Quantity) : Request :=
  ⟨.retire, "/credits/retire", some key, some (RetireBody.json ⟨"owner", "batch", quantity, none⟩)⟩

/-- The payload of the retirement. -/
def retirePayload (rt : Runtime) (key : String) (quantity : Quantity) (createdAt : Int) :
    RetirementPayload :=
  ⟨deriveId rt "ret" key, "owner", "batch", quantity, none, createdAt⟩

/-- The key of a retirement is valid. -/
theorem validKey_retire (h : validKey key = true) (quantity : Quantity) :
    (retireRequest key quantity).key.filter validKey = some key :=
  filter_validKey h

/-- A retirement is new. -/
theorem newPayload_retire (rt : Runtime) (d : Domain) (key : String) (quantity : Quantity)
    (createdAt : Int) :
    NewPayload rt key (retireRequest key quantity).body d
      (.creditsRetired (retirePayload rt key quantity createdAt)) .retire := by
  have howner : "owner" ≠ "" := by decide
  have hbatch : "batch" ≠ "" := by decide
  have hvalid : validateRetire (retireRequest key quantity).body =
      .ok ⟨"owner", "batch", quantity, none⟩ :=
    validateRetire_json howner hbatch
  exact .retirement hvalid rfl

/-- A retirement is applied. -/
theorem applyAs_retire {rt : Runtime} {d : Domain} {key : String} (quantity : Quantity)
    (createdAt : Int) (hfresh : d.retirements.get (deriveId rt "ret" key) = none) :
    applyAs .retire (.creditsRetired (retirePayload rt key quantity createdAt)) () d =
      .ok ((), d.withRetirement (retirePayload rt key quantity createdAt).row) :=
  applyRetirement_eq_ok.mpr (.inl ⟨_, rfl, hfresh, rfl⟩)

/-- A retirement under a used key is skipped. -/
theorem applyAs_retire_again {rt : Runtime} {d : Domain} {key : String} (quantity : Quantity)
    (createdAt : Int) {row : RetirementRow}
    (hrow : d.retirements.get (deriveId rt "ret" key) = some row) :
    applyAs .retire (.creditsRetired (retirePayload rt key quantity createdAt)) () d =
      .ok ((), d) := by
  refine applyRetirement_eq_ok.mpr (.inr ⟨fun p hp => ?_, rfl⟩)
  rw [Payload.creditsRetired.injEq] at hp
  rw [← hp]
  exact Option.isSome_iff_exists.mpr ⟨row, hrow⟩

/-- The tables when ten units are retired. -/
def retiredDomain (rt : Runtime) : Domain :=
  Domain.empty.withRetirement (retirePayload rt "key" tenUnits 0).row

/-- The event of the retirement. -/
def retiredEvent (rt : Runtime) : ChainEvent :=
  ⟨1, "key", .creditsRetired (retirePayload rt "key" tenUnits 0), 0⟩

/-- The retirement is stored. -/
theorem get_retiredDomain (rt : Runtime) :
    (retiredDomain rt).retirements.get (deriveId rt "ret" "key") =
      some (retirePayload rt "key" tenUnits 0).row :=
  Storage.get_set_self _ _ _

/-- The event of the retirement is not recent when its lifetime is over. -/
theorem latestEvent_retired (cfg : AppConfig) {rt : Runtime} {ev : ChainEvent}
    (h : latestEvent [retiredEvent rt] "key" = some ev) :
    ev.createdAt + cfg.idempotencyTtlSeconds ≤ cfg.idempotencyTtlSeconds := by
  have hlatest : latestEvent ([] ++ [retiredEvent rt]) "key" = some (retiredEvent rt) :=
    latestEvent_append_self [] rfl
  have hev : retiredEvent rt = ev := Option.some.inj (hlatest.symm.trans h)
  rw [← hev]
  exact (Int.zero_add _).le

/-- The first request of all retires ten units. -/
theorem retire_executes (cfg : AppConfig) (rt : Runtime) :
    Snapshot (retiredDomain rt) [retiredEvent rt] 0 false
        (step cfg rt World.initial (.request (retireRequest "key" tenUnits) (quiet 0))) ∧
      ∃ r, (step cfg rt World.initial (.request (retireRequest "key" tenUnits)
        (quiet 0))).store.db.records.get "key" = some r ∧
        r.expiresAt = cfg.idempotencyTtlSeconds := by
  have hstill : (0 : Int) + (0 : Nat) = 0 := rfl
  rcases request_executes cfg rt snapshot_initial (validKey_retire (by decide) tenUnits) hstill
    (usable_of_none rfl) (fun ev hev => by cases hev)
    (newPayload_retire rt _ "key" tenUnits 0) rfl
    (applyAs_retire tenUnits 0 (Storage.get_empty _)) with
    ⟨-, -, -, hw, -, r, hr, hrecorded⟩
  exact ⟨hw, r, hr, hrecorded.expiresAt.trans (Int.zero_add _)⟩

end Backend
end Kraal
