import Kraal.Backend.Idempotency

/-!
# Everything a request can do

The inversion of the idempotency middleware.  A request under a valid key is answered from its
record, rejected, answered from an event, or executed, and each of these can be cut short by a
fault.  All that is proved about runs of the backend is proved from these cases.

Main results:

- Definition {lit}`Outcome`: the cases.
- Theorem {lit}`answerAt_outcome`: a request does one of these things, whatever goes wrong.
- Theorem {lit}`step_request`: the same for a step of the backend.
-/

namespace Kraal
namespace Backend

open Foundation

/-! ## What a request finds -/

/-- The record that a request finds under its key: one that has expired is none. -/
def usable (db : Database) (key : String) (time : Int) : Option IdempotencyRecord :=
  (db.records.get key).filter fun r => time < r.expiresAt

/-- A record holds a response. -/
def IdempotencyRecord.Answered (r : IdempotencyRecord) : Prop :=
  r.status = .completed ∧ r.responseBody.isSome = true

/-- A record of the same request that holds no response. -/
def Pending (fingerprint : String) (r : IdempotencyRecord) : Prop :=
  r.fingerprint = fingerprint ∧ ¬ r.Answered

/-- No record stands in the way of a request. -/
def Open (db : Database) (key fingerprint : String) (time : Int) : Prop :=
  ∀ r, usable db key time = some r → Pending fingerprint r

/-- The most recent event of a key has not expired. -/
def Recent (cfg : AppConfig) (db : Database) (key : String) (time : Int) (ev : ChainEvent) :
    Prop :=
  latestEvent db.chainEvents key = some ev ∧ time - ev.createdAt < cfg.idempotencyTtlSeconds

/-! ## What a request leaves -/

/-- The records of the other keys are kept. -/
def OthersKept (key : String) (db db' : Database) : Prop :=
  ∀ k, k ≠ key → db'.records.get k = db.records.get k

/-- A request without a response leaves a record as it was, or removes it, or leaves one of its
own behind. -/
def Kept (cfg : AppConfig) (fingerprint : String) (time : Int)
    (old new : Option IdempotencyRecord) : Prop :=
  new = old ∨ new = none ∨ ∃ r, new = some r ∧ Pending fingerprint r ∧
    r.expiresAt = time + cfg.idempotencyTtlSeconds

/-- A program has not returned. -/
def NotReturned {α : Type} : Exit Thrown α → Prop
  | .returned _ => False
  | .thrown _ => True
  | .stopped => True

/-- A response of the middleware that reports no success. -/
def Unsuccessful : Exit Thrown Response → Prop
  | .returned r => ∃ status message, (status = 404 ∨ status = 409 ∨ status = 500) ∧
      r = .reject status message
  | .thrown _ => True
  | .stopped => True

/-- A client sees an internal error of a program that has not returned, if anything. -/
theorem NotReturned.status {exit : Exit Thrown Response} (h : NotReturned exit) {r : Response}
    (hr : answer exit = some r) : r.status = 500 := by
  cases exit with
  | returned r => exact h.elim
  | thrown e =>
      rw [answer, Option.some.injEq] at hr
      rw [← hr, Response.reject_status]
  | stopped => cases hr

theorem Unsuccessful.status {exit : Exit Thrown Response} (h : Unsuccessful exit) {r : Response}
    (hr : answer exit = some r) : r.status = 404 ∨ r.status = 409 ∨ r.status = 500 := by
  cases exit with
  | returned r' =>
      rcases h with ⟨status, message, hstatus, rfl⟩
      rw [answer, Option.some.injEq] at hr
      rw [← hr]
      exact hstatus
  | thrown e =>
      rw [answer, Option.some.injEq] at hr
      rw [← hr]
      exact .inr (.inr rfl)
  | stopped => cases hr

section

variable (cfg : AppConfig) (rt : Runtime) (allowed : Tick → Prop) (endpoint : Endpoint)
  (key fingerprint : String) (request : Option Json) (time : Int) (db : Database)

/-- Everything a request under a valid key can do. -/
inductive Outcome : Exit Thrown Response → Database → Int → Prop
  /-- It is answered from its record. -/
  | replayed {db' : Database} {clock' : Int} {r : IdempotencyRecord} {body : ResponseBody}
      (hrecord : usable db key time = some r) (hfingerprint : r.fingerprint = fingerprint)
      (hstatus : r.status = .completed) (hbody : r.responseBody = some body)
      (hdb : db' = db) : Outcome (.returned ⟨200, body, true, false⟩) db' clock'
  /-- Its key belongs to another request. -/
  | mismatched {db' : Database} {clock' : Int} {r : IdempotencyRecord} {message : String}
      (hrecord : usable db key time = some r) (hfingerprint : r.fingerprint ≠ fingerprint)
      (hdb : db' = db) : Outcome (.returned (.reject 422 message)) db' clock'
  /-- It is rejected without a submission. -/
  | rejected {db' : Database} {clock' : Int} {status : Nat} {message : String}
      (hstatus : status = 400 ∨ status = 404 ∨ status = 409 ∨ status = 500)
      (hopen : Open db key fingerprint time)
      (hold : ¬ ∃ ev, Recent cfg db key time ev)
      (hevents : db'.chainEvents = db.chainEvents)
      (hdomain : db'.domain = db.domain)
      (hothers : OthersKept key db db')
      (hrecord : Kept cfg fingerprint time (db.records.get key)
        (db'.records.get key)) : Outcome (.returned (.reject status message)) db' clock'
  /-- It fails before it has done anything: by a fault, or with the event of its key. -/
  | failed {db' : Database} {clock' : Int} {exit : Exit Thrown Response} (hexit : NotReturned exit)
      (hwhy : (∃ fault, MayFault allowed fault) ∨
        Open db key fingerprint time ∧ ∃ ev, Recent cfg db key time ev)
      (hevents : db'.chainEvents = db.chainEvents)
      (hdomain : db'.domain = db.domain)
      (hothers : OthersKept key db db')
      (hrecord : Kept cfg fingerprint time (db.records.get key)
        (db'.records.get key)) : Outcome exit db' clock'
  /-- It applies the event of its key, and a fault loses the response. -/
  | lost {db' : Database} {clock' : Int} {exit : Exit Thrown Response} {ev : ChainEvent}
      {domain : Domain} (hexit : NotReturned exit) (hfault : Blamed allowed exit)
      (hopen : Open db key fingerprint time)
      (hrecent : Recent cfg db key time ev)
      (happly : applyAs endpoint ev.payload () db.domain = .ok ((), domain))
      (hevents : db'.chainEvents = db.chainEvents)
      (hdomain : db'.domain = domain)
      (hothers : OthersKept key db db')
      (hrecord : db'.records.get key = usable db key time) : Outcome exit db' clock'
  /-- It is answered with the event of its key. -/
  | reconciled {db' : Database} {clock' : Int} {ev : ChainEvent} {domain : Domain}
      {body : ResponseBody} {name : String} (hopen : Open db key fingerprint time)
      (hrecent : Recent cfg db key time ev)
      (happly : applyAs endpoint ev.payload () db.domain = .ok ((), domain))
      (hbody : body.Reports ev.payload)
      (hevents : db'.chainEvents = db.chainEvents)
      (hdomain : db'.domain = domain)
      (hothers : OthersKept key db db')
      (hrecord : db'.records.get key =
        some (completedRecord (usable db key time) key fingerprint name 200 body time
          (time + cfg.idempotencyTtlSeconds))) :
      Outcome (.returned ⟨200, body, true, true⟩) db' clock'
  /-- It submits an event and fails. -/
  | submitted {db' : Database} {clock' : Int} {exit : Exit Thrown Response} {ev : ChainEvent}
      (hexit : Unsuccessful exit) (hopen : Open db key fingerprint time)
      (hold : ¬ ∃ ev, Recent cfg db key time ev)
      (hev : Submission rt endpoint key request db time ev) (hclock : ev.createdAt ≤ clock')
      (hevents : db'.chainEvents = db.chainEvents ++ [ev])
      (hdomain : db'.domain = db.domain ∨ ∃ domain,
        applyAs endpoint ev.payload () db.domain = .ok ((), domain) ∧
        db'.domain = domain ∧ Blamed allowed exit)
      (hothers : OthersKept key db db')
      (hrecord : Kept cfg fingerprint time (usable db key time)
        (db'.records.get key)) : Outcome exit db' clock'
  /-- It is executed. -/
  | executed {db' : Database} {clock' : Int} {ev : ChainEvent} {domain : Domain}
      {body : ResponseBody} {name : String}
      (hopen : Open db key fingerprint time)
      (hold : ¬ ∃ ev, Recent cfg db key time ev)
      (hev : Submission rt endpoint key request db time ev) (hclock : ev.createdAt ≤ clock')
      (happly : applyAs endpoint ev.payload () db.domain = .ok ((), domain))
      (hbody : body.Reports ev.payload)
      (hevents : db'.chainEvents = db.chainEvents ++ [ev])
      (hdomain : db'.domain = domain)
      (hothers : OthersKept key db db')
      (hrecord : ∃ marked, Kept cfg fingerprint time (usable db key time) (some marked) ∧
        db'.records.get key =
          some (completedRecord (some marked) key fingerprint name 201 body time
            (time + cfg.idempotencyTtlSeconds))) :
      Outcome (.returned ⟨201, body, false, false⟩) db' clock'

variable {cfg rt allowed endpoint key fingerprint request time db} in
/-- A request leaves the records of the other keys alone. -/
theorem Outcome.others {exit : Exit Thrown Response} {db' : Database} {clock' : Int}
    (h : Outcome cfg rt allowed endpoint key fingerprint request time db exit db' clock') :
    OthersKept key db db' := by
  cases h with
  | replayed _ _ _ _ hdb => exact fun _ _ => by rw [hdb]
  | mismatched _ _ hdb => exact fun _ _ => by rw [hdb]
  | rejected _ _ _ _ _ hothers _ => exact hothers
  | failed _ _ _ _ hothers _ => exact hothers
  | lost _ _ _ _ _ _ _ hothers _ => exact hothers
  | reconciled _ _ _ _ _ _ hothers _ => exact hothers
  | submitted _ _ _ _ _ _ _ hothers _ => exact hothers
  | executed _ _ _ _ _ _ _ _ hothers _ => exact hothers

variable {cfg rt allowed endpoint key fingerprint request time db} in
/-- A successful response is the one on the record of its key. -/
theorem Outcome.success {exit : Exit Thrown Response} {db' : Database} {clock' : Int}
    {response : Response}
    (h : Outcome cfg rt allowed endpoint key fingerprint request time db exit db' clock')
    (hresponse : answer exit = some response) (hstatus : response.status < 400) :
    ∃ r, db'.records.get key = some r ∧ r.status = .completed ∧
      r.responseBody = some response.body := by
  cases h with
  | replayed hrecord _ hcompleted hbody hdb =>
      rw [answer, Option.some.injEq] at hresponse
      rw [hdb, ← hresponse]
      exact ⟨_, (Option.mem_filter_iff.mp hrecord).1, hcompleted, hbody⟩
  | mismatched _ _ _ =>
      rw [answer, Option.some.injEq] at hresponse
      rw [← hresponse, Response.reject_status] at hstatus
      omega
  | rejected hrejected _ _ _ _ _ _ =>
      rw [answer, Option.some.injEq] at hresponse
      rw [← hresponse, Response.reject_status] at hstatus
      omega
  | failed hexit _ _ _ _ _ =>
      have h500 := hexit.status hresponse
      omega
  | lost hexit _ _ _ _ _ _ _ _ =>
      have h500 := hexit.status hresponse
      omega
  | reconciled _ _ _ _ _ _ _ hrecord =>
      rw [answer, Option.some.injEq] at hresponse
      rw [← hresponse]
      exact ⟨_, hrecord, completedRecord_status, completedRecord_responseBody⟩
  | submitted hexit _ _ _ _ _ _ _ _ =>
      have herror := hexit.status hresponse
      omega
  | executed _ _ _ _ _ _ _ _ _ hrecord =>
      rcases hrecord with ⟨marked, -, hrecord⟩
      rw [answer, Option.some.injEq] at hresponse
      rw [← hresponse]
      exact ⟨_, hrecord, completedRecord_status, completedRecord_responseBody⟩

variable {cfg rt allowed endpoint key fingerprint request time db} in
/-- A request that is answered with success leaves its response on its record. -/
theorem Outcome.answered {exit : Exit Thrown Response} {db' : Database} {clock' : Int}
    {response : Response}
    (h : Outcome cfg rt allowed endpoint key fingerprint request time db exit db' clock')
    (hresponse : answer exit = some response) (hstatus : response.status < 400) :
    ∃ r, db'.records.get key = some r ∧ r.Answered ∧ r.responseBody = some response.body := by
  rcases h.success hresponse hstatus with ⟨record, hrecord, hcompleted, hbody⟩
  have hheld : record.responseBody.isSome = true := by
    rw [hbody]
    rfl
  exact ⟨record, hrecord, ⟨hcompleted, hheld⟩, hbody⟩

/-- The end of a request in a world. -/
def Ends (exit : Exit Thrown Response) (w : World) : Prop :=
  Outcome cfg rt allowed endpoint key fingerprint request time db exit w.store.db w.clock ∧
    time ≤ w.clock

end

/-! ## The record of a request -/

/-- A database in which nothing but the record of a key has changed. -/
structure SameButRecord (key : String) (db db' : Database) : Prop where
  events : db'.chainEvents = db.chainEvents
  domain : db'.domain = db.domain
  others : OthersKept key db db'

theorem SameButRecord.refl (key : String) (db : Database) : SameButRecord key db db :=
  ⟨rfl, rfl, fun _ _ => rfl⟩

theorem SameButRecord.trans {key : String} {db db' db'' : Database}
    (h : SameButRecord key db db') (h' : SameButRecord key db' db'') :
    SameButRecord key db db'' :=
  ⟨h'.events.trans h.events, h'.domain.trans h.domain,
    fun k hk => (h'.others k hk).trans (h.others k hk)⟩

theorem sameButRecord_set (db : Database) (key : String) (r : IdempotencyRecord) :
    SameButRecord key db (db.withRecords (db.records.set key r)) :=
  ⟨rfl, rfl, fun _ hk => Storage.get_set_of_ne _ _ hk⟩

theorem sameButRecord_remove (db : Database) (key : String) :
    SameButRecord key db (db.withRecords (db.records.remove key)) := by
  refine ⟨rfl, rfl, fun k hk => ?_⟩
  change (db.records.remove key).get k = _
  rw [Storage.get_remove, if_neg hk]

section

variable {cfg : AppConfig} {rt : Runtime} {allowed : Tick → Prop} {endpoint : Endpoint}
  {key fingerprint : String} {request : Option Json} {time : Int} {w w₁ : World}

/-- The record that a request finds, once an expired one is deleted. -/
theorem currentRecord_ensures (w : World) :
    (currentRecord key time).Ensures allowed w fun exit w₁ =>
      SameButRecord key w.store.db w₁.store.db ∧ w.clock ≤ w₁.clock ∧
      ((exit = .returned (usable w.store.db key time) ∧
          w₁.store.db.records.get key = usable w.store.db key time ∧
          (usable w.store.db key time = none ∨ w₁.store.db = w.store.db)) ∨
        NotReturned exit ∧ (∃ fault, MayFault allowed fault) ∧
          w₁.store.db.records.get key = w.store.db.records.get key) := by
  refine access_bind_ensures ?_ ?_ ?_ ?_
  · intro record clock hclock hget
    rw [Except.ok.injEq] at hget
    cases record with
    | none =>
        refine Program.ensures_pure ⟨.refl _ _, hclock, .inl ?_⟩
        have husable : usable w.store.db key time = none := by simp [usable, hget]
        rw [husable]
        exact ⟨rfl, hget, .inl rfl⟩
    | some r =>
        by_cases hexpired : r.expiresAt ≤ time
        · simp only [hexpired, if_true]
          have husable : usable w.store.db key time = none := by
            simp [usable, hget, hexpired]
          refine access_bind_ensures ?_ ?_ ?_ ?_
          · intro _ clock' hclock' _
            refine Program.ensures_pure ⟨sameButRecord_remove _ _, hclock.trans hclock', .inl ?_⟩
            rw [husable]
            refine ⟨rfl, ?_, .inl rfl⟩
            change (w.store.db.records.remove key).get key = none
            rw [Storage.get_remove, if_pos rfl]
          · intro e clock' _ h
            cases h
          · intro clock' hclock' hmay
            exact ⟨.refl _ _, hclock.trans hclock', .inr ⟨trivial, ⟨_, hmay⟩, rfl⟩⟩
          · intro clock' hclock' hmay
            exact ⟨.refl _ _, hclock.trans hclock', .inr ⟨trivial, ⟨_, hmay⟩, rfl⟩⟩
        · simp only [hexpired, if_false]
          refine Program.ensures_pure ⟨.refl _ _, hclock, .inl ?_⟩
          have husable : usable w.store.db key time = some r := by
            simp [usable, hget, not_le.mp hexpired]
          rw [husable, hget]
          exact ⟨rfl, rfl, .inr rfl⟩
  · intro e clock _ h
    cases h
  · intro clock hclock hmay
    exact ⟨.refl _ _, hclock, .inr ⟨trivial, ⟨_, hmay⟩, rfl⟩⟩
  · intro clock hclock hmay
    exact ⟨.refl _ _, hclock, .inr ⟨trivial, ⟨_, hmay⟩, rfl⟩⟩

/-! ## Execution -/

/-- A world in which a request has found its record and changed nothing else. -/
structure Found (key : String) (time : Int) (w w₁ : World) : Prop where
  same : SameButRecord key w.store.db w₁.store.db
  record : w₁.store.db.records.get key = usable w.store.db key time
  clock : time ≤ w₁.clock

/-- The record that a request finds is one that it may leave. -/
theorem kept_usable (cfg : AppConfig) (fingerprint : String) (time : Int) (db : Database)
    (key : String) :
    Kept cfg fingerprint time (db.records.get key) (usable db key time) := by
  unfold usable
  cases db.records.get key with
  | none => exact .inl rfl
  | some r =>
      by_cases hexpired : time < r.expiresAt
      · exact .inl (by simp [hexpired])
      · exact .inr (.inl (by simp [not_lt.mp hexpired]))

theorem Kept.of_usable {db : Database} {new : Option IdempotencyRecord}
    (h : Kept cfg fingerprint time (usable db key time) new) :
    Kept cfg fingerprint time (db.records.get key) new := by
  rcases h with hsame | hrest
  · rw [hsame]
    exact kept_usable cfg fingerprint time db key
  · exact .inr hrest

theorem Submission.of_same {db db' : Database} {clock : Int} {ev : ChainEvent}
    (h : Submission rt endpoint key request db' clock ev) (hsame : SameButRecord key db db')
    (hclock : time ≤ clock) : Submission rt endpoint key request db time ev := by
  refine ⟨?_, h.dedupId, ?_, hclock.trans h.created, h.submitted⟩
  · rw [h.seq, hsame.events]
  · have hpayload := h.payload
    rw [hsame.domain] at hpayload
    exact hpayload

/-- A request marks its key before it is executed. -/
theorem mark_ensures {hasRecord : Bool} {endpointName : String} (hfound : Found key time w w₁)
    (hhas : hasRecord = (usable w.store.db key time).isSome) :
    (markInProgress key fingerprint endpointName time (time + cfg.idempotencyTtlSeconds)
        hasRecord).Ensures allowed w₁ fun exit w₂ =>
      SameButRecord key w.store.db w₂.store.db ∧ time ≤ w₂.clock ∧
      ((exit = .returned () ∧ ∃ marked, w₂.store.db.records.get key = some marked ∧
          Kept cfg fingerprint time (usable w.store.db key time) (some marked)) ∨
        NotReturned exit ∧ (∃ fault, MayFault allowed fault) ∧
          w₂.store.db.records.get key = usable w.store.db key time) := by
  unfold markInProgress
  cases husable : usable w.store.db key time with
  | some r =>
      rw [hhas, husable]
      refine Program.ensures_pure ⟨hfound.same, hfound.clock, .inl ⟨rfl, r, ?_, .inl rfl⟩⟩
      rw [hfound.record, husable]
  | none =>
      rw [hhas, husable]
      simp only [Option.isSome_none, Bool.false_eq_true, if_false]
      have hrecord := hfound.record
      rw [husable] at hrecord
      have hfree : w₁.store.db.records.has key = false := Storage.has_eq_false.mpr hrecord
      refine access_ensures ?_ ?_ ?_
      · intro clock hclock
        simp only [hfree, Bool.false_eq_true, if_false]
        refine ⟨hfound.same.trans (sameButRecord_set _ _ _), hfound.clock.trans hclock,
          .inl ⟨rfl, _, Storage.get_set_self _ _ _, .inr (.inr ⟨_, rfl, ⟨rfl, ?_⟩, rfl⟩)⟩⟩
        intro hanswered
        cases hanswered.1
      · intro clock hclock hmay
        exact ⟨hfound.same, hfound.clock.trans hclock, .inr ⟨trivial, ⟨_, hmay⟩, hrecord⟩⟩
      · intro clock hclock hmay
        exact ⟨hfound.same, hfound.clock.trans hclock, .inr ⟨trivial, ⟨_, hmay⟩, hrecord⟩⟩

/-- A failed execution removes the record and answers with an error. -/
theorem recover_ensures (e : Thrown) (w₁ : World) :
    (deleteRecord key >>= fun _ => pure e.response).Ensures allowed w₁ fun exit w₂ =>
      SameButRecord key w₁.store.db w₂.store.db ∧ w₁.clock ≤ w₂.clock ∧
      (exit = .returned e.response ∧ w₂.store.db.records.get key = none ∨
        NotReturned exit ∧ (∃ fault, MayFault allowed fault) ∧
          w₂.store.db.records.get key = w₁.store.db.records.get key) := by
  refine access_bind_ensures ?_ ?_ ?_ ?_
  · intro _ clock hclock _
    refine Program.ensures_pure ⟨sameButRecord_remove _ _, hclock, .inl ⟨rfl, ?_⟩⟩
    change (w₁.store.db.records.remove key).get key = none
    rw [Storage.get_remove, if_pos rfl]
  · intro e clock _ h
    cases h
  · intro clock hclock hmay
    exact ⟨.refl _ _, hclock, .inr ⟨trivial, ⟨_, hmay⟩, rfl⟩⟩
  · intro clock hclock hmay
    exact ⟨.refl _ _, hclock, .inr ⟨trivial, ⟨_, hmay⟩, rfl⟩⟩

/-- The record of a response is kept, or a fault loses the response. -/
theorem complete_ensures {endpointName : String} {status : Nat} {body : ResponseBody}
    (r : Response) (w₁ : World) :
    (completeRecord key fingerprint endpointName status body time
        (time + cfg.idempotencyTtlSeconds) >>= fun _ => pure r).Ensures allowed w₁ fun exit w₂ =>
      SameButRecord key w₁.store.db w₂.store.db ∧ w₁.clock ≤ w₂.clock ∧
      (exit = .returned r ∧ w₂.store.db.records.get key =
          some (completedRecord (w₁.store.db.records.get key) key fingerprint endpointName status
            body time (time + cfg.idempotencyTtlSeconds)) ∨
        NotReturned exit ∧ Blamed allowed exit ∧
          w₂.store.db.records.get key = w₁.store.db.records.get key) := by
  refine access_bind_ensures ?_ ?_ ?_ ?_
  · intro _ clock hclock _
    exact Program.ensures_pure ⟨sameButRecord_set _ _ _, hclock,
      .inl ⟨rfl, Storage.get_set_self _ _ _⟩⟩
  · intro e clock _ h
    cases h
  · intro clock hclock hmay
    exact ⟨.refl _ _, hclock, .inr ⟨trivial, blamed_throws hmay, rfl⟩⟩
  · intro clock hclock hmay
    exact ⟨.refl _ _, hclock, .inr ⟨trivial, blamed_stops hmay, rfl⟩⟩

theorem Thrown.response_eq (e : Thrown) : ∃ message, e.response = .reject e.status message := by
  cases e with
  | business status message => exact ⟨message, rfl⟩
  | database => exact ⟨_, rfl⟩

theorem NotReturned.unsuccessful {exit : Exit Thrown Response} (h : NotReturned exit) :
    Unsuccessful exit := by
  cases exit with
  | returned r => exact h.elim
  | thrown e => trivial
  | stopped => trivial

theorem Kept.none (cfg : AppConfig) (fingerprint : String) (time : Int)
    (old : Option IdempotencyRecord) : Kept cfg fingerprint time old none :=
  .inr (.inl rfl)

/-- The record of a request, marked, kept or removed. -/
theorem kept_of_marked {db : Database} {new : Option IdempotencyRecord}
    {marked : IdempotencyRecord}
    (hmarked : Kept cfg fingerprint time (usable db key time) (some marked))
    (hnew : new = none ∨ new = some marked) :
    Kept cfg fingerprint time (usable db key time) new := by
  rcases hnew with rfl | rfl
  · exact .none cfg fingerprint time _
  · exact hmarked

/-- What becomes of a request whose execution fails. -/
theorem failedExecution_outcome {w₂ w₃ w₄ : World} {marked : IdempotencyRecord}
    {ended : Exit Thrown ExecuteResult} {exit : Exit Thrown Response}
    (hopen : Open w.store.db key fingerprint time)
    (hold : ¬ ∃ ev, Recent cfg w.store.db key time ev)
    (hsame : SameButRecord key w.store.db w₂.store.db) (hclock : time ≤ w₂.clock)
    (hmarked : Kept cfg fingerprint time (usable w.store.db key time) (some marked))
    (hrecord : w₂.store.db.records.get key = some marked)
    (hends : ExecuteEnds allowed rt endpoint key request w₂ ended w₃)
    (hreturned : ∀ result, ended ≠ .returned result)
    (hsame' : SameButRecord key w₃.store.db w₄.store.db) (hclock' : w₃.clock ≤ w₄.clock)
    (hrecord' : w₄.store.db.records.get key = none ∨
      w₄.store.db.records.get key = w₃.store.db.records.get key)
    (hexit : (∃ status message, (status = 404 ∨ status = 409 ∨ status = 500) ∧
        exit = .returned (.reject status message)) ∨
      NotReturned exit ∧ ∃ fault, MayFault allowed fault)
    (hcut : ended = .stopped → exit = .stopped) :
    Ends cfg rt allowed endpoint key fingerprint request time w.store.db exit w₄ := by
  have hunsuccessful : Unsuccessful exit := by
    rcases hexit with ⟨status, message, hstatus, rfl⟩ | ⟨hnot, -⟩
    · exact ⟨status, message, hstatus, rfl⟩
    · exact hnot.unsuccessful
  cases hends with
  | unsubmitted hfailed hdb hclock₃ =>
      rw [hdb] at hsame'
      have hall := hsame.trans hsame'
      have hkept : Kept cfg fingerprint time (w.store.db.records.get key)
          (w₄.store.db.records.get key) := by
        refine (kept_of_marked hmarked ?_).of_usable
        rw [hdb, hrecord] at hrecord'
        exact hrecord'
      refine ⟨?_, hclock.trans (hclock₃.trans hclock')⟩
      rcases hexit with ⟨status, message, hstatus, rfl⟩ | ⟨hnot, hfault⟩
      · exact .rejected (.inr hstatus) hopen hold hall.events hall.domain hall.others hkept
      · exact .failed hnot (.inl hfault) hall.events hall.domain hall.others hkept
  | submitted hfailed hev hdb hclock₃ =>
      rw [hdb] at hsame' hrecord'
      have hkept := kept_of_marked hmarked (hrecord'.imp_right fun h => h.trans hrecord)
      have hev₀ : Submission rt endpoint key request w.store.db time _ := hev.of_same hsame hclock
      refine ⟨.submitted hunsuccessful hopen hold hev₀ (hclock₃.trans hclock') ?_ (.inl ?_) ?_
        hkept, ?_⟩
      · rw [hsame'.events, ← hsame.events]
        rfl
      · exact hsame'.domain.trans hsame.domain
      · intro k hk
        exact (hsame'.others k hk).trans (hsame.others k hk)
      · exact hclock.trans ((hev.created.trans hev.submitted).trans (hclock₃.trans hclock'))
  | applied hfailed hev happly hdb hclock₃ hfault =>
      rw [hdb] at hsame' hrecord'
      rw [hsame.domain] at happly
      have hkept := kept_of_marked hmarked (hrecord'.imp_right fun h => h.trans hrecord)
      have hev₀ : Submission rt endpoint key request w.store.db time _ := hev.of_same hsame hclock
      refine ⟨.submitted hunsuccessful hopen hold hev₀ (hclock₃.trans hclock') ?_
        (.inr ⟨_, happly, ?_, hfault.of_stopped hcut⟩) ?_ hkept, ?_⟩
      · rw [hsame'.events, ← hsame.events]
        rfl
      · exact hsame'.domain
      · intro k hk
        exact (hsame'.others k hk).trans (hsame.others k hk)
      · exact hclock.trans ((hev.created.trans hev.submitted).trans (hclock₃.trans hclock'))
  | done hev happly hdb hclock₃ hbody => exact absurd rfl (hreturned _)

/-- What becomes of a request whose execution succeeds. -/
theorem completed_outcome {w₂ w₃ : World} {marked : IdempotencyRecord} {result : ExecuteResult}
    {endpointName : String} (hopen : Open w.store.db key fingerprint time)
    (hold : ¬ ∃ ev, Recent cfg w.store.db key time ev)
    (hsame : SameButRecord key w.store.db w₂.store.db) (hclock : time ≤ w₂.clock)
    (hmarked : Kept cfg fingerprint time (usable w.store.db key time) (some marked))
    (hrecord : w₂.store.db.records.get key = some marked)
    (hends : ExecuteEnds allowed rt endpoint key request w₂ (.returned result) w₃) :
    (completeRecord key fingerprint endpointName result.status result.body time
        (time + cfg.idempotencyTtlSeconds) >>= fun _ =>
      pure (⟨result.status, result.body, false, false⟩ : Response)).Ensures allowed w₃
      (Ends cfg rt allowed endpoint key fingerprint request time w.store.db) := by
  cases hends with
  | unsubmitted hfailed _ _ => exact hfailed.elim
  | submitted hfailed _ _ _ => exact hfailed.elim
  | applied hfailed _ _ _ _ _ => exact hfailed.elim
  | done hev happly hdb hclock₃ hbody =>
      rename_i ev domain body
      have hrecord₃ : w₃.store.db.records.get key = some marked := by
        rw [hdb]
        exact hrecord
      rw [hsame.domain] at happly
      have hev₀ : Submission rt endpoint key request w.store.db time _ := hev.of_same hsame hclock
      have hlater := hclock.trans ((hev.created.trans hev.submitted).trans hclock₃)
      refine (complete_ensures _ w₃).mono ?_
      intro exit w₄ h
      rcases h with ⟨hsame', hclock', hend⟩
      rw [hdb] at hsame'
      have hevents : w₄.store.db.chainEvents = w.store.db.chainEvents ++ [ev] := by
        rw [hsame'.events, ← hsame.events]
        rfl
      have hothers : OthersKept key w.store.db w₄.store.db := by
        intro k hk
        exact (hsame'.others k hk).trans (hsame.others k hk)
      rw [hrecord₃] at hend
      rcases hend with ⟨rfl, hcompleted⟩ | ⟨hnot, hfault, hkeep⟩
      · exact ⟨.executed hopen hold hev₀ (hclock₃.trans hclock') happly hbody hevents
          hsame'.domain hothers ⟨marked, hmarked, hcompleted⟩, hlater.trans hclock'⟩
      · rw [← hkeep] at hmarked
        exact ⟨.submitted hnot.unsuccessful hopen hold hev₀ (hclock₃.trans hclock') hevents
          (.inr ⟨_, happly, hsame'.domain, hfault⟩) hothers hmarked, hlater.trans hclock'⟩

/-- A request that nothing is known of. -/
theorem executeRequest_outcome {Body : Type} {spec : IdempotentSpec Body}
    (hspec : SpecEnds allowed rt endpoint spec) {hasRecord : Bool}
    (hfound : Found key time w w₁)
    (hhas : hasRecord = (usable w.store.db key time).isSome)
    (hopen : Open w.store.db key fingerprint time)
    (hold : ¬ ∃ ev, Recent cfg w.store.db key time ev) :
    (executeRequest cfg spec key fingerprint request time hasRecord).Ensures allowed w₁
      (Ends cfg rt allowed endpoint key fingerprint request time w.store.db) := by
  have hkept : Kept cfg fingerprint time (w.store.db.records.get key)
      (usable w.store.db key time) := kept_usable cfg fingerprint time _ key
  unfold executeRequest
  cases hvalidate : spec.validate request with
  | error message =>
      rw [← hfound.record] at hkept
      exact Program.ensures_pure ⟨.rejected (.inl rfl) hopen hold hfound.same.events
        hfound.same.domain hfound.same.others hkept, hfound.clock⟩
  | ok validated =>
      refine Program.Ensures.bind (mark_ensures hfound hhas) ?_ ?_ ?_
      · intro _ w₂ h
        rcases h with ⟨hsame, hclock, ⟨-, marked, hrecord, hmarked⟩ | ⟨hnot, -⟩⟩
        · refine Program.Ensures.bind (R := fun exit w₃ =>
            (∃ result, exit = .returned (.ok result) ∧
              ExecuteEnds allowed rt endpoint key request w₂ (.returned result) w₃) ∨
            (∃ e, exit = .returned (.error e) ∧
              ExecuteEnds allowed rt endpoint key request w₂ (.thrown e) w₃) ∨
            exit = .stopped ∧ ExecuteEnds allowed rt endpoint key request w₂ .stopped w₃)
            (Program.Ensures.attempt (hspec.execute _ _ key w₂ hvalidate) ?_ ?_ ?_) ?_ ?_ ?_
          · intro result w₃ hends
            exact .inl ⟨result, rfl, hends⟩
          · intro e w₃ hends
            exact .inr (.inl ⟨e, rfl, hends⟩)
          · intro w₃ hends
            exact .inr (.inr ⟨rfl, hends⟩)
          · intro result w₃ h
            rcases h with ⟨result', hresult, hends⟩ | ⟨e, hresult, hends⟩ | ⟨hresult, -⟩
            · rw [Exit.returned.injEq] at hresult
              subst hresult
              exact completed_outcome hopen hold hsame hclock hmarked hrecord hends
            · rw [Exit.returned.injEq] at hresult
              subst hresult
              have hstatus : e.status = 404 ∨ e.status = 409 ∨ e.status = 500 :=
                hends.failed fun r => by simp
              refine (recover_ensures e w₃).mono ?_
              intro exit w₄ h
              rcases h with ⟨hsame', hclock', ⟨rfl, hnone⟩ | ⟨hnot, hfault, hkeep⟩⟩
              · rcases e.response_eq with ⟨message, hresponse⟩
                refine failedExecution_outcome hopen hold hsame hclock hmarked hrecord hends
                  (fun r => by simp) hsame' hclock' (.inl hnone) (.inl ?_) (fun h => by cases h)
                exact ⟨e.status, message, hstatus, by rw [hresponse]⟩
              · exact failedExecution_outcome hopen hold hsame hclock hmarked hrecord hends
                  (fun r => by simp) hsame' hclock' (.inr hkeep) (.inr ⟨hnot, hfault⟩)
                  (fun h => by cases h)
            · cases hresult
          · intro e w₃ h
            rcases h with ⟨result', hresult, -⟩ | ⟨e, hresult, -⟩ | ⟨hresult, -⟩
            · cases hresult
            · cases hresult
            · cases hresult
          · intro w₃ h
            rcases h with ⟨result', hresult, -⟩ | ⟨e, hresult, -⟩ | ⟨-, hends⟩
            · cases hresult
            · cases hresult
            · exact failedExecution_outcome hopen hold hsame hclock hmarked hrecord hends
                (fun r => by simp) (.refl _ _) le_rfl (.inr rfl)
                (.inr ⟨trivial, hends.failed fun r => by simp⟩) (fun _ => rfl)
        · exact hnot.elim
      · intro e w₂ h
        rcases h with ⟨hsame, hclock, ⟨hexit, -⟩ | ⟨hnot, hfault, hrecord⟩⟩
        · cases hexit
        · rw [← hrecord] at hkept
          exact ⟨.failed trivial (.inl hfault) hsame.events hsame.domain hsame.others hkept, hclock⟩
      · intro w₂ h
        rcases h with ⟨hsame, hclock, ⟨hexit, -⟩ | ⟨hnot, hfault, hrecord⟩⟩
        · cases hexit
        · rw [← hrecord] at hkept
          exact ⟨.failed trivial (.inl hfault) hsame.events hsame.domain hsame.others hkept, hclock⟩

/-! ## Reconciliation -/

/-- What becomes of a request that is answered from the event of its key. -/
theorem reconcile_outcome {Body : Type} {spec : IdempotentSpec Body}
    (hspec : SpecEnds allowed rt endpoint spec) {ev : ChainEvent} (hfound : Found key time w w₁)
    (hopen : Open w.store.db key fingerprint time)
    (hrecent : Recent cfg w.store.db key time ev) :
    (spec.reconcile ev >>= fun result =>
      completeRecord key fingerprint spec.endpoint result.status result.body time
        (time + cfg.idempotencyTtlSeconds) >>= fun _ =>
      pure (⟨200, result.body, true, true⟩ : Response)).Ensures allowed w₁
      (Ends cfg rt allowed endpoint key fingerprint request time w.store.db) := by
  have hkept : Kept cfg fingerprint time (w.store.db.records.get key)
      (usable w.store.db key time) := kept_usable cfg fingerprint time _ key
  have hfailed : ∀ {exit : Exit Thrown ExecuteResult} {exit' : Exit Thrown Response} {w₂ : World},
      ReconcileEnds allowed endpoint ev.payload w₁ exit w₂ → (∀ r, exit ≠ .returned r) →
      NotReturned exit' → (exit = .stopped → exit' = .stopped) →
      Ends cfg rt allowed endpoint key fingerprint request time w.store.db exit' w₂ := by
    intro exit exit' w₂ hends hreturned hnot hcut
    cases hends with
    | unapplied hfailed hdb hclock =>
        have hrecord := hfound.record
        have hsame := hfound.same
        rw [← hdb] at hrecord hsame
        rw [← hrecord] at hkept
        exact ⟨.failed hnot (.inr ⟨hopen, ev, hrecent⟩) hsame.events hsame.domain hsame.others
          hkept, hfound.clock.trans hclock⟩
    | applied hfailed happly hdb hclock hfault =>
        rename_i domain
        rw [hfound.same.domain] at happly
        refine ⟨.lost hnot (hfault.of_stopped hcut) hopen hrecent happly ?_ ?_ ?_ ?_,
          hfound.clock.trans hclock⟩
        · rw [hdb]
          exact hfound.same.events
        · rw [hdb]
          rfl
        · rw [hdb]
          exact hfound.same.others
        · rw [hdb]
          exact hfound.record
    | done _ _ _ _ => exact absurd rfl (hreturned _)
  refine Program.Ensures.bind (hspec.reconcile ev w₁) ?_ ?_ ?_
  · intro result w₂ hends
    cases hends with
    | unapplied hfailed _ _ => exact hfailed.elim
    | applied hfailed _ _ _ _ => exact hfailed.elim
    | done happly hdb hclock hbody =>
        rename_i domain body
        rw [hfound.same.domain] at happly
        have hrecord₂ : w₂.store.db.records.get key = usable w.store.db key time := by
          rw [hdb]
          exact hfound.record
        refine (complete_ensures _ w₂).mono ?_
        intro exit w₃ h
        rcases h with ⟨hsame, hclock', hend⟩
        rw [hdb] at hsame
        have hevents := hsame.events.trans hfound.same.events
        have hothers : OthersKept key w.store.db w₃.store.db := by
          intro k hk
          exact (hsame.others k hk).trans (hfound.same.others k hk)
        have hlater := (hfound.clock.trans hclock).trans hclock'
        rw [hrecord₂] at hend
        rcases hend with ⟨rfl, hcompleted⟩ | ⟨hnot, hfault, hkeep⟩
        · exact ⟨.reconciled hopen hrecent happly hbody hevents hsame.domain hothers hcompleted,
            hlater⟩
        · exact ⟨.lost hnot hfault hopen hrecent happly hevents hsame.domain hothers hkeep,
            hlater⟩
  · intro e w₂ hends
    exact hfailed hends (fun r => by simp) trivial fun h => by cases h
  · intro w₂ hends
    exact hfailed hends (fun r => by simp) trivial fun _ => rfl

/-- A search for the last event of the key, and what follows it. -/
theorem findEvent_bind_outcome {next : Option ChainEvent → Action Response}
    (hfound : Found key time w w₁)
    (hnext : ∀ event w₂, latestEvent w.store.db.chainEvents key = event → Found key time w w₂ →
      (next event).Ensures allowed w₂
        (Ends cfg rt allowed endpoint key fingerprint request time w.store.db)) :
    (findEvent key >>= next).Ensures allowed w₁
      (Ends cfg rt allowed endpoint key fingerprint request time w.store.db) := by
  have hkept : Kept cfg fingerprint time (w.store.db.records.get key)
      (w₁.store.db.records.get key) := by
    rw [hfound.record]
    exact kept_usable cfg fingerprint time _ key
  refine access_bind_ensures ?_ ?_ ?_ ?_
  · intro event clock hclock hfind
    rw [Except.ok.injEq, hfound.same.events] at hfind
    exact hnext event _ hfind ⟨hfound.same, hfound.record, hfound.clock.trans hclock⟩
  · intro e clock _ h
    cases h
  · intro clock hclock hmay
    exact ⟨.failed trivial (.inl ⟨_, hmay⟩) hfound.same.events hfound.same.domain
      hfound.same.others hkept, hfound.clock.trans hclock⟩
  · intro clock hclock hmay
    exact ⟨.failed trivial (.inl ⟨_, hmay⟩) hfound.same.events hfound.same.domain
      hfound.same.others hkept, hfound.clock.trans hclock⟩

theorem reconcileOrExecute_outcome {Body : Type} {spec : IdempotentSpec Body}
    (hspec : SpecEnds allowed rt endpoint spec) {hasRecord : Bool}
    (hfound : Found key time w w₁) (hhas : hasRecord = (usable w.store.db key time).isSome)
    (hopen : Open w.store.db key fingerprint time) :
    (reconcileOrExecute cfg spec key fingerprint request time hasRecord).Ensures allowed w₁
      (Ends cfg rt allowed endpoint key fingerprint request time w.store.db) := by
  refine findEvent_bind_outcome hfound ?_
  intro event w₂ hfind hfound'
  cases event with
  | none =>
      refine executeRequest_outcome hspec hfound' hhas hopen ?_
      intro h
      rcases h with ⟨ev, hlatest, -⟩
      rw [hfind] at hlatest
      cases hlatest
  | some ev =>
      by_cases hrecent : time - ev.createdAt < cfg.idempotencyTtlSeconds
      · simp only [hrecent, if_true]
        exact reconcile_outcome hspec hfound' hopen ⟨hfind, hrecent⟩
      · simp only [hrecent, if_false]
        refine executeRequest_outcome hspec hfound' hhas hopen ?_
        intro h
        rcases h with ⟨ev', hlatest, hrecent'⟩
        rw [hfind, Option.some.injEq] at hlatest
        subst hlatest
        exact hrecent hrecent'

/-- What becomes of a request whose first attempt has never been completed. -/
theorem pending_outcome {Body : Type} {spec : IdempotentSpec Body}
    (hspec : SpecEnds allowed rt endpoint spec) {r : IdempotencyRecord}
    (hfound : Found key time w w₁) (husable : usable w.store.db key time = some r)
    (hpending : Pending fingerprint r) :
    (do
      let pending ← findEvent key
      match pending with
      | none => pure (.reject 409 "a request with this Idempotency-Key is already in progress")
      | some _ => reconcileOrExecute cfg spec key fingerprint request time true :
      Action Response).Ensures allowed w₁
      (Ends cfg rt allowed endpoint key fingerprint request time w.store.db) := by
  have hopen : Open w.store.db key fingerprint time := by
    intro r' hr'
    rw [husable, Option.some.injEq] at hr'
    subst hr'
    exact hpending
  refine findEvent_bind_outcome hfound ?_
  intro event w₂ hfind hfound'
  cases event with
  | none =>
      have hold : ¬ ∃ ev, Recent cfg w.store.db key time ev := by
        intro h
        rcases h with ⟨ev, hlatest, -⟩
        rw [hfind] at hlatest
        cases hlatest
      have hkept : Kept cfg fingerprint time (w.store.db.records.get key)
          (w₂.store.db.records.get key) := by
        rw [hfound'.record]
        exact kept_usable cfg fingerprint time _ key
      exact Program.ensures_pure ⟨.rejected (.inr (.inr (.inl rfl))) hopen hold
        hfound'.same.events hfound'.same.domain hfound'.same.others hkept, hfound'.clock⟩
  | some ev => exact reconcileOrExecute_outcome hspec hfound' (by rw [husable]; rfl) hopen

/-! ## The whole request -/

/-- A request under a valid key does one of the things that an outcome lists, at the time at
which it reads the clock first. -/
theorem answerAt_outcome {Body : Type} {spec : IdempotentSpec Body}
    (hspec : SpecEnds allowed rt endpoint spec) (hclock : time ≤ w.clock) :
    (answerAt cfg spec key fingerprint request time).Ensures allowed w
      (Ends cfg rt allowed endpoint key fingerprint request time w.store.db) := by
  refine Program.Ensures.bind (currentRecord_ensures w) ?_ ?_ ?_
  · intro record w₁ h
    rcases h with ⟨hsame, hclock₁, ⟨hexit, hrecord, hunchanged⟩ | ⟨hnot, -⟩⟩
    · rw [Exit.returned.injEq] at hexit
      subst hexit
      have hfound : Found key time w w₁ := ⟨hsame, hrecord, hclock.trans hclock₁⟩
      cases husable : usable w.store.db key time with
      | none =>
          refine reconcileOrExecute_outcome hspec hfound (by rw [husable]; rfl) ?_
          intro r hr
          rw [husable] at hr
          cases hr
      | some r =>
          have hdb : w₁.store.db = w.store.db := by
            rcases hunchanged with hnone | hdb
            · rw [husable] at hnone
              cases hnone
            · exact hdb
          by_cases hfingerprint : r.fingerprint = fingerprint
          · simp only [hfingerprint, ne_eq, not_true_eq_false, if_false]
            split
            · rename_i body hstatus hbody
              exact Program.ensures_pure ⟨.replayed husable hfingerprint hstatus hbody hdb,
                hfound.clock⟩
            · rename_i hunanswered
              refine pending_outcome hspec hfound husable ⟨hfingerprint, ?_⟩
              intro hanswered
              rcases Option.isSome_iff_exists.mp hanswered.2 with ⟨body, hbody⟩
              exact hunanswered body hanswered.1 hbody
          · simp only [ne_eq, hfingerprint, not_false_eq_true, if_true]
            exact Program.ensures_pure ⟨.mismatched husable hfingerprint hdb, hfound.clock⟩
    · exact hnot.elim
  · intro e w₁ h
    rcases h with ⟨hsame, hclock₁, ⟨hexit, -⟩ | ⟨-, hfault, hrecord⟩⟩
    · cases hexit
    · exact ⟨.failed trivial (.inl hfault) hsame.events hsame.domain hsame.others (.inl hrecord),
        hclock.trans hclock₁⟩
  · intro w₁ h
    rcases h with ⟨hsame, hclock₁, ⟨hexit, -⟩ | ⟨-, hfault, hrecord⟩⟩
    · cases hexit
    · exact ⟨.failed trivial (.inl hfault) hsame.events hsame.domain hsame.others (.inl hrecord),
        hclock.trans hclock₁⟩

/-! ## Steps of the backend -/

/-- The time at which a request reads the clock first. -/
def arrival (w : World) (script : List Tick) : Int :=
  w.clock + (script.head?.elim 0 Tick.elapsed : Nat)

theorem le_arrival (w : World) (script : List Tick) : w.clock ≤ arrival w script := by
  simp [arrival]

/-- A program that reads the clock goes on with the time of its arrival, or fails there. -/
theorem now_bind_run {α : Type} {g : Int → Action α} {script : List Tick}
    {Q : Exit Thrown α → World → Prop} (hscript : ∀ tick ∈ script, allowed tick)
    (hok : (g (arrival w script)).Ensures allowed ⟨w.store, arrival w script⟩ Q)
    (hthrows : MayFault allowed .throws → Q (.thrown .database) ⟨w.store, arrival w script⟩)
    (hstops : MayFault allowed .stops → Q .stopped ⟨w.store, arrival w script⟩) :
    Q ((now >>= g) script w).1 ((now >>= g) script w).2.2 := by
  cases script with
  | nil => exact (hok [] hscript).2
  | cons tick rest =>
      rcases tick with ⟨elapsed, fault⟩
      cases fault with
      | none => exact (hok rest fun t ht => hscript t (List.mem_cons_of_mem _ ht)).2
      | some fault =>
          have hmay : MayFault allowed fault :=
            ⟨⟨elapsed, some fault⟩, hscript _ List.mem_cons_self, rfl⟩
          cases fault with
          | throws => exact hthrows hmay
          | stops => exact hstops hmay

theorem idempotent_run {Body : Type} {spec : IdempotentSpec Body}
    (hspec : SpecEnds allowed rt endpoint spec) {req : Request} {script : List Tick}
    (hkey : req.key.filter validKey = some key) (hscript : ∀ tick ∈ script, allowed tick) :
    Ends cfg rt allowed endpoint key (fingerprintOf rt req) req.body (arrival w script) w.store.db
      (idempotent cfg rt spec req script w).1 (idempotent cfg rt spec req script w).2.2 := by
  unfold idempotent
  rw [hkey]
  refine now_bind_run hscript (answerAt_outcome hspec le_rfl) ?_ ?_
  · intro hmay
    exact ⟨.failed trivial (.inl ⟨_, hmay⟩) rfl rfl (fun _ _ => rfl) (.inl rfl), le_rfl⟩
  · intro hmay
    exact ⟨.failed trivial (.inl ⟨_, hmay⟩) rfl rfl (fun _ _ => rfl) (.inl rfl), le_rfl⟩

/-- A restart loses nothing of the database. -/
theorem Ends.after {db : Database} {exit : Exit Thrown Response}
    (h : Ends cfg rt allowed endpoint key fingerprint request time db exit w) :
    Ends cfg rt allowed endpoint key fingerprint request time db exit (w.after exit) := by
  cases exit with
  | returned r => exact h
  | thrown e => exact h
  | stopped => exact h

/-- A step of the backend under a valid key. -/
theorem step_request (cfg : AppConfig) (rt : Runtime) (w : World) {req : Request}
    {script : List Tick}
    (hkey : req.key.filter validKey = some key) (hscript : ∀ tick ∈ script, allowed tick) :
    ∃ exit, response cfg rt w req script = answer exit ∧
      Ends cfg rt allowed req.endpoint key (fingerprintOf rt req) req.body (arrival w script)
        w.store.db exit (step cfg rt w (.request req script)) := by
  have hends : Ends cfg rt allowed req.endpoint key (fingerprintOf rt req) req.body
      (arrival w script) w.store.db (handleRequest cfg rt req script w).1
      (handleRequest cfg rt req script w).2.2 := by
    unfold handleRequest
    cases req.endpoint with
    | listings => exact idempotent_run listingsSpec_ends hkey hscript
    | purchases => exact idempotent_run purchasesSpec_ends hkey hscript
    | retire => exact idempotent_run retireSpec_ends hkey hscript
  refine ⟨_, rfl, ?_⟩
  exact hends.after

/-- A request without a valid key changes nothing. -/
theorem step_invalid {req : Request} {script : List Tick}
    (hkey : req.key.filter validKey = none) :
    step cfg rt w (.request req script) = w ∧
      ∃ message, response cfg rt w req script = some (.reject 400 message) := by
  have hrun : ∃ message, handleRequest cfg rt req script w =
      (.returned (.reject 400 message), script, w) := by
    unfold handleRequest
    cases req.endpoint with
    | listings =>
        unfold idempotent
        rw [hkey]
        exact ⟨_, rfl⟩
    | purchases =>
        unfold idempotent
        rw [hkey]
        exact ⟨_, rfl⟩
    | retire =>
        unfold idempotent
        rw [hkey]
        exact ⟨_, rfl⟩
  rcases hrun with ⟨message, hrun⟩
  constructor
  · change (handleRequest cfg rt req script w).2.2.after (handleRequest cfg rt req script w).1 = w
    rw [hrun]
    rfl
  · rw [response, hrun]
    exact ⟨message, rfl⟩

/-- Everything a step of the backend can do, whatever goes wrong. -/
theorem step_cases (cfg : AppConfig) (rt : Runtime) (w : World) (i : Input) :
    ((step cfg rt w i).store.db = w.store.db ∧ (step cfg rt w i).clock = w.clock) ∨
    ∃ req script key exit, i = .request req script ∧ req.key.filter validKey = some key ∧
      response cfg rt w req script = answer exit ∧
      Ends cfg rt (fun _ => True) req.endpoint key (fingerprintOf rt req) req.body
        (arrival w script) w.store.db exit (step cfg rt w i) := by
  cases i with
  | failNextTransaction => exact .inl ⟨rfl, rfl⟩
  | request req script =>
      cases hkey : req.key.filter validKey with
      | none =>
          rw [(step_invalid hkey).1]
          exact .inl ⟨rfl, rfl⟩
      | some key =>
          rcases step_request cfg rt w hkey (fun _ _ => trivial) with ⟨exit, hresponse, hends⟩
          exact .inr ⟨req, script, key, exit, rfl, hkey, hresponse, hends⟩

/-- The clock never goes back. -/
theorem clock_le_step (cfg : AppConfig) (rt : Runtime) (w : World) (i : Input) :
    w.clock ≤ (step cfg rt w i).clock := by
  rcases step_cases cfg rt w i with ⟨-, hclock⟩ | ⟨req, script, key, exit, -, -, -, hends⟩
  · exact le_of_eq hclock.symm
  · exact (le_arrival w script).trans hends.2

end

end Backend
end Kraal
