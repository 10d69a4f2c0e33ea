import Kraal.Backend.Commit
import Kraal.Backend.Effects
import Kraal.Backend.Undisturbed

/-!
# Retries after a crash

The handler of a request can stop between any two accesses: before its event is submitted,
before the event is applied, or before its response is recorded.  The retries find the event on
the chain as long as it is recent, apply it if it is not applied, and report it.  This fails
where another row stands under the id of the event, where the event is applied at the endpoint
of another type, where the event is older than the request that is retried, and where the quantity
of a purchase is subtracted with a rounding error.

Main results:

- Theorem {lit}`resolved_step`: what every step keeps about the last event of a key.
- Theorem {lit}`crash_consistent`: the retries after a request that stops anywhere.
- Theorem {lit}`skipped_on_retry`: a retry reports an event that it has skipped.
-/

namespace Kraal
namespace Backend

open Foundation

section

variable (cfg : AppConfig) (rt : Runtime) (key : String)

/-! ## Retries -/

/-- The requests under a key are retries of one request, in the lifetime that starts with it. -/
def Retries (req : Request) (start : Int) (w : World) : Input → Prop
  | .failNextTransaction => True
  | .request req' script => req'.key.filter validKey = some key →
      req' = req ∧ arrival w script < start + cfg.idempotencyTtlSeconds

/-- The effect of an event is in the tables, and a purchase is taken from its listing. -/
structure AppliedOnce (events : List ChainEvent) (d : Domain) (payload : Payload) : Prop where
  present : Present d payload
  deducted : ∀ p, payload = .purchaseSettled p → ∃ (row : ListingRow) (q : ListingPayload),
    d.listings.get p.listingId = some row ∧ q.id = p.listingId ∧
      (∃ ev ∈ events, ev.payload = .listingCreated q) ∧
      row.quantityRemaining = q.quantity - d.sold p.listingId

/-- A retry submits no second event, reports the last event of its key if it succeeds and has
applied it then, and otherwise leaves the tables alone, unless it throws after its commit. -/
structure RetrySettles (start : Int) (w : World) (req : Request) (script : List Tick) : Prop where
  noSecond : (∃ ev ∈ w.store.db.chainEvents, ev.dedupId = key ∧
      start - ev.createdAt < cfg.idempotencyTtlSeconds) →
    (step cfg rt w (.request req script)).store.db.chainEvents = w.store.db.chainEvents
  success : ∀ r, response cfg rt w req script = some r → r.status = 200 ∨ r.status = 201 →
    ∃ ev, latestEvent (step cfg rt w (.request req script)).store.db.chainEvents key = some ev ∧
      AppliedOnce (step cfg rt w (.request req script)).store.db.chainEvents
        (step cfg rt w (.request req script)).store.db.domain ev.payload ∧
      r.body.Reports ev.payload
  failure : QuietAfterCommit cfg w key req script → ∀ r, response cfg rt w req script = some r →
    r.status ≠ 200 → r.status ≠ 201 →
    (step cfg rt w (.request req script)).store.db.domain = w.store.db.domain

/-- The requests of a step under a key settle. -/
def Settled (start : Int) (w : World) : Input → Prop
  | .failNextTransaction => True
  | .request req script => req.key.filter validKey = some key →
      RetrySettles cfg rt key start w req script

/-! ## Conditions -/

/-- A request under the key is not in the way of a row: an event of another type is in the tables
already if it is skipped, and the id of a new purchase or retirement is free. -/
def StepFree (w : World) : Input → Prop
  | .failNextTransaction => True
  | .request req script => req.key.filter validKey = some key →
      Open w.store.db key (fingerprintOf rt req) (arrival w script) →
      (∀ ev, Recent cfg w.store.db key (arrival w script) ev →
        ev.payload.endpoint ≠ req.endpoint → Skipped w.store.db.domain ev.payload req.endpoint →
        Present w.store.db.domain ev.payload) ∧
      ((¬ ∃ ev, Recent cfg w.store.db key (arrival w script) ev) →
        (∃ payload, NewPayload rt key req.body w.store.db.domain payload req.endpoint) →
        req.endpoint ≠ .listings →
        Vacant w.store.db.domain (deriveId rt req.endpoint.kind key) req.endpoint)

/-- A request that could be executed is made while an event that was recent at the given time in
the given world still is. -/
def StepTimely (w₀ : World) (start : Int) (w : World) : Input → Prop
  | .failNextTransaction => True
  | .request req script => req.key.filter validKey = some key →
      Open w.store.db key (fingerprintOf rt req) (arrival w script) →
      (∃ payload, NewPayload rt key req.body w.store.db.domain payload req.endpoint) →
      ∀ ev, Recent cfg w₀.store.db key start ev →
        arrival w script < ev.createdAt + cfg.idempotencyTtlSeconds

/-! ## The last event of a key -/

/-- The invariant behind the retries: no other row stands in the place of the last event of the
key, and a response on the record reports it after it is applied. -/
structure Resolved (w : World) : Prop where
  identified : Identified rt key w.store.db.chainEvents
  accounted : Accounted w.store.db.chainEvents w.store.db.domain
  compatible : ∀ ev, latestEvent w.store.db.chainEvents key = some ev →
    Compatible w.store.db.domain ev.payload
  answered : ∀ r, w.store.db.records.get key = some r → r.Answered →
    ∃ ev, latestEvent w.store.db.chainEvents key = some ev ∧ RecordReports r ev.payload ∧
      Present w.store.db.domain ev.payload

end

variable {cfg : AppConfig} {rt : Runtime} {key : String} {w w' : World} {req : Request}
  {script : List Tick}

/-- An event that is applied again is in the tables afterwards. -/
theorem present_of_reapply {d d' : Domain} {payload : Payload} {endpoint : Endpoint}
    (hcompatible : Compatible d payload)
    (hforeign : payload.endpoint ≠ endpoint → Skipped d payload endpoint → Present d payload)
    (happly : applyAs endpoint payload () d = .ok ((), d')) : Present d' payload := by
  by_cases hendpoint : payload.endpoint = endpoint
  · subst hendpoint
    exact present_of_apply hcompatible happly
  · by_cases hskipped : Skipped d payload endpoint
    · exact present_apply (hforeign hendpoint hskipped) happly fun _ _ => rfl
    · exact absurd (endpoint_of_not_skipped hskipped happly) hendpoint

/-- The place of a new event is free. -/
theorem compatible_of_new {body : Option Json} {d : Domain} {payload : Payload}
    {endpoint : Endpoint} (hnew : NewPayload rt key body d payload endpoint)
    (hvacant : endpoint ≠ .listings → Vacant d (deriveId rt endpoint.kind key) endpoint) :
    Compatible d payload ∧ payload.endpoint = endpoint := by
  rcases hnew.identified with ⟨hendpoint, hid⟩
  refine ⟨compatible_of_vacant fun hpayload => ?_, hendpoint⟩
  rw [hid, hendpoint]
  exact hvacant (by rw [← hendpoint]; exact hpayload)

/-- What a request under the key keeps, besides the ids and the account of the listings. -/
theorem resolved_own (h : Resolved rt key w) (heffect : Effect cfg rt req script key w w')
    (hkey : req.key.filter validKey = some key)
    (hfree : StepFree cfg rt key w (.request req script)) :
    (∀ ev, latestEvent w'.store.db.chainEvents key = some ev →
      Compatible w'.store.db.domain ev.payload) ∧
    ∀ r, w'.store.db.records.get key = some r → r.Answered →
      ∃ ev, latestEvent w'.store.db.chainEvents key = some ev ∧ RecordReports r ev.payload ∧
        Present w'.store.db.domain ev.payload := by
  cases heffect with
  | unchanged hevents hdomain hrecord =>
      rw [hevents, hdomain]
      exact ⟨h.compatible, fun r hr hanswered => h.answered r (hrecord r hr hanswered) hanswered⟩
  | @reapplied ev hopen hrecent happly hevents hrecord =>
      have hpresent := present_of_reapply (h.compatible ev hrecent.1)
        ((hfree hkey hopen).1 ev hrecent) happly
      rw [hevents]
      constructor
      · intro last hlast
        rw [hrecent.1, Option.some.injEq] at hlast
        rw [← hlast]
        exact hpresent.compatible
      · intro r hr hanswered
        exact ⟨ev, hrecent.1, hrecord r hr hanswered, hpresent⟩
  | @submitted ev hopen hold hev hevents hdomain hrecord =>
      have hnew := compatible_of_new hev.payload ((hfree hkey hopen).2 hold ⟨_, hev.payload⟩)
      have hlatest : latestEvent w'.store.db.chainEvents key = some ev := by
        rw [hevents]
        exact latestEvent_append_self _ hev.dedupId
      have happlied : ∀ d', applyAs req.endpoint ev.payload () w.store.db.domain = .ok ((), d') →
          Present d' ev.payload := by
        intro d' happly
        rw [← hnew.2] at happly
        exact present_of_apply hnew.1 happly
      constructor
      · intro last hlast
        rw [hlatest, Option.some.injEq] at hlast
        rw [← hlast]
        rcases hdomain with hdomain | happly
        · rw [hdomain]
          exact hnew.1
        · exact (happlied _ happly).compatible
      · intro r hr hanswered
        have hreports := hrecord r hr hanswered
        exact ⟨ev, hlatest, hreports.1, happlied _ hreports.2⟩

/-- The last event of a key is kept in its place by every step that rounds nothing. -/
theorem resolved_step {i : Input} (h : Resolved rt key w) (hids : Uncollided rt key i)
    (hfree : StepFree cfg rt key w i) (hexact : StepExact cfg rt w i) :
    Resolved rt key (step cfg rt w i) := by
  have hidentified := identified_step cfg h.identified hids
  have haccounted := accounted_step h.accounted hexact
  by_cases hown : ∃ req script, i = .request req script ∧ req.key.filter validKey = some key
  · rcases hown with ⟨req, script, rfl, hkey⟩
    rcases step_request cfg rt w hkey (fun _ _ => trivial) with ⟨exit, -, houtcome, -⟩
    have hkept := resolved_own h houtcome.effect hkey hfree
    exact ⟨hidentified, haccounted, hkept.1, hkept.2⟩
  · have hsame := unaffected_step cfg h.identified hids
      fun req script hi hkey => hown ⟨req, script, hi, hkey⟩
    have hlatest : latestEvent (step cfg rt w i).store.db.chainEvents key =
        latestEvent w.store.db.chainEvents key := by
      rw [latestEvent_eq, latestEvent_eq, hsame.events]
    refine ⟨hidentified, haccounted, ?_, ?_⟩
    · intro ev hev
      rw [hlatest] at hev
      have hmem := latestEvent_mem hev
      exact hsame.compatible ev hmem.1 hmem.2 (h.compatible ev hev)
    · intro r hr hanswered
      rw [hsame.record] at hr
      rcases h.answered r hr hanswered with ⟨ev, hev, hreports, hpresent⟩
      have hmem := latestEvent_mem hev
      rw [hlatest]
      exact ⟨ev, hev, hreports, hsame.present ev hmem.1 hmem.2 hpresent⟩

theorem resolved_initial : Resolved rt key World.initial := by
  refine ⟨identified_nil, accounted_initial, ?_, ?_⟩
  · intro ev hev
    cases hev
  · intro r hr
    have hnone : World.initial.store.db.records.get key = none := Storage.get_empty key
    rw [hnone] at hr
    cases hr

/-! ## The events since the request -/

/-- The events after those of a world are not older than a time. -/
structure Grown (w₀ : World) (start : Int) (w : World) : Prop where
  events : ∃ later, w.store.db.chainEvents = w₀.store.db.chainEvents ++ later ∧
    ∀ ev ∈ later, start ≤ ev.createdAt
  clock : start ≤ w.clock

/-- A request has submitted nothing older than itself. -/
theorem grown_first (cfg : AppConfig) (rt : Runtime) (w : World) (req : Request)
    (script : List Tick) (hkey : req.key.filter validKey = some key) :
    Grown w (arrival w script) (step cfg rt w (.request req script)) := by
  rcases step_request cfg rt w hkey (fun _ _ => trivial) with ⟨exit, -, houtcome, harrival⟩
  refine ⟨?_, harrival⟩
  cases houtcome.effect with
  | unchanged hevents _ _ => exact ⟨[], by simpa using hevents, fun _ hev => by cases hev⟩
  | reapplied _ _ _ hevents _ => exact ⟨[], by simpa using hevents, fun _ hev => by cases hev⟩
  | submitted _ _ hev hevents _ _ =>
      refine ⟨_, hevents, fun e he => ?_⟩
      rw [List.mem_singleton.mp he]
      exact hev.created.trans hev.submitted

theorem grown_step {w₀ : World} {start : Int} (h : Grown w₀ start w) (i : Input) :
    Grown w₀ start (step cfg rt w i) := by
  refine ⟨?_, h.clock.trans (clock_le_step cfg rt w i)⟩
  rcases h.events with ⟨later, hlater, hcreated⟩
  rcases step_events cfg rt w i with hsame |
    ⟨time, endpoint, k, body, ev, htime, -, hsubmission, -, hevents⟩
  · rw [hsame]
    exact ⟨later, hlater, hcreated⟩
  · refine ⟨later ++ [ev], by rw [hevents, hlater, List.append_assoc], fun e he => ?_⟩
    rcases List.mem_append.mp he with he | he
    · exact hcreated e he
    · have hstart := h.clock
      have hbefore := hsubmission.created.trans hsubmission.submitted
      rw [List.mem_singleton.mp he]
      omega

/-- The last event of the key is recent for every retry, once the key has an event that was
recent for the request or came after it. -/
theorem recent_of_first {w₀ : World} {start time : Int} (hw : Stamped w) (hgrown : Grown w₀ start w)
    (hfirst : ∃ ev ∈ w.store.db.chainEvents, ev.dedupId = key ∧
      start - ev.createdAt < cfg.idempotencyTtlSeconds)
    (hwithin : time < start + cfg.idempotencyTtlSeconds)
    (htimely : ∀ ev, Recent cfg w₀.store.db key start ev →
      time < ev.createdAt + cfg.idempotencyTtlSeconds) :
    ∃ ev, Recent cfg w.store.db key time ev := by
  rcases hfirst with ⟨first, hmem, rfl, hfirst⟩
  rcases latestEvent_last hw.sorted hmem with ⟨ev, hlatest, hlast⟩
  have hrecent : start - ev.createdAt < cfg.idempotencyTtlSeconds := by
    rcases hlast with rfl | hlast
    · exact hfirst
    · omega
  refine ⟨ev, hlatest, ?_⟩
  rcases hgrown.events with ⟨later, hlater, hcreated⟩
  rw [hlater, latestEvent_append, Option.or_eq_some_iff] at hlatest
  rcases hlatest with hlatest | ⟨-, hlatest⟩
  · have hstart := hcreated ev (latestEvent_mem hlatest).1
    omega
  · have hdeadline := htimely ev ⟨hlatest, hrecent⟩
    omega

/-! ## One retry -/

/-- A retry submits nothing if its key has the event of the request. -/
theorem retry_submits_nothing {w₀ : World} {start : Int} (hw : Stamped w)
    (hgrown : Grown w₀ start w) (hkey : req.key.filter validKey = some key)
    (hwithin : arrival w script < start + cfg.idempotencyTtlSeconds)
    (htimely : StepTimely cfg rt key w₀ start w (.request req script))
    (hfirst : ∃ ev ∈ w.store.db.chainEvents, ev.dedupId = key ∧
      start - ev.createdAt < cfg.idempotencyTtlSeconds) :
    (step cfg rt w (.request req script)).store.db.chainEvents = w.store.db.chainEvents := by
  rcases step_request cfg rt w hkey (fun _ _ => trivial) with ⟨exit, -, houtcome, -⟩
  cases houtcome.effect with
  | unchanged hevents _ _ => exact hevents
  | reapplied _ _ _ hevents _ => exact hevents
  | submitted hopen hold hev _ _ _ =>
      exact absurd (recent_of_first hw hgrown hfirst hwithin (htimely hkey hopen ⟨_, hev.payload⟩))
        hold

/-- Tables in which the last event of a key is applied account for it. -/
theorem Resolved.appliedOnce (h : Resolved rt key w) {payload : Payload}
    (hpresent : Present w.store.db.domain payload) :
    AppliedOnce w.store.db.chainEvents w.store.db.domain payload := by
  refine ⟨hpresent, ?_⟩
  rintro p rfl
  rcases Option.isSome_iff_exists.mp (h.accounted.linked p.id p.row hpresent) with ⟨row, hrow⟩
  rcases h.accounted.counted _ row hrow with ⟨q, hid, hq, hcounted⟩
  exact ⟨row, q, hrow, hid, hq, hcounted⟩

/-- A successful retry reports the last event of its key, which is applied. -/
theorem retry_succeeds (h : Resolved rt key (step cfg rt w (.request req script)))
    (hkey : req.key.filter validKey = some key) {r : Response}
    (hr : response cfg rt w req script = some r) (hstatus : r.status = 200 ∨ r.status = 201) :
    ∃ ev, latestEvent (step cfg rt w (.request req script)).store.db.chainEvents key = some ev ∧
      AppliedOnce (step cfg rt w (.request req script)).store.db.chainEvents
        (step cfg rt w (.request req script)).store.db.domain ev.payload ∧
      r.body.Reports ev.payload := by
  rcases step_request cfg rt w hkey (fun _ _ => trivial) with ⟨exit, hresponse, houtcome, -⟩
  rw [hresponse] at hr
  rcases houtcome.answered hr (by omega) with ⟨record, hrecord, hanswered, hbody⟩
  rcases h.answered record hrecord hanswered with ⟨ev, hev, ⟨body, hbody', hreports⟩, hpresent⟩
  rw [hbody, Option.some.injEq] at hbody'
  rw [hbody']
  exact ⟨ev, hev, h.appliedOnce hpresent, hreports⟩

/-- A program that nothing throws in is cut off if a fault accounts for its end, and then there is
no response. -/
theorem Blamed.not_answered {allowed : Tick → Prop} {exit : Exit Thrown Response}
    (h : Blamed allowed exit) (hallowed : ∀ tick, allowed tick → tick.fault ≠ some .throws)
    {r : Response} (hr : answer exit = some r) : False := by
  rcases h with ⟨fault, ⟨tick, htick, hfault⟩, hstops⟩
  cases fault with
  | throws => exact hallowed tick htick hfault
  | stops =>
      rw [hstops rfl] at hr
      cases hr

/-- A retry without success leaves the tables alone, unless it throws after its commit. -/
theorem retry_fails (hkey : req.key.filter validKey = some key)
    (hquiet : QuietAfterCommit cfg w key req script) {r : Response}
    (hr : response cfg rt w req script = some r) (h200 : r.status ≠ 200) (h201 : r.status ≠ 201) :
    (step cfg rt w (.request req script)).store.db.domain = w.store.db.domain := by
  rcases hquiet.cases rt hkey with hscript | hdomain
  case inr => exact hdomain
  rcases step_request cfg rt w hkey hscript with ⟨exit, hresponse, houtcome, -⟩
  rw [hresponse] at hr
  cases houtcome with
  | replayed _ _ _ _ hdb => rw [hdb]
  | mismatched _ _ hdb => rw [hdb]
  | rejected _ _ _ _ hdomain _ _ => exact hdomain
  | failed _ _ _ hdomain _ _ => exact hdomain
  | lost _ hfault _ _ _ _ _ _ _ =>
      exact (hfault.not_answered (fun _ h => h) hr).elim
  | reconciled _ _ _ _ _ _ _ _ =>
      rw [answer, Option.some.injEq] at hr
      rw [← hr] at h200
      exact absurd rfl h200
  | submitted _ _ _ _ _ _ hdomain _ _ =>
      rcases hdomain with hdomain | ⟨domain, -, -, hfault⟩
      · exact hdomain
      · exact (hfault.not_answered (fun _ h => h) hr).elim
  | executed _ _ _ _ _ _ _ _ _ _ =>
      rw [answer, Option.some.injEq] at hr
      rw [← hr] at h201
      exact absurd rfl h201

/-! ## Runs -/

theorem stamped_final (cfg : AppConfig) (rt : Runtime) (run : List Input) :
    Stamped (finalWorld cfg rt run) :=
  Run.final_invariant (I := Stamped) stamped_initial fun _ _ h => h.step _

/-- The retries of a request that stops anywhere, in every run in which no row is in the way of
the events of its key, no retry comes after the event that it retries has expired, and nothing is
rounded. -/
theorem crash_consistent (cfg : AppConfig) (rt : Runtime) (before after : List Input)
    (req : Request) (script : List Tick) (key : String)
    (hkey : req.key.filter validKey = some key)
    (hids : ∀ i ∈ before ++ .request req script :: after, Uncollided rt key i)
    (hretries : ∀ e ∈ Run.trace (step cfg rt)
        (step cfg rt (finalWorld cfg rt before) (.request req script)) after,
      Retries cfg key req (arrival (finalWorld cfg rt before) script) e.1 e.2)
    (hfree : ∀ e ∈ Run.trace (step cfg rt) World.initial (before ++ .request req script :: after),
      StepFree cfg rt key e.1 e.2)
    (hexact : ∀ e ∈ Run.trace (step cfg rt) World.initial (before ++ .request req script :: after),
      StepExact cfg rt e.1 e.2)
    (htimely : ∀ e ∈ Run.trace (step cfg rt)
        (step cfg rt (finalWorld cfg rt before) (.request req script)) after,
      StepTimely cfg rt key (finalWorld cfg rt before) (arrival (finalWorld cfg rt before) script)
        e.1 e.2) :
    ∀ e ∈ Run.trace (step cfg rt) (step cfg rt (finalWorld cfg rt before) (.request req script))
        after,
      Settled cfg rt key (arrival (finalWorld cfg rt before) script) e.1 e.2 := by
  have hresolved := Run.trace_invariant (I := Resolved rt key) resolved_initial
    (fun e he h => resolved_step h (hids e.2 (Run.input_mem_of_mem_trace he)) (hfree e he)
      (hexact e he))
  have hstamped : Stamped (step cfg rt (finalWorld cfg rt before) (.request req script)) :=
    (stamped_final cfg rt before).step _
  have hgrown := grown_first cfg rt (finalWorld cfg rt before) req script hkey
  rw [Run.trace_append, Run.trace_cons] at hfree hexact hresolved
  change ∀ e ∈ _ ++ (finalWorld cfg rt before, _) ::
    Run.trace (step cfg rt) (step cfg rt (finalWorld cfg rt before) (.request req script)) after,
    _ at hfree hexact hresolved
  intro e he
  have hmem := List.mem_append_right (Run.trace (step cfg rt) World.initial before)
    (List.mem_cons_of_mem (finalWorld cfg rt before, Input.request req script) he)
  have hinput : e.2 ∈ before ++ .request req script :: after :=
    List.mem_append_right _ (List.mem_cons_of_mem _ (Run.input_mem_of_mem_trace he))
  have hafter := resolved_step (hresolved e hmem) (hids e.2 hinput) (hfree e hmem) (hexact e hmem)
  have hstamped' := Run.trace_invariant (I := Stamped) hstamped (fun _ _ h => h.step _) e he
  have hgrown' := Run.trace_invariant (I := Grown _ _) hgrown
    (fun _ _ h => grown_step h _) e he
  have hretry := hretries e he
  have htime := htimely e he
  cases hi : e.2 with
  | failNextTransaction => trivial
  | request req' script' =>
      rw [hi] at hafter hretry htime
      intro hkey'
      constructor
      · exact retry_submits_nothing hstamped' hgrown' hkey' (hretry hkey').2 htime
      · intro r hr hstatus
        exact retry_succeeds hafter hkey' hr hstatus
      · intro hquiet r hr h200 h201
        exact retry_fails hkey' hquiet hr h200 h201

/-! ## Retries of a retirement -/

theorem RetrySettles.reported {start time : Int} {d : Domain} {events : List ChainEvent}
    {failNext : Bool} {r : Response} (h : RetrySettles cfg rt key start w req script)
    (hw : Snapshot d events time failNext (step cfg rt w (.request req script)))
    (hr : response cfg rt w req script = some r) (hstatus : r.status = 200 ∨ r.status = 201) :
    ∃ ev, latestEvent events key = some ev ∧ Present d ev.payload := by
  rcases h.success r hr hstatus with ⟨ev, hlatest, happlied, -⟩
  have hpresent := happlied.present
  rw [hw.events] at hlatest
  rw [hw.domain] at hpresent
  exact ⟨ev, hlatest, hpresent⟩

theorem validKey_key (quantity : Quantity) :
    (retireRequest "key" quantity).key.filter validKey = some "key" :=
  validKey_retire (by decide) quantity

/-- Requests under one key do not derive the ids of another. -/
theorem uncollided_retire (rt : Runtime) (quantity : Quantity) (script : List Tick) :
    Uncollided rt "key" (.request (retireRequest "key" quantity) script) := by
  intro k hk hne
  rw [validKey_key, Option.some.injEq] at hk
  exact absurd hk.symm hne

/-- A retry of the same retirement at the time of the request is one of its retries. -/
theorem retries_retire {cfg : AppConfig} {quantity : Quantity} {start : Int} {w : World}
    (hclock : w.clock = start) (hpositive : 0 < cfg.idempotencyTtlSeconds) :
    Retries cfg "key" (retireRequest "key" quantity) start w
      (.request (retireRequest "key" quantity) (quiet 0)) := by
  intro _
  rw [arrival_quiet, hclock]
  exact ⟨rfl, by omega⟩

/-- A request for a retirement rounds nothing. -/
theorem stepExact_retire {key : String} {quantity : Quantity} {w : World} {script : List Tick} :
    StepExact cfg rt w (.request (retireRequest key quantity) script) := by
  intro _ _ _
  constructor
  · intro ev _
    trivial
  · intro _ payload _
    trivial

/-- A retirement that fails after its submission, and its retry. -/
theorem settled_on_retry : Settled ⟨86400⟩ plainRuntime "key"
    (arrival (finalWorld ⟨86400⟩ plainRuntime [.failNextTransaction]) (quiet 0))
    (step ⟨86400⟩ plainRuntime (finalWorld ⟨86400⟩ plainRuntime [.failNextTransaction])
      (.request (retireRequest "key" tenUnits) (quiet 0)))
    (.request (retireRequest "key" tenUnits) (quiet 0)) := by
  have hkey := validKey_key tenUnits
  have hstill : (0 : Int) + (0 : Nat) = 0 := rfl
  have hw₀ : Snapshot Domain.empty [] 0 true
      (finalWorld ⟨86400⟩ plainRuntime [.failNextTransaction]) :=
    snapshot_initial.failNextTransaction ⟨86400⟩ plainRuntime
  rcases request_crashes ⟨86400⟩ plainRuntime hw₀ hkey hstill (usable_of_none rfl)
    (fun ev hev => by cases hev) (newPayload_retire plainRuntime _ "key" tenUnits 0) rfl with
    ⟨-, -, hw₁, -, -⟩
  refine crash_consistent ⟨86400⟩ plainRuntime [.failNextTransaction]
    [.request (retireRequest "key" tenUnits) (quiet 0)] _ (quiet 0) "key" hkey ?_ ?_ ?_ ?_ ?_ _
    List.mem_cons_self
  · intro i hi
    simp only [List.cons_append, List.nil_append, List.mem_cons, List.not_mem_nil, or_false] at hi
    rcases hi with rfl | rfl | rfl
    · trivial
    · exact uncollided_retire plainRuntime _ _
    · exact uncollided_retire plainRuntime _ _
  · intro e he
    rw [Run.trace_cons, Run.trace_nil, List.mem_singleton] at he
    subst he
    refine retries_retire ?_ (by decide)
    rw [arrival_quiet, hw₁.clock, hw₀.clock]
    rfl
  · intro e he
    simp only [List.cons_append, List.nil_append, Run.trace_cons, Run.trace_nil, List.mem_cons,
      List.not_mem_nil, or_false] at he
    rcases he with rfl | rfl | rfl
    · trivial
    · intro _ _
      refine ⟨fun ev hrecent => ?_, fun _ _ _ => Storage.get_empty _⟩
      cases hrecent.1
    · intro _ _
      constructor
      · intro ev hrecent hforeign
        have hlatest := hrecent.1
        rw [finalWorld, Run.final_cons, Run.final_nil] at hw₁
        rw [hw₁.events, latestEvent_append_self _ rfl, Option.some.injEq] at hlatest
        rw [← hlatest] at hforeign
        exact absurd rfl hforeign
      · intro _ _ _
        rw [finalWorld, Run.final_cons, Run.final_nil] at hw₁
        rw [hw₁.domain]
        exact Storage.get_empty _
  · intro e he
    simp only [List.cons_append, List.nil_append, Run.trace_cons, Run.trace_nil, List.mem_cons,
      List.not_mem_nil, or_false] at he
    rcases he with rfl | rfl | rfl
    · trivial
    · exact stepExact_retire
    · exact stepExact_retire
  · intro e he
    rw [Run.trace_cons, Run.trace_nil, List.mem_singleton] at he
    subst he
    intro _ _ _ ev hrecent
    have hlatest := hrecent.1
    rw [hw₀.events] at hlatest
    cases hlatest

/-- A retirement, and a lifetime after it a failing transaction. -/
def usedKey : List Input :=
  [.request (retireRequest "key" tenUnits) (quiet 0), .failNextTransaction]

/-- The record of the first retirement ends with its lifetime. -/
theorem final_usedKey (rt : Runtime) :
    Snapshot (retiredDomain rt) [retiredEvent rt] 0 true (finalWorld ⟨86400⟩ rt usedKey) ∧
      usable (finalWorld ⟨86400⟩ rt usedKey).store.db "key" 86400 = none := by
  have hfinal : finalWorld ⟨86400⟩ rt usedKey = step ⟨86400⟩ rt (step ⟨86400⟩ rt World.initial
      (.request (retireRequest "key" tenUnits) (quiet 0))) .failNextTransaction := by
    rw [finalWorld, usedKey, Run.final_cons, Run.final_cons, Run.final_nil]
  rcases retire_executes ⟨86400⟩ rt with ⟨hw, record, hrecord, hexpires⟩
  rw [hfinal]
  exact ⟨hw.failNextTransaction ⟨86400⟩ rt, usable_of_expired hrecord hexpires.le⟩

/-- Another retirement under the used key fails after its submission, and its retry is answered
with success and skipped. -/
theorem skipped_on_retry : ¬ ∃ rt : Runtime,
    (∀ i ∈ usedKey ++ [.request (retireRequest "key" ⟨99, by decide⟩) (quiet 86400),
        .request (retireRequest "key" ⟨99, by decide⟩) (quiet 0)], Uncollided rt "key" i) →
    (∀ e ∈ Run.trace (step ⟨86400⟩ rt) (step ⟨86400⟩ rt (finalWorld ⟨86400⟩ rt usedKey)
        (.request (retireRequest "key" ⟨99, by decide⟩) (quiet 86400)))
        [.request (retireRequest "key" ⟨99, by decide⟩) (quiet 0)],
      Retries ⟨86400⟩ "key" (retireRequest "key" ⟨99, by decide⟩)
        (arrival (finalWorld ⟨86400⟩ rt usedKey) (quiet 86400)) e.1 e.2) →
    ∀ e ∈ Run.trace (step ⟨86400⟩ rt) (step ⟨86400⟩ rt (finalWorld ⟨86400⟩ rt usedKey)
        (.request (retireRequest "key" ⟨99, by decide⟩) (quiet 86400)))
        [.request (retireRequest "key" ⟨99, by decide⟩) (quiet 0)],
      Settled ⟨86400⟩ rt "key" (arrival (finalWorld ⟨86400⟩ rt usedKey) (quiet 86400)) e.1 e.2 := by
  intro h
  rcases h with ⟨rt, hclaim⟩
  have hlater : (0 : Int) + (86400 : Nat) = 86400 := rfl
  have hstill : (86400 : Int) + (0 : Nat) = 86400 := rfl
  have hkey := validKey_key ⟨99, by decide⟩
  have hrow := get_retiredDomain rt
  rcases final_usedKey rt with ⟨hw₂, husable⟩
  -- the retirement of ninety-nine, a lifetime later
  rcases request_crashes ⟨86400⟩ rt hw₂ hkey hlater husable
    (fun ev hev => latestEvent_retired ⟨86400⟩ hev)
    (newPayload_retire rt _ "key" ⟨99, by decide⟩ 86400) rfl with ⟨-, -, hw₃, -, hrecord₃⟩
  -- its retry
  have hrecent : (86400 : Int) - 86400 < 86400 := by decide
  rcases request_reconciles ⟨86400⟩ rt hw₃ hkey hstill (usable_of_none hrecord₃)
    (latestEvent_append_self _ rfl) hrecent (applyAs_retire_again ⟨99, by decide⟩ 86400 hrow) with
    ⟨body, hresponse, -, hw₄, -, -⟩
  have hsettled : RetrySettles ⟨86400⟩ rt "key"
      (arrival (finalWorld ⟨86400⟩ rt usedKey) (quiet 86400))
      (step ⟨86400⟩ rt (finalWorld ⟨86400⟩ rt usedKey)
        (.request (retireRequest "key" ⟨99, by decide⟩) (quiet 86400)))
      (retireRequest "key" ⟨99, by decide⟩) (quiet 0) :=
    hclaim ?_ ?_ _ List.mem_cons_self hkey
  · rcases hsettled.reported hw₄ hresponse (.inl rfl) with ⟨ev, hlatest, hpresent⟩
    rw [latestEvent_append_self _ rfl, Option.some.injEq] at hlatest
    rw [← hlatest] at hpresent
    have hquantity := congrArg (Option.map fun row => row.quantity.1) (hrow.symm.trans hpresent)
    simp [RetirementPayload.row, retirePayload] at hquantity
  · intro i hi
    simp only [usedKey, List.cons_append, List.nil_append, List.mem_cons, List.not_mem_nil,
      or_false] at hi
    rcases hi with rfl | rfl | rfl | rfl
    · exact uncollided_retire rt _ _
    · trivial
    · exact uncollided_retire rt _ _
    · exact uncollided_retire rt _ _
  · intro e he
    rw [Run.trace_cons, Run.trace_nil, List.mem_singleton] at he
    subst he
    refine retries_retire ?_ (by decide)
    rw [arrival_quiet, hw₃.clock, hw₂.clock]
    rfl

end Backend
end Kraal
