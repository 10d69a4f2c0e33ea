import Kraal.Backend.Submission
import Kraal.Backend.Undisturbed

/-!
# Whose key it is

The first request that reaches the chain under a key owns the key for one lifetime.  Another
request is told from it by the fingerprint on its record only.  The record is deleted when a
transaction fails, the event of the key stays on the chain, and from then on every request
under the key is answered from that event.

Main results:

- Theorem {lit}`key_owned_iff`: within the lifetime every other request is refused, and the
  owner is not, exactly in the runs in which every other request finds a record.
- Theorem {lit}`borrowed_answer`: a retirement is answered with the listing of another request.
-/

namespace Kraal
namespace Backend

open Foundation

section

variable (cfg : AppConfig) (rt : Runtime) (key fingerprint : String) (start : Int)

/-- A request under the key in the lifetime that starts at the given time. -/
def Within (w : World) (req : Request) (script : List Tick) : Prop :=
  req.key.filter validKey = some key ∧ arrival w script < start + cfg.idempotencyTtlSeconds

/-- A request is answered with a client error and changes nothing. -/
def Refused (w : World) (req : Request) (script : List Tick) : Prop :=
  (∃ r, response cfg rt w req script = some r ∧ 400 ≤ r.status ∧ r.status < 500) ∧
    (step cfg rt w (.request req script)).store.db = w.store.db

/-- A step does not answer for another request than the owner of the key. -/
def RespectsOwner (w : World) : Input → Prop
  | .failNextTransaction => True
  | .request req script => Within cfg key start w req script →
      (fingerprintOf rt req ≠ fingerprint → Refused cfg rt w req script) ∧
      (fingerprintOf rt req = fingerprint → ∀ r, response cfg rt w req script = some r →
        r.status ≠ 422)

/-- A request other than the owner finds a record that has not expired. -/
def FindsRecord (w : World) : Input → Prop
  | .failNextTransaction => True
  | .request req script => Within cfg key start w req script →
      fingerprintOf rt req ≠ fingerprint →
      (usable w.store.db key (arrival w script)).isSome = true

/-- A record, if there is one, is one of the request with the fingerprint. -/
def Belongs (record : Option IdempotencyRecord) : Prop :=
  ∀ r, record = some r → r.fingerprint = fingerprint

/-- The key has an event of its lifetime. -/
structure Submitted (w : World) : Prop where
  event : ∃ ev, latestEvent w.store.db.chainEvents key = some ev ∧ start ≤ ev.createdAt
  clock : start ≤ w.clock

/-- The key has an event of its lifetime, and a record of no other request. -/
structure Held (w : World) : Prop extends Submitted key start w where
  record : w.clock < start + cfg.idempotencyTtlSeconds →
    Belongs fingerprint (w.store.db.records.get key)

/-- The injected failures are the only ones of an input. -/
def Input.Undisturbed : Input → Prop
  | .failNextTransaction => True
  | .request _ script => ∀ tick ∈ script, tick.Undisturbed

end

variable {cfg : AppConfig} {rt : Runtime} {key fingerprint : String} {start : Int} {w : World}
  {req : Request} {script : List Tick}

/-! ## The event of the key -/

theorem Submitted.recent {time : Int} (h : Submitted key start w)
    (htime : time < start + cfg.idempotencyTtlSeconds) :
    ∃ ev, Recent cfg w.store.db key time ev := by
  rcases h.event with ⟨ev, hlatest, hstart⟩
  exact ⟨ev, hlatest, by omega⟩

theorem submitted_step (h : Submitted key start w) (i : Input) :
    Submitted key start (step cfg rt w i) := by
  have hclock := h.clock.trans (clock_le_step cfg rt w i)
  rcases step_events cfg rt w i with hsame |
    ⟨time, endpoint, k, body, ev, htime, -, hsubmission, -, hevents⟩
  · refine ⟨?_, hclock⟩
    rw [hsame]
    exact h.event
  · refine ⟨?_, hclock⟩
    rw [hevents]
    by_cases hk : ev.dedupId = key
    · have hstart := h.clock
      have hcreated := hsubmission.created.trans hsubmission.submitted
      exact ⟨ev, latestEvent_append_self _ hk, by omega⟩
    · rw [latestEvent_append_other _ hk]
      exact h.event

/-! ## Other requests -/

/-- A record of another request refuses a request. -/
theorem refused_of_record (hkey : req.key.filter validKey = some key)
    (hscript : ∀ tick ∈ script, tick.Undisturbed) {r : IdempotencyRecord}
    (husable : usable w.store.db key (arrival w script) = some r)
    (hr : fingerprintOf rt req ≠ r.fingerprint) : Refused cfg rt w req script := by
  have hclosed : ¬ Open w.store.db key (fingerprintOf rt req) (arrival w script) :=
    fun hopen => hr (hopen r husable).1.symm
  rcases step_request cfg rt w hkey hscript with ⟨exit, hresponse, houtcome, -⟩
  cases houtcome with
  | replayed hrecord hfingerprint _ _ _ =>
      rw [husable, Option.some.injEq] at hrecord
      subst hrecord
      exact absurd hfingerprint.symm hr
  | mismatched _ _ hdb =>
      exact ⟨⟨_, hresponse, by simp, by simp⟩, hdb⟩
  | rejected _ hopen _ _ _ _ _ => exact absurd hopen hclosed
  | failed _ hwhy _ _ _ _ =>
      rcases hwhy with ⟨fault, hfault⟩ | ⟨hopen, -⟩
      · exact absurd hfault not_mayFault_undisturbed
      · exact absurd hopen hclosed
  | lost _ _ hopen _ _ _ _ _ _ => exact absurd hopen hclosed
  | reconciled hopen _ _ _ _ _ _ _ => exact absurd hopen hclosed
  | submitted _ hopen _ _ _ _ _ _ _ => exact absurd hopen hclosed
  | executed hopen _ _ _ _ _ _ _ _ _ => exact absurd hopen hclosed

/-- Without a record a request is answered from the event of the key, or with an error of the
server. -/
theorem not_refused_of_none (hw : Submitted key start w)
    (hwithin : Within cfg key start w req script) (hscript : ∀ tick ∈ script, tick.Undisturbed)
    (husable : usable w.store.db key (arrival w script) = none) :
    ¬ Refused cfg rt w req script := by
  intro hrefused
  rcases hrefused with ⟨⟨r, hr, hlow, hhigh⟩, -⟩
  have hrecent := hw.recent hwithin.2
  rcases step_request cfg rt w hwithin.1 hscript with
    ⟨exit, hresponse, houtcome, -⟩
  rw [hresponse] at hr
  cases houtcome with
  | replayed hrecord _ _ _ _ =>
      rw [husable] at hrecord
      cases hrecord
  | mismatched hrecord _ _ =>
      rw [husable] at hrecord
      cases hrecord
  | rejected _ _ hold _ _ _ _ => exact hold hrecent
  | failed hexit _ _ _ _ _ =>
      have hstatus := hexit.status hr
      omega
  | lost _ hfault _ _ _ _ _ _ _ =>
      rcases hfault with ⟨fault, hfault, -⟩
      exact not_mayFault_undisturbed hfault
  | reconciled _ _ _ _ _ _ _ _ =>
      rw [answer, Option.some.injEq] at hr
      rw [← hr] at hlow
      exact absurd hlow (by simp)
  | submitted _ _ hold _ _ _ _ _ _ => exact hold hrecent
  | executed _ hold _ _ _ _ _ _ _ _ => exact hold hrecent

/-! ## The owner -/

theorem Kept.belongs {time : Int} {old new : Option IdempotencyRecord}
    (h : Kept cfg fingerprint time old new) (hold : Belongs fingerprint old) :
    Belongs fingerprint new := by
  rcases h with rfl | rfl | ⟨r, rfl, hpending, -⟩
  · exact hold
  · intro r hr
    cases hr
  · intro r' hr'
    rw [Option.some.injEq] at hr'
    rw [← hr']
    exact hpending.1

/-- A usable record that does not stand in the way is one of the request. -/
theorem Open.belongs {db : Database} {time : Int} (h : Open db key fingerprint time) :
    Belongs fingerprint (usable db key time) :=
  fun r hr => (h r hr).1

theorem completedRecord_fingerprint {existing : Option IdempotencyRecord} {name : String}
    {status : Nat} {body : ResponseBody} {time expiresAt : Int}
    (h : Belongs fingerprint existing) :
    (completedRecord existing key fingerprint name status body time expiresAt).fingerprint =
      fingerprint := by
  cases existing with
  | none => rfl
  | some r => exact h r rfl

/-- A request of the owner leaves no record of another request. -/
theorem record_of_owner {exit : Exit Thrown Response} {allowed : Tick → Prop} {w' : World}
    {time : Int} {endpoint : Endpoint} {request : Option Json}
    (h : Outcome cfg rt allowed endpoint key fingerprint request time w.store.db exit w'.store.db
      w'.clock)
    (hold : Belongs fingerprint (w.store.db.records.get key)) :
    Belongs fingerprint (w'.store.db.records.get key) := by
  cases h with
  | replayed _ _ _ _ hdb =>
      rw [hdb]
      exact hold
  | mismatched _ _ hdb =>
      rw [hdb]
      exact hold
  | rejected _ _ _ _ _ _ hrecord => exact hrecord.belongs hold
  | failed _ _ _ _ _ hrecord => exact hrecord.belongs hold
  | lost _ _ hopen _ _ _ _ _ hrecord =>
      rw [hrecord]
      exact hopen.belongs
  | reconciled hopen _ _ _ _ _ _ hrecord =>
      intro r hr
      rw [hrecord, Option.some.injEq] at hr
      rw [← hr]
      exact completedRecord_fingerprint hopen.belongs
  | submitted _ hopen _ _ _ _ _ _ hrecord => exact hrecord.belongs hopen.belongs
  | executed hopen _ _ _ _ _ _ _ _ hrecord =>
      intro r hr
      rcases hrecord with ⟨marked, hmarked, hrecord⟩
      rw [hrecord, Option.some.injEq] at hr
      rw [← hr]
      exact completedRecord_fingerprint (hmarked.belongs hopen.belongs)

/-- The key stays with its owner over a step in which another request finds a record. -/
theorem held_step {i : Input} (h : Held cfg key fingerprint start w) (hquiet : i.Undisturbed)
    (hfinds : FindsRecord cfg rt key fingerprint start w i) :
    Held cfg key fingerprint start (step cfg rt w i) := by
  refine ⟨submitted_step h.toSubmitted i, fun hclock => ?_⟩
  have hbefore := clock_le_step cfg rt w i
  have hold := h.record (by omega)
  cases i with
  | failNextTransaction => exact hold
  | request req script =>
      cases hkey : req.key.filter validKey with
      | none =>
          rw [(step_invalid hkey).1]
          exact hold
      | some k =>
          rcases step_request cfg rt w hkey hquiet with
            ⟨exit, -, houtcome, harrival⟩
          by_cases hk : k = key
          · subst hk
            have hwithin : Within cfg k start w req script := ⟨hkey, by omega⟩
            by_cases hfingerprint : fingerprintOf rt req = fingerprint
            · subst hfingerprint
              exact record_of_owner houtcome hold
            · rcases Option.isSome_iff_exists.mp (hfinds hwithin hfingerprint) with ⟨r, hr⟩
              have hrecord : r.fingerprint = fingerprint := hold r (Option.mem_filter_iff.mp hr).1
              have hrefused : Refused cfg rt w req script :=
                refused_of_record hkey hquiet hr (by rw [hrecord]; exact hfingerprint)
              rw [hrefused.2]
              exact hold
          · rw [houtcome.others key (Ne.symm hk)]
            exact hold

/-- The owner is not mistaken for another request. -/
theorem owner_not_mistaken (hkey : req.key.filter validKey = some key)
    (hscript : ∀ tick ∈ script, tick.Undisturbed)
    (hold : Belongs (fingerprintOf rt req) (w.store.db.records.get key)) :
    ∀ r, response cfg rt w req script = some r → r.status ≠ 422 := by
  intro r hr hstatus
  rcases step_request cfg rt w hkey hscript with ⟨exit, hresponse, houtcome, -⟩
  rw [hresponse] at hr
  cases houtcome with
  | replayed _ _ _ _ _ =>
      rw [answer, Option.some.injEq] at hr
      rw [← hr] at hstatus
      cases hstatus
  | mismatched hrecord hfingerprint _ =>
      exact hfingerprint (hold _ (Option.mem_filter_iff.mp hrecord).1)
  | rejected hrejected _ _ _ _ _ _ =>
      rw [answer, Option.some.injEq] at hr
      rw [← hr, Response.reject_status] at hstatus
      omega
  | failed hexit _ _ _ _ _ =>
      have h500 := hexit.status hr
      omega
  | lost hexit _ _ _ _ _ _ _ _ =>
      have h500 := hexit.status hr
      omega
  | reconciled _ _ _ _ _ _ _ _ =>
      rw [answer, Option.some.injEq] at hr
      rw [← hr] at hstatus
      cases hstatus
  | submitted hexit _ _ _ _ _ _ _ _ =>
      have herror := hexit.status hr
      omega
  | executed _ _ _ _ _ _ _ _ _ _ =>
      rw [answer, Option.some.injEq] at hr
      rw [← hr] at hstatus
      cases hstatus

/-! ## Runs -/

/-- A request that reaches the chain first takes the key. -/
theorem held_first (cfg : AppConfig) (hkey : req.key.filter validKey = some key)
    (hfirst : ∀ ev ∈ w.store.db.chainEvents, ev.dedupId ≠ key)
    (hreached : ∃ ev ∈ (step cfg rt w (.request req script)).store.db.chainEvents,
      ev.dedupId = key) :
    Held cfg key (fingerprintOf rt req) (arrival w script)
      (step cfg rt w (.request req script)) := by
  rcases step_request cfg rt w hkey (fun _ _ => trivial) with ⟨exit, -, houtcome, harrival⟩
  have hsubmitted : ∀ {ev : ChainEvent}, ev.dedupId = key → arrival w script ≤ ev.createdAt →
      (step cfg rt w (.request req script)).store.db.chainEvents = w.store.db.chainEvents ++ [ev] →
      Submitted key (arrival w script) (step cfg rt w (.request req script)) := by
    intro ev hev hcreated hevents
    refine ⟨⟨ev, ?_, hcreated⟩, harrival⟩
    rw [hevents]
    exact latestEvent_append_self _ hev
  have hunreached : (step cfg rt w (.request req script)).store.db.chainEvents ≠
      w.store.db.chainEvents := by
    intro hsame
    rw [hsame] at hreached
    rcases hreached with ⟨ev, hev, hevKey⟩
    exact hfirst ev hev hevKey
  cases houtcome with
  | replayed _ _ _ _ hdb => exact absurd (by rw [hdb]) hunreached
  | mismatched _ _ hdb => exact absurd (by rw [hdb]) hunreached
  | rejected _ _ _ hevents _ _ _ => exact absurd hevents hunreached
  | failed _ _ hevents _ _ _ => exact absurd hevents hunreached
  | lost _ _ _ _ _ hevents _ _ _ => exact absurd hevents hunreached
  | reconciled _ _ _ _ hevents _ _ _ => exact absurd hevents hunreached
  | submitted _ hopen _ hev _ hevents _ _ hrecord =>
      refine ⟨hsubmitted hev.dedupId (hev.created.trans hev.submitted) hevents, fun _ => ?_⟩
      exact hrecord.belongs hopen.belongs
  | executed hopen _ hev _ _ _ hevents _ _ hrecord =>
      refine ⟨hsubmitted hev.dedupId (hev.created.trans hev.submitted) hevents, fun _ r hr => ?_⟩
      rcases hrecord with ⟨marked, hmarked, hrecord⟩
      rw [hrecord, Option.some.injEq] at hr
      rw [← hr]
      exact completedRecord_fingerprint (hmarked.belongs hopen.belongs)

/-- Within its lifetime a key answers for its owner only, exactly in the runs in which every
other request finds a record. -/
theorem key_owned_iff (cfg : AppConfig) (rt : Runtime) (before after : List Input) (req : Request)
    (script : List Tick) (key : String) (hkey : req.key.filter validKey = some key)
    (hfirst : ∀ ev ∈ (finalWorld cfg rt before).store.db.chainEvents, ev.dedupId ≠ key)
    (hreached : ∃ ev ∈ (step cfg rt (finalWorld cfg rt before)
      (.request req script)).store.db.chainEvents, ev.dedupId = key)
    (hquiet : ∀ i ∈ after, i.Undisturbed) :
    (∀ e ∈ Run.trace (step cfg rt) (step cfg rt (finalWorld cfg rt before) (.request req script))
        after, RespectsOwner cfg rt key (fingerprintOf rt req)
          (arrival (finalWorld cfg rt before) script) e.1 e.2) ↔
      ∀ e ∈ Run.trace (step cfg rt) (step cfg rt (finalWorld cfg rt before) (.request req script))
        after, FindsRecord cfg rt key (fingerprintOf rt req)
          (arrival (finalWorld cfg rt before) script) e.1 e.2 := by
  have hheld := held_first cfg hkey hfirst hreached
  generalize arrival (finalWorld cfg rt before) script = start at hheld ⊢
  generalize step cfg rt (finalWorld cfg rt before) (.request req script) = w₁ at hheld ⊢
  have hinput : ∀ e ∈ Run.trace (step cfg rt) w₁ after, e.2.Undisturbed :=
    fun e he => hquiet e.2 (Run.input_mem_of_mem_trace he)
  constructor
  · intro hrespects e he
    have hsubmitted := Run.trace_invariant (I := Submitted key start) hheld.toSubmitted
      (fun e _ h => submitted_step h e.2) e he
    have hrespect := hrespects e he
    have hundisturbed := hinput e he
    rcases e with ⟨w, i⟩
    cases i with
    | failNextTransaction => trivial
    | request req' script' =>
        intro hwithin hfingerprint
        by_contra hrecord
        rw [Bool.not_eq_true, Option.isSome_eq_false_iff, Option.isNone_iff_eq_none] at hrecord
        exact not_refused_of_none hsubmitted hwithin hundisturbed hrecord
          ((hrespect hwithin).1 hfingerprint)
  · intro hfinds e he
    have hheld' := Run.trace_invariant (I := Held cfg key (fingerprintOf rt req) start) hheld
      (fun e he h => held_step h (hinput e he) (hfinds e he)) e he
    have hfind := hfinds e he
    have hundisturbed := hinput e he
    rcases e with ⟨w, i⟩
    cases i with
    | failNextTransaction => trivial
    | request req' script' =>
        intro hwithin
        have hclock := (le_arrival w script').trans_lt hwithin.2
        have hrecord := hheld'.record hclock
        constructor
        · intro hfingerprint
          rcases Option.isSome_iff_exists.mp (hfind hwithin hfingerprint) with ⟨r, hr⟩
          refine refused_of_record hwithin.1 hundisturbed hr ?_
          rw [hrecord r (Option.mem_filter_iff.mp hr).1]
          exact hfingerprint
        · intro hfingerprint
          rw [← hfingerprint] at hrecord
          exact owner_not_mistaken hwithin.1 hundisturbed hrecord

/-- While its record is stored, a listing is not taken for a retirement. -/
theorem own_answer :
    RespectsOwner ⟨86400⟩ plainRuntime "stock" (fingerprintOf plainRuntime stockRequest)
      (arrival (finalWorld ⟨86400⟩ plainRuntime []) (quiet 0))
      (step ⟨86400⟩ plainRuntime (finalWorld ⟨86400⟩ plainRuntime [])
        (.request stockRequest (quiet 0)))
      (.request (retireRequest "stock" ⟨99, by decide⟩) (quiet 0)) := by
  rcases stock_executes ⟨86400⟩ plainRuntime with ⟨hw₁, -, r, hr, hexpires⟩
  have hw : Snapshot (stockDomain plainRuntime) [stockEvent plainRuntime] 0 false
      (step ⟨86400⟩ plainRuntime (finalWorld ⟨86400⟩ plainRuntime [])
        (.request stockRequest (quiet 0))) := hw₁
  refine (key_owned_iff ⟨86400⟩ plainRuntime []
    [.request (retireRequest "stock" ⟨99, by decide⟩) (quiet 0)] stockRequest (quiet 0) "stock"
    validKey_stock ?_ ?_ ?_).mpr ?_ _ List.mem_cons_self
  · intro ev hev
    cases hev
  · rw [hw.events]
    exact ⟨_, List.mem_cons_self, rfl⟩
  · intro i hi
    rw [List.mem_singleton.mp hi]
    intro tick htick
    rw [List.mem_singleton.mp htick]
    rfl
  · intro e he
    rw [Run.trace_cons, Run.trace_nil, List.mem_singleton] at he
    subst he
    intro _ _
    refine Option.isSome_iff_exists.mpr ⟨r, usable_of_record hr ?_⟩
    rw [hexpires, arrival_quiet, hw.clock]
    decide

/-! ## An answer for another request -/

/-- A listing fails after its submission, and a retirement under its key is answered with the
listing. -/
theorem borrowed_answer : ¬ ∃ rt : Runtime,
    fingerprintOf rt (retireRequest "stock" ⟨99, by decide⟩) ≠ fingerprintOf rt stockRequest ∧
    ((∀ ev ∈ (finalWorld ⟨86400⟩ rt [.failNextTransaction]).store.db.chainEvents,
        ev.dedupId ≠ "stock") →
      (∃ ev ∈ (step ⟨86400⟩ rt (finalWorld ⟨86400⟩ rt [.failNextTransaction])
        (.request stockRequest (quiet 0))).store.db.chainEvents, ev.dedupId = "stock") →
      ∀ e ∈ Run.trace (step ⟨86400⟩ rt) (step ⟨86400⟩ rt
          (finalWorld ⟨86400⟩ rt [.failNextTransaction]) (.request stockRequest (quiet 0)))
          [.request (retireRequest "stock" ⟨99, by decide⟩) (quiet 0)],
        RespectsOwner ⟨86400⟩ rt "stock" (fingerprintOf rt stockRequest)
          (arrival (finalWorld ⟨86400⟩ rt [.failNextTransaction]) (quiet 0)) e.1 e.2) := by
  intro h
  rcases h with ⟨rt, hfingerprint, hclaim⟩
  have hretireKey := validKey_retire (show validKey "stock" = true by decide) ⟨99, by decide⟩
  have hstill : (0 : Int) + (0 : Nat) = 0 := rfl
  have hrecent : (0 : Int) - 0 < 86400 := by decide
  have hw₀ : Snapshot Domain.empty [] 0 true (finalWorld ⟨86400⟩ rt [.failNextTransaction]) :=
    snapshot_initial.failNextTransaction ⟨86400⟩ rt
  rcases request_crashes ⟨86400⟩ rt hw₀ validKey_stock hstill (usable_of_none rfl)
    (fun ev hev => by cases hev) (newPayload_stock rt) rfl with ⟨-, -, hw₁, -, hrecord₁⟩
  -- the retirement ignores the event of a listing
  have happly : applyAs .retire (.listingCreated (stockPayload rt)) () Domain.empty =
      .ok ((), Domain.empty) :=
    applyRetirement_eq_ok.mpr (.inr ⟨fun p hp => (nomatch hp), rfl⟩)
  rcases request_reconciles ⟨86400⟩ rt hw₁ hretireKey hstill (usable_of_none hrecord₁)
    (latestEvent_append_self [] rfl) hrecent happly with ⟨body, hresponse, -, -, -, -⟩
  have hrespects := hclaim ?_ ?_ _ List.mem_cons_self
  · have hwithin : Within ⟨86400⟩ "stock"
        (arrival (finalWorld ⟨86400⟩ rt [.failNextTransaction]) (quiet 0))
        (step ⟨86400⟩ rt (finalWorld ⟨86400⟩ rt [.failNextTransaction])
          (.request stockRequest (quiet 0)))
        (retireRequest "stock" ⟨99, by decide⟩) (quiet 0) := by
      refine ⟨hretireKey, ?_⟩
      rw [arrival_quiet, arrival_quiet, hw₁.clock, hw₀.clock]
      decide
    rcases (hrespects hwithin).1 hfingerprint with ⟨⟨r, hr, hlow, -⟩, -⟩
    rw [hresponse, Option.some.injEq] at hr
    rw [← hr] at hlow
    exact absurd hlow (by simp)
  · intro ev hev
    rw [hw₀.events] at hev
    cases hev
  · rw [hw₁.events]
    exact ⟨_, List.mem_append_right _ List.mem_cons_self, rfl⟩

end Backend
end Kraal
