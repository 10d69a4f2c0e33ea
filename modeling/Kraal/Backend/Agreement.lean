import Kraal.Backend.Inventory

/-!
# The tables agree with the chain

The id of a row is derived from the key of its request, but a key may be used again once its
lifetime is over.  The row of a second event is then skipped, or written over the row of the
first, and a response reports success all the same.  Events that have not been applied when
their lifetime is over never are, and an event is lost as well if it is applied at the endpoint
of another type.  The quantity of a purchase is subtracted in doubles.  In the runs in which none
of this happens and nothing is rounded the tables agree with the chain.

Main results:

- Theorem {lit}`agrees_own` and {lit}`agrees_other`: what a request keeps of the agreement.
- Theorem {lit}`agreement_of_admits`: the agreement after every successful response of a run.
- Theorem {lit}`retired_twice`: a retirement that is on the chain only.
-/

namespace Kraal
namespace Backend

open Foundation

variable {cfg : AppConfig} {rt : Runtime}

/-! ## The agreement -/

/-- The effects of all events of a key are in the tables. -/
def Applied (w : World) (key : String) : Prop :=
  ∀ ev ∈ eventsOf w.store.db.chainEvents key, Present w.store.db.domain ev.payload

/-- Two events have rows of their own. -/
def Apart (ev ev' : ChainEvent) : Prop :=
  ev'.payload.endpoint = ev.payload.endpoint → ev'.payload.id ≠ ev.payload.id

/-- The tables agree with the events of a key: each event has one row with its own quantities,
and a purchase is taken from its listing. -/
structure Agreement (w : World) (key : String) : Prop where
  present : ∀ ev ∈ w.store.db.chainEvents, ev.dedupId = key →
    Present w.store.db.domain ev.payload
  oneEach : (eventsOf w.store.db.chainEvents key).Pairwise Apart
  deducted : ∀ ev ∈ w.store.db.chainEvents, ev.dedupId = key →
    ∀ p, ev.payload = .purchaseSettled p → ∃ row : ListingRow,
      w.store.db.domain.listings.get p.listingId = some row ∧
      row.quantityRemaining = row.quantityTotal - w.store.db.domain.sold p.listingId

theorem Agreement.of_snapshot {w : World} {key : String} {d : Domain} {events : List ChainEvent}
    {time : Int} {failNext : Bool} (h : Agreement w key) (hw : Snapshot d events time failNext w) :
    ∀ ev ∈ events, ev.dedupId = key → Present d ev.payload := by
  rw [← hw.domain, ← hw.events]
  exact h.present

/-! ## Steps that find room -/

/-- An event that is not in the tables finds its place free, and is not skipped there. -/
def Admits (d : Domain) (payload : Payload) (endpoint : Endpoint) : Prop :=
  Present d payload ∨ ¬ Skipped d payload endpoint ∧ Vacant d payload.id endpoint

/-- A step finds room for its event: for the one that it applies again, and for a new one after
all others of its key are applied.  Every other step finds room. -/
def StepAdmits (cfg : AppConfig) (rt : Runtime) (w : World) : Input → Prop
  | .failNextTransaction => True
  | .request req script => ∀ key, req.key.filter validKey = some key →
      Open w.store.db key (fingerprintOf rt req) (arrival w script) →
      (∀ ev, Recent cfg w.store.db key (arrival w script) ev →
        Admits w.store.db.domain ev.payload req.endpoint) ∧
      ((¬ ∃ ev, Recent cfg w.store.db key (arrival w script) ev) →
        (∃ payload, NewPayload rt key req.body w.store.db.domain payload req.endpoint) →
        Applied w key ∧
          Vacant w.store.db.domain (deriveId rt req.endpoint.kind key) req.endpoint)

/-- What applying an event does if there is room for it. -/
structure Settles (d d' : Domain) (payload : Payload) : Prop where
  present : Present d' payload
  keeps : ∀ other, Present d other → Present d' other

theorem not_skipped_of_vacant {d : Domain} {payload : Payload}
    (h : Vacant d payload.id payload.endpoint) : ¬ Skipped d payload payload.endpoint := by
  intro hskipped
  cases payload with
  | listingCreated p => exact hskipped
  | purchaseSettled p =>
      have hnone : d.purchases.get p.id = none := h
      have hsome : (d.purchases.get p.id).isSome = true := hskipped
      rw [hnone] at hsome
      cases hsome
  | creditsRetired p =>
      have hnone : d.retirements.get p.id = none := h
      have hsome : (d.retirements.get p.id).isSome = true := hskipped p rfl
      rw [hnone] at hsome
      cases hsome

/-- A listing whose row is in the tables does not change a total, nor does one without a row. -/
theorem fits_of_admits {d : Domain} {p : ListingPayload} {endpoint : Endpoint}
    (h : Admits d (.listingCreated p) endpoint) (hendpoint : endpoint = .listings) : p.Fits d := by
  subst hendpoint
  intro row hrow
  rcases h with ⟨remaining, hpresent⟩ | ⟨-, hvacant⟩
  · rw [hpresent, Option.some.injEq] at hrow
    rw [← hrow]
    rfl
  · have hnone : d.listings.get p.id = none := hvacant
    rw [hnone] at hrow
    cases hrow

/-- An event that there is room for keeps the balance if it is applied without rounding. -/
theorem balanced_of_admits {d d' : Domain} {payload : Payload} {endpoint : Endpoint}
    (h : Admits d payload endpoint) (hexact : Exact d endpoint payload) (hbalanced : Balanced d)
    (happly : applyAs endpoint payload () d = .ok ((), d')) : Balanced d' := by
  refine balanced_apply hbalanced hexact ?_ happly
  rintro hendpoint p rfl
  exact fits_of_admits h hendpoint

theorem settles_of_admits {d d' : Domain} {payload : Payload} {endpoint : Endpoint}
    (h : Admits d payload endpoint) (happly : applyAs endpoint payload () d = .ok ((), d')) :
    Settles d d' payload := by
  rcases h with hpresent | ⟨hskipped, hvacant⟩
  · constructor
    · exact present_apply hpresent happly fun _ _ => rfl
    · intro other hother
      exact present_apply hother happly fun hendpoint hid =>
        hother.unique hpresent hendpoint hid
  · have hendpoint := endpoint_of_not_skipped hskipped happly
    subst hendpoint
    constructor
    · exact present_of_apply (compatible_of_vacant fun _ => hvacant) happly
    · intro other hother
      refine present_apply hother happly fun hendpoint hid => ?_
      rw [hendpoint, hid] at hvacant
      exact absurd hvacant hother.not_vacant

/-- A new event finds room where its id is free. -/
theorem admits_of_new {key : String} {body : Option Json} {d : Domain} {payload : Payload}
    {endpoint : Endpoint} (hnew : NewPayload rt key body d payload endpoint)
    (hvacant : Vacant d (deriveId rt endpoint.kind key) endpoint) :
    Admits d payload endpoint := by
  rcases hnew.identified with ⟨hendpoint, hid⟩
  rw [← hid] at hvacant
  subst hendpoint
  exact .inr ⟨not_skipped_of_vacant hvacant, hvacant⟩

/-! ## What a step keeps -/

section

variable {req : Request} {script : List Tick} {key : String} {w w' : World}

/-- A request that finds room keeps the rows of all events. -/
theorem kept_of_admits (heffect : Effect cfg rt req script key w w')
    (hkey : req.key.filter validKey = some key)
    (hadmits : StepAdmits cfg rt w (.request req script)) :
    ∀ payload, Present w.store.db.domain payload → Present w'.store.db.domain payload := by
  cases heffect with
  | unchanged _ hdomain _ =>
      rw [hdomain]
      exact fun _ h => h
  | reapplied hopen hrecent happly _ _ =>
      exact (settles_of_admits ((hadmits key hkey hopen).1 _ hrecent) happly).keeps
  | submitted hopen hold hev _ hdomain _ =>
      rcases hdomain with hdomain | happly
      · rw [hdomain]
        exact fun _ h => h
      · have hroom := (hadmits key hkey hopen).2 hold ⟨_, hev.payload⟩
        exact (settles_of_admits (admits_of_new hev.payload hroom.2) happly).keeps

/-- A request that finds room and rounds nothing keeps the balance of the listings. -/
theorem balanced_of_effect (h : Balanced w.store.db.domain)
    (heffect : Effect cfg rt req script key w w') (hkey : req.key.filter validKey = some key)
    (hadmits : StepAdmits cfg rt w (.request req script))
    (hexact : StepExact cfg rt w (.request req script)) : Balanced w'.store.db.domain := by
  cases heffect with
  | unchanged _ hdomain _ =>
      rw [hdomain]
      exact h
  | reapplied hopen hrecent happly _ _ =>
      exact balanced_of_admits ((hadmits key hkey hopen).1 _ hrecent)
        ((hexact key hkey hopen).1 _ hrecent) h happly
  | submitted hopen hold hev _ hdomain _ =>
      rcases hdomain with hdomain | happly
      · rw [hdomain]
        exact h
      · have hroom := (hadmits key hkey hopen).2 hold ⟨_, hev.payload⟩
        exact balanced_of_admits (admits_of_new hev.payload hroom.2)
          ((hexact key hkey hopen).2 hold _ hev.payload) h happly

/-- The invariant behind the agreement: all events of a key but the last one are applied, and
the last one is as well once a response is recorded. -/
structure Agrees (w : World) (key : String) : Prop where
  distinct : (eventsOf w.store.db.chainEvents key).Pairwise Apart
  older : ∀ ev ∈ (eventsOf w.store.db.chainEvents key).dropLast,
    Present w.store.db.domain ev.payload
  answered : ∀ r, w.store.db.records.get key = some r → r.Answered → Applied w key

/-- The last event of a key is applied with the older ones. -/
theorem Agrees.applied (h : Agrees w key) {ev : ChainEvent}
    (hlatest : latestEvent w.store.db.chainEvents key = some ev)
    (hkeeps : ∀ payload, Present w.store.db.domain payload → Present w'.store.db.domain payload)
    (hev : Present w'.store.db.domain ev.payload)
    (hevents : w'.store.db.chainEvents = w.store.db.chainEvents) : Applied w' key := by
  intro e he
  rw [latestEvent_eq] at hlatest
  rw [hevents, ← List.dropLast_append_getLast? ev hlatest] at he
  rcases List.mem_append.mp he with he | he
  · exact hkeeps _ (h.older e he)
  · rw [List.mem_singleton.mp he]
    exact hev

/-- A request under a key that finds room keeps the agreement for the key. -/
theorem agrees_own (h : Agrees w key) (heffect : Effect cfg rt req script key w w')
    (hkey : req.key.filter validKey = some key)
    (hadmits : StepAdmits cfg rt w (.request req script)) : Agrees w' key := by
  have hkeeps := kept_of_admits heffect hkey hadmits
  cases heffect with
  | unchanged hevents hdomain hrecord =>
      constructor
      · rw [hevents]
        exact h.distinct
      · rw [hevents, hdomain]
        exact h.older
      · intro r hr hanswered
        rw [Applied, hevents, hdomain]
        exact h.answered r (hrecord r hr hanswered) hanswered
  | reapplied hopen hrecent happly hevents hrecord =>
      have hsettles := settles_of_admits ((hadmits key hkey hopen).1 _ hrecent) happly
      constructor
      · rw [hevents]
        exact h.distinct
      · rw [hevents]
        exact fun ev hev => hkeeps _ (h.older ev hev)
      · intro r hr hanswered
        exact h.applied hrecent.1 hkeeps hsettles.present hevents
  | @submitted ev hopen hold hev hevents hdomain hrecord =>
      have hroom := (hadmits key hkey hopen).2 hold ⟨_, hev.payload⟩
      have hown : eventsOf w'.store.db.chainEvents key =
          eventsOf w.store.db.chainEvents key ++ [ev] := by
        rw [hevents]
        exact eventsOf_append_self _ hev.dedupId
      constructor
      · rw [hown, List.pairwise_append]
        refine ⟨h.distinct, List.pairwise_singleton _ _, fun e he e' he' hendpoint hid => ?_⟩
        -- the row of an older event would stand in the way of the new one
        rw [List.mem_singleton.mp he'] at hendpoint hid
        rcases hev.payload.identified with ⟨hendpoint', hid'⟩
        refine (hroom.1 e he).not_vacant ?_
        rw [← hendpoint, ← hid, hendpoint', hid']
        exact hroom.2
      · rw [hown, List.dropLast_concat]
        exact fun e he => hkeeps _ (hroom.1 e he)
      · intro r hr hanswered e he
        have happly := (hrecord r hr hanswered).2
        rw [hown] at he
        rcases List.mem_append.mp he with he | he
        · exact hkeeps _ (hroom.1 e he)
        · rw [List.mem_singleton.mp he]
          exact (settles_of_admits (admits_of_new hev.payload hroom.2) happly).present

/-- A request under another key that finds room keeps the agreement for a key. -/
theorem agrees_other {k : String} (h : Agrees w key) (heffect : Effect cfg rt req script k w w')
    (hkey : req.key.filter validKey = some k) (hk : k ≠ key)
    (hrecord : w'.store.db.records.get key = w.store.db.records.get key)
    (hadmits : StepAdmits cfg rt w (.request req script)) : Agrees w' key := by
  have hkeeps := kept_of_admits heffect hkey hadmits
  have hevents : eventsOf w'.store.db.chainEvents key = eventsOf w.store.db.chainEvents key := by
    cases heffect with
    | unchanged hevents _ _ => rw [hevents]
    | reapplied _ _ _ hevents _ => rw [hevents]
    | submitted _ _ hev hevents _ _ =>
        rw [hevents]
        exact eventsOf_append_other _ (by rw [hev.dedupId]; exact hk)
  constructor
  · rw [hevents]
    exact h.distinct
  · rw [hevents]
    exact fun ev hev => hkeeps _ (h.older ev hev)
  · intro r hr hanswered ev hev
    rw [hrecord] at hr
    rw [hevents] at hev
    exact hkeeps _ (h.answered r hr hanswered ev hev)

end

/-! ## Runs -/

/-- The listings balance, and the tables agree with every key as far as it is answered. -/
structure Consistent (w : World) : Prop where
  balanced : Balanced w.store.db.domain
  agrees : ∀ key, Agrees w key

theorem consistent_initial : Consistent World.initial := by
  refine ⟨balanced_empty, fun key => ⟨List.Pairwise.nil, ?_, ?_⟩⟩
  · intro ev hev
    cases hev
  · intro r hr
    have hnone : World.initial.store.db.records.get key = none := Storage.get_empty key
    rw [hnone] at hr
    cases hr

theorem consistent_step {w : World} {i : Input} (h : Consistent w)
    (hadmits : StepAdmits cfg rt w i) (hexact : StepExact cfg rt w i) :
    Consistent (step cfg rt w i) := by
  rcases step_cases cfg rt w i with ⟨hdb, -⟩ | ⟨req, script, k, exit, rfl, hkey, -, houtcome, -⟩
  · constructor
    · rw [hdb]
      exact h.balanced
    · intro key
      constructor
      · rw [hdb]
        exact (h.agrees key).distinct
      · rw [hdb]
        exact (h.agrees key).older
      · rw [Applied, hdb]
        exact (h.agrees key).answered
  · have heffect := houtcome.effect
    refine ⟨balanced_of_effect h.balanced heffect hkey hadmits hexact, fun key => ?_⟩
    by_cases hk : k = key
    · subst hk
      exact agrees_own (h.agrees k) heffect hkey hadmits
    · exact agrees_other (h.agrees key) heffect hkey hk (houtcome.others key (Ne.symm hk)) hadmits

/-- Tables in which the events of a key are applied agree with them. -/
theorem Agrees.agreement {w : World} {key : String} (h : Agrees w key)
    (hbalanced : Balanced w.store.db.domain) (happlied : Applied w key) : Agreement w key := by
  have hpresent : ∀ ev ∈ w.store.db.chainEvents, ev.dedupId = key →
      Present w.store.db.domain ev.payload :=
    fun ev hev hkey => happlied ev (mem_eventsOf.mpr ⟨hev, hkey⟩)
  refine ⟨hpresent, h.distinct, ?_⟩
  intro ev hev hkey p hp
  have hrow := hpresent ev hev hkey
  rw [hp] at hrow
  rcases Option.isSome_iff_exists.mp (hbalanced.linked p.id p.row hrow) with ⟨row, hlisting⟩
  exact ⟨row, hlisting, hbalanced.balance _ row hlisting⟩

/-- After every successful response the tables agree with the events of its key, in every run
whose steps find room for their events and round nothing. -/
theorem agreement_of_admits (cfg : AppConfig) (rt : Runtime) (run : List Input)
    (hadmits : ∀ e ∈ Run.trace (step cfg rt) World.initial run, StepAdmits cfg rt e.1 e.2)
    (hexact : ∀ e ∈ Run.trace (step cfg rt) World.initial run, StepExact cfg rt e.1 e.2) :
    ∀ e ∈ Run.trace (step cfg rt) World.initial run, ∀ req script key r,
      e.2 = .request req script → req.key.filter validKey = some key →
      response cfg rt e.1 req script = some r → 200 ≤ r.status → r.status < 300 →
      Agreement (step cfg rt e.1 e.2) key := by
  intro e he req script key r hi hkey hr _ hsuccess
  have hbefore := Run.trace_invariant (I := Consistent) consistent_initial
    (fun e he h => consistent_step h (hadmits e he) (hexact e he)) e he
  have hafter := consistent_step hbefore (hadmits e he) (hexact e he)
  rw [hi] at hafter ⊢
  rcases step_request cfg rt e.1 hkey (fun _ _ => trivial) with ⟨exit, hresponse, houtcome, -⟩
  rw [hresponse] at hr
  rcases houtcome.answered hr (by omega) with ⟨record, hrecord, hanswered, -⟩
  have hagrees := hafter.agrees key
  exact hagrees.agreement hafter.balanced (hagrees.answered record hrecord hanswered)

/-! ## A sale, and a retirement that is lost -/

/-- A request under an unused key finds room where its id is free. -/
theorem stepAdmits_of_unused {w : World} {req : Request} {script : List Tick} {key : String}
    (hkey : req.key.filter validKey = some key)
    (hevents : ∀ ev ∈ w.store.db.chainEvents, ev.dedupId ≠ key)
    (hvacant : Vacant w.store.db.domain (deriveId rt req.endpoint.kind key) req.endpoint) :
    StepAdmits cfg rt w (.request req script) := by
  intro key' hkey' _
  rw [hkey, Option.some.injEq] at hkey'
  subst hkey'
  constructor
  · intro ev hrecent
    have hlatest := hrecent.1
    rw [latestEvent_eq_none hevents] at hlatest
    cases hlatest
  · intro _ _
    refine ⟨fun ev hev => ?_, hvacant⟩
    have hown := mem_eventsOf.mp hev
    exact absurd hown.2 (hevents ev hown.1)

/-- A sale of a listing. -/
theorem agreement_of_sale : Agreement (finalWorld ⟨86400⟩ plainRuntime
    [.request stockRequest (quiet 0), .request (buyRequest plainRuntime "first") (quiet 0)])
    "first" := by
  have hfirstKey := validKey_buy plainRuntime (show validKey "first" = true by decide)
  have hother : "stock" ≠ "first" := by decide
  have hstill : (0 : Int) + (0 : Nat) = 0 := rfl
  have hsale := sale_unused plainRuntime
  rcases stock_executes ⟨86400⟩ plainRuntime with ⟨hw₁, hsame₁, -⟩
  have hfirst₁ := (hsame₁ "first" (Ne.symm hother)).trans (Storage.get_empty "first")
  rcases request_executes ⟨86400⟩ plainRuntime hw₁ hfirstKey hstill (usable_of_none hfirst₁)
    (fun ev hev => by simp [latestEvent, stockEvent] at hev) (newPayload_buy plainRuntime "first")
    rfl (applyAs_buy plainRuntime (get_stockDomain plainRuntime) (Storage.get_empty _)) with
    ⟨body, hresponse, -, -, -, -⟩
  have hlast : (step ⟨86400⟩ plainRuntime World.initial (.request stockRequest (quiet 0)),
      Input.request (buyRequest plainRuntime "first") (quiet 0)) ∈
        Run.trace (step ⟨86400⟩ plainRuntime) World.initial
          [.request stockRequest (quiet 0),
            .request (buyRequest plainRuntime "first") (quiet 0)] := by
    rw [Run.trace_cons, Run.trace_cons]
    exact List.mem_cons_of_mem _ List.mem_cons_self
  rw [finalWorld]
  simp only [Run.final_cons, Run.final_nil]
  refine agreement_of_admits ⟨86400⟩ plainRuntime _ ?_ ?_ _ hlast _ _ _ _ rfl hfirstKey hresponse
    (by simp) (by simp)
  · intro e he
    rcases hsale e he with ⟨req, key, hreq, hkey, hevents, hvacant, -⟩
    rw [hreq]
    refine stepAdmits_of_unused hkey (fun ev hev hown => ?_) hvacant
    have hmem := mem_eventsOf.mpr ⟨hev, hown⟩
    rw [hevents] at hmem
    cases hmem
  · intro e he
    rcases hsale e he with ⟨req, key, hreq, hkey, hevents, -, hsmall⟩
    rw [hreq]
    exact stepExact_of_unused hkey (by rw [latestEvent_eq, hevents]; rfl) hsmall

/-- A second retirement under a key is answered with success and skipped. -/
theorem retired_twice : ¬ ∃ rt : Runtime,
    ∀ e ∈ Run.trace (step ⟨86400⟩ rt) World.initial
        [.request (retireRequest "key" ⟨10, by decide⟩) (quiet 0),
          .request (retireRequest "key" ⟨99, by decide⟩) (quiet 86400)],
      ∀ req script key r, e.2 = .request req script → req.key.filter validKey = some key →
        response ⟨86400⟩ rt e.1 req script = some r → 200 ≤ r.status → r.status < 300 →
        Agreement (step ⟨86400⟩ rt e.1 e.2) key := by
  intro h
  rcases h with ⟨rt, hclaim⟩
  have hkey := validKey_retire (show validKey "key" = true by decide) ⟨99, by decide⟩
  have hlater : (0 : Int) + (86400 : Nat) = 86400 := rfl
  have hrow := get_retiredDomain rt
  rcases retire_executes ⟨86400⟩ rt with ⟨hw₁, record, hrecord, hexpires⟩
  -- a lifetime later
  rcases request_executes ⟨86400⟩ rt hw₁ hkey hlater (usable_of_expired hrecord hexpires.le)
    (fun ev hev => latestEvent_retired ⟨86400⟩ hev)
    (newPayload_retire rt _ "key" ⟨99, by decide⟩ 86400) rfl
    (applyAs_retire_again ⟨99, by decide⟩ 86400 hrow) with ⟨body, hresponse, -, hw₂, -, -⟩
  rw [Run.trace_cons, Run.trace_cons] at hclaim
  have hagreement := hclaim _ (List.mem_cons_of_mem _ List.mem_cons_self) _ _ _ _ rfl
    hkey hresponse (by simp) (by simp)
  have hskipped := hagreement.of_snapshot hw₂ _ (List.mem_append_right _ List.mem_cons_self) rfl
  have hquantity := congrArg (Option.map fun row => row.quantity.1) (hrow.symm.trans hskipped)
  simp [RetirementPayload.row, retirePayload] at hquantity

end Backend
end Kraal
