import Kraal.WebhookDelivery.Attempts

/-!
# Deliveries that are crowded out

A drain takes the first fifty deliveries that are due.  Those that are cancelled stay due, with the
time that they had: they come first in every drain that follows.  As soon as fifty of them are in
front of all deliveries that could be POSTed, a drain POSTs none of these.

Main results:

- Theorem {lit}`drain_posts`: a drain POSTs what it has selected and can be POSTed, and ends.
- Theorem {lit}`drain_serves_iff`: exactly when every drain POSTs a delivery with attempts left.
- Theorem {lit}`starved`: a drain that POSTs none of them, behind any number of cancelled ones.
- Theorem {lit}`crowded_out`: fifty deliveries to a webhook that is switched off.
-/

namespace Kraal
namespace WebhookDelivery

open Foundation
open EventIndexer (RpcEvent IndexedEventRow WebhookRegistrationRow WebhookDeliveryRow
  DeliveryStatus newDelivery sale saleHook)

variable {rt : Runtime} {options : WebhookDeliveryOptions} {s : State} {i : Input} {db : Db}
  {row : Delivery} {queue : List Delivery} {now : Int} {id : Nat}

/-! ## Tables of reachable states -/

/-- The deliveries are numbered, and the payloads of the events can be read. -/
structure Regular (rt : Runtime) (db : Db) : Prop where
  ids : db.deliveries.map Delivery.id = List.range' 1 db.deliveries.length
  readable : ∀ event ∈ db.indexedEvents, (rt.parse event.payload).isSome

/-- The deliveries are under their numbers. -/
theorem Regular.numbered (h : Regular rt db) : Numbered db := h.ids

/-- Writing a delivery keeps the tables regular. -/
theorem Regular.updateDelivery (h : Regular rt db) (id : Nat) (fields : DeliveryUpdate) :
    Regular rt (db.updateDelivery id fields) :=
  ⟨h.numbered.updateDelivery id fields, h.readable⟩

/-- Settling a delivery keeps the tables regular. -/
theorem Regular.settle (h : Regular rt db) (options : WebhookDeliveryOptions) (now : Int)
    (delivery : Delivery) (outcome : Outcome) :
    Regular rt (db.settle options now delivery outcome) := by
  rcases settle_eq db options now delivery outcome with ⟨fields, heq, -⟩
  rw [heq]
  exact h.updateDelivery _ _

/-- Going on with a drain keeps the tables regular. -/
theorem Regular.resume (h : Regular rt s.db) (now : Int) (queue : List Delivery) :
    Regular rt (resume rt now queue s).db :=
  resume_ensures (P := fun s _ => Regular rt s.db) (Q := fun s => Regular rt s.db)
    (fun _ h => h) (fun _ _ _ _ h _ => h.updateDelivery _ _) (fun _ _ _ _ _ h _ _ => h)
    (fun _ _ _ _ _ _ h _ _ => h) h

/-- Every step keeps the tables regular. -/
theorem regular_step (h : Regular rt s.db) : Regular rt (step rt options s i).db := by
  cases i with
  | drain elapsed query =>
      cases hphase : s.phase with
      | idle =>
          simp only [step, hphase]
          exact Regular.resume (s := { s with clock := s.clock + elapsed, phase := .idle }) h _ _
      | posting now delivery queue =>
          simp only [step, hphase]
          exact h
  | report outcome =>
      cases hphase : s.phase with
      | idle =>
          simp only [step, hphase]
          exact h
      | posting now delivery queue =>
          have hsettled : Regular rt (s.withDb (s.db.settle options now delivery outcome)).db :=
            h.settle options now delivery outcome
          simp only [step, hphase]
          exact hsettled.resume now queue
  | restart => exact h
  | insertIndexedEventIfAbsent ev indexedAt =>
      change Regular rt (s.db.insertIndexedEventIfAbsent rt.toRuntime ev indexedAt)
      rw [Db.insertIndexedEventIfAbsent]
      split
      · exact ⟨h.ids, h.readable⟩
      · refine ⟨h.ids, fun event hevent => ?_⟩
        rcases List.mem_append.mp hevent with hold | hnew
        · exact h.readable event hold
        · rw [List.mem_singleton.mp hnew]
          exact rt.parse_stringify ev.payload
  | insertWebhookDelivery webhook eventId indexedAt =>
      exact ⟨h.numbered.insertWebhookDelivery _, h.readable⟩
  | insertWebhook row => exact ⟨h.ids, h.readable⟩
  | updateWebhook id url secret active => exact ⟨h.ids, h.readable⟩

/-- The tables are regular in every reachable state. -/
theorem regular_of_reachable (h : Run.Reachable (step rt options) State.initial s) :
    Regular rt s.db :=
  h.invariant (I := fun s => Regular rt s.db) ⟨rfl, fun _ hevent => by cases hevent⟩
    fun _ _ => regular_step

/-! ## The POSTs of a drain -/

/-- A delivery can be POSTed: its webhook is active, and its event is there. -/
def Db.Deliverable (db : Db) (row : Delivery) : Prop :=
  (db.recipient row).isOk = true

instance (db : Db) : DecidablePred db.Deliverable :=
  fun row => inferInstanceAs (Decidable ((db.recipient row).isOk = true))

/-- Settling a delivery changes no webhook and no event. -/
theorem recipient_settle (db : Db) (options : WebhookDeliveryOptions) (now : Int)
    (delivery : Delivery) (outcome : Outcome) (row : Delivery) :
    (db.settle options now delivery outcome).recipient row = db.recipient row := by
  rcases settle_eq db options now delivery outcome with ⟨fields, heq, -⟩
  rw [heq, recipient_updateDelivery]

/-- What is POSTed is a stored event. -/
theorem event_mem_of_recipient {webhook : Webhook} {event : IndexedEventRow}
    (h : db.recipient row = .ok (webhook, event)) : event ∈ db.indexedEvents := by
  unfold Db.recipient at h
  cases hwebhook : db.getWebhook row.webhookId with
  | none =>
      rw [hwebhook] at h
      cases h
  | some found =>
      simp only [hwebhook] at h
      split at h
      case isFalse => cases h
      case isTrue =>
        cases hevent : db.getIndexedEvent row.eventId with
        | none =>
            rw [hevent] at h
            cases h
        | some found' =>
            simp only [hevent, Except.ok.injEq, Prod.mk.injEq] at h
            rw [← h.2]
            exact List.mem_of_find?_eq_some hevent

/-- The service has gone through some deliveries none of which can be POSTed. -/
structure Skipped (rt : Runtime) (start : State) (queue : List Delivery) (s : State)
    (rest : List Delivery) : Prop where
  split : ∃ skipped, queue = skipped ++ rest ∧ ∀ row ∈ skipped, ¬ start.db.Deliverable row
  recipients : ∀ row, s.db.recipient row = start.db.recipient row
  regular : Regular rt s.db
  posts : s.posts = start.posts

/-- The service is done with a queue that has nothing to POST, or waits for the first response. -/
def Waits (rt : Runtime) (now : Int) (start : State) (queue : List Delivery) (s : State) : Prop :=
  Skipped rt start queue s [] ∧ s.phase = .idle ∨
    ∃ row rest post before, Skipped rt start queue before (row :: rest) ∧
      s = { before with phase := .posting now row rest, posts := before.posts ++ [post] } ∧
      post.deliveryId = row.id

/-- A drain goes on to the next delivery that can be POSTed. -/
theorem resume_waits (h : Regular rt s.db) (now : Int) (queue : List Delivery) :
    Waits rt now s queue (resume rt now queue s) := by
  have hstart : Skipped rt s queue s queue :=
    ⟨⟨[], rfl, fun _ hrow => by cases hrow⟩, fun _ => rfl, h, rfl⟩
  refine resume_ensures (P := Skipped rt s queue) (Q := Waits rt now s queue) ?_ ?_ ?_ ?_ hstart
  · exact fun t h => .inl ⟨⟨h.split, h.recipients, h.regular, h.posts⟩, rfl⟩
  · intro t row rest message h hrecipient
    refine ⟨?_, fun row' => ?_, h.regular.updateDelivery _ _, h.posts⟩
    · rcases h.split with ⟨skipped, hqueue, hskipped⟩
      refine ⟨skipped ++ [row], by rw [hqueue, List.append_assoc]; rfl, fun row' hrow' => ?_⟩
      rcases List.mem_append.mp hrow' with hrow' | hrow'
      · exact hskipped row' hrow'
      · rw [List.mem_singleton.mp hrow', Db.Deliverable, ← h.recipients, hrecipient]
        exact Bool.false_ne_true
    · rw [recipient_cancel, h.recipients]
  · intro t row rest webhook event h hrecipient hparse
    have hreadable := h.regular.readable event (event_mem_of_recipient hrecipient)
    rw [hparse] at hreadable
    cases hreadable
  · intro t row rest webhook event data h hrecipient hparse
    exact .inr ⟨row, rest, _, t, h, rfl, rfl⟩

/-- A response: the service goes on with the deliveries that are left. -/
theorem Waits.report {start : State} (h : Waits rt now start queue s)
    (options : WebhookDeliveryOptions) (outcome : Outcome) :
    (∀ row ∈ queue, ¬ start.db.Deliverable row) ∧ s.phase = .idle ∧ s.posts = start.posts ∨
      ∃ skipped row rest next, queue = skipped ++ row :: rest ∧
        (∀ row ∈ skipped, ¬ start.db.Deliverable row) ∧ s.phase ≠ .idle ∧
        step rt options s (.report outcome) = resume rt now rest next ∧ Regular rt next.db ∧
        (∀ row, next.db.recipient row = start.db.recipient row) ∧
        (∀ id, s.postsTo id = start.postsTo id + if row.id = id then 1 else 0) ∧
        next.posts = s.posts := by
  rcases h with ⟨hskipped, hidle⟩ | ⟨row, rest, post, before, hskipped, rfl, hpost⟩
  · rcases hskipped.split with ⟨skipped, hqueue, hnone⟩
    rw [List.append_nil] at hqueue
    subst hqueue
    exact .inl ⟨hnone, hidle, hskipped.posts⟩
  · rcases hskipped.split with ⟨skipped, hqueue, hnone⟩
    refine .inr ⟨skipped, row, rest, _, hqueue, hnone, (fun h => by cases h), rfl, ?_, ?_, ?_, rfl⟩
    · exact hskipped.regular.settle options now row outcome
    · intro row'
      rw [withDb_db, recipient_settle, hskipped.recipients]
    · intro id
      rw [postsTo_append, hpost, State.postsTo, hskipped.posts]
      rfl

/-- What becomes of a queue when some responses have come. -/
structure Drained (queue : List Delivery) (responses : Nat) (start s : State) : Prop where
  posted : s.phase = .idle → ∀ row ∈ queue, start.db.Deliverable row →
    start.postsTo row.id < s.postsTo row.id
  others : ∀ id, id ∉ queue.map Delivery.id → s.postsTo id = start.postsTo id
  grows : ∀ id, start.postsTo id ≤ s.postsTo id
  ends : queue.length ≤ responses → s.phase = .idle

/-- Nothing is POSTed when nothing can be. -/
theorem drained_of_none {start : State} {responses : Nat}
    (hnone : ∀ row ∈ queue, ¬ start.db.Deliverable row) (hidle : s.phase = .idle)
    (hposts : s.posts = start.posts) : Drained queue responses start s := by
  have hsame : ∀ id, s.postsTo id = start.postsTo id := by
    intro id
    rw [State.postsTo, hposts]
    rfl
  exact ⟨fun _ row hrow hdeliverable => absurd hdeliverable (hnone row hrow), fun id _ => hsame id,
    fun id => (hsame id).ge, fun _ => hidle⟩

/-- A report that nobody waits for does nothing. -/
theorem final_reports_idle (rt : Runtime) (options : WebhookDeliveryOptions)
    (hidle : s.phase = .idle) (outcomes : List Outcome) :
    Run.final (step rt options) s (outcomes.map Input.report) = s := by
  induction outcomes with
  | nil => rfl
  | cons outcome outcomes ih =>
      have hstep : step rt options s (.report outcome) = s := by
        simp only [step, hidle]
      rw [List.map_cons, Run.final_cons, hstep, ih]

/-- A drain POSTs what it has selected and can be POSTed, nothing else, and ends. -/
theorem drain_posts (h : Regular rt s.db) (options : WebhookDeliveryOptions) (now : Int)
    (queue : List Delivery) (outcomes : List Outcome) :
    Drained queue outcomes.length s
      (Run.final (step rt options) (resume rt now queue s) (outcomes.map Input.report)) := by
  induction outcomes generalizing s queue with
  | nil =>
      rcases (resume_waits h now queue).report options (.exception "") with
        ⟨hnone, hidle, hposts⟩ | ⟨skipped, row, rest, next, rfl, hnone, hbusy, -, -, -, hcount, -⟩
      · exact drained_of_none hnone hidle hposts
      · refine ⟨fun hidle => absurd hidle hbusy, fun id hid => ?_, fun id => ?_, fun hlength => ?_⟩
        · have hne : row.id ≠ id := by
            rintro rfl
            exact hid (List.mem_map_of_mem (List.mem_append_right _ List.mem_cons_self))
          rw [List.map_nil, Run.final_nil, hcount, if_neg hne, Nat.add_zero]
        · rw [List.map_nil, Run.final_nil, hcount]
          exact Nat.le_add_right _ _
        · rw [List.length_append, List.length_cons, List.length_nil] at hlength
          omega
  | cons outcome outcomes ih =>
      rcases (resume_waits h now queue).report options outcome with
        ⟨hnone, hidle, hposts⟩ |
        ⟨skipped, row, rest, next, rfl, hnone, -, hstep, hregular, hrecipients, hcount, hposts⟩
      · rw [final_reports_idle rt options hidle]
        exact drained_of_none hnone hidle hposts
      · rw [List.map_cons, Run.final_cons, hstep]
        have hrest := ih hregular rest
        have hnext : ∀ id, next.postsTo id = s.postsTo id + if row.id = id then 1 else 0 := by
          intro id
          rw [State.postsTo, hposts]
          exact hcount id
        refine ⟨fun hidle row' hrow' hdeliverable => ?_, fun id hid => ?_, fun id => ?_,
          fun hlength => hrest.ends ?_⟩
        · have hgrows := hrest.grows row'.id
          rw [hnext] at hgrows
          rcases List.mem_append.mp hrow' with hrow' | hrow'
          · exact absurd hdeliverable (hnone row' hrow')
          · rcases List.mem_cons.mp hrow' with rfl | hrow'
            · rw [if_pos rfl] at hgrows
              exact hgrows
            · have hlater := hrest.posted hidle row' hrow' (by
                rw [Db.Deliverable, hrecipients]
                exact hdeliverable)
              rw [hnext] at hlater
              omega
        · rw [List.map_append, List.map_cons, List.mem_append, List.mem_cons, not_or, not_or] at hid
          rw [hrest.others id hid.2.2, hnext, if_neg (Ne.symm hid.2.1), Nat.add_zero]
        · exact (Nat.le_add_right _ _).trans ((hnext id).ge.trans (hrest.grows id))
        · rw [List.length_append, List.length_cons, List.length_cons] at hlength
          omega

/-! ## Live deliveries -/

/-- A pending delivery that is due, can be POSTed and has attempts left. -/
def Live (options : WebhookDeliveryOptions) (db : Db) (now : Int) (row : Delivery) : Prop :=
  row.status = .pending ∧ row.nextAttemptAt ≤ now ∧ row.attemptCount < options.maxAttempts ∧
    db.Deliverable row

instance (options : WebhookDeliveryOptions) (db : Db) (now : Int) :
    DecidablePred (Live options db now) :=
  fun row => inferInstanceAs (Decidable (row.status = _ ∧ _ ≤ now ∧ _ < _ ∧ db.Deliverable row))

/-- The deliveries that are due and not live, and not behind a delivery. -/
def deadBefore (options : WebhookDeliveryOptions) (db : Db) (now : Int) (row : Delivery) :
    List Delivery :=
  others (fun row => row.nextAttemptAt) (Live options db now) (db.deliveries.filter (Due now)) row

/-- No more deliveries are dead than there are. -/
theorem length_deadBefore_le (options : WebhookDeliveryOptions) (db : Db) (now : Int)
    (row : Delivery) : (deadBefore options db now row).length ≤ db.deliveries.length :=
  (List.length_filter_le _ _).trans (List.length_filter_le _ _)

/-- A delivery that is live is due. -/
theorem Live.due (h : Live options db now row) : Due now row :=
  ⟨.inl h.1, h.2.1⟩

/-- The query that prefers deliveries that are not live among those of the same time. -/
def DeliveryQuery.deadFirst (options : WebhookDeliveryOptions) (db : Db) (now : Int) :
    DeliveryQuery where
  getPendingDeliveries db' now' := selectLast (fun row => row.nextAttemptAt)
    (Live options db now) (db'.deliveries.filter (Due now')) 50
  selects _ _ := selectLast_selects _ _ _ _

/-- Every drain that begins some time later and is not disturbed POSTs a live delivery. -/
def DrainServes (rt : Runtime) (options : WebhookDeliveryOptions) (s : State) (elapsed : Nat) :
    Prop :=
  ∀ (query : DeliveryQuery) (outcomes : List Outcome),
    (Run.final (step rt options) s
      (.drain elapsed query :: outcomes.map Input.report)).phase = .idle →
    ∃ row ∈ s.db.deliveries, Live options s.db (s.clock + elapsed) row ∧
      s.postsTo row.id < (Run.final (step rt options) s
        (.drain elapsed query :: outcomes.map Input.report)).postsTo row.id

/-- A drain with its responses. -/
theorem drained (h : Regular rt s.db) (options : WebhookDeliveryOptions) (hidle : s.phase = .idle)
    (elapsed : Nat) (query : DeliveryQuery) (outcomes : List Outcome) :
    Drained (query.getPendingDeliveries s.db (s.clock + elapsed)) outcomes.length s
      (Run.final (step rt options) s (.drain elapsed query :: outcomes.map Input.report)) := by
  have hstart : Regular rt { s with clock := s.clock + elapsed }.db := h
  have hdrain := drain_posts hstart options (s.clock + elapsed)
    (query.getPendingDeliveries s.db (s.clock + elapsed)) outcomes
  have hstep : step rt options s (.drain elapsed query) = resume rt (s.clock + elapsed)
      (query.getPendingDeliveries s.db (s.clock + elapsed))
      { s with clock := s.clock + elapsed } := by
    simp only [step, hidle]
  rw [Run.final_cons, hstep]
  exact ⟨hdrain.posted, hdrain.others, hdrain.grows, hdrain.ends⟩

/-- If few deliveries are in front of a live one, every drain POSTs a live one. -/
theorem drainServes (h : Regular rt s.db) (hidle : s.phase = .idle) {elapsed : Nat}
    (hrow : row ∈ s.db.deliveries) (hlive : Live options s.db (s.clock + elapsed) row)
    (hfew : (deadBefore options s.db (s.clock + elapsed) row).length < 50) :
    DrainServes rt options s elapsed := by
  intro query outcomes hended
  have hselects := query.selects s.db (s.clock + elapsed)
  have hdue : row ∈ s.db.deliveries.filter (Due (s.clock + elapsed)) :=
    List.mem_filter.mpr ⟨hrow, decide_eq_true hlive.due⟩
  rcases hselects.exists_of_lt hdue hlive hfew with ⟨served, hserved, hlive'⟩
  exact ⟨served, (List.mem_filter.mp (hselects.mem hserved)).1, hlive',
    (drained h options hidle elapsed query outcomes).posted hended served hserved hlive'.2.2.2⟩

/-- If every drain POSTs a live delivery, few others are in front of one. -/
theorem DrainServes.exists_few {elapsed : Nat} (hserves : DrainServes rt options s elapsed)
    (h : Regular rt s.db) (hidle : s.phase = .idle) :
    ∃ row ∈ s.db.deliveries, Live options s.db (s.clock + elapsed) row ∧
      (deadBefore options s.db (s.clock + elapsed) row).length < 50 := by
  let query := DeliveryQuery.deadFirst options s.db (s.clock + elapsed)
  have hdrained := drained h options hidle elapsed query (List.replicate 50 (.exception ""))
  have hselects := query.selects s.db (s.clock + elapsed)
  have hended := hdrained.ends (by
    rw [List.length_replicate, hselects.length]
    exact min_le_left _ _)
  rcases hserves query _ hended with ⟨row, hrow, hlive, hposted⟩
  -- the delivery that is POSTed was selected
  have hmem : row ∈ query.getPendingDeliveries s.db (s.clock + elapsed) := by
    by_contra hout
    refine hposted.ne (hdrained.others row.id fun hid => hout ?_).symm
    rcases List.mem_map.mp hid with ⟨row', hrow', hid⟩
    rw [← h.numbered.eq (List.mem_filter.mp (hselects.mem hrow')).1 hrow hid]
    exact hrow'
  rcases exists_selectLast_iff.mp ⟨row, hmem, hlive⟩ with ⟨first, hfirst, hlive', hfew⟩
  exact ⟨first, (List.mem_filter.mp hfirst).1, hlive', hfew⟩

/-- If there is a live delivery, a drain POSTs one, whichever the database answers with first: this
is so if and only if fewer than fifty other deliveries are in front of a live one. -/
theorem drain_serves_iff (rt : Runtime) (options : WebhookDeliveryOptions) (s : State)
    (hreachable : Run.Reachable (step rt options) State.initial s) (hidle : s.phase = .idle)
    (elapsed : Nat) :
    ((∃ row ∈ s.db.deliveries, Live options s.db (s.clock + elapsed) row) →
        DrainServes rt options s elapsed) ↔
      ((∃ row ∈ s.db.deliveries, Live options s.db (s.clock + elapsed) row) →
        ∃ row ∈ s.db.deliveries, Live options s.db (s.clock + elapsed) row ∧
          (deadBefore options s.db (s.clock + elapsed) row).length < 50) := by
  have hregular := regular_of_reachable hreachable
  constructor
  · exact fun hserves hlive => (hserves hlive).exists_few hregular hidle
  · intro hfew hlive
    rcases hfew hlive with ⟨row, hrow, hlive', hlt⟩
    exact drainServes hregular hidle hrow hlive' hlt

/-- One delivery is served. -/
theorem sale_served :
    DrainServes plainRuntime {} (Run.final (step plainRuntime {}) State.initial saleDelivery)
      0 := by
  have hlive : ∃ row ∈ (Run.final (step plainRuntime {}) State.initial saleDelivery).db.deliveries,
      Live {} (Run.final (step plainRuntime {}) State.initial saleDelivery).db
        ((Run.final (step plainRuntime {}) State.initial saleDelivery).clock + (0 : Nat)) row := by
    decide
  refine (drain_serves_iff plainRuntime {} _ ⟨saleDelivery, rfl⟩ rfl 0).mpr (fun h => ?_) hlive
  rcases h with ⟨row, hrow, hlive⟩
  exact ⟨row, hrow, hlive, (length_deadBefore_le _ _ _ row).trans_lt (by decide)⟩

/-! ## A webhook that is switched off -/

/-- A webhook that will be switched off. -/
def closedWebhook : Webhook := ⟨⟨"closed", "sale", true⟩, "https://closed", "secret"⟩

/-- A sale in a transaction of its own. -/
def saleOf (n : Nat) : RpcEvent :=
  (sale (String.ofList (List.replicate n 'a'))).event 1

/-- The delivery of a sale to a webhook, which is due at once. -/
def crowdRow (n : Nat) : Delivery :=
  ⟨newDelivery (n + 1) 0 closedWebhook.toWebhookRegistrationRow, n + 1⟩

/-- The delivery of a sale to another webhook, which is due later. -/
def lateRow (n : Nat) : Delivery :=
  ⟨newDelivery (n + 1) 1 saleHook, n + 1⟩

/-- Two webhooks, and deliveries of some sales to the first of them. -/
def crowd : Nat → List Input
  | 0 => [.insertWebhook closedWebhook, .insertWebhook saleWebhook]
  | n + 1 => crowd n ++ [.insertIndexedEventIfAbsent (saleOf n) 0,
      .insertWebhookDelivery closedWebhook.toWebhookRegistrationRow (n + 1) 0]

/-- The first webhook is switched off, and there is a sale for the other one. -/
def crowdedRun (n : Nat) : List Input :=
  crowd n ++ [.updateWebhook "closed" none none (some false),
    .insertIndexedEventIfAbsent (saleOf n) 0, .insertWebhookDelivery saleHook (n + 1) 1]

/-- The events of some sales. -/
def saleRows (rt : Runtime) (n : Nat) : List IndexedEventRow :=
  (List.range n).map fun k => (saleOf k).row rt.toRuntime (k + 1) 0

/-- The sales are different. -/
theorem saleOf_key_inj {n m : Nat} (h : (saleOf n).key = (saleOf m).key) : n = m := by
  have htext : String.ofList (List.replicate n 'a') = String.ofList (List.replicate m 'a') :=
    congrArg (fun key => key.2.2) h
  have hlist := String.ofList_injective htext
  simpa using congrArg List.length hlist

/-- The next sale is not a duplicate. -/
theorem insert_saleOf (rt : Runtime) (webhooks : List Webhook) (deliveries : List Delivery)
    (n : Nat) :
    Db.insertIndexedEventIfAbsent ⟨webhooks, saleRows rt n, deliveries, n⟩ rt.toRuntime
      (saleOf n) 0 = ⟨webhooks, saleRows rt (n + 1), deliveries, n + 1⟩ := by
  have hfresh : (saleRows rt n).any (fun row => row.key = (saleOf n).key) = false := by
    refine List.any_eq_false.mpr fun row hrow hkey => ?_
    rcases List.mem_map.mp hrow with ⟨k, hk, rfl⟩
    have hsame := saleOf_key_inj (of_decide_eq_true hkey)
    rw [List.mem_range] at hk
    omega
  have hnext : saleRows rt (n + 1) = saleRows rt n ++ [(saleOf n).row rt.toRuntime (n + 1) 0] := by
    rw [saleRows, List.range_succ, List.map_append]
    rfl
  simp [Db.insertIndexedEventIfAbsent, hfresh, hnext]

/-- What the crowd leaves. -/
theorem final_crowd (rt : Runtime) (options : WebhookDeliveryOptions) (n : Nat) :
    Run.final (step rt options) State.initial (crowd n) =
      ⟨⟨[closedWebhook, saleWebhook], saleRows rt n, (List.range n).map crowdRow, n⟩, 0, .idle,
        []⟩ := by
  induction n with
  | zero => rfl
  | succ n ih =>
      rw [crowd, Run.final_append, ih]
      simp only [Run.final_cons, Run.final_nil, step, State.withDb, insert_saleOf,
        Db.insertWebhookDelivery, List.length_map, List.length_range, List.range_succ,
        List.map_append, List.map_cons, List.map_nil]
      rfl

/-- The state with the crowd in front of the delivery of the last sale. -/
def crowdedState (rt : Runtime) (n : Nat) : State :=
  ⟨⟨[⟨⟨"closed", "sale", false⟩, "https://closed", "secret"⟩, saleWebhook], saleRows rt (n + 1),
    (List.range n).map crowdRow ++ [lateRow n], n + 1⟩, 0, .idle, []⟩

/-- What that run leaves. -/
theorem final_crowdedRun (rt : Runtime) (options : WebhookDeliveryOptions) (n : Nat) :
    Run.final (step rt options) State.initial (crowdedRun n) = crowdedState rt n := by
  have hupdate : Db.updateWebhook ⟨[closedWebhook, saleWebhook], saleRows rt n,
      (List.range n).map crowdRow, n⟩ "closed" none none (some false) =
      ⟨[⟨⟨"closed", "sale", false⟩, "https://closed", "secret"⟩, saleWebhook], saleRows rt n,
        (List.range n).map crowdRow, n⟩ := rfl
  rw [crowdedRun, Run.final_append, final_crowd]
  simp only [Run.final_cons, Run.final_nil, step, State.withDb, hupdate, insert_saleOf,
    Db.insertWebhookDelivery, List.length_map, List.length_range]
  rfl

/-- Deliveries to the webhook that is switched off cannot be POSTed. -/
theorem not_deliverable_crowdRow (rt : Runtime) (n k : Nat) :
    ¬ (crowdedState rt n).db.Deliverable (crowdRow k) := by
  have hwebhook : (crowdedState rt n).db.getWebhook (crowdRow k).webhookId =
      some ⟨⟨"closed", "sale", false⟩, "https://closed", "secret"⟩ := rfl
  rw [Db.Deliverable, Db.recipient, hwebhook]
  exact Bool.false_ne_true

/-- The last delivery can be POSTed. -/
theorem deliverable_lateRow (rt : Runtime) (n : Nat) :
    (crowdedState rt n).db.Deliverable (lateRow n) := by
  have hwebhook : (crowdedState rt n).db.getWebhook (lateRow n).webhookId = some saleWebhook := rfl
  have hfound : ((crowdedState rt n).db.getIndexedEvent (lateRow n).eventId).isSome := by
    refine List.find?_isSome.mpr ⟨(saleOf n).row rt.toRuntime (n + 1) 0, ?_, decide_eq_true rfl⟩
    exact List.mem_map.mpr ⟨n, List.mem_range.mpr (Nat.lt_succ_self n), rfl⟩
  rcases Option.isSome_iff_exists.mp hfound with ⟨event, hevent⟩
  have hactive : saleWebhook.active = true := rfl
  rw [Db.Deliverable, Db.recipient, hwebhook]
  simp only [hactive, if_true, hevent]
  rfl

/-- The crowd is in front of the late delivery. -/
theorem length_deadBefore_lateRow (rt : Runtime) (options : WebhookDeliveryOptions) (n : Nat) :
    n ≤ (deadBefore options (crowdedState rt n).db 1 (lateRow n)).length := by
  have hdue : ((List.range n).map crowdRow).filter (Due 1) = (List.range n).map crowdRow := by
    refine List.filter_eq_self.mpr fun row hrow => ?_
    rcases List.mem_map.mp hrow with ⟨k, -, rfl⟩
    exact decide_eq_true ⟨.inl rfl, Int.zero_le_ofNat 1⟩
  have hdead : ((List.range n).map crowdRow).filter (fun row =>
      ¬ Live options (crowdedState rt n).db 1 row ∧
        row.nextAttemptAt ≤ (lateRow n).nextAttemptAt) = (List.range n).map crowdRow := by
    refine List.filter_eq_self.mpr fun row hrow => ?_
    rcases List.mem_map.mp hrow with ⟨k, -, rfl⟩
    exact decide_eq_true ⟨fun hlive => not_deliverable_crowdRow rt n k hlive.2.2.2,
      Int.zero_le_ofNat 1⟩
  have hdeliveries : (crowdedState rt n).db.deliveries =
      (List.range n).map crowdRow ++ [lateRow n] := rfl
  rw [deadBefore, others, hdeliveries, List.filter_append, hdue, List.filter_append, hdead,
    List.length_append, List.length_map, List.length_range]
  exact Nat.le_add_right _ _

/-- A drain that POSTs no live delivery, although there is one. -/
theorem starved (rt : Runtime) (options : WebhookDeliveryOptions) (hmax : 0 < options.maxAttempts)
    {n : Nat} (hn : 50 ≤ n) :
    (∃ row ∈ (crowdedState rt n).db.deliveries, Live options (crowdedState rt n).db 1 row) ∧
      ¬ DrainServes rt options (crowdedState rt n) 1 := by
  constructor
  · exact ⟨lateRow n, List.mem_append_right _ List.mem_cons_self, rfl, le_rfl, hmax,
      deliverable_lateRow rt n⟩
  · intro hserves
    have hregular : Regular rt (crowdedState rt n).db :=
      regular_of_reachable ⟨crowdedRun n, (final_crowdedRun rt options n).symm⟩
    rcases hserves.exists_few hregular rfl with ⟨row, hrow, hlive, hfew⟩
    -- the live delivery is the late one, behind the whole crowd
    have hlate : row = lateRow n := by
      rcases List.mem_append.mp hrow with hcrowd | hlate
      · rcases List.mem_map.mp hcrowd with ⟨k, -, rfl⟩
        exact absurd hlive.2.2.2 (not_deliverable_crowdRow rt n k)
      · exact List.mem_singleton.mp hlate
    subst hlate
    exact absurd hfew (not_lt.mpr (hn.trans (length_deadBefore_lateRow rt options n)))

/-- Fifty deliveries to a webhook that is switched off keep a drain from the one delivery that it
could POST. -/
theorem crowded_out :
    ¬ ((∃ row ∈ (Run.final (step plainRuntime {}) State.initial (crowdedRun 50)).db.deliveries,
        Live {} (Run.final (step plainRuntime {}) State.initial (crowdedRun 50)).db
          ((Run.final (step plainRuntime {}) State.initial (crowdedRun 50)).clock + (1 : Nat))
          row) →
      DrainServes plainRuntime {} (Run.final (step plainRuntime {}) State.initial (crowdedRun 50))
        1) := by
  rw [final_crowdedRun]
  intro h
  have hstarved := starved plainRuntime {} (Nat.succ_pos 4) (le_refl 50)
  exact hstarved.2 (h hstarved.1)

end WebhookDelivery
end Kraal
