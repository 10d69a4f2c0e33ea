import Kraal.Foundation.Register
import Kraal.WebhookDelivery.Attempts
import Kraal.WebhookDelivery.Routes

/-!
# What the service sends, and to whom

The receiver of a webhook checks the signature of a POST with the secret that it was told.  Every
POST is signed with the secret that the API told last for its webhook, goes to the URL that was set
last, and is sent only while the webhook is active.  Its event was stored earlier in the run, and
its delivery enqueued.

Main results:

- Definition {lit}`columnRegister`: a column of a registration as a register of the run.
- Theorem {lit}`step_posts`: the POST of a step, from the tables before it.
- Theorem {lit}`traced_after`: where the rows of the tables come from.
- Theorem {lit}`posts_authentic`: what stands behind every POST of a run.
-/

namespace Kraal
namespace WebhookDelivery

open Foundation
open Backend (Json)
open EventIndexer (RpcEvent IndexedEventRow WebhookRegistrationRow WebhookDeliveryRow newDelivery)

/-! ## The columns along a run -/

section

variable (validUrl : String → Bool) (rt : Runtime) (options : WebhookDeliveryOptions)

/-- The statement that the API issues in a step. -/
def statementOf (e : World × Action) : Option Statement :=
  match e.2 with
  | .request request => (respond validUrl e.1.rows e.1.service.clock request).2
  | .background _ => none

/-- The secret that the API tells in a step under an id. -/
def tells (id : String) (e : World × Action) : Option String :=
  match e.2 with
  | .request request => (respond validUrl e.1.rows e.1.service.clock request).1.secretFor id
  | .background _ => none

/-- What a step writes to a column of the registration under an id. -/
def writes {β : Type} (c : Column β) (id : String) (e : World × Action) : Option β :=
  c.written id (statementOf validUrl e)

/-- A step tells the secret that it writes. -/
theorem tells_eq_writes (id : String) (e : World × Action) :
    tells validUrl id e = writes validUrl secretColumn id e := by
  rcases e with ⟨w, a⟩
  cases a with
  | request request => exact secretFor_respond validUrl _ _ request id
  | background b => rfl

/-- The value of a column after a step. -/
theorem valueAt_advance {β : Type} (c : Column β) (id : String) (w : World) (a : Action) :
    c.valueAt id (advance validUrl rt options w a).rows =
      (writes validUrl c id (w, a)).or (c.valueAt id w.rows) := by
  cases a with
  | request request => exact c.valueAt_applyAny respond_fits id
  | background b => rfl

/-- A column of the registration under an id, which the statements of the API write. -/
def columnRegister {β : Type} (c : Column β) (id : String) :
    Register (advance validUrl rt options) β where
  read w := c.valueAt id w.rows
  written e := writes validUrl c id e
  read_step w a := valueAt_advance validUrl rt options c id w a

/-- The steps of a run, each with the tables before it. -/
def history (run : List Action) : List (World × Action) :=
  Run.trace (advance validUrl rt options) World.initial run

/-- The tables after a run. -/
def after (run : List Action) : World :=
  Run.final (advance validUrl rt options) World.initial run

/-- A value was written to a column, and no other after it. -/
def LastWritten {β : Type} (c : Column β) (id : String) (b : β) (past : List (World × Action)) :
    Prop :=
  Run.Since (fun e => writes validUrl c id e = some b)
    (fun e => (writes validUrl c id e).isSome = true) past

/-- A secret was told, and no other after it. -/
def LastTold (id secret : String) (past : List (World × Action)) : Prop :=
  Run.Since (fun e => tells validUrl id e = some secret)
    (fun e => (tells validUrl id e).isSome = true) past

variable {validUrl rt options}

/-- The value of a column is the last one that was written. -/
theorem lastWritten_of_valueAt {β : Type} {c : Column β} {id : String} {b : β}
    {run : List Action} (h : c.valueAt id (after validUrl rt options run).rows = some b) :
    LastWritten validUrl c id b (history validUrl rt options run) :=
  (columnRegister validUrl rt options c id).since_of_read rfl h

/-- The secret that is stored is the last one that was told. -/
theorem lastTold_of_valueAt {id secret : String} {run : List Action}
    (h : secretColumn.valueAt id (after validUrl rt options run).rows = some secret) :
    LastTold validUrl id secret (history validUrl rt options run) := by
  have hwritten := lastWritten_of_valueAt h
  unfold LastTold
  simp only [tells_eq_writes]
  exact hwritten

end

/-! ## The POST of a step -/

section

variable {rt : Runtime} {options : WebhookDeliveryOptions} {s : State}

/-- A POST for a delivery, to the webhook and with the event that the tables have for it. -/
def Sends (rt : Runtime) (db : Db) (delivery : Delivery) (post : Post) : Prop :=
  ∃ webhook event data, db.getWebhook delivery.webhookId = some webhook ∧
    webhook.active = true ∧ db.getIndexedEvent delivery.eventId = some event ∧
    rt.parse event.payload = some data ∧ post = .make rt webhook event data delivery.id

/-- A delivery is POSTed for its event to its webhook, if that is active. -/
theorem recipient_eq_ok {db : Db} {row : Delivery} {webhook : Webhook} {event : IndexedEventRow}
    (h : db.recipient row = .ok (webhook, event)) :
    db.getWebhook row.webhookId = some webhook ∧ webhook.active = true ∧
      db.getIndexedEvent row.eventId = some event := by
  unfold Db.recipient at h
  split at h
  · cases h
  · rename_i found hfound
    split at h
    · rename_i hactive
      split at h
      · cases h
      · rename_i found' hfound'
        cases h
        exact ⟨hfound, hactive, hfound'⟩
    · cases h

/-- A drain that goes on sends nothing, or a POST for one of its deliveries. -/
theorem resume_posts (rt : Runtime) (now : Int) (queue : List Delivery) (s : State) :
    (resume rt now queue s).posts = s.posts ∨ ∃ row ∈ queue, ∃ post, Sends rt s.db row post ∧
      (resume rt now queue s).posts = s.posts ++ [post] := by
  apply resume_ensures
    (P := fun t rest => t.posts = s.posts ∧ t.db.webhooks = s.db.webhooks ∧
      t.db.indexedEvents = s.db.indexedEvents ∧ ∀ row ∈ rest, row ∈ queue)
    (Q := fun t => t.posts = s.posts ∨ ∃ row ∈ queue, ∃ post, Sends rt s.db row post ∧
      t.posts = s.posts ++ [post])
  · intro t h
    exact .inl h.1
  · intro t row rest message h _
    exact ⟨h.1, h.2.1, h.2.2.1, fun row' hrow' => h.2.2.2 row' (List.mem_cons_of_mem _ hrow')⟩
  · intro t row rest webhook event h _ _
    exact .inl h.1
  · intro t row rest webhook event data h hrecipient hdata
    rcases h with ⟨hposts, hwebhooks, hevents, hrest⟩
    rw [recipient_congr hwebhooks hevents] at hrecipient
    rcases recipient_eq_ok hrecipient with ⟨hwebhook, hactive, hevent⟩
    refine .inr ⟨row, hrest row List.mem_cons_self, _, ⟨webhook, event, data, hwebhook, hactive,
      hevent, hdata, rfl⟩, ?_⟩
    rw [hposts]
  · exact ⟨rfl, rfl, rfl, fun row hrow => hrow⟩

/-- Settling a delivery leaves the events alone. -/
theorem settle_indexedEvents (db : Db) (options : WebhookDeliveryOptions) (now : Int)
    (delivery : Delivery) (outcome : Outcome) :
    (db.settle options now delivery outcome).indexedEvents = db.indexedEvents := by
  cases outcome with
  | response status ok =>
      cases ok with
      | true => rfl
      | false => rfl
  | exception message => rfl

/-- What is sent depends on the webhooks and events only. -/
theorem Sends.congr {db db' : Db} {row : Delivery} {post : Post} (h : Sends rt db row post)
    (hwebhooks : db.webhooks = db'.webhooks) (hevents : db.indexedEvents = db'.indexedEvents) :
    Sends rt db' row post := by
  unfold Sends Db.getWebhook Db.getIndexedEvent at h ⊢
  rw [← hwebhooks, ← hevents]
  exact h

/-- A step sends nothing, or a POST for a delivery that is stored or in the queue. -/
theorem step_posts (rt : Runtime) (options : WebhookDeliveryOptions) (s : State) (b : Background) :
    (step rt options s b.input).posts = s.posts ∨
      ∃ row post, (row ∈ s.db.deliveries ∨ row ∈ s.queue) ∧ Sends rt s.db row post ∧
        (step rt options s b.input).posts = s.posts ++ [post] := by
  cases b with
  | drain elapsed query =>
      rw [Background.input, step]
      split
      · rcases resume_posts rt (s.clock + elapsed)
          (query.getPendingDeliveries s.db (s.clock + elapsed))
          { s with clock := s.clock + elapsed } with hsame | ⟨row, hrow, post, hsends, hposts⟩
        · exact .inl hsame
        · have hdue := (query.selects s.db (s.clock + elapsed)).mem hrow
          exact .inr ⟨row, post, .inl (List.mem_filter.mp hdue).1, hsends, hposts⟩
      · exact .inl rfl
  | report outcome =>
      rw [Background.input, step]
      split
      · exact .inl rfl
      · rename_i now delivery queue hphase
        rcases resume_posts rt now queue (s.withDb (s.db.settle options now delivery outcome)) with
          hsame | ⟨row, hrow, post, hsends, hposts⟩
        · exact .inl hsame
        · refine .inr ⟨row, post, .inr ?_, hsends.congr (settle_webhooks _ _ _ _ _)
            (settle_indexedEvents _ _ _ _ _), hposts⟩
          rw [State.queue, hphase]
          exact List.mem_cons_of_mem _ hrow
  | restart => exact .inl rfl
  | insertIndexedEventIfAbsent ev indexedAt => exact .inl rfl
  | insertWebhookDelivery webhook eventId indexedAt => exact .inl rfl

end

/-! ## Where the rows come from -/

/-- An event was stored. -/
def Indexed (rt : Runtime) (past : List (World × Action)) (event : IndexedEventRow) : Prop :=
  ∃ e ∈ past, ∃ ev indexedAt, e.2 = .background (.insertIndexedEventIfAbsent ev indexedAt) ∧
    event = ev.row rt.toRuntime event.id indexedAt

/-- A delivery of an event to a webhook was enqueued. -/
def Enqueued (past : List (World × Action)) (webhookId : String) (eventId : Nat) : Prop :=
  ∃ e ∈ past, ∃ webhook indexedAt,
    e.2 = .background (.insertWebhookDelivery webhook eventId indexedAt) ∧ webhook.id = webhookId

/-- The row of a delivery is in the table, whatever has been written to it. -/
def Listed (db : Db) (row : Delivery) : Prop :=
  ∃ row' ∈ db.deliveries, row'.id = row.id ∧ row'.webhookId = row.webhookId ∧
    row'.eventId = row.eventId

/-- The events and deliveries of the tables were inserted in the past, and the queue is of them. -/
structure Traced (rt : Runtime) (past : List (World × Action)) (s : State) : Prop where
  events : ∀ event ∈ s.db.indexedEvents, Indexed rt past event
  deliveries : ∀ row ∈ s.db.deliveries, Enqueued past row.webhookId row.eventId
  queue : ∀ row ∈ s.queue, Listed s.db row

section

variable {rt : Runtime} {options : WebhookDeliveryOptions} {s : State} {db : Db}
  {past : List (World × Action)} {row : Delivery}

/-- What was indexed was indexed before. -/
theorem Indexed.later {event : IndexedEventRow} (h : Indexed rt past event)
    (rest : List (World × Action)) : Indexed rt (past ++ rest) event := by
  rcases h with ⟨e, he, hevent⟩
  exact ⟨e, List.mem_append_left _ he, hevent⟩

/-- What was enqueued was enqueued before. -/
theorem Enqueued.later {webhookId : String} {eventId : Nat} (h : Enqueued past webhookId eventId)
    (rest : List (World × Action)) : Enqueued (past ++ rest) webhookId eventId := by
  rcases h with ⟨e, he, hdelivery⟩
  exact ⟨e, List.mem_append_left _ he, hdelivery⟩

/-- A delivery is still listed after an update. -/
theorem Listed.updateDelivery (h : Listed db row) (id : Nat) (fields : DeliveryUpdate) :
    Listed (db.updateDelivery id fields) row := by
  rcases h with ⟨row', hrow', hsame⟩
  refine ⟨_, mem_updateDelivery.mpr ⟨row', hrow', rfl⟩, ?_⟩
  split
  · exact hsame
  · exact hsame

/-- A delivery that is stored is listed. -/
theorem listed_of_mem (h : row ∈ db.deliveries) : Listed db row :=
  ⟨row, h, rfl, rfl, rfl⟩

/-- What is written to the deliveries leaves their events and webhooks alone. -/
theorem enqueued_updateDelivery
    (h : ∀ row ∈ db.deliveries, Enqueued past row.webhookId row.eventId) (id : Nat)
    (fields : DeliveryUpdate) :
    ∀ row ∈ (db.updateDelivery id fields).deliveries, Enqueued past row.webhookId row.eventId := by
  intro row hrow
  rcases mem_updateDelivery.mp hrow with ⟨row', hrow', rfl⟩
  split
  · exact h row' hrow'
  · exact h row' hrow'

/-- Settling a delivery adds nothing that was not traced. -/
theorem Traced.settle (h : Traced rt past s) (options : WebhookDeliveryOptions) (now : Int)
    (delivery : Delivery) (outcome : Outcome) {queue : List Delivery}
    (hqueue : ∀ row ∈ queue, row ∈ s.queue) :
    (∀ event ∈ (s.db.settle options now delivery outcome).indexedEvents, Indexed rt past event) ∧
      (∀ row ∈ (s.db.settle options now delivery outcome).deliveries,
        Enqueued past row.webhookId row.eventId) ∧
      ∀ row ∈ queue, Listed (s.db.settle options now delivery outcome) row := by
  have hwritten : ∃ fields, s.db.settle options now delivery outcome =
      s.db.updateDelivery delivery.id fields := by
    cases outcome with
    | response status ok =>
        cases ok with
        | true => exact ⟨_, rfl⟩
        | false => exact ⟨_, rfl⟩
    | exception message => exact ⟨_, rfl⟩
  rcases hwritten with ⟨fields, hfields⟩
  rw [hfields]
  exact ⟨h.events, enqueued_updateDelivery h.deliveries _ _,
    fun row hrow => (h.queue row (hqueue row hrow)).updateDelivery _ _⟩

/-- A drain that goes on keeps the rows traced. -/
theorem Traced.resume {now : Int} {queue : List Delivery}
    (hevents : ∀ event ∈ s.db.indexedEvents, Indexed rt past event)
    (hdeliveries : ∀ row ∈ s.db.deliveries, Enqueued past row.webhookId row.eventId)
    (hqueue : ∀ row ∈ queue, Listed s.db row) :
    Traced rt past (resume rt now queue s) := by
  apply resume_ensures
    (P := fun t rest => (∀ event ∈ t.db.indexedEvents, Indexed rt past event) ∧
      (∀ row ∈ t.db.deliveries, Enqueued past row.webhookId row.eventId) ∧
      ∀ row ∈ rest, Listed t.db row)
    (Q := fun t => Traced rt past t)
  · intro t h
    exact ⟨h.1, h.2.1, fun row hrow => absurd hrow List.not_mem_nil⟩
  · intro t row rest message h _
    exact ⟨h.1, enqueued_updateDelivery h.2.1 _ _,
      fun row' hrow' => (h.2.2 row' (List.mem_cons_of_mem _ hrow')).updateDelivery _ _⟩
  · intro t row rest webhook event h _ _
    exact ⟨h.1, h.2.1, fun row hrow => absurd hrow List.not_mem_nil⟩
  · intro t row rest webhook event data h _ _
    exact ⟨h.1, h.2.1, h.2.2⟩
  · exact ⟨hevents, hdeliveries, hqueue⟩

/-- Storing an event leaves the deliveries alone. -/
theorem deliveries_insertIndexedEvent (db : Db) (rt : EventIndexer.Runtime) (ev : RpcEvent)
    (indexedAt : Int) :
    (db.insertIndexedEventIfAbsent rt ev indexedAt).deliveries = db.deliveries := by
  unfold Db.insertIndexedEventIfAbsent
  split
  · rfl
  · rfl

/-- A step adds to the past what it inserts. -/
theorem Traced.step (h : Traced rt past s) (w : World) (options : WebhookDeliveryOptions)
    (b : Background) :
    Traced rt (past ++ [(w, .background b)]) (Kraal.WebhookDelivery.step rt options s b.input) := by
  have hlater : Traced rt (past ++ [(w, .background b)]) s :=
    ⟨fun event hevent => (h.events event hevent).later _,
      fun row hrow => (h.deliveries row hrow).later _, h.queue⟩
  have hnow : (w, .background b) ∈ past ++ [(w, Action.background b)] :=
    List.mem_append_right _ (List.mem_singleton.mpr rfl)
  cases b with
  | drain elapsed query =>
      rw [Background.input, WebhookDelivery.step]
      split
      · refine Traced.resume hlater.events hlater.deliveries fun row hrow => ?_
        have hdue := (query.selects s.db (s.clock + elapsed)).mem hrow
        exact listed_of_mem (List.mem_filter.mp hdue).1
      · exact ⟨hlater.events, hlater.deliveries, hlater.queue⟩
  | report outcome =>
      rw [Background.input, WebhookDelivery.step]
      split
      · exact hlater
      · rename_i now delivery queue hphase
        have hrest : ∀ row ∈ queue, row ∈ s.queue := by
          intro row hrow
          rw [State.queue, hphase]
          exact List.mem_cons_of_mem _ hrow
        rcases hlater.settle options now delivery outcome hrest with
          ⟨hevents, hdeliveries, hqueue⟩
        exact Traced.resume hevents hdeliveries hqueue
  | restart =>
      exact ⟨hlater.events, hlater.deliveries, fun row hrow => absurd hrow List.not_mem_nil⟩
  | insertIndexedEventIfAbsent ev indexedAt =>
      refine ⟨?_, ?_, ?_⟩
      · intro event hevent
        change event ∈ (s.db.insertIndexedEventIfAbsent rt.toRuntime ev indexedAt).indexedEvents
          at hevent
        unfold Db.insertIndexedEventIfAbsent at hevent
        split at hevent
        · exact hlater.events event hevent
        · rcases List.mem_append.mp hevent with hold | hnew
          · exact hlater.events event hold
          · rw [List.mem_singleton.mp hnew]
            exact ⟨_, hnow, ev, indexedAt, rfl, rfl⟩
      · intro row hrow
        apply hlater.deliveries row
        rw [← deliveries_insertIndexedEvent s.db rt.toRuntime ev indexedAt]
        exact hrow
      · intro row hrow
        rcases hlater.queue row hrow with ⟨row', hrow', hsame⟩
        refine ⟨row', ?_, hsame⟩
        rw [← deliveries_insertIndexedEvent s.db rt.toRuntime ev indexedAt] at hrow'
        exact hrow'
  | insertWebhookDelivery webhook eventId indexedAt =>
      refine ⟨hlater.events, ?_, ?_⟩
      · intro row hrow
        rcases List.mem_append.mp hrow with hold | hnew
        · exact hlater.deliveries row hold
        · rw [List.mem_singleton.mp hnew]
          exact ⟨_, hnow, webhook, indexedAt, rfl, rfl⟩
      · intro row hrow
        rcases hlater.queue row hrow with ⟨row', hrow', hsame⟩
        exact ⟨row', List.mem_append_left _ hrow', hsame⟩

end

section

variable {validUrl : String → Bool} {rt : Runtime} {options : WebhookDeliveryOptions}

/-- Nothing is to be traced at first. -/
theorem traced_initial (rt : Runtime) : Traced rt [] State.initial where
  events _ h := absurd h List.not_mem_nil
  deliveries _ h := absurd h List.not_mem_nil
  queue _ h := absurd h List.not_mem_nil

/-- Every row of the tables comes from a step of the run. -/
theorem traced_after (run : List Action) :
    Traced rt (history validUrl rt options run) (after validUrl rt options run).service := by
  apply Run.history_invariant (P := fun past (w : World) => Traced rt past w.service)
  · exact traced_initial rt
  · intro past w a h
    cases a with
    | background b => exact h.step w options b
    | request request =>
        exact ⟨fun event hevent => (h.events event hevent).later _,
          fun row hrow => (h.deliveries row hrow).later _, h.queue⟩

/-! ## Authentic POSTs -/

/-- The POSTs of a step. -/
def sentBy (validUrl : String → Bool) (rt : Runtime) (options : WebhookDeliveryOptions)
    (e : World × Action) : List Post :=
  (advance validUrl rt options e.1 e.2).service.posts.drop e.1.service.posts.length

/-- A step sends nothing, or a POST for a delivery that is stored or in the queue. -/
theorem sentBy_cases (w : World) (a : Action) :
    (advance validUrl rt options w a).service.posts =
        w.service.posts ++ sentBy validUrl rt options (w, a) ∧
      ∀ post ∈ sentBy validUrl rt options (w, a), ∃ row,
        (row ∈ w.service.db.deliveries ∨ row ∈ w.service.queue) ∧
          Sends rt w.service.db row post := by
  have hnothing : (advance validUrl rt options w a).service.posts = w.service.posts →
      sentBy validUrl rt options (w, a) = [] := by
    intro hsame
    rw [sentBy, hsame, List.drop_length]
  cases a with
  | request request =>
      rw [hnothing rfl]
      exact ⟨(List.append_nil _).symm, fun post h => absurd h List.not_mem_nil⟩
  | background b =>
      rcases step_posts rt options w.service b with hsame | ⟨row, post, hrow, hsends, hposts⟩
      · rw [hnothing hsame]
        exact ⟨hsame.trans (List.append_nil _).symm, fun post h => absurd h List.not_mem_nil⟩
      · have hsent : sentBy validUrl rt options (w, .background b) = [post] := by
          change (step rt options w.service b.input).posts.drop _ = _
          rw [hposts, List.drop_left]
        rw [hsent]
        refine ⟨hposts, fun post' h => ⟨row, hrow, ?_⟩⟩
        rw [List.mem_singleton.mp h]
        exact hsends

/-- What stands behind a POST: the settings of its webhook, as the API has told and set them last,
and the event and the delivery that were inserted before it. -/
structure Authentic (validUrl : String → Bool) (rt : Runtime) (past : List (World × Action))
    (w : World) (post : Post) (webhook : Webhook) (event : IndexedEventRow) (data : Json) :
    Prop where
  secret_told : LastTold validUrl webhook.id webhook.secret past
  url_set : LastWritten validUrl urlColumn webhook.id webhook.url past
  type_set : LastWritten validUrl eventTypeColumn webhook.id webhook.eventType past
  active_set : LastWritten validUrl activeColumn webhook.id true past
  event_indexed : event ∈ w.service.db.indexedEvents ∧ Indexed rt past event
  delivery_enqueued : Enqueued past webhook.id event.id
  delivery_listed : ∃ row ∈ w.service.db.deliveries, row.id = post.deliveryId ∧
    row.webhookId = webhook.id ∧ row.eventId = event.id
  data_read : rt.parse event.payload = some data
  post_made : post = .make rt webhook event data post.deliveryId

/-- The table of the service has the registrations of the API. -/
theorem World.getWebhook_eq (w : World) (id : String) :
    w.service.db.getWebhook id = (getWebhook w.rows id).map RegistrationRow.toWebhook := by
  rw [Db.getWebhook, w.shared, getWebhook, List.find?_map]
  rfl

/-- The column of a webhook that is found. -/
theorem valueAt_of_getWebhook {β : Type} (c : Column β) {w : World} {id : String}
    {webhook : Webhook} (h : w.service.db.getWebhook id = some webhook) :
    c.valueAt id w.rows = some (c.read webhook) := by
  rw [w.getWebhook_eq, Option.map_eq_some_iff] at h
  rcases h with ⟨row, hrow, rfl⟩
  rw [Column.valueAt, hrow]
  rfl

/-- Every POST that is sent after a run is authentic. -/
theorem authentic_after (run : List Action) (a : Action) {post : Post}
    (h : post ∈ sentBy validUrl rt options (after validUrl rt options run, a)) :
    ∃ webhook event data, Authentic validUrl rt (history validUrl rt options run)
      (after validUrl rt options run) post webhook event data := by
  rcases (sentBy_cases (after validUrl rt options run) a).2 post h with
    ⟨row, hrow, webhook, event, data, hwebhook, hactive, hevent, hdata, rfl⟩
  have htraced : Traced rt (history validUrl rt options run)
      (after validUrl rt options run).service := traced_after run
  have hlisted : Listed (after validUrl rt options run).service.db row := by
    rcases hrow with hrow | hrow
    · exact listed_of_mem hrow
    · exact htraced.queue row hrow
  rcases hlisted with ⟨row', hrow', hid, hwebhookId, heventId⟩
  have hwebhookRow : webhook.id = row.webhookId := by
    have hfound := List.find?_some hwebhook
    exact of_decide_eq_true hfound
  have heventRow : event.id = row.eventId := by
    have hfound := List.find?_some hevent
    exact of_decide_eq_true hfound
  have hmem : event ∈ (after validUrl rt options run).service.db.indexedEvents :=
    List.mem_of_find?_eq_some hevent
  rw [← hwebhookRow] at hwebhook
  refine ⟨webhook, event, data, ?_⟩
  exact
    { secret_told := lastTold_of_valueAt (valueAt_of_getWebhook secretColumn hwebhook)
      url_set := lastWritten_of_valueAt (valueAt_of_getWebhook urlColumn hwebhook)
      type_set := lastWritten_of_valueAt (valueAt_of_getWebhook eventTypeColumn hwebhook)
      active_set := by
        have hvalue := valueAt_of_getWebhook activeColumn hwebhook
        change _ = some webhook.active at hvalue
        rw [hactive] at hvalue
        exact lastWritten_of_valueAt hvalue
      event_indexed := ⟨hmem, htraced.events event hmem⟩
      delivery_enqueued := by
        have henqueued := htraced.deliveries row' hrow'
        rw [hwebhookId, heventId, ← hwebhookRow, ← heventRow] at henqueued
        exact henqueued
      delivery_listed := ⟨row', hrow', hid, hwebhookId.trans hwebhookRow.symm,
        heventId.trans heventRow.symm⟩
      data_read := hdata
      post_made := rfl }

/-- The POSTs of a run are those of its steps, and each of them is authentic where it is sent. -/
structure PostsAuthentic (validUrl : String → Bool) (rt : Runtime)
    (options : WebhookDeliveryOptions) (run : List Action) : Prop where
  all_sent : (after validUrl rt options run).service.posts =
    (history validUrl rt options run).flatMap (sentBy validUrl rt options)
  authentic : ∀ before e later, history validUrl rt options run = before ++ e :: later →
    ∀ post ∈ sentBy validUrl rt options e,
      ∃ webhook event data, Authentic validUrl rt before e.1 post webhook event data

/-- In every run of API requests, drains, restarts and statements of the indexer, every POST is
signed with the secret that the API told last for its webhook, and goes to the URL that was set
last, while the webhook is active. -/
theorem posts_authentic (validUrl : String → Bool) (rt : Runtime)
    (options : WebhookDeliveryOptions) (run : List Action) :
    PostsAuthentic validUrl rt options run where
  all_sent := by
    apply Run.history_invariant (P := fun past (w : World) =>
      w.service.posts = past.flatMap (sentBy validUrl rt options))
    · rfl
    · intro past w a h
      rw [List.flatMap_append, List.flatMap_singleton, ← h]
      exact (sentBy_cases w a).1
  authentic before e later hsplit post hpost := by
    rcases Run.trace_split hsplit with ⟨pre, rest, -, rfl, hstate⟩
    rcases e with ⟨w, a⟩
    change w = after validUrl rt options pre at hstate
    subst hstate
    exact authentic_after pre a hpost

end

/-! ## A rotated secret -/

/-- A webhook is registered, an event is stored for it, and its secret is rotated between two
drains. -/
def rotationRun : List Action :=
  [.request (.register (.obj [("url", .str "https://hook"), ("eventType", .str "sale")]) "hook"
      "old"),
    .background (.insertIndexedEventIfAbsent ((EventIndexer.sale "a").event 1) 0),
    .background (.insertWebhookDelivery EventIndexer.saleHook 1 0), .background (.drain 0 .byId),
    .background .restart, .request (.rotateSecret "hook" "new"), .background (.drain 0 .byId)]

example : (after (fun _ => true) plainRuntime {} rotationRun).service.posts.map
    (fun post => post.headers.lookup "X-StellarKraal-Signature") =
      [some "sha256=oldnull", some "sha256=newnull"] := by
  decide

end WebhookDelivery
end Kraal
