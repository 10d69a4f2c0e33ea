import Kraal.EventIndexer.FanOut
import Kraal.Foundation.Run
import Kraal.Foundation.Selection

/-!
# The webhook delivery service

A drain asks the database for the deliveries that are due and POSTs them one after the other.  What
comes back decides whether a delivery is done, waits for its next attempt, or has failed.  While the
service waits for a response other things happen: events are indexed, webhooks are changed, the
process may restart.

Main results:

- Definition {lit}`DeliveryQuery`: what the database may answer when it is asked for due deliveries.
- Definition {lit}`resume`: the service until it waits for the next response.
- Definition {lit}`step`: the service and what surrounds it.
- Theorem {lit}`resume_ensures`: what holds when the service waits for a response or is done.
-/

namespace Kraal
namespace WebhookDelivery

open Foundation
open Backend (Json)
open EventIndexer (RpcEvent IndexedEventRow WebhookRegistrationRow WebhookDeliveryRow
  DeliveryStatus newDelivery)

/-! ## The database -/

/-- A registration of a webhook. -/
structure Webhook extends WebhookRegistrationRow where
  url : String
  secret : String

/-- A delivery under its id. -/
structure Delivery extends WebhookDeliveryRow where
  id : Nat

/-- The tables that the service reads and writes, and the last id that was taken for an event. -/
structure Db where
  webhooks : List Webhook
  indexedEvents : List IndexedEventRow
  deliveries : List Delivery
  eventSequence : Nat

/-- The tables before the first webhook. -/
def Db.empty : Db := ⟨[], [], [], 0⟩

/-- Read a webhook. -/
def Db.getWebhook (db : Db) (id : String) : Option Webhook :=
  db.webhooks.find? fun row => row.id = id

/-- Read an event. -/
def Db.getIndexedEvent (db : Db) (id : Nat) : Option IndexedEventRow :=
  db.indexedEvents.find? fun row => row.id = id

/-- The fields of a delivery that are written, those that are given. -/
structure DeliveryUpdate where
  status : Option DeliveryStatus := none
  attemptCount : Option Nat := none
  lastAttemptAt : Option Int := none
  nextAttemptAt : Option Int := none
  responseStatus : Option Nat := none
  errorMessage : Option (Option String) := none

/-- Write the fields that are given. -/
def DeliveryUpdate.apply (fields : DeliveryUpdate) (row : Delivery) : Delivery :=
  { row with
    status := fields.status.getD row.status
    attemptCount := fields.attemptCount.getD row.attemptCount
    lastAttemptAt := fields.lastAttemptAt.or row.lastAttemptAt
    nextAttemptAt := fields.nextAttemptAt.getD row.nextAttemptAt
    responseStatus := fields.responseStatus.or row.responseStatus
    errorMessage := fields.errorMessage.getD row.errorMessage }

/-- Write the fields of a delivery that are given. -/
def Db.updateDelivery (db : Db) (id : Nat) (fields : DeliveryUpdate) : Db :=
  { db with deliveries := db.deliveries.map fun row =>
      if row.id = id then fields.apply row else row }

/-- The row of a delivery that is due: it is not delivered, and its time has come. -/
def Due (now : Int) (row : Delivery) : Prop :=
  (row.status = .pending ∨ row.status = .failed) ∧ row.nextAttemptAt ≤ now

instance (now : Int) : DecidablePred (Due now) :=
  fun row => inferInstanceAs (Decidable ((row.status = _ ∨ row.status = _) ∧ _))

/-- The database answers with the first fifty deliveries that are due, in the order of their times.
Those of the same time come in any order. -/
structure DeliveryQuery where
  getPendingDeliveries : Db → Int → List Delivery
  selects : ∀ db now, Selects (fun row : Delivery => row.nextAttemptAt)
    (db.deliveries.filter (Due now)) 50 (getPendingDeliveries db now)

/-- The query that takes deliveries of the same time in the order of their ids. -/
def DeliveryQuery.byId : DeliveryQuery where
  getPendingDeliveries db now := select (fun row => row.nextAttemptAt)
    (db.deliveries.filter (Due now)) 50
  selects _ _ := select_selects _ _ _

/-! ## Statements of the indexer and of the API -/

/-- Insert the row of an event under the next id, unless the unique index refuses it.  The id is
used up in either case. -/
def Db.insertIndexedEventIfAbsent (db : Db) (rt : EventIndexer.Runtime) (ev : RpcEvent)
    (indexedAt : Int) : Db :=
  if db.indexedEvents.any fun row => row.key = ev.key then
    { db with eventSequence := db.eventSequence + 1 }
  else { db with
    indexedEvents := db.indexedEvents ++ [ev.row rt (db.eventSequence + 1) indexedAt]
    eventSequence := db.eventSequence + 1 }

/-- Insert a delivery that has not been tried under the next id. -/
def Db.insertWebhookDelivery (db : Db) (row : WebhookDeliveryRow) : Db :=
  { db with deliveries := db.deliveries ++ [⟨row, db.deliveries.length + 1⟩] }

/-- Write the fields of a webhook that are given. -/
def Db.updateWebhook (db : Db) (id : String) (url secret : Option String)
    (active : Option Bool) : Db :=
  { db with webhooks := db.webhooks.map fun row =>
      if row.id = id then
        { row with
          url := url.getD row.url
          secret := secret.getD row.secret
          active := active.getD row.active }
      else row }

/-! ## Attempts -/

/-- The functions of the runtime: those of the indexer, what a text in JSON stands for, and the
digest of a text under a secret.  A text that the runtime has printed can be read. -/
structure Runtime extends EventIndexer.Runtime where
  parse : String → Option Json
  hmac : String → String → String
  parse_stringify : ∀ value, (parse (stringify value)).isSome

/-- The settings of the service, with their defaults. -/
structure WebhookDeliveryOptions where
  maxAttempts : Nat := 5
  baseBackoffSeconds : Nat := 30
  maxBackoffSeconds : Nat := 3600

/-- What the HTTP client reports: a response, or an exception. -/
inductive Outcome where
  | response (status : Nat) (ok : Bool)
  | exception (message : String)

/-- A POST for a delivery. -/
structure Post where
  deliveryId : Nat
  url : String
  body : String
  headers : List (String × String)

/-- The signature of a payload under a secret. -/
def signPayload (rt : Runtime) (secret payload : String) : String :=
  "sha256=" ++ rt.hmac secret payload

/-- The time of the attempt after some attempts. -/
def nextAttemptAt (attemptCount : Nat) (nowSeconds : Int) (baseSeconds maxSeconds : Nat) : Int :=
  nowSeconds + (min (baseSeconds * 2 ^ attemptCount) maxSeconds : Nat)

/-- The webhook and the event of a delivery, or why it is cancelled. -/
def Db.recipient (db : Db) (row : Delivery) : Except String (Webhook × IndexedEventRow) :=
  match db.getWebhook row.webhookId with
  | none => .error "webhook inactive"
  | some webhook =>
      if webhook.active then
        match db.getIndexedEvent row.eventId with
        | none => .error "event not found"
        | some event => .ok (webhook, event)
      else .error "webhook inactive"

/-- The body of a POST. -/
def payloadObj (webhook : Webhook) (event : IndexedEventRow) (data : Json) : Json :=
  .obj [("webhookId", .str webhook.id), ("eventType", .str webhook.eventType),
    ("contractId", .str event.contractId), ("topic", .str event.topic),
    ("transactionHash", .str event.transactionHash), ("ledger", .num event.ledger),
    ("data", data), ("indexedAt", .num event.indexedAt)]

/-- The POST of an event to a webhook. -/
def Post.make (rt : Runtime) (webhook : Webhook) (event : IndexedEventRow) (data : Json)
    (deliveryId : Nat) : Post :=
  ⟨deliveryId, webhook.url, rt.stringify (payloadObj webhook event data),
    [("Content-Type", "application/json"),
      ("X-StellarKraal-Signature",
        signPayload rt webhook.secret (rt.stringify (payloadObj webhook event data)))]⟩

/-- A failed attempt: there is another one later, unless it was the last. -/
def Db.handleFailure (db : Db) (options : WebhookDeliveryOptions) (deliveryId attemptCount : Nat)
    (attemptedAt : Int) (responseStatus : Option Nat) (errorMessage : String) : Db :=
  db.updateDelivery deliveryId
    { status := some (if options.maxAttempts ≤ attemptCount then .failed else .pending)
      attemptCount := some attemptCount
      lastAttemptAt := some attemptedAt
      nextAttemptAt := some (if options.maxAttempts ≤ attemptCount then attemptedAt
        else nextAttemptAt attemptCount attemptedAt options.baseBackoffSeconds
          options.maxBackoffSeconds)
      responseStatus := responseStatus
      errorMessage := some (some errorMessage) }

/-- What an attempt leaves behind. -/
def Db.settle (db : Db) (options : WebhookDeliveryOptions) (now : Int) (delivery : Delivery) :
    Outcome → Db
  | .response status true => db.updateDelivery delivery.id
      { status := some .delivered
        attemptCount := some (delivery.attemptCount + 1)
        lastAttemptAt := some now
        responseStatus := some status
        errorMessage := some none }
  | .response status false => db.handleFailure options delivery.id (delivery.attemptCount + 1) now
      (some status) ("HTTP " ++ toString status)
  | .exception message => db.handleFailure options delivery.id (delivery.attemptCount + 1) now none
      message

/-! ## The service -/

/-- What the service is doing: nothing, or waiting for the response to a delivery with others to
come. -/
inductive Phase where
  | idle
  | posting (now : Int) (delivery : Delivery) (queue : List Delivery)

/-- The database, the clock, where the service is in a drain, and the POSTs that it has made. -/
structure State where
  db : Db
  clock : Int
  phase : Phase
  posts : List Post

/-- The service when it starts for the first time. -/
def State.initial : State := ⟨.empty, 0, .idle, []⟩

/-- Write the database. -/
def State.withDb (s : State) (db : Db) : State := { s with db := db }

/-- Cancel a delivery. -/
def State.cancel (s : State) (deliveryId : Nat) (message : String) : State :=
  s.withDb (s.db.updateDelivery deliveryId
    { status := some .failed, errorMessage := some (some message) })

/-- The rest of a drain, until it waits for a response or ends.  A payload that is no JSON ends it
with an exception. -/
def resume (rt : Runtime) (now : Int) : List Delivery → State → State
  | [], s => { s with phase := .idle }
  | delivery :: queue, s =>
      match s.db.recipient delivery with
      | .error message => resume rt now queue (s.cancel delivery.id message)
      | .ok (webhook, event) =>
          match rt.parse event.payload with
          | none => { s with phase := .idle }
          | some data => { s with
              phase := .posting now delivery queue
              posts := s.posts ++ [.make rt webhook event data delivery.id] }

/-- What can happen: a drain is due some time later, the HTTP client reports, the process restarts,
a statement of the indexer is executed, or a webhook is registered or changed. -/
inductive Input where
  | drain (elapsed : Nat) (query : DeliveryQuery)
  | report (outcome : Outcome)
  | restart
  | insertIndexedEventIfAbsent (ev : RpcEvent) (indexedAt : Int)
  | insertWebhookDelivery (webhook : WebhookRegistrationRow) (eventId : Nat) (indexedAt : Int)
  | insertWebhook (row : Webhook)
  | updateWebhook (id : String) (url secret : Option String) (active : Option Bool)

/-- One step of the service and of what surrounds it.  Drains do not overlap. -/
def step (rt : Runtime) (options : WebhookDeliveryOptions) (s : State) : Input → State
  | .drain elapsed query =>
      match s.phase with
      | .idle => resume rt (s.clock + elapsed)
          (query.getPendingDeliveries s.db (s.clock + elapsed))
          { s with clock := s.clock + elapsed }
      | .posting _ _ _ => { s with clock := s.clock + elapsed }
  | .report outcome =>
      match s.phase with
      | .idle => s
      | .posting now delivery queue =>
          resume rt now queue (s.withDb (s.db.settle options now delivery outcome))
  | .restart => { s with phase := .idle }
  | .insertIndexedEventIfAbsent ev indexedAt =>
      s.withDb (s.db.insertIndexedEventIfAbsent rt.toRuntime ev indexedAt)
  | .insertWebhookDelivery webhook eventId indexedAt =>
      s.withDb (s.db.insertWebhookDelivery (newDelivery eventId indexedAt webhook))
  | .insertWebhook row => s.withDb { s.db with webhooks := s.db.webhooks ++ [row] }
  | .updateWebhook id url secret active => s.withDb (s.db.updateWebhook id url secret active)

/-- How often a delivery has been POSTed. -/
def State.postsTo (s : State) (deliveryId : Nat) : Nat :=
  s.posts.countP fun post => post.deliveryId = deliveryId

/-! ## Rules -/

section

variable {rt : Runtime} {options : WebhookDeliveryOptions} {now : Int} {s : State} {db : Db}

/-- Writing the database makes no POST. -/
@[simp]
theorem withDb_posts (s : State) (db : Db) : (s.withDb db).posts = s.posts :=
  rfl

/-- The database that was written is there. -/
@[simp]
theorem withDb_db (s : State) (db : Db) : (s.withDb db).db = db :=
  rfl

/-- Cancelling a delivery makes no POST. -/
@[simp]
theorem cancel_posts (s : State) (deliveryId : Nat) (message : String) :
    (s.cancel deliveryId message).posts = s.posts :=
  rfl

/-- The webhook and the event of a delivery do not depend on the deliveries. -/
theorem recipient_congr {db' : Db} (hwebhooks : db'.webhooks = db.webhooks)
    (hevents : db'.indexedEvents = db.indexedEvents) (row : Delivery) :
    db'.recipient row = db.recipient row := by
  unfold Db.recipient Db.getWebhook Db.getIndexedEvent
  rw [hwebhooks, hevents]

/-- Writing a delivery changes no webhook and no event. -/
@[simp]
theorem recipient_updateDelivery (db : Db) (id : Nat) (fields : DeliveryUpdate) (row : Delivery) :
    (db.updateDelivery id fields).recipient row = db.recipient row :=
  recipient_congr rfl rfl row

/-- Cancelling a delivery changes no webhook and no event. -/
@[simp]
theorem recipient_cancel (s : State) (deliveryId : Nat) (message : String) (row : Delivery) :
    (s.cancel deliveryId message).db.recipient row = s.db.recipient row :=
  recipient_congr rfl rfl row

/-- What holds when the service waits for a response or is done, from what holds as it goes through
the deliveries. -/
theorem resume_ensures {P : State → List Delivery → Prop} {Q : State → Prop}
    (hdone : ∀ s, P s [] → Q { s with phase := .idle })
    (hskip : ∀ s row queue message, P s (row :: queue) → s.db.recipient row = .error message →
      P (s.cancel row.id message) queue)
    (hthrow : ∀ s row queue webhook event, P s (row :: queue) →
      s.db.recipient row = .ok (webhook, event) → rt.parse event.payload = none →
      Q { s with phase := .idle })
    (hpost : ∀ s row queue webhook event data, P s (row :: queue) →
      s.db.recipient row = .ok (webhook, event) → rt.parse event.payload = some data →
      Q { s with
        phase := .posting now row queue
        posts := s.posts ++ [.make rt webhook event data row.id] })
    {queue : List Delivery} (h : P s queue) : Q (resume rt now queue s) := by
  induction queue generalizing s with
  | nil => exact hdone s h
  | cons row queue ih =>
      rw [resume]
      cases hrecipient : s.db.recipient row with
      | error message => exact ih (hskip s row queue message h hrecipient)
      | ok found =>
          rcases found with ⟨webhook, event⟩
          cases hparse : rt.parse event.payload with
          | none =>
              simp only [hparse]
              exact hthrow s row queue webhook event h hrecipient hparse
          | some data =>
              simp only [hparse]
              exact hpost s row queue webhook event data h hrecipient hparse

/-- The POSTs for a delivery after one more POST. -/
theorem postsTo_append (s : State) (post : Post) (phase : Phase) (id : Nat) :
    State.postsTo { s with phase := phase, posts := s.posts ++ [post] } id =
      s.postsTo id + if post.deliveryId = id then 1 else 0 := by
  simp [State.postsTo, List.countP_append, List.countP_cons]

end

end WebhookDelivery
end Kraal
