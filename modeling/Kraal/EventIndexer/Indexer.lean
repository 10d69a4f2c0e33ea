import Kraal.EventIndexer.Rpc
import Kraal.Foundation.Program
import Kraal.Foundation.Storage
import Mathlib.Data.List.Infix

/-!
# The event indexer

A tick asks the RPC for the events of one target after the other, from the ledger after the
cursor of the target on, and stores what it has not stored yet.  The cursor is advanced after
every page.  Between two pages the process waits for the RPC: other things happen then, the
process may restart, and only the database survives.

Main results:

- Definition {lit}`indexPage`: one page, from the request to the cursor.
- Definition {lit}`step`: the process between two pages.
-/

namespace Kraal
namespace EventIndexer

open Foundation
open Backend (Json)

/-! ## The database -/

/-- The last ledger that was processed for an event type. -/
structure LedgerCursorRow where
  eventType : String
  lastLedger : Nat
  updatedAt : Int

/-- An event as it is stored, with its payload as text. -/
structure IndexedEventRow where
  id : Nat
  contractId : String
  topic : String
  transactionHash : String
  ledger : Nat
  payload : String
  indexedAt : Int

/-- A registration of a webhook, as far as the indexer reads it. -/
structure WebhookRegistrationRow where
  id : String
  eventType : String
  active : Bool

/-- How far a delivery has come. -/
inductive DeliveryStatus where
  | pending
  | delivered
  | failed
deriving DecidableEq, Repr

/-- A delivery of an event to a webhook, with the outcome of the last attempt. -/
structure WebhookDeliveryRow where
  webhookId : String
  eventId : Nat
  status : DeliveryStatus
  attemptCount : Nat
  lastAttemptAt : Option Int
  nextAttemptAt : Int
  responseStatus : Option Nat
  errorMessage : Option String
  createdAt : Int

/-- The tables of the indexer, and the last id that was taken for an event. -/
structure Db where
  cursors : Storage String LedgerCursorRow
  indexedEvents : List IndexedEventRow
  webhooks : List WebhookRegistrationRow
  deliveries : List WebhookDeliveryRow
  eventSequence : Nat

/-- The tables before the first tick. -/
def Db.empty : Db := ⟨Storage.empty, [], [], [], 0⟩

/-- The columns of the unique index on the events. -/
def IndexedEventRow.key (row : IndexedEventRow) : String × String × String :=
  (row.contractId, row.topic, row.transactionHash)

/-- What the unique index looks at in an event that arrives. -/
def RpcEvent.key (ev : RpcEvent) : String × String × String :=
  (ev.contractId, ev.topic, ev.transactionHash)

/-- The functions of the runtime: the text of a value, and the lower case of a text. -/
structure Runtime where
  stringify : Json → String
  toLowerCase : String → String

/-- The row of an event. -/
def RpcEvent.row (rt : Runtime) (ev : RpcEvent) (id : Nat) (indexedAt : Int) : IndexedEventRow :=
  ⟨id, ev.contractId, ev.topic, ev.transactionHash, ev.ledger, rt.stringify ev.payload, indexedAt⟩

/-- Insert the row of an event under the next id, unless the unique index refuses it.  The id is
used up in either case. -/
def Db.insertEvent (db : Db) (rt : Runtime) (ev : RpcEvent) (indexedAt : Int) : Option Nat × Db :=
  if db.indexedEvents.any fun row => row.key = ev.key then
    (none, { db with eventSequence := db.eventSequence + 1 })
  else (some (db.eventSequence + 1), { db with
    indexedEvents := db.indexedEvents ++ [ev.row rt (db.eventSequence + 1) indexedAt]
    eventSequence := db.eventSequence + 1 })

/-! ## Operations -/

/-- How an operation goes wrong: it throws, an error with a message or another value, or the
process stops before it. -/
inductive Interruption where
  | throws (message : Option String)
  | stops
deriving DecidableEq, Repr

/-- What happens at an operation: time passes, and something may go wrong. -/
structure Moment where
  elapsed : Nat
  interruption : Option Interruption
deriving DecidableEq, Repr

/-- The database and the clock, in seconds. -/
structure World where
  db : Db
  clock : Int

/-- A part of a tick. -/
abbrev Job (α : Type) : Type := Program Moment World (Option String) α

/-- The world some time later. -/
def World.later (w : World) (elapsed : Nat) : World := { w with clock := w.clock + elapsed }

/-- One operation on the database, or one call of the RPC. -/
def operation {α : Type} (f : Db → α × Db) : Job α := do
  let moment ← Program.next
  let w ← Program.get
  Program.put (w.later (moment.elim 0 Moment.elapsed))
  match moment.bind Moment.interruption with
  | some (.throws message) => Program.throw message
  | some .stops => Program.stop
  | none =>
      let w ← Program.get
      Program.put { w with db := (f w.db).2 }
      pure (f w.db).1

/-- Read the cursor of an event type. -/
def getCursor (eventType : String) : Job (Option LedgerCursorRow) :=
  operation fun db => (db.cursors.get eventType, db)

/-- Write the cursor of an event type, which replaces the one before. -/
def upsertCursor (eventType : String) (lastLedger : Nat) (updatedAt : Int) : Job Unit :=
  operation fun db => ((), { db with
    cursors := db.cursors.set eventType ⟨eventType, lastLedger, updatedAt⟩ })

/-- Store an event, and return its id if it is new. -/
def insertIndexedEventIfAbsent (rt : Runtime) (ev : RpcEvent) (indexedAt : Int) :
    Job (Option Nat) :=
  operation fun db => db.insertEvent rt ev indexedAt

/-- The webhooks that are active for an event type. -/
def listWebhooksByEventType (eventType : String) : Job (List WebhookRegistrationRow) :=
  operation fun db => (db.webhooks.filter fun row => row.eventType = eventType ∧ row.active, db)

/-- Store a delivery. -/
def insertWebhookDelivery (row : WebhookDeliveryRow) : Job Unit :=
  operation fun db => ((), { db with deliveries := db.deliveries ++ [row] })

/-! ## Retries -/

/-- A text occurs in another one. -/
def includes (message text : String) : Bool :=
  decide (text.toList <:+: message.toList)

/-- Network errors and rejections for a while are worth a retry, and so is what is no error. -/
def isTransient (rt : Runtime) : Option String → Bool
  | some message => ["timeout", "econnrefused", "econnreset", "network", "503", "429"].any
      (includes (rt.toLowerCase message))
  | none => true

/-- Try a job again after a failure that is worth it, a number of times at most. -/
def withRetry {α : Type} (isRetryable : Option String → Bool) (fn : Job α) : Nat → Job α
  | 0 => Program.throw none
  | 1 => fn
  | attempts + 2 => do
      match ← fn.attempt with
      | .ok a => pure a
      | .error e =>
          if isRetryable e then withRetry isRetryable fn (attempts + 1) else Program.throw e

/-! ## One page -/

/-- The settings of the indexer that a tick reads, with their defaults. -/
structure IndexerOptions where
  pageSize : Nat := 100
  maxRpcAttempts : Nat := 4

/-- A target that is being indexed: the ledger of the cursor that was loaded, the ledger from
which the next page is asked for, and the highest ledger seen. -/
structure Paging where
  target : IndexerTarget
  lastLedger : Option Nat
  next : Nat
  highWaterLedger : Nat

/-- Load the cursor of a target. -/
def beginTarget (target : IndexerTarget) : Job Paging := do
  let cursor ← getCursor target.eventType
  pure ⟨target, cursor.map LedgerCursorRow.lastLedger,
    (cursor.map fun row => row.lastLedger + 1).getD 0,
    (cursor.map LedgerCursorRow.lastLedger).getD 0⟩

/-- Enqueue the deliveries of an event. -/
def insertDeliveries (eventId : Nat) (indexedAt : Int) : List WebhookRegistrationRow → Job Unit
  | [] => pure ()
  | webhook :: webhooks => do
      insertWebhookDelivery
        ⟨webhook.id, eventId, .pending, 0, none, indexedAt, none, none, indexedAt⟩
      insertDeliveries eventId indexedAt webhooks

/-- Store an event, and enqueue its deliveries unless it is a duplicate. -/
def indexEvent (rt : Runtime) (target : IndexerTarget) (event : RpcEvent) : Job Unit := do
  let w ← Program.get
  match ← insertIndexedEventIfAbsent rt event w.clock with
  | some newId => do
      let webhooks ← listWebhooksByEventType target.eventType
      insertDeliveries newId w.clock webhooks
  | none => pure ()

/-- Store the events of a page, and keep the highest ledger. -/
def indexBatch (rt : Runtime) (target : IndexerTarget) : List RpcEvent → Nat → Job Nat
  | [], highWaterLedger => pure highWaterLedger
  | event :: batch, highWaterLedger => do
      indexEvent rt target event
      indexBatch rt target batch
        (if highWaterLedger < event.ledger then event.ledger else highWaterLedger)

/-- Advance the cursor, if it is behind. -/
def advanceCursor (p : Paging) (highWaterLedger : Nat) : Job Unit :=
  if p.lastLedger.getD 0 < highWaterLedger then do
    let w ← Program.get
    upsertCursor p.target.eventType highWaterLedger w.clock
  else pure ()

/-- The events of a page, unless it is empty, and the cursor after them. -/
def indexEvents (rt : Runtime) (p : Paging) (page : GetEventsPage) : Job Paging :=
  match page.events with
  | [] => pure p
  | events => do
      let highWaterLedger ← indexBatch rt p.target events p.highWaterLedger
      advanceCursor p highWaterLedger
      pure { p with highWaterLedger := highWaterLedger }

/-- Ask for the next page of a target, with retries. -/
def fetchPage (rpc : SorobanRpcClient) (rt : Runtime) (options : IndexerOptions) (c : Chain)
    (p : Paging) : Job GetEventsPage :=
  withRetry (isTransient rt) (operation fun db =>
    (rpc.getEvents c p.target.contractId p.target.eventType p.next options.pageSize, db))
    options.maxRpcAttempts

/-- Index the next page of a target.  What is left is where the page after it begins, if there
is one. -/
def indexPage (rpc : SorobanRpcClient) (rt : Runtime) (options : IndexerOptions) (c : Chain)
    (p : Paging) : Job (Option Paging) := do
  let page ← fetchPage rpc rt options c p
  let p' ← indexEvents rt p page
  pure (page.nextLedger.map fun next => { p' with next := next })

/-! ## The process -/

/-- What the process is doing: nothing, or indexing a target with others to come. -/
inductive Phase where
  | idle
  | indexing (p : Paging) (targets : List IndexerTarget)

/-- What the process knows between two pages: its database and clock, the chain, and where it is in
a tick. -/
structure State where
  world : World
  chain : Chain
  phase : Phase

/-- A process that has just been set up on a chain. -/
def State.initial (c : Chain) : State := ⟨⟨Db.empty, 0⟩, c, .idle⟩

/-- What can happen: a tick is due, a page is served, the process restarts, a ledger closes, or a
webhook is registered or switched on or off. -/
inductive Input where
  | tick (script : List Moment)
  | page (script : List Moment)
  | restart
  | close (emitted : List Emission)
  | insertWebhook (row : WebhookRegistrationRow)
  | updateWebhook (id : String) (active : Bool)

/-- Write the database. -/
def State.withDb (s : State) (db : Db) : State := { s with world := { s.world with db := db } }

/-- The process when it is done with a target, and turns to the next one. -/
def nextTarget (targets : List IndexerTarget) (script : List Moment) (s : State) : State :=
  match targets with
  | [] => { s with phase := .idle }
  | target :: targets =>
      match beginTarget target script s.world with
      | (.returned p, _, w) => { s with world := w, phase := .indexing p targets }
      | (_, _, w) => { s with world := w, phase := .idle }

/-- One step of the process and of what surrounds it.  Ticks do not overlap, and one that fails
is abandoned. -/
def step (rpc : SorobanRpcClient) (rt : Runtime) (options : IndexerOptions)
    (targets : List IndexerTarget) (s : State) : Input → State
  | .tick script =>
      match s.phase with
      | .idle => nextTarget targets script s
      | .indexing _ _ => s
  | .page script =>
      match s.phase with
      | .idle => s
      | .indexing p rest =>
          match indexPage rpc rt options s.chain p script s.world with
          | (.returned (some p'), _, w) => { s with world := w, phase := .indexing p' rest }
          | (.returned none, script', w) => nextTarget rest script' { s with world := w }
          | (_, _, w) => { s with world := w, phase := .idle }
  | .restart => { s with phase := .idle }
  | .close emitted => { s with chain := s.chain.close emitted }
  | .insertWebhook row =>
      s.withDb { s.world.db with webhooks := s.world.db.webhooks ++ [row] }
  | .updateWebhook id active =>
      s.withDb { s.world.db with webhooks := s.world.db.webhooks.map fun row =>
        if row.id = id then { row with active := active } else row }

end EventIndexer
end Kraal
