import Kraal.Backend.Services
import Kraal.Foundation.Run

/-!
# The idempotency middleware

Every request to a financial endpoint carries a key.  A completed request is answered from its
record; a request whose event is on the chain but whose record is lost is answered by applying
the event again; every other request is executed.  Records expire, and so do events.

A handler that throws is answered with an internal error.  A process that stops answers nothing
and starts again with what is in the database.

Main results:

- Definition {lit}`idempotent`: the middleware around an endpoint.
- Definition {lit}`step`: the backend as a machine over its requests.
-/

namespace Kraal
namespace Backend

open Foundation

/-! ## Records -/

/-- Read the record of a key. -/
def getRecord (key : String) : Action (Option IdempotencyRecord) :=
  access fun s => (.ok (s.db.records.get key), s)

/-- Remove the record of a key. -/
def deleteRecord (key : String) : Action Unit :=
  access fun s => (.ok (), s.withDb (s.db.withRecords (s.db.records.remove key)))

/-- Insert the record of a request that is in progress, unless its key has one. -/
def insertInProgress (key fingerprint endpoint : String) (now expiresAt : Int) : Action Unit :=
  access fun s =>
    if s.db.records.has key then (.error .database, s)
    else (.ok (), s.withDb (s.db.withRecords (s.db.records.set key
      ⟨key, fingerprint, endpoint, .inProgress, none, none, now, expiresAt⟩)))

/-- Insert the record of a request that has none. -/
def markInProgress (key fingerprint endpoint : String) (now expiresAt : Int) (hasRecord : Bool) :
    Action Unit :=
  if hasRecord then pure () else insertInProgress key fingerprint endpoint now expiresAt

/-- The record of a completed request.  A stored record keeps its fingerprint and its times. -/
def completedRecord (existing : Option IdempotencyRecord) (key fingerprint endpoint : String)
    (status : Nat) (body : ResponseBody) (now expiresAt : Int) : IdempotencyRecord :=
  match existing with
  | some record =>
      { record with status := .completed, responseStatus := some status, responseBody := some body }
  | none => ⟨key, fingerprint, endpoint, .completed, some status, some body, now, expiresAt⟩

section

variable {existing : Option IdempotencyRecord} {key fingerprint endpoint : String} {status : Nat}
  {body : ResponseBody} {now expiresAt : Int}

/-- A completed record says so. -/
theorem completedRecord_status :
    (completedRecord existing key fingerprint endpoint status body now expiresAt).status =
      .completed := by
  cases existing with
  | none => rfl
  | some record => rfl

/-- A completed record keeps the body of the response. -/
theorem completedRecord_responseBody :
    (completedRecord existing key fingerprint endpoint status body now expiresAt).responseBody =
      some body := by
  cases existing with
  | none => rfl
  | some record => rfl

end

/-- Write the response into the record of a key. -/
def completeRecord (key fingerprint endpoint : String) (status : Nat) (body : ResponseBody)
    (now expiresAt : Int) : Action Unit :=
  access fun s => (.ok (), s.withDb (s.db.withRecords (s.db.records.set key
    (completedRecord (s.db.records.get key) key fingerprint endpoint status body now expiresAt))))

/-! ## Requests and responses -/

/-- The settings that the handlers read. -/
structure AppConfig where
  idempotencyTtlSeconds : Int

/-- A request to one of the idempotent endpoints. -/
structure Request where
  endpoint : Endpoint
  path : String
  key : Option String
  body : Option Json

/-- A response with its idempotency headers. -/
structure Response where
  status : Nat
  body : ResponseBody
  replayed : Bool
  reconciled : Bool

/-- A response that rejects a request. -/
def Response.reject (status : Nat) (message : String) : Response :=
  ⟨status, .error message, false, false⟩

/-- A rejection has the status that it is given. -/
@[simp]
theorem Response.reject_status (status : Nat) (message : String) :
    (Response.reject status message).status = status :=
  rfl

/-- The response to an exception of an execution. -/
def Thrown.response : Thrown → Response
  | .business status message => .reject status message
  | .database =>
      .reject 500 "internal error while executing the request; retry with the same Idempotency-Key"

/-- One to 255 visible characters. -/
def validKey (key : String) : Bool :=
  0 < key.length && key.length ≤ 255 && key.toList.all fun c => 0x21 ≤ c.toNat && c.toNat ≤ 0x7e

/-- A request without a body has the fingerprint of an empty object. -/
def Request.bodyOrEmpty (req : Request) : Json :=
  match req.body with
  | none => .obj []
  | some .null => .obj []
  | some body => body

/-- The digest of the path and of the body in canonical form. -/
def fingerprintOf (rt : Runtime) (req : Request) : String :=
  rt.sha256Hex ("POST " ++ req.path ++ "\n" ++ stableStringify rt.print req.bodyOrEmpty)

/-! ## The middleware -/

/-- The record of a key that has not expired.  An expired record is deleted. -/
def currentRecord (key : String) (now : Int) : Action (Option IdempotencyRecord) := do
  let record ← getRecord key
  match record with
  | some record =>
      if record.expiresAt ≤ now then do
        deleteRecord key
        pure none
      else pure (some record)
  | none => pure none

section

variable {Body : Type} (cfg : AppConfig) (spec : IdempotentSpec Body) (key fingerprint : String)
  (body : Option Json) (now : Int)

/-- Execute a request that nothing is known of, and keep its response. -/
def executeRequest (hasRecord : Bool) : Action Response :=
  match spec.validate body with
  | .error message => pure (.reject 400 message)
  | .ok validated => do
      markInProgress key fingerprint spec.endpoint now (now + cfg.idempotencyTtlSeconds) hasRecord
      let result ← (spec.execute validated key).attempt
      match result with
      | .error e => do
          deleteRecord key
          pure e.response
      | .ok result => do
          completeRecord key fingerprint spec.endpoint result.status result.body now
            (now + cfg.idempotencyTtlSeconds)
          pure ⟨result.status, result.body, false, false⟩

/-- Answer a request from the event of its key, if there is a recent one, or execute it. -/
def reconcileOrExecute (hasRecord : Bool) : Action Response := do
  let event ← findEvent key
  match event with
  | some event =>
      if now - event.createdAt < cfg.idempotencyTtlSeconds then do
        let result ← spec.reconcile event
        completeRecord key fingerprint spec.endpoint result.status result.body now
          (now + cfg.idempotencyTtlSeconds)
        pure ⟨200, result.body, true, true⟩
      else executeRequest cfg spec key fingerprint body now hasRecord
  | none => executeRequest cfg spec key fingerprint body now hasRecord

/-- Answer a request at the given time. -/
def answerAt : Action Response := do
  let record ← currentRecord key now
  match record with
  | some record =>
      if record.fingerprint ≠ fingerprint then
        pure (.reject 422 "Idempotency-Key was already used with a different request payload")
      else
        match record.status, record.responseBody with
        | .completed, some body => pure ⟨200, body, true, false⟩
        | _, _ => do
            let pending ← findEvent key
            match pending with
            | none =>
                pure (.reject 409 "a request with this Idempotency-Key is already in progress")
            | some _ => reconcileOrExecute cfg spec key fingerprint body now true
  | none => reconcileOrExecute cfg spec key fingerprint body now false

end

/-- Answer a request to an endpoint. -/
def idempotent {Body : Type} (cfg : AppConfig) (rt : Runtime) (spec : IdempotentSpec Body)
    (req : Request) : Action Response :=
  match req.key.filter validKey with
  | none => pure (.reject 400
      "missing or invalid Idempotency-Key header (1-255 visible ASCII characters)")
  | some key => do
      let time ← now
      answerAt cfg spec key (fingerprintOf rt req) req.body time

/-- The handler of the endpoint that a request names. -/
def handleRequest (cfg : AppConfig) (rt : Runtime) (req : Request) : Action Response :=
  match req.endpoint with
  | .listings => idempotent cfg rt (listingsSpec rt) req
  | .purchases => idempotent cfg rt (purchasesSpec rt) req
  | .retire => idempotent cfg rt (retireSpec rt) req

/-! ## The backend as a machine -/

/-- A request, with what happens while it is handled, or the switch of the test hook. -/
inductive Input where
  | request (req : Request) (script : List Tick)
  | failNextTransaction

/-- A process that has stopped starts again with what is in the database. -/
def World.after (w : World) : Exit Thrown Response → World
  | .returned _ => w
  | .thrown _ => w
  | .stopped => { w with store := { w.store with failNext := false } }

/-- Serve a request, or let the next transaction fail. -/
def step (cfg : AppConfig) (rt : Runtime) (w : World) : Input → World
  | .request req script =>
      let run := handleRequest cfg rt req script w
      run.2.2.after run.1
  | .failNextTransaction => { w with store := { w.store with failNext := true } }

/-- What a client sees of the end of a handler. -/
def answer : Exit Thrown Response → Option Response
  | .returned r => some r
  | .thrown _ => some (.reject 500 "Internal Server Error")
  | .stopped => none

/-- The response to a request, if there is one. -/
def response (cfg : AppConfig) (rt : Runtime) (w : World) (req : Request) (script : List Tick) :
    Option Response :=
  answer (handleRequest cfg rt req script w).1

/-- The empty database. -/
def World.initial : World := ⟨Store.empty, 0⟩

end Backend
end Kraal
