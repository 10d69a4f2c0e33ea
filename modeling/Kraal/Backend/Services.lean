import Kraal.Backend.Store
import Mathlib.Data.List.Induction

/-!
# The services behind the idempotent endpoints

Listings, purchases and retirements.  Each service submits an event to the chain under the key
of the request and then applies the event to the domain tables.  Each can also be asked to
apply an event that was submitted before, whatever its type.

Main results:

- Definition {lit}`deriveId`: the id of what a request creates.
- Theorem {lit}`settle_ensures`: what an execution leaves behind, wherever it ends.
- Theorem {lit}`reapply_ensures`: the same for an event that is applied again.
-/

namespace Kraal
namespace Backend

open Foundation

/-! ## Identifiers -/

/-- The functions of the runtime: the hash in hexadecimal, and the text of scalars. -/
structure Runtime where
  sha256Hex : String → String
  print : ScalarText

/-- The id of what a request creates, from the kind of thing and the key of the request. -/
def deriveId (rt : Runtime) (kind key : String) : String :=
  kind ++ "_" ++ String.ofList ((rt.sha256Hex (kind ++ ":" ++ key)).toList.take 16)

/-- An id that is derived is not empty. -/
theorem deriveId_ne_empty (rt : Runtime) (kind key : String) : deriveId rt kind key ≠ "" := by
  simp [deriveId]

/-! ## The chain -/

/-- The most recent event with a dedup id. -/
def latestEvent (events : List ChainEvent) (dedupId : String) : Option ChainEvent :=
  (events.filter fun ev => ev.dedupId = dedupId).getLast?

/-- The latest event is among the later ones, if they have one with the id. -/
theorem latestEvent_append (events later : List ChainEvent) (dedupId : String) :
    latestEvent (events ++ later) dedupId =
      (latestEvent later dedupId).or (latestEvent events dedupId) := by
  rw [latestEvent, List.filter_append, List.getLast?_append]
  rfl

/-- The latest event after one more. -/
theorem latestEvent_append_singleton (events : List ChainEvent) (ev : ChainEvent)
    (dedupId : String) :
    latestEvent (events ++ [ev]) dedupId =
      if ev.dedupId = dedupId then some ev else latestEvent events dedupId := by
  unfold latestEvent
  by_cases h : ev.dedupId = dedupId
  · simp [h]
  · simp [h]

/-- An event with the id is the latest one when it comes. -/
theorem latestEvent_append_self (events : List ChainEvent) {ev : ChainEvent} {dedupId : String}
    (h : ev.dedupId = dedupId) : latestEvent (events ++ [ev]) dedupId = some ev := by
  rw [latestEvent_append_singleton, if_pos h]

/-- An event with another id changes nothing. -/
theorem latestEvent_append_other (events : List ChainEvent) {ev : ChainEvent} {dedupId : String}
    (h : ev.dedupId ≠ dedupId) :
    latestEvent (events ++ [ev]) dedupId = latestEvent events dedupId := by
  rw [latestEvent_append_singleton, if_neg h]

/-- The most recent event is an event with its dedup id. -/
theorem latestEvent_mem {events : List ChainEvent} {dedupId : String} {ev : ChainEvent}
    (h : latestEvent events dedupId = some ev) : ev ∈ events ∧ ev.dedupId = dedupId := by
  have hmem := List.mem_of_getLast? h
  simpa using hmem

/-- No event with its dedup id comes after the most recent one. -/
theorem latestEvent_last {R : ChainEvent → ChainEvent → Prop} {events : List ChainEvent}
    (hevents : events.Pairwise R) {e : ChainEvent} (he : e ∈ events) :
    ∃ ev, latestEvent events e.dedupId = some ev ∧ (e = ev ∨ R e ev) := by
  induction events using List.reverseRecOn with
  | nil => cases he
  | append_singleton events last ih =>
      rw [latestEvent_append_singleton]
      rw [List.pairwise_append] at hevents
      by_cases hlast : last.dedupId = e.dedupId
      · refine ⟨last, if_pos hlast, ?_⟩
        rcases List.mem_append.mp he with he | he
        · exact .inr (hevents.2.2 e he last List.mem_cons_self)
        · exact .inl (List.mem_singleton.mp he)
      · rw [if_neg hlast]
        rcases List.mem_append.mp he with he | he
        · exact ih hevents.1 he
        · rw [List.mem_singleton.mp he] at hlast
          exact absurd rfl hlast

/-- Submit an event. -/
def submit (dedupId : String) (payload : Payload) : Action ChainEvent := do
  let createdAt ← now
  access fun s =>
    let ev : ChainEvent := ⟨s.db.chainEvents.length + 1, dedupId, payload, createdAt⟩
    (.ok ev, s.withDb (s.db.withEvent ev))

/-- The most recent event submitted with a dedup id. -/
def findEvent (dedupId : String) : Action (Option ChainEvent) :=
  access fun s => (.ok (latestEvent s.db.chainEvents dedupId), s)

/-- Read a listing. -/
def getListing (id : String) : Action (Option ListingRow) :=
  access fun s => (.ok (s.db.domain.listings.get id), s)

/-! ## Requests -/

/-- The body of a request for a listing, once it is validated. -/
structure CreateListingBody where
  sellerId : String
  creditBatchId : String
  quantity : Quantity
  priceStroops : Quantity

/-- The body of a request for a purchase, once it is validated. -/
structure PurchaseBody where
  buyerId : String
  listingId : String
  quantity : Quantity

/-- The body of a request for a retirement, once it is validated. -/
structure RetireBody where
  ownerId : String
  creditBatchId : String
  quantity : Quantity
  reason : Option String

/-- An object or an array, which has no such properties as are asked for. -/
def requireObject : Option Json → Except String Json
  | some (.obj fields) => .ok (.obj fields)
  | some (.arr items) => .ok (.arr items)
  | _ => .error "request body must be a JSON object"

/-- A property that passes its check, or an error. -/
def required {α : Type} (value : Option α) (error : String) : Except String α :=
  match value with
  | some a => .ok a
  | none => .error error

/-- The checks of the body of a new listing, in their order. -/
def validateCreateListing (body : Option Json) : Except String CreateListingBody := do
  let b ← requireObject body
  let sellerId ← required (isNonEmptyString (b.field "sellerId")) "sellerId is required"
  let creditBatchId ←
    required (isNonEmptyString (b.field "creditBatchId")) "creditBatchId is required"
  let quantity ← required (isPositiveInt (b.field "quantity")) "quantity must be a positive integer"
  let priceStroops ←
    required (isPositiveInt (b.field "priceStroops")) "priceStroops must be a positive integer"
  pure ⟨sellerId, creditBatchId, quantity, priceStroops⟩

/-- The checks of the body of a purchase, in their order. -/
def validatePurchase (body : Option Json) : Except String PurchaseBody := do
  let b ← requireObject body
  let buyerId ← required (isNonEmptyString (b.field "buyerId")) "buyerId is required"
  let listingId ← required (isNonEmptyString (b.field "listingId")) "listingId is required"
  let quantity ← required (isPositiveInt (b.field "quantity")) "quantity must be a positive integer"
  pure ⟨buyerId, listingId, quantity⟩

/-- The optional string that a property holds. -/
def optionalString : Option Json → Option (Option String)
  | none => some none
  | some (.str s) => some (some s)
  | some _ => none

/-- The checks of the body of a retirement, in their order. -/
def validateRetire (body : Option Json) : Except String RetireBody := do
  let b ← requireObject body
  let ownerId ← required (isNonEmptyString (b.field "ownerId")) "ownerId is required"
  let creditBatchId ←
    required (isNonEmptyString (b.field "creditBatchId")) "creditBatchId is required"
  let quantity ← required (isPositiveInt (b.field "quantity")) "quantity must be a positive integer"
  let reason ← required (optionalString (b.field "reason")) "reason must be a string"
  pure ⟨ownerId, creditBatchId, quantity, reason⟩

/-! ## Bodies that pass -/

/-- A quantity is a positive integer. -/
theorem isPositiveInt_num (q : Quantity) : isPositiveInt (some (.num (q.1 : ℚ))) = some q := by
  simp [isPositiveInt, q.2]

/-- A text with something in it is not empty. -/
theorem isNonEmptyString_str {s : String} (h : s ≠ "") :
    isNonEmptyString (some (.str s)) = some s := by
  simp [isNonEmptyString, h]

/-- The body of a request for a listing as a client writes it. -/
def CreateListingBody.json (b : CreateListingBody) : Json :=
  .obj [("sellerId", .str b.sellerId), ("creditBatchId", .str b.creditBatchId),
    ("quantity", .num (b.quantity.1 : ℚ)), ("priceStroops", .num (b.priceStroops.1 : ℚ))]

/-- The body of a purchase as a client sends it. -/
def PurchaseBody.json (b : PurchaseBody) : Json :=
  .obj [("buyerId", .str b.buyerId), ("listingId", .str b.listingId),
    ("quantity", .num (b.quantity.1 : ℚ))]

/-- The body of a retirement as a client sends it. -/
def RetireBody.json (b : RetireBody) : Json :=
  .obj ([("ownerId", .str b.ownerId), ("creditBatchId", .str b.creditBatchId),
    ("quantity", .num (b.quantity.1 : ℚ))] ++ (b.reason.map fun s => ("reason", .str s)).toList)

/-- A listing that is sent is read back. -/
theorem validateCreateListing_json {b : CreateListingBody} (hseller : b.sellerId ≠ "")
    (hbatch : b.creditBatchId ≠ "") : validateCreateListing (some b.json) = .ok b := by
  have hobject : requireObject (some b.json) = .ok b.json := rfl
  have hsellerId : b.json.field "sellerId" = some (.str b.sellerId) := rfl
  have hcreditBatchId : b.json.field "creditBatchId" = some (.str b.creditBatchId) := rfl
  have hquantity : b.json.field "quantity" = some (.num (b.quantity.1 : ℚ)) := rfl
  have hprice : b.json.field "priceStroops" = some (.num (b.priceStroops.1 : ℚ)) := rfl
  simp [validateCreateListing, hobject, hsellerId, hcreditBatchId, hquantity, hprice,
    isNonEmptyString_str hseller, isNonEmptyString_str hbatch, isPositiveInt_num, required, bind,
    Except.bind, pure, Except.pure]

/-- A purchase that is sent is read back. -/
theorem validatePurchase_json {b : PurchaseBody} (hbuyer : b.buyerId ≠ "")
    (hlisting : b.listingId ≠ "") : validatePurchase (some b.json) = .ok b := by
  have hobject : requireObject (some b.json) = .ok b.json := rfl
  have hbuyerId : b.json.field "buyerId" = some (.str b.buyerId) := rfl
  have hlistingId : b.json.field "listingId" = some (.str b.listingId) := rfl
  have hquantity : b.json.field "quantity" = some (.num (b.quantity.1 : ℚ)) := rfl
  simp [validatePurchase, hobject, hbuyerId, hlistingId, hquantity, isNonEmptyString_str hbuyer,
    isNonEmptyString_str hlisting, isPositiveInt_num, required, bind, Except.bind, pure,
    Except.pure]

/-- A retirement that is sent is read back. -/
theorem validateRetire_json {b : RetireBody} (howner : b.ownerId ≠ "")
    (hbatch : b.creditBatchId ≠ "") : validateRetire (some b.json) = .ok b := by
  have hobject : requireObject (some b.json) = .ok b.json := rfl
  have hownerId : b.json.field "ownerId" = some (.str b.ownerId) := rfl
  have hcreditBatchId : b.json.field "creditBatchId" = some (.str b.creditBatchId) := rfl
  have hquantity : b.json.field "quantity" = some (.num (b.quantity.1 : ℚ)) := rfl
  have hreason : optionalString (b.json.field "reason") = some b.reason := by
    rcases b with ⟨ownerId, creditBatchId, quantity, reason⟩
    cases reason with
    | none => rfl
    | some s => rfl
  simp [validateRetire, hobject, hownerId, hcreditBatchId, hquantity, hreason,
    isNonEmptyString_str howner, isNonEmptyString_str hbatch, isPositiveInt_num, required, bind,
    Except.bind, pure, Except.pure]

/-! ## Services -/

/-- The status and the body that a service answers. -/
structure ExecuteResult where
  status : Nat
  body : ResponseBody

/-- The body of the response to a listing, with what remains of it now. -/
def listingBody (p : ListingFields) : Action ResponseBody := do
  let row ← getListing p.id
  pure (.listing p ((row.map ListingRow.quantityRemaining).getD p.quantity))

/-- Submit a listing and store it. -/
def createListing (rt : Runtime) (body : CreateListingBody) (key : String) :
    Action ExecuteResult := do
  let createdAt ← now
  let payload : Payload := .listingCreated
    ⟨deriveId rt "lst" key, body.sellerId, body.creditBatchId, body.quantity, body.priceStroops,
      createdAt⟩
  let _ ← submit key payload
  transaction (applyListing payload.asListing)
  let body ← listingBody payload.asListing
  pure ⟨201, body⟩

/-- Store a listing that was submitted before. -/
def reconcileListing (event : ChainEvent) : Action ExecuteResult := do
  transaction (applyListing event.payload.asListing)
  let body ← listingBody event.payload.asListing
  pure ⟨200, body⟩

/-- Submit a purchase of a listing with enough credits and store it. -/
def purchase (rt : Runtime) (body : PurchaseBody) (key : String) : Action ExecuteResult := do
  let listing ← getListing body.listingId
  match listing with
  | none => Program.throw (.business 404 "listing not found")
  | some listing =>
      if listing.quantityRemaining < body.quantity then
        Program.throw (.business 409 "insufficient quantity remaining on listing")
      else do
        let createdAt ← now
        let payload : Payload := .purchaseSettled
          ⟨deriveId rt "pur" key, body.listingId, body.buyerId, body.quantity,
            toDouble (body.quantity * listing.priceStroops), createdAt⟩
        let _ ← submit key payload
        transaction (applyPurchase payload.asPurchase)
        pure ⟨201, .purchase payload.asPurchase⟩

/-- Store a purchase that was submitted before. -/
def reconcilePurchase (event : ChainEvent) : Action ExecuteResult := do
  transaction (applyPurchase event.payload.asPurchase)
  pure ⟨200, .purchase event.payload.asPurchase⟩

/-- Submit a retirement and store it. -/
def retire (rt : Runtime) (body : RetireBody) (key : String) : Action ExecuteResult := do
  let createdAt ← now
  let payload : Payload := .creditsRetired
    ⟨deriveId rt "ret" key, body.ownerId, body.creditBatchId, body.quantity, body.reason,
      createdAt⟩
  let _ ← submit key payload
  transaction (applyRetirement payload.asRetirement)
  pure ⟨201, .retirement payload.asRetirement⟩

/-- Store a retirement that was submitted before. -/
def reconcileRetirement (event : ChainEvent) : Action ExecuteResult := do
  transaction (applyRetirement event.payload.asRetirement)
  pure ⟨200, .retirement event.payload.asRetirement⟩

/-! ## Endpoints -/

/-- What an idempotent endpoint is made of. -/
structure IdempotentSpec (Body : Type) where
  endpoint : String
  validate : Option Json → Except String Body
  execute : Body → String → Action ExecuteResult
  reconcile : ChainEvent → Action ExecuteResult

/-- How listings are validated, executed and reconciled. -/
def listingsSpec (rt : Runtime) : IdempotentSpec CreateListingBody where
  endpoint := "POST /marketplace/listings"
  validate := validateCreateListing
  execute := createListing rt
  reconcile := reconcileListing

/-- How purchases are validated, executed and reconciled. -/
def purchasesSpec (rt : Runtime) : IdempotentSpec PurchaseBody where
  endpoint := "POST /marketplace/purchases"
  validate := validatePurchase
  execute := purchase rt
  reconcile := reconcilePurchase

/-- How retirements are validated, executed and reconciled. -/
def retireSpec (rt : Runtime) : IdempotentSpec RetireBody where
  endpoint := "POST /credits/retire"
  validate := validateRetire
  execute := retire rt
  reconcile := reconcileRetirement

/-- The endpoints that take an idempotency key. -/
inductive Endpoint where
  | listings
  | purchases
  | retire
deriving DecidableEq, Repr

/-- The statements with which an endpoint applies an event. -/
def applyAs : Endpoint → Payload → Sql Unit
  | .listings, payload => applyListing payload.asListing
  | .purchases, payload => applyPurchase payload.asPurchase
  | .retire, payload => applyRetirement payload.asRetirement

/-- What the services have in common: submit an event, apply it and answer. -/
def settle (endpoint : Endpoint) (key : String) (payload : Payload)
    (answer : Action ResponseBody) : Action ExecuteResult := do
  let _ ← submit key payload
  transaction (applyAs endpoint payload)
  let body ← answer
  pure ⟨201, body⟩

/-- The listing that is submitted for a body. -/
def CreateListingBody.payload (rt : Runtime) (body : CreateListingBody) (key : String)
    (createdAt : Int) : Payload :=
  .listingCreated ⟨deriveId rt "lst" key, body.sellerId, body.creditBatchId, body.quantity,
    body.priceStroops, createdAt⟩

/-- The purchase that is submitted for a body, at the price of the listing. -/
def PurchaseBody.payload (rt : Runtime) (body : PurchaseBody) (key : String) (row : ListingRow)
    (createdAt : Int) : Payload :=
  .purchaseSettled ⟨deriveId rt "pur" key, body.listingId, body.buyerId, body.quantity,
    toDouble (body.quantity * row.priceStroops), createdAt⟩

/-- The retirement that is submitted for a body. -/
def RetireBody.payload (rt : Runtime) (body : RetireBody) (key : String) (createdAt : Int) :
    Payload :=
  .creditsRetired ⟨deriveId rt "ret" key, body.ownerId, body.creditBatchId, body.quantity,
    body.reason, createdAt⟩

/-- A listing is settled at the time that is read first. -/
theorem createListing_eq (rt : Runtime) (body : CreateListingBody) (key : String) :
    createListing rt body key = now >>= fun createdAt =>
      settle .listings key (body.payload rt key createdAt)
        (listingBody (body.payload rt key createdAt).asListing) :=
  rfl

/-- A purchase is settled if the listing has enough credits. -/
theorem purchase_eq (rt : Runtime) (body : PurchaseBody) (key : String) :
    purchase rt body key = getListing body.listingId >>= fun listing =>
      match listing with
      | none => Program.throw (.business 404 "listing not found")
      | some listing =>
          if listing.quantityRemaining < body.quantity then
            Program.throw (.business 409 "insufficient quantity remaining on listing")
          else now >>= fun createdAt =>
            settle .purchases key (body.payload rt key listing createdAt)
              (pure (.purchase (body.payload rt key listing createdAt).asPurchase)) :=
  rfl

/-- A retirement is settled at the time that is read first. -/
theorem retire_eq (rt : Runtime) (body : RetireBody) (key : String) :
    retire rt body key = now >>= fun createdAt =>
      settle .retire key (body.payload rt key createdAt)
        (pure (.retirement (body.payload rt key createdAt).asRetirement)) :=
  rfl

/-- What the reconciliations have in common: apply an event again and answer. -/
def reapply (endpoint : Endpoint) (payload : Payload) (answer : Action ResponseBody) :
    Action ExecuteResult := do
  transaction (applyAs endpoint payload)
  let body ← answer
  pure ⟨200, body⟩

/-- A listing is applied again. -/
theorem reconcileListing_eq (event : ChainEvent) :
    reconcileListing event =
      reapply .listings event.payload (listingBody event.payload.asListing) :=
  rfl

/-- A purchase is applied again. -/
theorem reconcilePurchase_eq (event : ChainEvent) :
    reconcilePurchase event =
      reapply .purchases event.payload (pure (.purchase event.payload.asPurchase)) :=
  rfl

/-- A retirement is applied again. -/
theorem reconcileRetirement_eq (event : ChainEvent) :
    reconcileRetirement event =
      reapply .retire event.payload (pure (.retirement event.payload.asRetirement)) :=
  rfl

/-! ## What an execution leaves behind -/

/-- The status of the response to an exception. -/
def Thrown.status : Thrown → Nat
  | .business status _ => status
  | .database => 500

/-- A program has thrown one of its exceptions, or it has been stopped. -/
def Failed {α : Type} (allowed : Tick → Prop) : Exit Thrown α → Prop
  | .returned _ => False
  | .thrown e => e.status = 404 ∨ e.status = 409 ∨ e.status = 500
  | .stopped => ∃ fault, MayFault allowed fault

/-- A fault accounts for the end of a program, which is cut off if nothing has thrown. -/
def Blamed {α : Type} (allowed : Tick → Prop) (exit : Exit Thrown α) : Prop :=
  ∃ fault, MayFault allowed fault ∧ (fault = .stops → exit = .stopped)

/-- An exit is explained where something may throw. -/
theorem blamed_throws {α : Type} {allowed : Tick → Prop} {exit : Exit Thrown α}
    (h : MayFault allowed .throws) : Blamed allowed exit :=
  ⟨.throws, h, fun hstops => by cases hstops⟩

/-- A stop is explained where something may stop. -/
theorem blamed_stops {α : Type} {allowed : Tick → Prop} (h : MayFault allowed .stops) :
    Blamed allowed (.stopped : Exit Thrown α) :=
  ⟨.stops, h, fun _ => rfl⟩

/-- What accounts for the end of a program accounts for that of a longer one, cut off with it. -/
theorem Blamed.of_stopped {α β : Type} {allowed : Tick → Prop} {exit : Exit Thrown α}
    {exit' : Exit Thrown β} (h : Blamed allowed exit) (hexit : exit = .stopped → exit' = .stopped) :
    Blamed allowed exit' := by
  rcases h with ⟨fault, hmay, hstops⟩
  exact ⟨fault, hmay, fun hfault => hexit (hstops hfault)⟩

/-- A body reports the id, the quantity and the time of an event. -/
def ResponseBody.Reports (body : ResponseBody) (payload : Payload) : Prop :=
  (∃ remaining, body = .listing payload.asListing remaining) ∨
    body = .purchase payload.asPurchase ∨ body = .retirement payload.asRetirement

/-- What a request may submit under a key: a purchase only of what remains of a listing. -/
inductive NewPayload (rt : Runtime) (key : String) (body : Option Json) (d : Domain)
    (payload : Payload) : Endpoint → Prop
  | listing {b : CreateListingBody} {createdAt : Int} (hvalid : validateCreateListing body = .ok b)
      (hpayload : payload = b.payload rt key createdAt) :
      NewPayload rt key body d payload .listings
  | purchase {b : PurchaseBody} {row : ListingRow} {createdAt : Int}
      (hvalid : validatePurchase body = .ok b) (hrow : d.listings.get b.listingId = some row)
      (hstock : b.quantity ≤ row.quantityRemaining)
      (hpayload : payload = b.payload rt key row createdAt) :
      NewPayload rt key body d payload .purchases
  | retirement {b : RetireBody} {createdAt : Int} (hvalid : validateRetire body = .ok b)
      (hpayload : payload = b.payload rt key createdAt) :
      NewPayload rt key body d payload .retire

/-- An event that a request submits under a key. -/
structure Submission (rt : Runtime) (endpoint : Endpoint) (key : String) (body : Option Json)
    (db : Database) (time : Int) (ev : ChainEvent) : Prop where
  seq : ev.seq = db.chainEvents.length + 1
  dedupId : ev.dedupId = key
  payload : NewPayload rt key body db.domain ev.payload endpoint
  created : time ≤ ev.payload.createdAt
  submitted : ev.payload.createdAt ≤ ev.createdAt

/-- Where an execution can end: before its submission, after it, and after its transaction. -/
inductive ExecuteEnds (allowed : Tick → Prop) (rt : Runtime) (endpoint : Endpoint) (key : String)
    (body : Option Json) (w : World) : Exit Thrown ExecuteResult → World → Prop
  | unsubmitted {exit : Exit Thrown ExecuteResult} {w' : World} (hfailed : Failed allowed exit)
      (hdb : w'.store.db = w.store.db) (hclock : w.clock ≤ w'.clock) :
      ExecuteEnds allowed rt endpoint key body w exit w'
  | submitted {exit : Exit Thrown ExecuteResult} {w' : World} {ev : ChainEvent}
      (hfailed : Failed allowed exit) (hev : Submission rt endpoint key body w.store.db w.clock ev)
      (hdb : w'.store.db = w.store.db.withEvent ev) (hclock : ev.createdAt ≤ w'.clock) :
      ExecuteEnds allowed rt endpoint key body w exit w'
  | applied {exit : Exit Thrown ExecuteResult} {w' : World} {ev : ChainEvent} {domain : Domain}
      (hfailed : Failed allowed exit) (hev : Submission rt endpoint key body w.store.db w.clock ev)
      (happly : applyAs endpoint ev.payload () w.store.db.domain = .ok ((), domain))
      (hdb : w'.store.db = (w.store.db.withEvent ev).withDomain domain)
      (hclock : ev.createdAt ≤ w'.clock) (hfault : Blamed allowed exit) :
      ExecuteEnds allowed rt endpoint key body w exit w'
  | done {w' : World} {ev : ChainEvent} {domain : Domain} {response : ResponseBody}
      (hev : Submission rt endpoint key body w.store.db w.clock ev)
      (happly : applyAs endpoint ev.payload () w.store.db.domain = .ok ((), domain))
      (hdb : w'.store.db = (w.store.db.withEvent ev).withDomain domain)
      (hclock : ev.createdAt ≤ w'.clock) (hbody : response.Reports ev.payload) :
      ExecuteEnds allowed rt endpoint key body w (.returned ⟨201, response⟩) w'

variable {allowed : Tick → Prop} {rt : Runtime} {endpoint : Endpoint} {key : String}
  {body : Option Json}

/-- An execution that does not return has failed. -/
theorem ExecuteEnds.failed {w w' : World} {exit : Exit Thrown ExecuteResult}
    (h : ExecuteEnds allowed rt endpoint key body w exit w') (hreturned : ∀ r, exit ≠ .returned r) :
    Failed allowed exit := by
  cases h with
  | unsubmitted hfailed _ _ => exact hfailed
  | submitted hfailed _ _ _ => exact hfailed
  | applied hfailed _ _ _ _ _ => exact hfailed
  | done _ _ _ _ _ => exact absurd rfl (hreturned _)

/-- An error of the database is a failure. -/
theorem failed_database {α : Type} : Failed allowed (.thrown .database : Exit Thrown α) := by
  simp [Failed, Thrown.status]

/-- A submission appends one event, or fails without a change. -/
theorem submit_ensures (w : World) (payload : Payload) :
    (submit key payload).Ensures allowed w fun exit w' =>
      (Failed allowed exit ∧ w'.store.db = w.store.db ∧ w.clock ≤ w'.clock) ∨
      ∃ ev : ChainEvent, exit = .returned ev ∧ ev.seq = w.store.db.chainEvents.length + 1 ∧
        ev.dedupId = key ∧ ev.payload = payload ∧ w.clock ≤ ev.createdAt ∧
        w'.store.db = w.store.db.withEvent ev ∧ ev.createdAt ≤ w'.clock := by
  refine now_bind_ensures ?_ ?_ ?_
  · intro createdAt hcreated
    refine access_ensures ?_ ?_ ?_
    · intro clock hclock
      exact .inr ⟨_, rfl, rfl, rfl, rfl, hcreated, rfl, hclock⟩
    · intro clock hclock _
      exact .inl ⟨failed_database, rfl, hcreated.trans hclock⟩
    · intro clock hclock hmay
      exact .inl ⟨⟨_, hmay⟩, rfl, hcreated.trans hclock⟩
  · intro clock hclock _
    exact .inl ⟨failed_database, rfl, hclock⟩
  · intro clock hclock hmay
    exact .inl ⟨⟨_, hmay⟩, rfl, hclock⟩

/-- The transaction of an endpoint applies an event, or fails without a change. -/
theorem applyAs_ensures (w : World) (payload : Payload) :
    (transaction (applyAs endpoint payload)).Ensures allowed w fun exit w' =>
      (Failed allowed exit ∧ w'.store.db = w.store.db ∧ w.clock ≤ w'.clock) ∨
      ∃ domain, exit = .returned () ∧
        applyAs endpoint payload () w.store.db.domain = .ok ((), domain) ∧
        w'.store.db = w.store.db.withDomain domain ∧ w.clock ≤ w'.clock := by
  refine transaction_ensures ?_ ?_ ?_
  · intro domain failNext clock hclock happly
    exact .inr ⟨domain, rfl, happly, rfl, hclock⟩
  · intro failNext clock hclock
    exact .inl ⟨failed_database, rfl, hclock⟩
  · intro failNext clock hclock hmay
    exact .inl ⟨⟨_, hmay⟩, rfl, hclock⟩

/-- An answer about a payload reads the database at most, and can only fail by a fault. -/
def Answers (allowed : Tick → Prop) (answer : Action ResponseBody) (payload : Payload) : Prop :=
  ∀ w : World, answer.Ensures allowed w fun exit w' =>
    w'.store.db = w.store.db ∧ w.clock ≤ w'.clock ∧
      ((∃ body, exit = .returned body ∧ body.Reports payload) ∨
        Failed allowed exit ∧ Blamed allowed exit)

/-- A body that reports the payload answers for it. -/
theorem answers_pure {body : ResponseBody} {payload : Payload} (h : body.Reports payload) :
    Answers allowed (pure body) payload :=
  fun _ => Program.ensures_pure ⟨rfl, le_rfl, .inl ⟨body, rfl, h⟩⟩

/-- The body that is read for a listing answers for it. -/
theorem answers_listingBody (payload : Payload) :
    Answers allowed (listingBody payload.asListing) payload := by
  intro w
  refine access_bind_ensures ?_ ?_ ?_ ?_
  · intro row clock hclock _
    exact Program.ensures_pure ⟨rfl, hclock, .inl ⟨_, rfl, .inl ⟨_, rfl⟩⟩⟩
  · intro e clock _ h
    cases h
  · intro clock hclock hmay
    exact ⟨rfl, hclock, .inr ⟨failed_database, blamed_throws hmay⟩⟩
  · intro clock hclock hmay
    exact ⟨rfl, hclock, .inr ⟨⟨_, hmay⟩, blamed_stops hmay⟩⟩

/-- How settling a payload ends. -/
theorem settle_ensures {w₀ : World} {store : Store} {payload : Payload}
    {answer : Action ResponseBody} (hdb : store.db = w₀.store.db)
    (hclock : w₀.clock ≤ payload.createdAt)
    (hpayload : NewPayload rt key body w₀.store.db.domain payload endpoint)
    (hanswer : Answers allowed answer payload) :
    (settle endpoint key payload answer).Ensures allowed ⟨store, payload.createdAt⟩
      (ExecuteEnds allowed rt endpoint key body w₀) := by
  refine Program.Ensures.bind (submit_ensures _ payload) ?_ ?_ ?_
  · intro ev w₁ hsubmit
    rcases hsubmit with ⟨hfailed, -⟩ | ⟨ev, hexit, hseq, hdedupId, rfl, hcreated, hdb₁, hclock₁⟩
    · exact hfailed.elim
    · rw [Exit.returned.injEq] at hexit
      subst hexit
      rw [hdb] at hdb₁ hseq
      have hev : Submission rt endpoint key body w₀.store.db w₀.clock ev :=
        ⟨hseq, hdedupId, hpayload, hclock, hcreated⟩
      refine Program.Ensures.bind (applyAs_ensures w₁ ev.payload) ?_ ?_ ?_
      · intro _ w₂ h
        rcases h with ⟨hfailed, -⟩ | ⟨domain, -, happly, hdb₂, hclock₂⟩
        · exact hfailed.elim
        · rw [hdb₁] at happly hdb₂
          refine Program.Ensures.bind (hanswer w₂) ?_ ?_ ?_
          · intro body w₃ h
            rcases h with ⟨hdb₃, hclock₃, ⟨body', hexit, hreports⟩ | ⟨hfailed, -⟩⟩
            · rw [Exit.returned.injEq] at hexit
              subst hexit
              exact Program.ensures_pure (.done hev happly (hdb₃.trans hdb₂)
                (hclock₁.trans (hclock₂.trans hclock₃)) hreports)
            · exact hfailed.elim
          · intro e w₃ h
            rcases h with ⟨hdb₃, hclock₃, ⟨body', hexit, -⟩ | ⟨hfailed, hfault⟩⟩
            · cases hexit
            · exact .applied hfailed hev happly (hdb₃.trans hdb₂)
                (hclock₁.trans (hclock₂.trans hclock₃)) (hfault.of_stopped fun h => by cases h)
          · intro w₃ h
            rcases h with ⟨hdb₃, hclock₃, ⟨body', hexit, -⟩ | ⟨hfailed, hfault⟩⟩
            · cases hexit
            · exact .applied hfailed hev happly (hdb₃.trans hdb₂)
                (hclock₁.trans (hclock₂.trans hclock₃)) (hfault.of_stopped fun _ => rfl)
      · intro e w₂ h
        rcases h with ⟨hfailed, hdb₂, hclock₂⟩ | ⟨domain, hexit, -⟩
        · exact .submitted hfailed hev (hdb₂.trans hdb₁) (hclock₁.trans hclock₂)
        · cases hexit
      · intro w₂ h
        rcases h with ⟨hfailed, hdb₂, hclock₂⟩ | ⟨domain, hexit, -⟩
        · exact .submitted hfailed hev (hdb₂.trans hdb₁) (hclock₁.trans hclock₂)
        · cases hexit
  · intro e w₁ hsubmit
    rcases hsubmit with ⟨hfailed, hdb₁, hclock₁⟩ | ⟨ev, hexit, -⟩
    · exact .unsubmitted hfailed (hdb₁.trans hdb) (hclock.trans hclock₁)
    · cases hexit
  · intro w₁ hsubmit
    rcases hsubmit with ⟨hfailed, hdb₁, hclock₁⟩ | ⟨ev, hexit, -⟩
    · exact .unsubmitted hfailed (hdb₁.trans hdb) (hclock.trans hclock₁)
    · cases hexit

/-- How creating a listing ends. -/
theorem createListing_ensures (w : World) {b : CreateListingBody}
    (hvalid : validateCreateListing body = .ok b) :
    (createListing rt b key).Ensures allowed w (ExecuteEnds allowed rt .listings key body w) := by
  rw [createListing_eq]
  refine now_bind_ensures ?_ ?_ ?_
  · intro createdAt hcreated
    exact settle_ensures rfl hcreated (.listing hvalid rfl) (answers_listingBody _)
  · intro clock hclock _
    exact .unsubmitted failed_database rfl hclock
  · intro clock hclock hmay
    exact .unsubmitted ⟨_, hmay⟩ rfl hclock

/-- How a purchase ends. -/
theorem purchase_ensures (w : World) {b : PurchaseBody} (hvalid : validatePurchase body = .ok b) :
    (purchase rt b key).Ensures allowed w (ExecuteEnds allowed rt .purchases key body w) := by
  rw [purchase_eq]
  refine access_bind_ensures ?_ ?_ ?_ ?_
  · intro listing clock hclock hlisting
    rw [Except.ok.injEq] at hlisting
    subst hlisting
    cases hrow : w.store.db.domain.listings.get b.listingId with
    | none =>
        exact Program.ensures_throw (.unsubmitted (by simp [Failed, Thrown.status]) rfl hclock)
    | some row =>
        by_cases hstock : row.quantityRemaining < b.quantity
        · simp only [hstock, if_true]
          exact Program.ensures_throw (.unsubmitted (by simp [Failed, Thrown.status]) rfl hclock)
        · simp only [hstock, if_false]
          refine now_bind_ensures ?_ ?_ ?_
          · intro createdAt hcreated
            exact settle_ensures rfl (hclock.trans hcreated)
              (.purchase hvalid hrow (not_lt.mp hstock) rfl) (answers_pure (.inr (.inl rfl)))
          · intro clock' hclock' _
            exact .unsubmitted failed_database rfl (hclock.trans hclock')
          · intro clock' hclock' hmay
            exact .unsubmitted ⟨_, hmay⟩ rfl (hclock.trans hclock')
  · intro e clock _ h
    cases h
  · intro clock hclock _
    exact .unsubmitted failed_database rfl hclock
  · intro clock hclock hmay
    exact .unsubmitted ⟨_, hmay⟩ rfl hclock

/-- How a retirement ends. -/
theorem retire_ensures (w : World) {b : RetireBody} (hvalid : validateRetire body = .ok b) :
    (retire rt b key).Ensures allowed w (ExecuteEnds allowed rt .retire key body w) := by
  rw [retire_eq]
  refine now_bind_ensures ?_ ?_ ?_
  · intro createdAt hcreated
    exact settle_ensures rfl hcreated (.retirement hvalid rfl) (answers_pure (.inr (.inr rfl)))
  · intro clock hclock _
    exact .unsubmitted failed_database rfl hclock
  · intro clock hclock hmay
    exact .unsubmitted ⟨_, hmay⟩ rfl hclock

/-! ## What a reconciliation leaves behind -/

/-- Where a reconciliation can end: before its transaction, and after it. -/
inductive ReconcileEnds (allowed : Tick → Prop) (endpoint : Endpoint) (payload : Payload)
    (w : World) : Exit Thrown ExecuteResult → World → Prop
  | unapplied {exit : Exit Thrown ExecuteResult} {w' : World} (hfailed : Failed allowed exit)
      (hdb : w'.store.db = w.store.db) (hclock : w.clock ≤ w'.clock) :
      ReconcileEnds allowed endpoint payload w exit w'
  | applied {exit : Exit Thrown ExecuteResult} {w' : World} {domain : Domain}
      (hfailed : Failed allowed exit)
      (happly : applyAs endpoint payload () w.store.db.domain = .ok ((), domain))
      (hdb : w'.store.db = w.store.db.withDomain domain) (hclock : w.clock ≤ w'.clock)
      (hfault : Blamed allowed exit) :
      ReconcileEnds allowed endpoint payload w exit w'
  | done {w' : World} {domain : Domain} {body : ResponseBody}
      (happly : applyAs endpoint payload () w.store.db.domain = .ok ((), domain))
      (hdb : w'.store.db = w.store.db.withDomain domain) (hclock : w.clock ≤ w'.clock)
      (hbody : body.Reports payload) :
      ReconcileEnds allowed endpoint payload w (.returned ⟨200, body⟩) w'

/-- How applying a payload again ends. -/
theorem reapply_ensures {payload : Payload} {answer : Action ResponseBody} (w : World)
    (hanswer : Answers allowed answer payload) :
    (reapply endpoint payload answer).Ensures allowed w
      (ReconcileEnds allowed endpoint payload w) := by
  refine Program.Ensures.bind (applyAs_ensures w payload) ?_ ?_ ?_
  · intro _ w₁ h
    rcases h with ⟨hfailed, -⟩ | ⟨domain, -, happly, hdb₁, hclock₁⟩
    · exact hfailed.elim
    · refine Program.Ensures.bind (hanswer w₁) ?_ ?_ ?_
      · intro body w₂ h
        rcases h with ⟨hdb₂, hclock₂, ⟨body', hexit, hreports⟩ | ⟨hfailed, -⟩⟩
        · rw [Exit.returned.injEq] at hexit
          subst hexit
          exact Program.ensures_pure (.done happly (hdb₂.trans hdb₁) (hclock₁.trans hclock₂)
            hreports)
        · exact hfailed.elim
      · intro e w₂ h
        rcases h with ⟨hdb₂, hclock₂, ⟨body', hexit, -⟩ | ⟨hfailed, hfault⟩⟩
        · cases hexit
        · exact .applied hfailed happly (hdb₂.trans hdb₁) (hclock₁.trans hclock₂)
            (hfault.of_stopped fun h => by cases h)
      · intro w₂ h
        rcases h with ⟨hdb₂, hclock₂, ⟨body', hexit, -⟩ | ⟨hfailed, hfault⟩⟩
        · cases hexit
        · exact .applied hfailed happly (hdb₂.trans hdb₁) (hclock₁.trans hclock₂)
            (hfault.of_stopped fun _ => rfl)
  · intro e w₁ h
    rcases h with ⟨hfailed, hdb₁, hclock₁⟩ | ⟨domain, hexit, -⟩
    · exact .unapplied hfailed hdb₁ hclock₁
    · cases hexit
  · intro w₁ h
    rcases h with ⟨hfailed, hdb₁, hclock₁⟩ | ⟨domain, hexit, -⟩
    · exact .unapplied hfailed hdb₁ hclock₁
    · cases hexit

/-- A spec keeps to the ends of an execution and of a reconciliation. -/
structure SpecEnds (allowed : Tick → Prop) (rt : Runtime) (endpoint : Endpoint) {Body : Type}
    (spec : IdempotentSpec Body) : Prop where
  execute : ∀ request body key w, spec.validate request = .ok body →
    (spec.execute body key).Ensures allowed w (ExecuteEnds allowed rt endpoint key request w)
  reconcile : ∀ event w, (spec.reconcile event).Ensures allowed w
    (ReconcileEnds allowed endpoint event.payload w)

/-- How the service for listings ends. -/
theorem listingsSpec_ends : SpecEnds allowed rt .listings (listingsSpec rt) where
  execute _ _ _ w hvalid := createListing_ensures w hvalid
  reconcile event w := by
    change (reconcileListing event).Ensures allowed w _
    rw [reconcileListing_eq]
    exact reapply_ensures w (answers_listingBody _)

/-- How the service for purchases ends. -/
theorem purchasesSpec_ends : SpecEnds allowed rt .purchases (purchasesSpec rt) where
  execute _ _ _ w hvalid := purchase_ensures w hvalid
  reconcile event w := by
    change (reconcilePurchase event).Ensures allowed w _
    rw [reconcilePurchase_eq]
    exact reapply_ensures w (answers_pure (.inr (.inl rfl)))

/-- How the service for retirements ends. -/
theorem retireSpec_ends : SpecEnds allowed rt .retire (retireSpec rt) where
  execute _ _ _ w hvalid := retire_ensures w hvalid
  reconcile event w := by
    change (reconcileRetirement event).Ensures allowed w _
    rw [reconcileRetirement_eq]
    exact reapply_ensures w (answers_pure (.inr (.inr rfl)))

end Backend
end Kraal
