import Kraal.Backend.Json
import Kraal.Foundation.Call
import Kraal.Foundation.Program
import Kraal.Foundation.Rounding
import Kraal.Foundation.Storage

/-!
# The store of the backend

The database of the backend, the transactions on its domain tables and the simulated chain
that keeps its events in it.  A handler runs to its end before the next one starts, so it is a
program over the store and the clock.  Every access to the store takes some time and can be
where the database fails or the process stops.

A property that an event does not have is undefined, and the database binds it as a null
value, which most columns refuse.

Numbers are bound as doubles, so a subtraction in a statement is rounded to one.

Main results:

- Theorem {lit}`access_ensures`: what an access to the store can do.
- Theorem {lit}`transaction_ensures`: a transaction takes effect as a whole or not at all.
- Theorems {lit}`applyListing_eq_ok`, {lit}`applyPurchase_eq_ok` and
  {lit}`applyRetirement_eq_ok`: the effect of an event on the domain tables.

Current gaps:

- A response body is kept as it is: its way through a JSON text and back is not modelled.
- Doubles have no largest exponent: a total price beyond it is a number, where the runtime makes
  it infinite and writes a null value into the event.
-/

namespace Kraal
namespace Backend

open Foundation

/-! ## Numbers -/

/-- The double nearest to an integer, which is what arithmetic on doubles makes of it. -/
def toDouble (n : Int) : Int := roundInt 53 n

/-- A double holds every integer of at most 53 binary digits. -/
theorem toDouble_of_lt {n : Int} (h : n.natAbs < 2 ^ 53) : toDouble n = n :=
  roundInt_of_lt h

/-! ## Chain events -/

/-- What a listing submits to the chain. -/
structure ListingPayload where
  id : String
  sellerId : String
  creditBatchId : String
  quantity : Quantity
  priceStroops : Quantity
  createdAt : Int
deriving DecidableEq

/-- What a purchase submits to the chain. -/
structure PurchasePayload where
  id : String
  listingId : String
  buyerId : String
  quantity : Quantity
  totalPriceStroops : Int
  createdAt : Int
deriving DecidableEq

/-- What a retirement submits to the chain. -/
structure RetirementPayload where
  id : String
  ownerId : String
  creditBatchId : String
  quantity : Quantity
  reason : Option String
  createdAt : Int
deriving DecidableEq

/-- The payload of an event of one of the three types. -/
inductive Payload where
  | listingCreated (p : ListingPayload)
  | purchaseSettled (p : PurchasePayload)
  | creditsRetired (p : RetirementPayload)
deriving DecidableEq

/-- A submission as the chain records it. -/
structure ChainEvent where
  seq : Nat
  dedupId : String
  payload : Payload
  createdAt : Int
deriving DecidableEq

/-- The id of what is submitted. -/
def Payload.id : Payload → String
  | .listingCreated p => p.id
  | .purchaseSettled p => p.id
  | .creditsRetired p => p.id

/-- The quantity of what is submitted. -/
def Payload.quantity : Payload → Quantity
  | .listingCreated p => p.quantity
  | .purchaseSettled p => p.quantity
  | .creditsRetired p => p.quantity

/-- The time of what is submitted. -/
def Payload.createdAt : Payload → Int
  | .listingCreated p => p.createdAt
  | .purchaseSettled p => p.createdAt
  | .creditsRetired p => p.createdAt

/-! ## Payloads read as another type -/

/-- The properties of a listing, read from a payload of any type. -/
structure ListingFields where
  id : String
  sellerId : Option String
  creditBatchId : Option String
  quantity : Quantity
  priceStroops : Option Quantity
  createdAt : Int
deriving DecidableEq

/-- The properties of a purchase, read from a payload of any type. -/
structure PurchaseFields where
  id : String
  listingId : Option String
  buyerId : Option String
  quantity : Quantity
  totalPriceStroops : Option Int
  createdAt : Int
deriving DecidableEq

/-- The properties of a retirement, read from a payload of any type. -/
structure RetirementFields where
  id : String
  ownerId : Option String
  creditBatchId : Option String
  quantity : Quantity
  reason : Option String
  createdAt : Int
deriving DecidableEq

/-- What is submitted, read as a listing. -/
def Payload.asListing : Payload → ListingFields
  | .listingCreated p =>
      ⟨p.id, some p.sellerId, some p.creditBatchId, p.quantity, some p.priceStroops, p.createdAt⟩
  | .purchaseSettled p => ⟨p.id, none, none, p.quantity, none, p.createdAt⟩
  | .creditsRetired p => ⟨p.id, none, some p.creditBatchId, p.quantity, none, p.createdAt⟩

/-- What is submitted, read as a purchase. -/
def Payload.asPurchase : Payload → PurchaseFields
  | .listingCreated p => ⟨p.id, none, none, p.quantity, none, p.createdAt⟩
  | .purchaseSettled p =>
      ⟨p.id, some p.listingId, some p.buyerId, p.quantity, some p.totalPriceStroops, p.createdAt⟩
  | .creditsRetired p => ⟨p.id, none, none, p.quantity, none, p.createdAt⟩

/-- What is submitted, read as a retirement. -/
def Payload.asRetirement : Payload → RetirementFields
  | .listingCreated p => ⟨p.id, none, some p.creditBatchId, p.quantity, none, p.createdAt⟩
  | .purchaseSettled p => ⟨p.id, none, none, p.quantity, none, p.createdAt⟩
  | .creditsRetired p =>
      ⟨p.id, some p.ownerId, some p.creditBatchId, p.quantity, p.reason, p.createdAt⟩

/-! ## Tables -/

/-- A listing as it is stored. -/
structure ListingRow where
  id : String
  sellerId : String
  creditBatchId : String
  quantityTotal : Quantity
  quantityRemaining : Int
  priceStroops : Quantity
  createdAt : Int
deriving DecidableEq

/-- A purchase as it is stored. -/
structure PurchaseRow where
  id : String
  listingId : String
  buyerId : String
  quantity : Quantity
  totalPriceStroops : Int
  createdAt : Int
deriving DecidableEq

/-- A retirement as it is stored. -/
structure RetirementRow where
  id : String
  ownerId : String
  creditBatchId : String
  quantity : Quantity
  reason : Option String
  createdAt : Int
deriving DecidableEq

/-- The body of a response: an error, or the fields of the operation. -/
inductive ResponseBody where
  | error (message : String)
  | listing (p : ListingFields) (quantityRemaining : Int)
  | purchase (p : PurchaseFields)
  | retirement (p : RetirementFields)
deriving DecidableEq

/-- How far the request of a record has come. -/
inductive RecordStatus where
  | inProgress
  | completed
deriving DecidableEq, Repr

/-- A request that was made under a key, with its response once it is completed. -/
structure IdempotencyRecord where
  key : String
  fingerprint : String
  endpoint : String
  status : RecordStatus
  responseStatus : Option Nat
  responseBody : Option ResponseBody
  createdAt : Int
  expiresAt : Int
deriving DecidableEq

/-- The tables that a domain transaction writes. -/
structure Domain where
  listings : Storage String ListingRow
  purchases : Storage String PurchaseRow
  retirements : Storage String RetirementRow

/-- The database: the records, the domain tables and the events of the simulated chain. -/
structure Database where
  records : Storage String IdempotencyRecord
  domain : Domain
  chainEvents : List ChainEvent

/-- The store, with the switch that makes the next transaction fail. -/
structure Store where
  db : Database
  failNext : Bool

/-- The tables before the first request. -/
def Domain.empty : Domain := ⟨Storage.empty, Storage.empty, Storage.empty⟩

/-- The database before the first request. -/
def Database.empty : Database := ⟨Storage.empty, Domain.empty, []⟩

/-- The store before the first request. -/
def Store.empty : Store := ⟨Database.empty, false⟩

/-- Write the database. -/
def Store.withDb (s : Store) (db : Database) : Store := { s with db := db }

/-- Write the domain tables of a database. -/
def Database.withDomain (db : Database) (domain : Domain) : Database := { db with domain := domain }

/-- Write the records of a database. -/
def Database.withRecords (db : Database) (records : Storage String IdempotencyRecord) : Database :=
  { db with records := records }

/-- Append an event. -/
def Database.withEvent (db : Database) (ev : ChainEvent) : Database :=
  { db with chainEvents := db.chainEvents ++ [ev] }

/-- Write one listing row. -/
def Domain.withListing (d : Domain) (row : ListingRow) : Domain :=
  { d with listings := d.listings.set row.id row }

/-- Write one purchase row. -/
def Domain.withPurchase (d : Domain) (row : PurchaseRow) : Domain :=
  { d with purchases := d.purchases.set row.id row }

/-- Write one retirement row. -/
def Domain.withRetirement (d : Domain) (row : RetirementRow) : Domain :=
  { d with retirements := d.retirements.set row.id row }

/-- Take a quantity from what remains of a listing, if there is one with that id. -/
def Domain.decrement (d : Domain) (listingId : String) (quantity : Quantity) : Domain :=
  match d.listings.get listingId with
  | some row => { d with
      listings := d.listings.set listingId
        { row with quantityRemaining := toDouble (row.quantityRemaining - quantity) } }
  | none => d

/-! ## Domain statements -/

/-- Why the database refuses a row. -/
inductive SqlError where
  | notNull
  | primaryKey
  | foreignKey
deriving DecidableEq, Repr

/-- Statements on the domain tables, all of which are undone if one of them fails. -/
abbrev Sql (α : Type) : Type := Call Unit Domain SqlError α

/-- A value for a column that takes no null value. -/
def notNull {α : Type} (value : Option α) : Sql α := Call.okOr value .notNull

/-- Read a listing. -/
def selectListing (id : String) : Sql (Option ListingRow) := do
  let s ← Call.get
  pure (s.listings.get id)

/-- Read a purchase. -/
def selectPurchase (id : String) : Sql (Option PurchaseRow) := do
  let s ← Call.get
  pure (s.purchases.get id)

/-- Write a listing, in place of a listing with its id. -/
def upsertListing (p : ListingFields) (quantityRemaining : Int) : Sql Unit := do
  let sellerId ← notNull p.sellerId
  let creditBatchId ← notNull p.creditBatchId
  let priceStroops ← notNull p.priceStroops
  let s ← Call.get
  Call.put (s.withListing
    ⟨p.id, sellerId, creditBatchId, p.quantity, quantityRemaining, priceStroops, p.createdAt⟩)

/-- Insert a purchase of a listing that exists. -/
def insertPurchase (p : PurchaseFields) : Sql Unit := do
  let listingId ← notNull p.listingId
  let buyerId ← notNull p.buyerId
  let totalPriceStroops ← notNull p.totalPriceStroops
  let s ← Call.get
  Call.failIf (s.purchases.has p.id) .primaryKey
  Call.failIf (s.listings.has listingId = false) .foreignKey
  Call.put (s.withPurchase
    ⟨p.id, listingId, buyerId, p.quantity, totalPriceStroops, p.createdAt⟩)

/-- Subtract a quantity from a listing, if there is an id to look for. -/
def decrementListing (listingId : Option String) (quantity : Quantity) : Sql Unit :=
  match listingId with
  | some listingId => Call.modify fun s => s.decrement listingId quantity
  | none => pure ()

/-- Insert a retirement, unless the database refuses the row. -/
def insertRetirementIfAbsent (p : RetirementFields) : Sql Unit := do
  let s ← Call.get
  match p.ownerId, p.creditBatchId with
  | some ownerId, some creditBatchId =>
      if s.retirements.has p.id then pure ()
      else Call.put (s.withRetirement
        ⟨p.id, ownerId, creditBatchId, p.quantity, p.reason, p.createdAt⟩)
  | _, _ => pure ()

/-! ## The effect of an event -/

/-- Write the listing of an event.  What has been sold of it is preserved. -/
def applyListing (p : ListingFields) : Sql Unit := do
  let existing ← selectListing p.id
  upsertListing p ((existing.map ListingRow.quantityRemaining).getD p.quantity)

/-- Write the purchase of an event and take its quantity from the listing, once. -/
def applyPurchase (p : PurchaseFields) : Sql Unit := do
  let existing ← selectPurchase p.id
  if existing.isSome then pure ()
  else do
    insertPurchase p
    decrementListing p.listingId p.quantity

/-- Write the retirement of an event, once. -/
def applyRetirement (p : RetirementFields) : Sql Unit := insertRetirementIfAbsent p

/-- The row of a listing of which the given quantity remains. -/
def ListingPayload.row (p : ListingPayload) (quantityRemaining : Int) : ListingRow :=
  ⟨p.id, p.sellerId, p.creditBatchId, p.quantity, quantityRemaining, p.priceStroops, p.createdAt⟩

/-- The row of a purchase. -/
def PurchasePayload.row (p : PurchasePayload) : PurchaseRow :=
  ⟨p.id, p.listingId, p.buyerId, p.quantity, p.totalPriceStroops, p.createdAt⟩

/-- The row of a retirement. -/
def RetirementPayload.row (p : RetirementPayload) : RetirementRow :=
  ⟨p.id, p.ownerId, p.creditBatchId, p.quantity, p.reason, p.createdAt⟩

/-- What remains of a listing when its event is applied. -/
def Domain.remaining (d : Domain) (p : ListingPayload) : Int :=
  ((d.listings.get p.id).map ListingRow.quantityRemaining).getD p.quantity

/-- The database takes a listing from the event of a listing only. -/
theorem applyListing_eq_ok {payload : Payload} {d d' : Domain} :
    applyListing payload.asListing () d = .ok ((), d') ↔
      ∃ p, payload = .listingCreated p ∧ d' = d.withListing (p.row (d.remaining p)) := by
  cases payload with
  | listingCreated p =>
      simp [applyListing, selectListing, upsertListing, notNull, Payload.asListing,
        ListingPayload.row, Domain.remaining]
  | purchaseSettled p =>
      simp [applyListing, selectListing, upsertListing, notNull, Payload.asListing]
  | creditsRetired p =>
      simp [applyListing, selectListing, upsertListing, notNull, Payload.asListing]

/-- The database takes a purchase from the event of a purchase only, once. -/
theorem applyPurchase_eq_ok {payload : Payload} {d d' : Domain} :
    applyPurchase payload.asPurchase () d = .ok ((), d') ↔
      (d.purchases.get payload.id).isSome = true ∧ d' = d ∨
      ∃ p, payload = .purchaseSettled p ∧ d.purchases.get p.id = none ∧
        (d.listings.get p.listingId).isSome = true ∧
        d' = (d.withPurchase p.row).decrement p.listingId p.quantity := by
  cases hstored : d.purchases.get payload.id with
  | some row =>
      have hid : payload.asPurchase.id = payload.id := by cases payload <;> rfl
      simp only [applyPurchase, selectPurchase, Call.bind_eq_ok, Call.get_eq_ok, Call.pure_eq_ok,
        Prod.mk.injEq, ↓existsAndEq, true_and, hid, hstored, Option.isSome_some, if_true]
      constructor
      · intro hsame
        exact .inl hsame
      · intro h
        rcases h with hsame | ⟨p, rfl, hnone, -⟩
        · exact hsame
        · rw [Payload.id, hnone] at hstored
          cases hstored
  | none =>
      cases payload with
      | listingCreated p =>
          change d.purchases.get p.id = none at hstored
          simp [applyPurchase, selectPurchase, insertPurchase, notNull, Payload.asPurchase, hstored]
      | purchaseSettled p =>
          change d.purchases.get p.id = none at hstored
          simp [applyPurchase, selectPurchase, insertPurchase, notNull, Payload.asPurchase, hstored,
            decrementListing, PurchasePayload.row, Storage.has, ← Option.isSome_iff_ne_none]
      | creditsRetired p =>
          change d.purchases.get p.id = none at hstored
          simp [applyPurchase, selectPurchase, insertPurchase, notNull, Payload.asPurchase, hstored]

/-- The database takes a retirement from the event of a retirement only, once, and ignores
every other event. -/
theorem applyRetirement_eq_ok {payload : Payload} {d d' : Domain} :
    applyRetirement payload.asRetirement () d = .ok ((), d') ↔
      (∃ p, payload = .creditsRetired p ∧ d.retirements.get p.id = none ∧
        d' = d.withRetirement p.row) ∨
      (∀ p, payload = .creditsRetired p → (d.retirements.get p.id).isSome = true) ∧ d' = d := by
  cases payload with
  | listingCreated p => simp [applyRetirement, insertRetirementIfAbsent, Payload.asRetirement]
  | purchaseSettled p => simp [applyRetirement, insertRetirementIfAbsent, Payload.asRetirement]
  | creditsRetired p =>
      cases hstored : d.retirements.get p.id with
      | some row =>
          simp [applyRetirement, insertRetirementIfAbsent, Payload.asRetirement, hstored,
            Storage.has]
      | none =>
          simp [applyRetirement, insertRetirementIfAbsent, Payload.asRetirement, hstored,
            Storage.has, RetirementPayload.row]

/-! ## Accesses -/

/-- An exception: a rejection by a business rule, or a failure of the database. -/
inductive Thrown where
  | business (status : Nat) (message : String)
  | database
deriving DecidableEq, Repr

/-- How an access can go wrong: the database throws, or the process stops before it. -/
inductive AccessFault where
  | throws
  | stops
deriving DecidableEq, Repr

/-- What happens at an access: time passes, and something may go wrong. -/
structure Tick where
  elapsed : Nat
  fault : Option AccessFault
deriving DecidableEq, Repr

/-- Nothing goes wrong at an access. -/
def Tick.Undisturbed (tick : Tick) : Prop :=
  tick.fault = none

/-- The store and the clock, in seconds. -/
structure World where
  store : Store
  clock : Int

/-- The part of a handler. -/
abbrev Action (α : Type) : Type := Program Tick World Thrown α

/-- The world some time later. -/
def World.later (w : World) (elapsed : Nat) : World := { w with clock := w.clock + elapsed }

/-- One access to the store. -/
def access {α : Type} (f : Store → Except Thrown α × Store) : Action α := do
  let tick ← Program.next
  let w ← Program.get
  Program.put (w.later (tick.elim 0 Tick.elapsed))
  match tick.bind Tick.fault with
  | some .throws => Program.throw .database
  | some .stops => Program.stop
  | none =>
      let w ← Program.get
      Program.put { w with store := (f w.store).2 }
      Program.ofExcept (f w.store).1

/-- Read the clock. -/
def now : Action Int := do
  access fun s => (.ok (), s)
  let w ← Program.get
  pure w.clock

/-- Run statements on the domain tables as one transaction. -/
def transaction (fn : Sql Unit) : Action Unit := do
  let w ← Program.get
  if w.store.failNext then do
    Program.put { w with store := { w.store with failNext := false } }
    Program.throw .database
  else
    access fun s => match fn () s.db.domain with
      | .ok ((), domain) => (.ok (), s.withDb (s.db.withDomain domain))
      | .error _ => (.error .database, s)

/-! ## What an access can do -/

variable {allowed : Tick → Prop} {α : Type}

/-- Something of a kind may go wrong. -/
def MayFault (allowed : Tick → Prop) (fault : AccessFault) : Prop :=
  ∃ tick, allowed tick ∧ tick.fault = some fault

theorem not_mayFault_undisturbed {fault : AccessFault} : ¬ MayFault Tick.Undisturbed fault := by
  intro h
  rcases h with ⟨tick, hundisturbed, hfault⟩
  rw [hundisturbed] at hfault
  cases hfault

/-- An access takes effect, or it fails and leaves the store as it was. -/
theorem access_ensures {f : Store → Except Thrown α × Store} {w : World}
    {Q : Exit Thrown α → World → Prop}
    (hdone : ∀ clock, w.clock ≤ clock → Q (.ofExcept (f w.store).1) ⟨(f w.store).2, clock⟩)
    (hthrows : ∀ clock, w.clock ≤ clock → MayFault allowed .throws →
      Q (.thrown .database) ⟨w.store, clock⟩)
    (hstops : ∀ clock, w.clock ≤ clock → MayFault allowed .stops → Q .stopped ⟨w.store, clock⟩) :
    (access f).Ensures allowed w Q := by
  have helapsed : ∀ n : Nat, w.clock ≤ (w.later n).clock := fun n => by simp [World.later]
  refine Program.Ensures.bind (R := fun exit w' => w' = w ∧
    ∃ tick, exit = .returned tick ∧ ∀ entry, tick = some entry → allowed entry)
    (Program.ensures_next ?_ ?_) ?_ ?_ ?_
  · exact ⟨rfl, none, rfl, fun _ h => by cases h⟩
  · intro entry hentry
    refine ⟨rfl, some entry, rfl, ?_⟩
    intro other hother
    cases hother
    exact hentry
  · intro tick w' h
    rcases h with ⟨rfl, entry, hentry, htick⟩
    rw [Exit.returned.injEq] at hentry
    subst hentry
    refine Program.Ensures.bind_get (Program.Ensures.bind_put ?_)
    cases hfault : tick.bind Tick.fault with
    | none => exact Program.ensures_ofExcept (hdone _ (helapsed _))
    | some fault =>
        rcases Option.bind_eq_some_iff.mp hfault with ⟨entry, hentry, hentryFault⟩
        have hmay : MayFault allowed fault := ⟨entry, htick entry hentry, hentryFault⟩
        cases fault with
        | throws => exact Program.ensures_throw (hthrows _ (helapsed _) hmay)
        | stops => exact Program.ensures_stop (hstops _ (helapsed _) hmay)
  · intro e w' h
    rcases h with ⟨-, tick, h, -⟩
    cases h
  · intro w' h
    rcases h with ⟨-, tick, h, -⟩
    cases h

/-- The rule for an access that is followed by more. -/
theorem access_bind_ensures {β : Type} {f : Store → Except Thrown α × Store} {g : α → Action β}
    {w : World} {Q : Exit Thrown β → World → Prop}
    (hok : ∀ a clock, w.clock ≤ clock → (f w.store).1 = .ok a →
      (g a).Ensures allowed ⟨(f w.store).2, clock⟩ Q)
    (herror : ∀ e clock, w.clock ≤ clock → (f w.store).1 = .error e →
      Q (.thrown e) ⟨(f w.store).2, clock⟩)
    (hthrows : ∀ clock, w.clock ≤ clock → MayFault allowed .throws →
      Q (.thrown .database) ⟨w.store, clock⟩)
    (hstops : ∀ clock, w.clock ≤ clock → MayFault allowed .stops → Q .stopped ⟨w.store, clock⟩) :
    (access f >>= g).Ensures allowed w Q := by
  refine Program.Ensures.bind (R := fun exit w' =>
    (exit = .ofExcept (f w.store).1 ∧ w'.store = (f w.store).2 ∧ w.clock ≤ w'.clock) ∨
    (exit = .thrown .database ∧ w'.store = w.store ∧ w.clock ≤ w'.clock ∧
      MayFault allowed .throws) ∨
    (exit = .stopped ∧ w'.store = w.store ∧ w.clock ≤ w'.clock ∧ MayFault allowed .stops))
    (access_ensures ?_ ?_ ?_) ?_ ?_ ?_
  · intro clock hclock
    exact .inl ⟨rfl, rfl, hclock⟩
  · intro clock hclock hmay
    exact .inr (.inl ⟨rfl, rfl, hclock, hmay⟩)
  · intro clock hclock hmay
    exact .inr (.inr ⟨rfl, rfl, hclock, hmay⟩)
  · intro a w' h
    rcases w' with ⟨store, clock⟩
    rcases h with ⟨hexit, rfl, hclock⟩ | ⟨hexit, -⟩ | ⟨hexit, -⟩
    · cases hresult : (f w.store).1 with
      | ok a' =>
          rw [hresult] at hexit
          cases hexit
          exact hok a clock hclock hresult
      | error e =>
          rw [hresult] at hexit
          cases hexit
    · cases hexit
    · cases hexit
  · intro e w' h
    rcases w' with ⟨store, clock⟩
    rcases h with ⟨hexit, rfl, hclock⟩ | ⟨hexit, rfl, hclock, hmay⟩ | ⟨hexit, -⟩
    · cases hresult : (f w.store).1 with
      | ok a' =>
          rw [hresult] at hexit
          cases hexit
      | error e' =>
          rw [hresult] at hexit
          cases hexit
          exact herror e clock hclock hresult
    · cases hexit
      exact hthrows clock hclock hmay
    · cases hexit
  · intro w' h
    rcases w' with ⟨store, clock⟩
    rcases h with ⟨hexit, -⟩ | ⟨hexit, -⟩ | ⟨-, rfl, hclock, hmay⟩
    · cases hresult : (f w.store).1 with
      | ok a' =>
          rw [hresult] at hexit
          cases hexit
      | error e' =>
          rw [hresult] at hexit
          cases hexit
    · cases hexit
    · exact hstops clock hclock hmay

/-- Time passes while the clock is read, and the store stays as it is. -/
theorem now_bind_ensures {β : Type} {g : Int → Action β} {w : World}
    {Q : Exit Thrown β → World → Prop}
    (hok : ∀ clock, w.clock ≤ clock → (g clock).Ensures allowed ⟨w.store, clock⟩ Q)
    (hthrows : ∀ clock, w.clock ≤ clock → MayFault allowed .throws →
      Q (.thrown .database) ⟨w.store, clock⟩)
    (hstops : ∀ clock, w.clock ≤ clock → MayFault allowed .stops → Q .stopped ⟨w.store, clock⟩) :
    (now >>= g).Ensures allowed w Q := by
  have hassoc : now >>= g = access (fun s => (.ok (), s)) >>= fun _ =>
      Program.get >>= fun w => g w.clock := by
    funext script w
    simp only [now, Program.bind_apply]
    cases access (fun s => (Except.ok (), s)) script w with
    | mk exit rest => cases exit <;> rfl
  rw [hassoc]
  refine access_bind_ensures ?_ ?_ hthrows hstops
  · intro _ clock hclock _
    exact Program.Ensures.bind_get (hok clock hclock)
  · intro e clock _ h
    cases h

/-- A transaction takes effect as a whole, or it fails and leaves the database as it was. -/
theorem transaction_ensures {fn : Sql Unit} {w : World} {Q : Exit Thrown Unit → World → Prop}
    (hdone : ∀ domain failNext clock, w.clock ≤ clock →
      fn () w.store.db.domain = .ok ((), domain) →
      Q (.returned ()) ⟨⟨w.store.db.withDomain domain, failNext⟩, clock⟩)
    (hthrows : ∀ failNext clock, w.clock ≤ clock →
      Q (.thrown .database) ⟨⟨w.store.db, failNext⟩, clock⟩)
    (hstops : ∀ failNext clock, w.clock ≤ clock → MayFault allowed .stops →
      Q .stopped ⟨⟨w.store.db, failNext⟩, clock⟩) :
    (transaction fn).Ensures allowed w Q := by
  refine Program.Ensures.bind_get ?_
  split
  · exact Program.Ensures.bind_put (Program.ensures_throw (hthrows _ _ le_rfl))
  · refine access_ensures ?_ ?_ ?_
    · intro clock hclock
      cases hfn : fn () w.store.db.domain with
      | ok result => exact hdone result.2 _ clock hclock hfn
      | error e => exact hthrows _ clock hclock
    · intro clock hclock _
      exact hthrows _ clock hclock
    · intro clock hclock hmay
      exact hstops _ clock hclock hmay

end Backend
end Kraal
