import Kraal.Backend.Submission

/-!
# The effects of events on the tables

Applying an event writes a row, or finds one under its id and skips the event.  A row that is
written stays, except that a listing with the same id writes over a listing and that purchases
take from what remains of it.

Main results:

- Theorem {lit}`applyAs_cases`: everything that applying an event can do.
- Theorems {lit}`present_apply` and {lit}`compatible_apply`: the row of an event stays, and its
  place stays free.
- Theorem {lit}`accounted_step`: as long as nothing is rounded, what remains of a listing is what
  one of its events put there, less what is sold of it.
-/

namespace Kraal
namespace Backend

open Foundation

/-! ## Types of events -/

/-- The endpoint that submits events of the type of a payload. -/
def Payload.endpoint : Payload → Endpoint
  | .listingCreated _ => .listings
  | .purchaseSettled _ => .purchases
  | .creditsRetired _ => .retire

/-- The kind of thing that the ids of an endpoint are derived for. -/
def Endpoint.kind : Endpoint → String
  | .listings => "lst"
  | .purchases => "pur"
  | .retire => "ret"

variable {cfg : AppConfig} {rt : Runtime} {endpoint : Endpoint} {payload : Payload} {d d' : Domain}

/-- A request submits an event of the type of its endpoint, under the id derived from its key. -/
theorem NewPayload.identified {key : String} {body : Option Json}
    (h : NewPayload rt key body d payload endpoint) :
    payload.endpoint = endpoint ∧ payload.id = deriveId rt endpoint.kind key := by
  cases h with
  | listing _ hpayload =>
      subst hpayload
      exact ⟨rfl, rfl⟩
  | purchase _ _ _ hpayload =>
      subst hpayload
      exact ⟨rfl, rfl⟩
  | retirement _ hpayload =>
      subst hpayload
      exact ⟨rfl, rfl⟩

/-! ## What applying an event does -/

/-- Why an event is skipped: its id is taken, or it is not a retirement. -/
def Skipped (d : Domain) (payload : Payload) : Endpoint → Prop
  | .listings => False
  | .purchases => (d.purchases.get payload.id).isSome = true
  | .retire => ∀ p, payload = .creditsRetired p → (d.retirements.get p.id).isSome = true

/-- Everything that applying an event can do. -/
theorem applyAs_cases (h : applyAs endpoint payload () d = .ok ((), d')) :
    (d' = d ∧ Skipped d payload endpoint) ∨
    (∃ p, payload = .listingCreated p ∧ endpoint = .listings ∧
      d' = d.withListing (p.row (d.remaining p))) ∨
    (∃ p, payload = .purchaseSettled p ∧ endpoint = .purchases ∧ d.purchases.get p.id = none ∧
      (d.listings.get p.listingId).isSome = true ∧
      d' = (d.withPurchase p.row).decrement p.listingId p.quantity) ∨
    ∃ p, payload = .creditsRetired p ∧ endpoint = .retire ∧ d.retirements.get p.id = none ∧
      d' = d.withRetirement p.row := by
  cases endpoint with
  | listings =>
      rcases applyListing_eq_ok.mp h with ⟨p, hp, hd⟩
      exact .inr (.inl ⟨p, hp, rfl, hd⟩)
  | purchases =>
      rcases applyPurchase_eq_ok.mp h with ⟨hstored, hd⟩ | ⟨p, hp, hfresh, hlisting, hd⟩
      · exact .inl ⟨hd, hstored⟩
      · exact .inr (.inr (.inl ⟨p, hp, rfl, hfresh, hlisting, hd⟩))
  | retire =>
      rcases applyRetirement_eq_ok.mp h with ⟨p, hp, hfresh, hd⟩ | ⟨hstored, hd⟩
      · exact .inr (.inr (.inr ⟨p, hp, rfl, hfresh, hd⟩))
      · exact .inl ⟨hd, hstored⟩

/-- An event that is not skipped is applied at the endpoint of its type. -/
theorem endpoint_of_not_skipped (h : ¬ Skipped d payload endpoint)
    (happly : applyAs endpoint payload () d = .ok ((), d')) :
    payload.endpoint = endpoint := by
  rcases applyAs_cases happly with ⟨-, hskipped⟩ | ⟨p, rfl, rfl, -⟩ | ⟨p, rfl, rfl, -⟩ |
    ⟨p, rfl, rfl, -⟩
  · exact absurd hskipped h
  · rfl
  · rfl
  · rfl

/-- The listings after a quantity is taken from one of them. -/
theorem get_decrement (d : Domain) (listingId : String) (quantity : Quantity) (id : String) :
    (d.decrement listingId quantity).listings.get id =
      (d.listings.get id).map fun row =>
        if id = listingId then
          { row with quantityRemaining := toDouble (row.quantityRemaining - quantity) }
        else row := by
  unfold Domain.decrement
  by_cases hid : id = listingId
  · subst hid
    cases hrow : d.listings.get id with
    | none => simp [hrow]
    | some row => simp
  · cases hrow : d.listings.get listingId with
    | none => simp [hid]
    | some row => simp [hid, Storage.get_set_of_ne _ _ hid]

theorem purchases_decrement (d : Domain) (listingId : String) (quantity : Quantity) :
    (d.decrement listingId quantity).purchases = d.purchases := by
  unfold Domain.decrement
  cases d.listings.get listingId with
  | none => rfl
  | some row => rfl

theorem retirements_decrement (d : Domain) (listingId : String) (quantity : Quantity) :
    (d.decrement listingId quantity).retirements = d.retirements := by
  unfold Domain.decrement
  cases d.listings.get listingId with
  | none => rfl
  | some row => rfl

/-! ## The row of an event -/

/-- The effect of an event is in the tables. -/
def Present (d : Domain) : Payload → Prop
  | .listingCreated p => ∃ remaining, d.listings.get p.id = some (p.row remaining)
  | .purchaseSettled p => d.purchases.get p.id = some p.row
  | .creditsRetired p => d.retirements.get p.id = some p.row

/-- No other row stands under the id of an event. -/
def Compatible (d : Domain) : Payload → Prop
  | .listingCreated _ => True
  | .purchaseSettled p => ∀ row, d.purchases.get p.id = some row → row = p.row
  | .creditsRetired p => ∀ row, d.retirements.get p.id = some row → row = p.row

/-- No row stands under an id in the table of an endpoint. -/
def Vacant (d : Domain) (id : String) : Endpoint → Prop
  | .listings => d.listings.get id = none
  | .purchases => d.purchases.get id = none
  | .retire => d.retirements.get id = none

theorem Present.compatible (h : Present d payload) : Compatible d payload := by
  cases payload with
  | listingCreated p => trivial
  | purchaseSettled p =>
      intro row hrow
      rw [h, Option.some.injEq] at hrow
      exact hrow.symm
  | creditsRetired p =>
      intro row hrow
      rw [h, Option.some.injEq] at hrow
      exact hrow.symm

/-- The place of an event is free if its id is. -/
theorem compatible_of_vacant (h : payload.endpoint ≠ .listings →
    Vacant d payload.id payload.endpoint) : Compatible d payload := by
  cases payload with
  | listingCreated p => trivial
  | purchaseSettled p =>
      intro row hrow
      have hnone : d.purchases.get p.id = none := h (by simp [Payload.endpoint])
      rw [hnone] at hrow
      cases hrow
  | creditsRetired p =>
      intro row hrow
      have hnone : d.retirements.get p.id = none := h (by simp [Payload.endpoint])
      rw [hnone] at hrow
      cases hrow

/-- An event whose effect is in the tables has taken its id. -/
theorem Present.not_vacant (h : Present d payload) : ¬ Vacant d payload.id payload.endpoint := by
  intro hvacant
  cases payload with
  | listingCreated p =>
      rcases h with ⟨remaining, hrow⟩
      rw [Payload.endpoint, Vacant, Payload.id, hrow] at hvacant
      cases hvacant
  | purchaseSettled p =>
      rw [Payload.endpoint, Vacant, Payload.id, h] at hvacant
      cases hvacant
  | creditsRetired p =>
      rw [Payload.endpoint, Vacant, Payload.id, h] at hvacant
      cases hvacant

/-- Two events whose rows stand under one id are one. -/
theorem Present.unique {other : Payload} (h : Present d payload) (hother : Present d other)
    (hendpoint : other.endpoint = payload.endpoint) (hid : other.id = payload.id) :
    other = payload := by
  cases payload with
  | listingCreated p =>
      cases other with
      | listingCreated q =>
          rcases h with ⟨remaining, hrow⟩
          rcases hother with ⟨remaining', hrow'⟩
          have hid' : q.id = p.id := hid
          rw [hid', hrow, Option.some.injEq] at hrow'
          cases p
          cases q
          cases hrow'
          rfl
      | purchaseSettled q => cases hendpoint
      | creditsRetired q => cases hendpoint
  | purchaseSettled p =>
      cases other with
      | listingCreated q => cases hendpoint
      | purchaseSettled q =>
          have hid' : q.id = p.id := hid
          rw [Present, hid', h, Option.some.injEq] at hother
          cases p
          cases q
          cases hother
          rfl
      | creditsRetired q => cases hendpoint
  | creditsRetired p =>
      cases other with
      | listingCreated q => cases hendpoint
      | purchaseSettled q => cases hendpoint
      | creditsRetired q =>
          have hid' : q.id = p.id := hid
          rw [Present, hid', h, Option.some.injEq] at hother
          cases p
          cases q
          cases hother
          rfl

/-- Applying an event at its own endpoint puts its effect into the tables, if its place is
free. -/
theorem present_of_apply (hcompatible : Compatible d payload)
    (happly : applyAs payload.endpoint payload () d = .ok ((), d')) : Present d' payload := by
  rcases applyAs_cases happly with ⟨rfl, hskipped⟩ | ⟨p, rfl, -, rfl⟩ | ⟨p, rfl, -, -, -, rfl⟩ |
    ⟨p, rfl, -, -, rfl⟩
  · cases payload with
    | listingCreated p => exact hskipped.elim
    | purchaseSettled p =>
        rcases Option.isSome_iff_exists.mp hskipped with ⟨row, hrow⟩
        rw [Present, ← hcompatible row hrow]
        exact hrow
    | creditsRetired p =>
        rcases Option.isSome_iff_exists.mp (hskipped p rfl) with ⟨row, hrow⟩
        rw [Present, ← hcompatible row hrow]
        exact hrow
  · exact ⟨_, Storage.get_set_self _ _ _⟩
  · rw [Present, purchases_decrement]
    exact Storage.get_set_self _ _ _
  · exact Storage.get_set_self _ _ _

/-- The effect of an event stays in the tables when another event is applied. -/
theorem present_apply {applied : Payload} (h : Present d payload)
    (happly : applyAs endpoint applied () d = .ok ((), d'))
    (hids : applied.endpoint = payload.endpoint → applied.id = payload.id → applied = payload) :
    Present d' payload := by
  rcases applyAs_cases happly with ⟨rfl, -⟩ | ⟨q, rfl, -, rfl⟩ | ⟨q, rfl, -, hfresh, -, rfl⟩ |
    ⟨q, rfl, -, hfresh, rfl⟩
  · exact h
  · cases payload with
    | listingCreated p =>
        rcases h with ⟨remaining, hrow⟩
        by_cases hid : p.id = q.id
        · have hsame := hids rfl hid.symm
          rw [Payload.listingCreated.injEq] at hsame
          subst hsame
          exact ⟨_, Storage.get_set_self _ _ _⟩
        · exact ⟨remaining, (Storage.get_set_of_ne _ _ hid).trans hrow⟩
    | purchaseSettled p => exact h
    | creditsRetired p => exact h
  · cases payload with
    | listingCreated p =>
        rcases h with ⟨remaining, hrow⟩
        have hrow' : (d.withPurchase q.row).listings.get p.id = some (p.row remaining) := hrow
        rw [Present, get_decrement, hrow', Option.map_some]
        by_cases hid : p.id = q.listingId
        · rw [if_pos hid]
          exact ⟨toDouble (remaining - q.quantity), rfl⟩
        · rw [if_neg hid]
          exact ⟨remaining, rfl⟩
    | purchaseSettled p =>
        rw [Present, purchases_decrement]
        refine (Storage.get_set_of_ne _ _ fun hid => ?_).trans h
        have hid' : p.id = q.id := hid
        rw [Present, hid', hfresh] at h
        cases h
    | creditsRetired p =>
        rw [Present, retirements_decrement]
        exact h
  · cases payload with
    | listingCreated p => exact h
    | purchaseSettled p => exact h
    | creditsRetired p =>
        refine (Storage.get_set_of_ne _ _ fun hid => ?_).trans h
        have hid' : p.id = q.id := hid
        rw [Present, hid', hfresh] at h
        cases h

/-- The place of an event stays free when another event is applied. -/
theorem compatible_apply {applied : Payload} (h : Compatible d payload)
    (happly : applyAs endpoint applied () d = .ok ((), d'))
    (hids : applied.endpoint = payload.endpoint → applied.id = payload.id → applied = payload) :
    Compatible d' payload := by
  rcases applyAs_cases happly with ⟨rfl, -⟩ | ⟨q, rfl, -, rfl⟩ | ⟨q, rfl, -, -, -, rfl⟩ |
    ⟨q, rfl, -, -, rfl⟩
  · exact h
  · cases payload with
    | listingCreated p => trivial
    | purchaseSettled p => exact h
    | creditsRetired p => exact h
  · cases payload with
    | listingCreated p => trivial
    | purchaseSettled p =>
        intro row hrow
        rw [purchases_decrement] at hrow
        rcases Storage.get_set_eq_some.mp hrow with ⟨hid, hwritten⟩ | ⟨-, hold⟩
        · have hsame := hids rfl hid.symm
          rw [Payload.purchaseSettled.injEq] at hsame
          rw [← hwritten, hsame]
        · exact h row hold
    | creditsRetired p =>
        intro row hrow
        rw [retirements_decrement] at hrow
        exact h row hrow
  · cases payload with
    | listingCreated p => trivial
    | purchaseSettled p => exact h
    | creditsRetired p =>
        intro row hrow
        rcases Storage.get_set_eq_some.mp hrow with ⟨hid, hwritten⟩ | ⟨-, hold⟩
        · have hsame := hids rfl hid.symm
          rw [Payload.creditsRetired.injEq] at hsame
          rw [← hwritten, hsame]
        · exact h row hold

/-! ## The account of the listings -/

/-- What the purchases have taken from a listing. -/
def Domain.sold (d : Domain) (listingId : String) : Int :=
  d.purchases.sum fun _ row => if row.listingId = listingId then row.quantity else 0

theorem sold_nonneg (d : Domain) (listingId : String) : 0 ≤ d.sold listingId := by
  apply Storage.sum_nonneg
  intro id row _
  split
  · exact row.quantity.2.le
  · exact le_rfl

theorem sold_withPurchase {row : PurchaseRow} (hfresh : d.purchases.get row.id = none)
    (listingId : String) :
    (d.withPurchase row).sold listingId =
      d.sold listingId + if row.listingId = listingId then (row.quantity : Int) else 0 := by
  rw [Domain.sold, Domain.withPurchase, Storage.sum_set, Storage.weightAt, hfresh]
  simp [Domain.sold]

/-- Every purchase is of a listing that exists. -/
def Linked (d : Domain) : Prop :=
  ∀ id row, d.purchases.get id = some row → (d.listings.get row.listingId).isSome = true

/-- Nothing is sold of a listing that does not exist. -/
theorem Linked.sold_eq_zero (h : Linked d) {id : String} (hnone : d.listings.get id = none) :
    d.sold id = 0 := by
  apply Storage.sum_eq_zero
  intro purchaseId row hrow
  have hlinked := h purchaseId row hrow
  refine if_neg fun hid => ?_
  rw [hid, hnone] at hlinked
  cases hlinked

theorem linked_empty : Linked Domain.empty := by
  intro id row hrow
  rw [Domain.empty, Storage.get_empty] at hrow
  cases hrow

theorem linked_apply (h : Linked d)
    (happly : applyAs endpoint payload () d = .ok ((), d')) : Linked d' := by
  rcases applyAs_cases happly with ⟨rfl, -⟩ | ⟨p, rfl, -, rfl⟩ | ⟨p, rfl, -, -, hlisting, rfl⟩ |
    ⟨p, rfl, -, -, rfl⟩
  · exact h
  · intro id row hrow
    have hlinked := h id row hrow
    change ((d.listings.set _ _).get row.listingId).isSome = true
    rw [Storage.get_set]
    split
    · rfl
    · exact hlinked
  · intro id row hrow
    rw [purchases_decrement] at hrow
    rw [get_decrement, Option.isSome_map]
    refine Storage.forall_get_set (P := fun _ (row : PurchaseRow) =>
      (d.listings.get row.listingId).isSome = true) ?_ hlisting id row hrow
    exact h
  · exact h

/-- A purchase that is not in the tables is taken from its listing without rounding. -/
def PurchasePayload.Exact (p : PurchasePayload) (d : Domain) : Prop :=
  d.purchases.get p.id = none → ∀ row, d.listings.get p.listingId = some row →
    toDouble (row.quantityRemaining - p.quantity) = row.quantityRemaining - p.quantity

/-- A purchase of what remains of a listing is exact if that has at most 53 binary digits. -/
theorem PurchasePayload.exact_of_lt {p : PurchasePayload} {row : ListingRow}
    (hrow : d.listings.get p.listingId = some row) (hstock : p.quantity ≤ row.quantityRemaining)
    (hlt : row.quantityRemaining < 2 ^ 53) : p.Exact d := by
  intro _ row' hrow'
  have hpositive := p.quantity.2
  rw [hrow, Option.some.injEq] at hrow'
  subst hrow'
  apply toDouble_of_lt
  omega

/-- An endpoint applies an event without rounding. -/
def Exact (d : Domain) : Endpoint → Payload → Prop
  | .purchases, .purchaseSettled p => p.Exact d
  | _, _ => True

/-- What a purchase does to its listing and to what is sold of it. -/
theorem purchase_counted {p : PurchasePayload} (hfresh : d.purchases.get p.id = none)
    (hexact : p.Exact d) {id : String}
    {row : ListingRow} (hrow : ((d.withPurchase p.row).decrement p.listingId
      p.quantity).listings.get id = some row) :
    ∃ old, d.listings.get id = some old ∧ row.quantityTotal = old.quantityTotal ∧
      row.quantityRemaining + ((d.withPurchase p.row).decrement p.listingId p.quantity).sold id =
        old.quantityRemaining + d.sold id ∧
      (row = old ∨ id = p.listingId ∧
        row.quantityRemaining = old.quantityRemaining - p.quantity) := by
  rw [get_decrement, Option.map_eq_some_iff] at hrow
  rcases hrow with ⟨old, hold, hrow⟩
  have hsold : ((d.withPurchase p.row).decrement p.listingId p.quantity).sold id =
      d.sold id + if p.listingId = id then (p.quantity : Int) else 0 := by
    rw [Domain.sold, purchases_decrement]
    exact sold_withPurchase hfresh id
  refine ⟨old, hold, ?_⟩
  rw [hsold]
  by_cases hid : id = p.listingId
  · have htaken := hexact hfresh old (hid ▸ hold)
    rw [if_pos hid, htaken] at hrow
    rw [if_pos hid.symm, ← hrow]
    refine ⟨rfl, ?_, .inr ⟨hid, rfl⟩⟩
    change old.quantityRemaining - p.quantity + (d.sold id + p.quantity) = _
    omega
  · rw [if_neg hid] at hrow
    rw [if_neg (Ne.symm hid), ← hrow]
    exact ⟨rfl, by omega, .inl rfl⟩

/-- What remains of each listing is what is not sold of it. -/
structure Balanced (d : Domain) : Prop where
  linked : Linked d
  balance : ∀ id row, d.listings.get id = some row →
    row.quantityRemaining = row.quantityTotal - d.sold id

/-- A listing fits the tables if it does not change the total of a row. -/
def ListingPayload.Fits (p : ListingPayload) (d : Domain) : Prop :=
  ∀ row, d.listings.get p.id = some row → row.quantityTotal = p.quantity

theorem balanced_empty : Balanced Domain.empty := by
  refine ⟨linked_empty, fun id row hrow => ?_⟩
  rw [Domain.empty, Storage.get_empty] at hrow
  cases hrow

/-- The row of a listing that fits has what remains of the one before it. -/
theorem Balanced.remaining (h : Balanced d) {p : ListingPayload} (hfits : p.Fits d) :
    d.remaining p = p.quantity - d.sold p.id := by
  cases hrow : d.listings.get p.id with
  | none =>
      have hsold := h.linked.sold_eq_zero hrow
      simp [Domain.remaining, hrow, hsold]
  | some row =>
      have hbalance := h.balance p.id row hrow
      rw [hfits row hrow] at hbalance
      simp [Domain.remaining, hrow, hbalance]

/-- The balance is kept by every event that is applied without rounding but a listing that changes
a total. -/
theorem balanced_apply (h : Balanced d) (hexact : Exact d endpoint payload)
    (hfits : endpoint = .listings → ∀ p, payload = .listingCreated p → p.Fits d)
    (happly : applyAs endpoint payload () d = .ok ((), d')) : Balanced d' := by
  refine ⟨linked_apply h.linked happly, ?_⟩
  rcases applyAs_cases happly with ⟨rfl, -⟩ | ⟨p, rfl, rfl, rfl⟩ | ⟨p, rfl, rfl, hfresh, -, rfl⟩ |
    ⟨p, rfl, -, -, rfl⟩
  · exact h.balance
  · refine Storage.forall_get_set (P := fun id (row : ListingRow) =>
      row.quantityRemaining = row.quantityTotal - d.sold id) h.balance ?_
    exact h.remaining (hfits rfl p rfl)
  · intro id row hrow
    rcases purchase_counted hfresh hexact hrow with ⟨old, hold, htotal, hcounted, -⟩
    have hbalance := h.balance id old hold
    rw [htotal]
    omega
  · exact h.balance

/-- What remains of a listing is what an event of it has put there, less what is sold of it. -/
structure Accounted (events : List ChainEvent) (d : Domain) : Prop where
  linked : Linked d
  counted : ∀ id row, d.listings.get id = some row → ∃ p, p.id = id ∧
    (∃ ev ∈ events, ev.payload = .listingCreated p) ∧
    row.quantityRemaining = p.quantity - d.sold id

theorem Accounted.mono {events events' : List ChainEvent} (h : Accounted events d)
    (hevents : ∀ ev ∈ events, ev ∈ events') : Accounted events' d := by
  refine ⟨h.linked, fun id row hrow => ?_⟩
  rcases h.counted id row hrow with ⟨p, hid, ⟨ev, hev, hpayload⟩, hcounted⟩
  exact ⟨p, hid, ⟨ev, hevents ev hev, hpayload⟩, hcounted⟩

theorem accounted_apply {events : List ChainEvent} (h : Accounted events d)
    (hexact : Exact d endpoint payload) (hev : ∃ ev ∈ events, ev.payload = payload)
    (happly : applyAs endpoint payload () d = .ok ((), d')) : Accounted events d' := by
  refine ⟨linked_apply h.linked happly, ?_⟩
  rcases applyAs_cases happly with ⟨rfl, -⟩ | ⟨p, rfl, -, rfl⟩ | ⟨p, rfl, rfl, hfresh, -, rfl⟩ |
    ⟨p, rfl, -, -, rfl⟩
  · exact h.counted
  · refine Storage.forall_get_set (P := fun id (row : ListingRow) => ∃ p : ListingPayload,
      p.id = id ∧ (∃ ev ∈ events, ev.payload = .listingCreated p) ∧
      row.quantityRemaining = p.quantity - d.sold id) h.counted ?_
    cases hrow : d.listings.get p.id with
    | none =>
        have hsold := h.linked.sold_eq_zero hrow
        refine ⟨p, rfl, hev, ?_⟩
        change d.remaining p = p.quantity - d.sold p.id
        simp [Domain.remaining, hrow, hsold]
    | some row =>
        rcases h.counted p.id row hrow with ⟨q, hid, hq, hcounted⟩
        refine ⟨q, hid, hq, ?_⟩
        change d.remaining p = q.quantity - d.sold p.id
        simp [Domain.remaining, hrow, hcounted]
  · intro id row hrow
    rcases purchase_counted hfresh hexact hrow with ⟨old, hold, -, hbalance, -⟩
    rcases h.counted id old hold with ⟨q, hid, hq, hcounted⟩
    exact ⟨q, hid, hq, by omega⟩
  · exact h.counted

/-! ## The effect of a step -/

/-- A record holds a response that reports an event. -/
def RecordReports (r : IdempotencyRecord) (payload : Payload) : Prop :=
  ∃ body : ResponseBody, r.responseBody = some body ∧ body.Reports payload

/-- What a request under a key does to the chain and to the tables, and what a response on the
record of the key says of it. -/
inductive Effect (cfg : AppConfig) (rt : Runtime) (req : Request) (script : List Tick)
    (key : String) (w w' : World) : Prop
  | unchanged (hevents : w'.store.db.chainEvents = w.store.db.chainEvents)
      (hdomain : w'.store.db.domain = w.store.db.domain)
      (hrecord : ∀ r, w'.store.db.records.get key = some r → r.Answered →
        w.store.db.records.get key = some r)
  | reapplied {ev : ChainEvent}
      (hopen : Open w.store.db key (fingerprintOf rt req) (arrival w script))
      (hrecent : Recent cfg w.store.db key (arrival w script) ev)
      (happly : applyAs req.endpoint ev.payload () w.store.db.domain =
        .ok ((), w'.store.db.domain))
      (hevents : w'.store.db.chainEvents = w.store.db.chainEvents)
      (hrecord : ∀ r, w'.store.db.records.get key = some r → r.Answered →
        RecordReports r ev.payload)
  | submitted {ev : ChainEvent}
      (hopen : Open w.store.db key (fingerprintOf rt req) (arrival w script))
      (hold : ¬ ∃ ev, Recent cfg w.store.db key (arrival w script) ev)
      (hev : Submission rt req.endpoint key req.body w.store.db (arrival w script) ev)
      (hevents : w'.store.db.chainEvents = w.store.db.chainEvents ++ [ev])
      (hdomain : w'.store.db.domain = w.store.db.domain ∨
        applyAs req.endpoint ev.payload () w.store.db.domain = .ok ((), w'.store.db.domain))
      (hrecord : ∀ r, w'.store.db.records.get key = some r → r.Answered →
        RecordReports r ev.payload ∧
        applyAs req.endpoint ev.payload () w.store.db.domain = .ok ((), w'.store.db.domain))

/-- A request leaves no response behind but its own and the one that was there. -/
theorem Kept.answered {fingerprint : String} {time : Int} {old new : Option IdempotencyRecord}
    (h : Kept cfg fingerprint time old new) {r : IdempotencyRecord} (hr : new = some r)
    (hanswered : r.Answered) : old = some r := by
  rcases h with rfl | rfl | ⟨r', rfl, hpending, -⟩
  · exact hr
  · cases hr
  · rw [Option.some.injEq] at hr
    subst hr
    exact absurd hanswered hpending.2

theorem Open.not_answered {db : Database} {key fingerprint : String} {time : Int}
    (h : Open db key fingerprint time) {r : IdempotencyRecord}
    (hr : usable db key time = some r) : ¬ r.Answered :=
  (h r hr).2

theorem Outcome.effect {allowed : Tick → Prop} {req : Request} {script : List Tick} {key : String}
    {w w' : World} {exit : Exit Thrown Response}
    (h : Outcome cfg rt allowed req.endpoint key (fingerprintOf rt req) req.body
      (arrival w script) w.store.db exit w'.store.db w'.clock) :
    Effect cfg rt req script key w w' := by
  cases h with
  | replayed _ _ _ _ hdb =>
      refine .unchanged (by rw [hdb]) (by rw [hdb]) fun r hr _ => ?_
      rwa [hdb] at hr
  | mismatched _ _ hdb =>
      refine .unchanged (by rw [hdb]) (by rw [hdb]) fun r hr _ => ?_
      rwa [hdb] at hr
  | rejected _ _ _ hevents hdomain _ hrecord =>
      exact .unchanged hevents hdomain fun r hr hanswered => hrecord.answered hr hanswered
  | failed _ _ hevents hdomain _ hrecord =>
      exact .unchanged hevents hdomain fun r hr hanswered => hrecord.answered hr hanswered
  | lost _ _ hopen hrecent happly hevents hdomain _ hrecord =>
      rw [← hdomain] at happly
      refine .reapplied hopen hrecent happly hevents fun r hr hanswered => ?_
      rw [hrecord] at hr
      exact absurd hanswered (hopen.not_answered hr)
  | reconciled hopen hrecent happly hbody hevents hdomain _ hrecord =>
      rw [← hdomain] at happly
      refine .reapplied hopen hrecent happly hevents fun r hr _ => ?_
      rw [hrecord, Option.some.injEq] at hr
      rw [← hr]
      exact ⟨_, completedRecord_responseBody, hbody⟩
  | submitted _ hopen hold hev _ hevents hdomain _ hrecord =>
      refine .submitted hopen hold hev hevents ?_ fun r hr hanswered => ?_
      · rcases hdomain with hdomain | ⟨domain, happly, hdomain, -⟩
        · exact .inl hdomain
        · rw [← hdomain] at happly
          exact .inr happly
      · exact absurd hanswered (hopen.not_answered (hrecord.answered hr hanswered))
  | executed hopen hold hev _ happly hbody hevents hdomain _ hrecord =>
      rw [← hdomain] at happly
      refine .submitted hopen hold hev hevents (.inr happly) fun r hr _ => ?_
      rcases hrecord with ⟨marked, -, hrecord⟩
      rw [hrecord, Option.some.injEq] at hr
      rw [← hr]
      exact ⟨⟨_, completedRecord_responseBody, hbody⟩, happly⟩

/-- Everything that a step does to the chain and to the tables. -/
theorem step_effect (cfg : AppConfig) (rt : Runtime) (w : World) (i : Input) :
    ((step cfg rt w i).store.db.chainEvents = w.store.db.chainEvents ∧
      (step cfg rt w i).store.db.domain = w.store.db.domain) ∨
    ∃ req script key, i = .request req script ∧ req.key.filter validKey = some key ∧
      Effect cfg rt req script key w (step cfg rt w i) := by
  rcases step_cases cfg rt w i with ⟨hdb, -⟩ | ⟨req, script, key, exit, hi, hkey, -, houtcome, -⟩
  · exact .inl ⟨by rw [hdb], by rw [hdb]⟩
  · exact .inr ⟨req, script, key, hi, hkey, houtcome.effect⟩

/-- A step rounds nothing: neither for the event that it applies again nor for a new one. -/
def StepExact (cfg : AppConfig) (rt : Runtime) (w : World) : Input → Prop
  | .failNextTransaction => True
  | .request req script => ∀ key, req.key.filter validKey = some key →
      Open w.store.db key (fingerprintOf rt req) (arrival w script) →
      (∀ ev, Recent cfg w.store.db key (arrival w script) ev →
        Exact w.store.db.domain req.endpoint ev.payload) ∧
      ((¬ ∃ ev, Recent cfg w.store.db key (arrival w script) ev) →
        ∀ payload, NewPayload rt key req.body w.store.db.domain payload req.endpoint →
          Exact w.store.db.domain req.endpoint payload)

/-- A new event is applied without rounding if what remains of every listing has at most 53 binary
digits: a purchase takes no more than that. -/
theorem NewPayload.exact {key : String} {body : Option Json}
    (h : NewPayload rt key body d payload endpoint)
    (hsmall : ∀ id row, d.listings.get id = some row → row.quantityRemaining < 2 ^ 53) :
    Exact d endpoint payload := by
  cases h with
  | listing _ _ => trivial
  | purchase _ hrow hstock hpayload =>
      subst hpayload
      exact PurchasePayload.exact_of_lt hrow hstock (hsmall _ _ hrow)
  | retirement _ _ => trivial

/-- The account of the listings is kept by every step that rounds nothing. -/
theorem accounted_step {w : World} {i : Input}
    (h : Accounted w.store.db.chainEvents w.store.db.domain) (hexact : StepExact cfg rt w i) :
    Accounted (step cfg rt w i).store.db.chainEvents (step cfg rt w i).store.db.domain := by
  rcases step_effect cfg rt w i with ⟨hevents, hdomain⟩ | ⟨req, script, key, rfl, hkey, heffect⟩
  · rw [hevents, hdomain]
    exact h
  · cases heffect with
    | unchanged hevents hdomain _ =>
        rw [hevents, hdomain]
        exact h
    | reapplied hopen hrecent happly hevents _ =>
        rw [hevents]
        exact accounted_apply h ((hexact key hkey hopen).1 _ hrecent)
          ⟨_, (latestEvent_mem hrecent.1).1, rfl⟩ happly
    | @submitted ev hopen hold hev hevents hdomain _ =>
        rw [hevents]
        have hlater : Accounted (w.store.db.chainEvents ++ [ev]) w.store.db.domain :=
          h.mono fun e he => List.mem_append_left _ he
        rcases hdomain with hdomain | happly
        · rw [hdomain]
          exact hlater
        · exact accounted_apply hlater ((hexact key hkey hopen).2 hold _ hev.payload)
            ⟨_, List.mem_append_right _ List.mem_cons_self, rfl⟩ happly

theorem accounted_initial :
    Accounted World.initial.store.db.chainEvents World.initial.store.db.domain := by
  refine ⟨linked_empty, fun id row hrow => ?_⟩
  change Domain.empty.listings.get id = some row at hrow
  rw [Domain.empty, Storage.get_empty] at hrow
  cases hrow

/-! ## The events of one key -/

section

variable {key : String} {w : World} {i : Input}

/-- The events that were submitted under a key. -/
def eventsOf (events : List ChainEvent) (key : String) : List ChainEvent :=
  events.filter fun ev => ev.dedupId = key

theorem mem_eventsOf {events : List ChainEvent} {ev : ChainEvent} :
    ev ∈ eventsOf events key ↔ ev ∈ events ∧ ev.dedupId = key := by
  simp [eventsOf]

theorem eventsOf_append_self (events : List ChainEvent) {ev : ChainEvent} (h : ev.dedupId = key) :
    eventsOf (events ++ [ev]) key = eventsOf events key ++ [ev] := by
  simp [eventsOf, h]

theorem eventsOf_append_other (events : List ChainEvent) {ev : ChainEvent} (h : ev.dedupId ≠ key) :
    eventsOf (events ++ [ev]) key = eventsOf events key := by
  simp [eventsOf, h]

theorem latestEvent_eq (events : List ChainEvent) (key : String) :
    latestEvent events key = (eventsOf events key).getLast? :=
  rfl

/-- The events of a key have the ids that are derived from it, and no other event has one. -/
structure Identified (rt : Runtime) (key : String) (events : List ChainEvent) : Prop where
  own : ∀ ev ∈ events, ev.dedupId = key →
    ev.payload.id = deriveId rt ev.payload.endpoint.kind key
  apart : ∀ ev ∈ events, ev.dedupId ≠ key →
    ev.payload.id ≠ deriveId rt ev.payload.endpoint.kind key

/-- A request under another key derives another id. -/
def Uncollided (rt : Runtime) (key : String) : Input → Prop
  | .failNextTransaction => True
  | .request req _ => ∀ k, req.key.filter validKey = some k → k ≠ key →
      deriveId rt req.endpoint.kind k ≠ deriveId rt req.endpoint.kind key

theorem identified_nil : Identified rt key [] := by
  constructor
  · intro ev hev
    cases hev
  · intro ev hev
    cases hev

theorem identified_step (cfg : AppConfig) (h : Identified rt key w.store.db.chainEvents)
    (hids : Uncollided rt key i) : Identified rt key (step cfg rt w i).store.db.chainEvents := by
  rcases step_effect cfg rt w i with ⟨hevents, -⟩ | ⟨req, script, k, rfl, hkey, heffect⟩
  · rw [hevents]
    exact h
  · cases heffect with
    | unchanged hevents _ _ =>
        rw [hevents]
        exact h
    | reapplied _ _ _ hevents _ =>
        rw [hevents]
        exact h
    | @submitted ev _ _ hev hevents _ _ =>
        rcases hev.payload.identified with ⟨hendpoint, hid⟩
        rw [hevents]
        constructor
        · intro e he hown
          rcases List.mem_append.mp he with he | he
          · exact h.own e he hown
          · rw [List.mem_singleton.mp he, hev.dedupId] at hown
            rw [List.mem_singleton.mp he, hid, hendpoint, hown]
        · intro e he hother
          rcases List.mem_append.mp he with he | he
          · exact h.apart e he hother
          · rw [List.mem_singleton.mp he, hev.dedupId] at hother
            rw [List.mem_singleton.mp he, hid, hendpoint]
            exact hids k hkey hother

/-- What a key has in a world is the same in another one. -/
structure Unaffected (key : String) (w w' : World) : Prop where
  events : eventsOf w'.store.db.chainEvents key = eventsOf w.store.db.chainEvents key
  record : w'.store.db.records.get key = w.store.db.records.get key
  present : ∀ ev ∈ w.store.db.chainEvents, ev.dedupId = key →
    Present w.store.db.domain ev.payload → Present w'.store.db.domain ev.payload
  compatible : ∀ ev ∈ w.store.db.chainEvents, ev.dedupId = key →
    Compatible w.store.db.domain ev.payload → Compatible w'.store.db.domain ev.payload

/-- A step that is no request under a key leaves alone what the key has. -/
theorem unaffected_step (cfg : AppConfig) (h : Identified rt key w.store.db.chainEvents)
    (hids : Uncollided rt key i)
    (hother : ∀ req script, i = .request req script → req.key.filter validKey ≠ some key) :
    Unaffected key w (step cfg rt w i) := by
  rcases step_cases cfg rt w i with ⟨hdb, -⟩ | ⟨req, script, k, exit, rfl, hkey, -, houtcome, -⟩
  · rw [← hdb] at h
    refine ⟨by rw [hdb], by rw [hdb], ?_, ?_⟩
    · rw [hdb]
      exact fun _ _ _ hpresent => hpresent
    · rw [hdb]
      exact fun _ _ _ hcompatible => hcompatible
  · have hk : k ≠ key := by
      rintro rfl
      exact hother req script rfl hkey
    have hrecord := houtcome.others key hk.symm
    have hframe : ∀ {applied : Payload}, applied.id ≠ deriveId rt applied.endpoint.kind key →
        applyAs req.endpoint applied () w.store.db.domain =
          .ok ((), (step cfg rt w (.request req script)).store.db.domain) →
        (∀ ev ∈ w.store.db.chainEvents, ev.dedupId = key → Present w.store.db.domain ev.payload →
          Present (step cfg rt w (.request req script)).store.db.domain ev.payload) ∧
        ∀ ev ∈ w.store.db.chainEvents, ev.dedupId = key →
          Compatible w.store.db.domain ev.payload →
          Compatible (step cfg rt w (.request req script)).store.db.domain ev.payload := by
      intro applied hid happly
      have hne : ∀ ev ∈ w.store.db.chainEvents, ev.dedupId = key →
          applied.endpoint = ev.payload.endpoint → applied.id ≠ ev.payload.id := by
        intro ev hev hown hendpoint hsame
        rw [hsame, h.own ev hev hown, hendpoint] at hid
        exact hid rfl
      constructor
      · intro ev hev hown hpresent
        exact present_apply hpresent happly fun hendpoint hsame =>
          absurd hsame (hne ev hev hown hendpoint)
      · intro ev hev hown hcompatible
        exact compatible_apply hcompatible happly fun hendpoint hsame =>
          absurd hsame (hne ev hev hown hendpoint)
    cases houtcome.effect with
    | unchanged hevents hdomain _ =>
        refine ⟨by rw [hevents], hrecord, ?_, ?_⟩
        · rw [hdomain]
          exact fun _ _ _ hpresent => hpresent
        · rw [hdomain]
          exact fun _ _ _ hcompatible => hcompatible
    | reapplied _ hrecent happly hevents _ =>
        have hmem := latestEvent_mem hrecent.1
        have hframe' := hframe (h.apart _ hmem.1 (by rw [hmem.2]; exact hk)) happly
        exact ⟨by rw [hevents], hrecord, hframe'.1, hframe'.2⟩
    | @submitted ev _ _ hev hevents hdomain _ =>
        rcases hev.payload.identified with ⟨hendpoint, hid⟩
        have hevents' : eventsOf (step cfg rt w (.request req script)).store.db.chainEvents key =
            eventsOf w.store.db.chainEvents key := by
          rw [hevents]
          exact eventsOf_append_other _ (by rw [hev.dedupId]; exact hk)
        rcases hdomain with hdomain | happly
        · refine ⟨hevents', hrecord, ?_, ?_⟩
          · rw [hdomain]
            exact fun _ _ _ hpresent => hpresent
          · rw [hdomain]
            exact fun _ _ _ hcompatible => hcompatible
        · have hframe' := hframe (by rw [hid, hendpoint]; exact hids k hkey hk) happly
          exact ⟨hevents', hrecord, hframe'.1, hframe'.2⟩

end

end Backend
end Kraal
