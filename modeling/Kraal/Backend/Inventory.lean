import Kraal.Backend.Effects
import Kraal.Backend.Undisturbed

/-!
# The inventory of the listings

What remains of a listing is its total less what was sold of it, and never negative.  A
purchase checks the stock before its event is submitted, but a retry that applies the event
later does not check it again, and a listing request under a used key writes over the total of
an existing row.  What is taken from a listing is subtracted in doubles.  The inventory is kept by
every run in which neither happens and no difference is rounded.

Main results:

- Theorem {lit}`stocked_apply`: applying an event that fits keeps the inventory.
- Theorem {lit}`inventory_of_fits`: the inventory in every state of a run.
- Theorem {lit}`oversold`: a retry sells what another buyer has bought.
-/

namespace Kraal
namespace Backend

open Foundation

variable {cfg : AppConfig} {rt : Runtime}

/-! ## What remains -/

/-- No listing is oversold, and what remains of each is what has not been sold. -/
def Inventory (d : Domain) : Prop :=
  ∀ id row, d.listings.get id = some row →
    0 ≤ row.quantityRemaining ∧ row.quantityRemaining ≤ row.quantityTotal ∧
      row.quantityRemaining = row.quantityTotal - d.sold id

/-- The invariant behind the inventory: the balance, and no listing is oversold. -/
structure Stocked (d : Domain) : Prop extends Balanced d where
  nonneg : ∀ id row, d.listings.get id = some row → 0 ≤ row.quantityRemaining

theorem Stocked.inventory {d : Domain} (h : Stocked d) : Inventory d := by
  intro id row hrow
  have hnonneg := h.nonneg id row hrow
  have hbalance := h.balance id row hrow
  have hsold := sold_nonneg d id
  exact ⟨hnonneg, by omega, hbalance⟩

theorem stocked_empty : Stocked Domain.empty := by
  refine ⟨balanced_empty, fun id row hrow => ?_⟩
  rw [Domain.empty, Storage.get_empty] at hrow
  cases hrow

/-! ## Events that fit -/

/-- A purchase fits the tables if it is applied already or takes no more than what remains. -/
def PurchasePayload.Fits (p : PurchasePayload) (d : Domain) : Prop :=
  d.purchases.get p.id = none →
    ∀ row, d.listings.get p.listingId = some row → p.quantity ≤ row.quantityRemaining

/-- An event fits the tables if it does at the endpoint that applies it. -/
def Fits (d : Domain) : Endpoint → Payload → Prop
  | .listings, .listingCreated p => p.Fits d
  | .purchases, .purchaseSettled p => p.Fits d
  | _, _ => True

/-- Applying an event that fits, without rounding, keeps the inventory. -/
theorem stocked_apply {d d' : Domain} {endpoint : Endpoint} {payload : Payload} (h : Stocked d)
    (hfits : Fits d endpoint payload) (hexact : Exact d endpoint payload)
    (happly : applyAs endpoint payload () d = .ok ((), d')) : Stocked d' := by
  constructor
  · refine balanced_apply h.toBalanced hexact ?_ happly
    rintro rfl p rfl
    exact hfits
  · rcases applyAs_cases happly with ⟨rfl, -⟩ | ⟨p, rfl, rfl, rfl⟩ |
      ⟨p, rfl, rfl, hfresh, -, rfl⟩ | ⟨p, rfl, -, -, rfl⟩
    · exact h.nonneg
    · refine Storage.forall_get_set (P := fun _ (row : ListingRow) => 0 ≤ row.quantityRemaining)
        h.nonneg ?_
      change 0 ≤ d.remaining p
      cases hrow : d.listings.get p.id with
      | none =>
          have hquantity := p.quantity.2
          have hremaining : d.remaining p = p.quantity := by simp [Domain.remaining, hrow]
          omega
      | some row =>
          have hremaining : d.remaining p = row.quantityRemaining := by
            simp [Domain.remaining, hrow]
          rw [hremaining]
          exact h.nonneg p.id row hrow
    · intro id row hrow
      rcases purchase_counted hfresh hexact hrow with ⟨old, hold, -, -, htaken⟩
      rcases htaken with rfl | ⟨rfl, hremaining⟩
      · exact h.nonneg id row hold
      · have hstock := hfits hfresh old hold
        omega
    · exact h.nonneg

/-! ## Steps that fit -/

/-- A step fits the tables if the event that it applies again does, and if the listing that it
creates does not change the total of a row.  Every other step fits. -/
def StepFits (cfg : AppConfig) (rt : Runtime) (w : World) : Input → Prop
  | .failNextTransaction => True
  | .request req script => ∀ key, req.key.filter validKey = some key →
      Open w.store.db key (fingerprintOf rt req) (arrival w script) →
      (∀ ev, Recent cfg w.store.db key (arrival w script) ev →
        Fits w.store.db.domain req.endpoint ev.payload) ∧
      ((¬ ∃ ev, Recent cfg w.store.db key (arrival w script) ev) → req.endpoint = .listings →
        ∀ b row, validateCreateListing req.body = .ok b →
          w.store.db.domain.listings.get (deriveId rt "lst" key) = some row →
          row.quantityTotal = b.quantity)

/-- What a step that fits submits fits as well: the stock of a purchase is checked. -/
theorem fits_of_newPayload {d : Domain} {endpoint : Endpoint} {key : String}
    {body : Option Json} {payload : Payload} (hnew : NewPayload rt key body d payload endpoint)
    (hlisting : endpoint = .listings → ∀ b row, validateCreateListing body = .ok b →
      d.listings.get (deriveId rt "lst" key) = some row → row.quantityTotal = b.quantity) :
    Fits d endpoint payload := by
  cases hnew with
  | listing hvalid hpayload =>
      subst hpayload
      intro row hrow
      exact hlisting rfl _ row hvalid hrow
  | purchase hvalid hrow hstock hpayload =>
      rename_i b row createdAt
      subst hpayload
      intro _ row' hrow'
      have hsame : row' = row := Option.some.inj (hrow'.symm.trans hrow)
      rw [hsame]
      exact hstock
  | retirement hvalid hpayload =>
      subst hpayload
      trivial

theorem stocked_step {w : World} {i : Input} (h : Stocked w.store.db.domain)
    (hfits : StepFits cfg rt w i) (hexact : StepExact cfg rt w i) :
    Stocked (step cfg rt w i).store.db.domain := by
  rcases step_effect cfg rt w i with ⟨-, hdomain⟩ | ⟨req, script, key, rfl, hkey, heffect⟩
  · rw [hdomain]
    exact h
  · have hstep := hfits key hkey
    have hround := hexact key hkey
    cases heffect with
    | unchanged _ hdomain _ =>
        rw [hdomain]
        exact h
    | reapplied hopen hrecent happly _ _ =>
        exact stocked_apply h ((hstep hopen).1 _ hrecent) ((hround hopen).1 _ hrecent) happly
    | submitted hopen hold hev _ hdomain _ =>
        rcases hdomain with hdomain | happly
        · rw [hdomain]
          exact h
        · exact stocked_apply h (fits_of_newPayload hev.payload ((hstep hopen).2 hold))
            ((hround hopen).2 hold _ hev.payload) happly

/-- The listings are never oversold in a run whose steps all fit and round nothing. -/
theorem inventory_of_fits (cfg : AppConfig) (rt : Runtime) (run : List Input)
    (hfits : ∀ e ∈ Run.trace (step cfg rt) World.initial run, StepFits cfg rt e.1 e.2)
    (hexact : ∀ e ∈ Run.trace (step cfg rt) World.initial run, StepExact cfg rt e.1 e.2) :
    ∀ w, Run.Visits (step cfg rt) World.initial run w → Inventory w.store.db.domain := by
  intro w hvisits
  have hstocked := Run.visits_invariant (I := fun w => Stocked w.store.db.domain) stocked_empty
    (fun e he h => stocked_step h (hfits e he) (hexact e he)) w hvisits
  exact hstocked.inventory

/-! ## A sale of what is sold already -/

/-- A request for all of the ten units. -/
def buyRequest (rt : Runtime) (key : String) : Request :=
  ⟨.purchases, "/marketplace/purchases", some key,
    some (PurchaseBody.json ⟨"buyer", deriveId rt "lst" "stock", tenUnits⟩)⟩

/-- The purchase of a first buyer fails after its submission, a second buyer takes the stock, and
the first buyer tries again. -/
def oversale (rt : Runtime) : List Input :=
  [.request stockRequest (quiet 0), .failNextTransaction,
    .request (buyRequest rt "first") (quiet 0), .request (buyRequest rt "second") (quiet 0),
    .request (buyRequest rt "first") (quiet 0)]

theorem validKey_buy (rt : Runtime) {key : String} (h : validKey key = true) :
    (buyRequest rt key).key.filter validKey = some key :=
  filter_validKey h

/-- The payload of a purchase. -/
def buyPayload (rt : Runtime) (key : String) : PurchasePayload :=
  ⟨deriveId rt "pur" key, deriveId rt "lst" "stock", "buyer", tenUnits, toDouble 10, 0⟩

/-- A purchase may be submitted while the ten units are listed. -/
theorem newPayload_buy (rt : Runtime) (key : String) :
    NewPayload rt key (buyRequest rt key).body (stockDomain rt)
      (.purchaseSettled (buyPayload rt key)) .purchases := by
  have hbuyer : "buyer" ≠ "" := by decide
  have hvalid : validatePurchase (buyRequest rt key).body =
      .ok ⟨"buyer", deriveId rt "lst" "stock", tenUnits⟩ :=
    validatePurchase_json hbuyer (deriveId_ne_empty rt "lst" "stock")
  exact .purchase hvalid (Storage.get_set_self _ _ _) le_rfl rfl

/-- The tables when a buyer has bought the ten units. -/
def soldDomain (rt : Runtime) (d : Domain) (key : String) : Domain :=
  (d.withPurchase (buyPayload rt key).row).decrement (deriveId rt "lst" "stock") tenUnits

/-- A purchase takes its units from what remains, however little that is. -/
theorem get_soldDomain (rt : Runtime) {d : Domain} (key : String) {row : ListingRow}
    (hrow : d.listings.get (deriveId rt "lst" "stock") = some row)
    (hlow : 0 ≤ row.quantityRemaining) (hhigh : row.quantityRemaining ≤ 10) :
    ∃ row', (soldDomain rt d key).listings.get (deriveId rt "lst" "stock") = some row' ∧
      row'.quantityRemaining = row.quantityRemaining - 10 := by
  have hrow' : (d.withPurchase (buyPayload rt key).row).listings.get (deriveId rt "lst" "stock") =
      some row := hrow
  have htaken : toDouble (row.quantityRemaining - 10) = row.quantityRemaining - 10 :=
    toDouble_of_lt (by omega)
  refine ⟨{ row with quantityRemaining := toDouble (row.quantityRemaining - 10) }, ?_, htaken⟩
  rw [soldDomain, get_decrement, hrow', Option.map_some, if_pos rfl]

theorem purchases_soldDomain (rt : Runtime) (d : Domain) {key id : String}
    (hid : id ≠ deriveId rt "pur" key) :
    (soldDomain rt d key).purchases.get id = d.purchases.get id := by
  rw [soldDomain, purchases_decrement]
  exact Storage.get_set_of_ne _ _ hid

theorem applyAs_buy (rt : Runtime) {d : Domain} {key : String} {row : ListingRow}
    (hrow : d.listings.get (deriveId rt "lst" "stock") = some row)
    (hfresh : d.purchases.get (deriveId rt "pur" key) = none) :
    applyAs .purchases (.purchaseSettled (buyPayload rt key)) () d =
      .ok ((), soldDomain rt d key) := by
  refine applyPurchase_eq_ok.mpr (.inr ⟨buyPayload rt key, rfl, hfresh, ?_, rfl⟩)
  change (d.listings.get (deriveId rt "lst" "stock")).isSome = true
  rw [hrow]
  rfl

/-- A request under an unused key fits. -/
theorem stepFits_of_unused {w : World} {req : Request} {script : List Tick} {key : String}
    (hkey : req.key.filter validKey = some key)
    (hevents : latestEvent w.store.db.chainEvents key = none)
    (hlisting : req.endpoint = .listings →
      w.store.db.domain.listings.get (deriveId rt "lst" key) = none) :
    StepFits cfg rt w (.request req script) := by
  intro key' hkey' _
  rw [hkey, Option.some.injEq] at hkey'
  subst hkey'
  constructor
  · intro ev hrecent
    have hlatest := hrecent.1
    rw [hevents] at hlatest
    cases hlatest
  · intro _ hendpoint b row _ hrow
    rw [hlisting hendpoint] at hrow
    cases hrow

/-- A request under an unused key rounds nothing where the listings are small. -/
theorem stepExact_of_unused {w : World} {req : Request} {script : List Tick} {key : String}
    (hkey : req.key.filter validKey = some key)
    (hevents : latestEvent w.store.db.chainEvents key = none)
    (hsmall : ∀ id row, w.store.db.domain.listings.get id = some row →
      row.quantityRemaining < 2 ^ 53) :
    StepExact cfg rt w (.request req script) := by
  intro key' hkey' _
  rw [hkey, Option.some.injEq] at hkey'
  subst hkey'
  constructor
  · intro ev hrecent
    have hlatest := hrecent.1
    rw [hevents] at hlatest
    cases hlatest
  · intro _ payload hnew
    exact hnew.exact hsmall

/-- Every step of a sale of the ten units is under an unused key. -/
theorem sale_unused (rt : Runtime) : ∀ e ∈ Run.trace (step ⟨86400⟩ rt) World.initial
      [.request stockRequest (quiet 0), .request (buyRequest rt "first") (quiet 0)],
    ∃ req key, e.2 = .request req (quiet 0) ∧ req.key.filter validKey = some key ∧
      eventsOf e.1.store.db.chainEvents key = [] ∧
      Vacant e.1.store.db.domain (deriveId rt req.endpoint.kind key) req.endpoint ∧
      ∀ id row, e.1.store.db.domain.listings.get id = some row →
        row.quantityRemaining < 2 ^ 53 := by
  have hother : "stock" ≠ "first" := by decide
  rcases stock_executes ⟨86400⟩ rt with ⟨hw₁, -, -⟩
  intro e he
  simp only [Run.trace_cons, Run.trace_nil, List.mem_cons, List.not_mem_nil, or_false] at he
  rcases he with rfl | rfl
  · refine ⟨_, "stock", rfl, validKey_stock, rfl, rfl, fun id row hrow => ?_⟩
    cases hrow
  · refine ⟨_, "first", rfl, validKey_buy rt (by decide), ?_, ?_, ?_⟩
    · rw [hw₁.events]
      simp [eventsOf, stockEvent, hother]
    · rw [hw₁.domain]
      exact Storage.get_empty _
    · rw [hw₁.domain]
      refine Storage.forall_get_set (P := fun _ (row : ListingRow) =>
        row.quantityRemaining < 2 ^ 53) (fun id row hrow => ?_) ?_
      · rw [Domain.empty, Storage.get_empty] at hrow
        cases hrow
      · change (10 : Int) < 2 ^ 53
        decide

/-- A listing that is sold out. -/
theorem inventory_of_sale : Inventory (finalWorld ⟨86400⟩ plainRuntime
    [.request stockRequest (quiet 0),
      .request (buyRequest plainRuntime "first") (quiet 0)]).store.db.domain := by
  have hsale := sale_unused plainRuntime
  refine inventory_of_fits ⟨86400⟩ plainRuntime _ ?_ ?_ _ (Run.visits_final _ _)
  · intro e he
    rcases hsale e he with ⟨req, key, hreq, hkey, hevents, hvacant, -⟩
    rw [hreq]
    refine stepFits_of_unused hkey (by rw [latestEvent_eq, hevents]; rfl) ?_
    intro hlistings
    rw [hlistings] at hvacant
    exact hvacant
  · intro e he
    rcases hsale e he with ⟨req, key, hreq, hkey, hevents, -, hsmall⟩
    rw [hreq]
    exact stepExact_of_unused hkey (by rw [latestEvent_eq, hevents]; rfl) hsmall

/-- A retry of the first buyer sells the stock a second time. -/
theorem oversold : ¬ ∃ rt : Runtime, deriveId rt "pur" "first" ≠ deriveId rt "pur" "second" ∧
    ∀ w, Run.Visits (step ⟨86400⟩ rt) World.initial (oversale rt) w →
      Inventory w.store.db.domain := by
  intro h
  rcases h with ⟨rt, hids, hinventory⟩
  have hfirstKey := validKey_buy rt (show validKey "first" = true by decide)
  have hsecondKey := validKey_buy rt (show validKey "second" = true by decide)
  have hstock := get_stockDomain rt
  have hstill : (0 : Int) + (0 : Nat) = 0 := rfl
  -- the listing
  rcases stock_executes ⟨86400⟩ rt with ⟨hw₁, hsame₁, -⟩
  have hfirst₁ := (hsame₁ "first" (by decide)).trans (Storage.get_empty "first")
  have hsecond₁ := (hsame₁ "second" (by decide)).trans (Storage.get_empty "second")
  -- the purchase that fails after its submission
  have hw₂ := hw₁.failNextTransaction ⟨86400⟩ rt
  rcases request_crashes ⟨86400⟩ rt hw₂ hfirstKey hstill (usable_of_none hfirst₁)
    (fun ev hev => by simp [latestEvent, stockEvent] at hev) (newPayload_buy rt "first") rfl with
    ⟨-, -, hw₃, hsame₃, hfirst₃⟩
  have hsecond₃ := (hsame₃ "second" (by decide)).trans hsecond₁
  -- the purchase that takes the stock
  rcases request_executes ⟨86400⟩ rt hw₃ hsecondKey hstill (usable_of_none hsecond₃)
    (fun ev hev => by simp [latestEvent, stockEvent] at hev) (newPayload_buy rt "second") rfl
    (applyAs_buy rt hstock (Storage.get_empty _)) with ⟨-, -, -, hw₄, hsame₄, -⟩
  have hfirst₄ := (hsame₄ "first" (by decide)).trans hfirst₃
  -- the retry
  have hten : ((stockPayload rt).row 10).quantityRemaining = 10 := rfl
  rcases get_soldDomain rt "second" hstock (by omega) (by omega) with ⟨row₄, hrow₄, hremaining₄⟩
  have hfresh₄ := (purchases_soldDomain rt (stockDomain rt) hids).trans (Storage.get_empty _)
  have hother : "second" ≠ "first" := by decide
  have hrecent : (0 : Int) - 0 < 86400 := by decide
  rcases request_reconciles ⟨86400⟩ rt hw₄ hfirstKey hstill (usable_of_none hfirst₄)
    ((latestEvent_append_other _ hother).trans (latestEvent_append_self _ rfl)) hrecent
    (applyAs_buy rt hrow₄ hfresh₄) with ⟨-, -, -, hw₅, -, -⟩
  rcases get_soldDomain rt "first" hrow₄ (by omega) (by omega) with ⟨row₅, hrow₅, hremaining₅⟩
  have hvisited := hinventory _ (Run.visits_final _ _)
  rw [oversale] at hvisited
  simp only [Run.final_cons, Run.final_nil] at hvisited
  rw [hw₅.domain] at hvisited
  have hsound := hvisited _ row₅ hrow₅
  omega

end Backend
end Kraal
