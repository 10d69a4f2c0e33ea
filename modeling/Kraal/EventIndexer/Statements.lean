import Kraal.EventIndexer.FanOut

/-!
# The statements of the indexer

Whatever happens during a page, and wherever it ends, the tables change by single statements: an
event or a delivery is inserted, or a cursor is written.  A property of the tables that each
statement keeps is kept by the indexer.

Main results:

- Definition {lit}`KeptByStatements`: a property that every statement keeps.
- Theorem {lit}`kept_step`: it is kept by every step of the indexer.
-/

namespace Kraal
namespace EventIndexer

open Foundation

variable {rt : Runtime} {rpc : SorobanRpcClient} {options : IndexerOptions} {P : Db → Prop}
  {α β : Type}

/-- A property of the tables is kept by the statements of the indexer and of the API. -/
structure KeptByStatements (rt : Runtime) (P : Db → Prop) : Prop where
  insertEvent : ∀ db ev indexedAt, P db → P (db.insertEvent rt ev indexedAt).2
  insertDelivery : ∀ db eventId indexedAt webhook, P db →
    P { db with deliveries := db.deliveries ++ [newDelivery eventId indexedAt webhook] }
  upsertCursor : ∀ db eventType row, P db →
    P { db with cursors := db.cursors.set eventType row }
  insertWebhook : ∀ db row, P db → P { db with webhooks := db.webhooks ++ [row] }
  updateWebhook : ∀ db id active, P db → P { db with
    webhooks := db.webhooks.map fun row =>
      if row.id = id then { row with active := active } else row }

/-- A job keeps a property, however it ends. -/
def Job.Keeps (P : Db → Prop) (x : Job α) : Prop :=
  ∀ w : World, P w.db → x.Ensures w fun _ w' => P w'.db

/-- Returning a value keeps it. -/
theorem keeps_pure (a : α) : Job.Keeps P (pure a) :=
  fun _ h => Program.ensures_pure h

/-- An operation keeps what its statement keeps. -/
theorem keeps_operation {f : Db → α × Db} (h : ∀ db, P db → P (f db).2) :
    Job.Keeps P (operation f) :=
  fun w hw => operation_ensures (fun _ => h w.db hw) (fun _ _ => hw) fun _ => hw

/-- Two jobs that keep it, one after the other. -/
theorem Job.Keeps.bind {x : Job α} {f : α → Job β} (hx : Job.Keeps P x)
    (hf : ∀ a, Job.Keeps P (f a)) : Job.Keeps P (x >>= f) :=
  fun w hw => Program.Ensures.bind (hx w hw) (fun a w' h => hf a w' h) (fun _ _ h => h)
    fun _ h => h

/-- A job that reads the clock first. -/
theorem keeps_bind_get {f : World → Job β} (hf : ∀ w, Job.Keeps P (f w)) :
    Job.Keeps P (Program.get >>= f) :=
  fun w hw => Program.Ensures.bind_get (hf w w hw)

section

variable (hkept : KeptByStatements rt P)

include hkept

/-- Enqueueing deliveries keeps it. -/
theorem keeps_insertDeliveries (eventId : Nat) (indexedAt : Int)
    (webhooks : List WebhookRegistrationRow) :
    Job.Keeps P (insertDeliveries eventId indexedAt webhooks) := by
  induction webhooks with
  | nil => exact keeps_pure ()
  | cons webhook webhooks ih =>
      exact (keeps_operation fun db => hkept.insertDelivery db eventId indexedAt webhook).bind
        fun _ => ih

/-- Indexing an event keeps it. -/
theorem keeps_indexEvent (target : IndexerTarget) (ev : RpcEvent) :
    Job.Keeps P (indexEvent rt target ev) := by
  refine keeps_bind_get fun w => ?_
  refine (keeps_operation fun db => hkept.insertEvent db ev w.clock).bind fun newId => ?_
  cases newId with
  | none => exact keeps_pure ()
  | some newId =>
      exact (keeps_operation fun _ h => h).bind fun webhooks =>
        keeps_insertDeliveries hkept newId w.clock webhooks

/-- Indexing a batch keeps it. -/
theorem keeps_indexBatch (target : IndexerTarget) (batch : List RpcEvent)
    (highWaterLedger : Nat) : Job.Keeps P (indexBatch rt target batch highWaterLedger) := by
  induction batch generalizing highWaterLedger with
  | nil => exact keeps_pure highWaterLedger
  | cons ev batch ih => exact (keeps_indexEvent hkept target ev).bind fun _ => ih _

/-- Moving the cursor keeps it. -/
theorem keeps_advanceCursor (p : Paging) (highWaterLedger : Nat) :
    Job.Keeps P (advanceCursor p highWaterLedger) := by
  unfold advanceCursor
  split
  · exact keeps_bind_get fun w => keeps_operation fun db =>
      hkept.upsertCursor db p.target.eventType _
  · exact keeps_pure ()

/-- Indexing a page keeps it. -/
theorem keeps_indexPage (c : Chain) (p : Paging) :
    Job.Keeps P (indexPage rpc rt options c p) := by
  have hfetch : Job.Keeps P (fetchPage rpc rt options c p) := fun w hw =>
    (fetchPage_ensures (w := w)).mono fun _ w' h => h.1 ▸ hw
  refine hfetch.bind fun page => Job.Keeps.bind ?_ fun _ => keeps_pure _
  cases hevents : page.events with
  | nil =>
      simp only [indexEvents, hevents]
      exact keeps_pure p
  | cons ev batch =>
      rw [indexEvents_cons hevents]
      exact (keeps_indexBatch hkept p.target (ev :: batch) p.highWaterLedger).bind fun high =>
        (keeps_advanceCursor hkept p high).bind fun _ => keeps_pure _

/-- A property that every statement keeps is kept by every step of the indexer. -/
theorem kept_step {s : State} (h : P s.world.db) (targets : List IndexerTarget) (i : Input) :
    P (step rpc rt options targets s i).world.db := by
  cases i with
  | tick script =>
      cases hphase : s.phase with
      | idle =>
          simp only [step, hphase, nextTarget_db]
          exact h
      | indexing p rest =>
          simp only [step, hphase]
          exact h
  | page script =>
      cases hphase : s.phase with
      | idle =>
          simp only [step, hphase]
          exact h
      | indexing p rest =>
          have hpage : P (indexPage rpc rt options s.chain p script s.world).2.2.db :=
            (keeps_indexPage hkept s.chain p s.world h script fun _ _ => trivial).2
          simp only [step, hphase]
          rcases hrun : indexPage rpc rt options s.chain p script s.world with ⟨exit, script', w⟩
          rw [hrun] at hpage
          cases exit with
          | thrown message => exact hpage
          | stopped => exact hpage
          | returned result =>
              cases result with
              | none =>
                  simp only [nextTarget_db]
                  exact hpage
              | some p' => exact hpage
  | restart => exact h
  | close emitted => exact h
  | insertWebhook row => exact hkept.insertWebhook _ row h
  | updateWebhook id active => exact hkept.updateWebhook _ id active h

end

end EventIndexer
end Kraal
