import Kraal.EventIndexer.Statements
import Kraal.WebhookDelivery.Service

/-!
# The indexer around the delivery service

The service and the indexer work on the same tables.  To the service, a step of the indexer is a
series of statements, each of which is one of its inputs, wherever the indexer is interrupted.

Main results:

- Definition {lit}`Shared`: the tables of the service and of the indexer are the same.
- Theorem {lit}`indexer_step`: a step of the indexer is a series of inputs of the service.
- Theorem {lit}`indexer_run`: what the indexer leaves in a run is reachable for the service.
-/

namespace Kraal
namespace WebhookDelivery

open Foundation
open EventIndexer (WebhookRegistrationRow WebhookDeliveryRow SorobanRpcClient IndexerOptions
  IndexerTarget Chain KeptByStatements kept_step)

variable {rt : Runtime} {options : WebhookDeliveryOptions} {s : State} {db : Db}
  {db' : EventIndexer.Db}

/-- The tables of the service and of the indexer are the same, in the columns of both. -/
structure Shared (db : Db) (db' : EventIndexer.Db) : Prop where
  webhooks : db.webhooks.map Webhook.toWebhookRegistrationRow = db'.webhooks
  indexedEvents : db.indexedEvents = db'.indexedEvents
  deliveries : db.deliveries.map Delivery.toWebhookDeliveryRow = db'.deliveries
  eventSequence : db.eventSequence = db'.eventSequence

/-- The tables are the same at first. -/
theorem shared_empty : Shared .empty .empty :=
  ⟨rfl, rfl, rfl, rfl⟩

/-- Storing an event in both keeps them the same. -/
theorem Shared.insertIndexedEventIfAbsent (h : Shared db db') (rt : EventIndexer.Runtime)
    (ev : EventIndexer.RpcEvent) (indexedAt : Int) :
    Shared (db.insertIndexedEventIfAbsent rt ev indexedAt)
      (db'.insertEvent rt ev indexedAt).2 := by
  unfold Db.insertIndexedEventIfAbsent EventIndexer.Db.insertEvent
  rw [h.indexedEvents, h.eventSequence]
  split
  · exact ⟨h.webhooks, rfl, h.deliveries, rfl⟩
  · exact ⟨h.webhooks, rfl, h.deliveries, rfl⟩

/-- Storing a delivery in both keeps them the same. -/
theorem Shared.insertWebhookDelivery (h : Shared db db') (row : WebhookDeliveryRow) :
    Shared (db.insertWebhookDelivery row) { db' with deliveries := db'.deliveries ++ [row] } := by
  refine ⟨h.webhooks, h.indexedEvents, ?_, h.eventSequence⟩
  rw [Db.insertWebhookDelivery, List.map_append, h.deliveries]
  rfl

/-- Storing a webhook in both keeps them the same. -/
theorem Shared.insertWebhook (h : Shared db db') (row : Webhook) :
    Shared { db with webhooks := db.webhooks ++ [row] }
      { db' with webhooks := db'.webhooks ++ [row.toWebhookRegistrationRow] } := by
  refine ⟨?_, h.indexedEvents, h.deliveries, h.eventSequence⟩
  rw [List.map_append, h.webhooks]
  rfl

/-- Switching a webhook in both keeps them the same. -/
theorem Shared.updateWebhook (h : Shared db db') (id : String) (active : Bool) :
    Shared (db.updateWebhook id none none (some active)) { db' with
      webhooks := db'.webhooks.map fun row =>
        if row.id = id then { row with active := active } else row } := by
  refine ⟨?_, h.indexedEvents, h.deliveries, h.eventSequence⟩
  rw [Db.updateWebhook, ← h.webhooks, List.map_map, List.map_map]
  refine List.map_congr_left fun row _ => ?_
  simp only [Function.comp_apply]
  split
  · rfl
  · rfl

/-- Some inputs of the service lead to tables of the indexer, and leave the service as it is. -/
def LeadsTo (rt : Runtime) (options : WebhookDeliveryOptions) (s : State)
    (db' : EventIndexer.Db) : Prop :=
  ∃ inputs, Shared (Run.final (step rt options) s inputs).db db' ∧
    (Run.final (step rt options) s inputs).phase = s.phase ∧
    (Run.final (step rt options) s inputs).posts = s.posts

/-- One more input that is a statement. -/
theorem LeadsTo.next (h : LeadsTo rt options s db') (i : Input) {db'' : EventIndexer.Db}
    (hstep : ∀ s, Shared s.db db' → Shared (step rt options s i).db db'' ∧
      (step rt options s i).phase = s.phase ∧ (step rt options s i).posts = s.posts) :
    LeadsTo rt options s db'' := by
  rcases h with ⟨inputs, hshared, hphase, hposts⟩
  rcases hstep _ hshared with ⟨hshared', hphase', hposts'⟩
  refine ⟨inputs ++ [i], ?_⟩
  rw [Run.final_append, Run.final_cons, Run.final_nil]
  exact ⟨hshared', hphase'.trans hphase, hposts'.trans hposts⟩

/-- Every statement of the indexer is an input of the service. -/
theorem leadsTo_kept (rt : Runtime) (options : WebhookDeliveryOptions) (s : State) :
    KeptByStatements rt.toRuntime (LeadsTo rt options s) := by
  constructor
  · intro db' ev indexedAt h
    exact h.next (.insertIndexedEventIfAbsent ev indexedAt) fun s hshared =>
      ⟨hshared.insertIndexedEventIfAbsent rt.toRuntime ev indexedAt, rfl, rfl⟩
  · intro db' eventId indexedAt webhook h
    exact h.next (.insertWebhookDelivery webhook eventId indexedAt) fun s hshared =>
      ⟨hshared.insertWebhookDelivery _, rfl, rfl⟩
  · intro db' eventType row h
    rcases h with ⟨inputs, hshared, hsame⟩
    exact ⟨inputs, ⟨hshared.webhooks, hshared.indexedEvents, hshared.deliveries,
      hshared.eventSequence⟩, hsame⟩
  · intro db' row h
    exact h.next (.insertWebhook ⟨row, "", ""⟩) fun s hshared =>
      ⟨hshared.insertWebhook ⟨row, "", ""⟩, rfl, rfl⟩
  · intro db' id active h
    exact h.next (.updateWebhook id none none (some active)) fun s hshared =>
      ⟨hshared.updateWebhook id active, rfl, rfl⟩

/-- A step of the indexer is a series of inputs of the service. -/
theorem indexer_step (rpc : SorobanRpcClient) (rt : Runtime) (indexerOptions : IndexerOptions)
    (options : WebhookDeliveryOptions) (targets : List IndexerTarget) {t : EventIndexer.State}
    (h : Shared s.db t.world.db) (i : EventIndexer.Input) :
    LeadsTo rt options s
      (EventIndexer.step rpc rt.toRuntime indexerOptions targets t i).world.db :=
  kept_step (leadsTo_kept rt options s) ⟨[], h, rfl, rfl⟩ targets i

/-- What the indexer leaves in a run is reachable for the service. -/
theorem indexer_run (rpc : SorobanRpcClient) (rt : Runtime) (indexerOptions : IndexerOptions)
    (options : WebhookDeliveryOptions) (targets : List IndexerTarget) (c : Chain)
    (run : List EventIndexer.Input) :
    ∃ s, Run.Reachable (step rt options) State.initial s ∧
      Shared s.db (Run.final (EventIndexer.step rpc rt.toRuntime indexerOptions targets)
        (EventIndexer.State.initial c) run).world.db := by
  have hrun : LeadsTo rt options State.initial (Run.final
      (EventIndexer.step rpc rt.toRuntime indexerOptions targets)
      (EventIndexer.State.initial c) run).world.db :=
    Run.final_invariant (I := fun t : EventIndexer.State =>
      LeadsTo rt options State.initial t.world.db) ⟨[], shared_empty, rfl, rfl⟩
      fun _ _ h => kept_step (leadsTo_kept rt options State.initial) h targets _
  rcases hrun with ⟨inputs, hshared, -⟩
  exact ⟨_, ⟨inputs, rfl⟩, hshared⟩

end WebhookDelivery
end Kraal
