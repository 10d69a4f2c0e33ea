import Kraal.EventIndexer.Cursor

/-!
# The deliveries of an event

An event is stored first, and its deliveries are enqueued one by one after that.  If the process
is interrupted in between, the event is stored without some of them, and it is taken for a
duplicate whenever it is served again.

Main results:

- Definition {lit}`FansOut`: no interruption falls between an event and its last delivery.
- Theorem {lit}`indexBatch_fansTo`: every event of a batch that is stored has its deliveries.
- Theorem {lit}`deliveries_of_event`: over a whole run, an event has one delivery for each webhook
  that was active when it was stored.
- Theorem {lit}`deliveries_lost`: an event without deliveries.
-/

namespace Kraal
namespace EventIndexer

open Foundation

variable {rt : Runtime} {rpc : SorobanRpcClient} {options : IndexerOptions} {db db' db'' : Db}
  {w : World} {script : List Moment} {target : IndexerTarget}

/-! ## Operations under a script -/

section

variable {α : Type}

/-- The operations of the first entries of a script go through. -/
def Clear (n : Nat) (script : List Moment) : Prop :=
  ∀ moment ∈ script.take n, moment.interruption = none

/-- An operation that is not interrupted takes effect. -/
theorem operation_returned (h : script.head?.bind Moment.interruption = none) (f : Db → α × Db)
    (w : World) : ∃ clock,
      operation f script w = (.returned (f w.db).1, script.tail, ⟨(f w.db).2, clock⟩) := by
  cases script with
  | nil => exact ⟨_, rfl⟩
  | cons moment script =>
      change moment.interruption = none at h
      simp only [operation, Program.bind_apply, Program.next, Program.get, Program.put,
        Option.bind_some, h]
      exact ⟨_, rfl⟩

/-- An operation that is interrupted leaves the database alone. -/
theorem operation_interrupted {interruption : Interruption}
    (h : script.head?.bind Moment.interruption = some interruption) (f : Db → α × Db)
    (w : World) : ∃ exit clock,
      operation f script w = (exit, script.tail, ⟨w.db, clock⟩) ∧ ∀ a, exit ≠ .returned a := by
  cases script with
  | nil => cases h
  | cons moment script =>
      change moment.interruption = some interruption at h
      simp only [operation, Program.bind_apply, Program.next, Program.get, Program.put,
        Option.bind_some, h]
      cases interruption with
      | throws message => exact ⟨.thrown message, _, rfl, fun _ h => by cases h⟩
      | stops => exact ⟨.stopped, _, rfl, fun _ h => by cases h⟩

/-- The first operation goes through. -/
theorem Clear.head {n : Nat} (h : Clear (n + 1) script) :
    script.head?.bind Moment.interruption = none := by
  cases script with
  | nil => rfl
  | cons moment script => exact h moment List.mem_cons_self

/-- The operations after the first go through. -/
theorem Clear.tail {n : Nat} (h : Clear (n + 1) script) : Clear n script.tail := by
  cases script with
  | nil => exact fun m hm => absurd hm (by simp)
  | cons moment script => exact fun m hm => h m (List.mem_cons_of_mem _ hm)

end

/-! ## Deliveries -/

/-- The webhooks that are active for an event type. -/
def Db.subscribers (db : Db) (eventType : String) : List WebhookRegistrationRow :=
  db.webhooks.filter fun row => row.eventType = eventType ∧ row.active

/-- The delivery of an event to a webhook. -/
def newDelivery (eventId : Nat) (indexedAt : Int) (webhook : WebhookRegistrationRow) :
    WebhookDeliveryRow :=
  ⟨webhook.id, eventId, .pending, 0, none, indexedAt, none, none, indexedAt⟩

/-- The webhooks to which an event is delivered. -/
def deliveredTo (db : Db) (eventId : Nat) : List String :=
  (db.deliveries.filter fun row => row.eventId = eventId).map WebhookDeliveryRow.webhookId

/-- Deliveries that are not interrupted are stored. -/
theorem insertDeliveries_apply (eventId : Nat) (indexedAt : Int)
    {webhooks : List WebhookRegistrationRow} (hclear : Clear webhooks.length script) (w : World) :
    ∃ clock, insertDeliveries eventId indexedAt webhooks script w =
      (.returned (), script.drop webhooks.length, ⟨{ w.db with
        deliveries := w.db.deliveries ++ webhooks.map (newDelivery eventId indexedAt) },
          clock⟩) := by
  induction webhooks generalizing script w with
  | nil =>
      refine ⟨w.clock, ?_⟩
      simp only [List.map_nil, List.append_nil, List.length_nil, List.drop_zero]
      rfl
  | cons webhook webhooks ih =>
      rcases operation_returned hclear.head (fun db => ((), { db with
        deliveries := db.deliveries ++ [newDelivery eventId indexedAt webhook] })) w with
        ⟨clock, hinsert⟩
      rcases ih hclear.tail ⟨{ w.db with
        deliveries := w.db.deliveries ++ [newDelivery eventId indexedAt webhook] }, clock⟩ with
        ⟨clock', hrest⟩
      refine ⟨clock', ?_⟩
      have hnext := Program.bind_of_returned hinsert fun _ =>
        insertDeliveries eventId indexedAt webhooks
      rw [hrest] at hnext
      simp only [List.append_assoc, List.singleton_append, List.drop_tail] at hnext
      exact hnext

/-! ## An event -/

/-- The keys that are taken in the unique index. -/
def Db.keys (db : Db) : List (String × String × String) :=
  db.indexedEvents.map IndexedEventRow.key

/-- A duplicate is not stored, and uses up an id. -/
theorem insertEvent_of_mem {ev : RpcEvent} (h : ev.key ∈ db.keys) (indexedAt : Int) :
    db.insertEvent rt ev indexedAt =
      (none, { db with eventSequence := db.eventSequence + 1 }) := by
  rcases List.mem_map.mp h with ⟨row, hrow, hkey⟩
  exact if_pos (List.any_eq_true.mpr ⟨row, hrow, decide_eq_true hkey⟩)

/-- A new event is stored under the next id. -/
theorem insertEvent_of_notMem {ev : RpcEvent} (h : ev.key ∉ db.keys) (indexedAt : Int) :
    db.insertEvent rt ev indexedAt = (some (db.eventSequence + 1), { db with
      indexedEvents := db.indexedEvents ++ [ev.row rt (db.eventSequence + 1) indexedAt]
      eventSequence := db.eventSequence + 1 }) := by
  refine if_neg fun hany => h ?_
  rcases List.any_eq_true.mp hany with ⟨row, hrow, hkey⟩
  exact List.mem_map.mpr ⟨row, hrow, of_decide_eq_true hkey⟩

/-- An event is not stored if the process is interrupted before it. -/
theorem indexEvent_interrupted {ev : RpcEvent} {interruption : Interruption}
    (h : script.head?.bind Moment.interruption = some interruption) (w : World) :
    ∃ exit clock, indexEvent rt target ev script w = (exit, script.tail, ⟨w.db, clock⟩) ∧
      ∀ a, exit ≠ .returned a := by
  rcases operation_interrupted h (fun db => db.insertEvent rt ev w.clock) w with
    ⟨exit, clock, hinsert, hexit⟩
  rcases Program.bind_of_not_returned hinsert hexit _ with ⟨exit', hrun, hexit'⟩
  exact ⟨exit', clock, hrun, hexit'⟩

/-- A duplicate is left out. -/
theorem indexEvent_duplicate {ev : RpcEvent}
    (h : script.head?.bind Moment.interruption = none) (hkey : ev.key ∈ w.db.keys) :
    ∃ w', indexEvent rt target ev script w = (.returned (), script.tail, w') ∧
      w'.db = { w.db with eventSequence := w.db.eventSequence + 1 } := by
  rcases operation_returned h (fun db => db.insertEvent rt ev w.clock) w with ⟨clock, hinsert⟩
  rw [insertEvent_of_mem hkey] at hinsert
  exact ⟨_, Program.bind_of_returned hinsert _, rfl⟩

/-- An event that is stored, and its deliveries if they are not interrupted. -/
theorem indexEvent_new {ev : RpcEvent} {n : Nat}
    (h : script.head?.bind Moment.interruption = none) (hkey : ev.key ∉ w.db.keys)
    (hn : n = (w.db.subscribers target.eventType).length) (hclear : Clear (n + 1) script.tail) :
    ∃ w', indexEvent rt target ev script w = (.returned (), script.tail.drop (n + 1), w') ∧
      w'.db = { w.db with
        indexedEvents := w.db.indexedEvents ++ [ev.row rt (w.db.eventSequence + 1) w.clock]
        deliveries := w.db.deliveries ++ (w.db.subscribers target.eventType).map
          (newDelivery (w.db.eventSequence + 1) w.clock)
        eventSequence := w.db.eventSequence + 1 } := by
  subst hn
  rcases operation_returned h (fun db => db.insertEvent rt ev w.clock) w with ⟨clock, hinsert⟩
  rw [insertEvent_of_notMem hkey] at hinsert
  rcases operation_returned hclear.head
    (fun db => (db.webhooks.filter fun row => row.eventType = target.eventType ∧ row.active, db))
    ⟨{ w.db with
        indexedEvents := w.db.indexedEvents ++ [ev.row rt (w.db.eventSequence + 1) w.clock]
        eventSequence := w.db.eventSequence + 1 }, clock⟩ with ⟨clock', hlist⟩
  rcases insertDeliveries_apply (w.db.eventSequence + 1) w.clock hclear.tail
    ⟨{ w.db with
        indexedEvents := w.db.indexedEvents ++ [ev.row rt (w.db.eventSequence + 1) w.clock]
        eventSequence := w.db.eventSequence + 1 }, clock'⟩ with ⟨clock'', hdeliver⟩
  refine ⟨⟨_, clock''⟩, ?_, rfl⟩
  have hrun : indexEvent rt target ev script w = insertDeliveries (w.db.eventSequence + 1)
      w.clock (w.db.subscribers target.eventType) script.tail.tail
        ⟨{ w.db with
            indexedEvents := w.db.indexedEvents ++ [ev.row rt (w.db.eventSequence + 1) w.clock]
            eventSequence := w.db.eventSequence + 1 }, clock'⟩ :=
    (Program.bind_of_returned hinsert _).trans (Program.bind_of_returned hlist _)
  rw [hrun, hdeliver, List.drop_tail]

/-! ## Batches -/

/-- No interruption falls between an event of a batch that is stored and the last of its
deliveries, of which there are so many. -/
def FansOut (n : Nat) :
    List RpcEvent → List Moment → List (String × String × String) → Prop
  | [], _, _ => True
  | ev :: batch, script, keys =>
      script.head?.bind Moment.interruption = none →
        if ev.key ∈ keys then FansOut n batch script.tail keys
        else Clear (n + 1) script.tail ∧
          FansOut n batch (script.tail.drop (n + 1)) (keys ++ [ev.key])

/-- The ids that are taken after one and up to another, once each. -/
structure NewIds (before after : Nat) (ids : List Nat) : Prop where
  le : before ≤ after
  nodup : ids.Nodup
  lt : ∀ id ∈ ids, before < id
  le_after : ∀ id ∈ ids, id ≤ after

/-- New ids, and new ids after them. -/
theorem NewIds.append {before between after : Nat} {ids ids' : List Nat}
    (h : NewIds before between ids) (h' : NewIds between after ids') :
    NewIds before after (ids ++ ids') := by
  refine ⟨h.le.trans h'.le, List.nodup_append.mpr ⟨h.nodup, h'.nodup, ?_⟩, ?_, ?_⟩
  · intro id hid id' hid'
    exact ((h.le_after id hid).trans_lt (h'.lt id' hid')).ne
  · intro id hid
    rcases List.mem_append.mp hid with hid | hid
    · exact h.lt id hid
    · exact h.le.trans_lt (h'.lt id hid)
  · intro id hid
    rcases List.mem_append.mp hid with hid | hid
    · exact (h.le_after id hid).trans h'.le
    · exact h'.le_after id hid

/-- Events are added under new ids, each with a delivery for every webhook that is active for its
type. -/
def FansTo (db db' : Db) : Prop :=
  ∃ added enqueued, db'.indexedEvents = db.indexedEvents ++ added ∧
    db'.deliveries = db.deliveries ++ enqueued ∧
    NewIds db.eventSequence db'.eventSequence (added.map IndexedEventRow.id) ∧
    enqueued.map (fun row => (row.eventId, row.webhookId)) = added.flatMap fun row =>
      (db.subscribers row.topic).map fun webhook => (row.id, webhook.id)

/-- Nothing is added. -/
theorem FansTo.of_eq (hevents : db'.indexedEvents = db.indexedEvents)
    (hdeliveries : db'.deliveries = db.deliveries)
    (hsequence : db.eventSequence ≤ db'.eventSequence) : FansTo db db' :=
  ⟨[], [], by rw [hevents, List.append_nil], by rw [hdeliveries, List.append_nil],
    ⟨hsequence, List.nodup_nil, by simp, by simp⟩, rfl⟩

/-- Nothing is added. -/
theorem FansTo.refl (db : Db) : FansTo db db :=
  .of_eq rfl rfl le_rfl

/-- What is added first and what is added then. -/
theorem FansTo.trans (h : FansTo db db') (h' : FansTo db' db'')
    (hwebhooks : db'.webhooks = db.webhooks) : FansTo db db'' := by
  rcases h with ⟨added, enqueued, hevents, hdeliveries, hids, hfan⟩
  rcases h' with ⟨added', enqueued', hevents', hdeliveries', hids', hfan'⟩
  refine ⟨added ++ added', enqueued ++ enqueued', ?_, ?_, ?_, ?_⟩
  · rw [hevents', hevents, List.append_assoc]
  · rw [hdeliveries', hdeliveries, List.append_assoc]
  · rw [List.map_append]
    exact hids.append hids'
  · have hsame : ∀ eventType, db'.subscribers eventType = db.subscribers eventType := by
      intro eventType
      rw [Db.subscribers, hwebhooks]
      rfl
    simp only [hsame] at hfan'
    rw [List.map_append, hfan, hfan', List.flatMap_append]

/-- An event and its deliveries. -/
theorem fansTo_event (db : Db) (ev : RpcEvent) (indexedAt : Int) :
    FansTo db { db with
      indexedEvents := db.indexedEvents ++ [ev.row rt (db.eventSequence + 1) indexedAt]
      deliveries := db.deliveries ++ (db.subscribers ev.topic).map
        (newDelivery (db.eventSequence + 1) indexedAt)
      eventSequence := db.eventSequence + 1 } := by
  refine ⟨_, _, rfl, rfl, ⟨Nat.le_succ _, List.nodup_singleton _, ?_, ?_⟩, ?_⟩
  · intro id hid
    rw [List.mem_singleton.mp hid]
    exact Nat.lt_succ_self _
  · intro id hid
    exact (List.mem_singleton.mp hid).le
  · simp only [List.map_map, List.flatMap_cons, List.flatMap_nil, List.append_nil]
    rfl

/-- Every event of a batch that is stored has its deliveries. -/
theorem indexBatch_fansTo {batch : List RpcEvent} {n highWaterLedger : Nat}
    (hbatch : ∀ ev ∈ batch, ev.topic = target.eventType)
    (hn : n = (w.db.subscribers target.eventType).length)
    (hfans : FansOut n batch script w.db.keys) :
    (indexBatch rt target batch highWaterLedger script w).2.2.db.webhooks = w.db.webhooks ∧
      FansTo w.db (indexBatch rt target batch highWaterLedger script w).2.2.db := by
  induction batch generalizing script w highWaterLedger with
  | nil => exact ⟨rfl, .refl _⟩
  | cons ev batch ih =>
      have htopic := hbatch ev List.mem_cons_self
      have hrest := fun ev hev => hbatch ev (List.mem_cons_of_mem _ hev)
      rw [indexBatch]
      cases hinterruption : script.head?.bind Moment.interruption with
      | some interruption =>
          rcases indexEvent_interrupted hinterruption w with ⟨exit, clock, hrun, hexit⟩
          rcases Program.bind_of_not_returned hrun hexit _ with ⟨exit', hbind, -⟩
          rw [hbind]
          exact ⟨rfl, .refl _⟩
      | none =>
          have hfans := hfans hinterruption
          -- what the event has left is what the rest of the batch starts from
          have hcontinue : ∀ {w' : World} {script' : List Moment} {level : Nat},
              w'.db.webhooks = w.db.webhooks → FansTo w.db w'.db →
              FansOut n batch script' w'.db.keys →
              (indexBatch rt target batch level script' w').2.2.db.webhooks = w.db.webhooks ∧
                FansTo w.db (indexBatch rt target batch level script' w').2.2.db := by
            intro w' script' level hwebhooks hevent hfans'
            have hsubscribers : w'.db.subscribers target.eventType =
                w.db.subscribers target.eventType := by
              rw [Db.subscribers, hwebhooks]
              rfl
            rw [← hsubscribers] at hn
            rcases ih hrest hn hfans' with ⟨hsame, hbatch⟩
            exact ⟨hsame.trans hwebhooks, hevent.trans hbatch hwebhooks⟩
          by_cases hkey : ev.key ∈ w.db.keys
          · rw [if_pos hkey] at hfans
            rcases indexEvent_duplicate hinterruption hkey with ⟨w', hrun, hw'⟩
            rw [Program.bind_of_returned hrun]
            have hkeys : w'.db.keys = w.db.keys := by
              rw [hw']
              rfl
            have hevent : FansTo w.db w'.db := by
              rw [hw']
              exact .of_eq rfl rfl (Nat.le_succ _)
            rw [← hkeys] at hfans
            exact hcontinue (by rw [hw']) hevent hfans
          · rw [if_neg hkey] at hfans
            rcases indexEvent_new hinterruption hkey hn hfans.1 with ⟨w', hrun, hw'⟩
            rw [Program.bind_of_returned hrun]
            have hkeys : w'.db.keys = w.db.keys ++ [ev.key] := by
              rw [hw', Db.keys, List.map_append]
              rfl
            have hevent : FansTo w.db w'.db := by
              rw [hw', ← htopic]
              exact fansTo_event w.db ev w.clock
            rw [← hkeys] at hfans
            exact hcontinue (by rw [hw']) hevent hfans.2

/-! ## Pages -/

/-- Moving the cursor adds nothing. -/
theorem advanceCursor_leaves (p : Paging) (highWaterLedger : Nat) (w : World) :
    (advanceCursor p highWaterLedger).Ensures w fun _ w' =>
      FansTo w.db w'.db := by
  unfold advanceCursor
  split
  case isTrue =>
    refine Program.Ensures.bind_get (operation_ensures ?_ ?_ ?_)
    · exact fun _ => .of_eq rfl rfl le_rfl
    · exact fun _ _ => .refl _
    · exact fun _ => .refl _
  case isFalse => exact Program.ensures_pure (.refl _)

/-- A page with events is indexed as a batch, and the cursor moves. -/
theorem indexEvents_cons {p : Paging} {page : GetEventsPage} {ev : RpcEvent}
    {batch : List RpcEvent} (h : page.events = ev :: batch) :
    indexEvents rt p page = (indexBatch rt p.target (ev :: batch) p.highWaterLedger >>=
      fun highWaterLedger => advanceCursor p highWaterLedger >>= fun _ =>
        pure { p with highWaterLedger := highWaterLedger }) := by
  simp only [indexEvents, h]

/-- Every event of a page that is stored has its deliveries. -/
theorem indexEvents_fansTo {p : Paging} {page : GetEventsPage} {n : Nat}
    (hpage : ∀ ev ∈ page.events, ev.topic = p.target.eventType)
    (hn : n = (w.db.subscribers p.target.eventType).length)
    (hfans : FansOut n page.events script w.db.keys) :
    FansTo w.db (indexEvents rt p page script w).2.2.db := by
  cases hevents : page.events with
  | nil =>
      simp only [indexEvents, hevents]
      exact .refl _
  | cons ev batch =>
      rw [hevents] at hpage hfans
      have hbatch : _ ∧ FansTo w.db
          (indexBatch rt p.target (ev :: batch) p.highWaterLedger script w).2.2.db :=
        indexBatch_fansTo hpage hn hfans
      rw [indexEvents_cons hevents]
      rcases hrun : indexBatch rt p.target (ev :: batch) p.highWaterLedger script w with
        ⟨exit, script', w'⟩
      rw [hrun] at hbatch
      cases exit with
      | returned highWaterLedger =>
          have hcursor := (advanceCursor_leaves p highWaterLedger w' script'
            fun _ _ => trivial).2
          rw [Program.bind_of_returned hrun, Program.bind_pure_snd]
          exact hbatch.2.trans hcursor hbatch.1
      | thrown message =>
          rcases Program.bind_of_not_returned hrun (fun _ h => by cases h) _ with ⟨exit', hbind, -⟩
          rw [hbind]
          exact hbatch.2
      | stopped =>
          rcases Program.bind_of_not_returned hrun (fun _ h => by cases h) _ with ⟨exit', hbind, -⟩
          rw [hbind]
          exact hbatch.2

/-- No interruption falls between an event of a page that is stored and the last of its
deliveries. -/
def PageFansOut (rpc : SorobanRpcClient) (rt : Runtime) (options : IndexerOptions) (c : Chain)
    (p : Paging) (script : List Moment) (w : World) : Prop :=
  ∀ page script' w', fetchPage rpc rt options c p script w = (.returned page, script', w') →
    FansOut (w.db.subscribers p.target.eventType).length page.events script' w.db.keys

/-- Every event that indexing a page stores has its deliveries. -/
theorem indexPage_fansTo {c : Chain} {p : Paging}
    (hfans : PageFansOut rpc rt options c p script w) :
    FansTo w.db (indexPage rpc rt options c p script w).2.2.db := by
  have hensures : (fetchPage rpc rt options c p).Ensures w _ := fetchPage_ensures
  have hfetched := (hensures script fun _ _ => trivial).2
  rcases hrun : fetchPage rpc rt options c p script w with ⟨exit, script', w'⟩
  rw [hrun] at hfetched
  cases exit with
  | returned page =>
      have hpage := hfetched.2 page rfl
      have hbatch := hfans page script' w' hrun
      rw [← hfetched.1] at hbatch ⊢
      rw [indexPage, Program.bind_of_returned hrun, Program.bind_pure_snd]
      refine indexEvents_fansTo (fun ev hev => ?_) rfl hbatch
      rw [hpage] at hev
      exact ((rpc.faithful _ _ _ _ _).mem hev).2.1.2
  | thrown message =>
      rcases Program.bind_of_not_returned hrun (fun _ h => by cases h) _ with ⟨exit', hbind, -⟩
      rw [indexPage, hbind]
      rw [hfetched.1]
      exact .refl _
  | stopped =>
      rcases Program.bind_of_not_returned hrun (fun _ h => by cases h) _ with ⟨exit', hbind, -⟩
      rw [indexPage, hbind]
      rw [hfetched.1]
      exact .refl _

/-! ## Steps -/

/-- A step serves no page, or one that fans out. -/
def StepFansOut (rpc : SorobanRpcClient) (rt : Runtime) (options : IndexerOptions) (s : State) :
    Input → Prop
  | .page script => ∀ p rest, s.phase = .indexing p rest →
      PageFansOut rpc rt options s.chain p script s.world
  | _ => True

/-- Turning to the next target leaves the database alone. -/
theorem nextTarget_db (targets : List IndexerTarget) (script : List Moment) (s : State) :
    (nextTarget targets script s).world.db = s.world.db := by
  cases targets with
  | nil => rfl
  | cons target targets =>
      have hbegin := (beginTarget_ensures target s.world script fun _ _ => trivial).2.1
      rcases hrun : beginTarget target script s.world with ⟨exit, script', w⟩
      rw [hrun] at hbegin
      simp only [nextTarget, hrun]
      cases exit with
      | returned p => exact hbegin
      | thrown message => exact hbegin
      | stopped => exact hbegin

/-- Every event that a step stores has its deliveries. -/
theorem step_fansTo {targets : List IndexerTarget} {s : State} {i : Input}
    (hfans : StepFansOut rpc rt options s i) :
    FansTo s.world.db (step rpc rt options targets s i).world.db := by
  cases i with
  | tick script =>
      cases hphase : s.phase with
      | idle =>
          simp only [step, hphase, nextTarget_db]
          exact .refl _
      | indexing p rest =>
          simp only [step, hphase]
          exact .refl _
  | page script =>
      cases hphase : s.phase with
      | idle =>
          simp only [step, hphase]
          exact .refl _
      | indexing p rest =>
          have hpage := indexPage_fansTo (hfans p rest hphase)
          simp only [step, hphase]
          rcases hrun : indexPage rpc rt options s.chain p script s.world with ⟨exit, script', w⟩
          rw [hrun] at hpage
          cases exit with
          | thrown message => exact hpage
          | stopped => exact hpage
          | returned result =>
              cases result with
              | none =>
                  simp only [nextTarget_db]
                  exact hpage
              | some p' => exact hpage
  | restart => exact .refl _
  | close emitted => exact .refl _
  | insertWebhook row => exact .of_eq rfl rfl le_rfl
  | updateWebhook id active => exact .of_eq rfl rfl le_rfl

/-! ## Runs -/

/-- Events are stored under ids that were taken, and so are their deliveries. -/
structure Linked (db : Db) : Prop where
  ids : ∀ row ∈ db.indexedEvents, row.id ≤ db.eventSequence
  deliveries : ∀ row ∈ db.deliveries, row.eventId ≤ db.eventSequence

/-- Nothing is stored at first. -/
theorem linked_empty : Linked Db.empty :=
  ⟨fun _ hrow => absurd hrow List.not_mem_nil, fun _ hrow => absurd hrow List.not_mem_nil⟩

/-- The deliveries that are added are of the events that are added. -/
theorem eventId_of_fan {added : List IndexedEventRow} {enqueued : List WebhookDeliveryRow}
    {after : Nat} (hids : NewIds db.eventSequence after (added.map IndexedEventRow.id))
    (hfan : enqueued.map (fun row => (row.eventId, row.webhookId)) = added.flatMap fun row =>
      (db.subscribers row.topic).map fun webhook => (row.id, webhook.id))
    {row : WebhookDeliveryRow} (hrow : row ∈ enqueued) :
    db.eventSequence < row.eventId ∧ row.eventId ≤ after := by
  have hpair : (row.eventId, row.webhookId) ∈ added.flatMap fun row =>
      (db.subscribers row.topic).map fun webhook => (row.id, webhook.id) := by
    rw [← hfan]
    exact List.mem_map_of_mem hrow
  rcases List.mem_flatMap.mp hpair with ⟨event, hevent, hwebhook⟩
  rcases List.mem_map.mp hwebhook with ⟨webhook, -, heq⟩
  have hid : event.id ∈ added.map IndexedEventRow.id := List.mem_map_of_mem hevent
  have heventId : event.id = row.eventId := congrArg Prod.fst heq
  rw [← heventId]
  exact ⟨hids.lt _ hid, hids.le_after _ hid⟩

/-- What is added is under ids that were taken. -/
theorem FansTo.linked (h : FansTo db db') (hlinked : Linked db) : Linked db' := by
  rcases h with ⟨added, enqueued, hevents, hdeliveries, hids, hfan⟩
  constructor
  · intro row hrow
    rw [hevents] at hrow
    rcases List.mem_append.mp hrow with hrow | hrow
    · exact (hlinked.ids row hrow).trans hids.le
    · exact hids.le_after _ (List.mem_map_of_mem hrow)
  · intro row hrow
    rw [hdeliveries] at hrow
    rcases List.mem_append.mp hrow with hrow | hrow
    · exact (hlinked.deliveries row hrow).trans hids.le
    · exact (eventId_of_fan hids hfan hrow).2

/-- An event that was stored before has the deliveries that it had. -/
theorem FansTo.deliveredTo_of_le (h : FansTo db db') {eventId : Nat}
    (hle : eventId ≤ db.eventSequence) :
    deliveredTo db' eventId = deliveredTo db eventId := by
  rcases h with ⟨added, enqueued, -, hdeliveries, hids, hfan⟩
  have hnone : enqueued.filter (fun row => row.eventId = eventId) = [] := by
    refine List.filter_eq_nil_iff.mpr fun row hrow => ?_
    have hlater := (eventId_of_fan hids hfan hrow).1
    rw [decide_eq_true_eq]
    omega
  rw [deliveredTo, hdeliveries, List.filter_append, hnone, List.append_nil]
  rfl

/-- Of the pairs that belong to some events, those of one of them. -/
theorem filter_flatMap {added : List IndexedEventRow} (f : IndexedEventRow → List String)
    (hnodup : (added.map IndexedEventRow.id).Nodup) {row : IndexedEventRow} (hrow : row ∈ added) :
    ((added.flatMap fun row => (f row).map fun webhookId => (row.id, webhookId)).filter
      fun pair => pair.1 = row.id).map Prod.snd = f row := by
  have hother : ∀ {rows : List IndexedEventRow}, (∀ other ∈ rows, other.id ≠ row.id) →
      (rows.flatMap fun row => (f row).map fun webhookId => (row.id, webhookId)).filter
        (fun pair => pair.1 = row.id) = [] := by
    intro rows hne
    refine List.filter_eq_nil_iff.mpr fun pair hpair => ?_
    rcases List.mem_flatMap.mp hpair with ⟨other, hother, hmem⟩
    rcases List.mem_map.mp hmem with ⟨webhookId, -, rfl⟩
    simpa using hne other hother
  have hself : ((f row).map fun webhookId => (row.id, webhookId)).filter
      (fun pair => pair.1 = row.id) = (f row).map fun webhookId => (row.id, webhookId) := by
    refine List.filter_eq_self.mpr fun pair hpair => ?_
    rcases List.mem_map.mp hpair with ⟨webhookId, -, rfl⟩
    exact decide_eq_true rfl
  rcases List.append_of_mem hrow with ⟨before, after, rfl⟩
  simp only [List.map_append, List.map_cons, List.nodup_append, List.nodup_cons,
    List.mem_map, List.mem_cons] at hnodup
  rcases hnodup with ⟨-, ⟨hafter, -⟩, hbefore⟩
  rw [List.flatMap_append, List.flatMap_cons, List.filter_append, List.filter_append, hself,
    hother fun other hmem => hbefore _ ⟨other, hmem, rfl⟩ _ (.inl rfl),
    hother fun other hmem hid => hafter ⟨other, hmem, hid⟩]
  simp [Function.comp_def]

/-- An event that is added has a delivery for each webhook. -/
theorem FansTo.deliveredTo_new (h : FansTo db db') (hlinked : Linked db) {row : IndexedEventRow}
    (hrow : row ∈ db'.indexedEvents) (hnew : row ∉ db.indexedEvents) :
    deliveredTo db' row.id = (db.subscribers row.topic).map WebhookRegistrationRow.id := by
  rcases h with ⟨added, enqueued, hevents, hdeliveries, hids, hfan⟩
  rw [hevents] at hrow
  have hadded := (List.mem_append.mp hrow).resolve_left hnew
  have hlater := hids.lt _ (List.mem_map_of_mem hadded)
  have hnone : db.deliveries.filter (fun delivery => delivery.eventId = row.id) = [] := by
    refine List.filter_eq_nil_iff.mpr fun delivery hdelivery => ?_
    have hle := hlinked.deliveries delivery hdelivery
    rw [decide_eq_true_eq]
    omega
  have hpairs := filter_flatMap
    (fun row => (db.subscribers row.topic).map WebhookRegistrationRow.id) hids.nodup hadded
  simp only [List.map_map, Function.comp_def] at hpairs
  rw [← hpairs, ← hfan, deliveredTo, hdeliveries, List.filter_append, hnone, List.nil_append]
  simp [List.filter_map, Function.comp_def]

/-- The deliveries of an event after a run from a state whose deliveries are of stored events. -/
theorem deliveredTo_final {targets : List IndexerTarget} {s : State} {run : List Input}
    (hlinked : Linked s.world.db)
    (hfans : ∀ e ∈ Run.trace (step rpc rt options targets) s run,
      StepFansOut rpc rt options e.1 e.2)
    {e : State × Input} (he : e ∈ Run.trace (step rpc rt options targets) s run)
    {row : IndexedEventRow}
    (hrow : row ∈ (step rpc rt options targets e.1 e.2).world.db.indexedEvents)
    (hnew : row ∉ e.1.world.db.indexedEvents) :
    deliveredTo (Run.final (step rpc rt options targets) s run).world.db row.id =
      (e.1.world.db.subscribers row.topic).map WebhookRegistrationRow.id := by
  have hbefore : Linked e.1.world.db := Run.trace_invariant (I := fun s => Linked s.world.db)
    hlinked (fun e he h => (step_fansTo (hfans e he)).linked h) e he
  have hstep : FansTo e.1.world.db (step rpc rt options targets e.1 e.2).world.db :=
    step_fansTo (hfans e he)
  rcases Run.mem_trace_iff.mp he with ⟨pre, post, rfl, hstate⟩
  rw [Run.final_append, Run.final_cons, ← hstate]
  -- the steps after that leave the deliveries of the event alone
  refine (Run.final_invariant (I := fun s : State =>
    row.id ≤ s.world.db.eventSequence ∧ deliveredTo s.world.db row.id =
      (e.1.world.db.subscribers row.topic).map WebhookRegistrationRow.id)
    ⟨(hstep.linked hbefore).ids row hrow, hstep.deliveredTo_new hbefore hrow hnew⟩ ?_).2
  intro e' he' h
  have hmem : e' ∈ Run.trace (step rpc rt options targets) s (pre ++ e.2 :: post) := by
    rw [Run.trace_append, Run.trace_cons, ← hstate]
    exact List.mem_append_right _ (List.mem_cons_of_mem _ he')
  have hstep' : FansTo e'.1.world.db (step rpc rt options targets e'.1 e'.2).world.db :=
    step_fansTo (hfans e' hmem)
  refine ⟨?_, (hstep'.deliveredTo_of_le h.1).trans h.2⟩
  rcases hstep' with ⟨added, enqueued, -, -, hids, -⟩
  exact h.1.trans hids.le

/-- Over a whole run, an event that is stored has one delivery for each webhook that was active for
its type then, if no interruption falls between an event and its last delivery. -/
theorem deliveries_of_event (rpc : SorobanRpcClient) (rt : Runtime) (options : IndexerOptions)
    (targets : List IndexerTarget) (c : Chain) (run : List Input)
    (hfans : ∀ e ∈ Run.trace (step rpc rt options targets) (State.initial c) run,
      StepFansOut rpc rt options e.1 e.2) :
    ∀ e ∈ Run.trace (step rpc rt options targets) (State.initial c) run,
      ∀ row ∈ (step rpc rt options targets e.1 e.2).world.db.indexedEvents,
        row ∉ e.1.world.db.indexedEvents →
          deliveredTo (Run.final (step rpc rt options targets) (State.initial c) run).world.db
            row.id = (e.1.world.db.subscribers row.topic).map WebhookRegistrationRow.id :=
  fun _ he _ hrow hnew => deliveredTo_final linked_empty hfans he hrow hnew

/-! ## An interruption -/

/-- A webhook for sales. -/
def saleHook : WebhookRegistrationRow := ⟨"hook", "sale", true⟩

/-- One sale, and a page that is served with a script. -/
def saleRun (script : List Moment) : List Input :=
  [.insertWebhook saleHook, .tick [], .page script, .restart, .tick [], .page []]

/-- Nothing is interrupted when nothing is scripted. -/
theorem fansOut_nil (n : Nat) (batch : List RpcEvent) (keys : List (String × String × String)) :
    FansOut n batch [] keys := by
  induction batch generalizing keys with
  | nil => trivial
  | cons ev batch ih =>
      intro _
      split
      · exact ih keys
      · refine ⟨fun moment hmoment => by simp at hmoment, ?_⟩
        rw [List.tail_nil, List.drop_nil]
        exact ih _

/-- A sale is delivered once, although the process restarts and looks for it again. -/
theorem delivered_once :
    deliveredTo (Run.final (step Chain.client plainRuntime {} [saleTarget])
      (State.initial (Chain.empty.close [sale "a"])) (saleRun [])).world.db 1 = ["hook"] := by
  refine deliveries_of_event Chain.client plainRuntime {} [saleTarget]
    (Chain.empty.close [sale "a"]) (saleRun []) ?_ _ (.tail _ (.tail _ (.head _)))
    (((sale "a").event 1).row plainRuntime 1 0) (.head _) fun hmem => by cases hmem
  intro e he
  simp only [saleRun, Run.trace_cons, Run.trace_nil, List.mem_cons, List.not_mem_nil,
    or_false] at he
  rcases he with rfl | rfl | rfl | rfl | rfl | rfl
  · trivial
  · trivial
  · intro p rest hphase page script' w' hfetched
    rcases Phase.indexing.inj hphase with ⟨rfl, rfl⟩
    cases hfetched
    exact fansOut_nil _ _ _
  · trivial
  · trivial
  · intro p rest hphase page script' w' hfetched
    rcases Phase.indexing.inj hphase with ⟨rfl, rfl⟩
    cases hfetched
    exact fansOut_nil _ _ _

/-- The process stops after a sale is stored, and never delivers it. -/
theorem deliveries_lost :
    ¬ ∀ e ∈ Run.trace (step Chain.client plainRuntime {} [saleTarget])
        (State.initial (Chain.empty.close [sale "a"]))
        (saleRun [⟨0, none⟩, ⟨0, none⟩, ⟨0, some .stops⟩]),
      ∀ row ∈ (step Chain.client plainRuntime {} [saleTarget] e.1 e.2).world.db.indexedEvents,
        row ∉ e.1.world.db.indexedEvents →
          deliveredTo (Run.final (step Chain.client plainRuntime {} [saleTarget])
            (State.initial (Chain.empty.close [sale "a"]))
            (saleRun [⟨0, none⟩, ⟨0, none⟩, ⟨0, some .stops⟩])).world.db row.id =
              (e.1.world.db.subscribers row.topic).map WebhookRegistrationRow.id := by
  intro h
  have hdelivered := h _ (.tail _ (.tail _ (.head _)))
    (((sale "a").event 1).row plainRuntime 1 0) (.head _) fun hmem => by cases hmem
  have hnone : deliveredTo (Run.final (step Chain.client plainRuntime {} [saleTarget])
      (State.initial (Chain.empty.close [sale "a"]))
      (saleRun [⟨0, none⟩, ⟨0, none⟩, ⟨0, some .stops⟩])).world.db 1 = [] :=
    rfl
  exact List.cons_ne_nil "hook" [] (hdelivered.symm.trans hnone)

end EventIndexer
end Kraal
