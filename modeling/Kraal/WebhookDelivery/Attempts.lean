import Kraal.WebhookDelivery.Service

/-!
# The attempts of a delivery

Every POST is counted in the row of its delivery when its outcome is known, and the last failed
attempt leaves the row failed.  The query for due deliveries returns failed rows too, so a row whose
attempts are used is POSTed again unless it is cancelled first.

As long as no such row comes up for delivery, a delivery is POSTed as often as its row says and not
more often than allowed, and one that is settled is not POSTed again.

Main results:

- Definition {lit}`Ready`: the rows, the queue and the POSTs of the service.
- Theorem {lit}`sound_step`: every step keeps them in agreement.
- Theorem {lit}`settled_step`: a settled delivery is not POSTed in a step.
- Theorem {lit}`attempts_bounded`: the same over whole runs.
- Theorem {lit}`posted_again`: a delivery with one attempt that is POSTed twice.
-/

namespace Kraal
namespace WebhookDelivery

open Foundation
open EventIndexer (RpcEvent IndexedEventRow WebhookRegistrationRow WebhookDeliveryRow
  DeliveryStatus newDelivery)

/-- What the service is working on. -/
def State.queue (s : State) : List Delivery :=
  match s.phase with
  | .idle => []
  | .posting _ delivery queue => delivery :: queue

/-- The delivery for which a response is awaited. -/
def State.inFlight (s : State) : Option Nat :=
  match s.phase with
  | .idle => none
  | .posting _ delivery _ => some delivery.id

variable {rt : Runtime} {options : WebhookDeliveryOptions} {s : State} {i : Input} {db : Db}
  {row : Delivery} {queue : List Delivery} {inFlight : Option Nat} {now : Int} {id : Nat}

/-! ## Settled deliveries -/

/-- A delivery has failed and all its attempts are used. -/
def Exhausted (options : WebhookDeliveryOptions) (row : Delivery) : Prop :=
  row.status = .failed ∧ options.maxAttempts ≤ row.attemptCount

/-- A delivery is done, or has failed for good. -/
def Settled (options : WebhookDeliveryOptions) (row : Delivery) : Prop :=
  row.status = .delivered ∨ Exhausted options row

instance (options : WebhookDeliveryOptions) : DecidablePred (Exhausted options) :=
  fun row => inferInstanceAs (Decidable (row.status = _ ∧ _ ≤ _))

/-! ## Numbers of the rows -/

/-- The deliveries are numbered in the order in which they were inserted. -/
def Numbered (db : Db) : Prop :=
  db.deliveries.map Delivery.id = List.range' 1 db.deliveries.length

theorem Numbered.nodup (h : Numbered db) : (db.deliveries.map Delivery.id).Nodup := by
  rw [Numbered] at h
  rw [h]
  exact List.nodup_range'

/-- Two rows of the table with the same id are the same. -/
theorem Numbered.eq (h : Numbered db) {row' : Delivery} (hrow : row ∈ db.deliveries)
    (hrow' : row' ∈ db.deliveries) (hid : row.id = row'.id) : row = row' :=
  List.inj_on_of_nodup_map h.nodup hrow hrow' hid

/-- The id of the next row is free. -/
theorem Numbered.next_not_mem (h : Numbered db) :
    db.deliveries.length + 1 ∉ db.deliveries.map Delivery.id := by
  rw [Numbered] at h
  rw [h, List.mem_range'_1]
  omega

/-! ## Rows that are written -/

theorem mem_updateDelivery {fields : DeliveryUpdate} {row' : Delivery} :
    row' ∈ (db.updateDelivery id fields).deliveries ↔
      ∃ row ∈ db.deliveries, (if row.id = id then fields.apply row else row) = row' :=
  List.mem_map

/-- A row that is not written stays. -/
theorem mem_updateDelivery_of_ne {fields : DeliveryUpdate} (hrow : row ∈ db.deliveries)
    (hid : row.id ≠ id) : row ∈ (db.updateDelivery id fields).deliveries :=
  mem_updateDelivery.mpr ⟨row, hrow, if_neg hid⟩

theorem mem_updateDelivery_self {fields : DeliveryUpdate} (hrow : row ∈ db.deliveries) :
    fields.apply row ∈ (db.updateDelivery row.id fields).deliveries :=
  mem_updateDelivery.mpr ⟨row, hrow, if_pos rfl⟩

theorem ids_updateDelivery (db : Db) (id : Nat) (fields : DeliveryUpdate) :
    (db.updateDelivery id fields).deliveries.map Delivery.id =
      db.deliveries.map Delivery.id := by
  rw [Db.updateDelivery, List.map_map]
  refine List.map_congr_left fun row _ => ?_
  rw [Function.comp_apply]
  split
  · rfl
  · rfl

theorem Numbered.updateDelivery (h : Numbered db) (id : Nat) (fields : DeliveryUpdate) :
    Numbered (db.updateDelivery id fields) := by
  rw [Numbered] at h
  rw [Numbered, ids_updateDelivery, h]
  congr 1
  exact (List.length_map _).symm

theorem ids_insertWebhookDelivery (db : Db) (row : WebhookDeliveryRow) :
    (db.insertWebhookDelivery row).deliveries.map Delivery.id =
      db.deliveries.map Delivery.id ++ [db.deliveries.length + 1] :=
  List.map_append

theorem Numbered.insertWebhookDelivery (h : Numbered db) (row : WebhookDeliveryRow) :
    Numbered (db.insertWebhookDelivery row) := by
  rw [Numbered] at h
  rw [Numbered, ids_insertWebhookDelivery, h, Db.insertWebhookDelivery, List.length_append,
    ← List.range'_append_1, Nat.add_comm 1]
  rfl

/-! ## Agreement of the tables and the POSTs -/

/-- The rows count the POSTs, but for the one in flight, and are those of the queue. -/
structure Ready (options : WebhookDeliveryOptions) (s : State) (inFlight : Option Nat)
    (queue : List Delivery) : Prop where
  ids : s.db.deliveries.map Delivery.id = List.range' 1 s.db.deliveries.length
  bounded : ∀ row ∈ s.db.deliveries, row.attemptCount ≤ options.maxAttempts
  left : ∀ row ∈ s.db.deliveries, row.status = .pending → row.attemptCount < options.maxAttempts
  counted : ∀ row ∈ s.db.deliveries, s.postsTo row.id =
    row.attemptCount + if inFlight = some row.id then 1 else 0
  known : ∀ id, id ∉ s.db.deliveries.map Delivery.id → s.postsTo id = 0
  queued : ∀ row ∈ queue, row ∈ s.db.deliveries ∧ row.status ≠ .delivered
  distinct : (queue.map Delivery.id).Nodup

/-- The service is in agreement with its tables, and an attempt is left for the POST in flight. -/
structure Sound (options : WebhookDeliveryOptions) (s : State) : Prop
    extends Ready options s s.inFlight s.queue where
  attempt : ∀ now delivery queue, s.phase = .posting now delivery queue →
    delivery.attemptCount < options.maxAttempts

/-- The clock and the phase do not matter to the tables. -/
theorem Ready.congr {s' : State} (h : Ready options s inFlight queue) (hdb : s'.db = s.db)
    (hposts : s'.posts = s.posts) : Ready options s' inFlight queue := by
  cases s
  cases s'
  cases hdb
  cases hposts
  exact ⟨h.ids, h.bounded, h.left, h.counted, h.known, h.queued, h.distinct⟩

theorem Ready.numbered (h : Ready options s inFlight queue) : Numbered s.db := h.ids

/-! ## The queue goes on -/

/-- The row in front of a queue is written, and the queue goes on with the others. -/
theorem Ready.update (h : Ready options s inFlight (row :: queue)) {fields : DeliveryUpdate}
    (hbounded : (fields.apply row).attemptCount ≤ options.maxAttempts)
    (hleft : (fields.apply row).status = .pending →
      (fields.apply row).attemptCount < options.maxAttempts)
    (hcounted : s.postsTo row.id = (fields.apply row).attemptCount)
    (hflight : ∀ id, inFlight = some id → id = row.id) :
    Ready options (s.withDb (s.db.updateDelivery row.id fields)) none queue := by
  have hrow := (h.queued row List.mem_cons_self).1
  have hdistinct := h.distinct
  rw [List.map_cons, List.nodup_cons] at hdistinct
  -- the rows are those from before, and the one that is written
  have hrows : ∀ row' ∈ (s.db.updateDelivery row.id fields).deliveries,
      row' = fields.apply row ∨ row' ∈ s.db.deliveries ∧ row'.id ≠ row.id := by
    intro row' hrow'
    rcases mem_updateDelivery.mp hrow' with ⟨old, hold, heq⟩
    by_cases hid : old.id = row.id
    · rw [if_pos hid, h.numbered.eq hold hrow hid] at heq
      exact .inl heq.symm
    · rw [if_neg hid] at heq
      subst heq
      exact .inr ⟨hold, hid⟩
  constructor
  · exact h.numbered.updateDelivery row.id fields
  · intro row' hrow'
    rcases hrows row' hrow' with rfl | ⟨hold, -⟩
    · exact hbounded
    · exact h.bounded row' hold
  · intro row' hrow'
    rcases hrows row' hrow' with rfl | ⟨hold, -⟩
    · exact hleft
    · exact h.left row' hold
  · intro row' hrow'
    rw [if_neg (Option.some_ne_none _).symm]
    rcases hrows row' hrow' with rfl | ⟨hold, hid⟩
    · exact hcounted
    · have hcount := h.counted row' hold
      rw [if_neg fun hflight' => hid (hflight _ hflight')] at hcount
      exact hcount
  · intro id hid
    refine h.known id ?_
    rw [← ids_updateDelivery s.db row.id fields]
    exact hid
  · intro row' hrow'
    have hqueued := h.queued row' (List.mem_cons_of_mem _ hrow')
    refine ⟨mem_updateDelivery_of_ne hqueued.1 fun hid => hdistinct.1 ?_, hqueued.2⟩
    rw [← hid]
    exact List.mem_map_of_mem hrow'
  · exact hdistinct.2

/-- A delivery is cancelled. -/
theorem Ready.cancel (h : Ready options s none (row :: queue)) (message : String) :
    Ready options (s.cancel row.id message) none queue := by
  have hrow := (h.queued row List.mem_cons_self).1
  have hcounted := h.counted row hrow
  rw [if_neg (Option.some_ne_none _).symm] at hcounted
  exact h.update (h.bounded row hrow) (fun hstatus => by cases hstatus) hcounted
    fun _ hflight => by cases hflight

/-- An attempt counts, and leaves a delivery pending only if another one is left. -/
theorem settle_eq (db : Db) (options : WebhookDeliveryOptions) (now : Int) (delivery : Delivery)
    (outcome : Outcome) :
    ∃ fields : DeliveryUpdate,
      db.settle options now delivery outcome = db.updateDelivery delivery.id fields ∧
      (fields.apply delivery).attemptCount = delivery.attemptCount + 1 ∧
      ((fields.apply delivery).status = .pending →
        delivery.attemptCount + 1 < options.maxAttempts) := by
  have hfailure : ∀ responseStatus message, ∃ fields : DeliveryUpdate,
      db.handleFailure options delivery.id (delivery.attemptCount + 1) now responseStatus message =
        db.updateDelivery delivery.id fields ∧
      (fields.apply delivery).attemptCount = delivery.attemptCount + 1 ∧
      ((fields.apply delivery).status = .pending →
        delivery.attemptCount + 1 < options.maxAttempts) := by
    intro responseStatus message
    refine ⟨_, rfl, rfl, fun hstatus => ?_⟩
    by_contra hlast
    have hfailed : (if options.maxAttempts ≤ delivery.attemptCount + 1 then DeliveryStatus.failed
        else .pending) = .pending := hstatus
    rw [if_pos (not_lt.mp hlast)] at hfailed
    cases hfailed
  cases outcome with
  | response status ok =>
      cases ok with
      | true => exact ⟨_, rfl, rfl, fun hstatus => by cases hstatus⟩
      | false => exact hfailure _ _
  | exception message => exact hfailure _ _

/-- The outcome of an attempt is written. -/
theorem Ready.settle (h : Ready options s (some row.id) (row :: queue))
    (hattempt : row.attemptCount < options.maxAttempts) (now : Int) (outcome : Outcome) :
    Ready options (s.withDb (s.db.settle options now row outcome)) none queue := by
  rcases settle_eq s.db options now row outcome with ⟨fields, heq, hcount, hleft⟩
  have hcounted := h.counted row (h.queued row List.mem_cons_self).1
  rw [if_pos rfl] at hcounted
  rw [heq]
  refine h.update ?_ (fun hstatus => ?_) ?_ fun id hid => (Option.some.inj hid).symm
  · rw [hcount]
    exact hattempt
  · rw [hcount]
    exact hleft hstatus
  · rw [hcount, hcounted]

/-- A delivery is POSTed. -/
theorem Ready.post (h : Ready options s none (row :: queue)) (phase : Phase) {post : Post}
    (hpost : post.deliveryId = row.id) :
    Ready options { s with phase := phase, posts := s.posts ++ [post] } (some row.id)
      (row :: queue) := by
  refine ⟨h.ids, h.bounded, h.left, fun row' hrow' => ?_, fun id hid => ?_, h.queued, h.distinct⟩
  · rw [postsTo_append, hpost, h.counted row' hrow', if_neg (Option.some_ne_none _).symm]
    simp only [Option.some.injEq, Nat.add_zero]
  · have hne : post.deliveryId ≠ id := by
      rintro rfl
      rw [hpost] at hid
      exact hid (List.mem_map_of_mem (h.queued row List.mem_cons_self).1)
    rw [postsTo_append, if_neg hne]
    exact h.known id hid

/-! ## Steps -/

/-- No delivery that would be POSTed has used all its attempts. -/
def Unspent (options : WebhookDeliveryOptions) (db : Db) (queue : List Delivery) : Prop :=
  ∀ row ∈ queue, ∀ found, db.recipient row = .ok found → ¬ Exhausted options row

/-- What comes up for delivery in a step has attempts left, and the process does not restart while a
response is awaited. -/
def StepUnspent (options : WebhookDeliveryOptions) (s : State) : Input → Prop
  | .drain elapsed query => s.phase = .idle →
      Unspent options s.db (query.getPendingDeliveries s.db (s.clock + elapsed))
  | .report _ => ∀ now delivery queue, s.phase = .posting now delivery queue →
      Unspent options s.db queue
  | .restart => s.phase = .idle
  | _ => True

theorem Unspent.congr {db' : Db} (h : Unspent options db queue)
    (hrecipient : ∀ row, db'.recipient row = db.recipient row) : Unspent options db' queue := by
  intro row hrow found hfound
  rw [hrecipient] at hfound
  exact h row hrow found hfound

theorem Unspent.tail (h : Unspent options db (row :: queue)) : Unspent options db queue :=
  fun row hrow => h row (List.mem_cons_of_mem _ hrow)

/-- A delivery that is POSTed has an attempt left. -/
theorem Ready.attempt (h : Ready options s none (row :: queue))
    (hunspent : Unspent options s.db (row :: queue)) {found : Webhook × IndexedEventRow}
    (hfound : s.db.recipient row = .ok found) : row.attemptCount < options.maxAttempts := by
  rcases h.queued row List.mem_cons_self with ⟨hrow, hstatus⟩
  cases hrow' : row.status with
  | pending => exact h.left row hrow hrow'
  | delivered => exact absurd hrow' hstatus
  | failed =>
      exact not_le.mp fun hspent =>
        hunspent row List.mem_cons_self found hfound ⟨hrow', hspent⟩

/-- The service is idle, or done with its queue. -/
theorem Ready.idle (h : Ready options s none queue) :
    Sound options { s with phase := .idle } :=
  ⟨⟨h.ids, h.bounded, h.left, h.counted, h.known, (fun _ hrow => by cases hrow),
    List.nodup_nil⟩, fun _ _ _ hphase => by cases hphase⟩

/-- The service goes through its queue until it waits for a response. -/
theorem Ready.resume (h : Ready options s none queue) (hunspent : Unspent options s.db queue)
    (rt : Runtime) (now : Int) : Sound options (resume rt now queue s) := by
  refine resume_ensures (P := fun s queue => Ready options s none queue ∧
    Unspent options s.db queue) (Q := Sound options) ?_ ?_ ?_ ?_ ⟨h, hunspent⟩
  · exact fun s h => h.1.idle
  · intro s row queue message h hrecipient
    exact ⟨h.1.cancel message, h.2.tail.congr (recipient_cancel s row.id message)⟩
  · exact fun s row queue webhook event h _ _ => h.1.idle
  · intro s row queue webhook event data h hrecipient hparse
    refine ⟨h.1.post _ rfl, fun now' delivery queue' hphase => ?_⟩
    rcases Phase.posting.inj hphase with ⟨-, rfl, -⟩
    exact h.1.attempt h.2 hrecipient

/-- Statements that leave the deliveries alone. -/
theorem Sound.withDb (h : Sound options s) (hdeliveries : db.deliveries = s.db.deliveries) :
    Sound options (s.withDb db) := by
  refine ⟨⟨?_, ?_, ?_, ?_, ?_, ?_, h.distinct⟩, h.attempt⟩
  · rw [withDb_db, hdeliveries]
    exact h.ids
  · rw [withDb_db, hdeliveries]
    exact h.bounded
  · rw [withDb_db, hdeliveries]
    exact h.left
  · rw [withDb_db, hdeliveries]
    exact h.counted
  · rw [withDb_db, hdeliveries]
    exact h.known
  · rw [withDb_db, hdeliveries]
    exact h.queued

/-- A new delivery has not been tried. -/
theorem Sound.insertWebhookDelivery (h : Sound options s) (hmax : 0 < options.maxAttempts)
    (webhook : WebhookRegistrationRow) (eventId : Nat) (indexedAt : Int) :
    Sound options (s.withDb
      (s.db.insertWebhookDelivery (newDelivery eventId indexedAt webhook))) := by
  have hrows : ∀ row ∈ (s.db.insertWebhookDelivery
      (newDelivery eventId indexedAt webhook)).deliveries,
      row ∈ s.db.deliveries ∨
        row = ⟨newDelivery eventId indexedAt webhook, s.db.deliveries.length + 1⟩ := by
    intro row hrow
    rcases List.mem_append.mp hrow with hold | hnew
    · exact .inl hold
    · exact .inr (List.mem_singleton.mp hnew)
  have hfree := h.numbered.next_not_mem
  refine ⟨⟨?_, ?_, ?_, ?_, ?_, ?_, h.distinct⟩, h.attempt⟩
  · exact h.numbered.insertWebhookDelivery _
  · intro row hrow
    rcases hrows row hrow with hold | rfl
    · exact h.bounded row hold
    · exact Nat.zero_le _
  · intro row hrow hstatus
    rcases hrows row hrow with hold | rfl
    · exact h.left row hold hstatus
    · exact hmax
  · intro row hrow
    rcases hrows row hrow with hold | rfl
    · exact h.counted row hold
    · have hflight : s.inFlight ≠ some (s.db.deliveries.length + 1) := by
        cases hphase : s.phase with
        | idle =>
            rw [State.inFlight, hphase]
            exact (Option.some_ne_none _).symm
        | posting now delivery queue =>
            have hqueue : delivery ∈ s.queue := by
              rw [State.queue, hphase]
              exact List.mem_cons_self
            rw [State.inFlight, hphase]
            intro heq
            refine hfree ?_
            rw [← Option.some.inj heq]
            exact List.mem_map_of_mem (h.queued delivery hqueue).1
      change s.postsTo (s.db.deliveries.length + 1) =
        0 + if s.inFlight = some (s.db.deliveries.length + 1) then 1 else 0
      rw [if_neg hflight]
      exact h.known _ hfree
  · intro id hid
    rw [withDb_db, ids_insertWebhookDelivery] at hid
    exact h.known id fun hmem => hid (List.mem_append_left _ hmem)
  · intro row hrow
    have hqueued := h.queued row hrow
    exact ⟨List.mem_append_left _ hqueued.1, hqueued.2⟩

/-- The deliveries that the database answers with. -/
theorem Ready.drain (h : Ready options s none queue) (query : DeliveryQuery) (now : Int) :
    Ready options s none (query.getPendingDeliveries s.db now) := by
  have hselects := query.selects s.db now
  refine ⟨h.ids, h.bounded, h.left, h.counted, h.known, fun row hrow => ?_, ?_⟩
  · rcases List.mem_filter.mp (hselects.mem hrow) with ⟨hmem, hdue⟩
    rcases (of_decide_eq_true hdue).1 with hstatus | hstatus
    · rw [hstatus]
      exact ⟨hmem, fun h => by cases h⟩
    · rw [hstatus]
      exact ⟨hmem, fun h => by cases h⟩
  · exact hselects.nodup (List.Nodup.sublist (List.filter_sublist.map _) h.numbered.nodup)

theorem Sound.ready_idle (h : Sound options s) (hphase : s.phase = .idle) :
    Ready options s none [] := by
  have hready := h.toReady
  rwa [State.inFlight, State.queue, hphase] at hready

theorem Sound.ready_posting (h : Sound options s) {delivery : Delivery}
    (hphase : s.phase = .posting now delivery queue) :
    Ready options s (some delivery.id) (delivery :: queue) := by
  have hready := h.toReady
  rwa [State.inFlight, State.queue, hphase] at hready

/-- What every step keeps. -/
theorem sound_step (h : Sound options s) (rt : Runtime) (hmax : 0 < options.maxAttempts)
    (hunspent : StepUnspent options s i) : Sound options (step rt options s i) := by
  cases i with
  | drain elapsed query =>
      cases hphase : s.phase with
      | idle =>
          have hready : Ready options { s with clock := s.clock + elapsed, phase := .idle } none
              (query.getPendingDeliveries s.db (s.clock + elapsed)) :=
            ((h.ready_idle hphase).drain query _).congr rfl rfl
          simp only [step, hphase]
          exact hready.resume (hunspent hphase) rt _
      | posting now delivery queue =>
          simp only [step, hphase]
          refine ⟨(h.ready_posting hphase).congr rfl rfl, fun now' delivery' queue' hphase' => ?_⟩
          exact h.attempt now' delivery' queue' (hphase.trans hphase')
  | report outcome =>
      cases hphase : s.phase with
      | idle =>
          simp only [step, hphase]
          exact h
      | posting now delivery queue =>
          have hready := (h.ready_posting hphase).settle
            (h.attempt now delivery queue hphase) now outcome
          rcases settle_eq s.db options now delivery outcome with ⟨fields, heq, -⟩
          simp only [step, hphase]
          refine hready.resume ((hunspent now delivery queue hphase).congr fun row => ?_) rt now
          rw [withDb_db, heq, recipient_updateDelivery]
  | restart => exact (h.ready_idle hunspent).idle
  | insertIndexedEventIfAbsent ev indexedAt =>
      refine h.withDb ?_
      rw [Db.insertIndexedEventIfAbsent]
      split
      · rfl
      · rfl
  | insertWebhookDelivery webhook eventId indexedAt =>
      exact h.insertWebhookDelivery hmax webhook eventId indexedAt
  | insertWebhook row => exact h.withDb rfl
  | updateWebhook id url secret active => exact h.withDb rfl

theorem sound_initial (options : WebhookDeliveryOptions) : Sound options .initial :=
  ⟨⟨rfl, (fun _ hrow => by cases hrow), (fun _ hrow => by cases hrow),
    (fun _ hrow => by cases hrow), (fun _ _ => rfl), (fun _ hrow => by cases hrow),
    List.nodup_nil⟩, fun _ _ _ hphase => by cases hphase⟩

/-- A delivery is POSTed as often as allowed at most. -/
theorem Sound.postsTo_le (h : Sound options s) (id : Nat) : s.postsTo id ≤ options.maxAttempts := by
  by_cases hid : id ∈ s.db.deliveries.map Delivery.id
  · rcases List.mem_map.mp hid with ⟨row, hrow, rfl⟩
    rw [h.counted row hrow]
    cases hphase : s.phase with
    | idle =>
        rw [State.inFlight, hphase, if_neg (Option.some_ne_none _).symm]
        exact h.bounded row hrow
    | posting now delivery queue =>
        rw [State.inFlight, hphase]
        by_cases hflight : delivery.id = row.id
        · have hmem := ((h.ready_posting hphase).queued delivery List.mem_cons_self).1
          rw [if_pos (congrArg some hflight), ← h.numbered.eq hmem hrow hflight]
          exact h.attempt now delivery queue hphase
        · rw [if_neg fun heq => hflight (Option.some.inj heq)]
          exact h.bounded row hrow
  · rw [h.known id hid]
    exact Nat.zero_le _

/-! ## Settled deliveries in a step -/

/-- A delivery is settled, and has been POSTed a number of times. -/
def SettledAt (options : WebhookDeliveryOptions) (s : State) (id count : Nat) : Prop :=
  ∃ row ∈ s.db.deliveries, row.id = id ∧ Settled options row ∧ s.postsTo id = count

/-- A delivery that is settled is not the first of a queue, or its attempts are used. -/
theorem SettledAt.exhausted {count : Nat} (h : SettledAt options s row.id count)
    (hready : Ready options s inFlight (row :: queue)) : Exhausted options row := by
  rcases h with ⟨settled, hmem, hid, hsettled, -⟩
  rcases hready.queued row List.mem_cons_self with ⟨hrow, hstatus⟩
  rw [hready.numbered.eq hmem hrow hid] at hsettled
  exact hsettled.resolve_left hstatus

/-- The row of another delivery is written. -/
theorem SettledAt.update {count : Nat} (h : SettledAt options s id count) {other : Nat}
    (hne : id ≠ other) (fields : DeliveryUpdate) :
    SettledAt options (s.withDb (s.db.updateDelivery other fields)) id count := by
  rcases h with ⟨row, hrow, rfl, hsettled, hposts⟩
  exact ⟨row, mem_updateDelivery_of_ne hrow hne, rfl, hsettled, hposts⟩

theorem SettledAt.resume {count : Nat} (h : SettledAt options s id count)
    (hready : Ready options s none queue) (hunspent : Unspent options s.db queue) (rt : Runtime)
    (now : Int) : SettledAt options (resume rt now queue s) id count := by
  refine resume_ensures (P := fun s queue => Ready options s none queue ∧
    Unspent options s.db queue ∧ SettledAt options s id count)
    (Q := fun s => SettledAt options s id count) ?_ ?_ ?_ ?_ ⟨hready, hunspent, h⟩
  · exact fun s h => h.2.2
  · intro s row queue message h hrecipient
    refine ⟨h.1.cancel message, h.2.1.tail.congr (recipient_cancel s row.id message), ?_⟩
    by_cases hid : id = row.id
    · subst hid
      have hexhausted := h.2.2.exhausted h.1
      rcases h.2.2 with ⟨-, -, -, -, hposts⟩
      exact ⟨_, mem_updateDelivery_self (h.1.queued row List.mem_cons_self).1, rfl,
        .inr ⟨rfl, hexhausted.2⟩, hposts⟩
    · exact h.2.2.update hid _
  · exact fun s row queue webhook event h _ _ => h.2.2
  · intro s row queue webhook event data h hrecipient hparse
    have hid : (Post.make rt webhook event data row.id).deliveryId ≠ id := by
      rintro rfl
      exact h.2.1 row List.mem_cons_self _ hrecipient (h.2.2.exhausted h.1)
    rcases h.2.2 with ⟨settled, hmem, hsettledId, hsettled, hposts⟩
    refine ⟨settled, hmem, hsettledId, hsettled, ?_⟩
    rw [postsTo_append, if_neg hid, hposts, Nat.add_zero]

/-- A settled delivery is not POSTed in a step, and stays settled. -/
theorem settled_step {count : Nat} (h : SettledAt options s id count) (hsound : Sound options s)
    (rt : Runtime) (hunspent : StepUnspent options s i) :
    SettledAt options (step rt options s i) id count := by
  cases i with
  | drain elapsed query =>
      cases hphase : s.phase with
      | idle =>
          have hready : Ready options { s with clock := s.clock + elapsed, phase := .idle } none
              (query.getPendingDeliveries s.db (s.clock + elapsed)) :=
            ((hsound.ready_idle hphase).drain query _).congr rfl rfl
          have hclock : SettledAt options { s with clock := s.clock + elapsed, phase := .idle } id
            count := h
          simp only [step, hphase]
          exact hclock.resume hready (hunspent hphase) rt _
      | posting now delivery queue =>
          simp only [step, hphase]
          exact h
  | report outcome =>
      cases hphase : s.phase with
      | idle =>
          simp only [step, hphase]
          exact h
      | posting now delivery queue =>
          have hready := hsound.ready_posting hphase
          have hattempt := hsound.attempt now delivery queue hphase
          -- the delivery in flight has an attempt left
          have hid : id ≠ delivery.id := by
            rintro rfl
            exact absurd (h.exhausted hready).2 (not_le.mpr hattempt)
          rcases settle_eq s.db options now delivery outcome with ⟨fields, heq, -⟩
          have hsettled := h.update hid fields
          rw [← heq] at hsettled
          simp only [step, hphase]
          refine hsettled.resume (hready.settle hattempt now outcome)
            ((hunspent now delivery queue hphase).congr fun row => ?_) rt now
          rw [withDb_db, heq, recipient_updateDelivery]
  | restart => exact h
  | insertIndexedEventIfAbsent ev indexedAt =>
      rcases h with ⟨row, hrow, hid, hsettled, hposts⟩
      refine ⟨row, ?_, hid, hsettled, hposts⟩
      change row ∈ (s.db.insertIndexedEventIfAbsent rt.toRuntime ev indexedAt).deliveries
      rw [Db.insertIndexedEventIfAbsent]
      split
      · exact hrow
      · exact hrow
  | insertWebhookDelivery webhook eventId indexedAt =>
      rcases h with ⟨row, hrow, hid, hsettled, hposts⟩
      exact ⟨row, List.mem_append_left _ hrow, hid, hsettled, hposts⟩
  | insertWebhook row => exact h
  | updateWebhook id url secret active => exact h

/-! ## Runs -/

/-- Over a whole run a delivery is POSTed as often as allowed at most, and not again once it is
delivered or has failed after its last attempt. -/
theorem attempts_bounded (rt : Runtime) (options : WebhookDeliveryOptions)
    (hmax : 0 < options.maxAttempts) (run : List Input)
    (hsteps : ∀ e ∈ Run.trace (step rt options) State.initial run, StepUnspent options e.1 e.2) :
    (∀ s, Run.Visits (step rt options) State.initial run s →
      ∀ id, s.postsTo id ≤ options.maxAttempts) ∧
    ∀ before after, run = before ++ after →
      ∀ row ∈ (Run.final (step rt options) State.initial before).db.deliveries,
        Settled options row →
          (Run.final (step rt options) State.initial run).postsTo row.id =
            (Run.final (step rt options) State.initial before).postsTo row.id := by
  have hkeeps : ∀ e ∈ Run.trace (step rt options) State.initial run,
      Sound options e.1 → Sound options (step rt options e.1 e.2) :=
    fun e he h => sound_step h rt hmax (hsteps e he)
  refine ⟨fun s hs => ?_, ?_⟩
  · exact (Run.visits_invariant (I := Sound options) (sound_initial options) hkeeps s hs).postsTo_le
  · rintro before after rfl row hrow hsettled
    have hvisits : Run.Visits (step rt options) State.initial (before ++ after)
        (Run.final (step rt options) State.initial before) := ⟨before, after, rfl, rfl⟩
    have hbefore := Run.visits_invariant (I := Sound options) (sound_initial options) hkeeps _
      hvisits
    have hsettledAt : SettledAt options (Run.final (step rt options) State.initial before) row.id
        ((Run.final (step rt options) State.initial before).postsTo row.id) :=
      ⟨row, hrow, rfl, hsettled, rfl⟩
    rw [Run.trace_append] at hsteps
    rw [Run.final_append]
    have hafter := Run.final_invariant (I := fun s => Sound options s ∧ SettledAt options s row.id
        ((Run.final (step rt options) State.initial before).postsTo row.id))
      ⟨hbefore, hsettledAt⟩ fun e he h =>
        have hunspent := hsteps e (List.mem_append_right _ he)
        ⟨sound_step h.1 rt hmax hunspent, settled_step h.2 h.1 rt hunspent⟩
    rcases hafter.2 with ⟨-, -, -, -, hposts⟩
    exact hposts

/-! ## One attempt -/

/-- What the texts that are printed stand for. -/
def plainParse : String → Option Backend.Json
  | "true" => some (.bool true)
  | "false" => some (.bool false)
  | "null" => some .null
  | _ => none

/-- A runtime for null and the booleans, with signatures that show secret and payload. -/
def plainRuntime : Runtime where
  toRuntime := EventIndexer.plainRuntime
  parse := plainParse
  hmac secret payload := secret ++ payload
  parse_stringify value := by
    cases value with
    | bool b => cases b <;> rfl
    | null => rfl
    | num x => rfl
    | str text => rfl
    | arr items => rfl
    | obj fields => rfl

/-- A webhook for sales, with its address and secret. -/
def saleWebhook : Webhook := ⟨EventIndexer.saleHook, "https://hook", "secret"⟩

/-- A webhook, and an event for it. -/
def saleDelivery : List Input :=
  [.insertWebhook saleWebhook, .insertIndexedEventIfAbsent ((EventIndexer.sale "a").event 1) 0,
    .insertWebhookDelivery EventIndexer.saleHook 1 0]

/-- A single attempt is allowed. -/
def oneAttempt : WebhookDeliveryOptions := { maxAttempts := 1 }

/-- The attempt fails, and the webhook is switched off before the next drain. -/
def cancelledRun : List Input :=
  saleDelivery ++ [.drain 0 .byId, .report (.response 500 false),
    .updateWebhook "hook" none none (some false), .drain 0 .byId]

theorem unspent_of_pending (h : ∀ row ∈ queue, row.status = .pending) :
    Unspent options db queue := by
  intro row hrow found _ hexhausted
  have hfailed := hexhausted.1
  rw [h row hrow] at hfailed
  cases hfailed

theorem unspent_of_cancelled (h : ∀ row ∈ queue, (db.recipient row).isOk = false) :
    Unspent options db queue := by
  intro row hrow found hfound
  have hcancelled := h row hrow
  rw [hfound] at hcancelled
  cases hcancelled

/-- A delivery whose attempt is used is cancelled. -/
theorem posted_once :
    (∀ s, Run.Visits (step plainRuntime oneAttempt) State.initial cancelledRun s →
      ∀ id, s.postsTo id ≤ 1) ∧
    ∀ before after, cancelledRun = before ++ after →
      ∀ row ∈ (Run.final (step plainRuntime oneAttempt) State.initial before).db.deliveries,
        Settled oneAttempt row →
          (Run.final (step plainRuntime oneAttempt) State.initial cancelledRun).postsTo row.id =
            (Run.final (step plainRuntime oneAttempt) State.initial before).postsTo row.id := by
  refine attempts_bounded plainRuntime oneAttempt (by decide) cancelledRun ?_
  intro e he
  simp only [cancelledRun, saleDelivery, List.cons_append, List.nil_append, Run.trace_cons,
    Run.trace_nil, List.mem_cons, List.not_mem_nil, or_false] at he
  rcases he with rfl | rfl | rfl | rfl | rfl | rfl | rfl
  · trivial
  · trivial
  · trivial
  · exact fun _ => unspent_of_pending (by decide)
  · intro now delivery queue hphase
    rcases Phase.posting.inj hphase with ⟨-, -, rfl⟩
    exact fun row hrow => by cases hrow
  · trivial
  · exact fun _ => unspent_of_cancelled (by decide)

/-- A delivery with one attempt is POSTed by each of two drains. -/
theorem posted_again :
    ¬ ∀ s, Run.Visits (step plainRuntime oneAttempt) State.initial
        (saleDelivery ++ [.drain 0 .byId, .report (.response 500 false), .drain 0 .byId]) s →
      ∀ id, s.postsTo id ≤ 1 := by
  intro h
  have hposts := h _ (Run.visits_final _ _) 1
  revert hposts
  decide

end WebhookDelivery
end Kraal
