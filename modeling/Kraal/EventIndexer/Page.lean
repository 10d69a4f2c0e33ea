import Kraal.EventIndexer.Indexer

/-!
# What a page leaves behind

The events of a page are stored one by one, and the cursor is written after the last one.  The
process can be interrupted at each of these operations.  An event is not stored if the unique
index has another row in its place, which is a row of the same contract, topic and transaction.

Main results:

- Theorem {lit}`indexBatch_ensures`: the events of a batch are stored, as far as it gets.
- Theorem {lit}`indexPage_ensures`: what a page stores and where it leaves the cursor, wherever
  it is interrupted.
-/

namespace Kraal
namespace EventIndexer

open Foundation

variable {rt : Runtime} {rpc : SorobanRpcClient} {options : IndexerOptions} {db db' db'' : Db}
  {w : World} {page events : List RpcEvent}

/-! ## Stored events -/

/-- A row holds what was reported of an event. -/
def Holds (rt : Runtime) (row : IndexedEventRow) (ev : RpcEvent) : Prop :=
  row.key = ev.key ∧ row.ledger = ev.ledger ∧ row.payload = rt.stringify ev.payload

/-- An event is stored. -/
def Stored (rt : Runtime) (db : Db) (ev : RpcEvent) : Prop :=
  ∃ row ∈ db.indexedEvents, Holds rt row ev

/-- The unique index has no other row in the place of an event. -/
def Unclaimed (rt : Runtime) (db : Db) (ev : RpcEvent) : Prop :=
  ∀ row ∈ db.indexedEvents, row.key = ev.key → Holds rt row ev

/-- Events that the unique index takes for one are the same. -/
def Distinct (rt : Runtime) (events : List RpcEvent) : Prop :=
  ∀ ev ∈ events, ∀ ev' ∈ events, ev'.key = ev.key →
    ev'.ledger = ev.ledger ∧ rt.stringify ev'.payload = rt.stringify ev.payload

/-- Rows of some events are added, and nothing else is done to events and cursors. -/
structure Grows (rt : Runtime) (events : List RpcEvent) (db db' : Db) : Prop where
  cursors : db'.cursors = db.cursors
  rows : ∃ added, db'.indexedEvents = db.indexedEvents ++ added ∧
    ∀ row ∈ added, ∃ ev ∈ events, Holds rt row ev

theorem Grows.refl (rt : Runtime) (events : List RpcEvent) (db : Db) : Grows rt events db db :=
  ⟨rfl, [], (List.append_nil _).symm, fun _ hrow => absurd hrow List.not_mem_nil⟩

theorem Grows.trans (h : Grows rt events db db') (h' : Grows rt events db' db'') :
    Grows rt events db db'' := by
  rcases h.rows with ⟨added, hrows, hadded⟩
  rcases h'.rows with ⟨added', hrows', hadded'⟩
  refine ⟨h'.cursors.trans h.cursors, added ++ added', ?_, fun row hrow => ?_⟩
  · rw [hrows', hrows, List.append_assoc]
  · rcases List.mem_append.mp hrow with hrow | hrow
    · exact hadded row hrow
    · exact hadded' row hrow

/-- Databases that agree on events and cursors. -/
theorem Grows.of_eq (hcursors : db'.cursors = db.cursors)
    (hevents : db'.indexedEvents = db.indexedEvents) : Grows rt events db db' :=
  ⟨hcursors, [], by rw [hevents, List.append_nil], fun _ hrow => absurd hrow List.not_mem_nil⟩

/-- What is stored stays stored. -/
theorem Grows.stored (h : Grows rt events db db') {ev : RpcEvent} (hev : Stored rt db ev) :
    Stored rt db' ev := by
  rcases h.rows with ⟨added, hrows, -⟩
  rcases hev with ⟨row, hrow, hholds⟩
  refine ⟨row, ?_, hholds⟩
  rw [hrows]
  exact List.mem_append_left _ hrow

/-- The rows of distinct events are not in each other's way. -/
theorem Grows.unclaimed (h : Grows rt events db db') (hdistinct : Distinct rt events)
    {ev : RpcEvent} (hev : ev ∈ events) (hfree : Unclaimed rt db ev) : Unclaimed rt db' ev := by
  rcases h.rows with ⟨added, hrows, hadded⟩
  intro row hrow hkey
  rw [hrows] at hrow
  rcases List.mem_append.mp hrow with hrow | hrow
  · exact hfree row hrow hkey
  · rcases hadded row hrow with ⟨ev', hev', hkey', hledger, hpayload⟩
    have hsame := hdistinct ev hev ev' hev' (hkey'.symm.trans hkey)
    exact ⟨hkey, hledger.trans hsame.1, hpayload.trans hsame.2⟩

/-- Inserting an event stores it, if no other row is in its place. -/
theorem insertEvent_stores {ev : RpcEvent} (indexedAt : Int) (hev : ev ∈ events)
    (hfree : Unclaimed rt db ev) :
    Grows rt events db (db.insertEvent rt ev indexedAt).2 ∧
      Stored rt (db.insertEvent rt ev indexedAt).2 ev := by
  unfold Db.insertEvent
  by_cases hany : (db.indexedEvents.any fun row => row.key = ev.key) = true
  · rw [if_pos hany]
    rcases List.any_eq_true.mp hany with ⟨row, hrow, hkey⟩
    exact ⟨.of_eq rfl rfl, row, hrow, hfree row hrow (of_decide_eq_true hkey)⟩
  · rw [if_neg hany]
    have hholds : Holds rt (ev.row rt (db.eventSequence + 1) indexedAt) ev :=
      ⟨rfl, rfl, rfl⟩
    refine ⟨⟨rfl, _, rfl, fun row hrow => ?_⟩, _, List.mem_append_right _ List.mem_cons_self,
      hholds⟩
    rw [List.mem_singleton.mp hrow]
    exact ⟨ev, hev, hholds⟩

/-! ## Operations -/

section

variable {α : Type}

/-- Anything may go wrong at an operation. -/
abbrev Job.Ensures (x : Job α) (w : World) (Q : Exit (Option String) α → World → Prop) : Prop :=
  Program.Ensures (fun _ => True) x w Q

/-- An operation takes effect, or leaves the database as it was. -/
theorem operation_ensures {f : Db → α × Db} {Q : Exit (Option String) α → World → Prop}
    (hdone : ∀ clock, Q (.returned (f w.db).1) ⟨(f w.db).2, clock⟩)
    (hthrown : ∀ message clock, Q (.thrown message) ⟨w.db, clock⟩)
    (hstopped : ∀ clock, Q .stopped ⟨w.db, clock⟩) : Job.Ensures (operation f) w Q := by
  refine Program.Ensures.bind (R := fun exit w' => w' = w ∧ ∃ moment, exit = .returned moment)
    (Program.ensures_next ⟨rfl, none, rfl⟩ fun moment _ => ⟨rfl, some moment, rfl⟩) ?_ ?_ ?_
  · intro moment w' h
    rcases h with ⟨rfl, -⟩
    refine Program.Ensures.bind_get (Program.Ensures.bind_put ?_)
    cases hinterruption : moment.bind Moment.interruption with
    | none => exact Program.Ensures.bind_get (Program.Ensures.bind_put (Program.ensures_pure
        (hdone _)))
    | some interruption =>
        cases interruption with
        | throws message => exact Program.ensures_throw (hthrown message _)
        | stops => exact Program.ensures_stop (hstopped _)
  · intro message w' h
    rcases h with ⟨-, moment, hexit⟩
    cases hexit
  · intro w' h
    rcases h with ⟨-, moment, hexit⟩
    cases hexit

/-- A program that leaves events and cursors alone. -/
def Job.Quiet (x : Job α) : Prop :=
  ∀ w, x.Ensures w fun _ w' => w'.db.cursors = w.db.cursors ∧
    w'.db.indexedEvents = w.db.indexedEvents

theorem quiet_operation {f : Db → α × Db}
    (h : ∀ db, (f db).2.cursors = db.cursors ∧ (f db).2.indexedEvents = db.indexedEvents) :
    Job.Quiet (operation f) :=
  fun w => operation_ensures (fun _ => h w.db) (fun _ _ => ⟨rfl, rfl⟩) fun _ => ⟨rfl, rfl⟩

theorem quiet_insertDeliveries (eventId : Nat) (indexedAt : Int)
    (webhooks : List WebhookRegistrationRow) :
    Job.Quiet (insertDeliveries eventId indexedAt webhooks) := by
  induction webhooks with
  | nil => exact fun w => Program.ensures_pure ⟨rfl, rfl⟩
  | cons webhook webhooks ih =>
      intro w
      refine Program.Ensures.bind (quiet_operation (fun _ => ⟨rfl, rfl⟩) w) ?_ ?_ ?_
      · intro _ w' h
        refine (ih w').mono fun _ w'' h' => ?_
        exact ⟨h'.1.trans h.1, h'.2.trans h.2⟩
      · exact fun _ _ h => h
      · exact fun _ h => h

/-- A job with retries that is quiet, but for what it returns. -/
theorem withRetry_ensures {isRetryable : Option String → Bool} {fn : Job α} {db : Db}
    {Q : α → Prop} (hfn : ∀ w : World, w.db = db → fn.Ensures w fun exit w' =>
      w'.db = db ∧ ∀ a, exit = .returned a → Q a) (attempts : Nat) (hw : w.db = db) :
    (withRetry isRetryable fn attempts).Ensures w fun exit w' =>
      w'.db = db ∧ ∀ a, exit = .returned a → Q a := by
  induction attempts using withRetry.induct generalizing w with
  | case1 => exact Program.ensures_throw ⟨hw, fun _ h => by cases h⟩
  | case2 => exact hfn w hw
  | case3 attempts ih =>
      refine Program.Ensures.bind (R := fun exit w' => w'.db = db ∧
        ∀ a, exit = .returned (.ok a) → Q a) (Program.Ensures.attempt (hfn w hw) ?_ ?_ ?_) ?_ ?_ ?_
      · intro a w' h
        refine ⟨h.1, fun a' ha' => ?_⟩
        rw [Exit.returned.injEq, Except.ok.injEq] at ha'
        exact h.2 a' (by rw [ha'])
      · exact fun _ _ h => ⟨h.1, fun _ h' => by cases h'⟩
      · exact fun _ h => ⟨h.1, fun _ h' => by cases h'⟩
      · intro result w' h
        cases result with
        | ok a => exact Program.ensures_pure ⟨h.1, fun a' ha' => by
            rw [Exit.returned.injEq] at ha'
            exact ha' ▸ h.2 a rfl⟩
        | error e =>
            by_cases hretry : isRetryable e = true
            · simp only [hretry, if_true]
              exact ih h.1
            · simp only [hretry]
              exact Program.ensures_throw ⟨h.1, fun _ h' => by cases h'⟩
      · exact fun _ _ h => ⟨h.1, fun _ h' => by cases h'⟩
      · exact fun _ h => ⟨h.1, fun _ h' => by cases h'⟩

end

/-! ## The events of a page -/

theorem indexEvent_ensures {target : IndexerTarget} {ev : RpcEvent} (hev : ev ∈ events)
    (hfree : Unclaimed rt w.db ev) :
    (indexEvent rt target ev).Ensures w fun exit w' => Grows rt events w.db w'.db ∧
      (exit = .returned () → Stored rt w'.db ev) := by
  have hstores := insertEvent_stores w.clock hev hfree
  refine Program.Ensures.bind_get (Program.Ensures.bind (R := fun exit w' =>
    Grows rt events w.db w'.db ∧ ∀ id, exit = .returned id → Stored rt w'.db ev)
    (operation_ensures ?_ ?_ ?_) ?_ ?_ ?_)
  · exact fun _ => ⟨hstores.1, fun _ _ => hstores.2⟩
  · exact fun _ _ => ⟨.refl _ _ _, fun _ h => by cases h⟩
  · exact fun _ => ⟨.refl _ _ _, fun _ h => by cases h⟩
  · intro newId w' h
    cases newId with
    | none => exact Program.ensures_pure ⟨h.1, fun _ => h.2 none rfl⟩
    | some newId =>
        have hstored := h.2 (some newId) rfl
        refine Program.Ensures.bind (quiet_operation (fun _ => ⟨rfl, rfl⟩) w') ?_ ?_ ?_
        · intro webhooks w'' hlisted
          refine (quiet_insertDeliveries newId w.clock webhooks w'').mono fun _ w₃ hquiet => ?_
          have hgrows : Grows rt events w'.db w₃.db :=
            .of_eq (hquiet.1.trans hlisted.1) (hquiet.2.trans hlisted.2)
          exact ⟨h.1.trans hgrows, fun _ => hgrows.stored hstored⟩
        · exact fun _ _ hlisted => ⟨h.1.trans (.of_eq hlisted.1 hlisted.2), fun h => by cases h⟩
        · exact fun _ hlisted => ⟨h.1.trans (.of_eq hlisted.1 hlisted.2), fun h => by cases h⟩
  · exact fun _ _ h => ⟨h.1, fun h' => by cases h'⟩
  · exact fun _ h => ⟨h.1, fun h' => by cases h'⟩

/-- The highest ledger after a batch: that of one of its events, unless it is the one before. -/
structure Highest (batch : List RpcEvent) (before after : Nat) : Prop where
  le : before ≤ after
  ledger_le : ∀ ev ∈ batch, ev.ledger ≤ after
  reached : after = before ∨ ∃ ev ∈ batch, after = ev.ledger

theorem Highest.cons {event : RpcEvent} {batch : List RpcEvent} {before after : Nat}
    (h : Highest batch (if before < event.ledger then event.ledger else before) after) :
    Highest (event :: batch) before after := by
  have hle := h.le
  split at hle
  case isTrue hlt =>
    rw [if_pos hlt] at h
    refine ⟨by omega, ?_, .inr ?_⟩
    · intro ev hev
      rcases List.mem_cons.mp hev with rfl | hev
      · exact hle
      · exact h.ledger_le ev hev
    · rcases h.reached with hreached | ⟨ev, hev, hreached⟩
      · exact ⟨event, List.mem_cons_self, hreached⟩
      · exact ⟨ev, List.mem_cons_of_mem _ hev, hreached⟩
  case isFalse hlt =>
    rw [if_neg hlt] at h
    refine ⟨hle, ?_, ?_⟩
    · intro ev hev
      rcases List.mem_cons.mp hev with rfl | hev
      · omega
      · exact h.ledger_le ev hev
    · rcases h.reached with hreached | ⟨ev, hev, hreached⟩
      · exact .inl hreached
      · exact .inr ⟨ev, List.mem_cons_of_mem _ hev, hreached⟩

/-- The events of a batch are stored, as far as it gets, and the highest ledger is kept. -/
theorem indexBatch_ensures {target : IndexerTarget} (hdistinct : Distinct rt events)
    {batch : List RpcEvent} (hbatch : ∀ ev ∈ batch, ev ∈ events)
    (hfree : ∀ ev ∈ events, Unclaimed rt w.db ev) (highWaterLedger : Nat) :
    (indexBatch rt target batch highWaterLedger).Ensures w fun exit w' =>
      Grows rt events w.db w'.db ∧ ∀ after, exit = .returned after →
        (∀ ev ∈ batch, Stored rt w'.db ev) ∧ Highest batch highWaterLedger after := by
  induction batch generalizing w highWaterLedger with
  | nil =>
      refine Program.ensures_pure ⟨.refl _ _ _, fun after h => ?_⟩
      rw [Exit.returned.injEq] at h
      subst h
      exact ⟨fun _ hev => absurd hev List.not_mem_nil, le_rfl,
        fun _ hev => absurd hev List.not_mem_nil, .inl rfl⟩
  | cons event batch ih =>
      have hevent := hbatch event List.mem_cons_self
      refine Program.Ensures.bind (indexEvent_ensures hevent (hfree event hevent)) ?_ ?_ ?_
      · intro _ w' h
        have hfree' : ∀ ev ∈ events, Unclaimed rt w'.db ev :=
          fun ev hev => h.1.unclaimed hdistinct hev (hfree ev hev)
        refine (ih (fun ev hev => hbatch ev (List.mem_cons_of_mem _ hev)) hfree' _).mono ?_
        intro exit w'' h'
        refine ⟨h.1.trans h'.1, fun after hafter => ?_⟩
        rcases h'.2 after hafter with ⟨hstored, hhighest⟩
        refine ⟨fun ev hev => ?_, hhighest.cons⟩
        rcases List.mem_cons.mp hev with rfl | hev
        · exact h'.1.stored (h.2 rfl)
        · exact hstored ev hev
      · exact fun _ _ h => ⟨h.1, fun _ h' => by cases h'⟩
      · exact fun _ h => ⟨h.1, fun _ h' => by cases h'⟩

/-! ## A page -/

/-- The page that is served next. -/
def servedPage (rpc : SorobanRpcClient) (options : IndexerOptions) (c : Chain) (p : Paging) :
    GetEventsPage :=
  rpc.getEvents c p.target.contractId p.target.eventType p.next options.pageSize

/-- The events of a page are stored, and a ledger is the highest after them. -/
structure Indexed (rt : Runtime) (p : Paging) (page : GetEventsPage) (db : Db)
    (highWaterLedger : Nat) : Prop where
  stored : ∀ ev ∈ page.events, Stored rt db ev
  highest : Highest page.events p.highWaterLedger highWaterLedger

/-- The cursor is where it was, or at the highest ledger of a page that is stored. -/
def CursorMoves (rt : Runtime) (p : Paging) (page : GetEventsPage) (db db' : Db) : Prop :=
  db'.cursors = db.cursors ∨ page.events ≠ [] ∧ ∃ highWaterLedger updatedAt,
    Indexed rt p page db' highWaterLedger ∧
    db'.cursors = db.cursors.set p.target.eventType
      ⟨p.target.eventType, highWaterLedger, updatedAt⟩

theorem advanceCursor_ensures {p : Paging} {highWaterLedger : Nat} :
    (advanceCursor p highWaterLedger).Ensures w fun _ w' =>
      w'.db.indexedEvents = w.db.indexedEvents ∧ (w'.db.cursors = w.db.cursors ∨
        ∃ updatedAt, w'.db.cursors = w.db.cursors.set p.target.eventType
          ⟨p.target.eventType, highWaterLedger, updatedAt⟩) := by
  unfold advanceCursor
  split
  case isTrue _ =>
    refine Program.Ensures.bind_get (operation_ensures ?_ ?_ ?_)
    · exact fun _ => ⟨rfl, .inr ⟨_, rfl⟩⟩
    · exact fun _ _ => ⟨rfl, .inl rfl⟩
    · exact fun _ => ⟨rfl, .inl rfl⟩
  case isFalse _ => exact Program.ensures_pure ⟨rfl, .inl rfl⟩

/-- The events and the cursor of a page, wherever it is interrupted. -/
theorem indexEvents_ensures {p : Paging} {page : GetEventsPage}
    (hdistinct : Distinct rt page.events) (hfree : ∀ ev ∈ page.events, Unclaimed rt w.db ev) :
    (indexEvents rt p page).Ensures w fun exit w' =>
      (∀ ev, Stored rt w.db ev → Stored rt w'.db ev) ∧ CursorMoves rt p page w.db w'.db ∧
      ∀ p', exit = .returned p' → ∃ highWaterLedger, Indexed rt p page w'.db highWaterLedger ∧
        p' = { p with highWaterLedger := highWaterLedger } := by
  unfold indexEvents
  cases hevents : page.events with
  | nil =>
      refine Program.ensures_pure ⟨fun _ h => h, .inl rfl, fun p' hp' => ?_⟩
      rw [Exit.returned.injEq] at hp'
      subst hp'
      refine ⟨p.highWaterLedger, ⟨?_, le_rfl, ?_, .inl rfl⟩, rfl⟩
      · rw [hevents]
        exact fun _ hev => absurd hev List.not_mem_nil
      · rw [hevents]
        exact fun _ hev => absurd hev List.not_mem_nil
  | cons event batch =>
      have hne : page.events ≠ [] := by
        rw [hevents]
        exact List.cons_ne_nil _ _
      refine Program.Ensures.bind (indexBatch_ensures hdistinct ?_ hfree p.highWaterLedger) ?_ ?_ ?_
      · exact fun ev hev => hevents ▸ hev
      · intro highWaterLedger w' h
        rcases h.2 highWaterLedger rfl with ⟨hstored, hhighest⟩
        rw [← hevents] at hstored hhighest
        -- the cursor is written after the rows, which stay
        have hkeeps : ∀ {w'' : World}, w''.db.indexedEvents = w'.db.indexedEvents →
            (∀ ev, Stored rt w.db ev → Stored rt w''.db ev) ∧
              Indexed rt p page w''.db highWaterLedger := by
          intro w'' hsame
          have hrows : ∀ ev, Stored rt w'.db ev → Stored rt w''.db ev := by
            intro ev hev
            rw [Stored, hsame]
            exact hev
          exact ⟨fun ev hev => hrows ev (h.1.stored hev), fun ev hev => hrows ev (hstored ev hev),
            hhighest⟩
        have hmoves : ∀ {w'' : World}, w''.db.indexedEvents = w'.db.indexedEvents ∧
            (w''.db.cursors = w'.db.cursors ∨ ∃ updatedAt, w''.db.cursors =
              w'.db.cursors.set p.target.eventType
                ⟨p.target.eventType, highWaterLedger, updatedAt⟩) →
            CursorMoves rt p page w.db w''.db := by
          intro w'' hcursor
          rcases hcursor.2 with hsame | ⟨updatedAt, hset⟩
          · exact .inl (hsame.trans h.1.cursors)
          · refine .inr ⟨hne, highWaterLedger, updatedAt, (hkeeps hcursor.1).2, ?_⟩
            rw [hset, h.1.cursors]
        refine Program.Ensures.bind advanceCursor_ensures ?_ ?_ ?_
        · intro _ w'' hcursor
          refine Program.ensures_pure ⟨(hkeeps hcursor.1).1, hmoves hcursor, fun p' hp' => ?_⟩
          rw [Exit.returned.injEq] at hp'
          exact ⟨highWaterLedger, (hkeeps hcursor.1).2, hp'.symm⟩
        · exact fun _ _ hcursor => ⟨(hkeeps hcursor.1).1, hmoves hcursor, fun _ h => by cases h⟩
        · exact fun _ hcursor => ⟨(hkeeps hcursor.1).1, hmoves hcursor, fun _ h => by cases h⟩
      · exact fun _ _ h => ⟨fun ev hev => h.1.stored hev, .inl h.1.cursors, fun _ h' => by cases h'⟩
      · exact fun _ h => ⟨fun ev hev => h.1.stored hev, .inl h.1.cursors, fun _ h' => by cases h'⟩

theorem fetchPage_ensures {c : Chain} {p : Paging} :
    (fetchPage rpc rt options c p).Ensures w fun exit w' =>
      w'.db = w.db ∧ ∀ page, exit = .returned page → page = servedPage rpc options c p := by
  refine withRetry_ensures (fun w' hw' => operation_ensures ?_ ?_ ?_) _ rfl
  · intro _
    refine ⟨hw', fun page hpage => ?_⟩
    rw [Exit.returned.injEq] at hpage
    exact hpage.symm
  · exact fun _ _ => ⟨hw', fun _ h => by cases h⟩
  · exact fun _ => ⟨hw', fun _ h => by cases h⟩

/-- What a page stores and where it leaves the cursor, wherever it is interrupted. -/
theorem indexPage_ensures {c : Chain} {p : Paging}
    (hdistinct : Distinct rt (servedPage rpc options c p).events)
    (hfree : ∀ ev ∈ (servedPage rpc options c p).events, Unclaimed rt w.db ev) :
    (indexPage rpc rt options c p).Ensures w fun exit w' =>
      (∀ ev, Stored rt w.db ev → Stored rt w'.db ev) ∧
      CursorMoves rt p (servedPage rpc options c p) w.db w'.db ∧
      ∀ result, exit = .returned result → ∃ highWaterLedger,
        Indexed rt p (servedPage rpc options c p) w'.db highWaterLedger ∧
        result = (servedPage rpc options c p).nextLedger.map fun next =>
          { p with highWaterLedger := highWaterLedger, next := next } := by
  refine Program.Ensures.bind fetchPage_ensures ?_ ?_ ?_
  · intro page w' hfetched
    have hpage := hfetched.2 page rfl
    subst hpage
    rw [← hfetched.1] at hfree
    refine Program.Ensures.bind (indexEvents_ensures hdistinct hfree) ?_ ?_ ?_
    · intro p' w'' h
      rw [hfetched.1] at h
      refine Program.ensures_pure ⟨h.1, h.2.1, fun result hresult => ?_⟩
      rcases h.2.2 p' rfl with ⟨highWaterLedger, hindexed, rfl⟩
      rw [Exit.returned.injEq] at hresult
      exact ⟨highWaterLedger, hindexed, hresult.symm⟩
    · intro _ w'' h
      rw [hfetched.1] at h
      exact ⟨h.1, h.2.1, fun _ h' => by cases h'⟩
    · intro w'' h
      rw [hfetched.1] at h
      exact ⟨h.1, h.2.1, fun _ h' => by cases h'⟩
  · intro _ w' h
    rw [h.1]
    exact ⟨fun _ hev => hev, .inl rfl, fun _ h' => by cases h'⟩
  · intro w' h
    rw [h.1]
    exact ⟨fun _ hev => hev, .inl rfl, fun _ h' => by cases h'⟩

end EventIndexer
end Kraal
