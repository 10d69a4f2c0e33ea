import Kraal.EventIndexer.FanOut

/-!
# The contents of the tables

What the indexer knows of an event does not depend on when it was stored.  A batch adds its events
one by one, each unless the unique index refuses it, and a page then moves the cursor to the
highest ledger that it has seen.  If nothing goes wrong, a page does all of this; if something
does, it has added the first events of the page.

Main results:

- Definition {lit}`absorb`: the contents with another event.
- Theorem {lit}`indexPage_contents`: the contents after a page, and the cursors if it is done.
-/

namespace Kraal
namespace EventIndexer

open Foundation

/-! ## Contents -/

/-- What is stored of an event, but for its id and the time. -/
structure Content where
  contractId : String
  topic : String
  transactionHash : String
  ledger : Nat
  payload : String
deriving DecidableEq, Repr

/-- The columns of the unique index. -/
def Content.key (x : Content) : String × String × String :=
  (x.contractId, x.topic, x.transactionHash)

/-- The content of a row. -/
def IndexedEventRow.content (row : IndexedEventRow) : Content :=
  ⟨row.contractId, row.topic, row.transactionHash, row.ledger, row.payload⟩

/-- The content of an event. -/
def RpcEvent.content (rt : Runtime) (ev : RpcEvent) : Content :=
  ⟨ev.contractId, ev.topic, ev.transactionHash, ev.ledger, rt.stringify ev.payload⟩

/-- The contents that are stored, in their order. -/
def Db.contents (db : Db) : List Content :=
  db.indexedEvents.map IndexedEventRow.content

/-- The contents with another event, unless the unique index refuses it. -/
def absorb (contents : List Content) (x : Content) : List Content :=
  if contents.any fun y => y.key = x.key then contents else contents ++ [x]

section

variable {contents xs : List Content} {x y : Content}

/-- A content whose key is taken is left out. -/
theorem absorb_of_mem (h : x.key ∈ contents.map Content.key) : absorb contents x = contents := by
  rcases List.mem_map.mp h with ⟨y, hy, hkey⟩
  exact if_pos (List.any_eq_true.mpr ⟨y, hy, decide_eq_true hkey⟩)

/-- A content whose key is free is added. -/
theorem absorb_of_notMem (h : x.key ∉ contents.map Content.key) :
    absorb contents x = contents ++ [x] := by
  refine if_neg fun hany => h ?_
  rcases List.any_eq_true.mp hany with ⟨y, hy, hkey⟩
  exact List.mem_map.mpr ⟨y, hy, of_decide_eq_true hkey⟩

/-- No two events have the same key. -/
def UniqueKeys (contents : List Content) : Prop :=
  (contents.map Content.key).Nodup

/-- No key comes twice after one more content. -/
theorem UniqueKeys.absorb (h : UniqueKeys contents) (x : Content) :
    UniqueKeys (EventIndexer.absorb contents x) := by
  by_cases hkey : x.key ∈ contents.map Content.key
  · rwa [absorb_of_mem hkey]
  · rw [absorb_of_notMem hkey, UniqueKeys, List.map_append, List.nodup_append]
    refine ⟨h, List.nodup_singleton _, fun key hmem key' hmem' heq => hkey ?_⟩
    rw [List.map_singleton, List.mem_singleton] at hmem'
    rw [← hmem', ← heq]
    exact hmem

/-- No key comes twice after some more contents. -/
theorem UniqueKeys.foldl (h : UniqueKeys contents) (xs : List Content) :
    UniqueKeys (xs.foldl EventIndexer.absorb contents) := by
  induction xs generalizing contents with
  | nil => exact h
  | cons x xs ih => exact ih (h.absorb x)

/-- Contents with one key are the same. -/
theorem UniqueKeys.eq (h : UniqueKeys contents) (hx : x ∈ contents) (hy : y ∈ contents)
    (hkey : x.key = y.key) : x = y :=
  List.inj_on_of_nodup_map h hx hy hkey

/-- What is there stays there. -/
theorem mem_absorb_of_mem (h : y ∈ contents) (x : Content) : y ∈ absorb contents x := by
  by_cases hkey : x.key ∈ contents.map Content.key
  · rwa [absorb_of_mem hkey]
  · rw [absorb_of_notMem hkey]
    exact List.mem_append_left _ h

/-- What is there stays there. -/
theorem mem_foldl_of_mem (h : y ∈ contents) (xs : List Content) :
    y ∈ xs.foldl absorb contents := by
  induction xs generalizing contents with
  | nil => exact h
  | cons x xs ih => exact ih (mem_absorb_of_mem h x)

/-- What is there was there, or is one of the events. -/
theorem mem_of_mem_foldl (h : y ∈ xs.foldl absorb contents) : y ∈ contents ∨ y ∈ xs := by
  induction xs generalizing contents with
  | nil => exact .inl h
  | cons x xs ih =>
      rcases ih h with hmem | hmem
      · by_cases hkey : x.key ∈ contents.map Content.key
        · rw [absorb_of_mem hkey] at hmem
          exact .inl hmem
        · rw [absorb_of_notMem hkey, List.mem_append, List.mem_singleton] at hmem
          rcases hmem with hmem | rfl
          · exact .inl hmem
          · exact .inr List.mem_cons_self
      · exact .inr (List.mem_cons_of_mem _ hmem)

/-- Nothing has the key of an event in its place. -/
def Free (contents : List Content) (x : Content) : Prop :=
  ∀ y ∈ contents, y.key = x.key → y = x

/-- A content is there after it comes, if no other is in its place. -/
theorem mem_absorb_self (h : Free contents x) : x ∈ absorb contents x := by
  by_cases hkey : x.key ∈ contents.map Content.key
  · rw [absorb_of_mem hkey]
    rcases List.mem_map.mp hkey with ⟨y, hy, hsame⟩
    exact h y hy hsame ▸ hy
  · rw [absorb_of_notMem hkey]
    exact List.mem_append_right _ List.mem_cons_self

/-- A content is still free after another one that is not in its place. -/
theorem Free.absorb (h : Free contents x) (hsame : y.key = x.key → y = x) :
    Free (EventIndexer.absorb contents y) x := by
  intro z hz hkey
  have hz' : z ∈ [y].foldl EventIndexer.absorb contents := hz
  rcases mem_of_mem_foldl hz' with hz' | hz'
  · exact h z hz' hkey
  · rw [List.mem_singleton] at hz'
    subst hz'
    exact hsame hkey

/-- All events are there, if none is in the place of another one. -/
theorem mem_foldl (hfree : ∀ x ∈ xs, Free contents x) (hdistinct : ∀ x ∈ xs, Free xs x) :
    ∀ x ∈ xs, x ∈ xs.foldl absorb contents := by
  induction xs generalizing contents with
  | nil => exact fun x hx => absurd hx List.not_mem_nil
  | cons z xs ih =>
      intro x hx
      rcases List.mem_cons.mp hx with rfl | hx
      · exact mem_foldl_of_mem (mem_absorb_self (hfree x List.mem_cons_self)) xs
      · refine ih (fun u hu => ?_) (fun u hu y hy => ?_) x hx
        · exact (hfree u (List.mem_cons_of_mem _ hu)).absorb
            (hdistinct u (List.mem_cons_of_mem _ hu) z List.mem_cons_self)
        · exact hdistinct u (List.mem_cons_of_mem _ hu) y (List.mem_cons_of_mem _ hy)

/-- The events of one type are not in the way of those of another one. -/
theorem filter_absorb (contents : List Content) (x : Content) (topic : String) :
    (absorb contents x).filter (fun y => y.topic = topic) =
      if x.topic = topic then absorb (contents.filter fun y => y.topic = topic) x
      else contents.filter fun y => y.topic = topic := by
  by_cases htopic : x.topic = topic
  · have hkey : x.key ∈ (contents.filter fun y => y.topic = topic).map Content.key ↔
        x.key ∈ contents.map Content.key := by
      constructor
      · intro h
        rcases List.mem_map.mp h with ⟨y, hy, hsame⟩
        exact List.mem_map.mpr ⟨y, (List.mem_filter.mp hy).1, hsame⟩
      · intro h
        rcases List.mem_map.mp h with ⟨y, hy, hsame⟩
        have hsameTopic : y.topic = x.topic := congrArg (fun key => key.2.1) hsame
        refine List.mem_map.mpr ⟨y, List.mem_filter.mpr ⟨hy, ?_⟩, hsame⟩
        rw [hsameTopic, htopic, decide_eq_true rfl]
    rw [if_pos htopic]
    by_cases hmem : x.key ∈ contents.map Content.key
    · rw [absorb_of_mem hmem, absorb_of_mem (hkey.mpr hmem)]
    · rw [absorb_of_notMem hmem, absorb_of_notMem fun h => hmem (hkey.mp h), List.filter_append,
        List.filter_cons_of_pos (by simpa using htopic)]
      rfl
  · rw [if_neg htopic]
    by_cases hmem : x.key ∈ contents.map Content.key
    · rw [absorb_of_mem hmem]
    · rw [absorb_of_notMem hmem, List.filter_append,
        List.filter_cons_of_neg (by simpa using htopic), List.filter_nil, List.append_nil]

/-- The contents of a topic come into those of the topic. -/
theorem filter_foldl_of_eq {topic : String} (h : ∀ x ∈ xs, x.topic = topic)
    (contents : List Content) :
    (xs.foldl absorb contents).filter (fun y => y.topic = topic) =
      xs.foldl absorb (contents.filter fun y => y.topic = topic) := by
  induction xs generalizing contents with
  | nil => rfl
  | cons x xs ih =>
      rw [List.foldl_cons, List.foldl_cons, ih fun y hy => h y (List.mem_cons_of_mem _ hy),
        filter_absorb, if_pos (h x List.mem_cons_self)]

/-- The contents of a topic are left alone by those of other topics. -/
theorem filter_foldl_of_ne {topic : String} (h : ∀ x ∈ xs, x.topic ≠ topic)
    (contents : List Content) :
    (xs.foldl absorb contents).filter (fun y => y.topic = topic) =
      contents.filter fun y => y.topic = topic := by
  induction xs generalizing contents with
  | nil => rfl
  | cons x xs ih =>
      rw [List.foldl_cons, ih fun y hy => h y (List.mem_cons_of_mem _ hy), filter_absorb,
        if_neg (h x List.mem_cons_self)]

end

/-! ## Jobs -/

section

variable {allowed : Moment → Prop} {α : Type} {rt : Runtime} {rpc : SorobanRpcClient}
  {options : IndexerOptions} {target : IndexerTarget} {db db' : Db} {w : World} {p : Paging}

/-- Something may go wrong. -/
def Disturbed (allowed : Moment → Prop) : Prop :=
  ∃ moment, allowed moment ∧ moment.interruption ≠ none

/-- A job returns, unless something may go wrong. -/
def Reliable {β : Type} (allowed : Moment → Prop) (exit : Exit (Option String) β) : Prop :=
  (∀ b, exit ≠ .returned b) → Disturbed allowed

section

variable {β γ : Type}

/-- A job that returns is reliable. -/
theorem reliable_returned (b : β) : Reliable allowed (.returned b) :=
  fun h => absurd rfl (h b)

/-- Where anything may go wrong every exit is reliable. -/
theorem Disturbed.reliable (h : Disturbed allowed) (exit : Exit (Option String) β) :
    Reliable allowed exit :=
  fun _ => h

/-- An exception that is passed on is as reliable as before. -/
theorem Reliable.thrown {message : Option String}
    (h : Reliable allowed (.thrown message : Exit (Option String) β)) :
    Reliable allowed (.thrown message : Exit (Option String) γ) :=
  (h fun _ h' => by cases h').reliable _

/-- A stop that is passed on is as reliable as before. -/
theorem Reliable.stopped (h : Reliable allowed (.stopped : Exit (Option String) β)) :
    Reliable allowed (.stopped : Exit (Option String) γ) :=
  (h fun _ h' => by cases h').reliable _

end

/-- An operation takes effect, or something may go wrong and it leaves the database as it was. -/
theorem operation_under {f : Db → α × Db} {Q : Exit (Option String) α → World → Prop}
    (hdone : ∀ clock, Q (.returned (f w.db).1) ⟨(f w.db).2, clock⟩)
    (hfailed : Disturbed allowed → ∀ exit clock, (∀ a, exit ≠ .returned a) → Q exit ⟨w.db, clock⟩) :
    Program.Ensures allowed (operation f) w Q := by
  intro script hscript
  have htail : ∀ moment ∈ script.tail, allowed moment :=
    fun moment hmoment => hscript moment (List.mem_of_mem_tail hmoment)
  cases hhead : script.head?.bind Moment.interruption with
  | none =>
      rcases operation_returned hhead f w with ⟨clock, hrun⟩
      rw [hrun]
      exact ⟨htail, hdone clock⟩
  | some interruption =>
      rcases operation_interrupted hhead f w with ⟨exit, clock, hrun, hexit⟩
      rw [hrun]
      refine ⟨htail, hfailed ?_ exit clock hexit⟩
      rcases Option.bind_eq_some_iff.mp hhead with ⟨moment, hmoment, hinterruption⟩
      refine ⟨moment, hscript moment (List.mem_of_mem_head? hmoment), ?_⟩
      rw [hinterruption]
      exact Option.some_ne_none _

/-! ## Events -/

/-- Cursors and contents are the same. -/
structure SameTables (db db' : Db) : Prop where
  cursors : db'.cursors = db.cursors
  contents : db'.contents = db.contents

/-- A database has its own tables. -/
theorem SameTables.refl (db : Db) : SameTables db db :=
  ⟨rfl, rfl⟩

/-- Databases with the same tables as a third one. -/
theorem SameTables.trans {db'' : Db} (h : SameTables db db') (h' : SameTables db' db'') :
    SameTables db db'' :=
  ⟨h'.cursors.trans h.cursors, h'.contents.trans h.contents⟩

/-- Enqueueing deliveries stores no events. -/
theorem insertDeliveries_contents (eventId : Nat) (indexedAt : Int)
    (webhooks : List WebhookRegistrationRow) (w : World) :
    Program.Ensures allowed (insertDeliveries eventId indexedAt webhooks) w fun exit w' =>
      SameTables w.db w'.db ∧ Reliable allowed exit := by
  induction webhooks generalizing w with
  | nil => exact Program.ensures_pure ⟨.refl _, reliable_returned _⟩
  | cons webhook webhooks ih =>
      refine Program.Ensures.bind (R := fun exit w' => SameTables w.db w'.db ∧
        Reliable allowed exit) (operation_under ?_ ?_) ?_ ?_ ?_
      · exact fun _ => ⟨⟨rfl, rfl⟩, reliable_returned _⟩
      · exact fun hdisturbed _ _ _ => ⟨.refl _, hdisturbed.reliable _⟩
      · intro _ w' h
        exact (ih w').mono fun _ _ h' => ⟨h.1.trans h'.1, h'.2⟩
      · exact fun _ _ h => ⟨h.1, h.2.thrown⟩
      · exact fun _ h => ⟨h.1, h.2.stopped⟩

/-- Listing webhooks stores nothing. -/
theorem listWebhooks_contents (eventType : String) (w : World) :
    Program.Ensures allowed (listWebhooksByEventType eventType) w fun exit w' =>
      SameTables w.db w'.db ∧ Reliable allowed exit :=
  operation_under (fun _ => ⟨⟨rfl, rfl⟩, reliable_returned _⟩)
    fun hdisturbed _ _ _ => ⟨.refl _, hdisturbed.reliable _⟩

/-- The contents after an event comes. -/
theorem contents_insertEvent (db : Db) (rt : Runtime) (ev : RpcEvent) (indexedAt : Int) :
    (db.insertEvent rt ev indexedAt).2.contents = absorb db.contents (ev.content rt) ∧
      (db.insertEvent rt ev indexedAt).2.cursors = db.cursors := by
  have hkeys : db.contents.map Content.key = db.keys := by
    rw [Db.contents, List.map_map]
    rfl
  by_cases hkey : ev.key ∈ db.keys
  · rw [insertEvent_of_mem hkey, absorb_of_mem (hkeys ▸ hkey)]
    exact ⟨rfl, rfl⟩
  · rw [insertEvent_of_notMem hkey, absorb_of_notMem (hkeys ▸ hkey)]
    exact ⟨List.map_append, rfl⟩

/-- What a job leaves behind that stores an event: it is stored, unless the job fails before. -/
structure Stores {β : Type} (allowed : Moment → Prop) (rt : Runtime) (ev : RpcEvent) (db : Db)
    (exit : Exit (Option String) β) (db' : Db) : Prop where
  cursors : db'.cursors = db.cursors
  contents : db'.contents = absorb db.contents (ev.content rt) ∨
    db'.contents = db.contents ∧ ∀ b, exit ≠ .returned b
  reliable : Reliable allowed exit

section

variable {β γ : Type} {ev : RpcEvent}

/-- A job that returns has stored the event. -/
theorem Stores.contents_eq {b : β} (h : Stores allowed rt ev db (.returned b) db') :
    db'.contents = absorb db.contents (ev.content rt) :=
  h.contents.resolve_right fun h' => h'.2 b rfl

/-- An exception that is passed on leaves what it left before. -/
theorem Stores.thrown {message : Option String}
    (h : Stores allowed rt ev db (.thrown message : Exit _ β) db') :
    Stores allowed rt ev db (.thrown message : Exit _ γ) db' :=
  ⟨h.cursors, h.contents.imp id fun h' => ⟨h'.1, fun _ h => by cases h⟩, h.reliable.thrown⟩

/-- A stop that is passed on leaves what it left before. -/
theorem Stores.stopped (h : Stores allowed rt ev db (.stopped : Exit _ β) db') :
    Stores allowed rt ev db (.stopped : Exit _ γ) db' :=
  ⟨h.cursors, h.contents.imp id fun h' => ⟨h'.1, fun _ h => by cases h⟩, h.reliable.stopped⟩

/-- The rest of a job that has stored an event. -/
theorem Stores.rest {b : β} (h : Stores allowed rt ev db (.returned b) db') {db'' : Db}
    (hsame : SameTables db' db'') {exit : Exit (Option String) γ} (hexit : Reliable allowed exit) :
    Stores allowed rt ev db exit db'' :=
  ⟨hsame.cursors.trans h.cursors, .inl (hsame.contents.trans h.contents_eq), hexit⟩

end

/-- What indexing an event leaves of the contents. -/
theorem indexEvent_contents (ev : RpcEvent) (w : World) :
    Program.Ensures allowed (indexEvent rt target ev) w fun exit w' =>
      Stores allowed rt ev w.db exit w'.db := by
  have hinsert := contents_insertEvent w.db rt ev w.clock
  refine Program.Ensures.bind_get (Program.Ensures.bind (R := fun exit w' =>
    Stores allowed rt ev w.db exit w'.db) (operation_under ?_ ?_) ?_ ?_ ?_)
  · exact fun _ => ⟨hinsert.2, .inl hinsert.1, reliable_returned _⟩
  · exact fun hdisturbed _ _ hexit => ⟨rfl, .inr ⟨rfl, hexit⟩, hdisturbed.reliable _⟩
  · intro newId w' h
    cases newId with
    | none => exact Program.ensures_pure (h.rest (.refl _) (reliable_returned _))
    | some newId =>
        refine Program.Ensures.bind (listWebhooks_contents target.eventType w') ?_ ?_ ?_
        · intro webhooks w'' hlisted
          refine (insertDeliveries_contents newId w.clock webhooks w'').mono ?_
          exact fun _ _ hdelivered => h.rest (hlisted.1.trans hdelivered.1) hdelivered.2
        · exact fun _ _ hlisted => h.rest hlisted.1 hlisted.2.thrown
        · exact fun _ hlisted => h.rest hlisted.1 hlisted.2.stopped
  · exact fun _ _ h => h.thrown
  · exact fun _ h => h.stopped

/-! ## Batches -/

/-- The highest ledger after a batch. -/
def highest (batch : List RpcEvent) (highWaterLedger : Nat) : Nat :=
  batch.foldl (fun high ev => if high < ev.ledger then ev.ledger else high) highWaterLedger

/-- What a batch leaves behind: its first events are stored, and all of them if it is done. -/
structure StoresBatch (allowed : Moment → Prop) (rt : Runtime) (batch : List RpcEvent)
    (highWaterLedger : Nat) (db : Db) (exit : Exit (Option String) Nat) (db' : Db) : Prop where
  cursors : db'.cursors = db.cursors
  contents : ∃ done rest, batch = done ++ rest ∧
    db'.contents = (done.map (RpcEvent.content rt)).foldl absorb db.contents ∧
    ∀ after, exit = .returned after → rest = [] ∧ after = highest batch highWaterLedger
  reliable : Reliable allowed exit

/-- The first event of a batch fails. -/
theorem Stores.batch {β : Type} {ev : RpcEvent} {batch : List RpcEvent} {highWaterLedger : Nat}
    {exit : Exit (Option String) β} {exit' : Exit (Option String) Nat}
    (h : Stores allowed rt ev db exit db') (hexit : Reliable allowed exit')
    (hfailed : ∀ after, exit' ≠ .returned after) :
    StoresBatch allowed rt (ev :: batch) highWaterLedger db exit' db' := by
  refine ⟨h.cursors, ?_, hexit⟩
  rcases h.contents with hcontents | ⟨hcontents, -⟩
  · exact ⟨[ev], batch, rfl, hcontents, fun after h' => absurd h' (hfailed after)⟩
  · exact ⟨[], ev :: batch, rfl, hcontents, fun after h' => absurd h' (hfailed after)⟩

/-- What indexing a batch leaves of the contents. -/
theorem indexBatch_contents (batch : List RpcEvent) (highWaterLedger : Nat) (w : World) :
    Program.Ensures allowed (indexBatch rt target batch highWaterLedger) w fun exit w' =>
      StoresBatch allowed rt batch highWaterLedger w.db exit w'.db := by
  induction batch generalizing highWaterLedger w with
  | nil =>
      refine Program.ensures_pure ⟨rfl, ⟨[], [], rfl, rfl, fun after hafter => ⟨rfl, ?_⟩⟩,
        reliable_returned _⟩
      exact (Exit.returned.inj hafter).symm
  | cons ev batch ih =>
      refine Program.Ensures.bind (indexEvent_contents ev w) ?_ ?_ ?_
      · intro _ w' h
        refine (ih _ w').mono fun exit w'' h' => ?_
        rcases h'.contents with ⟨done, rest, hbatch, hcontents, hreturned⟩
        refine ⟨h'.cursors.trans h.cursors, ⟨ev :: done, rest, by rw [hbatch]; rfl, ?_, hreturned⟩,
          h'.reliable⟩
        rw [hcontents, h.contents_eq]
        rfl
      · exact fun _ _ h => h.batch h.reliable.thrown fun _ h' => by cases h'
      · exact fun _ h => h.batch h.reliable.stopped fun _ h' => by cases h'

/-! ## Pages -/

/-- The ledger of the cursor of an event type. -/
def Db.cursorLedger (db : Db) (eventType : String) : Option Nat :=
  (db.cursors.get eventType).map LedgerCursorRow.lastLedger

/-- The ledger of the cursor after a page. -/
def Paging.cursorAfter (p : Paging) (page : GetEventsPage) (cursor : Option Nat) : Option Nat :=
  if page.events ≠ [] ∧ p.lastLedger.getD 0 < highest page.events p.highWaterLedger then
    some (highest page.events p.highWaterLedger)
  else cursor

/-- A page is done: its events are stored, and the cursor is advanced. -/
structure PageDone (rt : Runtime) (p : Paging) (page : GetEventsPage) (db db' : Db) : Prop where
  contents : db'.contents = (page.events.map (RpcEvent.content rt)).foldl absorb db.contents
  cursor : db'.cursorLedger p.target.eventType =
    p.cursorAfter page (db.cursorLedger p.target.eventType)
  others : ∀ eventType, eventType ≠ p.target.eventType →
    db'.cursorLedger eventType = db.cursorLedger eventType

/-- The first events of a page are stored. -/
def Begun (rt : Runtime) (page : GetEventsPage) (db db' : Db) : Prop :=
  ∃ done rest, page.events = done ++ rest ∧
    db'.contents = (done.map (RpcEvent.content rt)).foldl absorb db.contents

/-- Nothing of a page is stored at first. -/
theorem Begun.refl (rt : Runtime) (page : GetEventsPage) (db : Db) : Begun rt page db db :=
  ⟨[], page.events, rfl, rfl⟩

/-- What a page leaves behind: its first events are stored, and it is done if it ends. -/
structure StoresPage {β : Type} (allowed : Moment → Prop) (rt : Runtime) (p : Paging)
    (page : GetEventsPage) (db : Db) (exit : Exit (Option String) β) (db' : Db)
    (result : β) : Prop where
  begun : Begun rt page db db'
  done : ∀ b, exit = .returned b → PageDone rt p page db db' ∧ b = result
  reliable : Reliable allowed exit

/-- Moving the cursor stores no events. -/
theorem advanceCursor_contents (p : Paging) (highWaterLedger : Nat) (w : World) :
    Program.Ensures allowed (advanceCursor p highWaterLedger) w fun exit w' =>
      w'.db.contents = w.db.contents ∧ Reliable allowed exit ∧ ∀ a, exit = .returned a →
        (∀ eventType, w'.db.cursorLedger eventType =
          if eventType = p.target.eventType ∧ p.lastLedger.getD 0 < highWaterLedger then
            some highWaterLedger
          else w.db.cursorLedger eventType) := by
  unfold advanceCursor
  split
  case isTrue hbehind =>
    refine Program.Ensures.bind_get (operation_under ?_ ?_)
    · refine fun _ => ⟨rfl, reliable_returned _, fun _ _ eventType => ?_⟩
      by_cases htype : eventType = p.target.eventType
      · subst htype
        simp [Db.cursorLedger, hbehind, Storage.get_set_self]
      · simp [Db.cursorLedger, htype, Storage.get_set_of_ne]
    · exact fun hdisturbed _ _ hexit => ⟨rfl, hdisturbed.reliable _, fun a h => absurd h (hexit a)⟩
  case isFalse hbehind =>
    refine Program.ensures_pure ⟨rfl, reliable_returned _, fun _ _ eventType => ?_⟩
    rw [if_neg fun h => hbehind h.2]

/-- What indexing the events of a page leaves of the contents. -/
theorem indexEvents_contents (p : Paging) (page : GetEventsPage) (w : World) :
    Program.Ensures allowed (indexEvents rt p page) w fun exit w' =>
      StoresPage allowed rt p page w.db exit w'.db
        { p with highWaterLedger := highest page.events p.highWaterLedger } := by
  cases hevents : page.events with
  | nil =>
      simp only [indexEvents, hevents]
      refine Program.ensures_pure ⟨.refl _ _ _, fun b hb => ⟨⟨?_, ?_, fun _ _ => rfl⟩, ?_⟩,
        reliable_returned _⟩
      · rw [hevents]
        rfl
      · rw [Paging.cursorAfter, if_neg fun h => h.1 hevents]
      · exact (Exit.returned.inj hb).symm
  | cons ev batch =>
      rw [indexEvents_cons hevents]
      refine Program.Ensures.bind (indexBatch_contents (ev :: batch) p.highWaterLedger w) ?_ ?_ ?_
      · intro high w' h
        rcases h.contents with ⟨done, rest, hbatch, hcontents, hreturned⟩
        rcases hreturned high rfl with ⟨rfl, rfl⟩
        rw [List.append_nil] at hbatch
        subst hbatch
        refine Program.Ensures.bind (advanceCursor_contents p _ w') ?_ ?_ ?_
        · intro _ w'' hcursor
          have hstored := hcursor.1.trans hcontents
          have hcursors := hcursor.2.2 () rfl
          have hbefore : ∀ eventType, w'.db.cursorLedger eventType =
              w.db.cursorLedger eventType := by
            intro eventType
            rw [Db.cursorLedger, h.cursors]
            rfl
          refine Program.ensures_pure ⟨⟨_, [], hevents.trans (List.append_nil _).symm, hstored⟩,
            fun b hb => ⟨⟨hevents ▸ hstored, ?_, fun eventType htype => ?_⟩, ?_⟩,
            reliable_returned _⟩
          · rw [hcursors, Paging.cursorAfter, hevents, hbefore]
            simp
          · rw [hcursors, if_neg fun h => htype h.1, hbefore]
          · exact (Exit.returned.inj hb).symm
        · exact fun _ w'' hcursor => ⟨⟨_, [], hevents.trans (List.append_nil _).symm,
            hcursor.1.trans hcontents⟩, (fun _ h => by cases h), hcursor.2.1.thrown⟩
        · exact fun w'' hcursor => ⟨⟨_, [], hevents.trans (List.append_nil _).symm,
            hcursor.1.trans hcontents⟩, (fun _ h => by cases h), hcursor.2.1.stopped⟩
      · intro message w' h
        rcases h.contents with ⟨done, rest, hbatch, hcontents, -⟩
        exact ⟨⟨done, rest, hevents.trans hbatch, hcontents⟩, (fun _ h => by cases h),
          h.reliable.thrown⟩
      · intro w' h
        rcases h.contents with ⟨done, rest, hbatch, hcontents, -⟩
        exact ⟨⟨done, rest, hevents.trans hbatch, hcontents⟩, (fun _ h => by cases h),
          h.reliable.stopped⟩

/-- A job that is tried at least once returns, unless something may go wrong. -/
theorem withRetry_reliable {isRetryable : Option String → Bool} {fn : Job α}
    (hfn : ∀ w, Program.Ensures allowed fn w fun exit _ => Reliable allowed exit) {attempts : Nat}
    (hattempts : 0 < attempts) (w : World) :
    Program.Ensures allowed (withRetry isRetryable fn attempts) w
      fun exit _ => Reliable allowed exit := by
  induction attempts using withRetry.induct generalizing w with
  | case1 => exact absurd hattempts (Nat.lt_irrefl 0)
  | case2 => exact hfn w
  | case3 attempts ih =>
      refine Program.Ensures.bind (R := fun exit _ => Reliable allowed exit ∧
        ∀ e, exit = .returned (.error e) → Disturbed allowed)
        (Program.Ensures.attempt (hfn w) ?_ ?_ ?_) ?_ ?_ ?_
      · exact fun _ _ _ => ⟨reliable_returned _, fun _ h => by cases h⟩
      · exact fun _ _ h => ⟨reliable_returned _, fun _ _ => h fun _ h' => by cases h'⟩
      · exact fun _ h => ⟨h.stopped, fun _ h' => by cases h'⟩
      · intro result w' h
        cases result with
        | ok a => exact Program.ensures_pure (reliable_returned _)
        | error e =>
            by_cases hretry : isRetryable e = true
            · simp only [hretry, if_true]
              exact ih (Nat.succ_pos attempts) w'
            · simp only [hretry]
              exact Program.ensures_throw ((h.2 e rfl).reliable _)
      · exact fun _ _ h => h.1.thrown
      · exact fun _ h => h.1.stopped

/-- Fetching a page stores nothing, and returns the page that is served. -/
theorem fetchPage_contents {c : Chain} (hattempts : Disturbed allowed ∨ 0 < options.maxRpcAttempts)
    (w : World) :
    Program.Ensures allowed (fetchPage rpc rt options c p) w fun exit w' =>
      w'.db = w.db ∧ (∀ page, exit = .returned page → page = servedPage rpc options c p) ∧
        Reliable allowed exit := by
  cases hzero : options.maxRpcAttempts with
  | zero =>
      have hdisturbed := hattempts.resolve_right (by omega)
      rw [fetchPage, hzero]
      exact Program.ensures_throw ⟨rfl, (fun _ h => by cases h), hdisturbed.reliable _⟩
  | succ attempts =>
      intro script hscript
      have hensures : (fetchPage rpc rt options c p).Ensures w _ := fetchPage_ensures
      have hreliable : Program.Ensures allowed (fetchPage rpc rt options c p) w _ :=
        withRetry_reliable (fun w => operation_under (fun _ => reliable_returned _)
          fun hdisturbed _ _ _ => hdisturbed.reliable _) (hzero ▸ Nat.succ_pos attempts) w
      have hfetched := (hensures script fun _ _ => trivial).2
      have hrun := hreliable script hscript
      exact ⟨hrun.1, hfetched.1, hfetched.2, hrun.2⟩

/-- What a page leaves behind. -/
theorem indexPage_contents {c : Chain} (hattempts : Disturbed allowed ∨ 0 < options.maxRpcAttempts)
    (p : Paging) (w : World) :
    Program.Ensures allowed (indexPage rpc rt options c p) w fun exit w' =>
      StoresPage allowed rt p (servedPage rpc options c p) w.db exit w'.db
        ((servedPage rpc options c p).nextLedger.map fun next =>
          { p with
            highWaterLedger := highest (servedPage rpc options c p).events p.highWaterLedger
            next := next }) := by
  refine Program.Ensures.bind (fetchPage_contents hattempts w) ?_ ?_ ?_
  · intro page w' hfetched
    have hpage := hfetched.2.1 page rfl
    subst hpage
    rw [← hfetched.1]
    refine Program.Ensures.bind (indexEvents_contents p _ w') ?_ ?_ ?_
    · intro p' w'' h
      rcases h.done p' rfl with ⟨hdone, rfl⟩
      refine Program.ensures_pure ⟨h.begun, fun b hb => ⟨hdone, ?_⟩, reliable_returned _⟩
      exact (Exit.returned.inj hb).symm
    · exact fun _ _ h => ⟨h.begun, (fun _ h' => by cases h'), h.reliable.thrown⟩
    · exact fun _ h => ⟨h.begun, (fun _ h' => by cases h'), h.reliable.stopped⟩
  · intro _ w' h
    rw [h.1]
    exact ⟨.refl _ _ _, (fun _ h' => by cases h'), h.2.2.thrown⟩
  · intro w' h
    rw [h.1]
    exact ⟨.refl _ _ _, (fun _ h' => by cases h'), h.2.2.stopped⟩

end

end EventIndexer
end Kraal
