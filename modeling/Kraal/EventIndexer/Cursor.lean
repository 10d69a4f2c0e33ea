import Kraal.EventIndexer.Page
import Kraal.Foundation.Run

/-!
# The cursor of a target

The cursor is the number of a ledger, and the next tick starts with the ledger after it.  A page
ends after a number of events.  If it ends inside a ledger the cursor is written all the same,
and after a restart the rest of that ledger is never asked for again.  Nor is an event stored
whose transaction has emitted another one of its type, which is the only thing that the unique
index looks at.

Main results:

- Theorem {lit}`sound_step`: what every step of the process keeps.
- Theorem {lit}`cursor_sound`: no event below the cursor is missing, in every run whose pages
  end between ledgers and hold no event that the unique index takes for another one.
- Theorem {lit}`rest_of_ledger_lost`: the second event of a ledger is lost at a restart.
-/

namespace Kraal
namespace EventIndexer

open Foundation
open Backend (Json)

/-- Every event of a target up to the ledger of its cursor is stored. -/
def CursorSound (rt : Runtime) (target : IndexerTarget) (s : State) : Prop :=
  ∀ cursor, s.world.db.cursors.get target.eventType = some cursor →
    ∀ ev ∈ s.chain.events, target.Matches ev → ev.ledger ≤ cursor.lastLedger →
      Stored rt s.world.db ev

/-! ## Pages that are intact -/

/-- A page does not end inside a ledger, and the unique index takes none of its events for
another one. -/
structure PageIntact (rt : Runtime) (db : Db) (page : GetEventsPage) : Prop where
  unbroken : ∀ n, page.nextLedger = some n → ∀ ev ∈ page.events, ev.ledger < n
  distinct : Distinct rt page.events
  free : ∀ ev ∈ page.events, Unclaimed rt db ev

/-- A step serves no page, or one that is intact. -/
def StepIntact (rpc : SorobanRpcClient) (rt : Runtime) (options : IndexerOptions) (s : State) :
    Input → Prop
  | .page _ => ∀ p rest, s.phase = .indexing p rest →
      PageIntact rt s.world.db (servedPage rpc options s.chain p)
  | _ => True

/-! ## The invariant -/

/-- The events up to the cursor are stored, and its ledger has closed. -/
structure DbSound (rt : Runtime) (target : IndexerTarget) (c : Chain) (db : Db) : Prop where
  stored : ∀ cursor, db.cursors.get target.eventType = some cursor →
    ∀ ev ∈ c.events, target.Matches ev → ev.ledger ≤ cursor.lastLedger → Stored rt db ev
  closed : ∀ cursor, db.cursors.get target.eventType = some cursor →
    cursor.lastLedger ≤ c.latestLedger

/-- The events before the next page are stored, and it begins in a ledger that has closed or is
the next one to close. -/
structure PagingSound (rt : Runtime) (target : IndexerTarget) (c : Chain) (db : Db)
    (p : Paging) : Prop where
  same : p.target = target
  below : ∀ ev ∈ c.events, target.Matches ev → ev.ledger < p.next → Stored rt db ev
  highWater : p.highWaterLedger ≤ p.next
  next : p.next ≤ c.latestLedger + 1

/-- The invariant of the process. -/
structure Sound (rt : Runtime) (target : IndexerTarget) (s : State) : Prop
    extends DbSound rt target s.chain s.world.db where
  paging : ∀ p rest, s.phase = .indexing p rest →
    rest = [] ∧ PagingSound rt target s.chain s.world.db p

section

variable {rpc : SorobanRpcClient} {rt : Runtime} {options : IndexerOptions}
  {target : IndexerTarget} {c : Chain} {db db' : Db} {p : Paging} {page : GetEventsPage}
  {highWaterLedger : Nat} {s : State}

/-! ## A page -/

/-- After a page the events before a ledger are stored, if the next page does not begin before
it. -/
theorem PagingSound.below_page (h : PagingSound rt target c db p) {limit : Nat}
    (hfaithful : Faithful c target p.next limit page)
    (hkeeps : ∀ ev, Stored rt db ev → Stored rt db' ev)
    (hstored : ∀ ev ∈ page.events, Stored rt db' ev) {bound : Nat}
    (hbound : ∀ n, page.nextLedger = some n → bound ≤ n) :
    ∀ ev ∈ c.events, target.Matches ev → ev.ledger < bound → Stored rt db' ev := by
  intro ev hev hmatches hledger
  by_cases hbefore : ev.ledger < p.next
  · exact hkeeps ev (h.below ev hev hmatches hbefore)
  · rcases hfaithful.cases hev hmatches (not_lt.mp hbefore) with hpage | ⟨n, hn, hle⟩
    · exact hstored ev hpage
    · have hlimit := hbound n hn
      omega

/-- The highest ledger after a page that holds events is the ledger of one of them. -/
theorem PagingSound.highest (h : PagingSound rt target c db p) {limit : Nat}
    (hfaithful : Faithful c target p.next limit page)
    (hhighest : Highest page.events p.highWaterLedger highWaterLedger) (hne : page.events ≠ []) :
    ∃ ev ∈ page.events, highWaterLedger = ev.ledger := by
  rcases hhighest.reached with hsame | hreached
  · rcases List.exists_mem_of_ne_nil _ hne with ⟨ev, hev⟩
    have hstart := (hfaithful.mem hev).2.2
    have hle := hhighest.ledger_le ev hev
    have hbefore := h.highWater
    exact ⟨ev, hev, by omega⟩
  · exact hreached

/-- The database after a page that is intact. -/
theorem DbSound.afterPage (h : DbSound rt target c db) (hpaging : PagingSound rt target c db p)
    {limit : Nat} (hfaithful : Faithful c target p.next limit page)
    (hunbroken : ∀ n, page.nextLedger = some n → ∀ ev ∈ page.events, ev.ledger < n)
    (hkeeps : ∀ ev, Stored rt db ev → Stored rt db' ev)
    (hmoves : CursorMoves rt p page db db') : DbSound rt target c db' := by
  rcases hmoves with hsame | ⟨hne, high, updatedAt, hindexed, hset⟩
  · constructor
    · intro cursor hcursor ev hev hmatches hledger
      rw [hsame] at hcursor
      exact hkeeps ev (h.stored cursor hcursor ev hev hmatches hledger)
    · intro cursor hcursor
      rw [hsame] at hcursor
      exact h.closed cursor hcursor
  · rcases hpaging.highest hfaithful hindexed.highest hne with ⟨last, hlast, hhigh⟩
    have hcursor : ∀ cursor, db'.cursors.get target.eventType = some cursor →
        cursor.lastLedger = high := by
      intro cursor hcursor
      rw [hset, hpaging.same, Storage.get_set_self, Option.some.injEq] at hcursor
      rw [← hcursor]
    constructor
    · intro cursor hget ev hev hmatches hledger
      rw [hcursor cursor hget] at hledger
      refine hpaging.below_page hfaithful hkeeps hindexed.stored (fun n hn => ?_) ev hev hmatches
        (Nat.lt_succ_of_le hledger)
      rw [hhigh]
      exact hunbroken n hn last hlast
    · intro cursor hget
      rw [hcursor cursor hget, hhigh]
      exact c.closed last (hfaithful.mem hlast).1

/-- The page after one that is intact. -/
theorem PagingSound.afterPage (h : PagingSound rt target c db p) {limit n : Nat}
    (hfaithful : Faithful c target p.next limit page)
    (hunbroken : ∀ n, page.nextLedger = some n → ∀ ev ∈ page.events, ev.ledger < n)
    (hkeeps : ∀ ev, Stored rt db ev → Stored rt db' ev)
    (hindexed : Indexed rt p page db' highWaterLedger) (hn : page.nextLedger = some n) :
    PagingSound rt target c db'
      { p with highWaterLedger := highWaterLedger, next := n } := by
  rcases hfaithful.next hn with ⟨first, hfirst, hstart, hledger⟩
  constructor
  · exact h.same
  · refine h.below_page hfaithful hkeeps hindexed.stored fun n' hn' => ?_
    rw [hn, Option.some.injEq] at hn'
    exact hn'.le
  · change highWaterLedger ≤ n
    have hbefore := h.highWater
    rcases hindexed.highest.reached with hsame | ⟨ev, hev, hreached⟩
    · omega
    · have hunbroken' := hunbroken n hn ev hev
      omega
  · change n ≤ c.latestLedger + 1
    have hclosed := c.closed first hfirst
    omega

/-! ## A new target -/

theorem beginTarget_ensures (target : IndexerTarget) (w : World) :
    (beginTarget target).Ensures w fun exit w' => w'.db = w.db ∧ ∀ p, exit = .returned p →
      p = ⟨target, (w.db.cursors.get target.eventType).map LedgerCursorRow.lastLedger,
        ((w.db.cursors.get target.eventType).map fun row => row.lastLedger + 1).getD 0,
        ((w.db.cursors.get target.eventType).map LedgerCursorRow.lastLedger).getD 0⟩ := by
  refine Program.Ensures.bind (R := fun exit w' => w'.db = w.db ∧
    ∀ cursor, exit = .returned cursor → cursor = w.db.cursors.get target.eventType)
    (operation_ensures ?_ ?_ ?_) ?_ ?_ ?_
  · intro _
    refine ⟨rfl, fun cursor hcursor => ?_⟩
    rw [Exit.returned.injEq] at hcursor
    exact hcursor.symm
  · exact fun _ _ => ⟨rfl, fun _ h => by cases h⟩
  · exact fun _ => ⟨rfl, fun _ h => by cases h⟩
  · intro cursor w' h
    have hcursor := h.2 cursor rfl
    refine Program.ensures_pure ⟨h.1, fun p hp => ?_⟩
    rw [Exit.returned.injEq, hcursor] at hp
    exact hp.symm
  · exact fun _ _ h => ⟨h.1, fun _ h' => by cases h'⟩
  · exact fun _ h => ⟨h.1, fun _ h' => by cases h'⟩

/-- The first page of a target begins after its cursor. -/
theorem DbSound.begin (h : DbSound rt target c db) :
    PagingSound rt target c db
      ⟨target, (db.cursors.get target.eventType).map LedgerCursorRow.lastLedger,
        ((db.cursors.get target.eventType).map fun row => row.lastLedger + 1).getD 0,
        ((db.cursors.get target.eventType).map LedgerCursorRow.lastLedger).getD 0⟩ := by
  cases hcursor : db.cursors.get target.eventType with
  | none =>
      refine ⟨rfl, ?_, le_rfl, Nat.zero_le _⟩
      intro ev _ _ hledger
      exact absurd hledger (Nat.not_lt_zero _)
  | some cursor =>
      refine ⟨rfl, ?_, Nat.le_succ _, Nat.succ_le_succ (h.closed cursor hcursor)⟩
      intro ev hev hmatches hledger
      exact h.stored cursor hcursor ev hev hmatches (Nat.le_of_lt_succ hledger)

/-- The process is sound when it is idle. -/
theorem DbSound.idle {w : World} (h : DbSound rt target s.chain w.db) :
    Sound rt target { s with world := w, phase := .idle } :=
  ⟨h, fun _ _ hphase => by cases hphase⟩

/-- The process is sound when it turns to its target, or has done with it. -/
theorem DbSound.nextTarget (h : DbSound rt target s.chain s.world.db)
    {targets : List IndexerTarget} (htargets : targets = [] ∨ targets = [target])
    (script : List Moment) : Sound rt target (nextTarget targets script s) := by
  rcases htargets with rfl | rfl
  · exact h.idle
  · have hbegin := (beginTarget_ensures target s.world script fun _ _ => trivial).2
    rcases hrun : beginTarget target script s.world with ⟨exit, script', w⟩
    rw [hrun] at hbegin
    have hdb : DbSound rt target s.chain w.db := by
      rw [hbegin.1]
      exact h
    cases exit with
    | returned p =>
        simp only [EventIndexer.nextTarget, hrun]
        refine ⟨hdb, fun p' rest hphase => ?_⟩
        rcases Phase.indexing.inj hphase with ⟨rfl, rfl⟩
        rw [hbegin.2 p rfl]
        refine ⟨rfl, ?_⟩
        change PagingSound rt target s.chain w.db _
        rw [hbegin.1]
        exact h.begin
    | thrown message =>
        simp only [EventIndexer.nextTarget, hrun]
        exact hdb.idle
    | stopped =>
        simp only [EventIndexer.nextTarget, hrun]
        exact hdb.idle

/-! ## Steps -/

/-- Nothing changes for the process when other tables are written. -/
theorem Sound.withDb (h : Sound rt target s) {db : Db}
    (hcursors : db.cursors = s.world.db.cursors)
    (hevents : db.indexedEvents = s.world.db.indexedEvents) : Sound rt target (s.withDb db) := by
  have hstored : ∀ ev, Stored rt s.world.db ev → Stored rt db ev := by
    intro ev hev
    rw [Stored, hevents]
    exact hev
  refine ⟨⟨fun cursor hcursor ev hev hmatches hledger => ?_, fun cursor hcursor => ?_⟩,
    fun p rest hphase => ?_⟩
  · change db.cursors.get target.eventType = some cursor at hcursor
    rw [hcursors] at hcursor
    exact hstored ev (h.stored cursor hcursor ev hev hmatches hledger)
  · change db.cursors.get target.eventType = some cursor at hcursor
    rw [hcursors] at hcursor
    exact h.closed cursor hcursor
  · rcases h.paging p rest hphase with ⟨hrest, hpaging⟩
    exact ⟨hrest, hpaging.same, fun ev hev hmatches hledger =>
      hstored ev (hpaging.below ev hev hmatches hledger), hpaging.highWater, hpaging.next⟩

/-- The events of the next ledger lie behind the cursor and the next page. -/
theorem Sound.close (h : Sound rt target s) (emitted : List Emission) :
    Sound rt target { s with chain := s.chain.close emitted } := by
  refine ⟨⟨fun cursor hcursor ev hev hmatches hledger => ?_, fun cursor hcursor => ?_⟩,
    fun p rest hphase => ?_⟩
  · have hclosed := h.closed cursor hcursor
    rcases Chain.mem_close hev with hev | hnew
    · exact h.stored cursor hcursor ev hev hmatches hledger
    · omega
  · exact (h.closed cursor hcursor).trans (Nat.le_succ _)
  · rcases h.paging p rest hphase with ⟨hrest, hpaging⟩
    have hnext := hpaging.next
    refine ⟨hrest, hpaging.same, fun ev hev hmatches hledger => ?_, hpaging.highWater, ?_⟩
    · rcases Chain.mem_close hev with hev | hnew
      · exact hpaging.below ev hev hmatches hledger
      · omega
    · exact hnext.trans (Nat.le_succ _)

/-- A page that is intact keeps the process sound, wherever it is interrupted. -/
theorem Sound.afterPage (h : Sound rt target s) {rest : List IndexerTarget}
    (hphase : s.phase = .indexing p rest)
    (hintact : PageIntact rt s.world.db (servedPage rpc options s.chain p))
    (script : List Moment) :
    Sound rt target (step rpc rt options [target] s (.page script)) := by
  rcases h.paging p rest hphase with ⟨rfl, hpaging⟩
  have hfaithful : Faithful s.chain target p.next options.pageSize
      (servedPage rpc options s.chain p) := by
    have hserved := rpc.faithful s.chain p.target.contractId p.target.eventType p.next
      options.pageSize
    rw [servedPage]
    rw [hpaging.same] at hserved ⊢
    exact hserved
  have hpage := (indexPage_ensures hintact.distinct hintact.free script fun _ _ => trivial).2
  unfold step
  simp only [hphase]
  rcases hrun : indexPage rpc rt options s.chain p script s.world with ⟨exit, script', w⟩
  rw [hrun] at hpage
  rcases hpage with ⟨hkeeps, hmoves, hresult⟩
  have hdb := h.toDbSound.afterPage hpaging hfaithful hintact.unbroken hkeeps hmoves
  cases exit with
  | thrown message => exact hdb.idle
  | stopped => exact hdb.idle
  | returned result =>
      rcases hresult result rfl with ⟨highWaterLedger, hindexed, rfl⟩
      cases hnext : (servedPage rpc options s.chain p).nextLedger with
      | none => exact DbSound.nextTarget (s := { s with world := w }) hdb (.inl rfl) script'
      | some n =>
          refine ⟨hdb, fun p' rest hphase' => ?_⟩
          rcases Phase.indexing.inj hphase' with ⟨rfl, rfl⟩
          exact ⟨rfl, hpaging.afterPage hfaithful hintact.unbroken hkeeps hindexed hnext⟩

/-- What every step of the process keeps. -/
theorem sound_step {i : Input} (h : Sound rt target s)
    (hintact : StepIntact rpc rt options s i) :
    Sound rt target (step rpc rt options [target] s i) := by
  cases i with
  | tick script =>
      cases hphase : s.phase with
      | idle =>
          simp only [step, hphase]
          exact h.toDbSound.nextTarget (.inr rfl) script
      | indexing p rest =>
          simp only [step, hphase]
          exact h
  | page script =>
      cases hphase : s.phase with
      | idle =>
          simp only [step, hphase]
          exact h
      | indexing p rest => exact h.afterPage hphase (hintact p rest hphase) script
  | restart => exact h.toDbSound.idle
  | close emitted => exact h.close emitted
  | insertWebhook row => exact h.withDb rfl rfl
  | updateWebhook id active => exact h.withDb rfl rfl

end

theorem sound_initial (rt : Runtime) (target : IndexerTarget) (c : Chain) :
    Sound rt target (State.initial c) := by
  refine ⟨⟨fun cursor hcursor => ?_, fun cursor hcursor => ?_⟩, fun _ _ hphase => by cases hphase⟩
  · rw [State.initial, Db.empty, Storage.get_empty] at hcursor
    cases hcursor
  · rw [State.initial, Db.empty, Storage.get_empty] at hcursor
    cases hcursor

/-- No event below the cursor is missing, in every run whose pages end between ledgers and hold
no event that the unique index takes for another one. -/
theorem cursor_sound (rpc : SorobanRpcClient) (rt : Runtime) (options : IndexerOptions)
    (target : IndexerTarget) (c : Chain) (run : List Input)
    (hintact : ∀ e ∈ Run.trace (step rpc rt options [target]) (State.initial c) run,
      StepIntact rpc rt options e.1 e.2) :
    ∀ s, Run.Visits (step rpc rt options [target]) (State.initial c) run s →
      CursorSound rt target s := by
  intro s hs
  have hsound := Run.visits_invariant (I := Sound rt target) (sound_initial rt target c)
    (fun e he h => sound_step h (hintact e he)) s hs
  exact hsound.stored

/-! ## One event a ledger, and two in one -/

/-- The sales of a market. -/
def saleTarget : IndexerTarget := ⟨"market", "sale"⟩

/-- A sale in a transaction. -/
def sale (transactionHash : String) : Emission := ⟨"market", "sale", transactionHash, .null⟩

/-- Pages of one event. -/
def singlePages : IndexerOptions := { pageSize := 1 }

/-- A page of one event is intact if the next one is of a later ledger. -/
theorem pageIntact_single {rt : Runtime} {db : Db} {ev : RpcEvent} {next : Option Nat}
    (hnext : ∀ n, next = some n → ev.ledger < n) (hfree : Unclaimed rt db ev) :
    PageIntact rt db ⟨[ev], next⟩ := by
  constructor
  · intro n hn ev' hev'
    rw [List.mem_singleton.mp hev']
    exact hnext n hn
  · intro ev' hev' ev'' hev'' _
    rw [List.mem_singleton.mp hev', List.mem_singleton.mp hev'']
    exact ⟨rfl, rfl⟩
  · intro ev' hev'
    rw [List.mem_singleton.mp hev']
    exact hfree

/-- The text of a value without structure. -/
def plainText : Json → String
  | .bool true => "true"
  | .bool false => "false"
  | _ => "null"

/-- A runtime for texts in lower case, null and the booleans. -/
def plainRuntime : Runtime := ⟨plainText, fun text => text⟩

/-- Two sales, each in a ledger of its own. -/
theorem sound_of_two_ledgers :
    CursorSound plainRuntime saleTarget
      (Run.final (step Chain.client plainRuntime singlePages [saleTarget])
        (State.initial ((Chain.empty.close [sale "a"]).close [sale "b"]))
        [.tick [], .page [], .restart, .tick [], .page []]) := by
  refine cursor_sound Chain.client plainRuntime singlePages saleTarget _ _ ?_ _
    (Run.visits_final _ _)
  intro e he
  simp only [Run.trace_cons, Run.trace_nil, List.mem_cons, List.not_mem_nil, or_false] at he
  rcases he with rfl | rfl | rfl | rfl | rfl
  · trivial
  · intro p rest hphase
    rcases Phase.indexing.inj hphase with ⟨rfl, rfl⟩
    have hpage : PageIntact plainRuntime Db.empty ⟨[(sale "a").event 1], some 2⟩ := by
      refine pageIntact_single (fun n hn => ?_) fun row hrow => by cases hrow
      rw [← Option.some.inj hn]
      exact Nat.lt_succ_self 1
    exact hpage
  · trivial
  · trivial
  · intro p rest hphase
    rcases Phase.indexing.inj hphase with ⟨rfl, rfl⟩
    have hfree : Unclaimed plainRuntime ⟨Storage.empty.set "sale" ⟨"sale", 1, 0⟩,
        [((sale "a").event 1).row plainRuntime 1 0], [], [], 1⟩ ((sale "b").event 2) := by
      intro row hrow hkey
      rw [List.mem_singleton.mp hrow] at hkey
      simp [IndexedEventRow.key, RpcEvent.key, RpcEvent.row, sale, Emission.event] at hkey
    exact pageIntact_single (fun n hn => by cases hn) hfree

/-- The second sale of a ledger is lost when the process restarts after the first one. -/
theorem rest_of_ledger_lost : ¬ ∃ rt : Runtime,
    ∀ s, Run.Visits (step Chain.client rt singlePages [saleTarget])
        (State.initial (Chain.empty.close [sale "a", sale "b"]))
        [.tick [], .page [], .restart, .tick [], .page []] s →
      CursorSound rt saleTarget s := by
  intro h
  rcases h with ⟨rt, hclaim⟩
  have hsound := hclaim _ (Run.visits_final _ _)
  have hcursor : (Run.final (step Chain.client rt singlePages [saleTarget])
      (State.initial (Chain.empty.close [sale "a", sale "b"]))
      [.tick [], .page [], .restart, .tick [], .page []]).world.db.cursors.get "sale" =
      some ⟨"sale", 1, 0⟩ := rfl
  have hrows : (Run.final (step Chain.client rt singlePages [saleTarget])
      (State.initial (Chain.empty.close [sale "a", sale "b"]))
      [.tick [], .page [], .restart, .tick [], .page []]).world.db.indexedEvents =
      [((sale "a").event 1).row rt 1 0] := rfl
  have hstored := hsound _ hcursor ((sale "b").event 1)
    (List.mem_cons_of_mem _ List.mem_cons_self) ⟨rfl, rfl⟩ le_rfl
  rcases hstored with ⟨row, hrow, hkey, -⟩
  rw [hrows] at hrow
  rw [List.mem_singleton.mp hrow] at hkey
  simp [IndexedEventRow.key, RpcEvent.key, RpcEvent.row, sale, Emission.event] at hkey

end EventIndexer
end Kraal
