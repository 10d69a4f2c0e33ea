import Kraal.EventIndexer.Independence
import Mathlib.Logic.Relation

/-!
# Ticks that come to an end

A tick asks for one page after the other, each from the ledger that the page before names.  It
comes to an end unless a page names the ledger that it was asked for, and then it goes on for ever.
When it ends, every event after the cursor is stored if no other event is in its place, and the
cursor is at the last of their ledgers.

Main results:

- Theorem {lit}`Progress.page`: what the pages so far have stored.
- Theorem {lit}`Underway.completed`: a tick whose pages name later ledgers is completed.
- Theorem {lit}`Underway.not_idle`: a tick with a page that names its own ledger never ends.
- Theorem {lit}`tick_completes_iff`: exactly when a tick is completed.
- Theorem {lit}`stalls_iff`: if pages are full, exactly when a ledger has more events than a page.
- Theorem {lit}`busy_ledger`: a ledger with two events and pages of one.
-/

namespace Kraal
namespace EventIndexer

open Foundation
open Relation (ReflTransGen)

variable {rt : Runtime} {rpc : SorobanRpcClient} {options : IndexerOptions}
  {target : IndexerTarget} {s s' : State} {script : List Moment} {p : Paging} {c : Chain}
  {db db' : Db} {startLedger ledger : Nat} {cursor : Option Nat}

/-! ## Pages that are asked for -/

/-- The page of a target from a ledger on. -/
def pageAt (rpc : SorobanRpcClient) (options : IndexerOptions) (c : Chain)
    (target : IndexerTarget) (ledger : Nat) : GetEventsPage :=
  rpc.getEvents c target.contractId target.eventType ledger options.pageSize

/-- The page from a ledger on names the ledger of the next page. -/
def Names (rpc : SorobanRpcClient) (options : IndexerOptions) (c : Chain)
    (target : IndexerTarget) (ledger next : Nat) : Prop :=
  (pageAt rpc options c target ledger).nextLedger = some next

/-- A page that is asked for names its own ledger. -/
def Stalls (rpc : SorobanRpcClient) (options : IndexerOptions) (c : Chain)
    (target : IndexerTarget) (startLedger : Nat) : Prop :=
  ∃ ledger, ReflTransGen (Names rpc options c target) startLedger ledger ∧
    Names rpc options c target ledger ledger

/-- A page names a ledger that has closed, not one before its own. -/
theorem Names.bounds {next : Nat} (h : Names rpc options c target ledger next) :
    ledger ≤ next ∧ next ≤ c.latestLedger := by
  rcases (rpc.faithful c target.contractId target.eventType ledger options.pageSize).next h with
    ⟨ev, hev, hstart, rfl⟩
  exact ⟨hstart, c.closed ev hev⟩

/-! ## Completed ticks -/

/-- The largest ledger of some events, if it is behind the cursor. -/
def largestLedger (events : List RpcEvent) (cursor : Nat) : Nat :=
  (events.map RpcEvent.ledger).foldl max cursor

theorem largestLedger_le {events : List RpcEvent} {n m : Nat} :
    largestLedger events n ≤ m ↔ n ≤ m ∧ ∀ ev ∈ events, ev.ledger ≤ m := by
  unfold largestLedger
  induction events generalizing n with
  | nil => simp
  | cons ev events ih =>
      rw [List.map_cons, List.foldl_cons, ih, List.forall_mem_cons, max_le_iff, and_assoc]

theorem highest_eq (events : List RpcEvent) (n : Nat) :
    highest events n = largestLedger events n := by
  unfold highest largestLedger
  induction events generalizing n with
  | nil => rfl
  | cons ev events ih =>
      have hmax : (if n < ev.ledger then ev.ledger else n) = max n ev.ledger := by
        split <;> omega
      rw [List.foldl_cons, hmax, ih]
      rfl

/-- The ledger from which the first page is asked for. -/
def firstLedger (target : IndexerTarget) (db : Db) : Nat :=
  ((db.cursorLedger target.eventType).map (· + 1)).getD 0

/-- The events after the cursor of a target. -/
def State.newEvents (s : State) (target : IndexerTarget) : List RpcEvent :=
  s.chain.eventsFrom target (firstLedger target s.world.db)

/-- A tick that began in a state has ended: every event after the cursor is stored, and the cursor
is at the largest of their ledgers. -/
structure Completed (rt : Runtime) (target : IndexerTarget) (s s' : State) : Prop where
  idle : s'.phase = .idle
  stored : ∀ ev ∈ s.newEvents target, ev.content rt ∈ s'.world.db.contents
  cursor : (s'.world.db.cursorLedger target.eventType).getD 0 =
    largestLedger (s.newEvents target) ((s.world.db.cursorLedger target.eventType).getD 0)

/-- No other event is in the place of an event after the cursor. -/
def Unobstructed (rt : Runtime) (target : IndexerTarget) (s : State) : Prop :=
  ∀ ev ∈ s.newEvents target, Free s.world.db.contents (ev.content rt) ∧
    Free ((s.newEvents target).map (RpcEvent.content rt)) (ev.content rt)

/-! ## Progress -/

/-- What the pages before a ledger have stored since a tick began, or all pages. -/
structure Progress (rt : Runtime) (target : IndexerTarget) (s : State) (next : Option Nat)
    (high : Nat) (db : Db) : Prop where
  stored : ∀ ev ∈ s.newEvents target, (∀ n, next = some n → ev.ledger < n) →
    ev.content rt ∈ db.contents ∧ ev.ledger ≤ high
  within : ∀ x ∈ db.contents,
    x ∈ s.world.db.contents ∨ x ∈ (s.newEvents target).map (RpcEvent.content rt)
  base : (s.world.db.cursorLedger target.eventType).getD 0 ≤ high
  bounded : high ≤ largestLedger (s.newEvents target)
    ((s.world.db.cursorLedger target.eventType).getD 0)
  cursor : (db.cursorLedger target.eventType).getD 0 = high

/-- A tick begins. -/
theorem progress_start (rt : Runtime) (target : IndexerTarget) (s : State) :
    Progress rt target s (some (firstLedger target s.world.db))
      ((s.world.db.cursorLedger target.eventType).getD 0) s.world.db := by
  refine ⟨fun ev hev hbefore => ?_, fun x hx => .inl hx, le_rfl, ?_, rfl⟩
  · have hlater := (Chain.mem_eventsFrom.mp hev).2.2
    have hlt := hbefore _ rfl
    omega
  · exact (largestLedger_le.mp le_rfl).1

/-- A page is done. -/
theorem Progress.page (h : Progress rt target s (some p.next) p.highWaterLedger db)
    (hfree : Unobstructed rt target s) (hp : p.target = target)
    (hlast : p.lastLedger = s.world.db.cursorLedger target.eventType)
    (hnext : firstLedger target s.world.db ≤ p.next)
    (hdone : PageDone rt p (servedPage rpc options s.chain p) db db') :
    Progress rt target s (servedPage rpc options s.chain p).nextLedger
      (highest (servedPage rpc options s.chain p).events p.highWaterLedger) db' := by
  subst hp
  have hfaithful := rpc.faithful s.chain p.target.contractId p.target.eventType p.next
    options.pageSize
  have hnew : ∀ ev ∈ (servedPage rpc options s.chain p).events, ev ∈ s.newEvents p.target := by
    intro ev hev
    rcases hfaithful.mem hev with ⟨hmem, hmatches, hstart⟩
    exact Chain.mem_eventsFrom.mpr ⟨hmem, hmatches, hnext.trans hstart⟩
  have hhigh := largestLedger_le.mp (highest_eq (servedPage rpc options s.chain p).events
    p.highWaterLedger).ge
  -- the events of the page are all stored
  have hpage : ∀ ev ∈ (servedPage rpc options s.chain p).events,
      ev.content rt ∈ db'.contents := by
    intro ev hev
    rw [hdone.contents]
    refine mem_foldl (fun x hx => ?_) (fun x hx => ?_) _ (List.mem_map_of_mem hev)
    · rcases List.mem_map.mp hx with ⟨ev', hev', rfl⟩
      intro y hy hkey
      rcases h.within y hy with hold | hadded
      · exact (hfree ev' (hnew ev' hev')).1 y hold hkey
      · exact (hfree ev' (hnew ev' hev')).2 y hadded hkey
    · rcases List.mem_map.mp hx with ⟨ev', hev', rfl⟩
      intro y hy hkey
      rcases List.mem_map.mp hy with ⟨ev'', hev'', rfl⟩
      exact (hfree ev' (hnew ev' hev')).2 _ (List.mem_map_of_mem (hnew ev'' hev'')) hkey
  refine ⟨fun ev hev hbefore => ?_, fun x hx => ?_, h.base.trans hhigh.1, ?_, ?_⟩
  · by_cases hold : ev.ledger < p.next
    · have hstored := h.stored ev hev fun n hn => Option.some.inj hn ▸ hold
      refine ⟨?_, hstored.2.trans hhigh.1⟩
      rw [hdone.contents]
      exact mem_foldl_of_mem hstored.1 _
    · rcases Chain.mem_eventsFrom.mp hev with ⟨hmem, hmatches, -⟩
      rcases hfaithful.cases hmem hmatches (not_lt.mp hold) with hserved | ⟨n, hn, hle⟩
      · exact ⟨hpage ev hserved, hhigh.2 ev hserved⟩
      · exact absurd (hbefore n hn) (not_lt.mpr hle)
  · rw [hdone.contents] at hx
    rcases mem_of_mem_foldl hx with hold | hadded
    · exact h.within x hold
    · rcases List.mem_map.mp hadded with ⟨ev, hev, rfl⟩
      exact .inr (List.mem_map_of_mem (hnew ev hev))
  · rw [highest_eq]
    exact largestLedger_le.mpr ⟨h.bounded, fun ev hev =>
      (largestLedger_le.mp le_rfl).2 ev (hnew ev hev)⟩
  · rw [hdone.cursor, Paging.cursorAfter, hlast]
    split
    case isTrue => rfl
    case isFalse hbehind =>
      rw [h.cursor]
      by_cases hempty : (servedPage rpc options s.chain p).events = []
      · rw [hempty]
        rfl
      · have hle := not_lt.mp fun hlt => hbehind ⟨hempty, hlt⟩
        exact le_antisymm hhigh.1 (hle.trans h.base)

theorem Progress.completed {high : Nat} (h : Progress rt target s none high s'.world.db)
    (hidle : s'.phase = .idle) : Completed rt target s s' := by
  have hall := fun ev hev => h.stored ev hev fun n hn => by cases hn
  refine ⟨hidle, fun ev hev => (hall ev hev).1, ?_⟩
  rw [h.cursor]
  exact le_antisymm h.bounded (largestLedger_le.mpr ⟨h.base, fun ev hev => (hall ev hev).2⟩)

/-! ## Pages of one tick -/

/-- A tick that began in a state is about to ask for a page. -/
structure Underway (target : IndexerTarget) (s s' : State) (p : Paging) : Prop where
  phase : s'.phase = .indexing p []
  same : p.target = target
  last : p.lastLedger = s.world.db.cursorLedger target.eventType
  next : firstLedger target s.world.db ≤ p.next
  chain : s'.chain = s.chain

/-- A tick begins: the first page is asked for after the cursor. -/
theorem underway_tick (rpc : SorobanRpcClient) (rt : Runtime) (options : IndexerOptions)
    (target : IndexerTarget) (hidle : s.phase = .idle)
    (hscript : ∀ moment ∈ script, moment.Quiet) :
    Underway target s (step rpc rt options [target] s (.tick script))
        (.start target (s.world.db.cursorLedger target.eventType)) ∧
      (step rpc rt options [target] s (.tick script)).world.db = s.world.db := by
  have hstep : step rpc rt options [target] s (.tick script) =
      nextTarget [target] script s := by
    simp only [step, hidle]
  rcases nextTarget_undisturbed hscript [target] s with ⟨hchain, hdb, hphase⟩
  rw [hstep]
  exact ⟨⟨hphase, rfl, rfl, le_rfl, hchain⟩, hdb⟩

/-- A page of a tick: the tick is over, or about to ask for the page that this one names. -/
theorem Underway.page (h : Underway target s s' p) (rpc : SorobanRpcClient) (rt : Runtime)
    (hattempts : 0 < options.maxRpcAttempts) (hscript : ∀ moment ∈ script, moment.Quiet) :
    PageDone rt p (servedPage rpc options s.chain p) s'.world.db
        (step rpc rt options [target] s' (.page script)).world.db ∧
      ((servedPage rpc options s.chain p).nextLedger = none →
        (step rpc rt options [target] s' (.page script)).phase = .idle) ∧
      ∀ next, (servedPage rpc options s.chain p).nextLedger = some next →
        Underway target s (step rpc rt options [target] s' (.page script))
          { p with
            highWaterLedger := highest (servedPage rpc options s.chain p).events p.highWaterLedger
            next := next } := by
  rcases step_page rpc rt hattempts hscript h.phase [target] with
    ⟨script', w', -, hdone, hstep⟩
  rw [h.chain] at hdone hstep
  rw [hstep]
  cases hnext : (servedPage rpc options s.chain p).nextLedger with
  | none => exact ⟨hdone, fun _ => rfl, fun _ h => by cases h⟩
  | some next =>
      have hnames : Names rpc options s.chain p.target p.next next := hnext
      refine ⟨hdone, (fun h => by cases h), fun n hn => ?_⟩
      rw [← Option.some.inj hn]
      exact ⟨rfl, h.same, h.last, h.next.trans hnames.bounds.1, rfl⟩

/-- The pages of a tick that is over change nothing. -/
theorem final_pages_idle (rpc : SorobanRpcClient) (rt : Runtime) (options : IndexerOptions)
    (targets : List IndexerTarget) (hidle : s.phase = .idle) (scripts : List (List Moment)) :
    Run.final (step rpc rt options targets) s (scripts.map Input.page) = s := by
  induction scripts with
  | nil => rfl
  | cons script scripts ih =>
      have hstep : step rpc rt options targets s (.page script) = s := by
        simp only [step, hidle]
      rw [List.map_cons, Run.final_cons, hstep, ih]

/-- A tick whose pages all name later ledgers is completed after as many pages as there are ledgers
left, and one. -/
theorem Underway.completed (h : Underway target s s' p) (rpc : SorobanRpcClient)
    (hattempts : 0 < options.maxRpcAttempts) (hfree : Unobstructed rt target s)
    (hprogress : Progress rt target s (some p.next) p.highWaterLedger s'.world.db)
    (hmoves : ¬ Stalls rpc options s.chain target p.next) {scripts : List (List Moment)}
    (hne : scripts ≠ []) (hlength : s.chain.latestLedger + 2 ≤ p.next + scripts.length)
    (hquiet : ∀ script ∈ scripts, ∀ moment ∈ script, moment.Quiet) :
    Completed rt target s
      (Run.final (step rpc rt options [target]) s' (scripts.map Input.page)) := by
  induction scripts generalizing s' p with
  | nil => exact absurd rfl hne
  | cons script scripts ih =>
      rcases h.page rpc rt hattempts (hquiet script List.mem_cons_self) with
        ⟨hdone, hover, hgoes⟩
      have hpage := hprogress.page hfree h.same (h.same ▸ h.last) h.next hdone
      rw [List.map_cons, Run.final_cons]
      cases hnext : (servedPage rpc options s.chain p).nextLedger with
      | none =>
          rw [hnext] at hpage
          rw [final_pages_idle rpc rt options _ (hover hnext)]
          exact hpage.completed (hover hnext)
      | some next =>
          have hnames : Names rpc options s.chain target p.next next := by
            rw [← h.same]
            exact hnext
          have hbounds := hnames.bounds
          have hlater : p.next ≠ next := by
            intro heq
            rw [← heq] at hnames
            exact hmoves ⟨p.next, .refl, hnames⟩
          rw [hnext] at hpage
          rw [List.length_cons] at hlength
          refine ih (hgoes next hnext) hpage ?_ ?_ ?_ ?_
          · intro hstalls
            rcases hstalls with ⟨ledger, hreach, hself⟩
            exact hmoves ⟨ledger, .head hnames hreach, hself⟩
          · rintro rfl
            rw [List.length_nil] at hlength
            omega
          · change s.chain.latestLedger + 2 ≤ next + scripts.length
            omega
          · exact fun script hmem => hquiet script (List.mem_cons_of_mem _ hmem)

/-- If a page that is asked for will name its own ledger, the next one names a ledger from which
this is so. -/
theorem Stalls.next (h : Stalls rpc options c target ledger) :
    ∃ next, Names rpc options c target ledger next ∧ Stalls rpc options c target next := by
  rcases h with ⟨stalled, hreach, hself⟩
  rcases hreach.cases_head with rfl | ⟨next, hnames, hrest⟩
  · exact ⟨ledger, hself, ledger, .refl, hself⟩
  · exact ⟨next, hnames, stalled, hrest, hself⟩

/-- A tick with a page that names its own ledger never ends. -/
theorem Underway.not_idle (h : Underway target s s' p) (rpc : SorobanRpcClient) (rt : Runtime)
    (hattempts : 0 < options.maxRpcAttempts) (hstalls : Stalls rpc options s.chain target p.next)
    {scripts : List (List Moment)}
    (hquiet : ∀ script ∈ scripts, ∀ moment ∈ script, moment.Quiet) :
    (Run.final (step rpc rt options [target]) s' (scripts.map Input.page)).phase ≠ .idle := by
  induction scripts generalizing s' p with
  | nil =>
      rw [List.map_nil, Run.final_nil, h.phase]
      exact fun hidle => by cases hidle
  | cons script scripts ih =>
      rcases h.page rpc rt hattempts (hquiet script List.mem_cons_self) with ⟨-, -, hgoes⟩
      rcases hstalls.next with ⟨next, hnames, hstalls'⟩
      rw [← h.same] at hnames
      rw [List.map_cons, Run.final_cons]
      exact ih (hgoes next hnames) hstalls'
        fun script hmem => hquiet script (List.mem_cons_of_mem _ hmem)

/-! ## When a tick is completed -/

/-- After enough pages a tick of a target is completed, if no operation fails. -/
def TickCompletes (rpc : SorobanRpcClient) (rt : Runtime) (options : IndexerOptions)
    (target : IndexerTarget) (s : State) : Prop :=
  ∃ n, ∀ (tick : List Moment) (scripts : List (List Moment)), n ≤ scripts.length →
    (∀ moment ∈ tick, moment.Quiet) →
    (∀ script ∈ scripts, ∀ moment ∈ script, moment.Quiet) →
    Completed rt target s
      (Run.final (step rpc rt options [target]) s (.tick tick :: scripts.map Input.page))

/-- The events after the cursor are stored already, and it is at the last of their ledgers. -/
def UpToDate (rt : Runtime) (target : IndexerTarget) (s : State) : Prop :=
  ∀ ev ∈ s.newEvents target, ev.content rt ∈ s.world.db.contents ∧
    ev.ledger ≤ (s.world.db.cursorLedger target.eventType).getD 0

/-- Pages of which none is disturbed complete the tick if there are enough of them. -/
theorem TickCompletes.exists_completed (h : TickCompletes rpc rt options target s) :
    ∃ scripts : List (List Moment), scripts ≠ [] ∧
      (∀ script ∈ scripts, ∀ moment ∈ script, moment.Quiet) ∧
      Completed rt target s
        (Run.final (step rpc rt options [target]) s (.tick [] :: scripts.map Input.page)) := by
  rcases h with ⟨n, hcompletes⟩
  have hquiet : ∀ script ∈ List.replicate (n + 1) ([] : List Moment), ∀ moment ∈ script,
      moment.Quiet := by
    intro script hscript moment hmoment
    rw [List.eq_of_mem_replicate hscript] at hmoment
    cases hmoment
  refine ⟨List.replicate (n + 1) [], List.cons_ne_nil _ _, hquiet, hcompletes [] _ ?_ ?_ hquiet⟩
  · rw [List.length_replicate]
    exact Nat.le_succ n
  · exact fun _ hmoment => by cases hmoment

/-- The unique index refuses what is in the place of another event. -/
theorem Completed.unobstructed {run : List Input} {targets : List IndexerTarget}
    (h : Completed rt target s (Run.final (step rpc rt options targets) s run))
    (hunique : UniqueKeys s.world.db.contents) : Unobstructed rt target s := by
  have hfinal : UniqueKeys (Run.final (step rpc rt options targets) s run).world.db.contents :=
    uniqueKeys_final hunique
  intro ev hev
  refine ⟨fun y hy hkey => ?_, fun y hy hkey => ?_⟩
  · exact hfinal.eq (mem_contents_final hy) (h.stored ev hev) hkey
  · rcases List.mem_map.mp hy with ⟨ev', hev', rfl⟩
    exact hfinal.eq (h.stored ev' hev') (h.stored ev hev) hkey

theorem TickCompletes.not_stalls (h : TickCompletes rpc rt options target s)
    (hattempts : 0 < options.maxRpcAttempts) (hidle : s.phase = .idle) :
    ¬ Stalls rpc options s.chain target (firstLedger target s.world.db) := by
  intro hstalls
  rcases h.exists_completed with ⟨scripts, -, hquiet, hcompleted⟩
  have hnothing : ∀ moment ∈ ([] : List Moment), moment.Quiet := fun _ h => by cases h
  have hbegun := underway_tick rpc rt options target hidle hnothing
  exact hbegun.1.not_idle rpc rt hattempts hstalls hquiet hcompleted.idle

theorem tickCompletes (hattempts : 0 < options.maxRpcAttempts) (hidle : s.phase = .idle)
    (hmoves : ¬ Stalls rpc options s.chain target (firstLedger target s.world.db))
    (hfree : Unobstructed rt target s) : TickCompletes rpc rt options target s := by
  refine ⟨s.chain.latestLedger + 2, fun tick scripts hlength htick hquiet => ?_⟩
  rcases underway_tick rpc rt options target hidle htick with ⟨hbegun, hdb⟩
  have hprogress : Progress rt target s (some (firstLedger target s.world.db))
      ((s.world.db.cursorLedger target.eventType).getD 0)
      (step rpc rt options [target] s (.tick tick)).world.db := by
    rw [hdb]
    exact progress_start rt target s
  refine hbegun.completed rpc hattempts hfree hprogress hmoves ?_ ?_ hquiet
  · rintro rfl
    exact absurd hlength (Nat.not_succ_le_zero _)
  · exact hlength.trans (Nat.le_add_left _ _)

/-- What a tick is completed with if it changes no table. -/
theorem completed_iff_upToDate (hidle : s'.phase = .idle) (hdb : s'.world.db = s.world.db) :
    Completed rt target s s' ↔ UpToDate rt target s := by
  have hbehind := largestLedger_le.mp
    (le_refl (largestLedger (s.newEvents target)
      ((s.world.db.cursorLedger target.eventType).getD 0)))
  constructor
  · intro h ev hev
    have hstored := h.stored ev hev
    have hcursor := h.cursor
    rw [hdb] at hstored hcursor
    exact ⟨hstored, (hbehind.2 ev hev).trans hcursor.ge⟩
  · intro h
    refine ⟨hidle, fun ev hev => ?_, ?_⟩
    · rw [hdb]
      exact (h ev hev).1
    · rw [hdb]
      exact le_antisymm hbehind.1
        (largestLedger_le.mpr ⟨le_rfl, fun ev hev => (h ev hev).2⟩)

/-- A page fails if the RPC is never asked, and the tick is over. -/
theorem final_no_attempts_idle (rpc : SorobanRpcClient) (rt : Runtime)
    (hzero : options.maxRpcAttempts = 0) (hidle : s.phase = .idle) (target : IndexerTarget)
    {scripts : List (List Moment)} (hne : scripts ≠ [])
    (hscript : ∀ moment ∈ script, moment.Quiet) :
    (Run.final (step rpc rt options [target]) s
        (.tick script :: scripts.map Input.page)).phase = .idle ∧
      (Run.final (step rpc rt options [target]) s
        (.tick script :: scripts.map Input.page)).world.db = s.world.db := by
  rcases underway_tick rpc rt options target hidle hscript with ⟨hbegun, hdb⟩
  rw [Run.final_cons]
  generalize step rpc rt options [target] s (.tick script) = begun at hbegun hdb
  cases scripts with
  | nil => exact absurd rfl hne
  | cons first scripts =>
      have hfails : step rpc rt options [target] begun (.page first) =
          { begun with phase := .idle } := by
        simp only [step, hbegun.phase, indexPage_no_attempts hzero]
      rw [List.map_cons, Run.final_cons, hfails, final_pages_idle rpc rt options _ rfl]
      exact ⟨rfl, hdb⟩

/-- Without an attempt no page is asked for. -/
theorem tickCompletes_no_attempts (hzero : options.maxRpcAttempts = 0) (hidle : s.phase = .idle) :
    TickCompletes rpc rt options target s ↔ UpToDate rt target s := by
  constructor
  · intro h
    rcases h.exists_completed with ⟨scripts, hne, -, hcompleted⟩
    have hnothing : ∀ moment ∈ ([] : List Moment), moment.Quiet := fun _ h => by cases h
    have hfinal := final_no_attempts_idle rpc rt hzero hidle target hne hnothing
    exact (completed_iff_upToDate hfinal.1 hfinal.2).mp hcompleted
  · intro h
    refine ⟨1, fun tick scripts hlength htick _ => ?_⟩
    have hne : scripts ≠ [] := List.ne_nil_of_length_pos hlength
    have hfinal := final_no_attempts_idle rpc rt hzero hidle target hne htick
    exact (completed_iff_upToDate hfinal.1 hfinal.2).mpr h

/-- A tick is completed exactly if no page that is asked for names its own ledger, and no other
event is in the place of one after the cursor. -/
theorem tick_completes_iff (rpc : SorobanRpcClient) (rt : Runtime) (options : IndexerOptions)
    (target : IndexerTarget) (s : State) (hidle : s.phase = .idle)
    (hunique : UniqueKeys s.world.db.contents) :
    TickCompletes rpc rt options target s ↔
      options.maxRpcAttempts = 0 ∧ UpToDate rt target s ∨
        0 < options.maxRpcAttempts ∧ Unobstructed rt target s ∧
          ¬ Stalls rpc options s.chain target (firstLedger target s.world.db) := by
  rcases Nat.eq_zero_or_pos options.maxRpcAttempts with hzero | hattempts
  · rw [tickCompletes_no_attempts hzero hidle]
    constructor
    · exact fun h => .inl ⟨hzero, h⟩
    · rintro (⟨-, h⟩ | ⟨hpos, -⟩)
      · exact h
      · omega
  · constructor
    · intro h
      rcases h.exists_completed with ⟨scripts, -, -, hcompleted⟩
      exact .inr ⟨hattempts, hcompleted.unobstructed hunique, h.not_stalls hattempts hidle⟩
    · rintro (⟨hzero, -⟩ | ⟨-, hfree, hmoves⟩)
      · omega
      · exact tickCompletes hattempts hidle hmoves hfree

/-! ## Busy ledgers -/

/-- The events of a target in a ledger. -/
def Chain.eventsIn (c : Chain) (target : IndexerTarget) (ledger : Nat) : List RpcEvent :=
  c.events.filter fun ev => target.Matches ev ∧ ev.ledger = ledger

theorem filter_eventsFrom (h : startLedger ≤ ledger) :
    (c.eventsFrom target startLedger).filter (fun ev => ev.ledger = ledger) =
      c.eventsIn target ledger := by
  rw [Chain.eventsFrom, Chain.eventsIn, List.filter_filter]
  refine List.filter_congr fun ev _ => ?_
  simp only [← Bool.decide_and, decide_eq_decide]
  constructor
  · rintro ⟨hledger, hmatches, -⟩
    exact ⟨hmatches, hledger⟩
  · rintro ⟨hmatches, hledger⟩
    exact ⟨hledger, hmatches, hledger ▸ h⟩

/-- A ledger has one event at most if no two events are of the same ledger. -/
theorem length_eventsIn_le (h : (c.events.map RpcEvent.ledger).Nodup) (ledger : Nat) :
    (c.eventsIn target ledger).length ≤ 1 := by
  calc (c.eventsIn target ledger).length
      ≤ c.events.countP (fun ev => ev.ledger = ledger) := by
        rw [Chain.eventsIn, ← List.countP_eq_length_filter]
        exact List.countP_mono_left fun ev _ h => by simpa using (of_decide_eq_true h).2
    _ = (c.events.map RpcEvent.ledger).count ledger := by
        rw [List.count, List.countP_map]
        rfl
    _ ≤ 1 := List.nodup_iff_count_le_one.mp h ledger

/-- A page does not go past a ledger with more events than it can hold. -/
theorem Faithful.names_le {limit : Nat} {page : GetEventsPage}
    (h : Faithful c target startLedger limit page) (hstart : startLedger ≤ ledger)
    (hbusy : limit < (c.eventsIn target ledger).length) :
    ∃ next, page.nextLedger = some next ∧ next ≤ ledger := by
  rcases h.split with ⟨rest, hperm, hsorted, hnext⟩
  have hcount := (hperm.filter fun ev => ev.ledger = ledger).length_eq
  rw [filter_eventsFrom hstart, List.filter_append, List.length_append] at hcount
  have hpage := List.length_filter_le (fun ev : RpcEvent => ev.ledger = ledger) page.events
  have hlimit := h.length
  -- an event of the ledger is left
  have hleft : 0 < (rest.filter fun ev => ev.ledger = ledger).length := by omega
  rcases List.length_pos_iff_exists_mem.mp hleft with ⟨ev, hev⟩
  rcases List.mem_filter.mp hev with ⟨hmem, hledger⟩
  cases rest with
  | nil => cases hmem
  | cons first rest =>
      refine ⟨first.ledger, hnext, ?_⟩
      rw [List.pairwise_append, List.pairwise_cons] at hsorted
      rw [← of_decide_eq_true hledger]
      rcases List.mem_cons.mp hmem with rfl | hmem
      · exact le_rfl
      · exact hsorted.2.1.1 ev hmem

/-- A page that names its own ledger holds events of that ledger only, and not all of them. -/
theorem Faithful.length_lt {limit : Nat} {page : GetEventsPage}
    (h : Faithful c target ledger limit page) (hself : page.nextLedger = some ledger) :
    page.events.length < (c.eventsIn target ledger).length := by
  rcases h.split with ⟨rest, hperm, hsorted, hnext⟩
  cases rest with
  | nil =>
      rw [hself] at hnext
      cases hnext
  | cons first rest =>
      rw [hself, List.head?_cons, Option.map_some, Option.some.injEq] at hnext
      have hpage : page.events.filter (fun ev => ev.ledger = ledger) = page.events := by
        refine List.filter_eq_self.mpr fun ev hev => decide_eq_true ?_
        rw [List.pairwise_append] at hsorted
        have hupper := hsorted.2.2 ev hev first List.mem_cons_self
        have hlower := (h.mem hev).2.2
        omega
      have hcount := (hperm.filter fun ev => ev.ledger = ledger).length_eq
      rw [filter_eventsFrom le_rfl, List.filter_append, hpage,
        List.filter_cons_of_pos (by simp [hnext]), List.length_append, List.length_cons] at hcount
      omega

/-- The RPC leaves no room on a page if there are events left. -/
def FullPages (rpc : SorobanRpcClient) (options : IndexerOptions) (c : Chain)
    (target : IndexerTarget) : Prop :=
  ∀ ledger, (pageAt rpc options c target ledger).events.length =
    min options.pageSize (c.eventsFrom target ledger).length

theorem fullPages_client (options : IndexerOptions) (c : Chain) (target : IndexerTarget) :
    FullPages Chain.client options c target :=
  fun _ => List.length_take

theorem start_le_of_reaches
    (h : ReflTransGen (Names rpc options c target) startLedger ledger) : startLedger ≤ ledger := by
  induction h with
  | refl => exact le_rfl
  | tail _ hnames ih => exact ih.trans hnames.bounds.1

/-- A tick gets stuck at the latest in a ledger with more events than a page can hold. -/
theorem stalls_of_busy {busy : Nat} (hstart : startLedger ≤ busy)
    (hbusy : options.pageSize < (c.eventsIn target busy).length) :
    Stalls rpc options c target startLedger := by
  induction hm : busy - startLedger using Nat.strongRecOn generalizing startLedger with
  | ind m ih =>
      have hfaithful := rpc.faithful c target.contractId target.eventType startLedger
        options.pageSize
      rcases hfaithful.names_le hstart hbusy with ⟨next, hnames, hle⟩
      have hnames : Names rpc options c target startLedger next := hnames
      have hbounds := hnames.bounds
      by_cases hself : next = startLedger
      · subst hself
        exact ⟨next, .refl, hnames⟩
      · rcases ih (busy - next) (by omega) hle rfl with ⟨ledger, hreach, hstalled⟩
        exact ⟨ledger, .head hnames hreach, hstalled⟩

/-- If pages are full, a tick gets stuck exactly if a ledger to come has more events than a page. -/
theorem stalls_iff (hfull : FullPages rpc options c target) :
    Stalls rpc options c target startLedger ↔
      ∃ ledger, startLedger ≤ ledger ∧
        options.pageSize < (c.eventsIn target ledger).length := by
  constructor
  · intro h
    rcases h with ⟨ledger, hreach, hself⟩
    refine ⟨ledger, start_le_of_reaches hreach, ?_⟩
    have hfaithful := rpc.faithful c target.contractId target.eventType ledger options.pageSize
    have hlt : (pageAt rpc options c target ledger).events.length <
        (c.eventsIn target ledger).length := hfaithful.length_lt hself
    have hlength := hfull ledger
    have hle : (c.eventsIn target ledger).length ≤ (c.eventsFrom target ledger).length := by
      rw [← filter_eventsFrom le_rfl]
      exact List.length_filter_le _ _
    omega
  · intro h
    rcases h with ⟨ledger, hstart, hbusy⟩
    exact stalls_of_busy hstart hbusy

/-! ## Two sales in two ledgers, and in one -/

/-- Two sales, each in a ledger of its own. -/
def twoLedgers : Chain :=
  (Chain.empty.close [sale "a"]).close [sale "b"]

/-- Two sales in one ledger. -/
def busyChain : Chain :=
  Chain.empty.close [sale "a", sale "b"]

theorem two_ledgers_completed :
    TickCompletes Chain.client plainRuntime singlePages saleTarget (State.initial twoLedgers) := by
  refine (tick_completes_iff Chain.client plainRuntime singlePages saleTarget
    (State.initial twoLedgers) rfl List.nodup_nil).mpr (.inr ⟨by decide, ?_, ?_⟩)
  · unfold Unobstructed Free
    decide
  · rw [stalls_iff (fullPages_client _ _ _)]
    rintro ⟨ledger, -, hbusy⟩
    exact absurd hbusy (not_lt.mpr (length_eventsIn_le (by decide) ledger))

/-- Pages of one event do not get past two sales in one ledger. -/
theorem busy_ledger :
    ¬ TickCompletes Chain.client plainRuntime singlePages saleTarget (State.initial busyChain) := by
  intro h
  have hstalls : Stalls Chain.client singlePages busyChain saleTarget 0 :=
    stalls_of_busy (Nat.zero_le 1) (by decide)
  exact h.not_stalls (by decide) rfl hstalls

end EventIndexer
end Kraal
