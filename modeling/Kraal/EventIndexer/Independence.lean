import Kraal.EventIndexer.Dedup

/-!
# Targets that do not see each other

A target reads the cursor of its event type and stores events of its type.  If no other target has
the same type, a process with many targets does for it what a process with this target alone does:
the run of that process keeps the pages of the target and everything that happens around them, and
begins a tick when the process turns to the target.

Main results:

- Theorem {lit}`indexPage_undisturbed`: a page when nothing goes wrong.
- Definition {lit}`alone`: the run of a process with one of the targets.
- Theorem {lit}`Alike.step`: a step of the process and what is left of it for one target.
- Theorem {lit}`targets_independent`: what is stored for a target is what is stored for it alone.
- Theorem {lit}`shared_cursor`: two targets of one type.
-/

namespace Kraal
namespace EventIndexer

open Foundation

variable {rt : Runtime} {rpc : SorobanRpcClient} {options : IndexerOptions}
  {targets queue : List IndexerTarget} {target : IndexerTarget} {s s' : State} {i : Input}
  {script : List Moment} {w : World} {p : Paging} {c : Chain}

/-! ## Jobs that are not disturbed -/

/-- Nothing goes wrong. -/
abbrev Moment.Quiet (moment : Moment) : Prop :=
  moment.interruption = none

theorem not_disturbed : ¬ Disturbed Moment.Quiet := by
  rintro ⟨moment, hquiet, hinterruption⟩
  exact hinterruption hquiet

/-- A job returns if nothing goes wrong. -/
theorem Reliable.returned {β : Type} {exit : Exit (Option String) β}
    (h : Reliable Moment.Quiet exit) : ∃ b, exit = .returned b := by
  by_contra hnone
  exact not_disturbed (h fun b hb => hnone ⟨b, hb⟩)

/-- A page when nothing goes wrong. -/
theorem indexPage_undisturbed (hattempts : 0 < options.maxRpcAttempts)
    (hscript : ∀ moment ∈ script, moment.Quiet) (c : Chain) (p : Paging) (w : World) :
    ∃ script' w', indexPage rpc rt options c p script w =
        (.returned ((servedPage rpc options c p).nextLedger.map fun next =>
          { p with
            highWaterLedger := highest (servedPage rpc options c p).events p.highWaterLedger
            next := next }), script', w') ∧
      (∀ moment ∈ script', moment.Quiet) ∧
      PageDone rt p (servedPage rpc options c p) w.db w'.db := by
  have hensures : Program.Ensures Moment.Quiet (indexPage rpc rt options c p) w _ :=
    indexPage_contents (.inr hattempts) p w
  have hpage := hensures script hscript
  rcases hrun : indexPage rpc rt options c p script w with ⟨exit, script', w'⟩
  rw [hrun] at hpage
  rcases hpage.2.reliable.returned with ⟨result, hexit⟩
  change exit = .returned result at hexit
  subst hexit
  rcases hpage.2.done result rfl with ⟨hdone, rfl⟩
  exact ⟨script', w', rfl, hpage.1, hdone⟩

/-- Where the pages of a target begin. -/
def Paging.start (target : IndexerTarget) (cursor : Option Nat) : Paging :=
  ⟨target, cursor, (cursor.map (· + 1)).getD 0, cursor.getD 0⟩

theorem beginTarget_undisturbed (hscript : ∀ moment ∈ script, moment.Quiet)
    (target : IndexerTarget) (w : World) :
    ∃ script' w', beginTarget target script w =
        (.returned (.start target (w.db.cursorLedger target.eventType)), script', w') ∧
      (∀ moment ∈ script', moment.Quiet) ∧ w'.db = w.db := by
  have hbegin := (beginTarget_ensures target w script fun _ _ => trivial).2
  have hreliable : Program.Ensures Moment.Quiet (beginTarget target) w
      fun exit _ => Reliable Moment.Quiet exit := by
    refine Program.Ensures.bind (operation_under (Q := fun exit _ => Reliable Moment.Quiet exit)
      (fun _ => reliable_returned _) fun hdisturbed _ _ _ => hdisturbed.reliable _) ?_ ?_ ?_
    · exact fun _ _ _ => Program.ensures_pure (reliable_returned _)
    · exact fun _ _ h => h.thrown
    · exact fun _ h => h.stopped
  have hrest := hreliable script hscript
  rcases hrun : beginTarget target script w with ⟨exit, script', w'⟩
  rw [hrun] at hbegin hrest
  rcases hrest.2.returned with ⟨q, hexit⟩
  change exit = .returned q at hexit
  subst hexit
  have hstart : q = .start target (w.db.cursorLedger target.eventType) := by
    rw [hbegin.2 q rfl, Paging.start, Db.cursorLedger, Option.map_map]
    rfl
  exact ⟨script', w', by rw [hstart], hrest.1, hbegin.1⟩

/-! ## The run of one target -/

/-- The target that is being indexed. -/
def State.current (s : State) : Option IndexerTarget :=
  match s.phase with
  | .idle => none
  | .indexing p _ => some p.target

/-- What a process with one target keeps of a step: not the ticks, nor the pages of others. -/
def keep (target : IndexerTarget) (current : Option IndexerTarget) : Input → List Input
  | .tick _ => []
  | .page script => if current = some target then [.page script] else []
  | .restart => [.restart]
  | .close emitted => [.close emitted]
  | .insertWebhook row => [.insertWebhook row]
  | .updateWebhook id active => [.updateWebhook id active]

/-- The tick of a process with one target, when the process turns to it. -/
def begins (target : IndexerTarget) (before after : Option IndexerTarget) : List Input :=
  if after = some target ∧ before ≠ some target then [.tick []] else []

/-- What is left of a run for a process with one of the targets. -/
def alone (rpc : SorobanRpcClient) (rt : Runtime) (options : IndexerOptions)
    (targets : List IndexerTarget) (target : IndexerTarget) : State → List Input → List Input
  | _, [] => []
  | s, i :: run =>
      keep target s.current i ++
        begins target s.current (step rpc rt options targets s i).current ++
        alone rpc rt options targets target (step rpc rt options targets s i) run

/-- What is stored for a target. -/
def storedFor (target : IndexerTarget) (db : Db) : List Content :=
  db.contents.filter fun x => x.contractId = target.contractId ∧ x.topic = target.eventType

/-! ## The simulation -/

/-- The tables look the same to a target. -/
structure SameView (target : IndexerTarget) (db db' : Db) : Prop where
  cursor : db'.cursorLedger target.eventType = db.cursorLedger target.eventType
  contents : db'.contents.filter (fun x => x.topic = target.eventType) =
    db.contents.filter fun x => x.topic = target.eventType

/-- The processes are at the same page of the target, or the second one waits for its turn. -/
def SamePhase (target : IndexerTarget) (s s' : State) : Prop :=
  (∃ p rest, s.phase = .indexing p rest ∧ p.target = target ∧ s'.phase = .indexing p []) ∨
    s.current ≠ some target ∧ s'.phase = .idle

/-- A process and one with one of its targets alone. -/
structure Alike (target : IndexerTarget) (s s' : State) : Prop
    extends SameView target s.world.db s'.world.db where
  chain : s'.chain = s.chain
  phase : SamePhase target s s'

/-- A target that is being indexed and those to come are in the order of the targets. -/
def Queued (targets : List IndexerTarget) (s : State) : Prop :=
  ∀ p rest, s.phase = .indexing p rest → (p.target :: rest) <:+ targets

theorem SameView.trans {db db' db'' : Db} (h : SameView target db db')
    (h' : SameView target db' db'') : SameView target db db'' :=
  ⟨h'.cursor.trans h.cursor, h'.contents.trans h.contents⟩

theorem SameView.symm {db db' : Db} (h : SameView target db db') : SameView target db' db :=
  ⟨h.cursor.symm, h.contents.symm⟩

theorem SameView.of_eq {db db' : Db} (h : db' = db) : SameView target db db' := by
  subst h
  exact ⟨rfl, rfl⟩

/-- The events of a page are of the type of its target. -/
theorem topic_of_servedPage (rt : Runtime) {x : Content}
    (hx : x ∈ (servedPage rpc options c p).events.map (RpcEvent.content rt)) :
    x.topic = p.target.eventType := by
  rcases List.mem_map.mp hx with ⟨ev, hev, rfl⟩
  exact ((rpc.faithful _ _ _ _ _).mem hev).2.1.2

/-- A page of a target of another type. -/
theorem PageDone.sameView {db db' : Db} (h : PageDone rt p (servedPage rpc options c p) db db')
    (hne : p.target.eventType ≠ target.eventType) : SameView target db db' := by
  refine ⟨h.others _ hne.symm, ?_⟩
  rw [h.contents, filter_foldl_of_ne fun x hx => by rw [topic_of_servedPage rt hx]; exact hne]

/-- The same page of the target. -/
theorem PageDone.same {db₁ db₁' db₂ db₂' : Db}
    (h₁ : PageDone rt p (servedPage rpc options c p) db₁ db₁')
    (h₂ : PageDone rt p (servedPage rpc options c p) db₂ db₂')
    (hsame : SameView p.target db₁ db₂) : SameView p.target db₁' db₂' := by
  refine ⟨?_, ?_⟩
  · rw [h₁.cursor, h₂.cursor, hsame.cursor]
  · rw [h₁.contents, h₂.contents, filter_foldl_of_eq fun x hx => topic_of_servedPage rt hx,
      filter_foldl_of_eq fun x hx => topic_of_servedPage rt hx, hsame.contents]

/-- What the process is doing when it turns to the next target. -/
def turnTo (db : Db) : List IndexerTarget → Phase
  | [] => .idle
  | next :: queue => .indexing (.start next (db.cursorLedger next.eventType)) queue

theorem nextTarget_undisturbed (hscript : ∀ moment ∈ script, moment.Quiet)
    (queue : List IndexerTarget) (s : State) :
    (nextTarget queue script s).chain = s.chain ∧
      (nextTarget queue script s).world.db = s.world.db ∧
      (nextTarget queue script s).phase = turnTo s.world.db queue := by
  cases queue with
  | nil => exact ⟨rfl, rfl, rfl⟩
  | cons next queue =>
      rcases beginTarget_undisturbed hscript next s.world with ⟨script', w', hrun, -, hdb⟩
      simp only [nextTarget, hrun]
      exact ⟨trivial, hdb, rfl⟩

/-- The process turns to the next target, and the process of one target to it if it is its turn. -/
theorem SameView.nextTarget (rpc : SorobanRpcClient) (rt : Runtime) (options : IndexerOptions)
    (h : SameView target s.world.db s'.world.db)
    (hchain : s'.chain = s.chain) (hidle : s'.phase = .idle)
    (hscript : ∀ moment ∈ script, moment.Quiet) (queue : List IndexerTarget)
    {before : Option IndexerTarget} (hbefore : before ≠ some target) :
    Alike target (nextTarget queue script s)
      (Run.final (step rpc rt options [target]) s'
        (begins target before (nextTarget queue script s).current)) := by
  rcases nextTarget_undisturbed hscript queue s with ⟨hchain', hdb, hphase⟩
  cases queue with
  | nil =>
      have hcurrent : (EventIndexer.nextTarget [] script s).current = none := rfl
      rw [hcurrent, begins, if_neg (by simp)]
      exact ⟨h, hchain, .inr ⟨by simp [hcurrent], hidle⟩⟩
  | cons next queue =>
      have hcurrent : (EventIndexer.nextTarget (next :: queue) script s).current = some next := by
        rw [State.current, hphase]
        rfl
      rw [hcurrent]
      by_cases hnext : next = target
      · subst hnext
        have hquiet : ∀ moment ∈ ([] : List Moment), moment.Quiet :=
          fun _ hmoment => absurd hmoment List.not_mem_nil
        rcases nextTarget_undisturbed hquiet [next] s' with ⟨hchain'', hdb', hphase'⟩
        have hstep : step rpc rt options [next] s' (.tick []) =
            EventIndexer.nextTarget [next] [] s' := by
          simp only [step, hidle]
        rw [begins, if_pos ⟨rfl, hbefore⟩, Run.final_cons, Run.final_nil, hstep]
        refine ⟨?_, ?_, .inl ⟨_, _, hphase, rfl, ?_⟩⟩
        · rw [hdb, hdb']
          exact h
        · rw [hchain'', hchain', hchain]
        · rw [hphase', turnTo, h.cursor]
      · rw [begins, if_neg fun h => hnext (Option.some.inj h.1)]
        refine ⟨?_, ?_, .inr ⟨?_, hidle⟩⟩
        · rw [Run.final_nil, hdb]
          exact h
        · rw [Run.final_nil, hchain', hchain]
        · rw [hcurrent]
          exact fun h => hnext (Option.some.inj h)

/-! ## Steps -/

/-- No other target has the event type of a target. -/
def Sole (targets : List IndexerTarget) (target : IndexerTarget) : Prop :=
  targets.filter (fun other => other.eventType = target.eventType) = [target]

theorem Sole.eq (h : Sole targets target) {other : IndexerTarget} (hmem : other ∈ targets)
    (htype : other.eventType = target.eventType) : other = target := by
  have hother : other ∈ targets.filter fun other => other.eventType = target.eventType :=
    List.mem_filter.mpr ⟨hmem, decide_eq_true htype⟩
  rw [h] at hother
  exact List.mem_singleton.mp hother

theorem Sole.notMem (h : Sole targets target) (hsuffix : (target :: queue) <:+ targets) :
    target ∉ queue := by
  intro hmem
  have hsub := hsuffix.sublist.filter fun other => other.eventType = target.eventType
  rw [h, List.filter_cons_of_pos (by simp)] at hsub
  have hnone := List.length_eq_zero_iff.mp (Nat.le_zero.mp (Nat.le_of_succ_le_succ
    hsub.length_le))
  have hother : target ∈ queue.filter fun other => other.eventType = target.eventType :=
    List.mem_filter.mpr ⟨hmem, decide_eq_true rfl⟩
  rw [hnone] at hother
  cases hother

/-- Nothing goes wrong in a step. -/
def Input.Quiet : Input → Prop
  | .tick script => ∀ moment ∈ script, moment.Quiet
  | .page script => ∀ moment ∈ script, moment.Quiet
  | _ => True

theorem current_nextTarget (hscript : ∀ moment ∈ script, moment.Quiet)
    (queue : List IndexerTarget) (s : State) :
    (nextTarget queue script s).current = queue.head? := by
  rw [State.current, (nextTarget_undisturbed hscript queue s).2.2]
  cases queue with
  | nil => rfl
  | cons next queue => rfl

theorem State.current_indexing {rest : List IndexerTarget} (h : s.phase = .indexing p rest) :
    s.current = some p.target := by
  rw [State.current, h]

theorem State.current_idle (h : s.phase = .idle) : s.current = none := by
  rw [State.current, h]

/-- A page of a process when nothing goes wrong: the next page follows, or the next target. -/
theorem step_page (rpc : SorobanRpcClient) (rt : Runtime) (hattempts : 0 < options.maxRpcAttempts)
    (hscript : ∀ moment ∈ script, moment.Quiet) {rest : List IndexerTarget}
    (hphase : s.phase = .indexing p rest) (targets : List IndexerTarget) :
    ∃ script' w', (∀ moment ∈ script', moment.Quiet) ∧
      PageDone rt p (servedPage rpc options s.chain p) s.world.db w'.db ∧
      step rpc rt options targets s (.page script) =
        ((servedPage rpc options s.chain p).nextLedger.map fun next =>
          { p with
            highWaterLedger := highest (servedPage rpc options s.chain p).events p.highWaterLedger
            next := next }).elim (nextTarget rest script' { s with world := w' })
          fun p' => { s with world := w', phase := .indexing p' rest } := by
  rcases indexPage_undisturbed hattempts hscript s.chain p s.world with
    ⟨script', w', hrun, hscript', hdone⟩
  refine ⟨script', w', hscript', hdone, ?_⟩
  simp only [step, hphase, hrun]
  cases (servedPage rpc options s.chain p).nextLedger with
  | none => rfl
  | some next => rfl

theorem Queued.nextTarget (hscript : ∀ moment ∈ script, moment.Quiet) (hqueue : queue <:+ targets)
    (s : State) : Queued targets (nextTarget queue script s) := by
  intro q rest hphase
  rw [(nextTarget_undisturbed hscript queue s).2.2] at hphase
  cases queue with
  | nil => cases hphase
  | cons next queue =>
      rcases Phase.indexing.inj hphase with ⟨rfl, rfl⟩
      exact hqueue

/-- A page, the next one or the next target. -/
theorem Queued.page (hattempts : 0 < options.maxRpcAttempts)
    (hscript : ∀ moment ∈ script, moment.Quiet) (h : Queued targets s)
    {rest : List IndexerTarget} (hphase : s.phase = .indexing p rest) :
    Queued targets (step rpc rt options targets s (.page script)) := by
  rcases step_page rpc rt hattempts hscript hphase targets with
    ⟨script', w', hscript', -, hstep⟩
  have hqueue := h p rest hphase
  rw [hstep]
  cases (servedPage rpc options s.chain p).nextLedger with
  | none => exact .nextTarget hscript' ((List.suffix_cons _ _).trans hqueue) _
  | some next =>
      intro q rest' hphase'
      rcases Phase.indexing.inj hphase' with ⟨rfl, rfl⟩
      exact hqueue

/-- A page of the target is one of the process with the target alone. -/
theorem Alike.page_self (h : Alike target s s') (hattempts : 0 < options.maxRpcAttempts)
    (hscript : ∀ moment ∈ script, moment.Quiet) {rest : List IndexerTarget}
    (hphase : s.phase = .indexing p rest) (hp : p.target = target) (hrest : target ∉ rest)
    (hphase' : s'.phase = .indexing p []) :
    Alike target (EventIndexer.step rpc rt options targets s (.page script))
      (EventIndexer.step rpc rt options [target] s' (.page script)) := by
  subst hp
  rcases step_page rpc rt hattempts hscript hphase targets with
    ⟨script₁, w₁, hscript₁, hdone₁, hstep₁⟩
  rcases step_page rpc rt hattempts hscript hphase' [p.target] with
    ⟨script₂, w₂, hscript₂, hdone₂, hstep₂⟩
  rw [h.chain] at hdone₂ hstep₂
  have hview : SameView p.target w₁.db w₂.db := hdone₁.same hdone₂ h.toSameView
  rw [hstep₁, hstep₂]
  cases (servedPage rpc options s.chain p).nextLedger with
  | some next => exact ⟨hview, rfl, .inl ⟨_, _, rfl, rfl, rfl⟩⟩
  | none =>
      have hsame : SameView p.target { s with world := w₁ }.world.db
          (EventIndexer.nextTarget [] script₂ { s with world := w₂ }).world.db := hview
      have hturn := hsame.nextTarget rpc rt options rfl rfl hscript₁ rest
        (Option.some_ne_none _).symm
      have hcurrent : ¬ ((EventIndexer.nextTarget rest script₁ { s with world := w₁ }).current =
          some p.target ∧ none ≠ some p.target) := by
        rw [current_nextTarget hscript₁]
        exact fun h => hrest (List.mem_of_mem_head? h.1)
      rw [begins, if_neg hcurrent] at hturn
      exact hturn

/-- A page of another target is none of the process with the target alone, which begins a tick if it
is its turn. -/
theorem Alike.page_other (h : Alike target s s') (hattempts : 0 < options.maxRpcAttempts)
    (hscript : ∀ moment ∈ script, moment.Quiet) {rest : List IndexerTarget}
    (hphase : s.phase = .indexing p rest) (hne : p.target.eventType ≠ target.eventType)
    (hidle : s'.phase = .idle) :
    Alike target (EventIndexer.step rpc rt options targets s (.page script))
      (Run.final (EventIndexer.step rpc rt options [target]) s' (begins target s.current
        (EventIndexer.step rpc rt options targets s (.page script)).current)) := by
  rcases step_page rpc rt hattempts hscript hphase targets with
    ⟨script', w', hscript', hdone, hstep⟩
  have hview : SameView target w'.db s'.world.db :=
    (hdone.sameView hne).symm.trans h.toSameView
  have hcurrent : s.current ≠ some target := by
    rw [State.current_indexing hphase]
    exact fun h => hne (congrArg IndexerTarget.eventType (Option.some.inj h))
  rw [hstep]
  cases (servedPage rpc options s.chain p).nextLedger with
  | some next =>
      have hother : ¬ (some p.target = some target ∧ s.current ≠ some target) :=
        fun h => hne (congrArg IndexerTarget.eventType (Option.some.inj h.1))
      change Alike target _ (Run.final _ s' (begins target s.current (some p.target)))
      rw [begins, if_neg hother]
      exact ⟨hview, h.chain, .inr ⟨fun h => hother ⟨h, hcurrent⟩, hidle⟩⟩
  | none =>
      have hsame : SameView target { s with world := w' }.world.db s'.world.db := hview
      exact hsame.nextTarget rpc rt options h.chain hidle hscript' rest hcurrent

theorem begins_self (target : IndexerTarget) (current : Option IndexerTarget) :
    begins target current current = [] :=
  if_neg fun h => h.2 h.1

/-- What happens around the pages, and leaves the tables of the indexer alone. -/
theorem Alike.around (h : Alike target s s') {s₁ s₁' : State}
    (hdb : SameView target s.world.db s₁.world.db) (hdb' : SameView target s'.world.db s₁'.world.db)
    (hchain : s₁'.chain = s₁.chain) (hphase : s₁.phase = s.phase) (hphase' : s₁'.phase = s'.phase) :
    Alike target s₁ s₁' := by
  refine ⟨(hdb.symm.trans h.toSameView).trans hdb', hchain, ?_⟩
  have hcurrent : s₁.current = s.current := by
    rw [State.current, hphase]
    rfl
  unfold SamePhase
  rw [hphase, hphase', hcurrent]
  exact h.phase

/-- A step of the process, and what is left of it for one target. -/
theorem Alike.step (rpc : SorobanRpcClient) (rt : Runtime) (h : Alike target s s')
    (hattempts : 0 < options.maxRpcAttempts)
    (hsole : Sole targets target) (hqueued : Queued targets s) (hquiet : i.Quiet) :
    Alike target (step rpc rt options targets s i)
        (Run.final (step rpc rt options [target]) s' (keep target s.current i ++
          begins target s.current (step rpc rt options targets s i).current)) ∧
      Queued targets (step rpc rt options targets s i) := by
  cases i with
  | tick script =>
      cases hphase : s.phase with
      | idle =>
          have hcurrent := State.current_idle hphase
          have hidle : s'.phase = .idle := by
            rcases h.phase with ⟨p, rest, hindexing, -⟩ | ⟨-, hidle⟩
            · rw [hphase] at hindexing
              cases hindexing
            · exact hidle
          have hstep : EventIndexer.step rpc rt options targets s (.tick script) =
              nextTarget targets script s := by
            simp only [EventIndexer.step, hphase]
          rw [hstep, hcurrent]
          exact ⟨h.toSameView.nextTarget rpc rt options h.chain hidle hquiet targets
            (Option.some_ne_none _).symm, .nextTarget hquiet (List.suffix_refl _) s⟩
      | indexing p rest =>
          have hstep : EventIndexer.step rpc rt options targets s (.tick script) = s := by
            simp only [EventIndexer.step, hphase]
          rw [hstep, begins_self]
          exact ⟨h, hqueued⟩
  | page script =>
      cases hphase : s.phase with
      | idle =>
          have hcurrent := State.current_idle hphase
          have hstep : EventIndexer.step rpc rt options targets s (.page script) = s := by
            simp only [EventIndexer.step, hphase]
          rw [hstep, begins_self, hcurrent]
          exact ⟨h, hqueued⟩
      | indexing p rest =>
          have hcurrent := State.current_indexing hphase
          have hsuffix := hqueued p rest hphase
          refine ⟨?_, hqueued.page hattempts hquiet hphase⟩
          rcases h.phase with ⟨q, rest', hindexing, hq, hphase'⟩ | ⟨hother, hidle⟩
          · rw [hphase] at hindexing
            rcases Phase.indexing.inj hindexing with ⟨rfl, rfl⟩
            subst hq
            rw [hcurrent, keep, if_pos rfl, begins, if_neg fun h => h.2 rfl]
            exact h.page_self hattempts hquiet hphase rfl (hsole.notMem hsuffix) hphase'
          · have hne : p.target.eventType ≠ target.eventType := by
              intro heq
              have hsame := hsole.eq (hsuffix.subset List.mem_cons_self) heq
              exact hother (hcurrent.trans (congrArg some hsame))
            rw [keep, if_neg hother]
            exact h.page_other hattempts hquiet hphase hne hidle
  | restart =>
      refine ⟨⟨h.toSameView, h.chain, .inr ⟨by simp [State.current, EventIndexer.step], rfl⟩⟩, ?_⟩
      exact fun _ _ hphase => by cases hphase
  | close emitted =>
      have hcurrent : (EventIndexer.step rpc rt options targets s (.close emitted)).current =
          s.current := rfl
      rw [hcurrent, begins_self]
      refine ⟨h.around (.of_eq rfl) (.of_eq rfl) ?_ rfl rfl, hqueued⟩
      exact congrArg (fun chain : Chain => chain.close emitted) h.chain
  | insertWebhook row =>
      have hcurrent : (EventIndexer.step rpc rt options targets s (.insertWebhook row)).current =
          s.current := rfl
      rw [hcurrent, begins_self]
      exact ⟨h.around ⟨rfl, rfl⟩ ⟨rfl, rfl⟩ h.chain rfl rfl, hqueued⟩
  | updateWebhook id active =>
      have hcurrent : (EventIndexer.step rpc rt options targets s
          (.updateWebhook id active)).current = s.current := rfl
      rw [hcurrent, begins_self]
      exact ⟨h.around ⟨rfl, rfl⟩ ⟨rfl, rfl⟩ h.chain rfl rfl, hqueued⟩

/-! ## Runs -/

/-- A run of the process, and what is left of it for one target. -/
theorem Alike.run (rpc : SorobanRpcClient) (rt : Runtime) (h : Alike target s s')
    (hattempts : 0 < options.maxRpcAttempts)
    (hsole : Sole targets target) (hqueued : Queued targets s) {run : List Input}
    (hquiet : ∀ i ∈ run, i.Quiet) :
    Alike target (Run.final (EventIndexer.step rpc rt options targets) s run)
      (Run.final (EventIndexer.step rpc rt options [target]) s'
        (alone rpc rt options targets target s run)) := by
  induction run generalizing s s' with
  | nil => exact h
  | cons i run ih =>
      have hstep := h.step rpc rt hattempts hsole hqueued (hquiet i List.mem_cons_self)
      rw [alone, Run.final_append]
      exact ih hstep.1 hstep.2 fun i hi => hquiet i (List.mem_cons_of_mem _ hi)

/-- A page fails if the RPC is never asked. -/
theorem indexPage_no_attempts (hzero : options.maxRpcAttempts = 0) (c : Chain) (p : Paging)
    (script : List Moment) (w : World) :
    indexPage rpc rt options c p script w = (.thrown none, script, w) := by
  rw [indexPage, fetchPage, hzero]
  rfl

/-- Nothing is stored if the RPC is never asked. -/
theorem step_no_attempts (hzero : options.maxRpcAttempts = 0) :
    (step rpc rt options targets s i).world.db.indexedEvents = s.world.db.indexedEvents := by
  cases i with
  | tick script =>
      cases hphase : s.phase with
      | idle => simp only [step, hphase, nextTarget_db]
      | indexing p rest => simp only [step, hphase]
  | page script =>
      cases hphase : s.phase with
      | idle => simp only [step, hphase]
      | indexing p rest => simp only [step, hphase, indexPage_no_attempts hzero]
  | restart => rfl
  | close emitted => rfl
  | insertWebhook row => rfl
  | updateWebhook id active => rfl

theorem final_no_attempts (rpc : SorobanRpcClient) (rt : Runtime)
    (hzero : options.maxRpcAttempts = 0) (targets : List IndexerTarget) (c : Chain)
    (run : List Input) :
    (Run.final (step rpc rt options targets) (State.initial c) run).world.db.indexedEvents = [] :=
  Run.final_invariant (I := fun s : State => s.world.db.indexedEvents = []) rfl
    fun _ _ h => (step_no_attempts hzero).trans h

/-- What is stored for a target is what is stored for it alone, if no other target has its event
type: in every run in which no operation fails. -/
theorem targets_independent (rpc : SorobanRpcClient) (rt : Runtime) (options : IndexerOptions)
    (targets : List IndexerTarget) (target : IndexerTarget) (hsole : Sole targets target)
    (c : Chain) (run : List Input) (hquiet : ∀ i ∈ run, i.Quiet) :
    storedFor target (Run.final (step rpc rt options targets) (State.initial c) run).world.db =
      storedFor target (Run.final (step rpc rt options [target]) (State.initial c)
        (alone rpc rt options targets target (State.initial c) run)).world.db := by
  rcases Nat.eq_zero_or_pos options.maxRpcAttempts with hzero | hattempts
  · rw [storedFor, storedFor, Db.contents, Db.contents, final_no_attempts rpc rt hzero,
      final_no_attempts rpc rt hzero]
  · have hstart : Alike target (State.initial c) (State.initial c) :=
      ⟨.of_eq rfl, rfl, .inr ⟨by simp [State.current, State.initial], rfl⟩⟩
    have halike := hstart.run rpc rt hattempts hsole (fun _ _ hphase => by cases hphase) hquiet
    have hfilter : ∀ db : Db, storedFor target db =
        (db.contents.filter fun x => x.topic = target.eventType).filter
          fun x => x.contractId = target.contractId := by
      intro db
      rw [List.filter_filter, storedFor]
      exact List.filter_congr fun x _ => by simp
    rw [hfilter, hfilter, halike.contents]

/-! ## Two markets -/

/-- The sales of another contract. -/
def otherTarget : IndexerTarget := ⟨"other", "sale"⟩

/-- The events of another type. -/
def mintTarget : IndexerTarget := ⟨"credits", "mint"⟩

/-- A ledger with an event of the second target, and one with an event of the first one. -/
def marketChain (second : IndexerTarget) : Chain :=
  (Chain.empty.close [⟨second.contractId, second.eventType, "a", .null⟩]).close [sale "b"]

/-- A tick with two targets, and one with the second of them alone. -/
theorem targets_independent_mint :
    storedFor mintTarget (Run.final (step Chain.client plainRuntime {} [saleTarget, mintTarget])
        (State.initial (marketChain mintTarget)) [.tick [], .page [], .page []]).world.db =
      storedFor mintTarget (Run.final (step Chain.client plainRuntime {} [mintTarget])
        (State.initial (marketChain mintTarget)) [.tick [], .page []]).world.db :=
  targets_independent Chain.client plainRuntime {} [saleTarget, mintTarget] mintTarget
    (by unfold Sole; decide) (marketChain mintTarget) [.tick [], .page [], .page []]
    (by simp [Input.Quiet])

/-- Two contracts that emit the same event type: after a tick with both, the event of the second one
is not stored, which it is after a tick with the second one alone. -/
theorem shared_cursor :
    storedFor otherTarget (Run.final (step Chain.client plainRuntime {} [saleTarget, otherTarget])
        (State.initial (marketChain otherTarget)) [.tick [], .page [], .page []]).world.db ≠
      storedFor otherTarget (Run.final (step Chain.client plainRuntime {} [otherTarget])
        (State.initial (marketChain otherTarget)) [.tick [], .page []]).world.db := by
  decide

end EventIndexer
end Kraal
