import Kraal.EventIndexer.Contents
import Kraal.EventIndexer.Statements

/-!
# Duplicates and other events

The unique index takes two events of a contract, a type and a transaction for one.  As long as no
other event is in the place of one that is served, every event of a page that is indexed is
stored, once however often it is served.

Main results:

- Theorem {lit}`step_contents`: what every step does to the contents.
- Theorem {lit}`stored_once`: over a whole run, an event of a page that was indexed has one row,
  which has its deliveries.
- Theorem {lit}`second_sale_dropped`: the second event of a transaction is never stored.
-/

namespace Kraal
namespace EventIndexer

open Foundation

variable {rt : Runtime} {rpc : SorobanRpcClient} {options : IndexerOptions}
  {targets : List IndexerTarget} {s : State} {i : Input}

/-! ## Steps -/

/-- Anything may go wrong in a run. -/
theorem disturbed_true : Disturbed fun _ => True :=
  ⟨⟨0, some .stops⟩, trivial, Option.some_ne_none _⟩

/-- Contents that others are extended to. -/
theorem kept_extends (rt : Runtime) (contents : List Content) :
    KeptByStatements rt fun db => ∃ xs : List Content, db.contents = xs.foldl absorb contents := by
  constructor
  · intro db ev indexedAt h
    rcases h with ⟨xs, hxs⟩
    refine ⟨xs ++ [ev.content rt], ?_⟩
    rw [(contents_insertEvent db rt ev indexedAt).1, hxs, List.foldl_append]
    rfl
  · exact fun _ _ _ _ h => h
  · exact fun _ _ _ h => h
  · exact fun _ _ h => h
  · exact fun _ _ _ h => h

/-- Every step adds some events. -/
theorem step_contents (rpc : SorobanRpcClient) (rt : Runtime) (options : IndexerOptions)
    (targets : List IndexerTarget) (s : State) (i : Input) :
    ∃ xs : List Content, (step rpc rt options targets s i).world.db.contents =
      xs.foldl absorb s.world.db.contents :=
  kept_step (kept_extends rt s.world.db.contents) ⟨[], rfl⟩ targets i

/-- An event is on a page that a step indexes to its end. -/
def Indexes (rpc : SorobanRpcClient) (rt : Runtime) (options : IndexerOptions) (s : State)
    (i : Input) (ev : RpcEvent) : Prop :=
  ∃ script p rest result script' w, i = .page script ∧ s.phase = .indexing p rest ∧
    indexPage rpc rt options s.chain p script s.world = (.returned result, script', w) ∧
    ev ∈ (servedPage rpc options s.chain p).events

/-- A step serves no page, or one with no event in the place of which there is another one. -/
def StepDistinct (rpc : SorobanRpcClient) (rt : Runtime) (options : IndexerOptions) (s : State) :
    Input → Prop
  | .page _ => ∀ p rest, s.phase = .indexing p rest →
      ∀ ev ∈ (servedPage rpc options s.chain p).events,
        Free s.world.db.contents (ev.content rt) ∧
        Free ((servedPage rpc options s.chain p).events.map (RpcEvent.content rt)) (ev.content rt)
  | _ => True

/-- The events of a page are there when it is indexed. -/
theorem mem_of_indexes {ev : RpcEvent} (hdistinct : StepDistinct rpc rt options s i)
    (h : Indexes rpc rt options s i ev) :
    ev.content rt ∈ (step rpc rt options targets s i).world.db.contents := by
  rcases h with ⟨script, p, rest, result, script', w, rfl, hphase, hrun, hev⟩
  have hensures : (indexPage rpc rt options s.chain p).Ensures s.world _ :=
    indexPage_contents (.inl disturbed_true) p s.world
  have hpage := (hensures script fun _ _ => trivial).2
  rw [hrun] at hpage
  have hcontents := (hpage.done result rfl).1.contents
  have hfree := hdistinct p rest hphase
  have hmem : ev.content rt ∈ w.db.contents := by
    rw [hcontents]
    refine mem_foldl (fun x hx => ?_) (fun x hx => ?_) _ (List.mem_map_of_mem hev)
    · rcases List.mem_map.mp hx with ⟨ev', hev', rfl⟩
      exact (hfree ev' hev').1
    · rcases List.mem_map.mp hx with ⟨ev', hev', rfl⟩
      exact (hfree ev' hev').2
  simp only [step, hphase, hrun]
  cases result with
  | none =>
      simp only [nextTarget_db]
      exact hmem
  | some p' => exact hmem

/-! ## Runs -/

theorem uniqueKeys_final {run : List Input} (h : UniqueKeys s.world.db.contents) :
    UniqueKeys (Run.final (step rpc rt options targets) s run).world.db.contents := by
  refine Run.final_invariant (I := fun s : State => UniqueKeys s.world.db.contents) h
    fun e _ h => ?_
  rcases step_contents rpc rt options targets e.1 e.2 with ⟨xs, hxs⟩
  rw [hxs]
  exact h.foldl xs

theorem mem_contents_final {run : List Input} {x : Content} (h : x ∈ s.world.db.contents) :
    x ∈ (Run.final (step rpc rt options targets) s run).world.db.contents := by
  refine Run.final_invariant (I := fun s : State => x ∈ s.world.db.contents) h fun e _ h => ?_
  rcases step_contents rpc rt options targets e.1 e.2 with ⟨xs, hxs⟩
  rw [hxs]
  exact mem_foldl_of_mem h xs

/-- The rows of an event that is there: there is one. -/
theorem exists_row {db : Db} {x : Content} (hunique : UniqueKeys db.contents)
    (hx : x ∈ db.contents) :
    ∃ row ∈ db.indexedEvents, db.indexedEvents.filter (fun row => row.content = x) = [row] := by
  rcases List.mem_map.mp hx with ⟨row, hrow, rfl⟩
  refine ⟨row, hrow, ?_⟩
  have hkeys : (db.indexedEvents.map fun row => row.content.key).Nodup := by
    rw [UniqueKeys, Db.contents, List.map_map] at hunique
    exact hunique
  rcases List.append_of_mem hrow with ⟨before, after, hrows⟩
  rw [hrows] at hkeys ⊢
  simp only [List.map_append, List.map_cons, List.nodup_append, List.nodup_cons, List.mem_map,
    List.mem_cons] at hkeys
  rcases hkeys with ⟨-, ⟨hafter, -⟩, hbefore⟩
  have hnone : before.filter (fun other => other.content = row.content) = [] :=
    List.filter_eq_nil_iff.mpr fun other hother heq => hbefore _ ⟨other, hother, rfl⟩ _
      (.inl rfl) (congrArg Content.key (of_decide_eq_true heq))
  have hnone' : after.filter (fun other => other.content = row.content) = [] :=
    List.filter_eq_nil_iff.mpr fun other hother heq => hafter ⟨other, hother,
      congrArg Content.key (of_decide_eq_true heq)⟩
  rw [List.filter_append, List.filter_cons_of_pos (by simp), hnone, hnone']
  rfl

/-- A row that is there at the end and was not at the beginning has been added by a step. -/
theorem exists_insertion {run : List Input} {row : IndexedEventRow}
    (hstart : row ∉ s.world.db.indexedEvents)
    (hrow : row ∈ (Run.final (step rpc rt options targets) s run).world.db.indexedEvents) :
    ∃ e ∈ Run.trace (step rpc rt options targets) s run, row ∉ e.1.world.db.indexedEvents ∧
      row ∈ (step rpc rt options targets e.1 e.2).world.db.indexedEvents := by
  by_contra hnone
  refine Run.final_invariant (I := fun s : State => row ∉ s.world.db.indexedEvents) hstart
    (fun e he h h' => hnone ⟨e, he, h, h'⟩) hrow

/-- Over a whole run, an event of a page that was indexed has one row, and the row has one delivery
for each webhook that was active for its type when it was added. -/
theorem stored_once (rpc : SorobanRpcClient) (rt : Runtime) (options : IndexerOptions)
    (targets : List IndexerTarget) (c : Chain) (run : List Input)
    (hsteps : ∀ e ∈ Run.trace (step rpc rt options targets) (State.initial c) run,
      StepDistinct rpc rt options e.1 e.2 ∧ StepFansOut rpc rt options e.1 e.2) :
    ∀ e ∈ Run.trace (step rpc rt options targets) (State.initial c) run,
      ∀ ev, Indexes rpc rt options e.1 e.2 ev →
        ∃ row, (Run.final (step rpc rt options targets) (State.initial c)
            run).world.db.indexedEvents.filter (fun row => row.content = ev.content rt) = [row] ∧
          ∃ e' ∈ Run.trace (step rpc rt options targets) (State.initial c) run,
            row ∉ e'.1.world.db.indexedEvents ∧
            row ∈ (step rpc rt options targets e'.1 e'.2).world.db.indexedEvents ∧
            deliveredTo (Run.final (step rpc rt options targets) (State.initial c) run).world.db
              row.id = (e'.1.world.db.subscribers row.topic).map WebhookRegistrationRow.id := by
  intro e he ev hindexes
  have hafter : ev.content rt ∈ (step rpc rt options targets e.1 e.2).world.db.contents :=
    mem_of_indexes (hsteps e he).1 hindexes
  have hfinal : ev.content rt ∈ (Run.final (step rpc rt options targets) (State.initial c)
      run).world.db.contents := by
    rcases Run.mem_trace_iff.mp he with ⟨pre, post, rfl, hstate⟩
    rw [Run.final_append, Run.final_cons, ← hstate]
    exact mem_contents_final hafter
  have hunique : UniqueKeys (Run.final (step rpc rt options targets) (State.initial c)
      run).world.db.contents :=
    uniqueKeys_final List.nodup_nil
  rcases exists_row hunique hfinal with ⟨row, hrow, hrows⟩
  rcases exists_insertion (fun h => by cases h) hrow with ⟨e', he', hbefore, hadded⟩
  exact ⟨row, hrows, e', he', hbefore, hadded,
    deliveredTo_final linked_empty (fun e he => (hsteps e he).2) he' hadded hbefore⟩

/-! ## Two events of a transaction -/

/-- Two sales, which are told apart by their payload. -/
def wholesale : Emission := ⟨"market", "sale", "a", .bool true⟩

/-- Another sale that a transaction emits. -/
def retail (transactionHash : String) : Emission :=
  ⟨"market", "sale", transactionHash, .bool false⟩

/-- Two sales of two transactions are stored and delivered. -/
theorem stored_once_each :
    ∃ row, (Run.final (step Chain.client plainRuntime {} [saleTarget])
        (State.initial (Chain.empty.close [wholesale, retail "b"]))
        [.insertWebhook saleHook, .tick [], .page []]).world.db.indexedEvents.filter
          (fun row => row.content = ((retail "b").event 1).content plainRuntime) = [row] ∧
      ∃ e' ∈ Run.trace (step Chain.client plainRuntime {} [saleTarget])
          (State.initial (Chain.empty.close [wholesale, retail "b"]))
          [.insertWebhook saleHook, .tick [], .page []],
        row ∉ e'.1.world.db.indexedEvents ∧
        row ∈ (step Chain.client plainRuntime {} [saleTarget] e'.1 e'.2).world.db.indexedEvents ∧
        deliveredTo (Run.final (step Chain.client plainRuntime {} [saleTarget])
          (State.initial (Chain.empty.close [wholesale, retail "b"]))
          [.insertWebhook saleHook, .tick [], .page []]).world.db row.id =
            (e'.1.world.db.subscribers row.topic).map WebhookRegistrationRow.id := by
  refine stored_once Chain.client plainRuntime {} [saleTarget] _ _ ?_ _
    (.tail _ (.tail _ (.head _))) ((retail "b").event 1)
    ⟨[], _, _, _, _, _, rfl, rfl, rfl, .tail _ (.head _)⟩
  intro e he
  simp only [Run.trace_cons, Run.trace_nil, List.mem_cons, List.not_mem_nil, or_false] at he
  rcases he with rfl | rfl | rfl
  · exact ⟨trivial, trivial⟩
  · exact ⟨trivial, trivial⟩
  · constructor
    · intro p rest hphase ev hev
      rcases Phase.indexing.inj hphase with ⟨rfl, rfl⟩
      have hdistinct : ∀ x ∈ [wholesale.event 1, (retail "b").event 1].map
          (RpcEvent.content plainRuntime), ∀ y ∈ [wholesale.event 1, (retail "b").event 1].map
          (RpcEvent.content plainRuntime), y.key = x.key → y = x := by
        decide
      exact ⟨fun y hy => absurd hy List.not_mem_nil, hdistinct _ (List.mem_map_of_mem hev)⟩
    · intro p rest hphase page script' w' hfetched
      rcases Phase.indexing.inj hphase with ⟨rfl, rfl⟩
      cases hfetched
      exact fansOut_nil _ _ _

/-- The second sale of a transaction is dropped. -/
theorem second_sale_dropped :
    ¬ ∀ e ∈ Run.trace (step Chain.client plainRuntime {} [saleTarget])
        (State.initial (Chain.empty.close [wholesale, retail "a"])) [.tick [], .page []],
      ∀ ev, Indexes Chain.client plainRuntime {} e.1 e.2 ev →
        ∃ row, (Run.final (step Chain.client plainRuntime {} [saleTarget])
          (State.initial (Chain.empty.close [wholesale, retail "a"]))
          [.tick [], .page []]).world.db.indexedEvents.filter
            (fun row => row.content = ev.content plainRuntime) = [row] := by
  intro h
  rcases h _ (.tail _ (.head _)) ((retail "a").event 1)
    ⟨[], _, _, _, _, _, rfl, rfl, rfl, .tail _ (.head _)⟩ with ⟨row, hrow⟩
  have hnone : (Run.final (step Chain.client plainRuntime {} [saleTarget])
      (State.initial (Chain.empty.close [wholesale, retail "a"]))
      [.tick [], .page []]).world.db.indexedEvents.filter
        (fun row => row.content = ((retail "a").event 1).content plainRuntime) = [] := by
    rfl
  exact List.cons_ne_nil row [] (hrow.symm.trans hnone)

end EventIndexer
end Kraal
