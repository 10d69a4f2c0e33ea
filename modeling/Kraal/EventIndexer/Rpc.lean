import Kraal.Backend.Json

/-!
# The events of closed ledgers and their pages

Ledgers close one after the other, each with its events.  The RPC serves the events of one
contract and type from a given ledger on, a page at a time, and says in which ledger the first
event is that does not fit on the page.  The indexer never sees more of the chain than that.

Main results:

- Definition {lit}`Faithful`: what a page holds.
- Theorem {lit}`Faithful.cases`: an event that is asked for is on the page, or lies in the next
  ledger or after it.
- Definition {lit}`Chain.client`: an RPC that serves the events in the order of the chain.
-/

namespace Kraal
namespace EventIndexer

open Backend (Json)

/-! ## The chain -/

/-- An event as the RPC reports it. -/
structure RpcEvent where
  contractId : String
  topic : String
  transactionHash : String
  ledger : Nat
  payload : Json

/-- The contract and the type of the events to index. -/
structure IndexerTarget where
  contractId : String
  eventType : String
deriving DecidableEq, Repr

/-- An event of a target. -/
def IndexerTarget.Matches (target : IndexerTarget) (ev : RpcEvent) : Prop :=
  ev.contractId = target.contractId ∧ ev.topic = target.eventType

instance (target : IndexerTarget) : DecidablePred target.Matches :=
  fun ev => inferInstanceAs (Decidable (ev.contractId = _ ∧ ev.topic = _))

/-- The events of the ledgers that have closed, in order. -/
structure Chain where
  latestLedger : Nat
  events : List RpcEvent
  sorted : events.Pairwise fun ev ev' => ev.ledger ≤ ev'.ledger
  closed : ∀ ev ∈ events, ev.ledger ≤ latestLedger

/-- The chain before its first ledger. -/
def Chain.empty : Chain where
  latestLedger := 0
  events := []
  sorted := List.Pairwise.nil
  closed := fun _ hev => absurd hev List.not_mem_nil

/-- An event of a ledger that is about to close. -/
structure Emission where
  contractId : String
  topic : String
  transactionHash : String
  payload : Json

/-- An emission in the ledger that closes with it. -/
def Emission.event (e : Emission) (ledger : Nat) : RpcEvent :=
  ⟨e.contractId, e.topic, e.transactionHash, ledger, e.payload⟩

/-- An emission is in the ledger that closes with it. -/
theorem ledger_of_mem_emitted {emitted : List Emission} {ledger : Nat} {ev : RpcEvent}
    (h : ev ∈ emitted.map fun e => e.event ledger) : ev.ledger = ledger := by
  rcases List.mem_map.mp h with ⟨e, -, rfl⟩
  rfl

/-- The next ledger closes with its events. -/
def Chain.close (c : Chain) (emitted : List Emission) : Chain where
  latestLedger := c.latestLedger + 1
  events := c.events ++ emitted.map fun e => e.event (c.latestLedger + 1)
  sorted := by
    rw [List.pairwise_append]
    refine ⟨c.sorted, ?_, fun ev hev ev' hev' => ?_⟩
    · exact List.pairwise_of_forall_mem_list fun ev hev ev' hev' => by
        rw [ledger_of_mem_emitted hev, ledger_of_mem_emitted hev']
    · have hclosed := c.closed ev hev
      rw [ledger_of_mem_emitted hev']
      omega
  closed := by
    intro ev hev
    rcases List.mem_append.mp hev with hev | hev
    · have hclosed := c.closed ev hev
      omega
    · rw [ledger_of_mem_emitted hev]

/-- An event is on the chain, or it is one of the next ledger. -/
theorem Chain.mem_close {c : Chain} {emitted : List Emission} {ev : RpcEvent}
    (h : ev ∈ (c.close emitted).events) : ev ∈ c.events ∨ ev.ledger = c.latestLedger + 1 := by
  rcases List.mem_append.mp h with hev | hev
  · exact .inl hev
  · exact .inr (ledger_of_mem_emitted hev)

/-- The events of a target from a ledger on. -/
def Chain.eventsFrom (c : Chain) (target : IndexerTarget) (startLedger : Nat) : List RpcEvent :=
  c.events.filter fun ev => target.Matches ev ∧ startLedger ≤ ev.ledger

/-- Which events are asked for. -/
theorem Chain.mem_eventsFrom {c : Chain} {target : IndexerTarget} {startLedger : Nat}
    {ev : RpcEvent} :
    ev ∈ c.eventsFrom target startLedger ↔
      ev ∈ c.events ∧ target.Matches ev ∧ startLedger ≤ ev.ledger := by
  simp [Chain.eventsFrom]

/-! ## Pages -/

/-- A page of events, and the ledger at which the next one starts. -/
structure GetEventsPage where
  events : List RpcEvent
  nextLedger : Option Nat

/-- A page holds the first events that are asked for in the order of their ledgers, not more than
a limit, and names the ledger of the first event that it does not hold. -/
structure Faithful (c : Chain) (target : IndexerTarget) (startLedger limit : Nat)
    (page : GetEventsPage) : Prop where
  split : ∃ rest, (page.events ++ rest).Perm (c.eventsFrom target startLedger) ∧
    (page.events ++ rest).Pairwise (fun ev ev' => ev.ledger ≤ ev'.ledger) ∧
    page.nextLedger = rest.head?.map RpcEvent.ledger
  length : page.events.length ≤ limit

section

variable {c : Chain} {target : IndexerTarget} {startLedger limit : Nat} {page : GetEventsPage}

/-- An event of a page is one of those. -/
theorem Faithful.mem (h : Faithful c target startLedger limit page) {ev : RpcEvent}
    (hev : ev ∈ page.events) : ev ∈ c.events ∧ target.Matches ev ∧ startLedger ≤ ev.ledger := by
  rcases h.split with ⟨rest, hperm, -, -⟩
  exact Chain.mem_eventsFrom.mp (hperm.mem_iff.mp (List.mem_append_left _ hev))

/-- An event that is asked for is on the page, or lies in the next ledger or after it. -/
theorem Faithful.cases (h : Faithful c target startLedger limit page) {ev : RpcEvent}
    (hev : ev ∈ c.events) (hmatches : target.Matches ev) (hstart : startLedger ≤ ev.ledger) :
    ev ∈ page.events ∨ ∃ n, page.nextLedger = some n ∧ n ≤ ev.ledger := by
  rcases h.split with ⟨rest, hperm, hsorted, hnext⟩
  have hmem := hperm.mem_iff.mpr (Chain.mem_eventsFrom.mpr ⟨hev, hmatches, hstart⟩)
  rcases List.mem_append.mp hmem with hmem | hmem
  · exact .inl hmem
  · refine .inr ?_
    cases rest with
    | nil => cases hmem
    | cons first rest =>
        refine ⟨first.ledger, hnext, ?_⟩
        rcases List.mem_cons.mp hmem with rfl | hmem
        · exact le_rfl
        · rw [List.pairwise_append, List.pairwise_cons] at hsorted
          exact hsorted.2.1.1 ev hmem

/-- The next ledger is one from which an event was asked for. -/
theorem Faithful.next (h : Faithful c target startLedger limit page) {n : Nat}
    (hn : page.nextLedger = some n) : ∃ ev ∈ c.events, startLedger ≤ ev.ledger ∧ ev.ledger = n := by
  rcases h.split with ⟨rest, hperm, -, hnext⟩
  cases rest with
  | nil =>
      rw [hnext] at hn
      cases hn
  | cons first rest =>
      rw [hnext, List.head?_cons, Option.map_some, Option.some.injEq] at hn
      have hmem := hperm.mem_iff.mp (List.mem_append_right _ List.mem_cons_self)
      have hfirst := Chain.mem_eventsFrom.mp hmem
      exact ⟨first, hfirst.1, hfirst.2.2, hn⟩

end

/-- An RPC endpoint that serves every chain faithfully. -/
structure SorobanRpcClient where
  getEvents : Chain → String → String → Nat → Nat → GetEventsPage
  faithful : ∀ c contractId eventType startLedger limit,
    Faithful c ⟨contractId, eventType⟩ startLedger limit
      (getEvents c contractId eventType startLedger limit)

/-- A page in the order of the chain. -/
def Chain.getEvents (c : Chain) (contractId eventType : String) (startLedger limit : Nat) :
    GetEventsPage :=
  ⟨(c.eventsFrom ⟨contractId, eventType⟩ startLedger).take limit,
    ((c.eventsFrom ⟨contractId, eventType⟩ startLedger).drop limit).head?.map RpcEvent.ledger⟩

/-- An RPC that serves the events in the order of the chain. -/
def Chain.client : SorobanRpcClient where
  getEvents := Chain.getEvents
  faithful := by
    intro c contractId eventType startLedger limit
    refine ⟨⟨(c.eventsFrom ⟨contractId, eventType⟩ startLedger).drop limit, ?_, ?_, rfl⟩, ?_⟩
    · rw [Chain.getEvents, List.take_append_drop]
    · rw [Chain.getEvents, List.take_append_drop]
      exact c.sorted.filter _
    · exact List.length_take_le _ _

end EventIndexer
end Kraal
