import Kraal.OracleBridge.FeedAdapter

/-!
# Replaying the dead-letter queue

The operator's command fetches the price of every selected row again, with a new adapter for each
of them.  What the adapter says about the replay is not read: the command reports every row of a
known feed as replayed, and a failed fetch puts one more row into the queue.

Main results:

- Definition {lit}`cmdReplayDlq`: the command.
- Theorem {lit}`replayAll_spec`: what the loop does to the queue, and what it reports.
- Theorem {lit}`honest_iff`: exactly which runs report the truth and shrink the queue.
- Theorem {lit}`failed_replay_is_reported`: an outage that goes on is reported as a replay.

Current gaps:

- Of the characters only the Latin letters have a lower case.
-/

namespace Kraal
namespace OracleBridge

/-! ## One entry -/

/-- What the replay of one row meets. -/
structure ReplayInput extends FetchInput where
  /-- When the row is marked. -/
  markedAt : String

/-- Fetch the price for a row of the queue, and mark the row if that succeeds. -/
def FeedAdapter.replayDlqEntry (adapter : FeedAdapter) (entryId : Nat) (input : ReplayInput) :
    Bool × FeedAdapter :=
  match adapter.dlq with
  | none => (false, adapter)
  | some queue =>
      if queue.listUnreplayed.any fun entry => entry.id = entryId then
        match adapter.fetch input.toFetchInput with
        | (.ok _, adapter) =>
            (true, { adapter with
              dlq := adapter.dlq.map fun queue => queue.markReplayed entryId input.markedAt })
        | (.error _, adapter) => (false, adapter)
      else (false, adapter)

/-! ## The command -/

/-- The adapters that the command can build. -/
inductive FeedType where
  | xpansivCBL
  | toucanProtocol
deriving DecidableEq, Repr

/-- A text occurs in another. -/
def occursIn (needle text : String) : Bool :=
  decide (needle.toList <:+: text.toList)

/-- The adapter for a feed, by its name. -/
def feedType (feedId : String) : Option FeedType :=
  if occursIn "xpansiv" feedId.toLower || occursIn "cbl" feedId.toLower then some .xpansivCBL
  else if occursIn "toucan" feedId.toLower || ["BCT", "NCT"].contains feedId then
    some .toucanProtocol
  else none

/-- The arguments of the command. -/
structure ReplayArgs where
  db : String
  id : Option Int
  dryRun : Bool
  /-- The path of a file is not empty. -/
  db_ne : db ≠ ""

/-- A line that the command prints. -/
inductive Line where
  | databaseNotFound (db : String)
  | entryNotFound (id : Int)
  | noneFound
  | found (number : Nat)
  | listed (entry : DLQEntry)
  | replaying (entry : DLQEntry)
  | unknownFeed (feedId : String)
  | replayed (id : Nat)
  | summary (successes total : Nat)

/-- The text of a line. -/
def Line.text : Line → String
  | .databaseNotFound db => "DLQ database not found: " ++ db
  | .entryNotFound id => "Unreplayed DLQ entry with id=" ++ toString id ++ " not found"
  | .noneFound => "No unreplayed DLQ entries found."
  | .found number => "Found " ++ toString number ++ " unreplayed DLQ entr" ++
      (if number = 1 then "y" else "ies") ++ ":"
  | .listed entry => "  [" ++ toString entry.id ++ "] feed=" ++ entry.feedId ++ " attempts=" ++
      toString entry.attemptCount ++ " error=" ++
      String.ofList (entry.errorMessage.toList.take 80)
  | .replaying entry => "Replaying DLQ entry " ++ toString entry.id ++ " (feed=" ++
      entry.feedId ++ ")..."
  | .unknownFeed feedId => "  Unknown feed type for " ++ feedId ++ ", skipping"
  | .replayed id => "  Entry " ++ toString id ++ " replayed successfully"
  | .summary successes total => "Replayed " ++ toString successes ++ "/" ++ toString total ++
      " DLQ entries successfully."

/-- The command while it runs: the database, what is printed, and the successes it counts. -/
structure ReplayState where
  queue : DeadLetterQueue
  lines : List Line
  successCount : Nat

/-- The adapter that the command builds for a row. -/
def replayAdapter (args : ReplayArgs) (queue : DeadLetterQueue) (entry : DLQEntry) : FeedAdapter :=
  FeedAdapter.new { feedId := entry.feedId, dlqDbPath := some args.db } fun _ => queue

/-- Replay one row.  The answer of the adapter is dropped. -/
def replayOne (args : ReplayArgs) (inputs : Nat → ReplayInput) (s : ReplayState)
    (entry : DLQEntry) : ReplayState :=
  let lines := s.lines ++ [.replaying entry]
  match feedType entry.feedId with
  | none => { s with lines := lines ++ [.unknownFeed entry.feedId] }
  | some _ =>
      let (_, adapter) :=
        (replayAdapter args s.queue entry).replayDlqEntry entry.id (inputs entry.id)
      { queue := adapter.dlq.getD s.queue
        lines := lines ++ [.replayed entry.id]
        successCount := s.successCount + 1 }

/-- Replay some entries, one after the other. -/
def replayAll (args : ReplayArgs) (inputs : Nat → ReplayInput) (s : ReplayState)
    (entries : List DLQEntry) : ReplayState :=
  entries.foldl (replayOne args inputs) s

/-- The rows that the command works on. -/
def selectedEntries (args : ReplayArgs) (queue : DeadLetterQueue) : List DLQEntry :=
  match args.id with
  | none => queue.listUnreplayed
  | some id => queue.listUnreplayed.filter fun entry => entry.id = id

/-- What a run of the command comes to. -/
structure ReplayOutcome where
  exitCode : Nat
  lines : List Line
  queue : Option DeadLetterQueue

/-- The command, over the database if there is one. -/
def cmdReplayDlq (args : ReplayArgs) (database : Option DeadLetterQueue)
    (inputs : Nat → ReplayInput) : ReplayOutcome :=
  match database with
  | none => ⟨1, [.databaseNotFound args.db], none⟩
  | some queue =>
      let entries := selectedEntries args queue
      if entries = [] then
        match args.id with
        | some id => ⟨1, [.entryNotFound id], some queue⟩
        | none => ⟨0, [.noneFound], some queue⟩
      else if args.dryRun then
        ⟨0, .found entries.length :: entries.map .listed, some queue⟩
      else
        let s := replayAll args inputs ⟨queue, [], 0⟩ entries
        ⟨if s.successCount = entries.length then 0 else 1,
          s.lines ++ [.summary s.successCount entries.length], some s.queue⟩

/-! ## Honest runs -/

/-- A row is selected: it is the one that is named, or no row is named and it has not been
replayed. -/
def Selects (args : ReplayArgs) (queue : DeadLetterQueue) (id : Int) : Prop :=
  match args.id with
  | some named => id = named
  | none => ∃ row ∈ queue.rows, (row.id : Int) = id ∧ row.replayed = false

/-- A row is marked during a run. -/
def MarkedDuring (queue queue' : DeadLetterQueue) (id : Int) : Prop :=
  ∃ n : Nat, (n : Int) = id ∧ queue.status n = some false ∧ queue'.status n = some true

/-- A run does not lengthen the queue, reports as replayed only what is marked so, and exits with
zero exactly if all that was selected has been marked. -/
structure HonestReplay (args : ReplayArgs) (queue : DeadLetterQueue)
    (outcome : ReplayOutcome) : Prop where
  shrinking : ∀ queue', outcome.queue = some queue' →
    queue'.countUnreplayed ≤ queue.countUnreplayed
  reported : ∀ queue' id, outcome.queue = some queue' → Line.replayed id ∈ outcome.lines →
    queue'.status id = some true
  exitCode : ∀ queue', outcome.queue = some queue' →
    (outcome.exitCode = 0 ↔ ∀ id, Selects args queue id → MarkedDuring queue queue' id)

/-- The command has an adapter for a row. -/
def Known (entry : DLQEntry) : Prop :=
  (feedType entry.feedId).isSome = true

instance : DecidablePred Known := fun entry =>
  inferInstanceAs (Decidable ((feedType entry.feedId).isSome = true))

/-- One of the four attempts for a row succeeds. -/
def Fetches (inputs : Nat → ReplayInput) (entry : DLQEntry) : Prop :=
  ¬ Exhausted (inputs entry.id).attempts 3

instance (inputs : Nat → ReplayInput) : DecidablePred (Fetches inputs) := fun entry =>
  inferInstanceAs (Decidable (¬ Exhausted (inputs entry.id).attempts 3))

/-- All of the four attempts for a row fail, and the queue takes the row of the failure. -/
def Requeues (inputs : Nat → ReplayInput) (entry : DLQEntry) : Prop :=
  ¬ Fetches inputs entry ∧ (inputs entry.id).insertError = none

instance (inputs : Nat → ReplayInput) : DecidablePred (Requeues inputs) := fun entry =>
  inferInstanceAs (Decidable (¬ Fetches inputs entry ∧ (inputs entry.id).insertError = none))

/-! ## The replay of one row -/

theorem any_listUnreplayed {queue : DeadLetterQueue} {id : Nat} :
    (queue.listUnreplayed.any fun entry => entry.id = id) = true ↔
      queue.status id = some false := by
  rw [List.any_eq_true]
  constructor
  · intro h
    rcases h with ⟨row, hrow, hid⟩
    obtain ⟨hmem, hreplayed⟩ := DeadLetterQueue.mem_listUnreplayed.mp hrow
    rw [← of_decide_eq_true hid, DeadLetterQueue.status_of_mem hmem, hreplayed]
  · intro h
    obtain ⟨row, hfind, hreplayed⟩ := Option.map_eq_some_iff.mp h
    refine ⟨row, DeadLetterQueue.mem_listUnreplayed.mpr ⟨List.mem_of_find?_eq_some hfind,
      hreplayed⟩, ?_⟩
    exact decide_eq_true (DeadLetterQueue.id_of_find hfind)

section ReplayOne

variable {args : ReplayArgs} {inputs : Nat → ReplayInput} {s : ReplayState} {entry : DLQEntry}

/-- The default pauses fit. -/
theorem backoffFits_default {α : Type} (fn : Nat → Except Failure α)
    (pauses : Nat → PauseInput) : BackoffFits fn {} pauses :=
  BackoffFits.of_bounded 60 (by decide) (by decide) (by decide) (by decide +kernel)
    (by decide +kernel) (by decide +kernel) (by decide)

theorem replayAdapter_dlq (args : ReplayArgs) (queue : DeadLetterQueue) (entry : DLQEntry) :
    (replayAdapter args queue entry).dlq = some queue := by
  simp [replayAdapter, FeedAdapter.new, FeedAdapterConfig.database, args.db_ne]

/-- A row whose price is fetched is marked. -/
theorem replayDlqEntry_of_fetches {queue : DeadLetterQueue}
    (hstatus : queue.status entry.id = some false) (hfetches : Fetches inputs entry) :
    ((replayAdapter args queue entry).replayDlqEntry entry.id (inputs entry.id)).2.dlq =
      some (queue.markReplayed entry.id (inputs entry.id).markedAt) := by
  obtain ⟨result, hfirst⟩ :=
    (exhausted_or_firstSuccess (inputs entry.id).attempts 3).resolve_left hfetches
  have hfetch : (replayAdapter args queue entry).fetch (inputs entry.id).toFetchInput = _ :=
    fetch_of_firstSuccess (backoffFits_default _ _) hfirst
  rw [FeedAdapter.replayDlqEntry, replayAdapter_dlq]
  dsimp only
  rw [if_pos (any_listUnreplayed.mpr hstatus), hfetch]
  dsimp only
  rw [replayAdapter_dlq]
  rfl

/-- A new adapter serves no old price: a failed fetch is queued, if the queue takes its row. -/
theorem replayDlqEntry_of_not_fetches (args : ReplayArgs) {queue : DeadLetterQueue}
    (hstatus : queue.status entry.id = some false) (hfails : ¬ Fetches inputs entry) :
    ∃ exc : Failure,
      ((replayAdapter args queue entry).replayDlqEntry entry.id (inputs entry.id)).2.dlq =
        some (queue.enqueue entry.feedId (failurePayload entry.feedId exc) exc.message 4
          (inputs entry.id).queuedAt (inputs entry.id).insertError).2 := by
  have hfetch : ∃ exc, _ ∧
      (replayAdapter args queue entry).fetch (inputs entry.id).toFetchInput = _ :=
    fetch_of_exhausted (backoffFits_default _ _) (not_not.mp hfails)
  obtain ⟨exc, -, hfetch⟩ := hfetch
  obtain ⟨⟨raised, hraised⟩, hqueued⟩ :=
    @fetchFailed_of_some _ (inputs entry.id).toFetchInput exc _ rfl
      (replayAdapter_dlq args queue entry)
  refine ⟨exc, ?_⟩
  rw [FeedAdapter.replayDlqEntry, replayAdapter_dlq]
  dsimp only
  rw [if_pos (any_listUnreplayed.mpr hstatus), hfetch]
  split
  · next heq => rw [heq] at hraised; cases hraised
  · next heq => rw [heq] at hqueued; exact hqueued

theorem replayOne_of_not_known (h : ¬ Known entry) :
    replayOne args inputs s entry =
      { s with lines := s.lines ++ [.replaying entry] ++ [.unknownFeed entry.feedId] } := by
  unfold replayOne
  rw [Option.not_isSome_iff_eq_none.mp h]

/-- A row of a known feed is reported as replayed, whatever the adapter answers. -/
theorem replayOne_of_known (h : Known entry) :
    replayOne args inputs s entry =
      { queue := ((replayAdapter args s.queue entry).replayDlqEntry entry.id
          (inputs entry.id)).2.dlq.getD s.queue
        lines := s.lines ++ [.replaying entry] ++ [.replayed entry.id]
        successCount := s.successCount + 1 } := by
  unfold replayOne
  obtain ⟨feed, hfeed⟩ := Option.isSome_iff_exists.mp h
  rw [hfeed]

/-- What the replay of one row does to the queue. -/
theorem replayOne_queue_cases (args : ReplayArgs) (inputs : Nat → ReplayInput)
    (hstatus : s.queue.status entry.id = some false) :
    (¬ Known entry ∧ (replayOne args inputs s entry).queue = s.queue) ∨
    (Known entry ∧ Fetches inputs entry ∧ (replayOne args inputs s entry).queue =
      s.queue.markReplayed entry.id (inputs entry.id).markedAt) ∨
    (Known entry ∧ ¬ Fetches inputs entry ∧ ∃ exc : Failure,
      (replayOne args inputs s entry).queue =
        (s.queue.enqueue entry.feedId (failurePayload entry.feedId exc) exc.message 4
          (inputs entry.id).queuedAt (inputs entry.id).insertError).2) := by
  by_cases hknown : Known entry
  · rw [replayOne_of_known hknown]
    by_cases hfetches : Fetches inputs entry
    · right; left
      refine ⟨hknown, hfetches, ?_⟩
      rw [replayDlqEntry_of_fetches hstatus hfetches]
      rfl
    · right; right
      obtain ⟨exc, hdlq⟩ := replayDlqEntry_of_not_fetches args hstatus hfetches
      refine ⟨hknown, hfetches, exc, ?_⟩
      rw [hdlq]
      rfl
  · left
    rw [replayOne_of_not_known hknown]
    exact ⟨hknown, rfl⟩

/-- A row is marked exactly if it is of a known feed and its price is fetched. -/
theorem replayOne_status_self (hstatus : s.queue.status entry.id = some false) :
    (replayOne args inputs s entry).queue.status entry.id =
      some (decide (Known entry ∧ Fetches inputs entry)) := by
  rcases replayOne_queue_cases args inputs hstatus with
    ⟨hknown, hqueue⟩ | ⟨hknown, hfetches, hqueue⟩ | ⟨hknown, hfetches, exc, hqueue⟩
  · rw [hqueue, hstatus]
    simp [hknown]
  · rw [hqueue, DeadLetterQueue.status_markReplayed, if_pos rfl, hstatus]
    simp [hknown, hfetches]
  · rw [hqueue, DeadLetterQueue.status_enqueue hstatus]
    simp [hfetches]

/-- The replay of one row does not mark another. -/
theorem replayOne_status_of_ne (hstatus : s.queue.status entry.id = some false) {id : Nat}
    {replayed : Bool} (hne : id ≠ entry.id) (h : s.queue.status id = some replayed) :
    (replayOne args inputs s entry).queue.status id = some replayed := by
  rcases replayOne_queue_cases args inputs hstatus with
    ⟨-, hqueue⟩ | ⟨-, -, hqueue⟩ | ⟨-, -, exc, hqueue⟩
  · rw [hqueue, h]
  · rw [hqueue, DeadLetterQueue.status_markReplayed, if_neg hne, h]
  · rw [hqueue, DeadLetterQueue.status_enqueue h]

/-- A row that is marked shortens the queue, and a failure that is queued lengthens it. -/
theorem replayOne_countUnreplayed (args : ReplayArgs) (inputs : Nat → ReplayInput)
    (hstatus : s.queue.status entry.id = some false) :
    (replayOne args inputs s entry).queue.countUnreplayed +
        (if Known entry ∧ Fetches inputs entry then 1 else 0) =
      s.queue.countUnreplayed + (if Known entry ∧ Requeues inputs entry then 1 else 0) := by
  rcases replayOne_queue_cases args inputs hstatus with
    ⟨hknown, hqueue⟩ | ⟨hknown, hfetches, hqueue⟩ | ⟨hknown, hfetches, exc, hqueue⟩
  · rw [hqueue]
    simp [hknown]
  · rw [hqueue]
    have hcount := DeadLetterQueue.countUnreplayed_markReplayed hstatus
      (inputs entry.id).markedAt
    simp [hknown, hfetches, hcount, Requeues]
  · rw [hqueue, DeadLetterQueue.countUnreplayed_enqueue]
    simp [hknown, hfetches, Requeues]

/-- What is reported after one row, and what is counted. -/
theorem replayOne_report (args : ReplayArgs) (inputs : Nat → ReplayInput) (s : ReplayState)
    (entry : DLQEntry) :
    (∀ id, Line.replayed id ∈ (replayOne args inputs s entry).lines ↔
      Line.replayed id ∈ s.lines ∨ Known entry ∧ entry.id = id) ∧
    (replayOne args inputs s entry).successCount =
      s.successCount + (if Known entry then 1 else 0) := by
  by_cases hknown : Known entry
  · rw [replayOne_of_known hknown]
    simp [hknown, eq_comm]
  · rw [replayOne_of_not_known hknown]
    simp [hknown]

end ReplayOne

/-! ## The loop -/

/-- What a loop over some rows comes to: which of them are marked, how the queue changes, and what
is reported. -/
structure ReplaySpec (inputs : Nat → ReplayInput) (entries : List DLQEntry)
    (s t : ReplayState) : Prop where
  marked : ∀ entry ∈ entries,
    t.queue.status entry.id = some (decide (Known entry ∧ Fetches inputs entry))
  kept : ∀ id replayed, (∀ entry ∈ entries, id ≠ entry.id) →
    s.queue.status id = some replayed → t.queue.status id = some replayed
  countUnreplayed : t.queue.countUnreplayed +
      entries.countP (fun entry => Known entry ∧ Fetches inputs entry) =
    s.queue.countUnreplayed + entries.countP fun entry => Known entry ∧ Requeues inputs entry
  reported : ∀ id, Line.replayed id ∈ t.lines ↔
    Line.replayed id ∈ s.lines ∨ ∃ entry ∈ entries, Known entry ∧ entry.id = id
  successCount : t.successCount = s.successCount + entries.countP fun entry => Known entry

theorem replayAll_spec (args : ReplayArgs) (inputs : Nat → ReplayInput) (s : ReplayState)
    (entries : List DLQEntry) (hnodup : (entries.map fun entry => entry.id).Nodup)
    (hstatus : ∀ entry ∈ entries, s.queue.status entry.id = some false) :
    ReplaySpec inputs entries s (replayAll args inputs s entries) := by
  induction entries generalizing s with
  | nil =>
      constructor
      · intro entry h
        cases h
      · intro id replayed _ h
        exact h
      · rfl
      · intro id
        simp [replayAll]
      · rfl
  | cons entry entries ih =>
      rw [List.map_cons, List.nodup_cons] at hnodup
      have hfirst := hstatus entry List.mem_cons_self
      have hne : ∀ other ∈ entries, other.id ≠ entry.id := by
        intro other hother heq
        exact hnodup.1 (heq ▸ List.mem_map_of_mem hother)
      have hrest := ih (replayOne args inputs s entry) hnodup.2 fun other hother =>
        replayOne_status_of_ne hfirst (hne other hother)
          (hstatus other (List.mem_cons_of_mem _ hother))
      obtain ⟨hlines, hsuccess⟩ := replayOne_report args inputs s entry
      have hcount := replayOne_countUnreplayed args inputs hfirst
      change ReplaySpec inputs (entry :: entries) s
        (replayAll args inputs (replayOne args inputs s entry) entries)
      constructor
      · intro other hother
        rcases List.mem_cons.mp hother with rfl | hother
        · -- the rows after it have other ids
          exact hrest.kept other.id _ (fun later hlater => (hne later hlater).symm)
            (replayOne_status_self hfirst)
        · exact hrest.marked other hother
      · intro id replayed hids h
        rw [List.forall_mem_cons] at hids
        exact hrest.kept id replayed hids.2 (replayOne_status_of_ne hfirst hids.1 h)
      · have hrestCount := hrest.countUnreplayed
        simp only [List.countP_cons, decide_eq_true_eq]
        omega
      · intro id
        rw [hrest.reported, hlines, List.exists_mem_cons_iff, or_assoc]
      · rw [hrest.successCount, hsuccess, List.countP_cons]
        simp only [decide_eq_true_eq]
        omega

/-! ## The command -/

section Command

variable {args : ReplayArgs} {queue : DeadLetterQueue} {inputs : Nat → ReplayInput}

theorem mem_selectedEntries {entry : DLQEntry} :
    entry ∈ selectedEntries args queue ↔
      entry ∈ queue.rows ∧ entry.replayed = false ∧
        ∀ id, args.id = some id → (entry.id : Int) = id := by
  unfold selectedEntries
  cases hid : args.id with
  | none => simp [DeadLetterQueue.mem_listUnreplayed]
  | some id => simp [DeadLetterQueue.mem_listUnreplayed, and_assoc]

theorem selectedEntries_ids_nodup (args : ReplayArgs) (queue : DeadLetterQueue) :
    ((selectedEntries args queue).map fun entry => entry.id).Nodup := by
  unfold selectedEntries
  cases args.id with
  | none => exact queue.listUnreplayed_ids_nodup
  | some id => exact queue.listUnreplayed_ids_nodup.sublist (List.filter_sublist.map _)

theorem status_of_selected {entry : DLQEntry} (h : entry ∈ selectedEntries args queue) :
    queue.status entry.id = some false := by
  obtain ⟨hmem, hreplayed, -⟩ := mem_selectedEntries.mp h
  rw [DeadLetterQueue.status_of_mem hmem, hreplayed]

/-- The command works on what is selected. -/
theorem selects_of_mem {entry : DLQEntry} (h : entry ∈ selectedEntries args queue) :
    Selects args queue entry.id := by
  obtain ⟨hmem, hreplayed, hnamed⟩ := mem_selectedEntries.mp h
  unfold Selects
  cases hid : args.id with
  | none => exact ⟨entry, hmem, rfl, hreplayed⟩
  | some named => exact hnamed named hid

/-- What is selected is worked on, unless a row is named and there is no such row. -/
theorem mem_of_selects {id : Int} (h : Selects args queue id)
    (hfound : args.id = none ∨ selectedEntries args queue ≠ []) :
    ∃ entry ∈ selectedEntries args queue, (entry.id : Int) = id := by
  unfold Selects at h
  cases hid : args.id with
  | none =>
      rw [hid] at h
      rcases h with ⟨row, hrow, hrowId, hreplayed⟩
      refine ⟨row, mem_selectedEntries.mpr ⟨hrow, hreplayed, fun named hnamed => ?_⟩, hrowId⟩
      rw [hid] at hnamed
      cases hnamed
  | some named =>
      rw [hid] at h
      have hnonempty := hfound.resolve_left (by rw [hid]; exact Option.some_ne_none named)
      obtain ⟨entry, hentry⟩ := List.exists_mem_of_ne_nil _ hnonempty
      exact ⟨entry, hentry, ((mem_selectedEntries.mp hentry).2.2 named hid).trans h.symm⟩

theorem not_markedDuring_self {id : Int} : ¬ MarkedDuring queue queue id := by
  intro h
  rcases h with ⟨n, -, hbefore, hafter⟩
  rw [hbefore] at hafter
  cases hafter

/-- Nothing is selected, or the row that is named is not there. -/
theorem honest_of_empty (h : selectedEntries args queue = []) :
    HonestReplay args queue (cmdReplayDlq args (some queue) inputs) := by
  unfold cmdReplayDlq
  dsimp only
  rw [if_pos h]
  cases hid : args.id with
  | some id =>
      constructor
      · intro queue' hqueue
        rw [← Option.some.inj hqueue]
      · intro queue' _ _ hline
        simp at hline
      · intro queue' hqueue
        rw [← Option.some.inj hqueue]
        have hselects : Selects args queue id := by
          unfold Selects
          rw [hid]
        exact iff_of_false Nat.one_ne_zero fun hall => not_markedDuring_self (hall id hselects)
  | none =>
      constructor
      · intro queue' hqueue
        rw [← Option.some.inj hqueue]
      · intro queue' _ _ hline
        simp at hline
      · intro queue' _
        refine iff_of_true rfl fun id hselects => ?_
        obtain ⟨entry, hentry, -⟩ := mem_of_selects hselects (.inl hid)
        rw [h] at hentry
        cases hentry

/-- A dry run exits with zero and marks nothing. -/
theorem not_honest_of_dryRun (hdry : args.dryRun = true)
    (h : selectedEntries args queue ≠ []) :
    ¬ HonestReplay args queue (cmdReplayDlq args (some queue) inputs) := by
  unfold cmdReplayDlq
  dsimp only
  rw [if_neg h, if_pos hdry]
  intro hhonest
  obtain ⟨entry, hentry⟩ := List.exists_mem_of_ne_nil _ h
  exact not_markedDuring_self
    ((hhonest.exitCode queue rfl).mp rfl entry.id (selects_of_mem hentry))

/-- What the command comes to when it replays rows. -/
theorem cmdReplayDlq_of_replay (inputs : Nat → ReplayInput) (hdry : args.dryRun = false)
    (h : selectedEntries args queue ≠ []) :
    ∃ t, ReplaySpec inputs (selectedEntries args queue) ⟨queue, [], 0⟩ t ∧
      cmdReplayDlq args (some queue) inputs =
        ⟨if t.successCount = (selectedEntries args queue).length then 0 else 1,
          t.lines ++ [.summary t.successCount (selectedEntries args queue).length],
          some t.queue⟩ := by
  refine ⟨replayAll args inputs ⟨queue, [], 0⟩ (selectedEntries args queue), ?_, ?_⟩
  · exact replayAll_spec args inputs _ _ (selectedEntries_ids_nodup args queue)
      fun entry hentry => status_of_selected hentry
  · unfold cmdReplayDlq
    dsimp only
    rw [if_neg h, if_neg (by rw [hdry]; decide)]

/-- A replay is honest exactly if the price of every row of a known feed is fetched. -/
theorem honest_replay_iff (hdry : args.dryRun = false) (h : selectedEntries args queue ≠ []) :
    HonestReplay args queue (cmdReplayDlq args (some queue) inputs) ↔
      ∀ entry ∈ selectedEntries args queue, Known entry → Fetches inputs entry := by
  obtain ⟨t, hspec, hcmd⟩ := cmdReplayDlq_of_replay inputs hdry h
  rw [hcmd]
  have hlines : ∀ id, Line.replayed id ∈
      t.lines ++ [.summary t.successCount (selectedEntries args queue).length] ↔
        ∃ entry ∈ selectedEntries args queue, Known entry ∧ entry.id = id := by
    intro id
    simp [hspec.reported]
  constructor
  · intro hhonest entry hentry hknown
    have hmarked := hhonest.reported t.queue entry.id rfl
      ((hlines entry.id).mpr ⟨entry, hentry, hknown, rfl⟩)
    rw [hspec.marked entry hentry] at hmarked
    exact (of_decide_eq_true (Option.some.inj hmarked)).2
  · intro hfetches
    have hmarked : ∀ entry ∈ selectedEntries args queue, Known entry →
        t.queue.status entry.id = some true := by
      intro entry hentry hknown
      rw [hspec.marked entry hentry, decide_eq_true ⟨hknown, hfetches entry hentry hknown⟩]
    constructor
    · intro queue' hqueue
      rw [← Option.some.inj hqueue]
      have hfailed : (selectedEntries args queue).countP
          (fun entry => Known entry ∧ Requeues inputs entry) = 0 := by
        rw [List.countP_eq_zero]
        intro entry hentry hfails
        have hfails := of_decide_eq_true hfails
        exact hfails.2.1 (hfetches entry hentry hfails.1)
      have hcount := hspec.countUnreplayed
      dsimp only at hcount
      omega
    · intro queue' id hqueue hline
      rw [← Option.some.inj hqueue]
      rcases (hlines id).mp hline with ⟨entry, hentry, hknown, rfl⟩
      exact hmarked entry hentry hknown
    · intro queue' hqueue
      rw [← Option.some.inj hqueue]
      have hexit : (if t.successCount = (selectedEntries args queue).length then 0 else 1) = 0 ↔
          ∀ entry ∈ selectedEntries args queue, Known entry := by
        rw [hspec.successCount, Nat.zero_add]
        have hlength := List.countP_eq_length (p := fun entry => decide (Known entry))
          (l := selectedEntries args queue)
        simp only [decide_eq_true_eq] at hlength
        rw [← hlength]
        split
        · rename_i hcount
          exact iff_of_true rfl hcount
        · rename_i hcount
          exact iff_of_false Nat.one_ne_zero hcount
      rw [hexit]
      constructor
      · intro hknown id hselects
        obtain ⟨entry, hentry, hid⟩ := mem_of_selects hselects (.inr h)
        exact ⟨entry.id, hid, status_of_selected hentry, hmarked entry hentry (hknown entry hentry)⟩
      · intro hall entry hentry
        rcases hall entry.id (selects_of_mem hentry) with ⟨n, hn, -, hafter⟩
        rw [Int.ofNat_inj.mp hn, hspec.marked entry hentry] at hafter
        exact (of_decide_eq_true (Option.some.inj hafter)).1

end Command

/-- A run of the command is honest exactly if it is no dry run over rows that it could replay, and
the price of every selected row of a known feed is fetched. -/
theorem honest_iff (args : ReplayArgs) (queue : DeadLetterQueue) (inputs : Nat → ReplayInput) :
    HonestReplay args queue (cmdReplayDlq args (some queue) inputs) ↔
      ∀ entry ∈ selectedEntries args queue,
        args.dryRun = false ∧ (Known entry → Fetches inputs entry) := by
  by_cases hempty : selectedEntries args queue = []
  · refine iff_of_true (honest_of_empty hempty) fun entry hentry => ?_
    rw [hempty] at hentry
    cases hentry
  · obtain ⟨first, hfirst⟩ := List.exists_mem_of_ne_nil _ hempty
    cases hdry : args.dryRun with
    | true =>
        refine iff_of_false (not_honest_of_dryRun hdry hempty) fun hall => ?_
        have hfalse := (hall first hfirst).1
        cases hfalse
    | false =>
        rw [honest_replay_iff hdry hempty]
        constructor
        · intro hall entry hentry
          exact ⟨rfl, hall entry hentry⟩
        · intro hall entry hentry
          exact (hall entry hentry).2

/-- A row of a known feed. -/
def sampleEntry : DLQEntry where
  id := 1
  feedId := "CBL-EUA"
  payloadJson := failurePayload "CBL-EUA" ⟨"RuntimeError", "outage"⟩
  errorMessage := "outage"
  attemptCount := 4
  createdAt := "2026-01-01T00:00:00+00:00"

/-- A queue with one entry. -/
def sampleQueue : DeadLetterQueue :=
  DeadLetterQueue.empty.insert sampleEntry rfl

theorem sampleDb_ne : "dlq.db" ≠ "" := by
  decide

/-- The command without options. -/
def sampleReplay : ReplayArgs :=
  ⟨"dlq.db", none, false, sampleDb_ne⟩

/-- The outage goes on: the row is reported as replayed, and a second one is put into the queue. -/
theorem failed_replay_is_reported :
    ¬ HonestReplay sampleReplay sampleQueue
      (cmdReplayDlq sampleReplay (some sampleQueue)
        fun _ => ⟨sampleFetch sampleOutage 0, "2026-01-02T00:00:00+00:00"⟩) := by
  intro h
  have hmem : sampleEntry ∈ selectedEntries sampleReplay sampleQueue := by
    rw [mem_selectedEntries]
    exact ⟨List.mem_cons_self, rfl, fun id hid => by cases hid⟩
  have hknown : Known sampleEntry := by decide +kernel
  have hfetches := (honest_replay_iff rfl (List.ne_nil_of_mem hmem)).mp h sampleEntry hmem hknown
  exact hfetches fun _ _ => rfl

end OracleBridge
end Kraal
