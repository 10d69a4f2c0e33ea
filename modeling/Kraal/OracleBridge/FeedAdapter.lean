import Kraal.Foundation.Run
import Kraal.OracleBridge.Resilience
import Mathlib.Data.List.DropRight

/-!
# Feed adapters

An adapter fetches the price of one feed.  It retries, it serves the last good price after too many
failures in a row, and it puts what it can neither fetch nor serve into the dead-letter queue.

What the market answers, what the clocks show and what the database raises during a fetch is an
input of it.

Main results:

- Definition {lit}`FeedAdapter.fetch`: a fetch with its retries and its fallback.
- Definition {lit}`Tracks`: what the state of an adapter says about its past.
- Definition {lit}`ServesRecentTruth`: which fetches serve an old price, and which are queued.
- Theorem {lit}`serves_recent_truth`: it holds of all runs in which the pauses fit, the queue takes
  its rows, and no age is rounded over the window.
- Theorem {lit}`last_error_is_lost`: too many retries replace the last error by another one.

Current gaps:

- Metrics and logs are left out, and no number of seconds is infinite.
-/

namespace Kraal
namespace OracleBridge

open Foundation

/-! ## Data types -/

/-- A value that an adapter adds to its result. -/
inductive MetadataValue where
  | flag (b : Bool)
  | number (x : ℚ)
  | text (s : String)
deriving DecidableEq

/-- The result of a fetch. -/
structure FeedResult where
  price : Int
  feedId : String
  timestampUtc : Int
  metadata : List (String × MetadataValue) := []
  degraded : Bool := false
deriving DecidableEq

/-- The settings of an adapter, with their defaults. -/
structure FeedAdapterConfig where
  feedId : String := ""
  retry : Option RetryConfig := none
  degradedModeThreshold : Int := 3
  stalenessWindowSeconds : ℚ := 300
  dlqDbPath : Option String := none

/-- The retries of a configuration, the default ones if it names none. -/
def FeedAdapterConfig.retryConfig (config : FeedAdapterConfig) : RetryConfig :=
  config.retry.getD {}

/-- The database of the dead-letter queue, if there is one.  The empty path is none. -/
def FeedAdapterConfig.database (config : FeedAdapterConfig) : Option String :=
  config.dlqDbPath.filter fun path => path ≠ ""

/-- An adapter: its settings, its degraded mode and its queue. -/
structure FeedAdapter where
  config : FeedAdapterConfig
  retryConfig : RetryConfig
  degradedState : DegradedModeState
  dlq : Option DeadLetterQueue

/-- What a fetch meets: what every attempt comes to, what the pauses meet, the times that the clock
shows when it is read, and what the database raises. -/
structure FetchInput where
  attempts : Nat → Except Failure FeedResult
  pauses : Nat → PauseInput
  /-- When a success is recorded. -/
  succeededAt : ℚ
  /-- When the age of the last good price is taken. -/
  checkedAt : ℚ
  /-- When the result of the fallback is made. -/
  servedAt : ℚ
  /-- When the row of the queue is written. -/
  queuedAt : String
  /-- What is raised instead. -/
  insertError : Option Failure

/-! ## Fetching -/

/-- The adapter of a configuration, over the files of the databases. -/
def FeedAdapter.new (config : FeedAdapterConfig) (databases : String → DeadLetterQueue) :
    FeedAdapter where
  config := config
  retryConfig := config.retryConfig
  degradedState := {
    consecutiveFailuresThreshold := config.degradedModeThreshold
    stalenessWindowSeconds := config.stalenessWindowSeconds }
  dlq := config.database.map databases

/-- The payload of a queued failure. -/
def failurePayload (feedId : String) (exc : Failure) : String :=
  "\x7b\"feed_id\": \"" ++ feedId ++ "\", \"error\": \"" ++ exc.message ++ "\"\x7d"

namespace FeedAdapter

/-- The fallback result of a failed fetch: the last good price, in degraded mode and while it is
recent. -/
def fallback (adapter : FeedAdapter) (exc : Failure) (input : FetchInput) : Option FeedResult :=
  if adapter.degradedState.degraded then
    (adapter.degradedState.lastKnownGoodPrice input.checkedAt).map fun price => {
      price := price
      feedId := adapter.config.feedId
      timestampUtc := input.servedAt.num.tdiv input.servedAt.den
      metadata := [("degraded_fallback", .flag true), ("original_error", .text exc.message)]
      degraded := true }
  else none

/-- Put a failed fetch into the dead-letter queue, if there is one. -/
def persist (adapter : FeedAdapter) (exc : Failure) (input : FetchInput) :
    Except Failure Unit × FeedAdapter :=
  match adapter.dlq with
  | none => (.ok (), adapter)
  | some queue =>
      let (outcome, queue) := queue.enqueue adapter.config.feedId
        (failurePayload adapter.config.feedId exc) exc.message
        (adapter.retryConfig.maxRetries + 1) input.queuedAt input.insertError
      (outcome.map fun _ => (), { adapter with dlq := some queue })

/-- A fetch that has failed for good.  What the queue raises takes the place of the error. -/
def fetchFailed (adapter : FeedAdapter) (exc : Failure) (input : FetchInput) :
    Except Failure FeedResult × FeedAdapter :=
  let adapter := { adapter with degradedState := adapter.degradedState.recordFailure }
  match adapter.fallback exc input with
  | some result => (.ok result, adapter)
  | none =>
      match adapter.persist exc input with
      | (.ok (), adapter) => (.error exc, adapter)
      | (.error exc, adapter) => (.error exc, adapter)

/-- Fetch the price. -/
def fetch (adapter : FeedAdapter) (input : FetchInput) :
    Except Failure FeedResult × FeedAdapter :=
  match retry input.attempts adapter.retryConfig input.pauses with
  | .ok result =>
      (.ok result,
        { adapter with
          degradedState := adapter.degradedState.recordSuccess result.price input.succeededAt })
  | .error exc => adapter.fetchFailed exc input

/-- Leave degraded mode by hand. -/
def exitDegraded (adapter : FeedAdapter) : FeedAdapter :=
  { adapter with degradedState := adapter.degradedState.exitDegraded }

end FeedAdapter

/-! ## Runs -/

/-- What is done with an adapter. -/
inductive FeedOp where
  | fetch (input : FetchInput)
  | exitDegraded

/-- What an operation leaves of the adapter. -/
def feedStep (adapter : FeedAdapter) : FeedOp → FeedAdapter
  | .fetch input => (adapter.fetch input).2
  | .exitDegraded => adapter.exitDegraded

/-- A fetch with at most so many retries fails. -/
def FeedOp.Failed (maxRetries : Nat) : FeedOp → Prop
  | .fetch input => Exhausted input.attempts maxRetries
  | .exitDegraded => False

instance (maxRetries : Nat) : DecidablePred (FeedOp.Failed maxRetries) := fun op =>
  match op with
  | .fetch input => inferInstanceAs (Decidable (Exhausted input.attempts maxRetries))
  | .exitDegraded => inferInstanceAs (Decidable False)

/-- A fetch with at most so many retries succeeds. -/
def FeedOp.Succeeded (maxRetries : Nat) : FeedOp → Prop
  | .fetch input => ∃ result, FirstSuccess input.attempts maxRetries result
  | .exitDegraded => False

/-- A fetch succeeds with a price at a time. -/
def FeedOp.FetchedAt (maxRetries : Nat) (price : Int) (time : ℚ) : FeedOp → Prop
  | .fetch input => (∃ result, FirstSuccess input.attempts maxRetries result ∧
      result.price = price) ∧ input.succeededAt = time
  | .exitDegraded => False

/-- The number of fetches at the end of a history that have failed in a row. -/
def failureStreak (maxRetries : Nat) (past : List FeedOp) : Nat :=
  (past.rtakeWhile fun op => op.Failed maxRetries).length

/-- The last success of a history had this price, at this time. -/
def LastSuccess (maxRetries : Nat) (past : List FeedOp) (price : Int) (time : ℚ) : Prop :=
  Run.Since (FeedOp.FetchedAt maxRetries price time) (FeedOp.Succeeded maxRetries) past

/-- With one more failure after a history enough fetches in a row have failed. -/
def Degrades (config : FeedAdapterConfig) (past : List FeedOp) : Prop :=
  config.degradedModeThreshold ≤ failureStreak config.retryConfig.maxRetries past + 1

/-- After a history, a failing fetch serves a price: with this failure enough of them in a row have
failed, and the last success had this price and is recent. -/
def ShouldServe (config : FeedAdapterConfig) (past : List FeedOp) (now : ℚ) (price : Int) : Prop :=
  Degrades config past ∧ ∃ time, LastSuccess config.retryConfig.maxRetries past price time ∧
    now - time ≤ config.stalenessWindowSeconds

/-- Where the age of the last success decides, rounding it does not carry it over the window. -/
def AgeKept (config : FeedAdapterConfig) (past : List FeedOp) (input : FetchInput) : Prop :=
  Exhausted input.attempts config.retryConfig.maxRetries → Degrades config past →
    ∀ price time, LastSuccess config.retryConfig.maxRetries past price time →
      (roundDouble (input.checkedAt - time) ≤ config.stalenessWindowSeconds ↔
        input.checkedAt - time ≤ config.stalenessWindowSeconds)

/-- The queue takes the row of a fetch that fails, and that serves no price. -/
def QueueTakes (config : FeedAdapterConfig) (past : List FeedOp) (input : FetchInput) : Prop :=
  Exhausted input.attempts config.retryConfig.maxRetries →
    (∀ price, ¬ ShouldServe config past input.checkedAt price) →
    config.database.isSome = true → input.insertError = none

/-- What a failed fetch adds to the dead-letter queue. -/
def Queued (config : FeedAdapterConfig) (exc : Failure) (before after : Option DeadLetterQueue) :
    Prop :=
  ∃ queue queue' row, before = some queue ∧ after = some queue' ∧
    queue'.rows = queue.rows ++ [row] ∧ row.feedId = config.feedId ∧
    row.errorMessage = exc.message ∧ row.replayed = false

/-- What a fetch comes to after a history. -/
structure FetchLaw (config : FeedAdapterConfig) (past : List FeedOp) (input : FetchInput)
    (before after : FeedAdapter) (outcome : Except Failure FeedResult) : Prop where
  /-- A failing fetch serves exactly the recent price of the last success. -/
  served : Exhausted input.attempts config.retryConfig.maxRetries → ∀ price,
    (∃ result, outcome = .ok result ∧ result.degraded = true ∧ result.price = price) ↔
      ShouldServe config past input.checkedAt price
  /-- Every other failing fetch raises the last error, and is queued. -/
  raised : ∀ exc, Exhausted input.attempts config.retryConfig.maxRetries →
    input.attempts config.retryConfig.maxRetries = .error exc →
    (∀ price, ¬ ShouldServe config past input.checkedAt price) →
    outcome = .error exc ∧
      (config.database.isSome = true → Queued config exc before.dlq after.dlq)
  /-- What returns a result is not queued. -/
  returned : ∀ result, outcome = .ok result → after.dlq = before.dlq
  /-- A success is returned. -/
  succeeded : ∀ result, FirstSuccess input.attempts config.retryConfig.maxRetries result →
    outcome = .ok result

/-- All fetches of a run keep to it. -/
def ServesRecentTruth (config : FeedAdapterConfig) (databases : String → DeadLetterQueue)
    (ops : List FeedOp) : Prop :=
  ∀ past input rest, ops = past ++ .fetch input :: rest →
    let adapter := Run.final feedStep (FeedAdapter.new config databases) past
    FetchLaw config past input adapter (adapter.fetch input).2 (adapter.fetch input).1

/-! ## One fetch -/

section Fetch

variable {adapter : FeedAdapter} {input : FetchInput}

theorem fetch_of_firstSuccess {result : FeedResult}
    (hfits : BackoffFits input.attempts adapter.retryConfig input.pauses)
    (h : FirstSuccess input.attempts adapter.retryConfig.maxRetries result) :
    adapter.fetch input = (.ok result,
      { adapter with
        degradedState :=
          adapter.degradedState.recordSuccess result.price input.succeededAt }) := by
  rw [FeedAdapter.fetch, retry_eq_ok hfits h]

theorem fetch_of_exhausted
    (hfits : BackoffFits input.attempts adapter.retryConfig input.pauses)
    (h : Exhausted input.attempts adapter.retryConfig.maxRetries) :
    ∃ exc, input.attempts adapter.retryConfig.maxRetries = .error exc ∧
      adapter.fetch input = adapter.fetchFailed exc input := by
  obtain ⟨exc, hexc⟩ := exists_error_of_not_isOk (h _ (Nat.le_refl _))
  refine ⟨exc, hexc, ?_⟩
  rw [FeedAdapter.fetch, retry_eq_error hfits h, hexc]

theorem persist_of_none (h : adapter.dlq = none) (exc : Failure) (input : FetchInput) :
    adapter.persist exc input = (.ok (), adapter) := by
  unfold FeedAdapter.persist
  rw [h]

theorem persist_of_some {queue : DeadLetterQueue} (h : adapter.dlq = some queue) (exc : Failure)
    (input : FetchInput) :
    adapter.persist exc input =
      ((queue.enqueue adapter.config.feedId (failurePayload adapter.config.feedId exc) exc.message
          (adapter.retryConfig.maxRetries + 1) input.queuedAt input.insertError).1.map fun _ => (),
        { adapter with
          dlq := some (queue.enqueue adapter.config.feedId
            (failurePayload adapter.config.feedId exc) exc.message
            (adapter.retryConfig.maxRetries + 1) input.queuedAt input.insertError).2 }) := by
  unfold FeedAdapter.persist
  rw [h]

/-- The queue is all that changes. -/
theorem persist_state (adapter : FeedAdapter) (exc : Failure) (input : FetchInput) :
    (adapter.persist exc input).2.config = adapter.config ∧
      (adapter.persist exc input).2.retryConfig = adapter.retryConfig ∧
      (adapter.persist exc input).2.degradedState = adapter.degradedState ∧
      (adapter.persist exc input).2.dlq.isSome = adapter.dlq.isSome := by
  cases hdlq : adapter.dlq with
  | none =>
      rw [persist_of_none hdlq]
      exact ⟨rfl, rfl, rfl, congrArg Option.isSome hdlq⟩
  | some queue =>
      rw [persist_of_some hdlq]
      exact ⟨rfl, rfl, rfl, rfl⟩

/-- A failed fetch raises its error, or what the queue raises. -/
theorem fetchFailed_of_none {exc : Failure}
    (h : { adapter with degradedState := adapter.degradedState.recordFailure }.fallback exc input =
      none) :
    adapter.fetchFailed exc input =
      (match ({ adapter with
          degradedState := adapter.degradedState.recordFailure }.persist exc input).1 with
        | .ok () => .error exc
        | .error exc => .error exc,
      ({ adapter with
          degradedState := adapter.degradedState.recordFailure }.persist exc input).2) := by
  unfold FeedAdapter.fetchFailed
  dsimp only
  rw [h]
  dsimp only
  cases { adapter with degradedState := adapter.degradedState.recordFailure }.persist exc input with
  | mk outcome after =>
      cases outcome with
      | ok _ => rfl
      | error _ => rfl

/-- A failed fetch with nothing to serve raises, and its row goes to the queue. -/
theorem fetchFailed_of_some {exc : Failure} {queue : DeadLetterQueue}
    (h : { adapter with degradedState := adapter.degradedState.recordFailure }.fallback exc input =
      none) (hdlq : adapter.dlq = some queue) :
    (∃ raised, (adapter.fetchFailed exc input).1 = .error raised) ∧
      (adapter.fetchFailed exc input).2.dlq =
        some (queue.enqueue adapter.config.feedId (failurePayload adapter.config.feedId exc)
          exc.message (adapter.retryConfig.maxRetries + 1) input.queuedAt input.insertError).2 := by
  have hpersist := @persist_of_some
    { adapter with degradedState := adapter.degradedState.recordFailure } queue hdlq exc input
  rw [fetchFailed_of_none h, hpersist]
  refine ⟨?_, rfl⟩
  dsimp only
  split
  · exact ⟨exc, rfl⟩
  · next raised _ => exact ⟨raised, rfl⟩

/-- A failed fetch counts, whatever it comes to, and changes nothing else but the queue. -/
theorem fetchFailed_state (adapter : FeedAdapter) (exc : Failure) (input : FetchInput) :
    (adapter.fetchFailed exc input).2.config = adapter.config ∧
      (adapter.fetchFailed exc input).2.retryConfig = adapter.retryConfig ∧
      (adapter.fetchFailed exc input).2.degradedState = adapter.degradedState.recordFailure ∧
      (adapter.fetchFailed exc input).2.dlq.isSome = adapter.dlq.isSome := by
  cases hfallback : { adapter with
      degradedState := adapter.degradedState.recordFailure }.fallback exc input with
  | some result =>
      unfold FeedAdapter.fetchFailed
      dsimp only
      rw [hfallback]
      exact ⟨rfl, rfl, rfl, rfl⟩
  | none =>
      rw [fetchFailed_of_none hfallback]
      exact persist_state _ exc input

end Fetch

/-! ## Histories -/

section Histories

variable {maxRetries : Nat} {past : List FeedOp} {input : FetchInput}

theorem failureStreak_failed (h : Exhausted input.attempts maxRetries) :
    failureStreak maxRetries (past ++ [.fetch input]) = failureStreak maxRetries past + 1 := by
  have htake := List.rtakeWhile_concat_pos (fun op : FeedOp => decide (op.Failed maxRetries)) past
    (.fetch input) (decide_eq_true h)
  rw [failureStreak, htake, List.length_append]
  rfl

theorem failureStreak_of_not_failed {op : FeedOp} (h : ¬ op.Failed maxRetries) :
    failureStreak maxRetries (past ++ [op]) = 0 := by
  have htake := List.rtakeWhile_concat_neg (fun op : FeedOp => decide (op.Failed maxRetries)) past
    op (by simpa using h)
  rw [failureStreak, htake]
  rfl

theorem FeedOp.not_failed_of_firstSuccess {result : FeedResult}
    (h : FirstSuccess input.attempts maxRetries result) :
    ¬ (FeedOp.fetch input).Failed maxRetries :=
  h.not_exhausted

theorem FirstSuccess.unique {α : Type} {fn : Nat → Except Failure α} {maxRetries : Nat}
    {result result' : α} (h : FirstSuccess fn maxRetries result)
    (h' : FirstSuccess fn maxRetries result') : result = result' := by
  rcases h with ⟨k, -, hok, hfails⟩
  rcases h' with ⟨k', -, hok', hfails'⟩
  have hsame : k = k' := by
    rcases Nat.lt_trichotomy k k' with hlt | heq | hgt
    · have hfail := hfails' k hlt
      rw [hok] at hfail
      cases hfail
    · exact heq
    · have hfail := hfails k' hgt
      rw [hok'] at hfail
      cases hfail
  rw [hsame, hok'] at hok
  exact (Except.ok.inj hok).symm

end Histories

/-! ## What the state says about the past -/

/-- The state of an adapter after a history. -/
structure Tracks (config : FeedAdapterConfig) (past : List FeedOp) (adapter : FeedAdapter) :
    Prop where
  config_eq : adapter.config = config
  retry_eq : adapter.retryConfig = config.retryConfig
  threshold : adapter.degradedState.consecutiveFailuresThreshold = config.degradedModeThreshold
  window : adapter.degradedState.stalenessWindowSeconds = config.stalenessWindowSeconds
  failures : adapter.degradedState.consecutiveFailures =
    failureStreak config.retryConfig.maxRetries past
  degraded : adapter.degradedState.degraded = true ↔
    0 < failureStreak config.retryConfig.maxRetries past ∧
      config.degradedModeThreshold ≤ failureStreak config.retryConfig.maxRetries past
  good : ∀ price time, LastSuccess config.retryConfig.maxRetries past price time ↔
    adapter.degradedState.goodPrice = some price ∧ adapter.degradedState.lastGoodTimestamp = time
  queue : adapter.dlq.isSome = config.database.isSome

section Tracks

variable {config : FeedAdapterConfig} {past : List FeedOp} {adapter : FeedAdapter}
  {input : FetchInput}

theorem tracks_new (config : FeedAdapterConfig) (databases : String → DeadLetterQueue) :
    Tracks config [] (FeedAdapter.new config databases) := by
  constructor
  case good =>
    intro price time
    exact iff_of_false Run.not_since_nil fun h => by cases h.1
  case degraded => exact iff_of_false (fun h => by cases h) fun h => absurd h.1 (Nat.lt_irrefl 0)
  case queue => simp [FeedAdapter.new]
  all_goals rfl

/-- A success clears the failures, and its price is the last good one. -/
theorem Tracks.success (h : Tracks config past adapter) {result : FeedResult}
    (hfirst : FirstSuccess input.attempts config.retryConfig.maxRetries result) :
    Tracks config (past ++ [.fetch input])
      { adapter with
        degradedState :=
          adapter.degradedState.recordSuccess result.price input.succeededAt } := by
  have hstreak : failureStreak config.retryConfig.maxRetries (past ++ [.fetch input]) = 0 :=
    failureStreak_of_not_failed (FeedOp.not_failed_of_firstSuccess hfirst)
  constructor
  case config_eq => exact h.config_eq
  case retry_eq => exact h.retry_eq
  case threshold => exact h.threshold
  case window => exact h.window
  case failures => exact hstreak.symm
  case degraded =>
    rw [hstreak]
    exact iff_of_false (fun h => by cases h) fun h => absurd h.1 (Nat.lt_irrefl 0)
  case good =>
    intro price time
    rw [LastSuccess, Run.since_append_singleton]
    have hsucceeded : (FeedOp.fetch input).Succeeded config.retryConfig.maxRetries :=
      ⟨result, hfirst⟩
    simp only [hsucceeded, not_true_eq_false, and_false, or_false]
    constructor
    · rintro ⟨⟨result', hfirst', hprice⟩, htime⟩
      rw [hfirst'.unique hfirst] at hprice
      exact ⟨congrArg some hprice, htime⟩
    · rintro ⟨hprice, htime⟩
      exact ⟨⟨result, hfirst, Option.some.inj hprice⟩, htime⟩
  case queue => exact h.queue

/-- What does not succeed leaves the last success alone. -/
theorem lastSuccess_append {maxRetries : Nat} {op : FeedOp} (hop : ¬ op.Succeeded maxRetries)
    (price : Int) (time : ℚ) :
    LastSuccess maxRetries (past ++ [op]) price time ↔ LastSuccess maxRetries past price time := by
  have hother : ¬ op.FetchedAt maxRetries price time := by
    cases op with
    | fetch input => exact fun hfetched => hop ⟨hfetched.1.choose, hfetched.1.choose_spec.1⟩
    | exitDegraded => exact id
  rw [LastSuccess, Run.since_append_singleton]
  simp only [hother, hop, not_false_eq_true, and_true, false_or]
  rfl

/-- With this failure the adapter is degraded exactly if enough have failed in a row. -/
theorem Tracks.recordFailure_degraded (h : Tracks config past adapter) :
    adapter.degradedState.recordFailure.degraded = true ↔ Degrades config past := by
  rw [Degrades, DegradedModeState.recordFailure, Bool.or_eq_true, h.degraded, h.threshold,
    h.failures, decide_eq_true_iff]
  omega

/-- A failure counts, and leaves the last good price alone. -/
theorem Tracks.failure (h : Tracks config past adapter)
    (hexhausted : Exhausted input.attempts config.retryConfig.maxRetries) (exc : Failure) :
    Tracks config (past ++ [.fetch input]) (adapter.fetchFailed exc input).2 := by
  obtain ⟨hconfig, hretry, hstate, hqueue⟩ := fetchFailed_state adapter exc input
  have hnot : ¬ (FeedOp.fetch input).Succeeded config.retryConfig.maxRetries := by
    intro hsucceeded
    obtain ⟨result, hfirst⟩ := hsucceeded
    exact hfirst.not_exhausted hexhausted
  have hstreak : failureStreak config.retryConfig.maxRetries (past ++ [.fetch input]) =
      failureStreak config.retryConfig.maxRetries past + 1 := failureStreak_failed hexhausted
  constructor
  case config_eq => rw [hconfig, h.config_eq]
  case retry_eq => rw [hretry, h.retry_eq]
  case threshold => rw [hstate]; exact h.threshold
  case window => rw [hstate]; exact h.window
  case failures =>
    rw [hstate, hstreak, ← h.failures]
    rfl
  case degraded =>
    rw [hstate, hstreak, h.recordFailure_degraded, Degrades]
    push_cast
    exact ⟨fun hle => ⟨Nat.succ_pos _, hle⟩, fun hle => hle.2⟩
  case good =>
    intro price time
    rw [hstate, lastSuccess_append hnot]
    exact h.good price time
  case queue => rw [hqueue, h.queue]

theorem Tracks.exitDegraded (h : Tracks config past adapter) :
    Tracks config (past ++ [.exitDegraded]) adapter.exitDegraded := by
  have hstreak : failureStreak config.retryConfig.maxRetries (past ++ [.exitDegraded]) = 0 :=
    failureStreak_of_not_failed id
  constructor
  case config_eq => exact h.config_eq
  case retry_eq => exact h.retry_eq
  case threshold => exact h.threshold
  case window => exact h.window
  case failures => exact hstreak.symm
  case degraded =>
    rw [hstreak]
    exact iff_of_false (fun h => by cases h) fun h => absurd h.1 (Nat.lt_irrefl 0)
  case good =>
    intro price time
    rw [lastSuccess_append id]
    exact h.good price time
  case queue => exact h.queue

/-- What one step does to what the state says. -/
theorem Tracks.step (h : Tracks config past adapter) {op : FeedOp}
    (hfits : ∀ input, op = .fetch input →
      BackoffFits input.attempts config.retryConfig input.pauses) :
    Tracks config (past ++ [op]) (feedStep adapter op) := by
  cases op with
  | exitDegraded => exact h.exitDegraded
  | fetch input =>
      have hfit := hfits input rfl
      rw [← h.retry_eq] at hfit
      rcases exhausted_or_firstSuccess input.attempts config.retryConfig.maxRetries with
        hexhausted | ⟨result, hfirst⟩
      · have hall := hexhausted
        rw [← h.retry_eq] at hall
        obtain ⟨exc, -, hfetch⟩ := fetch_of_exhausted hfit hall
        rw [feedStep, hfetch]
        exact h.failure hexhausted exc
      · have hok := hfirst
        rw [← h.retry_eq] at hok
        rw [feedStep, fetch_of_firstSuccess hfit hok]
        exact h.success hfirst

theorem tracks_final (config : FeedAdapterConfig) (databases : String → DeadLetterQueue)
    (past : List FeedOp)
    (hfits : ∀ input, FeedOp.fetch input ∈ past →
      BackoffFits input.attempts config.retryConfig input.pauses) :
    Tracks config past (Run.final feedStep (FeedAdapter.new config databases) past) := by
  induction past using List.reverseRecOn with
  | nil => exact tracks_new config databases
  | append_singleton past op ih =>
      rw [Run.final_append]
      apply Tracks.step
      · exact ih fun input hinput => hfits input (List.mem_append_left _ hinput)
      · intro input hop
        exact hfits input (List.mem_append_right _ (by rw [hop]; exact List.mem_cons_self))

/-- The price that is kept is that of the last success, while its age is within the window. -/
theorem Tracks.lastKnownGoodPrice_iff (h : Tracks config past adapter) (now : ℚ) (price : Int) :
    adapter.degradedState.lastKnownGoodPrice now = some price ↔
      ∃ time, LastSuccess config.retryConfig.maxRetries past price time ∧
        roundDouble (now - time) ≤ config.stalenessWindowSeconds := by
  rw [DegradedModeState.lastKnownGoodPrice, Option.filter_eq_some_iff, h.window,
    decide_eq_true_iff]
  constructor
  · intro hgood
    exact ⟨_, (h.good price _).mpr ⟨hgood.1, rfl⟩, hgood.2⟩
  · rintro ⟨time, hlast, hrecent⟩
    obtain ⟨hprice, rfl⟩ := (h.good price time).mp hlast
    exact ⟨hprice, hrecent⟩

/-- The fallback of a failed fetch is the price that it should serve. -/
theorem Tracks.fallback_iff (h : Tracks config past adapter)
    (hexhausted : Exhausted input.attempts config.retryConfig.maxRetries)
    (hage : AgeKept config past input) (exc : Failure) (price : Int) :
    (∃ result,
      { adapter with degradedState := adapter.degradedState.recordFailure }.fallback exc input =
        some result ∧ result.price = price) ↔
      ShouldServe config past input.checkedAt price := by
  have hserve : ShouldServe config past input.checkedAt price ↔
      adapter.degradedState.recordFailure.degraded = true ∧
        adapter.degradedState.lastKnownGoodPrice input.checkedAt = some price := by
    rw [ShouldServe, h.recordFailure_degraded, h.lastKnownGoodPrice_iff]
    apply and_congr_right
    intro hdegrades
    apply exists_congr
    intro time
    exact and_congr_right fun hlast => (hage hexhausted hdegrades price time hlast).symm
  rw [hserve]
  unfold FeedAdapter.fallback
  constructor
  · intro hfallback
    rcases hfallback with ⟨result, hresult, rfl⟩
    split at hresult
    · rename_i hdegraded
      obtain ⟨good, hgood, rfl⟩ := Option.map_eq_some_iff.mp hresult
      exact ⟨hdegraded, hgood⟩
    · cases hresult
  · intro hboth
    rcases hboth with ⟨hdegraded, hgood⟩
    rw [if_pos hdegraded]
    exact ⟨_, Option.map_eq_some_iff.mpr ⟨price, hgood, rfl⟩, rfl⟩

theorem fallback_degraded {exc : Failure} {result : FeedResult}
    (h : adapter.fallback exc input = some result) : result.degraded = true := by
  unfold FeedAdapter.fallback at h
  split at h
  · obtain ⟨price, -, rfl⟩ := Option.map_eq_some_iff.mp h
    rfl
  · cases h

/-- What is put into the queue is one row, for the feed and with the text of the exception. -/
theorem queued_persist (adapter : FeedAdapter) (hconfig : adapter.config = config)
    (hqueue : adapter.dlq.isSome = true) (exc : Failure) (hinsert : input.insertError = none) :
    Queued config exc adapter.dlq (adapter.persist exc input).2.dlq := by
  obtain ⟨queue, hsome⟩ := Option.isSome_iff_exists.mp hqueue
  subst hconfig
  rw [persist_of_some hsome, hsome, hinsert]
  exact ⟨queue, _, _, rfl, rfl, rfl, rfl, rfl, rfl⟩

/-- A queue that takes the row raises nothing. -/
theorem persist_ok (adapter : FeedAdapter) (exc : Failure)
    (h : adapter.dlq.isSome = true → input.insertError = none) :
    (adapter.persist exc input).1 = .ok () := by
  cases hdlq : adapter.dlq with
  | none => rw [persist_of_none hdlq]
  | some queue =>
      rw [persist_of_some hdlq, h (by rw [hdlq]; rfl)]
      rfl

/-- A failed fetch serves the price that it should, or it raises and is queued. -/
theorem Tracks.fetchLaw_failure (h : Tracks config past adapter)
    (hexhausted : Exhausted input.attempts config.retryConfig.maxRetries) {exc : Failure}
    (hlast : input.attempts config.retryConfig.maxRetries = .error exc)
    (hage : AgeKept config past input) (htakes : QueueTakes config past input) :
    FetchLaw config past input adapter (adapter.fetchFailed exc input).2
      (adapter.fetchFailed exc input).1 := by
  have hiff := h.fallback_iff hexhausted hage exc
  cases hfallback : { adapter with
      degradedState := adapter.degradedState.recordFailure }.fallback exc input with
  | some served =>
      have hfailed : adapter.fetchFailed exc input = (.ok served,
          { adapter with degradedState := adapter.degradedState.recordFailure }) := by
        unfold FeedAdapter.fetchFailed
        dsimp only
        rw [hfallback]
      rw [hfallback] at hiff
      rw [hfailed]
      constructor
      · intro _ price
        rw [← hiff price]
        constructor
        · intro hreturned
          rcases hreturned with ⟨result, hresult, -, hprice⟩
          exact ⟨result, by rw [Except.ok.inj hresult], hprice⟩
        · intro hfallback'
          rcases hfallback' with ⟨result, hresult, hprice⟩
          rw [← Option.some.inj hresult] at hprice
          exact ⟨served, rfl, fallback_degraded hfallback, hprice⟩
      · intro exc' _ _ hnone
        exact absurd ((hiff served.price).mp ⟨served, rfl, rfl⟩) (hnone served.price)
      · intro _ _
        rfl
      · intro result hfirst
        exact absurd hexhausted hfirst.not_exhausted
  | none =>
      rw [hfallback] at hiff
      have hnothing : ∀ price, ¬ ShouldServe config past input.checkedAt price := by
        intro price hserve
        rcases (hiff price).mpr hserve with ⟨_, hresult, -⟩
        cases hresult
      have hinsert : config.database.isSome = true → input.insertError = none :=
        htakes hexhausted hnothing
      have hfailed : adapter.fetchFailed exc input = (.error exc,
          ({ adapter with
            degradedState := adapter.degradedState.recordFailure }.persist exc input).2) := by
        rw [fetchFailed_of_none hfallback, persist_ok]
        intro hqueue
        exact hinsert (h.queue.symm.trans hqueue)
      rw [hfailed]
      constructor
      · intro _ price
        refine iff_of_false (fun hreturned => ?_) (hnothing price)
        rcases hreturned with ⟨_, hresult, -⟩
        cases hresult
      · intro exc' _ hexc' _
        rw [hlast] at hexc'
        rw [Except.error.inj hexc']
        refine ⟨rfl, fun hdatabase => ?_⟩
        exact queued_persist { adapter with
          degradedState := adapter.degradedState.recordFailure } h.config_eq
          (h.queue.trans hdatabase) exc' (hinsert hdatabase)
      · intro result hresult
        cases hresult
      · intro result hfirst
        exact absurd hexhausted hfirst.not_exhausted

/-- What a fetch comes to, from what the state says about the past. -/
theorem Tracks.fetchLaw (h : Tracks config past adapter)
    (hfits : BackoffFits input.attempts config.retryConfig input.pauses)
    (hage : AgeKept config past input) (htakes : QueueTakes config past input) :
    FetchLaw config past input adapter (adapter.fetch input).2 (adapter.fetch input).1 := by
  rw [← h.retry_eq] at hfits
  rcases exhausted_or_firstSuccess input.attempts config.retryConfig.maxRetries with
    hexhausted | ⟨result, hfirst⟩
  · have hall := hexhausted
    rw [← h.retry_eq] at hall
    obtain ⟨exc, hlast, hfetch⟩ := fetch_of_exhausted hfits hall
    rw [h.retry_eq] at hlast
    rw [hfetch]
    exact h.fetchLaw_failure hexhausted hlast hage htakes
  · have hok := hfirst
    rw [← h.retry_eq] at hok
    rw [fetch_of_firstSuccess hfits hok]
    constructor
    · intro hexhausted
      exact absurd hexhausted hfirst.not_exhausted
    · intro exc hexhausted
      exact absurd hexhausted hfirst.not_exhausted
    · intro _ _
      rfl
    · intro result' hfirst'
      rw [hfirst.unique hfirst']

end Tracks

/-! ## Runs in which the pauses fit -/

/-- If the pauses between the attempts fit, no age is rounded over the window, and the queue takes
its rows, a run serves only recent prices, raises the last error, and queues exactly what it
raises. -/
theorem serves_recent_truth (config : FeedAdapterConfig) (databases : String → DeadLetterQueue)
    (ops : List FeedOp)
    (hfits : ∀ input, FeedOp.fetch input ∈ ops →
      BackoffFits input.attempts config.retryConfig input.pauses)
    (hages : ∀ past input rest, ops = past ++ .fetch input :: rest → AgeKept config past input)
    (htakes : ∀ past input rest, ops = past ++ .fetch input :: rest →
      QueueTakes config past input) :
    ServesRecentTruth config databases ops := by
  intro past input rest hops
  have hage := hages past input rest hops
  have htake := htakes past input rest hops
  rw [hops] at hfits
  have htracks : Tracks config past
      (Run.final feedStep (FeedAdapter.new config databases) past) := by
    apply tracks_final
    intro input' hinput'
    exact hfits input' (List.mem_append_left _ hinput')
  exact htracks.fetchLaw (hfits input (List.mem_append_right _ List.mem_cons_self)) hage htake

/-- A clock shows a whole second. -/
def WholeSecond (time : ℚ) : Prop :=
  ∃ n : ℕ, n < 2 ^ 53 ∧ time = n

/-- Ages of whole seconds are not rounded. -/
theorem ageKept_of_wholeSecond {config : FeedAdapterConfig} {past : List FeedOp}
    {input : FetchInput} (hnow : WholeSecond input.checkedAt)
    (hpast : ∀ success, FeedOp.fetch success ∈ past → WholeSecond success.succeededAt) :
    AgeKept config past input := by
  rintro - - price time ⟨before, op, between, hops, hfetched, -⟩
  cases op with
  | exitDegraded => exact absurd hfetched id
  | fetch success =>
      obtain ⟨-, rfl⟩ := hfetched
      obtain ⟨now, hnow, hnow'⟩ := hnow
      obtain ⟨earlier, hearlier, hearlier'⟩ := hpast success (by rw [hops]; simp)
      have hage : input.checkedAt - success.succeededAt = ((now - earlier : ℤ) : ℚ) := by
        rw [hnow', hearlier']
        push_cast
        rfl
      have hkept := @roundFloat_mul_zpow 53 (now - earlier) (by omega) 0
      rw [zpow_zero, mul_one] at hkept
      rw [hage, roundDouble, hkept]

theorem zero_mem_unit : 0 ≤ (0 : ℚ) ∧ (0 : ℚ) ≤ 1 :=
  ⟨le_refl 0, zero_le_one⟩

theorem zero_lt_clock : 0 < 2 ^ 62 := by
  decide

/-- A fetch all of whose attempts come to the same. -/
def sampleFetch (outcome : Except Failure FeedResult) (now : ℚ) : FetchInput where
  attempts := fun _ => outcome
  pauses := fun _ => ⟨⟨0, zero_mem_unit⟩, ⟨0, zero_lt_clock⟩⟩
  succeededAt := now
  checkedAt := now
  servedAt := now
  queuedAt := "2026-01-01T00:00:00+00:00"
  insertError := none

/-- An attempt that fails. -/
def sampleOutage : Except Failure FeedResult :=
  .error ⟨"RuntimeError", "Xpansiv API connection failed"⟩

/-- The settings of an adapter that falls into degraded mode at the second failure. -/
def sampleFeed (maxRetries : Nat) : FeedAdapterConfig where
  feedId := "CBL-EUA"
  retry := some { maxRetries := maxRetries }
  degradedModeThreshold := 2
  dlqDbPath := some "dlq.db"

/-- A success, and two failures after it. -/
theorem sampleOutage_serves :
    ServesRecentTruth (sampleFeed 1) (fun _ => .empty)
      [.fetch (sampleFetch (.ok ⟨500, "CBL-EUA", 0, [], false⟩) 0),
        .fetch (sampleFetch sampleOutage 60), .fetch (sampleFetch sampleOutage 120)] := by
  apply serves_recent_truth
  · intro input _
    exact BackoffFits.of_bounded 60 (by decide) (by decide) (by decide) (by decide +kernel)
      (by decide +kernel) (by decide +kernel) (by decide)
  · intro past input rest hops
    have hwhole : ∀ other, FeedOp.fetch other ∈ past ++ .fetch input :: rest →
        WholeSecond other.checkedAt ∧ WholeSecond other.succeededAt := by
      intro other hother
      rw [← hops] at hother
      simp only [List.mem_cons, FeedOp.fetch.injEq, List.not_mem_nil, or_false] at hother
      rcases hother with rfl | rfl | rfl
      · exact ⟨⟨0, by decide, rfl⟩, ⟨0, by decide, rfl⟩⟩
      · exact ⟨⟨60, by decide, rfl⟩, ⟨60, by decide, rfl⟩⟩
      · exact ⟨⟨120, by decide, rfl⟩, ⟨120, by decide, rfl⟩⟩
    apply ageKept_of_wholeSecond
    · exact (hwhole input (List.mem_append_right _ List.mem_cons_self)).1
    · intro success hsuccess
      exact (hwhole success (List.mem_append_left _ hsuccess)).2
  · intro past input rest hops _ _ _
    have hmem : FeedOp.fetch input ∈ past ++ .fetch input :: rest :=
      List.mem_append_right _ List.mem_cons_self
    rw [← hops] at hmem
    simp only [List.mem_cons, FeedOp.fetch.injEq, List.not_mem_nil, or_false] at hmem
    rcases hmem with rfl | rfl | rfl
    all_goals rfl

/-- With 1025 retries the last error of an outage is replaced by that of the pause. -/
theorem last_error_is_lost :
    ¬ ∀ (config : FeedAdapterConfig) (databases : String → DeadLetterQueue) (ops : List FeedOp),
      ServesRecentTruth config databases ops := by
  intro h
  have hlaw := h (sampleFeed 1025) (fun _ => .empty) [.fetch (sampleFetch sampleOutage 0)]
    [] (sampleFetch sampleOutage 0) [] rfl
  have hretry : retry (sampleFetch sampleOutage 0).attempts (sampleFeed 1025).retryConfig
      (sampleFetch sampleOutage 0).pauses = .error intTooLarge := by
    apply retry_overflow (by decide) fun _ _ => rfl
    intro j hj
    exact pause_of_bounded 60 hj (by decide) (by decide) (by decide +kernel)
      (by decide +kernel) (by decide +kernel) (by decide)
  have hraised := (hlaw.raised _ (fun _ _ => rfl) rfl fun price hserve =>
    Run.not_since_nil hserve.2.choose_spec.1).1
  have hoverflow : (FeedAdapter.fetch (FeedAdapter.new (sampleFeed 1025) fun _ => .empty)
      (sampleFetch sampleOutage 0)).1 = .error intTooLarge := by
    rw [FeedAdapter.fetch]
    have hconfig : (FeedAdapter.new (sampleFeed 1025) fun _ => .empty).retryConfig =
        (sampleFeed 1025).retryConfig := rfl
    rw [hconfig, hretry]
    rfl
  have hsame := Except.error.inj (hoverflow.symm.trans hraised)
  exact absurd hsame (by decide)

end OracleBridge
end Kraal
