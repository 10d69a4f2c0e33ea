import Kraal.Foundation.Double
import Kraal.OracleBridge.Runtime
import Mathlib.Algebra.Order.Field.Rat
import Mathlib.Algebra.Order.Floor.Ring
import Mathlib.Data.List.Sort
import Mathlib.Data.Rat.Floor
import Mathlib.Data.String.Basic

/-!
# Retries, degraded mode and the dead-letter queue

A price is fetched with retries, and the pause before every retry is twice the last one.  An
adapter that fails too often serves its last good price for a while.  What fails for good is kept
in a queue for the operators.

Main results:

- Theorem {lit}`computeBackoff_le`: no pause is longer than three times its cap.
- Definition {lit}`BackoffFits`: the pauses before the retries can be computed and slept.
- Theorems {lit}`retry_eq_ok` and {lit}`retry_eq_error`: what the retries come to if the pauses
  fit: the first success, or the last error.
- Theorem {lit}`retry_overflow`: the pause before a late retry cannot be computed.

Current gaps:

- No number of seconds is infinite.
- The commit of a row that has been inserted does not fail.
-/

namespace Kraal
namespace OracleBridge

open Foundation (roundDouble roundFloat_mono roundFloat_mul_zpow ExactUpTo exactUpTo_roundDouble)

/-! ## Exceptions -/

/-- What is raised when an integer does not fit a float. -/
def intTooLarge : Failure :=
  ⟨"OverflowError", "int too large to convert to float"⟩

/-- What is raised when a pause does not fit the clock. -/
def timestampOutOfRange : Failure :=
  ⟨"OverflowError", "timestamp out of range for platform time_t"⟩

/-- What is raised when the end of a pause does not fit the clock. -/
def invalidArgument : Failure :=
  ⟨"OSError", "[Errno 22] Invalid argument"⟩

/-! ## Retries -/

/-- How often a call is retried, and how long the pauses are. -/
structure RetryConfig where
  maxRetries : Nat := 3
  baseDelaySeconds : ℚ := 1
  maxDelaySeconds : ℚ := 60
  jitterFactor : ℚ := 1 / 10

/-- A random number of the unit interval. -/
abbrev UnitSample := { r : ℚ // 0 ≤ r ∧ r ≤ 1 }

/-- A random number between two others. -/
def uniform (a b : ℚ) (sample : UnitSample) : ℚ :=
  roundDouble (a + roundDouble (roundDouble (b - a) * sample.val))

/-- The pause after an attempt.  The power of two is converted to a float before the pause is
capped. -/
def computeBackoff (attempt : Nat) (config : RetryConfig) (sample : UnitSample) :
    Except Failure ℚ :=
  if attempt < 1024 then
    let delay := min (roundDouble (config.baseDelaySeconds * 2 ^ attempt)) config.maxDelaySeconds
    let jitter := roundDouble (delay * config.jitterFactor)
    .ok (max 0 (roundDouble (delay + uniform (-jitter) jitter sample)))
  else .error intTooLarge

/-- The nanoseconds that the monotonic clock shows.  It has run for less than a century. -/
abbrev MonotonicTime := { t : Nat // t < 2 ^ 62 }

/-- A number of seconds in nanoseconds, rounded up. -/
def nanoseconds (seconds : ℚ) : Int :=
  ⌈roundDouble (seconds * 10 ^ 9)⌉

/-- A pause and its end have to fit the nanoseconds of the clock. -/
def sleep (monotonic : MonotonicTime) (seconds : ℚ) : Except Failure Unit :=
  if 2 ^ 63 ≤ nanoseconds seconds then .error timestampOutOfRange
  else if 2 ^ 63 ≤ monotonic.val + nanoseconds seconds then .error invalidArgument
  else .ok ()

/-- What a pause meets: the random number of its jitter, and the time when it begins. -/
structure PauseInput where
  sample : UnitSample
  monotonic : MonotonicTime

/-- The pause between an attempt and the next. -/
def pause (config : RetryConfig) (pauses : Nat → PauseInput) (attempt : Nat) :
    Except Failure Unit := do
  let delay ← computeBackoff attempt config (pauses attempt).sample
  sleep (pauses attempt).monotonic delay

section Retry

variable {α : Type} (fn : Nat → Except Failure α) (config : RetryConfig)
  (pauses : Nat → PauseInput)

/-- The attempts from one of them on, with the retries that are left. -/
def retryFrom : Nat → Nat → Except Failure α
  | attempt, 0 => fn attempt
  | attempt, remaining + 1 =>
      match fn attempt with
      | .ok result => .ok result
      | .error _ => do
          pause config pauses attempt
          retryFrom (attempt + 1) remaining

/-- Call until it succeeds or no retries are left.  The last exception is raised again. -/
def retry : Except Failure α :=
  retryFrom fn config pauses 0 config.maxRetries

end Retry

/-! ## Degraded mode -/

/-- The failures in a row, and the last good price. -/
structure DegradedModeState where
  consecutiveFailuresThreshold : Int
  stalenessWindowSeconds : ℚ
  consecutiveFailures : Nat := 0
  degraded : Bool := false
  goodPrice : Option Int := none
  lastGoodTimestamp : ℚ := 0

namespace DegradedModeState

/-- The last good price, while it is recent. -/
def lastKnownGoodPrice (state : DegradedModeState) (now : ℚ) : Option Int :=
  state.goodPrice.filter fun _ =>
    roundDouble (now - state.lastGoodTimestamp) ≤ state.stalenessWindowSeconds

/-- A success ends degraded mode and is remembered. -/
def recordSuccess (state : DegradedModeState) (price : Int) (now : ℚ) : DegradedModeState :=
  { state with
    consecutiveFailures := 0
    degraded := false
    goodPrice := some price
    lastGoodTimestamp := now }

/-- A failure is counted, and at the threshold degraded mode begins. -/
def recordFailure (state : DegradedModeState) : DegradedModeState :=
  { state with
    consecutiveFailures := state.consecutiveFailures + 1
    degraded := state.degraded ||
      decide (state.consecutiveFailuresThreshold ≤ state.consecutiveFailures + 1) }

/-- End degraded mode by hand. -/
def exitDegraded (state : DegradedModeState) : DegradedModeState :=
  { state with degraded := false, consecutiveFailures := 0 }

end DegradedModeState

/-! ## The dead-letter queue -/

/-- A row of the dead-letter queue. -/
structure DLQEntry where
  id : Nat
  feedId : String
  payloadJson : String
  errorMessage : String
  attemptCount : Nat := 0
  createdAt : String
  replayed : Bool := false
  replayedAt : Option String := none
deriving DecidableEq, Repr

/-- The row after a replay has been marked, if it is the one that is meant. -/
def DLQEntry.mark (entryId : Nat) (now : String) (row : DLQEntry) : DLQEntry :=
  if row.id = entryId then { row with replayed := true, replayedAt := some now } else row

/-- Marking an entry leaves its id alone. -/
@[simp]
theorem DLQEntry.mark_id (entryId : Nat) (now : String) (row : DLQEntry) :
    (row.mark entryId now).id = row.id := by
  unfold mark
  split <;> rfl

/-- The table of failed submissions, in the order of insertion.  An id is never given twice, not
even that of a deleted row. -/
structure DeadLetterQueue where
  rows : List DLQEntry
  sequence : Nat
  ids_nodup : (rows.map fun row => row.id).Nodup
  ids_le : ∀ row ∈ rows, row.id ≤ sequence

namespace DeadLetterQueue

variable (queue : DeadLetterQueue)

/-- The queue before its first entry. -/
def empty : DeadLetterQueue :=
  ⟨[], 0, List.nodup_nil, fun _ h => absurd h List.not_mem_nil⟩

/-- A new id is new. -/
theorem ids_nodup_append (entry : DLQEntry) (h : entry.id = queue.sequence + 1) :
    ((queue.rows ++ [entry]).map fun row => row.id).Nodup := by
  rw [List.map_append, List.nodup_append]
  refine ⟨queue.ids_nodup, List.nodup_singleton _, ?_⟩
  intro a ha b hb
  obtain ⟨row, hrow, rfl⟩ := List.mem_map.mp ha
  have hle := queue.ids_le row hrow
  rw [List.map_singleton, List.mem_singleton] at hb
  omega

/-- A new id is the last one that was taken. -/
theorem ids_le_append (entry : DLQEntry) (h : entry.id = queue.sequence + 1) :
    ∀ row ∈ queue.rows ++ [entry], row.id ≤ queue.sequence + 1 := by
  intro row hrow
  rcases List.mem_append.mp hrow with hrow | hrow
  · exact Nat.le_succ_of_le (queue.ids_le row hrow)
  · rw [List.mem_singleton.mp hrow, h]

/-- Insert a row under the next id. -/
def insert (entry : DLQEntry) (h : entry.id = queue.sequence + 1) : DeadLetterQueue where
  rows := queue.rows ++ [entry]
  sequence := queue.sequence + 1
  ids_nodup := queue.ids_nodup_append entry h
  ids_le := queue.ids_le_append entry h

/-- Insert a failed submission, and return its id, unless the database raises something: a text
cannot be encoded, or another process has locked the file. -/
def enqueue (feedId payloadJson errorMessage : String) (attemptCount : Nat) (now : String)
    (insertError : Option Failure) : Except Failure Nat × DeadLetterQueue :=
  match insertError with
  | some exc => (.error exc, queue)
  | none =>
      let entry : DLQEntry := ⟨queue.sequence + 1, feedId, payloadJson, errorMessage, attemptCount,
        now, false, none⟩
      (.ok entry.id, queue.insert entry rfl)

/-- The rows that have not been replayed, oldest first. -/
def listUnreplayed : List DLQEntry :=
  (queue.rows.filter fun row => !row.replayed).insertionSort fun a b => a.createdAt ≤ b.createdAt

/-- Marking an entry leaves all ids alone. -/
theorem mark_ids (entryId : Nat) (now : String) :
    ((queue.rows.map (DLQEntry.mark entryId now)).map fun row => row.id) =
      queue.rows.map fun row => row.id := by
  rw [List.map_map]
  exact List.map_congr_left fun row _ => row.mark_id entryId now

/-- No id comes twice after marking an entry. -/
theorem mark_ids_nodup (entryId : Nat) (now : String) :
    ((queue.rows.map (DLQEntry.mark entryId now)).map fun row => row.id).Nodup := by
  rw [mark_ids]
  exact queue.ids_nodup

/-- No id is larger after marking an entry. -/
theorem mark_ids_le (entryId : Nat) (now : String) :
    ∀ row ∈ queue.rows.map (DLQEntry.mark entryId now), row.id ≤ queue.sequence := by
  intro row h
  obtain ⟨old, hold, rfl⟩ := List.mem_map.mp h
  rw [DLQEntry.mark_id]
  exact queue.ids_le old hold

/-- Mark an entry as replayed. -/
def markReplayed (entryId : Nat) (now : String) : DeadLetterQueue where
  rows := queue.rows.map (DLQEntry.mark entryId now)
  sequence := queue.sequence
  ids_nodup := queue.mark_ids_nodup entryId now
  ids_le := queue.mark_ids_le entryId now

/-- The number of rows that have not been replayed. -/
def countUnreplayed : Nat :=
  queue.rows.countP fun row => !row.replayed

/-- Whether the row of an id has been replayed. -/
def status (id : Nat) : Option Bool :=
  (queue.rows.find? fun row => row.id = id).map fun row => row.replayed

end DeadLetterQueue

/-! ## Rows of the queue -/

namespace DeadLetterQueue

variable {queue : DeadLetterQueue} {id : Nat}

/-- An entry is found under its id. -/
theorem id_of_find {rows : List DLQEntry} {row : DLQEntry}
    (h : rows.find? (fun row => row.id = id) = some row) : row.id = id := by
  simpa using List.find?_some h

/-- The status of an entry of the queue. -/
theorem status_of_mem {row : DLQEntry} (h : row ∈ queue.rows) :
    queue.status row.id = some row.replayed := by
  have hsome : (queue.rows.find? fun r => r.id = row.id).isSome = true := by
    rw [List.find?_isSome]
    exact ⟨row, h, decide_eq_true rfl⟩
  obtain ⟨found, hfound⟩ := Option.isSome_iff_exists.mp hsome
  have hsame : found = row :=
    List.inj_on_of_nodup_map queue.ids_nodup (List.mem_of_find?_eq_some hfound) h
      (id_of_find hfound)
  rw [status, hfound, hsame]
  rfl

/-- Which entries are listed. -/
theorem mem_listUnreplayed {row : DLQEntry} :
    row ∈ queue.listUnreplayed ↔ row ∈ queue.rows ∧ row.replayed = false := by
  rw [listUnreplayed, List.mem_insertionSort, List.mem_filter, Bool.not_eq_true']

/-- The ids of the rows that are listed are distinct. -/
theorem listUnreplayed_ids_nodup (queue : DeadLetterQueue) :
    (queue.listUnreplayed.map fun row => row.id).Nodup := by
  have hperm := (List.perm_insertionSort (fun a b : DLQEntry => a.createdAt ≤ b.createdAt)
    (queue.rows.filter fun row => !row.replayed)).map fun row => row.id
  rw [listUnreplayed, hperm.nodup_iff]
  exact queue.ids_nodup.sublist (List.filter_sublist.map _)

/-- A new row does not hide an old one. -/
theorem status_enqueue {replayed : Bool} (h : queue.status id = some replayed)
    (feedId payloadJson errorMessage : String) (attemptCount : Nat) (now : String)
    (insertError : Option Failure) :
    (queue.enqueue feedId payloadJson errorMessage attemptCount now insertError).2.status id =
      some replayed := by
  cases insertError with
  | some exc => exact h
  | none =>
      obtain ⟨row, hrow, hreplayed⟩ := Option.map_eq_some_iff.mp h
      rw [status, enqueue, insert, List.find?_append, hrow, Option.some_or]
      exact congrArg some hreplayed

/-- Enqueueing an entry adds one to be replayed. -/
theorem countUnreplayed_enqueue (feedId payloadJson errorMessage : String) (attemptCount : Nat)
    (now : String) (insertError : Option Failure) :
    (queue.enqueue feedId payloadJson errorMessage attemptCount now insertError).2.countUnreplayed =
      queue.countUnreplayed + if insertError = none then 1 else 0 := by
  cases insertError with
  | some exc => rfl
  | none =>
      rw [countUnreplayed, enqueue, insert, List.countP_append]
      rfl

/-- Marking a row changes no other row. -/
theorem status_markReplayed (entryId : Nat) (now : String) :
    (queue.markReplayed entryId now).status id =
      if id = entryId then (queue.status id).map fun _ => true else queue.status id := by
  have hids : (fun row : DLQEntry => decide (row.id = id)) ∘ DLQEntry.mark entryId now =
      fun row => decide (row.id = id) := by
    funext row
    simp only [Function.comp_apply, DLQEntry.mark_id]
  rw [status, markReplayed, List.find?_map, hids, status]
  cases hfind : queue.rows.find? fun row => row.id = id with
  | none => simp
  | some row =>
      have hid : row.id = id := id_of_find hfind
      simp only [Option.map_some, DLQEntry.mark, hid]
      split <;> rfl

/-- Marking an entry leaves one less to be replayed. -/
theorem countP_mark {rows : List DLQEntry} {row : DLQEntry} (now : String)
    (hnodup : (rows.map fun row => row.id).Nodup) (hrow : row ∈ rows)
    (hreplayed : row.replayed = false) :
    (rows.map (DLQEntry.mark row.id now)).countP (fun r => !r.replayed) + 1 =
      rows.countP fun r => !r.replayed := by
  induction rows with
  | nil => cases hrow
  | cons first rows ih =>
      rw [List.map_cons, List.nodup_cons] at hnodup
      rw [List.map_cons, List.countP_cons, List.countP_cons]
      rcases List.mem_cons.mp hrow with rfl | hrest
      · -- the ids of the other rows differ, so none of them is marked
        have hothers : ∀ other ∈ rows, DLQEntry.mark row.id now other = other := by
          intro other hother
          apply if_neg
          intro heq
          exact hnodup.1 (heq ▸ List.mem_map_of_mem hother)
        rw [List.map_congr_left hothers, List.map_id']
        simp [DLQEntry.mark, hreplayed]
      · have hne : first.id ≠ row.id := by
          intro heq
          exact hnodup.1 (heq ▸ List.mem_map_of_mem hrest)
        have hrest' := ih hnodup.2 hrest
        simp only [DLQEntry.mark, if_neg hne] at hrest' ⊢
        omega

/-- Marking an entry leaves one less to be replayed. -/
theorem countUnreplayed_markReplayed {entryId : Nat} (h : queue.status entryId = some false)
    (now : String) :
    (queue.markReplayed entryId now).countUnreplayed + 1 = queue.countUnreplayed := by
  obtain ⟨row, hfind, hreplayed⟩ := Option.map_eq_some_iff.mp h
  have hid : row.id = entryId := id_of_find hfind
  subst hid
  exact countP_mark now queue.ids_nodup (List.mem_of_find?_eq_some hfind) hreplayed

end DeadLetterQueue

/-! ## Pauses -/

section Pauses

variable {config : RetryConfig} {pauses : Nat → PauseInput} {attempt : Nat}

/-- From the 1024th attempt on the power is too large for a double. -/
theorem computeBackoff_overflow (h : 1024 ≤ attempt) (sample : UnitSample) :
    computeBackoff attempt config sample = .error intTooLarge :=
  if_neg (Nat.not_lt.mpr h)

/-- A random number below a bound and its opposite is at most twice the bound. -/
theorem uniform_le {cap : ℕ} {jitter : ℚ} (hcap : 2 * cap < 2 ^ 53) (hnonneg : 0 ≤ jitter)
    (hle : jitter ≤ cap) (sample : UnitSample) : uniform (-jitter) jitter sample ≤ 2 * cap := by
  have hround := exactUpTo_roundDouble hcap
  have hspread : roundDouble (jitter - -jitter) ≤ (2 * cap : ℕ) := by
    apply hround.le_natCast le_rfl
    push_cast
    linarith
  have hspread' : 0 ≤ roundDouble (jitter - -jitter) := hround.nonneg (by linarith)
  have hscaled : roundDouble (jitter - -jitter) * sample.val ≤ (2 * cap : ℕ) :=
    (mul_le_of_le_one_right hspread' sample.property.2).trans hspread
  have hsum : -jitter + roundDouble (roundDouble (jitter - -jitter) * sample.val) ≤
      (2 * cap : ℕ) := by
    have hrounded := hround.le_natCast le_rfl hscaled
    linarith
  unfold uniform
  exact_mod_cast hround.le_natCast le_rfl hsum

/-- A pause is at most three times its cap. -/
theorem computeBackoff_le {cap : ℕ} {sample : UnitSample} {delay : ℚ} (hcap : 3 * cap < 2 ^ 53)
    (hbase : 0 ≤ config.baseDelaySeconds) (hmax : 0 ≤ config.maxDelaySeconds)
    (hmax' : config.maxDelaySeconds ≤ cap) (hjitter : 0 ≤ config.jitterFactor)
    (hjitter' : config.jitterFactor ≤ 1)
    (h : computeBackoff attempt config sample = .ok delay) : delay ≤ 3 * cap := by
  have hround := exactUpTo_roundDouble hcap
  unfold computeBackoff at h
  split at h
  · rw [← Except.ok.inj h]
    have hcapped := (min_le_right (roundDouble (config.baseDelaySeconds * 2 ^ attempt))
      config.maxDelaySeconds).trans hmax'
    have hnonneg : 0 ≤ min (roundDouble (config.baseDelaySeconds * 2 ^ attempt))
        config.maxDelaySeconds := le_min (hround.nonneg (by positivity)) hmax
    generalize min (roundDouble (config.baseDelaySeconds * 2 ^ attempt))
      config.maxDelaySeconds = capped at *
    have hspread : roundDouble (capped * config.jitterFactor) ≤ cap :=
      hround.le_natCast (by omega) ((mul_le_of_le_one_right hnonneg hjitter').trans hcapped)
    have huniform := uniform_le (by omega) (hround.nonneg (mul_nonneg hnonneg hjitter)) hspread
      sample
    refine max_le (by positivity) ?_
    have hsum : capped + uniform (-roundDouble (capped * config.jitterFactor))
        (roundDouble (capped * config.jitterFactor)) sample ≤ (3 * cap : ℕ) := by
      push_cast
      linarith
    exact_mod_cast hround.le_natCast le_rfl hsum
  · cases h

/-- A pause within the bound has few enough nanoseconds. -/
theorem nanoseconds_le {seconds : ℚ} (h : seconds * 10 ^ 9 ≤ 2 ^ 62) :
    nanoseconds seconds ≤ 2 ^ 62 := by
  have hkept : roundDouble (2 ^ 62) = 2 ^ 62 := by
    have hpower := @roundFloat_mul_zpow 53 1 (by decide) 62
    rwa [Int.cast_one, one_mul] at hpower
  apply Int.ceil_le.mpr
  push_cast
  exact (roundFloat_mono (by decide) h).trans_eq hkept

/-- A pause is slept when the clock can reach its end. -/
theorem sleep_eq_ok {monotonic : MonotonicTime} {seconds : ℚ} :
    sleep monotonic seconds = .ok () ↔ monotonic.val + nanoseconds seconds < 2 ^ 63 := by
  unfold sleep
  split
  · rename_i h
    exact iff_of_false (fun h' => by cases h') (by omega)
  · split
    · rename_i h
      exact iff_of_false (fun h' => by cases h') (not_lt.mpr h)
    · rename_i h
      exact iff_of_true rfl (not_le.mp h)

/-- The pause after an attempt can be computed, and its end fits the clock. -/
def PauseFits (config : RetryConfig) (pauses : Nat → PauseInput) (attempt : Nat) : Prop :=
  attempt < 1024 ∧ ∀ delay, computeBackoff attempt config (pauses attempt).sample = .ok delay →
    (pauses attempt).monotonic.val + nanoseconds delay < 2 ^ 63

/-- A pause is made exactly if it fits. -/
theorem pause_eq_ok :
    pause config pauses attempt = .ok () ↔ PauseFits config pauses attempt := by
  unfold pause PauseFits
  cases hdelay : computeBackoff attempt config (pauses attempt).sample with
  | error exc =>
      have hlate : ¬ attempt < 1024 := by
        intro hearly
        simp [computeBackoff, hearly] at hdelay
      exact iff_of_false (fun h => by cases h) fun h => hlate h.1
  | ok delay =>
      have hearly : attempt < 1024 := by
        by_contra hlate
        simp [computeBackoff, hlate] at hdelay
      constructor
      · intro h
        refine ⟨hearly, fun delay' h' => ?_⟩
        rw [← Except.ok.inj h']
        exact sleep_eq_ok.mp h
      · intro h
        exact sleep_eq_ok.mpr (h.2 delay rfl)

/-- From the 1024th attempt on there is no pause. -/
theorem pause_overflow (h : 1024 ≤ attempt) :
    pause config pauses attempt = .error intTooLarge := by
  unfold pause
  rw [computeBackoff_overflow h]
  rfl

end Pauses

/-! ## What the retries come to -/

section Retry

variable {α : Type} {fn : Nat → Except Failure α} {config : RetryConfig}
  {pauses : Nat → PauseInput}

/-- An attempt that does not succeed fails. -/
theorem exists_error_of_not_isOk {outcome : Except Failure α} (h : outcome.isOk = false) :
    ∃ exc, outcome = .error exc := by
  cases outcome with
  | error exc => exact ⟨exc, rfl⟩
  | ok result => cases h

/-- All attempts fail. -/
def Exhausted (fn : Nat → Except Failure α) (maxRetries : Nat) : Prop :=
  ∀ k ≤ maxRetries, (fn k).isOk = false

instance (fn : Nat → Except Failure α) (maxRetries : Nat) :
    Decidable (Exhausted fn maxRetries) :=
  inferInstanceAs (Decidable (∀ k ≤ maxRetries, (fn k).isOk = false))

/-- The first attempt that does not fail returns this result. -/
def FirstSuccess (fn : Nat → Except Failure α) (maxRetries : Nat) (result : α) : Prop :=
  ∃ k ≤ maxRetries, fn k = .ok result ∧ ∀ j < k, (fn j).isOk = false

/-- After every failed attempt that is followed by another, the pause fits. -/
def BackoffFits (fn : Nat → Except Failure α) (config : RetryConfig)
    (pauses : Nat → PauseInput) : Prop :=
  ∀ k < config.maxRetries, (∀ j ≤ k, (fn j).isOk = false) → PauseFits config pauses k

/-- Either all attempts fail, or one of them is the first that does not. -/
theorem exhausted_or_firstSuccess (fn : Nat → Except Failure α) (maxRetries : Nat) :
    Exhausted fn maxRetries ∨ ∃ result, FirstSuccess fn maxRetries result := by
  by_cases h : ∃ k, k ≤ maxRetries ∧ (fn k).isOk = true
  · obtain ⟨hle, hok⟩ := Nat.find_spec h
    cases hresult : fn (Nat.find h) with
    | error exc => rw [hresult] at hok; cases hok
    | ok result =>
        refine .inr ⟨result, Nat.find h, hle, hresult, ?_⟩
        intro j hj
        have hmin := Nat.find_min h hj
        rw [← Bool.not_eq_true]
        exact fun hj' => hmin ⟨by omega, hj'⟩
  · left
    intro k hk
    rw [← Bool.not_eq_true]
    exact fun hok => h ⟨k, hk, hok⟩

/-- Attempts that succeed are not exhausted. -/
theorem FirstSuccess.not_exhausted {maxRetries : Nat} {result : α}
    (h : FirstSuccess fn maxRetries result) : ¬ Exhausted fn maxRetries := by
  rcases h with ⟨k, hle, hok, -⟩
  intro hall
  have hfails := hall k hle
  rw [hok] at hfails
  cases hfails

/-- Failed attempts with a pause after each of them are passed over. -/
theorem retryFrom_skip {k remaining : Nat} (attempt : Nat) (hle : k ≤ remaining)
    (hfails : ∀ j < k, (fn (attempt + j)).isOk = false)
    (hpause : ∀ j < k, pause config pauses (attempt + j) = .ok ()) :
    retryFrom fn config pauses attempt remaining =
      retryFrom fn config pauses (attempt + k) (remaining - k) := by
  induction k generalizing attempt remaining with
  | zero => rfl
  | succ k ih =>
      obtain ⟨rest, rfl⟩ : ∃ rest, remaining = rest + 1 := ⟨remaining - 1, by omega⟩
      obtain ⟨exc, hexc⟩ := exists_error_of_not_isOk (hfails 0 (Nat.succ_pos k))
      have hfirst := hpause 0 (Nat.succ_pos k)
      rw [Nat.add_zero] at hexc hfirst
      have hnext : retryFrom fn config pauses attempt (rest + 1) =
          retryFrom fn config pauses (attempt + 1) rest := by
        rw [retryFrom, hexc]
        simp only [hfirst]
        rfl
      rw [hnext, ih (attempt + 1) (Nat.le_of_succ_le_succ hle)]
      · rw [Nat.add_right_comm, Nat.add_assoc, Nat.add_sub_add_right]
      · intro j hj
        rw [Nat.add_right_comm, Nat.add_assoc]
        exact hfails (j + 1) (by omega)
      · intro j hj
        rw [Nat.add_right_comm, Nat.add_assoc]
        exact hpause (j + 1) (by omega)

/-- An attempt that succeeds is the last one. -/
theorem retryFrom_of_ok {attempt : Nat} {result : α} (h : fn attempt = .ok result)
    (remaining : Nat) : retryFrom fn config pauses attempt remaining = .ok result := by
  cases remaining with
  | zero => exact h
  | succ remaining => rw [retryFrom, h]

/-- The pauses between attempts are slept. -/
theorem BackoffFits.pause {k : Nat} (h : BackoffFits fn config pauses)
    (hk : k < config.maxRetries) (hfails : ∀ j ≤ k, (fn j).isOk = false) :
    pause config pauses k = .ok () :=
  pause_eq_ok.mpr (h k hk hfails)

/-- After some attempts that fail the rest of them is left. -/
theorem retry_skip {k : Nat} (hle : k ≤ config.maxRetries)
    (hfails : ∀ j < k, (fn j).isOk = false)
    (hpause : ∀ j < k, pause config pauses j = .ok ()) :
    retry fn config pauses = retryFrom fn config pauses k (config.maxRetries - k) := by
  have hskip := retryFrom_skip 0 hle
    (fun j hj => by rw [Nat.zero_add]; exact hfails j hj)
    (fun j hj => by rw [Nat.zero_add]; exact hpause j hj)
  rw [Nat.zero_add] at hskip
  exact hskip

/-- Pauses with a bounded cap can be made after the first 1024 attempts. -/
theorem pause_of_bounded {attempt : Nat} (cap : Nat) (hearly : attempt < 1024)
    (hbase : 0 ≤ config.baseDelaySeconds) (hmax : 0 ≤ config.maxDelaySeconds)
    (hmax' : config.maxDelaySeconds ≤ cap) (hjitter : 0 ≤ config.jitterFactor)
    (hjitter' : config.jitterFactor ≤ 1) (hcap : 3 * cap * 10 ^ 9 ≤ 2 ^ 62) :
    pause config pauses attempt = .ok () := by
  rw [pause_eq_ok]
  refine ⟨hearly, fun delay hdelay => ?_⟩
  have hle := computeBackoff_le (by omega) hbase hmax hmax' hjitter hjitter' hdelay
  have hclock := (pauses attempt).monotonic.property
  have hdelay' : nanoseconds delay ≤ 2 ^ 62 := by
    apply nanoseconds_le
    calc delay * 10 ^ 9
        ≤ 3 * cap * 10 ^ 9 := mul_le_mul_of_nonneg_right hle (by positivity)
      _ ≤ 2 ^ 62 := by exact_mod_cast hcap
  omega

/-- With a bounded cap and not too many retries all pauses fit. -/
theorem BackoffFits.of_bounded (cap : Nat) (hfew : config.maxRetries ≤ 1024)
    (hbase : 0 ≤ config.baseDelaySeconds) (hmax : 0 ≤ config.maxDelaySeconds)
    (hmax' : config.maxDelaySeconds ≤ cap) (hjitter : 0 ≤ config.jitterFactor)
    (hjitter' : config.jitterFactor ≤ 1) (hcap : 3 * cap * 10 ^ 9 ≤ 2 ^ 62) :
    BackoffFits fn config pauses := by
  intro k hk _
  exact pause_eq_ok.mp (pause_of_bounded cap (by omega) hbase hmax hmax' hjitter hjitter' hcap)

/-- The attempts before one of them are passed over if they fail and their pauses fit. -/
theorem BackoffFits.retry_skip {k : Nat} (h : BackoffFits fn config pauses)
    (hle : k ≤ config.maxRetries) (hfails : ∀ j < k, (fn j).isOk = false) :
    retry fn config pauses = retryFrom fn config pauses k (config.maxRetries - k) := by
  apply OracleBridge.retry_skip hle hfails
  intro j hj
  exact h.pause (by omega) fun i hi => hfails i (by omega)

/-- The first success is returned. -/
theorem retry_eq_ok {result : α} (hfits : BackoffFits fn config pauses)
    (h : FirstSuccess fn config.maxRetries result) : retry fn config pauses = .ok result := by
  rcases h with ⟨k, hle, hok, hfails⟩
  rw [hfits.retry_skip hle hfails]
  exact retryFrom_of_ok hok _

/-- If all attempts fail, the retries come to what the last one raises. -/
theorem retry_eq_error (hfits : BackoffFits fn config pauses)
    (h : Exhausted fn config.maxRetries) :
    retry fn config pauses = fn config.maxRetries := by
  rw [hfits.retry_skip (Nat.le_refl _) fun j hj => h j (Nat.le_of_lt hj), Nat.sub_self]
  rfl

/-- If the first 1025 attempts fail and more are allowed, the power of two is too large. -/
theorem retry_overflow (hmany : 1024 < config.maxRetries)
    (hfails : ∀ j ≤ 1024, (fn j).isOk = false)
    (hpause : ∀ j < 1024, pause config pauses j = .ok ()) :
    retry fn config pauses = .error intTooLarge := by
  have hskip := retry_skip (Nat.le_of_lt hmany) (fun j hj => hfails j (Nat.le_of_lt hj)) hpause
  obtain ⟨rest, hrest⟩ : ∃ rest, config.maxRetries - 1024 = rest + 1 :=
    ⟨config.maxRetries - 1025, by omega⟩
  obtain ⟨exc, hexc⟩ := exists_error_of_not_isOk (hfails 1024 (Nat.le_refl _))
  rw [hskip, hrest, retryFrom, hexc]
  simp only [pause_overflow (Nat.le_refl 1024)]
  rfl

end Retry

end OracleBridge
end Kraal
