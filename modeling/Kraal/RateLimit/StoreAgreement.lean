import Kraal.RateLimit.Memory
import Kraal.RateLimit.Middleware
import Kraal.RateLimit.Redis

/-!
# The two stores count alike

Both stores return the number of arrivals in the current window and in the one before.  Memory
forgets the entry of a bucket that has been idle, and Redis forgets a counter after two windows.
Neither happens while the count still matters, as long as two windows are not longer than the
time after which an idle entry is swept.

Main results:

- Definition {lit}`arrivalCounts`: the counts of an arrival among those before it.
- Theorems {lit}`outcomes_memory` and {lit}`outcomes_redis`: each store returns these counts.
- Theorem {lit}`stores_agree`: the stores return the same counts at every call.
-/

namespace Kraal
namespace RateLimit

open Foundation
open SlidingWindow (inWindow Tracks)

/-! ## Calls -/

/-- A call of a store for a bucket at a time. -/
structure Call where
  bucket : String
  now : Int
deriving DecidableEq, Repr

/-- What a store does with one call after the other, when no command of Redis fails. -/
def outcomes (store : RateLimitStore) (windows : String → WindowSeconds) (w : Stores) :
    List Call → List (Exit Unit WindowCounts)
  | [] => []
  | call :: calls =>
      (store call.bucket (windows call.bucket) call.now [] w).1 ::
        outcomes store windows (store call.bucket (windows call.bucket) call.now [] w).2.2 calls

/-- The times of the calls for a bucket. -/
def times (past : List Call) (bucket : String) : List Int :=
  (past.filter fun call => call.bucket = bucket).map Call.now

/-- The counts of an arrival among those before it. -/
def arrivalCounts (windows : String → WindowSeconds) (past : List Call) (call : Call) :
    WindowCounts where
  currentCount := inWindow (windows call.bucket).1 (times past call.bucket)
    (call.now / (windows call.bucket).1) + 1
  previousCount := inWindow (windows call.bucket).1 (times past call.bucket)
    (call.now / (windows call.bucket).1 - 1)
  windowStart := call.now / (windows call.bucket).1 * (windows call.bucket).1

/-- The counts of one arrival after the other. -/
def arrivalOutcomes (windows : String → WindowSeconds) (past : List Call) :
    List Call → List (Exit Unit WindowCounts)
  | [] => []
  | call :: calls =>
      .returned (arrivalCounts windows past call) ::
        arrivalOutcomes windows (past ++ [call]) calls

variable {windows : String → WindowSeconds} {past calls : List Call} {call : Call} {now : Int}
  {w : Stores}

theorem times_append_self (past : List Call) (call : Call) :
    times (past ++ [call]) call.bucket = times past call.bucket ++ [call.now] := by
  simp [times]

theorem times_append_of_ne (past : List Call) {call : Call} {bucket : String}
    (h : call.bucket ≠ bucket) : times (past ++ [call]) bucket = times past bucket := by
  simp [times, h]

/-! ## Memory -/

/-- The entry of a bucket has the counts of its arrivals. -/
structure MemoryTracks (W : WindowSeconds) (bucket : String) (ts : List Int) (now : Int)
    (memory : InMemoryRateLimitStore) : Prop extends Dated W bucket ts now memory where
  tracks : Tracks W.1 ts now (memory.counters bucket)

/-- Every entry has the counts of the arrivals of its bucket. -/
def MemoryExact (windows : String → WindowSeconds) (past : List Call) (now : Int)
    (memory : InMemoryRateLimitStore) : Prop :=
  ∀ bucket, MemoryTracks (windows bucket) bucket (times past bucket) now memory

theorem memoryExact_empty (windows : String → WindowSeconds) (now : Int) :
    MemoryExact windows [] now ⟨Storage.empty⟩ :=
  fun _ => ⟨dated_empty _ _ _, SlidingWindow.tracks_nil _ _⟩

/-- A call in memory. -/
theorem MemoryExact.increment {memory : InMemoryRateLimitStore}
    (h : MemoryExact windows past now memory) (hwindows : ∀ bucket, (windows bucket).1 ≤ 150)
    (hnow : now ≤ call.now) :
    (memory.increment call.bucket (windows call.bucket) call.now).1 =
        arrivalCounts windows past call ∧
      MemoryExact windows (past ++ [call]) call.now
        (memory.increment call.bucket (windows call.bucket) call.now).2 := by
  have hdated := fun bucket => (h bucket).toDated.later hnow
  have htracks := fun bucket => (h bucket).tracks.later hnow
  constructor
  · rw [(hdated call.bucket).increment_fst, (htracks call.bucket).exact _ le_rfl]
    rfl
  · intro bucket
    by_cases hbucket : call.bucket = bucket
    · subst hbucket
      rw [times_append_self]
      refine ⟨(hdated call.bucket).increment fun s hs => (List.mem_singleton.mp hs).le, ?_⟩
      rw [(hdated call.bucket).counters_increment]
      exact (htracks call.bucket).count (windows call.bucket).2
    · rw [times_append_of_ne past hbucket]
      refine ⟨(hdated bucket).increment_of_ne hbucket _, ?_⟩
      unfold InMemoryRateLimitStore.counters
      rcases get_increment_of_ne memory (Ne.symm hbucket) (windows call.bucket) call.now with
        hget | ⟨hget, entry, hentry, hidle⟩
      · rw [hget]
        exact htracks bucket
      · -- what has been idle for so long lies two windows back
        rw [hget]
        have hwindow := hwindows bucket
        simp only [sweepIdleSeconds] at hidle
        exact Tracks.forget (windows bucket).2 ((hdated bucket).seen entry hentry) (by omega)

/-- The store in memory returns the counts of the arrivals. -/
theorem outcomes_memory (hwindows : ∀ bucket, (windows bucket).1 ≤ 150)
    (hsorted : calls.Pairwise fun a b => a.now ≤ b.now) (hafter : ∀ call ∈ calls, now ≤ call.now)
    (h : MemoryExact windows past now w.memory) :
    outcomes memoryIncrement windows w calls = arrivalOutcomes windows past calls := by
  induction calls generalizing past now w with
  | nil => rfl
  | cons call calls ih =>
      rw [List.pairwise_cons] at hsorted
      have hcall := h.increment hwindows (hafter call List.mem_cons_self)
      have hrest := ih (w := { w with
        memory := (w.memory.increment call.bucket (windows call.bucket) call.now).2 })
        hsorted.2 hsorted.1 hcall.2
      rw [arrivalOutcomes, ← hcall.1, ← hrest]
      rfl

/-! ## Redis -/

/-- Redis has the counts of the arrivals of every bucket. -/
def RedisExact (windows : String → WindowSeconds) (past : List Call) (redis : Redis) : Prop :=
  ∀ bucket, Keeps (windows bucket) bucket (inWindow (windows bucket).1 (times past bucket)) redis

theorem redisExact_empty (windows : String → WindowSeconds) :
    RedisExact windows [] ⟨Storage.empty⟩ :=
  fun _ => keeps_empty _ _

theorem bump_inWindow (W : Int) (ts : List Int) (now : Int) :
    bump (inWindow W ts) (now / W) = inWindow W (ts ++ [now]) := by
  funext k
  by_cases hk : now / W = k
  · simp [bump, hk]
  · have hne : k ≠ now / W := fun h => hk h.symm
    simp [bump, hk, hne]

/-- A call in Redis. -/
theorem RedisExact.increment (h : RedisExact windows past w.redis) (call : Call) :
    (redisIncrement call.bucket (windows call.bucket) call.now [] w).1 =
        .returned (arrivalCounts windows past call) ∧
      RedisExact windows (past ++ [call])
        (redisIncrement call.bucket (windows call.bucket) call.now [] w).2.2.redis := by
  -- no command fails without a script
  have hnever : ∀ entry ∈ ([] : List Reply), False := fun _ hentry => by cases hentry
  have hensures : Program.Ensures (fun _ => False)
      (redisIncrement call.bucket (windows call.bucket) call.now) w _ :=
    (h call.bucket).ensures_increment call.now
  have hself := (hensures [] hnever).2
  have hother : ∀ bucket, call.bucket ≠ bucket →
      Keeps (windows bucket) bucket (inWindow (windows bucket).1 (times past bucket))
        (redisIncrement call.bucket (windows call.bucket) call.now [] w).2.2.redis := by
    intro bucket hbucket
    have hensures : Program.Ensures (fun _ => False)
        (redisIncrement call.bucket (windows call.bucket) call.now) w _ :=
      (h bucket).ensures_of_ne hbucket call.now
    exact (hensures [] hnever).2.2.1
  rcases hself.2.2 with hfailed | ⟨hkeeps, hreturned⟩
  · exact absurd hfailed.2 (by simp)
  · refine ⟨hreturned, fun bucket => ?_⟩
    by_cases hbucket : call.bucket = bucket
    · subst hbucket
      rw [times_append_self, ← bump_inWindow]
      exact hkeeps
    · rw [times_append_of_ne past hbucket]
      exact hother bucket hbucket

/-- Redis returns the counts of the arrivals. -/
theorem outcomes_redis (h : RedisExact windows past w.redis) :
    outcomes redisIncrement windows w calls = arrivalOutcomes windows past calls := by
  induction calls generalizing past w with
  | nil => rfl
  | cons call calls ih =>
      have hcall := h.increment call
      rw [outcomes, arrivalOutcomes, hcall.1, ih hcall.2]

/-! ## Agreement -/

/-- The stores return the same counts at every call, if no window is longer than 150 seconds. -/
theorem stores_agree (windows : String → WindowSeconds)
    (hwindows : ∀ bucket, (windows bucket).1 ≤ 150) (calls : List Call)
    (hsorted : calls.Pairwise fun a b => a.now ≤ b.now) :
    outcomes memoryIncrement windows Stores.empty calls =
      outcomes redisIncrement windows Stores.empty calls := by
  rcases exists_start Call.now calls with ⟨start, hstart⟩
  rw [outcomes_memory hwindows hsorted hstart (memoryExact_empty windows start),
    outcomes_redis (redisExact_empty windows)]

/-- A bucket is left idle for longer than two of its windows. -/
theorem stores_agree_after_idling :
    outcomes memoryIncrement (fun _ => ⟨10, ten_seconds_pos⟩) Stores.empty
        [⟨"a", 0⟩, ⟨"a", 12⟩, ⟨"b", 15⟩, ⟨"a", 60⟩] =
      outcomes redisIncrement (fun _ => ⟨10, ten_seconds_pos⟩) Stores.empty
        [⟨"a", 0⟩, ⟨"a", 12⟩, ⟨"b", 15⟩, ⟨"a", 60⟩] :=
  stores_agree _ (fun _ => by simp) _ (by simp)

end RateLimit
end Kraal
