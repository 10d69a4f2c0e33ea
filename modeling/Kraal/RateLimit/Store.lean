import Kraal.Foundation.Double
import Kraal.Foundation.Program
import Kraal.Foundation.SlidingWindow
import Kraal.Foundation.Storage

/-!
# The counters of the rate limiter

Arrivals are counted for each bucket in fixed windows.  One store keeps the counters in memory
and sweeps those of idle buckets once there are many.  Another one keeps a counter for every
window in Redis, where it expires after two windows.  The third one asks Redis and falls back to
memory whenever a command fails.

A command of Redis may fail before it takes effect or after it, which is what the script of a
program says here.

Main results:

- Definitions {lit}`memoryIncrement`, {lit}`redisIncrement` and {lit}`failoverIncrement`: the
  three stores.
- Theorem {lit}`slidingWindowCount_eq_estimate`: without rounding, the estimate is the weighted sum
  of the counters.
- Theorem {lit}`currentCount_le`: an estimate that is within a limit bounds the current counter.

Current gaps:

- The counters are exact, as they are up to {lit}`2 ^ 53`.
-/

namespace Kraal
namespace RateLimit

open Foundation
open SlidingWindow (Counters estimate)

/-! ## Window counts -/

/-- The length of the windows of a bucket. -/
abbrev WindowSeconds := { w : Int // 0 < w }

/-- The counts of a bucket in two windows. -/
structure WindowCounts where
  currentCount : Nat
  previousCount : Nat
  windowStart : Int
deriving DecidableEq, Repr

section

variable (round : ℚ → ℚ)

/-- The weight of the window before the current one, where results are rounded. -/
def previousWeight (windowStart : Int) (windowSeconds : WindowSeconds) (now : Int) : ℚ :=
  max 0 (round (1 - round (((now - windowStart : Int) : ℚ) / windowSeconds.1)))

/-- The estimate of a sliding window: its own count, and a part of the previous one. -/
def slidingWindowCount (counts : WindowCounts) (windowSeconds : WindowSeconds) (now : Int) : ℚ :=
  round (counts.currentCount +
    round (counts.previousCount * previousWeight round counts.windowStart windowSeconds now))

end

/-- Without rounding, the estimate is the weighted sum of the counters. -/
theorem slidingWindowCount_eq_estimate (current previous : Nat) (windowSeconds : WindowSeconds)
    (now : Int) :
    slidingWindowCount id ⟨current, previous, now / windowSeconds.1 * windowSeconds.1⟩ windowSeconds
      now = estimate windowSeconds.1 current previous now := by
  have helapsed : now - now / windowSeconds.1 * windowSeconds.1 = now % windowSeconds.1 := by
    have hdiv := Int.mul_ediv_add_emod now windowSeconds.1
    rw [mul_comm] at hdiv
    omega
  have hpos := (SlidingWindow.weight_pos windowSeconds.2 now).le
  unfold SlidingWindow.weight SlidingWindow.offset at hpos
  simp only [slidingWindowCount, previousWeight, id, helapsed, max_eq_right hpos]
  rfl

section

variable {round : ℚ → ℚ} {n : Nat} {windowSeconds : WindowSeconds} {now : Int}

theorem previousWeight_nonneg (round : ℚ → ℚ) (windowStart : Int) (windowSeconds : WindowSeconds)
    (now : Int) : 0 ≤ previousWeight round windowStart windowSeconds now :=
  le_max_left _ _

/-- When a window starts, the one before it weighs in fully. -/
theorem previousWeight_self (h : ExactUpTo round (n + 1)) (windowSeconds : WindowSeconds)
    (now : Int) : previousWeight round now windowSeconds now = 1 := by
  have hone := h.natCast 1 (Nat.le_add_left 1 n)
  rw [Nat.cast_one] at hone
  simp [previousWeight, h.zero, hone]

/-- The weight falls during a window. -/
theorem previousWeight_anti (h : Monotone round) (windowStart : Int)
    (windowSeconds : WindowSeconds) {now' : Int} (hle : now ≤ now') :
    previousWeight round windowStart windowSeconds now' ≤
      previousWeight round windowStart windowSeconds now := by
  have hpos : (0 : ℚ) < windowSeconds.1 := by exact_mod_cast windowSeconds.2
  have helapsed : ((now - windowStart : Int) : ℚ) ≤ ((now' - windowStart : Int) : ℚ) := by
    exact_mod_cast Int.sub_le_sub_right hle windowStart
  have hshare := h ((div_le_div_iff_of_pos_right hpos).mpr helapsed)
  exact max_le_max le_rfl (h (sub_le_sub_left hshare 1))

theorem previousWeight_le_one (h : ExactUpTo round (n + 1)) (windowSeconds : WindowSeconds)
    {windowStart : Int} (hstart : windowStart ≤ now) :
    previousWeight round windowStart windowSeconds now ≤ 1 :=
  (previousWeight_anti h.mono windowStart windowSeconds hstart).trans_eq
    (previousWeight_self h windowSeconds windowStart)

/-- An estimate that is within a limit bounds the current counter. -/
theorem currentCount_le (h : ExactUpTo round (n + 1)) {counts : WindowCounts}
    (hle : slidingWindowCount round counts windowSeconds now ≤ n) : counts.currentCount ≤ n := by
  refine h.le_of_round_le ?_ hle
  have hweight := previousWeight_nonneg round counts.windowStart windowSeconds now
  exact le_add_of_nonneg_right (h.nonneg (mul_nonneg (Nat.cast_nonneg _) hweight))

end

/-! ## The store in memory -/

/-- What is held in memory for a bucket. -/
structure MemoryEntry where
  windowIndex : Int
  currentCount : Nat
  previousCount : Nat
  lastSeen : Int
deriving DecidableEq, Repr

/-- The counters of an entry. -/
def MemoryEntry.counters (entry : MemoryEntry) : Counters :=
  ⟨entry.windowIndex, entry.currentCount, entry.previousCount⟩

/-- The number of entries from which on old ones are dropped. -/
def sweepThreshold : Nat := 5000

/-- How long an entry is unused before it is dropped. -/
def sweepIdleSeconds : Int := 300

/-- The store in memory. -/
structure InMemoryRateLimitStore where
  entries : Storage String MemoryEntry

/-- The entry of a bucket after an arrival. -/
def nextEntry (entry : Option MemoryEntry) (windowIndex now : Int) : MemoryEntry :=
  match entry with
  | none => ⟨windowIndex, 1, 0, now⟩
  | some entry =>
      if entry.windowIndex < windowIndex - 1 then ⟨windowIndex, 1, 0, now⟩
      else if entry.windowIndex = windowIndex - 1 then
        ⟨windowIndex, 1, entry.currentCount, now⟩
      else { entry with currentCount := entry.currentCount + 1, lastSeen := now }

/-- Remove the entries of idle buckets. -/
def sweep (entries : Storage String MemoryEntry) (now : Int) : Storage String MemoryEntry :=
  entries.retain fun _ entry => decide (now - entry.lastSeen ≤ sweepIdleSeconds)

/-- Write the entry of a bucket, and sweep if there are many. -/
def InMemoryRateLimitStore.record (store : InMemoryRateLimitStore) (bucket : String)
    (entry : MemoryEntry) (now : Int) : InMemoryRateLimitStore :=
  if sweepThreshold < (store.entries.set bucket entry).size then
    ⟨sweep (store.entries.set bucket entry) now⟩
  else ⟨store.entries.set bucket entry⟩

/-- Count a request in memory. -/
def InMemoryRateLimitStore.increment (store : InMemoryRateLimitStore) (bucket : String)
    (windowSeconds : WindowSeconds) (now : Int) : WindowCounts × InMemoryRateLimitStore :=
  let next := nextEntry (store.entries.get bucket) (now / windowSeconds.1) now
  (⟨next.currentCount, next.previousCount, now / windowSeconds.1 * windowSeconds.1⟩,
    store.record bucket next now)

/-- The counters of a bucket, if it has an entry. -/
def InMemoryRateLimitStore.counters (store : InMemoryRateLimitStore) (bucket : String) :
    Option Counters :=
  (store.entries.get bucket).map MemoryEntry.counters

/-! ## Redis -/

/-- A counter in Redis, which may expire. -/
structure RedisValue where
  count : Nat
  expiresAt : Option Int
deriving DecidableEq, Repr

/-- The keys in Redis. -/
structure Redis where
  keys : Storage String RedisValue

/-- A value that has not expired. -/
def RedisValue.live (now : Int) (value : RedisValue) : Bool :=
  value.expiresAt.all fun time => decide (now < time)

/-- The value of a key that has not expired. -/
def Redis.lookup (redis : Redis) (key : String) (now : Int) : Option RedisValue :=
  (redis.keys.get key).filter (RedisValue.live now)

/-- Add one to a key. -/
def Redis.incr (redis : Redis) (key : String) (now : Int) : Nat × Redis :=
  match redis.lookup key now with
  | some value =>
      (value.count + 1, ⟨redis.keys.set key { value with count := value.count + 1 }⟩)
  | none => (1, ⟨redis.keys.set key ⟨1, none⟩⟩)

/-- Let a key expire after some time. -/
def Redis.expire (redis : Redis) (key : String) (seconds now : Int) : Redis :=
  match redis.lookup key now with
  | some value => ⟨redis.keys.set key { value with expiresAt := some (now + seconds) }⟩
  | none => redis

/-- Read the count of a key. -/
def Redis.get (redis : Redis) (key : String) (now : Int) : Option Nat :=
  (redis.lookup key now).map RedisValue.count

/-- The key of the counter of a window. -/
def redisKey (bucket : String) (windowIndex : Int) : String :=
  "rl:" ++ bucket ++ ":" ++ toString windowIndex

/-! ## Stores -/

/-- How a command of Redis ends. -/
inductive Reply where
  | ok
  | throwsBefore
  | throwsAfter
deriving DecidableEq, Repr

/-- The stores by name. -/
inductive StoreName where
  | redis
  | memory
deriving DecidableEq, Repr

/-- The counters in memory and in Redis, the store that was used last, and how often the limiter
has failed over. -/
structure Stores where
  memory : InMemoryRateLimitStore
  redis : Redis
  lastUsed : StoreName
  failovers : Nat

/-- The stores before the first request. -/
def Stores.empty : Stores := ⟨⟨Storage.empty⟩, ⟨Storage.empty⟩, .redis, 0⟩

/-- A program on the stores, scripted by the replies of Redis. -/
abbrev Action (α : Type) : Type := Program Reply Stores Unit α

/-- Record an arrival for a bucket and return its counts. -/
abbrev RateLimitStore := String → WindowSeconds → Int → Action WindowCounts

/-- Count a request in memory. -/
def memoryIncrement : RateLimitStore := fun bucket windowSeconds now => do
  let w ← Program.get
  Program.put { w with memory := (w.memory.increment bucket windowSeconds now).2 }
  pure (w.memory.increment bucket windowSeconds now).1

/-- One command of Redis. -/
def command {α : Type} (f : Redis → α × Redis) : Action α := do
  let reply ← Program.next
  let w ← Program.get
  match reply with
  | some .throwsBefore => Program.throw ()
  | some .throwsAfter => do
      Program.put { w with redis := (f w.redis).2 }
      Program.throw ()
  | _ => do
      Program.put { w with redis := (f w.redis).2 }
      pure (f w.redis).1

/-- The first arrival of a window bounds the lifetime of its counter to two windows. -/
def expireFirst (key : String) (windowSeconds : WindowSeconds) (now : Int) (currentCount : Nat) :
    Action Unit :=
  if currentCount = 1 then
    command fun redis => ((), redis.expire key (windowSeconds.1 * 2) now)
  else pure ()

/-- Count a request in Redis. -/
def redisIncrement : RateLimitStore := fun bucket windowSeconds now => do
  let currentKey := redisKey bucket (now / windowSeconds.1)
  let previousKey := redisKey bucket (now / windowSeconds.1 - 1)
  let currentCount ← command fun redis => redis.incr currentKey now
  expireFirst currentKey windowSeconds now currentCount
  let previous ← command fun redis => (redis.get previousKey now, redis)
  pure ⟨currentCount, previous.getD 0, now / windowSeconds.1 * windowSeconds.1⟩

/-- The limiter turns to memory: a failover, unless memory was used before. -/
def Stores.failOver (w : Stores) : Stores :=
  match w.lastUsed with
  | .memory => w
  | .redis => { w with lastUsed := .memory, failovers := w.failovers + 1 }

/-- Count a request in Redis, or in memory if that fails. -/
def failoverIncrement : RateLimitStore := fun bucket windowSeconds now => do
  match ← (redisIncrement bucket windowSeconds now).attempt with
  | .ok counts => do
      let w ← Program.get
      Program.put { w with lastUsed := .redis }
      pure counts
  | .error _ => do
      let w ← Program.get
      Program.put w.failOver
      memoryIncrement bucket windowSeconds now

/-! ## Texts with a separator -/

/-- Texts that are joined by a separator, the first of which do not contain it. -/
theorem append_separator_inj {α : Type} {x : α} {a b c d : List α} (ha : x ∉ a) (hb : x ∉ b)
    (h : a ++ x :: c = b ++ x :: d) : a = b ∧ c = d := by
  induction a generalizing b with
  | nil =>
      cases b with
      | nil => exact ⟨rfl, (List.cons.inj h).2⟩
      | cons y b =>
          have hhead := (List.cons.inj h).1
          simp [hhead] at hb
  | cons y a ih =>
      cases b with
      | nil =>
          have hhead := (List.cons.inj h).1
          simp [hhead] at ha
      | cons z b =>
          rcases List.cons.inj h with ⟨hhead, htail⟩
          have hrest := ih (fun hx => ha (List.mem_cons_of_mem _ hx))
            (fun hx => hb (List.mem_cons_of_mem _ hx)) htail
          exact ⟨by rw [hhead, hrest.1], hrest.2⟩

end RateLimit
end Kraal
