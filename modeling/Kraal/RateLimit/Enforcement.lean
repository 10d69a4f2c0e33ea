import Kraal.RateLimit.Memory
import Kraal.RateLimit.Middleware
import Kraal.RateLimit.Redis

/-!
# What the limiter lets in

A bucket is enforced by what its store remembers.  The entry in memory counts every arrival of
the current window, and it is swept only when it has been idle for so long that nothing it has
counted is recent, as long as a window is not longer than that.  A failover splits the arrivals of
a bucket between Redis and memory, each of which lets in a limit's worth in every window.

Main results:

- Theorem {lit}`holds_arrivals`: what a store keeps about the requests that were let in, over a
  whole run.
- Theorem {lit}`limit_enforced`: the bounds of a bucket whose window is not longer than the time
  after which an idle entry is swept.
- Theorem {lit}`swept_in_its_window`: a bucket with a longer window.
-/

namespace Kraal
namespace RateLimit

open Foundation
open SlidingWindow (inWindow recent offset CoversFrom roll estimate)

variable {store : RateLimitStore} {limits : RateLimitConfig} {rt : Runtime} {bucket : String}
  {limit : WindowLimit} {ts : List Int} {now now' : Int} {w : Stores} {round : ℚ → ℚ}

/-! ## Stores that enforce a limit -/

/-- Nothing is asked of the replies of Redis. -/
abbrev Action.Ensures {α : Type} (x : Action α) (w : Stores)
    (Q : Exit Unit α → Stores → Prop) : Prop :=
  Program.Ensures (fun _ => True) x w Q

/-- What a store remembers of the requests of a bucket that were let in.  It is kept by every
arrival, and an arrival of the bucket whose estimate is within the limit may be let in. -/
structure Enforces (round : ℚ → ℚ) (store : RateLimitStore) (bucket : String) (limit : WindowLimit)
    (Holds : List Int → Int → Stores → Prop) : Prop where
  later : ∀ {ts now now' w}, Holds ts now w → now ≤ now' → Holds ts now' w
  keep : ∀ {ts now w}, Holds ts now w → ∀ bucket' windowSeconds,
    (bucket' = bucket → windowSeconds = limit.windowSeconds) →
    (store bucket' windowSeconds now).Ensures w fun exit w' =>
      (∃ counts, exit = .returned counts) ∧ Holds ts now w'
  gain : ∀ {ts now w}, Holds ts now w →
    (store bucket limit.windowSeconds now).Ensures w fun exit w' => ∀ counts,
      exit = .returned counts →
      slidingWindowCount round counts limit.windowSeconds now ≤ limit.limit →
      Holds (ts ++ [now]) now w'

/-- The results of the checks of a request are within their limits. -/
def Within (results : List TierResult) : Prop :=
  ∀ result ∈ results, result.exceeded = false

theorem admitted_respond (results : List TierResult) (now : Int) (instanceUrl : String) :
    (respond results now instanceUrl).admitted = true ↔ Within results := by
  unfold respond Within
  cases hfind : results.find? TierResult.exceeded with
  | none =>
      simpa [Response.admitted] using hfind
  | some violated =>
      have hexceeded := List.find?_some hfind
      have hmem := List.mem_of_find?_eq_some hfind
      simp only [reject, Response.admitted]
      constructor
      · intro h
        cases h
      · intro h
        rw [h violated hmem] at hexceeded
        cases hexceeded

section

variable {Holds : List Int → Int → Stores → Prop}

/-- The checks of a request: one in the bucket is remembered, if all are within their limits. -/
theorem checkTiers_ensures (henforces : Enforces rt.round store bucket limit Holds)
    (checks : List TierCheck)
    (hlimit : ∀ check ∈ checks, check.bucket = bucket → check.limit = limit)
    (hholds : Holds ts now w) :
    (checkTiers store rt now checks).Ensures w fun exit w' => ∃ results, exit = .returned results ∧
      Holds ts now w' ∧
      ((∃ check ∈ checks, check.bucket = bucket) → Within results →
        Holds (ts ++ [now]) now w') := by
  induction checks generalizing ts w with
  | nil =>
      refine Program.ensures_pure ⟨[], rfl, hholds, fun h => ?_⟩
      rcases h with ⟨check, hcheck, -⟩
      cases hcheck
  | cons check checks ih =>
      have hrest : ∀ check ∈ checks, check.bucket = bucket → check.limit = limit :=
        fun check hcheck => hlimit check (List.mem_cons_of_mem _ hcheck)
      have hkeep := henforces.keep hholds check.bucket check.limit.windowSeconds fun h => by
        rw [hlimit check List.mem_cons_self h]
      have hgain : (store check.bucket check.limit.windowSeconds now).Ensures w
          fun exit w' => ∀ counts, exit = .returned counts → check.bucket = bucket →
            (check.result rt counts now).exceeded = false → Holds (ts ++ [now]) now w' := by
        by_cases hbucket : check.bucket = bucket
        · have hsame := hlimit check List.mem_cons_self hbucket
          have hgain := henforces.gain hholds
          rw [← hbucket, ← hsame] at hgain
          refine hgain.mono fun exit w' h counts hcounts _ hwithin => h counts hcounts ?_
          exact not_lt.mp (of_decide_eq_false hwithin)
        · intro script hscript
          exact ⟨(hkeep script hscript).1, fun counts _ h => absurd h hbucket⟩
      refine Program.Ensures.bind (hkeep.and hgain) ?_ ?_ ?_
      · intro counts w' h
        rcases h with ⟨⟨-, hholds'⟩, hgained⟩
        have hgained := hgained counts rfl
        by_cases hcounted : check.bucket = bucket ∧ (check.result rt counts now).exceeded = false
        · -- the request is remembered, and the other checks keep that
          have hremembered := hgained hcounted.1 hcounted.2
          refine Program.Ensures.bind ((ih hrest hholds').and (ih hrest hremembered)) ?_ ?_ ?_
          · intro results w'' h
            rcases h with ⟨⟨_, -, hts, -⟩, ⟨_, -, hts', -⟩⟩
            exact Program.ensures_pure ⟨_, rfl, hts, fun _ _ => hts'⟩
          · rintro _ w'' ⟨⟨_, h, -⟩, -⟩
            cases h
          · rintro w'' ⟨⟨_, h, -⟩, -⟩
            cases h
        · refine Program.Ensures.bind (ih hrest hholds') ?_ ?_ ?_
          · intro results w'' h
            rcases h with ⟨results', hresults, hts, hrem⟩
            cases hresults
            refine Program.ensures_pure ⟨_, rfl, hts, fun hexists hwithin => ?_⟩
            refine hrem ?_ fun result hresult => hwithin result (List.mem_cons_of_mem _ hresult)
            rcases hexists with ⟨check', hcheck', hbucket'⟩
            rcases List.mem_cons.mp hcheck' with rfl | hcheck'
            · exact absurd ⟨hbucket', hwithin _ List.mem_cons_self⟩ hcounted
            · exact ⟨check', hcheck', hbucket'⟩
          · rintro _ w'' ⟨_, h, -⟩
            cases h
          · rintro w'' ⟨_, h, -⟩
            cases h
      · rintro _ w' ⟨⟨⟨_, h⟩, -⟩, -⟩
        cases h
      · rintro w' ⟨⟨⟨_, h⟩, -⟩, -⟩
        cases h

/-- An arrival is remembered if it is counted in the bucket and let in. -/
theorem holds_serve (henforces : Enforces rt.round store bucket limit Holds)
    (hgoverns : Governs limits rt bucket limit) (arrival : Arrival)
    (hholds : Holds ts arrival.now w) :
    Holds (ts ++ if Counted limits rt bucket arrival.request ∧
        (serve store limits rt w arrival).1.admitted then [arrival.now] else []) arrival.now
      (serve store limits rt w arrival).2 := by
  by_cases hexempt : arrival.request.path ∈ limits.exemptPaths
  · have hserve : serve store limits rt w arrival = (.next none, w) := by
      simp only [serve, rateLimit, if_pos hexempt]
      rfl
    rw [hserve, if_neg fun h => h.1.1 hexempt, List.append_nil]
    exact hholds
  · have htiers := (checkTiers_ensures henforces (limits.checks rt arrival.request)
      (hgoverns _) hholds arrival.replies fun _ _ => trivial).2
    rcases hrun : checkTiers store rt arrival.now (limits.checks rt arrival.request)
      arrival.replies w with ⟨exit, replies, w'⟩
    rw [hrun] at htiers
    rcases htiers with ⟨results, hexit, hkept, hremembered⟩
    have hserve : serve store limits rt w arrival =
        (respond results arrival.now arrival.request.originalUrl, w') := by
      change exit = .returned results at hexit
      subst hexit
      simp only [serve, rateLimit, if_neg hexempt, Program.bind_apply, Program.attempt, hrun]
      rfl
    rw [hserve]
    split
    case isTrue h =>
      exact hremembered h.1.2 ((admitted_respond results arrival.now _).mp h.2)
    case isFalse h =>
      rw [List.append_nil]
      exact hkept

theorem admittedTimes_append (store : RateLimitStore) (limits : RateLimitConfig) (rt : Runtime)
    (bucket : String) (w : Stores) (xs ys : List Arrival) :
    admittedTimes store limits rt bucket w (xs ++ ys) =
      admittedTimes store limits rt bucket w xs ++
        admittedTimes store limits rt bucket (Run.final (step store limits rt) w xs) ys := by
  simp [admittedTimes, Run.trace_append]

theorem admittedTimes_singleton (store : RateLimitStore) (limits : RateLimitConfig)
    (rt : Runtime) (bucket : String) (w : Stores) (arrival : Arrival) :
    admittedTimes store limits rt bucket w [arrival] =
      if Counted limits rt bucket arrival.request ∧
        (serve store limits rt w arrival).1.admitted then [arrival.now] else [] := by
  by_cases hcounted : Counted limits rt bucket arrival.request ∧
    (serve store limits rt w arrival).1.admitted = true
  · simp [admittedTimes, hcounted.1, hcounted.2]
  · simp [admittedTimes, List.filter_cons_of_neg, hcounted]

/-- What a store keeps about the requests that were let in, over a whole run. -/
theorem holds_arrivals (ts : List Int) (henforces : Enforces rt.round store bucket limit Holds)
    (hgoverns : Governs limits rt bucket limit) {arrivals : List Arrival}
    (hsorted : arrivals.Pairwise fun a b => a.now ≤ b.now)
    (hafter : ∀ a ∈ arrivals, now ≤ a.now) (hholds : Holds ts now w) :
    ∃ now' ∈ now :: arrivals.map Arrival.now,
      Holds (ts ++ admittedTimes store limits rt bucket w arrivals) now'
        (Run.final (step store limits rt) w arrivals) := by
  induction arrivals generalizing ts now w with
  | nil =>
      refine ⟨now, List.mem_cons_self, ?_⟩
      simpa [admittedTimes] using hholds
  | cons arrival arrivals ih =>
      rw [List.pairwise_cons] at hsorted
      have harrival := henforces.later hholds (hafter arrival List.mem_cons_self)
      rcases ih _ hsorted.2 hsorted.1 (holds_serve henforces hgoverns arrival harrival) with
        ⟨now', hnow', hfinal⟩
      refine ⟨now', List.mem_cons_of_mem _ hnow', ?_⟩
      have htimes := admittedTimes_append store limits rt bucket w [arrival] arrivals
      rw [admittedTimes_singleton] at htimes
      change admittedTimes store limits rt bucket w (arrival :: arrivals) = _ at htimes
      rw [htimes, ← List.append_assoc]
      exact hfinal

end

/-! ## The store in memory -/

section

variable {W : WindowSeconds} {memory : InMemoryRateLimitStore}

/-- The entry of a bucket covers arrivals. -/
structure MemoryCovers (W : WindowSeconds) (bucket : String) (ts : List Int) (now : Int)
    (memory : InMemoryRateLimitStore) : Prop extends Dated W bucket ts now memory where
  covers : CoversFrom W.1 ts now (memory.counters bucket)

theorem memoryCovers_empty (W : WindowSeconds) (bucket : String) (now : Int) :
    MemoryCovers W bucket [] now ⟨Storage.empty⟩ :=
  ⟨dated_empty _ _ _, SlidingWindow.coversFrom_nil _ _ _⟩

theorem MemoryCovers.later (h : MemoryCovers W bucket ts now memory) (hle : now ≤ now') :
    MemoryCovers W bucket ts now' memory :=
  ⟨h.toDated.later hle, h.covers.later hle⟩

/-- An arrival of another bucket: the entry stays, or it is swept and has nothing recent. -/
theorem MemoryCovers.increment_of_ne (h : MemoryCovers W bucket ts now memory)
    (hwindow : W.1 ≤ sweepIdleSeconds + 1) {bucket' : String} (hbucket : bucket' ≠ bucket)
    (W' : WindowSeconds) : MemoryCovers W bucket ts now (memory.increment bucket' W' now).2 := by
  refine ⟨h.toDated.increment_of_ne hbucket W', ?_⟩
  unfold InMemoryRateLimitStore.counters
  rcases get_increment_of_ne memory hbucket.symm W' now with hget | ⟨hget, entry, hentry, hidle⟩
  · rw [hget]
    exact h.covers
  · rw [hget]
    exact CoversFrom.forget W.2 (h.seen entry hentry) (by omega)

/-- An arrival of the bucket, which may be one of those that are covered. -/
theorem MemoryCovers.increment (h : MemoryCovers W bucket ts now memory) (ts' : List Int)
    (hnew : ts' = [] ∨ ts' = [now]) :
    MemoryCovers W bucket (ts ++ ts') now (memory.increment bucket W now).2 := by
  refine ⟨h.toDated.increment fun s hs => ?_, ?_⟩
  · rcases hnew with rfl | rfl
    · cases hs
    · exact (List.mem_singleton.mp hs).le
  · rw [h.counters_increment]
    exact h.covers.count W.2 hnew

/-- The entry of a bucket covers what was let in, which is within the bounds: that of an interval if
nothing is rounded. -/
structure MemoryEnforces (round : ℚ → ℚ) (bucket : String) (limit : WindowLimit) (ts : List Int)
    (now : Int) (memory : InMemoryRateLimitStore) : Prop
    extends MemoryCovers limit.windowSeconds bucket ts now memory where
  inWindow_le : ∀ k, inWindow limit.windowSeconds.1 ts k ≤ limit.limit
  recent_le : round = id → ∀ t, (recent limit.windowSeconds.1 ts t : ℚ) ≤
    limit.limit * (1 + offset limit.windowSeconds.1 t)

theorem memoryEnforces_empty (round : ℚ → ℚ) (bucket : String) (limit : WindowLimit) (now : Int) :
    MemoryEnforces round bucket limit [] now ⟨Storage.empty⟩ :=
  ⟨memoryCovers_empty _ _ _, fun _ => Nat.zero_le _,
    fun _ t => SlidingWindow.le_limit_of_le limit.windowSeconds.2 (Nat.zero_le _) t⟩

/-- An arrival whose estimate is within the limit is let in. -/
theorem MemoryEnforces.gain (hround : ExactUpTo round (limit.limit + 1))
    (h : MemoryEnforces round bucket limit ts now memory)
    (hestimate : slidingWindowCount round
      (memory.increment bucket limit.windowSeconds now).1 limit.windowSeconds now ≤ limit.limit) :
    MemoryEnforces round bucket limit (ts ++ [now]) now
      (memory.increment bucket limit.windowSeconds now).2 := by
  rw [h.increment_fst] at hestimate
  have hcovers := h.covers.covers now le_rfl
  refine ⟨h.toMemoryCovers.increment _ (.inr rfl), ?_, fun hid => ?_⟩
  · exact SlidingWindow.inWindow_append_le hcovers (currentCount_le hround hestimate) h.inWindow_le
  · rw [hid, slidingWindowCount_eq_estimate] at hestimate
    exact SlidingWindow.recent_append_le limit.windowSeconds.2 h.covers.arrived hcovers hestimate
      h.inWindow_le (h.recent_le hid)

/-- An arrival of any bucket. -/
theorem MemoryEnforces.keep (h : MemoryEnforces round bucket limit ts now memory)
    (hwindow : limit.windowSeconds.1 ≤ sweepIdleSeconds + 1) {bucket' : String}
    {W : WindowSeconds} (hsame : bucket' = bucket → W = limit.windowSeconds) :
    MemoryEnforces round bucket limit ts now (memory.increment bucket' W now).2 := by
  refine ⟨?_, h.inWindow_le, h.recent_le⟩
  by_cases hbucket : bucket' = bucket
  · have hkept := h.toMemoryCovers.increment [] (.inl rfl)
    rw [List.append_nil] at hkept
    rw [hbucket, hsame hbucket]
    exact hkept
  · exact h.toMemoryCovers.increment_of_ne hwindow hbucket W

theorem memoryIncrement_ensures (bucket : String) (W : WindowSeconds) (now : Int) :
    (memoryIncrement bucket W now).Ensures w fun exit w' =>
      exit = .returned (w.memory.increment bucket W now).1 ∧
        w' = { w with memory := (w.memory.increment bucket W now).2 } :=
  Program.Ensures.bind_get (Program.Ensures.bind_put (Program.ensures_pure ⟨rfl, rfl⟩))

/-- The store in memory enforces the limit of a bucket. -/
theorem memory_enforces (hround : ExactUpTo round (limit.limit + 1))
    (hwindow : limit.windowSeconds.1 ≤ sweepIdleSeconds + 1) :
    Enforces round memoryIncrement bucket limit fun ts now w =>
      MemoryEnforces round bucket limit ts now w.memory where
  later h hle := ⟨h.toMemoryCovers.later hle, h.inWindow_le, h.recent_le⟩
  keep h bucket' W hsame := by
    refine (memoryIncrement_ensures bucket' W _).mono ?_
    rintro exit w' ⟨rfl, rfl⟩
    exact ⟨⟨_, rfl⟩, h.keep hwindow hsame⟩
  gain h := by
    refine (memoryIncrement_ensures _ _ _).mono ?_
    rintro exit w' ⟨rfl, rfl⟩ counts hcounts hestimate
    cases hcounts
    exact h.gain hround hestimate

end

/-! ## The failover -/

/-- What was let in splits into what Redis and what memory has let in. -/
def FailoverEnforces (round : ℚ → ℚ) (bucket : String) (limit : WindowLimit) (ts : List Int)
    (now : Int) (w : Stores) : Prop :=
  ∃ redisTimes memoryTimes : List Int, ∃ counts : Int → Nat,
    (∀ k, inWindow limit.windowSeconds.1 ts k ≤ inWindow limit.windowSeconds.1 redisTimes k +
      inWindow limit.windowSeconds.1 memoryTimes k) ∧
    (∀ k, inWindow limit.windowSeconds.1 redisTimes k ≤ min (counts k) limit.limit) ∧
    Keeps limit.windowSeconds bucket counts w.redis ∧
    MemoryEnforces round bucket limit memoryTimes now w.memory

theorem FailoverEnforces.inWindow_le (h : FailoverEnforces round bucket limit ts now w)
    (k : Int) :
    inWindow limit.windowSeconds.1 ts k ≤ 2 * limit.limit := by
  rcases h with ⟨redisTimes, memoryTimes, counts, hsplit, hredis, -, hmemory⟩
  have hts := hsplit k
  have hr := hredis k
  have hm := hmemory.inWindow_le k
  omega

theorem failoverEnforces_empty (round : ℚ → ℚ) (bucket : String) (limit : WindowLimit)
    (now : Int) : FailoverEnforces round bucket limit [] now Stores.empty :=
  ⟨[], [], fun _ => 0, fun _ => Nat.zero_le _, fun _ => Nat.zero_le _, keeps_empty _ _,
    memoryEnforces_empty _ _ _ _⟩

@[simp]
theorem memory_failOver (w : Stores) : w.failOver.memory = w.memory := by
  unfold Stores.failOver
  split <;> rfl

@[simp]
theorem redis_failOver (w : Stores) : w.failOver.redis = w.redis := by
  unfold Stores.failOver
  split <;> rfl

/-- An arrival is counted by Redis, or by memory after a command of Redis has failed. -/
theorem failoverIncrement_ensures {W : WindowSeconds} {R Q : Exit Unit WindowCounts → Stores → Prop}
    (hredis : (redisIncrement bucket W now).Ensures w R) (hstopped : ∀ w', ¬ R .stopped w')
    (hreturned : ∀ counts w', R (.returned counts) w' →
      Q (.returned counts) { w' with lastUsed := .redis })
    (hthrown : ∀ w', R (.thrown ()) w' → Q (.returned (w'.memory.increment bucket W now).1)
      { w'.failOver with memory := (w'.memory.increment bucket W now).2 }) :
    (failoverIncrement bucket W now).Ensures w Q := by
  refine Program.Ensures.bind (R := fun exit w' => ∃ result, exit = .returned result ∧
      ((∃ counts, result = .ok counts ∧ R (.returned counts) w') ∨
        result = .error () ∧ R (.thrown ()) w'))
    (Program.Ensures.attempt hredis ?_ ?_ ?_) ?_ ?_ ?_
  · exact fun counts w' h => ⟨_, rfl, .inl ⟨counts, rfl, h⟩⟩
  · exact fun _ w' h => ⟨_, rfl, .inr ⟨rfl, h⟩⟩
  · exact fun w' h => absurd h (hstopped w')
  · rintro result w' ⟨_, h, ⟨counts, rfl, hr⟩ | ⟨rfl, hr⟩⟩
    · cases h
      exact Program.Ensures.bind_get (Program.Ensures.bind_put (Program.ensures_pure
        (hreturned counts w' hr)))
    · cases h
      refine Program.Ensures.bind_get (Program.Ensures.bind_put
        ((memoryIncrement_ensures bucket W now).mono ?_))
      rintro exit w'' ⟨rfl, rfl⟩
      rw [memory_failOver]
      exact hthrown w' hr
  · rintro _ w' ⟨_, h, -⟩
    cases h
  · rintro w' ⟨_, h, -⟩
    cases h

/-- Counts of Redis that have not fallen are enough. -/
theorem FailoverEnforces.of_le (redisTimes memoryTimes : List Int) {counts : Int → Nat}
    (counts' : Int → Nat)
    (hsplit : ∀ k, inWindow limit.windowSeconds.1 ts k ≤
      inWindow limit.windowSeconds.1 redisTimes k + inWindow limit.windowSeconds.1 memoryTimes k)
    (hredis : ∀ k, inWindow limit.windowSeconds.1 redisTimes k ≤ min (counts k) limit.limit)
    (hle : ∀ k, counts k ≤ counts' k) (hkeeps : Keeps limit.windowSeconds bucket counts' w.redis)
    (hmemory : MemoryEnforces round bucket limit memoryTimes now w.memory) :
    FailoverEnforces round bucket limit ts now w :=
  ⟨redisTimes, memoryTimes, counts', hsplit,
    fun k => (hredis k).trans (min_le_min_right _ (hle k)), hkeeps, hmemory⟩

theorem le_bump (counts : Int → Nat) (k k' : Int) : counts k' ≤ bump counts k k' :=
  Nat.le_add_right _ _

/-- What Redis holds after an arrival of any bucket. -/
theorem Keeps.ensures_le {W W' : WindowSeconds} {bucket' : String} {counts : Int → Nat}
    (h : Keeps W bucket counts w.redis) (hsame : bucket' = bucket → W' = W) (now : Int) :
    (redisIncrement bucket' W' now).Ensures w fun exit w' => exit ≠ .stopped ∧
      w'.memory = w.memory ∧ ∃ counts', (∀ k, counts k ≤ counts' k) ∧
        Keeps W bucket counts' w'.redis := by
  by_cases hbucket : bucket' = bucket
  · rw [hbucket, hsame hbucket]
    refine (h.ensures_increment now).mono ?_
    rintro exit w' ⟨hmemory, hkeeps, hexit⟩
    refine ⟨fun hstopped => ?_, hmemory, ?_⟩
    · rcases hexit with hfailed | ⟨-, hreturned⟩
      · rw [hstopped] at hfailed
        exact not_failed_stopped hfailed
      · rw [hstopped] at hreturned
        cases hreturned
    · rcases hkeeps with hkeeps | hkeeps
      · exact ⟨counts, fun _ => le_rfl, hkeeps⟩
      · exact ⟨_, le_bump counts _, hkeeps⟩
  · refine (h.ensures_of_ne hbucket now).mono ?_
    rintro exit w' ⟨hmemory, hkeeps, hexit⟩
    refine ⟨fun hstopped => ?_, hmemory, counts, fun _ => le_rfl, hkeeps⟩
    rcases hexit with hfailed | ⟨_, hreturned⟩
    · rw [hstopped] at hfailed
      exact not_failed_stopped hfailed
    · rw [hstopped] at hreturned
      cases hreturned

/-- The counts of Redis cover another arrival that it has let in. -/
theorem inWindow_append_le_bump {W : WindowSeconds} {counts : Int → Nat}
    (h : ∀ k, inWindow W.1 ts k ≤ min (counts k) limit.limit)
    (hlimit : counts (now / W.1) + 1 ≤ limit.limit) (k : Int) :
    inWindow W.1 (ts ++ [now]) k ≤ min (bump counts (now / W.1) k) limit.limit := by
  have hk := h k
  by_cases hnow : now / W.1 = k
  · subst hnow
    simp [bump]
    omega
  · have hne : k ≠ now / W.1 := fun h => hnow h.symm
    simp [bump, hnow, hne]
    omega

/-- The failover lets in twice the limit at most. -/
theorem failover_enforces (hround : ExactUpTo round (limit.limit + 1))
    (hwindow : limit.windowSeconds.1 ≤ sweepIdleSeconds + 1) :
    Enforces round failoverIncrement bucket limit (FailoverEnforces round bucket limit) where
  later h hle := by
    rcases h with ⟨redisTimes, memoryTimes, counts, hsplit, hredis, hkeeps, hmemory⟩
    exact ⟨redisTimes, memoryTimes, counts, hsplit, hredis, hkeeps,
      hmemory.toMemoryCovers.later hle, hmemory.inWindow_le, hmemory.recent_le⟩
  keep h bucket' W hsame := by
    rcases h with ⟨redisTimes, memoryTimes, counts, hsplit, hredis, hkeeps, hmemory⟩
    refine failoverIncrement_ensures (hkeeps.ensures_le hsame _)
      (fun _ hstopped => hstopped.1 rfl) ?_ ?_
    · rintro result w' ⟨-, hsameMemory, counts', hle, hkeeps'⟩
      refine ⟨⟨_, rfl⟩, .of_le _ _ counts' hsplit hredis hle hkeeps' ?_⟩
      change MemoryEnforces round bucket limit memoryTimes _ w'.memory
      rw [hsameMemory]
      exact hmemory
    · rintro w' ⟨-, hsameMemory, counts', hle, hkeeps'⟩
      refine ⟨⟨_, rfl⟩, .of_le _ _ counts' hsplit hredis hle ?_ ?_⟩
      · change Keeps limit.windowSeconds bucket counts' w'.failOver.redis
        rw [redis_failOver]
        exact hkeeps'
      · rw [hsameMemory]
        exact hmemory.keep hwindow hsame
  gain h := by
    rcases h with ⟨redisTimes, memoryTimes, counts, hsplit, hredis, hkeeps, hmemory⟩
    refine failoverIncrement_ensures ((hkeeps.ensures_increment _).and
      (hkeeps.ensures_le (fun _ => rfl) _)) (fun _ hstopped => hstopped.2.1 rfl) ?_ ?_
    · rintro result w' ⟨⟨hsameMemory, -, hfailed | ⟨hkeeps', hreturned⟩⟩, -⟩ counts' hcounts'
        hestimate
      · exact absurd hfailed not_failed_returned
      · -- Redis has counted it
        cases hcounts'
        cases hreturned
        refine ⟨redisTimes ++ [_], memoryTimes, _, fun k => ?_,
          inWindow_append_le_bump hredis (currentCount_le hround hestimate), hkeeps', ?_⟩
        · have hk := hsplit k
          simp only [SlidingWindow.inWindow_append]
          omega
        · change MemoryEnforces round bucket limit memoryTimes _ w'.memory
          rw [hsameMemory]
          exact hmemory
    · rintro w' ⟨-, -, hsameMemory, counts', hle, hkeeps'⟩ result hresult hestimate
      -- memory has counted it
      cases hresult
      rw [hsameMemory] at hestimate ⊢
      refine .of_le redisTimes (memoryTimes ++ [_]) counts' (fun k => ?_) hredis hle ?_
        (hmemory.gain hround hestimate)
      · have hk := hsplit k
        simp only [SlidingWindow.inWindow_append]
        omega
      · change Keeps limit.windowSeconds bucket counts' w'.failOver.redis
        rw [redis_failOver]
        exact hkeeps'

/-! ## The bounds of a bucket -/

/-- Without rounding, what is let in of the requests that are counted in a bucket: in a window the
limit, during an interval of the length of a window that ends at an offset into a window the limit
and the share of the offset on top of it, and with a failover twice the limit in a window, whatever
the replies of Redis. -/
theorem limit_enforced (limits : RateLimitConfig) (rt : Runtime) (hround : rt.round = id)
    (bucket : String) (limit : WindowLimit) (hgoverns : Governs limits rt bucket limit)
    (hwindow : limit.windowSeconds.1 ≤ sweepIdleSeconds + 1) (arrivals : List Arrival)
    (hsorted : arrivals.Pairwise fun a b => a.now ≤ b.now) :
    (∀ k, inWindow limit.windowSeconds.1
      (admittedTimes memoryIncrement limits rt bucket Stores.empty arrivals) k ≤ limit.limit) ∧
    (∀ t, (recent limit.windowSeconds.1
      (admittedTimes memoryIncrement limits rt bucket Stores.empty arrivals) t : ℚ) ≤
        limit.limit * (1 + offset limit.windowSeconds.1 t)) ∧
    ∀ k, inWindow limit.windowSeconds.1
      (admittedTimes failoverIncrement limits rt bucket Stores.empty arrivals) k ≤
        2 * limit.limit := by
  have hexact : ExactUpTo rt.round (limit.limit + 1) := hround ▸ exactUpTo_id _
  rcases exists_start Arrival.now arrivals with ⟨start, hstart⟩
  rcases holds_arrivals (w := Stores.empty) [] (memory_enforces hexact hwindow) hgoverns hsorted
    hstart (memoryEnforces_empty rt.round bucket limit start) with ⟨_, -, hmemory⟩
  rcases holds_arrivals [] (failover_enforces hexact hwindow) hgoverns hsorted hstart
    (failoverEnforces_empty rt.round bucket limit start) with ⟨_, -, hfailover⟩
  exact ⟨hmemory.inWindow_le, hmemory.recent_le hround, hfailover.inWindow_le⟩

/-! ## A window that is longer than the idle time -/

/-- A request from an address, to an endpoint without a limit. -/
def visit (address : String) (now : Int) : Arrival :=
  ⟨⟨"GET", "/", "/", some address, none⟩, now, []⟩

/-- Two visits within the limit of the public API. -/
theorem limit_enforced_visits :
    (∀ k, inWindow 10 (admittedTimes memoryIncrement rateLimitConfig exactRuntime "ip:a"
        Stores.empty [visit "a" 0, visit "a" 11]) k ≤ 20) ∧
      (∀ t, (recent 10 (admittedTimes memoryIncrement rateLimitConfig exactRuntime "ip:a"
        Stores.empty [visit "a" 0, visit "a" 11]) t : ℚ) ≤ 20 * (1 + offset 10 t)) ∧
      ∀ k, inWindow 10 (admittedTimes failoverIncrement rateLimitConfig exactRuntime "ip:a"
        Stores.empty [visit "a" 0, visit "a" 11]) k ≤ 2 * 20 := by
  have hcheck : (rateLimitConfig.ipCheck (visit "a" 0).request) ∈
      rateLimitConfig.checks exactRuntime (visit "a" 0).request := by
    simp [RateLimitConfig.checks]
  have hgoverns := governs_of_wellNamed wellNamed_rateLimitConfig hcheck
  refine limit_enforced rateLimitConfig exactRuntime rfl "ip:a" ⟨20, 10, ten_seconds_pos⟩ hgoverns
    (by simp [sweepIdleSeconds]) [visit "a" 0, visit "a" 11] ?_
  simp [visit]

/-- One request in a window that is longer than the time after which an idle entry is swept. -/
def patientLimit : WindowLimit := ⟨1, 302, by decide⟩

/-- A configuration with that limit for all. -/
def patientConfig : RateLimitConfig := ⟨patientLimit, patientLimit, [], []⟩

/-- An address for each number. -/
def crowdAddress (n : Nat) : String :=
  String.ofList (List.replicate (n + 1) 'x')

/-- Visits from many addresses. -/
def crowd (n : Nat) : List Arrival :=
  (List.range n).map fun i => visit (crowdAddress i) 301

/-- A visit is let in if the estimate of its address is within the limit. -/
theorem serve_visit (rt : Runtime) (w : Stores) (address : String) (now : Int) :
    (step memoryIncrement patientConfig rt w (visit address now)).memory =
        (w.memory.increment ("ip:" ++ address) patientLimit.windowSeconds now).2 ∧
      ((serve memoryIncrement patientConfig rt w (visit address now)).1.admitted = true ↔
        slidingWindowCount rt.round
          (w.memory.increment ("ip:" ++ address) patientLimit.windowSeconds now).1
            patientLimit.windowSeconds now ≤ 1) := by
  constructor
  · rfl
  · have hserve : (serve memoryIncrement patientConfig rt w (visit address now)).1 =
        respond [(patientConfig.ipCheck (visit address now).request).result rt
          (w.memory.increment ("ip:" ++ address) patientLimit.windowSeconds now).1 now] now "/" :=
      rfl
    rw [hserve, admitted_respond]
    simp [Within, TierResult.exceeded, TierCheck.result, RateLimitConfig.ipCheck, patientConfig]
    rfl

theorem crowd_bucket_inj {i j : Nat} (h : "ip:" ++ crowdAddress i = "ip:" ++ crowdAddress j) :
    i = j := by
  have htext := congrArg (fun s : String => s.toList.length) h
  simpa [crowdAddress] using htext

theorem crowd_bucket_ne (i : Nat) : "ip:" ≠ "ip:" ++ crowdAddress i := by
  intro h
  have htext := congrArg (fun s : String => s.toList.length) h
  simp [crowdAddress] at htext

/-- The entry of the first address has been swept, or it is still there with those of a part of
the crowd. -/
def Waits (n : Nat) (memory : InMemoryRateLimitStore) : Prop :=
  memory.entries.get "ip:" = none ∨
    (n ≤ sweepThreshold - 1 ∧ memory.entries.size = n + 1 ∧
      (∃ entry, memory.entries.get "ip:" = some entry ∧ entry.lastSeen = 0) ∧
      ∀ j, n ≤ j → memory.entries.get ("ip:" ++ crowdAddress j) = none)

/-- One more address: the store is swept when it is full. -/
theorem Waits.visit {n : Nat} {memory : InMemoryRateLimitStore} (h : Waits n memory)
    (W : WindowSeconds) :
    Waits (n + 1) (memory.increment ("ip:" ++ crowdAddress n) W 301).2 := by
  rcases h with hgone | ⟨-, hsize, ⟨entry, hentry, hseen⟩, hfresh⟩
  · refine .inl ?_
    rcases get_increment_of_ne memory (crowd_bucket_ne n) W 301 with hget | ⟨hget, -⟩
    · rw [hget, hgone]
    · exact hget
  · simp only [InMemoryRateLimitStore.increment, InMemoryRateLimitStore.record]
    rw [Storage.size_set_of_none (hfresh n le_rfl), hsize]
    have hfirst := Storage.get_set_of_ne memory.entries
      (nextEntry (memory.entries.get ("ip:" ++ crowdAddress n)) (301 / W.1) 301)
      (crowd_bucket_ne n)
    by_cases hfull : sweepThreshold < n + 1 + 1
    · rw [if_pos hfull]
      refine .inl ?_
      simp [sweep, Storage.get_retain, hfirst, hentry, hseen, sweepIdleSeconds]
    · rw [if_neg hfull]
      refine .inr ⟨by omega, ?_, ⟨entry, by rw [hfirst, hentry], hseen⟩, fun j hj => ?_⟩
      · rw [Storage.size_set_of_none (hfresh n le_rfl), hsize]
      · have hne : "ip:" ++ crowdAddress j ≠ "ip:" ++ crowdAddress n := by
          intro hbucket
          have hjn := crowd_bucket_inj hbucket
          omega
        rw [Storage.get_set_of_ne _ _ hne]
        exact hfresh j (by omega)

theorem waits_crowd (rt : Runtime) {w : Stores} (h : Waits 0 w.memory) (n : Nat) :
    Waits n (Run.final (step memoryIncrement patientConfig rt) w (crowd n)).memory := by
  induction n with
  | zero => exact h
  | succ n ih =>
      have hcrowd : crowd (n + 1) = crowd n ++ [RateLimit.visit (crowdAddress n) 301] := by
        simp [crowd, List.range_succ]
      rw [hcrowd, Run.final_append]
      exact ih.visit patientLimit.windowSeconds

/-- Two requests of one address are let in during a window whose limit is one. -/
theorem swept_in_its_window : ¬ ∃ rt : Runtime, rt.round = id ∧
    ∀ k, inWindow 302 (admittedTimes memoryIncrement patientConfig rt "ip:" Stores.empty
      ([visit "" 0] ++ crowd sweepThreshold ++ [visit "" 301])) k ≤ 1 := by
  intro h
  rcases h with ⟨rt, hround, hclaim⟩
  have hcounted : ∀ now, Counted patientConfig rt "ip:" (visit "" now).request := by
    intro now
    exact ⟨List.not_mem_nil, _, List.mem_cons_self, rfl⟩
  have hvisit : ∀ w now, w.memory.entries.get "ip:" = none →
      admittedTimes memoryIncrement patientConfig rt "ip:" w [visit "" now] = [now] := by
    intro w now hnone
    have hadmitted := (serve_visit rt w "" now).2.mpr
    have hfirst : (w.memory.increment ("ip:" ++ "") patientLimit.windowSeconds now).1 =
        ⟨1, 0, now / 302 * 302⟩ := by
      simp [InMemoryRateLimitStore.increment, hnone, nextEntry]
      rfl
    have hone : slidingWindowCount rt.round (w.memory.increment ("ip:" ++ "")
        patientLimit.windowSeconds now).1 patientLimit.windowSeconds now ≤ 1 := by
      rw [hfirst, hround]
      simp [slidingWindowCount]
    rw [admittedTimes_singleton, if_pos ⟨hcounted now, hadmitted hone⟩]
    rfl
  have hstart : Waits 0
      (Run.final (step memoryIncrement patientConfig rt) Stores.empty [visit "" 0]).memory := by
    refine .inr ⟨Nat.zero_le _, rfl, ⟨_, rfl, rfl⟩, fun j _ => ?_⟩
    exact Storage.get_set_of_ne _ _ (crowd_bucket_ne j).symm
  have hgone : (Run.final (step memoryIncrement patientConfig rt) Stores.empty
      ([visit "" 0] ++ crowd sweepThreshold)).memory.entries.get "ip:" = none := by
    rw [Run.final_append]
    rcases waits_crowd rt hstart sweepThreshold with hgone | ⟨hle, -⟩
    · exact hgone
    · simp [sweepThreshold] at hle
  have hwindow := hclaim 0
  rw [admittedTimes_append, admittedTimes_append, hvisit Stores.empty 0 (by rfl),
    hvisit _ 301 hgone, SlidingWindow.inWindow_append, SlidingWindow.inWindow_append,
    SlidingWindow.inWindow_singleton, SlidingWindow.inWindow_singleton, if_pos (by decide),
    if_pos (by decide)] at hwindow
  omega

end RateLimit
end Kraal
