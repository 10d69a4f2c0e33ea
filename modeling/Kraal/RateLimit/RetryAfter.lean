import Kraal.RateLimit.Budget

/-!
# The promise of a rejection

A rejection asks the client to come back when the next window begins.  The window that has ended
then still weighs in with everything that it has counted, rejected requests included, so that the
client is let in then only if that is less than the limit.

Main results:

- Theorem {lit}`parked_arrivals`: the entry of a bucket is left alone or swept by other requests.
- Theorem {lit}`retry_let_through_iff`: when the tier that has rejected a request lets through
  the next one.
- Theorem {lit}`rejected_twice`: a client that comes back as told is rejected again.
-/

namespace Kraal
namespace RateLimit

open Foundation
open SlidingWindow (Counters roll count)

variable {limits : RateLimitConfig} {rt : Runtime} {bucket : String} {W : WindowSeconds}
  {now now' : Int} {memory : InMemoryRateLimitStore} {w : Stores} {checks : List TierCheck}
  {result : TierResult} {entry : MemoryEntry}

/-! ## An entry that is left alone -/

/-- The entry of a bucket is an entry, unless it has been swept. -/
def Parked (bucket : String) (entry : MemoryEntry) (memory : InMemoryRateLimitStore) : Prop :=
  memory.entries.get bucket = some entry ∨ memory.entries.get bucket = none

theorem Parked.increment_of_ne (h : Parked bucket entry memory) {bucket' : String}
    (hbucket : bucket' ≠ bucket) (W : WindowSeconds) (now : Int) :
    Parked bucket entry (memory.increment bucket' W now).2 := by
  rcases get_increment_of_ne memory hbucket.symm W now with hget | ⟨hget, -⟩
  · unfold Parked
    rwa [hget]
  · exact .inr hget

/-- The checks of other buckets. -/
theorem Parked.memoryAt (h : Parked bucket entry memory) (now : Int) (checks : List TierCheck) :
    Parked bucket entry (memoryAt bucket now checks memory) := by
  induction checks generalizing memory with
  | nil => exact h
  | cons check checks ih =>
      rw [RateLimit.memoryAt]
      split
      case isTrue => exact h
      case isFalse hbucket => exact ih (h.increment_of_ne hbucket _ _)

theorem Parked.memoryTiers (h : Parked bucket entry memory)
    (hother : ∀ check ∈ checks, check.bucket ≠ bucket) :
    Parked bucket entry (memoryTiers rt now checks memory).2 := by
  induction checks generalizing memory with
  | nil => exact h
  | cons check checks ih =>
      have hcounted := h.increment_of_ne (hother check List.mem_cons_self)
        check.limit.windowSeconds now
      exact ih hcounted fun check' hcheck => hother check' (List.mem_cons_of_mem _ hcheck)

/-- Requests that are not counted in the bucket. -/
theorem parked_arrivals {arrivals : List Arrival}
    (hother : ∀ a ∈ arrivals, ¬ Counted limits rt bucket a.request)
    (h : Parked bucket entry w.memory) :
    Parked bucket entry (Run.final (step memoryIncrement limits rt) w arrivals).memory := by
  induction arrivals generalizing w with
  | nil => exact h
  | cons arrival arrivals ih =>
      refine ih (fun a ha => hother a (List.mem_cons_of_mem _ ha)) ?_
      unfold step
      by_cases hexempt : arrival.request.path ∈ limits.exemptPaths
      · rw [serve_exempt hexempt]
        exact h
      · rw [serve_memory hexempt]
        refine h.memoryTiers fun check hcheck hbucket => ?_
        exact hother arrival List.mem_cons_self ⟨hexempt, check, hcheck, hbucket⟩

/-! ## The rejection -/

/-- The entry of a bucket after a request that is counted in it is of the current window. -/
theorem parked_memoryTiers (hnodup : (checks.map TierCheck.bucket).Nodup)
    (hresult : result ∈ (memoryTiers rt now checks memory).1)
    (hdated : Dated result.limit.windowSeconds result.bucket [] now memory) :
    ∃ entry, entry.windowIndex = now / result.limit.windowSeconds.1 ∧
      Parked result.bucket entry (memoryTiers rt now checks memory).2 := by
  induction checks generalizing memory with
  | nil => cases hresult
  | cons check checks ih =>
      rcases buckets_of_nodup hnodup with ⟨hfirst, hnodup⟩
      rcases List.mem_cons.mp hresult with rfl | hrest
      · have hcounters := counters_nextEntry hdated.window now
        have hget := get_increment memory check.bucket check.limit.windowSeconds now
        have hparked : Parked check.bucket _
          (memory.increment check.bucket check.limit.windowSeconds now).2 := .inl hget
        exact ⟨_, congrArg Counters.window hcounters, hparked.memoryTiers hfirst⟩
      · have hne := (hfirst _ (toTierCheck_mem hrest)).symm
        exact ih hnodup hrest (hdated.increment_of_ne hne check.limit.windowSeconds)

/-- What a rejection tells: the bucket that is exceeded, and the time until its next window. -/
theorem rejected_cases {arrival : Arrival} {violated : TierResult} {retryAfter : Int}
    {headers : RateLimitHeaders} {problem : ProblemDetails}
    (h : (serve memoryIncrement limits rt w arrival).1 =
      .tooManyRequests violated retryAfter headers problem) :
    arrival.request.path ∉ limits.exemptPaths ∧
      violated ∈ (memoryTiers rt arrival.now (limits.checks rt arrival.request) w.memory).1 ∧
      violated.exceeded = true ∧ retryAfter = max 1 (violated.reset - arrival.now) := by
  have hexempt : arrival.request.path ∉ limits.exemptPaths := by
    intro hexempt
    rw [serve_exempt hexempt] at h
    cases h
  rw [serve_memory hexempt] at h
  unfold respond at h
  cases hfind : (memoryTiers rt arrival.now (limits.checks rt arrival.request) w.memory).1.find?
      TierResult.exceeded with
  | none =>
      rw [hfind] at h
      cases h
  | some found =>
      rw [hfind] at h
      cases h
      exact ⟨hexempt, List.mem_of_find?_eq_some hfind, List.find?_some hfind, rfl⟩

/-- The promised time is the beginning of the next window. -/
theorem add_retryAfter (hnodup : (checks.map TierCheck.bucket).Nodup)
    (hresult : result ∈ (memoryTiers rt now checks memory).1) :
    now + max 1 (result.reset - now) =
      (now / result.limit.windowSeconds.1 + 1) * result.limit.windowSeconds.1 := by
  have hreset : result.reset = now / result.limit.windowSeconds.1 * result.limit.windowSeconds.1 +
      result.limit.windowSeconds.1 :=
    congrArg TierResult.reset (result_memoryTiers hnodup hresult)
  have hrest := Int.lt_ediv_add_one_mul_self now result.limit.windowSeconds.2
  rw [Int.add_mul, Int.one_mul] at hrest ⊢
  omega

/-! ## The retry -/

/-- The number of requests that the entry of a bucket has counted in its window. -/
def finished (bucket : String) (memory : InMemoryRateLimitStore) : Nat :=
  ((memory.entries.get bucket).map MemoryEntry.currentCount).getD 0

/-- At the beginning of the next window, all of them weigh in. -/
theorem Parked.increment_fst (h : Parked bucket entry memory) (W : WindowSeconds) :
    (memory.increment bucket W ((entry.windowIndex + 1) * W.1)).1 =
      ⟨1, finished bucket memory, (entry.windowIndex + 1) * W.1⟩ := by
  have hindex : (entry.windowIndex + 1) * W.1 / W.1 = entry.windowIndex + 1 :=
    Int.mul_ediv_cancel _ W.2.ne'
  rcases h with hget | hget
  · simp [InMemoryRateLimitStore.increment, finished, hindex, hget, nextEntry]
  · simp [InMemoryRateLimitStore.increment, finished, hindex, hget, nextEntry]

/-- At the beginning of a window the window before weighs in fully. -/
theorem exceeded_result_iff (check : TierCheck)
    (hround : ExactUpTo rt.round (check.limit.limit + 1)) (n : Nat) (now : Int) :
    (check.result rt ⟨1, n, now⟩ now).exceeded = false ↔ n < check.limit.limit := by
  have hcount : slidingWindowCount rt.round ⟨1, n, now⟩ check.limit.windowSeconds now =
      rt.round (1 + rt.round n) := by
    simp only [slidingWindowCount, previousWeight_self hround, mul_one, Nat.cast_one]
  simp only [TierResult.exceeded, TierCheck.result, hcount, decide_eq_false_iff_not, not_lt]
  constructor
  · intro hle
    by_contra hlt
    -- the limit is a number that is kept, and one more is, too
    have hlimit := hround.mono (Nat.cast_le (α := ℚ).mpr (not_lt.mp hlt))
    rw [hround.natCast check.limit.limit (Nat.le_succ _)] at hlimit
    have hmore : ((check.limit.limit + 1 : Nat) : ℚ) ≤ 1 + rt.round n := by
      push_cast
      linarith
    exact Nat.not_succ_le_self _ (hround.le_of_round_le hmore hle)
  · intro hlt
    refine hround.le_natCast (Nat.le_succ _) ?_
    rw [hround.natCast n (by omega)]
    exact_mod_cast (by omega : 1 + n ≤ check.limit.limit)

/-- The tier of a bucket lets a request through: the request may still be rejected by another
tier. -/
def LetsThrough (limits : RateLimitConfig) (rt : Runtime) (bucket : String) (w : Stores)
    (arrival : Arrival) : Prop :=
  ∀ result ∈ (memoryTiers rt arrival.now (limits.checks rt arrival.request) w.memory).1,
    result.bucket = bucket → result.exceeded = false

/-- A tier that rejects a request does not let it through. -/
theorem not_letsThrough_of_rejected {arrival : Arrival} {violated : TierResult} {retryAfter : Int}
    {headers : RateLimitHeaders} {problem : ProblemDetails}
    (h : (serve memoryIncrement limits rt w arrival).1 =
      .tooManyRequests violated retryAfter headers problem) :
    ¬ LetsThrough limits rt violated.bucket w arrival := by
  intro hthrough
  rcases rejected_cases h with ⟨-, hmem, hexceeded, -⟩
  rw [hthrough violated hmem rfl] at hexceeded
  cases hexceeded

/-- A request that every tier lets through is let in. -/
theorem admitted_of_letsThrough {arrival : Arrival}
    (h : ∀ bucket, LetsThrough limits rt bucket w arrival) :
    (serve memoryIncrement limits rt w arrival).1.admitted = true := by
  by_cases hexempt : arrival.request.path ∈ limits.exemptPaths
  · rw [serve_exempt hexempt]
    rfl
  · rw [serve_memory hexempt, admitted_respond]
    exact fun result hresult => h result.bucket result hresult rfl

/-- A request has been rejected, and no other one is counted in its bucket until the promised time:
the tier lets the next one through then just if the entry of the bucket has counted less than the
limit in the window that has ended. -/
theorem retry_let_through_iff (limits : RateLimitConfig) (hnames : limits.WellNamed) (rt : Runtime)
    (before : List Arrival) (arrival : Arrival) (between : List Arrival) (retry : Arrival)
    (hsorted : (before ++ [arrival]).Pairwise fun a b => a.now ≤ b.now)
    (violated : TierResult) (hround : ExactUpTo rt.round (violated.limit.limit + 1))
    (retryAfter : Int) (headers : RateLimitHeaders) (problem : ProblemDetails)
    (hrejected : (serve memoryIncrement limits rt
      (Run.final (step memoryIncrement limits rt) Stores.empty before) arrival).1 =
        .tooManyRequests violated retryAfter headers problem)
    (hother : ∀ a ∈ between, ¬ Counted limits rt violated.bucket a.request)
    (hretry : retry.now = arrival.now + retryAfter)
    (hcounted : Counted limits rt violated.bucket retry.request) :
    LetsThrough limits rt violated.bucket
        (Run.final (step memoryIncrement limits rt) Stores.empty (before ++ arrival :: between))
        retry ↔
      finished violated.bucket (memoryAt violated.bucket retry.now (limits.checks rt retry.request)
        (Run.final (step memoryIncrement limits rt) Stores.empty
          (before ++ arrival :: between)).memory) < violated.limit.limit := by
  rw [List.pairwise_append] at hsorted
  rcases rejected_cases hrejected with ⟨hexempt, hviolated, -, rfl⟩
  have hgoverns : Governs limits rt violated.bucket violated.limit :=
    governs_of_wellNamed hnames (toTierCheck_mem hviolated)
  have hnodup := nodup_buckets limits rt
  have hdated := dated_final hgoverns hsorted.1
    fun a ha => hsorted.2.2 a ha arrival List.mem_cons_self
  rcases parked_memoryTiers (hnodup _) hviolated hdated with ⟨entry, hwindow, hparked⟩
  -- the entry is left alone until the retry
  have hkept : Parked violated.bucket entry (Run.final (step memoryIncrement limits rt)
      Stores.empty (before ++ arrival :: between)).memory := by
    rw [Run.final_append, Run.final_cons]
    refine parked_arrivals hother ?_
    rw [step, serve_memory hexempt]
    exact hparked
  have htime : retry.now =
      (entry.windowIndex + 1) * violated.limit.windowSeconds.1 := by
    rw [hretry, add_retryAfter (hnodup _) hviolated, hwindow]
  have hcounts := (hkept.memoryAt retry.now (limits.checks rt retry.request)).increment_fst
    violated.limit.windowSeconds
  rw [← htime] at hcounts
  -- the check of the retry in the bucket
  have hexceeded : ∀ result ∈ (memoryTiers rt retry.now (limits.checks rt retry.request)
      (Run.final (step memoryIncrement limits rt) Stores.empty
        (before ++ arrival :: between)).memory).1, result.bucket = violated.bucket →
      (result.exceeded = false ↔ finished violated.bucket (memoryAt violated.bucket retry.now
        (limits.checks rt retry.request) (Run.final (step memoryIncrement limits rt) Stores.empty
          (before ++ arrival :: between)).memory) < violated.limit.limit) := by
    intro result hresult hbucket
    have hlimit : result.limit = violated.limit := hgoverns _ _ (toTierCheck_mem hresult) hbucket
    have hself := result_memoryTiers (hnodup _) hresult
    rw [countsAt, hbucket, hlimit, hcounts] at hself
    rw [hself, exceeded_result_iff _ (hlimit ▸ hround), hlimit]
  rcases hcounted.2 with ⟨check, hcheck, hbucket⟩
  rcases exists_result hcheck rt retry.now (Run.final (step memoryIncrement limits rt) Stores.empty
    (before ++ arrival :: between)).memory with ⟨result, hresult, rfl⟩
  constructor
  · intro hthrough
    exact (hexceeded result hresult hbucket).mp (hthrough result hresult hbucket)
  · intro hless other hother' hbucket'
    exact (hexceeded other hother' hbucket').mpr hless

/-! ## Runs -/

theorem respond_singleton (hexceeded : result.exceeded = true) (now : Int) (instanceUrl : String) :
    respond [result] now instanceUrl = reject result (max 1 (result.reset - now)) instanceUrl := by
  simp [respond, hexceeded]

/-- The estimate at the beginning of a window exceeds the limit. -/
theorem exceeded_result (check : TierCheck) (hround : ExactUpTo rt.round (check.limit.limit + 1))
    {n : Nat} (hle : check.limit.limit ≤ n) (now : Int) :
    (check.result rt ⟨1, n, now⟩ now).exceeded = true := by
  rw [← Bool.not_eq_false, exceeded_result_iff check hround]
  exact Nat.not_lt.mpr hle

/-- The estimate exceeds the limit if the current counter does. -/
theorem exceeded_of_lt (check : TierCheck) (hround : ExactUpTo rt.round (check.limit.limit + 1))
    {counts : WindowCounts} (hlt : check.limit.limit < counts.currentCount) (now : Int) :
    (check.result rt counts now).exceeded = true := by
  refine decide_eq_true (not_le.mp fun hle => ?_)
  have hcurrent := currentCount_le hround hle
  omega

/-- Two requests in ten seconds. -/
def pairConfig : RateLimitConfig :=
  ⟨⟨2, 10, ten_seconds_pos⟩, ⟨2, 10, ten_seconds_pos⟩, [], []⟩

/-- A client that was rejected because of the window before is let through as promised. -/
theorem retry_let_through_pair :
    LetsThrough pairConfig plainRuntime "ip:a"
      (Run.final (step memoryIncrement pairConfig plainRuntime) Stores.empty
        ([visit "a" 9, visit "a" 9] ++ visit "a" 10 :: [visit "b" 15])) (visit "a" 20) := by
  have hround : ExactUpTo plainRuntime.round 3 := exactUpTo_roundDouble (by decide)
  have hserve : (serve memoryIncrement pairConfig plainRuntime
      (Run.final (step memoryIncrement pairConfig plainRuntime) Stores.empty
        [visit "a" 9, visit "a" 9]) (visit "a" 10)).1 =
      respond [(pairConfig.ipCheck (visit "a" 10).request).result plainRuntime ⟨1, 2, 10⟩ 10] 10
        "/" :=
    rfl
  rw [respond_singleton (exceeded_result _ hround (show 2 ≤ 2 from le_rfl) 10)] at hserve
  refine (retry_let_through_iff pairConfig (fun e he => absurd he List.not_mem_nil)
    plainRuntime [visit "a" 9, visit "a" 9] (visit "a" 10) [visit "b" 15] (visit "a" 20)
    (by decide) _ hround _ _ _ hserve ?_ rfl ?_).mpr ?_
  · decide
  · decide
  · decide

set_option maxRecDepth 4000 in
/-- The burst of an address is used up and one more request is rejected: the client comes back
after the ten seconds that it was told, and is rejected again. -/
theorem rejected_twice :
    ∃ violated headers problem violated' retryAfter' headers' problem',
      (serve memoryIncrement rateLimitConfig plainRuntime
        (Run.final (step memoryIncrement rateLimitConfig plainRuntime) Stores.empty
          (List.replicate 20 (visit "a" 0))) (visit "a" 0)).1 =
        .tooManyRequests violated 10 headers problem ∧
      (serve memoryIncrement rateLimitConfig plainRuntime
        (Run.final (step memoryIncrement rateLimitConfig plainRuntime) Stores.empty
          (List.replicate 21 (visit "a" 0))) (visit "a" 10)).1 =
        .tooManyRequests violated' retryAfter' headers' problem' ∧
      violated'.bucket = violated.bucket := by
  have hround : ExactUpTo plainRuntime.round 21 := exactUpTo_roundDouble (by decide)
  have hfirst : (serve memoryIncrement rateLimitConfig plainRuntime
      (Run.final (step memoryIncrement rateLimitConfig plainRuntime) Stores.empty
        (List.replicate 20 (visit "a" 0))) (visit "a" 0)).1 =
      respond [(rateLimitConfig.ipCheck (visit "a" 0).request).result plainRuntime ⟨21, 0, 0⟩ 0] 0
        "/" :=
    rfl
  have hsecond : (serve memoryIncrement rateLimitConfig plainRuntime
      (Run.final (step memoryIncrement rateLimitConfig plainRuntime) Stores.empty
        (List.replicate 21 (visit "a" 0))) (visit "a" 10)).1 =
      respond [(rateLimitConfig.ipCheck (visit "a" 10).request).result plainRuntime ⟨1, 21, 10⟩ 10]
        10 "/" :=
    rfl
  rw [respond_singleton (exceeded_of_lt _ hround (by decide) 0)] at hfirst
  rw [respond_singleton (exceeded_result _ hround (show 20 ≤ 21 by decide) 10)] at hsecond
  exact ⟨_, _, _, _, _, _, _, hfirst, hsecond, rfl⟩

end RateLimit
end Kraal
