import Kraal.RateLimit.Budget

/-!
# The budgets that are honoured

A response advertises the smallest number of requests that is left below the limits of the client.
That number is what a difference of doubles is rounded down to, while the next requests are let in
by a sum of doubles.  Where the difference has been rounded up to the number that is advertised, the
sum may be rounded up to more than the limit.

Main results:

- Theorem {lit}`leaves_of_honoured`: requests that are let in at once show the room of a bucket.
- Theorem {lit}`budgetHonoured_iff`: the budgets that are honoured.
- Theorem {lit}`budget_exceeded`: a budget that is not.
-/

namespace Kraal
namespace RateLimit

open Foundation

variable {limits : RateLimitConfig} {rt : Runtime} {bucket : String} {W : WindowSeconds}
  {now : Int} {memory : InMemoryRateLimitStore} {w : Stores} {checks : List TierCheck}
  {result : TierResult} {arrival : Arrival} {n : Nat}

/-! ## Requests at once -/

/-- A bucket has been counted at a time, so that it is not swept then. -/
def SeenAt (bucket : String) (now : Int) (memory : InMemoryRateLimitStore) : Prop :=
  ∃ entry, memory.entries.get bucket = some entry ∧ entry.lastSeen = now

theorem seenAt_increment (memory : InMemoryRateLimitStore) (bucket : String) (W : WindowSeconds)
    (now : Int) : SeenAt bucket now (memory.increment bucket W now).2 :=
  ⟨_, get_increment memory bucket W now, lastSeen_nextEntry _ _ _⟩

/-- An arrival of another bucket at the same time leaves the entry alone. -/
theorem SeenAt.get_increment_of_ne (h : SeenAt bucket now memory) {bucket' : String}
    (hbucket : bucket' ≠ bucket) (W : WindowSeconds) :
    (memory.increment bucket' W now).2.entries.get bucket = memory.entries.get bucket := by
  rcases RateLimit.get_increment_of_ne memory hbucket.symm W now with hget | ⟨-, e, he, hidle⟩
  · exact hget
  · rcases h with ⟨entry, hentry, hseen⟩
    rw [hentry, Option.some.injEq] at he
    rw [← he, hseen] at hidle
    simp [sweepIdleSeconds] at hidle

theorem SeenAt.increment_of_ne (h : SeenAt bucket now memory) {bucket' : String}
    (hbucket : bucket' ≠ bucket) (W : WindowSeconds) :
    SeenAt bucket now (memory.increment bucket' W now).2 := by
  rw [SeenAt, h.get_increment_of_ne hbucket W]
  exact h

/-- The checks of other buckets at the same time leave the entry alone. -/
theorem SeenAt.get_memoryTiers (h : SeenAt bucket now memory)
    (hother : ∀ check ∈ checks, check.bucket ≠ bucket) :
    (memoryTiers rt now checks memory).2.entries.get bucket = memory.entries.get bucket := by
  induction checks generalizing memory with
  | nil => rfl
  | cons check checks ih =>
      have hne := hother check List.mem_cons_self
      have hrest := ih (h.increment_of_ne hne check.limit.windowSeconds)
        fun check' hcheck => hother check' (List.mem_cons_of_mem _ hcheck)
      exact hrest.trans (h.get_increment_of_ne hne _)

theorem SeenAt.get_memoryAt (h : SeenAt bucket now memory) (checks : List TierCheck) :
    (memoryAt bucket now checks memory).entries.get bucket = memory.entries.get bucket := by
  induction checks generalizing memory with
  | nil => rfl
  | cons check checks ih =>
      rw [memoryAt]
      split
      case isTrue => rfl
      case isFalse hne =>
          exact (ih (h.increment_of_ne hne _)).trans (h.get_increment_of_ne hne _)

/-- The counts of a bucket are those of its entry. -/
theorem countsAfter_congr {memory' : InMemoryRateLimitStore}
    (h : memory.entries.get bucket = memory'.entries.get bucket) (W : WindowSeconds) (now : Int)
    (n : Nat) : countsAfter memory bucket W now n = countsAfter memory' bucket W now n := by
  simp only [countsAfter, InMemoryRateLimitStore.counters, h]

/-- An entry that is not of a later window. -/
theorem dated_of_window
    (h : ∀ entry, memory.entries.get bucket = some entry → entry.windowIndex ≤ now / W.1) :
    Dated W bucket [] now memory :=
  ⟨fun _ hs => absurd hs List.not_mem_nil, h, fun _ _ _ hs => absurd hs List.not_mem_nil⟩

theorem Dated.memoryAt (h : Dated W bucket [] now memory) (checks : List TierCheck) :
    Dated W bucket [] now (memoryAt bucket now checks memory) := by
  induction checks generalizing memory with
  | nil => exact h
  | cons check checks ih =>
      rw [RateLimit.memoryAt]
      split
      case isTrue => exact h
      case isFalse hne => exact ih (h.increment_of_ne hne _)

/-- The entry of a bucket after a request that is counted in it. -/
theorem get_memoryTiers (rt : Runtime) (now : Int) (memory : InMemoryRateLimitStore)
    {check : TierCheck} (hnodup : (checks.map TierCheck.bucket).Nodup)
    (hcheck : check ∈ checks) :
    (memoryTiers rt now checks memory).2.entries.get check.bucket =
      ((memoryAt check.bucket now checks memory).increment check.bucket check.limit.windowSeconds
        now).2.entries.get check.bucket := by
  induction checks generalizing memory with
  | nil => cases hcheck
  | cons first checks ih =>
      rcases buckets_of_nodup hnodup with ⟨hfirst, hnodup⟩
      rcases List.mem_cons.mp hcheck with rfl | hcheck
      · have hself : memoryAt check.bucket now (check :: checks) memory = memory := if_pos rfl
        rw [hself]
        exact (seenAt_increment _ _ _ _).get_memoryTiers hfirst
      · rw [memoryAt, if_neg (hfirst _ hcheck).symm]
        exact ih _ hnodup hcheck

/-- The room that a request leaves in a bucket: what its counts allow. -/
theorem room_memoryTiers_iff {check : TierCheck} (hnodup : (checks.map TierCheck.bucket).Nodup)
    (hcheck : check ∈ checks) (hdated : Dated check.limit.windowSeconds check.bucket [] now memory)
    (n : Nat) :
    Room rt.round check.limit check.bucket n now (memoryTiers rt now checks memory).2 ↔
      slidingWindowCount rt.round { countsAt checks now memory check with
        currentCount := (countsAt checks now memory check).currentCount + n }
          check.limit.windowSeconds now ≤ check.limit.limit := by
  have hnone : ∀ s ∈ ([] : List Int), s ≤ now := fun _ hs => absurd hs List.not_mem_nil
  have hget := get_memoryTiers rt now memory hnodup hcheck
  have hbefore := hdated.memoryAt checks
  have hcounts := countsAfter_congr hget check.limit.windowSeconds now n
  rw [hbefore.countsAfter_increment] at hcounts
  have hafter : Dated check.limit.windowSeconds check.bucket [] now
      (memoryTiers rt now checks memory).2 := by
    refine dated_of_window fun entry hentry => ?_
    rw [hget] at hentry
    exact (hbefore.increment hnone).window entry hentry
  have hsame : countsAfter (memoryTiers rt now checks memory).2 check.bucket
      check.limit.windowSeconds now n = { countsAt checks now memory check with
        currentCount := (countsAt checks now memory check).currentCount + n } := by
    rw [hcounts, countsAt, hbefore.increment_fst, countsAfter, Nat.add_assoc, Nat.add_comm 1 n]
  rw [← hsame]
  exact ⟨fun h => h.estimate_le, fun h => ⟨hafter, h⟩⟩

/-- A request that is let in leaves room for none, at least. -/
theorem leaves_of_within {checks : List TierCheck}
    (hnodup : (checks.map TierCheck.bucket).Nodup)
    (hwithin : Within (memoryTiers rt now checks memory).1) {check : TierCheck}
    (hcheck : check ∈ checks)
    (hdated : Dated check.limit.windowSeconds check.bucket [] now memory) :
    Room rt.round check.limit check.bucket 0 now (memoryTiers rt now checks memory).2 := by
  rw [room_memoryTiers_iff hnodup hcheck hdated]
  rcases exists_result hcheck rt now memory with ⟨result, hresult, rfl⟩
  have hexceeded := hwithin result hresult
  rw [result_memoryTiers hnodup hresult] at hexceeded
  exact not_lt.mp (of_decide_eq_false hexceeded)

/-- Requests that are let in at once leave room for as many before them. -/
theorem leaves_of_admitted (hexempt : arrival.request.path ∉ limits.exemptPaths)
    (hseen : ∀ check ∈ limits.checks rt arrival.request,
      SeenAt check.bucket arrival.now w.memory)
    (h : Leaves limits rt arrival.request 0 arrival.now w.memory)
    (hadmitted : ∀ e ∈ Run.trace (step memoryIncrement limits rt) w (List.replicate n arrival),
      (serve memoryIncrement limits rt e.1 e.2).1.admitted = true) :
    Leaves limits rt arrival.request n arrival.now w.memory := by
  induction n generalizing w with
  | zero => exact h
  | succ n ih =>
      have hnodup := nodup_buckets limits rt arrival.request
      rw [List.replicate_succ, Run.trace_cons, List.forall_mem_cons] at hadmitted
      rcases hadmitted with ⟨hfirst, hrest⟩
      have hstep : (step memoryIncrement limits rt w arrival).memory =
          (memoryTiers rt arrival.now (limits.checks rt arrival.request) w.memory).2 := by
        rw [step, serve_memory hexempt]
      rw [serve_memory hexempt, admitted_respond] at hfirst
      have hseen' : ∀ check ∈ limits.checks rt arrival.request, SeenAt check.bucket arrival.now
          (step memoryIncrement limits rt w arrival).memory := by
        intro check hcheck
        rw [hstep, SeenAt, get_memoryTiers _ _ _ hnodup hcheck]
        exact seenAt_increment _ _ _ _
      have hroom := ih hseen' (fun check hcheck => hstep ▸
        leaves_of_within hnodup hfirst hcheck (h check hcheck).toDated) hrest
      intro check hcheck
      have hafter := hroom check hcheck
      have hdated := (h check hcheck).toDated
      rw [hstep, room_memoryTiers_iff hnodup hcheck hdated, countsAt,
        (hdated.memoryAt _).increment_fst] at hafter
      refine ⟨hdated, ?_⟩
      have hsame := countsAfter_congr ((hseen check hcheck).get_memoryAt
        (limits.checks rt arrival.request)) check.limit.windowSeconds arrival.now (n + 1)
      rw [← hsame, countsAfter, Nat.add_comm n 1, ← Nat.add_assoc]
      exact hafter

/-! ## What is advertised -/

/-- The smallest budget is one of the results, and no other one is smaller. -/
theorem tightest_cases {results : List TierResult} (h : tightest results = some result) :
    result ∈ results ∧ ∀ other ∈ results, result.remaining ≤ other.remaining := by
  cases results with
  | nil => cases h
  | cons first results =>
      rw [tightest, Option.some.injEq] at h
      subst h
      induction results generalizing first with
      | nil => simp
      | cons next results ih =>
          rw [List.foldl_cons]
          by_cases hsmaller : next.remaining < first.remaining
          · rw [if_pos hsmaller]
            rcases ih next with ⟨hmem, hle⟩
            have hnext := hle next List.mem_cons_self
            refine ⟨List.mem_cons_of_mem _ hmem, fun other hother => ?_⟩
            rcases List.mem_cons.mp hother with rfl | hother
            · omega
            · exact hle other hother
          · rw [if_neg hsmaller]
            rcases ih first with ⟨hmem, hle⟩
            have hfirst := hle first List.mem_cons_self
            constructor
            · rcases List.mem_cons.mp hmem with heq | hmem
              · rw [heq]
                exact List.mem_cons_self
              · exact List.mem_cons_of_mem _ (List.mem_cons_of_mem _ hmem)
            · intro other hother
              rcases List.mem_cons.mp hother with rfl | hother
              · exact hfirst
              · rcases List.mem_cons.mp hother with rfl | hother
                · omega
                · exact hle other (List.mem_cons_of_mem _ hother)

/-- A response with headers: every check is within its limit, and the smallest budget of them is
advertised. -/
theorem advertised_cases {results : List TierResult} {instanceUrl : String}
    {headers : RateLimitHeaders}
    (h : respond results now instanceUrl = .next (some headers)) :
    Within results ∧ (∃ result ∈ results, headers.remaining = result.remaining) ∧
      ∀ result ∈ results, headers.remaining ≤ result.remaining := by
  have hwithin : Within results := by
    rw [← admitted_respond _ now instanceUrl, h]
    rfl
  have hfind : results.find? TierResult.exceeded = none :=
    List.find?_eq_none.mpr fun other hother => by simp [hwithin other hother]
  simp only [respond, hfind, Response.next.injEq, Option.map_eq_some_iff] at h
  rcases h with ⟨tight, htight, rfl⟩
  have hcases := tightest_cases htight
  exact ⟨hwithin, ⟨tight, hcases.1, rfl⟩, hcases.2⟩

/-! ## The budgets that are honoured -/

/-- The counts of every bucket of a request, and the smallest budget on top of them: with what the
window before weighs they exceed the limit by no more than half of its last digit. -/
def BudgetFits (limits : RateLimitConfig) (rt : Runtime) (req : Request) (now : Int)
    (memory : InMemoryRateLimitStore) : Prop :=
  ∀ check ∈ limits.checks rt req, ∃ other ∈ limits.checks rt req,
    let counts := countsAt (limits.checks rt req) now memory check
    let budget := (other.result rt (countsAt (limits.checks rt req) now memory other) now).remaining
    (counts.currentCount : ℚ) + budget + rt.round (counts.previousCount *
        previousWeight rt.round counts.windowStart check.limit.windowSeconds now) ≤
      check.limit.limit + lastDigit 53 check.limit.limit / 2

/-- What leaves a budget for every bucket: the smallest one fits. -/
theorem leaves_iff_fits (hround : rt.round = roundDouble)
    (hlimits : ∀ check ∈ limits.checks rt arrival.request, check.limit.limit < 2 ^ 52)
    (hdated : ∀ check ∈ limits.checks rt arrival.request,
      Dated check.limit.windowSeconds check.bucket [] arrival.now w.memory)
    {headers : RateLimitHeaders}
    (hresponse : (serve memoryIncrement limits rt w arrival).1 = .next (some headers)) :
    Leaves limits rt arrival.request headers.remaining arrival.now
        (step memoryIncrement limits rt w arrival).memory ↔
      BudgetFits limits rt arrival.request arrival.now w.memory := by
  have hexempt : arrival.request.path ∉ limits.exemptPaths := by
    intro hexempt
    rw [serve_exempt hexempt] at hresponse
    cases hresponse
  rw [step, serve_memory hexempt]
  rw [serve_memory hexempt] at hresponse
  rcases advertised_cases hresponse with ⟨hwithin, ⟨tight, htight, hbudget⟩, hsmallest⟩
  have hnodup := nodup_buckets limits rt arrival.request
  -- the limit of a check that lets the request in is not zero
  have hpos : ∀ check ∈ limits.checks rt arrival.request, 0 < check.limit.limit := by
    intro check hcheck
    have hroom := leaves_of_within hnodup hwithin hcheck (hdated check hcheck)
    rw [room_memoryTiers_iff hnodup hcheck (hdated check hcheck), hround] at hroom
    have hexact := exactUpTo_roundDouble (n := check.limit.limit + 1)
      (by linarith [hlimits check hcheck])
    have hcurrent := currentCount_le hexact hroom
    rw [countsAt, ((hdated check hcheck).memoryAt _).increment_fst] at hcurrent
    simp only at hcurrent
    omega
  have hfits : ∀ check ∈ limits.checks rt arrival.request, ∀ n : Nat,
      Room rt.round check.limit check.bucket n arrival.now
          (memoryTiers rt arrival.now (limits.checks rt arrival.request) w.memory).2 ↔
        ((countsAt (limits.checks rt arrival.request) arrival.now w.memory check).currentCount : ℚ)
            + n + rt.round ((countsAt (limits.checks rt arrival.request) arrival.now w.memory
              check).previousCount * previousWeight rt.round
                (countsAt (limits.checks rt arrival.request) arrival.now w.memory check).windowStart
                check.limit.windowSeconds arrival.now) ≤
          check.limit.limit + lastDigit 53 check.limit.limit / 2 := by
    intro check hcheck n
    rw [room_memoryTiers_iff hnodup hcheck (hdated check hcheck), slidingWindowCount, hround,
      roundDouble, roundFloat_le_natCast_iff (hpos check hcheck) (hlimits check hcheck)]
    push_cast
    rfl
  constructor
  · intro hleaves check hcheck
    refine ⟨tight.toTierCheck, toTierCheck_mem htight, ?_⟩
    have hfit := (hfits check hcheck _).mp (hleaves check hcheck)
    rw [hbudget, result_memoryTiers hnodup htight] at hfit
    exact hfit
  · intro hfit check hcheck
    rcases hfit check hcheck with ⟨other, hother, hle⟩
    rw [hfits check hcheck]
    refine le_trans ?_ hle
    rcases exists_result hother rt arrival.now w.memory with ⟨result, hresult, rfl⟩
    have hsmaller := hsmallest result hresult
    rw [result_memoryTiers hnodup hresult] at hsmaller
    have hcast : (headers.remaining : ℚ) ≤ ((result.toTierCheck.result rt (countsAt
        (limits.checks rt arrival.request) arrival.now w.memory result.toTierCheck)
          arrival.now).remaining : ℚ) := by
      exact_mod_cast hsmaller
    linarith

/-- What is let in at once leaves room in every bucket. -/
theorem leaves_of_honoured
    (hdated : ∀ check ∈ limits.checks rt arrival.request,
      Dated check.limit.windowSeconds check.bucket [] arrival.now w.memory)
    (hexempt : arrival.request.path ∉ limits.exemptPaths)
    (hadmitted : (serve memoryIncrement limits rt w arrival).1.admitted = true)
    (h : BudgetHonoured limits rt arrival.request n arrival.now
      (step memoryIncrement limits rt w arrival)) :
    Leaves limits rt arrival.request n arrival.now
      (step memoryIncrement limits rt w arrival).memory := by
  have hnodup := nodup_buckets limits rt arrival.request
  have hstep : (step memoryIncrement limits rt w arrival).memory =
      (memoryTiers rt arrival.now (limits.checks rt arrival.request) w.memory).2 := by
    rw [step, serve_memory hexempt]
  rw [serve_memory hexempt, admitted_respond] at hadmitted
  have hsame : SameClient rt arrival.request arrival.request := ⟨rfl, rfl, rfl⟩
  have hcopy : ∀ a ∈ List.replicate n arrival, a = arrival :=
    fun a ha => List.eq_of_mem_replicate ha
  refine leaves_of_admitted hexempt (fun check hcheck => ?_) (fun check hcheck => ?_) fun e he => ?_
  · rw [hstep, SeenAt, get_memoryTiers _ _ _ hnodup hcheck]
    exact seenAt_increment _ _ _ _
  · rw [hstep]
    exact leaves_of_within hnodup hadmitted hcheck (hdated check hcheck)
  · have hinput := hcopy e.2 (Run.input_mem_of_mem_trace he)
    refine h (List.replicate n arrival) ?_ (fun a ha => (hcopy a ha ▸ le_rfl))
      (fun a ha => .inl (hcopy a ha ▸ hsame)) ?_ e he (hinput ▸ hsame)
    · exact List.pairwise_replicate.mpr (.inr le_rfl)
    · exact List.countP_le_length.trans_eq List.length_replicate

/-- With doubles, and limits below {lit}`2 ^ 52`, the budget that a response advertises is honoured
just if it fits.  No entry of the client is of a later window, as is the case in every run at times
that do not fall if a bucket has one limit. -/
theorem budgetHonoured_iff (limits : RateLimitConfig) (rt : Runtime)
    (hround : rt.round = roundDouble) (w : Stores) (arrival : Arrival)
    (hlimits : ∀ check ∈ limits.checks rt arrival.request, check.limit.limit < 2 ^ 52)
    (hwindows : ∀ check ∈ limits.checks rt arrival.request, ∀ entry,
      w.memory.entries.get check.bucket = some entry →
        entry.windowIndex ≤ arrival.now / check.limit.windowSeconds.1)
    (headers : RateLimitHeaders)
    (hresponse : (serve memoryIncrement limits rt w arrival).1 = .next (some headers)) :
    BudgetHonoured limits rt arrival.request headers.remaining arrival.now
        (step memoryIncrement limits rt w arrival) ↔
      BudgetFits limits rt arrival.request arrival.now w.memory := by
  have hdated : ∀ check ∈ limits.checks rt arrival.request,
      Dated check.limit.windowSeconds check.bucket [] arrival.now w.memory :=
    fun check hcheck => dated_of_window (hwindows check hcheck)
  have hexempt : arrival.request.path ∉ limits.exemptPaths := by
    intro hexempt
    rw [serve_exempt hexempt] at hresponse
    cases hresponse
  have hexact : rt.ExactFor limits arrival.request := by
    intro check hcheck
    rw [hround]
    exact exactUpTo_roundDouble (by linarith [hlimits check hcheck])
  rw [← leaves_iff_fits hround hlimits hdated hresponse]
  constructor
  · exact leaves_of_honoured hdated hexempt (by rw [hresponse]; rfl)
  · exact admitted_of_leaves hexact

theorem twentyOne_seconds_pos : (0 : Int) < 21 := by decide

/-- Eleven requests in twenty-one seconds. -/
def elevenConfig : RateLimitConfig :=
  ⟨⟨11, 21, twentyOne_seconds_pos⟩, ⟨11, 21, twentyOne_seconds_pos⟩, [], []⟩

/-- The estimate of a bucket with twenty-one requests in the window before, one second before the
current window ends: with doubles it is more than it is without rounding. -/
theorem roundDouble_share :
    roundDouble (21 * previousWeight roundDouble 21 ⟨21, twentyOne_seconds_pos⟩ 41) =
      1 + 5 * 2 ^ (-52 : ℤ) := by
  have hshare : roundDouble (20 / 21) = 8578285004515230 * 2 ^ (-53 : ℤ) := by
    rw [roundDouble, roundFloat_of_zpow_le (e := -53), roundEven_eq (k := 8578285004515230)]
    all_goals norm_num
  have hweight : roundDouble (1 - 8578285004515230 * 2 ^ (-53 : ℤ)) =
      428914250225762 * 2 ^ (-53 : ℤ) := by
    have hexact : roundFloat 53 ((428914250225762 : ℤ) * 2 ^ (-53 : ℤ)) =
        (428914250225762 : ℤ) * 2 ^ (-53 : ℤ) := roundFloat_mul_zpow (by norm_num) (-53)
    have hdifference : (1 : ℚ) - 8578285004515230 * 2 ^ (-53 : ℤ) =
        (428914250225762 : ℤ) * 2 ^ (-53 : ℤ) := by norm_num
    rw [hdifference, roundDouble, hexact]
    norm_num
  have hprevious : previousWeight roundDouble 21 ⟨21, twentyOne_seconds_pos⟩ 41 =
      428914250225762 * 2 ^ (-53 : ℤ) := by
    have helapsed : (((41 - 21 : Int) : ℚ) / ((21 : Int) : ℚ)) = 20 / 21 := by norm_num
    rw [previousWeight, helapsed, hshare, hweight]
    norm_num
  rw [hprevious, roundDouble, roundFloat_of_zpow_le (e := -52),
    roundEven_eq (k := 2 ^ 52 + 5)]
  all_goals norm_num

/-- The estimate of a bucket with one more request, and the budget that is left of eleven. -/
theorem roundDouble_estimate :
    roundDouble (1 + (1 + 5 * 2 ^ (-52 : ℤ))) = 2 + 2 ^ (-50 : ℤ) ∧
      roundDouble (11 - (2 + 2 ^ (-50 : ℤ))) = 9 := by
  constructor
  · rw [roundDouble, roundFloat_of_zpow_le (e := -51),
      roundEven_eq_of_even (k := 2 ^ 52 + 2) (by norm_num)]
    all_goals norm_num
  · rw [roundDouble, roundFloat_of_zpow_le (e := -49),
      roundEven_eq_of_even (k := 9 * 2 ^ 49) (by norm_num)]
    all_goals norm_num

/-- What the check of an address finds then. -/
theorem result_eleven :
    (elevenConfig.ipCheck (visit "a" 41).request).result plainRuntime ⟨1, 21, 21⟩ 41 =
      ⟨elevenConfig.ipCheck (visit "a" 41).request, 2 + 2 ^ (-50 : ℤ), 9, 42⟩ := by
  have hcount : slidingWindowCount roundDouble ⟨1, 21, 21⟩ ⟨21, twentyOne_seconds_pos⟩ 41 =
      2 + 2 ^ (-50 : ℤ) := by
    have hshare := roundDouble_share
    simp only [slidingWindowCount]
    push_cast
    rw [hshare, roundDouble_estimate.1]
  have hbudget : ⌊roundDouble (11 - (2 + 2 ^ (-50 : ℤ)))⌋ = 9 := by
    rw [roundDouble_estimate.2]
    norm_num
  simp only [TierCheck.result, plainRuntime, elevenConfig, RateLimitConfig.ipCheck, hcount]
  push_cast
  rw [hbudget]
  rfl

/-- The stores after twenty-one visits of an address at once. -/
def elevenStores : Stores :=
  Run.final (step memoryIncrement elevenConfig plainRuntime) Stores.empty
    (List.replicate 21 (visit "a" 0))

set_option maxRecDepth 4000 in
theorem elevenStores_entry : elevenStores.memory.entries.get "ip:a" = some ⟨0, 21, 0, 0⟩ := rfl

set_option maxRecDepth 4000 in
theorem elevenStores_increment :
    (elevenStores.memory.increment "ip:a" ⟨21, twentyOne_seconds_pos⟩ 41).1 = ⟨1, 21, 21⟩ := rfl

/-- A request with one check. -/
theorem serve_singleton {check : TierCheck} (hexempt : arrival.request.path ∉ limits.exemptPaths)
    (hchecks : limits.checks rt arrival.request = [check]) :
    (serve memoryIncrement limits rt w arrival).1 = respond [check.result rt
      (w.memory.increment check.bucket check.limit.windowSeconds arrival.now).1 arrival.now]
        arrival.now arrival.request.originalUrl := by
  rw [serve_memory hexempt, hchecks]
  rfl

theorem respond_within (h : result.exceeded = false) (now : Int) (instanceUrl : String) :
    respond [result] now instanceUrl = .next (some result.headers) := by
  simp [respond, h, tightest]

theorem countsAt_singleton (check : TierCheck) (now : Int) (memory : InMemoryRateLimitStore) :
    countsAt [check] now memory check =
      (memory.increment check.bucket check.limit.windowSeconds now).1 := by
  rw [countsAt, memoryAt, if_pos rfl]

/-- One more visit then is told that nine more are left: if they come at once, the last one of them
is rejected. -/
theorem budget_exceeded : ∃ headers,
    (serve memoryIncrement elevenConfig plainRuntime elevenStores (visit "a" 41)).1 =
      .next (some headers) ∧
    ¬ BudgetHonoured elevenConfig plainRuntime (visit "a" 41).request headers.remaining 41
      (step memoryIncrement elevenConfig plainRuntime elevenStores (visit "a" 41)) := by
  have hchecks : elevenConfig.checks plainRuntime (visit "a" 41).request =
      [elevenConfig.ipCheck (visit "a" 41).request] := rfl
  have hresponse : (serve memoryIncrement elevenConfig plainRuntime elevenStores
      (visit "a" 41)).1 = .next (some ⟨11, 9, 42⟩) := by
    have hserve : (serve memoryIncrement elevenConfig plainRuntime elevenStores
        (visit "a" 41)).1 = respond [(elevenConfig.ipCheck (visit "a" 41).request).result
          plainRuntime ⟨1, 21, 21⟩ 41] 41 "/" := by
      rw [← elevenStores_increment]
      exact serve_singleton (by decide) hchecks
    have hwithin : ¬ (11 : ℚ) < 2 + 2 ^ (-50 : ℤ) := by norm_num
    rw [hserve, result_eleven, respond_within (decide_eq_false hwithin)]
    rfl
  have hdated : ∀ check ∈ elevenConfig.checks plainRuntime (visit "a" 41).request,
      Dated check.limit.windowSeconds check.bucket [] 41 elevenStores.memory := by
    rw [hchecks, List.forall_mem_singleton]
    refine dated_of_window fun entry hentry => ?_
    rw [Option.some.inj (hentry.symm.trans elevenStores_entry)]
    decide
  refine ⟨⟨11, 9, 42⟩, hresponse, fun hhonoured => ?_⟩
  have hleaves := leaves_of_honoured hdated (by decide) (by rw [hresponse]; rfl) hhonoured
  rw [leaves_iff_fits rfl (by rw [hchecks]; decide) hdated hresponse, BudgetFits, hchecks,
    List.forall_mem_singleton] at hleaves
  rcases hleaves with ⟨other, hother, hle⟩
  rw [List.mem_singleton] at hother
  subst hother
  have hcounts : countsAt [elevenConfig.ipCheck (visit "a" 41).request] (visit "a" 41).now
      elevenStores.memory (elevenConfig.ipCheck (visit "a" 41).request) = ⟨1, 21, 21⟩ :=
    (countsAt_singleton _ _ _).trans elevenStores_increment
  have hbudget : ((elevenConfig.ipCheck (visit "a" 41).request).result plainRuntime ⟨1, 21, 21⟩
      (visit "a" 41).now).remaining = 9 := congrArg TierResult.remaining result_eleven
  have hshare : plainRuntime.round (21 * previousWeight plainRuntime.round 21
      (elevenConfig.ipCheck (visit "a" 41).request).limit.windowSeconds (visit "a" 41).now) =
        1 + 5 * 2 ^ (-52 : ℤ) := roundDouble_share
  have hdigit : lastDigit 53 11 = 2 ^ (-49 : ℤ) := by
    have hlog : Nat.log 2 11 = 3 := by decide
    rw [lastDigit, hlog]
    norm_num
  have hexceeded : (1 + 9 + (1 + 5 * 2 ^ (-52 : ℤ)) : ℚ) ≤ 11 + 2 ^ (-49 : ℤ) / 2 := by
    simp only [hcounts, hbudget] at hle
    push_cast at hle
    change 1 + 9 + plainRuntime.round (21 * _) ≤ (((11 : Nat) : ℚ) + lastDigit 53 11 / 2) at hle
    rw [hdigit, hshare] at hle
    exact hle
  norm_num at hexceeded

/-- The stores after a visit. -/
def visitedStores : Stores :=
  Run.final (step memoryIncrement rateLimitConfig plainRuntime) Stores.empty [visit "a" 0]

/-- Another visit is told that eighteen more are left, and they are. -/
theorem budgetHonoured_visits :
    BudgetHonoured rateLimitConfig plainRuntime (visit "a" 3).request 18 3
      (step memoryIncrement rateLimitConfig plainRuntime visitedStores (visit "a" 3)) := by
  have hchecks : rateLimitConfig.checks plainRuntime (visit "a" 3).request =
      [rateLimitConfig.ipCheck (visit "a" 3).request] := rfl
  have hround : ExactUpTo plainRuntime.round 21 := exactUpTo_roundDouble (by decide)
  have hresult := result_of_previousCount_eq_zero (rateLimitConfig.ipCheck (visit "a" 3).request)
    hround (show 2 ≤ 20 by decide) 0 3
  have hresponse : (serve memoryIncrement rateLimitConfig plainRuntime visitedStores
      (visit "a" 3)).1 = .next (some ⟨20, 18, 10⟩) := by
    have hserve : (serve memoryIncrement rateLimitConfig plainRuntime visitedStores
        (visit "a" 3)).1 = respond [(rateLimitConfig.ipCheck (visit "a" 3).request).result
          plainRuntime ⟨2, 0, 0⟩ 3] 3 "/" :=
      serve_singleton (by decide) hchecks
    have hwithin : ¬ (20 : ℚ) < (2 : Nat) := by norm_num
    rw [hserve, hresult, respond_within (decide_eq_false hwithin)]
    rfl
  refine (budgetHonoured_iff rateLimitConfig plainRuntime rfl visitedStores (visit "a" 3) ?_ ?_ _
    hresponse).mpr ?_
  · rw [hchecks]
    decide
  · rw [hchecks, List.forall_mem_singleton]
    intro entry hentry
    rw [← Option.some.inj hentry]
    decide
  · rw [BudgetFits, hchecks, List.forall_mem_singleton]
    refine ⟨_, List.mem_singleton_self _, ?_⟩
    have hcounts : countsAt [rateLimitConfig.ipCheck (visit "a" 3).request] (visit "a" 3).now
        visitedStores.memory (rateLimitConfig.ipCheck (visit "a" 3).request) = ⟨2, 0, 0⟩ :=
      countsAt_singleton _ _ _
    have hbudget : ((rateLimitConfig.ipCheck (visit "a" 3).request).result plainRuntime ⟨2, 0, 0⟩
        (visit "a" 3).now).remaining = 18 := congrArg TierResult.remaining hresult
    have hdigit := lastDigit_pos 53 (rateLimitConfig.ipCheck (visit "a" 3).request).limit.limit
    simp only [hcounts, hbudget, Nat.cast_zero, zero_mul, hround.zero, add_zero]
    change (((2 : Nat) : ℚ) + (18 : Nat)) ≤ ((20 : Nat) : ℚ) + _
    push_cast
    linarith

end RateLimit
end Kraal
