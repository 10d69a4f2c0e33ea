import Kraal.RateLimit.Enforcement

/-!
# The budget of a client

A bucket has room for some requests if its estimate is still within the limit after them.  The room
stays while time passes, when an entry is swept, and when the counters roll over, so that the
requests of a client are let in at any later time if they would be let in at once.

Main results:

- Theorem {lit}`result_memoryTiers`: the result of a check is that of the counts of its bucket.
- Theorem {lit}`Room.later`: the room of a bucket stays while time passes.
- Theorem {lit}`admitted_of_leaves`: the requests that every bucket of a client has room for are let
  in.
-/

namespace Kraal
namespace RateLimit

open Foundation
open SlidingWindow (roll roll_count_self roll_of_window_lt)

variable {limits : RateLimitConfig} {rt : Runtime} {bucket : String} {W : WindowSeconds}
  {limit : WindowLimit} {now now' : Int} {memory : InMemoryRateLimitStore} {w : Stores}
  {checks : List TierCheck} {result : TierResult}

/-! ## Requests in memory -/

/-- Count a request in memory in one bucket after the other. -/
def memoryTiers (rt : Runtime) (now : Int) :
    List TierCheck → InMemoryRateLimitStore → List TierResult × InMemoryRateLimitStore
  | [], memory => ([], memory)
  | check :: checks, memory =>
      let counted := memory.increment check.bucket check.limit.windowSeconds now
      let rest := memoryTiers rt now checks counted.2
      (check.result rt counted.1 now :: rest.1, rest.2)

theorem checkTiers_memory (rt : Runtime) (now : Int) (checks : List TierCheck)
    (script : List Reply) (w : Stores) :
    checkTiers memoryIncrement rt now checks script w =
      (.returned (memoryTiers rt now checks w.memory).1, script,
        { w with memory := (memoryTiers rt now checks w.memory).2 }) := by
  induction checks generalizing w with
  | nil => rfl
  | cons check checks ih =>
      have hcount : memoryIncrement check.bucket check.limit.windowSeconds now script w =
          (.returned (w.memory.increment check.bucket check.limit.windowSeconds now).1, script,
            { w with
              memory := (w.memory.increment check.bucket check.limit.windowSeconds now).2 }) :=
        rfl
      rw [checkTiers, Program.bind_apply, hcount]
      simp only [Program.bind_apply, ih]
      rfl

/-- A request that is not exempt. -/
theorem serve_memory {arrival : Arrival} (h : arrival.request.path ∉ limits.exemptPaths) :
    serve memoryIncrement limits rt w arrival =
      (respond (memoryTiers rt arrival.now (limits.checks rt arrival.request) w.memory).1
        arrival.now arrival.request.originalUrl,
        { w with memory :=
          (memoryTiers rt arrival.now (limits.checks rt arrival.request) w.memory).2 }) := by
  simp only [serve, rateLimit, if_neg h, Program.bind_apply, Program.attempt, checkTiers_memory]
  rfl

theorem serve_exempt {store : RateLimitStore} {arrival : Arrival}
    (h : arrival.request.path ∈ limits.exemptPaths) :
    serve store limits rt w arrival = (.next none, w) := by
  simp only [serve, rateLimit, if_pos h]
  rfl

/-- The results are those of the checks. -/
theorem toTierCheck_memoryTiers (rt : Runtime) (now : Int) (checks : List TierCheck)
    (memory : InMemoryRateLimitStore) :
    (memoryTiers rt now checks memory).1.map TierResult.toTierCheck = checks := by
  induction checks generalizing memory with
  | nil => rfl
  | cons check checks ih =>
      simp only [memoryTiers, List.map_cons, ih]
      rfl

theorem toTierCheck_mem (hresult : result ∈ (memoryTiers rt now checks memory).1) :
    result.toTierCheck ∈ checks := by
  rw [← toTierCheck_memoryTiers rt now checks memory]
  exact List.mem_map_of_mem hresult

/-- The buckets of the later checks are others than that of the first one. -/
theorem buckets_of_nodup {check : TierCheck}
    (h : ((check :: checks).map TierCheck.bucket).Nodup) :
    (∀ check' ∈ checks, check'.bucket ≠ check.bucket) ∧
      (checks.map TierCheck.bucket).Nodup := by
  rw [List.map_cons, List.nodup_cons] at h
  refine ⟨fun check' hcheck hbucket => h.1 ?_, h.2⟩
  rw [← hbucket]
  exact List.mem_map_of_mem hcheck

/-- Every check has a result. -/
theorem exists_result {check : TierCheck} (hcheck : check ∈ checks) (rt : Runtime) (now : Int)
    (memory : InMemoryRateLimitStore) :
    ∃ result ∈ (memoryTiers rt now checks memory).1, result.toTierCheck = check := by
  rw [← toTierCheck_memoryTiers rt now checks memory] at hcheck
  exact List.mem_map.mp hcheck

/-- The store when a request is counted in a bucket, after its checks of other buckets. -/
def memoryAt (bucket : String) (now : Int) :
    List TierCheck → InMemoryRateLimitStore → InMemoryRateLimitStore
  | [], memory => memory
  | check :: checks, memory =>
      if check.bucket = bucket then memory
      else memoryAt bucket now checks
        (memory.increment check.bucket check.limit.windowSeconds now).2

/-- The counts that a check of a request gets. -/
def countsAt (checks : List TierCheck) (now : Int) (memory : InMemoryRateLimitStore)
    (check : TierCheck) : WindowCounts :=
  ((memoryAt check.bucket now checks memory).increment check.bucket check.limit.windowSeconds now).1

/-- The result of a check is that of its counts. -/
theorem result_memoryTiers (hnodup : (checks.map TierCheck.bucket).Nodup)
    (hresult : result ∈ (memoryTiers rt now checks memory).1) :
    result = result.toTierCheck.result rt (countsAt checks now memory result.toTierCheck) now := by
  induction checks generalizing memory with
  | nil => cases hresult
  | cons check checks ih =>
      rcases buckets_of_nodup hnodup with ⟨hfirst, hnodup⟩
      rcases List.mem_cons.mp hresult with rfl | hrest
      · have hself : memoryAt check.bucket now (check :: checks) memory = memory := if_pos rfl
        change check.result rt _ now = check.result rt ((memoryAt check.bucket now _
          memory).increment check.bucket check.limit.windowSeconds now).1 now
        rw [hself]
      · have hne := (hfirst _ (toTierCheck_mem hrest)).symm
        rw [countsAt, memoryAt, if_neg hne]
        exact ih hnodup hrest

/-- Without requests in the window before, the estimate is the number of requests. -/
theorem result_of_previousCount_eq_zero (check : TierCheck)
    (hround : ExactUpTo rt.round (check.limit.limit + 1)) {current : Nat}
    (hle : current ≤ check.limit.limit) (windowStart now : Int) :
    check.result rt ⟨current, 0, windowStart⟩ now =
      ⟨check, current, check.limit.limit - current, windowStart + check.limit.windowSeconds.1⟩ := by
  have hcount : slidingWindowCount rt.round ⟨current, 0, windowStart⟩ check.limit.windowSeconds
      now = current := by
    simp only [slidingWindowCount, Nat.cast_zero, zero_mul, hround.zero, add_zero]
    exact hround.natCast current (by omega)
  have hbudget : rt.round ((check.limit.limit : ℚ) - current) =
      ((check.limit.limit - current : Nat) : ℚ) := by
    rw [← Nat.cast_sub hle]
    exact hround.natCast _ (by omega)
  simp only [TierCheck.result, hcount, hbudget, Int.floor_natCast, Int.toNat_natCast]

/-! ## The room of a bucket -/

/-- The counts of a bucket after some more arrivals. -/
def countsAfter (memory : InMemoryRateLimitStore) (bucket : String) (W : WindowSeconds) (now : Int)
    (n : Nat) : WindowCounts :=
  ⟨(roll (memory.counters bucket) (now / W.1)).1 + n, (roll (memory.counters bucket) (now / W.1)).2,
    now / W.1 * W.1⟩

/-- An arrival of the bucket is one more. -/
theorem Dated.countsAfter_increment {ts : List Int} (h : Dated W bucket ts now memory) (n : Nat) :
    countsAfter (memory.increment bucket W now).2 bucket W now n =
      countsAfter memory bucket W now (n + 1) := by
  simp only [countsAfter, h.counters_increment, roll_count_self, Nat.add_right_comm,
    Nat.add_assoc]

theorem slidingWindowCount_mono {round : ℚ → ℚ} (hround : Monotone round) {m n : Nat} (h : m ≤ n)
    (memory : InMemoryRateLimitStore) (bucket : String) (W : WindowSeconds) (now : Int) :
    slidingWindowCount round (countsAfter memory bucket W now m) W now ≤
      slidingWindowCount round (countsAfter memory bucket W now n) W now := by
  refine hround ?_
  simp only [countsAfter]
  push_cast
  have hcast : (m : ℚ) ≤ n := by exact_mod_cast h
  linarith

/-- The estimate of a bucket is within the limit after some more arrivals. -/
structure Room (round : ℚ → ℚ) (limit : WindowLimit) (bucket : String) (n : Nat) (now : Int)
    (memory : InMemoryRateLimitStore) : Prop
    extends Dated limit.windowSeconds bucket [] now memory where
  estimate_le : slidingWindowCount round (countsAfter memory bucket limit.windowSeconds now n)
    limit.windowSeconds now ≤ limit.limit

section

variable {round : ℚ → ℚ} {n : Nat}

theorem Room.mono (hround : Monotone round) (h : Room round limit bucket n now memory) {m : Nat}
    (hle : m ≤ n) : Room round limit bucket m now memory :=
  ⟨h.toDated, (slidingWindowCount_mono hround hle _ _ _ _).trans h.estimate_le⟩

/-- The counters of a later window leave room, if no more than the current one rolls over. -/
theorem slidingWindowCount_le_of_roll (hround : ExactUpTo round (limit.limit + 1))
    {current previous : Nat} (hle : previous + n ≤ limit.limit) (hcurrent : current ≤ n)
    (windowSeconds : WindowSeconds) {windowStart : Int} (hstart : windowStart ≤ now) :
    slidingWindowCount round ⟨current, previous, windowStart⟩ windowSeconds now ≤ limit.limit := by
  refine hround.le_natCast (Nat.le_succ _) ?_
  have hweight := previousWeight_le_one hround windowSeconds hstart
  have hshare : round (previous * previousWeight round windowStart windowSeconds now) ≤ previous :=
    hround.le_natCast (by omega) (mul_le_of_le_one_right (Nat.cast_nonneg _) hweight)
  have hsum : (current : ℚ) + previous ≤ limit.limit := by exact_mod_cast (by omega)
  linarith

/-- A bucket that has not been counted has room for its limit. -/
theorem room_empty (hround : ExactUpTo round (limit.limit + 1)) (bucket : String) (now : Int)
    (hle : n ≤ limit.limit) : Room round limit bucket n now ⟨Storage.empty⟩ := by
  refine ⟨dated_empty _ _ _, slidingWindowCount_le_of_roll (n := n) hround ?_ ?_ _ ?_⟩
  · simpa [InMemoryRateLimitStore.counters] using hle
  · simp [InMemoryRateLimitStore.counters]
  · exact Int.ediv_mul_le now limit.windowSeconds.2.ne'

/-- The room stays while time passes. -/
theorem Room.later (hround : ExactUpTo round (limit.limit + 1))
    (h : Room round limit bucket n now memory) (hle : now ≤ now') :
    Room round limit bucket n now' memory := by
  refine ⟨h.toDated.later hle, ?_⟩
  have hwindows := Int.ediv_le_ediv limit.windowSeconds.2 hle
  rcases hwindows.lt_or_eq with hlt | heq
  · -- a later window: the current counter has rolled over, or it is forgotten
    have hdated : ∀ e, memory.counters bucket = some e →
        e.window ≤ now / limit.windowSeconds.1 := by
      intro e he
      rcases Option.map_eq_some_iff.mp he with ⟨entry, hentry, rfl⟩
      exact h.window entry hentry
    have hroll := roll_of_window_lt hdated hlt
    have hcurrent := currentCount_le hround h.estimate_le
    simp only [countsAfter] at hcurrent ⊢
    refine slidingWindowCount_le_of_roll (n := n) hround (by omega) (by omega) _ ?_
    exact Int.ediv_mul_le now' limit.windowSeconds.2.ne'
  · -- the same window: the weight has fallen
    refine le_trans (hround.mono ?_) h.estimate_le
    simp only [countsAfter, ← heq]
    have hweight := previousWeight_anti hround.mono
      (now / limit.windowSeconds.1 * limit.windowSeconds.1) limit.windowSeconds hle
    have hshare := hround.mono (mul_le_mul_of_nonneg_left hweight (Nat.cast_nonneg (α := ℚ)
      (roll (memory.counters bucket) (now / limit.windowSeconds.1)).2))
    linarith

/-- An arrival of another bucket leaves the room, also if it sweeps the entry. -/
theorem Room.increment_of_ne (hround : ExactUpTo round (limit.limit + 1))
    (h : Room round limit bucket n now memory) {bucket' : String} (hbucket : bucket' ≠ bucket)
    (W : WindowSeconds) : Room round limit bucket n now (memory.increment bucket' W now).2 := by
  refine ⟨h.toDated.increment_of_ne hbucket W, ?_⟩
  rcases get_increment_of_ne memory hbucket.symm W now with hget | ⟨hget, -⟩
  · simp only [countsAfter, InMemoryRateLimitStore.counters, hget]
    exact h.estimate_le
  · have hcurrent := currentCount_le hround h.estimate_le
    simp only [countsAfter, InMemoryRateLimitStore.counters, hget] at hcurrent ⊢
    refine slidingWindowCount_le_of_roll (n := n) hround ?_ ?_ _ ?_
    · simp
      omega
    · simp
    · exact Int.ediv_mul_le now limit.windowSeconds.2.ne'

/-- An arrival of the bucket takes one of the room. -/
theorem Room.increment (h : Room round limit bucket (n + 1) now memory) :
    Room round limit bucket n now (memory.increment bucket limit.windowSeconds now).2 := by
  have hnone : ∀ s ∈ ([] : List Int), s ≤ now := fun _ hs => absurd hs List.not_mem_nil
  refine ⟨h.toDated.increment hnone, ?_⟩
  rw [h.countsAfter_increment]
  exact h.estimate_le

end

/-! ## A request -/

section

variable {n : Nat}

/-- The checks of other buckets leave the room. -/
theorem Room.memoryTiers_of_ne (hround : ExactUpTo rt.round (limit.limit + 1))
    (h : Room rt.round limit bucket n now memory)
    (hother : ∀ check ∈ checks, check.bucket ≠ bucket) :
    Room rt.round limit bucket n now (memoryTiers rt now checks memory).2 := by
  induction checks generalizing memory with
  | nil => exact h
  | cons check checks ih =>
      have hcounted := h.increment_of_ne hround (hother check List.mem_cons_self)
        check.limit.windowSeconds
      exact ih hcounted fun check' hcheck => hother check' (List.mem_cons_of_mem _ hcheck)

/-- A request takes one of the room of each of its buckets, and is within their limits. -/
theorem Room.memoryTiers (hnodup : (checks.map TierCheck.bucket).Nodup)
    (hresult : result ∈ (memoryTiers rt now checks memory).1)
    (hround : ExactUpTo rt.round (result.limit.limit + 1))
    (h : Room rt.round result.limit result.bucket (n + 1) now memory) :
    result.exceeded = false ∧
      Room rt.round result.limit result.bucket n now (memoryTiers rt now checks memory).2 := by
  induction checks generalizing memory with
  | nil => cases hresult
  | cons check checks ih =>
      rcases buckets_of_nodup hnodup with ⟨hfirst, hnodup⟩
      rcases List.mem_cons.mp hresult with rfl | hrest
      · have hone := (h.mono hround.mono (Nat.le_add_left 1 n)).estimate_le
        rw [countsAfter, ← h.increment_fst] at hone
        have hcounted := h.increment.memoryTiers_of_ne hround hfirst
        exact ⟨decide_eq_false (not_lt.mpr hone), hcounted⟩
      · have hne := (hfirst _ (toTierCheck_mem hrest)).symm
        exact ih hnodup hrest (h.increment_of_ne hround hne check.limit.windowSeconds)

end

/-- What memory keeps of a bucket whatever arrives. -/
theorem dated_enforces (rt : Runtime) (bucket : String) (limit : WindowLimit) :
    Enforces rt.round memoryIncrement bucket limit fun _ now w =>
      Dated limit.windowSeconds bucket [] now w.memory where
  later h hle := h.later hle
  keep h bucket' W hsame := by
    refine (memoryIncrement_ensures bucket' W _).mono ?_
    rintro exit w' ⟨rfl, rfl⟩
    refine ⟨⟨_, rfl⟩, ?_⟩
    by_cases hbucket : bucket' = bucket
    · rw [hbucket, hsame hbucket]
      exact h.increment fun _ hs => absurd hs List.not_mem_nil
    · exact h.increment_of_ne hbucket W
  gain h := by
    refine (memoryIncrement_ensures _ _ _).mono ?_
    rintro exit w' ⟨rfl, rfl⟩ counts - -
    exact h.increment fun _ hs => absurd hs List.not_mem_nil

/-- The entry of a bucket is not of a later window after any run. -/
theorem dated_final {before : List Arrival} (hgoverns : Governs limits rt bucket limit)
    (hsorted : before.Pairwise fun a b => a.now ≤ b.now) (hbefore : ∀ a ∈ before, a.now ≤ now) :
    Dated limit.windowSeconds bucket [] now
      (Run.final (step memoryIncrement limits rt) Stores.empty before).memory := by
  rcases exists_start (fun t => t) (now :: before.map Arrival.now) with ⟨start, hstart⟩
  rw [List.forall_mem_cons, List.forall_mem_map] at hstart
  rcases holds_arrivals (w := Stores.empty) [] (dated_enforces rt bucket limit) hgoverns hsorted
    hstart.2 (dated_empty _ _ start) with ⟨now', hnow', hkept⟩
  refine hkept.later ?_
  rcases List.mem_cons.mp hnow' with rfl | hnow'
  · exact hstart.1
  · rcases List.mem_map.mp hnow' with ⟨a, ha, rfl⟩
    exact hbefore a ha

/-! ## A client -/

/-- A request of the same client to the same endpoint. -/
def SameClient (rt : Runtime) (req req' : Request) : Prop :=
  req'.address = req.address ∧
    jwtIdentity rt req'.authorization = jwtIdentity rt req.authorization ∧
    endpointId req' = endpointId req

instance (rt : Runtime) (req req' : Request) : Decidable (SameClient rt req req') :=
  inferInstanceAs (Decidable (_ ∧ _ ∧ _))

/-- A request is counted in none of the buckets of another one. -/
def Elsewhere (limits : RateLimitConfig) (rt : Runtime) (req req' : Request) : Prop :=
  ∀ check ∈ limits.checks rt req, ¬ Counted limits rt check.bucket req'

variable {req req' : Request} {arrival : Arrival} {n : Nat}

theorem SameClient.checks_eq (h : SameClient rt req req') :
    limits.checks rt req' = limits.checks rt req := by
  rcases h with ⟨haddress, hidentity, hendpoint⟩
  simp only [RateLimitConfig.checks, RateLimitConfig.endpointCheck, RateLimitConfig.ipCheck,
    RateLimitConfig.userCheck, clientId, haddress, hidentity, hendpoint]

/-- Arithmetic is exact for the counts of the buckets of a request up to their limits. -/
def Runtime.ExactFor (rt : Runtime) (limits : RateLimitConfig) (req : Request) : Prop :=
  ∀ check ∈ limits.checks rt req, ExactUpTo rt.round (check.limit.limit + 1)

/-- Every bucket of a client has room for some requests. -/
def Leaves (limits : RateLimitConfig) (rt : Runtime) (req : Request) (n : Nat) (now : Int)
    (memory : InMemoryRateLimitStore) : Prop :=
  ∀ check ∈ limits.checks rt req, Room rt.round check.limit check.bucket n now memory

theorem Leaves.mono (hexact : rt.ExactFor limits req) (h : Leaves limits rt req n now memory)
    {m : Nat} (hle : m ≤ n) : Leaves limits rt req m now memory :=
  fun check hcheck => (h check hcheck).mono (hexact check hcheck).mono hle

theorem Leaves.later (hexact : rt.ExactFor limits req) (h : Leaves limits rt req n now memory)
    (hle : now ≤ now') : Leaves limits rt req n now' memory :=
  fun check hcheck => (h check hcheck).later (hexact check hcheck) hle

/-- A request of the client takes one of the room. -/
theorem Leaves.serve_same (hexact : rt.ExactFor limits req)
    (h : Leaves limits rt req (n + 1) arrival.now w.memory)
    (hsame : SameClient rt req arrival.request) :
    (serve memoryIncrement limits rt w arrival).1.admitted = true ∧
      Leaves limits rt req n arrival.now (step memoryIncrement limits rt w arrival).memory := by
  unfold step
  by_cases hexempt : arrival.request.path ∈ limits.exemptPaths
  · rw [serve_exempt hexempt]
    exact ⟨rfl, h.mono hexact (Nat.le_succ n)⟩
  · have hchecks : limits.checks rt arrival.request = limits.checks rt req := hsame.checks_eq
    have hnodup := nodup_buckets limits rt req
    rw [serve_memory hexempt, hchecks, admitted_respond]
    refine ⟨fun result hresult => ?_, fun check hcheck => ?_⟩
    · have hcheck := toTierCheck_mem hresult
      exact (Room.memoryTiers hnodup hresult (hexact _ hcheck) (h _ hcheck)).1
    · rcases exists_result hcheck rt arrival.now w.memory with ⟨result, hresult, rfl⟩
      exact (Room.memoryTiers hnodup hresult (hexact _ hcheck) (h _ hcheck)).2

/-- A request elsewhere leaves the room alone. -/
theorem Leaves.serve_elsewhere (hexact : rt.ExactFor limits req)
    (h : Leaves limits rt req n arrival.now w.memory)
    (helsewhere : Elsewhere limits rt req arrival.request) :
    Leaves limits rt req n arrival.now (step memoryIncrement limits rt w arrival).memory := by
  unfold step
  by_cases hexempt : arrival.request.path ∈ limits.exemptPaths
  · rw [serve_exempt hexempt]
    exact h
  · rw [serve_memory hexempt]
    intro check hcheck
    refine (h check hcheck).memoryTiers_of_ne (hexact check hcheck) fun check' hcheck' hbucket => ?_
    exact helsewhere check hcheck ⟨hexempt, check', hcheck', hbucket⟩

/-- The next requests of a client are let in at any later times, if nothing else is counted in the
buckets of the client. -/
def BudgetHonoured (limits : RateLimitConfig) (rt : Runtime) (req : Request) (n : Nat) (now : Int)
    (w : Stores) : Prop :=
  ∀ after : List Arrival, (after.Pairwise fun a b => a.now ≤ b.now) → (∀ a ∈ after, now ≤ a.now) →
    (∀ a ∈ after, SameClient rt req a.request ∨ Elsewhere limits rt req a.request) →
    (after.countP fun a => SameClient rt req a.request) ≤ n →
    ∀ e ∈ Run.trace (step memoryIncrement limits rt) w after, SameClient rt req e.2.request →
      (serve memoryIncrement limits rt e.1 e.2).1.admitted = true

/-- The requests that every bucket has room for are let in. -/
theorem admitted_of_leaves (hexact : rt.ExactFor limits req)
    (h : Leaves limits rt req n now w.memory) : BudgetHonoured limits rt req n now w := by
  intro after hsorted hafter halone hcount
  induction after generalizing n now w with
  | nil =>
      intro e he
      cases he
  | cons arrival after ih =>
      rw [List.pairwise_cons] at hsorted
      have hnow := h.later hexact (hafter arrival List.mem_cons_self)
      have hrest := fun a ha => halone a (List.mem_cons_of_mem _ ha)
      intro e he hclient
      by_cases hsame : SameClient rt req arrival.request
      · rw [List.countP_cons_of_pos (by simpa using hsame)] at hcount
        have hserved := (hnow.mono hexact hcount).serve_same hexact hsame
        rcases List.mem_cons.mp he with rfl | he
        · exact hserved.1
        · exact ih hserved.2 hsorted.2 hsorted.1 hrest le_rfl e he hclient
      · rw [List.countP_cons_of_neg (by simpa using hsame)] at hcount
        have helsewhere := (halone arrival List.mem_cons_self).resolve_left hsame
        rcases List.mem_cons.mp he with rfl | he
        · exact absurd hclient hsame
        · exact ih (hnow.serve_elsewhere hexact helsewhere) hsorted.2 hsorted.1 hrest hcount e he
            hclient

end RateLimit
end Kraal
