import Kraal.Foundation.TwoRuns
import Kraal.RateLimit.Enforcement

/-!
# Clients do not disturb each other

The responses to some clients are followed in two runs: in one where others arrive in between, and
in one where they do not.  The stores of the two runs are the same for a bucket if Redis has the
same values under its keys, and if the next arrival makes the same entry in memory.  An arrival
of another bucket keeps that: it writes other keys, and what it sweeps is so old that the next
arrival would forget it.

Main results:

- Definition {lit}`Same`: the stores of two runs are the same for a bucket.
- Theorems {lit}`memory_isolates`, {lit}`redis_isolates` and {lit}`failover_isolates`: what an
  arrival of a bucket does to it and to the others, in each store.
- Theorem {lit}`clients_isolated`: the responses to some clients are those of a run without the
  others.
-/

namespace Kraal
namespace RateLimit

open Foundation
open SlidingWindow (Counters)

variable {limits : RateLimitConfig} {rt : Runtime} {bucket bucket' : String} {W : WindowSeconds}
  {now now' : Int} {store : RateLimitStore} {w w' : Stores}

/-! ## Memory -/

/-- The entry of a bucket was last seen in its window or later, and not after now. -/
def SeenBy (W : WindowSeconds) (now : Int) (entry : Option MemoryEntry) : Prop :=
  ∀ e, entry = some e → e.lastSeen ≤ now ∧ e.windowIndex ≤ e.lastSeen / W.1

variable {entry entry' : Option MemoryEntry}

theorem seenBy_none (W : WindowSeconds) (now : Int) : SeenBy W now none :=
  fun e h => by cases h

theorem SeenBy.later (h : SeenBy W now entry) (hle : now ≤ now') : SeenBy W now' entry :=
  fun e he => ⟨(h e he).1.trans hle, (h e he).2⟩

/-- The entry after an arrival. -/
theorem SeenBy.nextEntry (h : SeenBy W now entry) :
    SeenBy W now (some (nextEntry entry (now / W.1) now)) := by
  have hwindow : ∀ e, entry = some e → e.windowIndex ≤ now / W.1 :=
    fun e he => (h e he).2.trans (Int.ediv_le_ediv W.2 (h e he).1)
  intro e he
  rw [Option.some.injEq] at he
  have hindex := congrArg Counters.window (counters_nextEntry hwindow now)
  rw [← he, lastSeen_nextEntry]
  exact ⟨le_rfl, hindex.le⟩

/-- Two entries are continued alike by every later arrival. -/
def ContinuedAlike (W : WindowSeconds) (now : Int) (entry entry' : Option MemoryEntry) : Prop :=
  ∀ t, now ≤ t → nextEntry entry (t / W.1) t = nextEntry entry' (t / W.1) t

/-- A sweep removes an entry that the next arrival would forget. -/
theorem continuedAlike_swept {e : MemoryEntry} (hseen : SeenBy W now (some e))
    (hshort : W.1 ≤ 150) (hidle : e.lastSeen + sweepIdleSeconds < now) :
    ContinuedAlike W now (some e) none := by
  intro t ht
  have hwindow := (hseen e rfl).2
  have hlater : e.lastSeen + 2 * W.1 ≤ t := by
    simp only [sweepIdleSeconds] at hidle
    omega
  have hdiv : e.lastSeen / W.1 + 2 ≤ t / W.1 := by
    have hstep := Int.ediv_le_ediv W.2 hlater
    rwa [Int.add_mul_ediv_right _ _ W.2.ne'] at hstep
  have hforgotten : e.windowIndex < t / W.1 - 1 := by omega
  simp [nextEntry, hforgotten]

/-! ## Stores of two runs -/

/-- Redis has the same values under the keys of a bucket. -/
def SameKeys (bucket : String) (redis redis' : Redis) : Prop :=
  ∀ k, redis.keys.get (redisKey bucket k) = redis'.keys.get (redisKey bucket k)

/-- The stores of two runs are the same for a bucket. -/
structure Same (W : WindowSeconds) (bucket : String) (now : Int) (w w' : Stores) : Prop where
  keys : SameKeys bucket w.redis w'.redis
  seen : SeenBy W now (w.memory.entries.get bucket)
  seen' : SeenBy W now (w'.memory.entries.get bucket)
  entry : ContinuedAlike W now (w.memory.entries.get bucket) (w'.memory.entries.get bucket)

theorem same_empty (W : WindowSeconds) (bucket : String) (now : Int) :
    Same W bucket now Stores.empty Stores.empty where
  keys _ := rfl
  seen := seenBy_none W now
  seen' := seenBy_none W now
  entry _ _ := rfl

theorem Same.symm (h : Same W bucket now w w') : Same W bucket now w' w where
  keys k := (h.keys k).symm
  seen := h.seen'
  seen' := h.seen
  entry t ht := (h.entry t ht).symm

theorem Same.later (h : Same W bucket now w w') (hle : now ≤ now') : Same W bucket now' w w' where
  keys := h.keys
  seen := h.seen.later hle
  seen' := h.seen'.later hle
  entry t ht := h.entry t (hle.trans ht)

/-- The store of the first run changes elsewhere. -/
theorem Same.of_redis (h : Same W bucket now w w') {v : Stores} (hmemory : v.memory = w.memory)
    (hkeys : SameKeys bucket v.redis w'.redis) : Same W bucket now v w' where
  keys := hkeys
  seen := hmemory ▸ h.seen
  seen' := h.seen'
  entry := hmemory ▸ h.entry

/-- An arrival of the bucket in the memory of both runs. -/
theorem Same.increment (h : Same W bucket now w w') :
    (w.memory.increment bucket W now).1 = (w'.memory.increment bucket W now).1 ∧
      Same W bucket now { w with memory := (w.memory.increment bucket W now).2 }
        { w' with memory := (w'.memory.increment bucket W now).2 } := by
  have hnext := h.entry now le_rfl
  refine ⟨?_, ?_⟩
  · simp only [InMemoryRateLimitStore.increment, hnext]
  · constructor
    · exact h.keys
    · simp only [get_increment]
      exact h.seen.nextEntry
    · simp only [get_increment]
      exact h.seen'.nextEntry
    · simp only [get_increment, hnext]
      exact fun _ _ => rfl

/-- An arrival of another bucket in the memory of the first run. -/
theorem Same.increment_of_ne (h : Same W bucket now w w') (hshort : W.1 ≤ 150)
    (hbucket : bucket ≠ bucket') (W' : WindowSeconds) :
    Same W bucket now { w with memory := (w.memory.increment bucket' W' now).2 } w' := by
  rcases get_increment_of_ne w.memory hbucket W' now with hget | ⟨hget, e, he, hidle⟩
  · constructor
    · exact h.keys
    · rw [hget]
      exact h.seen
    · exact h.seen'
    · rw [hget]
      exact h.entry
  · have hseen := h.seen
    have hentry := h.entry
    rw [he] at hseen hentry
    constructor
    · exact h.keys
    · rw [hget]
      exact seenBy_none W now
    · exact h.seen'
    · rw [hget]
      intro t ht
      rw [← continuedAlike_swept hseen hshort hidle t ht]
      exact hentry t ht

/-! ## Redis -/

section

variable {redis redis' : Redis} {k : Int}

theorem SameKeys.lookup (h : SameKeys bucket redis redis') (k now : Int) :
    redis.lookup (redisKey bucket k) now = redis'.lookup (redisKey bucket k) now := by
  rw [Redis.lookup, Redis.lookup, h k]

/-- A value is written under the same key of both runs. -/
theorem SameKeys.set (h : SameKeys bucket redis redis') (k : Int) (value : RedisValue) :
    SameKeys bucket ⟨redis.keys.set (redisKey bucket k) value⟩
      ⟨redis'.keys.set (redisKey bucket k) value⟩ := by
  intro k'
  rw [Storage.get_set, Storage.get_set, h k']

/-- A value is written under a key of another bucket. -/
theorem SameKeys.set_of_ne (h : SameKeys bucket redis redis') (hbucket : bucket' ≠ bucket)
    (k : Int) (value : RedisValue) :
    SameKeys bucket ⟨redis.keys.set (redisKey bucket' k) value⟩ redis' := by
  intro k'
  have hkey : redisKey bucket k' ≠ redisKey bucket' k :=
    fun hsame => hbucket (redisKey_inj hsame).1.symm
  rw [Storage.get_set_of_ne _ _ hkey]
  exact h k'

theorem SameKeys.incr (h : SameKeys bucket redis redis') (k now : Int) :
    (redis.incr (redisKey bucket k) now).1 = (redis'.incr (redisKey bucket k) now).1 ∧
      SameKeys bucket (redis.incr (redisKey bucket k) now).2
        (redis'.incr (redisKey bucket k) now).2 := by
  simp only [Redis.incr, h.lookup k now]
  cases redis'.lookup (redisKey bucket k) now with
  | none => exact ⟨rfl, h.set k _⟩
  | some value => exact ⟨rfl, h.set k _⟩

theorem SameKeys.expire (h : SameKeys bucket redis redis') (k seconds now : Int) :
    SameKeys bucket (redis.expire (redisKey bucket k) seconds now)
      (redis'.expire (redisKey bucket k) seconds now) := by
  simp only [Redis.expire, h.lookup k now]
  cases redis'.lookup (redisKey bucket k) now with
  | none => exact h
  | some value => exact h.set k _

theorem SameKeys.get (h : SameKeys bucket redis redis') (k now : Int) :
    redis.get (redisKey bucket k) now = redis'.get (redisKey bucket k) now := by
  rw [Redis.get, Redis.get, h.lookup k now]

theorem SameKeys.incr_of_ne (h : SameKeys bucket redis redis') (hbucket : bucket' ≠ bucket)
    (k now : Int) : SameKeys bucket (redis.incr (redisKey bucket' k) now).2 redis' := by
  simp only [Redis.incr]
  cases redis.lookup (redisKey bucket' k) now with
  | none => exact h.set_of_ne hbucket k _
  | some value => exact h.set_of_ne hbucket k _

theorem SameKeys.expire_of_ne (h : SameKeys bucket redis redis') (hbucket : bucket' ≠ bucket)
    (k seconds now : Int) :
    SameKeys bucket (redis.expire (redisKey bucket' k) seconds now) redis' := by
  simp only [Redis.expire]
  cases redis.lookup (redisKey bucket' k) now with
  | none => exact h
  | some value => exact h.set_of_ne hbucket k _

end

/-- A command of both runs: it fails in both, or it takes effect in both. -/
theorem command_agrees {α : Type} {f : Redis → α × Redis} {R : Stores → Stores → Prop}
    (hvalue : (f w.redis).1 = (f w'.redis).1) (hbefore : R w w')
    (hdone : R { w with redis := (f w.redis).2 } { w' with redis := (f w'.redis).2 }) :
    (command f).Agrees (command f) w w' R := by
  refine Program.Agrees.bind (R := fun v v' => v = w ∧ v' = w')
    (Program.agrees_next ⟨rfl, rfl⟩) ?_ ?_
  · rintro reply v v' ⟨rfl, rfl⟩
    apply Program.Agrees.bind_get
    have hreturned : (Program.put { v with redis := (f v.redis).2 } >>= fun _ =>
        (pure (f v.redis).1 : Action α)).Agrees
          (Program.put { v' with redis := (f v'.redis).2 } >>= fun _ => pure (f v'.redis).1)
          v v' R := by
      apply Program.Agrees.bind_put
      rw [hvalue]
      exact Program.agrees_pure _ hdone
    cases reply with
    | none => exact hreturned
    | some reply =>
        cases reply with
        | ok => exact hreturned
        | throwsBefore => exact Program.agrees_throw () hbefore
        | throwsAfter => exact Program.Agrees.bind_put (Program.agrees_throw () hdone)
  · rintro v v' ⟨rfl, rfl⟩
    exact hbefore

/-! ## Stores that isolate their buckets -/

/-- An arrival of a bucket does the same to it in both runs, and nothing to the other buckets. -/
structure Isolates (store : RateLimitStore) : Prop where
  same : ∀ {W bucket now w w'}, Same W bucket now w w' →
    (store bucket W now).Agrees (store bucket W now) w w' (Same W bucket now)
  frame : ∀ {W bucket now w w'}, Same W bucket now w w' → W.1 ≤ 150 →
    ∀ {bucket'}, bucket' ≠ bucket → ∀ W',
      (store bucket' W' now).Ensures w fun _ v => Same W bucket now v w'

theorem memory_isolates : Isolates memoryIncrement where
  same h := by
    have hcount := h.increment
    apply Program.Agrees.bind_get
    apply Program.Agrees.bind_put
    rw [hcount.1]
    exact Program.agrees_pure _ hcount.2
  frame h hshort _ hbucket W' := by
    refine (memoryIncrement_ensures _ W' _).mono ?_
    rintro exit v ⟨-, rfl⟩
    exact h.increment_of_ne hshort hbucket.symm W'

/-- An arrival of another bucket in Redis. -/
theorem Same.redis_of_ne (h : Same W bucket now w w') (hbucket : bucket' ≠ bucket)
    (W' : WindowSeconds) :
    (redisIncrement bucket' W' now).Ensures w fun exit v =>
      exit ≠ .stopped ∧ Same W bucket now v w' := by
  refine (redisIncrement_ensures (P := fun redis => SameKeys bucket redis w'.redis)
    (Q := fun redis => SameKeys bucket redis w'.redis) h.keys (h.keys.incr_of_ne hbucket _ _)
    (fun _ hkeys => hkeys.expire_of_ne hbucket _ _ _) fun _ hkeys => hkeys).mono ?_
  rintro exit v ⟨hmemory, hkeys, hexit⟩
  refine ⟨?_, h.of_redis hmemory hkeys⟩
  rintro rfl
  rcases hexit with hfailed | ⟨-, hreturned⟩
  · exact not_failed_stopped hfailed
  · cases hreturned

theorem redis_isolates : Isolates redisIncrement where
  same {W bucket now w w'} h := by
    have hcommand : ∀ {α : Type} {f : Redis → α × Redis} {w w' : Stores},
        Same W bucket now w w' → (f w.redis).1 = (f w'.redis).1 →
          SameKeys bucket (f w.redis).2 (f w'.redis).2 →
            (command f).Agrees (command f) w w' (Same W bucket now) :=
      fun h hvalue hkeys => command_agrees hvalue h ⟨hkeys, h.seen, h.seen', h.entry⟩
    have hincr := h.keys.incr (now / W.1) now
    refine Program.Agrees.bind (hcommand h hincr.1 hincr.2) ?_ fun _ _ h => h
    intro count v v' h
    refine Program.Agrees.bind (R := Same W bucket now) ?_ ?_ fun _ _ h => h
    · unfold expireFirst
      split
      · exact hcommand h rfl (h.keys.expire _ _ _)
      · exact Program.agrees_pure _ h
    · intro _ v v' h
      refine Program.Agrees.bind (hcommand h (h.keys.get _ _) h.keys) ?_ fun _ _ h => h
      exact fun previous v v' h => Program.agrees_pure _ h
  frame h _ _ hbucket W' := (h.redis_of_ne hbucket W').mono fun _ _ h => h.2

theorem failover_isolates : Isolates failoverIncrement where
  same {W bucket now w w'} h := by
    refine Program.Agrees.bind (redis_isolates.same h).attempt ?_ fun _ _ h => h
    intro result v v' h
    cases result with
    | ok counts =>
        exact Program.Agrees.bind_get (Program.Agrees.bind_put (Program.agrees_pure _
          ⟨h.keys, h.seen, h.seen', h.entry⟩))
    | error _ =>
        refine Program.Agrees.bind_get (Program.Agrees.bind_put (memory_isolates.same ?_))
        constructor
        · simpa using h.keys
        · simpa using h.seen
        · simpa using h.seen'
        · simpa using h.entry
  frame {W bucket now w w'} h hshort bucket' hbucket W' := by
    refine failoverIncrement_ensures (h.redis_of_ne hbucket W') (fun v hv => hv.1 rfl) ?_ ?_
    · rintro counts v ⟨-, h⟩
      exact ⟨h.keys, h.seen, h.seen', h.entry⟩
    · rintro v ⟨-, h⟩
      have hmemory := h.increment_of_ne hshort hbucket.symm W'
      constructor
      · simpa using h.keys
      · exact hmemory.seen
      · exact hmemory.seen'
      · exact hmemory.entry

/-! ## Requests -/

/-- The stores of two runs are the same for the buckets of some checks. -/
def SameOn (B : TierCheck → Prop) (now : Int) (w w' : Stores) : Prop :=
  ∀ check, B check → Same check.limit.windowSeconds check.bucket now w w'

section

variable {B : TierCheck → Prop} {check : TierCheck} {checks : List TierCheck} {arrival : Arrival}

theorem SameOn.later (h : SameOn B now w w') (hle : now ≤ now') : SameOn B now' w w' :=
  fun check hcheck => (h check hcheck).later hle

/-- A check of both runs. -/
theorem SameOn.call (h : SameOn B now w w') (hstore : Isolates store)
    (hcheck : B check) (hshort : ∀ other, B other → other.limit.windowSeconds.1 ≤ 150)
    (hlimit : ∀ other, B other → other.bucket = check.bucket → other.limit = check.limit) :
    (store check.bucket check.limit.windowSeconds now).Agrees
      (store check.bucket check.limit.windowSeconds now) w w' (SameOn B now) := by
  have hsame := hstore.same (h check hcheck)
  intro script
  refine ⟨(hsame script).1, (hsame script).2.1, ?_⟩
  intro other hother
  by_cases hbucket : other.bucket = check.bucket
  · have hkept := (hsame script).2.2
    rw [← hbucket, ← hlimit other hother hbucket] at hkept
    rw [← hbucket, ← hlimit other hother hbucket]
    exact hkept
  · -- the check leaves the other bucket alone, in one run after the other
    have hne : check.bucket ≠ other.bucket := fun h => hbucket h.symm
    have hboth := hsame.and (P := Same other.limit.windowSeconds other.bucket now)
      (hstore.frame (h other hother) (hshort other hother) hne _)
      fun v hv => (hstore.frame hv.symm (hshort other hother) hne _).mono
        fun _ _ hkept => hkept.symm
    exact (hboth script).2.2.2

/-- The checks of a request of both runs. -/
theorem SameOn.checkTiers (rt : Runtime) (h : SameOn B now w w') (hstore : Isolates store)
    (hchecks : ∀ check ∈ checks, B check)
    (hshort : ∀ other, B other → other.limit.windowSeconds.1 ≤ 150)
    (hlimit : ∀ check ∈ checks, ∀ other, B other → other.bucket = check.bucket →
      other.limit = check.limit) :
    (checkTiers store rt now checks).Agrees (checkTiers store rt now checks) w w'
      (SameOn B now) := by
  induction checks generalizing w w' with
  | nil => exact Program.agrees_pure _ h
  | cons check checks ih =>
      have hcall := h.call hstore (hchecks check List.mem_cons_self) hshort
        (hlimit check List.mem_cons_self)
      refine Program.Agrees.bind hcall ?_ fun _ _ h => h
      intro counts v v' h
      have hrest := ih h (fun check' h => hchecks check' (List.mem_cons_of_mem _ h))
        fun check' h => hlimit check' (List.mem_cons_of_mem _ h)
      refine Program.Agrees.bind hrest ?_ fun _ _ h => h
      exact fun results v v' h => Program.agrees_pure _ h

/-- The checks of a request of the first run, in other buckets. -/
theorem SameOn.checkTiers_of_ne (rt : Runtime) (h : SameOn B now w w') (hstore : Isolates store)
    (hshort : ∀ other, B other → other.limit.windowSeconds.1 ≤ 150)
    (hne : ∀ check ∈ checks, ∀ other, B other → check.bucket ≠ other.bucket) :
    (RateLimit.checkTiers store rt now checks).Ensures w fun _ v => SameOn B now v w' := by
  induction checks generalizing w with
  | nil => exact Program.ensures_pure h
  | cons check checks ih =>
      have hcall : (store check.bucket check.limit.windowSeconds now).Ensures w
          fun _ v => SameOn B now v w' := by
        intro script hscript
        refine ⟨fun _ _ => trivial, fun other hother => ?_⟩
        exact (hstore.frame (h other hother) (hshort other hother)
          (hne check List.mem_cons_self other hother) _ script hscript).2
      refine Program.Ensures.bind hcall ?_ (fun _ _ h => h) fun _ h => h
      intro counts v h
      have hrest := ih h fun check' h => hne check' (List.mem_cons_of_mem _ h)
      refine Program.Ensures.bind hrest ?_ (fun _ _ h => h) fun _ h => h
      exact fun results v h => Program.ensures_pure h

/-- A request of both runs gets the same response. -/
theorem SameOn.serve (h : SameOn B arrival.now w w') (hstore : Isolates store)
    (hchecks : ∀ check ∈ limits.checks rt arrival.request, B check)
    (hshort : ∀ other, B other → other.limit.windowSeconds.1 ≤ 150)
    (hlimit : ∀ check ∈ limits.checks rt arrival.request, ∀ other, B other →
      other.bucket = check.bucket → other.limit = check.limit) :
    (serve store limits rt w arrival).1 = (serve store limits rt w' arrival).1 ∧
      SameOn B arrival.now (serve store limits rt w arrival).2
        (serve store limits rt w' arrival).2 := by
  have hagrees : (rateLimit store limits rt arrival.request arrival.now).Agrees
      (rateLimit store limits rt arrival.request arrival.now) w w' (SameOn B arrival.now) := by
    unfold rateLimit
    split
    · exact Program.agrees_pure _ h
    · have htiers := (SameOn.checkTiers rt h hstore hchecks hshort hlimit).attempt
      refine Program.Agrees.bind htiers ?_ fun _ _ h => h
      intro results v v' h
      cases results with
      | ok results => exact Program.agrees_pure _ h
      | error _ => exact Program.agrees_pure _ h
  have hrun := hagrees arrival.replies
  unfold RateLimit.serve
  rcases hend : rateLimit store limits rt arrival.request arrival.now arrival.replies w with
    ⟨exit, rest, v⟩
  rcases hend' : rateLimit store limits rt arrival.request arrival.now arrival.replies w' with
    ⟨exit', rest', v'⟩
  rw [hend, hend'] at hrun
  rcases hrun with ⟨hexit, -, hkept⟩
  change exit = exit' at hexit
  subst hexit
  cases exit with
  | returned response => exact ⟨rfl, hkept⟩
  | thrown _ => exact ⟨rfl, hkept⟩
  | stopped => exact ⟨rfl, hkept⟩

/-- A request of the first run that is counted in other buckets. -/
theorem SameOn.serve_of_ne (h : SameOn B arrival.now w w') (hstore : Isolates store)
    (hshort : ∀ other, B other → other.limit.windowSeconds.1 ≤ 150)
    (hne : ∀ check ∈ limits.checks rt arrival.request, ∀ other, B other →
      check.bucket ≠ other.bucket) :
    SameOn B arrival.now (RateLimit.serve store limits rt w arrival).2 w' := by
  have hensures : (rateLimit store limits rt arrival.request arrival.now).Ensures w
      fun _ v => SameOn B arrival.now v w' := by
    unfold rateLimit
    split
    · exact Program.ensures_pure h
    · have htiers := SameOn.checkTiers_of_ne rt h hstore hshort hne
      refine Program.Ensures.bind (Program.Ensures.attempt
        (Q := fun _ v => SameOn B arrival.now v w') htiers (fun _ _ h => h) (fun _ _ h => h)
        fun _ h => h) ?_ (fun _ _ h => h) fun _ h => h
      intro results v h
      cases results with
      | ok results => exact Program.ensures_pure h
      | error _ => exact Program.ensures_pure h
  have hrun := (hensures arrival.replies fun _ _ => trivial).2
  unfold RateLimit.serve
  rcases hend : rateLimit store limits rt arrival.request arrival.now arrival.replies w with
    ⟨exit, rest, v⟩
  rw [hend] at hrun
  cases exit with
  | returned response => exact hrun
  | thrown _ => exact hrun
  | stopped => exact hrun

end

/-! ## Strangers -/

/-- A request of another address that does not name the same user. -/
def Strangers (rt : Runtime) (req req' : Request) : Prop :=
  req'.address ≠ req.address ∧ ∀ user, jwtIdentity rt req.authorization = some user →
    jwtIdentity rt req'.authorization ≠ some user

/-- No window is longer than 150 seconds. -/
def RateLimitConfig.ShortWindows (limits : RateLimitConfig) : Prop :=
  limits.ipBurst.windowSeconds.1 ≤ 150 ∧ limits.userSustained.windowSeconds.1 ≤ 150 ∧
    ∀ e ∈ limits.endpoints, e.2.windowSeconds.1 ≤ 150

theorem shortWindows_rateLimitConfig : rateLimitConfig.ShortWindows := by
  simp [RateLimitConfig.ShortWindows, rateLimitConfig]

section

variable {req req' : Request} {check check' : TierCheck}

/-- The bucket of a check: one of the endpoint and the client, of the address, or of the user. -/
theorem bucket_cases (h : check ∈ limits.checks rt req) :
    (∃ limit, limits.endpoints.lookup (endpointId req) = some limit ∧
      check.bucket = "ep:" ++ endpointId req ++ ":" ++ clientId rt req) ∨
    check.bucket = "ip:" ++ req.address ∨
    ∃ user, jwtIdentity rt req.authorization = some user ∧ check.bucket = "user:" ++ user := by
  simp only [RateLimitConfig.checks, List.mem_append, Option.mem_toList, List.mem_singleton,
    RateLimitConfig.endpointCheck, RateLimitConfig.userCheck, Option.map_eq_some_iff] at h
  rcases h with (⟨limit, hlimit, rfl⟩ | rfl) | ⟨user, huser, rfl⟩
  · exact .inl ⟨limit, hlimit, rfl⟩
  · exact .inr (.inl rfl)
  · exact .inr (.inr ⟨user, huser, rfl⟩)

theorem RateLimitConfig.ShortWindows.windowSeconds_le (hshort : limits.ShortWindows)
    (h : check ∈ limits.checks rt req) : check.limit.windowSeconds.1 ≤ 150 := by
  rcases check_cases h with ⟨limit, hlimit, rfl⟩ | rfl | ⟨user, rfl⟩
  · exact hshort.2.2 _ (name_mem_of_lookup hlimit)
  · exact hshort.1
  · exact hshort.2.1

theorem string_append_cancel_left {a b c : String} (h : a ++ b = a ++ c) : b = c := by
  have htext := congrArg String.toList h
  simp only [String.toList_append, List.append_cancel_left_eq] at htext
  exact String.toList_inj.mp htext

/-- Strangers are different clients. -/
theorem Strangers.clientId_ne (h : Strangers rt req req') :
    clientId rt req ≠ clientId rt req' := by
  unfold clientId
  intro hsame
  cases huser : jwtIdentity rt req.authorization with
  | none =>
      cases huser' : jwtIdentity rt req'.authorization with
      | none =>
          rw [huser, huser'] at hsame
          exact h.1 (string_append_cancel_left hsame).symm
      | some user' =>
          rw [huser, huser'] at hsame
          exact ip_bucket_ne_user _ _ hsame
  | some user =>
      cases huser' : jwtIdentity rt req'.authorization with
      | none =>
          rw [huser, huser'] at hsame
          exact ip_bucket_ne_user _ _ hsame.symm
      | some user' =>
          rw [huser, huser'] at hsame
          rw [← string_append_cancel_left hsame] at huser'
          exact h.2 user huser huser'

/-- Strangers are counted in different buckets. -/
theorem Strangers.bucket_ne (h : Strangers rt req req') (hnames : limits.WellNamed)
    (hcheck : check ∈ limits.checks rt req) (hcheck' : check' ∈ limits.checks rt req') :
    check'.bucket ≠ check.bucket := by
  intro hbucket
  rcases bucket_cases hcheck with ⟨limit, hlimit, hname⟩ | hname | ⟨user, huser, hname⟩
  · rcases bucket_cases hcheck' with ⟨limit', hlimit', hname'⟩ | hname' | ⟨user', huser', hname'⟩
    · -- the name of the endpoint ends at the first colon, and the client follows
      rw [hname, hname'] at hbucket
      have htext := congrArg String.toList hbucket
      simp only [String.toList_append, List.append_assoc, List.append_cancel_left_eq] at htext
      have hclient := (append_separator_inj (hnames _ (name_mem_of_lookup hlimit'))
        (hnames _ (name_mem_of_lookup hlimit)) htext).2
      exact h.clientId_ne (String.toList_inj.mp hclient).symm
    · rw [hname, hname'] at hbucket
      exact endpoint_bucket_ne_ip _ _ _ hbucket.symm
    · rw [hname, hname'] at hbucket
      exact endpoint_bucket_ne_user _ _ _ hbucket.symm
  · rcases bucket_cases hcheck' with ⟨limit', hlimit', hname'⟩ | hname' | ⟨user', huser', hname'⟩
    · rw [hname, hname'] at hbucket
      exact endpoint_bucket_ne_ip _ _ _ hbucket
    · rw [hname, hname'] at hbucket
      exact h.1 (string_append_cancel_left hbucket)
    · rw [hname, hname'] at hbucket
      exact ip_bucket_ne_user _ _ hbucket.symm
  · rcases bucket_cases hcheck' with ⟨limit', hlimit', hname'⟩ | hname' | ⟨user', huser', hname'⟩
    · rw [hname, hname'] at hbucket
      exact endpoint_bucket_ne_user _ _ _ hbucket
    · rw [hname, hname'] at hbucket
      exact ip_bucket_ne_user _ _ hbucket
    · rw [hname, hname'] at hbucket
      rw [string_append_cancel_left hbucket] at huser'
      exact h.2 user huser huser'

end

/-! ## Isolation -/

/-- The responses to the arrivals of a run. -/
def responses (store : RateLimitStore) (limits : RateLimitConfig) (rt : Runtime) (w : Stores)
    (arrivals : List Arrival) : List (Arrival × Response) :=
  Run.outputs (serve store limits rt) w arrivals

/-- The responses to some requests are those of a run without the others, if the others are of
other addresses and users.  It does not matter which commands of Redis fail. -/
theorem clients_isolated (hnames : limits.WellNamed) (hshort : limits.ShortWindows) (rt : Runtime)
    (hstore : store = memoryIncrement ∨ store = redisIncrement ∨ store = failoverIncrement)
    (mine : Request → Bool) {arrivals : List Arrival}
    (hsorted : arrivals.Pairwise fun a b => a.now ≤ b.now)
    (hstrangers : ∀ a ∈ arrivals, ∀ b ∈ arrivals, mine a.request = true →
      mine b.request = false → Strangers rt a.request b.request) :
    (responses store limits rt Stores.empty arrivals).filter (fun e => mine e.1.request) =
      responses store limits rt Stores.empty (arrivals.filter fun a => mine a.request) := by
  have hisolates : Isolates store := by
    rcases hstore with rfl | rfl | rfl
    · exact memory_isolates
    · exact redis_isolates
    · exact failover_isolates
  -- the checks of the requests that are followed
  let B : TierCheck → Prop := fun check =>
    ∃ a ∈ arrivals, mine a.request = true ∧ check ∈ limits.checks rt a.request
  have hwindows : ∀ other, B other → other.limit.windowSeconds.1 ≤ 150 := by
    rintro other ⟨a, -, -, hother⟩
    exact hshort.windowSeconds_le hother
  rcases exists_start Arrival.now arrivals with ⟨start, hstart⟩
  refine @Run.filter_outputs _ _ _ (serve store limits rt) (SameOn B) Arrival.now
    (fun a => mine a.request) arrivals start _ _ (fun h hle => h.later hle) ?_ ?_ hsorted hstart
    fun check _ => same_empty _ _ start
  · intro a ha hmine w w' h
    refine h.serve hisolates (fun check hcheck => ⟨a, ha, hmine, hcheck⟩) hwindows ?_
    rintro check hcheck other ⟨b, -, -, hother⟩ hbucket
    exact governs_of_wellNamed hnames hcheck b.request other hother hbucket
  · intro b hb hother w w' h
    refine h.serve_of_ne hisolates hwindows ?_
    rintro check hcheck other ⟨a, ha, hmine, hmineCheck⟩
    exact (hstrangers a ha b hb hmine hother).bucket_ne hnames hmineCheck hcheck

/-- Visitors of two addresses who name no user are strangers. -/
theorem strangers_visit (rt : Runtime) {address address' : String} (hne : address' ≠ address)
    (now now' : Int) :
    Strangers rt (visit address now).request (visit address' now').request := by
  refine ⟨hne, ?_⟩
  intro user huser
  cases huser

/-- A visitor among the visits of another address, one of which fails over to memory. -/
theorem clients_isolated_visits :
    (responses failoverIncrement rateLimitConfig plainRuntime Stores.empty
        [visit "a" 0, { visit "b" 1 with replies := [.throwsBefore] }, visit "a" 2]).filter
          (fun e => e.1.request.ip = some "a") =
      responses failoverIncrement rateLimitConfig plainRuntime Stores.empty
        ([visit "a" 0, { visit "b" 1 with replies := [.throwsBefore] }, visit "a" 2].filter
          fun a => a.request.ip = some "a") := by
  refine clients_isolated wellNamed_rateLimitConfig shortWindows_rateLimitConfig _ (.inr (.inr rfl))
    (fun req => decide (req.ip = some "a")) (by decide) ?_
  intro a ha b hb hmine hother
  simp only [List.mem_cons, List.not_mem_nil, or_false] at ha hb
  rcases ha with rfl | rfl | rfl
  · rcases hb with rfl | rfl | rfl
    · exact absurd hother (by decide)
    · exact strangers_visit _ (by decide) 0 1
    · exact absurd hother (by decide)
  · exact absurd hmine (by decide)
  · rcases hb with rfl | rfl | rfl
    · exact absurd hother (by decide)
    · exact strangers_visit _ (by decide) 2 1
    · exact absurd hother (by decide)

end RateLimit
end Kraal
