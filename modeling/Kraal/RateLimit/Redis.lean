import Kraal.RateLimit.Store
import Mathlib

/-!
# The counters in Redis

The counter of a window has a key of its own, which begins with the bucket and ends with the
index of the window.  It is written only while its window is the current one, and read until the
end of the next one, when it has not expired yet.

Main results:

- Theorem {lit}`redisKey_inj`: a key belongs to one window of one bucket.
- Theorem {lit}`redisIncrement_ensures`: what an arrival leaves in Redis, whichever command fails.
-/

namespace Kraal
namespace RateLimit

open Foundation

variable {W : WindowSeconds} {bucket bucket' : String} {counts : Int → Nat} {redis : Redis}
  {now k : Int} {w : Stores}

/-! ## Keys -/

theorem colon_notMem_natRepr (n : Nat) : ':' ∉ n.repr.toList := by
  rw [Nat.toList_repr]
  intro h
  have hdigit := Nat.isDigit_of_mem_toDigits (by decide) (by decide) h
  simp at hdigit

theorem colon_notMem_intRepr (k : Int) : ':' ∉ k.repr.toList := by
  rw [Int.repr_eq_if]
  split
  · exact colon_notMem_natRepr _
  · rw [String.toList_append, List.mem_append, not_or]
    exact ⟨by simp, colon_notMem_natRepr _⟩

/-- A key belongs to one window of one bucket. -/
theorem redisKey_inj {k' : Int} (h : redisKey bucket k = redisKey bucket' k') :
    bucket = bucket' ∧ k = k' := by
  have htext := congrArg (fun s : String => s.toList.reverse) h
  simp only [redisKey, String.toList_append, List.reverse_append] at htext
  have hcolon : (":" : String).toList.reverse = [':'] := rfl
  simp only [hcolon, List.singleton_append, toString] at htext
  have hparts := append_separator_inj
    (fun hmem => colon_notMem_intRepr k (List.mem_reverse.mp hmem))
    (fun hmem => colon_notMem_intRepr k' (List.mem_reverse.mp hmem)) htext
  have hindex := Int.repr_injective (String.toList_inj.mp (List.reverse_inj.mp hparts.1))
  have hbucket := List.append_cancel_right hparts.2
  exact ⟨String.toList_inj.mp (List.reverse_inj.mp hbucket), hindex⟩

/-! ## Counts -/

/-- The value under a key, expired or not. -/
def Redis.stored (redis : Redis) (key : String) : Nat :=
  (redis.keys.get key).elim 0 RedisValue.count

/-- Redis has these counts for the windows of a bucket, and keeps them for two windows. -/
structure Keeps (W : WindowSeconds) (bucket : String) (counts : Int → Nat) (redis : Redis) :
    Prop where
  stored : ∀ k, redis.stored (redisKey bucket k) = counts k
  lifetime : ∀ k value time, redis.keys.get (redisKey bucket k) = some value →
    value.expiresAt = some time → (k + 2) * W.1 ≤ time

/-- One more arrival in a window. -/
def bump (counts : Int → Nat) (k : Int) : Int → Nat :=
  fun k' => counts k' + if k' = k then 1 else 0

theorem keeps_empty (W : WindowSeconds) (bucket : String) :
    Keeps W bucket (fun _ => 0) ⟨Storage.empty⟩ := by
  constructor
  · intro k
    simp [Redis.stored]
  · intro k value time hvalue
    simp at hvalue

/-- A counter is alive in its window and in the one after it. -/
theorem Keeps.lookup (h : Keeps W bucket counts redis) (hk : now / W.1 ≤ k + 1) :
    redis.lookup (redisKey bucket k) now = redis.keys.get (redisKey bucket k) := by
  unfold Redis.lookup
  cases hget : redis.keys.get (redisKey bucket k) with
  | none => rfl
  | some value =>
      have hlive : value.live now = true := by
        unfold RedisValue.live
        cases htime : value.expiresAt with
        | none => rfl
        | some time =>
            have hlifetime := h.lifetime k value time hget htime
            have hnow := (Int.ediv_lt_iff_lt_mul W.2).mp (Int.lt_add_one_of_le hk)
            simp
            linarith
      rw [Option.filter_some, if_pos hlive]

theorem stored_set (redis : Redis) (key key' : String) (value : RedisValue) :
    Redis.stored ⟨redis.keys.set key value⟩ key' =
      if key' = key then value.count else redis.stored key' := by
  unfold Redis.stored
  rw [Storage.get_set]
  split <;> rfl

/-- Another key is written. -/
theorem Keeps.set_of_ne (h : Keeps W bucket counts redis) (hbucket : bucket' ≠ bucket)
    (value : RedisValue) : Keeps W bucket counts ⟨redis.keys.set (redisKey bucket' k) value⟩ := by
  have hne : ∀ k', redisKey bucket k' ≠ redisKey bucket' k :=
    fun k' hkey => hbucket (redisKey_inj hkey).1.symm
  constructor
  · intro k'
    rw [stored_set, if_neg (hne k'), h.stored]
  · intro k' value' time hvalue
    rw [Storage.get_set_of_ne _ _ (hne k')] at hvalue
    exact h.lifetime k' value' time hvalue

/-- The counter of a window is written. -/
theorem Keeps.set (h : Keeps W bucket counts redis) (value : RedisValue)
    (hlifetime : ∀ time, value.expiresAt = some time → (k + 2) * W.1 ≤ time)
    {counts' : Int → Nat} (hcounts : ∀ k', counts' k' = if k' = k then value.count else counts k') :
    Keeps W bucket counts' ⟨redis.keys.set (redisKey bucket k) value⟩ := by
  have hkey : ∀ k', redisKey bucket k' = redisKey bucket k ↔ k' = k :=
    fun k' => ⟨fun h => (redisKey_inj h).2, fun h => by rw [h]⟩
  constructor
  · intro k'
    rw [stored_set, hcounts, ← h.stored]
    simp [hkey]
  · intro k' value' time hvalue htime
    rw [Storage.get_set] at hvalue
    by_cases hk : k' = k
    · rw [if_pos ((hkey k').mpr hk), Option.some.injEq] at hvalue
      subst hvalue hk
      exact hlifetime time htime
    · rw [if_neg fun h => hk ((hkey k').mp h)] at hvalue
      exact h.lifetime k' value' time hvalue htime

/-! ## Commands -/

theorem Keeps.incr_of_ne (h : Keeps W bucket counts redis) (hbucket : bucket' ≠ bucket)
    (k now : Int) : Keeps W bucket counts (redis.incr (redisKey bucket' k) now).2 := by
  unfold Redis.incr
  split
  · exact h.set_of_ne hbucket _
  · exact h.set_of_ne hbucket _

theorem Keeps.expire_of_ne (h : Keeps W bucket counts redis) (hbucket : bucket' ≠ bucket)
    (k seconds now : Int) :
    Keeps W bucket counts (redis.expire (redisKey bucket' k) seconds now) := by
  unfold Redis.expire
  split
  · exact h.set_of_ne hbucket _
  · exact h

/-- The counter of the current window is incremented. -/
theorem Keeps.incr (h : Keeps W bucket counts redis) (now : Int) :
    (redis.incr (redisKey bucket (now / W.1)) now).1 = counts (now / W.1) + 1 ∧
      Keeps W bucket (bump counts (now / W.1))
        (redis.incr (redisKey bucket (now / W.1)) now).2 := by
  have hstored := h.stored (now / W.1)
  unfold Redis.stored at hstored
  unfold Redis.incr
  rw [h.lookup (Int.le_add_one le_rfl)]
  cases hget : redis.keys.get (redisKey bucket (now / W.1)) with
  | none =>
      have hzero : counts (now / W.1) = 0 := by rw [← hstored, hget]; rfl
      refine ⟨by rw [hzero], h.set ⟨1, none⟩ (fun time htime => by cases htime) fun k' => ?_⟩
      by_cases hk : k' = now / W.1
      · simp [bump, hk, hzero]
      · simp [bump, hk]
  | some value =>
      have hcount : counts (now / W.1) = value.count := by rw [← hstored, hget]; rfl
      have hset : Keeps W bucket (bump counts (now / W.1))
          ⟨redis.keys.set (redisKey bucket (now / W.1))
            { value with count := value.count + 1 }⟩ := by
        refine h.set { value with count := value.count + 1 }
          (fun time => h.lifetime _ value time hget) fun k' => ?_
        by_cases hk : k' = now / W.1
        · simp [bump, hk, hcount]
        · simp [bump, hk]
      exact ⟨by rw [hcount], hset⟩

/-- The counter of the current window is given two windows to live. -/
theorem Keeps.expire (h : Keeps W bucket counts redis) (now : Int) :
    Keeps W bucket counts (redis.expire (redisKey bucket (now / W.1)) (W.1 * 2) now) := by
  unfold Redis.expire
  rw [h.lookup (Int.le_add_one le_rfl)]
  cases hget : redis.keys.get (redisKey bucket (now / W.1)) with
  | none => exact h
  | some value =>
      have hstored := h.stored (now / W.1)
      rw [Redis.stored, hget] at hstored
      refine h.set _ (fun time htime => ?_) fun k' => ?_
      · have hstart := Int.ediv_mul_le now W.2.ne'
        simp only [Option.some.injEq] at htime
        rw [← htime]
        linarith
      · by_cases hk : k' = now / W.1
        · simp [hk, ← hstored]
        · simp [hk]

/-- The counter of the window before is read. -/
theorem Keeps.get (h : Keeps W bucket counts redis) (now : Int) :
    (redis.get (redisKey bucket (now / W.1 - 1)) now).getD 0 = counts (now / W.1 - 1) := by
  have hstored := h.stored (now / W.1 - 1)
  unfold Redis.get
  rw [h.lookup (by omega), ← hstored, Redis.stored]
  cases redis.keys.get (redisKey bucket (now / W.1 - 1)) <;> rfl

/-! ## An arrival -/

section

variable {allowed : Reply → Prop}

/-- A command takes effect, or it fails before or after that. -/
theorem command_ensures {α : Type} {f : Redis → α × Redis} {Q : Exit Unit α → Stores → Prop}
    (hdone : Q (.returned (f w.redis).1) { w with redis := (f w.redis).2 })
    (hbefore : allowed .throwsBefore → Q (.thrown ()) w)
    (hafter : allowed .throwsAfter → Q (.thrown ()) { w with redis := (f w.redis).2 }) :
    Program.Ensures allowed (command f) w Q := by
  refine Program.Ensures.bind (R := fun exit w' => w' = w ∧
    ∃ reply, exit = .returned reply ∧ ∀ r, reply = some r → allowed r)
    (Program.ensures_next ⟨rfl, none, rfl, fun _ h => by cases h⟩
      fun r hr => ⟨rfl, some r, rfl, fun r' h => by cases h; exact hr⟩) ?_ ?_ ?_
  · intro reply w' h
    rcases h with ⟨rfl, reply', hexit, hallowed⟩
    cases hexit
    refine Program.Ensures.bind_get ?_
    cases reply with
    | none => exact Program.Ensures.bind_put (Program.ensures_pure hdone)
    | some r =>
        cases r with
        | ok => exact Program.Ensures.bind_put (Program.ensures_pure hdone)
        | throwsBefore => exact Program.ensures_throw (hbefore (hallowed _ rfl))
        | throwsAfter =>
            exact Program.Ensures.bind_put (Program.ensures_throw (hafter (hallowed _ rfl)))
  · rintro _ _ ⟨-, _, h, -⟩
    cases h
  · rintro _ ⟨-, _, h, -⟩
    cases h

/-- A program has failed because a command has. -/
def Failed {α : Type} (allowed : Reply → Prop) (exit : Exit Unit α) : Prop :=
  exit = .thrown () ∧ (allowed .throwsBefore ∨ allowed .throwsAfter)

theorem Failed.thrown {α β : Type} {e : Unit}
    (h : Failed allowed (.thrown e : Exit Unit α)) :
    Failed allowed (.thrown e : Exit Unit β) :=
  ⟨rfl, h.2⟩

theorem not_failed_returned {α : Type} {a : α} :
    ¬ Failed allowed (.returned a : Exit Unit α) := by
  intro h
  cases h.1

theorem not_failed_stopped {α : Type} : ¬ Failed allowed (.stopped : Exit Unit α) := by
  intro h
  cases h.1

theorem expireFirst_ensures {P : Redis → Prop} {key : String} (n : Nat) (hp : P w.redis)
    (hexpire : P (w.redis.expire key (W.1 * 2) now)) :
    Program.Ensures allowed (expireFirst key W now n) w fun exit w' =>
      w'.memory = w.memory ∧ P w'.redis ∧ (Failed allowed exit ∨ exit = .returned ()) := by
  unfold expireFirst
  split
  · exact command_ensures ⟨rfl, hexpire, .inr rfl⟩
      (fun h => ⟨rfl, hp, .inl ⟨rfl, .inl h⟩⟩)
      fun h => ⟨rfl, hexpire, .inl ⟨rfl, .inr h⟩⟩
  · exact Program.ensures_pure ⟨rfl, hp, .inr rfl⟩

theorem getPrevious_ensures (key : String) (now : Int) :
    Program.Ensures allowed (command fun redis => (redis.get key now, redis)) w fun exit w' =>
      w' = w ∧ (Failed allowed exit ∨ exit = .returned (w.redis.get key now)) :=
  command_ensures ⟨rfl, .inr rfl⟩ (fun h => ⟨rfl, .inl ⟨rfl, .inl h⟩⟩)
    fun h => ⟨rfl, .inl ⟨rfl, .inr h⟩⟩

/-- An arrival in Redis: every command fails or takes effect, and the first one is what counts. -/
theorem redisIncrement_ensures {P Q : Redis → Prop} (hbefore : Q w.redis)
    (hincr : P (w.redis.incr (redisKey bucket (now / W.1)) now).2)
    (hexpire : ∀ redis, P redis →
      P (redis.expire (redisKey bucket (now / W.1)) (W.1 * 2) now))
    (hafter : ∀ redis, P redis → Q redis) :
    Program.Ensures allowed (redisIncrement bucket W now) w fun exit w' =>
      w'.memory = w.memory ∧ Q w'.redis ∧ (Failed allowed exit ∨ P w'.redis ∧
        exit = .returned ⟨(w.redis.incr (redisKey bucket (now / W.1)) now).1,
          (w'.redis.get (redisKey bucket (now / W.1 - 1)) now).getD 0,
          now / W.1 * W.1⟩) := by
  refine Program.Ensures.bind (R := fun exit w' => w'.memory = w.memory ∧ Q w'.redis ∧
    (Failed allowed exit ∨ P w'.redis ∧
      exit = .returned (w.redis.incr (redisKey bucket (now / W.1)) now).1))
    (command_ensures ⟨rfl, hafter _ hincr, .inr ⟨hincr, rfl⟩⟩
      (fun h => ⟨rfl, hbefore, .inl ⟨rfl, .inl h⟩⟩)
      fun h => ⟨rfl, hafter _ hincr, .inl ⟨rfl, .inr h⟩⟩) ?_ ?_ ?_
  · rintro n w' ⟨hmemory, -, h | ⟨hp, h⟩⟩
    · exact absurd h not_failed_returned
    · -- the first command has taken effect, and nothing after it changes what is counted
      cases h
      refine Program.Ensures.bind (expireFirst_ensures _ hp (hexpire _ hp)) ?_ ?_ ?_
      · rintro _ w'' ⟨hmemory', hp', -⟩
        refine Program.Ensures.bind (getPrevious_ensures _ now) ?_ ?_ ?_
        · rintro previous w₃ ⟨rfl, h | h⟩
          · exact absurd h not_failed_returned
          · cases h
            exact Program.ensures_pure ⟨hmemory'.trans hmemory, hafter _ hp', .inr ⟨hp', rfl⟩⟩
        · rintro _ w₃ ⟨rfl, h | h⟩
          · exact ⟨hmemory'.trans hmemory, hafter _ hp', .inl h.thrown⟩
          · cases h
        · rintro w₃ ⟨rfl, h | h⟩
          · exact absurd h not_failed_stopped
          · cases h
      · rintro _ w'' ⟨hmemory', hp', h | h⟩
        · exact ⟨hmemory'.trans hmemory, hafter _ hp', .inl h.thrown⟩
        · cases h
      · rintro w'' ⟨-, -, h | h⟩
        · exact absurd h not_failed_stopped
        · cases h
  · rintro _ w' ⟨hmemory, hq, h | ⟨-, h⟩⟩
    · exact ⟨hmemory, hq, .inl h.thrown⟩
    · cases h
  · rintro w' ⟨-, -, h | ⟨-, h⟩⟩
    · exact absurd h not_failed_stopped
    · cases h

/-- An arrival of another bucket. -/
theorem Keeps.ensures_of_ne {W' : WindowSeconds} (h : Keeps W bucket counts w.redis)
    (hbucket : bucket' ≠ bucket) (now : Int) :
    Program.Ensures allowed (redisIncrement bucket' W' now) w fun exit w' =>
      w'.memory = w.memory ∧ Keeps W bucket counts w'.redis ∧
        (Failed allowed exit ∨ ∃ result, exit = .returned result) := by
  refine (redisIncrement_ensures (P := Keeps W bucket counts) h (h.incr_of_ne hbucket _ _)
    (fun _ hp => hp.expire_of_ne hbucket _ _ _) fun _ hp => hp).mono ?_
  rintro exit w' ⟨hmemory, hq, hfailed | ⟨-, hreturned⟩⟩
  · exact ⟨hmemory, hq, .inl hfailed⟩
  · exact ⟨hmemory, hq, .inr ⟨_, hreturned⟩⟩

/-- An arrival of the bucket: it is counted, unless the first command fails before it takes
effect. -/
theorem Keeps.ensures_increment (h : Keeps W bucket counts w.redis) (now : Int) :
    Program.Ensures allowed (redisIncrement bucket W now) w fun exit w' =>
      w'.memory = w.memory ∧
      (Keeps W bucket counts w'.redis ∨ Keeps W bucket (bump counts (now / W.1)) w'.redis) ∧
      (Failed allowed exit ∨ Keeps W bucket (bump counts (now / W.1)) w'.redis ∧
        exit = .returned ⟨counts (now / W.1) + 1, counts (now / W.1 - 1), now / W.1 * W.1⟩) := by
  refine (redisIncrement_ensures (P := Keeps W bucket (bump counts (now / W.1)))
    (Q := fun redis => Keeps W bucket counts redis ∨
      Keeps W bucket (bump counts (now / W.1)) redis)
    (.inl h) (h.incr now).2 (fun _ hp => hp.expire now) fun _ hp => .inr hp).mono ?_
  rintro exit w' ⟨hmemory, hq, hfailed | ⟨hp, hreturned⟩⟩
  · exact ⟨hmemory, hq, .inl hfailed⟩
  · have hprevious : bump counts (now / W.1) (now / W.1 - 1) = counts (now / W.1 - 1) := by
      simp [bump]
    rw [(h.incr now).1, hp.get now, hprevious] at hreturned
    exact ⟨hmemory, hq, .inr ⟨hp, hreturned⟩⟩

end

end RateLimit
end Kraal
