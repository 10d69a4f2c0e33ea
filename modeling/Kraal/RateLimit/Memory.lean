import Kraal.RateLimit.Store

/-!
# The counters in memory

The entry of a bucket holds the counters of the window of its last arrival and of the one before
that.  An arrival of another bucket leaves it alone, unless it is swept.

Main results:

- Theorem {lit}`counters_nextEntry`: an entry rolls over to the window of an arrival.
- Theorems {lit}`get_increment` and {lit}`get_increment_of_ne`: the entry of a bucket after an
  arrival.
- Theorem {lit}`Dated.increment_fst`: the counts that an arrival returns.
-/

namespace Kraal
namespace RateLimit

open Foundation
open SlidingWindow (Counters roll count)

variable {W : WindowSeconds} {bucket : String} {ts : List Int} {now now' : Int}
  {memory : InMemoryRateLimitStore}

/-! ## Entries -/

/-- An arrival counted in memory, if the entry is not of a later window. -/
theorem counters_nextEntry {entry : Option MemoryEntry} {windowIndex : Int}
    (h : ∀ e, entry = some e → e.windowIndex ≤ windowIndex) (now : Int) :
    (nextEntry entry windowIndex now).counters =
      count (entry.map MemoryEntry.counters) windowIndex := by
  cases entry with
  | none => rfl
  | some e =>
      have hle := h e rfl
      rw [Option.map_some, count]
      by_cases hbefore : e.windowIndex < windowIndex - 1
      · rw [SlidingWindow.roll_of_lt hbefore]
        simp [nextEntry, MemoryEntry.counters, hbefore]
      · by_cases hlast : e.windowIndex = windowIndex - 1
        · rw [SlidingWindow.roll_of_eq_sub hlast]
          simp [nextEntry, MemoryEntry.counters, hlast]
        · have hnow : e.windowIndex = windowIndex := by omega
          rw [SlidingWindow.roll_of_eq hnow]
          subst hnow
          simp only [nextEntry, MemoryEntry.counters, if_neg hbefore, if_neg hlast]

@[simp]
theorem lastSeen_nextEntry (entry : Option MemoryEntry) (windowIndex now : Int) :
    (nextEntry entry windowIndex now).lastSeen = now := by
  cases entry with
  | none => rfl
  | some e =>
      simp only [nextEntry]
      split
      · rfl
      · split <;> rfl

/-- The entry of a bucket when another one is written: it stays, or it is swept. -/
theorem get_record (store : InMemoryRateLimitStore) (bucket : String) (entry : MemoryEntry)
    (now : Int) (bucket' : String) :
    (store.record bucket entry now).entries.get bucket' =
        (store.entries.set bucket entry).get bucket' ∨
      (store.record bucket entry now).entries.get bucket' = none ∧
        ∃ e, (store.entries.set bucket entry).get bucket' = some e ∧
          e.lastSeen + sweepIdleSeconds < now := by
  unfold InMemoryRateLimitStore.record
  split
  · simp only [sweep, Storage.get_retain]
    cases hget : (store.entries.set bucket entry).get bucket' with
    | none => exact .inl rfl
    | some e =>
        by_cases hidle : now - e.lastSeen ≤ sweepIdleSeconds
        · simp [Option.filter, hidle]
        · refine .inr ⟨by simp [Option.filter, hidle], e, rfl, by omega⟩
  · exact .inl rfl

/-- The entry of a bucket after an arrival of it. -/
theorem get_increment (store : InMemoryRateLimitStore) (bucket : String)
    (windowSeconds : WindowSeconds) (now : Int) :
    (store.increment bucket windowSeconds now).2.entries.get bucket =
      some (nextEntry (store.entries.get bucket) (now / windowSeconds.1) now) := by
  simp only [InMemoryRateLimitStore.increment]
  rcases get_record store bucket
    (nextEntry (store.entries.get bucket) (now / windowSeconds.1) now) now bucket with
    hget | ⟨-, entry, hentry, hidle⟩
  · rw [hget, Storage.get_set_self]
  · -- an entry that has just been written is not idle
    rw [Storage.get_set_self, Option.some.injEq] at hentry
    rw [← hentry, lastSeen_nextEntry] at hidle
    simp [sweepIdleSeconds] at hidle

/-- The entry of a bucket after an arrival of another one: it stays, or it is swept. -/
theorem get_increment_of_ne (store : InMemoryRateLimitStore) {bucket bucket' : String}
    (hbucket : bucket ≠ bucket') (windowSeconds : WindowSeconds) (now : Int) :
    (store.increment bucket' windowSeconds now).2.entries.get bucket = store.entries.get bucket ∨
      (store.increment bucket' windowSeconds now).2.entries.get bucket = none ∧
        ∃ entry, store.entries.get bucket = some entry ∧
          entry.lastSeen + sweepIdleSeconds < now := by
  simp only [InMemoryRateLimitStore.increment]
  have hset := Storage.get_set_of_ne store.entries
    (nextEntry (store.entries.get bucket') (now / windowSeconds.1) now) hbucket
  have hrecord := get_record store bucket'
    (nextEntry (store.entries.get bucket') (now / windowSeconds.1) now) now bucket
  rwa [hset] at hrecord

/-! ## Arrivals -/

/-- A run has a time at which it has not begun. -/
theorem exists_start {α : Type} (time : α → Int) (xs : List α) :
    ∃ start, ∀ x ∈ xs, start ≤ time x := by
  induction xs with
  | nil => exact ⟨0, fun _ hx => absurd hx List.not_mem_nil⟩
  | cons x xs ih =>
      rcases ih with ⟨start, hstart⟩
      refine ⟨min start (time x), fun y hy => ?_⟩
      rcases List.mem_cons.mp hy with rfl | hy
      · exact min_le_right _ _
      · exact (min_le_left _ _).trans (hstart y hy)

/-- The entry of a bucket is not of a later window, and not older than its arrivals. -/
structure Dated (W : WindowSeconds) (bucket : String) (ts : List Int) (now : Int)
    (memory : InMemoryRateLimitStore) : Prop where
  arrived : ∀ s ∈ ts, s ≤ now
  window : ∀ entry, memory.entries.get bucket = some entry → entry.windowIndex ≤ now / W.1
  seen : ∀ entry, memory.entries.get bucket = some entry → ∀ s ∈ ts, s ≤ entry.lastSeen

theorem dated_empty (W : WindowSeconds) (bucket : String) (now : Int) :
    Dated W bucket [] now ⟨Storage.empty⟩ := by
  refine ⟨fun s hs => ?_, fun entry hentry => ?_, fun entry hentry s hs => ?_⟩
  · cases hs
  · simp at hentry
  · cases hs

theorem Dated.later (h : Dated W bucket ts now memory) (hle : now ≤ now') :
    Dated W bucket ts now' memory :=
  ⟨fun s hs => (h.arrived s hs).trans hle, fun entry hentry => (h.window entry hentry).trans
    (Int.ediv_le_ediv W.2 hle), h.seen⟩

/-- An arrival of another bucket. -/
theorem Dated.increment_of_ne (h : Dated W bucket ts now memory) {bucket' : String}
    (hbucket : bucket' ≠ bucket) (W' : WindowSeconds) :
    Dated W bucket ts now (memory.increment bucket' W' now).2 := by
  rcases get_increment_of_ne memory hbucket.symm W' now with hget | ⟨hget, -⟩
  · exact ⟨h.arrived, fun entry hentry => h.window entry (hget ▸ hentry),
      fun entry hentry => h.seen entry (hget ▸ hentry)⟩
  · refine ⟨h.arrived, fun entry hentry => ?_, fun entry hentry => ?_⟩
    · rw [hget] at hentry
      cases hentry
    · rw [hget] at hentry
      cases hentry

/-- An arrival of the bucket. -/
theorem Dated.increment (h : Dated W bucket ts now memory) {ts' : List Int}
    (hnew : ∀ s ∈ ts', s ≤ now) :
    Dated W bucket (ts ++ ts') now (memory.increment bucket W now).2 := by
  have hnext := get_increment memory bucket W now
  have harrived : ∀ s ∈ ts ++ ts', s ≤ now := by
    intro s hs
    rcases List.mem_append.mp hs with hs | hs
    · exact h.arrived s hs
    · exact hnew s hs
  refine ⟨harrived, fun entry hentry => ?_, fun entry hentry => ?_⟩
  · rw [hnext, Option.some.injEq] at hentry
    have hwindow := congrArg Counters.window (counters_nextEntry h.window now)
    rw [← hentry]
    exact hwindow.le
  · rw [hnext, Option.some.injEq] at hentry
    rw [← hentry, lastSeen_nextEntry]
    exact harrived

/-- The counters of the bucket after an arrival of it. -/
theorem Dated.counters_increment (h : Dated W bucket ts now memory) :
    (memory.increment bucket W now).2.counters bucket =
      some (count (memory.counters bucket) (now / W.1)) := by
  rw [InMemoryRateLimitStore.counters, get_increment, Option.map_some,
    counters_nextEntry h.window]
  rfl

/-- The counts that an arrival of the bucket returns. -/
theorem Dated.increment_fst (h : Dated W bucket ts now memory) :
    (memory.increment bucket W now).1 =
      ⟨(roll (memory.counters bucket) (now / W.1)).1 + 1,
        (roll (memory.counters bucket) (now / W.1)).2, now / W.1 * W.1⟩ := by
  have hcount := counters_nextEntry h.window now
  have hcurrent := congrArg Counters.current hcount
  have hprevious := congrArg Counters.previous hcount
  simp only [MemoryEntry.counters, count] at hcurrent hprevious
  simp only [InMemoryRateLimitStore.increment, hcurrent, hprevious]
  rfl

end RateLimit
end Kraal
