import Kraal.Backend.Submission
import Kraal.Backend.Undisturbed
import Kraal.RateLimit.Budget

/-!
# The server

The rate limiter runs before the body of a request is read, and what it rejects reaches no handler.
A process that stops loses the counters in memory, not those in Redis and not the database.

The limits of a bucket bound what its requests submit to the chain: in a window the limit, the limit
once more with a failover, and the limit once more for every stop of the process in that window.

Main results:

- Definition {lit}`step`: the rate limiter and the backend as one machine.
- Theorem {lit}`backend_inputs`: to the backend, a step is a series of its own inputs.
- Theorem {lit}`submitted_cases`: a step submits at most one event, for a request that is let in.
- Theorem {lit}`Survives.bounded`: a store that enforces a limit bounds what is let in.
- Theorem {lit}`submissions_limited`: the bound on the events of a bucket, in every run.

Current gaps:

- The routes that write no event, those of the webhooks among them, are one case.
-/

namespace Kraal
namespace App

open Foundation
open Foundation.SlidingWindow
open Backend (AppConfig Endpoint Json Tick World ChainEvent)
open RateLimit (Arrival Counted Enforces FailoverEnforces Governs MemoryEnforces RateLimitConfig
  RateLimitStore Reply Stores WindowLimit serve)

/-! ## The process -/

/-- The counters of the rate limiter and the backend with its clock. -/
structure Server where
  limiter : Stores
  backend : World

/-- The server when it starts for the first time. -/
def Server.initial : Server := ⟨Stores.empty, World.initial⟩

/-- A request: what the rate limiter reads of it, the key that it carries, and its body if it has
one, or nothing if what it has cannot be parsed. -/
structure HttpRequest extends RateLimit.Request where
  key : Option String
  parsed : Option (Option Json)

/-- The endpoint that the framework finds for a method and a path, if it is one that submits. -/
abbrev Router := String → String → Option Endpoint

/-- A request comes in after some time, or the process is restarted. -/
inductive Incoming where
  | request (elapsed : Nat) (req : HttpRequest) (replies : List Reply) (script : List Tick)
  | restart (elapsed : Nat)

/-- The time that has passed before something arrives. -/
def Incoming.elapsed : Incoming → Nat
  | .request elapsed _ _ _ => elapsed
  | .restart elapsed => elapsed

/-- The counters after the process has stopped: only Redis keeps them. -/
def restarted (w : Stores) : Stores := { Stores.empty with redis := w.redis }

/-- The request that a handler is called with. -/
def HttpRequest.handled (router : Router) (req : HttpRequest) : Option Backend.Request :=
  match router req.method req.path, req.parsed with
  | some endpoint, some body => some ⟨endpoint, req.path, req.key, body⟩
  | _, _ => none

/-- The time at which something comes in. -/
def arrivalTime (e : Server × Incoming) : Int :=
  e.1.backend.clock + e.2.elapsed

section

variable (store : RateLimitStore) (limits : RateLimitConfig) (rt : RateLimit.Runtime)
  (router : Router) (cfg : AppConfig) (brt : Backend.Runtime)

/-- The rate limiter at work on what comes in. -/
def limited (s : Server) : Incoming → Bool × Stores
  | .request elapsed req replies _ =>
      let served := serve store limits rt s.limiter
        ⟨req.toRequest, s.backend.clock + elapsed, replies⟩
      (served.1.admitted, served.2)
  | .restart _ => (false, s.limiter)

/-- The input that the backend gets: a request that is let in and has a handler. -/
def passed (s : Server) (i : Incoming) : Option (Backend.Request × List Tick) :=
  match i with
  | .request _ req _ script =>
      if (limited store limits rt s i).1 then
        (req.handled router).map fun handled => (handled, script)
      else none
  | .restart _ => none

/-- The process stops: it is restarted, or it stops while it handles a request. -/
def stops (s : Server) (i : Incoming) : Bool :=
  match i with
  | .restart _ => true
  | .request elapsed _ _ _ =>
      match passed store limits rt router s i with
      | none => false
      | some (req, script) =>
          match (Backend.handleRequest cfg brt req script (s.backend.later elapsed)).1 with
          | .stopped => true
          | _ => false

/-- The backend after something has come in. -/
def backendAfter (s : Server) (i : Incoming) : World :=
  match i with
  | .restart elapsed => (s.backend.later elapsed).after .stopped
  | .request elapsed _ _ _ =>
      match passed store limits rt router s i with
      | none => s.backend.later elapsed
      | some (req, script) =>
          Backend.step cfg brt (s.backend.later elapsed) (.request req script)

/-- One step of the server. -/
def step (s : Server) (i : Incoming) : Server :=
  ⟨if stops store limits rt router cfg brt s i then restarted (limited store limits rt s i).2
    else (limited store limits rt s i).2,
    backendAfter store limits rt router cfg brt s i⟩

/-! ## The backend in the server -/

/-- A request that fails at the clock lets time pass. -/
def idle (elapsed : Nat) (fault : Backend.AccessFault) : Backend.Input :=
  .request ⟨.listings, "", some "k", none⟩ [⟨elapsed, some fault⟩]

/-- To the backend, a step of the server is a series of its own inputs. -/
theorem backend_inputs (s : Server) (i : Incoming) : ∃ inputs,
    (step store limits rt router cfg brt s i).backend =
      Run.final (Backend.step cfg brt) s.backend inputs := by
  cases i with
  | restart elapsed => exact ⟨[idle elapsed .stops], rfl⟩
  | request elapsed req replies script =>
      simp only [step, backendAfter]
      cases hpassed : passed store limits rt router s (.request elapsed req replies script) with
      | none => exact ⟨[idle elapsed .throws], rfl⟩
      | some input => exact ⟨[idle elapsed .throws, .request input.1 input.2], rfl⟩

/-! ## Events of requests -/

/-- The events that a step submits to the chain. -/
def submitted (e : Server × Incoming) : List ChainEvent :=
  (step store limits rt router cfg brt e.1 e.2).backend.store.db.chainEvents.drop
    e.1.backend.store.db.chainEvents.length

/-- A step is a request that is counted in a bucket and comes in during a window. -/
def CountedIn (bucket : String) (W k : Int) (e : Server × Incoming) : Prop :=
  match e.2 with
  | .request _ req _ _ => Counted limits rt bucket req.toRequest ∧ arrivalTime e / W = k
  | .restart _ => False

instance (bucket : String) (W k : Int) : DecidablePred (CountedIn limits rt bucket W k) := fun e =>
  match e with
  | (_, .request _ _ _ _) => inferInstanceAs (Decidable (_ ∧ _))
  | (_, .restart _) => inferInstanceAs (Decidable False)

/-- The events that the requests of a bucket in a window have submitted. -/
def eventsOf (bucket : String) (W k : Int) (past : List (Server × Incoming)) : List ChainEvent :=
  (past.filter fun e => CountedIn limits rt bucket W k e).flatMap
    (submitted store limits rt router cfg brt)

/-- How often the process has stopped in a window. -/
def stopsIn (W k : Int) (past : List (Server × Incoming)) : Nat :=
  past.countP fun e =>
    stops store limits rt router cfg brt e.1 e.2 && decide (arrivalTime e / W = k)

/-- The times at which requests of a bucket were let in. -/
def letIn (bucket : String) (past : List (Server × Incoming)) : List Int :=
  past.flatMap fun e =>
    match e.2 with
    | .request _ req _ _ =>
        if Counted limits rt bucket req.toRequest ∧ (limited store limits rt e.1 e.2).1 then
          [arrivalTime e]
        else []
    | .restart _ => []

/-- The steps of a run of the server. -/
def history (run : List Incoming) : List (Server × Incoming) :=
  Run.trace (step store limits rt router cfg brt) Server.initial run

variable {store limits rt router cfg brt} {s : Server} {i : Incoming}

theorem clock_le_backendAfter (s : Server) (i : Incoming) :
    s.backend.clock + i.elapsed ≤ (backendAfter store limits rt router cfg brt s i).clock := by
  cases i with
  | restart elapsed => exact le_rfl
  | request elapsed req replies script =>
      simp only [backendAfter]
      split
      · exact le_rfl
      · exact Backend.clock_le_step cfg brt (s.backend.later elapsed) _

/-- A step submits at most one event, and only for a request that is let in. -/
theorem submitted_cases (s : Server) (i : Incoming) :
    submitted store limits rt router cfg brt (s, i) = [] ∨
      (limited store limits rt s i).1 = true ∧
        (submitted store limits rt router cfg brt (s, i)).length ≤ 1 := by
  have hnone : backendAfter store limits rt router cfg brt s i = s.backend.later i.elapsed →
      submitted store limits rt router cfg brt (s, i) = [] := by
    intro hsame
    simp only [submitted, step, hsame]
    exact List.drop_length
  cases i with
  | restart elapsed => exact .inl List.drop_length
  | request elapsed req replies script =>
      cases hpassed : passed store limits rt router s (.request elapsed req replies script) with
      | none => exact .inl (hnone (by simp only [backendAfter, hpassed, Incoming.elapsed]))
      | some input =>
          have hin :
              (limited store limits rt s (.request elapsed req replies script)).1 = true := by
            simp only [passed] at hpassed
            by_contra hout
            rw [if_neg hout] at hpassed
            cases hpassed
          refine .inr ⟨hin, ?_⟩
          simp only [submitted, step, backendAfter, hpassed]
          rcases Backend.step_events cfg brt (s.backend.later elapsed)
            (.request input.1 input.2) with hsame | ⟨_, _, _, _, ev, -, -, -, -, hnew⟩
          · rw [hsame]
            exact (congrArg List.length List.drop_length).trans_le (Nat.zero_le 1)
          · rw [hnew]
            exact (congrArg List.length List.drop_left).le

theorem eventsOf_cons (bucket : String) (W k : Int) (e : Server × Incoming)
    (past : List (Server × Incoming)) :
    eventsOf store limits rt router cfg brt bucket W k (e :: past) =
      (if CountedIn limits rt bucket W k e then submitted store limits rt router cfg brt e
        else []) ++ eventsOf store limits rt router cfg brt bucket W k past := by
  by_cases hin : CountedIn limits rt bucket W k e
  · simp [eventsOf, hin]
  · simp [eventsOf, hin]

/-- The events of a bucket are no more than what was let in of it. -/
theorem length_eventsOf_le (bucket : String) (W k : Int) (past : List (Server × Incoming)) :
    (eventsOf store limits rt router cfg brt bucket W k past).length ≤
      inWindow W (letIn store limits rt bucket past) k := by
  induction past with
  | nil => exact Nat.zero_le _
  | cons e past ih =>
      rcases e with ⟨s, i⟩
      have hcons : letIn store limits rt bucket ((s, i) :: past) =
          letIn store limits rt bucket [(s, i)] ++ letIn store limits rt bucket past := by
        simp [letIn]
      rw [hcons, inWindow_append, eventsOf_cons]
      by_cases hin : CountedIn limits rt bucket W k (s, i)
      · rw [if_pos hin, List.length_append]
        have hcases : submitted store limits rt router cfg brt (s, i) = [] ∨
            (limited store limits rt s i).1 = true ∧
              (submitted store limits rt router cfg brt (s, i)).length ≤ 1 := submitted_cases s i
        refine Nat.add_le_add ?_ ih
        rcases hcases with hnone | ⟨hlet, hone⟩
        · rw [hnone]
          exact Nat.zero_le _
        · cases i with
          | restart elapsed => exact hin.elim
          | request elapsed req replies script =>
              refine hone.trans ?_
              have htimes : letIn store limits rt bucket
                  [(s, .request elapsed req replies script)] =
                    [arrivalTime (s, .request elapsed req replies script)] := by
                simp [letIn, hin.1, hlet]
              rw [htimes, inWindow_singleton, if_pos hin.2]
      · rw [if_neg hin, List.nil_append]
        exact ih.trans (Nat.le_add_left _ _)

end

/-! ## Lives of the process -/

/-- Arrivals of several lives of a process, those of the last of which are remembered: a window that
is not over has what is remembered, and a limit for every life that has ended in it. -/
structure Remembered (W : Int) (limit c : Nat) (times : List Int) (ends : Int → Nat)
    (ts : List Int) (now : Int) : Prop where
  arrived : ∀ t ∈ times, t ≤ now
  bounded : ∀ k, inWindow W times k ≤
    ends k * limit + if now / W ≤ k then inWindow W ts k else c * limit

section

variable {W : Int} {limit c : Nat} {times ts ts' : List Int} {ends : Int → Nat} {now t : Int}

theorem remembered_nil (W : Int) (limit c : Nat) (now : Int) :
    Remembered W limit c [] (fun _ => 0) [] now where
  arrived _ h := absurd h List.not_mem_nil
  bounded _ := Nat.zero_le _

/-- A window that is over, or has not begun, has nothing of an arrival. -/
theorem inWindow_new {new : List Int} (hnew : new = [] ∨ new = [t]) {k : Int} (hk : t / W ≠ k) :
    inWindow W new k = 0 := by
  rcases hnew with rfl | rfl
  · exact inWindow_nil W k
  · rw [inWindow_singleton, if_neg hk]

/-- An arrival is remembered, or it is none. -/
theorem Remembered.arrive (h : Remembered W limit c times ends ts now) (hW : 0 < W)
    (hle : now ≤ t) {new : List Int} (hnew : new = [] ∨ new = [t])
    (hlimit : ∀ k, inWindow W ts k ≤ c * limit) :
    Remembered W limit c (times ++ new) ends (ts ++ new) t := by
  have hwindow : now / W ≤ t / W := Int.ediv_le_ediv hW hle
  constructor
  · intro s hs
    rcases List.mem_append.mp hs with hs | hs
    · exact (h.arrived s hs).trans hle
    · rcases hnew with rfl | rfl
      · cases hs
      · exact (List.mem_singleton.mp hs).le
  · intro k
    have hbound := h.bounded k
    rw [inWindow_append, inWindow_append]
    by_cases hk : t / W ≤ k
    · rw [if_pos (hwindow.trans hk)] at hbound
      rw [if_pos hk]
      omega
    · have hnone := inWindow_new (W := W) hnew (k := k) (by omega)
      have hts := hlimit k
      rw [if_neg hk, hnone]
      split at hbound
      · omega
      · omega

/-- A life ends: what is forgotten of it is within the limit. -/
theorem Remembered.restart (h : Remembered W limit c times ends ts now) (hW : 0 < W)
    (hforgets : ∀ k, inWindow W ts k ≤ inWindow W ts' k + limit) :
    Remembered W limit c times (fun k => ends k + if now / W = k then 1 else 0) ts' now := by
  refine ⟨h.arrived, fun k => ?_⟩
  have hbound := h.bounded k
  have hforgotten := hforgets k
  rcases lt_trichotomy (now / W) k with hk | hk | hk
  · -- nothing has arrived in a later window
    have hnone : inWindow W times k = 0 := by
      rw [inWindow, List.countP_eq_zero]
      intro s hs hin
      have hle := Int.ediv_le_ediv hW (h.arrived s hs)
      simp only [decide_eq_true_eq] at hin
      omega
    rw [hnone]
    exact Nat.zero_le _
  · rw [if_pos hk.le] at hbound ⊢
    rw [if_pos hk, Nat.add_mul, Nat.one_mul]
    omega
  · rw [if_neg (by omega)] at hbound ⊢
    rw [if_neg (by omega), Nat.add_zero]
    exact hbound

theorem Remembered.inWindow_le (h : Remembered W limit c times ends ts now)
    (hlimit : ∀ k, inWindow W ts k ≤ c * limit) (k : Int) :
    inWindow W times k ≤ (c + ends k) * limit := by
  have hbound := h.bounded k
  have hts := hlimit k
  rw [Nat.add_mul]
  split at hbound
  · omega
  · omega

end

/-! ## Stores that survive a stop -/

/-- A store that enforces a limit, and that forgets at most the limit in a window when the process
stops. -/
structure Survives (round : ℚ → ℚ) (store : RateLimitStore) (bucket : String)
    (limit : WindowLimit) (Holds : List Int → Int → Stores → Prop) (c : Nat) : Prop
    extends Enforces round store bucket limit Holds where
  start : Holds [] 0 Stores.empty
  bound : ∀ {ts now w}, Holds ts now w →
    ∀ k, inWindow limit.windowSeconds.1 ts k ≤ c * limit.limit
  forgets : ∀ {ts now w}, Holds ts now w → ∃ ts', Holds ts' now (restarted w) ∧
    ∀ k, inWindow limit.windowSeconds.1 ts k ≤ inWindow limit.windowSeconds.1 ts' k + limit.limit

section

variable {round : ℚ → ℚ} {bucket : String} {limit : WindowLimit}

/-- What is in memory is forgotten. -/
theorem memory_survives (hround : ExactUpTo round (limit.limit + 1))
    (hwindow : limit.windowSeconds.1 ≤ RateLimit.sweepIdleSeconds + 1) :
    Survives round RateLimit.memoryIncrement bucket limit
      (fun ts now w => MemoryEnforces round bucket limit ts now w.memory) 1 where
  toEnforces := RateLimit.memory_enforces hround hwindow
  start := RateLimit.memoryEnforces_empty round bucket limit 0
  bound h k := by
    rw [Nat.one_mul]
    exact h.inWindow_le k
  forgets {ts now w} h := by
    refine ⟨[], RateLimit.memoryEnforces_empty round bucket limit now, fun k => ?_⟩
    rw [SlidingWindow.inWindow_nil, Nat.zero_add]
    exact h.inWindow_le k

/-- What Redis has let in is still counted, and what memory has let in is forgotten. -/
theorem failover_survives (hround : ExactUpTo round (limit.limit + 1))
    (hwindow : limit.windowSeconds.1 ≤ RateLimit.sweepIdleSeconds + 1) :
    Survives round RateLimit.failoverIncrement bucket limit (FailoverEnforces round bucket limit)
      2 where
  toEnforces := RateLimit.failover_enforces hround hwindow
  start := RateLimit.failoverEnforces_empty round bucket limit 0
  bound h := h.inWindow_le
  forgets {ts now w} h := by
    rcases h with ⟨redisTimes, memoryTimes, counts, hsplit, hredis, hkeeps, hmemory⟩
    refine ⟨redisTimes, ⟨redisTimes, [], counts, fun k => Nat.le_add_right _ _, hredis, hkeeps,
      RateLimit.memoryEnforces_empty round bucket limit now⟩, fun k => ?_⟩
    have hk := hsplit k
    have hm := hmemory.inWindow_le k
    omega

end

/-! ## Runs of the server -/

section

variable {store : RateLimitStore} {limits : RateLimitConfig} {rt : RateLimit.Runtime}
  {router : Router} {cfg : AppConfig} {brt : Backend.Runtime} {bucket : String}
  {limit : WindowLimit} {Holds : List Int → Int → Stores → Prop} {c : Nat}
  {past : List (Server × Incoming)}

theorem letIn_singleton (s : Server) (i : Incoming) :
    letIn store limits rt bucket [(s, i)] = [] ∨
      letIn store limits rt bucket [(s, i)] = [arrivalTime (s, i)] := by
  cases i with
  | restart elapsed => exact .inl rfl
  | request elapsed req replies script =>
      by_cases hin : Counted limits rt bucket req.toRequest ∧
        (limited store limits rt s (.request elapsed req replies script)).1 = true
      · right
        simp [letIn, hin.1, hin.2]
      · left
        simp [letIn, hin]

theorem stopsIn_append (W k : Int) (s : Server) (i : Incoming) :
    stopsIn store limits rt router cfg brt W k (past ++ [(s, i)]) =
      stopsIn store limits rt router cfg brt W k past +
        if stops store limits rt router cfg brt s i ∧ arrivalTime (s, i) / W = k then 1 else 0 := by
  by_cases hstops : stops store limits rt router cfg brt s i
  · simp [stopsIn, List.countP_append, List.countP_cons, hstops]
  · simp [stopsIn, List.countP_append, hstops]

/-- What the limiter remembers of the requests that it has let in. -/
theorem holds_limited (henforces : Enforces rt.round store bucket limit Holds)
    (hgoverns : Governs limits rt bucket limit) (s : Server) (i : Incoming) {ts : List Int}
    (hholds : Holds ts (arrivalTime (s, i)) s.limiter) :
    Holds (ts ++ letIn store limits rt bucket [(s, i)]) (arrivalTime (s, i))
      (limited store limits rt s i).2 := by
  cases i with
  | restart elapsed =>
      change Holds (ts ++ []) _ s.limiter
      rw [List.append_nil]
      exact hholds
  | request elapsed req replies script =>
      have hserved := RateLimit.holds_serve henforces hgoverns
        ⟨req.toRequest, s.backend.clock + elapsed, replies⟩ hholds
      simp only [letIn, List.flatMap_cons, List.flatMap_nil, List.append_nil]
      exact hserved

/-- What the process remembers, since it started last, of what was let in. -/
def Remembers (store : RateLimitStore) (limits : RateLimitConfig) (rt : RateLimit.Runtime)
    (router : Router) (cfg : AppConfig) (brt : Backend.Runtime) (bucket : String)
    (limit : WindowLimit) (Holds : List Int → Int → Stores → Prop) (c : Nat)
    (past : List (Server × Incoming)) (s : Server) : Prop :=
  ∃ ts now, now ≤ (s.backend.clock : Int) ∧ Holds ts now s.limiter ∧
    Remembered limit.windowSeconds.1 limit.limit c (letIn store limits rt bucket past)
      (fun k => stopsIn store limits rt router cfg brt limit.windowSeconds.1 k past) ts now

/-- A request or a restart. -/
theorem Remembers.step (hsurvives : Survives rt.round store bucket limit Holds c)
    (hgoverns : Governs limits rt bucket limit) {s : Server}
    (h : Remembers store limits rt router cfg brt bucket limit Holds c past s) (i : Incoming) :
    Remembers store limits rt router cfg brt bucket limit Holds c (past ++ [(s, i)])
      (step store limits rt router cfg brt s i) := by
  rcases h with ⟨ts, now, hnow, hholds, hremembered⟩
  have hle : now ≤ arrivalTime (s, i) := by
    simp only [arrivalTime]
    omega
  have hkept := holds_limited hsurvives.toEnforces hgoverns s i (hsurvives.later hholds hle)
  have hnew : letIn store limits rt bucket [(s, i)] = [] ∨
      letIn store limits rt bucket [(s, i)] = [arrivalTime (s, i)] := letIn_singleton s i
  have harrived := hremembered.arrive limit.windowSeconds.2 hle hnew (hsurvives.bound hholds)
  have hclock : arrivalTime (s, i) ≤
      ((App.step store limits rt router cfg brt s i).backend.clock : Int) := by
    exact_mod_cast clock_le_backendAfter s i
  have htimes : letIn store limits rt bucket (past ++ [(s, i)]) =
      letIn store limits rt bucket past ++ letIn store limits rt bucket [(s, i)] :=
    List.flatMap_append
  by_cases hstops : stops store limits rt router cfg brt s i
  · rcases hsurvives.forgets hkept with ⟨ts', hkept', hforgets⟩
    have hrestarted := harrived.restart limit.windowSeconds.2 hforgets
    refine ⟨ts', arrivalTime (s, i), hclock, ?_, ?_⟩
    · simp only [App.step, if_pos hstops]
      exact hkept'
    · simp only [stopsIn_append, hstops, htimes, true_and]
      exact hrestarted
  · refine ⟨ts ++ letIn store limits rt bucket [(s, i)], arrivalTime (s, i), hclock, ?_, ?_⟩
    · simp only [App.step, if_neg hstops]
      exact hkept
    · simp only [stopsIn_append, hstops, htimes]
      exact harrived

/-- A store that enforces a limit bounds what is let in during a window, over all the lives of the
process. -/
theorem Survives.bounded (hsurvives : Survives rt.round store bucket limit Holds c)
    (hgoverns : Governs limits rt bucket limit) (run : List Incoming) (k : Int) :
    inWindow limit.windowSeconds.1 (letIn store limits rt bucket
      (history store limits rt router cfg brt run)) k ≤
        (c + stopsIn store limits rt router cfg brt limit.windowSeconds.1 k
          (history store limits rt router cfg brt run)) * limit.limit := by
  have hinit : Remembers store limits rt router cfg brt bucket limit Holds c [] Server.initial :=
    ⟨[], 0, le_rfl, hsurvives.start, remembered_nil _ _ _ 0⟩
  rcases Run.history_invariant hinit (fun past s i h => h.step hsurvives hgoverns i) run with
    ⟨ts, now, -, hholds, hremembered⟩
  exact hremembered.inWindow_le (hsurvives.bound hholds) k

end

/-- Whatever comes in, the requests of a bucket that come in during a window submit no more events
to the chain than the limit of the bucket, once more with a failover and once more for every stop of
the process in the window.  The bucket has one limit, whose window is not longer than the time after
which an idle entry is swept, and arithmetic is exact for the natural numbers up to it. -/
theorem submissions_limited (limits : RateLimitConfig) (rt : RateLimit.Runtime) (bucket : String)
    (limit : WindowLimit) (hround : ExactUpTo rt.round (limit.limit + 1))
    (hgoverns : Governs limits rt bucket limit)
    (hwindow : limit.windowSeconds.1 ≤ RateLimit.sweepIdleSeconds + 1) (router : Router)
    (cfg : AppConfig) (brt : Backend.Runtime) (run : List Incoming) (k : Int) :
    (eventsOf RateLimit.memoryIncrement limits rt router cfg brt bucket limit.windowSeconds.1 k
        (history RateLimit.memoryIncrement limits rt router cfg brt run)).length ≤
      (1 + stopsIn RateLimit.memoryIncrement limits rt router cfg brt limit.windowSeconds.1 k
        (history RateLimit.memoryIncrement limits rt router cfg brt run)) * limit.limit ∧
    (eventsOf RateLimit.failoverIncrement limits rt router cfg brt bucket limit.windowSeconds.1 k
        (history RateLimit.failoverIncrement limits rt router cfg brt run)).length ≤
      (2 + stopsIn RateLimit.failoverIncrement limits rt router cfg brt limit.windowSeconds.1 k
        (history RateLimit.failoverIncrement limits rt router cfg brt run)) * limit.limit := by
  constructor
  · exact (length_eventsOf_le bucket _ k _).trans
      ((memory_survives hround hwindow).bounded hgoverns run k)
  · exact (length_eventsOf_le bucket _ k _).trans
      ((failover_survives hround hwindow).bounded hgoverns run k)

/-- The route of one endpoint. -/
def retireRouter : Router := fun method path =>
  if method = "POST" ∧ path = "/credits/retire" then some .retire else none

/-- A request to retire ten units. -/
def retireIncoming (elapsed : Nat) : Incoming :=
  .request elapsed ⟨⟨"POST", "/credits/retire", "/credits/retire", some "a", none⟩, some "key",
    some (Backend.retireRequest "key" Backend.tenUnits).body⟩ [] (Backend.quiet 0)

/-- What the rate limiter reads of it. -/
def retireArrival : Arrival :=
  ⟨⟨"POST", "/credits/retire", "/credits/retire", some "a", none⟩, 0, []⟩

/-- The request is let in and submits its event. -/
theorem submitted_retire : submitted RateLimit.memoryIncrement RateLimit.rateLimitConfig
    RateLimit.plainRuntime retireRouter ⟨60⟩ Backend.plainRuntime
      (Server.initial, retireIncoming 0) = [Backend.retiredEvent Backend.plainRuntime] := by
  have hlimits : ∀ check ∈ RateLimit.rateLimitConfig.checks RateLimit.plainRuntime
      retireArrival.request, 1 ≤ check.limit.limit ∧ check.limit.limit + 1 < 2 ^ 53 := by
    decide
  have hexact : RateLimit.plainRuntime.ExactFor RateLimit.rateLimitConfig retireArrival.request :=
    fun check hcheck => exactUpTo_roundDouble (hlimits check hcheck).2
  have hleaves : RateLimit.Leaves RateLimit.rateLimitConfig RateLimit.plainRuntime
      retireArrival.request 1 0 Stores.empty.memory :=
    fun check hcheck => RateLimit.room_empty (hexact check hcheck) _ _ (hlimits check hcheck).1
  have hserved : (serve RateLimit.memoryIncrement RateLimit.rateLimitConfig RateLimit.plainRuntime
      Stores.empty retireArrival).1.admitted = true :=
    (hleaves.serve_same hexact ⟨rfl, rfl, rfl⟩).1
  have hadmitted : (limited RateLimit.memoryIncrement RateLimit.rateLimitConfig
      RateLimit.plainRuntime Server.initial (retireIncoming 0)).1 = true := hserved
  have hpassed : passed RateLimit.memoryIncrement RateLimit.rateLimitConfig RateLimit.plainRuntime
      retireRouter Server.initial (retireIncoming 0) =
        some (Backend.retireRequest "key" Backend.tenUnits, Backend.quiet 0) := by
    change (if (limited _ _ _ _ (retireIncoming 0)).1 then _ else _) = _
    rw [if_pos hadmitted]
    rfl
  have hafter : backendAfter RateLimit.memoryIncrement RateLimit.rateLimitConfig
      RateLimit.plainRuntime retireRouter ⟨60⟩ Backend.plainRuntime Server.initial
        (retireIncoming 0) = Backend.step ⟨60⟩ Backend.plainRuntime World.initial
          (.request (Backend.retireRequest "key" Backend.tenUnits) (Backend.quiet 0)) := by
    simp only [retireIncoming, backendAfter] at hpassed ⊢
    rw [hpassed]
    rfl
  have hevents := (Backend.retire_executes ⟨60⟩ Backend.plainRuntime).1.events
  rw [submitted, step, hafter, hevents]
  rfl

/-- Two requests with a restart between them. -/
def retireRun : List Incoming := [retireIncoming 0, .restart 1, retireIncoming 1]

/-- The first of them submits an event. -/
theorem submissions_limited_retire :
    0 < (eventsOf RateLimit.memoryIncrement RateLimit.rateLimitConfig RateLimit.plainRuntime
      retireRouter ⟨60⟩ Backend.plainRuntime "ip:a" 10 0 (history RateLimit.memoryIncrement
        RateLimit.rateLimitConfig RateLimit.plainRuntime retireRouter ⟨60⟩ Backend.plainRuntime
          retireRun)).length ∧
    ((eventsOf RateLimit.memoryIncrement RateLimit.rateLimitConfig RateLimit.plainRuntime
        retireRouter ⟨60⟩ Backend.plainRuntime "ip:a" 10 0 (history RateLimit.memoryIncrement
          RateLimit.rateLimitConfig RateLimit.plainRuntime retireRouter ⟨60⟩ Backend.plainRuntime
            retireRun)).length ≤
      (1 + stopsIn RateLimit.memoryIncrement RateLimit.rateLimitConfig RateLimit.plainRuntime
        retireRouter ⟨60⟩ Backend.plainRuntime 10 0 (history RateLimit.memoryIncrement
          RateLimit.rateLimitConfig RateLimit.plainRuntime retireRouter ⟨60⟩ Backend.plainRuntime
            retireRun)) * 20 ∧
    (eventsOf RateLimit.failoverIncrement RateLimit.rateLimitConfig RateLimit.plainRuntime
        retireRouter ⟨60⟩ Backend.plainRuntime "ip:a" 10 0 (history RateLimit.failoverIncrement
          RateLimit.rateLimitConfig RateLimit.plainRuntime retireRouter ⟨60⟩ Backend.plainRuntime
            retireRun)).length ≤
      (2 + stopsIn RateLimit.failoverIncrement RateLimit.rateLimitConfig RateLimit.plainRuntime
        retireRouter ⟨60⟩ Backend.plainRuntime 10 0 (history RateLimit.failoverIncrement
          RateLimit.rateLimitConfig RateLimit.plainRuntime retireRouter ⟨60⟩ Backend.plainRuntime
            retireRun)) * 20) := by
  have hcheck : (RateLimit.rateLimitConfig.ipCheck (RateLimit.visit "a" 0).request) ∈
      RateLimit.rateLimitConfig.checks RateLimit.plainRuntime (RateLimit.visit "a" 0).request := by
    simp [RateLimit.RateLimitConfig.checks]
  have hgoverns := RateLimit.governs_of_wellNamed RateLimit.wellNamed_rateLimitConfig hcheck
  refine ⟨?_, submissions_limited RateLimit.rateLimitConfig RateLimit.plainRuntime "ip:a"
    ⟨20, 10, RateLimit.ten_seconds_pos⟩ (exactUpTo_roundDouble (by decide)) hgoverns
    (by simp [RateLimit.sweepIdleSeconds]) retireRouter ⟨60⟩ Backend.plainRuntime retireRun 0⟩
  rw [history, retireRun, Run.trace_cons, eventsOf_cons, List.length_append]
  refine Nat.add_pos_left ?_ _
  have hcounted : CountedIn RateLimit.rateLimitConfig RateLimit.plainRuntime "ip:a" 10 0
      (Server.initial, retireIncoming 0) := by decide
  rw [if_pos hcounted, submitted_retire]
  exact Nat.one_pos

end App
end Kraal
