import Mathlib.Logic.Basic

/-!
# Programs that can be interrupted

A program works on a state and ends with a value, with an exception, or cut off in the
middle.  Unlike a call, it keeps what it has written when it fails.  What its surroundings do
while it runs (how much time passes, which operation fails) is a script that it reads entry by
entry, so that one program has one run for every script.

A program ensures a postcondition if it does so under every script with allowed entries.

Main results:

- Definition {lit}`Program.Ensures`: a postcondition of the exit and the final state.
- Theorem {lit}`Program.Ensures.bind`: the rule for a sequence of two programs.
- Theorem {lit}`Program.Ensures.attempt`: the rule for a handled exception.
- Definition {lit}`Program.EnsuresBroken`: a postcondition of the runs that break early.
- Definition {lit}`Program.Runs`: how a program ends when nothing is scripted.
-/

namespace Foundation

/-- How a program ends: with a value, with an exception, or cut off. -/
inductive Exit (ε α : Type) where
  | returned (a : α)
  | thrown (e : ε)
  | stopped
deriving DecidableEq, Repr

/-- The end of a pure fallible computation. -/
def Exit.ofExcept {ε α : Type} : Except ε α → Exit ε α
  | .ok a => .returned a
  | .error e => .thrown e

/-- A program with scripts over `ω`, state `σ`, exceptions `ε` and result `α`. -/
def Program (ω σ ε α : Type) : Type :=
  List ω → σ → Exit ε α × List ω × σ

namespace Program

variable {ω σ ε α β : Type}

instance : Monad (Program ω σ ε) where
  pure a := fun script s => (.returned a, script, s)
  bind x f := fun script s =>
    match x script s with
    | (.returned a, script', s') => f a script' s'
    | (.thrown e, script', s') => (.thrown e, script', s')
    | (.stopped, script', s') => (.stopped, script', s')

/-! ## Primitive programs -/

/-- Read the next entry of the script, if there is one. -/
def next : Program ω σ ε (Option ω)
  | [], s => (.returned none, [], s)
  | entry :: script, s => (.returned (some entry), script, s)

/-- Read the state. -/
def get : Program ω σ ε σ := fun script s => (.returned s, script, s)

/-- Replace the state. -/
def put (s : σ) : Program ω σ ε Unit := fun script _ => (.returned (), script, s)

/-- Throw an exception. -/
def throw (e : ε) : Program ω σ ε α := fun script s => (.thrown e, script, s)

/-- Stop without an answer. -/
def stop : Program ω σ ε α := fun script s => (.stopped, script, s)

/-- The value of a pure fallible computation, or its exception. -/
def ofExcept : Except ε α → Program ω σ ε α
  | .ok a => pure a
  | .error e => throw e

/-- Handle an exception, which leaves in place what the program has written. -/
def attempt (x : Program ω σ ε α) : Program ω σ ε (Except ε α) := fun script s =>
  match x script s with
  | (.returned a, script', s') => (.returned (.ok a), script', s')
  | (.thrown e, script', s') => (.returned (.error e), script', s')
  | (.stopped, script', s') => (.stopped, script', s')

/-- How a sequence runs. -/
theorem bind_apply (x : Program ω σ ε α) (f : α → Program ω σ ε β) (script : List ω) (s : σ) :
    (x >>= f) script s = match x script s with
      | (.returned a, script', s') => f a script' s'
      | (.thrown e, script', s') => (.thrown e, script', s')
      | (.stopped, script', s') => (.stopped, script', s') :=
  rfl

/-- A value that is returned is passed on. -/
theorem pure_bind (a : α) (f : α → Program ω σ ε β) : pure a >>= f = f a :=
  rfl

/-- Sequences are associative. -/
theorem bind_assoc {γ : Type} (x : Program ω σ ε α) (f : α → Program ω σ ε β)
    (g : β → Program ω σ ε γ) : x >>= f >>= g = x >>= fun a => f a >>= g := by
  funext script s
  simp only [bind_apply]
  rcases x script s with ⟨exit, script', s'⟩
  cases exit with
  | returned a => rfl
  | thrown e => rfl
  | stopped => rfl

/-- A sequence whose first program returns a value. -/
theorem bind_of_returned {x : Program ω σ ε α} {script script' : List ω} {s s' : σ} {a : α}
    (hx : x script s = (.returned a, script', s')) (f : α → Program ω σ ε β) :
    (x >>= f) script s = f a script' s' := by
  rw [bind_apply, hx]

/-- A sequence ends with its first program if that does not return. -/
theorem bind_of_not_returned {x : Program ω σ ε α} {script script' : List ω} {s s' : σ}
    {exit : Exit ε α} (hx : x script s = (exit, script', s')) (hexit : ∀ a, exit ≠ .returned a)
    (f : α → Program ω σ ε β) :
    ∃ exit', (x >>= f) script s = (exit', script', s') ∧ ∀ b, exit' ≠ .returned b := by
  rw [bind_apply, hx]
  cases exit with
  | returned a => exact absurd rfl (hexit a)
  | thrown e => exact ⟨.thrown e, rfl, fun _ h => by cases h⟩
  | stopped => exact ⟨.stopped, rfl, fun _ h => by cases h⟩

/-- A value that is computed at the end changes nothing. -/
theorem bind_pure_snd (x : Program ω σ ε α) (g : α → β) (script : List ω) (s : σ) :
    ((x >>= fun a => pure (g a)) script s).2 = (x script s).2 := by
  rw [bind_apply]
  rcases x script s with ⟨exit, script', s'⟩
  cases exit with
  | returned a => rfl
  | thrown e => rfl
  | stopped => rfl

/-! ## Postconditions -/

/-- Under every script with allowed entries, the program ends in a postcondition. -/
def Ensures (allowed : ω → Prop) (x : Program ω σ ε α) (s : σ) (Q : Exit ε α → σ → Prop) : Prop :=
  ∀ script, (∀ entry ∈ script, allowed entry) →
    (∀ entry ∈ (x script s).2.1, allowed entry) ∧ Q (x script s).1 (x script s).2.2

variable {allowed : ω → Prop} {s : σ}

/-- A postcondition may be weakened. -/
theorem Ensures.mono {x : Program ω σ ε α} {Q Q' : Exit ε α → σ → Prop}
    (h : Ensures allowed x s Q) (himp : ∀ exit s', Q exit s' → Q' exit s') :
    Ensures allowed x s Q' := by
  intro script hscript
  have hx := h script hscript
  exact ⟨hx.1, himp _ _ hx.2⟩

/-- Both of two postconditions. -/
theorem Ensures.and {x : Program ω σ ε α} {Q Q' : Exit ε α → σ → Prop}
    (h : Ensures allowed x s Q) (h' : Ensures allowed x s Q') :
    Ensures allowed x s fun exit s' => Q exit s' ∧ Q' exit s' := by
  intro script hscript
  exact ⟨(h script hscript).1, (h script hscript).2, (h' script hscript).2⟩

/-- The rule for a value that is returned. -/
theorem ensures_pure {a : α} {Q : Exit ε α → σ → Prop} (h : Q (.returned a) s) :
    Ensures allowed (pure a) s Q :=
  fun _ hscript => ⟨hscript, h⟩

/-- The rule for an exception. -/
theorem ensures_throw {e : ε} {Q : Exit ε α → σ → Prop} (h : Q (.thrown e) s) :
    Ensures allowed (throw e) s Q :=
  fun _ hscript => ⟨hscript, h⟩

/-- The rule for a stop. -/
theorem ensures_stop {Q : Exit ε α → σ → Prop} (h : Q .stopped s) :
    Ensures allowed (stop : Program ω σ ε α) s Q :=
  fun _ hscript => ⟨hscript, h⟩

/-- The rule for a result. -/
theorem ensures_ofExcept {r : Except ε α} {Q : Exit ε α → σ → Prop} (h : Q (.ofExcept r) s) :
    Ensures allowed (ofExcept r) s Q := by
  cases r with
  | ok a => exact ensures_pure h
  | error e => exact ensures_throw h

/-- The rule for reading the script. -/
theorem ensures_next {Q : Exit ε (Option ω) → σ → Prop} (hnone : Q (.returned none) s)
    (hsome : ∀ entry, allowed entry → Q (.returned (some entry)) s) :
    Ensures allowed next s Q := by
  intro script hscript
  cases script with
  | nil => exact ⟨hscript, hnone⟩
  | cons entry script =>
      have hrest : ∀ other ∈ script, allowed other :=
        fun other hother => hscript other (List.mem_cons_of_mem _ hother)
      exact ⟨hrest, hsome entry (hscript entry List.mem_cons_self)⟩

/-- The rule for a program that reads the state first. -/
theorem Ensures.bind_get {f : σ → Program ω σ ε β} {Q : Exit ε β → σ → Prop}
    (h : Ensures allowed (f s) s Q) : Ensures allowed (get >>= f) s Q :=
  h

/-- The rule for a program that writes the state first. -/
theorem Ensures.bind_put {t : σ} {f : Unit → Program ω σ ε β} {Q : Exit ε β → σ → Prop}
    (h : Ensures allowed (f ()) t Q) : Ensures allowed (put t >>= f) s Q :=
  h

/-- The rule for a sequence: what the first program ensures is where the second one starts, or
how the sequence ends. -/
theorem Ensures.bind {x : Program ω σ ε α} {f : α → Program ω σ ε β} {R : Exit ε α → σ → Prop}
    {Q : Exit ε β → σ → Prop} (hx : Ensures allowed x s R)
    (hreturned : ∀ a s', R (.returned a) s' → Ensures allowed (f a) s' Q)
    (hthrown : ∀ e s', R (.thrown e) s' → Q (.thrown e) s')
    (hstopped : ∀ s', R .stopped s' → Q .stopped s') : Ensures allowed (x >>= f) s Q := by
  intro script hscript
  have hrun := hx script hscript
  rw [bind_apply]
  rcases hend : x script s with ⟨exit, script', s'⟩
  rw [hend] at hrun
  cases exit with
  | returned a => exact hreturned a s' hrun.2 script' hrun.1
  | thrown e => exact ⟨hrun.1, hthrown e s' hrun.2⟩
  | stopped => exact ⟨hrun.1, hstopped s' hrun.2⟩

/-- The rule for a handled exception. -/
theorem Ensures.attempt {x : Program ω σ ε α} {R : Exit ε α → σ → Prop}
    {Q : Exit ε (Except ε α) → σ → Prop} (hx : Ensures allowed x s R)
    (hreturned : ∀ a s', R (.returned a) s' → Q (.returned (.ok a)) s')
    (hthrown : ∀ e s', R (.thrown e) s' → Q (.returned (.error e)) s')
    (hstopped : ∀ s', R .stopped s' → Q .stopped s') : Ensures allowed x.attempt s Q := by
  intro script hscript
  have hrun := hx script hscript
  unfold Program.attempt
  rcases hend : x script s with ⟨exit, script', s'⟩
  rw [hend] at hrun
  cases exit with
  | returned a => exact ⟨hrun.1, hreturned a s' hrun.2⟩
  | thrown e => exact ⟨hrun.1, hthrown e s' hrun.2⟩
  | stopped => exact ⟨hrun.1, hstopped s' hrun.2⟩

/-! ## Runs that break early -/

/-- Under every script with a broken entry among the first `n`, the program ends in a
postcondition. -/
def EnsuresBroken (broken : ω → Prop) (n : Nat) (x : Program ω σ ε α) (s : σ)
    (Q : Exit ε α → σ → Prop) : Prop :=
  ∀ script, (∃ entry ∈ script.take n, broken entry) → Q (x script s).1 (x script s).2.2

variable {broken : ω → Prop} {n : Nat}

/-- What a program ensures under every script it ensures under the broken ones. -/
theorem Ensures.ensuresBroken {x : Program ω σ ε α} {Q : Exit ε α → σ → Prop}
    (h : Ensures (fun _ => True) x s Q) : EnsuresBroken broken n x s Q :=
  fun script _ => (h script fun _ _ => trivial).2

/-- The rule for a program that reads the state first. -/
theorem EnsuresBroken.bind_get {f : σ → Program ω σ ε β} {Q : Exit ε β → σ → Prop}
    (h : EnsuresBroken broken n (f s) s Q) : EnsuresBroken broken n (get >>= f) s Q :=
  h

/-- The rule for a program that writes the state first. -/
theorem EnsuresBroken.bind_put {t : σ} {f : Unit → Program ω σ ε β} {Q : Exit ε β → σ → Prop}
    (h : EnsuresBroken broken n (f ()) t Q) : EnsuresBroken broken n (put t >>= f) s Q :=
  h

/-- The rule for a sequence whose first program breaks. -/
theorem EnsuresBroken.bind {x : Program ω σ ε α} {f : α → Program ω σ ε β}
    {R : Exit ε α → σ → Prop} {Q : Exit ε β → σ → Prop} (hx : EnsuresBroken broken n x s R)
    (hreturned : ∀ a s', R (.returned a) s' → Ensures (fun _ => True) (f a) s' Q)
    (hthrown : ∀ e s', R (.thrown e) s' → Q (.thrown e) s')
    (hstopped : ∀ s', R .stopped s' → Q .stopped s') : EnsuresBroken broken n (x >>= f) s Q := by
  intro script hscript
  have hrun := hx script hscript
  rw [bind_apply]
  rcases hend : x script s with ⟨exit, script', s'⟩
  rw [hend] at hrun
  cases exit with
  | returned a => exact (hreturned a s' hrun script' fun _ _ => trivial).2
  | thrown e => exact hthrown e s' hrun
  | stopped => exact hstopped s' hrun

/-- The rule for a handled exception of a program that breaks. -/
theorem EnsuresBroken.attempt {x : Program ω σ ε α} {R : Exit ε α → σ → Prop}
    {Q : Exit ε (Except ε α) → σ → Prop} (hx : EnsuresBroken broken n x s R)
    (hreturned : ∀ a s', R (.returned a) s' → Q (.returned (.ok a)) s')
    (hthrown : ∀ e s', R (.thrown e) s' → Q (.returned (.error e)) s')
    (hstopped : ∀ s', R .stopped s' → Q .stopped s') : EnsuresBroken broken n x.attempt s Q := by
  intro script hscript
  have hrun := hx script hscript
  unfold Program.attempt
  rcases hend : x script s with ⟨exit, script', s'⟩
  rw [hend] at hrun
  cases exit with
  | returned a => exact hreturned a s' hrun
  | thrown e => exact hthrown e s' hrun
  | stopped => exact hstopped s' hrun

/-! ## Undisturbed runs -/

/-- Without a script, the program ends in the given way. -/
def Runs (x : Program ω σ ε α) (s : σ) (exit : Exit ε α) (s' : σ) : Prop :=
  x [] s = (exit, [], s')

/-- A value is returned. -/
theorem runs_pure (a : α) (s : σ) : (pure a : Program ω σ ε α).Runs s (.returned a) s :=
  rfl

/-- A sequence whose first program returns a value. -/
theorem Runs.bind {x : Program ω σ ε α} {f : α → Program ω σ ε β} {a : α} {s s' s'' : σ}
    {exit : Exit ε β} (hx : x.Runs s (.returned a) s') (hf : (f a).Runs s' exit s'') :
    (x >>= f).Runs s exit s'' := by
  unfold Runs at hx
  unfold Runs
  rw [bind_apply, hx]
  exact hf

/-- A sequence whose first program throws an exception. -/
theorem Runs.bind_thrown {x : Program ω σ ε α} {e : ε} {s s' : σ}
    (hx : x.Runs s (.thrown e) s') (f : α → Program ω σ ε β) :
    (x >>= f).Runs s (.thrown e) s' := by
  unfold Runs at hx
  unfold Runs
  rw [bind_apply, hx]

/-- A value is handed on by the handler. -/
theorem Runs.attempt_returned {x : Program ω σ ε α} {a : α} {s s' : σ}
    (hx : x.Runs s (.returned a) s') : x.attempt.Runs s (.returned (.ok a)) s' := by
  unfold Runs at hx
  unfold Runs attempt
  rw [hx]

/-- An exception is handed on by the handler. -/
theorem Runs.attempt_thrown {x : Program ω σ ε α} {e : ε} {s s' : σ}
    (hx : x.Runs s (.thrown e) s') : x.attempt.Runs s (.returned (.error e)) s' := by
  unfold Runs at hx
  unfold Runs attempt
  rw [hx]

end Program

end Foundation
