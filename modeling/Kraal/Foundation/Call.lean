import Mathlib.Logic.Basic

/-!
# Transactional calls

A call reads an environment, works on a state and either returns a value with a
new state or fails.  A failing call has no resulting state: committing it leaves
the old state in place, so whatever it had written is rolled back.  A failure is
either an error the callee returns or a trap of its host.

Main results:

- Theorem {lit}`Call.bind_eq_ok`: a sequence of two calls returns exactly when
  the first returns and the second returns from the state it left.
- Theorem {lit}`Call.bind_eq_error`: a sequence fails exactly when its first
  call fails, or its second call fails after the first has returned.
- Theorem {lit}`Call.lift_eq_ok`: a call on a part of the state returns exactly when
  it returns on that part alone.
- Theorems {lit}`Call.commit_of_ok` and {lit}`Call.commit_of_error`: the state
  that a committed call leaves, and rollback.
- Theorem {lit}`mapM_perm`: what succeeds on every item of a list does so in any
  order.
-/

namespace Foundation

/-- How a call fails: with an error of its own, or by a trap of the host. -/
inductive Fault (ε : Type) where
  | error (e : ε)
  | trap
deriving DecidableEq, Repr

/-- A call with environment `ρ`, state `σ`, errors `ε` and result `α`. -/
def Call (ρ σ ε α : Type) : Type :=
  ρ → σ → Except (Fault ε) (α × σ)

namespace Call

variable {ρ σ ε α β : Type}

instance : Monad (Call ρ σ ε) where
  pure a := fun _ s => .ok (a, s)
  bind x f := fun r s =>
    match x r s with
    | .ok (a, s') => f a r s'
    | .error e => .error e

/-! ## Primitive calls -/

/-- Read the environment. -/
def ask : Call ρ σ ε ρ := fun r s => .ok (r, s)

/-- Read the state. -/
def get : Call ρ σ ε σ := fun _ s => .ok (s, s)

/-- Replace the state. -/
def put (s : σ) : Call ρ σ ε Unit := fun _ _ => .ok ((), s)

/-- Update the state. -/
def modify (f : σ → σ) : Call ρ σ ε Unit := fun _ s => .ok ((), f s)

/-- Return an error. -/
def fail (e : ε) : Call ρ σ ε α := fun _ _ => .error (.error e)

/-- Return an error if a condition holds. -/
def failIf (c : Prop) [Decidable c] (e : ε) : Call ρ σ ε Unit :=
  if c then fail e else pure ()

/-- Trap unless a condition holds. -/
def assert (c : Prop) [Decidable c] : Call ρ σ ε Unit :=
  fun _ s => if c then .ok ((), s) else .error .trap

/-- The value of an option, or an error if there is none. -/
def okOr (o : Option α) (e : ε) : Call ρ σ ε α :=
  match o with
  | some a => pure a
  | none => fail e

/-- The value of an option, or a trap if there is none. -/
def okOrTrap (o : Option α) : Call ρ σ ε α :=
  fun _ s => match o with
    | some a => .ok (a, s)
    | none => .error .trap

/-- The outcome of a pure fallible computation. -/
def ofExcept (x : Except ε α) : Call ρ σ ε α :=
  match x with
  | .ok a => pure a
  | .error e => fail e

/-! ## When a call returns -/

/-- A value is returned, and the state is kept. -/
@[simp]
theorem pure_eq_ok {a : α} {r : ρ} {s : σ} {p : α × σ} :
    (pure a : Call ρ σ ε α) r s = .ok p ↔ p = (a, s) := by
  change Except.ok (a, s) = .ok p ↔ _
  rw [Except.ok.injEq, eq_comm]

/-- A sequence of two calls returns exactly when both return. -/
@[simp]
theorem bind_eq_ok {x : Call ρ σ ε α} {f : α → Call ρ σ ε β} {r : ρ} {s : σ} {p : β × σ} :
    (x >>= f) r s = .ok p ↔ ∃ a s', x r s = .ok (a, s') ∧ f a r s' = .ok p := by
  change (match x r s with
    | .ok (a, s') => f a r s'
    | .error e => .error e) = .ok p ↔ _
  cases hx : x r s with
  | error e => simp
  | ok q =>
      obtain ⟨a, s'⟩ := q
      simp [and_assoc]

/-- The environment is returned, and the state is kept. -/
@[simp]
theorem ask_eq_ok {r : ρ} {s : σ} {p : ρ × σ} :
    (ask : Call ρ σ ε ρ) r s = .ok p ↔ p = (r, s) := by
  rw [ask, Except.ok.injEq, eq_comm]

/-- The state is returned, and kept. -/
@[simp]
theorem get_eq_ok {r : ρ} {s : σ} {p : σ × σ} :
    (get : Call ρ σ ε σ) r s = .ok p ↔ p = (s, s) := by
  rw [get, Except.ok.injEq, eq_comm]

/-- The state that is put is left. -/
@[simp]
theorem put_eq_ok {r : ρ} {s t : σ} {p : Unit × σ} :
    (put t : Call ρ σ ε Unit) r s = .ok p ↔ p = ((), t) := by
  rw [put, Except.ok.injEq, eq_comm]

/-- The state is left that the function makes of it. -/
@[simp]
theorem modify_eq_ok {f : σ → σ} {r : ρ} {s : σ} {p : Unit × σ} :
    (modify f : Call ρ σ ε Unit) r s = .ok p ↔ p = ((), f s) := by
  rw [modify, Except.ok.injEq, eq_comm]

/-- A failure does not return. -/
@[simp]
theorem fail_eq_ok {e : ε} {r : ρ} {s : σ} {p : α × σ} :
    (fail e : Call ρ σ ε α) r s = .ok p ↔ False := by
  simp [fail]

/-- A check returns when its condition does not hold. -/
@[simp]
theorem failIf_eq_ok {c : Prop} [Decidable c] {e : ε} {r : ρ} {s : σ} {p : Unit × σ} :
    (failIf c e : Call ρ σ ε Unit) r s = .ok p ↔ ¬c ∧ p = ((), s) := by
  unfold failIf
  split <;> simp [*]

/-- An assertion returns when its condition holds. -/
@[simp]
theorem assert_eq_ok {c : Prop} [Decidable c] {r : ρ} {s : σ} {p : Unit × σ} :
    (assert c : Call ρ σ ε Unit) r s = .ok p ↔ c ∧ p = ((), s) := by
  unfold assert
  split <;> simp [*, eq_comm]

/-- A value that is there is returned. -/
@[simp]
theorem okOr_eq_ok {o : Option α} {e : ε} {r : ρ} {s : σ} {p : α × σ} :
    (okOr o e : Call ρ σ ε α) r s = .ok p ↔ o = some p.1 ∧ p.2 = s := by
  obtain ⟨a, t⟩ := p
  cases o <;> simp [okOr, eq_comm (a := a)]

/-- A value that is there is returned. -/
@[simp]
theorem okOrTrap_eq_ok {o : Option α} {r : ρ} {s : σ} {p : α × σ} :
    (okOrTrap o : Call ρ σ ε α) r s = .ok p ↔ o = some p.1 ∧ p.2 = s := by
  obtain ⟨a, t⟩ := p
  cases o <;> simp [okOrTrap, eq_comm]

/-- A result is returned if it is one. -/
@[simp]
theorem ofExcept_eq_ok {x : Except ε α} {r : ρ} {s : σ} {p : α × σ} :
    (ofExcept x : Call ρ σ ε α) r s = .ok p ↔ x = .ok p.1 ∧ p.2 = s := by
  obtain ⟨a, t⟩ := p
  cases x <;> simp [ofExcept, eq_comm (a := a)]

/-- A conditional call returns exactly when the chosen branch does. -/
theorem ite_eq_ok {c : Prop} [Decidable c] {x y : Call ρ σ ε α} {r : ρ} {s : σ} {p : α × σ} :
    (if c then x else y) r s = .ok p ↔ c ∧ x r s = .ok p ∨ ¬c ∧ y r s = .ok p := by
  by_cases h : c <;> simp [h]

/-! ## When a call fails -/

/-- Returning a value does not fail. -/
@[simp]
theorem pure_eq_error {a : α} {r : ρ} {s : σ} {f : Fault ε} :
    (pure a : Call ρ σ ε α) r s = .error f ↔ False := by
  change Except.ok (a, s) = .error f ↔ _
  simp

/-- Reading the environment does not fail. -/
@[simp]
theorem ask_eq_error {r : ρ} {s : σ} {f : Fault ε} :
    (ask : Call ρ σ ε ρ) r s = .error f ↔ False := by
  simp [ask]

/-- Reading the state does not fail. -/
@[simp]
theorem get_eq_error {r : ρ} {s : σ} {f : Fault ε} :
    (get : Call ρ σ ε σ) r s = .error f ↔ False := by
  simp [get]

/-- An update does not fail. -/
@[simp]
theorem modify_eq_error {g : σ → σ} {r : ρ} {s : σ} {f : Fault ε} :
    (modify g : Call ρ σ ε Unit) r s = .error f ↔ False := by
  simp [modify]

/-- A check fails with its error when its condition holds. -/
@[simp]
theorem failIf_eq_error {c : Prop} [Decidable c] {e : ε} {r : ρ} {s : σ} {f : Fault ε} :
    (failIf c e : Call ρ σ ε Unit) r s = .error f ↔ c ∧ f = .error e := by
  unfold failIf
  split
  · simp [fail, eq_comm, *]
  · simp [*]

/-- An assertion traps when its condition does not hold. -/
@[simp]
theorem assert_eq_error {c : Prop} [Decidable c] {r : ρ} {s : σ} {f : Fault ε} :
    (assert c : Call ρ σ ε Unit) r s = .error f ↔ ¬c ∧ f = .trap := by
  unfold assert
  split <;> simp [*, eq_comm]

/-- A value that is missing is an error. -/
@[simp]
theorem okOr_eq_error {o : Option α} {e : ε} {r : ρ} {s : σ} {f : Fault ε} :
    (okOr o e : Call ρ σ ε α) r s = .error f ↔ o = none ∧ f = .error e := by
  cases o <;> simp [okOr, fail, eq_comm]

/-- A value that is missing is a trap. -/
@[simp]
theorem okOrTrap_eq_error {o : Option α} {r : ρ} {s : σ} {f : Fault ε} :
    (okOrTrap o : Call ρ σ ε α) r s = .error f ↔ o = none ∧ f = .trap := by
  cases o <;> simp [okOrTrap, eq_comm]

/-- A sequence fails exactly in its first call, or in its second after the first. -/
theorem bind_eq_error {x : Call ρ σ ε α} {f : α → Call ρ σ ε β} {r : ρ} {s : σ} {e : Fault ε} :
    (x >>= f) r s = .error e ↔
      x r s = .error e ∨ ∃ a s', x r s = .ok (a, s') ∧ f a r s' = .error e := by
  change (match x r s with
    | .ok (a, s') => f a r s'
    | .error e => .error e) = .error e ↔ _
  cases hx : x r s with
  | error e => simp
  | ok q =>
      obtain ⟨a, s'⟩ := q
      simp [and_assoc]

/-- A sequence goes on where its first call returns. -/
theorem bind_of_ok {x : Call ρ σ ε α} {f : α → Call ρ σ ε β} {r : ρ} {s s' : σ} {a : α}
    (h : x r s = .ok (a, s')) : (x >>= f) r s = f a r s' := by
  change (match x r s with
    | .ok (a, s') => f a r s'
    | .error e => .error e) = _
  rw [h]

/-- A sequence fails with its first call. -/
theorem bind_of_error {x : Call ρ σ ε α} {f : α → Call ρ σ ε β} {r : ρ} {s : σ} {e : Fault ε}
    (h : x r s = .error e) : (x >>= f) r s = .error e :=
  bind_eq_error.mpr (.inl h)

/-! ## Calls on a part of the state -/

variable {τ ε' : Type}

/-- Run a call on a part of the state and translate its errors. -/
def lift (read : σ → τ) (write : σ → τ → σ) (wrap : ε → ε') (c : Call ρ τ ε α) :
    Call ρ σ ε' α := fun r s =>
  match c r (read s) with
  | .ok (a, t) => .ok (a, write s t)
  | .error (.error e) => .error (.error (wrap e))
  | .error .trap => .error .trap

/-- A call on a part of the state returns when it does so there. -/
@[simp]
theorem lift_eq_ok {read : σ → τ} {write : σ → τ → σ} {wrap : ε → ε'} {c : Call ρ τ ε α} {r : ρ}
    {s : σ} {p : α × σ} :
    c.lift read write wrap r s = .ok p ↔
      ∃ t, c r (read s) = .ok (p.1, t) ∧ p.2 = write s t := by
  unfold lift
  rcases p with ⟨a, s'⟩
  cases h : c r (read s) with
  | error f => cases f <;> simp
  | ok q =>
      rcases q with ⟨a', t⟩
      simp [eq_comm, and_assoc]

/-! ## Committing a call -/

/-- The state after a call is committed: the new state, or the old one if it failed. -/
def commit (c : Call ρ σ ε α) (r : ρ) (s : σ) : σ :=
  match c r s with
  | .ok (_, s') => s'
  | .error _ => s

/-- A call succeeds if it returns a value. -/
def Succeeds (c : Call ρ σ ε α) (r : ρ) (s : σ) : Prop :=
  ∃ p, c r s = .ok p

instance (c : Call ρ σ ε α) (r : ρ) (s : σ) : Decidable (c.Succeeds r s) :=
  match h : c r s with
  | .ok p => .isTrue ⟨p, h⟩
  | .error _ => .isFalse (by rintro ⟨p, hp⟩; rw [h] at hp; cases hp)

/-- A call that succeeds does not fail. -/
theorem Succeeds.ne_error {c : Call ρ σ ε α} {r : ρ} {s : σ} (h : c.Succeeds r s) {e : Fault ε} :
    c r s ≠ .error e := by
  rcases h with ⟨p, hp⟩
  rw [hp]
  intro hfail
  cases hfail

/-- A call that returns commits the state that it leaves. -/
theorem commit_of_ok {c : Call ρ σ ε α} {r : ρ} {s s' : σ} {a : α}
    (h : c r s = .ok (a, s')) : c.commit r s = s' := by
  rw [commit, h]

/-- A call that fails commits nothing. -/
theorem commit_of_error {c : Call ρ σ ε α} {r : ρ} {s : σ} {e : Fault ε}
    (h : c r s = .error e) : c.commit r s = s := by
  rw [commit, h]

/-- A failing call is rolled back. -/
theorem commit_of_not_succeeds {c : Call ρ σ ε α} {r : ρ} {s : σ} (h : ¬ c.Succeeds r s) :
    c.commit r s = s := by
  cases hc : c r s with
  | ok p => exact absurd ⟨p, hc⟩ h
  | error e => exact commit_of_error hc

/-- What holds of the old state and of every state the call can return with holds
of the committed state. -/
theorem commit_induction {P : σ → Prop} {c : Call ρ σ ε α} {r : ρ} {s : σ} (hold : P s)
    (hok : ∀ a s', c r s = .ok (a, s') → P s') : P (c.commit r s) := by
  cases hc : c r s with
  | ok p =>
      obtain ⟨a, s'⟩ := p
      rw [commit_of_ok hc]
      exact hok a s' hc
  | error e =>
      rw [commit_of_error hc]
      exact hold

end Call

/-! ## Sequences that may fail -/

/-- A sequence returns exactly when both of its parts do. -/
theorem exceptBind_eq_ok {ε β γ : Type} {x : Except ε β} {f : β → Except ε γ} {c : γ} :
    (x >>= f) = .ok c ↔ ∃ b, x = .ok b ∧ f b = .ok c := by
  cases x with
  | error exc =>
      constructor
      · intro h
        cases h
      · intro h
        rcases h with ⟨b, hb, -⟩
        cases hb
  | ok b =>
      constructor
      · intro h
        exact ⟨b, rfl, h⟩
      · intro h
        rcases h with ⟨b', hb, h⟩
        cases hb
        exact h

/-- Two results, one after the other. -/
theorem exceptBind_of_ok {ε β γ : Type} {x : Except ε β} {f : β → Except ε γ} {b : β} {c : γ}
    (hx : x = .ok b) (hf : f b = .ok c) : (x >>= f) = .ok c :=
  exceptBind_eq_ok.mpr ⟨b, hx, hf⟩

/-- A list is mapped when its head and its tail are. -/
theorem mapM_cons_eq_ok {ε β γ : Type} {f : β → Except ε γ} {x : β} {xs : List β} {ys : List γ} :
    (x :: xs).mapM f = .ok ys ↔
      ∃ y ys', f x = .ok y ∧ xs.mapM f = .ok ys' ∧ ys = y :: ys' := by
  rw [List.mapM_cons]
  simp only [exceptBind_eq_ok]
  constructor
  · intro h
    rcases h with ⟨y, hy, ys', hys', hreturn⟩
    exact ⟨y, ys', hy, hys', (Except.ok.inj hreturn).symm⟩
  · intro h
    rcases h with ⟨y, ys', hy, hys', rfl⟩
    exact ⟨y, hy, ys', hys', rfl⟩

/-- A function that succeeds on every item succeeds on them in any order. -/
theorem mapM_perm {ε β γ : Type} {f : β → Except ε γ} {xs xs' : List β} {ys : List γ}
    (hperm : xs.Perm xs') (h : xs.mapM f = .ok ys) :
    ∃ ys', xs'.mapM f = .ok ys' ∧ ys.Perm ys' := by
  induction hperm generalizing ys with
  | nil => exact ⟨ys, h, .refl ys⟩
  | cons x _ ih =>
      rcases mapM_cons_eq_ok.mp h with ⟨y, rest, hy, hrest, rfl⟩
      rcases ih hrest with ⟨rest', hrest', hys⟩
      exact ⟨y :: rest', mapM_cons_eq_ok.mpr ⟨y, rest', hy, hrest', rfl⟩, hys.cons y⟩
  | swap x x' xs =>
      rcases mapM_cons_eq_ok.mp h with ⟨y, ys₁, hy, h₁, rfl⟩
      rcases mapM_cons_eq_ok.mp h₁ with ⟨y', ys₂, hy', h₂, rfl⟩
      have hinner := mapM_cons_eq_ok.mpr ⟨y, ys₂, hy, h₂, rfl⟩
      exact ⟨y' :: y :: ys₂, mapM_cons_eq_ok.mpr ⟨y', _, hy', hinner, rfl⟩, .swap y' y ys₂⟩
  | trans _ _ ih ih' =>
      rcases ih h with ⟨ys₁, h₁, hperm₁⟩
      rcases ih' h₁ with ⟨ys₂, h₂, hperm₂⟩
      exact ⟨ys₂, h₂, hperm₁.trans hperm₂⟩

end Foundation
