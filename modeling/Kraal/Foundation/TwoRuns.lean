import Kraal.Foundation.Program
import Kraal.Foundation.Run

/-!
# Two runs side by side

Two programs agree if they end alike under every script and leave related states.  A machine whose
steps give outputs is run twice, the second time on a part of the inputs.  If the inputs of the
part give the same outputs in related states and the others keep the states related, then the
part of the outputs is the outputs of the part.

Main results:

- Definition {lit}`Program.Agrees`: two programs end alike and leave related states.
- Theorems {lit}`Program.Agrees.bind` and {lit}`Program.Agrees.attempt`: the rules for a sequence
  and for a handled exception.
- Theorem {lit}`Run.filter_outputs`: the outputs of a part of a run.
-/

namespace Foundation

/-! ## Programs that agree -/

namespace Program

variable {ω σ ε α β : Type}

/-- Under every script, the programs end alike and leave as much of it, in related states. -/
def Agrees (x x' : Program ω σ ε α) (s s' : σ) (R : σ → σ → Prop) : Prop :=
  ∀ script, (x script s).1 = (x' script s').1 ∧ (x script s).2.1 = (x' script s').2.1 ∧
    R (x script s).2.2 (x' script s').2.2

variable {x x' : Program ω σ ε α} {s s' t t' : σ} {R Q : σ → σ → Prop}

/-- Returning a value agrees with itself. -/
theorem agrees_pure (a : α) (h : R s s') :
    Agrees (pure a : Program ω σ ε α) (pure a) s s' R :=
  fun _ => ⟨rfl, rfl, h⟩

/-- An exception agrees with itself. -/
theorem agrees_throw (e : ε) (h : R s s') :
    Agrees (throw e : Program ω σ ε α) (throw e) s s' R :=
  fun _ => ⟨rfl, rfl, h⟩

/-- Reading the script agrees with itself. -/
theorem agrees_next (h : R s s') :
    Agrees (next : Program ω σ ε (Option ω)) next s s' R := by
  intro script
  cases script with
  | nil => exact ⟨rfl, rfl, h⟩
  | cons entry script => exact ⟨rfl, rfl, h⟩

/-- The rule for programs that read their states first. -/
theorem Agrees.bind_get {f f' : σ → Program ω σ ε β} (h : Agrees (f s) (f' s') s s' R) :
    Agrees (get >>= f) (get >>= f') s s' R :=
  h

/-- The rule for programs that write their states first. -/
theorem Agrees.bind_put {f f' : Unit → Program ω σ ε β} (h : Agrees (f ()) (f' ()) t t' R) :
    Agrees (put t >>= f) (put t' >>= f') s s' R :=
  h

/-- The rule for a sequence: what the first programs leave related is where the second ones start,
or how the sequences end. -/
theorem Agrees.bind {f f' : α → Program ω σ ε β} (hx : Agrees x x' s s' R)
    (hreturned : ∀ a t t', R t t' → Agrees (f a) (f' a) t t' Q)
    (hfailed : ∀ t t', R t t' → Q t t') : Agrees (x >>= f) (x' >>= f') s s' Q := by
  intro script
  have hrun := hx script
  rw [bind_apply, bind_apply]
  rcases hend : x script s with ⟨exit, rest, t⟩
  rcases hend' : x' script s' with ⟨exit', rest', t'⟩
  rw [hend, hend'] at hrun
  rcases hrun with ⟨hexit, hrest, hrelated⟩
  cases hexit
  cases hrest
  cases exit with
  | returned a => exact hreturned a t t' hrelated rest
  | thrown e => exact ⟨rfl, rfl, hfailed t t' hrelated⟩
  | stopped => exact ⟨rfl, rfl, hfailed t t' hrelated⟩

/-- The rule for a handled exception. -/
theorem Agrees.attempt (hx : Agrees x x' s s' R) : Agrees x.attempt x'.attempt s s' R := by
  intro script
  have hrun := hx script
  unfold Program.attempt
  rcases hend : x script s with ⟨exit, rest, t⟩
  rcases hend' : x' script s' with ⟨exit', rest', t'⟩
  rw [hend, hend'] at hrun
  rcases hrun with ⟨hexit, hrest, hrelated⟩
  cases hexit
  cases hrest
  cases exit with
  | returned a => exact ⟨rfl, rfl, hrelated⟩
  | thrown e => exact ⟨rfl, rfl, hrelated⟩
  | stopped => exact ⟨rfl, rfl, hrelated⟩

/-- What else each of the programs ensures, one after the other. -/
theorem Agrees.and {P : σ → σ → Prop} (h : Agrees x x' s s' R)
    (hleft : Ensures (fun _ => True) x s fun _ t => P t s')
    (hright : ∀ t, P t s' → Ensures (fun _ => True) x' s' fun _ t' => P t t') :
    Agrees x x' s s' fun t t' => R t t' ∧ P t t' := by
  intro script
  have hfirst := (hleft script fun _ _ => trivial).2
  have hsecond := (hright _ hfirst script fun _ _ => trivial).2
  exact ⟨(h script).1, (h script).2.1, (h script).2.2, hsecond⟩

end Program

/-! ## Machines with outputs -/

namespace Run

variable {σ ι o : Type} {serve : σ → ι → o × σ}

/-- The outputs of a run, each with its input. -/
def outputs (serve : σ → ι → o × σ) (s : σ) (inputs : List ι) : List (ι × o) :=
  (trace (fun s i => (serve s i).2) s inputs).map fun e => (e.2, (serve e.1 e.2).1)

/-- Without inputs there are no outputs. -/
@[simp]
theorem outputs_nil (s : σ) : outputs serve s [] = [] :=
  rfl

/-- The outputs of an input and of the rest. -/
@[simp]
theorem outputs_cons (s : σ) (i : ι) (inputs : List ι) :
    outputs serve s (i :: inputs) =
      (i, (serve s i).1) :: outputs serve (serve s i).2 inputs :=
  rfl

/-- The outputs of a part of a run are those of the part alone, if the states of the two runs stay
related while time passes, the part does the same in both, and the rest leaves them related. -/
theorem filter_outputs {R : Int → σ → σ → Prop} {time : ι → Int} {mine : ι → Bool}
    {inputs : List ι} {start : Int} {s s' : σ}
    (hlater : ∀ {t t' s s'}, R t s s' → t ≤ t' → R t' s s')
    (hmine : ∀ i ∈ inputs, mine i = true → ∀ {s s'}, R (time i) s s' →
      (serve s i).1 = (serve s' i).1 ∧ R (time i) (serve s i).2 (serve s' i).2)
    (hother : ∀ i ∈ inputs, mine i = false → ∀ {s s'}, R (time i) s s' →
      R (time i) (serve s i).2 s')
    (hsorted : inputs.Pairwise fun i j => time i ≤ time j) (hafter : ∀ i ∈ inputs, start ≤ time i)
    (hstart : R start s s') :
    (outputs serve s inputs).filter (fun e => mine e.1) =
      outputs serve s' (inputs.filter mine) := by
  induction inputs generalizing start s s' with
  | nil => rfl
  | cons i inputs ih =>
      rw [List.pairwise_cons] at hsorted
      have hnow := hlater hstart (hafter i List.mem_cons_self)
      have hrest : ∀ {s s'}, R (time i) s s' →
          (outputs serve s inputs).filter (fun e => mine e.1) =
            outputs serve s' (inputs.filter mine) :=
        fun h => ih (fun j hj => hmine j (List.mem_cons_of_mem _ hj))
          (fun j hj => hother j (List.mem_cons_of_mem _ hj)) hsorted.2 hsorted.1 h
      rw [outputs_cons]
      cases hi : mine i with
      | true =>
          have hsame := hmine i List.mem_cons_self hi hnow
          rw [List.filter_cons_of_pos (by simpa using hi), List.filter_cons_of_pos hi,
            outputs_cons, hrest hsame.2, hsame.1]
      | false =>
          have hkept := hother i List.mem_cons_self hi hnow
          rw [List.filter_cons_of_neg (by simp [hi]), List.filter_cons_of_neg (by simp [hi]),
            hrest hkept]

end Run

end Foundation
