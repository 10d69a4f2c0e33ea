import Mathlib.Algebra.Order.BigOperators.Group.List
import Mathlib.Algebra.Order.Group.Int
import Mathlib.Tactic.Ring

/-!
# Ledgers of fungible assets

The general bookkeeping behind a token contract, over any types of holders and
assets: balances, a live supply and a retired supply for each asset, in exact
integers.  Four movements change them: minting, burning, transferring and
retiring.  Nothing here is checked; the guards belong to the program that moves
the amounts.

Main results:

- Theorems {lit}`Ledger.outstanding_mint`, {lit}`Ledger.outstanding_burn`,
  {lit}`Ledger.outstanding_transfer` and {lit}`Ledger.outstanding_retire`: the
  live and retired supply together change only by minting and burning.
- Theorem {lit}`Ledger.mint_burn_eq_transfer`: burning from one holder and minting
  to another is a transfer between them.
- Theorem {lit}`Ledger.transfer_self`: a transfer to oneself changes nothing.
- Theorem {lit}`Ledger.outstanding_foldl`: what exists of an asset after a run of
  movements.
- Theorems {lit}`Ledger.balance_foldl` and {lit}`Ledger.retired_foldl`: a balance and the
  retired supply after a run of movements.
- Theorem {lit}`Ledger.exists_debtor`: who a run of movements has taken from.
- Theorem {lit}`Ledger.exists_mint`: what has raised a supply.
-/

namespace Foundation

/-- Balances and supplies of the assets `A` among the holders `H`. -/
@[ext]
structure Ledger (H A : Type) where
  balance : H → A → Int
  supply : A → Int
  retired : A → Int

namespace Ledger

variable {H A : Type} [DecidableEq H] [DecidableEq A]

/-- The amount that a movement of `n` of asset `a` at holder `h` means for one row. -/
def amountFor (h : H) (a : A) (n : Int) (h' : H) (a' : A) : Int :=
  if h' = h ∧ a' = a then n else 0

/-- The amount that a movement of `n` of asset `a` means for the supply of one asset. -/
def amountOf (a : A) (n : Int) (a' : A) : Int :=
  if a' = a then n else 0

/-- The ledger on which nothing exists. -/
def zero : Ledger H A where
  balance _ _ := 0
  supply _ := 0
  retired _ := 0

/-- Create an amount of an asset at a holder. -/
def mint (L : Ledger H A) (h : H) (a : A) (n : Int) : Ledger H A where
  balance h' a' := L.balance h' a' + amountFor h a n h' a'
  supply a' := L.supply a' + amountOf a n a'
  retired := L.retired

/-- Destroy an amount of an asset at a holder. -/
def burn (L : Ledger H A) (h : H) (a : A) (n : Int) : Ledger H A where
  balance h' a' := L.balance h' a' - amountFor h a n h' a'
  supply a' := L.supply a' - amountOf a n a'
  retired := L.retired

/-- Move an amount of an asset from one holder to another. -/
def transfer (L : Ledger H A) (sender recipient : H) (a : A) (n : Int) : Ledger H A where
  balance h' a' := L.balance h' a' - amountFor sender a n h' a' + amountFor recipient a n h' a'
  supply := L.supply
  retired := L.retired

/-- Move an amount of an asset from a holder to the retired supply. -/
def retire (L : Ledger H A) (h : H) (a : A) (n : Int) : Ledger H A where
  balance h' a' := L.balance h' a' - amountFor h a n h' a'
  supply a' := L.supply a' - amountOf a n a'
  retired a' := L.retired a' + amountOf a n a'

/-- Everything that exists of an asset, live or retired. -/
def outstanding (L : Ledger H A) (a : A) : Int :=
  L.supply a + L.retired a

/-- What is outstanding after minting. -/
theorem outstanding_mint (L : Ledger H A) (h : H) (a a' : A) (n : Int) :
    (L.mint h a n).outstanding a' = L.outstanding a' + amountOf a n a' := by
  simp only [outstanding, mint]
  ring

/-- What is outstanding after burning. -/
theorem outstanding_burn (L : Ledger H A) (h : H) (a a' : A) (n : Int) :
    (L.burn h a n).outstanding a' = L.outstanding a' - amountOf a n a' := by
  simp only [outstanding, burn]
  ring

/-- What is outstanding after a transfer. -/
@[simp]
theorem outstanding_transfer (L : Ledger H A) (sender recipient : H) (a a' : A) (n : Int) :
    (L.transfer sender recipient a n).outstanding a' = L.outstanding a' :=
  rfl

/-- What is outstanding after retiring. -/
@[simp]
theorem outstanding_retire (L : Ledger H A) (h : H) (a a' : A) (n : Int) :
    (L.retire h a n).outstanding a' = L.outstanding a' := by
  simp only [outstanding, retire]
  ring

/-- Burning from one holder and minting to another is a transfer between them. -/
theorem mint_burn_eq_transfer (L : Ledger H A) (sender recipient : H) (a : A) (n : Int) :
    (L.burn sender a n).mint recipient a n = L.transfer sender recipient a n := by
  ext
  · rfl
  · simp [burn, mint, transfer]
  · rfl

/-- A transfer to oneself changes nothing. -/
theorem transfer_self (L : Ledger H A) (h : H) (a : A) (n : Int) : L.transfer h h a n = L := by
  ext
  · simp [transfer]
  · rfl
  · rfl

/-! ## Movements -/

/-- A movement of an amount of an asset. -/
inductive Movement (H A : Type) where
  | mint (h : H) (a : A) (n : Int)
  | burn (h : H) (a : A) (n : Int)
  | transfer (sender recipient : H) (a : A) (n : Int)
  | retire (h : H) (a : A) (n : Int)

/-- Carry out one movement. -/
def apply (L : Ledger H A) : Movement H A → Ledger H A
  | .mint h a n => L.mint h a n
  | .burn h a n => L.burn h a n
  | .transfer sender recipient a n => L.transfer sender recipient a n
  | .retire h a n => L.retire h a n

/-- How much a movement adds to what exists of an asset. -/
def Movement.issued : Movement H A → A → Int
  | .mint _ a n => amountOf a n
  | .burn _ a n => fun a' => - amountOf a n a'
  | .transfer _ _ _ _ => fun _ => 0
  | .retire _ _ _ => fun _ => 0

/-- What is outstanding after a movement. -/
theorem outstanding_apply (L : Ledger H A) (m : Movement H A) (a : A) :
    (L.apply m).outstanding a = L.outstanding a + m.issued a := by
  cases m with
  | mint h a' n => exact outstanding_mint L h a' a n
  | burn h a' n => exact outstanding_burn L h a' a n
  | transfer sender recipient a' n => simp [apply, Movement.issued]
  | retire h a' n => simp [apply, Movement.issued]

/-- A run of movements changes what exists of an asset by what each of them issues. -/
theorem outstanding_foldl (L : Ledger H A) (ms : List (Movement H A)) (a : A) :
    (ms.foldl apply L).outstanding a = L.outstanding a + (ms.map fun m => m.issued a).sum := by
  induction ms generalizing L with
  | nil => simp
  | cons m ms ih =>
      rw [List.foldl_cons, ih, outstanding_apply, List.map_cons, List.sum_cons]
      ring

/-- How much a movement adds to the balance of a holder. -/
def Movement.received : Movement H A → H → A → Int
  | .mint h a n => amountFor h a n
  | .burn _ _ _ => fun _ _ => 0
  | .transfer _ recipient a n => amountFor recipient a n
  | .retire _ _ _ => fun _ _ => 0

/-- How much a movement takes from the balance of a holder. -/
def Movement.sent : Movement H A → H → A → Int
  | .mint _ _ _ => fun _ _ => 0
  | .burn h a n => amountFor h a n
  | .transfer sender _ a n => amountFor sender a n
  | .retire h a n => amountFor h a n

/-- How much a movement adds to the retired supply of an asset. -/
def Movement.retires : Movement H A → A → Int
  | .mint _ _ _ => fun _ => 0
  | .burn _ _ _ => fun _ => 0
  | .transfer _ _ _ _ => fun _ => 0
  | .retire _ a n => amountOf a n

/-- A balance after a movement. -/
theorem balance_apply (L : Ledger H A) (m : Movement H A) (h : H) (a : A) :
    (L.apply m).balance h a = L.balance h a + m.received h a - m.sent h a := by
  cases m with
  | mint h' a' n => simp [apply, mint, Movement.received, Movement.sent]
  | burn h' a' n => simp [apply, burn, Movement.received, Movement.sent]
  | transfer sender recipient a' n =>
      simp only [apply, transfer, Movement.received, Movement.sent]
      ring
  | retire h' a' n => simp [apply, retire, Movement.received, Movement.sent]

/-- What is retired after a movement. -/
theorem retired_apply (L : Ledger H A) (m : Movement H A) (a : A) :
    (L.apply m).retired a = L.retired a + m.retires a := by
  cases m <;> simp [apply, mint, burn, transfer, retire, Movement.retires]

/-- A run of movements changes a balance by what each of them adds to it and takes from it. -/
theorem balance_foldl (L : Ledger H A) (ms : List (Movement H A)) (h : H) (a : A) :
    (ms.foldl apply L).balance h a = L.balance h a + (ms.map fun m => m.received h a).sum -
      (ms.map fun m => m.sent h a).sum := by
  induction ms generalizing L with
  | nil => simp
  | cons m ms ih =>
      rw [List.foldl_cons, ih, balance_apply, List.map_cons, List.map_cons, List.sum_cons,
        List.sum_cons]
      ring

/-- A run of movements adds to the retired supply what each of them retires. -/
theorem retired_foldl (L : Ledger H A) (ms : List (Movement H A)) (a : A) :
    (ms.foldl apply L).retired a = L.retired a + (ms.map fun m => m.retires a).sum := by
  induction ms generalizing L with
  | nil => simp
  | cons m ms ih =>
      rw [List.foldl_cons, ih, retired_apply, List.map_cons, List.sum_cons]
      ring

/-! ## Debits -/

/-- The amount of a movement. -/
def Movement.amount : Movement H A → Int
  | .mint _ _ n => n
  | .burn _ _ n => n
  | .transfer _ _ _ n => n
  | .retire _ _ n => n

/-- The holder that a movement takes from. -/
def Movement.debtor : Movement H A → Option H
  | .mint _ _ _ => none
  | .burn h _ _ => some h
  | .transfer sender _ _ _ => some sender
  | .retire h _ _ => some h

/-- An amount is not negative for anybody. -/
theorem amountFor_nonneg {h : H} {a : A} {n : Int} (hn : 0 ≤ n) (h' : H) (a' : A) :
    0 ≤ amountFor h a n h' a' := by
  unfold amountFor
  split
  · exact hn
  · exact le_refl 0

/-- Nobody receives a negative amount. -/
theorem Movement.received_nonneg {m : Movement H A} (hm : 0 ≤ m.amount) (h : H) (a : A) :
    0 ≤ m.received h a := by
  cases m with
  | mint h' a' n => exact amountFor_nonneg hm h a
  | burn h' a' n => exact le_refl 0
  | transfer sender recipient a' n => exact amountFor_nonneg hm h a
  | retire h' a' n => exact le_refl 0

/-- A movement takes from nobody but its debtor. -/
theorem Movement.sent_of_ne_debtor {m : Movement H A} {h : H} (hm : m.debtor ≠ some h) (a : A) :
    m.sent h a = 0 := by
  cases m with
  | mint h' a' n => rfl
  | burn h' a' n => exact if_neg fun hboth => hm (congrArg some hboth.1.symm)
  | transfer sender recipient a' n => exact if_neg fun hboth => hm (congrArg some hboth.1.symm)
  | retire h' a' n => exact if_neg fun hboth => hm (congrArg some hboth.1.symm)

/-- A balance that a run of movements has lowered was debited by one of them. -/
theorem exists_debtor {L : Ledger H A} {ms : List (Movement H A)} (hms : ∀ m ∈ ms, 0 ≤ m.amount)
    {h : H} {a : A} (hlt : (ms.foldl apply L).balance h a < L.balance h a) :
    ∃ m ∈ ms, m.debtor = some h := by
  by_contra hnone
  simp only [not_exists, not_and] at hnone
  have hsent : (ms.map fun m => m.sent h a).sum = 0 := by
    apply List.sum_eq_zero
    intro n hn
    rcases List.mem_map.mp hn with ⟨m, hm, rfl⟩
    exact Movement.sent_of_ne_debtor (hnone m hm) a
  have hreceived : 0 ≤ (ms.map fun m => m.received h a).sum := by
    apply List.sum_nonneg
    intro n hn
    rcases List.mem_map.mp hn with ⟨m, hm, rfl⟩
    exact Movement.received_nonneg (hms m hm) h a
  rw [balance_foldl, hsent] at hlt
  omega

/-- An amount is not negative for any asset. -/
theorem amountOf_nonneg {a : A} {n : Int} (hn : 0 ≤ n) (a' : A) : 0 ≤ amountOf a n a' := by
  unfold amountOf
  split
  · exact hn
  · exact le_refl 0

/-- Only a mint of an asset raises its supply. -/
theorem supply_apply_le {L : Ledger H A} {m : Movement H A} (hm : 0 ≤ m.amount) {a : A}
    (hmint : ∀ h n, m ≠ .mint h a n) : (L.apply m).supply a ≤ L.supply a := by
  cases m with
  | mint h a' n =>
      have hother : a ≠ a' := by
        intro hsame
        subst hsame
        exact hmint h n rfl
      simp [apply, mint, amountOf, hother]
  | burn h a' n =>
      have hn := amountOf_nonneg (a := a') (n := n) hm a
      change L.supply a - amountOf a' n a ≤ L.supply a
      omega
  | transfer sender recipient a' n => exact le_refl _
  | retire h a' n =>
      have hn := amountOf_nonneg (a := a') (n := n) hm a
      change L.supply a - amountOf a' n a ≤ L.supply a
      omega

/-- A supply that a run of movements has raised was raised by a mint among them. -/
theorem exists_mint {L : Ledger H A} {ms : List (Movement H A)} (hms : ∀ m ∈ ms, 0 ≤ m.amount)
    {a : A} (hlt : L.supply a < (ms.foldl apply L).supply a) : ∃ h n, .mint h a n ∈ ms := by
  induction ms generalizing L with
  | nil => exact absurd hlt (lt_irrefl _)
  | cons m ms ih =>
      by_cases hmint : ∃ h n, m = .mint h a n
      · rcases hmint with ⟨h, n, rfl⟩
        exact ⟨h, n, List.mem_cons_self⟩
      · have hstep := supply_apply_le (L := L) (hms m List.mem_cons_self) (a := a)
          fun h n hm => hmint ⟨h, n, hm⟩
        have hrest := ih (fun m' hm' => hms m' (List.mem_cons_of_mem _ hm'))
          (lt_of_le_of_lt hstep hlt)
        rcases hrest with ⟨h, n, hmem⟩
        exact ⟨h, n, List.mem_cons_of_mem _ hmem⟩

end Ledger

end Foundation
