import Kraal.CarbonCredit.Conservation

/-!
# Batches of transfers

A batch carries out its transfers one after the other, each against the balance that the
earlier ones have left, and fails as a whole if one of them fails.  Whether it is accepted
depends on the sums of its amounts only, and so does what it does to the balances: the order
of its rows does not matter.

Main results:

- Theorem {lit}`transfer_succeeds_iff`: when one transfer is accepted.
- Theorem {lit}`transferAll_succeeds_iff`: when all transfers of a batch are.
- Theorem {lit}`batch_exact`: acceptance and effect of a batch in a reachable state.
-/

namespace Kraal
namespace CarbonCredit

open Foundation

/-- What the rows of a batch bring to an account. -/
def incoming (transfers : List (Address × BytesN × I128)) (owner : Address) (projectId : BytesN) :
    Int :=
  (transfers.map fun t => Ledger.amountFor t.1 t.2.1 t.2.2.toInt owner projectId).sum

/-- What the rows of a batch take from an account. -/
def outgoing (sender : Address) (transfers : List (Address × BytesN × I128)) (owner : Address)
    (projectId : BytesN) : Int :=
  (transfers.map fun t => Ledger.amountFor sender t.2.1 t.2.2.toInt owner projectId).sum

/-- The part of one row that goes to another recipient than the sender. -/
def rowOutflow (sender : Address) (t : Address × BytesN × I128) (projectId : BytesN) : Int :=
  if t.1 = sender then 0 else Ledger.amountOf t.2.1 t.2.2.toInt projectId

/-- The amounts of a project that go to other recipients than the sender. -/
def outflow (sender : Address) (transfers : List (Address × BytesN × I128)) (projectId : BytesN) :
    Int :=
  (transfers.map fun t => rowOutflow sender t projectId).sum

/-- The amounts of a batch are positive, and the sender owns what goes to others. -/
structure Covered (s : Store) (sender : Address) (transfers : List (Address × BytesN × I128)) :
    Prop where
  positive : ∀ t ∈ transfers, 0 < t.2.2.toInt
  owned : ∀ projectId,
    outflow sender transfers projectId ≤ (s.balanceOf sender projectId).toInt

/-- Two states differ in the rows of the balances at most, and agree on every balance. -/
structure SameAccounts (s t : Store) : Prop where
  balances : ∀ owner projectId, t.balanceOf owner projectId = s.balanceOf owner projectId
  rest : t.withBalances s.balances = s

variable {s s' : Store} {env : Env} {sender recipient : Address} {projectId : BytesN}
  {amount : I128} {transfers transfers' : List (Address × BytesN × I128)}

/-! ## One transfer -/

/-- A transfer is accepted exactly if its amount is positive, and owned by the sender unless the
sender is the recipient. -/
theorem transfer_succeeds_iff (hs : Conserved s) (hcfg : s.config.isSome = true)
    (hauth : env.authorized sender = true) :
    (transfer sender recipient projectId amount).Succeeds env s ↔
      0 < amount.toInt ∧
        (recipient = sender ∨ amount.toInt ≤ (s.balanceOf sender projectId).toInt) := by
  constructor
  · intro h
    rcases h with ⟨⟨_, s'⟩, hok⟩
    rcases transfer_eq_ok.mp hok with ⟨⟨-, -, hpos⟩, ⟨hself, -⟩ | ⟨-, hle, -⟩⟩
    · exact ⟨hpos, .inl hself.symm⟩
    · exact ⟨hpos, .inr hle⟩
  · intro h
    rcases h with ⟨hpos, hrow⟩
    by_cases hself : sender = recipient
    · exact ⟨⟨(), s⟩, transfer_eq_ok.mpr ⟨⟨hauth, hcfg, hpos⟩, .inl ⟨hself, rfl⟩⟩⟩
    · have hle := hrow.resolve_left (Ne.symm hself)
      rcases Option.ne_none_iff_exists'.mp (checkedSub_of_covered hpos hle) with
        ⟨newFromBal, hfrom⟩
      rcases Option.ne_none_iff_exists'.mp (hs.checkedAdd_of_owned hself hpos hle) with
        ⟨newToBal, hto⟩
      exact ⟨⟨(), _⟩, transfer_eq_ok.mpr ⟨⟨hauth, hcfg, hpos⟩, .inr ⟨hself, hle, newFromBal,
        MInt.checkedSub_eq_some.mp hfrom, newToBal, MInt.checkedAdd_eq_some.mp hto, rfl⟩⟩⟩

/-- A transfer takes from the sender what goes to another recipient. -/
theorem transfer_sender_balance
    (h : transfer sender recipient projectId amount env s = .ok ((), s')) (projectId' : BytesN) :
    (s'.balanceOf sender projectId').toInt = (s.balanceOf sender projectId').toInt -
      rowOutflow sender (recipient, projectId, amount) projectId' := by
  have hbalance := congrFun (congrFun (congrArg Ledger.balance (transfer_refines h)) sender)
    projectId'
  simp only [Store.ledger, Ledger.transfer] at hbalance
  rw [hbalance, rowOutflow, Ledger.amountFor, Ledger.amountFor, Ledger.amountOf]
  by_cases hself : recipient = sender
  · simp [hself]
  · simp [hself, Ne.symm hself]

/-- A transfer writes rows of the balances only. -/
theorem transfer_rest (h : transfer sender recipient projectId amount env s = .ok ((), s')) :
    s'.withBalances s.balances = s := by
  rcases transfer_eq_ok.mp h with ⟨-, ⟨-, rfl⟩ | ⟨-, -, newFromBal, -, newToBal, -, rfl⟩⟩
  · rfl
  · rfl

/-! ## All transfers of a batch -/

/-- What flows out by a transfer and by the rest. -/
theorem outflow_cons (sender : Address) (t : Address × BytesN × I128)
    (transfers : List (Address × BytesN × I128)) (projectId : BytesN) :
    outflow sender (t :: transfers) projectId =
      rowOutflow sender t projectId + outflow sender transfers projectId := by
  rw [outflow, List.map_cons, List.sum_cons, outflow]

/-- Nothing flows in. -/
theorem rowOutflow_nonneg {t : Address × BytesN × I128} (hpos : 0 < t.2.2.toInt)
    (projectId : BytesN) : 0 ≤ rowOutflow sender t projectId := by
  unfold rowOutflow Ledger.amountOf
  split
  · exact le_rfl
  · split
    · exact hpos.le
    · exact le_rfl

/-- Nothing flows in. -/
theorem outflow_nonneg (hpos : ∀ t ∈ transfers, 0 < t.2.2.toInt) (projectId : BytesN) :
    0 ≤ outflow sender transfers projectId := by
  apply List.sum_nonneg
  intro n hn
  rcases List.mem_map.mp hn with ⟨t, ht, rfl⟩
  exact rowOutflow_nonneg (hpos t ht) projectId

/-- A batch runs through exactly if its first transfer does, and the others do after it. -/
theorem transferAll_cons_succeeds {t : Address × BytesN × I128} :
    (transferAll sender (t :: transfers)).Succeeds env s ↔
      ∃ s', transfer sender t.1 t.2.1 t.2.2 env s = .ok ((), s') ∧
        (transferAll sender transfers).Succeeds env s' := by
  constructor
  · intro h
    rcases h with ⟨⟨_, s''⟩, hok⟩
    rcases Call.bind_eq_ok.mp hok with ⟨_, s', hfirst, hrest⟩
    exact ⟨s', hfirst, ⟨_, hrest⟩⟩
  · intro h
    rcases h with ⟨s', hfirst, ⟨⟨_, s''⟩, hrest⟩⟩
    exact ⟨⟨(), s''⟩, Call.bind_eq_ok.mpr ⟨(), s', hfirst, hrest⟩⟩

/-- The transfers of a batch are accepted one after the other exactly if their sums are
covered. -/
theorem transferAll_succeeds_iff (hs : Conserved s) (hcfg : s.config.isSome = true)
    (hauth : env.authorized sender = true) :
    (transferAll sender transfers).Succeeds env s ↔ Covered s sender transfers := by
  induction transfers generalizing s with
  | nil =>
      refine iff_of_true ⟨⟨(), s⟩, rfl⟩ ⟨by simp, ?_⟩
      intro projectId
      exact hs.balance_nonneg sender projectId
  | cons t transfers ih =>
      rw [transferAll_cons_succeeds]
      constructor
      · intro h
        rcases h with ⟨s', hfirst, hrest⟩
        have hcovered := (ih (hs.transfer hfirst) (by rw [transfer_config hfirst]; exact hcfg)).mp
          hrest
        have hpos := ((transfer_succeeds_iff hs hcfg hauth).mp ⟨_, hfirst⟩).1
        constructor
        · intro t' ht'
          rcases List.mem_cons.mp ht' with rfl | ht'
          · exact hpos
          · exact hcovered.positive t' ht'
        · intro projectId
          have howned := hcovered.owned projectId
          rw [transfer_sender_balance hfirst] at howned
          rw [outflow_cons]
          linarith
      · intro hcovered
        have hpos := hcovered.positive t List.mem_cons_self
        have hrest : ∀ t' ∈ transfers, 0 < t'.2.2.toInt := fun t' ht' =>
          hcovered.positive t' (List.mem_cons_of_mem _ ht')
        have hrow : t.1 = sender ∨ t.2.2.toInt ≤ (s.balanceOf sender t.2.1).toInt := by
          by_cases hself : t.1 = sender
          · exact .inl hself
          · have howned := hcovered.owned t.2.1
            have hnonneg : 0 ≤ outflow sender transfers t.2.1 := outflow_nonneg hrest t.2.1
            rw [outflow_cons, rowOutflow, if_neg hself, Ledger.amountOf, if_pos rfl] at howned
            exact .inr (by linarith)
        rcases (transfer_succeeds_iff hs hcfg hauth).mpr ⟨hpos, hrow⟩ with ⟨⟨_, s'⟩, hfirst⟩
        refine ⟨s', hfirst, ?_⟩
        apply (ih (hs.transfer hfirst) (by rw [transfer_config hfirst]; exact hcfg)).mpr
        refine ⟨hrest, ?_⟩
        intro projectId
        have howned := hcovered.owned projectId
        rw [outflow_cons] at howned
        rw [transfer_sender_balance hfirst]
        linarith

/-! ## The effect of a batch -/

/-- Every balance changes by what the rows bring to it and take from it. -/
theorem transferAll_balance (h : transferAll sender transfers env s = .ok ((), s'))
    (owner : Address) (projectId : BytesN) :
    (s'.balanceOf owner projectId).toInt = (s.balanceOf owner projectId).toInt +
      incoming transfers owner projectId - outgoing sender transfers owner projectId := by
  have hbalance := congrFun (congrFun (congrArg Ledger.balance (transferAll_refines h)) owner)
    projectId
  rw [Ledger.balance_foldl, List.map_map, List.map_map] at hbalance
  exact hbalance

/-- A batch writes rows of the balances only. -/
theorem transferAll_rest (h : transferAll sender transfers env s = .ok ((), s')) :
    s'.withBalances s.balances = s := by
  induction transfers generalizing s with
  | nil =>
      cases h
      rfl
  | cons t transfers ih =>
      rcases Call.bind_eq_ok.mp h with ⟨_, t', hfirst, hrest⟩
      calc s'.withBalances s.balances = (s'.withBalances t'.balances).withBalances s.balances := rfl
        _ = t'.withBalances s.balances := by rw [ih hrest]
        _ = s := transfer_rest hfirst

/-- What comes in does not depend on the order. -/
theorem incoming_perm (hperm : transfers'.Perm transfers) (owner : Address) (projectId : BytesN) :
    incoming transfers' owner projectId = incoming transfers owner projectId :=
  (hperm.map _).sum_eq

/-- What goes out does not depend on the order. -/
theorem outgoing_perm (hperm : transfers'.Perm transfers) (owner : Address) (projectId : BytesN) :
    outgoing sender transfers' owner projectId = outgoing sender transfers owner projectId :=
  (hperm.map _).sum_eq

/-- A batch is covered in any order. -/
theorem Covered.perm (h : Covered s sender transfers) (hperm : transfers'.Perm transfers) :
    Covered s sender transfers' := by
  constructor
  · intro t ht
    exact h.positive t (hperm.mem_iff.mp ht)
  · intro projectId
    have hsum : outflow sender transfers' projectId = outflow sender transfers projectId :=
      (hperm.map _).sum_eq
    rw [hsum]
    exact h.owned projectId

/-- Two orders of the rows of a batch lead to the same accounts. -/
theorem transferAll_perm {s'' : Store} (hperm : transfers'.Perm transfers)
    (h : transferAll sender transfers env s = .ok ((), s'))
    (h' : transferAll sender transfers' env s = .ok ((), s'')) : SameAccounts s' s'' := by
  constructor
  · intro owner projectId
    apply MInt.ext
    rw [transferAll_balance h, transferAll_balance h', incoming_perm hperm, outgoing_perm hperm]
  · calc s''.withBalances s'.balances =
        (s''.withBalances s.balances).withBalances s'.balances := rfl
      _ = (s'.withBalances s.balances).withBalances s'.balances := by
          rw [transferAll_rest h', transferAll_rest h]
      _ = s' := rfl

/-- What an accepted batch does to a state. -/
structure BatchEffect (sender : Address) (transfers : List (Address × BytesN × I128)) (env : Env)
    (s s' : Store) : Prop where
  balances : ∀ owner projectId, (s'.balanceOf owner projectId).toInt =
    (s.balanceOf owner projectId).toInt + incoming transfers owner projectId -
      outgoing sender transfers owner projectId
  supplies : ∀ projectId, s'.totalSupply projectId = s.totalSupply projectId ∧
    s'.retiredSupply projectId = s.retiredSupply projectId
  /-- Every order of the rows is accepted and leads to the same accounts. -/
  order : ∀ transfers' : List (Address × BytesN × I128), transfers'.Perm transfers →
    (batchTransfer sender transfers').Succeeds env s ∧
      SameAccounts s' ((batchTransfer sender transfers').commit env s)

/-- A batch that is authorised succeeds when its transfers do. -/
theorem batchTransfer_succeeds_iff (hauth : env.authorized sender = true) :
    (batchTransfer sender transfers).Succeeds env s ↔
      (transferAll sender transfers).Succeeds env s := by
  constructor
  · intro h
    rcases h with ⟨⟨_, s'⟩, hok⟩
    exact ⟨_, (batchTransfer_eq_ok.mp hok).2⟩
  · intro h
    rcases h with ⟨⟨_, s'⟩, hok⟩
    exact ⟨_, batchTransfer_eq_ok.mpr ⟨hauth, hok⟩⟩

/-- In a reachable state a batch is accepted exactly if it is covered, changes the balances by
the sums of its rows if it is, and changes no balance if it is not. -/
theorem batch_exact (hs : Run.Reachable (step execAnswered) Store.empty s)
    (hcfg : s.config.isSome = true) (hauth : env.authorized sender = true)
    (transfers : List (Address × BytesN × I128)) :
    ((batchTransfer sender transfers).Succeeds env s ↔ Covered s sender transfers) ∧
    ((batchTransfer sender transfers).Succeeds env s →
      BatchEffect sender transfers env s ((batchTransfer sender transfers).commit env s)) ∧
    (¬ (batchTransfer sender transfers).Succeeds env s → ∀ owner projectId,
      ((batchTransfer sender transfers).commit env s).balanceOf owner projectId =
        s.balanceOf owner projectId) := by
  have hconserved := reachable_conserved hs
  have haccepted : ∀ transfers : List (Address × BytesN × I128),
      (batchTransfer sender transfers).Succeeds env s ↔ Covered s sender transfers := by
    intro transfers
    rw [batchTransfer_succeeds_iff hauth, transferAll_succeeds_iff hconserved hcfg hauth]
  refine ⟨haccepted transfers, ?_, ?_⟩
  · intro hsucceeds
    have hcovered := (haccepted transfers).mp hsucceeds
    rcases hsucceeds with ⟨⟨_, s'⟩, hok⟩
    have hall := (batchTransfer_eq_ok.mp hok).2
    rw [Call.commit_of_ok hok]
    constructor
    · exact transferAll_balance hall
    · intro projectId
      have hrest := transferAll_rest hall
      rw [← hrest]
      exact ⟨rfl, rfl⟩
    · intro transfers' hperm
      have hsucceeds' := (haccepted transfers').mpr (hcovered.perm hperm)
      refine ⟨hsucceeds', ?_⟩
      rcases hsucceeds' with ⟨⟨_, s''⟩, hok'⟩
      rw [Call.commit_of_ok hok']
      exact transferAll_perm hperm hall (batchTransfer_eq_ok.mp hok').2
  · intro hfails owner projectId
    rw [Call.commit_of_not_succeeds hfails]

/-! ## A batch with a row to the sender -/

/-- The id of a project. -/
def forestId : BytesN := ⟨[1]⟩

/-- A registry that knows one verified project. -/
def forestRegistry : ProjectQuery := fun _ _ => some ⟨⟨9⟩, "forest", 1000, 0, .verified, 2024⟩

/-- The marketplace mints 100 credits to the first account. -/
def mintRun : List (Invocation Answered) :=
  [⟨.signedBy 1 [⟨0⟩], forestRegistry, .initializeContract ⟨0⟩ ⟨10⟩ ⟨11⟩⟩,
    ⟨.signedBy 2 [⟨11⟩], forestRegistry, .mint ⟨1⟩ forestId 100⟩]

/-- The state after it. -/
def mintedStore : Store where
  config := some ⟨⟨0⟩, ⟨10⟩, ⟨11⟩⟩
  balances := Storage.empty.set (⟨1⟩, forestId) 100
  supplies := Storage.empty.set forestId 100
  retired := Storage.empty
  retireOps := Storage.empty

/-- What that run leaves. -/
theorem final_mintRun : Run.final (step execAnswered) Store.empty mintRun = mintedStore := by
  have hinit : step execAnswered Store.empty
      ⟨.signedBy 1 [⟨0⟩], forestRegistry, .initializeContract ⟨0⟩ ⟨10⟩ ⟨11⟩⟩ =
        { Store.empty with config := some ⟨⟨0⟩, ⟨10⟩, ⟨11⟩⟩ } :=
    step_of_ok (initializeContract_eq_ok.mpr ⟨rfl, rfl⟩)
  rw [mintRun, Run.final_cons, hinit, Run.final_cons, Run.final_nil]
  apply step_of_ok
  exact mint_eq_ok.mpr ⟨⟨_, _, rfl, Env.authorized_signedBy 2 ⟨11⟩, by decide, rfl, rfl⟩, 100,
    by decide, 100, by decide, rfl⟩

/-- That state is reachable. -/
theorem reachable_mintedStore : Run.Reachable (step execAnswered) Store.empty mintedStore :=
  ⟨mintRun, final_mintRun.symm⟩

/-- More than the balance goes to the sender itself, and the whole balance to others. -/
def sampleBatch : List (Address × BytesN × I128) :=
  [(⟨2⟩, forestId, 60), (⟨1⟩, forestId, 500), (⟨3⟩, forestId, 40)]

/-- The sample batch is covered. -/
theorem sampleBatch_covered : Covered mintedStore ⟨1⟩ sampleBatch := by
  constructor
  · decide
  · intro projectId
    by_cases hproject : projectId = forestId
    · rw [hproject]
      decide
    · have hnonneg := (reachable_conserved reachable_mintedStore).balance_nonneg ⟨1⟩ projectId
      have hzero : outflow ⟨1⟩ sampleBatch projectId = 0 := by
        simp [outflow, sampleBatch, rowOutflow, Ledger.amountOf, hproject]
      rw [hzero]
      exact hnonneg

theorem sampleBatch_exact :
    (batchTransfer ⟨1⟩ sampleBatch).Succeeds (.signedBy 3 [⟨1⟩]) mintedStore ∧
      BatchEffect ⟨1⟩ sampleBatch (.signedBy 3 [⟨1⟩]) mintedStore
        ((batchTransfer ⟨1⟩ sampleBatch).commit (.signedBy 3 [⟨1⟩]) mintedStore) := by
  have hexact := batch_exact reachable_mintedStore rfl (Env.authorized_signedBy 3 ⟨1⟩) sampleBatch
  have hsucceeds := hexact.1.mpr sampleBatch_covered
  exact ⟨hsucceeds, hexact.2.1 hsucceeds⟩

end CarbonCredit
end Kraal
