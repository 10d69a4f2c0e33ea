import Kraal.StellarKraal.AssetIds

/-!
# Ownership of the collateral

A registration records the owner of an asset, and opening a loan does not read it: the
borrower only has to sign for himself.  The runs in which nobody but the owner
encumbers an asset are therefore those in which every borrower happens to be the owner.

Main results:

- Theorem {lit}`step_ownerOf`: no step but an overwriting registration changes an owner.
- Theorem {lit}`step_activeLoan`: an active loan was active before, or it is opened.
- Theorem {lit}`ownersBorrow_iff`: every active loan belongs to the owner of its asset
  exactly when every loan is opened by the owner.
- Theorem {lit}`stranger_borrows`: a borrower who does not own the asset.
-/

namespace Kraal
namespace StellarKraal

open Foundation

variable {sha256 : Bytes → BytesN}

/-! ## Recorded owners -/

/-- The owner that is recorded for an asset. -/
def Store.ownerOf (s : Store) (assetId : BytesN) : Option Address :=
  (s.assets.get assetId).map Asset.owner

/-- Rewriting an asset row with the same owner keeps every recorded owner. -/
theorem Store.ownerOf_withAsset {s : Store} {id : BytesN} {old new : Asset}
    (hold : s.assets.get id = some old) (howner : new.owner = old.owner) (assetId : BytesN) :
    (s.withAsset id new).ownerOf assetId = s.ownerOf assetId := by
  rw [Store.ownerOf, Store.ownerOf, Store.withAsset_assets, Storage.get_set]
  by_cases hid : assetId = id
  · rw [if_pos hid, hid, hold, Option.map_some, Option.map_some, howner]
  · rw [if_neg hid]

/-- No step but an overwriting registration changes an owner. -/
theorem step_ownerOf {s : Store} {i : Invocation Op} (hfresh : FreshRegistration sha256 (s, i))
    {assetId : BytesN} {owner : Address} (howner : s.ownerOf assetId = some owner) :
    (step (exec sha256) s i).ownerOf assetId = some owner := by
  apply step_induction (P := fun t : Store => t.ownerOf assetId = some owner) howner
  intro s' hok
  rcases exec_cases hok with ⟨cfg, -, -, -, rfl⟩ |
    ⟨owner', animalType, tagId, appraisedValueXlm, hcall, hregister⟩ |
    ⟨borrower, assetId', principalStroops, id, -, hopen⟩ |
    ⟨caller, loanId, repaymentStroops, cfg, loan, accrued, -, -, -, rfl⟩ |
    ⟨caller, loanId, cfg, loan, accrued, -, -, asset, hasset, rfl⟩ |
    ⟨oracle, price, -, rfl⟩
  · exact howner
  · have hregisters : Registers sha256 (s, i) :=
      ⟨owner', animalType, tagId, appraisedValueXlm, s', hcall, hregister⟩
    rcases Option.map_eq_some_iff.mp howner with ⟨asset, hasset, rfl⟩
    have hkept := hfresh.keeps hregisters hasset
    rw [step_of_ok hok] at hkept
    rw [Store.ownerOf, hkept, Option.map_some]
  · rcases openLoan_eq_ok.mp hopen with ⟨cfg, asset, balance, nonce, haccepted, -, -, -, rfl⟩
    exact (Store.ownerOf_withAsset haccepted.stored (by rfl) assetId).trans howner
  · exact howner
  · exact (Store.ownerOf_withAsset hasset (by rfl) assetId).trans howner
  · exact howner

/-! ## Active loans -/

/-- An active loan of a borrower on an asset. -/
def ActiveLoan (s : Store) (borrower : Address) (assetId : BytesN) : Prop :=
  ∃ loanId loan, s.loans.get loanId = some loan ∧ loan.active = true ∧
    loan.borrower = borrower ∧ loan.assetId = assetId

/-- A step opens a loan of a borrower on an asset. -/
def Opens (sha256 : Bytes → BytesN) (e : Store × Invocation Op) (borrower : Address)
    (assetId : BytesN) (principalStroops : I128) : Prop :=
  ∃ id s', e.2.call = .openLoan borrower assetId principalStroops ∧
    openLoan sha256 borrower assetId principalStroops e.2.env e.1 = .ok (id, s')

/-- The checks that an opening step has passed, and the state it leaves. -/
theorem Opens.step_eq {e : Store × Invocation Op} {borrower : Address} {assetId : BytesN}
    {principalStroops : I128} (h : Opens sha256 e borrower assetId principalStroops) :
    ∃ cfg asset balance nonce id,
      LoanAccepted borrower assetId principalStroops e.2.env e.1 cfg asset ∧
      balance.toInt = principalStroops.toInt + cfg.creationFeeStroops.toInt ∧
      step (exec sha256) e.1 e.2 =
        ((e.1.withAsset assetId { asset with onLoan := true }).withCounter nonce).withLoan id
          ⟨borrower, assetId, principalStroops, balance, e.2.env.sequence, e.2.env.sequence,
            true⟩ := by
  rcases h with ⟨id, s', hcall, hopen⟩
  have hstep : step (exec sha256) e.1 e.2 = s' := by
    apply step_of_ok
    rw [hcall, exec, Call.bind_eq_ok]
    exact ⟨id, s', hopen, rfl⟩
  rcases openLoan_eq_ok.mp hopen with ⟨cfg, asset, balance, nonce, haccepted, hbalance, -, -, hs⟩
  exact ⟨cfg, asset, balance, nonce, id, haccepted, hbalance, hstep.trans hs⟩

/-- The loan that a step opens is active after it. -/
theorem Opens.activeLoan {e : Store × Invocation Op} {borrower : Address} {assetId : BytesN}
    {principalStroops : I128} (h : Opens sha256 e borrower assetId principalStroops) :
    ActiveLoan (step (exec sha256) e.1 e.2) borrower assetId := by
  rcases h.step_eq with ⟨cfg, asset, balance, nonce, id, -, -, hstep⟩
  rw [hstep]
  exact ⟨id, _, Storage.get_set_self _ _ _, rfl, rfl, rfl⟩

/-- Opening a loan keeps the recorded owners. -/
theorem Opens.ownerOf {e : Store × Invocation Op} {borrower : Address} {assetId : BytesN}
    {principalStroops : I128} (h : Opens sha256 e borrower assetId principalStroops)
    (assetId' : BytesN) :
    (step (exec sha256) e.1 e.2).ownerOf assetId' = e.1.ownerOf assetId' := by
  rcases h.step_eq with ⟨cfg, asset, balance, nonce, id, haccepted, -, hstep⟩
  rw [hstep]
  exact Store.ownerOf_withAsset haccepted.stored (by rfl) assetId'

/-- A loan that is active after a row is written was active before, or is the new row. -/
theorem activeLoan_withLoan {s : Store} {id : BytesN} {new : Loan} {borrower : Address}
    {assetId : BytesN} (h : ActiveLoan (s.withLoan id new) borrower assetId) :
    ActiveLoan s borrower assetId ∨
      new.active = true ∧ new.borrower = borrower ∧ new.assetId = assetId := by
  rcases h with ⟨loanId, loan, hloan, hactive, hborrower, hasset⟩
  rcases Storage.get_set_eq_some.mp hloan with ⟨-, hnew⟩ | ⟨-, hold⟩
  · subst hnew
    exact .inr ⟨hactive, hborrower, hasset⟩
  · exact .inl ⟨loanId, loan, hold, hactive, hborrower, hasset⟩

/-- A loan that is active after a step was active before it, or the step opens it. -/
theorem step_activeLoan {s : Store} {i : Invocation Op} {borrower : Address} {assetId : BytesN}
    (hloan : ActiveLoan (step (exec sha256) s i) borrower assetId) :
    ActiveLoan s borrower assetId ∨
      ∃ principalStroops, Opens sha256 (s, i) borrower assetId principalStroops := by
  revert hloan
  apply step_induction (P := fun t : Store => ActiveLoan t borrower assetId →
    ActiveLoan s borrower assetId ∨
      ∃ principalStroops, Opens sha256 (s, i) borrower assetId principalStroops) .inl
  intro s' hok hloan
  rcases exec_cases hok with ⟨cfg, -, -, -, rfl⟩ |
    ⟨owner, animalType, tagId, appraisedValueXlm, -, hregister⟩ |
    ⟨borrower', assetId', principalStroops, id, hcall, hopen⟩ |
    ⟨caller, loanId, repaymentStroops, cfg, loan, accrued, -, haccrues, -, rfl⟩ |
    ⟨caller, loanId, cfg, loan, accrued, -, -, asset, -, rfl⟩ |
    ⟨oracle, price, -, rfl⟩
  · exact .inl hloan
  · rcases registerAsset_eq_ok.mp hregister with ⟨-, -, -, rfl⟩
    exact .inl hloan
  · have hopens : Opens sha256 (s, i) borrower' assetId' principalStroops :=
      ⟨id, s', hcall, hopen⟩
    rcases openLoan_eq_ok.mp hopen with ⟨cfg, asset, balance, nonce, -, -, -, -, rfl⟩
    rcases activeLoan_withLoan hloan with hbefore | ⟨-, rfl, rfl⟩
    · exact .inl hbefore
    · exact .inr ⟨principalStroops, hopens⟩
  · rcases activeLoan_withLoan hloan with hbefore | ⟨-, hborrower, hasset⟩
    · exact .inl hbefore
    · exact .inl ⟨loanId, loan, haccrues.stored, haccrues.active, hborrower, hasset⟩
  · -- the row of a closed loan is not active
    rcases activeLoan_withLoan hloan with hbefore | ⟨hclosed, -, -⟩
    · exact .inl hbefore
    · cases hclosed
  · exact .inl hloan

/-! ## Owners who borrow -/

/-- Every active loan belongs to the recorded owner of its asset. -/
def OwnersBorrow (s : Store) : Prop :=
  ∀ loanId loan, s.loans.get loanId = some loan → loan.active = true →
    s.ownerOf loan.assetId = some loan.borrower

/-- Every state that a run visits has only loans of owners. -/
def OwnersBorrowAlong (sha256 : Bytes → BytesN) (run : List (Invocation Op)) : Prop :=
  ∀ s, Run.Visits (step (exec sha256)) Store.empty run s → OwnersBorrow s

/-- Every loan of a run is opened by the recorded owner of its asset. -/
def OpenedByOwners (sha256 : Bytes → BytesN) (run : List (Invocation Op)) : Prop :=
  ∀ e ∈ history sha256 run, ∀ borrower assetId principalStroops,
    Opens sha256 e borrower assetId principalStroops → e.1.ownerOf assetId = some borrower

theorem OwnersBorrow.activeLoan {s : Store} (hs : OwnersBorrow s) {borrower : Address}
    {assetId : BytesN} (hloan : ActiveLoan s borrower assetId) :
    s.ownerOf assetId = some borrower := by
  rcases hloan with ⟨loanId, loan, hstored, hactive, rfl, rfl⟩
  exact hs loanId loan hstored hactive

theorem OwnersBorrow.step {s : Store} {i : Invocation Op} (hs : OwnersBorrow s)
    (hfresh : FreshRegistration sha256 (s, i))
    (howner : ∀ borrower assetId principalStroops,
      Opens sha256 (s, i) borrower assetId principalStroops →
      s.ownerOf assetId = some borrower) :
    OwnersBorrow (Kraal.step (exec sha256) s i) := by
  intro loanId loan hstored hactive
  apply step_ownerOf hfresh
  have hloan : ActiveLoan (Kraal.step (exec sha256) s i) loan.borrower loan.assetId :=
    ⟨loanId, loan, hstored, hactive, rfl, rfl⟩
  rcases step_activeLoan hloan with hbefore | ⟨principalStroops, hopens⟩
  · exact hs.activeLoan hbefore
  · exact howner loan.borrower loan.assetId principalStroops hopens

theorem OwnersBorrowAlong.openedByOwners {run : List (Invocation Op)}
    (hrun : OwnersBorrowAlong sha256 run) : OpenedByOwners sha256 run := by
  intro e he borrower assetId principalStroops hopens
  have hafter := (hrun _ (Run.visits_step he)).activeLoan hopens.activeLoan
  rw [hopens.ownerOf] at hafter
  exact hafter

/-- In a run whose registrations are fresh, every active loan belongs to the owner of its
asset exactly when every loan is opened by the owner. -/
theorem ownersBorrow_iff (run : List (Invocation Op))
    (hfresh : ∀ e ∈ history sha256 run, FreshRegistration sha256 e) :
    OwnersBorrowAlong sha256 run ↔ OpenedByOwners sha256 run := by
  constructor
  · exact OwnersBorrowAlong.openedByOwners
  · intro hopened
    apply Run.visits_invariant
    · intro loanId loan hloan
      simp [Store.empty] at hloan
    · intro e he hs
      exact hs.step (hfresh e he) (hopened e he)

/-! ## A loan on the animal of somebody else -/

/-- An owner registers an animal, and a borrower takes a loan on it. -/
def loanRun (sha256 : Bytes → BytesN) (borrower : Address) : List (Invocation Op) :=
  [⟨.signedBy 1 [⟨0⟩], .initializeContract sampleConfig⟩,
    ⟨.signedBy 7 [⟨4⟩], .registerAsset ⟨4⟩ "cow" "A1" 1000⟩,
    ⟨.signedBy 9 [borrower], .openLoan borrower (assetIdAt sha256 7) 100⟩]

/-- The state of that run in which the animal is registered. -/
def registeredStore (sha256 : Bytes → BytesN) : Store :=
  Store.withAsset { Store.empty with config := some sampleConfig } (assetIdAt sha256 7)
    ⟨⟨4⟩, "cow", "A1", 1000, false⟩

theorem history_loanRun (sha256 : Bytes → BytesN) (borrower : Address) :
    history sha256 (loanRun sha256 borrower) =
      [(Store.empty, ⟨.signedBy 1 [⟨0⟩], .initializeContract sampleConfig⟩),
        ({ Store.empty with config := some sampleConfig },
          ⟨.signedBy 7 [⟨4⟩], .registerAsset ⟨4⟩ "cow" "A1" 1000⟩),
        (registeredStore sha256,
          ⟨.signedBy 9 [borrower], .openLoan borrower (assetIdAt sha256 7) 100⟩)] :=
  rfl

theorem ownerOf_registeredStore (sha256 : Bytes → BytesN) :
    (registeredStore sha256).ownerOf (assetIdAt sha256 7) = some ⟨4⟩ := by
  rw [Store.ownerOf, registeredStore, Store.withAsset_assets, Storage.get_set_self,
    Option.map_some]

theorem loanRun_fresh (sha256 : Bytes → BytesN) (borrower : Address) :
    ∀ e ∈ history sha256 (loanRun sha256 borrower), FreshRegistration sha256 e := by
  rw [history_loanRun]
  simp only [List.mem_cons, List.not_mem_nil, or_false, forall_eq_or_imp, forall_eq]
  refine ⟨?_, ?_, ?_⟩
  · intro h
    rcases h with ⟨owner, animalType, tagId, appraisedValueXlm, s', hcall, -⟩
    cases hcall
  · intro _
    exact Storage.get_empty _
  · intro h
    rcases h with ⟨owner, animalType, tagId, appraisedValueXlm, s', hcall, -⟩
    cases hcall

/-- The state after that run, with the loan under the given id. -/
def openedStore (sha256 : Bytes → BytesN) (borrower : Address) (loanId : BytesN) : Store :=
  (((registeredStore sha256).withAsset (assetIdAt sha256 7)
    ⟨⟨4⟩, "cow", "A1", 1000, true⟩).withCounter 1).withLoan loanId
      ⟨borrower, assetIdAt sha256 7, 100, 105, 9, 9, true⟩

theorem openLoan_registeredStore (sha256 : Bytes → BytesN) (borrower : Address) :
    openLoan sha256 borrower (assetIdAt sha256 7) 100 (.signedBy 9 [borrower])
        (registeredStore sha256) =
      .ok (newLoanId sha256 9 (assetIdAt sha256 7) 1,
        openedStore sha256 borrower (newLoanId sha256 9 (assetIdAt sha256 7) 1)) := by
  apply openLoan_eq_ok.mpr
  refine ⟨sampleConfig, ⟨⟨4⟩, "cow", "A1", 1000, false⟩, 105, 1, ?_, rfl, rfl, rfl, rfl⟩
  refine ⟨rfl, ?_, Storage.get_set_self _ _ _, rfl, 6000000, 600, rfl, rfl, by decide⟩
  exact Env.authorized_signedBy 9 borrower

theorem final_loanRun (sha256 : Bytes → BytesN) (borrower : Address) :
    Run.final (step (exec sha256)) Store.empty (loanRun sha256 borrower) =
      openedStore sha256 borrower (newLoanId sha256 9 (assetIdAt sha256 7) 1) := by
  apply step_of_ok
  rw [exec, Call.bind_eq_ok]
  exact ⟨_, _, openLoan_registeredStore sha256 borrower, rfl⟩

/-- Under every hash, a stranger who signs for himself encumbers the animal. -/
theorem stranger_borrows : ¬ ∃ sha256 : Bytes → BytesN,
    (∀ e ∈ history sha256 (loanRun sha256 ⟨5⟩), FreshRegistration sha256 e) →
      OwnersBorrowAlong sha256 (loanRun sha256 ⟨5⟩) := by
  intro h
  rcases h with ⟨sha256, hrun⟩
  have hopened := (hrun (loanRun_fresh sha256 ⟨5⟩)).openedByOwners
  rw [OpenedByOwners, history_loanRun] at hopened
  simp only [List.mem_cons, List.not_mem_nil, or_false, forall_eq_or_imp, forall_eq] at hopened
  have howner := hopened.2.2 ⟨5⟩ (assetIdAt sha256 7) 100
    ⟨_, _, rfl, openLoan_registeredStore sha256 ⟨5⟩⟩
  rw [ownerOf_registeredStore] at howner
  cases howner

theorem ownerRun_borrows : OwnersBorrowAlong BytesN.mk (loanRun BytesN.mk ⟨4⟩) := by
  apply (ownersBorrow_iff _ (loanRun_fresh BytesN.mk ⟨4⟩)).mpr
  rw [OpenedByOwners, history_loanRun]
  simp only [List.mem_cons, List.not_mem_nil, or_false, forall_eq_or_imp, forall_eq]
  refine ⟨?_, ?_, ?_⟩
  · intro borrower assetId principalStroops h
    rcases h with ⟨id, s', hcall, -⟩
    cases hcall
  · intro borrower assetId principalStroops h
    rcases h with ⟨id, s', hcall, -⟩
    cases hcall
  · intro borrower assetId principalStroops h
    rcases h with ⟨id, s', hcall, -⟩
    cases hcall
    exact ownerOf_registeredStore BytesN.mk

end StellarKraal
end Kraal
