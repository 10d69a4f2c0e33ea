import Kraal.Foundation.Register
import Kraal.Foundation.Simulation
import Kraal.StellarKraal.Prices

/-!
# What the price feeds of StellarKraal decide

A submission writes the row of one oracle and nothing else, and only the price query reads
these rows.  So nothing that happens to a loan depends on them: the collateral is valued at
its appraisal.  The price itself is the median of what the three oracles have said last.

Main results:

- Theorem {lit}`exec_blind`: the other operations neither read nor write the prices.
- Theorem {lit}`prices_decide_nothing`: what a run leaves without its submissions.
- Theorem {lit}`price_attributed_iff`: when a price is returned after a run, and whose it is.
-/

namespace Kraal
namespace StellarKraal

open Foundation

variable {sha256 : Bytes → BytesN}

/-! ## Calls that are blind to the prices -/

/-- Replace all prices. -/
def Store.withPrices (s : Store) (prices : Storage Address PriceEntry) : Store :=
  { s with prices := prices }

/-- A call does the same whatever the prices are, and keeps them. -/
def Blind {α : Type} (c : KraalCall α) : Prop :=
  ∀ prices env, Call.Embeds (fun s : Store => s.withPrices prices) env c c

namespace Blind

variable {α β : Type}

/-- Returning a value does not look at prices. -/
theorem pure (a : α) : Blind (Pure.pure a : KraalCall α) := fun _ _ => .pure a

/-- Reading the environment does not look at prices. -/
theorem ask : Blind (Call.ask : KraalCall Env) := fun _ _ => .ask

/-- A check does not look at prices. -/
theorem failIf (p : Prop) [Decidable p] (e : Error) : Blind (Call.failIf p e : KraalCall Unit) :=
  fun _ _ => .failIf p e

/-- A value that may be missing does not look at prices. -/
theorem okOr (o : Option α) (e : Error) : Blind (Call.okOr o e : KraalCall α) :=
  fun _ _ => .okOr o e

/-- Two calls that do not look at prices, one after the other. -/
theorem bind {c : KraalCall α} {f : α → KraalCall β} (hc : Blind c) (hf : ∀ a, Blind (f a)) :
    Blind (c >>= f) :=
  fun prices env => (hc prices env).bind fun a => hf a prices env

/-- A choice between two calls that do not look at prices. -/
theorem ite {p : Prop} [Decidable p] {c c' : KraalCall α} (hc : Blind c) (hc' : Blind c') :
    Blind (if p then c else c') :=
  fun prices env => (hc prices env).ite (hc' prices env)

/-- A continuation of a read that does not look at the prices. -/
theorem get_bind {f : Store → KraalCall α} (hf : ∀ s, Blind (f s))
    (hread : ∀ s prices, f (s.withPrices prices) = f s) : Blind (Call.get >>= f) := by
  intro prices env
  apply Call.Embeds.get_bind
  intro s
  rw [hread]
  exact hf s prices env

/-- An update that does not look at the prices. -/
theorem modify {f : Store → Store}
    (hf : ∀ s prices, f (s.withPrices prices) = (f s).withPrices prices) :
    Blind (Call.modify f : KraalCall Unit) :=
  fun prices _ => .modify fun s => hf s prices

/-- The check of an authorisation does not look at prices. -/
theorem requireAuth (a : Address) : Blind (Kraal.requireAuth a : KraalCall Unit) :=
  fun _ _ => .bind .ask fun _ => .assert _

end Blind

/-- Reading the configuration does not look at prices. -/
theorem requireConfig_blind : Blind requireConfig :=
  .get_bind (fun _ => .okOr _ _) fun _ _ => rfl

/-- The initialisation does not look at prices. -/
theorem initializeContract_blind (cfg : Config) : Blind (initializeContract cfg) :=
  .get_bind (fun _ => .bind (.failIf _ _) fun _ => .bind (.failIf _ _) fun _ =>
    .bind (.failIf _ _) fun _ => .bind (.requireAuth _) fun _ => .modify fun _ _ => rfl)
    fun _ _ => rfl

/-- Registering an asset does not look at prices. -/
theorem registerAsset_blind (owner : Address) (animalType tagId : Symbol)
    (appraisedValueXlm : I128) :
    Blind (registerAsset sha256 owner animalType tagId appraisedValueXlm) :=
  .bind requireConfig_blind fun _ => .bind (.requireAuth _) fun _ => .bind .ask fun _ =>
    .bind (.modify fun _ _ => rfl) fun _ => .pure _

/-- Opening a loan does not look at prices. -/
theorem openLoan_blind (borrower : Address) (assetId : BytesN) (principalStroops : I128) :
    Blind (openLoan sha256 borrower assetId principalStroops) := by
  refine .bind requireConfig_blind fun cfg => .bind (.requireAuth _) fun _ => ?_
  refine .get_bind (fun s => ?_) fun _ _ => rfl
  refine .bind (.okOr _ _) fun asset => .bind (.failIf _ _) fun _ => ?_
  refine .bind (.okOr _ _) fun scaled => .bind (.okOr _ _) fun maxPrincipal => ?_
  refine .bind (.failIf _ _) fun _ => .bind .ask fun env => ?_
  refine .bind (.okOr _ _) fun balance => .bind (.okOr _ _) fun nonce => ?_
  refine .bind (.modify fun _ _ => rfl) fun _ => .bind (.modify fun _ _ => rfl) fun _ => ?_
  exact .bind (.modify fun _ _ => rfl) fun _ => .pure _

/-- Reading a loan does not look at prices. -/
theorem loadActiveLoan_blind (loanId : BytesN) : Blind (loadActiveLoan loanId) :=
  .get_bind (fun _ => .bind (.okOr _ _) fun _ => .bind (.failIf _ _) fun _ => .pure _)
    fun _ _ => rfl

/-- Interest does not look at prices. -/
theorem accrue_blind (balance rateBps ledgers : I128) : Blind (accrue balance rateBps ledgers) :=
  .bind (.okOr _ _) fun _ => .bind (.okOr _ _) fun _ => .bind (.okOr _ _) fun _ =>
    .bind (.okOr _ _) fun _ => .okOr _ _

/-- Interest on a loan does not look at prices. -/
theorem accrueLoan_blind (cfg : Config) (loan : Loan) : Blind (accrueLoan cfg loan) :=
  .bind .ask fun _ => .bind (accrue_blind _ _ _) fun _ => .pure _

/-- Closing a loan does not look at prices. -/
theorem closeLoan_blind (loanId : BytesN) (loan : Loan) : Blind (closeLoan loanId loan) :=
  .get_bind (fun _ => .bind (.okOr _ _) fun _ => .bind (.modify fun _ _ => rfl) fun _ =>
    .modify fun _ _ => rfl) fun _ _ => rfl

/-- A repayment does not look at prices. -/
theorem applyRepayment_blind (loanId : BytesN) (loan : Loan) (repaymentStroops : I128) :
    Blind (applyRepayment loanId loan repaymentStroops) :=
  .ite (.bind (closeLoan_blind _ _) fun _ => .pure _)
    (.bind (.modify fun _ _ => rfl) fun _ => .pure _)

/-- Repaying a loan does not look at prices. -/
theorem repayLoan_blind (caller : Address) (loanId : BytesN) (repaymentStroops : I128) :
    Blind (repayLoan caller loanId repaymentStroops) :=
  .bind requireConfig_blind fun _ => .bind (.requireAuth _) fun _ =>
    .bind (loadActiveLoan_blind _) fun _ => .bind (accrueLoan_blind _ _) fun _ =>
      applyRepayment_blind _ _ _

/-- The health of a loan does not look at prices. -/
theorem healthFactorInner_blind (cfg : Config) (loan : Loan) :
    Blind (healthFactorInner cfg loan) :=
  .ite (.pure _) (.get_bind (fun _ => .bind (.okOr _ _) fun _ => .bind (.okOr _ _) fun _ =>
    .bind (.okOr _ _) fun _ => .bind (.okOr _ _) fun _ => .okOr _ _) fun _ _ => rfl)

/-- A liquidation does not look at prices. -/
theorem liquidate_blind (liquidator : Address) (loanId : BytesN) :
    Blind (liquidate liquidator loanId) := by
  refine .bind requireConfig_blind fun cfg => .bind (.requireAuth _) fun _ => ?_
  refine .bind (loadActiveLoan_blind _) fun loaded => .bind (accrueLoan_blind _ _) fun loan => ?_
  refine .bind (healthFactorInner_blind _ _) fun hf => .bind (.failIf _ _) fun _ => ?_
  refine .bind (.okOr _ _) fun bonus => .bind (.okOr _ _) fun scaled => ?_
  exact .bind (.okOr _ _) fun seized => .bind (closeLoan_blind _ _) fun _ => .pure _

/-- The view of the health does not look at prices. -/
theorem healthFactor_blind (loanId : BytesN) : Blind (healthFactor loanId) :=
  .bind requireConfig_blind fun _ => .get_bind (fun _ => .bind (.okOr _ _) fun _ =>
    healthFactorInner_blind _ _) fun _ _ => rfl

/-- Reading an asset does not look at prices. -/
theorem getAsset_blind (assetId : BytesN) : Blind (getAsset assetId) :=
  .bind requireConfig_blind fun _ => .get_bind (fun _ => .okOr _ _) fun _ _ => rfl

/-- Reading a loan does not look at prices. -/
theorem getLoan_blind (loanId : BytesN) : Blind (getLoan loanId) :=
  .bind requireConfig_blind fun _ => .get_bind (fun _ => .okOr _ _) fun _ _ => rfl

/-- A submission is accepted or refused whatever the prices are. -/
theorem submitPrice_returnsAlike (oracle : Address) (price : I128)
    (prices : Storage Address PriceEntry) (env : Env) :
    Call.ReturnsAlike (fun s : Store => s.withPrices prices) env (submitPrice oracle price)
      (submitPrice oracle price) := by
  apply (requireConfig_blind prices env).bind_returnsAlike
  intro cfg
  apply (Blind.requireAuth oracle prices env).bind_returnsAlike
  intro _
  apply (Blind.failIf _ _ prices env).bind_returnsAlike
  intro _
  apply (Blind.ask prices env).bind_returnsAlike
  intro now
  exact .modify _ _

/-! ## Runs without their submissions -/

/-- An operation submits a price. -/
def Op.submits : Op → Bool
  | .submitPrice _ _ => true
  | _ => false

/-- The operations that submit no price neither read nor write the prices. -/
theorem exec_blind {op : Op} (h : op.submits = false) : Blind (exec sha256 op) := by
  cases op with
  | initializeContract cfg => exact initializeContract_blind cfg
  | registerAsset owner animalType tagId appraisedValueXlm =>
      exact .bind (registerAsset_blind _ _ _ _) fun _ => .pure _
  | openLoan borrower assetId principalStroops =>
      exact .bind (openLoan_blind _ _ _) fun _ => .pure _
  | repayLoan caller loanId repaymentStroops =>
      exact .bind (repayLoan_blind _ _ _) fun _ => .pure _
  | liquidate liquidator loanId => exact .bind (liquidate_blind _ _) fun _ => .pure _
  | submitPrice oracle price => cases h

/-- A submission leaves everything but the prices alone. -/
theorem step_submitPrice (s : Store) (i : Invocation Op) (h : i.call.submits = true) :
    (step (exec sha256) s i).withPrices Storage.empty = s.withPrices Storage.empty := by
  apply step_induction (P := fun t : Store =>
    t.withPrices Storage.empty = s.withPrices Storage.empty) rfl
  intro s' hok
  rcases i with ⟨env, call⟩
  cases call with
  | submitPrice oracle price =>
      rcases submitPrice_eq_ok.mp hok with ⟨cfg, -, -, -, rfl⟩
      rfl
  | _ => cases h

/-- A step that submits no price does the same whatever the prices are. -/
theorem step_withPrices (s : Store) (i : Invocation Op) (h : i.call.submits = false)
    (prices : Storage Address PriceEntry) :
    step (exec sha256) (s.withPrices prices) i = (step (exec sha256) s i).withPrices prices :=
  (exec_blind h prices i.env).commit s

/-- A step without its prices is that of the contract without prices. -/
theorem blind_step (sha256 : Bytes → BytesN) (s : Store) (i : Invocation Op) :
    (step (exec sha256) s i).withPrices Storage.empty =
      (((if i.call.submits then none else some i).map
        (step (exec sha256) (s.withPrices Storage.empty))).getD (s.withPrices Storage.empty)) := by
  cases h : i.call.submits with
  | true => exact step_submitPrice s i h
  | false => exact (step_withPrices s i h Storage.empty).symm

/-- The store without its prices goes through the steps that submit none. -/
def blindProjection (sha256 : Bytes → BytesN) :
    Run.Projection (step (exec sha256)) (step (exec sha256)) where
  part s := s.withPrices Storage.empty
  shown e := if e.2.call.submits then none else some e.2
  part_step := blind_step sha256

/-- A run without its submissions. -/
def withoutSubmissions (run : List (Invocation Op)) : List (Invocation Op) :=
  run.filter fun i => !i.call.submits

/-- The contract without prices sees all calls but the submissions. -/
theorem inputs_blindProjection (s : Store) (run : List (Invocation Op)) :
    (blindProjection sha256).inputs s run = withoutSubmissions run := by
  induction run generalizing s with
  | nil => rfl
  | cons i run ih =>
      have hrest := ih (step (exec sha256) s i)
      unfold Run.Projection.inputs withoutSubmissions at hrest ⊢
      rw [Run.trace_cons, List.filter_cons, List.filterMap_cons, hrest]
      cases h : i.call.submits with
      | true => simp [blindProjection, h]
      | false => simp [blindProjection, h]

/-- Two stores return the same from every call, the price query apart. -/
structure AnswersAlike (sha256 : Bytes → BytesN) (s t : Store) : Prop where
  initializeContract : ∀ cfg env,
    (initializeContract cfg).returned env s = (initializeContract cfg).returned env t
  registerAsset : ∀ owner animalType tagId appraisedValueXlm env,
    (registerAsset sha256 owner animalType tagId appraisedValueXlm).returned env s =
      (registerAsset sha256 owner animalType tagId appraisedValueXlm).returned env t
  openLoan : ∀ borrower assetId principalStroops env,
    (openLoan sha256 borrower assetId principalStroops).returned env s =
      (openLoan sha256 borrower assetId principalStroops).returned env t
  repayLoan : ∀ caller loanId repaymentStroops env,
    (repayLoan caller loanId repaymentStroops).returned env s =
      (repayLoan caller loanId repaymentStroops).returned env t
  liquidate : ∀ liquidator loanId env,
    (liquidate liquidator loanId).returned env s = (liquidate liquidator loanId).returned env t
  submitPrice : ∀ oracle price env,
    (submitPrice oracle price).returned env s = (submitPrice oracle price).returned env t
  healthFactor : ∀ loanId env,
    (healthFactor loanId).returned env s = (healthFactor loanId).returned env t
  getAsset : ∀ assetId env, (getAsset assetId).returned env s = (getAsset assetId).returned env t
  getLoan : ∀ loanId env, (getLoan loanId).returned env s = (getLoan loanId).returned env t
  getConfig : ∀ env, getConfig.returned env s = getConfig.returned env t

/-- The prices that are stored decide no other answer. -/
theorem answersAlike_withPrices (t : Store) (prices : Storage Address PriceEntry) :
    AnswersAlike sha256 (t.withPrices prices) t where
  initializeContract _ env := (initializeContract_blind _ prices env).returnsAlike t
  registerAsset _ _ _ _ env := (registerAsset_blind _ _ _ _ prices env).returnsAlike t
  openLoan _ _ _ env := (openLoan_blind _ _ _ prices env).returnsAlike t
  repayLoan _ _ _ env := (repayLoan_blind _ _ _ prices env).returnsAlike t
  liquidate _ _ env := (liquidate_blind _ _ prices env).returnsAlike t
  submitPrice oracle price env := submitPrice_returnsAlike oracle price prices env t
  healthFactor _ env := (healthFactor_blind _ prices env).returnsAlike t
  getAsset _ env := (getAsset_blind _ prices env).returnsAlike t
  getLoan _ env := (getLoan_blind _ prices env).returnsAlike t
  getConfig env := (requireConfig_blind prices env).returnsAlike t

/-- After every run the contract holds the assets and loans, and returns from every call but
the price query, what it would have without the submissions of the run. -/
theorem prices_decide_nothing (sha256 : Bytes → BytesN) (run : List (Invocation Op)) :
    let s := Run.final (step (exec sha256)) Store.empty run
    let t := Run.final (step (exec sha256)) Store.empty (withoutSubmissions run)
    s.withPrices Storage.empty = t ∧ AnswersAlike sha256 s t := by
  intro s t
  have hpart : s.withPrices Storage.empty = t := by
    have hfinal := (blindProjection sha256).part_final Store.empty run
    rw [inputs_blindProjection] at hfinal
    exact hfinal
  refine ⟨hpart, ?_⟩
  rw [← hpart]
  exact answersAlike_withPrices (s.withPrices Storage.empty) s.prices

/-! ## The last word of an oracle -/

/-- The entry that a step stores for an oracle. -/
def submittedBy (oracle : Address) (e : Store × Invocation Op) : Option PriceEntry :=
  match e.2.call with
  | .submitPrice submitter price =>
      if submitter = oracle ∧ (submitPrice submitter price).Succeeds e.2.env e.1 then
        some ⟨price, e.2.env.sequence⟩
      else none
  | _ => none

/-- A call that submits nothing is no word of an oracle. -/
theorem submittedBy_of_not_submits {oracle : Address} {e : Store × Invocation Op}
    (h : e.2.call.submits = false) : submittedBy oracle e = none := by
  unfold submittedBy
  split
  · next hcall =>
      rw [hcall] at h
      cases h
  · rfl

/-- What a step does to the row of an oracle. -/
theorem price_step (sha256 : Bytes → BytesN) (oracle : Address) (s : Store) (i : Invocation Op) :
    (step (exec sha256) s i).prices.get oracle =
      (submittedBy oracle (s, i)).or (s.prices.get oracle) := by
  cases hsubmits : i.call.submits with
  | false =>
      have hkept : step (exec sha256) s i = (step (exec sha256) s i).withPrices s.prices :=
        step_withPrices s i hsubmits s.prices
      rw [submittedBy_of_not_submits hsubmits, Option.none_or]
      rw [hkept]
      rfl
  | true =>
      rcases i with ⟨env, call⟩
      cases call with
      | submitPrice submitter price =>
          by_cases hsucceeds : (submitPrice submitter price).Succeeds env s
          · have hreturns := hsucceeds
            rcases hsucceeds with ⟨⟨⟨⟩, s'⟩, hok⟩
            have hstep : step (exec sha256) s ⟨env, .submitPrice submitter price⟩ = s' :=
              step_of_ok hok
            rw [hstep]
            rcases submitPrice_eq_ok.mp hok with ⟨cfg, -, -, -, rfl⟩
            by_cases hsame : submitter = oracle
            · subst hsame
              simp [submittedBy, hreturns]
            · simp [submittedBy, hsame, Storage.get_set, Ne.symm hsame]
          · have hstep : step (exec sha256) s ⟨env, .submitPrice submitter price⟩ = s :=
              step_of_not_succeeds hsucceeds
            rw [hstep]
            simp [submittedBy, hsucceeds]
      | _ => cases hsubmits

/-- The row of an oracle. -/
def priceRegister (sha256 : Bytes → BytesN) (oracle : Address) :
    Register (step (exec sha256)) PriceEntry where
  read s := s.prices.get oracle
  written := submittedBy oracle
  read_step := price_step sha256 oracle

/-- A step stores the price of an oracle, which has authorized it. -/
def Submits (oracle : Address) (entry : PriceEntry) (e : Store × Invocation Op) : Prop :=
  e.2.call = .submitPrice oracle entry.price ∧ e.2.env.sequence = entry.submittedAt ∧
    e.2.env.authorized oracle = true ∧ (submitPrice oracle entry.price).Succeeds e.2.env e.1

/-- The price that a call submits for an oracle. -/
theorem submittedBy_eq_some {oracle : Address} {e : Store × Invocation Op} {entry : PriceEntry} :
    submittedBy oracle e = some entry ↔ Submits oracle entry e := by
  rcases e with ⟨s, ⟨env, call⟩⟩
  rcases entry with ⟨price, submittedAt⟩
  have hauth : ∀ price, (submitPrice oracle price).Succeeds env s →
      env.authorized oracle = true := by
    intro price h
    rcases h with ⟨⟨⟨⟩, s'⟩, hok⟩
    rcases submitPrice_eq_ok.mp hok with ⟨cfg, -, hauth, -⟩
    exact hauth
  cases call with
  | submitPrice submitter price' =>
      simp only [submittedBy, Submits, Op.submitPrice.injEq, Option.ite_none_right_eq_some,
        Option.some.injEq, PriceEntry.mk.injEq]
      constructor
      · intro h
        rcases h with ⟨⟨rfl, hsucceeds⟩, rfl, rfl⟩
        exact ⟨⟨rfl, rfl⟩, rfl, hauth _ hsucceeds, hsucceeds⟩
      · intro h
        rcases h with ⟨⟨rfl, rfl⟩, rfl, -, hsucceeds⟩
        exact ⟨⟨rfl, hsucceeds⟩, rfl, rfl⟩
  | _ => simp [submittedBy, Submits]

/-- An oracle has said something last: a step of its own that no later one has replaced. -/
def LastWord (oracle : Address) (entry : PriceEntry) (past : List (Store × Invocation Op)) : Prop :=
  Run.Since (Submits oracle entry) (fun e => ∃ later, Submits oracle later e) past

/-- The price that is stored is the last word of its oracle. -/
theorem prices_get_iff (sha256 : Bytes → BytesN) (run : List (Invocation Op)) (oracle : Address)
    (entry : PriceEntry) :
    (Run.final (step (exec sha256)) Store.empty run).prices.get oracle = some entry ↔
      LastWord oracle entry (history sha256 run) := by
  have hinit : (priceRegister sha256 oracle).read Store.empty = none := rfl
  have h := @Register.read_iff_since _ _ _ _ (priceRegister sha256 oracle) _ hinit run entry
  simp only [priceRegister, Option.isSome_iff_exists, submittedBy_eq_some] at h
  exact h

/-- A price is returned after a run exactly if the last words of the three oracles are all
recent enough and it is their median. -/
theorem price_attributed_iff (sha256 : Bytes → BytesN) (run : List (Invocation Op)) (env : Env)
    (price : I128) :
    let s := Run.final (step (exec sha256)) Store.empty run
    getPrice.returned env s = .ok price ↔ ∃ cfg, ∃ entry : OracleSlot → PriceEntry,
      s.config = some cfg ∧
      (∀ slot, LastWord (cfg.oracle slot) (entry slot) (history sha256 run) ∧
        (entry slot).Fresh cfg env.sequence) ∧
      price = medianOf fun slot => (entry slot).price := by
  intro s
  rw [Call.returned_eq_ok]
  simp only [getPrice_eq_ok, Prod.mk.injEq]
  constructor
  · intro h
    rcases h with ⟨-, cfg, entry, hstored, hprice, -⟩
    refine ⟨cfg, entry, hstored.config, ?_, hprice⟩
    intro slot
    exact ⟨(prices_get_iff sha256 run _ _).mp (hstored.stored slot), hstored.fresh slot⟩
  · intro h
    rcases h with ⟨cfg, entry, hcfg, hslots, rfl⟩
    refine ⟨s, cfg, entry, ⟨hcfg, ?_, fun slot => (hslots slot).2⟩, rfl, rfl⟩
    intro slot
    exact (prices_get_iff sha256 run _ _).mpr (hslots slot).1

end StellarKraal
end Kraal
