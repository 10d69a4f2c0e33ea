import Kraal.StellarKraal.AssetIds

/-!
# Oracle prices of StellarKraal

The price is the median of what three oracle addresses have stored.  The median of three
values lies between any two of them, so one oracle cannot carry it away from the other
two, as long as it fills one slot only.  The configuration does not ask for that.

Main results:

- Theorem {lit}`medianOf_between`: the median lies between the values of two slots.
- Theorem {lit}`getPrice_eq_ok`: when a price is returned, and which.
- Theorem {lit}`median_robust_iff`: one submission leaves the price between those of the
  other slots exactly if the oracle addresses are distinct.
- Theorem {lit}`one_oracle_moves_median`: an oracle that fills two slots.
-/

namespace Kraal
namespace StellarKraal

open Foundation

variable {sha256 : Bytes → BytesN}

/-! ## Slots -/

/-- The three oracle slots of the configuration. -/
inductive OracleSlot where
  | oracle1
  | oracle2
  | oracle3
deriving DecidableEq

/-- The address that fills a slot. -/
def Config.oracle (cfg : Config) : OracleSlot → Address
  | .oracle1 => cfg.oracle1
  | .oracle2 => cfg.oracle2
  | .oracle3 => cfg.oracle3

/-- The other two slots. -/
def OracleSlot.others : OracleSlot → OracleSlot × OracleSlot
  | .oracle1 => (.oracle2, .oracle3)
  | .oracle2 => (.oracle1, .oracle3)
  | .oracle3 => (.oracle1, .oracle2)

theorem OracleSlot.others_ne (slot : OracleSlot) :
    slot.others.1 ≠ slot ∧ slot.others.2 ≠ slot := by
  cases slot <;> decide

theorem Config.oracle_mem_iff {cfg : Config} {a : Address} :
    (a = cfg.oracle1 ∨ a = cfg.oracle2 ∨ a = cfg.oracle3) ↔ ∃ slot, a = cfg.oracle slot := by
  constructor
  · intro h
    rcases h with h | h | h
    · exact ⟨.oracle1, h⟩
    · exact ⟨.oracle2, h⟩
    · exact ⟨.oracle3, h⟩
  · intro h
    rcases h with ⟨slot, h⟩
    cases slot with
    | oracle1 => exact .inl h
    | oracle2 => exact .inr (.inl h)
    | oracle3 => exact .inr (.inr h)

/-! ## The median of three -/

/-- The conditional swaps compute the median. -/
theorem toInt_median3 (a b c : I128) :
    (median3 a b c).toInt =
      max (min a.toInt b.toInt) (min (max a.toInt b.toInt) c.toInt) := by
  unfold median3
  simp only [MInt.lt_def]
  by_cases hab : b.toInt < a.toInt
  · by_cases hca : c.toInt < a.toInt
    · simp only [hab, hca, if_true]
      split <;> omega
    · simp only [hab, hca, if_true, if_false]
      split <;> omega
  · by_cases hcb : c.toInt < b.toInt
    · simp only [hab, hcb, if_true, if_false]
      split <;> omega
    · simp only [hab, hcb, if_false]
      omega

/-- The median of the values in the three slots. -/
def medianOf (price : OracleSlot → I128) : I128 :=
  median3 (price .oracle1) (price .oracle2) (price .oracle3)

/-- The median lies between the values of any two slots. -/
theorem medianOf_between (price : OracleSlot → I128) (slot : OracleSlot) :
    min (price slot.others.1).toInt (price slot.others.2).toInt ≤ (medianOf price).toInt ∧
      (medianOf price).toInt ≤ max (price slot.others.1).toInt (price slot.others.2).toInt := by
  rw [medianOf, toInt_median3]
  cases slot with
  | oracle1 => simp only [OracleSlot.others]; omega
  | oracle2 => simp only [OracleSlot.others]; omega
  | oracle3 => simp only [OracleSlot.others]; omega

/-- Two slots with one value decide the median. -/
theorem medianOf_of_two {price : OracleSlot → I128} {slot slot' : OracleSlot} (hne : slot ≠ slot')
    {value : I128} (hslot : price slot = value) (hslot' : price slot' = value) :
    (medianOf price).toInt = value.toInt := by
  rw [medianOf, toInt_median3]
  cases slot <;> cases slot' <;> first | contradiction | (rw [hslot, hslot']; omega)

/-! ## Reading and submitting prices -/

/-- An entry is recent enough. -/
def PriceEntry.Fresh (cfg : Config) (sequence : U32) (entry : PriceEntry) : Prop :=
  sequence.saturatingSub entry.submittedAt ≤ cfg.maxPriceAgeLedgers

/-- An entry is recent in its own ledger. -/
theorem PriceEntry.fresh_now (cfg : Config) (sequence : U32) (price : I128) :
    PriceEntry.Fresh cfg sequence ⟨price, sequence⟩ := by
  have hage : (0 : Int) ≤ cfg.maxPriceAgeLedgers.toInt := cfg.maxPriceAgeLedgers.lo_le
  have hzero : (sequence.saturatingSub sequence).toInt = 0 := by
    rw [MInt.toInt_saturatingSub, sub_self]
    rfl
  rw [PriceEntry.Fresh, MInt.le_def, hzero]
  exact hage

/-- What the three slots hold when a price is returned. -/
structure PricesStored (s : Store) (cfg : Config) (sequence : U32)
    (entry : OracleSlot → PriceEntry) : Prop where
  config : s.config = some cfg
  stored : ∀ slot, s.prices.get (cfg.oracle slot) = some (entry slot)
  fresh : ∀ slot, (entry slot).Fresh cfg sequence

theorem getPrice_eq_ok {env : Env} {s : Store} {p : I128 × Store} :
    getPrice env s = .ok p ↔ ∃ cfg entry, PricesStored s cfg env.sequence entry ∧
      p = (medianOf fun slot => (entry slot).price, s) := by
  rcases p with ⟨m, s'⟩
  simp only [getPrice, getMedianPrice, Call.bind_eq_ok, requireConfig_eq_ok, Call.ask_eq_ok,
    Call.get_eq_ok, Call.okOr_eq_ok, Call.failIf_eq_ok, Call.pure_eq_ok, not_or, gt_iff_lt,
    MInt.lt_def, not_lt, Prod.mk.injEq, ↓existsAndEq, true_and, and_true, exists_const]
  constructor
  · intro h
    rcases h with ⟨cfg, hcfg, p1, h1, p2, h2, p3, h3, ⟨hf1, hf2, hf3⟩, rfl, rfl⟩
    refine ⟨cfg, fun | .oracle1 => p1 | .oracle2 => p2 | .oracle3 => p3, ⟨hcfg, ?_, ?_⟩, rfl, rfl⟩
    · intro slot
      cases slot with
      | oracle1 => exact h1
      | oracle2 => exact h2
      | oracle3 => exact h3
    · intro slot
      cases slot with
      | oracle1 => exact hf1
      | oracle2 => exact hf2
      | oracle3 => exact hf3
  · intro h
    rcases h with ⟨cfg, entry, hstored, rfl, rfl⟩
    exact ⟨cfg, hstored.config, _, hstored.stored .oracle1, _, hstored.stored .oracle2, _,
      hstored.stored .oracle3, ⟨hstored.fresh .oracle1, hstored.fresh .oracle2,
        hstored.fresh .oracle3⟩, rfl, rfl⟩

/-! ## One oracle against the median -/

/-- A price lies between the prices that two addresses have stored. -/
def BetweenStored (s : Store) (a b : Address) (price : I128) : Prop :=
  ∃ p q, s.prices.get a = some p ∧ s.prices.get b = some q ∧
    min p.price.toInt q.price.toInt ≤ price.toInt ∧ price.toInt ≤ max p.price.toInt q.price.toInt

/-- One submission by any oracle, in a ledger in which the price is returned, leaves it
returned, and in that and every later ledger between the stored prices of the other two
slots. -/
def MedianRobust (sha256 : Bytes → BytesN) (cfg : Config) : Prop :=
  ∀ s, Run.Reachable (step (exec sha256)) Store.empty s → s.config = some cfg →
    ∀ env, (getPrice).Succeeds env s → ∀ slot price s',
      submitPrice (cfg.oracle slot) price env s = .ok ((), s') →
      (getPrice).Succeeds env s' ∧ ∀ later m, getPrice later s' = .ok (m, s') →
        BetweenStored s (cfg.oracle slot.others.1) (cfg.oracle slot.others.2) m

/-- With distinct oracles, a submission writes one slot. -/
theorem PricesStored.submit {s : Store} {cfg : Config} {sequence : U32}
    {entry : OracleSlot → PriceEntry} (h : PricesStored s cfg sequence entry)
    (hdistinct : Function.Injective cfg.oracle) (slot : OracleSlot) (price : I128) :
    PricesStored { s with prices := s.prices.set (cfg.oracle slot) ⟨price, sequence⟩ } cfg sequence
      (Function.update entry slot ⟨price, sequence⟩) := by
  refine ⟨h.config, ?_, ?_⟩
  · intro slot'
    by_cases hsame : slot' = slot
    · subst hsame
      rw [Function.update_self]
      exact Storage.get_set_self _ _ _
    · rw [Function.update_of_ne hsame]
      change (s.prices.set _ _).get _ = _
      rw [Storage.get_set_of_ne _ _ fun heq => hsame (hdistinct heq)]
      exact h.stored slot'
  · intro slot'
    by_cases hsame : slot' = slot
    · subst hsame
      rw [Function.update_self]
      exact PriceEntry.fresh_now cfg sequence price
    · rw [Function.update_of_ne hsame]
      exact h.fresh slot'

/-- The stored entries do not depend on the ledger that reads them. -/
theorem PricesStored.entry_unique {s : Store} {cfg cfg' : Config} {sequence sequence' : U32}
    {entry entry' : OracleSlot → PriceEntry} (h : PricesStored s cfg sequence entry)
    (h' : PricesStored s cfg' sequence' entry') : entry = entry' := by
  have hcfg := h'.config
  rw [h.config, Option.some.injEq] at hcfg
  subst hcfg
  funext slot
  have hentry := h'.stored slot
  rw [h.stored slot, Option.some.injEq] at hentry
  exact hentry

theorem medianRobust_of_injective {cfg : Config} (hdistinct : Function.Injective cfg.oracle) :
    MedianRobust sha256 cfg := by
  intro s hs hcfg env hprice slot price s' hsubmit
  rcases hprice with ⟨p, hp⟩
  rcases getPrice_eq_ok.mp hp with ⟨cfg', entry, hstored, -⟩
  have hsame := hstored.config
  rw [hcfg, Option.some.injEq] at hsame
  subst hsame
  rcases submitPrice_eq_ok.mp hsubmit with ⟨cfg', hcfg', -, -, rfl⟩
  have hafter := hstored.submit hdistinct slot price
  refine ⟨⟨_, getPrice_eq_ok.mpr ⟨cfg, _, hafter, rfl⟩⟩, ?_⟩
  intro later m hm
  rcases getPrice_eq_ok.mp hm with ⟨cfg'', entry', hlater, hmedian⟩
  have hentry := hafter.entry_unique hlater
  subst hentry
  have hbetween := medianOf_between
    (fun slot' => (Function.update entry slot ⟨price, env.sequence⟩ slot').price) slot
  -- the other two slots still hold what they held
  rw [Function.update_of_ne slot.others_ne.1, Function.update_of_ne slot.others_ne.2] at hbetween
  rw [(Prod.mk.inj hmedian).1]
  exact ⟨_, _, hstored.stored slot.others.1, hstored.stored slot.others.2, hbetween⟩

/-! ## One oracle in two slots -/

/-- Every slot quotes zero in the first ledger. -/
def quotedStore (cfg : Config) : Store :=
  { Store.empty with
    config := some cfg
    prices := ((Storage.empty.set (cfg.oracle .oracle1) ⟨0, 1⟩).set (cfg.oracle .oracle2)
      ⟨0, 1⟩).set (cfg.oracle .oracle3) ⟨0, 1⟩ }

theorem quotedStore_stored (cfg : Config) :
    PricesStored (quotedStore cfg) cfg 1 fun _ => ⟨0, 1⟩ := by
  refine ⟨rfl, ?_, fun _ => PriceEntry.fresh_now cfg 1 0⟩
  intro slot
  simp only [quotedStore, Storage.get_set]
  cases slot with
  | oracle1 => simp [Config.oracle]
  | oracle2 => simp [Config.oracle]
  | oracle3 => simp [Config.oracle]

/-- The configuration is stored, and every oracle quotes zero. -/
def quotingRun (cfg : Config) : List (Invocation Op) :=
  ⟨.signedBy 1 [cfg.admin], .initializeContract cfg⟩ ::
    [OracleSlot.oracle1, .oracle2, .oracle3].map fun slot =>
      ⟨.signedBy 1 [cfg.oracle slot], .submitPrice (cfg.oracle slot) 0⟩

theorem submitPrice_slot {cfg : Config} {s : Store} (hcfg : s.config = some cfg) (slot : OracleSlot)
    (price : I128) :
    submitPrice (cfg.oracle slot) price (.signedBy 1 [cfg.oracle slot]) s =
      .ok ((), { s with prices := s.prices.set (cfg.oracle slot) ⟨price, 1⟩ }) := by
  refine submitPrice_eq_ok.mpr ⟨cfg, hcfg, Env.authorized_signedBy _ _, ?_, rfl⟩
  exact Config.oracle_mem_iff.mpr ⟨slot, rfl⟩

theorem quotedStore_reachable {cfg : Config} (haccepted : ConfigAccepted cfg) :
    Run.Reachable (step (exec sha256)) Store.empty (quotedStore cfg) := by
  have hsubmit : ∀ {s : Store}, s.config = some cfg → ∀ slot,
      step (exec sha256) s ⟨.signedBy 1 [cfg.oracle slot], .submitPrice (cfg.oracle slot) 0⟩ =
        { s with prices := s.prices.set (cfg.oracle slot) ⟨0, 1⟩ } :=
    fun hcfg slot => step_of_ok (submitPrice_slot hcfg slot 0)
  refine ⟨quotingRun cfg, ?_⟩
  rw [quotingRun, Run.final_cons, step_initializeContract haccepted 1, List.map_cons, List.map_cons,
    List.map_cons, List.map_nil, Run.final_cons, hsubmit rfl, Run.final_cons, hsubmit rfl,
    Run.final_cons, hsubmit rfl]
  rfl

/-- An oracle that fills two slots decides the median. -/
theorem injective_of_medianRobust {cfg : Config} (haccepted : ConfigAccepted cfg)
    (hrobust : MedianRobust sha256 cfg) : Function.Injective cfg.oracle := by
  intro slot slot' hsame
  by_contra hne
  have hquoted := quotedStore_stored cfg
  rcases hrobust (quotedStore cfg) (quotedStore_reachable haccepted) rfl
    (.signedBy 1 [cfg.oracle slot]) ⟨_, getPrice_eq_ok.mpr ⟨cfg, _, hquoted, rfl⟩⟩ slot 1 _
    (submitPrice_slot rfl slot 1) with ⟨⟨p, hp⟩, hbetween⟩
  rcases getPrice_eq_ok.mp hp with ⟨cfg', entry, hstored, rfl⟩
  have hcfg : some cfg = some cfg' := hstored.config
  rw [Option.some.injEq] at hcfg
  subst hcfg
  -- both slots read the new price
  have hslot := hstored.stored slot
  have hslot' := hstored.stored slot'
  rw [← hsame] at hslot'
  rw [Storage.get_set_self, Option.some.injEq] at hslot hslot'
  have hmedian : (medianOf fun slot => (entry slot).price).toInt = (1 : I128).toInt :=
    medianOf_of_two hne (congrArg PriceEntry.price hslot.symm)
      (congrArg PriceEntry.price hslot'.symm)
  rcases hbetween _ _ hp with ⟨q, q', hq, hq', -, hmax⟩
  rw [hquoted.stored, Option.some.injEq] at hq hq'
  subst hq
  subst hq'
  rw [hmedian] at hmax
  exact absurd hmax (by decide)

/-- Under an accepted configuration, no oracle can move the median by one submission
exactly when the three oracle addresses are distinct. -/
theorem median_robust_iff {cfg : Config} (haccepted : ConfigAccepted cfg) :
    MedianRobust sha256 cfg ↔ Function.Injective cfg.oracle := by
  constructor
  · exact injective_of_medianRobust haccepted
  · exact medianRobust_of_injective

/-- One oracle in the first two slots, which is accepted. -/
def sharedConfig : Config := { sampleConfig with oracle2 := sampleConfig.oracle1 }

/-- Under every hash, the oracle of that configuration moves the median. -/
theorem one_oracle_moves_median :
    ConfigAccepted sharedConfig ∧
      ¬ ∃ sha256 : Bytes → BytesN, MedianRobust sha256 sharedConfig := by
  have haccepted : ConfigAccepted sharedConfig := ⟨by decide, by decide, by decide⟩
  refine ⟨haccepted, ?_⟩
  intro h
  rcases h with ⟨sha256, hrobust⟩
  have hslots := @injective_of_medianRobust sha256 sharedConfig haccepted hrobust .oracle1 .oracle2
    rfl
  cases hslots

theorem sampleConfig_robust_iff :
    MedianRobust BytesN.mk sampleConfig ↔ Function.Injective sampleConfig.oracle :=
  median_robust_iff ⟨by decide, by decide, by decide⟩

end StellarKraal
end Kraal
