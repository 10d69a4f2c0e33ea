import Kraal.CarbonOracle.CommitReveal

/-!
# The deviation that trips the circuit breaker

An accepted price trips the breaker if it differs from the stored one by more than the whole
of it.  The difference and the absolute value are clamped to 64 bits before they are compared.
Where both of them are clamped to the largest value, or the stored price is the largest value
itself, a difference that is too large for 64 bits is not told from one that is not.

Main results:

- Theorem {lit}`deviates_iff`: the comparison in exact arithmetic, and where it fails.
- Theorem {lit}`trips_exactly_iff`: when an accepted price trips the breaker exactly.
- Theorem {lit}`deviation_unnoticed`: a price that should trip the breaker and does not.
-/

namespace Kraal
namespace CarbonOracle

open Foundation

/-! ## The comparison -/

/-- A value differs from the previous one by more than the whole of it, in exact arithmetic. -/
def ExceedsWhole (previous outputValue : I64) : Prop :=
  |outputValue.toInt - previous.toInt| > |previous.toInt|

/-- The previous value is as far from zero as the type allows, and the new one is on the other
side of zero. -/
def CrossesAtLimit (previous outputValue : I64) : Prop :=
  previous.toInt = 2 ^ 63 - 1 ∧ outputValue.toInt < 0 ∨
    previous.toInt ≤ -(2 ^ 63 - 1) ∧ 0 < outputValue.toInt

theorem i64_bounds (a : I64) : -2 ^ 63 ≤ a.toInt ∧ a.toInt ≤ 2 ^ 63 - 1 :=
  ⟨a.lo_le, a.le_hi⟩

/-- The clamped distance between two values. -/
theorem toInt_delta (previous outputValue : I64) :
    (if outputValue ≥ previous then outputValue.saturatingSub previous
      else previous.saturatingSub outputValue).toInt =
      min |outputValue.toInt - previous.toInt| (2 ^ 63 - 1) := by
  split
  · rename_i hge
    have hle : previous.toInt ≤ outputValue.toInt := hge
    rw [MInt.toInt_saturatingSub, abs_of_nonneg (sub_nonneg.mpr hle)]
    change max (-2 ^ 63) (min _ (2 ^ 63 - 1)) = _
    omega
  · rename_i hge
    have hlt : outputValue.toInt < previous.toInt := not_le.mp hge
    rw [MInt.toInt_saturatingSub, abs_of_neg (sub_neg.mpr hlt), neg_sub]
    change max (-2 ^ 63) (min _ (2 ^ 63 - 1)) = _
    omega

/-- The clamped absolute value. -/
theorem toInt_baseline (previous : I64) :
    (if previous < 0 then previous.saturatingNeg else previous).toInt =
      min |previous.toInt| (2 ^ 63 - 1) := by
  have hbounds := i64_bounds previous
  split
  · rename_i hneg
    have hlt : previous.toInt < 0 := by simpa using hneg
    rw [abs_of_neg hlt]
    change max (-2 ^ 63) (min (-previous.toInt) (2 ^ 63 - 1)) = _
    omega
  · rename_i hneg
    have hle : 0 ≤ previous.toInt := by simpa using hneg
    rw [abs_of_nonneg hle]
    omega

/-- The comparison of the contract, in exact arithmetic. -/
theorem deviates_eq (previous outputValue : I64) : Deviates previous outputValue ↔
    0 < min |previous.toInt| (2 ^ 63 - 1) ∧
      min |previous.toInt| (2 ^ 63 - 1) <
        min |outputValue.toInt - previous.toInt| (2 ^ 63 - 1) := by
  unfold Deviates
  simp only [gt_iff_lt]
  rw [mul_lt_mul_iff_left₀ (by decide : (0 : Int) < 10000), MInt.lt_def (0 : I64), toInt_delta,
    toInt_baseline, MInt.toInt_zero]

/-- A value on the other side of zero exceeds the whole of the previous one. -/
theorem CrossesAtLimit.exceedsWhole {previous outputValue : I64}
    (h : CrossesAtLimit previous outputValue) : ExceedsWhole previous outputValue := by
  rcases h with ⟨hprevious, hvalue⟩ | ⟨hprevious, hvalue⟩
  · rw [ExceedsWhole, abs_of_neg (by omega), abs_of_pos (by omega)]
    omega
  · rw [ExceedsWhole, abs_of_pos (by omega), abs_of_neg (by omega)]
    omega

/-- The comparison notices every value that exceeds the whole of the previous one, except on
the other side of zero from a value at the limit. -/
theorem deviates_iff {previous outputValue : I64} (hprevious : previous.toInt ≠ 0) :
    Deviates previous outputValue ↔
      ExceedsWhole previous outputValue ∧ ¬ CrossesAtLimit previous outputValue := by
  have hbounds := i64_bounds previous
  have hbounds' := i64_bounds outputValue
  rw [deviates_eq, ExceedsWhole, CrossesAtLimit]
  rcases abs_cases previous.toInt with ⟨hbase, hsign⟩ | ⟨hbase, hsign⟩ <;>
    rcases abs_cases (outputValue.toInt - previous.toInt) with ⟨hdelta, hside⟩ | ⟨hdelta, hside⟩ <;>
    rw [hbase, hdelta] <;> omega

/-- The comparison is exact unless the value crosses zero from the limit. -/
theorem deviates_exact_iff {previous outputValue : I64} (hprevious : previous.toInt ≠ 0) :
    (Deviates previous outputValue ↔ ExceedsWhole previous outputValue) ↔
      ¬ CrossesAtLimit previous outputValue := by
  rw [deviates_iff hprevious]
  constructor
  · intro hexact hcrosses
    exact (hexact.mpr hcrosses.exceedsWhole).2 hcrosses
  · intro hnot
    exact and_iff_left hnot

/-! ## The breaker -/

variable {crypto : Crypto} {env : Env} {s s' : Store} {oracle : Address} {c : Computation}
  {feedId signature : BytesN} {ipfsCid : Option Bytes} {previous : PriceEntry}

/-- An accepted price leaves the breaker tripped exactly if it deviates from the stored one. -/
theorem submitPrice_trips_iff (hstored : s.feeds.get feedId = some previous)
    (hok : submitPrice crypto oracle c feedId signature ipfsCid env s = .ok ((), s')) :
    s'.circuitState = .tripped ↔ Deviates previous.outputValue c.outputValue := by
  rcases submitPrice_eq_ok.mp hok with ⟨cfg, cid, -, hactive, -, -, -, rfl⟩
  rw [Store.afterDeviation, hstored]
  by_cases hdeviates : Deviates previous.outputValue c.outputValue
  · simp only [hdeviates, if_true, iff_true]
    rfl
  · simp only [hdeviates, if_false, iff_false]
    change s.circuitState ≠ .tripped
    rw [hactive]
    decide

/-- An accepted price trips the breaker exactly if it exceeds the whole of the stored one, as
long as it is not on the other side of zero from a stored price at the limit. -/
theorem trips_exactly_iff (hstored : s.feeds.get feedId = some previous)
    (hprevious : previous.outputValue.toInt ≠ 0)
    (hok : submitPrice crypto oracle c feedId signature ipfsCid env s = .ok ((), s')) :
    (s'.circuitState = .tripped ↔ ExceedsWhole previous.outputValue c.outputValue) ↔
      ¬ CrossesAtLimit previous.outputValue c.outputValue := by
  rw [submitPrice_trips_iff hstored hok]
  exact deviates_exact_iff hprevious

/-! ## A deviation that goes unnoticed -/

/-- The signature of a computation for the sample feed under the plain scheme. -/
def plainSignature (c : Computation) : BytesN :=
  ⟨sampleKey.toArray ++ buildPayload schemaVersion c sampleFeed⟩

/-- A computation with the given value. -/
def valueComputation (outputValue : I64) : Computation := ⟨sampleKey, sampleKey, outputValue, 100⟩

/-- A call that submits it with its signature. -/
def submitValue (sequence : U32) (outputValue : I64) : Invocation Op :=
  ⟨.signedBy sequence [⟨9⟩], .submitPrice ⟨9⟩ (valueComputation outputValue) sampleFeed
    (plainSignature (valueComputation outputValue)) none⟩

/-- The state after a first price was submitted. -/
def pricedStore (outputValue : I64) : Store :=
  (Store.empty.withConfig sampleConfig).withFeed sampleFeed
    ((valueComputation outputValue).entry 5 [])

/-- The state after the next one. -/
def repricedStore (s : Store) (outputValue : I64) : Store :=
  (s.afterDeviation sampleFeed outputValue).withFeed sampleFeed
    ((valueComputation outputValue).entry 6 [])

theorem submitValue_eq_ok {s : Store} (hcfg : s.config = some sampleConfig)
    (hactive : s.circuitState = .active) (sequence : U32) (outputValue : I64) :
    exec plainCrypto (submitValue sequence outputValue).call (submitValue sequence outputValue).env
      s = .ok ((), (s.afterDeviation sampleFeed outputValue).withFeed sampleFeed
        ((valueComputation outputValue).entry sequence [])) :=
  submitPrice_eq_ok.mpr ⟨sampleConfig, [], hcfg, hactive, Env.authorized_signedBy sequence ⟨9⟩,
    plainCrypto_verify _ _, ⟨rfl, Nat.zero_le _⟩, rfl⟩

theorem reachable_pricedStore (outputValue : I64) :
    Run.Reachable (step (exec plainCrypto)) Store.empty (pricedStore outputValue) := by
  refine ⟨[configure, submitValue 5 outputValue], ?_⟩
  rw [Run.final_cons, step_configure, Run.final_cons, Run.final_nil]
  exact (step_of_ok (submitValue_eq_ok (s := Store.empty.withConfig sampleConfig) rfl rfl 5
    outputValue)).symm

theorem pricedStore_stored (outputValue : I64) :
    (pricedStore outputValue).feeds.get sampleFeed =
      some ((valueComputation outputValue).entry 5 []) :=
  Storage.get_set_self _ _ _

theorem reprice_eq_ok (first second : I64) :
    submitPrice plainCrypto ⟨9⟩ (valueComputation second) sampleFeed
      (plainSignature (valueComputation second)) none (.signedBy 6 [⟨9⟩]) (pricedStore first) =
        .ok ((), repricedStore (pricedStore first) second) :=
  submitValue_eq_ok (s := pricedStore first) rfl rfl 6 second

/-- From a price of 100, one of 250 trips the breaker. -/
theorem hundred_trips_exactly :
    ((repricedStore (pricedStore 100) 250).circuitState = .tripped ↔ ExceedsWhole 100 250) ↔
      ¬ CrossesAtLimit 100 250 :=
  trips_exactly_iff (pricedStore_stored 100) (by decide) (reprice_eq_ok 100 250)

/-- Minus one after the largest price: the distance is one more than 64 bits hold, and the
breaker stays active. -/
theorem deviation_unnoticed : ¬ ∀ (crypto : Crypto) (env : Env) (s s' : Store) (oracle : Address)
    (c : Computation) (feedId signature : BytesN) (ipfsCid : Option Bytes) (previous : PriceEntry),
    Run.Reachable (step (exec crypto)) Store.empty s → s.feeds.get feedId = some previous →
    previous.outputValue.toInt ≠ 0 →
    submitPrice crypto oracle c feedId signature ipfsCid env s = .ok ((), s') →
    (s'.circuitState = .tripped ↔ ExceedsWhole previous.outputValue c.outputValue) := by
  intro h
  have hok := reprice_eq_ok (MInt.maxValue IntType.i64) ⟨-1, by decide, by decide⟩
  have htrips := h _ _ _ _ _ _ _ _ _ _ (reachable_pricedStore _) (pricedStore_stored _)
    (by decide) hok
  rw [submitPrice_trips_iff (pricedStore_stored _) hok] at htrips
  have hcrosses : CrossesAtLimit (MInt.maxValue IntType.i64) ⟨-1, by decide, by decide⟩ :=
    .inl ⟨rfl, by decide⟩
  exact (deviates_exact_iff (by decide)).mp htrips hcrosses

end CarbonOracle
end Kraal
