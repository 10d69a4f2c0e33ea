import Kraal.CarbonOracle.CommitReveal
import Kraal.Foundation.Register

/-!
# The order of attestations

The stored price of a feed is a register that every accepted attestation overwrites, by a
submission or by a reveal.  Neither of them compares the time of the computation with the
stored one, and a signature stays valid, so the order in which attestations arrive decides
whether a feed goes back in time.

Main results:

- Definition {lit}`feedRegister`: the stored price of a feed as a register.
- Theorem {lit}`attestedPrice_signed`: what is written has been signed.
- Theorem {lit}`no_rollback_iff`: when no attestation replaces a newer one.
- Theorem {lit}`replay_rolls_back`: a feed that goes back to a price accepted earlier.
-/

namespace Kraal
namespace CarbonOracle

open Foundation

variable {crypto : Crypto}

/-! ## The price of a feed as a register -/

/-- The price that an operation writes for a feed if it returns. -/
def Op.price (feedId : BytesN) (recordedAt : U32) : Op → Option PriceEntry
  | .submitPrice _ c feedId' _ ipfsCid =>
      if feedId = feedId' then some (c.entry recordedAt (ipfsCid.getD [])) else none
  | .revealPrice _ feedId' c _ _ ipfsCid =>
      if feedId = feedId' then some (c.entry recordedAt (ipfsCid.getD [])) else none
  | _ => none

/-- A call about no feed has no price. -/
theorem Op.price_of_feed {op : Op} (h : op.feed = none) (feedId : BytesN) (recordedAt : U32) :
    op.price feedId recordedAt = none := by
  cases op with
  | submitPrice | revealPrice => cases h
  | _ => rfl

instance (crypto : Crypto) (e : Store × Invocation Op) : Decidable (Returns crypto e) :=
  inferInstanceAs (Decidable (Call.Succeeds _ _ _))

/-- The price that a step writes for a feed. -/
def attestedPrice (crypto : Crypto) (feedId : BytesN) (e : Store × Invocation Op) :
    Option PriceEntry :=
  if Returns crypto e then e.2.call.price feedId e.2.env.sequence else none

/-- Storing a price overwrites that of its feed and keeps the others. -/
theorem withFeed_get (s : Store) (feedId feedId' : BytesN) (entry : PriceEntry) :
    (s.withFeed feedId' entry).feeds.get feedId =
      (if feedId = feedId' then some entry else none).or (s.feeds.get feedId) := by
  rw [Store.withFeed_feeds, Storage.get_set]
  by_cases hsame : feedId = feedId'
  · simp [hsame]
  · simp [hsame]

/-- A step overwrites the price of a feed or keeps it. -/
theorem step_feed (crypto : Crypto) (feedId : BytesN) (s : Store) (i : Invocation Op) :
    (step (exec crypto) s i).feeds.get feedId =
      (attestedPrice crypto feedId (s, i)).or (s.feeds.get feedId) := by
  by_cases hreturns : Returns crypto (s, i)
  · have hok := hreturns
    rcases hok with ⟨⟨⟨⟩, s'⟩, hexec⟩
    rw [step_of_ok hexec, attestedPrice, if_pos hreturns]
    rcases exec_cases hexec with ⟨cfg, hfeed, rfl⟩ | ⟨state, hfeed, rfl, -⟩ |
      ⟨oracle, c, feedId', signature, ipfsCid, hcall, -, rfl⟩ |
      ⟨oracle, feedId', commitmentHash, hcall, -, rfl⟩ |
      ⟨challenger, feedId', value, commitment, hcall, rfl⟩ |
      ⟨oracle, feedId', c, salt, signature, ipfsCid, cfg, commitment, expiry, hcall, -, rfl⟩ |
      ⟨oracle, a, signature, used, hcall, -, rfl⟩
    · rw [Op.price_of_feed hfeed]
      rfl
    · rw [Op.price_of_feed hfeed]
      rfl
    · rw [withFeed_get, Store.afterDeviation_feeds, hcall]
      rfl
    · rw [hcall]
      rfl
    · rw [hcall]
      rfl
    · rw [withFeed_get, hcall]
      rfl
    · rw [hcall]
      rfl
  · rw [step_of_not_succeeds hreturns, attestedPrice, if_neg hreturns, Option.none_or]

/-- The stored price of a feed. -/
def feedRegister (crypto : Crypto) (feedId : BytesN) :
    Register (step (exec crypto)) PriceEntry where
  read s := s.feeds.get feedId
  written := attestedPrice crypto feedId
  read_step := step_feed crypto feedId

/-- No price is stored at first. -/
theorem feedRegister_empty (crypto : Crypto) (feedId : BytesN) :
    (feedRegister crypto feedId).read Store.empty = none :=
  Storage.get_empty feedId

/-- A price that a step writes comes from a computation that the key in force has signed. -/
theorem attestedPrice_signed {feedId : BytesN} {e : Store × Invocation Op} {p : PriceEntry}
    (h : attestedPrice crypto feedId e = some p) :
    ∃ cfg c signature cid, e.1.config = some cfg ∧ Attested crypto cfg c feedId signature ∧
      p = c.entry e.2.env.sequence cid := by
  rcases e with ⟨s, ⟨env, op⟩⟩
  unfold attestedPrice at h
  split at h
  · rename_i hreturns
    rcases hreturns with ⟨⟨⟨⟩, s'⟩, hexec⟩
    cases op with
    | submitPrice oracle c feedId' signature ipfsCid =>
        simp only [Op.price, Option.ite_none_right_eq_some, Option.some.injEq] at h
        rcases h with ⟨rfl, rfl⟩
        rcases submitPrice_eq_ok.mp hexec with ⟨cfg, cid, hcfg, -, -, hsigned, -⟩
        exact ⟨cfg, c, signature, _, hcfg, hsigned, rfl⟩
    | revealPrice oracle feedId' c salt signature ipfsCid =>
        simp only [Op.price, Option.ite_none_right_eq_some, Option.some.injEq] at h
        rcases h with ⟨rfl, rfl⟩
        rcases revealPrice_eq_ok.mp hexec with ⟨cfg, commitment, expiry, cid, haccepted, -⟩
        exact ⟨cfg, c, signature, _, haccepted.config, haccepted.attested, rfl⟩
    | _ => cases h
  · cases h

/-- The time of the computation behind a price. -/
def PriceEntry.time (p : PriceEntry) : Int := p.timestampUtc.toInt

/-! ## Feeds that do not go back -/

/-- The attestations for a feed are accepted in the order of their times. -/
def AttestedInOrder (crypto : Crypto) (feedId : BytesN) (run : List (Invocation Op)) : Prop :=
  (history crypto run).Pairwise fun e e' =>
    ∀ p q, attestedPrice crypto feedId e = some p → attestedPrice crypto feedId e' = some q →
      p.timestampUtc ≤ q.timestampUtc

/-- A feed that does not go back in a run. -/
structure NoRollback (crypto : Crypto) (feedId : BytesN) (run : List (Invocation Op)) : Prop where
  /-- The stored time never decreases, from any state of the run to any later one. -/
  never_decreases : ∀ pre mid post, run = pre ++ mid ++ post →
    ∀ p, (Run.final (step (exec crypto)) Store.empty pre).feeds.get feedId = some p →
      ∃ q, (Run.final (step (exec crypto)) Store.empty (pre ++ mid)).feeds.get feedId = some q ∧
        p.timestampUtc ≤ q.timestampUtc
  /-- A price that is read was attested, and no attestation so far is newer. -/
  latest : ∀ pre post, run = pre ++ post → ∀ env p s',
    getPrice feedId env (Run.final (step (exec crypto)) Store.empty pre) = .ok (p, s') →
      (∃ e ∈ history crypto pre, attestedPrice crypto feedId e = some p) ∧
      ∀ e ∈ history crypto pre, ∀ q, attestedPrice crypto feedId e = some q →
        q.timestampUtc ≤ p.timestampUtc

/-- Without a rollback the times ascend. -/
theorem NoRollback.ascends {feedId : BytesN} {run : List (Invocation Op)}
    (h : NoRollback crypto feedId run) :
    (feedRegister crypto feedId).Ascends PriceEntry.time Store.empty run := by
  intro e he
  rcases Run.mem_trace_iff.mp he with ⟨pre, post, rfl, hstate⟩
  cases hread : e.1.feeds.get feedId with
  | none =>
      rw [Register.level_of_none _ _ hread]
      exact bot_le
  | some p =>
      have hread' := hread
      rw [hstate] at hread'
      rcases h.never_decreases pre [e.2] post (by simp) p hread' with ⟨q, hafter, hle⟩
      rw [Run.final_append, ← hstate] at hafter
      rw [Register.level_of_some _ _ hread, Register.level_of_some _ _ hafter]
      exact WithBot.coe_le_coe.mpr hle

/-- Where the times ascend there is no rollback. -/
theorem noRollback_of_ascends {feedId : BytesN} {run : List (Invocation Op)}
    (h : (feedRegister crypto feedId).Ascends PriceEntry.time Store.empty run) :
    NoRollback crypto feedId run := by
  constructor
  · intro pre mid post hrun p hread
    subst hrun
    have hle := h.level_le
    rw [Register.level_of_some _ _ hread] at hle
    cases hafter : (Run.final (step (exec crypto)) Store.empty (pre ++ mid)).feeds.get feedId with
    | none =>
        rw [Register.level_of_none _ _ hafter] at hle
        exact absurd hle (WithBot.not_coe_le_bot _)
    | some q =>
        rw [Register.level_of_some _ _ hafter] at hle
        have htime : p.time ≤ q.time := WithBot.coe_le_coe.mp hle
        exact ⟨q, rfl, htime⟩
  · intro pre post hrun env p s' hget
    subst hrun
    rcases getPrice_eq_ok.mp hget with ⟨cfg, -, -, hread, -⟩
    refine ⟨Register.written_of_read _ (feedRegister_empty crypto feedId) hread, ?_⟩
    intro e he q hwritten
    have hle := h.pre.le_final he hwritten
    rw [Register.level_of_some _ _ hread] at hle
    have htime : q.time ≤ p.time := WithBot.coe_le_coe.mp hle
    exact htime

/-- A feed does not go back in a run exactly if its attestations are accepted in order. -/
theorem no_rollback_iff (crypto : Crypto) (feedId : BytesN) (run : List (Invocation Op)) :
    NoRollback crypto feedId run ↔ AttestedInOrder crypto feedId run := by
  have hiff : (feedRegister crypto feedId).Ascends PriceEntry.time Store.empty run ↔
      (feedRegister crypto feedId).InOrder PriceEntry.time Store.empty run :=
    Register.ascends_iff (feedRegister_empty crypto feedId)
  constructor
  · intro h
    exact hiff.mp h.ascends
  · intro h
    exact noRollback_of_ascends (hiff.mpr h)

/-! ## A replayed attestation -/

/-- The configured contract with an active breaker, and only prices of the sample
computation for the sample feed. -/
structure SampleFeedOpen (s : Store) : Prop where
  config : s.config = some sampleConfig
  active : s.circuitState = .active
  value : ∀ p, s.feeds.get sampleFeed = some p → p.outputValue = 100

/-- A caller submits the sample computation of a time. -/
def submitSample (caller : Address) (sequence : U32) (timestampUtc : I64) (signature : BytesN) :
    Invocation Op :=
  ⟨.signedBy sequence [caller],
    .submitPrice caller (sampleComputation timestampUtc) sampleFeed signature none⟩

/-- The same value again does not deviate. -/
theorem SampleFeedOpen.afterDeviation {s : Store} (h : SampleFeedOpen s) :
    s.afterDeviation sampleFeed 100 = s := by
  unfold Store.afterDeviation
  split
  · rename_i previous hstored
    rw [h.value previous hstored, if_neg (by decide)]
  · rfl

/-- A submission for the sample feed is written. -/
theorem SampleFeedOpen.step_submit {s : Store} (h : SampleFeedOpen s) {timestampUtc : I64}
    {signature : BytesN}
    (hsigned : Attested crypto sampleConfig (sampleComputation timestampUtc) sampleFeed signature)
    (caller : Address) (sequence : U32) :
    step (exec crypto) s (submitSample caller sequence timestampUtc signature) =
      s.withFeed sampleFeed ((sampleComputation timestampUtc).entry sequence []) := by
  have hauth := Env.authorized_signedBy sequence caller
  apply step_of_ok
  refine submitPrice_eq_ok.mpr ⟨sampleConfig, [], h.config, h.active, hauth, hsigned,
    ⟨rfl, Nat.zero_le _⟩, ?_⟩
  rw [show (sampleComputation timestampUtc).outputValue = 100 from rfl, h.afterDeviation]
  rfl

/-- The sample feed takes another submission after one. -/
theorem SampleFeedOpen.submit {s : Store} (h : SampleFeedOpen s) (sequence : U32)
    (timestampUtc : I64) :
    SampleFeedOpen
      (s.withFeed sampleFeed ((sampleComputation timestampUtc).entry sequence [])) := by
  refine ⟨h.config, h.active, ?_⟩
  intro p hstored
  rw [Store.withFeed_feeds, Storage.get_set_self, Option.some.injEq] at hstored
  rw [← hstored]
  rfl

/-- The oracle submits an older and a newer computation. -/
def honestRun (older newer : BytesN) : List (Invocation Op) :=
  [configure, submitSample ⟨9⟩ 5 50 older, submitSample ⟨9⟩ 6 60 newer]

/-- The sample feed takes a submission at first. -/
theorem sampleFeedOpen_configured : SampleFeedOpen (Store.empty.withConfig sampleConfig) := by
  refine ⟨rfl, rfl, ?_⟩
  intro p hstored
  simp [Store.empty] at hstored

/-- The state after that run has the newer price. -/
theorem final_honestRun {older newer : BytesN}
    (hold : Attested crypto sampleConfig (sampleComputation 50) sampleFeed older)
    (hnew : Attested crypto sampleConfig (sampleComputation 60) sampleFeed newer) :
    SampleFeedOpen (Run.final (step (exec crypto)) Store.empty (honestRun older newer)) ∧
      (Run.final (step (exec crypto)) Store.empty (honestRun older newer)).feeds.get sampleFeed =
        some ((sampleComputation 60).entry 6 []) := by
  have hfirst := sampleFeedOpen_configured.submit 5 50
  rw [honestRun, Run.final_cons, step_configure, Run.final_cons,
    sampleFeedOpen_configured.step_submit hold, Run.final_cons, hfirst.step_submit hnew,
    Run.final_nil]
  exact ⟨hfirst.submit 6 60, Storage.get_set_self _ _ _⟩

/-- Under every signature scheme in which the oracle key has signed two computations for the
feed, anybody can bring back the older one. -/
theorem replay_rolls_back : ¬ ∃ crypto : Crypto,
    (∃ older, Attested crypto sampleConfig (sampleComputation 50) sampleFeed older) ∧
    (∃ newer, Attested crypto sampleConfig (sampleComputation 60) sampleFeed newer) ∧
    ∀ feedId run, NoRollback crypto feedId run := by
  intro h
  rcases h with ⟨crypto, ⟨older, hold⟩, ⟨newer, hnew⟩, hsafe⟩
  rcases final_honestRun hold hnew with ⟨hopen, hstored⟩
  have hrun := hsafe sampleFeed (honestRun older newer ++ [submitSample ⟨7⟩ 7 50 older])
  rcases hrun.never_decreases (honestRun older newer) [submitSample ⟨7⟩ 7 50 older] []
    (List.append_nil _).symm _ hstored with ⟨q, hafter, hle⟩
  rw [Run.final_append, Run.final_cons, Run.final_nil, hopen.step_submit hold,
    Store.withFeed_feeds, Storage.get_set_self, Option.some.injEq] at hafter
  subst hafter
  exact absurd hle (by decide : ¬ ((60 : I64) ≤ 50))

end CarbonOracle
end Kraal
