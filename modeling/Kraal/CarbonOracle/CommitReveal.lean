import Kraal.CarbonOracle.Contract

/-!
# The commit-reveal protocol of carbon_oracle

A revealed price was committed to by its hash, stood through its challenge window, and was
neither disputed nor replaced.  The stored commitment says so in every reachable state: as
long as it waits, it dates from a commit that nothing about its feed has followed.

Main results:

- Definition {lit}`CommitmentsDated` and theorem {lit}`commitmentsDated_history`: what a waiting
  commitment says about the past, after every run.
- Theorem {lit}`commit_reveal_safe`: what precedes a reveal, in every run.
- Theorem {lit}`recommit_iff`: when a feed whose window is over accepts a new commitment.
- Theorem {lit}`commitment_blocks_feed`: a feed that never does.
-/

namespace Kraal
namespace CarbonOracle

open Foundation

variable {crypto : Crypto}

/-- The steps of a run from the freshly deployed contract. -/
def history (crypto : Crypto) (run : List (Invocation Op)) : List (Store × Invocation Op) :=
  Run.trace (step (exec crypto)) Store.empty run

/-! ## Events -/

/-- The call of a step returns. -/
def Returns (crypto : Crypto) (e : Store × Invocation Op) : Prop :=
  (exec crypto e.2.call).Succeeds e.2.env e.1

/-- A step commits to a hash for a feed. -/
def Commits (crypto : Crypto) (e : Store × Invocation Op) (feedId hash : BytesN) : Prop :=
  Returns crypto e ∧ ∃ oracle, e.2.call = .commitPrice oracle feedId hash

/-- A step disputes the commitment of a feed. -/
def Challenges (crypto : Crypto) (e : Store × Invocation Op) (feedId : BytesN) : Prop :=
  Returns crypto e ∧ ∃ challenger value, e.2.call = .challengePrice challenger feedId value

/-- A step reveals a computation for a feed. -/
def Reveals (crypto : Crypto) (e : Store × Invocation Op) (feedId : BytesN) (c : Computation)
    (salt : BytesN) : Prop :=
  Returns crypto e ∧ ∃ oracle signature ipfsCid,
    e.2.call = .revealPrice oracle feedId c salt signature ipfsCid

/-- A step changes the commitment of a feed. -/
def Moves (crypto : Crypto) (e : Store × Invocation Op) (feedId : BytesN) : Prop :=
  (∃ hash, Commits crypto e feedId hash) ∨ Challenges crypto e feedId ∨
    ∃ c salt, Reveals crypto e feedId c salt

/-- A call that moves the commitment of a feed is about the feed. -/
theorem Moves.commitmentFeed {e : Store × Invocation Op} {feedId : BytesN}
    (h : Moves crypto e feedId) : e.2.call.commitmentFeed = some feedId := by
  rcases h with ⟨hash, -, oracle, hcall⟩ | ⟨-, challenger, value, hcall⟩ |
    ⟨c, salt, -, oracle, signature, ipfsCid, hcall⟩
  · rw [hcall]
    rfl
  · rw [hcall]
    rfl
  · rw [hcall]
    rfl

/-- A call that moves a commitment returns. -/
theorem Moves.returns {e : Store × Invocation Op} {feedId : BytesN} (h : Moves crypto e feedId) :
    Returns crypto e := by
  rcases h with ⟨hash, h, -⟩ | ⟨h, -⟩ | ⟨c, salt, h, -⟩
  · exact h
  · exact h
  · exact h

/-! ## Where a waiting commitment comes from -/

/-- A call about no feed moves no commitment. -/
theorem not_moves_of_none {e : Store × Invocation Op} {feedId : BytesN}
    (h : e.2.call.commitmentFeed = none) : ¬ Moves crypto e feedId := by
  intro hmoves
  rw [hmoves.commitmentFeed] at h
  cases h

/-- A call about another feed does not move the commitment. -/
theorem not_moves_of_ne {e : Store × Invocation Op} {feedId feedId' : BytesN}
    (h : e.2.call.commitmentFeed = some feedId') (hne : feedId ≠ feedId') :
    ¬ Moves crypto e feedId := by
  intro hmoves
  rw [hmoves.commitmentFeed, Option.some.injEq] at h
  exact hne h

/-- What a step does to the commitment of a feed: it leaves it alone, commits anew, or ends
the waiting of one. -/
theorem step_commitment (crypto : Crypto) (s : Store) (i : Invocation Op) (feedId : BytesN) :
    (¬ Moves crypto (s, i) feedId ∧
      (step (exec crypto) s i).commitments.get feedId = s.commitments.get feedId) ∨
    (∃ hash, Commits crypto (s, i) feedId hash ∧
      (step (exec crypto) s i).commitments.get feedId =
        some ⟨hash, i.env.sequence, .challengeWindow⟩) ∨
    ((Challenges crypto (s, i) feedId ∨ ∃ c salt, Reveals crypto (s, i) feedId c salt) ∧
      ∃ commitment, (step (exec crypto) s i).commitments.get feedId = some commitment ∧
        (commitment.state = .disputed ∨ commitment.state = .revealed)) := by
  by_cases hreturns : Returns crypto (s, i)
  · have hok := hreturns
    rcases hok with ⟨⟨⟨⟩, s'⟩, hexec⟩
    rw [step_of_ok hexec]
    rcases exec_cases hexec with ⟨cfg, hfeed, rfl⟩ | ⟨state, hfeed, rfl, -⟩ |
      ⟨oracle, c, feedId', signature, ipfsCid, hcall, -, rfl⟩ |
      ⟨oracle, feedId', commitmentHash, hcall, -, rfl⟩ |
      ⟨challenger, feedId', value, commitment, hcall, rfl⟩ |
      ⟨oracle, feedId', c, salt, signature, ipfsCid, cfg, commitment, expiry, hcall, -, rfl⟩ |
      ⟨oracle, a, signature, used, hcall, -, rfl⟩
    · exact .inl ⟨not_moves_of_none (Op.commitmentFeed_of_feed hfeed), rfl⟩
    · exact .inl ⟨not_moves_of_none (Op.commitmentFeed_of_feed hfeed), rfl⟩
    · refine .inl ⟨not_moves_of_none (by rw [hcall]; rfl), ?_⟩
      rw [Store.withFeed_commitments, Store.afterDeviation_commitments]
    · by_cases hsame : feedId = feedId'
      · subst hsame
        exact .inr (.inl ⟨commitmentHash, ⟨hreturns, oracle, hcall⟩, Storage.get_set_self _ _ _⟩)
      · exact .inl ⟨not_moves_of_ne (by rw [hcall]; rfl) hsame, Storage.get_set_of_ne _ _ hsame⟩
    · by_cases hsame : feedId = feedId'
      · subst hsame
        exact .inr (.inr ⟨.inl ⟨hreturns, challenger, value, hcall⟩, _,
          Storage.get_set_self _ _ _, .inl rfl⟩)
      · exact .inl ⟨not_moves_of_ne (by rw [hcall]; rfl) hsame, Storage.get_set_of_ne _ _ hsame⟩
    · by_cases hsame : feedId = feedId'
      · subst hsame
        exact .inr (.inr ⟨.inr ⟨c, salt, hreturns, oracle, signature, ipfsCid, hcall⟩, _,
          Storage.get_set_self _ _ _, .inr rfl⟩)
      · exact .inl ⟨not_moves_of_ne (by rw [hcall]; rfl) hsame, Storage.get_set_of_ne _ _ hsame⟩
    · exact .inl ⟨not_moves_of_none (by rw [hcall]; rfl), rfl⟩
  · rw [step_of_not_succeeds hreturns]
    exact .inl ⟨fun hmoves => hreturns hmoves.returns, rfl⟩

/-- A commitment that has ended does not wait. -/
theorem ended_not_waiting {state : CommitmentState} (h : state = .disputed ∨ state = .revealed) :
    state ≠ .challengeWindow := by
  rcases h with rfl | rfl
  · nofun
  · nofun

/-- A waiting commitment dates from a commit that nothing about its feed has followed. -/
def CommitmentsDated (crypto : Crypto) (past : List (Store × Invocation Op)) (s : Store) : Prop :=
  ∀ feedId commitment, s.commitments.get feedId = some commitment →
    commitment.state = .challengeWindow →
    Run.Since (fun e => Commits crypto e feedId commitment.commitmentHash ∧
      e.2.env.sequence = commitment.recordedAt) (fun e => Moves crypto e feedId) past

/-- A step dates the commitments. -/
theorem CommitmentsDated.step {past : List (Store × Invocation Op)} {s : Store}
    (h : CommitmentsDated crypto past s) (i : Invocation Op) :
    CommitmentsDated crypto (past ++ [(s, i)]) (Kraal.step (exec crypto) s i) := by
  intro feedId commitment hstored hwaits
  rw [Run.since_append_singleton]
  rcases step_commitment crypto s i feedId with ⟨hkept, hsame⟩ |
    ⟨hash, hcommits, hnew⟩ | ⟨-, commitment', hended, hstate⟩
  · rw [hsame] at hstored
    exact .inr ⟨h feedId commitment hstored hwaits, hkept⟩
  · rw [hnew, Option.some.injEq] at hstored
    subst hstored
    exact .inl ⟨hcommits, rfl⟩
  · rw [hended, Option.some.injEq] at hstored
    subst hstored
    exact absurd hwaits (ended_not_waiting hstate)

/-- The waiting commitments of a run are dated. -/
theorem commitmentsDated_history (crypto : Crypto) (run : List (Invocation Op)) :
    CommitmentsDated crypto (history crypto run)
      (Run.final (step (exec crypto)) Store.empty run) := by
  apply Run.history_invariant
  · intro feedId commitment hstored
    simp [Store.empty] at hstored
  · intro past s i h
    exact h.step i

/-! ## The safety of a reveal -/

/-- The acceptance of a reveal, and the price it writes. -/
theorem Reveals.accepted {e : Store × Invocation Op} {feedId salt : BytesN} {c : Computation}
    (h : Reveals crypto e feedId c salt) :
    ∃ oracle signature cfg commitment expiry cid,
      RevealAccepted crypto oracle feedId c salt signature e.2.env e.1 cfg commitment expiry ∧
      (step (exec crypto) e.1 e.2).feeds.get feedId = some (c.entry e.2.env.sequence cid) := by
  rcases h with ⟨⟨⟨⟨⟩, s'⟩, hexec⟩, oracle, signature, ipfsCid, hcall⟩
  have hstep := step_of_ok hexec
  rw [hcall] at hexec
  rcases revealPrice_eq_ok.mp hexec with ⟨cfg, commitment, expiry, cid, haccepted, -, rfl⟩
  refine ⟨oracle, signature, cfg, commitment, expiry, cid, haccepted, ?_⟩
  rw [hstep]
  exact Storage.get_set_self _ _ _

/-- A commit to a hash that has stood for the challenge window of a configuration. -/
def CommittedBefore (crypto : Crypto) (feedId hash : BytesN) (cfg : Config) (now : U32)
    (e : Store × Invocation Op) : Prop :=
  Commits crypto e feedId hash ∧
    e.2.env.sequence.toInt + cfg.challengeWindowDuration.toInt ≤ now.toInt

/-- What commit and reveal promise along a run. -/
structure CommitRevealSafe (crypto : Crypto) (run : List (Invocation Op)) : Prop where
  /-- A reveal writes what was committed to, with nothing about the feed in between. -/
  committed : ∀ before e after, history crypto run = before ++ e :: after →
    ∀ feedId c salt, Reveals crypto e feedId c salt →
      ∃ cfg cid, e.1.config = some cfg ∧
        (step (exec crypto) e.1 e.2).feeds.get feedId = some (c.entry e.2.env.sequence cid) ∧
        Run.Since (CommittedBefore crypto feedId
            (crypto.sha256 (buildCommitmentPayload c feedId salt)) cfg e.2.env.sequence)
          (fun e => Moves crypto e feedId) before
  /-- Neither a revealed nor a disputed commitment is revealed again. -/
  once : ∀ before e between e' after,
    history crypto run = before ++ e :: (between ++ e' :: after) → ∀ feedId,
      (Challenges crypto e feedId ∨ ∃ c salt, Reveals crypto e feedId c salt) →
      (∃ c salt, Reveals crypto e' feedId c salt) →
      ∃ x ∈ between, ∃ hash, Commits crypto x feedId hash
  /-- A disputed commitment is not revealed in any state. -/
  disputed : ∀ s feedId commitment, s.commitments.get feedId = some commitment →
    commitment.state = .disputed → ∀ env oracle c salt signature ipfsCid,
      ¬ (revealPrice crypto oracle feedId c salt signature ipfsCid).Succeeds env s
  /-- No ledger admits both a challenge and a reveal. -/
  exclusive : ∀ s env env', env.sequence = env'.sequence →
    ∀ challenger feedId value oracle c salt signature ipfsCid,
      (challengePrice challenger feedId value).Succeeds env s →
      ¬ (revealPrice crypto oracle feedId c salt signature ipfsCid).Succeeds env' s
  /-- One hash commits to one computation, feed and salt. -/
  binding : ∀ feedId feedId' c c' salt salt', Sized c feedId salt → Sized c' feedId' salt' →
    crypto.sha256 (buildCommitmentPayload c feedId salt) =
      crypto.sha256 (buildCommitmentPayload c' feedId' salt') →
    c = c' ∧ feedId = feedId' ∧ salt = salt'

/-- A reveal of a run opens the commitment that its past dates. -/
theorem reveal_committed {run : List (Invocation Op)} {before after : List (Store × Invocation Op)}
    {e : Store × Invocation Op} (hrun : history crypto run = before ++ e :: after)
    {feedId salt : BytesN} {c : Computation} (hreveals : Reveals crypto e feedId c salt) :
    ∃ cfg cid, e.1.config = some cfg ∧
      (step (exec crypto) e.1 e.2).feeds.get feedId = some (c.entry e.2.env.sequence cid) ∧
      Run.Since (CommittedBefore crypto feedId
          (crypto.sha256 (buildCommitmentPayload c feedId salt)) cfg e.2.env.sequence)
        (fun e => Moves crypto e feedId) before := by
  rcases Run.trace_split hrun with ⟨pre, post, -, rfl, hstate⟩
  rcases hreveals.accepted with ⟨oracle, signature, cfg, commitment, expiry, cid, haccepted, hfeed⟩
  have hdated := commitmentsDated_history crypto pre
  rw [← hstate] at hdated
  have hsince := hdated feedId commitment haccepted.pending.stored haccepted.pending.window
  refine ⟨cfg, cid, haccepted.config, hfeed, hsince.mono ?_⟩
  intro x hx
  rcases hx with ⟨hcommits, hrecorded⟩
  rw [haccepted.opens]
  refine ⟨hcommits, ?_⟩
  rw [hrecorded, ← haccepted.pending.expiry_eq]
  exact haccepted.expired

/-- A step that disputes or reveals does not commit. -/
theorem not_commits {e : Store × Invocation Op} {feedId : BytesN}
    (h : Challenges crypto e feedId ∨ ∃ c salt, Reveals crypto e feedId c salt)
    (feedId' hash : BytesN) : ¬ Commits crypto e feedId' hash := by
  intro hcommits
  rcases hcommits with ⟨-, oracle, hcommit⟩
  rcases h with ⟨-, challenger, value, hcall⟩ | ⟨c, salt, -, oracle', signature, ipfsCid, hcall⟩
  · rw [hcall] at hcommit
    cases hcommit
  · rw [hcall] at hcommit
    cases hcommit

/-- Between two ends of commitments there is a commit. -/
theorem commit_between {run : List (Invocation Op)}
    {before between after : List (Store × Invocation Op)} {e e' : Store × Invocation Op}
    (hrun : history crypto run = before ++ e :: (between ++ e' :: after)) {feedId salt : BytesN}
    {c : Computation}
    (hfirst : Challenges crypto e feedId ∨ ∃ c salt, Reveals crypto e feedId c salt)
    (hsecond : Reveals crypto e' feedId c salt) :
    ∃ x ∈ between, ∃ hash, Commits crypto x feedId hash := by
  have hsplit : history crypto run = (before ++ e :: between) ++ e' :: after := by
    rw [hrun, List.append_assoc, List.cons_append]
  rcases reveal_committed hsplit hsecond with ⟨cfg, cid, -, -, hsince⟩
  -- the commit of the later reveal lies after the earlier step
  rcases hsince.exists_between (.inr hfirst) (fun h => not_commits hfirst _ _ h.1) with
    ⟨x, hx, hcommitted⟩
  exact ⟨x, hx, _, hcommitted.1⟩

/-- A feed has one waiting commitment with one expiry. -/
theorem Pending.expiry_unique {s : Store} {cfg : Config} {feedId : BytesN}
    {commitment commitment' : PriceCommitment} {expiry expiry' : U32}
    (h : Pending s cfg feedId commitment expiry) (h' : Pending s cfg feedId commitment' expiry') :
    expiry = expiry' := by
  have hsame := h'.stored
  rw [h.stored, Option.some.injEq] at hsame
  subst hsame
  exact MInt.ext (h.expiry_eq.trans h'.expiry_eq.symm)

/-- The challenge window is open or over. -/
theorem challenge_excludes_reveal {s : Store} {env env' : Env}
    (hledger : env.sequence = env'.sequence) {challenger oracle : Address} {feedId : BytesN}
    {value : I64} {c : Computation} {salt signature : BytesN} {ipfsCid : Option Bytes}
    (hchallenge : (challengePrice challenger feedId value).Succeeds env s) :
    ¬ (revealPrice crypto oracle feedId c salt signature ipfsCid).Succeeds env' s := by
  intro hreveal
  rcases hchallenge with ⟨⟨⟨⟩, t⟩, hchallenge⟩
  rcases hreveal with ⟨⟨⟨⟩, t'⟩, hreveal⟩
  rcases challengePrice_eq_ok.mp hchallenge with ⟨cfg, commitment, expiry, hcfg, -, hpending,
    hopen, -⟩
  rcases revealPrice_eq_ok.mp hreveal with ⟨cfg', commitment', expiry', cid, haccepted, -, -⟩
  have hcfg' := haccepted.config
  rw [hcfg, Option.some.injEq] at hcfg'
  subst hcfg'
  have hexpiry := hpending.expiry_unique haccepted.pending
  have hover := haccepted.expired
  rw [← hledger, ← hexpiry] at hover
  exact absurd hopen (not_lt.mpr hover)

/-- A disputed commitment is not revealed. -/
theorem disputed_not_revealed {s : Store} {feedId : BytesN} {commitment : PriceCommitment}
    (hstored : s.commitments.get feedId = some commitment)
    (hdisputed : commitment.state = .disputed) {env : Env} {oracle : Address} {c : Computation}
    {salt signature : BytesN} {ipfsCid : Option Bytes} :
    ¬ (revealPrice crypto oracle feedId c salt signature ipfsCid).Succeeds env s := by
  intro hok
  rcases hok with ⟨⟨⟨⟩, s'⟩, hreveal⟩
  rcases revealPrice_eq_ok.mp hreveal with ⟨cfg, commitment', expiry, cid, haccepted, -, -⟩
  have hwaits := haccepted.pending.window
  have hsame := haccepted.pending.stored
  rw [hstored, Option.some.injEq] at hsame
  rw [← hsame, hdisputed] at hwaits
  cases hwaits

/-- In every run, a price is revealed only after its challenge window, from a commitment
that nobody has disputed, replaced or revealed. -/
theorem commit_reveal_safe (hinj : Function.Injective crypto.sha256)
    (run : List (Invocation Op)) : CommitRevealSafe crypto run := by
  refine ⟨?_, ?_, ?_, ?_, ?_⟩
  · intro before e after hrun feedId c salt hreveals
    exact reveal_committed hrun hreveals
  · intro before e between e' after hrun feedId hfirst hsecond
    rcases hsecond with ⟨c, salt, hreveals⟩
    exact commit_between hrun hfirst hreveals
  · intro s feedId commitment hstored hdisputed env oracle c salt signature ipfsCid
    exact disputed_not_revealed hstored hdisputed
  · intro s env env' hledger challenger feedId value oracle c salt signature ipfsCid hchallenge
    exact challenge_excludes_reveal hledger hchallenge
  · intro feedId feedId' c c' salt salt' hsized hsized' hhash
    exact buildCommitmentPayload_inj hsized hsized' (hinj hhash)

/-! ## Feeds that are blocked -/

/-- A commit for a feed that nothing about the feed has followed. -/
def Unanswered (crypto : Crypto) (feedId : BytesN) (past : List (Store × Invocation Op)) : Prop :=
  Run.Since (fun e => ∃ hash, Commits crypto e feedId hash) (fun e => Moves crypto e feedId) past

/-- A commitment waits for a feed. -/
def Waiting (s : Store) (feedId : BytesN) : Prop :=
  ∃ commitment, s.commitments.get feedId = some commitment ∧ commitment.state = .challengeWindow

/-- A commitment waits for a feed exactly when the last commit has not been answered. -/
theorem waiting_iff (crypto : Crypto) (run : List (Invocation Op)) (feedId : BytesN) :
    Waiting (Run.final (step (exec crypto)) Store.empty run) feedId ↔
      Unanswered crypto feedId (history crypto run) := by
  refine Run.history_invariant
    (P := fun past s => Waiting s feedId ↔ Unanswered crypto feedId past) ?_ ?_ run
  · refine iff_of_false ?_ Run.not_since_nil
    intro h
    rcases h with ⟨commitment, hstored, -⟩
    simp [Store.empty] at hstored
  · intro past s i ih
    rw [Unanswered, Run.since_append_singleton]
    rcases step_commitment crypto s i feedId with ⟨hkept, hsame⟩ | ⟨hash, hcommits, hnew⟩ |
      ⟨hended, commitment, hstored, hstate⟩
    · have hnone : ¬ ∃ hash, Commits crypto (s, i) feedId hash := fun h => hkept (.inl h)
      rw [Waiting, hsame]
      constructor
      · intro h
        exact .inr ⟨ih.mp h, hkept⟩
      · intro h
        rcases h with h | ⟨h, -⟩
        · exact absurd h hnone
        · exact ih.mpr h
    · refine iff_of_true ⟨_, hnew, rfl⟩ (.inl ⟨hash, hcommits⟩)
    · refine iff_of_false ?_ ?_
      · intro h
        rcases h with ⟨commitment', hstored', hwaits⟩
        rw [hstored, Option.some.injEq] at hstored'
        subst hstored'
        exact ended_not_waiting hstate hwaits
      · intro h
        rcases h with ⟨hash, hcommits⟩ | ⟨-, hkept⟩
        · exact not_commits hended feedId hash hcommits
        · exact hkept (.inr hended)

/-- A commitment that waits is neither disputed nor revealed, and so it stands. -/
theorem commitment_stands {s : Store} {between : List (Invocation Op)} {feedId : BytesN}
    {commitment : PriceCommitment} (hstored : s.commitments.get feedId = some commitment)
    (hwaits : commitment.state = .challengeWindow)
    (hunanswered : ∀ e ∈ Run.trace (step (exec crypto)) s between,
      ¬ Challenges crypto e feedId ∧ ∀ c salt, ¬ Reveals crypto e feedId c salt) :
    (Run.final (step (exec crypto)) s between).commitments.get feedId = some commitment := by
  refine Run.final_invariant (I := fun s : Store => s.commitments.get feedId = some commitment)
    hstored ?_
  intro e he hstored
  rcases step_commitment crypto e.1 e.2 feedId with ⟨-, hsame⟩ |
    ⟨hash, ⟨⟨⟨⟨⟩, s'⟩, hexec⟩, oracle, hcall⟩, -⟩ | ⟨hended, -⟩
  · rw [hsame]
    exact hstored
  · -- while it waits, the contract refuses another one
    rw [hcall] at hexec
    have hfree : CommitmentFree e.1 feedId := (commitPrice_eq_ok.mp hexec).2.2.1
    exact absurd hwaits (hfree commitment hstored).2
  · obtain ⟨hunchallenged, hunrevealed⟩ := hunanswered e he
    rcases hended with hchallenges | ⟨c, salt, hreveals⟩
    · exact absurd hchallenges hunchallenged
    · exact absurd hreveals (hunrevealed c salt)

/-- Every stored commitment waits, or is disputed or revealed. -/
theorem commitment_state (crypto : Crypto) (run : List (Invocation Op)) {feedId : BytesN}
    {commitment : PriceCommitment}
    (hstored : (Run.final (step (exec crypto)) Store.empty run).commitments.get feedId =
      some commitment) : commitment.state ≠ .committed := by
  revert feedId commitment
  refine Run.final_invariant (I := fun s : Store => ∀ {feedId commitment},
    s.commitments.get feedId = some commitment → commitment.state ≠ .committed) ?_ ?_
  · intro feedId commitment hstored
    simp [Store.empty] at hstored
  · intro e _ ih feedId commitment hstored
    rcases step_commitment crypto e.1 e.2 feedId with ⟨-, hsame⟩ | ⟨hash, -, hnew⟩ |
      ⟨-, commitment', hended, hstate⟩
    · rw [hsame] at hstored
      exact ih hstored
    · rw [hnew, Option.some.injEq] at hstored
      subst hstored
      intro hcommitted
      cases hcommitted
    · rw [hended, Option.some.injEq] at hstored
      subst hstored
      intro hcommitted
      rw [hcommitted] at hstate
      rcases hstate with hstate | hstate
      · cases hstate
      · cases hstate

/-- The challenge window of the stored commitment of a feed is over. -/
structure WindowOver (s : Store) (feedId : BytesN) (cfg : Config) (commitment : PriceCommitment)
    (now : U32) : Prop where
  config : s.config = some cfg
  stored : s.commitments.get feedId = some commitment
  passed : commitment.recordedAt.toInt + cfg.challengeWindowDuration.toInt ≤ now.toInt

/-- When a commit succeeds. -/
theorem commit_succeeds_iff {s : Store} {cfg : Config} (hcfg : s.config = some cfg) {env : Env}
    {oracle : Address} (hauth : env.authorized oracle = true) (feedId hash : BytesN) :
    (commitPrice oracle feedId hash).Succeeds env s ↔ CommitmentFree s feedId := by
  constructor
  · intro h
    rcases h with ⟨⟨⟨⟩, s'⟩, hcommit⟩
    exact (commitPrice_eq_ok.mp hcommit).2.2.1
  · intro hfree
    have hconfig : s.config.isSome = true := by
      rw [hcfg]
      rfl
    exact ⟨((), _), commitPrice_eq_ok.mpr ⟨hconfig, hauth, hfree, rfl⟩⟩

/-- A feed is not free while a commitment waits. -/
theorem not_free_of_waiting {s : Store} {feedId : BytesN} (h : Waiting s feedId) :
    ¬ CommitmentFree s feedId := by
  rcases h with ⟨commitment, hstored, hwaits⟩
  intro hfree
  exact (hfree commitment hstored).2 hwaits

/-- After the window of a commitment, the feed accepts a new one exactly when the last
commit for it has been challenged or revealed since. -/
theorem recommit_iff {run : List (Invocation Op)} {feedId : BytesN} {cfg : Config}
    {commitment : PriceCommitment} {env : Env} {oracle : Address}
    (h : WindowOver (Run.final (step (exec crypto)) Store.empty run) feedId cfg commitment
      env.sequence) (hauth : env.authorized oracle = true) (hash : BytesN) :
    (commitPrice oracle feedId hash).Succeeds env
        (Run.final (step (exec crypto)) Store.empty run) ↔
      ¬ Unanswered crypto feedId (history crypto run) := by
  rw [commit_succeeds_iff h.config hauth, ← waiting_iff]
  constructor
  · intro hfree hwaiting
    exact not_free_of_waiting hwaiting hfree
  · intro hanswered existing hstored
    exact ⟨commitment_state crypto run hstored, fun hwaits => hanswered ⟨existing, hstored, hwaits⟩⟩

/-! ## A commitment that nobody opens -/

/-- Thirty-two bytes that serve as key, hash and salt. -/
def sampleKey : BytesN := ⟨List.replicate 32 1⟩

/-- The id of a feed. -/
def sampleFeed : BytesN := ⟨List.replicate 32 2⟩

/-- A window of ten ledgers. -/
def sampleConfig : Config := ⟨⟨0⟩, sampleKey, 10, 0⟩

/-- A computation with the value 100. -/
def sampleComputation (timestampUtc : I64) : Computation :=
  ⟨sampleKey, sampleKey, 100, timestampUtc⟩

/-- The administrator initialises the contract. -/
def configure : Invocation Op :=
  ⟨.signedBy 1 [⟨0⟩], .initializeContract ⟨0⟩ sampleKey 10⟩

/-- What the initialisation leaves. -/
theorem step_configure (crypto : Crypto) :
    step (exec crypto) Store.empty configure = Store.empty.withConfig sampleConfig := by
  apply step_of_ok
  exact initializeContract_eq_ok.mpr ⟨rfl, Env.authorized_signedBy 1 ⟨0⟩, rfl⟩

/-- Anybody commits to a hash in the fifth ledger. -/
def commitRun (hash : BytesN) : List (Invocation Op) :=
  [configure, ⟨.signedBy 5 [⟨9⟩], .commitPrice ⟨9⟩ sampleFeed hash⟩]

/-- The state after that run. -/
def committedStore (hash : BytesN) : Store :=
  (Store.empty.withConfig sampleConfig).withCommitment sampleFeed ⟨hash, 5, .challengeWindow⟩

/-- What that run leaves. -/
theorem final_commitRun (crypto : Crypto) (hash : BytesN) :
    Run.final (step (exec crypto)) Store.empty (commitRun hash) = committedStore hash := by
  have hfree : CommitmentFree (Store.empty.withConfig sampleConfig) sampleFeed := by
    intro existing hstored
    simp [Store.empty] at hstored
  rw [commitRun, Run.final_cons, step_configure, Run.final_cons, Run.final_nil]
  apply step_of_ok
  exact commitPrice_eq_ok.mpr ⟨rfl, rfl, hfree, rfl⟩

/-- The window is over in ledger 1000. -/
theorem commitRun_windowOver (crypto : Crypto) (hash : BytesN) :
    WindowOver (Run.final (step (exec crypto)) Store.empty (commitRun hash)) sampleFeed sampleConfig
      ⟨hash, 5, .challengeWindow⟩ 1000 := by
  rw [final_commitRun]
  exact ⟨rfl, Storage.get_set_self _ _ _, (by decide : (5 + 10 : Int) ≤ 1000)⟩

/-- The committer reveals when the challenge window is over. -/
def lateReveal (c : Computation) (signature : BytesN) : Invocation Op :=
  ⟨.signedBy 15 [⟨9⟩], .revealPrice ⟨9⟩ sampleFeed c sampleKey signature none⟩

/-- What was committed to is revealed then, if the oracle key has signed it. -/
theorem lateReveal_reveals {s : Store} {c : Computation} {signature : BytesN}
    (hconfig : s.config = some sampleConfig)
    (hstored : s.commitments.get sampleFeed =
      some ⟨crypto.sha256 (buildCommitmentPayload c sampleFeed sampleKey), 5, .challengeWindow⟩)
    (hsigned : Attested crypto sampleConfig c sampleFeed signature) :
    Reveals crypto (s, lateReveal c signature) sampleFeed c sampleKey ∧
      (step (exec crypto) s (lateReveal c signature)).feeds.get sampleFeed =
        some (c.entry 15 []) := by
  have hpending : Pending s sampleConfig sampleFeed
      ⟨crypto.sha256 (buildCommitmentPayload c sampleFeed sampleKey), 5, .challengeWindow⟩ 15 :=
    ⟨hstored, rfl, (by decide : (15 : Int) = 5 + 10)⟩
  have hok := revealPrice_eq_ok.mpr ⟨sampleConfig, _, 15, [],
    ⟨hconfig, Env.authorized_signedBy 15 ⟨9⟩, hpending, le_refl _, rfl,
      hsigned⟩, (⟨rfl, Nat.zero_le _⟩ : CidAccepted none []), rfl⟩
  refine ⟨⟨⟨_, hok⟩, _, _, _, rfl⟩, ?_⟩
  rw [lateReveal, step_of_ok hok]
  exact Storage.get_set_self _ _ _

/-- Under every hash and signature scheme, that feed is still blocked in ledger 1000. -/
theorem commitment_blocks_feed : ¬ ∃ crypto : Crypto,
    ∀ run feedId cfg commitment env oracle hash,
      WindowOver (Run.final (step (exec crypto)) Store.empty run) feedId cfg commitment
        env.sequence → env.authorized oracle = true →
      (commitPrice oracle feedId hash).Succeeds env
        (Run.final (step (exec crypto)) Store.empty run) := by
  intro h
  rcases h with ⟨crypto, hrecommit⟩
  have hok := hrecommit (commitRun sampleKey) sampleFeed sampleConfig _ (.signedBy 1000 [⟨8⟩]) ⟨8⟩
    sampleKey (commitRun_windowOver crypto sampleKey) rfl
  rw [final_commitRun, commit_succeeds_iff rfl rfl] at hok
  exact not_free_of_waiting ⟨_, Storage.get_set_self _ _ _, rfl⟩ hok

/-- The identity as a hash, and the signed message under its key as the signature. -/
def plainCrypto : Crypto where
  sha256 := BytesN.mk
  ed25519Verify publicKey message signature :=
    decide (signature = ⟨publicKey.toArray ++ message⟩)

/-- A message under the key is a signature. -/
theorem plainCrypto_verify (publicKey : BytesN) (message : Bytes) :
    plainCrypto.ed25519Verify publicKey message ⟨publicKey.toArray ++ message⟩ = true :=
  decide_eq_true rfl

/-- Every computation has a signature under that scheme. -/
example (c : Computation) :
    ∃ signature, Attested plainCrypto sampleConfig c sampleFeed signature :=
  ⟨_, plainCrypto_verify _ _⟩

/-- A price is committed to, and revealed at the end of the window. -/
def revealRun (c : Computation) : List (Invocation Op) :=
  commitRun (plainCrypto.sha256 (buildCommitmentPayload c sampleFeed sampleKey)) ++
    [lateReveal c ⟨sampleKey.toArray ++ buildPayload schemaVersion c sampleFeed⟩]

/-- The price is revealed in that run. -/
theorem mem_history_revealRun (c : Computation) :
    ∃ e ∈ history plainCrypto (revealRun c), Reveals plainCrypto e sampleFeed c sampleKey := by
  have hreveals := (lateReveal_reveals (s := committedStore _) rfl (Storage.get_set_self _ _ _)
    (plainCrypto_verify sampleKey (buildPayload schemaVersion c sampleFeed))).1
  refine ⟨_, ?_, hreveals⟩
  rw [revealRun, history, Run.trace_append, final_commitRun, Run.trace_cons]
  exact List.mem_append_right _ List.mem_cons_self

theorem revealRun_safe : CommitRevealSafe plainCrypto (revealRun (sampleComputation 50)) ∧
    ∃ e ∈ history plainCrypto (revealRun (sampleComputation 50)),
      Reveals plainCrypto e sampleFeed (sampleComputation 50) sampleKey :=
  ⟨commit_reveal_safe BytesN.mk_injective _, mem_history_revealRun _⟩

theorem commitRun_recommit_iff :
    (commitPrice ⟨8⟩ sampleFeed sampleKey).Succeeds (.signedBy 1000 [⟨8⟩])
        (Run.final (step (exec plainCrypto)) Store.empty (commitRun sampleKey)) ↔
      ¬ Unanswered plainCrypto sampleFeed (history plainCrypto (commitRun sampleKey)) :=
  recommit_iff (commitRun_windowOver plainCrypto sampleKey) rfl sampleKey

end CarbonOracle
end Kraal
