import Kraal.CarbonOracle.Freshness

/-!
# Commit and reveal, as the past decides them

Whether the contract accepts a commitment, a dispute or a reveal is a matter of what has happened
before: which key and which challenge window were set last, and whether a commit for the feed has
been answered since.  The state of the contract keeps exactly that of its past.

Main results:

- Definitions {lit}`keyRegister` and {lit}`windowRegister`: the key and the challenge window.
- Theorem {lit}`waiting_at_iff`: which commitment waits for a feed, and since when.
- Theorem {lit}`answered_by_history`: when each of the three calls succeeds after a run.
-/

namespace Kraal
namespace CarbonOracle

open Foundation

variable {crypto : Crypto}

/-! ## The configuration in force -/

/-- The key that an operation puts in force if it returns. -/
def Op.key : Op → Option BytesN
  | .initializeContract _ oraclePubkey _ => some oraclePubkey
  | .rotateKey _ newPubkey => some newPubkey
  | _ => none

/-- The challenge window that an operation puts in force if it returns. -/
def Op.window : Op → Option U32
  | .initializeContract _ _ challengeWindowDuration => some challengeWindowDuration
  | .setChallengeWindow _ duration => some duration
  | _ => none

/-- What a step puts in force. -/
def enforced {β : Type} (crypto : Crypto) (part : Op → Option β) (e : Store × Invocation Op) :
    Option β :=
  if Returns crypto e then part e.2.call else none

/-- The window of the configuration. -/
def Store.window (s : Store) : Option U32 := s.config.map Config.challengeWindowDuration

/-- An operation that returns puts its key and its window in force, or keeps those before. -/
theorem config_after {env : Env} {s s' : Store} {op : Op}
    (h : exec crypto op env s = .ok ((), s')) :
    s'.config.map Config.oraclePubkey = op.key.or (s.config.map Config.oraclePubkey) ∧
      s'.window = op.window.or s.window := by
  unfold Store.window
  cases op with
  | initializeContract admin oraclePubkey duration =>
      rcases initializeContract_eq_ok.mp h with ⟨-, -, rfl⟩
      exact ⟨rfl, rfl⟩
  | setChallengeWindow admin duration =>
      rcases setChallengeWindow_eq_ok.mp h with ⟨cfg, hcfg, -, -, rfl⟩
      rw [hcfg]
      exact ⟨rfl, rfl⟩
  | rotateKey admin newPubkey =>
      rcases rotateKey_eq_ok.mp h with ⟨cfg, hcfg, -, -, rfl⟩
      rw [hcfg]
      exact ⟨rfl, rfl⟩
  | heartbeat oracle timestampUtc =>
      rcases heartbeat_eq_ok.mp h with ⟨cfg, hcfg, -, -, rfl⟩
      rw [hcfg]
      exact ⟨rfl, rfl⟩
  | _ =>
      rcases config_cases h with ⟨_, _, _, hop, _⟩ | ⟨_, _, _, hop, _⟩ | ⟨_, _, hop, _⟩ |
        ⟨_, _, hop, _⟩ | ⟨-, -, hsame⟩
      · cases hop
      · cases hop
      · cases hop
      · cases hop
      · rw [hsame]
        exact ⟨rfl, rfl⟩

/-- The key after a step. -/
theorem step_key (crypto : Crypto) (s : Store) (i : Invocation Op) :
    (step (exec crypto) s i).config.map Config.oraclePubkey =
      (enforced crypto Op.key (s, i)).or (s.config.map Config.oraclePubkey) := by
  by_cases hreturns : Returns crypto (s, i)
  · have hok := hreturns
    rcases hok with ⟨⟨⟨⟩, s'⟩, hexec⟩
    rw [step_of_ok hexec, enforced, if_pos hreturns]
    exact (config_after hexec).1
  · rw [step_of_not_succeeds hreturns, enforced, if_neg hreturns, Option.none_or]

/-- The window after a step. -/
theorem step_windowInForce (crypto : Crypto) (s : Store) (i : Invocation Op) :
    (step (exec crypto) s i).window = (enforced crypto Op.window (s, i)).or s.window := by
  by_cases hreturns : Returns crypto (s, i)
  · have hok := hreturns
    rcases hok with ⟨⟨⟨⟩, s'⟩, hexec⟩
    rw [step_of_ok hexec, enforced, if_pos hreturns]
    exact (config_after hexec).2
  · rw [step_of_not_succeeds hreturns, enforced, if_neg hreturns, Option.none_or]

/-- The key whose signatures count. -/
def keyRegister (crypto : Crypto) : Register (step (exec crypto)) BytesN where
  read s := s.config.map Config.oraclePubkey
  written := enforced crypto Op.key
  read_step := step_key crypto

/-- The challenge window. -/
def windowRegister (crypto : Crypto) : Register (step (exec crypto)) U32 where
  read := Store.window
  written := enforced crypto Op.window
  read_step := step_windowInForce crypto

/-- A key or a window was set by a step, and none has been set since. -/
def InForce {β : Type} (crypto : Crypto) (part : Op → Option β)
    (past : List (Store × Invocation Op)) (b : β) : Prop :=
  Run.Since (fun e => enforced crypto part e = some b)
    (fun e => (enforced crypto part e).isSome = true) past

/-- The key that is stored is the last one that was set. -/
theorem key_inForce_iff (crypto : Crypto) (run : List (Invocation Op)) (key : BytesN) :
    (Run.final (step (exec crypto)) Store.empty run).config.map Config.oraclePubkey = some key ↔
      InForce crypto Op.key (history crypto run) key :=
  (keyRegister crypto).read_iff_since rfl

/-- The window that is stored is the last one that was set. -/
theorem window_inForce_iff (crypto : Crypto) (run : List (Invocation Op)) (duration : U32) :
    (Run.final (step (exec crypto)) Store.empty run).window = some duration ↔
      InForce crypto Op.window (history crypto run) duration :=
  (windowRegister crypto).read_iff_since rfl

/-! ## The commitment that waits -/

/-- A commit to a hash for a feed at a ledger, which nothing about the feed has followed. -/
def Stands (crypto : Crypto) (feedId hash : BytesN) (recordedAt : U32)
    (past : List (Store × Invocation Op)) : Prop :=
  Run.Since (fun e => Commits crypto e feedId hash ∧ e.2.env.sequence = recordedAt)
    (fun e => Moves crypto e feedId) past

/-- A commit is to one hash. -/
theorem Commits.unique {e : Store × Invocation Op} {feedId hash hash' : BytesN}
    (h : Commits crypto e feedId hash) (h' : Commits crypto e feedId hash') : hash' = hash := by
  rcases h with ⟨-, oracle, hcall⟩
  rcases h' with ⟨-, oracle', hcall'⟩
  rw [hcall, Op.commitPrice.injEq] at hcall'
  exact hcall'.2.2.symm

/-- A commitment waits for a feed exactly if a commit to its hash stands. -/
theorem waiting_at_iff (crypto : Crypto) (run : List (Invocation Op)) (feedId hash : BytesN)
    (recordedAt : U32) :
    (Run.final (step (exec crypto)) Store.empty run).commitments.get feedId =
        some ⟨hash, recordedAt, .challengeWindow⟩ ↔
      Stands crypto feedId hash recordedAt (history crypto run) := by
  refine Run.history_invariant (P := fun past (s : Store) => s.commitments.get feedId =
    some ⟨hash, recordedAt, .challengeWindow⟩ ↔ Stands crypto feedId hash recordedAt past) ?_ ?_ run
  · refine iff_of_false ?_ Run.not_since_nil
    simp [Store.empty]
  · intro past s i ih
    rw [Stands, Run.since_append_singleton]
    rcases step_commitment crypto s i feedId with ⟨hkept, hsame⟩ | ⟨hash', hcommits, hnew⟩ |
      ⟨hended, commitment, hstored, hstate⟩
    · have hnone : ¬ (Commits crypto (s, i) feedId hash ∧ i.env.sequence = recordedAt) :=
        fun h => hkept (.inl ⟨hash, h.1⟩)
      rw [hsame, ih]
      constructor
      · intro h
        exact .inr ⟨h, hkept⟩
      · intro h
        rcases h with h | ⟨h, -⟩
        · exact absurd h hnone
        · exact h
    · rw [hnew, Option.some.injEq, PriceCommitment.mk.injEq]
      constructor
      · intro h
        rcases h with ⟨rfl, hrecorded, -⟩
        exact .inl ⟨hcommits, hrecorded⟩
      · intro h
        rcases h with ⟨hcommits', hrecorded⟩ | ⟨-, hkept⟩
        · exact ⟨(hcommits'.unique hcommits), hrecorded, rfl⟩
        · exact absurd (.inl ⟨hash', hcommits⟩) hkept
    · refine iff_of_false ?_ ?_
      · intro h
        rw [hstored, Option.some.injEq] at h
        subst h
        exact ended_not_waiting hstate rfl
      · intro h
        rcases h with ⟨hcommits, -⟩ | ⟨-, hkept⟩
        · exact not_commits hended feedId hash hcommits
        · exact hkept (.inr hended)

/-! ## The calls, state by state -/

section

variable {env : Env} {s : Store} {feedId : BytesN}

/-- When a commit succeeds. -/
theorem commit_succeeds {oracle : Address} {hash : BytesN} :
    (commitPrice oracle feedId hash).Succeeds env s ↔
      s.config.isSome = true ∧ env.authorized oracle = true ∧ CommitmentFree s feedId := by
  constructor
  · intro h
    rcases h with ⟨⟨⟨⟩, s'⟩, hcommit⟩
    rcases commitPrice_eq_ok.mp hcommit with ⟨hcfg, hauth, hfree, -⟩
    exact ⟨hcfg, hauth, hfree⟩
  · intro h
    rcases h with ⟨hcfg, hauth, hfree⟩
    exact ⟨((), _), commitPrice_eq_ok.mpr ⟨hcfg, hauth, hfree, rfl⟩⟩

/-- A commitment with the end of its window, from its parts. -/
theorem pending_iff {cfg : Config} {commitment : PriceCommitment} {expiry : U32} :
    Pending s cfg feedId commitment expiry ↔
      s.commitments.get feedId =
        some ⟨commitment.commitmentHash, commitment.recordedAt, .challengeWindow⟩ ∧
      commitment.state = .challengeWindow ∧
      expiry.toInt = commitment.recordedAt.toInt + cfg.challengeWindowDuration.toInt := by
  constructor
  · intro h
    refine ⟨?_, h.window, h.expiry_eq⟩
    rw [h.stored, ← h.window]
  · intro h
    rcases h with ⟨hstored, hwindow, hexpiry⟩
    refine ⟨?_, hwindow, hexpiry⟩
    rw [hstored, ← hwindow]

/-- When a challenge succeeds. -/
theorem challenge_succeeds {challenger : Address} {value : I64} :
    (challengePrice challenger feedId value).Succeeds env s ↔
      ∃ duration hash recordedAt, s.window = some duration ∧
        s.commitments.get feedId = some ⟨hash, recordedAt, .challengeWindow⟩ ∧
        env.authorized challenger = true ∧
        env.sequence.toInt < recordedAt.toInt + duration.toInt ∧
        recordedAt.toInt + duration.toInt ≤ 2 ^ 32 - 1 := by
  constructor
  · intro h
    rcases h with ⟨⟨⟨⟩, s'⟩, hchallenge⟩
    rcases challengePrice_eq_ok.mp hchallenge with ⟨cfg, commitment, expiry, hcfg, hauth, hpending,
      hopen, -⟩
    rcases pending_iff.mp hpending with ⟨hstored, -, hexpiry⟩
    have hfits : expiry.toInt ≤ 2 ^ 32 - 1 := expiry.le_hi
    refine ⟨cfg.challengeWindowDuration, _, _, ?_, hstored, hauth, ?_, ?_⟩
    · rw [Store.window, hcfg]
      rfl
    · omega
    · omega
  · intro h
    rcases h with ⟨duration, hash, recordedAt, hwindow, hstored, hauth, hopen, hfits⟩
    rcases Option.map_eq_some_iff.mp hwindow with ⟨cfg, hcfg, rfl⟩
    rcases Option.isSome_iff_exists.mp (MInt.checkedAdd_u32_isSome_iff.mpr hfits) with
      ⟨expiry, hexpiry⟩
    rw [MInt.checkedAdd_eq_some] at hexpiry
    refine ⟨((), _), challengePrice_eq_ok.mpr ⟨cfg, _, expiry, hcfg, hauth,
      ⟨hstored, rfl, hexpiry⟩, ?_, rfl⟩⟩
    omega

/-- When a reveal succeeds. -/
theorem reveal_succeeds {oracle : Address} {c : Computation} {salt signature : BytesN}
    {ipfsCid : Option Bytes} :
    (revealPrice crypto oracle feedId c salt signature ipfsCid).Succeeds env s ↔
      ∃ key duration recordedAt, s.config.map Config.oraclePubkey = some key ∧
        s.window = some duration ∧
        s.commitments.get feedId = some
          ⟨crypto.sha256 (buildCommitmentPayload c feedId salt), recordedAt, .challengeWindow⟩ ∧
        env.authorized oracle = true ∧
        recordedAt.toInt + duration.toInt ≤ env.sequence.toInt ∧
        crypto.ed25519Verify key (buildPayload schemaVersion c feedId) signature = true ∧
        (ipfsCid.getD []).length ≤ maxCidLen := by
  constructor
  · intro h
    rcases h with ⟨⟨⟨⟩, s'⟩, hreveal⟩
    rcases revealPrice_eq_ok.mp hreveal with ⟨cfg, commitment, expiry, cid, haccepted, ⟨rfl, hlen⟩,
      -⟩
    rcases pending_iff.mp haccepted.pending with ⟨hstored, -, hexpiry⟩
    rw [← haccepted.opens] at hstored
    refine ⟨cfg.oraclePubkey, cfg.challengeWindowDuration, _, ?_, ?_, hstored, haccepted.auth, ?_,
      haccepted.attested, hlen⟩
    · rw [haccepted.config]
      rfl
    · rw [Store.window, haccepted.config]
      rfl
    · rw [← hexpiry]
      exact haccepted.expired
  · intro h
    rcases h with ⟨key, duration, recordedAt, hkey, hwindow, hstored, hauth, hover, hsigned, hlen⟩
    rcases Option.map_eq_some_iff.mp hwindow with ⟨cfg, hcfg, rfl⟩
    rw [hcfg, Option.map_some, Option.some.injEq] at hkey
    subst hkey
    -- the window is over, so its end is a ledger
    have hlast : env.sequence.toInt ≤ 2 ^ 32 - 1 := env.sequence.le_hi
    rcases Option.isSome_iff_exists.mp (MInt.checkedAdd_u32_isSome_iff.mpr (hover.trans hlast)) with
      ⟨expiry, hexpiry⟩
    rw [MInt.checkedAdd_eq_some] at hexpiry
    refine ⟨((), _), revealPrice_eq_ok.mpr ⟨cfg, _, expiry, _, ⟨hcfg, hauth,
      ⟨hstored, rfl, hexpiry⟩, ?_, rfl, hsigned⟩, ⟨rfl, hlen⟩, rfl⟩⟩
    rw [hexpiry]
    exact hover

end

/-! ## The calls, as the past decides them -/

/-- When commits, disputes and reveals succeed after a run. -/
structure AnsweredByHistory (crypto : Crypto) (run : List (Invocation Op)) (env : Env)
    (feedId : BytesN) : Prop where
  /-- A commit needs a feed without a commit that stands. -/
  commit : ∀ oracle hash,
    (commitPrice oracle feedId hash).Succeeds env
        (Run.final (step (exec crypto)) Store.empty run) ↔
      (∃ key, InForce crypto Op.key (history crypto run) key) ∧ env.authorized oracle = true ∧
        ∀ hash' recordedAt, ¬ Stands crypto feedId hash' recordedAt (history crypto run)
  /-- A dispute needs a commit that stands, whose window is open and ends in some ledger. -/
  challenge : ∀ challenger value,
    (challengePrice challenger feedId value).Succeeds env
        (Run.final (step (exec crypto)) Store.empty run) ↔
      ∃ duration hash recordedAt, InForce crypto Op.window (history crypto run) duration ∧
        Stands crypto feedId hash recordedAt (history crypto run) ∧
        env.authorized challenger = true ∧
        env.sequence.toInt < recordedAt.toInt + duration.toInt ∧
        recordedAt.toInt + duration.toInt ≤ 2 ^ 32 - 1
  /-- A reveal needs a commit to its hash that stands, whose window is over, and a signature
  under the key in force. -/
  reveal : ∀ oracle c salt signature ipfsCid,
    (revealPrice crypto oracle feedId c salt signature ipfsCid).Succeeds env
        (Run.final (step (exec crypto)) Store.empty run) ↔
      ∃ key duration recordedAt, InForce crypto Op.key (history crypto run) key ∧
        InForce crypto Op.window (history crypto run) duration ∧
        Stands crypto feedId (crypto.sha256 (buildCommitmentPayload c feedId salt)) recordedAt
          (history crypto run) ∧
        env.authorized oracle = true ∧
        recordedAt.toInt + duration.toInt ≤ env.sequence.toInt ∧
        crypto.ed25519Verify key (buildPayload schemaVersion c feedId) signature = true ∧
        (ipfsCid.getD []).length ≤ maxCidLen

/-- A feed is free exactly if no commit for it stands. -/
theorem commitmentFree_final_iff (crypto : Crypto) (run : List (Invocation Op)) (feedId : BytesN) :
    CommitmentFree (Run.final (step (exec crypto)) Store.empty run) feedId ↔
      ∀ hash recordedAt, ¬ Stands crypto feedId hash recordedAt (history crypto run) := by
  constructor
  · intro hfree hash recordedAt hstands
    rw [← waiting_at_iff] at hstands
    exact (hfree _ hstands).2 rfl
  · intro hnone existing hstored
    refine ⟨commitment_state crypto run hstored, fun hwaits => ?_⟩
    apply hnone existing.commitmentHash existing.recordedAt
    rw [← waiting_at_iff, hstored, ← hwaits]

/-- After every run, the past decides which commits, disputes and reveals succeed. -/
theorem answered_by_history (crypto : Crypto) (run : List (Invocation Op)) (env : Env)
    (feedId : BytesN) : AnsweredByHistory crypto run env feedId where
  commit oracle hash := by
    rw [commit_succeeds, commitmentFree_final_iff]
    refine and_congr_left fun _ => ?_
    simp only [← key_inForce_iff, Option.isSome_iff_exists, Option.map_eq_some_iff]
    constructor
    · intro h
      rcases h with ⟨cfg, hcfg⟩
      exact ⟨cfg.oraclePubkey, cfg, hcfg, rfl⟩
    · intro h
      rcases h with ⟨key, cfg, hcfg, -⟩
      exact ⟨cfg, hcfg⟩
  challenge challenger value := by
    rw [challenge_succeeds]
    simp only [waiting_at_iff, window_inForce_iff]
  reveal oracle c salt signature ipfsCid := by
    rw [reveal_succeeds]
    simp only [waiting_at_iff, window_inForce_iff, key_inForce_iff]

end CarbonOracle
end Kraal
