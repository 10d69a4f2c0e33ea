import Kraal.CarbonOracle.Freshness

/-!
# Who controls the availability of the feeds

A price is available if the contract is initialised, the heartbeat of the operator has not
expired and the feed has a price.  The administrator controls the configuration and the
oracle key the prices.  The heartbeat asks for the authorization of whatever address it is
called with, so it is open to everybody.

Main results:

- Theorem {lit}`availability_eq`: what the outcome of a price query depends on.
- Theorem {lit}`strangers_config`: calls without the administrator leave the configuration as
  it was but for the last heartbeat.
- Theorem {lit}`availability_iff`: when calls of strangers change no outcome.
- Theorem {lit}`stranger_stops_feeds`: a heartbeat of a stranger that stops all feeds.
-/

namespace Kraal
namespace CarbonOracle

open Foundation

variable {crypto : Crypto}

/-! ## The outcome of a query -/

/-- The outcome of a price query, without the price. -/
def availability (feedId : BytesN) (env : Env) (s : Store) : Except (Fault Error) Unit :=
  (getPrice feedId env s).map fun _ => ()

instance (cfg : Config) (env : Env) : Decidable (HeartbeatExpired cfg env) :=
  inferInstanceAs (Decidable (_ ∧ _))

theorem availability_of_none {s : Store} (hcfg : s.config = none) (feedId : BytesN) (env : Env) :
    availability feedId env s = .error (.error .notInitialized) := by
  have hfail : getPrice feedId env s = .error (.error .notInitialized) := by
    refine Call.bind_of_error (Call.bind_eq_error.mpr (.inr ⟨s, s, rfl, ?_⟩))
    rw [hcfg]
    rfl
  rw [availability, hfail]
  rfl

theorem getPrice_of_expired {s : Store} {cfg : Config} {env : Env} (hcfg : s.config = some cfg)
    (hexpired : HeartbeatExpired cfg env) (feedId : BytesN) :
    getPrice feedId env s = .error (.error .staleFeed) := by
  have hload : requireConfig env s = .ok (cfg, s) := requireConfig_eq_ok.mpr ⟨hcfg, rfl⟩
  refine (Call.bind_of_ok hload).trans ?_
  refine (Call.bind_of_ok rfl).trans ?_
  exact Call.bind_of_error (Call.failIf_eq_error.mpr ⟨hexpired, rfl⟩)

theorem getPrice_of_fresh {s : Store} {cfg : Config} {env : Env} (hcfg : s.config = some cfg)
    (hfresh : ¬ HeartbeatExpired cfg env) (feedId : BytesN) :
    getPrice feedId env s = Call.okOr (s.feeds.get feedId) .feedNotFound env s := by
  have hload : requireConfig env s = .ok (cfg, s) := requireConfig_eq_ok.mpr ⟨hcfg, rfl⟩
  refine (Call.bind_of_ok hload).trans ?_
  refine (Call.bind_of_ok rfl).trans ?_
  exact Call.bind_of_ok (Call.failIf_eq_ok.mpr ⟨hfresh, rfl⟩)

/-- The outcome depends on the heartbeat, and on whether the feed has a price. -/
theorem availability_eq {s : Store} {cfg : Config} (hcfg : s.config = some cfg) (feedId : BytesN)
    (env : Env) :
    availability feedId env s =
      if HeartbeatExpired cfg env then .error (.error .staleFeed)
      else if (s.feeds.get feedId).isSome = true then .ok ()
      else .error (.error .feedNotFound) := by
  by_cases hexpired : HeartbeatExpired cfg env
  · rw [if_pos hexpired, availability, getPrice_of_expired hcfg hexpired]
    rfl
  · rw [if_neg hexpired, availability, getPrice_of_fresh hcfg hexpired]
    cases s.feeds.get feedId with
    | none => rfl
    | some p => rfl

/-! ## Calls of strangers -/

/-- The administrator has not authorized a call. -/
def Stranger (s : Store) (i : Invocation Op) : Prop :=
  ∀ cfg, s.config = some cfg → i.env.authorized cfg.admin = false

/-- The time that a step reports as a heartbeat. -/
def heartbeatTime (crypto : Crypto) (e : Store × Invocation Op) : Option I64 :=
  if Returns crypto e then e.2.call.heartbeatTime else none

/-- The last heartbeat of a list of steps, or the given one if there is none. -/
def lastReported (crypto : Crypto) (stored : I64) (past : List (Store × Invocation Op)) : I64 :=
  (past.filterMap (heartbeatTime crypto)).getLast?.getD stored

theorem lastReported_append_singleton (crypto : Crypto) (stored : I64)
    (past : List (Store × Invocation Op)) (e : Store × Invocation Op) :
    lastReported crypto stored (past ++ [e]) =
      (heartbeatTime crypto e).getD (lastReported crypto stored past) := by
  unfold lastReported
  cases htime : heartbeatTime crypto e with
  | none => simp [htime]
  | some t => simp [htime]

/-- A call that the administrator has not authorized changes the last heartbeat at most. -/
theorem stranger_config {s : Store} {i : Invocation Op} {cfg : Config} (hcfg : s.config = some cfg)
    (hstranger : i.env.authorized cfg.admin = false) :
    (step (exec crypto) s i).config = some { cfg with
      lastHeartbeat := (heartbeatTime crypto (s, i)).getD cfg.lastHeartbeat } := by
  unfold heartbeatTime
  by_cases hreturns : Returns crypto (s, i)
  · have hok := hreturns
    rcases hok with ⟨⟨⟨⟩, s'⟩, hexec⟩
    rw [step_of_ok hexec, if_pos hreturns]
    rcases config_cases hexec with ⟨admin, oraclePubkey, duration, -, hnone, -⟩ |
      ⟨oracle, timestampUtc, cfg', hcall, hcfg', rfl⟩ | ⟨duration, cfg', -, hcfg', hauth, -⟩ |
      ⟨oraclePubkey, cfg', -, hcfg', hauth, -⟩ | ⟨hcall, -, hsame⟩
    · simp [hcfg] at hnone
    · simp only [hcfg, Option.some.injEq] at hcfg'
      subst hcfg'
      rw [hcall]
      rfl
    · simp only [hcfg, Option.some.injEq] at hcfg'
      subst hcfg'
      simp [hstranger] at hauth
    · simp only [hcfg, Option.some.injEq] at hcfg'
      subst hcfg'
      simp [hstranger] at hauth
    · rw [hsame, hcall, hcfg]
      rfl
  · rw [step_of_not_succeeds hreturns, if_neg hreturns, hcfg]
    rfl

/-- The configuration with the last heartbeat of a list of steps. -/
def Config.heard (cfg : Config) (crypto : Crypto) (past : List (Store × Invocation Op)) : Config :=
  { cfg with lastHeartbeat := lastReported crypto cfg.lastHeartbeat past }

/-- Calls that the administrator has not authorized leave the configuration as it was but for
the last heartbeat. -/
theorem strangers_config {s : Store} {cfg : Config} (hcfg : s.config = some cfg)
    {run : List (Invocation Op)} (hstrangers : ∀ i ∈ run, Stranger s i) :
    (Run.final (step (exec crypto)) s run).config =
      some (cfg.heard crypto (Run.trace (step (exec crypto)) s run)) := by
  refine Run.history_invariant_of_mem
    (P := fun past (t : Store) => t.config = some (cfg.heard crypto past)) hcfg ?_
  intro past t i hi hbefore
  rw [Config.heard, lastReported_append_singleton]
  exact stranger_config hbefore (hstrangers i hi cfg hcfg)

/-- A contract is initialised after a run exactly if it was, or a call has returned. -/
theorem config_isSome_final (s : Store) (run : List (Invocation Op)) :
    (Run.final (step (exec crypto)) s run).config.isSome = true ↔
      s.config.isSome = true ∨
      ∃ e ∈ Run.trace (step (exec crypto)) s run, Returns crypto e := by
  refine Run.history_invariant (P := fun past (t : Store) => t.config.isSome = true ↔
    s.config.isSome = true ∨ ∃ e ∈ past, Returns crypto e) ?_ ?_ run
  · simp
  · intro past t i ih
    by_cases hreturns : Returns crypto (t, i)
    · have hok := hreturns
      rcases hok with ⟨⟨⟨⟩, t'⟩, hexec⟩
      rw [step_of_ok hexec]
      refine iff_of_true ?_ (.inr ⟨(t, i), by simp, hreturns⟩)
      rcases config_cases hexec with ⟨admin, oraclePubkey, duration, -, -, rfl⟩ |
        ⟨oracle, timestampUtc, cfg, -, -, rfl⟩ | ⟨duration, cfg, -, -, -, rfl⟩ |
        ⟨oraclePubkey, cfg, -, -, -, rfl⟩ | ⟨-, hsome, hsame⟩
      · rfl
      · rfl
      · rfl
      · rfl
      · rw [hsame]
        exact hsome
    · rw [step_of_not_succeeds hreturns, ih]
      simp [hreturns, or_and_right, exists_or]

/-! ## Outcomes after a run of strangers -/

/-- A query is made after all calls of a run. -/
def Later (run : List (Invocation Op)) (env : Env) : Prop :=
  ∀ i ∈ run, i.env.timestamp ≤ env.timestamp

/-- What strangers may do to an initialised contract without a change in any outcome. -/
structure InitialisedUndisturbed (crypto : Crypto) (s : Store) (run : List (Invocation Op))
    (cfg : Config) : Prop where
  /-- The last heartbeat they report expires at the same later times as the stored one. -/
  heartbeat : ∀ env, Later run env →
    (HeartbeatExpired (cfg.heard crypto (Run.trace (step (exec crypto)) s run)) env ↔
      HeartbeatExpired cfg env)
  /-- The attestations they submit are for feeds that have a price, unless the stored
  heartbeat has expired for good. -/
  prices : (∀ env, Later run env → HeartbeatExpired cfg env) ∨
    ∀ e ∈ Run.trace (step (exec crypto)) s run, ∀ feedId p,
      attestedPrice crypto feedId e = some p → (s.feeds.get feedId).isSome = true

/-- What strangers may do without a change in any outcome: they do not initialise the
contract, and they do not disturb it if it is initialised. -/
def Undisturbed (crypto : Crypto) (s : Store) (run : List (Invocation Op)) : Prop :=
  match s.config with
  | none => ∀ e ∈ Run.trace (step (exec crypto)) s run, ¬ Returns crypto e
  | some cfg => InitialisedUndisturbed crypto s run cfg

/-- A feed has a price after a run exactly if it had one, or an attestation for it was
accepted. -/
theorem feed_isSome_final (s : Store) (run : List (Invocation Op)) (feedId : BytesN) :
    ((Run.final (step (exec crypto)) s run).feeds.get feedId).isSome = true ↔
      (s.feeds.get feedId).isSome = true ∨
      ∃ e ∈ Run.trace (step (exec crypto)) s run, ∃ p, attestedPrice crypto feedId e = some p := by
  simp only [← Option.isSome_iff_exists]
  exact (feedRegister crypto feedId).read_final_isSome s run

/-- The outcomes of two configured states agree exactly if their heartbeats expire together,
and if they have prices for the same feeds whenever those have not expired. -/
theorem availability_eq_iff {s t : Store} {cfg cfg' : Config} (hcfg : s.config = some cfg)
    (hcfg' : t.config = some cfg') (env : Env) :
    (∀ feedId, availability feedId env t = availability feedId env s) ↔
      (HeartbeatExpired cfg' env ↔ HeartbeatExpired cfg env) ∧
      (HeartbeatExpired cfg env ∨ ∀ feedId,
        ((t.feeds.get feedId).isSome = true ↔ (s.feeds.get feedId).isSome = true)) := by
  simp only [availability_eq hcfg, availability_eq hcfg']
  by_cases hexpired : HeartbeatExpired cfg env
  · by_cases hexpired' : HeartbeatExpired cfg' env
    · simp [hexpired, hexpired']
    · simp only [hexpired, hexpired', if_true, if_false]
      constructor
      · intro h
        have houtcome := h ⟨[]⟩
        split at houtcome <;> simp at houtcome
      · intro h
        exact absurd (h.1.mpr trivial) id
  · by_cases hexpired' : HeartbeatExpired cfg' env
    · simp only [hexpired, hexpired', if_true, if_false]
      constructor
      · intro h
        have houtcome := h ⟨[]⟩
        split at houtcome <;> simp at houtcome
      · intro h
        exact absurd (h.1.mp trivial) id
    · simp only [hexpired, hexpired', if_false, true_and, false_or]
      constructor
      · intro h feedId
        have houtcome := h feedId
        split at houtcome <;> split at houtcome <;> simp_all
      · intro h feedId
        rw [if_congr (h feedId) rfl rfl]

/-- No query is made on an initialised contract before it is initialised. -/
theorem availability_ne_none {s t : Store} {cfg : Config} (hcfg : s.config = none)
    (hcfg' : t.config = some cfg) (feedId : BytesN) (env : Env) :
    availability feedId env t ≠ availability feedId env s := by
  rw [availability_of_none hcfg, availability_eq hcfg']
  split
  · simp
  · split <;> simp

/-- A time after all calls. -/
def lastEnv : Env := ⟨0, MInt.maxValue IntType.u64, fun _ => false⟩

theorem later_lastEnv (run : List (Invocation Op)) : Later run lastEnv :=
  fun i _ => i.env.timestamp.le_hi

/-- Calls that the administrator has not authorized change no outcome of a price query
exactly if they do not disturb the contract. -/
theorem availability_iff {s : Store} {run : List (Invocation Op)}
    (hstrangers : ∀ i ∈ run, Stranger s i) :
    (∀ feedId env, Later run env →
      availability feedId env (Run.final (step (exec crypto)) s run) =
        availability feedId env s) ↔ Undisturbed crypto s run := by
  have hsome : (Run.final (step (exec crypto)) s run).config.isSome = true ↔
      s.config.isSome = true ∨ ∃ e ∈ Run.trace (step (exec crypto)) s run, Returns crypto e :=
    config_isSome_final s run
  unfold Undisturbed
  cases hcfg : s.config with
  | none =>
      simp only [hcfg, Option.isSome_none, Bool.false_eq_true, false_or] at hsome
      constructor
      · intro hsame e he hreturns
        rcases Option.isSome_iff_exists.mp (hsome.mpr ⟨e, he, hreturns⟩) with ⟨cfg, hcfg'⟩
        exact availability_ne_none hcfg hcfg' ⟨[]⟩ lastEnv (hsame _ _ (later_lastEnv run))
      · intro hnone feedId env _
        have hcfg' : (Run.final (step (exec crypto)) s run).config = none := by
          rw [← Option.not_isSome_iff_eq_none, hsome]
          intro h
          rcases h with ⟨e, he, hreturns⟩
          exact hnone e he hreturns
        rw [availability_of_none hcfg, availability_of_none hcfg']
  | some cfg =>
      have hcfg' : (Run.final (step (exec crypto)) s run).config =
          some (cfg.heard crypto (Run.trace (step (exec crypto)) s run)) :=
        strangers_config hcfg hstrangers
      have hiff := availability_eq_iff hcfg hcfg'
      constructor
      · intro hsame
        constructor
        · intro env hlater
          exact ((hiff env).mp fun feedId => hsame feedId env hlater).1
        · by_cases hexpired : ∀ env, Later run env → HeartbeatExpired cfg env
          · exact .inl hexpired
          · right
            intro e he feedId p hprice
            simp only [not_forall] at hexpired
            rcases hexpired with ⟨env, hlater, hfresh⟩
            rcases ((hiff env).mp fun feedId => hsame feedId env hlater).2 with hstale | hfeeds
            · exact absurd hstale hfresh
            · rw [← hfeeds feedId, feed_isSome_final]
              exact .inr ⟨e, he, p, hprice⟩
      · intro h feedId env hlater
        refine (hiff env).mpr ⟨h.heartbeat env hlater, ?_⟩ feedId
        rcases h.prices with hexpired | hpriced
        · exact .inl (hexpired env hlater)
        · right
          intro feedId
          rw [feed_isSome_final]
          constructor
          · intro hafter
            rcases hafter with hbefore | ⟨e, he, p, hprice⟩
            · exact hbefore
            · exact hpriced e he feedId p hprice
          · exact .inl

/-! ## A heartbeat of a stranger -/

/-- A stranger reports an old heartbeat. -/
def oldHeartbeat : Invocation Op := ⟨.signedBy 5 [⟨7⟩], .heartbeat ⟨7⟩ 1⟩

/-- A query at time ten thousand. -/
def queryEnv : Env := ⟨6, 10000, fun _ => false⟩

theorem oldHeartbeat_stranger : ∀ i ∈ [oldHeartbeat],
    Stranger (Store.empty.withConfig sampleConfig) i := by
  intro i hi cfg hcfg
  rw [List.mem_singleton] at hi
  subst hi
  rw [Store.withConfig_config, Option.some.injEq] at hcfg
  subst hcfg
  decide

theorem step_oldHeartbeat (crypto : Crypto) :
    step (exec crypto) (Store.empty.withConfig sampleConfig) oldHeartbeat =
      Store.empty.withConfig { sampleConfig with lastHeartbeat := 1 } := by
  apply step_of_ok
  exact heartbeat_eq_ok.mpr ⟨sampleConfig, rfl, rfl, Env.authorized_signedBy 5 ⟨7⟩, rfl⟩

/-- Under every hash and signature scheme, and without any signature, a stranger makes every
feed stale. -/
theorem stranger_stops_feeds : ¬ ∃ crypto : Crypto,
    ∀ s run, Run.Reachable (step (exec crypto)) Store.empty s → (∀ i ∈ run, Stranger s i) →
      (∀ e ∈ Run.trace (step (exec crypto)) s run, ∀ feedId,
        attestedPrice crypto feedId e = none) →
      ∀ feedId env, Later run env →
        availability feedId env (Run.final (step (exec crypto)) s run) =
          availability feedId env s := by
  intro h
  rcases h with ⟨crypto, hsafe⟩
  have hreachable : Run.Reachable (step (exec crypto)) Store.empty
      (Store.empty.withConfig sampleConfig) :=
    ⟨[configure], (step_configure crypto).symm⟩
  have hunsigned : ∀ e ∈ Run.trace (step (exec crypto)) (Store.empty.withConfig sampleConfig)
      [oldHeartbeat], ∀ feedId, attestedPrice crypto feedId e = none := by
    intro e he feedId
    rw [Run.trace_cons, Run.trace_nil, List.mem_singleton] at he
    subst he
    exact ite_self none
  have hlater : Later [oldHeartbeat] queryEnv := by
    intro i hi
    rw [List.mem_singleton] at hi
    subst hi
    decide
  have hsame := hsafe _ [oldHeartbeat] hreachable oldHeartbeat_stranger hunsigned sampleFeed
    queryEnv hlater
  rw [Run.final_cons, Run.final_nil, step_oldHeartbeat] at hsame
  have hbefore : availability sampleFeed queryEnv (Store.empty.withConfig sampleConfig) =
      .error (.error .feedNotFound) :=
    (availability_eq (Store.withConfig_config _ _) _ _).trans (if_neg (by decide))
  have hafter : availability sampleFeed queryEnv
      (Store.empty.withConfig { sampleConfig with lastHeartbeat := 1 }) =
        .error (.error .staleFeed) :=
    (availability_eq (Store.withConfig_config _ _) _ _).trans (if_pos (by decide))
  rw [hbefore, hafter] at hsame
  simp at hsame

theorem oldHeartbeat_availability_iff :
    (∀ feedId env, Later [oldHeartbeat] env →
      availability feedId env (Run.final (step (exec plainCrypto))
        (Store.empty.withConfig sampleConfig) [oldHeartbeat]) =
        availability feedId env (Store.empty.withConfig sampleConfig)) ↔
      Undisturbed plainCrypto (Store.empty.withConfig sampleConfig) [oldHeartbeat] :=
  availability_iff oldHeartbeat_stranger

end CarbonOracle
end Kraal
