import Kraal.OracleBridge.ChainAudit
import Kraal.PricedSystem.Trades

/-!
# From the bridge to a trade

The bridge, the contents that are pinned and the four contracts as one machine.  The bridge is a
client of the oracle contract; everybody calls the contracts and pins contents at any time.  The
machine projects to the one in which the prices of the oracle are audited, and its contracts are the
system in which the marketplace asks for them.  Together they lead from a trade back to the record
about the computation of its price.

Main results:

- Definition {lit}`auditProjection`: the bridge and its contract within the network.
- Theorem {lit}`price_put`: where the price of a feed comes from.
- Theorem {lit}`trades_audited`: the price behind every guarded trade of a run, and the record that
  is pinned about it.
-/

namespace Kraal
namespace PricedSystem

open Foundation
open CarbonOracle (PriceEntry ledgerTime)
open OracleBridge (Audited ContentsDistinct GEEResult JsonDict Operator RecordsResult
  SimulatedIPFSClient attempt contractCall worldStep)

variable {F : Type} {crypto : Crypto}

/-! ## The machine -/

/-- The four contracts and the pinned contents. -/
structure Network where
  system : System
  ipfs : SimulatedIPFSClient

/-- What the bridge sees of the network. -/
def Network.world (n : Network) : OracleBridge.World := ⟨oraclePart n.system, n.ipfs⟩

/-- The carbon contracts are initialized, and nothing is pinned. -/
def Network.genesis (d : Deployment) : Network := ⟨PricedSystem.genesis d, ⟨Storage.empty⟩⟩

/-- The operator of the bridge submits a result, or anybody pins contents or calls a contract. -/
inductive NetworkAction (F : Type) where
  | submit (now : Int) (result : GEEResult (JsonDict F))
  | pin (content : Bytes)
  | call (op : Op)

variable (b : Operator crypto F) (d : Deployment)

/-- The call that a step makes on the contracts.  A submission calls the oracle contract with what
the client sends. -/
def systemCall (e : Network × Invocation (NetworkAction F)) : Option Op :=
  match e.2.call with
  | .submit now result =>
      (contractCall b (e.1.world, ⟨e.2.env, .submit now result⟩)).map .oracle
  | .pin _ => none
  | .call op => some op

/-- A step on the contracts, if there is a call, and one on the pinned contents. -/
def networkStep (n : Network) (i : Invocation (NetworkAction F)) : Network where
  system :=
    match systemCall b (n, i) with
    | some op => step (exec crypto d) n.system ⟨i.env, op⟩
    | none => n.system
  ipfs :=
    match i.call with
    | .submit now result => (attempt b n.world i.env now result).2
    | .pin content => (n.ipfs.pin crypto content).2
    | .call _ => n.ipfs

/-- What a step is to the bridge. -/
def bridgeAction : NetworkAction F → Option (OracleBridge.Action F)
  | .submit now result => some (.submit now result)
  | .pin content => some (.pin content)
  | .call op => (oracleCall op).map .call

variable {b d}

/-- A call of the oracle contract within the system. -/
theorem oraclePart_oracle (s : System) (env : Env) (op : CarbonOracle.Op) :
    oraclePart (step (exec crypto d) s ⟨env, .oracle op⟩) =
      step (CarbonOracle.exec crypto) (oraclePart s) ⟨env, op⟩ :=
  oraclePart_step crypto d s ⟨env, .oracle op⟩

/-- A step is one of the bridge's world or none. -/
theorem networkStep_world (n : Network) (i : Invocation (NetworkAction F)) :
    (networkStep b d n i).world = (((bridgeAction i.call).map fun action =>
      (⟨i.env, action⟩ : Invocation (OracleBridge.Action F))).map
        (worldStep b n.world)).getD n.world := by
  rcases i with ⟨env, call⟩
  cases call with
  | submit now result =>
      simp only [networkStep, systemCall, bridgeAction, Option.map_some, Option.getD_some,
        worldStep, Network.world]
      cases contractCall b (⟨oraclePart n.system, n.ipfs⟩, ⟨env, .submit now result⟩) with
      | none => rfl
      | some op => simp only [Option.map_some, oraclePart_oracle]
  | pin content => rfl
  | call op =>
      have hpart := oraclePart_step crypto d n.system ⟨env, op⟩
      simp only [networkStep, systemCall, bridgeAction, Network.world]
      rw [hpart]
      cases op <;> rfl

variable (b d)

/-- The bridge and its contract within the network. -/
def auditProjection : Run.Projection (networkStep b d) (worldStep b) where
  part := Network.world
  shown e := (bridgeAction e.2.call).map fun action => ⟨e.2.env, action⟩
  part_step := networkStep_world

/-- The steps of a run of the network. -/
def networkHistory (run : List (Invocation (NetworkAction F))) :
    List (Network × Invocation (NetworkAction F)) :=
  Run.trace (networkStep b d) (Network.genesis d) run

/-- The network after a run. -/
def networkAfter (run : List (Invocation (NetworkAction F))) : Network :=
  Run.final (networkStep b d) (Network.genesis d) run

/-- The run of the bridge and its contract within a run of the network. -/
def auditRun (run : List (Invocation (NetworkAction F))) :
    List (Invocation (OracleBridge.Action F)) :=
  (auditProjection b d).inputs (Network.genesis d) run

/-! ## Prices -/

/-- A step puts a price for a feed on chain. -/
def PutsPrice (feedId : BytesN) (entry : PriceEntry)
    (e : Network × Invocation (NetworkAction F)) : Prop :=
  ∃ x, (auditProjection b d).entry e = some x ∧ OracleBridge.PutOnChain b feedId entry x

/-- A step puts a price on chain, and if it is a submission then the price has the fields of the
result and can be audited with some pinned contents. -/
def PutsAudited (ipfs : SimulatedIPFSClient) (feedId : BytesN) (entry : PriceEntry)
    (e : Network × Invocation (NetworkAction F)) : Prop :=
  PutsPrice b d feedId entry e ∧ ∀ now result, e.2.call = .submit now result →
    RecordsResult crypto b.platform.floats result entry ∧ Audited b ipfs feedId entry

variable {b d}

/-- A submission is one to the bridge as well. -/
theorem entry_submit {e : Network × Invocation (NetworkAction F)}
    {x : OracleBridge.World × Invocation (OracleBridge.Action F)}
    (hentry : (auditProjection b d).entry e = some x) {now : Int} {result : GEEResult (JsonDict F)}
    (h : e.2.call = .submit now result) : x.2.call = .submit now result := by
  have hshown := ((auditProjection b d).entry_eq_some.mp hentry).1
  simp only [auditProjection, h, bridgeAction, Option.map_some, Option.some.injEq] at hshown
  rw [← hshown]

/-- Every price that is stored after a run was put there by a step after which nobody has put
another one.  If the bridge has submitted it, it can be audited with what is pinned by then. -/
theorem price_put (hclient : b.client.Submits b.oracle) (hfloats : b.platform.floats.Regular)
    (hschema : OracleBridge.SchemaIgnoresOrder b.platform)
    {run : List (Invocation (NetworkAction F))} (hcontents : ContentsDistinct b (auditRun b d run))
    {feedId : BytesN} {entry : PriceEntry}
    (h : (oraclePart (networkAfter b d run).system).feeds.get feedId = some entry) :
    Run.Since (PutsAudited b d (networkAfter b d run).ipfs feedId entry)
      (fun e => ∃ later, PutsPrice b d feedId later e) (networkHistory b d run) := by
  have hworld : (networkAfter b d run).world =
      Run.final (worldStep b) OracleBridge.World.empty (auditRun b d run) :=
    (auditProjection b d).part_final (Network.genesis d) run
  have hstored : (Run.final (worldStep b) OracleBridge.World.empty
      (auditRun b d run)).contract.feeds.get feedId = some entry := by
    rw [← hworld]
    exact h
  have haudited := OracleBridge.stored_since hclient hfloats hschema
    (fun _ he _ => OracleBridge.pinned_stays hcontents he) hstored
  rw [← hworld] at haudited
  rcases (auditProjection b d).since_inputs (Network.genesis d) run haudited
    with ⟨before, e, between, hpast, ⟨x, hentry, hput, hrecords⟩, hbetween⟩
  refine ⟨before, e, between, hpast, ⟨⟨x, hentry, hput⟩, ?_⟩, ?_⟩
  · intro now result hcall
    exact hrecords now result (entry_submit hentry hcall)
  · rintro e' he' ⟨later, y, hy, hlater⟩
    exact hbetween e' he' ⟨y, hy, later, hlater⟩

/-! ## Trades -/

/-- Behind every guarded trade after a run of the network stands a price that is not older than
configured.  Nobody has put another one since, and if the bridge has submitted it, then the record
about its computation is pinned and verifies. -/
theorem trades_audited (hclient : b.client.Submits b.oracle) (hfloats : b.platform.floats.Regular)
    (hschema : OracleBridge.SchemaIgnoresOrder b.platform)
    {run : List (Invocation (NetworkAction F))} (hcontents : ContentsDistinct b (auditRun b d run))
    {env : Env} {op : Op} {feedId : BytesN} {maxAge : I64}
    (hguarded : Guarded d feedId maxAge (networkAfter b d run).system)
    (htrades : Trades crypto d ((networkAfter b d run).system, ⟨env, op⟩)) :
    ∃ entry, (ledgerTime env).saturatingSub entry.timestampUtc ≤ maxAge ∧
      Run.Since (PutsAudited b d (networkAfter b d run).ipfs feedId entry)
        (fun e => ∃ later, PutsPrice b d feedId later e) (networkHistory b d run) := by
  obtain ⟨entry, hentry, hage⟩ := ((trade_checked htrades).2 feedId maxAge hguarded).price
  exact ⟨entry, hage, price_put hclient hfloats hschema hcontents hentry⟩

end PricedSystem
end Kraal
