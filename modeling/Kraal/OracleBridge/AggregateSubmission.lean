import Kraal.Foundation.Double
import Kraal.OracleBridge.Pipeline
import Kraal.OracleBridge.Votes

/-!
# The submission of an aggregate

The bridge is given one result of every source.  It aggregates their values, signs the aggregate
with the identifier of the first result and the latest time of all, pins the provenance record and
submits.

Main results:

- Definition {lit}`aggregateAndSubmit`: the submission of an aggregate.
- Theorem {lit}`signAggregate_perm`: results of one feed are signed alike in any order.
- Theorem {lit}`boundToFeed_iff`: when an aggregate is signed only for the feed it aggregates.

Current gaps:

- A weight is a rational number, and its floating point number is taken from the platform.
-/

namespace Kraal
namespace OracleBridge

open Foundation

variable {F : Type}

/-! ## Data types -/

/-- The results of the sources, one for each source, in the order in which they were put in. -/
structure SourceResults (F : Type) where
  items : List (String × GEEResult (JsonDict F))
  keysDistinct : (items.map Prod.fst).Nodup

/-- An aggregate, and what it was made of. -/
structure AggregatedPriceResult where
  aggregateValue : Int
  sourceValues : List (String × Int)
  weightsUsed : List (String × ℚ)
  rejectedSources : List String
  feedId : FeedId
  timestampUtc : Int
  outlierMethod : String
  ipfsCid : Option String

/-- Why an aggregate is not submitted. -/
inductive AggregateFailure where
  | aggregation (error : AggregationError)
  | record (failure : RecordFailure)

/-- A failure of the aggregation as one of the submission. -/
def orAggregation {α : Type} : Except AggregationError α → Except AggregateFailure α
  | .ok a => .ok a
  | .error error => .error (.aggregation error)

/-- A failure of the record as one of the submission. -/
def orRecord {α : Type} : Except RecordFailure α → Except AggregateFailure α
  | .ok a => .ok a
  | .error failure => .error (.record failure)

/-- An exception as a failure of the submission. -/
def orException {α : Type} (x : Except Failure α) : Except AggregateFailure α :=
  orRecord (orOther x)

/-! ## The parameters of an aggregate -/

/-- A dictionary of values. -/
def dictOf (pairs : List (String × JsonValue F)) : JsonValue F :=
  .obj (entriesOf pairs)

/-- Numbers under names as a dictionary. -/
def numbersDict (toFloat : ℚ → F) (numbers : List (String × ℚ)) : JsonValue F :=
  dictOf (numbers.map fun entry => (entry.1, .float (toFloat entry.2)))

/-- Values under names as a dictionary. -/
def valuesDict (values : List (String × Int)) : JsonValue F :=
  dictOf (values.map fun entry => (entry.1, .int entry.2))

/-- Texts as a list. -/
def textList (texts : List String) : JsonValue F :=
  .arr (texts.map JsonValue.str)

/-- What is recorded about an aggregation. -/
def provenanceAggMeta (toFloat : ℚ → F) (aggResult : AggregationResult) :
    List (String × JsonValue F) :=
  [("method", .str aggResult.methodUsed),
    ("outlier_method", .str aggResult.outlierMethod),
    ("sources", textList (sortedBy id (aggResult.sourceValues.map Prod.fst))),
    ("weights", numbersDict toFloat aggResult.weightsUsed),
    ("rejected_sources", textList aggResult.rejectedSources),
    ("num_sources_accepted", .int aggResult.sourceValues.length),
    ("num_sources_rejected", .int aggResult.rejectedSources.length)]

/-- No key comes twice in a dictionary. -/
theorem keysDistinct_dictOf {pairs : List (String × JsonValue F)}
    (h : ∀ pair ∈ pairs, pair.2.KeysDistinct) : (dictOf pairs).KeysDistinct :=
  .obj keys_entriesOf_nodup fun field hfield => h field (mem_of_mem_entriesOf hfield)

/-- No key comes twice in a dictionary of numbers. -/
theorem keysDistinct_numbersDict (toFloat : ℚ → F) (numbers : List (String × ℚ)) :
    (numbersDict toFloat numbers).KeysDistinct := by
  apply keysDistinct_dictOf
  intro pair hpair
  rcases List.mem_map.mp hpair with ⟨entry, -, rfl⟩
  exact .float _

/-- No key comes twice in a dictionary of values. -/
theorem keysDistinct_valuesDict (values : List (String × Int)) :
    (valuesDict values : JsonValue F).KeysDistinct := by
  apply keysDistinct_dictOf
  intro pair hpair
  rcases List.mem_map.mp hpair with ⟨entry, -, rfl⟩
  exact .int _

/-- A list of texts has no keys. -/
theorem keysDistinct_textList (texts : List String) :
    (textList texts : JsonValue F).KeysDistinct := by
  refine .arr fun item hitem => ?_
  rcases List.mem_map.mp hitem with ⟨text, -, rfl⟩
  exact .str text

/-- No key comes twice in the parameters of an aggregate. -/
theorem keysDistinct_syntheticInputParams (toFloat : ℚ → F) (aggResult : AggregationResult) :
    (JsonValue.obj (provenanceAggMeta toFloat aggResult ++
      [("per_source_values", valuesDict aggResult.sourceValues)])).KeysDistinct := by
  refine .obj (by simp [provenanceAggMeta]) ?_
  simp only [provenanceAggMeta, List.cons_append, List.nil_append, List.forall_mem_cons]
  exact ⟨.str _, .str _, keysDistinct_textList _, keysDistinct_numbersDict _ _,
    keysDistinct_textList _, .int _, .int _, keysDistinct_valuesDict _, by simp⟩

/-- The parameters that stand for those of a script. -/
def syntheticInputParams (toFloat : ℚ → F) (aggResult : AggregationResult) : JsonDict F :=
  ⟨_, keysDistinct_syntheticInputParams toFloat aggResult⟩

/-- No key comes twice in the block about the aggregation. -/
theorem keysDistinct_aggregationBlock (toFloat : ℚ → F) (aggResult : AggregationResult) :
    (JsonValue.obj [("method", .str aggResult.methodUsed),
      ("outlier_method", .str aggResult.outlierMethod),
      ("source_values", valuesDict aggResult.sourceValues),
      ("weights_used", numbersDict toFloat aggResult.weightsUsed),
      ("rejected_sources", textList aggResult.rejectedSources)]).KeysDistinct := by
  refine .obj (by simp) ?_
  simp only [List.forall_mem_cons]
  exact ⟨.str _, .str _, keysDistinct_valuesDict _, keysDistinct_numbersDict _ _,
    keysDistinct_textList _, by simp⟩

/-- The block of the record about the aggregation. -/
def aggregationBlock (toFloat : ℚ → F) (aggResult : AggregationResult) : JsonDict F :=
  ⟨_, keysDistinct_aggregationBlock toFloat aggResult⟩

/-! ## The submission -/

/-- A configured weight is positive. -/
theorem weight_pos_of_lookup {cfg : AggregationConfig} {id : String} {weight : ℚ}
    (h : cfg.weights.lookup id = some weight) : 0 < weight := by
  rcases List.lookup_eq_some_iff.mp h with ⟨before, after, hsplit, -⟩
  apply cfg.weights_pos (id, weight)
  rw [hsplit]
  exact List.mem_append_right _ List.mem_cons_self

/-- The price of a source, with its configured weight. -/
def priceSource (cfg : AggregationConfig) (item : String × GEEResult (JsonDict F)) :
    Except Failure PriceSource :=
  match h : cfg.weights.lookup item.1 with
  | some weight => .ok ⟨item.1, item.2.outputValue, weight, weight_pos_of_lookup h⟩
  | none => .error ⟨"KeyError", "'" ++ item.1 ++ "'"⟩

/-- The first of some results, if there is one. -/
def firstResult : List (String × GEEResult (JsonDict F)) → Except Failure (GEEResult (JsonDict F))
  | [] => .error ⟨"StopIteration", ""⟩
  | item :: _ => .ok item.2

/-- The most recent time. -/
def latestTimestamp (items : List (String × GEEResult (JsonDict F))) : Except Failure Int :=
  match (items.map fun item => item.2.timestampUtc).max? with
  | some time => .ok time
  | none => .error ⟨"ValueError", "max() arg is an empty sequence"⟩

/-- The hash that marks an aggregate in the place of the hash of a script. -/
def aggregatedMarker (crypto : Crypto) : Bytes :=
  sha256 crypto (utf8 "aggregated")

/-- An aggregate that is signed. -/
structure SignedAggregate (F : Type) where
  aggResult : AggregationResult
  first : GEEResult (JsonDict F)
  timestampUtc : Int
  attestation : SignedAttestation

section Submission

variable {crypto : Crypto} (signer : OracleSigner crypto) (platform : Platform F)
  (round : ℚ → ℚ) (toFloat : ℚ → F)

/-- Aggregate the results and sign the aggregate. -/
def signAggregate (cfg : AggregationConfig) (results : SourceResults F) :
    Except AggregateFailure (SignedAggregate F) := do
  let sources ← orException (results.items.mapM (priceSource cfg))
  let aggResult ← orAggregation (PriceAggregator.aggregate round cfg sources)
  let first ← orException (firstResult results.items)
  let timestampUtc ← orException (latestTimestamp results.items)
  let attestation ← orException (signer.attest (canonicalText platform.floats)
    (aggregatedMarker crypto) (.dict (syntheticInputParams toFloat aggResult))
    aggResult.aggregateValue timestampUtc first.feedId)
  return ⟨aggResult, first, timestampUtc, attestation⟩

/-- The record about an aggregate. -/
def aggregateRecord (crypto : Crypto) (now : Int) (signed : SignedAggregate F) (feedId : String)
    (payloadBytes : Bytes) : ProvenanceRecord F where
  scriptAssetPath := signed.first.scriptAssetPath
  scriptVersionHash := hex (aggregatedMarker crypto)
  scriptVersionTag := "aggregated"
  inputParams := syntheticInputParams toFloat signed.aggResult
  outputValue := signed.aggResult.aggregateValue
  feedId := feedId
  timestampUtc := signed.timestampUtc
  attestationPublicKey := hex signed.attestation.publicKey
  attestationSignature := hex signed.attestation.signature
  attestationPayloadBytes := payloadBytes
  recordType := "aggregated"
  aggregationMetadata := some (aggregationBlock toFloat signed.aggResult)
  submittedAtUtc := now

/-- The steps before the record is pinned: aggregate, sign, write the dictionary, check it. -/
def prepareAggregate (now : Int) (config : Option AggregationConfig) (results : SourceResults F) :
    Except AggregateFailure (SignedAggregate F × ProvenanceRecord F × JsonValue F) := do
  let some cfg := config
    | .error (.record (.other
        ⟨"ValueError", "aggregation_config not configured; cannot aggregate"⟩))
  let signed ← signAggregate signer platform round toFloat cfg results
  let feedId ← orException (feedIdText signed.first.feedId)
  let payloadBytes ← orException signed.attestation.payload.toBytes
  let provenance := aggregateRecord toFloat crypto now signed feedId payloadBytes
  let recordDict ← orException (provenance.toDict platform crypto)
  orRecord (validateProvenanceRecord platform recordDict)
  return (signed, provenance, recordDict)

/-- What is returned about an aggregate. -/
def aggregatedPrice (signed : SignedAggregate F) (ipfsCid : String) : AggregatedPriceResult where
  aggregateValue := signed.aggResult.aggregateValue
  sourceValues := signed.aggResult.sourceValues
  weightsUsed := signed.aggResult.weightsUsed
  rejectedSources := signed.aggResult.rejectedSources
  feedId := signed.first.feedId
  timestampUtc := signed.timestampUtc
  outlierMethod := signed.aggResult.outlierMethod
  ipfsCid := some ipfsCid

/-- Aggregate the results of the sources, pin the record of the aggregate and submit it.  What is
pinned stays when the submission fails. -/
def aggregateAndSubmit (client : SubmissionClient) (now : Int) (ipfs : SimulatedIPFSClient)
    (config : Option AggregationConfig) (results : SourceResults F) :
    Except AggregateFailure
      (AggregatedPriceResult × SignedAttestation × String × ProvenanceRecord F) ×
      SimulatedIPFSClient :=
  match prepareAggregate signer platform round toFloat now config results with
  | .error failure => (.error failure, ipfs)
  | .ok (signed, provenance, recordDict) =>
      match pinProvenanceRecord crypto platform.floats ipfs recordDict with
      | (ipfsCid, ipfs) =>
          match submitWithCid client signed.attestation ipfsCid with
          | .error exc => (.error (.record (.other exc)), ipfs)
          | .ok txRef =>
              (.ok (aggregatedPrice signed ipfsCid, signed.attestation, txRef,
                { provenance with ipfsCid := some ipfsCid, txRef := some txRef }), ipfs)

end Submission

/-! ## The order of the results -/

/-- The result is kept. -/
theorem orAggregation_eq_ok {α : Type} {x : Except AggregationError α} {a : α} :
    orAggregation x = .ok a ↔ x = .ok a := by
  cases x with
  | ok b => rw [orAggregation, Except.ok.injEq, Except.ok.injEq]
  | error error => exact iff_of_false (fun h => by cases h) fun h => by cases h

/-- The result is kept. -/
theorem orRecord_eq_ok {α : Type} {x : Except RecordFailure α} {a : α} :
    orRecord x = .ok a ↔ x = .ok a := by
  cases x with
  | ok b => rw [orRecord, Except.ok.injEq, Except.ok.injEq]
  | error failure => exact iff_of_false (fun h => by cases h) fun h => by cases h

/-- The result is kept. -/
theorem orException_eq_ok {α : Type} {x : Except Failure α} {a : α} :
    orException x = .ok a ↔ x = .ok a := by
  rw [orException, orRecord_eq_ok, orOther_eq_ok]

variable {cfg : AggregationConfig} {items items' : List (String × GEEResult (JsonDict F))}

/-- A source keeps its id. -/
theorem priceSource_sourceId {item : String × GEEResult (JsonDict F)} {source : PriceSource}
    (h : priceSource cfg item = .ok source) : source.sourceId = item.1 := by
  unfold priceSource at h
  split at h
  · rw [← Except.ok.inj h]
  · cases h

/-- The prices are under the keys of the results. -/
theorem ids_of_mapM {sources : List PriceSource} (h : items.mapM (priceSource cfg) = .ok sources) :
    sources.map (fun s => s.sourceId) = items.map Prod.fst := by
  induction items generalizing sources with
  | nil =>
      cases h
      rfl
  | cons item items ih =>
      rcases mapM_cons_eq_ok.mp h with ⟨source, rest, hsource, hrest, rfl⟩
      rw [List.map_cons, List.map_cons, ih hrest, priceSource_sourceId hsource]

/-- The latest time is the largest one. -/
theorem latestTimestamp_eq_ok {time : Int} :
    latestTimestamp items = .ok time ↔
      (items.map fun item => item.2.timestampUtc).max? = some time := by
  unfold latestTimestamp
  split
  · rename_i latest hmax
    rw [hmax, Except.ok.injEq, Option.some.injEq]
  · rename_i hmax
    rw [hmax]
    exact iff_of_false (fun h => by cases h) fun h => by cases h

/-- The latest time does not depend on the order. -/
theorem latestTimestamp_perm (hperm : items.Perm items') {time time' : Int}
    (h : latestTimestamp items = .ok time) (h' : latestTimestamp items' = .ok time') :
    time' = time := by
  rw [latestTimestamp_eq_ok, List.max?_eq_some_iff] at h h'
  have htimes := hperm.map fun item => item.2.timestampUtc
  exact le_antisymm (h.2 time' (htimes.mem_iff.mpr h'.1)) (h'.2 time (htimes.mem_iff.mp h.1))

/-! ## What is signed -/

section Signed

variable {crypto : Crypto} {signer : OracleSigner crypto} {platform : Platform F}
  {round : ℚ → ℚ} {toFloat : ℚ → F} {results results' : SourceResults F}
  {signed signed' : SignedAggregate F}

/-- The steps of an aggregate that is signed. -/
structure SignsAggregate (signer : OracleSigner crypto) (platform : Platform F) (round : ℚ → ℚ)
    (toFloat : ℚ → F) (cfg : AggregationConfig) (results : SourceResults F)
    (sources : List PriceSource) (signed : SignedAggregate F) : Prop where
  prices : results.items.mapM (priceSource cfg) = .ok sources
  aggregate : PriceAggregator.aggregate round cfg sources = .ok signed.aggResult
  first : firstResult results.items = .ok signed.first
  timestampUtc : latestTimestamp results.items = .ok signed.timestampUtc
  attests : Attests signer (aggregatedMarker crypto)
    (sha256 crypto (utf8 (dumps platform.floats
      (syntheticInputParams toFloat signed.aggResult).value)))
    signed.aggResult.aggregateValue signed.timestampUtc signed.first.feedId signed.attestation

/-- What was checked when an aggregate is signed. -/
theorem signAggregate_eq_ok
    (h : signAggregate signer platform round toFloat cfg results = .ok signed) :
    ∃ sources, SignsAggregate signer platform round toFloat cfg results sources signed := by
  unfold signAggregate at h
  simp only [exceptBind_eq_ok, orException_eq_ok, orAggregation_eq_ok] at h
  rcases h with ⟨sources, hsources, aggResult, haggregate, first, hfirst, time, htime,
    attestation, hattest, hreturn⟩
  rcases attest_eq_ok hattest with ⟨paramsHash, hparams, hattests⟩
  rw [← Except.ok.inj hreturn]
  cases hparams
  exact ⟨sources, hsources, haggregate, hfirst, htime, hattests⟩

/-- Aggregates of the same results in another order have the same value, parameters and time. -/
theorem signAggregate_perm (hperm : results.items.Perm results'.items)
    (h : signAggregate signer platform round toFloat cfg results = .ok signed)
    (h' : signAggregate signer platform round toFloat cfg results' = .ok signed')
    (hfeed : signed'.attestation.payload.feedId = signed.attestation.payload.feedId) :
    signed'.attestation.payload.toBytes = signed.attestation.payload.toBytes := by
  rcases signAggregate_eq_ok h with ⟨sources, hsigned⟩
  rcases signAggregate_eq_ok h' with ⟨sources', hsigned'⟩
  have hprices : sources.Perm sources' := by
    rcases mapM_perm hperm hsigned.prices with ⟨reordered, hreordered, hreorder⟩
    rw [hsigned'.prices, Except.ok.injEq] at hreordered
    rw [hreordered]
    exact hreorder
  have hagg : signed'.aggResult = signed.aggResult := by
    have honce : (sources.map fun s => s.sourceId).Nodup := by
      rw [ids_of_mapM hsigned.prices]
      exact results.keysDistinct
    have haggregate := aggregate_perm honce hprices hsigned.aggregate
    rw [hsigned'.aggregate, Except.ok.injEq] at haggregate
    exact haggregate
  have htime := latestTimestamp_perm hperm hsigned.timestampUtc hsigned'.timestampUtc
  rw [hsigned.attests.toBytes, hsigned'.attests.toBytes, hagg, htime, hfeed]

/-- The first result is one of them. -/
theorem firstResult_mem {first : GEEResult (JsonDict F)} (h : firstResult items = .ok first) :
    ∃ item ∈ items, item.2 = first := by
  cases items with
  | nil => cases h
  | cons item items => exact ⟨item, List.mem_cons_self, Except.ok.inj h⟩

/-! ## One feed -/

/-- All results are for the same feed: their identifiers are filled up to the same bytes. -/
def OneFeed (results : SourceResults F) : Prop :=
  ∀ item ∈ results.items, ∀ item' ∈ results.items,
    padFeedId item.2.feedId = padFeedId item'.2.feedId

/-- An aggregate of results for one feed is signed for this feed. -/
theorem SignsAggregate.feed {sources : List PriceSource}
    (h : SignsAggregate signer platform round toFloat cfg results sources signed)
    (hfeed : OneFeed results) {item : String × GEEResult (JsonDict F)}
    (hitem : item ∈ results.items) :
    padFeedId item.2.feedId = .ok signed.attestation.payload.feedId := by
  rcases firstResult_mem h.first with ⟨first, hmem, hfirst⟩
  rw [hfeed item hitem first hmem, hfirst]
  exact h.attests.feedId

/-- What is submitted has been signed before. -/
theorem signed_of_submit {client : SubmissionClient} {now : Int} {ipfs ipfs' : SimulatedIPFSClient}
    {result : AggregatedPriceResult} {attestation : SignedAttestation} {txRef : String}
    {provenance : ProvenanceRecord F}
    (h : aggregateAndSubmit signer platform round toFloat client now ipfs (some cfg) results =
      (.ok (result, attestation, txRef, provenance), ipfs')) :
    ∃ signed, signAggregate signer platform round toFloat cfg results = .ok signed ∧
      signed.attestation = attestation := by
  unfold aggregateAndSubmit at h
  split at h
  · cases h
  · rename_i signed pinned recordDict hprepared
    split at h
    split at h
    · cases h
    · have hattestation := congrArg Prod.fst (congrArg Prod.snd (Except.ok.inj (Prod.mk.inj h).1))
      unfold prepareAggregate at hprepared
      simp only [exceptBind_eq_ok] at hprepared
      rcases hprepared with ⟨found, hfound, feedId, -, bytes, -, dict, -, -, -, hreturn⟩
      have hsame : found = signed := congrArg Prod.fst (Except.ok.inj hreturn)
      rw [hsame] at hfound
      exact ⟨signed, hfound, hattestation⟩

/-- An aggregate is signed only for the feed it aggregates: the identifier that is signed is that of
every result, and the bytes that are signed do not depend on the order of the results. -/
structure BoundToFeed (signer : OracleSigner crypto) (platform : Platform F) (round : ℚ → ℚ)
    (toFloat : ℚ → F) (cfg : AggregationConfig) (results : SourceResults F)
    (attestation : SignedAttestation) : Prop where
  feed : ∀ item ∈ results.items, padFeedId item.2.feedId = .ok attestation.payload.feedId
  ordered : ∀ (results' : SourceResults F) (client : SubmissionClient) (now : Int)
    (ipfs ipfs' : SimulatedIPFSClient) (result : AggregatedPriceResult)
    (attestation' : SignedAttestation) (txRef : String) (provenance : ProvenanceRecord F),
    results.items.Perm results'.items →
    aggregateAndSubmit signer platform round toFloat client now ipfs (some cfg) results' =
      (.ok (result, attestation', txRef, provenance), ipfs') →
    attestation'.payload.toBytes = attestation.payload.toBytes

/-- An aggregate is bound to its feed exactly if all of its results are for one feed. -/
theorem boundToFeed_iff {client : SubmissionClient} {now : Int} {ipfs ipfs' : SimulatedIPFSClient}
    {result : AggregatedPriceResult} {attestation : SignedAttestation} {txRef : String}
    {provenance : ProvenanceRecord F}
    (h : aggregateAndSubmit signer platform round toFloat client now ipfs (some cfg) results =
      (.ok (result, attestation, txRef, provenance), ipfs')) :
    BoundToFeed signer platform round toFloat cfg results attestation ↔ OneFeed results := by
  rcases signed_of_submit h with ⟨signed, hsigned, rfl⟩
  rcases signAggregate_eq_ok hsigned with ⟨sources, hsteps⟩
  constructor
  · intro hbound item hitem item' hitem'
    rw [hbound.feed item hitem, hbound.feed item' hitem']
  · intro hfeed
    constructor
    · intro item hitem
      exact hsteps.feed hfeed hitem
    · intro results' client now ipfs ipfs' result attestation' txRef provenance hperm h'
      rcases signed_of_submit h' with ⟨signed', hsigned', rfl⟩
      rcases signAggregate_eq_ok hsigned' with ⟨sources', hsteps'⟩
      rcases firstResult_mem hsteps'.first with ⟨first, hmem, hfirst⟩
      -- the first result of the other order is one of the results as well
      have hpadded := hsteps.feed hfeed (hperm.mem_iff.mpr hmem)
      rw [hfirst, hsteps'.attests.feedId, Except.ok.injEq] at hpadded
      exact signAggregate_perm hperm hsigned hsigned' hpadded

end Signed

/-! ## Submissions that succeed -/

/-- What an aggregate needs for its submission to succeed. -/
structure Aggregable (round : ℚ → ℚ) (platform : Platform F) (client : SubmissionClient)
    (now : Int) (cfg : AggregationConfig) (results : SourceResults F) (sources : List PriceSource)
    (aggResult : AggregationResult) (time : Int) (first : GEEResult (JsonDict F)) : Prop where
  prices : results.items.mapM (priceSource cfg) = .ok sources
  aggregate : PriceAggregator.aggregate round cfg sources = .ok aggResult
  earliest : firstResult results.items = .ok first
  latest : latestTimestamp results.items = .ok time
  outputValue : FitsI64 aggResult.aggregateValue
  timestampUtc : FitsI64 time
  feedId : first.feedId.bytes.length ≤ 32
  feedIdText : ∃ text, feedIdText first.feedId = .ok text
  submittedAtIso : ∃ text, platform.utcIso now = .ok text
  timestampIso : ∃ text, platform.utcIso time = .ok text
  schema : ∀ dict, SchemaAccepts platform dict
  client : ∀ attestation cid, ∃ txRef, client.submitPriceWithCid attestation cid = .ok txRef

section Success

variable {crypto : Crypto} {round : ℚ → ℚ} {platform : Platform F} {client : SubmissionClient}
  {now time : Int} {results : SourceResults F} {sources : List PriceSource}
  {aggResult : AggregationResult} {first : GEEResult (JsonDict F)}

/-- Results that can be aggregated are signed. -/
theorem Aggregable.sign
    (h : Aggregable round platform client now cfg results sources aggResult time first)
    (hdigests : Digests crypto) (signer : OracleSigner crypto) (toFloat : ℚ → F) :
    ∃ attestation, signAggregate signer platform round toFloat cfg results =
      .ok ⟨aggResult, first, time, attestation⟩ := by
  have hparams : canonicalParamsHash crypto (canonicalText platform.floats)
      (syntheticInputParams toFloat aggResult) = .ok (sha256 crypto
        (utf8 (dumps platform.floats (syntheticInputParams toFloat aggResult).value))) := rfl
  obtain ⟨attestation, hattest⟩ := attest_of_fits signer (hdigests (utf8 "aggregated")) hparams
    (hdigests _) h.outputValue h.timestampUtc h.feedId
  refine ⟨attestation, ?_⟩
  unfold signAggregate
  simp only [exceptBind_eq_ok, orException_eq_ok, orAggregation_eq_ok]
  exact ⟨sources, h.prices, aggResult, h.aggregate, first, h.earliest, time, h.latest, attestation,
    hattest, rfl⟩

/-- The record of an aggregate passes its checks. -/
theorem validate_aggregateRecord {toFloat : ℚ → F} {signed : SignedAggregate F} {feedId : String}
    {bytes : Bytes} {dict : JsonValue F} (hlength : bytes.length = 113)
    (hwritten : (aggregateRecord toFloat crypto now signed feedId bytes).toDict platform crypto =
      .ok dict) (hschema : SchemaAccepts platform dict) :
    validateProvenanceRecord platform dict = .ok () := by
  obtain ⟨gs, ip, comp, att, sub, given, hholds⟩ := holdsRecord_toDict hwritten
  have hblock := holds_aggregation rfl rfl (List.cons_ne_nil _ _) hwritten
  have hkeys : missingFields (aggregationBlock toFloat signed.aggResult).value
      "Missing aggregation."
      ["method", "outlier_method", "source_values", "weights_used", "rejected_sources"] =
        .ok [] := by
    rw [missingFields_eq_nil]
    simp only [List.forall_mem_cons]
    exact ⟨rfl, rfl, rfl, rfl, rfl, by simp⟩
  have hlengths : HexLengths (aggregateRecord toFloat crypto now signed feedId bytes) := by
    constructor
    · change (hex signed.attestation.publicKey).length = 64
      rw [length_hex, signed.attestation.publicKey_length]
    · change (hex signed.attestation.signature).length = 128
      rw [length_hex, signed.attestation.signature_length]
    · exact hlength
  have hlight := hholds.lightweightValidate_of_type (.inr rfl)
    (aggregationErrors_of_holds hholds.recordType hblock hkeys) hlengths
  rw [validateProvenanceRecord, hlight]
  cases hplatform : platform.jsonschema with
  | none => rfl
  | some iterErrors => simp only [hschema iterErrors hplatform, if_true]

/-- Results that can be aggregated get a record. -/
theorem Aggregable.prepare
    (h : Aggregable round platform client now cfg results sources aggResult time first)
    (hdigests : Digests crypto) (signer : OracleSigner crypto) (toFloat : ℚ → F) :
    ∃ signed provenance recordDict,
      prepareAggregate signer platform round toFloat now (some cfg) results =
        .ok (signed, provenance, recordDict) := by
  obtain ⟨attestation, hsigned⟩ := h.sign hdigests signer toFloat
  obtain ⟨text, htext⟩ := h.feedIdText
  obtain ⟨submittedIso, hsubmitted⟩ := h.submittedAtIso
  obtain ⟨timestampIso, htimestamp⟩ := h.timestampIso
  obtain ⟨_, hsteps⟩ := signAggregate_eq_ok hsigned
  obtain ⟨bytes, hbytes, hlength⟩ :
      ∃ bytes, attestation.payload.toBytes = .ok bytes ∧ bytes.length = 113 :=
    ⟨_, hsteps.attests.toBytes, length_payloadBytes (hdigests _) (hdigests _)
      attestation.payload.feedId_length _ _⟩
  have hwritten : ∃ dict, (aggregateRecord toFloat crypto now ⟨aggResult, first, time, attestation⟩
      text bytes).toDict platform crypto = .ok dict := by
    unfold ProvenanceRecord.toDict
    simp only [exceptBind_eq_ok]
    exact ⟨_, submittedIso, hsubmitted, timestampIso, htimestamp, rfl⟩
  obtain ⟨dict, hwritten⟩ := hwritten
  have hvalid := validate_aggregateRecord hlength hwritten (h.schema dict)
  refine ⟨⟨aggResult, first, time, attestation⟩,
    aggregateRecord toFloat crypto now ⟨aggResult, first, time, attestation⟩ text bytes, dict, ?_⟩
  unfold prepareAggregate
  simp only [exceptBind_eq_ok, orException_eq_ok, orRecord_eq_ok]
  exact ⟨_, hsigned, text, htext, _, hbytes, dict, hwritten, (), hvalid, rfl⟩

/-- An aggregate whose fields fit is submitted. -/
theorem Aggregable.submit
    (h : Aggregable round platform client now cfg results sources aggResult time first)
    (hdigests : Digests crypto) (signer : OracleSigner crypto) (toFloat : ℚ → F)
    (ipfs : SimulatedIPFSClient) :
    ∃ result attestation txRef provenance ipfs',
      aggregateAndSubmit signer platform round toFloat client now ipfs (some cfg) results =
        (.ok (result, attestation, txRef, provenance), ipfs') := by
  obtain ⟨signed, pinned, recordDict, hprepared⟩ := h.prepare hdigests signer toFloat
  obtain ⟨txRef, hsubmit⟩ := h.client signed.attestation
    (simulatedCid crypto (pinnedBytes platform recordDict))
  have hsubmitted := submitWithCid_of_ok hsubmit
  refine ⟨aggregatedPrice signed (simulatedCid crypto (pinnedBytes platform recordDict)),
    signed.attestation, txRef, { pinned with
      ipfsCid := some (simulatedCid crypto (pinnedBytes platform recordDict))
      txRef := some txRef },
    (ipfs.pin crypto (pinnedBytes platform recordDict)).2, ?_⟩
  simp only [aggregateAndSubmit, hprepared, pinProvenanceRecord, SimulatedIPFSClient.pin]
  rw [← pinnedBytes, hsubmitted]

end Success

/-! ## Results for two feeds -/

/-- A result without parameters. -/
def plainResult (value : Int) (feedId : String) (time : Int) : GEEResult (JsonDict Unit) where
  scriptSource := "return price;"
  inputParams := noParameters
  outputValue := value
  feedId := .text feedId
  timestampUtc := time

/-- Two results ten minutes apart. -/
def twoItems (feedId feedId' : String) : List (String × GEEResult (JsonDict Unit)) :=
  [("a", plainResult 10 feedId 1700000000), ("b", plainResult 20 feedId' 1700000600)]

/-- The two results are of different sources. -/
theorem twoItems_keysDistinct (feedId feedId' : String) :
    ((twoItems feedId feedId').map Prod.fst).Nodup := by
  simp [twoItems]

/-- The results of two sources, each for a feed. -/
def twoResults (feedId feedId' : String) : SourceResults Unit :=
  ⟨twoItems feedId feedId', twoItems_keysDistinct feedId feedId'⟩

/-- The two results can be aggregated. -/
theorem twoResults_aggregable {feedId : String} (h : (utf8 feedId).length ≤ 32) (feedId' : String) :
    Aggregable roundDouble samplePlatform sampleClient 1700000900 biasedConfig
      (twoResults feedId feedId') weightedSources
      ⟨20, [("a", 10), ("b", 20)], [("a", 1), ("b", 3)], [], "weighted_median", "none"⟩
      1700000600 (plainResult 10 feedId 1700000000) where
  prices := rfl
  aggregate := by decide +kernel
  earliest := rfl
  latest := rfl
  outputValue := by decide
  timestampUtc := by decide
  feedId := h
  feedIdText := ⟨feedId, rfl⟩
  submittedAtIso := ⟨_, rfl⟩
  timestampIso := ⟨_, rfl⟩
  schema := fun dict iterErrors hplatform => by cases hplatform
  client := fun attestation cid => ⟨"tx_1", rfl⟩

/-- Results for two feeds are aggregated and signed for the feed of the first one. -/
theorem mixed_feeds_signed : ¬ ∀ (crypto : Crypto) (signer : OracleSigner crypto)
    (platform : Platform Unit) (toFloat : ℚ → Unit) (client : SubmissionClient) (now : Int)
    (ipfs ipfs' : SimulatedIPFSClient) (cfg : AggregationConfig) (results : SourceResults Unit)
    (result : AggregatedPriceResult) (attestation : SignedAttestation) (txRef : String)
    (provenance : ProvenanceRecord Unit),
    aggregateAndSubmit signer platform roundDouble toFloat client now ipfs (some cfg) results =
      (.ok (result, attestation, txRef, provenance), ipfs') →
    BoundToFeed signer platform roundDouble toFloat cfg results attestation := by
  intro h
  have hfits : (utf8 "CATTLE-SPOT").length ≤ 32 := by decide +kernel
  obtain ⟨result, attestation, txRef, provenance, ipfs', hsubmit⟩ :=
    (twoResults_aggregable hfits "COFFEE-SPOT").submit sampleCrypto_digests
      sampleSigner (fun _ => ()) ⟨Storage.empty⟩
  have hbound := h _ _ _ _ _ _ _ _ _ _ _ _ _ _ hsubmit
  have hfirst := hbound.feed _ List.mem_cons_self
  have hsecond := hbound.feed _ (List.mem_cons_of_mem _ List.mem_cons_self)
  have hsame : padFeedId (.text "CATTLE-SPOT") = padFeedId (.text "COFFEE-SPOT") :=
    hfirst.trans hsecond.symm
  exact absurd hsame (by decide +kernel)

theorem twoResults_bound :
    ∃ result attestation txRef provenance ipfs',
      aggregateAndSubmit sampleSigner samplePlatform roundDouble (fun _ => ()) sampleClient
        1700000900 ⟨Storage.empty⟩ (some biasedConfig) (twoResults "CATTLE-SPOT" "CATTLE-SPOT") =
          (.ok (result, attestation, txRef, provenance), ipfs') ∧
      BoundToFeed sampleSigner samplePlatform roundDouble (fun _ => ()) biasedConfig
        (twoResults "CATTLE-SPOT" "CATTLE-SPOT") attestation := by
  have hfits : (utf8 "CATTLE-SPOT").length ≤ 32 := by decide +kernel
  obtain ⟨result, attestation, txRef, provenance, ipfs', hsubmit⟩ :=
    (twoResults_aggregable hfits "CATTLE-SPOT").submit sampleCrypto_digests
      sampleSigner (fun _ => ()) ⟨Storage.empty⟩
  have hfeed : OneFeed (twoResults "CATTLE-SPOT" "CATTLE-SPOT") := by
    simp [OneFeed, twoResults, twoItems, plainResult]
  exact ⟨result, attestation, txRef, provenance, ipfs', hsubmit,
    (boundToFeed_iff hsubmit).mpr hfeed⟩

end OracleBridge
end Kraal
