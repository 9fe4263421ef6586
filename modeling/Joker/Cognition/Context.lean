import Joker.Base.Json
import Joker.Base.Text

/-!
# Context packages

Library `Cognition`. `ContextAssembler.assemble` builds the context of one agent role from a
stored snapshot and the projections, keeps the parts the role reads, and hashes them. Models
that the context only carries are represented by what `model_dump` gives for them. The digest of
the serialised body is a parameter: SHA-256 over the JSON text with sorted keys.
-/

namespace Joker.Cognition

open Joker.Base

/-- A text without the separator of model-call keys, as a UUID's or a digest's text is. -/
structure PlainText where
  text : String
  plain : '|' ∉ text.toList

/-- Distinct cognitive agent roles in the Task 2 graph.
Source `joker/cognition/schemas.py:64–93`. -/
inductive AgentRole where
  | marketStructure
  | volatility
  | optionsMicrostructure
  | temporalContext
  | anomaly
  | patternMiner
  | sequenceAnalyst
  | analogyRetriever
  | bullishInventor
  | bearishInventor
  | neutralAdvocate
  | strategyAdvocate
  | falsifier
  | historicalCritic
  | executionCritic
  | alternativeExplanation
  | worldModelSynthesiser
  | metaDecision
  | entryTactician
  | orderManager
  | positionThesis
  | positionDecision
  deriving DecidableEq

namespace AgentRole

/-- The text of a role. -/
def value : AgentRole → String
  | marketStructure => "market_structure"
  | volatility => "volatility"
  | optionsMicrostructure => "options_microstructure"
  | temporalContext => "temporal_context"
  | anomaly => "anomaly"
  | patternMiner => "pattern_miner"
  | sequenceAnalyst => "sequence_analyst"
  | analogyRetriever => "analogy_retriever"
  | bullishInventor => "bullish_inventor"
  | bearishInventor => "bearish_inventor"
  | neutralAdvocate => "neutral_advocate"
  | strategyAdvocate => "strategy_advocate"
  | falsifier => "falsifier"
  | historicalCritic => "historical_critic"
  | executionCritic => "execution_critic"
  | alternativeExplanation => "alternative_explanation"
  | worldModelSynthesiser => "world_model_synthesiser"
  | metaDecision => "meta_decision"
  | entryTactician => "entry_tactician"
  | orderManager => "order_manager"
  | positionThesis => "position_thesis"
  | positionDecision => "position_decision"

/-- `AgentRole(text)`. -/
def ofValue (text : String) : Option AgentRole :=
  [marketStructure, volatility, optionsMicrostructure, temporalContext, anomaly, patternMiner,
    sequenceAnalyst, analogyRetriever, bullishInventor, bearishInventor, neutralAdvocate,
    strategyAdvocate, falsifier, historicalCritic, executionCritic, alternativeExplanation,
    worldModelSynthesiser, metaDecision, entryTactician, orderManager, positionThesis,
    positionDecision].find? (fun role ↦ role.value = text)

/-- A role is read back from its value. -/
theorem ofValue_value (role : AgentRole) : ofValue role.value = some role := by
  cases role <;> decide

/-- Roles have distinct texts. -/
theorem value_inj {a b : AgentRole} : a.value = b.value ↔ a = b := by
  constructor
  · intro h
    have ho := congrArg ofValue h
    rw [ofValue_value, ofValue_value] at ho
    exact Option.some.inj ho
  · rintro rfl
    rfl

/-- No role has a bar in its value. -/
theorem value_plain (role : AgentRole) : '|' ∉ role.value.toList := by
  cases role <;> decide

end AgentRole

/-- Immutable market state, as far as contexts carry it. -/
structure MarketSnapshot where
  snapshotId : PlainText
  underlying : Json
  bars1m : List Json
  bars5m : List Json
  featureSnapshotId : Option String
  optionSurfaceId : Option String
  dataQualityId : String

/-- Records what was removed to satisfy context budgets.
Source `joker/cognition/context.py:22–30`. -/
structure ContextTruncationRecord where
  fieldName : String
  originalCount : ℕ
  retainedCount : ℕ
  reason : String

/-- Configurable context budgets. Source `joker/cognition/context.py:73–80`. -/
structure ContextAssemblerConfig where
  max1mBars : ℕ
  max5mBars : ℕ
  maximumOptionRowsPerRequest : ℕ
  maximumContextCharacters : ℕ
  includeLegacyPlaybook : Bool

/-- The budgets of `ContextAssemblerConfig()`. -/
def ContextAssemblerConfig.default : ContextAssemblerConfig := ⟨60, 36, 80, 60000, false⟩

/-- The arguments of `assemble`. -/
structure Assembly where
  agentRole : AgentRole
  cycleId : String
  snapshot : MarketSnapshot
  dataQuality : Option Json
  optionSurfaceSlice : List Json
  orderProjection : Option Members
  positionProjection : Option Members
  sessionArtifactSummaries : List Members
  legacyPlaybookContext : Option Members

/-- The text that is hashed, before it is serialised. -/
structure PackageBody where
  agentRole : AgentRole
  sessionId : String
  cycleId : String
  snapshotId : String
  underlying : Json
  bars1m : List Json
  bars5m : List Json
  dataQuality : Option Json
  optionSurfaceSlice : List Json
  orderProjection : Option Members
  positionProjection : Option Members
  sessionArtifactSummaries : List Members
  legacyPlaybookContext : Option Members
  truncations : List ContextTruncationRecord

/-- Typed, hashable context for a single agent invocation.
Source `joker/cognition/context.py:33–69`. -/
structure ContextPackage where
  contextId : String
  agentRole : AgentRole
  sessionId : String
  cycleId : String
  snapshotId : PlainText
  assembledAt : String
  sourceSnapshotId : PlainText
  sourceDataQualityId : Option String
  sourceOptionSurfaceId : Option String
  sourceFeatureSnapshotId : Option String
  sourceOrderIds : List String
  sourcePositionIds : List String
  sourceArtifactIds : List String
  underlying : Json
  bars1m : List Json
  bars5m : List Json
  dataQuality : Option Json
  optionSurfaceSlice : List Json
  orderProjection : Option Members
  positionProjection : Option Members
  sessionArtifactSummaries : List Members
  legacyPlaybookContext : Option Members
  truncations : List ContextTruncationRecord
  contextHash : PlainText
  serializedSizeChars : ℕ

/-- The standard library's part of an assembly: `hashlib.sha256(text).hexdigest()` and `len(text)`
for the text `json.dumps(body, sort_keys=True)`, and `str(UUID(str(raw)))`, which may raise. -/
structure Serialiser where
  hexdigest : PackageBody → PlainText
  length : PackageBody → ℕ
  uuid : Json → Option String

/-- Which optional parts a role reads. -/
structure Includes where
  surface : Bool
  orders : Bool
  positions : Bool
  artifacts : Bool

/-- The parts of the context of a role. -/
def Includes.ofRole : AgentRole → Includes
  | .marketStructure | .volatility | .temporalContext | .anomaly => ⟨false, false, false, false⟩
  | .optionsMicrostructure => ⟨true, false, false, false⟩
  | .worldModelSynthesiser => ⟨true, false, false, true⟩
  | .patternMiner | .sequenceAnalyst | .analogyRetriever => ⟨false, false, false, true⟩
  | .bullishInventor | .bearishInventor | .neutralAdvocate => ⟨true, true, true, true⟩
  | .strategyAdvocate | .falsifier | .historicalCritic | .alternativeExplanation
  | .metaDecision => ⟨false, false, false, true⟩
  | .executionCritic => ⟨true, false, false, true⟩
  | .entryTactician => ⟨true, true, false, false⟩
  | .orderManager => ⟨true, true, false, false⟩
  | .positionThesis | .positionDecision => ⟨true, true, true, true⟩

/-- `xs[-n:]`, which is the whole list for `n = 0`. -/
def lastItems (n : ℕ) (xs : List Json) : List Json :=
  if n = 0 then xs else xs.drop (xs.length - n)

/-- The record of a list that exceeds its budget. -/
def truncationOf (fieldName : String) (xs : List Json) (budget : ℕ) (budgetName : String) :
    List ContextTruncationRecord :=
  if budget < xs.length then [⟨fieldName, xs.length, budget, budgetName ++ " budget"⟩] else []

section Assemble

variable (config : ContextAssemblerConfig) (serialiser : Serialiser) (sessionId : String)

/-- The body of an assembly: its arguments cut to the budgets and to what the role reads. -/
def packageBody (a : Assembly) : PackageBody :=
  let bars1m := a.snapshot.bars1m
  let bars5m := a.snapshot.bars5m
  let surface := a.optionSurfaceSlice
  let includes := Includes.ofRole a.agentRole
  { agentRole := a.agentRole
    sessionId := sessionId
    cycleId := a.cycleId
    snapshotId := a.snapshot.snapshotId.text
    underlying := a.snapshot.underlying
    bars1m := if config.max1mBars < bars1m.length then lastItems config.max1mBars bars1m else bars1m
    bars5m := if config.max5mBars < bars5m.length then lastItems config.max5mBars bars5m else bars5m
    dataQuality := a.dataQuality
    optionSurfaceSlice :=
      if includes.surface then surface.take config.maximumOptionRowsPerRequest else []
    orderProjection := if includes.orders then a.orderProjection else none
    positionProjection := if includes.positions then a.positionProjection else none
    sessionArtifactSummaries := if includes.artifacts then a.sessionArtifactSummaries else []
    legacyPlaybookContext :=
      -- An empty context is left out, as a missing one is.
      if config.includeLegacyPlaybook then a.legacyPlaybookContext.filter (!·.isEmpty) else none
    truncations :=
      truncationOf "bars_1m" bars1m config.max1mBars "max_1m_bars" ++
        truncationOf "bars_5m" bars5m config.max5mBars "max_5m_bars" ++
        truncationOf "option_surface_slice" surface config.maximumOptionRowsPerRequest
          "maximum_option_rows_per_request" }

/-- `_source_order_ids` and `_source_position_ids`: the id a projection carries as a text.
Source `joker/cognition/context.py:294–300, 302–308`. -/
def sourceIds (projection : Option Members) (key : String) : List String :=
  ((projection.bind (·.get? key)).bind Json.text?).toList

/-- `_artifact_ids_from_summaries`; an id that is no UUID raises.
Source `joker/cognition/context.py:283–292`. -/
def artifactIdsFromSummaries (summaries : List Members) : Option (List String) :=
  (summaries.filterMap (·.get? "artifact_id")).mapM serialiser.uuid

/-- The package of an assembly that fits its budget. -/
def packageOf (a : Assembly) (artifactIds : List String) (assembledAt : String) : ContextPackage :=
  let body := packageBody config sessionId a
  let contextHash := serialiser.hexdigest body
  { contextId := sessionId ++ ":" ++ a.cycleId ++ ":" ++ a.agentRole.value ++ ":" ++
      String.ofList (contextHash.text.toList.take 16)
    agentRole := a.agentRole
    sessionId := sessionId
    cycleId := a.cycleId
    snapshotId := a.snapshot.snapshotId
    assembledAt := assembledAt
    sourceSnapshotId := a.snapshot.snapshotId
    sourceDataQualityId := some a.snapshot.dataQualityId
    sourceOptionSurfaceId := a.snapshot.optionSurfaceId
    sourceFeatureSnapshotId := a.snapshot.featureSnapshotId
    sourceOrderIds := sourceIds body.orderProjection "client_order_id"
    sourcePositionIds := sourceIds body.positionProjection "position_id"
    sourceArtifactIds := artifactIds
    underlying := body.underlying
    bars1m := body.bars1m
    bars5m := body.bars5m
    dataQuality := body.dataQuality
    optionSurfaceSlice := body.optionSurfaceSlice
    orderProjection := body.orderProjection
    positionProjection := body.positionProjection
    sessionArtifactSummaries := body.sessionArtifactSummaries
    legacyPlaybookContext := body.legacyPlaybookContext
    truncations := body.truncations
    contextHash := contextHash
    serializedSizeChars := serialiser.length body }

/-- `ContextAssembler.assemble`, at the given wall time.
Source `joker/cognition/context.py:89–281`. -/
def assemble (a : Assembly) (assembledAt : String) : Except String ContextPackage :=
  let body := packageBody config sessionId a
  let sizeChars := serialiser.length body
  if config.maximumContextCharacters < sizeChars then
    let limit := config.maximumContextCharacters
    .error s!"context size {sizeChars} exceeds maximum_context_characters={limit}"
  else
    match artifactIdsFromSummaries serialiser body.sessionArtifactSummaries with
    | none => .error "badly formed hexadecimal UUID string"
    | some artifactIds => .ok (packageOf config serialiser sessionId a artifactIds assembledAt)

variable {config serialiser sessionId}

/-- An assembly that succeeds gives its package. -/
theorem assemble_eq_ok {a : Assembly} {assembledAt : String} {context : ContextPackage}
    (h : assemble config serialiser sessionId a assembledAt = .ok context) :
    ∃ artifactIds, artifactIdsFromSummaries serialiser
        (packageBody config sessionId a).sessionArtifactSummaries = some artifactIds ∧
      context = packageOf config serialiser sessionId a artifactIds assembledAt := by
  unfold assemble at h
  simp only at h
  split at h
  · cases h
  · split at h
    · cases h
    · next artifactIds hids =>
      cases h
      exact ⟨artifactIds, hids, rfl⟩

/-- Assemblies on one stored snapshot that hash the same body give the same package, up to the
time of assembly. -/
theorem package_of_body {a b : Assembly} {atA atB : String} {ca cb : ContextPackage}
    (ha : assemble config serialiser sessionId a atA = .ok ca)
    (hb : assemble config serialiser sessionId b atB = .ok cb) (hsnapshot : a.snapshot = b.snapshot)
    (hbody : packageBody config sessionId a = packageBody config sessionId b) :
    { ca with assembledAt := atB } = cb := by
  obtain ⟨idsA, hidsA, rfl⟩ := assemble_eq_ok ha
  obtain ⟨idsB, hidsB, rfl⟩ := assemble_eq_ok hb
  have hids : idsA = idsB := by
    rw [hbody] at hidsA
    exact Option.some.inj (hidsA.symm.trans hidsB)
  have hcycle : a.cycleId = b.cycleId := congrArg PackageBody.cycleId hbody
  have hrole : a.agentRole = b.agentRole := congrArg PackageBody.agentRole hbody
  unfold packageOf
  simp only [hbody, hids, hcycle, hrole, hsnapshot]

end Assemble

/-! ### Payloads -/

/-- `model_dump` of a truncation record. -/
def ContextTruncationRecord.modelDump (record : ContextTruncationRecord) : Json :=
  .obj [("field_name", .str record.fieldName), ("original_count", .num record.originalCount),
    ("retained_count", .num record.retainedCount), ("reason", .str record.reason)]

/-- A projection in a payload. -/
def dumpProjection (projection : Option Members) : Json := .ofOption (projection.map .obj)

/-- The fields of a package, as `model_dump_json` writes them. -/
def ContextPackage.fields (context : ContextPackage) : Members :=
  [("context_id", .str context.contextId),
    ("agent_role", .str context.agentRole.value),
    ("session_id", .str context.sessionId),
    ("cycle_id", .str context.cycleId),
    ("snapshot_id", .str context.snapshotId.text),
    ("assembled_at", .str context.assembledAt),
    ("source_snapshot_id", .str context.sourceSnapshotId.text),
    ("source_data_quality_id", .ofText context.sourceDataQualityId),
    ("source_option_surface_id", .ofText context.sourceOptionSurfaceId),
    ("source_feature_snapshot_id", .ofText context.sourceFeatureSnapshotId),
    ("source_order_ids", .texts context.sourceOrderIds),
    ("source_position_ids", .texts context.sourcePositionIds),
    ("source_artifact_ids", .texts context.sourceArtifactIds),
    ("underlying", context.underlying),
    ("bars_1m", .arr context.bars1m),
    ("bars_5m", .arr context.bars5m),
    ("data_quality", .ofOption context.dataQuality),
    ("option_surface_slice", .arr context.optionSurfaceSlice),
    ("order_projection", dumpProjection context.orderProjection),
    ("position_projection", dumpProjection context.positionProjection),
    ("session_artifact_summaries", .arr (context.sessionArtifactSummaries.map .obj)),
    ("legacy_playbook_context", dumpProjection context.legacyPlaybookContext),
    ("truncations", .arr (context.truncations.map (·.modelDump))),
    ("context_hash", .str context.contextHash.text),
    ("serialized_size_chars", .num context.serializedSizeChars)]

/-- `ContextPackage.to_payload`. Source `joker/cognition/context.py:67–69`. -/
def ContextPackage.toPayload (context : ContextPackage) : Dict String Json :=
  .ofList context.fields

end Joker.Cognition
