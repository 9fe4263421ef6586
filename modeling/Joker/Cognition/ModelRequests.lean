import Joker.Cognition.Context

/-!
# Model requests of the cognitive agents

Library `Cognition`. `CognitiveAgent.build_request` and its callers: the debate panel, the
meta-decision, the order manager, and the agents of the position graph. A request has a payload,
which is the context with the caller's additions, and an idempotency key, which is made from the
context alone. The callers build no agent with a node name and pass no attempt level.
-/

namespace Joker.Cognition

open Joker.Base

/-! ### Requests -/

/-- The version of every registered prompt. Source `joker/agents/cognitive/base.py:49–50`. -/
def promptVersion : String := "2.0.0"

/-- Derive a deterministic idempotency key for graph recovery.
Source `joker/cognition/artifacts.py:127–149`. -/
def buildModelCallIdempotencyKey (sessionId cycleId : String) (snapshotId : PlainText)
    (nodeName : String) (agentRole : AgentRole) (promptVersion : String) (contextHash : PlainText)
    (attemptLevel : ℕ) : String :=
  joinSep '|' sessionId <| joinSep '|' cycleId <| joinSep '|' snapshotId.text <|
    joinSep '|' nodeName <| joinSep '|' agentRole.value <| joinSep '|' promptVersion <|
      joinSep '|' contextHash.text (toString attemptLevel)

/-- Keys of one session agree exactly when cycle, snapshot, role and context hash do. -/
theorem buildModelCallIdempotencyKey_inj {sessionId cycle cycle' version : String}
    {snapshot snapshot' hash hash' : PlainText} {role role' : AgentRole} {level : ℕ}
    (hversion : '|' ∉ version.toList) (hlevel : '|' ∉ (toString level).toList) :
    buildModelCallIdempotencyKey sessionId cycle snapshot role.value role version hash level =
        buildModelCallIdempotencyKey sessionId cycle' snapshot' role'.value role' version hash'
          level ↔
      cycle = cycle' ∧ snapshot.text = snapshot'.text ∧ role = role' ∧ hash.text = hash'.text := by
  unfold buildModelCallIdempotencyKey
  rw [joinSep_right_inj]
  -- the cycle id may hold separators, so the parts are read off from the right
  simp only [← joinSep_assoc]
  rw [joinSep_inj_of_plain_right hlevel hlevel, joinSep_inj_of_plain_right hash.plain hash'.plain,
    joinSep_inj_of_plain_right hversion hversion,
    joinSep_inj_of_plain_right role.value_plain role'.value_plain,
    joinSep_inj_of_plain_right role.value_plain role'.value_plain,
    joinSep_inj_of_plain_right snapshot.plain snapshot'.plain, AgentRole.value_inj]
  constructor
  · rintro ⟨⟨⟨⟨⟨⟨hcycle, hsnapshot⟩, -⟩, hrole⟩, -⟩, hhash⟩, -⟩
    exact ⟨hcycle, hsnapshot, hrole, hhash⟩
  · rintro ⟨hcycle, hsnapshot, hrole, hhash⟩
    exact ⟨⟨⟨⟨⟨⟨hcycle, hsnapshot⟩, hrole⟩, hrole⟩, rfl⟩, hhash⟩, rfl⟩

/-- Provider-neutral structured completion request, as far as routing and reuse read it.
Source `joker/models/schemas.py:35–69`. -/
structure ModelRequest where
  idempotencyKey : String
  role : AgentRole
  contextPayload : Dict String Json

/-- `payload.update(extra_payload)`. -/
def updatePayload (payload : Dict String Json) (extra : Members) : Dict String Json :=
  extra.foldl (fun d e ↦ d.set e.1 e.2) payload

/-- Build an idempotent `ModelRequest` for an agent invocation.
Source `joker/agents/cognitive/base.py:73–109`. -/
def buildRequest (role : AgentRole) (context : ContextPackage) (attemptLevel : ℕ)
    (extraPayload : Members) : ModelRequest :=
  { idempotencyKey := buildModelCallIdempotencyKey context.sessionId context.cycleId
      context.snapshotId role.value role promptVersion context.contextHash attemptLevel
    role := role
    contextPayload := updatePayload context.toPayload extraPayload }

/-- Payloads agree up to the time of assembly. -/
def SamePayload (a b : ModelRequest) : Prop :=
  ∀ k, k ≠ "assembled_at" → a.contextPayload.get? k = b.contextPayload.get? k

/-! ### Artefacts that requests mention -/

/-- Competing strategy proposal from an inventor agent.
Source `joker/cognition/schemas.py:498–523`. -/
structure StrategyHypothesis where
  strategyId : String
  name : String
  rest : Members

/-- `strategy.model_dump(mode="json")`. -/
def StrategyHypothesis.modelDump (strategy : StrategyHypothesis) : Json :=
  .obj (("strategy_id", .str strategy.strategyId) :: ("name", .str strategy.name) :: strategy.rest)

/-- Immutable versioned position thesis. -/
structure PositionThesisVersion where
  thesisVersionId : String
  contractId : String
  originalStrategyId : String
  recommendedAction : String
  rest : Members

/-- `thesis.model_dump(mode="json")`. -/
def PositionThesisVersion.modelDump (thesis : PositionThesisVersion) : Json :=
  .obj (("thesis_version_id", .str thesis.thesisVersionId) ::
    ("contract_id", .str thesis.contractId) ::
    ("original_strategy_id", .str thesis.originalStrategyId) ::
    ("recommended_action", .str thesis.recommendedAction) :: thesis.rest)

/-- A hypothesis is determined by its dump. -/
theorem StrategyHypothesis.modelDump_inj {a b : StrategyHypothesis} :
    a.modelDump = b.modelDump ↔ a = b := by
  cases a
  cases b
  simp [modelDump]

/-- A thesis version is determined by its dump. -/
theorem PositionThesisVersion.modelDump_inj {a b : PositionThesisVersion} :
    a.modelDump = b.modelDump ↔ a = b := by
  cases a
  cases b
  simp [modelDump]

/-! ### Callers -/

/-- The roles of the debate panel. -/
inductive DebateRole where
  | strategyAdvocate
  | falsifier
  | historicalCritic
  | executionCritic
  | alternativeExplanation
  deriving DecidableEq

/-- The agent role of a debate role. -/
def DebateRole.role : DebateRole → AgentRole
  | strategyAdvocate => .strategyAdvocate
  | falsifier => .falsifier
  | historicalCritic => .historicalCritic
  | executionCritic => .executionCritic
  | alternativeExplanation => .alternativeExplanation

/-- An invocation of `CognitiveAgent.run` by one of the callers, with the caller's arguments. -/
inductive Invocation where
  /-- `run_debate_panel`, one of its critics. -/
  | debate (role : DebateRole) (strategy : StrategyHypothesis)
  /-- `MetaDecisionAgent.decide`; reviews are represented by their dumps. -/
  | metaDecision (strategies : List StrategyHypothesis) (reviews : List Json)
    (evidenceIds : List String)
  /-- `OrderManagerAgent.manage`. -/
  | orderManager (clientOrderId : String) (orderProjection : Option Members)
  /-- `PositionThesisAgent.reassess`. -/
  | positionThesis (positionId contractId originalStrategyId : String)
    (positionProjection : Option Members) (priorVersion : Option PositionThesisVersion)
    (evidenceIds : List String)
  /-- The execution critic of the position graph. -/
  | positionCritic (thesis : PositionThesisVersion)
  /-- `PositionDecisionAgent.decide`. -/
  | positionDecision (latestThesis : PositionThesisVersion) (positionProjection : Option Members)
    (evidenceIds : List String)

namespace Invocation

/-- The role of the invoked agent. -/
def role : Invocation → AgentRole
  | debate role _ => role.role
  | metaDecision .. => .metaDecision
  | orderManager .. => .orderManager
  | positionThesis .. => .positionThesis
  | positionCritic .. => .executionCritic
  | positionDecision .. => .positionDecision

/-- Attach the strategy under review to the debate context package; the hash stays.
Source `joker/agents/cognitive/debate.py:159–173`. -/
def debateContextForStrategy (context : ContextPackage) (strategy : StrategyHypothesis) :
    ContextPackage :=
  { context with
    sessionArtifactSummaries := context.sessionArtifactSummaries ++
      [[("artifact_id", .str strategy.strategyId), ("artifact_type", .str "strategy_hypothesis"),
        ("strategy", strategy.modelDump)]] }

/-- The context that the invocation passes on. -/
def passedContext (context : ContextPackage) : Invocation → ContextPackage
  | debate _ strategy => debateContextForStrategy context strategy
  | _ => context

/-- An optional entry of a payload. -/
def optionalEntry (key : String) (value : Option Json) : Members :=
  match value with
  | some value => [(key, value)]
  | none => []

/-- The `extra_payload` of the invocation. -/
def extraPayload : Invocation → Members
  | debate _ strategy =>
    [("strategy_id", .str strategy.strategyId), ("strategy_name", .str strategy.name)]
  | metaDecision strategies reviews evidenceIds =>
    [("candidate_strategies", .arr (strategies.map (·.modelDump))),
      ("debate_reviews", .arr reviews), ("evidence_ids", .texts evidenceIds)]
  | orderManager clientOrderId orderProjection =>
    ("client_order_id", .str clientOrderId) ::
      optionalEntry "order_projection" (orderProjection.map .obj)
  | positionThesis positionId contractId originalStrategyId positionProjection priorVersion
      evidenceIds =>
    [("position_id", .str positionId), ("contract_id", .str contractId),
      ("original_strategy_id", .str originalStrategyId), ("evidence_ids", .texts evidenceIds)] ++
      optionalEntry "position_projection" (positionProjection.map .obj) ++
      optionalEntry "prior_thesis_version" (priorVersion.map (·.modelDump))
  | positionCritic thesis =>
    [("strategy_id", .str thesis.originalStrategyId), ("position_thesis", thesis.modelDump),
      ("review_focus", .texts ["liquidity", "spread", "quote_age", "fill_feasibility",
        "opportunity_decay"])]
  | positionDecision latestThesis positionProjection evidenceIds =>
    [("latest_thesis_version", latestThesis.modelDump), ("evidence_ids", .texts evidenceIds)] ++
      optionalEntry "position_projection" (positionProjection.map .obj)

/-- The request of an invocation on a context. Source `joker/agents/cognitive/base.py:52–71`. -/
def request (invocation : Invocation) (context : ContextPackage) : ModelRequest :=
  buildRequest invocation.role (invocation.passedContext context) 0 invocation.extraPayload

/-- The hash that the key takes is that of the assembled context, whatever is attached to it. -/
theorem idempotencyKey_request (invocation : Invocation) (context : ContextPackage) :
    (invocation.request context).idempotencyKey =
      buildModelCallIdempotencyKey context.sessionId context.cycleId context.snapshotId
        invocation.role.value invocation.role promptVersion context.contextHash 0 := by
  cases invocation <;> rfl

end Invocation

end Joker.Cognition
