import Joker.Base.Runs
import Joker.Cognition.ModelRequests
import Joker.Runtime.GatewaySubmission

/-!
# Parent cognitive graph

Library `Graph`. The nodes, the conditional edges and the supersteps of
`joker/graph/cognitive_graph.py`, with the parts of its subgraphs that write to the shared state
and the reducers of `joker/graph/reducers.py`. What models, repositories, projection, gateway and
callback answer in a superstep is an input, and so is an exception outside a node's own `try`,
which ends the run. The trace of nodes and the published events are left out.
-/

namespace Joker.Graph

open Joker.Base Joker.Broker Joker.Runtime
open Joker.Cognition (ContextPackage StrategyHypothesis)

/-! ### State -/

/-- `MetaDecisionAction`. Source `joker/cognition/schemas.py:107–115`. -/
inductive MetaDecisionAction where
  | execute
  | probe
  | delay
  | requestMoreEvidence
  | switchStrategy
  | abandon
  deriving DecidableEq, Repr

/-- `MetaDecision`: the ids, and what the graph reads.
Source `joker/cognition/schemas.py:559–578`. -/
structure MetaDecision where
  decisionId : String
  action : MetaDecisionAction
  selectedStrategyId : Option String
  alternateStrategyIds : List String
  requestedEvidence : List String
  deriving DecidableEq

/-- `ExecutionProposalAction`. Source `joker/cognition/schemas.py:36`. -/
inductive ExecutionProposalAction where
  | execute
  | probe
  deriving DecidableEq, Repr

/-- `ExecutionProposal`; the legs and the order's terms are `rest`.
Source `joker/cognition/schemas.py:604–630`. -/
structure ExecutionProposal where
  proposalId : String
  decisionId : String
  strategyId : String
  sessionId : String
  cycleId : String
  snapshotId : String
  action : ExecutionProposalAction
  rest : String
  deriving DecidableEq

/-- `CognitiveError`. Source `joker/cognition/schemas.py:706–723`. -/
structure CognitiveError where
  errorId : String
  nodeName : String
  errorCode : String
  message : String
  recoverable : Bool
  deriving DecidableEq

/-- An artefact that agents append to the state: its id and the rest of its payload. -/
structure Artefact where
  artefactId : String
  rest : String
  deriving DecidableEq

/-- `CognitiveGraphState`, without the trace of nodes, the channels of the position graph and the
ones that no node of this graph reads. Source `joker/graph/cognitive_state.py:35–91`. -/
structure CognitiveGraphState where
  sessionId : String
  cycleId : String
  triggerEventId : String
  snapshotId : String
  latestKnownSnapshotId : String
  contextPackage : Option ContextPackage
  evidence : List Artefact
  worldModel : Option String
  hypotheses : List Artefact
  strategies : List StrategyHypothesis
  reviews : List Artefact
  metaDecision : Option MetaDecision
  executionProposal : Option ExecutionProposal
  executionCommandId : Option String
  executionResultRef : Option String
  pendingEvidenceRequests : List String
  errors : List CognitiveError
  debateRound : ℤ
  strategySwitchCount : ℤ
  selectedStrategyIds : List String
  staleDecision : Bool

/-- `initial_cycle_state`. Source `joker/graph/cognitive_graph.py:549–580`. -/
def initialCycleState (sessionId cycleId triggerEventId snapshotId : String) :
    CognitiveGraphState :=
  { sessionId := sessionId
    cycleId := cycleId
    triggerEventId := triggerEventId
    snapshotId := snapshotId
    latestKnownSnapshotId := snapshotId
    contextPackage := none
    evidence := []
    worldModel := none
    hypotheses := []
    strategies := []
    reviews := []
    metaDecision := none
    executionProposal := none
    executionCommandId := none
    executionResultRef := none
    pendingEvidenceRequests := []
    errors := []
    debateRound := 0
    strategySwitchCount := 0
    selectedStrategyIds := []
    staleDecision := false }

/-! ### Reducers -/

section Reducers

variable {T : Type} (idOf : T → String)

/-- The first item of each id, as the loop of `_merge_models` collects them. -/
def mergeFirst (items : List T) : Dict String T :=
  items.foldl (fun merged item ↦
    match merged.get? (idOf item) with
    | none => merged.set (idOf item) item
    | some _ => merged) Dict.empty

/-- `_merge_models`: of one id the first item stays, and the items are sorted by their ids.
Source `joker/graph/reducers.py:26–46`. -/
def mergeModels (existing incoming : List T) : List T :=
  (mergeFirst idOf (existing ++ incoming)).values.insertionSort (fun a b ↦ idOf a ≤ idOf b)

end Reducers

/-- `merge_errors`. Source `joker/graph/reducers.py:109–118`. -/
def mergeErrors : List CognitiveError → List CognitiveError → List CognitiveError :=
  mergeModels CognitiveError.errorId

/-! ### Nodes -/

/-- The nodes of the graph. -/
inductive Node where
  | validateTrigger
  | hydrateContext
  | perception
  | synthesiseWorldModel
  | discovery
  | strategy
  | selectDebateCandidates
  | debate
  | metaDecision
  | strategySwitchRevision
  | entryTactician
  | validateExecutionProposal
  | submitExecutionCommand
  | persistCycle
  | persistPendingCycle
  | persistEvidenceRequest
  | persistStale
  deriving DecidableEq, Repr

/-- The settings and the services of `CognitiveGraphDeps` that nodes look at before they call
them. Source `joker/graph/graph_deps.py:48–90`. -/
structure CognitiveGraphDeps where
  maxStrategySwitches : ℤ
  maxDebateRounds : ℤ
  maxStrategyCandidates : ℤ
  hasSnapshotRepo : Bool
  hasGateway : Bool
  hasSubmitCallback : Bool

/-- `ProvenancedExecutionCommand`, without the evidence ids.
Source `joker/agents/cognitive/execution.py:29–39`. -/
structure ProvenancedExecutionCommand where
  command : ExecutionCommand
  decisionId : String
  strategyId : String
  proposalId : String
  snapshotId : String
  cycleId : String
  maxQuoteAgeSeconds : Option ℤ

/-- What the services answer in one superstep. -/
structure Answer where
  /-- The fresh ids of an error record and of a cycle. -/
  errorId : String
  freshCycleId : String
  /-- What a call outside the node's `try` raises, if one raises. -/
  fault : Option String
  /-- What `load_snapshot_truth` finds, given a repository. -/
  snapshot : Except String Unit
  context : ContextPackage
  evidence : List Artefact
  worldModel : String
  hypotheses : List Artefact
  strategies : List StrategyHypothesis
  /-- The reviews of a strategy's panel. -/
  panel : StrategyHypothesis → List Artefact
  /-- The meta-decision and the proposal that the models write. -/
  decision : MetaDecision
  proposal : ExecutionProposal
  /-- What validation and compilation make of a proposal, against the truth of that moment. -/
  compiled : ExecutionProposal → Except String ProvenancedExecutionCommand
  gateway : OrderActionRequest → OrderActionResult
  /-- The order id of the callback's result. -/
  callback : ProvenancedExecutionCommand → Option String

/-- `append_error`, merged. Source `joker/graph/node_helpers.py:43–61`. -/
def CognitiveGraphState.appendError (state : CognitiveGraphState)
    (errorId nodeName errorCode message : String) (recoverable : Bool) : CognitiveGraphState :=
  { state with
    errors := mergeErrors state.errors [⟨errorId, nodeName, errorCode, message, recoverable⟩] }

/-- `xs[:limit]`. -/
def sliceTo {T : Type} (limit : ℤ) (xs : List T) : List T :=
  if 0 ≤ limit then xs.take limit.toNat else xs.take (xs.length - (-limit).toNat)

/-- `_selected_strategy`. Source `joker/graph/cognitive_graph.py:34–42`. -/
def selectedStrategy (state : CognitiveGraphState) : Option StrategyHypothesis := do
  let selected ← (← state.metaDecision).selectedStrategyId
  match state.strategies.find? (fun strategy ↦ strategy.strategyId = selected) with
  | some strategy => some strategy
  | none => state.strategies.head?

/-- `validate_meta_decision`. -/
def validateMetaDecision (decision : MetaDecision) (strategies : List StrategyHypothesis) :
    Except String Unit := do
  match decision.selectedStrategyId with
  | none => pure ()
  | some selected =>
    let known := strategies.map (·.strategyId)
    if selected ∉ known then
      throw ("selected_strategy_id=" ++ selected ++ " not in candidate strategies")
    match decision.alternateStrategyIds.find? (· ∉ known) with
    | some alternate =>
      throw ("alternate_strategy_id=" ++ alternate ++ " not in candidate strategies")
    | none => pure ()

/-- `provenanced_to_action_request`. Source `joker/runtime/order_action_gateway.py:600–624`. -/
def provenancedToActionRequest (provenanced : ProvenancedExecutionCommand)
    (action : OrderActionKind) : OrderActionRequest :=
  { action := action
    snapshotId := provenanced.snapshotId
    contractId := contractIdFor provenanced.command.intent.contract
    side := provenanced.command.intent.side
    quantity := provenanced.command.intent.quantity
    clientOrderId := provenanced.command.clientOrderId
    limitPrice := provenanced.command.intent.limitPrice
    orderType := provenanced.command.intent.orderType
    maxQuoteAgeSeconds := provenanced.maxQuoteAgeSeconds
    proposalId := some provenanced.proposalId
    decisionId := some provenanced.decisionId
    strategyId := some provenanced.strategyId
    cycleId := some provenanced.cycleId
    replaceOfClientOrderId := none
    allowDegradedExit := true
    degradedExitReason := none
    brokerAccountId := provenanced.command.brokerAccountId }

namespace CognitiveGraph

variable (deps : CognitiveGraphDeps) (state : CognitiveGraphState) (answer : Answer)

/-- What a node goes on with when no call outside its `try` raises. -/
def unlessFault (updated : CognitiveGraphState) : Except String CognitiveGraphState :=
  match answer.fault with
  | some text => .error text
  | none => .ok updated

/-- `load_snapshot_truth`. Source `joker/graph/context_hydrate.py:37–74`. -/
def loadSnapshotTruth : Except String Unit :=
  if deps.hasSnapshotRepo then answer.snapshot
  else .error "snapshot_repo required for context hydration"

/-- `validate_trigger`. Source `joker/graph/cognitive_graph.py:52–61`. -/
def validateTrigger : CognitiveGraphState :=
  if state.triggerEventId = "" ∨ state.snapshotId = "" then
    state.appendError answer.errorId "validate_trigger" "invalid_trigger"
      "missing trigger_event_id or snapshot_id" false
  else state

/-- `hydrate_context`. Source `joker/graph/cognitive_graph.py:63–114`. -/
def hydrateContext : Except String CognitiveGraphState :=
  if state.snapshotId = "" ∨ deps.hasSnapshotRepo = false then
    .ok (state.appendError answer.errorId "hydrate_context" "snapshot_unavailable"
      "cannot hydrate context without snapshot repository" true)
  else
    match loadSnapshotTruth deps answer with
    | .error text =>
      .ok (state.appendError answer.errorId "hydrate_context" "snapshot_not_found" text true)
    | .ok () =>
      unlessFault answer
        { state with
          cycleId := if state.cycleId = "" then answer.freshCycleId else state.cycleId
          contextPackage := some answer.context
          latestKnownSnapshotId := state.snapshotId }

/-- `run_perception`. -/
def runPerception : Except String CognitiveGraphState :=
  if state.snapshotId = "" then .ok state
  else
    match loadSnapshotTruth deps answer with
    | .error text => .error text
    | .ok () =>
      unlessFault answer
        { state with evidence := mergeModels Artefact.artefactId state.evidence answer.evidence }

/-- `synthesise_world_model`. Source `joker/graph/cognitive_graph.py:116–177`. -/
def synthesiseWorldModel : Except String CognitiveGraphState :=
  if state.evidence = [] then
    .ok (state.appendError answer.errorId "synthesise_world_model" "no_evidence"
      "cannot synthesise world model without evidence" true)
  else if state.worldModel.isSome then .ok state
  else
    match loadSnapshotTruth deps answer with
    | .error text => .error text
    | .ok () => unlessFault answer { state with worldModel := some answer.worldModel }

/-- `run_discovery_node`. -/
def runDiscovery : Except String CognitiveGraphState :=
  if state.contextPackage.isNone then .ok state
  else
    unlessFault answer
      { state with
        hypotheses := mergeModels Artefact.artefactId state.hypotheses answer.hypotheses }

/-- `run_strategy_node`. -/
def runStrategy : Except String CognitiveGraphState :=
  if state.contextPackage.isNone then .ok state
  else
    unlessFault answer
      { state with
        strategies := mergeModels StrategyHypothesis.strategyId state.strategies
          (sliceTo deps.maxStrategyCandidates answer.strategies) }

/-- `select_debate_candidates`. Source `joker/graph/cognitive_graph.py:179–188`. -/
def selectDebateCandidates : CognitiveGraphState :=
  { state with
    selectedStrategyIds :=
      (sliceTo deps.maxStrategyCandidates state.strategies).map (·.strategyId) }

/-- `run_debate_node`: the panels of the selected strategies, of all where none is selected. -/
def runDebate : Except String CognitiveGraphState :=
  if state.contextPackage.isNone then .ok state
  else
    let debated := if state.selectedStrategyIds = [] then state.strategies
      else state.strategies.filter (·.strategyId ∈ state.selectedStrategyIds)
    unlessFault answer
      { state with
        reviews := mergeModels Artefact.artefactId state.reviews (debated.flatMap answer.panel) }

/-- `meta_decision_node`. Source `joker/graph/cognitive_graph.py:190–213`. -/
def metaDecisionNode : Except String CognitiveGraphState :=
  if state.contextPackage.isNone then .ok state
  else
    match validateMetaDecision answer.decision state.strategies with
    | .error text => .error text
    | .ok () => unlessFault answer { state with metaDecision := some answer.decision }

/-- `strategy_switch_revision`. Source `joker/graph/cognitive_graph.py:235–246`. -/
def strategySwitchRevision : CognitiveGraphState :=
  { state with
    strategySwitchCount := state.strategySwitchCount + 1
    selectedStrategyIds := (state.metaDecision.map (·.alternateStrategyIds)).getD []
    debateRound := state.debateRound + 1 }

/-- `EntryTacticianAgent.propose`, after the model has answered.
Source `joker/agents/cognitive/execution.py:73–100`. -/
def propose (context : ContextPackage) (decision : MetaDecision) (strategy : StrategyHypothesis)
    (proposal : ExecutionProposal) : ExecutionProposal :=
  { proposal with
    decisionId := decision.decisionId
    strategyId := strategy.strategyId
    sessionId := context.sessionId
    cycleId := context.cycleId
    snapshotId := context.snapshotId.text }

/-- `entry_tactician_node`. Source `joker/graph/cognitive_graph.py:254–284`. -/
def entryTacticianNode : Except String CognitiveGraphState :=
  match state.contextPackage, state.metaDecision, selectedStrategy state with
  | some context, some decision, some strategy =>
    unlessFault answer
      { state with
        executionProposal := some (propose context decision strategy answer.proposal) }
  | _, _, _ =>
    .ok (state.appendError answer.errorId "entry_tactician" "missing_inputs"
      "meta_decision and strategy required for entry tactician" true)

/-- Truth loaded, proposal validated and compiled. -/
def compileProposal (proposal : ExecutionProposal) : Except String ProvenancedExecutionCommand := do
  let _ ← loadSnapshotTruth deps answer
  answer.compiled proposal

/-- `validate_execution_proposal`. Source `joker/graph/cognitive_graph.py:286–328`. -/
def validateExecutionProposal : CognitiveGraphState :=
  match state.executionProposal with
  | none =>
    state.appendError answer.errorId "validate_execution_proposal" "missing_proposal"
      "no execution proposal to validate" true
  | some proposal =>
    match compileProposal deps answer proposal with
    | .error text =>
      if hasText "stale" (lower text) then
        { state.appendError answer.errorId "validate_execution_proposal" "stale_proposal" text true
          with staleDecision := true }
      else
        state.appendError answer.errorId "validate_execution_proposal" "validation_failed" text true
    | .ok _ => state

/-- The end of `submit_execution_command`, with the order placed. -/
def submitted (commandId resultRef : String) : CognitiveGraphState :=
  { state with executionCommandId := some commandId, executionResultRef := some resultRef }

/-- `submit_execution_command`, from the compiled command on.
Source `joker/graph/cognitive_graph.py:330–423`. -/
def submitProvenanced (proposal : ExecutionProposal) (provenanced : ProvenancedExecutionCommand) :
    Except String CognitiveGraphState :=
  if deps.hasGateway then
    let action := if proposal.action = .probe then OrderActionKind.probe else .entry
    let result := answer.gateway (provenancedToActionRequest provenanced action)
    if result.submitted then
      unlessFault answer (submitted state result.clientOrderId
        ((result.brokerOrder.map (·.orderId)).getD result.clientOrderId))
    else
      unlessFault answer (state.appendError answer.errorId "submit_execution_command"
        "gateway_blocked"
        (OrderActionGateway.orTexts [result.blockedReason] "order action blocked") true)
  else if deps.hasSubmitCallback then
    unlessFault answer (submitted state provenanced.command.clientOrderId
      ((answer.callback provenanced).getD provenanced.command.clientOrderId))
  else
    .ok (state.appendError answer.errorId "submit_execution_command" "no_submit_callback"
      "execution submit callback not configured" true)

/-- `submit_execution_command`. Source `joker/graph/cognitive_graph.py:330–423`. -/
def submitExecutionCommand : Except String CognitiveGraphState :=
  match state.executionProposal with
  | none => .ok state
  | some proposal =>
    if state.executionCommandId.any (· ≠ "") then .ok state
    else
      match compileProposal deps answer proposal with
      | .error text =>
        .ok (state.appendError answer.errorId "submit_execution_command"
          "submit_validation_failed" text true)
      | .ok provenanced => submitProvenanced deps state answer proposal provenanced

/-- `persist_evidence_request`. Source `joker/graph/cognitive_graph.py:433–442`. -/
def persistEvidenceRequest : Except String CognitiveGraphState :=
  unlessFault answer
    { state with
      pendingEvidenceRequests := (state.metaDecision.map (·.requestedEvidence)).getD [] }

/-- The state after a node, or what the node raises. -/
def execute : Node → Except String CognitiveGraphState
  | .validateTrigger => .ok (validateTrigger state answer)
  | .hydrateContext => hydrateContext deps state answer
  | .perception => runPerception deps state answer
  | .synthesiseWorldModel => synthesiseWorldModel deps state answer
  | .discovery => runDiscovery state answer
  | .strategy => runStrategy deps state answer
  | .selectDebateCandidates => .ok (selectDebateCandidates deps state)
  | .debate => runDebate state answer
  | .metaDecision => metaDecisionNode state answer
  | .strategySwitchRevision => .ok (strategySwitchRevision state)
  | .entryTactician => entryTacticianNode state answer
  | .validateExecutionProposal => .ok (validateExecutionProposal deps state answer)
  | .submitExecutionCommand => submitExecutionCommand deps state answer
  | .persistEvidenceRequest => persistEvidenceRequest state answer
  -- the others publish the cycle's outcome
  | .persistCycle => unlessFault answer state
  | .persistPendingCycle => unlessFault answer state
  | .persistStale => unlessFault answer state

/-! ### Edges -/

/-- `route_meta_decision`. Source `joker/graph/cognitive_graph.py:215–233`. -/
def routeMetaDecision : Node :=
  match state.metaDecision with
  | none => .persistCycle
  | some decision =>
    if state.staleDecision then .persistStale
    else
      match decision.action with
      | .execute | .probe => .entryTactician
      | .delay => .persistPendingCycle
      | .requestMoreEvidence => .persistEvidenceRequest
      | .switchStrategy =>
        if deps.maxStrategySwitches ≤ state.strategySwitchCount then .persistCycle
        else .strategySwitchRevision
      | .abandon => .persistCycle

/-- `after_switch_route`. Source `joker/graph/cognitive_graph.py:248–252`. -/
def afterSwitchRoute : Node :=
  if state.debateRound ≤ deps.maxDebateRounds then .debate else .metaDecision

/-- `after_validate_route`. Source `joker/graph/cognitive_graph.py:494–500`. -/
def afterValidateRoute : Node :=
  if state.staleDecision then .persistStale
  else if state.errors.any (fun e ↦ e.errorCode = "validation_failed") then .persistCycle
  else .submitExecutionCommand

/-- The edges of `build_cognitive_graph`; `none` is `END`.
Source `joker/graph/cognitive_graph.py:45–521`. -/
def next : Node → Option Node
  | .validateTrigger => some .hydrateContext
  | .hydrateContext => some .perception
  | .perception => some .synthesiseWorldModel
  | .synthesiseWorldModel => some .discovery
  | .discovery => some .strategy
  | .strategy => some .selectDebateCandidates
  | .selectDebateCandidates => some .debate
  | .debate => some .metaDecision
  | .metaDecision => some (routeMetaDecision deps state)
  | .strategySwitchRevision => some (afterSwitchRoute deps state)
  | .entryTactician => some .validateExecutionProposal
  | .validateExecutionProposal => some (afterValidateRoute state)
  | .submitExecutionCommand => some .persistCycle
  | .persistCycle => none
  | .persistPendingCycle => none
  | .persistEvidenceRequest => none
  | .persistStale => none

end CognitiveGraph

/-! ### Supersteps -/

/-- An executed node, with the state and the answers it was executed on. -/
structure Executed where
  node : Node
  state : CognitiveGraphState
  answer : Answer

/-- Where a run is: before a node, at `END`, or ended by an exception. -/
inductive Position where
  | at (node : Node) (state : CognitiveGraphState)
  | ended (state : CognitiveGraphState)
  | raised (text : String)

/-- A run of the graph with the nodes executed so far. -/
structure GraphRun where
  position : Position
  trace : List Executed

/-- The run before its first superstep. -/
def GraphRun.start (state : CognitiveGraphState) : GraphRun := ⟨.at .validateTrigger state, []⟩

/-- The position after a node. -/
def CognitiveGraph.follow (deps : CognitiveGraphDeps) (node : Node) :
    Except String CognitiveGraphState → Position
  | .error text => .raised text
  | .ok state =>
    match CognitiveGraph.next deps state node with
    | some successor => .at successor state
    | none => .ended state

/-- One superstep. -/
def GraphRun.superstep (deps : CognitiveGraphDeps) (run : GraphRun) (answer : Answer) : GraphRun :=
  match run.position with
  | .at node state =>
    { position := CognitiveGraph.follow deps node (CognitiveGraph.execute deps state answer node)
      trace := run.trace ++ [⟨node, state, answer⟩] }
  | .ended _ => run
  | .raised _ => run

end Joker.Graph
