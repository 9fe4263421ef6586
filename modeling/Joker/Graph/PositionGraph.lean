import Joker.Persistence.ArtifactStore
import Joker.Runtime.OrderActionGateway

/-!
# Position graph

Library `Graph`. The nodes of `joker/graph/position_graph.py` from the ledger projection to the
order action: the truth about position and order is read, the prior thesis is loaded, thesis and
decision are asked for and appended, and the decision's action is routed. What the models answer
is an input of a cycle.
-/

namespace Joker.Graph

open Joker.Base Joker.Ledger Joker.Persistence Joker.Runtime

/-- `PositionAction`. Source `joker/cognition/schemas.py:118–127`. -/
inductive PositionAction where
  | hold
  | add
  | reduce
  | exit
  | cancelWorkingOrder
  | replaceWorkingOrder
  | updateThesis
  deriving DecidableEq, Repr

/-- The enumeration's string value. -/
def PositionAction.value : PositionAction → String
  | .hold => "hold"
  | .add => "add"
  | .reduce => "reduce"
  | .exit => "exit"
  | .cancelWorkingOrder => "cancel_working_order"
  | .replaceWorkingOrder => "replace_working_order"
  | .updateThesis => "update_thesis"

/-- `PositionThesisVersion`: a versioned position thesis, never overwritten. The texts, the
evidence and the confidence are `rest`. Source `joker/cognition/schemas.py:633–667`. -/
structure PositionThesisVersion where
  thesisVersionId : String
  positionId : String
  contractId : String
  sessionId : String
  snapshotId : String
  priorVersionId : Option String
  originalStrategyId : String
  recommendedAction : PositionAction
  recommendedQuantity : Option ℤ
  recommendedLimitPrice : Option Decimal
  rest : String
  deriving DecidableEq

/-! ### Truth -/

/-- What `_extract_position` returns; an absent key is `none`. -/
structure PositionProjection where
  positionId : String
  contractId : Option String
  quantity : Option ℚ
  averagePrice : Option String
  deriving DecidableEq

/-- What `_extract_orders` returns for an order of the projection: the attributes `quantity` and
`filled_quantity`, which it does not have, and no side. -/
structure OrderProjection where
  clientOrderId : String
  status : OrderStatus
  quantity : Option ℚ
  filledQuantity : Option ℚ
  side : Option String
  deriving DecidableEq

/-- A position of the projection under an id, by its contract id or its key. -/
def isPosition (positionId : String) (entry : String × PositionState) : Bool :=
  decide ((if entry.2.contractId = "" then entry.1 else entry.2.contractId) = positionId) ||
    decide (entry.1 = positionId)

/-- `_extract_position`: the position with the id, else the first one that holds something.
Source `joker/graph/position_graph.py:479–518`. -/
def extractPosition (projection : Option ProjectionState) (positionId : String) :
    PositionProjection :=
  match projection with
  | none => ⟨positionId, none, none, none⟩
  | some projection =>
    match projection.positions.entries.find? (isPosition positionId) with
    | some (key, pos) =>
      { positionId := positionId
        contractId := some (if pos.contractId = "" then key else pos.contractId)
        quantity := if pos.quantity = 0 then none else some pos.quantity
        averagePrice := some "" }
    | none =>
      match projection.positions.entries.find? (fun entry ↦ entry.2.quantity ≠ 0) with
      | some (_, pos) => ⟨positionId, some pos.contractId, some pos.quantity, none⟩
      | none => ⟨positionId, none, none, none⟩

/-- An order whose status counts as working. -/
def isWorking (order : OrderLifecycle) : Bool := decide (order.status.value ∈ workingStatuses)

/-- `_extract_orders`: the first working order of the projection, whatever its contract.
Source `joker/graph/position_graph.py:521–545`. -/
def extractOrders (projection : Option ProjectionState) : Option OrderProjection :=
  match projection with
  | none => none
  | some projection =>
    (projection.orders.values.find? isWorking).map (fun order ↦
      { clientOrderId := order.clientOrderId
        status := order.status
        quantity := none
        filledQuantity := none
        side := none })

/-! ### Agents -/

/-- The part of `PositionThesisAgent.reassess` after the model has answered.
Source `joker/agents/cognitive/position.py:18–51`. -/
def PositionThesisAgent.reassess
    (sessionId snapshotId positionId contractId originalStrategyId : String)
    (priorVersion : Option PositionThesisVersion) (answer : PositionThesisVersion) :
    PositionThesisVersion :=
  { answer with
    positionId := positionId
    contractId := contractId
    sessionId := sessionId
    snapshotId := snapshotId
    originalStrategyId := originalStrategyId
    priorVersionId := match priorVersion with
      | some prior => some prior.thesisVersionId
      | none => answer.priorVersionId }

/-- The part of `PositionDecisionAgent.decide` after the model has answered.
Source `joker/agents/cognitive/position.py:58–84`. -/
def PositionDecisionAgent.decide (sessionId snapshotId : String)
    (latestThesis answer : PositionThesisVersion) : PositionThesisVersion :=
  { answer with
    positionId := latestThesis.positionId
    contractId := latestThesis.contractId
    sessionId := sessionId
    snapshotId := snapshotId
    originalStrategyId := latestThesis.originalStrategyId
    priorVersionId := some latestThesis.thesisVersionId }

/-! ### Cycles -/

/-- What a position cycle runs on, what the models answer in it, and when its versions are
appended. `hydrate_position_truth` lets no cycle go on without both ids.
Source `joker/graph/position_graph.py:43–82, 84–97`. -/
structure PositionCycle where
  snapshotId : String
  positionId : String
  hydrated : snapshotId ≠ "" ∧ positionId ≠ ""
  contractId : String
  originalStrategyId : String
  thesisAnswer : PositionThesisVersion
  thesisAt : ℤ
  decisionAnswer : PositionThesisVersion
  decisionAt : ℤ

/-- The repository of thesis versions; both agents' versions go to it.
Source `joker/persistence/cognitive_repositories.py:257–269`. -/
structure PositionThesisRepository (P : Type) extends
    TypedArtifactRepository P PositionThesisVersion where
  ofType : artifactType = .positionThesisVersion
  ofId : extractId = PositionThesisVersion.thesisVersionId
  ofSession : sessionIdOf = PositionThesisVersion.sessionId
  ofSnapshot : snapshotIdOf = PositionThesisVersion.snapshotId

section Cycle

variable {P : Type} [DecidableEq P] (repo : PositionThesisRepository P) (sessionId : String)

/-- `load_prior_thesis`: `matching[-1]` of the session's versions.
Source `joker/graph/position_graph.py:99–114`. -/
def loadPriorThesis (positionId : String) (store : CognitiveArtifactStore P) :
    Except ArtifactError (Option PositionThesisVersion) := do
  if positionId = "" then pure none
  else
    let theses ← repo.listBySession store sessionId none
    let matching := theses.filter (fun thesis ↦ thesis.positionId = positionId)
    pure matching.getLast?

/-- `position_thesis_agent`: the thesis, and the table after its append.
Source `joker/graph/position_graph.py:116–154`. -/
def positionThesisAgent (cycle : PositionCycle) (prior : Option PositionThesisVersion)
    (store : CognitiveArtifactStore P) :
    Except ArtifactError (PositionThesisVersion × CognitiveArtifactStore P) := do
  let thesis := PositionThesisAgent.reassess sessionId cycle.snapshotId cycle.positionId
    cycle.contractId cycle.originalStrategyId prior cycle.thesisAnswer
  let store ← repo.append thesis cycle.thesisAt store
  pure (thesis, store)

/-- `position_decision_agent`: the decision, and the table after its append.
Source `joker/graph/position_graph.py:229–282`. -/
def positionDecisionAgent (cycle : PositionCycle) (thesis : PositionThesisVersion)
    (store : CognitiveArtifactStore P) :
    Except ArtifactError (PositionThesisVersion × CognitiveArtifactStore P) := do
  let decision := PositionDecisionAgent.decide sessionId cycle.snapshotId thesis
    cycle.decisionAnswer
  let store ← repo.append decision cycle.decisionAt store
  pure (decision, store)

/-- The thesis and the decision of a cycle. Source `joker/graph/position_graph.py:31–476`. -/
def positionVersions (cycle : PositionCycle) (store : CognitiveArtifactStore P) :
    Except ArtifactError
      (PositionThesisVersion × PositionThesisVersion × CognitiveArtifactStore P) := do
  let prior ← loadPriorThesis repo sessionId cycle.positionId store
  let (thesis, store) ← positionThesisAgent repo sessionId cycle prior store
  let (decision, store) ← positionDecisionAgent repo sessionId cycle thesis store
  pure (thesis, decision, store)

end Cycle

/-! ### Routing -/

/-- The error codes of `route_position_action`. -/
inductive RouteError where
  | noExecutionRuntime
  | noOrderActionGateway
  deriving DecidableEq, Repr

/-- What is there to route to, and `float` of a `Decimal`. -/
structure RouteDeps where
  hasExecutionRuntime : Bool
  hasGateway : Bool
  toFloat : Decimal → PyFloat

/-- What a routed decision asks for. -/
inductive PositionCommand where
  | cancelOrder (clientOrderId : String)
  | submit (request : OrderActionRequest)
  deriving DecidableEq

/-- The state of the graph that routing reads. -/
structure RouteState where
  snapshotId : String
  cycleId : String
  positionCommandId : Option String
  positionProjection : PositionProjection
  orderProjection : Option OrderProjection

/-- The open quantity, at least one. -/
def openQuantity (position : PositionProjection) : ℤ :=
  match position.quantity with
  | some quantity => if quantity = 0 then 1 else max 1 (pyInt quantity)
  | none => 1

/-- `a or b` for optional numbers. -/
def orQuantity (recommended : Option ℤ) (openQty : ℤ) : ℤ :=
  match recommended with
  | some quantity => if quantity = 0 then openQty else quantity
  | none => openQty

/-- `a or None` for texts. -/
def orNone (text : String) : Option String := if text = "" then none else some text

/-- The side `str(orders.get("side") or "buy")` reads as. -/
def sideOf (side : Option String) : Side :=
  if side = some "sell" then .sell else .buy

/-- The request of a decision. -/
def requestOf (deps : RouteDeps) (state : RouteState) (decision : PositionThesisVersion)
    (kind : OrderActionKind) (side : Side) (quantity : ℤ) (replaceOf : Option String) :
    OrderActionRequest :=
  { action := kind
    snapshotId := if state.snapshotId = "" then decision.snapshotId else state.snapshotId
    contractId := decision.contractId
    side := side
    quantity := quantity
    clientOrderId := "pos-" ++ decision.thesisVersionId ++ "-" ++ decision.recommendedAction.value
    limitPrice := decision.recommendedLimitPrice.map deps.toFloat
    orderType := if decision.recommendedLimitPrice.isSome then .limit else .market
    maxQuoteAgeSeconds := some 3600
    proposalId := none
    decisionId := some decision.thesisVersionId
    strategyId := some decision.originalStrategyId
    cycleId := some state.cycleId
    replaceOfClientOrderId := replaceOf
    allowDegradedExit := true
    degradedExitReason := some "position_close_with_degraded_market_data"
    brokerAccountId := "default" }

/-- The kind, side, quantity and replaced order that an order action asks for. -/
def orderAction (state : RouteState) (decision : PositionThesisVersion) :
    Option (OrderActionKind × Side × ℤ × Option String) :=
  let openQty := openQuantity state.positionProjection
  let quantity := orQuantity decision.recommendedQuantity openQty
  match decision.recommendedAction with
  | .exit => some (.exit, .sell, openQty, none)
  | .reduce => some (.reduce, .sell, max 1 (min quantity openQty), none)
  | .add => some (.add, .buy, max 1 quantity, none)
  | .replaceWorkingOrder =>
    some (.replace, sideOf (state.orderProjection.bind (·.side)), quantity,
      state.orderProjection.bind (fun orders ↦ orNone orders.clientOrderId))
  | _ => none

/-- `route_position_action` up to the answer of the gateway.
Source `joker/graph/position_graph.py:284–453`. -/
def routePositionAction (deps : RouteDeps) (state : RouteState)
    (decision : PositionThesisVersion) : Except RouteError (Option PositionCommand) :=
  match decision.recommendedAction with
  | .hold | .updateThesis => .ok none
  | .cancelWorkingOrder =>
    if deps.hasExecutionRuntime then
      .ok ((state.orderProjection.bind (fun orders ↦ orNone orders.clientOrderId)).map
        .cancelOrder)
    else .error .noExecutionRuntime
  | _ =>
    if deps.hasExecutionRuntime then
      -- a command id stays from an interrupted run of the node
      if presentText state.positionCommandId then .ok none
      else if deps.hasGateway then
        .ok ((orderAction state decision).map (fun action ↦
          .submit (requestOf deps state decision action.1 action.2.1 action.2.2.1 action.2.2.2)))
      else .error .noOrderActionGateway
    else .error .noExecutionRuntime

/-! ### Samples -/

/-- A version as a model answers it. -/
def PositionThesisVersion.sample (id : String) (action : PositionAction) :
    PositionThesisVersion :=
  { thesisVersionId := id
    positionId := "x"
    contractId := "x"
    sessionId := "s"
    snapshotId := "snapshot"
    priorVersionId := none
    originalStrategyId := "strategy"
    recommendedAction := action
    recommendedQuantity := none
    recommendedLimitPrice := none
    rest := "" }

/-- A cycle on the position `x` with an action. -/
def PositionCycle.sample (thesisId decisionId : String) (action : PositionAction) (second : ℤ) :
    PositionCycle :=
  { snapshotId := "snapshot"
    positionId := "x"
    hydrated := by decide
    contractId := "x"
    originalStrategyId := "strategy"
    thesisAnswer := .sample thesisId action
    thesisAt := second
    decisionAnswer := .sample decisionId action
    decisionAt := second + 1 }

end Joker.Graph
