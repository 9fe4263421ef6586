import Joker.Graph.PositionGraph
import Joker.Ledger.ProjectionKeys

/-!
# Orders of a position cycle

Library `Graph`. `_extract_orders` hands a cycle the first working order of the whole projection,
reduced to its id, its status and two attributes that it does not have. A cycle that cancels or
replaces acts on an order of its own contract exactly when the first working order is one, and a
replaced order has the requested side exactly when it is a buy.
-/

namespace Joker.Graph

open Joker.Base Joker.Ledger Joker.Runtime

/-- A projection with the ledger it comes from. -/
structure LedgerProjection [DecimalContext] where
  events : List LedgerEvent
  state : ProjectionState
  projected : project events = .ok state

/-- A working order of a contract. -/
def WorkingOn (state : ProjectionState) (contractId : String) (order : OrderLifecycle) : Prop :=
  order ∈ state.orders.values ∧ isWorking order = true ∧ order.contractId = contractId

/-- A command on a contract's own order: a cancellation cancels one, and a replacement names one
with that order's side. -/
def PositionCommand.OnOwnOrder (state : ProjectionState) (contractId : String) :
    PositionCommand → Prop
  | .cancelOrder clientOrderId =>
    ∃ order, WorkingOn state contractId order ∧ order.clientOrderId = clientOrderId
  | .submit request => request.action = .replace →
    ∃ order, WorkingOn state contractId order ∧
      request.replaceOfClientOrderId = some order.clientOrderId ∧ request.side = order.side

/-! ### Cycles -/

/-- What a cycle routes its decision with, beside the projection. -/
structure Routing where
  deps : RouteDeps
  sessionId : String
  cycleId : String
  positionCommandId : Option String
  prior : Option PositionThesisVersion
  cycle : PositionCycle

namespace Routing

/-- The decision of the cycle. -/
def decision (routing : Routing) : PositionThesisVersion :=
  PositionDecisionAgent.decide routing.sessionId routing.cycle.snapshotId
    (PositionThesisAgent.reassess routing.sessionId routing.cycle.snapshotId
      routing.cycle.positionId routing.cycle.contractId routing.cycle.originalStrategyId
      routing.prior routing.cycle.thesisAnswer)
    routing.cycle.decisionAnswer

/-- The cycle's state when it is routed: position and order are those of
`hydrate_position_truth`. -/
def state (routing : Routing) (projection : ProjectionState) : RouteState :=
  { snapshotId := routing.cycle.snapshotId
    cycleId := routing.cycleId
    positionCommandId := routing.positionCommandId
    positionProjection := extractPosition (some projection) routing.cycle.positionId
    orderProjection := extractOrders (some projection) }

/-- What the cycle asks for. -/
def result (routing : Routing) (projection : ProjectionState) :
    Except RouteError (Option PositionCommand) :=
  routePositionAction routing.deps (routing.state projection) routing.decision

/-- A cycle acts on its own order: whenever its contract has a working order. -/
def ActsOnOwnOrder (routing : Routing) (projection : ProjectionState) : Prop :=
  (∃ order, WorkingOn projection routing.cycle.contractId order) →
    ∀ command, routing.result projection = .ok (some command) →
      command.OnOwnOrder projection routing.cycle.contractId

/-- The action of the cycle. -/
def action (routing : Routing) : PositionAction := routing.cycle.decisionAnswer.recommendedAction

/-- Whether a cancellation or a replacement is carried out. -/
def CarriesOut (routing : Routing) : Prop :=
  match routing.action with
  | .cancelWorkingOrder => routing.deps.hasExecutionRuntime = true
  | .replaceWorkingOrder => routing.deps.hasExecutionRuntime = true ∧
      presentText routing.positionCommandId = false ∧ routing.deps.hasGateway = true
  | _ => False

/-- The first working order of the projection is the cycle's own, and a buy if it is to be
replaced. -/
def OwnOrderFirst (routing : Routing) (projection : ProjectionState) : Prop :=
  ∀ first ∈ projection.orders.values.find? isWorking,
    first.contractId = routing.cycle.contractId ∧
      (routing.action = .replaceWorkingOrder → first.side = .buy)

/-- A cycle that cancels does so on the first working order. -/
theorem result_cancel {routing : Routing} {projection : ProjectionState} {first : OrderLifecycle}
    (haction : routing.action = .cancelWorkingOrder)
    (hdeps : routing.deps.hasExecutionRuntime = true)
    (hfirst : projection.orders.values.find? isWorking = some first)
    (hnamed : first.clientOrderId ≠ "") :
    routing.result projection = .ok (some (.cancelOrder first.clientOrderId)) := by
  have hdecision : routing.decision.recommendedAction = .cancelWorkingOrder := haction
  unfold result routePositionAction
  rw [hdecision]
  simp [hdeps, state, extractOrders, hfirst, orNone, hnamed]

/-- A cycle that replaces names the first working order, as a buy. -/
theorem result_replace {routing : Routing} {projection : ProjectionState} {first : OrderLifecycle}
    (haction : routing.action = .replaceWorkingOrder) (hcarries : routing.CarriesOut)
    (hfirst : projection.orders.values.find? isWorking = some first)
    (hnamed : first.clientOrderId ≠ "") :
    ∃ request, routing.result projection = .ok (some (.submit request)) ∧
      request.action = .replace ∧
      request.replaceOfClientOrderId = some first.clientOrderId ∧ request.side = .buy := by
  have hdecision : routing.decision.recommendedAction = .replaceWorkingOrder := haction
  unfold CarriesOut at hcarries
  rw [haction] at hcarries
  unfold result routePositionAction
  rw [hdecision]
  simp [hcarries, orderAction, hdecision, state, extractOrders, hfirst, orNone, hnamed, sideOf,
    requestOf]

/-- Only a carried out cancellation or replacement touches a working order. -/
theorem onOwnOrder_of_not_carriesOut {routing : Routing} {projection : ProjectionState}
    (h : ¬ routing.CarriesOut) {command : PositionCommand}
    (hresult : routing.result projection = .ok (some command)) (contractId : String) :
    command.OnOwnOrder projection contractId := by
  have hdecision : routing.decision.recommendedAction = routing.action := rfl
  unfold CarriesOut at h
  unfold result routePositionAction at hresult
  rw [hdecision] at hresult
  cases haction : routing.action <;> rw [haction] at h hresult hdecision <;>
    simp only [orderAction, hdecision] at hresult
  case hold => cases hresult
  case updateThesis => cases hresult
  case cancelWorkingOrder => simp [h] at hresult
  case replaceWorkingOrder =>
    split at hresult
    · next hruntime =>
      split at hresult
      · cases hresult
      · next hcommand =>
        split at hresult
        · next hgateway => exact absurd ⟨hruntime, Bool.not_eq_true _ ▸ hcommand, hgateway⟩ h
        · cases hresult
    · cases hresult
  all_goals
    split at hresult
    · split at hresult
      · cases hresult
      · split at hresult
        · cases hresult
          exact fun hreplace ↦ nomatch hreplace
        · cases hresult
    · cases hresult

/-- A cycle acts on its own order exactly when, where its contract has a working order and the
action is carried out, the first working order of the projection is its own, and a buy if it is to
be replaced. -/
theorem actsOnOwnOrder_iff [DecimalContext] (routing : Routing) (ledger : LedgerProjection) :
    routing.ActsOnOwnOrder ledger.state ↔
      ((∃ order, WorkingOn ledger.state routing.cycle.contractId order) →
        routing.CarriesOut → routing.OwnOrderFirst ledger.state) := by
  constructor
  · intro hacts hworking hcarries first hfirst
    have hmem : first ∈ ledger.state.orders.values := List.mem_of_find?_eq_some hfirst
    have hnamed := (clientOrderIds_project ledger.projected hmem hmem).1
    have hsame : ∀ order, WorkingOn ledger.state routing.cycle.contractId order →
        order.clientOrderId = first.clientOrderId → order = first :=
      fun order horder ↦ (clientOrderIds_project ledger.projected horder.1 hmem).2
    cases haction : routing.action with
    | cancelWorkingOrder =>
      have hdeps := hcarries
      unfold CarriesOut at hdeps
      rw [haction] at hdeps
      obtain ⟨order, horder, hid⟩ :=
        hacts hworking _ (result_cancel haction hdeps hfirst hnamed)
      refine ⟨?_, fun h ↦ nomatch h⟩
      rw [← hsame order horder hid]
      exact horder.2.2
    | replaceWorkingOrder =>
      obtain ⟨request, hresult, hreplace, hof, hside⟩ :=
        result_replace haction hcarries hfirst hnamed
      obtain ⟨order, horder, hid, hown⟩ := hacts hworking _ hresult hreplace
      have heq := hsame order horder (Option.some.inj (hid.symm.trans hof))
      subst heq
      exact ⟨horder.2.2, fun _ ↦ hown.symm.trans hside⟩
    | _ =>
      unfold CarriesOut at hcarries
      rw [haction] at hcarries
      exact hcarries.elim
  · intro hfirst hworking command hresult
    by_cases hcarries : routing.CarriesOut
    · obtain ⟨order, horder⟩ := hworking
      obtain ⟨first, hfound⟩ : ∃ first, ledger.state.orders.values.find? isWorking = some first :=
        Option.isSome_iff_exists.mp (List.find?_isSome.mpr ⟨order, horder.1, horder.2.1⟩)
      obtain ⟨hown, hside⟩ := hfirst ⟨order, horder⟩ hcarries first hfound
      have hmem : first ∈ ledger.state.orders.values := List.mem_of_find?_eq_some hfound
      have hworks : WorkingOn ledger.state routing.cycle.contractId first :=
        ⟨hmem, List.find?_some hfound, hown⟩
      have hnamed := (clientOrderIds_project ledger.projected hmem hmem).1
      cases haction : routing.action with
      | cancelWorkingOrder =>
        have hdeps := hcarries
        unfold CarriesOut at hdeps
        rw [haction] at hdeps
        rw [result_cancel haction hdeps hfound hnamed] at hresult
        cases hresult
        exact ⟨first, hworks, rfl⟩
      | replaceWorkingOrder =>
        obtain ⟨request, hrequest, -, hof, hbuy⟩ :=
          result_replace haction hcarries hfound hnamed
        rw [hrequest] at hresult
        cases hresult
        exact fun _ ↦ ⟨first, hworks, hof, hbuy.trans (hside haction).symm⟩
      | _ =>
        unfold CarriesOut at hcarries
        rw [haction] at hcarries
        exact hcarries.elim
    · exact onOwnOrder_of_not_carriesOut hcarries hresult _

end Routing

open scoped DefaultContext

/-- A submission of one contract. -/
private def submitted (clientOrderId contractId : String) (side : Side) : EventFields :=
  { EventFields.sample .orderSubmissionRequested clientOrderId side 1 none with
    clientOrderId := clientOrderId
    contractId := contractId }

private def submissions (orders : List (String × String × Side)) : List LedgerEvent :=
  orders.filterMap (fun order ↦ makeLedgerEvent (submitted order.1 order.2.1 order.2.2))

/-- The projection of orders that were submitted one after the other. -/
private def projected (orders : List (String × String × Side)) : Option ProjectionState :=
  (project (submissions orders)).toOption

/-- An order of another contract before the cycle's own. -/
def othersFirst : LedgerProjection where
  events := submissions [("order-y", "y", .buy), ("order-x", "x", .buy)]
  state := (projected [("order-y", "y", .buy), ("order-x", "x", .buy)]).get (by decide +kernel)
  projected := by decide +kernel

/-- One order, which sells. -/
def oneSale : LedgerProjection where
  events := submissions [("order-x", "x", .sell)]
  state := (projected [("order-x", "x", .sell)]).get (by decide +kernel)
  projected := by decide +kernel

/-- A cycle on the contract `x` with an action. -/
def Routing.sample (action : PositionAction) : Routing :=
  { deps := ⟨true, true, PyFloat.mk⟩
    sessionId := "s"
    cycleId := "cycle"
    positionCommandId := none
    prior := none
    cycle := .sample "t" "d" action 0 }

/-- A cycle cancels an order of another contract, and a cycle replaces a sale by a purchase. -/
theorem not_actsOnOwnOrder_othersFirst :
    ¬ (Routing.sample .cancelWorkingOrder).ActsOnOwnOrder othersFirst.state ∧
      ¬ (Routing.sample .replaceWorkingOrder).ActsOnOwnOrder oneSale.state := by
  constructor
  · intro hacts
    have hworking : ∃ order, order ∈ othersFirst.state.orders.values ∧ isWorking order = true ∧
        order.contractId = "x" := by decide +kernel
    have hothers : ∀ order ∈ othersFirst.state.orders.values, order.contractId = "x" →
        order.clientOrderId ≠ "order-y" := by decide +kernel
    obtain ⟨order, horder, hid⟩ := hacts hworking (.cancelOrder "order-y") (by decide +kernel)
    exact hothers order horder.1 horder.2.2 hid
  · intro hacts
    have hworking : ∃ order, order ∈ oneSale.state.orders.values ∧ isWorking order = true ∧
        order.contractId = "x" := by decide +kernel
    have hsells : ∀ order ∈ oneSale.state.orders.values, order.side = .sell := by
      decide +kernel
    obtain ⟨first, hfirst⟩ : ∃ first, oneSale.state.orders.values.find? isWorking = some first :=
      Option.isSome_iff_exists.mp (by decide +kernel)
    have hnamed := (clientOrderIds_project oneSale.projected (List.mem_of_find?_eq_some hfirst)
      (List.mem_of_find?_eq_some hfirst)).1
    obtain ⟨request, hrequest, hreplace, -, hside⟩ := Routing.result_replace
      (show (Routing.sample .replaceWorkingOrder).action = .replaceWorkingOrder from rfl)
      ⟨rfl, rfl, rfl⟩ hfirst hnamed
    obtain ⟨order, horder, -, hown⟩ := hacts hworking _ hrequest hreplace
    rw [hside, hsells order horder.1] at hown
    cases hown

end Joker.Graph
