import Joker.Broker.Positions
import Joker.Ledger.Reconciliation
import Joker.Runtime.ExecutionRuntime

/-!
# Reconciliation runs

Library `Runtime`. `run_reconciliation` of `joker/runtime/execution_runtime.py`: the projection of
the session against what the broker lists, in one stretch after the projection is read. The event
that announces a mismatch is left out.
-/

namespace Joker.Runtime

open Joker.Base Joker.Ledger Joker.Broker

variable {β ω : Type}

/-- What a reconciliation gets from outside: the broker's answers, the clock and a report id. -/
structure ReconcileInputs (ω : Type) where
  openOrders : ω
  lookup : String → ω
  positions : ω
  now : Datetime
  reportId : Uuid

/-- An order as the reconciler sees it. -/
def orderView (clientOrderId : String) (order : BrokerOrder) : BrokerOpenOrderView :=
  { brokerOrderId := order.orderId
    clientOrderId := some clientOrderId
    contractId := contractIdFor order.contract
    side := order.side
    quantity := Decimal.ofInt order.quantity
    filledQty := if order.status = .filled then Decimal.ofInt order.quantity else Decimal.ofInt 0
    status := order.status.value }

/-- An open position row as the reconciler sees it.
Source `joker/runtime/execution_runtime.py:68–69`. -/
def positionView (pos : Position) : BrokerPositionView :=
  { contractId := contractIdFor pos.contract
    quantity := Decimal.ofInt (if pos.isOpen then pos.quantity else 0)
    avgPrice := some pos.avgEntryPrice.numeral }

/-- The views of the open rows. -/
def positionViews (positions : List Position) : List BrokerPositionView :=
  (positions.filter (fun pos ↦ pos.isOpen)).map positionView

/-- The loop over `_client_to_broker`: orders that rest at the broker and are not listed yet. -/
def addMappedOrders [BrokerClient β ω] (lookup : String → ω) :
    List (String × String) → List BrokerOpenOrderView → BrokerM β (List BrokerOpenOrderView)
  | [], views => pure views
  | (clientId, brokerId) :: rest, views => do
    let order ← BrokerClient.getOrder brokerId (lookup brokerId)
    addMappedOrders lookup rest (match order with
      | none => views
      | some order =>
        if views.any (fun view ↦ view.brokerOrderId = brokerId) then views
        else if order.status = .open then views ++ [orderView clientId order]
        else views)

/-- `run_reconciliation`. Source `joker/runtime/execution_runtime.py:519–603`. -/
def runReconciliation [DecimalContext] [BrokerClient β ω] [PositionLister β] (rt : ExecutionRuntime)
    (inputs : ReconcileInputs ω) :
    RuntimeM β ω (Except ReconciliationError ReconciliationReport) := do
  let projection ← projectSession rt
  sync .read (do
    let opened ← broker (BrokerClient.listOpenOrders inputs.openOrders)
    let mapping ← Coro.atomic () (fun w ↦ (w, .ok (w.clientToBroker rt.index)))
    let orders ← broker (addMappedOrders inputs.lookup mapping.entries
      (opened.map (fun order ↦ orderView order.intentId order)))
    let positions ← broker (PositionLister.listPositions inputs.positions)
    pure (reconcile rt.sessionId projection orders (positionViews positions) (some inputs.now)
      inputs.now inputs.reportId))

/-! ### A paper broker without resting orders -/

section Paper

variable {rt : ExecutionRuntime} {w : World PaperBook}

private theorem exec_addMappedOrders {b : PaperBook} (lookup : String → PaperDraws)
    (h : ∀ order ∈ b.base.orders.values, order.status = .filled)
    (entries : List (String × String)) :
    (addMappedOrders lookup entries [] : BrokerM PaperBook _).exec b = (b, .ok []) := by
  induction entries with
  | nil => rfl
  | cons entry rest ih =>
    have hfilled : ∀ order ∈ b.base.orders.get? entry.2, order.status ≠ .open := by
      intro order horder hopen
      have hs := h order ((Dict.mem_values_iff _ _).mpr ⟨entry.2, horder⟩)
      rw [hopen] at hs
      cases hs
    unfold addMappedOrders
    rw [Coro.exec_bind]
    change (addMappedOrders lookup rest _ : BrokerM PaperBook _).exec b = _
    cases hget : b.base.orders.get? entry.2 with
    | none => exact ih
    | some order =>
      have hno := hfilled order hget
      simp only [List.any_nil, Bool.false_eq_true, if_false, hno]
      exact ih

/-- Without resting orders a reconciliation compares positions only, and changes nothing. -/
theorem exec_runReconciliation [DecimalContext] {state : ProjectionState}
    (hstate : project (w.conn.query (fun e ↦ e.sessionId = rt.sessionId)) = .ok state)
    (h : ∀ order ∈ w.broker.base.orders.values, order.status = .filled)
    (inputs : ReconcileInputs PaperDraws) :
    (runReconciliation rt inputs : RuntimeM PaperBook PaperDraws _).exec w =
      (w, .ok (reconcile rt.sessionId state [] (positionViews w.broker.positions.values)
        (some inputs.now) inputs.now inputs.reportId)) := by
  have hopen : w.broker.base.orders.values.filter (fun order ↦ order.status = .open) = [] := by
    apply List.filter_eq_nil_iff.mpr
    intro order horder
    rw [h order horder]
    decide
  have hlist : ((BrokerClient.listOpenOrders inputs.openOrders :
      BrokerM PaperBook (List BrokerOrder)).exec w.broker) = (w.broker, .ok []) := by
    change (w.broker, Except.ok (w.broker.base.orders.values.filter _)) = _
    rw [hopen]
  unfold runReconciliation
  rw [Coro.exec_bind, exec_projectSession, hstate]
  simp only [Except.mapError]
  unfold sync
  rw [Coro.exec_handle, Coro.exec_whole, Coro.exec_bind, exec_broker, hlist]
  simp only [Coro.exec_bind, Coro.exec_atomic, exec_broker, List.map_nil,
    exec_addMappedOrders inputs.lookup h]
  rfl

end Paper

end Joker.Runtime
