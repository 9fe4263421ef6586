import Joker.Runtime.NoOversell
import Joker.Runtime.ReconciliationRun

/-!
# Order updates

Library `Runtime`. What the runtime learns of an order after its submission, after
`joker/runtime/execution_runtime.py`: `on_broker_update` writes the end of an order into the
ledger, `poll_order_status` asks the broker for the order first, and the two cancellations take
the order back from the broker.
-/

namespace Joker.Runtime

open Joker.Base Joker.Ledger Joker.Broker

variable {β ω : Type}

/-- `self._client_to_broker.setdefault(client_id, order_id)`. -/
def setDefaultMapping (rt : ExecutionRuntime) (clientId orderId : String) : SyncM β Unit :=
  setMap rt (fun mapping ↦
    if (mapping.get? clientId).isSome then mapping else mapping.set clientId orderId)

/-- The inputs of one `on_broker_update`: its own stamp, that of a fill it records, and what the
broker answers about the price. -/
structure UpdateInputs (ω : Type) where
  update : Stamp
  fill : Stamp
  price : ω

/-- `client_order_id or order.intent_id`. -/
def clientIdFor (order : BrokerOrder) (clientOrderId : Option String) : String :=
  orText (clientOrderId.getD "") order.intentId

/-- Append the event of an order that ended without a fill, and publish that it was inserted. -/
def recordEnd (rt : ExecutionRuntime) (clientId : String) (published : EventType) (stamp : Stamp) :
    Option EventFields → RuntimeM β ω (List LedgerEvent)
  | none => pure []
  | some fields => do
    let (e, written) ← record stamp fields
    if written then do
      publishOrderEvent rt published clientId stamp.now (fun _ ↦ [])
      pure [e]
    else pure []

/-- `on_broker_update`. Source `joker/runtime/execution_runtime.py:348–411`. -/
def onBrokerUpdate [DecimalContext] [BrokerClient β ω] (rt : ExecutionRuntime) (order : BrokerOrder)
    (clientOrderId : Option String) (inputs : UpdateInputs ω) :
    RuntimeM β ω (List LedgerEvent) := do
  let clientId := clientIdFor order clientOrderId
  let price ← sync .read (do
    setDefaultMapping rt clientId order.orderId
    if order.status = .filled then broker (verifiedFillPrice order inputs.price) else pure none)
  match order.status with
  | .cancelled =>
    recordEnd rt clientId .orderCancelled inputs.update
      (updateFields rt order clientId none inputs.update)
  | .rejected =>
    recordEnd rt clientId .orderRejected inputs.update
      (updateFields rt order clientId none inputs.update)
  | .filled =>
    match price with
    | some price =>
      recordVerifiedFill rt order clientId price (some (Decimal.ofInt order.quantity)) true
        inputs.fill
    | none => do
      publishOrderEvent rt .orderFilled clientId inputs.update.now (fun _ ↦
        [("broker_order_id", .text order.orderId), ("fill_price_available", .flag false)])
      pure []
  | .pending | .open => pure []

/-- The inputs of one `poll_order_status`. -/
structure PollInputs (ω : Type) where
  lookup : ω
  update : UpdateInputs ω

/-- The broker id of a client order, from the mapping or else from the ledger. -/
def mappedOrRestored (rt : ExecutionRuntime) (clientOrderId : String) :
    RuntimeM β ω (Option String) := do
  let mapped ← sync .lookup
    (Coro.atomic () (fun w ↦ (w, .ok ((w.clientToBroker rt.index).get? clientOrderId))))
  match mapped with
  | some id => pure (some id)
  | none => do
    let mapping ← restoreOrderMappings rt
    pure (mapping.get? clientOrderId)

/-- `poll_order_status`. Source `joker/runtime/execution_runtime.py:333–346`. -/
def pollOrderStatus [DecimalContext] [BrokerClient β ω] (rt : ExecutionRuntime)
    (clientOrderId : String) (inputs : PollInputs ω) : RuntimeM β ω (Option BrokerOrder) := do
  let mapped ← mappedOrRestored rt clientOrderId
  match mapped with
  | none => pure none
  | some id => do
    let found ← sync .lookup (broker (BrokerClient.getOrder id inputs.lookup))
    match found with
    | none => pure none
    | some order => do
      let _ ← onBrokerUpdate rt order (some clientOrderId) inputs.update
      pure (some order)

/-- The inputs of one cancellation. -/
structure CancelInputs (ω : Type) where
  cancel : ω
  update : UpdateInputs ω
  reconcile : ReconcileInputs ω

section Cancel

variable [BrokerClient β ω] [PositionLister β]

/-- What both cancellations do once they know the broker's id. -/
def cancelAtBroker [DecimalContext] (rt : ExecutionRuntime) (brokerOrderId : String)
    (note : BrokerOrder → SyncM β Unit) (clientIdOf : BrokerOrder → String)
    (inputs : CancelInputs ω) : RuntimeM β ω BrokerOrder := do
  let order ← sync .read (do
    let order ← broker (BrokerClient.cancelOrder brokerOrderId inputs.cancel)
    note order
    pure order)
  let _ ← onBrokerUpdate rt order (some (clientIdOf order)) inputs.update
  let _ ← runReconciliation rt inputs.reconcile
  pure order

/-- `cancel_order`. Source `joker/runtime/execution_runtime.py:301–313`. -/
def ExecutionRuntime.cancelOrder [DecimalContext] (rt : ExecutionRuntime) (clientOrderId : String)
    (inputs : CancelInputs ω) : RuntimeM β ω BrokerOrder := do
  let mapping ← restoreOrderMappings rt
  match mapping.get? clientOrderId with
  | none => Coro.raise (.unmapped clientOrderId)
  | some id => cancelAtBroker rt id (fun _ ↦ pure ()) (fun _ ↦ clientOrderId) inputs

/-- `cancel_order_by_broker_id`: without a client order that maps to the id, the order's intent
is taken for one. Source `joker/runtime/execution_runtime.py:315–331`. -/
def ExecutionRuntime.cancelOrderByBrokerId [DecimalContext] (rt : ExecutionRuntime)
    (brokerOrderId : String) (inputs : CancelInputs ω) : RuntimeM β ω BrokerOrder := do
  let mapping ← restoreOrderMappings rt
  match mapping.entries.find? (fun entry ↦ entry.2 = brokerOrderId) with
  | some entry => rt.cancelOrder entry.1 inputs
  | none =>
    cancelAtBroker rt brokerOrderId
      (fun order ↦ setMap rt (fun mapping ↦ mapping.set order.intentId brokerOrderId))
      (fun order ↦ order.intentId) inputs

end Cancel

end Joker.Runtime
