import Joker.Broker.Interface
import Joker.Ledger.Projector
import Joker.Ledger.Store

/-!
# Execution runtime

Library `Runtime`. `joker/runtime/execution_runtime.py`: a command goes to the broker at most
through one stretch of code without await points, and what happened is appended to the ledger.
Every function is a coroutine whose operations are the database operations of the store, the
publishing of domain events, and the stretches of code between them. A stretch ends where its
function returns, so tasks can interleave at a few points where the code does not await; it
never spans an await of the code. Clock readings, ids, driver faults and broker answers are
inputs of a call. Published events are kept, their delivery is not modelled.
-/

namespace Joker.Runtime

open Joker.Base Joker.Ledger Joker.Broker

/-- The types of the domain events the runtime publishes. -/
inductive EventType where
  | orderSubmitted
  | orderAccepted
  | orderPartiallyFilled
  | orderFilled
  | orderCancelled
  | orderRejected
  | positionOpened
  | positionChanged
  | positionClosed
  deriving DecidableEq, Repr

/-- A value of an event's payload; amounts are printed by the source. -/
inductive PayloadValue where
  | text (s : String)
  | amount (q : ℚ)
  | flag (b : Bool)
  deriving DecidableEq

/-- What `_publish_order_event` publishes. -/
structure DomainEvent where
  eventType : EventType
  sessionId : String
  exchangeTimestamp : Datetime
  clientOrderId : String
  extra : List (String × PayloadValue)
  deriving DecidableEq

/-- `ExecutionCommand`. Source `joker/runtime/execution_runtime.py:36–41`. -/
structure ExecutionCommand where
  clientOrderId : String
  intent : OrderIntent
  brokerAccountId : String
  deriving DecidableEq

/-- An `ExecutionRuntime` object: its number among those built, and its configuration.
Source `joker/runtime/execution_runtime.py:87–654`. -/
structure ExecutionRuntime where
  index : ℕ
  sessionId : String
  brokerAccountId : String
  deriving DecidableEq

/-- What the tasks share: the ledger's connection, the broker, the published events, and each
runtime's `_client_to_broker`. -/
structure World (β : Type) where
  conn : Conn
  broker : β
  bus : List DomainEvent
  clientToBroker : ℕ → Dict String String

/-- What one ledger event takes from outside: its id, the clock readings, and what the driver
does to its `append`. Source `joker/runtime/execution_runtime.py:122–125`. -/
structure Stamp where
  ledgerEventId : Uuid
  now : Datetime
  createdAt : Datetime
  faults : AppendFaults
  deriving DecidableEq

/-- The operations of the runtime's coroutines. The one that may submit carries the intent and
the broker's answers. -/
inductive RuntimeOp (ω : Type) where
  | store (op : StoreOp)
  | publish
  | maps
  | lookup
  | submit (intent : OrderIntent) (answers : ω)
  | read

/-- The operation may submit an order. -/
def RuntimeOp.submits {ω : Type} : RuntimeOp ω → Bool
  | .submit _ _ => true
  | _ => false

/-- Exceptions: of the ledger store, of the broker, of a validator, of the projector, and of a
cancellation without a mapping, with what its message prints. -/
inductive ExecutionError where
  | ledger (e : LedgerError)
  | broker (e : PyException)
  | validation
  | projector (e : ProjectorError)
  | unmapped (clientOrderId : String)
  deriving DecidableEq

/-- A coroutine of the runtime. -/
abbrev RuntimeM (β ω α : Type) := Coro (RuntimeOp ω) (World β) ExecutionError α

/-- Code between two await points. -/
abbrev SyncM (β α : Type) := Coro Unit (World β) PyException α

variable {β ω α : Type}

/-- A coroutine of the ledger store. -/
def ledger (c : StoreM LedgerError α) : RuntimeM β ω α :=
  (c.zoom RuntimeOp.store World.conn (fun conn w ↦ { w with conn := conn })).handle
    (fun e ↦ Coro.raise (.ledger e))

/-- A coroutine of the store runs on the connection. -/
theorem exec_ledger (c : StoreM LedgerError α) (w : World β) :
    (ledger c : RuntimeM β ω α).exec w =
      ({ w with conn := (c.exec w.conn).1 }, (c.exec w.conn).2.mapError .ledger) := by
  unfold ledger
  rw [Coro.exec_handle, Coro.exec_zoom (by intros; rfl) (by intros; rfl) (by intros; rfl)]
  cases (c.exec w.conn).2 <;> rfl

/-- A method of the broker. -/
def broker (c : BrokerM β α) : SyncM β α :=
  c.zoom id World.broker (fun b w ↦ { w with broker := b })

/-- A stretch of code as one operation. -/
def sync (label : RuntimeOp ω) (c : SyncM β α) : RuntimeM β ω α :=
  (Coro.whole label c).handle (fun e ↦ Coro.raise (.broker e))

/-- A method of the broker runs on the broker. -/
@[simp] theorem exec_broker (c : BrokerM β α) (w : World β) :
    (broker c).exec w = ({ w with broker := (c.exec w.broker).1 }, (c.exec w.broker).2) := by
  unfold broker
  apply Coro.exec_zoom <;> intros <;> rfl

/-- An assignment to the runtime's maps. -/
def setMap (rt : ExecutionRuntime) (f : Dict String String → Dict String String) : SyncM β Unit :=
  Coro.atomic () (fun w ↦
    ({ w with clientToBroker :=
        Function.update w.clientToBroker rt.index (f (w.clientToBroker rt.index)) }, .ok ()))

/-- `a or b` on texts. -/
def orText (a b : String) : String := if a = "" then b else a

/-- `_publish_order_event`; the payload is read when the event is built.
Source `joker/runtime/execution_runtime.py:634–654`. -/
def publishOrderEvent (rt : ExecutionRuntime) (eventType : EventType) (clientOrderId : String)
    (exchangeTimestamp : Datetime) (extra : World β → List (String × PayloadValue)) :
    RuntimeM β ω Unit :=
  Coro.atomic .publish (fun w ↦
    ({ w with bus := w.bus ++
        [⟨eventType, rt.sessionId, exchangeTimestamp, clientOrderId, extra w⟩] }, .ok ()))

/-- The fields the runtime gives `make_ledger_event`. -/
def eventFields (rt : ExecutionRuntime) (stamp : Stamp) (eventType : LedgerEventType)
    (brokerAccountId clientOrderId contractId : String) (side : Side) (quantity : ℚ)
    (idempotencyKey : String) (brokerOrderId : Option String) (price : Option ℚ)
    (metadata : Metadata) : EventFields :=
  { ledgerEventId := stamp.ledgerEventId
    brokerAccountId := brokerAccountId
    clientOrderId := clientOrderId
    brokerOrderId := brokerOrderId
    contractId := contractId
    side := side
    quantity := quantity
    price := price
    exchangeTimestamp := stamp.now
    sourceEventId := none
    idempotencyKey := idempotencyKey
    eventType := eventType
    fees := none
    metadata := metadata
    sessionId := rt.sessionId
    positionId := none
    createdAt := stamp.createdAt }

/-- Build an event and append it: the event, and whether it was inserted. -/
def record (stamp : Stamp) (fields : EventFields) : RuntimeM β ω (LedgerEvent × Bool) :=
  match makeLedgerEvent fields with
  | none => Coro.raise .validation
  | some e => do
    let written ← ledger (append e stamp.faults)
    pure (e, written)

/-- `record` builds the event and appends it. -/
theorem exec_record (stamp : Stamp) (fields : EventFields) (w : World β) :
    (record stamp fields : RuntimeM β ω _).exec w =
      match makeLedgerEvent fields with
      | none => (w, .error .validation)
      | some e =>
        ({ w with conn := ((append e stamp.faults).exec w.conn).1 },
          (((append e stamp.faults).exec w.conn).2.mapError .ledger).map
            (fun written ↦ (e, written))) := by
  unfold record
  cases makeLedgerEvent fields with
  | none => rfl
  | some e =>
    simp only
    rw [Coro.exec_bind, exec_ledger]
    cases ((append e stamp.faults).exec w.conn).2 <;> rfl

/-! ### Mappings and lookups -/

/-- The client to broker ids of a session's events; later events overwrite. -/
def mappingOf (events : List LedgerEvent) : Dict String String :=
  events.foldl (fun mapping e ↦
    match e.brokerOrderId with
    | some id => if id = "" then mapping else mapping.set e.clientOrderId id
    | none => mapping) Dict.empty

/-- `restore_order_mappings`. Source `joker/runtime/execution_runtime.py:127–135`. -/
def restoreOrderMappings (rt : ExecutionRuntime) : RuntimeM β ω (Dict String String) := do
  let events ← ledger (getBySession rt.sessionId)
  sync .maps (setMap rt (fun _ ↦ mappingOf events))
  pure (mappingOf events)

/-- The last broker id that the events give a client order. -/
def brokerIdOf (clientOrderId : String) (events : List LedgerEvent) : Option String :=
  events.foldl (fun found e ↦
    if e.clientOrderId = clientOrderId && presentText e.brokerOrderId then e.brokerOrderId
    else found) none

/-- The order at the broker under an id that may be missing or empty. -/
def getOrderIfMapped [BrokerClient β ω] (id : Option String) (answers : ω) :
    SyncM β (Option BrokerOrder) :=
  match id with
  | some id => if id = "" then pure none else broker (BrokerClient.getOrder id answers)
  | none => pure none

/-- Note a broker id that the events give a client order. -/
def noteRecovered (rt : ExecutionRuntime) (clientOrderId : String) : Option String → SyncM β Unit
  | some id => setMap rt (fun mapping ↦ mapping.set clientOrderId id)
  | none => pure ()

/-- `_resolve_existing_submission`; the broker may be asked twice.
Source `joker/runtime/execution_runtime.py:260–282`. -/
def resolveExistingSubmission [BrokerClient β ω] (rt : ExecutionRuntime) (clientOrderId : String)
    (first second : ω) : RuntimeM β ω (Option BrokerOrder) := do
  let mapped ← sync .lookup (do
    let id ← Coro.atomic () (fun w ↦ (w, .ok ((w.clientToBroker rt.index).get? clientOrderId)))
    getOrderIfMapped id first)
  match mapped with
  | some order => pure (some order)
  | none => do
    let events ← ledger (getBySession rt.sessionId)
    let recovered := brokerIdOf clientOrderId events
    sync .lookup (do
      noteRecovered rt clientOrderId recovered
      getOrderIfMapped recovered second)

/-- The broker's own finder, where it has one. -/
def askFinder [BrokerClient β ω] (intentId : String) (answers : ω) :
    BrokerM β (Option BrokerOrder) :=
  match @BrokerClient.findOrderByIntentId β ω _ with
  | some find => find intentId answers
  | none => pure none

/-- The first order of the broker's order map with the intent. -/
def searchOrders [BrokerClient β ω] (intentId : String) (b : β) : Option BrokerOrder := do
  let map ← BrokerClient.orders b
  map.values.find? (fun order ↦ order.intentId = intentId)

/-- `_find_broker_order_by_intent`: among the open orders, by the broker's own finder, and in
its order map. Source `joker/runtime/execution_runtime.py:284–300`. -/
def findBrokerOrderByIntent [BrokerClient β ω] (intentId : String) (answers : ω) :
    BrokerM β (Option BrokerOrder) := do
  let opened ← BrokerClient.listOpenOrders answers
  match opened.find? (fun order ↦ order.intentId = intentId) with
  | some order => pure (some order)
  | none => do
    let found ← askFinder intentId answers
    match found with
    | some order => pure (some order)
    | none => stretch (fun b ↦ (b, .ok (searchOrders intentId b)))

/-- The search finds nothing where none of its three places has the intent. -/
theorem exec_findBrokerOrderByIntent_of_none [BrokerClient β ω] {intentId : String} {answers : ω}
    {b b₁ b₂ : β} {opened : List BrokerOrder}
    (hopen : (BrokerClient.listOpenOrders answers : BrokerM β (List BrokerOrder)).exec b =
      (b₁, .ok opened))
    (hnone : opened.find? (fun order ↦ order.intentId = intentId) = none)
    (hfinder : (askFinder intentId answers).exec b₁ = (b₂, .ok none))
    (hmap : searchOrders intentId b₂ = none) :
    (findBrokerOrderByIntent intentId answers).exec b = (b₂, .ok none) := by
  unfold findBrokerOrderByIntent
  rw [Coro.exec_bind, hopen]
  simp only
  rw [hnone]
  simp only
  rw [Coro.exec_bind, hfinder]
  change (b₂, Except.ok (searchOrders intentId b₂)) = _
  rw [hmap]

/-- The order object a broker returned, as it is now. -/
def currentOrder [BrokerClient β ω] (order : BrokerOrder) (b : β) : BrokerOrder :=
  ((BrokerClient.orders b).bind (fun map ↦ map.get? order.orderId)).getD order

/-- The broker's `get_fill_price`, where it has one. -/
def askFillPrice [BrokerClient β ω] (orderId : String) (answers : ω) :
    BrokerM β (Option PyFloat) :=
  match @BrokerClient.getFillPrice β ω _ with
  | some getter => getter orderId answers
  | none => pure none

/-- `_verified_fill_price`: from the getter, else from the fill map.
Source `joker/runtime/execution_runtime.py:72–84`. -/
def verifiedFillPrice [BrokerClient β ω] (order : BrokerOrder) (answers : ω) :
    BrokerM β (Option Decimal) := do
  let price ← askFillPrice order.orderId answers
  match price with
  | some price => pure (some price.numeral)
  | none => stretch (fun b ↦ (b, .ok (do
      let map ← BrokerClient.fills b
      let fill ← map.values.find? (fun fill ↦ fill.orderId = order.orderId)
      pure fill.price.numeral)))

/-- The getter's price is the verified one. -/
theorem exec_verifiedFillPrice_of_some [BrokerClient β ω] {order : BrokerOrder} {answers : ω}
    {b b' : β} {price : PyFloat}
    (h : (askFillPrice order.orderId answers).exec b = (b', .ok (some price))) :
    (verifiedFillPrice order answers).exec b = (b', .ok (some price.numeral)) := by
  unfold verifiedFillPrice
  rw [Coro.exec_bind, h]
  rfl

/-! ### Fills -/

/-- `project_session`. Source `joker/runtime/execution_runtime.py:515–517`. -/
def projectSession [DecimalContext] (rt : ExecutionRuntime) : RuntimeM β ω ProjectionState := do
  let events ← ledger (getBySession rt.sessionId)
  match project events with
  | .ok state => pure state
  | .error e => Coro.raise (.projector e)

/-- Projecting reads the session's rows. -/
theorem exec_projectSession [DecimalContext] (rt : ExecutionRuntime) (w : World β) :
    (projectSession rt : RuntimeM β ω ProjectionState).exec w =
      (w, (project (w.conn.query (fun e ↦ e.sessionId = rt.sessionId))).mapError .projector) := by
  unfold projectSession
  rw [Coro.exec_bind, exec_ledger]
  change (match project (w.conn.query (fun e ↦ e.sessionId = rt.sessionId)) with
    | .ok state => pure state
    | .error e => Coro.raise (.projector e) : RuntimeM β ω ProjectionState).exec w = _
  cases project (w.conn.query (fun e ↦ e.sessionId = rt.sessionId)) <;> rfl

/-- The quantity of a contract in a projection, zero without a position. -/
def projectedQuantity (state : ProjectionState) (contractId : String) : ℚ :=
  ((state.positions.get? contractId).map (fun p ↦ p.quantity)).getD 0

/-- The event one contract's change from `before` to `after` is published as. -/
def positionTransition (before after : ProjectionState) (contractId : String) :
    Option (EventType × List (String × PayloadValue)) :=
  let prev := projectedQuantity before contractId
  let curr := projectedQuantity after contractId
  let realized := ((after.positions.get? contractId).map (fun p ↦ p.realizedPnl)).getD 0
  if prev = 0 ∧ curr ≠ 0 then
    some (.positionOpened, [("contract_id", .text contractId), ("quantity", .amount curr)])
  else if prev ≠ 0 ∧ curr = 0 then
    some (.positionClosed, [("contract_id", .text contractId), ("realized_pnl", .amount realized)])
  else if prev ≠ curr then
    some (.positionChanged, [("contract_id", .text contractId), ("quantity", .amount curr),
      ("prior_quantity", .amount prev)])
  else none

/-- Publish one contract's change, if there is one. -/
def publishTransition (rt : ExecutionRuntime) (clientOrderId : String)
    (exchangeTimestamp : Datetime) :
    Option (EventType × List (String × PayloadValue)) → RuntimeM β ω Unit
  | some (eventType, extra) =>
    publishOrderEvent rt eventType clientOrderId exchangeTimestamp (fun _ ↦ extra)
  | none => pure ()

/-- The loop of `_publish_position_transitions`. -/
def publishTransitions (rt : ExecutionRuntime) (before after : ProjectionState)
    (clientOrderId : String) (exchangeTimestamp : Datetime) : List String → RuntimeM β ω Unit
  | [] => pure ()
  | contractId :: rest => do
    publishTransition rt clientOrderId exchangeTimestamp
      (positionTransition before after contractId)
    publishTransitions rt before after clientOrderId exchangeTimestamp rest

/-- The events that `_publish_position_transitions` publishes for some contracts. -/
def transitionEvents (rt : ExecutionRuntime) (before after : ProjectionState)
    (clientOrderId : String) (exchangeTimestamp : Datetime) (ids : List String) :
    List DomainEvent :=
  ids.filterMap (fun contractId ↦ (positionTransition before after contractId).map
    (fun p ↦ ⟨p.1, rt.sessionId, exchangeTimestamp, clientOrderId, p.2⟩))

/-- Publishing transitions appends their events. -/
theorem exec_publishTransitions (rt : ExecutionRuntime) (before after : ProjectionState)
    (clientOrderId : String) (exchangeTimestamp : Datetime) (ids : List String) (w : World β) :
    (publishTransitions rt before after clientOrderId exchangeTimestamp ids :
        RuntimeM β ω Unit).exec w =
      ({ w with bus := w.bus ++
        transitionEvents rt before after clientOrderId exchangeTimestamp ids }, .ok ()) := by
  induction ids generalizing w with
  | nil => simp [publishTransitions, transitionEvents]
  | cons id rest ih =>
    unfold publishTransitions
    rw [Coro.exec_bind]
    cases hp : positionTransition before after id with
    | none =>
      change Coro.exec (publishTransitions rt before after clientOrderId exchangeTimestamp rest)
        w = _
      rw [ih]
      simp [transitionEvents, hp]
    | some p =>
      change Coro.exec (publishTransitions rt before after clientOrderId exchangeTimestamp rest)
        { w with bus := w.bus ++
          [⟨p.1, rt.sessionId, exchangeTimestamp, clientOrderId, p.2⟩] } = _
      rw [ih]
      simp [transitionEvents, hp]

/-- `_publish_position_transitions`. The source iterates over a set, whose order is not
specified; here the old positions come first.
Source `joker/runtime/execution_runtime.py:471–513`. -/
def publishPositionTransitions (rt : ExecutionRuntime) (before after : ProjectionState)
    (clientOrderId : String) (exchangeTimestamp : Datetime) : RuntimeM β ω Unit :=
  publishTransitions rt before after clientOrderId exchangeTimestamp
    (before.positions.keys ++
      after.positions.keys.filter (fun k ↦ !before.positions.keys.contains k))

/-- The idempotency key of a fill. -/
def fillKey (clientOrderId brokerOrderId : String) (eventType : LedgerEventType)
    (qty price : Decimal) : String :=
  joinSep ':' "fill" (joinSep ':' clientOrderId (joinSep ':' brokerOrderId
    (joinSep ':' eventType.value (joinSep ':' qty.str price.str))))

/-- The fill event of `record_verified_fill`. -/
def fillFields (rt : ExecutionRuntime) (order : BrokerOrder) (clientOrderId : String)
    (fillPrice : Decimal) (qty : Decimal) (final : Bool) (stamp : Stamp) : EventFields :=
  let eventType := if final then .finalFill else .partialFill
  eventFields rt stamp eventType rt.brokerAccountId clientOrderId (contractIdFor order.contract)
    order.side qty.toRat (fillKey clientOrderId order.orderId eventType qty fillPrice)
    (some order.orderId) (some fillPrice.toRat) Dict.empty

/-- `record_verified_fill`. Source `joker/runtime/execution_runtime.py:413–469`. -/
def recordVerifiedFill [DecimalContext] (rt : ExecutionRuntime) (order : BrokerOrder)
    (clientOrderId : String) (fillPrice : Decimal) (fillQty : Option Decimal) (final : Bool)
    (stamp : Stamp) :
    RuntimeM β ω (List LedgerEvent) := do
  let before ← projectSession rt
  let qty := fillQty.getD (Decimal.ofInt order.quantity)
  sync .maps (setMap rt (fun mapping ↦
    if (mapping.get? clientOrderId).isSome then mapping
    else mapping.set clientOrderId order.orderId))
  let (e, written) ← record stamp
    (fillFields rt order clientOrderId fillPrice qty final stamp)
  if written then do
    publishOrderEvent rt (if final then .orderFilled else .orderPartiallyFilled) clientOrderId
      stamp.now (fun _ ↦ [("broker_order_id", .text order.orderId),
        ("price", .text fillPrice.str), ("qty", .text qty.str)])
    let after ← projectSession rt
    publishPositionTransitions rt before after clientOrderId stamp.now
    pure [e]
  else pure []

/-! ### Submission -/

/-- The inputs of one `submit_execution_command`: a stamp for each event it may append, and
the broker's answers at each stretch. -/
structure SubmitInputs (ω : Type) where
  requested : Stamp
  recovered : Stamp
  rejected : Stamp
  accepted : Stamp
  fill : Stamp
  firstLookup : ω
  secondLookup : ω
  submission : ω
  price : ω

/-- What the submitting stretch ends with: an order found by its intent, a new order, or the
exception of `submit_order`. -/
inductive Submission where
  | recovered (order : BrokerOrder)
  | placed (order : BrokerOrder)
  | refused (e : PyException)

/-- The stretch from the search by intent to the end of `broker.submit_order`. -/
def findOrSubmit [BrokerClient β ω] (rt : ExecutionRuntime) (command : ExecutionCommand)
    (answers : ω) : SyncM β Submission := do
  let found ← broker (findBrokerOrderByIntent command.intent.intentId answers)
  match found with
  | some order => do
    setMap rt (fun mapping ↦ mapping.set command.clientOrderId order.orderId)
    pure (.recovered order)
  | none => do
    let outcome ← (broker (BrokerClient.submitOrder command.intent answers)).attempt
    match outcome with
    | .ok order => do
      setMap rt (fun mapping ↦ mapping.set command.clientOrderId order.orderId)
      pure (.placed order)
    | .error e => pure (.refused e)

/-- The events of one command share account, client order, contract and side. -/
def commandFields (rt : ExecutionRuntime) (command : ExecutionCommand) (stamp : Stamp)
    (eventType : LedgerEventType) (quantity : Int) (idempotencyKey : String)
    (brokerOrderId : Option String) (price : Option PyFloat) (metadata : Metadata) : EventFields :=
  eventFields rt stamp eventType (orText command.brokerAccountId rt.brokerAccountId)
    command.clientOrderId (contractIdFor command.intent.contract) command.intent.side quantity
    idempotencyKey brokerOrderId (price.map PyFloat.toRat) metadata

/-- The `ORDER_SUBMISSION_REQUESTED` event. -/
def requestedFields (rt : ExecutionRuntime) (command : ExecutionCommand) (stamp : Stamp) :
    EventFields :=
  commandFields rt command stamp .orderSubmissionRequested command.intent.quantity
    (joinSep ':' "submit-req" command.clientOrderId) none command.intent.limitPrice
    (Dict.ofList [("intent_id", .str command.intent.intentId),
      ("order_type", .str command.intent.orderType.value)])

/-- The `BROKER_ORDER_ACCEPTED` event of a new or a recovered order. -/
def acceptedFields (rt : ExecutionRuntime) (command : ExecutionCommand) (order : BrokerOrder)
    (stamp : Stamp) : EventFields :=
  commandFields rt command stamp .brokerOrderAccepted order.quantity
    (joinSep ':' "accept" (joinSep ':' command.clientOrderId order.orderId))
    (some order.orderId) order.limitPrice Dict.empty

/-- The `REJECTION` event after an exception of the broker. -/
def rejectedFields (rt : ExecutionRuntime) (command : ExecutionCommand) (e : PyException)
    (stamp : Stamp) : EventFields :=
  commandFields rt command stamp .rejection command.intent.quantity
    (joinSep ':' "reject" (joinSep ':' command.clientOrderId e.typeName)) none none
    (Dict.ofList [("error", .str e.text)])

/-- The end of `submit_execution_command` for a new order: an order that is filled by now gets
its fill recorded when the broker has a verified price. -/
def finishPlaced [DecimalContext] [BrokerClient β ω] (rt : ExecutionRuntime)
    (command : ExecutionCommand) (order : BrokerOrder) (inputs : SubmitInputs ω) :
    RuntimeM β ω BrokerOrder := do
  let price ← sync .read (do
    let now ← Coro.atomic () (fun w ↦ (w, .ok (currentOrder order w.broker)))
    if now.status = .filled then broker (verifiedFillPrice order inputs.price) else pure none)
  match price with
  | some price => do
    let _ ← recordVerifiedFill rt order command.clientOrderId price
      (some (Decimal.ofInt order.quantity)) true inputs.fill
    sync .read (Coro.atomic () (fun w ↦ (w, .ok (currentOrder order w.broker))))
  | none => sync .read (Coro.atomic () (fun w ↦ (w, .ok (currentOrder order w.broker))))

/-- `submit_execution_command`. Source `joker/runtime/execution_runtime.py:137–258`. -/
def submitExecutionCommand [DecimalContext] [BrokerClient β ω] (rt : ExecutionRuntime)
    (command : ExecutionCommand) (inputs : SubmitInputs ω) : RuntimeM β ω BrokerOrder := do
  let _ ← restoreOrderMappings rt
  let existing ← resolveExistingSubmission rt command.clientOrderId inputs.firstLookup
    inputs.secondLookup
  match existing with
  | some order => pure order
  | none => do
    let _ ← record inputs.requested (requestedFields rt command inputs.requested)
    publishOrderEvent rt .orderSubmitted command.clientOrderId inputs.requested.now (fun _ ↦ [])
    let submission ← sync (.submit command.intent inputs.submission)
      (findOrSubmit rt command inputs.submission)
    match submission with
    | .recovered order => do
      let _ ← record inputs.recovered (acceptedFields rt command order inputs.recovered)
      sync .read (Coro.atomic () (fun w ↦ (w, .ok (currentOrder order w.broker))))
    | .refused e => do
      let _ ← record inputs.rejected (rejectedFields rt command e inputs.rejected)
      publishOrderEvent rt .orderRejected command.clientOrderId inputs.rejected.now
        (fun _ ↦ [("error", .text e.text)])
      Coro.raise (.broker e)
    | .placed order => do
      let _ ← record inputs.accepted (acceptedFields rt command order inputs.accepted)
      publishOrderEvent rt .orderAccepted command.clientOrderId inputs.accepted.now (fun w ↦
        [("broker_order_id", .text order.orderId),
          ("status", .text (currentOrder order w.broker).status.value)])
      finishPlaced rt command order inputs

/-! ### Samples -/

/-- A stamp with an id and a second of one afternoon. -/
def Stamp.sample (id : Uuid) (second : ℕ) : Stamp :=
  { ledgerEventId := id
    now := ⟨2026, 7, 1, 15, 0, second, 0, some 0⟩
    createdAt := ⟨2026, 7, 1, 15, 0, second, 0, some 0⟩
    faults := AppendFaults.none }

/-- A limit order to buy one call. -/
def ExecutionCommand.sample : ExecutionCommand :=
  { clientOrderId := "c"
    intent :=
      { intentId := "i"
        candidateId := "k"
        contract := ⟨"SPY", ⟨2026, 7, 1⟩, ⟨⟨false, 6300, -1⟩⟩, .call⟩
        side := .buy
        orderType := .limit
        quantity := 1
        limitPrice := some ⟨⟨false, 15, -1⟩⟩ }
    brokerAccountId := "a" }

/-- Inputs with one answer of the broker for every stretch. -/
def SubmitInputs.sample (answers : ω) (tag : String) (second : ℕ) : SubmitInputs ω :=
  { requested := Stamp.sample ("requested" ++ tag) second
    recovered := Stamp.sample ("recovered" ++ tag) second
    rejected := Stamp.sample ("rejected" ++ tag) second
    accepted := Stamp.sample ("accepted" ++ tag) second
    fill := Stamp.sample ("fill" ++ tag) second
    firstLookup := answers
    secondLookup := answers
    submission := answers
    price := answers }

/-- An empty ledger and a broker. -/
def World.new (b : β) : World β := ⟨Conn.empty, b, [], fun _ ↦ Dict.empty⟩

end Joker.Runtime
