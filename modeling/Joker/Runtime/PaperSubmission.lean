import Joker.Broker.Positions
import Joker.Ledger.FilledOrders
import Joker.Runtime.ExecutionRuntime

/-!
# Submissions to the paper broker

Library `Runtime`. One `submit_execution_command` of a limit order to a `PaperBroker` without
slippage: the order is new, the broker fills it at its limit, and three events are appended.
-/

namespace Joker.Runtime

open Joker.Base Joker.Ledger Joker.Broker

/-- A submitted order, with what the call gets from outside. -/
structure PaperOrder where
  command : ExecutionCommand
  inputs : SubmitInputs PaperDraws

namespace PaperOrder

/-- The order the broker creates, and fills. -/
def order (o : PaperOrder) : BrokerOrder :=
  BrokerOrder.ofIntent o.inputs.submission.orderId .filled o.command.intent

/-- The fill the broker creates. -/
def fill (o : PaperOrder) : Fill :=
  ⟨o.inputs.submission.fillId, o.inputs.submission.orderId, atLimit o.command.intent,
    o.command.intent.quantity⟩

/-- The `FINAL_FILL` event. -/
def filledFields (rt : ExecutionRuntime) (o : PaperOrder) : EventFields :=
  fillFields rt o.order o.command.clientOrderId (atLimit o.command.intent).numeral
    (Decimal.ofInt o.order.quantity) true o.inputs.fill

/-- The position rows afterwards. -/
def positionsAfter (o : PaperOrder) (b : PaperBook) : Dict String Position :=
  PaperBook.applyFill o.order (atLimit o.command.intent) o.inputs.submission.positionId b.positions

/-- The three events of the order, where they pass validation. -/
def events (rt : ExecutionRuntime) (o : PaperOrder) : Option (List LedgerEvent) := do
  let requested ← makeLedgerEvent (requestedFields rt o.command o.inputs.requested)
  let accepted ← makeLedgerEvent (acceptedFields rt o.command o.order o.inputs.accepted)
  let filled ← makeLedgerEvent (o.filledFields rt)
  pure [requested, accepted, filled]

end PaperOrder

/-- One event comes no later than another, and is a different one. -/
def Precedes (a b : LedgerEvent) : Prop := RowLe a b ∧ a.Apart b

instance : DecidableRel Precedes := fun _ _ ↦ inferInstanceAs (Decidable (_ ∧ _))

/-- The events follow the rows of the table, each a new one. -/
def Follows (events : Option (List LedgerEvent)) (rows : List LedgerEvent) : Prop :=
  match events with
  | some events => (rows ++ events).Pairwise Precedes
  | none => False

instance : ∀ (events : Option (List LedgerEvent)) (rows : List LedgerEvent),
    Decidable (Follows events rows)
  | some events, rows => inferInstanceAs (Decidable ((rows ++ events).Pairwise Precedes))
  | none, _ => inferInstanceAs (Decidable False)

/-- The circumstances of an order: a limit order for some quantity, new in all its ids, on a
contract that its contract id tells apart, with valid events that the clock puts behind the
others, and a driver without errors. -/
structure Placeable (rt : ExecutionRuntime) (w : World PaperBook) (o : PaperOrder) : Prop where
  orderType : o.command.intent.orderType = .limit
  limit : ∃ limit ∈ o.command.intent.limitPrice, limit.toRat ≠ 0
  quantity : 0 < o.command.intent.quantity
  newIntent : ∀ order ∈ w.broker.base.orders.values, order.intentId ≠ o.command.intent.intentId
  newOrder : ∀ row ∈ w.conn.rows, row.clientOrderId ≠ o.command.clientOrderId
  told : ∀ pos ∈ w.broker.openRows, sameContract pos.contract o.command.intent.contract = true ↔
    contractIdFor pos.contract = contractIdFor o.command.intent.contract
  newIds : o.inputs.submission.orderId ∉ w.broker.base.usedOrderIds ∧
    o.inputs.submission.fillId ∉ w.broker.base.fills.keys ∧
    o.inputs.submission.positionId ∉ w.broker.positions.keys
  faultless : o.inputs.requested.faults = AppendFaults.none ∧
    o.inputs.accepted.faults = AppendFaults.none ∧ o.inputs.fill.faults = AppendFaults.none
  recorded : Follows (o.events rt) w.conn.rows

instance (rt : ExecutionRuntime) (w : World PaperBook) (o : PaperOrder) :
    Decidable (Placeable rt w o) :=
  decidable_of_iff
    (o.command.intent.orderType = .limit ∧
      (∃ limit ∈ o.command.intent.limitPrice, limit.toRat ≠ 0) ∧
      0 < o.command.intent.quantity ∧
      (∀ order ∈ w.broker.base.orders.values, order.intentId ≠ o.command.intent.intentId) ∧
      (∀ row ∈ w.conn.rows, row.clientOrderId ≠ o.command.clientOrderId) ∧
      (∀ pos ∈ w.broker.openRows,
        sameContract pos.contract o.command.intent.contract = true ↔
          contractIdFor pos.contract = contractIdFor o.command.intent.contract) ∧
      (o.inputs.submission.orderId ∉ w.broker.base.usedOrderIds ∧
        o.inputs.submission.fillId ∉ w.broker.base.fills.keys ∧
        o.inputs.submission.positionId ∉ w.broker.positions.keys) ∧
      (o.inputs.requested.faults = AppendFaults.none ∧
        o.inputs.accepted.faults = AppendFaults.none ∧
        o.inputs.fill.faults = AppendFaults.none) ∧
      Follows (o.events rt) w.conn.rows)
    ⟨fun ⟨h₁, h₂, h₃, h₄, h₅, h₆, h₇, h₈, h₉⟩ ↦ ⟨h₁, h₂, h₃, h₄, h₅, h₆, h₇, h₈, h₉⟩,
      fun h ↦ ⟨h.orderType, h.limit, h.quantity, h.newIntent, h.newOrder, h.told, h.newIds,
        h.faultless, h.recorded⟩⟩

/-! ### The parts of a submission -/

section Parts

variable {β ω : Type} {rt : ExecutionRuntime} {w : World β} {clientOrderId : String}

private theorem mappingOf_of_new {events : List LedgerEvent}
    (h : ∀ e ∈ events, e.clientOrderId ≠ clientOrderId) :
    (mappingOf events).get? clientOrderId = none := by
  unfold mappingOf
  apply List.foldlRecOn (motive := fun mapping : Dict String String ↦
    mapping.get? clientOrderId = none)
  · rfl
  · intro mapping hbefore e he
    split
    · split
      · exact hbefore
      · rw [Dict.get?_set_ne _ _ (h e he)]
        exact hbefore
    · exact hbefore

private theorem brokerIdOf_of_new {events : List LedgerEvent}
    (h : ∀ e ∈ events, e.clientOrderId ≠ clientOrderId) :
    brokerIdOf clientOrderId events = none := by
  unfold brokerIdOf
  induction events using List.reverseRecOn with
  | nil => rfl
  | append_singleton events e ih =>
    have hne := h e (by simp)
    rw [List.foldl_append, ih (fun x hx ↦ h x (List.mem_append_left _ hx))]
    simp [hne]

private theorem exec_resolve_of_new [BrokerClient β ω]
    (h : ∀ row ∈ w.conn.rows, row.clientOrderId ≠ clientOrderId) (first second : ω) :
    ∃ mapping clients,
      (restoreOrderMappings rt : RuntimeM β ω _).exec w =
        ({ w with clientToBroker := clients }, .ok mapping) ∧
      (resolveExistingSubmission rt clientOrderId first second).exec
          { w with clientToBroker := clients } =
        ({ w with clientToBroker := clients }, .ok none) := by
  have hevents : ∀ e ∈ w.conn.query (fun e ↦ e.sessionId = rt.sessionId),
      e.clientOrderId ≠ clientOrderId := fun e he ↦ h e (mem_query.mp he).1
  refine ⟨_, _, rfl, ?_⟩
  unfold resolveExistingSubmission sync
  simp only [Coro.exec_bind, Coro.exec_handle, Coro.exec_whole, Coro.exec_atomic,
    Function.update_self, mappingOf_of_new hevents]
  change ((ledger (getBySession rt.sessionId) >>= _ : RuntimeM β ω _).exec _) = _
  rw [Coro.exec_bind, exec_ledger]
  change (Coro.exec (Coro.handle (Coro.whole RuntimeOp.lookup (noteRecovered rt clientOrderId
    (brokerIdOf clientOrderId (w.conn.query (fun e ↦ e.sessionId = rt.sessionId))) >>= fun _ ↦
      getOrderIfMapped _ second)) _) _) = _
  rw [brokerIdOf_of_new hevents]
  rfl

private theorem exec_record_of_new {stamp : Stamp} {fields : EventFields} {e : LedgerEvent}
    (hfields : makeLedgerEvent fields = some e) (hfaults : stamp.faults = AppendFaults.none)
    (hc : w.conn.Settled)
    (hnew : ∀ row ∈ w.conn.rows,
      row.ledgerEventId ≠ e.ledgerEventId ∧ row.idempotencyKey ≠ e.idempotencyKey) :
    (record stamp fields : RuntimeM β ω _).exec w =
      ({ w with conn := .ofRows (w.conn.rows ++ [e]) }, .ok (e, true)) := by
  rw [exec_record, hfields]
  simp only [hfaults, exec_append_new hc hnew]
  rfl

private theorem exec_recordVerifiedFill_of_new [DecimalContext] {order : BrokerOrder}
    {price qty : Decimal}
    {stamp : Stamp} {e : LedgerEvent} {before after : ProjectionState}
    (hfields : makeLedgerEvent (fillFields rt order clientOrderId price qty true stamp) = some e)
    (hfaults : stamp.faults = AppendFaults.none) (hc : w.conn.Settled)
    (hnew : ∀ row ∈ w.conn.rows,
      row.ledgerEventId ≠ e.ledgerEventId ∧ row.idempotencyKey ≠ e.idempotencyKey)
    (hbefore : project (w.conn.query (fun e ↦ e.sessionId = rt.sessionId)) = .ok before)
    (hafter : project ((Conn.ofRows (w.conn.rows ++ [e])).query
      (fun e ↦ e.sessionId = rt.sessionId)) = .ok after) :
    ∃ clients bus, (recordVerifiedFill rt order clientOrderId price (some qty) true stamp :
        RuntimeM β ω _).exec w =
      ({ w with
          conn := .ofRows (w.conn.rows ++ [e])
          clientToBroker := clients
          bus := bus }, .ok [e]) := by
  let noted := Function.update w.clientToBroker rt.index
    (if ((w.clientToBroker rt.index).get? clientOrderId).isSome then w.clientToBroker rt.index
    else (w.clientToBroker rt.index).set clientOrderId order.orderId)
  let filled : DomainEvent := ⟨.orderFilled, rt.sessionId, stamp.now, clientOrderId,
    [("broker_order_id", .text order.orderId), ("price", .text price.str), ("qty", .text qty.str)]⟩
  let ids := before.positions.keys ++
    after.positions.keys.filter (fun k ↦ !before.positions.keys.contains k)
  refine ⟨noted, w.bus ++ [filled] ++ transitionEvents rt before after clientOrderId stamp.now ids,
    ?_⟩
  unfold recordVerifiedFill
  rw [Coro.exec_bind, exec_projectSession, hbefore]
  change Coro.exec (record stamp (fillFields rt order clientOrderId price qty true stamp) >>= _)
    { w with clientToBroker := noted } = _
  rw [Coro.exec_bind, exec_record_of_new (w := { w with clientToBroker := noted }) hfields hfaults
    hc hnew]
  change Coro.exec (projectSession rt >>= _)
    ⟨.ofRows (w.conn.rows ++ [e]), w.broker, w.bus ++ [filled], noted⟩ = _
  rw [Coro.exec_bind, exec_projectSession, hafter]
  change Coro.exec (publishPositionTransitions rt before after clientOrderId stamp.now >>= _) _ = _
  rw [Coro.exec_bind]
  unfold publishPositionTransitions
  rw [exec_publishTransitions]
  rfl

end Parts

/-! ### The paper broker -/

section Paper

variable {b : PaperBook} {intent : OrderIntent} {draws : PaperDraws}

private theorem crosses_atLimit {limit : PyFloat} (hlimit : intent.limitPrice = some limit)
    (hpositive : limit.toRat ≠ 0) :
    PaperBroker.shouldFill intent (atLimit intent) = true := by
  unfold PaperBroker.shouldFill atLimit
  rw [hlimit]
  simp only [if_neg hpositive, le_refl, decide_true, ite_self]

/-- A limit order is filled when it is submitted. -/
theorem submitOrder_filled (hprice : b.base.simulateFillPrice = atLimit)
    (htype : intent.orderType = .limit) {limit : PyFloat}
    (hlimit : intent.limitPrice = some limit) (hpositive : limit.toRat ≠ 0)
    (hid : draws.orderId ∉ b.base.usedOrderIds) :
    ∃ base : PaperBroker,
      b.submitOrder intent draws =
        (⟨base, PaperBook.applyFill (.ofIntent draws.orderId .filled intent) (atLimit intent)
          draws.positionId b.positions⟩, .ok (.ofIntent draws.orderId .filled intent)) ∧
      base.simulateFillPrice = atLimit ∧
      base.orders = b.base.orders.set draws.orderId (.ofIntent draws.orderId .filled intent) ∧
      base.fills = b.base.fills.set draws.fillId
        ⟨draws.fillId, draws.orderId, atLimit intent, intent.quantity⟩ ∧
      base.usedOrderIds = draws.orderId :: b.base.usedOrderIds := by
  have hcrosses : intent.orderType = .limit ∧ intent.limitPrice.isSome = true ∧
      PaperBroker.shouldFill intent (atLimit intent) = true :=
    ⟨htype, hlimit ▸ rfl, crosses_atLimit hlimit hpositive⟩
  have hsubmit : ∃ base : PaperBroker, b.base.submitOrder intent draws.toPaperIds =
      (base, .ok (.ofIntent draws.orderId .filled intent)) ∧
      base.simulateFillPrice = atLimit ∧
      base.orders = b.base.orders.set draws.orderId (.ofIntent draws.orderId .filled intent) ∧
      base.fills = b.base.fills.set draws.fillId
        ⟨draws.fillId, draws.orderId, atLimit intent, intent.quantity⟩ ∧
      base.usedOrderIds = draws.orderId :: b.base.usedOrderIds := by
    unfold PaperBroker.submitOrder
    rw [if_neg hid, hprice]
    simp only [if_pos hcrosses]
    exact ⟨_, rfl, hprice, rfl, rfl, rfl⟩
  obtain ⟨base, hbase, hrest⟩ := hsubmit
  refine ⟨base, ?_, hrest⟩
  unfold PaperBook.submitOrder
  rw [hbase, hprice]
  rfl

private theorem exec_find_of_new {intentId : String}
    (h : ∀ order ∈ b.base.orders.values, order.intentId ≠ intentId) :
    (findBrokerOrderByIntent intentId draws : BrokerM PaperBook _).exec b = (b, .ok none) := by
  have hsearch : searchOrders intentId b = none := by
    change (b.base.orders.values.find? _) = none
    apply List.find?_eq_none.mpr
    intro order horder he
    exact h order horder (of_decide_eq_true he)
  have hopen : (b.base.orders.values.filter (fun order ↦ order.status = .open)).find?
      (fun order ↦ order.intentId = intentId) = none := by
    apply List.find?_eq_none.mpr
    intro order horder he
    exact h order (List.mem_of_mem_filter horder) (of_decide_eq_true he)
  exact exec_findBrokerOrderByIntent_of_none rfl hopen rfl hsearch

private theorem exec_findOrSubmit_of_new {rt : ExecutionRuntime} {command : ExecutionCommand}
    {w : World PaperBook} {b' : PaperBook} {order : BrokerOrder}
    (hnew : ∀ order ∈ w.broker.base.orders.values, order.intentId ≠ command.intent.intentId)
    (hsubmit : w.broker.submitOrder command.intent draws = (b', .ok order)) :
    ∃ clients, (findOrSubmit rt command draws).exec w =
      ({ w with broker := b', clientToBroker := clients }, .ok (.placed order)) := by
  have hexec : (BrokerClient.submitOrder command.intent draws :
      BrokerM PaperBook BrokerOrder).exec w.broker = (b', .ok order) := hsubmit
  refine ⟨Function.update w.clientToBroker rt.index
    ((w.clientToBroker rt.index).set command.clientOrderId order.orderId), ?_⟩
  unfold findOrSubmit
  rw [Coro.exec_bind, exec_broker, exec_find_of_new hnew]
  simp only [Coro.exec_bind, Coro.exec_attempt, exec_broker, hexec]
  rfl

private theorem getFillPrice_of_new {base : PaperBroker} {fill : Fill}
    (hfills : base.fills = b.base.fills.set fill.fillId fill)
    (hnew : fill.fillId ∉ b.base.fills.keys)
    (hother : ∀ other ∈ b.base.fills.values, other.orderId ≠ fill.orderId) :
    base.getFillPrice fill.orderId = some fill.price := by
  have habsent := (Dict.not_mem_keys_iff _ _).mp hnew
  have hvalues : base.fills.values = b.base.fills.values ++ [fill] := by
    unfold Dict.values
    rw [hfills, Dict.entries_set_of_absent _ _ _ habsent, List.map_append]
    rfl
  have hnone : b.base.fills.values.find? (fun other ↦ other.orderId = fill.orderId) = none := by
    apply List.find?_eq_none.mpr
    intro other hmem he
    exact hother other hmem (of_decide_eq_true he)
  unfold PaperBroker.getFillPrice
  rw [hvalues, List.find?_append, hnone]
  simp

private theorem events_of_follows {rt : ExecutionRuntime} {o : PaperOrder}
    {rows : List LedgerEvent} (h : Follows (o.events rt) rows) :
    ∃ requested accepted filled,
      makeLedgerEvent (requestedFields rt o.command o.inputs.requested) = some requested ∧
      makeLedgerEvent (acceptedFields rt o.command o.order o.inputs.accepted) = some accepted ∧
      makeLedgerEvent (o.filledFields rt) = some filled ∧
      (rows ++ [requested, accepted, filled]).Pairwise Precedes := by
  unfold PaperOrder.events at h
  cases hr : makeLedgerEvent (requestedFields rt o.command o.inputs.requested) with
  | none =>
    rw [hr] at h
    exact h.elim
  | some requested =>
    cases ha : makeLedgerEvent (acceptedFields rt o.command o.order o.inputs.accepted) with
    | none =>
      rw [hr, ha] at h
      exact h.elim
    | some accepted =>
      cases hf : makeLedgerEvent (o.filledFields rt) with
      | none =>
        rw [hr, ha, hf] at h
        exact h.elim
      | some filled =>
        rw [hr, ha, hf] at h
        exact ⟨requested, accepted, filled, rfl, rfl, rfl, h⟩

private theorem new_of_pairwise {rows : List LedgerEvent} {e : LedgerEvent}
    (h : (rows ++ [e]).Pairwise Precedes) : ∀ row ∈ rows, row.Apart e := fun row hrow ↦
  ((List.pairwise_append.mp h).2.2 row hrow e (List.mem_singleton_self e)).2

private theorem exec_finishPlaced_of_filled [DecimalContext] {rt : ExecutionRuntime}
    {w : World PaperBook}
    {o : PaperOrder} {e : LedgerEvent}
    (hcurrent : w.broker.base.orders.get? o.order.orderId = some o.order)
    (hprice : w.broker.base.getFillPrice o.order.orderId = some (atLimit o.command.intent))
    (hfields : makeLedgerEvent (o.filledFields rt) = some e)
    (hfaults : o.inputs.fill.faults = AppendFaults.none) (hc : w.conn.Settled)
    (hnew : ∀ row ∈ w.conn.rows,
      row.ledgerEventId ≠ e.ledgerEventId ∧ row.idempotencyKey ≠ e.idempotencyKey)
    (hnc : ∀ row ∈ w.conn.rows ++ [e], row.NotCorrection) :
    ∃ clients bus, (finishPlaced rt o.command o.order o.inputs).exec w =
      ({ w with
          conn := .ofRows (w.conn.rows ++ [e])
          clientToBroker := clients
          bus := bus }, .ok o.order) := by
  obtain ⟨before, hbefore⟩ := project_ok
    (w.conn.query (fun e ↦ e.sessionId = rt.sessionId)) (by
      intro row hrow
      exact hnc row (List.mem_append_left _ (mem_query.mp hrow).1))
  obtain ⟨after, hafter⟩ := project_ok
    ((Conn.ofRows (w.conn.rows ++ [e])).query (fun e ↦ e.sessionId = rt.sessionId)) (by
      intro row hrow
      exact hnc row (mem_query.mp hrow).1)
  obtain ⟨clients, bus, hrecord⟩ := exec_recordVerifiedFill_of_new (β := PaperBook)
    (ω := PaperDraws) hfields hfaults hc hnew hbefore hafter
  refine ⟨clients, bus, ?_⟩
  have hnow (w' : World PaperBook) (hw' : w'.broker = w.broker) :
      currentOrder o.order w'.broker = o.order := by
    rw [hw']
    change ((w.broker.base.orders.get? o.order.orderId)).getD o.order = _
    rw [hcurrent]
    rfl
  have hverified : (verifiedFillPrice o.order o.inputs.price : BrokerM PaperBook _).exec w.broker =
      (w.broker, .ok (some (atLimit o.command.intent).numeral)) := by
    apply exec_verifiedFillPrice_of_some
    change (w.broker, Except.ok (w.broker.base.getFillPrice o.order.orderId)) = _
    rw [hprice]
  have hread : ((do
      let now ← Coro.atomic () (fun w ↦ (w, .ok (currentOrder o.order w.broker)))
      if now.status = .filled then broker (verifiedFillPrice o.order o.inputs.price)
      else pure none) : SyncM PaperBook (Option Decimal)).exec w =
      (w, .ok (some (atLimit o.command.intent).numeral)) := by
    rw [Coro.exec_bind, Coro.exec_atomic]
    simp only [hnow w rfl]
    change Coro.exec (broker (verifiedFillPrice o.order o.inputs.price)) w = _
    rw [exec_broker, hverified]
  unfold finishPlaced
  unfold sync
  rw [Coro.exec_bind, Coro.exec_handle, Coro.exec_whole, hread]
  simp only
  rw [Coro.exec_bind, hrecord]
  change (_, Except.ok (currentOrder o.order w.broker)) = _
  rw [hnow w rfl]
  rfl

private theorem notCorrection_recorded {rt : ExecutionRuntime} {o : PaperOrder}
    {rows : List LedgerEvent} {requested accepted filled : LedgerEvent}
    (hnc : ∀ row ∈ rows, row.NotCorrection)
    (hr : makeLedgerEvent (requestedFields rt o.command o.inputs.requested) = some requested)
    (ha : makeLedgerEvent (acceptedFields rt o.command o.order o.inputs.accepted) = some accepted)
    (hf : makeLedgerEvent (o.filledFields rt) = some filled) :
    ∀ row ∈ rows ++ [requested, accepted, filled], row.NotCorrection := by
  intro row hrow
  rcases List.mem_append.mp hrow with hrow | hrow
  · exact hnc row hrow
  · simp only [List.mem_cons, List.not_mem_nil, or_false] at hrow
    rcases hrow with rfl | rfl | rfl
    · exact notCorrection_of_make hr (fun hn ↦ nomatch hn)
    · exact notCorrection_of_make ha (fun hn ↦ nomatch hn)
    · exact notCorrection_of_make hf (fun hn ↦ nomatch hn)

/-- A placeable order is placed and filled: three events more, and the broker's rows after the
fill. -/
theorem exec_submitExecutionCommand_of_new [DecimalContext] {rt : ExecutionRuntime}
    {w : World PaperBook}
    {o : PaperOrder} (h : Placeable rt w o) (hc : w.conn.Settled)
    (hnc : ∀ row ∈ w.conn.rows, row.NotCorrection)
    (hprice : w.broker.base.simulateFillPrice = atLimit)
    (hfills : ∀ fill ∈ w.broker.base.fills.values, fill.orderId ∈ w.broker.base.usedOrderIds) :
    ∃ requested accepted filled base clients bus,
      makeLedgerEvent (requestedFields rt o.command o.inputs.requested) = some requested ∧
      makeLedgerEvent (acceptedFields rt o.command o.order o.inputs.accepted) = some accepted ∧
      makeLedgerEvent (o.filledFields rt) = some filled ∧
      (w.conn.rows ++ [requested, accepted, filled]).Pairwise Precedes ∧
      base.simulateFillPrice = atLimit ∧
      base.orders = w.broker.base.orders.set o.order.orderId o.order ∧
      base.fills = w.broker.base.fills.set o.fill.fillId o.fill ∧
      base.usedOrderIds = o.order.orderId :: w.broker.base.usedOrderIds ∧
      (submitExecutionCommand rt o.command o.inputs).exec w =
        (⟨.ofRows (w.conn.rows ++ [requested, accepted, filled]),
          ⟨base, o.positionsAfter w.broker⟩, bus, clients⟩, .ok o.order) := by
  obtain ⟨limit, hlimit, hpositive⟩ := h.limit
  obtain ⟨requested, accepted, filled, hr, ha, hf, hpair⟩ := events_of_follows h.recorded
  obtain ⟨base, hsubmit, hbprice, horders, hbfills, hused⟩ :=
    submitOrder_filled hprice h.orderType hlimit hpositive h.newIds.1
  have hpair₁ : (w.conn.rows ++ [requested]).Pairwise Precedes :=
    hpair.sublist ((List.Sublist.refl _).append (by simp))
  have hpair₂ : (w.conn.rows ++ [requested] ++ [accepted]).Pairwise Precedes := by
    rw [List.append_assoc]
    exact hpair.sublist ((List.Sublist.refl _).append (by simp))
  have hrows : w.conn.rows ++ [requested] ++ [accepted] ++ [filled] =
      w.conn.rows ++ [requested, accepted, filled] := by
    simp only [List.append_assoc, List.cons_append, List.nil_append]
  have hall : ∀ row ∈ w.conn.rows ++ [requested] ++ [accepted] ++ [filled],
      row.NotCorrection := by
    rw [hrows]
    exact notCorrection_recorded hnc hr ha hf
  have hcurrent : base.orders.get? o.order.orderId = some o.order := by
    rw [horders]
    exact Dict.get?_set_self _ _ _
  have hfillPrice : base.getFillPrice o.order.orderId = some (atLimit o.command.intent) := by
    apply @getFillPrice_of_new w.broker base o.fill hbfills h.newIds.2.1
    intro other hother he
    have hused := hfills other hother
    rw [he] at hused
    exact h.newIds.1 hused
  obtain ⟨mapping, clients₀, hrestore, hresolve⟩ := @exec_resolve_of_new _ _ rt w
    o.command.clientOrderId _ h.newOrder o.inputs.firstLookup o.inputs.secondLookup
  -- The world after the request, after the broker's answer, and after the acceptance.
  let w₁ : World PaperBook := ⟨.ofRows (w.conn.rows ++ [requested]), w.broker,
    w.bus ++ [⟨.orderSubmitted, rt.sessionId, o.inputs.requested.now, o.command.clientOrderId, []⟩],
    clients₀⟩
  obtain ⟨clients₁, hplaced⟩ := @exec_findOrSubmit_of_new o.inputs.submission rt o.command w₁ _
    o.order h.newIntent hsubmit
  let w₂ : World PaperBook := ⟨w₁.conn, ⟨base, o.positionsAfter w.broker⟩, w₁.bus, clients₁⟩
  let w₃ : World PaperBook := ⟨.ofRows (w.conn.rows ++ [requested] ++ [accepted]), w₂.broker,
    w₂.bus ++ [⟨.orderAccepted, rt.sessionId, o.inputs.accepted.now, o.command.clientOrderId,
      [("broker_order_id", .text o.order.orderId),
        ("status", .text (currentOrder o.order w₂.broker).status.value)]⟩], clients₁⟩
  obtain ⟨clients₂, bus, hfinish⟩ := @exec_finishPlaced_of_filled _ rt w₃ o filled hcurrent
    hfillPrice hf h.faultless.2.2 rfl (new_of_pairwise (hrows ▸ hpair)) hall
  refine ⟨requested, accepted, filled, base, clients₂, bus, hr, ha, hf, hpair, hbprice, horders,
    hbfills, hused, ?_⟩
  unfold submitExecutionCommand
  rw [Coro.exec_bind, hrestore]
  simp only
  rw [Coro.exec_bind, hresolve]
  simp only
  rw [Coro.exec_bind, exec_record_of_new (w := { w with clientToBroker := clients₀ }) hr
    h.faultless.1 hc (new_of_pairwise hpair₁)]
  change Coro.exec (sync (.submit o.command.intent o.inputs.submission)
    (findOrSubmit rt o.command o.inputs.submission) >>= _) w₁ = _
  unfold sync
  rw [Coro.exec_bind, Coro.exec_handle, Coro.exec_whole, hplaced]
  change Coro.exec (record o.inputs.accepted (acceptedFields rt o.command o.order
    o.inputs.accepted) >>= _) w₂ = _
  rw [Coro.exec_bind, exec_record_of_new (w := w₂) ha h.faultless.2.1 rfl (new_of_pairwise hpair₂)]
  change Coro.exec (finishPlaced rt o.command o.order o.inputs) w₃ = _
  rw [hfinish]
  simp only [w₃, w₂, Conn.ofRows, hrows]

end Paper

end Joker.Runtime
