import Joker.Broker.Interface

/-!
# Webull adapter

Library `Broker`. `WebullClient` of `joker/broker/webull.py`: its two maps in memory, and the
venue behind the trade API, which keeps every order it accepted under the client order id it was
placed with. What the network does to a call is an input. The checks of the paper-trading
settings, which are fixed when the client is built, are left out.
-/

namespace Joker.Broker

open Joker.Base

/-- The two status fields of a response; `none` is a missing key. -/
structure VenueStatus where
  status : Option String
  orderStatus : Option String
  deriving DecidableEq, Repr

/-- `str(response.get("status") or response.get("order_status") or default)`. -/
def VenueStatus.raw (s : VenueStatus) (default : String) : String :=
  match s.status, s.orderStatus with
  | some text, other => if text ≠ "" then text else (other.filter (· ≠ "")).getD default
  | none, other => (other.filter (· ≠ "")).getD default

/-- An order the venue accepted: the id it was placed under, whether the venue lists it as
open, and the status it reports. -/
structure VenueOrder where
  clientOrderId : String
  listed : Bool
  reported : VenueStatus
  deriving DecidableEq, Repr

/-- How `place_order` ends: the venue refuses, accepts with a response, or accepts and the
response does not arrive. -/
inductive Placement where
  | refused (e : PyException)
  | accepted (response : VenueStatus)
  | lost (e : PyException)
  deriving DecidableEq, Repr

/-- What the calls of one stretch get from outside. -/
structure WebullAnswers where
  newClientOrderId : String
  placement : Placement
  listFails : Bool
  detailFails : String → Bool
  cancelFails : Option PyException

/-- The network works, and the venue accepts an order under the given id. -/
def WebullAnswers.accepting (id : String) : WebullAnswers :=
  { newClientOrderId := id
    placement := .accepted ⟨some "SUBMITTED", none⟩
    listFails := false
    detailFails := fun _ ↦ false
    cancelFails := none }

/-- `WebullClient`. An order with an intent has an order object.
Source `joker/broker/webull.py:49–217`. -/
structure Webull where
  orders : Dict String BrokerOrder
  intentByOrder : Dict String OrderIntent
  venue : List VenueOrder
  mapped : ∀ id, orders.get? id = none → intentByOrder.get? id = none

/-- `map_webull_order_status`. Source `joker/broker/webull_trade_api.py:161–174`. -/
def mapWebullOrderStatus (raw : String) : BrokerStatus :=
  let value := upper (strip raw)
  if value ∈ ["FILLED", "FILLED_ALL", "COMPLETED"] then .filled
  else if value ∈ ["CANCELLED", "CANCELED", "CANCEL"] then .cancelled
  else if value ∈ ["REJECTED", "FAILED", "EXPIRED"] then .rejected
  else if value ∈ ["PENDING", "SUBMITTED", "WORKING", "PARTIAL_FILLED", "OPEN", ""] then
    if value ≠ "" then .open else .pending
  else if value ∈ ["PENDING_SUBMIT", "WAIT"] then .pending
  else .open

/-- The checks of `build_option_limit_order_payload`.
Source `joker/broker/webull_trade_api.py:109–158`. -/
def checkPayload (intent : OrderIntent) (clientOrderId : String) : Option PyException :=
  let configError (text : String) : Option PyException := some ⟨"WebullTradeConfigError", text⟩
  if intent.orderType ≠ .limit then
    configError "Webull options only support LIMIT (or stop variants); market orders rejected."
  else if (intent.limitPrice.all (fun price ↦ price.toRat ≤ 0)) = true then
    configError "limit_price is required for option orders"
  else if intent.quantity < 1 then configError "quantity must be >= 1"
  else if 32 < clientOrderId.length then configError "client_order_id must be <= 32 characters"
  else none

namespace Webull

/-- The client of a new process: the maps are empty, the venue is as it was. -/
def restart (b : Webull) : Webull :=
  { orders := Dict.empty, intentByOrder := Dict.empty, venue := b.venue, mapped := fun _ _ ↦ rfl }

/-- A client without orders at a venue without orders. -/
def new : Webull := ⟨Dict.empty, Dict.empty, [], fun _ _ ↦ rfl⟩

/-- `self._orders[id] = order`. -/
def setOrder (b : Webull) (id : String) (order : BrokerOrder) : Webull :=
  { b with
    orders := b.orders.set id order
    mapped := by
      intro k hk
      rw [Dict.get?_set] at hk
      split at hk
      · cases hk
      · exact b.mapped k hk }

/-- The two assignments at the end of `submit_order`. -/
def addOrder (b : Webull) (id : String) (order : BrokerOrder) (intent : OrderIntent) : Webull :=
  { b.setOrder id order with
    intentByOrder := b.intentByOrder.set id intent
    mapped := by
      intro k hk
      have hi := (b.setOrder id order).mapped k hk
      change (b.orders.set id order).get? k = none at hk
      rw [Dict.get?_set] at hk ⊢
      split at hk
      · cases hk
      · next hne =>
        rw [if_neg hne]
        exact hi }

/-- The venue accepts an order. -/
def accept (b : Webull) (row : VenueOrder) : Webull := { b with venue := b.venue ++ [row] }

/-- The exception that `submit_order` raises for one of its `try` block. -/
def submitError (e : PyException) : PyException :=
  if e.typeName = "WebullTradeConfigError" then brokerError e.text
  else brokerError ("Webull place order failed: " ++ e.text)

/-- `submit_order`. Source `joker/broker/webull.py:75–102`. -/
def submitOrder (intent : OrderIntent) (answers : WebullAnswers) (b : Webull) :
    Webull × Except PyException BrokerOrder :=
  match checkPayload intent answers.newClientOrderId with
  | some e => (b, .error (submitError e))
  | none =>
    match answers.placement with
    | .refused e => (b, .error (submitError e))
    | .lost e =>
      (b.accept ⟨answers.newClientOrderId, true, ⟨none, none⟩⟩, .error (submitError e))
    | .accepted response =>
      let order := BrokerOrder.ofIntent answers.newClientOrderId
        (mapWebullOrderStatus (response.raw "SUBMITTED")) intent
      ((b.accept ⟨answers.newClientOrderId, true, response⟩).addOrder answers.newClientOrderId
        order intent, .ok order)

/-- `get_order_detail`: `none` when it raises. -/
def detail (b : Webull) (answers : WebullAnswers) (id : String) : Option VenueStatus :=
  if answers.detailFails id then none
  else (b.venue.find? (fun row ↦ row.clientOrderId = id)).map (fun row ↦ row.reported)

/-- The order an object keeps under an id from now on, and returns. -/
def keep (b : Webull) (id : String) (order : BrokerOrder) : Webull × Option BrokerOrder :=
  (b.setOrder id order, some order)

/-- `get_order`. Source `joker/broker/webull.py:129–154`. -/
def getOrder (answers : WebullAnswers) (id : String) (b : Webull) :
    Webull × Option BrokerOrder :=
  match b.detail answers id with
  | none => (b, b.orders.get? id)
  | some reported =>
    match b.orders.get? id with
    | some order => b.keep id { order with status := mapWebullOrderStatus (reported.raw "") }
    | none =>
      match b.intentByOrder.get? id with
      | none => (b, none)
      | some intent =>
        b.keep id (BrokerOrder.ofIntent id (mapWebullOrderStatus (reported.raw "")) intent)

/-- `local.status in {"open", "pending"}`. -/
def isWorking (order : BrokerOrder) : Bool := order.status = .open || order.status = .pending

/-- An order in front of a list, if it exists and is working. -/
def consWorking (order : Option BrokerOrder) (rest : List BrokerOrder) : List BrokerOrder :=
  (order.filter isWorking).toList ++ rest

/-- The loop of `list_open_orders` over the listed ids. -/
def gather (answers : WebullAnswers) : List String → Webull → Webull × List BrokerOrder
  | [], b => (b, [])
  | id :: ids, b =>
    if id = "" then gather answers ids b
    else
      ((gather answers ids (b.getOrder answers id).1).1,
        consWorking (b.getOrder answers id).2 (gather answers ids (b.getOrder answers id).1).2)

/-- `list_open_orders`: the first page of the venue's open orders, those known here.
Source `joker/broker/webull.py:156–169`. -/
def listOpenOrders (answers : WebullAnswers) (b : Webull) : Webull × List BrokerOrder :=
  if answers.listFails then (b, b.orders.values.filter isWorking)
  else
    gather answers (((b.venue.filter (fun row ↦ row.listed)).take 20).map
      (fun row ↦ row.clientOrderId)) b

/-- `cancel_order`; the venue reports the cancellation from then on.
Source `joker/broker/webull.py:104–127`. -/
def cancelOrder (answers : WebullAnswers) (id : String) (b : Webull) :
    Webull × Except PyException BrokerOrder :=
  match answers.cancelFails with
  | some e => (b, .error (brokerError ("Webull cancel failed: " ++ e.text)))
  | none =>
    match b.orders.get? id with
    | some order =>
      let cancelled := { order with status := .cancelled }
      (b.setOrder id cancelled, .ok cancelled)
    | none =>
      match b.intentByOrder.get? id with
      | none => (b, .error (brokerError ("Unknown local order_id: " ++ id)))
      | some intent =>
        let order := BrokerOrder.ofIntent id .cancelled intent
        (b.setOrder id order, .ok order)

end Webull

instance : BrokerClient Webull WebullAnswers where
  submitOrder intent answers := stretch (Webull.submitOrder intent answers)
  cancelOrder id answers := stretch (Webull.cancelOrder answers id)
  getOrder id answers := stretch (fun b ↦
    let r := b.getOrder answers id
    (r.1, .ok r.2))
  listOpenOrders answers := stretch (fun b ↦
    let r := b.listOpenOrders answers
    (r.1, .ok r.2))
  findOrderByIntentId := none
  orders b := some b.orders
  getFillPrice := none
  fills _ := none

namespace Webull

/-- The intents of the orders the object knows. -/
def intents (b : Webull) : List String := b.orders.values.map (fun order ↦ order.intentId)

private theorem intents_keep {b : Webull} {id : String} {order other : BrokerOrder}
    (h : b.orders.get? id = some other) (hi : order.intentId = other.intentId) :
    (b.keep id order).1.intents = b.intents := by
  unfold intents keep
  exact Dict.map_values_set (fun o : BrokerOrder ↦ o.intentId) b.orders h hi

private theorem eq_of_keep {b : Webull} {id : String} {order other : BrokerOrder}
    (h : (b.keep id order).2 = some other) : order = other := Option.some.inj h

/-- `get_order` refreshes a status and adds no order. -/
theorem intents_getOrder (answers : WebullAnswers) (id : String) (b : Webull) :
    (b.getOrder answers id).1.intents = b.intents := by
  unfold getOrder
  split
  · rfl
  · split
    · next order ho =>
      apply intents_keep ho
      rfl
    · next hn =>
      rw [b.mapped id hn]

private theorem venue_getOrder (answers : WebullAnswers) (id : String) (b : Webull) :
    (b.getOrder answers id).1.venue = b.venue := by
  unfold getOrder
  split
  · rfl
  · split
    · rfl
    · split <;> rfl

/-- The order `get_order` returns is one the object knows. -/
theorem mem_intents_of_getOrder {answers : WebullAnswers} {id : String} {b : Webull}
    {order : BrokerOrder} (h : (b.getOrder answers id).2 = some order) :
    order.intentId ∈ b.intents := by
  have hmem {o : BrokerOrder} (ho : b.orders.get? id = some o) : o.intentId ∈ b.intents :=
    List.mem_map_of_mem ((b.orders.mem_values_iff o).mpr ⟨id, ho⟩)
  unfold getOrder at h
  cases hd : b.detail answers id with
  | none =>
    rw [hd] at h
    exact hmem h
  | some reported =>
    cases ho : b.orders.get? id with
    | some o =>
      rw [hd, ho] at h
      rw [← eq_of_keep h]
      exact @hmem o ho
    | none =>
      rw [hd, ho, b.mapped id ho] at h
      cases h

private theorem intents_gather (answers : WebullAnswers) (ids : List String) (b : Webull) :
    (gather answers ids b).1.intents = b.intents := by
  induction ids generalizing b with
  | nil => rfl
  | cons id ids ih =>
    unfold gather
    split
    · exact ih b
    · exact (ih _).trans (intents_getOrder answers id b)

private theorem venue_gather (answers : WebullAnswers) (ids : List String) (b : Webull) :
    (gather answers ids b).1.venue = b.venue := by
  induction ids generalizing b with
  | nil => rfl
  | cons id ids ih =>
    unfold gather
    split
    · exact ih b
    · exact (ih _).trans (venue_getOrder answers id b)

private theorem mem_intents_of_gather {answers : WebullAnswers} {ids : List String} {b : Webull}
    {order : BrokerOrder} (h : order ∈ (gather answers ids b).2) : order.intentId ∈ b.intents := by
  induction ids generalizing b with
  | nil => cases h
  | cons id ids ih =>
    unfold gather at h
    split at h
    · exact ih h
    · rcases List.mem_append.mp h with hm | hm
      · rw [Option.mem_toList, Option.filter_eq_some_iff] at hm
        exact mem_intents_of_getOrder hm.1
      · rw [← intents_getOrder answers id b]
        exact ih hm

/-- Listing the open orders leaves the intents. -/
theorem intents_listOpenOrders (answers : WebullAnswers) (b : Webull) :
    (b.listOpenOrders answers).1.intents = b.intents := by
  unfold listOpenOrders
  split
  · rfl
  · exact intents_gather answers _ b

/-- Listing the open orders leaves the venue. -/
theorem venue_listOpenOrders (answers : WebullAnswers) (b : Webull) :
    (b.listOpenOrders answers).1.venue = b.venue := by
  unfold listOpenOrders
  split
  · rfl
  · exact venue_gather answers _ b

/-- Every order in the list is one the object knows. -/
theorem mem_intents_of_listOpenOrders {answers : WebullAnswers} {b : Webull}
    {order : BrokerOrder} (h : order ∈ (b.listOpenOrders answers).2) :
    order.intentId ∈ b.intents := by
  unfold listOpenOrders at h
  split at h
  · exact List.mem_map_of_mem (List.mem_filter.mp h).1
  · exact mem_intents_of_gather h

/-- The venue takes the order of an intent: the payload can be built, and it is not refused. -/
def Places (intent : OrderIntent) (answers : WebullAnswers) : Prop :=
  checkPayload intent answers.newClientOrderId = none ∧
    ∀ e, answers.placement ≠ .refused e

/-- `submit_order` adds an order to the venue exactly when the venue takes it. -/
theorem length_venue_submitOrder (intent : OrderIntent) (answers : WebullAnswers) (b : Webull) :
    (Places intent answers ∧
      (submitOrder intent answers b).1.venue.length = b.venue.length + 1) ∨
    (¬ Places intent answers ∧ (submitOrder intent answers b).1.venue = b.venue) := by
  unfold submitOrder Places
  cases hc : checkPayload intent answers.newClientOrderId with
  | some e => exact Or.inr ⟨fun h ↦ (nomatch h.1), rfl⟩
  | none =>
    cases hp : answers.placement with
    | refused e => exact Or.inr ⟨fun h ↦ h.2 e rfl, rfl⟩
    | lost e => exact Or.inl ⟨⟨rfl, fun _ h ↦ (nomatch h)⟩, List.length_append⟩
    | accepted response => exact Or.inl ⟨⟨rfl, fun _ h ↦ (nomatch h)⟩, List.length_append⟩

/-- Looking orders up leaves the venue. -/
theorem readOnly_venue : ReadOnly Webull.venue where
  getOrder id answers b := venue_getOrder answers id b
  listOpenOrders answers b := venue_listOpenOrders answers b
  finder _ h := nomatch h
  fillPrice _ h := nomatch h

end Webull

/-- The client finds what it holds in memory. -/
instance : SearchableBroker Webull where
  known := Webull.intents
  readOnly :=
    { getOrder := fun id answers b ↦ Webull.intents_getOrder answers id b
      listOpenOrders := fun answers b ↦ Webull.intents_listOpenOrders answers b
      finder := fun _ h ↦ nomatch h
      fillPrice := fun _ h ↦ nomatch h }
  searchable := by
    left
    intro b id h
    obtain ⟨order, hm, he⟩ := List.mem_map.mp h
    exact ⟨b.orders, rfl, order, hm, he⟩

end Joker.Broker
