import Joker.Base.Coroutine
import Joker.Broker.Domain

/-!
# Broker interface

Library `Broker`. `BrokerClient` of `joker/broker/interface.py` with the optional attributes the
execution runtime probes for. A method runs without awaiting; its last argument holds what the
call gets from outside the program: new ids, and the answers of a venue.
`RemembersOrders` is the contract of a broker that keeps every order it created and finds it by
its intent.
-/

namespace Joker.Broker

open Joker.Base

/-- Code of a broker's methods. -/
abbrev BrokerM (β α : Type) := Coro Unit β PyException α

/-- A stretch of a method: a new broker state, and a result or an exception. -/
def stretch {β α : Type} (f : β → β × Except PyException α) : BrokerM β α := Coro.atomic () f

/-- `BrokerClient`, and what `getattr` finds on a broker object; `none` is a missing attribute.
Source `joker/broker/interface.py:17–48`. -/
class BrokerClient (β : Type) (ω : outParam Type) where
  submitOrder : OrderIntent → ω → BrokerM β BrokerOrder
  cancelOrder : String → ω → BrokerM β BrokerOrder
  getOrder : String → ω → BrokerM β (Option BrokerOrder)
  listOpenOrders : ω → BrokerM β (List BrokerOrder)
  findOrderByIntentId : Option (String → ω → BrokerM β (Option BrokerOrder))
  orders : β → Option (Dict String BrokerOrder)
  getFillPrice : Option (String → ω → BrokerM β (Option PyFloat))
  fills : β → Option (Dict String Fill)

open BrokerClient

/-- The methods that only look leave a part of the broker as it was. -/
structure ReadOnly {β ω γ : Type} [BrokerClient β ω] (part : β → γ) : Prop where
  getOrder : ∀ id (answers : ω), (BrokerClient.getOrder id answers : BrokerM β _).Leaves part
  listOpenOrders : ∀ answers : ω, (BrokerClient.listOpenOrders answers : BrokerM β _).Leaves part
  finder : ∀ find ∈ @findOrderByIntentId β ω _, ∀ id answers, (find id answers).Leaves part
  fillPrice : ∀ price ∈ @getFillPrice β ω _, ∀ id answers, (price id answers).Leaves part

/-- A broker whose object finds orders by their intent ids. -/
class SearchableBroker (β : Type) {ω : outParam Type} [BrokerClient β ω] where
  /-- The intent ids of the orders the object can find. -/
  known : β → List String
  readOnly : ReadOnly known
  /-- Known orders are in the order map, or the finder returns them. -/
  searchable :
    (∀ (b : β), ∀ id ∈ known b,
      ∃ map, orders b = some map ∧ ∃ order ∈ map.values, order.intentId = id) ∨
    ∃ find ∈ findOrderByIntentId, ∀ (b : β), ∀ id ∈ known b,
      ∀ w, ∃ order, ((find id w).exec b).2 = .ok (some order)

/-- A broker that keeps every order it created: a submission that succeeds adds one order, one
that raises adds none. -/
class RemembersOrders (β : Type) {ω : outParam Type} [BrokerClient β ω] extends
    SearchableBroker β where
  submitOrder_ok : ∀ intent w (b b' : β) order,
    (submitOrder intent w).exec b = (b', .ok order) → known b' = known b ++ [intent.intentId]
  submitOrder_error : ∀ intent w (b b' : β) e,
    (submitOrder intent w).exec b = (b', .error e) → known b' = known b

/-! ### Paper broker -/

/-- What one `PaperBroker` call draws from `uuid4`. -/
structure PaperIds where
  orderId : String
  fillId : String

/-- `PaperBroker` without its cash and positions. The float arithmetic of
`_simulate_fill_price` is a parameter. Source `joker/broker/interface.py:51–166`. -/
structure PaperBroker where
  simulateFillPrice : OrderIntent → PyFloat
  orders : Dict String BrokerOrder
  fills : Dict String Fill
  usedOrderIds : List String
  used : ∀ id ∈ orders.keys, id ∈ usedOrderIds

namespace PaperBroker

/-- A new broker. -/
def new (simulateFillPrice : OrderIntent → PyFloat) : PaperBroker :=
  ⟨simulateFillPrice, Dict.empty, Dict.empty, [], fun _ h ↦ h⟩

/-- `_should_fill`. Source `joker/broker/interface.py:98–103`. -/
def shouldFill (intent : OrderIntent) (fillPrice : PyFloat) : Bool :=
  match intent.limitPrice with
  | none => true
  | some limit =>
    if intent.side = .buy then fillPrice.toRat ≤ limit.toRat else limit.toRat ≤ fillPrice.toRat

/-- `self._used_order_ids.add(order_id)`. -/
def useId (b : PaperBroker) (id : String) : PaperBroker :=
  { b with
    usedOrderIds := id :: b.usedOrderIds
    used := fun k hk ↦ List.mem_cons_of_mem _ (b.used k hk) }

/-- `self._orders[order_id] = order`, for an id in use. -/
def setOrder (b : PaperBroker) (id : String) (order : BrokerOrder) (h : id ∈ b.usedOrderIds) :
    PaperBroker :=
  { b with
    orders := b.orders.set id order
    used := by
      intro k hk
      obtain ⟨v, hv⟩ := (Dict.mem_keys_iff _ _).mp hk
      rw [Dict.get?_set] at hv
      split at hv
      · next he => exact he ▸ h
      · exact b.used k ((Dict.mem_keys_iff _ _).mpr ⟨v, hv⟩) }

/-- `submit_order`: the order is open, and a limit order that crosses is filled at once.
Source `joker/broker/interface.py:70–91`. -/
def submitOrder (intent : OrderIntent) (ids : PaperIds) (b : PaperBroker) :
    PaperBroker × Except PyException BrokerOrder :=
  if ids.orderId ∈ b.usedOrderIds then
    (b, .error (brokerError ("Duplicate order ID rejected: " ++ ids.orderId)))
  else
    let fillPrice := b.simulateFillPrice intent
    let crosses := intent.orderType = .limit ∧ intent.limitPrice.isSome = true ∧
      shouldFill intent fillPrice = true
    let order := BrokerOrder.ofIntent ids.orderId (if crosses then .filled else .open) intent
    let fill : Fill := ⟨ids.fillId, ids.orderId, fillPrice, intent.quantity⟩
    let b' := (b.useId ids.orderId).setOrder ids.orderId order List.mem_cons_self
    ({ b' with fills := if crosses then b'.fills.set ids.fillId fill else b'.fills }, .ok order)

/-- `cancel_order`. Source `joker/broker/interface.py:134–141`. -/
def cancelOrder (id : String) (b : PaperBroker) : PaperBroker × Except PyException BrokerOrder :=
  match h : b.orders.get? id with
  | none => (b, .error (brokerError ("Order not found: " ++ id)))
  | some order =>
    if order.status = .filled then
      (b, .error (brokerError ("Cannot cancel filled order: " ++ id)))
    else
      let cancelled := { order with status := .cancelled }
      (b.setOrder id cancelled (b.used id ((Dict.mem_keys_iff _ _).mpr ⟨order, h⟩)), .ok cancelled)

/-- `get_fill_price`. Source `joker/broker/interface.py:161–166`. -/
def getFillPrice (id : String) (b : PaperBroker) : Option PyFloat :=
  (b.fills.values.find? (fun fill ↦ fill.orderId = id)).map (fun fill ↦ fill.price)

end PaperBroker

instance : BrokerClient PaperBroker PaperIds where
  submitOrder intent ids := stretch (PaperBroker.submitOrder intent ids)
  cancelOrder id _ := stretch (PaperBroker.cancelOrder id)
  getOrder id _ := stretch (fun b ↦ (b, .ok (b.orders.get? id)))
  listOpenOrders _ := stretch (fun b ↦
    (b, .ok (b.orders.values.filter (fun order ↦ order.status = .open))))
  findOrderByIntentId := none
  orders b := some b.orders
  getFillPrice := some (fun id _ ↦ stretch (fun b ↦ (b, .ok (b.getFillPrice id))))
  fills b := some b.fills

/-- `PaperBroker` keeps its orders for good. -/
instance : RemembersOrders PaperBroker where
  known b := b.orders.values.map (fun order ↦ order.intentId)
  readOnly :=
    { getOrder := fun _ _ _ ↦ rfl
      listOpenOrders := fun _ _ ↦ rfl
      finder := fun _ h ↦ nomatch h
      fillPrice := by
        rintro _ ⟨⟩ id answers b
        rfl }
  searchable := by
    left
    intro b id h
    obtain ⟨order, hm, he⟩ := List.mem_map.mp h
    exact ⟨b.orders, rfl, order, hm, he⟩
  submitOrder_ok intent w b b' order h := by
    change PaperBroker.submitOrder intent w b = _ at h
    unfold PaperBroker.submitOrder at h
    split at h
    · cases h
    · next hfresh =>
      have habs : b.orders.get? w.orderId = none := by
        apply (Dict.not_mem_keys_iff _ _).mp
        exact fun hk ↦ hfresh (b.used _ hk)
      cases h
      change ((b.orders.set w.orderId _).entries.map Prod.snd).map _ = _
      rw [Dict.entries_set_of_absent _ _ _ habs, List.map_append, List.map_append]
      rfl
  submitOrder_error intent w b b' e h := by
    change PaperBroker.submitOrder intent w b = _ at h
    unfold PaperBroker.submitOrder at h
    split at h
    · cases h
      rfl
    · cases h

end Joker.Broker
