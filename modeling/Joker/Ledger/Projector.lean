import Mathlib.Algebra.Order.Group.Unbundled.Abs
import Mathlib.Data.Finset.Insert
import Joker.Base.Decimal
import Joker.Base.DecimalContext
import Joker.Ledger.Schemas

/-!
# Ledger projector

Library `Ledger`. Orders, positions and realised P&L replayed from the event sequence, after
`joker/ledger/projector.py`. Every operation on `Decimal`s is rounded by the decimal context, which
is an instance: the theorems that open `ExactArithmetic` are about a projector that does not round,
those that open `DefaultContext` about Python's 28 digits. The only step that can raise is a
correction whose `absolute_quantity` is not a numeral; replay then has no result.
-/

namespace Joker.Ledger

open Joker.Base

/-- `OrderStatus`. Source `joker/ledger/projector.py:18–26`. -/
inductive OrderStatus where
  | submitted
  | accepted
  | partiallyFilled
  | filled
  | cancelled
  | rejected
  deriving DecidableEq, Repr

/-- The enumeration's string value. -/
def OrderStatus.value : OrderStatus → String
  | .submitted => "submitted"
  | .accepted => "accepted"
  | .partiallyFilled => "partially_filled"
  | .filled => "filled"
  | .cancelled => "cancelled"
  | .rejected => "rejected"

/-- `OrderStatus(text)`; an unknown text is a `ValueError`. -/
def OrderStatus.ofValue (text : String) : Option OrderStatus :=
  [OrderStatus.submitted, .accepted, .partiallyFilled, .filled, .cancelled, .rejected].find?
    (fun s ↦ s.value = text)

/-- `OrderLifecycle`, and `_MutableOrder` while replaying: both have these fields.
Source `joker/ledger/projector.py:29–42, 423–467`. -/
structure OrderLifecycle where
  clientOrderId : String
  status : OrderStatus
  submittedQty : ℚ
  filledQty : ℚ
  avgFillPrice : Option ℚ
  fees : ℚ
  side : Side
  contractId : String
  brokerOrderId : Option String
  deriving DecidableEq

/-- `PositionState`, and `_MutablePosition` while replaying.
Source `joker/ledger/projector.py:45–56, 470–499`. -/
structure PositionState where
  contractId : String
  quantity : ℚ
  avgPrice : Option ℚ
  realizedPnl : ℚ
  fees : ℚ
  isOpen : Bool
  positionId : Option String
  deriving DecidableEq

/-- `ProjectionState`. Source `joker/ledger/projector.py:59–68`. -/
structure ProjectionState where
  orders : Dict String OrderLifecycle
  positions : Dict String PositionState
  capitalUsage : ℚ
  seenEventIds : Finset Uuid
  seenIdempotencyKeys : Finset String
  deriving DecidableEq

/-- The two dictionaries `_apply` mutates. -/
structure Tables where
  orders : Dict String OrderLifecycle
  positions : Dict String PositionState

/-- `decimal.InvalidOperation`, the one exception replay can raise. -/
inductive ProjectorError where
  | invalidOperation
  deriving DecidableEq, Repr

/-- `_MULTIPLIER`. Source `joker/ledger/projector.py:14`. -/
def multiplier : ℚ := 100

/-- The truth of an optional text: present and not empty. -/
def presentText (s : Option String) : Bool := s.any (fun t ↦ t ≠ "")

/-- A new `_MutableOrder`. Source `joker/ledger/projector.py:436–454`. -/
def OrderLifecycle.new (e : LedgerEvent) (submittedQty : ℚ) : OrderLifecycle :=
  { clientOrderId := e.clientOrderId
    status := .submitted
    submittedQty := submittedQty
    filledQty := 0
    avgFillPrice := none
    fees := 0
    side := e.side
    contractId := e.contractId
    brokerOrderId := e.brokerOrderId }

/-- A new `_MutablePosition`. Source `joker/ledger/projector.py:481–488`. -/
def PositionState.new (contractId : String) : PositionState :=
  { contractId := contractId
    quantity := 0
    avgPrice := none
    realizedPnl := 0
    fees := 0
    isOpen := false
    positionId := none }

/-- `_ensure_order` from what the dictionary holds: an order first seen in a fill takes the
fill's quantity as submitted, one first seen in any other event but a submission takes zero.
Source `joker/ledger/projector.py:270–291`. -/
def ensureOrder (e : LedgerEvent) (found : Option OrderLifecycle) : OrderLifecycle :=
  match found with
  | some order => order
  | none =>
    OrderLifecycle.new e
      (if e.eventType = .orderSubmissionRequested then e.quantity
        else if e.isFill then e.quantity else 0)

/-- `_ensure_position`. Source `joker/ledger/projector.py:294–302`. -/
def ensurePosition (contractId : String) (positions : Dict String PositionState) :
    PositionState :=
  (positions.get? contractId).getD (PositionState.new contractId)

/-- `if event.broker_order_id: order.broker_order_id = event.broker_order_id`. -/
def OrderLifecycle.noteBrokerOrderId (order : OrderLifecycle) (e : LedgerEvent) :
    OrderLifecycle :=
  if presentText e.brokerOrderId then { order with brokerOrderId := e.brokerOrderId } else order

/-- `_add_fees`; `withOrder` is false where the source passes no order.
Source `joker/ledger/projector.py:400–420`. -/
def addFees [DecimalContext] (withOrder : Bool) (e : LedgerEvent) (t : Tables) : Tables :=
  match e.fees with
  | none => t
  | some fees =>
    if fees = 0 then t
    else
      let orders := match withOrder, t.orders.get? e.clientOrderId with
        | true, some order =>
          t.orders.set e.clientOrderId { order with fees := rounded (order.fees + fees) }
        | _, _ => t.orders
      let positions := match t.positions.get? e.contractId with
        | some pos => t.positions.set e.contractId { pos with fees := rounded (pos.fees + fees) }
        | none =>
          if e.eventType ∈ [.positionOpened, .positionResized, .positionClosed, .feeRecorded]
          then
            let pos := PositionState.new e.contractId
            t.positions.set e.contractId { pos with fees := rounded (pos.fees + fees) }
          else t.positions
      ⟨orders, positions⟩

/-- The order after a submission: a new order, or an overwrite of the known one. -/
def submitOrder (e : LedgerEvent) (found : Option OrderLifecycle) : OrderLifecycle :=
  match found with
  | none => OrderLifecycle.new e e.quantity
  | some order =>
    let order := { order with
      submittedQty := e.quantity
      side := e.side
      contractId := e.contractId }
    let order := order.noteBrokerOrderId e
    if order.status ∈ [.filled, .cancelled, .rejected] then order
    else { order with status := .submitted }

/-- The submission branch of `_apply`. -/
def applySubmission [DecimalContext] (e : LedgerEvent) (t : Tables) : Tables :=
  addFees true e { t with
    orders := t.orders.set e.clientOrderId (submitOrder e (t.orders.get? e.clientOrderId)) }

/-- The order after an acceptance, with the back-fill of a zero submitted quantity. -/
def acceptOrder (e : LedgerEvent) (found : Option OrderLifecycle) : OrderLifecycle :=
  let order := (ensureOrder e found).noteBrokerOrderId e
  let order :=
    if 0 < e.quantity ∧ order.submittedQty = 0 then { order with submittedQty := e.quantity }
    else order
  if order.status ∈ [.filled, .cancelled, .rejected, .partiallyFilled] then order
  else { order with status := .accepted }

/-- The acceptance branch of `_apply`. -/
def applyAcceptance [DecimalContext] (e : LedgerEvent) (t : Tables) : Tables :=
  addFees true e { t with
    orders := t.orders.set e.clientOrderId (acceptOrder e (t.orders.get? e.clientOrderId)) }

/-- `_accumulate_fill`: the order after the fill and the quantity applied after the clamp.
Source `joker/ledger/projector.py:305–331`. -/
def accumulateFill [DecimalContext] (order : OrderLifecycle) (qty price : ℚ)
    (allowOverfill : Bool) : OrderLifecycle × ℚ :=
  let priorQty := order.filledQty
  let remaining := rounded (order.submittedQty - priorQty)
  let clamped := !allowOverfill && decide (0 < order.submittedQty)
  if clamped = true ∧ remaining ≤ 0 then (order, 0)
  else
    let applied := if clamped = true then min qty remaining else qty
    if applied ≤ 0 then (order, 0)
    else
      let newQty := rounded (priorQty + applied)
      let avg := match order.avgFillPrice with
        | none => price
        | some avg =>
          if priorQty ≤ 0 then price
          else rounded (rounded (rounded (avg * priorQty) + rounded (price * applied)) / newQty)
      ({ order with avgFillPrice := some avg, filledQty := newQty }, applied)

/-- `_resize_position`. Source `joker/ledger/projector.py:374–387`. -/
def resizePosition [DecimalContext] (pos : PositionState) (deltaQty price : ℚ) : PositionState :=
  let newQty := rounded (pos.quantity + deltaQty)
  match pos.avgPrice with
  | none =>
    { pos with
      quantity := newQty
      avgPrice := if newQty ≠ 0 then some price else none
      isOpen := decide (newQty ≠ 0) }
  | some avg =>
    if pos.quantity = 0 then
      { pos with
        quantity := newQty
        avgPrice := if newQty ≠ 0 then some price else none
        isOpen := decide (newQty ≠ 0) }
    else
      let absPrior := rounded |pos.quantity|
      let absDelta := rounded |deltaQty|
      { pos with
        avgPrice :=
          if newQty = 0 then none
          else some (rounded (rounded (rounded (avg * absPrior) + rounded (price * absDelta)) /
            rounded (absPrior + absDelta)))
        quantity := newQty
        isOpen := decide (newQty ≠ 0) }

/-- `_realize`. Source `joker/ledger/projector.py:390–397`. -/
def realize [DecimalContext] (pos : PositionState) (closeQty exitPrice : ℚ) : PositionState :=
  match pos.avgPrice with
  | none => pos
  | some avg =>
    if closeQty ≤ 0 then pos
    else
      let pnl :=
        if 0 < pos.quantity then
          rounded (rounded (rounded (exitPrice - avg) * closeQty) * multiplier)
        else rounded (rounded (rounded (avg - exitPrice) * closeQty) * multiplier)
      { pos with realizedPnl := rounded (pos.realizedPnl + pnl) }

/-- Realising P&L keeps the quantity. -/
@[simp] theorem quantity_realize [DecimalContext] (pos : PositionState) (closeQty exitPrice : ℚ) :
    (realize pos closeQty exitPrice).quantity = pos.quantity := by
  unfold realize
  cases pos.avgPrice with
  | none => rfl
  | some avg =>
    simp only
    split <;> rfl

/-- Realising P&L keeps the average price. -/
@[simp] theorem avgPrice_realize [DecimalContext] (pos : PositionState) (closeQty exitPrice : ℚ) :
    (realize pos closeQty exitPrice).avgPrice = pos.avgPrice := by
  unfold realize
  cases h : pos.avgPrice with
  | none => exact h
  | some avg =>
    simp only
    split
    · exact h
    · rfl

/-- The signed quantity of a fill: positive for buys, negative for sells. -/
def Side.signed (side : Side) (qty : ℚ) : ℚ :=
  match side with
  | .buy => qty
  | .sell => -qty

/-- `qty if side == "buy" else -qty`. -/
def Side.signedDecimal [DecimalContext] (side : Side) (qty : ℚ) : ℚ :=
  match side with
  | .buy => qty
  | .sell => rounded (-qty)

/-- `_apply_fill_to_position` on the fill's own position. A closing fill stops at zero.
Source `joker/ledger/projector.py:333–371`. -/
def fillPosition [DecimalContext] (e : LedgerEvent) (price appliedQty : ℚ) (pos : PositionState) :
    PositionState :=
  let signed := e.side.signedDecimal appliedQty
  if pos.quantity = 0 then
    { pos with
      quantity := signed
      avgPrice := some price
      isOpen := true
      positionId := if presentText e.positionId then e.positionId else pos.positionId }
  else if (0 < pos.quantity ∧ 0 < signed) ∨ (pos.quantity < 0 ∧ signed < 0) then
    resizePosition pos signed price
  else
    let closeQty := min (rounded |pos.quantity|) (rounded |signed|)
    let pos := if 0 < closeQty then realize pos closeQty price else pos
    let quantity :=
      if 0 < pos.quantity then rounded (pos.quantity - closeQty)
      else rounded (pos.quantity + closeQty)
    { pos with
      quantity := quantity
      isOpen := decide (quantity ≠ 0)
      avgPrice := if quantity = 0 then none else pos.avgPrice }

/-- `_apply_fill_to_position`. Source `joker/ledger/projector.py:333–371`. -/
def applyFillToPosition [DecimalContext] (e : LedgerEvent) (price appliedQty : ℚ)
    (positions : Dict String PositionState) : Dict String PositionState :=
  if appliedQty ≤ 0 then positions
  else positions.set e.contractId
    (fillPosition e price appliedQty (ensurePosition e.contractId positions))

/-- `bool(event.metadata.get("allow_overfill"))`. -/
def allowOverfill (e : LedgerEvent) : Bool :=
  (e.metadata.get? "allow_overfill").any MetaValue.truthy

/-- The order a fill accumulates into, and the quantity it applied there. -/
def fillOrder [DecimalContext] (e : LedgerEvent) (price : ℚ) (found : Option OrderLifecycle) :
    OrderLifecycle × ℚ :=
  accumulateFill ((ensureOrder e found).noteBrokerOrderId e) e.quantity price (allowOverfill e)

/-- The status of an order after a fill that applied something. -/
def fillStatus (e : LedgerEvent) (order : OrderLifecycle) : OrderStatus :=
  if e.eventType = .finalFill ∨ (0 < order.submittedQty ∧ order.submittedQty ≤ order.filledQty)
  then .filled else .partiallyFilled

/-- The fill branch of `_apply`: fills are the only source of position quantity and P&L. -/
def applyFill [DecimalContext] (e : LedgerEvent) (t : Tables) : Tables :=
  match e.price with
  | none => t
  | some price =>
    if e.quantity ≤ 0 then t
    else
      let filled := fillOrder e price (t.orders.get? e.clientOrderId)
      let order := filled.1
      let appliedQty := filled.2
      if appliedQty ≤ 0 then
        addFees true e { t with orders := t.orders.set e.clientOrderId order }
      else
        addFees true e
          { orders := t.orders.set e.clientOrderId { order with status := fillStatus e order }
            positions := applyFillToPosition e price appliedQty t.positions }

/-- The order after a cancellation. -/
def cancelOrder (e : LedgerEvent) (found : Option OrderLifecycle) : OrderLifecycle :=
  let order := ensureOrder e found
  if order.status ∈ [.filled, .rejected] then order else { order with status := .cancelled }

/-- The cancellation branch of `_apply`. -/
def applyCancellation [DecimalContext] (e : LedgerEvent) (t : Tables) : Tables :=
  addFees true e { t with
    orders := t.orders.set e.clientOrderId (cancelOrder e (t.orders.get? e.clientOrderId)) }

/-- The order after a rejection. -/
def rejectOrder (e : LedgerEvent) (found : Option OrderLifecycle) : OrderLifecycle :=
  let order := ensureOrder e found
  if order.status ∈ [.filled, .cancelled] then order else { order with status := .rejected }

/-- The rejection branch of `_apply`. -/
def applyRejection [DecimalContext] (e : LedgerEvent) (t : Tables) : Tables :=
  addFees true e { t with
    orders := t.orders.set e.clientOrderId (rejectOrder e (t.orders.get? e.clientOrderId)) }

/-- `str(event.metadata.get("correction_kind", ""))`. -/
def correctionKindOf (e : LedgerEvent) : String :=
  ((e.metadata.get? "correction_kind").map MetaValue.text).getD ""

/-- The order part of `_apply_correction`: a status the enumeration knows is taken over, and a
filled quantity rewrites the status with it. -/
def correctOrder (e : LedgerEvent) (order : OrderLifecycle) : OrderLifecycle :=
  if correctionKindOf e = "order_status" then
    match e.metadata.get? "status" with
    | some (.str text) =>
      match OrderStatus.ofValue text with
      | some status => { order with status := status }
      | none => order
    | _ => order
  else if correctionKindOf e = "order_fill_qty" then
    let order := { order with
      filledQty := e.quantity
      avgFillPrice := match e.price with
        | some price => some price
        | none => order.avgFillPrice }
    if 0 < order.submittedQty ∧ order.submittedQty ≤ order.filledQty then
      { order with status := .filled }
    else if 0 < order.filledQty then { order with status := .partiallyFilled }
    else order
  else order

/-- The quantity a position correction sets: `Decimal(str(metadata["absolute_quantity"]))` when
the key is present, else the event's signed quantity. -/
def correctedQuantity [DecimalContext] (e : LedgerEvent) : Except ProjectorError ℚ :=
  match e.metadata.get? "absolute_quantity" with
  | some value =>
    match Decimal.ofStr value.text with
    | some d => .ok d.toRat
    | none => .error .invalidOperation
  | none => .ok (e.side.signedDecimal e.quantity)

/-- The position part of `_apply_correction`. -/
def correctPosition (e : LedgerEvent) (quantity : ℚ) (pos : PositionState) : PositionState :=
  { pos with
    quantity := quantity
    avgPrice :=
      if quantity = 0 then none
      else match e.price with
        | some price => some price
        | none => pos.avgPrice
    isOpen := decide (quantity ≠ 0) }

/-- `_apply_correction`. Source `joker/ledger/projector.py:230–268`. -/
def applyCorrection [DecimalContext] (e : LedgerEvent) (t : Tables) :
    Except ProjectorError Tables :=
  let orders := match t.orders.get? e.clientOrderId with
    | some order => t.orders.set e.clientOrderId (correctOrder e order)
    | none => t.orders
  if correctionKindOf e = "position_quantity" then
    match correctedQuantity e with
    | .ok quantity =>
      .ok (addFees true e
        { orders := orders
          positions := t.positions.set e.contractId
            (correctPosition e quantity (ensurePosition e.contractId t.positions)) })
    | .error err => .error err
  else .ok (addFees true e { t with orders := orders })

/-- `_apply`. Source `joker/ledger/projector.py:111–228`. -/
def applyEvent [DecimalContext] (e : LedgerEvent) (t : Tables) : Except ProjectorError Tables :=
  match e.eventType with
  | .orderSubmissionRequested => .ok (applySubmission e t)
  | .brokerOrderAccepted => .ok (applyAcceptance e t)
  | .partialFill | .finalFill => .ok (applyFill e t)
  | .cancellation => .ok (applyCancellation e t)
  | .rejection => .ok (applyRejection e t)
  | .feeRecorded => .ok (addFees true e t)
  | .positionOpened | .positionResized | .positionClosed => .ok (addFees false e t)
  | .reconciliationCorrection => applyCorrection e t

/-- The loop state of `project`. -/
structure Replay where
  tables : Tables
  seenIds : Finset Uuid
  seenKeys : Finset String

/-- The loop state before the first event. -/
def Replay.start : Replay := ⟨⟨Dict.empty, Dict.empty⟩, ∅, ∅⟩

/-- An event the loop has not met, by id and by idempotency key. -/
def Replay.Fresh (r : Replay) (e : LedgerEvent) : Prop :=
  e.ledgerEventId ∉ r.seenIds ∧ e.idempotencyKey ∉ r.seenKeys

instance (r : Replay) (e : LedgerEvent) : Decidable (r.Fresh e) :=
  inferInstanceAs (Decidable (_ ∧ _))

/-- One turn of the loop of `project`: duplicates are skipped. -/
def Replay.step [DecimalContext] (r : Replay) (e : LedgerEvent) : Except ProjectorError Replay :=
  if r.Fresh e then
    match applyEvent e r.tables with
    | .ok tables =>
      .ok ⟨tables, insert e.ledgerEventId r.seenIds, insert e.idempotencyKey r.seenKeys⟩
    | .error err => .error err
  else .ok r

/-- The loop of `project`. -/
def replay [DecimalContext] (r : Replay) : List LedgerEvent → Except ProjectorError Replay
  | [] => .ok r
  | e :: rest =>
    match r.step e with
    | .ok r => replay r rest
    | .error err => .error err

/-- `_MutablePosition.to_model`. Source `joker/ledger/projector.py:490–499`. -/
def PositionState.toModel (pos : PositionState) : PositionState :=
  { pos with isOpen := pos.isOpen && decide (pos.quantity ≠ 0) }

private theorem keys_map_values {V W : Type} (f : V → W) (xs : List (String × V)) :
    (xs.map (fun e ↦ (e.1, f e.2))).map Prod.fst = xs.map Prod.fst := by
  rw [List.map_map]
  rfl

/-- `{k: v.to_model() for k, v in positions.items()}`. -/
def frozenPositions (positions : Dict String PositionState) : Dict String PositionState :=
  ⟨positions.entries.map (fun e ↦ (e.1, e.2.toModel)), by
    rw [keys_map_values]
    exact positions.nodup⟩

/-- The capital loop of `project`. -/
def capitalUsage [DecimalContext] (positions : List PositionState) : ℚ :=
  positions.foldl (fun capital pos ↦
    match pos.avgPrice with
    | some avg =>
      if pos.isOpen then
        rounded (capital + rounded (rounded (rounded |pos.quantity| * avg) * multiplier))
      else capital
    | none => capital) 0

/-- The result `project` builds from the final loop state. -/
def Replay.freeze [DecimalContext] (r : Replay) : ProjectionState :=
  let positions := frozenPositions r.tables.positions
  { orders := r.tables.orders
    positions := positions
    capitalUsage := capitalUsage positions.values
    seenEventIds := r.seenIds
    seenIdempotencyKeys := r.seenKeys }

/-- `LedgerProjector.project`. Source `joker/ledger/projector.py:83–109`. -/
def project [DecimalContext] (events : List LedgerEvent) : Except ProjectorError ProjectionState :=
  match replay Replay.start events with
  | .ok r => .ok r.freeze
  | .error err => .error err

end Joker.Ledger
