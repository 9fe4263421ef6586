import Joker.Ledger.Projector

/-!
# Broker reconciliation

Library `Ledger`. `joker/ledger/reconciliation.py`: the projection compared with the broker's
open orders and positions, and the correction events of a report. What the source draws at
run time (the clock, report and event ids) is an argument. Broker amounts keep their numerals
because a correction prints them.
-/

namespace Joker.Ledger

open Joker.Base

/-- `ReconciliationOutcome`. Source `joker/ledger/reconciliation.py:18–27`. -/
inductive ReconciliationOutcome where
  | consistent
  | missingBrokerOrder
  | unknownBrokerOrder
  | quantityMismatch
  | statusMismatch
  | missingBrokerPosition
  | unexpectedBrokerPosition
  deriving DecidableEq, Repr

/-- The enumeration's string value. -/
def ReconciliationOutcome.value : ReconciliationOutcome → String
  | .consistent => "consistent"
  | .missingBrokerOrder => "missing_broker_order"
  | .unknownBrokerOrder => "unknown_broker_order"
  | .quantityMismatch => "quantity_mismatch"
  | .statusMismatch => "status_mismatch"
  | .missingBrokerPosition => "missing_broker_position"
  | .unexpectedBrokerPosition => "unexpected_broker_position"

/-- `BrokerOpenOrderView`. Source `joker/ledger/reconciliation.py:30–41`. -/
structure BrokerOpenOrderView where
  brokerOrderId : String
  clientOrderId : Option String
  contractId : String
  side : Side
  quantity : Decimal
  filledQty : Decimal
  status : String
  deriving DecidableEq

/-- `BrokerPositionView`. Source `joker/ledger/reconciliation.py:44–51`. -/
structure BrokerPositionView where
  contractId : String
  quantity : Decimal
  avgPrice : Option Decimal
  deriving DecidableEq

/-- `ReconciliationFinding`. Source `joker/ledger/reconciliation.py:54–66`. -/
structure ReconciliationFinding where
  outcome : ReconciliationOutcome
  entityType : String
  entityId : String
  detail : String
  projectedQuantity : Option ℚ
  brokerQuantity : Option Decimal
  projectedStatus : Option String
  brokerStatus : Option String
  deriving DecidableEq

/-- `ReconciliationReport`. Source `joker/ledger/reconciliation.py:69–134`. -/
structure ReconciliationReport where
  reportId : Uuid
  sessionId : String
  exchangeTimestamp : Datetime
  findings : List ReconciliationFinding
  isConsistent : Bool
  deriving DecidableEq

/-- `ReconciliationError`. -/
inductive ReconciliationError where
  | sessionIdRequired
  | timestampNotAware
  deriving DecidableEq, Repr

/-- The error's message. -/
def ReconciliationError.message : ReconciliationError → String
  | .sessionIdRequired => "session_id is required"
  | .timestampNotAware => "exchange_timestamp must be timezone-aware"

/-! ### Orders -/

/-- `status in _ACTIVE_ORDER_STATUSES`. -/
def OrderStatus.active (status : OrderStatus) : Bool :=
  status ∈ [OrderStatus.submitted, .accepted, .partiallyFilled]

/-- `_STATUS_ALIASES`. Source `joker/ledger/reconciliation.py:165–172`. -/
def statusAliases : OrderStatus → List String
  | .submitted => ["submitted", "pending", "new", "open"]
  | .accepted => ["accepted", "working", "open", "new", "partially_filled"]
  | .partiallyFilled => ["partially_filled", "partial", "open", "working"]
  | .filled => ["filled", "complete", "completed"]
  | .cancelled => ["cancelled", "canceled"]
  | .rejected => ["rejected"]

/-- `_statuses_compatible`. Source `joker/ledger/reconciliation.py:175–177`. -/
def statusesCompatible (projected : OrderStatus) (brokerStatus : String) : Bool :=
  lower (strip brokerStatus) ∈ statusAliases projected

/-- Every status is an alias of itself. -/
theorem statusesCompatible_self (status : OrderStatus) :
    statusesCompatible status status.value = true := by
  cases status <;> decide

/-- `_compare_order`. Source `joker/ledger/reconciliation.py:327–371`. -/
def compareOrder (order : OrderLifecycle) (brokerOrder : BrokerOpenOrderView) :
    List ReconciliationFinding :=
  let finding (outcome : ReconciliationOutcome) (detail : String) : ReconciliationFinding :=
    { outcome := outcome
      entityType := "order"
      entityId := order.clientOrderId
      detail := detail
      projectedQuantity := some order.filledQty
      brokerQuantity := some brokerOrder.filledQty
      projectedStatus := some order.status.value
      brokerStatus := some brokerOrder.status }
  let findings :=
    (if order.filledQty ≠ brokerOrder.filledQty.toRat then
      [finding .quantityMismatch "filled/remaining quantity mismatch"] else []) ++
    (if statusesCompatible order.status brokerOrder.status = false then
      [finding .statusMismatch "order status mismatch"] else [])
  if findings = [] then [finding .consistent "order matches broker"] else findings

/-- `projected_active`. Source `joker/ledger/reconciliation.py:205–209`. -/
def projectedActive (projection : ProjectionState) : List (String × OrderLifecycle) :=
  projection.orders.entries.filter (fun e ↦ e.2.status.active)

/-- `broker_by_broker_id`. Source `joker/ledger/reconciliation.py:211`. -/
def brokerByBrokerId (brokerOrders : List BrokerOpenOrderView) :
    Dict String BrokerOpenOrderView :=
  Dict.ofList (brokerOrders.map (fun bo ↦ (bo.brokerOrderId, bo)))

/-- The client order id a broker order is filed under: present and not empty. -/
def BrokerOpenOrderView.clientKey (bo : BrokerOpenOrderView) : Option String :=
  bo.clientOrderId.filter (fun t ↦ t ≠ "")

/-- `broker_by_client`. Source `joker/ledger/reconciliation.py:210`. -/
def brokerByClient (brokerOrders : List BrokerOpenOrderView) : Dict String BrokerOpenOrderView :=
  Dict.ofList (brokerOrders.filterMap (fun bo ↦ bo.clientKey.map (fun k ↦ (k, bo))))

/-- The broker order a projected order is compared with: by client id, else by broker id. -/
def findBrokerOrder (brokerOrders : List BrokerOpenOrderView) (clientOrderId : String)
    (order : OrderLifecycle) : Option BrokerOpenOrderView :=
  match (brokerByClient brokerOrders).get? clientOrderId with
  | some bo => some bo
  | none =>
    match order.brokerOrderId with
    | some brokerOrderId =>
      if brokerOrderId ≠ "" then (brokerByBrokerId brokerOrders).get? brokerOrderId else none
    | none => none

/-- The findings of one projected active order. -/
def activeOrderFindings (brokerOrders : List BrokerOpenOrderView)
    (entry : String × OrderLifecycle) : List ReconciliationFinding :=
  match findBrokerOrder brokerOrders entry.1 entry.2 with
  | none =>
    [{ outcome := .missingBrokerOrder
       entityType := "order"
       entityId := entry.1
       detail := "projected active order not found at broker"
       projectedQuantity := some (entry.2.submittedQty - entry.2.filledQty)
       brokerQuantity := none
       projectedStatus := some entry.2.status.value
       brokerStatus := none }]
  | some bo => compareOrder entry.2 bo

/-- `matched_broker_ids` after the first loop. Source `joker/ledger/reconciliation.py:217`. -/
def matchedBrokerIds (projection : ProjectionState) (brokerOrders : List BrokerOpenOrderView) :
    List String :=
  (projectedActive projection).filterMap
    (fun e ↦ (findBrokerOrder brokerOrders e.1 e.2).map (fun bo ↦ bo.brokerOrderId))

/-- `known` in the second loop: some projected order, of any status, has one of the ids.
Source `joker/ledger/reconciliation.py:241`. -/
def isKnown (projection : ProjectionState) (bo : BrokerOpenOrderView) : Bool :=
  (bo.clientKey.any (fun k ↦ (projection.orders.get? k).isSome)) ||
    projection.orders.values.any (fun o ↦ o.brokerOrderId = some bo.brokerOrderId)

/-- The findings of one broker order in the second loop. -/
def brokerOrderFindings (projection : ProjectionState) (matchedIds : List String)
    (bo : BrokerOpenOrderView) : List ReconciliationFinding :=
  if bo.brokerOrderId ∈ matchedIds then []
  else if isKnown projection bo then []
  else
    [{ outcome := .unknownBrokerOrder
       entityType := "order"
       entityId := bo.clientKey.getD bo.brokerOrderId
       detail := "broker open order not present in projected ledger"
       projectedQuantity := none
       brokerQuantity := some (bo.quantity.sub bo.filledQty)
       projectedStatus := none
       brokerStatus := some bo.status }]

/-! ### Positions -/

/-- `projected_open_positions`. Source `joker/ledger/reconciliation.py:260–262`. -/
def projectedOpenPositions (projection : ProjectionState) : List (String × PositionState) :=
  projection.positions.entries.filter (fun e ↦ e.2.isOpen && decide (e.2.quantity ≠ 0))

/-- `broker_pos_by_contract`. Source `joker/ledger/reconciliation.py:263`. -/
def brokerPosByContract (brokerPositions : List BrokerPositionView) :
    Dict String BrokerPositionView :=
  Dict.ofList (brokerPositions.map (fun bp ↦ (bp.contractId, bp)))

/-- A position finding. -/
def positionFinding (outcome : ReconciliationOutcome) (contractId detail : String)
    (projectedQuantity : Option ℚ) (brokerQuantity : Option Decimal) : ReconciliationFinding :=
  { outcome := outcome
    entityType := "position"
    entityId := contractId
    detail := detail
    projectedQuantity := projectedQuantity
    brokerQuantity := brokerQuantity
    projectedStatus := none
    brokerStatus := none }

/-- The finding of one projected open position. -/
def openPositionFinding (brokerPositions : List BrokerPositionView)
    (entry : String × PositionState) : ReconciliationFinding :=
  match (brokerPosByContract brokerPositions).get? entry.1 with
  | none =>
    positionFinding .missingBrokerPosition entry.1 "projected open position missing at broker"
      (some entry.2.quantity) none
  | some bp =>
    if bp.quantity.toRat ≠ entry.2.quantity then
      positionFinding .quantityMismatch entry.1
        "position quantity differs between ledger and broker"
        (some entry.2.quantity) (some bp.quantity)
    else
      positionFinding .consistent entry.1 "position quantity matches"
        (some entry.2.quantity) (some bp.quantity)

/-- The findings of one broker position in the last loop. -/
def brokerPositionFindings (openContracts : List String) (bp : BrokerPositionView) :
    List ReconciliationFinding :=
  if bp.quantity.toRat = 0 then []
  else if bp.contractId ∈ openContracts then []
  else
    [positionFinding .unexpectedBrokerPosition bp.contractId
      "broker position not open in projected ledger" none (some bp.quantity)]

/-! ### The report -/

/-- The position findings, in the order of the loops. -/
def positionFindings (projection : ProjectionState)
    (brokerPositions : List BrokerPositionView) : List ReconciliationFinding :=
  (projectedOpenPositions projection).map (openPositionFinding brokerPositions) ++
    brokerPositions.flatMap
      (brokerPositionFindings ((projectedOpenPositions projection).map Prod.fst))

/-- The order findings, in the order of the loops. -/
def orderFindings (projection : ProjectionState) (brokerOrders : List BrokerOpenOrderView) :
    List ReconciliationFinding :=
  (projectedActive projection).flatMap (activeOrderFindings brokerOrders) ++
    brokerOrders.flatMap (brokerOrderFindings projection (matchedBrokerIds projection brokerOrders))

/-- `BrokerReconciler.reconcile`; `now` and `reportId` are what the source draws.
Source `joker/ledger/reconciliation.py:187–324`. -/
def reconcile (sessionId : String) (projection : ProjectionState)
    (brokerOrders : List BrokerOpenOrderView) (brokerPositions : List BrokerPositionView)
    (exchangeTimestamp : Option Datetime) (now : Datetime) (reportId : Uuid) :
    Except ReconciliationError ReconciliationReport :=
  if strip sessionId = "" then .error .sessionIdRequired
  else
    let ts := exchangeTimestamp.getD now
    if ts.aware = false then .error .timestampNotAware
    else
      let findings := orderFindings projection brokerOrders ++
        positionFindings projection brokerPositions
      .ok
        { reportId := reportId
          sessionId := sessionId
          exchangeTimestamp := ts
          findings := findings
          isConsistent := findings.all (fun f ↦ f.outcome = .consistent) }

/-- A report lists the order findings, then the position findings. -/
theorem reconcile_eq_ok {sessionId : String} {projection : ProjectionState}
    {brokerOrders : List BrokerOpenOrderView} {brokerPositions : List BrokerPositionView}
    {ts : Option Datetime} {now : Datetime} {reportId : Uuid} {report : ReconciliationReport}
    (h : reconcile sessionId projection brokerOrders brokerPositions ts now reportId =
      .ok report) :
    report.findings = orderFindings projection brokerOrders ++
        positionFindings projection brokerPositions ∧
      report.isConsistent = report.findings.all (fun f ↦ f.outcome = .consistent) ∧
      report.reportId = reportId := by
  unfold reconcile at h
  split at h
  · cases h
  · simp only at h
    split at h
    · cases h
    · cases h
      exact ⟨rfl, rfl, rfl⟩

/-! ### Corrections -/

/-- `_correction_kind`. Source `joker/ledger/reconciliation.py:137–154`. -/
def correctionKind (finding : ReconciliationFinding) : String :=
  if finding.entityType = "position" then "position_quantity"
  else if finding.entityType = "order" then
    if finding.outcome = .quantityMismatch then "order_fill_qty" else "order_status"
  else if finding.outcome = .quantityMismatch then "order_fill_qty"
  else if finding.outcome ∈ [.statusMismatch, .missingBrokerOrder, .unknownBrokerOrder] then
    "order_status"
  else "position_quantity"

/-- `finding.broker_quantity or finding.projected_quantity or Decimal("0")`. -/
def correctionQuantity (finding : ReconciliationFinding) : ℚ :=
  match finding.brokerQuantity.map Decimal.toRat, finding.projectedQuantity with
  | some b, some p => if b ≠ 0 then b else p
  | some b, none => b
  | none, some p => p
  | none, none => 0

/-- `qty = abs(qty)` of a negative quantity. -/
def correctionAmount [DecimalContext] (quantity : ℚ) : ℚ :=
  if quantity < 0 then rounded |quantity| else quantity

/-- The metadata of a correction. -/
def correctionMetadata (finding : ReconciliationFinding) : Metadata :=
  let metadata := Dict.ofList
    [("correction_kind", MetaValue.str (correctionKind finding)),
      ("outcome", .str finding.outcome.value),
      ("entity_type", .str finding.entityType),
      ("entity_id", .str finding.entityId),
      ("detail", .str finding.detail)]
  let metadata := match finding.brokerStatus with
    | some status => metadata.set "status" (.str status)
    | none => metadata
  match finding.brokerQuantity with
  | some quantity =>
    if finding.entityType = "position" then
      metadata.set "absolute_quantity" (.str quantity.str)
    else metadata
  | none => metadata

/-- `f"recon:{report_id}:{outcome}:{entity_id}"`. -/
def correctionKey (reportId : Uuid) (finding : ReconciliationFinding) : String :=
  joinSep ':' "recon" (joinSep ':' reportId (joinSep ':' finding.outcome.value finding.entityId))

/-- The fields of the correction of one finding; `eventId` and `createdAt` are drawn. -/
def correctionFields [DecimalContext] (report : ReconciliationReport) (brokerAccountId : String)
    (sourceEventId : Option Uuid) (eventId : Uuid) (createdAt : Datetime)
    (finding : ReconciliationFinding) : EventFields :=
  let quantity := correctionQuantity finding
  { ledgerEventId := eventId
    brokerAccountId := brokerAccountId
    clientOrderId :=
      if finding.entityType = "order" then finding.entityId else "recon-" ++ finding.entityId
    brokerOrderId := none
    contractId := finding.entityId
    side := if quantity < 0 then .sell else .buy
    quantity := correctionAmount quantity
    price := none
    exchangeTimestamp := report.exchangeTimestamp
    sourceEventId := sourceEventId
    idempotencyKey := correctionKey report.reportId finding
    eventType := .reconciliationCorrection
    fees := none
    metadata := correctionMetadata finding
    sessionId := report.sessionId
    positionId := none
    createdAt := createdAt }

/-- The loop of `correction_events`; `fresh i` is the id and the creation time drawn for the
i-th event. -/
def correctionLoop [DecimalContext] (report : ReconciliationReport) (brokerAccountId : String)
    (sourceEventId : Option Uuid) (fresh : Nat → Uuid × Datetime) :
    Nat → List ReconciliationFinding → Option (List LedgerEvent)
  | _, [] => some []
  | i, finding :: rest =>
    if finding.outcome = .consistent then
      correctionLoop report brokerAccountId sourceEventId fresh i rest
    else
      match makeLedgerEvent (correctionFields report brokerAccountId sourceEventId
          (fresh i).1 (fresh i).2 finding) with
      | some e =>
        (correctionLoop report brokerAccountId sourceEventId fresh (i + 1) rest).map
          (fun es ↦ e :: es)
      | none => none

/-- `correction_events`; an event that does not validate raises, here `none`.
Source `joker/ledger/reconciliation.py:80–134`. -/
def ReconciliationReport.correctionEvents [DecimalContext] (report : ReconciliationReport)
    (brokerAccountId : String) (sourceEventId : Option Uuid) (fresh : Nat → Uuid × Datetime) :
    Option (List LedgerEvent) :=
  correctionLoop report brokerAccountId sourceEventId fresh 0 report.findings

end Joker.Ledger
