import Joker.Broker.ContractId
import Joker.Market.OptionSurface
import Joker.Runtime.ExecutionRuntime
import Joker.Runtime.WorkingOrders

/-!
# Order action gateway

Library `Runtime`. The checks of `joker/runtime/order_action_gateway.py`: a request is compiled
to a command when the snapshot's data quality, its option surface, the working orders and the
open positions allow it. A closing request that only the market data block is compiled without
them. `verdict` is what `submit` decides before it calls the execution runtime; the snapshot's
truth, the projection and the clock reading are its inputs.
-/

namespace Joker.Runtime

open Joker.Base Joker.Ledger Joker.Broker Joker.Market

/-- `OrderActionKind`. Source `joker/runtime/order_action_gateway.py:45–51`. -/
inductive OrderActionKind where
  | entry
  | probe
  | add
  | reduce
  | exit
  | replace
  deriving DecidableEq, Repr

/-- The enumeration's string value. -/
def OrderActionKind.value : OrderActionKind → String
  | .entry => "entry"
  | .probe => "probe"
  | .add => "add"
  | .reduce => "reduce"
  | .exit => "exit"
  | .replace => "replace"

/-- `OrderActionRequest`; the evidence ids are not read.
Source `joker/runtime/order_action_gateway.py:69–89`. -/
structure OrderActionRequest where
  action : OrderActionKind
  snapshotId : String
  contractId : String
  side : Side
  quantity : ℤ
  clientOrderId : String
  limitPrice : Option PyFloat
  orderType : Broker.OrderType
  maxQuoteAgeSeconds : Option ℤ
  proposalId : Option String
  decisionId : Option String
  strategyId : Option String
  cycleId : Option String
  replaceOfClientOrderId : Option String
  allowDegradedExit : Bool
  degradedExitReason : Option String
  brokerAccountId : String
  deriving DecidableEq

/-- `DataQualityReport`, as far as it is read. -/
structure DataQualityReport where
  severity : String
  usableForExecution : Bool
  deriving DecidableEq

/-- What `load_snapshot_truth` returns: the snapshot's trading date and surface id, its data
quality and its option surface. -/
structure SnapshotTruth where
  tradingDate : Date
  optionSurfaceId : Option Uuid
  dataQuality : Option DataQualityReport
  surface : Option OptionSurfaceSnapshot
  deriving DecidableEq

/-- An `OrderActionGateway` object: the runtime it submits to, its configuration, and the
readers of contract ids. Source `joker/runtime/order_action_gateway.py:209–597`. -/
structure OrderActionGateway where
  rt : ExecutionRuntime
  maxQuantity : ℤ
  reader : Reader

/-- What `submit` reads before it checks a request. -/
structure GatewayTruth where
  snapshot : SnapshotTruth
  working : List WorkingOrderTruth
  openPositions : Dict String PositionState
  submittedProposalIds : List String
  now : Datetime

namespace OrderActionGateway

/-! ### Checks -/

/-- The data quality gate. -/
def validateDataQuality (request : OrderActionRequest) (truth : SnapshotTruth) :
    Except String Unit :=
  if request.action ∈ [.entry, .probe, .add, .replace] then
    match truth.dataQuality with
    | none => .error "data quality does not permit execution (missing)"
    | some quality =>
      require (quality.usableForExecution = true)
        ("data quality does not permit execution (severity=" ++ quality.severity ++ ")")
  else .ok ()

/-- The option surface of the snapshot. -/
def validateSurface (truth : SnapshotTruth) : Except String OptionSurfaceSnapshot := do
  let surface ← orRaise truth.surface "referenced option surface does not exist"
  require (truth.optionSurfaceId = none ∨ truth.optionSurfaceId = some surface.surfaceId)
    "option surface id does not match snapshot.option_surface_id"
  pure surface

/-- The contract a request names. -/
def validateContract (reader : Reader) (request : OrderActionRequest) (truth : SnapshotTruth) :
    Except String OptionContract := do
  let contract ← parseContractId reader request.contractId (some truth.tradingDate)
  require (contract.symbol = "SPY") "only SPY contracts are supported"
  require (contract.expiration = truth.tradingDate)
    "contract expiry must equal the snapshot exchange trading date"
  require (contract.expiration = truth.tradingDate) "only 0DTE contracts are supported"
  pure contract

/-- `surface_by_id.get(contract_id)`: later rows overwrite. -/
def surfaceRow (surface : OptionSurfaceSnapshot) (contractId : String) :
    Option OptionContractSnapshot :=
  (Dict.ofList (surface.contracts.map (fun c ↦ (c.contractId, c)))).get? contractId

/-- `_validate_quote_age`. The stored age is always there, so the comparison of the quote
timestamp with the time `now` is never reached.
Source `joker/agents/cognitive/execution.py:293–313`,
`joker/runtime/order_action_gateway.py:577–597`. -/
def validateQuoteAge (maxQuoteAgeSeconds : Option ℤ) (row : OptionContractSnapshot)
    (_now : Datetime) : Except String Unit :=
  match maxQuoteAgeSeconds with
  | none => .ok ()
  | some limit =>
    require (row.quoteAgeMs ≤ limit * 1000)
      ("quote age " ++ toString row.quoteAgeMs ++ "ms exceeds proposal limit " ++
        toString limit ++ "s")

/-- The quantity is positive and at most the gateway's maximum. -/
def validateQuantity (maxQuantity : ℤ) (request : OrderActionRequest) : Except String Unit := do
  require (0 < request.quantity) "quantity must be positive"
  require (request.quantity ≤ maxQuantity)
    ("quantity " ++ toString request.quantity ++ " exceeds max_quantity=" ++ toString maxQuantity)

/-- The checks of an ENTRY or a PROBE; a PROBE may go to a contract with a position. -/
def validateEntry (request : OrderActionRequest) (truth : GatewayTruth) : Except String Unit := do
  require (hasWorkingEntryOrder truth.working = false)
    "conflicting working entry order exists; no additional entry"
  require (presentText request.proposalId = false ∨
      ∀ id ∈ request.proposalId, id ∉ truth.submittedProposalIds)
    "proposal/decision has already been submitted"
  require (presentText request.proposalId = false ∨
      ∀ order ∈ truth.working, order.proposalId ≠ request.proposalId)
    "conflicting active order exists for proposal"
  require (request.contractId ∉ truth.openPositions.keys ∨ request.action ≠ .entry)
    "conflicting active position exists for contract"
  require (request.side = .buy) "entry/probe requires buy side"

/-- The checks of an ADD. -/
def validateAdd (request : OrderActionRequest) (truth : GatewayTruth) : Except String Unit := do
  require (request.side = .buy) "ADD requires buy side"
  require (request.contractId ∈ truth.openPositions.keys)
    "ADD requires an authoritative open position"
  require (hasWorkingEntryOrder
      (truth.working.filter (fun order ↦ order.contractId = request.contractId)) = false)
    "conflicting working order exists for ADD contract"

/-- The checks of a REDUCE or an EXIT. -/
def validateClose (request : OrderActionRequest) (truth : GatewayTruth) : Except String Unit := do
  let pos ← orRaise (truth.openPositions.get? request.contractId)
    "REDUCE/EXIT requires an authoritative open position"
  require (request.side = .sell) "REDUCE/EXIT requires sell side"
  require (request.quantity ≤ pyInt pos.quantity)
    ("sell quantity " ++ toString request.quantity ++ " exceeds open quantity " ++
      toString (pyInt pos.quantity))
  require (∀ order ∈ truth.working, order.clientOrderId ≠ request.clientOrderId)
    "duplicate closing command"

/-- The checks of a REPLACE. -/
def validateReplace (request : OrderActionRequest) (truth : GatewayTruth) : Except String Unit := do
  require (presentText request.replaceOfClientOrderId = true)
    "replace requires replace_of_client_order_id"
  let prior ← orRaise (truth.working.find?
      (fun order ↦ some order.clientOrderId = request.replaceOfClientOrderId))
    "original order is not cancellable / not working"
  require (0 < prior.remainingQuantity) "no remaining quantity to replace"
  require (prior.contractId = request.contractId)
    "replacement contract must match original lifecycle"
  require (prior.side = request.side) "replacement side must match original lifecycle"
  require (request.quantity ≤ prior.remainingQuantity)
    "replacement quantity exceeds remaining authoritative quantity"

/-- The checks that depend on the action. -/
def validateAction (request : OrderActionRequest) (truth : GatewayTruth) : Except String Unit :=
  match request.action with
  | .entry => validateEntry request truth
  | .probe => validateEntry request truth
  | .add => validateAdd request truth
  | .reduce => validateClose request truth
  | .exit => validateClose request truth
  | .replace => validateReplace request truth

/-! ### Commands -/

/-- `a or b or …` for optional texts. -/
def orTexts : List (Option String) → String → String
  | [], last => last
  | some a :: rest, last => if a = "" then orTexts rest last else a
  | none :: rest, last => orTexts rest last

/-- The command of a request for a contract. -/
def commandOf (request : OrderActionRequest) (candidateId : String) (contract : OptionContract)
    (side : Side) (quantity : ℤ) : ExecutionCommand :=
  { clientOrderId := request.clientOrderId
    intent :=
      { intentId := request.clientOrderId
        candidateId := candidateId
        contract := contract
        side := side
        orderType := request.orderType
        quantity := quantity
        limitPrice := request.limitPrice }
    brokerAccountId := request.brokerAccountId }

/-- `_validate_and_compile`. Source `joker/runtime/order_action_gateway.py:357–521`. -/
def validateAndCompile (gateway : OrderActionGateway) (request : OrderActionRequest)
    (truth : GatewayTruth) : Except String ExecutionCommand := do
  validateDataQuality request truth.snapshot
  let surface ← validateSurface truth.snapshot
  let contract ← validateContract gateway.reader request truth.snapshot
  let row ← orRaise (surfaceRow surface request.contractId)
    ("contract_id " ++ gateway.reader.repr request.contractId ++
      " is absent from the option surface")
  validateQuoteAge request.maxQuoteAgeSeconds row truth.now
  validateQuantity gateway.maxQuantity request
  validateAction request truth
  pure (commandOf request
    (orTexts [request.proposalId, request.decisionId] request.clientOrderId) contract request.side
    request.quantity)

/-- `_compile_degraded_close`: only the position limits the quantity.
Source `joker/runtime/order_action_gateway.py:523–574`. -/
def compileDegradedClose (gateway : OrderActionGateway) (request : OrderActionRequest)
    (truth : GatewayTruth) : Except String ExecutionCommand := do
  let pos ← orRaise (truth.openPositions.get? request.contractId)
    "degraded exit blocked: no authoritative open position"
  let quantity := min request.quantity (pyInt pos.quantity)
  require (0 < quantity) "degraded exit blocked: zero open quantity"
  let contract ← parseContractId gateway.reader request.contractId
    (some truth.snapshot.tradingDate)
  pure (commandOf request (orTexts [request.decisionId] request.clientOrderId) contract .sell
    quantity)

/-- Some token occurs in a text. -/
def mentions (tokens : List String) (text : String) : Bool :=
  tokens.any (fun token ↦ decide (token.toList <:+: text.toList))

/-- A closing request that failed on the market data only may go on. -/
def mayDegrade (request : OrderActionRequest) (message : String) : Bool :=
  decide (request.action ∈ [.exit, .reduce]) && request.allowDegradedExit &&
    mentions ["data quality", "quote age", "option surface", "usable"] (lower message)

/-- What `submit` decides. -/
inductive Verdict where
  | compiled (command : ExecutionCommand)
  | degraded (command : ExecutionCommand) (reason : String)
  | blocked (reason : String)
  deriving DecidableEq

/-- The part of `submit` before it calls the execution runtime; it raises what
`_compile_degraded_close` raises. -/
def verdict (gateway : OrderActionGateway) (request : OrderActionRequest) (truth : GatewayTruth) :
    Except String Verdict :=
  match gateway.validateAndCompile request truth with
  | .ok command => .ok (.compiled command)
  | .error message =>
    if mayDegrade request message then do
      let command ← gateway.compileDegradedClose request truth
      pure (.degraded command (orTexts [request.degradedExitReason] message))
    else .ok (.blocked message)

/-- The command of a verdict, if the request is accepted. -/
def Verdict.command : Verdict → Option ExecutionCommand
  | .compiled command => some command
  | .degraded command _ => some command
  | .blocked _ => none

/-! ### Samples -/

/-- A gateway with the source's default maximum. -/
def sample : OrderActionGateway := ⟨⟨0, "s", "a"⟩, 20, Reader.sample⟩

end OrderActionGateway

/-- A request for contracts with a limit of one minute on the quote's age. -/
def OrderActionRequest.sample (action : OrderActionKind) (contractId : String) (side : Side)
    (quantity : ℤ) (clientOrderId : String) : OrderActionRequest :=
  { action := action
    snapshotId := "snapshot"
    contractId := contractId
    side := side
    quantity := quantity
    clientOrderId := clientOrderId
    limitPrice := none
    orderType := .limit
    maxQuoteAgeSeconds := some 60
    proposalId := none
    decisionId := none
    strategyId := none
    cycleId := none
    replaceOfClientOrderId := none
    allowDegradedExit := true
    degradedExitReason := none
    brokerAccountId := "a" }

/-- A snapshot with usable data and one surface. -/
def SnapshotTruth.sample (surface : OptionSurfaceSnapshot) : SnapshotTruth :=
  { tradingDate := ⟨2026, 7, 1⟩
    optionSurfaceId := some surface.surfaceId
    dataQuality := some ⟨"ok", true⟩
    surface := some surface }

/-- What the gateway reads in a session without orders. -/
def GatewayTruth.sample (surface : OptionSurfaceSnapshot) (now : Datetime) : GatewayTruth :=
  { snapshot := SnapshotTruth.sample surface
    working := []
    openPositions := Dict.empty
    submittedProposalIds := []
    now := now }

end Joker.Runtime
