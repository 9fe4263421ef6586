import Joker.Base.Thread
import Joker.Broker.Positions
import Joker.Execution.ExitManager
import Joker.Ledger.Projector
import Joker.Ledger.Store
import Joker.Risk.CapitalBudget
import Joker.Runtime.ReactiveEngine
import Joker.Runtime.WorkingOrders

/-!
# Market event handler

Library `Runtime`. Entries and exits of `joker/runtime/market_handler.py` with a Task 1 bridge. The
ledger computes in a decimal context, the handler's own figures are exact. The handler's code runs
on one thread that blocks in every call of the bridge; an operation is the stretch of code between
two such calls, the first read of the session included. Meanwhile the event loop runs, and rows are
recorded in the ledger: of the handler's own orders, of fills and cancellations, and of whatever
else trades in the session. What the broker and the data feeds answer, what risk approves, and what
fails, are inputs of a call.
-/

namespace Joker.Runtime

open Joker.Base Joker.Ledger Joker.Broker Joker.Risk Joker.Execution

/-! ### State -/

/-- `TradeCandidate`, as far as the handler reads it. Source `joker/schemas/domain.py:267–278`. -/
structure TradeCandidate where
  candidateId : String
  contract : OptionContract
  entryLimitPrice : PyFloat
  stopPrice : ℚ
  takeProfitPrice : ℚ
  quantity : ℤ
  deriving DecidableEq

/-- `PlaybookSetup`, as far as the handler reads it. Source `joker/schemas/domain.py:163–183`. -/
structure PlaybookSetup where
  setupId : String
  stopPct : ℚ
  takeProfitPct : ℚ
  timeStopMinutes : ℤ
  deriving DecidableEq

/-- `PendingEntry`. Source `joker/runtime/market_handler.py:39–44`. -/
structure PendingEntry where
  orderId : String
  clientOrderId : String
  candidate : TradeCandidate
  setup : PlaybookSetup
  deriving DecidableEq

/-- `PendingExit`. Source `joker/runtime/market_handler.py:48–60`. -/
structure PendingExit where
  clientOrderId : String
  brokerOrderId : String
  positionId : String
  contractId : String
  requestedQuantity : ℤ
  reason : ExitReason
  realizedPnlBefore : ℚ
  deriving DecidableEq

/-- `_pending_allocation`. -/
structure PendingAllocation where
  notionalUsd : ℚ
  quantity : ℤ
  deriving DecidableEq

/-- An entry of `exit_decisions`: the amounts of the outcome. -/
structure TradeOutcome where
  exitReason : ExitReason
  exitPrice : ℚ
  entryPrice : ℚ
  quantity : ℤ
  tradePnlUsd : ℚ
  realizedPnlUsd : ℚ
  deriving DecidableEq

/-- What `_attempt_entry` holds while its order is with the bridge. -/
structure EntryCall where
  candidate : TradeCandidate
  setup : PlaybookSetup
  notionalUsd : ℚ
  deriving DecidableEq

/-- What `_try_exit` holds while its order is with the bridge: the order, and the pending exit
that an accepted order becomes. -/
structure ExitCall where
  intent : OrderIntent
  pending : PendingExit
  deriving DecidableEq

/-- An exit order that was handed over, with the contract it manages and the session's
projection at that moment. -/
structure ExitRecord where
  intent : OrderIntent
  managed : Option OptionContract
  projection : Except ProjectorError ProjectionState

/-- The handler and the session's ledger. The last three fields are history that no code reads:
the contract of the entry that the open trade was attached for, the exit orders so far, and the
contracts of all orders so far. Source `joker/runtime/market_handler.py:64–89`. -/
structure HandlerState where
  sessionId : String
  conn : Conn
  budget : Option CapitalBudget
  engine : TradingState
  openTrade : Option OpenTradeContext
  pendingEntry : Option PendingEntry
  pendingExit : Option PendingExit
  pendingAllocation : Option PendingAllocation
  signaledSetups : List String
  exitDecisions : List TradeOutcome
  entryCall : Option EntryCall
  exitCall : Option ExitCall
  managed : Option OptionContract
  exits : List ExitRecord
  traded : Finset String

/-- The handler's settings. -/
structure HandlerConfig where
  shadow : Bool
  rulesAutoEntry : Bool
  pauseWhenGoalMet : Bool
  exitManager : ExitManager

namespace HandlerState

/-- A new handler, armed, on an empty ledger. -/
def new (sessionId : String) (budget : Option CapitalBudget) : HandlerState :=
  { sessionId := sessionId
    conn := Conn.empty
    budget := budget
    engine := .watching
    openTrade := none
    pendingEntry := none
    pendingExit := none
    pendingAllocation := none
    signaledSetups := []
    exitDecisions := []
    entryCall := none
    exitCall := none
    managed := none
    exits := []
    traded := ∅ }

/-- `project_session`. -/
def projection [DecimalContext] (s : HandlerState) : Except ProjectorError ProjectionState :=
  project (s.conn.query (fun e ↦ e.sessionId = s.sessionId))

/-- Rows are recorded. -/
def record (rows : List LedgerEvent) (s : HandlerState) : HandlerState :=
  { s with conn := ⟨s.conn.rows ++ rows, s.conn.rows ++ rows⟩ }

end HandlerState

/-! ### Inputs -/

/-- What a reconciliation of a pending order finds outside: the answer of the poll, a failure of
the read after it, and the broker's view of the order. -/
structure OrderPoll where
  order : Except PyException (Option BrokerOrder)
  readFault : Option PyException
  brokerOrder : Except PyException (Option BrokerOrder)
  deriving DecidableEq

/-- What `_try_exit` finds outside, for an option quote. -/
structure QuoteInputs where
  mid : PyFloat
  positions : Except PyException (List Position)
  intentId : String
  candidateId : String
  baselineFault : Option PyException
  order : Except PyException BrokerOrder
  poll : OrderPoll

/-- The contract that the option selector chose, and its ask. -/
structure SelectedOption where
  contract : OptionContract
  ask : PyFloat

/-- What `_attempt_entry` is called with and finds outside. -/
structure EntryInputs where
  setup : PlaybookSetup
  structuredSignal : Bool
  stopPct : Option ℚ
  takeProfitPct : Option ℚ
  hints : SizingHints
  openOrders : Except PyException (List BrokerOrder)
  positions : Except PyException (List Position)
  armed : Bool
  selected : Except PyException (Option SelectedOption)
  candidateId : String
  approved : Except PyException Bool
  order : Except PyException BrokerOrder
  poll : OrderPoll

/-- What `handle_event` finds outside. -/
structure TickInputs where
  time : ExchangeTime
  entryPoll : OrderPoll
  exitPoll : OrderPoll
  snapshot : Except PyException Bool
  quote : Option QuoteInputs
  armed : Bool
  openOrders : Except PyException (List BrokerOrder)
  positions : Except PyException (List Position)
  signal : Option EntryInputs

/-! ### Pending entries -/

/-- `status in {"cancelled", "rejected"}`, of a projected order. -/
def endedInLedger (order : Option OrderLifecycle) : Bool :=
  order.any (fun order ↦ order.status ∈ [OrderStatus.cancelled, .rejected])

/-- `status in {"cancelled", "rejected"}`, of an order at the broker. -/
def endedAtBroker (order : Option BrokerOrder) : Bool :=
  order.any (fun order ↦ order.status ∈ [BrokerStatus.cancelled, .rejected])

/-- The verified position of a contract and its average price: open, a positive quantity, and a
price. -/
def verifiedPosition (projection : ProjectionState) (contractId : String) :
    Option (PositionState × ℚ) :=
  match projection.positions.get? contractId with
  | none => none
  | some pos =>
    match pos.avgPrice with
    | none => none
    | some avg => if pos.isOpen = true ∧ 0 < pos.quantity then some (pos, avg) else none

namespace HandlerState

/-- `self.capital_budget.release(…)`, with the allocation it was made for. -/
def releaseAllocation (s : HandlerState) (notionalUsd : ℚ) : HandlerState :=
  { s with
    budget := s.budget.map (fun budget ↦ budget.release notionalUsd 0)
    pendingAllocation := none }

/-- A pending entry whose order is gone: it is dropped, its allocation is released, and the engine
goes back to `WATCHING`. -/
def dropPendingEntry (s : HandlerState) : HandlerState :=
  let s := { s with pendingEntry := none }
  let s := match s.budget, s.pendingAllocation with
    | some _, some allocation => s.releaseAllocation allocation.notionalUsd
    | _, _ => s
  -- An invalid transition is caught and the state set anyway.
  if s.engine.engaged then { s with engine := .watching } else s

/-- `position_id or order_id`. -/
def orOrderId (positionId : Option String) (orderId : String) : String :=
  match positionId with
  | some id => if id = "" then orderId else id
  | none => orderId

/-- `_attach_open_trade`. Source `joker/runtime/market_handler.py:144–177`. -/
def attachOpenTrade (time : ExchangeTime) (positionId : String) (entryPrice : ℚ)
    (candidate : TradeCandidate) (setup : PlaybookSetup) (s : HandlerState) : HandlerState :=
  let quantity := max 1 candidate.quantity
  let allocated := (s.pendingAllocation.map (fun allocation ↦ allocation.notionalUsd)).getD 0
  { s with
    openTrade := some
      { positionId := positionId
        entryPrice := entryPrice
        stopPrice := candidate.stopPrice
        takeProfitPrice := candidate.takeProfitPrice
        entryTime := time.now
        timeStopMinutes := some setup.timeStopMinutes
        invalidated := false
        quantity := quantity
        reservedNotionalUsd :=
          if allocated = 0 then entryPrice * 100 * (quantity : ℤ) else allocated
        peakPremium := none
        trailActive := false
        trailStopPrice := none }
    pendingAllocation := none
    engine := if s.engine = .openPosition then .managingExit else s.engine
    managed := some candidate.contract }

/-- The pending entry that is polled: none while a trade is open. -/
def entryToPoll (s : HandlerState) : Option PendingEntry :=
  if s.openTrade.isSome then none else s.pendingEntry

/-- A pending entry is promoted: the ledger's quantity stands in for the candidate's. -/
def promoteEntry (time : ExchangeTime) (pending : PendingEntry) (pos : PositionState) (avg : ℚ)
    (s : HandlerState) : HandlerState :=
  attachOpenTrade time (orOrderId pos.positionId pending.orderId) avg
    { pending.candidate with quantity := max 1 (pyInt pos.quantity) } pending.setup
    { s with pendingEntry := none }

/-- `_reconcile_pending_entry` after its poll; what was polled is pending still. Where the ledger
has no verified position, the broker is asked for the order and may raise; a reconciliation it
then starts changes nothing here. Source `joker/runtime/market_handler.py:178–311`. -/
def settlePendingEntry [DecimalContext] (time : ExchangeTime) (poll : OrderPoll)
    (s : HandlerState) :
    HandlerState × Except PyException Unit :=
  match s.entryToPoll, poll.readFault, s.projection with
  | some pending, none, .ok projection =>
    if endedInLedger (projection.orders.get? pending.clientOrderId) then
      (s.dropPendingEntry, .ok ())
    else
      match verifiedPosition projection (contractIdFor pending.candidate.contract) with
      | some (pos, avg) => (s.promoteEntry time pending pos avg, .ok ())
      | none =>
        match poll.brokerOrder with
        | .ok _ => (s, .ok ())
        | .error e => (s, .error e)
  | _, _, _ => (s, .ok ())

/-! ### Pending exits -/

/-- `_finalize_exit`. Source `joker/runtime/market_handler.py:313–368`. -/
def finalizeExit (trade : OpenTradeContext) (pending : PendingExit) (exitPrice realizedPnlUsd : ℚ)
    (s : HandlerState) : HandlerState :=
  let budget := s.budget.map (fun budget ↦
    if 0 < trade.reservedNotionalUsd then budget.release trade.reservedNotionalUsd realizedPnlUsd
    else budget)
  { s with
    budget := budget
    openTrade := none
    pendingExit := none
    managed := none
    engine :=
      if s.engine ∈ [TradingState.openPosition, .managingExit] then
        (s.engine.transitions [.exited, .cooldown, .watching]).1
      else s.engine
    exitDecisions := s.exitDecisions ++
      [{ exitReason := pending.reason
         exitPrice := exitPrice
         entryPrice := trade.entryPrice
         quantity := pending.requestedQuantity
         tradePnlUsd := realizedPnlUsd
         realizedPnlUsd :=
           (budget.map (fun budget ↦ budget.realizedPnlUsd)).getD realizedPnlUsd }] }

/-- The open trade after it was seen that some of it is closed. -/
def noteRemaining (trade : OpenTradeContext) (remaining : ℚ) : OpenTradeContext :=
  if 0 < remaining ∧ 0 < max 0 (trade.quantity - pyInt remaining) then
    { trade with quantity := pyInt remaining }
  else trade

/-- The price an exit is reported at: the order's average, if it has one and that is not zero. -/
def reportedExitPrice (trade : OpenTradeContext) (order : Option OrderLifecycle) : ℚ :=
  match order.bind (fun order ↦ order.avgFillPrice) with
  | some price => if price = 0 then trade.entryPrice else price
  | none => trade.entryPrice

/-- The end of `_reconcile_pending_exit` for an exit order that is not gone. -/
def settleLiveExit (trade : OpenTradeContext) (pending : PendingExit)
    (order : Option OrderLifecycle) (pos : Option PositionState) (s : HandlerState) :
    HandlerState :=
  let remaining := (pos.map (fun pos ↦ pos.quantity)).getD 0
  let s := { s with openTrade := some (noteRemaining trade remaining) }
  match pos with
  | none => s
  | some pos =>
    if remaining = 0 then
      s.finalizeExit trade pending (reportedExitPrice trade order)
        (pos.realizedPnl - pending.realizedPnlBefore)
    else if order.any (fun order ↦ order.status = .filled) = true ∧ 0 < remaining then
      { s with pendingExit := none }
    else s

/-- `_reconcile_pending_exit` after its poll; what was polled is pending still.
Source `joker/runtime/market_handler.py:370–463`. -/
def settlePendingExit [DecimalContext] (poll : OrderPoll) (s : HandlerState) : HandlerState :=
  match s.pendingExit, s.openTrade, poll.order, poll.readFault, s.projection with
  | some pending, some trade, .ok order, none, .ok projection =>
    let orderState := projection.orders.get? pending.clientOrderId
    if endedAtBroker order ∨ endedInLedger orderState then { s with pendingExit := none }
    else s.settleLiveExit trade pending orderState (projection.positions.get? pending.contractId)
  | _, _, _, _, _ => s

/-- There is a pending exit of an open trade to poll. -/
def hasExitToPoll (s : HandlerState) : Bool := s.pendingExit.isSome && s.openTrade.isSome

/-! ### Exits -/

/-- The trailing stop follows a quote. -/
def trail (config : HandlerConfig) (mid : ℚ) (s : HandlerState) : HandlerState :=
  { s with openTrade := s.openTrade.map (fun trade ↦ config.exitManager.updateTrailing trade mid) }

/-- The realised P&L of a contract before an exit of it: zero where the read fails, or finds no
position. -/
def realizedBaseline [DecimalContext] (fault : Option PyException) (contractId : String)
    (s : HandlerState) : ℚ :=
  match fault, s.projection with
  | none, .ok projection =>
    ((projection.positions.get? contractId).map (fun pos ↦ pos.realizedPnl)).getD 0
  | _, _ => 0

/-- The exit of an open trade through the broker's first open position. -/
def exitCallOf [DecimalContext] (quote : QuoteInputs) (trade : OpenTradeContext)
    (decision : ExitDecision) (pos : Position) (s : HandlerState) : ExitCall :=
  let quantity := max 1 trade.quantity
  let contractId := contractIdFor pos.contract
  { intent :=
      { intentId := quote.intentId
        candidateId := quote.candidateId
        contract := pos.contract
        side := .sell
        orderType := .limit
        quantity := quantity
        limitPrice := some decision.exitPrice }
    pending :=
      { clientOrderId := quote.intentId
        -- Filled in when the order comes back.
        brokerOrderId := ""
        positionId := trade.positionId
        contractId := contractId
        requestedQuantity := quantity
        reason := decision.reason
        realizedPnlBefore := s.realizedBaseline quote.baselineFault contractId } }

/-- The exit order goes to the bridge. -/
def handExit [DecimalContext] (call : ExitCall) (s : HandlerState) : HandlerState :=
  { s with
    exitCall := some call
    exits := s.exits ++ [⟨call.intent, s.managed, s.projection⟩]
    traded := insert call.pending.contractId s.traded }

end HandlerState

/-- How far `_try_exit` gets before its first call of the bridge. -/
inductive ExitStep where
  | nothing
  | reconcile
  | decided
  | sent
  deriving DecidableEq

namespace HandlerState

/-- `_try_exit` up to the submission of the order.
Source `joker/runtime/market_handler.py:465–577`. -/
def tryExitStep [DecimalContext] (config : HandlerConfig) (time : ExchangeTime)
    (quote : QuoteInputs) (s : HandlerState) : HandlerState × Except PyException ExitStep :=
  match s.openTrade with
  | none => (s, .ok .nothing)
  | some trade =>
    if s.pendingExit.isSome then (s, .ok .reconcile)
    else
      match config.exitManager.checkExit trade quote.mid time with
      | none => (s, .ok .nothing)
      | some decision =>
        if config.shadow then (s, .ok .decided)
        else
          match quote.positions with
          | .error e => (s, .error e)
          | .ok positions =>
            match positions.find? (fun pos ↦ pos.isOpen) with
            | none => (s, .ok .nothing)
            | some pos => (s.handExit (s.exitCallOf quote trade decision pos), .ok .sent)

/-- The exit order comes back; true when it is pending now. -/
def answerExit (order : Except PyException BrokerOrder) (s : HandlerState) :
    HandlerState × Bool :=
  match s.exitCall, order with
  | some call, .ok order =>
    if order.status ∈ [BrokerStatus.rejected, .cancelled] then ({ s with exitCall := none }, false)
    else
      ({ s with
          exitCall := none
          pendingExit := some { call.pending with brokerOrderId := order.orderId } }, true)
  | _, _ => ({ s with exitCall := none }, false)

/-! ### Entries -/

/-- An order rests at the broker or a position is open there. -/
def busyAtBroker (openOrders : Except PyException (List BrokerOrder))
    (positions : Except PyException (List Position)) : Except PyException Bool := do
  let openOrders ← openOrders
  if openOrders.isEmpty = false then pure true
  else do
    let positions ← positions
    pure (positions.any (fun pos ↦ pos.isOpen))

/-- The goal is met and entries pause. -/
def goalPause (config : HandlerConfig) (s : HandlerState) : Bool :=
  config.pauseWhenGoalMet && s.budget.any CapitalBudget.goalMet

/-- `_size_for_entry`. Source `joker/runtime/market_handler.py:627–678`. -/
def sizeForEntry (premium : ℚ) (hints : SizingHints) (s : HandlerState) : ℤ × ℚ :=
  match s.budget with
  | none => (1, premium * 100)
  | some budget =>
    let result := budget.allocate premium hints
    if result.quantity < 1 then (0, 0) else (result.quantity, result.notionalUsd)

/-- The error of `TradeCandidate`'s validator; its text is the validator's. -/
def candidateInvalid : PyException := ⟨"ValidationError", "quantity"⟩

/-- `_build_candidate`. Source `joker/runtime/market_handler.py:588–613`. -/
def buildCandidate (entry : EntryInputs) (selected : SelectedOption) (quantity : ℤ) :
    Except PyException TradeCandidate :=
  let ask := selected.ask.toRat
  let quantity := max 1 quantity
  if 100 < quantity then .error candidateInvalid
  else
    .ok
      { candidateId := entry.candidateId
        contract := selected.contract
        entryLimitPrice := selected.ask
        stopPrice := ExitManager.stopFromEntry ask (entry.stopPct.getD entry.setup.stopPct)
        takeProfitPrice :=
          ExitManager.targetFromEntry ask (entry.takeProfitPct.getD entry.setup.takeProfitPct)
        quantity := quantity }

/-- A setup has signaled. -/
def noteSetup (setup : PlaybookSetup) (s : HandlerState) : HandlerState :=
  { s with signaledSetups := setup.setupId :: s.signaledSetups }

end HandlerState

/-- How far `_attempt_entry` gets before its first call of the bridge. -/
inductive EntryStep where
  | declined (result : Bool)
  | sent
  deriving DecidableEq

namespace HandlerState

/-- The entry order goes to the bridge. Source `joker/runtime/reactive_engine.py:106–132`. -/
def handEntry (candidate : TradeCandidate) (setup : PlaybookSetup) (notionalUsd : ℚ)
    (s : HandlerState) : HandlerState :=
  { s with
    engine := .entering
    entryCall := some ⟨candidate, setup, notionalUsd⟩
    traded := insert (contractIdFor candidate.contract) s.traded }

/-- `_attempt_entry` from the reservation to the submission.
Source `joker/runtime/market_handler.py:881–1123`. -/
def reserveAndHand (candidate : TradeCandidate) (setup : PlaybookSetup) (quantity : ℤ)
    (notionalUsd : ℚ) (s : HandlerState) : HandlerState × Except PyException EntryStep :=
  match s.budget with
  | none => (s.handEntry candidate setup notionalUsd, .ok .sent)
  | some budget =>
    match budget.reserve notionalUsd with
    | .error _ => (s, .ok (.declined false))
    | .ok budget =>
      ({ s with
          budget := some budget
          pendingAllocation := some ⟨notionalUsd, quantity⟩ }.handEntry
        candidate setup notionalUsd, .ok .sent)

/-- `_attempt_entry` from `evaluate_signal` to the submission.
Source `joker/runtime/reactive_engine.py:91–104`. -/
def evaluateAndHand (entry : EntryInputs) (candidate : TradeCandidate) (quantity : ℤ)
    (notionalUsd : ℚ) (s : HandlerState) : HandlerState × Except PyException EntryStep :=
  match s.engine.transitions [.signalDetected, .riskCheck] with
  | (engine, .error e) => ({ s with engine := engine }, .error e)
  | (engine, .ok ()) =>
    match entry.approved with
    | .error e => ({ s with engine := engine }, .error e)
    | .ok false =>
      ({ s with engine := .watching }.noteSetup entry.setup, .ok (.declined false))
    | .ok true =>
      reserveAndHand candidate entry.setup quantity notionalUsd { s with engine := engine }

/-- `_attempt_entry` from the sizing to the submission.
Source `joker/runtime/market_handler.py:881–1123`. -/
def sizeAndHand (config : HandlerConfig) (entry : EntryInputs) (selected : SelectedOption)
    (s : HandlerState) : HandlerState × Except PyException EntryStep :=
  let size := s.sizeForEntry selected.ask.toRat entry.hints
  if size.1 < 1 then (s, .ok (.declined false))
  else
    match buildCandidate entry selected size.1 with
    | .error e => (s, .error e)
    | .ok candidate =>
      if config.shadow then
        match entry.approved with
        | .error e => (s, .error e)
        | .ok approved => (s.noteSetup entry.setup, .ok (.declined approved))
      else s.evaluateAndHand entry candidate size.1 size.2

/-- The guards at the top of `_attempt_entry` let the attempt through. -/
def mayAttempt (config : HandlerConfig) (entry : EntryInputs) (s : HandlerState) : Bool :=
  !(decide (entry.setup.setupId ∈ s.signaledSetups) && entry.structuredSignal) &&
    !s.goalPause config && entry.armed && s.engine.mayEnter

/-- `_attempt_entry` up to the submission of the order.
Source `joker/runtime/market_handler.py:881–1123`. -/
def attemptEntryStep (config : HandlerConfig) (entry : EntryInputs) (s : HandlerState) :
    HandlerState × Except PyException EntryStep :=
  if s.openTrade.isSome ∨ s.pendingEntry.isSome then (s, .ok (.declined false))
  else
    match busyAtBroker entry.openOrders entry.positions with
    | .error e => (s, .error e)
    | .ok true => (s, .ok (.declined false))
    | .ok false =>
      if s.mayAttempt config entry = false then (s, .ok (.declined false))
      else
        match entry.selected with
        | .error e => (s, .error e)
        | .ok none => (s, .ok (.declined false))
        | .ok (some selected) => s.sizeAndHand config entry selected

/-- The entry order comes back; true when it is pending now. An exception of the broker leaves
the reservation as it is. -/
def answerEntry (order : Except PyException BrokerOrder) (s : HandlerState) :
    HandlerState × Except PyException Bool :=
  match s.entryCall, order with
  | some call, .ok order =>
    let s := { s with entryCall := none }
    if order.status = .rejected then
      let s := { s with engine := .watching }
      let s := if s.budget.isSome then s.releaseAllocation call.notionalUsd else s
      (s.noteSetup call.setup, .ok false)
    else
      ({ s with
          engine := .openPosition
          pendingEntry := some ⟨order.orderId, order.intentId, call.candidate, call.setup⟩ },
        .ok true)
  | some _, .error e => ({ s with entryCall := none }, .error e)
  | none, _ => (s, .ok false)

/-- The setup `handle_event` attempts to enter, if it gets there.
Source `joker/runtime/market_handler.py:579–586`. -/
def signalToEnter (config : HandlerConfig) (tick : TickInputs) (s : HandlerState) :
    Except PyException (Option EntryInputs) :=
  if tick.armed = false ∨ s.engine.mayEnter = false then .ok none
  else if s.openTrade.isSome ∨ s.pendingEntry.isSome then .ok none
  else
    match busyAtBroker tick.openOrders tick.positions with
    | .error e => .error e
    | .ok true => .ok none
    | .ok false => .ok (if config.rulesAutoEntry then tick.signal else none)

end HandlerState

/-! ### The thread -/

/-- The stretches of the handler's code. -/
inductive HandlerOp where
  | lookEntry
  | settleEntry (time : ExchangeTime) (poll : OrderPoll)
  | lookExit
  | settleExit (poll : OrderPoll)
  | trail (mid : ℚ)
  | tryExit (time : ExchangeTime) (quote : QuoteInputs)
  | answerExit (order : Except PyException BrokerOrder)
  | lookSignal (tick : TickInputs)
  | attemptEntry (entry : EntryInputs)
  | answerEntry (order : Except PyException BrokerOrder)
  | noteSetup (setup : PlaybookSetup)

/-- Code of the handler. -/
abbrev HandlerM (α : Type) := Coro HandlerOp HandlerState PyException α

/-- `_reconcile_pending_entry` once it is known whether there is something to poll. A poll that
raises is caught. Source `joker/runtime/market_handler.py:178–311`. -/
def settleEntryIfPolled [DecimalContext] (time : ExchangeTime) (poll : OrderPoll) :
    Bool → HandlerM Unit
  | false => pure ()
  | true =>
    match poll.order with
    | .error _ => pure ()
    | .ok _ => Coro.atomic (.settleEntry time poll) (fun s ↦ s.settlePendingEntry time poll)

/-- `_reconcile_pending_entry`. Source `joker/runtime/market_handler.py:178–311`. -/
def reconcilePendingEntry [DecimalContext] (time : ExchangeTime) (poll : OrderPoll) :
    HandlerM Unit := do
  let polled ← Coro.atomic .lookEntry (fun s ↦ (s, .ok s.entryToPoll.isSome))
  settleEntryIfPolled time poll polled

/-- `_reconcile_pending_exit` once it is known whether there is something to poll.
Source `joker/runtime/market_handler.py:370–463`. -/
def settleExitIfPolled [DecimalContext] (poll : OrderPoll) : Bool → HandlerM Unit
  | false => pure ()
  | true => Coro.atomic (.settleExit poll) (fun s ↦ (s.settlePendingExit poll, .ok ()))

/-- `_reconcile_pending_exit`. Source `joker/runtime/market_handler.py:370–463`. -/
def reconcilePendingExit [DecimalContext] (poll : OrderPoll) : HandlerM Unit := do
  let polled ← Coro.atomic .lookExit (fun s ↦ (s, .ok s.hasExitToPoll))
  settleExitIfPolled poll polled

/-- `_try_exit` after the answer to its order. Source `joker/runtime/market_handler.py:465–577`. -/
def afterExitAnswer [DecimalContext] (poll : OrderPoll) : Bool → HandlerM Bool
  | false => pure false
  | true => do
    reconcilePendingExit poll
    pure true

/-- `_try_exit` from its first call of the bridge.
Source `joker/runtime/market_handler.py:465–577`. -/
def finishExit [DecimalContext] (quote : QuoteInputs) : ExitStep → HandlerM Bool
  | .nothing => pure false
  | .decided => pure true
  | .reconcile => do
    reconcilePendingExit quote.poll
    pure false
  | .sent => do
    let pending ← Coro.atomic (.answerExit quote.order) (fun s ↦
      ((s.answerExit quote.order).1, .ok (s.answerExit quote.order).2))
    afterExitAnswer quote.poll pending

/-- `_try_exit`; true when it returns a decision.
Source `joker/runtime/market_handler.py:465–577`. -/
def tryExit [DecimalContext] (config : HandlerConfig) (time : ExchangeTime) (quote : QuoteInputs) :
    HandlerM Bool := do
  let step ← Coro.atomic (.tryExit time quote) (fun s ↦ s.tryExitStep config time quote)
  finishExit quote step

/-- `_attempt_entry` after the answer to its order.
Source `joker/runtime/market_handler.py:881–1123`. -/
def afterEntryAnswer [DecimalContext] (time : ExchangeTime) (entry : EntryInputs) :
    Bool → HandlerM Bool
  | false => pure false
  | true => do
    reconcilePendingEntry time entry.poll
    Coro.atomic (.noteSetup entry.setup) (fun s ↦ (s.noteSetup entry.setup, .ok true))

/-- `_attempt_entry` from its first call of the bridge.
Source `joker/runtime/market_handler.py:881–1123`. -/
def finishEntry [DecimalContext] (time : ExchangeTime) (entry : EntryInputs) :
    EntryStep → HandlerM Bool
  | .declined result => pure result
  | .sent => do
    let pending ← Coro.atomic (.answerEntry entry.order) (fun s ↦ s.answerEntry entry.order)
    afterEntryAnswer time entry pending

/-- `_attempt_entry`. Source `joker/runtime/market_handler.py:881–1123`. -/
def attemptEntry [DecimalContext] (config : HandlerConfig) (time : ExchangeTime)
    (entry : EntryInputs) :
    HandlerM Bool := do
  let step ← Coro.atomic (.attemptEntry entry) (fun s ↦ s.attemptEntryStep config entry)
  finishEntry time entry step

/-- The part of `handle_event` for option quotes; true when it ends the handling. -/
def onQuote [DecimalContext] (config : HandlerConfig) (time : ExchangeTime) :
    Option QuoteInputs → HandlerM Bool
  | none => pure false
  | some quote => do
    Coro.atomic (.trail quote.mid.toRat) (fun s ↦ (s.trail config quote.mid.toRat, .ok ()))
    tryExit config time quote

/-- The entry a signal leads to. -/
def enterSignal [DecimalContext] (config : HandlerConfig) (time : ExchangeTime) :
    Option EntryInputs → HandlerM Unit
  | none => pure ()
  | some entry => do
    let _ ← attemptEntry config time entry
    pure ()

/-- The part of `handle_event` that looks for a signal. -/
def onSignal [DecimalContext] (config : HandlerConfig) (tick : TickInputs) : Bool → HandlerM Unit
  | true => pure ()
  | false => do
    let entry ← Coro.atomic (.lookSignal tick) (fun s ↦ (s, s.signalToEnter config tick))
    enterSignal config tick.time entry

/-- `handle_event` after the reconciliations. Source `joker/runtime/market_handler.py:680–741`. -/
def onMarket [DecimalContext] (config : HandlerConfig) (tick : TickInputs) : HandlerM Unit :=
  match tick.snapshot with
  | .error e => Coro.raise e
  | .ok false => pure ()
  | .ok true => do
    let decided ← onQuote config tick.time tick.quote
    onSignal config tick decided

/-- `handle_event`. Source `joker/runtime/market_handler.py:680–741`. -/
def handleEvent [DecimalContext] (config : HandlerConfig) (tick : TickInputs) : HandlerM Unit := do
  reconcilePendingEntry tick.time tick.entryPoll
  reconcilePendingExit tick.exitPoll
  onMarket config tick

/-- A call of the handler: an event, or an entry for a decision or a proposal. -/
inductive HandlerCall where
  | handleEvent (tick : TickInputs)
  | attemptEntry (time : ExchangeTime) (entry : EntryInputs)

/-- One call of the handler. -/
def handlerBody [DecimalContext] (config : HandlerConfig) : HandlerCall → HandlerM Unit
  | .handleEvent tick => handleEvent config tick
  | .attemptEntry time entry => enterSignal config time (some entry)

/-- The session's thread: the calls one after another, whether or not one raises. -/
def handlerThread [DecimalContext] (config : HandlerConfig) : List HandlerCall → HandlerM Unit
  | [] => pure ()
  | call :: rest => do
    let _ ← (handlerBody config call).attempt
    handlerThread config rest

/-- What a stretch of the code does to the state. -/
def HandlerOp.effect [DecimalContext] (config : HandlerConfig) :
    HandlerOp → HandlerState → HandlerState
  | .lookEntry, s | .lookExit, s | .lookSignal _, s => s
  | .settleEntry time poll, s => (s.settlePendingEntry time poll).1
  | .settleExit poll, s => s.settlePendingExit poll
  | .trail mid, s => s.trail config mid
  | .tryExit time quote, s => (s.tryExitStep config time quote).1
  | .answerExit order, s => (s.answerExit order).1
  | .attemptEntry entry, s => (s.attemptEntryStep config entry).1
  | .answerEntry order, s => (s.answerEntry order).1
  | .noteSetup setup, s => s.noteSetup setup

/-! ### Runs -/

/-- A run of the session: the handler's calls, and the rows recorded meanwhile. -/
def runHandler [DecimalContext] (config : HandlerConfig) (s : HandlerState)
    (calls : List HandlerCall) (xs : List (ThreadAction (List LedgerEvent))) :
    Thread HandlerOp HandlerState PyException Unit :=
  run (Thread.step HandlerState.record) ⟨s, handlerThread config calls⟩ xs

/-! ### Samples -/

namespace HandlerSample

/-- A 0DTE call. -/
def contract : OptionContract := ⟨"SPY", ⟨2026, 7, 1⟩, ⟨⟨false, 6300, -1⟩⟩, .call⟩

/-- The default settings. -/
def config : HandlerConfig := ⟨false, true, true, ⟨57300000000, 35 / 100, 20 / 100, 45, 35 / 100⟩⟩

/-- A budget of ten thousand dollars for up to five contracts a trade. -/
def budget : CapitalBudget :=
  CapitalBudget.new ⟨10000, 20, 1, 5, 1, "fixed", 35 / 100, 45 / 100, 15 / 100, 15 / 100, by
    norm_num⟩

/-- An event of the sample session; rows of one instant are read in the order of their keys. -/
def row (key : String) (eventType : LedgerEventType) (clientOrderId : String) (side : Side)
    (quantity : ℚ) (price : Option ℚ) : EventFields :=
  { EventFields.sample eventType key side quantity price with
    clientOrderId := clientOrderId
    contractId := contractIdFor contract }

/-- The sell order of the sample is a valid event. -/
theorem valid_sellOrder :
    (row "4" .orderSubmissionRequested "x" .sell 2 (some (7 / 10))).Valid := by decide +kernel

/-- Its acceptance is a valid event. -/
theorem valid_sellAccepted : (row "5" .brokerOrderAccepted "x" .sell 2 none).Valid := by
  decide +kernel

/-- The first buy of the sample is a valid event. -/
theorem valid_firstBuy : (row "3" .partialFill "b" .buy 1 (some (3 / 2))).Valid := by
  decide +kernel

/-- Three in the afternoon. -/
def time : ExchangeTime := ⟨⟨2026, 7, 1, 19, 0, 0, 0, some 0⟩, 54000000000⟩

/-- A poll that finds nothing new at the broker. -/
def quiet : OrderPoll := ⟨.ok none, none, .ok none⟩

/-- The answer of a broker that accepts an order. -/
def accepted (clientOrderId : String) (side : Side) (quantity : ℤ) : BrokerOrder :=
  ⟨"o" ++ clientOrderId, clientOrderId, .open, contract, side, quantity, none⟩

/-- An attempt to buy a number of contracts at 1.5. -/
def entry (clientOrderId : String) (quantity : ℤ) : EntryInputs :=
  { setup := ⟨clientOrderId, 5 / 10, 1, 30⟩
    structuredSignal := false
    stopPct := none
    takeProfitPct := none
    hints := ⟨none, some quantity, 1, .auto, none, none, none, none⟩
    openOrders := .ok []
    positions := .ok []
    armed := true
    selected := .ok (some ⟨contract, ⟨⟨false, 15, -1⟩⟩⟩)
    candidateId := "k"
    approved := .ok true
    order := .ok (accepted clientOrderId .buy quantity)
    poll := quiet }

/-- A tick with or without an option quote, and no signal. -/
def tick (quote : Option QuoteInputs) : TickInputs :=
  { time := time
    entryPoll := quiet
    exitPoll := quiet
    snapshot := .ok true
    quote := quote
    armed := false
    openOrders := .ok []
    positions := .ok []
    signal := none }

/-- A quote at which an exit of a position is due, and the broker's answers. -/
def quote (mid : PyFloat) (clientOrderId : String) (positions : List Position) : QuoteInputs :=
  { mid := mid
    positions := .ok positions
    intentId := clientOrderId
    candidateId := "k"
    baselineFault := none
    order := .ok (accepted clientOrderId .sell 1)
    poll := quiet }

/-- Two contracts are ordered. -/
def ordered : List LedgerEvent :=
  [⟨row "1" .orderSubmissionRequested "b" .buy 2 (some (3 / 2)), by decide +kernel⟩,
    ⟨row "2" .brokerOrderAccepted "b" .buy 2 none, by decide +kernel⟩]

/-- Both contracts are bought. -/
def bought : List LedgerEvent :=
  [⟨row "3" .finalFill "b" .buy 2 (some (3 / 2)), by decide +kernel⟩]

/-- An exit of two contracts is ordered, and one of them is sold. -/
def halfSold : List LedgerEvent :=
  [⟨row "4" .orderSubmissionRequested "x" .sell 2 (some (7 / 10)), valid_sellOrder⟩,
    ⟨row "5" .brokerOrderAccepted "x" .sell 2 none, valid_sellAccepted⟩,
    ⟨row "6" .finalFill "x" .sell 1 (some (7 / 10)), by decide +kernel⟩]

/-- An open position of the contract at the broker. -/
def position (quantity : ℤ) : Position := ⟨"p", contract, quantity, ⟨⟨false, 15, -1⟩⟩, true⟩

/-- A quote at which the sample trade is stopped out. -/
def stopped (clientOrderId : String) (quantity : ℤ) : TickInputs :=
  tick (some (quote ⟨⟨false, 7, -1⟩⟩ clientOrderId [position quantity]))

/-- Some operations of the thread, and then rows are recorded. -/
def recordAfter (operations : ℕ) (rows : List LedgerEvent) :
    List (ThreadAction (List LedgerEvent)) :=
  List.replicate operations .resume ++ [.env rows]

end HandlerSample

end Joker.Runtime
