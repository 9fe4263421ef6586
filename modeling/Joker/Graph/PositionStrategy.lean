import Joker.Base.Runs
import Joker.Graph.OwnOrders
import Joker.Runtime.OrderManagement
import Joker.Runtime.ProvenanceRegistry

/-!
# Strategies of positions

Library `Graph`. The position worker of `joker/runtime/cognitive_agent_runtime.py` from its queue
to the cycles it runs, `_resolve_provenance`, and the provenance rows of what the gateway is asked
for meanwhile. A cycle works with the strategy of the row it finds: that of its event's order, or
the latest one of the contract. Requests of position cycles hand their strategy on; replacements
of the order manager have none, and a row is written only after its order's events.
-/

namespace Joker.Graph

open Joker.Base Joker.Ledger Joker.Runtime

/-! ### Events -/

/-- What the payload of an event carries for the worker; an absent key is `none`. No event carries
a strategy. -/
structure EventPayload where
  clientOrderId : Option String
  contractId : Option String
  positionId : Option String
  activePositionId : Option String
  snapshotId : Option String
  deriving DecidableEq

/-- The payload of an order's event. -/
def orderPayload (clientOrderId : String) : EventPayload :=
  ⟨some clientOrderId, none, none, none, none⟩

/-- The payload of a position's event. -/
def positionPayload (clientOrderId contractId : String) : EventPayload :=
  ⟨some clientOrderId, some contractId, none, none, none⟩

/-- The payload of a snapshot's event that is routed to an open position. -/
def snapshotPayload (snapshotId contractId : String) : EventPayload :=
  ⟨none, some contractId, some contractId, some contractId, some snapshotId⟩

/-- A queued event, by its kind; `closed` tells `POSITION_CLOSED` from the others. -/
inductive QueuedWork where
  | order (payload : EventPayload)
  | position (closed : Bool) (payload : EventPayload)
  deriving DecidableEq

/-- `_position_queue`: snapshots come after the events of orders and positions.
Source `joker/runtime/cognitive_agent_runtime.py:110`. -/
structure PositionQueue where
  critical : List QueuedWork
  snapshots : List QueuedWork
  deriving DecidableEq

/-- `_position_queue.get()`. -/
def PositionQueue.get : PositionQueue → Option (QueuedWork × PositionQueue)
  | ⟨work :: rest, snapshots⟩ => some (work, ⟨rest, snapshots⟩)
  | ⟨[], work :: rest⟩ => some (work, ⟨[], rest⟩)
  | ⟨[], []⟩ => none

/-! ### Provenance -/

/-- The fields of a resolved payload that `_run_position_work` reads. -/
structure ResolvedEvent where
  contractId : Option String
  positionId : Option String
  activePositionId : Option String
  snapshotId : Option String
  strategyId : Option String
  originalStrategyId : Option String
  deriving DecidableEq

/-- The contract of a payload, or else of the row. -/
def contractOf (payload : EventPayload) (record : Option ExecutionProvenanceRecord) : String :=
  if payload.contractId.getD "" = "" then (record.map (fun r ↦ r.contractId)).getD ""
  else payload.contractId.getD ""

/-- `_resolve_provenance` after its lookups; the last argument is the latest snapshot's id, if the
repository has one. Source `joker/runtime/cognitive_agent_runtime.py:719–757`. -/
def resolveProvenance (payload : EventPayload) (record : Option ExecutionProvenanceRecord)
    (latestSnapshot : Option String) : ResolvedEvent :=
  let contractId := contractOf payload record
  let orContract (value : Option String) : Option String :=
    if contractId = "" then value else value.or (some contractId)
  let rowContract := (record.map (fun r ↦ r.contractId)).filter (fun id ↦ id ≠ "")
  let snapshotId := payload.snapshotId.or (record.map (fun r ↦ r.snapshotId))
  { contractId := orContract (payload.contractId.or rowContract)
    positionId := orContract payload.positionId
    activePositionId := orContract payload.activePositionId
    snapshotId := if presentText snapshotId then snapshotId else latestSnapshot.or snapshotId
    strategyId := record.bind (fun r ↦ r.strategyId)
    originalStrategyId := record.bind (fun r ↦ r.strategyId) }

/-- The inputs of a position cycle; `_run_position_work` starts none without both ids. -/
structure PositionInput where
  snapshotId : String
  positionId : String
  hydrated : snapshotId ≠ "" ∧ positionId ≠ ""
  contractId : String
  originalStrategyId : Option String
  deriving DecidableEq

/-- `_run_position_work` up to the cycle.
Source `joker/runtime/cognitive_agent_runtime.py:759–881`. -/
def positionInput (event : ResolvedEvent) : Option PositionInput :=
  let positionId := OrderActionGateway.orTexts
    [event.positionId, event.activePositionId, event.contractId] ""
  let snapshotId := event.snapshotId.getD ""
  if h : snapshotId ≠ "" ∧ positionId ≠ "" then
    some
      { snapshotId := snapshotId
        positionId := positionId
        hydrated := h
        contractId := OrderActionGateway.orTexts [event.contractId] positionId
        originalStrategyId := if presentText event.originalStrategyId then event.originalStrategyId
          else event.strategyId }
  else none

/-! ### Cycles -/

/-- A position cycle, with the request that opened the position it is run on, if there is one. -/
structure StartedCycle where
  input : PositionInput
  opener : Option OrderActionRequest
  deriving DecidableEq

/-- What a cycle is answered, and a fresh UUID. -/
structure CycleAnswers where
  deps : RouteDeps
  sessionId : String
  cycleId : String
  prior : Option PositionThesisVersion
  freshStrategy : String
  thesisAnswer : PositionThesisVersion
  thesisAt : ℤ
  decisionAnswer : PositionThesisVersion
  decisionAt : ℤ
  projection : ProjectionState

/-- The strategy of the thesis: `UUID(str(strategy_raw)) if strategy_raw else uuid4()`, as a text;
`none` where `UUID` raises. -/
def thesisStrategy (uuid : String → Option String) (strategyRaw : Option String)
    (freshStrategy : String) : Option String :=
  if presentText strategyRaw then strategyRaw.bind uuid else some freshStrategy

/-- The cycle up to its decision. -/
def StartedCycle.routing (uuid : String → Option String) (cycle : StartedCycle)
    (answers : CycleAnswers) : Option Routing :=
  (thesisStrategy uuid cycle.input.originalStrategyId answers.freshStrategy).map (fun strategy ↦
    { deps := answers.deps
      sessionId := answers.sessionId
      cycleId := answers.cycleId
      positionCommandId := none
      prior := answers.prior
      cycle :=
        { snapshotId := cycle.input.snapshotId
          positionId := cycle.input.positionId
          hydrated := cycle.input.hydrated
          contractId := cycle.input.contractId
          originalStrategyId := strategy
          thesisAnswer := answers.thesisAnswer
          thesisAt := answers.thesisAt
          decisionAnswer := answers.decisionAnswer
          decisionAt := answers.decisionAt } })

/-- What the cycle asks the gateway for. -/
def StartedCycle.submits (uuid : String → Option String) (cycle : StartedCycle)
    (answers : CycleAnswers) : Option OrderActionRequest :=
  (cycle.routing uuid answers).bind (fun routing ↦
    match routing.result answers.projection with
    | .ok (some (.submit request)) => some request
    | _ => none)

/-! ### The worker -/

/-- Who asked the gateway for an order: a cycle on a position that a request opened, or another
task. -/
inductive Submitter where
  | cycle (opener : Option OrderActionRequest)
  | other
  deriving DecidableEq

/-- Where the position worker is: waiting for an event, for one of the lookups, for the rest of
what a cycle needs, for a cycle, for the order manager, or for the row of an order that was handed
to the execution runtime. -/
inductive PositionWorker where
  | idle
  | resolving (payload : EventPayload)
  | resolvingContract (payload : EventPayload)
  | resolved (payload : EventPayload) (found : Option (ProvenanceRow Submitter))
  | cycling (cycle : StartedCycle)
  | managing
  | submitting (record : ExecutionProvenanceRecord) (submitter : Submitter)

/-- What the worker was given: the gateway's dependencies, those of the order manager,
`str(UUID(text))`, and `config.position.enabled`. -/
structure PositionSystem where
  gateway : GatewayDeps
  orders : OrderDeps
  uuid : String → Option String
  enabled : Bool

/-- The provenance registry, and what it held at the worker's last lookups by order and by contract,
which no step reads; the requests whose orders were handed to the execution runtime, and the rows
that other tasks have yet to record for theirs; the open positions, each with the request that
opened it, if the gateway made it; the queue and the worker; and the cycles run so far, the last one
first. -/
structure PositionDesk where
  registry : ProvenanceRegistry Submitter
  atOrderLookup : ProvenanceRegistry Submitter
  atContractLookup : ProvenanceRegistry Submitter
  requests : List OrderActionRequest
  unrecorded : List ExecutionProvenanceRecord
  positions : Dict String (Option OrderActionRequest)
  queue : PositionQueue
  worker : PositionWorker
  cycles : List StartedCycle

/-- A step of the worker; it does nothing elsewhere than where it belongs. -/
inductive WorkerStep where
  | take
  | lookUp
  | lookUpContract
  | start (latestSnapshot : Option String)
  | decide (answers : CycleAnswers) (command : ExecutionCommand) (extra : ProvenanceExtra)
  | manage (work : OrderWork) (contract : Broker.OptionContract) (command : ExecutionCommand)
  | recorded (now : Datetime)
  | finish

/-- What happens: another task has the gateway hand over an order, or records the row of one; a
position is opened by an order's fill, or closed; an event is published; the worker goes on. -/
inductive DeskStep where
  | handOver (request : OrderActionRequest) (command : ExecutionCommand) (extra : ProvenanceExtra)
  | recorded (index : ℕ) (now : Datetime)
  | opened (contractId clientOrderId : String)
  | closed (contractId : String)
  | orderEvent (clientOrderId : String)
  | positionEvent (closed : Bool) (clientOrderId contractId : String)
  | snapshotEvent (snapshotId : String)
  | worker (step : WorkerStep)

namespace PositionDesk

/-- A session that begins. -/
def new : PositionDesk :=
  ⟨.empty, .empty, .empty, [], [], Dict.empty, ⟨[], []⟩, .idle, []⟩

/-- The request that opened the position that is open on a contract. -/
def openerOf (s : PositionDesk) (contractId : String) : Option OrderActionRequest :=
  (s.positions.get? contractId).join

/-- The gateway hands an order over for the worker, which then waits for the row. -/
def submit (sys : PositionSystem) (s : PositionDesk) (request : OrderActionRequest)
    (command : ExecutionCommand) (extra : ProvenanceExtra) (submitter : Submitter) :
    PositionDesk :=
  { s with
    requests := s.requests ++ [request]
    worker := .submitting
      (OrderActionGateway.provenanceRecord sys.gateway request command extra) submitter }

/-- A row is recorded at a time. -/
def recordRow (s : PositionDesk) (record : ExecutionProvenanceRecord) (submitter : Submitter)
    (now : Datetime) : PositionDesk :=
  { s with registry := s.registry.record ⟨record, now.isoformat, submitter⟩ }

/-- `_position_worker_loop` takes an event; `_run_position_work` leaves a closed position alone.
Source `joker/runtime/cognitive_agent_runtime.py:559–582`. -/
def take (sys : PositionSystem) (s : PositionDesk) : PositionDesk :=
  match s.queue.get with
  | none => s
  | some (.order _, queue) => { s with queue := queue, worker := .managing }
  | some (.position closed payload, queue) =>
    if sys.enabled && !closed then { s with queue := queue, worker := .resolving payload }
    else { s with queue := queue }

/-- The lookup by client order id; without one there is none. -/
def lookUp (s : PositionDesk) (payload : EventPayload) : PositionDesk :=
  let clientOrderId := payload.clientOrderId.getD ""
  let s := { s with atOrderLookup := s.registry }
  match if clientOrderId = "" then none else s.registry.getByClientOrderId clientOrderId with
  | some row => { s with worker := .resolved payload (some row) }
  | none => { s with worker := .resolvingContract payload }

/-- The lookup by contract, where there was no row of the order. -/
def lookUpContract (s : PositionDesk) (payload : EventPayload) : PositionDesk :=
  let contractId := payload.contractId.getD ""
  { s with
    atContractLookup := s.registry
    worker := .resolved payload
      (if contractId = "" then none else s.registry.getLatestByContractId contractId) }

/-- A cycle is started, if the event has what it needs. -/
def start (s : PositionDesk) (payload : EventPayload)
    (found : Option (ProvenanceRow Submitter)) (latestSnapshot : Option String) : PositionDesk :=
  match positionInput
      (resolveProvenance payload (found.map (fun row ↦ row.record)) latestSnapshot) with
  | none => { s with worker := .idle }
  | some input =>
    let cycle : StartedCycle := ⟨input, s.openerOf input.positionId⟩
    { s with worker := .cycling cycle, cycles := cycle :: s.cycles }

/-- One step of the worker. -/
def work (sys : PositionSystem) (s : PositionDesk) (step : WorkerStep) : PositionDesk :=
  match step, s.worker with
  | .take, .idle => s.take sys
  | .lookUp, .resolving payload => s.lookUp payload
  | .lookUpContract, .resolvingContract payload => s.lookUpContract payload
  | .start latestSnapshot, .resolved payload found => s.start payload found latestSnapshot
  | .decide answers command extra, .cycling cycle =>
    match cycle.submits sys.uuid answers with
    | some request => s.submit sys request command extra (.cycle cycle.opener)
    | none => { s with worker := .idle }
  | .manage orderWork contract command, .managing =>
    let request := orderWork.replacementRequest sys.orders contract
    s.submit sys request command (.replaceOf request.replaceOfClientOrderId) .other
  | .recorded now, .submitting record submitter =>
    { s.recordRow record submitter now with worker := .idle }
  | .finish, _ => { s with worker := .idle }
  | _, _ => s

/-- `_enqueue_snapshot_work` for the positions that are open.
Source `joker/runtime/cognitive_agent_runtime.py:389–444`. -/
def routeSnapshot (sys : PositionSystem) (s : PositionDesk) (snapshotId : String) : PositionDesk :=
  if sys.enabled then
    { s with
      queue.snapshots := s.queue.snapshots ++ s.positions.keys.map (fun contractId ↦
        .position false (snapshotPayload snapshotId contractId)) }
  else s

/-- An event of an order or a position is queued. -/
def enqueue (s : PositionDesk) (work : QueuedWork) : PositionDesk :=
  { s with queue.critical := s.queue.critical ++ [work] }

/-- One step. -/
def step (sys : PositionSystem) (s : PositionDesk) : DeskStep → PositionDesk
  | .handOver request command extra =>
    { s with
      requests := s.requests ++ [request]
      unrecorded := s.unrecorded ++
        [OrderActionGateway.provenanceRecord sys.gateway request command extra] }
  | .recorded index now =>
    match s.unrecorded[index]? with
    | some record =>
      { s.recordRow record .other now with unrecorded := s.unrecorded.eraseIdx index }
    | none => s
  | .opened contractId clientOrderId =>
    if (s.positions.get? contractId).isSome then s
    else
      { s with
        positions := s.positions.set contractId
          (s.requests.find? (fun request ↦ request.clientOrderId = clientOrderId)) }
  | .closed contractId => { s with positions := s.positions.erase contractId }
  | .orderEvent clientOrderId => s.enqueue (.order (orderPayload clientOrderId))
  | .positionEvent closed clientOrderId contractId =>
    s.enqueue (.position closed (positionPayload clientOrderId contractId))
  | .snapshotEvent snapshotId => s.routeSnapshot sys snapshotId
  | .worker step => s.work sys step

end PositionDesk

/-! ### The property -/

/-- A cycle on a position that an ENTRY or PROBE opened has that request's strategy. -/
def StartedCycle.KeepsStrategy (cycle : StartedCycle) : Prop :=
  ∀ request ∈ cycle.opener, request.action ∈ [.entry, .probe] →
    ∃ strategy, strategy ≠ "" ∧ request.strategyId = some strategy ∧
      cycle.input.originalStrategyId = some strategy

/-- Every cycle so far has the strategy of its position. -/
def KeepsStrategy (s : PositionDesk) : Prop := ∀ cycle ∈ s.cycles, cycle.KeepsStrategy

/-! ### The condition -/

/-- The row conveys the strategy of the request that opened a position: it is of a request with
that strategy, as the opening one itself, or of a request that a cycle on a position of that
request submitted, when the strategy is the text of a UUID. -/
def Conveys (uuid : String → Option String) (row : ProvenanceRow Submitter)
    (request : OrderActionRequest) (strategy : String) : Prop :=
  row.record.strategyId = some strategy ∨
    (row.submitter = .cycle (some request) ∧ uuid strategy = some strategy)

/-- The row of the event's order that there was at the lookup by order, if there was one, conveys
the strategy. Else so does the latest row of the event's contract that there was at the lookup by
contract: some row of it conveys the strategy, and each one that does not is of an earlier time, or
was recorded before at the same time. -/
def RecordedConvey (uuid : String → Option String) (s : PositionDesk) (payload : EventPayload)
    (request : OrderActionRequest) (strategy : String) : Prop :=
  let clientOrderId := payload.clientOrderId.getD ""
  let contractId := payload.contractId.getD ""
  (clientOrderId ≠ "" ∧ ∃ row ∈ s.atOrderLookup.rows, row.record.clientOrderId = clientOrderId ∧
    Conveys uuid row request strategy) ∨
  ((clientOrderId ≠ "" → ∀ row ∈ s.atOrderLookup.rows, row.record.clientOrderId ≠ clientOrderId) ∧
    contractId ≠ "" ∧ ∃ before row after,
      s.atContractLookup.contractRows contractId = before ++ row :: after ∧
      Conveys uuid row request strategy ∧
      (∀ other ∈ before, ¬ Conveys uuid other request strategy →
        other.createdAt ≤ row.createdAt) ∧
      ∀ other ∈ after, ¬ Conveys uuid other request strategy → other.createdAt < row.createdAt)

/-- Where a cycle is started on a position that an ENTRY or PROBE opened, that request has a
strategy, and the rows that were recorded by the lookups convey it. -/
def RowsConvey (uuid : String → Option String) (s : PositionDesk) : DeskStep → Prop
  | .worker (.start latestSnapshot) => ∀ payload found, s.worker = .resolved payload found →
      ∀ input ∈ positionInput (resolveProvenance payload (found.map (fun row ↦ row.record))
          latestSnapshot),
        ∀ request ∈ s.openerOf input.positionId, request.action ∈ [.entry, .probe] →
          ∃ strategy, strategy ≠ "" ∧ request.strategyId = some strategy ∧
            RecordedConvey uuid s payload request strategy
  | _ => True

/-! ### What the lookups find -/

/-- What the lookup by order finds. -/
def orderRow (s : PositionDesk) (payload : EventPayload) : Option (ProvenanceRow Submitter) :=
  if payload.clientOrderId.getD "" = "" then none
  else s.atOrderLookup.getByClientOrderId (payload.clientOrderId.getD "")

/-- What the lookup by contract finds. -/
def contractRow (s : PositionDesk) (payload : EventPayload) : Option (ProvenanceRow Submitter) :=
  if payload.contractId.getD "" = "" then none
  else s.atContractLookup.getLatestByContractId (payload.contractId.getD "")

/-- The worker holds what its lookups found. -/
def LookedUp (s : PositionDesk) : Prop :=
  match s.worker with
  | .resolvingContract payload => orderRow s payload = none
  | .resolved payload found => found = (orderRow s payload).or (contractRow s payload)
  | _ => True

/-- The rows that were recorded by the lookups convey a strategy exactly when the row that was found
does. -/
theorem recordedConvey_iff {uuid : String → Option String} {s : PositionDesk}
    {payload : EventPayload} {request : OrderActionRequest} {strategy : String} :
    RecordedConvey uuid s payload request strategy ↔
      ∃ row ∈ (orderRow s payload).or (contractRow s payload),
        Conveys uuid row request strategy := by
  have horder : (∃ row ∈ orderRow s payload, Conveys uuid row request strategy) ↔
      payload.clientOrderId.getD "" ≠ "" ∧ ∃ row ∈ s.atOrderLookup.rows,
        row.record.clientOrderId = payload.clientOrderId.getD "" ∧
          Conveys uuid row request strategy := by
    unfold orderRow
    split
    · next hid => exact iff_of_false (by simp) (fun h ↦ h.1 hid)
    · next hid =>
      simp only [Option.mem_def, ProvenanceRegistry.getByClientOrderId_eq_some_iff, and_assoc]
      exact (and_iff_right hid).symm
  have hnone : orderRow s payload = none ↔ (payload.clientOrderId.getD "" ≠ "" →
      ∀ row ∈ s.atOrderLookup.rows,
        row.record.clientOrderId ≠ payload.clientOrderId.getD "") := by
    unfold orderRow
    split
    · next hid => exact iff_of_true rfl (fun h ↦ absurd hid h)
    · next hid =>
      rw [Option.eq_none_iff_forall_ne_some]
      simp only [ne_eq, ProvenanceRegistry.getByClientOrderId_eq_some_iff, not_and]
      exact ⟨fun h _ ↦ h, fun h ↦ h hid⟩
  have hcontract : (∃ row ∈ contractRow s payload, Conveys uuid row request strategy) ↔
      payload.contractId.getD "" ≠ "" ∧ ∃ row,
        s.atContractLookup.getLatestByContractId (payload.contractId.getD "") = some row ∧
          Conveys uuid row request strategy := by
    unfold contractRow
    split
    · next hid => exact iff_of_false (by simp) (fun h ↦ h.1 hid)
    · next hid => exact (and_iff_right hid).symm
  unfold RecordedConvey
  dsimp only
  rw [← horder, ← hnone, ← ProvenanceRegistry.latest_iff, ← hcontract]
  cases orderRow s payload with
  | none => simp
  | some row => simp

/-- The step: the worker holds what its lookups found. -/
theorem lookedUp_step {sys : PositionSystem} {s : PositionDesk} (h : LookedUp s) (a : DeskStep) :
    LookedUp (s.step sys a) := by
  cases a with
  | handOver request command extra => exact h
  | recorded index now =>
    unfold PositionDesk.step
    dsimp only
    split <;> exact h
  | opened contractId clientOrderId =>
    unfold PositionDesk.step
    dsimp only
    split <;> exact h
  | closed contractId => exact h
  | orderEvent clientOrderId => exact h
  | positionEvent closed clientOrderId contractId => exact h
  | snapshotEvent snapshotId =>
    unfold PositionDesk.step PositionDesk.routeSnapshot
    dsimp only
    split <;> exact h
  | worker step =>
    unfold PositionDesk.step PositionDesk.work
    dsimp only
    split
    · unfold PositionDesk.take
      split
      · exact h
      · exact trivial
      · split
        · exact trivial
        · exact h
    · unfold PositionDesk.lookUp
      dsimp only
      split
      · next row hrow =>
        unfold LookedUp orderRow
        dsimp only
        rw [hrow]
        rfl
      · next hrow =>
        unfold LookedUp orderRow
        exact hrow
    · next hworker =>
      unfold LookedUp at h
      rw [hworker] at h
      unfold PositionDesk.lookUpContract LookedUp
      dsimp only
      exact (congrArg (fun row ↦ Option.or row _) h).symm
    · unfold PositionDesk.start
      split <;> exact trivial
    · split <;> exact trivial
    · exact trivial
    · exact trivial
    · exact trivial
    · exact h

/-! ### What is handed on -/

/-- The request of a routed decision has its strategy. -/
theorem strategyId_of_submit {deps : RouteDeps} {state : RouteState}
    {decision : PositionThesisVersion} {request : OrderActionRequest}
    (h : routePositionAction deps state decision = .ok (some (.submit request))) :
    request.strategyId = some decision.originalStrategyId := by
  unfold routePositionAction at h
  split at h
  · cases h
  · cases h
  · split at h
    · obtain ⟨id, -, hcancel⟩ := Option.map_eq_some_iff.mp (Except.ok.inj h)
      cases hcancel
    · cases h
  · split at h
    · split at h
      · cases h
      · split at h
        · obtain ⟨action, -, hsubmit⟩ := Option.map_eq_some_iff.mp (Except.ok.inj h)
          rw [← PositionCommand.submit.inj hsubmit]
          rfl
        · cases h
    · cases h

/-- The request of a cycle has the strategy of the cycle, when that is the text of a UUID. -/
theorem strategyId_submits {uuid : String → Option String} {cycle : StartedCycle}
    {answers : CycleAnswers} {request : OrderActionRequest}
    (h : cycle.submits uuid answers = some request) {strategy : String} (hne : strategy ≠ "")
    (hinput : cycle.input.originalStrategyId = some strategy)
    (huuid : uuid strategy = some strategy) : request.strategyId = some strategy := by
  have hthesis : thesisStrategy uuid cycle.input.originalStrategyId answers.freshStrategy =
      some strategy := by
    rw [hinput]
    simp [thesisStrategy, presentText, hne, huuid]
  unfold StartedCycle.submits StartedCycle.routing at h
  rw [hthesis, Option.map_some, Option.bind_some] at h
  split at h
  · next routed hresult =>
    cases h
    exact strategyId_of_submit hresult
  · cases h

/-- A cycle has the strategy of the row that was found. -/
theorem originalStrategyId_positionInput {payload : EventPayload}
    {record : Option ExecutionProvenanceRecord} {latestSnapshot : Option String}
    {input : PositionInput}
    (h : positionInput (resolveProvenance payload record latestSnapshot) = some input) :
    input.originalStrategyId = record.bind (fun r ↦ r.strategyId) := by
  obtain ⟨_, hinput⟩ := Option.dite_none_right_eq_some.mp h
  rw [← Option.some.inj hinput]
  exact ite_self _

/-- The row of a request that a cycle submitted on a position of an ENTRY or PROBE has that
request's strategy. -/
def Carries (uuid : String → Option String) (submitter : Submitter) (strategyId : Option String) :
    Prop :=
  ∀ request strategy, submitter = .cycle (some request) → request.action ∈ [.entry, .probe] →
    strategy ≠ "" → request.strategyId = some strategy → uuid strategy = some strategy →
      strategyId = some strategy

/-- Other tasks' rows carry what they carry. -/
theorem carries_other (uuid : String → Option String) (strategyId : Option String) :
    Carries uuid .other strategyId := by
  intro request strategy h
  cases h

/-- A request hands the strategy of its cycle on. -/
theorem carries_submits {uuid : String → Option String} {cycle : StartedCycle}
    (hkeeps : cycle.KeepsStrategy) {answers : CycleAnswers} {request : OrderActionRequest}
    (h : cycle.submits uuid answers = some request) :
    Carries uuid (.cycle cycle.opener) request.strategyId := by
  intro opener strategy hopener haction hne hstrategy huuid
  obtain ⟨kept, -, hkept, hinput⟩ := hkeeps opener (Submitter.cycle.inj hopener) haction
  obtain rfl : strategy = kept := Option.some.inj (hstrategy.symm.trans hkept)
  exact strategyId_submits h hne hinput huuid

/-! ### Steps -/

/-- What the worker holds is sound: the row it found, its cycle, or the row it waits for. -/
def PositionWorker.Sound (uuid : String → Option String) : PositionWorker → Prop
  | .resolved _ found => ∀ row ∈ found, Carries uuid row.submitter row.record.strategyId
  | .cycling cycle => cycle.KeepsStrategy
  | .submitting record submitter => Carries uuid submitter record.strategyId
  | _ => True

namespace PositionDesk

/-- The cycles keep their strategies, and rows carry those of the cycles that asked for them. -/
structure Sound (uuid : String → Option String) (s : PositionDesk) : Prop where
  keeps : KeepsStrategy s
  rows : ∀ row ∈ s.registry.rows, Carries uuid row.submitter row.record.strategyId
  worker : s.worker.Sound uuid

private theorem sound_new (uuid : String → Option String) : new.Sound uuid where
  keeps := by
    intro cycle hcycle
    cases hcycle
  rows := by
    intro row hrow
    cases hrow
  worker := trivial

variable {sys : PositionSystem} {s : PositionDesk}

private theorem Sound.recordRow (h : s.Sound sys.uuid) {record : ExecutionProvenanceRecord}
    {submitter : Submitter} (hcarries : Carries sys.uuid submitter record.strategyId)
    (now : Datetime) : (s.recordRow record submitter now).Sound sys.uuid where
  keeps := h.keeps
  rows := by
    intro row hrow
    rcases ProvenanceRegistry.mem_record hrow with rfl | hold
    · exact hcarries
    · exact h.rows row hold
  worker := h.worker

private theorem Sound.take (h : s.Sound sys.uuid) : (s.take sys).Sound sys.uuid := by
  unfold PositionDesk.take
  split
  · exact h
  · exact ⟨h.keeps, h.rows, trivial⟩
  · split
    · exact ⟨h.keeps, h.rows, trivial⟩
    · exact ⟨h.keeps, h.rows, h.worker⟩

private theorem Sound.lookUp (h : s.Sound sys.uuid) (payload : EventPayload) :
    (s.lookUp payload).Sound sys.uuid := by
  unfold PositionDesk.lookUp
  dsimp only
  split
  · next row hrow =>
    refine ⟨h.keeps, h.rows, ?_⟩
    rintro _ ⟨⟩
    split at hrow
    · cases hrow
    · exact h.rows row (ProvenanceRegistry.mem_of_getByClientOrderId hrow)
  · exact ⟨h.keeps, h.rows, trivial⟩

private theorem Sound.lookUpContract (h : s.Sound sys.uuid) (payload : EventPayload) :
    (s.lookUpContract payload).Sound sys.uuid := by
  refine ⟨h.keeps, h.rows, ?_⟩
  intro row hrow
  split at hrow
  · cases hrow
  · exact h.rows row (ProvenanceRegistry.mem_of_getLatestByContractId hrow)

/-- A cycle that found a row which conveys the strategy keeps it. -/
theorem Sound.start (h : s.Sound sys.uuid) (hlooked : LookedUp s) {payload : EventPayload}
    {found : Option (ProvenanceRow Submitter)} (hworker : s.worker = .resolved payload found)
    {latestSnapshot : Option String}
    (hrows : RowsConvey sys.uuid s (.worker (.start latestSnapshot))) :
    (s.start payload found latestSnapshot).Sound sys.uuid := by
  unfold LookedUp at hlooked
  rw [hworker] at hlooked
  have hcarries := h.worker
  rw [hworker] at hcarries
  unfold PositionDesk.start
  split
  · exact ⟨h.keeps, h.rows, trivial⟩
  · next input hinput =>
    have hcycle : (⟨input, s.openerOf input.positionId⟩ : StartedCycle).KeepsStrategy := by
      intro request hopener haction
      obtain ⟨strategy, hne, hstrategy, hrecorded⟩ :=
        hrows payload found hworker input hinput request hopener haction
      refine ⟨strategy, hne, hstrategy, ?_⟩
      obtain ⟨row, hrow, hconveys⟩ := recordedConvey_iff.mp hrecorded
      rw [← hlooked] at hrow
      obtain rfl : found = some row := hrow
      rw [originalStrategyId_positionInput hinput]
      rcases hconveys with hsame | ⟨hown, huuid⟩
      · exact hsame
      · exact hcarries row rfl request strategy hown haction hne hstrategy huuid
    refine ⟨?_, h.rows, hcycle⟩
    intro cycle hmem
    rcases List.mem_cons.mp hmem with rfl | hmem
    · exact hcycle
    · exact h.keeps cycle hmem

/-- A step of the worker. -/
theorem Sound.work (h : s.Sound sys.uuid) (hlooked : LookedUp s) {step : WorkerStep}
    (hrows : RowsConvey sys.uuid s (.worker step)) : (s.work sys step).Sound sys.uuid := by
  unfold PositionDesk.work
  split
  · exact h.take
  · exact h.lookUp _
  · exact h.lookUpContract _
  · next hworker => exact h.start hlooked hworker hrows
  · next hworker =>
    have hkeeps := h.worker
    rw [hworker] at hkeeps
    split
    · next hsubmits => exact ⟨h.keeps, h.rows, carries_submits hkeeps hsubmits⟩
    · exact ⟨h.keeps, h.rows, trivial⟩
  · exact ⟨h.keeps, h.rows, carries_other _ _⟩
  · next hworker =>
    have hcarries := h.worker
    rw [hworker] at hcarries
    have hrecorded := h.recordRow hcarries
    exact ⟨h.keeps, (hrecorded _).rows, trivial⟩
  · exact ⟨h.keeps, h.rows, trivial⟩
  · exact h

/-- The step: what the desk does keeps it sound, if the rows for a cycle that is started convey the
strategy. -/
theorem sound_step (h : s.Sound sys.uuid) (hlooked : LookedUp s) {a : DeskStep}
    (hrows : RowsConvey sys.uuid s a) : (s.step sys a).Sound sys.uuid := by
  cases a with
  | handOver request command extra => exact ⟨h.keeps, h.rows, h.worker⟩
  | recorded index now =>
    unfold PositionDesk.step
    dsimp only
    split
    · next record _ =>
      have hrecorded := h.recordRow (carries_other sys.uuid record.strategyId) now
      exact ⟨h.keeps, hrecorded.rows, h.worker⟩
    · exact h
  | opened contractId clientOrderId =>
    unfold PositionDesk.step
    dsimp only
    split
    · exact h
    · exact ⟨h.keeps, h.rows, h.worker⟩
  | closed contractId => exact ⟨h.keeps, h.rows, h.worker⟩
  | orderEvent clientOrderId => exact ⟨h.keeps, h.rows, h.worker⟩
  | positionEvent closed clientOrderId contractId => exact ⟨h.keeps, h.rows, h.worker⟩
  | snapshotEvent snapshotId =>
    unfold PositionDesk.step routeSnapshot
    dsimp only
    split
    · exact ⟨h.keeps, h.rows, h.worker⟩
    · exact h
  | worker step => exact h.work hlooked hrows

/-- Where a cycle has its position's strategy, the rows for it conveyed the strategy. -/
theorem rowsConvey_of_keeps (hlooked : LookedUp s) {a : DeskStep}
    (h : KeepsStrategy (s.step sys a)) : RowsConvey sys.uuid s a := by
  cases a with
  | worker step =>
    cases step with
    | start latestSnapshot =>
      intro payload found hworker input hinput request hopener haction
      have hcycles : (s.step sys (.worker (.start latestSnapshot))).cycles =
          ⟨input, s.openerOf input.positionId⟩ :: s.cycles := by
        unfold PositionDesk.step PositionDesk.work
        simp only [hworker]
        unfold PositionDesk.start
        rw [Option.mem_def.mp hinput]
      have hcycle := h _ (hcycles ▸ List.mem_cons_self)
      obtain ⟨strategy, hne, hstrategy, horiginal⟩ := hcycle request hopener haction
      refine ⟨strategy, hne, hstrategy, recordedConvey_iff.mpr ?_⟩
      unfold LookedUp at hlooked
      rw [hworker] at hlooked
      rw [originalStrategyId_positionInput hinput] at horiginal
      obtain ⟨record, hrecord, hconveys⟩ := Option.bind_eq_some_iff.mp horiginal
      obtain ⟨row, hrow, rfl⟩ := Option.map_eq_some_iff.mp hrecord
      exact ⟨row, hlooked ▸ hrow, Or.inl hconveys⟩
    | _ => exact trivial
  | _ => exact trivial

end PositionDesk

/-- The run: every position cycle has the strategy of the ENTRY or PROBE that opened its position,
exactly when for every cycle the rows that were recorded by its lookups convey it. -/
theorem positionCycles_keepStrategy_iff (sys : PositionSystem) (xs : List DeskStep) :
    (∀ pre, pre <+: xs → KeepsStrategy (run (PositionDesk.step sys) .new pre)) ↔
      ∀ pre a, pre ++ [a] <+: xs →
        RowsConvey sys.uuid (run (PositionDesk.step sys) .new pre) a := by
  have hnew : LookedUp PositionDesk.new := trivial
  have hlooked (pre : List DeskStep) : LookedUp (run (PositionDesk.step sys) .new pre) :=
    run_invariant (I := LookedUp) (L := fun _ ↦ True) (fun s a h _ ↦ lookedUp_step h a) pre
      (fun _ _ ↦ trivial) hnew
  constructor
  · intro h pre a hp
    have hkeeps := h (pre ++ [a]) hp
    rw [run_snoc] at hkeeps
    exact PositionDesk.rowsConvey_of_keeps (hlooked pre) hkeeps
  · intro h pre hp
    have hsound := run_invariant_of_steps (I := fun s ↦ s.Sound sys.uuid ∧ LookedUp s)
      (fun s a hs hok ↦ ⟨PositionDesk.sound_step hs.1 hs.2 hok, lookedUp_step hs.2 a⟩)
      ⟨PositionDesk.sound_new sys.uuid, hnew⟩ h pre hp
    exact hsound.1.keeps

/-! ### Samples -/

/-- A worker with a gateway and an order manager; every text is the text of a UUID. -/
def PositionSystem.sample : PositionSystem where
  gateway := OrderActionGateway.answering
  orders := .sample
  uuid := some
  enabled := true

/-- The contract of the sample position. -/
def spyCall : Broker.OptionContract := ⟨"SPY", ⟨2026, 7, 1⟩, ⟨⟨false, 5000, -1⟩⟩, .call⟩

/-- An entry of a strategy. -/
def entered : OrderActionRequest :=
  { OrderActionRequest.sample .entry (Broker.contractIdFor spyCall) .buy 2 "entry" with
    strategyId := some "9f1b5c7e-0d2a-4e3b-8c6f-1a2b3c4d5e6f" }

/-- The order manager replaces what is left of the entry. -/
def replacesEntry : OrderWork :=
  { cancelDecided "1" "decision" none with
    clientOrderId := "entry"
    decision :=
      { decisionId := "decision", cycleId := "cycle", snapshotId := "snapshot"
        clientOrderId := "entry", action := .replace, newLimitPrice := none, newQuantity := none
        rationaleSummary := "stale" } }

/-- The command of a purchase of the contract. -/
def bought (request : OrderActionRequest) : ExecutionCommand :=
  OrderActionGateway.commandOf request request.clientOrderId spyCall .buy request.quantity

/-- The command of the replacement. -/
def replacement : ExecutionCommand := bought (replacesEntry.replacementRequest .sample spyCall)

/-- A second of the sample session. -/
def atSecond (second : ℕ) : Datetime := ⟨2026, 7, 1, 14, 30, second, 0, some 0⟩

/-- The worker takes an event and starts a cycle. -/
def startsCycle : List DeskStep :=
  [.worker .take, .worker .lookUp, .worker .lookUpContract, .worker (.start (some "snapshot"))]

/-- Half of an entry is filled; the order manager replaces the rest; then a snapshot comes. -/
def replacedHalf : List DeskStep :=
  [.handOver entered (bought entered) (.replaceOf none), .orderEvent "entry",
    .opened (Broker.contractIdFor spyCall) "entry",
    .positionEvent false "entry" (Broker.contractIdFor spyCall), .recorded 0 (atSecond 1),
    .worker .take, .worker (.manage replacesEntry spyCall replacement),
    .worker (.recorded (atSecond 2))] ++
  startsCycle ++ [.worker .finish, .snapshotEvent "snapshot"] ++ startsCycle

/-- An entry is filled, and its position's event worked on, before its row is recorded. -/
def workedEarly : List DeskStep :=
  [.handOver entered (bought entered) (.replaceOf none),
    .opened (Broker.contractIdFor spyCall) "entry",
    .positionEvent false "entry" (Broker.contractIdFor spyCall)] ++ startsCycle

private theorem not_keepsStrategy_of_none {s : PositionDesk}
    (h : ∃ cycle ∈ s.cycles, cycle.opener.any (fun r ↦ r.action = .entry) = true ∧
      cycle.input.originalStrategyId = none) : ¬ KeepsStrategy s := by
  intro hkeeps
  obtain ⟨cycle, hcycle, hentry, hnone⟩ := h
  cases hopener : cycle.opener with
  | none =>
    rw [hopener] at hentry
    cases hentry
  | some request =>
    rw [hopener] at hentry
    have hentered : request.action = .entry := of_decide_eq_true hentry
    obtain ⟨strategy, -, -, hsome⟩ := hkeeps cycle hcycle request hopener (by simp [hentered])
    rw [hnone] at hsome
    cases hsome

/-- A cycle has no strategy after the order manager replaced the rest of the entry, and none before
the entry's row is recorded. -/
theorem not_positionCycles_keepStrategy :
    ¬ KeepsStrategy (run (PositionDesk.step .sample) .new replacedHalf) ∧
      ¬ KeepsStrategy (run (PositionDesk.step .sample) .new workedEarly) :=
  ⟨not_keepsStrategy_of_none (by decide +kernel), not_keepsStrategy_of_none (by decide +kernel)⟩

end Joker.Graph
