import Mathlib.Data.Prod.Lex
import Mathlib.Data.List.Sort
import Joker.Base.Coroutine
import Joker.Runtime.WorkingOrders

/-!
# New-entry decision cycles

Library `Runtime`. The path of a market snapshot through `CognitiveAgentRuntime`: the handler
tests that the ledger is flat and queues the snapshot or keeps it as the pending one, the worker
takes an item and starts the decision graph. The handlers, the worker, and the changes of the
ledger are tasks that interleave at every await. The lock around a cycle is held exactly while
the in-flight flag is set, and no await separates the flag's test from its setting, so the flag
stands for both.
-/

namespace Joker.Runtime

open Joker.Base Joker.Ledger

/-! ### Projections -/

/-- `_open_position_contract_ids`, of a loaded projection.
Source `joker/runtime/cognitive_agent_runtime.py:460–492`. -/
def openPositionContractIds (projection : ProjectionState) : List String :=
  projection.positions.entries.filterMap (fun e ↦
    if e.2.quantity = 0 then none
    else
      let cid := if e.2.contractId = "" then e.1 else e.2.contractId
      if cid = "" then none else some cid)

/-- No position is open. -/
def NoOpenPosition (projection : ProjectionState) : Prop := openPositionContractIds projection = []

/-- No buy order has a remaining quantity. -/
def NoWorkingBuy (projection : ProjectionState) : Prop :=
  hasWorkingEntryOrder (workingOrdersFromProjection (some projection) Dict.empty) = false

/-- Neither an open position nor a working buy order. -/
def Flat (projection : ProjectionState) : Prop :=
  NoOpenPosition projection ∧ NoWorkingBuy projection

instance : DecidablePred NoOpenPosition := fun _ ↦ inferInstanceAs (Decidable (_ = _))

instance : DecidablePred NoWorkingBuy := fun _ ↦ inferInstanceAs (Decidable (_ = _))

instance : DecidablePred Flat := fun _ ↦ inferInstanceAs (Decidable (_ ∧ _))

/-! ### Events and queues -/

/-- The events the runtime is subscribed to.
Source `joker/runtime/cognitive_agent_runtime.py:494–514`. -/
inductive AgentEventKind where
  | snapshotCreated
  | order
  | position
  deriving DecidableEq

/-- An event, as far as its routing reads it. -/
structure AgentEvent where
  kind : AgentEventKind
  snapshotId : Option String
  marketSnapshotId : Option String
  contractId : Option String
  deriving DecidableEq

/-- `str(payload.get("snapshot_id") or payload.get("market_snapshot_id") or "")`. -/
def AgentEvent.snapshot (event : AgentEvent) : String :=
  match event.snapshotId, event.marketSnapshotId with
  | some id, other => if id = "" then other.getD "" else id
  | none, other => other.getD ""

/-- `_QueuedWork`. Source `joker/runtime/cognitive_agent_runtime.py:57–61`. -/
structure QueuedWork where
  priority : ℕ
  sequence : ℕ
  event : AgentEvent
  deriving DecidableEq

namespace QueuedWork

/-- The order of a priority queue: by priority, then by sequence. -/
def Le (a b : QueuedWork) : Prop :=
  a.priority < b.priority ∨ a.priority = b.priority ∧ a.sequence ≤ b.sequence

instance : DecidableRel Le := fun _ _ ↦ inferInstanceAs (Decidable (_ ∨ _))

end QueuedWork

/-- `_Priority`. Source `joker/runtime/cognitive_agent_runtime.py:50–53, 516–533`. -/
def criticalPriority : ℕ := 0

@[inherit_doc criticalPriority]
def positionSnapshotPriority : ℕ := 1

@[inherit_doc criticalPriority]
def newEntrySnapshotPriority : ℕ := 2

/-- Settings that decide the routing, and which collaborators are configured. -/
structure AgentRuntimeConfig where
  marketSnapshotCoalescing : Bool
  positionEnabled : Bool
  hasCycleRegistry : Bool
  hasEventBus : Bool

/-- Which awaited calls raise at the moment; a missing projection loader counts as one that
raises. -/
structure AgentOutside where
  loaderRaises : Bool
  registryRaises : Bool
  busRaises : Bool

/-- The state of the runtime and the ledger that its loader projects. `starts` records the
ledger at every start of the decision graph.
Source `joker/runtime/cognitive_agent_runtime.py:73–1137`. -/
structure AgentState where
  ledger : ProjectionState
  decisionQueue : List QueuedWork
  positionQueue : List QueuedWork
  sequence : ℕ
  newEntryInFlight : Bool
  pendingNewEntrySnapshot : Option String
  outside : AgentOutside
  starts : List ProjectionState

namespace AgentState

/-- A runtime that has just been started. -/
def new (ledger : ProjectionState) (outside : AgentOutside) : AgentState :=
  ⟨ledger, [], [], 0, false, none, outside, []⟩

/-- `self._sequence += 1` and `_decision_queue.put`. -/
def putDecision (s : AgentState) (event : AgentEvent) : AgentState :=
  { s with
    sequence := s.sequence + 1
    decisionQueue := s.decisionQueue.orderedInsert QueuedWork.Le
      ⟨newEntrySnapshotPriority, s.sequence + 1, event⟩ }

/-- `self._sequence += 1` and `_position_queue.put`. -/
def putPosition (priority : ℕ) (event : AgentEvent) (s : AgentState) : AgentState :=
  { s with
    sequence := s.sequence + 1
    positionQueue := s.positionQueue.orderedInsert QueuedWork.Le
      ⟨priority, s.sequence + 1, event⟩ }

/-- `snapshot_id or self._pending_new_entry_snapshot`. -/
def keepPending (s : AgentState) (snapshotId : String) : AgentState :=
  if snapshotId = "" then s else { s with pendingNewEntrySnapshot := some snapshotId }

/-- A snapshot waits for the current cycle to end. -/
def HasPending (s : AgentState) : Prop := ∃ id ∈ s.pendingNewEntrySnapshot, id ≠ ""

instance (s : AgentState) : Decidable s.HasPending :=
  decidable_of_iff (s.pendingNewEntrySnapshot.any (fun id ↦ id ≠ "") = true) (by
    unfold HasPending
    cases s.pendingNewEntrySnapshot <;> simp)

end AgentState

/-! ### Coroutines -/

/-- The awaited operations, with what the code has found out before them. -/
inductive AgentOp where
  /-- First `await projection_loader()` of a snapshot's handler. -/
  | loadPositions
  /-- Second one; `flat` when the first one gave no open position. -/
  | loadOrders (flat : Bool)
  /-- The handler's stretch after its loads. -/
  | enqueue (flat : Bool)
  /-- An order or position event is queued. -/
  | put
  /-- `_decision_queue.get()` with its timeout. -/
  | get
  /-- `_run_decision_work` up to the start of its task; `taken` when the queue had an item. -/
  | begin (taken : Bool)
  /-- The load of `_invoke_decision_graph`. -/
  | recheck
  | upsert
  | publish
  | startGraph
  /-- The end of the cycle. -/
  | finish
  /-- The ledger becomes another one. -/
  | change (ledger : ProjectionState)

/-- An exception of a collaborator. -/
inductive AgentError where
  | raised
  deriving DecidableEq

/-- A coroutine of the runtime. -/
abbrev AgentM (α : Type) := Coro AgentOp AgentState AgentError α

section Coroutines

variable (config : AgentRuntimeConfig)

/-- `_open_position_contract_ids`; a loader that raises gives an empty list.
Source `joker/runtime/cognitive_agent_runtime.py:460–492`. -/
def openPositionContractIdsNow : AgentM (List String) :=
  Coro.atomic .loadPositions (fun s ↦
    (s, .ok (if s.outside.loaderRaises then [] else openPositionContractIds s.ledger)))

/-- `_has_working_entry_order`; a loader that raises gives false.
Source `joker/runtime/cognitive_agent_runtime.py:446–458`. -/
def hasWorkingEntryOrderNow (op : AgentOp) : AgentM Bool :=
  Coro.atomic op (fun s ↦
    (s, .ok (!s.outside.loaderRaises &&
      hasWorkingEntryOrder (workingOrdersFromProjection (some s.ledger) Dict.empty))))

/-- The snapshot for the position worker, once for each open position. -/
def routePositions (event : AgentEvent) (openPositions : List String) (s : AgentState) :
    AgentState :=
  if config.positionEnabled then
    openPositions.foldl (fun s contractId ↦ s.putPosition positionSnapshotPriority
      ⟨.snapshotCreated, some event.snapshot, event.marketSnapshotId, some contractId⟩) s
  else s

/-- The stretch of `_enqueue_snapshot_work` after its loads. -/
def enqueueLoaded (event : AgentEvent) (openPositions : List String) (workingEntry : Bool)
    (s : AgentState) : AgentState :=
  let routed := routePositions config event openPositions s
  -- New-entry only when flat and no working entry order.
  if openPositions = [] ∧ workingEntry = false then
    if config.marketSnapshotCoalescing && routed.newEntryInFlight then
      routed.keepPending event.snapshot
    else routed.putDecision event
  else routed

/-- `_enqueue_snapshot_work`. Source `joker/runtime/cognitive_agent_runtime.py:389–444`. -/
def enqueueSnapshotWork (event : AgentEvent) : AgentM Unit := do
  let openPositions ← openPositionContractIdsNow
  let workingEntry ← hasWorkingEntryOrderNow (.loadOrders openPositions.isEmpty)
  Coro.atomic (.enqueue openPositions.isEmpty) (fun s ↦
    (enqueueLoaded config event openPositions workingEntry s, .ok ()))

/-- `on_event`. Source `joker/runtime/cognitive_agent_runtime.py:365–387`. -/
def onEvent (event : AgentEvent) : AgentM Unit :=
  match event.kind with
  | .snapshotCreated => enqueueSnapshotWork config event
  | _ => Coro.atomic .put (fun s ↦ (s.putPosition criticalPriority event, .ok ()))

/-- An awaited call of a collaborator, if it is configured. -/
def callIf (configured : Bool) (op : AgentOp) (raises : AgentOutside → Bool) : AgentM Unit :=
  if configured then
    Coro.atomic op (fun s ↦ (s, if raises s.outside then .error .raised else .ok ()))
  else pure ()

/-- The part of `_invoke_decision_graph` after its test, up to the start of the graph. -/
def startDecisionGraph (event : AgentEvent) : AgentM Unit :=
  if event.snapshot = "" then pure ()
  else do
    callIf config.hasCycleRegistry .upsert (·.registryRaises)
    callIf config.hasEventBus .publish (·.busRaises)
    Coro.atomic .startGraph (fun s ↦ ({ s with starts := s.starts ++ [s.ledger] }, .ok ()))

/-- `_invoke_decision_graph`, up to the start of the graph.
Source `joker/runtime/cognitive_agent_runtime.py:623–717`. -/
def invokeDecisionGraph (event : AgentEvent) : AgentM Unit := do
  let workingEntry ← hasWorkingEntryOrderNow .recheck
  if workingEntry then pure () else startDecisionGraph config event

/-- The test and the setting of the flag in `_run_decision_work`: the event to run, unless a
cycle is in flight and takes it as pending.
Source `joker/runtime/cognitive_agent_runtime.py:598–621`. -/
def beginWork (event : AgentEvent) (s : AgentState) : AgentState × Option AgentEvent :=
  if s.newEntryInFlight then (s.keepPending event.snapshot, none)
  else ({ s with newEntryInFlight := true }, some event)

/-- `_run_coalesced_new_entry` up to its cycle, when the worker finds the queue empty.
Source `joker/runtime/cognitive_agent_runtime.py:584–596`. -/
def beginCoalesced (s : AgentState) : AgentState × Option AgentEvent :=
  match s.pendingNewEntrySnapshot with
  | some id =>
    if id = "" ∨ s.newEntryInFlight then (s, none)
    else
      beginWork ⟨.snapshotCreated, some id, none, none⟩ { s with pendingNewEntrySnapshot := none }
  | none => (s, none)

/-- `_decision_queue.get()`; none when the queue stays empty until the timeout. -/
def takeWork : AgentM (Option QueuedWork) :=
  Coro.atomic .get (fun s ↦
    match s.decisionQueue with
    | [] => (s, .ok none)
    | work :: rest => ({ s with decisionQueue := rest }, .ok (some work)))

/-- The event that the worker runs: the queued one, or the pending one after a timeout. -/
def chooseEvent : Option QueuedWork → AgentM (Option AgentEvent)
  | some work => Coro.atomic (.begin true) (fun s ↦
    ((beginWork work.event s).1, .ok (beginWork work.event s).2))
  | none => Coro.atomic (.begin false) (fun s ↦ ((beginCoalesced s).1, .ok (beginCoalesced s).2))

/-- The cycle of an event; the flag is cleared however the cycle ends. -/
def runCycle : Option AgentEvent → AgentM Unit
  | none => pure ()
  | some event => do
    let _ ← (invokeDecisionGraph config event).attempt
    Coro.atomic .finish (fun s ↦ ({ s with newEntryInFlight := false }, .ok ()))

/-- One turn of `_decision_worker_loop`.
Source `joker/runtime/cognitive_agent_runtime.py:535–557`. -/
def decisionWorkerTurn : AgentM Unit := do
  let work ← takeWork
  let event ← chooseEvent work
  runCycle config event

/-- The tasks: the handler of an event, a turn of the worker, a change of the ledger. -/
inductive AgentTask where
  | onEvent (event : AgentEvent)
  | workerTurn
  | ledger (ledger : ProjectionState)

/-- The coroutine of a task. -/
def agentBody : AgentTask → AgentM Unit
  | .onEvent event => onEvent config event
  | .workerTurn => decisionWorkerTurn config
  | .ledger ledger => Coro.atomic (.change ledger) (fun s ↦ ({ s with ledger := ledger }, .ok ()))

end Coroutines

/-- A pool of tasks of the runtime. -/
abbrev AgentPool := Pool AgentTask AgentOp AgentState AgentError Unit

/-- Tasks in any order of steps, over a runtime that has just been started. -/
def runAgent (config : AgentRuntimeConfig) (ledger : ProjectionState) (outside : AgentOutside)
    (xs : List (PoolAction AgentTask AgentOutside)) : AgentPool :=
  run (Pool.step (agentBody config) (fun outside s ↦ { s with outside := outside }))
    (Pool.start (AgentState.new ledger outside)) xs

end Joker.Runtime
