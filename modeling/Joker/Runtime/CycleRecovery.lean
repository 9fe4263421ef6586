import Joker.Base.Runs
import Joker.Base.UtcTime
import Joker.Persistence.CycleRegistry
import Joker.Runtime.OrderActionGateway

/-!
# Recovery of cognitive cycles

Library `Runtime`. How `CognitiveAgentRuntime` keeps its decision and position cycles in the
registry, and what a start after a crash makes of it. A cycle's row is written before its graph is
invoked, and the process may die in between. A graph is invoked from the outside: it ends with a
state, or raises, or the process dies first. Other sessions may write to the same table. The graph's
checkpointer is not modelled; an invocation is known by its thread id.
-/

namespace Joker.Runtime

open Joker.Base Joker.Persistence

/-! ### Outcomes of a graph -/

/-- What `_cycle_reached_terminal_outcome` reads of a graph's state: the codes of its errors, the
names and the statuses of its node traces, and the ids of its commands. -/
structure CycleResult where
  errorCodes : List (Option String)
  nodeTrace : List (Option String × Option String)
  executionCommandId : Option String
  positionCommandId : Option String
  deriving DecidableEq, Repr

/-- `blocking_codes`. Source `joker/runtime/cognitive_agent_runtime.py:280–287`. -/
def blockingCodes : List String :=
  ["no_submit_callback", "no_order_action_gateway", "gateway_blocked", "submit_validation_failed",
    "validation_failed", "cycle_recovery_failed"]

/-- `terminal_nodes`. Source `joker/runtime/cognitive_agent_runtime.py:295–301`. -/
def terminalNodes : List String :=
  ["persist_cycle", "persist_pending_cycle", "persist_evidence_request", "persist_stale",
    "route_position_action"]

/-- One of the errors blocks the cycle. -/
def CycleResult.blocked (state : CycleResult) : Bool :=
  state.errorCodes.any (fun code ↦ code.any (fun code ↦ code ∈ blockingCodes))

/-- A terminal node was completed. -/
def CycleResult.closed (state : CycleResult) : Bool :=
  state.nodeTrace.any (fun trace ↦
    trace.1.any (fun name ↦ name ∈ terminalNodes) && trace.2 = some "completed")

/-- A text that is truthy. -/
def truthyText (text : Option String) : Bool := text.any (fun text ↦ text ≠ "")

/-- `_cycle_reached_terminal_outcome`; `none` is what is no `dict`.
Source `joker/runtime/cognitive_agent_runtime.py:271–315`. -/
def cycleReachedTerminalOutcome (state : Option CycleResult) (graphKind : GraphKind) : Bool :=
  match state with
  | none => false
  | some state =>
    if state.blocked then false
    else if state.closed then true
    else
      match graphKind with
      | .decision => truthyText state.executionCommandId
      | .position => truthyText state.positionCommandId

/-- How an invocation of a graph ends: it raises or times out, or returns. -/
inductive CycleOutcome where
  | raised
  | returned (state : Option CycleResult)
  deriving DecidableEq, Repr

/-- The invocation ended in a terminal outcome. -/
def CycleOutcome.terminal (graphKind : GraphKind) : CycleOutcome → Bool
  | .raised => false
  | .returned state => cycleReachedTerminalOutcome state graphKind

/-! ### Work -/

/-- `cognitive_thread_id`. Source `joker/graph/langgraph_checkpointer.py:61–63`. -/
def cognitiveThreadId (sessionId : String) (graphKind : GraphKind) (cycleId : String) : String :=
  sessionId ++ ":" ++ graphKind.value ++ ":" ++ cycleId

/-- The thread of a key. -/
def threadOf (key : CycleKey) : String := cognitiveThreadId key.sessionId key.graphKind key.cycleId

/-- Settings of the runtime; `uuid5` is the hash of a name in `NAMESPACE_URL`. -/
structure CycleConfig where
  sessionId : String
  positionEnabled : Bool
  uuid5 : String → String

/-- `stable_position_cycle_id`, for the default purpose.
Source `joker/persistence/cognitive_cycle_registry.py:39–46`. -/
def stablePositionCycleId (config : CycleConfig) (eventId : String) : String :=
  config.uuid5 (config.sessionId ++ ":" ++ eventId ++ ":position_reassessment")

/-- A cycle that is about to be invoked. -/
structure CycleWork where
  graphKind : GraphKind
  cycleId : String
  triggerEventId : String
  snapshotId : String
  parentEntryCycleId : Option String
  originalStrategyId : Option String
  originalProposalId : Option String
  deriving DecidableEq, Repr

/-- The event of a decision cycle, as far as `_invoke_decision_graph` reads it. -/
structure DecisionEvent where
  eventId : String
  snapshotId : Option String
  marketSnapshotId : Option String
  cycleId : Option String
  deriving DecidableEq

/-- `_invoke_decision_graph` up to its first write; `fresh` is its `uuid4`.
Source `joker/runtime/cognitive_agent_runtime.py:623–717`. -/
def decisionWork (event : DecisionEvent) (workingEntry : Bool) (fresh : String) :
    Option CycleWork :=
  let snapshotId := OrderActionGateway.orTexts [event.snapshotId, event.marketSnapshotId] ""
  if workingEntry ∨ snapshotId = "" then none
  else
    some
      { graphKind := .decision
        cycleId := OrderActionGateway.orTexts [event.cycleId] fresh
        triggerEventId := event.eventId
        snapshotId := snapshotId
        parentEntryCycleId := none
        originalStrategyId := none
        originalProposalId := none }

/-- The event of a position cycle with the fields of its resolved payload that
`_run_position_work` reads. -/
structure PositionEvent where
  eventId : String
  closed : Bool
  positionId : Option String
  activePositionId : Option String
  contractId : Option String
  snapshotId : Option String
  marketSnapshotId : Option String
  parentEntryCycleId : Option String
  cycleId : Option String
  originalStrategyId : Option String
  strategyId : Option String
  proposalId : Option String
  deriving DecidableEq

/-- `str(a or b or "") or None`. -/
def orNone (texts : List (Option String)) : Option String :=
  let text := OrderActionGateway.orTexts texts ""
  if text = "" then none else some text

/-- `_run_position_work` up to its first write.
Source `joker/runtime/cognitive_agent_runtime.py:759–881`. -/
def positionWork (config : CycleConfig) (event : PositionEvent) : Option CycleWork :=
  let positionId := OrderActionGateway.orTexts
    [event.positionId, event.activePositionId, event.contractId] ""
  let snapshotId := OrderActionGateway.orTexts [event.snapshotId, event.marketSnapshotId] ""
  if config.positionEnabled = false ∨ event.closed ∨ positionId = "" ∨ snapshotId = "" then none
  else
    some
      { graphKind := .position
        cycleId := stablePositionCycleId config event.eventId
        triggerEventId := event.eventId
        snapshotId := snapshotId
        parentEntryCycleId := orNone [event.parentEntryCycleId, event.cycleId]
        originalStrategyId := orNone [event.originalStrategyId, event.strategyId]
        originalProposalId := orNone [event.proposalId] }

namespace CycleWork

/-- The key of the cycle. -/
def key (config : CycleConfig) (work : CycleWork) : CycleKey :=
  ⟨config.sessionId, work.graphKind, work.cycleId⟩

/-- The record of the first write. -/
def running (config : CycleConfig) (work : CycleWork) : CognitiveCycleRecord :=
  { sessionId := config.sessionId
    graphKind := work.graphKind
    cycleId := work.cycleId
    triggerEventId := some work.triggerEventId
    snapshotId := some work.snapshotId
    status := .running
    checkpointThreadId := cognitiveThreadId config.sessionId work.graphKind work.cycleId
    lastCompletedNode := none
    parentEntryCycleId := work.parentEntryCycleId
    originalStrategyId := work.originalStrategyId
    originalProposalId := work.originalProposalId
    payload := none
    updatedAt := none }

/-- The record of the second write, which leaves the parent entry out. -/
def returned (config : CycleConfig) (work : CycleWork) (terminal : Bool) : CognitiveCycleRecord :=
  { work.running config with
    status := if terminal then .completed else .running
    parentEntryCycleId := none }

end CycleWork

/-! ### The runtime -/

/-- A cycle whose row is written as running, and whether its graph was invoked by now. -/
structure CycleInFlight where
  work : CycleWork
  invoked : Bool

/-- An unfinished cycle whose row is written again, and whether its graph was invoked by now. -/
structure Resumption where
  record : CognitiveCycleRecord
  invoked : Bool

/-- The process: it does not run, goes through the unfinished cycles, or works. -/
inductive RuntimePhase where
  | down
  | resuming (current : Option Resumption) (left : List CognitiveCycleRecord)
  | up

/-- A line of the history: a cycle was written as running, before its graph is invoked, or the state
that its graph returned was written. -/
inductive CycleNote where
  | began (key : CycleKey)
  | returned (key : CycleKey) (terminal : Bool)
  deriving DecidableEq

/-- The runtime and the registry. The threads that graphs were invoked on, and the notes, are
history that no code reads. -/
structure CycleRuntime where
  registry : CognitiveCycleRegistry
  phase : RuntimePhase
  inFlight : List CycleInFlight
  threads : List String
  notes : List CycleNote

/-- What happens next. `start` is the start of a process, which reads the registry if it has a
checkpointer and the read does not raise. A cycle is written, its graph invoked, and its end
written, in steps of their own: the process can die between any two. So is a resumption, whose first
write may raise. -/
inductive CycleAction where
  | decision (event : DecisionEvent) (workingEntry : Bool) (fresh : String) (now : UtcTime)
  | position (event : PositionEvent) (now : UtcTime)
  | invoke (graphKind : GraphKind)
  | finish (graphKind : GraphKind) (outcome : CycleOutcome) (now : UtcTime)
  | die
  | start (reads : Bool)
  | resume (writes : Bool) (now : UtcTime)
  | invokeResumed
  | resumed (outcome : CycleOutcome) (now : UtcTime)
  | other (record : CognitiveCycleRecord) (now : UtcTime)

namespace CycleRuntime

/-- A runtime that was never started, on an empty registry. -/
def new : CycleRuntime := ⟨CognitiveCycleRegistry.empty, .down, [], [], []⟩

/-- A record is written. -/
def write (record : CognitiveCycleRecord) (now : UtcTime) (s : CycleRuntime) : CycleRuntime :=
  { s with registry := s.registry.upsert record now.text }

/-- A record is written as running. -/
def writeRunning (record : CognitiveCycleRecord) (now : UtcTime) (s : CycleRuntime) :
    CycleRuntime :=
  { s.write record now with notes := s.notes ++ [.began record.key] }

/-- Writing a row leaves the phase. -/
theorem writeRunning_phase (record : CognitiveCycleRecord) (now : UtcTime) (s : CycleRuntime) :
    (s.writeRunning record now).phase = s.phase := rfl

/-- A graph is invoked for the cycle of a key. -/
def invokeGraph (key : CycleKey) (s : CycleRuntime) : CycleRuntime :=
  { s with threads := s.threads ++ [threadOf key] }

/-- `_invoke_decision_graph` or `_run_position_work` up to the first write. The worker of a kind
awaits its cycle, so there is one at a time.
Source `joker/runtime/cognitive_agent_runtime.py:623–717`. -/
def begin (config : CycleConfig) (work : Option CycleWork) (now : UtcTime) (s : CycleRuntime) :
    CycleRuntime :=
  match s.phase, work with
  | .up, some work =>
    if s.inFlight.any (fun other ↦ other.work.graphKind = work.graphKind) then s
    else
      { s.writeRunning (work.running config) now with inFlight := s.inFlight ++ [⟨work, false⟩] }
  | _, _ => s

/-- The graph of a cycle that is written is invoked. -/
def invoke (config : CycleConfig) (graphKind : GraphKind) (s : CycleRuntime) : CycleRuntime :=
  match s.inFlight.find? (fun cycle ↦ cycle.work.graphKind = graphKind ∧ !cycle.invoked) with
  | none => s
  | some cycle =>
    { s.invokeGraph (cycle.work.key config) with
      inFlight := s.inFlight.map (fun other ↦
        if other.work.graphKind = graphKind then { other with invoked := true } else other) }

/-- The end of a cycle. An exception, raised by the graph or before it is invoked, leaves the row as
it is. -/
def finish (config : CycleConfig) (graphKind : GraphKind) (outcome : CycleOutcome) (now : UtcTime)
    (s : CycleRuntime) : CycleRuntime :=
  match s.inFlight.find? (fun cycle ↦ cycle.work.graphKind = graphKind) with
  | none => s
  | some cycle =>
    let ended :=
      { s with inFlight := s.inFlight.filter (fun cycle ↦ cycle.work.graphKind ≠ graphKind) }
    match outcome with
    | .raised => ended
    | .returned _ =>
      if cycle.invoked then
        { ended.write (cycle.work.returned config (outcome.terminal graphKind)) now with
          notes := s.notes ++ [.returned (cycle.work.key config) (outcome.terminal graphKind)] }
      else s

/-- The phase in which some records are left to resume. -/
def nextPhase : List CognitiveCycleRecord → RuntimePhase
  | [] => .up
  | left => .resuming none left

/-- `start` up to the first resumption.
Source `joker/runtime/cognitive_agent_runtime.py:134–188`. -/
def start (config : CycleConfig) (reads : Bool) (s : CycleRuntime) : CycleRuntime :=
  match s.phase with
  | .down =>
    { s with
      phase := if reads then nextPhase (s.registry.listResumable config.sessionId) else .up }
  | _ => s

/-- The next unfinished cycle is written; an exception of the write ends the recovery.
Source `joker/runtime/cognitive_agent_runtime.py:190–268`. -/
def resume (writes : Bool) (now : UtcTime) (s : CycleRuntime) : CycleRuntime :=
  match s.phase with
  | .resuming none (record :: left) =>
    if writes then
      { s.writeRunning record.resumed now with phase := .resuming (some ⟨record, false⟩) left }
    else { s with phase := .up }
  | _ => s

/-- The graph of a cycle that is resumed is invoked. -/
def invokeResumed (s : CycleRuntime) : CycleRuntime :=
  match s.phase with
  | .resuming (some ⟨record, false⟩) left =>
    { s.invokeGraph record.key with phase := .resuming (some ⟨record, true⟩) left }
  | _ => s

/-- A resumption ends; an exception leaves the row as it is. -/
def endResumption (outcome : CycleOutcome) (now : UtcTime) (s : CycleRuntime) : CycleRuntime :=
  match s.phase with
  | .resuming (some ⟨record, true⟩) left =>
    match outcome with
    | .raised => { s with phase := nextPhase left }
    | .returned _ =>
      { s.write (record.recovered (outcome.terminal record.graphKind)) now with
        phase := nextPhase left
        notes := s.notes ++ [.returned record.key (outcome.terminal record.graphKind)] }
  | _ => s

/-- One action. -/
def step (config : CycleConfig) (s : CycleRuntime) : CycleAction → CycleRuntime
  | .decision event workingEntry fresh now =>
    s.begin config (decisionWork event workingEntry fresh) now
  | .position event now => s.begin config (positionWork config event) now
  | .invoke graphKind => s.invoke config graphKind
  | .finish graphKind outcome now => s.finish config graphKind outcome now
  | .die => { s with phase := .down, inFlight := [] }
  | .start reads => s.start config reads
  | .resume writes now => s.resume writes now
  | .invokeResumed => s.invokeResumed
  | .resumed outcome now => s.endResumption outcome now
  | .other record now => if record.sessionId = config.sessionId then s else s.write record now

end CycleRuntime

/-! ### What is unfinished -/

/-- A line of the history, told to the queue of unfinished cycles: one that is written as running
goes to its end, one that returned leaves it when its outcome is terminal. -/
def CycleNote.tell (queue : List CycleKey) : CycleNote → List CycleKey
  | .began key => touch queue key
  | .returned key terminal => if terminal then leave queue key else touch queue key

/-- The cycles that were written as running and not brought to a terminal outcome since, the one
touched last at the end. -/
def unfinishedCycles (notes : List CycleNote) : List CycleKey := notes.foldl CycleNote.tell []

/-- One more note is told to the queue of the notes before. -/
theorem unfinishedCycles_snoc (notes : List CycleNote) (note : CycleNote) :
    unfinishedCycles (notes ++ [note]) = note.tell (unfinishedCycles notes) := by
  unfold unfinishedCycles
  rw [List.foldl_append]
  rfl

/-- No cycle is unfinished twice. -/
theorem nodup_unfinishedCycles (notes : List CycleNote) : (unfinishedCycles notes).Nodup := by
  induction notes using List.reverseRecOn with
  | nil => exact List.nodup_nil
  | append_singleton notes note ih =>
    rw [unfinishedCycles_snoc]
    cases note with
    | began key => exact nodup_touch ih key
    | returned key terminal =>
      cases terminal with
      | true => exact nodup_leave ih key
      | false => exact nodup_touch ih key

end Joker.Runtime
