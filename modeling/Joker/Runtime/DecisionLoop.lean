import Joker.Agents.Decision
import Joker.Base.EventLog
import Joker.Base.Runs

/-!
# The agent's decision loop

Library `Runtime`. The `agent_led` part of the loop in `joker/runtime/live_paper_runner.py`, with
`try_enter_from_decision` of `joker/runtime/market_handler.py`. An agent first proposes an entry
and confirms it in a later turn. Every entry that is attempted confirms the proposal that stands
then: it was made long enough before and not too long ago, the market is still near it, and it has
not been replaced, abandoned, expired or entered since. What the clock, the feeds, the agent and
the entry itself answer are inputs of a turn.
-/

namespace Joker.Runtime

open Joker.Base Joker.Broker Joker.Risk Joker.Agents
open Joker.Risk.Governor (Direction)

/-! ### Settings and inputs -/

/-- `AgentSettings`, as far as the loop reads it. Source `joker/config/settings.py:58–83`. -/
structure AgentSettings where
  intradayEnabled : Bool
  decisionIntervalSeconds : ℚ
  fastConfirmMinSeconds : ℚ
  maxDecisionCallsPerSession : ℤ
  maxProposalsPerSession : ℤ
  minProposalConfidence : ℚ
  requireProposeBeforeEnter : Bool
  useEdgePrefilter : Bool
  confirm : ConfirmLimits

namespace AgentSettings

/-- `float(agent_cfg.fast_confirm_min_seconds or 8.0)`. -/
def fastConfirmMin (settings : AgentSettings) : ℚ :=
  if settings.fastConfirmMinSeconds = 0 then 8 else settings.fastConfirmMinSeconds

/-- `float(agent_cfg.decision_interval_seconds or 45.0)`. -/
def decisionInterval (settings : AgentSettings) : ℚ :=
  if settings.decisionIntervalSeconds = 0 then 45 else settings.decisionIntervalSeconds

/-- `int(agent_cfg.max_decision_calls_per_session or 40)`. -/
def maxDecisionCalls (settings : AgentSettings) : ℤ :=
  if settings.maxDecisionCallsPerSession = 0 then 40 else settings.maxDecisionCallsPerSession

end AgentSettings

/-- What a session's loop is set up with. -/
structure LoopEnv where
  settings : AgentSettings
  agentLed : Bool
  mockAgents : Bool
  minWinProbability : ℚ
  math : FloatMath

/-- What one turn finds: the clock, the handler's open trade and pending entry, the price of the
latest snapshot, the prefilter's verdict, the option mids, the clock again before the agent is
asked and after it answered, the answer or what the mock agent's rules detect, the active playbook,
whether there is a snapshot still, and how `_attempt_entry` ends. Its figures are numbers, none of
them NaN. -/
structure LoopTick where
  mono : ℚ
  openTrade : Bool
  pendingEntry : Bool
  spyPrice : Option ℚ
  candidate : Bool
  context : OptionContext
  askedAt : UtcTime
  answer : Except PyException IntradayDecision
  detected : Option PlaybookSetup
  decidedAt : UtcTime
  playbook : Option (List PlaybookSetup)
  quoted : Bool
  entered : Except PyException Bool

/-- A call of `_attempt_entry` with the turn it is made in. -/
structure EntryAttempt where
  tick : LoopTick
  spyPrice : ℚ
  setup : PlaybookSetup
  decision : IntradayDecision

/-- The log lines of the loop; an attempt is logged as `agent.execute`. -/
inductive LoopEvent where
  | prefilterSkip
  | proposeExpired (reason : String)
  | decision (decision : IntradayDecision)
  | proposeAbandoned
  | propose (mono : ℚ) (pending : PendingProposal) (downgraded : Bool)
  | confirmRejected (reason : String)
  | execute (attempt : EntryAttempt)
  | confirmExecuted (decision : IntradayDecision)
  | decisionFailed (error : PyException)

/-- What the loop keeps from turn to turn, and its log. -/
structure LoopState where
  pending : Option PendingProposal
  decisionCalls : ℤ
  proposalsActed : ℤ
  lastDecisionAt : ℚ
  log : List LoopEvent

/-! ### The entry -/

/-- The text of a direction. -/
def directionText : Direction → String
  | .longCall => "long_call"
  | .longPut => "long_put"

/-- The setup that `try_enter_from_decision` enters with: the one the decision names, else the
first enabled one in its direction, else one made up from the decision. -/
def setupFor (playbook : Option (List PlaybookSetup)) (decision : IntradayDecision)
    (direction : Direction) : PlaybookSetup :=
  let setups := playbook.getD []
  let named := (decision.setupId.filter (fun id ↦ decide (id ≠ ""))).bind
    (fun id ↦ setups.find? (fun setup ↦ setup.setupId = id))
  let alike := setups.find? (fun setup ↦ setup.enabled && setup.direction = direction)
  (named.or alike).getD
    { setupId := (decision.setupId.filter (fun id ↦ decide (id ≠ ""))).getD
        ("agent_" ++ directionText direction)
      direction := direction
      enabled := true
      stopPct := decision.stopPct
      takeProfitPct := decision.takeProfitPct }

/-- The call of `_attempt_entry` that `try_enter_from_decision` makes, if it makes one.
Source `joker/runtime/market_handler.py:743–822`. -/
def tryEnterFromDecision (env : LoopEnv) (tick : LoopTick) (spyPrice : ℚ)
    (decision : IntradayDecision) : Option EntryAttempt :=
  if decision.action ∉ [DecisionAction.enter, .confirm] then none
  else
    match decision.direction with
    | none => none
    | some direction =>
      if decision.confidence.val < env.settings.minProposalConfidence then none
      else if tick.quoted = false then none
      else some ⟨tick, spyPrice, setupFor tick.playbook decision direction, decision⟩

/-! ### The turn -/

namespace LoopState

/-- The loop starts. -/
def start : LoopState := ⟨none, 0, 0, 0, []⟩

/-- A log line. -/
def emit (e : LoopEvent) (s : LoopState) : LoopState := { s with log := s.log ++ [e] }

/-- `set_pending`. Source `joker/agents/session_memory.py:134–135`. -/
def setPending (pending : PendingProposal) (s : LoopState) : LoopState :=
  { s with pending := some pending }

/-- `clear_pending`. Source `joker/agents/session_memory.py:137–138`. -/
def clearPending (s : LoopState) : LoopState := { s with pending := none }

/-- The agent's turn has come. -/
def due (env : LoopEnv) (tick : LoopTick) (s : LoopState) : Prop :=
  env.agentLed = true ∧ env.settings.intradayEnabled = true ∧
    s.decisionCalls < env.settings.maxDecisionCalls ∧
    s.proposalsActed < env.settings.maxProposalsPerSession ∧
    (if s.pending.isSome then env.settings.fastConfirmMin else env.settings.decisionInterval) ≤
      tick.mono - s.lastDecisionAt ∧
    tick.openTrade = false ∧ tick.pendingEntry = false

instance (env : LoopEnv) (tick : LoopTick) (s : LoopState) : Decidable (s.due env tick) :=
  inferInstanceAs (Decidable (_ ∧ _))

/-- A stale proposal expires before the agent is asked. -/
def expireStale (env : LoopEnv) (tick : LoopTick) (spyPrice : ℚ) (s : LoopState) : LoopState :=
  match s.pending with
  | none => s
  | some pending =>
    let verdict :=
      confirmGate env.math env.settings.confirm pending spyPrice tick.context tick.askedAt
    if verdict.1 = false ∧ isExpiry verdict.2 then
      (s.emit (.proposeExpired verdict.2)).clearPending
    else s

/-- What the agent decides. -/
def agentDecision (env : LoopEnv) (tick : LoopTick) (s : LoopState) :
    Except PyException IntradayDecision :=
  if env.mockAgents then .ok (mockDecision env.math tick.detected s.pending)
  else tick.answer.bind (completeDecision env.math)

/-- A proposal is kept. -/
def keepProposal (tick : LoopTick) (spyPrice : ℚ) (decision : IntradayDecision)
    (downgraded : Bool) (s : LoopState) : LoopState :=
  match decision.direction with
  | none => s
  | some direction =>
    let pending := pendingFromDecision decision direction spyPrice tick.context tick.decidedAt
    (s.setPending pending).emit (.propose tick.mono pending downgraded)

/-- The decision that a confirmation makes of the proposal. -/
def confirmedDecision (pending : PendingProposal) (decision : IntradayDecision) :
    IntradayDecision :=
  let confirmed := decisionFromPending pending
    (some (if decision.confidence.val = 0 then pending.confidence else decision.confidence))
    decision.capitalFraction decision.targetContracts (some decision.allocationStyle)
    decision.winProbability decision.expectedR decision.expectedValueUsd
  if decision.rationale = "" then confirmed
  else
    { confirmed with
      rationale := decision.rationale
      summary := if decision.summary = "" then pending.summary else decision.summary }

/-- The end of a turn once an entry was or was not attempted. -/
def afterAttempt (tick : LoopTick) (decision : IntradayDecision) (attempt : Option EntryAttempt)
    (s : LoopState) : LoopState :=
  match attempt with
  | none => s
  | some attempt =>
    let s := s.emit (.execute attempt)
    match tick.entered with
    | .error e => s.emit (.decisionFailed e)
    | .ok false => s
    | .ok true =>
      ({ s with proposalsActed := s.proposalsActed + 1 }.clearPending).emit
        (.confirmExecuted decision)

/-- The veto, and the entry. -/
def enterWith (env : LoopEnv) (tick : LoopTick) (spyPrice : ℚ) (decision : IntradayDecision)
    (s : LoopState) : LoopState :=
  let verdict := evEntryAllowed env.math decision env.minWinProbability
  if verdict.1 = false then s.emit (.confirmRejected verdict.2)
  else s.afterAttempt tick decision (tryEnterFromDecision env tick spyPrice decision)

/-- A confirmation of the proposal that stands. -/
def confirmPending (env : LoopEnv) (tick : LoopTick) (spyPrice : ℚ) (pending : PendingProposal)
    (decision : IntradayDecision) (s : LoopState) : LoopState :=
  let verdict :=
    confirmGate env.math env.settings.confirm pending spyPrice tick.context tick.decidedAt
  if verdict.1 = false then
    let s := s.emit (.confirmRejected verdict.2)
    if isExpiry verdict.2 then s.clearPending else s
  else s.enterWith env tick spyPrice (confirmedDecision pending decision)

/-- `confirm` and `enter`. -/
def confirm (env : LoopEnv) (tick : LoopTick) (spyPrice : ℚ) (decision : IntradayDecision)
    (s : LoopState) : LoopState :=
  match s.pending with
  | some pending => s.confirmPending env tick spyPrice pending decision
  | none =>
    if env.settings.requireProposeBeforeEnter then
      -- a bare `enter` counts as a proposal when two steps are required
      if decision.action = .enter ∧ decision.direction.isSome then
        s.keepProposal tick spyPrice decision true
      else s.emit (.confirmRejected "no_pending_proposal")
    else s.enterWith env tick spyPrice decision

/-- What the decision asks for is done. -/
def act (env : LoopEnv) (tick : LoopTick) (spyPrice : ℚ) (decision : IntradayDecision)
    (s : LoopState) : LoopState :=
  match decision.action with
  | .hold => s
  | .abandon => s.clearPending.emit .proposeAbandoned
  | .propose => s.keepProposal tick spyPrice decision false
  | .confirm | .enter => s.confirm env tick spyPrice decision

/-- The agent is asked. -/
def ask (env : LoopEnv) (tick : LoopTick) (spyPrice : ℚ) (s : LoopState) : LoopState :=
  match s.agentDecision env tick with
  | .error e => s.emit (.decisionFailed e)
  | .ok decision =>
    ({ s with decisionCalls := s.decisionCalls + 1 }.emit (.decision decision)).act env tick
      spyPrice decision

/-- One turn of the loop. Source `joker/runtime/live_paper_runner.py:215–1659`. -/
def turn (env : LoopEnv) (s : LoopState) (tick : LoopTick) : LoopState :=
  if s.due env tick then
    match tick.spyPrice with
    | none => s
    | some spyPrice =>
      let asked := { s with lastDecisionAt := tick.mono }
      if env.settings.useEdgePrefilter = true ∧ s.pending = none ∧ env.mockAgents = false ∧
          tick.candidate = false then
        asked.emit .prefilterSkip
      else (asked.expireStale env tick spyPrice).ask env tick spyPrice
  else s

end LoopState

end Joker.Runtime
