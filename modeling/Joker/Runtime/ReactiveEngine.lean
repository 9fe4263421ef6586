import Joker.Broker.Domain

/-!
# Reactive engine

Library `Runtime`. The trading state machine of `joker/runtime/reactive_engine.py`: the table of
valid transitions, and the transitions that an entry and its exit make.
-/

namespace Joker.Runtime

open Joker.Broker

/-- `TradingState`. Source `joker/runtime/reactive_engine.py:20–31`. -/
inductive TradingState where
  | idle
  | watching
  | setupArmed
  | signalDetected
  | riskCheck
  | entering
  | openPosition
  | managingExit
  | exited
  | cooldown
  | locked
  deriving DecidableEq, Repr

namespace TradingState

/-- The enumeration's string value. -/
def value : TradingState → String
  | idle => "IDLE"
  | watching => "WATCHING"
  | setupArmed => "SETUP_ARMED"
  | signalDetected => "SIGNAL_DETECTED"
  | riskCheck => "RISK_CHECK"
  | entering => "ENTERING"
  | openPosition => "OPEN_POSITION"
  | managingExit => "MANAGING_EXIT"
  | exited => "EXITED"
  | cooldown => "COOLDOWN"
  | locked => "LOCKED"

/-- `VALID_TRANSITIONS`. Source `joker/runtime/reactive_engine.py:34–46`. -/
def validTransitions : TradingState → List TradingState
  | idle => [watching, locked]
  | watching => [setupArmed, signalDetected, locked]
  | setupArmed => [signalDetected, watching, locked]
  | signalDetected => [riskCheck, watching]
  | riskCheck => [entering, watching, cooldown]
  | entering => [openPosition, watching]
  | openPosition => [managingExit, exited]
  | managingExit => [exited, openPosition]
  | exited => [cooldown, watching]
  | cooldown => [watching, idle]
  | locked => [idle]

/-- `StateMachineError` of a transition. Source `joker/runtime/reactive_engine.py:49–50`. -/
def invalidTransition (old new : TradingState) : PyException :=
  ⟨"StateMachineError", "Invalid transition " ++ old.value ++ " -> " ++ new.value⟩

/-- `transition`; a state may always be entered again.
Source `joker/runtime/reactive_engine.py:72–83`. -/
def transition (old new : TradingState) : Except PyException TradingState :=
  if new ∈ old.validTransitions ∨ old = new then .ok new else .error (old.invalidTransition new)

/-- Transitions one after another, up to the first invalid one. -/
def transitions : TradingState → List TradingState → TradingState × Except PyException Unit
  | old, [] => (old, .ok ())
  | old, new :: rest =>
    match old.transition new with
    | .ok state => state.transitions rest
    | .error e => (old, .error e)

/-- The states in which a position is being opened or managed. -/
def engaged (state : TradingState) : Bool :=
  state ∈ [openPosition, entering, managingExit]

/-- The states in which an entry may be attempted. -/
def mayEnter (state : TradingState) : Bool := state ∈ [watching, setupArmed, cooldown]

end TradingState
end Joker.Runtime
