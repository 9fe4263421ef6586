import Joker.Base.Dict
import Joker.Base.Runs

/-!
# Event bus

Library `Events`. `InProcessAsyncEventBus` of `joker/events/bus.py` as a transition system: its
actions are the stretches of code between two `await` points of the publishers and of the workers,
one for each correlation, in any order. Handlers are not modelled further than that they are
called and come to an end; what they publish is published by anyone. `accepted`, `handed` and
`dispatched` record a run and are read by no action.
-/

namespace Joker.Events

open Joker.Base

/-- `EventType`. Source `joker/events/schemas.py:13–48`. -/
inductive EventType where
  | sessionStarted
  | quoteReceived
  | tradeReceived
  | barClosed
  | marketSnapshotCreated
  | optionSurfaceCreated
  | orderSubmitted
  | orderAccepted
  | orderPartiallyFilled
  | orderFilled
  | orderCancelled
  | orderRejected
  | positionOpened
  | positionChanged
  | positionClosed
  | reconciliationRequired
  | sessionEnding
  | sessionEnded
  | cognitiveCycleStarted
  | agentEvidenceCreated
  | worldModelCreated
  | hypothesisCreated
  | strategyCreated
  | debateReviewCreated
  | metaDecisionCreated
  | moreEvidenceRequested
  | executionProposalCreated
  | cognitiveDecisionStale
  | cognitiveRuntimeDegraded
  | positionThesisUpdated
  | positionActionProposed
  | cognitiveCycleCompleted
  deriving DecidableEq, Repr

/-- `DomainEvent`, as far as the bus reads it. Source `joker/events/schemas.py:51–88`. -/
structure DomainEvent where
  eventId : String
  eventType : EventType
  correlationId : String
  deriving DecidableEq, Repr

/-- How a handler comes to an end; `_dispatch` goes on after each. An exception is an `Exception`:
what is not one, a cancellation of the worker itself, is no failure of a handler. -/
inductive HandlerOutcome where
  | returned
  | raised
  | timedOut
  deriving DecidableEq, Repr

/-- Where the worker of a correlation is: at `queue.get()`, between two handlers of an event, in
a handler, or after the end marker. Handlers are known by their registrations. -/
inductive Worker where
  | waiting
  | dispatching (event : DomainEvent) (rest : List ℕ)
  | handling (event : DomainEvent) (handler : ℕ) (rest : List ℕ)
  | ended
  deriving DecidableEq

/-- The event a worker is dispatching. -/
def Worker.current : Worker → List DomainEvent
  | .dispatching event _ => [event]
  | .handling event _ _ => [event]
  | _ => []

/-- A queue with its worker; `none` is the end marker. -/
structure Stream where
  queue : List (Option DomainEvent)
  worker : Worker
  deriving DecidableEq

/-- A new queue with a new worker. -/
def Stream.new : Stream := ⟨[], .waiting⟩

/-- `InProcessAsyncEventBus`. A registration is the number of a `subscribe` call, and `subs` has
its key. `lock` is the `publish` call that holds `_lock` and is about to put its event, `waiting`
the calls that want it. Source `joker/events/bus.py:19–156`. -/
structure EventBus where
  subs : List (Option EventType)
  seen : List String
  lock : Option DomainEvent
  waiting : List DomainEvent
  streams : Dict String Stream
  accepted : List DomainEvent
  handed : List (ℕ × DomainEvent)
  dispatched : List DomainEvent

namespace EventBus

/-- A bus with registrations on which nothing was published. Source `joker/events/bus.py:25–33`. -/
def new (subs : List (Option EventType)) : EventBus :=
  { subs := subs
    seen := []
    lock := none
    waiting := []
    streams := Dict.empty
    accepted := []
    handed := []
    dispatched := [] }

/-- The stream of a correlation; one that is not there has no event. -/
def stream (bus : EventBus) (corr : String) : Stream := (bus.streams.get? corr).getD Stream.new

/-- The bus with a stream of a correlation. -/
def setStream (bus : EventBus) (corr : String) (stream : Stream) : EventBus :=
  { bus with streams := bus.streams.set corr stream }

/-- `self._subs.get(key, [])`. Source `joker/events/bus.py:35–37`. -/
def registered (subs : List (Option EventType)) (key : Option EventType) : List ℕ :=
  (List.range subs.length).filter (fun i ↦ subs[i]? = some key)

/-- The handlers `_dispatch` copies: those of the type, then those of all types.
Source `joker/events/bus.py:83–114`. -/
def handlersOf (subs : List (Option EventType)) (event : DomainEvent) : List ℕ :=
  registered subs (some event.eventType) ++ registered subs none

/-! ### Actions -/

/-- A stretch of code of a publisher or a worker. -/
inductive Action where
  | subscribe (key : Option EventType)
  /-- A `publish` call comes to the lock. -/
  | publish (event : DomainEvent)
  /-- A `publish` call is cancelled while it waits, as a timeout of its handler does. -/
  | abandon (event : DomainEvent)
  /-- A `publish` call takes the lock, and returns `False` or goes on to `queue.put`. -/
  | enter (event : DomainEvent)
  /-- The `publish` call with the lock puts its event, and returns `True`. -/
  | put
  | get (corr : String)
  | call (corr : String)
  | finish (corr : String) (outcome : HandlerOutcome)
  /-- The worker leaves `_dispatch`. -/
  | leave (corr : String)
  deriving DecidableEq

/-- `publish` from the lock on. Source `joker/events/bus.py:39–66`. -/
def enter (bus : EventBus) (event : DomainEvent) : EventBus :=
  let bus := { bus with waiting := bus.waiting.erase event }
  if event.eventId ∈ bus.seen then bus
  else
    { bus with
      seen := event.eventId :: bus.seen
      streams :=
        if event.correlationId ∈ bus.streams.keys then bus.streams
        else bus.streams.set event.correlationId Stream.new
      lock := some event }

/-- `queue.put(event)`, and the release of the lock. -/
def put (bus : EventBus) (event : DomainEvent) : EventBus :=
  let stream := bus.stream event.correlationId
  { bus.setStream event.correlationId { stream with queue := stream.queue ++ [some event] } with
    lock := none
    accepted := bus.accepted ++ [event] }

/-- One action; an action that is not enabled changes nothing.
Source `joker/events/bus.py:68–81`. -/
def step (bus : EventBus) : Action → EventBus
  | .subscribe key => { bus with subs := bus.subs ++ [key] }
  | .publish event => { bus with waiting := bus.waiting ++ [event] }
  | .abandon event => { bus with waiting := bus.waiting.erase event }
  | .enter event =>
    if bus.lock = none ∧ event ∈ bus.waiting then bus.enter event else bus
  | .put =>
    match bus.lock with
    | some event => bus.put event
    | none => bus
  | .get corr =>
    match bus.stream corr with
    | ⟨none :: queue, .waiting⟩ => bus.setStream corr ⟨queue, .ended⟩
    | ⟨some event :: queue, .waiting⟩ =>
      bus.setStream corr ⟨queue, .dispatching event (handlersOf bus.subs event)⟩
    | _ => bus
  | .call corr =>
    match bus.stream corr with
    | ⟨queue, .dispatching event (handler :: rest)⟩ =>
      { bus.setStream corr ⟨queue, .handling event handler rest⟩ with
        handed := bus.handed ++ [(handler, event)] }
    | _ => bus
  | .finish corr _ =>
    match bus.stream corr with
    | ⟨queue, .handling event _ rest⟩ => bus.setStream corr ⟨queue, .dispatching event rest⟩
    | _ => bus
  | .leave corr =>
    match bus.stream corr with
    | ⟨queue, .dispatching event []⟩ =>
      { bus.setStream corr ⟨queue, .waiting⟩ with dispatched := bus.dispatched ++ [event] }
    | _ => bus

/-- Setting the stream of a correlation changes that stream only. -/
@[simp] theorem stream_setStream (bus : EventBus) (corr other : String) (stream : Stream) :
    (bus.setStream corr stream).stream other =
      if corr = other then stream else bus.stream other := by
  unfold EventBus.stream setStream
  rw [Dict.get?_set]
  split <;> rfl

/-- Every stream of a new bus is new. -/
@[simp] theorem stream_new (subs : List (Option EventType)) (corr : String) :
    (new subs).stream corr = Stream.new := rfl

end EventBus
end Joker.Events
