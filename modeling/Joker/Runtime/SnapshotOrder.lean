import Joker.Runtime.FlatEntries

/-!
# The order of decision cycles

Library `Runtime`. Market snapshots on their two ways to the decision worker, with coalescing on
and a flat account: the queue, and the one pending snapshot that is served when the queue stays
empty until its timeout. A snapshot that arrives in a cycle is kept as the pending one, and a
later one that arrives after the cycle is queued, so the queue can overtake the pending snapshot.
The graph runs forward exactly as long as it is not started on a pending snapshot that was
overtaken.
-/

namespace Joker.Runtime

open Joker.Base Joker.Ledger

/-- Where the decision worker is: at the queue, with a queued snapshot, after the timeout of the
queue, in a cycle before its graph, or in a cycle after it. `overtaken` is what was known of a
pending snapshot when its cycle began. -/
inductive DecisionWorker where
  | waiting
  | took (event : AgentEvent)
  | timedOut
  | running (event : AgentEvent) (overtaken : Bool)
  | inGraph
  deriving DecidableEq

/-- The runtime with its one decision worker. `arrived` has the snapshots as their handlers routed
them, `invoked` those the decision graph was invoked on. `behind` has the snapshots queued since
the pending one was kept, and `overtaken` tells whether the graph was invoked on one of them; no
code reads these four. -/
structure DecisionRun where
  agent : AgentState
  worker : DecisionWorker
  arrived : List String
  invoked : List String
  behind : List String
  overtaken : Bool

/-- A stretch of the runtime. -/
inductive DecisionLabel where
  /-- The handler of a snapshot, with the collaborators as they are then. -/
  | arrive (event : AgentEvent) (outside : AgentOutside)
  /-- `_decision_queue.get()` returns, or times out on an empty queue. -/
  | get
  /-- The worker goes on to `_run_decision_work`, or to the pending snapshot. -/
  | begin
  /-- `_invoke_decision_graph`, up to the start of the graph. -/
  | invoke (outside : AgentOutside)
  /-- The end of the cycle. -/
  | finish

namespace DecisionRun

variable (config : AgentRuntimeConfig)

/-- The settings, with coalescing on. -/
def coalescing : AgentRuntimeConfig := { config with marketSnapshotCoalescing := true }

/-- A runtime that has just been started on a flat account. -/
def new (ledger : {projection : ProjectionState // Flat projection}) (outside : AgentOutside) :
    DecisionRun :=
  { agent := AgentState.new ledger outside
    worker := .waiting
    arrived := []
    invoked := []
    behind := []
    overtaken := false }

/-- The handler of a snapshot that did not arrive before. -/
def arrive (s : DecisionRun) (event : AgentEvent) (outside : AgentOutside) : DecisionRun :=
  let agent := ((enqueueSnapshotWork (coalescing config) event).exec
    { s.agent with outside := outside }).1
  let s := { s with agent := agent, arrived := s.arrived ++ [event.snapshot] }
  if s.agent.newEntryInFlight then { s with behind := [], overtaken := false }
  else { s with behind := s.behind ++ [event.snapshot] }

/-- The start of a cycle. -/
def begin (s : DecisionRun) (started : AgentState × Option AgentEvent) (overtaken : Bool) :
    DecisionRun :=
  match started with
  | (agent, some event) => { s with agent := agent, worker := .running event overtaken }
  | (agent, none) => { s with agent := agent, worker := .waiting }

/-- The agent after the stretch of `_invoke_decision_graph` up to the start of the graph. -/
def invokedAgent (s : DecisionRun) (event : AgentEvent) (outside : AgentOutside) : AgentState :=
  ((invokeDecisionGraph (coalescing config) event).exec { s.agent with outside := outside }).1

/-- The graph was started. -/
def Starts (s : DecisionRun) (event : AgentEvent) (outside : AgentOutside) : Prop :=
  (s.invokedAgent config event outside).starts ≠ s.agent.starts

instance (s : DecisionRun) (event : AgentEvent) (outside : AgentOutside) :
    Decidable (s.Starts config event outside) :=
  inferInstanceAs (Decidable (_ ≠ _))

/-- The invocation of the graph, unless a collaborator raises before. -/
def invoke (s : DecisionRun) (event : AgentEvent) (outside : AgentOutside) : DecisionRun :=
  let after := { s with agent := s.invokedAgent config event outside, worker := .inGraph }
  if s.Starts config event outside then
    { after with
      invoked := s.invoked ++ [event.snapshot]
      overtaken := s.overtaken || decide (event.snapshot ∈ s.behind) }
  else after

/-- One step; a label that is not enabled changes nothing. -/
def step (s : DecisionRun) : DecisionLabel → DecisionRun
  | .arrive event outside =>
    if event.snapshot = "" ∨ event.snapshot ∈ s.arrived then s else s.arrive config event outside
  | .get =>
    match s.worker, s.agent.decisionQueue with
    | .waiting, work :: rest =>
      { s with agent := { s.agent with decisionQueue := rest }, worker := .took work.event }
    | .waiting, [] => { s with worker := .timedOut }
    | _, _ => s
  | .begin =>
    match s.worker with
    | .took event => s.begin (beginWork event s.agent) false
    | .timedOut => s.begin (beginCoalesced s.agent) s.overtaken
    | _ => s
  | .invoke outside =>
    match s.worker with
    | .running event _ => s.invoke config event outside
    | _ => s
  | .finish =>
    match s.worker with
    | .inGraph => { s with agent := { s.agent with newEntryInFlight := false }, worker := .waiting }
    | _ => s

/-- A step does not start the graph on a pending snapshot that was overtaken. -/
def Meets (s : DecisionRun) : DecisionLabel → Prop
  | .invoke outside =>
    match s.worker with
    | .running event true => ¬ s.Starts config event outside
    | _ => True
  | _ => True

instance (s : DecisionRun) (label : DecisionLabel) : Decidable (Meets config s label) := by
  unfold Meets
  split
  · split <;> infer_instance
  · infer_instance

/-- The graph was invoked on a subsequence of the arrivals, which are all different. -/
def GoesForward (s : DecisionRun) : Prop := s.invoked.Sublist s.arrived

/-! ### The stretches -/

section Stretches

/-- A handler that finds the account flat queues its snapshot, or keeps it in a cycle. -/
theorem exec_enqueueSnapshotWork {s : AgentState} (h : Flat s.ledger) (event : AgentEvent) :
    ((enqueueSnapshotWork (coalescing config) event).exec s).1 =
      if s.newEntryInFlight then s.keepPending event.snapshot else s.putDecision event := by
  have hopen : openPositionContractIds s.ledger = [] := h.1
  have hworking : hasWorkingEntryOrder
      (workingOrdersFromProjection (some s.ledger) Dict.empty) = false := h.2
  have hroute : routePositions (coalescing config) event [] s = s := by
    unfold routePositions
    split <;> rfl
  have henqueue : enqueueLoaded (coalescing config) event [] false s =
      if s.newEntryInFlight then s.keepPending event.snapshot else s.putDecision event := by
    unfold enqueueLoaded
    rw [hroute]
    simp [coalescing]
  simp [enqueueSnapshotWork, openPositionContractIdsNow, hasWorkingEntryOrderNow, hopen, hworking,
    henqueue]

/-- Up to the start of the graph nothing changes but the record of starts. -/
theorem exec_invokeDecisionGraph (event : AgentEvent) (s : AgentState) :
    ∃ starts, ((invokeDecisionGraph (coalescing config) event).exec s).1 =
      { s with starts := starts } := by
  have hcall : ∀ (configured : Bool) (op : AgentOp) (raises : AgentOutside → Bool)
      (rest : Unit → AgentM Unit),
      ((callIf configured op raises >>= rest).exec s).1 = s ∨
        (callIf configured op raises >>= rest).exec s = (rest ()).exec s := by
    intro configured op raises rest
    unfold callIf
    rw [Coro.exec_bind]
    cases configured with
    | false => exact .inr rfl
    | true => cases hraises : raises s.outside <;> simp [hraises]
  unfold invokeDecisionGraph
  simp only [Coro.exec_bind, hasWorkingEntryOrderNow, Coro.exec_atomic]
  split
  · exact ⟨s.starts, rfl⟩
  unfold startDecisionGraph
  split
  · exact ⟨s.starts, rfl⟩
  rcases hcall (coalescing config).hasCycleRegistry .upsert (·.registryRaises) _ with h | h
  · exact ⟨s.starts, h⟩
  rw [h]
  rcases hcall (coalescing config).hasEventBus .publish (·.busRaises) _ with h | h
  · exact ⟨s.starts, h⟩
  rw [h]
  exact ⟨s.starts ++ [s.ledger], rfl⟩

/-- A queue of earlier snapshots takes a new one at its end. -/
theorem decisionQueue_putDecision {s : AgentState} (event : AgentEvent)
    (h : ∀ work ∈ s.decisionQueue, work.priority = newEntrySnapshotPriority ∧
      work.sequence ≤ s.sequence) :
    (s.putDecision event).decisionQueue =
      s.decisionQueue ++ [⟨newEntrySnapshotPriority, s.sequence + 1, event⟩] := by
  unfold AgentState.putDecision
  simp only
  generalize s.decisionQueue = queue at h ⊢
  induction queue with
  | nil => rfl
  | cons work rest ih =>
    obtain ⟨hpriority, hsequence⟩ := h work List.mem_cons_self
    have hnot : ¬ QueuedWork.Le ⟨newEntrySnapshotPriority, s.sequence + 1, event⟩ work := by
      unfold QueuedWork.Le
      simp only [hpriority]
      omega
    rw [List.orderedInsert_cons, if_neg hnot, ih (fun w hw ↦ h w (List.mem_cons_of_mem _ hw))]
    rfl

end Stretches

/-! ### What holds of every run -/

variable {config}

/-- The worker is in a cycle. -/
def inCycle : DecisionWorker → Bool
  | .running _ _ => true
  | .inGraph => true
  | _ => false

/-- The snapshot the worker has in its hands. -/
def inHand : DecisionWorker → List String
  | .took event => [event.snapshot]
  | .running event _ => [event.snapshot]
  | _ => []

/-- The queued snapshots. -/
def queued (s : DecisionRun) : List String :=
  s.agent.decisionQueue.map (fun work ↦ work.event.snapshot)

/-- What holds in every state of a run. -/
structure Sound (s : DecisionRun) : Prop where
  flat : Flat s.agent.ledger
  nodup : s.arrived.Nodup
  inFlight : s.agent.newEntryInFlight = inCycle s.worker
  queue : ∀ work ∈ s.agent.decisionQueue,
    work.priority = newEntrySnapshotPriority ∧ work.sequence ≤ s.agent.sequence
  pending : s.agent.pendingNewEntrySnapshot ≠ some ""
  invokedArrived : s.invoked ⊆ s.arrived
  handArrived : inHand s.worker ⊆ s.arrived
  queuedArrived : s.queued ⊆ s.arrived
  pendingArrived : ∀ id ∈ s.agent.pendingNewEntrySnapshot, id ∈ s.arrived
  behindArrived : s.behind ⊆ s.arrived

private theorem sound_new (ledger : {projection : ProjectionState // Flat projection})
    (outside : AgentOutside) : Sound (new ledger outside) where
  flat := ledger.2
  nodup := List.nodup_nil
  inFlight := rfl
  queue := fun _ h ↦ nomatch h
  pending := fun h ↦ nomatch h
  invokedArrived := List.nil_subset _
  handArrived := List.nil_subset _
  queuedArrived := List.nil_subset _
  pendingArrived := fun _ h ↦ nomatch h
  behindArrived := List.nil_subset _

/-- A snapshot that arrives in a cycle is the pending one, and none is behind it. -/
theorem arrive_inFlight {s : DecisionRun} (h : Sound s) {event : AgentEvent}
    (hid : event.snapshot ≠ "") (outside : AgentOutside)
    (hflight : s.agent.newEntryInFlight = true) :
    s.arrive config event outside =
      { s with
        agent := { s.agent with
          outside := outside
          pendingNewEntrySnapshot := some event.snapshot }
        arrived := s.arrived ++ [event.snapshot]
        behind := []
        overtaken := false } := by
  have hagent := exec_enqueueSnapshotWork config
    (s := { s.agent with outside := outside }) h.flat event
  simp only [hflight, if_true, AgentState.keepPending, hid, if_false] at hagent
  unfold arrive
  simp only [hagent, hflight, if_true]

/-- A snapshot that arrives between cycles is the last of the queue. -/
theorem arrive_queued {s : DecisionRun} (h : Sound s) (event : AgentEvent)
    (outside : AgentOutside) (hflight : s.agent.newEntryInFlight = false) :
    s.arrive config event outside =
      { s with
        agent := { s.agent with
          outside := outside
          sequence := s.agent.sequence + 1
          decisionQueue := s.agent.decisionQueue ++
            [⟨newEntrySnapshotPriority, s.agent.sequence + 1, event⟩] }
        arrived := s.arrived ++ [event.snapshot]
        behind := s.behind ++ [event.snapshot] } := by
  have hagent := exec_enqueueSnapshotWork config
    (s := { s.agent with outside := outside }) h.flat event
  have hqueue := decisionQueue_putDecision (s := { s.agent with outside := outside }) event h.queue
  rw [if_neg (by simp [hflight])] at hagent
  have hput : AgentState.putDecision { s.agent with outside := outside } event =
      { s.agent with
        outside := outside
        sequence := s.agent.sequence + 1
        decisionQueue := s.agent.decisionQueue ++
          [⟨newEntrySnapshotPriority, s.agent.sequence + 1, event⟩] } := by
    rw [← hqueue]
    rfl
  unfold arrive
  rw [hagent, hput]
  simp only [hflight, Bool.false_eq_true, if_false]

private theorem nodup_arrived_snoc {s : DecisionRun} (h : Sound s) {id : String}
    (hnew : id ∉ s.arrived) :
    (s.arrived ++ [id]).Nodup := by
  rw [List.nodup_append]
  refine ⟨h.nodup, List.nodup_singleton id, ?_⟩
  rintro a ha b hb rfl
  exact hnew (List.mem_singleton.mp hb ▸ ha)

private theorem Sound.arrive {s : DecisionRun} (h : Sound s) {event : AgentEvent}
    (hid : event.snapshot ≠ "") (hnew : event.snapshot ∉ s.arrived) (outside : AgentOutside) :
    Sound (s.arrive config event outside) := by
  have hmore : s.arrived ⊆ s.arrived ++ [event.snapshot] := List.subset_append_left _ _
  have hlast : event.snapshot ∈ s.arrived ++ [event.snapshot] := by simp
  cases hflight : s.agent.newEntryInFlight with
  | true =>
    rw [arrive_inFlight h hid outside hflight]
    exact
      { flat := h.flat
        nodup := nodup_arrived_snoc h hnew
        inFlight := h.inFlight
        queue := h.queue
        pending := fun heq ↦ hid (Option.some.inj heq)
        invokedArrived := List.Subset.trans h.invokedArrived hmore
        handArrived := List.Subset.trans h.handArrived hmore
        queuedArrived := List.Subset.trans h.queuedArrived hmore
        pendingArrived := fun id heq ↦ Option.some.inj heq ▸ hlast
        behindArrived := List.nil_subset _ }
  | false =>
    rw [arrive_queued h event outside hflight]
    refine
      { flat := h.flat
        nodup := nodup_arrived_snoc h hnew
        inFlight := h.inFlight
        queue := ?_
        pending := h.pending
        invokedArrived := List.Subset.trans h.invokedArrived hmore
        handArrived := List.Subset.trans h.handArrived hmore
        queuedArrived := ?_
        pendingArrived := fun id heq ↦ hmore (h.pendingArrived id heq)
        behindArrived := ?_ }
    · intro work hwork
      rcases List.mem_append.mp hwork with hwork | hwork
      · exact ⟨(h.queue work hwork).1, Nat.le_succ_of_le (h.queue work hwork).2⟩
      · rw [List.mem_singleton.mp hwork]
        exact ⟨rfl, le_rfl⟩
    · unfold queued
      rw [List.map_append]
      exact List.append_subset.mpr ⟨List.Subset.trans h.queuedArrived hmore, by simp⟩
    · exact List.append_subset.mpr ⟨List.Subset.trans h.behindArrived hmore, by simp⟩

/-- The stretch before the graph changes the collaborators and the record of starts. -/
theorem invokedAgent_eq (config : AgentRuntimeConfig) (s : DecisionRun) (event : AgentEvent)
    (outside : AgentOutside) :
    ∃ starts, s.invokedAgent config event outside =
      { s.agent with outside := outside, starts := starts } :=
  exec_invokeDecisionGraph config event { s.agent with outside := outside }

/-- After a timeout the worker takes the pending snapshot, or goes back to the queue. -/
theorem beginCoalesced_cases {s : DecisionRun} (h : Sound s) (hworker : s.worker = .timedOut) :
    (s.agent.pendingNewEntrySnapshot = none ∧ beginCoalesced s.agent = (s.agent, none)) ∨
      ∃ id, s.agent.pendingNewEntrySnapshot = some id ∧
        beginCoalesced s.agent =
          ({ s.agent with newEntryInFlight := true, pendingNewEntrySnapshot := none },
            some ⟨.snapshotCreated, some id, none, none⟩) := by
  have hflight : s.agent.newEntryInFlight = false := by rw [h.inFlight, hworker]; rfl
  unfold beginCoalesced
  cases hpending : s.agent.pendingNewEntrySnapshot with
  | none => exact .inl ⟨rfl, rfl⟩
  | some id =>
    have hid : id ≠ "" := fun heq ↦ h.pending (heq ▸ hpending)
    refine .inr ⟨id, rfl, ?_⟩
    simp only [hid, hflight, Bool.false_eq_true, or_self, if_false, beginWork]

private theorem beginWork_took {s : DecisionRun} (h : Sound s) {event : AgentEvent}
    (hworker : s.worker = .took event) :
    beginWork event s.agent = ({ s.agent with newEntryInFlight := true }, some event) := by
  have hflight : s.agent.newEntryInFlight = false := by rw [h.inFlight, hworker]; rfl
  unfold beginWork
  simp only [hflight, Bool.false_eq_true, if_false]

private theorem snapshot_pending {id : String} (hid : id ≠ "") :
    AgentEvent.snapshot ⟨.snapshotCreated, some id, none, none⟩ = id := by
  simp [AgentEvent.snapshot, hid]

/-- What a step does. -/
inductive Stepped (config : AgentRuntimeConfig) (s : DecisionRun) :
    DecisionLabel → DecisionRun → Prop
  | idle (label) : Stepped config s label s
  | arrived (event outside) (hid : event.snapshot ≠ "") (hnew : event.snapshot ∉ s.arrived) :
    Stepped config s (.arrive event outside) (s.arrive config event outside)
  | took (work rest) (hworker : s.worker = .waiting)
    (hqueue : s.agent.decisionQueue = work :: rest) :
    Stepped config s .get
      { s with agent := { s.agent with decisionQueue := rest }, worker := .took work.event }
  | timedOut (hworker : s.worker = .waiting) (hqueue : s.agent.decisionQueue = []) :
    Stepped config s .get { s with worker := .timedOut }
  | began (event) (hworker : s.worker = .took event) :
    Stepped config s .begin
      { s with
        agent := { s.agent with newEntryInFlight := true }
        worker := .running event false }
  | back (hworker : s.worker = .timedOut) : Stepped config s .begin { s with worker := .waiting }
  | coalesced (id) (hworker : s.worker = .timedOut)
    (hpending : s.agent.pendingNewEntrySnapshot = some id) :
    Stepped config s .begin
      { s with
        agent := { s.agent with newEntryInFlight := true, pendingNewEntrySnapshot := none }
        worker := .running ⟨.snapshotCreated, some id, none, none⟩ s.overtaken }
  | dropped (event overtaken outside starts) (hworker : s.worker = .running event overtaken)
    (hstarts : ¬ s.Starts config event outside) :
    Stepped config s (.invoke outside)
      { s with
        agent := { s.agent with outside := outside, starts := starts }
        worker := .inGraph }
  | invoked (event overtaken outside starts) (hworker : s.worker = .running event overtaken)
    (hstarts : s.Starts config event outside) :
    Stepped config s (.invoke outside)
      { s with
        agent := { s.agent with outside := outside, starts := starts }
        worker := .inGraph
        invoked := s.invoked ++ [event.snapshot]
        overtaken := s.overtaken || decide (event.snapshot ∈ s.behind) }
  | finished (hworker : s.worker = .inGraph) :
    Stepped config s .finish
      { s with agent := { s.agent with newEntryInFlight := false }, worker := .waiting }

private theorem stepped (config : AgentRuntimeConfig) {s : DecisionRun} (h : Sound s)
    (label : DecisionLabel) : Stepped config s label (s.step config label) := by
  cases label with
  | arrive event outside =>
    simp only [step]
    split
    · exact .idle _
    · next hnot =>
      rw [not_or] at hnot
      exact .arrived event outside hnot.1 hnot.2
  | get =>
    simp only [step]
    split
    · next work rest hworker hqueue => exact .took work rest hworker hqueue
    · next hworker hqueue => exact .timedOut hworker hqueue
    · exact .idle _
  | begin =>
    simp only [step]
    split
    · next event hworker =>
      rw [beginWork_took h hworker]
      exact .began event hworker
    · next hworker =>
      rcases beginCoalesced_cases h hworker with ⟨-, heq⟩ | ⟨id, hpending, heq⟩ <;> rw [heq]
      · exact .back hworker
      · exact .coalesced id hworker hpending
    · exact .idle _
  | invoke outside =>
    simp only [step]
    split
    · next event overtaken hworker =>
      obtain ⟨starts, hagent⟩ := invokedAgent_eq config s event outside
      unfold invoke
      rw [hagent]
      split
      · next hstarts => exact .invoked event overtaken outside starts hworker hstarts
      · next hstarts => exact .dropped event overtaken outside starts hworker hstarts
    · exact .idle _
  | finish =>
    simp only [step]
    split
    · next hworker => exact .finished hworker
    · exact .idle _

private theorem sound_step {s : DecisionRun} (h : Sound s) (label : DecisionLabel) :
    Sound (s.step config label) := by
  have hstep := stepped config h label
  generalize s.step config label = s' at hstep
  cases hstep with
  | idle => exact h
  | arrived event outside hid hnew => exact h.arrive hid hnew outside
  | took work rest hworker hqueue =>
    have hqueued : s.queued = work.event.snapshot :: rest.map (fun work ↦ work.event.snapshot) := by
      rw [queued, hqueue]
      rfl
    have hin := h.queuedArrived
    rw [hqueued] at hin
    exact
      { h with
        inFlight := by rw [h.inFlight, hworker]; rfl
        queue := fun w hw ↦ h.queue w (hqueue ▸ List.mem_cons_of_mem _ hw)
        handArrived := fun id hid ↦ hin (List.mem_singleton.mp hid ▸ List.mem_cons_self)
        queuedArrived := fun id hid ↦ hin (List.mem_cons_of_mem _ hid) }
  | timedOut hworker hqueue =>
    exact
      { h with
        inFlight := by rw [h.inFlight, hworker]; rfl
        handArrived := List.nil_subset _ }
  | began event hworker =>
    exact
      { h with
        inFlight := rfl
        handArrived := by
          have hhand := h.handArrived
          rw [hworker] at hhand
          exact hhand }
  | back hworker =>
    exact
      { h with
        inFlight := by rw [h.inFlight, hworker]; rfl
        handArrived := List.nil_subset _ }
  | coalesced id hworker hpending =>
    have hid : id ≠ "" := fun heq ↦ h.pending (heq ▸ hpending)
    exact
      { h with
        inFlight := rfl
        pending := fun heq ↦ nomatch heq
        handArrived := by
          intro other hother
          rw [List.mem_singleton.mp hother, snapshot_pending hid]
          exact h.pendingArrived id hpending
        pendingArrived := fun _ heq ↦ nomatch heq }
  | dropped event overtaken outside starts hworker hstarts =>
    exact
      { h with
        inFlight := by rw [h.inFlight, hworker]; rfl
        handArrived := List.nil_subset _ }
  | invoked event overtaken outside starts hworker hstarts =>
    have hhand := h.handArrived
    rw [hworker] at hhand
    exact
      { h with
        inFlight := by rw [h.inFlight, hworker]; rfl
        invokedArrived := List.append_subset.mpr ⟨h.invokedArrived, hhand⟩
        handArrived := List.nil_subset _ }
  | finished hworker =>
    exact
      { h with
        inFlight := rfl
        handArrived := List.nil_subset _ }

/-! ### The order -/

/-- One snapshot arrived before another. -/
def Earlier (s : DecisionRun) (a b : String) : Prop := s.arrived.idxOf a < s.arrived.idxOf b

/-- The snapshot in the worker's hands, unless it is a pending one that was overtaken. -/
def inLine : DecisionWorker → List String
  | .took event => [event.snapshot]
  | .running event false => [event.snapshot]
  | _ => []

private theorem inLine_subset (worker : DecisionWorker) : inLine worker ⊆ inHand worker := by
  intro id hid
  cases worker with
  | took event => exact hid
  | running event overtaken =>
    cases overtaken with
    | false => exact hid
    | true => cases hid
  | waiting | timedOut | inGraph => cases hid

/-- The snapshots that were and will be worked on, in order of arrival, with the pending one in its
place: in front of it what was there when it was kept, behind it what was queued since. -/
structure Ordered (s : DecisionRun) : Prop where
  line : (s.invoked ++ (inLine s.worker ++ s.queued)).Pairwise s.Earlier
  older : ∀ x ∈ s.agent.pendingNewEntrySnapshot, ∀ y ∈ inLine s.worker ++ s.queued,
    y ∉ s.behind → s.Earlier y x
  newer : ∀ x ∈ s.agent.pendingNewEntrySnapshot, ∀ y ∈ s.behind, s.Earlier x y
  notOvertaken : ∀ x ∈ s.agent.pendingNewEntrySnapshot, s.overtaken = false →
    ∀ y ∈ s.invoked, s.Earlier y x
  overtaken : ∀ x ∈ s.agent.pendingNewEntrySnapshot, s.overtaken = true →
    ∃ y ∈ s.invoked, s.Earlier x y
  timedOut : s.worker = .timedOut → ∀ x ∈ s.agent.pendingNewEntrySnapshot, ∀ y ∈ s.queued,
    s.Earlier x y
  running : ∀ event, s.worker = .running event true → ∃ y ∈ s.invoked, s.Earlier event.snapshot y

private theorem ordered_new (ledger : {projection : ProjectionState // Flat projection})
    (outside : AgentOutside) : Ordered (new ledger outside) where
  line := List.Pairwise.nil
  older := fun _ h ↦ nomatch h
  newer := fun _ h ↦ nomatch h
  notOvertaken := fun _ h ↦ nomatch h
  overtaken := fun _ h ↦ nomatch h
  timedOut := fun h ↦ nomatch h
  running := fun _ h ↦ nomatch h

/-- Arrivals leave the order of what arrived before. -/
theorem idxOf_snoc {arrived : List String} {id a b : String} (ha : a ∈ arrived) (hb : b ∈ arrived) :
    (arrived ++ [id]).idxOf a < (arrived ++ [id]).idxOf b ↔ arrived.idxOf a < arrived.idxOf b := by
  rw [List.idxOf_append_of_mem ha, List.idxOf_append_of_mem hb]

/-- What arrived before is earlier than what arrives. -/
theorem idxOf_lt_snoc {arrived : List String} {id a : String} (ha : a ∈ arrived)
    (hid : id ∉ arrived) : (arrived ++ [id]).idxOf a < (arrived ++ [id]).idxOf id := by
  rw [List.idxOf_append_of_mem ha, List.idxOf_append_of_notMem hid]
  have hlt := List.idxOf_lt_length_of_mem ha
  omega

/-- What is worked on or waits has arrived. -/
theorem line_subset {s : DecisionRun} (hs : Sound s) : inLine s.worker ++ s.queued ⊆ s.arrived :=
  List.append_subset.mpr ⟨List.Subset.trans (inLine_subset _) hs.handArrived, hs.queuedArrived⟩

/-- An arrival leaves the order of the line. -/
theorem Ordered.line_snoc {s : DecisionRun} (hs : Sound s) (h : Ordered s) (id : String) :
    (s.invoked ++ (inLine s.worker ++ s.queued)).Pairwise (fun a b ↦
      (s.arrived ++ [id]).idxOf a < (s.arrived ++ [id]).idxOf b) := by
  have hall : s.invoked ++ (inLine s.worker ++ s.queued) ⊆ s.arrived :=
    List.append_subset.mpr ⟨hs.invokedArrived, line_subset hs⟩
  exact h.line.imp_of_mem fun ha hb hab ↦ (idxOf_snoc (hall ha) (hall hb)).mpr hab

/-- An arrival leaves an overtaken snapshot behind the one that overtook it. -/
theorem Ordered.running_snoc {s : DecisionRun} (hs : Sound s) (h : Ordered s) (id : String)
    {event : AgentEvent} (hworker : s.worker = .running event true) :
    ∃ y ∈ s.invoked,
      (s.arrived ++ [id]).idxOf event.snapshot < (s.arrived ++ [id]).idxOf y := by
  obtain ⟨y, hy, hlt⟩ := h.running event hworker
  have hhand : event.snapshot ∈ s.arrived :=
    hs.handArrived (by rw [hworker]; exact List.mem_cons_self)
  exact ⟨y, hy, (idxOf_snoc hhand (hs.invokedArrived hy)).mpr hlt⟩

/-- A snapshot that arrives in a cycle is the pending one, and the last in the order. -/
theorem Ordered.arrive_inFlight {s : DecisionRun} (hs : Sound s) (h : Ordered s)
    {event : AgentEvent} (hid : event.snapshot ≠ "") (hnew : event.snapshot ∉ s.arrived)
    (outside : AgentOutside) (hflight : s.agent.newEntryInFlight = true) :
    Ordered (s.arrive config event outside) := by
  rw [DecisionRun.arrive_inFlight hs hid outside hflight]
  refine
    { line := h.line_snoc hs event.snapshot
      older := ?_
      newer := fun _ _ _ hy ↦ nomatch hy
      notOvertaken := ?_
      overtaken := fun _ _ heq ↦ nomatch heq
      timedOut := ?_
      running := fun _ hworker ↦ h.running_snoc hs _ hworker }
  · intro x hx y hy _
    rw [← Option.some.inj hx]
    exact idxOf_lt_snoc (line_subset hs hy) hnew
  · intro x hx _ y hy
    rw [← Option.some.inj hx]
    exact idxOf_lt_snoc (hs.invokedArrived hy) hnew
  · intro hworker
    have hflight' := hs.inFlight
    rw [hflight, show s.worker = .timedOut from hworker] at hflight'
    cases hflight'

/-- A snapshot that is queued is the last in the order, behind the pending one. -/
theorem Ordered.arrive_queued {s : DecisionRun} (hs : Sound s) (h : Ordered s)
    {event : AgentEvent} (hnew : event.snapshot ∉ s.arrived) (outside : AgentOutside)
    (hflight : s.agent.newEntryInFlight = false) : Ordered (s.arrive config event outside) := by
  rw [DecisionRun.arrive_queued hs event outside hflight]
  have hqueued : ∀ agent : AgentState, agent.decisionQueue = s.agent.decisionQueue ++
      [⟨newEntrySnapshotPriority, s.agent.sequence + 1, event⟩] →
      agent.decisionQueue.map (fun work ↦ work.event.snapshot) = s.queued ++ [event.snapshot] := by
    intro agent hagent
    rw [hagent, List.map_append]
    rfl
  have hsnoc : ∀ {a b}, a ∈ s.arrived → b ∈ s.arrived → s.Earlier a b →
      (s.arrived ++ [event.snapshot]).idxOf a < (s.arrived ++ [event.snapshot]).idxOf b :=
    fun ha hb hab ↦ (idxOf_snoc ha hb).mpr hab
  have hall : s.invoked ++ (inLine s.worker ++ s.queued) ⊆ s.arrived :=
    List.append_subset.mpr ⟨hs.invokedArrived, line_subset hs⟩
  refine
    { line := ?_
      older := ?_
      newer := ?_
      notOvertaken := fun x hx hno y hy ↦
        hsnoc (hs.invokedArrived hy) (hs.pendingArrived x hx) (h.notOvertaken x hx hno y hy)
      overtaken := ?_
      timedOut := ?_
      running := fun _ hworker ↦ h.running_snoc hs _ hworker }
  · unfold queued
    rw [hqueued _ rfl, ← List.append_assoc, ← List.append_assoc, List.append_assoc s.invoked,
      List.pairwise_append]
    refine ⟨h.line_snoc hs event.snapshot, List.pairwise_singleton _ _, ?_⟩
    intro y hy z hz
    rw [List.mem_singleton.mp hz]
    exact idxOf_lt_snoc (hall hy) hnew
  · intro x hx y hy hbehind
    unfold queued at hy
    rw [hqueued _ rfl, ← List.append_assoc] at hy
    rw [List.mem_append, not_or] at hbehind
    have hold := (List.mem_append.mp hy).resolve_right hbehind.2
    exact hsnoc (line_subset hs hold) (hs.pendingArrived x hx) (h.older x hx y hold hbehind.1)
  · intro x hx y hy
    rcases List.mem_append.mp hy with hy | hy
    · exact hsnoc (hs.pendingArrived x hx) (hs.behindArrived hy) (h.newer x hx y hy)
    · rw [List.mem_singleton.mp hy]
      exact idxOf_lt_snoc (hs.pendingArrived x hx) hnew
  · intro x hx hov
    obtain ⟨y, hy, hlt⟩ := h.overtaken x hx hov
    exact ⟨y, hy, hsnoc (hs.pendingArrived x hx) (hs.invokedArrived hy) hlt⟩
  · intro hworker x hx y hy
    unfold queued at hy
    rw [hqueued _ rfl] at hy
    rcases List.mem_append.mp hy with hy | hy
    · exact hsnoc (hs.pendingArrived x hx) (hs.queuedArrived hy) (h.timedOut hworker x hx y hy)
    · rw [List.mem_singleton.mp hy]
      exact idxOf_lt_snoc (hs.pendingArrived x hx) hnew

private theorem Ordered.arrive {s : DecisionRun} (hs : Sound s) (h : Ordered s) {event : AgentEvent}
    (hid : event.snapshot ≠ "") (hnew : event.snapshot ∉ s.arrived) (outside : AgentOutside) :
    Ordered (s.arrive config event outside) := by
  cases hflight : s.agent.newEntryInFlight with
  | true => exact h.arrive_inFlight hs hid hnew outside hflight
  | false => exact h.arrive_queued hs hnew outside hflight

/-- A step that only hands on what is in line, or drops some of it, keeps the order. -/
theorem Ordered.handOn {s s' : DecisionRun} (h : Ordered s) (harrived : s'.arrived = s.arrived)
    (hinvoked : s'.invoked = s.invoked)
    (hpending : s'.agent.pendingNewEntrySnapshot = s.agent.pendingNewEntrySnapshot)
    (hbehind : s'.behind = s.behind) (hovertaken : s'.overtaken = s.overtaken)
    (hline : (inLine s'.worker ++ s'.queued).Sublist (inLine s.worker ++ s.queued))
    (htimedOut : s'.worker = .timedOut → s'.queued = [])
    (hrunning : ∀ event, s'.worker ≠ .running event true) : Ordered s' := by
  have hearlier : s'.Earlier = s.Earlier := by
    unfold Earlier
    rw [harrived]
  refine
    { line := ?_
      older := ?_
      newer := ?_
      notOvertaken := ?_
      overtaken := ?_
      timedOut := ?_
      running := fun event hworker ↦ absurd hworker (hrunning event) }
  · rw [hinvoked, hearlier]
    exact h.line.sublist (hline.append_left _)
  · rw [hpending, hbehind, hearlier]
    exact fun x hx y hy ↦ h.older x hx y (hline.subset hy)
  · rw [hpending, hbehind, hearlier]
    exact h.newer
  · rw [hpending, hovertaken, hinvoked, hearlier]
    exact h.notOvertaken
  · rw [hpending, hovertaken, hinvoked, hearlier]
    exact h.overtaken
  · intro hworker x _ y hy
    rw [htimedOut hworker] at hy
    cases hy

/-- The pending snapshot is between what was invoked and what is queued, unless it was
overtaken. -/
theorem Ordered.coalesced {s : DecisionRun} (hs : Sound s) (h : Ordered s) {id : String}
    (hworker : s.worker = .timedOut) (hpending : s.agent.pendingNewEntrySnapshot = some id) :
    Ordered
      { s with
        agent := { s.agent with newEntryInFlight := true, pendingNewEntrySnapshot := none }
        worker := .running ⟨.snapshotCreated, some id, none, none⟩ s.overtaken } := by
  have hid : id ≠ "" := fun heq ↦ hs.pending (heq ▸ hpending)
  have hline := h.line
  rw [hworker] at hline
  refine
    { line := ?_
      older := fun _ hx ↦ nomatch hx
      newer := fun _ hx ↦ nomatch hx
      notOvertaken := fun _ hx ↦ nomatch hx
      overtaken := fun _ hx ↦ nomatch hx
      timedOut := fun hw ↦ nomatch hw
      running := ?_ }
  · cases hov : s.overtaken with
    | true => exact hline
    | false =>
      show (s.invoked ++ (AgentEvent.snapshot _ :: s.queued)).Pairwise s.Earlier
      rw [snapshot_pending hid, List.pairwise_append]
      obtain ⟨hinvoked, hqueued, hbetween⟩ := List.pairwise_append.mp hline
      refine ⟨hinvoked, List.pairwise_cons.mpr ⟨h.timedOut hworker id hpending, hqueued⟩, ?_⟩
      intro y hy z hz
      rcases List.mem_cons.mp hz with rfl | hz
      · exact h.notOvertaken _ hpending hov y hy
      · exact hbetween y hy z hz
  · intro event hw
    obtain ⟨rfl, hov⟩ := DecisionWorker.running.inj hw
    rw [snapshot_pending hid]
    exact h.overtaken id hpending hov

/-- The graph goes on with the first in line; it overtakes the pending snapshot if it is behind
it. -/
theorem Ordered.invoked {s : DecisionRun} (h : Ordered s) {event : AgentEvent}
    (hworker : s.worker = .running event false) (outside : AgentOutside)
    (starts : List ProjectionState) :
    Ordered
      { s with
        agent := { s.agent with outside := outside, starts := starts }
        worker := .inGraph
        invoked := s.invoked ++ [event.snapshot]
        overtaken := s.overtaken || decide (event.snapshot ∈ s.behind) } := by
  have hline := h.line
  have holder := h.older
  rw [hworker] at hline holder
  refine
    { line := ?_
      older := fun x hx y hy ↦ holder x hx y (List.mem_append_right _ hy)
      newer := h.newer
      notOvertaken := ?_
      overtaken := ?_
      timedOut := fun hw ↦ nomatch hw
      running := fun _ hw ↦ nomatch hw }
  · show ((s.invoked ++ [event.snapshot]) ++ s.queued).Pairwise s.Earlier
    rw [List.append_assoc]
    exact hline
  · intro x hx hno y hy
    have hno' : (s.overtaken || decide (event.snapshot ∈ s.behind)) = false := hno
    rw [Bool.or_eq_false_iff, decide_eq_false_iff_not] at hno'
    rcases List.mem_append.mp hy with hy | hy
    · exact h.notOvertaken x hx hno'.1 y hy
    · rw [List.mem_singleton.mp hy]
      exact holder x hx _ List.mem_cons_self hno'.2
  · intro x hx hyes
    have hyes' : (s.overtaken || decide (event.snapshot ∈ s.behind)) = true := hyes
    rw [Bool.or_eq_true, decide_eq_true_eq] at hyes'
    rcases hyes' with hyes' | hbehind
    · obtain ⟨y, hy, hlt⟩ := h.overtaken x hx hyes'
      exact ⟨y, List.mem_append_left _ hy, hlt⟩
    · exact ⟨_, List.mem_append_right _ List.mem_cons_self, h.newer x hx _ hbehind⟩

private theorem ordered_step {s : DecisionRun} (hs : Sound s) (h : Ordered s)
    (label : DecisionLabel)
    (hmeets : Meets config s label) : Ordered (s.step config label) := by
  have hstep := stepped config hs label
  generalize s.step config label = s' at hstep
  cases hstep with
  | idle => exact h
  | arrived event outside hid hnew => exact h.arrive hs hid hnew outside
  | took work rest hworker hqueue =>
    have hqueued : inLine s.worker ++ s.queued =
        work.event.snapshot :: rest.map (fun work ↦ work.event.snapshot) := by
      rw [queued, hqueue, hworker]
      rfl
    exact h.handOn rfl rfl rfl rfl rfl (by rw [hqueued]; exact List.Sublist.refl _)
      (fun hw ↦ nomatch hw) (fun _ hw ↦ nomatch hw)
  | timedOut hworker hqueue =>
    have hqueued : s.queued = [] := by rw [queued, hqueue]; rfl
    exact h.handOn rfl rfl rfl rfl rfl (List.sublist_append_right _ _) (fun _ ↦ hqueued)
      (fun _ hw ↦ nomatch hw)
  | began event hworker =>
    exact h.handOn rfl rfl rfl rfl rfl (by rw [hworker]; exact List.Sublist.refl _)
      (fun hw ↦ nomatch hw) (fun _ hw ↦ nomatch hw)
  | back hworker =>
    exact h.handOn rfl rfl rfl rfl rfl (List.sublist_append_right _ _) (fun hw ↦ nomatch hw)
      (fun _ hw ↦ nomatch hw)
  | coalesced id hworker hpending => exact h.coalesced hs hworker hpending
  | dropped event overtaken outside starts hworker hstarts =>
    exact h.handOn rfl rfl rfl rfl rfl (List.sublist_append_right _ _) (fun hw ↦ nomatch hw)
      (fun _ hw ↦ nomatch hw)
  | invoked event overtaken outside starts hworker hstarts =>
    have hov : overtaken = false := by
      by_contra hne
      rw [Bool.not_eq_false] at hne
      simp only [Meets, hworker, hne] at hmeets
      exact hmeets hstarts
    exact h.invoked (hov ▸ hworker) outside starts
  | finished hworker =>
    exact h.handOn rfl rfl rfl rfl rfl (List.sublist_append_right _ _) (fun hw ↦ nomatch hw)
      (fun _ hw ↦ nomatch hw)

/-! ### Going forward -/

/-- A subsequence of distinct arrivals is in the order of arrival. -/
theorem earlier_of_sublist {s : DecisionRun} (hs : Sound s) {ids : List String}
    (h : ids.Sublist s.arrived) : ids.Pairwise s.Earlier := by
  have hall : s.arrived.Pairwise s.Earlier := by
    rw [List.pairwise_iff_getElem]
    intro i j hi hj hij
    unfold Earlier
    rw [hs.nodup.idxOf_getElem i hi, hs.nodup.idxOf_getElem j hj]
    exact hij
  exact hall.sublist h

/-- Arrivals in the order of arrival are a subsequence. -/
theorem sublist_of_earlier {s : DecisionRun} (hs : Sound s) {ids : List String}
    (hin : ids ⊆ s.arrived) (h : ids.Pairwise s.Earlier) : ids.Sublist s.arrived := by
  have hnodup : ids.Nodup := by
    apply h.imp
    rintro a _ hab rfl
    exact lt_irrefl _ hab
  have : Std.Antisymm s.Earlier := ⟨fun a b hab hba ↦ absurd hab (Nat.lt_asymm hba)⟩
  exact List.sublist_of_subperm_of_pairwise (List.subperm_of_subset hnodup hin) h
    (earlier_of_sublist hs (List.Sublist.refl _))

private theorem goesForward_of_ordered {s : DecisionRun} (hs : Sound s) (h : Ordered s) :
    GoesForward s :=
  sublist_of_earlier hs hs.invokedArrived (h.line.sublist (List.sublist_append_left _ _))

/-- A cycle that went back is not undone. -/
theorem goesForward_of_step {s : DecisionRun} (hs : Sound s) (label : DecisionLabel)
    (h : GoesForward (s.step config label)) : GoesForward s := by
  have hstep := stepped config hs label
  generalize s.step config label = s' at hstep h
  cases hstep with
  | arrived event outside hid hnew =>
    have hsub : s.invoked.Sublist (s.arrived ++ [event.snapshot]) := by
      cases hflight : s.agent.newEntryInFlight with
      | true =>
        rw [arrive_inFlight hs hid outside hflight] at h
        exact h
      | false =>
        rw [arrive_queued hs event outside hflight] at h
        exact h
    obtain ⟨front, back, heq, hfront, hback⟩ := List.sublist_append_iff.mp hsub
    cases back with
    | nil =>
      rw [List.append_nil] at heq
      show s.invoked.Sublist s.arrived
      rw [heq]
      exact hfront
    | cons id rest =>
      have hid' : id = event.snapshot := List.mem_singleton.mp (hback.subset List.mem_cons_self)
      have hmem : id ∈ s.invoked := heq ▸ List.mem_append_right _ List.mem_cons_self
      exact absurd (hs.invokedArrived (hid' ▸ hmem)) hnew
  | invoked event overtaken outside starts hworker hstarts =>
    exact (List.sublist_append_left _ _).trans h
  | idle | took | timedOut | began | back | coalesced | dropped | finished => exact h

private theorem lost_of_not_meets {s : DecisionRun} (hs : Sound s) (h : Ordered s)
    (label : DecisionLabel)
    (hmeets : ¬ Meets config s label) : ¬ GoesForward (s.step config label) := by
  intro hforward
  unfold Meets at hmeets
  split at hmeets
  · next outside =>
    split at hmeets
    · next event hworker =>
      have hstarts : s.Starts config event outside := not_not.mp hmeets
      obtain ⟨y, hy, hlt⟩ := h.running event hworker
      have hinvoked :
          (s.step config (.invoke outside)).invoked = s.invoked ++ [event.snapshot] := by
        simp only [step, hworker, invoke, hstarts, if_true]
      have harrived : (s.step config (.invoke outside)).arrived = s.arrived := by
        simp only [step, hworker, invoke, hstarts, if_true]
      unfold GoesForward at hforward
      rw [hinvoked, harrived] at hforward
      have hpair := (List.pairwise_append.mp (earlier_of_sublist hs hforward)).2.2
      have hback := hpair y hy _ List.mem_cons_self
      exact absurd hlt (Nat.lt_asymm hback)
    · exact hmeets trivial
  · exact hmeets trivial

/-- In every run with coalescing on and a flat account, the graph is invoked on a subsequence of
the arrivals if and only if no step starts it on a pending snapshot that was overtaken. -/
theorem goesForward_iff (config : AgentRuntimeConfig)
    (ledger : {projection : ProjectionState // Flat projection}) (outside : AgentOutside)
    (labels : List DecisionLabel) :
    GoesForward (run (step config) (new ledger outside) labels) ↔
      StepsMeet (step config) (Meets config) (new ledger outside) labels := by
  have hrule : (StepsMeet (step config) (Meets config) (new ledger outside) labels →
        Ordered (run (step config) (new ledger outside) labels) ∧
          GoesForward (run (step config) (new ledger outside) labels)) ∧
      (¬ StepsMeet (step config) (Meets config) (new ledger outside) labels →
        ¬ GoesForward (run (step config) (new ledger outside) labels)) := by
    apply run_kept_or_lost (J := Sound) (G := fun s ↦ Ordered s ∧ GoesForward s)
      (B := fun s ↦ ¬ GoesForward s)
    · exact fun s label hs ↦ sound_step hs label
    · intro s label hs h hmeets
      have hnext := ordered_step hs h.1 label hmeets
      exact ⟨hnext, goesForward_of_ordered (sound_step hs label) hnext⟩
    · exact fun s label hs h hmeets ↦ lost_of_not_meets hs h.1 label hmeets
    · exact fun s label hs h hforward ↦ h (goesForward_of_step hs label hforward)
    · exact sound_new ledger outside
    · exact ⟨ordered_new ledger outside, List.nil_sublist _⟩
  obtain ⟨hkept, hlost⟩ := hrule
  constructor
  · intro hforward
    by_contra hnot
    exact hlost hnot hforward
  · exact fun hmeets ↦ (hkept hmeets).2

/-! ### Three snapshots -/

open AgentState AgentState.Sample

/-- A cycle of the worker, up to its graph. -/
def toGraph : List DecisionLabel := [.get, .begin, .invoke calm]

/-- The second snapshot arrives in the cycle of the first, the third after it, and the queue then
stays empty. -/
def keptAndQueued : List DecisionLabel :=
  .arrive (snapshot "s1") calm :: toGraph ++
    [.arrive (snapshot "s2") calm, .finish, .arrive (snapshot "s3") calm] ++
    toGraph ++ .finish :: toGraph

/-- A runtime on an account that holds nothing. -/
def started : DecisionRun := new ⟨holding 0, by decide +kernel⟩ calm

/-- The graph is invoked on the third snapshot and then on the second. -/
theorem not_goesForward_keptAndQueued :
    (run (step Sample.config) started keptAndQueued).arrived = ["s1", "s2", "s3"] ∧
      (run (step Sample.config) started keptAndQueued).invoked = ["s1", "s3", "s2"] ∧
      ¬ GoesForward (run (step Sample.config) started keptAndQueued) := by
  refine ⟨by decide +kernel, by decide +kernel, ?_⟩
  unfold GoesForward
  decide +kernel

end DecisionRun
end Joker.Runtime
