import Joker.Runtime.TruthHealth

/-!
# Session supervisor

Library `Runtime`. The graph state of `joker/runtime/session_supervisor.py` over the starts, the
checkpoints and the crashes of the processes of one session, with the bridge that owns each of them
and with other sessions saving to the same table. Reconciliations are taken by their reports.
Reports that stay unresolved at a start are kept in the state's errors, and no later start loses or
repeats one.
-/

namespace Joker.Runtime

open Joker.Base Joker.Graph

/-- `ReconciliationReport`, as far as the supervisor reads it. -/
structure StartReport where
  reportId : String
  findingCount : ℕ
  isConsistent : Bool
  deriving DecidableEq, Repr

/-- A reading of the exchange's clock. -/
abbrev ExchangeReading := {time : Datetime // time.WellFormed}

/-- The entry of `errors` for a report that stays unresolved. -/
def StartReport.error (report : StartReport) : Json :=
  .obj [("type", .str "unresolved_reconciliation"), ("report_id", .str report.reportId),
    ("finding_count", .num report.findingCount)]

/-- What a start finds outside: its two reconciliations, the second of which runs after the
corrections of the first. -/
structure StartInputs where
  runId : String
  autoApply : Bool
  first : StartReport
  second : StartReport
  raises : Bool
  now : ExchangeReading

/-- A call of `save` by the process: the id it draws and its clock. -/
structure SaveInputs where
  fresh : String
  now : UtcTime

/-- The ids that `update_graph_from_snapshot` is called with. -/
structure GraphUpdate where
  marketSnapshotId : Option String
  featureSnapshotId : Option String
  optionSurfaceId : Option String
  dataQualityId : Option String
  activeOrderId : Option String
  activePositionId : Option String

/-- A `SessionSupervisor` that has started, with the health of the bridge that owns it.
Source `joker/runtime/session_supervisor.py:52–381`. -/
structure SupervisorProcess where
  runId : String
  bridge : LivePaperBridge
  unresolved : Option StartReport

/-- The graph state of the supervisor. -/
abbrev SupervisorProcess.graphState (process : SupervisorProcess) : JokerGraphState :=
  process.bridge.graphState

/-- The table and the process, if one runs. The errors of the starts that came to their save, the
calls of `save`, and what is told of the bridge are history that no code reads. -/
structure SessionWorld where
  store : SqliteCheckpointStore
  process : Option SupervisorProcess
  unresolved : List Json
  requests : List SaveRequest
  log : List TruthEvent

/-- What happens next. -/
inductive SupervisorAction where
  | start (inputs : StartInputs) (save : SaveInputs)
  | update (ids : GraphUpdate) (now : ExchangeReading)
  | checkpoint (surfaceId : Option String) (now : ExchangeReading) (save : SaveInputs)
  | restoreLatest
  | bridge (call : BridgeCall)
  | shutdown (surfaceId : Option String) (now : ExchangeReading) (save : SaveInputs)
  | die
  | other (request : SaveRequest) (storable : request.state.Storable)

namespace SessionWorld

/-- Nothing is saved and nothing runs. -/
def new : SessionWorld := ⟨SqliteCheckpointStore.empty, none, [], [], []⟩

/-- The graph state of a new supervisor. -/
def initialState (sessionId runId : String) : JokerGraphState :=
  { runId := some runId
    sessionId := some sessionId
    exchangeTime := none
    marketSnapshotId := none
    featureSnapshotId := none
    optionSurfaceId := none
    dataQualityId := none
    activeOrderId := none
    activePositionId := none
    pendingEventIds := some []
    errors := some [] }

/-- The graph state that a start goes on with. -/
def restoredState (sessionId runId : String) (latest : Option CheckpointRecord) :
    JokerGraphState :=
  match latest with
  | some record => { record.state with sessionId := some sessionId, runId := some runId }
  | none => initialState sessionId runId

/-- The last report of a start. -/
def StartInputs.report (inputs : StartInputs) : StartReport :=
  if inputs.first.isConsistent = false ∧ inputs.autoApply then inputs.second else inputs.first

/-- The report that a start leaves unresolved. -/
def StartInputs.unresolved (inputs : StartInputs) : Option StartReport :=
  if (StartInputs.report inputs).isConsistent then none else some (StartInputs.report inputs)

/-- The graph state with the error of an unresolved report. -/
def noteUnresolved (report : Option StartReport) (state : JokerGraphState) : JokerGraphState :=
  match report with
  | none => state
  | some report => { state with errors := some (state.errors.getD [] ++ [report.error]) }

/-- A state as the process saves it. -/
def saveRequest (sessionId : String) (state : JokerGraphState) (save : SaveInputs) : SaveRequest :=
  ⟨state, sessionId, none, save.fresh, save.now⟩

/-- A call of `save`. -/
def request (request : SaveRequest) (s : SessionWorld) : SessionWorld :=
  { s with
    store := s.store.step request
    requests := s.requests ++ [request] }

/-- `save` returns. -/
def saves (request : SaveRequest) (s : SessionWorld) : Bool := (s.store.save request).isOk

/-- The state that a start saves. -/
def startState (sessionId : String) (inputs : StartInputs) (latest : Option CheckpointRecord) :
    JokerGraphState :=
  { noteUnresolved (StartInputs.unresolved inputs)
      (restoredState sessionId inputs.runId latest) with
    exchangeTime := some inputs.now.val }

/-- `start`, in a new process, whose bridge is new; one that raises leaves no process.
Source `joker/runtime/session_supervisor.py:155–270`. -/
def start (sessionId : String) (threshold : ℤ) (inputs : StartInputs) (save : SaveInputs)
    (s : SessionWorld) : SessionWorld :=
  match s.process, s.store.loadLatest sessionId with
  | none, .ok latest =>
    if inputs.raises then s
    else
      let state := startState sessionId inputs latest
      let saved := saveRequest sessionId state save
      if s.saves saved then
        { s.request saved with
          process := some
            { runId := inputs.runId
              bridge := ⟨.new threshold, state⟩
              unresolved := StartInputs.unresolved inputs }
          unresolved := s.unresolved ++
            ((StartInputs.unresolved inputs).map StartReport.error).toList
          log := s.log ++ [.started (truthErrors state), .saved (truthErrors state)] }
      else s.request saved
  | _, _ => s

/-- `update_graph_from_snapshot`. Source `joker/runtime/session_supervisor.py:358–381`. -/
def updated (ids : GraphUpdate) (now : ExchangeReading) (state : JokerGraphState) :
    JokerGraphState :=
  { state with
    marketSnapshotId := ids.marketSnapshotId.or state.marketSnapshotId
    featureSnapshotId := ids.featureSnapshotId.or state.featureSnapshotId
    optionSurfaceId := ids.optionSurfaceId.or state.optionSurfaceId
    dataQualityId := ids.dataQualityId.or state.dataQualityId
    activeOrderId := ids.activeOrderId.or state.activeOrderId
    activePositionId := ids.activePositionId.or state.activePositionId
    exchangeTime := some now.val }

/-- The state that `checkpoint` saves; `surfaceId` is the latest surface of the market runtime. -/
def checkpointState (sessionId runId : String) (surfaceId : Option String) (now : ExchangeReading)
    (state : JokerGraphState) : JokerGraphState :=
  { state with
    exchangeTime := some now.val
    sessionId := some sessionId
    runId := some runId
    optionSurfaceId := surfaceId.or state.optionSurfaceId }

/-- `checkpoint`. Source `joker/runtime/session_supervisor.py:284–293`. -/
def checkpoint (sessionId : String) (surfaceId : Option String) (now : ExchangeReading)
    (save : SaveInputs) (s : SessionWorld) : SessionWorld :=
  match s.process with
  | none => s
  | some process =>
    let state := checkpointState sessionId process.runId surfaceId now process.graphState
    let saved := saveRequest sessionId state save
    { s.request saved with
      process := some { process with bridge.graphState := state }
      log := s.log ++ if s.saves saved then [.saved (truthErrors state)] else [] }

/-- `shutdown`; one whose `save` raises leaves the process.
Source `joker/runtime/session_supervisor.py:302–356`. -/
def shutdown (sessionId : String) (surfaceId : Option String) (now : ExchangeReading)
    (save : SaveInputs) (s : SessionWorld) : SessionWorld :=
  let s' := s.checkpoint sessionId surfaceId now save
  { s' with process := s'.process.filter (fun process ↦
      !s.saves (saveRequest sessionId process.graphState save)) }

/-- `restore_latest`. Source `joker/runtime/session_supervisor.py:295–300`. -/
def restoreLatest (sessionId : String) (s : SessionWorld) : SessionWorld :=
  match s.process, s.store.loadLatest sessionId with
  | some process, .ok (some record) =>
    { s with process := some { process with bridge.graphState := record.state } }
  | _, _ => s

/-- A call of the bridge, in the process that runs. -/
def callBridge (call : BridgeCall) (s : SessionWorld) : SessionWorld :=
  match s.process with
  | none => s
  | some process =>
    let called := process.bridge.call call
    { s with
      process := some { process with bridge := called.1 }
      log := s.log ++ called.2 }

/-- One action. -/
def step (sessionId : String) (threshold : ℤ) (s : SessionWorld) :
    SupervisorAction → SessionWorld
  | .start inputs save => s.start sessionId threshold inputs save
  | .update ids now =>
    { s with
      process := s.process.map (fun process ↦
        { process with bridge.graphState := updated ids now process.graphState }) }
  | .checkpoint surfaceId now save => s.checkpoint sessionId surfaceId now save
  | .restoreLatest => s.restoreLatest sessionId
  | .bridge call => s.callBridge call
  | .shutdown surfaceId now save => s.shutdown sessionId surfaceId now save
  | .die => { s with process := none }
  | .other request _ => if request.sessionId = sessionId then s else s.request request

end SessionWorld

/-- The time of the save that an action may make. -/
def SupervisorAction.time? : SupervisorAction → Option UtcTime
  | .start _ save | .checkpoint _ _ save | .shutdown _ _ save => some save.now
  | .other request _ => some request.now
  | .update _ _ | .restoreLatest | .bridge _ | .die => none

namespace SessionWorld

/-! ### What every action keeps -/

/-- What the process has of the session: the errors so far, a time that can be stored, and its own
ids; and the last save of the session has the same ids. -/
structure Live (sessionId : String) (s : SessionWorld) (process : SupervisorProcess) : Prop where
  errors : otherErrors process.graphState = s.unresolved
  storable : process.graphState.Storable
  session : process.graphState.sessionId = some sessionId
  runId : process.graphState.runId = some process.runId
  saved : ∃ request ∈ SqliteCheckpointStore.lastSave sessionId s.requests,
    request.state.sessionId = some sessionId ∧ request.state.runId = some process.runId
  noted : ∀ report ∈ process.unresolved, report.error ∈ s.unresolved

/-- The invariant: the table is what the calls of `save` made of it, and the errors so far are those
of the last save. -/
structure Carried (sessionId : String) (s : SessionWorld) (times : List UtcTime) : Prop where
  store : s.store = run SqliteCheckpointStore.step SqliteCheckpointStore.empty s.requests
  storable : ∀ request ∈ s.requests, request.state.Storable
  clock : (s.requests.map SaveRequest.now).Sublist times
  errors : s.unresolved = ((SqliteCheckpointStore.lastSave sessionId s.requests).map
    (fun request ↦ otherErrors request.state)).getD []
  live : ∀ process ∈ s.process, Live sessionId s process

variable {sessionId : String} {s : SessionWorld} {times : List UtcTime}

private theorem carried_new : Carried sessionId new [] where
  store := rfl
  storable := fun _ h ↦ nomatch h
  clock := List.Sublist.slnil
  errors := rfl
  live := fun _ h ↦ nomatch h

/-- The latest record is that of the last save. -/
theorem Carried.loadLatest (h : Carried sessionId s times) (hclock : Increasing times) :
    s.store.loadLatest sessionId =
      .ok ((SqliteCheckpointStore.lastSave sessionId s.requests).map SaveRequest.record) := by
  rw [h.store]
  exact SqliteCheckpointStore.loadLatest_run (hclock.sublist h.clock) h.storable sessionId

/-- The last save after one more call. -/
theorem lastSave_request (h : Carried sessionId s times) (saved : SaveRequest) :
    SqliteCheckpointStore.lastSave sessionId (s.request saved).requests =
      if s.saves saved = true ∧ saved.sessionId = sessionId then some saved
      else SqliteCheckpointStore.lastSave sessionId s.requests := by
  unfold saves
  rw [h.store]
  exact SqliteCheckpointStore.lastSave_snoc sessionId s.requests saved

private theorem carried_request (h : Carried sessionId s times) (saved : SaveRequest)
    (errors : List Json) (hstorable : saved.state.Storable)
    (herrors : errors = if s.saves saved = true ∧ saved.sessionId = sessionId then
      otherErrors saved.state else s.unresolved) :
    Carried sessionId { s.request saved with process := none, unresolved := errors }
      (times ++ [saved.now]) where
  store := by
    change s.store.step saved = run _ _ (s.requests ++ [saved])
    rw [run_snoc, ← h.store]
  storable := by
    intro request hrequest
    rcases List.mem_append.mp hrequest with hold | hnew
    · exact h.storable request hold
    · rw [List.mem_singleton.mp hnew]
      exact hstorable
  clock := by
    change ((s.requests ++ [saved]).map SaveRequest.now).Sublist _
    rw [List.map_append]
    exact h.clock.append (List.Sublist.refl _)
  errors := by
    change errors = ((SqliteCheckpointStore.lastSave sessionId
      (s.request saved).requests).map _).getD []
    rw [lastSave_request h saved, herrors]
    split
    · rfl
    · exact h.errors
  live := fun _ hnone ↦ nomatch hnone

private theorem Live.congr {s' : SessionWorld} {process : SupervisorProcess}
    (h : Live sessionId s process) (hunresolved : s'.unresolved = s.unresolved)
    (hrequests : s'.requests = s.requests) : Live sessionId s' process where
  errors := h.errors.trans hunresolved.symm
  storable := h.storable
  session := h.session
  runId := h.runId
  saved := hrequests ▸ h.saved
  noted := hunresolved ▸ h.noted

private theorem Carried.withLog (h : Carried sessionId s times) (log : List TruthEvent) :
    Carried sessionId { s with log := log } times :=
  ⟨h.store, h.storable, h.clock, h.errors,
    fun process hp ↦ (h.live process hp).congr rfl rfl⟩

private theorem Carried.withProcess (h : Carried sessionId s times)
    {p : Option SupervisorProcess} (hlive : ∀ process ∈ p, Live sessionId s process) :
    Carried sessionId { s with process := p } times :=
  ⟨h.store, h.storable, h.clock, h.errors, fun process hp ↦ (hlive process hp).congr rfl rfl⟩

private theorem Carried.later (h : Carried sessionId s times) (more : List UtcTime) :
    Carried sessionId s (times ++ more) :=
  ⟨h.store, h.storable, h.clock.trans (List.sublist_append_left _ _), h.errors, h.live⟩

/-- A report's entry is none of a degraded layer. -/
theorem isTruthError_error (report : StartReport) : isTruthError report.error = false := by
  simp [isTruthError, StartReport.error, Members.get?_cons, Members.get?_nil]

private theorem otherErrors_noteUnresolved (report : Option StartReport) (state : JokerGraphState) :
    otherErrors (noteUnresolved report state) =
      otherErrors state ++ (report.map StartReport.error).toList := by
  cases report with
  | none => exact (List.append_nil _).symm
  | some report => simp [otherErrors, noteUnresolved, isTruthError_error]

private theorem otherErrors_startState (h : Carried sessionId s times) (inputs : StartInputs) :
    otherErrors (startState sessionId inputs
        ((SqliteCheckpointStore.lastSave sessionId s.requests).map SaveRequest.record)) =
      s.unresolved ++ ((StartInputs.unresolved inputs).map StartReport.error).toList := by
  have hrestored : otherErrors (restoredState sessionId inputs.runId
      ((SqliteCheckpointStore.lastSave sessionId s.requests).map SaveRequest.record)) =
      s.unresolved := by
    rw [h.errors]
    cases SqliteCheckpointStore.lastSave sessionId s.requests <;> rfl
  rw [← hrestored, ← otherErrors_noteUnresolved]
  rfl

private theorem startState_ids (inputs : StartInputs) (latest : Option CheckpointRecord) :
    (startState sessionId inputs latest).sessionId = some sessionId ∧
      (startState sessionId inputs latest).runId = some inputs.runId := by
  unfold startState noteUnresolved restoredState initialState
  cases StartInputs.unresolved inputs <;> cases latest <;> exact ⟨rfl, rfl⟩

private theorem storable_of_reading {state : JokerGraphState} (now : ExchangeReading)
    (h : state.exchangeTime = some now.val) : state.Storable := by
  intro time htime
  rw [h] at htime
  rw [← Option.some.inj htime]
  exact now.property

private theorem carried_start (h : Carried sessionId s times) (hclock : Increasing times)
    (threshold : ℤ) (inputs : StartInputs) (save : SaveInputs) :
    Carried sessionId (s.start sessionId threshold inputs save) (times ++ [save.now]) := by
  unfold start
  rw [h.loadLatest hclock]
  cases hprocess : s.process with
  | some process => exact h.later [save.now]
  | none =>
    simp only
    split
    · exact h.later [save.now]
    · set latest := (SqliteCheckpointStore.lastSave sessionId s.requests).map SaveRequest.record
        with hlatest
      have herrors := otherErrors_startState h inputs
      rw [← hlatest] at herrors
      have hids : _ ∧ _ := @startState_ids sessionId inputs latest
      have hstorable : (startState sessionId inputs latest).Storable :=
        storable_of_reading inputs.now rfl
      generalize startState sessionId inputs latest = state at herrors hids hstorable ⊢
      have hlast := lastSave_request h (saveRequest sessionId state save)
      split
      · next hsaved =>
        rw [if_pos ⟨hsaved, rfl⟩] at hlast
        have hcarried := carried_request h (saveRequest sessionId state save)
          (s.unresolved ++ ((StartInputs.unresolved inputs).map StartReport.error).toList)
          hstorable (by
            rw [if_pos ⟨hsaved, rfl⟩]
            exact herrors.symm)
        have hlogged := hcarried.withLog
          (s.log ++ [.started (truthErrors state), .saved (truthErrors state)])
        refine hlogged.withProcess (p := some ⟨inputs.runId, ⟨.new threshold, state⟩,
          StartInputs.unresolved inputs⟩) ?_
        intro process hstarted
        rw [← Option.some.inj hstarted]
        refine ⟨herrors, hstorable, hids.1, hids.2, ⟨_, hlast, hids⟩, ?_⟩
        intro report hreport
        apply List.mem_append_right
        rw [Option.mem_toList]
        exact Option.mem_map_of_mem StartReport.error hreport
      · next hsaved =>
        have hcarried := carried_request h (saveRequest sessionId state save) s.unresolved
          hstorable (by rw [if_neg (fun hboth ↦ hsaved hboth.1)])
        have hnone : s.request (saveRequest sessionId state save) =
            { s.request (saveRequest sessionId state save) with process := none } := by
          rw [← hprocess]
          rfl
        rw [hnone]
        exact hcarried

private theorem carried_update (h : Carried sessionId s times) (threshold : ℤ) (ids : GraphUpdate)
    (now : ExchangeReading) :
    Carried sessionId (s.step sessionId threshold (.update ids now)) times := by
  refine ⟨h.store, h.storable, h.clock, h.errors, ?_⟩
  intro updated hupdated
  obtain ⟨process, hprocess, rfl⟩ := Option.map_eq_some_iff.mp hupdated
  have hlive := h.live process hprocess
  exact ⟨hlive.errors, storable_of_reading now rfl, hlive.session, hlive.runId, hlive.saved,
    hlive.noted⟩

private theorem Live.checkpoint {process : SupervisorProcess} (h : Carried sessionId s times)
    (hlive : Live sessionId s process) (surfaceId : Option String) (now : ExchangeReading)
    (save : SaveInputs) :
    let state := checkpointState sessionId process.runId surfaceId now process.graphState
    Live sessionId (s.request (saveRequest sessionId state save))
      { process with bridge.graphState := state } := by
  refine ⟨hlive.errors, storable_of_reading now rfl, rfl, rfl, ?_, hlive.noted⟩
  rw [lastSave_request h]
  split
  · exact ⟨_, rfl, rfl, rfl⟩
  · exact hlive.saved

private theorem carried_checkpoint (h : Carried sessionId s times) (surfaceId : Option String)
    (now : ExchangeReading) (save : SaveInputs) :
    Carried sessionId (s.checkpoint sessionId surfaceId now save) (times ++ [save.now]) := by
  unfold checkpoint
  cases hprocess : s.process with
  | none => exact h.later [save.now]
  | some process =>
    have hlive := h.live process hprocess
    have hafter := hlive.checkpoint h surfaceId now save
    simp only at hafter ⊢
    generalize checkpointState sessionId process.runId surfaceId now process.graphState = state
      at hafter ⊢
    have hcarried := carried_request h (saveRequest sessionId state save) s.unresolved
      hafter.storable (by
        have herrors : otherErrors (saveRequest sessionId state save).state = s.unresolved :=
          hafter.errors
        rw [herrors, ite_self])
    have hlogged := hcarried.withLog
      (s.log ++ if s.saves (saveRequest sessionId state save) then [.saved (truthErrors state)]
        else [])
    refine hlogged.withProcess (p := some { process with bridge.graphState := state }) ?_
    intro process' hkept
    rw [← Option.some.inj hkept]
    exact hafter.congr rfl rfl

private theorem carried_shutdown (h : Carried sessionId s times) (surfaceId : Option String)
    (now : ExchangeReading) (save : SaveInputs) :
    Carried sessionId (s.shutdown sessionId surfaceId now save) (times ++ [save.now]) := by
  have hcheckpoint := carried_checkpoint h surfaceId now save
  apply hcheckpoint.withProcess
  intro process hkept
  exact hcheckpoint.live process (Option.filter_eq_some_iff.mp hkept).1

private theorem carried_restoreLatest (h : Carried sessionId s times) (hclock : Increasing times) :
    Carried sessionId (s.restoreLatest sessionId) times := by
  unfold restoreLatest
  rw [h.loadLatest hclock]
  cases hprocess : s.process with
  | none => exact h
  | some process =>
    have hlive := h.live process hprocess
    obtain ⟨request, hlast, hsession, hrun⟩ := hlive.saved
    have hrequest : request ∈ s.requests :=
      SqliteCheckpointStore.mem_of_lastSave hlast
    have herrors := h.errors
    rw [hlast] at herrors ⊢
    refine h.withProcess (p := some { process with bridge.graphState := request.state }) ?_
    intro restored hrestored
    rw [← Option.some.inj hrestored]
    exact ⟨herrors.symm, h.storable request hrequest, hsession, hrun, hlive.saved, hlive.noted⟩

private theorem carried_callBridge (h : Carried sessionId s times) (call : BridgeCall) :
    Carried sessionId (s.callBridge call) times := by
  unfold callBridge
  cases hprocess : s.process with
  | none => exact h
  | some process =>
    have hlive := h.live process hprocess
    obtain ⟨herrors, htime, hsession, hrun⟩ := graphState_call process.bridge call
    refine (h.withLog (s.log ++ (process.bridge.call call).2)).withProcess
      (p := some { process with bridge := (process.bridge.call call).1 }) ?_
    intro called hcalled
    rw [← Option.some.inj hcalled]
    refine ⟨herrors.trans hlive.errors, ?_, hsession.trans hlive.session, hrun.trans hlive.runId,
      hlive.saved, hlive.noted⟩
    intro time hmem
    exact hlive.storable time (htime ▸ hmem)

private theorem carried_other (h : Carried sessionId s times) (threshold : ℤ)
    {request : SaveRequest} (hstorable : request.state.Storable) :
    Carried sessionId (s.step sessionId threshold (.other request hstorable))
      (times ++ [request.now]) := by
  change Carried sessionId (if request.sessionId = sessionId then s else s.request request) _
  split
  · exact h.later [request.now]
  · next hother =>
    have hcarried := carried_request h request s.unresolved hstorable
      (by rw [if_neg (fun hboth ↦ hother hboth.2)])
    refine hcarried.withProcess (p := s.process) ?_
    intro process hprocess
    have hlive := h.live process hprocess
    refine ⟨hlive.errors, hlive.storable, hlive.session, hlive.runId, ?_, hlive.noted⟩
    change ∃ last ∈ SqliteCheckpointStore.lastSave sessionId (s.request request).requests, _
    rw [lastSave_request h, if_neg (fun hboth ↦ hother hboth.2)]
    exact hlive.saved

/-- Every action keeps the invariant. -/
theorem carried_step (h : Carried sessionId s times) (hclock : Increasing times)
    (threshold : ℤ) (action : SupervisorAction) :
    Carried sessionId (s.step sessionId threshold action) (times ++ action.time?.toList) := by
  cases action with
  | start inputs save => exact carried_start h hclock threshold inputs save
  | update ids now => exact (carried_update h threshold ids now).later []
  | checkpoint surfaceId now save => exact carried_checkpoint h surfaceId now save
  | restoreLatest => exact (carried_restoreLatest h hclock).later []
  | bridge call => exact (carried_callBridge h call).later []
  | shutdown surfaceId now save => exact carried_shutdown h surfaceId now save
  | die =>
    have hnone := h.withProcess (p := none) (fun _ hp ↦ nomatch hp)
    exact hnone.later []
  | other request storable => exact carried_other h threshold storable

/-- The times of the saves of a run. -/
def saveTimes (actions : List SupervisorAction) : List UtcTime :=
  actions.filterMap SupervisorAction.time?

/-- The invariant holds after every run. -/
theorem carried_run (threshold : ℤ) {actions : List SupervisorAction}
    (hclock : Increasing (saveTimes actions)) :
    Carried sessionId (run (step sessionId threshold) new actions) (saveTimes actions) := by
  induction actions using List.reverseRecOn with
  | nil => exact carried_new
  | append_singleton actions action ih =>
    have htimes : saveTimes (actions ++ [action]) =
        saveTimes actions ++ action.time?.toList := by
      unfold saveTimes
      rw [List.filterMap_append, List.filterMap_cons]
      cases action.time? <;> rfl
    rw [htimes] at hclock ⊢
    have hbefore := hclock.sublist (List.sublist_append_left _ _)
    rw [run_snoc]
    exact carried_step (ih hbefore) hbefore threshold action

/-- In every run of one session, with crashes, with failures of its market and with other sessions
in the table: beside the entries of a degraded layer, the latest checkpoint has the error of each
start that left a report unresolved, once and in their order; the process that runs has the same
ones under its own ids, and that of the report it holds among them. -/
theorem unresolved_kept (sessionId : String) (threshold : ℤ) {actions : List SupervisorAction}
    (hclock : Increasing (saveTimes actions)) :
    let s := run (step sessionId threshold) new actions
    (∃ latest, s.store.loadLatest sessionId = .ok latest ∧
      (latest.map (fun record ↦ otherErrors record.state)).getD [] = s.unresolved) ∧
    ∀ process ∈ s.process, otherErrors process.graphState = s.unresolved ∧
      process.graphState.sessionId = some sessionId ∧
      process.graphState.runId = some process.runId ∧
      ∀ report ∈ process.unresolved, report.error ∈ s.unresolved := by
  intro s
  have hcarried : Carried sessionId s (saveTimes actions) := carried_run threshold hclock
  constructor
  · refine ⟨_, hcarried.loadLatest hclock, ?_⟩
    rw [Option.map_map, hcarried.errors]
    rfl
  · intro process hprocess
    have hlive := hcarried.live process hprocess
    exact ⟨hlive.errors, hlive.session, hlive.runId, hlive.noted⟩

/-- The clock of the sample minute. -/
def sampleReading : ExchangeReading := ⟨(UtcTime.sample 0).time, (UtcTime.sample 0).wellFormed⟩

/-- A start that leaves a report unresolved, a failure that is saved, a crash, and a start that
leaves none. -/
def restartedRun : List SupervisorAction :=
  let bad : StartReport := ⟨"p", 2, false⟩
  let good : StartReport := ⟨"q", 0, true⟩
  [.start ⟨"r1", false, bad, bad, false, sampleReading⟩ ⟨"c1", UtcTime.sample 1⟩,
    .bridge (.ingest (some ("feed lost", UtcTime.sample 2))),
    .checkpoint none sampleReading ⟨"c2", UtcTime.sample 3⟩, .die,
    .start ⟨"r2", false, good, good, false, sampleReading⟩ ⟨"c3", UtcTime.sample 4⟩]

/-- After the restart the latest checkpoint has the error of the first start. -/
theorem unresolved_kept_restarted :
    let s := run (step "s" 1) new restartedRun
    ∃ latest, s.store.loadLatest "s" = .ok latest ∧
      (latest.map (fun record ↦ otherErrors record.state)).getD [] = s.unresolved :=
  (@unresolved_kept "s" 1 restartedRun (by decide)).1

end SessionWorld
end Joker.Runtime
