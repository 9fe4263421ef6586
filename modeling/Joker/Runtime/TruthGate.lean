import Joker.Runtime.SessionSupervisor

/-!
# Orders behind the market's health

Library `Runtime`. Over the processes of a session, an order of the older engine reaches the
execution runtime exactly while the market's failures since its last complete snapshot are fewer
than the threshold, and the graph state of a process tells of them. A new process starts with a
new health, and keeps what its checkpoint told until its own first failure.
-/

namespace Joker.Runtime

open Joker.Base Joker.Graph

namespace SessionWorld

variable {sessionId : String} {threshold : ℤ} {s : SessionWorld}

/-- The invariant of the orders: they are gated, and the health of the process follows the
events. -/
structure Watched (threshold : ℤ) (s : SessionWorld) : Prop where
  gated : Guarded (Gated threshold) s.log
  follows : ∀ process ∈ s.process, HealthFollows threshold s.log process.bridge.health

private theorem watched_new (threshold : ℤ) : Watched threshold new where
  gated := guarded_nil _
  follows := fun _ h ↦ nomatch h

private theorem Watched.of_quiet {t : SessionWorld} (h : Watched threshold s)
    (hlog : t.log = s.log)
    (hprocess : ∀ process ∈ t.process, ∃ before ∈ s.process,
      process.bridge.health = before.bridge.health) : Watched threshold t where
  gated := hlog ▸ h.gated
  follows := by
    intro process hmem
    obtain ⟨before, hbefore, hhealth⟩ := hprocess process hmem
    rw [hlog, hhealth]
    exact h.follows before hbefore

private theorem Watched.saved (h : Watched threshold s) (entries : List Json) :
    Watched threshold { s with log := s.log ++ [.saved entries] } where
  gated := h.gated.snoc trivial
  follows := fun process hmem ↦ (h.follows process hmem).idle rfl rfl rfl

private theorem watched_checkpoint (h : Watched threshold s) (surfaceId : Option String)
    (now : ExchangeReading) (save : SaveInputs) :
    Watched threshold (s.checkpoint sessionId surfaceId now save) := by
  unfold checkpoint
  cases hprocess : s.process with
  | none => exact h
  | some process =>
    have hkept (state : JokerGraphState) : ∀ saved ∈ some
        { process with bridge.graphState := state }, ∃ before ∈ s.process,
          saved.bridge.health = before.bridge.health := by
      intro saved hmem
      rw [← Option.some.inj hmem]
      exact ⟨process, hprocess, rfl⟩
    simp only
    split
    · exact (h.saved _).of_quiet rfl (hkept _)
    · exact h.of_quiet (List.append_nil _) (hkept _)

private theorem watched_start (h : Watched threshold s) (inputs : StartInputs)
    (save : SaveInputs) : Watched threshold (s.start sessionId threshold inputs save) := by
  unfold start
  split
  · split
    · exact h
    · simp only
      split
      · set state := startState sessionId inputs _
        have hstarted : Watched threshold
            { s with
              process := some ⟨inputs.runId, ⟨.new threshold, state⟩,
                StartInputs.unresolved inputs⟩
              log := s.log ++ [.started (truthErrors state)] } := by
          refine ⟨h.gated.snoc trivial, fun process hmem ↦ ?_⟩
          rw [← Option.some.inj hmem]
          exact healthFollows_new threshold s.log (truthErrors state)
        refine (hstarted.saved (truthErrors state)).of_quiet ?_
          (fun process hmem ↦ ⟨process, hmem, rfl⟩)
        exact (List.append_assoc s.log [_] [_]).symm
      · exact h.of_quiet rfl (fun process hmem ↦ ⟨process, hmem, rfl⟩)
  · exact h

private theorem watched_restoreLatest (h : Watched threshold s) :
    Watched threshold (s.restoreLatest sessionId) := by
  unfold restoreLatest
  split
  · next before record hbefore _ =>
    refine h.of_quiet rfl (fun process hmem ↦ ?_)
    rw [← Option.some.inj hmem]
    exact ⟨before, hbefore, rfl⟩
  · exact h

private theorem watched_callBridge (h : Watched threshold s) (call : BridgeCall) :
    Watched threshold (s.callBridge call) := by
  unfold callBridge
  cases hprocess : s.process with
  | none => exact h
  | some process =>
    obtain ⟨hfollows, hgated⟩ := (h.follows process hprocess).call h.gated call
    refine ⟨hgated, fun called hmem ↦ ?_⟩
    rw [← Option.some.inj hmem]
    exact hfollows

/-- Every action keeps the orders gated. -/
theorem watched_step (h : Watched threshold s) (action : SupervisorAction) :
    Watched threshold (s.step sessionId threshold action) := by
  cases action with
  | start inputs save => exact watched_start h inputs save
  | update ids now =>
    refine h.of_quiet rfl (fun process hmem ↦ ?_)
    obtain ⟨before, hbefore, rfl⟩ := Option.map_eq_some_iff.mp hmem
    exact ⟨before, hbefore, rfl⟩
  | checkpoint surfaceId now save => exact watched_checkpoint h surfaceId now save
  | restoreLatest => exact watched_restoreLatest h
  | bridge call => exact watched_callBridge h call
  | shutdown surfaceId now save =>
    have hcheckpoint := @watched_checkpoint sessionId threshold s h surfaceId now save
    refine hcheckpoint.of_quiet rfl (fun process hmem ↦ ?_)
    exact ⟨process, (Option.filter_eq_some_iff.mp hmem).1, rfl⟩
  | die => exact h.of_quiet rfl (fun _ hmem ↦ nomatch hmem)
  | other request storable =>
    change Watched threshold (if request.sessionId = sessionId then s else s.request request)
    split
    · exact h
    · exact h.of_quiet rfl (fun process hmem ↦ ⟨process, hmem, rfl⟩)

/-- The invariant holds after every run. -/
theorem watched_run (sessionId : String) (threshold : ℤ) (actions : List SupervisorAction) :
    Watched threshold (run (step sessionId threshold) new actions) :=
  run_invariant (I := Watched threshold) (L := fun _ ↦ True)
    (fun _ action h _ ↦ watched_step h action) actions (fun _ _ ↦ trivial)
    (watched_new threshold)

/-- In every run of a session's processes: an order reaches the execution runtime exactly when the
failures since the last complete snapshot, or since the process started, are fewer than the
threshold and none where that is not positive, and is answered as rejected otherwise. So between
as many failures and the next order that is handed on there is a complete snapshot or a new
process. -/
theorem orders_gated (sessionId : String) (threshold : ℤ) (actions : List SupervisorAction) :
    let s := run (step sessionId threshold) new actions
    Guarded (Gated threshold) s.log ∧
      ∀ before between command after, s.log = before ++ between ++ .handed command :: after →
        max 1 threshold ≤ between.countP TruthEvent.isFailure →
          ∃ e ∈ between, e.isReset = true := by
  intro s
  have hwatched : Watched threshold s := watched_run sessionId threshold actions
  refine ⟨hwatched.gated, fun before between command after hlog hmany ↦ ?_⟩
  have hfew : ¬ Degrades threshold (before ++ between) :=
    hwatched.gated (before ++ between) (.handed command) after hlog
  refine @exists_reset_of_countSince_lt _ TruthEvent.isFailure TruthEvent.isReset before between ?_
  unfold Degrades failuresSince at hfew
  omega

/-- A process whose market fails once and recovers before the order. -/
def recoveredRun : List SupervisorAction :=
  let good : StartReport := ⟨"q", 0, true⟩
  [.start ⟨"r", false, good, good, false, sampleReading⟩ ⟨"c", UtcTime.sample 1⟩,
    .bridge (.ingest (some ("feed lost", UtcTime.sample 2))),
    .bridge (.tick (.ok true)),
    .bridge (.submitExecutionCommand .sample (.error ⟨"ConnectionError", "reset"⟩))]

/-- A complete snapshot stands between the failure and the order that is handed on. -/
theorem orders_gated_recovered :
    ∃ e ∈ [TruthEvent.failed "feed lost" (UtcTime.sample 2), .complete], e.isReset = true :=
  (orders_gated "s" 1 recoveredRun).2 [.started [], .saved []] _ .sample [] rfl (by decide)

/-! ### The audit -/

/-- The invariant of the audit: the process shows what the events tell, the latest checkpoint has
what the last save told, and each save and each start tells the truth. -/
structure Audited (sessionId : String) (threshold : ℤ) (s : SessionWorld) : Prop where
  shown : ∀ process ∈ s.process, truthErrors process.graphState = auditOf threshold s.log
  saved : (register TruthEvent.writeSaved s.log).getD [] =
    ((SqliteCheckpointStore.lastSave sessionId s.requests).map
      (fun request ↦ truthErrors request.state)).getD []
  audits : Guarded (Audits threshold) s.log

private theorem audited_new (sessionId : String) (threshold : ℤ) :
    Audited sessionId threshold new where
  shown := fun _ h ↦ nomatch h
  saved := rfl
  audits := guarded_nil _

private theorem Audited.of_quiet {t : SessionWorld} (h : Audited sessionId threshold s)
    (hlog : t.log = s.log)
    (hsaved : SqliteCheckpointStore.lastSave sessionId t.requests =
      SqliteCheckpointStore.lastSave sessionId s.requests)
    (hprocess : ∀ process ∈ t.process, ∃ before ∈ s.process,
      truthErrors process.graphState = truthErrors before.graphState) :
    Audited sessionId threshold t where
  shown := by
    intro process hmem
    obtain ⟨before, hbefore, hsame⟩ := hprocess process hmem
    rw [hlog, hsame]
    exact h.shown before hbefore
  saved := by
    rw [hlog, hsaved]
    exact h.saved
  audits := hlog ▸ h.audits

private theorem Audited.save {t : SessionWorld} (h : Audited sessionId threshold s)
    {request : SaveRequest} (hlog : t.log = s.log ++ [.saved (truthErrors request.state)])
    (hsaved : SqliteCheckpointStore.lastSave sessionId t.requests = some request)
    (hrequest : truthErrors request.state = auditOf threshold s.log)
    (hprocess : ∀ process ∈ t.process, truthErrors process.graphState =
      truthErrors request.state) : Audited sessionId threshold t where
  shown := by
    intro process hmem
    rw [hprocess process hmem, hrequest, hlog]
    exact (auditOf_idle threshold s.log rfl rfl rfl rfl).symm
  saved := by
    rw [hlog, hsaved, register_snoc]
    rfl
  audits := hlog ▸ h.audits.snoc hrequest

private theorem audited_checkpoint {times : List UtcTime} (hcarried : Carried sessionId s times)
    (h : Audited sessionId threshold s) (surfaceId : Option String) (now : ExchangeReading)
    (save : SaveInputs) :
    Audited sessionId threshold (s.checkpoint sessionId surfaceId now save) := by
  unfold checkpoint
  cases hprocess : s.process with
  | none => exact h
  | some process =>
    have hshown := h.shown process hprocess
    have hlast := lastSave_request hcarried (saveRequest sessionId
      (checkpointState sessionId process.runId surfaceId now process.graphState) save)
    simp only
    split
    · next hsaves =>
      rw [if_pos ⟨hsaves, rfl⟩] at hlast
      refine h.save rfl hlast hshown (fun saved hmem ↦ ?_)
      rw [← Option.some.inj hmem]
      rfl
    · next hsaves =>
      rw [if_neg (fun hboth ↦ hsaves hboth.1)] at hlast
      refine h.of_quiet (List.append_nil _) hlast (fun saved hmem ↦ ?_)
      rw [← Option.some.inj hmem]
      exact ⟨process, hprocess, rfl⟩

private theorem truthErrors_startState (inputs : StartInputs) (latest : Option CheckpointRecord) :
    truthErrors (startState sessionId inputs latest) =
      (latest.map (fun record ↦ truthErrors record.state)).getD [] := by
  have hnoted : ∀ (report : Option StartReport) (state : JokerGraphState),
      truthErrors (noteUnresolved report state) = truthErrors state := by
    intro report state
    cases report with
    | none => rfl
    | some report => simp [truthErrors, noteUnresolved, isTruthError_error]
  refine (hnoted (StartInputs.unresolved inputs) _).trans ?_
  cases latest <;> rfl

private theorem audited_start {times : List UtcTime} (hcarried : Carried sessionId s times)
    (hclock : Increasing times) (h : Audited sessionId threshold s) (inputs : StartInputs)
    (save : SaveInputs) :
    Audited sessionId threshold (s.start sessionId threshold inputs save) := by
  unfold start
  rw [hcarried.loadLatest hclock]
  cases hprocess : s.process with
  | some process => exact h
  | none =>
    simp only
    split
    · exact h
    · set latest := (SqliteCheckpointStore.lastSave sessionId s.requests).map SaveRequest.record
        with hlatest
      have hrestored : truthErrors (startState sessionId inputs latest) =
          (register TruthEvent.writeSaved s.log).getD [] := by
        rw [truthErrors_startState, h.saved, hlatest, Option.map_map]
        rfl
      generalize startState sessionId inputs latest = state at hrestored ⊢
      have hlast := lastSave_request hcarried (saveRequest sessionId state save)
      split
      · next hsaves =>
        rw [if_pos ⟨hsaves, rfl⟩] at hlast
        have hstarted : Audited sessionId threshold
            { s with log := s.log ++ [.started (truthErrors state)] } := by
          refine ⟨fun process hmem ↦ ?_, ?_, h.audits.snoc hrestored⟩
          · rw [hprocess] at hmem
            cases hmem
          · rw [register_snoc]
            exact h.saved
        have hshown := (auditOf_started threshold s.log (truthErrors state)).symm
        refine hstarted.save ?_ hlast hshown (fun process hmem ↦ ?_)
        · exact (List.append_assoc s.log [_] [_]).symm
        · rw [← Option.some.inj hmem]
          rfl
      · next hsaves =>
        rw [if_neg (fun hboth ↦ hsaves hboth.1)] at hlast
        exact h.of_quiet rfl hlast (fun process hmem ↦ ⟨process, hmem, rfl⟩)

private theorem audited_callBridge (hwatched : Watched threshold s)
    (h : Audited sessionId threshold s) (call : BridgeCall) :
    Audited sessionId threshold (s.callBridge call) := by
  unfold callBridge
  cases hprocess : s.process with
  | none => exact h
  | some process =>
    have hshown := (hwatched.follows process hprocess).audited_call (h.shown process hprocess) call
    have hidle := idle_call threshold process.bridge call
    refine ⟨fun called hmem ↦ ?_, ?_, ?_⟩
    · rw [← Option.some.inj hmem]
      exact hshown
    · refine Eq.trans ?_ h.saved
      rw [register_append_of_idle _ _ (fun e he ↦ (hidle e he).1)]
    · exact h.audits.append_of_idle (fun e he ↦ (hidle e he).2)

/-- Every action but `restore_latest` keeps the audit. -/
theorem audited_step {times : List UtcTime} (hcarried : Carried sessionId s times)
    (hclock : Increasing times) (hwatched : Watched threshold s)
    (h : Audited sessionId threshold s) {action : SupervisorAction}
    (hrestore : action ≠ .restoreLatest) :
    Audited sessionId threshold (s.step sessionId threshold action) := by
  cases action with
  | start inputs save => exact audited_start hcarried hclock h inputs save
  | update ids now =>
    refine h.of_quiet rfl rfl (fun process hmem ↦ ?_)
    obtain ⟨before, hbefore, rfl⟩ := Option.map_eq_some_iff.mp hmem
    exact ⟨before, hbefore, rfl⟩
  | checkpoint surfaceId now save => exact audited_checkpoint hcarried h surfaceId now save
  | restoreLatest => exact absurd rfl hrestore
  | bridge call => exact audited_callBridge hwatched h call
  | shutdown surfaceId now save =>
    have hcheckpoint := audited_checkpoint hcarried h surfaceId now save
    refine hcheckpoint.of_quiet rfl rfl (fun process hmem ↦ ?_)
    exact ⟨process, (Option.filter_eq_some_iff.mp hmem).1, rfl⟩
  | die => exact h.of_quiet rfl rfl (fun _ hmem ↦ nomatch hmem)
  | other request storable =>
    change Audited sessionId threshold
      (if request.sessionId = sessionId then s else s.request request)
    split
    · exact h
    · next hother =>
      have hlast := lastSave_request hcarried request
      rw [if_neg (fun hboth ↦ hother hboth.2)] at hlast
      exact h.of_quiet rfl hlast (fun process hmem ↦ ⟨process, hmem, rfl⟩)

/-- The invariant holds after every run in which no process calls `restore_latest`. -/
theorem audited_run {actions : List SupervisorAction} (hclock : Increasing (saveTimes actions))
    (hrestore : .restoreLatest ∉ actions) :
    Audited sessionId threshold (run (step sessionId threshold) new actions) := by
  induction actions using List.reverseRecOn with
  | nil => exact audited_new sessionId threshold
  | append_singleton actions action ih =>
    have hbefore : Increasing (saveTimes actions) := by
      unfold saveTimes at hclock
      rw [List.filterMap_append] at hclock
      exact hclock.sublist (List.sublist_append_left _ _)
    have hrestores : .restoreLatest ∉ actions ∧ .restoreLatest ≠ action := by
      simpa using hrestore
    rw [run_snoc]
    exact audited_step (carried_run threshold hbefore) hbefore
      (watched_run sessionId threshold actions) (ih hbefore hrestores.1) hrestores.2.symm

/-- In every run in which no process calls `restore_latest`, which no code does: the graph state
of the process has an entry of a degraded layer exactly while the layer is degraded, one, with the
last failure and how many there were; until the first failure of the process it has those that the
start restored. A checkpoint saves the entries of its time, a start restores those that were saved
last, and so does the latest checkpoint now have them. -/
theorem truth_audited (sessionId : String) (threshold : ℤ) {actions : List SupervisorAction}
    (hclock : Increasing (saveTimes actions)) (hrestore : .restoreLatest ∉ actions) :
    let s := run (step sessionId threshold) new actions
    (∀ process ∈ s.process, truthErrors process.graphState = auditOf threshold s.log) ∧
      Guarded (Audits threshold) s.log ∧
      ∃ latest, s.store.loadLatest sessionId = .ok latest ∧
        (latest.map (fun record ↦ truthErrors record.state)).getD [] =
          (register TruthEvent.writeSaved s.log).getD [] := by
  intro s
  have haudited : Audited sessionId threshold s := audited_run hclock hrestore
  have hcarried : Carried sessionId s (saveTimes actions) := carried_run threshold hclock
  refine ⟨haudited.shown, haudited.audits, _, hcarried.loadLatest hclock, ?_⟩
  rw [Option.map_map, haudited.saved]
  rfl

/-- A process whose market fails twice, the second time without a message, and a new process on its
checkpoint. -/
def degradedRun : List SupervisorAction :=
  let good : StartReport := ⟨"q", 0, true⟩
  [.start ⟨"r1", false, good, good, false, sampleReading⟩ ⟨"c1", UtcTime.sample 1⟩,
    .bridge (.ingest (some ("feed lost", UtcTime.sample 2))),
    .bridge (.tick (.error ("", UtcTime.sample 3))),
    .checkpoint none sampleReading ⟨"c2", UtcTime.sample 4⟩, .die,
    .start ⟨"r2", false, good, good, false, sampleReading⟩ ⟨"c3", UtcTime.sample 5⟩]

/-- The new process shows the entry of the second failure. -/
theorem truth_audited_degraded :
    ((run (step "s" 1) new degradedRun).process.map (fun process ↦
      truthErrors process.graphState)) =
      some [truthError "Task 1 market runtime unhealthy" 2 (some (UtcTime.sample 3))] := by
  cases hprocess : (run (step "s" 1) new degradedRun).process with
  | none => exact absurd hprocess (by decide)
  | some process =>
    have haudited := @truth_audited "s" 1 degradedRun (by decide) (by simp [degradedRun])
    rw [Option.map_some, haudited.1 process hprocess]
    rfl

end SessionWorld
end Joker.Runtime
