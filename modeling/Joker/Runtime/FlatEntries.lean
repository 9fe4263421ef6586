import Joker.Runtime.NewEntryCycles

/-!
# New entries start when flat

Library `Runtime`. The test for open positions is made when a snapshot is handled, the test for
a working buy order again when its cycle begins. Each operation after a test takes for granted
what the test found. While no change of the ledger breaks what some task or a waiting snapshot
takes for granted, and no load fails that would have found something, every start of the
decision graph finds the ledger flat.
-/

namespace Joker.Runtime

open Joker.Base Joker.Ledger

/-! ### What is taken for granted -/

/-- What the code takes for granted about the ledger before an operation. -/
def AgentOp.Assumes (projection : ProjectionState) : AgentOp → Prop
  | .loadOrders flat | .enqueue flat => flat = true → NoOpenPosition projection
  | .begin taken => taken = true → NoOpenPosition projection
  | .recheck => NoOpenPosition projection
  | .upsert | .publish | .startGraph => Flat projection
  | _ => True

instance (projection : ProjectionState) (op : AgentOp) : Decidable (op.Assumes projection) := by
  cases op <;> unfold AgentOp.Assumes <;> infer_instance

/-- A snapshot waits in the queue or as the pending one. -/
def AgentState.HasWaiting (s : AgentState) : Prop := s.decisionQueue ≠ [] ∨ s.HasPending

instance (s : AgentState) : Decidable s.HasWaiting := inferInstanceAs (Decidable (_ ∨ _))

/-- Waiting snapshots were queued while flat and nothing has opened since; every start so far
was flat. -/
structure AgentState.Sound (s : AgentState) : Prop where
  waiting : s.HasWaiting → NoOpenPosition s.ledger
  starts : ∀ projection ∈ s.starts, Flat projection

/-- The operation can be trusted: a load that raises would have found nothing, and a change of
the ledger opens no position while a snapshot waits. -/
def AgentOp.Trusted (op : AgentOp) (s : AgentState) : Prop :=
  match op with
  | .loadPositions => s.outside.loaderRaises = true → NoOpenPosition s.ledger
  | .recheck => s.outside.loaderRaises = true → NoWorkingBuy s.ledger
  | .change projection => s.HasWaiting → NoOpenPosition projection
  | _ => True

instance (op : AgentOp) (s : AgentState) : Decidable (op.Trusted s) := by
  cases op <;> unfold AgentOp.Trusted <;> infer_instance

/-- A change of the ledger breaks nothing that a task takes for granted. -/
def AgentPool.Undisturbed (p : AgentPool) : AgentOp → Prop
  | .change projection => ∀ j < p.tasks.length, ∀ op ∈ p.label? j, op.Assumes projection
  | _ => True

instance (p : AgentPool) (op : AgentOp) : Decidable (p.Undisturbed op) := by
  cases op <;> unfold AgentPool.Undisturbed <;> infer_instance

/-- The step takes a trusted operation that leaves the other tasks undisturbed. -/
def AgentPool.Meets (p : AgentPool) : PoolAction AgentTask AgentOutside → Prop
  | .resume i => ∀ op ∈ p.label? i, op.Trusted p.shared ∧ p.Undisturbed op
  | _ => True

instance (p : AgentPool) (a : PoolAction AgentTask AgentOutside) : Decidable (p.Meets a) := by
  cases a <;> unfold AgentPool.Meets <;> infer_instance

/-! ### One operation -/

section Operations

variable {config : AgentRuntimeConfig}

/-- Only a change of the ledger changes the ledger. -/
def AgentOp.LedgerStep (op : AgentOp) (s s' : AgentState) : Prop :=
  match op with
  | .change projection => s'.ledger = projection
  | _ => s'.ledger = s.ledger

private theorem ledger_keepPending (s : AgentState) (id : String) :
    (s.keepPending id).ledger = s.ledger := by
  unfold AgentState.keepPending
  split <;> rfl

private theorem ledger_beginWork (event : AgentEvent) (s : AgentState) :
    (beginWork event s).1.ledger = s.ledger := by
  unfold beginWork
  split
  · exact ledger_keepPending s _
  · rfl

private theorem ledger_beginCoalesced (s : AgentState) :
    (beginCoalesced s).1.ledger = s.ledger := by
  unfold beginCoalesced
  split
  · split
    · rfl
    · rw [ledger_beginWork]
  · rfl

private theorem frame_putPositions (event : String → AgentEvent) (contractIds : List String)
    (s : AgentState) :
    let s' := contractIds.foldl (fun s contractId ↦
      s.putPosition positionSnapshotPriority (event contractId)) s
    s'.ledger = s.ledger ∧ s'.decisionQueue = s.decisionQueue ∧
      s'.pendingNewEntrySnapshot = s.pendingNewEntrySnapshot ∧ s'.starts = s.starts := by
  induction contractIds generalizing s with
  | nil => exact ⟨rfl, rfl, rfl, rfl⟩
  | cons contractId rest ih => exact ih (s.putPosition positionSnapshotPriority (event contractId))

/-- Routing a snapshot to positions touches the position queue only. -/
theorem frame_routePositions (event : AgentEvent) (openPositions : List String) (s : AgentState) :
    let s' := routePositions config event openPositions s
    s'.ledger = s.ledger ∧ s'.decisionQueue = s.decisionQueue ∧
      s'.pendingNewEntrySnapshot = s.pendingNewEntrySnapshot ∧ s'.starts = s.starts := by
  unfold routePositions
  split
  · exact frame_putPositions _ openPositions s
  · exact ⟨rfl, rfl, rfl, rfl⟩

private theorem ledger_enqueueLoaded (event : AgentEvent) (openPositions : List String)
    (workingEntry : Bool) (s : AgentState) :
    (enqueueLoaded config event openPositions workingEntry s).ledger = s.ledger := by
  have hrouted := (@frame_routePositions config event openPositions s).1
  unfold enqueueLoaded
  simp only
  split
  · split
    · rw [ledger_keepPending, hrouted]
    · exact hrouted
  · exact hrouted

/-- Soundness speaks of the ledger, the starts and the waiting snapshots. -/
theorem sound_of_frame {s s' : AgentState} (h : s.Sound) (hledger : s'.ledger = s.ledger)
    (hstarts : s'.starts = s.starts)
    (hwaiting : s'.HasWaiting → s.HasWaiting ∨ NoOpenPosition s.ledger) : s'.Sound where
  waiting hw := by
    rw [hledger]
    exact (hwaiting hw).elim h.waiting id
  starts := hstarts ▸ h.starts

private theorem sound_keepPending {s : AgentState} (h : s.Sound) (hopen : NoOpenPosition s.ledger)
    (id : String) : (s.keepPending id).Sound := by
  apply sound_of_frame h (ledger_keepPending s id) _ (fun _ ↦ Or.inr hopen)
  unfold AgentState.keepPending
  split <;> rfl

private theorem sound_putDecision {s : AgentState} (h : s.Sound) (hopen : NoOpenPosition s.ledger)
    (event : AgentEvent) : (s.putDecision event).Sound :=
  sound_of_frame h rfl rfl (fun _ ↦ Or.inr hopen)

private theorem sound_routePositions {s : AgentState} (h : s.Sound) (event : AgentEvent)
    (openPositions : List String) : (routePositions config event openPositions s).Sound := by
  obtain ⟨hledger, hqueue, hpending, hstarts⟩ :=
    @frame_routePositions config event openPositions s
  apply sound_of_frame h hledger hstarts
  intro hw
  left
  unfold AgentState.HasWaiting AgentState.HasPending at *
  rw [hqueue, hpending] at hw
  exact hw

/-- A handler queues a new entry only after it has found no open position. -/
theorem sound_enqueueLoaded {s : AgentState} (h : s.Sound) (event : AgentEvent)
    (openPositions : List String) (workingEntry : Bool)
    (hopen : openPositions.isEmpty = true → NoOpenPosition s.ledger) :
    (enqueueLoaded config event openPositions workingEntry s).Sound := by
  have hrouted := @sound_routePositions config s h event openPositions
  have hledger := (@frame_routePositions config event openPositions s).1
  unfold enqueueLoaded
  simp only
  split
  · next hnew =>
    have hflat : NoOpenPosition (routePositions config event openPositions s).ledger := by
      rw [hledger]
      exact hopen (by rw [hnew.1]; rfl)
    split
    · exact sound_keepPending hrouted hflat _
    · exact sound_putDecision hrouted hflat event
  · exact hrouted

private theorem sound_beginWork {s : AgentState} (h : s.Sound) (hopen : NoOpenPosition s.ledger)
    (event : AgentEvent) : (beginWork event s).1.Sound := by
  unfold beginWork
  split
  · exact sound_keepPending h hopen _
  · exact sound_of_frame h rfl rfl Or.inl

/-- A pending snapshot is begun only while nothing has opened since it was kept. -/
theorem sound_beginCoalesced {s : AgentState} (h : s.Sound) :
    (beginCoalesced s).1.Sound ∧
      ((beginCoalesced s).2 ≠ none → NoOpenPosition (beginCoalesced s).1.ledger) := by
  have hopen (id : String) (hid : s.pendingNewEntrySnapshot = some id) (hne : id ≠ "") :
      NoOpenPosition s.ledger := h.waiting (Or.inr ⟨id, hid, hne⟩)
  rw [ledger_beginCoalesced]
  unfold beginCoalesced
  split
  · next id hid =>
    split
    · exact ⟨h, fun hn ↦ absurd rfl hn⟩
    · next hne =>
      rw [not_or] at hne
      have hflat := hopen id hid hne.1
      have hcleared : ({ s with pendingNewEntrySnapshot := none } : AgentState).Sound :=
        sound_of_frame h rfl rfl (fun _ ↦ Or.inr hflat)
      exact ⟨sound_beginWork hcleared hflat _, fun _ ↦ hflat⟩
  · exact ⟨h, fun hn ↦ absurd rfl hn⟩

end Operations

/-! ### Outlines -/

section Outlines

variable {config : AgentRuntimeConfig}

-- The assertion before an operation.
private abbrev Pre (op : AgentOp) (s : AgentState) : Prop := op.Assumes s.ledger

private abbrev KeepsSound {α : Type} (c : AgentM α) (Q : Except AgentError α → AgentState → Prop) :
    Prop :=
  c.Outlined AgentOp.Trusted Pre AgentState.Sound Q

private theorem kept_openPositionContractIdsNow :
    KeepsSound openPositionContractIdsNow (fun result s ↦ ∀ ids, result = .ok ids →
      ids.isEmpty = true → NoOpenPosition s.ledger) := by
  apply Coro.outlined_atomic
  intro s htrusted hs _
  refine ⟨hs, ?_⟩
  intro ids hids hempty
  cases hids
  split at hempty
  · next hraises => exact htrusted hraises
  · exact List.isEmpty_iff.mp hempty

private theorem kept_enqueueSnapshotWork (event : AgentEvent) :
    KeepsSound (enqueueSnapshotWork config event) (fun _ _ ↦ True) := by
  apply Coro.outlined_bind kept_openPositionContractIdsNow
  · intro openPositions
    apply Coro.outlined_bind
      (Q := fun _ s ↦ openPositions.isEmpty = true → NoOpenPosition s.ledger)
    · exact Coro.outlined_atomic (fun s _ hs hpre ↦ ⟨hs, hpre⟩)
    · intro workingEntry
      apply Coro.outlined_atomic
      intro s _ hs hpre
      exact ⟨sound_enqueueLoaded hs event openPositions workingEntry hpre, trivial⟩
    · exact fun _ _ _ h ↦ h
    · exact fun _ _ _ ↦ trivial
  · exact fun openPositions s _ h ↦ h openPositions rfl
  · exact fun _ _ _ ↦ trivial

private theorem kept_onEvent (event : AgentEvent) :
    KeepsSound (onEvent config event) (fun _ _ ↦ True) := by
  unfold onEvent
  split
  · exact kept_enqueueSnapshotWork event
  · apply Coro.outlined_atomic
    intro s _ hs _
    exact ⟨sound_of_frame hs rfl rfl Or.inl, trivial⟩

private theorem kept_recheck :
    KeepsSound (hasWorkingEntryOrderNow .recheck) (fun result s ↦ result = .ok false →
      Flat s.ledger) := by
  apply Coro.outlined_atomic
  intro s htrusted hs hopen
  refine ⟨hs, ?_⟩
  intro hresult
  have hworking := Except.ok.inj hresult
  rw [Bool.and_eq_false_iff] at hworking
  rcases hworking with hraises | hnone
  · exact ⟨hopen, htrusted (by simpa using hraises)⟩
  · exact ⟨hopen, hnone⟩

-- A call of a collaborator leaves the ledger as it was.
private theorem kept_callIf {op : AgentOp} {configured : Bool} {raises : AgentOutside → Bool}
    (hop : ∀ projection, op.Assumes projection = Flat projection) :
    KeepsSound (callIf configured op raises) (fun _ s ↦ Flat s.ledger) := by
  unfold callIf
  split
  · apply Coro.outlined_atomic
    intro s _ hs hpre
    exact ⟨hs, hop s.ledger ▸ hpre⟩
  · trivial

private theorem at_callIf {op : AgentOp} {configured : Bool} {raises : AgentOutside → Bool}
    (hop : ∀ projection, op.Assumes projection = Flat projection) {s : AgentState}
    (hs : Flat s.ledger) :
    (callIf configured op raises).At Pre (fun _ s ↦ Flat s.ledger) s := by
  unfold callIf
  split
  · exact (hop s.ledger).mpr hs
  · exact hs

private theorem kept_startGraph :
    KeepsSound (Coro.atomic .startGraph (fun s ↦
      ({ s with starts := s.starts ++ [s.ledger] }, .ok ())) : AgentM Unit) (fun _ _ ↦ True) := by
  apply Coro.outlined_atomic
  intro s _ hs hflat
  refine ⟨⟨hs.waiting, ?_⟩, trivial⟩
  intro projection hm
  rcases List.mem_append.mp hm with hm | hm
  · exact hs.starts projection hm
  · rw [List.mem_singleton.mp hm]
    exact hflat

private theorem kept_startDecisionGraph (event : AgentEvent) :
    KeepsSound (startDecisionGraph config event) (fun _ _ ↦ True) := by
  unfold startDecisionGraph
  split
  · trivial
  · apply Coro.outlined_bind (kept_callIf (fun _ ↦ rfl))
    · intro _
      apply Coro.outlined_bind (kept_callIf (fun _ ↦ rfl))
      · exact fun _ ↦ kept_startGraph
      · exact fun _ _ _ h ↦ h
      · exact fun _ _ _ ↦ trivial
    · intro _ s _ h
      exact Coro.at_bind (at_callIf (fun _ ↦ rfl) h) (fun _ h ↦ h) (fun _ _ ↦ trivial)
    · exact fun _ _ _ ↦ trivial

private theorem at_startDecisionGraph (event : AgentEvent) {s : AgentState} (hs : Flat s.ledger) :
    (startDecisionGraph config event).At Pre (fun _ _ ↦ True) s := by
  unfold startDecisionGraph
  split
  · trivial
  · apply Coro.at_bind (at_callIf (fun _ ↦ rfl) hs)
    · intro _ h
      exact Coro.at_bind (at_callIf (fun _ ↦ rfl) h) (fun _ h ↦ h) (fun _ _ ↦ trivial)
    · exact fun _ _ ↦ trivial

private theorem kept_invokeDecisionGraph (event : AgentEvent) :
    KeepsSound (invokeDecisionGraph config event) (fun _ _ ↦ True) := by
  apply Coro.outlined_bind kept_recheck
  · intro workingEntry
    cases workingEntry with
    | true => trivial
    | false => exact kept_startDecisionGraph event
  · intro workingEntry s _ h
    cases workingEntry with
    | true => trivial
    | false => exact at_startDecisionGraph event (h rfl)
  · exact fun _ _ _ ↦ trivial

private theorem kept_takeWork :
    KeepsSound takeWork (fun result s ↦ ∀ work, result = .ok (some work) →
      NoOpenPosition s.ledger) := by
  apply Coro.outlined_atomic
  intro s _ hs _
  split
  · exact ⟨hs, fun _ h ↦ nomatch h⟩
  · next work rest hqueue =>
    have hopen : NoOpenPosition s.ledger :=
      hs.waiting (Or.inl (by rw [hqueue]; exact List.cons_ne_nil work rest))
    exact ⟨sound_of_frame hs rfl rfl (fun _ ↦ Or.inr hopen), fun _ _ ↦ hopen⟩

private theorem kept_chooseEvent (work : Option QueuedWork) :
    KeepsSound (chooseEvent work) (fun result s ↦ ∀ event, result = .ok (some event) →
      NoOpenPosition s.ledger) := by
  cases work with
  | some work =>
    apply Coro.outlined_atomic
    intro s _ hs hpre
    refine ⟨sound_beginWork hs (hpre rfl) work.event, ?_⟩
    intro event _
    rw [ledger_beginWork]
    exact hpre rfl
  | none =>
    apply Coro.outlined_atomic
    intro s _ hs _
    obtain ⟨hsound, hopen⟩ := sound_beginCoalesced hs
    refine ⟨hsound, ?_⟩
    intro event hevent
    exact hopen (fun hn ↦ Option.some_ne_none event ((Except.ok.inj hevent).symm.trans hn))

private theorem kept_runCycle (event : Option AgentEvent) :
    KeepsSound (runCycle config event) (fun _ _ ↦ True) := by
  cases event with
  | none => trivial
  | some event =>
    apply Coro.outlined_bind (Coro.outlined_attempt (kept_invokeDecisionGraph event))
    · intro _
      apply Coro.outlined_atomic
      intro s _ hs _
      exact ⟨sound_of_frame hs rfl rfl Or.inl, trivial⟩
    · exact fun _ _ _ _ ↦ trivial
    · exact fun _ _ _ ↦ trivial

private theorem kept_decisionWorkerTurn :
    KeepsSound (decisionWorkerTurn config) (fun _ _ ↦ True) := by
  apply Coro.outlined_bind kept_takeWork
  · intro work
    apply Coro.outlined_bind (kept_chooseEvent work)
    · exact kept_runCycle
    · intro event s _ h
      cases event with
      | none => trivial
      | some event => exact h event rfl
    · exact fun _ _ _ ↦ trivial
  · intro work s _ h
    cases work with
    | some work => exact fun _ ↦ h work rfl
    | none => exact fun hf ↦ nomatch hf
  · exact fun _ _ _ ↦ trivial

private theorem kept_agentBody (task : AgentTask) :
    KeepsSound (agentBody config task) (fun _ _ ↦ True) := by
  cases task with
  | onEvent event => exact kept_onEvent event
  | workerTurn => exact kept_decisionWorkerTurn
  | ledger projection =>
    apply Coro.outlined_atomic
    intro s htrusted hs _
    exact ⟨⟨htrusted, hs.starts⟩, trivial⟩

private theorem at_agentBody (task : AgentTask) (s : AgentState) :
    (agentBody config task).At Pre (fun _ _ ↦ True) s := by
  cases task with
  | onEvent event =>
    change (onEvent config event).At _ _ s
    unfold onEvent
    split <;> trivial
  | workerTurn => trivial
  | ledger projection => trivial

private theorem outline_agentBody :
    Pool.Outline (agentBody config) (fun outside s ↦ { s with outside := outside })
      AgentOp.Trusted (fun _ ↦ True) AgentState.Sound (fun _ ↦ Pre) (fun _ _ _ ↦ True) where
  outlined := kept_agentBody
  spawn task s _ := at_agentBody task s
  env outside s _ hs := by
    refine ⟨⟨hs.waiting, hs.starts⟩, ?_⟩
    intro task code hat
    cases code with
    | done result => trivial
    | op label effect next => exact hat

/-! ### Ledger steps -/

private theorem ledgerSteps_callIf (configured : Bool) {op : AgentOp} {raises : AgentOutside → Bool}
    (hop : ∀ s, op.LedgerStep s s) :
    (callIf configured op raises).Steps AgentOp.LedgerStep := by
  unfold callIf
  split
  · exact Coro.steps_atomic hop
  · trivial

private theorem ledgerSteps_invokeDecisionGraph (event : AgentEvent) :
    (invokeDecisionGraph config event).Steps AgentOp.LedgerStep := by
  apply Coro.steps_bind (Coro.steps_atomic (fun _ ↦ rfl))
  intro workingEntry
  cases workingEntry with
  | true => trivial
  | false =>
    change (startDecisionGraph config event).Steps _
    unfold startDecisionGraph
    split
    · trivial
    · have hupsert (s : AgentState) : AgentOp.upsert.LedgerStep s s := rfl
      have hpublish (s : AgentState) : AgentOp.publish.LedgerStep s s := rfl
      apply Coro.steps_bind (ledgerSteps_callIf _ hupsert)
      intro _
      apply Coro.steps_bind (ledgerSteps_callIf _ hpublish)
      exact fun _ ↦ Coro.steps_atomic (fun _ ↦ rfl)

private theorem ledgerSteps_onEvent (event : AgentEvent) :
    (onEvent config event).Steps AgentOp.LedgerStep := by
  unfold onEvent
  split
  · apply Coro.steps_bind (Coro.steps_atomic (fun _ ↦ rfl))
    intro openPositions
    apply Coro.steps_bind (Coro.steps_atomic (fun _ ↦ rfl))
    intro workingEntry
    exact Coro.steps_atomic (fun s ↦ ledger_enqueueLoaded event openPositions workingEntry s)
  · exact Coro.steps_atomic (fun _ ↦ rfl)

private theorem ledgerSteps_decisionWorkerTurn :
    (decisionWorkerTurn config).Steps AgentOp.LedgerStep := by
  apply Coro.steps_bind
  · apply Coro.steps_atomic
    intro s
    split <;> rfl
  · intro work
    apply Coro.steps_bind
    · cases work with
      | some work => exact Coro.steps_atomic (fun s ↦ ledger_beginWork work.event s)
      | none => exact Coro.steps_atomic ledger_beginCoalesced
    · intro event
      cases event with
      | none => trivial
      | some event =>
        apply Coro.steps_bind
        · apply Coro.steps_handle
          · exact Coro.steps_bind (ledgerSteps_invokeDecisionGraph event) (fun _ ↦ trivial)
          · exact fun _ ↦ trivial
        · exact fun _ ↦ Coro.steps_atomic (fun _ ↦ rfl)

private theorem ledgerSteps_agentBody (task : AgentTask) :
    (agentBody config task).Steps AgentOp.LedgerStep := by
  cases task with
  | onEvent event => exact ledgerSteps_onEvent event
  | workerTurn => exact ledgerSteps_decisionWorkerTurn
  | ledger projection => exact Coro.steps_atomic (fun _ ↦ rfl)

end Outlines

/-! ### Runs -/

section Runs

variable {config : AgentRuntimeConfig} {ledger : ProjectionState} {outside : AgentOutside}

private theorem respects_of_meets {p : AgentPool} {a : PoolAction AgentTask AgentOutside}
    (h : AgentPool.Meets p a) : p.Respects AgentOp.Trusted a := by
  cases a with
  | resume i =>
    intro task op hbefore
    exact (h op (Pool.label?_eq_some_iff.mpr ⟨task, hbefore⟩)).1
  | _ => trivial

private theorem spares_of_meets {xs : List (PoolAction AgentTask AgentOutside)}
    {a : PoolAction AgentTask AgentOutside}
    (hholds : (runAgent config ledger outside xs).Holds AgentState.Sound (fun _ ↦ Pre)
      (fun _ _ _ ↦ True))
    (h : AgentPool.Meets (runAgent config ledger outside xs) a) :
    (runAgent config ledger outside xs).Spares (fun _ ↦ Pre) (fun _ _ _ ↦ True) a := by
  cases a with
  | resume i =>
    intro j hji task code hj
    have hat := hholds.2 j task code hj
    cases code with
    | done result => trivial
    | op op effect next =>
      by_cases hb : ∃ task label, (runAgent config ledger outside xs).Before i task label
      · obtain ⟨task', label, effect', next', ht⟩ := hb
        have hstep : label.LedgerStep _ (effect' (runAgent config ledger outside xs).shared) :=
          (Pool.steps_of_run ledgerSteps_agentBody _ xs ht _).1
        have hundisturbed :=
          (h label (Pool.label?_eq_some_iff.mpr ⟨task', effect', next', ht⟩)).2
        rw [Pool.shared_resume ht]
        cases label with
        | change projection =>
          change op.Assumes _
          rw [show (effect' _).ledger = projection from hstep]
          have hlt := (List.getElem?_eq_some_iff.mp hj).1
          exact hundisturbed j hlt op (Pool.label?_eq_some_iff.mpr ⟨task, effect, next, hj⟩)
        | _ =>
          change op.Assumes _
          rw [show (effect' _).ledger = _ from hstep]
          exact hat
      · rw [Pool.resume_of_not_before hb]
        exact hat
  | _ => trivial

/-- In every run whose steps all meet the condition, each start of the decision graph finds the
ledger without an open position and without a working buy order. -/
theorem startsFlat_of_meets (xs : List (PoolAction AgentTask AgentOutside))
    (h : StepsMeet (Pool.step (agentBody config) (fun outside s ↦ { s with outside := outside }))
      AgentPool.Meets (Pool.start (AgentState.new ledger outside)) xs) :
    ∀ pre, pre <+: xs → ∀ projection ∈ (runAgent config ledger outside pre).shared.starts,
      Flat projection := by
  have hmeets := ok_of_stepsMeet h
  have hholds : ∀ pre, pre <+: xs → (runAgent config ledger outside pre).Holds AgentState.Sound
      (fun _ ↦ Pre) (fun _ _ _ ↦ True) := by
    intro pre
    induction pre using List.reverseRecOn with
    | nil =>
      intro _
      apply Pool.holds_start
      constructor
      · rintro (hq | ⟨id, hid, -⟩)
        · exact absurd rfl hq
        · cases hid
      · exact fun _ hm ↦ absurd hm List.not_mem_nil
    | append_singleton pre a ih =>
      intro hp
      have hpre := ih ((List.prefix_append pre [a]).trans hp)
      have ha := hmeets pre a hp
      exact (Pool.holds_snoc_iff outline_agentBody hpre (respects_of_meets ha)
        (fun _ _ ↦ trivial)).mpr (spares_of_meets hpre ha)
  exact fun pre hp ↦ (hholds pre hp).1.starts

end Runs

/-! ### Two snapshots -/

namespace AgentState.Sample

/-- A ledger without orders whose one position has a quantity. -/
def holding (quantity : ℚ) : ProjectionState :=
  { orders := Dict.empty
    positions := Dict.empty.set "SPY:2026-07-01:500.0:call"
      { PositionState.new "SPY:2026-07-01:500.0:call" with quantity := quantity }
    capitalUsage := 0
    seenEventIds := ∅
    seenIdempotencyKeys := ∅ }

/-- The default settings, with a cycle registry and a bus. -/
def config : AgentRuntimeConfig := ⟨true, true, true, true⟩

/-- Nothing raises. -/
def calm : AgentOutside := ⟨false, false, false⟩

/-- The event of a new snapshot. -/
def snapshot (id : String) : AgentEvent := ⟨.snapshotCreated, some id, none, none⟩

/-- A cycle buys, the position is closed, and the next snapshot starts another cycle. -/
def boughtAndSold : List (PoolAction AgentTask AgentOutside) :=
  .spawn (.onEvent (snapshot "s1")) :: List.replicate 3 (.resume 0) ++
    .spawn .workerTurn :: List.replicate 6 (.resume 1) ++
    [.spawn (.ledger (holding 1)), .resume 2, .spawn (.onEvent (snapshot "s2"))] ++
    List.replicate 3 (.resume 3) ++
    [.resume 1, .spawn (.ledger (holding 0)), .resume 4, .spawn (.onEvent (snapshot "s3"))] ++
    List.replicate 3 (.resume 5) ++ .spawn .workerTurn :: List.replicate 7 (.resume 6)

/-- Two snapshots are queued while flat, and the cycle of the first one buys. -/
def queuedTwice : List (PoolAction AgentTask AgentOutside) :=
  .spawn (.onEvent (snapshot "s1")) :: List.replicate 3 (.resume 0) ++
    .spawn (.onEvent (snapshot "s2")) :: List.replicate 3 (.resume 1) ++
    .spawn .workerTurn :: List.replicate 6 (.resume 2) ++
    [.spawn (.ledger (holding 1)), .resume 3, .resume 2] ++
    .spawn .workerTurn :: List.replicate 6 (.resume 4)

end AgentState.Sample

open AgentState.Sample in
/-- The theorem at two cycles with a position opened and closed in between. -/
theorem startsFlat_boughtAndSold :
    (runAgent config (holding 0) calm boughtAndSold).shared.starts.length = 2 ∧
      ∀ pre, pre <+: boughtAndSold →
        ∀ projection ∈ (runAgent config (holding 0) calm pre).shared.starts, Flat projection :=
  ⟨by decide +kernel, startsFlat_of_meets boughtAndSold (by decide +kernel)⟩

open AgentState.Sample in
/-- The cycle of the second snapshot starts with the first one's position open. -/
theorem not_startsFlat_queuedTwice :
    ¬ ∀ projection ∈ (runAgent config (holding 0) calm queuedTwice).shared.starts,
      Flat projection := by
  decide +kernel

end Joker.Runtime
