import Joker.Graph.Reducers
import Joker.Runtime.CycleRecovery

/-!
# Outcomes of decision cycles

Library `Graph`. Which runs of the parent cognitive graph the runtime takes for completed. A run to
`END` has come through one of the nodes that persist it, so it depends on the codes of its errors;
those are never lost on the way, and a blocking one is written exactly where a validation or a
submission fails.
-/

namespace Joker.Graph

open Joker.Base Joker.Runtime

/-! ### Failures -/

/-- A gateway or a callback leaves the compiled proposal without an order. -/
def Answer.leavesNoOrder (answer : Answer) (deps : CognitiveGraphDeps)
    (proposal : ExecutionProposal) (provenanced : ProvenancedExecutionCommand) : Bool :=
  if deps.hasGateway then
    !(answer.gateway (provenancedToActionRequest provenanced
      (if proposal.action = .probe then OrderActionKind.probe else .entry))).submitted
  else !deps.hasSubmitCallback

/-- A submission of a proposal leaves it without an order. -/
def Answer.failsSubmission (answer : Answer) (deps : CognitiveGraphDeps)
    (proposal : ExecutionProposal) : Bool :=
  match CognitiveGraph.compileProposal deps answer proposal with
  | .error _ => true
  | .ok provenanced => answer.leavesNoOrder deps proposal provenanced

/-- A validation of a proposal fails, for another reason than its age. -/
def Answer.failsValidation (answer : Answer) (deps : CognitiveGraphDeps)
    (proposal : ExecutionProposal) : Bool :=
  match CognitiveGraph.compileProposal deps answer proposal with
  | .error text => !hasText "stale" (lower text)
  | .ok _ => false

/-- An executed node that fails a proposal for good. -/
def Executed.fails (deps : CognitiveGraphDeps) (e : Executed) : Bool :=
  match e.node with
  | .validateExecutionProposal => e.state.executionProposal.any (e.answer.failsValidation deps)
  | .submitExecutionCommand =>
    !truthyText e.state.executionCommandId &&
      e.state.executionProposal.any (e.answer.failsSubmission deps)
  | _ => false

/-- The trace that a persisting node leaves; those of other nodes are under names that the runtime
does not look for. Source `joker/graph/cognitive_graph.py:425–427, 429–431, 444–446`. -/
def Executed.nodeTrace (e : Executed) : Option (Option String × Option String) :=
  match e.node with
  | .persistCycle => some (some "persist_cycle", some "completed")
  | .persistPendingCycle => some (some "persist_pending_cycle", some "completed")
  | .persistEvidenceRequest => some (some "persist_evidence_request", some "completed")
  | .persistStale => some (some "persist_stale", some "completed")
  | _ => none

/-- What the runtime reads of the state at the end of a run. -/
def GraphRun.result (cycle : GraphRun) (state : CognitiveGraphState) : CycleResult :=
  { errorCodes := state.errors.map (fun e ↦ some e.errorCode)
    nodeTrace := cycle.trace.filterMap Executed.nodeTrace
    executionCommandId := state.executionCommandId
    positionCommandId := none }

/-! ### Error records -/

/-- An error blocks the completion of its cycle. -/
def CognitiveError.Blocking (e : CognitiveError) : Prop := e.errorCode ∈ blockingCodes

private theorem mem_mergeErrors_iff {errors : List CognitiveError} {e x : CognitiveError}
    (hfree : ConflictFree CognitiveError.errorId errors)
    (hfresh : ∀ seen ∈ errors, seen.errorId ≠ e.errorId) :
    x ∈ mergeErrors errors [e] ↔ x ∈ errors ∨ x = e := by
  constructor
  · intro hx
    exact (mem_of_mem_mergeModels CognitiveError.errorId hx).imp_right List.mem_singleton.mp
  · rintro (hx | rfl)
    · have hfirst : errors.find? (fun seen ↦ seen.errorId = x.errorId) = some x :=
        hfree.firstSeen_eq_some_iff.mpr ⟨hx, rfl⟩
      refine (mem_mergeModels_iff CognitiveError.errorId errors [e] x).mpr ⟨x.errorId, ?_⟩
      rw [List.find?_append, hfirst]
      rfl
    · exact mem_mergeModels_of_fresh CognitiveError.errorId hfresh

namespace CognitiveGraph

variable {deps : CognitiveGraphDeps} {state state' : CognitiveGraphState} {answer : Answer}

/-- What a node does to the errors: it leaves them, and has not failed a proposal; or it adds one,
which blocks exactly when it has. -/
inductive Errs (deps : CognitiveGraphDeps) (answer : Answer) (node : Node)
    (state state' : CognitiveGraphState) : Prop where
  | kept (herrors : state'.errors = state.errors)
      (hfine : Executed.fails deps ⟨node, state, answer⟩ = false) :
      Errs deps answer node state state'
  | added (e : CognitiveError) (hid : e.errorId = answer.errorId)
      (herrors : state'.errors = mergeErrors state.errors [e])
      (hfails : e.Blocking ↔ Executed.fails deps ⟨node, state, answer⟩ = true) :
      Errs deps answer node state state'

private theorem errs_of_unlessFault {node : Node} {updated : CognitiveGraphState}
    (h : unlessFault answer updated = .ok state') (hupdated : Errs deps answer node state updated) :
    Errs deps answer node state state' := by
  unfold unlessFault at h
  split at h
  · cases h
  · cases h
    exact hupdated

private theorem errs_appendError {node : Node} (nodeName errorCode message : String)
    (recoverable : Bool)
    (hfails : errorCode ∈ blockingCodes ↔ Executed.fails deps ⟨node, state, answer⟩ = true) :
    Errs deps answer node state
      (state.appendError answer.errorId nodeName errorCode message recoverable) :=
  .added ⟨answer.errorId, nodeName, errorCode, message, recoverable⟩ rfl rfl hfails

private theorem errs_harmless {node : Node} (nodeName errorCode message : String)
    (recoverable : Bool) (hcode : errorCode ∉ blockingCodes)
    (hfine : Executed.fails deps ⟨node, state, answer⟩ = false) :
    Errs deps answer node state
      (state.appendError answer.errorId nodeName errorCode message recoverable) :=
  errs_appendError nodeName errorCode message recoverable
    (iff_of_false hcode (Bool.eq_false_iff.mp hfine))

private theorem errs_blocking {node : Node} (nodeName errorCode message : String)
    (recoverable : Bool) (hcode : errorCode ∈ blockingCodes)
    (hfails : Executed.fails deps ⟨node, state, answer⟩ = true) :
    Errs deps answer node state
      (state.appendError answer.errorId nodeName errorCode message recoverable) :=
  errs_appendError nodeName errorCode message recoverable (iff_of_true hcode hfails)

private theorem errs_submitProvenanced {proposal : ExecutionProposal}
    {provenanced : ProvenancedExecutionCommand}
    (hfails : Executed.fails deps ⟨.submitExecutionCommand, state, answer⟩ =
      answer.leavesNoOrder deps proposal provenanced)
    (h : submitProvenanced deps state answer proposal provenanced = .ok state') :
    Errs deps answer .submitExecutionCommand state state' := by
  unfold submitProvenanced at h
  unfold Answer.leavesNoOrder at hfails
  split at h
  · next hgateway =>
    rw [if_pos hgateway] at hfails
    dsimp only at h
    generalize answer.gateway _ = result at h hfails
    split at h
    · next hsubmitted =>
      rw [hsubmitted] at hfails
      exact errs_of_unlessFault h (.kept rfl hfails)
    · next hblocked =>
      rw [Bool.eq_false_iff.mpr hblocked] at hfails
      exact errs_of_unlessFault h (errs_blocking _ _ _ _ (by decide) hfails)
  · next hgateway =>
    rw [if_neg hgateway] at hfails
    split at h
    · next hcallback =>
      rw [hcallback] at hfails
      exact errs_of_unlessFault h (.kept rfl hfails)
    · next hcallback =>
      rw [Bool.eq_false_iff.mpr hcallback] at hfails
      obtain rfl := Except.ok.inj h
      exact errs_blocking _ _ _ _ (by decide) hfails

private theorem errs_submitExecutionCommand
    (h : submitExecutionCommand deps state answer = .ok state') :
    Errs deps answer .submitExecutionCommand state state' := by
  have hfails : Executed.fails deps ⟨.submitExecutionCommand, state, answer⟩ =
      (!truthyText state.executionCommandId &&
        state.executionProposal.any (answer.failsSubmission deps)) := rfl
  unfold submitExecutionCommand at h
  split at h
  · next hnone =>
    obtain rfl := Except.ok.inj h
    refine .kept rfl (hfails.trans ?_)
    rw [hnone]
    exact Bool.and_false _
  · next proposal hproposal =>
    rw [hproposal, Option.any_some] at hfails
    split at h
    · next hset =>
      obtain rfl := Except.ok.inj h
      have htruthy : truthyText state.executionCommandId = true := hset
      refine .kept rfl (hfails.trans ?_)
      rw [htruthy]
      rfl
    · next hunset =>
      have htruthy : truthyText state.executionCommandId = false := Bool.eq_false_iff.mpr hunset
      rw [htruthy, Bool.not_false, Bool.true_and] at hfails
      unfold Answer.failsSubmission at hfails
      split at h
      · next text hcompile =>
        rw [hcompile] at hfails
        obtain rfl := Except.ok.inj h
        exact errs_blocking _ _ _ _ (by decide) hfails
      · next provenanced hcompile =>
        rw [hcompile] at hfails
        exact errs_submitProvenanced hfails h

private theorem errs_validateExecutionProposal :
    Errs deps answer .validateExecutionProposal state
      (validateExecutionProposal deps state answer) := by
  have hfails : Executed.fails deps ⟨.validateExecutionProposal, state, answer⟩ =
      state.executionProposal.any (answer.failsValidation deps) := rfl
  unfold validateExecutionProposal
  split
  · next hnone =>
    rw [hnone] at hfails
    exact errs_harmless _ _ _ _ (by decide) hfails
  · next proposal hproposal =>
    rw [hproposal, Option.any_some] at hfails
    unfold Answer.failsValidation at hfails
    split
    · next text hcompile =>
      rw [hcompile] at hfails
      simp only at hfails
      split
      · next hstale =>
        rw [hstale] at hfails
        obtain ⟨herrors, hfine⟩ | ⟨e, hid, herrors, hblocking⟩ :=
          @errs_harmless deps state answer _ "validate_execution_proposal" "stale_proposal" text
            true (by decide) hfails
        · exact .kept herrors hfine
        · exact .added e hid herrors hblocking
      · next hfresh =>
        rw [Bool.eq_false_iff.mpr hfresh] at hfails
        exact errs_blocking _ _ _ _ (by decide) hfails
    · next provenanced hcompile =>
      rw [hcompile] at hfails
      exact .kept rfl hfails

/-- Every node keeps to that. -/
theorem errs_execute (node : Node) (h : execute deps state answer node = .ok state') :
    Errs deps answer node state state' := by
  cases node with
  | validateTrigger =>
    obtain rfl := Except.ok.inj h
    unfold validateTrigger
    split
    · exact errs_harmless _ _ _ _ (by decide) rfl
    · exact .kept rfl rfl
  | hydrateContext =>
    simp only [execute, hydrateContext] at h
    split at h
    · obtain rfl := Except.ok.inj h
      exact errs_harmless _ _ _ _ (by decide) rfl
    · split at h
      · obtain rfl := Except.ok.inj h
        exact errs_harmless _ _ _ _ (by decide) rfl
      · exact errs_of_unlessFault h (.kept rfl rfl)
  | perception =>
    simp only [execute, runPerception] at h
    split at h
    · obtain rfl := Except.ok.inj h
      exact .kept rfl rfl
    · split at h
      · cases h
      · exact errs_of_unlessFault h (.kept rfl rfl)
  | synthesiseWorldModel =>
    simp only [execute, synthesiseWorldModel] at h
    split at h
    · obtain rfl := Except.ok.inj h
      exact errs_harmless _ _ _ _ (by decide) rfl
    · split at h
      · obtain rfl := Except.ok.inj h
        exact .kept rfl rfl
      · split at h
        · cases h
        · exact errs_of_unlessFault h (.kept rfl rfl)
  | discovery =>
    simp only [execute, runDiscovery] at h
    split at h
    · obtain rfl := Except.ok.inj h
      exact .kept rfl rfl
    · exact errs_of_unlessFault h (.kept rfl rfl)
  | strategy =>
    simp only [execute, runStrategy] at h
    split at h
    · obtain rfl := Except.ok.inj h
      exact .kept rfl rfl
    · exact errs_of_unlessFault h (.kept rfl rfl)
  | selectDebateCandidates =>
    obtain rfl := Except.ok.inj h
    exact .kept rfl rfl
  | debate =>
    simp only [execute, runDebate] at h
    split at h
    · obtain rfl := Except.ok.inj h
      exact .kept rfl rfl
    · exact errs_of_unlessFault h (.kept rfl rfl)
  | metaDecision =>
    simp only [execute, metaDecisionNode] at h
    split at h
    · obtain rfl := Except.ok.inj h
      exact .kept rfl rfl
    · split at h
      · cases h
      · exact errs_of_unlessFault h (.kept rfl rfl)
  | strategySwitchRevision =>
    obtain rfl := Except.ok.inj h
    exact .kept rfl rfl
  | entryTactician =>
    simp only [execute, entryTacticianNode] at h
    split at h
    · exact errs_of_unlessFault h (.kept rfl rfl)
    · obtain rfl := Except.ok.inj h
      exact errs_harmless _ _ _ _ (by decide) rfl
  | validateExecutionProposal =>
    obtain rfl := Except.ok.inj h
    exact errs_validateExecutionProposal
  | submitExecutionCommand => exact errs_submitExecutionCommand h
  | persistEvidenceRequest =>
    have hkept : unlessFault answer _ = .ok state' := h
    exact errs_of_unlessFault hkept (.kept rfl rfl)
  | persistCycle | persistPendingCycle | persistStale => exact errs_of_unlessFault h (.kept rfl rfl)

/-- A node that has not raised is followed by another one, or by the end. -/
theorem follow_cases (deps : CognitiveGraphDeps) (node : Node) (after : CognitiveGraphState) :
    (∃ successor, follow deps node (.ok after) = .at successor after) ∨
      next deps after node = none ∧ follow deps node (.ok after) = .ended after := by
  cases hnext : next deps after node with
  | some successor =>
    left
    refine ⟨successor, ?_⟩
    simp only [follow, hnext]
  | none =>
    right
    refine ⟨rfl, ?_⟩
    simp only [follow, hnext]

/-- The graph ends behind the nodes that persist the cycle. -/
theorem nodeTrace_of_next_eq_none {node : Node} (h : next deps state node = none) :
    (Executed.nodeTrace ⟨node, state', answer⟩).isSome = true := by
  cases node <;> first | rfl | cases h

end CognitiveGraph

/-! ### Runs -/

/-- The state of a run that no exception has ended. -/
def Position.state? : Position → Option CognitiveGraphState
  | .at _ state | .ended state => some state
  | .raised _ => none

namespace GraphRun

variable {deps : CognitiveGraphDeps}

/-- What the errors tell of a run: each has the id of a superstep, no id is used twice, and one of
them is blocking exactly when a node has failed a proposal; at its end a persisting node has run. -/
structure Told (deps : CognitiveGraphDeps) (cycle : GraphRun) : Prop where
  free : ∀ state ∈ cycle.position.state?, ConflictFree CognitiveError.errorId state.errors
  ids : ∀ state ∈ cycle.position.state?, ∀ e ∈ state.errors,
    ∃ x ∈ cycle.trace, x.answer.errorId = e.errorId
  blocking : ∀ state ∈ cycle.position.state?,
    (∃ e ∈ state.errors, e.Blocking) ↔ ∃ x ∈ cycle.trace, x.fails deps = true
  closed : ∀ state, cycle.position = .ended state → ∃ x ∈ cycle.trace, x.nodeTrace.isSome

private theorem told_start (sessionId cycleId triggerEventId snapshotId : String) :
    Told deps (start (initialCycleState sessionId cycleId triggerEventId snapshotId)) where
  free := by
    rintro state hstate x hx
    obtain rfl := Option.some.inj hstate
    cases hx
  ids := by
    rintro state hstate e he
    obtain rfl := Option.some.inj hstate
    cases he
  blocking := by
    rintro state hstate
    obtain rfl := Option.some.inj hstate
    exact iff_of_false (fun ⟨e, he, _⟩ ↦ nomatch he) (fun ⟨x, hx, _⟩ ↦ nomatch hx)
  closed := fun state hended ↦ nomatch hended

private theorem told_errors {trace : List Executed} {node : Node}
    {state state' : CognitiveGraphState} {answer : Answer}
    (herrs : CognitiveGraph.Errs deps answer node state state')
    (hfree : ConflictFree CognitiveError.errorId state.errors)
    (hids : ∀ e ∈ state.errors, ∃ x ∈ trace, x.answer.errorId = e.errorId)
    (hblocking : (∃ e ∈ state.errors, e.Blocking) ↔ ∃ x ∈ trace, x.fails deps = true)
    (hfresh : ∀ x ∈ trace, x.answer.errorId ≠ answer.errorId) :
    ConflictFree CognitiveError.errorId state'.errors ∧
      (∀ e ∈ state'.errors, ∃ x ∈ trace ++ [⟨node, state, answer⟩],
        x.answer.errorId = e.errorId) ∧
      ((∃ e ∈ state'.errors, e.Blocking) ↔
        ∃ x ∈ trace ++ [⟨node, state, answer⟩], x.fails deps = true) := by
  have hsnoc : (∃ x ∈ trace ++ [⟨node, state, answer⟩], Executed.fails deps x = true) ↔
      (∃ x ∈ trace, x.fails deps = true) ∨ Executed.fails deps ⟨node, state, answer⟩ = true := by
    simp only [List.mem_append, List.mem_singleton, or_and_right, exists_or, exists_eq_left]
  have hold {e : CognitiveError} (he : e ∈ state.errors) :
      ∃ x ∈ trace ++ [⟨node, state, answer⟩], x.answer.errorId = e.errorId := by
    obtain ⟨x, hx, hid⟩ := hids e he
    exact ⟨x, List.mem_append_left _ hx, hid⟩
  cases herrs with
  | kept herrors hfine =>
    rw [herrors, hsnoc, hfine]
    exact ⟨hfree, fun e he ↦ hold he, by simpa using hblocking⟩
  | added new hid herrors hfails =>
    have hnew : ∀ seen ∈ state.errors, seen.errorId ≠ new.errorId := by
      intro seen hseen heq
      obtain ⟨x, hx, hxid⟩ := hids seen hseen
      exact hfresh x hx (hxid.trans (heq.trans hid))
    have hmem (x : CognitiveError) : x ∈ state'.errors ↔ x ∈ state.errors ∨ x = new := by
      rw [herrors]
      exact mem_mergeErrors_iff hfree hnew
    refine ⟨?_, ?_, ?_⟩
    · intro x hx y hy hxy
      rcases (hmem x).mp hx with hx | rfl <;> rcases (hmem y).mp hy with hy | rfl
      · exact hfree x hx y hy hxy
      · exact absurd hxy (hnew x hx)
      · exact absurd hxy.symm (hnew y hy)
      · rfl
    · intro e he
      rcases (hmem e).mp he with he | rfl
      · exact hold he
      · exact ⟨_, List.mem_append_right _ (List.mem_singleton_self _), hid.symm⟩
    · rw [hsnoc, ← hblocking, ← hfails]
      simp only [hmem, or_and_right, exists_or, exists_eq_left]

/-- A superstep under a fresh id keeps what the errors tell. -/
theorem told_superstep {cycle : GraphRun} {answer : Answer} (h : Told deps cycle)
    (hfresh : ∀ x ∈ cycle.trace, x.answer.errorId ≠ answer.errorId) :
    Told deps (cycle.superstep deps answer) := by
  cases hpos : cycle.position with
  | ended state => simpa only [superstep, hpos] using h
  | raised text => simpa only [superstep, hpos] using h
  | «at» node state =>
    have hstate : state ∈ cycle.position.state? := by
      rw [hpos]
      rfl
    simp only [superstep, hpos]
    cases hexec : CognitiveGraph.execute deps state answer node with
    | error text =>
      refine ⟨?_, ?_, ?_, ?_⟩ <;> intro _ hnone <;> cases hnone
    | ok after =>
      obtain ⟨hfree, hids, hblocking⟩ := told_errors (CognitiveGraph.errs_execute node hexec)
        (h.free state hstate) (h.ids state hstate) (h.blocking state hstate) hfresh
      have hreached : ∀ reached ∈ (CognitiveGraph.follow deps node (.ok after)).state?,
          reached = after := by
        intro reached hmem
        rcases CognitiveGraph.follow_cases deps node after with ⟨successor, he⟩ | ⟨-, he⟩ <;>
        · rw [he] at hmem
          exact (Option.some.inj hmem).symm
      refine ⟨?_, ?_, ?_, ?_⟩
      · intro reached hmem
        rw [hreached reached hmem]
        exact hfree
      · intro reached hmem
        rw [hreached reached hmem]
        exact hids
      · intro reached hmem
        rw [hreached reached hmem]
        exact hblocking
      · intro reached hended
        refine ⟨⟨node, state, answer⟩, List.mem_append_right _ (List.mem_singleton_self _), ?_⟩
        rcases CognitiveGraph.follow_cases deps node after with ⟨successor, he⟩ | ⟨hnext, he⟩
        · rw [he] at hended
          cases hended
        · exact CognitiveGraph.nodeTrace_of_next_eq_none hnext

/-- A decision cycle that has run to `END` counts as completed exactly when no node has failed a
proposal: neither has a validation failed for another reason than the proposal's age, nor a
submission left a proposal without an order. A cycle in which one has is never completed, however
it went on. -/
theorem completed_iff (deps : CognitiveGraphDeps)
    (sessionId cycleId triggerEventId snapshotId : String) (answers : List Answer)
    (hids : (answers.map Answer.errorId).Nodup) :
    let cycle := run (superstep deps)
      (start (initialCycleState sessionId cycleId triggerEventId snapshotId)) answers
    ∀ state, cycle.position = .ended state →
      (cycleReachedTerminalOutcome (some (cycle.result state)) .decision = true ↔
        ∀ e ∈ cycle.trace, e.fails deps = false) := by
  intro cycle state hended
  have htold : Told deps cycle := by
    refine run_invariant_of_steps (I := Told deps)
      (fun _ _ h hfresh ↦ told_superstep h hfresh)
      (told_start sessionId cycleId triggerEventId snapshotId) ?_ answers List.prefix_rfl
    intro pre answer hp x hx
    have hpre := hids.sublist (hp.sublist.map Answer.errorId)
    rw [List.map_append, List.nodup_append] at hpre
    exact hpre.2.2 _ (List.mem_map_of_mem (answer_mem_of_mem_trace pre x hx)) _ (by simp)
  have hstate : state ∈ cycle.position.state? := by
    rw [hended]
    rfl
  have hblocked : (cycle.result state).blocked = true ↔ ∃ x ∈ cycle.trace, x.fails deps = true := by
    rw [← htold.blocking state hstate]
    unfold CycleResult.blocked result CognitiveError.Blocking
    simp
  have hclosed : (cycle.result state).closed = true := by
    obtain ⟨x, hx, hsome⟩ := htold.closed state hended
    obtain ⟨trace, htrace⟩ := Option.isSome_iff_exists.mp hsome
    unfold CycleResult.closed
    refine List.any_eq_true.mpr ⟨trace, List.mem_filterMap.mpr ⟨x, hx, htrace⟩, ?_⟩
    unfold Executed.nodeTrace at htrace
    split at htrace <;> first | cases htrace; decide | cases htrace
  unfold cycleReachedTerminalOutcome
  simp only
  cases hcase : (cycle.result state).blocked with
  | true =>
    obtain ⟨x, hx, hfails⟩ := hblocked.mp hcase
    rw [if_pos rfl]
    refine iff_of_false (fun h ↦ nomatch h) (fun hall ↦ ?_)
    rw [hall x hx] at hfails
    cases hfails
  | false =>
    rw [if_neg (fun h ↦ nomatch h), hclosed, if_pos rfl]
    refine iff_of_true rfl (fun x hx ↦ Bool.eq_false_iff.mpr (fun hfails ↦ ?_))
    rw [hblocked.mpr ⟨x, hx, hfails⟩] at hcase
    cases hcase

/-- A run is at its end. -/
def hasEnded (cycle : GraphRun) : Bool :=
  match cycle.position with
  | .ended _ => true
  | _ => false

private theorem hasEnded_iff {cycle : GraphRun} :
    cycle.hasEnded = true ↔ ∃ state, cycle.position = .ended state := by
  unfold hasEnded
  cases cycle.position <;> simp

/-- A cycle that switches once and submits is completed. -/
theorem completed_iff_switched :
    (Sample.cycle 1 Sample.switched).submissions = 1 ∧ ∃ state,
      (Sample.cycle 1 Sample.switched).position = .ended state ∧
        cycleReachedTerminalOutcome (some ((Sample.cycle 1 Sample.switched).result state))
          .decision = true := by
  obtain ⟨state, hended⟩ := hasEnded_iff.mp
    (by decide +kernel : (Sample.cycle 1 Sample.switched).hasEnded = true)
  have hids : (Sample.switched.map Answer.errorId).Nodup := by decide +kernel
  have hfine : ∀ e ∈ (Sample.cycle 1 Sample.switched).trace,
      e.fails (Sample.settings 1) = false := by decide +kernel
  exact ⟨by decide +kernel, state, hended, (completed_iff (Sample.settings 1) "s" "c" "t" "n"
    Sample.switched hids state hended).mpr hfine⟩

end GraphRun
end Joker.Graph
