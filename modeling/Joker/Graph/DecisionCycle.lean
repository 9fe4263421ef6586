import Joker.Graph.CognitiveGraph

/-!
# Decision cycles are bounded

Library `Graph`. In a run of the parent cognitive graph the switch counter pays for every
meta-decision but the first, the part behind the meta-decision has no cycle of its own, and a
failed validation leaves a mark that the route behind it reads. A rank of node and counter bounds
the supersteps.
-/

namespace Joker.Graph

open Joker.Base
open Joker.Cognition (ContextPackage StrategyHypothesis)

/-! ### Reducers -/

section Reducers

variable {T : Type} (idOf : T → String)

private theorem get?_mergeFirst_fold (items : List T) (d : Dict String T) (k : String) :
    (items.foldl (fun merged item ↦
      match merged.get? (idOf item) with
      | none => merged.set (idOf item) item
      | some _ => merged) d).get? k =
      (d.get? k).or (items.find? (fun item ↦ idOf item = k)) := by
  induction items generalizing d with
  | nil => simp
  | cons item rest ih =>
    rw [List.foldl_cons, ih, List.find?_cons]
    by_cases hk : idOf item = k
    · subst hk
      cases hd : d.get? (idOf item) with
      | none => simp
      | some seen => simp [hd]
    · cases hd : d.get? (idOf item) with
      | none => simp [hk, Dict.get?_set]
      | some seen => simp [hk]

/-- Of each id the first item is merged. -/
theorem get?_mergeFirst (items : List T) (k : String) :
    (mergeFirst idOf items).get? k = items.find? (fun item ↦ idOf item = k) :=
  (get?_mergeFirst_fold idOf items Dict.empty k).trans (by simp)

/-- The items of a merge are the first ones of their ids. -/
theorem mem_mergeModels_iff (existing incoming : List T) (item : T) :
    item ∈ mergeModels idOf existing incoming ↔
      ∃ k, (existing ++ incoming).find? (fun item ↦ idOf item = k) = some item := by
  simp only [mergeModels, List.mem_insertionSort, Dict.mem_values_iff, get?_mergeFirst]

/-- A merge makes up no item. -/
theorem mem_of_mem_mergeModels {existing incoming : List T} {item : T}
    (h : item ∈ mergeModels idOf existing incoming) : item ∈ existing ∨ item ∈ incoming := by
  obtain ⟨k, hfind⟩ := (mem_mergeModels_iff idOf existing incoming item).mp h
  exact List.mem_append.mp (List.mem_of_find?_eq_some hfind)

/-- An item of a new id is merged. -/
theorem mem_mergeModels_of_fresh {existing : List T} {item : T}
    (h : ∀ seen ∈ existing, idOf seen ≠ idOf item) : item ∈ mergeModels idOf existing [item] := by
  rw [mem_mergeModels_iff]
  refine ⟨idOf item, ?_⟩
  have hnone : existing.find? (fun seen ↦ idOf seen = idOf item) = none := by
    simpa using h
  simp [List.find?_append, hnone]

end Reducers

/-! ### What a node may change -/

namespace CognitiveGraph

variable {deps : CognitiveGraphDeps} {state state' : CognitiveGraphState} {answer : Answer}

/-- What a node leaves as it was: the switch counter but for the revision, the meta-decision but
for its node, the mark of a stale decision but for the validation; and its errors are the earlier
ones and at most one under the answer's id. -/
structure Frame (answer : Answer) (node : Node) (state state' : CognitiveGraphState) : Prop where
  switches : node ≠ .strategySwitchRevision → state'.strategySwitchCount = state.strategySwitchCount
  decision : node ≠ .metaDecision → state'.metaDecision = state.metaDecision
  errors : ∀ e ∈ state'.errors, e ∈ state.errors ∨ e.errorId = answer.errorId

private theorem eq_of_unlessFault {updated : CognitiveGraphState}
    (h : unlessFault answer updated = .ok state') : state' = updated := by
  unfold unlessFault at h
  cases hf : answer.fault with
  | some text => simp [hf] at h
  | none => simpa [hf] using h.symm

/-- The errors after `append_error`. -/
theorem mem_errors_appendError {errorId nodeName errorCode message : String} {recoverable : Bool}
    {e : CognitiveError}
    (h : e ∈ (state.appendError errorId nodeName errorCode message recoverable).errors) :
    e ∈ state.errors ∨ e.errorId = errorId := by
  apply (mem_of_mem_mergeModels CognitiveError.errorId h).imp_right
  intro hnew
  rw [List.mem_singleton.mp hnew]

private theorem frame_appendError {node : Node} {nodeName errorCode message : String}
    {recoverable : Bool} : Frame answer node state
      (state.appendError answer.errorId nodeName errorCode message recoverable) :=
  ⟨fun _ ↦ rfl, fun _ ↦ rfl, fun _ he ↦ mem_errors_appendError he⟩

private theorem frame_refl {node : Node} : Frame answer node state state :=
  ⟨fun _ ↦ rfl, fun _ ↦ rfl, fun _ he ↦ .inl he⟩

private theorem frame_of_unlessFault {node : Node} {updated : CognitiveGraphState}
    (h : unlessFault answer updated = .ok state')
    (hswitches : updated.strategySwitchCount = state.strategySwitchCount)
    (hdecision : updated.metaDecision = state.metaDecision)
    (herrors : updated.errors = state.errors) : Frame answer node state state' := by
  rw [eq_of_unlessFault h]
  exact ⟨fun _ ↦ hswitches, fun _ ↦ hdecision, fun _ he ↦ .inl (herrors ▸ he)⟩

private theorem frame_submitProvenanced {proposal : ExecutionProposal}
    {provenanced : ProvenancedExecutionCommand} {node : Node}
    (h : submitProvenanced deps state answer proposal provenanced = .ok state') :
    Frame answer node state state' := by
  unfold submitProvenanced at h
  split at h
  · dsimp only at h
    generalize answer.gateway _ = result at h
    split at h
    · exact frame_of_unlessFault h rfl rfl rfl
    · rw [eq_of_unlessFault h]
      exact frame_appendError
  · split at h
    · exact frame_of_unlessFault h rfl rfl rfl
    · obtain rfl := Except.ok.inj h
      exact frame_appendError

/-- Every node keeps to its frame. -/
theorem frame_execute (node : Node) (h : execute deps state answer node = .ok state') :
    Frame answer node state state' := by
  cases node with
  | validateTrigger =>
    obtain rfl := Except.ok.inj h
    unfold validateTrigger
    split
    · exact frame_appendError
    · exact frame_refl
  | hydrateContext =>
    simp only [execute, hydrateContext] at h
    split at h
    · obtain rfl := Except.ok.inj h
      exact frame_appendError
    · split at h
      · obtain rfl := Except.ok.inj h
        exact frame_appendError
      · exact frame_of_unlessFault h rfl rfl rfl
  | perception =>
    simp only [execute, runPerception] at h
    split at h
    · obtain rfl := Except.ok.inj h
      exact frame_refl
    · split at h
      · exact absurd h (by simp)
      · exact frame_of_unlessFault h rfl rfl rfl
  | synthesiseWorldModel =>
    simp only [execute, synthesiseWorldModel] at h
    split at h
    · obtain rfl := Except.ok.inj h
      exact frame_appendError
    · split at h
      · obtain rfl := Except.ok.inj h
        exact frame_refl
      · split at h
        · exact absurd h (by simp)
        · exact frame_of_unlessFault h rfl rfl rfl
  | discovery =>
    simp only [execute, runDiscovery] at h
    split at h
    · obtain rfl := Except.ok.inj h
      exact frame_refl
    · exact frame_of_unlessFault h rfl rfl rfl
  | strategy =>
    simp only [execute, runStrategy] at h
    split at h
    · obtain rfl := Except.ok.inj h
      exact frame_refl
    · exact frame_of_unlessFault h rfl rfl rfl
  | selectDebateCandidates =>
    obtain rfl := Except.ok.inj h
    exact ⟨fun _ ↦ rfl, fun _ ↦ rfl, fun _ he ↦ .inl he⟩
  | debate =>
    simp only [execute, runDebate] at h
    split at h
    · obtain rfl := Except.ok.inj h
      exact frame_refl
    · exact frame_of_unlessFault h rfl rfl rfl
  | metaDecision =>
    simp only [execute, metaDecisionNode] at h
    split at h
    · obtain rfl := Except.ok.inj h
      exact frame_refl
    · split at h
      · exact absurd h (by simp)
      · rw [eq_of_unlessFault h]
        exact ⟨fun _ ↦ rfl, fun hne ↦ absurd rfl hne, fun _ he ↦ .inl he⟩
  | strategySwitchRevision =>
    obtain rfl := Except.ok.inj h
    exact ⟨fun hne ↦ absurd rfl hne, fun _ ↦ rfl, fun _ he ↦ .inl he⟩
  | entryTactician =>
    simp only [execute, entryTacticianNode] at h
    split at h
    · exact frame_of_unlessFault h rfl rfl rfl
    · obtain rfl := Except.ok.inj h
      exact frame_appendError
  | validateExecutionProposal =>
    obtain rfl := Except.ok.inj h
    unfold validateExecutionProposal
    split
    · exact frame_appendError
    · split
      · split
        · exact ⟨fun _ ↦ rfl, fun _ ↦ rfl, fun _ he ↦ mem_errors_appendError he⟩
        · exact frame_appendError
      · exact frame_refl
  | submitExecutionCommand =>
    simp only [execute, submitExecutionCommand] at h
    split at h
    · obtain rfl := Except.ok.inj h
      exact frame_refl
    · split at h
      · obtain rfl := Except.ok.inj h
        exact frame_refl
      · split at h
        · obtain rfl := Except.ok.inj h
          exact frame_appendError
        · exact frame_submitProvenanced h
  | persistEvidenceRequest =>
    have hkept : unlessFault answer _ = .ok state' := h
    exact frame_of_unlessFault hkept rfl rfl rfl
  | persistCycle | persistPendingCycle | persistStale => exact frame_of_unlessFault h rfl rfl rfl

/-! ### Routes -/

/-- What leads behind the meta-decision: a switch only while the counter has room, an entry only
on a decision to execute or to probe. -/
theorem routeMetaDecision_cases (deps : CognitiveGraphDeps) (state : CognitiveGraphState) :
    (routeMetaDecision deps state = .strategySwitchRevision ∧
        state.strategySwitchCount < deps.maxStrategySwitches) ∨
      (routeMetaDecision deps state = .entryTactician ∧ ∃ d, state.metaDecision = some d ∧
        (d.action = .execute ∨ d.action = .probe)) ∨
      routeMetaDecision deps state = .persistCycle ∨
      routeMetaDecision deps state = .persistPendingCycle ∨
      routeMetaDecision deps state = .persistEvidenceRequest ∨
      routeMetaDecision deps state = .persistStale := by
  unfold routeMetaDecision
  cases hmeta : state.metaDecision with
  | none => simp
  | some d =>
    by_cases hstale : state.staleDecision = true
    · simp [hstale]
    · by_cases hroom : deps.maxStrategySwitches ≤ state.strategySwitchCount
      · cases haction : d.action <;> simp [hstale, haction, hroom]
      · cases haction : d.action <;> simp [hstale, haction, hroom, not_le.mp hroom]

/-- Where a proposal fails its validation, the error record is read: the route does not lead to
the submission. -/
theorem afterValidateRoute_of_failed {proposal : ExecutionProposal} {text : String}
    (hprop : state.executionProposal = some proposal)
    (hfail : compileProposal deps answer proposal = .error text)
    (hfresh : ∀ e ∈ state.errors, e.errorId ≠ answer.errorId) :
    afterValidateRoute (validateExecutionProposal deps state answer) ≠ .submitExecutionCommand := by
  by_cases hstale : hasText "stale" (lower text) = true
  · have hmark : (validateExecutionProposal deps state answer).staleDecision = true := by
      simp [validateExecutionProposal, hprop, hfail, hstale]
    simp [afterValidateRoute, hmark]
  · let e : CognitiveError :=
      ⟨answer.errorId, "validate_execution_proposal", "validation_failed", text, true⟩
    have hmem : e ∈ (validateExecutionProposal deps state answer).errors := by
      simp only [validateExecutionProposal, hprop, hfail, hstale]
      exact mem_mergeModels_of_fresh CognitiveError.errorId hfresh
    have hany : (validateExecutionProposal deps state answer).errors.any
        (fun e ↦ e.errorCode = "validation_failed") = true :=
      List.any_eq_true.mpr ⟨e, hmem, by simp [e]⟩
    unfold afterValidateRoute
    rw [hany]
    split
    · simp
    · simp

/-- After the validation there is the submission, or the end of the cycle. -/
theorem afterValidateRoute_cases (state : CognitiveGraphState) :
    afterValidateRoute state = .submitExecutionCommand ∨
      afterValidateRoute state = .persistStale ∨ afterValidateRoute state = .persistCycle := by
  unfold afterValidateRoute
  split
  · simp
  · split
    · simp
    · simp

end CognitiveGraph

/-! ### Traces -/

/-- A meta-decision was executed. -/
def Executed.isMetaDecision (e : Executed) : Bool := decide (e.node = .metaDecision)

/-- The submission was executed. -/
def Executed.isSubmission (e : Executed) : Bool := decide (e.node = .submitExecutionCommand)

/-- The decision that an executed node wrote. -/
def Executed.decision? (e : Executed) : Option MetaDecision :=
  if e.node = .metaDecision ∧ e.state.contextPackage.isSome then some e.answer.decision else none

/-- The last meta-decision of a trace. -/
def lastDecision (trace : List Executed) : Option MetaDecision :=
  (trace.filterMap Executed.decision?).getLast?

/-- An executed validation that its proposal failed. -/
def Executed.FailedValidation (deps : CognitiveGraphDeps) (e : Executed) : Prop :=
  e.node = .validateExecutionProposal ∧ ∃ proposal text,
    e.state.executionProposal = some proposal ∧
      CognitiveGraph.compileProposal deps e.answer proposal = .error text

/-- What must have gone before a submission: the last meta-decision is to execute or to probe, and
no proposal failed its validation. -/
def MaySubmit (deps : CognitiveGraphDeps) (trace : List Executed) : Prop :=
  (∃ d, lastDecision trace = some d ∧ (d.action = .execute ∨ d.action = .probe)) ∧
    ∀ e ∈ trace, ¬ e.FailedValidation deps

/-- Every submission of a trace was allowed when it was executed. -/
def SubmitsAllowed (deps : CognitiveGraphDeps) (trace : List Executed) : Prop :=
  ∀ before e after, trace = before ++ e :: after → e.node = .submitExecutionCommand →
    MaySubmit deps before

/-- One more node, allowed where it is the submission. -/
theorem submitsAllowed_snoc {deps : CognitiveGraphDeps} {trace : List Executed} {e : Executed}
    (h : SubmitsAllowed deps trace)
    (he : e.node = .submitExecutionCommand → MaySubmit deps trace) :
    SubmitsAllowed deps (trace ++ [e]) := by
  intro before x after hsplit hx
  cases after using List.reverseRecOn with
  | nil =>
    obtain ⟨rfl, hlast⟩ := List.append_inj' hsplit rfl
    obtain rfl : e = x := by simpa using hlast
    exact he hx
  | append_singleton after y =>
    rw [← List.cons_append, ← List.append_assoc] at hsplit
    obtain ⟨hsplit, -⟩ := List.append_inj' hsplit rfl
    exact h before x after hsplit hx

/-- The last decision after one more node. -/
theorem lastDecision_snoc (trace : List Executed) (e : Executed) :
    lastDecision (trace ++ [e]) = e.decision?.or (lastDecision trace) := by
  cases hd : e.decision? with
  | none => simp [lastDecision, List.filterMap_append, hd]
  | some d => simp [lastDecision, List.filterMap_append, hd]

/-! ### Edges -/

/-- A node behind the meta-decision. -/
def Node.decided : Node → Bool
  | .strategySwitchRevision | .entryTactician | .validateExecutionProposal
  | .submitExecutionCommand | .persistCycle | .persistPendingCycle | .persistEvidenceRequest
  | .persistStale => true
  | _ => false

/-- A node on the way to the submission. -/
def Node.enters : Node → Bool
  | .entryTactician | .validateExecutionProposal | .submitExecutionCommand => true
  | _ => false

/-- A node before the end. -/
def Node.closes : Node → Bool
  | .persistCycle | .persistPendingCycle | .persistEvidenceRequest | .persistStale => true
  | _ => false

namespace CognitiveGraph

variable {deps : CognitiveGraphDeps} {state state' : CognitiveGraphState} {answer : Answer}

/-- What an edge says of the nodes at its ends. -/
structure Edge (deps : CognitiveGraphDeps) (state : CognitiveGraphState) (node successor : Node) :
    Prop where
  opens : node.closes = false
  decided : successor.decided =
    (decide (node = .metaDecision) || node.decided && decide (node ≠ .strategySwitchRevision))
  room : successor = .strategySwitchRevision →
    state.strategySwitchCount < deps.maxStrategySwitches
  enters : successor.enters = true → node.enters = true ∨
    ∃ d, state.metaDecision = some d ∧ (d.action = .execute ∨ d.action = .probe)
  last : node = .submitExecutionCommand → successor.closes = true
  validated : node = .validateExecutionProposal → successor.closes = false →
    afterValidateRoute state = .submitExecutionCommand

/-- The edges of the graph. -/
theorem edge_of_next {node successor : Node} (h : next deps state node = some successor) :
    Edge deps state node successor := by
  cases node with
  | metaDecision =>
    obtain rfl := Option.some.inj h
    obtain ⟨hroute, hroom⟩ | ⟨hroute, hgo⟩ | hroute | hroute | hroute | hroute :=
      routeMetaDecision_cases deps state
    · rw [hroute]
      exact ⟨rfl, rfl, fun _ ↦ hroom, fun he ↦ absurd he (by decide), nofun, nofun⟩
    · rw [hroute]
      exact ⟨rfl, rfl, nofun, fun _ ↦ .inr hgo, nofun, nofun⟩
    -- the other routes lead to the end of the cycle
    all_goals
      rw [hroute]
      exact ⟨rfl, rfl, nofun, fun he ↦ absurd he (by decide), nofun, nofun⟩
  | strategySwitchRevision =>
    obtain rfl := Option.some.inj h
    unfold afterSwitchRoute
    split
    · exact ⟨rfl, rfl, nofun, fun he ↦ absurd he (by decide), nofun, nofun⟩
    · exact ⟨rfl, rfl, nofun, fun he ↦ absurd he (by decide), nofun, nofun⟩
  | validateExecutionProposal =>
    obtain rfl := Option.some.inj h
    obtain hroute | hroute | hroute := afterValidateRoute_cases state
    · rw [hroute]
      exact ⟨rfl, rfl, nofun, fun _ ↦ .inl rfl, nofun, fun _ _ ↦ hroute⟩
    · rw [hroute]
      exact ⟨rfl, rfl, nofun, fun _ ↦ .inl rfl, nofun, fun _ he ↦ absurd he (by decide)⟩
    · rw [hroute]
      exact ⟨rfl, rfl, nofun, fun _ ↦ .inl rfl, nofun, fun _ he ↦ absurd he (by decide)⟩
  | entryTactician =>
    obtain rfl := Option.some.inj h
    exact ⟨rfl, rfl, nofun, fun _ ↦ .inl rfl, nofun, nofun⟩
  | submitExecutionCommand =>
    obtain rfl := Option.some.inj h
    exact ⟨rfl, rfl, nofun, fun _ ↦ .inl rfl, fun _ ↦ rfl, nofun⟩
  | validateTrigger | hydrateContext | perception | synthesiseWorldModel | discovery | strategy
  | selectDebateCandidates | debate =>
    obtain rfl := Option.some.inj h
    exact ⟨rfl, rfl, nofun, fun he ↦ absurd he (by decide), nofun, nofun⟩
  | persistCycle | persistPendingCycle | persistEvidenceRequest | persistStale =>
    exact absurd h (by simp [next])

/-- The meta-decision of the state is the one its node has written last. -/
theorem metaDecision_execute {node : Node} (h : execute deps state answer node = .ok state') :
    state'.metaDecision = (Executed.decision? ⟨node, state, answer⟩).or state.metaDecision := by
  by_cases hnode : node = .metaDecision
  · subst hnode
    simp only [execute, metaDecisionNode] at h
    cases hcontext : state.contextPackage with
    | none =>
      simp only [hcontext, Option.isNone_none, if_true] at h
      obtain rfl := Except.ok.inj h
      simp [Executed.decision?, hcontext]
    | some context =>
      simp only [hcontext, Option.isNone_some, Bool.false_eq_true, if_false] at h
      split at h
      · exact absurd h (by simp)
      · rw [eq_of_unlessFault h]
        simp [Executed.decision?, hcontext]
  · rw [(frame_execute node h).decision hnode]
    simp [Executed.decision?, hnode]

/-! ### What a run keeps -/

/-- What holds before a node: the counter and the meta-decisions executed keep step, a switch has
room, the state has the last decision, and on the way to the submission nothing has failed. -/
structure Standing (deps : CognitiveGraphDeps) (node : Node) (state : CognitiveGraphState)
    (trace : List Executed) : Prop where
  nonneg : 0 ≤ state.strategySwitchCount
  counter : state.strategySwitchCount ≤ max deps.maxStrategySwitches 0
  metas : (trace.countP Executed.isMetaDecision : ℤ) =
    state.strategySwitchCount + if node.decided then 1 else 0
  room : node = .strategySwitchRevision → state.strategySwitchCount < deps.maxStrategySwitches
  last : lastDecision trace = state.metaDecision
  goes : node.enters = true → ∃ d, state.metaDecision = some d ∧
    (d.action = .execute ∨ d.action = .probe)
  valid : node.closes = false → ∀ e ∈ trace, ¬ e.FailedValidation deps
  submits : trace.countP Executed.isSubmission ≤ if node.closes then 1 else 0
  ids : ∀ e ∈ state.errors, ∃ x ∈ trace, x.answer.errorId = e.errorId

/-- The standing before the first node. -/
theorem standing_initial (deps : CognitiveGraphDeps)
    (sessionId cycleId triggerEventId snapshotId : String) :
    Standing deps .validateTrigger (initialCycleState sessionId cycleId triggerEventId snapshotId)
      [] where
  nonneg := le_refl _
  counter := le_max_right _ _
  metas := rfl
  room := nofun
  last := rfl
  goes := fun h ↦ absurd h (by decide)
  valid := fun _ _ h ↦ absurd h (by simp)
  submits := Nat.zero_le _
  ids := fun _ h ↦ absurd h (by simp [initialCycleState])

/-- A step from a node that stands, under a fresh id, stands at the node it leads to. -/
theorem standing_step {node successor : Node} {trace : List Executed}
    (hs : Standing deps node state trace) (h : execute deps state answer node = .ok state')
    (hnext : next deps state' node = some successor)
    (hfresh : ∀ x ∈ trace, x.answer.errorId ≠ answer.errorId) :
    Standing deps successor state' (trace ++ [⟨node, state, answer⟩]) := by
  have hframe := frame_execute node h
  have hedge := edge_of_next hnext
  have hcount : state'.strategySwitchCount =
      state.strategySwitchCount + if node = .strategySwitchRevision then 1 else 0 := by
    by_cases hnode : node = .strategySwitchRevision
    · subst hnode
      obtain rfl := Except.ok.inj h
      rfl
    · rw [hframe.switches hnode, if_neg hnode, add_zero]
  have hmetas : node.decided = false ∨ node ≠ .metaDecision := by
    by_cases hnode : node = .metaDecision
    · subst hnode
      exact .inl rfl
    · exact .inr hnode
  refine ⟨?_, ?_, ?_, hedge.room, ?_, ?_, ?_, ?_, ?_⟩
  · have := hs.nonneg
    rw [hcount]
    split <;> omega
  · rw [hcount]
    split
    · next hnode =>
      have := hs.room hnode
      have := le_max_left deps.maxStrategySwitches 0
      omega
    · rw [add_zero]
      exact hs.counter
  · have hbefore := hs.metas
    have hdecided := hedge.decided
    rw [List.countP_append, List.countP_singleton, Nat.cast_add, hbefore, hcount, hdecided]
    by_cases hmeta : node = .metaDecision
    · subst hmeta
      simp [Executed.isMetaDecision, Node.decided]
    · by_cases hswitch : node = .strategySwitchRevision
      · subst hswitch
        simp [Executed.isMetaDecision, Node.decided]
      · simp [Executed.isMetaDecision, hmeta, hswitch]
  · rw [lastDecision_snoc, metaDecision_execute h, hs.last]
  · intro he
    obtain henters | hgo := hedge.enters he
    · rw [hframe.decision (by rintro rfl; exact absurd henters (by decide))]
      exact hs.goes henters
    · exact hgo
  · intro hopen e he hfail
    obtain hmem | hmem := List.mem_append.mp he
    · exact hs.valid hedge.opens e hmem hfail
    · obtain rfl := List.mem_singleton.mp hmem
      obtain ⟨rfl, proposal, text, hprop, hcompile⟩ := hfail
      obtain rfl := Except.ok.inj h
      apply afterValidateRoute_of_failed hprop hcompile
      · intro e he heq
        obtain ⟨x, hx, hid⟩ := hs.ids e he
        exact hfresh x hx (hid.trans heq)
      · exact hedge.validated rfl hopen
  · have hbefore := hs.submits
    rw [hedge.opens] at hbefore
    rw [List.countP_append, List.countP_singleton]
    by_cases hsub : node = .submitExecutionCommand
    · rw [hedge.last hsub]
      simpa [Executed.isSubmission, hsub] using hbefore
    · have hnone : Executed.isSubmission ⟨node, state, answer⟩ = false := by
        simp [Executed.isSubmission, hsub]
      rw [hnone]
      simp only [Bool.false_eq_true, if_false] at hbefore ⊢
      omega
  · intro e he
    obtain hold | hnew := hframe.errors e he
    · obtain ⟨x, hx, hid⟩ := hs.ids e hold
      exact ⟨x, List.mem_append_left _ hx, hid⟩
    · exact ⟨_, List.mem_append_right _ (List.mem_singleton_self _), hnew.symm⟩

/-! ### Rank -/

/-- The supersteps left from a node with room for so many switches. -/
def nodeRank (switchesLeft : ℕ) : Node → ℕ
  | .validateTrigger => 3 * switchesLeft + 13
  | .hydrateContext => 3 * switchesLeft + 12
  | .perception => 3 * switchesLeft + 11
  | .synthesiseWorldModel => 3 * switchesLeft + 10
  | .discovery => 3 * switchesLeft + 9
  | .strategy => 3 * switchesLeft + 8
  | .selectDebateCandidates => 3 * switchesLeft + 7
  | .debate => 3 * switchesLeft + 6
  | .metaDecision => 3 * switchesLeft + 5
  | .strategySwitchRevision => 3 * switchesLeft + 4
  | .entryTactician => 4
  | .validateExecutionProposal => 3
  | .submitExecutionCommand => 2
  | .persistCycle | .persistPendingCycle | .persistEvidenceRequest | .persistStale => 1

/-- The switches that the counter leaves. -/
def switchesLeft (deps : CognitiveGraphDeps) (state : CognitiveGraphState) : ℕ :=
  (deps.maxStrategySwitches - state.strategySwitchCount).toNat

/-- No node is behind the last superstep. -/
theorem nodeRank_pos (k : ℕ) (node : Node) : 0 < nodeRank k node := by
  cases node <;> simp [nodeRank]

/-- Every edge lowers the rank; around the cycle of the switch it is the counter that pays. -/
theorem nodeRank_lt {node successor : Node} {trace : List Executed}
    (hs : Standing deps node state trace) (h : execute deps state answer node = .ok state')
    (hnext : next deps state' node = some successor) :
    nodeRank (switchesLeft deps state') successor < nodeRank (switchesLeft deps state) node := by
  have hsame : node ≠ .strategySwitchRevision →
      switchesLeft deps state' = switchesLeft deps state := by
    intro hnode
    rw [switchesLeft, switchesLeft, (frame_execute node h).switches hnode]
  cases node with
  | metaDecision =>
    obtain rfl := Option.some.inj hnext
    rw [hsame (by decide)]
    obtain ⟨hroute, -⟩ | ⟨hroute, -⟩ | hroute | hroute | hroute | hroute :=
      routeMetaDecision_cases deps state'
    all_goals
      rw [hroute]
      simp only [nodeRank]
      omega
  | strategySwitchRevision =>
    have hroom := hs.room rfl
    have hless : switchesLeft deps state' + 1 = switchesLeft deps state := by
      obtain rfl := Except.ok.inj h
      simp only [switchesLeft, strategySwitchRevision]
      omega
    obtain rfl := Option.some.inj hnext
    unfold afterSwitchRoute
    split
    · simp only [nodeRank]
      omega
    · simp only [nodeRank]
      omega
  | validateExecutionProposal =>
    obtain rfl := Option.some.inj hnext
    obtain hroute | hroute | hroute := afterValidateRoute_cases state'
    all_goals
      rw [hroute]
      simp [nodeRank]
  | entryTactician | submitExecutionCommand =>
    obtain rfl := Option.some.inj hnext
    simp [nodeRank]
  | validateTrigger | hydrateContext | perception | synthesiseWorldModel | discovery | strategy
  | selectDebateCandidates | debate =>
    obtain rfl := Option.some.inj hnext
    rw [hsame (by decide)]
    simp [nodeRank]
  | persistCycle | persistPendingCycle | persistEvidenceRequest | persistStale =>
    exact absurd hnext (by simp [next])

end CognitiveGraph

/-! ### Runs -/

namespace GraphRun

variable {deps : CognitiveGraphDeps}

/-- The meta-decision nodes executed. -/
def metaDecisions (cycle : GraphRun) : ℕ := cycle.trace.countP Executed.isMetaDecision

/-- The submissions executed. -/
def submissions (cycle : GraphRun) : ℕ := cycle.trace.countP Executed.isSubmission

/-- What holds of a run in every position. -/
structure Bounded (deps : CognitiveGraphDeps) (cycle : GraphRun) : Prop where
  metas : (cycle.metaDecisions : ℤ) ≤ max deps.maxStrategySwitches 0 + 1
  submits : cycle.submissions ≤ 1
  allowed : SubmitsAllowed deps cycle.trace
  standing : ∀ node state, cycle.position = .at node state →
    CognitiveGraph.Standing deps node state cycle.trace

/-- A run before its first superstep. -/
theorem bounded_start (sessionId cycleId triggerEventId snapshotId : String) :
    Bounded deps (start (initialCycleState sessionId cycleId triggerEventId snapshotId)) where
  metas := by
    have := le_max_right deps.maxStrategySwitches 0
    simp only [metaDecisions, start, List.countP_nil]
    omega
  submits := Nat.zero_le _
  allowed := fun before e after h ↦ absurd h (by simp [start])
  standing := fun node state h ↦ by
    obtain ⟨rfl, rfl⟩ := Position.at.inj h
    exact CognitiveGraph.standing_initial deps sessionId cycleId triggerEventId snapshotId

/-- A superstep under a fresh id keeps a run bounded. -/
theorem bounded_superstep {cycle : GraphRun} {answer : Answer} (hb : Bounded deps cycle)
    (hfresh : ∀ x ∈ cycle.trace, x.answer.errorId ≠ answer.errorId) :
    Bounded deps (cycle.superstep deps answer) := by
  cases hpos : cycle.position with
  | ended state => simpa only [superstep, hpos] using hb
  | raised text => simpa only [superstep, hpos] using hb
  | «at» node state =>
    have hs := hb.standing node state hpos
    simp only [superstep, hpos]
    refine ⟨?_, ?_, ?_, ?_⟩
    · have hmetas := hs.metas
      have hcounter := hs.counter
      simp only [metaDecisions, List.countP_append, List.countP_singleton, Nat.cast_add, hmetas]
      by_cases hmeta : node = .metaDecision
      · subst hmeta
        simpa [Executed.isMetaDecision, Node.decided] using hcounter
      · simp only [Executed.isMetaDecision, hmeta, decide_false, Bool.false_eq_true, if_false]
        split <;> omega
    · have hsubmits := hs.submits
      have hopen : node = .submitExecutionCommand → node.closes = false := by
        rintro rfl
        rfl
      simp only [submissions, List.countP_append, List.countP_singleton]
      by_cases hsub : node = .submitExecutionCommand
      · rw [hopen hsub] at hsubmits
        simpa [Executed.isSubmission, hsub] using hsubmits
      · simp only [Executed.isSubmission, hsub, decide_false, Bool.false_eq_true, if_false]
        split at hsubmits <;> omega
    · apply submitsAllowed_snoc hb.allowed
      rintro rfl
      rw [MaySubmit, hs.last]
      exact ⟨hs.goes rfl, hs.valid rfl⟩
    · intro successor state' hat
      cases hexec : CognitiveGraph.execute deps state answer node with
      | error text => simp [hexec, CognitiveGraph.follow] at hat
      | ok after =>
        simp only [hexec, CognitiveGraph.follow] at hat
        cases hnext : CognitiveGraph.next deps after node with
        | none => simp [hnext] at hat
        | some reached =>
          simp only [hnext] at hat
          obtain ⟨rfl, rfl⟩ := Position.at.inj hat
          exact CognitiveGraph.standing_step hs hexec hnext hfresh

/-- The answers of the nodes executed are those of the supersteps taken. -/
theorem answer_mem_of_mem_trace {state : CognitiveGraphState} (answers : List Answer) :
    ∀ x ∈ (run (superstep deps) (start state) answers).trace, x.answer ∈ answers := by
  induction answers using List.reverseRecOn with
  | nil => exact fun x hx ↦ absurd hx (by simp [start])
  | append_singleton answers answer ih =>
    intro x hx
    rw [run_snoc] at hx
    cases hpos : (run (superstep deps) (start state) answers).position with
    | ended _ =>
      simp only [superstep, hpos] at hx
      exact List.mem_append_left _ (ih x hx)
    | raised _ =>
      simp only [superstep, hpos] at hx
      exact List.mem_append_left _ (ih x hx)
    | «at» node reached =>
      simp only [superstep, hpos] at hx
      obtain hx | hx := List.mem_append.mp hx
      · exact List.mem_append_left _ (ih x hx)
      · rw [List.mem_singleton.mp hx]
        exact List.mem_append_right _ (List.mem_singleton_self _)

/-- Every run from an initial state is bounded in all its states. -/
theorem bounded_run (deps : CognitiveGraphDeps)
    (sessionId cycleId triggerEventId snapshotId : String) {answers : List Answer}
    (hids : (answers.map Answer.errorId).Nodup) : ∀ pre, pre <+: answers →
    Bounded deps (run (superstep deps)
      (start (initialCycleState sessionId cycleId triggerEventId snapshotId)) pre) := by
  apply run_invariant_of_steps (fun _ _ hb hfresh ↦ bounded_superstep hb hfresh)
    (bounded_start sessionId cycleId triggerEventId snapshotId)
  intro pre answer hp x hx
  have hpre := hids.sublist (hp.sublist.map Answer.errorId)
  rw [List.map_append, List.nodup_append] at hpre
  exact hpre.2.2 _ (List.mem_map_of_mem (answer_mem_of_mem_trace pre x hx)) _ (by simp)

/-- The supersteps left in a run. -/
def rank (deps : CognitiveGraphDeps) (cycle : GraphRun) : ℕ :=
  match cycle.position with
  | .at node state => CognitiveGraph.nodeRank (CognitiveGraph.switchesLeft deps state) node
  | .ended _ => 0
  | .raised _ => 0

/-- A superstep lowers the rank. -/
theorem rank_superstep (cycle : GraphRun) (answer : Answer) (hb : Bounded deps cycle) :
    (cycle.superstep deps answer).rank deps ≤ cycle.rank deps - 1 := by
  cases hpos : cycle.position with
  | ended state => simp [superstep, rank, hpos]
  | raised text => simp [superstep, rank, hpos]
  | «at» node state =>
    have hs := hb.standing node state hpos
    simp only [superstep, rank, hpos]
    cases hexec : CognitiveGraph.execute deps state answer node with
    | error text => simp [CognitiveGraph.follow]
    | ok after =>
      simp only [CognitiveGraph.follow]
      cases hnext : CognitiveGraph.next deps after node with
      | none => simp
      | some reached =>
        have hlt := CognitiveGraph.nodeRank_lt hs hexec hnext
        simp only
        omega

/-- A run is bounded and submits at most once. At any time it has executed no more than
`max m 0 + 1` meta-decision nodes and one submission, that one on a last decision to execute or to
probe and with no failed validation before it; and after `13 + 3 * max m 0` supersteps it is at its
end, unless a node has raised. -/
theorem decisionCycle_bounded (deps : CognitiveGraphDeps)
    (sessionId cycleId triggerEventId snapshotId : String) (answers : List Answer)
    (hids : (answers.map Answer.errorId).Nodup) :
    let cycle := run (superstep deps)
      (start (initialCycleState sessionId cycleId triggerEventId snapshotId)) answers
    (cycle.metaDecisions : ℤ) ≤ max deps.maxStrategySwitches 0 + 1 ∧ cycle.submissions ≤ 1 ∧
      SubmitsAllowed deps cycle.trace ∧
      (13 + 3 * max deps.maxStrategySwitches 0 ≤ answers.length →
        (∀ text, cycle.position ≠ .raised text) → ∃ state, cycle.position = .ended state) := by
  intro cycle
  have hall := bounded_run deps sessionId cycleId triggerEventId snapshotId hids
  have hb := hall answers List.prefix_rfl
  refine ⟨hb.metas, hb.submits, hb.allowed, ?_⟩
  intro hlength hraised
  have hrank : cycle.rank deps ≤ _ - answers.length :=
    rank_run_le (fun s a h ↦ rank_superstep s a h) hall
  have hstart : (start (initialCycleState sessionId cycleId triggerEventId snapshotId)).rank deps =
      3 * (deps.maxStrategySwitches - 0).toNat + 13 := rfl
  have hzero : cycle.rank deps = 0 := by
    rw [hstart] at hrank
    omega
  cases hpos : cycle.position with
  | ended state => exact ⟨state, rfl⟩
  | raised text => exact absurd hpos (hraised text)
  | «at» node state =>
    have hpositive := CognitiveGraph.nodeRank_pos (CognitiveGraph.switchesLeft deps state) node
    simp only [rank, hpos] at hzero
    omega

namespace Sample

/-- A context of the cycle `c`. -/
def context : ContextPackage :=
  { contextId := "x"
    agentRole := .marketStructure
    sessionId := "s"
    cycleId := "c"
    snapshotId := ⟨"n", by decide⟩
    assembledAt := "2026-07-01T12:00:00Z"
    sourceSnapshotId := ⟨"n", by decide⟩
    sourceDataQualityId := none
    sourceOptionSurfaceId := none
    sourceFeatureSnapshotId := none
    sourceOrderIds := []
    sourcePositionIds := []
    sourceArtifactIds := []
    underlying := .null
    bars1m := []
    bars5m := []
    dataQuality := none
    optionSurfaceSlice := []
    orderProjection := none
    positionProjection := none
    sessionArtifactSummaries := []
    legacyPlaybookContext := none
    truncations := []
    contextHash := ⟨"h", by decide⟩
    serializedSizeChars := 0 }

/-- The order a proposal compiles to. -/
def provenanced (proposal : ExecutionProposal) : ProvenancedExecutionCommand :=
  { command :=
      { clientOrderId := "cog-p"
        intent := ⟨"cog-p", proposal.proposalId, ⟨"SPY", ⟨2026, 7, 1⟩, ⟨⟨false, 5000, -1⟩⟩, .call⟩,
          .buy, .market, 1, none⟩
        brokerAccountId := "default" }
    decisionId := proposal.decisionId
    strategyId := proposal.strategyId
    proposalId := proposal.proposalId
    snapshotId := proposal.snapshotId
    cycleId := proposal.cycleId
    maxQuoteAgeSeconds := some 60 }

/-- The answers of a superstep in which the model decides on the action, and nothing fails. -/
def answer (action : MetaDecisionAction) (errorId : String) : Answer :=
  { errorId := errorId
    freshCycleId := "c"
    fault := none
    snapshot := .ok ()
    context := context
    evidence := [⟨"e", ""⟩]
    worldModel := "w"
    hypotheses := []
    strategies := [⟨"fade", "fade", []⟩]
    panel := fun _ ↦ []
    decision := ⟨"d", action, some "fade", [], []⟩
    proposal := ⟨"p", "", "", "", "", "", .execute, ""⟩
    compiled := fun proposal ↦ .ok (provenanced proposal)
    gateway := fun request ↦ ⟨true, request.clientOrderId, none, none, false, none, none, []⟩
    callback := fun _ ↦ none }

/-- Settings with a number of switches, and all services there. -/
def settings (maxStrategySwitches : ℤ) : CognitiveGraphDeps :=
  ⟨maxStrategySwitches, 2, 3, true, true, true⟩

/-- A cycle with these answers. -/
def cycle (maxStrategySwitches : ℤ) (answers : List Answer) : GraphRun :=
  run (superstep (settings maxStrategySwitches)) (start (initialCycleState "s" "c" "t" "n")) answers

/-- The first nine supersteps, to the meta-decision. -/
def opening (action : MetaDecisionAction) : List Answer :=
  ["1", "2", "3", "4", "5", "6", "7", "8", "9"].map (answer action)

/-- A switch, then an entry. -/
def switched : List Answer :=
  opening .switchStrategy ++ ["10", "11", "12", "13", "14", "15", "16"].map (answer .execute)

end Sample

/-- The theorem at a cycle with one switch and a submission. -/
theorem decisionCycle_bounded_switched :
    (Sample.switched.map Answer.errorId).Nodup ∧
      (Sample.cycle 1 Sample.switched).metaDecisions = 2 ∧
      (Sample.cycle 1 Sample.switched).submissions = 1 ∧
      SubmitsAllowed (Sample.settings 1) (Sample.cycle 1 Sample.switched).trace := by
  have hids : (Sample.switched.map Answer.errorId).Nodup := by decide +kernel
  exact ⟨hids, by decide +kernel, by decide +kernel,
    (decisionCycle_bounded (Sample.settings 1) "s" "c" "t" "n" Sample.switched hids).2.2.1⟩

/-- With a negative number of switches in the settings the meta-decision still runs once. -/
theorem not_metaDecisions_le_negativeSwitches :
    ¬ ((Sample.cycle (-1) (Sample.opening .abandon)).metaDecisions : ℤ) ≤
      (Sample.settings (-1)).maxStrategySwitches + 1 := by
  decide +kernel

end GraphRun

end Joker.Graph
