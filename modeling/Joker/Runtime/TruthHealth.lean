import Joker.Base.EventLog
import Joker.Graph.Checkpoints
import Joker.Runtime.ExecutionRuntime

/-!
# Health of the market truth

Library `Runtime`. `joker/runtime/compatibility.py`: failures of the market runtime degrade the
truth layer, a complete snapshot restores it, and the graph state's errors say so. While the layer
is degraded the bridge answers orders itself, as rejected. What the market runtime and the
execution runtime answer are inputs.
-/

namespace Joker.Runtime

open Joker.Base Joker.Broker Joker.Graph

/-- `Task1RuntimeHealth`. Source `joker/runtime/compatibility.py:41–74`. -/
structure Task1RuntimeHealth where
  consecutiveFailures : ℕ
  degraded : Bool
  lastError : Option String
  lastFailureAt : Option UtcTime
  failureThreshold : ℤ

/-- The entry of `errors` for a degraded layer. -/
def truthError (message : String) (consecutiveFailures : ℕ) (lastFailureAt : Option UtcTime) :
    Json :=
  .obj [("code", .str "task1_truth_degraded"), ("message", .str message),
    ("consecutive_failures", .num consecutiveFailures),
    ("at", .ofText (lastFailureAt.map UtcTime.text))]

/-- `last_error or "Task 1 market runtime unhealthy"`. -/
def failureMessage (lastError : Option String) : String :=
  (lastError.filter (· ≠ "")).getD "Task 1 market runtime unhealthy"

/-- `e.get("code") == "task1_truth_degraded"`. -/
def isTruthError : Json → Bool
  | .obj members =>
    decide ((Members.get? members "code").bind Json.text? = some "task1_truth_degraded")
  | _ => false

namespace Task1RuntimeHealth

/-- A new one. -/
def new (failureThreshold : ℤ) : Task1RuntimeHealth := ⟨0, false, none, none, failureThreshold⟩

/-- `allows_execution`. Source `joker/runtime/compatibility.py:53–54`. -/
def allowsExecution (health : Task1RuntimeHealth) : Bool := !health.degraded

/-- `record_success`. Source `joker/runtime/compatibility.py:56–60`. -/
def recordSuccess (health : Task1RuntimeHealth) : Task1RuntimeHealth :=
  { health with
    consecutiveFailures := 0
    degraded := false
    lastError := none }

/-- `record_failure`. Source `joker/runtime/compatibility.py:62–74`. -/
def recordFailure (reason : String) (now : UtcTime) (health : Task1RuntimeHealth) :
    Task1RuntimeHealth :=
  { health with
    consecutiveFailures := health.consecutiveFailures + 1
    lastError := some reason
    lastFailureAt := some now
    degraded := decide (health.failureThreshold ≤ health.consecutiveFailures + 1) ||
      health.degraded }

/-- `_sync_health_to_graph`. Source `joker/runtime/compatibility.py:179–196`. -/
def syncToGraph (health : Task1RuntimeHealth) (state : JokerGraphState) : JokerGraphState :=
  { state with
    errors := some ((state.errors.getD []).filter (fun e ↦ !isTruthError e) ++
      if health.degraded then
        [truthError (failureMessage health.lastError) health.consecutiveFailures
          health.lastFailureAt]
      else []) }

end Task1RuntimeHealth

/-! ### The bridge -/

/-- What is told of a session's health and orders: a start, with the entries of a degraded layer
that it restored; a checkpoint, with those that it saved; a failure; a complete snapshot; an order
that the execution runtime was given; and one that was answered as rejected. -/
inductive TruthEvent where
  | started (restored : List Json)
  | saved (entries : List Json)
  | failed (reason : String) (now : UtcTime)
  | complete
  | handed (command : ExecutionCommand)
  | blocked (order : BrokerOrder)

/-- The health and the graph state of a `CompatibilityLivePaperBridge`.
Source `joker/runtime/compatibility.py:77–308`. -/
structure LivePaperBridge where
  health : Task1RuntimeHealth
  graphState : JokerGraphState

/-- A call of the bridge, with what the runtimes answer: `ingest` stands for the three calls that
take observations, a tick tells whether it created a snapshot, and `submitOrder` is the call of
`ExecutionDelegatingBroker`, which has an account.
Source `joker/runtime/compatibility.py:311–377`. -/
inductive BridgeCall where
  | ingest (failure : Option (String × UtcTime))
  | tick (result : Except (String × UtcTime) Bool)
  | submitExecutionCommand (command : ExecutionCommand) (answer : Except PyException BrokerOrder)
  | submitOrder (brokerAccountId : String) (intent : OrderIntent)
    (answer : Except PyException BrokerOrder)

namespace LivePaperBridge

/-- `_ingest_fail`. Source `joker/runtime/compatibility.py:206–208`. -/
def ingestFail (reason : String) (now : UtcTime) (bridge : LivePaperBridge) : LivePaperBridge :=
  let health := bridge.health.recordFailure reason now
  ⟨health, health.syncToGraph bridge.graphState⟩

/-- `_ingest_ok`. Source `joker/runtime/compatibility.py:198–204`. -/
def ingestOk (bridge : LivePaperBridge) : LivePaperBridge :=
  let health := bridge.health.recordSuccess
  ⟨health, if bridge.health.degraded then health.syncToGraph bridge.graphState
    else bridge.graphState⟩

/-- The order that is answered instead of the broker's. -/
def blockedOrder (orderId : String) (intent : OrderIntent) : BrokerOrder :=
  { orderId := "blocked-" ++ orderId
    intentId := orderId
    status := .rejected
    contract := intent.contract
    side := intent.side
    quantity := intent.quantity
    limitPrice := intent.limitPrice }

/-- `submit_execution_command`: what is told of it, and its result.
Source `joker/runtime/compatibility.py:249–262`. -/
def submitExecutionCommand (command : ExecutionCommand) (answer : Except PyException BrokerOrder)
    (bridge : LivePaperBridge) : TruthEvent × Except PyException BrokerOrder :=
  if bridge.health.allowsExecution then (.handed command, answer)
  else
    let order := blockedOrder command.clientOrderId command.intent
    (.blocked order, .ok order)

/-- `ExecutionDelegatingBroker.submit_order`. Source `joker/runtime/compatibility.py:329–345`. -/
def submitOrder (brokerAccountId : String) (intent : OrderIntent)
    (answer : Except PyException BrokerOrder) (bridge : LivePaperBridge) :
    TruthEvent × Except PyException BrokerOrder :=
  if bridge.health.allowsExecution then
    bridge.submitExecutionCommand ⟨intent.intentId, intent, brokerAccountId⟩ answer
  else
    let order := blockedOrder intent.intentId intent
    (.blocked order, .ok order)

/-- A call, and what is told of it.
Source `joker/runtime/compatibility.py:210–217, 219–226, 228–235, 237–247`. -/
def call (bridge : LivePaperBridge) : BridgeCall → LivePaperBridge × List TruthEvent
  | .ingest none | .tick (.ok false) => (bridge, [])
  | .ingest (some (reason, now)) | .tick (.error (reason, now)) =>
    (bridge.ingestFail reason now, [.failed reason now])
  | .tick (.ok true) => (bridge.ingestOk, [.complete])
  | .submitExecutionCommand command answer =>
    (bridge, [(bridge.submitExecutionCommand command answer).1])
  | .submitOrder brokerAccountId intent answer =>
    (bridge, [(bridge.submitOrder brokerAccountId intent answer).1])

end LivePaperBridge

/-! ### What the events tell -/

namespace TruthEvent

/-- A failure. -/
def isFailure : TruthEvent → Bool
  | .failed _ _ => true
  | _ => false

/-- A complete snapshot, or a new process. -/
def isReset : TruthEvent → Bool
  | .complete | .started _ => true
  | _ => false

/-- What an event says about the last failure. -/
def writeFailure : TruthEvent → Option (Option (String × UtcTime))
  | .failed reason now => some (some (reason, now))
  | .complete | .started _ => some none
  | _ => none

/-- What an event says about restored entries: no failure has replaced them yet. -/
def writeRestored : TruthEvent → Option (Option (List Json))
  | .started restored => some (some restored)
  | .failed _ _ => some none
  | _ => none

/-- What an event says about the last checkpoint's entries. -/
def writeSaved : TruthEvent → Option (Option (List Json))
  | .saved entries => some (some entries)
  | _ => none

end TruthEvent

/-- The failures since the last complete snapshot of the process. -/
def failuresSince (log : List TruthEvent) : ℕ :=
  countSince TruthEvent.isFailure TruthEvent.isReset log

/-- So many failures, and at least one, degrade the layer. -/
def Degrades (threshold : ℤ) (log : List TruthEvent) : Prop := max 1 threshold ≤ failuresSince log

instance (threshold : ℤ) (log : List TruthEvent) : Decidable (Degrades threshold log) :=
  inferInstanceAs (Decidable (_ ≤ _))

/-- An order is handed on exactly when the failures before it do not degrade the layer, and is
rejected otherwise. -/
def Gated (threshold : ℤ) (before : List TruthEvent) : TruthEvent → Prop
  | .handed _ => ¬ Degrades threshold before
  | .blocked order => Degrades threshold before ∧ order.status = .rejected
  | _ => True

/-- The entries of a degraded layer, by the events: those that the start restored, until a failure;
then one while the layer is degraded, with the last failure and how many there were. -/
def auditOf (threshold : ℤ) (log : List TruthEvent) : List Json :=
  (register TruthEvent.writeRestored log).getD
    (if Degrades threshold log then
      ((register TruthEvent.writeFailure log).map (fun failure ↦
        truthError (failureMessage (some failure.1)) (failuresSince log) (some failure.2))).toList
    else [])

/-- A checkpoint saves the entries by the events before it, and a start restores those that were
saved last. -/
def Audits (threshold : ℤ) (before : List TruthEvent) : TruthEvent → Prop
  | .started restored => restored = (register TruthEvent.writeSaved before).getD []
  | .saved entries => entries = auditOf threshold before
  | _ => True

/-- The entries of a degraded layer in a state. -/
def truthErrors (state : JokerGraphState) : List Json :=
  (state.errors.getD []).filter isTruthError

/-- The other entries. -/
def otherErrors (state : JokerGraphState) : List Json :=
  (state.errors.getD []).filter (fun e ↦ !isTruthError e)

/-- The health follows the events. -/
structure HealthFollows (threshold : ℤ) (log : List TruthEvent) (health : Task1RuntimeHealth) :
    Prop where
  limit : health.failureThreshold = threshold
  failures : health.consecutiveFailures = failuresSince log
  degraded : health.degraded = true ↔ Degrades threshold log
  last : ∀ failure ∈ register TruthEvent.writeFailure log,
    health.lastError = some failure.1 ∧ health.lastFailureAt = some failure.2

/-! ### One call -/

private theorem failuresSince_snoc (log : List TruthEvent) (e : TruthEvent) :
    failuresSince (log ++ [e]) =
      if e.isReset then 0 else if e.isFailure then failuresSince log + 1 else failuresSince log :=
  countSince_snoc _ _ log e

/-- No failure since a reset degrades nothing. -/
theorem not_degrades_of_reset {threshold : ℤ} {log : List TruthEvent} {e : TruthEvent}
    (h : e.isReset = true) : ¬ Degrades threshold (log ++ [e]) := by
  unfold Degrades
  rw [failuresSince_snoc, if_pos h]
  omega

section

variable {threshold : ℤ} {log : List TruthEvent} {bridge : LivePaperBridge}

/-- A start builds a new health. -/
theorem healthFollows_new (threshold : ℤ) (log : List TruthEvent) (restored : List Json) :
    HealthFollows threshold (log ++ [.started restored]) (.new threshold) where
  limit := rfl
  failures := by
    rw [failuresSince_snoc]
    rfl
  degraded := iff_of_false (by simp [Task1RuntimeHealth.new]) (not_degrades_of_reset rfl)
  last := by
    intro failure hfailure
    rw [register_snoc] at hfailure
    cases hfailure

/-- A failure is recorded. -/
theorem HealthFollows.failed {health : Task1RuntimeHealth} (h : HealthFollows threshold log health)
    (reason : String) (now : UtcTime) :
    HealthFollows threshold (log ++ [.failed reason now]) (health.recordFailure reason now) where
  limit := h.limit
  failures := by
    rw [failuresSince_snoc, ← h.failures]
    rfl
  degraded := by
    have hcount : failuresSince (log ++ [.failed reason now]) = failuresSince log + 1 :=
      failuresSince_snoc log _
    have hbefore := h.degraded
    unfold Degrades at hbefore ⊢
    simp only [Task1RuntimeHealth.recordFailure, Bool.or_eq_true, decide_eq_true_eq, h.limit,
      h.failures, hbefore, hcount]
    omega
  last := by
    intro failure hfailure
    rw [register_snoc] at hfailure
    rw [← Option.some.inj hfailure]
    exact ⟨rfl, rfl⟩

/-- A complete snapshot restores the health. -/
theorem HealthFollows.complete {health : Task1RuntimeHealth}
    (h : HealthFollows threshold log health) :
    HealthFollows threshold (log ++ [.complete]) health.recordSuccess where
  limit := h.limit
  failures := by
    rw [failuresSince_snoc]
    rfl
  degraded := iff_of_false (by simp [Task1RuntimeHealth.recordSuccess])
    (not_degrades_of_reset rfl)
  last := by
    intro failure hfailure
    rw [register_snoc] at hfailure
    cases hfailure

/-- Another event changes nothing. -/
theorem HealthFollows.idle {health : Task1RuntimeHealth} (h : HealthFollows threshold log health)
    {e : TruthEvent} (hreset : e.isReset = false) (hfailure : e.isFailure = false)
    (hwrite : e.writeFailure = none) : HealthFollows threshold (log ++ [e]) health where
  limit := h.limit
  failures := by
    rw [failuresSince_snoc, hreset, hfailure]
    exact h.failures
  degraded := by
    have hbefore := h.degraded
    unfold Degrades at hbefore ⊢
    rw [failuresSince_snoc, hreset, hfailure]
    exact hbefore
  last := by
    intro failure hmem
    rw [register_snoc, hwrite] at hmem
    exact h.last failure hmem

/-- The broker's own check is that of the bridge, for the command it builds. -/
theorem submitOrder_eq (brokerAccountId : String) (intent : OrderIntent)
    (answer : Except PyException BrokerOrder) (bridge : LivePaperBridge) :
    bridge.submitOrder brokerAccountId intent answer =
      bridge.submitExecutionCommand ⟨intent.intentId, intent, brokerAccountId⟩ answer := by
  unfold LivePaperBridge.submitOrder
  split
  · rfl
  · next hblocked =>
    unfold LivePaperBridge.submitExecutionCommand
    rw [if_neg hblocked]

/-- What a call does: nothing, a failure, a complete snapshot, or an order. -/
theorem call_cases (bridge : LivePaperBridge) (c : BridgeCall) :
    bridge.call c = (bridge, []) ∨
      (∃ reason now, bridge.call c = (bridge.ingestFail reason now, [.failed reason now])) ∨
      bridge.call c = (bridge.ingestOk, [.complete]) ∨
      ∃ command answer,
        bridge.call c = (bridge, [(bridge.submitExecutionCommand command answer).1]) := by
  cases c with
  | ingest failure =>
    cases failure with
    | none => exact .inl rfl
    | some failure => exact .inr (.inl ⟨failure.1, failure.2, rfl⟩)
  | tick result =>
    cases result with
    | error failure => exact .inr (.inl ⟨failure.1, failure.2, rfl⟩)
    | ok complete =>
      cases complete with
      | false => exact .inl rfl
      | true => exact .inr (.inr (.inl rfl))
  | submitExecutionCommand command answer => exact .inr (.inr (.inr ⟨command, answer, rfl⟩))
  | submitOrder brokerAccountId intent answer =>
    refine .inr (.inr (.inr ⟨⟨intent.intentId, intent, brokerAccountId⟩, answer, ?_⟩))
    simp only [LivePaperBridge.call, submitOrder_eq]

/-- What is told of an order: it is handed on exactly when the layer is not degraded. -/
theorem HealthFollows.submit (h : HealthFollows threshold log bridge.health)
    (command : ExecutionCommand) (answer : Except PyException BrokerOrder) :
    let e := (bridge.submitExecutionCommand command answer).1
    HealthFollows threshold (log ++ [e]) bridge.health ∧ Gated threshold log e := by
  have hdegraded := h.degraded
  unfold LivePaperBridge.submitExecutionCommand Task1RuntimeHealth.allowsExecution
  cases hhealth : bridge.health.degraded with
  | true => exact ⟨h.idle rfl rfl rfl, hdegraded.mp hhealth, rfl⟩
  | false =>
    refine ⟨h.idle rfl rfl rfl, fun hdegrades ↦ ?_⟩
    rw [hdegraded.mpr hdegrades] at hhealth
    cases hhealth

/-- Every call keeps the health in step with the events, and the orders gated. -/
theorem HealthFollows.call (h : HealthFollows threshold log bridge.health)
    (hgated : Guarded (Gated threshold) log) (c : BridgeCall) :
    HealthFollows threshold (log ++ (bridge.call c).2) (bridge.call c).1.health ∧
      Guarded (Gated threshold) (log ++ (bridge.call c).2) := by
  rcases call_cases bridge c with
    hcall | ⟨reason, now, hcall⟩ | hcall | ⟨command, answer, hcall⟩ <;> rw [hcall]
  · rw [List.append_nil]
    exact ⟨h, hgated⟩
  · exact ⟨h.failed reason now, hgated.snoc trivial⟩
  · exact ⟨h.complete, hgated.snoc trivial⟩
  · obtain ⟨hfollows, hguard⟩ := h.submit command answer
    exact ⟨hfollows, hgated.snoc hguard⟩

/-! ### The graph's errors -/

private theorem isTruthError_truthError (message : String) (n : ℕ) (now : Option UtcTime) :
    isTruthError (truthError message n now) = true := by
  unfold isTruthError truthError
  simp [Members.get?_cons, Json.text?]

/-- What is written replaces the entries of a degraded layer. -/
theorem truthErrors_syncToGraph (health : Task1RuntimeHealth) (state : JokerGraphState) :
    truthErrors (health.syncToGraph state) =
      if health.degraded then
        [truthError (failureMessage health.lastError) health.consecutiveFailures
          health.lastFailureAt]
      else [] := by
  unfold truthErrors Task1RuntimeHealth.syncToGraph
  have hkept : ((state.errors.getD []).filter (fun e ↦ !isTruthError e)).filter isTruthError =
      [] := by
    simp [List.filter_filter]
  simp only [Option.getD_some, List.filter_append, hkept, List.nil_append]
  split
  · simp [isTruthError_truthError]
  · rfl

/-- The other entries stay. -/
theorem otherErrors_syncToGraph (health : Task1RuntimeHealth) (state : JokerGraphState) :
    otherErrors (health.syncToGraph state) = otherErrors state := by
  unfold otherErrors Task1RuntimeHealth.syncToGraph
  simp only [Option.getD_some, List.filter_append, List.filter_filter, Bool.and_self]
  split
  · simp [isTruthError_truthError]
  · simp

/-- A failure since the last reset has replaced what the start restored. -/
theorem restored_eq_none_of_failure {log : List TruthEvent} (h : 0 < failuresSince log) :
    register TruthEvent.writeRestored log = none := by
  induction log using List.reverseRecOn with
  | nil => rfl
  | append_singleton log e ih =>
    rw [failuresSince_snoc] at h
    rw [register_snoc]
    cases e with
    | started restored => exact absurd h (Nat.lt_irrefl 0)
    | failed reason now => rfl
    | complete => exact absurd h (Nat.lt_irrefl 0)
    | saved entries => exact ih h
    | handed command => exact ih h
    | blocked order => exact ih h

/-- A start audits what it restores. -/
theorem auditOf_started (threshold : ℤ) (log : List TruthEvent) (restored : List Json) :
    auditOf threshold (log ++ [.started restored]) = restored := by
  unfold auditOf
  rw [register_snoc]
  rfl

private theorem auditOf_failed (threshold : ℤ) (log : List TruthEvent) (reason : String)
    (now : UtcTime) :
    auditOf threshold (log ++ [.failed reason now]) =
      if Degrades threshold (log ++ [.failed reason now]) then
        [truthError (failureMessage (some reason)) (failuresSince (log ++ [.failed reason now]))
          (some now)]
      else [] := by
  unfold auditOf
  rw [register_snoc, register_snoc]
  rfl

private theorem auditOf_complete (threshold : ℤ) (log : List TruthEvent) :
    auditOf threshold (log ++ [.complete]) =
      (register TruthEvent.writeRestored log).getD [] := by
  unfold auditOf
  rw [register_snoc, if_neg (not_degrades_of_reset rfl)]
  rfl

/-- Another event changes nothing in the audit. -/
theorem auditOf_idle (threshold : ℤ) (log : List TruthEvent) {e : TruthEvent}
    (hreset : e.isReset = false) (hfailure : e.isFailure = false)
    (hwrite : e.writeFailure = none) (hrestored : e.writeRestored = none) :
    auditOf threshold (log ++ [e]) = auditOf threshold log := by
  have hcount : failuresSince (log ++ [e]) = failuresSince log := by
    rw [failuresSince_snoc, hreset, hfailure]
    rfl
  have hdegrades : Degrades threshold (log ++ [e]) ↔ Degrades threshold log := by
    unfold Degrades
    rw [hcount]
  unfold auditOf
  simp only [register_snoc, hwrite, hrestored, hcount, hdegrades, Option.getD_none]

/-- After a failure the state has the entry that the events tell. -/
theorem HealthFollows.truthErrors_ingestFail (h : HealthFollows threshold log bridge.health)
    (reason : String) (now : UtcTime) :
    truthErrors (bridge.ingestFail reason now).graphState =
      auditOf threshold (log ++ [.failed reason now]) := by
  have hafter := h.failed reason now
  have hdegraded := hafter.degraded
  refine (truthErrors_syncToGraph _ _).trans ?_
  rw [auditOf_failed, hafter.failures]
  by_cases hdegrades : Degrades threshold (log ++ [.failed reason now])
  · rw [if_pos hdegrades, if_pos (hdegraded.mpr hdegrades)]
    rfl
  · rw [if_neg hdegrades, if_neg (fun hnot ↦ hdegrades (hdegraded.mp hnot))]

/-- A complete snapshot clears the entry of a degraded layer, and leaves what a start restored. -/
theorem HealthFollows.truthErrors_ingestOk (h : HealthFollows threshold log bridge.health)
    (haudit : truthErrors bridge.graphState = auditOf threshold log) :
    truthErrors bridge.ingestOk.graphState = auditOf threshold (log ++ [.complete]) := by
  have hdegraded := h.degraded
  simp only [LivePaperBridge.ingestOk, auditOf_complete]
  split
  · next hwas =>
    -- The failures have replaced what the start restored, and now nothing is left.
    have hfailure : 0 < failuresSince log := by
      have hdegrades := hdegraded.mp hwas
      unfold Degrades at hdegrades
      omega
    rw [truthErrors_syncToGraph, restored_eq_none_of_failure hfailure]
    rfl
  · next hwas =>
    rw [haudit]
    unfold auditOf
    rw [if_neg (fun hdegrades ↦ hwas (hdegraded.mpr hdegrades))]

/-- Every call keeps the state's entries as the events tell. -/
theorem HealthFollows.audited_call (h : HealthFollows threshold log bridge.health)
    (haudit : truthErrors bridge.graphState = auditOf threshold log) (c : BridgeCall) :
    truthErrors (bridge.call c).1.graphState = auditOf threshold (log ++ (bridge.call c).2) := by
  rcases call_cases bridge c with
    hcall | ⟨reason, now, hcall⟩ | hcall | ⟨command, answer, hcall⟩ <;> rw [hcall]
  · rw [List.append_nil]
    exact haudit
  · exact h.truthErrors_ingestFail reason now
  · exact h.truthErrors_ingestOk haudit
  · rw [haudit]
    unfold LivePaperBridge.submitExecutionCommand
    split <;> exact (auditOf_idle threshold log rfl rfl rfl rfl).symm

/-- No call saves or restores. -/
theorem idle_call (threshold : ℤ) (bridge : LivePaperBridge) (c : BridgeCall) :
    ∀ e ∈ (bridge.call c).2, e.writeSaved = none ∧ ∀ before, Audits threshold before e := by
  intro e he
  rcases call_cases bridge c with
    hcall | ⟨reason, now, hcall⟩ | hcall | ⟨command, answer, hcall⟩ <;> rw [hcall] at he
  · cases he
  · rw [List.mem_singleton.mp he]
    exact ⟨rfl, fun _ ↦ trivial⟩
  · rw [List.mem_singleton.mp he]
    exact ⟨rfl, fun _ ↦ trivial⟩
  · rw [List.mem_singleton.mp he]
    unfold LivePaperBridge.submitExecutionCommand
    split <;> exact ⟨rfl, fun _ ↦ trivial⟩

/-- No call touches the other entries, or another key of the state. -/
theorem graphState_call (bridge : LivePaperBridge) (c : BridgeCall) :
    let state := (bridge.call c).1.graphState
    otherErrors state = otherErrors bridge.graphState ∧
      state.exchangeTime = bridge.graphState.exchangeTime ∧
      state.sessionId = bridge.graphState.sessionId ∧
      state.runId = bridge.graphState.runId := by
  have hsynced (health : Task1RuntimeHealth) :
      let state := health.syncToGraph bridge.graphState
      otherErrors state = otherErrors bridge.graphState ∧
        state.exchangeTime = bridge.graphState.exchangeTime ∧
        state.sessionId = bridge.graphState.sessionId ∧
        state.runId = bridge.graphState.runId :=
    ⟨otherErrors_syncToGraph _ _, rfl, rfl, rfl⟩
  rcases call_cases bridge c with
    hcall | ⟨reason, now, hcall⟩ | hcall | ⟨command, answer, hcall⟩ <;> rw [hcall]
  · exact ⟨rfl, rfl, rfl, rfl⟩
  · exact hsynced (bridge.health.recordFailure reason now)
  · simp only [LivePaperBridge.ingestOk]
    split
    · exact hsynced bridge.health.recordSuccess
    · exact ⟨rfl, rfl, rfl, rfl⟩
  · exact ⟨rfl, rfl, rfl, rfl⟩

end

end Joker.Runtime
