import Joker.Base.Runs
import Joker.Runtime.OrderActionGateway

/-!
# Order management

Library `Runtime`. `_run_order_work` and `_apply_order_decision` of
`joker/runtime/cognitive_agent_runtime.py`, and the table of
`joker/persistence/order_management_actions.py`. A decision is skipped for either of two keys. The
key of the table is written after the action, the key in memory before it, so a decision whose
attempt failed is not tried again under the same rationale.
-/

namespace Joker.Runtime

open Joker.Base Joker.Ledger Joker.Broker

/-- `OrderManagementAction`. Source `joker/cognition/schemas.py:38–44`. -/
inductive OrderManagementAction where
  | continueWaiting
  | cancel
  | replace
  | reduceQuantity
  | abandon
  deriving DecidableEq, Repr

/-- The literal's text. -/
def OrderManagementAction.value : OrderManagementAction → String
  | .continueWaiting => "continue_waiting"
  | .cancel => "cancel"
  | .replace => "replace"
  | .reduceQuantity => "reduce_quantity"
  | .abandon => "abandon"

/-- `OrderManagementDecision`, as far as it is read; its ids are texts.
Source `joker/cognition/schemas.py:670–681`. -/
structure OrderManagementDecision where
  decisionId : String
  cycleId : String
  snapshotId : String
  clientOrderId : String
  action : OrderManagementAction
  newLimitPrice : Option Decimal
  newQuantity : Option ℤ
  rationaleSummary : String
  deriving DecidableEq

/-- `order_projection`: the order's event, and what polling the order added to it.
Source `joker/runtime/cognitive_agent_runtime.py:893–897`. -/
structure OrderProjection where
  status : Option String
  eventType : Option String
  side : Option Side
  quantity : Option ℤ
  filledQuantity : Option ℤ
  limitPrice : Option PyFloat
  contract : Option OptionContract
  deriving DecidableEq

/-- `OrderManagementActionRecord`. Source `joker/persistence/order_management_actions.py:50–59`. -/
structure OrderManagementActionRecord where
  actionKey : String
  sessionId : String
  sourceOrderId : String
  action : String
  sourceOrderState : String
  triggerEventId : String
  decisionId : String
  replacementClientOrderId : Option String
  deriving DecidableEq

/-- What a `CognitiveAgentRuntime` was given: whether there is an execution runtime, a repository of
decisions, a table of actions and a gateway; its session; `hashlib.sha256(text).hexdigest()`, and
`float` of a decimal. -/
structure OrderDeps where
  hasRuntime : Bool
  hasDecisionRepo : Bool
  hasActionRepo : Bool
  hasGateway : Bool
  sessionId : String
  sha256 : String → String
  float : Decimal → PyFloat

/-- One order event that reached the order manager, with the order it resolved to and the
manager's decision, and what the calls made for it answer: `append`, `has_key`, `cancel_order`,
`gateway.submit` (whether the order was submitted) and `record`.
Source `joker/persistence/order_management_actions.py:80–87`. -/
structure OrderWork where
  clientOrderId : String
  triggerEventId : String
  projection : OrderProjection
  decision : OrderManagementDecision
  appended : Option PyException
  keyRead : Option PyException
  cancelled : Option PyException
  submitted : OrderActionRequest → Except PyException Bool
  keyWritten : Option PyException

/-- What became of a decision: skipped for its key in memory, skipped for its key in the table,
applied, or neither. -/
inductive DecisionOutcome where
  | duplicate
  | idempotentSkip
  | applied
  | notApplied
  deriving DecidableEq

/-- A decision that was handled. -/
structure HandledDecision where
  work : OrderWork
  outcome : DecisionOutcome

/-- `_order_decision_ids`, the table `order_management_action_keys`, and the decisions handled so
far, the last one first, which no code reads.
Source `joker/runtime/cognitive_agent_runtime.py:124`. -/
structure OrderDesk where
  orderDecisionIds : List String
  actionKeys : List OrderManagementActionRecord
  handled : List HandledDecision

namespace OrderWork

/-- `decision_key`. Source `joker/runtime/cognitive_agent_runtime.py:964`. -/
def decisionKey (work : OrderWork) : String :=
  work.clientOrderId ++ ":" ++ work.decision.action.value ++ ":" ++ work.decision.rationaleSummary

/-- `source_state`. Source `joker/runtime/cognitive_agent_runtime.py:989–993`. -/
def sourceState (work : OrderWork) : String :=
  OrderActionGateway.orTexts [work.projection.status, work.projection.eventType] "unknown"

/-- `make_order_management_action_key`.
Source `joker/persistence/order_management_actions.py:29–46`. -/
def actionKey (deps : OrderDeps) (work : OrderWork) : String :=
  deps.sha256 ("|".intercalate [work.decision.clientOrderId, work.sourceState,
    work.triggerEventId, work.decision.decisionId, work.decision.action.value])

/-- The row of an applied decision. -/
def record (deps : OrderDeps) (work : OrderWork) (replacement : Option String) :
    OrderManagementActionRecord :=
  { actionKey := work.actionKey deps
    sessionId := deps.sessionId
    sourceOrderId := work.decision.clientOrderId
    action := work.decision.action.value
    sourceOrderState := work.sourceState
    triggerEventId := work.triggerEventId
    decisionId := work.decision.decisionId
    replacementClientOrderId := replacement }

/-- `x or y` for an optional number. -/
def orNumber (x : Option ℤ) (y : ℤ) : ℤ :=
  match x with
  | none => y
  | some n => if n = 0 then y else n

/-- The quantity of a replacement. -/
def replacementQuantity (work : OrderWork) : ℤ :=
  let decision := work.decision
  let quantity := decision.newQuantity.getD (orNumber work.projection.quantity 1)
  if decision.action = .reduceQuantity then
    let openQuantity := orNumber work.projection.quantity quantity
    let remaining := max 0 (openQuantity - orNumber work.projection.filledQuantity 0)
    match decision.newQuantity with
    | some n => min n remaining
    | none => if 1 < remaining then max 1 (remaining / 2) else remaining
  else quantity

/-- The client order id of a replacement. -/
def replacementId (work : OrderWork) : String :=
  work.decision.clientOrderId ++ ":replace:" ++ work.decision.decisionId

/-- The request for a replacement. -/
def replacementRequest (deps : OrderDeps) (work : OrderWork) (contract : OptionContract) :
    OrderActionRequest :=
  let decision := work.decision
  let limit := (decision.newLimitPrice.map deps.float).or work.projection.limitPrice
  { action := .replace
    snapshotId := decision.snapshotId
    contractId := contractIdFor contract
    side := work.projection.side.getD .buy
    quantity := work.replacementQuantity
    clientOrderId := work.replacementId
    limitPrice := limit
    orderType := if limit.isSome = true then .limit else .market
    maxQuoteAgeSeconds := some 60
    proposalId := none
    decisionId := some decision.decisionId
    strategyId := none
    cycleId := some decision.cycleId
    replaceOfClientOrderId := some decision.clientOrderId
    allowDegradedExit := true
    degradedExitReason := none
    brokerAccountId := "default" }

/-- A decision to cancel, to replace or to reduce. -/
def Acts (work : OrderWork) : Prop := work.decision.action ≠ .continueWaiting

instance (work : OrderWork) : Decidable work.Acts :=
  inferInstanceAs (Decidable (_ ≠ _))

end OrderWork

namespace OrderDesk

/-- A process with an empty table. -/
def new : OrderDesk := ⟨[], [], []⟩

/-- A decision was handled. -/
def note (s : OrderDesk) (work : OrderWork) (outcome : DecisionOutcome) : OrderDesk :=
  { s with handled := ⟨work, outcome⟩ :: s.handled }

/-- `OrderManagementActionRepository.record`: a key that is there already stays, and the database
may raise. Source `joker/persistence/order_management_actions.py:89–118`. -/
def recordAction (deps : OrderDeps) (work : OrderWork) (replacement : Option String)
    (s : OrderDesk) : OrderDesk :=
  if deps.hasActionRepo = true ∧ work.keyWritten = none ∧
      work.actionKey deps ∉ s.actionKeys.map (·.actionKey) then
    { s with actionKeys := work.record deps replacement :: s.actionKeys }
  else s

/-- A cancellation; what `cancel_order` raises is logged. -/
def applyCancel (deps : OrderDeps) (work : OrderWork) (s : OrderDesk) : OrderDesk :=
  match work.cancelled with
  | some _ => s.note work .notApplied
  | none => (s.recordAction deps work none).note work .applied

/-- A replacement; what `gateway.submit` raises ends the work. -/
def applyReplace (deps : OrderDeps) (work : OrderWork) (s : OrderDesk) : OrderDesk :=
  if deps.hasGateway = false then s.note work .notApplied
  else match work.projection.contract with
  | none => s.note work .notApplied
  | some contract =>
    if work.decision.action = .reduceQuantity ∧ work.replacementQuantity ≤ 0 then
      s.note work .notApplied
    else
      match work.submitted (work.replacementRequest deps contract) with
      | .ok true => (s.recordAction deps work (some work.replacementId)).note work .applied
      | .ok false | .error _ => s.note work .notApplied

/-- `_apply_order_decision`. Source `joker/runtime/cognitive_agent_runtime.py:976–1117`. -/
def applyOrderDecision (deps : OrderDeps) (work : OrderWork) (s : OrderDesk) : OrderDesk :=
  if deps.hasRuntime = false ∨ work.decision.action = .continueWaiting then
    s.note work .notApplied
  else if deps.hasActionRepo = true ∧ work.keyRead ≠ none then
    s.note work .notApplied
  else if deps.hasActionRepo = true ∧
      work.actionKey deps ∈ s.actionKeys.map (·.actionKey) then
    s.note work .idempotentSkip
  else
    match work.decision.action with
    | .cancel | .abandon => s.applyCancel deps work
    | .replace | .reduceQuantity => s.applyReplace deps work
    | .continueWaiting => s.note work .notApplied

/-- `_run_order_work`, from the order manager's decision on.
Source `joker/runtime/cognitive_agent_runtime.py:883–974`. -/
def runOrderWork (deps : OrderDeps) (work : OrderWork) (s : OrderDesk) : OrderDesk :=
  if work.decisionKey ∈ s.orderDecisionIds then s.note work .duplicate
  else
    let s := { s with orderDecisionIds := work.decisionKey :: s.orderDecisionIds }
    if deps.hasDecisionRepo = true ∧ work.appended ≠ none then s.note work .notApplied
    else s.applyOrderDecision deps work

end OrderDesk

/-- What happens to the desk: a decision for an order, or the process starts again with an empty
memory. -/
inductive OrderDeskAction where
  | decided (work : OrderWork)
  | restarted

/-- One action. -/
def OrderDesk.step (deps : OrderDeps) (s : OrderDesk) : OrderDeskAction → OrderDesk
  | .decided work => s.runOrderWork deps work
  | .restarted => { s with orderDecisionIds := [] }

/-! ### The property -/

/-- A decision that acts and was skipped has an earlier one of the key it was skipped for that was
applied. -/
def HandledDecision.Justified (deps : OrderDeps) (h : HandledDecision)
    (earlier : List HandledDecision) : Prop :=
  h.work.Acts →
    (h.outcome = .duplicate →
      ∃ e ∈ earlier, e.work.decisionKey = h.work.decisionKey ∧ e.outcome = .applied) ∧
    (h.outcome = .idempotentSkip →
      ∃ e ∈ earlier, e.work.actionKey deps = h.work.actionKey deps ∧ e.outcome = .applied)

/-- No decision that acts was skipped for a failed one. -/
def SkipsOnlyApplied (deps : OrderDeps) : List HandledDecision → Prop
  | [] => True
  | h :: earlier => h.Justified deps earlier ∧ SkipsOnlyApplied deps earlier

/-! ### The condition -/

/-- Nothing fails while a decision is applied. -/
structure OrderWork.Works (deps : OrderDeps) (work : OrderWork) : Prop where
  hasRuntime : deps.hasRuntime = true
  appended : deps.hasDecisionRepo = true → work.appended = none
  keyRead : deps.hasActionRepo = true → work.keyRead = none
  action : match work.decision.action with
    | .continueWaiting => False
    | .cancel | .abandon => work.cancelled = none
    | .replace | .reduceQuantity => deps.hasGateway = true ∧
        (work.decision.action = .reduceQuantity → 0 < work.replacementQuantity) ∧
        ∃ contract ∈ work.projection.contract,
          work.submitted (work.replacementRequest deps contract) = .ok true

/-- A decision that acts does not come under a key that this process has in memory, unless an
earlier one of that key got past both keys and nothing failed for it. -/
def RepeatsOnlyWorking (deps : OrderDeps) (s : OrderDesk) : OrderDeskAction → Prop
  | .decided work => work.Acts → work.decisionKey ∈ s.orderDecisionIds →
      ∃ e ∈ s.handled, e.work.decisionKey = work.decisionKey ∧
        (e.outcome ≠ .duplicate ∧ e.outcome ≠ .idempotentSkip) ∧ e.work.Works deps
  | .restarted => True

/-! ### Handling a decision -/

/-- What handling a decision that is not in memory does. -/
structure OrderDesk.Handles (deps : OrderDeps) (work : OrderWork) (s s' : OrderDesk)
    (outcome : DecisionOutcome) : Prop where
  handled : s'.handled = ⟨work, outcome⟩ :: s.handled
  rows : ∀ row ∈ s'.actionKeys, row ∈ s.actionKeys ∨
    (outcome = .applied ∧ row.actionKey = work.actionKey deps)
  tried : outcome ≠ .duplicate
  known : outcome = .idempotentSkip → work.actionKey deps ∈ s.actionKeys.map (·.actionKey)
  works : outcome = .applied ↔ outcome ≠ .idempotentSkip ∧ work.Works deps

namespace OrderDesk

variable {deps : OrderDeps} {work : OrderWork} {s : OrderDesk}

/-- A decision for which something failed. -/
theorem handles_notApplied (h : ¬ work.Works deps) :
    Handles deps work s (s.note work .notApplied) .notApplied where
  handled := rfl
  rows := fun _ hrow ↦ .inl hrow
  tried := by decide
  known := nofun
  works := ⟨nofun, fun hworks ↦ absurd hworks.2 h⟩

/-- A decision for which nothing failed. -/
theorem handles_applied (h : work.Works deps) (replacement : Option String) :
    Handles deps work s ((s.recordAction deps work replacement).note work .applied) .applied where
  handled := by
    unfold recordAction
    split <;> rfl
  rows := by
    intro row hrow
    unfold recordAction at hrow
    split at hrow
    · rcases List.mem_cons.mp hrow with rfl | hold
      · exact .inr ⟨rfl, rfl⟩
      · exact .inl hold
    · exact .inl hrow
  tried := by decide
  known := nofun
  works := ⟨fun _ ↦ ⟨by decide, h⟩, fun _ ↦ rfl⟩

/-- A decision whose key is in the table. -/
theorem handles_idempotentSkip
    (h : work.actionKey deps ∈ s.actionKeys.map (·.actionKey)) :
    Handles deps work s (s.note work .idempotentSkip) .idempotentSkip where
  handled := rfl
  rows := fun _ hrow ↦ .inl hrow
  tried := by decide
  known := fun _ ↦ h
  works := ⟨nofun, fun hworks ↦ absurd rfl hworks.1⟩

/-- A cancellation is applied when `cancel_order` returns. -/
theorem handles_applyCancel (h : work.Works deps ↔ work.cancelled = none) :
    ∃ outcome, Handles deps work s (s.applyCancel deps work) outcome := by
  unfold applyCancel
  cases hcancelled : work.cancelled with
  | none => exact ⟨_, handles_applied (h.mpr hcancelled) none⟩
  | some e =>
    refine ⟨_, handles_notApplied fun hworks ↦ ?_⟩
    rw [h.mp hworks] at hcancelled
    cases hcancelled

/-- A replacement is applied when it has a contract and a quantity, and the gateway submits it. -/
theorem handles_applyReplace (h : work.Works deps ↔ deps.hasGateway = true ∧
      (work.decision.action = .reduceQuantity → 0 < work.replacementQuantity) ∧
      ∃ contract ∈ work.projection.contract,
        work.submitted (work.replacementRequest deps contract) = .ok true) :
    ∃ outcome, Handles deps work s (s.applyReplace deps work) outcome := by
  unfold applyReplace
  split
  · next hgateway =>
    refine ⟨_, handles_notApplied fun hworks ↦ ?_⟩
    exact absurd (hgateway.symm.trans (h.mp hworks).1) (by decide)
  · next hgateway =>
    cases hcontract : work.projection.contract with
    | none =>
      refine ⟨_, handles_notApplied fun hworks ↦ ?_⟩
      obtain ⟨_, _, contract, hmem, _⟩ := h.mp hworks
      rw [hcontract] at hmem
      cases hmem
    | some contract =>
      dsimp only
      split
      · next hzero =>
        refine ⟨_, handles_notApplied fun hworks ↦ ?_⟩
        exact absurd ((h.mp hworks).2.1 hzero.1) (not_lt.mpr hzero.2)
      · next hquantity =>
        split
        · next hsubmitted =>
          have hworks : work.Works deps := by
            refine h.mpr ⟨Bool.eq_true_of_not_eq_false hgateway, fun hreduce ↦ ?_, contract,
              hcontract, hsubmitted⟩
            by_contra hle
            exact hquantity ⟨hreduce, not_lt.mp hle⟩
          exact ⟨_, handles_applied hworks _⟩
        all_goals
          next hrefused =>
            refine ⟨_, handles_notApplied fun hworks ↦ ?_⟩
            obtain ⟨_, _, found, hmem, hsubmitted⟩ := h.mp hworks
            rw [hcontract] at hmem
            cases hmem
            rw [hrefused] at hsubmitted
            cases hsubmitted

/-- `_apply_order_decision`, after the decision was appended. -/
theorem handles_applyOrderDecision
    (happended : deps.hasDecisionRepo = true → work.appended = none) :
    ∃ outcome, Handles deps work s (s.applyOrderDecision deps work) outcome := by
  unfold applyOrderDecision
  split
  · next hidle =>
    refine ⟨_, handles_notApplied fun hworks ↦ ?_⟩
    rcases hidle with hnone | hwait
    · exact absurd (hnone.symm.trans hworks.hasRuntime) (by decide)
    · have haction := hworks.action
      rw [hwait] at haction
      exact haction
  · next hactive =>
    have hruntime : deps.hasRuntime = true :=
      Bool.eq_true_of_not_eq_false fun hnone ↦ hactive (.inl hnone)
    split
    · next hread =>
      exact ⟨_, handles_notApplied fun hworks ↦ hread.2 (hworks.keyRead hread.1)⟩
    · next hread =>
      have hread : deps.hasActionRepo = true → work.keyRead = none := by
        intro hrepo
        by_contra hne
        exact hread ⟨hrepo, hne⟩
      split
      · next hknown =>
        exact ⟨_, handles_idempotentSkip hknown.2⟩
      · cases haction : work.decision.action with
        | continueWaiting => exact absurd (.inr haction) hactive
        | cancel | abandon =>
          apply handles_applyCancel
          constructor
          · intro hworks
            simpa only [haction] using hworks.action
          · intro hcancelled
            exact ⟨hruntime, happended, hread, by simpa only [haction] using hcancelled⟩
        | replace | reduceQuantity =>
          apply handles_applyReplace
          constructor
          · intro hworks
            simpa only [haction] using hworks.action
          · intro hsubmitted
            exact ⟨hruntime, happended, hread, by simpa only [haction] using hsubmitted⟩

/-- `_run_order_work` of a decision that is not in memory. -/
theorem handles_runOrderWork (hnew : work.decisionKey ∉ s.orderDecisionIds) :
    ∃ outcome, Handles deps work s (s.runOrderWork deps work) outcome := by
  unfold runOrderWork
  rw [if_neg hnew]
  -- handling reads and writes neither key in memory
  have hids : ∀ {s' : OrderDesk} {outcome : DecisionOutcome},
      Handles deps work { s with orderDecisionIds := work.decisionKey :: s.orderDecisionIds } s'
        outcome → Handles deps work s s' outcome :=
    fun h ↦ ⟨h.handled, h.rows, h.tried, h.known, h.works⟩
  dsimp only
  split
  · next happended =>
    exact ⟨_, hids (handles_notApplied fun hworks ↦
      happended.2 (hworks.appended happended.1))⟩
  · next happended =>
    have happended : deps.hasDecisionRepo = true → work.appended = none := by
      intro hrepo
      by_contra hne
      exact happended ⟨hrepo, hne⟩
    obtain ⟨outcome, h⟩ := handles_applyOrderDecision happended
    exact ⟨outcome, hids h⟩

end OrderDesk

/-! ### Runs -/

/-- The rows of the table are of applied decisions, and the applied decisions are those that got
past both keys and for which nothing failed. -/
structure OrderDesk.Booked (deps : OrderDeps) (s : OrderDesk) : Prop where
  rows : ∀ row ∈ s.actionKeys, ∃ e ∈ s.handled,
    e.work.actionKey deps = row.actionKey ∧ e.outcome = .applied
  works : ∀ e ∈ s.handled, e.outcome = .applied ↔
    (e.outcome ≠ .duplicate ∧ e.outcome ≠ .idempotentSkip) ∧ e.work.Works deps

namespace OrderDesk

variable {deps : OrderDeps} {s : OrderDesk}

/-- Every action keeps the books. -/
theorem booked_step (h : s.Booked deps) (a : OrderDeskAction) : (s.step deps a).Booked deps := by
  cases a with
  | restarted => exact ⟨h.rows, h.works⟩
  | decided work =>
    by_cases hknown : work.decisionKey ∈ s.orderDecisionIds
    · have hstep : s.step deps (.decided work) = s.note work .duplicate := if_pos hknown
      rw [hstep]
      constructor
      · intro row hrow
        obtain ⟨e, he, hkey⟩ := h.rows row hrow
        exact ⟨e, List.mem_cons_of_mem _ he, hkey⟩
      · intro e he
        rcases List.mem_cons.mp he with rfl | he
        · exact ⟨nofun, fun hskip ↦ absurd rfl hskip.1.1⟩
        · exact h.works e he
    · obtain ⟨outcome, hhandles⟩ : ∃ outcome, Handles deps work s (s.runOrderWork deps work)
          outcome := handles_runOrderWork hknown
      constructor
      · intro row hrow
        rw [step, hhandles.handled]
        rcases hhandles.rows row hrow with hold | ⟨happlied, hkey⟩
        · obtain ⟨e, he, hkey⟩ := h.rows row hold
          exact ⟨e, List.mem_cons_of_mem _ he, hkey⟩
        · exact ⟨⟨work, outcome⟩, List.mem_cons_self, hkey.symm, happlied⟩
      · intro e he
        rw [step, hhandles.handled] at he
        rcases List.mem_cons.mp he with rfl | he
        · have hworks := hhandles.works
          have htried := hhandles.tried
          tauto
        · exact h.works e he

/-- An action keeps the property exactly when it meets the condition. -/
theorem skipsOnlyApplied_step (h : s.Booked deps) (hskips : SkipsOnlyApplied deps s.handled)
    (a : OrderDeskAction) :
    SkipsOnlyApplied deps (s.step deps a).handled ↔ RepeatsOnlyWorking deps s a := by
  cases a with
  | restarted => exact iff_of_true hskips trivial
  | decided work =>
    by_cases hknown : work.decisionKey ∈ s.orderDecisionIds
    · have hstep : s.step deps (.decided work) = s.note work .duplicate := if_pos hknown
      rw [hstep]
      constructor
      · rintro ⟨hjustified, -⟩ hacts -
        obtain ⟨e, he, hkey, happlied⟩ := (hjustified hacts).1 rfl
        exact ⟨e, he, hkey, (h.works e he).mp happlied⟩
      · intro hrepeats
        refine ⟨fun hacts ↦ ⟨fun _ ↦ ?_, nofun⟩, hskips⟩
        obtain ⟨e, he, hkey, hworks⟩ := hrepeats hacts hknown
        exact ⟨e, he, hkey, (h.works e he).mpr hworks⟩
    · refine iff_of_true ?_ fun _ hkey ↦ absurd hkey hknown
      obtain ⟨outcome, hhandles⟩ : ∃ outcome, Handles deps work s (s.runOrderWork deps work)
          outcome := handles_runOrderWork hknown
      rw [step, hhandles.handled]
      refine ⟨fun _ ↦ ⟨fun hduplicate ↦ absurd hduplicate hhandles.tried, fun hskip ↦ ?_⟩, hskips⟩
      obtain ⟨row, hrow, hkey⟩ := List.mem_map.mp (hhandles.known hskip)
      obtain ⟨e, he, hrowkey, happlied⟩ := h.rows row hrow
      exact ⟨e, he, hrowkey.trans hkey, happlied⟩

end OrderDesk

/-- In every state of a run the decisions that were skipped repeat applied ones, exactly when no
decision of the run repeats a key in memory under which every attempt failed. -/
theorem skipsOnlyApplied_iff (deps : OrderDeps) (xs : List OrderDeskAction) :
    (∀ pre, pre <+: xs → SkipsOnlyApplied deps (run (OrderDesk.step deps) .new pre).handled) ↔
      ∀ pre a, pre ++ [a] <+: xs →
        RepeatsOnlyWorking deps (run (OrderDesk.step deps) .new pre) a := by
  have hbooked : ∀ s a, OrderDesk.Booked deps s → True → OrderDesk.Booked deps (s.step deps a) :=
    fun s a h _ ↦ OrderDesk.booked_step h a
  have hskips : ∀ s a, OrderDesk.Booked deps s → SkipsOnlyApplied deps s.handled → True →
      (SkipsOnlyApplied deps (s.step deps a).handled ↔ RepeatsOnlyWorking deps s a) :=
    fun s a h hskips _ ↦ OrderDesk.skipsOnlyApplied_step h hskips a
  have hnew : OrderDesk.Booked deps OrderDesk.new := by
    constructor
    · intro row hrow
      cases hrow
    · intro e he
      cases he
  exact run_invariant_iff hbooked hskips xs (fun _ _ ↦ trivial) hnew trivial

/-! ### Samples -/

/-- A runtime with a table of actions. -/
def OrderDeps.sample : OrderDeps where
  hasRuntime := true
  hasDecisionRepo := true
  hasActionRepo := true
  hasGateway := true
  sessionId := "s"
  sha256 := fun text ↦ text
  float := PyFloat.mk

/-- The order manager decides to cancel an order on one of its events. -/
def cancelDecided (eventId decisionId : String) (cancelled : Option PyException) : OrderWork where
  clientOrderId := "c"
  triggerEventId := eventId
  projection :=
    { status := some "open", eventType := some "ORDER_ACCEPTED", side := some .buy,
      quantity := some 1, filledQuantity := none, limitPrice := none, contract := none }
  decision :=
    { decisionId := decisionId, cycleId := "cycle", snapshotId := "snapshot", clientOrderId := "c",
      action := .cancel, newLimitPrice := none, newQuantity := none,
      rationaleSummary := "stale" }
  appended := none
  keyRead := none
  cancelled := cancelled
  submitted := fun _ ↦ .ok false
  keyWritten := none

/-- A cancellation that failed is skipped when it is decided again for the next event. -/
theorem not_skipsOnlyApplied_cancelFailed :
    ¬ ∀ (deps : OrderDeps) (xs : List OrderDeskAction),
      ∀ pre, pre <+: xs → SkipsOnlyApplied deps (run (OrderDesk.step deps) .new pre).handled := by
  intro h
  have hskips := h .sample [.decided (cancelDecided "1" "d1" (some (brokerError "timeout"))),
    .decided (cancelDecided "2" "d2" none)] _ List.prefix_rfl
  obtain ⟨hjustified, -⟩ := hskips
  obtain ⟨e, he, -, happlied⟩ := (hjustified (by decide)).1 (by decide)
  obtain rfl := List.mem_singleton.mp he
  exact absurd happlied (by decide)

end Joker.Runtime
