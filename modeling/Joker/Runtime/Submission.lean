import Joker.Runtime.ExecutionRuntime

/-!
# Operations of a submission

Library `Runtime`. What the operations of `submit_execution_command` can do: a relation between
the worlds before and after an operation holds of all of them as soon as it holds of the
submitting stretch, of the ledger's queries and of the events a submission writes, and of all
code that leaves some part of the world alone. That part is the broker's orders, or the ledger.
The search by intent of a searchable broker misses none of its orders.
-/

namespace Joker.Runtime

open Joker.Base Joker.Ledger Joker.Broker

variable {β ω α γ : Type}

/-! ### The search by intent -/

section Search

variable [BrokerClient β ω]

private theorem leaves_askFinder {part : β → γ} (hr : ReadOnly part) (intentId : String)
    (answers : ω) :
    (askFinder intentId answers : BrokerM β _).Leaves part := by
  unfold askFinder
  split
  · next find h => exact hr.finder find h intentId answers
  · exact Coro.leaves_pure _

/-- Searching changes nothing that reading does not change. -/
theorem leaves_findBrokerOrderByIntent {part : β → γ} (hr : ReadOnly part) (intentId : String)
    (answers : ω) : (findBrokerOrderByIntent intentId answers : BrokerM β _).Leaves part := by
  unfold findBrokerOrderByIntent
  apply Coro.leaves_bind (hr.listOpenOrders answers)
  intro opened
  split
  · exact Coro.leaves_pure _
  · apply Coro.leaves_bind (leaves_askFinder hr intentId answers)
    intro found
    cases found with
    | some order => exact Coro.leaves_pure _
    | none => exact fun _ ↦ rfl

open SearchableBroker

variable [SearchableBroker β]

private theorem found_of_known {intentId : String} {answers : ω} {b b' : β}
    (hk : intentId ∈ known b) (h : (askFinder intentId answers).exec b = (b', .ok none)) :
    searchOrders intentId b' ≠ none := by
  have hb : known b' = known b := by
    have := leaves_askFinder readOnly intentId answers b
    rwa [h] at this
  rcases @searchable β ω _ _ with hmap | ⟨find, hf, hfind⟩
  · obtain ⟨map, hm, order, ho, hi⟩ := hmap b' intentId (hb ▸ hk)
    unfold searchOrders
    intro hn
    rw [hm] at hn
    exact List.find?_eq_none.mp hn order ho (decide_eq_true hi)
  · obtain ⟨order, ho⟩ := hfind b intentId hk answers
    unfold askFinder at h
    rw [Option.mem_def.mp hf] at h
    rw [h] at ho
    cases ho

/-- The search by intent misses no known order. -/
theorem not_known_of_find {intentId : String} {answers : ω} {b b' : β}
    (h : (findBrokerOrderByIntent intentId answers).exec b = (b', .ok none)) :
    intentId ∉ known b := by
  intro hk
  unfold findBrokerOrderByIntent at h
  rw [Coro.exec_bind] at h
  have hl := readOnly.listOpenOrders answers b
  generalize (BrokerClient.listOpenOrders answers).exec b = opened at h hl
  obtain ⟨b₁, opened⟩ := opened
  change known b₁ = known b at hl
  cases opened with
  | error e => cases h
  | ok opened =>
    simp only at h
    split at h
    · cases h
    · rw [Coro.exec_bind] at h
      cases hf : (askFinder intentId answers).exec b₁ with
      | mk b₂ found =>
        rw [hf] at h
        cases found with
        | error e => cases h
        | ok found =>
          cases found with
          | some order => cases h
          | none =>
            change (b₂, Except.ok (searchOrders intentId b₂)) = (b', .ok none) at h
            rw [Prod.mk.injEq, Except.ok.injEq] at h
            exact found_of_known (hl ▸ hk) hf h.2

end Search

/-- The submitting stretch submits exactly when the search finds nothing. -/
theorem broker_findOrSubmit [BrokerClient β ω] (rt : ExecutionRuntime)
    (command : ExecutionCommand) (answers : ω) (w : World β) :
    ((findOrSubmit rt command answers).exec w).1.broker =
      match (findBrokerOrderByIntent command.intent.intentId answers).exec w.broker with
      | (b, .ok none) => ((BrokerClient.submitOrder command.intent answers).exec b).1
      | (b, _) => b := by
  unfold findOrSubmit
  rw [Coro.exec_bind, exec_broker]
  cases (findBrokerOrderByIntent command.intent.intentId answers).exec w.broker with
  | mk b found =>
    cases found with
    | error e => rfl
    | ok found =>
      cases found with
      | some order => rfl
      | none =>
        simp only [Coro.exec_bind, Coro.exec_attempt, exec_broker]
        cases (BrokerClient.submitOrder command.intent answers).exec b with
        | mk b' outcome => cases outcome <;> rfl

/-! ### Code between await points -/

/-- A part of the broker, seen in the world. -/
def atWorld (part : β → γ) (w : World β) : γ := part w.broker

private theorem leaves_broker {part : β → γ} {c : BrokerM β α} (h : c.Leaves part) :
    (broker c).Leaves (atWorld part) := by
  intro w
  rw [exec_broker]
  exact h w.broker

/-- No broker touches the ledger. -/
theorem leaves_conn_broker (c : BrokerM β α) : (broker c).Leaves World.conn := by
  intro w
  rw [exec_broker]

/-- The submitting stretch leaves what the broker and the notes in the maps leave. -/
theorem leaves_findOrSubmit [BrokerClient β ω] {part : World β → γ}
    (hbroker : ∀ {α : Type} (c : BrokerM β α), (broker c).Leaves part)
    (hmaps : ∀ w clientToBroker, part { w with clientToBroker := clientToBroker } = part w)
    (rt : ExecutionRuntime) (command : ExecutionCommand) (answers : ω) :
    (findOrSubmit rt command answers : SyncM β _).Leaves part := by
  apply Coro.leaves_bind (hbroker _)
  intro found
  cases found with
  | some order => exact Coro.leaves_bind (fun w ↦ hmaps w _) (fun _ ↦ Coro.leaves_pure _)
  | none =>
    apply Coro.leaves_bind (Coro.leaves_attempt (hbroker _))
    intro outcome
    cases outcome with
    | ok order => exact Coro.leaves_bind (fun w ↦ hmaps w _) (fun _ ↦ Coro.leaves_pure _)
    | error e => exact Coro.leaves_pure _

/-- The submitting stretch does not touch the ledger. -/
theorem conn_findOrSubmit [BrokerClient β ω] (rt : ExecutionRuntime)
    (command : ExecutionCommand) (answers : ω) (w : World β) :
    ((findOrSubmit rt command answers).exec w).1.conn = w.conn :=
  leaves_findOrSubmit leaves_conn_broker (fun _ _ ↦ rfl) rt command answers w

/-! ### The lookups -/

section Lookups

variable [BrokerClient β ω] {part : World β → γ} {answers : ω}

/-- Asking the broker for an order leaves what its `get_order` leaves. -/
theorem leaves_getOrderIfMapped
    (hget : ∀ id, (broker (BrokerClient.getOrder id answers : BrokerM β _)).Leaves part)
    (id : Option String) : (getOrderIfMapped id answers : SyncM β _).Leaves part := by
  unfold getOrderIfMapped
  split
  · split
    · exact Coro.leaves_pure _
    · exact hget _
  · exact Coro.leaves_pure _

/-- The first lookup of a submission reads the map. -/
theorem leaves_mappedOrder
    (hget : ∀ id, (broker (BrokerClient.getOrder id answers : BrokerM β _)).Leaves part)
    (rt : ExecutionRuntime) (clientOrderId : String) :
    ((do
      let id ← Coro.atomic () (fun w ↦ (w, .ok ((w.clientToBroker rt.index).get? clientOrderId)))
      getOrderIfMapped id answers) : SyncM β (Option BrokerOrder)).Leaves part :=
  Coro.leaves_bind (fun _ ↦ rfl) (leaves_getOrderIfMapped hget)

/-- The second lookup notes the recovered id in the map. -/
theorem leaves_recoveredOrder
    (hget : ∀ id, (broker (BrokerClient.getOrder id answers : BrokerM β _)).Leaves part)
    (hmaps : ∀ w clientToBroker, part { w with clientToBroker := clientToBroker } = part w)
    (rt : ExecutionRuntime) (clientOrderId : String) (recovered : Option String) :
    ((do
      noteRecovered rt clientOrderId recovered
      getOrderIfMapped recovered answers) : SyncM β (Option BrokerOrder)).Leaves part := by
  apply Coro.leaves_bind
  · cases recovered with
    | some id => exact fun w ↦ hmaps w _
    | none => exact Coro.leaves_pure _
  · exact fun _ ↦ leaves_getOrderIfMapped hget _

end Lookups

/-- The lookups of a submission, and its notes in the maps, leave a part of the world as it
was. -/
structure Lookups [BrokerClient β ω] (part : World β → γ) : Prop where
  maps : ∀ w clientToBroker, part { w with clientToBroker := clientToBroker } = part w
  bus : ∀ w bus, part { w with bus := bus } = part w
  getOrder : ∀ id (answers : ω),
    (broker (BrokerClient.getOrder id answers : BrokerM β _)).Leaves part
  fillPrice : ∀ order (answers : ω), (broker (verifiedFillPrice order answers)).Leaves part

private theorem leaves_verifiedFillPrice [BrokerClient β ω] {part : β → γ} (hr : ReadOnly part)
    (order : BrokerOrder) (answers : ω) :
    (verifiedFillPrice order answers : BrokerM β _).Leaves part := by
  unfold verifiedFillPrice askFillPrice
  apply Coro.leaves_bind
  · split
    · next getter h => exact hr.fillPrice getter h order.orderId answers
    · exact Coro.leaves_pure _
  · intro price
    cases price with
    | some price => exact Coro.leaves_pure _
    | none => exact fun _ ↦ rfl

/-- Lookups leave what reading leaves. -/
theorem Lookups.of_readOnly [BrokerClient β ω] {part : β → γ} (hr : ReadOnly part) :
    Lookups (atWorld part) where
  maps _ _ := rfl
  bus _ _ := rfl
  getOrder id answers := leaves_broker (hr.getOrder id answers)
  fillPrice order answers := leaves_broker (leaves_verifiedFillPrice hr order answers)

/-- Lookups leave the ledger. -/
theorem Lookups.conn [BrokerClient β ω] : Lookups (World.conn : World β → Conn) where
  maps _ _ := rfl
  bus _ _ := rfl
  getOrder _ _ := leaves_conn_broker _
  fillPrice _ _ := leaves_conn_broker _

/-! ### Coroutines -/

/-- The fields of the events that a submission of a command may write. -/
inductive WrittenFor (rt : ExecutionRuntime) (command : ExecutionCommand) : EventFields → Prop where
  | requested (stamp : Stamp) : WrittenFor rt command (requestedFields rt command stamp)
  | accepted (order : BrokerOrder) (stamp : Stamp) :
      WrittenFor rt command (acceptedFields rt command order stamp)
  | rejected (e : PyException) (stamp : Stamp) :
      WrittenFor rt command (rejectedFields rt command e stamp)
  | filled (order : BrokerOrder) (price qty : Decimal) (stamp : Stamp) :
      WrittenFor rt command (fillFields rt order command.clientOrderId price qty true stamp)

/-- A relation that all operations but the submitting stretch obey: code that leaves the part
alone, the ledger's queries, and recording the events in `Written`. -/
structure AllowsRest [BrokerClient β ω] (part : World β → γ) (Written : EventFields → Prop)
    (R : RuntimeOp ω → World β → World β → Prop) : Prop where
  stretch : ∀ label w w', label.submits = false → part w' = part w → R label w w'
  query : ∀ p, (ledger (query p) : RuntimeM β ω _).Steps R
  record : ∀ stamp fields, Written fields → (record stamp fields : RuntimeM β ω _).Steps R

section Steps

variable {part : World β → γ} {Written : EventFields → Prop}
  {R : RuntimeOp ω → World β → World β → Prop}

/-- An operation of the store on the connection is one on the world. -/
theorem steps_ledger {c : StoreM LedgerError α}
    (h : c.Steps (fun op conn conn' ↦
      ∀ w, w.conn = conn → R (.store op) w { w with conn := conn' })) :
    (ledger c : RuntimeM β ω α).Steps R := by
  apply Coro.steps_handle
  · exact Coro.steps_zoom h
  · exact fun e ↦ Coro.steps_raise _

/-- What holds of the `append` holds of recording its event. -/
theorem steps_record {stamp : Stamp} {fields : EventFields}
    (h : ∀ e, e.toEventFields = fields →
      (ledger (append e stamp.faults) : RuntimeM β ω _).Steps R) :
    (record stamp fields : RuntimeM β ω _).Steps R := by
  unfold record
  split
  · exact Coro.steps_raise _
  · next e he =>
    exact Coro.steps_bind (h e (makeLedgerEvent_eq_some he)) (fun _ ↦ Coro.steps_pure _)

variable [BrokerClient β ω]

/-- A relation that the broker's part decides allows everything a submission writes. -/
theorem AllowsRest.of_broker {part : β → γ} (h : ∀ label w w', label.submits = false →
    part w'.broker = part w.broker → R label w w') : AllowsRest (atWorld part) Written R where
  stretch := h
  query _ := by
    apply steps_ledger
    apply Coro.steps_of_forall
    exact fun _ _ _ w _ ↦ h _ w _ rfl rfl
  record _ _ _ := by
    apply steps_record
    intro e _
    apply steps_ledger
    apply Coro.steps_of_forall
    exact fun _ _ _ w _ ↦ h _ w _ rfl rfl

private theorem steps_sync (hR : AllowsRest part Written R) {label : RuntimeOp ω}
    (hl : label.submits = false) {c : SyncM β α} (h : c.Leaves part) : (sync label c).Steps R := by
  apply Coro.steps_handle
  · exact Coro.steps_whole (fun w ↦ hR.stretch label w _ hl (h w))
  · exact fun e ↦ Coro.steps_raise _

private theorem steps_publish (hp : Lookups part) (hR : AllowsRest part Written R)
    (rt : ExecutionRuntime) (eventType : EventType) (clientOrderId : String) (t : Datetime)
    (extra : World β → List (String × PayloadValue)) :
    (publishOrderEvent rt eventType clientOrderId t extra : RuntimeM β ω Unit).Steps R :=
  Coro.steps_atomic (fun w ↦ hR.stretch _ w _ rfl (hp.bus w _))

private theorem steps_restoreOrderMappings (hp : Lookups part) (hR : AllowsRest part Written R)
    (rt : ExecutionRuntime) : (restoreOrderMappings rt : RuntimeM β ω _).Steps R := by
  apply Coro.steps_bind (hR.query _)
  intro events
  apply Coro.steps_bind
  · exact steps_sync hR (by rfl) (fun w ↦ hp.maps w _)
  · exact fun _ ↦ Coro.steps_pure _

private theorem steps_projectSession [DecimalContext] (hR : AllowsRest part Written R)
    (rt : ExecutionRuntime) :
    (projectSession rt : RuntimeM β ω _).Steps R := by
  apply Coro.steps_bind (hR.query _)
  intro events
  split
  · exact Coro.steps_pure _
  · exact Coro.steps_raise _

private theorem steps_publishTransitions (hp : Lookups part) (hR : AllowsRest part Written R)
    (rt : ExecutionRuntime) (before after : ProjectionState) (clientOrderId : String)
    (t : Datetime) (ids : List String) :
    (publishTransitions rt before after clientOrderId t ids : RuntimeM β ω Unit).Steps R := by
  induction ids with
  | nil => exact Coro.steps_pure _
  | cons contractId rest ih =>
    apply Coro.steps_bind _ (fun _ ↦ ih)
    cases positionTransition before after contractId with
    | some published => exact steps_publish hp hR _ _ _ _ _
    | none => exact Coro.steps_pure _

/-- Recording a fill obeys the relation when its event may be written. -/
theorem steps_recordVerifiedFill [DecimalContext] (hp : Lookups part)
    (hR : AllowsRest part Written R)
    (rt : ExecutionRuntime) (order : BrokerOrder) (clientOrderId : String) (price : Decimal)
    (qty : Option Decimal) (final : Bool) (stamp : Stamp)
    (hw : Written (fillFields rt order clientOrderId price (qty.getD (Decimal.ofInt order.quantity))
      final stamp)) :
    (recordVerifiedFill rt order clientOrderId price qty final stamp :
      RuntimeM β ω _).Steps R := by
  apply Coro.steps_bind (steps_projectSession hR rt)
  intro before
  apply Coro.steps_bind
  · exact steps_sync hR (by rfl) (fun w ↦ hp.maps w _)
  intro _
  apply Coro.steps_bind (hR.record _ _ hw)
  rintro ⟨e, written⟩
  cases written with
  | true =>
    apply Coro.steps_bind (steps_publish hp hR _ _ _ _ _)
    intro _
    apply Coro.steps_bind (steps_projectSession hR rt)
    intro after
    apply Coro.steps_bind (steps_publishTransitions hp hR _ _ _ _ _ _)
    exact fun _ ↦ Coro.steps_pure _
  | false => exact Coro.steps_pure _

private theorem steps_resolveExistingSubmission (hp : Lookups part)
    (hR : AllowsRest part Written R) (rt : ExecutionRuntime) (clientOrderId : String)
    (first second : ω) :
    (resolveExistingSubmission rt clientOrderId first second : RuntimeM β ω _).Steps R := by
  apply Coro.steps_bind
  · exact steps_sync hR (by rfl) (leaves_mappedOrder (hp.getOrder · first) rt clientOrderId)
  · intro mapped
    cases mapped with
    | some order => exact Coro.steps_pure _
    | none =>
      apply Coro.steps_bind (hR.query _)
      intro events
      exact steps_sync hR (by rfl)
        (leaves_recoveredOrder (hp.getOrder · second) hp.maps rt clientOrderId _)

private theorem steps_read (hR : AllowsRest part Written R) (order : BrokerOrder) :
    (sync .read (Coro.atomic () (fun w ↦ (w, .ok (currentOrder order w.broker)))) :
      RuntimeM β ω BrokerOrder).Steps R :=
  steps_sync hR (by rfl) (fun _ ↦ rfl)

variable {rt : ExecutionRuntime} {command : ExecutionCommand}

private theorem steps_finishPlaced [DecimalContext] (hp : Lookups part)
    (hR : AllowsRest part (WrittenFor rt command) R) (order : BrokerOrder)
    (inputs : SubmitInputs ω) :
    (finishPlaced rt command order inputs : RuntimeM β ω _).Steps R := by
  apply Coro.steps_bind
  · apply steps_sync hR (by rfl)
    apply Coro.leaves_bind (fun _ ↦ rfl)
    intro now
    split
    · exact hp.fillPrice order inputs.price
    · exact Coro.leaves_pure _
  · intro price
    cases price with
    | some price =>
      apply Coro.steps_bind (steps_recordVerifiedFill hp hR _ _ _ _ _ _ _ (.filled _ _ _ _))
      exact fun _ ↦ steps_read hR order
    | none => exact steps_read hR order

/-- A relation holds of all operations of `submit_execution_command` when it holds of the
submitting stretch and allows the rest. -/
theorem steps_submitExecutionCommand [DecimalContext] (hp : Lookups part)
    (hR : AllowsRest part (WrittenFor rt command) R) (inputs : SubmitInputs ω)
    (hsubmit : ∀ w, R (.submit command.intent inputs.submission) w
      ((findOrSubmit rt command inputs.submission).exec w).1) :
    (submitExecutionCommand rt command inputs : RuntimeM β ω BrokerOrder).Steps R := by
  apply Coro.steps_bind (steps_restoreOrderMappings hp hR _)
  intro _
  apply Coro.steps_bind (steps_resolveExistingSubmission hp hR _ _ _ _)
  intro existing
  cases existing with
  | some order => exact Coro.steps_pure _
  | none =>
    apply Coro.steps_bind (hR.record _ _ (.requested _))
    intro _
    apply Coro.steps_bind (steps_publish hp hR _ _ _ _ _)
    intro _
    apply Coro.steps_bind
    · apply Coro.steps_handle (Coro.steps_whole hsubmit)
      exact fun e ↦ Coro.steps_raise _
    · intro submission
      cases submission with
      | recovered order =>
        exact Coro.steps_bind (hR.record _ _ (.accepted _ _)) (fun _ ↦ steps_read hR order)
      | refused e =>
        apply Coro.steps_bind (hR.record _ _ (.rejected _ _))
        intro _
        exact Coro.steps_bind (steps_publish hp hR _ _ _ _ _) (fun _ ↦ Coro.steps_raise _)
      | placed order =>
        apply Coro.steps_bind (hR.record _ _ (.accepted _ _))
        intro _
        apply Coro.steps_bind (steps_publish hp hR _ _ _ _ _)
        exact fun _ ↦ steps_finishPlaced hp hR _ _

end Steps

/-! ### The last operation -/

section LastOperation

private theorem endsWith_sync {label : RuntimeOp ω} {c : SyncM β α} {part : World β → γ}
    (h : c.Leaves part) : (sync label c).EndsWith (fun w w' _ ↦ part w' = part w) := by
  apply Coro.endsWith_handle_raise
  exact Coro.endsWith_atomic (fun w _ _ ↦ h w)

private theorem endsWith_read [BrokerClient β ω] (order : BrokerOrder) :
    (sync .read (Coro.atomic () (fun w ↦ (w, .ok (currentOrder order w.broker)))) :
      RuntimeM β ω BrokerOrder).EndsWith (fun w w' _ ↦ w'.conn = w.conn) :=
  endsWith_sync (fun _ ↦ rfl)

private theorem isValue_record (stamp : Stamp) (fields : EventFields)
    (k : LedgerEvent × Bool → RuntimeM β ω α) : (record stamp fields >>= k).isValue = false := by
  unfold record
  cases makeLedgerEvent fields <;> rfl

variable [BrokerClient β ω]

private theorem endsWith_resolveExistingSubmission (rt : ExecutionRuntime)
    (clientOrderId : String) (first second : ω) :
    (resolveExistingSubmission rt clientOrderId first second : RuntimeM β ω _).EndsWith
      (fun w w' _ ↦ w'.conn = w.conn) := by
  apply Coro.endsWith_bind
  · apply Coro.endsWith_handle_raise
    exact Coro.endsWith_atomic
      (fun w _ _ _ _ ↦ leaves_mappedOrder (fun _ ↦ leaves_conn_broker _) rt clientOrderId w)
  · intro mapped
    cases mapped with
    | some order => exact Coro.endsWith_pure _
    | none =>
      apply Coro.endsWith_then (fun _ ↦ rfl)
      intro events
      exact endsWith_sync (leaves_recoveredOrder (fun _ ↦ leaves_conn_broker _) (fun _ _ ↦ rfl) rt
        clientOrderId _)

private theorem endsWith_finishPlaced [DecimalContext] (rt : ExecutionRuntime)
    (command : ExecutionCommand) (order : BrokerOrder) (inputs : SubmitInputs ω) :
    (finishPlaced rt command order inputs : RuntimeM β ω _).EndsWith
      (fun w w' _ ↦ w'.conn = w.conn) := by
  apply Coro.endsWith_then
  · intro price
    cases price <;> rfl
  · intro price
    cases price with
    | some price =>
      apply Coro.endsWith_then (fun _ ↦ rfl)
      exact fun _ ↦ endsWith_read order
    | none => exact endsWith_read order

/-- The last operation of a submission that returns an order leaves the ledger as it was. -/
theorem endsWith_submitExecutionCommand [DecimalContext] (rt : ExecutionRuntime)
    (command : ExecutionCommand) (inputs : SubmitInputs ω) :
    (submitExecutionCommand rt command inputs : RuntimeM β ω BrokerOrder).EndsWith
      (fun w w' _ ↦ w'.conn = w.conn) := by
  apply Coro.endsWith_then (fun _ ↦ rfl)
  intro _
  apply Coro.endsWith_bind
  · -- An order that exists already is returned by the lookup.
    exact Coro.endsWith_mono (fun _ _ _ h _ _ ↦ h)
      (endsWith_resolveExistingSubmission rt command.clientOrderId _ _)
  · intro existing
    cases existing with
    | some order => exact Coro.endsWith_pure _
    | none =>
      apply Coro.endsWith_then (fun _ ↦ rfl)
      intro _
      apply Coro.endsWith_then (fun _ ↦ rfl)
      intro _
      apply Coro.endsWith_then
      · intro submission
        cases submission <;> exact isValue_record _ _ _
      · intro submission
        cases submission with
        | recovered order =>
          apply Coro.endsWith_then (fun _ ↦ rfl)
          exact fun _ ↦ endsWith_read order
        | refused e =>
          apply Coro.endsWith_then (fun _ ↦ rfl)
          intro _
          apply Coro.endsWith_then (fun _ ↦ rfl)
          exact fun _ ↦ Coro.endsWith_raise _
        | placed order =>
          apply Coro.endsWith_then (fun _ ↦ rfl)
          intro _
          apply Coro.endsWith_then (fun _ ↦ rfl)
          exact fun _ ↦ endsWith_finishPlaced rt command order inputs

end LastOperation

end Joker.Runtime
