import Joker.Base.LevelChanges
import Joker.Ledger.FillTally
import Joker.Runtime.ClockedSession
import Joker.Runtime.OrderUpdates

/-!
# Position events

Library `Runtime`. What the published position events tell of a session's positions. Events are
derived from the projections before and after each fill, so they tell of the projection as long
as nothing else moves a position. In a session whose rows sort as they were recorded, only a
fill does.
-/

namespace Joker.Runtime

open Joker.Base Joker.Ledger Joker.Broker LevelChange

variable {β ω α : Type}

/-! ### The stream -/

/-- What a published event announces of a contract's position in a session. -/
def changeOf (sessionId contractId : String) (e : DomainEvent) : Option (LevelChange ℚ) :=
  if e.sessionId = sessionId ∧ e.extra.lookup "contract_id" = some (.text contractId) then
    match e.eventType, e.extra.lookup "quantity" with
    | .positionOpened, some (.amount quantity) => some (.opened quantity)
    | .positionChanged, some (.amount quantity) => some (.changed quantity)
    | .positionClosed, _ => some .closed
    | _, _ => none
  else none

/-- The announced changes of a contract's position. -/
def positionChanges (sessionId contractId : String) (bus : List DomainEvent) :
    List (LevelChange ℚ) :=
  bus.filterMap (changeOf sessionId contractId)

/-- The session has a projection, for every contract the published position events fold to its
quantity there, and openings and closings alternate. -/
def EventsReplay [DecimalContext] (rt : ExecutionRuntime) (w : World β) : Prop :=
  ∃ state, project (w.conn.query (fun e ↦ e.sessionId = rt.sessionId)) = .ok state ∧
    ∀ c, folded (positionChanges rt.sessionId c w.bus) = projectedQuantity state c ∧
      Alternating (positionChanges rt.sessionId c w.bus)

/-- The types of the position events. -/
def EventType.isPosition : EventType → Bool
  | .positionOpened | .positionChanged | .positionClosed => true
  | _ => false

/-- Other events announce nothing of a position. -/
theorem changeOf_of_not_position {sessionId contractId : String} {e : DomainEvent}
    (h : e.eventType.isPosition = false) : changeOf sessionId contractId e = none := by
  unfold changeOf
  split
  · revert h
    cases e.eventType <;> simp [EventType.isPosition]
  · rfl

private theorem changeOf_transition (rt : ExecutionRuntime) (before after : ProjectionState)
    (clientOrderId c k : String) (t : Datetime) :
    ((positionTransition before after k).map
        (fun p ↦ (⟨p.1, rt.sessionId, t, clientOrderId, p.2⟩ : DomainEvent))).bind
          (changeOf rt.sessionId c) =
      if k = c then between (projectedQuantity before k) (projectedQuantity after k) else none := by
  unfold positionTransition between
  by_cases hopen : projectedQuantity before k = 0 ∧ projectedQuantity after k ≠ 0
  · simp [hopen, changeOf, List.lookup_cons]
  · by_cases hclosed : projectedQuantity before k ≠ 0 ∧ projectedQuantity after k = 0
    · simp [hclosed, changeOf]
    · simp only [if_neg hopen, if_neg hclosed]
      by_cases hchanged : projectedQuantity before k ≠ projectedQuantity after k
      · simp [hchanged, changeOf, List.lookup_cons]
      · simp [hchanged]

private theorem projectedQuantity_of_not_mem {state : ProjectionState} {c : String}
    (h : c ∉ state.positions.keys) : projectedQuantity state c = 0 := by
  unfold projectedQuantity
  rw [(Dict.not_mem_keys_iff _ _).mp h]
  rfl

private theorem nodup_transitionIds (before after : ProjectionState) :
    (transitionIds before after).Nodup := by
  unfold transitionIds
  apply List.Nodup.append before.positions.nodup
  · exact List.Nodup.filter _ after.positions.nodup
  · intro k hk hk'
    have hno : k ∉ before.positions.keys := by simpa using (List.mem_filter.mp hk').2
    exact hno hk

/-- All transitions together announce of a contract the step between its quantities. -/
theorem changes_transitionEvents (rt : ExecutionRuntime) (before after : ProjectionState)
    (clientOrderId c : String) (t : Datetime) :
    positionChanges rt.sessionId c (transitionEvents rt before after clientOrderId t
        (transitionIds before after)) =
      (between (projectedQuantity before c) (projectedQuantity after c)).toList := by
  unfold positionChanges transitionEvents
  rw [List.filterMap_filterMap]
  simp only [changeOf_transition]
  rw [filterMap_eq_of_ne (k := c) (nodup_transitionIds before after)
    (fun k _ hk ↦ if_neg hk), if_pos rfl]
  split
  · rfl
  · next hno =>
    have hbefore : c ∉ before.positions.keys :=
      fun hk ↦ hno (List.mem_append_left _ hk)
    have hafter : c ∉ after.positions.keys := by
      intro hk
      apply hno
      apply List.mem_append_right
      rw [List.mem_filter]
      exact ⟨hk, by simpa using hbefore⟩
    rw [projectedQuantity_of_not_mem hbefore, projectedQuantity_of_not_mem hafter, between_self]
    rfl

/-! ### The assertion -/

/-- The quantity of a contract when the rows are replayed. -/
def replayedQuantity [DecimalContext] (rows : List LedgerEvent) (c : String) : ℚ :=
  ((run Replay.next Replay.start rows).tables.position c).quantity

/-- Rows without corrections have a projection, with the replayed quantities. -/
theorem project_of_plain [DecimalContext] {rows : List LedgerEvent}
    (h : ∀ e ∈ rows, e.NotCorrection) :
    ∃ state, project rows = .ok state ∧
      ∀ c, projectedQuantity state c = replayedQuantity rows c := by
  refine ⟨(run Replay.next Replay.start rows).freeze, ?_, ?_⟩
  · exact project_eq_ok.mpr ⟨_, replay_eq_run Replay.start rows h, rfl⟩
  · intro c
    unfold projectedQuantity replayedQuantity Replay.freeze Tables.position ensurePosition
    simp only
    rw [get?_frozenPositions]
    cases (run Replay.next Replay.start rows).tables.positions.get? c <;> rfl

/-- Only a fill moves a position. -/
theorem replayedQuantity_snoc_of_not_fill [DecimalContext] {rows : List LedgerEvent}
    {e : LedgerEvent} (hc : e.NotCorrection) (hf : e.isFill = false) (c : String) :
    replayedQuantity (rows ++ [e]) c = replayedQuantity rows c := by
  unfold replayedQuantity
  rw [run_snoc]
  by_cases hfresh : (run Replay.next Replay.start rows).Fresh e
  · have happly := applyEvent_next hc hfresh
    exact quantity_of_holding (holding_applyEvent_of_not_fill hc hf happly c)
  · rw [next_of_not_fresh hfresh]

/-- The session is in clock order and without corrections, and the published events tell of its
positions. -/
structure Announced [DecimalContext] (rt : ExecutionRuntime) (future : List Stamp) (w : World β) :
    Prop
    extends InTime rt future w where
  plain : ∀ row ∈ ownRows rt w, row.NotCorrection
  tells : ∀ c, Tells (positionChanges rt.sessionId c w.bus) (replayedQuantity (ownRows rt w) c)

/-- The assertion, with the stamps to come. -/
def announced [DecimalContext] (β : Type) (rt : ExecutionRuntime) : LookAhead Stamp (World β) where
  holds := Announced rt
  skip hsub h := ⟨h.toInTime.skip hsub, h.plain, h.tells⟩

variable {rt : ExecutionRuntime} {stamp : Stamp} {taken future : List Stamp} {w w' : World β}

/-- The assertion speaks of the ledger and the published events. -/
theorem Announced.of_seen [DecimalContext] (h : Announced rt future w) (hconn : w'.conn = w.conn)
    (hbus : w'.bus = w.bus) : Announced rt future w' := by
  have hrows : ownRows rt w' = ownRows rt w := by
    unfold ownRows
    rw [hconn]
  refine ⟨h.toInTime.of_conn hconn, ?_, ?_⟩
  · rw [hrows]
    exact h.plain
  · rw [hrows, hbus]
    exact h.tells

/-- Events that announce nothing may be published. -/
theorem Announced.publish [DecimalContext] (h : Announced rt future w) {e : DomainEvent}
    (he : e.eventType.isPosition = false) :
    Announced rt future { w with bus := w.bus ++ [e] } := by
  refine ⟨h.toInTime.of_conn rfl, h.plain, ?_⟩
  intro c
  unfold positionChanges
  rw [List.filterMap_append, List.filterMap_cons, changeOf_of_not_position he,
    List.filterMap_nil, List.append_nil]
  exact h.tells c

private theorem plain_append [DecimalContext] {e : LedgerEvent} (h : Announced rt future w)
    (hc : e.NotCorrection)
    (hrows : ownRows rt w' = ownRows rt w ++ [e]) : ∀ row ∈ ownRows rt w', row.NotCorrection := by
  intro row hrow
  rw [hrows] at hrow
  rcases List.mem_append.mp hrow with hrow | hrow
  · exact h.plain row hrow
  · rw [List.mem_singleton.mp hrow]
    exact hc

/-- An event that is neither a fill nor a correction may be recorded. -/
theorem Announced.append [DecimalContext] (h : Announced rt (stamp :: future) w) {e : LedgerEvent}
    (he : Stamped rt stamp e.toEventFields) (hc : e.NotCorrection) (hf : e.isFill = false) :
    Announced rt future { w with conn := .ofRows (w.conn.rows ++ [e]) } := by
  have hrows := @ownRows_append β rt w { w with conn := .ofRows (w.conn.rows ++ [e]) } e
    he.session rfl
  refine ⟨h.toInTime.append he rfl, plain_append h hc hrows, ?_⟩
  intro c
  rw [hrows, replayedQuantity_snoc_of_not_fill hc hf]
  exact h.tells c

/-! ### Steps -/

/-- What the assertion speaks of. -/
def seen (w : World β) : Conn × List DomainEvent := (w.conn, w.bus)

/-- Code that leaves the ledger and the published events alone. -/
theorem spends_of_leaves [DecimalContext] {c : RuntimeM β ω α} (h : c.Leaves seen) :
    c.Spends (announced β rt) taken := by
  apply Coro.spends_of_kept
  intro ys w hw
  have hseen := Prod.mk.inj (h w)
  exact hw.of_seen hseen.1 hseen.2

private theorem spends_publish [DecimalContext] {eventType : EventType}
    (h : eventType.isPosition = false)
    (clientOrderId : String) (t : Datetime) (extra : World β → List (String × PayloadValue)) :
    (publishOrderEvent rt eventType clientOrderId t extra : RuntimeM β ω Unit).Spends
      (announced β rt) taken := by
  apply Coro.spends_of_kept
  intro ys w hw
  exact hw.publish h

/-- The step of an event that is no fill. -/
theorem spends_record [DecimalContext] {fields : EventFields} (hs : Stamped rt stamp fields)
    (hc : fields.eventType ≠ .reconciliationCorrection)
    (hf : fields.eventType ≠ .partialFill ∧ fields.eventType ≠ .finalFill) :
    (record stamp fields : RuntimeM β ω _).Spends (announced β rt) [stamp] := by
  intro ys w hw
  rcases @record_cases β ω w hw.settled stamp fields with hsame | ⟨e, rfl, -, hadd⟩
  · rw [hsame]
    exact (announced β rt).skip (List.sublist_append_right [stamp] ys) hw
  · rw [hadd]
    apply Announced.append hw hs hc
    simp [LedgerEvent.isFill, hf.1, hf.2]

/-- The step of a fill: it is announced with what it moved. -/
theorem spends_recordVerifiedFill [DecimalContext] (order : BrokerOrder) (clientOrderId : String)
    (price : Decimal) (fillQty : Option Decimal) (final : Bool) :
    (recordVerifiedFill rt order clientOrderId price fillQty final stamp :
      RuntimeM β ω _).Spends (announced β rt) [stamp] := by
  suffices h : ∀ qty, (recordVerifiedFill rt order clientOrderId price (some qty) final stamp :
      RuntimeM β ω _).Spends (announced β rt) [stamp] by
    cases fillQty with
    | some qty => exact h qty
    | none => exact h (Decimal.ofInt order.quantity)
  intro qty ys w hw
  obtain ⟨before, hbefore, hquantity⟩ := project_of_plain hw.plain
  rw [← hw.toInTime.query] at hbefore
  rcases @recordVerifiedFill_cases β ω rt stamp w _ order clientOrderId price qty final before
    _ hw.settled hbefore rfl with ⟨hconn, hbus, -⟩ | ⟨e, he, -, hconn, hbus⟩
  · exact ((announced β rt).skip (List.sublist_append_right [stamp] ys) hw).of_seen hconn hbus
  · have hs : Stamped rt stamp e.toEventFields := he ▸ ⟨rfl, rfl, rfl, rfl⟩
    have hc : e.NotCorrection := by
      unfold LedgerEvent.NotCorrection
      rw [he]
      cases final <;> exact nofun
    have hrows := ownRows_append hs.session hconn
    have hplain := plain_append hw hc hrows
    have htime := hw.toInTime.append hs hconn
    obtain ⟨after, hafter, hquantity'⟩ := project_of_plain hplain
    refine ⟨htime, hplain, ?_⟩
    intro c
    rw [hbus after (htime.query ▸ hafter)]
    have hfilled : changeOf rt.sessionId c
        (filledEvent rt order clientOrderId price qty final stamp.now) = none := by
      apply changeOf_of_not_position
      cases final <;> rfl
    have hchanges := changes_transitionEvents rt before after clientOrderId c stamp.now
    unfold positionChanges at hchanges ⊢
    rw [List.filterMap_append, List.filterMap_cons, hfilled, hchanges, hquantity, hquantity']
    exact (hw.tells c).between _

private theorem spends_recordEnd [DecimalContext] {fields : EventFields} {published : EventType}
    (hp : published.isPosition = false) (hs : Stamped rt stamp fields)
    (hc : fields.eventType ≠ .reconciliationCorrection)
    (hf : fields.eventType ≠ .partialFill ∧ fields.eventType ≠ .finalFill) (clientId : String) :
    (recordEnd rt clientId published stamp (some fields) : RuntimeM β ω _).Spends
      (announced β rt) [stamp] := by
  apply Coro.spends_bind [stamp] [] (spends_record hs hc hf)
  rintro ⟨e, written⟩
  cases written with
  | true =>
    apply Coro.spends_then (spends_publish hp _ _ _)
    exact fun _ ↦ Coro.spends_pure _
  | false => exact Coro.spends_pure _

/-! ### Calls -/

private theorem leaves_sync {γ : Type} {part : World β → γ} {label : RuntimeOp ω} {c : SyncM β α}
    (h : c.Leaves part) : (sync label c : RuntimeM β ω α).Leaves part := by
  intro w
  unfold sync
  rw [Coro.exec_handle, Coro.exec_whole]
  have hw := h w
  rcases hc : c.exec w with ⟨w', result⟩
  rw [hc] at hw
  cases result <;> exact hw

private theorem leaves_broker_seen (c : BrokerM β α) : (broker c).Leaves seen := by
  intro w
  rw [exec_broker]
  rfl

private theorem leaves_getBySession (sessionId : String) :
    (ledger (getBySession sessionId) : RuntimeM β ω _).Leaves seen := by
  intro w
  rw [exec_ledger]
  rfl

private theorem leaves_restoreOrderMappings (rt : ExecutionRuntime) :
    (restoreOrderMappings rt : RuntimeM β ω _).Leaves seen := by
  apply Coro.leaves_bind (leaves_getBySession _)
  intro events
  exact Coro.leaves_bind (leaves_sync (fun _ ↦ rfl)) (fun _ ↦ Coro.leaves_pure _)

private theorem leaves_projectSession_seen [DecimalContext] (rt : ExecutionRuntime) :
    (projectSession rt : RuntimeM β ω _).Leaves seen := by
  intro w
  rw [exec_projectSession]

section Broker

variable [BrokerClient β ω]

private theorem leaves_resolveExistingSubmission (rt : ExecutionRuntime) (clientOrderId : String)
    (first second : ω) :
    (resolveExistingSubmission rt clientOrderId first second : RuntimeM β ω _).Leaves seen := by
  apply Coro.leaves_bind
  · exact leaves_sync (leaves_mappedOrder (fun _ ↦ leaves_broker_seen _) rt clientOrderId)
  · intro mapped
    cases mapped with
    | some order => exact Coro.leaves_pure _
    | none =>
      apply Coro.leaves_bind (leaves_getBySession _)
      intro events
      exact leaves_sync (leaves_recoveredOrder (fun _ ↦ leaves_broker_seen _) (fun _ _ ↦ rfl) rt
        clientOrderId _)

private theorem leaves_current (order : BrokerOrder) :
    (sync .read (Coro.atomic () (fun w ↦ (w, .ok (currentOrder order w.broker)))) :
      RuntimeM β ω BrokerOrder).Leaves seen := leaves_sync (fun _ ↦ rfl)

private theorem spends_finishPlaced [DecimalContext] (command : ExecutionCommand)
    (order : BrokerOrder) (inputs : SubmitInputs ω) :
    (finishPlaced rt command order inputs : RuntimeM β ω _).Spends (announced β rt)
      [inputs.fill] := by
  apply Coro.spends_then
  · apply spends_of_leaves
    apply leaves_sync
    apply Coro.leaves_bind (fun _ ↦ rfl)
    intro now
    split
    · exact leaves_broker_seen _
    · exact Coro.leaves_pure _
  · intro price
    cases price with
    | some price =>
      apply Coro.spends_bind [inputs.fill] [] (spends_recordVerifiedFill _ _ _ _ _)
      exact fun _ ↦ spends_of_leaves (leaves_current order)
    | none => exact spends_of_leaves (leaves_current order)

/-- The stamps of one submission. -/
def SubmitInputs.stamps (inputs : SubmitInputs ω) : List Stamp :=
  [inputs.requested, inputs.recovered, inputs.rejected, inputs.accepted, inputs.fill]

/-- The clock readings of the stamps of a submission that are not needed are skipped. -/
theorem spends_submitExecutionCommand [DecimalContext] (command : ExecutionCommand)
    (inputs : SubmitInputs ω) :
    (submitExecutionCommand rt command inputs : RuntimeM β ω _).Spends (announced β rt)
      inputs.stamps := by
  apply Coro.spends_then (spends_of_leaves (leaves_restoreOrderMappings rt))
  intro _
  apply Coro.spends_then (spends_of_leaves (leaves_resolveExistingSubmission rt _ _ _))
  intro existing
  cases existing with
  | some order => exact Coro.spends_pure _
  | none =>
    apply Coro.spends_bind [inputs.requested]
    · exact spends_record ⟨rfl, rfl, rfl, rfl⟩ nofun ⟨nofun, nofun⟩
    intro _
    apply Coro.spends_then (spends_publish rfl _ _ _)
    intro _
    apply Coro.spends_then (spends_of_leaves (leaves_sync (leaves_findOrSubmit leaves_broker_seen
      (fun _ _ ↦ rfl) rt command _)))
    intro submission
    cases submission with
    | recovered order =>
      apply Coro.spends_bind [inputs.recovered]
      · exact spends_record ⟨rfl, rfl, rfl, rfl⟩ nofun ⟨nofun, nofun⟩
      exact fun _ ↦ spends_of_leaves (leaves_current order)
    | refused e =>
      apply Coro.spends_of_sublist [inputs.rejected] (by simp)
      apply Coro.spends_bind [inputs.rejected] []
      · exact spends_record ⟨rfl, rfl, rfl, rfl⟩ nofun ⟨nofun, nofun⟩
      intro _
      apply Coro.spends_then (spends_publish rfl _ _ _)
      exact fun _ ↦ Coro.spends_raise _
    | placed order =>
      apply Coro.spends_of_sublist [inputs.accepted, inputs.fill] (by simp)
      apply Coro.spends_bind [inputs.accepted]
      · exact spends_record ⟨rfl, rfl, rfl, rfl⟩ nofun ⟨nofun, nofun⟩
      intro _
      apply Coro.spends_then (spends_publish rfl _ _ _)
      exact fun _ ↦ spends_finishPlaced command order inputs

/-- The stamps of one update. -/
def UpdateInputs.stamps (inputs : UpdateInputs ω) : List Stamp := [inputs.update, inputs.fill]

private theorem spends_onBrokerUpdate [DecimalContext] (order : BrokerOrder)
    (clientOrderId : Option String) (inputs : UpdateInputs ω) :
    (onBrokerUpdate rt order clientOrderId inputs : RuntimeM β ω _).Spends (announced β rt)
      inputs.stamps := by
  apply Coro.spends_then
  · apply spends_of_leaves
    apply leaves_sync
    apply Coro.leaves_bind (fun _ ↦ rfl)
    intro _
    split
    · exact leaves_broker_seen _
    · exact Coro.leaves_pure _
  intro price
  cases hstatus : order.status with
  | cancelled =>
    apply Coro.spends_of_sublist [inputs.update] (by simp [UpdateInputs.stamps])
    unfold updateFields
    rw [hstatus]
    apply spends_recordEnd rfl
    · exact ⟨rfl, rfl, rfl, rfl⟩
    · exact nofun
    · exact ⟨nofun, nofun⟩
  | rejected =>
    apply Coro.spends_of_sublist [inputs.update] (by simp [UpdateInputs.stamps])
    unfold updateFields
    rw [hstatus]
    apply spends_recordEnd rfl
    · exact ⟨rfl, rfl, rfl, rfl⟩
    · exact nofun
    · exact ⟨nofun, nofun⟩
  | filled =>
    cases price with
    | some price =>
      apply Coro.spends_of_sublist [inputs.fill] (by simp [UpdateInputs.stamps])
      exact spends_recordVerifiedFill _ _ _ _ _
    | none =>
      apply Coro.spends_then (spends_publish rfl _ _ _)
      exact fun _ ↦ Coro.spends_pure _
  | pending => exact Coro.spends_pure _
  | «open» => exact Coro.spends_pure _

private theorem spends_pollOrderStatus [DecimalContext] (clientOrderId : String)
    (inputs : PollInputs ω) :
    (pollOrderStatus rt clientOrderId inputs : RuntimeM β ω _).Spends (announced β rt)
      inputs.update.stamps := by
  apply Coro.spends_then
  · apply spends_of_leaves
    apply Coro.leaves_bind (leaves_sync (fun _ ↦ rfl))
    intro mapped
    cases mapped with
    | some id => exact Coro.leaves_pure _
    | none => exact Coro.leaves_bind (leaves_restoreOrderMappings rt) (fun _ ↦ Coro.leaves_pure _)
  intro mapped
  cases mapped with
  | none => exact Coro.spends_pure _
  | some id =>
    apply Coro.spends_then (spends_of_leaves (leaves_sync (leaves_broker_seen _)))
    intro found
    cases found with
    | none => exact Coro.spends_pure _
    | some order =>
      have h := @Coro.spends_bind _ _ _ _ _ _ (announced β rt)
        (onBrokerUpdate rt order (some clientOrderId) inputs.update)
        (fun _ ↦ pure (some order)) inputs.update.stamps [] (spends_onBrokerUpdate _ _ _)
        (fun _ ↦ Coro.spends_pure _)
      rwa [List.append_nil] at h

section Cancel

variable [PositionLister β]

private theorem leaves_runReconciliation [DecimalContext] (rt : ExecutionRuntime)
    (inputs : ReconcileInputs ω) :
    (runReconciliation rt inputs : RuntimeM β ω _).Leaves seen := by
  apply Coro.leaves_bind (leaves_projectSession_seen rt)
  intro state
  apply leaves_sync
  apply Coro.leaves_bind (leaves_broker_seen _)
  intro opened
  apply Coro.leaves_bind (fun _ ↦ rfl)
  intro mapping
  apply Coro.leaves_bind (leaves_broker_seen _)
  intro orders
  exact Coro.leaves_bind (leaves_broker_seen _) (fun _ ↦ Coro.leaves_pure _)

private theorem spends_cancelAtBroker [DecimalContext] (brokerOrderId : String)
    {note : BrokerOrder → SyncM β Unit}
    (hnote : ∀ order, (note order).Leaves seen) (clientIdOf : BrokerOrder → String)
    (inputs : CancelInputs ω) :
    (cancelAtBroker rt brokerOrderId note clientIdOf inputs : RuntimeM β ω _).Spends
      (announced β rt) inputs.update.stamps := by
  apply Coro.spends_then
  · apply spends_of_leaves
    apply leaves_sync
    apply Coro.leaves_bind (leaves_broker_seen _)
    intro order
    exact Coro.leaves_bind (hnote order) (fun _ ↦ Coro.leaves_pure _)
  intro order
  rw [← List.append_nil inputs.update.stamps]
  apply Coro.spends_bind _ _ (spends_onBrokerUpdate order _ inputs.update)
  intro _
  apply Coro.spends_then (spends_of_leaves (leaves_runReconciliation rt inputs.reconcile))
  exact fun _ ↦ Coro.spends_pure _

private theorem spends_cancelOrder [DecimalContext] (clientOrderId : String)
    (inputs : CancelInputs ω) :
    (rt.cancelOrder clientOrderId inputs : RuntimeM β ω _).Spends (announced β rt)
      inputs.update.stamps := by
  apply Coro.spends_then (spends_of_leaves (leaves_restoreOrderMappings rt))
  intro mapping
  cases mapping.get? clientOrderId with
  | none => exact Coro.spends_raise _
  | some id => exact spends_cancelAtBroker id (fun _ ↦ Coro.leaves_pure _) _ inputs

private theorem spends_cancelOrderByBrokerId [DecimalContext] (brokerOrderId : String)
    (inputs : CancelInputs ω) :
    (rt.cancelOrderByBrokerId brokerOrderId inputs : RuntimeM β ω _).Spends (announced β rt)
      inputs.update.stamps := by
  apply Coro.spends_then (spends_of_leaves (leaves_restoreOrderMappings rt))
  intro mapping
  cases mapping.entries.find? (fun entry ↦ entry.2 = brokerOrderId) with
  | some entry => exact spends_cancelOrder entry.1 inputs
  | none => exact spends_cancelAtBroker brokerOrderId (fun _ _ ↦ rfl) _ inputs

/-! ### Runs -/

/-- A call of a sequential run. -/
inductive LedgerCall (ω : Type) where
  | submit (command : ExecutionCommand) (inputs : SubmitInputs ω)
  | cancel (clientOrderId : String) (inputs : CancelInputs ω)
  | cancelByBrokerId (brokerOrderId : String) (inputs : CancelInputs ω)
  | fill (order : BrokerOrder) (clientOrderId : String) (price : Decimal)
      (fillQty : Option Decimal) (final : Bool) (stamp : Stamp)
  | update (order : BrokerOrder) (clientOrderId : Option String) (inputs : UpdateInputs ω)
  | poll (clientOrderId : String) (inputs : PollInputs ω)

/-- The stamps of a call, in the order it takes them. -/
def LedgerCall.stamps : LedgerCall ω → List Stamp
  | .submit _ inputs => inputs.stamps
  | .cancel _ inputs => inputs.update.stamps
  | .cancelByBrokerId _ inputs => inputs.update.stamps
  | .fill _ _ _ _ _ stamp => [stamp]
  | .update _ _ inputs => inputs.stamps
  | .poll _ inputs => inputs.update.stamps

/-- The world after a call, whether it returns or raises. -/
def callStep [DecimalContext] (rt : ExecutionRuntime) (w : World β) : LedgerCall ω → World β
  | .submit command inputs => ((submitExecutionCommand rt command inputs).exec w).1
  | .cancel clientOrderId inputs => ((rt.cancelOrder clientOrderId inputs).exec w).1
  | .cancelByBrokerId brokerOrderId inputs =>
    ((rt.cancelOrderByBrokerId brokerOrderId inputs).exec w).1
  | .fill order clientOrderId price fillQty final stamp =>
    ((recordVerifiedFill rt order clientOrderId price fillQty final stamp :
      RuntimeM β ω _).exec w).1
  | .update order clientOrderId inputs => ((onBrokerUpdate rt order clientOrderId inputs).exec w).1
  | .poll clientOrderId inputs => ((pollOrderStatus rt clientOrderId inputs).exec w).1

/-- The step: every call leaves the assertion about the stamps after its own. -/
theorem announced_callStep [DecimalContext] (call : LedgerCall ω)
    (h : Announced rt (call.stamps ++ future) w) : Announced rt future (callStep rt w call) := by
  cases call with
  | submit command inputs => exact spends_submitExecutionCommand command inputs future w h
  | cancel clientOrderId inputs => exact spends_cancelOrder clientOrderId inputs future w h
  | cancelByBrokerId brokerOrderId inputs =>
    exact spends_cancelOrderByBrokerId brokerOrderId inputs future w h
  | fill order clientOrderId price fillQty final stamp =>
    exact spends_recordVerifiedFill (ω := ω) order clientOrderId price fillQty final future w h
  | update order clientOrderId inputs =>
    exact spends_onBrokerUpdate order clientOrderId inputs future w h
  | poll clientOrderId inputs => exact spends_pollOrderStatus clientOrderId inputs future w h

/-- In every sequential run from an empty session whose stamps sort in the order they are taken,
the published position events fold to the quantities of the final projection, and openings and
closings alternate. -/
theorem positionEvents_replay [DecimalContext] (calls : List (LedgerCall ω))
    (hsettled : w.conn.Settled)
    (hempty : ∀ row ∈ w.conn.rows, row.sessionId ≠ rt.sessionId) (hbus : w.bus = [])
    (hclock : Forward (calls.flatMap LedgerCall.stamps)) :
    EventsReplay rt (run (callStep rt) w calls) := by
  have hrows : ownRows rt w = [] := by
    apply List.filter_eq_nil_iff.mpr
    intro row hrow
    simpa using hempty row hrow
  have hstart : Announced rt (calls.flatMap LedgerCall.stamps ++ []) w := by
    refine ⟨⟨hsettled, ?_⟩, ?_, ?_⟩
    · rw [hrows, List.append_nil]
      exact hclock
    · rw [hrows]
      exact List.forall_mem_nil _
    · intro c
      rw [hrows, hbus]
      exact tells_nil
  have hrun := (announced β rt).holds_run (P := fun _ _ ↦ True)
    (fun call future w _ h ↦ announced_callStep call h)
    (stepsMeet_of_forall (fun _ _ ↦ trivial) w calls) hstart
  obtain ⟨state, hstate, hquantity⟩ := project_of_plain hrun.plain
  refine ⟨state, ?_, ?_⟩
  · rw [hrun.toInTime.query]
    exact hstate
  · intro c
    rw [hquantity]
    exact ⟨(hrun.tells c).folded, (hrun.tells c).alternating⟩

end Cancel

end Broker

/-! ### Samples -/

open scoped DefaultContext

/-- What the paper broker draws for one order. -/
def PaperDraws.sample : PaperDraws := ⟨⟨"p", "f"⟩, "x"⟩

/-- A submission whose stamps are a second apart. -/
def submittedAtOnce : LedgerCall PaperDraws :=
  .submit ExecutionCommand.sample
    { requested := .sample "requested" 1
      recovered := .sample "recovered" 2
      rejected := .sample "rejected" 3
      accepted := .sample "accepted" 4
      fill := .sample "fill" 5
      firstLookup := PaperDraws.sample
      secondLookup := PaperDraws.sample
      submission := PaperDraws.sample
      price := PaperDraws.sample }

/-- A final fill of the client order, for so many contracts. -/
def filledFor (side : Side) (qty : ℕ) (stamp : Stamp) : LedgerCall PaperDraws :=
  .fill { BrokerOrder.ofIntent "o" .filled ExecutionCommand.sample.intent with side := side } "c"
    ⟨false, 15, -1⟩ (some ⟨false, qty, 0⟩) true stamp

/-- The events replay where an order is submitted, filled at once, and sold again. -/
theorem positionEvents_replay_sold :
    EventsReplay ⟨0, "s", "a"⟩ (run (callStep ⟨0, "s", "a"⟩) (World.new PaperBook.new)
      [submittedAtOnce, filledFor .sell 1 (.sample "sold" 6)]) :=
  positionEvents_replay [submittedAtOnce, filledFor .sell 1 (.sample "sold" 6)] rfl
    (List.forall_mem_nil _) rfl (by decide +kernel)

/-- A fill of two for an order of one, whose submission is recorded at the same instant and
sorts before the fill. -/
def submittedAfterFill : List (LedgerCall PaperDraws) :=
  [filledFor .buy 2 (.sample "z" 0),
    .submit ExecutionCommand.sample (SubmitInputs.sample PaperDraws.sample "" 0)]

/-- With a clock that stands still the events tell of two contracts where the ledger has one. -/
theorem not_eventsReplay_submittedAfterFill :
    Nondecreasing (submittedAfterFill.flatMap LedgerCall.stamps) ∧
    ¬ EventsReplay ⟨0, "s", "a"⟩
      (run (callStep ⟨0, "s", "a"⟩) (World.new PaperBook.new) submittedAfterFill) := by
  refine ⟨by decide +kernel, ?_⟩
  rintro ⟨state, hstate, hreplay⟩
  have htold := (hreplay (contractIdFor ExecutionCommand.sample.intent.contract)).1
  have hone : (project ((run (callStep ⟨0, "s", "a"⟩) (World.new PaperBook.new)
      submittedAfterFill).conn.query (fun e ↦ e.sessionId = "s"))).toOption.map
        (fun state ↦ projectedQuantity state
          (contractIdFor ExecutionCommand.sample.intent.contract)) = some 1 := by
    decide +kernel
  rw [hstate] at hone
  have hquantity : projectedQuantity state
      (contractIdFor ExecutionCommand.sample.intent.contract) = 1 := Option.some.inj hone
  rw [hquantity] at htold
  exact absurd htold (by decide +kernel)

end Joker.Runtime
