import Joker.Ledger.OrderRoom
import Joker.Ledger.ProjectionKeys
import Joker.Runtime.ClockedSession
import Joker.Runtime.DegradedClose

/-!
# Sessions of the gateway

Library `Runtime`. A session's ledger under calls of `gateway.submit` and under what the runtime
records of the broker: acceptances, rejections, fills and order updates. Every event goes
through the store's `append`, and the projection replays the rows in the store's order, by their
stamps. Where stamps sort as they are taken, that is the order of recording.
-/

namespace Joker.Runtime

open Joker.Base Joker.Ledger Joker.Broker OrderActionGateway

/-! ### Calls and reports -/

/-- The event that `on_broker_update` appends for an order with a status and a verified price. -/
def updateFields (rt : ExecutionRuntime) (order : BrokerOrder) (clientOrderId : String)
    (fillPrice : Option Decimal) (stamp : Stamp) : Option EventFields :=
  match order.status with
  | .cancelled => some (eventFields rt stamp .cancellation rt.brokerAccountId clientOrderId
      (contractIdFor order.contract) order.side order.quantity
      (joinSep ':' "cancel" (joinSep ':' clientOrderId order.orderId)) (some order.orderId) none
      Dict.empty)
  | .rejected => some (eventFields rt stamp .rejection rt.brokerAccountId clientOrderId
      (contractIdFor order.contract) order.side order.quantity
      (joinSep ':' "reject" (joinSep ':' clientOrderId order.orderId)) (some order.orderId) none
      Dict.empty)
  | .filled => fillPrice.map (fun price ↦
      fillFields rt order clientOrderId price (Decimal.ofInt order.quantity) true stamp)
  | .pending | .open => none

/-- One call of `gateway.submit`: the request, the snapshot it refers to, the clock, the stamps
of the events, what the broker answers to a replacement's cancellation, what the reconciliation
after it raises, and whether `submit_execution_command` returns. -/
structure GatewayCall where
  request : OrderActionRequest
  snapshot : SnapshotTruth
  now : Datetime
  cancelled : Except PyException BrokerOrder
  cancelledPrice : Option Decimal
  cancelStamp : Stamp
  reconciled : Option PyException
  requested : Stamp
  returned : Bool

/-- The stamps a call takes. -/
def GatewayCall.stamps (call : GatewayCall) : List Stamp :=
  if call.request.action = .replace then [call.cancelStamp, call.requested] else [call.requested]

/-- What the runtime records of the broker. -/
inductive Report where
  | accepted (command : ExecutionCommand) (order : BrokerOrder) (stamp : Stamp)
  | refused (command : ExecutionCommand) (e : PyException) (stamp : Stamp)
  | filled (order : BrokerOrder) (clientOrderId : String) (price qty : Decimal) (final : Bool)
      (stamp : Stamp)
  | updated (order : BrokerOrder) (clientOrderId : String) (fillPrice : Option Decimal)
      (stamp : Stamp)

namespace Report

/-- The event of a report. -/
def fields (rt : ExecutionRuntime) : Report → Option EventFields
  | .accepted command order stamp => some (acceptedFields rt command order stamp)
  | .refused command e stamp => some (rejectedFields rt command e stamp)
  | .filled order clientOrderId price qty final stamp =>
    some (fillFields rt order clientOrderId price qty final stamp)
  | .updated order clientOrderId fillPrice stamp =>
    updateFields rt order clientOrderId fillPrice stamp

/-- The stamp of a report. -/
def stamp : Report → Stamp
  | .accepted _ _ stamp | .refused _ _ stamp | .filled _ _ _ _ _ stamp | .updated _ _ _ stamp =>
    stamp

end Report

/-- What happens in a session. -/
inductive SessionAction where
  | submit (call : GatewayCall)
  | report (report : Report)

/-- What a session keeps: the connection to the store, whose rows are all of this session, and
the proposals that were submitted. -/
structure Session where
  conn : Conn
  submittedProposalIds : List String

namespace Session

/-- A session without events. -/
def new : Session := ⟨Conn.empty, []⟩

/-- `get_by_session`: all rows, in the store's order. -/
def ledger (s : Session) : List LedgerEvent := s.conn.query (fun _ ↦ true)

/-- Build the event and append it; the second component says whether that returns. -/
def record (s : Session) (stamp : Stamp) (fields : EventFields) : Session × Bool :=
  match makeLedgerEvent fields with
  | none => (s, false)
  | some e =>
    match (append e stamp.faults).exec s.conn with
    | (conn, .ok _) => ({ s with conn := conn }, true)
    | (conn, .error _) => ({ s with conn := conn }, false)

/-- `on_broker_update`, and whether it returns. -/
def update (rt : ExecutionRuntime) (s : Session) (order : BrokerOrder) (clientOrderId : String)
    (fillPrice : Option Decimal) (stamp : Stamp) : Session × Bool :=
  match updateFields rt order clientOrderId fillPrice stamp with
  | none => (s, true)
  | some fields => s.record stamp fields

/-- A report is recorded. -/
def report (rt : ExecutionRuntime) (report : Report) (s : Session) : Session :=
  match report.fields rt with
  | none => s
  | some fields => (s.record report.stamp fields).1

/-- What `submit` reads of the session. -/
def truth (s : Session) (call : GatewayCall) (state : ProjectionState) : GatewayTruth :=
  { snapshot := call.snapshot
    working := workingOrdersFromProjection (some state) Dict.empty
    openPositions := openPositionsFromProjection (some state)
    submittedProposalIds := s.submittedProposalIds
    now := call.now }

/-- What a call hands to `submit_execution_command`, with the proposal to note when it
returns. -/
structure Handover where
  command : ExecutionCommand
  proposal : Option String
  deriving DecidableEq

/-- The part of `gateway.submit` before `submit_execution_command`: a replacement cancels its
original. -/
def handover [DecimalContext] (gateway : OrderActionGateway) (s : Session) (call : GatewayCall) :
    Session × Option Handover :=
  match project s.ledger with
  | .error _ => (s, none)
  | .ok state =>
    match gateway.verdict call.request (s.truth call state) with
    | .error _ => (s, none)
    | .ok (.blocked _) => (s, none)
    | .ok (.degraded command _) => (s, some ⟨command, none⟩)
    | .ok (.compiled command) =>
      if call.request.action = .replace then
        match call.cancelled with
        | .error _ => (s, none)
        | .ok order =>
          match s.update gateway.rt order (call.request.replaceOfClientOrderId.getD "")
              call.cancelledPrice call.cancelStamp with
          | (after, true) => (after,
              if call.reconciled = none then some ⟨command, call.request.proposalId⟩ else none)
          | (after, false) => (after, none)
      else (s, some ⟨command, call.request.proposalId⟩)

/-- `submitted_proposal_ids.add`. -/
def note (s : Session) (proposal : Option String) : Session :=
  if presentText proposal = true then
    { s with submittedProposalIds := proposal.getD "" :: s.submittedProposalIds }
  else s

/-- The effect of `gateway.submit` on the session, up to the request's event. -/
def submit [DecimalContext] (gateway : OrderActionGateway) (s : Session) (call : GatewayCall) :
    Session :=
  match s.handover gateway call with
  | (s₁, none) => s₁
  | (s₁, some h) =>
    match s₁.record call.requested (requestedFields gateway.rt h.command call.requested) with
    | (s₂, true) => if call.returned = true then s₂.note h.proposal else s₂
    | (s₂, false) => s₂

/-- One step of the session. -/
def step [DecimalContext] (gateway : OrderActionGateway) (s : Session) : SessionAction → Session
  | .submit call => s.submit gateway call
  | .report r => s.report gateway.rt r

/-- The replayed ledger. -/
def replayed [DecimalContext] (s : Session) : Replay := run Replay.next Replay.start s.ledger

/-! ### The order of the ledger -/

/-- A row has the event's id or its idempotency key. -/
def Knows (s : Session) (fields : EventFields) : Prop :=
  ∃ e ∈ s.conn.rows,
    e.ledgerEventId = fields.ledgerEventId ∨ e.idempotencyKey = fields.idempotencyKey

instance (s : Session) (fields : EventFields) : Decidable (s.Knows fields) :=
  inferInstanceAs (Decidable (∃ _ ∈ _, _))

/-- Stamps that sort as they are taken, after all rows of the ledger. -/
def InOrder (s : Session) (stamps : List Stamp) : Prop :=
  Forward stamps ∧ ∀ stamp ∈ stamps, ∀ row ∈ s.conn.rows, sortKey row ≤ stamp.key

instance (s : Session) (stamps : List Stamp) : Decidable (s.InOrder stamps) :=
  inferInstanceAs (Decidable (_ ∧ ∀ _ ∈ _, ∀ _ ∈ _, _))

/-- All rows are committed, and in the order in which they are queried. -/
structure Orderly (s : Session) : Prop where
  settled : s.conn.Settled
  sorted : s.conn.rows.Pairwise RowLe

variable {s : Session} {rt : ExecutionRuntime} {stamp : Stamp} {fields : EventFields}

/-- A new session is orderly. -/
theorem orderly_new : Session.new.Orderly := ⟨rfl, List.Pairwise.nil⟩

/-- An orderly session is queried as it was recorded. -/
theorem Orderly.ledger_eq (h : s.Orderly) : s.ledger = s.conn.rows := by
  unfold ledger
  rw [query_of_pairwise h.sorted]
  exact List.filter_true s.conn.rows

/-- `record` leaves the session as it is, and then returns only for a known event, or it adds
the event with these fields, which is new, as the last row. -/
theorem record_cases (hc : s.conn.Settled) (stamp : Stamp) (fields : EventFields) :
    ((s.record stamp fields).1 = s ∧ ((s.record stamp fields).2 = true → s.Knows fields)) ∨
    ∃ e : LedgerEvent, e.toEventFields = fields ∧ ¬ s.Knows fields ∧
      s.record stamp fields = ({ s with conn := .ofRows (s.conn.rows ++ [e]) }, true) := by
  unfold record
  cases hmake : makeLedgerEvent fields with
  | none => exact Or.inl ⟨rfl, nofun⟩
  | some e =>
    have hfields := makeLedgerEvent_eq_some hmake
    rcases append_cases hc e stamp.faults with ⟨hsame, hnot⟩ | ⟨hadd, hnew⟩
    · left
      simp only
      split
      · next conn written hexec =>
        rw [hexec] at hsame hnot
        obtain rfl : conn = s.conn := hsame
        refine ⟨rfl, fun _ ↦ ?_⟩
        by_contra hunknown
        -- an unknown event is inserted, or the driver raises
        rw [exec_append hc] at hexec
        cases hselect : s.conn.select e.idempotencyKey with
        | some row =>
          have hrow := List.find?_some hselect
          exact hunknown ⟨row, List.mem_of_find?_eq_some hselect,
            Or.inr (hfields ▸ of_decide_eq_true hrow)⟩
        | none =>
          rw [hselect] at hexec
          simp only at hexec
          split at hexec
          · cases hexec
          · split at hexec
            · cases hexec
            · split at hexec
              · cases hexec
              · exact hnot (Prod.mk.inj hexec).2.symm
      · next conn err hexec =>
        rw [hexec] at hsame
        obtain rfl : conn = s.conn := hsame
        exact ⟨rfl, nofun⟩
    · right
      refine ⟨e, hfields, ?_, by simp only [hadd]⟩
      rintro ⟨row, hrow, hid | hkey⟩
      · exact (hnew row hrow).1 (hid.trans (congrArg EventFields.ledgerEventId hfields).symm)
      · exact (hnew row hrow).2 (hkey.trans (congrArg EventFields.idempotencyKey hfields).symm)

/-- An event whose stamp comes after the rows keeps them in order. -/
theorem orderly_record (h : s.Orderly) (hstamped : Stamped rt stamp fields)
    (hbefore : ∀ row ∈ s.conn.rows, sortKey row ≤ stamp.key) :
    (s.record stamp fields).1.Orderly := by
  rcases record_cases h.settled stamp fields with ⟨hsame, -⟩ | ⟨e, rfl, -, hadd⟩
  · rwa [hsame]
  · rw [hadd]
    refine ⟨Conn.settled_ofRows _, ?_⟩
    change (s.conn.rows ++ [e]).Pairwise RowLe
    rw [List.pairwise_append]
    refine ⟨h.sorted, List.pairwise_singleton _ _, ?_⟩
    intro row hrow x hx
    rw [List.mem_singleton.mp hx]
    unfold RowLe
    rw [hstamped.sortKey]
    exact hbefore row hrow

/-- Later stamps come after an event that is recorded now. -/
theorem rows_record_le {key : List String} (h : s.conn.Settled) (hstamped : Stamped rt stamp fields)
    (hkey : stamp.key ≤ key) (hrows : ∀ row ∈ s.conn.rows, sortKey row ≤ key) :
    ∀ row ∈ (s.record stamp fields).1.conn.rows, sortKey row ≤ key := by
  rcases record_cases h stamp fields with ⟨hsame, -⟩ | ⟨e, rfl, -, hadd⟩
  · rwa [hsame]
  · rw [hadd]
    intro row hrow
    rcases List.mem_append.mp hrow with hrow | hrow
    · exact hrows row hrow
    · rw [List.mem_singleton.mp hrow, hstamped.sortKey]
      exact hkey

/-- An orderly session replays a new event after all others. -/
theorem ledger_record (h : s.Orderly) (hstamped : Stamped rt stamp fields)
    (hbefore : ∀ row ∈ s.conn.rows, sortKey row ≤ stamp.key) :
    ((s.record stamp fields).1 = s ∧ ((s.record stamp fields).2 = true → s.Knows fields)) ∨
    ∃ e : LedgerEvent, e.toEventFields = fields ∧ ¬ s.Knows fields ∧
      (s.record stamp fields).1.ledger = s.ledger ++ [e] := by
  have horderly := orderly_record h hstamped hbefore
  apply (record_cases h.settled stamp fields).imp_right
  rintro ⟨e, hfields, hnew, hadd⟩
  refine ⟨e, hfields, hnew, ?_⟩
  rw [horderly.ledger_eq, h.ledger_eq, hadd]
  rfl

/-- A session without corrections projects to its replayed ledger. -/
theorem project_of_plain [DecimalContext] (h : ∀ e ∈ s.ledger, e.NotCorrection) :
    project s.ledger = .ok s.replayed.freeze := by
  unfold project
  rw [replay_eq_run Replay.start s.ledger h]
  rfl

/-- An event that no row knows is fresh for the replay. -/
theorem fresh_of_not_knows [DecimalContext] (h : s.Orderly)
    (hplain : ∀ e ∈ s.ledger, e.NotCorrection)
    {e : LedgerEvent} (hnew : ¬ s.Knows e.toEventFields) : s.replayed.Fresh e := by
  apply fresh_of_new (replay_eq_run Replay.start s.ledger hplain)
  rw [h.ledger_eq]
  intro row hrow
  exact ⟨fun hid ↦ hnew ⟨row, hrow, Or.inl hid⟩, fun hkey ↦ hnew ⟨row, hrow, Or.inr hkey⟩⟩

end Session

/-- The fields of an update take its stamp. -/
theorem stamped_updateFields {rt : ExecutionRuntime} {order : BrokerOrder} {clientOrderId : String}
    {fillPrice : Option Decimal} {stamp : Stamp} :
    ∀ fields ∈ updateFields rt order clientOrderId fillPrice stamp, Stamped rt stamp fields := by
  intro fields h
  unfold updateFields at h
  cases hstatus : order.status <;> simp only [hstatus, Option.mem_def, reduceCtorEq] at h
  · obtain ⟨price, -, rfl⟩ := Option.map_eq_some_iff.mp h
    exact ⟨rfl, rfl, rfl, rfl⟩
  · cases h
    exact ⟨rfl, rfl, rfl, rfl⟩
  · cases h
    exact ⟨rfl, rfl, rfl, rfl⟩

/-- The event of an update is about the order it is called for. -/
theorem clientOrderId_updateFields {rt : ExecutionRuntime} {order : BrokerOrder}
    {clientOrderId : String} {fillPrice : Option Decimal} {stamp : Stamp} :
    ∀ fields ∈ updateFields rt order clientOrderId fillPrice stamp,
      fields.clientOrderId = clientOrderId := by
  intro fields h
  unfold updateFields at h
  cases hstatus : order.status <;> simp only [hstatus, Option.mem_def, reduceCtorEq] at h
  · obtain ⟨price, -, rfl⟩ := Option.map_eq_some_iff.mp h
    rfl
  · cases h
    rfl
  · cases h
    rfl

/-- The fields of a report take its stamp. -/
theorem stamped_fields {rt : ExecutionRuntime} (report : Report) :
    ∀ fields ∈ report.fields rt, Stamped rt report.stamp fields := by
  cases report with
  | accepted command order stamp =>
    rintro _ ⟨⟩
    exact ⟨rfl, rfl, rfl, rfl⟩
  | refused command e stamp =>
    rintro _ ⟨⟩
    exact ⟨rfl, rfl, rfl, rfl⟩
  | filled order clientOrderId price qty final stamp =>
    rintro _ ⟨⟩
    exact ⟨rfl, rfl, rfl, rfl⟩
  | updated order clientOrderId fillPrice stamp => exact stamped_updateFields

/-- An event that is not a fill does not count as one. -/
theorem not_counts_of_fields {fields : EventFields}
    (h : fields.eventType ∉ [LedgerEventType.partialFill, .finalFill]) (state : ProjectionState) :
    ∀ e ∈ makeLedgerEvent fields, ¬ Counts state e := by
  rintro e he ⟨-, -, hfill, -⟩
  unfold LedgerEvent.isFill at hfill
  rw [makeLedgerEvent_eq_some (Option.mem_def.mp he)] at hfill
  exact absurd (by simpa using hfill) h

/-- What a report's event is: of a known order, and about whole contracts unless it is a fill. -/
structure OfReport (fields : EventFields) : Prop where
  not_correction : fields.eventType ≠ .reconciliationCorrection
  not_submission : fields.eventType ≠ .orderSubmissionRequested
  whole : fields.eventType ∉ [LedgerEventType.partialFill, .finalFill] → Whole fields.quantity

/-- The rows of an update are those of a report. -/
theorem ofReport_updateFields {rt : ExecutionRuntime} {order : BrokerOrder} {clientOrderId : String}
    {fillPrice : Option Decimal} {stamp : Stamp} :
    ∀ fields ∈ updateFields rt order clientOrderId fillPrice stamp, OfReport fields := by
  intro fields h
  have hwhole : Whole (order.quantity : ℚ) := ⟨order.quantity, rfl⟩
  unfold updateFields at h
  cases hstatus : order.status <;> simp only [hstatus, Option.mem_def, reduceCtorEq] at h
  · obtain ⟨price, -, rfl⟩ := Option.map_eq_some_iff.mp h
    exact ⟨(fun hc ↦ nomatch hc), (fun hs ↦ nomatch hs),
      fun hn ↦ absurd (List.Mem.tail _ (List.Mem.head _)) hn⟩
  · cases h
    exact ⟨(fun hc ↦ nomatch hc), (fun hs ↦ nomatch hs), fun _ ↦ hwhole⟩
  · cases h
    exact ⟨(fun hc ↦ nomatch hc), (fun hs ↦ nomatch hs), fun _ ↦ hwhole⟩

/-- The rows of a report are those of a report. -/
theorem ofReport_fields {rt : ExecutionRuntime} (report : Report) :
    ∀ fields ∈ report.fields rt, OfReport fields := by
  cases report with
  | accepted command order stamp =>
    rintro _ ⟨⟩
    exact ⟨(fun hc ↦ nomatch hc), (fun hs ↦ nomatch hs), fun _ ↦ ⟨order.quantity, rfl⟩⟩
  | refused command e stamp =>
    rintro _ ⟨⟩
    exact ⟨(fun hc ↦ nomatch hc), (fun hs ↦ nomatch hs), fun _ ↦ ⟨command.intent.quantity, rfl⟩⟩
  | filled order clientOrderId price qty final stamp =>
    rintro _ ⟨⟩
    cases final with
    | true =>
      exact ⟨(fun hc ↦ nomatch hc), (fun hs ↦ nomatch hs),
        fun hn ↦ absurd (List.Mem.tail _ (List.Mem.head _)) hn⟩
    | false =>
      exact ⟨(fun hc ↦ nomatch hc), (fun hs ↦ nomatch hs),
        fun hn ↦ absurd (List.Mem.head _) hn⟩
  | updated order clientOrderId fillPrice stamp => exact ofReport_updateFields

/-! ### What a check says -/

/-- The checks of an ENTRY, a PROBE and an ADD let only buy orders pass. -/
theorem buys_of_compiled {gateway : OrderActionGateway} {request : OrderActionRequest}
    {truth : GatewayTruth} {command : ExecutionCommand}
    (haction : request.action ∈ [.entry, .probe, .add])
    (h : gateway.verdict request truth = .ok (.compiled command)) :
    command.intent.side = .buy := by
  obtain ⟨surface, row, contract, hcompiles, rfl⟩ :=
    compiles_of_validateAndCompile (validateAndCompile_of_verdict h)
  have hchecks := hcompiles.action
  unfold validateAction at hchecks
  simp only [List.mem_cons, List.not_mem_nil, or_false] at haction
  rcases haction with ha | ha | ha
  · simp only [ha, validateEntry, bind_eq_ok, require_eq_ok] at hchecks
    obtain ⟨_, _, _, _, _, _, _, _, hside⟩ := hchecks
    exact hside
  · simp only [ha, validateEntry, bind_eq_ok, require_eq_ok] at hchecks
    obtain ⟨_, _, _, _, _, _, _, _, hside⟩ := hchecks
    exact hside
  · simp only [ha, validateAdd, bind_eq_ok, require_eq_ok] at hchecks
    obtain ⟨_, hside, _⟩ := hchecks
    exact hside

/-- The original of a REPLACE that passes its checks: a working order on the request's contract
and side, with room for the replacement. -/
theorem original_of_compiled [DecimalContext] {gateway : OrderActionGateway} {call : GatewayCall}
    {s : Session}
    {command : ExecutionCommand} (hplain : ∀ e ∈ s.ledger, e.NotCorrection)
    (hwhole : s.replayed.ForallOrders OrderLifecycle.InContracts)
    (h : gateway.verdict call.request (s.truth call s.replayed.freeze) = .ok (.compiled command))
    (hreplace : call.request.action = .replace) :
    ∃ c order, call.request.replaceOfClientOrderId = some c ∧
      s.replayed.tables.orders.get? c = some order ∧ order.Working ∧
      order.side = command.intent.side ∧ order.contractId = call.request.contractId ∧
      order.filledQty + command.intent.quantity ≤ order.submittedQty := by
  obtain ⟨surface, row, contract, hcompiles, rfl⟩ :=
    compiles_of_validateAndCompile (validateAndCompile_of_verdict h)
  have hchecks := hcompiles.action
  unfold validateAction at hchecks
  rw [hreplace] at hchecks
  simp only [validateReplace, bind_eq_ok, orRaise_eq_ok, require_eq_ok] at hchecks
  obtain ⟨_, _, prior, hfind, _, hremaining, _, hcontract, _, hside, hquantity⟩ := hchecks
  have hprior := List.find?_some hfind
  simp only [decide_eq_true_eq] at hprior
  obtain ⟨order, horder, hshown⟩ := List.mem_filterMap.mp (List.mem_of_find?_eq_some hfind)
  obtain ⟨c, hc⟩ := (Dict.mem_values_iff _ _).mp horder
  have hkeyed : order.clientOrderId = c := by
    have hreplay := replay_eq_run Replay.start s.ledger hplain
    exact (keyed_replay hreplay).1 c order hc
  unfold workingOrder at hshown
  split at hshown
  · next hworks =>
    cases hshown
    obtain ⟨m, hm⟩ := (hwhole c order hc).submitted_whole
    obtain ⟨n, hn⟩ := (hwhole c order hc).filled_whole
    simp only [hm, hn, pyInt_intCast] at hremaining hquantity
    refine ⟨c, order, (hkeyed ▸ hprior).symm, hc, value_mem_workingStatuses.mp hworks.1, hside,
      hcontract, ?_⟩
    change order.filledQty + (call.request.quantity : ℚ) ≤ order.submittedQty
    rw [hm, hn]
    have hfits : n + call.request.quantity ≤ m := by omega
    exact_mod_cast hfits
  · cases hshown

end Joker.Runtime
