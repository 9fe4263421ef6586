import Joker.Base.DatetimeOrder
import Joker.Base.Readings
import Joker.Ledger.Replay
import Joker.Runtime.ExecutionRuntime

/-!
# Sessions in clock order

Library `Runtime`. The rows of a session in the order they were recorded, where the readings of
the clock go forward: every row sorts before the readings that are still to come, so the session
is replayed as it was recorded. What a call appends takes one of its readings. The lemmas say
what `record` and `record_verified_fill` do to the ledger and to the published events.
-/

namespace Joker.Runtime

open Joker.Base Joker.Ledger Joker.Broker

variable {β ω : Type}

/-- What an event with this stamp is sorted by. -/
def Stamp.key (stamp : Stamp) : List String :=
  [stamp.now.isoformat, stamp.createdAt.isoformat, stamp.ledgerEventId]

/-- Clock readings and ids that sort in the order they are taken. -/
def Forward (stamps : List Stamp) : Prop := (stamps.map Stamp.key).Pairwise (· ≤ ·)

instance (stamps : List Stamp) : Decidable (Forward stamps) :=
  inferInstanceAs (Decidable (List.Pairwise _ _))

/-- A clock that never goes back. -/
def Nondecreasing (stamps : List Stamp) : Prop :=
  stamps.Pairwise (fun a b ↦ a.now.instant ≤ b.now.instant ∧
    a.createdAt.instant ≤ b.createdAt.instant)

instance (stamps : List Stamp) : Decidable (Nondecreasing stamps) :=
  inferInstanceAs (Decidable (List.Pairwise _ _))

/-- The fields take the runtime's session and the stamp's id and readings. -/
structure Stamped (rt : ExecutionRuntime) (stamp : Stamp) (fields : EventFields) : Prop where
  session : fields.sessionId = rt.sessionId
  id : fields.ledgerEventId = stamp.ledgerEventId
  now : fields.exchangeTimestamp = stamp.now
  createdAt : fields.createdAt = stamp.createdAt

/-- A stamped event sorts by its stamp. -/
theorem Stamped.sortKey {rt : ExecutionRuntime} {stamp : Stamp} {e : LedgerEvent}
    (h : Stamped rt stamp e.toEventFields) : sortKey e = stamp.key := by
  unfold Joker.Ledger.sortKey Stamp.key
  rw [h.now, h.createdAt, h.id]

/-- The session's rows in the order they were recorded. -/
def ownRows (rt : ExecutionRuntime) (w : World β) : List LedgerEvent :=
  w.conn.rows.filter (fun e ↦ e.sessionId = rt.sessionId)

/-- All rows are committed, and those of the session and the stamps to come are in order. -/
structure InTime (rt : ExecutionRuntime) (future : List Stamp) (w : World β) : Prop where
  settled : w.conn.Settled
  sorted : ((ownRows rt w).map sortKey ++ future.map Stamp.key).Pairwise (· ≤ ·)

variable {rt : ExecutionRuntime} {stamp : Stamp} {future : List Stamp} {w w' : World β}

/-- Fewer stamps to come leave the rows in time. -/
theorem InTime.skip {stamps : List Stamp} (h : InTime rt stamps w)
    (hsub : future.Sublist stamps) : InTime rt future w :=
  ⟨h.settled, h.sorted.sublist ((List.Sublist.refl _).append (hsub.map _))⟩

/-- The session is queried as it was recorded. -/
theorem InTime.query (h : InTime rt future w) :
    w.conn.query (fun e ↦ e.sessionId = rt.sessionId) = ownRows rt w := by
  have hsorted := List.pairwise_map.mp (List.pairwise_append.mp h.sorted).1
  exact List.Pairwise.insertionSort_eq hsorted

/-- Being in time depends on the rows only. -/
theorem InTime.of_conn (h : InTime rt future w) (hconn : w'.conn = w.conn) :
    InTime rt future w' := by
  constructor
  · rw [hconn]
    exact h.settled
  · unfold ownRows
    rw [hconn]
    exact h.sorted

/-- An own row goes to the end of the own rows. -/
theorem ownRows_append {e : LedgerEvent} (he : e.sessionId = rt.sessionId)
    (hconn : w'.conn = .ofRows (w.conn.rows ++ [e])) :
    ownRows rt w' = ownRows rt w ++ [e] := by
  unfold ownRows
  rw [hconn]
  change List.filter _ (w.conn.rows ++ [e]) = _
  rw [List.filter_append, List.filter_singleton]
  simp [he]

/-- A new row takes the next stamp. -/
theorem InTime.append {e : LedgerEvent} (h : InTime rt (stamp :: future) w)
    (he : Stamped rt stamp e.toEventFields) (hconn : w'.conn = .ofRows (w.conn.rows ++ [e])) :
    InTime rt future w' := by
  constructor
  · rw [hconn]
    exact Conn.settled_ofRows _
  · have hsorted := h.sorted
    rw [ownRows_append he.session hconn, List.map_append, List.map_singleton, he.sortKey,
      List.append_assoc]
    exact hsorted

/-! ### Recording an event -/

/-- `record` leaves everything as it is, or adds the event with these fields, which is new. -/
theorem record_cases (hc : w.conn.Settled) (stamp : Stamp) (fields : EventFields) :
    ((record stamp fields : RuntimeM β ω _).exec w).1 = w ∨
    ∃ e : LedgerEvent, e.toEventFields = fields ∧
      (∀ row ∈ w.conn.rows,
        row.ledgerEventId ≠ e.ledgerEventId ∧ row.idempotencyKey ≠ e.idempotencyKey) ∧
      ((record stamp fields : RuntimeM β ω _).exec w).1 =
        { w with conn := .ofRows (w.conn.rows ++ [e]) } := by
  rw [exec_record]
  cases hmake : makeLedgerEvent fields with
  | none => exact Or.inl rfl
  | some e =>
    rcases append_cases hc e stamp.faults with ⟨hsame, -⟩ | ⟨hadd, hnew⟩
    · left
      simp only [hsame]
    · right
      refine ⟨e, makeLedgerEvent_eq_some hmake, hnew, ?_⟩
      simp only [hadd]

/-! ### Recording a fill -/

/-- The contracts that `_publish_position_transitions` goes through. -/
def transitionIds (before after : ProjectionState) : List String :=
  before.positions.keys ++
    after.positions.keys.filter (fun k ↦ !before.positions.keys.contains k)

/-- What is published when a fill was inserted. -/
def filledEvent (rt : ExecutionRuntime) (order : BrokerOrder) (clientOrderId : String)
    (fillPrice qty : Decimal) (final : Bool) (now : Datetime) : DomainEvent :=
  ⟨if final then .orderFilled else .orderPartiallyFilled, rt.sessionId, now, clientOrderId,
    [("broker_order_id", .text order.orderId), ("price", .text fillPrice.str),
      ("qty", .text qty.str)]⟩

section Fill

variable {order : BrokerOrder} {clientOrderId : String} {fillPrice qty : Decimal} {final : Bool}
  {before : ProjectionState}

/-- `record_verified_fill` after its first projection and the note in the mapping. -/
private def recordAndAnnounce [DecimalContext] (rt : ExecutionRuntime) (order : BrokerOrder)
    (clientOrderId : String) (fillPrice qty : Decimal) (final : Bool) (stamp : Stamp)
    (before : ProjectionState) : RuntimeM β ω (List LedgerEvent) := do
  let (e, written) ← record stamp (fillFields rt order clientOrderId fillPrice qty final stamp)
  if written then do
    publishOrderEvent rt (if final then .orderFilled else .orderPartiallyFilled) clientOrderId
      stamp.now (fun _ ↦ [("broker_order_id", .text order.orderId),
        ("price", .text fillPrice.str), ("qty", .text qty.str)])
    let after ← projectSession rt
    publishPositionTransitions rt before after clientOrderId stamp.now
    pure [e]
  else pure []

private theorem exec_recordVerifiedFill [DecimalContext]
    (hbefore : project (w.conn.query (fun e ↦ e.sessionId = rt.sessionId)) = .ok before) :
    ∃ mapping : ℕ → Dict String String,
      (recordVerifiedFill rt order clientOrderId fillPrice (some qty) final stamp :
        RuntimeM β ω _).exec w =
      (recordAndAnnounce rt order clientOrderId fillPrice qty final stamp before :
        RuntimeM β ω _).exec { w with clientToBroker := mapping } := by
  unfold recordVerifiedFill
  rw [Coro.exec_bind, exec_projectSession, hbefore]
  exact ⟨_, rfl⟩

private theorem exec_announce [DecimalContext] {e : LedgerEvent} :
    ((do
      publishOrderEvent rt (if final then .orderFilled else .orderPartiallyFilled) clientOrderId
        stamp.now (fun _ ↦ [("broker_order_id", .text order.orderId),
          ("price", .text fillPrice.str), ("qty", .text qty.str)])
      let after ← projectSession rt
      publishPositionTransitions rt before after clientOrderId stamp.now
      pure [e] : RuntimeM β ω (List LedgerEvent)).exec w).1 =
    { w with bus := w.bus ++
      filledEvent rt order clientOrderId fillPrice qty final stamp.now ::
        match project (w.conn.query (fun e ↦ e.sessionId = rt.sessionId)) with
        | .ok after => transitionEvents rt before after clientOrderId stamp.now
            (transitionIds before after)
        | .error _ => [] } := by
  rw [Coro.exec_bind]
  change ((projectSession rt >>= _ : RuntimeM β ω _).exec { w with bus := w.bus ++
    [filledEvent rt order clientOrderId fillPrice qty final stamp.now] }).1 = _
  rw [Coro.exec_bind, exec_projectSession]
  simp only
  cases project (w.conn.query (fun e ↦ e.sessionId = rt.sessionId)) with
  | error err => rfl
  | ok after =>
    simp only [Except.mapError]
    unfold publishPositionTransitions
    rw [Coro.exec_bind, exec_publishTransitions]
    simp [transitionIds]

/-- `record_verified_fill` leaves ledger and bus as they are where its event is not appended;
else it adds the event, which is new, and publishes it and the transitions it led to. -/
theorem recordVerifiedFill_cases [DecimalContext] (hc : w.conn.Settled)
    (hbefore : project (w.conn.query (fun e ↦ e.sessionId = rt.sessionId)) = .ok before)
    (hw : w' = ((recordVerifiedFill rt order clientOrderId fillPrice (some qty) final stamp :
      RuntimeM β ω _).exec w).1) :
    (w'.conn = w.conn ∧ w'.bus = w.bus ∧ ∀ e : LedgerEvent,
      e.toEventFields = fillFields rt order clientOrderId fillPrice qty final stamp →
        ((append e stamp.faults).exec w.conn).2 ≠ .ok true) ∨
    ∃ e : LedgerEvent,
      e.toEventFields = fillFields rt order clientOrderId fillPrice qty final stamp ∧
      (∀ row ∈ w.conn.rows,
        row.ledgerEventId ≠ e.ledgerEventId ∧ row.idempotencyKey ≠ e.idempotencyKey) ∧
      w'.conn = .ofRows (w.conn.rows ++ [e]) ∧
      ∀ after, project (w'.conn.query (fun e ↦ e.sessionId = rt.sessionId)) = .ok after →
        w'.bus = w.bus ++ filledEvent rt order clientOrderId fillPrice qty final stamp.now ::
          transitionEvents rt before after clientOrderId stamp.now
            (transitionIds before after) := by
  obtain ⟨mapping, hrun⟩ := @exec_recordVerifiedFill β ω rt stamp w order clientOrderId fillPrice
    qty final before _ hbefore
  rw [hrun] at hw
  subst hw
  unfold recordAndAnnounce
  rw [Coro.exec_bind, exec_record]
  cases hmake : makeLedgerEvent (fillFields rt order clientOrderId fillPrice qty final stamp) with
  | none =>
    refine Or.inl ⟨rfl, rfl, fun e he ↦ ?_⟩
    rw [← he, makeLedgerEvent, dif_pos e.valid] at hmake
    cases hmake
  | some e =>
    rcases append_cases hc e stamp.faults with ⟨hsame, hnot⟩ | ⟨hadd, hnew⟩
    · left
      have hmade (e' : LedgerEvent) (he' : e'.toEventFields =
          fillFields rt order clientOrderId fillPrice qty final stamp) :
          ((append e' stamp.faults).exec w.conn).2 ≠ .ok true := by
        rw [← he', makeLedgerEvent, dif_pos e'.valid] at hmake
        cases hmake
        exact hnot
      cases hresult : ((append e stamp.faults).exec w.conn).2 with
      | error err =>
        simp only [hsame, hresult]
        exact ⟨rfl, rfl, hmade⟩
      | ok written =>
        cases written with
        | true => exact absurd hresult hnot
        | false =>
          simp only [hsame, hresult]
          exact ⟨rfl, rfl, hmade⟩
    · right
      refine ⟨e, makeLedgerEvent_eq_some hmake, hnew, ?_⟩
      simp only [hadd, Except.mapError, Except.map, if_true, exec_announce]
      refine ⟨trivial, ?_⟩
      intro after hafter
      rw [hafter]

/-- A fill with valid fields and a new id is on record after the call, when the driver raises
nothing. -/
theorem key_mem_recordVerifiedFill [DecimalContext] (hc : w.conn.Settled)
    (hbefore : project (w.conn.query (fun e ↦ e.sessionId = rt.sessionId)) = .ok before)
    (hvalid : (fillFields rt order clientOrderId fillPrice qty final stamp).Valid)
    (hfaults : stamp.faults = AppendFaults.none)
    (hid : ∀ row ∈ w.conn.rows, row.ledgerEventId ≠ stamp.ledgerEventId)
    (hw : w' = ((recordVerifiedFill rt order clientOrderId fillPrice (some qty) final stamp :
      RuntimeM β ω _).exec w).1) :
    ∃ row ∈ w'.conn.rows, row.idempotencyKey =
      (fillFields rt order clientOrderId fillPrice qty final stamp).idempotencyKey := by
  rcases recordVerifiedFill_cases hc hbefore hw with ⟨hsame, -, hnot⟩ | ⟨e, he, -, hconn, -⟩
  · rw [hsame]
    by_contra hno
    push Not at hno
    refine hnot ⟨_, hvalid⟩ rfl ?_
    rw [hfaults, exec_append_new hc]
    exact fun row hrow ↦ ⟨hid row hrow, hno row hrow⟩
  · refine ⟨e, ?_, by rw [he]⟩
    rw [hconn]
    exact List.mem_append_right _ List.mem_cons_self

end Fill

end Joker.Runtime
