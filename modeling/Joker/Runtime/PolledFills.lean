import Joker.Ledger.ProjectionKeys
import Joker.Ledger.RepeatedFills
import Joker.Runtime.ClockedSession
import Joker.Runtime.OrderUpdates
import Joker.Runtime.VerifiedFills

/-!
# Polling a filled order

Library `Runtime`. An order that the broker reports filled is polled and updated any number of
times, at any verified prices, with restarts between. Each new price brings a new fill event into
the ledger. In a session whose rows sort as they were recorded the first of them fills the order
and moves the position, and the clamp leaves nothing for the others.
-/

namespace Joker.Runtime

open Joker.Base Joker.Ledger Joker.Broker CostAccount

variable {β ω : Type}

/-! ### Runs -/

/-- What happens to the order after its submission: a poll, an update, or a new runtime on the
same ledger. -/
inductive PollAction (ω : Type) where
  | poll (inputs : PollInputs ω)
  | update (clientOrderId : Option String) (inputs : UpdateInputs ω)
  | restart

/-- The stamps of an action, in the order it takes them. -/
def PollAction.stamps : PollAction ω → List Stamp
  | .poll inputs => [inputs.update.update, inputs.update.fill]
  | .update _ inputs => [inputs.update, inputs.fill]
  | .restart => []

section Order

variable [BrokerClient β ω] (rt : ExecutionRuntime) (order : BrokerOrder)
  (clientOrderId : String)

/-- The world after an action, whether its call returns or raises. -/
def pollStep [DecimalContext] (w : World β) : PollAction ω → World β
  | .poll inputs => ((pollOrderStatus rt clientOrderId inputs).exec w).1
  | .update named inputs => ((onBrokerUpdate rt order named inputs).exec w).1
  | .restart =>
    { w with clientToBroker := Function.update w.clientToBroker rt.index Dict.empty }

/-- The broker id that a poll asks for. -/
def mappedId (w : World β) : Option String :=
  match (w.clientToBroker rt.index).get? clientOrderId with
  | some id => some id
  | none => (mappingOf (w.conn.query (fun e ↦ e.sessionId = rt.sessionId))).get? clientOrderId

/-- The action is about the order: a poll that finds an order at the broker finds this one, and
an update is under its client order id. -/
def AboutOrder (w : World β) : PollAction ω → Prop
  | .poll inputs => ∀ id ∈ mappedId rt clientOrderId w, ∀ found b,
      (BrokerClient.getOrder id inputs.lookup).exec w.broker = (b, .ok (some found)) →
        found = order
  | .update named _ => clientIdFor order named = clientOrderId
  | .restart => True

/-- The fill that an update records at a price. -/
def updateFill (price : Decimal) (stamp : Stamp) : EventFields :=
  fillFields rt order clientOrderId price (Decimal.ofInt order.quantity) true stamp

/-- Nothing stands in the way of recording a fill at the price: its fields pass validation, its
id is new and the driver raises nothing. -/
structure Recordable (w : World β) (price : Decimal) (stamp : Stamp) : Prop where
  valid : (updateFill rt order clientOrderId price stamp).Valid
  faultless : stamp.faults = AppendFaults.none
  newId : ∀ row ∈ w.conn.rows, row.ledgerEventId ≠ stamp.ledgerEventId

/-- The action gets the order and a verified price from the broker, and can record the fill. -/
def Reports (w : World β) : PollAction ω → Prop
  | .poll inputs => ∃ id ∈ mappedId rt clientOrderId w, ∃ b price,
      (BrokerClient.getOrder id inputs.lookup).exec w.broker = (b, .ok (some order)) ∧
      ((verifiedFillPrice order inputs.update.price).exec b).2 = .ok (some price) ∧
      Recordable rt order clientOrderId w price inputs.update.fill
  | .update _ inputs => ∃ price,
      ((verifiedFillPrice order inputs.price).exec w.broker).2 = .ok (some price) ∧
      Recordable rt order clientOrderId w price inputs.fill
  | .restart => False

/-- The circumstances: the order's submission is on record with the order's quantity, the broker
reports the order filled, and no fill of it is on record. -/
structure Submitted [DecimalContext] (w : World β) (state : ProjectionState)
    (known : OrderLifecycle) : Prop where
  filled : order.status = .filled
  settled : w.conn.Settled
  projected : project (sessionRows rt w) = .ok state
  onRecord : state.orders.get? clientOrderId = some known
  submitted : known.submittedQty = order.quantity
  unfilled : known.filledQty = 0
  newFills : ∀ row ∈ w.conn.rows, ∀ price stamp,
    row.idempotencyKey ≠ (updateFill rt order clientOrderId price stamp).idempotencyKey

/-- The order counts as filled once, at a price: with its quantity, and the positions are what
one fill of that quantity makes of them. Its own position's quantity is settled by it as far as the
context keeps it. -/
structure FilledOnce [DecimalContext] (e : LedgerEvent) (price : ℚ)
    (before after : ProjectionState) : Prop where
  lifecycle : ∃ known, after.orders.get? clientOrderId = some known ∧
    known.filledQty = order.quantity ∧ (0 < order.quantity → known.avgFillPrice = some price)
  positions : ∀ c, (after.position c).holding =
    (ensurePosition c (applyFillToPosition e price order.quantity before.positions)).holding
  quantity : KeepsPosition (before.position (contractIdFor order.contract)).quantity order.side
      order.quantity →
    (after.position (contractIdFor order.contract)).quantity =
      settle (before.position (contractIdFor order.contract)).quantity
        (order.side.signed order.quantity)

/-- The order counts as filled once, at the price of the first fill recorded since a world. -/
def FilledAtFirst [DecimalContext] (start : World β) (before : ProjectionState) (w : World β) :
    Prop :=
  ∃ e rest price after, w.conn.rows = start.conn.rows ++ e :: rest ∧
    e.IsFillOf clientOrderId (contractIdFor order.contract) order.side ∧ e.price = some price ∧
    project (sessionRows rt w) = .ok after ∧ FilledOnce order clientOrderId e price before after

end Order

/-! ### One call -/

private theorem exec_mappedOrRestored (rt : ExecutionRuntime) (clientOrderId : String)
    (w : World β) :
    ∃ mapping, (mappedOrRestored rt clientOrderId : RuntimeM β ω _).exec w =
      ({ w with clientToBroker := mapping }, .ok (mappedId rt clientOrderId w)) := by
  unfold mappedOrRestored mappedId
  rw [Coro.exec_bind]
  change ∃ mapping, (match (w.clientToBroker rt.index).get? clientOrderId with
    | some id => pure (some id)
    | none => _ : RuntimeM β ω (Option String)).exec w = _
  cases (w.clientToBroker rt.index).get? clientOrderId with
  | some id => exact ⟨_, rfl⟩
  | none =>
    simp only [restoreOrderMappings, Coro.exec_bind, exec_ledger]
    exact ⟨_, rfl⟩

section Call

variable [BrokerClient β ω] (rt : ExecutionRuntime) (w : World β)

/-- An update of a filled order records a fill at the verified price, or leaves the ledger
alone where there is none. -/
theorem onBrokerUpdate_filled [DecimalContext] {order : BrokerOrder} (hs : order.status = .filled)
    (named : Option String) (inputs : UpdateInputs ω) :
    (∃ price w', w'.conn = w.conn ∧
      ((verifiedFillPrice order inputs.price).exec w.broker).2 = .ok (some price) ∧
      ((onBrokerUpdate rt order named inputs).exec w).1 =
        ((recordVerifiedFill rt order (clientIdFor order named) price
          (some (Decimal.ofInt order.quantity)) true inputs.fill : RuntimeM β ω _).exec w').1) ∨
    ((∀ price, ((verifiedFillPrice order inputs.price).exec w.broker).2 ≠ .ok (some price)) ∧
      ((onBrokerUpdate rt order named inputs).exec w).1.conn = w.conn) := by
  unfold onBrokerUpdate
  simp only [hs, if_true]
  rw [Coro.exec_bind]
  unfold sync
  rw [Coro.exec_handle, Coro.exec_whole, Coro.exec_bind]
  unfold setDefaultMapping setMap
  rw [Coro.exec_atomic]
  simp only [exec_broker]
  cases hprice : ((verifiedFillPrice order inputs.price).exec w.broker).2 with
  | error err => exact Or.inr ⟨nofun, rfl⟩
  | ok price =>
    cases price with
    | none => exact Or.inr ⟨nofun, rfl⟩
    | some price =>
      left
      refine ⟨price, ?_, ?_, rfl, ?_⟩
      rotate_left 2
      · rfl
      · rfl

/-- A poll updates the order it finds at the broker, or leaves the ledger alone. -/
theorem pollOrderStatus_cases [DecimalContext] (clientOrderId : String) (inputs : PollInputs ω) :
    (∃ id b found w', mappedId rt clientOrderId w = some id ∧
      (BrokerClient.getOrder id inputs.lookup).exec w.broker = (b, .ok (some found)) ∧
      w'.conn = w.conn ∧ w'.broker = b ∧
      ((pollOrderStatus rt clientOrderId inputs).exec w).1 =
        ((onBrokerUpdate rt found (some clientOrderId) inputs.update).exec w').1) ∨
    ((∀ id ∈ mappedId rt clientOrderId w, ∀ b found,
        (BrokerClient.getOrder id inputs.lookup).exec w.broker ≠ (b, .ok (some found))) ∧
      ((pollOrderStatus rt clientOrderId inputs).exec w).1.conn = w.conn) := by
  obtain ⟨mapping, hmapped⟩ := @exec_mappedOrRestored β ω rt clientOrderId w
  unfold pollOrderStatus
  rw [Coro.exec_bind, hmapped]
  simp only
  cases mappedId rt clientOrderId w with
  | none => exact Or.inr ⟨nofun, rfl⟩
  | some id =>
    simp only
    rw [Coro.exec_bind]
    unfold sync
    rw [Coro.exec_handle, Coro.exec_whole, exec_broker]
    rcases hget : (BrokerClient.getOrder id inputs.lookup).exec w.broker with ⟨b, result⟩
    simp only
    cases result with
    | error err =>
      right
      refine ⟨?_, rfl⟩
      rintro _ ⟨⟩ b' found he
      rw [hget] at he
      cases he
    | ok found =>
      cases found with
      | none =>
        right
        refine ⟨?_, rfl⟩
        rintro _ ⟨⟩ b' found he
        rw [hget] at he
        cases he
      | some found =>
        left
        refine ⟨id, b, found, { w with clientToBroker := mapping, broker := b }, rfl, hget, rfl,
          rfl, ?_⟩
        simp only [Coro.exec_bind]
        rcases (onBrokerUpdate rt found (some clientOrderId) inputs.update).exec
          { w with clientToBroker := mapping, broker := b } with ⟨w', result⟩
        cases result <;> rfl

end Call

/-! ### Steps -/

section Steps

variable (rt : ExecutionRuntime) (order : BrokerOrder) (clientOrderId : String)
  (start : World β) (r₀ : Replay)

/-- One fill of the order on record since the start counts. -/
def RecordedOnce [DecimalContext] (w : World β) : Prop :=
  ∃ e rest price r, w.conn.rows = start.conn.rows ++ e :: rest ∧
    e.IsFillOf clientOrderId (contractIdFor order.contract) order.side ∧
    e.quantity = (order.quantity : ℚ) ∧ e.price = some price ∧
    replay Replay.start (ownRows rt w) = .ok r ∧ CountsFill e price r₀.tables r.tables

/-- The session is in clock order, and a fill of the order is recorded once, or none is yet where
that is allowed. -/
def Polled [DecimalContext] (allowed : Prop) (future : List Stamp) (w : World β) : Prop :=
  InTime rt future w ∧
    (allowed ∧ w.conn.rows = start.conn.rows ∨ RecordedOnce rt order clientOrderId start r₀ w)

/-- The assertion, with the stamps to come. -/
def polled [DecimalContext] (allowed : Prop) : LookAhead Stamp (World β) where
  holds := Polled rt order clientOrderId start r₀ allowed
  skip hsub h := ⟨h.1.skip hsub, h.2⟩

variable {rt order clientOrderId start r₀} {allowed : Prop} {stamp : Stamp} {future : List Stamp}
  {w w' : World β}

private theorem Polled.of_conn [DecimalContext]
    (h : Polled rt order clientOrderId start r₀ allowed future w)
    (hconn : w'.conn = w.conn) : Polled rt order clientOrderId start r₀ allowed future w' := by
  refine ⟨h.1.of_conn hconn, ?_⟩
  unfold RecordedOnce ownRows
  rw [hconn]
  exact h.2

private theorem Polled.skip [DecimalContext]
    (h : Polled rt order clientOrderId start r₀ allowed (stamp :: future) w) :
    Polled rt order clientOrderId start r₀ allowed future w :=
  ⟨h.1.skip (List.sublist_cons_self stamp future), h.2⟩

private theorem isFillOf_of_fields {e : LedgerEvent} {price qty : Decimal}
    (he : e.toEventFields = fillFields rt order clientOrderId price qty true stamp) :
    e.IsFillOf clientOrderId (contractIdFor order.contract) order.side where
  fill := by
    unfold LedgerEvent.isFill
    rw [he]
    rfl
  priced := by
    rw [he]
    exact nofun
  capped := by
    unfold allowOverfill
    rw [he]
    rfl
  order := by
    rw [he]
    rfl
  contract := by
    rw [he]
    rfl
  direction := by
    rw [he]
    rfl

variable {state : ProjectionState} {known : OrderLifecycle}

private theorem exists_replay [DecimalContext]
    (hr₀ : replay Replay.start (ownRows rt start) = .ok r₀)
    (h : Polled rt order clientOrderId start r₀ allowed future w) :
    ∃ r, replay Replay.start (ownRows rt w) = .ok r := by
  rcases h.2 with ⟨-, hsame⟩ | ⟨e, rest, price', r, -, -, -, -, hr, -⟩
  · refine ⟨r₀, ?_⟩
    unfold ownRows at hr₀ ⊢
    rwa [hsame]
  · exact ⟨r, hr⟩

private theorem project_of_replay [DecimalContext] (htime : InTime rt future w) {r : Replay}
    (hr : replay Replay.start (ownRows rt w) = .ok r) :
    project (w.conn.query (fun e ↦ e.sessionId = rt.sessionId)) = .ok r.freeze := by
  rw [htime.query]
  exact project_eq_ok.mpr ⟨r, hr, rfl⟩

/-- The step: a recorded fill is counted where it is the first, and nothing is counted again. -/
theorem polled_recordVerifiedFill [DecimalContext]
    (hs : Submitted rt order clientOrderId start state known) (hkept : Kept (order.quantity : ℚ))
    (hr₀ : replay Replay.start (ownRows rt start) = .ok r₀) (hfreeze : r₀.freeze = state)
    (h : Polled rt order clientOrderId start r₀ allowed (stamp :: future) w) (price : Decimal) :
    Polled rt order clientOrderId start r₀ allowed future
      ((recordVerifiedFill rt order clientOrderId price (some (Decimal.ofInt order.quantity)) true
        stamp : RuntimeM β ω _).exec w).1 := by
  obtain ⟨r, hr⟩ := exists_replay hr₀ h
  obtain ⟨htime, hout⟩ := h
  have hbefore := project_of_replay htime hr
  generalize hw : ((recordVerifiedFill rt order clientOrderId price
    (some (Decimal.ofInt order.quantity)) true stamp : RuntimeM β ω _).exec w).1 = w'
  rcases recordVerifiedFill_cases htime.settled hbefore hw.symm with
    ⟨hconn, -, -⟩ | ⟨e, he, hnew, hconn, -⟩
  · exact Polled.of_conn ⟨htime.skip (List.sublist_cons_self stamp future), hout⟩ hconn
  · have hstamped : Stamped rt stamp e.toEventFields := he ▸ ⟨rfl, rfl, rfl, rfl⟩
    have hfill := isFillOf_of_fields he
    have hquantity : e.quantity = (order.quantity : ℚ) := by
      rw [he]
      exact Decimal.toRat_ofInt order.quantity
    have hprice : e.price = some price.toRat := by
      rw [he]
      rfl
    have hplain : e.NotCorrection := by
      unfold LedgerEvent.NotCorrection
      rw [he]
      exact nofun
    have hfresh : r.Fresh e :=
      fresh_of_new hr (fun row hrow ↦ hnew row (List.mem_filter.mp hrow).1)
    have hrows := ownRows_append hstamped.session hconn
    have hnext : replay Replay.start (ownRows rt w') = .ok (r.next e) := by
      rw [hrows, replay_snoc, hr]
      exact step_eq_next r e hplain
    refine ⟨htime.append hstamped hconn, Or.inr ?_⟩
    rcases hout with ⟨-, hsame⟩ | ⟨first, rest, price', r', hgrown, hfirst, hq, hp, hr', hcounts⟩
    · have hr₀r : r = r₀ := by
        unfold ownRows at hr hr₀
        rw [hsame, hr₀] at hr
        exact (Except.ok.inj hr).symm
      subst hr₀r
      refine ⟨e, [], price.toRat, _, ?_, hfill, hquantity, hprice, hnext, ?_⟩
      · rw [hconn, hsame]
        rfl
      · have hk : r.tables.orders.get? clientOrderId = some known := by
          rw [← hs.onRecord, ← hfreeze]
          rfl
        exact countsFill_first hfill hprice hfresh hk (hs.submitted.trans hquantity.symm)
          hs.unfilled (hquantity.symm ▸ hkept)
    · rw [hr] at hr'
      cases hr'
      refine ⟨first, rest ++ [e], price', _, ?_, hfirst, hq, hp, hnext, ?_⟩
      · rw [hconn, hgrown]
        simp [Conn.ofRows]
      · exact countsFill_again hcounts hfirst.order hfill (hquantity.trans hq.symm)

/-- A fill that nothing stands in the way of is on record after the call. -/
theorem recorded_recordVerifiedFill [DecimalContext]
    (hs : Submitted rt order clientOrderId start state known) (hkept : Kept (order.quantity : ℚ))
    (hr₀ : replay Replay.start (ownRows rt start) = .ok r₀) (hfreeze : r₀.freeze = state)
    (h : Polled rt order clientOrderId start r₀ True (stamp :: future) w) {price : Decimal}
    (hrecord : Recordable rt order clientOrderId w price stamp) :
    Polled rt order clientOrderId start r₀ False future
      ((recordVerifiedFill rt order clientOrderId price (some (Decimal.ofInt order.quantity)) true
        stamp : RuntimeM β ω _).exec w).1 := by
  obtain ⟨htime, hout⟩ := @polled_recordVerifiedFill β ω rt order clientOrderId start r₀ True
    stamp future w state known _ hs hkept hr₀ hfreeze h price
  refine ⟨htime, Or.inr ?_⟩
  rcases hout with ⟨-, hsame⟩ | hrecorded
  · obtain ⟨r, hr⟩ := exists_replay hr₀ h
    obtain ⟨row, hrow, hkey⟩ := @key_mem_recordVerifiedFill β ω rt stamp w _ order clientOrderId
      price (Decimal.ofInt order.quantity) true _ _ h.1.settled (project_of_replay h.1 hr)
      hrecord.valid hrecord.faultless hrecord.newId rfl
    rw [hsame] at hrow
    exact absurd hkey (hs.newFills row hrow price stamp)
  · exact hrecorded

section Actions

variable [BrokerClient β ω]

private theorem polled_onBrokerUpdate [DecimalContext]
    (hs : Submitted rt order clientOrderId start state known) (hkept : Kept (order.quantity : ℚ))
    (hr₀ : replay Replay.start (ownRows rt start) = .ok r₀) (hfreeze : r₀.freeze = state)
    {named : Option String} (hnamed : clientIdFor order named = clientOrderId)
    (inputs : UpdateInputs ω)
    (h : Polled rt order clientOrderId start r₀ allowed (inputs.update :: inputs.fill :: future)
      w) :
    Polled rt order clientOrderId start r₀ allowed future
      ((onBrokerUpdate rt order named inputs).exec w).1 := by
  rcases onBrokerUpdate_filled rt w hs.filled named inputs with
    ⟨price, w', hconn, -, hrun⟩ | ⟨-, hconn⟩
  · rw [hrun, hnamed]
    exact polled_recordVerifiedFill hs hkept hr₀ hfreeze (h.skip.of_conn hconn) price
  · exact h.skip.skip.of_conn hconn

private theorem recorded_onBrokerUpdate [DecimalContext]
    (hs : Submitted rt order clientOrderId start state known) (hkept : Kept (order.quantity : ℚ))
    (hr₀ : replay Replay.start (ownRows rt start) = .ok r₀) (hfreeze : r₀.freeze = state)
    {named : Option String} (hnamed : clientIdFor order named = clientOrderId)
    {inputs : UpdateInputs ω} {price : Decimal}
    (hprice : ((verifiedFillPrice order inputs.price).exec w.broker).2 = .ok (some price))
    (hrecord : Recordable rt order clientOrderId w price inputs.fill)
    (h : Polled rt order clientOrderId start r₀ True (inputs.update :: inputs.fill :: future) w) :
    Polled rt order clientOrderId start r₀ False future
      ((onBrokerUpdate rt order named inputs).exec w).1 := by
  rcases onBrokerUpdate_filled rt w hs.filled named inputs with
    ⟨price', w', hconn, hprice', hrun⟩ | ⟨hnone, -⟩
  · rw [hprice] at hprice'
    cases hprice'
    have hrecord' : Recordable rt order clientOrderId w' price inputs.fill :=
      ⟨hrecord.valid, hrecord.faultless, hconn ▸ hrecord.newId⟩
    rw [hrun, hnamed]
    exact recorded_recordVerifiedFill hs hkept hr₀ hfreeze (h.skip.of_conn hconn) hrecord'
  · exact absurd hprice (hnone price)

private theorem clientIdFor_polled [DecimalContext]
    (hs : Submitted rt order clientOrderId start state known)
    (hr₀ : replay Replay.start (ownRows rt start) = .ok r₀) (hfreeze : r₀.freeze = state) :
    clientIdFor order (some clientOrderId) = clientOrderId := by
  have hne : clientOrderId ≠ "" := by
    rintro rfl
    have hnone := get?_orders_empty_replay hr₀
    have hsome := hs.onRecord
    rw [← hfreeze] at hsome
    exact absurd (hnone.symm.trans hsome) nofun
  unfold clientIdFor orText
  exact if_neg hne

/-- The step: an action about the order keeps the assertion about the stamps after its own. -/
theorem polled_pollStep [DecimalContext] (hs : Submitted rt order clientOrderId start state known)
    (hkept : Kept (order.quantity : ℚ))
    (hr₀ : replay Replay.start (ownRows rt start) = .ok r₀) (hfreeze : r₀.freeze = state)
    {action : PollAction ω} (habout : AboutOrder rt order clientOrderId w action)
    (h : Polled rt order clientOrderId start r₀ allowed (action.stamps ++ future) w) :
    Polled rt order clientOrderId start r₀ allowed future
      (pollStep rt order clientOrderId w action) := by
  cases action with
  | poll inputs =>
    unfold pollStep
    simp only
    rcases pollOrderStatus_cases rt w clientOrderId inputs with
      ⟨id, b, found, w', hid, hget, hconn, -, hrun⟩ | ⟨-, hconn⟩
    · rw [habout id hid found b hget] at hrun
      rw [hrun]
      exact polled_onBrokerUpdate hs hkept hr₀ hfreeze (clientIdFor_polled hs hr₀ hfreeze)
        inputs.update (h.of_conn hconn)
    · exact h.skip.skip.of_conn hconn
  | update named inputs => exact polled_onBrokerUpdate hs hkept hr₀ hfreeze habout inputs h
  | restart => exact h.of_conn rfl

/-- The step of an action that gets a verified price: afterwards a fill is on record. -/
theorem recorded_pollStep [DecimalContext] (hs : Submitted rt order clientOrderId start state known)
    (hkept : Kept (order.quantity : ℚ))
    (hr₀ : replay Replay.start (ownRows rt start) = .ok r₀) (hfreeze : r₀.freeze = state)
    {action : PollAction ω} (habout : AboutOrder rt order clientOrderId w action)
    (hreports : Reports rt order clientOrderId w action)
    (h : Polled rt order clientOrderId start r₀ True (action.stamps ++ future) w) :
    Polled rt order clientOrderId start r₀ False future
      (pollStep rt order clientOrderId w action) := by
  cases action with
  | poll inputs =>
    obtain ⟨id, hid, b, price, hget, hprice, hrecord⟩ := hreports
    unfold pollStep
    simp only
    rcases pollOrderStatus_cases rt w clientOrderId inputs with
      ⟨id', b', found, w', hid', hget', hconn, hbroker, hrun⟩ | ⟨hnone, -⟩
    · rw [Option.mem_def.mp hid] at hid'
      cases hid'
      rw [hget] at hget'
      cases hget'
      rw [hrun]
      have hrecord' : Recordable rt order clientOrderId w' price inputs.update.fill :=
        ⟨hrecord.valid, hrecord.faultless, hconn ▸ hrecord.newId⟩
      exact recorded_onBrokerUpdate hs hkept hr₀ hfreeze (clientIdFor_polled hs hr₀ hfreeze)
        (hbroker ▸ hprice) hrecord' (h.of_conn hconn)
    · exact absurd hget (hnone id hid b order)
  | update named inputs =>
    obtain ⟨price, hprice, hrecord⟩ := hreports
    exact recorded_onBrokerUpdate hs hkept hr₀ hfreeze habout hprice hrecord h
  | restart => exact hreports.elim

/-- The run: an order that the broker reports filled, of a quantity that the context keeps, polled
and updated any number of times at any verified prices with restarts between, counts as filled once,
at the first recorded price, in a session whose rows and stamps sort in the order they are taken. -/
theorem polled_filledAtFirst [DecimalContext]
    (hs : Submitted rt order clientOrderId start state known)
    (hkept : Kept (order.quantity : ℚ))
    {actions : List (PollAction ω)}
    (habout : StepsMeet (pollStep rt order clientOrderId) (AboutOrder rt order clientOrderId) start
      actions)
    (hclock : ((ownRows rt start).map sortKey ++
      (actions.flatMap PollAction.stamps).map Stamp.key).Pairwise (· ≤ ·))
    (hreports : ∃ pre action post, actions = pre ++ action :: post ∧
      Reports rt order clientOrderId (run (pollStep rt order clientOrderId) start pre) action) :
    FilledAtFirst rt order clientOrderId start state
      (run (pollStep rt order clientOrderId) start actions) := by
  have htime : InTime rt (actions.flatMap PollAction.stamps ++ []) start := by
    refine ⟨hs.settled, ?_⟩
    rw [List.append_nil]
    exact hclock
  have hprojected := hs.projected
  unfold sessionRows at hprojected
  rw [htime.query] at hprojected
  obtain ⟨r₀, hr₀, hfreeze⟩ := project_eq_ok.mp hprojected
  have hstep (allowed : Prop) (action : PollAction ω) (future : List Stamp) (w : World β)
      (ha : AboutOrder rt order clientOrderId w action)
      (h : (polled rt order clientOrderId start r₀ allowed).holds (action.stamps ++ future) w) :
      (polled rt order clientOrderId start r₀ allowed).holds future
        (pollStep rt order clientOrderId w action) := polled_pollStep hs hkept hr₀ hfreeze ha h
  -- Until the report a fill may be on record; from then on one is.
  obtain ⟨pre, action, post, rfl, hreport⟩ := hreports
  obtain ⟨hpre, haction, hpost⟩ := stepsMeet_append.mp habout
  rw [List.flatMap_append, List.flatMap_cons, List.append_assoc, List.append_assoc] at htime
  have hbefore := (polled rt order clientOrderId start r₀ True).holds_run (hstep True) hpre
    ⟨htime, Or.inl ⟨trivial, rfl⟩⟩
  have hat := recorded_pollStep hs hkept hr₀ hfreeze haction hreport hbefore
  have hafter := (polled rt order clientOrderId start r₀ False).holds_run (hstep False) hpost hat
  rw [run_append, run_cons]
  obtain ⟨hend, ⟨hno, -⟩ | ⟨e, rest, price, r, hgrown, he, hq, hp, hr, hcounts⟩⟩ := hafter
  · exact hno.elim
  · refine ⟨e, rest, price, r.freeze, hgrown, he, hp, project_of_replay hend hr, ?_⟩
    have hpositions (c : String) : (r.freeze.position c).holding =
        (ensurePosition c
          (applyFillToPosition e price order.quantity state.positions)).holding := by
      rw [position_freeze, holding_toModel (hcounts.position c), toModel_applyFillToPosition, hq,
        ← hfreeze]
      rfl
    constructor
    · obtain ⟨filled, hfound, -, hfilled, hprice⟩ := hcounts.order
      rw [he.order] at hfound
      refine ⟨filled, hfound, hfilled.trans hq, fun hpos ↦ hprice ?_⟩
      rw [hq]
      exact Int.cast_pos.mpr hpos
    · exact hpositions
    · intro hposition
      rw [← he.contract, ← he.direction] at hposition ⊢
      exact (quantity_of_holding (hpositions e.contractId)).trans
        (quantity_applyFillToPosition_of_kept e price (hq ▸ e.quantity_nonneg) _ hposition)

end Actions

end Steps

/-! ### Samples -/

open scoped DefaultContext

/-- A broker that passes on what its venue answers about an order and its price. -/
structure Relay where
  deriving DecidableEq

/-- What the venue answers in one stretch. -/
structure RelayAnswers where
  order : Option BrokerOrder
  price : Option PyFloat

instance : BrokerClient Relay RelayAnswers where
  submitOrder _ _ := Coro.raise (brokerError "no orders")
  cancelOrder _ _ := Coro.raise (brokerError "no orders")
  getOrder _ answers := stretch (fun b ↦ (b, .ok answers.order))
  listOpenOrders _ := stretch (fun b ↦ (b, .ok []))
  findOrderByIntentId := none
  orders _ := none
  getFillPrice := some (fun _ answers ↦ stretch (fun b ↦ (b, .ok answers.price)))
  fills _ := none

/-- The order to buy three, filled. -/
def threeFilled : BrokerOrder := { threeBought with status := .filled }

/-- The venue reports the order filled at so many cents. -/
def filledAtCents (order : BrokerOrder) (cents : ℕ) : RelayAnswers :=
  ⟨some order, some ⟨⟨false, cents, -2⟩⟩⟩

/-- An update at a second, whose fill gets an id and a price. -/
def updateAt (order : BrokerOrder) (second : ℕ) (id : Uuid) (cents : ℕ) :
    UpdateInputs RelayAnswers :=
  ⟨.sample "e" second, .sample id second, filledAtCents order cents⟩

/-- The ledger with the order's submission, and the relay. -/
def relayed : World Relay := { World.new ⟨⟩ with conn := threeSubmitted.conn }

private theorem key_ne_updateFill {key first : String} (rt : ExecutionRuntime)
    (order : BrokerOrder) (clientOrderId : String) (price : Decimal) (stamp : Stamp) {rest : String}
    (hkey : key = joinSep ':' first rest) (hfirst : ':' ∉ first.toList) (hne : first ≠ "fill") :
    key ≠ (updateFill rt order clientOrderId price stamp).idempotencyKey := by
  intro h
  rw [hkey] at h
  exact hne (((joinSep_inj hfirst (by decide)).mp h).1)

private theorem submitted_relayed :
    Submitted ⟨0, "s", "a"⟩ threeFilled "c" relayed threeProjected threeKnown where
  filled := rfl
  settled := rfl
  projected := by decide +kernel
  onRecord := by decide +kernel
  submitted := by decide +kernel
  unfilled := by decide +kernel
  newFills := by
    intro row hrow price stamp
    rw [List.mem_singleton.mp hrow]
    exact key_ne_updateFill _ _ _ _ _ (by decide : _ = joinSep ':' "submit-req" "c") (by decide)
      (by decide)

/-- An update, a new runtime, and a poll that gets another price. -/
def updatedAndPolled : List (PollAction RelayAnswers) :=
  [.update (some "c") (updateAt threeFilled 1 "f1" 150), .restart,
    .poll ⟨filledAtCents threeFilled 140, updateAt threeFilled 2 "f2" 140⟩]

/-- The order that is updated and polled at two prices counts as filled once. -/
theorem polled_filledAtFirst_updatedAndPolled :
    FilledAtFirst ⟨0, "s", "a"⟩ threeFilled "c" relayed threeProjected
      (run (pollStep ⟨0, "s", "a"⟩ threeFilled "c") relayed updatedAndPolled) := by
  refine polled_filledAtFirst submitted_relayed (by decide +kernel) ?_ (by decide +kernel) ?_
  · have hnamed : clientIdFor threeFilled (some "c") = "c" := by decide
    refine ⟨hnamed, trivial, ?_, trivial⟩
    rintro id - found b ⟨⟩
    rfl
  · exact ⟨[], _, _, rfl, ⟨false, 150, -2⟩, rfl, by decide +kernel, rfl, by decide +kernel⟩

/-- The order counts as filled with its quantity at the price of the first fill recorded since a
world, and the position has moved by exactly that quantity. -/
def MovedByQuantity (rt : ExecutionRuntime) (order : BrokerOrder) (clientOrderId : String)
    (start : World β) (before : ProjectionState) (w : World β) : Prop :=
  ∃ e rest price after known, w.conn.rows = start.conn.rows ++ e :: rest ∧
    e.price = some price ∧ project (sessionRows rt w) = .ok after ∧
    after.orders.get? clientOrderId = some known ∧ known.filledQty = order.quantity ∧
    known.avgFillPrice = some price ∧
    (after.position (contractIdFor order.contract)).quantity =
      (before.position (contractIdFor order.contract)).quantity +
        order.side.signed order.quantity

private theorem not_movedByQuantity_of_position {rt : ExecutionRuntime} {order : BrokerOrder}
    {clientOrderId : String} {start w : World β} {before : ProjectionState} (quantity : ℚ)
    (hafter : (project (sessionRows rt w)).toOption.map
      (fun after ↦ (after.position (contractIdFor order.contract)).quantity) = some quantity)
    (hne : quantity ≠ (before.position (contractIdFor order.contract)).quantity +
      order.side.signed order.quantity) :
    ¬ MovedByQuantity rt order clientOrderId start before w := by
  rintro ⟨e, rest, price, after, known, -, -, hproject, -, -, -, hposition⟩
  rw [hproject] at hafter
  exact hne ((Option.some.inj hafter).symm.trans hposition)

/-- Two updates at one instant; the id of the second fill sorts first. -/
def updatedTogether : List (PollAction RelayAnswers) :=
  [.update (some "c") (updateAt threeFilled 1 "z" 150),
    .update (some "c") (updateAt threeFilled 1 "y" 140)]

/-- The order to buy three, sold instead. -/
def threeSold : BrokerOrder := { threeFilled with side := .sell }

/-- One contract held, and the submission of an order to sell three. -/
def oneHeld : World Relay :=
  { World.new ⟨⟩ with
    conn := .ofRows
      [⟨eventFields ⟨0, "s", "a"⟩ (.sample "held" 0) .finalFill "a" "d"
          (contractIdFor threeSold.contract) .buy 1 "held:d" none (some 1) Dict.empty,
          by decide +kernel⟩,
        ⟨eventFields ⟨0, "s", "a"⟩ (.sample "submission" 0) .orderSubmissionRequested "a" "c"
          (contractIdFor threeSold.contract) .sell 3 "submit-req:c" none none Dict.empty,
          by decide +kernel⟩] }

/-- The projection of that ledger. -/
def oneHeldProjected : ProjectionState :=
  (run Replay.next Replay.start oneHeld.conn.rows).freeze

private theorem submitted_oneHeld :
    Submitted ⟨0, "s", "a"⟩ threeSold "c" oneHeld oneHeldProjected
      { threeKnown with side := .sell } where
  filled := rfl
  settled := rfl
  projected := by decide +kernel
  onRecord := by decide +kernel
  submitted := by decide +kernel
  unfilled := by decide +kernel
  newFills := by
    intro row hrow price stamp
    rcases List.mem_cons.mp hrow with rfl | hrow
    · exact key_ne_updateFill _ _ _ _ _ (by decide : _ = joinSep ':' "held" "d") (by decide)
        (by decide)
    · rw [List.mem_singleton.mp hrow]
      exact key_ne_updateFill _ _ _ _ _ (by decide : _ = joinSep ':' "submit-req" "c") (by decide)
        (by decide)

/-- One update of the order to sell three. -/
def updatedOnce : List (PollAction RelayAnswers) :=
  [.update (some "c") (updateAt threeSold 1 "f1" 150)]

/-- An update without a client order id, which is then the order's intent, and one with it. -/
def updatedByIntent : List (PollAction RelayAnswers) :=
  [.update none (updateAt threeFilled 1 "f1" 150),
    .update (some "c") (updateAt threeFilled 2 "f2" 150)]

/-- An order for one contract more than the context counts. -/
def tooManyFilled : BrokerOrder := { threeFilled with quantity := 10 ^ 28 + 1 }

/-- The ledger with that order's submission. -/
def tooManySubmitted : World Relay :=
  { World.new ⟨⟩ with
    conn := .ofRows
      [⟨eventFields ⟨0, "s", "a"⟩ (.sample "submission" 0) .orderSubmissionRequested "a" "c"
          (contractIdFor tooManyFilled.contract) .buy tooManyFilled.quantity
          "submit-req:c" none none Dict.empty, by decide +kernel⟩] }

/-- The projection of that ledger. -/
def tooManyProjected : ProjectionState :=
  (run Replay.next Replay.start tooManySubmitted.conn.rows).freeze

private theorem submitted_tooMany :
    Submitted ⟨0, "s", "a"⟩ tooManyFilled "c" tooManySubmitted tooManyProjected
      { threeKnown with submittedQty := 10 ^ 28 + 1 } where
  filled := rfl
  settled := rfl
  projected := by decide +kernel
  onRecord := by decide +kernel
  submitted := by decide +kernel
  unfilled := by decide +kernel
  newFills := by
    intro row hrow price stamp
    rw [List.mem_singleton.mp hrow]
    exact key_ne_updateFill _ _ _ _ _ (by decide : _ = joinSep ':' "submit-req" "c") (by decide)
      (by decide)

/-- One update of that order. -/
def tooManyUpdated : List (PollAction RelayAnswers) :=
  [.update (some "c") (updateAt tooManyFilled 1 "f1" 150)]

/-- A filled order is not always counted once at the first recorded price: of two fills of one
instant the one with the smaller id is replayed first; a sale closes no more than is held; an update
without the client order id counts the fill for another order; and a quantity of more digits than
the context has is rounded. -/
theorem not_movedByQuantity :
    (Submitted ⟨0, "s", "a"⟩ threeFilled "c" relayed threeProjected threeKnown ∧
      Nondecreasing (updatedTogether.flatMap PollAction.stamps) ∧
      ¬ MovedByQuantity ⟨0, "s", "a"⟩ threeFilled "c" relayed threeProjected
        (run (pollStep ⟨0, "s", "a"⟩ threeFilled "c") relayed updatedTogether)) ∧
    (Submitted ⟨0, "s", "a"⟩ threeSold "c" oneHeld oneHeldProjected
        { threeKnown with side := .sell } ∧
      Nondecreasing (updatedOnce.flatMap PollAction.stamps) ∧
      ¬ MovedByQuantity ⟨0, "s", "a"⟩ threeSold "c" oneHeld oneHeldProjected
        (run (pollStep ⟨0, "s", "a"⟩ threeSold "c") oneHeld updatedOnce)) ∧
    (Submitted ⟨0, "s", "a"⟩ threeFilled "c" relayed threeProjected threeKnown ∧
      Nondecreasing (updatedByIntent.flatMap PollAction.stamps) ∧
      ¬ MovedByQuantity ⟨0, "s", "a"⟩ threeFilled "c" relayed threeProjected
        (run (pollStep ⟨0, "s", "a"⟩ threeFilled "c") relayed updatedByIntent)) ∧
    Submitted ⟨0, "s", "a"⟩ tooManyFilled "c" tooManySubmitted tooManyProjected
        { threeKnown with submittedQty := 10 ^ 28 + 1 } ∧
      Nondecreasing (tooManyUpdated.flatMap PollAction.stamps) ∧
      ¬ MovedByQuantity ⟨0, "s", "a"⟩ tooManyFilled "c" tooManySubmitted tooManyProjected
        (run (pollStep ⟨0, "s", "a"⟩ tooManyFilled "c") tooManySubmitted tooManyUpdated) := by
  refine ⟨⟨submitted_relayed, by decide +kernel, ?_⟩, ⟨submitted_oneHeld, by decide +kernel, ?_⟩,
    ⟨submitted_relayed, by decide +kernel, ?_⟩, submitted_tooMany, by decide +kernel, ?_⟩
  · rintro ⟨e, rest, price, after, known, hrows, hprice, hproject, hknown, -, haverage, -⟩
    have hfirst : ((run (pollStep ⟨0, "s", "a"⟩ threeFilled "c") relayed
        updatedTogether).conn.rows.drop 1).head?.map (fun e ↦ e.price) = some (some (3 / 2)) := by
      decide +kernel
    have hother : (project (sessionRows ⟨0, "s", "a"⟩ (run (pollStep ⟨0, "s", "a"⟩ threeFilled "c")
        relayed updatedTogether))).toOption.bind
          (fun after ↦ (after.orders.get? "c").map (fun known ↦ known.avgFillPrice)) =
        some (some (7 / 5)) := by
      decide +kernel
    rw [hrows] at hfirst
    rw [hproject] at hother
    have hthree : some e.price = some (some (3 / 2)) := hfirst
    have hseven : (after.orders.get? "c").map (fun known ↦ known.avgFillPrice) =
        some (some (7 / 5)) := hother
    rw [hprice] at hthree
    rw [hknown, Option.map_some, haverage, Option.some.inj hthree] at hseven
    exact absurd hseven (by decide +kernel)
  · exact not_movedByQuantity_of_position 0 (by decide +kernel) (by decide +kernel)
  · exact not_movedByQuantity_of_position 6 (by decide +kernel) (by decide +kernel)
  · exact not_movedByQuantity_of_position (10 ^ 28) (by decide +kernel) (by decide +kernel)

end Joker.Runtime
