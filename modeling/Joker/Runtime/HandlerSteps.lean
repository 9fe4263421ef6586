import Joker.Runtime.MarketHandler

/-!
# Steps of the market event handler

Library `Runtime`. What each stretch of the handler's code can do to its state, and the two ways
in which the thread is made of these stretches: a relation that all of them obey is obeyed by
every operation of the thread, and an invariant that all of them keep is kept by the thread, which
has no order with the bridge except where it waits for the answer.
-/

namespace Joker.Runtime

open Joker.Base Joker.Ledger Joker.Broker Joker.Risk Joker.Execution

/-! ### What a stretch can do -/

/-- The first open position that the broker lists. -/
def QuoteInputs.firstOpen (quote : QuoteInputs) : Option Position :=
  match quote.positions with
  | .ok positions => positions.find? (fun pos ↦ pos.isOpen)
  | .error _ => none

/-- An exit order that is not accepted. -/
def refusesExit (order : Except PyException BrokerOrder) : Bool :=
  match order with
  | .ok order => order.status ∈ [BrokerStatus.rejected, .cancelled]
  | .error _ => true

namespace HandlerState

/-- The ledger shows that an order is over. -/
def orderEnded [DecimalContext] (s : HandlerState) (clientOrderId : String) : Bool :=
  match s.projection with
  | .ok projection => endedInLedger (projection.orders.get? clientOrderId)
  | .error _ => false

/-- A pending exit's order is over, at the broker or in the ledger. -/
def exitOver [DecimalContext] (s : HandlerState) (poll : OrderPoll) (pending : PendingExit) :
    Bool :=
  match poll.order with
  | .ok order => endedAtBroker order || s.orderEnded pending.clientOrderId
  | .error _ => false

/-- The position of a contract in the session's projection. -/
def position [DecimalContext] (s : HandlerState) (contractId : String) : Option PositionState :=
  match s.projection with
  | .ok projection => projection.positions.get? contractId
  | .error _ => none

/-- An order in the session's projection. -/
def ledgerOrder [DecimalContext] (s : HandlerState) (clientOrderId : String) :
    Option OrderLifecycle :=
  match s.projection with
  | .ok projection => projection.orders.get? clientOrderId
  | .error _ => none

/-- The exit order that is with the bridge, or pending. -/
def outstanding (s : HandlerState) : Option PendingExit :=
  match s.exitCall with
  | some call => some call.pending
  | none => s.pendingExit

/-- A verified position is the contract's, and it is positive. -/
theorem position_of_verified {projection : ProjectionState} {contractId : String}
    {pos : PositionState} {avg : ℚ}
    (h : verifiedPosition projection contractId = some (pos, avg)) :
    projection.positions.get? contractId = some pos ∧ 0 < pos.quantity := by
  unfold verifiedPosition at h
  split at h
  · cases h
  · next hpos =>
    split at h
    · cases h
    · split at h
      · next hverified =>
        cases h
        exact ⟨hpos, hverified.2⟩
      · cases h

/-- An entry is polled while it is pending and no trade is open. -/
theorem entryToPoll_eq {s : HandlerState} {pending : PendingEntry}
    (h : pending ∈ s.entryToPoll) : s.openTrade = none ∧ s.pendingEntry = some pending := by
  unfold entryToPoll at h
  split at h
  · cases h
  · next hnone => exact ⟨Option.not_isSome_iff_eq_none.mp hnone, h⟩

/-- Settling a pending entry changes nothing, drops the entry of an order that is over, or
promotes it to an open trade of the verified position. -/
theorem settlePendingEntry_cases [DecimalContext] (time : ExchangeTime) (poll : OrderPoll)
    (s : HandlerState) :
    (s.settlePendingEntry time poll).1 = s ∧
        (∀ pending ∈ s.entryToPoll, poll.readFault = none →
          s.orderEnded pending.clientOrderId = false) ∨
      (∃ pending ∈ s.entryToPoll, poll.readFault = none ∧
        s.orderEnded pending.clientOrderId = true ∧
        (s.settlePendingEntry time poll).1 = s.dropPendingEntry) ∨
      ∃ pending ∈ s.entryToPoll, ∃ pos avg,
        s.orderEnded pending.clientOrderId = false ∧
        s.position (contractIdFor pending.candidate.contract) = some pos ∧ 0 < pos.quantity ∧
        (s.settlePendingEntry time poll).1 = s.promoteEntry time pending pos avg := by
  unfold settlePendingEntry orderEnded position
  split
  · next pending projection hpending hfault hprojection =>
    rw [hprojection, hpending]
    simp only [Option.mem_some_iff, exists_eq_left', forall_eq']
    cases hended : endedInLedger (projection.orders.get? pending.clientOrderId) with
    | true => exact Or.inr (Or.inl ⟨hfault, rfl, rfl⟩)
    | false =>
      cases hpos : verifiedPosition projection (contractIdFor pending.candidate.contract) with
      | none =>
        left
        cases poll.brokerOrder <;> exact ⟨rfl, fun _ ↦ rfl⟩
      | some found =>
        obtain ⟨hat, hquantity⟩ := position_of_verified hpos
        exact Or.inr (Or.inr ⟨found.1, found.2, rfl, hat, hquantity, rfl⟩)
  · next hnot =>
    left
    refine ⟨rfl, fun pending hpending hfault ↦ ?_⟩
    cases hprojection : s.projection with
    | error e => rfl
    | ok projection => exact absurd hprojection (hnot pending projection hpending hfault)

/-- Dropping an entry ends it and releases what is allocated to it. -/
theorem dropPendingEntry_spec (s : HandlerState) :
    ∃ budget allocation engine,
      s.dropPendingEntry = { s with
        pendingEntry := none
        budget := budget
        pendingAllocation := allocation
        engine := engine } ∧
      ∀ after ∈ budget, ∃ before ∈ s.budget, ∀ allocated ∈ s.pendingAllocation,
        after = before.release allocated.notionalUsd 0 := by
  have hengine (t : HandlerState) : ∃ engine,
      (if t.engine.engaged then { t with engine := .watching } else t) =
        { t with engine := engine } := by
    split
    · exact ⟨.watching, rfl⟩
    · exact ⟨t.engine, rfl⟩
  unfold dropPendingEntry
  simp only
  split
  · next budget allocated hbudget hallocated =>
    obtain ⟨engine, he⟩ := hengine
      ({ s with pendingEntry := none }.releaseAllocation allocated.notionalUsd)
    refine ⟨_, _, engine, he, ?_⟩
    intro after hafter
    obtain ⟨before, hbefore, rfl⟩ := Option.map_eq_some_iff.mp hafter
    refine ⟨before, hbefore, fun other hother ↦ ?_⟩
    rw [Option.mem_unique hother hallocated]
  · next hnot =>
    obtain ⟨engine, he⟩ := hengine { s with pendingEntry := none }
    exact ⟨_, _, engine, he, fun after hafter ↦
      ⟨after, hafter, fun allocated hallocated ↦ (hnot after allocated hafter hallocated).elim⟩⟩

/-- Settling a pending exit changes nothing, ends the exit of an order that is over, or goes by
what the projection says of a live order. -/
theorem settlePendingExit_cases [DecimalContext] (poll : OrderPoll) (s : HandlerState) :
    s.settlePendingExit poll = s ∨
      (∃ pending ∈ s.pendingExit, ∃ trade ∈ s.openTrade, poll.readFault = none ∧
        s.exitOver poll pending = true ∧
        s.settlePendingExit poll = { s with pendingExit := none }) ∨
      ∃ pending ∈ s.pendingExit, ∃ trade ∈ s.openTrade, poll.readFault = none ∧
        poll.order.isOk = true ∧
        s.settlePendingExit poll = s.settleLiveExit trade pending
          (s.ledgerOrder pending.clientOrderId) (s.position pending.contractId) := by
  unfold settlePendingExit exitOver orderEnded position ledgerOrder
  split
  · next pending trade order projection hpending htrade horder hfault hprojection =>
    right
    rw [hprojection, horder]
    simp only
    split
    · next hended =>
      exact Or.inl ⟨pending, hpending, trade, htrade, hfault, by rwa [Bool.or_eq_true], rfl⟩
    · exact Or.inr ⟨pending, hpending, trade, htrade, hfault, rfl, rfl⟩
  · exact Or.inl rfl

/-- The broker's position that a due exit goes through. -/
def exitPosition (config : HandlerConfig) (time : ExchangeTime) (quote : QuoteInputs)
    (s : HandlerState) : Option Position :=
  match s.openTrade, s.pendingExit with
  | some trade, none =>
    if (config.exitManager.checkExit trade quote.mid time).isSome ∧ config.shadow = false then
      quote.firstOpen
    else none
  | _, _ => none

/-- The exit step changes nothing, or hands over a due exit through an open position of the
broker. -/
theorem tryExitStep_cases [DecimalContext] (config : HandlerConfig) (time : ExchangeTime)
    (quote : QuoteInputs) (s : HandlerState) :
    ((s.tryExitStep config time quote).1 = s ∧
        (s.tryExitStep config time quote).2 ≠ .ok .sent) ∨
      ∃ trade ∈ s.openTrade, ∃ decision, ∃ pos ∈ s.exitPosition config time quote,
        s.pendingExit = none ∧
        s.tryExitStep config time quote =
          (s.handExit (s.exitCallOf quote trade decision pos), .ok .sent) := by
  unfold tryExitStep
  split
  · exact Or.inl ⟨rfl, fun h ↦ nomatch h⟩
  · next trade htrade =>
    split
    · exact Or.inl ⟨rfl, fun h ↦ nomatch h⟩
    · next hpending =>
      rw [Option.not_isSome_iff_eq_none] at hpending
      split
      · exact Or.inl ⟨rfl, fun h ↦ nomatch h⟩
      · next decision hdecision =>
        split
        · exact Or.inl ⟨rfl, fun h ↦ nomatch h⟩
        · next hshadow =>
          split
          · exact Or.inl ⟨rfl, fun h ↦ nomatch h⟩
          · next positions hpositions =>
            split
            · exact Or.inl ⟨rfl, fun h ↦ nomatch h⟩
            · next pos hpos =>
              have hthrough : pos ∈ s.exitPosition config time quote := by
                have hdue : (config.exitManager.checkExit trade quote.mid time).isSome = true ∧
                    config.shadow = false :=
                  ⟨Option.isSome_of_mem hdecision, Bool.eq_false_iff.mpr hshadow⟩
                unfold exitPosition QuoteInputs.firstOpen
                rw [htrade, hpending, hpositions]
                exact (if_pos hdue).trans hpos
              exact Or.inr ⟨trade, htrade, decision, pos, hthrough, hpending, rfl⟩

private theorem size_pos {s : HandlerState} {budget : CapitalBudget} {premium : ℚ}
    {hints : SizingHints} (hbudget : s.budget = some budget)
    (h : ¬ (s.sizeForEntry premium hints).1 < 1) : 0 < (s.sizeForEntry premium hints).2 := by
  unfold sizeForEntry at h ⊢
  rw [hbudget] at h ⊢
  simp only at h ⊢
  split
  · next hsmall =>
    rw [if_pos hsmall] at h
    exact absurd (by decide : (0 : ℤ) < 1) h
  · next hsize => exact (CapitalBudget.allocate_pos (not_lt.mp hsize)).1

/-- How an entry attempt leaves the handler before its first call of the bridge: it was declined,
or its order is handed over, with a positive notional reserved when there is a budget. -/
inductive EntryOutcome (setup : PlaybookSetup) (s : HandlerState) :
    HandlerState × Except PyException EntryStep → Prop where
  | declined (engine : TradingState) (setups : List String)
      {result : Except PyException EntryStep} (hresult : result ≠ .ok .sent) :
      EntryOutcome setup s ({ s with engine := engine, signaledSetups := setups }, result)
  | handed (candidate : TradeCandidate) (notionalUsd : ℚ) (engine : TradingState)
      (htrade : s.openTrade = none) (hpending : s.pendingEntry = none) (hbudget : s.budget = none) :
      EntryOutcome setup s
        ({ s with engine := engine }.handEntry candidate setup notionalUsd, .ok .sent)
  | reserved (candidate : TradeCandidate) (notionalUsd : ℚ) (engine : TradingState)
      (budget after : CapitalBudget) (quantity : ℤ)
      (htrade : s.openTrade = none) (hpending : s.pendingEntry = none)
      (hbudget : s.budget = some budget) (hpos : 0 < notionalUsd)
      (hreserve : budget.reserve notionalUsd = .ok after) :
      EntryOutcome setup s ({ s with
        engine := engine
        budget := some after
        pendingAllocation := some ⟨notionalUsd, quantity⟩ }.handEntry candidate setup notionalUsd,
        .ok .sent)

private theorem outcome_evaluateAndHand {entry : EntryInputs} {candidate : TradeCandidate}
    {quantity : ℤ} {notionalUsd : ℚ} {s : HandlerState} (htrade : s.openTrade = none)
    (hpending : s.pendingEntry = none) (hpos : ∀ budget ∈ s.budget, 0 < notionalUsd) :
    EntryOutcome entry.setup s (s.evaluateAndHand entry candidate quantity notionalUsd) := by
  unfold evaluateAndHand
  split
  · exact .declined _ _ (fun h ↦ nomatch h)
  · split
    · exact .declined _ _ (fun h ↦ nomatch h)
    · exact .declined _ _ (fun h ↦ nomatch h)
    · unfold reserveAndHand
      simp only
      split
      · next hbudget => exact .handed candidate notionalUsd _ htrade hpending hbudget
      · next budget hbudget =>
        split
        · exact .declined _ _ (fun h ↦ nomatch h)
        · next after hreserve =>
          exact .reserved candidate notionalUsd _ budget after quantity htrade hpending hbudget
            (hpos budget hbudget) hreserve

/-- An entry attempt is declined or handed over. -/
theorem outcome_attemptEntryStep (config : HandlerConfig) (entry : EntryInputs)
    (s : HandlerState) : EntryOutcome entry.setup s (s.attemptEntryStep config entry) := by
  unfold attemptEntryStep
  split
  · exact .declined _ _ (fun h ↦ nomatch h)
  · next hidle =>
    simp only [not_or, Option.not_isSome_iff_eq_none] at hidle
    split
    · exact .declined _ _ (fun h ↦ nomatch h)
    · exact .declined _ _ (fun h ↦ nomatch h)
    · split
      · exact .declined _ _ (fun h ↦ nomatch h)
      · split
        · exact .declined _ _ (fun h ↦ nomatch h)
        · exact .declined _ _ (fun h ↦ nomatch h)
        · next selected _ =>
          unfold sizeAndHand
          simp only
          split
          · exact .declined _ _ (fun h ↦ nomatch h)
          · next hsize =>
            split
            · exact .declined _ _ (fun h ↦ nomatch h)
            · split
              · split <;> exact .declined _ _ (fun h ↦ nomatch h)
              · exact outcome_evaluateAndHand hidle.1 hidle.2
                  (fun budget hbudget ↦ size_pos hbudget hsize)

/-- An answered exit order is pending, unless it was refused. -/
theorem answerExit_cases (order : Except PyException BrokerOrder) (s : HandlerState) :
    ((∀ call ∈ s.exitCall, refusesExit order = true) ∧
        (s.answerExit order).1 = { s with exitCall := none }) ∨
      ∃ call ∈ s.exitCall, ∃ id, (s.answerExit order).1 =
        { s with
          exitCall := none, pendingExit := some { call.pending with brokerOrderId := id } } := by
  unfold answerExit
  cases hcall : s.exitCall with
  | none => exact Or.inl ⟨fun _ h ↦ (Option.not_mem_none _ h).elim, rfl⟩
  | some call =>
    cases order with
    | error e => exact Or.inl ⟨fun _ _ ↦ rfl, rfl⟩
    | ok order =>
      by_cases hrefused : order.status ∈ [BrokerStatus.rejected, .cancelled]
      · refine Or.inl ⟨fun _ _ ↦ decide_eq_true hrefused, ?_⟩
        simp only [hrefused, if_true]
      · refine Or.inr ⟨call, rfl, order.orderId, ?_⟩
        simp only [hrefused, if_false]

/-- An answered entry order is pending, or rejected and its notional released, or nothing is
known of it. -/
theorem answerEntry_cases (order : Except PyException BrokerOrder) (s : HandlerState) :
    s.entryCall = none ∧ (s.answerEntry order).1 = s ∨
      (∃ call ∈ s.entryCall, ∃ e, order = .error e ∧
        (s.answerEntry order).1 = { s with entryCall := none }) ∨
      ∃ call ∈ s.entryCall, ∃ answer, order = .ok answer ∧
        ((s.answerEntry order).1 =
            { s with
              entryCall := none
              engine := .openPosition
              pendingEntry := some ⟨answer.orderId, answer.intentId, call.candidate, call.setup⟩ } ∨
          (s.answerEntry order).1 =
            (if s.budget.isSome then
              { s with entryCall := none, engine := .watching }.releaseAllocation call.notionalUsd
            else { s with entryCall := none, engine := .watching }).noteSetup call.setup) := by
  unfold answerEntry
  split
  · next call answer hcall =>
    refine Or.inr (Or.inr ⟨call, hcall, answer, rfl, ?_⟩)
    simp only
    split
    · exact Or.inr rfl
    · exact Or.inl rfl
  · next call e hcall => exact Or.inr (Or.inl ⟨call, hcall, e, rfl, rfl⟩)
  · next hcall => exact Or.inl ⟨hcall, rfl⟩

end HandlerState

/-! ### The operations of the thread -/

section Steps

variable {config : HandlerConfig} {R : HandlerOp → HandlerState → HandlerState → Prop}

private theorem steps_reconcilePendingEntry [DecimalContext]
    (h : ∀ op s, R op s (op.effect config s))
    (time : ExchangeTime) (poll : OrderPoll) : (reconcilePendingEntry time poll).Steps R := by
  apply Coro.steps_bind (Coro.steps_atomic (h .lookEntry))
  intro polled
  cases polled with
  | false => exact Coro.steps_pure ()
  | true =>
    unfold settleEntryIfPolled
    cases poll.order with
    | error e => exact Coro.steps_pure ()
    | ok order => exact Coro.steps_atomic (h (.settleEntry time poll))

private theorem steps_reconcilePendingExit [DecimalContext]
    (h : ∀ op s, R op s (op.effect config s))
    (poll : OrderPoll) : (reconcilePendingExit poll).Steps R := by
  apply Coro.steps_bind (Coro.steps_atomic (h .lookExit))
  intro polled
  cases polled with
  | false => exact Coro.steps_pure ()
  | true => exact Coro.steps_atomic (h (.settleExit poll))

private theorem steps_tryExit [DecimalContext] (h : ∀ op s, R op s (op.effect config s))
    (time : ExchangeTime) (quote : QuoteInputs) : (tryExit config time quote).Steps R := by
  apply Coro.steps_bind (Coro.steps_atomic (h (.tryExit time quote)))
  intro step
  cases step with
  | nothing => exact Coro.steps_pure false
  | decided => exact Coro.steps_pure true
  | reconcile =>
    exact Coro.steps_bind (steps_reconcilePendingExit h quote.poll) (fun _ ↦ Coro.steps_pure false)
  | sent =>
    apply Coro.steps_bind (Coro.steps_atomic (h (.answerExit quote.order)))
    intro pending
    cases pending with
    | false => exact Coro.steps_pure false
    | true =>
      exact Coro.steps_bind (steps_reconcilePendingExit h quote.poll) (fun _ ↦ Coro.steps_pure true)

private theorem steps_attemptEntry [DecimalContext] (h : ∀ op s, R op s (op.effect config s))
    (time : ExchangeTime) (entry : EntryInputs) : (attemptEntry config time entry).Steps R := by
  apply Coro.steps_bind (Coro.steps_atomic (h (.attemptEntry entry)))
  intro step
  cases step with
  | declined result => exact Coro.steps_pure result
  | sent =>
    apply Coro.steps_bind (Coro.steps_atomic (h (.answerEntry entry.order)))
    intro pending
    cases pending with
    | false => exact Coro.steps_pure false
    | true =>
      apply Coro.steps_bind (steps_reconcilePendingEntry h time entry.poll)
      exact fun _ ↦ Coro.steps_atomic (h (.noteSetup entry.setup))

private theorem steps_enterSignal [DecimalContext] (h : ∀ op s, R op s (op.effect config s))
    (time : ExchangeTime)
    (entry : Option EntryInputs) : (enterSignal config time entry).Steps R := by
  cases entry with
  | none => exact Coro.steps_pure ()
  | some entry =>
    exact Coro.steps_bind (steps_attemptEntry h time entry) (fun _ ↦ Coro.steps_pure ())

private theorem steps_onMarket [DecimalContext] (h : ∀ op s, R op s (op.effect config s))
    (tick : TickInputs) :
    (onMarket config tick).Steps R := by
  unfold onMarket
  split
  · exact Coro.steps_raise _
  · exact Coro.steps_pure ()
  · apply Coro.steps_bind
    · cases tick.quote with
      | none => exact Coro.steps_pure false
      | some quote =>
        apply Coro.steps_bind (Coro.steps_atomic (h (.trail quote.mid.toRat)))
        exact fun _ ↦ steps_tryExit h tick.time quote
    · intro decided
      cases decided with
      | true => exact Coro.steps_pure ()
      | false =>
        apply Coro.steps_bind (Coro.steps_atomic (h (.lookSignal tick)))
        exact fun entry ↦ steps_enterSignal h tick.time entry

/-- What holds of every stretch of the code holds of every operation of the thread. -/
theorem steps_handlerThread [DecimalContext] (h : ∀ op s, R op s (op.effect config s))
    (calls : List HandlerCall) :
    (handlerThread config calls).Steps R := by
  induction calls with
  | nil => exact Coro.steps_pure ()
  | cons call rest ih =>
    apply Coro.steps_bind _ (fun _ ↦ ih)
    apply Coro.steps_handle _ (fun _ ↦ Coro.steps_pure _)
    apply Coro.steps_bind _ (fun _ ↦ Coro.steps_pure _)
    cases call with
    | attemptEntry time entry => exact steps_enterSignal h time (some entry)
    | handleEvent tick =>
      apply Coro.steps_bind (steps_reconcilePendingEntry h tick.time tick.entryPoll)
      intro _
      apply Coro.steps_bind (steps_reconcilePendingExit h tick.exitPoll)
      exact fun _ ↦ steps_onMarket h tick

end Steps

/-! ### Calls in progress -/

namespace HandlerState

/-- No order is with the bridge; there is one trade at a time. -/
structure Quiet (s : HandlerState) : Prop where
  entryCall : s.entryCall = none
  exitCall : s.exitCall = none
  pendingExit : s.openTrade = none → s.pendingExit = none
  pendingEntry : s.openTrade.isSome = true → s.pendingEntry = none

/-- An exit of the open trade is with the bridge. -/
structure Exiting (s : HandlerState) : Prop where
  entryCall : s.entryCall = none
  openTrade : s.openTrade.isSome = true
  pendingExit : s.pendingExit = none
  pendingEntry : s.pendingEntry = none

/-- An entry is with the bridge, and nothing is open or pending. -/
structure Entering (s : HandlerState) : Prop where
  exitCall : s.exitCall = none
  openTrade : s.openTrade = none
  pendingExit : s.pendingExit = none
  pendingEntry : s.pendingEntry = none

end HandlerState

/-- What the thread knows of its orders where a stretch begins. -/
def HandlerOp.Entered (op : HandlerOp) (s : HandlerState) : Prop :=
  match op with
  | .answerExit _ => s.Exiting
  | .answerEntry _ => s.Entering
  | _ => s.Quiet

namespace HandlerState

/-- A new handler is quiet. -/
theorem quiet_new {sessionId : String} {budget : Option CapitalBudget} :
    (HandlerState.new sessionId budget).Quiet := ⟨rfl, rfl, fun _ ↦ rfl, fun _ ↦ rfl⟩

/-- Without a call in progress the outstanding exit is the pending one. -/
theorem Quiet.outstanding_eq {s : HandlerState} (h : s.Quiet) : s.outstanding = s.pendingExit := by
  unfold outstanding
  rw [h.exitCall]

private theorem quiet_settlePendingEntry [DecimalContext] (time : ExchangeTime) (poll : OrderPoll)
    {s : HandlerState} (h : s.Quiet) : (s.settlePendingEntry time poll).1.Quiet := by
  rcases s.settlePendingEntry_cases time poll with ⟨he, -⟩ | ⟨_, hpoll, _, _, he⟩ |
    ⟨pending, hpoll, pos, avg, -, -, -, he⟩
  · rwa [he]
  · obtain ⟨budget, allocation, engine, hdrop, -⟩ := s.dropPendingEntry_spec
    rw [he, hdrop]
    exact ⟨h.entryCall, h.exitCall, h.pendingExit, fun _ ↦ rfl⟩
  · rw [he]
    exact ⟨h.entryCall, h.exitCall, (fun hnone ↦ nomatch hnone), fun _ ↦ rfl⟩

private theorem quiet_settlePendingExit [DecimalContext] (poll : OrderPoll) {s : HandlerState}
    (h : s.Quiet) :
    (s.settlePendingExit poll).Quiet := by
  rcases s.settlePendingExit_cases poll with he | ⟨_, _, _, _, _, _, he⟩ |
    ⟨exit, _, trade, htrade, _, _, he⟩
  · rwa [he]
  · rw [he]
    exact ⟨h.entryCall, h.exitCall, fun _ ↦ rfl, h.pendingEntry⟩
  · have hentry := h.pendingEntry (Option.isSome_of_mem htrade)
    rw [he]
    unfold settleLiveExit
    simp only
    split
    · exact ⟨h.entryCall, h.exitCall, (fun hnone ↦ nomatch hnone), fun _ ↦ hentry⟩
    · split
      · exact ⟨h.entryCall, h.exitCall, fun _ ↦ rfl, fun _ ↦ hentry⟩
      · split
        · exact ⟨h.entryCall, h.exitCall, fun _ ↦ rfl, fun _ ↦ hentry⟩
        · exact ⟨h.entryCall, h.exitCall, (fun hnone ↦ nomatch hnone), fun _ ↦ hentry⟩

private theorem after_tryExitStep [DecimalContext] (config : HandlerConfig) (time : ExchangeTime)
    (quote : QuoteInputs) {s : HandlerState} (h : s.Quiet) :
    ((s.tryExitStep config time quote).2 = .ok .sent →
        (s.tryExitStep config time quote).1.Exiting) ∧
      ((s.tryExitStep config time quote).2 ≠ .ok .sent →
        (s.tryExitStep config time quote).1.Quiet) := by
  rcases s.tryExitStep_cases config time quote with ⟨he, hresult⟩ |
    ⟨trade, htrade, decision, pos, -, hpending, he⟩
  · rw [he]
    exact ⟨fun hsent ↦ absurd hsent hresult, fun _ ↦ h⟩
  · have hsome : s.openTrade.isSome = true := Option.isSome_of_mem htrade
    rw [he]
    exact ⟨fun _ ↦ ⟨h.entryCall, hsome, hpending, h.pendingEntry hsome⟩,
      fun hsent ↦ absurd rfl hsent⟩

private theorem after_attemptEntryStep (config : HandlerConfig) (entry : EntryInputs)
    {s : HandlerState} (h : s.Quiet) :
    ((s.attemptEntryStep config entry).2 = .ok .sent →
        (s.attemptEntryStep config entry).1.Entering) ∧
      ((s.attemptEntryStep config entry).2 ≠ .ok .sent →
        (s.attemptEntryStep config entry).1.Quiet) := by
  have hout := s.outcome_attemptEntryStep config entry
  generalize s.attemptEntryStep config entry = out at hout ⊢
  cases hout with
  | declined engine setups hresult =>
    exact ⟨fun hsent ↦ absurd hsent hresult, fun _ ↦
      ⟨h.entryCall, h.exitCall, h.pendingExit, h.pendingEntry⟩⟩
  | handed candidate notionalUsd engine htrade hpending =>
    exact ⟨fun _ ↦ ⟨h.exitCall, htrade, h.pendingExit htrade, hpending⟩,
      fun hsent ↦ absurd rfl hsent⟩
  | reserved candidate notionalUsd engine budget after quantity htrade hpending =>
    exact ⟨fun _ ↦ ⟨h.exitCall, htrade, h.pendingExit htrade, hpending⟩,
      fun hsent ↦ absurd rfl hsent⟩

private theorem quiet_answerExit (order : Except PyException BrokerOrder) {s : HandlerState}
    (h : s.Exiting) : (s.answerExit order).1.Quiet := by
  have hopen (hnone : s.openTrade = none) : False := by
    have hsome := h.openTrade
    rw [hnone] at hsome
    cases hsome
  rcases s.answerExit_cases order with ⟨-, he⟩ | ⟨_, _, _, he⟩
  · rw [he]
    exact ⟨h.entryCall, rfl, fun _ ↦ h.pendingExit, fun _ ↦ h.pendingEntry⟩
  · rw [he]
    exact ⟨h.entryCall, rfl, fun hnone ↦ (hopen hnone).elim, fun _ ↦ h.pendingEntry⟩

private theorem quiet_answerEntry (order : Except PyException BrokerOrder) {s : HandlerState}
    (h : s.Entering) : (s.answerEntry order).1.Quiet := by
  have hopen (hsome : s.openTrade.isSome = true) : False := by
    rw [h.openTrade] at hsome
    cases hsome
  rcases s.answerEntry_cases order with ⟨hnone, he⟩ | ⟨_, _, _, _, he⟩ | ⟨_, _, _, _, he | he⟩
  · rw [he]
    exact ⟨hnone, h.exitCall, fun _ ↦ h.pendingExit, fun _ ↦ h.pendingEntry⟩
  · rw [he]
    exact ⟨rfl, h.exitCall, fun _ ↦ h.pendingExit, fun _ ↦ h.pendingEntry⟩
  · rw [he]
    exact ⟨rfl, h.exitCall, fun _ ↦ h.pendingExit, fun hsome ↦ (hopen hsome).elim⟩
  · rw [he]
    split <;> exact ⟨rfl, h.exitCall, fun _ ↦ h.pendingExit, fun _ ↦ h.pendingEntry⟩

private theorem quiet_trail (config : HandlerConfig) (mid : ℚ) {s : HandlerState}
    (h : s.Quiet) : (s.trail config mid).Quiet := by
  refine ⟨h.entryCall, h.exitCall, ?_, ?_⟩
  · exact fun hnone ↦ h.pendingExit (Option.map_eq_none_iff.mp hnone)
  · intro hsome
    apply h.pendingEntry
    rwa [← Option.isSome_map]

private theorem quiet_noteSetup (setup : PlaybookSetup) {s : HandlerState} (h : s.Quiet) :
    (s.noteSetup setup).Quiet := ⟨h.entryCall, h.exitCall, h.pendingExit, h.pendingEntry⟩

end HandlerState

section Outlines

variable {config : HandlerConfig} {Ok : HandlerOp → HandlerState → Prop}
  {I : HandlerState → Prop}

/-- Every stretch, in the circumstances of the thread, keeps the invariant. -/
def KeptBy [DecimalContext] (config : HandlerConfig) (Ok : HandlerOp → HandlerState → Prop)
    (I : HandlerState → Prop) : Prop :=
  ∀ op s, Ok op s → I s → op.Entered s → I (op.effect config s)

/-- The thread's code from one quiet state to another. -/
abbrev Outlines (Ok : HandlerOp → HandlerState → Prop) (I : HandlerState → Prop) {α : Type}
    (c : HandlerM α) : Prop :=
  c.Outlined Ok HandlerOp.Entered I (fun _ s ↦ s.Quiet)

private theorem outlines_pure {α : Type} (a : α) : Outlines Ok I (pure a : HandlerM α) := trivial

private theorem outlines_bind {α β : Type} {c : HandlerM α} {k : α → HandlerM β}
    (hc : Outlines Ok I c) (hk : ∀ a, Outlines Ok I (k a))
    (hat : ∀ a s, s.Quiet → (k a).At HandlerOp.Entered (fun _ s ↦ s.Quiet) s) :
    Outlines Ok I (c >>= k) :=
  Coro.outlined_bind hc hk (fun a s _ hs ↦ hat a s hs) (fun _ _ hs ↦ hs)

private theorem outlines_atomic [DecimalContext] {α : Type} (h : KeptBy config Ok I)
    (op : HandlerOp) {f : HandlerState → HandlerState × Except PyException α}
    (heffect : ∀ s, (f s).1 = op.effect config s)
    (hquiet : ∀ s, op.Entered s → (op.effect config s).Quiet) :
    Outlines Ok I (Coro.atomic op f) := by
  apply Coro.outlined_atomic
  intro s hok hs hentered
  rw [heffect]
  exact ⟨h op s hok hs hentered, hquiet s hentered⟩

private theorem outlines_reconcilePendingEntry [DecimalContext] (h : KeptBy config Ok I)
    (time : ExchangeTime) (poll : OrderPoll) : Outlines Ok I (reconcilePendingEntry time poll) := by
  have hsettle (polled : Bool) : Outlines Ok I (settleEntryIfPolled time poll polled) := by
    unfold settleEntryIfPolled
    split
    · trivial
    · split
      · trivial
      · apply outlines_atomic h (.settleEntry time poll) (fun _ ↦ rfl)
        exact fun s hs ↦ HandlerState.quiet_settlePendingEntry time poll hs
  apply outlines_bind (outlines_atomic h .lookEntry (fun _ ↦ rfl) (fun _ hs ↦ hs)) hsettle
  intro polled s hs
  unfold settleEntryIfPolled
  split
  · exact hs
  · split <;> exact hs

private theorem outlines_reconcilePendingExit [DecimalContext] (h : KeptBy config Ok I)
    (poll : OrderPoll) :
    Outlines Ok I (reconcilePendingExit poll) := by
  apply outlines_bind (outlines_atomic h .lookExit (fun _ ↦ rfl) (fun _ hs ↦ hs))
  · intro polled
    cases polled with
    | false => exact outlines_pure ()
    | true =>
      apply outlines_atomic h (.settleExit poll) (fun _ ↦ rfl)
      exact fun s hs ↦ HandlerState.quiet_settlePendingExit poll hs
  · intro polled s hs
    cases polled <;> exact hs

private theorem outlines_finishExit [DecimalContext] (h : KeptBy config Ok I) (quote : QuoteInputs)
    (step : ExitStep) : Outlines Ok I (finishExit quote step) := by
  cases step with
  | nothing => exact outlines_pure false
  | decided => exact outlines_pure true
  | reconcile =>
    exact outlines_bind (outlines_reconcilePendingExit h quote.poll) (fun _ ↦ outlines_pure false)
      (fun _ _ hs ↦ hs)
  | sent =>
    apply outlines_bind
    · apply outlines_atomic h (.answerExit quote.order) (fun _ ↦ rfl)
      exact fun s hs ↦ HandlerState.quiet_answerExit quote.order hs
    · intro pending
      cases pending with
      | false => exact outlines_pure false
      | true =>
        exact outlines_bind (outlines_reconcilePendingExit h quote.poll)
          (fun _ ↦ outlines_pure true) (fun _ _ hs ↦ hs)
    · intro pending s hs
      cases pending <;> exact hs

private theorem outlines_tryExit [DecimalContext] (h : KeptBy config Ok I) (time : ExchangeTime)
    (quote : QuoteInputs) : Outlines Ok I (tryExit config time quote) := by
  apply Coro.outlined_bind (Q := fun result s ↦
    (result = .ok .sent → s.Exiting) ∧ (result ≠ .ok .sent → s.Quiet))
  · apply Coro.outlined_atomic
    intro s hok hs hquiet
    exact ⟨h (.tryExit time quote) s hok hs hquiet,
      HandlerState.after_tryExitStep config time quote hquiet⟩
  · exact outlines_finishExit h quote
  · intro step s _ hs
    cases step with
    | sent => exact hs.1 rfl
    | nothing | decided | reconcile => exact hs.2 (fun h ↦ nomatch h)
  · exact fun e s hs ↦ hs.2 (fun h ↦ nomatch h)

private theorem outlines_finishEntry [DecimalContext] (h : KeptBy config Ok I) (time : ExchangeTime)
    (entry : EntryInputs) (step : EntryStep) : Outlines Ok I (finishEntry time entry step) := by
  cases step with
  | declined result => exact outlines_pure result
  | sent =>
    apply outlines_bind
    · apply outlines_atomic h (.answerEntry entry.order) (fun _ ↦ rfl)
      exact fun s hs ↦ HandlerState.quiet_answerEntry entry.order hs
    · intro pending
      cases pending with
      | false => exact outlines_pure false
      | true =>
        apply outlines_bind (outlines_reconcilePendingEntry h time entry.poll)
        · exact fun _ ↦ outlines_atomic h (.noteSetup entry.setup) (fun _ ↦ rfl)
            (fun _ hs ↦ HandlerState.quiet_noteSetup entry.setup hs)
        · exact fun _ _ hs ↦ hs
    · intro pending s hs
      cases pending <;> exact hs

private theorem outlines_attemptEntry [DecimalContext] (h : KeptBy config Ok I)
    (time : ExchangeTime)
    (entry : EntryInputs) : Outlines Ok I (attemptEntry config time entry) := by
  apply Coro.outlined_bind (Q := fun result s ↦
    (result = .ok .sent → s.Entering) ∧ (result ≠ .ok .sent → s.Quiet))
  · apply Coro.outlined_atomic
    intro s hok hs hquiet
    exact ⟨h (.attemptEntry entry) s hok hs hquiet,
      HandlerState.after_attemptEntryStep config entry hquiet⟩
  · exact outlines_finishEntry h time entry
  · intro step s _ hs
    cases step with
    | sent => exact hs.1 rfl
    | declined result => exact hs.2 (fun h ↦ nomatch h)
  · exact fun e s hs ↦ hs.2 (fun h ↦ nomatch h)

private theorem outlines_enterSignal [DecimalContext] (h : KeptBy config Ok I) (time : ExchangeTime)
    (entry : Option EntryInputs) : Outlines Ok I (enterSignal config time entry) := by
  cases entry with
  | none => exact outlines_pure ()
  | some entry =>
    exact outlines_bind (outlines_attemptEntry h time entry) (fun _ ↦ outlines_pure ())
      (fun _ _ hs ↦ hs)

private theorem outlines_onMarket [DecimalContext] (h : KeptBy config Ok I) (tick : TickInputs) :
    Outlines Ok I (onMarket config tick) := by
  unfold onMarket
  split
  · trivial
  · trivial
  · apply outlines_bind
    · cases tick.quote with
      | none => exact outlines_pure false
      | some quote =>
        apply outlines_bind (outlines_atomic h (.trail quote.mid.toRat) (fun _ ↦ rfl)
          (fun _ hs ↦ HandlerState.quiet_trail config quote.mid.toRat hs))
        · exact fun _ ↦ outlines_tryExit h tick.time quote
        · exact fun _ _ hs ↦ hs
    · intro decided
      cases decided with
      | true => exact outlines_pure ()
      | false =>
        apply outlines_bind (outlines_atomic h (.lookSignal tick) (fun _ ↦ rfl)
          (fun _ hs ↦ hs))
        · exact outlines_enterSignal h tick.time
        · intro entry s hs
          cases entry <;> exact hs
    · intro decided s hs
      cases decided <;> exact hs

private theorem at_onMarket [DecimalContext] (tick : TickInputs) {s : HandlerState} (hs : s.Quiet) :
    (onMarket config tick).At HandlerOp.Entered (fun _ s ↦ s.Quiet) s := by
  unfold onMarket
  split
  · exact hs
  · exact hs
  · cases tick.quote <;> exact hs

/-- A quiet state meets the assertion of the thread's code. -/
theorem at_handlerThread [DecimalContext] (calls : List HandlerCall) {s : HandlerState}
    (hs : s.Quiet) :
    (handlerThread config calls).At HandlerOp.Entered (fun _ s ↦ s.Quiet) s := by
  cases calls with
  | nil => exact hs
  | cons call rest => cases call <;> exact hs

/-- An invariant that every stretch keeps is kept by the thread, which begins each stretch as
`Entered` says. -/
theorem outlines_handlerThread [DecimalContext] (h : KeptBy config Ok I)
    (calls : List HandlerCall) :
    Outlines Ok I (handlerThread config calls) := by
  induction calls with
  | nil => exact outlines_pure ()
  | cons call rest ih =>
    have hbody : Outlines Ok I (handlerBody config call) := by
      cases call with
      | attemptEntry time entry => exact outlines_enterSignal h time (some entry)
      | handleEvent tick =>
        apply outlines_bind (outlines_reconcilePendingEntry h tick.time tick.entryPoll)
        · intro _
          exact outlines_bind (outlines_reconcilePendingExit h tick.exitPoll)
            (fun _ ↦ outlines_onMarket h tick) (fun _ s hs ↦ at_onMarket tick hs)
        · exact fun _ _ hs ↦ hs
    apply outlines_bind _ (fun _ ↦ ih)
    · intro _ s hs
      exact at_handlerThread rest hs
    · apply Coro.outlined_handle
      · exact outlines_bind hbody (fun a ↦ outlines_pure (Except.ok a)) (fun _ _ hs ↦ hs)
      · exact fun e ↦ outlines_pure (Except.error e)
      · exact fun _ _ hs ↦ hs
      · exact fun _ _ _ hs ↦ hs

private theorem at_record (rows : List LedgerEvent) (s : HandlerState) (code : HandlerM Unit)
    (h : code.At HandlerOp.Entered (fun _ s ↦ s.Quiet) s) :
    code.At HandlerOp.Entered (fun _ s ↦ s.Quiet) (s.record rows) := by
  cases code with
  | done result => exact ⟨h.entryCall, h.exitCall, h.pendingExit, h.pendingEntry⟩
  | op label effect next =>
    have hquiet {s : HandlerState} (h : s.Quiet) : (s.record rows).Quiet :=
      ⟨h.entryCall, h.exitCall, h.pendingExit, h.pendingEntry⟩
    cases label with
    | answerExit order => exact ⟨h.entryCall, h.openTrade, h.pendingExit, h.pendingEntry⟩
    | answerEntry order => exact ⟨h.exitCall, h.openTrade, h.pendingExit, h.pendingEntry⟩
    | _ => exact hquiet h

private theorem outstanding_of_at {s : HandlerState} {code : HandlerM Unit}
    (h : code.At HandlerOp.Entered (fun _ s ↦ s.Quiet) s) (htrade : s.openTrade = none) :
    s.outstanding = none := by
  have hquiet (h : s.Quiet) : s.outstanding = none := h.outstanding_eq.trans (h.pendingExit htrade)
  cases code with
  | done result => exact hquiet h
  | op label effect next =>
    cases label with
    | answerExit order =>
      have hsome := h.openTrade
      rw [htrade] at hsome
      cases hsome
    | answerEntry order =>
      unfold HandlerState.outstanding
      rw [h.exitCall]
      exact h.pendingExit
    | _ => exact hquiet h

/-- The rule for runs of the handler: while stretches and recorded rows meet their conditions, an
invariant that both keep holds in every state of the run, and an outstanding exit is one of an
open trade. -/
theorem invariant_of_keptBy [DecimalContext] {Env : List LedgerEvent → HandlerState → Prop}
    (h : KeptBy config Ok I) (hrecord : ∀ rows s, Env rows s → I s → I (s.record rows))
    {s : HandlerState} (hquiet : s.Quiet) (hs : I s) (calls : List HandlerCall)
    {xs : List (ThreadAction (List LedgerEvent))}
    (hmeet : StepsMeet (Thread.step HandlerState.record) (Thread.Meets Ok Env)
      ⟨s, handlerThread config calls⟩ xs) {pre : List (ThreadAction (List LedgerEvent))}
    (hp : pre <+: xs) :
    I (runHandler config s calls pre).shared ∧
      ((runHandler config s calls pre).shared.openTrade = none →
        (runHandler config s calls pre).shared.outstanding = none) := by
  obtain ⟨hI, hat⟩ := Thread.invariant_of_outlined (outlines_handlerThread h calls)
    (at_handlerThread calls hquiet) hs hrecord at_record hmeet pre hp
  exact ⟨hI, outstanding_of_at hat⟩

end Outlines

end Joker.Runtime
