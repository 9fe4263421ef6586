import Joker.Runtime.HandlerSteps

/-!
# Failed entries

Library `Runtime`. `_attempt_entry` when `broker.submit_order` raises. The execution runtime and the
engine let the exception through, and only the path of a rejected order undoes what the attempt has
done by then. So the engine stays in `ENTERING`, which no later attempt starts from, and the
reservation stays with it.
-/

namespace Joker.Runtime

open Joker.Base Joker.Ledger Joker.Broker Joker.Risk Joker.Execution

/-- A run of one entry attempt, and the rows recorded meanwhile. -/
def runAttempt [DecimalContext] (config : HandlerConfig) (time : ExchangeTime) (entry : EntryInputs)
    (s : HandlerState) (xs : List (ThreadAction (List LedgerEvent))) :
    Thread HandlerOp HandlerState PyException Bool :=
  run (Thread.step HandlerState.record) ⟨s, attemptEntry config time entry⟩ xs

/-- In the run the answer to the attempt's order is an exception. -/
def BrokerRaised [DecimalContext] (config : HandlerConfig) (time : ExchangeTime)
    (entry : EntryInputs) (s : HandlerState) (xs : List (ThreadAction (List LedgerEvent))) : Prop :=
  ∃ pre rest e, xs = pre ++ .resume :: rest ∧
    (runAttempt config time entry s pre).label? = some (.answerEntry (.error e))

/-- The handler can be used as before: the reservations, the pending allocation, and whether the
engine accepts an entry. -/
structure Restored (before after : HandlerState) : Prop where
  reservations : after.budget.map (fun budget ↦ (budget.reservedUsd, budget.openPositions)) =
    before.budget.map (fun budget ↦ (budget.reservedUsd, budget.openPositions))
  allocation : after.pendingAllocation = before.pendingAllocation
  engine : after.engine.mayEnter = before.engine.mayEnter

/-! ### An order that was handed over -/

/-- What an attempt has done when its order is handed over. -/
structure HandedOver (before after : HandlerState) : Prop where
  mayEnter : before.engine.mayEnter = true
  entering : after.engine = .entering
  reserved : ∀ budget ∈ before.budget, ∃ notionalUsd reserved quantity,
    0 < notionalUsd ∧ after.budget = some reserved ∧
      reserved.reservedUsd = budget.reservedUsd + notionalUsd ∧
      reserved.openPositions = budget.openPositions + 1 ∧
      after.pendingAllocation = some ⟨notionalUsd, quantity⟩

namespace HandlerState

/-- An attempt that hands its order over started where an entry is accepted. -/
theorem mayEnter_of_sent {config : HandlerConfig} {entry : EntryInputs} {s : HandlerState}
    (h : (s.attemptEntryStep config entry).2 = .ok .sent) : s.engine.mayEnter = true := by
  unfold attemptEntryStep at h
  split at h
  · cases h
  · split at h
    · cases h
    · cases h
    · split at h
      · cases h
      · next hmay =>
        simp only [mayAttempt, Bool.not_eq_false, Bool.and_eq_true] at hmay
        exact hmay.2

/-- An attempt that hands its order over has reserved for it. -/
theorem handedOver_of_sent {config : HandlerConfig} {entry : EntryInputs} {s : HandlerState}
    (h : (s.attemptEntryStep config entry).2 = .ok .sent) :
    HandedOver s (s.attemptEntryStep config entry).1 := by
  have hmay := mayEnter_of_sent h
  have houtcome := outcome_attemptEntryStep config entry s
  generalize s.attemptEntryStep config entry = attempt at h houtcome
  cases houtcome with
  | declined engine setups hresult => exact absurd h hresult
  | handed candidate notionalUsd engine htrade hpending hbudget =>
    refine ⟨hmay, rfl, fun budget hsome ↦ ?_⟩
    rw [hbudget] at hsome
    cases hsome
  | reserved candidate notionalUsd engine budget after quantity htrade hpending hbudget hpos
      hreserve =>
    refine ⟨hmay, rfl, fun found hfound ↦ ?_⟩
    obtain rfl : budget = found := Option.some.inj (hbudget.symm.trans hfound)
    refine ⟨notionalUsd, after, quantity, hpos, rfl, ?_, ?_, rfl⟩
    · exact (CapitalBudget.reserve_eq_ok hreserve).1
    · unfold CapitalBudget.reserve at hreserve
      split at hreserve
      · cases hreserve
      · split at hreserve
        · cases hreserve
        · cases hreserve
          rfl

end HandlerState

/-- A handed over order is not undone by recording rows. -/
theorem HandedOver.record {before after : HandlerState} (h : HandedOver before after)
    (rows : List LedgerEvent) : HandedOver before (after.record rows) :=
  ⟨h.mayEnter, h.entering, h.reserved⟩

/-- A handler that handed an order over is not as it was. -/
theorem HandedOver.not_restored {before after : HandlerState} (h : HandedOver before after) :
    ¬ Restored before after := by
  intro hrestored
  have hengine := hrestored.engine
  rw [h.entering, h.mayEnter] at hengine
  exact absurd hengine (by decide)

/-! ### The run -/

/-- Where a run of an attempt is: before its first stretch, waiting for the answer to its order, or
past it. -/
inductive EntryStage [DecimalContext] (config : HandlerConfig) (time : ExchangeTime)
    (entry : EntryInputs)
    (s : HandlerState) : Thread HandlerOp HandlerState PyException Bool → Prop where
  | start {shared : HandlerState} (hengine : shared.engine = s.engine)
      (hbudget : shared.budget = s.budget) :
      EntryStage config time entry s ⟨shared, attemptEntry config time entry⟩
  | waiting {shared : HandlerState} (h : HandedOver s shared) :
      EntryStage config time entry s ⟨shared, finishEntry time entry .sent⟩
  | past {shared : HandlerState} {code : HandlerM Bool}
      (h : code.Steps (fun op _ _ ↦ ∀ order, op ≠ .answerEntry order)) :
      EntryStage config time entry s ⟨shared, code⟩

section

variable {config : HandlerConfig} {time : ExchangeTime} {entry : EntryInputs} {s : HandlerState}

/-- After the answer no order is handed over. -/
theorem steps_afterEntryAnswer [DecimalContext] (pending : Bool) :
    (afterEntryAnswer time entry pending).Steps
      (fun op _ _ ↦ ∀ order, op ≠ .answerEntry order) := by
  cases pending with
  | false => exact Coro.steps_pure false
  | true =>
    apply Coro.steps_bind
    · apply Coro.steps_bind
      · apply Coro.steps_atomic
        intro _ order h
        cases h
      · intro polled
        cases polled with
        | false => exact Coro.steps_pure ()
        | true =>
          unfold settleEntryIfPolled
          dsimp only
          split
          · exact Coro.steps_pure ()
          · apply Coro.steps_atomic
            intro _ order h
            cases h
    · intro _
      apply Coro.steps_atomic
      intro _ order h
      cases h

/-- Every action leads from stage to stage. -/
theorem entryStage_step [DecimalContext] {t : Thread HandlerOp HandlerState PyException Bool}
    (h : EntryStage config time entry s t) (a : ThreadAction (List LedgerEvent)) :
    EntryStage config time entry s (t.step HandlerState.record a) := by
  cases a with
  | env rows =>
    cases h with
    | start hengine hbudget => exact .start hengine hbudget
    | waiting h => exact .waiting (h.record rows)
    | past h => exact .past h
  | resume =>
    cases h with
    | @start shared hengine hbudget =>
      change EntryStage config time entry s ⟨(shared.attemptEntryStep config entry).1,
        (Coro.done (shared.attemptEntryStep config entry).2 : HandlerM EntryStep) >>= _⟩
      cases hstep : (shared.attemptEntryStep config entry).2 with
      | error e => exact .past trivial
      | ok reached =>
        cases reached with
        | declined result => exact .past trivial
        | sent =>
          have h := HandlerState.handedOver_of_sent hstep
          exact .waiting ⟨hengine ▸ h.mayEnter, h.entering, hbudget ▸ h.reserved⟩
    | @waiting shared h =>
      change EntryStage config time entry s ⟨(shared.answerEntry entry.order).1,
        (Coro.done (shared.answerEntry entry.order).2 : HandlerM Bool) >>= _⟩
      cases (shared.answerEntry entry.order).2 with
      | error e => exact .past trivial
      | ok pending => exact .past (steps_afterEntryAnswer pending)
    | @past shared code h =>
      have hleft := @Thread.steps_step _ _ _ _ _ HandlerState.record _ ⟨shared, code⟩ h .resume
      exact .past hleft

private theorem entryStage_run [DecimalContext] (xs : List (ThreadAction (List LedgerEvent))) :
    EntryStage config time entry s (runAttempt config time entry s xs) := by
  have hstart : EntryStage config time entry s ⟨s, attemptEntry config time entry⟩ := .start rfl rfl
  exact run_invariant (I := EntryStage config time entry s) (L := fun _ ↦ True)
    (fun _ a h _ ↦ entryStage_step h a) xs (fun _ _ ↦ trivial) hstart

/-- An exception for an answer ends the attempt, and undoes nothing. -/
theorem handedOver_answerEntry [DecimalContext] {shared : HandlerState} (h : HandedOver s shared)
    (e : PyException) :
    HandedOver s (shared.answerEntry (.error e)).1 ∧
      ∃ result, ((Coro.done (shared.answerEntry (.error e)).2 : HandlerM Bool) >>=
        afterEntryAnswer time entry) = .done result := by
  unfold HandlerState.answerEntry
  cases shared.entryCall with
  | none => exact ⟨h, .ok false, rfl⟩
  | some call => exact ⟨⟨h.mayEnter, h.entering, h.reserved⟩, .error e, rfl⟩

/-- Nothing happens to an attempt that has ended but that rows are recorded. -/
theorem handedOver_run_done {shared : HandlerState} (h : HandedOver s shared)
    (result : Except PyException Bool) (xs : List (ThreadAction (List LedgerEvent))) :
    HandedOver s (run (Thread.step HandlerState.record)
      (⟨shared, .done result⟩ : Thread HandlerOp HandlerState PyException Bool) xs).shared := by
  induction xs generalizing shared with
  | nil => exact h
  | cons a rest ih =>
    cases a with
    | resume => exact ih h
    | env rows => exact ih (h.record rows)

/-- An attempt whose order raises ends as it was when it handed the order over. -/
theorem handedOver_of_brokerRaised [DecimalContext] {xs : List (ThreadAction (List LedgerEvent))}
    (h : BrokerRaised config time entry s xs) :
    HandedOver s (runAttempt config time entry s xs).shared := by
  obtain ⟨pre, rest, e, rfl, hlabel⟩ := h
  have hstage : EntryStage config time entry s (runAttempt config time entry s pre) :=
    entryStage_run pre
  have hsplit : runAttempt config time entry s (pre ++ .resume :: rest) =
      run (Thread.step HandlerState.record)
        ((runAttempt config time entry s pre).step HandlerState.record .resume) rest := by
    unfold runAttempt
    rw [run_append, run_cons]
  rw [hsplit]
  generalize runAttempt config time entry s pre = t at hlabel hstage
  cases hstage with
  | start hengine hbudget => cases hlabel
  | @waiting shared hhanded =>
    have horder : entry.order = .error e := by
      have hsome : some (HandlerOp.answerEntry entry.order) = some (.answerEntry (.error e)) :=
        hlabel
      exact HandlerOp.answerEntry.inj (Option.some.inj hsome)
    obtain ⟨hafter, result, hdone⟩ : HandedOver s (shared.answerEntry (.error e)).1 ∧
        ∃ result, ((Coro.done (shared.answerEntry (.error e)).2 : HandlerM Bool) >>=
          afterEntryAnswer time entry) = .done result := handedOver_answerEntry hhanded e
    change HandedOver s (run (Thread.step HandlerState.record)
      ⟨(shared.answerEntry entry.order).1,
        (Coro.done (shared.answerEntry entry.order).2 : HandlerM Bool) >>=
          afterEntryAnswer time entry⟩ rest).shared
    rw [horder, hdone]
    exact handedOver_run_done hafter result rest
  | @past shared code hsteps =>
    cases code with
    | done result => cases hlabel
    | op op effect next =>
      obtain rfl : op = .answerEntry (.error e) := Option.some.inj hlabel
      exact absurd rfl ((hsteps shared).1 (.error e))

/-- A failed entry never leaves the handler as it was. -/
theorem failedEntry_not_restored [DecimalContext] {xs : List (ThreadAction (List LedgerEvent))}
    (h : BrokerRaised config time entry s xs) :
    ¬ Restored s (runAttempt config time entry s xs).shared :=
  (handedOver_of_brokerRaised h).not_restored

end

/-! ### Samples -/

namespace HandlerSample

open scoped DefaultContext

/-- An attempt to buy two contracts at 1.5, whose order times out. -/
def timedOut : EntryInputs := { entry "b" 2 with order := .error (brokerError "timeout") }

/-- The attempt, and then the answer to its order. -/
def answered : List (ThreadAction (List LedgerEvent)) := [.resume, .resume]

private theorem brokerRaised_timedOut {budget : Option CapitalBudget}
    (h : ((HandlerState.new "s" budget).attemptEntryStep config timedOut).2 = .ok .sent) :
    BrokerRaised config time timedOut (.new "s" budget) answered := by
  refine ⟨[.resume], [], brokerError "timeout", rfl, ?_⟩
  change Thread.label? ⟨((HandlerState.new "s" budget).attemptEntryStep config timedOut).1,
    (Coro.done ((HandlerState.new "s" budget).attemptEntryStep config timedOut).2 :
      HandlerM EntryStep) >>= finishEntry time timedOut⟩ = _
  rw [h]
  rfl

/-- The attempt without a budget leaves the engine in `ENTERING`. -/
theorem failedEntry_not_restored_timedOut :
    ¬ Restored (.new "s" none) (runAttempt config time timedOut (.new "s" none) answered).shared :=
  failedEntry_not_restored (brokerRaised_timedOut (by decide +kernel))

/-- The attempt with a budget: the order raised, and its notional stays reserved. -/
theorem not_restored_timedOut :
    BrokerRaised config time timedOut (.new "s" (some budget)) answered ∧
      (runAttempt config time timedOut (.new "s" (some budget)) answered).shared.pendingAllocation =
        some ⟨300, 2⟩ ∧
      ¬ Restored (.new "s" (some budget))
        (runAttempt config time timedOut (.new "s" (some budget)) answered).shared := by
  have hallocation : (runAttempt config time timedOut (.new "s" (some budget))
      answered).shared.pendingAllocation = some ⟨300, 2⟩ := by
    decide +kernel
  refine ⟨brokerRaised_timedOut (by decide +kernel), hallocation, ?_⟩
  intro hrestored
  have hnone := hallocation.symm.trans hrestored.allocation
  cases hnone

end HandlerSample

end Joker.Runtime
