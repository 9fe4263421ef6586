import Joker.Runtime.HandlerSteps

/-!
# Entries that end

Library `Runtime`. A pending entry ends by becoming an open trade, or by being dropped when the
ledger shows its order cancelled or rejected. The order is looked at before the position, so an
order that was filled in part and then cancelled is dropped with its position open. An entry
never ends so exactly when no order is found over while its contract's position is open.
-/

namespace Joker.Runtime

open Joker.Base Joker.Ledger Joker.Broker Joker.Risk

namespace HandlerState

/-- The session's projection has an open position on a contract. -/
def holdsOpen [DecimalContext] (s : HandlerState) (contractId : String) : Bool :=
  (s.position contractId).any (fun pos ↦ pos.isOpen)

/-- `reserved_usd`, zero without a budget. -/
def reservedUsd (s : HandlerState) : ℚ := (s.budget.map (fun budget ↦ budget.reservedUsd)).getD 0

end HandlerState

/-- A step that ends a pending entry leaves an open trade, or no open position on the entry's
contract, and it releases capital only when there is no such position. -/
def LeavesNoOrphan [DecimalContext] (s s' : HandlerState) : Prop :=
  ∀ pending ∈ s.pendingEntry, s'.pendingEntry = none →
    (s'.openTrade.isSome = true ∨
        s'.holdsOpen (contractIdFor pending.candidate.contract) = false) ∧
      (s'.reservedUsd < s.reservedUsd →
        s'.holdsOpen (contractIdFor pending.candidate.contract) = false)

instance [DecimalContext] (s s' : HandlerState) : Decidable (LeavesNoOrphan s s') := by
  unfold LeavesNoOrphan
  infer_instance

/-- The stretch does not find the pending entry's order over while its contract's position is
open. -/
def HandlerOp.DropsFlat [DecimalContext] (op : HandlerOp) (s : HandlerState) : Prop :=
  match op with
  | .settleEntry _ poll => ∀ pending ∈ s.entryToPoll, poll.readFault = none →
      s.orderEnded pending.clientOrderId = true →
        s.holdsOpen (contractIdFor pending.candidate.contract) = false
  | _ => True

instance [DecimalContext] (op : HandlerOp) (s : HandlerState) : Decidable (op.DropsFlat s) :=
  match op with
  | .settleEntry _ poll => inferInstanceAs (Decidable (∀ pending ∈ s.entryToPoll,
      poll.readFault = none → s.orderEnded pending.clientOrderId = true →
        s.holdsOpen (contractIdFor pending.candidate.contract) = false))
  | .lookEntry | .lookExit | .settleExit _ | .trail _ | .tryExit _ _ | .answerExit _
  | .lookSignal _ | .attemptEntry _ | .answerEntry _ | .noteSetup _ => instDecidableTrue

/-! ### One stretch -/

/-- Only settling it ends a pending entry. -/
theorem pendingEntry_effect [DecimalContext] {config : HandlerConfig} {op : HandlerOp}
    {s : HandlerState} (hop : ∀ time poll, op ≠ .settleEntry time poll) {pending : PendingEntry}
    (h : s.pendingEntry = some pending) : (op.effect config s).pendingEntry ≠ none := by
  have hkept : s.pendingEntry ≠ none := by
    rw [h]
    exact Option.some_ne_none pending
  cases op with
  | settleEntry time poll => exact absurd rfl (hop time poll)
  | lookEntry | lookExit | lookSignal _ | trail _ | noteSetup _ => exact hkept
  | settleExit poll =>
    change (s.settlePendingExit poll).pendingEntry ≠ none
    rcases s.settlePendingExit_cases poll with he | ⟨_, _, _, _, _, _, he⟩ |
      ⟨exit, _, trade, _, _, _, he⟩
    · rwa [he]
    · rwa [he]
    · rw [he]
      unfold HandlerState.settleLiveExit
      simp only
      split
      · exact hkept
      · split
        · exact hkept
        · split <;> exact hkept
  | tryExit time quote =>
    change (s.tryExitStep config time quote).1.pendingEntry ≠ none
    rcases s.tryExitStep_cases config time quote with ⟨he, -⟩ | ⟨_, _, _, _, _, _, he⟩
    · rwa [he]
    · rwa [he]
  | answerExit order =>
    change (s.answerExit order).1.pendingEntry ≠ none
    rcases s.answerExit_cases order with ⟨-, he⟩ | ⟨_, _, _, he⟩
    · rwa [he]
    · rwa [he]
  | attemptEntry entry =>
    change (s.attemptEntryStep config entry).1.pendingEntry ≠ none
    have hout := s.outcome_attemptEntryStep config entry
    generalize s.attemptEntryStep config entry = out at hout ⊢
    cases hout with
    | declined engine setups => exact hkept
    | handed candidate notionalUsd engine htrade hpending => exact absurd hpending hkept
    | reserved candidate notionalUsd engine budget after quantity htrade hpending =>
      exact absurd hpending hkept
  | answerEntry order =>
    change (s.answerEntry order).1.pendingEntry ≠ none
    rcases s.answerEntry_cases order with ⟨-, he⟩ | ⟨_, _, _, _, he⟩ | ⟨_, _, _, _, he | he⟩
    · rwa [he]
    · rwa [he]
    · rw [he]
      exact Option.some_ne_none _
    · rw [he]
      split <;> exact hkept

/-- A stretch leaves no orphan exactly when it drops no entry with an open position. -/
theorem leavesNoOrphan_effect_iff [DecimalContext] (config : HandlerConfig) (op : HandlerOp)
    (s : HandlerState) :
    LeavesNoOrphan s (op.effect config s) ↔ op.DropsFlat s := by
  by_cases hop : ∀ time poll, op ≠ .settleEntry time poll
  · constructor
    · intro _
      cases op with
      | settleEntry time poll => exact absurd rfl (hop time poll)
      | _ => trivial
    · intro _ pending hpending hnone
      exact absurd hnone (pendingEntry_effect hop hpending)
  · push Not at hop
    obtain ⟨time, poll, rfl⟩ := hop
    change LeavesNoOrphan s (s.settlePendingEntry time poll).1 ↔
      ∀ pending ∈ s.entryToPoll, poll.readFault = none →
        s.orderEnded pending.clientOrderId = true →
          s.holdsOpen (contractIdFor pending.candidate.contract) = false
    rcases s.settlePendingEntry_cases time poll with ⟨he, hlive⟩ |
      ⟨pending, hpoll, hfault, hended, he⟩ | ⟨pending, hpoll, pos, avg, hlive, -, -, he⟩
    · rw [he]
      constructor
      · intro _ pending hpoll hfault hended
        rw [hlive pending hpoll hfault] at hended
        cases hended
      · intro _ pending hpending hnone
        rw [hpending] at hnone
        cases hnone
    · obtain ⟨htrade, hpending⟩ := HandlerState.entryToPoll_eq hpoll
      obtain ⟨budget, allocation, engine, hdrop, -⟩ := s.dropPendingEntry_spec
      rw [he, hdrop]
      constructor
      · intro h other hother _ _
        obtain rfl : other = pending := Option.mem_unique hother hpoll
        refine (h other hpending rfl).1.resolve_left ?_
        change s.openTrade.isSome ≠ true
        rw [htrade]
        exact Bool.false_ne_true
      · intro h other hother _
        obtain rfl : other = pending := Option.mem_unique hother hpending
        have hflat := h other hpoll hfault hended
        exact ⟨Or.inr hflat, fun _ ↦ hflat⟩
    · obtain ⟨htrade, hpending⟩ := HandlerState.entryToPoll_eq hpoll
      rw [he]
      apply iff_of_true
      · intro other _ _
        exact ⟨Or.inl rfl, fun hlt ↦ absurd hlt (lt_irrefl _)⟩
      · intro other hother _ hended
        obtain rfl : other = pending := Option.mem_unique hother hpoll
        rw [hlive] at hended
        cases hended

/-- Of a thread whose stretches leave no orphan exactly when they drop flat entries only, a step
leaves none exactly when it meets that condition; a step that only records rows does both. -/
theorem leavesNoOrphan_step_iff [DecimalContext]
    (t : Thread HandlerOp HandlerState PyException Unit)
    (hcode : t.code.Steps (fun op s s' ↦ LeavesNoOrphan s s' ↔ op.DropsFlat s))
    (a : ThreadAction (List LedgerEvent)) :
    LeavesNoOrphan t.shared (t.step HandlerState.record a).shared ↔
      t.Meets HandlerOp.DropsFlat (fun _ _ ↦ True) a := by
  have hkept {s s' : HandlerState} (h : s'.pendingEntry = s.pendingEntry) :
      LeavesNoOrphan s s' := by
    intro pending hpending hnone
    rw [h, hpending] at hnone
    cases hnone
  rcases @Thread.step_cases _ _ _ _ _ HandlerState.record _ t hcode a with
    ⟨op, hop, rfl, hstep⟩ | ⟨rows, rfl, hstep⟩ | ⟨rfl, hnone, hstep⟩
  · rw [hstep]
    constructor
    · intro h other hother
      rwa [Option.mem_unique hother hop]
    · exact fun h ↦ h op hop
  · rw [hstep]
    exact iff_of_true (hkept rfl) trivial
  · rw [hstep]
    apply iff_of_true (hkept rfl)
    intro op hop
    rw [hnone] at hop
    cases hop

/-! ### Runs -/

section Runs

variable {config : HandlerConfig} {s : HandlerState} {calls : List HandlerCall}

/-- In a run of the handler, whatever it is called with and whatever is recorded meanwhile, every
ended entry leaves no orphan exactly when every stretch drops flat entries only. -/
theorem leavesNoOrphan_iff [DecimalContext] (xs : List (ThreadAction (List LedgerEvent))) :
    (∀ pre a, pre ++ [a] <+: xs → LeavesNoOrphan (runHandler config s calls pre).shared
        (runHandler config s calls (pre ++ [a])).shared) ↔
      ∀ pre a, pre ++ [a] <+: xs → (runHandler config s calls pre).Meets HandlerOp.DropsFlat
        (fun _ _ ↦ True) a := by
  apply forall_congr'
  intro pre
  apply forall_congr'
  intro a
  apply imp_congr_right
  intro _
  rw [show runHandler config s calls (pre ++ [a]) =
    (runHandler config s calls pre).step HandlerState.record a from run_snoc _ _ pre a]
  exact leavesNoOrphan_step_iff (runHandler config s calls pre)
    (Thread.steps_run (steps_handlerThread (leavesNoOrphan_effect_iff config) calls) pre) a

end Runs

/-! ### A cancelled remainder -/

namespace HandlerSample

/-- One of them is bought before the rest is cancelled. -/
def partlyCancelled : List LedgerEvent :=
  [⟨row "3" .partialFill "b" .buy 1 (some (3 / 2)), valid_firstBuy⟩,
    ⟨row "4" .cancellation "b" .buy 2 none, by decide +kernel⟩]

/-- An entry that is filled in part and cancelled before the next tick. -/
def entryThenTick : List (ThreadAction (List LedgerEvent)) :=
  [.resume, .env ordered, .resume, .resume, .resume, .resume, .env partlyCancelled, .resume]

end HandlerSample

open HandlerSample
open scoped DefaultContext

/-- A partly filled entry that is cancelled is dropped with its position open, and its capital is
released. -/
theorem not_leavesNoOrphan_partlyCancelled :
    ¬ ∀ pre a, pre ++ [a] <+: entryThenTick ++ [.resume] →
      LeavesNoOrphan
        (runHandler config (HandlerState.new "s" (some budget))
          [.attemptEntry time (entry "b" 2), .handleEvent (tick none)] pre).shared
        (runHandler config (HandlerState.new "s" (some budget))
          [.attemptEntry time (entry "b" 2), .handleEvent (tick none)] (pre ++ [a])).shared := by
  intro h
  exact absurd (h entryThenTick .resume (List.prefix_refl _)) (by decide +kernel)

end Joker.Runtime
