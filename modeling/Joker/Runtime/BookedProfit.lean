import Mathlib.Algebra.BigOperators.Group.Finset.Basic
import Joker.Runtime.HandlerSteps

/-!
# Booked profit

Library `Runtime`. What the budget reserves is the notional of the one entry or trade there is.
What it books for an exit is the ledger's realised P&L since the exit was submitted, once the
position is gone. These slices add up to the ledger's total as long as none is left behind: an
order that ends before its position is closed books nothing, and the next exit starts from a new
baseline.
-/

namespace Joker.Runtime

open Joker.Base Joker.Ledger Joker.Broker Joker.Risk Joker.Execution
open scoped ExactArithmetic

namespace HandlerState

/-- The realised P&L of a contract in the session's projection; zero without one. -/
def realized (s : HandlerState) (contractId : String) : ℚ :=
  ((s.position contractId).map (fun pos ↦ pos.realizedPnl)).getD 0

/-- The contracts with a position in the session's projection. -/
def positionKeys (s : HandlerState) : List String :=
  match s.projection with
  | .ok projection => projection.positions.keys
  | .error _ => []

/-- What the outstanding exit has realised since its baseline was read. -/
def slice (s : HandlerState) : ℚ :=
  match s.outstanding with
  | some exit => s.realized exit.contractId - exit.realizedPnlBefore
  | none => 0

/-- The order of a pending exit is done with before its position is closed: it is over, or filled
with some of the position left. -/
def exitCutShort (s : HandlerState) (poll : OrderPoll) (pending : PendingExit) : Bool :=
  s.exitOver poll pending ||
    (poll.order.isOk &&
      (s.ledgerOrder pending.clientOrderId).any (fun order ↦ order.status = .filled) &&
      (s.position pending.contractId).any (fun pos ↦ 0 < pos.quantity))

end HandlerState

/-- With no entry under way and no open trade, nothing is reserved, and the budget has booked what
the ledger realised on the contracts traded so far. -/
def FollowsLedger (s : HandlerState) : Prop :=
  s.entryCall = none → s.pendingEntry = none → s.openTrade = none → ∀ budget ∈ s.budget,
    budget.reservedUsd = 0 ∧
      budget.realizedPnlUsd = ∑ contractId ∈ s.traded, s.realized contractId

instance (s : HandlerState) : Decidable (FollowsLedger s) := by
  unfold FollowsLedger
  infer_instance

/-! ### What must not be left behind -/

/-- The stretch leaves no realised P&L behind: an exit that is cut short or refused has realised
nothing, a baseline that cannot be read is zero, and the broker answers an entry. -/
def HandlerOp.BooksAll (config : HandlerConfig) (op : HandlerOp) (s : HandlerState) : Prop :=
  match op with
  | .settleExit poll => ∀ pending ∈ s.pendingExit, poll.readFault = none →
      s.exitCutShort poll pending = true →
        s.realized pending.contractId = pending.realizedPnlBefore
  | .tryExit time quote => quote.baselineFault.isSome = true →
      ∀ pos ∈ s.exitPosition config time quote, s.realized (contractIdFor pos.contract) = 0
  | .answerExit order => refusesExit order = true →
      ∀ call ∈ s.exitCall, s.realized call.pending.contractId = call.pending.realizedPnlBefore
  | .answerEntry order => order.isOk = true
  | _ => True

instance (config : HandlerConfig) (op : HandlerOp) (s : HandlerState) :
    Decidable (op.BooksAll config s) :=
  match op with
  | .settleExit poll => inferInstanceAs (Decidable (∀ pending ∈ s.pendingExit,
      poll.readFault = none → s.exitCutShort poll pending = true →
        s.realized pending.contractId = pending.realizedPnlBefore))
  | .tryExit time quote => inferInstanceAs (Decidable (quote.baselineFault.isSome = true →
      ∀ pos ∈ s.exitPosition config time quote, s.realized (contractIdFor pos.contract) = 0))
  | .answerExit order => inferInstanceAs (Decidable (refusesExit order = true →
      ∀ call ∈ s.exitCall, s.realized call.pending.contractId = call.pending.realizedPnlBefore))
  | .answerEntry order => inferInstanceAs (Decidable (order.isOk = true))
  | .lookEntry | .settleEntry _ _ | .lookExit | .trail _ | .lookSignal _ | .attemptEntry _
  | .noteSetup _ => instDecidableTrue

/-- Recorded rows realise P&L on the contract of the outstanding exit only. -/
def RealizesExit (rows : List LedgerEvent) (s : HandlerState) : Prop :=
  ∀ contractId ∈ s.positionKeys ++ (s.record rows).positionKeys,
    (∀ exit ∈ s.outstanding, exit.contractId ≠ contractId) →
      (s.record rows).realized contractId = s.realized contractId

instance (rows : List LedgerEvent) (s : HandlerState) : Decidable (RealizesExit rows s) := by
  unfold RealizesExit
  infer_instance

/-! ### One stretch -/

/-- What a budget has reserved is the notional of the entry under way or of the open trade. -/
structure HandlerState.Reserves (s : HandlerState) (budget : CapitalBudget) : Prop where
  call : ∀ call ∈ s.entryCall, 0 < call.notionalUsd ∧ budget.reservedUsd = call.notionalUsd ∧
    ∃ allocation ∈ s.pendingAllocation, allocation.notionalUsd = call.notionalUsd
  pending : ∀ pending ∈ s.pendingEntry, ∃ allocation ∈ s.pendingAllocation,
    0 < allocation.notionalUsd ∧ budget.reservedUsd = allocation.notionalUsd
  trade : ∀ trade ∈ s.openTrade, 0 < trade.reservedNotionalUsd ∧
    budget.reservedUsd = trade.reservedNotionalUsd
  idle : s.entryCall = none → s.pendingEntry = none → s.openTrade = none → budget.reservedUsd = 0

/-- The budget reserves what it should, and has booked what the ledger realised but for the slice
of an outstanding exit. -/
structure HandlerState.Booked (s : HandlerState) : Prop where
  untraded : ∀ contractId, contractId ∉ s.traded → s.realized contractId = 0
  ordered : ∀ exit ∈ s.outstanding, exit.contractId ∈ s.traded
  reserves : ∀ budget ∈ s.budget, s.Reserves budget
  profit : ∀ budget ∈ s.budget,
    budget.realizedPnlUsd + s.slice = ∑ contractId ∈ s.traded, s.realized contractId

namespace HandlerState

/-- A contract without a position has realised nothing. -/
theorem realized_of_not_mem {s : HandlerState} {contractId : String}
    (h : contractId ∉ s.positionKeys) : s.realized contractId = 0 := by
  unfold positionKeys at h
  unfold realized position
  cases hprojection : s.projection with
  | error e => rfl
  | ok projection =>
    rw [hprojection] at h
    change ((projection.positions.get? contractId).map (fun pos ↦ pos.realizedPnl)).getD 0 = 0
    rw [(projection.positions.not_mem_keys_iff contractId).mp h]
    rfl

/-- A baseline that can be read is what is realised. -/
theorem realizedBaseline_none (s : HandlerState) (contractId : String) :
    s.realizedBaseline none contractId = s.realized contractId := by
  unfold realizedBaseline realized position
  cases s.projection <;> rfl

/-- The condition on recorded rows speaks of every contract. -/
theorem realized_record {rows : List LedgerEvent} {s : HandlerState} (h : RealizesExit rows s)
    (contractId : String) (hother : ∀ exit ∈ s.outstanding, exit.contractId ≠ contractId) :
    (s.record rows).realized contractId = s.realized contractId := by
  by_cases hkey : contractId ∈ s.positionKeys ++ (s.record rows).positionKeys
  · exact h contractId hkey hother
  · rw [List.mem_append, not_or] at hkey
    rw [realized_of_not_mem hkey.1, realized_of_not_mem hkey.2]

/-- The slice of an exit. -/
theorem slice_of_outstanding {s : HandlerState} {exit : PendingExit}
    (h : s.outstanding = some exit) :
    s.slice = s.realized exit.contractId - exit.realizedPnlBefore := by
  unfold slice
  rw [h]

/-- No exit, no slice. -/
theorem slice_of_none {s : HandlerState} (h : s.outstanding = none) : s.slice = 0 := by
  unfold slice
  rw [h]

private theorem sum_of_eq_off {S : Finset String} {f g : String → ℚ} {a : String} (ha : a ∈ S)
    (h : ∀ x, x ≠ a → g x = f x) : ∑ x ∈ S, g x = (∑ x ∈ S, f x) + (g a - f a) := by
  rw [← Finset.add_sum_erase S g ha, ← Finset.add_sum_erase S f ha]
  have hrest : ∑ x ∈ S.erase a, g x = ∑ x ∈ S.erase a, f x :=
    Finset.sum_congr rfl (fun x hx ↦ h x (Finset.ne_of_mem_erase hx))
  rw [hrest]
  ring

private theorem booked_record {rows : List LedgerEvent} {s : HandlerState} (h : s.Booked)
    (hrows : RealizesExit rows s) : (s.record rows).Booked := by
  have houtstanding : (s.record rows).outstanding = s.outstanding := rfl
  have hreserves (budget : CapitalBudget) (hb : budget ∈ s.budget) :
      (s.record rows).Reserves budget := by
    have hr := h.reserves budget hb
    exact ⟨hr.call, hr.pending, hr.trade, hr.idle⟩
  refine ⟨?_, h.ordered, hreserves, ?_⟩
  · intro contractId hnot
    rw [realized_record hrows contractId]
    · exact h.untraded contractId hnot
    · rintro exit hexit rfl
      exact hnot (h.ordered exit hexit)
  · intro budget hb
    have hprofit := h.profit budget hb
    change budget.realizedPnlUsd + _ = ∑ contractId ∈ s.traded, _
    cases hout : s.outstanding with
    | none =>
      rw [slice_of_none hout] at hprofit
      rw [slice_of_none (houtstanding.trans hout), hprofit]
      apply Finset.sum_congr rfl
      intro contractId _
      apply (realized_record hrows contractId _).symm
      rw [hout]
      exact fun _ hnone ↦ (Option.not_mem_none _ hnone).elim
    | some exit =>
      rw [slice_of_outstanding hout] at hprofit
      rw [slice_of_outstanding (houtstanding.trans hout),
        sum_of_eq_off (h.ordered exit hout) (g := (s.record rows).realized) (f := s.realized)]
      · rw [← hprofit]
        ring
      · intro contractId hne
        apply realized_record hrows
        intro other hother
        obtain rfl : other = exit := Option.mem_unique hother hout
        exact Ne.symm hne

private theorem booked_of_frame {s s' : HandlerState} (h : s.Booked)
    (hprojection : s'.projection = s.projection) (htraded : s.traded ⊆ s'.traded)
    (hordered : ∀ exit ∈ s'.outstanding, exit.contractId ∈ s'.traded)
    (hreserves : ∀ budget ∈ s'.budget, s'.Reserves budget)
    (hprofit : ∀ after ∈ s'.budget, ∃ budget ∈ s.budget,
      after.realizedPnlUsd + s'.slice = budget.realizedPnlUsd + s.slice) : s'.Booked := by
  have hrealized : s'.realized = s.realized := by
    unfold realized position
    rw [hprojection]
  refine ⟨?_, hordered, hreserves, ?_⟩
  · intro contractId hnot
    rw [hrealized]
    exact h.untraded contractId (fun hmem ↦ hnot (htraded hmem))
  · intro after hafter
    obtain ⟨budget, hb, heq⟩ := hprofit after hafter
    rw [heq, h.profit budget hb, hrealized]
    exact Finset.sum_subset htraded (fun contractId _ hnot ↦ h.untraded contractId hnot)

private theorem booked_of_same {s s' : HandlerState} (h : s.Booked)
    (hprojection : s'.projection = s.projection) (htraded : s'.traded = s.traded)
    (hout : s'.outstanding = s.outstanding) (hbudget : s'.budget = s.budget)
    (hreserves : ∀ budget ∈ s.budget, s'.Reserves budget) : s'.Booked := by
  have hslice : s'.slice = s.slice := by
    unfold slice realized position
    rw [hout, hprojection]
  apply booked_of_frame h hprojection htraded.ge
  · rw [hout, htraded]
    exact h.ordered
  · rw [hbudget]
    exact hreserves
  · intro after hafter
    exact ⟨after, hbudget ▸ hafter, by rw [hslice]⟩

private theorem reserves_of_trade {s : HandlerState} {budget : CapitalBudget}
    {trade : OpenTradeContext} (hcall : s.entryCall = none) (hpending : s.pendingEntry = none)
    (htrade : s.openTrade = some trade) (hpos : 0 < trade.reservedNotionalUsd)
    (hreserved : budget.reservedUsd = trade.reservedNotionalUsd) : s.Reserves budget := by
  refine ⟨?_, ?_, ?_, ?_⟩
  · rw [hcall]
    exact fun _ hnone ↦ (Option.not_mem_none _ hnone).elim
  · rw [hpending]
    exact fun _ hnone ↦ (Option.not_mem_none _ hnone).elim
  · intro other hother
    obtain rfl : other = trade := Option.mem_unique hother htrade
    exact ⟨hpos, hreserved⟩
  · intro _ _ hnone
    rw [htrade] at hnone
    cases hnone

private theorem reserves_of_idle {s : HandlerState} {budget : CapitalBudget}
    (hcall : s.entryCall = none) (hpending : s.pendingEntry = none) (htrade : s.openTrade = none)
    (hreserved : budget.reservedUsd = 0) : s.Reserves budget := by
  refine ⟨?_, ?_, ?_, fun _ _ _ ↦ hreserved⟩
  · rw [hcall]
    exact fun _ hnone ↦ (Option.not_mem_none _ hnone).elim
  · rw [hpending]
    exact fun _ hnone ↦ (Option.not_mem_none _ hnone).elim
  · rw [htrade]
    exact fun _ hnone ↦ (Option.not_mem_none _ hnone).elim

private theorem booked_settlePendingEntry {time : ExchangeTime} {poll : OrderPoll}
    {s : HandlerState} (h : s.Booked) (hquiet : s.Quiet) :
    (s.settlePendingEntry time poll).1.Booked := by
  rcases s.settlePendingEntry_cases time poll with ⟨he, -⟩ | ⟨pending, hpoll, -, -, he⟩ |
    ⟨pending, hpoll, pos, avg, -, -, -, he⟩
  · rwa [he]
  · obtain ⟨htrade, hpending⟩ := entryToPoll_eq hpoll
    obtain ⟨budget, allocation, engine, hdrop, hreleased⟩ := s.dropPendingEntry_spec
    rw [he, hdrop]
    refine booked_of_frame h rfl (le_refl _) h.ordered ?_ ?_
    · intro after hafter
      obtain ⟨before, hbefore, hrelease⟩ := hreleased after hafter
      obtain ⟨allocated, hallocated, -, hreserved⟩ :=
        (h.reserves before hbefore).pending pending hpending
      apply reserves_of_idle
      · exact hquiet.entryCall
      · rfl
      · exact htrade
      · rw [hrelease allocated hallocated]
        exact CapitalBudget.reservedUsd_release_self hreserved 0
    · intro after hafter
      obtain ⟨before, hbefore, hrelease⟩ := hreleased after hafter
      obtain ⟨allocated, hallocated, -⟩ := (h.reserves before hbefore).pending pending hpending
      refine ⟨before, hbefore, ?_⟩
      rw [hrelease allocated hallocated]
      change before.realizedPnlUsd + 0 + s.slice = _
      ring
  · obtain ⟨htrade, hpending⟩ := entryToPoll_eq hpoll
    rw [he]
    refine booked_of_same h rfl rfl rfl rfl ?_
    intro budget hb
    obtain ⟨allocation, hallocation, hpos, hreserved⟩ :=
      (h.reserves budget hb).pending pending hpending
    have hattached : ∃ trade, (s.promoteEntry time pending pos avg).openTrade = some trade ∧
        trade.reservedNotionalUsd = allocation.notionalUsd := by
      refine ⟨_, rfl, ?_⟩
      change (if ((s.pendingAllocation.map _).getD 0) = 0 then _ else _) = _
      rw [hallocation]
      exact if_neg hpos.ne'
    obtain ⟨trade, hat, hnotional⟩ := hattached
    apply reserves_of_trade _ _ hat
    · rw [hnotional]
      exact hpos
    · rw [hnotional]
      exact hreserved
    · exact hquiet.entryCall
    · rfl

private theorem booked_trail {config : HandlerConfig} {mid : ℚ} {s : HandlerState}
    (h : s.Booked) : (s.trail config mid).Booked := by
  refine booked_of_same h rfl rfl rfl rfl ?_
  intro budget hb
  have hr := h.reserves budget hb
  refine ⟨hr.call, hr.pending, ?_, ?_⟩
  · intro trade htrade
    obtain ⟨before, hbefore, rfl⟩ := Option.map_eq_some_iff.mp htrade
    obtain ⟨-, hnotional⟩ := config.exitManager.updateTrailing_frame before mid
    rw [hnotional]
    exact hr.trade before hbefore
  · exact fun hcall hpending hnone ↦ hr.idle hcall hpending (Option.map_eq_none_iff.mp hnone)

private theorem booked_noteSetup {setup : PlaybookSetup} {s : HandlerState} (h : s.Booked) :
    (s.noteSetup setup).Booked := by
  refine booked_of_same h rfl rfl rfl rfl ?_
  intro budget hb
  have hr := h.reserves budget hb
  exact ⟨hr.call, hr.pending, hr.trade, hr.idle⟩

/-- Noting what is left of a trade leaves its reservation. -/
theorem noteRemaining_reserved (trade : OpenTradeContext) (remaining : ℚ) :
    (noteRemaining trade remaining).reservedNotionalUsd = trade.reservedNotionalUsd := by
  unfold noteRemaining
  split <;> rfl

private theorem booked_of_forgotten {s s' : HandlerState} (h : s.Booked)
    (hprojection : s'.projection = s.projection) (htraded : s'.traded = s.traded)
    (hbudget : s'.budget = s.budget) (hout : s'.outstanding = none) (hslice : s.slice = 0)
    (hreserves : ∀ budget ∈ s.budget, s'.Reserves budget) : s'.Booked := by
  apply booked_of_frame h hprojection htraded.ge
  · rw [hout]
    exact fun _ hnone ↦ (Option.not_mem_none _ hnone).elim
  · rw [hbudget]
    exact hreserves
  · intro after hafter
    exact ⟨after, hbudget ▸ hafter, by rw [slice_of_none hout, hslice]⟩

private theorem booked_finalizeExit {s s₁ : HandlerState} (h : s.Booked) (hquiet : s.Quiet)
    {pending : PendingExit} (hpending : s.pendingExit = some pending) {trade : OpenTradeContext}
    (htrade : s.openTrade = some trade) (hopened : ∃ noted, s₁ = { s with openTrade := noted })
    (exitPrice : ℚ) :
    (s₁.finalizeExit trade pending exitPrice
      (s.realized pending.contractId - pending.realizedPnlBefore)).Booked := by
  obtain ⟨noted, rfl⟩ := hopened
  have hslice := slice_of_outstanding (hquiet.outstanding_eq.trans hpending)
  rw [← hslice]
  have hout : ({ s with openTrade := noted }.finalizeExit trade pending exitPrice
      s.slice).outstanding = none := by
    unfold outstanding finalizeExit
    simp only [hquiet.exitCall]
  have hafter : ∀ after ∈ ({ s with openTrade := noted }.finalizeExit trade pending exitPrice
      s.slice).budget, ∃ before ∈ s.budget,
        after = before.release trade.reservedNotionalUsd s.slice := by
    intro after hmem
    obtain ⟨before, hbefore, rfl⟩ := Option.map_eq_some_iff.mp hmem
    refine ⟨before, hbefore, ?_⟩
    rw [if_pos ((h.reserves before hbefore).trade trade htrade).1]
  refine booked_of_frame h rfl (le_refl _) ?_ ?_ ?_
  · rw [hout]
    exact fun _ hnone ↦ (Option.not_mem_none _ hnone).elim
  · intro after hmem
    obtain ⟨before, hbefore, rfl⟩ := hafter after hmem
    exact reserves_of_idle hquiet.entryCall (hquiet.pendingEntry (Option.isSome_of_mem htrade)) rfl
      (CapitalBudget.reservedUsd_release_self ((h.reserves before hbefore).trade trade htrade).2 _)
  · intro after hmem
    obtain ⟨before, hbefore, rfl⟩ := hafter after hmem
    refine ⟨before, hbefore, ?_⟩
    rw [slice_of_none hout]
    exact add_zero _

private theorem booked_settleLiveExit {s : HandlerState} (h : s.Booked) (hquiet : s.Quiet)
    {pending : PendingExit} (hpending : s.pendingExit = some pending) {trade : OpenTradeContext}
    (htrade : s.openTrade = some trade)
    (hshort :
      (s.ledgerOrder pending.clientOrderId).any (fun order ↦ order.status = .filled) = true →
      (s.position pending.contractId).any (fun pos ↦ 0 < pos.quantity) = true → s.slice = 0) :
    (s.settleLiveExit trade pending (s.ledgerOrder pending.clientOrderId)
      (s.position pending.contractId)).Booked := by
  have hentry := hquiet.pendingEntry (Option.isSome_of_mem htrade)
  have hnoted (remaining : ℚ) (s' : HandlerState) (hcall : s'.entryCall = s.entryCall)
      (hpendingEntry : s'.pendingEntry = s.pendingEntry)
      (hopen : s'.openTrade = some (noteRemaining trade remaining)) :
      ∀ budget ∈ s.budget, s'.Reserves budget := by
    intro budget hb
    have hr := (h.reserves budget hb).trade trade htrade
    rw [← noteRemaining_reserved trade remaining] at hr
    exact reserves_of_trade (hcall.trans hquiet.entryCall) (hpendingEntry.trans hentry) hopen
      hr.1 hr.2
  unfold settleLiveExit
  cases hposition : s.position pending.contractId with
  | none =>
    exact booked_of_same h rfl rfl rfl rfl (hnoted 0 _ rfl rfl rfl)
  | some pos =>
    simp only [Option.map_some, Option.getD_some]
    split
    · next hgone =>
      have hrealized : s.realized pending.contractId = pos.realizedPnl := by
        unfold realized
        rw [hposition]
        rfl
      rw [← hrealized]
      exact booked_finalizeExit h hquiet hpending htrade ⟨_, rfl⟩ _
    · next hleft =>
      split
      · next hfilled =>
        have hzero : s.slice = 0 := by
          apply hshort hfilled.1
          rw [hposition]
          exact decide_eq_true hfilled.2
        refine booked_of_forgotten h rfl rfl rfl ?_ hzero (hnoted pos.quantity _ rfl rfl rfl)
        unfold outstanding
        simp only [hquiet.exitCall]
      · exact booked_of_same h rfl rfl rfl rfl (hnoted pos.quantity _ rfl rfl rfl)

private theorem booked_settlePendingExit {config : HandlerConfig} {poll : OrderPoll}
    {s : HandlerState} (h : s.Booked) (hquiet : s.Quiet)
    (hbooks : HandlerOp.BooksAll config (.settleExit poll) s) :
    (s.settlePendingExit poll).Booked := by
  rcases s.settlePendingExit_cases poll with he |
    ⟨pending, hpending, trade, htrade, hfault, hover, he⟩ |
    ⟨pending, hpending, trade, htrade, hfault, hok, he⟩
  · rwa [he]
  · have hzero := hbooks pending hpending hfault (by rw [exitCutShort, hover]; rfl)
    have hslice := slice_of_outstanding (hquiet.outstanding_eq.trans hpending)
    rw [hzero, sub_self] at hslice
    rw [he]
    refine booked_of_forgotten h rfl rfl rfl ?_ hslice ?_
    · unfold outstanding
      simp only [hquiet.exitCall]
    · intro budget hb
      have hr := h.reserves budget hb
      exact ⟨hr.call, hr.pending, hr.trade, hr.idle⟩
  · rw [he]
    apply booked_settleLiveExit h hquiet hpending htrade
    intro hfilled hleft
    have hzero := hbooks pending hpending hfault (by
      rw [exitCutShort, hok, hfilled, hleft]
      exact Bool.or_true _)
    rw [slice_of_outstanding (hquiet.outstanding_eq.trans hpending), hzero, sub_self]

private theorem booked_tryExitStep {config : HandlerConfig} {time : ExchangeTime}
    {quote : QuoteInputs} {s : HandlerState} (h : s.Booked) (hquiet : s.Quiet)
    (hbooks : HandlerOp.BooksAll config (.tryExit time quote) s) :
    (s.tryExitStep config time quote).1.Booked := by
  rcases s.tryExitStep_cases config time quote with ⟨he, -⟩ |
    ⟨trade, htrade, decision, pos, hthrough, hpending, he⟩
  · rwa [he]
  · have hbaseline : s.realizedBaseline quote.baselineFault (contractIdFor pos.contract) =
        s.realized (contractIdFor pos.contract) := by
      cases hfault : quote.baselineFault with
      | none => exact s.realizedBaseline_none _
      | some fault =>
        rw [hbooks (Option.isSome_of_mem hfault) pos hthrough]
        rfl
    have hzero : s.slice = 0 := slice_of_none (hquiet.outstanding_eq.trans hpending)
    rw [he]
    refine booked_of_frame h rfl (Finset.subset_insert _ _) ?_ ?_ ?_
    · intro exit hexit
      obtain rfl := Option.some.inj hexit
      exact Finset.mem_insert_self _ _
    · intro budget hb
      have hr := h.reserves budget hb
      exact ⟨hr.call, hr.pending, hr.trade, hr.idle⟩
    · intro after hafter
      refine ⟨after, hafter, ?_⟩
      rw [hzero, slice_of_outstanding rfl]
      change after.realizedPnlUsd + (s.realized (contractIdFor pos.contract) -
        s.realizedBaseline quote.baselineFault (contractIdFor pos.contract)) = _
      rw [hbaseline, sub_self]

private theorem booked_answerExit {config : HandlerConfig}
    {order : Except PyException BrokerOrder} {s : HandlerState} (h : s.Booked)
    (hexiting : s.Exiting) (hbooks : HandlerOp.BooksAll config (.answerExit order) s) :
    (s.answerExit order).1.Booked := by
  have hreserves (s' : HandlerState) (hcall : s'.entryCall = s.entryCall)
      (hpending : s'.pendingEntry = s.pendingEntry) (htrade : s'.openTrade = s.openTrade) :
      ∀ budget ∈ s.budget, s'.Reserves budget := by
    obtain ⟨trade, hopen⟩ := Option.isSome_iff_exists.mp hexiting.openTrade
    intro budget hb
    have hr := (h.reserves budget hb).trade trade hopen
    exact reserves_of_trade (hcall.trans hexiting.entryCall) (hpending.trans hexiting.pendingEntry)
      (htrade.trans hopen) hr.1 hr.2
  have hout (call : ExitCall) (hcall : call ∈ s.exitCall) : s.outstanding = some call.pending := by
    unfold outstanding
    rw [hcall]
  rcases s.answerExit_cases order with ⟨hrefused, he⟩ | ⟨call, hcall, id, he⟩
  · have hzero : s.slice = 0 := by
      cases hcall : s.exitCall with
      | none =>
        apply slice_of_none
        unfold outstanding
        rw [hcall]
        exact hexiting.pendingExit
      | some call =>
        rw [slice_of_outstanding (hout call hcall), hbooks (hrefused call hcall) call hcall,
          sub_self]
    rw [he]
    exact booked_of_forgotten h rfl rfl rfl hexiting.pendingExit hzero (hreserves _ rfl rfl rfl)
  · rw [he]
    refine booked_of_frame h rfl (le_refl _) ?_ (hreserves _ rfl rfl rfl) ?_
    · intro exit hexit
      obtain rfl := Option.some.inj hexit
      exact h.ordered call.pending (hout call hcall)
    · intro after hafter
      refine ⟨after, hafter, ?_⟩
      rw [slice_of_outstanding (hout call hcall), slice_of_outstanding rfl]
      rfl

private theorem booked_attemptEntryStep {config : HandlerConfig} {entry : EntryInputs}
    {s : HandlerState} (h : s.Booked) (hquiet : s.Quiet) :
    (s.attemptEntryStep config entry).1.Booked := by
  have hout := s.outcome_attemptEntryStep config entry
  generalize s.attemptEntryStep config entry = out at hout ⊢
  cases hout with
  | declined engine setups =>
    refine booked_of_same h rfl rfl rfl rfl ?_
    intro budget hb
    have hr := h.reserves budget hb
    exact ⟨hr.call, hr.pending, hr.trade, hr.idle⟩
  | handed candidate notionalUsd engine htrade hpending hbudget =>
    have hnone (budget : CapitalBudget) : budget ∉ s.budget := by
      rw [hbudget]
      exact Option.not_mem_none budget
    refine booked_of_frame h rfl (Finset.subset_insert _ _) ?_ ?_ ?_
    · exact fun exit hexit ↦ Finset.mem_insert_of_mem (h.ordered exit hexit)
    · exact fun budget hb ↦ (hnone budget hb).elim
    · exact fun budget hb ↦ (hnone budget hb).elim
  | reserved candidate notionalUsd engine budget after quantity htrade hpending hbudget hpos
      hreserve =>
    obtain ⟨hreserved, hrealized⟩ := CapitalBudget.reserve_eq_ok hreserve
    rw [(h.reserves budget hbudget).idle hquiet.entryCall hpending htrade, zero_add] at hreserved
    refine booked_of_frame h rfl (Finset.subset_insert _ _) ?_ ?_ ?_
    · exact fun exit hexit ↦ Finset.mem_insert_of_mem (h.ordered exit hexit)
    · intro other hother
      obtain rfl := Option.some.inj hother
      refine ⟨?_, ?_, ?_, fun hnone ↦ nomatch hnone⟩
      · intro call hcall
        obtain rfl := Option.some.inj hcall
        exact ⟨hpos, hreserved, _, rfl, rfl⟩
      · intro pending hsome
        exact absurd (hpending.symm.trans hsome) (Option.some_ne_none pending).symm
      · intro trade hsome
        exact absurd (htrade.symm.trans hsome) (Option.some_ne_none trade).symm
    · intro other hother
      obtain rfl := Option.some.inj hother
      refine ⟨budget, hbudget, ?_⟩
      rw [hrealized]
      rfl

private theorem booked_answerEntry {config : HandlerConfig}
    {order : Except PyException BrokerOrder} {s : HandlerState} (h : s.Booked)
    (hentering : s.Entering) (hbooks : HandlerOp.BooksAll config (.answerEntry order) s) :
    (s.answerEntry order).1.Booked := by
  rcases s.answerEntry_cases order with ⟨-, he⟩ | ⟨_, _, e, rfl, _⟩ |
    ⟨call, hcall, answer, -, he | he⟩
  · rwa [he]
  · cases hbooks
  · rw [he]
    refine booked_of_same h rfl rfl rfl rfl ?_
    intro budget hb
    obtain ⟨hpos, hreserved, allocation, hallocation, hnotional⟩ :=
      (h.reserves budget hb).call call hcall
    refine ⟨fun _ hnone ↦ (Option.not_mem_none _ hnone).elim, ?_, ?_, fun _ hnone ↦ nomatch hnone⟩
    · intro pending _
      refine ⟨allocation, hallocation, ?_, ?_⟩
      · rwa [hnotional]
      · rwa [hnotional]
    · intro trade hsome
      exact absurd (hentering.openTrade.symm.trans hsome) (Option.some_ne_none trade).symm
  · rw [he]
    apply booked_noteSetup
    split
    · refine booked_of_frame h rfl (le_refl _) h.ordered ?_ ?_
      · intro after hafter
        obtain ⟨before, hbefore, rfl⟩ := Option.map_eq_some_iff.mp hafter
        obtain ⟨-, hreserved, -⟩ := (h.reserves before hbefore).call call hcall
        exact reserves_of_idle rfl hentering.pendingEntry hentering.openTrade
          (CapitalBudget.reservedUsd_release_self hreserved 0)
      · intro after hafter
        obtain ⟨before, hbefore, rfl⟩ := Option.map_eq_some_iff.mp hafter
        refine ⟨before, hbefore, ?_⟩
        change before.realizedPnlUsd + 0 + s.slice = _
        ring
    · next hnone =>
      refine booked_of_same h rfl rfl rfl rfl ?_
      exact fun budget hb ↦ (hnone (Option.isSome_of_mem hb)).elim

/-- Stretches that leave nothing behind keep the books. -/
theorem keptBy_booked (config : HandlerConfig) :
    KeptBy config (HandlerOp.BooksAll config) Booked := by
  intro op s hbooks h hentered
  cases op with
  | lookEntry | lookExit | lookSignal _ => exact h
  | noteSetup setup => exact booked_noteSetup h
  | settleEntry time poll => exact booked_settlePendingEntry h hentered
  | settleExit poll => exact booked_settlePendingExit h hentered hbooks
  | trail mid => exact booked_trail h
  | tryExit time quote => exact booked_tryExitStep h hentered hbooks
  | answerExit order => exact booked_answerExit h hentered hbooks
  | attemptEntry entry => exact booked_attemptEntryStep h hentered
  | answerEntry order => exact booked_answerEntry h hentered hbooks

/-- Books without an exit outstanding agree with the ledger. -/
theorem followsLedger_of_booked {s : HandlerState} (h : s.Booked)
    (hout : s.openTrade = none → s.outstanding = none) : FollowsLedger s := by
  intro hcall hpending htrade budget hb
  have hprofit := h.profit budget hb
  rw [slice_of_none (hout htrade), add_zero] at hprofit
  exact ⟨(h.reserves budget hb).idle hcall hpending htrade, hprofit⟩

/-- A new handler with a new budget has nothing to book. -/
theorem booked_new (sessionId : String) (plan : CapitalPlan) :
    (new sessionId (some (CapitalBudget.new plan))).Booked := by
  refine ⟨fun _ _ ↦ rfl, fun _ hnone ↦ (Option.not_mem_none _ hnone).elim, ?_, ?_⟩
  · intro budget hb
    obtain rfl := Option.some.inj hb
    exact reserves_of_idle rfl rfl rfl rfl
  · intro budget hb
    obtain rfl := Option.some.inj hb
    exact add_zero _

end HandlerState

/-! ### Runs -/

section Runs

variable {config : HandlerConfig} {sessionId : String} {plan : CapitalPlan}

/-- In a run of a new handler with a new budget that leaves no realised P&L behind, capital follows
the ledger in every state, in exact arithmetic. -/
theorem followsLedger_of_stepsMeet (calls : List HandlerCall)
    {xs : List (ThreadAction (List LedgerEvent))}
    (h : StepsMeet (Thread.step HandlerState.record)
      (Thread.Meets (HandlerOp.BooksAll config) RealizesExit)
      ⟨HandlerState.new sessionId (some (CapitalBudget.new plan)), handlerThread config calls⟩
      xs) :
    ∀ pre, pre <+: xs → FollowsLedger (runHandler config
      (HandlerState.new sessionId (some (CapitalBudget.new plan))) calls pre).shared := by
  intro pre hp
  obtain ⟨hbooked, hout⟩ := invariant_of_keptBy (HandlerState.keptBy_booked config)
    (fun _ _ hrows hs ↦ HandlerState.booked_record hs hrows) HandlerState.quiet_new
    (HandlerState.booked_new sessionId plan) calls h hp
  exact HandlerState.followsLedger_of_booked hbooked hout

end Runs

/-! ### Slices -/

namespace HandlerSample

/-- The other half is sold by the same order. -/
def restSold : List LedgerEvent :=
  [⟨row "7" .finalFill "x" .sell 1 (some (7 / 10)), by decide +kernel⟩]

/-- Half of the position is sold by a partial fill. -/
def sellingHalf : List LedgerEvent :=
  [⟨row "4" .orderSubmissionRequested "x" .sell 2 (some (7 / 10)), valid_sellOrder⟩,
    ⟨row "5" .brokerOrderAccepted "x" .sell 2 none, valid_sellAccepted⟩,
    ⟨row "6" .partialFill "x" .sell 1 (some (7 / 10)), by decide +kernel⟩]

/-- A second entry, of one contract, is bought at once. -/
def reentered : List LedgerEvent :=
  [⟨row "8" .orderSubmissionRequested "c" .buy 1 (some (3 / 2)), by decide +kernel⟩,
    ⟨row "9" .finalFill "c" .buy 1 (some (3 / 2)), by decide +kernel⟩]

/-- The contract left is sold by a second exit. -/
def soldOut : List LedgerEvent :=
  [⟨row "a" .orderSubmissionRequested "y" .sell 1 (some (7 / 10)), by decide +kernel⟩,
    ⟨row "b" .finalFill "y" .sell 1 (some (7 / 10)), by decide +kernel⟩]

/-- Two trades, one after the other. -/
def twoTrades : List HandlerCall :=
  [.attemptEntry time (entry "b" 2), .handleEvent (tick none), .handleEvent (stopped "x" 2),
    .handleEvent (tick none), .attemptEntry time (entry "c" 1), .handleEvent (tick none),
    .handleEvent (stopped "y" 1)]

/-- The first trade's exit is filled in two parts, the second trade's in one. -/
def bookedInParts : List (ThreadAction (List LedgerEvent)) :=
  recordAfter 1 ordered ++ recordAfter 4 bought ++ recordAfter 8 sellingHalf ++
    recordAfter 3 restSold ++ recordAfter 5 reentered ++ recordAfter 12 soldOut ++
    List.replicate 2 .resume

/-- One trade whose position takes two exits. -/
def oneTrade : List HandlerCall :=
  [.attemptEntry time (entry "b" 2), .handleEvent (tick none), .handleEvent (stopped "x" 2),
    .handleEvent (stopped "y" 1)]

/-- The first exit order is filled for half of the position, the second one for the rest. -/
def soldTwice : List (ThreadAction (List LedgerEvent)) :=
  recordAfter 1 ordered ++ recordAfter 4 bought ++ recordAfter 8 halfSold ++
    recordAfter 8 soldOut ++ List.replicate 2 .resume

end HandlerSample

section Samples

open HandlerSample

/-- Two trades are booked as the ledger realised them, the first one in two slices. -/
theorem followsLedger_bookedInParts :
    ((runHandler config (HandlerState.new "s" (some budget)) twoTrades
        bookedInParts).shared.openTrade = none ∧
      (runHandler config (HandlerState.new "s" (some budget)) twoTrades
        bookedInParts).shared.realized (contractIdFor contract) = -240) ∧
      FollowsLedger (runHandler config (HandlerState.new "s" (some budget)) twoTrades
        bookedInParts).shared :=
  ⟨by decide +kernel, followsLedger_of_stepsMeet twoTrades (by decide +kernel) bookedInParts
    (List.prefix_refl _)⟩

/-- When a position takes two exits, the budget books the second one only. -/
theorem not_followsLedger_soldTwice :
    ¬ ∀ pre, pre <+: soldTwice → FollowsLedger (runHandler config
      (HandlerState.new "s" (some budget)) oneTrade pre).shared := by
  intro h
  exact absurd (h soldTwice (List.prefix_refl _)) (by decide +kernel)

end Samples

end Joker.Runtime
