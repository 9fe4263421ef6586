import Joker.Runtime.HandlerSteps

/-!
# Exits of the managed position

Library `Runtime`. An exit sells through the broker's first open position, in the quantity that
the open trade was attached with, less what reconciliations saw sold since. It sells the managed
position exactly while nothing else moves that position, whole contracts are filled, exit orders
that end early are seen to have sold what they did, and the broker's first open position is the
managed one.
-/

namespace Joker.Runtime

open Joker.Base Joker.Ledger Joker.Broker Joker.Risk Joker.Execution

/-- The open quantity of a contract in a projection; zero without one. -/
def heldIn (projection : Except ProjectorError ProjectionState) (contractId : String) : ℚ :=
  match projection with
  | .ok projection => ((projection.positions.get? contractId).map (fun pos ↦ pos.quantity)).getD 0
  | .error _ => 0

/-- The exit order sells the managed contract, in the quantity the ledger holds of it. -/
def ExitRecord.SellsManaged (r : ExitRecord) : Prop :=
  r.intent.side = .sell ∧ r.managed = some r.intent.contract ∧
    (r.intent.quantity : ℚ) = heldIn r.projection (contractIdFor r.intent.contract)

instance (r : ExitRecord) : Decidable r.SellsManaged := inferInstanceAs (Decidable (_ ∧ _))

/-- A whole number of contracts. -/
def WholeContracts (q : ℚ) : Prop := (pyInt q : ℚ) = q

instance (q : ℚ) : Decidable (WholeContracts q) := inferInstanceAs (Decidable (_ = _))

namespace HandlerState

/-- The quantity that the ledger holds of a contract. -/
def held [DecimalContext] (s : HandlerState) (contractId : String) : ℚ :=
  heldIn s.projection contractId

end HandlerState

/-! ### What must not happen unseen -/

/-- The stretch sees how much of the managed position is left: an entry is promoted with a whole
quantity; an exit that ends early, or is refused, has sold nothing that was not seen; and an exit
goes through a position of the managed contract. -/
def HandlerOp.SeesPosition [DecimalContext] (config : HandlerConfig) (op : HandlerOp)
    (s : HandlerState) : Prop :=
  match op with
  | .settleEntry _ _ => ∀ pending ∈ s.entryToPoll,
      WholeContracts (s.held (contractIdFor pending.candidate.contract))
  | .settleExit poll => ∀ pending ∈ s.pendingExit, ∀ trade ∈ s.openTrade,
      poll.readFault = none → s.exitOver poll pending = true →
        s.held pending.contractId = trade.quantity
  | .tryExit time quote => ∀ pos ∈ s.exitPosition config time quote,
      s.managed = some pos.contract
  | .answerExit order => refusesExit order = true →
      ∀ call ∈ s.exitCall, ∀ trade ∈ s.openTrade,
        s.held call.pending.contractId = trade.quantity
  | _ => True

instance [DecimalContext] (config : HandlerConfig) (op : HandlerOp) (s : HandlerState) :
    Decidable (op.SeesPosition config s) :=
  match op with
  | .settleEntry _ _ => inferInstanceAs (Decidable (∀ pending ∈ s.entryToPoll,
      WholeContracts (s.held (contractIdFor pending.candidate.contract))))
  | .settleExit poll => inferInstanceAs (Decidable (∀ pending ∈ s.pendingExit,
      ∀ trade ∈ s.openTrade, poll.readFault = none → s.exitOver poll pending = true →
        s.held pending.contractId = trade.quantity))
  | .tryExit time quote => inferInstanceAs (Decidable (∀ pos ∈ s.exitPosition config time quote,
      s.managed = some pos.contract))
  | .answerExit order => inferInstanceAs (Decidable (refusesExit order = true →
      ∀ call ∈ s.exitCall, ∀ trade ∈ s.openTrade,
        s.held call.pending.contractId = trade.quantity))
  | .lookEntry | .lookExit | .trail _ | .lookSignal _ | .attemptEntry _ | .answerEntry _
  | .noteSetup _ => instDecidableTrue

/-- Recorded rows do not move the managed position, but for an outstanding exit: that may sell
whole contracts of it, and no more than there are. -/
def SparesPosition [DecimalContext] (rows : List LedgerEvent) (s : HandlerState) : Prop :=
  s.openTrade.isSome = true → ∀ contract ∈ s.managed,
    let before := s.held (contractIdFor contract)
    let after := (s.record rows).held (contractIdFor contract)
    if s.outstanding.isSome then WholeContracts after ∧ 0 ≤ after ∧ after ≤ before
    else after = before

instance [DecimalContext] (rows : List LedgerEvent) (s : HandlerState) :
    Decidable (SparesPosition rows s) := by
  unfold SparesPosition
  infer_instance

/-! ### One stretch -/

/-- The open trade's quantity is what the ledger holds, or held before an outstanding exit of the
managed contract. -/
structure HandlerState.Tracks [DecimalContext] (s : HandlerState) (trade : OpenTradeContext)
    (contract : OptionContract) : Prop where
  positive : 1 ≤ trade.quantity
  idle : s.outstanding = none → s.held (contractIdFor contract) = trade.quantity
  exiting : ∀ pending ∈ s.outstanding, pending.contractId = contractIdFor contract ∧
    WholeContracts (s.held (contractIdFor contract)) ∧ 0 ≤ s.held (contractIdFor contract) ∧
    s.held (contractIdFor contract) ≤ trade.quantity

/-- The open trade is tracked, and every exit order so far sold the managed position. -/
structure HandlerState.Tracked [DecimalContext] (s : HandlerState) : Prop where
  trade : ∀ trade ∈ s.openTrade, ∃ contract, s.managed = some contract ∧ s.Tracks trade contract
  exits : ∀ r ∈ s.exits, r.SellsManaged

namespace HandlerState

/-- What the tracking speaks of. -/
def trackedPart [DecimalContext] (s : HandlerState) :=
  (s.projection, s.openTrade, s.pendingExit, s.exitCall, s.managed, s.exits)

private theorem tracked_of_part [DecimalContext] {s s' : HandlerState} (h : s.Tracked)
    (hpart : s'.trackedPart = s.trackedPart) : s'.Tracked := by
  unfold trackedPart at hpart
  simp only [Prod.mk.injEq] at hpart
  obtain ⟨hprojection, htrade, hpending, hcall, hmanaged, hexits⟩ := hpart
  have hheld (contractId : String) : s'.held contractId = s.held contractId := by
    unfold held
    rw [hprojection]
  have hout : s'.outstanding = s.outstanding := by
    unfold outstanding
    rw [hcall, hpending]
  constructor
  · intro trade ht
    rw [htrade] at ht
    obtain ⟨contract, hm, htracks⟩ := h.trade trade ht
    refine ⟨contract, hmanaged ▸ hm, htracks.positive, ?_, ?_⟩
    · rw [hout, hheld]
      exact htracks.idle
    · rw [hout, hheld]
      exact htracks.exiting
  · rw [hexits]
    exact h.exits

/-- The ledger holds a verified position of its quantity. -/
theorem held_of_position [DecimalContext] {s : HandlerState} {contractId : String}
    {pos : PositionState}
    (h : s.position contractId = some pos) : s.held contractId = pos.quantity := by
  unfold position at h
  unfold held heldIn
  cases hprojection : s.projection with
  | error e =>
    rw [hprojection] at h
    cases h
  | ok projection =>
    rw [hprojection] at h
    change projection.positions.get? contractId = some pos at h
    change ((projection.positions.get? contractId).map (fun pos ↦ pos.quantity)).getD 0 = _
    rw [h]
    rfl

private theorem tracked_of_flat [DecimalContext] {s : HandlerState} (htrade : s.openTrade = none)
    (hexits : ∀ r ∈ s.exits, r.SellsManaged) : s.Tracked := by
  refine ⟨?_, hexits⟩
  rw [htrade]
  exact fun _ h ↦ (Option.not_mem_none _ h).elim

private theorem tracked_of_idle [DecimalContext] {s : HandlerState} {trade : OpenTradeContext}
    {contract : OptionContract} (hout : s.outstanding = none)
    (htrade : s.openTrade = some trade) (hmanaged : s.managed = some contract)
    (hpos : 1 ≤ trade.quantity) (hheld : s.held (contractIdFor contract) = trade.quantity)
    (hexits : ∀ r ∈ s.exits, r.SellsManaged) : s.Tracked := by
  refine ⟨?_, hexits⟩
  intro other hother
  obtain rfl : other = trade := Option.mem_unique hother htrade
  refine ⟨contract, hmanaged, hpos, fun _ ↦ hheld, ?_⟩
  rw [hout]
  exact fun _ h ↦ (Option.not_mem_none _ h).elim

/-- A whole positive quantity is the quantity that a trade is attached with. -/
theorem quantity_of_whole {q : ℚ} (hq : WholeContracts q) (hpos : 0 < q) :
    1 ≤ pyInt q ∧ max 1 (pyInt q) = pyInt q := by
  have hlt : 0 < pyInt q := by
    unfold WholeContracts at hq
    rw [← hq] at hpos
    exact_mod_cast hpos
  have hle : 1 ≤ pyInt q := by omega
  exact ⟨hle, max_eq_right hle⟩

/-- What is left of a trade is noted as the ledger has it. -/
theorem noteRemaining_quantity {trade : OpenTradeContext} {q : ℚ} (hq : WholeContracts q)
    (hpos : 0 < q) (hle : q ≤ trade.quantity) :
    ((noteRemaining trade q).quantity : ℚ) = q := by
  have hqle : pyInt q ≤ trade.quantity := by
    unfold WholeContracts at hq
    rw [← hq] at hle
    exact_mod_cast hle
  unfold noteRemaining
  split
  · exact hq
  · next hnone =>
    have heq : trade.quantity = pyInt q := by
      by_contra hne
      apply hnone
      refine ⟨hpos, ?_⟩
      omega
    rw [heq]
    exact hq

/-- Nothing is left of a trade to note. -/
theorem noteRemaining_zero (trade : OpenTradeContext) : noteRemaining trade 0 = trade := by
  unfold noteRemaining
  exact if_neg (fun h ↦ lt_irrefl 0 h.1)

/-! ### The stretches -/

private theorem tracked_record [DecimalContext] {rows : List LedgerEvent} {s : HandlerState}
    (h : s.Tracked) (hspares : SparesPosition rows s) : (s.record rows).Tracked := by
  refine ⟨?_, h.exits⟩
  intro trade htrade
  obtain ⟨contract, hmanaged, htracks⟩ := h.trade trade htrade
  have hs := hspares (Option.isSome_of_mem htrade) contract hmanaged
  refine ⟨contract, hmanaged, htracks.positive, ?_, ?_⟩
  · intro hnone
    change s.outstanding = none at hnone
    simp only [hnone, Option.isSome_none, Bool.false_eq_true, if_false] at hs
    rw [hs]
    exact htracks.idle hnone
  · intro pending hpending
    change s.outstanding = some pending at hpending
    obtain ⟨hid, -, -, hle⟩ := htracks.exiting pending hpending
    simp only [hpending, Option.isSome_some, if_true] at hs
    obtain ⟨hwhole, hnonneg, hless⟩ := hs
    exact ⟨hid, hwhole, hnonneg, hless.trans hle⟩

private theorem tracked_settlePendingEntry [DecimalContext] {config : HandlerConfig}
    {time : ExchangeTime} {poll : OrderPoll} {s : HandlerState} (h : s.Tracked) (hquiet : s.Quiet)
    (hsees : HandlerOp.SeesPosition config (.settleEntry time poll) s) :
    (s.settlePendingEntry time poll).1.Tracked := by
  rcases s.settlePendingEntry_cases time poll with ⟨he, -⟩ | ⟨_, _, _, _, he⟩ |
    ⟨pending, hpoll, pos, avg, -, hposition, hpos, he⟩
  · rwa [he]
  · obtain ⟨budget, allocation, engine, hdrop, -⟩ := s.dropPendingEntry_spec
    rw [he, hdrop]
    exact tracked_of_part h rfl
  · obtain ⟨htrade, -⟩ := entryToPoll_eq hpoll
    have hout := hquiet.outstanding_eq.trans (hquiet.pendingExit htrade)
    have hwhole := hsees pending hpoll
    rw [held_of_position hposition] at hwhole
    obtain ⟨hone, hmax⟩ := quantity_of_whole hwhole hpos
    rw [he]
    have hnew : ∃ trade, (s.promoteEntry time pending pos avg).openTrade = some trade ∧
        trade.quantity = max 1 (max 1 (pyInt pos.quantity)) := ⟨_, rfl, rfl⟩
    obtain ⟨trade, hattached, hquantity⟩ := hnew
    rw [hmax, hmax] at hquantity
    apply tracked_of_idle (s := s.promoteEntry time pending pos avg) hout hattached rfl
    · omega
    · rw [hquantity]
      exact (held_of_position hposition).trans hwhole.symm
    · exact h.exits

private theorem tracked_settleLiveExit [DecimalContext] {s : HandlerState} (h : s.Tracked)
    (hquiet : s.Quiet)
    {pending : PendingExit} (hpending : s.pendingExit = some pending) {trade : OpenTradeContext}
    (htrade : s.openTrade = some trade) (order : Option OrderLifecycle) :
    (s.settleLiveExit trade pending order (s.position pending.contractId)).Tracked := by
  obtain ⟨contract, hmanaged, htracks⟩ := h.trade trade htrade
  have hout := hquiet.outstanding_eq.trans hpending
  obtain ⟨hid, hwhole, hnonneg, hle⟩ := htracks.exiting pending hout
  unfold settleLiveExit
  cases hposition : s.position pending.contractId with
  | none =>
    apply tracked_of_part h
    unfold trackedPart
    simp only [Option.map_none, Option.getD_none, noteRemaining_zero, htrade]
    rfl
  | some pos =>
    have hheld := held_of_position hposition
    rw [hid] at hheld
    simp only [Option.map_some, Option.getD_some]
    split
    · exact tracked_of_flat rfl h.exits
    · next hne =>
      rw [hheld] at hwhole hnonneg hle
      have hpos : 0 < pos.quantity := lt_of_le_of_ne hnonneg (Ne.symm hne)
      have hnoted := noteRemaining_quantity hwhole hpos hle
      have hone : 1 ≤ (noteRemaining trade pos.quantity).quantity := by
        rw [← hnoted] at hpos
        exact_mod_cast hpos
      split
      · refine tracked_of_idle ?_ rfl hmanaged hone (hheld.trans hnoted.symm) h.exits
        unfold outstanding
        simp only [hquiet.exitCall]
      · refine ⟨?_, h.exits⟩
        intro other hother
        obtain rfl := Option.some.inj hother
        refine ⟨contract, hmanaged, hone, fun _ ↦ hheld.trans hnoted.symm, ?_⟩
        intro exit hexit
        change s.outstanding = some exit at hexit
        obtain ⟨hexitId, -⟩ := htracks.exiting exit hexit
        refine ⟨hexitId, ?_, ?_, ?_⟩
        · exact hheld ▸ hwhole
        · exact hheld ▸ hnonneg
        · exact (hheld.trans hnoted.symm).le

private theorem tracked_settlePendingExit [DecimalContext] {config : HandlerConfig}
    {poll : OrderPoll} {s : HandlerState} (h : s.Tracked) (hquiet : s.Quiet)
    (hsees : HandlerOp.SeesPosition config (.settleExit poll) s) :
    (s.settlePendingExit poll).Tracked := by
  rcases s.settlePendingExit_cases poll with he |
    ⟨pending, hpending, trade, htrade, hfault, hover, he⟩ |
    ⟨pending, hpending, trade, htrade, -, -, he⟩
  · rwa [he]
  · obtain ⟨contract, hmanaged, htracks⟩ := h.trade trade htrade
    have hout := hquiet.outstanding_eq.trans hpending
    obtain ⟨hid, -⟩ := htracks.exiting pending hout
    have hheld := hsees pending hpending trade htrade hfault hover
    rw [hid] at hheld
    rw [he]
    refine tracked_of_idle ?_ htrade hmanaged htracks.positive hheld h.exits
    unfold outstanding
    simp only [hquiet.exitCall]
  · rw [he]
    exact tracked_settleLiveExit h hquiet hpending htrade _

private theorem tracked_trail [DecimalContext] {config : HandlerConfig} {mid : ℚ} {s : HandlerState}
    (h : s.Tracked) : (s.trail config mid).Tracked := by
  refine ⟨?_, h.exits⟩
  intro trade htrade
  obtain ⟨before, hbefore, rfl⟩ := Option.map_eq_some_iff.mp htrade
  obtain ⟨contract, hmanaged, htracks⟩ := h.trade before hbefore
  obtain ⟨hquantity, -⟩ := config.exitManager.updateTrailing_frame before mid
  refine ⟨contract, hmanaged, ?_, ?_, ?_⟩
  · rw [hquantity]
    exact htracks.positive
  · rw [hquantity]
    exact htracks.idle
  · rw [hquantity]
    exact htracks.exiting

private theorem tracked_tryExitStep [DecimalContext] {config : HandlerConfig} {time : ExchangeTime}
    {quote : QuoteInputs} {s : HandlerState} (h : s.Tracked) (hquiet : s.Quiet)
    (hsees : HandlerOp.SeesPosition config (.tryExit time quote) s) :
    (s.tryExitStep config time quote).1.Tracked := by
  rcases s.tryExitStep_cases config time quote with ⟨he, -⟩ |
    ⟨trade, htrade, decision, pos, hthrough, hpending, he⟩
  · rwa [he]
  · obtain ⟨contract, hmanaged, htracks⟩ := h.trade trade htrade
    have hsame : s.managed = some pos.contract := hsees pos hthrough
    obtain rfl : contract = pos.contract := Option.some.inj (hmanaged.symm.trans hsame)
    have hout := hquiet.outstanding_eq.trans hpending
    have hheld := htracks.idle hout
    have hmax : max 1 trade.quantity = trade.quantity := max_eq_right htracks.positive
    rw [he]
    refine ⟨?_, ?_⟩
    · intro other hother
      obtain rfl : other = trade := Option.mem_unique hother htrade
      refine ⟨pos.contract, hmanaged, htracks.positive, (fun hnone ↦ nomatch hnone), ?_⟩
      intro exit hexit
      obtain rfl := Option.some.inj hexit
      change _ ∧ WholeContracts (s.held _) ∧ 0 ≤ s.held _ ∧ s.held _ ≤ _
      rw [hheld]
      refine ⟨rfl, ?_, ?_, le_refl _⟩
      · unfold WholeContracts
        rw [pyInt_intCast]
      · have := htracks.positive
        exact_mod_cast (by omega : 0 ≤ other.quantity)
    · intro r hr
      rcases List.mem_append.mp hr with hr | hr
      · exact h.exits r hr
      · obtain rfl := List.mem_singleton.mp hr
        refine ⟨rfl, hsame, ?_⟩
        change ((max 1 trade.quantity : ℤ) : ℚ) = s.held (contractIdFor pos.contract)
        rw [hmax]
        exact hheld.symm

private theorem tracked_answerExit [DecimalContext] {config : HandlerConfig}
    {order : Except PyException BrokerOrder} {s : HandlerState} (h : s.Tracked)
    (hexiting : s.Exiting) (hsees : HandlerOp.SeesPosition config (.answerExit order) s) :
    (s.answerExit order).1.Tracked := by
  obtain ⟨trade, htrade⟩ := Option.isSome_iff_exists.mp hexiting.openTrade
  obtain ⟨contract, hmanaged, htracks⟩ := h.trade trade htrade
  have hout (call : ExitCall) (hcall : call ∈ s.exitCall) : s.outstanding = some call.pending := by
    unfold outstanding
    rw [hcall]
  rcases s.answerExit_cases order with ⟨hrefused, he⟩ | ⟨call, hcall, id, he⟩
  · rw [he]
    refine tracked_of_idle hexiting.pendingExit htrade hmanaged htracks.positive ?_ h.exits
    cases hcall : s.exitCall with
    | none =>
      apply htracks.idle
      unfold outstanding
      rw [hcall]
      exact hexiting.pendingExit
    | some call =>
      have hheld := hsees (hrefused call hcall) call hcall trade htrade
      rwa [(htracks.exiting call.pending (hout call hcall)).1] at hheld
  · obtain ⟨hid, hwhole⟩ := htracks.exiting call.pending (hout call hcall)
    rw [he]
    refine ⟨?_, h.exits⟩
    intro again hagain
    obtain rfl : again = trade := Option.mem_unique hagain htrade
    refine ⟨contract, hmanaged, htracks.positive, (fun hnone ↦ nomatch hnone), ?_⟩
    intro exit hexit
    obtain rfl := Option.some.inj hexit
    exact ⟨hid, hwhole⟩

private theorem tracked_attemptEntryStep [DecimalContext] {config : HandlerConfig}
    {entry : EntryInputs}
    {s : HandlerState} (h : s.Tracked) : (s.attemptEntryStep config entry).1.Tracked := by
  apply tracked_of_part h
  have hout := s.outcome_attemptEntryStep config entry
  generalize s.attemptEntryStep config entry = out at hout ⊢
  cases hout with
  | declined engine setups => rfl
  | handed candidate notionalUsd engine htrade hpending hbudget => rfl
  | reserved candidate notionalUsd engine budget after quantity => rfl

private theorem tracked_answerEntry [DecimalContext] {order : Except PyException BrokerOrder}
    {s : HandlerState} (h : s.Tracked) : (s.answerEntry order).1.Tracked := by
  apply tracked_of_part h
  rcases s.answerEntry_cases order with ⟨-, he⟩ | ⟨_, _, _, _, he⟩ | ⟨_, _, _, _, he | he⟩
  · rw [he]
  · rw [he]
    rfl
  · rw [he]
    rfl
  · rw [he]
    split <;> rfl

/-- Stretches that see the position keep it tracked. -/
theorem keptBy_tracked [DecimalContext] (config : HandlerConfig) :
    KeptBy config (HandlerOp.SeesPosition config) Tracked := by
  intro op s hsees h hentered
  cases op with
  | lookEntry | lookExit | lookSignal _ => exact h
  | noteSetup setup => exact tracked_of_part h rfl
  | settleEntry time poll => exact tracked_settlePendingEntry h hentered hsees
  | settleExit poll => exact tracked_settlePendingExit h hentered hsees
  | trail mid => exact tracked_trail h
  | tryExit time quote => exact tracked_tryExitStep h hentered hsees
  | answerExit order => exact tracked_answerExit h hentered hsees
  | attemptEntry entry => exact tracked_attemptEntryStep h
  | answerEntry order => exact tracked_answerEntry h

end HandlerState

/-! ### Runs -/

section Runs

variable {config : HandlerConfig} {sessionId : String} {budget : Option CapitalBudget}

/-- In a run of a new handler whose stretches see the managed position, and in which nothing else
moves it, every exit order sells the managed contract in the quantity that the ledger held of it
when the order was handed over. -/
theorem sellsManaged_of_stepsMeet [DecimalContext] (calls : List HandlerCall)
    {xs : List (ThreadAction (List LedgerEvent))} (h : StepsMeet (Thread.step HandlerState.record)
      (Thread.Meets (HandlerOp.SeesPosition config) SparesPosition)
      ⟨HandlerState.new sessionId budget, handlerThread config calls⟩ xs) :
    ∀ pre, pre <+: xs →
      ∀ r ∈ (runHandler config (HandlerState.new sessionId budget) calls pre).shared.exits,
        r.SellsManaged := by
  have htracked : (HandlerState.new sessionId budget).Tracked := by
    apply HandlerState.tracked_of_flat rfl
    exact fun _ hnone ↦ (List.not_mem_nil hnone).elim
  intro pre hp
  exact (invariant_of_keptBy (HandlerState.keptBy_tracked config)
    (fun _ _ hspares hs ↦ HandlerState.tracked_record hs hspares) HandlerState.quiet_new htracked
    calls h hp).1.exits

end Runs

/-! ### An exit in two parts -/

namespace HandlerSample

/-- An entry of two contracts, and three ticks. -/
def calls : List HandlerCall :=
  [.attemptEntry time (entry "b" 2), .handleEvent (tick none), .handleEvent (stopped "x" 2),
    .handleEvent (stopped "y" 1)]

/-- The entry is filled, and half of its position is sold before it is sold out. -/
def soldInParts : List (ThreadAction (List LedgerEvent)) :=
  recordAfter 1 ordered ++ recordAfter 4 bought ++ recordAfter 8 halfSold ++
    List.replicate 8 .resume

/-- One of two contracts is bought. -/
def firstBought : List LedgerEvent :=
  [⟨row "3" .partialFill "b" .buy 1 (some (3 / 2)), valid_firstBuy⟩]

/-- The other one is bought, too. -/
def secondBought : List LedgerEvent :=
  [⟨row "4" .finalFill "b" .buy 1 (some (3 / 2)), by decide +kernel⟩]

/-- One of two contracts is bought before the entry is promoted, the other one after it. -/
def boughtInParts : List (ThreadAction (List LedgerEvent)) :=
  recordAfter 1 ordered ++ recordAfter 4 firstBought ++ recordAfter 4 secondBought ++
    List.replicate 4 .resume

end HandlerSample

section Samples

open HandlerSample
open scoped DefaultContext

/-- Two exits sell what is held, two contracts and then one. -/
theorem sellsManaged_soldInParts :
    (runHandler config (HandlerState.new "s" (some budget)) calls
        soldInParts).shared.exits.map (fun r ↦ r.intent.quantity) = [2, 1] ∧
      ∀ r ∈ (runHandler config (HandlerState.new "s" (some budget)) calls
        soldInParts).shared.exits, r.SellsManaged :=
  ⟨by decide +kernel, sellsManaged_of_stepsMeet calls (by decide +kernel)
    soldInParts (List.prefix_refl _)⟩

/-- An entry that is promoted when it is filled in part, and filled up then, is sold in part. -/
theorem not_sellsManaged_boughtInParts :
    ¬ ∀ pre, pre <+: boughtInParts →
      ∀ r ∈ (runHandler config (HandlerState.new "s" (some budget)) calls pre).shared.exits,
        r.SellsManaged := by
  intro h
  exact absurd (h boughtInParts (List.prefix_refl _)) (by decide +kernel)

end Samples

end Joker.Runtime
