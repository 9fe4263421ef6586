import Joker.Runtime.HandlerSteps

/-!
# Stages of the handler

Library `Runtime`. The state machine of the engine and the fields of `MarketEventHandler` keep in
step in every run: the engine is in `OPEN_POSITION` exactly while an entry order is pending, and in
`MANAGING_EXIT` exactly while a trade is open. So there is one trade at a time, an entry is handed
over only when there is none, and the intermediate states of an exit never stay.
-/

namespace Joker.Runtime

open Joker.Base Joker.Ledger Joker.Broker Joker.Risk Joker.Execution

/-- Which of a pending entry, an open trade and an entry order with the bridge a state of the
engine goes with. An entry that fails may leave the engine in `RISK_CHECK` or `ENTERING`. -/
def TradingState.goesWith : TradingState → Bool → Bool → Bool → Bool
  | .watching, false, false, false => true
  | .riskCheck, false, false, false => true
  | .entering, false, false, _ => true
  | .openPosition, true, false, false => true
  | .managingExit, false, true, false => true
  | _, _, _, _ => false

namespace HandlerState

/-- The engine's state goes with what the handler holds. -/
def InStep (s : HandlerState) : Prop :=
  s.engine.goesWith s.pendingEntry.isSome s.openTrade.isSome s.entryCall.isSome = true

variable {s : HandlerState}

/-- A pending entry is an open position, and nothing else. -/
theorem InStep.of_pendingEntry (h : s.InStep) (hentry : s.pendingEntry.isSome = true) :
    s.engine = .openPosition ∧ s.openTrade.isSome = false ∧ s.entryCall.isSome = false := by
  unfold InStep at h
  rw [hentry] at h
  revert h
  cases s.engine <;> cases s.openTrade.isSome <;> cases s.entryCall.isSome <;> decide

/-- An open trade is managed, and nothing else. -/
theorem InStep.of_openTrade (h : s.InStep) (htrade : s.openTrade.isSome = true) :
    s.engine = .managingExit ∧ s.pendingEntry.isSome = false ∧ s.entryCall.isSome = false := by
  unfold InStep at h
  rw [htrade] at h
  revert h
  cases s.engine <;> cases s.pendingEntry.isSome <;> cases s.entryCall.isSome <;> decide

/-- An entry with the bridge is being entered, and nothing else. -/
theorem InStep.of_entryCall (h : s.InStep) (hcall : s.entryCall.isSome = true) :
    s.engine = .entering ∧ s.pendingEntry.isSome = false ∧ s.openTrade.isSome = false := by
  unfold InStep at h
  rw [hcall] at h
  revert h
  cases s.engine <;> cases s.pendingEntry.isSome <;> cases s.openTrade.isSome <;> decide

/-- The states that the engine stays in. -/
theorem InStep.engine_mem (h : s.InStep) : s.engine ∈
    [TradingState.watching, .riskCheck, .entering, .openPosition, .managingExit] := by
  unfold InStep at h
  revert h
  cases s.engine <;> cases s.pendingEntry.isSome <;> cases s.openTrade.isSome <;>
    cases s.entryCall.isSome <;> decide

private theorem InStep.congr {t : HandlerState} (h : s.InStep) (hengine : t.engine = s.engine)
    (hentry : t.pendingEntry = s.pendingEntry) (htrade : t.openTrade.isSome = s.openTrade.isSome)
    (hcall : t.entryCall = s.entryCall) : t.InStep := by
  unfold InStep
  rw [hengine, hentry, htrade, hcall]
  exact h

/-! ### What each stretch keeps -/

private theorem inStep_settlePendingEntry [DecimalContext] (time : ExchangeTime) (poll : OrderPoll)
    (h : s.InStep) :
    (s.settlePendingEntry time poll).1.InStep := by
  rcases s.settlePendingEntry_cases time poll with ⟨he, -⟩ | ⟨pending, hpoll, -, -, he⟩ |
    ⟨pending, hpoll, pos, avg, -, -, -, he⟩
  · rwa [he]
  · obtain ⟨htrade, hentry⟩ := entryToPoll_eq hpoll
    obtain ⟨hengine, -, hcall⟩ := h.of_pendingEntry (hentry ▸ rfl)
    rw [he]
    -- The engine is engaged, so it goes back to `WATCHING`.
    have hdropped : s.dropPendingEntry.engine = .watching ∧ s.dropPendingEntry.pendingEntry = none ∧
        s.dropPendingEntry.openTrade = s.openTrade ∧
        s.dropPendingEntry.entryCall = s.entryCall := by
      unfold dropPendingEntry releaseAllocation
      cases s.budget <;> cases s.pendingAllocation <;> simp [hengine, TradingState.engaged]
    obtain ⟨hwatching, hnone, htrade', hcall'⟩ := hdropped
    unfold InStep
    rw [hwatching, hnone, htrade', htrade, hcall', hcall]
    rfl
  · obtain ⟨htrade, hentry⟩ := entryToPoll_eq hpoll
    obtain ⟨hengine, -, hcall⟩ := h.of_pendingEntry (hentry ▸ rfl)
    rw [he]
    unfold promoteEntry attachOpenTrade InStep
    simp only [hengine, if_true, hcall]
    rfl

private theorem inStep_settlePendingExit [DecimalContext] (poll : OrderPoll) (h : s.InStep) :
    (s.settlePendingExit poll).InStep := by
  rcases s.settlePendingExit_cases poll with he | ⟨_, _, trade, htrade, -, -, he⟩ |
    ⟨exit, -, trade, htrade, -, -, he⟩
  · rwa [he]
  · rw [he]
    exact h.congr rfl rfl rfl rfl
  · have hsome := Option.isSome_of_mem htrade
    obtain ⟨hengine, hentry, hcall⟩ := h.of_openTrade hsome
    have hstays (remaining : ℚ) : ({ s with
        openTrade := some (noteRemaining trade remaining) } : HandlerState).InStep :=
      h.congr rfl rfl hsome.symm rfl
    rw [he]
    unfold settleLiveExit
    simp only
    split
    · exact hstays _
    · split
      · unfold finalizeExit InStep
        simp only [hengine, hentry, hcall]
        decide
      · split
        · exact (hstays _).congr rfl rfl rfl rfl
        · exact hstays _

private theorem inStep_tryExitStep [DecimalContext] (config : HandlerConfig) (time : ExchangeTime)
    (quote : QuoteInputs) (h : s.InStep) : (s.tryExitStep config time quote).1.InStep := by
  rcases s.tryExitStep_cases config time quote with ⟨he, -⟩ | ⟨_, _, _, _, _, _, he⟩
  · rwa [he]
  · rw [he]
    exact h.congr rfl rfl rfl rfl

private theorem inStep_answerExit (order : Except PyException BrokerOrder) (h : s.InStep) :
    (s.answerExit order).1.InStep := by
  rcases s.answerExit_cases order with ⟨-, he⟩ | ⟨_, _, _, he⟩ <;>
  · rw [he]
    exact h.congr rfl rfl rfl rfl

private theorem inStep_answerEntry (order : Except PyException BrokerOrder) (h : s.InStep)
    (hentering : s.Entering) : (s.answerEntry order).1.InStep := by
  have hnotTrade : s.openTrade.isSome = false := by
    rw [hentering.openTrade]
    rfl
  have hnotEntry : s.pendingEntry.isSome = false := by
    rw [hentering.pendingEntry]
    rfl
  rcases s.answerEntry_cases order with ⟨-, he⟩ | ⟨call, hcall, _, _, he⟩ |
    ⟨call, hcall, answer, _, he | he⟩
  · rwa [he]
  · obtain ⟨hengine, -, -⟩ := h.of_entryCall (Option.isSome_of_mem hcall)
    rw [he]
    unfold InStep
    simp only [hengine, hnotEntry, hnotTrade]
    rfl
  · rw [he]
    unfold InStep
    simp only [hnotTrade]
    rfl
  · rw [he]
    unfold InStep noteSetup releaseAllocation
    split <;>
    · simp only [hnotEntry, hnotTrade]
      rfl

private theorem inStep_idle {t : HandlerState} (htrade : t.openTrade = none)
    (hentry : t.pendingEntry = none) (hcall : t.entryCall = none)
    (hengine : t.engine ∈ [TradingState.watching, .riskCheck]) : t.InStep := by
  unfold InStep
  rw [htrade, hentry, hcall]
  revert hengine
  cases t.engine <;> decide

private theorem inStep_handEntry {t : HandlerState} (htrade : t.openTrade = none)
    (hentry : t.pendingEntry = none) (candidate : TradeCandidate) (setup : PlaybookSetup)
    (notionalUsd : ℚ) : (t.handEntry candidate setup notionalUsd).InStep := by
  unfold handEntry InStep
  simp only [htrade, hentry]
  rfl

private theorem inStep_evaluateAndHand {entry : EntryInputs} {candidate : TradeCandidate}
    {quantity : ℤ} {notionalUsd : ℚ} (htrade : s.openTrade = none) (hentry : s.pendingEntry = none)
    (hcall : s.entryCall = none) (hwatching : s.engine = .watching) :
    (s.evaluateAndHand entry candidate quantity notionalUsd).1.InStep := by
  have hchecked : s.engine.transitions [.signalDetected, .riskCheck] = (.riskCheck, .ok ()) := by
    rw [hwatching]
    rfl
  unfold evaluateAndHand
  rw [hchecked]
  simp only
  split
  · exact inStep_idle htrade hentry hcall (by simp)
  · exact inStep_idle htrade hentry hcall (by simp [noteSetup])
  · unfold reserveAndHand
    simp only
    split
    · exact inStep_handEntry htrade hentry _ _ _
    · split
      · exact inStep_idle htrade hentry hcall (by simp)
      · exact inStep_handEntry htrade hentry _ _ _

private theorem inStep_attemptEntryStep (config : HandlerConfig) (entry : EntryInputs)
    (h : s.InStep) : (s.attemptEntryStep config entry).1.InStep := by
  unfold attemptEntryStep
  split
  · exact h
  · next hidle =>
    simp only [not_or, Option.not_isSome_iff_eq_none] at hidle
    split
    · exact h
    · exact h
    · split
      · exact h
      · next hmay =>
        split
        · exact h
        · exact h
        · next selected _ =>
          have henter : s.engine.mayEnter = true := by
            rw [Bool.not_eq_false] at hmay
            unfold mayAttempt at hmay
            exact (Bool.and_eq_true_iff.mp hmay).2
          have hwatching : s.engine = .watching ∧ s.entryCall = none := by
            have hmem := h.engine_mem
            cases hcall : s.entryCall with
            | none =>
              revert hmem henter
              cases s.engine <;> decide
            | some call =>
              obtain ⟨hentering, -, -⟩ := h.of_entryCall (Option.isSome_of_mem hcall)
              rw [hentering] at henter
              exact absurd henter (by decide)
          unfold sizeAndHand
          simp only
          split
          · exact h
          · split
            · exact h
            · split
              · split
                · exact h
                · exact h.congr rfl rfl rfl rfl
              · exact inStep_evaluateAndHand hidle.1 hidle.2 hwatching.2 hwatching.1

end HandlerState

private theorem keptBy_inStep [DecimalContext] (config : HandlerConfig) :
    KeptBy config (fun _ _ ↦ True) HandlerState.InStep := by
  intro op s _ hs hentered
  cases op with
  | lookEntry | lookExit | lookSignal _ => exact hs
  | settleEntry time poll => exact HandlerState.inStep_settlePendingEntry time poll hs
  | settleExit poll => exact HandlerState.inStep_settlePendingExit poll hs
  | trail mid => exact hs.congr rfl rfl (Option.isSome_map ..) rfl
  | tryExit time quote => exact HandlerState.inStep_tryExitStep config time quote hs
  | answerExit order => exact HandlerState.inStep_answerExit order hs
  | attemptEntry entry => exact HandlerState.inStep_attemptEntryStep config entry hs
  | answerEntry order => exact HandlerState.inStep_answerEntry order hs hentered
  | noteSetup setup => exact hs.congr rfl rfl rfl rfl

/-! ### Runs -/

/-- In every state of every run of a new handler, whatever the calls, the answers of the broker
and the rows recorded meanwhile: the engine is in `OPEN_POSITION` exactly while an entry is
pending and in `MANAGING_EXIT` exactly while a trade is open, so never both; an entry order that
is with the bridge finds the engine in `ENTERING`; an exit order is out only for an open trade;
and between two calls of the bridge the engine rests in one of five states, never in `EXITED` or
`COOLDOWN`. -/
theorem engine_in_step [DecimalContext] (config : HandlerConfig) (sessionId : String)
    (budget : Option CapitalBudget) (calls : List HandlerCall)
    (xs : List (ThreadAction (List LedgerEvent))) :
    let s := (runHandler config (HandlerState.new sessionId budget) calls xs).shared
    (s.engine = .openPosition ↔ s.pendingEntry.isSome = true) ∧
      (s.engine = .managingExit ↔ s.openTrade.isSome = true) ∧
      (s.entryCall.isSome = true → s.engine = .entering) ∧
      (s.outstanding.isSome = true → s.openTrade.isSome = true) ∧
      s.engine ∈ [TradingState.watching, .riskCheck, .entering, .openPosition, .managingExit] := by
  have hmeet := @stepsMeet_of_forall _ _ (Thread.step HandlerState.record)
    (Thread.Meets (fun _ _ ↦ True) (fun _ _ ↦ True)) (by
      intro t a
      cases a with
      | resume => exact fun _ _ ↦ trivial
      | env rows => trivial) ⟨HandlerState.new sessionId budget, handlerThread config calls⟩ xs
  obtain ⟨hstep, houtstanding⟩ := invariant_of_keptBy (keptBy_inStep config)
    (fun _ _ _ hs ↦ hs.congr rfl rfl rfl rfl) HandlerState.quiet_new
    (by unfold HandlerState.InStep; rfl) calls hmeet (List.prefix_refl xs)
  generalize (runHandler config (HandlerState.new sessionId budget) calls xs).shared = s
    at hstep houtstanding
  refine ⟨⟨?_, fun hentry ↦ (hstep.of_pendingEntry hentry).1⟩,
    ⟨?_, fun htrade ↦ (hstep.of_openTrade htrade).1⟩, fun hcall ↦ (hstep.of_entryCall hcall).1,
    ?_, hstep.engine_mem⟩
  · intro hengine
    unfold HandlerState.InStep at hstep
    rw [hengine] at hstep
    revert hstep
    cases s.pendingEntry.isSome <;> cases s.openTrade.isSome <;> cases s.entryCall.isSome <;> decide
  · intro hengine
    unfold HandlerState.InStep at hstep
    rw [hengine] at hstep
    revert hstep
    cases s.pendingEntry.isSome <;> cases s.openTrade.isSome <;> cases s.entryCall.isSome <;> decide
  · intro hout
    by_contra hclosed
    rw [Option.not_isSome_iff_eq_none] at hclosed
    rw [houtstanding hclosed] at hout
    cases hout

end Joker.Runtime
