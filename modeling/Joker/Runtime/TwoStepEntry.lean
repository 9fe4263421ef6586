import Joker.Runtime.DecisionLoop
import Mathlib.Tactic.Linarith

/-!
# Two-step entries

Library `Runtime`. What holds over a whole run of the decision loop when an entry must be proposed
first. The log is the history: a proposal stands in it when no later line replaced, expired,
abandoned or entered it, and the pending proposal is the one that stands.
-/

namespace Joker.Runtime

open Joker.Base Joker.Broker Joker.Risk Joker.Agents
open Joker.Risk.Governor (Direction)

/-! ### Standing proposals -/

namespace LoopEvent

/-- What a line says about the pending proposal: a new one, or none any more. -/
def write : LoopEvent → Option (Option PendingProposal)
  | .propose _ pending _ => some (some pending)
  | .proposeExpired _ | .proposeAbandoned | .confirmExecuted _ => some none
  | .confirmRejected reason => if isExpiry reason then some none else none
  | .prefilterSkip | .decision _ | .execute _ | .decisionFailed _ => none

/-- A line about an answer of the agent. -/
def isDecision : LoopEvent → Bool
  | .decision _ => true
  | _ => false

/-- A line about an entry. -/
def isExecuted : LoopEvent → Bool
  | .confirmExecuted _ => true
  | _ => false

/-- Only a `propose` line has a proposal. -/
theorem eq_propose_of_write {e : LoopEvent} {pending : PendingProposal}
    (h : e.write = some (some pending)) :
    ∃ mono downgraded, e = .propose mono pending downgraded := by
  cases e with
  | propose mono p downgraded =>
    rw [← Option.some.inj (Option.some.inj h)]
    exact ⟨mono, downgraded, rfl⟩
  | confirmRejected reason =>
    simp only [write] at h
    split at h <;> cases h
  | _ => cases h

end LoopEvent

/-- The proposal was logged at a time of the clock, and no later line ended or replaced it. -/
def Standing (log : List LoopEvent) (mono : ℚ) (pending : PendingProposal) : Prop :=
  ∃ before downgraded since, log = before ++ .propose mono pending downgraded :: since ∧
    ∀ e ∈ since, e.write = none

/-- What makes an attempt a confirmation of a proposal that was logged at a time of the clock. The
order follows the setup's direction; a setup that the proposal's id names may have another than the
proposal. -/
structure Confirms (env : LoopEnv) (mono : ℚ) (pending : PendingProposal)
    (attempt : EntryAttempt) : Prop where
  flat : attempt.tick.openTrade = false ∧ attempt.tick.pendingEntry = false
  waited : env.settings.fastConfirmMin ≤ attempt.tick.mono - mono
  fresh : Fresh env.math env.settings.confirm pending attempt.spyPrice attempt.tick.context
    attempt.tick.decidedAt
  direction : attempt.decision.direction = some pending.direction
  setupId : attempt.decision.setupId = pending.setupId
  stopPct : attempt.decision.stopPct = pending.stopPct
  takeProfitPct : attempt.decision.takeProfitPct = pending.takeProfitPct
  setup : some attempt.setup.setupId = pending.setupId ∨
    attempt.setup.direction = pending.direction
  valuable : ∃ value ∈ attempt.decision.expectedValueUsd, 0 < value
  likely : ∃ win ∈ attempt.decision.winProbability, env.minWinProbability ≤ win.val
  confident : env.settings.minProposalConfidence ≤ attempt.decision.confidence.val

/-- What a line asks of the lines before it: an attempt confirms a standing proposal, when the
clock runs forward, and an entry was still pending. -/
def Justified (env : LoopEnv) (forward : Prop) (before : List LoopEvent) : LoopEvent → Prop
  | .execute attempt =>
    ∃ mono pending, Standing before mono pending ∧ (forward → Confirms env mono pending attempt)
  | .confirmExecuted _ => (register LoopEvent.write before).isSome = true
  | _ => True

/-- Justified by less, justified. -/
theorem Justified.imp {env : LoopEnv} {forward forward' : Prop} (himp : forward' → forward)
    (before : List LoopEvent) (e : LoopEvent) (h : Justified env forward before e) :
    Justified env forward' before e := by
  cases e with
  | execute attempt =>
    obtain ⟨mono, pending, hstanding, hconfirms⟩ := h
    exact ⟨mono, pending, hstanding, fun hforward ↦ hconfirms (himp hforward)⟩
  | confirmExecuted decision => exact h
  | _ => trivial

/-- The register holds the proposal that stands. -/
theorem standing_of_register {log : List LoopEvent} {pending : PendingProposal}
    (h : register LoopEvent.write log = some pending) : ∃ mono, Standing log mono pending := by
  obtain ⟨before, e, since, hlog, hwrite, hidle⟩ := (register_eq_some_iff _ _ _).mp h
  obtain ⟨mono, downgraded, rfl⟩ := LoopEvent.eq_propose_of_write hwrite
  exact ⟨mono, before, downgraded, since, hlog, hidle⟩

/-- A standing proposal was logged. -/
theorem Standing.mem {log : List LoopEvent} {mono : ℚ} {pending : PendingProposal}
    (h : Standing log mono pending) : ∃ downgraded, .propose mono pending downgraded ∈ log := by
  obtain ⟨before, downgraded, since, rfl, -⟩ := h
  exact ⟨downgraded, by simp⟩

/-! ### The invariant -/

/-- The invariant of the loop with the clock's readings so far, when proposals come first. -/
structure LoopKept (env : LoopEnv) (times : List ℚ) (s : LoopState) : Prop where
  pending : s.pending = register LoopEvent.write s.log
  edge : ∀ pending ∈ s.pending, pending.StatesEdge
  seen : ∀ mono pending downgraded, .propose mono pending downgraded ∈ s.log → mono ∈ times
  paced : times.Pairwise (· ≤ ·) → ∀ mono pending downgraded,
    .propose mono pending downgraded ∈ s.log → mono ≤ s.lastDecisionAt
  calls : s.decisionCalls = s.log.countP LoopEvent.isDecision
  callLimit : s.decisionCalls ≤ max 0 env.settings.maxDecisionCalls
  acted : s.proposalsActed = s.log.countP LoopEvent.isExecuted
  actedLimit : s.proposalsActed ≤ max 0 env.settings.maxProposalsPerSession
  justified : Guarded (Justified env (times.Pairwise (· ≤ ·))) s.log

private theorem kept_start (env : LoopEnv) : LoopKept env [] LoopState.start where
  pending := rfl
  edge := fun _ h ↦ by cases h
  seen := fun _ _ _ h ↦ by cases h
  paced := fun _ _ _ _ h ↦ by cases h
  calls := rfl
  callLimit := le_max_left _ _
  acted := rfl
  actedLimit := le_max_left _ _
  justified := guarded_nil _

/-- The clock is read once more. -/
theorem LoopKept.tick {env : LoopEnv} {times : List ℚ} {s : LoopState} (h : LoopKept env times s)
    (now : ℚ) : LoopKept env (times ++ [now]) s where
  pending := h.pending
  edge := h.edge
  seen := fun mono pending downgraded hmem ↦
    List.mem_append_left _ (h.seen mono pending downgraded hmem)
  paced := fun hforward ↦ h.paced (List.pairwise_append.mp hforward).1
  calls := h.calls
  callLimit := h.callLimit
  acted := h.acted
  actedLimit := h.actedLimit
  justified := h.justified.imp
    (Justified.imp (fun hforward ↦ (List.pairwise_append.mp hforward).1))

/-- The agent's turn has come at the last reading. -/
theorem LoopKept.asked {env : LoopEnv} {times : List ℚ} {s : LoopState} {now : ℚ}
    (h : LoopKept env (times ++ [now]) s)
    (hseen : ∀ mono pending downgraded, .propose mono pending downgraded ∈ s.log → mono ∈ times) :
    LoopKept env (times ++ [now]) { s with lastDecisionAt := now } where
  pending := h.pending
  edge := h.edge
  seen := h.seen
  paced := by
    intro hforward mono pending downgraded hmem
    have hbefore := (List.pairwise_append.mp hforward).2.2
    exact hbefore mono (hseen mono pending downgraded hmem) now (List.mem_singleton.mpr rfl)
  calls := h.calls
  callLimit := h.callLimit
  acted := h.acted
  actedLimit := h.actedLimit
  justified := h.justified

/-- One more line, with what the state has to do for it. -/
theorem LoopKept.snoc {env : LoopEnv} {times : List ℚ} {s s' : LoopState} (h : LoopKept env times s)
    (e : LoopEvent) (hlog : s'.log = s.log ++ [e]) (hlast : s'.lastDecisionAt = s.lastDecisionAt)
    (hpending : s'.pending = e.write.getD s.pending)
    (hedge : ∀ pending, e.write = some (some pending) → pending.StatesEdge)
    (hseen : ∀ mono pending downgraded, e = .propose mono pending downgraded →
      mono ∈ times ∧ mono ≤ s.lastDecisionAt)
    (hcalls : s'.decisionCalls = if e.isDecision then s.decisionCalls + 1 else s.decisionCalls)
    (hcallLimit : e.isDecision = true → s.decisionCalls < env.settings.maxDecisionCalls)
    (hacted : s'.proposalsActed =
      if e.isExecuted then s.proposalsActed + 1 else s.proposalsActed)
    (hactedLimit : e.isExecuted = true →
      s.proposalsActed < env.settings.maxProposalsPerSession)
    (hjustified : Justified env (times.Pairwise (· ≤ ·)) s.log e) : LoopKept env times s' where
  pending := by rw [hpending, hlog, register_snoc, h.pending]
  edge := by
    intro pending hmem
    rw [hpending] at hmem
    cases hwrite : e.write with
    | none =>
      rw [hwrite] at hmem
      exact h.edge pending hmem
    | some held =>
      rw [hwrite] at hmem
      apply hedge
      rw [hwrite, ← Option.mem_def.mp hmem]
      rfl
  seen := by
    intro mono pending downgraded hmem
    rw [hlog] at hmem
    rcases List.mem_append.mp hmem with hold | hnew
    · exact h.seen mono pending downgraded hold
    · exact (hseen mono pending downgraded (List.mem_singleton.mp hnew).symm).1
  paced := by
    intro hforward mono pending downgraded hmem
    rw [hlog] at hmem
    rw [hlast]
    rcases List.mem_append.mp hmem with hold | hnew
    · exact h.paced hforward mono pending downgraded hold
    · exact (hseen mono pending downgraded (List.mem_singleton.mp hnew).symm).2
  calls := by
    rw [hcalls, hlog, List.countP_append, List.countP_singleton, h.calls]
    split <;> simp
  callLimit := by
    rw [hcalls]
    have hold := h.callLimit
    split
    · next hdecision =>
      have hroom := hcallLimit hdecision
      exact le_max_of_le_right hroom
    · exact hold
  acted := by
    rw [hacted, hlog, List.countP_append, List.countP_singleton, h.acted]
    split <;> simp
  actedLimit := by
    rw [hacted]
    have hold := h.actedLimit
    split
    · next hexecuted =>
      have hroom := hactedLimit hexecuted
      exact le_max_of_le_right hroom
    · exact hold
  justified := by
    rw [hlog]
    exact h.justified.snoc hjustified

namespace LoopEvent

/-- Lines that ask for nothing: of no proposal, answer or entry. -/
def isPlain : LoopEvent → Bool
  | .propose _ _ _ | .decision _ | .execute _ | .confirmExecuted _ => false
  | _ => true

private theorem not_counted_of_plain {e : LoopEvent} (h : e.isPlain = true) :
    e.isDecision = false ∧ e.isExecuted = false := by
  cases e with
  | decision d => cases h
  | confirmExecuted d => cases h
  | _ => exact ⟨rfl, rfl⟩

end LoopEvent

/-- A plain line. -/
theorem LoopKept.plain {env : LoopEnv} {times : List ℚ} {s : LoopState} (h : LoopKept env times s)
    (e : LoopEvent) (hplain : e.isPlain = true) (held : Option PendingProposal)
    (hheld : held = e.write.getD s.pending) :
    LoopKept env times { s with pending := held, log := s.log ++ [e] } := by
  obtain ⟨hdecision, hexecuted⟩ := LoopEvent.not_counted_of_plain hplain
  have hjustified : Justified env (times.Pairwise (· ≤ ·)) s.log e := by
    cases e with
    | execute attempt => cases hplain
    | confirmExecuted decision => cases hplain
    | _ => trivial
  apply @LoopKept.snoc env times s { s with pending := held, log := s.log ++ [e] } h e rfl rfl hheld
  · intro pending hwrite
    obtain ⟨mono, downgraded, rfl⟩ := LoopEvent.eq_propose_of_write hwrite
    cases hplain
  · rintro mono pending downgraded rfl
    cases hplain
  · rw [hdecision]
    rfl
  · intro h'
    rw [hdecision] at h'
    cases h'
  · rw [hexecuted]
    rfl
  · intro h'
    rw [hexecuted] at h'
    cases h'
  · exact hjustified

/-! ### One turn -/

/-- What one part of a turn needs of the state: the invariant, and a wait since any proposal while
one is pending. -/
structure InTurn (env : LoopEnv) (times : List ℚ) (tick : LoopTick) (s : LoopState) : Prop where
  kept : LoopKept env times s
  now : tick.mono ∈ times
  last : s.lastDecisionAt = tick.mono
  flat : tick.openTrade = false ∧ tick.pendingEntry = false
  room : s.proposalsActed < env.settings.maxProposalsPerSession
  waited : times.Pairwise (· ≤ ·) → s.pending.isSome = true →
    ∀ mono pending downgraded, .propose mono pending downgraded ∈ s.log →
      env.settings.fastConfirmMin ≤ tick.mono - mono

section

variable {env : LoopEnv} {times : List ℚ} {tick : LoopTick} {s : LoopState}

/-- A plain line that no proposal comes back with. -/
theorem InTurn.plain (h : InTurn env times tick s) (e : LoopEvent) (hplain : e.isPlain = true)
    (held : Option PendingProposal) (hheld : held = e.write.getD s.pending)
    (hkeeps : held.isSome = true → s.pending.isSome = true) :
    InTurn env times tick { s with pending := held, log := s.log ++ [e] } where
  kept := h.kept.plain e hplain held hheld
  now := h.now
  last := h.last
  flat := h.flat
  room := h.room
  waited := by
    intro hforward hsome mono pending downgraded hmem
    rcases List.mem_append.mp hmem with hold | hnew
    · exact h.waited hforward (hkeeps hsome) mono pending downgraded hold
    · rw [← List.mem_singleton.mp hnew] at hplain
      cases hplain

/-- The stale proposal expires. -/
theorem InTurn.expireStale (h : InTurn env times tick s) (spyPrice : ℚ) :
    InTurn env times tick (s.expireStale env tick spyPrice) := by
  unfold LoopState.expireStale
  split
  · exact h
  · simp only
    split
    · apply h.plain _ rfl none rfl
      intro hnone
      cases hnone
    · exact h

/-- What the agent decides states its edge. -/
theorem statesEdge_agentDecision (h : ∀ pending ∈ s.pending, pending.StatesEdge)
    {decision : IntradayDecision} (hdecision : s.agentDecision env tick = .ok decision)
    (haction : decision.action ∈ entryActions) : decision.StatesEdge := by
  unfold LoopState.agentDecision at hdecision
  split at hdecision
  · rw [← Except.ok.inj hdecision] at haction ⊢
    exact statesEdge_mockDecision h haction
  · cases hanswer : tick.answer with
    | error e =>
      rw [hanswer] at hdecision
      cases hdecision
    | ok out =>
      rw [hanswer] at hdecision
      exact statesEdge_completeDecision hdecision haction

/-- A proposal is kept. -/
theorem InTurn.keepProposal (h : InTurn env times tick s) (spyPrice : ℚ)
    {decision : IntradayDecision} (hedge : decision.StatesEdge) (downgraded : Bool) :
    LoopKept env times (s.keepProposal tick spyPrice decision downgraded) := by
  unfold LoopState.keepProposal
  split
  · exact h.kept
  · next direction _ =>
    simp only
    apply h.kept.snoc (.propose tick.mono
      (pendingFromDecision decision direction spyPrice tick.context tick.decidedAt) downgraded)
    · rfl
    · rfl
    · rfl
    · intro pending hpending
      rw [← Option.some.inj (Option.some.inj hpending)]
      exact statesEdge_pendingFromDecision hedge _ _ _ _
    · rintro mono pending downgraded' heq
      injection heq with hmono
      rw [← hmono]
      exact ⟨h.now, le_of_eq h.last.symm⟩
    · rfl
    · intro hdecision
      cases hdecision
    · rfl
    · intro hexecuted
      cases hexecuted
    · trivial

/-- The setup is the one that the decision names, or one in its direction. -/
theorem setupFor_names_or_agrees (playbook : Option (List PlaybookSetup))
    (decision : IntradayDecision) (direction : Direction) :
    some (setupFor playbook decision direction).setupId = decision.setupId ∨
      (setupFor playbook decision direction).direction = direction := by
  unfold setupFor
  simp only
  cases hnamed : (decision.setupId.filter (fun id ↦ decide (id ≠ ""))).bind
      (fun id ↦ (playbook.getD []).find? (fun setup ↦ setup.setupId = id)) with
  | some setup =>
    left
    obtain ⟨id, hid, hfind⟩ := Option.bind_eq_some_iff.mp hnamed
    have hname : setup.setupId = id := by simpa using List.find?_some hfind
    rw [(Option.filter_eq_some_iff.mp hid).1, ← hname]
    rfl
  | none =>
    right
    cases halike : (playbook.getD []).find?
        (fun setup ↦ setup.enabled && decide (setup.direction = direction)) with
    | none => rfl
    | some setup =>
      have hmatch := List.find?_some halike
      simp only [Bool.and_eq_true, decide_eq_true_eq] at hmatch
      exact hmatch.2

/-- What an attempt of `try_enter_from_decision` is made of. -/
theorem tryEnterFromDecision_eq_some {spyPrice : ℚ} {decision : IntradayDecision}
    {attempt : EntryAttempt} (h : tryEnterFromDecision env tick spyPrice decision = some attempt) :
    ∃ direction, decision.direction = some direction ∧
      env.settings.minProposalConfidence ≤ decision.confidence.val ∧
      attempt = ⟨tick, spyPrice, setupFor tick.playbook decision direction, decision⟩ := by
  unfold tryEnterFromDecision at h
  split at h
  · cases h
  · split at h
    · cases h
    · next direction hdirection =>
      split at h
      · cases h
      · next hconfident =>
        split at h
        · cases h
        · exact ⟨direction, hdirection, not_lt.mp hconfident, (Option.some.inj h).symm⟩

/-- What a confirmation takes from its proposal. -/
theorem confirmedDecision_terms (pending : PendingProposal) (decision : IntradayDecision) :
    (LoopState.confirmedDecision pending decision).direction = some pending.direction ∧
      (LoopState.confirmedDecision pending decision).setupId = pending.setupId ∧
      (LoopState.confirmedDecision pending decision).stopPct = pending.stopPct ∧
      (LoopState.confirmedDecision pending decision).takeProfitPct = pending.takeProfitPct ∧
      (LoopState.confirmedDecision pending decision).action = .confirm := by
  unfold LoopState.confirmedDecision
  simp only
  split <;> exact ⟨rfl, rfl, rfl, rfl, rfl⟩

/-- A confirmation states an edge where its proposal does. -/
theorem statesEdge_confirmedDecision {pending : PendingProposal} (h : pending.StatesEdge)
    (decision : IntradayDecision) :
    (LoopState.confirmedDecision pending decision).StatesEdge := by
  have hedge := statesEdge_decisionFromPending h
    (some (if decision.confidence.val = 0 then pending.confidence else decision.confidence))
    decision.capitalFraction decision.targetContracts (some decision.allocationStyle)
    decision.winProbability decision.expectedR decision.expectedValueUsd
  unfold LoopState.confirmedDecision
  simp only
  split <;> exact hedge

/-- An attempt that passed the gate and the veto confirms the pending proposal. -/
theorem InTurn.confirms (h : InTurn env times tick s) (hforward : times.Pairwise (· ≤ ·))
    {pending : PendingProposal} (hpending : s.pending = some pending) {mono : ℚ}
    (hstanding : Standing s.log mono pending) {spyPrice : ℚ} {decision : IntradayDecision}
    (hgate : (confirmGate env.math env.settings.confirm pending spyPrice tick.context
      tick.decidedAt).1 = true)
    (hveto : (evEntryAllowed env.math (LoopState.confirmedDecision pending decision)
      env.minWinProbability).1 = true)
    {attempt : EntryAttempt} (hattempt : tryEnterFromDecision env tick spyPrice
      (LoopState.confirmedDecision pending decision) = some attempt) :
    Confirms env mono pending attempt := by
  obtain ⟨hdirection, hsetupId, hstop, htarget, haction⟩ := confirmedDecision_terms pending decision
  have hedge := statesEdge_confirmedDecision (h.kept.edge pending hpending) decision
  have hentry : (LoopState.confirmedDecision pending decision).action ∈ entryActions := by
    rw [haction]
    decide
  obtain ⟨hvaluable, hlikely⟩ := evEntryAllowed_fst hentry hedge hveto
  obtain ⟨direction, hasked, hconfident, rfl⟩ := tryEnterFromDecision_eq_some hattempt
  have hsame : direction = pending.direction := Option.some.inj (hasked.symm.trans hdirection)
  obtain ⟨downgraded, hmem⟩ := hstanding.mem
  exact
    { flat := h.flat
      waited := h.waited hforward (by rw [hpending]; rfl) mono pending downgraded hmem
      fresh := confirmGate_fst hgate
      direction := hdirection
      setupId := hsetupId
      stopPct := hstop
      takeProfitPct := htarget
      setup := by
        have hsetup := setupFor_names_or_agrees tick.playbook
          (LoopState.confirmedDecision pending decision) direction
        rw [hsetupId] at hsetup
        rw [← hsame]
        exact hsetup
      valuable := hvaluable
      likely := hlikely
      confident := hconfident }

/-- An entry is attempted for the pending proposal. -/
theorem InTurn.afterAttempt (h : InTurn env times tick s) {pending : PendingProposal}
    (hpending : s.pending = some pending) (decision : IntradayDecision)
    (attempt : Option EntryAttempt)
    (hjustified : ∀ a ∈ attempt, Justified env (times.Pairwise (· ≤ ·)) s.log (.execute a)) :
    LoopKept env times (s.afterAttempt tick decision attempt) := by
  cases attempt with
  | none => exact h.kept
  | some attempt =>
    have hexecute : LoopKept env times (s.emit (.execute attempt)) := by
      apply h.kept.snoc (.execute attempt)
      · rfl
      · rfl
      · rfl
      · intro _ hwrite
        cases hwrite
      · intro _ _ _ heq
        cases heq
      · rfl
      · intro hdecision
        cases hdecision
      · rfl
      · intro hexecuted
        cases hexecuted
      · exact hjustified attempt rfl
    unfold LoopState.afterAttempt
    simp only
    split
    · next e _ => exact hexecute.plain (.decisionFailed e) rfl s.pending rfl
    · exact hexecute
    · apply hexecute.snoc (.confirmExecuted decision)
      · rfl
      · rfl
      · rfl
      · intro _ hwrite
        cases hwrite
      · intro _ _ _ heq
        cases heq
      · rfl
      · intro hdecision
        cases hdecision
      · rfl
      · intro _
        exact h.room
      · change (register LoopEvent.write (s.log ++ [.execute attempt])).isSome = true
        rw [register_snoc, ← h.kept.pending, hpending]
        rfl

/-- A pending proposal is confirmed. -/
theorem InTurn.confirmPending (h : InTurn env times tick s) {pending : PendingProposal}
    (hpending : s.pending = some pending) (spyPrice : ℚ) (decision : IntradayDecision) :
    LoopKept env times (s.confirmPending env tick spyPrice pending decision) := by
  unfold LoopState.confirmPending
  simp only
  split
  · -- rejected by the gate: only an expiry ends the proposal
    next hstale =>
    split
    · next hexpiry =>
      apply h.kept.plain (.confirmRejected _) rfl none
      simp only [LoopEvent.write, hexpiry, if_true, Option.getD_some]
    · next hother =>
      apply h.kept.plain (.confirmRejected _) rfl s.pending
      simp only [LoopEvent.write, hother, Bool.false_eq_true, if_false, Option.getD_none]
  · next hgate =>
    unfold LoopState.enterWith
    simp only
    split
    · apply h.kept.plain (.confirmRejected _) rfl s.pending
      simp only [LoopEvent.write, isExpiry_evEntryAllowed, Bool.false_eq_true, if_false,
        Option.getD_none]
    · next hveto =>
      obtain ⟨mono, hstanding⟩ := standing_of_register (h.kept.pending.symm.trans hpending)
      apply h.afterAttempt hpending
      intro attempt hattempt
      exact ⟨mono, pending, hstanding, fun hforward ↦ h.confirms hforward hpending hstanding
        (by simpa using hgate) (by simpa using hveto) hattempt⟩

/-- What the decision asks for is done. -/
theorem InTurn.act (hrequire : env.settings.requireProposeBeforeEnter = true)
    (h : InTurn env times tick s) (spyPrice : ℚ) {decision : IntradayDecision}
    (hedge : decision.action ∈ entryActions → decision.StatesEdge) :
    LoopKept env times (s.act env tick spyPrice decision) := by
  have hconfirm (hentry : decision.action ∈ entryActions) :
      LoopKept env times (s.confirm env tick spyPrice decision) := by
    unfold LoopState.confirm
    split
    · next pending hpending => exact h.confirmPending hpending spyPrice decision
    · rw [if_pos hrequire]
      split
      · exact h.keepProposal spyPrice (hedge hentry) true
      · exact h.kept.plain (.confirmRejected "no_pending_proposal") rfl s.pending rfl
  unfold LoopState.act
  cases haction : decision.action with
  | hold => exact h.kept
  | abandon => exact h.kept.plain .proposeAbandoned rfl none rfl
  | propose =>
    rw [haction] at hedge
    exact h.keepProposal spyPrice (hedge (by decide)) false
  | confirm =>
    rw [haction] at hconfirm
    exact hconfirm (by decide)
  | enter =>
    rw [haction] at hconfirm
    exact hconfirm (by decide)

/-- The agent is asked. -/
theorem InTurn.ask (hrequire : env.settings.requireProposeBeforeEnter = true)
    (h : InTurn env times tick s) (hcalls : s.decisionCalls < env.settings.maxDecisionCalls)
    (spyPrice : ℚ) : LoopKept env times (s.ask env tick spyPrice) := by
  unfold LoopState.ask
  cases hdecision : s.agentDecision env tick with
  | error e => exact h.kept.plain (.decisionFailed e) rfl s.pending rfl
  | ok decision =>
    have hanswered : InTurn env times tick
        ({ s with decisionCalls := s.decisionCalls + 1 }.emit (.decision decision)) :=
      { kept := by
          apply h.kept.snoc (.decision decision)
          · rfl
          · rfl
          · rfl
          · intro _ hwrite
            cases hwrite
          · intro _ _ _ heq
            cases heq
          · rfl
          · intro _
            exact hcalls
          · rfl
          · intro hexecuted
            cases hexecuted
          · trivial
        now := h.now
        last := h.last
        flat := h.flat
        room := h.room
        waited := by
          intro hforward hsome mono pending downgraded hmem
          rcases List.mem_append.mp hmem with hold | hnew
          · exact h.waited hforward hsome mono pending downgraded hold
          · cases List.mem_singleton.mp hnew }
    exact hanswered.act hrequire spyPrice
      (statesEdge_agentDecision h.kept.edge hdecision)

/-- An expiry is no answer. -/
theorem decisionCalls_expireStale (spyPrice : ℚ) :
    (s.expireStale env tick spyPrice).decisionCalls = s.decisionCalls := by
  unfold LoopState.expireStale
  split
  · rfl
  · simp only
    split <;> rfl

/-- The step lemma: a turn keeps the invariant. -/
theorem LoopKept.turn (hrequire : env.settings.requireProposeBeforeEnter = true)
    (h : LoopKept env times s) : LoopKept env (times ++ [tick.mono]) (s.turn env tick) := by
  have hticked := h.tick tick.mono
  unfold LoopState.turn
  split
  · next hdue =>
    split
    · exact hticked
    · next spyPrice _ =>
      simp only
      have hasked := hticked.asked h.seen
      split
      · exact hasked.plain .prefilterSkip rfl s.pending rfl
      · obtain ⟨-, -, hcalls, hroom, hinterval, hflat⟩ := hdue
        have hturn : InTurn env (times ++ [tick.mono]) tick
            { s with lastDecisionAt := tick.mono } :=
          { kept := hasked
            now := by simp
            last := rfl
            flat := hflat
            room := hroom
            waited := by
              intro hforward hsome mono pending downgraded hmem
              have hlast := h.paced (List.pairwise_append.mp hforward).1 mono pending downgraded
                hmem
              rw [if_pos hsome] at hinterval
              linarith }
        apply (hturn.expireStale spyPrice).ask hrequire
        rw [decisionCalls_expireStale]
        exact hcalls
  · exact hticked

/-- The run lemma. -/
theorem kept_run (hrequire : env.settings.requireProposeBeforeEnter = true)
    (ticks : List LoopTick) :
    LoopKept env (ticks.map LoopTick.mono) (run (LoopState.turn env) LoopState.start ticks) := by
  induction ticks using List.reverseRecOn with
  | nil => exact kept_start env
  | append_singleton ticks tick ih =>
    rw [run_snoc, List.map_append]
    exact ih.turn hrequire

end

namespace LoopState

/-! ### A session of two turns -/

/-- A session with the default settings and exact arithmetic. -/
def sampleEnv : LoopEnv where
  settings :=
    { intradayEnabled := true
      decisionIntervalSeconds := 45
      fastConfirmMinSeconds := 8
      maxDecisionCallsPerSession := 40
      maxProposalsPerSession := 3
      minProposalConfidence := 55 / 100
      requireProposeBeforeEnter := true
      useEdgePrefilter := true
      confirm := ⟨120, 2 / 10, 15⟩ }
  agentLed := true
  mockAgents := false
  minWinProbability := 45 / 100
  math := FloatMath.exact

/-- An answer about a call. -/
def sampleAnswer (action : DecisionAction) : IntradayDecision where
  action := action
  direction := some .longCall
  setupId := none
  confidence := ⟨6 / 10, by norm_num⟩
  rationale := "breakout"
  stopPct := ⟨4 / 10, by norm_num⟩
  takeProfitPct := ⟨9 / 10, by norm_num⟩
  summary := "breakout"
  capitalFraction := none
  targetContracts := none
  allocationStyle := .auto
  winProbability := some ⟨6 / 10, by norm_num⟩
  expectedR := some 2
  expectedValueUsd := some (8 / 10)

/-- A turn at a second of the sample minute. -/
def sampleTick (second : Fin 60) (action : DecisionAction) : LoopTick where
  mono := 50 + second.val
  openTrade := false
  pendingEntry := false
  spyPrice := some 630
  candidate := true
  context := ⟨some 2, some 2⟩
  askedAt := UtcTime.sample second
  answer := .ok (sampleAnswer action)
  detected := none
  decidedAt := UtcTime.sample second
  playbook := none
  quoted := true
  entered := .ok true

/-- A proposal and its confirmation ten seconds later. -/
def sampleTicks : List LoopTick := [sampleTick 0 .propose, sampleTick 10 .confirm]

/-- What the confirmation is made of. -/
def sampleConfirmed : IntradayDecision :=
  confirmedDecision (pendingFromDecision (sampleAnswer .propose) .longCall 630 ⟨some 2, some 2⟩
    (UtcTime.sample 0)) (sampleAnswer .confirm)

/-- The attempt of the second turn. -/
def sampleAttempt : EntryAttempt :=
  ⟨sampleTick 10 .confirm, 630, setupFor none sampleConfirmed .longCall, sampleConfirmed⟩

/-- The log of the two turns. -/
def sampleLog : List LoopEvent := (run (turn sampleEnv) start sampleTicks).log

/-! ### Main results -/

variable {env : LoopEnv}

/-- In a session that requires a proposal first, with a clock that runs forward, every entry that
is attempted confirms the proposal that stands: one made at least the minimal wait before, and
neither replaced, abandoned, expired nor entered since. -/
theorem attempts_confirm (hrequire : env.settings.requireProposeBeforeEnter = true)
    (ticks : List LoopTick) (hclock : (ticks.map LoopTick.mono).Pairwise (· ≤ ·))
    (before after : List LoopEvent) (attempt : EntryAttempt)
    (hlog : (run (turn env) start ticks).log = before ++ .execute attempt :: after) :
    ∃ mono pending, Standing before mono pending ∧ Confirms env mono pending attempt := by
  obtain ⟨mono, pending, hstanding, hconfirms⟩ :=
    (kept_run hrequire ticks).justified before (.execute attempt) after hlog
  exact ⟨mono, pending, hstanding, hconfirms hclock⟩

/-- The two turns enter once. -/
theorem attempts_confirm_twoTurns :
    ∃ mono pending, Standing (sampleLog.take 3) mono pending ∧
      Confirms sampleEnv mono pending sampleAttempt :=
  attempts_confirm rfl sampleTicks (by decide +kernel) (sampleLog.take 3) (sampleLog.drop 4)
    sampleAttempt (by with_unfolding_all rfl)

/-- The limits of a session: so many answers, so many entries, and never two entries without a
proposal between them. -/
theorem entries_limited (hrequire : env.settings.requireProposeBeforeEnter = true)
    (ticks : List LoopTick) :
    ((run (turn env) start ticks).log.countP LoopEvent.isDecision : ℤ) ≤
        max 0 env.settings.maxDecisionCalls ∧
      ((run (turn env) start ticks).log.countP LoopEvent.isExecuted : ℤ) ≤
        max 0 env.settings.maxProposalsPerSession ∧
      ∀ before between after decision decision',
        (run (turn env) start ticks).log =
          before ++ .confirmExecuted decision :: between ++ .confirmExecuted decision' :: after →
        ∃ mono pending downgraded, .propose mono pending downgraded ∈ between := by
  have hkept := kept_run hrequire ticks
  refine ⟨hkept.calls ▸ hkept.callLimit, hkept.acted ▸ hkept.actedLimit, ?_⟩
  intro before between after decision decision' hlog
  obtain ⟨w, hmem, pending, hwrite⟩ := Guarded.written_between LoopEvent.write
    (fun e ↦ e.isExecuted = true) hkept.justified
    (by
      intro pre u hu hguard
      cases u with
      | confirmExecuted d => exact hguard
      | _ => cases hu)
    (by
      intro u hu
      cases u with
      | confirmExecuted d => rfl
      | _ => cases hu)
    hlog rfl rfl
  obtain ⟨mono, downgraded, rfl⟩ := LoopEvent.eq_propose_of_write hwrite
  exact ⟨mono, pending, downgraded, hmem⟩

/-- The session with a shorter interval between decisions. -/
def busyEnv : LoopEnv :=
  { sampleEnv with settings := { sampleEnv.settings with decisionIntervalSeconds := 20 } }

/-- Two proposals, each of them confirmed ten seconds later. -/
def busyTicks : List LoopTick :=
  [sampleTick 0 .propose, sampleTick 10 .confirm, sampleTick 30 .propose, sampleTick 40 .confirm]

/-- The log of the four turns, five lines for each entry. -/
def busyLog : List LoopEvent := (run (turn busyEnv) start busyTicks).log

/-- What the second confirmation is made of. -/
def busyConfirmed : IntradayDecision :=
  confirmedDecision (pendingFromDecision (sampleAnswer .propose) .longCall 630 ⟨some 2, some 2⟩
    (UtcTime.sample 30)) (sampleAnswer .confirm)

/-- Two proposals are confirmed and executed, with the second one logged in between. -/
theorem entries_limited_fourTurns :
    busyLog.countP LoopEvent.isDecision = 4 ∧ busyLog.countP LoopEvent.isExecuted = 2 ∧
      (busyLog.countP LoopEvent.isExecuted : ℤ) ≤ max 0 3 ∧
      ∃ mono pending downgraded, .propose mono pending downgraded ∈ (busyLog.drop 5).take 4 := by
  obtain ⟨-, hexecuted, hbetween⟩ := @entries_limited busyEnv rfl busyTicks
  refine ⟨by decide +kernel, by decide +kernel, hexecuted, ?_⟩
  exact hbetween (busyLog.take 4) _ [] sampleConfirmed busyConfirmed
    (by with_unfolding_all rfl)

end LoopState

end Joker.Runtime
