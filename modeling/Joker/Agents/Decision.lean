import Joker.Base.Text
import Joker.Base.UtcTime
import Joker.Broker.Domain
import Joker.Risk.CapitalBudget
import Joker.Risk.Governor

/-!
# Entry decisions

Library `Agents`. The entry decisions of `joker/agents/decision.py` and the proposal of
`joker/agents/session_memory.py`: what an agent's answer is completed to, what is kept of a
proposal, the gate of a confirmation, what a confirmation becomes, and the veto on it. Figures are
finite floats; the arithmetic on them is a parameter. A figure with bounds carries them, so what
is built from a proposal is within them again.
-/

namespace Joker.Agents

open Joker.Base Joker.Broker Joker.Risk
open Joker.Risk.Governor (Direction)

/-! ### Data -/

/-- A figure of a field with `ge` and `le`. -/
abbrev Bounded (low high : ℚ) : Type := { x : ℚ // low ≤ x ∧ x ≤ high }

/-- A field with `ge=0.0, le=1.0`. -/
abbrev Fraction : Type := Bounded 0 1

/-- The values of `IntradayDecision.action`. -/
inductive DecisionAction where
  | hold
  | propose
  | confirm
  | abandon
  | enter
  deriving DecidableEq, Repr

/-- The text of an action. -/
def DecisionAction.value : DecisionAction → String
  | .hold => "hold"
  | .propose => "propose"
  | .confirm => "confirm"
  | .abandon => "abandon"
  | .enter => "enter"

/-- `IntradayDecision`. The playbook patch and the note are left out; no figure is NaN.
Source `joker/schemas/domain.py:308–335`. -/
structure IntradayDecision where
  action : DecisionAction
  direction : Option Direction
  setupId : Option String
  confidence : Fraction
  rationale : String
  stopPct : Bounded (5 / 100) (95 / 100)
  takeProfitPct : Bounded (1 / 10) 5
  summary : String
  capitalFraction : Option Fraction
  targetContracts : Option { n : ℤ // 1 ≤ n ∧ n ≤ 100 }
  allocationStyle : AllocationStyle
  winProbability : Option Fraction
  expectedR : Option ℚ
  expectedValueUsd : Option ℚ

/-- `PendingProposal`. Source `joker/agents/session_memory.py:14–31`. -/
structure PendingProposal where
  direction : Direction
  setupId : Option String
  confidence : Fraction
  stopPct : Bounded (5 / 100) (95 / 100)
  takeProfitPct : Bounded (1 / 10) 5
  rationale : String
  spyPrice : ℚ
  proposedAt : UtcTime
  atmCallMid : Option ℚ
  atmPutMid : Option ℚ
  summary : String
  capitalFraction : Option Fraction
  targetContracts : Option { n : ℤ // 1 ≤ n ∧ n ≤ 100 }
  allocationStyle : AllocationStyle
  winProbability : Option Fraction
  expectedR : Option ℚ
  expectedValueUsd : Option ℚ

/-- `PlaybookSetup`, as far as an agent's entry reads it.
Source `joker/schemas/domain.py:163–183`. -/
structure PlaybookSetup where
  setupId : String
  direction : Direction
  enabled : Bool
  stopPct : Bounded (5 / 100) (95 / 100)
  takeProfitPct : Bounded (1 / 10) 5

/-- The mids in an `option_context`. -/
structure OptionContext where
  atmCallMid : Option ℚ
  atmPutMid : Option ℚ

/-- The mid of the option that a direction buys. -/
def OptionContext.mid (context : OptionContext) : Direction → Option ℚ
  | .longCall => context.atmCallMid
  | .longPut => context.atmPutMid

/-- The mid, at the proposal, of the option to buy. -/
def PendingProposal.mid (pending : PendingProposal) : Option ℚ :=
  match pending.direction with
  | .longCall => pending.atmCallMid
  | .longPut => pending.atmPutMid

/-- The arithmetic on floats: `(a - b).total_seconds()`, `abs(a - b) / b * 100.0`,
`((a - b) / b) * 100.0`, `a / b`, `p * er - (1.0 - p)`, and `format(x, ".nf")`. -/
structure FloatMath where
  secondsBetween : UtcTime → UtcTime → ℚ
  percentOff : ℚ → ℚ → ℚ
  percentAbove : ℚ → ℚ → ℚ
  ratio : ℚ → ℚ → ℚ
  unitEdge : ℚ → ℚ → ℚ
  fixed : ℕ → ℚ → String

/-- Arithmetic without rounding, and figures without digits. -/
def FloatMath.exact : FloatMath where
  secondsBetween a b := ((a.instant - b.instant : ℤ) : ℚ) / 1000000
  percentOff a b := |a - b| / b * 100
  percentAbove a b := (a - b) / b * 100
  ratio a b := a / b
  unitEdge p er := p * er - (1 - p)
  fixed _ _ := ""

/-- The confirm settings of `AgentSettings`. -/
structure ConfirmLimits where
  ttlSeconds : ℚ
  maxSpyDriftPct : ℚ
  maxOptionMidWorsenPct : ℚ

/-- `DecisionAgentError`. Source `joker/agents/decision.py:50–51`. -/
def decisionAgentError (text : String) : PyException := ⟨"DecisionAgentError", text⟩

/-- The actions that ask for an entry. -/
def entryActions : List DecisionAction := [.propose, .confirm, .enter]

/-! ### Decisions -/

/-- The end of `run_decision_agent`: an answer that asks for an entry names a direction, and its
edge is filled in where it gives none. Source `joker/agents/decision.py:54–140`. -/
def completeDecision (math : FloatMath) (out : IntradayDecision) :
    Except PyException IntradayDecision :=
  if out.action ∉ entryActions then .ok out
  else if out.direction = none then
    .error (decisionAgentError (out.action.value ++ " requires direction long_call or long_put"))
  else
    let win := out.winProbability.getD out.confidence
    let expectedR :=
      out.expectedR.getD (math.ratio out.takeProfitPct (max out.stopPct.val (5 / 100)))
    .ok
      { out with
        winProbability := some win
        expectedR := some expectedR
        expectedValueUsd := some (out.expectedValueUsd.getD (math.unitEdge win expectedR)) }

/-- `pending_from_decision`, for the direction that it asserts.
Source `joker/agents/decision.py:172–199`. -/
def pendingFromDecision (decision : IntradayDecision) (direction : Direction) (spyPrice : ℚ)
    (context : OptionContext) (now : UtcTime) : PendingProposal where
  direction := direction
  setupId := decision.setupId
  confidence := decision.confidence
  stopPct := decision.stopPct
  takeProfitPct := decision.takeProfitPct
  rationale := if decision.rationale = "" then decision.summary else decision.rationale
  spyPrice := spyPrice
  proposedAt := now
  atmCallMid := context.atmCallMid
  atmPutMid := context.atmPutMid
  summary := decision.summary
  capitalFraction := decision.capitalFraction
  targetContracts := decision.targetContracts
  allocationStyle := decision.allocationStyle
  winProbability := decision.winProbability
  expectedR := decision.expectedR
  expectedValueUsd := decision.expectedValueUsd

/-- The check of `confirm_gate` on the option's mid; for a long option a higher mid is worse. -/
def midGate (math : FloatMath) (limits : ConfirmLimits) (pending : PendingProposal)
    (context : OptionContext) : Bool × String :=
  match pending.mid, context.mid pending.direction with
  | some prior, some mid =>
    if 0 < prior ∧ limits.maxOptionMidWorsenPct < math.percentAbove mid prior then
      (false, "option_mid_worsened_pct=" ++ math.fixed 1 (math.percentAbove mid prior))
    else (true, "ok")
  | _, _ => (true, "ok")

/-- `confirm_gate`. Source `joker/agents/decision.py:202–230`. -/
def confirmGate (math : FloatMath) (limits : ConfirmLimits) (pending : PendingProposal)
    (spyPrice : ℚ) (context : OptionContext) (now : UtcTime) : Bool × String :=
  let age := math.secondsBetween now pending.proposedAt
  let drift := math.percentOff spyPrice pending.spyPrice
  if limits.ttlSeconds < age then (false, "proposal_expired age_s=" ++ math.fixed 0 age)
  else if 0 < pending.spyPrice ∧ limits.maxSpyDriftPct < drift then
    (false, "spy_drift_pct=" ++ math.fixed 3 drift)
  else midGate math limits pending context

/-- `reason.startswith("proposal_expired")`. -/
def isExpiry (reason : String) : Bool := startsWithText "proposal_expired" reason

/-- `decision_from_pending`. Source `joker/agents/decision.py:233–263`. -/
def decisionFromPending (pending : PendingProposal) (confidence : Option Fraction)
    (capitalFraction : Option Fraction) (targetContracts : Option { n : ℤ // 1 ≤ n ∧ n ≤ 100 })
    (allocationStyle : Option AllocationStyle) (winProbability : Option Fraction)
    (expectedR expectedValueUsd : Option ℚ) : IntradayDecision where
  action := .confirm
  direction := some pending.direction
  setupId := pending.setupId
  confidence := confidence.getD pending.confidence
  rationale := pending.rationale
  stopPct := pending.stopPct
  takeProfitPct := pending.takeProfitPct
  summary := if pending.summary = "" then "confirm pending proposal" else pending.summary
  capitalFraction := capitalFraction.or pending.capitalFraction
  targetContracts := targetContracts.or pending.targetContracts
  allocationStyle := allocationStyle.getD pending.allocationStyle
  winProbability := winProbability.or pending.winProbability
  expectedR := expectedR.or pending.expectedR
  expectedValueUsd := expectedValueUsd.or pending.expectedValueUsd

/-- `ev_entry_allowed`. Source `joker/agents/decision.py:266–278`. -/
def evEntryAllowed (math : FloatMath) (decision : IntradayDecision) (minWinProbability : ℚ) :
    Bool × String :=
  if decision.action ∉ entryActions then (true, "n/a")
  else if decision.expectedValueUsd.any (fun value ↦ value ≤ 0) then (false, "ev_non_positive")
  else
    match decision.winProbability with
    | none => (true, "ok")
    | some win =>
      if win.val < minWinProbability then (false, "win_probability_low:" ++ math.fixed 2 win)
      else (true, "ok")

/-- `mock_decision` with a session memory; `detected` is the setup that the playbook's rules
find. Source `joker/agents/decision.py:281–312`. -/
def mockDecision (math : FloatMath) (detected : Option PlaybookSetup)
    (pending : Option PendingProposal) : IntradayDecision :=
  match pending, detected with
  | some pending, _ =>
    decisionFromPending pending (some ⟨75 / 100, by norm_num⟩) none none none none none none
  | none, some chosen =>
    { action := .propose
      direction := some chosen.direction
      setupId := some chosen.setupId
      confidence := ⟨7 / 10, by norm_num⟩
      rationale := "Mock decision: structured setup match"
      stopPct := chosen.stopPct
      takeProfitPct := chosen.takeProfitPct
      summary := "mock propose"
      capitalFraction := none
      targetContracts := none
      allocationStyle := .auto
      winProbability := some ⟨62 / 100, by norm_num⟩
      expectedR := some (math.ratio chosen.takeProfitPct (max chosen.stopPct.val (5 / 100)))
      expectedValueUsd := some (1 / 2) }
  | none, none =>
    { action := .hold
      direction := none
      setupId := none
      confidence := ⟨0, by norm_num⟩
      rationale := ""
      stopPct := ⟨1 / 2, by norm_num⟩
      takeProfitPct := ⟨1, by norm_num⟩
      summary := "mock hold"
      capitalFraction := none
      targetContracts := none
      allocationStyle := .auto
      winProbability := none
      expectedR := none
      expectedValueUsd := none }

/-! ### What they say -/

/-- An edge is stated. -/
def IntradayDecision.StatesEdge (decision : IntradayDecision) : Prop :=
  decision.winProbability.isSome = true ∧ decision.expectedValueUsd.isSome = true

/-- An edge was stated. -/
def PendingProposal.StatesEdge (pending : PendingProposal) : Prop :=
  pending.winProbability.isSome = true ∧ pending.expectedValueUsd.isSome = true

/-- A completed answer that asks for an entry states its edge. -/
theorem statesEdge_completeDecision {math : FloatMath} {out decision : IntradayDecision}
    (h : completeDecision math out = .ok decision) (haction : decision.action ∈ entryActions) :
    decision.StatesEdge := by
  unfold completeDecision at h
  split at h
  · next hother =>
    rw [← Except.ok.inj h] at haction
    exact absurd haction hother
  · split at h
    · cases h
    · rw [← Except.ok.inj h]
      exact ⟨rfl, rfl⟩

/-- What is kept of a decision states the same edge. -/
theorem statesEdge_pendingFromDecision {decision : IntradayDecision} (h : decision.StatesEdge)
    (direction : Direction) (spyPrice : ℚ) (context : OptionContext) (now : UtcTime) :
    (pendingFromDecision decision direction spyPrice context now).StatesEdge := h

/-- A confirmation states an edge where its proposal does. -/
theorem statesEdge_decisionFromPending {pending : PendingProposal} (h : pending.StatesEdge)
    (confidence capitalFraction : Option Fraction)
    (targetContracts : Option { n : ℤ // 1 ≤ n ∧ n ≤ 100 })
    (allocationStyle : Option AllocationStyle) (winProbability : Option Fraction)
    (expectedR expectedValueUsd : Option ℚ) :
    (decisionFromPending pending confidence capitalFraction targetContracts allocationStyle
      winProbability expectedR expectedValueUsd).StatesEdge := by
  constructor
  · change (winProbability.or pending.winProbability).isSome = true
    rw [Option.isSome_or, h.1, Bool.or_true]
  · change (expectedValueUsd.or pending.expectedValueUsd).isSome = true
    rw [Option.isSome_or, h.2, Bool.or_true]

/-- The mock agent states the edge of what it asks for. -/
theorem statesEdge_mockDecision {math : FloatMath} {detected : Option PlaybookSetup}
    {pending : Option PendingProposal} (h : ∀ p ∈ pending, p.StatesEdge)
    (haction : (mockDecision math detected pending).action ∈ entryActions) :
    (mockDecision math detected pending).StatesEdge := by
  cases pending with
  | some p => exact statesEdge_decisionFromPending (h p rfl) _ _ _ _ _ _ _
  | none =>
    cases detected with
    | some chosen => exact ⟨rfl, rfl⟩
    | none => simp [mockDecision, entryActions] at haction

/-- What the gate has found of a confirmation that it lets through. -/
structure Fresh (math : FloatMath) (limits : ConfirmLimits) (pending : PendingProposal)
    (spyPrice : ℚ) (context : OptionContext) (now : UtcTime) : Prop where
  inTime : math.secondsBetween now pending.proposedAt ≤ limits.ttlSeconds
  nearPrice : 0 < pending.spyPrice →
    math.percentOff spyPrice pending.spyPrice ≤ limits.maxSpyDriftPct
  notWorse : ∀ prior ∈ pending.mid, ∀ mid ∈ context.mid pending.direction, 0 < prior →
    math.percentAbove mid prior ≤ limits.maxOptionMidWorsenPct

private theorem midGate_fst {math : FloatMath} {limits : ConfirmLimits} {pending : PendingProposal}
    {context : OptionContext} (h : (midGate math limits pending context).1 = true) :
    ∀ prior ∈ pending.mid, ∀ mid ∈ context.mid pending.direction, 0 < prior →
      math.percentAbove mid prior ≤ limits.maxOptionMidWorsenPct := by
  intro prior hprior mid hmid hpos
  unfold midGate at h
  rw [Option.mem_def.mp hprior, Option.mem_def.mp hmid] at h
  simp only at h
  by_contra hworse
  rw [if_pos ⟨hpos, not_le.mp hworse⟩] at h
  cases h

/-- The gate lets a proposal through only when it is fresh. -/
theorem confirmGate_fst {math : FloatMath} {limits : ConfirmLimits} {pending : PendingProposal}
    {spyPrice : ℚ} {context : OptionContext} {now : UtcTime}
    (h : (confirmGate math limits pending spyPrice context now).1 = true) :
    Fresh math limits pending spyPrice context now := by
  unfold confirmGate at h
  simp only at h
  split at h
  · cases h
  · next htime =>
    split at h
    · cases h
    · next hprice =>
      exact
        { inTime := not_lt.mp htime
          nearPrice := fun hpos ↦ not_lt.mp (fun hfar ↦ hprice ⟨hpos, hfar⟩)
          notWorse := midGate_fst h }

/-- What the veto has found of a decision that it lets through. -/
theorem evEntryAllowed_fst {math : FloatMath} {decision : IntradayDecision} {minimum : ℚ}
    (haction : decision.action ∈ entryActions) (hedge : decision.StatesEdge)
    (h : (evEntryAllowed math decision minimum).1 = true) :
    (∃ value ∈ decision.expectedValueUsd, 0 < value) ∧
      ∃ win ∈ decision.winProbability, minimum ≤ win.val := by
  obtain ⟨win, hwin⟩ := Option.isSome_iff_exists.mp hedge.1
  obtain ⟨value, hvalue⟩ := Option.isSome_iff_exists.mp hedge.2
  unfold evEntryAllowed at h
  rw [if_neg (not_not.mpr haction), hvalue, hwin] at h
  simp only [Option.any_some, decide_eq_true_eq] at h
  split at h
  · cases h
  · next hpositive =>
    split at h
    · cases h
    · next hlikely => exact ⟨⟨value, hvalue, not_le.mp hpositive⟩, win, hwin, not_lt.mp hlikely⟩

/-- A text with another first letter is no expiry. -/
theorem isExpiry_eq_false {reason : String} (h : reason.toList.head? ≠ some 'p') :
    isExpiry reason = false := by
  unfold isExpiry startsWithText
  rw [decide_eq_false_iff_not]
  rintro ⟨rest, hrest⟩
  rw [← hrest] at h
  exact h rfl

/-- The veto's reasons are no expiry. -/
theorem isExpiry_evEntryAllowed (math : FloatMath) (decision : IntradayDecision) (minimum : ℚ) :
    isExpiry (evEntryAllowed math decision minimum).2 = false := by
  apply isExpiry_eq_false
  unfold evEntryAllowed
  split
  · simp
  · split
    · simp
    · split
      · simp
      · split
        · simp [String.toList_append]
        · simp

end Joker.Agents
