import Joker.Base.Runs
import Joker.Risk.Governor

/-!
# Policies and approvals

Library `Risk`. The agent-led policy drops reasons of the strict one and adds none. An approval has
no reason and uses up its candidate, a rejection changes nothing, so in every run of evaluations a
candidate is approved at most once, whatever configurations the governor is given on the way.
-/

namespace Joker.Risk.Governor

open Joker.Base Joker.Data

variable {F : Type} {A : RiskArith F} {g : RiskGovernor F} {e : Evaluation F}

/-! ### Policies -/

/-- The governor under another policy. -/
def RiskGovernor.under (g : RiskGovernor F) (policy : RiskPolicy) : RiskGovernor F :=
  { g with config := { g.config with policy := policy } }

/-- The governor is agent-led exactly under that policy. -/
theorem policy_eq_agent_led_iff (g : RiskGovernor F) :
    g.policy = "agent_led" ↔ g.config.policy = .agentLed := by
  unfold RiskGovernor.policy
  cases g.config.policy with
  | strict => decide +kernel
  | agentLed => decide +kernel

/-- An agent is spared reasons of a verdict and given none. -/
theorem freshnessReasons_sublist (freshness : FreshnessVerdict F) :
    (freshnessReasons true freshness).Sublist (freshnessReasons false freshness) := by
  unfold freshnessReasons
  split
  · exact List.Sublist.refl _
  · split
    · exact List.Sublist.refl _
    · exact List.nil_sublist _

/-- The reasons under the agent-led policy are some of those under the strict one. -/
theorem reasons_sublist (A : RiskArith F) (g : RiskGovernor F) (e : Evaluation F) :
    ((g.under .agentLed).reasons A e).Sublist ((g.under .strict).reasons A e) := by
  have hagent : (g.under .agentLed).policy = "agent_led" := (policy_eq_agent_led_iff _).mpr rfl
  have hstrict : (g.under .strict).policy ≠ "agent_led" := by
    rw [ne_eq, policy_eq_agent_led_iff]
    exact RiskPolicy.noConfusion
  unfold RiskGovernor.reasons
  simp only [hagent, hstrict, decide_true, decide_false, if_true, Bool.false_eq_true, if_false]
  apply List.Sublist.append ?_ (List.nil_sublist _)
  repeat apply List.Sublist.append ?_ (List.Sublist.refl _)
  exact List.Sublist.append (List.Sublist.refl _) (freshnessReasons_sublist _)

/-! ### Approvals -/

/-- An evaluation either approves a new candidate, without a reason, and remembers it, or rejects
with a reason and remembers nothing. -/
theorem evaluate_cases (A : RiskArith F) (g : RiskGovernor F) (e : Evaluation F) :
    ((g.evaluate A e).2.approved = true ∧ (g.evaluate A e).2.reasonCodes = [] ∧
        e.candidate.candidateId ∉ g.seenCandidates ∧
        (g.evaluate A e).1 =
          { g with seenCandidates := insert e.candidate.candidateId g.seenCandidates }) ∨
      ((g.evaluate A e).2.approved = false ∧ (g.evaluate A e).2.reasonCodes ≠ [] ∧
        (g.evaluate A e).1 = g) := by
  unfold RiskGovernor.evaluate
  simp only
  cases hreasons : g.reasons A e with
  | nil =>
    left
    refine ⟨rfl, rfl, ?_, rfl⟩
    intro hseen
    have hduplicate : RiskReasonCode.duplicateOrder ∈ g.reasons A e := by
      unfold RiskGovernor.reasons
      simp [failing, hseen]
    rw [hreasons] at hduplicate
    cases hduplicate
  | cons code rest => exact Or.inr ⟨rfl, List.cons_ne_nil code rest, rfl⟩

private theorem candidateId_evaluate (A : RiskArith F) (g : RiskGovernor F) (e : Evaluation F) :
    (g.evaluate A e).2.candidateId = e.candidate.candidateId := rfl

/-- A call: a new configuration, or an evaluation. -/
inductive GovernorCall (F : Type) where
  | configure (config : RiskConfig F)
  | evaluate (e : Evaluation F)
  deriving DecidableEq

/-- One call, with the decisions that were given. -/
def call (A : RiskArith F) (s : RiskGovernor F × List RiskDecision) :
    GovernorCall F → RiskGovernor F × List RiskDecision
  | .configure config => ({ s.1 with config := config }, s.2)
  | .evaluate e => ((s.1.evaluate A e).1, s.2 ++ [(s.1.evaluate A e).2])

/-- The candidates that were approved. -/
def approvedIds (decisions : List RiskDecision) : List String :=
  (decisions.filter (fun d ↦ d.approved)).map RiskDecision.candidateId

private theorem approvedIds_snoc (decisions : List RiskDecision) (d : RiskDecision) :
    approvedIds (decisions ++ [d]) =
      approvedIds decisions ++ if d.approved then [d.candidateId] else [] := by
  unfold approvedIds
  cases h : d.approved <;> simp [h]

/-- What was approved is remembered, once, and had no reason. -/
structure Single (s : RiskGovernor F × List RiskDecision) : Prop where
  remembered : ∀ id ∈ approvedIds s.2, id ∈ s.1.seenCandidates
  once : (approvedIds s.2).Nodup
  reasonless : ∀ d ∈ s.2, d.approved = true → d.reasonCodes = []

private theorem single_start (g : RiskGovernor F) : Single (g, []) where
  remembered _ h := nomatch h
  once := List.nodup_nil
  reasonless _ h := nomatch h

/-- A call approves no candidate a second time. -/
theorem Single.call {s : RiskGovernor F × List RiskDecision} (h : Single s) (A : RiskArith F)
    (c : GovernorCall F) : Single (call A s c) := by
  cases c with
  | configure config => exact ⟨h.remembered, h.once, h.reasonless⟩
  | evaluate e =>
    have hcall : Governor.call A s (.evaluate e) =
        ((s.1.evaluate A e).1, s.2 ++ [(s.1.evaluate A e).2]) := rfl
    rw [hcall]
    rcases evaluate_cases A s.1 e with ⟨happroved, hnone, hnew, hseen⟩ | ⟨hrejected, _, hsame⟩
    · have hids : approvedIds (s.2 ++ [(s.1.evaluate A e).2]) =
          approvedIds s.2 ++ [e.candidate.candidateId] := by
        rw [approvedIds_snoc, happroved, if_pos rfl, candidateId_evaluate]
      refine ⟨?_, ?_, ?_⟩
      · intro id hid
        rw [hids] at hid
        rw [hseen]
        apply Finset.mem_insert.mpr
        rcases List.mem_append.mp hid with hid | hid
        · exact Or.inr (h.remembered id hid)
        · exact Or.inl (List.mem_singleton.mp hid)
      · rw [hids, List.nodup_append]
        refine ⟨h.once, List.nodup_singleton _, ?_⟩
        intro id hid id' hid' heq
        rw [heq, List.mem_singleton.mp hid'] at hid
        exact hnew (h.remembered _ hid)
      · intro d hd
        rcases List.mem_append.mp hd with hd | hd
        · exact h.reasonless d hd
        · rw [List.mem_singleton.mp hd]
          exact fun _ ↦ hnone
    · have hids : approvedIds (s.2 ++ [(s.1.evaluate A e).2]) = approvedIds s.2 := by
        simp [approvedIds_snoc, hrejected]
      rw [hsame]
      refine ⟨?_, ?_, ?_⟩
      · rw [hids]
        exact h.remembered
      · rw [hids]
        exact h.once
      · intro d hd happroved
        rcases List.mem_append.mp hd with hd | hd
        · exact h.reasonless d hd happroved
        · rw [List.mem_singleton.mp hd, hrejected] at happroved
          cases happroved

/-- In every run approvals are single. -/
theorem single_run (A : RiskArith F) (g : RiskGovernor F) (calls : List (GovernorCall F)) :
    Single (run (call A) (g, []) calls) :=
  run_invariant (I := Single) (L := fun _ ↦ True) (fun _ c h _ ↦ h.call A c) calls
    (fun _ _ ↦ trivial) (single_start g)

/-- Under the agent-led policy an evaluation has no reason that it would not have under the strict
one. In every run a candidate is approved at most once and only without a reason, and an evaluation
that rejects leaves the approved candidates as they were. -/
theorem policies_ordered_approvals_single (A : RiskArith F) :
    (∀ (g : RiskGovernor F) e, ((g.under .agentLed).evaluate A e).2.reasonCodes ⊆
      ((g.under .strict).evaluate A e).2.reasonCodes) ∧
    ∀ (g : RiskGovernor F) (calls : List (GovernorCall F)),
      let s := run (call A) (g, []) calls
      (approvedIds s.2).Nodup ∧ (∀ d ∈ s.2, d.approved = true → d.reasonCodes = []) ∧
        ∀ e, (s.1.evaluate A e).2.approved = false →
          (s.1.evaluate A e).1.seenCandidates = s.1.seenCandidates := by
  constructor
  · intro g e
    exact (reasons_sublist A g e).subset
  · intro g calls
    have h := single_run A g calls
    refine ⟨h.once, h.reasonless, ?_⟩
    intro e hrejected
    rcases evaluate_cases A (run (call A) (g, []) calls).1 e with ⟨happroved, -⟩ | ⟨-, -, hsame⟩
    · rw [hrejected] at happroved
      cases happroved
    · rw [hsame]

/-! ### A sample -/

/-- A governor of a session without a capital ceiling. -/
def RiskGovernor.sample : RiskGovernor ℚ where
  config :=
    { maxDailyLossUsd := 500
      maxTradesPerDay := 3
      maxOpenPositions := 1
      maxPremiumUsd := 300
      maxSpreadPct := 15
      quoteMaxAgeSeconds := 30
      allowedSymbol := "SPY"
      killSwitch := false
      allowDelayedQuotes := true
      feedMaxSilenceSeconds := 60
      delayedQuoteMaxAgeSeconds := 900
      policy := .agentLed
      authorizedCapitalUsd := 0
      reservedCapitalUsd := 0 }
  mode := .paper
  liveEnabled := false
  seenCandidates := ∅

/-- An entry on a quote of one dollar at a bid of a half. -/
def Evaluation.sample : Evaluation ℚ where
  candidate :=
    { candidateId := "c1"
      contract := ⟨"SPY", true⟩
      quote := ⟨1 / 2, 1, ⟨2026, 7, 1, 14, 0, 0, 0, some 0⟩, false, none⟩
      direction := .longCall
      entryLimitPrice := 1
      stopPrice := 1 / 2
      takeProfitPrice := 2
      quantity := 1
      bounded := by decide }
  dailyState := ⟨0, 0, 0, false⟩
  hasUnresolvedOrder := false
  agentOverride := false
  referenceTime := some ⟨2026, 7, 1, 14, 0, 5, 0, some 0⟩
  clock := ⟨2026, 7, 1, 14, 0, 5, 0, some 0⟩

/-- The strict policy minds the spread, and the candidate is approved once. -/
example :
    ((RiskGovernor.sample.under .strict).evaluate .exact .sample).2.reasonCodes = [.wideSpread] ∧
      (run (call .exact) (RiskGovernor.sample, []) [.evaluate .sample, .evaluate .sample]).2.map
        RiskDecision.message = ["approved", "rejected: DUPLICATE_ORDER"] := by
  decide +kernel

end Joker.Risk.Governor
