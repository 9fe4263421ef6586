import Joker.Runtime.MarketTicks

/-!
# Verdicts of a merged report

Library `Runtime`. The evaluation judges its findings by severity and by codes that forbid execution
at any severity. A tick that merges more findings into the report judges all of them by severity
alone. The merged report follows the evaluation's rule unless every finding is below an error and
one has a forbidding code.
-/

namespace Joker.Market

open Joker.Ledger

/-- The report of `evaluate_data_quality` on its findings. -/
def ruled (reportId : Uuid) (findings : List DataQualityFinding) : DataQualityReport :=
  let severity := maxSeverity findings
  { reportId := reportId
    severity := severity
    findings := findings
    usableForReasoning := decide (severity ≠ .critical)
    usableForExecution := decide (severity ≠ .error ∧ severity ≠ .critical) &&
      !findings.any (fun f ↦ forbidsExecution f.code) }

/-- Some finding is an error or critical. -/
def Severe (findings : List DataQualityFinding) : Prop :=
  ∃ f ∈ findings, f.severity = .error ∨ f.severity = .critical

/-- Some finding has a code that forbids execution. -/
def Forbidding (findings : List DataQualityFinding) : Prop :=
  ∃ f ∈ findings, forbidsExecution f.code = true

instance (findings : List DataQualityFinding) : Decidable (Severe findings) :=
  inferInstanceAs (Decidable (∃ f ∈ findings, _))

instance (findings : List DataQualityFinding) : Decidable (Forbidding findings) :=
  inferInstanceAs (Decidable (∃ f ∈ findings, _))

private theorem le_rank_foldl_iff (n : ℕ) (rest : List DataQualityFinding)
    (best : DataQualityFinding) :
    n ≤ (rest.foldl (fun best f ↦ if best.severity.rank < f.severity.rank then f else best)
        best).severity.rank ↔
      n ≤ best.severity.rank ∨ ∃ f ∈ rest, n ≤ f.severity.rank := by
  induction rest generalizing best with
  | nil => simp
  | cons f rest ih =>
    rw [List.foldl_cons, ih, List.exists_mem_cons_iff, ← or_assoc]
    apply or_congr_left
    split <;> omega

/-- The highest severity reaches a rank when some finding does. -/
theorem le_rank_maxSeverity_iff {n : ℕ} (hn : 0 < n) (findings : List DataQualityFinding) :
    n ≤ (maxSeverity findings).rank ↔ ∃ f ∈ findings, n ≤ f.severity.rank := by
  cases findings with
  | nil =>
    have hok : (maxSeverity []).rank = 0 := rfl
    rw [hok]
    simp
    omega
  | cons first rest =>
    unfold maxSeverity
    rw [le_rank_foldl_iff, List.exists_mem_cons_iff]

private theorem rank_critical_iff (severity : DataQualitySeverity) :
    4 ≤ severity.rank ↔ severity = .critical := by
  cases severity <;> decide

private theorem rank_severe_iff (severity : DataQualitySeverity) :
    3 ≤ severity.rank ↔ severity = .error ∨ severity = .critical := by
  cases severity <;> decide

/-- A report is critical when a finding is. -/
theorem maxSeverity_eq_critical_iff (findings : List DataQualityFinding) :
    maxSeverity findings = .critical ↔ ∃ f ∈ findings, f.severity = .critical := by
  simp only [← rank_critical_iff]
  exact le_rank_maxSeverity_iff (by omega) findings

/-- A report is an error or critical when a finding is. -/
theorem severe_maxSeverity_iff (findings : List DataQualityFinding) :
    maxSeverity findings = .error ∨ maxSeverity findings = .critical ↔ Severe findings := by
  unfold Severe
  simp only [← rank_severe_iff]
  exact le_rank_maxSeverity_iff (by omega) findings

/-- The rule for execution. -/
theorem usableForExecution_ruled (reportId : Uuid) (findings : List DataQualityFinding) :
    (ruled reportId findings).usableForExecution = true ↔
      ¬ Severe findings ∧ ¬ Forbidding findings := by
  rw [← severe_maxSeverity_iff]
  simp [ruled, Forbidding, not_or]

/-- The rule for reasoning. -/
theorem usableForReasoning_ruled (reportId : Uuid) (findings : List DataQualityFinding) :
    (ruled reportId findings).usableForReasoning = true ↔
      ¬ ∃ f ∈ findings, f.severity = .critical := by
  rw [← maxSeverity_eq_critical_iff]
  simp [ruled]

/-- A merged report is judged by severity alone. -/
theorem usableForExecution_merge (report : DataQualityReport) (more : List DataQualityFinding) :
    (report.merge more).usableForExecution = true ↔ ¬ Severe (report.findings ++ more) := by
  rw [← severe_maxSeverity_iff]
  simp [DataQualityReport.merge, not_or]

end Joker.Market

namespace Joker.Runtime

open Joker.Base Joker.Broker Joker.Ledger Joker.Market

namespace MarketRuntime

/-- The report that a tick makes of the evaluation's. -/
def mergedReport (quality : Market.DataQualityReport) (barFindings : List BarIngestFinding)
    (enqueued : List DataQualityFinding) : Market.DataQualityReport :=
  let quality := if barFindings = [] then quality else quality.merge (barFindings.map barFinding)
  if enqueued = [] then quality else quality.merge enqueued

/-- All findings of a tick. -/
def allFindings (found : List DataQualityFinding) (barFindings : List BarIngestFinding)
    (enqueued : List DataQualityFinding) : List DataQualityFinding :=
  found ++ barFindings.map barFinding ++ enqueued

/-- A report has all of a tick's findings and the verdicts of the evaluation's rule on them, and is
not usable where the evaluation's findings alone are not. -/
structure FollowsRule (found : List DataQualityFinding) (barFindings : List BarIngestFinding)
    (enqueued : List DataQualityFinding) (report : Market.DataQualityReport) : Prop where
  findings_eq : report.findings = allFindings found barFindings enqueued
  severity_eq : report.severity = (ruled report.reportId report.findings).severity
  reasoning_eq : report.usableForReasoning =
    (ruled report.reportId report.findings).usableForReasoning
  execution_eq : report.usableForExecution =
    (ruled report.reportId report.findings).usableForExecution
  reasoning_kept : (ruled report.reportId found).usableForReasoning = false →
    report.usableForReasoning = false
  execution_kept : (ruled report.reportId found).usableForExecution = false →
    report.usableForExecution = false

/-- Nothing is merged, or a finding is an error or critical, or none has a forbidding code. -/
def RuleKept (found : List DataQualityFinding) (barFindings : List BarIngestFinding)
    (enqueued : List DataQualityFinding) : Prop :=
  (barFindings = [] ∧ enqueued = []) ∨ Severe (allFindings found barFindings enqueued) ∨
    ¬ Forbidding (allFindings found barFindings enqueued)

/-- The two merges are one. -/
theorem mergedReport_eq (quality : Market.DataQualityReport) (barFindings : List BarIngestFinding)
    (enqueued : List DataQualityFinding) :
    mergedReport quality barFindings enqueued =
      if barFindings = [] ∧ enqueued = [] then quality
      else quality.merge (barFindings.map barFinding ++ enqueued) := by
  unfold mergedReport
  by_cases hbars : barFindings = [] <;> by_cases henqueued : enqueued = []
  · simp [hbars, henqueued]
  · simp [hbars, henqueued]
  · simp [hbars, henqueued]
  · simp [hbars, henqueued, DataQualityReport.merge]

private theorem ruled_append (reportId : Uuid) (found more : List DataQualityFinding) :
    ((ruled reportId found).usableForReasoning = false →
        (ruled reportId (found ++ more)).usableForReasoning = false) ∧
      ((ruled reportId found).usableForExecution = false →
        (ruled reportId (found ++ more)).usableForExecution = false) := by
  constructor <;> rw [← Bool.not_eq_true, ← Bool.not_eq_true] <;> apply mt
  · rw [usableForReasoning_ruled, usableForReasoning_ruled]
    rintro hnone ⟨f, hf, hcritical⟩
    exact hnone ⟨f, List.mem_append_left _ hf, hcritical⟩
  · rw [usableForExecution_ruled, usableForExecution_ruled]
    rintro ⟨hsevere, hforbidding⟩
    refine ⟨?_, ?_⟩
    · rintro ⟨f, hf, herror⟩
      exact hsevere ⟨f, List.mem_append_left _ hf, herror⟩
    · rintro ⟨f, hf, hcode⟩
      exact hforbidding ⟨f, List.mem_append_left _ hf, hcode⟩

private theorem followsRule_merge_iff (reportId : Uuid) (found : List DataQualityFinding)
    (barFindings : List BarIngestFinding) (enqueued : List DataQualityFinding) :
    FollowsRule found barFindings enqueued
        ((ruled reportId found).merge (barFindings.map barFinding ++ enqueued)) ↔
      Severe (allFindings found barFindings enqueued) ∨
        ¬ Forbidding (allFindings found barFindings enqueued) := by
  have hfindings : found ++ (barFindings.map barFinding ++ enqueued) =
      allFindings found barFindings enqueued := (List.append_assoc _ _ _).symm
  have hmerged := usableForExecution_merge (ruled reportId found)
    (barFindings.map barFinding ++ enqueued)
  have hruled := usableForExecution_ruled reportId (allFindings found barFindings enqueued)
  obtain ⟨hreasoning, hexecution⟩ :=
    ruled_append reportId found (barFindings.map barFinding ++ enqueued)
  change _ ↔ ¬ Severe (found ++ (barFindings.map barFinding ++ enqueued)) at hmerged
  rw [hfindings] at hmerged hreasoning hexecution
  constructor
  · intro h
    by_contra hnot
    obtain ⟨hsevere, hforbidding⟩ := not_or.mp hnot
    have heq := h.execution_eq
    change _ = (ruled reportId
      (found ++ (barFindings.map barFinding ++ enqueued))).usableForExecution at heq
    rw [hfindings, hmerged.mpr hsevere] at heq
    exact hforbidding (hruled.mp heq.symm).2
  · intro hkept
    have heq : ((ruled reportId found).merge
        (barFindings.map barFinding ++ enqueued)).usableForExecution =
        (ruled reportId (allFindings found barFindings enqueued)).usableForExecution := by
      rw [Bool.eq_iff_iff, hmerged, hruled]
      tauto
    exact
      { findings_eq := hfindings
        severity_eq := rfl
        reasoning_eq := rfl
        execution_eq := heq.trans (by rw [← hfindings]; rfl)
        reasoning_kept := fun hunusable ↦ by
          have hlater := hreasoning hunusable
          rw [← hfindings] at hlater
          exact hlater
        execution_kept := fun hunusable ↦ heq.trans (hexecution hunusable) }

/-- A tick's report follows the evaluation's rule on all findings exactly when nothing is merged, or
a finding is an error or critical, or none has a forbidding code. -/
theorem followsRule_iff (outside : MarketOutside) (config : MarketRuntimeConfig) :
    (∀ reportId found barFindings enqueued,
      FollowsRule found barFindings enqueued
          (mergedReport (ruled reportId found) barFindings enqueued) ↔
        RuleKept found barFindings enqueued) ∧
    ∀ (s : MarketRuntime) underlying call,
      s.report outside config underlying call =
        mergedReport (ruled call.reportId (evaluateDataQuality outside.quality
          config.toQualityConfig underlying (s.window .m1 config.bars1mWindow)
          (s.window .m5 config.bars5mWindow) s.latestSurface config.symbol call.reference
          call.reportId).findings) s.bars.findings s.pendingQualityFindings := by
  refine ⟨?_, fun _ _ _ ↦ rfl⟩
  intro reportId found barFindings enqueued
  rw [mergedReport_eq]
  unfold RuleKept
  split
  · next hnone =>
    refine iff_of_true ?_ (Or.inl hnone)
    obtain ⟨rfl, rfl⟩ := hnone
    exact
      { findings_eq := by simp [allFindings, ruled]
        severity_eq := rfl
        reasoning_eq := rfl
        execution_eq := rfl
        reasoning_kept := id
        execution_kept := id }
  · next hsome =>
    rw [followsRule_merge_iff]
    exact (or_iff_right hsome).symm

/-- A crossed market that is enqueued as a warning. -/
def crossedWarning : DataQualityFinding := ⟨.crossedMarket, .warning, some "SPY"⟩

/-- A quote and an option row, the warning, and the tick that builds a surface. -/
def crossedTick : List MarketCall :=
  [.quote (.sample "q1" (.sample 0 5) (.sample 0 5) 100),
    .optionQuotes [.row (.sample "C500" (AwareDatetime.sample 0 5).time)],
    .qualityFindings [crossedWarning], .tick (.sample 0 6 "surface" "report")]

/-- The tick's report is usable for execution, and by the rule it is not. -/
theorem not_followsRule_crossedTick :
    ¬ ∀ linked ∈ (run (step .sample .sample) (new 2) crossedTick).created,
      linked.report.usableForExecution =
        (ruled linked.report.reportId linked.report.findings).usableForExecution := by
  decide +kernel

end MarketRuntime
end Joker.Runtime
