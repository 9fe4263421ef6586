import Joker.Risk.CapitalBudget

/-!
# The aggression cap

Library `Risk`. How the cap on an entry's share of the capital moves. It is meant to fall as the
session's profit nears its goal and as the close comes nearer. It does so for the plans whose own
fraction is at least the floor of the last band before the goal, and at least the limit of the last
half hour unless the boost cannot lift the cap above the limit of the half hour before.
-/

namespace Joker.Risk

/-- A plan that follows its goal, with amounts as the plan's own defaults have them. -/
structure CapitalPlan.GoalAdaptive (plan : CapitalPlan) : Prop where
  mode : plan.aggressionMode = "goal_adaptive"
  boost : 0 ≤ plan.behindGoalBoost
  dampen : 0 ≤ plan.aheadGoalDampen
  fraction_nonneg : 0 ≤ plan.maxKellyFraction
  fraction_le_one : plan.maxKellyFraction ≤ 1

namespace CapitalPlan

/-- At any time of day, more profit never raises the cap. -/
def FallsWithProfit (plan : CapitalPlan) : Prop :=
  ∀ (b b' : CapitalBudget) (minutesToClose : Option ℚ), b.plan = plan → b'.plan = plan →
    b.realizedPnlUsd ≤ b'.realizedPnlUsd →
      b'.aggressionCap minutesToClose ≤ b.aggressionCap minutesToClose

/-- At any profit, less time to the close never raises the cap. -/
def FallsTowardsClose (plan : CapitalPlan) : Prop :=
  ∀ (b : CapitalBudget) (minutes minutes' : ℚ), b.plan = plan → minutes ≤ minutes' →
    b.aggressionCap (some minutes) ≤ b.aggressionCap (some minutes')

/-- The cap that `progressCap` finds at a progress. -/
def capAt (plan : CapitalPlan) (progress : ℚ) : ℚ :=
  let base := plan.maxKellyFraction
  if progress < 50 then min (85 / 100) (base + plan.behindGoalBoost * ((50 - progress) / 50))
  else if 100 ≤ progress then min base (15 / 100)
  else if 80 ≤ progress then max (15 / 100) (base - plan.aheadGoalDampen)
  else base

/-- The cap under the limits of the last hour. -/
def timeLimited (plan : CapitalPlan) (minutesToClose : Option ℚ) (cap : ℚ) : ℚ :=
  match minutesToClose with
  | none => cap
  | some minutes =>
    if minutes < 30 then min cap (25 / 100)
    else if minutes < 60 then min cap (max (20 / 100) plan.maxKellyFraction)
    else cap

/-- The final clamp. -/
def clamped (cap : ℚ) : ℚ := max (5 / 100) (min (85 / 100) cap)

end CapitalPlan

open CapitalPlan

/-- The cap of a plan that follows its goal, from its three parts. -/
theorem aggressionCap_eq {b : CapitalBudget} (h : b.plan.aggressionMode = "goal_adaptive")
    (minutesToClose : Option ℚ) :
    b.aggressionCap minutesToClose =
      clamped (b.plan.timeLimited minutesToClose (b.plan.capAt b.progressToGoalPct)) := by
  unfold CapitalBudget.aggressionCap
  simp only [h, ne_eq, not_true_eq_false, if_false]
  cases minutesToClose with
  | none => rfl
  | some minutes => rfl

/-! ### The limits -/

private theorem clamped_mono {cap cap' : ℚ} (h : cap ≤ cap') : clamped cap ≤ clamped cap' :=
  max_le_max_left _ (min_le_min_left _ h)

/-- The clamp sees nothing above its own ceiling. -/
theorem clamped_min_ceiling (cap : ℚ) : clamped (min (85 / 100) cap) = clamped cap := by
  unfold clamped
  rw [← min_assoc, min_self]

private theorem timeLimited_mono (plan : CapitalPlan) (minutesToClose : Option ℚ) {cap cap' : ℚ}
    (h : cap ≤ cap') :
    plan.timeLimited minutesToClose cap ≤ plan.timeLimited minutesToClose cap' := by
  unfold timeLimited
  cases minutesToClose with
  | none => exact h
  | some minutes =>
    simp only
    split
    · exact min_le_min_right _ h
    · split
      · exact min_le_min_right _ h
      · exact h

section Time

variable {plan : CapitalPlan} {minutes : ℚ} (cap : ℚ)

private theorem timeLimited_last (h : minutes < 30) :
    plan.timeLimited (some minutes) cap = min cap (25 / 100) := if_pos h

private theorem timeLimited_lastHour (h30 : 30 ≤ minutes) (h60 : minutes < 60) :
    plan.timeLimited (some minutes) cap = min cap (max (20 / 100) plan.maxKellyFraction) := by
  unfold timeLimited
  simp only
  rw [if_neg (not_lt.mpr h30), if_pos h60]

private theorem timeLimited_before (h : 60 ≤ minutes) : plan.timeLimited
    (some minutes) cap = cap := by
  unfold timeLimited
  simp only
  rw [if_neg (by linarith), if_neg (not_lt.mpr h)]

end Time

private theorem timeLimited_le (plan : CapitalPlan) (minutesToClose : Option ℚ) (cap : ℚ) :
    plan.timeLimited minutesToClose cap ≤ cap := by
  unfold timeLimited
  cases minutesToClose with
  | none => exact le_refl cap
  | some minutes =>
    simp only
    split
    · exact min_le_left _ _
    · split
      · exact min_le_left _ _
      · exact le_refl cap

/-- The clamp's ceiling can be applied before the limits of the last hour. -/
theorem clamped_timeLimited_min (plan : CapitalPlan) (minutesToClose : Option ℚ) (cap : ℚ) :
    clamped (plan.timeLimited minutesToClose (min (85 / 100) cap)) =
      clamped (plan.timeLimited minutesToClose cap) := by
  unfold timeLimited
  cases minutesToClose with
  | none => exact clamped_min_ceiling cap
  | some minutes =>
    simp only
    split
    · rw [min_assoc, clamped_min_ceiling]
    · split
      · rw [min_assoc, clamped_min_ceiling]
      · exact clamped_min_ceiling cap

/-! ### Progress -/

private theorem progressToGoalPct_nonneg (b : CapitalBudget) : 0 ≤ b.progressToGoalPct := by
  unfold CapitalBudget.progressToGoalPct
  split
  · split
    · norm_num
    · exact le_refl 0
  · exact le_max_left _ _

/-- More profit is at least as much progress. -/
theorem progressToGoalPct_mono {b b' : CapitalBudget} (hplan : b.plan = b'.plan)
    (h : b.realizedPnlUsd ≤ b'.realizedPnlUsd) : b.progressToGoalPct ≤ b'.progressToGoalPct := by
  have htarget : b.targetProfitUsd = b'.targetProfitUsd := by
    unfold CapitalBudget.targetProfitUsd
    rw [hplan]
  unfold CapitalBudget.progressToGoalPct
  rw [htarget]
  split
  · split
    · next hpos => rw [if_pos (hpos.trans h)]
    · split
      · norm_num
      · exact le_refl 0
  · next htarget' =>
    have hpos : 0 < b'.targetProfitUsd := not_le.mp htarget'
    apply max_le_max_left
    apply min_le_min_left
    have hdiv : b.realizedPnlUsd / b'.targetProfitUsd ≤ b'.realizedPnlUsd / b'.targetProfitUsd :=
      div_le_div_of_nonneg_right h hpos.le
    linarith

/-- Without a target, progress is nothing or all. -/
theorem progressToGoalPct_of_no_target {b : CapitalBudget} (h : b.plan.targetProfitPct = 0) :
    b.progressToGoalPct = if 0 ≤ b.realizedPnlUsd then 100 else 0 := by
  unfold CapitalBudget.progressToGoalPct CapitalBudget.targetProfitUsd
  rw [h, zero_div, mul_zero, if_pos (le_refl 0)]

/-- A budget of the plan whose progress is a given one. -/
def CapitalPlan.atProgress (plan : CapitalPlan) (progress : ℚ) : CapitalBudget :=
  { CapitalBudget.new plan with
    realizedPnlUsd := plan.authorizedUsd * (plan.targetProfitPct / 100) * (progress / 100) }

/-- With a target, every progress up to the cut is reached. -/
theorem progressToGoalPct_atProgress {plan : CapitalPlan} (htarget : 0 < plan.targetProfitPct)
    {progress : ℚ} (h0 : 0 ≤ progress) (h200 : progress ≤ 200) :
    (plan.atProgress progress).progressToGoalPct = progress := by
  have hpos : 0 < plan.authorizedUsd * (plan.targetProfitPct / 100) :=
    mul_pos plan.valid.1 (by positivity)
  unfold CapitalBudget.progressToGoalPct CapitalBudget.targetProfitUsd CapitalPlan.atProgress
    CapitalBudget.new
  simp only
  rw [if_neg (not_le.mpr hpos), mul_div_cancel_left₀ _ hpos.ne', div_mul_cancel₀ _ (by norm_num),
    min_eq_right h200, max_eq_right h0]

/-- A loss is no progress. -/
theorem progressToGoalPct_of_loss {b : CapitalBudget} (h : b.realizedPnlUsd < 0) :
    b.progressToGoalPct = 0 := by
  unfold CapitalBudget.progressToGoalPct
  split
  · exact if_neg (not_le.mpr h)
  · next htarget =>
    apply max_eq_left
    apply (min_le_right _ _).trans
    have hdiv : b.realizedPnlUsd / b.targetProfitUsd ≤ 0 :=
      div_nonpos_of_nonpos_of_nonneg h.le (not_le.mp htarget).le
    linarith

/-! ### The bands of progress -/

section Bands

variable {plan : CapitalPlan}

private theorem capAt_behind {progress : ℚ} (h : progress < 50) : plan.capAt progress =
    min (85 / 100) (plan.maxKellyFraction + plan.behindGoalBoost * ((50 - progress) / 50)) :=
  if_pos h

private theorem capAt_halfway {progress : ℚ} (h50 : 50 ≤ progress) (h80 : progress < 80) :
    plan.capAt progress = plan.maxKellyFraction := by
  unfold capAt
  simp only
  rw [if_neg (not_lt.mpr h50), if_neg (by linarith), if_neg (not_le.mpr h80)]

private theorem capAt_near {progress : ℚ} (h80 : 80 ≤ progress) (h100 : progress < 100) :
    plan.capAt progress = max (15 / 100) (plan.maxKellyFraction - plan.aheadGoalDampen) := by
  unfold capAt
  simp only
  rw [if_neg (by linarith), if_neg (not_le.mpr h100), if_pos h80]

private theorem capAt_met {progress : ℚ} (h : 100 ≤ progress) :
    plan.capAt progress = min plan.maxKellyFraction (15 / 100) := by
  unfold capAt
  simp only
  rw [if_neg (by linarith), if_pos h]

/-- Behind the goal the cap is at least the plan's fraction, under the ceiling. -/
theorem min_fraction_le_capAt (h : plan.GoalAdaptive) {progress : ℚ} (hp : progress < 50) :
    min (85 / 100) plan.maxKellyFraction ≤ plan.capAt progress := by
  rw [capAt_behind hp]
  apply min_le_min_left
  have hdeficit : 0 ≤ plan.behindGoalBoost * ((50 - progress) / 50) :=
    mul_nonneg h.boost (div_nonneg (by linarith) (by norm_num))
  linarith

/-- From half way on the cap is at most the plan's fraction, if that is no less than the floor of
the last band. -/
theorem capAt_le_fraction (h : plan.GoalAdaptive) (hfloor : 15 / 100 ≤ plan.maxKellyFraction)
    {progress : ℚ} (hp : 50 ≤ progress) : plan.capAt progress ≤ plan.maxKellyFraction := by
  rcases lt_or_ge progress 80 with h80 | h80
  · exact (capAt_halfway hp h80).le
  · rcases lt_or_ge progress 100 with h100 | h100
    · rw [capAt_near h80 h100]
      exact max_le hfloor (by linarith [h.dampen])
    · rw [capAt_met h100]
      exact min_le_left _ _

/-- Under the ceiling, more progress never raises the cap of a plan whose fraction is no less than
the floor of the last band. -/
theorem capAt_falls (h : plan.GoalAdaptive) (hfloor : 15 / 100 ≤ plan.maxKellyFraction)
    {progress progress' : ℚ} (hp : progress ≤ progress') :
    min (85 / 100) (plan.capAt progress') ≤ min (85 / 100) (plan.capAt progress) := by
  rcases lt_or_ge progress' 50 with h50' | h50'
  · -- Both are behind, and the deficit shrinks.
    rw [capAt_behind h50', capAt_behind (by linarith)]
    apply min_le_min_left
    apply min_le_min_left
    have hdeficit : (50 - progress') / 50 ≤ (50 - progress) / 50 := by linarith
    linarith [mul_le_mul_of_nonneg_left hdeficit h.boost]
  · have hle := capAt_le_fraction h hfloor h50'
    rcases lt_or_ge progress 50 with h50 | h50
    · have hge := min_fraction_le_capAt h h50
      calc min (85 / 100) (plan.capAt progress')
          ≤ min (85 / 100) plan.maxKellyFraction := min_le_min_left _ hle
        _ = min (85 / 100) (min (85 / 100) plan.maxKellyFraction) := by
            rw [← min_assoc, min_self]
        _ ≤ min (85 / 100) (plan.capAt progress) := min_le_min_left _ hge
    · apply min_le_min_left
      rcases lt_or_ge progress 80 with h80 | h80
      · rw [capAt_halfway h50 h80]
        exact hle
      · rcases lt_or_ge progress' 100 with h100 | h100
        · rw [capAt_near (h80.trans hp) h100, capAt_near h80 (by linarith)]
        · rcases lt_or_ge progress 100 with hnear | hmet
          · rw [capAt_met h100, capAt_near h80 hnear]
            exact (min_le_right _ _).trans (le_max_left _ _)
          · rw [capAt_met h100, capAt_met hmet]

/-- Apart from the floor of the last band, no cap is above the plan's fraction with its whole
boost. -/
theorem capAt_le_boosted (h : plan.GoalAdaptive) {progress : ℚ} (hp : 0 ≤ progress) :
    plan.capAt progress ≤ max (20 / 100) (plan.maxKellyFraction + plan.behindGoalBoost) := by
  rcases lt_or_ge progress 50 with h50 | h50
  · rw [capAt_behind h50]
    apply (min_le_right _ _).trans
    apply le_max_of_le_right
    have hdeficit : (50 - progress) / 50 ≤ 1 := by linarith
    linarith [mul_le_mul_of_nonneg_left hdeficit h.boost]
  · have hfraction : plan.maxKellyFraction ≤ plan.maxKellyFraction + plan.behindGoalBoost := by
      linarith [h.boost]
    rcases lt_or_ge progress 80 with h80 | h80
    · rw [capAt_halfway h50 h80]
      exact le_max_of_le_right hfraction
    · rcases lt_or_ge progress 100 with h100 | h100
      · rw [capAt_near h80 h100]
        apply max_le
        · exact le_max_of_le_left (by norm_num)
        · exact le_max_of_le_right (by linarith [h.dampen, h.boost])
      · rw [capAt_met h100]
        exact le_max_of_le_right ((min_le_left _ _).trans hfraction)

end Bands

/-! ### Profit -/

/-- What a plan's cap needs in order to fall with profit: no target at all, or a fraction that is
no less than the floor of the last band before the goal. -/
def CapitalPlan.FloorMet (plan : CapitalPlan) : Prop :=
  plan.targetProfitPct = 0 ∨ 15 / 100 ≤ plan.maxKellyFraction

instance (plan : CapitalPlan) : Decidable plan.FloorMet := inferInstanceAs (Decidable (_ ∨ _))

private theorem capAt_all_le_capAt_nothing {plan : CapitalPlan} (h : plan.GoalAdaptive) :
    min (85 / 100) (plan.capAt 100) ≤ min (85 / 100) (plan.capAt 0) := by
  rw [capAt_met (le_refl 100)]
  calc min (85 / 100) (min plan.maxKellyFraction (15 / 100))
      ≤ min (85 / 100) plan.maxKellyFraction := min_le_min_left _ (min_le_left _ _)
    _ = min (85 / 100) (min (85 / 100) plan.maxKellyFraction) := by rw [← min_assoc, min_self]
    _ ≤ min (85 / 100) (plan.capAt 0) :=
        min_le_min_left _ (min_fraction_le_capAt h (by norm_num))

private theorem capAt_progress_falls {plan : CapitalPlan} (h : plan.GoalAdaptive)
    (hfloor : plan.FloorMet) {b b' : CapitalBudget} (hb : b.plan = plan) (hb' : b'.plan = plan)
    (hle : b.realizedPnlUsd ≤ b'.realizedPnlUsd) :
    min (85 / 100) (plan.capAt b'.progressToGoalPct) ≤
      min (85 / 100) (plan.capAt b.progressToGoalPct) := by
  rcases hfloor with htarget | hfloor
  · subst hb
    rw [progressToGoalPct_of_no_target htarget, progressToGoalPct_of_no_target (hb'.symm ▸ htarget)]
    split
    · split
      · exact le_refl _
      · exact capAt_all_le_capAt_nothing h
    · next hneg => rw [if_neg (fun hpos ↦ hneg (hpos.trans hle))]
  · exact capAt_falls h hfloor (progressToGoalPct_mono (hb.trans hb'.symm) hle)

/-- The cap falls with profit exactly for the plans that meet the floor of the last band. -/
theorem fallsWithProfit_iff {plan : CapitalPlan} (h : plan.GoalAdaptive) :
    plan.FallsWithProfit ↔ plan.FloorMet := by
  constructor
  · intro hfalls
    by_contra hfloor
    obtain ⟨htarget, hlow⟩ := not_or.mp hfloor
    have hpos : 0 < plan.targetProfitPct := lt_of_le_of_ne plan.valid.2.1 (Ne.symm htarget)
    have hpnl : (plan.atProgress 60).realizedPnlUsd ≤ (plan.atProgress 80).realizedPnlUsd := by
      apply mul_le_mul_of_nonneg_left (by norm_num)
      exact (mul_pos plan.valid.1 (by positivity)).le
    have hcap := hfalls (plan.atProgress 60) (plan.atProgress 80) none rfl rfl hpnl
    rw [aggressionCap_eq h.mode, aggressionCap_eq h.mode,
      progressToGoalPct_atProgress hpos (by norm_num) (by norm_num),
      progressToGoalPct_atProgress hpos (by norm_num) (by norm_num)] at hcap
    -- At four fifths of the way the cap jumps to the floor, from the plan's smaller fraction.
    change clamped (plan.capAt 80) ≤ clamped (plan.capAt 60) at hcap
    rw [capAt_near (le_refl 80) (by norm_num), capAt_halfway (by norm_num) (by norm_num)] at hcap
    have hjump : 15 / 100 ≤
        clamped (max (15 / 100) (plan.maxKellyFraction - plan.aheadGoalDampen)) :=
      le_max_of_le_right (le_min (by norm_num) (le_max_left _ _))
    have hbefore : clamped plan.maxKellyFraction < 15 / 100 :=
      max_lt (by norm_num) (min_lt_of_right_lt (not_le.mp hlow))
    linarith
  · intro hfloor b b' minutesToClose hb hb' hle
    have hmode : b.plan.aggressionMode = "goal_adaptive" := by rw [hb, h.mode]
    have hmode' : b'.plan.aggressionMode = "goal_adaptive" := by rw [hb', h.mode]
    rw [aggressionCap_eq hmode, aggressionCap_eq hmode', hb, hb', ← clamped_timeLimited_min,
      ← clamped_timeLimited_min plan minutesToClose (plan.capAt b.progressToGoalPct)]
    apply clamped_mono
    apply timeLimited_mono
    exact capAt_progress_falls h hfloor hb hb' hle

/-! ### Time -/

/-- What a plan's cap needs in order to fall towards the close: a fraction no less than the limit of
the last half hour, or a boost that does not lift it above the limit of the half hour before. -/
def CapitalPlan.LimitsInOrder (plan : CapitalPlan) : Prop :=
  25 / 100 ≤ plan.maxKellyFraction ∨
    plan.maxKellyFraction + plan.behindGoalBoost ≤ max (20 / 100) plan.maxKellyFraction

instance (plan : CapitalPlan) : Decidable plan.LimitsInOrder :=
  inferInstanceAs (Decidable (_ ∨ _))

private theorem last_half_hour_le {plan : CapitalPlan} (h : plan.GoalAdaptive)
    (horder : plan.LimitsInOrder) {progress : ℚ} (hp : 0 ≤ progress) :
    min (plan.capAt progress) (25 / 100) ≤
      min (plan.capAt progress) (max (20 / 100) plan.maxKellyFraction) := by
  rcases horder with hfraction | hboost
  · exact min_le_min_left _ (hfraction.trans (le_max_right _ _))
  · have hcap : plan.capAt progress ≤ max (20 / 100) plan.maxKellyFraction :=
      (capAt_le_boosted h hp).trans (max_le (le_max_left _ _) hboost)
    rw [min_eq_left hcap]
    exact min_le_left _ _

/-- A budget of the plan after a loss. -/
def CapitalPlan.afterLoss (plan : CapitalPlan) : CapitalBudget :=
  { CapitalBudget.new plan with realizedPnlUsd := -1 }

/-- The cap falls towards the close exactly for the plans whose limits are in order. -/
theorem fallsTowardsClose_iff {plan : CapitalPlan} (h : plan.GoalAdaptive) :
    plan.FallsTowardsClose ↔ plan.LimitsInOrder := by
  constructor
  · intro hfalls
    by_contra horder
    obtain ⟨hfraction, hboost⟩ := not_or.mp horder
    rw [not_le] at hfraction hboost
    have hcap := hfalls plan.afterLoss 20 45 rfl (by norm_num)
    rw [aggressionCap_eq h.mode, aggressionCap_eq h.mode,
      progressToGoalPct_of_loss (b := plan.afterLoss) (by norm_num [afterLoss])] at hcap
    change clamped (plan.timeLimited (some 20) (plan.capAt 0)) ≤
      clamped (plan.timeLimited (some 45) (plan.capAt 0)) at hcap
    rw [timeLimited_last _ (by norm_num),
      timeLimited_lastHour _ (by norm_num) (by norm_num)] at hcap
    -- With nothing gained the boosted cap is above the earlier limit, which is the lower one.
    have hlimit : max (20 / 100) plan.maxKellyFraction < 25 / 100 := max_lt (by norm_num) hfraction
    have habove : max (20 / 100) plan.maxKellyFraction < plan.capAt 0 := by
      rw [capAt_behind (by norm_num)]
      apply lt_min
      · linarith
      · linarith
    have hearlier : clamped (min (plan.capAt 0) (max (20 / 100) plan.maxKellyFraction)) ≤
        max (20 / 100) plan.maxKellyFraction := by
      apply max_le
      · exact le_max_of_le_left (by norm_num)
      · exact (min_le_right _ _).trans (min_le_right _ _)
    have hlater : max (20 / 100) plan.maxKellyFraction <
        clamped (min (plan.capAt 0) (25 / 100)) := by
      apply lt_max_of_lt_right
      apply lt_min
      · linarith
      · exact lt_min habove hlimit
    linarith
  · intro horder b minutes minutes' hb hle
    have hmode : b.plan.aggressionMode = "goal_adaptive" := by rw [hb, h.mode]
    rw [aggressionCap_eq hmode, aggressionCap_eq hmode, hb]
    apply clamped_mono
    rcases lt_or_ge minutes' 30 with h30' | h30'
    · rw [timeLimited_last _ h30', timeLimited_last _ (by linarith)]
    · rcases lt_or_ge minutes' 60 with h60' | h60'
      · rw [timeLimited_lastHour _ h30' h60']
        rcases lt_or_ge minutes 30 with h30 | h30
        · rw [timeLimited_last _ h30]
          exact last_half_hour_le h horder (progressToGoalPct_nonneg b)
        · rw [timeLimited_lastHour _ h30 (by linarith)]
      · rw [timeLimited_before _ h60']
        exact timeLimited_le _ _ _

/-- The cap falls as the goal and the close approach exactly for the plans whose fraction meets the
floor of the last band and whose limits of the last hour are in order. -/
theorem aggressionCap_falls_iff {plan : CapitalPlan} (h : plan.GoalAdaptive) :
    plan.FallsWithProfit ∧ plan.FallsTowardsClose ↔ plan.FloorMet ∧ plan.LimitsInOrder :=
  and_congr (fallsWithProfit_iff h) (fallsTowardsClose_iff h)

/-- The default plan, with a fraction of one's own. -/
def CapitalPlan.sample (maxKellyFraction : ℚ) : CapitalPlan :=
  { authorizedUsd := 1000
    targetProfitPct := 20
    maxConcurrentPositions := 1
    maxContractsPerTrade := 20
    minContractsPerTrade := 1
    aggressionMode := "goal_adaptive"
    maxKellyFraction := maxKellyFraction
    minWinProbability := 45 / 100
    behindGoalBoost := 15 / 100
    aheadGoalDampen := 15 / 100
    valid := by norm_num }

private theorem goalAdaptive_sample {fraction : ℚ} (h0 : 0 ≤ fraction) (h1 : fraction ≤ 1) :
    (CapitalPlan.sample fraction).GoalAdaptive where
  mode := rfl
  boost := by norm_num [CapitalPlan.sample]
  dampen := by norm_num [CapitalPlan.sample]
  fraction_nonneg := h0
  fraction_le_one := h1

/-- At the default fraction the cap falls. -/
theorem aggressionCap_falls_default :
    (CapitalPlan.sample (35 / 100)).FallsWithProfit ∧
      (CapitalPlan.sample (35 / 100)).FallsTowardsClose :=
  (aggressionCap_falls_iff (goalAdaptive_sample (by norm_num) (by norm_num))).mpr
    ⟨by decide +kernel, by decide +kernel⟩

/-- A tenth as the fraction: the cap rises both at four fifths of the way to the goal, and when the
last half hour begins. -/
theorem not_aggressionCap_falls :
    (CapitalPlan.sample (1 / 10)).GoalAdaptive ∧
      ¬ (CapitalPlan.sample (1 / 10)).FallsWithProfit ∧
      ¬ (CapitalPlan.sample (1 / 10)).FallsTowardsClose := by
  have h : (CapitalPlan.sample (1 / 10)).GoalAdaptive :=
    goalAdaptive_sample (by norm_num) (by norm_num)
  refine ⟨h, ?_, ?_⟩
  · rw [fallsWithProfit_iff h]
    decide +kernel
  · rw [fallsTowardsClose_iff h]
    decide +kernel

end Joker.Risk
