import Mathlib.Algebra.Order.Field.Basic
import Mathlib.Data.List.MinMax
import Mathlib.Tactic.Linarith
import Joker.Base.Runs
import Joker.Execution.ExitManager

/-!
# The trailing stop

Library `Execution`. A trade's stop over all of the premiums it sees. The peak is the highest of the
entry price and the premiums; once the gain at the peak is enough, the trail is active for good and
its stop is the larger of the initial stop and what the giveback leaves of the peak. The floor of
the late day is on from some minute until 16:00. None of the three falls, so neither does the stop
that is the highest of them.
-/

namespace Joker.Execution

open Joker.Base

/-- A trade as it is opened: nothing has been trailed yet. -/
structure OpenTradeContext.Untrailed (ctx : OpenTradeContext) : Prop where
  entry_pos : 0 < ctx.entryPrice
  no_peak : ctx.peakPremium = none
  inactive : ctx.trailActive = false
  no_stop : ctx.trailStopPrice = none

namespace ExitManager

/-- A trade after a sequence of premiums. -/
def trailed (manager : ExitManager) (ctx : OpenTradeContext) (premiums : List ℚ) :
    OpenTradeContext :=
  run manager.updateTrailing ctx premiums

/-- The highest of an entry price and the premiums. -/
def peakOf (entryPrice : ℚ) (premiums : List ℚ) : ℚ := premiums.foldl max entryPrice

/-- The gain at a peak activates the trail. -/
def Activates (manager : ExitManager) (entryPrice peak : ℚ) : Prop :=
  manager.trailActivateMfePct ≤ (peak - entryPrice) / entryPrice

instance (manager : ExitManager) (entryPrice peak : ℚ) :
    Decidable (manager.Activates entryPrice peak) := by
  unfold Activates
  infer_instance

/-- The trail's stop at a peak. -/
def stopAt (manager : ExitManager) (stopPrice peak : ℚ) : ℚ :=
  max stopPrice (peak * (1 - manager.trailGivebackPct))

/-! ### The peak -/

private theorem peakOf_snoc (entryPrice : ℚ) (premiums : List ℚ) (premium : ℚ) :
    peakOf entryPrice (premiums ++ [premium]) = max (peakOf entryPrice premiums) premium := by
  simp [peakOf, List.foldl_append]

/-- The peak is an upper bound. -/
theorem le_peakOf (entryPrice : ℚ) (premiums : List ℚ) :
    entryPrice ≤ peakOf entryPrice premiums ∧
      ∀ premium ∈ premiums, premium ≤ peakOf entryPrice premiums := by
  induction premiums using List.reverseRecOn with
  | nil => exact ⟨le_rfl, by simp⟩
  | append_singleton premiums last ih =>
    rw [peakOf_snoc]
    refine ⟨ih.1.trans (le_max_left _ _), ?_⟩
    intro premium hmem
    rcases List.mem_append.mp hmem with hbefore | hlast
    · exact (ih.2 premium hbefore).trans (le_max_left _ _)
    · rw [List.mem_singleton.mp hlast]
      exact le_max_right _ _

/-- The peak is reached. -/
theorem peakOf_mem (entryPrice : ℚ) (premiums : List ℚ) :
    peakOf entryPrice premiums ∈ entryPrice :: premiums := by
  induction premiums using List.reverseRecOn with
  | nil => exact List.mem_cons_self
  | append_singleton premiums last ih =>
    rw [peakOf_snoc]
    rcases max_choice (peakOf entryPrice premiums) last with hmax | hmax
    · rw [hmax, ← List.cons_append]
      exact List.mem_append_left _ ih
    · rw [hmax]
      simp

/-- More premiums do not lower the peak. -/
theorem peakOf_le_append (entryPrice : ℚ) (premiums more : List ℚ) :
    peakOf entryPrice premiums ≤ peakOf entryPrice (premiums ++ more) := by
  induction more using List.reverseRecOn with
  | nil => rw [List.append_nil]
  | append_singleton more last ih =>
    rw [← List.append_assoc, peakOf_snoc]
    exact ih.trans (le_max_left _ _)

/-! ### The trail -/

section Trail

variable {manager : ExitManager} {entryPrice stopPrice : ℚ}

/-- What activates the trail at some peak does so at every higher one. -/
theorem activates_mono (hentry : 0 < entryPrice) {low high : ℚ} (hle : low ≤ high)
    (h : manager.Activates entryPrice low) : manager.Activates entryPrice high := by
  unfold Activates at h ⊢
  apply h.trans
  apply div_le_div_of_nonneg_right _ hentry.le
  linarith

/-- The trail's stop does not fall with the peak. -/
theorem stopAt_mono (hgiveback : manager.trailGivebackPct ≤ 1) {low high : ℚ} (hle : low ≤ high) :
    manager.stopAt stopPrice low ≤ manager.stopAt stopPrice high := by
  unfold stopAt
  apply max_le_max le_rfl
  apply mul_le_mul_of_nonneg_right hle
  linarith

end Trail

/-- A trade's peak and trail, from the premiums alone. -/
structure Follows (manager : ExitManager) (ctx : OpenTradeContext) (premiums : List ℚ)
    (after : OpenTradeContext) : Prop where
  entryPrice_eq : after.entryPrice = ctx.entryPrice
  stopPrice_eq : after.stopPrice = ctx.stopPrice
  peakPremium_eq : after.peakPremium =
    if premiums = [] then none else some (peakOf ctx.entryPrice premiums)
  trailActive_iff : after.trailActive = true ↔
    premiums ≠ [] ∧ manager.Activates ctx.entryPrice (peakOf ctx.entryPrice premiums)
  trailStopPrice_eq : after.trailStopPrice =
    if after.trailActive then
      some (manager.stopAt ctx.stopPrice (peakOf ctx.entryPrice premiums)) else none

section Follows

variable {manager : ExitManager} {ctx after : OpenTradeContext} {premiums : List ℚ}

/-- Before the first premium the peak counts as the entry price. -/
theorem Follows.getD_peakPremium (h : manager.Follows ctx premiums after) :
    after.peakPremium.getD ctx.entryPrice = peakOf ctx.entryPrice premiums := by
  rw [h.peakPremium_eq]
  split
  · next hnil =>
    rw [hnil]
    rfl
  · rfl

/-- A stop that follows an older peak is raised to the one that follows the new peak. -/
theorem Follows.raisedStop_eq (h : manager.Follows ctx premiums after)
    (hgiveback : manager.trailGivebackPct ≤ 1) {peak : ℚ}
    (hle : peakOf ctx.entryPrice premiums ≤ peak) :
    manager.raisedStop after peak = manager.stopAt ctx.stopPrice peak := by
  unfold raisedStop
  rw [h.trailStopPrice_eq, h.stopPrice_eq]
  cases after.trailActive with
  | true => exact max_eq_right (stopAt_mono hgiveback hle)
  | false => rfl

/-- One more premium. The trail may be activated by it, and once active it stays so, as the peak
does not fall. -/
theorem Follows.updateTrailing (h : manager.Follows ctx premiums after)
    (hentry : 0 < ctx.entryPrice) (hgiveback : manager.trailGivebackPct ≤ 1) (premium : ℚ) :
    manager.Follows ctx (premiums ++ [premium]) (manager.updateTrailing after premium) := by
  have hpeak : max (after.peakPremium.getD ctx.entryPrice) premium =
      peakOf ctx.entryPrice (premiums ++ [premium]) := by
    rw [h.getD_peakPremium, peakOf_snoc]
  have hle : peakOf ctx.entryPrice premiums ≤ peakOf ctx.entryPrice (premiums ++ [premium]) :=
    peakOf_le_append _ _ _
  have hsnoc : premiums ++ [premium] ≠ [] := by simp
  unfold ExitManager.updateTrailing
  simp only [h.entryPrice_eq, hpeak]
  by_cases hactive :
      manager.Activates ctx.entryPrice (peakOf ctx.entryPrice (premiums ++ [premium]))
  · rw [if_pos ⟨hentry, hactive⟩]
    exact
      { entryPrice_eq := rfl
        stopPrice_eq := h.stopPrice_eq
        peakPremium_eq := (if_neg hsnoc).symm
        trailActive_iff := iff_of_true rfl ⟨hsnoc, hactive⟩
        trailStopPrice_eq := congrArg some (h.raisedStop_eq hgiveback hle) }
  · rw [if_neg (fun hpos ↦ hactive hpos.2)]
    have hinactive : after.trailActive = false := by
      rw [← Bool.not_eq_true, h.trailActive_iff]
      exact fun hbefore ↦ hactive (activates_mono hentry hle hbefore.2)
    exact
      { entryPrice_eq := rfl
        stopPrice_eq := h.stopPrice_eq
        peakPremium_eq := (if_neg hsnoc).symm
        trailActive_iff := iff_of_false (by simp [hinactive]) (fun hpos ↦ hactive hpos.2)
        trailStopPrice_eq := by
          change after.trailStopPrice = _
          rw [h.trailStopPrice_eq]
          simp [hinactive] }

end Follows

/-- A trade that is opened untrailed follows its premiums. -/
theorem follows_trailed {manager : ExitManager} {ctx : OpenTradeContext} (h : ctx.Untrailed)
    (hgiveback : manager.trailGivebackPct ≤ 1) (premiums : List ℚ) :
    manager.Follows ctx premiums (manager.trailed ctx premiums) := by
  induction premiums using List.reverseRecOn with
  | nil =>
    exact
      { entryPrice_eq := rfl
        stopPrice_eq := rfl
        peakPremium_eq := h.no_peak
        trailActive_iff := iff_of_false (by simp [trailed, h.inactive]) (by simp)
        trailStopPrice_eq := by simp [trailed, h.no_stop, h.inactive] }
  | append_singleton premiums last ih =>
    unfold trailed at ih ⊢
    rw [run_snoc]
    exact ih.updateTrailing h.entry_pos hgiveback last

/-! ### The stop that is in force -/

/-- The stop of a trade that follows its premiums, trail included. -/
theorem Follows.trailedStop_eq {manager : ExitManager} {ctx after : OpenTradeContext}
    {premiums : List ℚ} (h : manager.Follows ctx premiums after) :
    trailedStop after =
      if after.trailActive then manager.stopAt ctx.stopPrice (peakOf ctx.entryPrice premiums)
      else ctx.stopPrice := by
  unfold trailedStop
  rw [h.trailStopPrice_eq, h.stopPrice_eq]
  cases after.trailActive with
  | true => exact max_eq_right (le_max_left _ _)
  | false => rfl

/-- Between two readings of the exchange's clock up to 16:00, the floor of the late day is not
taken away. -/
theorem effectiveStop_mono {manager : ExitManager} {before after : OpenTradeContext}
    {earlier later : ExchangeTime} (hentry : after.entryPrice = before.entryPrice)
    (hstop : trailedStop before ≤ trailedStop after)
    (hle : earlier.timeOfDay ≤ later.timeOfDay) (hclose : later.timeOfDay / 60000000 ≤ 16 * 60) :
    manager.effectiveStop before earlier ≤ manager.effectiveStop after later := by
  have hminutes : minutesToClose later ≤ minutesToClose earlier := by
    unfold minutesToClose
    omega
  have hopen : 0 ≤ minutesToClose later := by
    unfold minutesToClose
    omega
  unfold effectiveStop
  simp only [hentry]
  by_cases hfloor : (0 : ℚ) ≤ minutesToClose earlier ∧
      (minutesToClose earlier : ℚ) ≤ manager.lateDayTightenMinutes ∧ 0 < before.entryPrice
  · have hstays : (0 : ℚ) ≤ minutesToClose later ∧
        (minutesToClose later : ℚ) ≤ manager.lateDayTightenMinutes ∧ 0 < before.entryPrice := by
      refine ⟨by exact_mod_cast hopen, ?_, hfloor.2.2⟩
      exact (by exact_mod_cast hminutes : (minutesToClose later : ℚ) ≤ minutesToClose earlier).trans
        hfloor.2.1
    rw [if_pos hfloor, if_pos hstays]
    exact max_le_max hstop le_rfl
  · rw [if_neg hfloor]
    split
    · exact hstop.trans (le_max_left _ _)
    · exact hstop

/-- Stops never loosen: over all premiums the peak is the highest of the entry price and the
premiums, an active trail stays active with the stop that the peak gives, and neither this stop nor
the one in force at the time ever falls. -/
theorem stops_never_loosen (manager : ExitManager) {ctx : OpenTradeContext} (h : ctx.Untrailed)
    (hgiveback : manager.trailGivebackPct ≤ 1) (premiums more : List ℚ) :
    IsGreatest {premium | premium ∈ ctx.entryPrice :: premiums}
        ((manager.trailed ctx premiums).peakPremium.getD ctx.entryPrice) ∧
      (premiums ≠ [] → (manager.trailed ctx premiums).peakPremium.isSome) ∧
      ((manager.trailed ctx premiums).trailActive →
        (manager.trailed ctx premiums).trailStopPrice = some (max ctx.stopPrice
          ((manager.trailed ctx premiums).peakPremium.getD ctx.entryPrice *
            (1 - manager.trailGivebackPct))) ∧
        (manager.trailed ctx (premiums ++ more)).trailActive ∧
        ∃ stop higher, (manager.trailed ctx premiums).trailStopPrice = some stop ∧
          (manager.trailed ctx (premiums ++ more)).trailStopPrice = some higher ∧
          stop ≤ higher) ∧
      ∀ earlier later : ExchangeTime, earlier.timeOfDay ≤ later.timeOfDay →
        later.timeOfDay / 60000000 ≤ 16 * 60 →
        manager.effectiveStop (manager.trailed ctx premiums) earlier ≤
          manager.effectiveStop (manager.trailed ctx (premiums ++ more)) later := by
  have hbefore := follows_trailed h hgiveback premiums
  have hafter := follows_trailed h hgiveback (premiums ++ more)
  have hpeak := peakOf_le_append ctx.entryPrice premiums more
  have hstays : (manager.trailed ctx premiums).trailActive = true →
      (manager.trailed ctx (premiums ++ more)).trailActive = true := by
    rw [hbefore.trailActive_iff, hafter.trailActive_iff]
    rintro ⟨hsome, hactive⟩
    exact ⟨by simp [hsome], activates_mono h.entry_pos hpeak hactive⟩
  refine ⟨?_, ?_, ?_, ?_⟩
  · rw [hbefore.getD_peakPremium]
    refine ⟨peakOf_mem _ _, ?_⟩
    intro premium hmem
    rcases List.mem_cons.mp hmem with rfl | hmem
    · exact (le_peakOf _ _).1
    · exact (le_peakOf _ _).2 premium hmem
  · intro hsome
    rw [hbefore.peakPremium_eq, if_neg hsome]
    rfl
  · intro hactive
    have hlater := hstays hactive
    rw [hbefore.getD_peakPremium, hbefore.trailStopPrice_eq, hafter.trailStopPrice_eq,
      if_pos hactive, if_pos hlater]
    exact ⟨rfl, hlater, _, _, rfl, rfl, stopAt_mono hgiveback hpeak⟩
  · intro earlier later hle hclose
    apply effectiveStop_mono _ _ hle hclose
    · rw [hbefore.entryPrice_eq, hafter.entryPrice_eq]
    · rw [hbefore.trailedStop_eq, hafter.trailedStop_eq]
      split
      · next hactive =>
        rw [if_pos (hstays hactive)]
        exact stopAt_mono hgiveback hpeak
      · split
        · exact le_max_left _ _
        · exact le_rfl

/-- The manager with its defaults. -/
def byDefault : ExitManager :=
  { eodTime := (15 * 60 + 55) * 60000000
    trailActivateMfePct := 35 / 100
    trailGivebackPct := 20 / 100
    lateDayTightenMinutes := 45
    lateDayStopFloorPct := 35 / 100 }

/-- A trade opened at two dollars. -/
def openedTrade : OpenTradeContext :=
  { positionId := "p"
    entryPrice := 2
    stopPrice := 1
    takeProfitPrice := 4
    entryTime := ⟨2026, 7, 1, 10, 0, 0, 0, some (-14400)⟩
    timeStopMinutes := none
    invalidated := false
    quantity := 1
    reservedNotionalUsd := 200
    peakPremium := none
    trailActive := false
    trailStopPrice := none }

private theorem untrailed_openedTrade : openedTrade.Untrailed where
  entry_pos := by decide +kernel
  no_peak := rfl
  inactive := rfl
  no_stop := rfl

/-- A premium of three activates the trail; what follows, a fall and a new peak, leaves the stop
where it is or raises it, before 15:15 and after. -/
theorem stops_never_loosen_openedTrade :
    byDefault.effectiveStop (byDefault.trailed openedTrade [3])
        ⟨⟨2026, 7, 1, 14, 0, 0, 0, some (-14400)⟩, 14 * 60 * 60000000⟩ ≤
      byDefault.effectiveStop (byDefault.trailed openedTrade ([3] ++ [1, 7 / 2]))
        ⟨⟨2026, 7, 1, 16, 0, 0, 0, some (-14400)⟩, 16 * 60 * 60000000⟩ :=
  (byDefault.stops_never_loosen untrailed_openedTrade (by decide +kernel) [3] [1, 7 / 2]).2.2.2 _ _
    (by decide) (by decide)

end ExitManager
end Joker.Execution
