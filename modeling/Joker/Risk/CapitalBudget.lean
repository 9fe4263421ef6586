import Mathlib.Algebra.Order.Floor.Defs
import Mathlib.Data.Rat.Floor
import Mathlib.Tactic.Linarith
import Mathlib.Tactic.Positivity

/-!
# Capital budget

Library `Risk`. The session's capital budget of `joker/risk/capital.py`, in exact arithmetic: the
sizing of an entry under the capital ceiling and its gates, and the reservations. A size of at
least one contract is a positive notional that the free capital covers.
-/

namespace Joker.Risk

/-- `CapitalPlan`, with what `__post_init__` checks. Source `joker/risk/capital.py:15–47`. -/
structure CapitalPlan where
  authorizedUsd : ℚ
  targetProfitPct : ℚ
  maxConcurrentPositions : ℤ
  maxContractsPerTrade : ℤ
  minContractsPerTrade : ℤ
  aggressionMode : String
  maxKellyFraction : ℚ
  minWinProbability : ℚ
  behindGoalBoost : ℚ
  aheadGoalDampen : ℚ
  valid : 0 < authorizedUsd ∧ 0 ≤ targetProfitPct ∧ 1 ≤ maxConcurrentPositions ∧
    1 ≤ maxContractsPerTrade ∧ 1 ≤ minContractsPerTrade ∧
    minContractsPerTrade ≤ maxContractsPerTrade

/-- `CapitalBudget`. Source `joker/risk/capital.py:62–292`. -/
structure CapitalBudget where
  plan : CapitalPlan
  reservedUsd : ℚ
  realizedPnlUsd : ℚ
  tradesOpened : ℤ
  openPositions : ℤ

/-- `CapitalError`, in its two places. Source `joker/risk/capital.py:10–11`. -/
inductive CapitalError where
  | negativeNotional
  | exceedsAvailable
  deriving DecidableEq, Repr

/-- The `allocation_style` of a decision. -/
inductive AllocationStyle where
  | auto
  | aggressive
  | split
  | conservative
  deriving DecidableEq, Repr

/-- What an agent's decision says about the size of an entry. -/
structure SizingHints where
  capitalFraction : Option ℚ
  targetContracts : Option ℤ
  confidence : ℚ
  allocationStyle : AllocationStyle
  winProbability : Option ℚ
  expectedValueUsd : Option ℚ
  expectedR : Option ℚ
  minutesToClose : Option ℚ

/-- `AllocationResult`, as far as an entry reads it. Source `joker/risk/capital.py:51–58`. -/
structure AllocationResult where
  quantity : ℤ
  notionalUsd : ℚ
  reason : String
  deriving DecidableEq

namespace CapitalBudget

/-- The budget of a plan. -/
def new (plan : CapitalPlan) : CapitalBudget := ⟨plan, 0, 0, 0, 0⟩

/-- `available_usd`. Source `joker/risk/capital.py:81–82`. -/
def availableUsd (b : CapitalBudget) : ℚ := max 0 (b.plan.authorizedUsd - b.reservedUsd)

/-- `target_profit_usd`. Source `joker/risk/capital.py:46–47, 85–86`. -/
def targetProfitUsd (b : CapitalBudget) : ℚ :=
  b.plan.authorizedUsd * (b.plan.targetProfitPct / 100)

/-- `progress_to_goal_pct`. Source `joker/risk/capital.py:89–93`. -/
def progressToGoalPct (b : CapitalBudget) : ℚ :=
  if b.targetProfitUsd ≤ 0 then if 0 ≤ b.realizedPnlUsd then 100 else 0
  else max 0 (min 200 (b.realizedPnlUsd / b.targetProfitUsd * 100))

/-- `goal_met`. Source `joker/risk/capital.py:96–97`. -/
def goalMet (b : CapitalBudget) : Bool := b.targetProfitUsd ≤ b.realizedPnlUsd

/-- The cap by goal progress alone. -/
def progressCap (b : CapitalBudget) : ℚ :=
  let base := b.plan.maxKellyFraction
  let progress := b.progressToGoalPct
  if progress < 50 then min (85 / 100) (base + b.plan.behindGoalBoost * ((50 - progress) / 50))
  else if 100 ≤ progress then min base (15 / 100)
  else if 80 ≤ progress then max (15 / 100) (base - b.plan.aheadGoalDampen)
  else base

/-- `aggression_cap`. Source `joker/risk/capital.py:104–130`. -/
def aggressionCap (b : CapitalBudget) (minutesToClose : Option ℚ) : ℚ :=
  let base := b.plan.maxKellyFraction
  if b.plan.aggressionMode ≠ "goal_adaptive" then base
  else
    let cap := match minutesToClose with
      | none => b.progressCap
      | some minutes =>
        if minutes < 30 then min b.progressCap (25 / 100)
        else if minutes < 60 then min b.progressCap (max (20 / 100) base)
        else b.progressCap
    max (5 / 100) (min (85 / 100) cap)

/-- `can_open_position`. Source `joker/risk/capital.py:165–166`. -/
def canOpenPosition (b : CapitalBudget) : Bool := b.openPositions < b.plan.maxConcurrentPositions

/-- `premium_cost_usd`. Source `joker/risk/capital.py:168–169`. -/
def premiumCostUsd (premiumPerContract : ℚ) (quantity : ℤ) : ℚ :=
  max 0 premiumPerContract * 100 * (max 0 quantity : ℤ)

/-- `max_affordable_contracts`. Source `joker/risk/capital.py:171–178`. -/
def maxAffordableContracts (b : CapitalBudget) (premiumPerContract : ℚ) : ℤ :=
  if premiumPerContract ≤ 0 then 0
  else max 0 (min ⌊b.availableUsd / (premiumPerContract * 100)⌋ b.plan.maxContractsPerTrade)

/-- The fraction by the decision's own fraction or its style. -/
def styleFraction (hints : SizingHints) : ℚ :=
  match hints.capitalFraction with
  | some fraction => max 0 (min 1 fraction)
  | none =>
    match hints.allocationStyle with
    | .aggressive => min 1 (7 / 10 + 3 / 10 * hints.confidence)
    | .conservative => min (35 / 100) (15 / 100 + 25 / 100 * hints.confidence)
    | .split => min (55 / 100) (25 / 100 + 4 / 10 * hints.confidence)
    | .auto => min (85 / 100) (2 / 10 + 7 / 10 * hints.confidence)

/-- The fraction scaled by what the decision expects. -/
def scaledFraction (hints : SizingHints) : ℚ :=
  let frac := styleFraction hints
  let frac := match hints.expectedR with
    | some r => if 0 < r then min 1 (frac * min (15 / 10) (5 / 10 + r / 2)) else frac
    | none => frac
  match hints.winProbability with
  | none => frac
  | some p =>
    match hints.expectedR with
    | some r =>
      if 0 < r then min frac (max (5 / 100) (max 0 (p - (1 - p) / max r (1 / 10))))
      else frac * (5 / 10 + 5 / 10 * p)
    | none => frac * (5 / 10 + 5 / 10 * p)

/-- The quantity before the minimum is applied. -/
def desiredContracts (b : CapitalBudget) (premiumPerContract frac : ℚ) (hints : SizingHints) : ℤ :=
  match hints.targetContracts with
  | some target => target
  | none =>
    let per := premiumPerContract * 100
    if 0 < per then ⌊b.availableUsd * frac / per⌋ else 0

/-- A rejection by a gate. -/
def rejectedFor (reason : String) : AllocationResult := ⟨0, 0, reason⟩

/-- The end of `allocate`: the notional of a quantity. -/
def costed (b : CapitalBudget) (premiumPerContract : ℚ) (quantity : ℤ) : AllocationResult :=
  let notional := premiumCostUsd premiumPerContract quantity
  if b.availableUsd + 1 / 1000000 < notional then rejectedFor "capital_exceeded"
  else ⟨quantity, notional, "ok"⟩

/-- `allocate` behind its gates. Source `joker/risk/capital.py:180–276`. -/
def sized (b : CapitalBudget) (premiumPerContract : ℚ) (hints : SizingHints) : AllocationResult :=
  let maxQty := b.maxAffordableContracts premiumPerContract
  if maxQty < b.plan.minContractsPerTrade then rejectedFor "insufficient_capital"
  else
    let frac := min (scaledFraction hints) (b.aggressionCap hints.minutesToClose)
    let qty := max 0 (min (b.desiredContracts premiumPerContract frac hints) maxQty)
    if qty < b.plan.minContractsPerTrade then
      if 0 < frac ∧ b.plan.minContractsPerTrade ≤ maxQty then
        b.costed premiumPerContract b.plan.minContractsPerTrade
      else rejectedFor "qty_below_min"
    else b.costed premiumPerContract qty

/-- `allocate`. Source `joker/risk/capital.py:180–276`. -/
def allocate (b : CapitalBudget) (premiumPerContract : ℚ) (hints : SizingHints) :
    AllocationResult :=
  if b.canOpenPosition = false then rejectedFor "max_concurrent_positions"
  else if premiumPerContract ≤ 0 then rejectedFor "invalid_premium"
  else if hints.expectedValueUsd.any (fun v ↦ v ≤ 0) then rejectedFor "ev_non_positive"
  else if hints.winProbability.any (fun p ↦ p < b.plan.minWinProbability) then
    rejectedFor "win_probability_low"
  else b.sized premiumPerContract hints

/-- `reserve`. Source `joker/risk/capital.py:278–287`. -/
def reserve (b : CapitalBudget) (notionalUsd : ℚ) : Except CapitalError CapitalBudget :=
  if notionalUsd < 0 then .error .negativeNotional
  else if b.availableUsd + 1 / 1000000 < notionalUsd then .error .exceedsAvailable
  else
    .ok { b with
      reservedUsd := b.reservedUsd + notionalUsd
      openPositions := b.openPositions + 1
      tradesOpened := b.tradesOpened + 1 }

/-- `release`. Source `joker/risk/capital.py:289–292`. -/
def release (b : CapitalBudget) (notionalUsd realizedPnlUsd : ℚ) : CapitalBudget :=
  { b with
    reservedUsd := max 0 (b.reservedUsd - max 0 notionalUsd)
    openPositions := max 0 (b.openPositions - 1)
    realizedPnlUsd := b.realizedPnlUsd + realizedPnlUsd }

/-! ### Sizes and reservations -/

/-- A budget releases all of what it has reserved. -/
theorem reservedUsd_release_self {b : CapitalBudget} {notional : ℚ}
    (h : b.reservedUsd = notional) (realized : ℚ) :
    (b.release notional realized).reservedUsd = 0 := by
  change max 0 (b.reservedUsd - max 0 notional) = 0
  rw [h]
  apply max_eq_left
  have := le_max_right 0 notional
  linarith

/-- A reservation adds to what is reserved and books nothing. -/
theorem reserve_eq_ok {b b' : CapitalBudget} {notional : ℚ} (h : b.reserve notional = .ok b') :
    b'.reservedUsd = b.reservedUsd + notional ∧ b'.realizedPnlUsd = b.realizedPnlUsd := by
  unfold reserve at h
  split at h
  · cases h
  · split at h
    · cases h
    · cases h
      exact ⟨rfl, rfl⟩

private theorem costed_pos {b : CapitalBudget} {premium : ℚ} {quantity : ℤ} (hp : 0 < premium)
    (h : 1 ≤ (b.costed premium quantity).quantity) :
    0 < (b.costed premium quantity).notionalUsd ∧
      (b.costed premium quantity).notionalUsd ≤ b.availableUsd + 1 / 1000000 := by
  unfold costed at h ⊢
  simp only at h ⊢
  split
  · next hx =>
    rw [if_pos hx] at h
    exact absurd h (by decide)
  · next hx =>
    rw [if_neg hx] at h
    change 1 ≤ quantity at h
    refine ⟨?_, not_lt.mp hx⟩
    unfold premiumCostUsd
    rw [max_eq_right hp.le, max_eq_right (by omega : 0 ≤ quantity)]
    have hq : (0 : ℚ) < quantity := by exact_mod_cast (by omega : 0 < quantity)
    positivity

private theorem sized_cases (b : CapitalBudget) (premium : ℚ) (hints : SizingHints) :
    (∃ reason, b.sized premium hints = rejectedFor reason) ∨
      ∃ quantity, b.sized premium hints = b.costed premium quantity := by
  unfold sized
  simp only
  split
  · exact Or.inl ⟨_, rfl⟩
  · split
    · split
      · exact Or.inr ⟨_, rfl⟩
      · exact Or.inl ⟨_, rfl⟩
    · exact Or.inr ⟨_, rfl⟩

/-- An entry is rejected by a gate, or costed at a positive premium. -/
theorem allocate_cases (b : CapitalBudget) (premium : ℚ) (hints : SizingHints) :
    (∃ reason, b.allocate premium hints = rejectedFor reason) ∨
      0 < premium ∧ ∃ quantity, b.allocate premium hints = b.costed premium quantity := by
  unfold allocate
  split
  · exact Or.inl ⟨_, rfl⟩
  · split
    · exact Or.inl ⟨_, rfl⟩
    · next hp =>
      split
      · exact Or.inl ⟨_, rfl⟩
      · split
        · exact Or.inl ⟨_, rfl⟩
        · exact (b.sized_cases premium hints).imp_right (fun h ↦ ⟨not_le.mp hp, h⟩)

/-- A size of at least one contract has a positive notional within the free capital, which a
reservation accepts. -/
theorem allocate_pos {b : CapitalBudget} {premium : ℚ} {hints : SizingHints}
    (h : 1 ≤ (b.allocate premium hints).quantity) :
    0 < (b.allocate premium hints).notionalUsd ∧
      (b.allocate premium hints).notionalUsd ≤ b.availableUsd + 1 / 1000000 := by
  rcases b.allocate_cases premium hints with ⟨reason, hrejected⟩ | ⟨hp, quantity, hcosted⟩
  · rw [hrejected] at h
    change (1 : ℤ) ≤ 0 at h
    omega
  · rw [hcosted] at h ⊢
    exact costed_pos hp h

end CapitalBudget
end Joker.Risk
