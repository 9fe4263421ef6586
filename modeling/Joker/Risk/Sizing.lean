import Joker.Risk.AggressionCap

/-!
# Sizes and the aggression cap

Library `Risk`. What a sized entry costs. A size is the wanted number of contracts, held to what is
affordable and raised to the minimum, so it keeps to the plan's bounds and to the free capital. The
aggression cap limits the number that is wanted only where the decision leaves it to the budget; a
number that the decision asks for is held to no cap.
-/

namespace Joker.Risk
namespace CapitalBudget

/-- An entry meets every gate before its size is found. -/
structure Admits (b : CapitalBudget) (premium : ℚ) (hints : SizingHints) : Prop where
  free : b.canOpenPosition = true
  premium_pos : 0 < premium
  value_pos : ∀ v ∈ hints.expectedValueUsd, 0 < v
  likely : ∀ p ∈ hints.winProbability, b.plan.minWinProbability ≤ p
  affordable : b.plan.minContractsPerTrade ≤ b.maxAffordableContracts premium

/-- The contracts that the capped share of the free capital buys, and no fewer than the minimum. -/
def cappedContracts (b : CapitalBudget) (premium : ℚ) (hints : SizingHints) : ℤ :=
  max b.plan.minContractsPerTrade
    ⌊b.aggressionCap hints.minutesToClose * b.availableUsd / (premium * 100)⌋

/-- The contracts a decision asks for, as far as they are affordable, are within the cap. -/
def RequestWithinCap (b : CapitalBudget) (premium : ℚ) (hints : SizingHints) : Prop :=
  ∀ target ∈ hints.targetContracts,
    min target (b.maxAffordableContracts premium) ≤ b.cappedContracts premium hints

instance (b : CapitalBudget) (premium : ℚ) (hints : SizingHints) :
    Decidable (b.RequestWithinCap premium hints) := by
  unfold RequestWithinCap
  infer_instance

/-- A size keeps to the plan's bounds, to the free capital, and to the capped share of it or the
cost of the minimum. -/
structure KeepsToCap (b : CapitalBudget) (premium : ℚ) (hints : SizingHints)
    (result : AllocationResult) : Prop where
  min_le : b.plan.minContractsPerTrade ≤ result.quantity
  le_max : result.quantity ≤ b.plan.maxContractsPerTrade
  le_available : result.notionalUsd ≤ b.availableUsd
  le_cap : result.notionalUsd ≤ max (b.aggressionCap hints.minutesToClose * b.availableUsd)
    (b.plan.minContractsPerTrade * premium * 100)

private theorem availableUsd_nonneg (b : CapitalBudget) : 0 ≤ b.availableUsd := le_max_left _ _

/-- A plan asks for one contract at least. -/
theorem one_le_min (b : CapitalBudget) : 1 ≤ b.plan.minContractsPerTrade := b.plan.valid.2.2.2.2.1

/-! ### The gates -/

/-- An entry that meets the gates is sized. -/
theorem allocate_of_admits {b : CapitalBudget} {premium : ℚ} {hints : SizingHints}
    (h : b.Admits premium hints) : b.allocate premium hints = b.sized premium hints := by
  have hvalue : ¬ hints.expectedValueUsd.any (fun v ↦ v ≤ 0) = true := by
    rw [Option.any_eq_true_iff_get]
    rintro ⟨hv, hle⟩
    exact absurd (of_decide_eq_true hle) (not_le.mpr (h.value_pos _ (Option.get_mem hv)))
  have hlikely : ¬ hints.winProbability.any (fun p ↦ p < b.plan.minWinProbability) = true := by
    rw [Option.any_eq_true_iff_get]
    rintro ⟨hp, hlt⟩
    exact absurd (of_decide_eq_true hlt) (not_lt.mpr (h.likely _ (Option.get_mem hp)))
  unfold allocate
  rw [if_neg (by rw [h.free]; decide), if_neg (not_le.mpr h.premium_pos), if_neg hvalue,
    if_neg hlikely]

/-- An entry that is sized meets the gates. -/
theorem admits_of_ok {b : CapitalBudget} {premium : ℚ} {hints : SizingHints}
    (h : (b.allocate premium hints).reason = "ok") : b.Admits premium hints := by
  unfold allocate at h
  split at h
  · exact absurd h (by decide)
  split at h
  · exact absurd h (by decide)
  split at h
  · exact absurd h (by decide)
  split at h
  · exact absurd h (by decide)
  next hfree hpremium hvalue hlikely =>
  have haffordable : ¬ b.maxAffordableContracts premium < b.plan.minContractsPerTrade := by
    intro hlt
    unfold sized at h
    simp only [hlt, if_true] at h
    exact absurd h (by decide)
  refine ⟨Bool.not_eq_false _ |>.mp hfree, not_le.mp hpremium, ?_, ?_, not_lt.mp haffordable⟩
  · intro v hv
    by_contra hneg
    rw [Option.mem_def] at hv
    exact hvalue (by rw [hv]; exact decide_eq_true (not_lt.mp hneg))
  · intro p hp
    by_contra hneg
    rw [Option.mem_def] at hp
    exact hlikely (by rw [hp]; exact decide_eq_true (not_le.mp hneg))

/-! ### The size -/

/-- The number of contracts that is wanted, as far as it is affordable. -/
def wantedContracts (b : CapitalBudget) (premium : ℚ) (hints : SizingHints) : ℤ :=
  min (b.desiredContracts premium
      (min (scaledFraction hints) (b.aggressionCap hints.minutesToClose)) hints)
    (b.maxAffordableContracts premium)

section Size

variable {b : CapitalBudget} {premium : ℚ} {hints : SizingHints}

/-- A size is the wanted number raised to the minimum, unless the wanted number is below the minimum
and the fraction is not positive. -/
theorem sized_eq (h : b.Admits premium hints) :
    (b.wantedContracts premium hints < b.plan.minContractsPerTrade ∧
      b.sized premium hints = rejectedFor "qty_below_min") ∨
    b.sized premium hints =
      b.costed premium (max b.plan.minContractsPerTrade (b.wantedContracts premium hints)) := by
  have hmin := b.one_le_min
  unfold sized
  simp only [not_lt.mpr h.affordable, if_false]
  change (_ ∧ (if max 0 (b.wantedContracts premium hints) < b.plan.minContractsPerTrade then _
      else _) = _) ∨ (if max 0 (b.wantedContracts premium hints) < b.plan.minContractsPerTrade
      then _ else _) = _
  by_cases hlow : b.wantedContracts premium hints < b.plan.minContractsPerTrade
  · have hraised : max 0 (b.wantedContracts premium hints) < b.plan.minContractsPerTrade :=
      max_lt (by omega) hlow
    rw [if_pos hraised]
    split
    · right
      rw [max_eq_left hlow.le]
    · exact Or.inl ⟨hlow, rfl⟩
  · right
    have hpos : 0 ≤ b.wantedContracts premium hints := by omega
    rw [max_eq_right hpos, if_neg hlow, max_eq_right (not_lt.mp hlow)]
    exact congrArg (b.costed premium) (max_eq_right hpos)

/-- A positive number of contracts at a positive premium costs that many premiums. -/
theorem premiumCostUsd_of_pos (hp : 0 < premium) {quantity : ℤ} (hq : 1 ≤ quantity) :
    premiumCostUsd premium quantity = quantity * (premium * 100) := by
  unfold premiumCostUsd
  rw [max_eq_right hp.le, max_eq_right (by omega : 0 ≤ quantity), mul_comm]

/-- What is affordable costs no more than the free capital. -/
theorem cost_le_availableUsd (hp : 0 < premium) {quantity : ℤ} (hq : 1 ≤ quantity)
    (h : quantity ≤ b.maxAffordableContracts premium) :
    quantity * (premium * 100) ≤ b.availableUsd := by
  unfold maxAffordableContracts at h
  rw [if_neg (not_le.mpr hp)] at h
  have hfloor : quantity ≤ ⌊b.availableUsd / (premium * 100)⌋ := by
    rcases le_max_iff.mp h with hzero | hmin
    · omega
    · exact hmin.trans (min_le_left _ _)
  rw [Int.le_floor, le_div_iff₀ (by positivity)] at hfloor
  exact hfloor

/-- What is affordable is within the plan's maximum. -/
theorem maxAffordableContracts_le (b : CapitalBudget) (premium : ℚ) :
    b.maxAffordableContracts premium ≤ b.plan.maxContractsPerTrade := by
  have hmax : 1 ≤ b.plan.maxContractsPerTrade := b.plan.valid.2.2.2.1
  unfold maxAffordableContracts
  split
  · omega
  · exact max_le (by omega) (min_le_right _ _)

/-- An affordable number of contracts is sized at its cost. -/
theorem costed_of_affordable (hp : 0 < premium) {quantity : ℤ} (hq : 1 ≤ quantity)
    (h : quantity ≤ b.maxAffordableContracts premium) :
    b.costed premium quantity = ⟨quantity, quantity * (premium * 100), "ok"⟩ := by
  have hcost := cost_le_availableUsd hp hq h
  unfold costed
  simp only [premiumCostUsd_of_pos hp hq]
  rw [if_neg (by linarith)]

/-- A number of contracts costs no more than the capped share, or the minimum, exactly when it is
within the contracts these buy. -/
theorem cost_le_cap_iff (hp : 0 < premium) (quantity : ℤ) :
    quantity * (premium * 100) ≤ max (b.aggressionCap hints.minutesToClose * b.availableUsd)
        (b.plan.minContractsPerTrade * premium * 100) ↔
      quantity ≤ b.cappedContracts premium hints := by
  have hper : 0 < premium * 100 := by positivity
  unfold cappedContracts
  rw [le_max_iff, le_max_iff, or_comm, mul_assoc, mul_le_mul_iff_of_pos_right hper, Int.cast_le,
    Int.le_floor, le_div_iff₀ hper]

/-- A number of contracts that the budget itself finds is within the cap. -/
theorem wantedContracts_le_of_no_target (hp : 0 < premium) (h : hints.targetContracts = none) :
    b.wantedContracts premium hints ≤ b.cappedContracts premium hints := by
  have hper : 0 < premium * 100 := by positivity
  unfold wantedContracts desiredContracts cappedContracts
  simp only [h, hper, if_true]
  apply (min_le_left _ _).trans
  apply le_max_of_le_right
  apply Int.floor_le_floor
  apply div_le_div_of_nonneg_right _ hper.le
  rw [mul_comm]
  exact mul_le_mul_of_nonneg_right (min_le_right _ _) b.availableUsd_nonneg

/-- The wanted number is within the cap exactly when a request is. -/
theorem wantedContracts_le_iff (hp : 0 < premium) :
    b.wantedContracts premium hints ≤ b.cappedContracts premium hints ↔
      b.RequestWithinCap premium hints := by
  unfold RequestWithinCap
  cases h : hints.targetContracts with
  | none => exact iff_of_true (wantedContracts_le_of_no_target hp h) nofun
  | some target =>
    unfold wantedContracts desiredContracts
    simp only [h, Option.mem_def, Option.some.injEq, forall_eq']

end Size

/-- Every size with the reason ok keeps to the cap exactly when no admitted request is above it. -/
theorem allocate_keepsToCap_iff (b : CapitalBudget) (premium : ℚ) (hints : SizingHints) :
    ((b.allocate premium hints).reason = "ok" →
        b.KeepsToCap premium hints (b.allocate premium hints)) ↔
      (b.Admits premium hints → b.RequestWithinCap premium hints) := by
  by_cases h : b.Admits premium hints
  · have hmin := b.one_le_min
    rw [allocate_of_admits h, ← wantedContracts_le_iff h.premium_pos]
    rcases sized_eq h with ⟨hlow, hrejected⟩ | hcosted
    · rw [hrejected]
      refine iff_of_true (fun hok ↦ absurd hok (by decide)) (fun _ ↦ ?_)
      exact hlow.le.trans (le_max_left _ _)
    · have hle : max b.plan.minContractsPerTrade (b.wantedContracts premium hints) ≤
          b.maxAffordableContracts premium := max_le h.affordable (min_le_right _ _)
      have hone : 1 ≤ max b.plan.minContractsPerTrade (b.wantedContracts premium hints) :=
        hmin.trans (le_max_left _ _)
      rw [hcosted, costed_of_affordable h.premium_pos hone hle]
      constructor
      · intro hkeeps _
        have hcap := (cost_le_cap_iff h.premium_pos _).mp (hkeeps rfl).le_cap
        exact (le_max_right _ _).trans hcap
      · intro hwanted _
        exact
          { min_le := le_max_left _ _
            le_max := hle.trans (b.maxAffordableContracts_le premium)
            le_available := cost_le_availableUsd h.premium_pos hone hle
            le_cap := (cost_le_cap_iff h.premium_pos _).mpr
              (max_le (le_max_left _ _) (hwanted h)) }
  · exact iff_of_true (fun hok ↦ absurd (admits_of_ok hok) h) (fun hadmits ↦ absurd hadmits h)

/-- A decision for ten contracts, of which the default cap allows four. -/
def tenContracts : SizingHints :=
  { capitalFraction := none
    targetContracts := some 10
    confidence := 1 / 2
    allocationStyle := .auto
    winProbability := none
    expectedValueUsd := none
    expectedR := none
    minutesToClose := none }

/-- Ten contracts at a dollar each are the whole capital. -/
theorem not_keepsToCap_tenContracts :
    ((new (.sample (35 / 100))).allocate 1 tenContracts).reason = "ok" ∧
      ¬ (new (.sample (35 / 100))).KeepsToCap 1 tenContracts
        ((new (.sample (35 / 100))).allocate 1 tenContracts) := by
  refine ⟨by decide +kernel, ?_⟩
  intro h
  exact absurd h.le_cap (by decide +kernel)

end CapitalBudget
end Joker.Risk
