import Mathlib.Algebra.BigOperators.Group.List.Basic
import Joker.Base.Runs
import Joker.Risk.Sizing

/-!
# Reservations of a session

Library `Risk`. The capital that several open trades hold at once. A session pairs the budget with
the amounts reserved and not yet released. Neither `reserve` nor `release` looks at the number of
positions, and `release` clamps at zero: that the budget is the sum of what is outstanding rests on
what a sized entry promises, and on each release giving back an amount that is held.
-/

namespace Joker.Risk

open Joker.Base

/-- A call that changes what the budget has reserved. -/
inductive ReservationCall where
  | reserve (notionalUsd : ℚ)
  | release (notionalUsd realizedPnlUsd : ℚ)
  deriving DecidableEq

/-- A budget, and the amounts that are reserved and not yet released. -/
structure ReservedSession where
  budget : CapitalBudget
  outstanding : List ℚ

namespace ReservedSession

/-- The session of a plan before any trade. -/
def opened (plan : CapitalPlan) : ReservedSession := ⟨.new plan, []⟩

/-- One call. A refused reservation changes nothing. -/
def step (s : ReservedSession) : ReservationCall → ReservedSession
  | .reserve notionalUsd =>
    match s.budget.reserve notionalUsd with
    | .ok budget => ⟨budget, notionalUsd :: s.outstanding⟩
    | .error _ => s
  | .release notionalUsd realizedPnlUsd =>
    ⟨s.budget.release notionalUsd realizedPnlUsd, s.outstanding.erase notionalUsd⟩

/-- A reservation is of a notional that the budget has just sized; a release is of an amount that
is outstanding. -/
def Proper (s : ReservedSession) : ReservationCall → Prop
  | .reserve notionalUsd =>
    ∃ premium hints, (s.budget.allocate premium hints).reason = "ok" ∧
      (s.budget.allocate premium hints).notionalUsd = notionalUsd
  | .release notionalUsd _ => notionalUsd ∈ s.outstanding

/-- The budget of a plan holds exactly what is outstanding, within the plan's limits. -/
structure Balanced (plan : CapitalPlan) (s : ReservedSession) : Prop where
  plan_eq : s.budget.plan = plan
  reserved_eq_sum : s.budget.reservedUsd = s.outstanding.sum
  reserved_nonneg : 0 ≤ s.budget.reservedUsd
  reserved_le_authorized : s.budget.reservedUsd ≤ plan.authorizedUsd
  open_eq_length : s.budget.openPositions = s.outstanding.length
  open_le_max : s.budget.openPositions ≤ plan.maxConcurrentPositions

end ReservedSession

namespace CapitalBudget

variable {b : CapitalBudget} {premium : ℚ} {hints : SizingHints}

/-- An entry that is sized is an affordable number of contracts at their cost. -/
theorem allocate_of_ok (h : (b.allocate premium hints).reason = "ok") :
    ∃ quantity : ℤ, 1 ≤ quantity ∧ quantity ≤ b.maxAffordableContracts premium ∧
      b.allocate premium hints = ⟨quantity, quantity * (premium * 100), "ok"⟩ := by
  have hadmits := admits_of_ok h
  have hone := b.one_le_min
  rw [allocate_of_admits hadmits] at h ⊢
  rcases sized_eq hadmits with ⟨-, hrejected⟩ | hcosted
  · rw [hrejected] at h
    exact absurd h (by decide)
  · have hle : max b.plan.minContractsPerTrade (b.wantedContracts premium hints) ≤
        b.maxAffordableContracts premium := max_le hadmits.affordable (min_le_right _ _)
    refine ⟨_, hone.trans (le_max_left _ _), hle, ?_⟩
    rw [hcosted]
    exact costed_of_affordable hadmits.premium_pos (hone.trans (le_max_left _ _)) hle

/-- The notional of a sized entry is not negative, and the free capital covers it. -/
theorem notionalUsd_of_ok (h : (b.allocate premium hints).reason = "ok") :
    0 ≤ (b.allocate premium hints).notionalUsd ∧
      (b.allocate premium hints).notionalUsd ≤ b.availableUsd := by
  have hpremium := (admits_of_ok h).premium_pos
  obtain ⟨quantity, hone, hle, hsized⟩ := allocate_of_ok h
  rw [hsized]
  have hquantity : (0 : ℚ) ≤ quantity := by exact_mod_cast (by omega : 0 ≤ quantity)
  constructor
  · change 0 ≤ quantity * (premium * 100)
    positivity
  · exact cost_le_availableUsd hpremium hone hle

/-- What the free capital covers is reserved. -/
theorem reserve_of_le {notional : ℚ} (h0 : 0 ≤ notional) (hle : notional ≤ b.availableUsd) :
    b.reserve notional = .ok { b with
      reservedUsd := b.reservedUsd + notional
      openPositions := b.openPositions + 1
      tradesOpened := b.tradesOpened + 1 } := by
  unfold reserve
  rw [if_neg (not_lt.mpr h0), if_neg (by linarith)]

end CapitalBudget

namespace ReservedSession

open CapitalBudget

variable {plan : CapitalPlan} {s : ReservedSession}

/-- A session is balanced, and no amount in it is negative. -/
structure Sound (plan : CapitalPlan) (s : ReservedSession) : Prop extends Balanced plan s where
  amounts_nonneg : ∀ amount ∈ s.outstanding, 0 ≤ amount

/-- Nothing is reserved before the first trade. -/
theorem sound_opened (plan : CapitalPlan) : Sound plan (opened plan) where
  plan_eq := rfl
  reserved_eq_sum := rfl
  reserved_nonneg := le_rfl
  reserved_le_authorized := plan.valid.1.le
  open_eq_length := rfl
  open_le_max := by
    change (0 : ℤ) ≤ plan.maxConcurrentPositions
    have := plan.valid.2.2.1
    omega
  amounts_nonneg := by
    intro amount hmem
    cases hmem

/-- Within the authorized capital, what is free is what is not reserved. -/
theorem availableUsd_of_balanced (h : Balanced plan s) :
    s.budget.availableUsd = plan.authorizedUsd - s.budget.reservedUsd := by
  unfold availableUsd
  rw [h.plan_eq]
  apply max_eq_right
  linarith [h.reserved_le_authorized]

/-- The reservation of a sized entry is never refused, and it keeps the session sound. -/
theorem sound_reserve (h : Sound plan s) {notional : ℚ} (hproper : s.Proper (.reserve notional)) :
    Sound plan (s.step (.reserve notional)) := by
  obtain ⟨premium, hints, hok, rfl⟩ := hproper
  obtain ⟨hnonneg, hle⟩ := notionalUsd_of_ok hok
  have hfree : s.budget.openPositions < s.budget.plan.maxConcurrentPositions :=
    of_decide_eq_true (admits_of_ok hok).free
  unfold step
  simp only [reserve_of_le hnonneg hle]
  rw [availableUsd_of_balanced h.toBalanced] at hle
  rw [h.plan_eq] at hfree
  exact
    { plan_eq := h.plan_eq
      reserved_eq_sum := by
        rw [List.sum_cons, ← h.reserved_eq_sum, add_comm]
      reserved_nonneg := add_nonneg h.reserved_nonneg hnonneg
      reserved_le_authorized := by
        change s.budget.reservedUsd + _ ≤ plan.authorizedUsd
        linarith
      open_eq_length := by
        rw [List.length_cons]
        change s.budget.openPositions + 1 = _
        rw [h.open_eq_length]
        rfl
      open_le_max := by
        change s.budget.openPositions + 1 ≤ _
        omega
      amounts_nonneg := by
        intro amount hmem
        rcases List.mem_cons.mp hmem with rfl | hmem
        · exact hnonneg
        · exact h.amounts_nonneg amount hmem }

/-- An outstanding amount is released in full, as the clamp at zero is not reached. -/
theorem reservedUsd_release (h : Sound plan s) {notional : ℚ} (hmem : notional ∈ s.outstanding)
    (realized : ℚ) :
    (s.budget.release notional realized).reservedUsd = (s.outstanding.erase notional).sum := by
  have hsum := List.sum_erase hmem
  have hrest : 0 ≤ (s.outstanding.erase notional).sum := by
    apply List.sum_nonneg
    intro amount hamount
    exact h.amounts_nonneg amount (List.mem_of_mem_erase hamount)
  change max 0 (s.budget.reservedUsd - max 0 notional) = _
  rw [max_eq_right (h.amounts_nonneg notional hmem), h.reserved_eq_sum, ← hsum,
    add_sub_cancel_left]
  exact max_eq_right hrest

/-- The release of an outstanding amount keeps the session sound. -/
theorem sound_release (h : Sound plan s) {notional realized : ℚ}
    (hproper : s.Proper (.release notional realized)) :
    Sound plan (s.step (.release notional realized)) := by
  have hmem : notional ∈ s.outstanding := hproper
  have hreserved := reservedUsd_release h hmem realized
  have hsum := List.sum_erase hmem
  have hamount := h.amounts_nonneg notional hmem
  have hlength : (s.outstanding.erase notional).length + 1 = s.outstanding.length := by
    rw [List.length_erase_of_mem hmem]
    have := List.length_pos_of_mem hmem
    omega
  have hopen : (s.budget.release notional realized).openPositions =
      (s.outstanding.erase notional).length := by
    change max 0 (s.budget.openPositions - 1) = _
    rw [h.open_eq_length]
    omega
  have hrest : ∀ amount ∈ s.outstanding.erase notional, 0 ≤ amount := fun amount hin ↦
    h.amounts_nonneg amount (List.mem_of_mem_erase hin)
  have hle := h.reserved_le_authorized
  have hmax := h.open_le_max
  rw [h.open_eq_length] at hmax
  exact
    { plan_eq := h.plan_eq
      reserved_eq_sum := hreserved
      reserved_nonneg := le_max_left _ _
      reserved_le_authorized := by
        change (s.budget.release notional realized).reservedUsd ≤ plan.authorizedUsd
        rw [hreserved]
        linarith [h.reserved_eq_sum]
      open_eq_length := hopen
      open_le_max := by
        change (s.budget.release notional realized).openPositions ≤ plan.maxConcurrentPositions
        rw [hopen]
        omega
      amounts_nonneg := hrest }

/-- A proper call keeps a session sound. -/
theorem sound_step (call : ReservationCall) (h : Sound plan s) (hproper : s.Proper call) :
    Sound plan (s.step call) := by
  cases call with
  | reserve notionalUsd => exact sound_reserve h hproper
  | release notionalUsd realizedPnlUsd => exact sound_release h hproper

/-- In every run of proper calls, what is reserved is the sum of what is outstanding, within the
plan's limits. -/
theorem balanced_run (plan : CapitalPlan) (calls : List ReservationCall)
    (h : StepsMeet step Proper (opened plan) calls) :
    ∀ pre, pre <+: calls → Balanced plan (run step (opened plan) pre) := by
  intro pre hpre
  have hrun := run_invariant_of_steps (fun _ call ↦ sound_step call) (sound_opened plan)
    (ok_of_stepsMeet h) pre hpre
  exact hrun.toBalanced

/-- A plan for two positions. -/
def twoPositions : CapitalPlan :=
  { CapitalPlan.sample (35 / 100) with
    maxConcurrentPositions := 2
    valid := by norm_num [CapitalPlan.sample] }

/-- A decision for some number of contracts, and nothing else. -/
def asking (contracts : ℤ) : SizingHints := { tenContracts with targetContracts := some contracts }

/-- Three contracts at a dollar, and of ten at two dollars the three that the rest of the capital
covers. The first entry is closed first, at a loss. -/
def interleavedCalls : List ReservationCall :=
  [.reserve 300, .reserve 600, .release 300 (-120), .release 600 50]

/-- The run of two trades that overlap: after three calls the second one's notional is left. -/
theorem balanced_interleavedCalls :
    Balanced twoPositions (run step (opened twoPositions) (interleavedCalls.take 3)) := by
  apply balanced_run twoPositions interleavedCalls
  · refine ⟨⟨1, asking 3, ?_⟩, ⟨2, asking 10, ?_⟩, ?_, ?_, trivial⟩
    · decide +kernel
    · decide +kernel
    · change (300 : ℚ) ∈ (_ : List ℚ)
      decide +kernel
    · change (600 : ℚ) ∈ (_ : List ℚ)
      decide +kernel
  · exact List.take_prefix 3 _

end ReservedSession
end Joker.Risk
