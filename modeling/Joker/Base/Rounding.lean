import Mathlib.Algebra.BigOperators.Group.List.Basic
import Mathlib.Algebra.Order.BigOperators.Group.List
import Mathlib.Algebra.Order.Floor.Ring
import Mathlib.Data.Int.ConditionallyCompleteOrder
import Mathlib.Data.Rat.Floor
import Mathlib.Tactic.FieldSimp
import Mathlib.Tactic.Linarith
import Mathlib.Tactic.Ring

/-!
# Rounded averages

Library `Base`. Rounding to the multiples of a unit by a rounding to a nearest integer, whatever it
does with ties, and averages rounded so. Values never change their order; those apart by more than
the unit stay apart.
-/

namespace Joker.Base

/-- A rounding to a nearest integer. -/
def NearestRounding (r : ℚ → ℤ) : Prop := ∀ x, |(r x : ℚ) - x| ≤ 1 / 2

/-- Rounding to the multiples of a unit. -/
def roundTo (r : ℚ → ℤ) (unit x : ℚ) : ℚ := r (x / unit) * unit

/-- The average of a list, rounded; of nothing it is zero. -/
def roundedAverage (r : ℚ → ℤ) (unit : ℚ) (xs : List ℚ) : ℚ :=
  if xs = [] then 0 else roundTo r unit (xs.sum / xs.length)

variable {r : ℚ → ℤ} {unit : ℚ}

/-- A rounding to a nearest integer keeps the order: only at a tie two integers are nearest, and
then the values are one. -/
theorem NearestRounding.mono (hr : NearestRounding r) : Monotone r := by
  intro x y hxy
  have hx := (abs_le.mp (hr x)).2
  have hy := (abs_le.mp (hr y)).1
  by_contra hless
  have hstep : r y + 1 ≤ r x := by omega
  have hcast : (r y : ℚ) + 1 ≤ r x := by exact_mod_cast hstep
  obtain rfl : x = y := by linarith
  omega

/-- Rounding keeps the order. -/
theorem roundTo_mono (hr : NearestRounding r) (hunit : 0 < unit) {x y : ℚ} (h : x ≤ y) :
    roundTo r unit x ≤ roundTo r unit y := by
  have hscaled : x / unit ≤ y / unit := div_le_div_of_nonneg_right h hunit.le
  have hround : (r (x / unit) : ℚ) ≤ r (y / unit) := by exact_mod_cast hr.mono hscaled
  exact mul_le_mul_of_nonneg_right hround hunit.le

/-- A rounded value is within half a unit. -/
theorem abs_roundTo_sub_le (hr : NearestRounding r) (hunit : 0 < unit) (x : ℚ) :
    |roundTo r unit x - x| ≤ unit / 2 := by
  have hx : x = x / unit * unit := (div_mul_cancel₀ x hunit.ne').symm
  have hfactor : roundTo r unit x - x = (r (x / unit) - x / unit) * unit := by
    rw [sub_mul, ← hx]
    rfl
  rw [hfactor, abs_mul, abs_of_pos hunit]
  have := mul_le_mul_of_nonneg_right (hr (x / unit)) hunit.le
  linarith

/-- Values apart by more than a unit stay apart. -/
theorem roundTo_lt_of_apart (hr : NearestRounding r) (hunit : 0 < unit) {x y : ℚ}
    (h : x + unit < y) : roundTo r unit x < roundTo r unit y := by
  have hx := abs_le.mp (abs_roundTo_sub_le hr hunit x)
  have hy := abs_le.mp (abs_roundTo_sub_le hr hunit y)
  linarith

/-- The order of the values does not matter. -/
theorem roundedAverage_perm {xs ys : List ℚ} (h : xs.Perm ys) :
    roundedAverage r unit xs = roundedAverage r unit ys := by
  have hnil : xs = [] ↔ ys = [] := by
    rw [← List.length_eq_zero_iff, ← List.length_eq_zero_iff, h.length_eq]
  unfold roundedAverage
  simp only [hnil, h.sum_eq, h.length_eq]

/-- Values that do not fall, one by one, do not lower the average. -/
theorem roundedAverage_mono (hr : NearestRounding r) (hunit : 0 < unit) {xs ys : List ℚ}
    (h : List.Forall₂ (· ≤ ·) xs ys) : roundedAverage r unit xs ≤ roundedAverage r unit ys := by
  have hlength := h.length_eq
  have hnil : xs = [] ↔ ys = [] := by
    rw [← List.length_eq_zero_iff, ← List.length_eq_zero_iff, hlength]
  unfold roundedAverage
  by_cases hempty : ys = []
  · simp [hnil, hempty]
  · rw [if_neg hempty, if_neg (hnil.not.mpr hempty), hlength]
    apply roundTo_mono hr hunit
    exact div_le_div_of_nonneg_right h.sum_le_sum (Nat.cast_nonneg _)

/-- A value that rises by more than the unit times the number of values raises the average. -/
theorem roundedAverage_cons_lt (hr : NearestRounding r) (hunit : 0 < unit) {x y : ℚ}
    (rest : List ℚ) (h : x + unit * (rest.length + 1) < y) :
    roundedAverage r unit (x :: rest) < roundedAverage r unit (y :: rest) := by
  unfold roundedAverage
  rw [if_neg (List.cons_ne_nil _ _), if_neg (List.cons_ne_nil _ _)]
  apply roundTo_lt_of_apart hr hunit
  simp only [List.sum_cons, List.length_cons, Nat.cast_add, Nat.cast_one]
  have hpos : (0 : ℚ) < rest.length + 1 := by positivity
  rw [← sub_pos]
  have hdiff : (y + rest.sum) / (rest.length + 1) - ((x + rest.sum) / (rest.length + 1) + unit) =
      (y - (x + unit * (rest.length + 1))) / (rest.length + 1) := by
    field_simp
    ring
  rw [hdiff]
  exact div_pos (sub_pos.mpr h) hpos

end Joker.Base
