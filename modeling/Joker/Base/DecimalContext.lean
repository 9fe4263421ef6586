import Mathlib.Data.Int.Log
import Mathlib.Data.Rat.Floor
import Joker.Base.Rounding

/-!
# Decimal contexts

Library `Base`. An operation on `Decimal`s has its exact result rounded by the context. Python's
default context keeps 28 digits, half even. Code over decimals takes its context as an instance, and
is read in exact arithmetic where the identity is opened for it.
-/

namespace Joker.Base

/-! ### Half-even rounding -/

/-- The nearest integer, an even one at the middle between two. -/
def roundHalfEven (x : ℚ) : Int :=
  let below := ⌊x⌋
  let rest := x - below
  if rest < 1 / 2 then below
  else if 1 / 2 < rest then below + 1
  else if below % 2 = 0 then below else below + 1

/-- Half-even rounding goes to a nearest integer. -/
theorem nearestRounding_roundHalfEven : NearestRounding roundHalfEven := by
  intro x
  have hlow := Int.floor_le x
  have hhigh := Int.lt_floor_add_one x
  unfold roundHalfEven
  dsimp only
  rw [abs_le]
  split
  · constructor <;> linarith
  · split
    · push_cast
      constructor <;> linarith
    · split
      · constructor <;> linarith
      · push_cast
        constructor <;> linarith

/-- Whole numbers are kept. -/
theorem roundHalfEven_intCast (n : ℤ) : roundHalfEven (n : ℚ) = n := by
  have hbound := nearestRounding_roundHalfEven (n : ℚ)
  have hcast : |((roundHalfEven (n : ℚ) - n : ℤ) : ℚ)| ≤ 1 / 2 := by
    push_cast
    exact hbound
  have habs : ((|roundHalfEven (n : ℚ) - n| : ℤ) : ℚ) < 1 := by
    rw [Int.cast_abs]
    exact hcast.trans_lt (by norm_num)
  have hzero : |roundHalfEven (n : ℚ) - n| < 1 := by exact_mod_cast habs
  have := Int.abs_lt_one_iff.mp hzero
  omega

/-- Half-even rounding is the same on both sides of zero. -/
theorem roundHalfEven_neg (x : ℚ) : roundHalfEven (-x) = -roundHalfEven x := by
  by_cases hx : (⌊x⌋ : ℚ) = x
  · rw [← hx, ← Int.cast_neg, roundHalfEven_intCast, roundHalfEven_intCast]
  · have hlow := lt_of_le_of_ne (Int.floor_le x) hx
    have hhigh := Int.lt_floor_add_one x
    have hfloor : ⌊-x⌋ = -⌊x⌋ - 1 := by
      rw [Int.floor_eq_iff]
      push_cast
      constructor <;> linarith
    unfold roundHalfEven
    dsimp only
    rw [hfloor]
    push_cast
    -- the other side's rest is what this one lacks to one
    split_ifs <;> first | omega | linarith

/-! ### Twenty-eight digits -/

/-- The result of a `Decimal` operation in the default context: 28 digits, half even. -/
def contextRounded (x : ℚ) : ℚ :=
  if x = 0 then 0
  else
    let unit : ℚ := (10 : ℚ) ^ (Int.log 10 |x| - 27)
    roundHalfEven (x / unit) * unit

/-- Rounding to 28 digits is the same on both sides of zero. -/
theorem contextRounded_neg (x : ℚ) : contextRounded (-x) = -contextRounded x := by
  unfold contextRounded
  by_cases h0 : x = 0
  · simp [h0]
  · simp only [neg_eq_zero, h0, if_false, abs_neg, neg_div, roundHalfEven_neg, Int.cast_neg,
      neg_mul]

/-- Rounding to 28 digits leaves positive numbers positive. -/
theorem contextRounded_pos {x : ℚ} (h : 0 < x) : 0 < contextRounded x := by
  unfold contextRounded
  rw [if_neg h.ne']
  have hunit : (0 : ℚ) < 10 ^ (Int.log 10 |x| - 27) := zpow_pos (by norm_num) _
  apply mul_pos _ hunit
  -- the number has its first digit above the unit
  have hone : 1 ≤ x / (10 : ℚ) ^ (Int.log 10 |x| - 27) := by
    rw [le_div_iff₀ hunit, one_mul]
    have hlog := Int.zpow_log_le_self (R := ℚ) (b := 10) (by norm_num) (abs_pos.mpr h.ne')
    rw [abs_of_pos h] at hlog ⊢
    have hpower : (10 : ℚ) ^ (Int.log 10 x - 27) ≤ 10 ^ Int.log 10 x :=
      zpow_le_zpow_right₀ (by norm_num) (by omega)
    exact hpower.trans (by exact_mod_cast hlog)
  have hfloor : 1 ≤ ⌊x / (10 : ℚ) ^ (Int.log 10 |x| - 27)⌋ :=
    Int.le_floor.mpr (by exact_mod_cast hone)
  have hround : 1 ≤ roundHalfEven (x / (10 : ℚ) ^ (Int.log 10 |x| - 27)) := by
    unfold roundHalfEven
    dsimp only
    split_ifs <;> omega
  exact_mod_cast (by omega : 0 < roundHalfEven (x / (10 : ℚ) ^ (Int.log 10 |x| - 27)))

/-! ### Contexts -/

/-- What the exact result of an operation is rounded to. Signs survive. -/
class DecimalContext where
  rounded : ℚ → ℚ
  rounded_neg (x : ℚ) : rounded (-x) = -rounded x
  rounded_pos {x : ℚ} : 0 < x → 0 < rounded x

export DecimalContext (rounded rounded_neg rounded_pos)

/-- A context rounds nothing but zero to zero. -/
theorem rounded_ne_zero [DecimalContext] {x : ℚ} (h : x ≠ 0) : rounded x ≠ 0 := by
  rcases lt_or_gt_of_ne h with hneg | hpos
  · rw [← neg_neg x, rounded_neg]
    exact neg_ne_zero.mpr (rounded_pos (neg_pos.mpr hneg)).ne'
  · exact (rounded_pos hpos).ne'

/-- A number that the context keeps. -/
def Kept [DecimalContext] (x : ℚ) : Prop := rounded x = x

instance [DecimalContext] (x : ℚ) : Decidable (Kept x) := inferInstanceAs (Decidable (_ = _))

/-- Every context keeps zero. -/
theorem kept_zero [DecimalContext] : Kept (0 : ℚ) := by
  have h := rounded_neg 0
  rw [neg_zero] at h
  exact eq_zero_of_neg_eq h.symm

/-- A context rounds to nothing positive exactly what is not positive. -/
theorem rounded_nonpos_iff [DecimalContext] {x : ℚ} : rounded x ≤ 0 ↔ x ≤ 0 := by
  constructor
  · exact fun h ↦ not_lt.mp (fun hx ↦ not_lt.mpr h (rounded_pos hx))
  · intro h
    rcases h.eq_or_lt with rfl | hx
    · exact (kept_zero : rounded 0 = 0).le
    · have hneg := rounded_pos (neg_pos.mpr hx)
      rw [rounded_neg] at hneg
      exact (neg_pos.mp hneg).le

/-- A context that keeps a number keeps its negative. -/
theorem kept_neg [DecimalContext] {x : ℚ} (h : Kept x) : Kept (-x) :=
  (rounded_neg x).trans (congrArg Neg.neg h)

/-- A context that keeps a number keeps its amount. -/
theorem kept_abs [DecimalContext] {x : ℚ} (h : Kept x) : Kept |x| := by
  rcases abs_choice x with hx | hx
  · rwa [hx]
  · rw [hx]
    exact kept_neg h

namespace ExactArithmetic

/-- No rounding. -/
scoped instance context : DecimalContext := ⟨fun x ↦ x, fun _ ↦ rfl, fun h ↦ h⟩

end ExactArithmetic

/-- Exact arithmetic keeps everything. -/
@[simp] theorem rounded_exact (x : ℚ) : @rounded ExactArithmetic.context x = x := rfl

namespace DefaultContext

/-- `decimal.DefaultContext`. -/
scoped instance context : DecimalContext :=
  ⟨contextRounded, contextRounded_neg, contextRounded_pos⟩

end DefaultContext

end Joker.Base
