import Mathlib.Algebra.BigOperators.Ring.List
import Mathlib.Algebra.Order.BigOperators.Group.List
import Mathlib.Algebra.Order.Field.Basic
import Mathlib.Data.List.Induction

/-!
# Running weighted means

Library `Base`. A mean that is kept up one part at a time, from the total weight and the mean so
far. Over parts of positive weight it is the mean of all of them, and so lies between the smallest
and the largest value.
-/

namespace Joker.Base

variable {K : Type*} [Field K]

/-- The weight taken in so far, and its mean once there is one. -/
structure WeightedMean (K : Type*) where
  weight : K
  mean : Option K

namespace WeightedMean

/-- Nothing taken in. -/
def empty : WeightedMean K := ⟨0, none⟩

/-- The parts' weights times their values. -/
def moment (parts : List (K × K)) : K := (parts.map (fun part ↦ part.1 * part.2)).sum

private theorem moment_snoc (parts : List (K × K)) (part : K × K) :
    moment (parts ++ [part]) = moment parts + part.1 * part.2 := by
  unfold moment
  rw [List.map_append, List.sum_append, List.map_singleton, List.sum_singleton]

variable [LinearOrder K]

/-- One more part: a weight and its value. -/
def add (m : WeightedMean K) (part : K × K) : WeightedMean K :=
  { weight := m.weight + part.1
    mean := some (match m.mean with
      | none => part.2
      | some mean =>
        if m.weight ≤ 0 then part.2
        else (mean * m.weight + part.2 * part.1) / (m.weight + part.1)) }

/-- The mean of parts taken in one after another. -/
def of (parts : List (K × K)) : WeightedMean K := parts.foldl add empty

private theorem of_snoc (parts : List (K × K)) (part : K × K) :
    of (parts ++ [part]) = (of parts).add part := by
  unfold of
  rw [List.foldl_append, List.foldl_cons, List.foldl_nil]

/-- The weight is the sum of the weights. -/
theorem weight_of (parts : List (K × K)) : (of parts).weight = (parts.map Prod.fst).sum := by
  induction parts using List.reverseRecOn with
  | nil => rfl
  | append_singleton parts part ih =>
    rw [of_snoc, List.map_append, List.sum_append, List.map_singleton, List.sum_singleton, ← ih]
    rfl

/-- Without a mean there is no part. -/
theorem eq_nil_of_mean {parts : List (K × K)} (h : (of parts).mean = none) : parts = [] := by
  cases parts using List.reverseRecOn with
  | nil => rfl
  | append_singleton parts part =>
    rw [of_snoc] at h
    cases h

variable [IsStrictOrderedRing K] {parts : List (K × K)}

private theorem weight_nonneg (h : ∀ part ∈ parts, 0 < part.1) : 0 ≤ (of parts).weight := by
  rw [weight_of]
  apply List.sum_nonneg
  intro weight hw
  obtain ⟨part, hpart, rfl⟩ := List.mem_map.mp hw
  exact (h part hpart).le

/-- With a mean there is weight. -/
theorem weight_pos {mean : K} (h : ∀ part ∈ parts, 0 < part.1) (hm : (of parts).mean = some mean) :
    0 < (of parts).weight := by
  cases parts using List.reverseRecOn with
  | nil => cases hm
  | append_singleton parts part =>
    have hbefore := weight_nonneg (fun p hp ↦ h p (List.mem_append_left [part] hp))
    rw [of_snoc]
    exact add_pos_of_nonneg_of_pos hbefore (h part (by simp))

/-- The mean times the weight is the sum of what the parts contribute. -/
theorem weight_mul_mean {mean : K} (h : ∀ part ∈ parts, 0 < part.1)
    (hm : (of parts).mean = some mean) : (of parts).weight * mean = moment parts := by
  induction parts using List.reverseRecOn generalizing mean with
  | nil => cases hm
  | append_singleton parts part ih =>
    have hparts : ∀ p ∈ parts, 0 < p.1 := fun p hp ↦ h p (List.mem_append_left _ hp)
    rw [of_snoc] at hm ⊢
    rw [moment_snoc]
    cases hm
    change ((of parts).weight + part.1) * _ = _
    cases hbefore : (of parts).mean with
    | none =>
      -- The first part is its own mean.
      rw [eq_nil_of_mean hbefore]
      change (0 + part.1) * part.2 = 0 + part.1 * part.2
      rw [zero_add, zero_add]
    | some before =>
      have hpos := weight_pos hparts hbefore
      have hsum : (of parts).weight + part.1 ≠ 0 :=
        (add_pos hpos (h part (by simp))).ne'
      simp only
      rw [if_neg (not_le.mpr hpos), mul_div_cancel₀ _ hsum, ← ih hparts hbefore, mul_comm before,
        mul_comm part.2]

/-- A value that no part goes below is no greater than the mean. -/
theorem le_mean {mean low : K} (h : ∀ part ∈ parts, 0 < part.1) (hm : (of parts).mean = some mean)
    (hlow : ∀ part ∈ parts, low ≤ part.2) : low ≤ mean := by
  have hmoment : (of parts).weight * low ≤ moment parts := by
    rw [weight_of, ← List.sum_map_mul_right]
    apply List.sum_le_sum
    intro part hpart
    exact mul_le_mul_of_nonneg_left (hlow part hpart) (h part hpart).le
  rw [← weight_mul_mean h hm] at hmoment
  exact le_of_mul_le_mul_left hmoment (weight_pos h hm)

/-- A value that no part goes above is no less than the mean. -/
theorem mean_le {mean high : K} (h : ∀ part ∈ parts, 0 < part.1) (hm : (of parts).mean = some mean)
    (hhigh : ∀ part ∈ parts, part.2 ≤ high) : mean ≤ high := by
  have hmoment : moment parts ≤ (of parts).weight * high := by
    rw [weight_of, ← List.sum_map_mul_right]
    apply List.sum_le_sum
    intro part hpart
    exact mul_le_mul_of_nonneg_left (hhigh part hpart) (h part hpart).le
  rw [← weight_mul_mean h hm] at hmoment
  exact le_of_mul_le_mul_left hmoment (weight_pos h hm)

end WeightedMean
end Joker.Base
