import Joker.Base.Rounding
import Joker.Market.SurfaceRows

/-!
# Liquidity scores and lowered inputs

Library `Market`. The score is the rounded average of the components that are there. A lower size
or volume that is still counted lowers its component and no other; one that falls below zero takes
its component out, and then it is the rest that decides.
-/

namespace Joker.Market

open Joker.Base

/-! ### Rounding -/

/-- The score's average is a rounded average. -/
theorem averageScore_eq (scores : List ℚ) :
    averageScore scores = roundedAverage roundHalfEven (1 / 1000000) scores := rfl

/-- Components that do not fall do not lower the score. -/
theorem averageScore_mono {xs ys : List ℚ} (h : List.Forall₂ (· ≤ ·) xs ys) :
    averageScore xs ≤ averageScore ys :=
  roundedAverage_mono nearestRounding_roundHalfEven (by norm_num) h

/-- A component that rises by a hundredth, with at most two others, raises the score. -/
theorem averageScore_cons_lt {x y : ℚ} {rest : List ℚ} (hlength : rest.length ≤ 2)
    (h : x + 1 / 100 ≤ y) : averageScore (x :: rest) < averageScore (y :: rest) := by
  apply roundedAverage_cons_lt nearestRounding_roundHalfEven (by norm_num)
  have hcast : (rest.length : ℚ) ≤ 2 := by exact_mod_cast hlength
  linarith

/-! ### Components -/

/-- A size or a volume that the score counts. -/
def counted (value : Option ℤ) : Option ℤ := value.filter (0 ≤ ·)

/-- A missing quantity does not count. -/
@[simp] theorem counted_none : counted none = none := rfl

/-- A value from zero on is counted. -/
@[simp] theorem counted_of_nonneg {value : ℤ} (h : 0 ≤ value) :
    counted (some value) = some value := by
  simp [counted, Option.filter, h]

/-- A value below zero is not counted. -/
@[simp] theorem counted_of_neg {value : ℤ} (h : value < 0) : counted (some value) = none := by
  simp [counted, Option.filter, h]

/-- The part of the score that neither size decides. -/
def withoutSizes (volume : Option ℤ) (relativeSpread : Option ℚ) : List ℚ :=
  [volumeScore volume, spreadScore relativeSpread].filterMap id

/-- The part of the score that the volume does not decide. -/
def withoutVolume (bidSize askSize : Option ℤ) (relativeSpread : Option ℚ) : List ℚ :=
  [sizeScore bidSize askSize, spreadScore relativeSpread].filterMap id

/-- The size component by the sizes counted. -/
theorem sizeScore_eq (bidSize askSize : Option ℤ) : sizeScore bidSize askSize =
    match counted bidSize, counted askSize with
    | some bid, some ask => some (min 1 ((min bid ask : ℤ) / 100))
    | some size, none => some (min 1 (size / 100))
    | none, some size => some (min 1 (size / 100))
    | none, none => none := by
  cases bidSize with
  | none =>
    cases askSize with
    | none => rfl
    | some ask =>
      by_cases hask : 0 ≤ ask
      · simp [sizeScore, hask]
      · simp [sizeScore, hask, not_le.mp hask]
  | some bid =>
    cases askSize with
    | none =>
      by_cases hbid : 0 ≤ bid
      · simp [sizeScore, hbid]
      · simp [sizeScore, hbid, not_le.mp hbid]
    | some ask =>
      by_cases hbid : 0 ≤ bid
      · by_cases hask : 0 ≤ ask
        · simp [sizeScore, hbid, hask, List.min?_cons]
        · simp [sizeScore, hbid, hask, not_le.mp hask]
      · by_cases hask : 0 ≤ ask
        · simp [sizeScore, hbid, hask, not_le.mp hbid]
        · simp [sizeScore, hbid, hask, not_le.mp hbid, not_le.mp hask]

/-- The sizes count alike. -/
theorem sizeScore_comm (bidSize askSize : Option ℤ) :
    sizeScore bidSize askSize = sizeScore askSize bidSize := by
  rw [sizeScore_eq, sizeScore_eq]
  cases counted bidSize with
  | none => cases counted askSize <;> rfl
  | some bid =>
    cases counted askSize with
    | none => rfl
    | some ask => simp [min_comm bid ask]

/-- The volume component by the volume counted. -/
theorem volumeScore_eq (volume : Option ℤ) :
    volumeScore volume = (counted volume).map (fun volume ↦ min 1 ((volume : ℚ) / 1000)) := rfl

section Score

variable {bidSize askSize volume : Option ℤ} {relativeSpread : Option ℚ}

/-- The score by the size component and the rest. -/
theorem score_bySizes (bidSize askSize volume : Option ℤ) (relativeSpread : Option ℚ) :
    computeLiquidityScore bidSize askSize volume relativeSpread =
      averageScore ((sizeScore bidSize askSize).toList ++ withoutSizes volume relativeSpread) := by
  unfold computeLiquidityScore withoutSizes
  cases sizeScore bidSize askSize <;> rfl

/-- The score by the volume component and the rest. -/
theorem score_byVolume (bidSize askSize volume : Option ℤ) (relativeSpread : Option ℚ) :
    computeLiquidityScore bidSize askSize volume relativeSpread =
      averageScore ((volumeScore volume).toList ++
        withoutVolume bidSize askSize relativeSpread) := by
  unfold computeLiquidityScore withoutVolume
  rw [averageScore_eq, averageScore_eq]
  apply roundedAverage_perm
  cases sizeScore bidSize askSize with
  | none => cases volumeScore volume <;> simp
  | some size =>
    cases volumeScore volume with
    | none => simp
    | some traded => simpa using List.Perm.swap traded size _

/-- The score does not tell the sizes apart. -/
theorem score_comm (bidSize askSize volume : Option ℤ) (relativeSpread : Option ℚ) :
    computeLiquidityScore bidSize askSize volume relativeSpread =
      computeLiquidityScore askSize bidSize volume relativeSpread := by
  rw [score_bySizes, score_bySizes, sizeScore_comm]

/-! ### Lowered inputs -/

/-- A size can be left out without a higher score: where the other one counts, it is at most this
one or both are full; else the rest has no higher average than with this one. -/
def SizeLeftOut (size : ℤ) (other volume : Option ℤ) (relativeSpread : Option ℚ) : Prop :=
  match counted other with
  | some other => min other 100 ≤ size
  | none => averageScore (withoutSizes volume relativeSpread) ≤
      averageScore (min 1 ((size : ℚ) / 100) :: withoutSizes volume relativeSpread)

/-- A volume can be left out without a higher score: the rest has no higher average than with
it. -/
def VolumeLeftOut (volume : ℤ) (bidSize askSize : Option ℤ) (relativeSpread : Option ℚ) : Prop :=
  averageScore (withoutVolume bidSize askSize relativeSpread) ≤
    averageScore (min 1 ((volume : ℚ) / 1000) :: withoutVolume bidSize askSize relativeSpread)

private theorem forall₂_refl (xs : List ℚ) : List.Forall₂ (· ≤ ·) xs xs :=
  List.forall₂_same.mpr (fun _ _ ↦ le_refl _)

private theorem min_div_mono {a b : ℤ} (h : a ≤ b) (full : ℚ) (hfull : 0 < full) :
    min 1 ((a : ℚ) / full) ≤ min 1 ((b : ℚ) / full) := by
  have hcast : (a : ℚ) ≤ b := by exact_mod_cast h
  exact min_le_min_left 1 (div_le_div_of_nonneg_right hcast hfull.le)

/-- A lower volume: the score rises only where the volume falls below zero and weighed the rest
down. -/
theorem score_volume_le_iff {low high : ℤ} (h : low ≤ high) :
    computeLiquidityScore bidSize askSize (some low) relativeSpread ≤
        computeLiquidityScore bidSize askSize (some high) relativeSpread ↔
      (0 ≤ high → low < 0 → VolumeLeftOut high bidSize askSize relativeSpread) := by
  rw [score_byVolume, score_byVolume, volumeScore_eq, volumeScore_eq]
  by_cases hlow : 0 ≤ low
  · rw [counted_of_nonneg hlow, counted_of_nonneg (hlow.trans h)]
    refine ⟨fun _ _ hneg ↦ absurd hlow (not_le.mpr hneg), fun _ ↦ averageScore_mono ?_⟩
    exact .cons (min_div_mono h 1000 (by norm_num)) (forall₂_refl _)
  · have hneg := not_le.mp hlow
    rw [counted_of_neg hneg]
    by_cases hhigh : 0 ≤ high
    · rw [counted_of_nonneg hhigh]
      exact ⟨fun hle _ _ ↦ hle, fun hle ↦ hle hhigh hneg⟩
    · rw [counted_of_neg (not_le.mp hhigh)]
      exact ⟨fun _ hpos ↦ absurd hpos hhigh, fun _ ↦ le_refl _⟩

/-- The other size alone gives no higher score than both exactly when it is at most this one, or
both are full. -/
theorem averageScore_otherSize_iff (size other : ℤ) (volume : Option ℤ)
    (relativeSpread : Option ℚ) :
    averageScore (min 1 ((other : ℚ) / 100) :: withoutSizes volume relativeSpread) ≤
        averageScore (min 1 ((min size other : ℤ) / 100 : ℚ) ::
          withoutSizes volume relativeSpread) ↔ min other 100 ≤ size := by
  constructor
  · intro hle
    by_contra hmore
    have hlength : (withoutSizes volume relativeSpread).length ≤ 2 := List.length_filterMap_le _ _
    have hone : size + 1 ≤ 100 ∧ size + 1 ≤ other := by omega
    have hfull : (size : ℚ) + 1 ≤ 100 := by exact_mod_cast hone.1
    have hother : (size : ℚ) + 1 ≤ other := by exact_mod_cast hone.2
    refine absurd hle (not_le.mpr (averageScore_cons_lt hlength ?_))
    rw [min_eq_left (by omega : size ≤ other), le_min_iff]
    have hmin := min_le_right (1 : ℚ) (size / 100)
    constructor <;> linarith
  · intro hleft
    refine averageScore_mono (.cons ?_ (forall₂_refl _))
    by_cases hsmall : other ≤ size
    · rw [min_eq_right hsmall]
    · have hfull : (100 : ℚ) ≤ (min size other : ℤ) := by
        exact_mod_cast (by omega : 100 ≤ min size other)
      rw [min_eq_left (by linarith : (1 : ℚ) ≤ (min size other : ℤ) / 100)]
      exact min_le_left _ _

/-- A lower size: the score rises only where the size falls below zero and weighed the other size
or the rest down. -/
theorem score_bidSize_le_iff {low high : ℤ} (h : low ≤ high) :
    computeLiquidityScore (some low) askSize volume relativeSpread ≤
        computeLiquidityScore (some high) askSize volume relativeSpread ↔
      (0 ≤ high → low < 0 → SizeLeftOut high askSize volume relativeSpread) := by
  rw [score_bySizes, score_bySizes, sizeScore_eq, sizeScore_eq]
  by_cases hlow : 0 ≤ low
  · rw [counted_of_nonneg hlow, counted_of_nonneg (hlow.trans h)]
    refine ⟨fun _ _ hneg ↦ absurd hlow (not_le.mpr hneg), fun _ ↦ averageScore_mono ?_⟩
    cases counted askSize with
    | none => exact .cons (min_div_mono h 100 (by norm_num)) (forall₂_refl _)
    | some other =>
      exact .cons (min_div_mono (min_le_min_right other h) 100 (by norm_num)) (forall₂_refl _)
  · have hneg := not_le.mp hlow
    rw [counted_of_neg hneg]
    by_cases hhigh : 0 ≤ high
    · rw [counted_of_nonneg hhigh, SizeLeftOut]
      cases counted askSize with
      | none => exact ⟨fun hle _ _ ↦ hle, fun hle ↦ hle hhigh hneg⟩
      | some other =>
        exact (averageScore_otherSize_iff high other volume relativeSpread).trans
          ⟨fun hleft _ _ ↦ hleft, fun hleft ↦ hleft hhigh hneg⟩
    · rw [counted_of_neg (not_le.mp hhigh)]
      exact ⟨fun _ hpos ↦ absurd hpos hhigh, fun _ ↦ le_refl _⟩

/-- A lower ask size, by the symmetry of the sizes. -/
theorem score_askSize_le_iff {low high : ℤ} (h : low ≤ high) :
    computeLiquidityScore bidSize (some low) volume relativeSpread ≤
        computeLiquidityScore bidSize (some high) volume relativeSpread ↔
      (0 ≤ high → low < 0 → SizeLeftOut high bidSize volume relativeSpread) := by
  rw [score_comm bidSize, score_comm bidSize]
  exact score_bidSize_le_iff h

end Score

end Joker.Market
