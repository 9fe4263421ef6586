import Mathlib.Algebra.Order.Field.Basic
import Mathlib.Data.List.Induction
import Mathlib.Tactic.FieldSimp
import Mathlib.Tactic.Linarith
import Mathlib.Tactic.Ring

/-!
# Average-cost accounts

Library `Base`. A signed holding carried at its average cost: trades in the direction of the
holding average into the cost, trades against it realise the difference to the cost and stop
at zero. Whatever the trades, realised profit is the cash that came in plus the book value of
what is still held.
-/

namespace Joker.Base

variable {K : Type*} [Field K] [LinearOrder K] [IsStrictOrderedRing K]

/-- Signed quantity, average cost of one unit, and profit realised so far. -/
structure CostAccount (K : Type*) where
  quantity : K
  avgCost : K
  realized : K

namespace CostAccount

/-- Cost of the units held; negative for a short holding. -/
def bookValue (a : CostAccount K) : K := a.quantity * a.avgCost

/-- A trade of signed size `d` at price `p`. -/
def trade (a : CostAccount K) (d p : K) : CostAccount K :=
  if a.quantity = 0 ∨ (0 < a.quantity ∧ 0 < d) ∨ (a.quantity < 0 ∧ d < 0) then
    { a with
      quantity := a.quantity + d
      avgCost := (a.avgCost * |a.quantity| + p * |d|) / (|a.quantity| + |d|) }
  else
    let close := min |a.quantity| |d|
    { quantity := if 0 < a.quantity then a.quantity - close else a.quantity + close
      avgCost := a.avgCost
      realized := a.realized +
        (if 0 < a.quantity then p - a.avgCost else a.avgCost - p) * close }

private theorem mul_average {q d c p : K} (hd : d ≠ 0)
    (h : q = 0 ∨ (0 < q ∧ 0 < d) ∨ (q < 0 ∧ d < 0)) :
    (q + d) * ((c * |q| + p * |d|) / (|q| + |d|)) = q * c + d * p := by
  rcases h with h | ⟨hq, hp⟩ | ⟨hq, hn⟩
  · subst h
    have habs : |d| ≠ 0 := abs_ne_zero.mpr hd
    rw [abs_zero]
    field_simp
    ring
  · have hs : q + d ≠ 0 := by linarith
    rw [abs_of_pos hq, abs_of_pos hp]
    field_simp
  · have hs : -q + -d ≠ 0 := by
      intro h
      linarith
    rw [abs_of_neg hq, abs_of_neg hn]
    field_simp
    ring

/-- Realised profit grows by the cash a trade brings in plus the book value it adds. -/
theorem realized_trade (a : CostAccount K) {d : K} (p : K) (hd : d ≠ 0) :
    (a.trade d p).realized =
      a.realized + ((a.trade d p).bookValue - a.bookValue -
        ((a.trade d p).quantity - a.quantity) * p) := by
  unfold trade bookValue
  split
  · next h =>
    simp only
    rw [mul_average hd h]
    ring
  · simp only
    split <;> ring

/-- A purchase never lowers the holding. -/
theorem le_quantity_trade (a : CostAccount K) {d : K} (p : K) (hd : 0 < d) :
    a.quantity ≤ (a.trade d p).quantity := by
  have hc : 0 ≤ min |a.quantity| |d| := le_min (abs_nonneg _) (abs_nonneg _)
  unfold trade
  by_cases h : a.quantity = 0 ∨ (0 < a.quantity ∧ 0 < d) ∨ (a.quantity < 0 ∧ d < 0)
  · rw [if_pos h]
    exact le_add_of_nonneg_right hd.le
  · rw [if_neg h]
    have hq : ¬ 0 < a.quantity := fun hq ↦ h (Or.inr (Or.inl ⟨hq, hd⟩))
    simp only [hq, if_false]
    exact le_add_of_nonneg_right hc

/-- A sale never raises the holding. -/
theorem quantity_trade_le (a : CostAccount K) {d : K} (p : K) (hd : d < 0) :
    (a.trade d p).quantity ≤ a.quantity := by
  have hc : 0 ≤ min |a.quantity| |d| := le_min (abs_nonneg _) (abs_nonneg _)
  unfold trade
  by_cases h : a.quantity = 0 ∨ (0 < a.quantity ∧ 0 < d) ∨ (a.quantity < 0 ∧ d < 0)
  · rw [if_pos h]
    exact add_le_of_nonpos_right hd.le
  · rw [if_neg h]
    have hq : 0 < a.quantity := by
      by_contra hq
      rcases lt_or_eq_of_le (not_lt.mp hq) with hlt | heq
      · exact h (Or.inr (Or.inr ⟨hlt, hd⟩))
      · exact h (Or.inl heq)
    simp only [hq, if_true]
    exact sub_le_self _ hc

/-! ### Trades of one direction -/

/-- A trade that would carry a holding through zero to the other side. -/
def Straddles (q d : K) : Prop := (q < 0 ∧ 0 < q + d) ∨ (0 < q ∧ q + d < 0)

instance (q d : K) : Decidable (Straddles q d) := inferInstanceAs (Decidable (_ ∨ _))

/-- The quantity after a trade: through zero it goes no further than zero. -/
def settle (q d : K) : K := if Straddles q d then 0 else q + d

/-- No trade, no change. -/
@[simp] theorem settle_zero (q : K) : settle q 0 = q := by
  have h : ¬ Straddles q 0 := by
    rintro (⟨h1, h2⟩ | ⟨h1, h2⟩) <;> linarith
  rw [settle, if_neg h, add_zero]

/-- A trade that leaves a long holding long or flat is settled in full. -/
theorem settle_of_nonneg {q d : K} (hq : 0 ≤ q) (hd : 0 ≤ q + d) : settle q d = q + d := by
  have h : ¬ Straddles q d := by
    rintro (⟨h1, h2⟩ | ⟨h1, h2⟩) <;> linarith
  rw [settle, if_neg h]

/-- The quantity of the account settles. -/
theorem quantity_trade (a : CostAccount K) (d p : K) :
    (a.trade d p).quantity = settle a.quantity d := by
  unfold trade settle
  by_cases h : a.quantity = 0 ∨ (0 < a.quantity ∧ 0 < d) ∨ (a.quantity < 0 ∧ d < 0)
  · have hs : ¬ Straddles a.quantity d := by
      rintro (⟨h1, h2⟩ | ⟨h1, h2⟩) <;> rcases h with h | ⟨h, h'⟩ | ⟨h, h'⟩ <;> linarith
    rw [if_pos h, if_neg hs]
  · rw [if_neg h]
    rcases lt_trichotomy a.quantity 0 with hq | hq | hq
    · have hd : 0 ≤ d := not_lt.mp (fun hd ↦ h (Or.inr (Or.inr ⟨hq, hd⟩)))
      simp only [not_lt_of_gt hq, if_false, abs_of_neg hq, abs_of_nonneg hd]
      split
      · next hs =>
        have hpos : 0 < a.quantity + d := by rcases hs with hs | hs <;> linarith
        rw [min_eq_left (by linarith), add_neg_cancel]
      · next hs =>
        have hle : a.quantity + d ≤ 0 := not_lt.mp (fun hlt ↦ hs (Or.inl ⟨hq, hlt⟩))
        rw [min_eq_right (by linarith)]
    · exact absurd (Or.inl hq) h
    · have hd : d ≤ 0 := not_lt.mp (fun hd ↦ h (Or.inr (Or.inl ⟨hq, hd⟩)))
      simp only [hq, if_true, abs_of_pos hq, abs_of_nonpos hd]
      split
      · next hs =>
        have hneg : a.quantity + d < 0 := by rcases hs with hs | hs <;> linarith
        rw [min_eq_left (by linarith), sub_self]
      · next hs =>
        have hge : 0 ≤ a.quantity + d := not_lt.mp (fun hlt ↦ hs (Or.inr ⟨hq, hlt⟩))
        rw [min_eq_right (by linarith), sub_neg_eq_add]

private theorem straddles_neg {q d : K} : Straddles (-q) (-d) ↔ Straddles q d := by
  unfold Straddles
  constructor
  · rintro (⟨h1, h2⟩ | ⟨h1, h2⟩)
    · exact Or.inr ⟨by linarith, by linarith⟩
    · exact Or.inl ⟨by linarith, by linarith⟩
  · rintro (⟨h1, h2⟩ | ⟨h1, h2⟩)
    · exact Or.inr ⟨by linarith, by linarith⟩
    · exact Or.inl ⟨by linarith, by linarith⟩

private theorem settle_neg (q d : K) : settle (-q) (-d) = -settle q d := by
  by_cases h : Straddles q d
  · rw [settle, settle, if_pos h, if_pos (straddles_neg.mpr h), neg_zero]
  · rw [settle, settle, if_neg h, if_neg (fun hn ↦ h (straddles_neg.mp hn)), neg_add]

private theorem settle_le {q d : K} (hd : 0 ≤ d) : settle q d ≤ q + d := by
  by_cases h : Straddles q d
  · rw [settle, if_pos h]
    rcases h with ⟨-, h⟩ | ⟨h, -⟩
    · exact h.le
    · linarith
  · exact (if_neg h).le

private theorem settle_eq_iff {q d : K} : settle q d = q + d ↔ ¬ Straddles q d := by
  constructor
  · intro he h
    rw [settle, if_pos h] at he
    rcases h with ⟨-, h⟩ | ⟨-, h⟩ <;> linarith
  · exact fun h ↦ if_neg h

private theorem foldl_settle_buys {q : K} {ds : List K} (h : ∀ d ∈ ds, 0 ≤ d) :
    ds.foldl settle q ≤ q + ds.sum ∧ (ds.foldl settle q = q + ds.sum ↔
      ∀ pre d, pre ++ [d] <+: ds → ¬ Straddles (q + pre.sum) d) := by
  induction ds using List.reverseRecOn with
  | nil =>
    rw [List.foldl_nil, List.sum_nil, add_zero]
    refine ⟨le_refl q, iff_of_true rfl ?_⟩
    intro pre d hp
    simp at hp
  | append_singleton ds d ih =>
    have hd : 0 ≤ d := h d (by simp)
    obtain ⟨hle, hiff⟩ := ih (fun x hx ↦ h x (List.mem_append_left _ hx))
    rw [List.foldl_append, List.foldl_cons, List.foldl_nil, List.sum_append, List.sum_singleton,
      ← add_assoc]
    have hstep := @settle_le K _ _ _ (ds.foldl settle q) d hd
    refine ⟨by linarith, ?_⟩
    constructor
    · intro he pre x hp
      -- A loss before the last trade is never made up for.
      have hbefore : ds.foldl settle q = q + ds.sum := le_antisymm hle (by linarith)
      rcases List.prefix_concat_iff.mp hp with heq | hp
      · obtain ⟨rfl, hx⟩ := List.append_inj' heq rfl
        cases hx
        rw [hbefore] at he
        exact settle_eq_iff.mp he
      · exact hiff.mp hbefore pre x hp
    · intro hall
      have hbefore := hiff.mpr (fun pre x hp ↦ hall pre x (hp.trans (List.prefix_append ds [d])))
      rw [hbefore]
      exact if_neg (hall ds d (List.prefix_refl _))

private theorem foldl_settle_neg (q : K) (ds : List K) :
    (ds.map (fun d ↦ -d)).foldl settle (-q) = -ds.foldl settle q := by
  induction ds generalizing q with
  | nil => rfl
  | cons d ds ih =>
    rw [List.map_cons, List.foldl_cons, List.foldl_cons, settle_neg]
    exact ih (settle q d)

/-- Trades of one direction move a holding by their sum exactly when none of them straddles
zero. -/
theorem foldl_settle_eq_iff {q : K} {ds : List K}
    (h : (∀ d ∈ ds, 0 ≤ d) ∨ ∀ d ∈ ds, d ≤ 0) :
    ds.foldl settle q = q + ds.sum ↔
      ∀ pre d, pre ++ [d] <+: ds → ¬ Straddles (q + pre.sum) d := by
  rcases h with h | h
  · exact (foldl_settle_buys h).2
  · have hneg : ∀ d ∈ ds.map (fun d ↦ -d), 0 ≤ d := by
      intro d hd
      obtain ⟨x, hx, rfl⟩ := List.mem_map.mp hd
      exact neg_nonneg.mpr (h x hx)
    have hbuys := (@foldl_settle_buys K _ _ _ (-q) _ hneg).2
    have hsum (xs : List K) : -q + (xs.map (fun d ↦ -d)).sum = -(q + xs.sum) := by
      induction xs with
      | nil => simp
      | cons x xs ih =>
        rw [List.map_cons, List.sum_cons, List.sum_cons]
        linarith
    rw [foldl_settle_neg, hsum, neg_inj] at hbuys
    rw [hbuys]
    constructor
    · intro hall pre d hp hs
      refine hall (pre.map (fun d ↦ -d)) (-d) ?_ ?_
      · simpa using List.IsPrefix.map (fun d : K ↦ -d) hp
      · rw [hsum, straddles_neg]
        exact hs
    · intro hall pre d hp hs
      refine hall (pre.map (fun d ↦ -d)) (-d) ?_ ?_
      · simpa [Function.comp_def] using List.IsPrefix.map (fun d : K ↦ -d) hp
      · rw [← straddles_neg, neg_neg, ← hsum, List.map_map]
        simpa [Function.comp_def] using hs

end CostAccount
end Joker.Base
