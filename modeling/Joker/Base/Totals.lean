import Mathlib.Algebra.BigOperators.Group.Finset.Basic
import Mathlib.Algebra.Order.BigOperators.Group.List
import Mathlib.Algebra.Order.Field.Rat
import Joker.Base.Dict

/-!
# Totals over a dictionary

Library `Base`. The total of a weight over the values of a dictionary. Two dictionaries that
differ at one key only have totals that differ by the weights there, whatever the order of
their entries.
-/

namespace Joker.Base.Dict

variable {K V W : Type} [DecidableEq K]

section Sums

variable [AddCommGroup W]

/-- The total weight of the values. -/
def total (f : V → W) (d : Dict K V) : W := (d.values.map f).sum

/-- The weight at a key, zero without an entry. -/
def weightAt (f : V → W) (d : Dict K V) (k : K) : W := ((d.get? k).map f).getD 0

/-- The total is the sum of the weights at a set of keys that has them all. -/
theorem total_eq_sum (f : V → W) (d : Dict K V) {keys : Finset K} (h : ∀ k ∈ d.keys, k ∈ keys) :
    d.total f = keys.sum (d.weightAt f) := by
  have hkeys : d.total f = d.keys.toFinset.sum (d.weightAt f) := by
    have hn : d.keys.Nodup := d.nodup
    rw [List.sum_toFinset _ hn]
    unfold total values Dict.keys
    rw [List.map_map, List.map_map]
    congr 1
    apply List.map_congr_left
    intro e he
    have hget := (d.mem_entries_iff e.1 e.2).mp he
    simp only [Function.comp_apply, weightAt, hget, Option.map_some, Option.getD_some]
  rw [hkeys]
  apply Finset.sum_subset
  · intro k hk
    exact h k (List.mem_toFinset.mp hk)
  · intro k _ hk
    have hnone := (d.not_mem_keys_iff k).mp (fun hm ↦ hk (List.mem_toFinset.mpr hm))
    simp only [weightAt, hnone, Option.map_none, Option.getD_none]

/-- Dictionaries with the same items have the same totals, whatever the order of insertion. -/
theorem total_congr (f : V → W) {d d' : Dict K V} (h : ∀ k, d.get? k = d'.get? k) :
    d.total f = d'.total f := by
  have hkeys : ∀ k, k ∈ d.keys ↔ k ∈ d'.keys := by
    intro k
    rw [mem_keys_iff, mem_keys_iff, h]
  have hd : ∀ k ∈ d.keys, k ∈ d'.keys.toFinset := fun k hk ↦ List.mem_toFinset.mpr ((hkeys k).mp hk)
  have hd' : ∀ k ∈ d'.keys, k ∈ d'.keys.toFinset := fun k hk ↦ List.mem_toFinset.mpr hk
  rw [total_eq_sum f d hd, total_eq_sum f d' hd']
  apply Finset.sum_congr rfl
  intro k _
  unfold weightAt
  rw [h]

/-- Totals of dictionaries that weigh the same at all other keys differ by the weights at
one. -/
theorem total_sub_weightAt (f : V → W) {d d' : Dict K V} {a : K}
    (h : ∀ k, k ≠ a → d'.weightAt f k = d.weightAt f k) :
    d'.total f - d'.weightAt f a = d.total f - d.weightAt f a := by
  have hall : ∀ e : Dict K V, e = d ∨ e = d' →
      e.total f - e.weightAt f a = (((d.keys ++ d'.keys).toFinset ∪ {a}).erase a).sum
        (d.weightAt f) := by
    intro e he
    have hkeys : ∀ k ∈ e.keys, k ∈ (d.keys ++ d'.keys).toFinset ∪ {a} := by
      intro k hk
      apply Finset.mem_union_left
      rw [List.mem_toFinset, List.mem_append]
      rcases he with rfl | rfl
      · exact Or.inl hk
      · exact Or.inr hk
    rw [e.total_eq_sum f hkeys,
      ← Finset.sum_erase_add _ _ (Finset.mem_union_right _ (Finset.mem_singleton_self a)),
      add_sub_cancel_right]
    apply Finset.sum_congr rfl
    intro k hk
    rcases he with rfl | rfl
    · rfl
    · exact h k (Finset.ne_of_mem_erase hk)
  rw [hall d (Or.inl rfl), hall d' (Or.inr rfl)]

end Sums

/-- One weight is at most the total of nonnegative weights. -/
theorem weightAt_le_total {f : V → ℚ} (d : Dict K V) (h : ∀ v ∈ d.values, 0 ≤ f v) (k : K) :
    d.weightAt f k ≤ d.total f := by
  have hnonneg : ∀ w ∈ d.values.map f, 0 ≤ w := by
    intro w hw
    obtain ⟨v, hv, rfl⟩ := List.mem_map.mp hw
    exact h v hv
  unfold weightAt
  cases hk : d.get? k with
  | none => exact List.sum_nonneg hnonneg
  | some v =>
    apply List.single_le_sum hnonneg
    exact List.mem_map_of_mem ((d.mem_values_iff v).mpr ⟨k, hk⟩)

end Joker.Base.Dict
