import Mathlib.Algebra.BigOperators.Group.Finset.Basic
import Mathlib.Algebra.Order.BigOperators.Group.Finset
import Mathlib.Algebra.Order.Field.Basic

/-!
# First occurrences

Library `Base`. The elements of a list whose key was not met before, in order: what a log with
unique keys keeps of the entries offered to it. Every key is kept once, and the weights of the
kept keys sum to those of a family of keys exactly when only weightless keys repeat in it.
-/

namespace Joker.Base

variable {A K : Type*} [DecidableEq K]

/-- Keep an element unless its key is kept already. -/
def keepFirst (key : A → K) (kept : List A) (x : A) : List A :=
  if key x ∈ kept.map key then kept else kept ++ [x]

/-- The elements whose key was not met before. -/
def firsts (key : A → K) (xs : List A) : List A := xs.foldl (keepFirst key) []

/-- The empty list has no firsts. -/
@[simp] theorem firsts_nil (key : A → K) : firsts key ([] : List A) = [] := rfl

/-- One more element at the end. -/
theorem firsts_snoc (key : A → K) (xs : List A) (x : A) :
    firsts key (xs ++ [x]) = keepFirst key (firsts key xs) x := by
  unfold firsts
  rw [List.foldl_append]
  rfl

/-- What is kept was offered, in the same order. -/
theorem firsts_sublist (key : A → K) (xs : List A) : (firsts key xs).Sublist xs := by
  induction xs using List.reverseRecOn with
  | nil => exact List.Sublist.refl _
  | append_singleton xs x ih =>
    rw [firsts_snoc, keepFirst]
    split
    · exact ih.trans (List.sublist_append_left xs [x])
    · exact ih.append (List.Sublist.refl _)

/-- More elements add to what is kept. -/
theorem firsts_prefix (key : A → K) {xs ys : List A} (h : xs <+: ys) :
    firsts key xs <+: firsts key ys := by
  obtain ⟨rest, rfl⟩ := h
  induction rest using List.reverseRecOn with
  | nil => rw [List.append_nil]
  | append_singleton rest x ih =>
    rw [← List.append_assoc, firsts_snoc, keepFirst]
    split
    · exact ih
    · exact ih.trans (List.prefix_append _ [x])

/-- Every key is kept. -/
theorem mem_map_firsts {key : A → K} {xs : List A} {k : K} :
    k ∈ (firsts key xs).map key ↔ k ∈ xs.map key := by
  induction xs using List.reverseRecOn with
  | nil => rfl
  | append_singleton xs y ih =>
    rw [firsts_snoc, keepFirst, List.map_append, List.mem_append, ← ih]
    split
    · next hy =>
      constructor
      · exact Or.inl
      · rintro (h | h)
        · exact h
        · rw [List.map_singleton, List.mem_singleton] at h
          exact h ▸ hy
    · rw [List.map_append, List.mem_append]

/-- No key is kept twice. -/
theorem nodup_map_firsts (key : A → K) (xs : List A) : ((firsts key xs).map key).Nodup := by
  induction xs using List.reverseRecOn with
  | nil => exact List.nodup_nil
  | append_singleton xs y ih =>
    rw [firsts_snoc, keepFirst]
    split
    · exact ih
    · next hy =>
      rw [List.map_append, List.map_singleton]
      apply List.Nodup.append ih (List.nodup_singleton _)
      exact List.disjoint_singleton.mpr hy

variable {W : Type*} [Field W] [LinearOrder W] [IsStrictOrderedRing W]

/-- Distinct members of a list weigh no more than the list. -/
theorem sum_distinct_le {distinct all : List K} {w : K → W} (hn : distinct.Nodup)
    (hm : ∀ k ∈ distinct, k ∈ all) (hw : ∀ k ∈ all, 0 ≤ w k) :
    (distinct.map w).sum ≤ (all.map w).sum := by
  rw [← List.sum_toFinset w hn, Finset.sum_list_map_count]
  have hsub : distinct.toFinset ⊆ all.toFinset := by
    intro k hk
    exact List.mem_toFinset.mpr (hm k (List.mem_toFinset.mp hk))
  calc ∑ k ∈ distinct.toFinset, w k
      ≤ ∑ k ∈ all.toFinset, w k := by
        apply Finset.sum_le_sum_of_subset_of_nonneg hsub
        exact fun k hk _ ↦ hw k (List.mem_toFinset.mp hk)
    _ ≤ ∑ k ∈ all.toFinset, all.count k • w k := by
        apply Finset.sum_le_sum
        intro k hk
        have hk := List.mem_toFinset.mp hk
        calc w k = 1 • w k := (one_nsmul _).symm
          _ ≤ all.count k • w k := nsmul_le_nsmul_left (hw k hk) (List.count_pos_iff.mpr hk)

/-- Distinct keys weigh as much as a list with the same members exactly when every member
with a weight occurs once in it. -/
theorem sum_distinct_eq_iff {distinct all : List K} {w : K → W} (hn : distinct.Nodup)
    (hm : ∀ k, k ∈ distinct ↔ k ∈ all) (hw : ∀ k ∈ all, 0 ≤ w k) :
    (distinct.map w).sum = (all.map w).sum ↔ ∀ k ∈ all, w k ≠ 0 → all.count k = 1 := by
  have hset : distinct.toFinset = all.toFinset := by
    ext k
    rw [List.mem_toFinset, List.mem_toFinset, hm]
  have hcount (k : K) (hk : k ∈ all) : 1 ≤ all.count k := List.count_pos_iff.mpr hk
  rw [← List.sum_toFinset w hn, hset, Finset.sum_list_map_count,
    Finset.sum_eq_sum_iff_of_le]
  · constructor
    · intro h k hk hne
      have he := h k (List.mem_toFinset.mpr hk)
      rw [nsmul_eq_mul, eq_comm, mul_eq_right₀ hne] at he
      exact_mod_cast he
    · intro h k hk
      have hk := List.mem_toFinset.mp hk
      by_cases hz : w k = 0
      · rw [hz, nsmul_zero]
      · rw [h k hk hz, one_nsmul]
  · intro k hk
    have hk := List.mem_toFinset.mp hk
    calc w k = 1 • w k := (one_nsmul _).symm
      _ ≤ all.count k • w k := nsmul_le_nsmul_left (hw k hk) (hcount k hk)

end Joker.Base
