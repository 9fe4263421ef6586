import Mathlib.Algebra.Order.Group.Nat
import Mathlib.Data.List.Basic
import Mathlib.Data.List.TakeDrop
import Mathlib.Tactic.Common

/-!
# Slices

Library `Base`. A list cut into consecutive slices of one size, as `xs[start:start + size]` for
`start in range(0, len(xs), size)` cuts it. Every element is in exactly one slice, in its place.
-/

namespace Joker.Base

variable {A : Type*}

/-- `range(0, n, size)` for a positive size. -/
def sliceStarts (size n : ℕ) : List ℕ := (List.range ((n + size - 1) / size)).map (· * size)

/-- `xs[start:start + size]`. -/
def slice (size : ℕ) (xs : List A) (start : ℕ) : List A := (xs.drop start).take size

/-- The first slices are the first elements. -/
theorem flatMap_slice_range (size : ℕ) (xs : List A) (k : ℕ) :
    ((List.range k).map (· * size)).flatMap (slice size xs) = xs.take (k * size) := by
  induction k with
  | zero => simp
  | succ k ih =>
    rw [List.range_succ, List.map_append, List.flatMap_append, ih, Nat.succ_mul, List.take_add]
    simp [slice]

/-- All slices are all elements. -/
theorem flatMap_slice {size : ℕ} (h : 0 < size) (xs : List A) :
    (sliceStarts size xs.length).flatMap (slice size xs) = xs := by
  have hcover : xs.length ≤ (xs.length + size - 1) / size * size := by
    have hlt := Nat.lt_mul_div_succ (xs.length + size - 1) h
    rw [Nat.mul_add, Nat.mul_comm size] at hlt
    omega
  rw [sliceStarts, flatMap_slice_range, List.take_of_length_le hcover]

/-- A slice is part of the list. -/
theorem slice_sublist (size : ℕ) (xs : List A) (start : ℕ) : (slice size xs start).Sublist xs :=
  (List.take_sublist _ _).trans (List.drop_sublist _ _)

end Joker.Base
