import Mathlib.Algebra.Group.Nat.Defs
import Mathlib.Data.Char
import Mathlib.Data.List.Lex
import Mathlib.Order.Lattice
import Mathlib.Tactic.Common

/-!
# The order of numerals as texts

Library `Base`. Texts are compared character by character. Two texts whose first parts have one
length are compared part by part, and decimal numerals padded to one width are compared as their
numbers are.
-/

namespace Joker.Base

section Parts

variable {α : Type*} [LinearOrder α] {xs xs' ys ys' : List α}

/-- Lists whose first parts have one length are compared part by part. -/
theorem append_lt_append_iff (h : xs.length = xs'.length) :
    xs ++ ys < xs' ++ ys' ↔ xs < xs' ∨ xs = xs' ∧ ys < ys' := by
  induction xs generalizing xs' with
  | nil =>
    have hnil : xs' = [] := List.length_eq_zero_iff.mp h.symm
    subst hnil
    simp
  | cons x xs ih =>
    cases xs' with
    | nil => simp at h
    | cons x' xs' =>
      rw [List.cons_append, List.cons_append, List.cons_lt_cons_iff, List.cons_lt_cons_iff,
        ih (Nat.succ.inj h), List.cons.injEq]
      constructor
      · rintro (hlt | ⟨heq, hlt | ⟨hxs, hys⟩⟩)
        · exact Or.inl (Or.inl hlt)
        · exact Or.inl (Or.inr ⟨heq, hlt⟩)
        · exact Or.inr ⟨⟨heq, hxs⟩, hys⟩
      · rintro ((hlt | ⟨heq, hlt⟩) | ⟨⟨heq, hxs⟩, hys⟩)
        · exact Or.inl hlt
        · exact Or.inr ⟨heq, Or.inl hlt⟩
        · exact Or.inr ⟨heq, Or.inr ⟨hxs, hys⟩⟩

/-- One common first element plays no part. -/
theorem cons_lt_cons_same (x : α) : x :: ys < x :: ys' ↔ ys < ys' := by
  rw [List.cons_lt_cons_iff]
  simp

end Parts

/-- `f"{n:0{width}d}"`. -/
def padded (width n : Nat) : List Char :=
  let digits := Nat.toDigits 10 n
  List.replicate (width - digits.length) '0' ++ digits

private theorem digitChar_lt_iff {d d' : Nat} (h : d < 10) (h' : d' < 10) :
    d.digitChar < d'.digitChar ↔ d < d' := by
  have hall : ∀ d d' : Fin 10, d.val.digitChar < d'.val.digitChar ↔ d.val < d'.val := by decide
  exact hall ⟨d, h⟩ ⟨d', h'⟩

/-- A number of one digit is its own numeral. -/
theorem padded_one {n : Nat} (h : n < 10) : padded 1 n = [n.digitChar] := by
  unfold padded
  rw [Nat.toDigits_of_lt_base h]
  rfl

/-- One more place is one more digit. -/
theorem padded_succ {width : Nat} (hw : 0 < width) (n : Nat) :
    padded (width + 1) n = padded width (n / 10) ++ [(n % 10).digitChar] := by
  unfold padded
  by_cases h : n < 10
  · rw [Nat.toDigits_of_lt_base h, Nat.div_eq_of_lt h, Nat.mod_eq_of_lt h, Nat.toDigits_zero]
    obtain ⟨width, rfl⟩ : ∃ w, width = w + 1 := ⟨width - 1, by omega⟩
    simp [List.replicate_succ']
  · rw [Nat.toDigits_of_base_le (by decide) (by omega)]
    simp only [List.length_append, List.length_singleton, List.append_assoc]
    congr 2
    omega

/-- A number that fits is padded to the width. -/
theorem length_padded {width n : Nat} (hw : 0 < width) (h : n < 10 ^ width) :
    (padded width n).length = width := by
  unfold padded
  have hle : (Nat.toDigits 10 n).length ≤ width :=
    (Nat.length_toDigits_le_iff (by decide) hw).mpr h
  simp only [List.length_append, List.length_replicate]
  omega

/-- Numerals of one width are compared as their numbers are. -/
theorem padded_lt_iff {width : Nat} (hw : 0 < width) {n m : Nat} (hn : n < 10 ^ width)
    (hm : m < 10 ^ width) : padded width n < padded width m ↔ n < m := by
  induction width, hw using Nat.le_induction generalizing n m with
  | base =>
    rw [pow_one] at hn hm
    rw [padded_one hn, padded_one hm, List.cons_lt_cons_iff, digitChar_lt_iff hn hm]
    simp
  | succ width hw ih =>
    rw [pow_succ] at hn hm
    have hn' : n / 10 < 10 ^ width := by omega
    have hm' : m / 10 < 10 ^ width := by omega
    have heq : padded width (n / 10) = padded width (m / 10) ↔ n / 10 = m / 10 := by
      constructor
      · intro h
        have hlt := ih hn' hm'
        have hgt := ih hm' hn'
        rw [h] at hlt hgt
        have hn := hlt.not.mp (lt_irrefl _)
        have hm := hgt.not.mp (lt_irrefl _)
        omega
      · exact fun h ↦ h ▸ rfl
    rw [padded_succ hw, padded_succ hw, append_lt_append_iff
      ((length_padded hw hn').trans (length_padded hw hm').symm), ih hn' hm', heq,
      List.cons_lt_cons_iff, digitChar_lt_iff (Nat.mod_lt n (by decide))
        (Nat.mod_lt m (by decide))]
    simp only [List.not_lt_nil, and_false, or_false]
    omega

/-- Numerals of one width are equal only as their numbers are. -/
theorem padded_inj {width : Nat} (hw : 0 < width) {n m : Nat} (hn : n < 10 ^ width)
    (hm : m < 10 ^ width) : padded width n = padded width m ↔ n = m := by
  constructor
  · intro h
    have hlt := padded_lt_iff hw hn hm
    have hgt := padded_lt_iff hw hm hn
    rw [h] at hlt hgt
    have hn := hlt.not.mp (lt_irrefl _)
    have hm := hgt.not.mp (lt_irrefl _)
    omega
  · rintro rfl
    rfl

/-- Texts that begin with a numeral of one width are compared by its number first. -/
theorem padded_append_lt_iff {width : Nat} (hw : 0 < width) {n m : Nat} (hn : n < 10 ^ width)
    (hm : m < 10 ^ width) {ys ys' : List Char} :
    padded width n ++ ys < padded width m ++ ys' ↔ n < m ∨ n = m ∧ ys < ys' := by
  rw [append_lt_append_iff ((length_padded hw hn).trans (length_padded hw hm).symm),
    padded_lt_iff hw hn hm, padded_inj hw hn hm]

end Joker.Base
