import Joker.Base.Decimal

/-!
# Floats by their numerals

Library `Base`. A finite `float` is known by the numeral `repr` prints for it: the shortest one
that reads back as the float, so equal numerals are equal floats and the order of floats is the
order of their numerals. `Decimal(str(x))` is the numeral itself. Arithmetic on floats is not
defined here.
-/

namespace Joker.Base

/-- A finite float. -/
structure PyFloat where
  numeral : Decimal
  deriving DecidableEq, Repr

namespace PyFloat

/-- The value the numeral denotes; comparisons of floats are comparisons of it. -/
def toRat (x : PyFloat) : ℚ := x.numeral.toRat

private def twoDigits (n : Nat) : List Char :=
  if n < 10 then '0' :: Nat.toDigits 10 n else Nat.toDigits 10 n

private def scientific (negative : Bool) (digits : List Char) (shift : Int) : List Char :=
  let significant := (digits.reverse.dropWhile (fun c ↦ c = '0')).reverse
  (if negative then ['-'] else []) ++ significant.take 1 ++
    (if significant.length ≤ 1 then [] else '.' :: significant.drop 1) ++
      'e' :: (if shift < 0 then '-' else '+') :: twoDigits shift.natAbs

/-- `str(x)`: plain notation when the point falls from three places before the first digit to
sixteen after it, scientific notation otherwise. -/
def str (x : PyFloat) : String :=
  let digits := Nat.toDigits 10 x.numeral.coefficient
  let point := digits.length + x.numeral.exponent
  if -3 ≤ point ∧ point ≤ 16 then x.numeral.str
  else String.ofList (scientific x.numeral.negative digits (point - 1))

/-- A float's text has digits, signs, a point and an exponent mark only. -/
theorem not_mem_str (x : PyFloat) (c : Char) (hc : c ∉ ['-', '+', '.', 'E', 'e'])
    (hd : c.isDigit = false) : c ∉ x.str.toList := by
  have hdigit {n : ℕ} : c ∉ Nat.toDigits 10 n := by
    intro h
    rw [Nat.isDigit_of_mem_toDigits (by decide) (by decide) h] at hd
    cases hd
  have hzero : c ≠ '0' := by
    rintro rfl
    cases hd
  simp only [List.mem_cons, List.not_mem_nil, or_false, not_or] at hc
  unfold str
  simp only
  split
  · exact x.numeral.not_mem_str c (by simp [hc]) hd
  · rw [String.toList_ofList]
    have htwo {n : ℕ} : c ∉ twoDigits n := by
      unfold twoDigits
      split <;> simp [hzero, hdigit]
    have hsignificant : c ∉ ((Nat.toDigits 10 x.numeral.coefficient).reverse.dropWhile
        (fun c ↦ c = '0')).reverse := by
      intro h
      have hback := (List.dropWhile_sublist _).subset (List.mem_reverse.mp h)
      exact hdigit (List.mem_reverse.mp hback)
    unfold scientific
    simp only [List.mem_append, List.mem_cons, not_or]
    refine ⟨⟨⟨?_, ?_⟩, ?_⟩, hc.2.2.2.2, ?_, htwo⟩
    · split <;> simp [hc.1]
    · exact fun h ↦ hsignificant (List.mem_of_mem_take h)
    · split
      · exact List.not_mem_nil
      · rw [List.mem_cons, not_or]
        exact ⟨hc.2.2.1, fun h ↦ hsignificant (List.mem_of_mem_drop h)⟩
    · split <;> simp [hc.1, hc.2.1]

example : (PyFloat.mk ⟨false, 6300, -1⟩).str = "630.0" := by decide +kernel

example : (PyFloat.mk ⟨false, 15, -6⟩).str = "1.5e-05" := by decide +kernel

end PyFloat
end Joker.Base
