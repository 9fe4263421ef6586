import Mathlib.Algebra.Order.Ring.Cast
import Mathlib.Algebra.Order.Field.Rat
import Mathlib.Data.List.TakeWhile
import Mathlib.Tactic.Common
import Mathlib.Tactic.Ring

/-!
# Decimal numerals

Library `Base`. A finite decimal is a sign, a coefficient and a power of ten, as in the
General Decimal Arithmetic behind Python's `decimal`. The text of a numeral follows
`Decimal.__str__`; reading accepts sign, digits, one point and one exponent. Every printed
numeral reads back as itself. Infinities, NaNs, digit grouping and surrounding white space
are not read.
-/

namespace Joker.Base

/-- Finite decimal numeral; equal values can have different numerals (`2.0` and `2.00`). -/
structure Decimal where
  negative : Bool
  coefficient : Nat
  exponent : Int
  deriving DecidableEq, Repr

namespace Decimal

/-- The number a numeral denotes. -/
def toRat (d : Decimal) : ℚ :=
  let magnitude : ℚ := match d.exponent with
    | .ofNat n => d.coefficient * 10 ^ n
    | .negSucc n => d.coefficient / 10 ^ (n + 1)
  if d.negative then -magnitude else magnitude

/-- `Decimal(n)` for an integer. -/
def ofInt (n : Int) : Decimal := ⟨decide (n < 0), n.natAbs, 0⟩

/-- An integer's numeral denotes it. -/
@[simp] theorem toRat_ofInt (n : Int) : (ofInt n).toRat = n := by
  have hm : ((n.natAbs : ℕ) : ℚ) = |(n : ℚ)| := by
    rw [← Int.cast_natCast, Int.natCast_natAbs, Int.cast_abs]
  change (if decide (n < 0) = true then -((n.natAbs : ℚ) * 10 ^ 0)
    else (n.natAbs : ℚ) * 10 ^ 0) = _
  rw [hm, pow_zero, mul_one]
  split
  · next h =>
    have hn : (n : ℚ) < 0 := by exact_mod_cast of_decide_eq_true h
    rw [abs_of_neg hn, neg_neg]
  · next h =>
    have hn : (0 : ℚ) ≤ n := by
      have := not_lt.mp (fun hn ↦ h (decide_eq_true hn))
      exact_mod_cast this
    exact abs_of_nonneg hn

/-- The coefficient with its sign. -/
def signedCoefficient (d : Decimal) : Int := if d.negative then -d.coefficient else d.coefficient

/-- `a - b`, exact, at the smaller exponent. -/
def sub (a b : Decimal) : Decimal :=
  let exponent := min a.exponent b.exponent
  let n := a.signedCoefficient * 10 ^ (a.exponent - exponent).toNat -
    b.signedCoefficient * 10 ^ (b.exponent - exponent).toNat
  ⟨decide (n < 0), n.natAbs, exponent⟩

example : (Decimal.sub ⟨false, 2, 0⟩ ⟨false, 350, -2⟩) = ⟨true, 150, -2⟩ := by decide

/-! ### Text -/

private def signText (negative : Bool) : List Char := if negative then ['-'] else []

-- Digits around the decimal point, which stands `dot` places from the left of `digits`.
private def bodyText (digits : List Char) (dot : Int) : List Char :=
  if dot ≤ 0 then '0' :: '.' :: (List.replicate (-dot).toNat '0' ++ digits)
  else if (digits.length : Int) ≤ dot then
    digits ++ List.replicate (dot - digits.length).toNat '0'
  else digits.take dot.toNat ++ '.' :: digits.drop dot.toNat

private def exponentText (shift : Int) : List Char :=
  if shift = 0 then []
  else 'E' :: (if shift < 0 then '-' else '+') :: Nat.toDigits 10 shift.natAbs

private def dotPlace (exponent : Int) (length : Nat) : Int :=
  if exponent ≤ 0 ∧ -6 < exponent + length then exponent + length else 1

private def strChars (d : Decimal) : List Char :=
  let digits := Nat.toDigits 10 d.coefficient
  let dot := dotPlace d.exponent digits.length
  signText d.negative ++ bodyText digits dot ++
    exponentText (d.exponent + digits.length - dot)

/-- `str(d)`: plain notation for an exponent at most zero and at most six leading zeros,
scientific notation otherwise. -/
def str (d : Decimal) : String := String.ofList (strChars d)

private def readDigits (cs : List Char) : Option Nat :=
  if cs ≠ [] ∧ cs.all Char.isDigit = true then some (Nat.ofDigitChars 10 cs 0) else none

private def readExponent : List Char → Option Int
  | [] => some 0
  | _ :: '-' :: cs => (readDigits cs).map (fun n : Nat ↦ -(n : Int))
  | _ :: '+' :: cs => (readDigits cs).map (fun n : Nat ↦ (n : Int))
  | _ :: cs => (readDigits cs).map (fun n : Nat ↦ (n : Int))

private def isExponentMark (c : Char) : Bool := c == 'E' || c == 'e'

private def readUnsigned (negative : Bool) (cs : List Char) : Option Decimal :=
  let mantissa := cs.takeWhile (fun c ↦ !isExponentMark c)
  let whole := mantissa.takeWhile (fun c ↦ c != '.')
  let fraction := (mantissa.dropWhile (fun c ↦ c != '.')).drop 1
  match readDigits (whole ++ fraction),
      readExponent (cs.dropWhile (fun c ↦ !isExponentMark c)) with
  | some coefficient, some shift =>
    some ⟨negative, coefficient, shift - fraction.length⟩
  | _, _ => none

private def readChars : List Char → Option Decimal
  | '-' :: cs => readUnsigned true cs
  | '+' :: cs => readUnsigned false cs
  | cs => readUnsigned false cs

/-- `Decimal(s)`; a text outside the grammar is `decimal.InvalidOperation`. -/
def ofStr (s : String) : Option Decimal := readChars s.toList

/-! ### Reading back -/

private theorem dotPlace_le (exponent : Int) (length : Nat) (h : 0 < length) :
    dotPlace exponent length ≤ length := by
  unfold dotPlace
  split <;> omega

private theorem isDigit_toDigits {n : Nat} {c : Char} (h : c ∈ Nat.toDigits 10 n) :
    c.isDigit = true :=
  Nat.isDigit_of_mem_toDigits (by decide) (by decide) h

private theorem isDigit_ne {c x : Char} (h : c.isDigit = true) (hx : x.isDigit = false) :
    c ≠ x := by
  rintro rfl
  rw [h] at hx
  cases hx

private theorem isDigit_not_mark {c : Char} (h : c.isDigit = true) :
    isExponentMark c = false := by
  simp [isExponentMark, isDigit_ne h (x := 'E') rfl, isDigit_ne h (x := 'e') rfl]

-- The two digit groups of a body: before and after the point.
private def wholeDigits (digits : List Char) (dot : Int) : List Char :=
  if dot ≤ 0 then ['0'] else digits.take dot.toNat

private def fractionDigits (digits : List Char) (dot : Int) : List Char :=
  if dot ≤ 0 then List.replicate (-dot).toNat '0' ++ digits else digits.drop dot.toNat

private theorem bodyText_split (digits : List Char) (dot : Int)
    (hle : dot ≤ digits.length) (hne : digits ≠ []) :
    bodyText digits dot = wholeDigits digits dot ++
      (if fractionDigits digits dot = [] then [] else '.' :: fractionDigits digits dot) := by
  unfold bodyText wholeDigits fractionDigits
  by_cases h0 : dot ≤ 0
  · have hf : List.replicate (-dot).toNat '0' ++ digits ≠ [] := by simp [hne]
    simp [h0, hne]
  · by_cases hl : (digits.length : Int) ≤ dot
    · have he : dot = digits.length := by omega
      subst he
      simp [hne]
    · have hd : digits.drop dot.toNat ≠ [] := by
        intro h
        have := List.drop_eq_nil_iff.mp h
        omega
      simp [h0, hl, hd]

private theorem length_fractionDigits (digits : List Char) (dot : Int)
    (hle : dot ≤ digits.length) :
    ((fractionDigits digits dot).length : Int) = digits.length - dot := by
  unfold fractionDigits
  split
  · simp only [List.length_append, List.length_replicate]
    omega
  · simp only [List.length_drop]
    omega

private theorem digits_groups {digits : List Char} {dot : Int} {c : Char}
    (hd : ∀ c ∈ digits, c.isDigit = true)
    (h : c ∈ wholeDigits digits dot ∨ c ∈ fractionDigits digits dot) :
    c.isDigit = true := by
  unfold wholeDigits fractionDigits at h
  split at h
  · rcases h with h | h
    · rw [List.mem_singleton.mp h]
      rfl
    · rcases List.mem_append.mp h with h | h
      · rw [List.eq_of_mem_replicate h]
        rfl
      · exact hd c h
  · rcases h with h | h
    · exact hd c (List.mem_of_mem_take h)
    · exact hd c (List.mem_of_mem_drop h)

private theorem ofDigitChars_groups (n : Nat) (dot : Int) :
    Nat.ofDigitChars 10
      (wholeDigits (Nat.toDigits 10 n) dot ++ fractionDigits (Nat.toDigits 10 n) dot) 0 = n := by
  unfold wholeDigits fractionDigits
  split
  · have hz : ['0'] ++ (List.replicate (-dot).toNat '0' ++ Nat.toDigits 10 n) =
        List.replicate ((-dot).toNat + 1) '0' ++ Nat.toDigits 10 n := by
      simp [List.replicate_succ]
    rw [hz, Nat.ofDigitChars_append, Nat.ofDigitChars_replicate_zero, Nat.mul_zero,
      Nat.ofDigitChars_ten_toDigits]
  · rw [List.take_append_drop, Nat.ofDigitChars_ten_toDigits]

private theorem wholeDigits_ne_nil (digits : List Char) (dot : Int) (hne : digits ≠ []) :
    wholeDigits digits dot ≠ [] := by
  unfold wholeDigits
  split
  · simp
  · have hd : dot.toNat ≠ 0 := by omega
    simp [List.take_eq_nil_iff, hne, hd]

private theorem readDigits_of_all {cs : List Char} (hne : cs ≠ [])
    (h : ∀ c ∈ cs, c.isDigit = true) : readDigits cs = some (Nat.ofDigitChars 10 cs 0) := by
  have ha : cs.all Char.isDigit = true := List.all_eq_true.mpr h
  simp [readDigits, hne, ha]

private theorem readExponent_exponentText (shift : Int) :
    readExponent (exponentText shift) = some shift := by
  have hd := readDigits_of_all (Nat.toDigits_ne_nil (n := shift.natAbs) (b := 10))
    (fun c hc ↦ isDigit_toDigits hc)
  rw [Nat.ofDigitChars_ten_toDigits] at hd
  unfold exponentText
  by_cases h0 : shift = 0
  · simp [readExponent, h0]
  · by_cases hn : shift < 0
    · rw [if_neg h0, if_pos hn]
      simp only [readExponent, hd, Option.map_some, Option.some.injEq]
      omega
    · rw [if_neg h0, if_neg hn]
      simp only [readExponent, hd, Option.map_some, Option.some.injEq]
      omega

private theorem takeWhile_prefix {p : Char → Bool} (xs ys : List Char)
    (hx : ∀ c ∈ xs, p c = true) (hy : ∀ c ∈ ys.head?, p c = false) :
    (xs ++ ys).takeWhile p = xs ∧ (xs ++ ys).dropWhile p = ys := by
  have ht : ys.takeWhile p = [] ∧ ys.dropWhile p = ys := by
    cases ys with
    | nil => simp
    | cons y ys =>
      have := hy y (by simp)
      simp [this]
  constructor
  · rw [List.takeWhile_append_of_pos hx, ht.1, List.append_nil]
  · rw [List.dropWhile_append_of_pos hx, ht.2]

private theorem head_exponentText (shift : Int) :
    ∀ c ∈ (exponentText shift).head?, isExponentMark c = true := by
  intro c hc
  unfold exponentText at hc
  split at hc
  · simp at hc
  · rw [List.head?_cons, Option.mem_some_iff] at hc
    rw [← hc]
    rfl

private theorem readUnsigned_text (negative : Bool) (n : Nat) (dot shift : Int)
    (hle : dot ≤ (Nat.toDigits 10 n).length) :
    readUnsigned negative (bodyText (Nat.toDigits 10 n) dot ++ exponentText shift) =
      some ⟨negative, n, shift - ((Nat.toDigits 10 n).length - dot)⟩ := by
  have hne : Nat.toDigits 10 n ≠ [] := Nat.toDigits_ne_nil
  have hdig : ∀ c ∈ Nat.toDigits 10 n, c.isDigit = true := fun c hc ↦ isDigit_toDigits hc
  have hw : ∀ c ∈ wholeDigits (Nat.toDigits 10 n) dot, c.isDigit = true :=
    fun c hc ↦ digits_groups hdig (Or.inl hc)
  have hf : ∀ c ∈ fractionDigits (Nat.toDigits 10 n) dot, c.isDigit = true :=
    fun c hc ↦ digits_groups hdig (Or.inr hc)
  have hlen := length_fractionDigits (Nat.toDigits 10 n) dot hle
  have hval := ofDigitChars_groups n dot
  have hwne := wholeDigits_ne_nil (Nat.toDigits 10 n) dot hne
  rw [bodyText_split _ _ hle hne]
  generalize wholeDigits (Nat.toDigits 10 n) dot = whole at *
  generalize fractionDigits (Nat.toDigits 10 n) dot = fraction at *
  -- The point, when it is printed, ends the whole digits and is the only one.
  let point : List Char := if fraction = [] then [] else '.' :: fraction
  have hmark : ∀ c ∈ whole ++ point, (!isExponentMark c) = true := by
    intro c hc
    rcases List.mem_append.mp hc with hc | hc
    · simp [isDigit_not_mark (hw c hc)]
    · by_cases hfe : fraction = []
      · simp [point, hfe] at hc
      · simp only [point, hfe, if_false, List.mem_cons] at hc
        rcases hc with hc | hc
        · subst hc
          rfl
        · simp [isDigit_not_mark (hf c hc)]
  have hexp : ∀ c ∈ (exponentText shift).head?, (!isExponentMark c) = false := by
    intro c hc
    simp [head_exponentText shift c hc]
  obtain ⟨htake, hdrop⟩ := takeWhile_prefix (whole ++ point) (exponentText shift) hmark hexp
  have hdot : ∀ c ∈ whole, (c != '.') = true := by
    intro c hc
    simpa using isDigit_ne (hw c hc) (x := '.') rfl
  have hpoint : ∀ c ∈ point.head?, (c != '.') = false := by
    intro c hc
    by_cases hfe : fraction = []
    · simp [point, hfe] at hc
    · simp only [point, hfe, if_false, List.head?_cons, Option.mem_some_iff] at hc
      simp [← hc]
  obtain ⟨hwhole, hfraction⟩ := takeWhile_prefix whole point hdot hpoint
  have hfrac : point.drop 1 = fraction := by
    by_cases hfe : fraction = []
    · simp [point, hfe]
    · simp [point, hfe]
  have hread : readDigits (whole ++ fraction) = some n := by
    rw [readDigits_of_all (by simp [hwne]) (by
      intro c hc
      rcases List.mem_append.mp hc with hc | hc
      · exact hw c hc
      · exact hf c hc), hval]
  change readUnsigned negative (whole ++ point ++ exponentText shift) = _
  simp only [readUnsigned, htake, hdrop, hwhole, hfraction, hfrac, hread,
    readExponent_exponentText, hlen]

private theorem head_bodyText (n : Nat) (dot : Int) (rest : List Char)
    (hle : dot ≤ (Nat.toDigits 10 n).length) :
    ∃ c cs, bodyText (Nat.toDigits 10 n) dot ++ rest = c :: cs ∧ c.isDigit = true := by
  have hne : Nat.toDigits 10 n ≠ [] := Nat.toDigits_ne_nil
  rw [bodyText_split _ _ hle hne]
  obtain ⟨c, cs, hcs⟩ := List.exists_cons_of_ne_nil (wholeDigits_ne_nil _ dot hne)
  refine ⟨c, _, by rw [hcs, List.cons_append, List.cons_append], ?_⟩
  have hmem : c ∈ wholeDigits (Nat.toDigits 10 n) dot := hcs ▸ List.mem_cons_self
  exact digits_groups (fun c hc ↦ isDigit_toDigits hc) (Or.inl hmem)

/-- Every printed numeral reads back as itself. -/
theorem ofStr_str (d : Decimal) : ofStr d.str = some d := by
  rcases d with ⟨negative, n, exponent⟩
  have hpos : 0 < (Nat.toDigits 10 n).length := Nat.length_toDigits_pos
  have hle := dotPlace_le exponent _ hpos
  have hread := readUnsigned_text negative n _
    (exponent + (Nat.toDigits 10 n).length -
      dotPlace exponent (Nat.toDigits 10 n).length) hle
  have hexp : exponent + ((Nat.toDigits 10 n).length : Int) -
      dotPlace exponent (Nat.toDigits 10 n).length -
      ((Nat.toDigits 10 n).length - dotPlace exponent (Nat.toDigits 10 n).length) =
        exponent := by ring
  rw [hexp] at hread
  obtain ⟨c, cs, hbody, hc⟩ := head_bodyText n _ (exponentText
    (exponent + (Nat.toDigits 10 n).length -
      dotPlace exponent (Nat.toDigits 10 n).length)) hle
  simp only [ofStr, str, String.toList_ofList, strChars]
  rw [List.append_assoc]
  rw [hbody] at hread ⊢
  cases negative with
  | true => exact hread
  | false =>
    have hm : c ≠ '-' := isDigit_ne hc rfl
    have hp : c ≠ '+' := isDigit_ne hc rfl
    simp only [signText, Bool.false_eq_true, if_false, List.nil_append]
    unfold readChars
    split
    · next h => exact absurd (List.cons.inj h).1 hm
    · next h => exact absurd (List.cons.inj h).1 hp
    · exact hread

/-- Numerals with one text are one numeral. -/
theorem str_injective : Function.Injective str := by
  intro a b h
  have := congrArg ofStr h
  rwa [ofStr_str, ofStr_str, Option.some.injEq] at this

/-- A numeral's text has digits, signs, a point and an exponent mark only. -/
theorem not_mem_str (d : Decimal) (x : Char) (hx : x ∉ ['-', '+', '.', 'E'])
    (hd : x.isDigit = false) : x ∉ d.str.toList := by
  rcases d with ⟨negative, n, exponent⟩
  have hpos : 0 < (Nat.toDigits 10 n).length := Nat.length_toDigits_pos
  simp only [List.mem_cons, List.not_mem_nil, or_false, not_or] at hx
  simp only [str, String.toList_ofList, strChars, List.mem_append, not_or]
  refine ⟨⟨?_, ?_⟩, ?_⟩
  · unfold signText
    split <;> simp [hx.1]
  · rw [bodyText_split _ _ (dotPlace_le exponent _ hpos) Nat.toDigits_ne_nil,
      List.mem_append]
    rintro (h | h)
    · have := digits_groups (fun c hc ↦ isDigit_toDigits hc) (Or.inl h)
      rw [this] at hd
      cases hd
    · split at h
      · simp at h
      · rcases List.mem_cons.mp h with h | h
        · exact hx.2.2.1 h
        · have := digits_groups (fun c hc ↦ isDigit_toDigits hc) (Or.inr h)
          rw [this] at hd
          cases hd
  · unfold exponentText
    split
    · simp
    · intro h
      rcases List.mem_cons.mp h with h | h
      · exact hx.2.2.2 h
      · rcases List.mem_cons.mp h with h | h
        · split at h
          · exact hx.1 h
          · exact hx.2.1 h
        · rw [isDigit_toDigits h] at hd
          cases hd

example : (Decimal.mk false 150 (-2)).str = "1.50" := by decide
example : (Decimal.mk true 7 (-9)).str = "-7E-9" := by decide

end Decimal
end Joker.Base
