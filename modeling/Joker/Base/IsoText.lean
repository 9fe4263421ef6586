import Joker.Base.DatetimeOrder

/-!
# Timestamps read back

Library `Base`. `datetime.fromisoformat` on the texts that `isoformat` writes: with a `T`, with a
fraction of six digits or none, and with an offset of minutes or seconds or none. Every timestamp
that Python can build is read back from its text.
-/

namespace Joker.Base

/-! ### Numerals -/

/-- A padded number has digits only. -/
theorem isDigit_padded {width n : ℕ} {c : Char} (h : c ∈ padded width n) : c.isDigit = true := by
  unfold padded at h
  rcases List.mem_append.mp h with h | h
  · rw [List.eq_of_mem_replicate h]
    rfl
  · exact Nat.isDigit_of_mem_toDigits (by decide) (by decide) h

/-- A padded number is no empty text. -/
theorem padded_ne_nil (width n : ℕ) : padded width n ≠ [] := by
  unfold padded
  exact List.append_ne_nil_of_right_ne_nil _ Nat.toDigits_ne_nil

/-- A padded numeral has the value of its number. -/
theorem ofDigitChars_padded (width n : ℕ) : Nat.ofDigitChars 10 (padded width n) 0 = n := by
  unfold padded
  rw [Nat.ofDigitChars_append, Nat.ofDigitChars_replicate_zero, Nat.mul_zero,
    Nat.ofDigitChars_ten_toDigits]

/-- A numeral of a fixed width, and the text behind it. -/
def readPadded (width : ℕ) (text : List Char) : Option (ℕ × List Char) :=
  let digits := text.take width
  if digits.length = width ∧ digits.all Char.isDigit then
    some (Nat.ofDigitChars 10 digits 0, text.drop width)
  else none

/-- A padded numeral is read. -/
theorem readPadded_padded {width n : ℕ} (hw : 0 < width) (h : n < 10 ^ width) (rest : List Char) :
    readPadded width (padded width n ++ rest) = some (n, rest) := by
  have hlength := length_padded hw h
  have htake : (padded width n ++ rest).take width = padded width n := by
    rw [List.take_append_of_le_length (by omega), List.take_of_length_le (by omega)]
  have hdrop : (padded width n ++ rest).drop width = rest := by
    rw [List.drop_append_of_le_length (by omega), List.drop_of_length_le (by omega),
      List.nil_append]
  have hdigits : (padded width n).all Char.isDigit = true :=
    List.all_eq_true.mpr (fun _ hc ↦ isDigit_padded hc)
  unfold readPadded
  rw [htake, hdrop, if_pos ⟨hlength, hdigits⟩, ofDigitChars_padded]

/-- One expected character, and the text behind it. -/
def readChar (expected : Char) : List Char → Option (List Char)
  | [] => none
  | c :: rest => if c = expected then some rest else none

/-- A character is read off the text that it begins. -/
@[simp] theorem readChar_cons (c : Char) (rest : List Char) :
    readChar c (c :: rest) = some rest := if_pos rfl

/-! ### Timestamps -/

namespace Datetime

/-- The microseconds: none, or six digits. -/
def readFraction : List Char → Option (ℕ × List Char)
  | '.' :: text => readPadded 6 text
  | text => some (0, text)

/-- The seconds of an offset: none, or two digits. -/
def readOffsetSeconds (text : List Char) : Option (ℕ × List Char) :=
  match text with
  | ':' :: text => readPadded 2 text
  | text => some (0, text)

/-- The offset that a text ends with. -/
def readOffset (text : List Char) : Option (Option ℤ) :=
  match text with
  | [] => some none
  | sign :: text => do
    let (hours, text) ← readPadded 2 text
    let text ← readChar ':' text
    let (minutes, text) ← readPadded 2 text
    let (seconds, text) ← readOffsetSeconds text
    let total : ℕ := hours * 3600 + minutes * 60 + seconds
    if text ≠ [] ∨ 60 ≤ minutes ∨ 60 ≤ seconds ∨ 86400 ≤ total then none
    else if sign = '+' then some (some total)
    else if sign = '-' then some (some (-total))
    else none

/-- `datetime.fromisoformat(text)`; `none` stands for its `ValueError`. -/
def fromisoformat (text : String) : Option Datetime := do
  let (year, rest) ← readPadded 4 text.toList
  let rest ← readChar '-' rest
  let (month, rest) ← readPadded 2 rest
  let rest ← readChar '-' rest
  let (day, rest) ← readPadded 2 rest
  let rest ← readChar 'T' rest
  let (hour, rest) ← readPadded 2 rest
  let rest ← readChar ':' rest
  let (minute, rest) ← readPadded 2 rest
  let rest ← readChar ':' rest
  let (second, rest) ← readPadded 2 rest
  let (microsecond, rest) ← readFraction rest
  let utcoffset ← readOffset rest
  if (Date.mk year month day).WellFormed ∧ hour < 24 ∧ minute < 60 ∧ second < 60 then
    some ⟨year, month, day, hour, minute, second, microsecond, utcoffset⟩
  else none

/-- The end of a text, with the offset. -/
def offsetChars : Option ℤ → List Char
  | none => []
  | some seconds => offsetText seconds

private theorem readOffsetSeconds_text {n : ℕ} :
    readOffsetSeconds (if n % 60 = 0 then [] else ':' :: padded 2 (n % 60)) =
      some (n % 60, []) := by
  split
  · next hzero =>
    rw [hzero]
    rfl
  · have hread := @readPadded_padded 2 (n % 60) (by decide) (by omega) []
    rw [List.append_nil] at hread
    exact hread

/-- An offset is read back. -/
theorem readOffset_offsetChars {utcoffset : Option ℤ}
    (h : ∀ seconds ∈ utcoffset, seconds.natAbs < 86400) :
    readOffset (offsetChars utcoffset) = some utcoffset := by
  cases utcoffset with
  | none => rfl
  | some seconds =>
    have hlt := h seconds rfl
    have htotal : seconds.natAbs / 3600 * 3600 + seconds.natAbs / 60 % 60 * 60 +
        seconds.natAbs % 60 = seconds.natAbs := by omega
    have hvalid : ¬ (([] : List Char) ≠ [] ∨ 60 ≤ seconds.natAbs / 60 % 60 ∨
        60 ≤ seconds.natAbs % 60 ∨ 86400 ≤ seconds.natAbs) := by
      rintro (hne | hle | hle | hle)
      · exact hne rfl
      all_goals omega
    unfold offsetChars offsetText
    simp only [List.append_assoc, List.cons_append]
    unfold readOffset
    simp only
    rw [readPadded_padded (by decide) (by omega)]
    simp only [Option.bind_eq_bind, Option.bind_some, readChar_cons]
    rw [readPadded_padded (by decide) (by omega)]
    simp only [Option.bind_some]
    rw [readOffsetSeconds_text]
    simp only [Option.bind_some, htotal]
    rw [if_neg hvalid]
    by_cases hneg : seconds < 0
    · rw [if_pos hneg, if_neg (by decide), if_pos rfl]
      congr 2
      omega
    · rw [if_neg hneg, if_pos rfl]
      congr 2
      omega

private theorem readFraction_text {microsecond : ℕ} (h : microsecond < 1000000)
    (utcoffset : Option ℤ) :
    readFraction ((if microsecond = 0 then [] else '.' :: padded 6 microsecond) ++
      offsetChars utcoffset) = some (microsecond, offsetChars utcoffset) := by
  split
  · next hzero =>
    rw [hzero, List.nil_append]
    cases utcoffset with
    | none => rfl
    | some seconds =>
      change readFraction (offsetText seconds) = some (0, offsetText seconds)
      rw [offsetText_eq]
      by_cases hneg : seconds < 0
      · rw [if_pos hneg]
        rfl
      · rw [if_neg hneg]
        rfl
  · exact readPadded_padded (by decide) h _

/-- A timestamp is read back from its text. -/
theorem fromisoformat_isoformat {t : Datetime} (h : t.WellFormed) :
    fromisoformat t.isoformat = some t := by
  obtain ⟨hdate, ⟨hhour, hminute, hsecond, hmicro⟩, hoffset⟩ := h
  have hvalid : (Date.mk t.year t.month t.day).WellFormed ∧ t.hour < 24 ∧ t.minute < 60 ∧
      t.second < 60 := ⟨hdate, hhour, hminute, hsecond⟩
  obtain ⟨⟨-, hyear⟩, ⟨-, hmonth⟩, -, hday⟩ := hdate
  have hlast : daysInMonth t.date.year t.date.month ≤ 31 := by
    unfold daysInMonth
    split_ifs <;> omega
  have hday31 : t.day ≤ 31 := hday.trans hlast
  change t.year ≤ 9999 at hyear
  change t.month ≤ 12 at hmonth
  have htext : t.isoformat.toList = padded 4 t.year ++ ('-' :: (padded 2 t.month ++
      ('-' :: (padded 2 t.day ++ ('T' :: (padded 2 t.hour ++ (':' :: (padded 2 t.minute ++
      (':' :: (padded 2 t.second ++
        ((if t.microsecond = 0 then [] else '.' :: padded 6 t.microsecond) ++
          offsetChars t.utcoffset))))))))))) := by
    have hlist : t.isoformat.toList = _ := String.toList_ofList
    rw [hlist]
    simp only [List.append_assoc, List.cons_append]
    rfl
  unfold fromisoformat
  rw [htext]
  -- Each part is read off the front of what is left.
  refine Option.bind_eq_some_iff.mpr ⟨_, readPadded_padded (by decide) (by omega) _, ?_⟩
  refine Option.bind_eq_some_iff.mpr ⟨_, readChar_cons _ _, ?_⟩
  refine Option.bind_eq_some_iff.mpr ⟨_, readPadded_padded (by decide) (by omega) _, ?_⟩
  refine Option.bind_eq_some_iff.mpr ⟨_, readChar_cons _ _, ?_⟩
  refine Option.bind_eq_some_iff.mpr ⟨_, readPadded_padded (by decide) (by omega) _, ?_⟩
  refine Option.bind_eq_some_iff.mpr ⟨_, readChar_cons _ _, ?_⟩
  refine Option.bind_eq_some_iff.mpr ⟨_, readPadded_padded (by decide) (by omega) _, ?_⟩
  refine Option.bind_eq_some_iff.mpr ⟨_, readChar_cons _ _, ?_⟩
  refine Option.bind_eq_some_iff.mpr ⟨_, readPadded_padded (by decide) (by omega) _, ?_⟩
  refine Option.bind_eq_some_iff.mpr ⟨_, readChar_cons _ _, ?_⟩
  refine Option.bind_eq_some_iff.mpr ⟨_, readPadded_padded (by decide) (by omega) _, ?_⟩
  refine Option.bind_eq_some_iff.mpr ⟨_, readFraction_text hmicro _, ?_⟩
  refine Option.bind_eq_some_iff.mpr ⟨_, readOffset_offsetChars hoffset, ?_⟩
  exact if_pos hvalid

end Datetime
end Joker.Base
