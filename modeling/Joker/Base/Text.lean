import Mathlib.Data.List.Infix
import Mathlib.Data.List.TakeWhile
import Mathlib.Tactic.Common

/-!
# Separated texts

Library `Base`. Keys are built by joining parts with a one-character separator. A part that
does not contain the separator can be read off the front of the joined text, so two keys
agree exactly when their parts do.
-/

namespace Joker.Base

/-- Two texts joined by a one-character separator. -/
def joinSep (sep : Char) (a b : String) : String := a ++ String.singleton sep ++ b

private theorem toList_joinSep (sep : Char) (a b : String) :
    (joinSep sep a b).toList = a.toList ++ sep :: b.toList := by
  simp [joinSep, String.toList_append, List.append_assoc]

private theorem split_at_sep {sep : Char} {xs xs' ys ys' : List Char} (hx : sep ∉ xs)
    (hx' : sep ∉ xs') (h : xs ++ sep :: ys = xs' ++ sep :: ys') : xs = xs' ∧ ys = ys' := by
  induction xs generalizing xs' with
  | nil =>
    cases xs' with
    | nil => exact ⟨rfl, (List.cons.inj h).2⟩
    | cons c cs =>
      have hc := (List.cons.inj h).1
      exact absurd (hc ▸ List.mem_cons_self) hx'
  | cons c cs ih =>
    cases xs' with
    | nil =>
      have hc := (List.cons.inj h).1
      exact absurd (hc ▸ List.mem_cons_self) hx
    | cons c' cs' =>
      obtain ⟨hc, ht⟩ := List.cons.inj h
      obtain ⟨hcs, hys⟩ := ih (fun hm ↦ hx (List.mem_cons_of_mem _ hm))
        (fun hm ↦ hx' (List.mem_cons_of_mem _ hm)) ht
      exact ⟨by rw [hc, hcs], hys⟩

/-- Joined texts agree exactly when both parts do, if the first parts have no separator. -/
theorem joinSep_inj {sep : Char} {a a' b b' : String} (ha : sep ∉ a.toList)
    (ha' : sep ∉ a'.toList) : joinSep sep a b = joinSep sep a' b' ↔ a = a' ∧ b = b' := by
  constructor
  · intro h
    have hl := congrArg String.toList h
    rw [toList_joinSep, toList_joinSep] at hl
    obtain ⟨h1, h2⟩ := split_at_sep ha ha' hl
    exact ⟨String.toList_inj.mp h1, String.toList_inj.mp h2⟩
  · rintro ⟨rfl, rfl⟩
    rfl

/-- Joined texts with one first part agree exactly when the second parts do. -/
theorem joinSep_right_inj {sep : Char} {a b b' : String} :
    joinSep sep a b = joinSep sep a b' ↔ b = b' := by
  constructor
  · intro h
    have hl := congrArg String.toList h
    rw [toList_joinSep, toList_joinSep] at hl
    exact String.toList_inj.mp (List.cons.inj (List.append_cancel_left hl)).2
  · rintro rfl
    rfl

/-- Joined texts with one second part agree exactly when the first parts do. -/
theorem joinSep_left_inj {sep : Char} {a a' b : String} :
    joinSep sep a b = joinSep sep a' b ↔ a = a' := by
  constructor
  · intro h
    have hl := congrArg String.toList h
    rw [toList_joinSep, toList_joinSep] at hl
    exact String.toList_inj.mp (List.append_cancel_right hl)
  · rintro rfl
    rfl

/-- Joining is associative. -/
theorem joinSep_assoc (sep : Char) (a b c : String) :
    joinSep sep (joinSep sep a b) c = joinSep sep a (joinSep sep b c) := by
  apply String.toList_inj.mp
  simp only [toList_joinSep, List.append_assoc, List.cons_append]

/-- Joined texts agree exactly when both parts do, if one of them has no further separator. -/
theorem joinSep_inj_of_plain {sep : Char} {a a' b b' : String} (ha' : sep ∉ a'.toList)
    (hb' : sep ∉ b'.toList) : joinSep sep a b = joinSep sep a' b' ↔ a = a' ∧ b = b' := by
  constructor
  · intro h
    have hcount := congrArg (List.count sep) (congrArg String.toList h)
    rw [toList_joinSep, toList_joinSep, List.count_append, List.count_append,
      List.count_cons_self, List.count_cons_self, List.count_eq_zero_of_not_mem ha',
      List.count_eq_zero_of_not_mem hb'] at hcount
    have ha : List.count sep a.toList = 0 := by omega
    exact (joinSep_inj (List.count_eq_zero.mp ha) ha').mp h
  · rintro ⟨rfl, rfl⟩
    rfl

private theorem split_at_sep_right {sep : Char} {xs xs' ys ys' : List Char} (hy : sep ∉ ys)
    (hy' : sep ∉ ys') (h : xs ++ sep :: ys = xs' ++ sep :: ys') : xs = xs' ∧ ys = ys' := by
  have hr : ys.reverse ++ sep :: xs.reverse = ys'.reverse ++ sep :: xs'.reverse := by
    simpa using congrArg List.reverse h
  obtain ⟨h1, h2⟩ := split_at_sep (by simpa using hy) (by simpa using hy') hr
  exact ⟨List.reverse_inj.mp h2, List.reverse_inj.mp h1⟩

/-- Joined texts agree exactly when both parts do, if the second parts have no separator. -/
theorem joinSep_inj_of_plain_right {sep : Char} {a a' b b' : String} (hb : sep ∉ b.toList)
    (hb' : sep ∉ b'.toList) : joinSep sep a b = joinSep sep a' b' ↔ a = a' ∧ b = b' := by
  constructor
  · intro h
    have hl := congrArg String.toList h
    rw [toList_joinSep, toList_joinSep] at hl
    obtain ⟨h1, h2⟩ := split_at_sep_right hb hb' hl
    exact ⟨String.toList_inj.mp h1, String.toList_inj.mp h2⟩
  · rintro ⟨rfl, rfl⟩
    rfl

/-- `text.split(sep)`. -/
def splitText (sep : Char) (text : String) : List String :=
  (text.toList.splitOn sep).map String.ofList

private theorem not_mem_of_mem_splitOn {sep : Char} {xs part : List Char}
    (h : part ∈ xs.splitOn sep) : sep ∉ part := by
  induction xs generalizing part with
  | nil =>
    rw [List.splitOn_nil, List.mem_singleton] at h
    exact h ▸ List.not_mem_nil
  | cons c cs ih =>
    rw [List.splitOn_cons_eq_if_modifyHead] at h
    split at h
    · rcases List.mem_cons.mp h with rfl | h
      · exact List.not_mem_nil
      · exact ih h
    · next hc =>
      obtain ⟨first, rest, hsplit⟩ := List.exists_cons_of_ne_nil (List.splitOn_ne_nil sep cs)
      rw [hsplit, List.modifyHead_cons] at h
      rcases List.mem_cons.mp h with rfl | h
      · intro hm
        rcases List.mem_cons.mp hm with rfl | hm
        · exact hc (beq_self_eq_true _)
        · exact ih (hsplit ▸ List.mem_cons_self) hm
      · exact ih (hsplit ▸ List.mem_cons_of_mem _ h)

/-- The parts of a split text have no separator. -/
theorem not_mem_of_mem_splitText {sep : Char} {text part : String}
    (h : part ∈ splitText sep text) : sep ∉ part.toList := by
  obtain ⟨chars, hm, rfl⟩ := List.mem_map.mp h
  rw [String.toList_ofList]
  exact not_mem_of_mem_splitOn hm

/-- Joining the parts of a text that splits into four gives the text back. -/
theorem joinSep_of_splitText {sep : Char} {text a b c d : String}
    (h : splitText sep text = [a, b, c, d]) :
    joinSep sep a (joinSep sep b (joinSep sep c d)) = text := by
  have hparts : text.toList.splitOn sep = [a.toList, b.toList, c.toList, d.toList] := by
    have hmap := congrArg (List.map String.toList) h
    simpa [splitText, List.map_map, Function.comp_def] using hmap
  have hjoin : [sep].intercalate (text.toList.splitOn sep) = text.toList :=
    List.intercalate_splitOn sep
  rw [hparts] at hjoin
  apply String.toList_inj.mp
  rw [← hjoin]
  simp [joinSep, List.intercalate, List.append_assoc]

/-- Four joined parts without the separator are split again. -/
theorem splitText_joinSep {sep : Char} {a b c d : String} (ha : sep ∉ a.toList)
    (hb : sep ∉ b.toList) (hc : sep ∉ c.toList) (hd : sep ∉ d.toList) :
    splitText sep (joinSep sep a (joinSep sep b (joinSep sep c d))) = [a, b, c, d] := by
  have hlist : (joinSep sep a (joinSep sep b (joinSep sep c d))).toList =
      [sep].intercalate [a.toList, b.toList, c.toList, d.toList] := by
    simp [joinSep, List.intercalate, List.append_assoc]
  unfold splitText
  rw [hlist, List.splitOn_intercalate sep (by simp [ha, hb, hc, hd]) (List.cons_ne_nil _ _)]
  simp

/-- `c.isspace()`. -/
def isSpace (c : Char) : Bool :=
  let n := c.toNat
  (9 ≤ n && n ≤ 13) || (28 ≤ n && n ≤ 32) || n = 0x85 || n = 0xa0 || n = 0x1680 ||
    (0x2000 ≤ n && n ≤ 0x200a) || n = 0x2028 || n = 0x2029 || n = 0x202f || n = 0x205f ||
    n = 0x3000

/-- Remove the characters a predicate selects from both ends of a text. -/
def stripBoth (p : Char → Bool) (s : String) : String :=
  String.ofList ((s.toList.dropWhile p).reverse.dropWhile p).reverse

/-- `s.strip()`. -/
def strip (s : String) : String := stripBoth isSpace s

/-- The lower case of a letter: the ASCII letters, and the Kelvin sign whose lower case is `k`;
no other character lowers to an ASCII letter. -/
def lowerChar (c : Char) : Char := if c.toNat = 0x212a then 'k' else c.toLower

/-- `s.lower()`, exact wherever the result is compared with an ASCII text. -/
def lower (s : String) : String := String.ofList (s.toList.map lowerChar)

/-- The upper case of a character: the ASCII letters, and the other characters whose upper case
has ASCII letters only. -/
def upperChar (c : Char) : List Char :=
  if c.toNat = 0x131 then ['I']
  else if c.toNat = 0x17f then ['S']
  else if c.toNat = 0xdf then ['S', 'S']
  else if c.toNat = 0xfb00 then ['F', 'F']
  else if c.toNat = 0xfb01 then ['F', 'I']
  else if c.toNat = 0xfb02 then ['F', 'L']
  else if c.toNat = 0xfb03 then ['F', 'F', 'I']
  else if c.toNat = 0xfb04 then ['F', 'F', 'L']
  else if c.toNat = 0xfb05 ∨ c.toNat = 0xfb06 then ['S', 'T']
  else [c.toUpper]

/-- `s.upper()`, exact wherever the result is compared with an ASCII text. -/
def upper (s : String) : String := String.ofList (s.toList.flatMap upperChar)

/-- `part in text`. -/
def hasText (part text : String) : Bool := decide (part.toList <:+: text.toList)

/-- `text.startswith(part)`. -/
def startsWithText (part text : String) : Bool := decide (part.toList <+: text.toList)

/-- `text.endswith(part)`. -/
def endsWithText (part text : String) : Bool := decide (part.toList <:+ text.toList)

/-- `text.replace(old, new)` for single characters. -/
def replaceChar (old new : Char) (text : String) : String :=
  String.ofList (text.toList.map (fun c ↦ if c = old then new else c))

/-- A text is blank when stripping leaves nothing. -/
def isBlank (s : String) : Bool := s.toList.all isSpace

/-- Stripping leaves nothing of blank texts only. -/
theorem isBlank_of_strip {s : String} (h : strip s = "") : isBlank s = true := by
  have hends : ∀ c ∈ s.toList.dropWhile isSpace, isSpace c = true := by
    have hnil : ((s.toList.dropWhile isSpace).reverse.dropWhile isSpace).reverse = [] := by
      have := congrArg String.toList h
      simpa [strip, stripBoth] using this
    intro c hc
    exact List.dropWhile_eq_nil_iff.mp (List.reverse_eq_nil_iff.mp hnil) c
      (List.mem_reverse.mpr hc)
  unfold isBlank
  rw [List.all_eq_true, ← List.dropWhile_eq_nil_iff]
  cases hd : s.toList.dropWhile isSpace with
  | nil => rfl
  | cons c rest =>
    have hhead : isSpace c = false := by
      have := List.head?_dropWhile_not isSpace s.toList
      rw [hd] at this
      simpa using this
    rw [hends c (hd ▸ List.mem_cons_self)] at hhead
    cases hhead

example : lower (strip " Partially_Filled ") = "partially_filled" := by decide

end Joker.Base
