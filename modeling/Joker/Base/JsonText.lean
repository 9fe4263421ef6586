import Mathlib.Data.List.Infix
import Joker.Base.PyFloat

/-!
# JSON texts of lists

Library `Base`. The text that `json.dumps` writes for nested lists of scalars, with its defaults:
ASCII only, and `", "` between elements. In such a text a quote opens a literal, is escaped inside
of one, or closes one and is followed by the end of its element; so no quote behind a letter is
followed by a colon.
-/

namespace Joker.Base

/-! ### Literals -/

/-- `\uXXXX`. -/
def unicodeEscape (n : ℕ) : List Char :=
  ['\\', 'u', Nat.digitChar (n / 4096 % 16), Nat.digitChar (n / 256 % 16),
    Nat.digitChar (n / 16 % 16), Nat.digitChar (n % 16)]

/-- What a character outside of `' '` to `'~'` is written as; above the basic plane it is a pair of
surrogates. -/
def escapeOther (c : Char) : List Char :=
  if c = '\n' then ['\\', 'n']
  else if c = '\r' then ['\\', 'r']
  else if c = '\t' then ['\\', 't']
  else if c.toNat = 8 then ['\\', 'b']
  else if c.toNat = 12 then ['\\', 'f']
  else if c.toNat < 0x10000 then unicodeEscape c.toNat
  else
    unicodeEscape (0xd800 + (c.toNat - 0x10000) / 1024 % 1024) ++
      unicodeEscape (0xdc00 + (c.toNat - 0x10000) % 1024)

/-- A character of a literal. -/
def escapeChar (c : Char) : List Char :=
  if c = '"' then ['\\', '"']
  else if c = '\\' then ['\\', '\\']
  else if 32 ≤ c.toNat ∧ c.toNat ≤ 126 then [c]
  else escapeOther c

/-- The literal of a text. -/
def literal (text : String) : List Char := '"' :: text.toList.flatMap escapeChar ++ ['"']

/-- The text of a list, by the texts of its elements. -/
def arrayText (items : List (List Char)) : List Char :=
  '[' :: [',', ' '].intercalate items ++ [']']

/-! ### Quotes -/

/-- Every quote follows a bracket, a blank or a backslash, or comes before the end of an element;
`previous` is the character in front of the text. -/
def QuotesDelimit (previous : Char) : List Char → Prop
  | [] => True
  | c :: rest =>
    (c = '"' → previous ∈ ['[', ' ', '\\'] ∨ ∃ next ∈ rest.head?, next ∈ [',', ']']) ∧
      QuotesDelimit c rest

/-- A text that may stand as an element of a list. -/
def Delimited (item : List Char) : Prop :=
  ∀ previous ∈ ['[', ' '], ∀ next ∈ [',', ']'], ∀ rest, QuotesDelimit next rest →
    QuotesDelimit previous (item ++ next :: rest)

/-- A character that is no quote may stand anywhere. -/
theorem quotesDelimit_cons {previous c : Char} {rest : List Char} (hc : c ≠ '"') :
    QuotesDelimit previous (c :: rest) ↔ QuotesDelimit c rest :=
  ⟨fun h ↦ h.2, fun h ↦ ⟨fun hquote ↦ absurd hquote hc, h⟩⟩

private theorem quotesDelimit_next {previous next : Char} {rest : List Char}
    (hnext : next ∈ [',', ']']) (h : QuotesDelimit next rest) :
    QuotesDelimit previous (next :: rest) := by
  apply (quotesDelimit_cons _).mpr h
  rintro rfl
  revert hnext
  decide

/-- Characters without quotes may stand before anything that may stand anywhere. -/
theorem quotesDelimit_append {previous : Char} {plain rest : List Char} (hplain : '"' ∉ plain)
    (h : ∀ c, QuotesDelimit c rest) : QuotesDelimit previous (plain ++ rest) := by
  induction plain generalizing previous with
  | nil => exact h previous
  | cons c plain ih =>
    obtain ⟨hc, hplain⟩ := not_or.mp (mt List.mem_cons.mpr hplain)
    exact (quotesDelimit_cons (Ne.symm hc)).mpr (ih hplain)

/-- A text without quotes may be an element. -/
theorem delimited_of_plain {item : List Char} (h : '"' ∉ item) : Delimited item :=
  fun _ _ _ hnext _ hrest ↦ quotesDelimit_append h (fun _ ↦ quotesDelimit_next hnext hrest)

private theorem quote_not_mem_unicodeEscape (n : ℕ) : '"' ∉ unicodeEscape n := by
  have hdigit (m : ℕ) : '"' ≠ Nat.digitChar (m % 16) := by
    have hall : ∀ k < 16, '"' ≠ Nat.digitChar k := by decide
    exact hall _ (Nat.mod_lt m (by decide))
  unfold unicodeEscape
  simp [hdigit]

private theorem quote_not_mem_escapeOther (c : Char) : '"' ∉ escapeOther c := by
  unfold escapeOther
  split_ifs
  all_goals first
    | decide
    | exact quote_not_mem_unicodeEscape _
    | skip
  rw [List.mem_append]
  exact not_or_intro (quote_not_mem_unicodeEscape _) (quote_not_mem_unicodeEscape _)

private theorem quotesDelimit_escapeChar (c : Char) {previous : Char} {rest : List Char}
    (h : ∀ p, QuotesDelimit p rest) : QuotesDelimit previous (escapeChar c ++ rest) := by
  unfold escapeChar
  split_ifs with hquote hback hprintable
  · apply (quotesDelimit_cons (by decide)).mpr
    exact ⟨fun _ ↦ .inl (by decide), h '"'⟩
  · exact quotesDelimit_append (by decide) h
  · exact quotesDelimit_append (by simpa using Ne.symm hquote) h
  · exact quotesDelimit_append (quote_not_mem_escapeOther c) h

/-- A literal may be an element. -/
theorem delimited_literal (text : String) : Delimited (literal text) := by
  intro previous hprevious next hnext rest hrest
  have hclose : ∀ p, QuotesDelimit p ('"' :: next :: rest) := fun p ↦
    ⟨fun _ ↦ .inr ⟨next, rfl, hnext⟩, quotesDelimit_next hnext hrest⟩
  have hbody : ∀ (body : List Char) (p : Char),
      QuotesDelimit p (body.flatMap escapeChar ++ '"' :: next :: rest) := by
    intro body
    induction body with
    | nil => exact hclose
    | cons c body ih =>
      intro p
      rw [List.flatMap_cons, List.append_assoc]
      exact quotesDelimit_escapeChar c ih
  unfold literal
  rw [List.cons_append, List.cons_append, List.append_assoc]
  refine ⟨fun _ ↦ .inl ?_, hbody text.toList '"'⟩
  rcases List.mem_pair.mp hprevious with rfl | rfl <;> decide

private theorem quotesDelimit_elements {items : List (List Char)}
    (hitems : ∀ item ∈ items, Delimited item) {previous : Char} (hprevious : previous ∈ ['[', ' '])
    {rest : List Char} (hrest : QuotesDelimit ']' rest) :
    QuotesDelimit previous ([',', ' '].intercalate items ++ ']' :: rest) := by
  induction items generalizing previous with
  | nil => exact quotesDelimit_next (by decide) hrest
  | cons item items ih =>
    obtain ⟨hitem, hitems⟩ := List.forall_mem_cons.mp hitems
    cases items with
    | nil =>
      rw [List.intercalate_singleton]
      exact hitem previous hprevious ']' (by decide) rest hrest
    | cons second items =>
      rw [List.intercalate_cons_cons, List.append_assoc, List.append_assoc]
      apply hitem previous hprevious ',' (by decide)
      apply (quotesDelimit_cons (by decide)).mpr
      exact ih hitems (by decide)

/-- A list of elements may be an element. -/
theorem delimited_arrayText {items : List (List Char)} (h : ∀ item ∈ items, Delimited item) :
    Delimited (arrayText items) := by
  intro previous _ next hnext rest hrest
  unfold arrayText
  rw [List.cons_append, List.cons_append, List.append_assoc]
  apply (quotesDelimit_cons (by decide)).mpr
  exact quotesDelimit_elements h (by decide) (quotesDelimit_next hnext hrest)

/-- The quotes of a list's text delimit. -/
theorem quotesDelimit_arrayText {items : List (List Char)} (h : ∀ item ∈ items, Delimited item)
    (previous : Char) : QuotesDelimit previous (arrayText items) := by
  unfold arrayText
  apply (quotesDelimit_cons (by decide)).mpr
  exact quotesDelimit_elements h (by decide) trivial

/-- What is said of a text is said of its ends. -/
theorem exists_quotesDelimit_of_suffix {text suffix : List Char} (hsuffix : suffix <:+ text)
    {previous : Char} (h : QuotesDelimit previous text) : ∃ p, QuotesDelimit p suffix := by
  induction text generalizing previous with
  | nil =>
    rw [List.suffix_nil.mp hsuffix]
    exact ⟨previous, h⟩
  | cons c text ih =>
    rcases List.suffix_cons_iff.mp hsuffix with rfl | hsuffix
    · exact ⟨previous, h⟩
    · exact ih hsuffix h.2

/-! ### Lines -/

/-- A character from `' '` to `'~'`. -/
def Printable (c : Char) : Prop := 32 ≤ c.toNat ∧ c.toNat ≤ 126

instance (c : Char) : Decidable (Printable c) := inferInstanceAs (Decidable (_ ∧ _))

/-- The characters of a fixed text. -/
theorem printable_of_all {text : List Char}
    (h : text.all (fun c ↦ decide (Printable c)) = true) : ∀ c ∈ text, Printable c :=
  fun c hc ↦ of_decide_eq_true (List.all_eq_true.mp h c hc)

private theorem printable_unicodeEscape (n : ℕ) : ∀ c ∈ unicodeEscape n, Printable c := by
  have hdigit (m : ℕ) : Printable (Nat.digitChar (m % 16)) := by
    have hall : ∀ k < 16, Printable (Nat.digitChar k) := by decide
    exact hall _ (Nat.mod_lt m (by decide))
  unfold unicodeEscape
  simp only [List.forall_mem_cons, List.not_mem_nil, false_imp_iff, implies_true, and_true]
  exact ⟨by decide, by decide, hdigit _, hdigit _, hdigit _, hdigit _⟩

private theorem printable_escapeChar (c : Char) : ∀ d ∈ escapeChar c, Printable d := by
  unfold escapeChar escapeOther
  split_ifs with _ _ hprintable
  · exact printable_of_all rfl
  · exact printable_of_all rfl
  · exact List.forall_mem_singleton.mpr hprintable
  · exact printable_of_all rfl
  · exact printable_of_all rfl
  · exact printable_of_all rfl
  · exact printable_of_all rfl
  · exact printable_of_all rfl
  · exact printable_unicodeEscape _
  · intro d hd
    exact (List.mem_append.mp hd).elim (printable_unicodeEscape _ d) (printable_unicodeEscape _ d)

/-- A printed text is printable. -/
theorem printable_literal (text : String) : ∀ c ∈ literal text, Printable c := by
  intro c hc
  rcases List.mem_append.mp hc with hc | hc
  · rcases List.mem_cons.mp hc with rfl | hc
    · decide
    · obtain ⟨d, _, hc⟩ := List.mem_flatMap.mp hc
      exact printable_escapeChar d c hc
  · rw [List.mem_singleton.mp hc]
    decide

/-- A printed array of printable items is printable. -/
theorem printable_arrayText {items : List (List Char)}
    (h : ∀ item ∈ items, ∀ c ∈ item, Printable c) : ∀ c ∈ arrayText items, Printable c := by
  have helements : ∀ c ∈ [',', ' '].intercalate items, Printable c := by
    induction items with
    | nil => exact fun c hc ↦ nomatch hc
    | cons item items ih =>
      obtain ⟨hitem, hitems⟩ := List.forall_mem_cons.mp h
      cases items with
      | nil =>
        rw [List.intercalate_singleton]
        exact hitem
      | cons second items =>
        rw [List.intercalate_cons_cons]
        simp only [List.forall_mem_append]
        exact ⟨⟨hitem, printable_of_all rfl⟩, ih hitems⟩
  unfold arrayText
  simp only [List.forall_mem_append, List.forall_mem_cons]
  exact ⟨⟨by decide, helements⟩, by decide, fun _ hc ↦ nomatch hc⟩

/-- `c` ends a line. -/
def isLineBreak (c : Char) : Bool :=
  let n := c.toNat
  (10 ≤ n && n ≤ 13) || (28 ≤ n && n ≤ 30) || n = 0x85 || n = 0x2028 || n = 0x2029

/-- The lines of a text, of which `current` is read, from its last character to its first. -/
def splitlinesFrom (current : List Char) : List Char → List (List Char)
  | [] => if current = [] then [] else [current.reverse]
  | '\r' :: '\n' :: rest => current.reverse :: splitlinesFrom [] rest
  | c :: rest =>
    if isLineBreak c then current.reverse :: splitlinesFrom [] rest
    else splitlinesFrom (c :: current) rest

/-- `text.splitlines()`. -/
def splitlines (text : String) : List String :=
  (splitlinesFrom [] text.toList).map String.ofList

private theorem splitlinesFrom_of_printable {text : List Char} (h : ∀ c ∈ text, Printable c)
    {current : List Char} (hne : current ≠ [] ∨ text ≠ []) :
    splitlinesFrom current text = [current.reverse ++ text] := by
  induction text generalizing current with
  | nil =>
    unfold splitlinesFrom
    rw [if_neg (hne.resolve_right (not_not_intro rfl)), List.append_nil]
  | cons c text ih =>
    obtain ⟨hc, htext⟩ := List.forall_mem_cons.mp h
    have hbreak : isLineBreak c = false := by
      obtain ⟨hlow, hhigh⟩ := hc
      simp only [isLineBreak, Bool.or_eq_false_iff, Bool.and_eq_false_iff, decide_eq_false_iff_not]
      omega
    have hstep : splitlinesFrom current (c :: text) = splitlinesFrom (c :: current) text := by
      rw [splitlinesFrom]
      · rw [if_neg (Bool.eq_false_iff.mp hbreak)]
      · rintro _ rfl
        cases hbreak
    rw [hstep, ih htext (.inl (List.cons_ne_nil _ _)), List.reverse_cons, List.append_assoc]
    rfl

/-- A printable text is one line. -/
theorem splitlines_of_printable {text : String} (h : ∀ c ∈ text.toList, Printable c)
    (hne : text.toList ≠ []) : splitlines text = [text] := by
  unfold splitlines
  rw [splitlinesFrom_of_printable h (.inr hne), List.reverse_nil, List.nil_append]
  simp

end Joker.Base
