import Mathlib.Data.List.Basic
import Mathlib.Tactic.Common

/-!
# Reordering of independent labels

Library `Base`. Two sequences of labels have the same order when any two dependent labels occur in
the same order in both. What a swap of two adjacent independent labels never changes is then the
same for both: the first label of one sequence is moved to the front of the other, past labels that
are all independent of it.
-/

namespace Joker.Base

variable {A B S : Type*} [DecidableEq A]

/-- The occurrences of two labels, in order. -/
def occurrences (a b : A) (xs : List A) : List A := xs.filter (fun x ↦ x = a ∨ x = b)

/-- Any two dependent labels occur in the same order. -/
def SameOrder (Dep : A → A → Prop) (xs ys : List A) : Prop :=
  ∀ a b, Dep a b → occurrences a b xs = occurrences a b ys

private theorem occurrences_append (a b : A) (xs ys : List A) :
    occurrences a b (xs ++ ys) = occurrences a b xs ++ occurrences a b ys :=
  List.filter_append ..

private theorem occurrences_cons (a b x : A) (xs : List A) :
    occurrences a b (x :: xs) =
      if x = a ∨ x = b then x :: occurrences a b xs else occurrences a b xs := by
  simp only [occurrences, List.filter_cons, decide_eq_true_eq]

private theorem mem_occurrences {a b x : A} {xs : List A} :
    x ∈ occurrences a b xs ↔ x ∈ xs ∧ (x = a ∨ x = b) := by
  simp only [occurrences, List.mem_filter, decide_eq_true_eq]

private theorem occurrences_eq_nil {a b : A} {xs : List A} (ha : a ∉ xs) (hb : b ∉ xs) :
    occurrences a b xs = [] := by
  apply List.eq_nil_iff_forall_not_mem.mpr
  intro x hx
  obtain ⟨hmem, rfl | rfl⟩ := mem_occurrences.mp hx
  · exact ha hmem
  · exact hb hmem

/-- The occurrences of two values do not depend on their order. -/
theorem occurrences_comm (a b : A) (xs : List A) : occurrences a b xs = occurrences b a xs := by
  simp only [occurrences, or_comm]

/-- A label that does not occur has no part in the occurrences. -/
theorem occurrences_of_not_mem {a : A} (b : A) {xs : List A} (h : a ∉ xs) :
    occurrences a b xs = occurrences b b xs := by
  apply List.filter_congr
  intro x hx
  have hne : x ≠ a := fun heq ↦ h (heq ▸ hx)
  simp only [hne, false_or, or_self]

variable {Dep : A → A → Prop}

/-- Sequences with the same order have the same labels. -/
theorem SameOrder.mem_iff (hrefl : ∀ a, Dep a a) {xs ys : List A} (h : SameOrder Dep xs ys)
    (a : A) : a ∈ xs ↔ a ∈ ys := by
  have hocc : ∀ zs : List A, a ∈ zs ↔ a ∈ occurrences a a zs := by
    intro zs
    rw [mem_occurrences]
    exact ⟨fun hmem ↦ ⟨hmem, .inl rfl⟩, And.left⟩
  rw [hocc xs, hocc ys, h a a (hrefl a)]

/-- The first label of one sequence occurs in the other, behind labels that do not depend on it;
without this occurrence the orders are still the same. -/
theorem SameOrder.split (hrefl : ∀ a, Dep a a) (hsymm : ∀ a b, Dep a b → Dep b a) {a : A}
    {rest ys : List A} (h : SameOrder Dep (a :: rest) ys) :
    ∃ front back, ys = front ++ a :: back ∧ (∀ b ∈ front, ¬ Dep a b) ∧
      SameOrder Dep rest (front ++ back) := by
  have hmem : a ∈ ys := (h.mem_iff hrefl a).mp List.mem_cons_self
  obtain ⟨front, back, rfl, hfront⟩ := List.eq_append_cons_of_mem hmem
  have hindep : ∀ b ∈ front, ¬ Dep a b := by
    intro b hb hdep
    have heq := h a b hdep
    rw [occurrences_append, occurrences_cons, if_pos (.inl rfl)] at heq
    -- the first occurrence in the other sequence is in front of `a`
    obtain ⟨x, more, hx⟩ := List.exists_cons_of_ne_nil
      (List.ne_nil_of_mem (mem_occurrences.mpr ⟨hb, .inr rfl⟩) : occurrences a b front ≠ [])
    have hax : a = x := by
      rw [hx] at heq
      exact (List.cons.inj heq).1
    have hin : x ∈ occurrences a b front := hx ▸ List.mem_cons_self
    exact hfront (hax ▸ (mem_occurrences.mp hin).1)
  refine ⟨front, back, rfl, hindep, ?_⟩
  intro c d hdep
  have heq := h c d hdep
  rw [occurrences_append, occurrences_cons, occurrences_cons] at heq
  rw [occurrences_append]
  by_cases ha : a = c ∨ a = d
  · have hnil : occurrences c d front = [] := by
      rcases ha with rfl | rfl
      · exact occurrences_eq_nil hfront fun hd ↦ hindep d hd hdep
      · exact occurrences_eq_nil (fun hc ↦ hindep c hc (hsymm _ _ hdep)) hfront
    rw [if_pos ha, if_pos ha, hnil, List.nil_append] at heq
    rw [hnil, List.nil_append]
    exact (List.cons.inj heq).2
  · rw [if_neg ha, if_neg ha] at heq
    exact heq

omit [DecidableEq A] in
/-- A label moves past labels it does not depend on. -/
theorem eq_of_moved {f : List A → B}
    (hswap : ∀ pre a b post, ¬ Dep a b →
      f (pre ++ a :: b :: post) = f (pre ++ b :: a :: post))
    (pre : List A) {a : A} {front : List A} (back : List A) (hindep : ∀ b ∈ front, ¬ Dep a b) :
    f (pre ++ a :: (front ++ back)) = f (pre ++ (front ++ a :: back)) := by
  induction front generalizing pre with
  | nil => rfl
  | cons b front ih =>
    have hfirst := hswap pre a b (front ++ back) (hindep b List.mem_cons_self)
    have hrest := ih (pre ++ [b]) (fun c hc ↦ hindep c (List.mem_cons_of_mem b hc))
    simp only [List.append_assoc, List.cons_append, List.nil_append] at hrest
    exact hfirst.trans hrest

/-- What no swap of adjacent independent labels changes is the same for sequences with the same
order. -/
theorem eq_of_sameOrder {f : List A → B} (hrefl : ∀ a, Dep a a)
    (hsymm : ∀ a b, Dep a b → Dep b a)
    (hswap : ∀ pre a b post, ¬ Dep a b →
      f (pre ++ a :: b :: post) = f (pre ++ b :: a :: post))
    {xs ys : List A} (h : SameOrder Dep xs ys) : f xs = f ys := by
  suffices hpre : ∀ pre, f (pre ++ xs) = f (pre ++ ys) from hpre []
  induction xs generalizing ys with
  | nil =>
    have hnil : ys = [] := by
      apply List.eq_nil_iff_forall_not_mem.mpr
      intro b hb
      cases (h.mem_iff hrefl b).mpr hb
    intro pre
    rw [hnil]
  | cons a rest ih =>
    obtain ⟨front, back, rfl, hindep, hrest⟩ := h.split hrefl hsymm
    intro pre
    have hstep := ih hrest (pre ++ [a])
    simp only [List.append_assoc, List.cons_append, List.nil_append] at hstep
    exact hstep.trans (eq_of_moved hswap pre back hindep)

omit [DecidableEq A] in
/-- A swap of two adjacent labels is the same for a run when it is for one state. -/
theorem foldlM_swap {m : Type _ → Type*} [Monad m] [LawfulMonad m] {step : S → A → m S} {a b : A}
    (h : ∀ s, (step s a >>= fun s ↦ step s b) = (step s b >>= fun s ↦ step s a)) (s : S)
    (pre post : List A) :
    (pre ++ a :: b :: post).foldlM step s = (pre ++ b :: a :: post).foldlM step s := by
  simp only [List.foldlM_append, List.foldlM_cons]
  congr 1
  funext s
  rw [← bind_assoc, ← bind_assoc, h]

/-- Two adjacent independent labels may be swapped without a change of the order. -/
theorem sameOrder_swap (hsymm : ∀ a b, Dep a b → Dep b a) {a b : A} (h : ¬ Dep a b)
    (pre post : List A) : SameOrder Dep (pre ++ a :: b :: post) (pre ++ b :: a :: post) := by
  intro c d hdep
  simp only [occurrences_append, occurrences_cons]
  congr 1
  by_cases ha : a = c ∨ a = d
  · by_cases hb : b = c ∨ b = d
    · have hab : a = b := by
        rcases ha with rfl | rfl <;> rcases hb with rfl | rfl
        · rfl
        · exact absurd hdep h
        · exact absurd (hsymm _ _ hdep) h
        · rfl
      rw [hab]
    · rw [if_neg hb, if_neg hb]
  · rw [if_neg ha, if_neg ha]

end Joker.Base
