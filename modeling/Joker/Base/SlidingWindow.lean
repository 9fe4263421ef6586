import Mathlib.Algebra.Order.Group.Defs
import Mathlib.Algebra.Order.Group.Unbundled.Basic
import Mathlib.Data.List.Infix
import Mathlib.Tactic.Common

/-!
# Sliding windows

Library `Base`. Times within a window that ends now, over any ordered group of times. A gate that
lets a time in only while fewer than some limit lie within its window may forget what has left the
window, because time does not go back; then no window whatever holds more than the limit.
-/

namespace Joker.Base

variable {T : Type*} [AddCommGroup T] [LinearOrder T]

/-- The times within a window that ends now, its start excluded. -/
def recent (window now : T) (times : List T) : List T :=
  times.filter (fun t ↦ now - window < t)

/-- The times within a window that ends now, none of them later. -/
def inWindow (window now : T) (times : List T) : List T :=
  (recent window now times).filter (fun t ↦ t ≤ now)

/-- The recent readings of two logs are those of each. -/
theorem recent_append (window now : T) (xs ys : List T) :
    recent window now (xs ++ ys) = recent window now xs ++ recent window now ys :=
  List.filter_append xs ys

private theorem inWindow_append (window now : T) (xs ys : List T) :
    inWindow window now (xs ++ ys) = inWindow window now xs ++ inWindow window now ys := by
  unfold inWindow
  rw [recent_append, List.filter_append]

/-- Where nothing is later than now, the window needs no other end. -/
theorem inWindow_eq_recent {window now : T} {times : List T} (h : ∀ t ∈ times, t ≤ now) :
    inWindow window now times = recent window now times := by
  unfold inWindow
  rw [List.filter_eq_self]
  intro t ht
  exact decide_eq_true (h t (List.mem_of_mem_filter ht))

/-- Every time of a log found fewer than the limit before it within its window. -/
def Admitted (limit : ℕ) (window : T) (log : List T) : Prop :=
  ∀ pre t, pre ++ [t] <+: log → (recent window t pre).length < limit

/-- An empty log was admitted. -/
theorem admitted_nil (limit : ℕ) (window : T) : Admitted limit window [] := by
  intro pre t hp
  have hlength := hp.length_le
  simp at hlength

/-- A log goes on with a time that finds room. -/
theorem admitted_snoc {limit : ℕ} {window : T} {log : List T} (h : Admitted limit window log)
    {now : T} (hroom : (recent window now log).length < limit) :
    Admitted limit window (log ++ [now]) := by
  intro pre t hp
  rcases List.prefix_concat_iff.mp hp with heq | hold
  · obtain ⟨rfl, hlast⟩ := List.append_inj' heq rfl
    obtain rfl : t = now := by simpa using hlast
    exact hroom
  · exact h pre t hold

variable [IsOrderedAddMonoid T]

/-- What has left a window has left every later one. -/
theorem recent_recent {window now later : T} (h : now ≤ later) (times : List T) :
    recent window later (recent window now times) = recent window later times := by
  unfold recent
  rw [List.filter_filter]
  apply List.filter_congr
  intro t _
  have hstart : later - window < t → now - window < t := (sub_le_sub_right h window).trans_lt
  simpa using hstart

/-- No window holds more of an admitted log than the limit. -/
theorem length_inWindow_le {limit : ℕ} {window : T} {log : List T}
    (hsorted : log.Pairwise (· ≤ ·)) (h : Admitted limit window log) (now : T) :
    (inWindow window now log).length ≤ limit := by
  induction log using List.reverseRecOn with
  | nil => exact Nat.zero_le limit
  | append_singleton pre last ih =>
    have hpre : Admitted limit window pre := fun xs t hp ↦
      h xs t (hp.trans (List.prefix_append pre [last]))
    have hrest := ih (List.pairwise_append.mp hsorted).1 hpre
    rw [inWindow_append, List.length_append]
    by_cases hlast : last ≤ now
    · -- What the window holds of the earlier times was within the last one's own window.
      have hsub : (inWindow window now pre).length ≤ (recent window last pre).length := by
        apply List.Sublist.length_le
        have hfilter : (inWindow window now pre).Sublist (recent window now pre) :=
          List.filter_sublist
        apply hfilter.trans
        apply List.monotone_filter_right
        intro t ht
        rw [decide_eq_true_eq] at ht ⊢
        exact (sub_le_sub_right hlast window).trans_lt ht
      have hroom := h pre last (List.prefix_refl _)
      have hone : (inWindow window now [last]).length ≤ 1 :=
        (List.length_filter_le _ _).trans (List.length_filter_le _ _)
      omega
    · have hnone : inWindow window now [last] = [] := by
        unfold inWindow recent
        rw [List.filter_filter, List.filter_singleton, decide_eq_false hlast]
        rfl
      rw [hnone, List.length_nil]
      omega

end Joker.Base
