import Mathlib.Data.List.Induction
import Mathlib.Tactic.Common

/-!
# Registers kept by a log

Library `Base`. Some events of a log write a register and some empty it: what it holds is what the
last of them wrote. A log is guarded when every event meets a condition on the events before it.
Where every use of the register finds something in it and empties it, nothing is used twice. A
counter of some events starts again at others.
-/

namespace Joker.Base

variable {E V : Type*}

/-- What the events leave in the register: `some v` writes it, `some none` empties it. -/
def register (write : E → Option (Option V)) (log : List E) : Option V :=
  log.foldl (fun held e ↦ (write e).getD held) none

/-- Nothing is written in an empty log. -/
@[simp] theorem register_nil (write : E → Option (Option V)) : register write [] = none := rfl

/-- One more event. -/
theorem register_snoc (write : E → Option (Option V)) (log : List E) (e : E) :
    register write (log ++ [e]) = (write e).getD (register write log) := by
  unfold register
  rw [List.foldl_append]
  rfl

/-- Events that do not touch the register leave it. -/
theorem register_append_of_idle (write : E → Option (Option V)) (log : List E) {more : List E}
    (h : ∀ e ∈ more, write e = none) : register write (log ++ more) = register write log := by
  induction more using List.reverseRecOn with
  | nil => rw [List.append_nil]
  | append_singleton more e ih =>
    have hlast := h e (by simp)
    rw [← List.append_assoc, register_snoc, hlast, Option.getD_none]
    apply ih
    intro e' he'
    exact h e' (List.mem_append_left _ he')

/-- The register holds what was written last. -/
theorem register_eq_some_iff (write : E → Option (Option V)) (log : List E) (v : V) :
    register write log = some v ↔
      ∃ before e after, log = before ++ e :: after ∧ write e = some (some v) ∧
        ∀ e' ∈ after, write e' = none := by
  constructor
  · intro h
    induction log using List.reverseRecOn with
    | nil => cases h
    | append_singleton log e ih =>
      rw [register_snoc] at h
      cases hwrite : write e with
      | some held =>
        rw [hwrite] at h
        exact ⟨log, e, [], rfl, by rw [hwrite, ← h]; rfl, fun _ hnone ↦ by cases hnone⟩
      | none =>
        rw [hwrite] at h
        obtain ⟨before, e₀, after, hlog, hwrote, hidle⟩ := ih h
        refine ⟨before, e₀, after ++ [e], by rw [hlog]; simp, hwrote, ?_⟩
        intro e' he'
        rcases List.mem_append.mp he' with hold | hnew
        · exact hidle e' hold
        · rw [List.mem_singleton.mp hnew]
          exact hwrite
  · rintro ⟨before, e, after, rfl, hwrote, hidle⟩
    rw [List.append_cons, register_append_of_idle write _ hidle, register_snoc, hwrote]
    rfl

/-- A register that holds something after events that touched it first was emptied has been
written since. -/
theorem written_since {write : E → Option (Option V)} {before between : List E} {e : E}
    (hempty : write e = some none) (hheld : (register write (before ++ e :: between)).isSome) :
    ∃ w ∈ between, ∃ v, write w = some (some v) := by
  obtain ⟨v, hv⟩ := Option.isSome_iff_exists.mp hheld
  obtain ⟨pre, w, post, hlog, hwrote, hidle⟩ := (register_eq_some_iff write _ v).mp hv
  rcases List.append_eq_append_iff.mp hlog with ⟨more, hpre, hrest⟩ | ⟨more, hpre, hrest⟩
  · cases more with
    | nil =>
      have hhead : e = w := (List.cons.inj hrest).1
      rw [hhead, hwrote] at hempty
      cases hempty
    | cons x more =>
      have hmem : w ∈ between := by
        rw [(List.cons.inj hrest).2]
        simp
      exact ⟨w, hmem, v, hwrote⟩
  · -- the write came before: then the emptying event is among the idle ones
    cases more with
    | nil =>
      have hhead : w = e := (List.cons.inj hrest).1
      rw [← hhead, hwrote] at hempty
      cases hempty
    | cons x more =>
      have hmem : e ∈ post := by
        rw [(List.cons.inj hrest).2]
        simp
      rw [hidle e hmem] at hempty
      cases hempty

/-! ### Counters -/

/-- How many events count since the last one that resets. -/
def countSince (counts resets : E → Bool) (log : List E) : ℕ :=
  log.foldl (fun n e ↦ if resets e then 0 else if counts e then n + 1 else n) 0

/-- Nothing is counted in an empty log. -/
@[simp] theorem countSince_nil (counts resets : E → Bool) : countSince counts resets [] = 0 := rfl

/-- One more event. -/
theorem countSince_snoc (counts resets : E → Bool) (log : List E) (e : E) :
    countSince counts resets (log ++ [e]) =
      if resets e then 0
      else if counts e then countSince counts resets log + 1 else countSince counts resets log := by
  unfold countSince
  rw [List.foldl_append]
  rfl

/-- Events between which none resets count in full. -/
theorem countP_le_countSince (counts resets : E → Bool) (log : List E) {more : List E}
    (h : ∀ e ∈ more, resets e = false) :
    more.countP counts ≤ countSince counts resets (log ++ more) := by
  induction more using List.reverseRecOn with
  | nil => exact Nat.zero_le _
  | append_singleton more e ih =>
    have hlast := h e (by simp)
    have hbefore := ih (fun e' he' ↦ h e' (List.mem_append_left _ he'))
    rw [← List.append_assoc, countSince_snoc, hlast, List.countP_append, List.countP_singleton]
    cases counts e with
    | true => exact Nat.succ_le_succ hbefore
    | false => exact hbefore

/-- A count that falls behind has been reset. -/
theorem exists_reset_of_countSince_lt {counts resets : E → Bool} {log more : List E}
    (h : countSince counts resets (log ++ more) < more.countP counts) :
    ∃ e ∈ more, resets e = true := by
  by_contra hnone
  simp only [not_exists, not_and, Bool.not_eq_true] at hnone
  exact absurd (countP_le_countSince counts resets log hnone) (Nat.not_le.mpr h)

/-! ### Guarded logs -/

/-- Every event meets the condition on the events before it. -/
def Guarded (P : List E → E → Prop) (log : List E) : Prop :=
  ∀ before e after, log = before ++ e :: after → P before e

/-- The empty log is guarded. -/
theorem guarded_nil (P : List E → E → Prop) : Guarded P [] := by
  intro before e after h
  cases before <;> cases h

/-- One more event. -/
theorem Guarded.snoc {P : List E → E → Prop} {log : List E} {e : E} (h : Guarded P log)
    (he : P log e) : Guarded P (log ++ [e]) := by
  intro before e' after hlog
  cases after using List.reverseRecOn with
  | nil =>
    obtain ⟨hbefore, hlast⟩ := List.append_inj' hlog rfl
    rw [← hbefore, ← (List.cons.inj hlast).1]
    exact he
  | append_singleton after last =>
    apply h before e' after
    rw [← List.cons_append, ← List.append_assoc] at hlog
    exact (List.append_inj' hlog rfl).1

/-- More events that need nothing. -/
theorem Guarded.append_of_idle {P : List E → E → Prop} {log more : List E} (h : Guarded P log)
    (hidle : ∀ e ∈ more, ∀ before, P before e) : Guarded P (log ++ more) := by
  induction more using List.reverseRecOn with
  | nil =>
    rw [List.append_nil]
    exact h
  | append_singleton more e ih =>
    rw [← List.append_assoc]
    apply (ih (fun e' he' ↦ hidle e' (List.mem_append_left _ he'))).snoc
    exact hidle e (by simp) _

/-- A weaker condition. -/
theorem Guarded.imp {P Q : List E → E → Prop} {log : List E} (h : Guarded P log)
    (hPQ : ∀ before e, P before e → Q before e) : Guarded Q log :=
  fun before e after hlog ↦ hPQ before e (h before e after hlog)

/-- Between two uses of a register that each use empties, it was written. -/
theorem Guarded.written_between {P : List E → E → Prop} (write : E → Option (Option V))
    (use : E → Prop) {log before between after : List E} {e e' : E} (h : Guarded P log)
    (hheld : ∀ pre u, use u → P pre u → (register write pre).isSome)
    (hempty : ∀ u, use u → write u = some none)
    (hlog : log = before ++ e :: between ++ e' :: after) (he : use e) (he' : use e') :
    ∃ w ∈ between, ∃ v, write w = some (some v) := by
  apply written_since (hempty e he)
  exact hheld _ e' he' (h (before ++ e :: between) e' after hlog)

end Joker.Base
