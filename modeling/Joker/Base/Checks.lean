import Mathlib.Tactic.Common

/-!
# Checks

Library `Base`. Validation code is a sequence of checks, each of which passes or raises. What a
passed sequence says is the conjunction of what its checks say.
-/

namespace Joker.Base

variable {ε α β : Type}

/-- Raise unless a condition holds. -/
def require (condition : Prop) [Decidable condition] (e : ε) : Except ε Unit :=
  if condition then .ok () else .error e

/-- The value, or raise without one. -/
def orRaise (value : Option α) (e : ε) : Except ε α :=
  match value with
  | some a => .ok a
  | none => .error e

/-- A check passes exactly when its condition holds. -/
@[simp] theorem require_eq_ok {condition : Prop} [Decidable condition] {e : ε} {u : Unit} :
    require condition e = .ok u ↔ condition := by
  unfold require
  split
  · next h => exact ⟨fun _ ↦ h, fun _ ↦ rfl⟩
  · next h => exact ⟨(fun hok ↦ nomatch hok), fun hc ↦ absurd hc h⟩

/-- A value is found, or the exception is raised. -/
@[simp] theorem orRaise_eq_ok {value : Option α} {e : ε} {a : α} :
    orRaise value e = .ok a ↔ value = some a := by
  cases value <;> simp [orRaise]

/-- A sequence passes when both parts do. -/
theorem bind_eq_ok {x : Except ε α} {f : α → Except ε β} {b : β} :
    (x >>= f) = .ok b ↔ ∃ a, x = .ok a ∧ f a = .ok b := by
  cases x with
  | error e =>
    constructor
    · exact fun h ↦ nomatch h
    · rintro ⟨a, h, _⟩
      cases h
  | ok a =>
    constructor
    · exact fun h ↦ ⟨a, rfl, h⟩
    · rintro ⟨a', h, hf⟩
      cases h
      exact hf

/-- What is returned is returned. -/
@[simp] theorem pure_eq_ok {a b : α} : (pure a : Except ε α) = .ok b ↔ a = b :=
  Except.ok.injEq a b ▸ Iff.rfl

/-- A sequence raises what its first failing part raises. -/
theorem bind_eq_error {x : Except ε α} {f : α → Except ε β} {e : ε} :
    (x >>= f) = .error e ↔ x = .error e ∨ ∃ a, x = .ok a ∧ f a = .error e := by
  cases x <;> simp [bind, Except.bind]

/-- A failed requirement raises its exception, and no other. -/
@[simp] theorem require_eq_error {condition : Prop} [Decidable condition] {e e' : ε} :
    require condition e = .error e' ↔ ¬ condition ∧ e = e' := by
  unfold require
  split <;> simp_all

/-- The exception of a missing value. -/
@[simp] theorem orRaise_eq_error {value : Option α} {e e' : ε} :
    orRaise value e = .error e' ↔ value = none ∧ e = e' := by
  cases value <;> simp [orRaise]

/-- A loop of checks passes when each of its turns does. -/
theorem forM_eq_ok {f : α → Except ε Unit} {xs : List α} {u : Unit} :
    xs.forM f = .ok u ↔ ∀ x ∈ xs, f x = .ok () := by
  induction xs with
  | nil => simp
  | cons x xs ih =>
    rw [List.forM_eq_forM, List.forM_cons, bind_eq_ok, List.forall_mem_cons]
    constructor
    · rintro ⟨_, hx, hxs⟩
      exact ⟨hx, ih.mp hxs⟩
    · rintro ⟨hx, hxs⟩
      exact ⟨(), hx, ih.mpr hxs⟩

/-- Every result of a loop is the result of one of its turns. -/
theorem exists_of_mem_mapM {f : α → Except ε β} {xs : List α} {ys : List β}
    (h : xs.mapM f = .ok ys) {y : β} (hy : y ∈ ys) : ∃ x ∈ xs, f x = .ok y := by
  induction xs generalizing ys with
  | nil =>
    cases h
    cases hy
  | cons x xs ih =>
    simp only [List.mapM_cons, bind_eq_ok, pure_eq_ok] at h
    obtain ⟨z, hz, zs, hzs, rfl⟩ := h
    rcases List.mem_cons.mp hy with rfl | hy
    · exact ⟨x, List.mem_cons_self, hz⟩
    · obtain ⟨w, hw, hwy⟩ := ih hzs hy
      exact ⟨w, List.mem_cons_of_mem x hw, hwy⟩

end Joker.Base
