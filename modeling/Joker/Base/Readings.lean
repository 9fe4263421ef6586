import Joker.Base.Coroutine

/-!
# Assertions that look ahead

Library `Base`. Code that takes readings of a clock, or other inputs, first to last from those
that are still to come. An assertion may speak of the state and of the readings to come, and
holds when some of them are skipped. A coroutine spends readings: from a state where they and
others are to come, its run leads to the assertion about the others. The rules follow the
construction of the coroutine, and a run of calls spends the readings of all calls.
-/

namespace Joker.Base

/-- An assertion about a state and the readings to come, of which any may be skipped. -/
structure LookAhead (τ σ : Type) where
  holds : List τ → σ → Prop
  skip : ∀ {xs ys : List τ} {s : σ}, xs.Sublist ys → holds ys s → holds xs s

namespace Coro

variable {L σ τ ε α β : Type} {I : LookAhead τ σ} {xs ys : List τ}

/-- Where the readings and others are to come, the run leads to where the others are. -/
def Spends (I : LookAhead τ σ) (xs : List τ) (c : Coro L σ ε α) : Prop :=
  ∀ ys s, I.holds (xs ++ ys) s → I.holds ys (c.exec s).1

/-- A run that keeps the assertion, whatever is to come, may spend any readings. -/
theorem spends_of_kept {c : Coro L σ ε α} (h : ∀ ys s, I.holds ys s → I.holds ys (c.exec s).1) :
    c.Spends I xs := by
  intro ys s hs
  apply h
  exact I.skip (List.sublist_append_right xs ys) hs

/-- `pure` may spend any readings. -/
theorem spends_pure (a : α) : (pure a : Coro L σ ε α).Spends I xs :=
  spends_of_kept (fun _ _ h ↦ h)

/-- `raise` may spend any readings. -/
theorem spends_raise (e : ε) : (raise e : Coro L σ ε α).Spends I xs :=
  spends_of_kept (fun _ _ h ↦ h)

/-- Further readings may be skipped. -/
theorem spends_of_sublist {c : Coro L σ ε α} (xs : List τ) (hsub : xs.Sublist ys)
    (h : c.Spends I xs) : c.Spends I ys := by
  intro zs s hs
  apply h
  exact I.skip (hsub.append (List.Sublist.refl zs)) hs

/-- A sequence spends the readings of its parts, in their order; an exception skips those of the
second. -/
theorem spends_bind {c : Coro L σ ε α} {k : α → Coro L σ ε β} (xs ys : List τ)
    (hc : c.Spends I xs) (hk : ∀ a, (k a).Spends I ys) : (c >>= k).Spends I (xs ++ ys) := by
  intro zs s hs
  rw [List.append_assoc] at hs
  have hfirst := hc (ys ++ zs) s hs
  rw [exec_bind]
  rcases hrun : c.exec s with ⟨s', result⟩
  rw [hrun] at hfirst
  cases result with
  | ok a => exact hk a zs s' hfirst
  | error e => exact I.skip (List.sublist_append_right ys zs) hfirst

/-- A sequence whose first part takes no reading. -/
theorem spends_then {c : Coro L σ ε α} {k : α → Coro L σ ε β} (hc : c.Spends I [])
    (hk : ∀ a, (k a).Spends I ys) : (c >>= k).Spends I ys := spends_bind [] ys hc hk

end Coro

/-- A run whose steps meet a condition spends the readings of all its actions. -/
theorem LookAhead.holds_run {σ τ A : Type} (I : LookAhead τ σ) {step : σ → A → σ}
    {readings : A → List τ} {P : σ → A → Prop}
    (h : ∀ a ys s, P s a → I.holds (readings a ++ ys) s → I.holds ys (step s a))
    {as : List A} {ys : List τ} {s : σ} (hmeet : StepsMeet step P s as)
    (hs : I.holds (as.flatMap readings ++ ys) s) : I.holds ys (run step s as) := by
  induction as generalizing s with
  | nil => exact hs
  | cons a as ih =>
    rw [List.flatMap_cons, List.append_assoc] at hs
    rw [run_cons]
    exact ih hmeet.2 (h a _ s hmeet.1 hs)

end Joker.Base
