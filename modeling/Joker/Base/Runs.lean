import Mathlib.Data.List.Infix
import Mathlib.Tactic.Common

/-!
# Runs of a step function

Library `Base`. A run folds a total step over a list of labels; the states it reaches are
those of the prefixes. `run_invariant` is the induction rule. `run_invariant_iff` is its exact
form: when a step condition decides whether one step keeps the invariant, the invariant holds
in every state of a run exactly when every step of the run meets the condition.
-/

namespace Joker.Base

variable {S A : Type*}

/-- The state after a list of labels. -/
def run (step : S → A → S) (s : S) (xs : List A) : S := xs.foldl step s

/-- No label, no step. -/
@[simp] theorem run_nil (step : S → A → S) (s : S) : run step s [] = s := rfl

/-- The first label is stepped first. -/
@[simp] theorem run_cons (step : S → A → S) (s : S) (a : A) (xs : List A) :
    run step s (a :: xs) = run step (step s a) xs := rfl

/-- One more label is one more step. -/
theorem run_snoc (step : S → A → S) (s : S) (xs : List A) (a : A) :
    run step s (xs ++ [a]) = step (run step s xs) a := by
  simp [run, List.foldl_append]

/-- Runs compose. -/
theorem run_append (step : S → A → S) (s : S) (xs ys : List A) :
    run step s (xs ++ ys) = run step (run step s xs) ys := by
  simp [run, List.foldl_append]

/-- The induction rule: what holds at the start and is kept by every admissible step holds
after the run. -/
theorem run_invariant {step : S → A → S} {I : S → Prop} {L : A → Prop}
    (hstep : ∀ s a, I s → L a → I (step s a)) (xs : List A) (hL : ∀ a ∈ xs, L a) {s : S}
    (h : I s) : I (run step s xs) := by
  induction xs generalizing s with
  | nil => exact h
  | cons a rest ih =>
    apply ih
    · intro b hb
      exact hL b (List.mem_cons_of_mem a hb)
    · exact hstep s a h (hL a List.mem_cons_self)

/-- The induction rule with a condition on the state before a step: an invariant that every step
of the run keeps holds in every state of the run. -/
theorem run_invariant_of_steps {step : S → A → S} {I : S → Prop} {Ok : S → A → Prop}
    (hstep : ∀ s a, I s → Ok s a → I (step s a)) {xs : List A} {s : S} (h : I s)
    (hok : ∀ pre a, pre ++ [a] <+: xs → Ok (run step s pre) a) :
    ∀ pre, pre <+: xs → I (run step s pre) := by
  intro pre
  induction pre using List.reverseRecOn with
  | nil => exact fun _ ↦ h
  | append_singleton pre a ih =>
    intro hp
    rw [run_snoc]
    exact hstep _ a (ih ((List.prefix_append pre [a]).trans hp)) (hok pre a hp)

/-- The rule for a rank that every step lowers: a run of as many steps brings it to zero. -/
theorem rank_run_le {step : S → A → S} {I : S → Prop} {rank : S → ℕ}
    (hrank : ∀ s a, I s → rank (step s a) ≤ rank s - 1) {xs : List A} {s : S}
    (h : ∀ pre, pre <+: xs → I (run step s pre)) : rank (run step s xs) ≤ rank s - xs.length := by
  induction xs using List.reverseRecOn with
  | nil => exact Nat.le_refl _
  | append_singleton xs a ih =>
    have hprefix : xs <+: xs ++ [a] := List.prefix_append xs [a]
    have hrest := ih (fun pre hp ↦ h pre (hp.trans hprefix))
    have hlast := hrank _ a (h xs hprefix)
    rw [run_snoc, List.length_append, List.length_singleton]
    omega

/-- A condition met by every step of a run, from its first step on. -/
def StepsMeet (step : S → A → S) (Ok : S → A → Prop) : S → List A → Prop
  | _, [] => True
  | s, a :: rest => Ok s a ∧ StepsMeet step Ok (step s a) rest

instance decidableStepsMeet (step : S → A → S) (Ok : S → A → Prop) [∀ s a, Decidable (Ok s a)] :
    ∀ (s : S) (xs : List A), Decidable (StepsMeet step Ok s xs)
  | _, [] => .isTrue trivial
  | s, a :: rest =>
    have := decidableStepsMeet step Ok (step s a) rest
    inferInstanceAs (Decidable (_ ∧ _))

/-- A condition that always holds. -/
theorem stepsMeet_of_forall {step : S → A → S} {Ok : S → A → Prop} (h : ∀ s a, Ok s a) (s : S)
    (xs : List A) : StepsMeet step Ok s xs := by
  induction xs generalizing s with
  | nil => trivial
  | cons a rest ih => exact ⟨h s a, ih (step s a)⟩

/-- A condition is met by a run in two parts when each part meets it. -/
theorem stepsMeet_append {step : S → A → S} {Ok : S → A → Prop} {s : S} {xs ys : List A} :
    StepsMeet step Ok s (xs ++ ys) ↔
      StepsMeet step Ok s xs ∧ StepsMeet step Ok (run step s xs) ys := by
  induction xs generalizing s with
  | nil => exact (true_and _).symm ▸ Iff.rfl
  | cons a rest ih =>
    change Ok s a ∧ StepsMeet step Ok (step s a) (rest ++ ys) ↔ (Ok s a ∧ _) ∧ _
    rw [ih, run_cons, and_assoc]

/-- A condition met from step to step is met at every prefix. -/
theorem ok_of_stepsMeet {step : S → A → S} {Ok : S → A → Prop} {s : S} {xs : List A}
    (h : StepsMeet step Ok s xs) : ∀ pre a, pre ++ [a] <+: xs → Ok (run step s pre) a := by
  induction xs generalizing s with
  | nil =>
    intro pre a hp
    exact absurd (List.prefix_nil.mp hp) (by simp)
  | cons b rest ih =>
    intro pre a hp
    cases pre with
    | nil =>
      obtain rfl : a = b := (List.cons_prefix_cons.mp hp).1
      exact h.1
    | cons c pre =>
      obtain ⟨rfl, hrest⟩ := List.cons_prefix_cons.mp hp
      exact ih h.2 pre a hrest

/-- The rule for a condition that cannot be made up for. Steps that meet it keep `G`; a step that
does not leads to `B`, and no step leads out of `B`. -/
theorem run_kept_or_lost {step : S → A → S} {Ok : S → A → Prop} {J G B : S → Prop}
    (hJ : ∀ s a, J s → J (step s a)) (hG : ∀ s a, J s → G s → Ok s a → G (step s a))
    (hlost : ∀ s a, J s → G s → ¬ Ok s a → B (step s a)) (hB : ∀ s a, J s → B s → B (step s a))
    {xs : List A} {s : S} (hj : J s) (hg : G s) :
    (StepsMeet step Ok s xs → G (run step s xs)) ∧
      (¬ StepsMeet step Ok s xs → B (run step s xs)) := by
  induction xs generalizing s with
  | nil => exact ⟨fun _ ↦ hg, fun h ↦ absurd trivial h⟩
  | cons a rest ih =>
    by_cases hok : Ok s a
    · obtain ⟨hkept, hbad⟩ := ih (hJ s a hj) (hG s a hj hg hok)
      exact ⟨fun h ↦ hkept h.2, fun h ↦ hbad fun hrest ↦ h ⟨hok, hrest⟩⟩
    · refine ⟨fun h ↦ absurd h.1 hok, fun _ ↦ ?_⟩
      have hstart : J (step s a) ∧ B (step s a) := ⟨hJ s a hj, hlost s a hj hg hok⟩
      exact (run_invariant (I := fun s ↦ J s ∧ B s) (L := fun _ ↦ True)
        (fun s a h _ ↦ ⟨hJ s a h.1, hB s a h.1 h.2⟩) rest (fun _ _ ↦ trivial) hstart).2

private theorem prefix_mem {xs pre : List A} {a : A} (h : pre ++ [a] <+: xs) : a ∈ xs :=
  h.subset (by simp)

/-- The exact rule. `J` is an invariant of every admissible step; `Ok` decides, for a state in
`J` and `I`, whether the step keeps `I`. -/
theorem run_invariant_iff {step : S → A → S} {J I : S → Prop} {L : A → Prop} {Ok : S → A → Prop}
    (hJ : ∀ s a, J s → L a → J (step s a))
    (hI : ∀ s a, J s → I s → L a → (I (step s a) ↔ Ok s a))
    (xs : List A) (hL : ∀ a ∈ xs, L a) {s : S} (hj : J s) (hi : I s) :
    (∀ pre, pre <+: xs → I (run step s pre)) ↔
      ∀ pre a, pre ++ [a] <+: xs → Ok (run step s pre) a := by
  have hjpre : ∀ pre, pre <+: xs → J (run step s pre) := fun pre hp ↦
    run_invariant hJ pre (fun a ha ↦ hL a (hp.subset ha)) hj
  constructor
  · intro h pre a hp
    have hpre : pre <+: xs := (List.prefix_append pre [a]).trans hp
    have hn := h (pre ++ [a]) hp
    rw [run_snoc] at hn
    exact (hI _ a (hjpre pre hpre) (h pre hpre) (hL a (prefix_mem hp))).mp hn
  · intro h pre
    induction pre using List.reverseRecOn with
    | nil => exact fun _ ↦ hi
    | append_singleton pre a ih =>
      intro hp
      have hpre : pre <+: xs := (List.prefix_append pre [a]).trans hp
      rw [run_snoc]
      exact (hI _ a (hjpre pre hpre) (ih hpre) (hL a (prefix_mem hp))).mpr (h pre a hp)

end Joker.Base
