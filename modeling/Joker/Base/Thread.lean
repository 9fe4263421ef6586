import Joker.Base.Coroutine

/-!
# A blocking thread

Library `Base`. One thread of control that runs a coroutine by itself and blocks where it calls
out: between two of its operations the environment may change the state, nothing else runs the
thread's code. `Thread.invariant_of_outlined` is the rely-guarantee rule for it: an outlined code
whose operations and events meet a condition on the state they find keeps the invariant and reaches
its assertions.
-/

namespace Joker.Base

/-- The shared state, and what is left of the thread's code. -/
structure Thread (L σ ε α : Type) where
  shared : σ
  code : Coro L σ ε α

/-- What happens next: the thread's next operation, or an event of the environment. -/
inductive ThreadAction (κ : Type) where
  | resume
  | env (event : κ)

namespace Thread

variable {κ L σ ε α : Type}

/-- The thread's next operation; a finished thread has none. -/
def resume (t : Thread L σ ε α) : Thread L σ ε α :=
  match t.code with
  | .done _ => t
  | .op _ effect next => ⟨effect t.shared, next t.shared⟩

/-- One action. -/
def step (env : κ → σ → σ) (t : Thread L σ ε α) : ThreadAction κ → Thread L σ ε α
  | .resume => t.resume
  | .env event => ⟨env event t.shared, t.code⟩

/-- The operation the thread takes next. -/
def label? (t : Thread L σ ε α) : Option L :=
  match t.code with
  | .done _ => none
  | .op label _ _ => some label

/-- The action's operation or event meets its condition. -/
def Meets (Ok : L → σ → Prop) (Env : κ → σ → Prop) (t : Thread L σ ε α) :
    ThreadAction κ → Prop
  | .resume => ∀ label ∈ t.label?, Ok label t.shared
  | .env event => Env event t.shared

instance (Ok : L → σ → Prop) (Env : κ → σ → Prop) [∀ label s, Decidable (Ok label s)]
    [∀ event s, Decidable (Env event s)] (t : Thread L σ ε α) (a : ThreadAction κ) :
    Decidable (Meets Ok Env t a) := by
  cases a <;> unfold Meets <;> infer_instance

variable {env : κ → σ → σ} {R : L → σ → σ → Prop}

/-- What is left of a code whose operations satisfy a relation satisfies it. -/
theorem steps_step {t : Thread L σ ε α} (h : t.code.Steps R) (a : ThreadAction κ) :
    (t.step env a).code.Steps R := by
  cases a with
  | env event => exact h
  | resume =>
    change t.resume.code.Steps R
    unfold resume
    split
    · exact h
    · next label effect next hcode =>
      rw [hcode] at h
      exact (h t.shared).2

/-- What holds of every step of the code holds of every step that is left after a run. -/
theorem steps_run {t : Thread L σ ε α} (h : t.code.Steps R) (xs : List (ThreadAction κ)) :
    (run (step env) t xs).code.Steps R := by
  induction xs generalizing t with
  | nil => exact h
  | cons a rest ih => exact ih (steps_step h a)

/-- A step is the next operation, which satisfies the relation, an event, or nothing. -/
theorem step_cases {t : Thread L σ ε α} (h : t.code.Steps R) (a : ThreadAction κ) :
    (∃ label ∈ t.label?, a = .resume ∧ R label t.shared (t.step env a).shared) ∨
      (∃ event, a = .env event ∧ (t.step env a).shared = env event t.shared) ∨
      (a = .resume ∧ t.label? = none ∧ t.step env a = t) := by
  cases a with
  | env event => exact Or.inr (Or.inl ⟨event, rfl, rfl⟩)
  | resume =>
    change (∃ label ∈ t.label?, _ ∧ R label t.shared t.resume.shared) ∨ _ ∨ _ ∧ _ ∧ t.resume = t
    unfold resume label?
    cases hcode : t.code with
    | done result => exact Or.inr (Or.inr ⟨rfl, rfl, rfl⟩)
    | op label effect next =>
      rw [hcode] at h
      exact Or.inl ⟨label, rfl, rfl, (h t.shared).1⟩

variable {Ok : L → σ → Prop} {Env : κ → σ → Prop} {I : σ → Prop}

/-- The rule: an outlined code keeps its invariant and reaches its assertions
while the environment spares them. -/
theorem invariant_of_outlined {Pre : L → σ → Prop} {Q : Except ε α → σ → Prop} {s : σ}
    {code : Coro L σ ε α} (hcode : code.Outlined Ok Pre I Q) (hat : code.At Pre Q s) (hs : I s)
    (henv : ∀ event s, Env event s → I s → I (env event s))
    (hspared : ∀ event s (code : Coro L σ ε α), code.At Pre Q s → code.At Pre Q (env event s))
    {xs : List (ThreadAction κ)} (h : StepsMeet (step env) (Meets Ok Env) ⟨s, code⟩ xs) :
    ∀ pre, pre <+: xs → I (run (step env) ⟨s, code⟩ pre).shared ∧
      (run (step env) ⟨s, code⟩ pre).code.At Pre Q (run (step env) ⟨s, code⟩ pre).shared := by
  suffices hall : ∀ pre, pre <+: xs →
      I (run (step env) ⟨s, code⟩ pre).shared ∧
        (run (step env) ⟨s, code⟩ pre).code.Outlined Ok Pre I Q ∧
        (run (step env) ⟨s, code⟩ pre).code.At Pre Q (run (step env) ⟨s, code⟩ pre).shared from
    fun pre hp ↦ ⟨(hall pre hp).1, (hall pre hp).2.2⟩
  have hmeets := ok_of_stepsMeet h
  intro pre
  induction pre using List.reverseRecOn with
  | nil => exact fun _ ↦ ⟨hs, hcode, hat⟩
  | append_singleton pre a ih =>
    intro hp
    obtain ⟨hI, hleft, hnow⟩ := ih ((List.prefix_append pre [a]).trans hp)
    have hok := hmeets pre a hp
    rw [run_snoc]
    generalize run (step env) ⟨s, code⟩ pre = t at hI hleft hnow hok
    cases a with
    | env event => exact ⟨henv event _ hok hI, hleft, hspared event _ _ hnow⟩
    | resume =>
      change I t.resume.shared ∧ t.resume.code.Outlined Ok Pre I Q ∧
        t.resume.code.At Pre Q t.resume.shared
      change ∀ label ∈ t.label?, Ok label t.shared at hok
      unfold resume
      unfold label? at hok
      split
      · exact ⟨hI, hleft, hnow⟩
      · next label effect next hc =>
        rw [hc] at hleft hnow hok
        obtain ⟨hI', hat'⟩ := (hleft t.shared).1 (hok label rfl) hI hnow
        exact ⟨hI', (hleft t.shared).2, hat'⟩

end Thread
end Joker.Base
