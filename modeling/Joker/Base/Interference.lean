import Joker.Base.Coroutine

/-!
# Rely and guarantee for pools

Library `Base`. What one call expects of the others and promises them. A coroutine is `Safe` from
a state when each of its operations, taken after any interference it expects, keeps the invariant
and its promise and leaves safe code. `Pool.safe_run` is the rule: in a pool of different calls
that keep each other's expectations, all live code is safe in every state of a run.
-/

namespace Joker.Base

/-- Expectations and promises of calls over one state, with the conditions under which their
operations are looked at. -/
structure Interference (ι L σ : Type) where
  inv : σ → Prop
  rely : ι → σ → σ → Prop
  guar : ι → σ → σ → Prop
  ok : ι → L → σ → Prop
  rely_refl : ∀ call s, rely call s s
  rely_trans : ∀ call s s' s'', rely call s s' → rely call s' s'' → rely call s s''
  rely_of_guar : ∀ call call' s s', call ≠ call' → guar call s s' → rely call' s s'

namespace Coro

variable {ι L σ ε α β : Type} {c : Interference ι L σ} {call : ι}

/-- Every operation keeps the invariant and the promise, whatever expected interference comes
first, and the result meets its assertion. -/
def Safe (c : Interference ι L σ) (call : ι) (Q : Except ε α → σ → Prop) :
    Coro L σ ε α → σ → Prop
  | done result, s => Q result s
  | op label effect next, s => ∀ s', c.rely call s s' → c.inv s' → c.ok call label s' →
    c.inv (effect s') ∧ c.guar call s' (effect s') ∧ (next s').Safe c call Q (effect s')

/-- Expected interference leaves safe code safe, when it leaves the result's assertion. -/
theorem Safe.of_rely {Q : Except ε α → σ → Prop} {code : Coro L σ ε α} {s s' : σ}
    (hQ : ∀ result, Q result s → Q result s') (hrely : c.rely call s s')
    (h : code.Safe c call Q s) : code.Safe c call Q s' := by
  cases code with
  | done result => exact hQ result h
  | op label effect next =>
    intro s'' hs''
    exact h s'' (c.rely_trans call s s' s'' hrely hs'')

/-- A weaker assertion of the result. -/
theorem Safe.imp {Q Q' : Except ε α → σ → Prop} {code : Coro L σ ε α} {s : σ}
    (hQ : ∀ result s, Q result s → Q' result s) (h : code.Safe c call Q s) :
    code.Safe c call Q' s := by
  induction code generalizing s with
  | done result => exact hQ result s h
  | op label effect next ih =>
    intro s' hrely hinv hcond
    obtain ⟨hinv', hguar, hnext⟩ := h s' hrely hinv hcond
    exact ⟨hinv', hguar, ih s' hnext⟩

/-- One operation is safe when it keeps invariant and promise and reaches the assertion. -/
theorem safe_atomic {Q : Except ε α → σ → Prop} {label : L} {f : σ → σ × Except ε α} {s : σ}
    (h : ∀ s', c.rely call s s' → c.inv s' → c.ok call label s' →
      c.inv (f s').1 ∧ c.guar call s' (f s').1 ∧ Q (f s').2 (f s').1) :
    (atomic label f).Safe c call Q s := h

/-- A sequence is safe when its second part is safe from where the first one ends. -/
theorem safe_bind {Q : Except ε α → σ → Prop} {Q' : Except ε β → σ → Prop} {code : Coro L σ ε α}
    {k : α → Coro L σ ε β} {s : σ} (h : code.Safe c call Q s) (hs : c.inv s)
    (hok : ∀ a s', c.inv s' → Q (.ok a) s' → (k a).Safe c call Q' s')
    (herr : ∀ e s', Q (.error e) s' → Q' (.error e) s') : (code >>= k).Safe c call Q' s := by
  change (code.bind k).Safe c call Q' s
  induction code generalizing s with
  | done result =>
    cases result with
    | ok a => exact hok a s hs h
    | error e => exact herr e s h
  | op label effect next ih =>
    intro s' hrely hinv hcond
    obtain ⟨hinv', hguar, hnext⟩ := h s' hrely hinv hcond
    exact ⟨hinv', hguar, ih s' hnext hinv'⟩

end Coro

namespace PoolAction

variable {ι κ : Type}

/-- The call that an action starts. -/
def spawned? : PoolAction ι κ → Option ι
  | .spawn call => some call
  | _ => none

/-- The event of the environment in an action. -/
def event? : PoolAction ι κ → Option κ
  | .env event => some event
  | .crash event => some event
  | _ => none

end PoolAction

namespace Pool

variable {ι κ L σ ε α : Type}

/-- The operation of an action meets a condition on its call. -/
def Meets (ok : ι → L → σ → Prop) (p : Pool ι L σ ε α) : PoolAction ι κ → Prop
  | .resume i =>
    match p.tasks[i]? with
    | some ⟨call, some (.op label _ _)⟩ => ok call label p.shared
    | _ => True
  | _ => True

instance (ok : ι → L → σ → Prop) [∀ call label s, Decidable (ok call label s)]
    (p : Pool ι L σ ε α) (a : PoolAction ι κ) : Decidable (p.Meets ok a) := by
  cases a with
  | resume i =>
    unfold Meets
    simp only
    split <;> infer_instance
  | _ => exact .isTrue trivial

/-- A task that takes its operation meets the condition. -/
theorem ok_of_meets {ok : ι → L → σ → Prop} {p : Pool ι L σ ε α} {i : ℕ} {call : ι} {label : L}
    {effect : σ → σ} {next : σ → Coro L σ ε α} (h : p.Meets ok (.resume i : PoolAction ι κ))
    (ht : p.tasks[i]? = some ⟨call, some (.op label effect next)⟩) : ok call label p.shared := by
  unfold Meets at h
  simp only [ht] at h
  exact h

/-- Two conditions are met together. -/
theorem meets_and {ok ok' : ι → L → σ → Prop} {p : Pool ι L σ ε α} {a : PoolAction ι κ}
    (h : p.Meets ok a) (h' : p.Meets ok' a) :
    p.Meets (fun call label s ↦ ok call label s ∧ ok' call label s) a := by
  cases a with
  | resume i =>
    unfold Meets at h h' ⊢
    simp only at h h' ⊢
    split
    · next ht =>
      simp only [ht] at h h'
      exact ⟨h, h'⟩
    · trivial
  | _ => trivial

variable {body : ι → Coro L σ ε α} {env : κ → σ → σ}

/-- The calls of the tasks after an action. -/
theorem calls_step (p : Pool ι L σ ε α) (a : PoolAction ι κ) :
    (p.step body env a).tasks.map (·.call) = p.tasks.map (·.call) ++ a.spawned?.toList := by
  cases a with
  | spawn call => exact List.map_append
  | resume i =>
    change (p.resume i).tasks.map _ = _ ++ []
    rw [List.append_nil]
    unfold resume
    split
    · next call label effect next ht =>
      apply List.ext_getElem?
      intro j
      rw [List.map_set, List.getElem?_set]
      split
      · next hij =>
        rw [← hij, List.getElem?_map, ht, if_pos]
        · rfl
        · rw [List.length_map]
          exact (List.getElem?_eq_some_iff.mp ht).1
      · rfl
    · rfl
  | cancel i =>
    change (p.tasks.modify i _).map _ = _ ++ []
    rw [List.append_nil]
    apply List.ext_getElem?
    intro j
    rw [List.getElem?_map, List.getElem?_map, List.getElem?_modify]
    cases p.tasks[j]? with
    | none => rfl
    | some t =>
      simp only [Option.map_some, Option.map_eq_map]
      split <;> rfl
  | env event => exact (List.append_nil _).symm
  | crash event =>
    change (p.tasks.map _).map _ = _ ++ []
    rw [List.append_nil, List.map_map]
    rfl

/-- The tasks of a run are those of its calls, in their order. -/
theorem calls_run (s : σ) (xs : List (PoolAction ι κ)) :
    (run (step body env) (start s : Pool ι L σ ε α) xs).tasks.map (·.call) =
      xs.filterMap (·.spawned?) := by
  induction xs using List.reverseRecOn with
  | nil => rfl
  | append_singleton xs a ih =>
    rw [run_snoc, calls_step, ih, List.filterMap_append]
    cases a <;> rfl

/-- The tasks of different calls have different calls. -/
theorem call_ne_of_ne {p : Pool ι L σ ε α} (h : (p.tasks.map (·.call)).Nodup) {i j : ℕ}
    {t t' : Task ι L σ ε α} (hi : p.tasks[i]? = some t) (hj : p.tasks[j]? = some t')
    (hne : i ≠ j) : t.call ≠ t'.call := by
  intro heq
  apply hne
  refine (List.getElem?_inj ?_ h).mp ?_
  · rw [List.length_map]
    exact (List.getElem?_eq_some_iff.mp hi).1
  · rw [List.getElem?_map, List.getElem?_map, hi, hj]
    exact congrArg some heq

/-- The invariant holds, all live code is safe, and calls that have no task can start. -/
structure AllSafe (c : Interference ι L σ) (Start : ι → σ → Prop)
    (Q : ι → Except ε α → σ → Prop) (p : Pool ι L σ ε α) : Prop where
  inv : c.inv p.shared
  safe : ∀ (i : ℕ) (call : ι) (code : Coro L σ ε α),
    p.tasks[i]? = some ⟨call, some code⟩ → code.Safe c call (Q call) p.shared
  start : ∀ call, call ∉ p.tasks.map (·.call) → Start call p.shared

/-- The contract of a program: what every call does from where it can start, and what the
environment does. -/
structure Respectful (body : ι → Coro L σ ε α) (env : κ → σ → σ) (Env : κ → σ → Prop)
    (c : Interference ι L σ) (Start : ι → σ → Prop) (Q : ι → Except ε α → σ → Prop) : Prop where
  body : ∀ call s, c.inv s → Start call s → (body call).Safe c call (Q call) s
  env : ∀ event s, Env event s → c.inv s →
    c.inv (env event s) ∧ ∀ call, c.rely call s (env event s)
  start : ∀ call s s', c.rely call s s' → Start call s → Start call s'
  stable : ∀ call result s s', c.rely call s s' → Q call result s → Q call result s'

variable {c : Interference ι L σ} {Start : ι → σ → Prop} {Q : ι → Except ε α → σ → Prop}
  {Env : κ → σ → Prop}

/-- The step rule. -/
theorem allSafe_step (h : Respectful body env Env c Start Q) {p : Pool ι L σ ε α}
    {a : PoolAction ι κ} (hp : p.AllSafe c Start Q)
    (hcalls : ((p.step body env a).tasks.map (·.call)).Nodup) (hok : p.Meets c.ok a)
    (henv : ∀ event ∈ a.event?, Env event p.shared) : (p.step body env a).AllSafe c Start Q := by
  have hstill {s' : σ} (call : ι) (code : Coro L σ ε α) (hrely : c.rely call p.shared s')
      (hsafe : code.Safe c call (Q call) p.shared) : code.Safe c call (Q call) s' :=
    hsafe.of_rely (fun result ↦ h.stable call result _ _ hrely) hrely
  have hnew (call : ι) (hcall : call ∉ (p.step body env a).tasks.map (·.call)) :
      call ∉ p.tasks.map (·.call) := by
    intro hold
    apply hcall
    rw [calls_step]
    exact List.mem_append_left _ hold
  cases a with
  | spawn call =>
    have hidle : call ∉ p.tasks.map (·.call) := by
      rw [calls_step] at hcalls
      exact fun hold ↦ (List.nodup_append.mp hcalls).2.2 call hold call (by exact .head _) rfl
    refine ⟨hp.inv, ?_, fun call' hcall' ↦ hp.start call' (hnew call' hcall')⟩
    intro j call' code hj
    rcases getElem?_step hj with ⟨ha, -, rfl⟩ | ⟨ha, -⟩ | hj
    · cases ha
      exact h.body call p.shared hp.inv (hp.start call hidle)
    · cases ha
    · exact hp.safe j call' code hj
  | cancel i =>
    refine ⟨hp.inv, ?_, fun call' hcall' ↦ hp.start call' (hnew call' hcall')⟩
    intro j call code hj
    rcases getElem?_step hj with ⟨ha, -⟩ | ⟨ha, -⟩ | hj
    · cases ha
    · cases ha
    · exact hp.safe j call code hj
  | env event =>
    obtain ⟨hinv, hrely⟩ := h.env event p.shared (henv event rfl) hp.inv
    exact ⟨hinv, fun j call code hj ↦ hstill call code (hrely call) (hp.safe j call code hj),
      fun call hcall ↦ h.start call _ _ (hrely call) (hp.start call (hnew call hcall))⟩
  | crash event =>
    obtain ⟨hinv, hrely⟩ := h.env event p.shared (henv event rfl) hp.inv
    exact ⟨hinv, fun j call code hj ↦ absurd hj (getElem?_crash p event j call code),
      fun call hcall ↦ h.start call _ _ (hrely call) (hp.start call (hnew call hcall))⟩
  | resume i =>
    by_cases hb : ∃ call label, p.Before i call label
    · obtain ⟨call, label, effect, next, ht⟩ := hb
      obtain ⟨hinv, hguar, hnext⟩ := hp.safe i call _ ht p.shared (c.rely_refl call _) hp.inv
        (ok_of_meets hok ht)
      have hs : (p.step body env (.resume i)).shared = effect p.shared := shared_resume ht
      have hothers (call' : ι) (hne : call ≠ call') : c.rely call' p.shared (effect p.shared) :=
        c.rely_of_guar call call' _ _ hne hguar
      refine ⟨hs ▸ hinv, ?_, ?_⟩
      · intro j call' code hj
        change (p.resume i).tasks[j]? = _ at hj
        rw [getElem?_resume ht] at hj
        rw [hs]
        split at hj
        · cases hj
          exact hnext
        · next hji =>
          rw [calls_step] at hcalls
          have hne := call_ne_of_ne (List.nodup_append.mp hcalls).1 ht hj (Ne.symm hji)
          exact hstill call' code (hothers call' hne) (hp.safe j call' code hj)
      · intro call' hcall'
        have hidle := hnew call' hcall'
        have hne : call ≠ call' := by
          rintro rfl
          exact hidle (List.mem_map.mpr ⟨_, List.mem_of_getElem? ht, rfl⟩)
        rw [hs]
        exact h.start call' _ _ (hothers call' hne) (hp.start call' hidle)
    · have hsame : p.step body env (.resume i) = p := resume_of_not_before hb
      rw [hsame]
      exact hp

/-- A relation between states that all promises and all events imply holds across a step. -/
theorem related_step {T : σ → σ → Prop} (hrefl : ∀ s, T s s)
    (hguar : ∀ call s s', c.guar call s s' → T s s')
    (hevent : ∀ event s, Env event s → T s (env event s)) {p : Pool ι L σ ε α}
    {a : PoolAction ι κ} (hp : p.AllSafe c Start Q) (hok : p.Meets c.ok a)
    (henv : ∀ event ∈ a.event?, Env event p.shared) :
    T p.shared (p.step body env a).shared := by
  cases a with
  | spawn call => exact hrefl _
  | cancel i => exact hrefl _
  | env event => exact hevent event _ (henv event rfl)
  | crash event => exact hevent event _ (henv event rfl)
  | resume i =>
    change T p.shared (p.resume i).shared
    by_cases hb : ∃ call label, p.Before i call label
    · obtain ⟨call, label, effect, next, ht⟩ := hb
      rw [shared_resume ht]
      exact hguar call _ _
        (hp.safe i call _ ht p.shared (c.rely_refl call _) hp.inv (ok_of_meets hok ht)).2.1
    · rw [resume_of_not_before hb]
      exact hrefl _

/-- The rule for runs: different calls whose operations meet their conditions are safe in every
state. -/
theorem allSafe_run (h : Respectful body env Env c Start Q) {s : σ} (hs : c.inv s)
    (hstart : ∀ call, Start call s) {xs : List (PoolAction ι κ)}
    (hcalls : (xs.filterMap (·.spawned?)).Nodup)
    (henv : ∀ pre a, pre ++ [a] <+: xs →
      ∀ event ∈ a.event?, Env event (run (step body env) (start s) pre).shared)
    (hok : ∀ pre a, pre ++ [a] <+: xs → (run (step body env) (start s) pre).Meets c.ok a) :
    ∀ pre, pre <+: xs → (run (step body env) (start s) pre).AllSafe c Start Q := by
  intro pre
  induction pre using List.reverseRecOn with
  | nil => exact fun _ ↦ ⟨hs, (fun _ _ _ hi ↦ nomatch hi), fun call _ ↦ hstart call⟩
  | append_singleton pre a ih =>
    intro hp
    have hpre := (List.prefix_append pre [a]).trans hp
    have hnodup : ((run (step body env) (start s) (pre ++ [a])).tasks.map (·.call)).Nodup := by
      rw [calls_run]
      exact hcalls.sublist (hp.sublist.filterMap _)
    rw [run_snoc] at hnodup ⊢
    exact allSafe_step h (ih hpre) hnodup (hok pre a hp) (henv pre a hp)

end Pool
end Joker.Base
