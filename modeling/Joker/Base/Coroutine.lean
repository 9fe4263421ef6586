import Joker.Base.Runs

/-!
# Coroutines over a shared state

Library `Base`. A coroutine is a tree of atomic operations on a shared state, one for each
stretch of code between two `await` points, and ends with a value or an exception. It runs
alone by `exec`, or in a pool of tasks where any live task may take the next operation, a task
may be cancelled at any await point, and a crash kills all tasks.

The proof rules follow Owicki and Gries: a coroutine is outlined by an assertion before each
kind of operation and one for its result, and a pool keeps all assertions exactly as long as no
step breaks the assertion of another task. `Steps` is the special case without assertions.
-/

namespace Joker.Base

/-- A coroutine: finished, or suspended before an atomic operation. The rest depends on the
state that the operation found. -/
inductive Coro (L σ ε α : Type) where
  | done (result : Except ε α)
  | op (label : L) (effect : σ → σ) (next : σ → Coro L σ ε α)

namespace Coro

variable {L L' σ τ ε ε' α β : Type}

/-- Sequencing: an exception skips the rest. -/
def bind : Coro L σ ε α → (α → Coro L σ ε β) → Coro L σ ε β
  | done (.ok a), k => k a
  | done (.error e), _ => done (.error e)
  | op label effect next, k => op label effect (fun s ↦ (next s).bind k)

instance : Monad (Coro L σ ε) where
  pure a := done (.ok a)
  bind := bind

/-- `raise e`. -/
def raise (e : ε) : Coro L σ ε α := done (.error e)

/-- `try: … except …`, with a handler for every exception. -/
def handle : Coro L σ ε α → (ε → Coro L σ ε' α) → Coro L σ ε' α
  | done (.ok a), _ => done (.ok a)
  | done (.error e), h => h e
  | op label effect next, h => op label effect (fun s ↦ (next s).handle h)

/-- One atomic operation with a result or an exception. -/
def atomic (label : L) (f : σ → σ × Except ε α) : Coro L σ ε α :=
  op label (fun s ↦ (f s).1) (fun s ↦ done (f s).2)

/-- A coroutine on a part of a larger state, with its operations under new labels. -/
def zoom (name : L → L') (get : τ → σ) (set : σ → τ → τ) : Coro L σ ε α → Coro L' τ ε α
  | done result => done result
  | op label effect next =>
    op (name label) (fun t ↦ set (effect (get t)) t) (fun t ↦ (next (get t)).zoom name get set)

/-- The run of a coroutine that nothing interrupts. -/
def exec : Coro L σ ε α → σ → σ × Except ε α
  | done result, s => (s, result)
  | op _ effect next, s => (next s).exec (effect s)

/-- Code without await points is one operation. -/
def whole (label : L) (c : Coro L' σ ε α) : Coro L σ ε α := atomic label c.exec

/-- The outcome of a coroutine as a value. -/
def attempt (c : Coro L σ ε α) : Coro L σ ε' (Except ε α) :=
  (c >>= fun a ↦ pure (Except.ok a)).handle (fun e ↦ pure (Except.error e))

/-- Every operation of the coroutine satisfies a relation between the states before and
after it. -/
def Steps (R : L → σ → σ → Prop) : Coro L σ ε α → Prop
  | done _ => True
  | op label effect next => ∀ s, R label s (effect s) ∧ (next s).Steps R

/-- The assertion of a coroutine: before its next operation, or about its result. -/
def At (Pre : L → σ → Prop) (Q : Except ε α → σ → Prop) : Coro L σ ε α → σ → Prop
  | done result, s => Q result s
  | op label _ _, s => Pre label s

/-- The coroutine is outlined: from the assertion before an operation that meets `Ok`, the
operation keeps the invariant `I` and reaches the next assertion. -/
def Outlined (Ok Pre : L → σ → Prop) (I : σ → Prop) (Q : Except ε α → σ → Prop) :
    Coro L σ ε α → Prop
  | done _ => True
  | op label effect next => ∀ s,
    (Ok label s → I s → Pre label s → I (effect s) ∧ (next s).At Pre Q (effect s)) ∧
      (next s).Outlined Ok Pre I Q

/-! ### Running alone -/

/-- Running `pure` changes nothing and returns its value. -/
@[simp] theorem exec_pure (a : α) (s : σ) : (pure a : Coro L σ ε α).exec s = (s, .ok a) := rfl

/-- Running `raise` changes nothing and raises its exception. -/
@[simp] theorem exec_raise (e : ε) (s : σ) :
    (raise e : Coro L σ ε α).exec s = (s, .error e) := rfl

/-- Running one operation runs its function. -/
@[simp] theorem exec_atomic (label : L) (f : σ → σ × Except ε α) (s : σ) :
    (atomic label f).exec s = f s := rfl

/-- A sequence runs its second part from where the first one ended. -/
@[simp] theorem exec_bind (c : Coro L σ ε α) (k : α → Coro L σ ε β) (s : σ) :
    (c >>= k).exec s =
      match c.exec s with
      | (s', .ok a) => (k a).exec s'
      | (s', .error e) => (s', .error e) := by
  change (c.bind k).exec s = _
  induction c generalizing s with
  | done result => cases result <;> rfl
  | op label effect next ih => exact ih s (effect s)

/-- A handler runs from where the exception was raised. -/
@[simp] theorem exec_handle (c : Coro L σ ε α) (h : ε → Coro L σ ε' α) (s : σ) :
    (c.handle h).exec s =
      match c.exec s with
      | (s', .ok a) => (s', .ok a)
      | (s', .error e) => (h e).exec s' := by
  induction c generalizing s with
  | done result => cases result <;> rfl
  | op label effect next ih => exact ih s (effect s)

/-- A coroutine on a part runs on that part. -/
theorem exec_zoom {name : L → L'} {get : τ → σ} {set : σ → τ → τ}
    (hgs : ∀ s t, get (set s t) = s) (hsg : ∀ t, set (get t) t = t)
    (hss : ∀ s s' t, set s (set s' t) = set s t) (c : Coro L σ ε α) (t : τ) :
    (c.zoom name get set).exec t = (set (c.exec (get t)).1 t, (c.exec (get t)).2) := by
  induction c generalizing t with
  | done result =>
    change (t, result) = (set (get t) t, result)
    rw [hsg]
  | op label effect next ih =>
    change ((next (get t)).zoom name get set).exec (set (effect (get t)) t) = _
    rw [ih, hgs, hss]
    rfl

/-- Running a whole coroutine as one operation runs the coroutine. -/
@[simp] theorem exec_whole (label : L) (c : Coro L' σ ε α) (s : σ) :
    (whole label c).exec s = c.exec s := rfl

/-- The outcome is the result of the run. -/
@[simp] theorem exec_attempt (c : Coro L σ ε α) (s : σ) :
    (c.attempt : Coro L σ ε' (Except ε α)).exec s = ((c.exec s).1, .ok (c.exec s).2) := by
  unfold attempt
  rw [exec_handle, exec_bind]
  rcases c.exec s with ⟨s', result⟩
  cases result <;> rfl

/-! ### Frames -/

/-- The run leaves a part of the state as it was. -/
def Leaves {γ : Type} (part : σ → γ) (c : Coro L σ ε α) : Prop :=
  ∀ s, part (c.exec s).1 = part s

section Frames

variable {γ : Type} {part : σ → γ}

/-- `pure` leaves every part of the state. -/
theorem leaves_pure (a : α) : (pure a : Coro L σ ε α).Leaves part := fun _ ↦ rfl

/-- What a continuation leaves alone is as the first part left it. -/
theorem part_bind {c : Coro L σ ε α} {k : α → Coro L σ ε β} (hk : ∀ a, (k a).Leaves part)
    (s : σ) : part ((c >>= k).exec s).1 = part (c.exec s).1 := by
  rw [exec_bind]
  rcases c.exec s with ⟨s', result⟩
  cases result with
  | ok a => exact hk a s'
  | error e => rfl

/-- A sequence leaves what both of its parts leave. -/
theorem leaves_bind {c : Coro L σ ε α} {k : α → Coro L σ ε β} (hc : c.Leaves part)
    (hk : ∀ a, (k a).Leaves part) : (c >>= k).Leaves part :=
  fun s ↦ (part_bind hk s).trans (hc s)

/-- An attempt leaves what the attempted coroutine leaves. -/
theorem leaves_attempt {c : Coro L σ ε α} (hc : c.Leaves part) :
    (c.attempt : Coro L σ ε' (Except ε α)).Leaves part := by
  intro s
  rw [exec_attempt]
  exact hc s

end Frames

/-! ### Single operations -/

variable {R : L → σ → σ → Prop}

/-- `pure` takes no step. -/
theorem steps_pure (a : α) : (pure a : Coro L σ ε α).Steps R := trivial

/-- `raise` takes no step. -/
theorem steps_raise (e : ε) : (raise e : Coro L σ ε α).Steps R := trivial

/-- One operation takes the steps that its function takes. -/
theorem steps_atomic {label : L} {f : σ → σ × Except ε α} (h : ∀ s, R label s (f s).1) :
    (atomic label f).Steps R := fun s ↦ ⟨h s, trivial⟩

/-- A coroutine run as one operation takes one step, its whole run. -/
theorem steps_whole {label : L} {c : Coro L' σ ε α} (h : ∀ s, R label s (c.exec s).1) :
    (whole label c).Steps R := steps_atomic h

/-- A weaker relation holds as well. -/
theorem steps_mono {R' : L → σ → σ → Prop} (h : ∀ label s s', R label s s' → R' label s s')
    {c : Coro L σ ε α} (hc : c.Steps R) : c.Steps R' := by
  induction c with
  | done result => trivial
  | op label effect next ih => exact fun s ↦ ⟨h _ _ _ (hc s).1, ih s (hc s).2⟩

/-- A sequence of coroutines whose operations satisfy the relation is one. -/
theorem steps_bind {c : Coro L σ ε α} {k : α → Coro L σ ε β} (hc : c.Steps R)
    (hk : ∀ a, (k a).Steps R) : (c >>= k).Steps R := by
  change (c.bind k).Steps R
  induction c with
  | done result =>
    cases result with
    | ok a => exact hk a
    | error e => trivial
  | op label effect next ih => exact fun s ↦ ⟨(hc s).1, ih s (hc s).2⟩

/-- Handling an exception adds the handler's operations only. -/
theorem steps_handle {c : Coro L σ ε α} {h : ε → Coro L σ ε' α} (hc : c.Steps R)
    (hh : ∀ e, (h e).Steps R) : (c.handle h).Steps R := by
  induction c with
  | done result =>
    cases result with
    | ok a => trivial
    | error e => exact hh e
  | op label effect next ih => exact fun s ↦ ⟨(hc s).1, ih s (hc s).2⟩

/-- A relation that always holds. -/
theorem steps_of_forall (h : ∀ label s s', R label s s') (c : Coro L σ ε α) : c.Steps R := by
  induction c with
  | done result => trivial
  | op label effect next ih => exact fun s ↦ ⟨h _ _ _, ih s⟩

/-- Operations on a part satisfy a relation on the whole when they do so seen from the part. -/
theorem steps_zoom {name : L' → L} {get : τ → σ} {set : σ → τ → τ} {R : L → τ → τ → Prop}
    {c : Coro L' σ ε α}
    (h : c.Steps (fun label s s' ↦ ∀ t, get t = s → R (name label) t (set s' t))) :
    (c.zoom name get set).Steps R := by
  induction c with
  | done result => trivial
  | op label effect next ih => exact fun t ↦ ⟨(h (get t)).1 t rfl, ih (get t) (h (get t)).2⟩

/-! ### Last operations -/

/-- The coroutine has no operation left and returns a value. -/
def isValue : Coro L σ ε α → Bool
  | done (.ok _) => true
  | _ => false

/-- The operation after which the coroutine returns a value relates the states before and after
it to the value. -/
def EndsWith (E : σ → σ → α → Prop) : Coro L σ ε α → Prop
  | done _ => True
  | op _ effect next => ∀ s,
    (∀ a, next s = done (.ok a) → E s (effect s) a) ∧ (next s).EndsWith E

section LastOperations

variable {E : σ → σ → α → Prop}

/-- `pure` ends as it starts. -/
theorem endsWith_pure (a : α) : (pure a : Coro L σ ε α).EndsWith E := trivial

/-- `raise` returns nothing that could end wrongly. -/
theorem endsWith_raise (e : ε) : (raise e : Coro L σ ε α).EndsWith E := trivial

/-- One operation ends as its function does. -/
theorem endsWith_atomic {label : L} {f : σ → σ × Except ε α}
    (h : ∀ s a, (f s).2 = .ok a → E s (f s).1 a) : (atomic label f).EndsWith E :=
  fun s ↦ ⟨fun a ha ↦ h s a (done.inj ha), trivial⟩

/-- A relation that always holds. -/
theorem endsWith_of_forall (h : ∀ s s' a, E s s' a) (c : Coro L σ ε α) : c.EndsWith E := by
  induction c with
  | done result => trivial
  | op label effect next ih => exact fun s ↦ ⟨fun a _ ↦ h _ _ a, ih s⟩

/-- A weaker relation holds as well. -/
theorem endsWith_mono {E' : σ → σ → α → Prop} (h : ∀ s s' a, E s s' a → E' s s' a)
    {c : Coro L σ ε α} (hc : c.EndsWith E) : c.EndsWith E' := by
  induction c with
  | done result => trivial
  | op label effect next ih =>
    exact fun s ↦ ⟨fun a ha ↦ h _ _ _ ((hc s).1 a ha), ih s (hc s).2⟩

/-- A sequence ends with its second part, or with the first one when the second has no
operation. -/
theorem endsWith_bind {E : σ → σ → β → Prop} {c : Coro L σ ε α} {k : α → Coro L σ ε β}
    (hc : c.EndsWith (fun s s' a ↦ ∀ b, k a = done (.ok b) → E s s' b))
    (hk : ∀ a, (k a).EndsWith E) : (c >>= k).EndsWith E := by
  change (c.bind k).EndsWith E
  induction c with
  | done result =>
    cases result with
    | ok a => exact hk a
    | error e => trivial
  | op label effect next ih =>
    intro s
    refine ⟨?_, ih s (hc s).2⟩
    intro b hb
    change (next s).bind k = done (.ok b) at hb
    cases hn : next s with
    | done result =>
      rw [hn] at hb
      cases result with
      | ok a => exact (hc s).1 a hn b hb
      | error e => cases hb
    | op label' effect' next' =>
      rw [hn] at hb
      cases hb

/-- A sequence whose second part is not a value ends with it. -/
theorem endsWith_then {E : σ → σ → β → Prop} {c : Coro L σ ε α} {k : α → Coro L σ ε β}
    (hn : ∀ a, (k a).isValue = false) (hk : ∀ a, (k a).EndsWith E) : (c >>= k).EndsWith E := by
  apply endsWith_bind _ hk
  apply endsWith_of_forall
  intro _ _ a b hb
  have hv := hn a
  rw [hb] at hv
  cases hv

/-- Translating exceptions leaves the last operation as it was. -/
theorem endsWith_handle_raise {c : Coro L σ ε α} {f : ε → ε'} (hc : c.EndsWith E) :
    (c.handle (fun e ↦ raise (f e))).EndsWith E := by
  induction c with
  | done result => cases result <;> trivial
  | op label effect next ih =>
    intro s
    refine ⟨?_, ih s (hc s).2⟩
    intro a ha
    change (next s).handle _ = done (.ok a) at ha
    cases hn : next s with
    | done result =>
      rw [hn] at ha
      cases result with
      | ok a' =>
        cases ha
        exact (hc s).1 a hn
      | error e => cases ha
    | op label' effect' next' =>
      rw [hn] at ha
      cases ha

end LastOperations

/-! ### Outlines -/

section Outlines

variable {Ok Pre : L → σ → Prop} {I : σ → Prop}

/-- An operation is outlined when it leads from its assertion to its result's. -/
theorem outlined_atomic {Q : Except ε α → σ → Prop} {label : L} {f : σ → σ × Except ε α}
    (h : ∀ s, Ok label s → I s → Pre label s → I (f s).1 ∧ Q (f s).2 (f s).1) :
    (atomic label f).Outlined Ok Pre I Q := fun s ↦ ⟨h s, trivial⟩

/-- The assertion of a sequence is that of its first part, whose result starts the second. -/
theorem at_bind {Q : Except ε α → σ → Prop} {Q' : Except ε β → σ → Prop} {c : Coro L σ ε α}
    {k : α → Coro L σ ε β} {s : σ} (h : c.At Pre Q s) (hok : ∀ a, Q (.ok a) s → (k a).At Pre Q' s)
    (herr : ∀ e, Q (.error e) s → Q' (.error e) s) : (c >>= k).At Pre Q' s := by
  change (c.bind k).At Pre Q' s
  cases c with
  | done result =>
    cases result with
    | ok a => exact hok a h
    | error e => exact herr e h
  | op label effect next => exact h

/-- A sequence is outlined by outlines of its parts that meet. -/
theorem outlined_bind {Q : Except ε α → σ → Prop} {Q' : Except ε β → σ → Prop}
    {c : Coro L σ ε α} {k : α → Coro L σ ε β} (hc : c.Outlined Ok Pre I Q)
    (hk : ∀ a, (k a).Outlined Ok Pre I Q') (hok : ∀ a s, I s → Q (.ok a) s → (k a).At Pre Q' s)
    (herr : ∀ e s, Q (.error e) s → Q' (.error e) s) : (c >>= k).Outlined Ok Pre I Q' := by
  change (c.bind k).Outlined Ok Pre I Q'
  induction c with
  | done result =>
    cases result with
    | ok a => exact hk a
    | error e => trivial
  | op label effect next ih =>
    intro s
    refine ⟨?_, ih s (hc s).2⟩
    intro ho hI hpre
    obtain ⟨hI', hat⟩ := (hc s).1 ho hI hpre
    exact ⟨hI', at_bind hat (fun a ↦ hok a _ hI') (fun e ↦ herr e _)⟩

/-- The assertion of a guarded coroutine, whose exception starts the handler. -/
theorem at_handle {Q : Except ε α → σ → Prop} {Q' : Except ε' α → σ → Prop} {c : Coro L σ ε α}
    {k : ε → Coro L σ ε' α} {s : σ} (h : c.At Pre Q s) (hok : ∀ a, Q (.ok a) s → Q' (.ok a) s)
    (herr : ∀ e, Q (.error e) s → (k e).At Pre Q' s) : (c.handle k).At Pre Q' s := by
  cases c with
  | done result =>
    cases result with
    | ok a => exact hok a h
    | error e => exact herr e h
  | op label effect next => exact h

/-- A guarded coroutine is outlined by outlines of its body and its handler that meet. -/
theorem outlined_handle {Q : Except ε α → σ → Prop} {Q' : Except ε' α → σ → Prop}
    {c : Coro L σ ε α} {k : ε → Coro L σ ε' α} (hc : c.Outlined Ok Pre I Q)
    (hk : ∀ e, (k e).Outlined Ok Pre I Q') (hok : ∀ a s, Q (.ok a) s → Q' (.ok a) s)
    (herr : ∀ e s, I s → Q (.error e) s → (k e).At Pre Q' s) :
    (c.handle k).Outlined Ok Pre I Q' := by
  induction c with
  | done result =>
    cases result with
    | ok a => trivial
    | error e => exact hk e
  | op label effect next ih =>
    intro s
    refine ⟨?_, ih s (hc s).2⟩
    intro ho hI hpre
    obtain ⟨hI', hat⟩ := (hc s).1 ho hI hpre
    exact ⟨hI', at_handle hat (fun a ↦ hok a _) (fun e ↦ herr e _ hI')⟩

/-- A coroutine whose outcome is taken as a value is outlined as it was. -/
theorem outlined_attempt {c : Coro L σ ε α} (h : c.Outlined Ok Pre I (fun _ _ ↦ True)) :
    (c.attempt : Coro L σ ε' (Except ε α)).Outlined Ok Pre I (fun _ _ ↦ True) := by
  apply outlined_handle (Q := fun _ _ ↦ True)
  · apply outlined_bind h
    · exact fun _ ↦ trivial
    · exact fun _ _ _ _ ↦ trivial
    · exact fun _ _ _ ↦ trivial
  · exact fun _ ↦ trivial
  · exact fun _ _ _ ↦ trivial
  · exact fun _ _ _ _ ↦ trivial

/-- Operations that keep an invariant outline a coroutine without assertions. -/
theorem outlined_of_steps {c : Coro L σ ε α}
    (h : c.Steps (fun label s s' ↦ Ok label s → I s → I s')) :
    c.Outlined Ok (fun _ _ ↦ True) I (fun _ _ ↦ True) := by
  induction c with
  | done result => trivial
  | op label effect next ih =>
    refine fun s ↦ ⟨fun ho hI _ ↦ ⟨(h s).1 ho hI, ?_⟩, ih s (h s).2⟩
    cases next s <;> trivial

end Outlines

end Coro

/-! ### Pools -/

/-- A task: the call it was started for, and what is left of it unless it was cancelled. -/
structure Task (ι L σ ε α : Type) where
  call : ι
  code : Option (Coro L σ ε α)

/-- Tasks over one shared state. -/
structure Pool (ι L σ ε α : Type) where
  shared : σ
  tasks : List (Task ι L σ ε α)

/-- What can happen next: a new call, one operation of a task, a cancellation, an event of the
environment, or a crash with such an event. -/
inductive PoolAction (ι κ : Type) where
  | spawn (call : ι)
  | resume (i : ℕ)
  | cancel (i : ℕ)
  | env (event : κ)
  | crash (event : κ)

namespace Pool

variable {ι κ L σ ε α : Type}

/-- A pool without tasks. -/
def start (s : σ) : Pool ι L σ ε α := ⟨s, []⟩

/-- One operation of the task at a position; a finished or cancelled task has none. -/
def resume (p : Pool ι L σ ε α) (i : ℕ) : Pool ι L σ ε α :=
  match p.tasks[i]? with
  | some ⟨call, some (.op _ effect next)⟩ =>
    ⟨effect p.shared, p.tasks.set i ⟨call, some (next p.shared)⟩⟩
  | _ => p

/-- One action; `body` is the coroutine of a call, `env` the environment's effect. -/
def step (body : ι → Coro L σ ε α) (env : κ → σ → σ) (p : Pool ι L σ ε α) :
    PoolAction ι κ → Pool ι L σ ε α
  | .spawn call => ⟨p.shared, p.tasks ++ [⟨call, some (body call)⟩]⟩
  | .resume i => p.resume i
  | .cancel i => ⟨p.shared, p.tasks.modify i (fun t ↦ ⟨t.call, none⟩)⟩
  | .env event => ⟨env event p.shared, p.tasks⟩
  | .crash event => ⟨env event p.shared, p.tasks.map (fun t ↦ ⟨t.call, none⟩)⟩

/-- The call at a position has returned. -/
def Finished (p : Pool ι L σ ε α) (i : ℕ) (call : ι) (result : Except ε α) : Prop :=
  p.tasks[i]? = some ⟨call, some (.done result)⟩

/-- The call at a position is about to take an operation. -/
def Before (p : Pool ι L σ ε α) (i : ℕ) (call : ι) (label : L) : Prop :=
  ∃ effect next, p.tasks[i]? = some ⟨call, some (.op label effect next)⟩

/-- The operation that the task at a position is about to take. -/
def label? (p : Pool ι L σ ε α) (i : ℕ) : Option L :=
  match p.tasks[i]? with
  | some ⟨_, some (.op label _ _)⟩ => some label
  | _ => none

/-- A step respects a condition when the operation it takes meets it. -/
def Respects (Ok : L → σ → Prop) (p : Pool ι L σ ε α) : PoolAction ι κ → Prop
  | .resume i => ∀ call label, p.Before i call label → Ok label p.shared
  | _ => True

/-- A step spares the other tasks when their assertions survive it. -/
def Spares (Pre : ι → L → σ → Prop) (Q : ι → Except ε α → σ → Prop) (p : Pool ι L σ ε α) :
    PoolAction ι κ → Prop
  | .resume i => ∀ j, j ≠ i → ∀ call (code : Coro L σ ε α), p.tasks[j]? = some ⟨call, some code⟩ →
    code.At (Pre call) (Q call) (p.resume i).shared
  | _ => True

/-- A proof outline of all calls, for environment events that meet `Env`. -/
structure Outline (body : ι → Coro L σ ε α) (env : κ → σ → σ) (Ok : L → σ → Prop)
    (Env : κ → Prop) (I : σ → Prop) (Pre : ι → L → σ → Prop)
    (Q : ι → Except ε α → σ → Prop) : Prop where
  outlined : ∀ call, (body call).Outlined Ok (Pre call) I (Q call)
  spawn : ∀ call s, I s → (body call).At (Pre call) (Q call) s
  env : ∀ event s, Env event → I s → I (env event s) ∧
    ∀ call (code : Coro L σ ε α), code.At (Pre call) (Q call) s →
      code.At (Pre call) (Q call) (env event s)

/-- The code that is left of every live task is outlined. -/
def Follows (Ok : L → σ → Prop) (I : σ → Prop) (Pre : ι → L → σ → Prop)
    (Q : ι → Except ε α → σ → Prop) (p : Pool ι L σ ε α) : Prop :=
  ∀ (i : ℕ) (call : ι) (code : Coro L σ ε α), p.tasks[i]? = some ⟨call, some code⟩ →
    code.Outlined Ok (Pre call) I (Q call)

/-- The invariant and the assertions of all live tasks. -/
def Holds (I : σ → Prop) (Pre : ι → L → σ → Prop) (Q : ι → Except ε α → σ → Prop)
    (p : Pool ι L σ ε α) : Prop :=
  I p.shared ∧
    ∀ (i : ℕ) (call : ι) (code : Coro L σ ε α), p.tasks[i]? = some ⟨call, some code⟩ →
      code.At (Pre call) (Q call) p.shared

variable {body : ι → Coro L σ ε α} {env : κ → σ → σ} {Ok : L → σ → Prop} {Env : κ → Prop}
  {I : σ → Prop} {Pre : ι → L → σ → Prop} {Q : ι → Except ε α → σ → Prop}

/-- No code is left after a crash. -/
theorem getElem?_crash (p : Pool ι L σ ε α) (event : κ) (j : ℕ) (call : ι)
    (code : Coro L σ ε α) :
    (p.step body env (.crash event)).tasks[j]? ≠ some ⟨call, some code⟩ := by
  intro h
  change (p.tasks.map _)[j]? = _ at h
  rw [List.getElem?_map] at h
  obtain ⟨t, -, he⟩ := Option.map_eq_some_iff.mp h
  cases he

/-- The tasks after an action: a new call's code, the rest of the resumed code, or old code. -/
theorem getElem?_step {p : Pool ι L σ ε α} {a : PoolAction ι κ} {j : ℕ} {call : ι}
    {code : Coro L σ ε α} (h : (p.step body env a).tasks[j]? = some ⟨call, some code⟩) :
    (a = .spawn call ∧ j = p.tasks.length ∧ code = body call) ∨
    (a = .resume j ∧ ∃ label effect next,
      p.tasks[j]? = some ⟨call, some (.op label effect next)⟩ ∧ code = next p.shared) ∨
    p.tasks[j]? = some ⟨call, some code⟩ := by
  cases a with
  | spawn call' =>
    change (p.tasks ++ [⟨call', some (body call')⟩])[j]? = _ at h
    rw [List.getElem?_append] at h
    split at h
    · exact Or.inr (Or.inr h)
    · next hj =>
      obtain ⟨hlt, he⟩ := List.getElem?_eq_some_iff.mp h
      simp only [List.length_singleton, Nat.lt_one_iff] at hlt
      simp only [hlt, List.getElem_cons_zero, Task.mk.injEq, Option.some.injEq] at he
      left
      exact ⟨by rw [he.1], by omega, by rw [← he.2, he.1]⟩
  | resume i =>
    change (p.resume i).tasks[j]? = _ at h
    unfold resume at h
    split at h
    · next call' label effect next ht =>
      rw [List.getElem?_set] at h
      by_cases hij : i = j
      · subst hij
        rw [if_pos rfl] at h
        split at h
        · cases h
          exact Or.inr (Or.inl ⟨rfl, label, effect, next, ht, rfl⟩)
        · cases h
      · rw [if_neg hij] at h
        exact Or.inr (Or.inr h)
    · exact Or.inr (Or.inr h)
  | cancel i =>
    change (p.tasks.modify i _)[j]? = _ at h
    rw [List.getElem?_modify] at h
    cases hp : p.tasks[j]? with
    | none =>
      rw [hp] at h
      cases h
    | some t =>
      rw [hp] at h
      simp only [Option.map_eq_map, Option.map_some, Option.some.injEq] at h
      by_cases hij : i = j
      · rw [if_pos hij] at h
        cases h
      · rw [if_neg hij] at h
        rw [h]
        exact Or.inr (Or.inr rfl)
  | env event => exact Or.inr (Or.inr h)
  | crash event => exact absurd h (getElem?_crash p event j call code)

/-- The code that is left of a live task has every property that all calls have and that the
rest of a code inherits. -/
theorem code_of_run {P : Coro L σ ε α → Prop} (hbody : ∀ call, P (body call))
    (hnext : ∀ label effect next s, P (.op label effect next) → P (next s)) (s : σ)
    (xs : List (PoolAction ι κ)) {i : ℕ} {call : ι} {code : Coro L σ ε α}
    (h : (run (step body env) (start s) xs).tasks[i]? = some ⟨call, some code⟩) : P code := by
  induction xs using List.reverseRecOn generalizing i call code with
  | nil => cases h
  | append_singleton xs a ih =>
    rw [run_snoc] at h
    rcases getElem?_step h with ⟨-, -, rfl⟩ | ⟨-, label, effect, next, ht, rfl⟩ | hj
    · exact hbody call
    · exact hnext label effect next _ (ih ht)
    · exact ih hj

/-- A task is before an operation exactly when that is its label. -/
theorem label?_eq_some_iff {p : Pool ι L σ ε α} {i : ℕ} {label : L} :
    p.label? i = some label ↔ ∃ call, p.Before i call label := by
  unfold label? Before
  constructor
  · intro h
    split at h
    · next call label' effect next ht =>
      cases h
      exact ⟨call, effect, next, ht⟩
    · cases h
  · rintro ⟨call, effect, next, ht⟩
    rw [ht]

/-- Every operation a live task can still take satisfies a relation that all calls obey. -/
theorem steps_of_run {R : L → σ → σ → Prop} (hbody : ∀ call, (body call).Steps R) (s : σ)
    (xs : List (PoolAction ι κ)) {i : ℕ} {call : ι} {code : Coro L σ ε α}
    (h : (run (step body env) (start s) xs).tasks[i]? = some ⟨call, some code⟩) :
    code.Steps R :=
  code_of_run hbody (fun _ _ _ s h ↦ (h s).2) s xs h

/-- A task's operation takes effect on the shared state. -/
theorem shared_resume {p : Pool ι L σ ε α} {i : ℕ} {call : ι} {label : L}
    {effect : σ → σ} {next : σ → Coro L σ ε α}
    (h : p.tasks[i]? = some ⟨call, some (.op label effect next)⟩) :
    (p.resume i).shared = effect p.shared := by
  unfold resume
  rw [h]

/-- After a task's operation its code has moved on, and the other tasks are where they were. -/
theorem getElem?_resume {p : Pool ι L σ ε α} {i : ℕ} {call : ι} {label : L} {effect : σ → σ}
    {next : σ → Coro L σ ε α}
    (h : p.tasks[i]? = some ⟨call, some (.op label effect next)⟩) (j : ℕ) :
    (p.resume i).tasks[j]? =
      if j = i then some ⟨call, some (next p.shared)⟩ else p.tasks[j]? := by
  unfold resume
  rw [h]
  by_cases hji : j = i
  · rw [if_pos hji, hji]
    exact List.getElem?_set_self (List.getElem?_eq_some_iff.mp h).1
  · rw [if_neg hji]
    exact List.getElem?_set_ne (Ne.symm hji)

/-- The call at a position and its result, when its next operation is its last. -/
def nextResult (p : Pool ι L σ ε α) (i : ℕ) : Option (ι × Except ε α) :=
  match p.tasks[i]? with
  | some ⟨call, some (.op _ _ next)⟩ =>
    match next p.shared with
    | .done result => some (call, result)
    | _ => none
  | _ => none

/-- The next operation of the task at a position is its last, and the call returns. -/
def Returning (p : Pool ι L σ ε α) (i : ℕ) (call : ι) (result : Except ε α) : Prop :=
  p.nextResult i = some (call, result)

private theorem returning_iff {p : Pool ι L σ ε α} {i : ℕ} {call : ι} {result : Except ε α} :
    p.Returning i call result ↔ ∃ label effect next,
      p.tasks[i]? = some ⟨call, some (.op label effect next)⟩ ∧
        next p.shared = .done result := by
  unfold Returning nextResult
  constructor
  · intro h
    split at h
    · next call' label effect next ht =>
      split at h
      · next result' hn =>
        cases h
        exact ⟨label, effect, next, ht, hn⟩
      · cases h
    · cases h
  · rintro ⟨label, effect, next, ht, hn⟩
    simp only [ht, hn]

/-- A task that is about to return is finished after its operation. -/
theorem finished_of_returning {p : Pool ι L σ ε α} {i : ℕ} {call : ι} {result : Except ε α}
    (h : p.Returning i call result) : (p.resume i).Finished i call result := by
  obtain ⟨label, effect, next, ht, hn⟩ := returning_iff.mp h
  unfold Finished
  rw [getElem?_resume ht, if_pos rfl, hn]

/-- In every run a call that returns a value ends with the relation all calls end with. -/
theorem endsWith_of_run {E : σ → σ → α → Prop} (hbody : ∀ call, (body call).EndsWith E) (s : σ)
    (xs : List (PoolAction ι κ)) {i : ℕ} {call : ι} {a : α}
    (h : (run (step body env) (start s) xs).Returning i call (.ok a)) :
    E (run (step body env) (start s) xs).shared
      ((run (step body env) (start s) xs).resume i).shared a := by
  obtain ⟨label, effect, next, ht, hn⟩ := returning_iff.mp h
  have hcode := code_of_run hbody (fun _ _ _ s h ↦ (h s).2) s xs ht
  rw [shared_resume ht]
  exact (hcode _).1 a hn

/-- Steps leave outlined code outlined. -/
theorem follows_step (o : Outline body env Ok Env I Pre Q) {p : Pool ι L σ ε α}
    (a : PoolAction ι κ) (h : p.Follows Ok I Pre Q) :
    (p.step body env a).Follows Ok I Pre Q := by
  intro j call code hj
  rcases getElem?_step hj with ⟨-, -, rfl⟩ | ⟨-, label, effect, next, ht, rfl⟩ | hj
  · exact o.outlined call
  · exact (h j call _ ht p.shared).2
  · exact h j call code hj

/-- A task that is not before an operation cannot take one. -/
theorem resume_of_not_before {p : Pool ι L σ ε α} {i : ℕ}
    (h : ¬ ∃ call label, p.Before i call label) : p.resume i = p := by
  unfold resume
  split
  · next call label effect next ht => exact absurd ⟨call, label, effect, next, ht⟩ h
  · rfl

/-- The step rule: a step that respects the condition keeps all assertions exactly when it
spares those of the other tasks. -/
theorem holds_step_iff (o : Outline body env Ok Env I Pre Q) {p : Pool ι L σ ε α}
    {a : PoolAction ι κ} (hf : p.Follows Ok I Pre Q) (h : p.Holds I Pre Q)
    (hok : p.Respects Ok a) (henv : ∀ event, a = .env event ∨ a = .crash event → Env event) :
    (p.step body env a).Holds I Pre Q ↔ p.Spares Pre Q a := by
  cases a with
  | spawn call =>
    refine iff_of_true ⟨h.1, ?_⟩ trivial
    intro j call' code hj
    rcases getElem?_step hj with ⟨-, -, rfl⟩ | ⟨ha, -⟩ | hj
    · exact o.spawn call' p.shared h.1
    · cases ha
    · exact h.2 j call' code hj
  | resume i =>
    by_cases hb : ∃ call label, p.Before i call label
    · obtain ⟨call, label, effect, next, ht⟩ := hb
      have hs := shared_resume ht
      obtain ⟨hI, hat⟩ := (hf i call _ ht p.shared).1 (hok call label ⟨effect, next, ht⟩) h.1
        (h.2 i call _ ht)
      have htasks (j : ℕ) : (p.step body env (.resume i)).tasks[j]? =
          if j = i then some ⟨call, some (next p.shared)⟩ else p.tasks[j]? := getElem?_resume ht j
      constructor
      · intro hh j hji call' code hj
        refine hh.2 j call' code ?_
        rw [htasks, if_neg hji]
        exact hj
      · intro hsp
        refine ⟨?_, ?_⟩
        · change I (p.resume i).shared
          rw [hs]
          exact hI
        · intro j call' code hj
          change code.At (Pre call') (Q call') (p.resume i).shared
          rw [htasks] at hj
          split at hj
          · cases hj
            rw [hs]
            exact hat
          · next hji => exact hsp j hji call' code hj
    · have hsame := resume_of_not_before hb
      have hstep : p.step body env (.resume i) = p := hsame
      rw [hstep]
      refine iff_of_true h ?_
      intro j _ call code hj
      rw [hsame]
      exact h.2 j call code hj
  | cancel i =>
    refine iff_of_true ⟨h.1, ?_⟩ trivial
    intro j call code hj
    rcases getElem?_step hj with ⟨ha, -⟩ | ⟨ha, -⟩ | hj
    · cases ha
    · cases ha
    · exact h.2 j call code hj
  | env event =>
    obtain ⟨hI, hat⟩ := o.env event p.shared (henv event (Or.inl rfl)) h.1
    exact iff_of_true ⟨hI, fun j call code hj ↦ hat call code (h.2 j call code hj)⟩ trivial
  | crash event =>
    exact iff_of_true ⟨(o.env event p.shared (henv event (Or.inr rfl)) h.1).1,
      fun j call code hj ↦ absurd hj (getElem?_crash p event j call code)⟩ trivial

/-- No condition is always respected. -/
theorem respects_true (p : Pool ι L σ ε α) (a : PoolAction ι κ) :
    p.Respects (fun _ _ ↦ True) a := by
  cases a <;> first | trivial | exact fun _ _ _ ↦ trivial

/-- The rule for runs: one more step of a run keeps all assertions exactly when it spares those
of the other tasks. -/
theorem holds_snoc_iff (o : Outline body env Ok Env I Pre Q) {s : σ}
    {xs : List (PoolAction ι κ)} {a : PoolAction ι κ}
    (h : (run (step body env) (start s) xs).Holds I Pre Q)
    (hok : (run (step body env) (start s) xs).Respects Ok a)
    (henv : ∀ event, a = .env event ∨ a = .crash event → Env event) :
    (run (step body env) (start s) (xs ++ [a])).Holds I Pre Q ↔
      (run (step body env) (start s) xs).Spares Pre Q a := by
  have hfollows : (run (step body env) (start s) xs).Follows Ok I Pre Q := by
    refine run_invariant (L := fun _ ↦ True) (fun p a h _ ↦ follows_step o a h) xs
      (fun _ _ ↦ trivial) ?_
    intro i call code hi
    cases hi
  rw [run_snoc]
  exact holds_step_iff o hfollows h hok henv

/-- A pool without tasks has all assertions whose invariant its state meets. -/
theorem holds_start {s : σ} (h : I s) : (start s : Pool ι L σ ε α).Holds I Pre Q :=
  ⟨h, fun _ _ _ hi ↦ nomatch hi⟩

/-- An invariant of the shared state: when every operation of every call keeps it, so does
every run that respects the condition. -/
theorem invariant_run
    (hbody : ∀ call, (body call).Steps (fun label s s' ↦ Ok label s → I s → I s'))
    (henv : ∀ event s, Env event → I s → I (env event s)) {s : σ} (hs : I s)
    (xs : List (PoolAction ι κ))
    (hok : ∀ pre a, pre ++ [a] <+: xs → (run (step body env) (start s) pre).Respects Ok a)
    (hev : ∀ event, .env event ∈ xs ∨ .crash event ∈ xs → Env event) :
    I (run (step body env) (start s) xs).shared := by
  have hat (code : Coro L σ ε α) (s : σ) : code.At (fun _ _ ↦ True) (fun _ _ ↦ True) s := by
    cases code <;> trivial
  have o : Outline body env Ok Env I (fun _ _ _ ↦ True) (fun _ _ _ ↦ True) :=
    { outlined := fun call ↦ Coro.outlined_of_steps (hbody call)
      spawn := fun call s _ ↦ hat (body call) s
      env := fun event s he hI ↦ ⟨henv event s he hI, fun _ code _ ↦ hat code _⟩ }
  have hspares (p : Pool ι L σ ε α) (a : PoolAction ι κ) :
      p.Spares (fun _ _ _ ↦ True) (fun _ _ _ ↦ True) a := by
    cases a with
    | resume i => exact fun _ _ _ code _ ↦ hat code _
    | _ => trivial
  suffices hall : (run (step body env) (start s) xs).Holds I (fun _ _ _ ↦ True)
      (fun _ _ _ ↦ True) from hall.1
  induction xs using List.reverseRecOn with
  | nil => exact holds_start hs
  | append_singleton xs a ih =>
    have hxs := ih (fun pre b hp ↦ hok pre b (hp.trans (List.prefix_append xs [a])))
      (fun event he ↦ hev event (he.imp (List.mem_append_left _) (List.mem_append_left _)))
    refine (holds_snoc_iff o hxs (hok xs a (List.prefix_refl _)) ?_).mpr (hspares _ a)
    rintro event (rfl | rfl)
    · exact hev event (Or.inl (by simp))
    · exact hev event (Or.inr (by simp))

/-- The rule for results: what every call returns whenever the invariant holds before its
operations, it returns in every run. -/
theorem result_of_run {P : ι → Except ε α → Prop}
    (hbody : ∀ call, (body call).Outlined (fun _ _ ↦ True) (fun _ _ ↦ True) I
      (fun result _ ↦ P call result))
    (hspawn : ∀ call s, (body call).At (fun _ _ ↦ True) (fun result _ ↦ P call result) s)
    (henv : ∀ event s, I s → I (env event s)) {s : σ} (hs : I s) (xs : List (PoolAction ι κ))
    {i : ℕ} {call : ι} {result : Except ε α}
    (h : (run (step body env) (start s) xs).Finished i call result) : P call result := by
  -- the assertions speak of no state, so no step of another task breaks them
  have hat {call : ι} (code : Coro L σ ε α) {s s' : σ}
      (h : code.At (fun _ _ ↦ True) (fun result _ ↦ P call result) s) :
      code.At (fun _ _ ↦ True) (fun result _ ↦ P call result) s' := by
    cases code with
    | done result => exact h
    | op label effect next => trivial
  have o : Outline body env (fun _ _ ↦ True) (fun _ ↦ True) I (fun _ _ _ ↦ True)
      (fun call result _ ↦ P call result) :=
    { outlined := hbody
      spawn := fun call s _ ↦ hspawn call s
      env := fun event s _ hI ↦ ⟨henv event s hI, fun _ code h ↦ hat code h⟩ }
  suffices hall : (run (step body env) (start s) xs).Holds I (fun _ _ _ ↦ True)
      (fun call result _ ↦ P call result) from hall.2 i call _ h
  clear h
  induction xs using List.reverseRecOn with
  | nil => exact holds_start hs
  | append_singleton xs a ih =>
    refine (holds_snoc_iff o ih (respects_true _ a) (fun _ _ ↦ trivial)).mpr ?_
    cases a with
    | resume j => exact fun k _ call code hk ↦ hat code (ih.2 k call code hk)
    | _ => trivial

/-- The exact form: when a condition decides whether one operation keeps the invariant, the
invariant holds in every state of a run exactly when every step of the run respects it. -/
theorem invariant_run_iff
    (hbody : ∀ call, (body call).Steps (fun label s s' ↦ I s → (I s' ↔ Ok label s)))
    (henv : ∀ event s, Env event → I s → I (env event s)) {s : σ} (hs : I s)
    (xs : List (PoolAction ι κ)) (hev : ∀ event, .env event ∈ xs ∨ .crash event ∈ xs → Env event) :
    (∀ pre, pre <+: xs → I (run (step body env) (start s) pre).shared) ↔
      ∀ pre a, pre ++ [a] <+: xs → (run (step body env) (start s) pre).Respects Ok a := by
  let J (p : Pool ι L σ ε α) : Prop := ∀ (i : ℕ) (call : ι) (code : Coro L σ ε α),
    p.tasks[i]? = some ⟨call, some code⟩ → code.Steps (fun label s s' ↦ I s → (I s' ↔ Ok label s))
  have hJ (p : Pool ι L σ ε α) (a : PoolAction ι κ) (h : J p)
      (_ : ∀ event, a = .env event ∨ a = .crash event → Env event) : J (p.step body env a) := by
    intro i call code hi
    rcases getElem?_step hi with ⟨-, -, rfl⟩ | ⟨-, label, effect, next, ht, rfl⟩ | hj
    · exact hbody call
    · exact (h i call _ ht _).2
    · exact h i call code hj
  have hI (p : Pool ι L σ ε α) (a : PoolAction ι κ) (h : J p) (hi : I p.shared)
      (he : ∀ event, a = .env event ∨ a = .crash event → Env event) :
      I (p.step body env a).shared ↔ p.Respects Ok a := by
    cases a with
    | spawn call => exact iff_of_true hi trivial
    | cancel i => exact iff_of_true hi trivial
    | env event => exact iff_of_true (henv event _ (he event (Or.inl rfl)) hi) trivial
    | crash event => exact iff_of_true (henv event _ (he event (Or.inr rfl)) hi) trivial
    | resume i =>
      change I (p.resume i).shared ↔ _
      by_cases hb : ∃ call label, p.Before i call label
      · obtain ⟨call, label, effect, next, ht⟩ := hb
        rw [shared_resume ht, (h i call _ ht p.shared).1 hi]
        constructor
        · rintro hok call' label' ⟨effect', next', ht'⟩
          rw [ht] at ht'
          cases ht'
          exact hok
        · intro hr
          exact hr call label ⟨effect, next, ht⟩
      · rw [resume_of_not_before hb]
        exact iff_of_true hi (fun call label hbefore ↦ absurd ⟨call, label, hbefore⟩ hb)
  apply run_invariant_iff hJ hI xs
  · rintro a ha event (rfl | rfl)
    · exact hev event (Or.inl ha)
    · exact hev event (Or.inr ha)
  · intro i call code hi
    cases hi
  · exact hs

end Pool
end Joker.Base
