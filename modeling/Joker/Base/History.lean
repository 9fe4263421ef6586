import Joker.Base.Coroutine

/-!
# Histories of coroutines

Library `Base`. The history of a coroutine lists its operations with the states that they found,
whoever changed the state in between. `Along` is the rule for what holds of every history: an
assertion after each operation, and one when the coroutine ends. Parts that take few operations of
certain kinds and return a value are passed over at once.
-/

namespace Joker.Base.Coro

variable {L L' σ ε α β : Type}

/-- The operations of a coroutine that find some states, and what is left of it then. -/
def follow : List σ → Coro L σ ε α → List (L × σ) × Coro L σ ε α
  | [], c => ([], c)
  | _ :: _, done result => ([], done result)
  | s :: rest, op label _ next =>
    ((label, s) :: ((next s).follow rest).1, ((next s).follow rest).2)

/-- Before any operation a coroutine is as it was. -/
@[simp] theorem follow_nil (c : Coro L σ ε α) : c.follow [] = ([], c) := rfl

/-- Following goes on with what is left. -/
theorem follow_append (c : Coro L σ ε α) (xs ys : List σ) :
    c.follow (xs ++ ys) =
      ((c.follow xs).1 ++ ((c.follow xs).2.follow ys).1, ((c.follow xs).2.follow ys).2) := by
  induction xs generalizing c with
  | nil => simp
  | cons s rest ih =>
    cases c with
    | done result => cases ys <;> rfl
    | op label effect next =>
      change (_ :: ((next s).follow (rest ++ ys)).1, ((next s).follow (rest ++ ys)).2) = _
      rw [ih]
      rfl

/-- A coroutine ends, or takes an operation for every state. -/
theorem follow_ends (c : Coro L σ ε α) (xs : List σ) :
    (∃ result, (c.follow xs).2 = done result) ∨ (c.follow xs).1.length = xs.length := by
  induction xs generalizing c with
  | nil =>
    rw [follow_nil]
    exact Or.inr rfl
  | cons s rest ih =>
    cases c with
    | done result => exact Or.inl ⟨result, rfl⟩
    | op label effect next =>
      refine (ih (next s)).imp_right (fun hlength ↦ ?_)
      change ((next s).follow rest).1.length + 1 = rest.length + 1
      rw [hlength]

/-- A sequence on a part is a sequence of its parts. -/
theorem zoom_bind {τ : Type} {name : L → L'} {get : τ → σ} {set : σ → τ → τ} (c : Coro L σ ε α)
    (k : α → Coro L σ ε β) :
    (c >>= k).zoom name get set = c.zoom name get set >>= fun a ↦ (k a).zoom name get set := by
  change (c.bind k).zoom name get set = (c.zoom name get set).bind _
  induction c with
  | done result => cases result <;> rfl
  | op label effect next ih =>
    change op _ _ _ = op _ _ _
    congr 1
    funext t
    exact ih (get t)

/-- Labels that were put on are taken off again. -/
theorem zoom_relabel {name : L → L'} {name' : L' → L} (h : ∀ label, name' (name label) = label)
    (c : Coro L σ ε α) :
    (c.zoom name id (fun s _ ↦ s)).zoom name' id (fun s _ ↦ s) = c := by
  induction c with
  | done result => rfl
  | op label effect next ih =>
    change op _ _ _ = op _ _ _
    congr 1
    · exact h label
    · funext s
      exact ih s

/-! ### Assertions about histories -/

/-- After every operation the history meets `Now`, and with the result it meets `Q`. -/
def Along (Now : List (L × σ) → Prop) (Q : List (L × σ) → Except ε α → Prop) :
    List (L × σ) → Coro L σ ε α → Prop
  | past, done result => Q past result
  | past, op label _ next => ∀ s,
    Now (past ++ [(label, s)]) ∧ (next s).Along Now Q (past ++ [(label, s)])

variable {Now : List (L × σ) → Prop} {past : List (L × σ)}

/-- Histories meet the assertions. -/
theorem Along.follow {Q : List (L × σ) → Except ε α → Prop} {c : Coro L σ ε α}
    (h : c.Along Now Q past) (hnow : Now past) (xs : List σ) :
    Now (past ++ (c.follow xs).1) ∧ (c.follow xs).2.Along Now Q (past ++ (c.follow xs).1) := by
  induction xs generalizing c past with
  | nil => simpa using ⟨hnow, h⟩
  | cons s rest ih =>
    cases c with
    | done result => simpa [Coro.follow] using ⟨hnow, h⟩
    | op label effect next =>
      have hrest := ih (h s).2 (h s).1
      simpa [Coro.follow] using hrest

/-! ### Parts that are passed over -/

/-- At most some number of operations, all of a kind, and then a value. -/
def Quiet (p : L → Prop) : ℕ → Coro L σ ε α → Prop
  | _, done result => ∃ a, result = .ok a
  | 0, op _ _ _ => False
  | n + 1, op label _ next => p label ∧ ∀ s, (next s).Quiet p n

variable {p : L → Prop} {n m : ℕ}

/-- `pure` takes no operation. -/
theorem quiet_pure (a : α) : (pure a : Coro L σ ε α).Quiet p n := by
  cases n <;> exact ⟨a, rfl⟩

/-- An allowed operation that raises nothing is quiet. -/
theorem quiet_atomic {label : L} (hlabel : p label) {f : σ → σ} {g : σ → α} :
    (atomic label (fun s ↦ (f s, .ok (g s))) : Coro L σ ε α).Quiet p (n + 1) := by
  refine ⟨hlabel, fun s ↦ ?_⟩
  exact quiet_pure (g s)

private theorem exists_value {result : Except ε α}
    (h : (done result : Coro L σ ε α).Quiet p n) : ∃ a, result = .ok a := by
  cases n <;> exact h

/-- A quiet part takes no more operations than it may. -/
theorem quiet_mono {c : Coro L σ ε α} (hc : c.Quiet p n) (hle : n ≤ m) : c.Quiet p m := by
  induction c generalizing n m with
  | done result => cases n <;> cases m <;> exact hc
  | op label effect next ih =>
    obtain ⟨k, rfl⟩ := Nat.exists_eq_add_of_le hle
    cases n with
    | zero => exact absurd hc id
    | succ n =>
      rw [Nat.add_right_comm]
      exact ⟨hc.1, fun s ↦ ih s (hc.2 s) (Nat.le_add_right n k)⟩

/-- A sequence is quiet for as many operations as its parts together. -/
theorem quiet_bind {c : Coro L σ ε α} {k : α → Coro L σ ε β} (hc : c.Quiet p n)
    (hk : ∀ a, (k a).Quiet p m) : (c >>= k).Quiet p (n + m) := by
  change (c.bind k).Quiet p (n + m)
  induction c generalizing n with
  | done result =>
    obtain ⟨a, rfl⟩ := exists_value hc
    exact quiet_mono (hk a) (Nat.le_add_left m n)
  | op label effect next ih =>
    cases n with
    | zero => exact absurd hc id
    | succ n =>
      rw [Nat.add_right_comm]
      exact ⟨hc.1, fun s ↦ ih s (hc.2 s)⟩

/-- Relabelled operations are of the kind that their labels are. -/
theorem quiet_zoom {p : L' → Prop} {name : L → L'} {c : Coro L σ ε α}
    (hc : c.Quiet (fun label ↦ p (name label)) n) :
    (c.zoom name id (fun s _ ↦ s)).Quiet p n := by
  induction c generalizing n with
  | done result => cases n <;> exact hc
  | op label effect next ih =>
    cases n with
    | zero => exact absurd hc id
    | succ n => exact ⟨hc.1, fun s ↦ ih s (hc.2 s)⟩

/-- A quiet part is passed over, with what it adds to the history. -/
theorem along_bind_of_quiet {Q : List (L × σ) → Except ε β → Prop} {c : Coro L σ ε α}
    {k : α → Coro L σ ε β} (hc : c.Quiet p n)
    (h : ∀ ops : List (L × σ), ops.length ≤ n → (∀ o ∈ ops, p o.1) →
      Now (past ++ ops) ∧ ∀ a, (k a).Along Now Q (past ++ ops)) :
    (c >>= k).Along Now Q past := by
  change (c.bind k).Along Now Q past
  induction c generalizing past n with
  | done result =>
    obtain ⟨a, rfl⟩ := exists_value hc
    have hpast := (h [] (Nat.zero_le n) (fun _ ho ↦ nomatch ho)).2 a
    rwa [List.append_nil] at hpast
  | op label effect next ih =>
    cases n with
    | zero => exact absurd hc id
    | succ n =>
      intro s
      have hone : ∀ ops : List (L × σ), ops.length ≤ n → (∀ o ∈ ops, p o.1) →
          Now (past ++ [(label, s)] ++ ops) ∧
            ∀ a, (k a).Along Now Q (past ++ [(label, s)] ++ ops) := by
        intro ops hlength hops
        rw [List.append_assoc]
        apply h
        · exact Nat.succ_le_succ hlength
        · intro o ho
          rcases List.mem_cons.mp ho with rfl | ho
          · exact hc.1
          · exact hops o ho
      refine ⟨?_, ih s (hc.2 s) hone⟩
      have hfirst := (hone [] (Nat.zero_le n) (fun _ ho ↦ nomatch ho)).1
      rwa [List.append_nil] at hfirst

end Joker.Base.Coro
