import Joker.Ledger.Store

/-!
# Concurrent appends

Library `Ledger`. Any number of `append` calls interleaved on the one connection. Rows only
accumulate, and every acknowledged event is durable, as long as no call rolls back while an
insert of another one waits for its commit: the transaction belongs to the connection, so a
rollback takes the uncommitted rows of all calls with it.
-/

namespace Joker.Ledger

open Joker.Base

/-- A call of `append`: the event and what the driver does to it. -/
abbrev AppendCall := LedgerEvent × AppendFaults

/-- A pool of appends on one connection. -/
abbrev AppendPool := Pool AppendCall StoreOp Conn LedgerError Bool

/-- The coroutine of a call. -/
def appendBody (call : AppendCall) : StoreM LedgerError Bool := append call.1 call.2

/-- Nothing but the appends uses the connection. -/
def noEnv (event : Empty) (_ : Conn) : Conn := nomatch event

/-- Appends on a connection, in any order of steps and with any cancellations. -/
def runAppends (c : Conn) (xs : List (PoolAction AppendCall Empty)) : AppendPool :=
  run (Pool.step appendBody noEnv) (Pool.start c) xs

/-- The call at a position has inserted its row and is about to commit it. -/
def AppendPool.Inserted (p : AppendPool) (i : ℕ) (e : LedgerEvent) : Prop :=
  ∃ faults, p.Before i (e, faults) .commit

/-- No event is lost: what returned true is committed, keys are unique, and the row of every
call between its insert and its commit is in place. -/
def NoLoss (p : AppendPool) : Prop :=
  (∀ i e faults, p.Finished i (e, faults) (.ok true) → e ∈ p.shared.durable) ∧
    (p.shared.rows.map (fun e ↦ e.idempotencyKey)).Nodup ∧
    ∀ i e, p.Inserted i e → e ∈ p.shared.rows

/-- A rollback is harmless when no other call is between its insert and its commit, unless that
row is committed already. -/
def HarmlessRollback (p : AppendPool) : PoolAction AppendCall Empty → Prop
  | .resume i => (∃ call, p.Before i call .rollback) →
    ∀ j, j ≠ i → ∀ e, p.Inserted j e → e ∈ p.shared.durable
  | _ => True

/-- The committed rows come first, and no two rows share a key. -/
def Conn.WellFormed (c : Conn) : Prop :=
  c.durable <+: c.rows ∧ (c.rows.map (fun e ↦ e.idempotencyKey)).Nodup

/-- Rows and committed rows only accumulate. -/
def Conn.Grows (c c' : Conn) : Prop :=
  (∀ e ∈ c.rows, e ∈ c'.rows) ∧ ∀ e ∈ c.durable, e ∈ c'.durable

private theorem grows_refl (c : Conn) : c.Grows c := ⟨fun _ h ↦ h, fun _ h ↦ h⟩

/-! ### The operations -/

/-- An insert appends a row under a new key, or changes nothing. -/
theorem grows_insert {c : Conn} (h : c.WellFormed) (e : LedgerEvent) (fault : Option String) :
    (c.insert e fault).1.WellFormed ∧ c.Grows (c.insert e fault).1 := by
  unfold Conn.insert
  cases fault with
  | some text => exact ⟨h, grows_refl c⟩
  | none =>
    by_cases hv : c.violates e = true
    · simp only [hv, if_true]
      exact ⟨h, grows_refl c⟩
    · simp only [hv, Bool.false_eq_true, if_false]
      refine ⟨⟨h.1.trans (List.prefix_append _ _), ?_⟩,
        fun r hr ↦ List.mem_append_left _ hr, fun _ hr ↦ hr⟩
      rw [List.map_append, List.nodup_append]
      refine ⟨h.2, List.nodup_singleton _, ?_⟩
      intro k hk k' hk' he
      obtain ⟨row, hr, rfl⟩ := List.mem_map.mp hk
      rw [List.map_singleton, List.mem_singleton] at hk'
      apply hv
      unfold Conn.violates
      rw [List.any_eq_true]
      exact ⟨row, hr, by simp [he, hk']⟩

/-- An insert without exception has put its row in the table. -/
theorem mem_of_insert {c c' : Conn} {e : LedgerEvent} {fault : Option String}
    (h : c.insert e fault = (c', .ok ())) : e ∈ c'.rows := by
  unfold Conn.insert at h
  split at h
  · cases h
  · split at h
    · cases h
    · cases h
      simp

/-- A commit makes every row durable, or changes nothing. -/
theorem grows_commit {c : Conn} (h : c.WellFormed) (fault : Option String) :
    (c.commit fault).1.WellFormed ∧ c.Grows (c.commit fault).1 := by
  unfold Conn.commit
  cases fault with
  | some text => exact ⟨h, grows_refl c⟩
  | none => exact ⟨⟨List.prefix_refl _, h.2⟩, fun _ hr ↦ hr, fun r hr ↦ h.1.subset hr⟩

/-- A commit without exception has made every row durable. -/
theorem durable_of_commit {c c' : Conn} {fault : Option String}
    (h : c.commit fault = (c', .ok ())) : c'.durable = c.rows := by
  unfold Conn.commit at h
  split at h
  · cases h
  · cases h
    rfl

/-- A rollback leaves the committed rows. -/
theorem wellFormed_rollback {c : Conn} (h : c.WellFormed) : c.rollback.WellFormed :=
  ⟨List.prefix_refl _, (h.1.sublist.map _).nodup h.2⟩

/-- What the operation of a label does: a rollback rolls back, every other one lets rows
accumulate only. -/
def StoreStep (op : StoreOp) (c c' : Conn) : Prop :=
  (op = .rollback → c' = c.rollback) ∧
    (op ≠ .rollback → c.WellFormed → c'.WellFormed ∧ c.Grows c')

private theorem storeStep_read {op : StoreOp} (h : op ≠ .rollback) (c : Conn) : StoreStep op c c :=
  ⟨fun he ↦ absurd he h, fun _ hc ↦ ⟨hc, grows_refl c⟩⟩

private theorem storeSteps_append (e : LedgerEvent) (faults : AppendFaults) :
    (append e faults).Steps StoreStep := by
  apply steps_append
  · intro op hop c
    apply storeStep_read
    rintro rfl
    exact absurd hop (by decide)
  · exact fun c ↦ ⟨fun he ↦ (by cases he), fun _ h ↦ grows_insert h e faults.insert⟩
  · exact fun c ↦ ⟨fun he ↦ (by cases he), fun _ h ↦ grows_commit h faults.commit⟩
  · exact fun c ↦ ⟨fun _ ↦ rfl, fun h ↦ absurd rfl h⟩

/-! ### The outline of one call -/

-- Before its commit the call's row is in the table.
private def AppendPre (e : LedgerEvent) (op : StoreOp) (c : Conn) : Prop :=
  op = .commit → e ∈ c.rows

-- A call that returns true has its event committed.
private def AppendPost {ε : Type} (e : LedgerEvent) (result : Except ε Bool) (c : Conn) : Prop :=
  result = .ok true → e ∈ c.durable

private theorem wellFormed_of_step {op : StoreOp} {c c' : Conn} (h : StoreStep op c c')
    (hc : c.WellFormed) : c'.WellFormed := by
  by_cases hop : op = .rollback
  · rw [h.1 hop]
    exact wellFormed_rollback hc
  · exact (h.2 hop hc).1

private theorem outlined_lookup (e : LedgerEvent) (key : String) :
    (getByIdempotencyKey key).Outlined (fun _ _ ↦ True) (AppendPre e) Conn.WellFormed
      (fun _ _ ↦ True) := by
  apply Coro.outlined_bind (Q := fun _ _ ↦ True)
  · exact Coro.outlined_atomic (fun c _ hc _ ↦ ⟨hc, trivial⟩)
  · intro row
    exact Coro.outlined_atomic (fun c _ hc _ ↦ ⟨hc, trivial⟩)
  · exact fun row c _ _ he ↦ nomatch he
  · exact fun _ _ _ ↦ trivial

private theorem outlined_recoverAppend (e : LedgerEvent) (err : SqlError) :
    (recoverAppend e err).Outlined (fun _ _ ↦ True) (AppendPre e) Conn.WellFormed
      (AppendPost e) := by
  apply Coro.outlined_bind (Q := fun _ _ ↦ True)
  · exact Coro.outlined_atomic (fun c _ hc _ ↦ ⟨wellFormed_rollback hc, trivial⟩)
  · intro _
    cases err with
    | integrity =>
      apply Coro.outlined_bind (outlined_lookup e _)
      · intro existing
        cases existing with
        | none => trivial
        | some row =>
          simp only
          split <;> trivial
      · intro existing c _ _
        cases existing with
        | none => exact fun h ↦ nomatch h
        | some row =>
          simp only
          split <;> exact fun h ↦ nomatch h
      · exact fun _ _ _ h ↦ nomatch h
    | other text => trivial
  · intro _ c _ _
    cases err with
    | integrity => exact fun h ↦ nomatch h
    | other text => exact fun h ↦ nomatch h
  · exact fun _ _ _ h ↦ nomatch h

private theorem outlined_insertAndCommit (e : LedgerEvent) (faults : AppendFaults) :
    (insertAndCommit e faults).Outlined (fun _ _ ↦ True) (AppendPre e) Conn.WellFormed
      (AppendPost e) := by
  apply Coro.outlined_bind (Q := fun result c ↦ result = .ok () → e ∈ c.rows)
  · refine Coro.outlined_atomic (fun c _ hc _ ↦ ⟨(grows_insert hc e faults.insert).1, ?_⟩)
    exact fun h ↦ mem_of_insert (Prod.ext rfl h)
  · intro _
    apply Coro.outlined_bind (Q := fun result c ↦ result = .ok () → e ∈ c.durable)
    · refine Coro.outlined_atomic (fun c _ hc hpre ↦
        ⟨(grows_commit hc faults.commit).1, fun h ↦ ?_⟩)
      rw [durable_of_commit (Prod.ext rfl h)]
      exact hpre rfl
    · intro _
      trivial
    · exact fun _ c _ h _ ↦ h rfl
    · exact fun _ _ _ h ↦ nomatch h
  · exact fun _ c _ h _ ↦ h rfl
  · exact fun _ _ _ h ↦ nomatch h

private theorem outlined_append (e : LedgerEvent) (faults : AppendFaults) :
    (append e faults).Outlined (fun _ _ ↦ True) (AppendPre e) Conn.WellFormed (AppendPost e) := by
  apply Coro.outlined_bind (outlined_lookup e _)
  · intro existing
    cases existing with
    | some row =>
      simp only
      split <;> trivial
    | none =>
      apply Coro.outlined_handle (outlined_insertAndCommit e faults) (outlined_recoverAppend e)
      · exact fun _ _ h he ↦ h (by cases he; rfl)
      · exact fun _ _ _ _ he ↦ nomatch he
  · intro existing c _ _
    cases existing with
    | some row =>
      simp only
      split <;> exact fun h ↦ nomatch h
    | none => exact fun h ↦ nomatch h
  · exact fun _ _ _ h ↦ nomatch h

private theorem outline_appends :
    Pool.Outline appendBody noEnv (fun _ _ ↦ True) (fun _ ↦ True) Conn.WellFormed
      (fun call ↦ AppendPre call.1) (fun call ↦ AppendPost call.1) where
  outlined call := outlined_append call.1 call.2
  spawn _ _ _ := fun h ↦ nomatch h
  env event := nomatch event

/-! ### Runs -/

private theorem wellFormed_runAppends {c : Conn} (hc : c.WellFormed)
    (xs : List (PoolAction AppendCall Empty)) : (runAppends c xs).shared.WellFormed := by
  have hbody (call : AppendCall) :
      (appendBody call).Steps (fun _ c c' ↦ True → c.WellFormed → c'.WellFormed) := by
    apply Coro.steps_mono _ (storeSteps_append call.1 call.2)
    exact fun _ _ _ h _ ↦ wellFormed_of_step h
  have henv (event : Empty) (c : Conn) : True → c.WellFormed → (noEnv event c).WellFormed :=
    nomatch event
  exact Pool.invariant_run hbody henv hc xs (fun pre a _ ↦ Pool.respects_true _ a)
    (fun event _ ↦ nomatch event)

private theorem holds_iff_noLoss {p : AppendPool} (hp : p.shared.WellFormed) :
    p.Holds Conn.WellFormed (fun call ↦ AppendPre call.1) (fun call ↦ AppendPost call.1) ↔
      NoLoss p := by
  constructor
  · intro h
    refine ⟨?_, hp.2, ?_⟩
    · intro i e faults hf
      exact h.2 i (e, faults) _ hf rfl
    · rintro i e ⟨faults, effect, next, ht⟩
      exact h.2 i (e, faults) _ ht rfl
  · intro h
    refine ⟨hp, ?_⟩
    intro i call code ht
    cases code with
    | done result =>
      rintro rfl
      exact h.1 i call.1 call.2 ht
    | op label effect next =>
      rintro rfl
      exact h.2.2 i call.1 ⟨call.2, effect, next, ht⟩

private theorem spares_iff_harmless {c : Conn} (hc : c.WellFormed)
    {xs : List (PoolAction AppendCall Empty)} (a : PoolAction AppendCall Empty)
    (h : NoLoss (runAppends c xs)) :
    (runAppends c xs).Spares (fun call ↦ AppendPre call.1) (fun call ↦ AppendPost call.1) a ↔
      HarmlessRollback (runAppends c xs) a := by
  cases a with
  | resume i =>
    generalize hp : runAppends c xs = p at h ⊢
    have hwf : p.shared.WellFormed := hp ▸ wellFormed_runAppends hc xs
    by_cases hb : ∃ call label, p.Before i call label
    · obtain ⟨call, label, effect, next, ht⟩ := hb
      have hstep : StoreStep label p.shared (effect p.shared) := by
        rw [← hp] at ht
        have hbody (call : AppendCall) : (appendBody call).Steps StoreStep :=
          storeSteps_append call.1 call.2
        exact (Pool.steps_of_run hbody c xs ht p.shared).1
      have hsh := Pool.shared_resume ht
      by_cases hop : label = .rollback
      · -- The rollback leaves the committed rows only.
        subst hop
        have hback : (p.resume i).shared = p.shared.rollback := hsh.trans (hstep.1 rfl)
        constructor
        · intro hsp _ j hj e hin
          obtain ⟨faults, effect', next', ht'⟩ := hin
          have := hsp j hj (e, faults) _ ht' rfl
          rw [hback] at this
          exact this
        · intro hh j hj call' code ht'
          rw [hback]
          cases code with
          | done result =>
            rintro rfl
            exact h.1 j call'.1 call'.2 ht'
          | op label' effect' next' =>
            rintro rfl
            exact hh ⟨call, effect, next, ht⟩ j hj call'.1 ⟨call'.2, effect', next', ht'⟩
      · have hgrow := (hstep.2 hop hwf).2
        rw [← hsh] at hgrow
        refine iff_of_true ?_ ?_
        · intro j hj call' code ht'
          cases code with
          | done result =>
            rintro rfl
            exact hgrow.2 _ (h.1 j call'.1 call'.2 ht')
          | op label' effect' next' =>
            rintro rfl
            exact hgrow.1 _ (h.2.2 j call'.1 ⟨call'.2, effect', next', ht'⟩)
        · rintro ⟨call', effect', next', ht'⟩
          rw [ht] at ht'
          cases ht'
          exact absurd rfl hop
    · have hsame := Pool.resume_of_not_before hb
      refine iff_of_true ?_ ?_
      · intro j hj call' code ht'
        rw [hsame]
        exact ((holds_iff_noLoss hwf).mpr h).2 j call' code ht'
      · rintro ⟨call, hcall⟩
        exact absurd ⟨call, _, hcall⟩ hb
  | _ => exact Iff.rfl

/-- Exactly when appends are safe: starting from a committed table with unique keys, no event is
lost in any state of a run of concurrent appends exactly when every rollback of the run is
harmless. -/
theorem noLoss_prefixes_iff (c : Conn) (hc : c.Settled)
    (hkeys : (c.rows.map (fun e ↦ e.idempotencyKey)).Nodup)
    (xs : List (PoolAction AppendCall Empty)) :
    (∀ pre, pre <+: xs → NoLoss (runAppends c pre)) ↔
      ∀ pre a, pre ++ [a] <+: xs → HarmlessRollback (runAppends c pre) a := by
  have hwf : c.WellFormed := ⟨hc ▸ List.prefix_refl _, hkeys⟩
  have hholds (pre : List (PoolAction AppendCall Empty)) :=
    holds_iff_noLoss (wellFormed_runAppends hwf pre)
  have hsnoc (pre : List (PoolAction AppendCall Empty)) (a : PoolAction AppendCall Empty)
      (h : NoLoss (runAppends c pre)) :
      NoLoss (runAppends c (pre ++ [a])) ↔ HarmlessRollback (runAppends c pre) a := by
    rw [← hholds, ← spares_iff_harmless hwf a h]
    exact Pool.holds_snoc_iff outline_appends ((hholds pre).mpr h) (Pool.respects_true _ a)
      (fun _ _ ↦ trivial)
  constructor
  · intro h pre a hp
    exact (hsnoc pre a (h pre ((List.prefix_append pre [a]).trans hp))).mp (h _ hp)
  · intro h pre
    induction pre using List.reverseRecOn with
    | nil => exact fun _ ↦ (hholds []).mp (Pool.holds_start hwf)
    | append_singleton pre a ih =>
      intro hp
      exact (hsnoc pre a (ih ((List.prefix_append pre [a]).trans hp))).mpr (h pre a hp)

/-- One fill. -/
def firstFill : LedgerEvent :=
  ⟨EventFields.sample .finalFill "k1" .buy 1 (some 1), by decide +kernel⟩

/-- Another fill, under its own key. -/
def otherFill : LedgerEvent :=
  ⟨EventFields.sample .finalFill "k2" .buy 1 (some 1), by decide +kernel⟩

/-- The first fill reported again: the same key, a new event id. -/
def firstFillAgain : LedgerEvent :=
  ⟨{ EventFields.sample .finalFill "k1" .buy 1 (some 1) with ledgerEventId := "k3" },
    by decide +kernel⟩

/-- A step that is no rollback is harmless. -/
theorem harmless_of_label {p : AppendPool} {i : ℕ} (h : p.label? i ≠ some .rollback) :
    HarmlessRollback p (.resume i) :=
  fun hbefore ↦ absurd (Pool.label?_eq_some_iff.mpr hbefore) h

/-- A rollback is harmless while no call is about to commit. -/
theorem harmless_of_noCommit {p : AppendPool} {i : ℕ} (h : ∀ j, p.label? j ≠ some .commit) :
    HarmlessRollback p (.resume i) := by
  rintro - j - e ⟨faults, hbefore⟩
  exact absurd (Pool.label?_eq_some_iff.mpr ⟨_, hbefore⟩) (h j)

/-- Two reports of one fill and another fill: all three look their keys up and the first fill is
committed; its second report fails to insert and rolls back, then the other fill is committed. -/
def lateReport : List (PoolAction AppendCall Empty) :=
  [.spawn (firstFill, .none), .spawn (firstFillAgain, .none), .spawn (otherFill, .none),
    .resume 0, .resume 0, .resume 1, .resume 1, .resume 2, .resume 2, .resume 0, .resume 0,
    .resume 1, .resume 1, .resume 2, .resume 2]

/-- A second report that rolls back after the commit of the first loses nothing. -/
theorem noLoss_prefixes_lateReport :
    (runAppends Conn.empty lateReport).shared.durable = [firstFill, otherFill] ∧
      ∀ pre, pre <+: lateReport → NoLoss (runAppends Conn.empty pre) := by
  refine ⟨rfl, (noLoss_prefixes_iff Conn.empty rfl List.nodup_nil _).mpr ?_⟩
  apply ok_of_stepsMeet
  refine ⟨trivial, trivial, trivial, ?_, ?_, ?_, ?_, ?_, ?_, ?_, ?_, ?_, ?_, ?_, ?_, trivial⟩
  -- The second report rolls back when the first one is committed and the other is not inserted.
  case refine_10 =>
    apply harmless_of_noCommit
    rintro (_ | _ | _ | j) h <;> cases h
  all_goals
    apply harmless_of_label
    intro h
    cases h

/-- Two reports of one fill look its key up, the first one inserts, the second one fails to and
rolls back, and then the first one commits nothing and returns true. -/
def racingReports : List (PoolAction AppendCall Empty) :=
  [.spawn (firstFill, .none), .spawn (firstFillAgain, .none), .resume 0, .resume 0, .resume 1,
    .resume 1, .resume 0, .resume 1, .resume 1, .resume 0]

/-- Concurrent appends can lose an acknowledged event. -/
theorem not_noLoss_of_racing_reports :
    ¬ ∀ (c : Conn) (xs : List (PoolAction AppendCall Empty)), c.Settled →
      (c.rows.map (fun e ↦ e.idempotencyKey)).Nodup → NoLoss (runAppends c xs) := by
  intro h
  obtain ⟨hack, -, -⟩ := h Conn.empty racingReports rfl List.nodup_nil
  have hin := hack 0 firstFill .none rfl
  have hempty : (runAppends Conn.empty racingReports).shared.durable = [] := rfl
  rw [hempty] at hin
  cases hin

end Joker.Ledger
