import Mathlib.Data.List.Sort
import Mathlib.Data.String.Basic
import Joker.Base.Coroutine
import Joker.Ledger.Schemas

/-!
# SQLite ledger store

Library `Ledger`. `joker/ledger/store.py`: one connection that every call shares, `append` with
its lookup, insert, commit and rollback as separate awaited operations, and the ordered
queries. A payload column reads back as the event that was written. Errors of the driver other
than a broken constraint are inputs of a call.
-/

namespace Joker.Ledger

open Joker.Base

/-- The table as the connection sees it, and its last committed content.
Source `joker/ledger/store.py:36–191`. -/
structure Conn where
  rows : List LedgerEvent
  durable : List LedgerEvent

/-- The awaited database operations. -/
inductive StoreOp where
  | select
  | fetch
  | insert
  | commit
  | rollback
  deriving DecidableEq, Repr

/-- `aiosqlite.IntegrityError`, or any other exception with its text. -/
inductive SqlError where
  | integrity
  | other (text : String)
  deriving DecidableEq, Repr

/-- `IdempotencyConflict` in its two places, and `LedgerError`, with what their messages
print. -/
inductive LedgerError where
  | keyInUse (idempotencyKey : String) (ledgerEventId : Uuid)
  | uniqueConstraint (idempotencyKey : String)
  | appendFailed (text : String)
  deriving DecidableEq, Repr

/-- Exceptions the driver raises during one `append`, by their texts. -/
structure AppendFaults where
  insert : Option String
  commit : Option String
  deriving DecidableEq

/-- A call that the driver serves without errors. -/
def AppendFaults.none : AppendFaults := ⟨Option.none, Option.none⟩

namespace Conn

/-- An empty table. -/
def empty : Conn := ⟨[], []⟩

/-- `SELECT payload … WHERE idempotency_key = ?`. -/
def select (key : String) (c : Conn) : Option LedgerEvent :=
  c.rows.find? (fun row ↦ row.idempotencyKey = key)

/-- A row breaks the primary key or the unique constraint. -/
def violates (e : LedgerEvent) (c : Conn) : Bool :=
  c.rows.any (fun row ↦
    row.ledgerEventId = e.ledgerEventId || row.idempotencyKey = e.idempotencyKey)

/-- `INSERT`, uncommitted; `fault` is an exception of the driver. -/
def insert (e : LedgerEvent) (fault : Option String) (c : Conn) : Conn × Except SqlError Unit :=
  match fault with
  | some text => (c, .error (.other text))
  | none =>
    if c.violates e then (c, .error .integrity)
    else (⟨c.rows ++ [e], c.durable⟩, .ok ())

/-- `commit()`; a failing commit leaves the transaction open. -/
def commit (fault : Option String) (c : Conn) : Conn × Except SqlError Unit :=
  match fault with
  | some text => (c, .error (.other text))
  | none => (⟨c.rows, c.rows⟩, .ok ())

/-- `rollback()`: all uncommitted rows of the connection are gone. -/
def rollback (c : Conn) : Conn := ⟨c.durable, c.durable⟩

end Conn

/-- A coroutine of the store. -/
abbrev StoreM (ε α : Type) := Coro StoreOp Conn ε α

/-- `_get_by_idempotency_key`. Source `joker/ledger/store.py:116–125`. -/
def getByIdempotencyKey (key : String) : StoreM LedgerError (Option LedgerEvent) := do
  let row ← Coro.atomic .select (fun c ↦ (c, .ok (c.select key)))
  Coro.atomic .fetch (fun c ↦ (c, .ok row))

/-- `_events_equivalent`: the business fields, without ids and times.
Source `joker/ledger/store.py:128–150`. -/
def eventsEquivalent (left right : LedgerEvent) : Bool :=
  left.brokerAccountId = right.brokerAccountId &&
    left.clientOrderId = right.clientOrderId &&
    left.brokerOrderId = right.brokerOrderId &&
    left.contractId = right.contractId &&
    left.side = right.side &&
    left.quantity = right.quantity &&
    left.price = right.price &&
    left.sourceEventId = right.sourceEventId &&
    left.idempotencyKey = right.idempotencyKey &&
    left.eventType = right.eventType &&
    left.fees = right.fees &&
    left.metadata.sameItems right.metadata &&
    left.sessionId = right.sessionId &&
    left.positionId = right.positionId

/-- The body of the `try`: insert, then commit. -/
def insertAndCommit (e : LedgerEvent) (faults : AppendFaults) : StoreM SqlError Bool := do
  Coro.atomic .insert (fun c ↦ c.insert e faults.insert)
  Coro.atomic .commit (fun c ↦ c.commit faults.commit)
  pure true

/-- The two `except` branches: roll the connection back, then report. -/
def recoverAppend (e : LedgerEvent) (err : SqlError) : StoreM LedgerError Bool := do
  Coro.atomic .rollback (fun c ↦ (c.rollback, .ok ()))
  match err with
  | .integrity =>
    let existing ← getByIdempotencyKey e.idempotencyKey
    match existing with
    | some row =>
      if eventsEquivalent row e then pure false
      else Coro.raise (.uniqueConstraint e.idempotencyKey)
    | none => Coro.raise (.uniqueConstraint e.idempotencyKey)
  | .other text => Coro.raise (.appendFailed text)

/-- `append`: true when the event was inserted, false when its key already holds an equivalent
event. Source `joker/ledger/store.py:64–114`. -/
def append (e : LedgerEvent) (faults : AppendFaults) : StoreM LedgerError Bool := do
  let existing ← getByIdempotencyKey e.idempotencyKey
  match existing with
  | some row =>
    if eventsEquivalent row e then pure false
    else Coro.raise (.keyInUse e.idempotencyKey row.ledgerEventId)
  | none => (insertAndCommit e faults).handle (recoverAppend e)

/-! ### Queries -/

/-- `ORDER BY exchange_timestamp ASC, created_at ASC, ledger_event_id ASC`, on text columns. -/
def sortKey (e : LedgerEvent) : List String :=
  [e.exchangeTimestamp.isoformat, e.createdAt.isoformat, e.ledgerEventId]

/-- One row comes no later than another. -/
def RowLe (a b : LedgerEvent) : Prop := sortKey a ≤ sortKey b

instance : DecidableRel RowLe := fun a b ↦ inferInstanceAs (Decidable (sortKey a ≤ sortKey b))

instance : Std.Total RowLe := ⟨fun a b ↦ le_total (sortKey a) (sortKey b)⟩

instance : IsTrans LedgerEvent RowLe := ⟨fun _ _ _ ↦ le_trans⟩

/-- The rows a query selects, in its order. -/
def Conn.query (p : LedgerEvent → Bool) (c : Conn) : List LedgerEvent :=
  (c.rows.filter p).insertionSort RowLe

/-- `_query` and the five getters over it. Source `joker/ledger/store.py:187–191`. -/
def query (p : LedgerEvent → Bool) : StoreM LedgerError (List LedgerEvent) := do
  let rows ← Coro.atomic .select (fun c ↦ (c, .ok (c.query p)))
  Coro.atomic .fetch (fun c ↦ (c, .ok rows))

/-- `get_by_session`. Source `joker/ledger/store.py:152–157`. -/
def getBySession (sessionId : String) : StoreM LedgerError (List LedgerEvent) :=
  query (fun e ↦ e.sessionId = sessionId)

/-- `get_by_order`. Source `joker/ledger/store.py:159–164`. -/
def getByOrder (clientOrderId : String) : StoreM LedgerError (List LedgerEvent) :=
  query (fun e ↦ e.clientOrderId = clientOrderId)

/-- `get_by_contract`. Source `joker/ledger/store.py:166–171`. -/
def getByContract (contractId : String) : StoreM LedgerError (List LedgerEvent) :=
  query (fun e ↦ e.contractId = contractId)

/-- `all_events`. Source `joker/ledger/store.py:180–185`. -/
def allEvents : StoreM LedgerError (List LedgerEvent) := query (fun _ ↦ true)

/-- A query returns exactly the rows it selects. -/
theorem mem_query {p : LedgerEvent → Bool} {c : Conn} {e : LedgerEvent} :
    e ∈ c.query p ↔ e ∈ c.rows ∧ p e = true := by
  unfold Conn.query
  rw [List.mem_insertionSort, List.mem_filter]

/-- Rows recorded in time order are queried in the order they were recorded. -/
theorem query_of_pairwise {p : LedgerEvent → Bool} {c : Conn} (h : c.rows.Pairwise RowLe) :
    c.query p = c.rows.filter p :=
  List.Pairwise.insertionSort_eq (h.sublist List.filter_sublist)

/-! ### The operations of a call -/

section Steps

variable {R : StoreOp → Conn → Conn → Prop}

/-- A lookup reads. -/
theorem steps_getByIdempotencyKey (hread : ∀ op ∈ [.select, .fetch], ∀ c, R op c c)
    (key : String) : (getByIdempotencyKey key).Steps R := by
  apply Coro.steps_bind
  · exact Coro.steps_atomic (fun c ↦ hread .select (by decide) c)
  · intro row
    exact Coro.steps_atomic (fun c ↦ hread .fetch (by decide) c)

/-- A query reads. -/
theorem steps_query (hread : ∀ op ∈ [.select, .fetch], ∀ c, R op c c)
    (p : LedgerEvent → Bool) : (query p).Steps R := by
  apply Coro.steps_bind
  · exact Coro.steps_atomic (fun c ↦ hread .select (by decide) c)
  · intro rows
    exact Coro.steps_atomic (fun c ↦ hread .fetch (by decide) c)

private theorem steps_recoverAppend (hread : ∀ op ∈ [.select, .fetch], ∀ c, R op c c)
    (hroll : ∀ c, R .rollback c c.rollback) (e : LedgerEvent) (err : SqlError) :
    (recoverAppend e err).Steps R := by
  apply Coro.steps_bind
  · exact Coro.steps_atomic hroll
  · intro _
    cases err with
    | integrity =>
      apply Coro.steps_bind (steps_getByIdempotencyKey hread _)
      intro existing
      cases existing with
      | none => exact Coro.steps_raise _
      | some row =>
        simp only
        split
        · exact Coro.steps_pure false
        · exact Coro.steps_raise _
    | other text => exact Coro.steps_raise _

/-- An `append` reads, inserts its event, commits and rolls back, and nothing else. -/
theorem steps_append {e : LedgerEvent} {faults : AppendFaults}
    (hread : ∀ op ∈ [.select, .fetch], ∀ c, R op c c)
    (hinsert : ∀ c, R .insert c (c.insert e faults.insert).1)
    (hcommit : ∀ c, R .commit c (c.commit faults.commit).1)
    (hroll : ∀ c, R .rollback c c.rollback) : (append e faults).Steps R := by
  apply Coro.steps_bind (steps_getByIdempotencyKey hread _)
  intro existing
  cases existing with
  | some row =>
    simp only
    split
    · exact Coro.steps_pure false
    · exact Coro.steps_raise _
  | none =>
    apply Coro.steps_handle
    · apply Coro.steps_bind (Coro.steps_atomic hinsert)
      intro _
      apply Coro.steps_bind (Coro.steps_atomic hcommit)
      intro _
      exact Coro.steps_pure true
    · exact steps_recoverAppend hread hroll e

end Steps

/-! ### One call alone -/

/-- A settled connection has no uncommitted rows. -/
def Conn.Settled (c : Conn) : Prop := c.rows = c.durable

/-- A connection whose rows are all committed. -/
def Conn.ofRows (rows : List LedgerEvent) : Conn := ⟨rows, rows⟩

/-- A connection on committed rows has nothing uncommitted. -/
theorem Conn.settled_ofRows (rows : List LedgerEvent) : (Conn.ofRows rows).Settled := rfl

/-- A settled connection is known by its rows. -/
theorem Conn.Settled.eq_ofRows {c : Conn} (h : c.Settled) : c = Conn.ofRows c.rows := by
  cases c
  cases h
  rfl

/-- The table after an `append` that nothing interrupts. -/
theorem exec_append {c : Conn} (hc : c.Settled) (e : LedgerEvent) (faults : AppendFaults) :
    (append e faults).exec c =
      match c.select e.idempotencyKey with
      | some row =>
        (c, if eventsEquivalent row e then .ok false
          else .error (.keyInUse e.idempotencyKey row.ledgerEventId))
      | none =>
        match faults.insert with
        | some text => (c, .error (.appendFailed text))
        | none =>
          if c.violates e then (c, .error (.uniqueConstraint e.idempotencyKey))
          else
            match faults.commit with
            | some text => (c, .error (.appendFailed text))
            | none => (⟨c.rows ++ [e], c.rows ++ [e]⟩, .ok true) := by
  have hroll : c.rollback = c := by
    unfold Conn.rollback
    rw [← hc]
    cases c
    cases hc
    rfl
  unfold append getByIdempotencyKey
  cases hs : c.select e.idempotencyKey with
  | some row =>
    simp only [Coro.exec_bind, Coro.exec_atomic, hs]
    split <;> rfl
  | none =>
    simp only [Coro.exec_bind, Coro.exec_atomic, Coro.exec_handle, hs, insertAndCommit,
      recoverAppend, getByIdempotencyKey]
    cases hf : faults.insert with
    | some text =>
      simp only [Conn.insert, hroll, Coro.exec_raise]
    | none =>
      by_cases hv : c.violates e = true
      · simp only [Conn.insert, hv, if_true, Coro.exec_bind, Coro.exec_atomic, hroll, hs,
          Coro.exec_raise]
      · simp only [Conn.insert, hv, Bool.false_eq_true, if_false]
        cases hg : faults.commit with
        | some text =>
          have hback : Conn.rollback ⟨c.rows ++ [e], c.durable⟩ = c := hroll
          simp only [Conn.commit, hback, Coro.exec_raise]
        | none => rfl

/-- An event with a new id and a new key is inserted where the driver raises nothing. -/
theorem exec_append_new {c : Conn} (hc : c.Settled) {e : LedgerEvent}
    (hnew : ∀ row ∈ c.rows,
      row.ledgerEventId ≠ e.ledgerEventId ∧ row.idempotencyKey ≠ e.idempotencyKey) :
    (append e AppendFaults.none).exec c = (.ofRows (c.rows ++ [e]), .ok true) := by
  have hselect : c.select e.idempotencyKey = none := by
    apply List.find?_eq_none.mpr
    intro row hrow he
    exact (hnew row hrow).2 (of_decide_eq_true he)
  have hviolates : ¬ c.violates e = true := by
    unfold Conn.violates
    rw [List.any_eq_true]
    rintro ⟨row, hrow, he⟩
    simp only [Bool.or_eq_true, decide_eq_true_eq] at he
    exact he.elim (hnew row hrow).1 (hnew row hrow).2
  rw [exec_append hc, hselect]
  simp only [AppendFaults.none, if_neg hviolates]
  rfl

/-- An `append` leaves the table as it is, or adds its event, which is new, as the last row. -/
theorem append_cases {c : Conn} (hc : c.Settled) (e : LedgerEvent) (faults : AppendFaults) :
    (((append e faults).exec c).1 = c ∧ ((append e faults).exec c).2 ≠ .ok true) ∨
    ((append e faults).exec c = (.ofRows (c.rows ++ [e]), .ok true) ∧
      ∀ row ∈ c.rows,
        row.ledgerEventId ≠ e.ledgerEventId ∧ row.idempotencyKey ≠ e.idempotencyKey) := by
  rw [exec_append hc]
  cases hs : c.select e.idempotencyKey with
  | some row =>
    left
    refine ⟨rfl, ?_⟩
    simp only
    split <;> simp
  | none =>
    cases faults.insert with
    | some text => exact Or.inl ⟨rfl, nofun⟩
    | none =>
      by_cases hv : c.violates e = true
      · left
        simp [hv]
      · simp only [if_neg hv]
        cases faults.commit with
        | some text => exact Or.inl ⟨rfl, nofun⟩
        | none =>
          right
          refine ⟨rfl, ?_⟩
          intro row hrow
          constructor <;> intro he <;> apply hv <;> unfold Conn.violates <;> rw [List.any_eq_true]
          · exact ⟨row, hrow, by simp [he]⟩
          · exact ⟨row, hrow, by simp [he]⟩

end Joker.Ledger
