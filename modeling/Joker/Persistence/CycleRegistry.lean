import Mathlib.Data.String.Basic
import Joker.Base.Json
import Joker.Base.Upserts

/-!
# Cycle registry

Library `Persistence`. `joker/persistence/cognitive_cycle_registry.py`: one row for each decision or
position cycle of a session, which every `upsert` replaces, and the query for the cycles that are
not finished. A payload column reads back as the `dict` that was written.
-/

namespace Joker.Persistence

open Joker.Base

/-- `CycleStatus`. Source `joker/persistence/cognitive_cycle_registry.py:14`. -/
inductive CycleStatus where
  | pending
  | running
  | completed
  | abandoned
  deriving DecidableEq, Repr

/-- `GraphKind`. Source `joker/persistence/cognitive_cycle_registry.py:15`. -/
inductive GraphKind where
  | decision
  | position
  deriving DecidableEq, Repr

/-- The literal's value. -/
def GraphKind.value : GraphKind → String
  | decision => "decision"
  | position => "position"

/-- `CognitiveCycleRecord`. Source `joker/persistence/cognitive_cycle_registry.py:50–63`. -/
structure CognitiveCycleRecord where
  sessionId : String
  graphKind : GraphKind
  cycleId : String
  triggerEventId : Option String
  snapshotId : Option String
  status : CycleStatus
  checkpointThreadId : String
  lastCompletedNode : Option String
  parentEntryCycleId : Option String
  originalStrategyId : Option String
  originalProposalId : Option String
  payload : Option (Dict String Json)
  updatedAt : Option String

/-- A row of `cognitive_cycle_registry`: the columns of its record, those with a default filled
in. -/
structure CycleRow where
  record : CognitiveCycleRecord
  payloadJson : Dict String Json
  updatedAt : String

/-- The primary key. -/
structure CycleKey where
  sessionId : String
  graphKind : GraphKind
  cycleId : String
  deriving DecidableEq, Repr

namespace CognitiveCycleRecord

/-- The key of a record. -/
def key (record : CognitiveCycleRecord) : CycleKey :=
  ⟨record.sessionId, record.graphKind, record.cycleId⟩

/-- A record that was read, as it is written again before it is resumed. -/
def resumed (record : CognitiveCycleRecord) : CognitiveCycleRecord :=
  { record with
    status := .running
    updatedAt := none }

/-- A record that was read, as it is written when its resumption has returned. -/
def recovered (record : CognitiveCycleRecord) (terminal : Bool) : CognitiveCycleRecord :=
  { record with
    status := if terminal then .completed else .running
    payload := some ((record.payload.getD Dict.empty).set "recovery_terminal_ok" (.bool terminal))
    updatedAt := none }

/-- What identifies a cycle and its origin: all but the status, the payload and the time. -/
def identity (record : CognitiveCycleRecord) : CognitiveCycleRecord :=
  { record with
    status := .running
    payload := none
    updatedAt := none }

end CognitiveCycleRecord

/-- The key of a row. -/
def CycleRow.key (row : CycleRow) : CycleKey := row.record.key

/-- `status IN ('pending', 'running')`. -/
def CycleStatus.resumable (status : CycleStatus) : Bool := status ∈ [pending, running]

/-- `_row_to_record`. Source `joker/persistence/cognitive_cycle_registry.py:147–162`. -/
def CycleRow.toRecord (row : CycleRow) : CognitiveCycleRecord :=
  { row.record with
    payload := some row.payloadJson
    updatedAt := some row.updatedAt }

/-- A row's record has the row's key. -/
@[simp] theorem CycleRow.key_toRecord (row : CycleRow) : row.toRecord.key = row.key := rfl

/-- The table. Source `joker/persistence/cognitive_cycle_registry.py:66–162`. -/
structure CognitiveCycleRegistry where
  rows : List CycleRow
  unique : (rows.map CycleRow.key).Nodup

namespace CognitiveCycleRegistry

/-- A table without rows. -/
def empty : CognitiveCycleRegistry := ⟨[], List.nodup_nil⟩

/-- The row that is written for a record; `now` is the text of the clock. -/
def rowOf (record : CognitiveCycleRecord) (now : String) : CycleRow :=
  { record := record
    payloadJson := record.payload.getD Dict.empty
    updatedAt :=
      match record.updatedAt with
      | some text => if text = "" then now else text
      | none => now }

/-- `upsert`. Source `joker/persistence/cognitive_cycle_registry.py:84–113`. -/
def upsert (registry : CognitiveCycleRegistry) (record : CognitiveCycleRecord) (now : String) :
    CognitiveCycleRegistry where
  rows := Joker.Base.upsert CycleRow.key registry.rows (rowOf record now)
  unique := nodup_upsert registry.unique

/-- The `WHERE` clause of `list_resumable`. -/
def unfinished (sessionId : String) (row : CycleRow) : Bool :=
  decide (row.record.sessionId = sessionId) && row.record.status.resumable

/-- `list_resumable`. Source `joker/persistence/cognitive_cycle_registry.py:115–128`. -/
def listResumable (registry : CognitiveCycleRegistry) (sessionId : String) :
    List CognitiveCycleRecord :=
  ((registry.rows.filter (unfinished sessionId)).insertionSort
    (fun a b ↦ a.updatedAt ≤ b.updatedAt)).map CycleRow.toRecord

/-- `get`. Source `joker/persistence/cognitive_cycle_registry.py:130–144`. -/
def get (registry : CognitiveCycleRegistry) (key : CycleKey) : Option CognitiveCycleRecord :=
  (registry.rows.find? (fun row ↦ row.key = key)).map CycleRow.toRecord

/-! ### What the queries find -/

variable {registry : CognitiveCycleRegistry} {record : CognitiveCycleRecord} {now : String}

/-- The registry upserts by the key of the cycle. -/
@[simp] theorem rows_upsert : (registry.upsert record now).rows =
    Joker.Base.upsert CycleRow.key registry.rows (rowOf record now) := rfl

/-- The record of a key after a write. -/
theorem get_upsert (key : CycleKey) : (registry.upsert record now).get key =
    if record.key = key then some (rowOf record now).toRecord else registry.get key := by
  have hkey : (rowOf record now).key = record.key := rfl
  unfold get
  rw [rows_upsert, find?_upsert, hkey, apply_ite (Option.map CycleRow.toRecord)]
  rfl

/-- A listed record is the one of its key. -/
theorem get_of_mem_rows {row : CycleRow} (h : row ∈ registry.rows) :
    registry.get row.key = some row.toRecord := by
  have hfind : registry.rows.find? (fun other ↦ other.key = row.key) = some row := by
    cases hfound : registry.rows.find? (fun other ↦ other.key = row.key) with
    | none => exact absurd (decide_eq_true rfl) (List.find?_eq_none.mp hfound row h)
    | some other =>
      have hsame : other.key = row.key := by simpa using List.find?_some hfound
      rw [List.inj_on_of_nodup_map registry.unique (List.mem_of_find?_eq_some hfound) h hsame]
  unfold get
  rw [hfind]
  rfl

/-- The keys of a session's unfinished cycles, the one written last at the end. -/
def unfinishedKeys (registry : CognitiveCycleRegistry) (sessionId : String) : List CycleKey :=
  (registry.rows.filter (unfinished sessionId)).map CycleRow.key

/-- An unfinished cycle joins the queue at its end, any other write takes a cycle out. -/
theorem unfinishedKeys_upsert (sessionId : String) :
    (registry.upsert record now).unfinishedKeys sessionId =
      if record.sessionId = sessionId ∧ record.status.resumable = true then
        touch (registry.unfinishedKeys sessionId) record.key
      else leave (registry.unfinishedKeys sessionId) record.key := by
  unfold unfinishedKeys
  rw [rows_upsert, keys_filter_upsert]
  congr 1
  unfold unfinished rowOf
  rw [Bool.and_eq_true, decide_eq_true_eq]

/-- `list_resumable` lists every unfinished cycle once. -/
theorem listResumable_perm (registry : CognitiveCycleRegistry) (sessionId : String) :
    ((registry.listResumable sessionId).map CognitiveCycleRecord.key).Perm
      (registry.unfinishedKeys sessionId) := by
  unfold listResumable unfinishedKeys
  rw [List.map_map]
  exact (List.perm_insertionSort _ _).map CycleRow.key

/-- Unfinished cycles in the order of their times are listed in that order. -/
theorem listResumable_of_increasing {sessionId : String}
    (h : (registry.rows.filter (unfinished sessionId)).Pairwise
      (fun a b ↦ a.updatedAt < b.updatedAt)) :
    (registry.listResumable sessionId).map CognitiveCycleRecord.key =
      registry.unfinishedKeys sessionId := by
  have hsorted : (registry.rows.filter (unfinished sessionId)).Pairwise
      (fun a b ↦ a.updatedAt ≤ b.updatedAt) := h.imp le_of_lt
  unfold listResumable unfinishedKeys
  rw [hsorted.insertionSort_eq, List.map_map]
  rfl

/-- A listed record is that of an unfinished row. -/
theorem mem_listResumable {sessionId : String} (h : record ∈ registry.listResumable sessionId) :
    ∃ row ∈ registry.rows, row.toRecord = record ∧ unfinished sessionId row = true := by
  obtain ⟨row, hrow, rfl⟩ := List.mem_map.mp h
  obtain ⟨hmem, hunfinished⟩ := List.mem_filter.mp ((List.mem_insertionSort _).mp hrow)
  exact ⟨row, hmem, rfl, hunfinished⟩

end CognitiveCycleRegistry
end Joker.Persistence
