import Mathlib.Data.List.Sort
import Mathlib.Data.List.Nodup

/-!
# Tables whose writes replace

Library `Base`. A table with a primary key in which every write deletes the row of its key and
appends the new one. The rows that satisfy a predicate are then a queue of keys: a write of such a
row moves its key to the end, a write of any other row takes its key out.
-/

namespace Joker.Base

section

variable {K R : Type} [DecidableEq K]

/-- `INSERT OR REPLACE`. -/
def upsert (key : R → K) (rows : List R) (row : R) : List R :=
  rows.filter (fun old ↦ key old ≠ key row) ++ [row]

/-- A key leaves a queue. -/
def leave (queue : List K) (k : K) : List K := queue.filter (fun other ↦ other ≠ k)

/-- A key joins a queue at its end, or moves there. -/
def touch (queue : List K) (k : K) : List K := leave queue k ++ [k]

/-- A key leaves the queue, and no other one does. -/
@[simp] theorem mem_leave {queue : List K} {k a : K} : a ∈ leave queue k ↔ a ∈ queue ∧ a ≠ k := by
  simp [leave]

/-- A key that is touched is in the queue, beside those before. -/
@[simp] theorem mem_touch {queue : List K} {k a : K} : a ∈ touch queue k ↔ a = k ∨ a ∈ queue := by
  by_cases h : a = k
  · simp [touch, h]
  · simp [touch, h]

/-- A key that is not in the queue does not have to leave it. -/
theorem leave_of_notMem {queue : List K} {k : K} (h : k ∉ queue) : leave queue k = queue := by
  apply List.filter_eq_self.mpr
  intro a ha
  simp only [decide_eq_true_eq]
  rintro rfl
  exact h ha

/-- A queue that a key leaves stays without duplicates. -/
theorem nodup_leave {queue : List K} (h : queue.Nodup) (k : K) : (leave queue k).Nodup :=
  List.filter_sublist.nodup h

/-- A queue in which a key is touched stays without duplicates. -/
theorem nodup_touch {queue : List K} (h : queue.Nodup) (k : K) : (touch queue k).Nodup := by
  unfold touch
  rw [List.nodup_append]
  refine ⟨nodup_leave h k, List.nodup_singleton k, ?_⟩
  intro a ha b hb
  rw [List.mem_singleton.mp hb]
  exact (mem_leave.mp ha).2

/-- Joining twice is joining once. -/
theorem touch_touch (queue : List K) (k : K) : touch (touch queue k) k = touch queue k := by
  unfold touch leave
  rw [List.filter_append, List.filter_filter, List.filter_cons_of_neg (by simp)]
  simp

/-- A key that joined leaves as if it had not. -/
theorem leave_touch (queue : List K) (k : K) : leave (touch queue k) k = leave queue k := by
  unfold touch leave
  rw [List.filter_append, List.filter_filter, List.filter_cons_of_neg (by simp)]
  simp

/-- Keys that leave a queue or move to its end, one after another: the others come first, and then
those that stay, in the order in which they moved. -/
theorem foldl_leave_or_touch {moves : List (K × Bool)} (hnodup : (moves.map Prod.fst).Nodup)
    (queue : List K) :
    moves.foldl (fun queue move ↦ if move.2 then leave queue move.1 else touch queue move.1) queue =
      queue.filter (fun k ↦ k ∉ moves.map Prod.fst) ++
        (moves.filter (fun move ↦ !move.2)).map Prod.fst := by
  induction moves generalizing queue with
  | nil => simp
  | cons move rest ih =>
    obtain ⟨k, leaves⟩ := move
    obtain ⟨hk, hrest⟩ := List.nodup_cons.mp hnodup
    have hothers : (leave queue k).filter (fun a ↦ a ∉ rest.map Prod.fst) =
        queue.filter (fun a ↦ a ∉ ((k, leaves) :: rest).map Prod.fst) := by
      unfold leave
      rw [List.filter_filter]
      apply List.filter_congr
      intro a _
      simp only [List.map_cons, List.mem_cons, not_or, Bool.decide_and, Bool.and_comm]
    rw [List.foldl_cons, ih hrest]
    cases leaves with
    | true =>
      simp only [if_true]
      rw [hothers]
      rfl
    | false =>
      have hstays : (touch queue k).filter (fun a ↦ a ∉ rest.map Prod.fst) =
          queue.filter (fun a ↦ a ∉ ((k, false) :: rest).map Prod.fst) ++ [k] := by
        unfold touch
        have hk' : [k].filter (fun a ↦ a ∉ rest.map Prod.fst) = [k] :=
          List.filter_cons_of_pos (decide_eq_true hk)
        rw [List.filter_append, hothers, hk']
      simp only [Bool.false_eq_true, if_false]
      rw [hstays, List.append_assoc]
      rfl

variable {key : R → K} {rows : List R} {row : R}

/-- The row of a key after a write. -/
theorem find?_upsert (k : K) : (upsert key rows row).find? (fun r ↦ key r = k) =
    if key row = k then some row else rows.find? (fun r ↦ key r = k) := by
  unfold upsert
  rw [List.find?_append, List.find?_filter]
  split
  · next hk =>
    have hnone : rows.find? (fun r ↦ decide (decide (key r ≠ key row) = true ∧
        decide (key r = k) = true)) = none := by
      rw [List.find?_eq_none]
      intro r _ hboth
      simp only [decide_eq_true_eq] at hboth
      exact hboth.1 (hboth.2.trans hk.symm)
    have hrow : [row].find? (fun r ↦ key r = k) = some row :=
      List.find?_cons_of_pos (decide_eq_true hk)
    rw [hnone, hrow]
    rfl
  · next hk =>
    have hsame : (fun r ↦ decide (decide (key r ≠ key row) = true ∧ decide (key r = k) = true)) =
        fun r ↦ decide (key r = k) := by
      funext r
      by_cases hr : key r = k
      · simp [hr, Ne.symm hk]
      · simp [hr]
    rw [hsame, List.find?_cons_of_neg (by simpa using hk), List.find?_nil, Option.or_none]

/-- An upsert puts its row in and takes out the rows of its key. -/
theorem mem_upsert {r : R} : r ∈ upsert key rows row ↔ r = row ∨ r ∈ rows ∧ key r ≠ key row := by
  unfold upsert
  rw [List.mem_append, List.mem_filter, List.mem_singleton, or_comm, decide_eq_true_eq]

/-- The primary key stays unique. -/
theorem nodup_upsert (h : (rows.map key).Nodup) : ((upsert key rows row).map key).Nodup := by
  unfold upsert
  rw [List.map_append, List.map_singleton, List.nodup_append]
  refine ⟨(List.filter_sublist.map key).nodup h, List.nodup_singleton _, ?_⟩
  intro a ha b hb
  obtain ⟨old, hold, rfl⟩ := List.mem_map.mp ha
  rw [List.mem_singleton.mp hb]
  exact of_decide_eq_true (List.mem_filter.mp hold).2

/-- The keys of the rows that satisfy a predicate after a write. -/
theorem keys_filter_upsert (p : R → Bool) : ((upsert key rows row).filter p).map key =
    if p row = true then touch ((rows.filter p).map key) (key row)
    else leave ((rows.filter p).map key) (key row) := by
  have hothers : ((rows.filter (fun old ↦ key old ≠ key row)).filter p).map key =
      leave ((rows.filter p).map key) (key row) := by
    unfold leave
    rw [List.filter_map, List.filter_filter, List.filter_filter]
    apply congrArg (List.map key)
    apply List.filter_congr
    intro old _
    exact Bool.and_comm _ _
  unfold upsert
  rw [List.filter_append, List.map_append, hothers]
  split
  · next hp => rw [List.filter_cons_of_pos hp]; rfl
  · next hp => rw [List.filter_cons_of_neg hp]; exact List.append_nil _

/-- A write later than all rows leaves the rows in the order of their times. -/
theorem pairwise_upsert {lt : R → R → Prop} (h : rows.Pairwise lt)
    (hlater : ∀ old ∈ rows, lt old row) : (upsert key rows row).Pairwise lt := by
  unfold upsert
  rw [List.pairwise_append]
  refine ⟨h.sublist List.filter_sublist, List.pairwise_singleton lt row, ?_⟩
  intro old hold new hnew
  rw [List.mem_singleton.mp hnew]
  exact hlater old (List.mem_filter.mp hold).1

end

end Joker.Base
