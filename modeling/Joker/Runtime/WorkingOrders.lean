import Joker.Ledger.Projector

/-!
# Working orders and open positions

Library `Runtime`. What `joker/runtime/order_action_gateway.py` extracts from a ledger
projection before it checks a request. Quantities are cut to whole contracts with `int`.
-/

namespace Joker.Runtime

open Joker.Base Joker.Ledger

/-- `int(q)`: towards zero. -/
def pyInt (q : ℚ) : ℤ := q.num.tdiv q.den

/-- A whole number is cut to itself. -/
@[simp] theorem pyInt_intCast (n : ℤ) : pyInt n = n := by
  unfold pyInt
  rw [Rat.num_intCast, Rat.den_intCast]
  exact Int.tdiv_one n

/-- Cutting a quantity that is not negative makes it no larger. -/
theorem pyInt_le {q : ℚ} (h : 0 ≤ q) : (pyInt q : ℚ) ≤ q := by
  unfold pyInt
  rw [Int.tdiv_eq_ediv_of_nonneg (Rat.num_nonneg.mpr h)]
  have hmul : q.num / q.den * q.den ≤ q.num := Int.ediv_mul_le _ (by exact_mod_cast q.den_nz)
  calc ((q.num / q.den : ℤ) : ℚ) ≤ q.num / q.den := by
        rw [le_div_iff₀ (by exact_mod_cast q.den_pos)]
        exact_mod_cast hmul
    _ = q := Rat.num_div_den q

/-- `_WORKING_STATUSES`. Source `joker/runtime/order_action_gateway.py:30–42`. -/
def workingStatuses : List String :=
  ["submitted", "accepted", "partially_filled", "open", "WORKING", "working"]

/-- `WorkingOrderTruth`. Source `joker/runtime/order_action_gateway.py:55–65`. -/
structure WorkingOrderTruth where
  clientOrderId : String
  contractId : String
  side : Side
  requestedQuantity : ℤ
  filledQuantity : ℤ
  remainingQuantity : ℤ
  status : String
  proposalId : Option String
  deriving DecidableEq

/-- One turn of the loop of `working_orders_from_projection`. -/
def workingOrder (proposalIdByClientOrder : Dict String String) (order : OrderLifecycle) :
    Option WorkingOrderTruth :=
  if order.status.value ∈ workingStatuses ∧ order.clientOrderId ≠ "" then
    some
      { clientOrderId := order.clientOrderId
        contractId := order.contractId
        side := order.side
        requestedQuantity := pyInt order.submittedQty
        filledQuantity := pyInt order.filledQty
        remainingQuantity := max 0 (pyInt order.submittedQty - pyInt order.filledQty)
        status := order.status.value
        proposalId := proposalIdByClientOrder.get? order.clientOrderId }
  else none

/-- `working_orders_from_projection`. Source `joker/runtime/order_action_gateway.py:106–163`. -/
def workingOrdersFromProjection (projection : Option ProjectionState)
    (proposalIdByClientOrder : Dict String String) : List WorkingOrderTruth :=
  match projection with
  | none => []
  | some projection =>
    projection.orders.values.filterMap (workingOrder proposalIdByClientOrder)

/-- The projected statuses that count as working. -/
theorem value_mem_workingStatuses {status : OrderStatus} :
    status.value ∈ workingStatuses ↔ status ∈ [.submitted, .accepted, .partiallyFilled] := by
  cases status <;> decide

/-- `open_positions_from_projection`: by contract id, or by key where a position has no
contract id. Source `joker/runtime/order_action_gateway.py:166–192`. -/
def openPositionsFromProjection (projection : Option ProjectionState) :
    Dict String PositionState :=
  match projection with
  | none => Dict.empty
  | some projection =>
    projection.positions.entries.foldl (fun openPos e ↦
      if e.2.quantity = 0 then openPos
      else
        let cid := if e.2.contractId = "" then e.1 else e.2.contractId
        if cid = "" then openPos else openPos.set cid e.2) Dict.empty

private theorem get?_openPositions_of_entries {P : String → PositionState → Prop}
    (entries : List (String × PositionState)) (openPos : Dict String PositionState)
    (hkeyed : ∀ e ∈ entries, e.2.contractId = e.1) (hentries : ∀ e ∈ entries, P e.1 e.2)
    (hopen : ∀ c, ∀ pos ∈ openPos.get? c, P c pos) :
    ∀ c, ∀ pos ∈ (entries.foldl (fun openPos e ↦
      if e.2.quantity = 0 then openPos
      else
        let cid := if e.2.contractId = "" then e.1 else e.2.contractId
        if cid = "" then openPos else openPos.set cid e.2) openPos).get? c, P c pos := by
  induction entries generalizing openPos with
  | nil => exact hopen
  | cons e rest ih =>
    apply ih _ (fun e he ↦ hkeyed e (List.mem_cons_of_mem _ he))
      (fun e he ↦ hentries e (List.mem_cons_of_mem _ he))
    dsimp only
    split
    · exact hopen
    · simp only [hkeyed e List.mem_cons_self, ite_self]
      split
      · exact hopen
      · intro c pos hpos
        rw [Dict.get?_set] at hpos
        split at hpos
        · next hc =>
          cases hpos
          exact hc ▸ hentries e List.mem_cons_self
        · exact hopen c pos hpos

/-- An open position is the projection's position of the contract. -/
theorem get?_of_openPositions {projection : ProjectionState}
    (hkeyed : projection.positions.Keyed (fun pos ↦ pos.contractId)) {c : String}
    {pos : PositionState}
    (h : (openPositionsFromProjection (some projection)).get? c = some pos) :
    projection.positions.get? c = some pos := by
  refine get?_openPositions_of_entries (P := fun c pos ↦ projection.positions.get? c = some pos)
    projection.positions.entries Dict.empty ?_ ?_ (fun c pos hpos ↦ nomatch hpos) c pos h
  · intro e he
    exact hkeyed e.1 e.2 ((Dict.mem_entries_iff _ _ _).mp he)
  · intro e he
    exact (Dict.mem_entries_iff _ _ _).mp he

/-- `has_working_entry_order`. Source `joker/runtime/order_action_gateway.py:195–196`. -/
def hasWorkingEntryOrder (working : List WorkingOrderTruth) : Bool :=
  working.any (fun order ↦ order.side = .buy && decide (0 < order.remainingQuantity))

end Joker.Runtime
